import WalkieSongie.CentralLedger
set_option autoImplicit false

/-!
Runs of the central: what its loop keeps whatever the operating system answers and whenever the host
calls.
-/

namespace WalkieSongie.Ble
open Carrier (BleAddress BleHostError BleHostEvent)
open TaskProgram
open TrainLane (History)

variable {L : FragmentLibrary} {maxTxRetainedBytes : Nat}
  {train : BleWriteMessage → List (List UInt8)} {run : TxRun L}

/-! ### The scheduler's operations -/

@[simp]
theorem withQueue_faulted (tx : DriverTxScheduler L) (messages : List (DriverTxMessage L))
    (priority : BleWritePriority) : (tx.withQueue messages priority).faulted = tx.faulted := by
  cases priority <;> rfl

theorem nextPriority_faulted (tx : DriverTxScheduler L) :
    tx.nextPriority.2.faulted = tx.faulted := by
  unfold DriverTxScheduler.nextPriority
  repeat' split
  all_goals rfl

theorem prepareNext_faulted (tx : DriverTxScheduler L) :
    tx.prepareNext.2.faulted = tx.faulted := by
  have hchosen := nextPriority_faulted tx
  unfold DriverTxScheduler.prepareNext
  split
  · rfl
  · split
    next tx' hnext => rw [hnext] at hchosen; exact hchosen
    next priority tx' hnext =>
      rw [hnext] at hchosen
      split
      · exact hchosen
      · dsimp only
        split <;> simpa using hchosen

theorem prepareNext_pending {tx : DriverTxScheduler L} {prepared : PreparedTxFragment}
    (h : tx.prepareNext.1 = .ok (some prepared)) : tx.prepareNext.2.pending = some prepared := by
  unfold DriverTxScheduler.prepareNext at h ⊢
  split at h
  next pending hpending => cases h; exact hpending
  next hnone =>
    split at h
    next => cases h
    next priority tx' hnext =>
      split at h
      · cases h
      · dsimp only at h ⊢
        split at h <;> cases h
        rfl

theorem faulted_enqueue (driver : Driver L) (reserved : ReservedWriteMessage) :
    (driver.enqueue reserved).2.tx.faulted = driver.tx.faulted := by
  rcases Driver.enqueue_cases driver reserved with ⟨error,hrefused⟩ | ⟨cursor,-,-,hqueued⟩
  · rw [hrefused]
  · rw [hqueued]
    exact withQueue_faulted _ _ _

theorem faulted_confirmPending (driver : Driver L) :
    driver.confirmPending.2.tx.faulted = driver.tx.faulted := by
  unfold Driver.confirmPending
  split
  · rfl
  · dsimp only
    split
    · split
      · rfl
      · exact withQueue_faulted _ _ _
    · rfl

theorem TxRun.faulted_step (run : TxRun L) {op : TxOp} (hfault : op ≠ .fault)
    (hfresh : op ≠ .freshConnection) :
    (run.step maxTxRetainedBytes train op).driver.tx.faulted = run.driver.tx.faulted := by
  cases op with
  | reserve message => simp only [TxRun.step]; split <;> rfl
  | discard index => simp only [TxRun.step]; split <;> rfl
  | enqueue index =>
    simp only [TxRun.step]
    split
    · rfl
    · rename_i reserved hreserved
      have hkept := faulted_enqueue
        { run.driver with waiting := run.driver.waiting.eraseIdx index } reserved
      split
      · rename_i hended
        rw [hended] at hkept
        exact hkept
      · rename_i hended
        rw [hended] at hkept
        exact hkept
  | prepareNext => exact prepareNext_faulted run.driver.tx
  | confirmPending =>
    simp only [TxRun.step]
    split
    · rfl
    · exact faulted_confirmPending run.driver
  | fault => exact absurd rfl hfault
  | freshConnection => exact absurd rfl hfresh

theorem TxRun.confirmed_step (run : TxRun L) {op : TxOp} (hfault : op ≠ .fault)
    (hfresh : op ≠ .freshConnection) (hconfirm : op ≠ .confirmPending)
    (priority : BleWritePriority) :
    ((run.step maxTxRetainedBytes train op).history priority).confirmed =
        (run.history priority).confirmed ∧
      ((run.step maxTxRetainedBytes train op).history priority).returned =
        (run.history priority).returned := by
  cases op with
  | reserve message => simp only [TxRun.step]; split <;> exact ⟨rfl,rfl⟩
  | discard index => simp only [TxRun.step]; split <;> exact ⟨rfl,rfl⟩
  | enqueue index =>
    simp only [TxRun.step]
    split
    · exact ⟨rfl,rfl⟩
    · rename_i reserved hreserved
      split
      · by_cases hsame : priority = reserved.message.priority
        · subst hsame
          simp [TxRun.noteAccepted]
        · simp [TxRun.noteAccepted,Function.update_of_ne hsame]
      · exact ⟨rfl,rfl⟩
  | prepareNext => exact ⟨rfl,rfl⟩
  | confirmPending => exact absurd rfl hconfirm
  | fault => exact absurd rfl hfault
  | freshConnection => exact absurd rfl hfresh

theorem TxRun.Reached.step (h : run.Reached maxTxRetainedBytes train) (op : TxOp) :
    (run.step maxTxRetainedBytes train op).Reached maxTxRetainedBytes train := by
  obtain ⟨ops,rfl⟩ := h
  exact ⟨ops ++ [op],by simp [TxRun.after]⟩

/-! ### What the loop keeps -/

namespace Central

variable {central after : Central L} {address : BleAddress}

def ofPriority {α : Type} (priority : BleWritePriority) (items : List (BleWritePriority × α)) :
    List α :=
  (items.filter fun item => item.1 = priority).map Prod.snd

def served (central : Central L) : Option BleAddress := central.connection.map Connection.address

/-- The fragments that were written to the board that is served, and the messages that the host was
told are written, are those that the scheduler has confirmed. -/
structure Delivered (fragments : List (BleWritePriority × List UInt8))
    (completed : List (BleWritePriority × UInt16)) (central : Central L) : Prop where
  told : told central.sent =
    some (central.served.map fun address => (address,completed.map Prod.snd))
  written : central.connection ≠ none → written central.calls = fragments.map Prod.snd
  confirmed : ∀ priority,
    (central.tx.history priority).confirmed = ofPriority priority fragments
  returned : ∀ priority,
    (central.tx.history priority).returned = ofPriority priority completed

def TxReached (central : Central L) : Prop :=
  central.tx.Reached central.platform.maxTxRetainedBytes central.platform.train

structure Sound (central : Central L) : Prop where
  ledger : Ledger central.served central.served central
  faulted : central.tx.driver.tx.faulted = central.connection.isNone
  waiting : central.pendingConnect.isSome = true →
    central.connection = none ∧ central.scanState.isActive = true
  reached : central.TxReached
  emptied : central.connection = none → central.tx.history = fun _ => {}
  accounted : Accounted central
  delivered : ∃ fragments completed, Delivered fragments completed central

/-- The stream is faulted: what was queued is gone, and nothing more is written. -/
structure Silent (central : Central L) : Prop where
  faulted : central.tx.driver.tx.faulted = true
  history : central.tx.history = fun _ => {}
  reached : central.TxReached
  accounted : Accounted central
  told : ∃ completed, told central.sent =
    some (central.served.map fun address => (address,completed))

theorem Silent.apart (h : Silent central) (hapart : Apart central after) : Silent after where
  faulted := hapart.tx ▸ h.faulted
  history := hapart.tx ▸ h.history
  reached := by
    rw [TxReached,hapart.platform,hapart.tx]
    exact h.reached
  accounted := hapart.accounted h.accounted
  told := by
    rw [hapart.told,served,hapart.connection]
    exact h.told

theorem Silent.setPending (h : Silent central) (pendingConnect : Option PendingConnect) :
    Silent { central with pendingConnect } := 
  ⟨h.faulted,h.history,h.reached,h.accounted,h.told⟩

theorem Sound.fault (h : Sound central) :
    Silent { central with
      tx := central.tx.step central.platform.maxTxRetainedBytes central.platform.train
        .fault } := by
  obtain ⟨fragments,completed,hdelivered⟩ := h.delivered
  exact ⟨rfl,rfl,h.reached.step .fault,h.accounted,_,hdelivered.told⟩

theorem Silent.sound (h : Silent central) (hnone : central.connection = none)
    (hledger : Ledger none none central)
    (hwaiting : central.pendingConnect.isSome = true → central.scanState.isActive = true) :
    Sound central := by
  have hserved : central.served = none := by rw [served,hnone,Option.map_none]
  obtain ⟨completed,htold⟩ := h.told
  refine ⟨by rw [hserved]; exact hledger,by rw [h.faulted,hnone,Option.isNone_none],
    fun hpending => ⟨hnone,hwaiting hpending⟩,h.reached,
    fun _ => h.history,h.accounted,[],[],⟨?_,fun hsome => absurd hnone hsome,
      fun priority => ?_,fun priority => ?_⟩⟩
  · rw [hserved] at htold ⊢
    exact htold
  · rw [h.history]
    rfl
  · rw [h.history]
    rfl

theorem Sound.idle_ledger (h : Sound central) (hnone : central.connection = none) :
    Ledger none none central := by
  have hledger := h.ledger
  rwa [served,hnone] at hledger

/-! ### Rules for the loop -/

variable {Q : Central L → Prop}

abbrev Ends {α : Type} (Q : α → Central L → Prop) : EStateM.Result Empty (Central L) α → Prop :=
  Post Q fun _ _ => False

theorem ends_of_stays {α : Type} {program : EStateM Empty (Central L) α}
    {R : Central L → Central L → Prop} (h : Stays R program) (central : Central L) :
    Ends (fun _ => R central) (program central) :=
  Post.mono (h central) (fun _ _ => id) fun error => error.elim

theorem reporting_post {program : CentralM L Unit}
    (h : Post (fun _ => Q) (fun _ after => ∀ last, Leaves after last → Q last) (program central)) :
    Ends (fun _ => Q) (reporting program central) := by
  refine Post.attempt (Post.mono h (fun _ _ => id) fun error after hafter => ?_)
  exact Post.mono (ends_of_stays (stays_sendHostError error) after)
    (fun _ last hlast => hafter last hlast) fun _ _ => id

theorem pendingOn_post {program : CentralM L Unit}
    (h : Post (fun _ => Q)
      (fun _ after => ∀ last, Leaves { after with pendingConnect := none } last → Q last)
      (program central)) : Ends (fun _ => Q) (pendingOn program central) := by
  refine Post.attempt (Post.mono h (fun _ _ => id) fun error after hafter => ?_)
  refine Post.modifying ?_
  exact Post.mono (ends_of_stays (stays_sendHostError error) _)
    (fun _ last hlast => hafter last hlast) fun _ _ => id

theorem run_of_ends {program : LoopM L Unit} (h : Ends (fun _ => Q) (program central)) :
    Q (central.run program) := by
  unfold Central.run
  cases hended : program central with
  | ok value after => rw [hended] at h; exact h
  | error error after => exact error.elim

/-- What is left where nothing is served any more. -/
structure Closed (central after : Central L) : Prop where
  silent : Silent after
  connection : after.connection = none
  ledger : Ledger none none after
  pendingConnect : after.pendingConnect = central.pendingConnect
  scanState : after.scanState = central.scanState

theorem disconnect_post {heard : Option BleAddress}
    (hledger : Ledger (some address) heard central) :
    Ends (fun _ => Reaches none heard central)
      (reporting (asking "disconnect" (.disconnect address) id) central) := by
  refine reporting_post (post_ask fun answer => ?_)
  have hdown := hledger.disconnected (fun other hother => (Option.some.inj hother).symm) answer
  cases answer with
  | ok value => exact hdown
  | error error =>
    exact fun last hlast => (hlast.reaches hdown.ledger).before hdown.toApart hdown.scanState

theorem disconnectCurrent_post (h : Silent central)
    (hledger : Ledger central.served central.served central) (reason : Option String) :
    Ends (fun _ after => Closed central after) (disconnectCurrent reason central) := by
  refine Post.getting ?_
  cases hconnection : central.connection with
  | none =>
    have hserved : central.served = none := by rw [served,hconnection,Option.map_none]
    exact ⟨h,hconnection,by rw [hserved] at hledger; exact hledger,rfl,rfl⟩
  | some active =>
    have hserved : central.served = some active.address := by
      rw [served,hconnection,Option.map_some]
    obtain ⟨completed,htold⟩ := h.told
    rw [hserved] at hledger htold
    refine Post.setting (post_ask fun aborted => ?_)
    have hunheard : Ledger (some active.address) none
        (asked { central with connection := none } (.abortListener active.address) aborted) := by
      refine Ledger.asked (hledger.of_eq rfl rfl rfl) hledger.scan (fun _ _ hsame => ?_)
        hledger.links (by simp [listenStep])
      cases hsame
    refine Post.bind (disconnect_post hunheard) fun _ down hdown => ?_
    have hnone : (down.sending (.disconnected active.address reason)).connection = none := by
      rw [sending_connection,hdown.connection]
      rfl
    refine ⟨⟨?_,?_,?_,?_,[],?_⟩,hnone,hdown.ledger.of_eq (by simp) (by simp) (by simp),?_,?_⟩
    · rw [sending_tx,hdown.tx]
      exact h.faulted
    · rw [sending_tx,hdown.tx]
      exact h.history
    · rw [TxReached,sending_tx,sending_platform,hdown.tx,hdown.platform]
      exact h.reached
    · exact (hdown.accounted h.accounted).sending rfl
    · rw [told_sending,hdown.told,served,hnone]
      simp only [asked,htold,Option.map_some,toldStep,if_true,Option.map_none]
    · rw [sending_pendingConnect,hdown.pendingConnect]
      rfl
    · rw [sending_scanState,hdown.scanState]
      rfl

/-! ### A connection -/

theorem serve_post (h : Silent central) (hnone : central.connection = none)
    {connection : Connection}
    (hledger : Ledger (some connection.address) (some connection.address) central)
    (hempty : written central.calls = []) :
    Ends (fun _ => Sound) ((do
      setPending none
      installConnection connection
      setTx .freshConnection) central) := by
  have hserved : central.served = none := by rw [served,hnone,Option.map_none]
  obtain ⟨completed,htold⟩ := h.told
  rw [hserved,Option.map_none] at htold
  refine Post.modifying (Post.bind (R := fun _ after => ∃ informed,
    Leaves ({ central with pendingConnect := none }.sending
      (.connected connection.address connection.maxFragmentValueBytes)) informed ∧
    after = { informed with connection := some { connection with initialInfo := none } }) ?_ ?_)
  · refine Post.modifying ?_
    cases connection.initialInfo with
    | none => exact ⟨_,.refl _,rfl⟩
    | some info => exact ⟨_,.sending _ rfl,rfl⟩
  · rintro - after ⟨informed,hinformed,rfl⟩
    have htx : informed.tx = central.tx := by rw [hinformed.tx,sending_tx]
    have hplatform : informed.platform = central.platform := by
      rw [hinformed.platform,sending_platform]
    refine ⟨?_,rfl,?_,?_,nofun,?_,[],[],?_,?_,fun priority => rfl,fun priority => rfl⟩
    · exact (hinformed.ledger (some connection.address) (some connection.address)
        (hledger.of_eq (by simp) (by simp) (by simp))).of_eq rfl rfl rfl
    · intro hpending
      have hpending : informed.pendingConnect.isSome = true := hpending
      rw [hinformed.pendingConnect,sending_pendingConnect] at hpending
      cases hpending
    · refine TxRun.Reached.step ?_ .freshConnection
      rw [htx,hplatform]
      exact h.reached
    · exact hinformed.accounted (Accounted.sending (by exact h.accounted) rfl)
    · have hsent := hinformed.told
      rw [told_sending] at hsent
      simp only [htold,toldStep,if_true] at hsent
      simpa [served] using hsent
    · intro _
      have hwritten := hinformed.written
      rw [sending_calls] at hwritten
      exact hwritten.trans hempty

theorem pendingOn_sound (h : Silent central) (hnone : central.connection = none)
    (hledger : Ledger none none central) {program : CentralM L Unit}
    (hprogram : Post (fun _ after => Keeps central after ∧ after.scanState.isActive = true)
      (fun _ => Keeps central) (program central)) :
    Ends (fun _ => Sound) (pendingOn program central) := by
  refine pendingOn_post (Post.mono hprogram ?_ ?_)
  · rintro - after ⟨hafter,hactive⟩
    exact (h.apart hafter.toApart).sound (hafter.connection.trans hnone) (hafter.ledger _ _ hledger)
      fun _ => hactive
  · intro _ after hafter last hlast
    have hsilent : Silent { after with pendingConnect := none } :=
      (h.apart hafter.toApart).setPending none
    refine (hsilent.apart hlast.toApart).sound
      (hlast.connection.trans (hafter.connection.trans hnone))
      (hlast.ledger _ _ ((hafter.ledger _ _ hledger).of_eq rfl rfl rfl)) fun hpending => ?_
    rw [hlast.pendingConnect] at hpending
    cases hpending

/-- A try ends with a board that is served, with nothing pending, or with a discovery that is on. -/
theorem tryPending_post (h : Silent central) (hnone : central.connection = none)
    (hledger : Ledger none none central) {gone : LoopM L Unit}
    (hgone : ∀ after, Tried central none after → Ends (fun _ => Sound) (gone after)) :
    Ends (fun _ => Sound) (tryPending address gone central) := by
  refine Post.attempt (Post.mono (tryConnectVisible_post hledger) ?_ ?_)
  · intro found after hafter
    cases found with
    | none => exact hgone after hafter
    | some connection =>
      exact serve_post (h.apart hafter.toApart) (hafter.connection.trans hnone) hafter.ledger
        (hafter.written (by simp))
  · intro error after hafter
    have hsilent := h.apart hafter.toApart
    have hnone := hafter.connection.trans hnone
    dsimp only
    split
    · refine Post.modifying (Post.modifying ?_)
      have htold := @Leaves.sending _ (.diagnostic
        s!"{error.text}; continuing bounded board discovery")
        { after with
          pendingConnect := after.pendingConnect.map fun pending =>
            { pending with lastIssue := some error.text } } rfl
      have hnoted : Silent { after with
          pendingConnect := after.pendingConnect.map fun pending =>
            { pending with lastIssue := some error.text } } :=
        hsilent.setPending _
      exact pendingOn_sound (hnoted.apart htold.toApart) (htold.connection.trans hnone)
        (htold.ledger _ _ (hafter.ledger.of_eq rfl rfl rfl)) (reopenAdapterAndScan_post _)
    · refine Post.modifying
        (Post.mono (ends_of_stays (stays_sendHostError error) _) ?_ fun _ _ => id)
      intro _ last hlast
      have hnoted := hsilent.setPending none
      refine (hnoted.apart hlast.toApart).sound (hlast.connection.trans hnone)
        (hlast.ledger _ _ (hafter.ledger.of_eq rfl rfl rfl)) fun hpending => ?_
      rw [hlast.pendingConnect] at hpending
      cases hpending

/-! ### Commands -/

theorem Sound.silent (h : Sound central) (hnone : central.connection = none) : Silent central := by
  obtain ⟨fragments,completed,hdelivered⟩ := h.delivered
  refine ⟨by rw [h.faulted,hnone,Option.isNone_none],h.emptied hnone,h.reached,h.accounted,_,
    hdelivered.told⟩

theorem Sound.keeps (h : Sound central) (hkeeps : Keeps central after)
    (hwaiting : after.pendingConnect.isSome = true → after.scanState.isActive = true) :
    Sound after := by
  obtain ⟨fragments,completed,hdelivered⟩ := h.delivered
  have hserved : after.served = central.served := by rw [served,hkeeps.connection,served]
  refine ⟨?_,?_,fun hpending => ⟨?_,hwaiting hpending⟩,?_,?_,hkeeps.accounted h.accounted,
    fragments,completed,?_,?_,?_,?_⟩
  · rw [hserved]
    exact hkeeps.ledger _ _ h.ledger
  · rw [hkeeps.tx,hkeeps.connection]
    exact h.faulted
  · rw [hkeeps.connection]
    exact (h.waiting (hkeeps.pendingConnect ▸ hpending)).1
  · rw [TxReached,hkeeps.platform,hkeeps.tx]
    exact h.reached
  · rw [hkeeps.connection,hkeeps.tx]
    exact h.emptied
  · rw [hkeeps.told,hserved]
    exact hdelivered.told
  · rw [hkeeps.connection,hkeeps.written]
    exact hdelivered.written
  · rw [hkeeps.tx]
    exact hdelivered.confirmed
  · rw [hkeeps.tx]
    exact hdelivered.returned

theorem Sound.leaves (h : Sound central) (hleaves : Leaves central after) : Sound after := by
  refine h.keeps hleaves.toKeeps fun hpending => ?_
  rw [hleaves.scanState]
  exact (h.waiting (hleaves.pendingConnect ▸ hpending)).2

/-- The queues to and from the host do not count. -/
theorem Sound.of_eq (h : Sound central) (hplatform : after.platform = central.platform)
    (hconnection : after.connection = central.connection)
    (hpending : after.pendingConnect = central.pendingConnect) (htx : after.tx = central.tx)
    (hscan : after.scanState = central.scanState) (hadapter : after.adapter = central.adapter)
    (hcalls : after.calls = central.calls) (hsent : after.sent = central.sent)
    (haccounted : Accounted after) : Sound after := by
  obtain ⟨fragments,completed,hdelivered⟩ := h.delivered
  have hserved : after.served = central.served := by rw [served,hconnection,served]
  refine ⟨?_,?_,?_,?_,?_,haccounted,fragments,completed,?_,?_,?_,?_⟩
  · rw [hserved]
    exact h.ledger.of_eq hcalls hadapter hscan
  · rw [htx,hconnection]
    exact h.faulted
  · rw [hpending,hconnection,hscan]
    exact h.waiting
  · rw [TxReached,hplatform,htx]
    exact h.reached
  · rw [hconnection,htx]
    exact h.emptied
  · rw [hsent,hserved]
    exact hdelivered.told
  · rw [hconnection,hcalls]
    exact hdelivered.written
  · rw [htx]
    exact hdelivered.confirmed
  · rw [htx]
    exact hdelivered.returned

theorem ends_of_leaves {program : LoopM L Unit} (h : Sound central)
    (hprogram : Stays Leaves program) : Ends (fun _ => Sound) (program central) :=
  Post.mono (ends_of_stays hprogram central) (fun _ _ hafter => h.leaves hafter) fun _ _ => id

/-- An operation that confirms nothing leaves what was delivered as it is. -/
theorem Sound.setTx (h : Sound central) {op : TxOp} (hfault : op ≠ .fault)
    (hfresh : op ≠ .freshConnection) (hconfirm : op ≠ .confirmPending)
    (hidle : central.connection = none → (central.tx.step central.platform.maxTxRetainedBytes
      central.platform.train op).history = central.tx.history) :
    Sound { central with
      tx := central.tx.step central.platform.maxTxRetainedBytes central.platform.train op } := by
  obtain ⟨fragments,completed,hdelivered⟩ := h.delivered
  refine ⟨h.ledger.of_eq rfl rfl rfl,(central.tx.faulted_step hfault hfresh).trans h.faulted,
    h.waiting,h.reached.step op,fun hnone => (hidle hnone).trans (h.emptied hnone),
    h.accounted,fragments,completed,hdelivered.told,hdelivered.written,
    fun priority => ?_,fun priority => ?_⟩
  · exact (central.tx.confirmed_step hfault hfresh hconfirm priority).1.trans
      (hdelivered.confirmed priority)
  · exact (central.tx.confirmed_step hfault hfresh hconfirm priority).2.trans
      (hdelivered.returned priority)

theorem closing_post (h : Silent central) (hledger : Ledger central.served central.served central)
    (hwaiting : central.pendingConnect.isSome = true → central.scanState.isActive = true)
    (reason : Option String) : Ends (fun _ => Sound) (disconnectCurrent reason central) := by
  refine Post.mono (disconnectCurrent_post h hledger reason) ?_ fun _ _ => id
  intro _ after hafter
  refine hafter.silent.sound hafter.connection hafter.ledger fun hpending => ?_
  rw [hafter.scanState]
  exact hwaiting (hafter.pendingConnect ▸ hpending)

theorem reporting_stopOwnedScan (central : Central L) :
    Ends (fun _ => Keeps central) (reporting stopOwnedScan central) :=
  reporting_post (Post.mono (stays_stopOwnedScan central) (fun _ _ => id)
    fun _ _ hafter _ hlast => hafter.trans hlast.toKeeps)

theorem connect_post (h : Sound central) (address : BleAddress) :
    Ends (fun _ => Sound) (handleCommand (.connect address) central) := by
  refine Post.modifying (Post.bind (disconnectCurrent_post h.fault
    (h.ledger.of_eq rfl rfl rfl) none) fun _ closed hclosed => ?_)
  refine Post.getting (Post.modifying ?_)
  have hsilent := hclosed.silent.setPending
    (some ⟨address,closed.clock+connectRediscoveryTimeout,none⟩)
  refine tryPending_post hsilent hclosed.connection (hclosed.ledger.of_eq rfl rfl rfl)
    fun after hafter => ?_
  refine pendingOn_sound (hsilent.apart hafter.toApart)
    (hafter.connection.trans hclosed.connection) hafter.ledger ?_
  exact Post.mono (ensureScanActive_post after) (fun _ _ => id) fun _ _ hfailed => hfailed.1

theorem handleCommand_post (h : Sound central) (command : DriverCommand) :
    Ends (fun _ => Sound) (handleCommand command central) := by
  cases command with
  | startScan =>
    refine reporting_post (Post.mono (ensureScanActive_post central) ?_ ?_)
    · rintro - after ⟨hafter,hactive⟩
      exact h.keeps hafter fun _ => hactive
    · rintro - after ⟨hafter,hidle⟩ last hlast
      refine h.keeps (hafter.trans hlast.toKeeps) fun hpending => ?_
      rw [hlast.pendingConnect,hafter.pendingConnect] at hpending
      have hactive := (h.waiting hpending).2
      simp [hidle,ScanState.isActive] at hactive
  | stopScan =>
    refine Post.getting ?_
    split
    · rename_i hnone
      have hpending : ∀ {last : Central L}, Keeps central last →
          last.pendingConnect.isSome = true → last.scanState.isActive = true := by
        intro last hlast hsome
        rw [hlast.pendingConnect,Option.isNone_iff_eq_none.mp hnone] at hsome
        cases hsome
      refine Post.mono (reporting_stopOwnedScan central) ?_ fun _ _ => id
      exact fun _ after hafter => h.keeps hafter (hpending hafter)
    · exact h
  | connect address => exact connect_post h address
  | disconnect =>
    refine Post.modifying (Post.modifying ?_)
    have hsilent := h.fault.setPending none
    refine Post.bind (reporting_stopOwnedScan _) fun _ after hafter => ?_
    have hserved : after.served = central.served := by rw [served,hafter.connection]; rfl
    refine closing_post (hsilent.apart hafter.toApart) ?_ (fun hpending => ?_) none
    · rw [hserved]
      exact hafter.ledger _ _ (h.ledger.of_eq rfl rfl rfl)
    · rw [hafter.pendingConnect] at hpending
      cases hpending
  | writeMessage =>
    refine Post.getting ?_
    split
    · refine Post.modifying (ends_of_leaves (h.setTx (by simp) (by simp) (by simp) fun _ => ?_)
        (stays_sendHostError _))
      simp only [TxRun.step]
      split <;> rfl
    · rename_i hsome
      have hqueued : Sound { central with
          tx := central.tx.step central.platform.maxTxRetainedBytes central.platform.train
            (.enqueue 0) } :=
        h.setTx (by simp) (by simp) (by simp) fun hnone => absurd (by simp [hnone]) hsome
      refine Post.modifying ?_
      cases central.tx.driver.waiting.head? with
      | none => exact hqueued
      | some reserved =>
        dsimp only
        cases (central.tx.driver.enqueue reserved).1 with
        | ok value => exact hqueued
        | error error => exact ends_of_leaves hqueued (stays_sendHostError _)
  | shutdown => exact h

/-! ### Fragments -/

theorem Sound.nothing_pending (h : Sound central) (hsome : central.connection ≠ none) :
    central.pendingConnect.isSome = false := by
  cases hpending : central.pendingConnect.isSome with
  | false => rfl
  | true => exact absurd (h.waiting hpending).1 hsome

theorem Sound.write_ledger (h : Sound central) (address : BleAddress) (uuid : Nat)
    (value : List UInt8)
    (writeType : WriteType) (answer : Except OsError Unit) :
    Ledger central.served central.served
      (central.asked (.write address uuid value writeType) answer) :=
  h.ledger.asked h.ledger.scan (fun _ _ hsame => by cases hsame) h.ledger.links rfl

theorem Sound.write_failed (h : Sound central) (uuid : Nat) (value : List UInt8)
    (writeType : WriteType) (error : OsError) :
    Sound (central.asked (.write address uuid value writeType) (.error error)) := by
  obtain ⟨fragments,completed,hdelivered⟩ := h.delivered
  refine ⟨h.write_ledger address uuid value writeType _,h.faulted,h.waiting,h.reached,
    h.emptied,h.accounted,
    fragments,completed,hdelivered.told,fun hsome => ?_,hdelivered.confirmed,hdelivered.returned⟩
  simp only [asked,written_append,writeStep]
  exact hdelivered.written hsome

theorem fault_post (h : Sound central) (error : BleHostError) (reason : Option String) :
    Ends (fun _ => Sound) ((do
      setTx .fault
      sendHostError error
      disconnectCurrent reason : LoopM L Unit) central) := by
  refine Post.modifying (Post.bind (ends_of_stays (stays_sendHostError error) _)
    fun _ after hafter => ?_)
  have hserved : after.served = central.served := by rw [served,hafter.connection]; rfl
  refine closing_post (h.fault.apart hafter.toApart) ?_ (fun hpending => ?_) reason
  · rw [hserved]
    exact hafter.ledger _ _ (h.ledger.of_eq rfl rfl rfl)
  · rw [hafter.scanState]
    exact (h.waiting (hafter.pendingConnect ▸ hpending)).2

theorem ofPriority_append {α : Type} (priority : BleWritePriority)
    (items others : List (BleWritePriority × α)) :
    ofPriority priority (items ++ others) =
      ofPriority priority items ++ ofPriority priority others := by
  simp [ofPriority]

theorem ofPriority_toList {α : Type} (priority other : BleWritePriority) (item : Option α) :
    ofPriority priority (item.toList.map fun item => (other,item)) =
      if priority = other then item.toList else [] := by
  cases item with
  | none => simp [ofPriority]
  | some item =>
    by_cases hsame : priority = other
    · simp [ofPriority,hsame]
    · simp [ofPriority,hsame,Ne.symm hsame]

/-- The state after a fragment was written and confirmed; the host may have been told of a
message. -/
theorem Sound.confirmed (h : Sound central) {active : Connection} {prepared : PreparedTxFragment}
    (hconnection : central.connection = some active)
    (hpending : central.tx.driver.tx.pending = some prepared) (uuid : Nat) (writeType : WriteType)
    {last : Central L}
    (hlast : Apart { central with
      tx := central.tx.step central.platform.maxTxRetainedBytes central.platform.train
        .confirmPending
      sent := last.sent } last)
    (hcalls : last.calls = central.calls ++
      [⟨.write active.address uuid prepared.value writeType,.ok ()⟩])
    (hadapter : last.adapter = central.adapter) (hscan : last.scanState = central.scanState)
    (haccounted : Accounted last)
    (htold : ∀ completed, told central.sent = some (some (active.address,completed)) →
      told last.sent = some (some (active.address,
        completed ++ central.tx.driver.confirmPending.1.toList))) : Sound last := by
  obtain ⟨fragments,completed,hdelivered⟩ := h.delivered
  have hserved : central.served = some active.address := by
    rw [served,hconnection,Option.map_some]
  have hserved' : last.served = some active.address := by
    rw [served,hlast.connection,hconnection,Option.map_some]
  have hsome : central.connection ≠ none := by simp [hconnection]
  have htx : last.tx = ⟨central.tx.driver.confirmPending.2,
      TxRun.noteConfirmed prepared central.tx.driver.confirmPending.1 central.tx.history⟩ := by
    rw [hlast.tx]
    simp only [TxRun.step,hpending]
  have hledger := h.write_ledger active.address uuid prepared.value writeType (.ok ())
  rw [hserved] at hledger
  refine ⟨?_,?_,fun hwaits => ?_,?_,fun hnone => ?_,haccounted,
    fragments ++ [(prepared.priority,prepared.value)],
    completed ++ central.tx.driver.confirmPending.1.toList.map fun id => (prepared.priority,id),
    ?_,fun _ => ?_,fun priority => ?_,fun priority => ?_⟩
  · rw [hserved']
    exact hledger.of_eq hcalls hadapter hscan
  · rw [htx,hlast.connection]
    exact (faulted_confirmPending central.tx.driver).trans h.faulted
  · rw [hlast.pendingConnect] at hwaits
    have hidle := h.nothing_pending hsome
    exact absurd (hidle.symm.trans hwaits) (by simp)
  · rw [TxReached,hlast.platform,hlast.tx]
    exact h.reached.step .confirmPending
  · rw [hlast.connection] at hnone
    exact absurd hnone hsome
  · rw [hserved',Option.map_some,htold _ (by rw [hdelivered.told,hserved,Option.map_some])]
    simp [Function.comp_def]
  · rw [hcalls,written_append,writeStep,hdelivered.written hsome]
    simp
  · rw [htx,ofPriority_append,← hdelivered.confirmed]
    by_cases hsame : priority = prepared.priority
    · subst hsame
      simp [TxRun.noteConfirmed,ofPriority]
    · simp [TxRun.noteConfirmed,Function.update_of_ne hsame,ofPriority,Ne.symm hsame]
  · rw [htx,ofPriority_append,ofPriority_toList,← hdelivered.returned]
    by_cases hsame : priority = prepared.priority
    · subst hsame
      simp [TxRun.noteConfirmed]
    · simp [TxRun.noteConfirmed,hsame]

/-- A fragment that was written is confirmed, and the message that it completes is told of. -/
theorem confirm_post (h : Sound central) {active : Connection} {prepared : PreparedTxFragment}
    (hconnection : central.connection = some active)
    (hpending : central.tx.driver.tx.pending = some prepared) (uuid : Nat)
    (writeType : WriteType) :
    Ends (fun _ => Sound) ((do
      let returned := (← get).tx.driver.confirmPending.1
      setTx .confirmPending
      returned.forM fun messageId => sendEvent (.writeComplete messageId) : LoopM L Unit)
      (central.asked (.write active.address uuid prepared.value writeType) (.ok ()))) := by
  refine Post.getting (Post.modifying ?_)
  cases hreturned : (central.asked (.write active.address uuid prepared.value writeType)
    (.ok ())).tx.driver.confirmPending.1 with
  | none =>
    have hreturned : central.tx.driver.confirmPending.1 = none := hreturned
    refine h.confirmed hconnection hpending uuid writeType ?_ rfl rfl rfl h.accounted
      fun completed htold => ?_
    · exact ⟨rfl,rfl,rfl,rfl,rfl,rfl,rfl,rfl,id⟩
    · rw [hreturned,Option.toList_none,List.append_nil]
      exact htold
  | some messageId =>
    have hreturned : central.tx.driver.confirmPending.1 = some messageId := hreturned
    refine h.confirmed hconnection hpending uuid writeType ?_
      (sending_calls _ _) (sending_adapter _ _) (sending_scanState _ _)
      (Accounted.sending (by exact h.accounted) rfl) fun completed htold => ?_
    · exact ⟨sending_platform _ _,sending_running _ _,sending_connection _ _,
        sending_pendingConnect _ _,sending_tx _ _,sending_commands _ _,sending_shutdown _ _,rfl,
        fun _ => Accounted.sending (by exact h.accounted) rfl⟩
    · refine (told_sending _ _).trans ?_
      rw [hreturned]
      change toldStep (told central.sent) _ = _
      rw [htold]
      rfl

theorem transmit_post (h : Sound central) : Ends (fun _ => Sound) (transmit central) := by
  have hprepared : Sound { central with
      tx := central.tx.step central.platform.maxTxRetainedBytes central.platform.train
        .prepareNext } := h.setTx (by simp) (by simp) (by simp) fun _ => rfl
  refine Post.getting (Post.modifying ?_)
  cases hresult : central.tx.driver.tx.prepareNext.1 with
  | error error =>
    have hfault := fault_post hprepared (.operation error) (some "BLE TX framing fault")
    cases hconnection : central.connection <;>
      rw [hconnection] at hfault <;> exact hfault
  | ok found =>
    cases hconnection : central.connection with
    | none =>
      rw [hconnection] at hprepared
      exact hprepared
    | some active =>
      rw [hconnection] at hprepared
      cases found with
      | none => exact hprepared
      | some prepared =>
        refine post_ask fun answer => ?_
        cases answer with
        | ok value => exact confirm_post hprepared rfl (prepareNext_pending hresult) _ _
        | error error =>
          exact fault_post (hprepared.write_failed _ _ _ error) _ (some "BLE TX write failed")

/-! ### Ticks and turns -/

theorem tickPending_post (h : Sound central) : Ends (fun _ => Sound) (tickPending central) := by
  refine Post.getting ?_
  cases hpending : central.pendingConnect with
  | none => exact h
  | some pending =>
    obtain ⟨hnone,hactive⟩ := h.waiting (by rw [hpending]; rfl)
    dsimp only
    split
    · refine Post.modifying (Post.bind (reporting_stopOwnedScan _) fun _ after hafter => ?_)
      have hsound : Sound after := by
        refine (((h.silent hnone).setPending none).apart hafter.toApart).sound
          (hafter.connection.trans hnone)
          (hafter.ledger _ _ ((h.idle_ledger hnone).of_eq rfl rfl rfl)) fun hsome => ?_
        rw [hafter.pendingConnect] at hsome
        cases hsome
      exact ends_of_leaves hsound (stays_sendHostError _)
    · refine tryPending_post (h.silent hnone) hnone (h.idle_ledger hnone) fun after hafter => ?_
      refine ((h.silent hnone).apart hafter.toApart).sound (hafter.connection.trans hnone)
        hafter.ledger fun _ => ?_
      rw [hafter.scanState rfl]
      exact hactive

theorem lost_post (h : Sound central) {active : Connection}
    (hconnection : central.connection = some active) :
    Ends (fun _ => Sound) ((do
      setTx .fault
      ask (.abortListener active.address)
      modify fun central => { central with connection := none }
      sendEvent (.disconnected active.address
        (some "operating system reported link loss")) : LoopM L Unit)
      (central.asked (.isConnected active.address) (.ok false))) := by
  have hledger := h.ledger
  rw [served,hconnection,Option.map_some] at hledger
  have hdown : Ledger none (some active.address)
      (central.asked (.isConnected active.address) (.ok false)) := by
    refine hledger.asked hledger.scan (fun _ _ hsame => by cases hsame)
      (fun other hlinked => ?_) rfl
    by_cases hsame : other = active.address
    · simp [takeStep,hsame] at hlinked
    · rw [takeStep,Function.update_of_ne hsame] at hlinked
      exact absurd (Option.some.inj (hledger.links other hlinked)).symm hsame
  obtain ⟨completed,htold⟩ := h.fault.told
  have htold : told central.sent = some (some (active.address,completed)) := by
    refine htold.trans ?_
    rw [served,hconnection]
    rfl
  refine Post.modifying (post_ask fun aborted => Post.modifying ?_)
  refine Silent.sound ⟨?_,?_,?_,Accounted.sending (by exact h.accounted) rfl,[],?_⟩
    (sending_connection _ _) ?_ fun hpending => ?_
  · rw [sending_tx]
    exact h.fault.faulted
  · rw [sending_tx]
    exact h.fault.history
  · rw [TxReached,sending_tx,sending_platform]
    exact h.fault.reached
  · rw [told_sending,served,sending_connection]
    change toldStep (told central.sent) _ = _
    rw [htold]
    simp [toldStep]
  · have hunheard : Ledger none none
        ((central.asked (.isConnected active.address) (.ok false)).asked
          (.abortListener active.address) aborted) := by
      refine hdown.asked hdown.scan (fun _ _ hsame => ?_) hdown.links (by simp [listenStep])
      cases hsame
    exact hunheard.of_eq (sending_calls _ _) (sending_adapter _ _) (sending_scanState _ _)
  · rw [sending_pendingConnect] at hpending
    exact absurd ((h.nothing_pending (by simp [hconnection])).symm.trans hpending) (by simp)

theorem tickConnection_post (h : Sound central) :
    Ends (fun _ => Sound) (tickConnection central) := by
  refine Post.getting ?_
  cases hconnection : central.connection with
  | none => exact h
  | some active =>
    refine post_ask fun answer => ?_
    cases answer with
    | ok connected =>
      cases connected with
      | true => exact h.leaves (Leaves.asked central rfl _)
      | false => exact lost_post h hconnection
    | error error =>
      exact fault_post (h.leaves (Leaves.asked central rfl _)) _
        (some "BLE connection check failed")

theorem tick_post (h : Sound central) : Ends (fun _ => Sound) (tick central) := by
  have hscan : Ends (fun _ => Sound) (tickScan central) := by
    refine Post.getting ?_
    split
    · exact ends_of_leaves h stays_refreshScanResults
    · exact h
  exact Post.bind hscan fun _ _ hscanned => Post.bind (tickPending_post hscanned)
    fun _ _ hpending => tickConnection_post hpending

theorem Sound.discard (h : Sound central) (index : Nat) :
    Sound { central with
      tx := central.tx.step central.platform.maxTxRetainedBytes central.platform.train
        (.discard index) } := by
  refine h.setTx (by simp) (by simp) (by simp) fun _ => ?_
  simp only [TxRun.step]
  split <;> rfl

theorem discards_post (waiting : List ReservedWriteMessage) (h : Sound central.ended) :
    Ends (fun _ after => Sound after.ended)
      ((waiting.forM fun _ => setTx (.discard 0) : LoopM L PUnit) central) := by
  induction waiting generalizing central with
  | nil => exact h
  | cons reserved waiting ih => exact Post.modifying (ih (h.discard 0))

theorem Silent.ended (h : Silent central) (hnone : central.connection = none)
    (hledger : Ledger none none central) : Sound central.ended := by
  refine Silent.sound ⟨h.faulted,h.history,h.reached,h.accounted,h.told⟩ hnone
    ⟨fun howned => (by cases howned),hledger.stops,hledger.links,hledger.listener⟩
    fun hpending => ?_
  cases hpending

theorem stop_post (h : Sound central) : Ends (fun _ => Sound) (stop central) := by
  refine Post.modifying (Post.bind (disconnectCurrent_post h.fault
    (h.ledger.of_eq rfl rfl rfl) (some "BLE driver stopped")) fun _ closed hclosed => ?_)
  refine Post.bind (releaseScan_post closed) fun _ released hreleased => Post.getting ?_
  have hended : Sound released.ended :=
    @Silent.ended _ { released with scanState := .idle }
      (hclosed.silent.apart hreleased.toApart) (hreleased.connection.trans hclosed.connection)
      (hreleased.ledger _ _ hclosed.ledger)
  exact Post.bind (discards_post _ hended) fun _ _ hlast => hlast

theorem stopIfGone_post (h : Sound central) : Ends (fun _ => Sound) (stopIfGone central) := by
  refine Post.getting ?_
  split
  · exact stop_post h
  · exact h

theorem turn_post (h : Sound central) (branch : Branch) :
    Ends (fun _ => Sound) (turn branch central) := by
  cases branch with
  | command =>
    refine Post.getting ?_
    cases central.commands.pop with
    | none => exact stopIfGone_post h
    | some next =>
      obtain ⟨command,commands⟩ := next
      have hpopped : Sound { central with commands } :=
        h.of_eq rfl rfl rfl rfl rfl rfl rfl rfl h.accounted
      refine Post.setting ?_
      split
      · exact stop_post hpopped
      · exact Post.bind (handleCommand_post hpopped command) fun _ _ => stopIfGone_post
  | transmit =>
    refine Post.getting ?_
    split
    · exact Post.bind (transmit_post h) fun _ _ => stopIfGone_post
    · exact h
  | tick => exact Post.bind (tick_post h) fun _ _ => stopIfGone_post

/-! ### Runs -/

/-- The states of a central, whatever the operating system answers and whenever the host calls. -/
inductive Reachable (platform : Platform L) : Central L → Prop where
  | start : Reachable platform (({ platform } : Central L).run start)
  | step {central : Central L} (h : Reachable platform central) (event : Event) :
    Reachable platform (central.step event)

theorem Sound.command {command : DriverCommand} (h : Sound central)
    (hcommand : central.command command = .ok after) : Sound after := by
  unfold Central.command at hcommand
  split at hcommand
  · cases hcommand
  · split at hcommand
    · cases hcommand
      exact h.of_eq rfl rfl rfl rfl rfl rfl rfl rfl h.accounted
    · cases hcommand

theorem Sound.writeRxMessage (h : Sound central) (message : BleWriteMessage) :
    Sound (central.writeRxMessage message).2 := by
  have hreserved : Sound { central with
      tx := central.tx.step central.platform.maxTxRetainedBytes central.platform.train
        (.reserve message) } := by
    refine h.setTx (by simp) (by simp) (by simp) fun _ => ?_
    simp only [TxRun.step]
    split <;> rfl
  unfold Central.writeRxMessage
  split
  · exact h
  · dsimp only
    split
    · rename_i hcommand
      exact hreserved.command hcommand
    · exact hreserved.discard _

theorem Sound.step (h : Sound central) (event : Event) : Sound (central.step event) := by
  cases event with
  | turn branch =>
    simp only [Central.step]
    split
    · exact run_of_ends (turn_post h branch)
    · exact h
  | meanwhile meanwhile => exact h.leaves (.during central meanwhile)
  | command command =>
    simp only [Central.step]
    split
    · exact h
    · split
      · rename_i hcommand
        exact h.command hcommand
      · exact h
  | write message =>
    simp only [Central.step]
    split
    · exact h
    · exact h.writeRxMessage message
  | drop =>
    have hgone : Sound { central with shutdown := true } :=
      h.of_eq rfl rfl rfl rfl rfl rfl rfl rfl ⟨h.accounted.plain,h.accounted.order,nofun⟩
    simp only [Central.step]
    split
    · rename_i hcommand
      exact hgone.command hcommand
    · exact hgone

theorem Sound.start (platform : Platform L) :
    Sound (({ platform } : Central L).run Central.start) := by
  have hfirst : Silent ({ platform } : Central L) :=
    ⟨rfl,rfl,⟨[],rfl⟩,⟨by simp,by simp,fun _ => rfl⟩,[],rfl⟩
  have hledger : Ledger none none ({ platform } : Central L) :=
    ⟨by simp,by simp [StopsOwn],by simp [taken],rfl⟩
  have hkept : ∀ after : Central L, Keeps { platform } after → Sound after := by
    intro after hafter
    refine (hfirst.apart hafter.toApart).sound hafter.connection (hafter.ledger _ _ hledger)
      fun hpending => ?_
    rw [hafter.pendingConnect] at hpending
    cases hpending
  refine run_of_ends (Post.attempt (Post.mono (openAdapter_post _) ?_ ?_))
  · rintro - after ⟨hafter,hidle⟩
    have hsame : { after with scanState := .idle } = after := by
      have hidle : after.scanState = .idle := hidle
      rw [← hidle]
    exact hkept after (hsame ▸ hafter)
  · intro error after hafter
    refine Post.bind (ends_of_stays (stays_sendHostError error) after) fun _ told htold => ?_
    have hnone : told.connection = none := htold.connection.trans hafter.connection
    have hlast := (hkept after hafter).leaves htold
    exact (hlast.silent hnone).ended hnone (hlast.idle_ledger hnone)

theorem Reachable.sound {platform : Platform L} (h : Reachable platform central) :
    Sound central := by
  induction h with
  | start => exact .start platform
  | step _ event ih => exact ih.step event

/-- The driver lets go of what it takes: only discovery that it has started is stopped, every board
but the one that is served is asked to disconnect or found disconnected, and that one's
notifications alone are listened to; a connect that is pending has a discovery on, and no connection
beside it. -/
theorem central_lets_go {platform : Platform L} (h : Reachable platform central) :
    StopsOwn central.calls ∧
      (∀ address, taken central.calls address = true → central.served = some address) ∧
      listening central.calls = some central.served ∧
      (central.scanState = .owned → discovering central.calls = some central.adapter) ∧
      (central.pendingConnect.isSome = true →
        central.connection = none ∧ central.scanState.isActive = true) :=
  ⟨h.sound.ledger.stops,h.sound.ledger.links,h.sound.ledger.listener,h.sound.ledger.scan,
    h.sound.waiting⟩

/-- The host is sent in order which board is connected and which messages are written to it. Of the
messages that were accepted for that connection, those of each priority are written in their order,
each whole before the host is told of it, and nothing else is. -/
theorem central_writes_in_order {remaining : L.Cursor → List (List UInt8)} {platform : Platform L}
    (h : Reachable platform central)
    (hyields : Yields L central.platform.train remaining) :
    ∃ (fragments : List (BleWritePriority × List UInt8))
      (completed : List (BleWritePriority × UInt16))
      (current : BleWritePriority → Option (Train UInt16 (List UInt8))),
      told central.sent =
        some (central.served.map fun address => (address,completed.map Prod.snd)) ∧
      (central.connection ≠ none → written central.calls = fragments.map Prod.snd) ∧
      ∀ priority, TrainLane.Progress
        ⟨(central.tx.history priority).accepted,ofPriority priority fragments,
          ofPriority priority completed⟩ (current priority) := by
  obtain ⟨fragments,completed,hdelivered⟩ := h.sound.delivered
  obtain ⟨ops,hops⟩ := h.sound.reached
  have hholds := TxRun.holds_after central.platform.maxTxRetainedBytes hyields holds_start ops
  rw [← hops] at hholds
  have hprogress : ∀ priority, ∃ current,
      TrainLane.Progress (central.tx.history priority) current := fun priority => by
    obtain ⟨done,sent,hexact⟩ := hholds.exact priority
    exact ⟨_,hexact.progress⟩
  choose current hcurrent using hprogress
  refine ⟨fragments,completed,current,hdelivered.told,hdelivered.written,fun priority => ?_⟩
  rw [← hdelivered.confirmed,← hdelivered.returned]
  exact hcurrent priority

/-- No event is lost unaccounted: what the host has polled and what waits for it are in the order in
which they were sent, and the rest is counted. -/
theorem central_accounts_events {platform : Platform L} (h : Reachable platform central) :
    ((central.polled.filter fun event => !reportsDropped event) ++
        central.events.items).Sublist central.sent ∧
      (central.shutdown = false → central.sent.length =
        (central.polled.filter fun event => !reportsDropped event).length +
          central.events.items.length + central.dropped + lost central.polled) :=
  ⟨h.sound.accounted.order,h.sound.accounted.count⟩

/-! ### A run that can be evaluated -/

def board : BleAddress := ⟨"board"⟩

def obligingOs : Os where
  answer _
    | .openAdapter => .ok true
    | .startScan _ | .stopScan _ | .connect _ | .disconnect _ | .discoverServices _
    | .openNotifications _ | .subscribe _ _ | .write _ _ _ _ => .ok ()
    | .peripherals _ => .ok [board]
    | .properties _ => .ok none
    | .isConnected _ => .ok false
    | .characteristics _ =>
      [⟨0,1,{ write := true }⟩,⟨0,2,{ notify := true }⟩,⟨0,3,{ notify := true, read := true }⟩]
    | .read _ _ => .ok [9]
    | .spawnListener _ | .abortListener _ | .sleep _ => ()
  delay _ _ := 0

/-- The host polls between the two events of a connection. -/
def obliging : Platform byteFragments where
  os := obligingOs
  meanwhile sent := if sent.length = 1 then [.poll] else []
  profile := ⟨0,1,2,3⟩
  maxTxRetainedBytes := 100
  train message := byteTrain message.wire

/-- A message of two fragments is written to the board; another connect lets go of it. -/
def reconnected : List Event :=
  [.command .startScan,.turn .command,.command (.connect board),.turn .command,
    .write ⟨7,[10,11],1,.repair⟩,.turn .command,.turn .transmit,.turn .transmit,
    .command (.connect board),.turn .command,.write ⟨8,[12],1,.repair⟩,.turn .command,
    .turn .transmit,.meanwhile .poll]

theorem Reachable.steps {platform : Platform L} (h : Reachable platform central)
    (events : List Event) : Reachable platform (events.foldl Central.step central) := by
  induction events generalizing central with
  | nil => exact h
  | cons event events ih => exact ih (h.step event)

def reconnectedCentral : Central byteFragments :=
  reconnected.foldl Central.step (({ platform := obliging } : Central byteFragments).run start)

theorem reachable_reconnected : Reachable obliging reconnectedCentral :=
  Reachable.start.steps reconnected

theorem central_lets_go_reconnected :
    reconnectedCentral.served = some board ∧ StopsOwn reconnectedCentral.calls ∧
      listening reconnectedCentral.calls = some (some board) := by
  have hserved : reconnectedCentral.served = some board := by decide
  have hkept := central_lets_go reachable_reconnected
  exact ⟨hserved,hkept.1,hserved ▸ hkept.2.2.1⟩

theorem central_writes_in_order_reconnected :
    told reconnectedCentral.sent = some (some (board,[8])) ∧
      written reconnectedCentral.calls = [[12]] ∧
      ∃ fragments : List (BleWritePriority × List UInt8),
        written reconnectedCentral.calls = fragments.map Prod.snd := by
  have htold : told reconnectedCentral.sent = some (some (board,[8])) := by decide
  have hwritten : written reconnectedCentral.calls = [[12]] := by decide
  have hsome : reconnectedCentral.connection ≠ none := by
    intro hnone
    have hserved : reconnectedCentral.served = some board := by decide
    rw [served,hnone] at hserved
    cases hserved
  obtain ⟨fragments,-,-,-,hfragments,-⟩ :=
    central_writes_in_order reachable_reconnected yields_byteFragments
  exact ⟨htold,hwritten,fragments,hfragments hsome⟩

theorem central_accounts_events_reconnected :
    reconnectedCentral.polled.length = 2 ∧
      reconnectedCentral.sent.length = 2 + reconnectedCentral.events.items.length := by
  have hpolled : (reconnectedCentral.polled.filter fun event => !reportsDropped event).length = 2 :=
    by decide
  have hcount := (central_accounts_events reachable_reconnected).2 (by decide)
  have hdropped : reconnectedCentral.dropped = 0 := by decide
  have hlost : lost reconnectedCentral.polled = 0 := by decide
  rw [hpolled,hdropped,hlost] at hcount
  exact ⟨by decide,hcount⟩

end Central

end WalkieSongie.Ble
