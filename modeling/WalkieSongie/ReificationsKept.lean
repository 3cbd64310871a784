import WalkieSongie.ReificationRuns
import WalkieSongie.WindowStream
set_option autoImplicit false

/-!
A task from its start, as long as its generation lasts: when no local edit is lost, and none is
reified twice.
-/

namespace WalkieSongie.Session
open TaskProgram Relation

variable {L : SessionLibrary} {core : Core L} {world : World L}
  {F : RoomSessionFoundation L → Prop}

/-- The task handles all of these inputs; none of them crashes it or ends its generation. -/
def Core.handled (core : Core L) :
    List (RoomSessionTaskInput L × List EffectAnswer) → Option (Core L)
  | [] => some core
  | event :: rest => match handle event.1 ⟨core,event.2⟩ with
      | .ok _ after => after.core.handled rest
      | .error _ _ => none

/-- No waiting edit that the input lets go is lost. -/
def RoomSessionTaskInput.Reifies (core : Core L) (answers : List EffectAnswer) :
    RoomSessionTaskInput L → Prop
  | .localCommitted commit => CommitReifies core commit answers
  | .observed admitted => ObserveReifies core admitted answers
  | _ => True

def Core.HandledReifies (core : Core L) :
    List (RoomSessionTaskInput L × List EffectAnswer) → Prop
  | [] => True
  | event :: rest => event.1.Reifies core event.2 ∧
      ∀ after, handle event.1 ⟨core,event.2⟩ = .ok () after → after.core.HandledReifies rest

section Steps

theorem accept_kept (hpromises : L.EditPromises) (hlaws : L.RenewalPromises)
    (input : RoomSessionTaskInput L) (hplay : InPlay F world.core) (h : Kept [] world.core)
    (hreifies : input.Reifies world.core world.answers) :
    Ends (fun _ => Kept []) Survives (accept input world) := by
  cases input with
  | configure generation traceEnabled renewalTestCut =>
    exact Ends.modifyTask (h.aside (.of_task rfl rfl rfl))
  | startPeer foundation => exact (startPeer_aside foundation).surviving h
  | application channel decoded =>
    refine Ends.refuseIf (fun _ => h.survives _) fun _ => ?_
    refine Ends.check (fun body hbody => ?_) fun _ _ => h.survives _
    subst hbody
    cases body with
    | localPitchEdit command intentToken =>
      exact localEdit_kept hpromises command intentToken hplay h
    | carrier decoded =>
      refine Ends.check (fun body hbody => ?_) fun _ _ => h.survives _
      exact carrier_kept hpromises hlaws body hplay h
  | localCommitted commit => exact confirmLocal_kept hpromises commit hplay h hreifies
  | observed admitted => exact observe_kept hpromises admitted hplay h hreifies
  | durableAdvanced horizon => exact (advanceAll_aside horizon).surviving h
  | resetProjection horizon =>
    exact Ends.bind ((resetAllProjections_aside horizon).surviving h) fun _ _ h => Ends.pure h
  | repairResynchronized horizon =>
    exact Ends.bind ((resetAllProjections_aside horizon).surviving h) fun _ _ h => Ends.pure h
  | refreshFoundations foundations =>
    refine Ends.bind (R := fun _ => Kept []) (Ends.modifyTask (h.aside (.of_task rfl rfl rfl)))
      fun _ _ h => ?_
    exact startReadyRenewals_aside.surviving h

theorem handle_kept (hpromises : L.EditPromises) (hlaws : L.RenewalPromises)
    (input : RoomSessionTaskInput L) (hplay : InPlay F world.core) (h : Kept [] world.core)
    (hreifies : input.Reifies world.core world.answers) :
    Ends (fun _ => Kept []) (fun _ _ => True) (handle input world) := by
  refine Ends.bind (Ends.mono (Ends.attempt (accept_kept hpromises hlaws input hplay h hreifies))
    (fun _ _ h => h) fun _ _ _ => trivial) fun accepted after hafter => ?_
  cases accepted with
  | ok _ => exact Ends.pure hafter
  | error message =>
    have hsent : Survives (.failed message) (after.core.sends [] (.diagnostic message)) :=
      fun hstop hlive => (hafter hstop hlive).aside (.sends [] _ _)
    have hemitted : Ends (fun _ => Survives (.failed message))
        (fun _ => Survives (.failed message)) (emit (.diagnostic message) after) :=
      Ends.emit hsent (fun _ => hafter) hsent
    refine Ends.bind (R := fun _ => Survives (.failed message)) (Ends.mono (Ends.attempt hemitted)
      (fun outcome core hcore => ?_) fun _ _ _ => trivial) fun _ diagnosed hcore => Ends.getTask ?_
    · cases outcome with
      | ok _ => exact hcore
      | error _ => exact hcore
    · exact Ends.branch (fun _ => trivial) fun hevents => Ends.pure (hcore (by simp) hevents)

theorem handled_kept (hpromises : L.EditPromises) (hlaws : L.RenewalPromises)
    (inputs : List (RoomSessionTaskInput L × List EffectAnswer)) {after : Core L}
    (hplay : InPlay (fun _ => True) core) (h : Kept [] core)
    (hrun : core.handled inputs = some after) (hreifies : core.HandledReifies inputs) :
    Kept [] after := by
  induction inputs generalizing core with
  | nil =>
    cases hrun
    exact h
  | cons event rest ih =>
    obtain ⟨hfirst,hrest⟩ := hreifies
    have hstable : Stable fun _ : RoomSessionFoundation L => True := fun _ _ _ _ _ => trivial
    have hwithin : event.1.Within (fun _ => True) fun _ => True := by
      unfold RoomSessionTaskInput.Within
      split <;> simp
    have hhandled : Ends (fun _ => Kept []) (fun _ _ => True) (handle event.1 ⟨core,event.2⟩) :=
      handle_kept hpromises hlaws event.1 hplay h hfirst
    have hmoves : Runs (Moves (fun _ => True) fun _ => True) (handle event.1) ⟨core,event.2⟩ :=
      handle_runs hwithin hstable hplay
    simp only [Core.handled] at hrun
    cases hstep : handle event.1 ⟨core,event.2⟩ with
    | ok _ middle =>
      rw [Runs,hstep] at hmoves
      rw [hstep] at hhandled hrun
      exact ih (MovesMany.inPlay hstable hmoves hplay) hhandled hrun (hrest middle hstep)
    | error stop middle =>
      rw [hstep] at hrun
      cases hrun

end Steps

section Run

theorem Kept.start (store : RoomSessionRenewalKey → Option L.FloorBytes) :
    Kept [] ({ store := store } : Core L) := by
  have hnowhere : ∀ place, ∀ edit : SessionEdit,
      ¬ edit.Lies ({ store := store } : Core L) place := by
    intro place edit hplace
    cases place with
    | awaitingReification =>
      obtain ⟨active,hactive,-⟩ := hplace
      simp at hactive
    | inflightReifications =>
      obtain ⟨correlations,hfound,-⟩ := hplace
      simp at hfound
    | confirmed => exact List.not_mem_nil hplace
  constructor
  · refine ⟨⟨fun _ hknown => absurd hknown.1 List.not_mem_nil,
      fun _ _ edit hplace => absurd hplace (hnowhere _ edit),
      fun _ edit hplace => absurd hplace (hnowhere _ edit)⟩,List.nodup_nil,
      fun _ hnone => absurd hnone List.not_mem_nil,List.nodup_nil,List.nodup_nil,
      fun _ hnone => absurd hnone List.not_mem_nil,fun session correlations hfound => ?_⟩
    simp at hfound
  · refine ⟨fun edit hplace => absurd hplace (hnowhere .inflightReifications edit),
      fun _ hnone => absurd hnone List.not_mem_nil,fun _ hnone => absurd hnone List.not_mem_nil,
      fun peer active hactive => ?_⟩
    simp at hactive

/-- As long as its generation lasts, a task that reifies what it lets go has every local edit in
one place. -/
theorem edits_lie_in_one_place (hpromises : L.EditPromises) (hlaws : L.RenewalPromises)
    (store : RoomSessionRenewalKey → Option L.FloorBytes)
    (inputs : List (RoomSessionTaskInput L × List EffectAnswer)) (after : Core L)
    (hrun : ({ store := store } : Core L).handled inputs = some after)
    (hreifies : ({ store := store } : Core L).HandledReifies inputs) :
    (∀ edit ∈ after.journal.ingested, (∃! place, edit.Lies after place) ∧
        (edit ∉ after.journal.confirmed → edit.Current after)) ∧
      after.journal.ingested.Nodup ∧ (after.queue.map RoomSessionReification.edit).Nodup := by
  have hkept := handled_kept hpromises hlaws inputs (InPlay.restart { store := store })
    (Kept.start store) hrun hreifies
  refine ⟨fun edit hedit => ⟨?_,fun hunconfirmed => ?_⟩,hkept.accounted.ingestedOnce,
    hkept.accounted.queuedOnce⟩
  · exact hkept.accounted.sorted.exactly ⟨hedit,List.not_mem_nil⟩
  · exact hkept.accounted.awaits_current hedit List.not_mem_nil hkept.standing hunconfirmed

theorem Core.HandledReifies.append
    {inputs rest : List (RoomSessionTaskInput L × List EffectAnswer)}
    (h : core.HandledReifies inputs)
    (hrest : ∀ after, core.handled inputs = some after → after.HandledReifies rest) :
    core.HandledReifies (inputs ++ rest) := by
  induction inputs generalizing core with
  | nil => exact hrest core rfl
  | cons event inputs ih =>
    refine ⟨h.1,fun after hafter => ih (h.2 after hafter) fun last hlast => hrest last ?_⟩
    simp only [Core.handled,hafter]
    exact hlast

end Run

section Plain

theorem windowLibrary_editPromises : windowLibrary.EditPromises where
  planned kernel dot planner plan after h := by
    simp only [windowLibrary,plainLibrary,plainPlan] at h
    split at h
    · cases h
      rfl
    · cases h
  budget lanes h := by
    simp only [windowLibrary,plainLibrary] at h ⊢
    omega
  counted lanes received after _ hsealed := by
    obtain ⟨_,_,_,_,_,_,_,_,hheader,hpacket,-,-,hreceived⟩ := hsealed
    cases hheader
    cases hpacket
    cases hreceived
    rfl
  numbered lanes received after decode event session now length permitted hbudget hsealed hevent
      hpermitted := by
    obtain ⟨_,_,_,_,_,_,_,_,hheader,hpacket,hframe,hdecoded,hreceived⟩ := hsealed
    cases hheader
    cases hpacket
    cases hframe
    cases hdecoded
    cases hreceived
    simp only [windowLibrary,plainLibrary] at hbudget hevent
    split at hevent
    · cases hevent
    · cases hevent
      cases hpermitted
      have hsmall : (lanes : PlainLanes).sealed+1 < 2^8 := by omega
      exact (UInt8.toNat_ofNat' ..).trans (Nat.mod_eq_of_lt hsmall)
  received packet lanes := rfl

/-- Actor 2 answers an offer and edits twice; the second edit waits for the first. -/
def twoEdits : List WindowInput :=
  [windowConfigure,windowStart 2 1 88,windowDeliver windowOffer,windowEdit,windowEdit]

def firstCommit : LocalCommit windowLibrary where
  peer := 1
  session := ((Core.serve {} twoEdits : Core windowLibrary).task.active[1]?.map
    ActiveSession.identity).getD ⟨1,0,0,0⟩
  plan := (⟨0,1,1,1,0⟩ : RoomSessionDurableCorrelation)
  intentToken := some ⟨1,1⟩
  admitted := ⟨(⟨0,1,1,1,0⟩ : RoomSessionDurableCorrelation),(),windowAhead 1⟩

/-- What it leaves, where its effects are answered like this. -/
def firstCommitted (answers : List EffectAnswer) : Core windowLibrary :=
  (({ store := fun _ => none } : Core windowLibrary).handled
    (twoEdits ++ [(.localCommitted firstCommit,answers)])).getD {}

theorem firstCommitted_handled (answers : List EffectAnswer)
    (h : (({ store := fun _ => none } : Core windowLibrary).handled
      (twoEdits ++ [(.localCommitted firstCommit,answers)])).isSome = true) :
    ({ store := fun _ => none } : Core windowLibrary).handled
      (twoEdits ++ [(.localCommitted firstCommit,answers)]) = some (firstCommitted answers) := by
  obtain ⟨after,hafter⟩ := Option.isSome_iff_exists.mp h
  rw [firstCommitted,hafter,Option.getD_some]

def secondEdit : SessionEdit := ⟨firstCommit.session,⟨1,1,2⟩⟩

def editedTwice : Core windowLibrary :=
  (({ store := fun _ => none } : Core windowLibrary).handled twoEdits).getD {}

theorem firstCommit_reifies : CommitReifies editedTwice firstCommit [] := by
  intro _ active kind taken hactive hrecorded _
  have hplans : ∀ active ∈ editedTwice.task.active[1]?, (match recordAndConfirm
      (recordPlanned firstCommit.plan firstCommit.admitted.entry) firstCommit.admitted active with
      | .ok _ taken => taken.plannable.2
      | .error _ _ => true) = true := by decide +kernel
  have hinFlight : ∃ inflight ∈ editedTwice.task.inflightReifications[firstCommit.session]?,
      windowLibrary.planCorrelation firstCommit.plan ∈ inflight := by decide +kernel
  have halone : editedTwice.task.companions firstCommit.peer = [] := by decide +kernel
  have hwhole := hplans active hactive
  rw [hrecorded] at hwhole
  refine ⟨hwhole,hinFlight,?_,fun _ => by simp [AcceptsFirst],fun _ => by simp [AcceptsFirst]⟩
  rw [halone]
  simp [RunsAll]

theorem edits_lie_in_one_place_firstCommitted :
    (∃! place, secondEdit.Lies (firstCommitted []) place) ∧
      secondEdit.InFlight (firstCommitted []) ∧
      ((firstCommitted []).queue.map RoomSessionReification.edit).Nodup := by
  have hrun := firstCommitted_handled [] (by decide +kernel)
  have hedited : ({ store := fun _ => none } : Core windowLibrary).handled twoEdits =
      some editedTwice := by
    obtain ⟨after,hafter⟩ := Option.isSome_iff_exists.mp (show ((({ store := fun _ => none } :
      Core windowLibrary).handled twoEdits).isSome = true) by decide +kernel)
    rw [editedTwice,hafter,Option.getD_some]
  have hreifies : ({ store := fun _ => none } : Core windowLibrary).HandledReifies
      (twoEdits ++ [(.localCommitted firstCommit,[])]) := by
    refine Core.HandledReifies.append ⟨trivial,fun _ _ => ⟨trivial,fun _ _ => ⟨trivial,fun _ _ =>
      ⟨trivial,fun _ _ => ⟨trivial,fun _ _ => trivial⟩⟩⟩⟩⟩ fun after hafter => ?_
    cases hedited.symm.trans hafter
    exact ⟨firstCommit_reifies,fun _ _ => trivial⟩
  obtain ⟨hplaces,-,hqueue⟩ := edits_lie_in_one_place windowLibrary_editPromises
    windowLibrary_renewalPromises (fun _ => none) _ _ hrun hreifies
  exact ⟨(hplaces secondEdit (by decide +kernel)).1,by decide +kernel,hqueue⟩

def refusedSend : List EffectAnswer := [{},{ reply := .refused "closed" }]

/-- The queue refuses the second edit after the confirmation of the first has let it go: it is
nowhere any more, and the task goes on. -/
theorem refused_send_loses_edit :
    windowLibrary.EditPromises ∧ windowLibrary.RenewalPromises ∧
      ({ store := fun _ => none } : Core windowLibrary).handled
        (twoEdits ++ [(.localCommitted firstCommit,refusedSend)]) =
          some (firstCommitted refusedSend) ∧
      secondEdit ∈ (firstCommitted refusedSend).journal.ingested ∧
      ∀ place, ¬ secondEdit.Lies (firstCommitted refusedSend) place := by
  refine ⟨windowLibrary_editPromises,windowLibrary_renewalPromises,
    firstCommitted_handled _ (by decide +kernel),by decide +kernel,fun place => ?_⟩
  cases place with
  | awaitingReification =>
    have h : ¬ secondEdit.Awaits (firstCommitted refusedSend) := by decide +kernel
    exact h
  | inflightReifications =>
    have h : ¬ secondEdit.InFlight (firstCommitted refusedSend) := by decide +kernel
    exact h
  | confirmed =>
    have h : secondEdit ∉ (firstCommitted refusedSend).journal.confirmed := by decide +kernel
    exact h

end Plain

end WalkieSongie.Session
