import WalkieSongie.WindowRuns
set_option autoImplicit false

/-!
What local edits and remote events show: each is one projection, if the host of the presented
session makes one transition for it.
-/

namespace WalkieSongie.Session
open TaskProgram

variable {L : SessionLibrary} {α : Type} {canonical : Nat × Digest} {world : World L}

theorem Post.attempting {program : TaskM L α} {Q : α → World L → Prop} {E : Stop → World L → Prop}
    (h : Post Q E (program world)) :
    Post (fun outcome after => (∃ value, outcome = .ok value ∧ Q value after) ∨
        ∃ message, outcome = .error message ∧ E (.failed message) after)
      (fun stop after => stop = .crash ∧ E .crash after) (attempt program world) := by
  unfold attempt
  cases hrun : program world with
  | ok value after =>
    rw [hrun] at h
    exact .inl ⟨value,rfl,h⟩
  | error stop after =>
    rw [hrun] at h
    cases stop with
    | failed message => exact .inr ⟨message,rfl,h⟩
    | crash => exact ⟨rfl,h⟩

theorem effect_post : Post (fun answer after => answer = world.answers.headD {} ∧
      answer.reply = .accepted ∧ after = ⟨world.core,world.answers.tail⟩)
    (fun _ after => after.core = world.core) (effect false id world) := by
  unfold effect
  cases hreply : (world.answers.headD {}).reply with
  | accepted =>
    simp only [hreply]
    exact ⟨rfl,hreply,rfl⟩
  | refused message =>
    simp only [hreply]
    simp [Post]
  | crash =>
    simp only [hreply]
    simp [Post]

theorem nowTicks_post : Post (fun ticks after => ticks = (world.answers.headD {}).ticks ∧
      (world.answers.headD {}).reply = .accepted ∧ after = ⟨world.core,world.answers.tail⟩)
    (fun _ after => after.core = world.core) (nowTicks world) := by
  refine Post.bind effect_post fun answer after ⟨hanswer,haccepted,hafter⟩ => ?_
  subst hanswer
  exact ⟨rfl,haccepted,hafter⟩

section LocalEdit

/-- What a local edit goes through before its session takes it in. -/
def permitLocal (command : MusicOp) (receiverClockTicks : Nat) :
    ActiveM L (Bytes × L.PermittedEvent) := do
  let active ← get
  orThrow active.preflightLocalEvent
  let sealed ← sealLocal command
  let receiverNow ← receiverLeaseTime receiverClockTicks
  let event ← orThrow (L.tryDecode sealed.2 (decodePitchEdit L))
  let active ← get
  let permitted ← orThrow (L.permitEvent active.session receiverNow event sealed.1.length)
  return (sealed.1,permitted)

def takeLocal (command : MusicOp) (intentToken : PerformanceIntentToken)
    (sealed : Bytes × L.PermittedEvent) : ActiveM L (LocalSessionEvent L) := do
  let _ ← ingest sealed.2
  let plan ← planOrAwait (L.permittedDot sealed.2) command intentToken
  return ⟨command,sealed.1,plan,L.permittedDot sealed.2⟩

theorem localEvent_eq (command : MusicOp) (intentToken : PerformanceIntentToken)
    (receiverClockTicks : Nat) : localEvent (L := L) command intentToken receiverClockTicks = (do
      let sealed ← permitLocal command receiverClockTicks
      takeLocal command intentToken sealed) := by
  simp only [localEvent,permitLocal,takeLocal,bind_assoc,pure_bind]

theorem permitLocal_unmoved (command : MusicOp) (receiverClockTicks : Nat) :
    Stays (Unmoved (L := L)) (permitLocal command receiverClockTicks) := by
  refine Stays.get fun _ => unmoved_foreground.bind (unmoved_foreground.orThrow _) fun _ => ?_
  refine unmoved_foreground.bind (unmoved_foreground.sealLocal command) fun sealed => ?_
  refine unmoved_foreground.bind (unmoved_foreground.receiverLeaseTime _) fun receiverNow => ?_
  refine unmoved_foreground.bind (unmoved_foreground.orThrow _) fun event => Stays.get fun _ => ?_
  exact unmoved_foreground.bind (unmoved_foreground.orThrow _) fun _ => unmoved_foreground.pure _

/-- The host of the presented session makes one transition for the edit. -/
def EditFits (core : Core L) (command : MusicOp) (intentToken : PerformanceIntentToken)
    (answers : List EffectAnswer) : Prop :=
  ∀ peer active sealed taken event after, core.task.events = some intentToken.generation →
    isPitchEdit command = true → core.task.selected = some (peer,active) →
    permitLocal command (answers.tail.headD {}).ticks active = .ok sealed taken →
    takeLocal command intentToken sealed taken = .ok event after →
      ingestTransitions sealed.2 taken = 1

theorem localEvent_ends (hpromises : L.WindowPromises) (command : MusicOp)
    (intentToken : PerformanceIntentToken) (ticks : Nat) {active : ActiveSession L}
    (hstands : Stands canonical active)
    (hfits : ∀ sealed taken event after, permitLocal command ticks active = .ok sealed taken →
      takeLocal command intentToken sealed taken = .ok event after →
        ingestTransitions sealed.2 taken = 1) :
    Post (fun _ after => Publishes canonical .predicted active after) (fun _ _ => True)
      (localEvent command intentToken ticks active) := by
  rw [localEvent_eq]
  have hunmoved := permitLocal_unmoved command ticks active
  cases hpermit : permitLocal command ticks active with
  | error message after =>
    rw [bind_of_error hpermit]
    trivial
  | ok sealed taken =>
    rw [hpermit] at hunmoved
    rw [bind_of_ok hpermit]
    cases htake : takeLocal command intentToken sealed taken with
    | error message after => trivial
    | ok event after =>
      have honce := hfits sealed taken event after hpermit htake
      have htaken : Post (fun _ after => Publishes canonical .predicted active after)
          (fun _ _ => True) (takeLocal command intentToken sealed taken) := by
        refine Post.bind (Post.mono (ingest_ends hpromises sealed.2 (hstands.unmoved hunmoved))
          (fun _ _ h => hunmoved.publishes (h.2 honce).2) fun _ _ h => h)
          fun _ ingested hingested => ?_
        refine Post.bind (R := fun _ after => Publishes canonical .predicted active after)
          (Post.mono (unmoved_foreground.planOrAwait unmoved_waiting _ command intentToken ingested)
            (fun _ _ h => hingested.unmoved h) fun _ _ _ => trivial) fun _ _ h => h
      rw [htake] at htaken
      exact htaken

theorem queueLocalPlan_ends_due {projection : RoomSessionProjection} (peer : ActorId)
    (session : RoomSessionEpochIdentity) (intentToken : PerformanceIntentToken)
    (event : LocalSessionEvent L) (h : Due canonical projection world.core) :
    Ends (fun _ => Due canonical projection) (Halts canonical)
      (queueLocalPlan peer session intentToken event world) := by
  unfold queueLocalPlan
  cases event.plan with
  | none => exact Ends.pure h
  | some plan =>
    refine Ends.bind (R := fun _ => Due canonical projection)
      (Ends.modifyTask (h.unseen (.of_task rfl rfl rfl))) fun _ added hadded => ?_
    have hsent : Ends (fun _ => Due canonical projection) (fun _ => Due canonical projection)
        (sendReification ⟨peer,session,plan,event.command,some intentToken⟩ added) :=
      Ends.mono (sendReification_unseen _) (fun _ _ hmany => hadded.unseen (unseen_of_many hmany))
        fun _ _ hmany => hadded.unseen (unseen_of_many hmany)
    refine Ends.bind (Ends.mono (Ends.attempting hsent) (fun _ _ h => h) ?_)
      fun sent after hafter => ?_
    · rintro stop core ⟨rfl,hcore⟩
      exact Taken.crash hcore.taken
    cases sent with
    | ok _ => exact Ends.pure hafter
    | error message =>
      refine Ends.bind (R := fun _ => Due canonical projection)
        (Ends.modifyTask (Due.unseen hafter (.of_task rfl rfl rfl))) fun _ dropped hdropped => ?_
      exact failSessionGeneration_halts _ hdropped.taken

theorem publishLocalEvent_inStep (peer : ActorId) (intentToken : PerformanceIntentToken)
    (event : LocalSessionEvent L) {active : ActiveSession L}
    (hselected : world.core.task.selected = some (peer,active))
    (h : Due canonical (active.projectionEvent .predicted) world.core) :
    Ends (fun _ => InStep canonical) (Halts canonical)
      (publishLocalEvent peer intentToken event world) := by
  have hactive := (selected_eq_some.mp hselected).2
  refine Ends.getTask ?_
  rw [hactive]
  refine Ends.bind (R := fun _ => Due canonical (active.projectionEvent .predicted))
    (Ends.modifyCore (h.unseen ⟨rfl,rfl,rfl,fun _ _ h => h⟩)) fun _ ingested hingested => ?_
  refine Ends.bind (queueLocalPlan_ends_due peer _ intentToken event hingested)
    fun _ queued hqueued => ?_
  exact hqueued.emitRealtime rfl

theorem sealLocalEdit_inStep (hpromises : L.WindowPromises) (command : MusicOp)
    (intentToken : PerformanceIntentToken) {peer : ActorId} {active : ActiveSession L}
    (hselected : world.core.task.selected = some (peer,active)) (h : InStep canonical world.core)
    (hfits : ∀ sealed taken event after,
      permitLocal command (world.answers.tail.headD {}).ticks active = .ok sealed taken →
      takeLocal command intentToken sealed taken = .ok event after →
        ingestTransitions sealed.2 taken = 1) :
    Ends (fun _ => InStep canonical) (Halts canonical)
      (sealLocalEdit peer command intentToken world) := by
  have hactive := (selected_eq_some.mp hselected).2
  refine Post.bind (Post.mono (Post.attempting effect_post) (fun _ _ h => h) ?_)
    fun reserved first hfirst => ?_
  · rintro stop after ⟨rfl,hafter⟩
    exact hafter ▸ h.halts _
  cases hfirst with
  | inr hrefused =>
    obtain ⟨message,rfl,hcore⟩ := hrefused
    exact (rejectIntent_unseen intentToken _).inStep (hcore ▸ h)
  | inl hreserved =>
    obtain ⟨answer,rfl,-,-,rfl⟩ := hreserved
    refine Post.bind (Post.mono (Post.attempting nowTicks_post) (fun _ _ h => h) ?_)
      fun now second hsecond => ?_
    · rintro stop after ⟨rfl,hafter⟩
      exact hafter ▸ h.halts _
    cases hsecond with
    | inr hrefused =>
      obtain ⟨message,rfl,hcore⟩ := hrefused
      exact (rejectIntent_unseen intentToken _).inStep (hcore ▸ h)
    | inl hread =>
      obtain ⟨ticks,rfl,rfl,-,rfl⟩ := hread
      have hevent := localEvent_ends hpromises command intentToken _
        (h.stands peer active hselected) hfits
      dsimp only
      have hlater : (World.mk world.core world.answers.tail.tail).core.task.active[peer]? =
        some active := hactive
      cases hrun : localEvent command intentToken (world.answers.tail.headD {}).ticks active with
      | error message after =>
        rw [bind_of_ok (attempt_of_failed (onActive_of_error hlater hrun))]
        exact failSessionGeneration_halts _ h.taken
      | ok event after =>
        rw [hrun] at hevent
        rw [bind_of_ok (attempt_of_ok (onActive_of_ok hlater hrun))]
        exact publishLocalEvent_inStep peer intentToken event
          (selected_serves_presented after (selected_eq_some.mp hselected).1)
          (h.serves_publishes hselected hevent)

theorem localEdit_inStep (hpromises : L.WindowPromises) (command : MusicOp)
    (intentToken : PerformanceIntentToken) (h : InStep canonical world.core)
    (hfits : EditFits world.core command intentToken world.answers) :
    Ends (fun _ => InStep canonical) (Halts canonical) (localEdit command intentToken world) := by
  refine Ends.getTask ?_
  have hfallback : Ends (fun _ => InStep canonical) (Halts canonical)
      (emit (.fallbackDurable command intentToken) world) :=
    Runs.inStep (Runs.emit (.sends rfl)) h
  cases hevents : world.core.task.events with
  | none => exact Ends.fail (h.halts _)
  | some generation =>
    refine Ends.branch (fun _ => (rejectIntent_unseen _ _).inStep h) fun hcurrent => ?_
    refine Ends.branch (fun _ => (rejectIntent_unseen _ _).inStep h) fun hpitch => ?_
    cases hselected : world.core.task.selected with
    | none => exact hfallback
    | some selected =>
      obtain ⟨peer,active⟩ := selected
      refine Ends.branch (fun _ => hfallback) fun _ => ?_
      cases active.preflightLocalEvent with
      | error error => exact (rejectIntent_unseen _ _).inStep h
      | ok _ =>
        refine sealLocalEdit_inStep hpromises command intentToken hselected h
          fun sealed taken event after hpermit htake => ?_
        refine hfits peer active sealed taken event after ?_ (by simpa using hpitch) hselected
          hpermit htake
        rw [hevents,not_not.mp hcurrent]

end LocalEdit

section RemoteEvent

/-- What a fresh remote event goes through before its session takes it in. -/
def permitFresh (length receiverClockTicks atTime : Nat) (received : L.Received) :
    ActiveM L L.PermittedEvent := do
  let receiverNow ← receiverLeaseTime receiverClockTicks
  let event ← orThrow (L.tryDecode received (decodePitchEdit L))
  let active ← get
  let permitted ← orThrow (L.permitEvent active.session receiverNow event length)
  modify fun active => { active with logicalTime := max active.logicalTime atTime }
  return permitted

theorem ingestFresh_eq (length receiverClockTicks atTime : Nat) (received : L.Received) :
    ingestFresh (L := L) length receiverClockTicks atTime received =
      permitFresh length receiverClockTicks atTime received >>= ingest := by
  simp only [ingestFresh,permitFresh,bind_assoc,pure_bind]

theorem permitFresh_unmoved (length receiverClockTicks atTime : Nat) (received : L.Received) :
    Stays (Unmoved (L := L)) (permitFresh length receiverClockTicks atTime received) := by
  refine unmoved_foreground.bind (unmoved_foreground.receiverLeaseTime _) fun receiverNow => ?_
  refine unmoved_foreground.bind (unmoved_foreground.orThrow _) fun event => Stays.get fun _ => ?_
  refine unmoved_foreground.bind (unmoved_foreground.orThrow _) fun permitted => ?_
  refine unmoved_foreground.bind (Stays.modifying fun active => unmoved_foreground.time _ active)
    fun _ => unmoved_foreground.pure _

/-- The host of the presented session makes at most one transition for the event. -/
def RemoteFits (core : Core L) (event : EventBody) (answers : List EffectAnswer) : Prop :=
  ∀ active opened received permitted taken, core.task.selected = some (event.source,active) →
    core.task.matchesActive event = true → receiveRemote event.frame active = .ok received opened →
    L.isFresh received.2 = true → permitFresh event.frame.length (answers.headD {}).ticks received.1
      received.2 opened = .ok permitted taken → ingestTransitions permitted taken ≤ 1

theorem ingestFresh_ends (hpromises : L.WindowPromises) (length receiverClockTicks atTime : Nat)
    (received : L.Received) {active : ActiveSession L} (hstands : Stands canonical active)
    (hfits : ∀ permitted taken, permitFresh length receiverClockTicks atTime received active =
      .ok permitted taken → ingestTransitions permitted taken ≤ 1) :
    Post (fun kind after => TakesOver canonical kind active after) (fun _ _ => True)
      (ingestFresh length receiverClockTicks atTime received active) := by
  rw [ingestFresh_eq]
  have hunmoved := permitFresh_unmoved length receiverClockTicks atTime received active
  cases hpermit : permitFresh length receiverClockTicks atTime received active with
  | error message after =>
    rw [bind_of_error hpermit]
    trivial
  | ok permitted taken =>
    rw [hpermit] at hunmoved
    rw [bind_of_ok hpermit]
    refine Post.mono (ingest_ends hpromises permitted (hstands.unmoved hunmoved))
      (fun kind after h => ?_) fun _ _ h => h
    have hle := hfits permitted taken hpermit
    cases Nat.le_one_iff_eq_zero_or_eq_one.mp hle with
    | inl hnone =>
      obtain ⟨rfl,hrest⟩ := h.1 hnone
      exact ⟨fun _ => hunmoved.trans hrest,fun shown hshown => (by cases hshown)⟩
    | inr honce =>
      obtain ⟨rfl,hpublishes⟩ := h.2 honce
      refine ⟨fun hnone => (by cases hnone),fun shown hshown => ?_⟩
      cases hshown
      exact hunmoved.publishes hpublishes

theorem publishChange_presented {peer : ActorId} {active : ActiveSession L}
    {kind : RoomSessionProjectionKind} (hselected : world.core.task.selected = some (peer,active))
    (h : Due canonical (active.projectionEvent kind) world.core) :
    Ends (fun _ => InStep canonical) (Halts canonical) (publishChange peer (some kind) world) := by
  obtain ⟨hpresented,hactive⟩ := selected_eq_some.mp hselected
  refine Ends.getTask ?_
  rw [hactive]
  refine Ends.branch (fun _ => ?_) fun hother => absurd hpresented hother
  exact h.emitRealtime rfl

theorem publishChange_other {peer : ActorId} (active : ActiveSession L)
    (changed : Option RoomSessionProjectionKind)
    (hactive : world.core.task.active[peer]? = some active)
    (hother : world.core.task.presentationPeer ≠ some peer) (h : InStep canonical world.core) :
    Ends (fun _ => InStep canonical) (Halts canonical) (publishChange peer changed world) := by
  cases changed with
  | none => exact Ends.pure h
  | some kind =>
    refine Ends.getTask ?_
    rw [hactive]
    exact Ends.branch (fun hpresented => absurd hpresented hother) fun _ => Ends.pure h

theorem takeFresh_inStep {peer : ActorId} {opened : ActiveSession L}
    {program : ActiveM L (Option RoomSessionProjectionKind)} (hkeeps : Keeps program)
    (hprogram : world.core.task.selected = some (peer,opened) →
      Post (fun kind after => TakesOver canonical kind opened after) (fun _ _ => True)
        (program opened))
    (hactive : world.core.task.active[peer]? = some opened) (missing : String)
    (h : InStep canonical world.core) :
    Post (fun changed after => Ends (fun _ => InStep canonical) (Halts canonical)
        (publishChange peer changed after))
      (fun stop after => stop ≠ .crash ∧ Taken canonical after.core.shown)
      (onActive peer missing program world) := by
  have hkept := hkeeps opened
  cases hrun : program opened with
  | error message after =>
    rw [onActive_of_error hactive hrun]
    exact ⟨by simp,h.taken⟩
  | ok changed after =>
    rw [onActive_of_ok hactive hrun]
    rw [hrun] at hkept
    by_cases hpresented : world.core.task.presentationPeer = some peer
    · have hselected := selected_eq_some.mpr ⟨hpresented,hactive⟩
      have hmoves := hprogram hselected
      rw [hrun] at hmoves
      cases changed with
      | none =>
        have hstill := h.serves_unmoved hactive (hmoves.unmoved rfl)
        exact hstill
      | some kind =>
        exact publishChange_presented (selected_serves_presented after hpresented)
          (h.serves_publishes hselected (hmoves.publishes kind rfl))
    · refine publishChange_other after changed ?_ hpresented
        (h.serves_other hpresented hactive hkept)
      rw [getElem?_serves,if_pos rfl]

theorem takeRemoteEvent_inStep (hpromises : L.WindowPromises) (event : EventBody)
    (hmatches : world.core.task.matchesActive event = true) (h : InStep canonical world.core)
    (hfits : RemoteFits world.core event world.answers) :
    Ends (fun _ => InStep canonical) (Halts canonical) (takeRemoteEvent event world) := by
  refine Post.bind (Post.mono nowTicks_post (fun _ _ h => h) fun stop after hafter => ?_)
    fun ticks read ⟨hticks,_,hread⟩ => ?_
  · exact hafter ▸ h.halts stop
  subst hticks hread
  cases hactive : world.core.task.active[event.source]? with
  | none => simp [RoomSessionTask.matchesActive,hactive] at hmatches
  | some active =>
    have hunmoved := unmoved_foreground.receiveRemote event.frame active
    have hlater : (World.mk world.core world.answers.tail).core.task.active[event.source]? =
      some active := hactive
    cases hreceive : receiveRemote event.frame active with
    | error message opened =>
      rw [hreceive] at hunmoved
      rw [bind_of_error (onActive_of_error hlater hreceive)]
      exact (h.serves_unmoved hactive hunmoved).halts _
    | ok received opened =>
      rw [hreceive] at hunmoved
      rw [bind_of_ok (onActive_of_ok hlater hreceive)]
      have hopened := h.serves_unmoved hactive hunmoved
      obtain ⟨atTime,received⟩ := received
      refine Ends.branch (fun hfresh => ?_) fun _ => Ends.pure hopened
      have hmine : (world.core.serves event.source opened).task.active[event.source]? =
        some opened := by rw [getElem?_serves,if_pos rfl]
      refine Post.bind (Post.mono (Post.attempting (takeFresh_inStep
        (keepsSession_background.ingestFresh _ _ _ _) (fun hselected => ?_) hmine _ hopened))
        (fun _ _ h => h) fun _ _ hcrash => absurd rfl hcrash.2.1) fun taken after hafter => ?_
      · have hpresented := (selected_eq_some.mp hselected).1
        refine ingestFresh_ends hpromises _ _ _ _ (hopened.stands _ _ hselected)
          fun permitted taken hpermit => ?_
        exact hfits active opened (atTime,received) permitted taken
          (selected_eq_some.mpr ⟨hpresented,hactive⟩) hmatches hreceive hfresh hpermit
      · cases hafter with
        | inl htaken =>
          obtain ⟨changed,rfl,hpublished⟩ := htaken
          exact hpublished
        | inr hfailed =>
          obtain ⟨message,rfl,-,hshown⟩ := hfailed
          exact failSessionGeneration_halts _ hshown

theorem needRenewal_unseen (peer : ActorId) : Runs Unseen (needRenewal peer) world :=
  Runs.modifyTask (.of_task rfl rfl rfl)

theorem carrierEvent_inStep (hpromises : L.WindowPromises) (event : EventBody)
    (h : InStep canonical world.core) (hfits : RemoteFits world.core event world.answers) :
    Ends (fun _ => InStep canonical) (Halts canonical) (carrierEvent event world) := by
  refine Ends.getTask <| Ends.branch
    (fun hmatches => takeRemoteEvent_inStep hpromises event hmatches h hfits) fun _ => ?_
  refine Runs.inStep (Runs.bind (needRenewal_unseen event.source) fun _ needed _ =>
    Runs.getTask ?_) h
  cases needed.core.task.foundations.entries[event.source]? with
  | none => exact Runs.pure ()
  | some foundation =>
    exact Runs.branch (fun _ => startReadyRenewals_unseen) fun _ => beginSession_unseen foundation

end RemoteEvent

end WalkieSongie.Session
