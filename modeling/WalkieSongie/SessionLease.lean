import WalkieSongie.SessionLive
set_option autoImplicit false

/-!
The end of a session's lease: what a local edit and a remote event do before it, and what a
remote event does after it.
-/

namespace WalkieSongie.Session
open TaskProgram

variable {L : SessionLibrary} {α : Type}

/-- Where the lease of every manifest ends, in ticks of the receiver's session lease time. -/
def leaseEnd : Nat := 100000

def ActiveSession.leaseTime (active : ActiveSession L) (ticks : Nat) : Nat :=
  min (leaseStart+(ticks-active.leaseClockOrigin)) (2^64-1)

/-- The clock has not moved backwards since the session read it last. -/
def ActiveSession.Reads (active : ActiveSession L) (ticks : Nat) : Prop :=
  active.leaseClockLast ≤ ticks

def ActiveSession.InLease (active : ActiveSession L) (ticks : Nat) : Prop :=
  active.leaseTime ticks < leaseEnd

/-- What the libraries promise a session that has room for the event. -/
structure SessionLibrary.LeasePromises (L : SessionLibrary) : Prop where
  /-- Events are refused exactly from the end of the lease on. -/
  permit : ∀ session now event length,
    (∃ permitted, L.permitEvent session now event length = .ok permitted) ↔ now < leaseEnd
  /-- An encoded command is read back as a pitch edit when it was one. -/
  command : ∀ command, isPitchEdit command = true →
    ∃ bytes back, L.encodeCommand command = .ok bytes ∧ L.decodeCommand bytes = .ok back ∧
      isPitchEdit back = true
  /-- Lanes that are not used up seal their next packet, and their own receiver opens it with
  the payload it was sealed with. -/
  ownPacket : ∀ lanes cut time payload, L.remainingCausalEvents lanes ≠ 0 →
    ∃ header packet sealed frame decoded received opened,
      L.sealHeader lanes (saturatingSucc 32 (L.highestSealedCounter lanes)) cut time = .ok header ∧
      L.sealPacket header payload lanes = .ok packet sealed ∧
      L.encodeSent sealed packet = .ok frame ∧ L.decodeSent sealed frame = .ok decoded ∧
      L.receiveEcho decoded sealed = .ok received opened ∧
      ∀ (decode : Nat → Bytes → Except String MusicOp) (command : MusicOp),
        decode pitchEdit payload = .ok command → ∃ event, L.tryDecode received decode = .ok event
  /-- A permitted event is taken in. -/
  advance : ∀ time projection, ∃ change after,
    L.advanceSimulation time projection = .ok change after
  ingest : ∀ event kernel, ∃ advanced after, L.ingestEvent event kernel = .ok advanced after
  predict : ∀ kernel fromCut toCut projection, ∃ change after,
    L.predictBetween kernel fromCut toCut projection = .ok change after
  /-- An event that has been taken in is planned, or waits for its dependencies. -/
  plan : ∀ kernel dot planner message after,
    L.plan kernel dot planner ≠ .error (.other message) after

section ActiveSteps

/-- The program returns a value, and leaves a session, of which this holds. -/
abbrev Yields {ε σ : Type} (Q : α → σ → Prop) (result : EStateM.Result ε σ α) : Prop :=
  Post Q (fun _ _ => False) result

variable {active : ActiveSession L}

/-- The two sessions read the lease clock alike, and stand under the same authority. -/
structure SameLease (before after : ActiveSession L) : Prop where
  session : after.session = before.session
  last : after.leaseClockLast = before.leaseClockLast
  origin : after.leaseClockOrigin = before.leaseClockOrigin

theorem SameLease.refl (active : ActiveSession L) : SameLease active active := ⟨rfl,rfl,rfl⟩

theorem SameLease.trans (first second third : ActiveSession L) (h : SameLease first second)
    (h' : SameLease second third) : SameLease first third :=
  ⟨h'.session.trans h.session,h'.last.trans h.last,h'.origin.trans h.origin⟩

theorem after_ok {ε σ β : Type} {first : EStateM ε σ β} {next : β → EStateM ε σ α}
    {state after : σ} {value : β} {Q : α → σ → Prop} {E : ε → σ → Prop}
    (h : first state = .ok value after) (hnext : Post Q E (next value after)) :
    Post Q E ((first >>= next) state) := by
  rw [bind_of_ok h]
  exact hnext

theorem orThrow_ok {checked : Except String α} {value : α} (h : checked = .ok value) :
    (orThrow checked : ActiveM L α) active = .ok value active := by
  rw [h]
  rfl

theorem onLanes_ok {program : EStateM String L.Lanes α} {value : α} {lanes : L.Lanes}
    (h : program active.lanes = .ok value lanes) :
    onLanes program active = .ok value { active with lanes := lanes } := by
  simp only [onLanes,onPart,h]

theorem onKernel_ok {program : EStateM String L.SessionKernel α} {value : α}
    {kernel : L.SessionKernel} (h : program active.kernel = .ok value kernel) :
    onKernel program active = .ok value { active with kernel := kernel } := by
  simp only [onKernel,onPart,h]

theorem onProjection_ok {program : EStateM String L.SessionProjectionHost α} {value : α}
    {projection : L.SessionProjectionHost} (h : program active.projection = .ok value projection) :
    onProjection program active = .ok value { active with projection := projection } := by
  simp only [onProjection,onPart,h]

theorem receiverLeaseTime_ok {ticks : Nat} (h : active.Reads ticks) :
    receiverLeaseTime ticks active =
      .ok (active.leaseTime ticks) { active with leaseClockLast := ticks } := by
  have hgoes : (refuseIf (ticks < active.leaseClockLast)
      "receiver session lease clock moved backwards" : ActiveM L Unit) active = .ok () active := by
    rw [refuseIf,if_neg (Nat.not_lt.mpr h)]
    rfl
  exact bind_of_ok hgoes

theorem ingest_ok (promises : L.LeasePromises) (event : L.PermittedEvent) :
    Yields (fun _ _ => True) (ingest event active) := by
  obtain ⟨change,projection,hadvance⟩ := promises.advance active.logicalTime active.projection
  obtain ⟨advanced,kernel,hingest⟩ := promises.ingest event active.kernel
  refine Post.getting <| after_ok (onProjection_ok hadvance) <| Post.getting <|
    after_ok (onKernel_ok hingest) <| Post.ite (fun _ => Post.pure trivial) fun _ => ?_
  obtain ⟨transition,shown,hpredict⟩ := promises.predict kernel (L.projectedCut projection)
    (L.readyCut kernel) projection
  exact Post.getting <| after_ok (onProjection_ok hpredict) <| Post.pure trivial

theorem sealLocal_ok (promises : L.LeasePromises) {command : MusicOp}
    (hpitch : isPitchEdit command = true) (hroom : L.remainingCausalEvents active.lanes ≠ 0) :
    Yields (fun sent after => (∃ event, L.tryDecode sent.2 (decodePitchEdit L) = .ok event) ∧
      SameLease active after) (sealLocal command active) := by
  obtain ⟨payload,back,hencode,hdecode,hback⟩ := promises.command command hpitch
  obtain ⟨header,packet,sealed,frame,decoded,received,opened,hheader,hseal,hsent,hread,hecho,
    hcarries⟩ :=
    promises.ownPacket active.lanes (L.readyCut active.kernel)
    (saturatingSucc 64 active.logicalTime)
      payload hroom
  refine Post.modifying <| Post.getting <| after_ok (orThrow_ok hheader) <|
    after_ok (orThrow_ok hencode) <| after_ok (onLanes_ok hseal) <| Post.getting <|
    after_ok (orThrow_ok hsent) <| after_ok (orThrow_ok hread) <|
    after_ok (onLanes_ok hecho) <| Post.pure ⟨?_,rfl,rfl,rfl⟩
  exact hcarries (decodePitchEdit L) back (by simp [decodePitchEdit,hdecode,hback])

theorem planOrAwait_ok (promises : L.LeasePromises) (dot : SessionDot) (command : MusicOp)
    (intentToken : PerformanceIntentToken) :
    Yields (fun _ _ => True) (planOrAwait dot command intentToken active) := by
  have hplan := promises.plan active.kernel dot active.planner
  simp only [planOrAwait,planDot,Bind.bind,EStateM.bind]
  cases h : L.plan active.kernel dot active.planner with
  | ok plan planner => trivial
  | error error planner =>
    cases error with
    | unreifiedDependency => trivial
    | other message => exact absurd h (hplan message planner)

theorem localEvent_ok (promises : L.LeasePromises) {command : MusicOp}
    (intentToken : PerformanceIntentToken) {ticks : Nat} (hpitch : isPitchEdit command = true)
    (hpreflight : active.preflightLocalEvent = .ok ()) (hreads : active.Reads ticks)
    (hlease : active.InLease ticks) :
    Yields (fun _ => KeepsSession active) (localEvent command intentToken ticks active) := by
  have hroom : L.remainingCausalEvents active.lanes ≠ 0 := by
    obtain ⟨_,hfree,_⟩ := bind_eq_ok.mp hpreflight
    have hsaturated := refuseIf_eq_ok.mp hfree
    simp only [ActiveSession.isSaturated,Bool.or_eq_true,decide_eq_true_eq,not_or] at hsaturated
    exact hsaturated.1
  refine Post.mono (Post.and (localEvent_keeps command intentToken ticks active) (?_ :
    Yields (fun _ _ => True) _)) (fun _ _ h => h.1) fun _ _ h => h.2
  refine Post.getting <| after_ok (orThrow_ok hpreflight) <|
    Post.bind (sealLocal_ok promises hpitch hroom) ?_
  rintro ⟨frame,received⟩ sealed ⟨⟨event,hevent⟩,hsame⟩
  have hread : sealed.Reads ticks := hsame.last.trans_le hreads
  refine after_ok (receiverLeaseTime_ok hread) <| after_ok (orThrow_ok hevent) <|
    Post.getting ?_
  have htime : sealed.leaseTime ticks < leaseEnd := by
    unfold ActiveSession.leaseTime
    rw [hsame.origin]
    exact hlease
  obtain ⟨permitted,hpermit⟩ :=
    (promises.permit sealed.session (sealed.leaseTime ticks) event frame.length).mpr htime
  refine after_ok (orThrow_ok hpermit) <| Post.bind (ingest_ok promises permitted) ?_
  intro _ _ _
  exact Post.bind (planOrAwait_ok promises _ command intentToken) fun _ _ _ => Post.pure trivial

theorem receiveRemote_sameLease (frame : Bytes) :
    Stays (SameLease (L := L)) (receiveRemote frame) := by
  refine Stays.get fun active => Stays.bind SameLease.trans ?_ fun packet =>
    Stays.bind SameLease.trans (Stays.onPart (fun _ _ => ⟨rfl,rfl,rfl⟩) _) fun _ =>
    Stays.pure SameLease.refl _
  cases L.decodeReceived active.lanes frame with
  | error message => exact Stays.throw SameLease.refl message
  | ok packet => exact Stays.pure SameLease.refl packet

theorem ingestFresh_ok (promises : L.LeasePromises) (length atTime : Nat) {ticks : Nat}
    {received : L.Received} (hreads : active.Reads ticks) (hlease : active.InLease ticks)
    (hevent : ∃ event, L.tryDecode received (decodePitchEdit L) = .ok event) :
    Yields (fun _ => KeepsSession active) (ingestFresh length ticks atTime received active) := by
  refine Post.mono
    (Post.and (keepsSession_background.ingestFresh length ticks atTime received active)
    (?_ : Yields (fun _ _ => True) _)) (fun _ _ h => h.1) fun _ _ h => h.2
  obtain ⟨event,hevent⟩ := hevent
  obtain ⟨permitted,hpermit⟩ :=
    (promises.permit active.session (active.leaseTime ticks) event length).mpr hlease
  exact after_ok (receiverLeaseTime_ok hreads) <| after_ok (orThrow_ok hevent) <|
    Post.getting <| after_ok (orThrow_ok hpermit) <| Post.modifying <|
    ingest_ok promises permitted

/-- Any other fresh event loses the continuity of the session. -/
theorem ingestFresh_lost (promises : L.LeasePromises) (length atTime : Nat) {ticks : Nat}
    {received : L.Received} (hreads : active.Reads ticks)
    (hlost : ¬ ((∃ event, L.tryDecode received (decodePitchEdit L) = .ok event) ∧
      active.InLease ticks)) :
    Post (fun _ _ => False) (fun _ _ => True)
      (ingestFresh length ticks atTime received active) := by
  refine after_ok (receiverLeaseTime_ok hreads) ?_
  cases hevent : L.tryDecode received (decodePitchEdit L) with
  | error message => trivial
  | ok event =>
    refine after_ok (orThrow_ok rfl) <| Post.getting ?_
    cases hpermit : L.permitEvent active.session (active.leaseTime ticks) event length with
    | error message => trivial
    | ok permitted =>
      have hlease := (promises.permit active.session (active.leaseTime ticks) event length).mp
        ⟨permitted,hpermit⟩
      exact absurd ⟨⟨event,hevent⟩,hlease⟩ hlost

end ActiveSteps

section TaskSteps

/-- The program returns with every effect granted, and this holds of what it leaves. -/
def Goes (Q : α → Core L → Prop) (result : EStateM.Result Stop (World L) α) : Prop :=
  Yields (fun value after => Granted after.answers ∧ Q value after.core) result

variable {world : World L} {core : Core L} {answers : List EffectAnswer} {peer : ActorId}
  {active : ActiveSession L}

theorem Goes.getTask {next : RoomSessionTask L → TaskM L α} {Q : α → Core L → Prop}
    (h : Goes Q (next world.core.task world)) : Goes Q ((Session.getTask >>= next) world) := h

theorem Goes.pure {value : α} {Q : α → Core L → Prop} (h : Granted world.answers)
    (hQ : Q value world.core) : Goes Q ((Pure.pure value : TaskM L α) world) := ⟨h,hQ⟩

theorem Goes.refuseIf {bad : Prop} [Decidable bad] {stop : Stop} {next : Unit → TaskM L α}
    {Q : α → Core L → Prop} (hgood : ¬ bad) (h : Goes Q (next () world)) :
    Goes Q ((TaskProgram.refuseIf bad stop >>= next) world) :=
  Post.refuseIf (fun hbad => absurd hbad hgood) fun _ => h

theorem Goes.ite {bad : Prop} [Decidable bad] {first second : TaskM L α} {Q : α → Core L → Prop}
    (hfirst : bad → Goes Q (first world)) (hsecond : ¬ bad → Goes Q (second world)) :
    Goes Q ((if bad then first else second) world) :=
  Post.ite hfirst hsecond

theorem Goes.bind {β : Type} {first : TaskM L β} {next : β → TaskM L α} {R : β → Core L → Prop}
    {Q : α → Core L → Prop} (h : Goes R (first world))
    (hnext : ∀ value after, Granted after.answers → R value after.core →
      Goes Q (next value after)) :
    Goes Q ((first >>= next) world) :=
  Post.bind h fun value after hafter => hnext value after hafter.1 hafter.2

theorem Goes.attempt {program : TaskM L α} {Q : α → Core L → Prop} (h : Goes Q (program world)) :
    Goes (fun result after => ∃ value, result = .ok value ∧ Q value after)
      (Session.attempt program world) := by
  unfold Session.attempt
  cases hrun : program world with
  | ok value after =>
    rw [hrun] at h
    exact ⟨h.1,value,rfl,h.2⟩
  | error stop after =>
    rw [hrun] at h
    exact h.elim

theorem Goes.effect (h : Granted world.answers) (uncertain : Bool) {perform : Core L → Core L}
    {Q : EffectAnswer → Core L → Prop} (hQ : Q (world.answers.headD {}) (perform world.core)) :
    Goes Q (Session.effect uncertain perform world) := by
  rw [effect_granted h]
  exact ⟨h.tail,hQ⟩

theorem Goes.emit (h : Granted world.answers) (hevents : world.core.task.events ≠ none)
    (event : RoomSessionEgress L) :
    Goes (fun _ after => after = world.core.sends [] event) (Session.emit event world) := by
  refine Goes.getTask <| Goes.refuseIf hevents ?_
  refine Goes.bind (R := fun _ after => after = world.core.sends [] event)
    (Goes.effect h false ?_) ?_
  · rfl
  · intro _ after hgranted hsent
    exact ⟨hgranted,hsent⟩

theorem Goes.onActive (h : Granted world.answers)
    (hactive : world.core.task.active[peer]? = some active)
    (missing : String) {program : ActiveM L α} {Q : α → ActiveSession L → Prop}
    (hprogram : Yields Q (program active)) :
    Goes (fun value core => ∃ after, Q value after ∧ core = world.core.mapTask fun task =>
      { task with active := task.active.insert peer after })
      (Session.onActive peer missing program world) := by
  refine Goes.getTask ?_
  rw [hactive]
  cases hrun : program active with
  | ok value after =>
    rw [hrun] at hprogram
    simp only [hrun]
    exact ⟨h,after,hprogram,rfl⟩
  | error message after =>
    rw [hrun] at hprogram
    exact hprogram.elim

/-- The generation goes on with the sessions it has. -/
structure Intact (before after : Core L) : Prop where
  events : after.task.events = before.task.events
  presented : after.task.presentationPeer = before.task.presentationPeer
  active : ∀ peer : ActorId,
    Option.Rel KeepsSession before.task.active[peer]? after.task.active[peer]?
  pending : after.task.pending = before.task.pending
  retired : after.task.retired = before.task.retired
  foundations : after.task.foundations = before.task.foundations
  workerErrors : after.workerErrors = before.workerErrors

theorem keepsSession_rel (before : Option (ActiveSession L)) :
    Option.Rel KeepsSession before before := by
  cases before with
  | none => exact .none
  | some active => exact .some (KeepsSession.refl active)

theorem Intact.sends (h : Intact core world.core) (event : RoomSessionEgress L) :
    Intact core (world.core.sends [] event) := { h with }

theorem Intact.refl (core : Core L) : Intact core core :=
  ⟨rfl,rfl,fun _ => keepsSession_rel _,rfl,rfl,rfl,rfl⟩

theorem Intact.insert {after : ActiveSession L} (h : Intact core world.core)
    (hactive : core.task.active[peer]? = some active) (hkeeps : KeepsSession active after) :
    Intact core (world.core.mapTask fun task =>
      { task with active := task.active.insert peer after }) := by
  refine { h with active := fun other => ?_ }
  simp only [Core.mapTask,Std.ExtTreeMap.getElem?_insert,Std.LawfulEqOrd.compare_eq_iff_eq]
  split
  next heq =>
    subst heq
    rw [hactive]
    exact .some hkeeps
  next => exact h.active other

inductive EditOutcome (command : MusicOp) (intentToken : PerformanceIntentToken) :
    RoomSessionEgress L → Prop where
  | prediction (event : RoomSessionRealtimeEgress L) (hkind : event.projection.kind = .predicted)
      (htoken : event.intentToken = some intentToken) :
      EditOutcome command intentToken (.realtime event)
  | fallback : EditOutcome command intentToken (.fallbackDurable command intentToken)
  | rejected (reason : String) :
      EditOutcome command intentToken (.intentRejected intentToken reason)

/-- The edit has come to one outcome, and nothing else has happened to the sessions. -/
def Answered (command : MusicOp) (intentToken : PerformanceIntentToken) (before after : Core L) :
    Prop :=
  Intact before after ∧ ∃ event, after.egress = event :: before.egress ∧
    EditOutcome command intentToken event

/-- The sessions go on, and the window has not been told anything yet. -/
def Untold (before after : Core L) : Prop :=
  Intact before after ∧ after.egress = before.egress

theorem Goes.answer {command : MusicOp} {intentToken : PerformanceIntentToken}
    (h : Granted world.answers) (huntold : Untold core world.core)
    (hevents : core.task.events ≠ none) {event : RoomSessionEgress L}
    (houtcome : EditOutcome command intentToken event) :
    Goes (fun _ => Answered command intentToken core) (Session.emit event world) := by
  have hopen : world.core.task.events ≠ none := by rw [huntold.1.events]; exact hevents
  refine Post.mono (Goes.emit h hopen event) ?_ fun _ _ hfalse => hfalse
  rintro _ after ⟨hgranted,hsent⟩
  refine ⟨hgranted,?_⟩
  rw [hsent]
  exact ⟨huntold.1.sends event,event,congrArg (event :: ·) huntold.2,houtcome⟩

theorem sendReification_goes (h : Granted world.answers) (huntold : Untold core world.core)
    (reification : RoomSessionReification L) :
    Goes (fun _ => Untold core) (sendReification reification world) := by
  refine Goes.bind (R := fun _ => Untold core) (Goes.effect h false ?_)
    fun _ _ hgranted hafter => Goes.pure hgranted hafter
  exact ⟨{ huntold.1 with },huntold.2⟩

theorem queueLocalPlan_goes (h : Granted world.answers) (huntold : Untold core world.core)
    (session : RoomSessionEpochIdentity) (intentToken : PerformanceIntentToken)
    (event : LocalSessionEvent L) :
    Goes (fun _ => Untold core) (queueLocalPlan peer session intentToken event world) := by
  unfold queueLocalPlan
  cases event.plan with
  | none => exact Goes.pure h huntold
  | some plan =>
    refine Goes.bind (R := fun _ => Untold core) ⟨h,{ huntold.1 with },huntold.2⟩ ?_
    intro _ added hgranted hadded
    refine Goes.bind (Goes.attempt (sendReification_goes hgranted hadded _)) ?_
    rintro _ after hafter ⟨_,rfl,hsent⟩
    exact Goes.pure hafter hsent

theorem publishLocalEvent_goes (h : Granted world.answers) (huntold : Untold core world.core)
    (hevents : core.task.events ≠ none) (hactive : world.core.task.active[peer]? = some active)
    (command : MusicOp) (intentToken : PerformanceIntentToken) (event : LocalSessionEvent L) :
    Goes (fun _ => Answered command intentToken core)
      (publishLocalEvent peer intentToken event world) := by
  refine Goes.getTask ?_
  rw [hactive]
  refine Goes.bind (R := fun _ => Untold core) ⟨h,{ huntold.1 with },huntold.2⟩ ?_
  intro _ noted hnoted hstill
  refine Goes.bind (queueLocalPlan_goes hnoted hstill active.identity intentToken event) ?_
  intro _ queued hgranted hqueued
  have houtcome : EditOutcome (L := L) command intentToken (.realtime {
      projection := active.projectionEvent .predicted
      carrier := some (.event {
        source := active.foundation.localActor
        target := peer
        sessionId := active.sessionId
        frame := event.frame })
      durable := (event.plan.map L.planCorrelation).toList
      intentToken := some intentToken }) := .prediction _ rfl rfl
  refine Goes.bind (Goes.attempt (Goes.answer hgranted hqueued hevents houtcome)) ?_
  rintro _ after hafter ⟨_,rfl,hanswered⟩
  exact Goes.pure hafter hanswered

/-- The presented session takes the edit while its lease runs. -/
theorem sealLocalEdit_goes (promises : L.LeasePromises) (h : Granted world.answers)
    (hevents : world.core.task.events ≠ none) {command : MusicOp}
    (intentToken : PerformanceIntentToken) (hpitch : isPitchEdit command = true)
    (hactive : world.core.task.active[peer]? = some active)
    (hpreflight : active.preflightLocalEvent = .ok ())
    (hreads : active.Reads (world.answers.tail.headD {}).ticks)
    (hlease : active.InLease (world.answers.tail.headD {}).ticks) :
    Goes (fun _ => Answered command intentToken world.core)
      (sealLocalEdit peer command intentToken world) := by
  have hclock : Session.nowTicks ⟨world.core,world.answers.tail⟩ =
      .ok (world.answers.tail.headD {}).ticks ⟨world.core,world.answers.tail.tail⟩ :=
    nowTicks_granted h.tail
  refine after_ok (attempt_of_ok (effect_granted h false id)) ?_
  refine after_ok (attempt_of_ok hclock) ?_
  let clocked : World L := ⟨world.core,world.answers.tail.tail⟩
  have hpresent : clocked.core.task.active[peer]? = some active := hactive
  have hclocked : Granted clocked.answers := h.tail.tail
  refine Goes.bind (Goes.attempt (Goes.onActive hclocked hpresent _
    (localEvent_ok promises intentToken hpitch hpreflight hreads hlease))) ?_
  rintro _ after hgranted ⟨event,rfl,later,hkeeps,hafter⟩
  have huntold : Untold world.core after.core := by
    rw [hafter]
    exact ⟨(Intact.refl world.core).insert hactive hkeeps,rfl⟩
  have hlater : after.core.task.active[peer]? = some later := by
    rw [hafter]
    exact Std.ExtTreeMap.getElem?_insert_self
  exact publishLocalEvent_goes hgranted huntold hevents hlater command intentToken event

theorem RoomSessionTask.active_of_selected {task : RoomSessionTask L}
    (h : task.selected = some (peer,active)) : task.active[peer]? = some active := by
  simp only [RoomSessionTask.selected,Option.bind_eq_some_iff,Option.map_eq_some_iff] at h
  obtain ⟨_,_,_,hactive,heq⟩ := h
  cases heq
  exact hactive

/-- An edit of the current generation is answered, and leaves the sessions as they are, if the
presented session still has a lease whenever it is to take the edit. -/
theorem localEdit_goes (promises : L.LeasePromises) (h : Granted world.answers)
    {command : MusicOp} {intentToken : PerformanceIntentToken}
    (hgeneration : world.core.task.events = some intentToken.generation)
    (hpitch : isPitchEdit command = true)
    (hlease : ∀ peer active, world.core.task.selected = some (peer,active) →
      active.preflightLocalEvent = .ok () →
      active.Reads (world.answers.tail.headD {}).ticks ∧
        active.InLease (world.answers.tail.headD {}).ticks) :
    Goes (fun _ => Answered command intentToken world.core)
      (localEdit command intentToken world) := by
  have hevents : world.core.task.events ≠ none := by simp [hgeneration]
  have huntold : Untold world.core world.core := ⟨Intact.refl _,rfl⟩
  refine Goes.getTask ?_
  simp only [hgeneration,ne_eq,not_true_eq_false,if_false,hpitch,Bool.true_eq_false]
  cases hselected : world.core.task.selected with
  | none => exact Goes.answer h huntold hevents .fallback
  | some selected =>
    obtain ⟨peer,active⟩ := selected
    refine Goes.ite (fun _ => Goes.answer h huntold hevents .fallback) fun _ => ?_
    cases hpreflight : active.preflightLocalEvent with
    | error message => exact Goes.answer h huntold hevents (.rejected message)
    | ok _ =>
      obtain ⟨hreads,hin⟩ := hlease peer active hselected hpreflight
      exact sealLocalEdit_goes promises h hevents intentToken hpitch
        (RoomSessionTask.active_of_selected hselected) hpreflight hreads hin

/-- The generation is over, and the window has been told why. -/
def Terminated (before after : Core L) : Prop :=
  after.task.events = none ∧ after.task.active = ∅ ∧
    ∃ reason, after.workerErrors = reason :: before.workerErrors

theorem publishChange_goes (h : Granted world.answers) (hintact : Intact core world.core)
    (hevents : core.task.events ≠ none) (hactive : world.core.task.active[peer]? = some active)
    (changed : Option RoomSessionProjectionKind) :
    Goes (fun _ after => Intact core after ∧ after.task.active = world.core.task.active)
      (publishChange peer changed world) := by
  cases changed with
  | none => exact Goes.pure h ⟨hintact,rfl⟩
  | some kind =>
    refine Goes.getTask ?_
    rw [hactive]
    refine Goes.ite (fun _ => ?_) fun _ => Goes.pure h ⟨hintact,rfl⟩
    have hopen : world.core.task.events ≠ none := by rw [hintact.events]; exact hevents
    refine Goes.bind (Goes.attempt (Goes.emit h hopen _)) ?_
    rintro _ after hafter ⟨_,rfl,hsent⟩
    refine Goes.pure hafter ?_
    rw [hsent]
    exact ⟨hintact.sends _,rfl⟩

theorem failSessionGeneration_terminates (hevents : world.core.task.events ≠ none)
    (reason : String) : Post (fun _ _ => False) (fun _ after => Terminated world.core after.core)
      ((failSessionGeneration reason : TaskM L α) world) :=
  ⟨rfl,rfl,_,if_neg hevents⟩

/-- Where a fresh event can still be taken in: it reads as a pitch edit, and the lease runs. -/
def Timely (active : ActiveSession L) (received : L.Received) (ticks : Nat) : Prop :=
  (∃ event, L.tryDecode received (decodePitchEdit L) = .ok event) ∧ active.InLease ticks

structure Authenticated (core : Core L) (event : EventBody) (active opened : ActiveSession L)
    (atTime : Nat) (received : L.Received) : Prop where
  live : core.task.events ≠ none
  present : core.task.active[event.source]? = some active
  matching : core.task.matchesActive event = true
  opened : receiveRemote event.frame active = .ok (atTime,received) opened

/-- What becomes of the session: a replay changes nothing more, a fresh event is taken in. -/
def Applied (event : EventBody) (opened : ActiveSession L) (ticks atTime : Nat)
    (received : L.Received) (later : ActiveSession L) : Prop :=
  if L.isFresh received = true then
    ∃ changed, ingestFresh event.frame.length ticks atTime received opened = .ok changed later
  else later = opened

variable {event : EventBody} {opened : ActiveSession L} {atTime ticks : Nat}
  {received : L.Received}

theorem Authenticated.sameLease (h : Authenticated core event active opened atTime received) :
    SameLease active opened := by
  have hstays := receiveRemote_sameLease event.frame active
  rw [h.opened] at hstays
  exact hstays

theorem Authenticated.keeps (h : Authenticated core event active opened atTime received) :
    KeepsSession active opened := by
  have hkeeps := receiveRemote_keeps event.frame active
  rw [h.opened] at hkeeps
  exact hkeeps

/-- An authenticated event leaves the sessions as they are, and is taken in if it is fresh, or it
is fresh and out of time, and the generation is over. -/
theorem carrierEvent_ends (promises : L.LeasePromises) (hgranted : Granted world.answers)
    (h : Authenticated world.core event active opened atTime received)
    (hreads : active.Reads (world.answers.headD {}).ticks) :
    Post (fun _ after => (L.isFresh received = true →
          Timely active received (world.answers.headD {}).ticks) ∧
        Intact world.core after.core ∧ ∃ later, KeepsSession active later ∧
          after.core.task.active[event.source]? = some later ∧
          Applied event opened (world.answers.headD {}).ticks atTime received later)
      (fun _ after => (L.isFresh received = true ∧
          ¬ Timely active received (world.answers.headD {}).ticks) ∧
        Terminated world.core after.core)
      (carrierEvent event world) := by
  have hsame := h.sameLease
  have hread : opened.Reads (world.answers.headD {}).ticks := hsame.last.trans_le hreads
  have hlease : Timely opened received (world.answers.headD {}).ticks ↔
      Timely active received (world.answers.headD {}).ticks := by
    simp only [Timely,ActiveSession.InLease,ActiveSession.leaseTime,hsame.origin]
  rw [carrierEvent,getTask_bind,if_pos h.matching,takeRemoteEvent,
    bind_of_ok (nowTicks_granted hgranted)]
  let clocked : World L := ⟨world.core,world.answers.tail⟩
  have hpresent : clocked.core.task.active[event.source]? = some active := h.present
  refine after_ok (onActive_ok _ hpresent h.opened) ?_
  dsimp only
  let consumed : World L := ⟨clocked.core.mapTask fun task =>
    { task with active := task.active.insert event.source opened },clocked.answers⟩
  have hopening : Intact world.core consumed.core :=
    (Intact.refl world.core).insert h.present h.keeps
  by_cases hfresh : L.isFresh received = true
  · rw [if_pos hfresh]
    have hopened : consumed.core.task.active[event.source]? = some opened :=
      Std.ExtTreeMap.getElem?_insert_self
    have hkeeps := keepsSession_background.ingestFresh event.frame.length
      (world.answers.headD {}).ticks atTime received opened
    cases hrun : ingestFresh event.frame.length (world.answers.headD {}).ticks atTime received
        opened with
    | ok changed later =>
      rw [hrun] at hkeeps
      have htimely : Timely active received (world.answers.headD {}).ticks := by
        by_contra hlate
        have hlost := ingestFresh_lost promises event.frame.length atTime hread (mt hlease.mp hlate)
        rw [hrun] at hlost
        exact hlost
      refine after_ok (attempt_of_ok (onActive_ok _ hopened hrun)) ?_
      have hlater : KeepsSession active later :=
        KeepsSession.trans active opened later h.keeps hkeeps
      let taken : World L := ⟨consumed.core.mapTask fun task =>
        { task with active := task.active.insert event.source later },consumed.answers⟩
      have htaken : taken.core.task.active[event.source]? = some later :=
        Std.ExtTreeMap.getElem?_insert_self
      have hintact : Intact world.core taken.core := hopening.insert h.present hlater
      have hanswers : Granted taken.answers := hgranted.tail
      refine Post.mono (publishChange_goes hanswers hintact h.live htaken changed) ?_
        fun _ _ hfalse => hfalse.elim
      rintro _ after ⟨-,hstill,hactive⟩
      refine ⟨fun _ => htimely,hstill,later,hlater,by rw [hactive]; exact htaken,?_⟩
      rw [Applied,if_pos hfresh]
      exact ⟨changed,hrun⟩
    | error error later =>
      have hlate : ¬ Timely active received (world.answers.headD {}).ticks := by
        intro htimely
        have hdone := ingestFresh_ok promises event.frame.length atTime hread (hlease.mpr htimely).2
          (hlease.mpr htimely).1
        rw [hrun] at hdone
        exact hdone
      refine after_ok (attempt_of_failed (onActive_failed _ hopened hrun)) ?_
      let lost : World L := ⟨consumed.core.mapTask fun task =>
        { task with active := task.active.insert event.source later },consumed.answers⟩
      have hlive : lost.core.task.events ≠ none := h.live
      refine Post.mono (failSessionGeneration_terminates hlive _)
        (fun _ _ hfalse => False.elim hfalse) ?_
      exact fun _ _ hover => ⟨⟨hfresh,hlate⟩,hover⟩
  · rw [if_neg hfresh]
    refine ⟨fun hno => absurd hno hfresh,hopening,opened,h.keeps,
      Std.ExtTreeMap.getElem?_insert_self,?_⟩
    rw [Applied,if_neg hfresh]

theorem Goes.returns {program : TaskM L α} {Q : α → Core L → Prop} (h : Goes Q (program world)) :
    ∃ value after, program world = .ok value after ∧ Q value after.core := by
  cases hrun : program world with
  | ok value after =>
    rw [hrun] at h
    exact ⟨value,after,rfl,h.2⟩
  | error stop after =>
    rw [hrun] at h
    exact h.elim

/-- Before the end of its lease the presented session answers every edit, and before the end of
theirs all sessions take every event in; a fresh event after it ends the generation. -/
theorem edits_and_events_in_lease (promises : L.LeasePromises) (core : Core L)
    (answers : List EffectAnswer) (hgranted : Granted answers) :
    (∀ command intentToken, core.task.events = some intentToken.generation →
      isPitchEdit command = true →
      (∀ peer active, core.task.selected = some (peer,active) →
        active.preflightLocalEvent = .ok () →
        active.Reads (answers.tail.headD {}).ticks ∧ active.InLease (answers.tail.headD {}).ticks) →
      ∃ after, localEdit command intentToken ⟨core,answers⟩ = .ok () after ∧
        Answered command intentToken core after.core) ∧
    ∀ event active opened atTime received,
      Authenticated core event active opened atTime received →
      active.Reads (answers.headD {}).ticks →
      ((L.isFresh received = true → Timely active received (answers.headD {}).ticks) →
        ∃ after, carrierEvent event ⟨core,answers⟩ = .ok () after ∧ Intact core after.core ∧
          ∃ later, KeepsSession active later ∧
            after.core.task.active[event.source]? = some later ∧
            Applied event opened (answers.headD {}).ticks atTime received later) ∧
      (L.isFresh received = true → ¬ Timely active received (answers.headD {}).ticks →
        ∃ stop after, carrierEvent event ⟨core,answers⟩ = .error stop after ∧
          Terminated core after.core) := by
  refine ⟨fun command intentToken hgeneration hpitch hlease => ?_,
    fun event active opened atTime received h hreads => ?_⟩
  · let world : World L := ⟨core,answers⟩
    have hworld : Granted world.answers := hgranted
    obtain ⟨_,after,hreturns,hanswered⟩ :=
      (localEdit_goes promises hworld hgeneration hpitch hlease).returns
    exact ⟨after,hreturns,hanswered⟩
  · let world : World L := ⟨core,answers⟩
    have hworld : Granted world.answers := hgranted
    have hends := carrierEvent_ends promises hworld h hreads
    cases hrun : carrierEvent event ⟨core,answers⟩ with
    | ok _ after =>
      rw [hrun] at hends
      exact ⟨fun _ => ⟨after,rfl,hends.2⟩,fun hfresh hlate => absurd (hends.1 hfresh) hlate⟩
    | error stop after =>
      rw [hrun] at hends
      exact ⟨fun htimely => absurd (htimely hends.1.1) hends.1.2,fun _ _ =>
        ⟨stop,after,rfl,hends.2⟩⟩

end TaskSteps

section Expired

def leaseLibrary : SessionLibrary := { plainLibrary with
  permitEvent := fun (session : SessionManifest) now (event : PlainReceived) _ =>
    if now < leaseEnd then .ok (⟨session.epoch,event.seat,event.counter⟩ : SessionDot)
    else .error "OutsideLease" }

theorem leaseLibrary_promises : leaseLibrary.LeasePromises where
  permit session now event length := by
    by_cases h : now < leaseEnd
    · exact ⟨fun _ => h,fun _ => ⟨_,if_pos h⟩⟩
    · simp [leaseLibrary,h]
  command _ _ := ⟨[],.addDegree ⟨0,0⟩,rfl,rfl,rfl⟩
  ownPacket lanes cut time payload _ := by
    refine ⟨_,_,_,_,_,_,_,rfl,rfl,rfl,rfl,rfl,?_⟩
    intro decode command hdecode
    have hpayload : decode 1 payload = .ok command := hdecode
    simp only [leaseLibrary,plainLibrary,hpayload]
    exact ⟨_,rfl⟩
  advance _ projection := ⟨none,projection,rfl⟩
  ingest _ _ := ⟨true,_,rfl⟩
  predict _ _ _ _ := ⟨_,_,rfl⟩
  plan kernel dot planner message after h := by
    simp only [leaseLibrary,plainLibrary,plainPlan] at h
    split at h <;> cases h

def leaseFoundation (localActor peer : ActorId) : RoomSessionFoundation leaseLibrary where
  identity := ⟨9,9,9⟩
  localActor := localActor
  peer := peer
  signingKey := localActor
  history := (5 : Nat)
  musicRoot := 0
  localGrants := []
  peerGrants := []
  durableView := ⟨∅,∅⟩
  durableRevision := 0

def leaseOpening (localActor peer : ActorId) : List (WorkerEvent leaseLibrary) :=
  [.input (.configure 1 false false) [],
    .input (.startPeer (leaseFoundation localActor peer)) [{},{ randomSession := 77 }]]

def leaseDeliver (body : SessionCarrierBody leaseLibrary) : WorkerEvent leaseLibrary :=
  .input (.application roomSessionChannel (.ok (.carrier (.ok body)))) []

/-- Actor 2 has taken up an offer of actor 1. -/
def leaseRunOf2 : List (WorkerEvent leaseLibrary) :=
  leaseOpening 2 1 ++ (Core.run {} (leaseOpening 1 2)).frames.map leaseDeliver

def leaseEvent : EventBody := ⟨1,2,77,[1]⟩

/-- The lane opens the frame as a fresh event that reads as a pitch edit. -/
def ActiveSession.opensEdit (active : ActiveSession L) (frame : Bytes) : Bool :=
  match receiveRemote frame active with
  | .ok (_,received) _ =>
      L.isFresh received && (L.tryDecode received (decodePitchEdit L)).isOk
  | .error _ _ => false

theorem ActiveSession.opensEdit_authenticated {core : Core L} {event : EventBody}
    {active : ActiveSession L} (hlive : core.task.events ≠ none)
    (hpresent : core.task.active[event.source]? = some active)
    (hmatching : core.task.matchesActive event = true)
    (hopens : active.opensEdit event.frame = true) :
    ∃ opened atTime received, Authenticated core event active opened atTime received ∧
      L.isFresh received = true ∧ ∃ edit, L.tryDecode received (decodePitchEdit L) = .ok edit := by
  unfold ActiveSession.opensEdit at hopens
  cases hreceive : receiveRemote event.frame active with
  | error message opened =>
    rw [hreceive] at hopens
    cases hopens
  | ok result opened =>
    rw [hreceive] at hopens
    obtain ⟨hfresh,hedit⟩ := Bool.and_eq_true_iff.mp hopens
    refine ⟨opened,result.1,result.2,⟨hlive,hpresent,hmatching,hreceive⟩,hfresh,?_⟩
    cases hdecode : L.tryDecode result.2 (decodePitchEdit L) with
    | ok edit => exact ⟨edit,rfl⟩
    | error message =>
      rw [hdecode] at hedit
      cases hedit

theorem leaseRunOf2_present : ∃ active, (Core.run {} leaseRunOf2).task.active[1]? = some active ∧
    active.opensEdit leaseEvent.frame = true ∧ active.leaseClockLast = 0 ∧
    active.leaseClockOrigin = 0 := by
  have hcheck : ((Core.run {} leaseRunOf2).task.active[1]?.any fun active =>
      active.opensEdit leaseEvent.frame && active.leaseClockLast == 0 &&
        active.leaseClockOrigin == 0) = true := by decide +kernel
  obtain ⟨active,hactive,hholds⟩ := (Option.any_eq_true _ _).mp hcheck
  simp only [Bool.and_eq_true,beq_iff_eq] at hholds
  exact ⟨active,hactive,hholds.1.1,hholds.1.2,hholds.2⟩

/-- An authenticated edit of the peer that arrives as the lease ends costs the generation, although
the clock and the queue accept. -/
theorem expired_event_ends_generation :
    let core := Core.run {} leaseRunOf2
    let answers : List EffectAnswer := [{ ticks := 99900 }]
    core.task.selected.isSome = true ∧ Granted answers ∧
      (∃ active opened atTime received,
        Authenticated core leaseEvent active opened atTime received ∧ active.Reads 99900 ∧
          leaseLibrary.isFresh received = true ∧ ∃ edit,
            leaseLibrary.tryDecode received (decodePitchEdit leaseLibrary) = .ok edit) ∧
      ∃ stop after, carrierEvent leaseEvent ⟨core,answers⟩ = .error stop after ∧
        Terminated core after.core := by
  intro core answers
  obtain ⟨active,hactive,hopens,hlast,horigin⟩ := leaseRunOf2_present
  have hlive : core.task.events ≠ none := by decide +kernel
  have hmatching : core.task.matchesActive leaseEvent = true := by decide +kernel
  obtain ⟨opened,atTime,received,hauthenticated,hfresh,hedit⟩ :=
    ActiveSession.opensEdit_authenticated hlive hactive hmatching hopens
  have hgranted : Granted answers := by simp [Granted,answers]
  have hreads : active.Reads 99900 := by simp [ActiveSession.Reads,hlast]
  let world : World leaseLibrary := ⟨core,answers⟩
  have hworld : Granted world.answers := hgranted
  have hends := carrierEvent_ends leaseLibrary_promises hworld hauthenticated hreads
  refine ⟨by decide +kernel,hgranted,
    ⟨active,opened,atTime,received,hauthenticated,hreads,hfresh,hedit⟩,?_⟩
  cases hrun : carrierEvent leaseEvent ⟨core,answers⟩ with
  | ok _ after =>
    rw [hrun] at hends
    have hlease : active.leaseTime 99900 < leaseEnd := (hends.1 hfresh).2
    simp [ActiveSession.leaseTime,horigin,leaseStart,leaseEnd] at hlease
  | error stop after =>
    rw [hrun] at hends
    exact ⟨stop,after,rfl,hends.2⟩

/-- Within the lease actor 2 edits, and takes in the peer's edit. -/
theorem edits_and_events_in_lease_paired :
    (∃ after, localEdit (.addDegree ⟨0,0⟩) ⟨1,1⟩ ⟨Core.run {} leaseRunOf2,[{},{ ticks := 99899 }]⟩ =
        .ok () after ∧
      Answered (.addDegree ⟨0,0⟩) ⟨1,1⟩ (Core.run {} leaseRunOf2) after.core) ∧
    ∃ after, carrierEvent leaseEvent ⟨Core.run {} leaseRunOf2,[{},{ ticks := 99899 }]⟩ =
        .ok () after ∧ Intact (Core.run {} leaseRunOf2) after.core := by
  have hgranted : Granted [{},{ ticks := 99899 }] := by simp [Granted]
  have hlive : (Core.run {} leaseRunOf2).task.events = some 1 := by decide +kernel
  have hmatching : (Core.run {} leaseRunOf2).task.matchesActive leaseEvent = true := by
    decide +kernel
  have hselected : ((Core.run {} leaseRunOf2).task.selected.all fun selected =>
      selected.2.leaseClockLast == 0 && selected.2.leaseClockOrigin == 0) = true := by
    decide +kernel
  obtain ⟨active,hactive,hopens,hlast,horigin⟩ := leaseRunOf2_present
  obtain ⟨opened,atTime,received,hauthenticated,_,hedit⟩ :=
    ActiveSession.opensEdit_authenticated (by simp [hlive]) hactive hmatching hopens
  have hboth := edits_and_events_in_lease leaseLibrary_promises (Core.run {} leaseRunOf2)
    [{},{ ticks := 99899 }] hgranted
  refine ⟨hboth.1 _ _ hlive rfl fun peer selected hpresented _ => ?_,?_⟩
  · rw [hpresented] at hselected
    simp only [Option.all_some,Bool.and_eq_true,beq_iff_eq] at hselected
    simp [ActiveSession.Reads,ActiveSession.InLease,ActiveSession.leaseTime,hselected.1,
      hselected.2,leaseStart,leaseEnd]
  · have hreads : active.Reads 0 := by simp [ActiveSession.Reads,hlast]
    have htimely : Timely active received 0 :=
      ⟨hedit,by simp [ActiveSession.InLease,ActiveSession.leaseTime,leaseStart,leaseEnd]⟩
    obtain ⟨after,hreturns,hintact,_⟩ :=
      (hboth.2 leaseEvent active opened atTime received hauthenticated hreads).1 fun _ => htimely
    exact ⟨after,hreturns,hintact⟩

end Expired

end WalkieSongie.Session
