import WalkieSongie.SessionTask
set_option autoImplicit false

/-! One pair-session: how it is built and what each of its operations does to it. -/

namespace WalkieSongie.Session
open TaskProgram

variable {L : SessionLibrary} {α : Type}

def sessionCapacity : Nat := 128
def sessionRenewalReserve : Nat := 1
def leaseStart : Nat := 100
def pitchEdit : Nat := 1

/-- The successor in a field of this many bits, which stays at its maximum. -/
def saturatingSucc (bits n : Nat) : Nat := min (n+1) (2^bits-1)

def ordered (left right : ActorId) : ActorId × ActorId :=
  if left ≤ right then (left,right) else (right,left)

def seatFor (actor other : ActorId) : Nat := if other < actor then 1 else 0

def establishmentBinding (L : SessionLibrary) (identity : RoomIdentity) (left right : ActorId)
    (sessionId : Nat) : Digest :=
  L.deriveChannelBinding identity.object (ordered left right) sessionId

def durableAt (revision : Nat) (history : L.History) (view : SharedPitchSet) :
    DurableProjection where
  revision := revision
  base := L.frontier history
  historyRoot := L.historyRoot history
  view := view

def ActiveSession.manifest (active : ActiveSession L) : SessionManifest :=
  L.sessionManifest active.session

def ActiveSession.identity (active : ActiveSession L) : RoomSessionEpochIdentity where
  peer := active.foundation.peer
  manifest := L.manifestDigest active.manifest
  sessionId := active.sessionId
  epoch := active.manifest.epoch

def ActiveSession.new (foundation : RoomSessionFoundation L) (session : L.AuthorizedSession)
    (sessionId : Nat) (keys : L.SessionKeys) (leaseClockOrigin : Nat) :
    Except String (ActiveSession L) := do
  let localSeat := seatFor foundation.localActor foundation.peer
  let remoteSeat := 1-localSeat
  let manifest := L.sessionManifest session
  let lanes ← L.openLanes session localSeat remoteSeat keys
    (L.manifestDigest manifest,manifest.channelBinding)
  let kernel ← L.openKernel session
  let projection ← L.openProjection session kernel 1 leaseStart {
    revision := foundation.durableRevision
    base := manifest.base
    historyRoot := L.historyRoot foundation.history
    view := foundation.durableView }
  let planner ← L.openPlanner session
  return {
    foundation := foundation
    session := session
    sessionId := sessionId
    localSeat := localSeat
    remoteSeat := remoteSeat
    lanes := lanes
    kernel := kernel
    projection := projection
    planner := planner
    logicalTime := leaseStart
    leaseClockOrigin := leaseClockOrigin
    leaseClockLast := leaseClockOrigin
    durableRevision := foundation.durableRevision
    awaitingReification := ∅ }

def ActiveSession.hasLocalReificationWait (active : ActiveSession L) : Bool :=
  !active.awaitingReification.isEmpty

def ActiveSession.isSaturated (active : ActiveSession L) : Bool :=
  L.remainingCausalEvents active.lanes = 0 || L.eventBudgetExhausted active.kernel

def ActiveSession.preflightLocalEvent (active : ActiveSession L) : Except String Unit := do
  refuseIf (active.isSaturated = true)
    "session epoch is saturated; use durable fallback until renewal"
  refuseIf (sessionCapacity ≤ active.awaitingReification.size)
    s!"session has {sessionCapacity} local events awaiting durable causal dependencies"

def ActiveSession.needsRenewal (active : ActiveSession L) : Bool :=
  L.remainingCausalEvents active.lanes ≤ sessionRenewalReserve ||
    [active.localSeat,active.remoteSeat].any fun seat =>
      (L.remainingEventBudget active.kernel seat).any (· ≤ sessionRenewalReserve)

def projectionKind : SessionProjectionChange → RoomSessionProjectionKind
  | .predicted | .simulationAdvanced => .predicted
  | .confirmed => .confirmed
  | .corrected | .rejected => .corrected
  | .durableAdvanced => .advanced
  | .reset | .other => .reset

def ActiveSession.projectionEvent (active : ActiveSession L) (kind : RoomSessionProjectionKind) :
    RoomSessionProjection where
  manifest := L.manifestDigest active.manifest
  sessionId := active.sessionId
  epoch := active.manifest.epoch
  generation := L.generation active.projection
  sequence := L.sequence active.projection
  durableRevision := (L.durable active.projection).revision
  durableRoot := (L.durable active.projection).historyRoot
  kind := kind
  view := L.visible active.projection

abbrev ActiveM (L : SessionLibrary) := EStateM String (ActiveSession L)

def onLanes (program : EStateM String L.Lanes α) : ActiveM L α :=
  onPart (fun active => active.lanes) (fun lanes active => { active with lanes := lanes }) program

def onKernel (program : EStateM String L.SessionKernel α) : ActiveM L α :=
  onPart (fun active => active.kernel) (fun kernel active => { active with kernel := kernel })
    program

def onProjection (program : EStateM String L.SessionProjectionHost α) : ActiveM L α :=
  onPart (fun active => active.projection)
    (fun projection active => { active with projection := projection }) program

def onPlanner (program : EStateM String L.ReificationPlanner α) : ActiveM L α :=
  onPart (fun active => active.planner) (fun planner active => { active with planner := planner })
    program

def orThrow : Except String α → ActiveM L α
  | .ok value => pure value
  | .error message => throw message

/-- Ask the planner for one dot; it says by an error that the dot has to wait. -/
def planDot (dot : SessionDot) : ActiveM L (Except ReificationError L.ReificationPlan) :=
  fun active => match L.plan active.kernel dot active.planner with
    | .ok plan planner => .ok (.ok plan) { active with planner := planner }
    | .error error planner => .ok (.error error) { active with planner := planner }

def decodePitchEdit (L : SessionLibrary) (code : Nat) (bytes : Bytes) : Except String MusicOp :=
  if code ≠ pitchEdit then .error "unknown pitch session event code"
  else match L.decodeCommand bytes with
    | .error _ => .error "malformed pitch session command"
    | .ok command =>
        if isPitchEdit command then .ok command
        else .error "non-pitch command in pitch session"

def receiverLeaseTime (clockTicks : Nat) : ActiveM L Nat := do
  let active ← get
  refuseIf (clockTicks < active.leaseClockLast) "receiver session lease clock moved backwards"
  modify fun active => { active with leaseClockLast := clockTicks }
  return min (leaseStart+(clockTicks-active.leaseClockOrigin)) (2^64-1)

/-- Advance the simulation clock, take the event in and predict what it makes visible. -/
def ingest (event : L.PermittedEvent) : ActiveM L (Option RoomSessionProjectionKind) := do
  let active ← get
  let timeChange ← onProjection (L.advanceSimulation active.logicalTime)
  let active ← get
  let fromCut := L.projectedCut active.projection
  let advanced ← onKernel (L.ingestEvent event)
  if advanced = false then
    return timeChange.map fun _ => .predicted
  else do
    let active ← get
    let transition ← onProjection
      (L.predictBetween active.kernel fromCut (L.readyCut active.kernel))
    return (timeChange.or transition).map fun _ => .predicted

structure LocalSessionEvent (L : SessionLibrary) where
  command : MusicOp
  frame : Bytes
  plan : Option L.ReificationPlan
  dot : SessionDot

/-- Seal the command, and open the packet again as its own receiver. -/
def sealLocal (command : MusicOp) : ActiveM L (Bytes × L.Received) := do
  modify fun active => { active with logicalTime := saturatingSucc 64 active.logicalTime }
  let active ← get
  let counter := saturatingSucc 32 (L.highestSealedCounter active.lanes)
  let header ← orThrow
    (L.sealHeader active.lanes counter (L.readyCut active.kernel) active.logicalTime)
  let payload ← orThrow (L.encodeCommand command)
  let packet ← onLanes (L.sealPacket header payload)
  let active ← get
  let frame ← orThrow (L.encodeSent active.lanes packet)
  let decoded ← orThrow (L.decodeSent active.lanes frame)
  let received ← onLanes (L.receiveEcho decoded)
  return (frame,received)

/-- Plan a local event that has just been taken in, or let it wait for its dependencies. -/
def planOrAwait (dot : SessionDot) (command : MusicOp) (intentToken : PerformanceIntentToken) :
    ActiveM L (Option L.ReificationPlan) := do
  let planned ← planDot dot
  match planned with
  | .ok plan => return some plan
  | .error .unreifiedDependency => do
      modify fun active => { active with
        awaitingReification := active.awaitingReification.insert dot (command,some intentToken) }
      return none
  | .error (.other message) => throw message

def localEvent (command : MusicOp) (intentToken : PerformanceIntentToken)
    (receiverClockTicks : Nat) : ActiveM L (LocalSessionEvent L) := do
  let active ← get
  orThrow active.preflightLocalEvent
  let (frame,received) ← sealLocal command
  let receiverNow ← receiverLeaseTime receiverClockTicks
  let event ← orThrow (L.tryDecode received (decodePitchEdit L))
  let active ← get
  let permitted ← orThrow (L.permitEvent active.session receiverNow event frame.length)
  let dot := L.permittedDot permitted
  let _ ← ingest permitted
  let plan ← planOrAwait dot command intentToken
  return ⟨command,frame,plan,dot⟩

abbrev ReadyReification (L : SessionLibrary) :=
  L.ReificationPlan × MusicOp × Option PerformanceIntentToken

/-- Take the dots that can be planned by now out of the waiting ones, in order. -/
def retryDots : List SessionDot → ActiveM L (List (ReadyReification L))
  | [] => return []
  | dot :: rest => do
      let planned ← planDot dot
      match planned with
      | .ok plan => do
          let active ← get
          match active.awaitingReification[dot]? with
          | none => throw "dot came from the bounded wait map"
          | some (command,intentToken) => do
              modify fun active => { active with
                awaitingReification := active.awaitingReification.erase dot }
              let ready ← retryDots rest
              return (plan,command,intentToken) :: ready
      | .error .unreifiedDependency => retryDots rest
      | .error (.other message) => throw message

def retryReifications : ActiveM L (List (ReadyReification L)) := do
  let active ← get
  retryDots active.awaitingReification.keys

/-- Everything of a remote event before its replay state is consumed. -/
def receiveRemote (frame : Bytes) : ActiveM L (Nat × L.Received) := do
  let active ← get
  let packet ← orThrow (L.decodeReceived active.lanes frame)
  let received ← onLanes (L.receivePacket packet)
  return (L.effectiveAt packet,received)

/-- Take in a fresh remote event. Its failures lose the continuity of the session. -/
def ingestFresh (length receiverClockTicks atTime : Nat) (received : L.Received) :
    ActiveM L (Option RoomSessionProjectionKind) := do
  let receiverNow ← receiverLeaseTime receiverClockTicks
  let event ← orThrow (L.tryDecode received (decodePitchEdit L))
  let active ← get
  let permitted ← orThrow (L.permitEvent active.session receiverNow event length)
  modify fun active => { active with logicalTime := max active.logicalTime atTime }
  ingest permitted

/-- Move the projection to a newer generation over a durable horizon. -/
def resynchronize (revision : Nat) (history : L.History) (durable : DurableProjection) :
    ActiveM L Unit := do
  let active ← get
  let change ← onProjection (L.resynchronize (saturatingSucc 64 (L.generation active.projection))
    active.kernel active.logicalTime durable history)
  refuseIf (change ≠ .reset) "session projection resynchronization did not produce a reset"
  modify fun active => { active with durableRevision := revision }

/-- The session has taken over a durable revision. -/
def settleDurable (revision : Nat) (history : L.History) : ActiveM L Unit :=
  modify fun active => { active with
    durableRevision := revision
    foundation := { active.foundation with
      history := history
      durableView := (L.durable active.projection).view
      durableRevision := revision } }

/-- Move to a later durable revision: to the next one by the given step, further by a reset. -/
def nextDurable (step : DurableProjection → ActiveM L (Option RoomSessionProjectionKind))
    (revision : Nat) (history : L.History) (durableView : SharedPitchSet) :
    ActiveM L (Option RoomSessionProjectionKind) := do
  let active ← get
  let durable := durableAt revision history durableView
  if revision = saturatingSucc 64 active.durableRevision then step durable
  else do
    resynchronize revision history durable
    return some .reset

def takeDurable (step : DurableProjection → ActiveM L (Option RoomSessionProjectionKind))
    (revision : Nat) (history : L.History) (durableView : SharedPitchSet) :
    ActiveM L (Option RoomSessionProjectionKind) := do
  let active ← get
  if revision ≤ active.durableRevision then return none
  else do
    let kind ← nextDurable step revision history durableView
    settleDurable revision history
    return kind

def confirm (admission : L.SessionAdmission) (revision : Nat) (history : L.History)
    (durableView : SharedPitchSet) : ActiveM L (Option RoomSessionProjectionKind) :=
  takeDurable (fun durable => do
    let transition ← onProjection (L.confirmProjection admission durable)
    return transition.map projectionKind) revision history durableView

def advanceDurable (revision : Nat) (history : L.History) (durableView : SharedPitchSet) :
    ActiveM L (Option RoomSessionProjectionKind) :=
  takeDurable (fun durable => do
    let change ← onProjection (L.advanceDurable durable)
    return some (projectionKind change)) revision history durableView

def resynchronizeExact (revision : Nat) (history : L.History) (durableView : SharedPitchSet) :
    ActiveM L RoomSessionProjection := do
  resynchronize revision history (durableAt revision history durableView)
  settleDurable revision history
  let active ← get
  return active.projectionEvent .reset

section Background

/-- The relation looks neither at what a session has taken in, nor at its planner and its clocks,
nor at the durable horizon it stands on. -/
structure Background (R : ActiveSession L → ActiveSession L → Prop) : Prop where
  refl : ∀ active, R active active
  trans : ∀ first second third, R first second → R second third → R first third
  kernel : ∀ kernel active, R active { active with kernel := kernel }
  projection : ∀ projection active, R active { active with projection := projection }
  planner : ∀ planner active, R active { active with planner := planner }
  time : ∀ logicalTime active, R active { active with logicalTime := logicalTime }
  clock : ∀ ticks active, R active { active with leaseClockLast := ticks }
  revision : ∀ durableRevision active, R active { active with durableRevision := durableRevision }
  horizon : ∀ history durableView durableRevision active, R active { active with
    foundation := { active.foundation with
      history := history
      durableView := durableView
      durableRevision := durableRevision } }

variable {R : ActiveSession L → ActiveSession L → Prop}

theorem Background.bind {β : Type} (h : Background R) {first : ActiveM L β}
    {next : β → ActiveM L α} (hfirst : Stays R first) (hnext : ∀ value, Stays R (next value)) :
    Stays R (first >>= next) :=
  Stays.bind h.trans hfirst hnext

theorem Background.pure (h : Background R) (value : α) :
    Stays R (Pure.pure value : ActiveM L α) :=
  Stays.pure h.refl value

theorem Background.throw (h : Background R) (message : String) :
    Stays R (MonadExcept.throw message : ActiveM L α) :=
  Stays.throw h.refl message

theorem Background.orThrow (h : Background R) (checked : Except String α) :
    Stays R (Session.orThrow checked : ActiveM L α) := by
  cases checked with
  | ok value => exact h.pure value
  | error message => exact h.throw message

theorem Background.refuseIf (h : Background R) (bad : Prop) [Decidable bad] (message : String) :
    Stays R (TaskProgram.refuseIf bad message : ActiveM L Unit) :=
  Stays.refuseIf h.refl bad message

theorem Background.onKernel (h : Background R) (program : EStateM String L.SessionKernel α) :
    Stays R (Session.onKernel program) :=
  Stays.onPart h.kernel program

theorem Background.onProjection (h : Background R)
    (program : EStateM String L.SessionProjectionHost α) : Stays R (Session.onProjection program) :=
  Stays.onPart h.projection program

theorem Background.onPlanner (h : Background R) (program : EStateM String L.ReificationPlanner α) :
    Stays R (Session.onPlanner program) :=
  Stays.onPart h.planner program

theorem Background.receiverLeaseTime (h : Background R) (ticks : Nat) :
    Stays R (Session.receiverLeaseTime (L := L) ticks) :=
  Stays.get fun _ => h.bind (h.refuseIf _ _) fun _ =>
    h.bind (Stays.modifying (h.clock ticks)) fun _ => h.pure _

theorem Background.ingest (h : Background R) (event : L.PermittedEvent) :
    Stays R (Session.ingest event) := by
  refine Stays.get fun _ => h.bind (h.onProjection _) fun timeChange => ?_
  refine Stays.get fun _ => h.bind (h.onKernel _) fun advanced => ?_
  split
  · exact h.pure _
  · exact Stays.get fun _ => h.bind (h.onProjection _) fun _ => h.pure _

theorem Background.ingestFresh (h : Background R) (length ticks atTime : Nat)
    (received : L.Received) : Stays R (Session.ingestFresh length ticks atTime received) := by
  refine h.bind (h.receiverLeaseTime ticks) fun receiverNow => ?_
  refine h.bind (h.orThrow _) fun event => Stays.get fun _ => ?_
  refine h.bind (h.orThrow _) fun permitted => ?_
  exact h.bind (Stays.modifying fun active => h.time _ active) fun _ => h.ingest permitted

theorem Background.resynchronize (h : Background R) (revision : Nat) (history : L.History)
    (durable : DurableProjection) : Stays R (Session.resynchronize revision history durable) :=
  Stays.get fun _ => h.bind (h.onProjection _) fun _ =>
    h.bind (h.refuseIf _ _) fun _ => Stays.modifying (h.revision revision)

theorem Background.settleDurable (h : Background R) (revision : Nat) (history : L.History) :
    Stays R (Session.settleDurable revision history) :=
  Stays.modifying fun active => h.trans _ _ _ (h.revision revision active)
    (h.horizon history (L.durable active.projection).view revision _)

theorem Background.takeDurable (h : Background R)
    {step : DurableProjection → ActiveM L (Option RoomSessionProjectionKind)}
    (hstep : ∀ durable, Stays R (step durable)) (revision : Nat) (history : L.History)
    (durableView : SharedPitchSet) :
    Stays R (Session.takeDurable step revision history durableView) := by
  refine Stays.get fun active => ?_
  split
  · exact h.pure _
  · refine h.bind (Stays.get fun later => ?_) fun _ =>
      h.bind (h.settleDurable revision history) fun _ => h.pure _
    dsimp only
    split
    · exact hstep _
    · exact h.bind (h.resynchronize revision history _) fun _ => h.pure _

theorem Background.confirm (h : Background R) (admission : L.SessionAdmission) (revision : Nat)
    (history : L.History) (durableView : SharedPitchSet) :
    Stays R (Session.confirm admission revision history durableView) :=
  h.takeDurable (fun _ => h.bind (h.onProjection _) fun _ => h.pure _) _ _ _

theorem Background.advanceDurable (h : Background R) (revision : Nat) (history : L.History)
    (durableView : SharedPitchSet) :
    Stays R (Session.advanceDurable (L := L) revision history durableView) :=
  h.takeDurable (fun _ => h.bind (h.onProjection _) fun _ => h.pure _) _ _ _

theorem Background.resynchronizeExact (h : Background R) (revision : Nat) (history : L.History)
    (durableView : SharedPitchSet) :
    Stays R (Session.resynchronizeExact (L := L) revision history durableView) :=
  h.bind (h.resynchronize _ _ _) fun _ => h.bind (h.settleDurable _ _) fun _ =>
    Stays.get fun _ => h.pure _

end Background

section Foreground

/-- The relation looks neither at what a session has sealed and received, nor at its planner and
its clocks. -/
structure Foreground (R : ActiveSession L → ActiveSession L → Prop) : Prop where
  refl : ∀ active, R active active
  trans : ∀ first second third, R first second → R second third → R first third
  lanes : ∀ lanes active, R active { active with lanes := lanes }
  planner : ∀ planner active, R active { active with planner := planner }
  time : ∀ logicalTime active, R active { active with logicalTime := logicalTime }
  clock : ∀ ticks active, R active { active with leaseClockLast := ticks }

variable {R : ActiveSession L → ActiveSession L → Prop}

theorem Foreground.bind {β : Type} (h : Foreground R) {first : ActiveM L β}
    {next : β → ActiveM L α} (hfirst : Stays R first) (hnext : ∀ value, Stays R (next value)) :
    Stays R (first >>= next) :=
  Stays.bind h.trans hfirst hnext

theorem Foreground.pure (h : Foreground R) (value : α) :
    Stays R (Pure.pure value : ActiveM L α) :=
  Stays.pure h.refl value

theorem Foreground.throw (h : Foreground R) (message : String) :
    Stays R (MonadExcept.throw message : ActiveM L α) :=
  Stays.throw h.refl message

theorem Foreground.orThrow (h : Foreground R) (checked : Except String α) :
    Stays R (Session.orThrow checked : ActiveM L α) := by
  cases checked with
  | ok value => exact h.pure value
  | error message => exact h.throw message

theorem Foreground.onLanes (h : Foreground R) (program : EStateM String L.Lanes α) :
    Stays R (Session.onLanes program) :=
  Stays.onPart h.lanes program

theorem Foreground.onPlanner (h : Foreground R) (program : EStateM String L.ReificationPlanner α) :
    Stays R (Session.onPlanner program) :=
  Stays.onPart h.planner program

theorem Foreground.planDot (h : Foreground R) (dot : SessionDot) :
    Stays R (Session.planDot (L := L) dot) := by
  intro active
  unfold Session.planDot
  cases L.plan active.kernel dot active.planner with
  | ok plan planner => exact h.planner planner active
  | error error planner => exact h.planner planner active

theorem Foreground.receiverLeaseTime (h : Foreground R) (ticks : Nat) :
    Stays R (Session.receiverLeaseTime (L := L) ticks) :=
  Stays.get fun _ => h.bind (Stays.refuseIf h.refl _ _) fun _ =>
    h.bind (Stays.modifying (h.clock ticks)) fun _ => h.pure _

theorem Foreground.sealLocal (h : Foreground R) (command : MusicOp) :
    Stays R (Session.sealLocal (L := L) command) := by
  refine h.bind (Stays.modifying fun active => h.time _ active) fun _ => Stays.get fun _ => ?_
  refine h.bind (h.orThrow _) fun header => h.bind (h.orThrow _) fun payload => ?_
  refine h.bind (h.onLanes _) fun packet => Stays.get fun _ => ?_
  refine h.bind (h.orThrow _) fun frame => h.bind (h.orThrow _) fun decoded => ?_
  exact h.bind (h.onLanes _) fun _ => h.pure _

theorem Foreground.receiveRemote (h : Foreground R) (frame : Bytes) :
    Stays R (Session.receiveRemote (L := L) frame) :=
  Stays.get fun _ => h.bind (h.orThrow _) fun _ => h.bind (h.onLanes _) fun _ => h.pure _

section Waiting

variable (hwaiting : ∀ waiting active, R active { active with awaitingReification := waiting })

include hwaiting

theorem Foreground.planOrAwait (h : Foreground R) (dot : SessionDot) (command : MusicOp)
    (intentToken : PerformanceIntentToken) :
    Stays R (Session.planOrAwait (L := L) dot command intentToken) := by
  refine h.bind (h.planDot dot) fun planned => ?_
  match planned with
  | .ok plan => exact h.pure _
  | .error .unreifiedDependency =>
    exact h.bind (Stays.modifying fun active => hwaiting _ active) fun _ => h.pure _
  | .error (.other message) => exact h.throw message

theorem Foreground.retryDots (h : Foreground R) (dots : List SessionDot) :
    Stays R (Session.retryDots (L := L) dots) := by
  induction dots with
  | nil => exact h.pure _
  | cons dot rest ih =>
    refine h.bind (h.planDot dot) fun planned => ?_
    match planned with
    | .ok plan =>
      refine Stays.get fun active => ?_
      cases active.awaitingReification[dot]? with
      | none => exact h.throw _
      | some edit =>
        exact h.bind (Stays.modifying fun active => hwaiting _ active) fun _ =>
          h.bind ih fun _ => h.pure _
    | .error .unreifiedDependency => exact ih
    | .error (.other message) => exact h.throw message

theorem Foreground.retryReifications (h : Foreground R) :
    Stays R (Session.retryReifications (L := L)) :=
  Stays.get fun _ => h.retryDots hwaiting _

end Waiting

end Foreground

section KeepsSession

/-- The two are one session at different moments: only what it has taken in, and the durable
horizon it stands on, may differ. -/
structure KeepsSession (before after : ActiveSession L) : Prop where
  session : after.session = before.session
  sessionId : after.sessionId = before.sessionId
  foundation : ∃ history durableView durableRevision, after.foundation = { before.foundation with
    history := history
    durableView := durableView
    durableRevision := durableRevision }

theorem KeepsSession.refl (active : ActiveSession L) : KeepsSession active active :=
  ⟨rfl,rfl,_,_,_,rfl⟩

theorem KeepsSession.trans (first second third : ActiveSession L) (h : KeepsSession first second)
    (h' : KeepsSession second third) : KeepsSession first third := by
  obtain ⟨_,_,_,hfirst⟩ := h.foundation
  obtain ⟨history,durableView,durableRevision,hsecond⟩ := h'.foundation
  refine ⟨h'.session.trans h.session,h'.sessionId.trans h.sessionId,
    history,durableView,durableRevision,?_⟩
  rw [hsecond,hfirst]

theorem KeepsSession.identity {before after : ActiveSession L} (h : KeepsSession before after) :
    after.identity = before.identity := by
  obtain ⟨_,_,_,hfoundation⟩ := h.foundation
  simp only [ActiveSession.identity,ActiveSession.manifest,h.session,h.sessionId,hfoundation]

theorem KeepsSession.peer {before after : ActiveSession L} (h : KeepsSession before after) :
    after.foundation.peer = before.foundation.peer := by
  obtain ⟨_,_,_,hfoundation⟩ := h.foundation
  rw [hfoundation]

theorem keepsSession_background : Background (KeepsSession (L := L)) where
  refl := KeepsSession.refl
  trans := KeepsSession.trans
  kernel _ _ := ⟨rfl,rfl,_,_,_,rfl⟩
  projection _ _ := ⟨rfl,rfl,_,_,_,rfl⟩
  planner _ _ := ⟨rfl,rfl,_,_,_,rfl⟩
  time _ _ := ⟨rfl,rfl,_,_,_,rfl⟩
  clock _ _ := ⟨rfl,rfl,_,_,_,rfl⟩
  revision _ _ := ⟨rfl,rfl,_,_,_,rfl⟩
  horizon _ _ _ _ := ⟨rfl,rfl,_,_,_,rfl⟩

abbrev Keeps (program : ActiveM L α) : Prop := Stays KeepsSession program

theorem Keeps.bind {β : Type} {first : ActiveM L β} {next : β → ActiveM L α} (h : Keeps first)
    (hnext : ∀ value, Keeps (next value)) : Keeps (first >>= next) :=
  keepsSession_background.bind h hnext

theorem Keeps.pure (value : α) : Keeps (Pure.pure value : ActiveM L α) :=
  keepsSession_background.pure value

theorem Keeps.orThrow (checked : Except String α) : Keeps (L := L) (orThrow checked) :=
  keepsSession_background.orThrow checked

theorem keepsSession_foreground : Foreground (KeepsSession (L := L)) where
  refl := KeepsSession.refl
  trans := KeepsSession.trans
  lanes _ _ := ⟨rfl,rfl,_,_,_,rfl⟩
  planner _ _ := ⟨rfl,rfl,_,_,_,rfl⟩
  time _ _ := ⟨rfl,rfl,_,_,_,rfl⟩
  clock _ _ := ⟨rfl,rfl,_,_,_,rfl⟩

theorem keepsSession_waiting
    (waiting : Std.ExtTreeMap SessionDot (MusicOp × Option PerformanceIntentToken))
    (active : ActiveSession L) :
    KeepsSession active { active with awaitingReification := waiting } :=
  ⟨rfl,rfl,_,_,_,rfl⟩

theorem localEvent_keeps (command : MusicOp) (intentToken : PerformanceIntentToken)
    (ticks : Nat) : Keeps (L := L) (localEvent command intentToken ticks) := by
  refine Stays.get fun _ => Keeps.bind (Keeps.orThrow _) fun _ => ?_
  refine Keeps.bind (keepsSession_foreground.sealLocal command) fun ⟨frame,received⟩ => ?_
  refine Keeps.bind (keepsSession_background.receiverLeaseTime ticks) fun receiverNow => ?_
  refine Keeps.bind (Keeps.orThrow _) fun event => Stays.get fun _ => ?_
  refine Keeps.bind (Keeps.orThrow _) fun permitted => ?_
  refine Keeps.bind (keepsSession_background.ingest permitted) fun _ => ?_
  exact Keeps.bind (keepsSession_foreground.planOrAwait keepsSession_waiting _ command intentToken)
    fun _ => Keeps.pure _

theorem retryReifications_keeps : Keeps (L := L) retryReifications :=
  keepsSession_foreground.retryReifications keepsSession_waiting

theorem receiveRemote_keeps (frame : Bytes) : Keeps (L := L) (receiveRemote frame) :=
  keepsSession_foreground.receiveRemote frame

end KeepsSession

end WalkieSongie.Session
