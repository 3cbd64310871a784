import WalkieSongie.ProjectionGate
import WalkieSongie.SessionLibrary
import WalkieSongie.TaskProgram
set_option autoImplicit false

/-!
The state of a room session task, the world it runs in, and its effects on that world. Every
effect may be refused or cut by a crash; the store, what was emitted and what was queued
outlive the task.
-/

namespace WalkieSongie.Session
open TaskProgram

variable {L : SessionLibrary} {α : Type}

structure RoomSessionFoundation (L : SessionLibrary) where
  identity : RoomIdentity
  localActor : ActorId
  peer : ActorId
  signingKey : L.SigningKey
  history : L.History
  musicRoot : EntryHash
  localGrants : List EntryHash
  peerGrants : List EntryHash
  durableView : SharedPitchSet
  durableRevision : Nat

structure Foundations (L : SessionLibrary) where
  entries : Std.ExtTreeMap ActorId (RoomSessionFoundation L)
  keyed : ∀ (peer : ActorId) (foundation : RoomSessionFoundation L),
    entries[peer]? = some foundation → foundation.peer = peer

def Foundations.empty : Foundations L where
  entries := ∅
  keyed peer foundation h := by simp at h

def Foundations.insert (foundations : Foundations L) (foundation : RoomSessionFoundation L) :
    Foundations L where
  entries := foundations.entries.insert foundation.peer foundation
  keyed peer other h := by
    rw [Std.ExtTreeMap.getElem?_insert] at h
    split at h
    · rename_i hpeer
      cases h
      exact Std.LawfulEqOrd.eq_of_compare hpeer
    · exact foundations.keyed peer other h

def Foundations.ofList (foundations : List (RoomSessionFoundation L)) : Foundations L :=
  foundations.foldl Foundations.insert .empty

def Foundations.updateHorizon (history : L.History) (durableView : SharedPitchSet)
    (durableRevision : Nat) (foundations : Foundations L) : Foundations L where
  entries := foundations.entries.map fun _ foundation => { foundation with
    history := history
    durableView := durableView
    durableRevision := durableRevision }
  keyed peer foundation h := by
    rw [Std.ExtTreeMap.getElem?_map,Option.map_eq_some_iff] at h
    obtain ⟨old,hold,rfl⟩ := h
    exact foundations.keyed peer old hold

structure OfferBody (L : SessionLibrary) where
  source : ActorId
  target : ActorId
  sessionId : Nat
  epoch : Nat
  base : List EntryHash
  grants : List EntryHash
  handshake : L.HandshakeBytes
  foundation : L.PresentationBytes

structure AnswerBody (L : SessionLibrary) where
  source : ActorId
  target : ActorId
  sessionId : Nat
  grants : List EntryHash
  handshake : L.HandshakeBytes
  foundation : L.PresentationBytes

structure EventBody where
  source : ActorId
  target : ActorId
  sessionId : Nat
  frame : Bytes
  deriving DecidableEq

inductive SessionCarrierBody (L : SessionLibrary) where
  | offer (body : OfferBody L)
  | answer (body : AnswerBody L)
  | event (body : EventBody)

structure PendingSession (L : SessionLibrary) where
  foundation : RoomSessionFoundation L
  pending : L.PendingInitiator
  sessionId : Nat
  manifest : SessionManifest
  localFoundation : VerifiedSeatFoundation
  renewalFloor : Option SessionRenewalFloor
  /-- Exact signed offer retained for idempotent retransmission. -/
  offerCarrier : SessionCarrierBody L

structure ActiveSession (L : SessionLibrary) where
  foundation : RoomSessionFoundation L
  session : L.AuthorizedSession
  sessionId : Nat
  localSeat : Nat
  remoteSeat : Nat
  lanes : L.Lanes
  kernel : L.SessionKernel
  projection : L.SessionProjectionHost
  planner : L.ReificationPlanner
  logicalTime : Nat
  leaseClockOrigin : Nat
  leaseClockLast : Nat
  durableRevision : Nat
  awaitingReification : Std.ExtTreeMap SessionDot (MusicOp × Option PerformanceIntentToken)

structure RetiredSession (L : SessionLibrary) where
  active : ActiveSession L
  projection : RoomSessionProjection
  outstanding : Finset RoomSessionDurableCorrelation

structure RoomSessionTask (L : SessionLibrary) where
  /-- The generation of the worker's event port, once it is configured. -/
  events : Option Nat := none
  foundations : Foundations L := .empty
  pending : Std.ExtTreeMap ActorId (PendingSession L) := ∅
  active : Std.ExtTreeMap ActorId (ActiveSession L) := ∅
  retired : Std.ExtTreeMap RoomSessionEpochIdentity (RetiredSession L) := ∅
  inflightReifications :
    Std.ExtTreeMap RoomSessionEpochIdentity (Finset RoomSessionDurableCorrelation) := ∅
  presentationPeer : Option ActorId := none
  traceEnabled : Bool := false
  renewalTestCut : Bool := false
  renewalTestCutConsumed : Bool := false
  renewalFloors : Std.ExtTreeMap ActorId (Option SessionRenewalFloor) := ∅
  renewalNeeded : Std.ExtTreeSet ActorId := ∅

inductive RoomSessionRenewalTraceStage where
  | recoveredFloor
  | offerStarted
  | staleOfferRefused
  | floorPersistedBeforeEgressCut
  | sessionInstalled
  deriving DecidableEq

structure RoomSessionRenewalTrace where
  stage : RoomSessionRenewalTraceStage
  peer : ActorId
  epoch : Nat
  floorEpoch : Option Nat
  deriving DecidableEq

/-- One atomically accepted worker-to-window realtime update. -/
structure RoomSessionRealtimeEgress (L : SessionLibrary) where
  projection : RoomSessionProjection
  carrier : Option (SessionCarrierBody L) := none
  durable : List RoomSessionDurableCorrelation := []
  intentToken : Option PerformanceIntentToken := none

inductive RoomSessionEgress (L : SessionLibrary) where
  | carrier (body : SessionCarrierBody L)
  | realtime (event : RoomSessionRealtimeEgress L)
  | fallbackDurable (command : MusicOp) (intentToken : PerformanceIntentToken)
  | intentRejected (intentToken : PerformanceIntentToken) (reason : String)
  | diagnostic (message : String)
  | renewalTrace (trace : RoomSessionRenewalTrace)

def RoomSessionEgress.projection? : RoomSessionEgress L → Option RoomSessionProjection
  | .realtime event => some event.projection
  | _ => none

def RoomSessionEgress.carrier? : RoomSessionEgress L → Option (SessionCarrierBody L)
  | .carrier body => some body
  | .realtime event => event.carrier
  | _ => none

structure RoomSessionReification (L : SessionLibrary) where
  peer : ActorId
  session : RoomSessionEpochIdentity
  plan : L.ReificationPlan
  command : MusicOp
  intentToken : Option PerformanceIntentToken

inductive OpeningStage where
  | announced
  | installed
  deriving DecidableEq

/-- One session of a peer was announced by an Answer or a Reset, or became active. -/
structure Opening where
  session : RoomSessionEpochIdentity
  stage : OpeningStage
  deriving DecidableEq

structure SessionEdit where
  session : RoomSessionEpochIdentity
  dot : SessionDot
  deriving DecidableEq

/-- What has happened to the sessions so far, newest first. The task does not read it. -/
structure Journal where
  openings : List Opening := []
  ingested : List SessionEdit := []
  confirmed : List SessionEdit := []

structure Core (L : SessionLibrary) where
  task : RoomSessionTask L := {}
  store : RoomSessionRenewalKey → Option L.FloorBytes := fun _ => none
  egress : List (RoomSessionEgress L) := []
  queue : List (RoomSessionReification L) := []
  workerErrors : List String := []
  journal : Journal := {}

inductive Reply where
  | accepted
  | refused (message : String)
  | crash
  deriving DecidableEq

/-- What the outside makes of one effect, and the values it returns. -/
structure EffectAnswer where
  reply : Reply := .accepted
  /-- The effect took hold although the task was not told so. -/
  performed : Bool := false
  ticks : Nat := 0
  randomSession : Nat := 1
  randomSecret : Nat := 0
  deriving DecidableEq

structure World (L : SessionLibrary) where
  core : Core L
  answers : List EffectAnswer := []

inductive Stop where
  | failed (message : String)
  | crash
  deriving DecidableEq

abbrev TaskM (L : SessionLibrary) := EStateM Stop (World L)

def fail (message : String) : TaskM L α := throw (.failed message)

def check : Except String α → TaskM L α
  | .ok value => pure value
  | .error message => fail message

def getTask : TaskM L (RoomSessionTask L) := do
  let world ← get
  return world.core.task

def modifyCore (f : Core L → Core L) : TaskM L Unit :=
  modify fun world => { world with core := f world.core }

def Core.mapTask (f : RoomSessionTask L → RoomSessionTask L) (core : Core L) : Core L :=
  { core with task := f core.task }

def modifyTask (f : RoomSessionTask L → RoomSessionTask L) : TaskM L Unit :=
  modifyCore (Core.mapTask f)

/-- Continue after a failure; a crash cannot be caught. -/
def attempt (program : TaskM L α) : TaskM L (Except String α) :=
  fun world => match program world with
    | .ok value after => .ok (.ok value) after
    | .error (.failed message) after => .ok (.error message) after
    | .error .crash after => .error .crash after

/-- One effect. A refusal the task is told of means that nothing happened, unless the effect's
outcome is uncertain. -/
def effect (uncertain : Bool) (perform : Core L → Core L) : TaskM L EffectAnswer :=
  fun world =>
    let answer := world.answers.headD {}
    match answer.reply with
    | .accepted => .ok answer ⟨perform world.core,world.answers.tail⟩
    | .refused message => .error (.failed message)
        ⟨if uncertain ∧ answer.performed then perform world.core else world.core,
          world.answers.tail⟩
    | .crash => .error .crash
        ⟨if answer.performed then perform world.core else world.core,world.answers.tail⟩

def Core.opens (note : List Opening) (core : Core L) : Core L :=
  { core with journal := { core.journal with openings := note ++ core.journal.openings } }

def Core.sends (note : List Opening) (event : RoomSessionEgress L) (core : Core L) : Core L :=
  Core.opens note { core with egress := event :: core.egress }

def emitOpening (note : List Opening) (event : RoomSessionEgress L) : TaskM L Unit := do
  let task ← getTask
  refuseIf (task.events = none) (Stop.failed "worker session event port is not configured")
  let _ ← effect false (Core.sends note event)

def emit (event : RoomSessionEgress L) : TaskM L Unit := emitOpening [] event

def emitRenewalTrace (stage : RoomSessionRenewalTraceStage) (peer : ActorId) (epoch : Nat)
    (floorEpoch : Option Nat) : TaskM L Unit := do
  let task ← getTask
  if task.traceEnabled then emit (.renewalTrace ⟨stage,peer,epoch,floorEpoch⟩) else pure ()

def nowTicks : TaskM L Nat := do
  let answer ← effect false id
  return answer.ticks

def loadFloorBytes (key : RoomSessionRenewalKey) : TaskM L (Option L.FloorBytes) := do
  let _ ← effect false id
  let world ← get
  return world.core.store key

def Core.stores (key : RoomSessionRenewalKey) (bytes : L.FloorBytes) (core : Core L) : Core L :=
  { core with store := Function.update core.store key (some bytes) }

/-- A successful `persist` is durable; an unsuccessful one may be. -/
def persistFloorBytes (key : RoomSessionRenewalKey) (bytes : L.FloorBytes) : TaskM L Unit := do
  let _ ← effect true (Core.stores key bytes)

def Core.queues (reification : RoomSessionReification L) (core : Core L) : Core L :=
  { core with queue := core.queue ++ [reification] }

def sendReification (reification : RoomSessionReification L) : TaskM L Unit := do
  let _ ← effect false (Core.queues reification)

/-- Run a program on one peer's active session, which is kept as it left it also when it fails. -/
def onActive (peer : ActorId) (missing : String) (program : EStateM String (ActiveSession L) α) :
    TaskM L α := do
  let task ← getTask
  match task.active[peer]? with
  | none => fail missing
  | some active => match program active with
      | .ok value after => do
          modifyTask fun task => { task with active := task.active.insert peer after }
          pure value
      | .error message after => do
          modifyTask fun task => { task with active := task.active.insert peer after }
          fail message

/-- The compact generation is over; only the floors and the foundations are kept. -/
def Core.ends (terminal : String) (core : Core L) : Core L :=
  { core with
    workerErrors := if core.task.events = none then core.workerErrors
      else terminal :: core.workerErrors
    task := { core.task with
      events := none
      pending := ∅
      active := ∅
      retired := ∅
      inflightReifications := ∅
      presentationPeer := none
      renewalNeeded := ∅ } }

def failSessionGeneration (reason : String) : TaskM L α := do
  let terminal := s!"{reason}; compact generation terminated; reopen canonical state, repair, and establish a fresh epoch"
  modifyCore (Core.ends terminal)
  fail terminal

def emitRealtimeOrFailGeneration (event : RoomSessionRealtimeEgress L) : TaskM L Unit := do
  let first ← attempt (emit (.realtime event))
  match first with
  | .ok _ => pure ()
  | .error firstError => failSessionGeneration s!"combined session carrier/projection frame was rejected before window acceptance: {firstError}"

def rejectIntent (intentToken : PerformanceIntentToken) (reason : String) : TaskM L Unit :=
  emit (.intentRejected intentToken reason)

/-- The outside has answered some more effects, in order. -/
def World.Spent (before after : World L) : Prop := after.answers <:+ before.answers

theorem World.Spent.refl (world : World L) : world.Spent world := List.suffix_refl _

section Rules

variable {Q : α → Core L → Prop} {E : Stop → Core L → Prop} {world : World L}

/-- How a program ends, as far as the task and what outlives it are concerned. -/
def Ends (Q : α → Core L → Prop) (E : Stop → Core L → Prop)
    (result : EStateM.Result Stop (World L) α) : Prop :=
  Post (fun value after => Q value after.core) (fun stop after => E stop after.core) result

theorem Ends.mono {Q' : α → Core L → Prop} {E' : Stop → Core L → Prop}
    {result : EStateM.Result Stop (World L) α} (h : Ends Q' E' result)
    (hok : ∀ value core, Q' value core → Q value core)
    (herror : ∀ stop core, E' stop core → E stop core) : Ends Q E result :=
  Post.mono h (fun value after => hok value after.core) fun stop after => herror stop after.core

theorem Ends.pure {value : α} (h : Q value world.core) :
    Ends Q E ((Pure.pure value : TaskM L α) world) := h

theorem Ends.bind {β : Type} {first : TaskM L β} {next : β → TaskM L α} {R : β → Core L → Prop}
    (h : Ends R E (first world))
    (hnext : ∀ value after, R value after.core → Ends Q E (next value after)) :
    Ends Q E ((first >>= next) world) :=
  Post.bind h hnext

theorem Ends.fail {message : String} (h : E (.failed message) world.core) :
    Ends Q E ((Session.fail message : TaskM L α) world) := h

theorem Ends.check {β : Type} {checked : Except String β} {next : β → TaskM L α}
    (hok : ∀ value, checked = .ok value → Ends Q E (next value world))
    (herror : ∀ message, checked = .error message → E (.failed message) world.core) :
    Ends Q E ((Session.check checked >>= next) world) := by
  cases checked with
  | ok value => exact hok value rfl
  | error message => exact herror message rfl

theorem Ends.refuseIf {bad : Prop} [Decidable bad] {stop : Stop} {next : Unit → TaskM L α}
    (hbad : bad → E stop world.core) (hgood : ¬ bad → Ends Q E (next () world)) :
    Ends Q E ((TaskProgram.refuseIf bad stop >>= next) world) :=
  Post.refuseIf hbad hgood

theorem Ends.branch {bad : Prop} [Decidable bad] {first second : TaskM L α}
    (hfirst : bad → Ends Q E (first world)) (hsecond : ¬ bad → Ends Q E (second world)) :
    Ends Q E ((if bad then first else second) world) :=
  Post.ite hfirst hsecond

theorem Ends.getTask {next : RoomSessionTask L → TaskM L α}
    (h : Ends Q E (next world.core.task world)) : Ends Q E ((Session.getTask >>= next) world) := h

theorem Ends.modifyCore {f : Core L → Core L} {Q : Unit → Core L → Prop}
    (h : Q () (f world.core)) : Ends Q E (Session.modifyCore f world) := h

theorem Ends.modifyTask {f : RoomSessionTask L → RoomSessionTask L} {Q : Unit → Core L → Prop}
    (h : Q () (world.core.mapTask f)) : Ends Q E (Session.modifyTask f world) := h

theorem Ends.forM {β : Type} {items : List β} {body : β → TaskM L PUnit} (I : Core L → Prop)
    (h : I world.core)
    (hbody : ∀ item ∈ items, ∀ after, I after.core → Ends (fun _ => I) E (body item after)) :
    Ends (fun _ => I) E ((items.forM body : TaskM L PUnit) world) :=
  Post.forM (fun after : World L => I after.core) h hbody

/-- How an attempted program went. -/
def Caught (Q : α → Core L → Prop) (E : Stop → Core L → Prop) :
    Except String α → Core L → Prop
  | .ok value => Q value
  | .error message => E (.failed message)

theorem Ends.forM_first {β : Type} {items : List β} {body : β → TaskM L PUnit} (I : Core L → Prop)
    (hitems : items ≠ []) (hfirst : ∀ item ∈ items, Ends (fun _ => I) E (body item world))
    (hbody : ∀ item ∈ items, ∀ after, I after.core → Ends (fun _ => I) E (body item after)) :
    Ends (fun _ => I) E ((items.forM body : TaskM L PUnit) world) := by
  cases items with
  | nil => exact absurd rfl hitems
  | cons item rest =>
    exact Ends.bind (hfirst item List.mem_cons_self) fun _ after hafter => Ends.forM I hafter
      fun other hother => hbody other (List.mem_cons_of_mem item hother)

theorem Ends.attempt {program : TaskM L α} (h : Ends Q E (program world)) :
    Ends (Caught Q E) E (Session.attempt program world) := by
  unfold Session.attempt
  cases hrun : program world with
  | ok value after => rw [hrun] at h; exact h
  | error stop after =>
    rw [hrun] at h
    cases stop with
    | failed message => exact h
    | crash => exact h

theorem Ends.effect {uncertain : Bool} {perform : Core L → Core L}
    {Q : EffectAnswer → Core L → Prop} (hok : ∀ answer, Q answer (perform world.core))
    (hsame : ∀ stop, E stop world.core) (hcrash : E .crash (perform world.core))
    (huncertain : uncertain = true → ∀ message, E (.failed message) (perform world.core)) :
    Ends Q E (Session.effect uncertain perform world) := by
  unfold Session.effect
  cases hreply : (world.answers.headD {}).reply with
  | accepted =>
    simp only [hreply]
    exact hok _
  | refused message =>
    simp only [hreply]
    by_cases h : uncertain = true ∧ (world.answers.headD {}).performed = true
    · rw [if_pos h]
      exact huncertain h.1 message
    · rw [if_neg h]
      exact hsame _
  | crash =>
    simp only [hreply]
    by_cases h : (world.answers.headD {}).performed = true
    · rw [if_pos h]
      exact hcrash
    · rw [if_neg h]
      exact hsame _

theorem Ends.emitOpening {note : List Opening} {event : RoomSessionEgress L}
    {Q : Unit → Core L → Prop} (hok : Q () (world.core.sends note event))
    (hsame : ∀ stop, E stop world.core) (hcrash : E .crash (world.core.sends note event)) :
    Ends Q E (Session.emitOpening note event world) :=
  Ends.getTask <| Ends.refuseIf (fun _ => hsame _) fun _ =>
    Ends.bind (Ends.effect (fun _ => hok) hsame hcrash fun h => absurd h (by decide)) fun _ _ h => h

theorem Ends.emit {event : RoomSessionEgress L} {Q : Unit → Core L → Prop}
    (hok : Q () (world.core.sends [] event)) (hsame : ∀ stop, E stop world.core)
    (hcrash : E .crash (world.core.sends [] event)) :
    Ends Q E (Session.emit event world) :=
  Ends.emitOpening hok hsame hcrash

theorem Ends.nowTicks {Q : Nat → Core L → Prop} (hok : ∀ ticks, Q ticks world.core)
    (hsame : ∀ stop, E stop world.core) : Ends Q E (Session.nowTicks world) :=
  Ends.bind (Q := Q) (R := fun answer core => Q answer.ticks core)
    (Ends.effect (fun answer => hok answer.ticks) hsame (hsame _) fun _ _ => hsame _)
    fun _ _ h => h

theorem getTask_bind {next : RoomSessionTask L → TaskM L α} :
    (Session.getTask >>= next) world = next world.core.task world := rfl

theorem attempt_of_ok {program : TaskM L α} {value : α} {after : World L}
    (h : program world = .ok value after) :
    Session.attempt program world = .ok (.ok value) after := by
  simp only [Session.attempt,h]

theorem attempt_of_failed {program : TaskM L α} {message : String} {after : World L}
    (h : program world = .error (.failed message) after) :
    Session.attempt program world = .ok (.error message) after := by
  simp only [Session.attempt,h]

theorem onActive_ok {peer : ActorId} {active after : ActiveSession L}
    {program : EStateM String (ActiveSession L) α} {value : α} (missing : String)
    (hactive : world.core.task.active[peer]? = some active)
    (hprogram : program active = .ok value after) :
    Session.onActive peer missing program world = .ok value ⟨world.core.mapTask fun task =>
      { task with active := task.active.insert peer after },world.answers⟩ := by
  rw [Session.onActive,getTask_bind,hactive]
  simp only [hprogram]
  rfl

theorem onActive_failed {peer : ActorId} {active after : ActiveSession L}
    {program : EStateM String (ActiveSession L) α} {message : String}
    (missing : String) (hactive : world.core.task.active[peer]? = some active)
    (hprogram : program active = .error message after) :
    Session.onActive peer missing program world =
      .error (.failed message) ⟨world.core.mapTask fun task =>
        { task with active := task.active.insert peer after },world.answers⟩ := by
  rw [Session.onActive,getTask_bind,hactive]
  simp only [hprogram]
  rfl

def Granted (answers : List EffectAnswer) : Prop := ∀ answer ∈ answers, answer.reply = .accepted

theorem Granted.tail {answers : List EffectAnswer} (h : Granted answers) : Granted answers.tail :=
  fun answer hanswer => h answer (List.mem_of_mem_tail hanswer)

theorem effect_granted (h : Granted world.answers) (uncertain : Bool)
    (perform : Core L → Core L) : Session.effect uncertain perform world =
      .ok (world.answers.headD {}) ⟨perform world.core,world.answers.tail⟩ := by
  have hreply : (world.answers.headD {}).reply = .accepted := by
    cases hanswers : world.answers with
    | nil => rfl
    | cons answer rest => exact h answer (by simp [hanswers])
  simp only [Session.effect,hreply]

theorem nowTicks_granted (h : Granted world.answers) : Session.nowTicks world =
    .ok (world.answers.headD {}).ticks ⟨world.core,world.answers.tail⟩ :=
  bind_of_ok (effect_granted h false id)

end Rules

section Spends

/-- However the program ends, it has only used up answers. -/
abbrev Spends (program : TaskM L α) : Prop := Stays World.Spent program

theorem Spends.pure (value : α) : Spends (Pure.pure value : TaskM L α) :=
  Stays.pure World.Spent.refl value

theorem Spends.fail (message : String) : Spends (Session.fail message : TaskM L α) :=
  Stays.throw World.Spent.refl _

theorem Spends.bind {β : Type} {first : TaskM L β} {next : β → TaskM L α} (h : Spends first)
    (hnext : ∀ value, Spends (next value)) : Spends (first >>= next) :=
  Stays.bind (fun _ _ _ hfirst hlast => hlast.trans hfirst) h hnext

theorem Spends.check (checked : Except String α) : Spends (L := L) (Session.check checked) := by
  cases checked with
  | ok value => exact Spends.pure value
  | error message => exact Spends.fail message

theorem Spends.refuseIf (bad : Prop) [Decidable bad] (stop : Stop) :
    Spends (L := L) (TaskProgram.refuseIf bad stop) :=
  Stays.refuseIf World.Spent.refl bad stop

theorem Spends.getTask {next : RoomSessionTask L → TaskM L α} (h : ∀ task, Spends (next task)) :
    Spends (Session.getTask >>= next) := fun world => h world.core.task world

theorem Spends.modifyCore (f : Core L → Core L) : Spends (Session.modifyCore f) :=
  World.Spent.refl

theorem Spends.effect (uncertain : Bool) (perform : Core L → Core L) :
    Spends (Session.effect uncertain perform) := by
  intro world
  unfold Session.effect
  cases hreply : (world.answers.headD {}).reply with
  | accepted =>
    simp only [hreply]
    exact List.tail_suffix _
  | refused message =>
    simp only [hreply]
    exact List.tail_suffix _
  | crash =>
    simp only [hreply]
    exact List.tail_suffix _

theorem Spends.emit (event : RoomSessionEgress L) : Spends (Session.emit event) :=
  Spends.getTask fun _ => Spends.bind (Spends.refuseIf _ _) fun _ =>
    Spends.bind (Spends.effect _ _) fun _ => Spends.pure ()

theorem Spends.emitRenewalTrace (stage : RoomSessionRenewalTraceStage) (peer : ActorId)
    (epoch : Nat) (floorEpoch : Option Nat) :
    Spends (L := L) (Session.emitRenewalTrace stage peer epoch floorEpoch) := by
  refine Spends.getTask fun task => ?_
  split
  · exact Spends.emit _
  · exact Spends.pure ()

theorem Ends.spending {program : TaskM L α} {Q : α → Core L → Prop} {E : Stop → Core L → Prop}
    {world : World L} (h : Ends Q E (program world)) (hspends : Spends program) :
    Post (fun value after => Q value after.core ∧ world.Spent after)
      (fun stop after => E stop after.core ∧ world.Spent after) (program world) :=
  Post.and h (hspends world)

end Spends

end WalkieSongie.Session
