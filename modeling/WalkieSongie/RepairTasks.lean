import WalkieSongie.ReplicaWorker
set_option autoImplicit false

/-!
The repair tasks of one live room generation of the browser host: who may start one, and what an
initiator does from one of its awaits to the next.
-/

namespace WalkieSongie.Repair
open Replica (RoomLane)

structure RepairKey where
  peer : ActorId
  lane : RoomLane
  deriving DecidableEq

structure RepairCoordinatorState where
  active : KeyedMap RepairKey Bool := .empty
  responders : Finset RepairKey := ∅

namespace RepairCoordinatorState

variable (key : RepairKey) (state : RepairCoordinatorState)

def schedule : Bool × RepairCoordinatorState :=
  if key ∈ state.responders then (false,state)
  else
    match state.active.get? key with
    | some _ => (false,{ state with active := state.active.insert key true })
    | none => (true,{ state with active := state.active.insert key false })

def continuePending : Bool × RepairCoordinatorState :=
  match state.active.get? key with
  | some true => (true,{ state with active := state.active.insert key false })
  | some false => (false,{ state with active := state.active.erase key })
  | none => (false,state)

def finish : RepairCoordinatorState := { state with active := state.active.erase key }

def beginResponder : Bool × RepairCoordinatorState :=
  if (state.active.get? key).isSome || key ∈ state.responders then (false,state)
  else (true,{ state with responders := insert key state.responders })

def finishResponder : RepairCoordinatorState :=
  { state with responders := state.responders.erase key }

end RepairCoordinatorState

inductive RoomWorkerRepairRetryReason where
  | noCapturedCut
  | incomplete
  | rootMismatch
  | historyAdvanced

inductive RoomWorkerRepairStatus where
  | exchanging
  | complete
  | divergent
  | incomplete
  | policyDivergence
  | retryFresh (reason : RoomWorkerRepairRetryReason)

/-- How an attempt ended, without the outcome that is only reported. -/
abbrev AttemptResult := Except String RoomWorkerRepairStatus

def divergentBackoffMs : List Nat := [100,300,900]

def retryFresh : AttemptResult → Bool
  | .ok .divergent | .ok (.retryFresh _) => true
  | _ => false

def completed : AttemptResult → Bool
  | .ok .complete => true
  | _ => false

/-- Where an initiator waits: for its first turn, for the end of an attempt, for the session worker
after a complete one, or for its back-off to pass. -/
inductive InitiatorPhase where
  | spawned
  | attempting (retry : Nat)
  | establishing (retry : Nat)
  | sleeping (retry : Nat)

inductive Resumption where
  | polled
  | attempted (result : AttemptResult)
  | established (result : Except String Unit)
  | slept

/-- What an initiator does with the report of an attempt; `none` is its return. A batch that goes on
begins its next attempt at once. -/
def reported (key : RepairKey) (retry : Nat) (result : AttemptResult)
    (repairs : RepairCoordinatorState) : Option InitiatorPhase × RepairCoordinatorState :=
  if !retryFresh result || retry = divergentBackoffMs.length then
    if !completed result then (none,repairs.finish key)
    else
      let (pending,repairs) := repairs.continuePending key
      (if pending then some (.attempting 0) else none,repairs)
  else (some (.sleeping retry),repairs)

/-- The generation is alive throughout, so that no await of an initiator is cancelled. -/
def InitiatorPhase.resume (phase : InitiatorPhase) (key : RepairKey)
    (repairs : RepairCoordinatorState) :
    Resumption → Option (Option InitiatorPhase × RepairCoordinatorState)
  | .polled =>
    match phase with
    | .spawned => some (some (.attempting 0),repairs)
    | _ => none
  | .attempted result =>
    match phase with
    | .attempting retry =>
      if completed result && key.lane = .music then some (some (.establishing retry),repairs)
      else some (reported key retry result repairs)
    | _ => none
  | .established _ =>
    match phase with
    | .establishing retry => some (reported key retry (.ok .complete) repairs)
    | _ => none
  | .slept =>
    match phase with
    | .sleeping retry => some (some (.attempting (retry+1)),repairs)
    | _ => none

structure InitiatorTask where
  key : RepairKey
  phase : InitiatorPhase

inductive RepairEvent where
  | triggered (key : RepairKey)
  | resumed (key : RepairKey)
  | attempted (key : RepairKey)
  deriving DecidableEq

/-- The tasks that the generation's scope holds, beside the coordinator they share, and what
happened so far. -/
structure RepairTasks where
  repairs : RepairCoordinatorState := {}
  initiators : List InitiatorTask := []
  responding : List RepairKey := []
  log : List RepairEvent := []

inductive RepairStep where
  | trigger (key : RepairKey)
  | inbound (key : RepairKey)
  | resume (index : Nat) (resumption : Resumption)
  | responded (index : Nat)

namespace RepairTasks

def spawnRepairInitiator (key : RepairKey) (tasks : RepairTasks) : RepairTasks :=
  let (scheduled,repairs) := tasks.repairs.schedule key
  { tasks with
    repairs
    initiators := if scheduled then tasks.initiators ++ [⟨key,.spawned⟩] else tasks.initiators
    log := tasks.log ++ [.triggered key] }

/-- A duplicate stream is only closed. -/
def spawnRepairResponder (key : RepairKey) (tasks : RepairTasks) : RepairTasks :=
  let (begun,repairs) := tasks.repairs.beginResponder key
  { tasks with
    repairs
    responding := if begun then tasks.responding ++ [key] else tasks.responding }

/-- The events of a turn that ends in this phase: a turn that comes to an attempt has begun it. -/
def turnEvents (key : RepairKey) : Option InitiatorPhase → List RepairEvent
  | some (.attempting _) => [.resumed key,.attempted key]
  | _ => [.resumed key]

def resumeInitiator (index : Nat) (resumption : Resumption) (tasks : RepairTasks) :
    Option RepairTasks := do
  let task ← tasks.initiators[index]?
  let (phase,repairs) ← task.phase.resume task.key tasks.repairs resumption
  some { tasks with
    repairs
    initiators :=
      match phase with
      | some phase => tasks.initiators.set index { task with phase }
      | none => tasks.initiators.eraseIdx index
    log := tasks.log ++ turnEvents task.key phase }

def resumeResponder (index : Nat) (tasks : RepairTasks) : Option RepairTasks := do
  let key ← tasks.responding[index]?
  some { tasks with
    repairs := tasks.repairs.finishResponder key
    responding := tasks.responding.eraseIdx index }

/-- A resumption that its task does not wait for is no step. -/
def step (tasks : RepairTasks) : RepairStep → Option RepairTasks
  | .trigger key => some (tasks.spawnRepairInitiator key)
  | .inbound key => some (tasks.spawnRepairResponder key)
  | .resume index resumption => tasks.resumeInitiator index resumption
  | .responded index => tasks.resumeResponder index

def run : List RepairStep → RepairTasks → Option RepairTasks
  | [], tasks => some tasks
  | step :: steps, tasks => (tasks.step step).bind (run steps)

end RepairTasks

end WalkieSongie.Repair
