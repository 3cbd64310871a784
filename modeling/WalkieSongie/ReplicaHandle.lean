import WalkieSongie.ReplicaWorker
set_option autoImplicit false

/-!
The window's side of a replica worker: the projection it shows, the methods that wait for one, and
how it fails and closes.
-/

namespace WalkieSongie.Replica

variable {L : ReplicaLibrary}

inductive BrowserReplicaLifecycle where
  | opening
  | ready (generation : Nat)
  | closing
  | closed
  | failed (message : String)
  deriving DecidableEq

inductive BrowserProjectionKind where
  | snapshot
  | revision
  | reset
  deriving DecidableEq

structure BrowserProjectionState (L : ReplicaLibrary) where
  revision : Nat
  kind : BrowserProjectionKind
  value : RoomWorkerProjection L
  deriving DecidableEq

/-- The window's state, with what its callbacks and its waiting methods were given, oldest first.
The subscription's own cursor is the worker library's. -/
structure WindowWorkerState (L : ReplicaLibrary) where
  subscribed : Bool := false
  projection : Option (BrowserProjectionState L) := none
  lifecycle : BrowserReplicaLifecycle := .opening
  /-- The revisions waited for, and who waits. -/
  projectionWaiters : List (Nat × Nat) := []
  nextRepairSession : Nat := 1
  shown : List (RoomWorkerProjection L) := []
  outbound : List (List UInt8) := []
  diagnostics : List String := []
  failures : List String := []
  answers : List (Nat × Except String (RoomWorkerProjection L)) := []

/-- An event that no request is answered by. A projection comes with the revision that the
subscription accepts it at, and with what its payload decodes to. -/
inductive WindowEvent (L : ReplicaLibrary) where
  | projection (kind : BrowserProjectionKind) (accepted : Except String Nat)
      (payload : Except String (RoomWorkerProjection L))
  | outboundRecord (record : List UInt8)
  | repairFrame
  | error (text : String)
  | backpressure (text : String)
  | closed (text : String)
  /-- Ready, Response or Pong. -/
  | uncorrelated (kind : String)
  | unknown (kind : String)

namespace WindowWorkerState

variable (state : WindowWorkerState L)

def diagnose (message : String) : WindowWorkerState L :=
  { state with diagnostics := state.diagnostics ++ [message] }

/-- The first failure is told, and ends the waiting; a closing window fails no more. -/
def fail (message : String) : WindowWorkerState L :=
  match state.lifecycle with
  | .failed _ | .closing | .closed => state
  | .opening | .ready _ => { state.diagnose message with
      lifecycle := .failed message
      failures := state.failures ++ [message]
      projectionWaiters := []
      answers := state.answers ++ state.projectionWaiters.map fun waiter =>
        (waiter.2,.error message) }

/-- The projection is the latest one, and answers who has waited for its revision. -/
def acceptProjection (projection : BrowserProjectionState L) : WindowWorkerState L :=
  let due := state.projectionWaiters.filter (·.1 ≤ projection.revision)
  { state with
    projection := some projection
    projectionWaiters := state.projectionWaiters.filter (projection.revision < ·.1)
    answers := state.answers ++ due.map fun waiter => (waiter.2,.ok projection.value)
    shown := state.shown ++ [projection.value] }

def receive : WindowEvent L → WindowWorkerState L
  | .projection kind accepted payload =>
    if state.subscribed = false then
      state.diagnose "Replica worker emitted a projection before subscription"
    else match accepted with
      | .error error => state.fail s!"Replica worker projection continuity failed: {error}"
      | .ok revision =>
        match payload with
        | .ok projection => state.acceptProjection ⟨revision,kind,projection⟩
        | .error error => state.fail error
  | .outboundRecord record => { state with outbound := state.outbound ++ [record] }
  | .repairFrame =>
    state.diagnose "Replica worker repair frame bypassed the bounded carrier lane"
  | .error text => state.fail s!"Replica worker emitted Error: {text}"
  | .backpressure text => state.diagnose s!"Replica worker emitted Backpressure: {text}"
  | .closed text => state.fail s!"Replica worker emitted Closed: {text}"
  | .uncorrelated kind =>
    state.diagnose s!"Replica worker emitted unexpected uncorrelated {kind}"
  | .unknown kind =>
    state.fail s!"Replica worker emitted an unsupported event kind: {kind}"

/-- The answer to Subscribe. An error is the opening's, the window itself does not fail by it. -/
def acceptInitialSnapshot (accepted : Except String Nat)
    (payload : Except String (RoomWorkerProjection L)) : Except String (WindowWorkerState L) := do
  if state.subscribed = false then throw "Replica worker projection subscription is absent"
  let revision ← accepted
  let projection ← payload
  return state.acceptProjection ⟨revision,.snapshot,projection⟩

def subscribe : WindowWorkerState L := { state with subscribed := true }

def becomeReady (generation : Nat) : WindowWorkerState L :=
  { state with lifecycle := .ready generation }

/-- A pulled event is received; the pull tells how the window then stands. -/
def pullProjection (event : WindowEvent L) : Except String Bool × WindowWorkerState L :=
  let after := state.receive event
  (match after.lifecycle with
    | .failed message => .error message
    | .closing | .closed => .ok false
    | .opening | .ready _ => .ok true,after)

/-- A request that the worker library fails; some of its errors are fatal. -/
def requestFailed (error : String) (fatal : Bool) : WindowWorkerState L :=
  if fatal then state.fail error else state

def beginClose : WindowWorkerState L := { state with lifecycle := .closing }

def endClose : Option String → WindowWorkerState L
  | none => { state with lifecycle := .closed }
  | some error => state.fail error

def terminate : WindowWorkerState L := { state with lifecycle := .closed }

def addWaiter (revision waiter : Nat) : WindowWorkerState L :=
  { state with projectionWaiters := state.projectionWaiters ++ [(revision,waiter)] }

/-- The projection that is there, where its revision is reached; else the wait for it. -/
def waitForProjection (revision waiter : Nat) :
    Option (RoomWorkerProjection L) × WindowWorkerState L :=
  match state.projection with
  | some current =>
    if revision ≤ current.revision then (some current.value,state)
    else (none,state.addWaiter revision waiter)
  | none => (none,state.addWaiter revision waiter)

end WindowWorkerState

/-- The revision that a method of the handle waits for when it has its response. -/
def awaited : WorkerRequest L → RoomWorkerResponse L → Except String (Option Nat)
  | .commit _, .commandCommitted _ revision => .ok (some revision)
  | .commit _, _ => .error "Replica worker returned the wrong commit response"
  | .grantPeer _, .peerGranted _ revision => .ok (some revision)
  | .grantPeer _, _ => .error "Replica worker returned the wrong grant response"
  | .inboundRecord _ _, .inboundApplied _ _ revision => .ok (some revision)
  | .inboundRecord _ _, _ => .error "Replica worker returned the wrong inbound-record response"
  | .startSessionPeer _, .sessionPeerStarted => .ok none
  | .startSessionPeer _, _ => .error "unexpected session-peer response"
  | .drainSession _, .sessionDrained _ _ => .ok none
  | .drainSession _, _ => .error "unexpected session-drain response"
  | .repairFrame _, .repair _ => .ok none
  | .repairFrame _, _ => .error "Replica worker RepairFrame returned an unexpected response"
  | .subscribe _, _ => .ok none
  | .unsubscribe _, _ => .ok none

inductive CallPhase (L : ReplicaLibrary) where
  | sent
  | handled (result : Except String (RoomWorkerResponse L))
  | waiting (response : RoomWorkerResponse L)
  /-- The method has returned, where it waited with the projection it has waited for. -/
  | returned (result : Except String (RoomWorkerResponse L × Option (RoomWorkerProjection L)))

structure Call (L : ReplicaLibrary) where
  request : WorkerRequest L
  phase : CallPhase L := .sent

/-- A worker and its window. Of the worker all rooms are kept that it has had after a request, and
all projections that it has had with their revisions. -/
structure Placement (L : ReplicaLibrary) where
  service : RoomReplicaWorkerService L
  window : WindowWorkerState L := {}
  calls : List (Call L) := []
  rooms : List (RoomDataPlane L)
  published : List (Nat × RoomWorkerProjection L)

inductive PlacementInput (L : ReplicaLibrary) where
  | call (request : WorkerRequest L)
  /-- The worker takes the call's request, with what goes wrong around it. -/
  | handle (call : Nat) (faults : Faults)
  /-- The response arrives, or the worker library fails the request; the subscription accepts a
  snapshot or does not. -/
  | respond (call : Nat) (failure : Option (String × Bool)) (accepted : Except String Unit)
  | resume (call : Nat)
  /-- A projection that the worker has emitted is pulled, and accepted by the subscription or
  not. -/
  | pull (event : Nat) (kind : BrowserProjectionKind) (accepted : Except String Unit)
  /-- Any event, where a projection comes with no payload that can be decoded. -/
  | receive (event : WindowEvent L)
  | subscribe
  | becomeReady (generation : Nat)
  | beginClose
  | endClose (error : Option String)
  | terminate
  | failAndTerminate (message : String)

namespace Placement

variable (placement : Placement L)

def opened (room : RoomDataPlane L) (session : Bool) : Placement L where
  service := { room := some room, projection := some room.projection, session := session }
  rooms := [room]
  published := [(0,room.projection)]

def setCall (index : Nat) (call : Call L) (phase : CallPhase L) : Placement L :=
  { placement with calls := placement.calls.set index { call with phase := phase } }

/-- The service after a request, with its room and its projection for the record. -/
def served (service : RoomReplicaWorkerService L) : Placement L :=
  { placement with
    service := service
    rooms := service.room.toList ++ placement.rooms
    published := service.projection.toList.map (service.revision,·) ++ placement.published }

def handle (index : Nat) (call : Call L) (faults : Faults) : Placement L :=
  match RoomReplicaWorkerService.handle faults call.request placement.service with
  | .ok response service => (placement.served service).setCall index call (.handled (.ok response))
  | .error error service => (placement.served service).setCall index call (.handled (.error error))

def goOn (index : Nat) (call : Call L) (response : RoomWorkerResponse L) : Placement L :=
  match awaited call.request response with
  | .error error => placement.setCall index call (.returned (.error error))
  | .ok none => placement.setCall index call (.returned (.ok (response,none)))
  | .ok (some revision) =>
    let (reached,window) := placement.window.waitForProjection revision index
    match reached with
    | some projection =>
      { placement with window := window }.setCall index call
        (.returned (.ok (response,some projection)))
    | none => { placement with window := window }.setCall index call (.waiting response)

def refuse (index : Nat) (call : Call L) (error : String) (fatal : Bool) : Placement L :=
  { placement with window := placement.window.requestFailed error fatal }.setCall index call
    (.returned (.error error))

def respond (index : Nat) (call : Call L) (result : Except String (RoomWorkerResponse L))
    (failure : Option (String × Bool)) (accepted : Except String Unit) : Placement L :=
  match failure,result with
  | some (error,fatal),_ => placement.refuse index call error fatal
  -- An error of the worker itself comes as one of the library's.
  | none,.error _ => placement
  | none,.ok (.subscribed projection revision) =>
    match placement.window.acceptInitialSnapshot (accepted.map fun _ => revision)
      (.ok projection) with
    | .ok window => { placement with window := window }.setCall index call
        (.returned (.ok (.subscribed projection revision,none)))
    | .error error => placement.setCall index call (.returned (.error error))
  | none,.ok response => placement.goOn index call response

/-- The answer to a wait is the last thing its call does. -/
def resume (index : Nat) (call : Call L) (response : RoomWorkerResponse L) : Placement L :=
  match placement.window.answers.find? (·.1 = index) with
  | none => placement
  | some (_,.ok projection) =>
    placement.setCall index call (.returned (.ok (response,some projection)))
  | some (_,.error error) => placement.setCall index call (.returned (.error error))

def stepCall (index : Nat) (call : Call L) : PlacementInput L → Placement L
  | .handle _ faults =>
    match call.phase with
    | .sent => placement.handle index call faults
    | _ => placement
  | .respond _ failure accepted =>
    match call.phase,failure with
    | .handled result,_ => placement.respond index call result failure accepted
    -- Where the worker takes the request later, it is as another one whose response never comes.
    | .sent,some (error,fatal) => placement.refuse index call error fatal
    | _,_ => placement
  | .resume _ =>
    match call.phase with
    | .waiting response => placement.resume index call response
    | _ => placement
  | _ => placement

def ofCall (index : Nat) (input : PlacementInput L) : Placement L :=
  match placement.calls[index]? with
  | none => placement
  | some call => placement.stepCall index call input

def setWindow (window : WindowWorkerState L) : Placement L := { placement with window := window }

def step : PlacementInput L → Placement L
  | .call request => { placement with calls := placement.calls ++ [{ request := request }] }
  | .handle call faults => placement.ofCall call (.handle call faults)
  | .respond call failure accepted => placement.ofCall call (.respond call failure accepted)
  | .resume call => placement.ofCall call (.resume call)
  | .pull event kind accepted =>
    match placement.service.events[event]? with
    | some (.revision _ _ revision projection) =>
      placement.setWindow (placement.window.pullProjection
        (.projection kind (accepted.map fun _ => revision) (.ok projection))).2
    | _ => placement
  | .receive (.projection kind accepted _) =>
    placement.setWindow (placement.window.receive
      (.projection kind accepted (.error "Room worker projection cannot be decoded")))
  | .receive event => placement.setWindow (placement.window.receive event)
  | .subscribe => placement.setWindow placement.window.subscribe
  | .becomeReady generation => placement.setWindow (placement.window.becomeReady generation)
  | .beginClose => placement.setWindow placement.window.beginClose
  | .endClose error => placement.setWindow (placement.window.endClose error)
  | .terminate => placement.setWindow placement.window.terminate
  | .failAndTerminate message => placement.setWindow (placement.window.fail message)

def run (inputs : List (PlacementInput L)) : Placement L := inputs.foldl step placement

end Placement

end WalkieSongie.Replica
