import Mathlib.Data.Finset.Sort
import WalkieSongie.KeyedMap
import WalkieSongie.RoomValues
import WalkieSongie.TaskProgram
set_option autoImplicit false

/-!
The replica worker of a room: it admits entries to the two durable lanes, and tells the session
task, the other peers and its subscribers what it admitted. Every step that calls out may fail.
-/

namespace WalkieSongie.Replica
open TaskProgram

inductive RoomLane where
  | music
  | extension
  deriving DecidableEq

/-- A peer asks whether a lane's frontier is the one that it digested. -/
structure RepairProbe (Peer Digest : Type) where
  lane : RoomLane
  source : Peer
  frontier : Digest

/-- What the worker takes from the replica crates and from the room's domain code. -/
structure ReplicaLibrary where
  Entry : Type
  entryEq : DecidableEq Entry
  hash : Entry → EntryHash
  /-- The payload has the domain of reified session commands. -/
  hasSessionDomain : Entry → Bool
  RoomCommand : Type
  lane : RoomCommand → RoomLane
  /-- The entry for a command: its author, the capabilities presented and the history below it. -/
  authored : ActorId → List EntryHash → List Entry → RoomCommand → Entry
  ReificationPlan : Type
  MusicOp : Type
  reified : ActorId → List EntryHash → List Entry → ReificationPlan → MusicOp → Entry
  memberGrant : RoomLane → List Entry → ActorId → Entry
  capabilitiesForLane : ActorId → RoomLane → List Entry → List EntryHash
  View : Type
  viewEq : DecidableEq View
  view : List Entry → List Entry → View
  sharedPitches : View → SharedPitchSet
  historyRoot : List Entry → Digest
  frontierDigest : List Entry → Digest
  RepairAttempt : Type
  RepairDisposition : Type

attribute [instance] ReplicaLibrary.entryEq ReplicaLibrary.viewEq

variable {L : ReplicaLibrary} {α : Type}

/-- A lane's admitted entries, newest first. -/
structure DurableLane (L : ReplicaLibrary) where
  history : List L.Entry := []
  historyEpoch : Nat := 0

/-- Only the history's growth advances the epoch. -/
def DurableLane.admitAll (entries : List L.Entry) (lane : DurableLane L) : DurableLane L where
  history := entries ++ lane.history
  historyEpoch := lane.historyEpoch+entries.length

structure RepairState (L : ReplicaLibrary) where
  lane : RoomLane
  attempt : L.RepairAttempt

structure RoomWorkerProjection (L : ReplicaLibrary) where
  view : L.View
  musicRevision : Nat
  musicHistoryRoot : Digest
  musicFrontier : Digest
  extensionFrontier : Digest
  deriving DecidableEq

/-- A music history with what a session reads off it. -/
structure DurableHorizon (L : ReplicaLibrary) where
  history : List L.Entry
  durableView : SharedPitchSet
  durableRevision : Nat

structure RoomSessionFoundation (L : ReplicaLibrary) where
  peer : ActorId
  durableRevision : Nat
  history : List L.Entry
  musicRoot : EntryHash
  localGrants : List EntryHash
  peerGrants : List EntryHash
  durableView : SharedPitchSet

structure RoomDataPlane (L : ReplicaLibrary) where
  owner : ActorId
  localActor : ActorId
  /-- The actor of the authority key, where the worker holds one. -/
  grantAuthority : Option ActorId
  musicRoot : Option EntryHash
  music : DurableLane L := {}
  extension : DurableLane L := {}
  repair : KeyedMap Nat (RepairState L) := .empty

namespace RoomDataPlane

def laneOf (room : RoomDataPlane L) : RoomLane → DurableLane L
  | .music => room.music
  | .extension => room.extension

def admitAll (lane : RoomLane) (entries : List L.Entry) (room : RoomDataPlane L) :
    RoomDataPlane L :=
  match lane with
  | .music => { room with music := room.music.admitAll entries }
  | .extension => { room with extension := room.extension.admitAll entries }

def capabilitiesForLane (room : RoomDataPlane L) (actor : ActorId) (lane : RoomLane) :
    List EntryHash :=
  L.capabilitiesForLane actor lane (room.laneOf lane).history

def view (room : RoomDataPlane L) : L.View := L.view room.music.history room.extension.history

def projection (room : RoomDataPlane L) : RoomWorkerProjection L where
  view := room.view
  musicRevision := room.music.historyEpoch
  musicHistoryRoot := L.historyRoot room.music.history
  musicFrontier := L.frontierDigest room.music.history
  extensionFrontier := L.frontierDigest room.extension.history

def horizon (room : RoomDataPlane L) : DurableHorizon L where
  history := room.music.history
  durableView := L.sharedPitches room.view
  durableRevision := room.music.historyEpoch

def sessionFoundation (room : RoomDataPlane L) (peer : ActorId) :
    Except String (RoomSessionFoundation L) := do
  let localGrants := room.capabilitiesForLane room.localActor .music
  let peerGrants := room.capabilitiesForLane peer .music
  refuseIf (localGrants = [] ∨ peerGrants = [])
    "session peer does not yet have a complete admitted music foundation"
  match room.musicRoot with
  | none => throw "music capability root is absent"
  | some root => return {
      peer := peer
      durableRevision := room.music.historyEpoch
      history := room.music.history
      musicRoot := root
      localGrants := localGrants
      peerGrants := peerGrants
      durableView := L.sharedPitches room.view }

end RoomDataPlane

/-- A local session edit on its way into the durable history. -/
structure RoomSessionReification (L : ReplicaLibrary) where
  peer : ActorId
  session : Nat
  plan : L.ReificationPlan
  command : L.MusicOp
  intentToken : Option Nat

inductive RoomSessionTaskInput (L : ReplicaLibrary) where
  | startPeer (foundation : RoomSessionFoundation L)
  | localCommitted (reification : RoomSessionReification L) (entry : L.Entry)
      (horizon : DurableHorizon L)
  | observed (entry : L.Entry) (horizon : DurableHorizon L)
  | durableAdvanced (horizon : DurableHorizon L)
  | repairResynchronized (horizon : DurableHorizon L)
  | refreshFoundations (foundations : List (RoomSessionFoundation L))

def RoomSessionTaskInput.horizon : RoomSessionTaskInput L → Option (DurableHorizon L)
  | .localCommitted _ _ horizon => some horizon
  | .observed _ horizon => some horizon
  | .durableAdvanced horizon => some horizon
  | .repairResynchronized horizon => some horizon
  | _ => none

inductive WorkerEvent (L : ReplicaLibrary) where
  | outboundRecord (lane : RoomLane) (source : ActorId) (entry : L.Entry)
  | revision (subscription previous revision : Nat) (projection : RoomWorkerProjection L)
  deriving DecidableEq

/-- The service, with what it has sent to the session task and emitted, newest first, and the
entries that it has committed itself: commands, grants and reifications. -/
structure RoomReplicaWorkerService (L : ReplicaLibrary) where
  room : Option (RoomDataPlane L) := none
  projection : Option (RoomWorkerProjection L) := none
  revision : Nat := 0
  subscriptions : Finset Nat := ∅
  /-- A session runtime is configured. -/
  session : Bool
  sessionPeers : Finset ActorId := ∅
  taskInputs : List (RoomSessionTaskInput L) := []
  events : List (WorkerEvent L) := []
  committed : List (RoomLane × L.Entry) := []

/-- What goes wrong around one request: the error of each step that can fail, or none. -/
structure Faults where
  /-- The lane's snapshot, read for its live capabilities. -/
  capabilities : RoomLane → Option String := fun _ => none
  /-- Preparing and committing an entry; an entry that is refused here is not admitted. -/
  commit : RoomLane → Option String := fun _ => none
  /-- The commit of a reification reports another entry than the one prepared. -/
  unexpectedIdentity : Bool := false
  outbound : RoomLane → Option String := fun _ => none
  /-- Reading the grown history and its view. -/
  horizon : Option String := none
  durableAdmission : Option String := none
  revisionBefore : Option String := none
  revisionAfter : Option String := none
  /-- The session task has closed its inputs, or does so before the foundations are refreshed. -/
  taskClosed : Bool := false
  refreshClosed : Bool := false
  foundation : ActorId → Option String := fun _ => none
  projection : Option String := none
  subscriber : Nat → Option String := fun _ => none

/-- What the repair host makes of a record or a frame: what it admits, also where it then fails. -/
structure ApplyReport (L : ReplicaLibrary) where
  admitted : List L.Entry := []
  refused : Bool := false
  error : Option String := none

structure ReplicaLiveRecord (L : ReplicaLibrary) where
  lane : RoomLane
  source : ActorId
  entry : L.Entry

structure RoomWorkerRepairStep (L : ReplicaLibrary) where
  session : Nat
  attempt : L.RepairAttempt
  disposition : Option L.RepairDisposition

inductive RoomWorkerRepairRequest (L : ReplicaLibrary) where
  | start (session : Nat) (lane : RoomLane) (opened : Except String L.RepairAttempt)
  | frame (session : Nat) (attempt : L.RepairAttempt) (report : ApplyReport L)
  | finish (session : Nat) (closed : Except String (L.RepairAttempt × L.RepairDisposition))

inductive WorkerRequest (L : ReplicaLibrary) where
  | subscribe (subscription : Nat)
  | unsubscribe (subscription : Nat)
  | commit (command : L.RoomCommand)
  | grantPeer (peer : ActorId)
  | startSessionPeer (peer : ActorId)
  /-- The reification that waits first, if any does. -/
  | drainSession (reification : Option (RoomSessionReification L))
  | inboundRecord (live : ReplicaLiveRecord L) (report : ApplyReport L)
  | repairFrame (operation : RoomWorkerRepairRequest L)

inductive RoomWorkerResponse (L : ReplicaLibrary) where
  | subscribed (projection : RoomWorkerProjection L) (revision : Nat)
  | unsubscribed
  | commandCommitted (entry : EntryHash) (projectionRevision : Nat)
  | peerGranted (entries : List (RoomLane × EntryHash)) (projectionRevision : Nat)
  | sessionPeerStarted
  | sessionDrained (committed : Bool) (projectionRevision : Nat)
  | inboundApplied (accepted : Bool) (entry : EntryHash) (projectionRevision : Nat)
  | repair (step : RoomWorkerRepairStep L)

abbrev ServiceM (L : ReplicaLibrary) := EStateM String (RoomReplicaWorkerService L)

namespace RoomReplicaWorkerService

def openRoom : ServiceM L (RoomDataPlane L) := do
  match (← get).room with
  | none => throw "Room worker is not open"
  | some room => return room

def admitAll (lane : RoomLane) (entries : List L.Entry) (service : RoomReplicaWorkerService L) :
    RoomReplicaWorkerService L :=
  { service with room := service.room.map (·.admitAll lane entries) }

def commitOwn (lane : RoomLane) (entry : L.Entry) (service : RoomReplicaWorkerService L) :
    RoomReplicaWorkerService L :=
  { service.admitAll lane [entry] with committed := (lane,entry) :: service.committed }

def setRepair (repair : KeyedMap Nat (RepairState L)) (service : RoomReplicaWorkerService L) :
    RoomReplicaWorkerService L :=
  { service with room := service.room.map fun room => { room with repair := repair } }

def sendTask (closed : Bool) (message : String) (input : RoomSessionTaskInput L) :
    ServiceM L Unit := do
  refuseIf (closed = true) message
  modify fun service => { service with taskInputs := input :: service.taskInputs }

variable (faults : Faults)

def commit (command : L.RoomCommand) : ServiceM L L.Entry := do
  let room ← openRoom
  let lane := L.lane command
  raise (faults.capabilities lane)
  let capabilities := room.capabilitiesForLane room.localActor lane
  refuseIf (capabilities = []) "local actor has no live capability for this Room-v5 lane"
  raise (faults.commit lane)
  let entry := L.authored room.localActor capabilities (room.laneOf lane).history command
  modify (commitOwn lane entry)
  return entry

def commitSession (plan : L.ReificationPlan) (command : L.MusicOp) : ServiceM L L.Entry := do
  let room ← openRoom
  raise (faults.capabilities .music)
  let capabilities := room.capabilitiesForLane room.localActor .music
  refuseIf (capabilities = []) "local actor has no live capability for the music session"
  raise (faults.commit .music)
  let entry := L.reified room.localActor capabilities room.music.history plan command
  modify (commitOwn .music entry)
  refuseIf (faults.unexpectedIdentity = true)
    "session reification committed an unexpected entry identity"
  return entry

/-- A lane where the peer has a live capability is passed over. -/
def grantLane (peer : ActorId) (lane : RoomLane) : ServiceM L (List (RoomLane × L.Entry)) := do
  let room ← openRoom
  raise (faults.capabilities lane)
  if room.capabilitiesForLane peer lane ≠ [] then return []
  else
    raise (faults.commit lane)
    let entry := L.memberGrant lane (room.laneOf lane).history peer
    modify (commitOwn lane entry)
    return [(lane,entry)]

def grantPeer (peer : ActorId) : ServiceM L (List (RoomLane × L.Entry)) := do
  let room ← openRoom
  if peer = room.localActor then return []
  else
    refuseIf (room.owner ≠ room.localActor ∧ room.grantAuthority ≠ some room.owner)
      "local worker does not hold this room's grant authority"
    let music ← grantLane faults peer .music
    -- Where this fails, the music grant is forgotten here, but not in the lane.
    let extension ← grantLane faults peer .extension
    return music ++ extension

def emitOutbound (record : RoomLane × L.Entry) : ServiceM L Unit := do
  let room ← openRoom
  raise (faults.outbound record.1)
  modify fun service => { service with
    events := .outboundRecord record.1 room.localActor record.2 :: service.events }

def durableHorizon : ServiceM L (DurableHorizon L) := do
  let room ← openRoom
  raise faults.horizon
  return room.horizon

def currentSessionFoundations (service : RoomReplicaWorkerService L) :
    List (RoomSessionFoundation L) :=
  match service.room with
  | none => []
  | some room => (service.sessionPeers.sort (· ≤ ·)).filterMap fun peer =>
      if (faults.foundation peer).isSome then none else (room.sessionFoundation peer).toOption

def refreshSessionFoundations : ServiceM L Unit := do
  let service ← get
  if service.session = false then return ()
  else
    sendTask faults.refreshClosed "Room worker session task closed during foundation refresh"
      (.refreshFoundations (service.currentSessionFoundations faults))

def publishProjection : ServiceM L Nat := do
  let room ← openRoom
  raise faults.projection
  let next := room.projection
  let service ← get
  if service.projection = some next then return service.revision
  else
    let revision := min (service.revision+1) (2^64-1)
    modify fun service => { service with revision := revision, projection := some next }
    (service.subscriptions.sort (· ≤ ·)).forM fun subscription => do
      raise (faults.subscriber subscription)
      modify fun service => { service with
        events := .revision subscription (revision-1) revision next :: service.events }
    return revision

/-- A durable advance of the music lane, told to the session task where there is one. -/
def tellAdvance (message : String) (input : DurableHorizon L → RoomSessionTaskInput L) :
    ServiceM L Unit := do
  if (← get).session = false then return ()
  else
    let horizon ← durableHorizon faults
    sendTask faults.taskClosed message (input horizon)

/-- Where the music lane has grown, the session task is told, and then gets new foundations. -/
def tellSession (grown : Bool) (message : String)
    (input : DurableHorizon L → RoomSessionTaskInput L) : ServiceM L Unit :=
  if grown = true then do
    tellAdvance faults message input
    refreshSessionFoundations faults
  else return ()

def handleCommit (command : L.RoomCommand) : ServiceM L (RoomWorkerResponse L) := do
  let entry ← commit faults command
  emitOutbound faults (L.lane command,entry)
  tellSession faults (L.lane command = .music)
    "Room worker session task closed after music commit" .durableAdvanced
  let projectionRevision ← publishProjection faults
  return .commandCommitted (L.hash entry) projectionRevision

def handleGrantPeer (peer : ActorId) : ServiceM L (RoomWorkerResponse L) := do
  let grants ← grantPeer faults peer
  grants.forM (emitOutbound faults)
  tellSession faults (grants.any fun record => record.1 = .music)
    "Room worker session task closed after music grant" .durableAdvanced
  let projectionRevision ← publishProjection faults
  return .peerGranted (grants.map fun record => (record.1,L.hash record.2)) projectionRevision

def handleStartSessionPeer (peer : ActorId) : ServiceM L (RoomWorkerResponse L) := do
  let room ← openRoom
  raise (faults.foundation peer)
  match room.sessionFoundation peer with
  | .error error => throw error
  | .ok foundation =>
      refuseIf ((← get).session = false) "Room worker session runtime is not configured"
      sendTask faults.taskClosed "Room worker session task closed" (.startPeer foundation)
      modify fun service => { service with sessionPeers := insert peer service.sessionPeers }
      return .sessionPeerStarted

def handleDrainSession (reification : Option (RoomSessionReification L)) :
    ServiceM L (RoomWorkerResponse L) := do
  refuseIf ((← get).session = false) "Room worker session runtime is not configured"
  match reification with
  | none => return .sessionDrained false (← get).revision
  | some reification =>
      let entry ← commitSession faults reification.plan reification.command
      emitOutbound faults (.music,entry)
      tellSession faults true "Room worker session task closed after commit"
        (.localCommitted reification entry)
      let projectionRevision ← publishProjection faults
      return .sessionDrained true projectionRevision

def ApplyReport.accepted (report : ApplyReport L) (entry : L.Entry) : Bool :=
  report.refused = false ∧ entry ∈ report.admitted

def applyLive (live : ReplicaLiveRecord L) (report : ApplyReport L) : ServiceM L Bool := do
  let _ ← openRoom (L := L)
  modify (admitAll live.lane report.admitted)
  raise report.error
  return ApplyReport.accepted report live.entry

/-- An inbound record of a session edit is observed; another one advances the history. -/
def tellInbound (live : ReplicaLiveRecord L) (accepted : Bool) : ServiceM L Unit := do
  if accepted = true ∧ live.lane = .music ∧ (← get).session = true then
    raise faults.durableAdmission
    tellSession faults true "Room worker session task closed after inbound admission"
      (if L.hasSessionDomain live.entry then .observed live.entry else .durableAdvanced)
  else return ()

def handleInboundRecord (live : ReplicaLiveRecord L) (report : ApplyReport L) :
    ServiceM L (RoomWorkerResponse L) := do
  let accepted ← applyLive live report
  tellInbound faults live accepted
  let projectionRevision ← publishProjection faults
  return .inboundApplied accepted (L.hash live.entry) projectionRevision

def maxActiveRepairSessions : Nat := 8

def startRepair (session : Nat) (lane : RoomLane) (opened : Except String L.RepairAttempt) :
    ServiceM L (RoomWorkerRepairStep L) := do
  let room ← openRoom
  refuseIf ((room.repair.get? session).isSome) s!"repair session {session} already exists"
  refuseIf (maxActiveRepairSessions ≤ room.repair.entries.length)
    s!"Room worker already has {room.repair.entries.length} active repair sessions"
  match opened with
  | .error error => throw error
  | .ok attempt =>
      modify (setRepair (room.repair.insert session ⟨lane,attempt⟩))
      return ⟨session,attempt,none⟩

/-- The attempt goes back to the table before its error is looked at. -/
def advanceRepair (session : Nat) (advanced : L.RepairAttempt) (report : ApplyReport L) :
    ServiceM L (RoomWorkerRepairStep L) := do
  let room ← openRoom
  match room.repair.get? session with
  | none => throw s!"repair session {session} is not active"
  | some state =>
      modify fun service => (service.admitAll state.lane report.admitted).setRepair
        (room.repair.insert session ⟨state.lane,advanced⟩)
      raise report.error
      return ⟨session,advanced,none⟩

def finishRepair (session : Nat) (closed : Except String (L.RepairAttempt × L.RepairDisposition)) :
    ServiceM L (RoomWorkerRepairStep L) := do
  let room ← openRoom
  match room.repair.get? session with
  | none => throw s!"repair session {session} is not active"
  | some _ =>
      modify (setRepair (room.repair.retain fun key _ => key ≠ session))
      match closed with
      | .error error => throw error
      | .ok (attempt,disposition) => return ⟨session,attempt,some disposition⟩

def repairStep : RoomWorkerRepairRequest L → ServiceM L (RoomWorkerRepairStep L)
  | .start session lane opened => startRepair session lane opened
  | .frame session attempt report => advanceRepair session attempt report
  | .finish session closed => finishRepair session closed

/-- The music revision before a frame of a music repair. -/
def repairedMusic (room : RoomDataPlane L) : RoomWorkerRepairRequest L → Bool
  | .frame session _ _ => (room.repair.get? session).any fun state => state.lane = .music
  | _ => false

def repairRevisionAdvanced (before : Option Nat) (after : Nat) : Bool := before.any (· < after)

def handleRepairFrame (operation : RoomWorkerRepairRequest L) :
    ServiceM L (RoomWorkerResponse L) := do
  let room ← openRoom
  let music := repairedMusic room operation
  raise (if music then faults.revisionBefore else none)
  let before := if music then some room.music.historyEpoch else none
  let step ← repairStep operation
  raise faults.revisionAfter
  let after := (← openRoom (L := L)).music.historyEpoch
  tellSession faults (repairRevisionAdvanced before after)
    "Room worker session task closed after music repair" .repairResynchronized
  let _ ← publishProjection (L := L) faults
  return .repair step

def handle : WorkerRequest L → ServiceM L (RoomWorkerResponse L)
  | .subscribe subscription => do
      modify fun service => { service with
        subscriptions := insert subscription service.subscriptions }
      let service ← get
      match service.projection with
      | none => throw "Room worker has no projection"
      | some projection => return .subscribed projection service.revision
  | .unsubscribe subscription => do
      modify fun service => { service with
        subscriptions := service.subscriptions.erase subscription }
      return .unsubscribed
  | .commit command => handleCommit faults command
  | .grantPeer peer => handleGrantPeer faults peer
  | .startSessionPeer peer => handleStartSessionPeer faults peer
  | .drainSession reification => handleDrainSession faults reification
  | .inboundRecord live report => handleInboundRecord faults live report
  | .repairFrame operation => handleRepairFrame faults operation

end RoomReplicaWorkerService

end WalkieSongie.Replica
