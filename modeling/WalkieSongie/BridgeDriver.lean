import WalkieSongie.HostInput
import WalkieSongie.BoardConvergence
import WalkieSongie.RoomShadow
set_option autoImplicit false

/-!
The bridge and the room's driver as one system: commands one way and events the other, in order
and none dropped.
-/

namespace WalkieSongie.Bridge

variable {M : MusicLibrary}

def openTransport : Transport M := fun _ _ => none

def TransportCall.driverCommand : TransportCall M → Option (DriverCommand M)
  | .command asked => asked.driverCommand
  | .realtime _ => none

def Worker.issued (worker : Worker M) : List (DriverCommand M) :=
  worker.calls.reverse.filterMap fun call => call.1.driverCommand

namespace DriverCommand

def pitchEdits : DriverCommand M → List (TunedPeriodicPitch × Bool)
  | .roundTable _ => []
  | .boardEdit _ _ _ pitchEdits => pitchEdits
  | .pitchEdit _ pitch active => [(pitch,active)]

def token : DriverCommand M → Option Nat
  | .roundTable _ => none
  | .boardEdit token _ _ _ => some token
  | .pitchEdit token _ _ => some token

end DriverCommand

def lastEdit (degree : TunedDegree) (pitchEdits : List (TunedPeriodicPitch × Bool)) : Option Bool :=
  (pitchEdits.filterMap fun edit =>
    if sharedDegree edit.1 = degree then some edit.2 else none).getLast?

/-- What reaches the bridge other than from the room: the host's queues, the board, and the end of
a pass. -/
inductive LocalInput (M : MusicLibrary) where
  | released (mode : MidiInputMode) (event : RealtimeMidi)
  | realtime (mode : MidiInputMode) (event : RealtimeMidi)
  | boardRoundTable (now : Nat) (frame : RoundTableFrame M)
  | boardLink (now : Nat) (link : LinkState)
  | passEnd (now : Nat)

def LocalInput.input : LocalInput M → BridgeInput M
  | .released mode event => .released mode event
  | .realtime mode event => .realtime mode event
  | .boardRoundTable now frame => .transport now (.boardRoundTable frame)
  | .boardLink now link => .transport now (.boardLink link)
  | .passEnd now => .passEnd now

structure Coupled (M : MusicLibrary) where
  worker : Worker M := {}
  commands : List (DriverCommand M) := []
  room : ActiveRoom M
  events : List (TransportEvent M) := []

inductive CoupledInput (M : MusicLibrary) where
  | bridge (input : LocalInput M)
  /-- The driver handles the first command, whose realtime broadcast may fail. -/
  | drive (broadcast : Option String)
  /-- The others' edits and pieces reach the replica. -/
  | replica (replica : RoomReplica M)
  /-- The driver publishes, as after an inbound event or a finished repair. -/
  | publish
  /-- The first event is delivered to the bridge. -/
  | deliver (now : Nat)

namespace Coupled

/-- The room just opened, with its first publications under way. -/
def opened (name : String) (replica : RoomReplica M) : Coupled M where
  room := (ActiveRoom.publishOpened name replica).1
  events := (ActiveRoom.publishOpened name replica).2

/-- The commands the worker issued go out. -/
def takeUp (coupled : Coupled M) (worker : Worker M) : Coupled M :=
  { coupled with
    worker := { worker with calls := [] }
    commands := coupled.commands ++ worker.issued }

def step (coupled : Coupled M) : CoupledInput M → Coupled M
  | .bridge input =>
      coupled.takeUp (coupled.worker.after (Worker.input openTransport input.input))
  | .drive broadcast =>
      match coupled.commands with
      | [] => coupled
      | command :: rest =>
          let (active,events) := handleCommand .admitted broadcast command (some coupled.room)
          { coupled with
            commands := rest
            room := active.getD coupled.room
            events := coupled.events ++ events }
  | .replica replica => { coupled with room := { coupled.room with replica := replica } }
  | .publish =>
      { coupled with
        room := coupled.room.publish.1
        events := coupled.events ++ coupled.room.publish.2 }
  | .deliver now =>
      match coupled.events with
      | [] => coupled
      | event :: rest => takeUp { coupled with events := rest }
          (coupled.worker.after (Worker.input openTransport (.transport now event)))

def run (coupled : Coupled M) (inputs : List (CoupledInput M)) : Coupled M :=
  inputs.foldl step coupled

/-- Every token has had its outcome delivered, and every room set is delivered. -/
def Delivered (coupled : Coupled M) : Prop :=
  (∀ command ∈ coupled.commands, command.token = none) ∧
    ∀ event ∈ coupled.events, event.pitchSet = none ∧
      ∀ token outcome, event ≠ .pitchIntentOutcome token outcome

end Coupled

end WalkieSongie.Bridge
