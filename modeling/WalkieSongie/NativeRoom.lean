import WalkieSongie.BoardFence
set_option autoImplicit false

/-!
The native room driver: the room's replica as it materializes, what a command admits to it, and
what the driver then sends towards the bridge.
-/

namespace WalkieSongie.Bridge

variable {M : MusicLibrary}

/-- What the room materializes to: the manual members, and the degrees of the emoji pieces. -/
structure RoomReplica (M : MusicLibrary) where
  live : Finset TunedDegree := ∅
  livePitches : Finset TunedPeriodicPitch := ∅
  pieces : KeyedMap Nat TunedDegree := .empty
  roundTable : RoundTableConfig M

def roundTableSettings (config : RoundTableConfig M) : RoundTableConfig M :=
  { config with pattern := M.cleared }

namespace RoomReplica

def pieceDegrees (replica : RoomReplica M) : Finset TunedDegree :=
  (replica.pieces.entries.map Prod.snd).toFinset

def soundingPitchSet (replica : RoomReplica M) : SharedPitchSet where
  pitchClasses := replica.live ∪ replica.pieceDegrees
  pitches := replica.livePitches

/-- The class is added or removed where its level differs, and every exact member of it is
removed, so that no other octave outlives the edit. -/
def admitPitchEdit (pitch : TunedPeriodicPitch) (active : Bool) (replica : RoomReplica M) :
    RoomReplica M :=
  { replica with
    live := if active then insert (sharedDegree pitch) replica.live
      else replica.live.erase (sharedDegree pitch)
    livePitches := replica.livePitches.filter fun candidate =>
      sharedDegree candidate ≠ sharedDegree pitch }

def admitPitchEdits (pitchEdits : List (TunedPeriodicPitch × Bool)) (replica : RoomReplica M) :
    RoomReplica M :=
  pitchEdits.foldl (fun replica edit => replica.admitPitchEdit edit.1 edit.2) replica

def admitRoundTableSettings (config : Option (RoundTableConfig M)) (replica : RoomReplica M) :
    RoomReplica M :=
  match config with
  | none => replica
  | some config => { replica with roundTable := roundTableSettings config }

/-- Settings that were not the room's yet are reported as committed. -/
def settingsReport (config : Option (RoundTableConfig M)) (replica : RoomReplica M) :
    List (TransportEvent M) :=
  match config with
  | none => []
  | some config => if replica.roundTable = roundTableSettings config then [] else [.other 0]

end RoomReplica

structure ActiveRoom (M : MusicLibrary) where
  name : String
  replica : RoomReplica M
  forwardedRoundTable : RoundTableConfig M
  forwardedPitchSet : SharedPitchSet

namespace ActiveRoom

def ofReplica (name : String) (replica : RoomReplica M) : ActiveRoom M where
  name := name
  replica := replica
  forwardedRoundTable := roundTableSettings replica.roundTable
  forwardedPitchSet := replica.soundingPitchSet

def publishRoundTableIfChanged (force : Bool) (room : ActiveRoom M) :
    ActiveRoom M × List (TransportEvent M) :=
  let config := roundTableSettings room.replica.roundTable
  if force = false ∧ config = room.forwardedRoundTable then (room,[])
  else ({ room with forwardedRoundTable := config },[.roundTable (.config config)])

def publishPitchSetIfChanged (force : Bool) (room : ActiveRoom M) :
    ActiveRoom M × List (TransportEvent M) :=
  let shared := room.replica.soundingPitchSet
  if force = false ∧ shared = room.forwardedPitchSet then (room,[])
  else ({ room with forwardedPitchSet := shared },[.roomPitchSet shared])

/-- Both projections, as after an inbound event or a finished repair. -/
def publish (room : ActiveRoom M) : ActiveRoom M × List (TransportEvent M) :=
  let (room,tables) := room.publishRoundTableIfChanged false
  let (room,sets) := room.publishPitchSetIfChanged false
  (room,tables ++ sets)

end ActiveRoom

/-- How the admissions of a command went: an error leaves the admitted prefix behind, and what was
reported of it. -/
inductive Admission (M : MusicLibrary) where
  | admitted
  | refused (error : String) (left : RoomReplica M) (reports : List Nat)

inductive DriverCommand (M : MusicLibrary) where
  | roundTable (frame : RoundTableFrame M)
  | boardEdit (token : Nat) (frame : RoundTableFrame M) (settings : Option (RoundTableConfig M))
      (pitchEdits : List (TunedPeriodicPitch × Bool))
  | pitchEdit (token : Nat) (pitch : TunedPeriodicPitch) (active : Bool)

/-- The bridge's own commands that belong to the room's leg. -/
def BridgeCommand.driverCommand : BridgeCommand M → Option (DriverCommand M)
  | .publishRoundTable frame => some (.roundTable frame)
  | .publishBoardEdit token frame settings pitchEdits =>
      some (.boardEdit token frame settings pitchEdits)
  | .setSharedPitch token pitch active => some (.pitchEdit token pitch active)
  | .sendBoardRoundTable _ => none

def pitchIntentOutcome : Option String → PitchIntentOutcome
  | none => .applied
  | some error => .rejected error

namespace ActiveRoom

def acceptRoundTable (admission : Admission M) (broadcast : Option String)
    (frame : RoundTableFrame M) (room : ActiveRoom M) :
    Option String × ActiveRoom M × List (TransportEvent M) :=
  match admission with
  | .refused error left reports =>
      (some error,{ room with replica := left },reports.map .other)
  | .admitted =>
      let reported := room.replica.settingsReport frame.boardConfig
      let (room,tables) := publishRoundTableIfChanged false { room with
        replica := room.replica.admitRoundTableSettings frame.boardConfig }
      (broadcast,room,reported ++ tables)

def acceptPitchEdit (admission : Admission M) (pitch : TunedPeriodicPitch) (active : Bool)
    (room : ActiveRoom M) : Option String × ActiveRoom M × List (TransportEvent M) :=
  match admission with
  | .refused error left reports =>
      (some error,{ room with replica := left },reports.map .other)
  | .admitted =>
      let (room,events) := publishPitchSetIfChanged false { room with
        replica := room.replica.admitPitchEdit pitch active }
      (none,room,events)

/-- An envelope of separate intents: settings first, then each pitch. -/
def acceptBoardEdit (admission : Admission M) (broadcast : Option String)
    (settings : Option (RoundTableConfig M)) (pitchEdits : List (TunedPeriodicPitch × Bool))
    (room : ActiveRoom M) : Option String × ActiveRoom M × List (TransportEvent M) :=
  match admission with
  | .refused error left reports =>
      (some error,{ room with replica := left },reports.map .other)
  | .admitted =>
      let reported := room.replica.settingsReport settings
      let (room,sets) := publishPitchSetIfChanged false { room with
        replica := (room.replica.admitRoundTableSettings settings).admitPitchEdits pitchEdits }
      let (room,tables) := room.publishRoundTableIfChanged false
      (broadcast,room,reported ++ sets ++ tables)

end ActiveRoom

/-- The driver's arm for a command; what was admitted before an error is published, too. -/
def handleCommand (admission : Admission M) (broadcast : Option String) :
    DriverCommand M → Option (ActiveRoom M) → Option (ActiveRoom M) × List (TransportEvent M)
  | .roundTable frame,active =>
      match active with
      | none => (none,[])
      | some room =>
          let (error,room,events) := room.acceptRoundTable admission broadcast frame
          (some room,if error.isSome then events ++ [.other 0] else events)
  | .boardEdit token _ settings pitchEdits,active =>
      match active with
      | none => (none,[.pitchIntentOutcome token
          (.rejected "no active room is available for the board edit")])
      | some room =>
          let (error,room,events) := room.acceptBoardEdit admission broadcast settings pitchEdits
          let (room,sets) := room.publishPitchSetIfChanged false
          let (room,tables) := room.publishRoundTableIfChanged false
          (some room,events ++ sets ++ tables ++
            [.pitchIntentOutcome token (pitchIntentOutcome error)])
  | .pitchEdit token pitch enabled,active =>
      match active with
      | none => (none,[.pitchIntentOutcome token
          (.rejected "no active room is available for the shared pitch edit")])
      | some room =>
          let (error,room,events) := room.acceptPitchEdit admission pitch enabled
          let (room,sets) := room.publishPitchSetIfChanged false
          (some room,events ++ sets ++ [.pitchIntentOutcome token (pitchIntentOutcome error)])

end WalkieSongie.Bridge
