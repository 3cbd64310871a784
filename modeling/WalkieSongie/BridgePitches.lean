import Mathlib.Data.Finset.Image
import Mathlib.Data.Finset.Range
import WalkieSongie.KeyedMap
import WalkieSongie.RoomValues
set_option autoImplicit false

/-!
The bridge worker's view of the shared pitch set: the last confirmed room, the intents that are
still open over it, the keys held at the host, and what the board has been shown.
-/

namespace WalkieSongie.Bridge

/-- What the bridge takes from the music crates: the twelve-tone tuning and the round-table
pattern, with the room's other round-table settings as one value. -/
structure MusicLibrary where
  twelveTet : Digest
  /-- The degree and the period of a MIDI note. -/
  periodicPitchForMidi : Nat → Option (Nat × Int)
  /-- `fractional_midi` rounded to a whole note. -/
  roundedMidi : TunedPeriodicPitch → Int
  Pattern : Type
  patternEq : DecidableEq Pattern
  cleared : Pattern
  contains : Pattern → Nat → Bool
  toggled : Pattern → Nat → Option Pattern
  Settings : Type
  settingsEq : DecidableEq Settings
  defaultSettings : Settings
  defaultPattern : Pattern

attribute [instance] MusicLibrary.patternEq MusicLibrary.settingsEq

variable {M : MusicLibrary}

structure RoundTableConfig (M : MusicLibrary) where
  settings : M.Settings
  pattern : M.Pattern
  deriving DecidableEq

inductive RoundTableFrame (M : MusicLibrary) where
  | run (config : RoundTableConfig M)
  | config (config : RoundTableConfig M)
  | configSnapshot (revision : Nat) (config : RoundTableConfig M)
  | pulse
  deriving DecidableEq

inductive BridgeError where
  | queueFull (queue : String)
  | unavailable (message : String)
  | transport (message : String)
  deriving DecidableEq

inductive RealtimeMidiKind where
  | noteOn
  | noteOff
  | choke
  | polyPressure
  | pitchBend
  | channelPressure
  deriving DecidableEq

/-- Policy applied to MIDI note edges as they cross into the room bridge. -/
inductive MidiInputMode where
  | toggleSet
  | gateSet
  | perform
  deriving DecidableEq

/-- Fixed-size message crossing the realtime/background boundary. -/
structure RealtimeMidi where
  timing : Nat := 0
  voiceId : Int := -1
  channel : Nat := 0
  note : Nat
  kind : RealtimeMidiKind
  value : Rat
  deriving DecidableEq

def membershipVoiceBase : Int := 0x54550000

def membershipVoiceId (note : Nat) : Int := membershipVoiceBase+note

def RealtimeMidi.isMembershipProjection (event : RealtimeMidi) : Bool :=
  event.voiceId - event.voiceId % 128 = membershipVoiceBase ∧
    event.note = event.voiceId % 128 ∧ (event.kind = .noteOn ∨ event.kind = .noteOff)

def RealtimeMidi.isRelease (event : RealtimeMidi) : Bool :=
  event.kind = .noteOff ∨ event.kind = .choke

inductive PitchIntentSource where
  | host
  | board
  deriving DecidableEq

structure PendingPitchIntent where
  active : Bool
  intentToken : Nat
  source : PitchIntentSource
  deriving DecidableEq

/-- Background-owned state for the notes-chatroom projection. -/
structure BridgePitchState (M : MusicLibrary) where
  boardConfirmed : Option (RoundTableConfig M) := none
  boardTarget : Option (RoundTableConfig M) := none
  boardRetryAt : Option Nat := none
  boardSnapshotRevision : Option Nat := none
  hostHeld : Finset Nat := ∅
  /-- Latest unconfirmed local intent per pitch class. -/
  pendingClasses : KeyedMap TunedDegree PendingPitchIntent := .empty
  nextIntentToken : Nat := 1
  room : SharedPitchSet := ⟨∅,∅⟩
  roomConfig : RoundTableConfig M := ⟨M.defaultSettings,M.defaultPattern⟩
  outputNotes : Finset Nat := ∅

structure BoardEditPlan (M : MusicLibrary) where
  settings : Option (RoundTableConfig M)
  pitchEdits : List (TunedPeriodicPitch × Bool)

def pitchForMidi (M : MusicLibrary) (note : Nat) : Except BridgeError TunedPeriodicPitch :=
  match M.periodicPitchForMidi note with
  | some (degree,period) => .ok ⟨M.twelveTet,degree,period⟩
  | none => .error (.transport s!"MIDI note {note} is outside the active tuning")

def sharedDegree (pitch : TunedPeriodicPitch) : TunedDegree := ⟨pitch.tuningId,pitch.degree⟩

def containsClass (room : SharedPitchSet) (degree : TunedDegree) : Bool :=
  degree ∈ room.pitchClasses ∨ ∃ candidate ∈ room.pitches, sharedDegree candidate = degree

def settingsOnly (config : RoundTableConfig M) : RoundTableConfig M :=
  { config with pattern := M.cleared }

namespace BridgePitchState

/-- Was the key held before? -/
def setHostHeld (pitches : BridgePitchState M) (note : Nat) (held : Bool) :
    Bool × BridgePitchState M :=
  (note ∈ pitches.hostHeld,{ pitches with
    hostHeld := if held then insert note pitches.hostHeld else pitches.hostHeld.erase note })

def confirmedContainsPitchClass (pitches : BridgePitchState M) (degree : TunedDegree) : Bool :=
  containsClass pitches.room degree

def containsOptimisticPitchClass (pitches : BridgePitchState M) (pitch : TunedPeriodicPitch) :
    Bool :=
  match pitches.pendingClasses.get? (sharedDegree pitch) with
  | some intent => intent.active
  | none => pitches.confirmedContainsPitchClass (sharedDegree pitch)

def allocateIntentToken (pitches : BridgePitchState M) :
    Except BridgeError (Nat × BridgePitchState M) :=
  let token := pitches.nextIntentToken
  if token+1 < 2^64 then .ok (token,{ pitches with nextIntentToken := token+1 })
  else .error (.transport "pitch intent correlation space exhausted")

def trackPitchIntent (pitches : BridgePitchState M) (token : Nat) (source : PitchIntentSource)
    (pitchEdits : List (TunedPeriodicPitch × Bool)) : BridgePitchState M :=
  { pitches with
    pendingClasses := pitchEdits.foldl
      (fun pending edit => pending.insert (sharedDegree edit.1) ⟨edit.2,token,source⟩)
      pitches.pendingClasses }

def rejectPitchIntent (pitches : BridgePitchState M) (token : Nat) : BridgePitchState M :=
  { pitches with
    pendingClasses := pitches.pendingClasses.retain fun _ intent => intent.intentToken ≠ token }

def abandonPitchIntents (pitches : BridgePitchState M) : BridgePitchState M :=
  { pitches with pendingClasses := .empty }

def abandonBoardPitchIntents (pitches : BridgePitchState M) : BridgePitchState M :=
  { pitches with
    pendingClasses := pitches.pendingClasses.retain fun _ intent => intent.source ≠ .board }

def abandonPitchIntentsThrough (pitches : BridgePitchState M) (throughToken : Nat) :
    BridgePitchState M :=
  { pitches with
    pendingClasses := pitches.pendingClasses.retain fun _ intent =>
      throughToken < intent.intentToken }

def hasPendingPitchIntent (pitches : BridgePitchState M) : Bool :=
  !pitches.pendingClasses.isEmpty

/-- Install an authoritative materialization, and retire the intents it confirms. -/
def applyConfirmedRoom (pitches : BridgePitchState M) (room : SharedPitchSet) :
    Bool × BridgePitchState M :=
  (pitches.room ≠ room,{ pitches with
    room := room
    pendingClasses := pitches.pendingClasses.retain fun degree intent =>
      containsClass room degree ≠ intent.active })

def hasHeldPitchClass (pitches : BridgePitchState M) (pitch : TunedPeriodicPitch) : Bool :=
  (List.range 128).any fun note => note ∈ pitches.hostHeld && match pitchForMidi M note with
    | .ok candidate => candidate.degree = pitch.degree
    | .error _ => false

/-- The host notes of the confirmed set: classes from note 48 up, exact pitches where they are. -/
def roomMidiNotes (pitches : BridgePitchState M) : Finset Nat :=
  ((pitches.room.pitchClasses.filter fun degree => degree.tuningId = M.twelveTet).image
      fun degree => 48+degree.degree).filter (· ≤ 127) ∪
    (((pitches.room.pitches.filter fun pitch => pitch.tuningId = M.twelveTet).image
      M.roundedMidi).filter fun note => 0 ≤ note ∧ note ≤ 127).image Int.toNat

def boardConfig (pitches : BridgePitchState M) : RoundTableConfig M :=
  { pitches.roomConfig with
    pattern := (List.range 128).foldl
      (fun pattern note =>
        if note ∈ pitches.roomMidiNotes then (M.toggled pattern note).getD pattern else pattern)
      M.cleared }

def roomPattern (pitches : BridgePitchState M) : M.Pattern := pitches.boardConfig.pattern

/-- The pitch edits between two patterns, over the twelve classes from note 48 up. -/
def planPitchEdits (before after : M.Pattern) :
    List Nat → Except BridgeError (List (TunedPeriodicPitch × Bool))
  | [] => .ok []
  | pitchClass :: rest =>
      let note := 48+pitchClass
      if M.contains before note ≠ M.contains after note then do
        let pitch ← pitchForMidi M note
        let edits ← planPitchEdits before after rest
        return (pitch,M.contains after note) :: edits
      else planPitchEdits before after rest

def planBoardEdit (pitches : BridgePitchState M) (config : RoundTableConfig M) :
    Except BridgeError (BoardEditPlan M) := do
  let settings := settingsOnly config
  let pitchEdits ← planPitchEdits pitches.roomPattern config.pattern (List.range 12)
  return {
    settings := if settings ≠ settingsOnly pitches.roomConfig then some settings else none
    pitchEdits := pitchEdits }

def clearBoardTarget (pitches : BridgePitchState M) : BridgePitchState M :=
  { pitches with boardTarget := none, boardRetryAt := none }

/-- A new connection says nothing of what the board shows. -/
def forgetBoard (pitches : BridgePitchState M) : BridgePitchState M :=
  { pitches with boardConfirmed := none, boardSnapshotRevision := none }

/-- The room's frame carries its settings, except for passive snapshots and pulses. -/
def applyRoundTable (pitches : BridgePitchState M) : RoundTableFrame M → BridgePitchState M
  | .run config => { pitches with roomConfig := config }
  | .config config => { pitches with roomConfig := config }
  | .configSnapshot _ _ => pitches
  | .pulse => pitches

def stageBoardTarget (pitches : BridgePitchState M) (now : Nat) : BridgePitchState M :=
  -- A continuity fence: no repainting from an older projection while an edit is admitted.
  if pitches.hasPendingPitchIntent = true then
    { pitches with boardTarget := none, boardRetryAt := none }
  else
    let target := pitches.boardConfig
    if pitches.boardConfirmed = some target ∧ pitches.boardTarget = none then pitches
    else { pitches with boardTarget := some target, boardRetryAt := some now }

theorem stageBoardTarget_hostHeld (pitches : BridgePitchState M) (now : Nat) :
    (pitches.stageBoardTarget now).hostHeld = pitches.hostHeld := by
  simp only [stageBoardTarget]
  split
  · rfl
  · split <;> rfl

/-- The frame to send to the board, at most every 250 milliseconds. -/
def boardTargetDue (pitches : BridgePitchState M) (now : Nat) :
    Option (RoundTableFrame M) × BridgePitchState M :=
  match pitches.boardTarget with
  | none => (none,pitches)
  | some target =>
      if pitches.boardRetryAt.any (now < ·) then (none,pitches)
      else (some (.config target),{ pitches with boardRetryAt := some (now+250) })

inductive BoardConfigObservation where
  | confirmed
  | staleEcho
  | boardEdit
  deriving DecidableEq

/-- `Config` is an explicit board input intent. -/
def observeBoardConfig (pitches : BridgePitchState M) (config : RoundTableConfig M) :
    BoardConfigObservation × BridgePitchState M :=
  if pitches.boardTarget = none ∧ pitches.boardConfirmed = some config then (.confirmed,pitches)
  else (.boardEdit,{ pitches with
    boardConfirmed := some config
    boardTarget := none
    boardRetryAt := none })

def observeBoardSnapshot (pitches : BridgePitchState M) (revision : Nat)
    (config : RoundTableConfig M) (now : Nat) : BoardConfigObservation × BridgePitchState M :=
  if pitches.boardSnapshotRevision.any (revision ≤ ·) then (.staleEcho,pitches)
  else
    let pitches := { pitches with boardSnapshotRevision := some revision }
    if pitches.boardTarget = some config then
      (.confirmed,{ pitches with
        boardConfirmed := some config
        boardTarget := none
        boardRetryAt := none })
    else if pitches.boardTarget.isSome then
      (.staleEcho,{ pitches with boardRetryAt := some now })
    else if pitches.boardConfirmed = some config then (.confirmed,pitches)
    else
      -- A passive level is never an edit: reassert the room's target.
      (.staleEcho,stageBoardTarget { pitches with boardConfirmed := some config } now)

end BridgePitchState

/-- Twelve equal steps from MIDI note 0, with patterns as sets of notes. -/
def plainMusic : MusicLibrary where
  twelveTet := 1
  periodicPitchForMidi note := if note < 128 then some (note % 12,note / 12) else none
  roundedMidi pitch := 12*pitch.period+pitch.degree
  Pattern := Finset Nat
  patternEq := inferInstance
  cleared := ∅
  contains pattern note := note ∈ pattern
  toggled pattern note :=
    if note < 128 then some (if note ∈ pattern then pattern.erase note else insert note pattern)
    else none
  Settings := Nat
  settingsEq := inferInstance
  defaultSettings := 0
  defaultPattern := ∅

def plainConfig (settings : Nat) (notes : Finset Nat) : RoundTableConfig plainMusic :=
  ⟨settings,notes⟩

end WalkieSongie.Bridge
