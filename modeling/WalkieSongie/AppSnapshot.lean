import WalkieSongie.ExtensionView
import Mathlib.Data.List.Sort
set_option autoImplicit false

/-!
What a host shows its clients: the snapshot, the events that tell of its changes, and the client's
own reading of these events.
-/

namespace WalkieSongie.Client
open Extension (PieceId Piece)

/-- What both hosts take from the tuning crate, and the tickets of rooms. -/
structure TuningLibrary where
  TuningDefinition : Type
  Tuning : Type
  RoundTableConfig : Type
  definitionEq : DecidableEq TuningDefinition
  roundTableEq : DecidableEq RoundTableConfig
  id : TuningDefinition → Digest
  validate : TuningDefinition → Except String Tuning
  validateDegree : TunedDegree → Tuning → Except String Unit
  validatePitch : TunedPeriodicPitch → Tuning → Except String Unit
  validateRoundTable : RoundTableConfig → Except String RoundTableConfig
  defaultRoundTable : RoundTableConfig
  Ticket : Type
  ticketEq : DecidableEq Ticket
  parseTicket : String → Except String Ticket

attribute [instance] TuningLibrary.definitionEq TuningLibrary.roundTableEq TuningLibrary.ticketEq

variable {T : TuningLibrary}

inductive PeerPath where
  | connecting
  | direct
  | relayed
  | disconnected
  deriving DecidableEq

inductive DiscoverySource where
  | ticket
  | mdns
  | gossip
  | addressLookup
  deriving DecidableEq

structure PeerSnapshot where
  author : ActorId
  endpointId : String
  path : PeerPath
  discovery : DiscoverySource
  roundTripMs : Option Nat
  synchronized : Bool
  deriving DecidableEq

structure PieceSnapshot where
  id : PieceId
  owner : ActorId
  emoji : String
  pitch : TunedPeriodicPitch
  deriving DecidableEq

structure VoiceSnapshot where
  author : ActorId
  session : Nat
  sequence : Nat
  pitch : Option TunedPeriodicPitch
  expiresAtMs : Nat
  deriving DecidableEq

structure MidiPortSnapshot where
  id : String
  name : String
  selected : Bool
  deriving DecidableEq

structure AppSnapshot (T : TuningLibrary) where
  roomName : Option String
  roomTopic : Option String
  roomTicket : Option String
  tuning : Option T.TuningDefinition
  tuningId : Option Digest
  roundTable : T.RoundTableConfig
  sharedPitches : SharedPitchSet
  pieces : List PieceSnapshot
  piecesLocked : Bool
  availableEmojis : Option String
  voices : List VoiceSnapshot
  peers : List PeerSnapshot
  midiInputs : List MidiPortSnapshot
  midiOutputs : List MidiPortSnapshot
  deriving DecidableEq

def AppSnapshot.empty : AppSnapshot T where
  roomName := none
  roomTopic := none
  roomTicket := none
  tuning := none
  tuningId := none
  roundTable := T.defaultRoundTable
  sharedPitches := ⟨∅,∅⟩
  pieces := []
  piecesLocked := false
  availableEmojis := none
  voices := []
  peers := []
  midiInputs := []
  midiOutputs := []

inductive AppEvent (T : TuningLibrary) where
  | snapshot (snapshot : AppSnapshot T)
  | roomChanged (roomName roomTopic ticket : Option String)
  | tuningChanged (definition : T.TuningDefinition)
  | roundTableChanged (config : T.RoundTableConfig)
  | pitchSetChanged (shared : SharedPitchSet)
  | pieceUpserted (piece : PieceSnapshot)
  | pieceRemoved (piece : PieceId)
  | roomConfigChanged (piecesLocked : Bool) (availableEmojis : Option String)
  | voiceUpdated (voice : VoiceSnapshot)
  | voiceExpired (author : ActorId) (session : Nat)
  | peerUpdated (peer : PeerSnapshot)
  | peerRemoved (author : ActorId)
  | midiPortsChanged (inputs outputs : List MidiPortSnapshot)
  | realtimeMidi
  | diagnostic (code message : String)
  deriving DecidableEq

structure MusicView (T : TuningLibrary) where
  tuning : T.TuningDefinition
  roundTable : T.RoundTableConfig
  sharedPitches : SharedPitchSet

structure RoomView (T : TuningLibrary) where
  music : MusicView T
  pieces : Std.ExtTreeMap PieceId Piece
  piecesLocked : Bool
  availableEmojis : Option String

/-- The view's pieces as they stand in a snapshot, in the order of their ids. -/
def RoomView.pieceSnapshots (view : RoomView T) : List PieceSnapshot :=
  view.pieces.toList.map fun entry => ⟨entry.1,entry.2.owner,entry.2.emoji,entry.2.pitch⟩

def equalTunings : TuningLibrary where
  TuningDefinition := Nat
  Tuning := Nat
  RoundTableConfig := Nat
  definitionEq := inferInstanceAs (DecidableEq Nat)
  roundTableEq := inferInstanceAs (DecidableEq Nat)
  id := id
  validate degrees := if degrees = 0 then .error "no degrees" else .ok degrees
  validateDegree pitch degrees :=
    if pitch.degree < degrees then .ok () else .error "degree out of range"
  validatePitch pitch degrees :=
    if pitch.degree < degrees then .ok () else .error "degree out of range"
  validateRoundTable := .ok
  defaultRoundTable := (0 : Nat)
  Ticket := String
  ticketEq := inferInstanceAs (DecidableEq String)
  parseTicket := .ok

end WalkieSongie.Client
