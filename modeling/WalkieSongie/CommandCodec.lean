import WalkieSongie.GossipFormats
set_option autoImplicit false

/-!
The byte forms of the entries' commands, one domain for each lane, and of capability presence.
-/

namespace WalkieSongie.Gossip
open ByteFormat TaskProgram
open Replica (RoomLane)

variable {T : Type} {P : Type}

structure CommandEnvelope (T : Type) where
  generation : UInt32
  laneNamespace : FixedBytes 32
  actor : FixedBytes 32
  presented : List (FixedBytes 32)
  command : T
  deriving DecidableEq

/-- The claims are only serialized here. -/
structure PresenceEnvelope (P : Type) where
  claims : P
  proof : List UInt8
  deriving DecidableEq

inductive CommandCodecError where
  | tooLarge (bytes : Nat)
  | wrongDomain
  | malformed
  | nonCanonical
  | unsupportedGeneration (generation : UInt32)
  deriving DecidableEq

inductive PresenceError where
  | tooLarge (bytes : Nat)
  | wrongDomain
  | malformed
  | nonCanonical
  deriving DecidableEq

/-- The serializer of a type of values and its deserializer. -/
structure SerdeJson (α : Type) where
  toVec : α → Option (List UInt8)
  fromSlice : List UInt8 → Option α

def SerdeJson.Inverts {α : Type} (serde : SerdeJson α) : Prop :=
  ∀ value json, serde.toVec value = some json → serde.fromSlice json = some value

def extensionCommandDomain : List UInt8 := ascii "walkie extension command v5\x00"
def presenceDomain : List UInt8 := ascii "walkie capability presence v5\x00"
def maxCommandBytes : Nat := 1024*1024
def maxPresenceBytes : Nat := 32*1024

/-- The music lane's domain is the music crate's. -/
def commandDomain (musicDomain : List UInt8) : RoomLane → List UInt8
  | .music => musicDomain
  | .extension => extensionCommandDomain

def unsupportedGeneration (envelope : CommandEnvelope T) : Option CommandCodecError :=
  if envelope.generation.toNat ≠ roomProtocolGeneration then
    some (.unsupportedGeneration envelope.generation)
  else none

def envelopeFormat (musicDomain : List UInt8) (serde : SerdeJson (CommandEnvelope T))
    (lane : RoomLane) : SealedFormat CommandCodecError (CommandEnvelope T) where
  domain := commandDomain musicDomain lane
  limit := maxCommandBytes
  toVec := serde.toVec
  fromSlice := serde.fromSlice
  unsupported := unsupportedGeneration
  tooLarge := .tooLarge
  wrongDomain := .wrongDomain
  malformed := .malformed
  nonCanonical := .nonCanonical

/-- Presence is read without a look at its generation: the claims are checked later. -/
def presenceFormat (serde : SerdeJson (PresenceEnvelope P)) :
    SealedFormat PresenceError (PresenceEnvelope P) where
  domain := presenceDomain
  limit := maxPresenceBytes
  toVec := serde.toVec
  fromSlice := serde.fromSlice
  unsupported _ := none
  tooLarge := .tooLarge
  wrongDomain := .wrongDomain
  malformed := .malformed
  nonCanonical := .nonCanonical

def encodeEnvelope (musicDomain : List UInt8) (serde : SerdeJson (CommandEnvelope T))
    (lane : RoomLane) : CommandEnvelope T → Except CommandCodecError (List UInt8) :=
  (envelopeFormat musicDomain serde lane).encode

def decodeEnvelope (musicDomain : List UInt8) (serde : SerdeJson (CommandEnvelope T))
    (lane : RoomLane) : List UInt8 → Except CommandCodecError (CommandEnvelope T) :=
  (envelopeFormat musicDomain serde lane).decode

def encodePresenceEnvelope (serde : SerdeJson (PresenceEnvelope P)) :
    PresenceEnvelope P → Except PresenceError (List UInt8) :=
  (presenceFormat serde).encode

def decodePresenceEnvelope (serde : SerdeJson (PresenceEnvelope P)) :
    List UInt8 → Except PresenceError (PresenceEnvelope P) :=
  (presenceFormat serde).decode

section Canonical

variable {musicDomain bytes bytes' : List UInt8} {serde : SerdeJson (CommandEnvelope T)}
  {lane lane' : RoomLane} {envelope : CommandEnvelope T}

theorem unsupportedGeneration_eq_none : unsupportedGeneration envelope = none ↔
    envelope.generation.toNat = roomProtocolGeneration := by
  by_cases h : envelope.generation.toNat = roomProtocolGeneration <;> simp [unsupportedGeneration,h]

theorem decodeEnvelope_eq_ok (hserde : serde.Inverts) :
    decodeEnvelope musicDomain serde lane bytes = .ok envelope ↔
      encodeEnvelope musicDomain serde lane envelope = .ok bytes ∧
        envelope.generation.toNat = roomProtocolGeneration ∧ bytes.length ≤ maxCommandBytes := by
  have hformat : (envelopeFormat musicDomain serde lane).Inverts := hserde
  refine (SealedFormat.decode_eq_ok hformat).trans ⟨?_,?_⟩
  · rintro ⟨hencoded,hgeneration⟩
    have hlimit := (SealedFormat.encode_eq_ok.mp hencoded).2
    exact ⟨hencoded,unsupportedGeneration_eq_none.mp hgeneration,hlimit⟩
  · rintro ⟨hencoded,hgeneration,_⟩
    exact ⟨hencoded,unsupportedGeneration_eq_none.mpr hgeneration⟩

theorem decodePresenceEnvelope_eq_ok {presence : SerdeJson (PresenceEnvelope P)}
    {claimed : PresenceEnvelope P} (hpresence : presence.Inverts) :
    decodePresenceEnvelope presence bytes = .ok claimed ↔
      encodePresenceEnvelope presence claimed = .ok bytes ∧ bytes.length ≤ maxPresenceBytes := by
  have hformat : (presenceFormat presence).Inverts := hpresence
  refine (SealedFormat.decode_eq_ok hformat).trans ⟨?_,?_⟩
  · rintro ⟨hencoded,_⟩
    exact ⟨hencoded,(SealedFormat.encode_eq_ok.mp hencoded).2⟩
  · rintro ⟨hencoded,_⟩
    exact ⟨hencoded,rfl⟩

theorem commandDomain_prefixFree (hmusic : ¬ musicDomain <+: extensionCommandDomain)
    (hextension : ¬ extensionCommandDomain <+: musicDomain)
    (h : commandDomain musicDomain lane <+: commandDomain musicDomain lane') : lane = lane' := by
  cases lane with
  | music => cases lane' with
    | music => rfl
    | extension => exact absurd h hmusic
  | extension => cases lane' with
    | music => exact absurd h hextension
    | extension => rfl

/-- A lane accepts the string, for a command of some type. -/
def AcceptedIn (musicDomain bytes : List UInt8) (lane : RoomLane) : Prop :=
  ∃ (T : Type) (serde : SerdeJson (CommandEnvelope T)) (envelope : CommandEnvelope T),
    decodeEnvelope musicDomain serde lane bytes = .ok envelope

theorem commandDomain_of_accepted (h : AcceptedIn musicDomain bytes lane) :
    commandDomain musicDomain lane <+: bytes := by
  obtain ⟨T,serde,envelope,h⟩ := h
  exact SealedFormat.domain_of_decode h

/-- Commands and presence are accepted just as they are encoded, each from one string, and no
string is a command of both lanes. -/
theorem command_codec_canonical (musicDomain : List UInt8)
    (hmusic : ¬ musicDomain <+: extensionCommandDomain)
    (hextension : ¬ extensionCommandDomain <+: musicDomain) (hserde : serde.Inverts)
    (presence : SerdeJson (PresenceEnvelope P)) (hpresence : presence.Inverts) :
    (∀ lane bytes envelope, decodeEnvelope musicDomain serde lane bytes = .ok envelope ↔
      encodeEnvelope musicDomain serde lane envelope = .ok bytes ∧
        envelope.generation.toNat = roomProtocolGeneration ∧ bytes.length ≤ maxCommandBytes) ∧
    (∀ lane bytes bytes' envelope, decodeEnvelope musicDomain serde lane bytes = .ok envelope →
      decodeEnvelope musicDomain serde lane bytes' = .ok envelope → bytes = bytes') ∧
    (∀ bytes lane lane', AcceptedIn musicDomain bytes lane → AcceptedIn musicDomain bytes lane' →
      lane = lane') ∧
    (∀ bytes envelope, decodePresenceEnvelope presence bytes = .ok envelope ↔
      encodePresenceEnvelope presence envelope = .ok bytes ∧ bytes.length ≤ maxPresenceBytes) ∧
    ∀ bytes bytes' envelope, decodePresenceEnvelope presence bytes = .ok envelope →
      decodePresenceEnvelope presence bytes' = .ok envelope → bytes = bytes' := by
  refine ⟨fun lane bytes envelope => decodeEnvelope_eq_ok hserde,
    fun lane bytes bytes' envelope => SealedFormat.eq_of_decode,?_,
    fun bytes envelope => decodePresenceEnvelope_eq_ok hpresence,
    fun bytes bytes' envelope => SealedFormat.eq_of_decode⟩
  intro bytes lane lane' h h'
  exact eq_of_accepts (commandDomain musicDomain)
    (fun lane bytes => AcceptedIn musicDomain bytes lane) (fun _ _ => commandDomain_of_accepted)
    (fun _ _ => commandDomain_prefixFree hmusic hextension) h h'

section Sample

def serdeOf {α : Type} [DecidableEq α] (sample : α) (text : List UInt8) : SerdeJson α where
  toVec value := if value = sample then some text else none
  fromSlice json := if json = text then some sample else none

theorem serdeOf_inverts {α : Type} [DecidableEq α] (sample : α) (text : List UInt8) :
    (serdeOf sample text).Inverts := by
  intro value json h
  by_cases hvalue : value = sample
  · simp_all [serdeOf]
  · simp [serdeOf,hvalue] at h

def envelopeOfZeros : CommandEnvelope Unit where
  generation := 5
  laneNamespace := .ofNat 32 0
  actor := .ofNat 32 0
  presented := []
  command := ()

def envelopeText : List UInt8 :=
  ascii "\x7b\"generation\":5,\"namespace\":[" ++ zeros ++ ascii "],\"actor\":[" ++ zeros ++
    ascii "],\"presented\":[],\"command\":null\x7d"
where
  zeros := ascii "0,0,0,0,0,0,0,0,0,0,0,0,0,0,0,0,0,0,0,0,0,0,0,0,0,0,0,0,0,0,0,0"

def presenceText : List UInt8 := ascii "\x7b\"claims\":null,\"proof\":[]\x7d"

def musicSampleDomain : List UInt8 := ascii "music command\x00"

theorem command_codec_canonical_envelope :
    decodeEnvelope musicSampleDomain (serdeOf envelopeOfZeros envelopeText) .extension
        (extensionCommandDomain ++ envelopeText) = .ok envelopeOfZeros ∧
      ¬ AcceptedIn musicSampleDomain (extensionCommandDomain ++ envelopeText) .music := by
  have h := command_codec_canonical musicSampleDomain (by decide) (by decide)
    (serdeOf_inverts envelopeOfZeros envelopeText)
    (serdeOf (⟨(),[]⟩ : PresenceEnvelope Unit) presenceText) (serdeOf_inverts _ _)
  have hlength : (extensionCommandDomain ++ envelopeText).length ≤ maxCommandBytes := by
    decide +kernel
  have hencoded : encodeEnvelope musicSampleDomain (serdeOf envelopeOfZeros envelopeText) .extension
      envelopeOfZeros = .ok (extensionCommandDomain ++ envelopeText) :=
    SealedFormat.encode_eq_ok.mpr ⟨⟨envelopeText,by simp [envelopeFormat,serdeOf],rfl⟩,hlength⟩
  have hdecoded := (h.1 .extension _ envelopeOfZeros).mpr ⟨hencoded,rfl,hlength⟩
  refine ⟨hdecoded,fun hmusic => ?_⟩
  exact absurd (h.2.2.1 _ .music .extension hmusic ⟨_,_,_,hdecoded⟩) (by decide)

end Sample

end Canonical

end WalkieSongie.Gossip
