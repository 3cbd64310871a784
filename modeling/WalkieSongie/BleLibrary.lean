import WalkieSongie.BleScheduler
import WalkieSongie.CarrierEvents
set_option autoImplicit false

/-!
What the board session rests on: the platform's BLE host, and the crates that own the hello, the
handshake, the authenticated lanes, the closing of a repair and the capability bundle.
-/

namespace WalkieSongie.Carrier
open Ble (BleWriteMessage BleWritePriority)

inductive BleHostError where
  | permissionDenied
  | unavailable (reason : String)
  | operation (reason : String)
  deriving DecidableEq

def BleHostError.text : BleHostError → String
  | .permissionDenied => "Bluetooth permission was denied"
  | .unavailable reason => s!"Bluetooth is unavailable: {reason}"
  | .operation reason => s!"Bluetooth operation failed: {reason}"

inductive BleHostEvent where
  | scanResult (result : BleScanResult)
  | connected (address : BleAddress) (maxFragmentValueBytes : UInt16)
  | disconnected (address : BleAddress) (reason : Option String)
  | info (bytes : Bytes)
  | notification (bytes : Bytes)
  | writeComplete (messageId : UInt16)
  | diagnostic (text : String)
  | permissionDenied
  | eventsDropped (count : Nat)
  | error (error : BleHostError)

inductive Lane where
  | control
  | realtime
  | hhhsRepair
  deriving DecidableEq

def Lane.priority : Lane → BleWritePriority
  | .control => .control
  | .realtime => .realtime
  | .hhhsRepair => .repair

structure LaneProfile where
  musicGeneration : UInt32
  musicVocabularyGeneration : UInt32
  maxReplicaRecordBytes : UInt32
  hhhsStrategyVersion : UInt32
  hhhsRepairGeneration : UInt32
  applicationGeneration : UInt32
  capabilities : UInt32
  maxAuthenticatedPayloadBytes : UInt32
  maxRepairFrameBytes : UInt32
  deriving DecidableEq

structure AuthenticatedMessage where
  lane : Lane
  sequence : UInt64
  payload : Bytes

inductive ControlFrame (RepairFin RepairAck : Type) where
  | profile (profile : LaneProfile)
  | capabilityBundle (bundle : Bytes)
  | repairFin (fin : RepairFin)
  | repairAck (ack : RepairAck)
  | capabilityReady (bundleDigest : Digest)

inductive RealtimeFrame (T : RealtimeTypes) where
  | midi (midi : T.Midi)
  | roundTable (frame : T.RoundTableFrame)

/-- The platform host and the crates under the board session. -/
structure BleLibrary (T : RealtimeTypes) where
  Host : Type
  startScan : EStateM BleHostError Host Unit
  stopScan : EStateM BleHostError Host Unit
  connect : BleAddress → EStateM BleHostError Host Unit
  disconnect : EStateM BleHostError Host Unit
  writeRxMessage : BleWriteMessage → EStateM BleHostError Host Unit
  pollHost : Host → Option BleHostEvent × Host
  fragments : UInt16 → Bytes → Nat → Except String Unit
  random : Nat → UInt64
  publicIdentity : Digest → Digest
  decodeHello : Bytes → Except String PeerHello
  encodeHello : PeerHello → Bytes
  supportsRealtime : PeerHello → Bool
  supportsRepair : PeerHello → Bool
  localCapabilities : UInt32
  minFragmentValueBytes : Nat
  hardMaxPayloadBytes : Nat
  hardMaxWireBytes : Nat
  completeWireCeiling : Nat → Option Nat
  Pending : Type
  Keys : Type
  Codec : Type
  beginInitiator : Digest → PeerHello → PeerHello → Nat → Pending × Bytes
  decodeAnswer : Bytes → Except String Bytes
  complete : Pending → Bytes → Digest → Except String Keys
  newCodec : Keys → Nat → Except String Codec
  sessionId : Codec → UInt64
  encode : Lane → Bytes → EStateM String Codec (UInt64 × Bytes)
  decode : Bytes → EStateM String Codec AuthenticatedMessage
  restrictPayload : Nat → EStateM String Codec Unit
  Budget : Type
  Reassembler : Type
  reassemblyBudget : Nat → Nat → Nat → Except String Budget
  newReassembler : Budget → Except String Reassembler
  push : Bytes → EStateM String Reassembler (Option Bytes)
  restrictBudget : Budget → EStateM String Reassembler Unit
  resetReassembler : Reassembler → Reassembler
  RepairFin : Type
  RepairAck : Type
  decodeControl : Bytes → Except String (ControlFrame RepairFin RepairAck)
  encodeProfile : LaneProfile → Bytes
  encodeBundle : Bytes → Except String Bytes
  encodeFin : RepairFin → Bytes
  encodeAck : RepairAck → Bytes
  AttemptId : Type
  RepairCloseState : Type
  repairAttemptId : UInt64 → Bytes → AttemptId
  newClose : AttemptId → RepairCloseState
  markLocalTerminal : RepairCloseState → RepairCloseState
  localFinPending : RepairCloseState → Bool
  localFin : RepairCloseState → Except String RepairFin
  remoteAckPending : RepairCloseState → Bool
  remoteAck : RepairCloseState → Except String RepairAck
  isConfirmedClosed : RepairCloseState → Bool
  observeLocalRepair : UInt64 → EStateM String RepairCloseState Unit
  observeLocalFinEncoded : UInt64 → EStateM String RepairCloseState Unit
  observeRemoteAckEncoded : UInt64 → EStateM String RepairCloseState Unit
  observeRemoteFin : RepairFin → UInt64 → EStateM String RepairCloseState Unit
  observeLocalFinAck : RepairAck → EStateM String RepairCloseState Unit
  confirmRemoteAckSent : UInt64 → EStateM String RepairCloseState Unit
  observeRemoteRepair : UInt64 → EStateM String RepairCloseState Unit
  expectedReceiver : Bytes → Except String Digest
  digestOf : Bytes → Digest
  encodeMidi : T.Midi → Except String Bytes
  encodeRoundTable : T.RoundTableFrame → Except String Bytes
  decodeRealtime : Bytes → Except String (RealtimeFrame T)
  capMusic : UInt32
  capHhhsRepair : UInt32
  capRealtime : UInt32
  capWalkieExtension : UInt32
  maxReplicaRecordBytes : Nat
  wireGeneration : UInt32
  realtimeGeneration : UInt32 → UInt32
  withRealtimeGeneration : UInt32 → UInt32 → UInt32

inductive ProtocolMismatch where
  | musicGeneration (ours theirs : UInt32)
  | musicVocabularyGeneration (ours theirs : UInt32)
  | hhhsStrategy (ours theirs : UInt32)
  | hhhsRepairGeneration (ours theirs : UInt32)
  | roomGeneration (ours theirs : UInt32)

def ProtocolMismatch.text : ProtocolMismatch → String
  | .musicGeneration ours theirs =>
    s!"music generation differs (local {ours}, remote {theirs})"
  | .musicVocabularyGeneration ours theirs =>
    s!"music vocabulary differs (local {ours}, remote {theirs})"
  | .hhhsStrategy ours theirs =>
    s!"HHHS lane strategy differs (local {ours}, remote {theirs})"
  | .hhhsRepairGeneration ours theirs =>
    s!"HHHS repair wire generation differs (local {ours}, remote {theirs})"
  | .roomGeneration ours theirs =>
    s!"Walkie room generation differs (local {ours}, remote {theirs})"

section Profile

variable {T : RealtimeTypes} (L : BleLibrary T)

/-- Both sides claim the capability. -/
def ProtocolProfile.share (capability : UInt32) (ours theirs : ProtocolProfile) : Prop :=
  ours.capabilities &&& capability ≠ 0 ∧ theirs.capabilities &&& capability ≠ 0

instance (capability : UInt32) (ours theirs : ProtocolProfile) :
    Decidable (ours.share capability theirs) := inferInstanceAs (Decidable (_ ∧ _))

def ProtocolProfile.checkCompatible (ours theirs : ProtocolProfile) : Option ProtocolMismatch :=
  if ours.share L.capMusic theirs ∧ ours.musicGeneration ≠ theirs.musicGeneration then
    some (.musicGeneration ours.musicGeneration theirs.musicGeneration)
  else if ours.hhhsStrategyVersion ≠ theirs.hhhsStrategyVersion then
    some (.hhhsStrategy ours.hhhsStrategyVersion theirs.hhhsStrategyVersion)
  else if ours.share L.capMusic theirs ∧
      ours.musicVocabularyGeneration ≠ theirs.musicVocabularyGeneration then
    some (.musicVocabularyGeneration ours.musicVocabularyGeneration
      theirs.musicVocabularyGeneration)
  else if ours.share L.capHhhsRepair theirs ∧
      ours.hhhsRepairGeneration ≠ theirs.hhhsRepairGeneration then
    some (.hhhsRepairGeneration ours.hhhsRepairGeneration theirs.hhhsRepairGeneration)
  else if ours.share L.capWalkieExtension theirs ∧ ours.roomGeneration ≠ theirs.roomGeneration then
    some (.roomGeneration ours.roomGeneration theirs.roomGeneration)
  else none

/-- A length that the profile's wire can hold. -/
def fitsProfile (label : String) (length : Nat) : Except BridgeError UInt32 :=
  if length < UInt32.size then .ok (.ofNat length)
  else .error (.transport s!"{label} budget does not fit the profile wire")

def laneProfile (profile : ProtocolProfile) (maxPayloadBytes maxRepairFrameBytes : Nat) :
    Except BridgeError LaneProfile := do
  let maxReplicaRecordBytes ← fitsProfile "music record" L.maxReplicaRecordBytes
  let maxAuthenticatedPayloadBytes ← fitsProfile "BLE payload" maxPayloadBytes
  let maxRepairFrameBytes ← fitsProfile "BLE repair" maxRepairFrameBytes
  return {
    musicGeneration := profile.musicGeneration
    musicVocabularyGeneration := profile.musicVocabularyGeneration
    maxReplicaRecordBytes
    hhhsStrategyVersion := profile.hhhsStrategyVersion
    hhhsRepairGeneration := profile.hhhsRepairGeneration
    applicationGeneration := profile.roomGeneration
    capabilities := L.withRealtimeGeneration profile.capabilities L.wireGeneration
    maxAuthenticatedPayloadBytes
    maxRepairFrameBytes }

def LaneProfile.protocolProfile (profile : LaneProfile) : ProtocolProfile where
  musicGeneration := profile.musicGeneration
  musicVocabularyGeneration := profile.musicVocabularyGeneration
  hhhsStrategyVersion := profile.hhhsStrategyVersion
  hhhsRepairGeneration := profile.hhhsRepairGeneration
  roomGeneration := profile.applicationGeneration
  capabilities := profile.capabilities

end Profile

structure BleLinkConfig where
  identitySeed : Digest
  trustedBoards : List Digest
  localProfile : ProtocolProfile
  maxPayloadBytes : Nat
  maxRepairFrameBytes : Nat

def BleLinkConfig.validate {T : RealtimeTypes} (L : BleLibrary T) (config : BleLinkConfig) :
    Except BridgeError Unit :=
  if config.maxPayloadBytes = 0 ∨ L.hardMaxPayloadBytes < config.maxPayloadBytes then
    .error (.transport s!"BLE payload budget must be within 1..={L.hardMaxPayloadBytes}")
  else if config.maxRepairFrameBytes = 0 ∨ config.maxPayloadBytes < config.maxRepairFrameBytes ∨
      L.hardMaxWireBytes < config.maxRepairFrameBytes then
    .error (.transport "BLE repair-frame budget must fit the authenticated payload budget")
  else .ok ()

end WalkieSongie.Carrier
