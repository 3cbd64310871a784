import WalkieSongie.BridgeWorker
set_option autoImplicit false

/-!
What the legs of the bridge and the router between them exchange: commands one way, events the
other.
-/

namespace WalkieSongie.Carrier
open Bridge (LinkState PitchIntentOutcome)

/-- The authenticated placement of a board that owns one provisioning exchange. -/
structure BoardSessionBinding where
  identity : Digest
  bootNonce : UInt64
  sessionId : UInt64
  deriving DecidableEq

structure BleAddress where
  text : String
  deriving DecidableEq

structure BleScanResult where
  address : BleAddress
  displayName : Option String
  signalDbm : Option Int

structure PeerHello where
  identity : Digest
  bootNonce : UInt64
  maxFragmentValueBytes : UInt16
  capabilities : UInt32
  deriving DecidableEq

structure ProtocolProfile where
  musicGeneration : UInt32
  musicVocabularyGeneration : UInt32
  hhhsStrategyVersion : UInt32
  hhhsRepairGeneration : UInt32
  roomGeneration : UInt32
  capabilities : UInt32

/-- A value with the part of the room it was made by, which no function of the program reads;
`none` is the application. -/
structure Traced (α : Type) where
  value : α
  origin : Option Nat
  deriving DecidableEq

structure RealtimeTypes where
  Midi : Type
  RoundTableFrame : Type
  RoundTableConfig : Type

def plainTypes : RealtimeTypes where
  Midi := Nat
  RoundTableFrame := Nat
  RoundTableConfig := Nat

variable (T : RealtimeTypes)

inductive BridgeCommand where
  | configureRoomIdentity (identitySeed : Digest)
  | selectRoom (name : String)
  | leaveRoom
  | startBoardScan
  | connectBoard (address : BleAddress)
  | trustBoard (identity : Digest)
  | forgetBoard (identity : Digest)
  | disconnectBoard
  | prepareBoardProvisioning (binding : BoardSessionBinding)
  | sendBoardCapabilityBundle (binding : BoardSessionBinding) (bundle : Traced Bytes)
  | startBoardRepair (binding : BoardSessionBinding)
  | sendBoardRepairFrame (binding : BoardSessionBinding) (frame : Traced Bytes)
  | observeBoardRepairFrame (binding : BoardSessionBinding) (frame : Bytes)
  | finishBoardRepair (binding : BoardSessionBinding)
  | confirmBoardRepairClose (binding : BoardSessionBinding)
  | completeBoardRepair (binding : Traced BoardSessionBinding)
  | abortBoardRepair (binding : BoardSessionBinding)
  | publishRoundTable (frame : T.RoundTableFrame)
  | publishBoardEdit (token : Nat) (frame : T.RoundTableFrame)
      (settings : Option T.RoundTableConfig) (pitchEdits : List (TunedPeriodicPitch × Bool))
  | sendBoardRoundTable (frame : T.RoundTableFrame)
  | setSharedPitch (token : Nat) (pitch : TunedPeriodicPitch) (active : Bool)
  | configureBle (identitySeed : Digest) (trustedBoards : List Digest)

inductive BridgeError where
  | queueFull (queue : String)
  | unavailable (reason : String)
  | transport (reason : String)
  deriving DecidableEq

def BridgeError.text : BridgeError → String
  | .queueFull queue => s!"the bounded {queue} queue is full"
  | .unavailable reason => s!"bridge transport is unavailable: {reason}"
  | .transport reason => s!"bridge transport failed: {reason}"

inductive TransportEvent where
  | roomLink (link : LinkState)
  | roomSelected (name : String)
  | boardLink (link : LinkState)
  | roomPeers (count : Nat)
  | trustedBoards (count : Nat)
  | midi (midi : T.Midi)
  | boardDiscovered (result : BleScanResult)
  | trustRequired (hello : PeerHello)
  | remoteProfile (profile : ProtocolProfile)
  | boardProvisioningRequired (binding : BoardSessionBinding)
  | boardCapabilityBundlePrepared (binding : BoardSessionBinding) (bundle : Traced Bytes)
  | boardProvisioningFailed (binding : BoardSessionBinding) (reason : String)
  | boardProvisioned (binding : BoardSessionBinding)
  | boardRepairOutbound (binding : BoardSessionBinding) (frame : Traced Bytes)
  | boardRepairInbound (binding : BoardSessionBinding) (frame : Bytes)
  | boardRepairTerminal (binding : BoardSessionBinding)
  | boardRepairCarrierClosed (binding : BoardSessionBinding)
  | boardRepairSynchronized (binding : Traced BoardSessionBinding)
  | boardRepairFailed (binding : BoardSessionBinding) (reason : String)
  | roundTable (frame : T.RoundTableFrame)
  | roomPitchSet (set : SharedPitchSet)
  | boardRoundTable (frame : T.RoundTableFrame)
  | pitchIntentOutcome (token : Nat) (outcome : PitchIntentOutcome)
  | pitchIntentReset (throughToken : Nat)
  | diagnostic (text : String)

variable {T}

def BridgeCommand.binding : BridgeCommand T → Option BoardSessionBinding
  | .prepareBoardProvisioning binding | .sendBoardCapabilityBundle binding _
  | .startBoardRepair binding | .sendBoardRepairFrame binding _
  | .observeBoardRepairFrame binding _ | .finishBoardRepair binding
  | .confirmBoardRepairClose binding | .abortBoardRepair binding => some binding
  | .completeBoardRepair binding => some binding.value
  | _ => none

def TransportEvent.binding : TransportEvent T → Option BoardSessionBinding
  | .boardProvisioningRequired binding | .boardCapabilityBundlePrepared binding _
  | .boardProvisioningFailed binding _ | .boardProvisioned binding
  | .boardRepairOutbound binding _ | .boardRepairInbound binding _
  | .boardRepairTerminal binding | .boardRepairCarrierClosed binding
  | .boardRepairFailed binding _ => some binding
  | .boardRepairSynchronized binding => some binding.value
  | _ => none

/-- What a leg may be asked for; a leg that refuses may have changed, too. -/
structure BridgeTransport (T : RealtimeTypes) (Leg : Type) where
  start : EStateM BridgeError Leg Unit
  handleCommand : BridgeCommand T → EStateM BridgeError Leg Unit
  sendRealtime : T.Midi → EStateM BridgeError Leg Unit
  pollEvent : Leg → Option (TransportEvent T) × Leg
  shutdown : Leg → Leg

end WalkieSongie.Carrier
