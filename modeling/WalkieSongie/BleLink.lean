import Mathlib.Data.Finset.Card
import WalkieSongie.BleLibrary
import WalkieSongie.TaskProgram
set_option autoImplicit false

/-!
The board session over the platform's BLE host: trust, handshake, profile, provisioning and the
closing of a repair.
-/

namespace WalkieSongie.Carrier
open TaskProgram
open Bridge (LinkState)
open Ble (BleWriteMessage BleWritePriority)

def transportEventCapacity : Nat := 256

def repairCloseTimeout : Nat := 30

variable {T : RealtimeTypes}

structure BoardCodec (L : BleLibrary T) where
  codec : L.Codec
  peer : Digest

/-- The carrier's part of one repair attempt; the number tells the attempts apart. -/
structure CarrierAttempt (L : BleLibrary T) where
  binding : BoardSessionBinding
  close : L.RepairCloseState
  number : Nat

/-- A message of an authenticated session went to or came from this identity. -/
structure Exchange where
  peer : Digest
  trusted : Finset Digest

structure SessionFacts where
  acknowledged : List (Traced BoardSessionBinding) := []
  closed : List BoardSessionBinding := []
  deriving DecidableEq

structure Readied where
  binding : Traced BoardSessionBinding
  facts : SessionFacts
  deriving DecidableEq

/-- The session, and what was exchanged, sent and reported so far. -/
structure BleLink (L : BleLibrary T) where
  host : L.Host
  events : List (TransportEvent T) := []
  trusted : Finset Digest
  signingKey : Digest
  localHello : PeerHello
  localProfile : ProtocolProfile
  localLaneProfile : LaneProfile
  remoteHello : Option PeerHello := none
  trustCandidate : Option Digest := none
  remoteLaneProfile : Option LaneProfile := none
  pendingProvisioning : Option (Traced (BoardSessionBinding × Digest)) := none
  pending : Option L.Pending := none
  codec : Option (BoardCodec L) := none
  reassembler : L.Reassembler
  negotiatedRepairFrameBytes : Nat
  repairClose : Option (CarrierAttempt L) := none
  repairAckWrite : Option (UInt16 × UInt64) := none
  repairAwaitingConfirmation : Option BoardSessionBinding := none
  repairDeadline : Option Nat := none
  nextMessageId : UInt16 := 0
  droppedEvents : Nat := 0
  desiredAddress : Option BleAddress := none
  scanRequested : Bool := false
  connectPending : Bool := false
  linkConnected : Bool := false
  now : Nat := 0
  draws : Nat := 0
  exchanged : List Exchange := []
  placements : List BoardSessionBinding := []
  carriers : Nat := 0
  carried : List (Nat × Traced Bytes) := []
  facts : SessionFacts := {}
  readied : List Readied := []

variable (L : BleLibrary T)

abbrev LinkM := EStateM BridgeError (BleLink L)

variable {L} {α : Type}

def wireError (message : String) : BridgeError := .transport message

def bleError (error : BleHostError) : BridgeError := .transport error.text

def orFail (checked : Except String α) : LinkM L α :=
  match checked with
  | .ok value => pure value
  | .error message => throw (wireError message)

def orElse (found : Option α) (error : BridgeError) : LinkM L α :=
  match found with
  | some value => pure value
  | none => throw error

def stopIf (bad : Prop) [Decidable bad] (error : BridgeError) : LinkM L Unit := refuseIf bad error

def onHost (program : EStateM BleHostError L.Host α) : LinkM L α := fun link =>
  match program link.host with
  | .ok value host => .ok value { link with host }
  | .error error host => .error (bleError error) { link with host }

def onReassembler (program : EStateM String L.Reassembler α) : LinkM L α := fun link =>
  match program link.reassembler with
  | .ok value reassembler => .ok value { link with reassembler }
  | .error message reassembler => .error (wireError message) { link with reassembler }

namespace BleLink

def currentBoardBinding (link : BleLink L) : Option BoardSessionBinding :=
  match link.remoteHello,link.codec with
  | some hello,some codec => some ⟨hello.identity,hello.bootNonce,L.sessionId codec.codec⟩
  | _,_ => none

/-- The oldest event gives way to a new one, and is counted. -/
def publish (event : TransportEvent T) (link : BleLink L) : BleLink L :=
  if link.events.length = transportEventCapacity then
    { link with events := link.events.tail ++ [event], droppedEvents := link.droppedEvents+1 }
  else { link with events := link.events ++ [event] }

def resetSession (link : BleLink L) : BleLink L :=
  { link with
    remoteHello := none
    remoteLaneProfile := none
    pendingProvisioning := none
    pending := none
    codec := none
    reassembler := L.resetReassembler link.reassembler
    repairClose := none
    repairAckWrite := none
    repairAwaitingConfirmation := none
    repairDeadline := none
    nextMessageId := 0
    negotiatedRepairFrameBytes := link.localLaneProfile.maxRepairFrameBytes.toNat
    facts := {} }

/-- The attempt to reach the board is over; the hello stays until the next link. -/
def fail (text : String) (link : BleLink L) : BleLink L :=
  let link := publish (.diagnostic text) (publish (.boardLink .failed) { link with
    pending := none
    codec := none
    remoteLaneProfile := none
    pendingProvisioning := none
    repairClose := none
    repairAckWrite := none
    repairAwaitingConfirmation := none
    repairDeadline := none
    reassembler := L.resetReassembler link.reassembler
    scanRequested := false
    connectPending := false
    linkConnected := false })
  match L.disconnect link.host with
  | .ok () host => { link with desiredAddress := none, host }
  | .error _ host => { link with desiredAddress := none, host }

def abandonRepair (link : BleLink L) : BleLink L :=
  { link with
    repairClose := none
    repairAckWrite := none
    repairAwaitingConfirmation := none
    repairDeadline := none }

end BleLink

open BleLink

def report (event : TransportEvent T) : LinkM L Unit := modify (publish event)

/-- What the repair must not lose is refused by a full queue. -/
def publishRepair (event : TransportEvent T) : LinkM L Unit := do
  stopIf ((← get).events.length = transportEventCapacity) (.queueFull "BLE transport events")
  modify fun link => { link with events := link.events ++ [event] }

def onCodec (missing : BridgeError) (program : EStateM String L.Codec α) : LinkM L α := fun link =>
  match link.codec with
  | none => .error missing link
  | some codec =>
    match program codec.codec with
    | .ok value after =>
      .ok value { link with codec := some { codec with codec := after } }
    | .error message after =>
      .error (wireError message) { link with codec := some { codec with codec := after } }

/-- A message of the authenticated session passed, one way or the other. -/
def exchanges : LinkM L Unit :=
  modify fun link =>
    match link.codec with
    | none => link
    | some codec => { link with exchanged := link.exchanged ++ [⟨codec.peer,link.trusted⟩] }

def onClose (program : EStateM String L.RepairCloseState α) : LinkM L α := fun link =>
  match link.repairClose with
  | none => .error (.transport "repair close remains active") link
  | some attempt =>
    match program attempt.close with
    | .ok value close => .ok value { link with repairClose := some { attempt with close } }
    | .error message close =>
      .error (.transport message) { link with repairClose := some { attempt with close } }

def sendWireTracked (wire : Bytes) (priority : BleWritePriority) : LinkM L UInt16 := do
  let remote ← orElse (← get).remoteHello (.transport "cannot send before the board hello")
  let messageId := (← get).nextMessageId
  modify fun link => { link with nextMessageId := link.nextMessageId+1 }
  let valueBytes := remote.maxFragmentValueBytes.toNat
  match L.fragments messageId wire valueBytes with
  | .error message => throw (bleError (.operation message))
  | .ok () =>
    onHost (L.writeRxMessage { messageId, wire, valueBytes, priority })
    return messageId

def sendWire (wire : Bytes) (priority : BleWritePriority) : LinkM L Unit := do
  let _ ← sendWireTracked wire priority

def sendAuthenticatedTrackedWithPriority (lane : Lane) (payload : Bytes)
    (priority : BleWritePriority) : LinkM L (UInt64 × UInt16) := do
  stopIf ((← get).remoteLaneProfile = none ∧ lane ≠ .control)
    (.unavailable "BLE lanes are not compatible and ready")
  let encoded ← onCodec (.unavailable "BLE session is not authenticated") (L.encode lane payload)
  exchanges
  let messageId ← sendWireTracked encoded.2 priority
  return (encoded.1,messageId)

def sendAuthenticatedTracked (lane : Lane) (payload : Bytes) : LinkM L (UInt64 × UInt16) :=
  sendAuthenticatedTrackedWithPriority lane payload lane.priority

def sendAuthenticated (lane : Lane) (payload : Bytes) : LinkM L Unit := do
  let _ ← sendAuthenticatedTracked lane payload

def sendRoundTable (frame : T.RoundTableFrame) : LinkM L Unit := do
  let encoded ← orFail (L.encodeRoundTable frame)
  sendAuthenticated .realtime encoded

/-- The carrier's attempt begins with the first frame of the room's. -/
def openCarrier (binding : BoardSessionBinding) (frame : Bytes) : LinkM L Unit := do
  if (← get).repairClose.isNone then
    modify fun link => { link with
      repairAwaitingConfirmation := none
      repairClose := some {
        binding
        close := L.newClose (L.repairAttemptId binding.sessionId frame)
        number := link.carriers }
      carriers := link.carriers+1
      repairDeadline := some (link.now+repairCloseTimeout) }
    report (.boardLink .repairing)

/-- The frame left for the board inside the carrier's attempt. -/
def carries (frame : Traced Bytes) : LinkM L Unit :=
  modify fun link =>
    match link.repairClose with
    | none => link
    | some attempt => { link with carried := link.carried ++ [(attempt.number,frame)] }

def sendBoardRepairFrame (binding : BoardSessionBinding) (frame : Traced Bytes) :
    LinkM L Unit := do
  stopIf ((← get).currentBoardBinding ≠ some binding)
    (.transport "repair frame belongs to a stale board placement")
  let limit := (← get).negotiatedRepairFrameBytes
  stopIf (limit < frame.value.length) (.transport
    s!"BLE repair frame is {frame.value.length} bytes; negotiated limit is {limit}")
  openCarrier binding frame.value
  stopIf ((← get).repairClose.any fun attempt => attempt.binding ≠ binding)
    (.transport "another board repair attempt is still active")
  let sent ← sendAuthenticatedTracked .hhhsRepair frame.value
  carries frame
  onClose (L.observeLocalRepair sent.1)

def maybeSendRepairAck : LinkM L Unit := do
  match (← get).repairClose with
  | none => pure ()
  | some attempt =>
    if L.remoteAckPending attempt.close then
      let ack ← orFail (L.remoteAck attempt.close)
      let sent ← sendAuthenticatedTracked .control (L.encodeAck ack)
      onClose (L.observeRemoteAckEncoded sent.1)
      modify fun link => { link with repairAckWrite := some (sent.2,sent.1) }

def maybePublishRepairClosed : LinkM L Unit := do
  match (← get).repairClose with
  | none => pure ()
  | some attempt =>
    if L.isConfirmedClosed attempt.close then
      modify fun link => { link with
        repairClose := none
        repairAckWrite := none
        repairAwaitingConfirmation := some attempt.binding
        facts := { link.facts with closed := link.facts.closed ++ [attempt.binding] } }
      report (.boardRepairCarrierClosed attempt.binding)

/-- FIN goes out in the repair's queue, behind the frames that it counts. -/
def sendFin (close : L.RepairCloseState) : LinkM L Unit := do
  if L.localFinPending close then
    let fin ← orFail (L.localFin close)
    let sent ← sendAuthenticatedTrackedWithPriority .control (L.encodeFin fin) .repair
    onClose (L.observeLocalFinEncoded sent.1)

def finishBoardRepair (binding : BoardSessionBinding) : LinkM L Unit := do
  let attempt ← orElse (← get).repairClose (.unavailable "no board repair attempt is active")
  stopIf (attempt.binding ≠ binding)
    (.transport "repair terminal outcome belongs to a stale board placement")
  onClose (modify L.markLocalTerminal)
  sendFin (L.markLocalTerminal attempt.close)
  maybeSendRepairAck
  maybePublishRepairClosed

def handleRepairControl (observe : EStateM String L.RepairCloseState Unit) : LinkM L Unit := do
  let _ ← orElse (← get).repairClose
    (.transport "repair lifecycle control arrived without an active attempt")
  onClose observe
  maybeSendRepairAck
  maybePublishRepairClosed

def sendCapabilityBundle (binding : BoardSessionBinding) (bundle : Traced Bytes) :
    LinkM L Unit := do
  stopIf ((← get).currentBoardBinding ≠ some binding)
    (.transport "capability bundle belongs to a stale board placement")
  stopIf ((← get).remoteLaneProfile = none)
    (.unavailable "board profile is not established for provisioning")
  let receiver ← orFail (L.expectedReceiver bundle.value)
  stopIf (receiver ≠ binding.identity)
    (.transport "capability bundle receiver differs from the authenticated board")
  let digest := L.digestOf bundle.value
  match (← get).pendingProvisioning with
  | some waiting =>
    stopIf (waiting.value ≠ (binding,digest))
      (.transport "another capability bundle is already pending for this session")
  | none =>
    let control ← orFail (L.encodeBundle bundle.value)
    sendAuthenticated .control control
    modify fun link => { link with
      pendingProvisioning := some ⟨(binding,digest),bundle.origin⟩ }

/-- A selected board that is not on its way is looked for again. -/
def resumeDesiredConnection : LinkM L Unit := do
  let link ← get
  if link.desiredAddress.isSome ∧ ¬ link.scanRequested ∧ ¬ link.connectPending ∧
      ¬ link.linkConnected then
    match L.startScan link.host with
    | .ok () host =>
      modify fun link => { link with host, scanRequested := true }
      report (.boardLink .discovering)
    | .error error host =>
      modify fun link => { link with host }
      report (.diagnostic (bleError error).text)

def beginAuthentication : LinkM L Unit := do
  stopIf (¬ (← get).linkConnected)
    (.transport
      "cannot authenticate before the BLE connected event establishes fragmentation")
  let remote ← orElse (← get).remoteHello (.transport "board hello has not been received")
  stopIf (L.supportsRealtime remote = false)
    (.transport "board does not advertise the realtime lane")
  sendWire (L.encodeHello (← get).localHello) .control
  let link ← get
  let (pending,offer) := L.beginInitiator link.signingKey link.localHello remote link.draws
  modify fun link => { link with pending := some pending, draws := link.draws+1 }
  sendWire offer .control
  report (.boardLink .authenticating)

def continueAfterHello (hello : PeerHello) : LinkM L Unit := do
  if hello.identity ∈ (← get).trusted then
    modify fun link => { link with trustCandidate := none }
    beginAuthentication
  else
    modify fun link => { link with trustCandidate := some hello.identity }
    report (.trustRequired hello)

def handleInfo (bytes : Bytes) : LinkM L Unit := do
  let hello ← orFail (L.decodeHello bytes)
  let link ← get
  if link.remoteHello = some hello then pure ()
  else
    stopIf (link.remoteHello.isSome ∨ link.pending.isSome ∨ link.codec.isSome)
      (.transport "board identity or boot hello changed during a connection")
    modify fun link => { link with remoteHello := some hello }
    -- before `connected` the hello only waits
    if link.linkConnected then continueAfterHello hello

def handleRemoteProfile (profile : LaneProfile) : LinkM L Unit := do
  let link ← get
  if link.remoteLaneProfile = some profile then pure ()
  else
    stopIf link.remoteLaneProfile.isSome
      (.transport "board changed its protocol profile within one session")
    let remote := profile.protocolProfile
    report (.remoteProfile remote)
    let remoteGeneration := L.realtimeGeneration profile.capabilities
    if remote.capabilities &&& L.capRealtime ≠ 0 ∧ remoteGeneration ≠ L.wireGeneration then
      report (.boardLink .refused)
      report (.diagnostic
        s!"realtime wire generation differs (local {L.wireGeneration}, remote {remoteGeneration})")
    else
      match link.localProfile.checkCompatible L remote with
      | some reason =>
        report (.boardLink .refused)
        report (.diagnostic reason.text)
      | none =>
        let ours := link.localLaneProfile.maxReplicaRecordBytes
        let theirs := profile.maxReplicaRecordBytes
        if theirs ≠ ours then
          report (.boardLink .refused)
          report (.diagnostic
            s!"music record admission ceiling differs (local {ours}, remote {theirs})")
        else
          let negotiated := min profile.maxAuthenticatedPayloadBytes.toNat
            link.localLaneProfile.maxAuthenticatedPayloadBytes.toNat
          onCodec (.transport "profile arrived before authentication")
            (L.restrictPayload negotiated)
          let ceiling ← orElse (L.completeWireCeiling negotiated)
            (.transport "negotiated BLE wire ceiling overflow")
          let budget ← orFail (L.reassemblyBudget ceiling 3 (ceiling*3))
          onReassembler (L.restrictBudget budget)
          modify fun link => { link with
            negotiatedRepairFrameBytes := min (min profile.maxRepairFrameBytes.toNat
              link.localLaneProfile.maxRepairFrameBytes.toNat) negotiated
            remoteLaneProfile := some profile }
          let binding ← orElse (← get).currentBoardBinding
            (.transport "profile established without an authenticated placement")
          report (.boardProvisioningRequired binding)

def handleCapabilityReady (bundleDigest : Digest) : LinkM L Unit := do
  let waiting ← orElse (← get).pendingProvisioning
    (.transport "board acknowledged capability provisioning without a pending bundle")
  stopIf ((← get).currentBoardBinding ≠ some waiting.value.1 ∨ bundleDigest ≠ waiting.value.2)
    (.transport "board capability acknowledgement is stale or names another bundle")
  modify fun link => { link with
    pendingProvisioning := none
    facts := { link.facts with
      acknowledged := link.facts.acknowledged ++ [⟨waiting.value.1,waiting.origin⟩] } }
  report (.boardProvisioned waiting.value.1)
  report (.boardLink .repairing)

def handleRemoteControl (sequence : UInt64) (bytes : Bytes) : LinkM L Unit := do
  match ← orFail (L.decodeControl bytes) with
  | .profile profile => handleRemoteProfile profile
  | .capabilityBundle _ =>
    throw (.transport "board sent a capability bundle to the provisioning host")
  | .repairFin fin => handleRepairControl (L.observeRemoteFin fin sequence)
  | .repairAck ack => handleRepairControl (L.observeLocalFinAck ack)
  | .capabilityReady bundleDigest => handleCapabilityReady bundleDigest

def handleRealtime (bytes : Bytes) : LinkM L Unit := do
  stopIf ((← get).remoteLaneProfile = none)
    (.transport "realtime payload arrived before profile agreement")
  match ← orFail (L.decodeRealtime bytes) with
  | .midi midi => report (.midi midi)
  | .roundTable frame => report (.roundTable frame)

def handleRepairFrame (sequence : UInt64) (frame : Bytes) : LinkM L Unit := do
  let link ← get
  stopIf (¬ link.remoteHello.any L.supportsRepair)
    (.transport "peer sent HHHS repair without advertising a repair driver")
  stopIf (link.remoteLaneProfile = none)
    (.transport "repair frame arrived before profile agreement")
  let limit := link.negotiatedRepairFrameBytes
  stopIf (limit < frame.length) (.transport
    s!"received BLE repair frame of {frame.length} bytes; negotiated limit is {limit}")
  let binding ← orElse link.currentBoardBinding
    (.transport "repair frame has no authenticated board placement")
  let attempt ← orElse link.repairClose
    (.transport "board sent repair before the room opened an attempt")
  stopIf (attempt.binding ≠ binding)
    (.transport "repair frame belongs to a stale board placement")
  onClose (L.observeRemoteRepair sequence)
  publishRepair (.boardRepairInbound binding frame)
  maybeSendRepairAck

def completeHandshake (pending : L.Pending) (wire : Bytes) : LinkM L Unit := do
  modify fun link => { link with pending := none }
  let remote ← orElse (← get).remoteHello (.transport "answer arrived before the board hello")
  let answer ← orFail (L.decodeAnswer wire)
  let keys ← orFail (L.complete pending answer remote.identity)
  let codec ← orFail
    (L.newCodec keys (← get).localLaneProfile.maxAuthenticatedPayloadBytes.toNat)
  modify fun link => { link with
    codec := some ⟨codec,remote.identity⟩
    placements := link.placements ++ [⟨remote.identity,remote.bootNonce,L.sessionId codec⟩] }
  report (.boardLink .repairing)
  sendAuthenticated .control (L.encodeProfile (← get).localLaneProfile)

def handleWire (wire : Bytes) : LinkM L Unit := do
  match (← get).pending with
  | some pending => completeHandshake pending wire
  | none =>
    let message ← onCodec (.transport "unexpected pre-session notification") (L.decode wire)
    exchanges
    match message.lane with
    | .control => handleRemoteControl message.sequence message.payload
    | .realtime => handleRealtime message.payload
    | .hhhsRepair => handleRepairFrame message.sequence message.payload

def handleNotification (bytes : Bytes) : LinkM L Unit := do
  match ← onReassembler (L.push bytes) with
  | none => pure ()
  | some wire => handleWire wire

/-- A board that is being looked for was seen. -/
def handleScanResult (result : BleScanResult) : LinkM L Unit := do
  let link ← get
  report (.boardDiscovered result)
  if ¬ link.connectPending ∧ link.desiredAddress = some result.address then
    modify fun link => { link with scanRequested := false }
    onHost (L.connect result.address)
    modify fun link => { link with connectPending := true }
    report (.boardLink .connecting)

def continueEarly : Option PeerHello → LinkM L Unit
  | none => pure ()
  | some hello => continueAfterHello hello

/-- A hello that came before the link was up is kept. -/
def handleConnected (maxFragmentValueBytes : UInt16) : LinkM L Unit := do
  let earlyHello := (← get).remoteHello
  modify fun link => { link.resetSession with
    remoteHello := earlyHello
    scanRequested := false
    connectPending := false
    linkConnected := true }
  stopIf (maxFragmentValueBytes.toNat < L.minFragmentValueBytes)
    (.transport s!"negotiated GATT value is {maxFragmentValueBytes} bytes")
  modify fun link => { link with
    localHello := { link.localHello with maxFragmentValueBytes } }
  report (.boardLink .authenticating)
  continueEarly earlyHello

def handleDisconnected (reason : Option String) : LinkM L Unit := do
  modify fun link => { resetSession link with
    scanRequested := false
    linkConnected := false
    connectPending := false }
  report (.boardLink .offline)
  match reason with
  | none => pure ()
  | some reason => report (.diagnostic reason)
  resumeDesiredConnection

/-- Only the write of the repair's last acknowledgement matters. -/
def handleWriteComplete (messageId : UInt16) : LinkM L Unit := do
  match (← get).repairAckWrite with
  | none => pure ()
  | some (expected,sequence) =>
    if messageId = expected then
      let _ ← orElse (← get).repairClose
        (.transport "repair ACK completed after attempt abandonment")
      onClose (L.confirmRemoteAckSent sequence)
      modify fun link => { link with repairAckWrite := none }
      maybePublishRepairClosed

def tryHostEvent : BleHostEvent → LinkM L Unit
  | .scanResult result => handleScanResult result
  | .connected _ maxFragmentValueBytes => handleConnected maxFragmentValueBytes
  | .disconnected _ reason => handleDisconnected reason
  | .info bytes => handleInfo bytes
  | .notification bytes => handleNotification bytes
  | .writeComplete messageId => handleWriteComplete messageId
  | .diagnostic text => report (.diagnostic text)
  | .permissionDenied => throw (bleError .permissionDenied)
  | .eventsDropped count =>
    throw (.transport s!"desktop BLE event queue dropped {count} values")
  | .error error => throw (bleError error)

/-- Whatever goes wrong ends the attempt to reach the board. -/
def handleHostEvent (event : BleHostEvent) (link : BleLink L) : BleLink L :=
  match tryHostEvent event link with
  | .ok () link => link
  | .error error link => link.fail error.text

namespace BleLink

def takeEvent (link : BleLink L) : Option (TransportEvent T) × BleLink L :=
  (link.events.head?,{ link with events := link.events.tail })

/-- At most so many events of the host are handled before one of the session's is there. -/
def pollLoop : Nat → BleLink L → Option (TransportEvent T) × BleLink L
  | 0,link => link.takeEvent
  | rounds+1,link =>
    match link.events with
    | event :: events => (some event,{ link with events })
    | [] =>
      match L.pollHost link.host with
      | (none,host) => (none,{ link with host })
      | (some event,host) => pollLoop rounds (handleHostEvent event { link with host })

/-- An attempt that does not close in time is given up. -/
def checkDeadline (link : BleLink L) : BleLink L :=
  if link.repairDeadline.any fun deadline => deadline ≤ link.now then
    link.fail s!"board HHHS repair did not close within {repairCloseTimeout} seconds"
  else link

def pollEvent (link : BleLink L) : Option (TransportEvent T) × BleLink L :=
  let link := link.checkDeadline
  if link.droppedEvents ≠ 0 then
    (some (.diagnostic s!"BLE transport event queue dropped {link.droppedEvents} values"),
      { link with droppedEvents := 0 })
  else link.pollLoop 64

end BleLink

def startBoardScan : LinkM L Unit := do
  let link ← get
  if link.scanRequested ∨ link.connectPending ∨ link.linkConnected then pure ()
  else
    onHost L.startScan
    modify fun link => { link with scanRequested := true }
    report (.boardLink .discovering)

def connectBoard (address : BleAddress) : LinkM L Unit := do
  let link ← get
  if link.desiredAddress = some address ∧ (link.connectPending ∨ link.linkConnected) then pure ()
  else
    modify fun link => resetSession { link with
      desiredAddress := some address
      scanRequested := false
      connectPending := true
      linkConnected := false
      trustCandidate := none }
    let host := (← get).host
    match L.connect address host with
    | .ok () host =>
      modify fun link => { link with host }
      report (.boardLink .connecting)
    | .error error host =>
      modify fun link => { link with host, connectPending := false }
      throw (bleError error)

def disconnectBoard : LinkM L Unit := do
  modify fun link => { link with
    desiredAddress := none
    scanRequested := false
    connectPending := false
    linkConnected := false
    trustCandidate := none }
  onHost L.disconnect

def reportTrusted : LinkM L Unit := do
  report (.trustedBoards (min (← get).trusted.card (2^32-1)))

def trustBoard (identity : Digest) : LinkM L Unit := do
  let link ← get
  if identity ∈ link.trusted then
    match link.remoteHello with
    | none => pure ()
    | some hello =>
      stopIf (hello.identity ≠ identity)
        (.transport "trust decision does not match the connected board")
      if link.pending.isNone ∧ link.codec.isNone ∧ link.linkConnected then beginAuthentication
  else
    let observed := (link.remoteHello.map PeerHello.identity).or link.trustCandidate
    stopIf (observed ≠ some identity)
      (.transport "trust decision does not match a board identity shown by this session")
    modify fun link => { link with trusted := insert identity link.trusted, trustCandidate := none }
    reportTrusted
    if link.remoteHello.isSome ∧ link.linkConnected then beginAuthentication
    else if link.remoteHello.isNone then resumeDesiredConnection

def forgetBoard (identity : Digest) : LinkM L Unit := do
  modify fun link => { link with trusted := link.trusted.erase identity }
  reportTrusted

def completeBoardRepair (binding : Traced BoardSessionBinding) : LinkM L Unit := do
  let link ← get
  stopIf (link.currentBoardBinding ≠ some binding.value ∨
      link.repairAwaitingConfirmation ≠ some binding.value)
    (.transport "repair completion belongs to an unconfirmed or stale board attempt")
  modify fun link => { link with
    repairAwaitingConfirmation := none
    repairDeadline := none
    readied := link.readied ++ [⟨binding,link.facts⟩] }
  report (.boardLink .ready)

def abortBoardRepair (binding : BoardSessionBinding) : LinkM L Unit := do
  if (← get).currentBoardBinding = some binding then
    modify fun link => link.abandonRepair.fail "board HHHS repair attempt was abandoned"

def configureBle (identitySeed : Digest) (trustedBoards : List Digest) : LinkM L Unit := do
  let link ← get
  stopIf (link.remoteHello.isSome ∨ link.pending.isSome ∨ link.codec.isSome)
    (.transport "cannot replace BLE identity or trust while connected")
  modify fun link => { link with
    signingKey := identitySeed
    localHello := { link.localHello with
      identity := L.publicIdentity identitySeed
      bootNonce := L.random link.draws }
    draws := link.draws+1
    trusted := trustedBoards.toFinset
    trustCandidate := none }
  reportTrusted

def handleLinkCommand : BridgeCommand T → LinkM L Unit
  | .startBoardScan => startBoardScan
  | .connectBoard address => connectBoard address
  | .disconnectBoard => disconnectBoard
  | .trustBoard identity => trustBoard identity
  | .forgetBoard identity => forgetBoard identity
  | .sendBoardCapabilityBundle binding bundle => sendCapabilityBundle binding bundle
  | .sendBoardRepairFrame binding frame => sendBoardRepairFrame binding frame
  | .finishBoardRepair binding => finishBoardRepair binding
  | .completeBoardRepair binding => completeBoardRepair binding
  | .abortBoardRepair binding => abortBoardRepair binding
  | .sendBoardRoundTable frame => sendRoundTable frame
  | .configureBle identitySeed trustedBoards => configureBle identitySeed trustedBoards
  | _ => throw (.unavailable "native Iroh bridge is not enabled in this adapter")

def sendLinkRealtime (midi : T.Midi) : LinkM L Unit := do
  let encoded ← orFail (L.encodeMidi midi)
  sendAuthenticated .realtime encoded

namespace BleLink

def new (host : L.Host) (config : BleLinkConfig) : Except BridgeError (BleLink L) := do
  config.validate L
  let localLaneProfile ←
    laneProfile L config.localProfile config.maxPayloadBytes config.maxRepairFrameBytes
  match (L.completeWireCeiling config.maxPayloadBytes).filter (· ≤ L.hardMaxWireBytes) with
  | none => throw (.transport "BLE complete-wire ceiling is invalid")
  | some ceiling =>
    match L.reassemblyBudget ceiling 3 (ceiling*3) with
    | .error message => throw (wireError message)
    | .ok budget =>
      match L.newReassembler budget with
      | .error message => throw (wireError message)
      | .ok reassembler => return {
          host
          trusted := config.trustedBoards.toFinset
          signingKey := config.identitySeed
          localHello := {
            identity := L.publicIdentity config.identitySeed
            bootNonce := L.random 0
            maxFragmentValueBytes := .ofNat L.minFragmentValueBytes
            capabilities := L.localCapabilities }
          localProfile := config.localProfile
          localLaneProfile
          reassembler
          negotiatedRepairFrameBytes := config.maxRepairFrameBytes
          draws := 1 }

def shutdown (link : BleLink L) : BleLink L :=
  let host := match L.stopScan link.host with
    | .ok () host | .error _ host => host
  let host := match L.disconnect host with
    | .ok () host | .error _ host => host
  resetSession { link with
    desiredAddress := none
    scanRequested := false
    connectPending := false
    linkConnected := false
    host }

end BleLink

/-- The session as the board's leg of the router. -/
def boardLeg (L : BleLibrary T) : BridgeTransport T (BleLink L) where
  start := reportTrusted
  handleCommand := handleLinkCommand
  sendRealtime := sendLinkRealtime
  pollEvent := pollEvent
  shutdown := shutdown

end WalkieSongie.Carrier
