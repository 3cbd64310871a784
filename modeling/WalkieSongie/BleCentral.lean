import WalkieSongie.BleLibrary
import WalkieSongie.BoundedQueue
import WalkieSongie.TaskProgram
set_option autoImplicit false

/-!
The central of the desktop's BLE host: one thread that owns the adapter, the discovery, one
connection and its transmit queues, and asks the operating system.
-/

namespace WalkieSongie.Ble
open Carrier (BleAddress BleScanResult BleHostError BleHostEvent)
open TaskProgram (attempt refuseIf)

def commandCapacity : Nat := 32
def eventCapacity : Nat := 256

/-- Times are in milliseconds. -/
def connectRediscoveryTimeout : Nat := 35000
def disconnectSettleTimeout : Nat := 2000
def conservativeGattValueBytes : UInt16 := 20

/-! ### The operating system -/

inductive OsErrorKind where
  | permissionDenied
  | notConnected
  | deviceNotFound
  | other
  deriving DecidableEq

structure OsError where
  kind : OsErrorKind
  text : String
  deriving DecidableEq

structure CharPropFlags where
  read : Bool := false
  write : Bool := false
  writeWithoutResponse : Bool := false
  notify : Bool := false
  indicate : Bool := false
  deriving DecidableEq

structure Characteristic where
  serviceUuid : Nat
  uuid : Nat
  properties : CharPropFlags
  deriving DecidableEq

structure PeripheralProperties where
  services : List Nat
  localName : Option String
  advertisementName : Option String
  rssi : Option Int

inductive WriteType where
  | withResponse
  | withoutResponse
  deriving DecidableEq

/-- What is asked of the operating system. An adapter is named by a number, a new one each time that
it is opened. -/
inductive OsCall where
  | openAdapter
  | startScan (adapter : Nat)
  | stopScan (adapter : Nat)
  | peripherals (adapter : Nat)
  | properties (address : BleAddress)
  | isConnected (address : BleAddress)
  | connect (address : BleAddress)
  | disconnect (address : BleAddress)
  | discoverServices (address : BleAddress)
  | characteristics (address : BleAddress)
  | openNotifications (address : BleAddress)
  | subscribe (address : BleAddress) (uuid : Nat)
  | read (address : BleAddress) (uuid : Nat)
  | write (address : BleAddress) (uuid : Nat) (value : List UInt8) (writeType : WriteType)
  | spawnListener (address : BleAddress)
  | abortListener (address : BleAddress)
  | sleep (milliseconds : Nat)
  deriving DecidableEq

abbrev OsCall.Answer : OsCall → Type
  /- Whether there is an adapter. -/
  | openAdapter => Except OsError Bool
  | startScan _ | stopScan _ | connect _ | disconnect _ | discoverServices _ | openNotifications _
  | subscribe _ _ | write _ _ _ _ => Except OsError Unit
  | peripherals _ => Except OsError (List BleAddress)
  | properties _ => Except OsError (Option PeripheralProperties)
  | isConnected _ => Except OsError Bool
  | characteristics _ => List Characteristic
  | read _ _ => Except OsError (List UInt8)
  | spawnListener _ | abortListener _ | sleep _ => Unit

abbrev OsRecord := (call : OsCall) × call.Answer

/-- The operating system answers in the light of all that it was asked before; a call takes time. -/
structure Os where
  answer : List OsRecord → (call : OsCall) → call.Answer
  delay : List OsRecord → OsCall → Nat

structure GattProfile where
  service : Nat
  rx : Nat
  tx : Nat
  info : Nat

/-! ### The state of the driver -/

structure Connection where
  address : BleAddress
  rx : Characteristic
  writeType : WriteType
  maxFragmentValueBytes : UInt16
  initialInfo : Option (List UInt8)

structure PendingConnect where
  address : BleAddress
  deadline : Nat
  lastIssue : Option String := none

inductive ScanState where
  | idle
  /-- Discovery was started by this driver and may be stopped by it. -/
  | owned
  /-- Another client was discovering already. -/
  | adopted
  deriving DecidableEq

def ScanState.isActive (state : ScanState) : Bool := state ≠ .idle

inductive DriverCommand where
  | startScan
  | stopScan
  | connect (address : BleAddress)
  | disconnect
  /-- The message's reservation is the first of those that wait. -/
  | writeMessage
  | shutdown
  deriving DecidableEq

/-- What reaches the queue to the host, or leaves it, by another thread or task than the
driver's. -/
inductive Meanwhile where
  | poll
  | info (bytes : List UInt8)
  | notification (bytes : List UInt8)

/-- What does not change: the operating system, the others at the queue to the host, by what was
sent so far, and the crates that fragment and name the service; `train` tells which fragments a
message comes to. -/
structure Platform (L : FragmentLibrary) where
  os : Os
  meanwhile : List BleHostEvent → List Meanwhile := fun _ => []
  profile : GattProfile
  maxTxRetainedBytes : Nat
  train : BleWriteMessage → List (List UInt8)

/-- The driver, its two queues to the host, and logs of what was asked and sent. -/
structure Central (L : FragmentLibrary) where
  platform : Platform L
  running : Bool := true
  adapter : Nat := 0
  scanState : ScanState := .idle
  reported : List BleAddress := []
  connection : Option Connection := none
  pendingConnect : Option PendingConnect := none
  tx : TxRun L := {}
  clock : Nat := 0
  calls : List OsRecord := []
  commands : BoundedQueue DriverCommand := .empty commandCapacity
  events : BoundedQueue BleHostEvent := .empty eventCapacity
  dropped : Nat := 0
  /-- The host asked the driver to stop, and is gone. -/
  shutdown : Bool := false
  sent : List BleHostEvent := []
  polled : List BleHostEvent := []

namespace Central

variable {L : FragmentLibrary} {ε : Type}

abbrev CentralM (L : FragmentLibrary) := EStateM BleHostError (Central L)

/-- The driver's loop gives every error to the host. -/
abbrev LoopM (L : FragmentLibrary) := EStateM Empty (Central L)

def asked (central : Central L) (call : OsCall) (answer : call.Answer) : Central L :=
  let slept := match call with
    | .sleep milliseconds => milliseconds
    | _ => 0
  { central with
    calls := central.calls ++ [⟨call,answer⟩]
    clock := central.clock + slept + central.platform.os.delay central.calls call }

def ask (call : OsCall) : EStateM ε (Central L) call.Answer := fun central =>
  let answer := central.platform.os.answer central.calls call
  .ok answer (central.asked call answer)

/-- A stalled host loses events, which are counted. -/
def enqueue (central : Central L) (event : BleHostEvent) : Central L :=
  let central := { central with sent := central.sent ++ [event] }
  if central.shutdown then central
  else
    match central.events.push event with
    | some events => { central with events }
    | none => { central with dropped := central.dropped+1 }

def pollEvent (central : Central L) : Option BleHostEvent × Central L :=
  match central.events.pop with
  | some (event,events) => (some event,{ central with events, polled := central.polled ++ [event] })
  | none =>
    if central.dropped = 0 then (none,central)
    else (some (.eventsDropped central.dropped),{ central with
      dropped := 0
      polled := central.polled ++ [.eventsDropped central.dropped] })

/-- A host that is gone polls no more. -/
def during (central : Central L) : Meanwhile → Central L
  | .poll => if central.shutdown then central else central.pollEvent.2
  | .info bytes => central.enqueue (.info bytes)
  | .notification bytes => central.enqueue (.notification bytes)

/-- The driver queues an event. Others have been at the queue since it did so last; that they come
right before is no matter, as it looks at the queue nowhere else. -/
def sending (central : Central L) (event : BleHostEvent) : Central L :=
  ((central.platform.meanwhile central.sent).foldl during central).enqueue event

def sendEvent (event : BleHostEvent) : EStateM ε (Central L) Unit :=
  modify fun central => central.sending event

def sendHostError : BleHostError → EStateM ε (Central L) Unit
  | .permissionDenied => sendEvent .permissionDenied
  | error => sendEvent (.error error)

def operation (action : String) (error : OsError) : BleHostError :=
  if error.kind = .permissionDenied then .permissionDenied
  else .operation s!"{action}: {error.text}"

def operationError (action : String) (error : OsError) : EStateM ε (Central L) Unit :=
  sendHostError (operation action error)

/-- Ask, and fail where the operating system does; `result` is what it answers. -/
def asking {α : Type} (action : String) (call : OsCall) (result : call.Answer → Except OsError α) :
    CentralM L α := do
  match result (← ask call) with
  | .ok value => pure value
  | .error error => throw (operation action error)

def setTx (op : TxOp) : EStateM ε (Central L) Unit :=
  modify fun central => { central with
    tx := central.tx.step central.platform.maxTxRetainedBytes central.platform.train op }

/-! ### Discovery -/

def containsText (text pattern : String) : Bool :=
  text.toList.tails.any fun rest => pattern.toList.isPrefixOf rest

def asciiLowercase (text : String) : String := text.map Char.toLower

def scanAlreadyActive (error : OsError) : Bool :=
  let message := asciiLowercase error.text
  containsText message "operation already in progress" ||
    containsText message "org.bluez.error.inprogress"

def retryableConnectError : BleHostError → Bool
  | .operation message =>
    let message := asciiLowercase message
    containsText message "connect: timed out" || containsText message "device not found" ||
      containsText message "not connected" || containsText message "org.bluez.error.failed" ||
      containsText message "org.freedesktop.dbus.properties"
  | .permissionDenied | .unavailable _ => false

def setScan (scanState : ScanState) : EStateM ε (Central L) Unit :=
  modify fun central => { central with scanState }

def clearReported : EStateM ε (Central L) Unit :=
  modify fun central => { central with reported := [] }

/-- A discovery that is on already is only reported anew. -/
def ensureScanActive : CentralM L Unit := do
  let central ← get
  if central.scanState.isActive then clearReported
  else
    match ← ask (.startScan central.adapter) with
    | .ok () =>
      setScan .owned
      clearReported
    | .error error =>
      if scanAlreadyActive error then
        setScan .adopted
        clearReported
      else throw (operation "start scan" error)

def openAdapter : CentralM L Unit := do
  match ← ask .openAdapter with
  | .ok true => modify fun central => { central with adapter := central.adapter+1 }
  | .ok false => throw (.unavailable "no Bluetooth adapter was found")
  | .error error => throw (.unavailable error.text)

def reopenAdapterAndScan : CentralM L Unit := do
  openAdapter
  setScan .idle
  ensureScanActive

/-- Another client's discovery goes on. -/
def stopOwnedScan : CentralM L Unit := do
  let central ← get
  match central.scanState with
  | .idle => pure ()
  | .adopted => setScan .idle
  | .owned =>
    match ← ask (.stopScan central.adapter) with
    | .ok () => setScan .idle
    | .error error => throw (operation "stop scan" error)

/-- Advertisements are filtered again, and reported once. -/
def refreshPeripheral (address : BleAddress) : LoopM L Unit := do
  match ← ask (.properties address) with
  | .ok (some properties) =>
    let central ← get
    if central.platform.profile.service ∈ properties.services ∧ address ∉ central.reported then
      modify fun central => { central with reported := address :: central.reported }
      sendEvent (.scanResult ⟨address,properties.localName <|> properties.advertisementName,
        properties.rssi⟩)
    else pure ()
  | .ok none => pure ()
  | .error error =>
    sendEvent (.diagnostic s!"skipped a disappearing BLE advertisement: {error.text}")

def refreshScanResults : LoopM L Unit := do
  let central ← get
  match ← ask (.peripherals central.adapter) with
  | .ok peripherals => peripherals.forM refreshPeripheral
  | .error error => operationError "list peripherals" error

/-! ### A connection's setup -/

/-- A poll of a link that is to be down; another is made after 50 ms. -/
def polling (address : BleAddress) (action : String) (deadline : Nat) (again : CentralM L Unit) :
    CentralM L Unit := do
  match ← ask (.isConnected address) with
  | .ok false => pure ()
  | .ok true =>
    let central ← get
    if deadline ≤ central.clock then
      throw (.operation s!"{action}: link did not disconnect within 2s")
    else
      ask (.sleep 50)
      again
  | .error error =>
    if error.kind = .notConnected then pure () else throw (operation action error)

/-- The loop, for as many polls as there may be. -/
def settle (address : BleAddress) (action : String) (deadline : Nat) : Nat → CentralM L Unit
  | 0 => throw (.operation s!"{action}: link did not disconnect within 2s")
  | polls+1 => polling address action deadline (settle address action deadline polls)

/-- A poll is followed by a sleep of 50 ms, so there are at most this many. -/
def settlePolls : Nat := disconnectSettleTimeout/50+1

def disconnectLink (address : BleAddress) (action : String) : CentralM L Unit := do
  match ← ask (.disconnect address) with
  | .ok () => pure ()
  | .error error =>
    if error.kind = .notConnected then pure () else throw (operation action error)

def disconnectAndSettle (address : BleAddress) (action : String) : CentralM L Unit := do
  disconnectLink address action
  let central ← get
  settle address action (central.clock+disconnectSettleTimeout) settlePolls

def linkIsConnected (address : BleAddress) : CentralM L Bool := do
  match ← ask (.isConnected address) with
  | .ok connected => pure connected
  | .error _ => pure false

/-- A link that is up already is not inherited. -/
def resetConnected (address : BleAddress) : CentralM L Unit := do
  if ← linkIsConnected address then disconnectAndSettle address "reset existing connection"
  else pure ()

/-- A link that comes up late is taken. -/
def openLink (address : BleAddress) : CentralM L Unit := do
  match ← ask (.connect address) with
  | .ok () => pure ()
  | .error error =>
    if ← linkIsConnected address then pure ()
    else
      let _ ← attempt (disconnectAndSettle address "cancel failed connection")
      throw (operation "connect" error)

def ensureConnected (address : BleAddress) : CentralM L Unit := do
  resetConnected address
  openLink address

def findCharacteristic (profile : GattProfile) (uuid : Nat)
    (characteristics : List Characteristic) : Option Characteristic :=
  characteristics.find? fun characteristic =>
    characteristic.serviceUuid = profile.service && characteristic.uuid = uuid

def CharPropFlags.canNotify (properties : CharPropFlags) : Bool :=
  properties.notify || properties.indicate

/-- Writes that are acknowledged come first. -/
def selectWriteType (properties : CharPropFlags) : Except BleHostError WriteType :=
  if properties.write then .ok .withResponse
  else if properties.writeWithoutResponse then .ok .withoutResponse
  else .error (.operation "Tutti RX characteristic is not writable")

def infoReadIndicatesLinkLoss (readError : OsError) (connectionState : Except OsError Bool) :
    Bool :=
  let lost (error : OsError) := error.kind = .notConnected || error.kind = .deviceNotFound
  lost readError ||
    match connectionState with
    | .ok connected => !connected
    | .error error => lost error

/-- What was read of the info characteristic; none where the link was lost meanwhile. -/
def readInfo (address : BleAddress) (info : Characteristic) :
    CentralM L (Option (Option (List UInt8))) := do
  if info.properties.read then
    match ← ask (.read address info.uuid) with
    | .ok value => pure (some (some value))
    | .error error =>
      if infoReadIndicatesLinkLoss error (← ask (.isConnected address)) then pure none
      else
        sendEvent (.diagnostic
          s!"read INFO characteristic was unavailable ({error.text}); awaiting notification")
        pure (some none)
  else pure (some none)

def subscribeBoard (address : BleAddress) (rx tx info : Characteristic) :
    CentralM L (Option Connection) := do
  refuseIf (CharPropFlags.canNotify tx.properties = false)
    (BleHostError.operation "Tutti TX characteristic cannot notify")
  refuseIf (CharPropFlags.canNotify info.properties = false)
    (BleHostError.operation "Tutti INFO characteristic cannot notify")
  let writeType ← MonadExcept.ofExcept (selectWriteType rx.properties)
  asking "open notification stream" (.openNotifications address) id
  asking "subscribe TX characteristic" (.subscribe address tx.uuid) id
  asking "subscribe INFO characteristic" (.subscribe address info.uuid) id
  match ← readInfo address info with
  | none => pure none
  | some initialInfo =>
    ask (.spawnListener address)
    pure (some ⟨address,rx,writeType,conservativeGattValueBytes,initialInfo⟩)

/-- An incomplete cache of the service is not installed. -/
def prepareConnectedBoard (address : BleAddress) : CentralM L (Option Connection) := do
  asking "discover GATT services" (.discoverServices address) id
  let characteristics ← ask (.characteristics address)
  let profile := (← get).platform.profile
  match findCharacteristic profile profile.rx characteristics,
    findCharacteristic profile profile.tx characteristics,
    findCharacteristic profile profile.info characteristics with
  | some rx,some tx,some info => subscribeBoard address rx tx info
  | _,_,_ =>
    sendEvent (.diagnostic
      "Tutti GATT cache is incomplete; reacquiring the board service")
    pure none

def connectBoard (address : BleAddress) : CentralM L (Option Connection) := do
  ensureConnected address
  match ← attempt (prepareConnectedBoard address) with
  | .ok (some connection) => pure (some connection)
  | .ok none =>
    let _ ← attempt (disconnectAndSettle address "settle interrupted connection")
    pure none
  | .error error =>
    let _ ← attempt (disconnectAndSettle address "clean up failed connection")
    throw error

def findBoard (address : BleAddress) : CentralM L Bool := do
  let central ← get
  let peripherals ← asking "list peripherals" (.peripherals central.adapter) id
  pure (decide (address ∈ peripherals))

/-- A stop that fails is not reported. -/
def releaseScan : EStateM ε (Central L) Unit := do
  let central ← get
  if central.scanState = .owned then
    let _ ← ask (.stopScan central.adapter)
    pure ()
  else pure ()

/-- Discovery stays on while a connection is set up, and is released after. -/
def tryConnectVisible (address : BleAddress) : CentralM L (Option Connection) := do
  if ← findBoard address then
    match ← connectBoard address with
    | some connection =>
      releaseScan
      setScan .idle
      pure (some connection)
    | none => pure none
  else pure none

/-! ### The loop -/

def reporting (program : CentralM L Unit) : LoopM L Unit := do
  match ← attempt program with
  | .ok () => pure ()
  | .error error => sendHostError error

def disconnectCurrent (reason : Option String) : LoopM L Unit := do
  let central ← get
  match central.connection with
  | none => pure ()
  | some active =>
    set { central with connection := none }
    ask (.abortListener active.address)
    reporting do
      asking "disconnect" (.disconnect active.address) id
    sendEvent (.disconnected active.address reason)

/-- The host learns of the connection before it learns of its info. -/
def installConnection (connection : Connection) : LoopM L Unit := do
  sendEvent (.connected connection.address connection.maxFragmentValueBytes)
  connection.initialInfo.forM fun info => sendEvent (.info info)
  modify fun central => { central with connection := some { connection with initialInfo := none } }

def setPending (pendingConnect : Option PendingConnect) : EStateM ε (Central L) Unit :=
  modify fun central => { central with pendingConnect }

/-- An error ends the connect that is pending. -/
def pendingOn (program : CentralM L Unit) : LoopM L Unit := do
  match ← attempt program with
  | .ok () => pure ()
  | .error error =>
    setPending none
    sendHostError error

/-- One try of the connect that is pending; `gone` is done where the board is not visible. -/
def tryPending (address : BleAddress) (gone : LoopM L Unit) : LoopM L Unit := do
  match ← attempt (tryConnectVisible address) with
  | .ok (some connection) =>
    setPending none
    installConnection connection
    setTx .freshConnection
  | .ok none => gone
  | .error error =>
    if retryableConnectError error then
      modify fun central => { central with
        pendingConnect := central.pendingConnect.map fun pending =>
          { pending with lastIssue := some error.text } }
      sendEvent (.diagnostic s!"{error.text}; continuing bounded board discovery")
      pendingOn reopenAdapterAndScan
    else
      setPending none
      sendHostError error

def handleCommand : DriverCommand → LoopM L Unit
  | .startScan => reporting ensureScanActive
  | .stopScan => do
    if (← get).pendingConnect.isNone then reporting stopOwnedScan else pure ()
  | .connect address => do
    setTx .fault
    disconnectCurrent none
    setPending (some ⟨address,(← get).clock+connectRediscoveryTimeout,none⟩)
    tryPending address (pendingOn ensureScanActive)
  | .disconnect => do
    setTx .fault
    setPending none
    reporting stopOwnedScan
    disconnectCurrent none
  | .writeMessage => do
    let central ← get
    if central.connection.isNone then
      setTx (.discard 0)
      sendHostError (.operation "cannot write: no board is connected")
    else
      setTx (.enqueue 0)
      match central.tx.driver.waiting.head? with
      | none => pure ()
      | some reserved =>
        match (central.tx.driver.enqueue reserved).1 with
        | .ok () => pure ()
        | .error error => sendHostError (.operation error)
  | .shutdown => pure ()

/-- One fragment is written; an error faults the stream. -/
def transmit : LoopM L Unit := do
  let central ← get
  setTx .prepareNext
  match central.connection,central.tx.driver.tx.prepareNext.1 with
  | some active,.ok (some prepared) =>
    match ← ask (.write active.address active.rx.uuid prepared.value active.writeType) with
    | .ok () =>
      let returned := (← get).tx.driver.confirmPending.1
      setTx .confirmPending
      returned.forM fun messageId => sendEvent (.writeComplete messageId)
    | .error error =>
      setTx .fault
      operationError "write RX characteristic" error
      disconnectCurrent (some "BLE TX write failed")
  | _,.error error =>
    setTx .fault
    sendHostError (.operation error)
    disconnectCurrent (some "BLE TX framing fault")
  | _,_ => pure ()

def expiredMessage (pending : PendingConnect) : String :=
  let message :=
    s!"connect: board {pending.address.text} did not reappear during 35s of BLE discovery"
  match pending.lastIssue with
  | some issue => s!"{message}; last issue: {issue}"
  | none => message

def tickPending : LoopM L Unit := do
  let central ← get
  match central.pendingConnect with
  | none => pure ()
  | some pending =>
    if pending.deadline ≤ central.clock then
      setPending none
      reporting stopOwnedScan
      sendHostError (.operation (expiredMessage pending))
    else tryPending pending.address (pure ())

def tickConnection : LoopM L Unit := do
  let central ← get
  match central.connection with
  | none => pure ()
  | some active =>
    match ← ask (.isConnected active.address) with
    | .ok true => pure ()
    | .ok false =>
      setTx .fault
      ask (.abortListener active.address)
      modify fun central => { central with connection := none }
      sendEvent (.disconnected active.address (some "operating system reported link loss"))
    | .error error =>
      setTx .fault
      operationError "check connection" error
      disconnectCurrent (some "BLE connection check failed")

def tickScan : LoopM L Unit := do
  if (← get).scanState.isActive then refreshScanResults else pure ()

def tick : LoopM L Unit := do
  tickScan
  tickPending
  tickConnection

/-- The state of the driver goes with it. -/
def ended (central : Central L) : Central L :=
  { central with
    running := false
    scanState := .idle
    pendingConnect := none
    commands := .empty commandCapacity }

/-- The driver is through: what waits for it is dropped. -/
def stop : LoopM L Unit := do
  setTx .fault
  disconnectCurrent (some "BLE driver stopped")
  releaseScan
  (← get).tx.driver.waiting.forM fun _ => setTx (.discard 0)
  modify ended

/-- The adapter is opened before the loop. -/
def start : LoopM L Unit := do
  match ← attempt openAdapter with
  | .ok () => pure ()
  | .error error =>
    sendHostError error
    modify ended

def stopIfGone : LoopM L Unit := do
  if (← get).shutdown then stop else pure ()

/-- The next command; the commands of a host that is gone have an end. -/
def turnCommand : LoopM L Unit := do
  let central ← get
  match central.commands.pop with
  | none => stopIfGone
  | some (command,commands) =>
    set { central with commands }
    if command = .shutdown then stop
    else
      handleCommand command
      stopIfGone

def turnTransmit : LoopM L Unit := do
  let central ← get
  if !central.tx.driver.tx.isEmpty && central.connection.isSome then
    transmit
    stopIfGone
  else pure ()

def turnTick : LoopM L Unit := do
  tick
  stopIfGone

inductive Branch where
  | command
  | transmit
  | tick

def turn : Branch → LoopM L Unit
  | .command => turnCommand
  | .transmit => turnTransmit
  | .tick => turnTick

def run (program : LoopM L Unit) (central : Central L) : Central L :=
  match program central with
  | .ok _ central => central
  | .error error _ => error.elim

/-! ### The host -/

/-- A command is refused where the queue is full or the driver has stopped. -/
def command (command : DriverCommand) (central : Central L) : Except BleHostError (Central L) :=
  if !central.running then .error (.unavailable "BLE driver has stopped")
  else
    match central.commands.push command with
    | some commands => .ok { central with commands }
    | none => .error (.operation "BLE command queue is full")

def writeRxMessage (message : BleWriteMessage) (central : Central L) :
    Except BleHostError Unit × Central L :=
  match reserve central.platform.maxTxRetainedBytes message central.tx.driver.counters with
  | (.error error,_) => (.error (.operation error),central)
  | (.ok _,_) =>
    let reserved := { central with
      tx := central.tx.step central.platform.maxTxRetainedBytes central.platform.train
        (.reserve message) }
    match reserved.command .writeMessage with
    | .ok central => (.ok (),central)
    | .error error => (.error error,{ central with
        tx := reserved.tx.step central.platform.maxTxRetainedBytes central.platform.train
          (.discard central.tx.driver.waiting.length) })

/-- What may happen: a host's call, a notification of a board that is or was connected, the host's
end, and a turn of the loop. -/
inductive Event where
  | command (command : DriverCommand)
  | write (message : BleWriteMessage)
  | meanwhile (meanwhile : Meanwhile)
  | drop
  | turn (branch : Branch)

/-- A host that is gone calls no more. -/
def step (central : Central L) : Event → Central L
  | .command command =>
    if central.shutdown then central
    else
      match central.command command with
      | .ok after => after
      | .error _ => central
  | .write message => if central.shutdown then central else (central.writeRxMessage message).2
  | .meanwhile meanwhile => central.during meanwhile
  | .drop =>
    let dropped := { central with shutdown := true }
    match dropped.command .shutdown with
    | .ok after => after
    | .error _ => dropped
  | .turn branch => if central.running then central.run (turn branch) else central

/-- What comes after a poll matters only where there is time left, and 50 ms later. -/
theorem polling_congr {address : BleAddress} {deadline : Nat} {central : Central L}
    {again again' : CentralM L Unit} (action : String)
    (h : ∀ later : Central L, central.clock < deadline → central.clock+50 ≤ later.clock →
      again later = again' later) :
    polling address action deadline again central =
      polling address action deadline again' central := by
  simp only [polling,Bind.bind,EStateM.bind,ask]
  cases central.platform.os.answer central.calls (.isConnected address) with
  | error error => rfl
  | ok connected =>
    cases connected with
    | false => rfl
    | true =>
      let seen := central.asked (.isConnected address) (.ok true)
      show (if deadline ≤ seen.clock then throw _ else (do ask (.sleep 50); again)) seen =
        (if deadline ≤ seen.clock then throw _ else (do ask (.sleep 50); again')) seen
      split
      · rfl
      · rename_i htime
        have hclock : central.clock ≤ seen.clock := by
          simp only [seen,asked]
          omega
        refine h _ (by omega) ?_
        simp only [asked]
        omega

theorem settle_enough (address : BleAddress) (action : String) (deadline polls more : Nat)
    (central : Central L) (h : deadline ≤ central.clock+50*polls) :
    settle address action deadline (polls+1+more) central =
      settle address action deadline (polls+1) central := by
  induction polls generalizing central with
  | zero =>
    rw [Nat.add_right_comm 0 1 more]
    exact polling_congr action fun later hearly _ => by omega
  | succ polls ih =>
    rw [Nat.add_right_comm (polls+1) 1 more]
    exact polling_congr action fun later _ hlater => ih later (by omega)

end Central

end WalkieSongie.Ble
