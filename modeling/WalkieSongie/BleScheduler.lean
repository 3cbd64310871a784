import Mathlib.Algebra.BigOperators.Group.List.Basic
import Mathlib.Data.UInt
import WalkieSongie.TrainLane
set_option autoImplicit false

/-!
The transmit side of the BLE driver: bounded reservations for whole messages, and three queues of
fragment cursors served one fragment at a time.
-/

namespace WalkieSongie.Ble
open TrainLane

/-- The cursors of the fragmenting crate: a cursor writes its next fragment into a buffer. -/
structure FragmentLibrary where
  Cursor : Type
  newCursor : UInt16 → List UInt8 → Nat → Except String Cursor
  fragmentValueBytes : Cursor → Nat
  encodeNext : Cursor → List UInt8 → Except String (Option (Nat × List UInt8)) × Cursor
  isComplete : Cursor → Bool

inductive BleWritePriority where
  | control
  | realtime
  | repair
  deriving DecidableEq

structure BleWriteMessage where
  messageId : UInt16
  wire : List UInt8
  valueBytes : Nat
  priority : BleWritePriority

def txMessageCapacity : Nat := 8

variable {L : FragmentLibrary} {maxTxRetainedBytes : Nat}

structure TxCounters where
  queuedMessages : Nat := 0
  queuedBytes : Nat := 0
  deriving DecidableEq

/-- A message with its place in the counters, which its drop gives back. -/
structure ReservedWriteMessage where
  message : BleWriteMessage
  retainedBytes : Nat

def reserveBounded (counter amount maximum : Nat) (label : String) : Except String Nat :=
  if counter+amount ≤ maximum then .ok (counter+amount) else .error s!"{label} queue is full"

/-- Where the bytes find no room, the message gives its place back. -/
def reserve (maxTxRetainedBytes : Nat) (message : BleWriteMessage) (counters : TxCounters) :
    Except String ReservedWriteMessage × TxCounters :=
  match reserveBounded counters.queuedMessages 1 txMessageCapacity "BLE TX message" with
  | .error error => (.error error,counters)
  | .ok queuedMessages =>
    match reserveBounded counters.queuedBytes message.wire.length maxTxRetainedBytes
      "BLE TX retained-byte" with
    | .error error => (.error error,{ counters with queuedMessages := queuedMessages-1 })
    | .ok queuedBytes =>
      (.ok { message, retainedBytes := message.wire.length },{ queuedMessages, queuedBytes })

def TxCounters.drop (counters : TxCounters) (retainedBytes : Nat) : TxCounters where
  queuedMessages := counters.queuedMessages-1
  queuedBytes := counters.queuedBytes-retainedBytes

/-- A queued message: its cursor has taken the bytes, its reservation stays. -/
structure DriverTxMessage (L : FragmentLibrary) where
  retainedBytes : Nat
  messageId : UInt16
  cursor : L.Cursor

structure PreparedTxFragment where
  priority : BleWritePriority
  messageId : UInt16
  completesMessage : Bool
  value : List UInt8
  deriving DecidableEq

structure DriverTxScheduler (L : FragmentLibrary) where
  control : List (DriverTxMessage L) := []
  realtime : List (DriverTxMessage L) := []
  repair : List (DriverTxMessage L) := []
  pending : Option PreparedTxFragment := none
  preferRealtime : Bool := true
  faulted : Bool := true

namespace DriverTxScheduler

def queue (tx : DriverTxScheduler L) : BleWritePriority → List (DriverTxMessage L)
  | .control => tx.control
  | .realtime => tx.realtime
  | .repair => tx.repair

def withQueue (tx : DriverTxScheduler L) (messages : List (DriverTxMessage L)) :
    BleWritePriority → DriverTxScheduler L
  | .control => { tx with control := messages }
  | .realtime => { tx with realtime := messages }
  | .repair => { tx with repair := messages }

def isEmpty (tx : DriverTxScheduler L) : Bool :=
  tx.control.isEmpty && tx.realtime.isEmpty && tx.repair.isEmpty

/-- The queue to serve, and the scheduler after the choice: only a choice between the two lower
queues turns the preference. -/
def nextPriority (tx : DriverTxScheduler L) : Option BleWritePriority × DriverTxScheduler L :=
  if tx.control ≠ [] then (some .control,tx)
  else if tx.realtime ≠ [] ∧ tx.repair ≠ [] then
    (some (if tx.preferRealtime then .realtime else .repair),
      { tx with preferRealtime := !tx.preferRealtime })
  else if tx.realtime ≠ [] then (some .realtime,tx)
  else if tx.repair ≠ [] then (some .repair,tx)
  else (none,tx)

/-- A fragment that is still pending is prepared again, whatever was queued since. -/
def prepareNext (tx : DriverTxScheduler L) :
    Except String (Option PreparedTxFragment) × DriverTxScheduler L :=
  match tx.pending with
  | some pending => (.ok (some pending),tx)
  | none =>
    match tx.nextPriority with
    | (none,tx) => (.ok none,tx)
    | (some priority,tx) =>
      match tx.queue priority with
      | [] => (.error "selected BLE TX queue is non-empty",tx)
      | message :: rest =>
        let value := List.replicate (L.fragmentValueBytes message.cursor) 0
        let (encoded,cursor) := L.encodeNext message.cursor value
        let tx := tx.withQueue ({ message with cursor } :: rest) priority
        match encoded with
        | .error error => (.error error,tx)
        | .ok none => (.error "completed BLE TX cursor was retained",tx)
        | .ok (some (used,value)) =>
          let pending : PreparedTxFragment :=
            { priority
              messageId := message.messageId
              completesMessage := L.isComplete cursor
              value := value.take used }
          (.ok (some pending),{ tx with pending := some pending })

end DriverTxScheduler

structure Driver (L : FragmentLibrary) where
  tx : DriverTxScheduler L := {}
  waiting : List ReservedWriteMessage := []
  counters : TxCounters := {}

namespace Driver

def enqueue (reserved : ReservedWriteMessage) (driver : Driver L) :
    Except String Unit × Driver L :=
  let refused := { driver with counters := driver.counters.drop reserved.retainedBytes }
  let message := reserved.message
  if driver.tx.faulted then (.error "BLE TX stream is faulted until a fresh connection",refused)
  else
    match L.newCursor message.messageId message.wire message.valueBytes with
    | .error error => (.error error,refused)
    | .ok cursor =>
      let queued : DriverTxMessage L :=
        { retainedBytes := reserved.retainedBytes, messageId := message.messageId, cursor }
      (.ok (),{ driver with
        tx := driver.tx.withQueue (driver.tx.queue message.priority ++ [queued])
          message.priority })

/-- The message that the fragment completes leaves its queue, and its reservation is dropped. -/
def confirmPending (driver : Driver L) : Option UInt16 × Driver L :=
  match driver.tx.pending with
  | none => (none,driver)
  | some prepared =>
    let tx := { driver.tx with pending := none }
    if prepared.completesMessage then
      match tx.queue prepared.priority with
      | [] => (some prepared.messageId,{ driver with tx })
      | message :: rest => (some prepared.messageId,{ driver with
          tx := tx.withQueue rest prepared.priority
          counters := driver.counters.drop message.retainedBytes })
    else (none,{ driver with tx })

def clear (driver : Driver L) : Driver L where
  tx := { driver.tx with control := [], realtime := [], repair := [], pending := none }
  waiting := driver.waiting
  counters := (driver.tx.control ++ driver.tx.realtime ++ driver.tx.repair).foldl
    (fun counters message => counters.drop message.retainedBytes) driver.counters

def fault (driver : Driver L) : Driver L :=
  let cleared := driver.clear
  { cleared with tx := { cleared.tx with faulted := true } }

def freshConnection (driver : Driver L) : Driver L :=
  let cleared := driver.clear
  { cleared with tx := { cleared.tx with preferRealtime := true, faulted := false } }

end Driver

inductive TxOp where
  | reserve (message : BleWriteMessage)
  /-- A reserved message is dropped before it gets to the scheduler. -/
  | discard (index : Nat)
  | enqueue (index : Nat)
  | prepareNext
  | confirmPending
  | fault
  | freshConnection

/-- The driver with what its operations accepted, confirmed and returned since the last clear. -/
structure TxRun (L : FragmentLibrary) where
  driver : Driver L := {}
  history : BleWritePriority → History UInt16 (List UInt8) := fun _ => {}

namespace TxRun

def noteAccepted (message : BleWriteMessage) (train : List (List UInt8))
    (history : BleWritePriority → History UInt16 (List UInt8)) :
    BleWritePriority → History UInt16 (List UInt8) :=
  Function.update history message.priority { history message.priority with
    accepted := (history message.priority).accepted ++ [⟨message.messageId,train⟩] }

def noteConfirmed (prepared : PreparedTxFragment) (returned : Option UInt16)
    (history : BleWritePriority → History UInt16 (List UInt8)) :
    BleWritePriority → History UInt16 (List UInt8) :=
  Function.update history prepared.priority { history prepared.priority with
    confirmed := (history prepared.priority).confirmed ++ [prepared.value]
    returned := (history prepared.priority).returned ++ returned.toList }

variable (maxTxRetainedBytes : Nat) (train : BleWriteMessage → List (List UInt8))

def step (run : TxRun L) : TxOp → TxRun L
  | .reserve message =>
    match reserve maxTxRetainedBytes message run.driver.counters with
    | (.ok reserved,counters) => { run with
        driver := { run.driver with waiting := run.driver.waiting ++ [reserved], counters } }
    | (.error _,counters) => { run with driver := { run.driver with counters } }
  | .discard index =>
    match run.driver.waiting[index]? with
    | none => run
    | some reserved => { run with
        driver := { run.driver with
          waiting := run.driver.waiting.eraseIdx index
          counters := run.driver.counters.drop reserved.retainedBytes } }
  | .enqueue index =>
    match run.driver.waiting[index]? with
    | none => run
    | some reserved =>
      match { run.driver with waiting := run.driver.waiting.eraseIdx index }.enqueue reserved with
      | (.ok (),driver) =>
        ⟨driver,noteAccepted reserved.message (train reserved.message) run.history⟩
      | (.error _,driver) => { run with driver }
  | .prepareNext =>
    { run with driver := { run.driver with tx := run.driver.tx.prepareNext.2 } }
  | .confirmPending =>
    match run.driver.tx.pending with
    | none => run
    | some prepared => ⟨run.driver.confirmPending.2,
        noteConfirmed prepared run.driver.confirmPending.1 run.history⟩
  | .fault => ⟨run.driver.fault,fun _ => {}⟩
  | .freshConnection => ⟨run.driver.freshConnection,fun _ => {}⟩

def after (ops : List TxOp) (run : TxRun L) : TxRun L :=
  ops.foldl (step maxTxRetainedBytes train) run

end TxRun

end WalkieSongie.Ble
