import Mathlib.Data.List.Chain
import WalkieSongie.BleScheduler
set_option autoImplicit false

/-!
What the scheduler's operations send: on each of the three queues the trains of the accepted
messages, one after the other, and the two lower queues in turns.
-/

namespace WalkieSongie.Ble
open TrainLane

variable {L : FragmentLibrary} {maxTxRetainedBytes : Nat}
  {train : BleWriteMessage → List (List UInt8)} {remaining : L.Cursor → List (List UInt8)}

/-- A message's cursor gives its fragments in order and is complete after the last. -/
structure Yields (L : FragmentLibrary) (train : BleWriteMessage → List (List UInt8))
    (remaining : L.Cursor → List (List UInt8)) : Prop where
  begins : ∀ message cursor,
    L.newCursor message.messageId message.wire message.valueBytes = .ok cursor →
      remaining cursor = train message ∧ train message ≠ []
  next : ∀ cursor fragment rest, remaining cursor = fragment :: rest →
    ∃ used value cursor',
      L.encodeNext cursor (List.replicate (L.fragmentValueBytes cursor) 0) =
        (.ok (some (used,value)),cursor') ∧ value.take used = fragment ∧ remaining cursor' = rest
  complete : ∀ cursor, L.isComplete cursor = true ↔ remaining cursor = []

/-- The queue as trains of what each cursor has left. -/
def lane (remaining : L.Cursor → List (List UInt8)) (messages : List (DriverTxMessage L)) :
    List (Train UInt16 (List UInt8)) :=
  messages.map fun message => ⟨message.messageId,remaining message.cursor⟩

namespace DriverTxScheduler

variable {tx tx' : DriverTxScheduler L} {priority other : BleWritePriority}
  {messages : List (DriverTxMessage L)}

def pendingOn (tx : DriverTxScheduler L) (priority : BleWritePriority) : Option (List UInt8) :=
  (tx.pending.filter fun prepared => prepared.priority = priority).map PreparedTxFragment.value

@[simp] theorem queue_withQueue_self : (tx.withQueue messages priority).queue priority =
    messages := by
  cases priority <;> rfl

theorem queue_withQueue (h : other ≠ priority) :
    (tx.withQueue messages priority).queue other = tx.queue other := by
  cases priority <;> cases other <;> first | rfl | exact absurd rfl h

@[simp] theorem queue_pending (pending : Option PreparedTxFragment) :
    ({ tx with pending } : DriverTxScheduler L).queue priority = tx.queue priority := by
  cases priority <;> rfl

@[simp] theorem queue_preferRealtime (preferRealtime : Bool) :
    ({ tx with preferRealtime } : DriverTxScheduler L).queue priority = tx.queue priority := by
  cases priority <;> rfl

@[simp] theorem pending_withQueue : (tx.withQueue messages priority).pending = tx.pending := by
  cases priority <;> rfl

@[simp] theorem faulted_withQueue : (tx.withQueue messages priority).faulted = tx.faulted := by
  cases priority <;> rfl

@[simp] theorem preferRealtime_withQueue :
    (tx.withQueue messages priority).preferRealtime = tx.preferRealtime := by
  cases priority <;> rfl

theorem nextPriority_some (h : tx.nextPriority = (some priority,tx')) :
    tx.queue priority ≠ [] ∧ tx' = { tx with preferRealtime := tx'.preferRealtime } := by
  unfold nextPriority at h
  by_cases hcontrol : tx.control = []
  · rw [if_neg (not_not.mpr hcontrol)] at h
    by_cases hboth : tx.realtime ≠ [] ∧ tx.repair ≠ []
    · rw [if_pos hboth] at h
      cases h
      refine ⟨?_,rfl⟩
      cases tx.preferRealtime
      · exact hboth.2
      · exact hboth.1
    · rw [if_neg hboth] at h
      by_cases hrealtime : tx.realtime = []
      · rw [if_neg (not_not.mpr hrealtime)] at h
        split at h
        next hrepair => cases h; exact ⟨hrepair,rfl⟩
        next => cases h
      · rw [if_pos hrealtime] at h
        cases h
        exact ⟨hrealtime,rfl⟩
  · rw [if_pos hcontrol] at h
    cases h
    exact ⟨hcontrol,rfl⟩

theorem nextPriority_none (h : tx.nextPriority = (none,tx')) : tx' = tx := by
  unfold nextPriority at h
  split at h
  · simp at h
  · split at h
    · simp at h
    · split at h
      · simp at h
      · split at h
        · simp at h
        · simp only [Prod.mk.injEq,true_and] at h
          exact h.symm

/-- What the operations keep: every queue is exact, and a pending fragment is its head's. -/
structure Holds (remaining : L.Cursor → List (List UInt8)) (tx : DriverTxScheduler L)
    (history : BleWritePriority → History UInt16 (List UInt8)) : Prop where
  exact : ∀ priority, ∃ done sent,
    Exact (history priority) (lane remaining (tx.queue priority)) (tx.pendingOn priority) done sent
  head : ∀ prepared ∈ tx.pending, ∀ message ∈ (tx.queue prepared.priority).head?,
    prepared.messageId = message.messageId ∧
      (prepared.completesMessage = true ↔ remaining message.cursor = [])

variable {history : BleWritePriority → History UInt16 (List UInt8)}

/-- Preparing a fragment gives a pending one again, gives nothing for empty queues, or takes the
next fragment off the chosen queue's head. -/
theorem prepareNext_cases (hyields : Yields L train remaining) (h : Holds remaining tx history) :
    (∃ prepared, tx.pending = some prepared ∧ tx.prepareNext = (.ok (some prepared),tx)) ∨
    (tx.pending = none ∧ tx.nextPriority = (none,tx) ∧ tx.prepareNext = (.ok none,tx)) ∨
    ∃ priority prefer message rest cursor fragment,
      tx.pending = none ∧
      tx.nextPriority = (some priority,{ tx with preferRealtime := prefer }) ∧
      tx.queue priority = message :: rest ∧
      remaining message.cursor = fragment :: remaining cursor ∧
      tx.prepareNext = (.ok (some ⟨priority,message.messageId,L.isComplete cursor,fragment⟩),
        { ({ tx with preferRealtime := prefer } : DriverTxScheduler L).withQueue
            ({ message with cursor } :: rest) priority with
          pending := some ⟨priority,message.messageId,L.isComplete cursor,fragment⟩ }) := by
  rcases Option.eq_none_or_eq_some tx.pending with hpending | ⟨prepared,hpending⟩
  · cases hnext : tx.nextPriority with
    | mk chosen tx' =>
      cases chosen with
      | none =>
        obtain rfl := nextPriority_none hnext
        exact .inr (.inl ⟨hpending,rfl,by simp only [prepareNext,hpending,hnext]⟩)
      | some priority =>
        obtain ⟨hqueue,hsame⟩ := nextPriority_some hnext
        obtain ⟨message,rest,hmessage⟩ := List.exists_cons_of_ne_nil hqueue
        obtain ⟨done,sent,hexact⟩ := h.exact priority
        have hleft := hexact.left ⟨message.messageId,remaining message.cursor⟩
          (by simp [lane,hmessage])
        simp only [pendingOn,hpending,Option.filter_none,Option.map_none,Option.toList_none,
          List.nil_append] at hleft
        obtain ⟨fragment,fragments,hremaining⟩ := List.exists_cons_of_ne_nil hleft
        obtain ⟨used,value,cursor,hencoded,hvalue,hrest⟩ := hyields.next _ _ _ hremaining
        have hqueue' : tx'.queue priority = message :: rest := by
          rw [hsame]
          cases priority <;> exact hmessage
        refine .inr (.inr ⟨priority,tx'.preferRealtime,message,rest,cursor,fragment,hpending,
          congrArg (Prod.mk _) hsame,hmessage,by rw [hrest,hremaining],?_⟩)
        rw [← hsame]
        simp only [prepareNext,hpending,hnext,hqueue',hencoded,hvalue]
  · exact .inl ⟨prepared,hpending,by simp only [prepareNext,hpending]⟩

theorem pendingOn_some {prepared : PreparedTxFragment} (h : tx.pending = some prepared)
    (priority : BleWritePriority) :
    tx.pendingOn priority = if prepared.priority = priority then some prepared.value else none := by
  by_cases hpriority : prepared.priority = priority <;> simp [pendingOn,h,hpriority]

theorem pendingOn_none (h : tx.pending = none) (priority : BleWritePriority) :
    tx.pendingOn priority = none := by
  simp [pendingOn,h]

theorem Holds.accept (h : Holds remaining tx history) {queued : DriverTxMessage L}
    {message : BleWriteMessage} (hid : queued.messageId = message.messageId)
    (htrain : remaining queued.cursor = train message) (hparts : train message ≠ []) :
    Holds remaining (tx.withQueue (tx.queue message.priority ++ [queued]) message.priority)
      (TxRun.noteAccepted message (train message) history) := by
  refine ⟨fun priority => ?_,fun prepared hprepared queuedHead hhead => ?_⟩
  · obtain ⟨done,sent,hexact⟩ := h.exact priority
    by_cases hpriority : priority = message.priority
    · subst hpriority
      refine ⟨done,sent,?_⟩
      have hlane : lane remaining (tx.queue message.priority ++ [queued]) =
          lane remaining (tx.queue message.priority) ++ [⟨message.messageId,train message⟩] := by
        simp [lane,hid,htrain]
      simp only [TxRun.noteAccepted,Function.update_self,queue_withQueue_self,pendingOn,
        pending_withQueue,hlane]
      exact hexact.accept hparts
    · refine ⟨done,sent,?_⟩
      simpa only [TxRun.noteAccepted,Function.update_of_ne hpriority,queue_withQueue hpriority,
        pendingOn,pending_withQueue] using hexact
  · rw [pending_withQueue] at hprepared
    by_cases hpriority : prepared.priority = message.priority
    · -- The pending fragment's message is in front of the accepted one.
      rw [hpriority,queue_withQueue_self,← hpriority] at hhead
      obtain ⟨done,sent,hexact⟩ := h.exact prepared.priority
      cases hqueue : tx.queue prepared.priority with
      | nil =>
        have hidle := (hexact.idle (by simp [lane,hqueue])).2
        rw [pendingOn_some hprepared,if_pos rfl] at hidle
        cases hidle
      | cons first rest =>
        rw [hqueue] at hhead
        exact h.head prepared hprepared queuedHead (by rw [hqueue]; exact hhead)
    · rw [queue_withQueue hpriority] at hhead
      exact h.head prepared hprepared queuedHead hhead

theorem Holds.prepareNext (hyields : Yields L train remaining) (h : Holds remaining tx history) :
    Holds remaining tx.prepareNext.2 history := by
  rcases prepareNext_cases hyields h with ⟨prepared,_,hprepare⟩ | ⟨_,_,hprepare⟩ |
    ⟨priority,prefer,message,rest,cursor,fragment,hpending,_,hqueue,hremaining,hprepare⟩
  · rw [hprepare]; exact h
  · rw [hprepare]; exact h
  · rw [hprepare]
    refine ⟨fun other => ?_,fun prepared hprepared first hfirst => ?_⟩
    · obtain ⟨done,sent,hexact⟩ := h.exact other
      refine ⟨done,sent,?_⟩
      rw [pendingOn_none hpending] at hexact
      rw [queue_pending,pendingOn_some rfl]
      by_cases hother : other = priority
      · subst hother
        rw [hqueue] at hexact
        rw [queue_withQueue_self,if_pos rfl]
        simp only [lane,List.map_cons,hremaining] at hexact ⊢
        exact hexact.prepare
      · rw [queue_withQueue hother,queue_preferRealtime,if_neg (Ne.symm hother)]
        exact hexact
    · obtain rfl : ⟨priority,message.messageId,L.isComplete cursor,fragment⟩ = prepared := by
        simpa using hprepared
      rw [queue_pending,queue_withQueue_self,List.head?_cons] at hfirst
      obtain rfl : { message with cursor } = first := by simpa using hfirst
      exact ⟨rfl,hyields.complete cursor⟩

end DriverTxScheduler

open DriverTxScheduler

section Confirm

variable {driver : Driver L} {prepared : PreparedTxFragment} {message : DriverTxMessage L}
  {rest : List (DriverTxMessage L)} {history : BleWritePriority → History UInt16 (List UInt8)}

theorem Driver.confirmPending_complete (hpending : driver.tx.pending = some prepared)
    (hqueue : driver.tx.queue prepared.priority = message :: rest)
    (hcomplete : prepared.completesMessage = true) :
    driver.confirmPending = (some prepared.messageId,{ driver with
      tx := ({ driver.tx with pending := none } : DriverTxScheduler L).withQueue rest
        prepared.priority
      counters := driver.counters.drop message.retainedBytes }) := by
  simp only [Driver.confirmPending,hpending,hcomplete,if_true,queue_pending,hqueue]

theorem Driver.confirmPending_partial (hpending : driver.tx.pending = some prepared)
    (hcomplete : prepared.completesMessage = false) :
    driver.confirmPending = (none,{ driver with tx := { driver.tx with pending := none } }) := by
  simp only [Driver.confirmPending,hpending,hcomplete,Bool.false_eq_true,if_false]

theorem DriverTxScheduler.Holds.exists_head (h : Holds remaining driver.tx history)
    (hpending : driver.tx.pending = some prepared) :
    ∃ message rest, driver.tx.queue prepared.priority = message :: rest ∧
      prepared.messageId = message.messageId ∧
      (prepared.completesMessage = true ↔ remaining message.cursor = []) := by
  obtain ⟨done,sent,hexact⟩ := h.exact prepared.priority
  rw [pendingOn_some hpending,if_pos rfl] at hexact
  cases hqueue : driver.tx.queue prepared.priority with
  | nil =>
    have hidle := (hexact.idle (by simp [lane,hqueue])).2
    cases hidle
  | cons message rest =>
    have hhead := h.head prepared hpending message (by simp [hqueue])
    exact ⟨message,rest,rfl,hhead⟩

theorem DriverTxScheduler.Holds.confirmPending (h : Holds remaining driver.tx history)
    (hpending : driver.tx.pending = some prepared) :
    Holds remaining driver.confirmPending.2.tx
      (TxRun.noteConfirmed prepared driver.confirmPending.1 history) := by
  obtain ⟨message,rest,hqueue,hid,hcomplete⟩ := h.exists_head hpending
  cases hcompletes : prepared.completesMessage with
  | true =>
    rw [Driver.confirmPending_complete hpending hqueue hcompletes]
    refine ⟨fun priority => ?_,fun other hother => by simp at hother⟩
    obtain ⟨done,sent,hexact⟩ := h.exact priority
    rw [pendingOn_some hpending] at hexact
    rw [pendingOn_none (by simp)]
    by_cases hpriority : priority = prepared.priority
    · subst hpriority
      rw [if_pos rfl,hqueue] at hexact
      simp only [lane,List.map_cons,hcomplete.mp hcompletes,← hid] at hexact
      rw [queue_withQueue_self,TxRun.noteConfirmed,Function.update_self]
      exact ⟨_,_,hexact.complete⟩
    · rw [if_neg (Ne.symm hpriority)] at hexact
      rw [queue_withQueue hpriority,queue_pending,TxRun.noteConfirmed,
        Function.update_of_ne hpriority]
      exact ⟨done,sent,hexact⟩
  | false =>
    rw [Driver.confirmPending_partial hpending hcompletes]
    refine ⟨fun priority => ?_,fun other hother => by simp at hother⟩
    obtain ⟨done,sent,hexact⟩ := h.exact priority
    rw [pendingOn_some hpending] at hexact
    rw [pendingOn_none rfl,queue_pending]
    by_cases hpriority : priority = prepared.priority
    · subst hpriority
      have hparts : remaining message.cursor ≠ [] := by
        intro hnil
        rw [hcomplete.mpr hnil] at hcompletes
        cases hcompletes
      rw [if_pos rfl,hqueue] at hexact
      rw [hqueue,TxRun.noteConfirmed,Function.update_self]
      simp only [Option.toList_none,List.append_nil]
      exact ⟨_,_,hexact.confirm hparts⟩
    · rw [if_neg (Ne.symm hpriority)] at hexact
      rw [TxRun.noteConfirmed,Function.update_of_ne hpriority]
      exact ⟨done,sent,hexact⟩

end Confirm

theorem holds_empty {tx : DriverTxScheduler L} (hqueue : ∀ priority, tx.queue priority = [])
    (hpending : tx.pending = none) : Holds remaining tx fun _ => {} := by
  refine ⟨fun priority => ⟨[],[],?_⟩,fun other hother => by simp [hpending] at hother⟩
  rw [pendingOn_none hpending,hqueue]
  exact exact_empty

@[simp] theorem Driver.queue_fault (driver : Driver L) (priority : BleWritePriority) :
    driver.fault.tx.queue priority = [] := by
  cases priority <;> rfl

@[simp] theorem Driver.queue_freshConnection (driver : Driver L) (priority : BleWritePriority) :
    driver.freshConnection.tx.queue priority = [] := by
  cases priority <;> rfl

theorem Driver.enqueue_cases (driver : Driver L) (reserved : ReservedWriteMessage) :
    (∃ error, driver.enqueue reserved =
      (.error error,{ driver with counters := driver.counters.drop reserved.retainedBytes })) ∨
    ∃ cursor, driver.tx.faulted = false ∧
      L.newCursor reserved.message.messageId reserved.message.wire reserved.message.valueBytes =
        .ok cursor ∧
      driver.enqueue reserved = (.ok (),{ driver with
        tx := driver.tx.withQueue (driver.tx.queue reserved.message.priority ++
          [⟨reserved.retainedBytes,reserved.message.messageId,cursor⟩])
            reserved.message.priority }) := by
  cases hfaulted : driver.tx.faulted with
  | true =>
    exact .inl ⟨"BLE TX stream is faulted until a fresh connection",by
      simp only [Driver.enqueue,hfaulted,if_true]⟩
  | false =>
    cases hcursor : L.newCursor reserved.message.messageId reserved.message.wire
      reserved.message.valueBytes with
    | error error =>
      refine .inl ⟨error,?_⟩
      simp only [Driver.enqueue,hfaulted,Bool.false_eq_true,if_false,hcursor]
    | ok cursor =>
      refine .inr ⟨cursor,rfl,rfl,?_⟩
      simp only [Driver.enqueue,hfaulted,Bool.false_eq_true,if_false,hcursor]

theorem TxRun.holds_step (hyields : Yields L train remaining) {run : TxRun L}
    (h : Holds remaining run.driver.tx run.history) (op : TxOp) :
    Holds remaining (run.step maxTxRetainedBytes train op).driver.tx
      (run.step maxTxRetainedBytes train op).history := by
  cases op with
  | reserve message =>
    simp only [TxRun.step]
    split <;> exact h
  | discard index =>
    simp only [TxRun.step]
    split <;> exact h
  | enqueue index =>
    simp only [TxRun.step]
    split
    next => exact h
    next reserved _ =>
      rcases Driver.enqueue_cases { run.driver with
        waiting := run.driver.waiting.eraseIdx index } reserved with
        ⟨error,hrefused⟩ | ⟨cursor,_,hcursor,hqueued⟩
      · rw [hrefused]
        exact h
      · rw [hqueued]
        obtain ⟨htrain,hparts⟩ := hyields.begins _ _ hcursor
        exact h.accept rfl htrain hparts
  | prepareNext => exact h.prepareNext hyields
  | confirmPending =>
    simp only [TxRun.step]
    split
    next => exact h
    next prepared hpending => exact h.confirmPending hpending
  | fault => exact holds_empty (Driver.queue_fault run.driver) rfl
  | freshConnection => exact holds_empty (Driver.queue_freshConnection run.driver) rfl

theorem TxRun.holds_after (maxTxRetainedBytes : Nat) (hyields : Yields L train remaining)
    {run : TxRun L}
    (h : Holds remaining run.driver.tx run.history) (ops : List TxOp) :
    Holds remaining (run.after maxTxRetainedBytes train ops).driver.tx
      (run.after maxTxRetainedBytes train ops).history := by
  induction ops generalizing run with
  | nil => exact h
  | cons op ops ih => exact ih (TxRun.holds_step hyields h op)

section Counters

def DriverTxScheduler.messages (tx : DriverTxScheduler L) : Nat :=
  tx.control.length+tx.realtime.length+tx.repair.length

def retained (messages : List (DriverTxMessage L)) : Nat :=
  (messages.map DriverTxMessage.retainedBytes).sum

def DriverTxScheduler.bytes (tx : DriverTxScheduler L) : Nat :=
  retained tx.control+retained tx.realtime+retained tx.repair

/-- The counters count the messages that a reservation is held for, and their bytes. -/
structure Counted (driver : Driver L) : Prop where
  messages : driver.counters.queuedMessages = driver.waiting.length+driver.tx.messages
  bytes : driver.counters.queuedBytes =
    (driver.waiting.map ReservedWriteMessage.retainedBytes).sum+driver.tx.bytes

variable {tx : DriverTxScheduler L} {driver : Driver L}

theorem messages_withQueue (tx : DriverTxScheduler L) (messages : List (DriverTxMessage L))
    (priority : BleWritePriority) :
    (tx.withQueue messages priority).messages+(tx.queue priority).length =
      tx.messages+messages.length := by
  cases priority <;> simp only [DriverTxScheduler.messages,withQueue,queue] <;> omega

theorem bytes_withQueue (tx : DriverTxScheduler L) (messages : List (DriverTxMessage L))
    (priority : BleWritePriority) :
    (tx.withQueue messages priority).bytes+retained (tx.queue priority) =
      tx.bytes+retained messages := by
  cases priority <;> simp only [DriverTxScheduler.bytes,withQueue,queue] <;> omega

theorem withQueue_queued (tx : DriverTxScheduler L) (queued : DriverTxMessage L)
    (priority : BleWritePriority) :
    (tx.withQueue (tx.queue priority ++ [queued]) priority).messages = tx.messages+1 ∧
      (tx.withQueue (tx.queue priority ++ [queued]) priority).bytes =
        tx.bytes+queued.retainedBytes := by
  have hmessages := messages_withQueue tx (tx.queue priority ++ [queued]) priority
  have hbytes := bytes_withQueue tx (tx.queue priority ++ [queued]) priority
  simp only [List.length_append,List.length_singleton] at hmessages
  simp only [retained,List.map_append,List.map_singleton,List.sum_append,
    List.sum_singleton] at hbytes
  omega

variable {message : DriverTxMessage L} {rest : List (DriverTxMessage L)}
  {priority : BleWritePriority}

theorem withQueue_served (tx : DriverTxScheduler L) (hqueue : tx.queue priority = message :: rest)
    (cursor : L.Cursor) :
    (tx.withQueue ({ message with cursor } :: rest) priority).messages = tx.messages ∧
      (tx.withQueue ({ message with cursor } :: rest) priority).bytes = tx.bytes := by
  have hmessages := messages_withQueue tx ({ message with cursor } :: rest) priority
  have hbytes := bytes_withQueue tx ({ message with cursor } :: rest) priority
  rw [hqueue] at hmessages hbytes
  simp only [List.length_cons] at hmessages
  simp only [retained,List.map_cons] at hbytes
  omega

theorem withQueue_left (tx : DriverTxScheduler L)
    (hqueue : tx.queue priority = message :: rest) :
    (tx.withQueue rest priority).messages+1 = tx.messages ∧
      (tx.withQueue rest priority).bytes+message.retainedBytes = tx.bytes := by
  have hmessages := messages_withQueue tx rest priority
  have hbytes := bytes_withQueue tx rest priority
  rw [hqueue] at hmessages hbytes
  simp only [List.length_cons] at hmessages
  simp only [retained,List.map_cons,List.sum_cons] at hbytes
  omega

theorem sum_eraseIdx {α : Type} (amount : α → Nat) {items : List α} {index : Nat} {item : α}
    (h : items[index]? = some item) :
    ((items.eraseIdx index).map amount).sum+amount item = (items.map amount).sum := by
  induction items generalizing index with
  | nil => simp at h
  | cons first rest ih =>
    cases index with
    | zero =>
      obtain rfl : first = item := by simpa using h
      simp only [List.eraseIdx_cons_zero,List.map_cons,List.sum_cons]
      omega
    | succ index =>
      have hrest := ih (by simpa using h)
      simp only [List.eraseIdx_cons_succ,List.map_cons,List.sum_cons]
      omega

theorem Counted.discard (h : Counted driver) {index : Nat} {reserved : ReservedWriteMessage}
    (hindex : driver.waiting[index]? = some reserved) :
    Counted { driver with
      waiting := driver.waiting.eraseIdx index
      counters := driver.counters.drop reserved.retainedBytes } := by
  have hsum := sum_eraseIdx ReservedWriteMessage.retainedBytes hindex
  obtain ⟨hlt,_⟩ := List.getElem?_eq_some_iff.mp hindex
  have hlength := List.length_eraseIdx_add_one hlt
  obtain ⟨hmessages,hbytes⟩ := h
  refine ⟨?_,?_⟩
  · simp only [TxCounters.drop]
    omega
  · simp only [TxCounters.drop]
    omega

theorem reserve_cases (maxTxRetainedBytes : Nat) (message : BleWriteMessage)
    (counters : TxCounters) :
    (∃ error, reserve maxTxRetainedBytes message counters = (.error error,counters)) ∨
    reserve maxTxRetainedBytes message counters =
      (.ok { message, retainedBytes := message.wire.length },
        { queuedMessages := counters.queuedMessages+1
          queuedBytes := counters.queuedBytes+message.wire.length }) := by
  unfold reserve reserveBounded
  by_cases hmessages : counters.queuedMessages+1 ≤ txMessageCapacity
  · by_cases hbytes : counters.queuedBytes+message.wire.length ≤ maxTxRetainedBytes
    · exact .inr (by simp only [if_pos hmessages,if_pos hbytes])
    · exact .inl ⟨_,by simp only [if_pos hmessages,if_neg hbytes,Nat.add_sub_cancel]; rfl⟩
  · exact .inl ⟨_,by simp only [if_neg hmessages]; rfl⟩

theorem Counted.clear (h : Counted driver) : Counted driver.clear := by
  have hdrop : ∀ (messages : List (DriverTxMessage L)) (counters : TxCounters),
      (messages.foldl (fun counters message => counters.drop message.retainedBytes) counters) =
        { queuedMessages := counters.queuedMessages-messages.length
          queuedBytes := counters.queuedBytes-retained messages } := by
    intro messages
    induction messages with
    | nil => intro counters; rfl
    | cons message messages ih =>
      intro counters
      rw [List.foldl_cons,ih]
      simp only [TxCounters.drop,retained,List.length_cons,List.map_cons,List.sum_cons,Nat.sub_sub,
        Nat.add_comm]
  obtain ⟨hmessages,hbytes⟩ := h
  simp only [DriverTxScheduler.messages,DriverTxScheduler.bytes,retained] at hmessages hbytes
  constructor
  · simp only [Driver.clear,hdrop,DriverTxScheduler.messages,List.length_append,List.length_nil]
    omega
  · simp only [Driver.clear,hdrop,DriverTxScheduler.bytes,retained,List.map_append,List.sum_append,
      List.map_nil,List.sum_nil]
    omega

theorem TxRun.counted_step (hyields : Yields L train remaining) {run : TxRun L}
    (h : Holds remaining run.driver.tx run.history) (hcounted : Counted run.driver) (op : TxOp) :
    Counted (run.step maxTxRetainedBytes train op).driver := by
  cases op with
  | reserve message =>
    rcases reserve_cases maxTxRetainedBytes message run.driver.counters with
      ⟨error,hreserve⟩ | hreserve
    · simp only [TxRun.step,hreserve]
      exact hcounted
    · obtain ⟨hmessages,hbytes⟩ := hcounted
      simp only [TxRun.step,hreserve]
      constructor
      · simp only [List.length_append,List.length_singleton]
        omega
      · simp only [List.map_append,List.map_singleton,List.sum_append,List.sum_singleton]
        omega
  | discard index =>
    simp only [TxRun.step]
    split
    next => exact hcounted
    next reserved hindex => exact hcounted.discard hindex
  | enqueue index =>
    simp only [TxRun.step]
    split
    next => exact hcounted
    next reserved hindex =>
      rcases Driver.enqueue_cases { run.driver with
        waiting := run.driver.waiting.eraseIdx index } reserved with
        ⟨error,hrefused⟩ | ⟨cursor,_,_,hqueued⟩
      · rw [hrefused]
        exact hcounted.discard hindex
      · rw [hqueued]
        obtain ⟨hlength,hretained⟩ := withQueue_queued run.driver.tx
          ⟨reserved.retainedBytes,reserved.message.messageId,cursor⟩ reserved.message.priority
        have hsum := sum_eraseIdx ReservedWriteMessage.retainedBytes hindex
        have herased := List.length_eraseIdx_add_one (List.getElem?_eq_some_iff.mp hindex).1
        obtain ⟨hmessages,hbytes⟩ := hcounted
        simp only at hretained
        constructor
        · simp only
          omega
        · simp only
          omega
  | prepareNext =>
    rcases prepareNext_cases hyields h with ⟨prepared,_,hprepare⟩ | ⟨_,_,hprepare⟩ |
      ⟨priority,prefer,message,rest,cursor,fragment,_,_,hqueue,_,hprepare⟩
    · simp only [TxRun.step,hprepare]
      exact hcounted
    · simp only [TxRun.step,hprepare]
      exact hcounted
    · simp only [TxRun.step,hprepare]
      obtain ⟨hlength,hretained⟩ := withQueue_served
        { run.driver.tx with preferRealtime := prefer }
          ((queue_preferRealtime prefer).trans hqueue) cursor
      exact ⟨hcounted.messages.trans (congrArg (_ + ·) hlength.symm),
        hcounted.bytes.trans (congrArg (_ + ·) hretained.symm)⟩
  | confirmPending =>
    simp only [TxRun.step]
    split
    next => exact hcounted
    next prepared hpending =>
      obtain ⟨message,rest,hqueue,_⟩ := h.exists_head hpending
      cases hcompletes : prepared.completesMessage with
      | false =>
        rw [Driver.confirmPending_partial hpending hcompletes]
        exact ⟨hcounted.messages,hcounted.bytes⟩
      | true =>
        rw [Driver.confirmPending_complete hpending hqueue hcompletes]
        obtain ⟨hlength,hretained⟩ := withQueue_left
          { run.driver.tx with pending := none } ((queue_pending none).trans hqueue)
        have hmessages : run.driver.counters.queuedMessages = run.driver.waiting.length+
          DriverTxScheduler.messages { run.driver.tx with pending := none } := hcounted.messages
        have hbytes : run.driver.counters.queuedBytes =
          (run.driver.waiting.map ReservedWriteMessage.retainedBytes).sum+
            DriverTxScheduler.bytes { run.driver.tx with pending := none } := hcounted.bytes
        rw [← hlength] at hmessages
        rw [← hretained] at hbytes
        constructor
        · simp only [TxCounters.drop,hmessages]
          omega
        · simp only [TxCounters.drop,hbytes]
          omega
  | fault => exact ⟨hcounted.clear.messages,hcounted.clear.bytes⟩
  | freshConnection => exact ⟨hcounted.clear.messages,hcounted.clear.bytes⟩

end Counters

section Turns

variable {tx : DriverTxScheduler L} {run : TxRun L} {op : TxOp} {ops : List TxOp}

def DriverTxScheduler.BothQueued (tx : DriverTxScheduler L) : Prop :=
  tx.realtime ≠ [] ∧ tx.repair ≠ []

def DriverTxScheduler.preferred (tx : DriverTxScheduler L) : BleWritePriority :=
  if tx.preferRealtime then .realtime else .repair

/-- The queue of the fragment that preparing takes anew, unless that is the control queue. -/
def DriverTxScheduler.lowerChoice (tx : DriverTxScheduler L) : Option BleWritePriority :=
  match tx.pending,tx.prepareNext.1 with
  | none,.ok (some prepared) =>
      if prepared.priority = .control then none else some prepared.priority
  | _,_ => none

def TxRun.lowerChoice (run : TxRun L) : TxOp → Option BleWritePriority
  | .prepareNext => run.driver.tx.lowerChoice
  | _ => none

/-- The queues of the fragments that the operations take from below the control queue, in order. -/
def TxRun.lowerChoices (maxTxRetainedBytes : Nat) (train : BleWriteMessage → List (List UInt8)) :
    TxRun L → List TxOp → List BleWritePriority
  | _, [] => []
  | run, op :: ops => (run.lowerChoice op).toList ++
      TxRun.lowerChoices maxTxRetainedBytes train (run.step maxTxRetainedBytes train op) ops

/-- Messages of both lower queues stay queued from the first to the last state of the run. -/
def TxRun.StaysQueued (maxTxRetainedBytes : Nat) (train : BleWriteMessage → List (List UInt8)) :
    TxRun L → List TxOp → Prop
  | run, [] => run.driver.tx.BothQueued
  | run, op :: ops => run.driver.tx.BothQueued ∧
      TxRun.StaysQueued maxTxRetainedBytes train (run.step maxTxRetainedBytes train op) ops

theorem TxRun.StaysQueued.both (h : run.StaysQueued maxTxRetainedBytes train ops) :
    run.driver.tx.BothQueued := by
  cases ops with
  | nil => exact h
  | cons op ops => exact h.1

theorem nextPriority_of_both (h : tx.BothQueued) :
    tx.nextPriority = (some .control,tx) ∨
      tx.nextPriority = (some tx.preferred,{ tx with preferRealtime := !tx.preferRealtime }) := by
  by_cases hcontrol : tx.control = []
  · have hlower : tx.realtime ≠ [] ∧ tx.repair ≠ [] := h
    exact .inr (by rw [nextPriority,if_neg (not_not.mpr hcontrol),if_pos hlower]; rfl)
  · exact .inl (by rw [nextPriority,if_pos hcontrol])

theorem prepareNext_turns {history : BleWritePriority → History UInt16 (List UInt8)}
    (hyields : Yields L train remaining) (h : Holds remaining tx history) (hboth : tx.BothQueued) :
    (tx.lowerChoice = none ∧ tx.prepareNext.2.preferRealtime = tx.preferRealtime) ∨
      (tx.lowerChoice = some tx.preferred ∧
        tx.prepareNext.2.preferRealtime = !tx.preferRealtime) := by
  rcases prepareNext_cases hyields h with ⟨prepared,hpending,hprepare⟩ | ⟨hpending,_,hprepare⟩ |
    ⟨priority,prefer,message,rest,cursor,fragment,hpending,hnext,_,_,hprepare⟩
  · exact .inl ⟨by rw [DriverTxScheduler.lowerChoice,hpending],by rw [hprepare]⟩
  · exact .inl ⟨by rw [DriverTxScheduler.lowerChoice,hpending,hprepare],by rw [hprepare]⟩
  · rcases nextPriority_of_both hboth with hcontrol | hlower
    · rw [hcontrol] at hnext
      simp only [Prod.mk.injEq,Option.some.injEq] at hnext
      obtain ⟨rfl,hprefer⟩ := hnext
      refine .inl ⟨by rw [DriverTxScheduler.lowerChoice,hpending,hprepare]; rfl,?_⟩
      rw [hprepare]
      simp only [preferRealtime_withQueue]
      exact (congrArg DriverTxScheduler.preferRealtime hprefer).symm
    · rw [hlower] at hnext
      simp only [Prod.mk.injEq,Option.some.injEq] at hnext
      obtain ⟨rfl,hprefer⟩ := hnext
      have hnot : tx.preferred ≠ .control := by
        unfold DriverTxScheduler.preferred
        split <;> simp
      refine .inr ⟨?_,?_⟩
      · rw [DriverTxScheduler.lowerChoice,hpending,hprepare]
        simp only [if_neg hnot]
      · rw [hprepare]
        simp only [preferRealtime_withQueue]
        exact (congrArg DriverTxScheduler.preferRealtime hprefer).symm

/-- No other operation that leaves both queues filled turns the preference. -/
theorem preferRealtime_step (hop : op ≠ .prepareNext)
    (h : (run.step maxTxRetainedBytes train op).driver.tx.BothQueued) :
    (run.step maxTxRetainedBytes train op).driver.tx.preferRealtime =
      run.driver.tx.preferRealtime := by
  cases op with
  | reserve message =>
    simp only [TxRun.step]
    split <;> rfl
  | discard index =>
    simp only [TxRun.step]
    split <;> rfl
  | enqueue index =>
    simp only [TxRun.step]
    split
    next => rfl
    next reserved _ =>
      rcases Driver.enqueue_cases { run.driver with
        waiting := run.driver.waiting.eraseIdx index } reserved with
        ⟨error,hrefused⟩ | ⟨cursor,_,_,hqueued⟩
      · rw [hrefused]
      · rw [hqueued]
        exact preferRealtime_withQueue
  | prepareNext => exact absurd rfl hop
  | confirmPending =>
    simp only [TxRun.step]
    split
    next => rfl
    next prepared hpending =>
      cases hcompletes : prepared.completesMessage with
      | false => rw [Driver.confirmPending_partial hpending hcompletes]
      | true =>
        simp only [Driver.confirmPending,hpending,hcompletes,if_true]
        split
        · rfl
        · exact preferRealtime_withQueue
  | fault => exact absurd rfl h.1
  | freshConnection => exact absurd rfl h.1

/-- While both queues stay filled their fragments alternate, starting with the preferred one. -/
theorem lowerChoices_alternate (hyields : Yields L train remaining)
    (h : Holds remaining run.driver.tx run.history)
    (hstays : run.StaysQueued maxTxRetainedBytes train ops) :
    (run.lowerChoices maxTxRetainedBytes train ops).IsChain (· ≠ ·) ∧
      ∀ first ∈ (run.lowerChoices maxTxRetainedBytes train ops).head?,
        first = run.driver.tx.preferred := by
  induction ops generalizing run with
  | nil => simp [TxRun.lowerChoices]
  | cons op ops ih =>
    obtain ⟨hboth,hrest⟩ := hstays
    obtain ⟨hchain,hhead⟩ := ih (TxRun.holds_step hyields h op) hrest
    by_cases hop : op = .prepareNext
    · subst hop
      rcases prepareNext_turns hyields h hboth with ⟨hnone,hprefer⟩ | ⟨hsome,hprefer⟩
      · simp only [TxRun.lowerChoices,TxRun.lowerChoice,hnone,Option.toList_none,List.nil_append]
        refine ⟨hchain,fun first hfirst => (hhead first hfirst).trans ?_⟩
        simp only [DriverTxScheduler.preferred,TxRun.step,hprefer]
      · simp only [TxRun.lowerChoices,TxRun.lowerChoice,hsome,Option.toList_some,
          List.singleton_append,List.head?_cons,Option.mem_def,Option.some.injEq,
          List.isChain_cons]
        refine ⟨⟨fun next hnext hsame => ?_,hchain⟩,fun _ hfirst => hfirst.symm⟩
        have hturned := hsame.trans (hhead next hnext)
        simp only [DriverTxScheduler.preferred,TxRun.step,hprefer] at hturned
        cases hturn : run.driver.tx.preferRealtime <;> simp [hturn] at hturned
    · have hnone : run.lowerChoice op = none := by
        cases op <;> first | rfl | exact absurd rfl hop
      simp only [TxRun.lowerChoices,hnone,Option.toList_none,List.nil_append]
      refine ⟨hchain,fun first hfirst => (hhead first hfirst).trans ?_⟩
      simp only [DriverTxScheduler.preferred,preferRealtime_step hop hrest.both]

end Turns

section Exact

def openTrains (current : BleWritePriority → Option (Train UInt16 (List UInt8))) :
    List (Train UInt16 (List UInt8)) :=
  [BleWritePriority.control,.realtime,.repair].filterMap current

theorem TxRun.counted_after (hyields : Yields L train remaining) {run : TxRun L}
    (h : Holds remaining run.driver.tx run.history) (hcounted : Counted run.driver)
    (ops : List TxOp) : Counted (run.after maxTxRetainedBytes train ops).driver := by
  induction ops generalizing run with
  | nil => exact hcounted
  | cons op ops ih =>
    exact ih (TxRun.holds_step hyields h op) (TxRun.counted_step hyields h hcounted op)

theorem holds_start : Holds remaining ({} : TxRun L).driver.tx ({} : TxRun L).history :=
  holds_empty (fun priority => by cases priority <;> rfl) rfl

theorem counted_start : Counted ({} : TxRun L).driver := ⟨rfl,rfl⟩

/-- Some operations of a driver that has just been set up lead to this run. -/
def TxRun.Reached (maxTxRetainedBytes : Nat) (train : BleWriteMessage → List (List UInt8))
    (run : TxRun L) : Prop :=
  ∃ ops, run = ({} : TxRun L).after maxTxRetainedBytes train ops

/-- After any operations: each priority's trains go out in order and whole up to the current one,
whose id is still to be returned; the lower queues take turns while both stay filled; a faulted
scheduler accepts nothing; and the counters count what is reserved. -/
theorem tx_scheduler_exact (hyields : Yields L train remaining) {run : TxRun L}
    (hrun : run.Reached maxTxRetainedBytes train) :
    (∃ current, (openTrains current).length ≤ 3 ∧
      ∀ priority, Progress (run.history priority) (current priority)) ∧
    (∀ later, run.StaysQueued maxTxRetainedBytes train later →
      (run.lowerChoices maxTxRetainedBytes train later).IsChain (· ≠ ·)) ∧
    (run.driver.tx.faulted = true → ∀ reserved,
      (∃ error, (run.driver.enqueue reserved).1 = .error error) ∧
        (run.driver.enqueue reserved).2.tx = run.driver.tx) ∧
    Counted run.driver := by
  obtain ⟨ops,rfl⟩ := hrun
  have hholds := TxRun.holds_after maxTxRetainedBytes hyields holds_start ops
  refine ⟨?_,fun later hstays => (lowerChoices_alternate hyields hholds hstays).1,
    fun hfaulted reserved => ?_,TxRun.counted_after hyields holds_start counted_start ops⟩
  · choose done sent hexact using hholds.exact
    exact ⟨_,List.length_filterMap_le _ _,fun priority => (hexact priority).progress⟩
  · rcases Driver.enqueue_cases _ reserved with ⟨error,hrefused⟩ | ⟨cursor,hopen,_,_⟩
    · exact ⟨⟨error,by rw [hrefused]⟩,by rw [hrefused]⟩
    · rw [hfaulted] at hopen
      cases hopen

def byteFragments : FragmentLibrary where
  Cursor := List UInt8
  newCursor _ wire _ := if wire = [] then .error "empty BLE message" else .ok wire
  fragmentValueBytes _ := 1
  encodeNext
    | [], _ => (.ok none,[])
    | byte :: rest, _ => (.ok (some (1,[byte])),rest)
  isComplete := List.isEmpty

def byteTrain (wire : List UInt8) : List (List UInt8) := wire.map fun byte => [byte]

theorem yields_byteFragments :
    Yields byteFragments (fun message => byteTrain message.wire) byteTrain where
  begins message cursor h := by
    by_cases hwire : message.wire = []
    · simp [byteFragments,hwire] at h
    · simp only [byteFragments,if_neg hwire] at h
      cases h
      exact ⟨rfl,by simpa [byteTrain] using hwire⟩
  next cursor fragment rest h := by
    cases cursor with
    | nil => simp [byteTrain] at h
    | cons byte cursor =>
      simp only [byteTrain,List.map_cons,List.cons.injEq] at h
      exact ⟨1,[byte],cursor,rfl,h.1,h.2⟩
  complete cursor := by
    cases cursor with
    | nil => simp [byteFragments,byteTrain]
    | cons byte cursor => simp [byteFragments,byteTrain]

def interleavedOps : List TxOp :=
  [.freshConnection,.reserve ⟨1,[10,11],1,.repair⟩,.enqueue 0,.prepareNext,.confirmPending,
    .reserve ⟨2,[20],1,.realtime⟩,.enqueue 0,.prepareNext,.confirmPending]

theorem tx_scheduler_exact_interleaved :
    Counted (({} : TxRun byteFragments).after 100 (fun message => byteTrain message.wire)
        interleavedOps).driver ∧
      ((({} : TxRun byteFragments).after 100 (fun message => byteTrain message.wire)
        interleavedOps).history .realtime).returned = [2] :=
  ⟨(tx_scheduler_exact yields_byteFragments ⟨interleavedOps,rfl⟩).2.2.2,by decide⟩

end Exact

end WalkieSongie.Ble
