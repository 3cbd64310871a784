import WalkieSongie.BleCentral
import WalkieSongie.BleTrains
set_option autoImplicit false

/-!
What the log of a central's calls says of the discovery, the links and the listeners that it has
open, and that its programs keep account of them.
-/

namespace WalkieSongie.Ble.Central
open Carrier (BleAddress BleHostError BleHostEvent)
open TaskProgram

variable {L : FragmentLibrary} {ε : Type} {central after : Central L} {address : BleAddress}
  {calls : List OsRecord} {holder heard : Option BleAddress}

/-! ### What sending leaves alone -/

def QueueOnly (central after : Central L) : Prop :=
  ∃ events dropped sent polled, after = { central with events, dropped, sent, polled }

theorem QueueOnly.trans {last : Central L} (h : QueueOnly central after)
    (h' : QueueOnly after last) : QueueOnly central last := by
  obtain ⟨_,_,_,_,rfl⟩ := h
  obtain ⟨events,dropped,sent,polled,rfl⟩ := h'
  exact ⟨events,dropped,sent,polled,rfl⟩

theorem QueueOnly.enqueue (central : Central L) (event : BleHostEvent) :
    QueueOnly central (central.enqueue event) := by
  unfold Central.enqueue
  dsimp only
  split
  · exact ⟨_,_,_,_,rfl⟩
  · split <;> exact ⟨_,_,_,_,rfl⟩

theorem QueueOnly.pollEvent (central : Central L) : QueueOnly central central.pollEvent.2 := by
  unfold Central.pollEvent
  split
  · exact ⟨_,_,_,_,rfl⟩
  · split <;> exact ⟨_,_,_,_,rfl⟩

theorem QueueOnly.during (central : Central L) (meanwhile : Meanwhile) :
    QueueOnly central (central.during meanwhile) := by
  cases meanwhile with
  | poll =>
    simp only [Central.during]
    split
    · exact ⟨_,_,_,_,rfl⟩
    · exact .pollEvent central
  | info bytes => exact .enqueue central _
  | notification bytes => exact .enqueue central _

theorem QueueOnly.others (central : Central L) (others : List Meanwhile) :
    QueueOnly central (others.foldl Central.during central) := by
  induction others generalizing central with
  | nil => exact ⟨_,_,_,_,rfl⟩
  | cons meanwhile others ih => exact (QueueOnly.during central meanwhile).trans (ih _)

theorem QueueOnly.sending (central : Central L) (event : BleHostEvent) :
    QueueOnly central (central.sending event) :=
  (QueueOnly.others central _).trans (.enqueue _ event)

@[simp]
theorem sending_platform (central : Central L) (event : BleHostEvent) :
    (central.sending event).platform = central.platform := by
  obtain ⟨_,_,_,_,hsent⟩ := QueueOnly.sending central event
  rw [hsent]

@[simp]
theorem sending_running (central : Central L) (event : BleHostEvent) :
    (central.sending event).running = central.running := by
  obtain ⟨_,_,_,_,hsent⟩ := QueueOnly.sending central event
  rw [hsent]

@[simp]
theorem sending_adapter (central : Central L) (event : BleHostEvent) :
    (central.sending event).adapter = central.adapter := by
  obtain ⟨_,_,_,_,hsent⟩ := QueueOnly.sending central event
  rw [hsent]

@[simp]
theorem sending_scanState (central : Central L) (event : BleHostEvent) :
    (central.sending event).scanState = central.scanState := by
  obtain ⟨_,_,_,_,hsent⟩ := QueueOnly.sending central event
  rw [hsent]

@[simp]
theorem sending_connection (central : Central L) (event : BleHostEvent) :
    (central.sending event).connection = central.connection := by
  obtain ⟨_,_,_,_,hsent⟩ := QueueOnly.sending central event
  rw [hsent]

@[simp]
theorem sending_pendingConnect (central : Central L) (event : BleHostEvent) :
    (central.sending event).pendingConnect = central.pendingConnect := by
  obtain ⟨_,_,_,_,hsent⟩ := QueueOnly.sending central event
  rw [hsent]

@[simp]
theorem sending_tx (central : Central L) (event : BleHostEvent) :
    (central.sending event).tx = central.tx := by
  obtain ⟨_,_,_,_,hsent⟩ := QueueOnly.sending central event
  rw [hsent]

@[simp]
theorem sending_calls (central : Central L) (event : BleHostEvent) :
    (central.sending event).calls = central.calls := by
  obtain ⟨_,_,_,_,hsent⟩ := QueueOnly.sending central event
  rw [hsent]

@[simp]
theorem sending_commands (central : Central L) (event : BleHostEvent) :
    (central.sending event).commands = central.commands := by
  obtain ⟨_,_,_,_,hsent⟩ := QueueOnly.sending central event
  rw [hsent]

@[simp]
theorem sending_shutdown (central : Central L) (event : BleHostEvent) :
    (central.sending event).shutdown = central.shutdown := by
  obtain ⟨_,_,_,_,hsent⟩ := QueueOnly.sending central event
  rw [hsent]

theorem enqueue_sent (central : Central L) (event : BleHostEvent) :
    (central.enqueue event).sent = central.sent ++ [event] := by
  unfold enqueue
  dsimp only
  split
  · rfl
  · split <;> rfl

theorem pollEvent_sent (central : Central L) : central.pollEvent.2.sent = central.sent := by
  unfold pollEvent
  split
  · rfl
  · split <;> rfl

/-! ### Reading the logs -/

def discoverStep (held : Option Nat) : OsRecord → Option Nat
  | ⟨.startScan adapter,.ok ()⟩ => some adapter
  | ⟨.stopScan _,.ok ()⟩ | ⟨.openAdapter,.ok true⟩ => none
  | _ => held

/-- The adapter on which a discovery of this driver's own is on. An adapter that is replaced takes
its discovery with it. -/
def discovering (calls : List OsRecord) : Option Nat := calls.foldl discoverStep none

def takeStep (taken : BleAddress → Bool) : OsRecord → BleAddress → Bool
  | ⟨.connect address,_⟩ => Function.update taken address true
  | ⟨.disconnect address,_⟩ | ⟨.isConnected address,.ok false⟩ =>
    Function.update taken address false
  | _ => taken

/-- Whether a board was asked to connect, and since then neither asked to disconnect nor found
disconnected. -/
def taken (calls : List OsRecord) : BleAddress → Bool := calls.foldl takeStep fun _ => false

def listenStep (listener : Option (Option BleAddress)) : OsRecord → Option (Option BleAddress)
  | ⟨.spawnListener address,_⟩ => if listener = some none then some (some address) else none
  | ⟨.abortListener address,_⟩ => if listener = some (some address) then some none else none
  | _ => listener

/-- The board whose notifications are listened to, as long as they are of one board at a time. -/
def listening (calls : List OsRecord) : Option (Option BleAddress) :=
  calls.foldl listenStep (some none)

def writeStep (written : List (List UInt8)) : OsRecord → List (List UInt8)
  | ⟨.connect _,_⟩ => []
  | ⟨.write _ _ value _,.ok ()⟩ => written ++ [value]
  | _ => written

def written (calls : List OsRecord) : List (List UInt8) := calls.foldl writeStep []

/-- The board that the host was told is connected, and the messages that it was told are written
to it. -/
abbrev Told := Option (BleAddress × List UInt16)

def toldStep (told : Option Told) : BleHostEvent → Option Told
  | .connected address _ => if told = some none then some (some (address,[])) else none
  | .disconnected address _ =>
    match told with
    | some (some (other,_)) => if other = address then some none else none
    | _ => none
  | .writeComplete messageId =>
    match told with
    | some (some (address,completed)) => some (some (address,completed ++ [messageId]))
    | _ => none
  | _ => told

/-- What the host was told, as long as it was told in order. -/
def told (events : List BleHostEvent) : Option Told := events.foldl toldStep (some none)

@[simp] theorem discovering_append (record : OsRecord) :
    discovering (calls ++ [record]) = discoverStep (discovering calls) record := by
  simp [discovering]

@[simp] theorem taken_append (record : OsRecord) :
    taken (calls ++ [record]) = takeStep (taken calls) record := by
  simp [taken]

@[simp] theorem listening_append (record : OsRecord) :
    listening (calls ++ [record]) = listenStep (listening calls) record := by
  simp [listening]

@[simp] theorem written_append (record : OsRecord) :
    written (calls ++ [record]) = writeStep (written calls) record := by
  simp [written]

@[simp] theorem told_append (events : List BleHostEvent) (event : BleHostEvent) :
    told (events ++ [event]) = toldStep (told events) event := by
  simp [told]

/-- No discovery is stopped but the driver's own. -/
def StopsOwn (calls : List OsRecord) : Prop :=
  ∀ index adapter answer, calls[index]? = some ⟨.stopScan adapter,answer⟩ →
    discovering (calls.take index) = some adapter

theorem StopsOwn.append {record : OsRecord} (h : StopsOwn calls)
    (hstop : ∀ adapter answer, record = ⟨.stopScan adapter,answer⟩ →
      discovering calls = some adapter) : StopsOwn (calls ++ [record]) := by
  intro index adapter answer hfound
  rcases Nat.lt_or_ge index calls.length with hlt | hge
  · rw [List.getElem?_append_left hlt] at hfound
    rw [List.take_append_of_le_length (Nat.le_of_lt hlt)]
    exact h index adapter answer hfound
  · rw [List.getElem?_append_right hge,List.getElem?_singleton] at hfound
    split at hfound
    · rename_i hindex
      obtain rfl : index = calls.length := by omega
      rw [List.take_left']
      · exact hstop adapter answer (Option.some.inj hfound)
      · rfl
    · cases hfound

/-! ### Keeping account -/

/-- The account: a discovery that the driver takes for its own is, only the holder may be taken,
and one board is listened to. -/
structure Ledger (holder heard : Option BleAddress) (central : Central L) : Prop where
  scan : central.scanState = .owned → discovering central.calls = some central.adapter
  stops : StopsOwn central.calls
  links : ∀ address, taken central.calls address = true → holder = some address
  listener : listening central.calls = some heard

/-- The calls that leave discovery, links, listeners and what was written alone, or give a board
up. -/
def neutral : OsCall → Bool
  | .openAdapter | .startScan _ | .stopScan _ | .connect _ | .spawnListener _ | .abortListener _
  | .write _ _ _ _ => false
  | _ => true

theorem taken_of_neutral {call : OsCall} (hcall : neutral call = true) (answer : call.Answer)
    (h : taken (calls ++ [⟨call,answer⟩]) address = true) : taken calls address = true := by
  rw [taken_append] at h
  have hupdate : ∀ other, Function.update (taken calls) other false address = true →
      taken calls address = true := by
    intro other hother
    by_cases hsame : address = other
    · simp [hsame] at hother
    · simpa [hsame] using hother
  cases call with
  | disconnect other => exact hupdate other h
  | isConnected other =>
    cases answer with
    | ok connected =>
      cases connected with
      | true => exact h
      | false => exact hupdate other h
    | error error => exact h
  | _ => first | exact h | simp [neutral] at hcall

theorem discoverStep_of_neutral {call : OsCall} (hcall : neutral call = true)
    (answer : call.Answer) (held : Option Nat) : discoverStep held ⟨call,answer⟩ = held := by
  cases call <;> first | rfl | simp [neutral] at hcall

theorem writeStep_of_neutral {call : OsCall} (hcall : neutral call = true)
    (answer : call.Answer) (values : List (List UInt8)) :
    writeStep values ⟨call,answer⟩ = values := by
  cases call <;> first | rfl | simp [neutral] at hcall

theorem listenStep_of_neutral {call : OsCall} (hcall : neutral call = true)
    (answer : call.Answer) (listener : Option (Option BleAddress)) :
    listenStep listener ⟨call,answer⟩ = listener := by
  cases call <;> first | rfl | simp [neutral] at hcall

theorem Ledger.asked {call : OsCall} {answer : call.Answer} {holder' heard' : Option BleAddress}
    (h : Ledger holder heard central)
    (hscan : central.scanState = .owned →
      discoverStep (discovering central.calls) ⟨call,answer⟩ = some central.adapter)
    (hstop : ∀ adapter other, (⟨call,answer⟩ : OsRecord) = ⟨.stopScan adapter,other⟩ →
      discovering central.calls = some adapter)
    (hlinks : ∀ address, takeStep (taken central.calls) ⟨call,answer⟩ address = true →
      holder' = some address)
    (hlistener : listenStep (some heard) ⟨call,answer⟩ = some heard') :
    Ledger holder' heard' (central.asked call answer) where
  scan howned := by
    simp only [Central.asked,discovering_append]
    exact hscan howned
  stops := h.stops.append hstop
  links address hlinked := by
    simp only [Central.asked,taken_append] at hlinked
    exact hlinks address hlinked
  listener := by
    simp only [Central.asked,listening_append,h.listener]
    exact hlistener

theorem Ledger.neutral {call : OsCall} (h : Ledger holder heard central)
    (hcall : neutral call = true) (answer : call.Answer) :
    Ledger holder heard (central.asked call answer) := by
  refine h.asked (fun howned => ?_) (fun adapter other hsame => ?_) (fun address hlinked => ?_) ?_
  · rw [discoverStep_of_neutral hcall]
    exact h.scan howned
  · obtain rfl := congrArg Sigma.fst hsame
    simp [Central.neutral] at hcall
  · rw [← taken_append] at hlinked
    exact h.links address (taken_of_neutral hcall answer hlinked)
  · exact listenStep_of_neutral hcall answer _

theorem Ledger.of_eq (h : Ledger holder heard central) (hcalls : after.calls = central.calls)
    (hadapter : after.adapter = central.adapter) (hscan : after.scanState = central.scanState) :
    Ledger holder heard after where
  scan howned := by
    rw [hcalls,hadapter]
    exact h.scan (hscan ▸ howned)
  stops := hcalls ▸ h.stops
  links := hcalls ▸ h.links
  listener := hcalls ▸ h.listener

def reportsDropped : BleHostEvent → Bool
  | .eventsDropped _ => true
  | _ => false

def lost (events : List BleHostEvent) : Nat :=
  (events.map fun event => match event with
    | .eventsDropped count => count
    | _ => 0).sum

theorem lost_append (events : List BleHostEvent) (event : BleHostEvent) :
    lost (events ++ [event]) = lost events + lost [event] := by
  simp [lost]

/-- Every event has come to the host, waits for it or is counted, and none has come before one that
was sent before it. -/
structure AllAccounted (sent polled waiting : List BleHostEvent) (dropped : Nat)
    (shutdown : Bool) : Prop where
  plain : ∀ event ∈ sent, reportsDropped event = false
  order : ((polled.filter fun event => !reportsDropped event) ++ waiting).Sublist sent
  count : shutdown = false → sent.length =
    (polled.filter fun event => !reportsDropped event).length + waiting.length + dropped +
      lost polled

def Accounted (central : Central L) : Prop :=
  AllAccounted central.sent central.polled central.events.items central.dropped central.shutdown

theorem Accounted.enqueue {event : BleHostEvent} (h : Accounted central)
    (hevent : reportsDropped event = false) : Accounted (central.enqueue event) := by
  have hplain : ∀ other ∈ central.sent ++ [event], reportsDropped other = false := by
    intro other hother
    rcases List.mem_append.mp hother with hold | hnew
    · exact h.plain other hold
    · rw [List.mem_singleton.mp hnew]
      exact hevent
  have hlater := h.order.trans (List.sublist_append_left central.sent [event])
  unfold Central.enqueue
  dsimp only
  split
  · rename_i hshutdown
    exact ⟨hplain,hlater,fun hopen => absurd (hshutdown.symm.trans hopen) (by simp)⟩
  · rename_i hopen
    have hcount := h.count (by simpa using hopen)
    split
    · rename_i events hpush
      obtain ⟨-,hitems,-⟩ := BoundedQueue.push_eq_some hpush
      refine ⟨hplain,?_,fun _ => ?_⟩
      · rw [hitems,← List.append_assoc]
        exact h.order.append_right [event]
      · simp only [hitems,List.length_append,List.length_singleton]
        omega
    · refine ⟨hplain,hlater,fun _ => ?_⟩
      simp only [List.length_append,List.length_singleton]
      omega

theorem Accounted.poll (h : Accounted central) : Accounted central.pollEvent.2 := by
  unfold pollEvent
  split
  · rename_i event events hpop
    obtain ⟨hitems,-⟩ := BoundedQueue.pop_eq_some hpop
    have hevent : reportsDropped event = false := by
      refine h.plain event (h.order.subset (List.mem_append_right _ ?_))
      rw [hitems]
      exact List.mem_cons_self
    have hlost : lost [event] = 0 := by
      cases event <;> first | rfl | simp [reportsDropped] at hevent
    have horder := h.order
    refine ⟨h.plain,?_,fun hopen => ?_⟩
    · rw [hitems] at horder
      simpa [List.filter_append,hevent] using horder
    · have hcount := h.count hopen
      rw [hitems,List.length_cons] at hcount
      rw [lost_append,hlost,List.filter_append,List.length_append]
      simp only [List.filter_cons,hevent,Bool.not_false,if_true,List.filter_nil,
        List.length_singleton]
      omega
  · split
    · exact h
    · refine ⟨h.plain,?_,fun hopen => ?_⟩
      · simpa [List.filter_append,reportsDropped] using h.order
      · have hcount := h.count hopen
        have hlost : lost [.eventsDropped central.dropped] = central.dropped := by simp [lost]
        have hreports : reportsDropped (.eventsDropped central.dropped) = true := rfl
        change central.sent.length = _ + central.events.items.length + 0 + _
        rw [lost_append,hlost,List.filter_append,List.length_append]
        simp only [List.filter_cons,hreports,Bool.not_true,Bool.false_eq_true,if_false,
          List.filter_nil,List.length_nil]
        omega

theorem Accounted.during (h : Accounted central) (meanwhile : Meanwhile) :
    Accounted (central.during meanwhile) := by
  cases meanwhile with
  | poll =>
    simp only [Central.during]
    split
    · exact h
    · exact h.poll
  | info bytes => exact h.enqueue rfl
  | notification bytes => exact h.enqueue rfl

theorem Accounted.others (h : Accounted central) (others : List Meanwhile) :
    Accounted (others.foldl Central.during central) := by
  induction others generalizing central with
  | nil => exact h
  | cons meanwhile others ih => exact ih (h.during meanwhile)

theorem Accounted.sending {event : BleHostEvent} (h : Accounted central)
    (hevent : reportsDropped event = false) : Accounted (central.sending event) :=
  (h.others _).enqueue hevent

/-- What a program that serves no connection leaves alone. -/
structure Apart (central after : Central L) : Prop where
  platform : after.platform = central.platform
  running : after.running = central.running
  connection : after.connection = central.connection
  pendingConnect : after.pendingConnect = central.pendingConnect
  tx : after.tx = central.tx
  commands : after.commands = central.commands
  shutdown : after.shutdown = central.shutdown
  told : told after.sent = told central.sent
  accounted : Accounted central → Accounted after

theorem Apart.refl (central : Central L) : Apart central central :=
  ⟨rfl,rfl,rfl,rfl,rfl,rfl,rfl,rfl,id⟩

theorem Apart.trans {last : Central L} (h : Apart central after) (h' : Apart after last) :
    Apart central last where
  platform := h'.platform.trans h.platform
  running := h'.running.trans h.running
  connection := h'.connection.trans h.connection
  pendingConnect := h'.pendingConnect.trans h.pendingConnect
  tx := h'.tx.trans h.tx
  commands := h'.commands.trans h.commands
  shutdown := h'.shutdown.trans h.shutdown
  told := h'.told.trans h.told
  accounted hcentral := h'.accounted (h.accounted hcentral)

theorem Apart.asked (central : Central L) (call : OsCall) (answer : call.Answer) :
    Apart central (central.asked call answer) := ⟨rfl,rfl,rfl,rfl,rfl,rfl,rfl,rfl,id⟩

/-- A program that keeps account besides. -/
structure Keeps (central after : Central L) : Prop extends Apart central after where
  ledger : ∀ holder heard, Ledger holder heard central → Ledger holder heard after
  written : written after.calls = written central.calls

/-- A program that leaves the discovery alone as well. -/
structure Leaves (central after : Central L) : Prop extends Keeps central after where
  scanState : after.scanState = central.scanState

theorem Keeps.trans {last : Central L} (h : Keeps central after) (h' : Keeps after last) :
    Keeps central last where
  toApart := h.toApart.trans h'.toApart
  ledger holder heard hledger := h'.ledger holder heard (h.ledger holder heard hledger)
  written := h'.written.trans h.written

theorem Leaves.refl (central : Central L) : Leaves central central :=
  ⟨⟨Apart.refl central,fun _ _ => id,rfl⟩,rfl⟩

theorem Leaves.trans {last : Central L} (h : Leaves central after) (h' : Leaves after last) :
    Leaves central last := ⟨h.toKeeps.trans h'.toKeeps,h'.scanState.trans h.scanState⟩

theorem Leaves.asked {call : OsCall} (central : Central L) (hcall : neutral call = true)
    (answer : call.Answer) : Leaves central (central.asked call answer) where
  toApart := Apart.asked central call answer
  ledger _ _ h := h.neutral hcall answer
  written := by simp only [Central.asked,written_append,writeStep_of_neutral hcall]
  scanState := rfl

/-- What the host is told of something else than connections and messages. -/
def aside : BleHostEvent → Bool
  | .connected _ _ | .disconnected _ _ | .writeComplete _ | .eventsDropped _ => false
  | _ => true

theorem toldStep_of_aside {event : BleHostEvent} (h : aside event = true) (held : Option Told) :
    toldStep held event = held := by
  cases event <;> first | rfl | simp [aside] at h

theorem told_during (central : Central L) (meanwhile : Meanwhile) :
    told (central.during meanwhile).sent = told central.sent := by
  cases meanwhile with
  | poll =>
    simp only [during]
    split
    · rfl
    · rw [pollEvent_sent]
  | info bytes => rw [during,enqueue_sent,told_append]; rfl
  | notification bytes => rw [during,enqueue_sent,told_append]; rfl

theorem told_others (central : Central L) (others : List Meanwhile) :
    told (others.foldl during central).sent = told central.sent := by
  induction others generalizing central with
  | nil => rfl
  | cons meanwhile others ih => rw [List.foldl_cons,ih,told_during]

theorem told_sending (central : Central L) (event : BleHostEvent) :
    told (central.sending event).sent = toldStep (told central.sent) event := by
  rw [sending,enqueue_sent,told_append,told_others]

theorem Leaves.queueOnly (h : QueueOnly central after) (htold : told after.sent = told central.sent)
    (haccounted : Accounted central → Accounted after) : Leaves central after := by
  obtain ⟨_,_,_,_,rfl⟩ := h
  exact ⟨⟨⟨rfl,rfl,rfl,rfl,rfl,rfl,rfl,htold,haccounted⟩,fun _ _ h => h.of_eq rfl rfl rfl,rfl⟩,rfl⟩

theorem Leaves.during (central : Central L) (meanwhile : Meanwhile) :
    Leaves central (central.during meanwhile) :=
  .queueOnly (.during central meanwhile) (told_during central meanwhile)
    fun haccounted => haccounted.during meanwhile

theorem Leaves.sending {event : BleHostEvent} (central : Central L) (h : aside event = true) :
    Leaves central (central.sending event) := by
  refine .queueOnly (.sending central event) ?_ fun haccounted => haccounted.sending ?_
  · rw [told_sending,toldStep_of_aside h]
  · cases event <;> first | rfl | simp [aside] at h

/-! ### Programs that keep account -/

theorem stays_ask {call : OsCall} (hcall : neutral call = true) :
    Stays Leaves (ask call : EStateM ε (Central L) call.Answer) :=
  fun central => Leaves.asked central hcall _

theorem stays_sendEvent {event : BleHostEvent} (h : aside event = true) :
    Stays Leaves (sendEvent event : EStateM ε (Central L) Unit) :=
  Stays.modifying fun central => Leaves.sending central h

theorem stays_sendHostError (error : BleHostError) :
    Stays Leaves (sendHostError error : EStateM ε (Central L) Unit) := by
  cases error <;> exact stays_sendEvent rfl

theorem stays_pure {α : Type} (value : α) :
    Stays Leaves (pure value : EStateM ε (Central L) α) := Stays.pure Leaves.refl value

theorem stays_throw {α : Type} (error : ε) :
    Stays Leaves (throw error : EStateM ε (Central L) α) := Stays.throw Leaves.refl error

theorem stays_bind {α β : Type} {first : EStateM ε (Central L) β}
    {next : β → EStateM ε (Central L) α} (h : Stays Leaves first)
    (hnext : ∀ value, Stays Leaves (next value)) : Stays Leaves (first >>= next) :=
  Stays.bind (fun _ _ _ hfirst hsecond => hfirst.trans hsecond) h hnext

theorem stays_clearReported : Stays Leaves (clearReported : EStateM ε (Central L) Unit) :=
  Stays.modifying fun _ =>
    ⟨⟨⟨rfl,rfl,rfl,rfl,rfl,rfl,rfl,rfl,id⟩,fun _ _ h => h.of_eq rfl rfl rfl,rfl⟩,rfl⟩

theorem stays_asking {α : Type} {action : String} {call : OsCall}
    {result : call.Answer → Except OsError α} (hcall : neutral call = true) :
    Stays Leaves (asking (L := L) action call result) := by
  unfold asking
  refine stays_bind (stays_ask hcall) fun answer => ?_
  cases result answer with
  | ok value => exact stays_pure value
  | error error => exact stays_throw _

theorem stays_refreshPeripheral (address : BleAddress) :
    Stays Leaves (refreshPeripheral (L := L) address) := by
  refine stays_bind (stays_ask rfl) fun answer => ?_
  cases answer with
  | error error => exact stays_sendEvent rfl
  | ok properties =>
    cases properties with
    | none => exact stays_pure ()
    | some properties =>
      refine Stays.get fun central => ?_
      split
      · refine stays_bind (Stays.modifying fun _ => ?_) fun _ => stays_sendEvent rfl
        exact ⟨⟨⟨rfl,rfl,rfl,rfl,rfl,rfl,rfl,rfl,id⟩,fun _ _ h => h.of_eq rfl rfl rfl,rfl⟩,rfl⟩
      · exact stays_pure ()

theorem stays_forM {α : Type} {items : List α} {body : α → EStateM ε (Central L) PUnit}
    (hbody : ∀ item, Stays Leaves (body item)) :
    Stays Leaves (items.forM body : EStateM ε (Central L) PUnit) := by
  induction items with
  | nil => exact stays_pure _
  | cons item rest ih => exact stays_bind (hbody item) fun _ => ih

theorem stays_refreshScanResults : Stays Leaves (refreshScanResults (L := L)) := by
  refine Stays.get fun central => stays_bind (stays_ask rfl) fun answer => ?_
  cases answer with
  | ok peripherals => exact stays_forM stays_refreshPeripheral
  | error error => exact stays_sendHostError _

theorem stays_settle (address : BleAddress) (action : String) (deadline polls : Nat) :
    Stays Leaves (settle (L := L) address action deadline polls) := by
  induction polls with
  | zero => exact stays_throw _
  | succ polls ih =>
    refine stays_bind (stays_ask rfl) fun answer => ?_
    cases answer with
    | error error =>
      dsimp only
      split
      · exact stays_pure ()
      · exact stays_throw _
    | ok connected =>
      cases connected with
      | false => exact stays_pure ()
      | true =>
        refine Stays.get fun central => ?_
        split
        · exact stays_throw _
        · exact stays_bind (stays_ask rfl) fun _ => ih

theorem stays_disconnectLink (address : BleAddress) (action : String) :
    Stays Leaves (disconnectLink (L := L) address action) := by
  refine stays_bind (stays_ask rfl) fun answer => ?_
  cases answer with
  | ok value => exact stays_pure ()
  | error error =>
    dsimp only
    split
    · exact stays_pure ()
    · exact stays_throw _

theorem stays_disconnectAndSettle (address : BleAddress) (action : String) :
    Stays Leaves (disconnectAndSettle (L := L) address action) :=
  stays_bind (stays_disconnectLink address action) fun _ =>
    Stays.get fun _ => stays_settle address action _ _

theorem stays_linkIsConnected (address : BleAddress) :
    Stays Leaves (linkIsConnected (L := L) address) := by
  refine stays_bind (stays_ask rfl) fun answer => ?_
  cases answer <;> exact stays_pure _

theorem stays_resetConnected (address : BleAddress) :
    Stays Leaves (resetConnected (L := L) address) := by
  refine stays_bind (stays_linkIsConnected address) fun connected => ?_
  split
  · exact stays_disconnectAndSettle address _
  · exact stays_pure ()

theorem stays_readInfo (address : BleAddress) (info : Characteristic) :
    Stays Leaves (readInfo (L := L) address info) := by
  unfold readInfo
  split
  · refine stays_bind (stays_ask rfl) fun answer => ?_
    cases answer with
    | ok value => exact stays_pure _
    | error error =>
      refine stays_bind (stays_ask rfl) fun connected => ?_
      split
      · exact stays_pure _
      · exact stays_bind (stays_sendEvent rfl) fun _ => stays_pure _
  · exact stays_pure _

theorem stays_findBoard (address : BleAddress) : Stays Leaves (findBoard (L := L) address) :=
  Stays.get fun _ => stays_bind (stays_asking rfl) fun _ => stays_pure _

/-! ### Discovery -/

theorem post_ask {α : Type} {Q : α → Central L → Prop} {E : ε → Central L → Prop} {call : OsCall}
    {next : call.Answer → EStateM ε (Central L) α}
    (h : ∀ answer, Post Q E (next answer (central.asked call answer))) :
    Post Q E ((ask call >>= next) central) := h _

theorem Keeps.setScan {scanState : ScanState} (central : Central L) (h : scanState ≠ .owned) :
    Keeps central { central with scanState } :=
  ⟨⟨rfl,rfl,rfl,rfl,rfl,rfl,rfl,rfl,id⟩,fun _ _ hledger =>
    { hledger with scan := fun howned => absurd howned h },rfl⟩

/-- A call of the discovery, and what the driver takes the discovery for after it. -/
theorem Keeps.discovery {call : OsCall} {answer : call.Answer} (h : Apart central after)
    (hcalls : after.calls = central.calls ++ [⟨call,answer⟩])
    (hlinks : takeStep (taken central.calls) ⟨call,answer⟩ = taken central.calls)
    (hlistener : ∀ listener, listenStep listener ⟨call,answer⟩ = listener)
    (hwritten : writeStep (Central.written central.calls) ⟨call,answer⟩ =
      Central.written central.calls)
    (hstop : ∀ adapter other, (⟨call,answer⟩ : OsRecord) = ⟨.stopScan adapter,other⟩ →
      central.scanState = .owned ∧ adapter = central.adapter)
    (hscan : after.scanState = .owned →
      (central.scanState = .owned → discovering central.calls = some central.adapter) →
        discoverStep (discovering central.calls) ⟨call,answer⟩ = some after.adapter) :
    Keeps central after := by
  refine ⟨h,fun holder heard hledger => ⟨fun howned => ?_,?_,fun address hlinked => ?_,?_⟩,?_⟩
  · rw [hcalls,discovering_append]
    exact hscan howned hledger.scan
  · rw [hcalls]
    refine hledger.stops.append fun adapter other hsame => ?_
    obtain ⟨howned,rfl⟩ := hstop adapter other hsame
    exact hledger.scan howned
  · rw [hcalls,taken_append,hlinks] at hlinked
    exact hledger.links address hlinked
  · rw [hcalls,listening_append,hlistener]
    exact hledger.listener
  · rw [hcalls,written_append,hwritten]

theorem ensureScanActive_post (central : Central L) :
    Post (fun _ after => Keeps central after ∧ after.scanState.isActive = true)
      (fun _ after => Keeps central after ∧ central.scanState = .idle)
      (ensureScanActive central) := by
  refine Post.getting ?_
  by_cases hactive : central.scanState.isActive = true
  · rw [if_pos hactive]
    exact ⟨(stays_clearReported (ε := BleHostError) central).toKeeps,hactive⟩
  · rw [if_neg hactive]
    have hidle : central.scanState = .idle := by simpa [ScanState.isActive] using hactive
    refine post_ask fun answer => ?_
    cases answer with
    | ok value =>
      exact ⟨.discovery ⟨rfl,rfl,rfl,rfl,rfl,rfl,rfl,rfl,id⟩ rfl rfl (fun _ => rfl) rfl
        (fun _ _ hsame => by cases hsame) fun _ _ => rfl,rfl⟩
    | error error =>
      dsimp only
      split
      · refine ⟨.discovery ⟨rfl,rfl,rfl,rfl,rfl,rfl,rfl,rfl,id⟩ rfl rfl (fun _ => rfl) rfl
          (fun _ _ hsame => by cases hsame) fun howned => ?_,rfl⟩
        cases howned
      · refine ⟨.discovery ⟨rfl,rfl,rfl,rfl,rfl,rfl,rfl,rfl,id⟩ rfl rfl (fun _ => rfl) rfl
          (fun _ _ hsame => by cases hsame) fun howned => ?_,hidle⟩
        have howned : central.scanState = .owned := howned
        rw [hidle] at howned
        cases howned

theorem stays_stopOwnedScan : Stays Keeps (stopOwnedScan (L := L)) := by
  intro central
  refine Post.getting ?_
  cases hscan : central.scanState with
  | idle => exact (Leaves.refl central).toKeeps
  | adopted => exact Keeps.setScan central (by simp)
  | owned =>
    refine post_ask fun answer => ?_
    cases answer with
    | ok value =>
      refine .discovery ⟨rfl,rfl,rfl,rfl,rfl,rfl,rfl,rfl,id⟩ rfl rfl (fun _ => rfl) rfl
        (fun _ _ hsame => ?_) fun howned => ?_
      · cases hsame
        exact ⟨hscan,rfl⟩
      · cases howned
    | error error =>
      refine .discovery ⟨rfl,rfl,rfl,rfl,rfl,rfl,rfl,rfl,id⟩ rfl rfl (fun _ => rfl) rfl
        (fun _ _ hsame => ?_) fun _ howned => howned hscan
      cases hsame
      exact ⟨hscan,rfl⟩

theorem releaseScan_post {E : ε → Central L → Prop} (central : Central L) :
    Post (fun _ after => Keeps central { after with scanState := .idle }) E
      (releaseScan central) := by
  refine Post.getting ?_
  split
  · rename_i howned
    refine post_ask fun answer => ?_
    refine .discovery ⟨rfl,rfl,rfl,rfl,rfl,rfl,rfl,rfl,id⟩ rfl rfl
      (fun _ => rfl) rfl (fun _ _ hsame => ?_) fun howned => ?_
    · cases hsame
      exact ⟨howned,rfl⟩
    · cases howned
  · exact Keeps.setScan central (by simp)

theorem openAdapter_post (central : Central L) :
    Post (fun _ after => Keeps central { after with scanState := .idle } ∧
        after.scanState = central.scanState)
      (fun _ after => Keeps central after) (openAdapter central) := by
  refine post_ask fun answer => ?_
  have hstop : ∀ adapter other, (⟨.openAdapter,answer⟩ : OsRecord) = ⟨.stopScan adapter,other⟩ →
      central.scanState = .owned ∧ adapter = central.adapter := by
    intro adapter other hsame
    cases hsame
  cases answer with
  | error error =>
    exact .discovery ⟨rfl,rfl,rfl,rfl,rfl,rfl,rfl,rfl,id⟩ rfl rfl (fun _ => rfl) rfl hstop
      fun howned hheld => hheld howned
  | ok found =>
    cases found with
    | false =>
      exact .discovery ⟨rfl,rfl,rfl,rfl,rfl,rfl,rfl,rfl,id⟩ rfl rfl (fun _ => rfl) rfl hstop
        fun howned hheld => hheld howned
    | true =>
      refine ⟨.discovery ⟨rfl,rfl,rfl,rfl,rfl,rfl,rfl,rfl,id⟩ rfl rfl (fun _ => rfl) rfl hstop
        fun howned => ?_,rfl⟩
      cases howned

theorem reopenAdapterAndScan_post (central : Central L) :
    Post (fun _ after => Keeps central after ∧ after.scanState.isActive = true)
      (fun _ after => Keeps central after) (reopenAdapterAndScan central) := by
  refine Post.bind (openAdapter_post central) fun _ opened hopened => ?_
  refine Post.modifying (Post.mono (ensureScanActive_post _) ?_ ?_)
  · exact fun _ after hafter => ⟨hopened.1.trans hafter.1,hafter.2⟩
  · exact fun _ after hafter => hopened.1.trans hafter.1

/-! ### Links -/

theorem linkIsConnected_post {α : Type} {Q : α → Central L → Prop}
    {E : BleHostError → Central L → Prop} {next : Bool → CentralM L α}
    (h : ∀ connected after, Leaves central after → Post Q E (next connected after)) :
    Post Q E ((linkIsConnected address >>= next) central) := by
  have hkeeps := @Leaves.asked _ (.isConnected address) central rfl
  have hnext : Post (fun connected after => Post Q E (next connected after)) (fun _ _ => False)
      (linkIsConnected address central) := by
    refine post_ask fun answer => ?_
    cases answer <;> exact h _ _ (hkeeps _)
  exact Post.bind (R := fun connected after => Post Q E (next connected after))
    (Post.mono hnext (fun _ _ => id) fun _ _ => False.elim) fun _ _ => id

/-- A program that leaves the discovery alone, and what it leaves taken and listened to. -/
structure Reaches (holder heard : Option BleAddress) (central after : Central L) : Prop
    extends Apart central after where
  scanState : after.scanState = central.scanState
  ledger : Ledger holder heard after

theorem Leaves.reaches (h : Leaves central after) (hledger : Ledger holder heard central) :
    Reaches holder heard central after :=
  ⟨h.toApart,h.scanState,h.ledger _ _ hledger⟩

theorem Reaches.before {first : Central L} (h : Reaches holder heard central after)
    (hfirst : Apart first central) (hscan : central.scanState = first.scanState) :
    Reaches holder heard first after :=
  ⟨hfirst.trans h.toApart,h.scanState.trans hscan,h.ledger⟩

theorem Ledger.disconnected (h : Ledger holder heard central)
    (hholder : ∀ other, holder = some other → other = address)
    (answer : OsCall.Answer (.disconnect address)) :
    Reaches none heard central (central.asked (.disconnect address) answer) := by
  refine ⟨.asked central _ answer,rfl,h.asked h.scan (fun _ _ hsame => ?_)
    (fun other hlinked => ?_) rfl⟩
  · cases hsame
  · by_cases hsame : other = address
    · simp [takeStep,hsame] at hlinked
    · rw [takeStep,Function.update_of_ne hsame] at hlinked
      exact absurd (hholder other (h.links other hlinked)) hsame

theorem disconnectLink_post (hledger : Ledger holder heard central)
    (hholder : ∀ other, holder = some other → other = address) (action : String) :
    Post (fun _ after => Reaches none heard central after)
      (fun _ after => Reaches none heard central after)
      (disconnectLink address action central) := by
  refine post_ask fun answer => ?_
  have hdown := hledger.disconnected hholder answer
  cases answer with
  | ok value => exact hdown
  | error error =>
    dsimp only
    split <;> exact hdown

theorem disconnectAndSettle_post (hledger : Ledger holder heard central)
    (hholder : ∀ other, holder = some other → other = address) (action : String) :
    Post (fun _ after => Reaches none heard central after)
      (fun _ after => Reaches none heard central after)
      (disconnectAndSettle address action central) := by
  refine Post.bind (disconnectLink_post hledger hholder action) fun _ down hdown => ?_
  refine Post.getting (Post.mono (stays_settle address action _ _ down) ?_ ?_) <;>
    exact fun _ after hafter => (hafter.reaches hdown.ledger).before hdown.toApart hdown.scanState

theorem ensureConnected_post (hledger : Ledger none heard central) :
    Post (fun _ after => Reaches (some address) heard central after ∧ written after.calls = [])
      (fun _ after => Reaches none heard central after)
      (ensureConnected address central) := by
  refine Post.bind (Post.mono (stays_resetConnected address central) (fun _ _ => id)
    fun _ after hafter => hafter.reaches hledger) fun _ reset hreset => ?_
  have hledger := hreset.ledger _ _ hledger
  refine post_ask fun answer => ?_
  have hup : Reaches (some address) heard central (reset.asked (.connect address) answer) := by
    refine ⟨hreset.toApart.trans (.asked reset _ answer),hreset.scanState,
      hledger.asked hledger.scan (fun _ _ hsame => ?_) (fun other hlinked => ?_) rfl⟩
    · cases hsame
    · by_cases hsame : other = address
      · rw [hsame]
      · rw [takeStep,Function.update_of_ne hsame] at hlinked
        cases hledger.links other hlinked
  have hempty : written (reset.asked (.connect address) answer).calls = [] := by
    simp only [asked,written_append,writeStep]
  cases answer with
  | ok value => exact ⟨hup,hempty⟩
  | error error =>
    refine linkIsConnected_post fun connected asked hasked => ?_
    have hstill := (hasked.reaches hup.ledger).before hup.toApart hup.scanState
    split
    · exact ⟨hstill,hasked.written.trans hempty⟩
    · refine Post.attempt (Post.mono (disconnectAndSettle_post hstill.ledger
        (fun other hother => (Option.some.inj hother).symm) "cancel failed connection") ?_ ?_) <;>
        exact fun _ after hafter => hafter.before hstill.toApart hstill.scanState

/-- What a setup may leave: a connection to the board that is listened to, with nothing written, or
none. -/
structure SetUp (holder : Option BleAddress) (address : BleAddress) (central : Central L)
    (found : Option Connection) (after : Central L) : Prop
    extends Reaches holder (found.map Connection.address) central after where
  address : ∀ connection ∈ found, connection.address = address
  written : written after.calls = written central.calls

theorem subscribeBoard_post (hledger : Ledger holder none central) (rx tx info : Characteristic) :
    Post (SetUp holder address central) (fun _ after => Reaches holder none central after)
      (subscribeBoard address rx tx info central) := by
  have hasking : ∀ {α β : Type} {call : OsCall} {action : String}
      {result : call.Answer → Except OsError α} {next : α → CentralM L β}
      {Q : β → Central L → Prop} {before : Central L}, neutral call = true →
      Leaves central before →
      (∀ value after, Leaves central after →
        Post Q (fun _ after => Reaches holder none central after) (next value after)) →
      Post Q (fun _ after => Reaches holder none central after)
        ((asking action call result >>= next) before) := by
    intro α β call action result next Q before hcall hbefore hnext
    refine Post.bind (R := fun _ after => Leaves central after)
      (Post.mono (stays_asking hcall before) ?_ ?_) hnext
    · exact fun _ after hafter => hbefore.trans hafter
    · exact fun _ after hafter => (hbefore.trans hafter).reaches hledger
  have hstart := (Leaves.refl central).reaches hledger
  refine Post.refuseIf (fun _ => hstart) fun _ => Post.refuseIf (fun _ => hstart) fun _ => ?_
  cases selectWriteType rx.properties with
  | error error => exact hstart
  | ok writeType =>
    refine hasking rfl (.refl central) fun _ opened hopened => ?_
    refine hasking rfl hopened fun _ subscribed hsubscribed => ?_
    refine hasking rfl hsubscribed fun _ informed hinformed => ?_
    refine Post.bind (R := fun _ after => Leaves central after)
      (Post.mono (stays_readInfo address info informed) ?_ ?_) fun found after hafter => ?_
    · exact fun _ after hafter => hinformed.trans hafter
    · exact fun _ after hafter => (hinformed.trans hafter).reaches hledger
    · cases found with
      | none => exact ⟨hafter.reaches hledger,by simp,hafter.written⟩
      | some initialInfo =>
        refine post_ask fun answer => ?_
        have hheld := hafter.ledger _ _ hledger
        refine ⟨⟨hafter.toApart.trans (.asked after _ answer),hafter.scanState,
          hheld.asked hheld.scan (fun _ _ hsame => ?_) hheld.links rfl⟩,?_,?_⟩
        · cases hsame
        · rintro connection hconnection
          cases hconnection
          rfl
        · simp only [asked,written_append,writeStep]
          exact hafter.written

theorem prepareConnectedBoard_post (hledger : Ledger holder none central) :
    Post (SetUp holder address central) (fun _ after => Reaches holder none central after)
      (prepareConnectedBoard address central) := by
  refine Post.bind (R := fun _ after => Leaves central after)
    (Post.mono (stays_asking rfl central) (fun _ _ => id) fun _ after hafter =>
      hafter.reaches hledger) fun _ discovered hdiscovered => ?_
  refine post_ask fun characteristics => Post.getting ?_
  have hasked := hdiscovered.trans
    (@Leaves.asked _ (.characteristics address) discovered rfl characteristics)
  have hheld := hasked.ledger _ _ hledger
  have htold := hasked.trans (@Leaves.sending _ (.diagnostic
    "Tutti GATT cache is incomplete; reacquiring the board service") _ rfl)
  have hincomplete : SetUp holder address central none _ :=
    ⟨htold.reaches hledger,by simp,htold.written⟩
  generalize (discovered.asked (.characteristics address) characteristics).platform.profile =
    profile
  cases findCharacteristic profile profile.rx characteristics with
  | none => exact hincomplete
  | some rx =>
    cases findCharacteristic profile profile.tx characteristics with
    | none => exact hincomplete
    | some tx =>
      cases findCharacteristic profile profile.info characteristics with
      | none => exact hincomplete
      | some info =>
        refine Post.mono (subscribeBoard_post hheld rx tx info) ?_ ?_
        · exact fun _ after hafter => ⟨hafter.toReaches.before hasked.toApart hasked.scanState,
            hafter.address,hafter.written.trans hasked.written⟩
        · exact fun _ after hafter => hafter.before hasked.toApart hasked.scanState

/-- What a try to connect may leave: a connection with which nothing else is taken or listened to,
or none. -/
structure Tried (central : Central L) (found : Option Connection) (after : Central L) : Prop
    extends Apart central after where
  scanState : found = none → after.scanState = central.scanState
  ledger : Ledger (found.map Connection.address) (found.map Connection.address) after
  written : found ≠ none → written after.calls = []

theorem connectBoard_post (hledger : Ledger none none central) :
    Post (Tried central) (fun _ after => Tried central none after)
      (connectBoard address central) := by
  have hfailed : ∀ {after : Central L}, Reaches none none central after →
      Tried central none after :=
    fun h => ⟨h.toApart,fun _ => h.scanState,h.ledger,fun hsome => absurd rfl hsome⟩
  refine Post.bind (Post.mono (ensureConnected_post hledger) (fun _ _ => id)
    fun _ _ => hfailed) fun _ linked hlinked => ?_
  obtain ⟨hup,hempty⟩ := hlinked
  have hsettled : ∀ (last : Central L) (action : String), Reaches (some address) none linked last →
      Post (fun _ after => Tried central none after) (fun _ after => Tried central none after)
        (disconnectAndSettle address action last) := by
    intro last action hlast
    have hlast := hlast.before hup.toApart hup.scanState
    refine Post.mono (disconnectAndSettle_post hlast.ledger
      (fun other hother => (Option.some.inj hother).symm) action) ?_ ?_ <;>
      exact fun _ after hafter => hfailed (hafter.before hlast.toApart hlast.scanState)
  refine Post.attempt (Post.mono (prepareConnectedBoard_post hup.ledger) ?_ ?_)
  · intro found after hafter
    cases found with
    | none =>
      refine Post.attempt (Post.mono (hsettled after _ hafter.toReaches) ?_ ?_) <;>
        exact fun _ last hlast => hlast
    | some connection =>
      obtain rfl := hafter.address connection rfl
      exact ⟨hup.toApart.trans hafter.toApart,nofun,hafter.ledger,
        fun _ => hafter.written.trans hempty⟩
  · intro error after hafter
    refine Post.attempt (Post.mono (hsettled after _ hafter) ?_ ?_) <;>
      exact fun _ last hlast => hlast

theorem tryConnectVisible_post (hledger : Ledger none none central) :
    Post (Tried central) (fun _ after => Tried central none after)
      (tryConnectVisible address central) := by
  have hleft : ∀ {after : Central L}, Leaves central after → Tried central none after :=
    fun h => ⟨h.toApart,fun _ => h.scanState,h.ledger _ _ hledger,fun hsome => absurd rfl hsome⟩
  refine Post.bind (R := fun _ after => Leaves central after)
    (Post.mono (stays_findBoard address central) (fun _ _ => id) fun _ _ => hleft)
    fun visible found hfound => ?_
  have hheld := hfound.ledger _ _ hledger
  split
  · refine Post.bind (Post.mono (connectBoard_post hheld) (fun _ _ => id) ?_)
      fun connection connected hconnected => ?_
    · exact fun _ after hafter => ⟨hfound.toApart.trans hafter.toApart,fun hnone =>
        (hafter.scanState hnone).trans hfound.scanState,hafter.ledger,hafter.written⟩
    cases connection with
    | none =>
      exact ⟨hfound.toApart.trans hconnected.toApart,fun hnone =>
        (hconnected.scanState hnone).trans hfound.scanState,hconnected.ledger,hconnected.written⟩
    | some connection =>
      refine Post.bind (releaseScan_post connected) fun _ released hreleased => ?_
      exact ⟨hfound.toApart.trans (hconnected.toApart.trans hreleased.toApart),
        nofun,hreleased.ledger _ _ hconnected.ledger,
        fun hsome => hreleased.written.trans (hconnected.written hsome)⟩
  · exact hleft hfound

end WalkieSongie.Ble.Central
