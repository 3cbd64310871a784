import Mathlib.Data.Finset.Insert
import WalkieSongie.SessionEstablishment
set_option autoImplicit false

/-!
Who waits for whom in the worker: the serial service, the session task behind its bounded inbox,
the bounded queue of reifications, and the renewal store that the service itself answers for.
-/

namespace WalkieSongie.ServiceWaits

/-- Both the inbox of the session task and the queue of its reifications hold this many, and one
more for each sender: the sender that has put one above the capacity is then parked until as many
have been taken as stood above it. -/
def sessionQueueCapacity : Nat := 64

inductive Sender where
  | service
  | application
  deriving DecidableEq

/-- What the session task can have to wait at while it handles an input. -/
inductive Wait where
  /-- `load_renewal_floor`: the store is asked only for a floor that is not yet known. -/
  | loadRenewalFloor (peer : ActorId)
  /-- `install_session` persists the floor before anything can be seen of the session. -/
  | persistRenewalFloor (peer : ActorId)
  /-- A local edit polls a fresh clone of the sender, which is never parked and has a place of its
  own: its plan goes in at once, whatever is queued. -/
  | startReification
  /-- Any other plan is sent by the task's own sender. -/
  | enqueueReification
  deriving DecidableEq

inductive RoomSessionTaskInput where
  | startPeer (peer : ActorId)
  | localPitchEdit
  | offer (source : ActorId)
  | answer (source : ActorId)
  | event (source : ActorId)
  | localCommitted
  | observed
  | durableAdvanced
  | resetProjection
  | repairResynchronized
  | refreshFoundations
  deriving DecidableEq

/-- `start_ready_renewals` may begin a session with any peer, everything else is about its own. -/
def RoomSessionTaskInput.mayWaitFor : RoomSessionTaskInput → Wait → Bool
  | .startPeer peer, .loadRenewalFloor other => peer = other
  | .localPitchEdit, .startReification => true
  | .offer _, .loadRenewalFloor _ => true
  | .offer source, .persistRenewalFloor other => source = other
  | .answer _, .loadRenewalFloor _ => true
  | .answer source, .persistRenewalFloor other => source = other
  | .event _, .loadRenewalFloor _ => true
  | .localCommitted, .enqueueReification => true
  | .localCommitted, .loadRenewalFloor _ => true
  | .observed, .enqueueReification => true
  | .observed, .loadRenewalFloor _ => true
  | .durableAdvanced, .loadRenewalFloor _ => true
  | .resetProjection, .loadRenewalFloor _ => true
  | .repairResynchronized, .loadRenewalFloor _ => true
  | .refreshFoundations, .loadRenewalFloor _ => true
  | _, _ => false

/-- The inputs that come in frames, past the service. -/
def RoomSessionTaskInput.isApplication : RoomSessionTaskInput → Bool
  | .localPitchEdit | .offer _ | .answer _ | .event _ => true
  | _ => false

/-- An input with what its handling comes to wait for, in order. The sessions and the libraries
decide that; here it may be anything the input can lead to. -/
structure Handling where
  input : RoomSessionTaskInput
  waits : List Wait
  allowed : ∀ wait ∈ waits, input.mayWaitFor wait = true

def Handling.advance (handling : Handling) : Handling where
  input := handling.input
  waits := handling.waits.tail
  allowed wait h := handling.allowed wait (List.mem_of_mem_tail h)

def Handling.cut (handling : Handling) : Handling where
  input := handling.input
  waits := []
  allowed wait h := by simp at h

inductive StoreRequest where
  | none
  /-- The event is on its way to the window. -/
  | asked
  /-- The window has put a command for it behind the service's other requests. -/
  | routed
  /-- The service has answered; the frame is on its way to the task. -/
  | answered
  deriving DecidableEq

/-- The service has handled the request; one that nobody waits for is stale. -/
def StoreRequest.handled : StoreRequest → StoreRequest
  | .routed => .answered
  | request => request

inductive StoreAnswer where
  | done
  /-- There was no floor but a legacy one, and the task asks to migrate it. -/
  | again
  | refused

inductive WorkerRequest where
  | commit (music : Bool)
  | grantPeer (music : Bool)
  | startSessionPeer (peer : ActorId)
  | resetSessionProjection
  | drainSession
  | sessionRenewalStore
  | inboundRecord (accepted reified : Bool)
  | repairFrame (advanced : Bool)
  | other
  deriving DecidableEq

inductive Service where
  | idle
  /-- The input that the request at hand has for the task next, and those behind it. -/
  | sending (input : RoomSessionTaskInput) (rest : List RoomSessionTaskInput)
  | awaitingReply
  deriving DecidableEq

structure Worker where
  floors : Finset ActorId := ∅
  inbox : List Handling := []
  /-- The senders of the inbox that are parked, the first to go on first. -/
  parked : List Sender := []
  current : Option Handling := none
  store : StoreRequest := .none
  reifications : Nat := 0
  /-- The task's own sender of reifications is parked. Only the task puts any in, so it goes on
  when no more than the capacity are left. -/
  flushing : Bool := false
  requests : List WorkerRequest := []
  service : Service := .idle

inductive Input where
  /-- The window sends a request. -/
  | request (request : WorkerRequest)
  /-- The window turns the task's question to the store into a request. -/
  | routeStore
  | resolveStore (answer : StoreAnswer)
  /-- The service takes up its next request. -/
  | handle
  /-- The service's next input enters the inbox. -/
  | send (handling : Handling)
  /-- An application frame comes in; it is refused while its sender is parked. -/
  | applicationFrame (handling : Handling)
  /-- The task takes its next input. -/
  | next
  /-- The task goes on with its input. -/
  | proceed
  /-- The handling of the input ends early with an error. -/
  | fail
  /-- The task is done with its input. -/
  | finish

/-- What a request sends to the task once its own part is done. -/
def WorkerRequest.inputs (reifications : Nat) : WorkerRequest → List RoomSessionTaskInput
  | .commit music => if music then [.durableAdvanced,.refreshFoundations] else []
  | .grantPeer music => if music then [.durableAdvanced,.refreshFoundations] else []
  | .startSessionPeer peer => [.startPeer peer]
  | .resetSessionProjection => [.resetProjection]
  | .drainSession => if reifications = 0 then [] else [.localCommitted,.refreshFoundations]
  | .sessionRenewalStore => []
  | .inboundRecord accepted reified =>
      if accepted then [if reified then .observed else .durableAdvanced,.refreshFoundations]
      else []
  | .repairFrame advanced =>
      if advanced then [.repairResynchronized,.refreshFoundations] else []
  | .other => []

def Service.send : List RoomSessionTaskInput → Service
  | [] => .idle
  | input :: rest => .sending input rest

namespace Worker

variable (worker : Worker)

def slots : Nat := sessionQueueCapacity-worker.reifications

def handle : Option Worker :=
  if .service ∈ worker.parked then none else match worker.service, worker.requests with
  | .idle, request :: rest =>
      let reifications :=
        if request = .drainSession then worker.reifications-1 else worker.reifications
      some { worker with
        requests := rest
        store := if request = .sessionRenewalStore then worker.store.handled else worker.store
        reifications := reifications
        flushing := worker.flushing && decide (sessionQueueCapacity < reifications)
        service := .send (request.inputs worker.reifications) }
  | _, _ => none

/-- A sender that is not parked puts an input into the inbox. -/
def put (sender : Sender) (handling : Handling) : Worker :=
  { worker with
    inbox := worker.inbox ++ [handling]
    parked := if sessionQueueCapacity ≤ worker.inbox.length then worker.parked ++ [sender]
      else worker.parked }

/-- The service goes on with its next input when it is not parked any more. A reset is answered
with one reply, and the service waits for it. -/
def send (handling : Handling) : Option Worker :=
  match worker.service with
  | .sending input rest =>
      if handling.input = input ∧ .service ∉ worker.parked then
        some { worker.put .service handling with
          service := if input = .resetProjection then .awaitingReply else .send rest }
      else none
  | _ => none

def applicationFrame (handling : Handling) : Option Worker :=
  if handling.input.isApplication = false then none
  else if .application ∈ worker.parked then some worker
  else some (worker.put .application handling)

def next : Option Worker :=
  match worker.current, worker.inbox with
  | none, handling :: rest => some { worker with
      current := some handling
      inbox := rest
      parked := worker.parked.tail }
  | _, _ => none

/-- One wait that is over at once, or the question to the store that one begins with. -/
def proceed : Option Worker :=
  if worker.flushing then none else match worker.current with
  | none => none
  | some handling => match handling.waits, worker.store with
      | .loadRenewalFloor peer :: _, .none =>
          if peer ∈ worker.floors then some { worker with current := some handling.advance }
          else some { worker with store := .asked }
      | .persistRenewalFloor _ :: _, .none => some { worker with store := .asked }
      | .startReification :: _, .none => some { worker with
          current := some handling.advance
          reifications := worker.reifications+1 }
      | .enqueueReification :: _, .none => some { worker with
          current := some handling.advance
          reifications := worker.reifications+1
          flushing := decide (sessionQueueCapacity < worker.reifications+1) }
      | _, _ => none

def routeStore : Option Worker :=
  if worker.store = .asked then
    some { worker with store := .routed, requests := worker.requests ++ [.sessionRenewalStore] }
  else none

/-- The answer comes to the task directly, not through the service. -/
def resolveStore (answer : StoreAnswer) : Option Worker :=
  match worker.current, worker.store with
  | some handling, .answered => match answer, handling.waits with
      | .again, _ => some { worker with store := .none }
      | .refused, _ => some { worker with store := .none, current := some handling.cut }
      | .done, .loadRenewalFloor peer :: _ | .done, .persistRenewalFloor peer :: _ =>
          some { worker with
            store := .none
            floors := insert peer worker.floors
            current := some handling.advance }
      | .done, _ => none
  | _, _ => none

def fail : Option Worker :=
  if worker.flushing then none else match worker.current, worker.store with
  | some handling, .none => some { worker with current := some handling.cut }
  | _, _ => none

/-- A reset is replied to also when it has failed. -/
def finish : Option Worker :=
  if worker.flushing then none else match worker.current with
  | some ⟨input,[],_⟩ => some { worker with
      current := none
      service := if input = .resetProjection ∧ worker.service = .awaitingReply then .idle
        else worker.service }
  | _ => none

def step : Input → Option Worker
  | .request request =>
      if request = .sessionRenewalStore then none
      else some { worker with requests := worker.requests ++ [request] }
  | .routeStore => worker.routeStore
  | .resolveStore answer => worker.resolveStore answer
  | .handle => worker.handle
  | .send handling => worker.send handling
  | .applicationFrame handling => worker.applicationFrame handling
  | .next => worker.next
  | .proceed => worker.proceed
  | .fail => worker.fail
  | .finish => worker.finish

end Worker

def run (worker : Worker) : List Input → Option Worker
  | [] => some worker
  | input :: rest => (worker.step input).bind fun after => run after rest

section Blocked

variable (worker : Worker)

/-- The service waits for a reply of the task or for room in its inbox. -/
def ServiceBlocked : Prop := .service ∈ worker.parked ∨ worker.service = .awaitingReply

instance : Decidable (ServiceBlocked worker) := inferInstanceAs (Decidable (_ ∨ _))

/-- The task waits for what only a later request can give it: the answer of a store request that
the service has not yet handled, or room in the queue of reifications. -/
def TaskBlocked : Prop :=
  worker.store = .asked ∨ worker.store = .routed ∨ worker.flushing = true

instance : Decidable (TaskBlocked worker) := inferInstanceAs (Decidable (_ ∨ _ ∨ _))

def Deadlocked : Prop := ServiceBlocked worker ∧ TaskBlocked worker

instance : Decidable (Deadlocked worker) := inferInstanceAs (Decidable (_ ∧ _))

end Blocked

/-- These waits are over at once: the floors are known and the queue has room for all plans. -/
def Settled (floors : Finset ActorId) : Nat → List Wait → Prop
  | _, [] => True
  | slots, .loadRenewalFloor peer :: rest => peer ∈ floors ∧ Settled floors slots rest
  | _, .persistRenewalFloor _ :: _ => False
  | slots, .startReification :: rest => Settled floors (slots-1) rest
  | slots, .enqueueReification :: rest => 0 < slots ∧ Settled floors (slots-1) rest

instance decidableSettled (floors : Finset ActorId) : (slots : Nat) → (waits : List Wait) →
    Decidable (Settled floors slots waits)
  | _, [] => isTrue trivial
  | slots, .loadRenewalFloor _ :: rest =>
      have := decidableSettled floors slots rest
      inferInstanceAs (Decidable (_ ∧ _))
  | _, .persistRenewalFloor _ :: _ => isFalse id
  | slots, .startReification :: rest => decidableSettled floors (slots-1) rest
  | slots, .enqueueReification :: rest =>
      have := decidableSettled floors (slots-1) rest
      inferInstanceAs (Decidable (_ ∧ _))

namespace Worker

variable (worker : Worker)

/-- The inputs before a new one, the one at hand first. -/
def ahead : List Handling := worker.current.toList ++ worker.inbox

/-- The task does not wait, and will not have to at these inputs. -/
def Clear (handlings : List Handling) : Prop :=
  worker.flushing = false ∧
    Settled worker.floors worker.slots (handlings.flatMap Handling.waits)

instance (handlings : List Handling) : Decidable (worker.Clear handlings) :=
  inferInstanceAs (Decidable (_ ∧ _))

/-- The inputs that the task is done with before this many are taken from the inbox. -/
def untilTaken (count : Nat) : List Handling := worker.current.toList ++ worker.inbox.take count

/-- The service begins to wait for the task only where the task does not have to wait itself. -/
def Keeps : Input → Prop
  | .send handling =>
      (handling.input = .resetProjection → worker.Clear (worker.ahead ++ [handling])) ∧
      (sessionQueueCapacity ≤ worker.inbox.length →
        worker.Clear (worker.untilTaken worker.parked.length))
  | _ => True

instance : (input : Input) → Decidable (worker.Keeps input)
  | .send _ => inferInstanceAs (Decidable (_ ∧ _))
  | .handle | .applicationFrame _ | .request _ | .routeStore | .resolveStore _ | .next | .proceed
  | .fail | .finish => isTrue trivial

end Worker

section Settled

variable {floors : Finset ActorId} {slots : Nat} {waits : List Wait}

theorem Settled.mono {slots' : Nat} (hslots : slots ≤ slots') (h : Settled floors slots waits) :
    Settled floors slots' waits := by
  induction waits generalizing slots slots' with
  | nil => trivial
  | cons wait rest ih =>
    cases wait with
    | loadRenewalFloor peer => exact ⟨h.1,ih hslots h.2⟩
    | persistRenewalFloor peer => exact h
    | startReification => exact ih (by omega) h
    | enqueueReification => exact ⟨by have := h.1; omega,ih (by omega) h.2⟩

theorem Settled.tail {wait : Wait} (h : Settled floors slots (wait :: waits)) :
    Settled floors slots waits := by
  cases wait with
  | loadRenewalFloor peer => exact h.2
  | persistRenewalFloor peer => exact h.elim
  | startReification => exact mono (Nat.sub_le _ _) h
  | enqueueReification => exact h.2.mono (by omega)

theorem Settled.right {before : List Wait} (h : Settled floors slots (before ++ waits)) :
    Settled floors slots waits := by
  induction before with
  | nil => exact h
  | cons wait rest ih => exact ih h.tail

theorem Settled.left {behind : List Wait} (h : Settled floors slots (waits ++ behind)) :
    Settled floors slots waits := by
  induction waits generalizing slots with
  | nil => trivial
  | cons wait rest ih =>
    cases wait with
    | loadRenewalFloor peer => exact ⟨h.1,ih h.2⟩
    | persistRenewalFloor peer => exact h
    | startReification => exact ih h
    | enqueueReification => exact ⟨h.1,ih h.2⟩

def Asks (floors : Finset ActorId) : Wait → Prop
  | .loadRenewalFloor peer => peer ∉ floors
  | .persistRenewalFloor _ => True
  | .startReification | .enqueueReification => False

theorem Settled.not_asks {wait : Wait} (h : Settled floors slots (wait :: waits)) :
    ¬ Asks floors wait := by
  cases wait with
  | loadRenewalFloor peer => exact fun hunknown => hunknown h.1
  | persistRenewalFloor peer => exact h.elim
  | startReification => exact id
  | enqueueReification => exact id

end Settled

section UntilReset

/-- The waits up to the end of the first reset among the inputs. -/
def untilReset : List Handling → Option (List Wait)
  | [] => none
  | handling :: rest =>
      if handling.input = .resetProjection then some handling.waits
      else (untilReset rest).map (handling.waits ++ ·)

theorem untilReset_cons (handling : Handling) (rest : List Handling) :
    ∃ behind : Option (List Wait), ∀ other : Handling, other.input = handling.input →
      untilReset (other :: rest) = behind.map (other.waits ++ ·) := by
  by_cases h : handling.input = .resetProjection
  · refine ⟨some [],fun other hother => ?_⟩
    simp [untilReset,hother,h]
  · refine ⟨untilReset rest,fun other hother => ?_⟩
    simp [untilReset,hother,h]

theorem untilReset_append {inputs : List Handling} {waits : List Wait}
    (h : untilReset inputs = some waits) (handling : Handling) :
    untilReset (inputs ++ [handling]) = some waits := by
  induction inputs generalizing waits with
  | nil => simp [untilReset] at h
  | cons first rest ih =>
    by_cases hfirst : first.input = .resetProjection
    · simpa [untilReset,hfirst] using h
    · simp only [untilReset,hfirst,if_false,Option.map_eq_some_iff] at h
      obtain ⟨behind,hbehind,rfl⟩ := h
      simp [untilReset,hfirst,ih hbehind]

theorem untilReset_reset (inputs : List Handling) {handling : Handling}
    (h : handling.input = .resetProjection) :
    ∃ waits, untilReset (inputs ++ [handling]) = some waits ∧
      waits <+: (inputs ++ [handling]).flatMap Handling.waits := by
  induction inputs with
  | nil => exact ⟨handling.waits,by simp [untilReset,h],by simp⟩
  | cons first rest ih =>
    by_cases hfirst : first.input = .resetProjection
    · exact ⟨first.waits,by simp [untilReset,hfirst],by simp⟩
    · obtain ⟨waits,hwaits,hleft⟩ := ih
      refine ⟨first.waits ++ waits,by simp [untilReset,hfirst,hwaits],?_⟩
      simpa using hleft

end UntilReset

namespace Worker

/-- The reply that the service waits for comes: nothing holds the task up before it. -/
def Awaited (worker : Worker) : Prop :=
  ∃ waits, untilReset worker.ahead = some waits ∧ worker.flushing = false ∧
    Settled worker.floors worker.slots waits

/-- The place in the inbox that the service waits for comes: nothing holds the task up before. -/
def Unparked (worker : Worker) : Prop :=
  worker.Clear (worker.untilTaken (worker.parked.idxOf .service))

/-- Where the service waits for the task, the task waits for nothing. -/
structure Safe (worker : Worker) : Prop where
  excess : worker.parked.length = worker.inbox.length-sessionQueueCapacity
  once : worker.parked.Nodup
  awaited : worker.service = .awaitingReply → worker.Awaited
  parked : .service ∈ worker.parked → worker.Unparked
  asking : worker.store ≠ .none → worker.flushing = false ∧ ∃ handling ∈ worker.current,
    ∃ wait ∈ handling.waits.head?, Asks worker.floors wait

variable {worker after : Worker}

/-- The input at hand does not keep the task waiting. -/
def CurrentSettled (worker : Worker) : Prop := worker.Clear worker.current.toList

theorem Awaited.currentSettled (h : worker.Awaited) : worker.CurrentSettled := by
  obtain ⟨waits,hwaits,hflushing,hsettled⟩ := h
  refine ⟨hflushing,?_⟩
  cases hcurrent : worker.current with
  | none => trivial
  | some handling =>
    have hahead : worker.ahead = handling :: worker.inbox := by simp [ahead,hcurrent]
    obtain ⟨behind,hbehind⟩ := untilReset_cons handling worker.inbox
    rw [hahead,hbehind handling rfl] at hwaits
    obtain ⟨rest,-,rfl⟩ := Option.map_eq_some_iff.mp hwaits
    simpa using hsettled.left

theorem Unparked.currentSettled (h : worker.Unparked) : worker.CurrentSettled := by
  refine ⟨h.1,?_⟩
  have hsettled := h.2
  rw [untilTaken,List.flatMap_append] at hsettled
  exact hsettled.left

theorem Safe.currentSettled (h : worker.Safe) (hblocked : ServiceBlocked worker) :
    worker.CurrentSettled := by
  rcases hblocked with hparked | hawaiting
  · exact (h.parked hparked).currentSettled
  · exact (h.awaited hawaiting).currentSettled

theorem Safe.store_none (h : worker.Safe) (hsettled : worker.CurrentSettled) :
    worker.store = .none := by
  by_contra hstore
  obtain ⟨-,handling,hcurrent,wait,hwait,hasks⟩ := h.asking hstore
  obtain ⟨rest,hwaits⟩ := List.head?_eq_some_iff.mp hwait
  have hfirst := hsettled.2
  rw [Option.mem_def.mp hcurrent] at hfirst
  simp only [Option.toList_some,List.flatMap_cons,hwaits,List.cons_append] at hfirst
  exact hfirst.not_asks hasks

theorem Safe.not_deadlocked (h : worker.Safe) : ¬ Deadlocked worker := by
  rintro ⟨hservice,htask⟩
  have hsettled := h.currentSettled hservice
  have hstore := h.store_none hsettled
  rcases htask with hasked | hrouted | hflushing
  · simp [hstore] at hasked
  · simp [hstore] at hrouted
  · simp [hsettled.1] at hflushing

section Steps

theorem Safe.advance (h : worker.Safe) {handling other : Handling}
    (hcurrent : worker.current = some handling) (hother : after.current = some other)
    (hinput : other.input = handling.input) (hinbox : after.inbox = worker.inbox)
    (hparked : after.parked = worker.parked) (hservice : after.service = worker.service)
    (hstore : after.store = .none)
    (hsettled : ∀ behind, Settled worker.floors worker.slots (handling.waits ++ behind) →
      after.flushing = false ∧ Settled after.floors after.slots (other.waits ++ behind)) :
    after.Safe := by
  constructor
  · rw [hparked,hinbox]
    exact h.excess
  · rw [hparked]
    exact h.once
  · rw [hservice]
    intro hawaiting
    obtain ⟨waits,hwaits,-,hold⟩ := h.awaited hawaiting
    obtain ⟨behind,hbehind⟩ := untilReset_cons handling worker.inbox
    have hahead : worker.ahead = handling :: worker.inbox := by simp [ahead,hcurrent]
    have hafter : after.ahead = other :: worker.inbox := by simp [ahead,hother,hinbox]
    rw [hahead,hbehind handling rfl] at hwaits
    obtain ⟨rest,hrest,rfl⟩ := Option.map_eq_some_iff.mp hwaits
    refine ⟨other.waits ++ rest,?_,hsettled rest hold⟩
    rw [hafter,hbehind other hinput,hrest]
    rfl
  · rw [hparked]
    intro hmem
    have hold := (h.parked hmem).2
    simp only [untilTaken,hcurrent,Option.toList_some,List.singleton_append,
      List.flatMap_cons] at hold
    have hnew := hsettled _ hold
    refine ⟨hnew.1,?_⟩
    simp only [untilTaken,hother,hinbox,hparked,Option.toList_some,List.singleton_append,
      List.flatMap_cons]
    exact hnew.2
  · intro hne
    exact absurd hstore hne

theorem Safe.of_asking (h : worker.Safe) (hstore : worker.store ≠ .none)
    (hinbox : after.inbox = worker.inbox) (hparked : after.parked = worker.parked)
    (hservice : after.service = worker.service) (hafter : after.store = .none) : after.Safe := by
  have hcalm : ¬ ServiceBlocked worker := fun hblocked =>
    hstore (h.store_none (h.currentSettled hblocked))
  constructor
  · rw [hparked,hinbox]
    exact h.excess
  · rw [hparked]
    exact h.once
  · rw [hservice]
    exact fun hawaiting => absurd (.inr hawaiting) hcalm
  · rw [hparked]
    exact fun hmem => absurd (.inl hmem) hcalm
  · exact fun hne => absurd hafter hne

theorem Safe.cut (h : worker.Safe) {handling : Handling}
    (hcurrent : worker.current = some handling) (hstore : worker.store = .none)
    (hflushing : worker.flushing = false) : Safe { worker with current := some handling.cut } :=
  h.advance hcurrent rfl rfl rfl rfl rfl hstore fun _ hsettled => ⟨hflushing,hsettled.right⟩

theorem Safe.proceed (h : worker.Safe) (hstep : worker.proceed = some after) : after.Safe := by
  unfold Worker.proceed at hstep
  rw [Option.ite_none_left_eq_some] at hstep
  obtain ⟨hflushing,hstep⟩ := hstep
  have hflushing : worker.flushing = false := by simpa using hflushing
  split at hstep
  next => simp at hstep
  next handling hcurrent =>
    have hask : ∀ wait rest, handling.waits = wait :: rest → worker.store = .none →
        Asks worker.floors wait → Safe { worker with store := .asked } := by
      intro wait rest hwaits hnone hasks
      have hcalm : ¬ ServiceBlocked worker := by
        intro hblocked
        have hfirst := (h.currentSettled hblocked).2
        simp only [hcurrent,Option.toList_some,List.flatMap_cons,hwaits,List.cons_append] at hfirst
        exact hfirst.not_asks hasks
      exact ⟨h.excess,h.once,fun hawaiting => absurd (.inr hawaiting) hcalm,
        fun hmem => absurd (.inl hmem) hcalm,
        fun _ => ⟨hflushing,handling,hcurrent,wait,by simp [hwaits],hasks⟩⟩
    split at hstep
    next peer rest hwaits hnone =>
      split at hstep
      next hknown =>
        cases hstep
        refine @Safe.advance worker _ h _ handling.advance hcurrent rfl rfl rfl rfl rfl hnone ?_
        intro behind hsettled
        rw [hwaits] at hsettled
        exact ⟨hflushing,by simpa [Handling.advance,hwaits,slots] using hsettled.2⟩
      next hunknown =>
        cases hstep
        exact hask _ _ hwaits hnone hunknown
    next peer rest hwaits hnone =>
      cases hstep
      exact hask _ _ hwaits hnone trivial
    all_goals
      have hslots : sessionQueueCapacity-(worker.reifications+1) = worker.slots-1 := by
        unfold slots
        omega
    next rest hwaits hnone =>
      cases hstep
      refine @Safe.advance worker _ h _ handling.advance hcurrent rfl rfl rfl rfl rfl hnone ?_
      intro behind hsettled
      rw [hwaits] at hsettled
      have hrest : Settled worker.floors (worker.slots-1) (rest ++ behind) := hsettled
      exact ⟨hflushing,by simpa [Handling.advance,hwaits,slots,hslots] using hrest⟩
    next rest hwaits hnone =>
      cases hstep
      refine @Safe.advance worker _ h _ handling.advance hcurrent rfl rfl rfl rfl rfl hnone ?_
      intro behind hsettled
      rw [hwaits] at hsettled
      have hroom : 0 < worker.slots := hsettled.1
      refine ⟨decide_eq_false ?_,?_⟩
      · unfold slots at hroom
        omega
      · simpa [Handling.advance,hwaits,slots,hslots] using hsettled.2
    next => simp at hstep

theorem Safe.resolveStore (h : worker.Safe) {answer : StoreAnswer}
    (hstep : worker.resolveStore answer = some after) : after.Safe := by
  unfold Worker.resolveStore at hstep
  split at hstep
  next handling hcurrent hanswered =>
    have hstore : worker.store ≠ .none := by simp [hanswered]
    split at hstep
    · cases hstep
      exact h.of_asking hstore rfl rfl rfl rfl
    · cases hstep
      exact h.of_asking hstore rfl rfl rfl rfl
    · cases hstep
      exact h.of_asking hstore rfl rfl rfl rfl
    · cases hstep
      exact h.of_asking hstore rfl rfl rfl rfl
    · simp at hstep
  next => simp at hstep

theorem Safe.next (h : worker.Safe) (hstep : worker.next = some after) : after.Safe := by
  unfold Worker.next at hstep
  split at hstep
  next handling rest hcurrent hinbox =>
    cases hstep
    have hexcess := h.excess
    rw [hinbox,List.length_cons] at hexcess
    constructor
    · simp only [List.length_tail]
      omega
    · exact h.once.tail
    · intro hawaiting
      obtain ⟨waits,hwaits,hsettled⟩ := h.awaited hawaiting
      exact ⟨waits,by simpa [ahead,hcurrent,hinbox] using hwaits,hsettled⟩
    · intro hmem
      cases hparked : worker.parked with
      | nil => simp [hparked] at hmem
      | cons first others =>
        have hother : .service ∈ others := by simpa [hparked] using hmem
        have hne : first ≠ .service := by
          rintro rfl
          have honce := h.once
          rw [hparked] at honce
          exact (List.nodup_cons.mp honce).1 hother
        -- One input fewer is before the service's own.
        have hold := h.parked (by simp [hparked,hother])
        simpa [Unparked,Clear,untilTaken,hcurrent,hinbox,hparked,List.idxOf_cons_ne _ hne,
          slots] using hold
    · intro hstore
      obtain ⟨-,other,hother,-⟩ := h.asking hstore
      simp [hcurrent] at hother
  next => simp at hstep

theorem Safe.finish (h : worker.Safe) (hstep : worker.finish = some after) : after.Safe := by
  unfold Worker.finish at hstep
  rw [Option.ite_none_left_eq_some] at hstep
  obtain ⟨-,hstep⟩ := hstep
  split at hstep
  next input hallowed hcurrent =>
    cases hstep
    have hstore : worker.store = .none := by
      by_contra hne
      obtain ⟨-,handling,hhandling,wait,hwait,-⟩ := h.asking hne
      rw [hcurrent] at hhandling
      cases hhandling
      simp at hwait
    constructor
    · exact h.excess
    · exact h.once
    · intro hawaiting
      simp only at hawaiting
      split at hawaiting
      next => simp at hawaiting
      next hnot =>
        obtain ⟨waits,hwaits,hsettled⟩ := h.awaited hawaiting
        have hinput : input ≠ .resetProjection := fun hinput => hnot ⟨hinput,hawaiting⟩
        refine ⟨waits,?_,hsettled⟩
        simpa [ahead,hcurrent,untilReset,hinput] using hwaits
    · intro hmem
      have hold := h.parked hmem
      simpa [Unparked,Clear,untilTaken,hcurrent,slots] using hold
    · intro hne
      exact absurd hstore hne
  next => simp at hstep

theorem send_ne_awaitingReply (inputs : List RoomSessionTaskInput) :
    Service.send inputs ≠ .awaitingReply := by
  cases inputs <;> simp [Service.send]

theorem Safe.handle (h : worker.Safe) (hstep : worker.handle = some after) : after.Safe := by
  unfold Worker.handle at hstep
  rw [Option.ite_none_left_eq_some] at hstep
  obtain ⟨hparked,hstep⟩ := hstep
  split at hstep
  next request rest hidle hrequests =>
    cases hstep
    constructor
    · exact h.excess
    · exact h.once
    · exact fun hawaiting => absurd hawaiting (send_ne_awaitingReply _)
    · exact fun hmem => absurd hmem hparked
    · intro hstore
      have hasking := h.asking (by
        intro hnone
        apply hstore
        simp [hnone,StoreRequest.handled])
      exact ⟨by simp [hasking.1],hasking.2⟩
  next => simp at hstep

theorem excess_put (h : worker.Safe) (sender : Sender) (handling : Handling) :
    (worker.put sender handling).parked.length =
      (worker.put sender handling).inbox.length-sessionQueueCapacity := by
  have hexcess := h.excess
  simp only [put,List.length_append,List.length_singleton]
  split
  next hfull =>
    rw [List.length_append,List.length_singleton]
    omega
  next hroom => omega

theorem once_put (h : worker.Safe) {sender : Sender} (hfree : sender ∉ worker.parked)
    (handling : Handling) : (worker.put sender handling).parked.Nodup := by
  unfold put
  split
  next => simpa using List.Nodup.concat hfree h.once
  next => exact h.once

theorem Safe.send (h : worker.Safe) {handling : Handling}
    (hkeeps : worker.Keeps (.send handling)) (hstep : worker.send handling = some after) :
    after.Safe := by
  unfold Worker.send at hstep
  split at hstep
  next input rest hsending =>
    rw [Option.ite_none_right_eq_some] at hstep
    obtain ⟨⟨rfl,hfree⟩,⟨⟩⟩ := hstep
    constructor
    · exact excess_put h .service handling
    · exact once_put h hfree handling
    · intro hawaiting
      by_cases hreset : handling.input = .resetProjection
      · obtain ⟨waits,hwaits,behind,hbehind⟩ := untilReset_reset worker.ahead hreset
        obtain ⟨hflushing,hsettled⟩ := hkeeps.1 hreset
        rw [← hbehind] at hsettled
        exact ⟨waits,by simpa [ahead,put] using hwaits,hflushing,hsettled.left⟩
      · simp only [hreset,if_false] at hawaiting
        exact absurd hawaiting (send_ne_awaitingReply _)
    · intro hmem
      by_cases hfull : sessionQueueCapacity ≤ worker.inbox.length
      · -- The service is behind the senders that are already parked.
        have hplace : (worker.parked ++ [Sender.service]).idxOf .service =
          worker.parked.length := by
          rw [List.idxOf_append_of_notMem hfree]
          simp
        have hlength : worker.parked.length ≤ worker.inbox.length := by
          rw [h.excess]
          exact Nat.sub_le _ _
        have hclear := hkeeps.2 hfull
        simpa [Unparked,Clear,untilTaken,put,hfull,hplace,
          List.take_append_of_le_length hlength,slots] using hclear
      · simp only [put,hfull,if_false] at hmem
        exact absurd hmem hfree
    · exact h.asking
  next => simp at hstep

theorem Safe.applicationFrame (h : worker.Safe) {handling : Handling}
    (hstep : worker.applicationFrame handling = some after) : after.Safe := by
  unfold Worker.applicationFrame at hstep
  split at hstep
  next => simp at hstep
  next =>
    split at hstep
    next =>
      cases hstep
      exact h
    next hfree =>
      cases hstep
      constructor
      · exact excess_put h .application handling
      · exact once_put h hfree handling
      · intro hawaiting
        obtain ⟨waits,hwaits,hsettled⟩ := h.awaited hawaiting
        refine ⟨waits,?_,hsettled⟩
        simpa [ahead,put] using untilReset_append hwaits handling
      · intro hmem
        have hold : .service ∈ worker.parked := by
          simp only [put] at hmem
          split at hmem
          next => simpa using hmem
          next => exact hmem
        have hplace : (worker.put .application handling).parked.idxOf .service =
            worker.parked.idxOf .service := by
          unfold put
          split
          next => exact List.idxOf_append_of_mem hold
          next => rfl
        have hlength : worker.parked.idxOf .service ≤ worker.inbox.length := by
          have hbelow := List.idxOf_lt_length_of_mem hold
          rw [h.excess] at hbelow
          omega
        have hclear := h.parked hold
        rw [Unparked,hplace]
        simpa [Unparked,Clear,untilTaken,put,List.take_append_of_le_length hlength,
          slots] using hclear
      · exact h.asking

theorem Safe.step (h : worker.Safe) {input : Input} (hkeeps : worker.Keeps input)
    (hstep : worker.step input = some after) : after.Safe := by
  cases input with
  | request request =>
    simp only [Worker.step,Option.ite_none_left_eq_some] at hstep
    obtain ⟨-,⟨⟩⟩ := hstep
    exact ⟨h.excess,h.once,h.awaited,h.parked,h.asking⟩
  | routeStore =>
    simp only [Worker.step,Worker.routeStore,Option.ite_none_right_eq_some] at hstep
    obtain ⟨hasked,⟨⟩⟩ := hstep
    exact ⟨h.excess,h.once,h.awaited,h.parked,fun _ => h.asking (by simp [hasked])⟩
  | resolveStore answer => exact h.resolveStore hstep
  | handle => exact h.handle hstep
  | send handling => exact h.send hkeeps hstep
  | applicationFrame handling => exact h.applicationFrame hstep
  | next => exact h.next hstep
  | proceed => exact h.proceed hstep
  | fail =>
    simp only [Worker.step,Worker.fail,Option.ite_none_left_eq_some] at hstep
    obtain ⟨hflushing,hstep⟩ := hstep
    split at hstep
    next handling hcurrent hstore =>
      cases hstep
      exact h.cut hcurrent hstore (by simpa using hflushing)
    next => simp at hstep
  | finish => exact h.finish hstep

end Steps

def Kept : Worker → List Input → Prop
  | _, [] => True
  | worker, input :: rest =>
      worker.Keeps input ∧ ∀ after ∈ worker.step input, after.Kept rest

instance decidableKept : (worker : Worker) → (inputs : List Input) →
    Decidable (worker.Kept inputs)
  | _, [] => isTrue trivial
  | worker, input :: rest =>
      have (after : Worker) : Decidable (after.Kept rest) := decidableKept after rest
      inferInstanceAs (Decidable (worker.Keeps input ∧ ∀ after ∈ worker.step input, _))

theorem Safe.run {inputs : List Input} (h : worker.Safe) (hkept : worker.Kept inputs)
    (hrun : run worker inputs = some after) : after.Safe := by
  induction inputs generalizing worker with
  | nil =>
    cases hrun
    exact h
  | cons input rest ih =>
    obtain ⟨next,hstep,hrest⟩ := Option.bind_eq_some_iff.mp hrun
    exact ih (h.step hkept.1 hstep) (hkept.2 next hstep) hrest

theorem safe_opened (floors : Finset ActorId) : Safe { floors := floors } := by
  constructor <;> simp

end Worker

section SessionTask

open Session TaskProgram

variable {L : SessionLibrary} {foundation : RoomSessionFoundation L} {world : World L}

theorem modifyTask_bind {A : Type} (f : RoomSessionTask L → RoomSessionTask L)
    (next : Unit → TaskM L A) :
    (modifyTask f >>= next) world = next () ⟨world.core.mapTask f,world.answers⟩ := rfl

theorem loadRenewalFloor_known {floor : Option SessionRenewalFloor}
    (h : world.core.task.renewalFloors[foundation.peer]? = some floor) :
    loadRenewalFloor foundation world = .ok floor world := by
  unfold loadRenewalFloor
  rw [getTask_bind,h]
  rfl

theorem loadRenewalFloor_refused {message : String} {rest : List EffectAnswer}
    (h : world.core.task.renewalFloors[foundation.peer]? = none)
    (hanswers : world.answers = { reply := .refused message } :: rest) :
    loadRenewalFloor foundation world = .error (.failed message) ⟨world.core,rest⟩ := by
  have heffect : effect false id world = .error (.failed message) ⟨world.core,rest⟩ := by
    simp [effect,hanswers]
  unfold loadRenewalFloor
  rw [getTask_bind,h]
  exact bind_of_error (bind_of_error heffect)

theorem startPeer_asks {message : String} {rest : List EffectAnswer}
    (hpending : world.core.task.pending[foundation.peer]? = none)
    (hactive : foundation.peer ∉ world.core.task.active)
    (hfloor : world.core.task.renewalFloors[foundation.peer]? = none)
    (hanswers : world.answers = { reply := .refused message } :: rest) :
    startPeer foundation world = .error (.failed message)
      ⟨world.core.mapTask fun task =>
        { task with foundations := task.foundations.insert foundation },rest⟩ := by
  unfold startPeer
  simp only [modifyTask_bind,getTask_bind,Core.mapTask,hpending,hactive,if_false]
  exact bind_of_error (loadRenewalFloor_refused hfloor hanswers)

end SessionTask

/-- Where the service begins to wait only for a task that has nothing to wait for, they never
wait for each other. -/
theorem never_deadlocked {floors : Finset ActorId} {inputs : List Input} {worker : Worker}
    (hkept : Worker.Kept { floors := floors } inputs)
    (hrun : run { floors := floors } inputs = some worker) : ¬ Deadlocked worker :=
  ((Worker.safe_opened floors).run hkept hrun).not_deadlocked

/-- A session is started and its floor answered for before the projection is reset. -/
theorem never_deadlocked_started :
    let start : Handling := ⟨.startPeer 7,[.loadRenewalFloor 7],by decide⟩
    let reset : Handling := ⟨.resetProjection,[],by decide⟩
    ∃ worker : Worker, run {} [.request (.startSessionPeer 7),.handle,.send start,.next,.proceed,
        .routeStore,.handle,.resolveStore .done,.finish,.request .resetSessionProjection,.handle,
        .send reset] = some worker ∧
      worker.service = .awaitingReply ∧ ¬ Deadlocked worker := by
  intro start reset
  refine ⟨_,rfl,rfl,?_⟩
  exact @never_deadlocked ∅ [.request (.startSessionPeer 7),.handle,.send start,.next,.proceed,
    .routeStore,.handle,.resolveStore .done,.finish,.request .resetSessionProjection,.handle,
    .send reset] _ (by decide) rfl

/-- The projection is to be reset while the floor of a new session is asked for: the service waits
for the task's reply, and the task for an answer that stands behind the reset. -/
theorem reset_deadlocks_with_renewal_store :
    let start : Handling := ⟨.startPeer 7,[.loadRenewalFloor 7],by decide⟩
    let reset : Handling := ⟨.resetProjection,[],by decide⟩
    ∃ worker : Worker, run {} [.request (.startSessionPeer 7),.request .resetSessionProjection,
        .handle,.send start,.next,.proceed,.handle,.send reset,.routeStore] = some worker ∧
      worker.requests = [.sessionRenewalStore] ∧ Deadlocked worker := by
  intro start reset
  exact ⟨_,rfl,rfl,by decide⟩

end WalkieSongie.ServiceWaits
