import WalkieSongie.BoundedQueue
import WalkieSongie.NativeRoom
set_option autoImplicit false

/-!
The driver's loop over its bounded event queue: what it sends and what it takes for sent, beside a
consumer that polls and tasks of the network that report on their own.
-/

namespace WalkieSongie.Bridge

variable {M : MusicLibrary}

/-- Whose event it is: the room's own, a peer's frame passed on, or a frame of the board's
repair. -/
inductive Sender where
  | room
  | peer
  | repair
  deriving DecidableEq

structure Egress (M : MusicLibrary) where
  event : TransportEvent M
  sender : Sender := .room

structure EventQueue (M : MusicLibrary) where
  events : BoundedQueue (Egress M)
  droppedEvents : Nat := 0
  abandonedThrough : Nat := 0
  /-- What the consumer has taken out of the queue, oldest first. -/
  taken : List (Egress M) := []

/-- What happens beside the driver between two of its sends. -/
inductive Beside where
  | poll
  | notice (code : Nat)

namespace EventQueue

def send (egress : Egress M) (queue : EventQueue M) : EventQueue M :=
  match queue.events.push egress with
  | some events => { queue with events := events }
  | none =>
      match egress.event with
      | .pitchIntentOutcome token _ =>
          { queue with abandonedThrough := max queue.abandonedThrough token }
      | _ => { queue with droppedEvents := queue.droppedEvents+1 }

/-- A full queue is an error to the repair attempt, and no dropped event. -/
def sendRepair (egress : Egress M) (queue : EventQueue M) : Option String × EventQueue M :=
  match queue.events.push egress with
  | some events => (none,{ queue with events := events })
  | none => (some "bounded native room repair egress is full",queue)

def put (egress : Egress M) (queue : EventQueue M) : EventQueue M :=
  match egress.sender with
  | .repair => (queue.sendRepair egress).2
  | _ => queue.send egress

def pollEvent (queue : EventQueue M) : Option (TransportEvent M) × EventQueue M :=
  if queue.abandonedThrough ≠ 0 then
    (some (.pitchIntentReset queue.abandonedThrough),{ queue with abandonedThrough := 0 })
  else
    match queue.events.pop with
    | some (egress,events) =>
        (some egress.event,{ queue with events := events, taken := queue.taken ++ [egress] })
    | none =>
        if queue.droppedEvents ≠ 0 then (some (.other 0),{ queue with droppedEvents := 0 })
        else (none,queue)

def beside (queue : EventQueue M) : Beside → EventQueue M
  | .poll => queue.pollEvent.2
  | .notice code => queue.put ⟨.other code,.room⟩

/-- The sends of one handler, and before each of them what happens beside it. -/
def putAll : List (Egress M) → (Nat → List Beside) → EventQueue M → EventQueue M
  | [],_,queue => queue
  | egress :: rest,turns,queue =>
      putAll rest (fun turn => turns (turn+1)) (((turns 0).foldl beside queue).put egress)

/-- The queue as the handler finds it at its turn after `earlier`. -/
def atTurn (earlier : List (Egress M)) (turns : Nat → List Beside) (queue : EventQueue M) :
    EventQueue M :=
  (turns earlier.length).foldl beside (putAll earlier turns queue)

def placed (queue : EventQueue M) : List (Egress M) := queue.taken ++ queue.events.items

def lastPlaced {β : Type} (select : Egress M → Option β) (queue : EventQueue M) : Option β :=
  (queue.placed.filterMap select).getLast?

def HasRoom (queue : EventQueue M) : Prop := queue.events.items.length < queue.events.capacity

instance (queue : EventQueue M) : Decidable queue.HasRoom := Nat.decLt _ _

/-- The last of the handler's events of one kind finds room at its turn, or says again what was
placed last. -/
def ArrivesLast {β : Type} (select : Egress M → Option β) (egress : List (Egress M))
    (turns : Nat → List Beside) (queue : EventQueue M) : Prop :=
  ∀ earlier event later value, egress = earlier ++ event :: later → select event = some value →
    (∀ other ∈ later, select other = none) →
      (queue.atTurn earlier turns).HasRoom ∨
        (queue.atTurn earlier turns).lastPlaced select = some value

section Placed

variable {β : Type} (select : Egress M → Option β)

theorem put_events (egress : Egress M) (queue : EventQueue M) :
    (queue.put egress).taken = queue.taken ∧ (queue.put egress).events =
      (queue.events.push egress).getD queue.events := by
  unfold put
  cases hsender : egress.sender with
  | repair =>
    unfold sendRepair
    cases hpush : queue.events.push egress <;> simp
  | room | peer =>
    unfold send
    cases hpush : queue.events.push egress with
    | some events => simp
    | none => cases egress.event <;> simp

theorem lastPlaced_put (egress : Egress M) (queue : EventQueue M) :
    (queue.put egress).lastPlaced select =
      if queue.HasRoom then (select egress).or (queue.lastPlaced select)
      else queue.lastPlaced select := by
  obtain ⟨htaken,hevents⟩ := put_events egress queue
  unfold lastPlaced placed
  rw [htaken,hevents]
  cases hpush : queue.events.push egress with
  | none =>
    have hfull := BoundedQueue.push_eq_none.mp hpush
    have hroom : ¬ queue.HasRoom := by
      unfold HasRoom
      omega
    rw [if_neg hroom,Option.getD_none]
  | some events =>
    obtain ⟨hroom,hitems,_⟩ := BoundedQueue.push_eq_some hpush
    have hroom : queue.HasRoom := hroom
    rw [if_pos hroom,Option.getD_some,hitems,← List.append_assoc]
    cases hselect : select egress <;> simp [hselect]

theorem lastPlaced_put_of_none {egress : Egress M} (hselect : select egress = none)
    (queue : EventQueue M) : (queue.put egress).lastPlaced select = queue.lastPlaced select := by
  rw [lastPlaced_put,hselect,Option.none_or,ite_self]

theorem lastPlaced_pollEvent (queue : EventQueue M) :
    queue.pollEvent.2.lastPlaced select = queue.lastPlaced select := by
  unfold pollEvent
  split
  · rfl
  · split
    · rename_i egress events hpop
      obtain ⟨hitems,_⟩ := BoundedQueue.pop_eq_some hpop
      simp [lastPlaced,placed,hitems]
    · split <;> rfl

theorem lastPlaced_foldl_beside (hnotice : ∀ code, select ⟨.other code,.room⟩ = none)
    (moves : List Beside) (queue : EventQueue M) :
    (moves.foldl beside queue).lastPlaced select = queue.lastPlaced select := by
  induction moves generalizing queue with
  | nil => rfl
  | cons move moves ih =>
    rw [List.foldl_cons,ih]
    cases move with
    | poll => exact lastPlaced_pollEvent select queue
    | notice code => exact lastPlaced_put_of_none select (hnotice code) queue

theorem putAll_append (earlier later : List (Egress M)) (turns : Nat → List Beside)
    (queue : EventQueue M) : putAll (earlier ++ later) turns queue =
      putAll later (fun turn => turns (turn+earlier.length)) (putAll earlier turns queue) := by
  induction earlier generalizing turns queue with
  | nil => rfl
  | cons egress earlier ih =>
    simp only [List.cons_append,putAll,ih,List.length_cons]
    congr 1

theorem lastPlaced_putAll_of_none (hnotice : ∀ code, select ⟨.other code,.room⟩ = none)
    {egress : List (Egress M)} (hselect : ∀ event ∈ egress, select event = none)
    (turns : Nat → List Beside) (queue : EventQueue M) :
    (putAll egress turns queue).lastPlaced select = queue.lastPlaced select := by
  induction egress generalizing turns queue with
  | nil => rfl
  | cons event rest ih =>
    rw [putAll,ih (fun other hother => hselect other (.tail _ hother)),
      lastPlaced_put_of_none select (hselect event (.head _)),
      lastPlaced_foldl_beside select hnotice]

theorem getLast?_filterMap_eq_some {egress : List (Egress M)} {value : β}
    (h : (egress.filterMap select).getLast? = some value) :
    ∃ earlier event later, egress = earlier ++ event :: later ∧ select event = some value ∧
      ∀ other ∈ later, select other = none := by
  induction egress using List.reverseRecOn with
  | nil => cases h
  | append_singleton rest event ih =>
    cases hselect : select event with
    | some chosen =>
      simp [hselect] at h
      exact ⟨rest,event,[],by simp,by rw [hselect,h],by simp⟩
    | none =>
      have hrest : (rest.filterMap select).getLast? = some value := by simpa [hselect] using h
      obtain ⟨earlier,found,later,hrest,hfound,hlater⟩ := ih hrest
      refine ⟨earlier,found,later ++ [event],by simp [hrest],hfound,fun other hother => ?_⟩
      rcases List.mem_append.mp hother with hother | hother
      · exact hlater other hother
      · rw [List.mem_singleton.mp hother,hselect]

theorem lastPlaced_putAll_split (hnotice : ∀ code, select ⟨.other code,.room⟩ = none)
    {earlier later : List (Egress M)} {event : Egress M} {value : β}
    (hevent : select event = some value) (hlater : ∀ other ∈ later, select other = none)
    (turns : Nat → List Beside) (queue : EventQueue M) :
    (putAll (earlier ++ event :: later) turns queue).lastPlaced select =
      if (queue.atTurn earlier turns).HasRoom then some value
      else (queue.atTurn earlier turns).lastPlaced select := by
  rw [putAll_append,putAll,lastPlaced_putAll_of_none select hnotice hlater,lastPlaced_put,hevent,
    Option.some_or,Nat.zero_add]
  rfl

/-- What the handler sent last is what was placed last, exactly if it arrived. -/
theorem lastPlaced_putAll_iff (hnotice : ∀ code, select ⟨.other code,.room⟩ = none)
    {egress : List (Egress M)} {value : β}
    (hlast : (egress.filterMap select).getLast? = some value) (turns : Nat → List Beside)
    (queue : EventQueue M) : (putAll egress turns queue).lastPlaced select = some value ↔
      ArrivesLast select egress turns queue := by
  constructor
  · intro hplaced earlier event later other hsplit hevent hlater
    subst hsplit
    have hsame : other = value := by
      have hnone : later.filterMap select = [] := by simpa using hlater
      simpa [hevent,hnone] using hlast
    rw [lastPlaced_putAll_split select hnotice hevent hlater] at hplaced
    by_cases hroom : (queue.atTurn earlier turns).HasRoom
    · exact .inl hroom
    · rw [if_neg hroom] at hplaced
      exact .inr (hsame ▸ hplaced)
  · intro harrives
    obtain ⟨earlier,event,later,hsplit,hevent,hlater⟩ := getLast?_filterMap_eq_some select hlast
    have hturn := harrives earlier event later value hsplit hevent hlater
    rw [hsplit,lastPlaced_putAll_split select hnotice hevent hlater]
    by_cases hroom : (queue.atTurn earlier turns).HasRoom
    · rw [if_pos hroom]
    · rw [if_neg hroom]
      exact hturn.resolve_left hroom

end Placed

end EventQueue

/-- What reaches the room over the network: a realtime frame to pass on, a live record of a lane
with the replica it leaves, or an event that only reports. -/
inductive RoomInbound (M : MusicLibrary) where
  | midi (event : RealtimeMidi)
  | roundTable (frame : RoundTableFrame M)
  | live (replica : RoomReplica M) (refused : Bool)
  | other (codes : List Nat)

/-- What the board's repair sends: a frame of its own egress, or a report. -/
inductive RepairSend where
  | outbound (code : Nat)
  | report (code : Nat)

inductive LoopEvent (M : MusicLibrary) where
  | join (name : String) (opened : Except String (RoomReplica M))
  | leave
  | command (admission : Admission M) (broadcast : Option String) (command : DriverCommand M)
  /-- Commands and discoveries that only report. -/
  | report (codes : List Nat)
  /-- The attempt's replica where it took a frame or its close, and what it sends around. -/
  | boardRepair (before : List RepairSend) (received : Option (RoomReplica M))
      (later : List RepairSend)
  | inbound (inbound : RoomInbound M)
  | inboundClosed
  | repairFinished (failed : Bool)
  | shutdown

def RepairSend.egress : RepairSend → Egress M
  | .outbound code => ⟨.other code,.repair⟩
  | .report code => ⟨.other code,.room⟩

/-- The events the driver sends as the room's own. -/
def ofRoom (events : List (TransportEvent M)) : List (Egress M) := events.map (⟨·,.room⟩)

def emptyPitchSet : SharedPitchSet := ⟨∅,∅⟩

namespace ActiveRoom

/-- Both projections, and after what a handler sent before. -/
def publishAfter (egress : List (Egress M)) (room : ActiveRoom M) :
    ActiveRoom M × List (Egress M) :=
  (room.publish.1,egress ++ ofRoom room.publish.2)

def handleInbound (room : ActiveRoom M) : RoomInbound M → ActiveRoom M × List (Egress M)
  | .midi event => (room,[⟨.midi event,.peer⟩])
  | .roundTable frame => (room,[⟨.roundTable frame,.peer⟩])
  | .live replica refused =>
      if refused = true then ({ room with replica := replica },ofRoom [.other 0])
      else publishAfter [] { room with replica := replica }
  | .other codes => (room,ofRoom (codes.map .other))

def publishOpened (name : String) (replica : RoomReplica M) :
    ActiveRoom M × List (TransportEvent M) :=
  let (room,tables) := (ofReplica name replica).publishRoundTableIfChanged true
  let (room,sets) := room.publishPitchSetIfChanged true
  (room,tables ++ sets)

end ActiveRoom

def handleLoopEvent : LoopEvent M → Option (ActiveRoom M) →
    Option (ActiveRoom M) × List (Egress M)
  | .join name opened,active =>
      if active.any (·.name = name) then (active,ofRoom [.roomSelected name,.roomLink .ready])
      else
        -- A room switch retracts the old projection before the new replica publishes.
        let retracted := [.roomPitchSet emptyPitchSet,.other 1,.roomLink .connecting]
        match opened with
        | .ok replica =>
            let (room,events) := ActiveRoom.publishOpened name replica
            (some room,ofRoom (retracted ++ [.other 0] ++ events ++
              [.roomSelected name,.roomLink .ready]))
        | .error _ => (none,ofRoom (retracted ++ [.roomLink .failed,.other 0]))
  | .leave,active =>
      (none,ofRoom ((if active.isSome then [.other 0] else []) ++
        [.roomPitchSet emptyPitchSet,.other 1,.roomLink .offline]))
  | .command admission broadcast command,active =>
      let (active,events) := handleCommand admission broadcast command active
      (active,ofRoom events)
  | .report codes,active => (active,ofRoom (codes.map .other))
  | .boardRepair before received later,active =>
      match active,received with
      | some room,some replica =>
          let (room,egress) := ActiveRoom.publishAfter (before.map RepairSend.egress)
            { room with replica := replica }
          (some room,egress ++ later.map RepairSend.egress)
      | active,_ => (active,before.map RepairSend.egress ++ later.map RepairSend.egress)
  | .inbound inbound,active =>
      match active with
      | none => (none,[])
      | some room =>
          let (room,egress) := room.handleInbound inbound
          let (room,egress) := room.publishAfter egress
          (some room,egress)
  | .inboundClosed,_ =>
      (none,ofRoom [.roomLink .failed,.other 0,.roomPitchSet emptyPitchSet,.other 1])
  | .repairFinished failed,active =>
      let reported := if failed then ofRoom [.other 0] else []
      match active with
      | none => (none,reported)
      | some room =>
          let (room,egress) := room.publishAfter reported
          (some room,egress)
  | .shutdown,_ => (none,ofRoom [.roomPitchSet emptyPitchSet,.other 1,.roomLink .offline])

def LoopEvent.ends : LoopEvent M → Bool
  | .shutdown => true
  | _ => false

structure RoomDriver (M : MusicLibrary) where
  queue : EventQueue M
  active : Option (ActiveRoom M) := none
  running : Bool := true

/-- What the run takes next: an event of the loop with its turns, a change that a repair task or
another peer brought to the shared replica, or the consumer and the network's tasks alone. -/
inductive DriverInput (M : MusicLibrary) where
  | event (event : LoopEvent M) (turns : Nat → List Beside)
  | replica (replica : RoomReplica M)
  | beside (moves : List Beside)

namespace RoomDriver

def step (driver : RoomDriver M) : DriverInput M → RoomDriver M
  | .event event turns =>
      if driver.running = false then driver
      else
        let (active,egress) := handleLoopEvent event driver.active
        { queue := driver.queue.putAll egress turns
          active := active
          running := !event.ends }
  | .replica replica =>
      { driver with active := driver.active.map fun room => { room with replica := replica } }
  | .beside moves => { driver with queue := moves.foldl EventQueue.beside driver.queue }

def run (driver : RoomDriver M) (inputs : List (DriverInput M)) : RoomDriver M :=
  inputs.foldl step driver

end RoomDriver

end WalkieSongie.Bridge
