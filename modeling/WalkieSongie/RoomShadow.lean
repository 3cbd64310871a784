import WalkieSongie.RoomQueue
set_option autoImplicit false

/-!
The driver's shadow of what it forwarded, against what the event queue was really given.
-/

namespace WalkieSongie.Bridge

variable {M : MusicLibrary}

def TransportEvent.pitchSet : TransportEvent M → Option SharedPitchSet
  | .roomPitchSet shared => some shared
  | _ => none

def TransportEvent.config : TransportEvent M → Option (RoundTableConfig M)
  | .roundTable (.config config) => some config
  | _ => none

def Egress.pitchSet (egress : Egress M) : Option SharedPitchSet := egress.event.pitchSet

/-- The room's own Config; a peer's frame passed on is none. -/
def Egress.roomConfig (egress : Egress M) : Option (RoundTableConfig M) :=
  if egress.sender = .room then egress.event.config else none

def EventQueue.heldSet (queue : EventQueue M) : Option SharedPitchSet :=
  (queue.taken.filterMap Egress.pitchSet).getLast?

/-- The consumer polls until nothing is left. -/
def EventQueue.drain (queue : EventQueue M) : EventQueue M :=
  (List.replicate (queue.events.items.length+1) Beside.poll).foldl EventQueue.beside queue

namespace RoomDriver

/-- The shadow is what was placed: the last set, and the last Config of the room. -/
def Shadowed (driver : RoomDriver M) : Prop :=
  ∀ room, driver.active = some room →
    driver.queue.lastPlaced Egress.pitchSet = some room.forwardedPitchSet ∧
      driver.queue.lastPlaced Egress.roomConfig = some room.forwardedRoundTable

/-- Where the handler leaves a room active, its last set and its last Config arrive. -/
def Keeps (driver : RoomDriver M) : DriverInput M → Prop
  | .event event turns => driver.running = true →
      (handleLoopEvent event driver.active).1.isSome = true →
        driver.queue.ArrivesLast Egress.pitchSet (handleLoopEvent event driver.active).2 turns ∧
          driver.queue.ArrivesLast Egress.roomConfig (handleLoopEvent event driver.active).2 turns
  | .replica _ => True
  | .beside _ => True

def RunKeeps (driver : RoomDriver M) : List (DriverInput M) → Prop
  | [] => True
  | input :: rest => driver.Keeps input ∧ (driver.step input).RunKeeps rest

end RoomDriver

/-- After the events the room has forwarded the last of their kind, or what it had before. -/
def Forwards {β : Type} (select : Egress M → Option β) (forwarded : ActiveRoom M → β)
    (room : ActiveRoom M) (result : ActiveRoom M × List (Egress M)) : Prop :=
  (result.2.filterMap select).getLast?.getD (forwarded room) = forwarded result.1

structure Follows (room : ActiveRoom M) (result : ActiveRoom M × List (Egress M)) : Prop where
  pitchSet : Forwards Egress.pitchSet ActiveRoom.forwardedPitchSet room result
  roundTable : Forwards Egress.roomConfig ActiveRoom.forwardedRoundTable room result

theorem Forwards.trans {β : Type} {select : Egress M → Option β} {forwarded : ActiveRoom M → β}
    {room middle : ActiveRoom M} {first : List (Egress M)} {last : ActiveRoom M × List (Egress M)}
    (hfirst : Forwards select forwarded room (middle,first))
    (hlast : Forwards select forwarded middle last) :
    Forwards select forwarded room (last.1,first ++ last.2) := by
  unfold Forwards at *
  rw [List.filterMap_append,List.getLast?_append]
  cases hsent : (last.2.filterMap select).getLast? with
  | some value => simpa [hsent] using hlast
  | none =>
    rw [hsent,Option.getD_none] at hlast
    rw [Option.none_or,hfirst,hlast]

namespace Follows

variable {room middle : ActiveRoom M}

theorem trans {first : List (Egress M)} {last : ActiveRoom M × List (Egress M)}
    (hfirst : Follows room (middle,first)) (hlast : Follows middle last) :
    Follows room (last.1,first ++ last.2) where
  pitchSet := hfirst.pitchSet.trans hlast.pitchSet
  roundTable := hfirst.roundTable.trans hlast.roundTable

theorem quiet {egress : List (Egress M)}
    (hquiet : ∀ event ∈ egress, event.pitchSet = none ∧ event.roomConfig = none)
    (hset : middle.forwardedPitchSet = room.forwardedPitchSet)
    (htable : middle.forwardedRoundTable = room.forwardedRoundTable) :
    Follows room (middle,egress) := by
  have hsets : egress.filterMap Egress.pitchSet = [] := by
    simpa using fun event hevent => (hquiet event hevent).1
  have hconfigs : egress.filterMap Egress.roomConfig = [] := by
    simpa using fun event hevent => (hquiet event hevent).2
  constructor
  · simp [Forwards,hsets,hset]
  · simp [Forwards,hconfigs,htable]

theorem replica (replica : RoomReplica M) (room : ActiveRoom M) :
    Follows room ({ room with replica := replica },[]) :=
  quiet (by simp) rfl rfl

end Follows

theorem quiet_ofRoom {events : List (TransportEvent M)}
    (h : ∀ event ∈ events, event.pitchSet = none ∧ event.config = none) :
    ∀ egress ∈ ofRoom events, egress.pitchSet = none ∧ egress.roomConfig = none := by
  intro egress hegress
  obtain ⟨event,hevent,rfl⟩ := List.mem_map.mp hegress
  simpa [Egress.pitchSet,Egress.roomConfig] using h event hevent

theorem Follows.events {events : List (TransportEvent M)}
    (h : ∀ event ∈ events, event.pitchSet = none ∧ event.config = none) (room : ActiveRoom M) :
    Follows room (room,ofRoom events) :=
  .quiet (quiet_ofRoom h) rfl rfl

theorem ofRoom_append (first last : List (TransportEvent M)) :
    ofRoom (first ++ last) = ofRoom first ++ ofRoom last := List.map_append

theorem quiet_codes (codes : List Nat) :
    ∀ event ∈ codes.map (TransportEvent.other (M := M)),
      event.pitchSet = none ∧ event.config = none := by
  intro event hevent
  obtain ⟨code,_,rfl⟩ := List.mem_map.mp hevent
  exact ⟨rfl,rfl⟩

theorem quiet_settingsReport (config : Option (RoundTableConfig M)) (replica : RoomReplica M) :
    ∀ event ∈ replica.settingsReport config, event.pitchSet = none ∧ event.config = none := by
  unfold RoomReplica.settingsReport
  split
  · simp
  · split <;> simp [TransportEvent.pitchSet,TransportEvent.config]

theorem Follows.refused (left : RoomReplica M) (reports : List Nat) (room : ActiveRoom M) :
    Follows room ({ room with replica := left },ofRoom (reports.map .other)) :=
  (Follows.replica left room).trans (.events (quiet_codes reports) _)

namespace ActiveRoom

theorem follows_publishRoundTable (force : Bool) (room : ActiveRoom M) :
    Follows room ((room.publishRoundTableIfChanged force).1,
      ofRoom (room.publishRoundTableIfChanged force).2) := by
  simp only [publishRoundTableIfChanged]
  split
  · exact .quiet (by simp [ofRoom]) rfl rfl
  · constructor
    · simp [Forwards,ofRoom,Egress.pitchSet,TransportEvent.pitchSet]
    · simp [Forwards,ofRoom,Egress.roomConfig,TransportEvent.config]

theorem follows_publishPitchSet (force : Bool) (room : ActiveRoom M) :
    Follows room ((room.publishPitchSetIfChanged force).1,
      ofRoom (room.publishPitchSetIfChanged force).2) := by
  simp only [publishPitchSetIfChanged]
  split
  · exact .quiet (by simp [ofRoom]) rfl rfl
  · constructor
    · simp [Forwards,ofRoom,Egress.pitchSet,TransportEvent.pitchSet]
    · simp [Forwards,ofRoom,Egress.roomConfig,TransportEvent.config]

theorem follows_publish (room : ActiveRoom M) :
    Follows room (room.publish.1,ofRoom room.publish.2) := by
  have htables := follows_publishRoundTable false room
  have hsets := follows_publishPitchSet false (room.publishRoundTableIfChanged false).1
  rw [show ofRoom room.publish.2 = ofRoom (room.publishRoundTableIfChanged false).2 ++
    ofRoom ((room.publishRoundTableIfChanged false).1.publishPitchSetIfChanged false).2 from
      ofRoom_append _ _]
  exact htables.trans hsets

theorem follows_publishAfter {room middle : ActiveRoom M} {egress : List (Egress M)}
    (h : Follows room (middle,egress)) : Follows room (middle.publishAfter egress) :=
  h.trans (follows_publish middle)

theorem follows_acceptRoundTable (admission : Admission M) (broadcast : Option String)
    (frame : RoundTableFrame M) (room : ActiveRoom M) :
    let result := room.acceptRoundTable admission broadcast frame
    Follows room (result.2.1,ofRoom result.2.2) := by
  cases admission with
  | refused error left reports => exact .refused left reports room
  | admitted =>
    have hreported := (Follows.replica (room.replica.admitRoundTableSettings frame.boardConfig)
      room).trans (.events (quiet_settingsReport frame.boardConfig room.replica) _)
    have htables := hreported.trans (follows_publishRoundTable false _)
    simpa [acceptRoundTable,ofRoom_append] using htables

theorem follows_acceptPitchEdit (admission : Admission M) (pitch : TunedPeriodicPitch)
    (active : Bool) (room : ActiveRoom M) :
    let result := room.acceptPitchEdit admission pitch active
    Follows room (result.2.1,ofRoom result.2.2) := by
  cases admission with
  | refused error left reports => exact .refused left reports room
  | admitted => exact (Follows.replica _ room).trans (follows_publishPitchSet false _)

theorem follows_acceptBoardEdit (admission : Admission M) (broadcast : Option String)
    (settings : Option (RoundTableConfig M)) (pitchEdits : List (TunedPeriodicPitch × Bool))
    (room : ActiveRoom M) :
    let result := room.acceptBoardEdit admission broadcast settings pitchEdits
    Follows room (result.2.1,ofRoom result.2.2) := by
  cases admission with
  | refused error left reports => exact .refused left reports room
  | admitted =>
    have hreported := (Follows.replica
      ((room.replica.admitRoundTableSettings settings).admitPitchEdits pitchEdits) room).trans
        (.events (quiet_settingsReport settings room.replica) _)
    have htables := (hreported.trans (follows_publishPitchSet false _)).trans
      (follows_publishRoundTable false _)
    simpa [acceptBoardEdit,ofRoom_append] using htables

theorem publishOpened_spec (name : String) (replica : RoomReplica M) :
    publishOpened name replica = (ofReplica name replica,
      [.roundTable (.config (roundTableSettings replica.roundTable)),
        .roomPitchSet replica.soundingPitchSet]) := rfl

end ActiveRoom

theorem follows_handleCommand (admission : Admission M) (broadcast : Option String)
    (command : DriverCommand M) {room after : ActiveRoom M}
    (h : (handleCommand admission broadcast command (some room)).1 = some after) :
    Follows room (after,ofRoom (handleCommand admission broadcast command (some room)).2) := by
  have houtcome (room : ActiveRoom M) (token : Nat) (outcome : PitchIntentOutcome) :
      Follows room (room,ofRoom [.pitchIntentOutcome token outcome]) :=
    .events (by simp [TransportEvent.pitchSet,TransportEvent.config]) room
  cases command with
  | roundTable frame =>
    have haccepted := ActiveRoom.follows_acceptRoundTable admission broadcast frame room
    simp only [handleCommand] at h ⊢
    cases h
    split
    · have hfailed : Follows (room.acceptRoundTable admission broadcast frame).2.1
          ((room.acceptRoundTable admission broadcast frame).2.1,ofRoom [.other 0]) :=
        .events (by simp [TransportEvent.pitchSet,TransportEvent.config]) _
      rw [ofRoom_append]
      exact haccepted.trans hfailed
    · exact haccepted
  | boardEdit token frame settings pitchEdits =>
    have haccepted :=
      ActiveRoom.follows_acceptBoardEdit admission broadcast settings pitchEdits room
    simp only [handleCommand] at h ⊢
    cases h
    simp only [ofRoom_append]
    exact ((haccepted.trans (ActiveRoom.follows_publishPitchSet false _)).trans
      (ActiveRoom.follows_publishRoundTable false _)).trans (houtcome _ token _)
  | pitchEdit token pitch enabled =>
    have haccepted := ActiveRoom.follows_acceptPitchEdit admission pitch enabled room
    simp only [handleCommand] at h ⊢
    cases h
    simp only [ofRoom_append]
    exact (haccepted.trans (ActiveRoom.follows_publishPitchSet false _)).trans (houtcome _ token _)

theorem quiet_repairSends (sends : List RepairSend) :
    ∀ egress ∈ sends.map (RepairSend.egress (M := M)),
      egress.pitchSet = none ∧ egress.roomConfig = none := by
  intro egress hegress
  obtain ⟨send,_,rfl⟩ := List.mem_map.mp hegress
  cases send with
  | outbound code | report code =>
    simp [RepairSend.egress,Egress.pitchSet,Egress.roomConfig,TransportEvent.pitchSet,
      TransportEvent.config]

theorem ActiveRoom.follows_handleInbound (room : ActiveRoom M) (inbound : RoomInbound M) :
    Follows room (room.handleInbound inbound) := by
  cases inbound with
  | midi event | roundTable frame =>
    refine .quiet (fun egress hegress => ?_) rfl rfl
    rw [List.mem_singleton.mp hegress]
    exact ⟨rfl,rfl⟩
  | live replica refused =>
    unfold handleInbound
    cases refused with
    | true => exact .quiet (quiet_ofRoom (quiet_codes [0])) rfl rfl
    | false => exact follows_publishAfter (.replica replica room)
  | other codes => exact .events (quiet_codes codes) room

/-- What the room follows, or was opened with: where a handler leaves a room active. -/
theorem handleLoopEvent_spec (event : LoopEvent M) {active : Option (ActiveRoom M)}
    {after : ActiveRoom M} (h : (handleLoopEvent event active).1 = some after) :
    (∃ room, active = some room ∧ Follows room (after,(handleLoopEvent event active).2)) ∨
      (((handleLoopEvent event active).2.filterMap Egress.pitchSet).getLast? =
          some after.forwardedPitchSet ∧
        ((handleLoopEvent event active).2.filterMap Egress.roomConfig).getLast? =
          some after.forwardedRoundTable) := by
  cases event with
  | join name opened =>
    simp only [handleLoopEvent] at h ⊢
    by_cases hsame : active.any (·.name = name) = true
    · simp only [hsame,if_true] at h ⊢
      refine .inl ⟨after,h,.events ?_ after⟩
      simp [TransportEvent.pitchSet,TransportEvent.config]
    · simp only [hsame] at h ⊢
      cases opened with
      | error _ => simp at h
      | ok replica =>
        simp only [ActiveRoom.publishOpened_spec] at h ⊢
        cases h
        exact .inr ⟨rfl,rfl⟩
  | leave | inboundClosed | shutdown => cases h
  | command admission broadcast command =>
    cases active with
    | none => cases command <;> cases h
    | some room => exact .inl ⟨room,rfl,follows_handleCommand admission broadcast command h⟩
  | report codes => exact .inl ⟨after,h,.events (quiet_codes codes) after⟩
  | boardRepair before received later =>
    cases active with
    | none => cases h
    | some room =>
      have hbefore : Follows room (room,before.map RepairSend.egress) :=
        .quiet (quiet_repairSends before) rfl rfl
      have hlater (room : ActiveRoom M) : Follows room (room,later.map RepairSend.egress) :=
        .quiet (quiet_repairSends later) rfl rfl
      cases received with
      | none =>
        cases h
        exact .inl ⟨_,rfl,hbefore.trans (hlater _)⟩
      | some replica =>
        have hreceived := ActiveRoom.follows_publishAfter
          (hbefore.trans (Follows.replica replica room))
        rw [List.append_nil] at hreceived
        cases h
        exact .inl ⟨room,rfl,hreceived.trans (hlater _)⟩
  | inbound inbound =>
    cases active with
    | none => cases h
    | some room =>
      cases h
      exact .inl ⟨room,rfl,ActiveRoom.follows_publishAfter (room.follows_handleInbound inbound)⟩
  | repairFinished failed =>
    cases active with
    | none => cases h
    | some room =>
      have hreported : Follows room (room,if failed then ofRoom [.other 0] else []) := by
        cases failed with
        | true => exact .events (quiet_codes [0]) room
        | false => exact .quiet (by simp) rfl rfl
      cases h
      exact .inl ⟨room,rfl,ActiveRoom.follows_publishAfter hreported⟩

/-- For one kind of event: the shadow is what was placed again, exactly if the last one arrived. -/
theorem shadow_iff {β : Type} {select : Egress M → Option β} {forwarded : ActiveRoom M → β}
    (hnotice : ∀ code, select ⟨.other code,.room⟩ = none) {active : Option (ActiveRoom M)}
    {after : ActiveRoom M} {egress : List (Egress M)} {queue : EventQueue M}
    (hbefore : ∀ room, active = some room → queue.lastPlaced select = some (forwarded room))
    (hhandled : (∃ room, active = some room ∧ Forwards select forwarded room (after,egress)) ∨
      (egress.filterMap select).getLast? = some (forwarded after))
    (turns : Nat → List Beside) :
    (queue.putAll egress turns).lastPlaced select = some (forwarded after) ↔
      queue.ArrivesLast select egress turns := by
  cases hlast : (egress.filterMap select).getLast? with
  | some value =>
    have hvalue : value = forwarded after := by
      rcases hhandled with ⟨room,_,hforwards⟩ | hopened
      · simpa [Forwards,hlast] using hforwards
      · simpa [hlast] using hopened
    rw [← hvalue]
    exact EventQueue.lastPlaced_putAll_iff select hnotice hlast turns queue
  | none =>
    have hquiet : ∀ event ∈ egress, select event = none := by
      simpa using List.getLast?_eq_none_iff.mp hlast
    rcases hhandled with ⟨room,hactive,hforwards⟩ | hopened
    · have hsame : forwarded room = forwarded after := by
        simpa [Forwards,hlast] using hforwards
      rw [EventQueue.lastPlaced_putAll_of_none select hnotice hquiet,hbefore room hactive,hsame]
      refine iff_of_true rfl fun earlier event later value hsplit hevent _ => ?_
      have hnone := hquiet event (by simp [hsplit])
      simp [hnone] at hevent
    · simp [hlast] at hopened

namespace RoomDriver

variable {driver : RoomDriver M}

theorem step_shadowed_iff (h : driver.Shadowed) (input : DriverInput M) :
    (driver.step input).Shadowed ↔ driver.Keeps input := by
  cases input with
  | replica replica =>
    refine iff_of_true (fun room hroom => ?_) trivial
    obtain ⟨before,hactive,rfl⟩ := Option.map_eq_some_iff.mp hroom
    exact h before hactive
  | beside moves =>
    refine iff_of_true (fun room hroom => ?_) trivial
    obtain ⟨hset,htable⟩ := h room hroom
    unfold step
    dsimp only
    rw [EventQueue.lastPlaced_foldl_beside _ (fun _ => rfl),
      EventQueue.lastPlaced_foldl_beside _ (fun _ => rfl)]
    exact ⟨hset,htable⟩
  | event event turns =>
    by_cases hrunning : driver.running = false
    · have hstep : driver.step (.event event turns) = driver := if_pos hrunning
      rw [hstep]
      exact iff_of_true h fun htrue => absurd htrue (by simp [hrunning])
    · have hstep : driver.step (.event event turns) = {
          queue := driver.queue.putAll (handleLoopEvent event driver.active).2 turns
          active := (handleLoopEvent event driver.active).1
          running := !event.ends } := if_neg hrunning
      rw [hstep]
      unfold Shadowed Keeps
      cases hafter : (handleLoopEvent event driver.active).1 with
      | none => simp [hafter]
      | some after =>
        have hhandled := handleLoopEvent_spec event hafter
        have hset : (driver.queue.putAll (handleLoopEvent event driver.active).2 turns).lastPlaced
            Egress.pitchSet = some after.forwardedPitchSet ↔ driver.queue.ArrivesLast
              Egress.pitchSet (handleLoopEvent event driver.active).2 turns :=
          shadow_iff (fun _ => rfl) (fun room hroom => (h room hroom).1)
            (hhandled.imp (Exists.imp fun _ hroom => ⟨hroom.1,hroom.2.pitchSet⟩) And.left) turns
        have htable : (driver.queue.putAll (handleLoopEvent event driver.active).2 turns).lastPlaced
            Egress.roomConfig = some after.forwardedRoundTable ↔ driver.queue.ArrivesLast
              Egress.roomConfig (handleLoopEvent event driver.active).2 turns :=
          shadow_iff (fun _ => rfl) (fun room hroom => (h room hroom).2)
            (hhandled.imp (Exists.imp fun _ hroom => ⟨hroom.1,hroom.2.roundTable⟩) And.right) turns
        simp [← hset,← htable,hrunning,hafter]

theorem run_shadowed_iff (h : driver.Shadowed) (inputs : List (DriverInput M)) :
    (∀ earlier later, inputs = earlier ++ later → (driver.run earlier).Shadowed) ↔
      driver.RunKeeps inputs := by
  induction inputs generalizing driver with
  | nil =>
    refine iff_of_true (fun earlier later hinputs => ?_) trivial
    have hnil : earlier = [] := (List.append_eq_nil_iff.mp hinputs.symm).1
    rw [hnil]
    exact h
  | cons input rest ih =>
    have hkeeps := step_shadowed_iff h input
    constructor
    · intro hall
      have hfirst : (driver.step input).Shadowed := hall [input] rest rfl
      refine ⟨hkeeps.mp hfirst,(ih hfirst).mp fun earlier later hrest => ?_⟩
      exact hall (input :: earlier) later (by rw [hrest,List.cons_append])
    · intro hrun earlier later hinputs
      have hfirst : (driver.step input).Shadowed := hkeeps.mpr hrun.1
      cases earlier with
      | nil => exact h
      | cons other earlier =>
        obtain ⟨rfl,hrest⟩ := List.cons.inj hinputs
        exact (ih hfirst).mpr hrun.2 earlier later hrest

theorem step_running (h : driver.active.isSome = true → driver.running = true)
    (input : DriverInput M) :
    (driver.step input).active.isSome = true → (driver.step input).running = true := by
  cases input with
  | replica replica => simpa [step] using h
  | beside moves => exact h
  | event event turns =>
    by_cases hrunning : driver.running = false
    · have hstep : driver.step (.event event turns) = driver := if_pos hrunning
      rw [hstep]
      exact h
    · simp only [step,hrunning]
      cases event <;> simp [handleLoopEvent,LoopEvent.ends]

theorem run_running (h : driver.active.isSome = true → driver.running = true)
    (inputs : List (DriverInput M)) :
    (driver.run inputs).active.isSome = true → (driver.run inputs).running = true := by
  induction inputs generalizing driver with
  | nil => exact h
  | cons input rest ih => exact ih (step_running h input)

theorem run_append (first last : List (DriverInput M)) :
    driver.run (first ++ last) = (driver.run first).run last := List.foldl_append

end RoomDriver

namespace EventQueue

theorem pollEvent_items (queue : EventQueue M) :
    queue.pollEvent.2.events.items.length +
        (if queue.pollEvent.2.abandonedThrough = 0 then 0 else 1) =
      queue.events.items.length + (if queue.abandonedThrough = 0 then 0 else 1) - 1 := by
  unfold pollEvent
  by_cases habandoned : queue.abandonedThrough = 0
  · simp only [habandoned,ne_eq,not_true,if_false,if_true]
    cases hpop : queue.events.pop with
    | none =>
      have hitems := BoundedQueue.pop_eq_none.mp hpop
      by_cases hdropped : queue.droppedEvents = 0 <;> simp [hitems,habandoned,hdropped]
    | some taken =>
      have hitems := (BoundedQueue.pop_eq_some hpop).1
      simp [hitems]
  · simp [habandoned]

theorem items_polls (polls : Nat) (queue : EventQueue M) :
    ((List.replicate polls Beside.poll).foldl beside queue).events.items.length ≤
      queue.events.items.length + (if queue.abandonedThrough = 0 then 0 else 1) - polls := by
  induction polls generalizing queue with
  | zero =>
    simp only [List.replicate_zero,List.foldl_nil]
    omega
  | succ polls ih =>
    have hrest := ih queue.pollEvent.2
    have hpoll := pollEvent_items queue
    simp only [List.replicate_succ,List.foldl_cons,beside]
    omega

theorem drain_items (queue : EventQueue M) : queue.drain.events.items = [] := by
  have hpolls := items_polls (queue.events.items.length+1) queue
  have hempty : queue.drain.events.items.length = 0 := by
    unfold drain
    split at hpolls <;> omega
  exact List.eq_nil_of_length_eq_zero hempty

theorem drain_heldSet (queue : EventQueue M) :
    queue.drain.heldSet = queue.lastPlaced Egress.pitchSet := by
  have hsame : queue.drain.lastPlaced Egress.pitchSet = queue.lastPlaced Egress.pitchSet :=
    lastPlaced_foldl_beside _ (fun _ => rfl) _ queue
  rw [← hsame,lastPlaced,placed,drain_items,List.append_nil]
  rfl

end EventQueue

theorem ActiveRoom.publish_forwardedPitchSet (room : ActiveRoom M) :
    room.publish.1.forwardedPitchSet = room.publish.1.replica.soundingPitchSet := by
  simp only [publish,publishPitchSetIfChanged]
  split
  · rename_i hsame
    exact hsame.2.symm
  · rfl

def RoomDriver.start (capacity : Nat) : RoomDriver M := { queue := { events := .empty capacity } }

def publishPass (turns : Nat → List Beside) : DriverInput M := .event (.repairFinished false) turns

theorem RoomDriver.step_publishPass_active {driver : RoomDriver M}
    (hrunning : driver.running = true)
    (turns : Nat → List Beside) : (driver.step (publishPass turns)).active =
      driver.active.map fun room => room.publish.1 := by
  simp only [step,publishPass,hrunning,Bool.true_eq_false,if_false,handleLoopEvent]
  cases driver.active <;> rfl

theorem RoomDriver.publishPass_published {driver : RoomDriver M} {room : ActiveRoom M}
    {turns : Nat → List Beside} (hrunning : driver.active.isSome = true → driver.running = true)
    (hactive : (driver.run [publishPass turns]).active = some room) :
    room.forwardedPitchSet = room.replica.soundingPitchSet := by
  cases hbefore : driver.active with
  | some earlier =>
    have hstep := step_publishPass_active (hrunning (by simp [hbefore])) turns
    rw [hbefore,Option.map_some] at hstep
    have hroom : earlier.publish.1 = room := Option.some.inj (hstep.symm.trans hactive)
    rw [← hroom]
    exact earlier.publish_forwardedPitchSet
  | none =>
    exfalso
    simp only [run,List.foldl_cons,List.foldl_nil,step,publishPass] at hactive
    split at hactive
    · simp [hbefore] at hactive
    · simp [handleLoopEvent,hbefore] at hactive

/-- In every state of a run the driver's shadows are what the queue was given, exactly if each
handler's last set and last Config arrive; a consumer that drains the queue after one more publish
pass then holds the replica's set. -/
theorem room_projection_shadowed_iff (capacity : Nat) (inputs : List (DriverInput M)) :
    ((∀ earlier later, inputs = earlier ++ later →
        ((RoomDriver.start capacity).run earlier).Shadowed) ↔
      (RoomDriver.start capacity).RunKeeps inputs) ∧
    ∀ turns room, (RoomDriver.start capacity).RunKeeps (inputs ++ [publishPass turns]) →
      ((RoomDriver.start capacity).run (inputs ++ [publishPass turns])).active = some room →
        ((RoomDriver.start capacity).run (inputs ++ [publishPass turns])).queue.drain.heldSet =
          some room.replica.soundingPitchSet := by
  have hstart : (RoomDriver.start (M := M) capacity).Shadowed := by
    intro room hroom
    cases hroom
  refine ⟨RoomDriver.run_shadowed_iff hstart inputs,fun turns room hkeeps hactive => ?_⟩
  have hshadowed := (RoomDriver.run_shadowed_iff hstart _).mpr hkeeps _ [] (List.append_nil _).symm
  rw [EventQueue.drain_heldSet,(hshadowed room hactive).1]
  have hpublished : room.forwardedPitchSet = room.replica.soundingPitchSet := by
    rw [RoomDriver.run_append] at hactive
    have hrunning : ((RoomDriver.start capacity).run inputs).active.isSome = true →
        ((RoomDriver.start capacity).run inputs).running = true :=
      RoomDriver.run_running (fun _ => rfl) inputs
    exact RoomDriver.publishPass_published hrunning hactive
  rw [hpublished]

/-- A room is joined with a queue of eight, and a class is added before the consumer polls. -/
def fullQueueInputs : List (DriverInput plainMusic) :=
  [.event (.join "hall" (.ok { roundTable := plainConfig 0 ∅ })) fun _ => [],
    .event (.command .admitted none (.pitchEdit 1 ⟨1,2,4⟩ true)) fun _ => []]

/-- The queue is full when the set is published: the consumer holds the empty set for good, since
the next pass publishes nothing. -/
theorem pitch_set_lost_on_full_queue :
    let driver := (RoomDriver.start 8).run fullQueueInputs
    let later := driver.run [.beside (List.replicate 10 .poll),publishPass fun _ => []]
    driver.active.map (·.forwardedPitchSet) = some ⟨{⟨1,2⟩},∅⟩ ∧
      driver.queue.lastPlaced Egress.pitchSet = some ⟨∅,∅⟩ ∧
      later.active.map (·.replica.soundingPitchSet) = some ⟨{⟨1,2⟩},∅⟩ ∧
      later.queue.drain.heldSet = some ⟨∅,∅⟩ ∧
      ¬ driver.Shadowed := by
  have hforwarded : ((RoomDriver.start 8).run fullQueueInputs).active.map (·.forwardedPitchSet) =
      some ⟨{⟨1,2⟩},∅⟩ := by decide +kernel
  have hplaced : ((RoomDriver.start 8).run fullQueueInputs).queue.lastPlaced Egress.pitchSet =
      some ⟨∅,∅⟩ := by decide +kernel
  refine ⟨hforwarded,hplaced,by decide +kernel,by decide +kernel,fun hshadowed => ?_⟩
  obtain ⟨room,hactive,hset⟩ := Option.map_eq_some_iff.mp hforwarded
  have hlast := (hshadowed room hactive).1
  rw [hplaced,hset] at hlast
  exact absurd hlast (by decide)

end WalkieSongie.Bridge
