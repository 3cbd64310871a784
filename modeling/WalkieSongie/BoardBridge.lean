import WalkieSongie.BleTrust
import WalkieSongie.RoomLeg
set_option autoImplicit false

/-!
The router between the native room and the board session: what one polled event makes it ask, and
the whole bridge step by step.
-/

namespace WalkieSongie.Carrier
open Bridge (LinkState)

variable {T : RealtimeTypes}

section Router

variable {Room Board : Type} {roomLeg : BridgeTransport T Room} {boardLeg : BridgeTransport T Board}

namespace CompositeTransport

/-- An event about another placement than the one in force asks for nothing. -/
def about (router : CompositeTransport T Room Board) (binding : BoardSessionBinding)
    (asked : CarrierLegKind × BridgeCommand T) : Option (CarrierLegKind × BridgeCommand T) :=
  if router.boardBinding = some binding then some asked else none

def asksFor (router : CompositeTransport T Room Board) :
    CarrierLegKind × TransportEvent T → Option (CarrierLegKind × BridgeCommand T)
  | (.room,.roomLink .ready) =>
    router.boardBinding.map fun binding => (.room,.prepareBoardProvisioning binding)
  | (.room,.roomSelected _) =>
    if router.roomReady ∧ router.boardBinding ≠ none then
      router.boardBinding.map fun binding => (.room,.prepareBoardProvisioning binding)
    else none
  | (.room,.boardCapabilityBundlePrepared binding bundle) =>
    router.about binding (.board,.sendBoardCapabilityBundle binding bundle)
  | (.room,.boardRepairOutbound binding frame) =>
    router.about binding (.board,.sendBoardRepairFrame binding frame)
  | (.room,.boardRepairTerminal binding) =>
    router.about binding (.board,.finishBoardRepair binding)
  | (.room,.boardRepairFailed binding _) =>
    router.about binding (.board,.abortBoardRepair binding)
  | (.room,.boardRepairSynchronized binding) =>
    router.about binding.value (.board,.completeBoardRepair binding)
  | (.board,.boardProvisioningRequired binding) =>
    if router.roomReady then some (.room,.prepareBoardProvisioning binding) else none
  | (.board,.boardProvisioned binding) =>
    router.about binding (.room,.startBoardRepair binding)
  | (.board,.boardRepairInbound binding frame) =>
    router.about binding (.room,.observeBoardRepairFrame binding frame)
  | (.board,.boardRepairCarrierClosed binding) =>
    router.about binding (.room,.confirmBoardRepairClose binding)
  | (.board,.boardLink link) =>
    if link = .ready ∨ link = .repairing then none
    else router.boardBinding.map fun binding => (.room,.abortBoardRepair binding)
  | _ => none

/-- What holds of the legs while an event is in the router's hand, and what holds once the event is
answered. -/
structure Answers (roomLeg : BridgeTransport T Room) (boardLeg : BridgeTransport T Board)
    (router : CompositeTransport T Room Board) (polled : CarrierLegKind × TransportEvent T)
    (P : Room → Board → Prop) : Prop where
  rest : P router.room router.board
  room : ∀ command, router.asksFor polled = some (.room,command) →
    P (stateAfter (roomLeg.handleCommand command router.room)) router.board
  board : ∀ command, router.asksFor polled = some (.board,command) →
    P router.room (stateAfter (boardLeg.handleCommand command router.board))
  abortRoom : ∀ binding room board, P room board →
    P (stateAfter (roomLeg.handleCommand (.abortBoardRepair binding) room)) board
  abortBoard : ∀ binding room board, P room board →
    P room (stateAfter (boardLeg.handleCommand (.abortBoardRepair binding) board))
  playRoom : ∀ midi room board, P room board →
    P (stateAfter (roomLeg.sendRealtime midi room)) board
  playBoard : ∀ midi room board, P room board →
    P room (stateAfter (boardLeg.sendRealtime midi board))

section Answered

variable {router : CompositeTransport T Room Board} {P : Room → Board → Prop}
  {routing : Option (CarrierLegKind × TransportEvent T)}
  {polled : CarrierLegKind × TransportEvent T}
  {command : BridgeCommand T} {binding : BoardSessionBinding}

theorem askRoom_legs (roomLeg : BridgeTransport T Room)
    (routing : Option (CarrierLegKind × TransportEvent T)) (command : BridgeCommand T)
    (router : CompositeTransport T Room Board) :
    (router.askRoom roomLeg routing command).2.room =
      stateAfter (roomLeg.handleCommand command router.room) ∧
    (router.askRoom roomLeg routing command).2.board = router.board := by
  unfold askRoom
  cases roomLeg.handleCommand command router.room <;> exact ⟨rfl,rfl⟩

theorem askBoard_legs (boardLeg : BridgeTransport T Board)
    (routing : Option (CarrierLegKind × TransportEvent T)) (command : BridgeCommand T)
    (router : CompositeTransport T Room Board) :
    (router.askBoard boardLeg routing command).2.board =
      stateAfter (boardLeg.handleCommand command router.board) ∧
    (router.askBoard boardLeg routing command).2.room = router.room := by
  unfold askBoard
  cases boardLeg.handleCommand command router.board <;> exact ⟨rfl,rfl⟩

theorem diagnostic_legs (leg : String) (error : BridgeError)
    (router : CompositeTransport T Room Board) :
    (router.diagnostic leg error).room = router.room ∧
    (router.diagnostic leg error).board = router.board := by
  cases error <;> exact ⟨rfl,rfl⟩

def Holds (P : Room → Board → Prop) (router : CompositeTransport T Room Board) : Prop :=
  P router.room router.board

theorem Holds.diagnostic (h : Holds P router) (leg : String) (error : BridgeError) :
    Holds P (router.diagnostic leg error) := by
  obtain ⟨hroom,hboard⟩ := diagnostic_legs leg error router
  rw [Holds,hroom,hboard]
  exact h

theorem Holds.askRoom (routing : Option (CarrierLegKind × TransportEvent T))
    (h : P (stateAfter (roomLeg.handleCommand command router.room)) router.board) :
    Holds P (router.askRoom roomLeg routing command).2 := by
  obtain ⟨hroom,hboard⟩ := askRoom_legs roomLeg routing command router
  rw [Holds,hroom,hboard]
  exact h

theorem Holds.askBoard (routing : Option (CarrierLegKind × TransportEvent T))
    (h : P router.room (stateAfter (boardLeg.handleCommand command router.board))) :
    Holds P (router.askBoard boardLeg routing command).2 := by
  obtain ⟨hboard,hroom⟩ := askBoard_legs boardLeg routing command router
  rw [Holds,hroom,hboard]
  exact h

theorem Holds.relayToBoard (h : Holds P router) {routing : CarrierLegKind × TransportEvent T}
    {failed : BridgeError → CompositeTransport T Room Board → CompositeTransport T Room Board}
    (hasked : router.boardBinding = some binding →
      P router.room (stateAfter (boardLeg.handleCommand command router.board)))
    (hfailed : ∀ error router, Holds P router → Holds P (failed error router)) :
    Holds P (router.relayToBoard boardLeg routing binding command failed) := by
  unfold CompositeTransport.relayToBoard
  split
  · rename_i hbinding
    have hafter := Holds.askBoard (some routing) (hasked hbinding)
    split
    · rename_i heq
      rwa [heq] at hafter
    · rename_i heq
      rw [heq] at hafter
      exact hfailed _ _ hafter
  · exact h

theorem Holds.relayToRoom (h : Holds P router) {routing : CarrierLegKind × TransportEvent T}
    {failed : BridgeError → CompositeTransport T Room Board → CompositeTransport T Room Board}
    (hasked : router.boardBinding = some binding →
      P (stateAfter (roomLeg.handleCommand command router.room)) router.board)
    (hfailed : ∀ error router, Holds P router → Holds P (failed error router)) :
    Holds P (router.relayToRoom roomLeg routing binding command failed) := by
  unfold CompositeTransport.relayToRoom
  split
  · rename_i hbinding
    have hafter := Holds.askRoom (some routing) (hasked hbinding)
    split
    · rename_i heq
      rwa [heq] at hafter
    · rename_i heq
      rw [heq] at hafter
      exact hfailed _ _ hafter
  · exact h

theorem Holds.request (h : Holds P router) {routing : CarrierLegKind × TransportEvent T}
    (hasked : ∀ binding, router.boardBinding = some binding → router.roomReady = true →
      P (stateAfter (roomLeg.handleCommand (.prepareBoardProvisioning binding) router.room))
        router.board) :
    Holds P (router.requestBoardProvisioning roomLeg routing) := by
  unfold CompositeTransport.requestBoardProvisioning
  split
  · exact h
  · rename_i binding hbinding
    split
    · exact h
    · rename_i hready
      simp only [not_or,Bool.not_eq_false] at hready
      have hafter := Holds.askRoom (some routing) (hasked binding hbinding hready.1)
      split
      · rename_i heq
        rw [heq] at hafter
        exact hafter
      · rename_i heq
        rw [heq] at hafter
        exact hafter.diagnostic _ _

end Answered

section Route

variable {router : CompositeTransport T Room Board} {P : Room → Board → Prop}
  {polled : CarrierLegKind × TransportEvent T}

theorem Answers.fence (h : Answers roomLeg boardLeg router polled P)
    {other : CompositeTransport T Room Board} (hother : Holds P other)
    (routing : CarrierLegKind × TransportEvent T) (binding : BoardSessionBinding) (leg : String)
    (error : BridgeError) :
    Holds P (other.fenceBoardRepair roomLeg boardLeg routing binding leg error) := by
  unfold fenceBoardRepair
  split
  · exact hother
  · have hroom : Holds P (other.askRoom roomLeg (some routing) (.abortBoardRepair binding)).2 :=
      Holds.askRoom _ (h.abortRoom _ _ _ hother)
    exact (Holds.askBoard _ (h.abortBoard _ _ _ hroom)).diagnostic _ _

theorem Answers.routeRoomEvent {event : TransportEvent T}
    (h : Answers roomLeg boardLeg router (.room,event) P) :
    Holds P (router.routeRoomEvent roomLeg boardLeg event).2 := by
  have hrest : Holds P router := h.rest
  unfold CompositeTransport.routeRoomEvent
  cases event with
  | roomLink link =>
    cases link with
    | ready =>
      refine Holds.request ?_ fun binding hbinding _ => h.room _ ?_
      · exact hrest
      · have hheld : router.boardBinding = some binding := hbinding
        simp [asksFor,hheld]
    | _ => exact hrest
  | roomSelected name =>
    refine Holds.request ?_ fun binding hbinding hready => h.room _ ?_
    · exact hrest
    · have hheld : router.boardBinding = some binding := hbinding
      have hopen : router.roomReady = true := hready
      simp [asksFor,hheld,hopen]
  | boardCapabilityBundlePrepared binding bundle =>
    refine Holds.relayToBoard hrest (fun hbinding => h.board _ ?_) fun error other hother => ?_
    · simp [asksFor,about,hbinding]
    · have hfree : Holds P { other with provisioningRequested := none } := hother
      exact hfree.diagnostic _ _
  | boardProvisioningFailed binding reason =>
    dsimp only
    split <;> exact hrest
  | boardRepairOutbound binding frame =>
    refine Holds.relayToBoard hrest (fun hbinding => h.board _ ?_) fun error other hother => ?_
    · simp [asksFor,about,hbinding]
    · exact h.fence hother _ _ _ _
  | boardRepairTerminal binding =>
    refine Holds.relayToBoard hrest (fun hbinding => h.board _ ?_) fun error other hother => ?_
    · simp [asksFor,about,hbinding]
    · exact h.fence hother _ _ _ _
  | boardRepairFailed binding reason =>
    refine Holds.relayToBoard hrest (fun hbinding => h.board _ ?_) fun error other hother => ?_
    · simp [asksFor,about,hbinding]
    · exact hother.diagnostic _ _
  | boardRepairSynchronized binding =>
    refine Holds.relayToBoard hrest (fun hbinding => h.board _ ?_) fun error other hother => ?_
    · simp [asksFor,about,hbinding]
    · exact h.fence hother _ _ _ _
  | midi midi =>
    have hplayed := h.playBoard midi _ _ hrest
    dsimp only
    split
    · rename_i heq
      rw [heq] at hplayed
      exact hplayed
    · rename_i error board heq
      rw [heq] at hplayed
      have hafter : Holds P { router with board } := hplayed
      exact hafter.diagnostic _ _
  | _ => exact hrest

theorem Answers.routeBoardEvent {event : TransportEvent T}
    (h : Answers roomLeg boardLeg router (.board,event) P) :
    Holds P (router.routeBoardEvent roomLeg boardLeg event).2 := by
  have hrest : Holds P router := h.rest
  unfold CompositeTransport.routeBoardEvent
  cases event with
  | boardProvisioningRequired binding =>
    refine Holds.request ?_ fun other hother hready => h.room _ ?_
    · exact hrest
    · have hsame : binding = other := by simpa using hother
      have hopen : router.roomReady = true := hready
      simp [asksFor,hsame,hopen]
  | boardProvisioned binding =>
    dsimp only
    split
    · exact hrest.diagnostic _ _
    · refine Holds.relayToRoom hrest (fun hbinding => h.room _ ?_) fun error other hother => ?_
      · simp [asksFor,about,hbinding]
      · exact h.fence hother _ _ _ _
  | boardRepairInbound binding frame =>
    refine Holds.relayToRoom hrest (fun hbinding => h.room _ ?_) fun error other hother => ?_
    · simp [asksFor,about,hbinding]
    · exact h.fence hother _ _ _ _
  | boardRepairCarrierClosed binding =>
    refine Holds.relayToRoom hrest (fun hbinding => h.room _ ?_) fun error other hother => ?_
    · simp [asksFor,about,hbinding]
    · exact h.fence hother _ _ _ _
  | boardLink link =>
    dsimp only
    split
    · exact hrest
    · rename_i hlost
      unfold clearBinding
      cases hbinding : router.boardBinding with
      | none => exact hrest
      | some binding =>
        have hasked := Holds.askRoom (some (.board,.boardLink link))
          (h.room (.abortBoardRepair binding) (by simp [asksFor,hlost,hbinding]))
        dsimp only
        split
        · rename_i heq
          rw [heq] at hasked
          exact hasked
        · rename_i heq
          rw [heq] at hasked
          exact hasked.diagnostic _ _
  | midi midi =>
    have hplayed := h.playRoom midi _ _ hrest
    dsimp only
    split
    · rename_i heq
      rw [heq] at hplayed
      exact hplayed
    · rename_i error room heq
      rw [heq] at hplayed
      have hafter : Holds P { router with room } := hplayed
      exact hafter.diagnostic _ _
  | _ => exact hrest

end Route

/-- The router has taken an event of a leg, and answers it next. -/
def heard (router : CompositeTransport T Room Board) (polled : CarrierLegKind × TransportEvent T) :
    CompositeTransport T Room Board :=
  { router with
    pollRoomFirst := !router.pollRoomFirst
    polled := router.polled ++ [polled] }

section Legs

variable (roomLeg : BridgeTransport T Room) (boardLeg : BridgeTransport T Board)
  (router : CompositeTransport T Room Board)

theorem start_legs : (router.start roomLeg boardLeg).room = stateAfter (roomLeg.start router.room) ∧
    (router.start roomLeg boardLeg).board = stateAfter (boardLeg.start router.board) ∧
    (router.start roomLeg boardLeg).boardBinding = router.boardBinding := by
  unfold start
  cases roomLeg.start router.room <;> cases boardLeg.start router.board <;> exact ⟨rfl,rfl,rfl⟩

theorem sendRealtime_legs (midi : T.Midi) :
    (router.sendRealtime roomLeg boardLeg midi).2.room =
      stateAfter (roomLeg.sendRealtime midi router.room) ∧
    (router.sendRealtime roomLeg boardLeg midi).2.board =
      stateAfter (boardLeg.sendRealtime midi router.board) ∧
    (router.sendRealtime roomLeg boardLeg midi).2.boardBinding = router.boardBinding := by
  unfold sendRealtime
  cases roomLeg.sendRealtime midi router.room with
  | ok done room => cases boardLeg.sendRealtime midi router.board <;> exact ⟨rfl,rfl,rfl⟩
  | error roomError room =>
    cases boardLeg.sendRealtime midi router.board <;> cases roomError <;> exact ⟨rfl,rfl,rfl⟩

end Legs

section Poll

variable {router middle : CompositeTransport T Room Board} {P : Room → Board → Prop}

/-- A poll answers at most one event of a leg. -/
theorem Holds.poll (h : Holds P router)
    (hnone : router.pollLegs roomLeg boardLeg = (none,middle) → Holds P middle)
    (hsome : router.pending = [] → ∀ polled,
      router.pollLegs roomLeg boardLeg = (some polled,middle) →
        Answers roomLeg boardLeg (middle.heard polled) polled P)
    (hmiddle : middle = (router.pollLegs roomLeg boardLeg).2) :
    Holds P (router.pollEvent roomLeg boardLeg).2 := by
  unfold CompositeTransport.pollEvent
  split
  · exact h
  · rename_i hpending
    subst hmiddle
    split
    · rename_i after heq
      have hafter := hnone (by rw [heq])
      rwa [heq] at hafter
    · rename_i polled after heq
      have hafter := hsome hpending polled (by rw [heq])
      rw [heq] at hafter
      obtain ⟨leg,event⟩ := polled
      cases leg with
      | room => exact hafter.routeRoomEvent
      | board => exact hafter.routeBoardEvent

theorem pollLegs_room {event : TransportEvent T}
    (h : router.pollLegs roomLeg boardLeg = (some (.room,event),middle)) :
    roomLeg.pollEvent router.room = (some event,middle.room) ∧
      (middle.board = router.board ∨ boardLeg.pollEvent router.board = (none,middle.board)) ∧
      middle.roomReady = router.roomReady ∧ middle.boardBinding = router.boardBinding := by
  unfold pollLegs at h
  split at h
  · split at h
    · rename_i heq
      cases h
      exact ⟨heq,.inl rfl,rfl,rfl⟩
    · simp at h
  · split at h
    · simp at h
    · rename_i board heq
      cases hpoll : roomLeg.pollEvent router.room with
      | mk polled room =>
        rw [hpoll] at h
        cases polled with
        | none => simp at h
        | some found =>
          simp only [Option.map_some,Prod.mk.injEq,Option.some.injEq,true_and] at h
          obtain ⟨rfl,rfl⟩ := h
          exact ⟨rfl,.inr heq,rfl,rfl⟩

theorem pollLegs_board {event : TransportEvent T}
    (h : router.pollLegs roomLeg boardLeg = (some (.board,event),middle)) :
    boardLeg.pollEvent router.board = (some event,middle.board) ∧
      (middle.room = router.room ∨ roomLeg.pollEvent router.room = (none,middle.room)) ∧
      middle.roomReady = router.roomReady ∧ middle.boardBinding = router.boardBinding := by
  unfold pollLegs at h
  split at h
  · split at h
    · simp at h
    · rename_i room heq
      cases hpoll : boardLeg.pollEvent router.board with
      | mk polled board =>
        rw [hpoll] at h
        cases polled with
        | none => simp at h
        | some found =>
          simp only [Option.map_some,Prod.mk.injEq,Option.some.injEq,true_and] at h
          obtain ⟨rfl,rfl⟩ := h
          exact ⟨rfl,.inr heq,rfl,rfl⟩
  · split at h
    · rename_i heq
      cases h
      exact ⟨heq,.inl rfl,rfl,rfl⟩
    · simp at h

theorem pollLegs_none (h : router.pollLegs roomLeg boardLeg = (none,middle)) :
    roomLeg.pollEvent router.room = (none,middle.room) ∧
      boardLeg.pollEvent router.board = (none,middle.board) := by
  unfold pollLegs at h
  split at h
  · split at h
    · simp at h
    · rename_i room heq
      cases hpoll : boardLeg.pollEvent router.board with
      | mk polled board =>
        rw [hpoll] at h
        cases polled with
        | none =>
          simp only [Option.map_none,Prod.mk.injEq,true_and] at h
          subst h
          exact ⟨heq,rfl⟩
        | some found => simp at h
  · split at h
    · simp at h
    · rename_i board heq
      cases hpoll : roomLeg.pollEvent router.room with
      | mk polled room =>
        rw [hpoll] at h
        cases polled with
        | none =>
          simp only [Option.map_none,Prod.mk.injEq,true_and] at h
          subst h
          exact ⟨rfl,heq⟩
        | some found => simp at h

end Poll

end CompositeTransport

end Router

section Bridge

variable {L : BleLibrary T}

/-- What the application, the driver's thread, the room and the board do with the bridge. -/
inductive BridgeStep (L : BleLibrary T) where
  | start
  | command (command : BridgeCommand T)
  | realtime (midi : T.Midi)
  | poll
  | drive (answers : DriverAnswers T)
  | lose
  | observe (notices : List (RoomNotice T))
  | emit
  | shutdown
  | hostMoves (host : L.Host)
  | clock (now : Nat)

variable (L) in
/-- The router between the native room and the board session. -/
abbrev BoardBridge := CompositeTransport T (RoomLeg T) (BleLink L)

variable (toMidi : T.Midi → Except String T.Midi)

namespace BoardBridge

/-- The router over a room's driver and a board session, before anything happened. -/
def new (identitySeed : Digest) (link : BleLink L) : BoardBridge L :=
  { room := { identitySeed }, board := link }

def step (bridge : BoardBridge L) : BridgeStep L → BoardBridge L
  | .start => bridge.start (roomLeg toMidi) (boardLeg L)
  | .command command => (bridge.handleCommand (roomLeg toMidi) (boardLeg L) command).2
  | .realtime midi => (bridge.sendRealtime (roomLeg toMidi) (boardLeg L) midi).2
  | .poll => (bridge.pollEvent (roomLeg toMidi) (boardLeg L)).2
  | .drive answers => { bridge with room := bridge.room.drive answers }
  | .lose => { bridge with room := bridge.room.lose }
  | .observe notices => { bridge with room := bridge.room.observe notices }
  | .emit => { bridge with room := bridge.room.emit }
  | .shutdown => bridge.shutdown (roomLeg toMidi) (boardLeg L)
  | .hostMoves host => { bridge with board := { bridge.board with host } }
  | .clock now => { bridge with board := { bridge.board with now } }

def run (bridge : BoardBridge L) (steps : List (BridgeStep L)) : BoardBridge L :=
  steps.foldl (step toMidi) bridge

end BoardBridge

end Bridge

end WalkieSongie.Carrier
