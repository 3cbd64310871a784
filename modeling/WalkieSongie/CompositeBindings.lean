import WalkieSongie.Composite
set_option autoImplicit false

/-!
What the router asks of a leg while it routes an event is about the placement in force; what it
passes on for the application is not checked.
-/

namespace WalkieSongie.Carrier
open Bridge (LinkState)

variable {T : RealtimeTypes} {Room Board : Type} {roomLeg : BridgeTransport T Room}
  {boardLeg : BridgeTransport T Board} {router router' : CompositeTransport T Room Board}
  {routing : CarrierLegKind × TransportEvent T} {binding : BoardSessionBinding}

/-- What an event of a leg leaves of the placement in force. -/
def bindingAfter (inForce : Option BoardSessionBinding) :
    CarrierLegKind × TransportEvent T → Option BoardSessionBinding
  | (.board,.boardProvisioningRequired binding) => some binding
  | (.board,.boardLink link) => if link = .ready ∨ link = .repairing then inForce else none
  | _ => inForce

/-- The placement that was announced last and that no link state has cleared since. -/
def inForce (polled : List (CarrierLegKind × TransportEvent T)) : Option BoardSessionBinding :=
  polled.foldl bindingAfter none

theorem inForce_concat (polled : List (CarrierLegKind × TransportEvent T))
    (event : CarrierLegKind × TransportEvent T) :
    inForce (polled ++ [event]) = bindingAfter (inForce polled) event := by
  simp [inForce]

/-- A command about a placement has its binding in force when the event it is asked for is routed,
or announced by that event; and where the event has a binding of its own, it is the same. -/
def Asked.Fenced (asked : Asked T) : Prop :=
  ∀ routing ∈ asked.routing, ∀ binding ∈ asked.command.binding,
    (∃ before, asked.polled = before ++ [routing] ∧ (inForce before = some binding ∨
      routing = (.board,.boardProvisioningRequired binding))) ∧
    ∀ own ∈ routing.2.binding, own = binding

/-- While it routes an event, the router asks for nothing but what is about its binding. -/
structure Asks (routing : CarrierLegKind × TransportEvent T)
    (router router' : CompositeTransport T Room Board) : Prop where
  polled : router'.polled = router.polled
  binding : router'.boardBinding = router.boardBinding
  asked : ∃ more, router'.asked = router.asked ++ more ∧ ∀ asked ∈ more,
    asked.polled = router.polled ∧ asked.routing = some routing ∧
      ∀ binding ∈ asked.command.binding, router.boardBinding = some binding ∧
        ∀ own ∈ routing.2.binding, own = binding

namespace Asks

theorem refl (routing : CarrierLegKind × TransportEvent T)
    (router : CompositeTransport T Room Board) : Asks routing router router :=
  ⟨rfl,rfl,[],by simp,by simp⟩

theorem same (hpolled : router'.polled = router.polled)
    (hbinding : router'.boardBinding = router.boardBinding)
    (hasked : router'.asked = router.asked) : Asks routing router router' :=
  ⟨hpolled,hbinding,[],by simpa using hasked,by simp⟩

theorem trans {router'' : CompositeTransport T Room Board} (h : Asks routing router router')
    (h' : Asks routing router' router'') : Asks routing router router'' := by
  obtain ⟨more,hmore,hfirst⟩ := h.asked
  obtain ⟨rest,hrest,hsecond⟩ := h'.asked
  have hjoined : router''.asked = router.asked ++ (more ++ rest) := by
    simp [hrest,hmore]
  refine ⟨h'.polled.trans h.polled,h'.binding.trans h.binding,more ++ rest,hjoined,?_⟩
  intro asked hasked
  cases List.mem_append.mp hasked with
  | inl hmem => exact hfirst asked hmem
  | inr hmem =>
    have hlater := hsecond asked hmem
    rwa [h.polled,h.binding] at hlater

theorem diagnostic (leg : String) (error : BridgeError) :
    Asks routing router (router.diagnostic leg error) := by
  cases error with
  | unavailable reason => exact refl routing router
  | queueFull queue => exact .same rfl rfl rfl
  | transport reason => exact .same rfl rfl rfl

theorem askRoom (roomLeg : BridgeTransport T Room) {command : BridgeCommand T}
    (hbinding : router.boardBinding = some binding)
    (hcommand : command.binding = some binding) (hown : ∀ own ∈ routing.2.binding, own = binding) :
    Asks routing router (router.askRoom roomLeg (some routing) command).2 := by
  unfold CompositeTransport.askRoom
  cases roomLeg.handleCommand command router.room with
  | ok done room =>
    exact ⟨rfl,rfl,_,rfl,by simpa [hcommand,hbinding] using hown⟩
  | error error room =>
    exact ⟨rfl,rfl,_,rfl,by simpa [hcommand,hbinding] using hown⟩

theorem askBoard (boardLeg : BridgeTransport T Board) {command : BridgeCommand T}
    (hbinding : router.boardBinding = some binding)
    (hcommand : command.binding = some binding) (hown : ∀ own ∈ routing.2.binding, own = binding) :
    Asks routing router (router.askBoard boardLeg (some routing) command).2 := by
  unfold CompositeTransport.askBoard
  cases boardLeg.handleCommand command router.board with
  | ok done board =>
    exact ⟨rfl,rfl,_,rfl,by simpa [hcommand,hbinding] using hown⟩
  | error error board =>
    exact ⟨rfl,rfl,_,rfl,by simpa [hcommand,hbinding] using hown⟩

theorem fence (leg : String) (error : BridgeError)
    (hown : ∀ own ∈ routing.2.binding, own = binding) :
    Asks routing router
      (router.fenceBoardRepair roomLeg boardLeg routing binding leg error) := by
  unfold CompositeTransport.fenceBoardRepair
  by_cases hbinding : router.boardBinding = some binding
  · rw [if_neg (by simpa using hbinding)]
    have hroom : Asks routing router
        (router.askRoom roomLeg (some routing) (.abortBoardRepair binding)).2 :=
      askRoom roomLeg hbinding rfl hown
    have hboard := askBoard boardLeg (hroom.binding.trans hbinding)
      (rfl : (BridgeCommand.abortBoardRepair binding : BridgeCommand T).binding = some binding) hown
    exact (hroom.trans hboard).trans (diagnostic leg error)
  · rw [if_pos hbinding]
    exact refl routing router

theorem request (hown : ∀ own ∈ routing.2.binding, router.boardBinding = some own) :
    Asks routing router (router.requestBoardProvisioning roomLeg routing) := by
  unfold CompositeTransport.requestBoardProvisioning
  cases hbinding : router.boardBinding with
  | none => exact refl routing router
  | some binding =>
    have hsame : ∀ own ∈ routing.2.binding, own = binding := by
      intro own hmem
      simpa [hbinding,eq_comm] using hown own hmem
    have hasked := askRoom roomLeg hbinding
      (rfl : (BridgeCommand.prepareBoardProvisioning binding : BridgeCommand T).binding =
        some binding) hsame
    simp only
    split
    · exact refl routing router
    · split
      · rename_i heq
        rw [heq] at hasked
        exact hasked.trans (.same rfl rfl rfl)
      · rename_i heq
        rw [heq] at hasked
        exact hasked.trans (diagnostic _ _)

section Relay

variable {command : BridgeCommand T}
  {failed : BridgeError → CompositeTransport T Room Board → CompositeTransport T Room Board}

theorem relayToBoard (hcommand : command.binding = some binding)
    (hown : ∀ own ∈ routing.2.binding, own = binding)
    (hfailed : ∀ error router, Asks routing router (failed error router)) :
    Asks routing router (router.relayToBoard boardLeg routing binding command failed) := by
  unfold CompositeTransport.relayToBoard
  split
  · rename_i hbinding
    have hasked := askBoard boardLeg hbinding hcommand hown
    split
    · rename_i heq
      rwa [heq] at hasked
    · rename_i heq
      rw [heq] at hasked
      exact hasked.trans (hfailed _ _)
  · exact refl routing router

theorem relayToRoom (hcommand : command.binding = some binding)
    (hown : ∀ own ∈ routing.2.binding, own = binding)
    (hfailed : ∀ error router, Asks routing router (failed error router)) :
    Asks routing router (router.relayToRoom roomLeg routing binding command failed) := by
  unfold CompositeTransport.relayToRoom
  split
  · rename_i hbinding
    have hasked := askRoom roomLeg hbinding hcommand hown
    split
    · rename_i heq
      rwa [heq] at hasked
    · rename_i heq
      rw [heq] at hasked
      exact hasked.trans (hfailed _ _)
  · exact refl routing router

end Relay

theorem after (hpolled : router'.polled = router.polled)
    (hbinding : router'.boardBinding = router.boardBinding)
    (hasked : router'.asked = router.asked) {router'' : CompositeTransport T Room Board}
    (h : Asks routing router' router'') : Asks routing router router'' :=
  (Asks.same hpolled hbinding hasked).trans h

theorem routeRoomEvent (event : TransportEvent T) :
    Asks (.room,event) router (router.routeRoomEvent roomLeg boardLeg event).2 := by
  have hfence : ∀ own, event.binding = some own → ∀ leg error
      (router : CompositeTransport T Room Board), Asks (.room,event) router
        (router.fenceBoardRepair roomLeg boardLeg (.room,event) own leg error) :=
    fun own hevent leg error router => fence leg error (by simp [hevent])
  unfold CompositeTransport.routeRoomEvent
  cases event with
  | roomLink link =>
    cases link with
    | ready =>
      refine after ?_ ?_ ?_ (request ?_) <;> simp [TransportEvent.binding]
    | _ => exact .same rfl rfl rfl
  | roomSelected name =>
    refine after ?_ ?_ ?_ (request ?_) <;> simp [TransportEvent.binding]
  | boardCapabilityBundlePrepared binding bundle =>
    refine relayToBoard rfl (by simp [TransportEvent.binding]) fun error router => ?_
    refine after ?_ ?_ ?_ (diagnostic _ _) <;> rfl
  | boardProvisioningFailed binding reason =>
    simp only
    split
    · exact .same rfl rfl rfl
    · exact refl _ _
  | boardRepairOutbound binding frame =>
    exact relayToBoard rfl (by simp [TransportEvent.binding]) (hfence binding rfl _)
  | boardRepairTerminal binding =>
    exact relayToBoard rfl (by simp [TransportEvent.binding]) (hfence binding rfl _)
  | boardRepairFailed binding reason =>
    exact relayToBoard rfl (by simp [TransportEvent.binding]) fun error router => diagnostic _ _
  | boardRepairSynchronized binding =>
    exact relayToBoard rfl (by simp [TransportEvent.binding]) (hfence binding.value rfl _)
  | midi midi =>
    simp only
    split
    · exact .same rfl rfl rfl
    · refine after ?_ ?_ ?_ (diagnostic _ _) <;> rfl
  | _ => exact refl _ _

theorem routeBoardEvent {event : TransportEvent T}
    (hkeeps : ∀ inForce, bindingAfter inForce (.board,event) = inForce) :
    Asks (.board,event) router (router.routeBoardEvent roomLeg boardLeg event).2 := by
  have hfence : ∀ own, event.binding = some own → ∀ leg error
      (router : CompositeTransport T Room Board), Asks (.board,event) router
        (router.fenceBoardRepair roomLeg boardLeg (.board,event) own leg error) :=
    fun own hevent leg error router => fence leg error (by simp [hevent])
  unfold CompositeTransport.routeBoardEvent
  cases event with
  | boardProvisioningRequired binding =>
    have hnone := hkeeps none
    simp [bindingAfter] at hnone
  | boardProvisioned binding =>
    simp only
    split
    · exact diagnostic _ _
    · exact relayToRoom rfl (by simp [TransportEvent.binding]) (hfence binding rfl _)
  | boardRepairInbound binding frame =>
    exact relayToRoom rfl (by simp [TransportEvent.binding]) (hfence binding rfl _)
  | boardRepairCarrierClosed binding =>
    exact relayToRoom rfl (by simp [TransportEvent.binding]) (hfence binding rfl _)
  | boardLink link =>
    have hlink : link = .ready ∨ link = .repairing := by
      by_contra hclears
      have hsome := hkeeps (some ⟨0,0,0⟩)
      simp [bindingAfter,hclears] at hsome
    simp only [hlink,if_true]
    exact refl _ _
  | midi midi =>
    simp only
    split
    · exact .same rfl rfl rfl
    · refine after ?_ ?_ ?_ (diagnostic _ _) <;> rfl
  | _ => exact refl _ _

end Asks

/-- The router took an event of a leg: what it asked is about the placement that was in force, or
that the event announces. -/
structure Routed (routing : CarrierLegKind × TransportEvent T)
    (router router' : CompositeTransport T Room Board) : Prop where
  polled : router'.polled = router.polled
  binding : router'.boardBinding = bindingAfter router.boardBinding routing
  asked : ∃ more, router'.asked = router.asked ++ more ∧ ∀ asked ∈ more,
    asked.polled = router.polled ∧ asked.routing = some routing ∧
      ∀ binding ∈ asked.command.binding, (router.boardBinding = some binding ∨
        routing = (.board,.boardProvisioningRequired binding)) ∧
          ∀ own ∈ routing.2.binding, own = binding

namespace Routed

theorem of_asks {middle : CompositeTransport T Room Board} (h : Asks routing router middle)
    (hpolled : router'.polled = middle.polled) (hasked : router'.asked = middle.asked)
    (hbinding : router'.boardBinding = bindingAfter router.boardBinding routing) :
    Routed routing router router' := by
  obtain ⟨more,hmore,hfenced⟩ := h.asked
  refine ⟨hpolled.trans h.polled,hbinding,more,hasked.trans hmore,fun asked hmem => ?_⟩
  obtain ⟨hbefore,hrouting,hcommand⟩ := hfenced asked hmem
  refine ⟨hbefore,hrouting,fun binding hown => ?_⟩
  have hheld := hcommand binding hown
  exact ⟨.inl hheld.1,hheld.2⟩

theorem of_kept (hkeeps : bindingAfter router.boardBinding routing = router.boardBinding)
    (h : Asks routing router router') : Routed routing router router' :=
  of_asks h rfl rfl (h.binding.trans hkeeps.symm)

theorem room (roomLeg : BridgeTransport T Room) (boardLeg : BridgeTransport T Board)
    (router : CompositeTransport T Room Board) (event : TransportEvent T) :
    Routed (.room,event) router (router.routeRoomEvent roomLeg boardLeg event).2 :=
  of_kept rfl (Asks.routeRoomEvent event)

theorem required (binding : BoardSessionBinding) :
    Routed (.board,.boardProvisioningRequired binding) router
      (router.routeBoardEvent roomLeg boardLeg (.boardProvisioningRequired binding)).2 := by
  have h : Asks (.board,.boardProvisioningRequired binding)
      { router with boardBinding := some binding, provisioningRequested := none }
      (router.routeBoardEvent roomLeg boardLeg (.boardProvisioningRequired binding)).2 :=
    Asks.request (by simp [TransportEvent.binding])
  obtain ⟨more,hmore,hasked⟩ := h.asked
  refine ⟨h.polled,h.binding,more,hmore,fun asked hmem => ?_⟩
  obtain ⟨hpolled,hrouting,hbinding⟩ := hasked asked hmem
  refine ⟨hpolled,hrouting,fun command hcommand => ?_⟩
  obtain ⟨hheld,hown⟩ := hbinding command hcommand
  have hsame : binding = command := by simpa using hheld
  exact ⟨.inr (by rw [hsame]),hown⟩

theorem cleared {link : LinkState} (hlink : ¬ (link = .ready ∨ link = .repairing)) :
    Routed (.board,.boardLink link) router
      (router.routeBoardEvent roomLeg boardLeg (.boardLink link)).2 := by
  simp only [CompositeTransport.routeBoardEvent,if_neg hlink]
  have hafter : bindingAfter router.boardBinding
      (.board,(.boardLink link : TransportEvent T)) = none := by
    simp [bindingAfter,hlink]
  unfold CompositeTransport.clearBinding
  cases hbinding : router.boardBinding with
  | none => exact of_asks (Asks.refl _ router) rfl rfl hafter.symm
  | some binding =>
    have hasked : Asks (.board,.boardLink link) router (router.askRoom roomLeg
        (some (.board,.boardLink link)) (.abortBoardRepair binding)).2 :=
      Asks.askRoom roomLeg hbinding rfl (by simp [TransportEvent.binding])
    simp only
    split
    · rename_i heq
      rw [heq] at hasked
      exact of_asks hasked rfl rfl hafter.symm
    · rename_i failed error middle heq
      rw [heq] at hasked
      have hreported := hasked.trans (Asks.diagnostic "board repair abandonment" error)
      exact of_asks hreported rfl rfl hafter.symm

theorem board (roomLeg : BridgeTransport T Room) (boardLeg : BridgeTransport T Board)
    (router : CompositeTransport T Room Board) (event : TransportEvent T) :
    Routed (.board,event) router (router.routeBoardEvent roomLeg boardLeg event).2 := by
  cases event with
  | boardProvisioningRequired binding => exact required binding
  | boardLink link =>
    by_cases hlink : link = .ready ∨ link = .repairing
    · have hkeeps : ∀ inForce, bindingAfter inForce
          (.board,(.boardLink link : TransportEvent T)) = inForce := by
        simp [bindingAfter,hlink]
      exact of_kept (hkeeps _) (Asks.routeBoardEvent hkeeps)
    · exact cleared hlink
  | _ => exact of_kept rfl (Asks.routeBoardEvent fun _ => rfl)

end Routed

/-- What the application does with the router, and what the world does to the legs. -/
inductive RouterStep (T : RealtimeTypes) (Room Board : Type) where
  | start
  | command (command : BridgeCommand T)
  | realtime (midi : T.Midi)
  | poll
  | roomMoves (room : Room)
  | boardMoves (board : Board)

namespace CompositeTransport

section Run

variable (roomLeg : BridgeTransport T Room) (boardLeg : BridgeTransport T Board)

def step (router : CompositeTransport T Room Board) :
    RouterStep T Room Board → CompositeTransport T Room Board
  | .start => router.start roomLeg boardLeg
  | .command command => (router.handleCommand roomLeg boardLeg command).2
  | .realtime midi => (router.sendRealtime roomLeg boardLeg midi).2
  | .poll => (router.pollEvent roomLeg boardLeg).2
  | .roomMoves room => { router with room }
  | .boardMoves board => { router with board }

def run (steps : List (RouterStep T Room Board)) (router : CompositeTransport T Room Board) :
    CompositeTransport T Room Board :=
  steps.foldl (step roomLeg boardLeg) router

end Run

/-- The router's own binding is the placement in force, what it asked for by itself is about the
placement in force, and the rest was the application's. -/
structure Tracks (steps : List (RouterStep T Room Board))
    (router : CompositeTransport T Room Board) : Prop where
  binding : router.boardBinding = inForce router.polled
  fenced : ∀ asked ∈ router.asked, asked.Fenced ∧
    (asked.routing = none → .command asked.command ∈ steps)

namespace Tracks

variable {steps : List (RouterStep T Room Board)} {next : RouterStep T Room Board}

theorem of_same (h : Tracks steps router) (hpolled : router'.polled = router.polled)
    (hbinding : router'.boardBinding = router.boardBinding)
    (hasked : router'.asked = router.asked) : Tracks (steps ++ [next]) router' := by
  refine ⟨by rw [hbinding,hpolled,h.binding],fun asked hmem => ?_⟩
  rw [hasked] at hmem
  have hfenced := h.fenced asked hmem
  refine ⟨hfenced.1,fun hnone => ?_⟩
  simp [hfenced.2 hnone]

theorem of_routed (h : Tracks steps router)
    (hpolled : router'.polled = router.polled ++ [routing])
    (hbinding : router'.boardBinding = router.boardBinding)
    (hasked : router'.asked = router.asked) {router'' : CompositeTransport T Room Board}
    (hrouted : Routed routing router' router'') : Tracks (steps ++ [next]) router'' := by
  obtain ⟨more,hmore,hnew⟩ := hrouted.asked
  refine ⟨?_,fun asked hmem => ?_⟩
  · rw [hrouted.binding,hrouted.polled,hpolled,inForce_concat,hbinding,h.binding]
  rw [hmore,hasked] at hmem
  cases List.mem_append.mp hmem with
  | inl hold =>
    have hfenced := h.fenced asked hold
    refine ⟨hfenced.1,fun hnone => ?_⟩
    simp [hfenced.2 hnone]
  | inr hfresh =>
    obtain ⟨hbefore,hrouting,hcommand⟩ := hnew asked hfresh
    refine ⟨fun event hevent binding hown => ?_,by simp [hrouting]⟩
    have hsame : routing = event := by simpa [hrouting] using hevent
    subst hsame
    have hheld := hcommand binding hown
    rw [hbinding,h.binding] at hheld
    exact ⟨⟨router.polled,hbefore.trans hpolled,hheld.1⟩,hheld.2⟩

theorem start (h : Tracks steps router) :
    Tracks (steps ++ [.start]) (router.start roomLeg boardLeg) := by
  unfold CompositeTransport.start
  cases roomLeg.start router.room with
  | ok done room =>
    cases boardLeg.start router.board <;> exact h.of_same rfl rfl rfl
  | error roomError room =>
    cases boardLeg.start router.board <;> exact h.of_same rfl rfl rfl

theorem passedOn (h : Tracks steps router) {command : BridgeCommand T} {leg : CarrierLegKind}
    (hpolled : router'.polled = router.polled)
    (hbinding : router'.boardBinding = router.boardBinding)
    (hasked : router'.asked = router.asked ++ [⟨leg,command,router.polled,none⟩]) :
    Tracks (steps ++ [.command command]) router' := by
  refine ⟨by rw [hbinding,hpolled,h.binding],fun asked hmem => ?_⟩
  rw [hasked] at hmem
  cases List.mem_append.mp hmem with
  | inl hold =>
    have hfenced := h.fenced asked hold
    refine ⟨hfenced.1,fun hnone => ?_⟩
    simp [hfenced.2 hnone]
  | inr hlast =>
    have hsame : asked = ⟨leg,command,router.polled,none⟩ := by simpa using hlast
    subst hsame
    exact ⟨by simp [Asked.Fenced],by simp⟩

theorem command (h : Tracks steps router) (command : BridgeCommand T) :
    Tracks (steps ++ [.command command]) (router.handleCommand roomLeg boardLeg command).2 := by
  unfold CompositeTransport.handleCommand
  cases CompositeTransport.legOf command with
  | room =>
    unfold CompositeTransport.askRoom
    cases roomLeg.handleCommand command router.room <;> exact h.passedOn rfl rfl rfl
  | board =>
    unfold CompositeTransport.askBoard
    cases boardLeg.handleCommand command router.board <;> exact h.passedOn rfl rfl rfl

theorem realtime (h : Tracks steps router) (midi : T.Midi) :
    Tracks (steps ++ [.realtime midi]) (router.sendRealtime roomLeg boardLeg midi).2 := by
  unfold CompositeTransport.sendRealtime
  cases roomLeg.sendRealtime midi router.room with
  | ok done room =>
    cases boardLeg.sendRealtime midi router.board <;> exact h.of_same rfl rfl rfl
  | error roomError room =>
    cases boardLeg.sendRealtime midi router.board <;> cases roomError <;>
      exact h.of_same rfl rfl rfl

theorem pollLegs (roomLeg : BridgeTransport T Room) (boardLeg : BridgeTransport T Board)
    (router : CompositeTransport T Room Board) :
    (router.pollLegs roomLeg boardLeg).2.polled = router.polled ∧
    (router.pollLegs roomLeg boardLeg).2.boardBinding = router.boardBinding ∧
    (router.pollLegs roomLeg boardLeg).2.asked = router.asked := by
  unfold CompositeTransport.pollLegs
  split <;> split <;> simp

theorem poll (h : Tracks steps router) :
    Tracks (steps ++ [.poll]) (router.pollEvent roomLeg boardLeg).2 := by
  obtain ⟨hpolled,hbinding,hasked⟩ := pollLegs roomLeg boardLeg router
  unfold CompositeTransport.pollEvent
  split
  · exact h.of_same rfl rfl rfl
  · split
    · rename_i heq
      rw [heq] at hpolled hbinding hasked
      exact h.of_same hpolled hbinding hasked
    · rename_i polled middle heq
      rw [heq] at hpolled hbinding hasked
      obtain ⟨leg,event⟩ := polled
      cases leg with
      | room =>
        refine h.of_routed ?_ ?_ ?_ (Routed.room roomLeg boardLeg _ event)
        · exact congrArg (· ++ [_]) hpolled
        · exact hbinding
        · exact hasked
      | board =>
        refine h.of_routed ?_ ?_ ?_ (Routed.board roomLeg boardLeg _ event)
        · exact congrArg (· ++ [_]) hpolled
        · exact hbinding
        · exact hasked

theorem step (h : Tracks steps router) (next : RouterStep T Room Board) :
    Tracks (steps ++ [next]) (router.step roomLeg boardLeg next) := by
  cases next with
  | start => exact h.start
  | command command => exact h.command command
  | realtime midi => exact h.realtime midi
  | poll => exact h.poll
  | roomMoves room => exact h.of_same rfl rfl rfl
  | boardMoves board => exact h.of_same rfl rfl rfl

theorem run (room : Room) (board : Board) (steps : List (RouterStep T Room Board)) :
    Tracks steps (CompositeTransport.run roomLeg boardLeg steps { room, board }) := by
  induction steps using List.reverseRecOn with
  | nil => exact ⟨rfl,by simp [CompositeTransport.run]⟩
  | append_singleton steps next ih =>
    have hrun : CompositeTransport.run roomLeg boardLeg (steps ++ [next]) { room, board } =
        (CompositeTransport.run roomLeg boardLeg steps { room, board }).step roomLeg boardLeg
          next := by simp [CompositeTransport.run]
    rw [hrun]
    exact ih.step next

end Tracks

end CompositeTransport

section Fenced
open CompositeTransport

theorem routed_commands_fenced (room : Room) (board : Board)
    (steps : List (RouterStep T Room Board)) :
    ∀ asked ∈ (run roomLeg boardLeg steps { room, board }).asked,
      asked.Fenced ∧ (asked.routing = none → .command asked.command ∈ steps) :=
  (Tracks.run room board steps).fenced

/-- A leg that takes everything and reports what it was given to report. -/
def reportingLeg : BridgeTransport plainTypes (List (TransportEvent plainTypes)) where
  start := pure ()
  handleCommand _ := pure ()
  sendRealtime _ := pure ()
  pollEvent events := (events.head?,events.tail)
  shutdown _ := []

def announced : CompositeTransport plainTypes (List (TransportEvent plainTypes))
    (List (TransportEvent plainTypes)) :=
  run reportingLeg reportingLeg [.poll,.poll]
    { room := [TransportEvent.roomLink .ready]
      board := [TransportEvent.boardProvisioningRequired ⟨0,1,1⟩] }

theorem announced_asked : announced.asked =
    [⟨.room,.prepareBoardProvisioning ⟨0,1,1⟩,
      [(.room,.roomLink .ready),(.board,.boardProvisioningRequired ⟨0,1,1⟩)],
      some (.board,.boardProvisioningRequired ⟨0,1,1⟩)⟩] := rfl

theorem routed_commands_fenced_announced :
    ∃ asked ∈ announced.asked, asked.command = .prepareBoardProvisioning ⟨0,1,1⟩ ∧
      asked.Fenced := by
  have hmem := announced_asked ▸ List.mem_singleton_self _
  exact ⟨_,hmem,rfl,(routed_commands_fenced _ _ [.poll,.poll] _ hmem).1⟩

/-- The application asks for a repair before any board is there. -/
theorem application_command_unfenced :
    ¬ ∀ (steps : List (RouterStep plainTypes (List (TransportEvent plainTypes))
        (List (TransportEvent plainTypes)))),
      ∀ asked ∈ (run reportingLeg reportingLeg steps { room := [], board := [] }).asked,
        ∀ binding ∈ asked.command.binding, inForce asked.polled = some binding := by
  intro h
  have hforce := h [.command (.startBoardRepair ⟨0,1,1⟩)]
    ⟨.room,.startBoardRepair ⟨0,1,1⟩,[],none⟩ (by simp [run,step,
      CompositeTransport.handleCommand,legOf,askRoom,reportingLeg,pure,EStateM.pure])
    ⟨0,1,1⟩ rfl
  cases hforce

end Fenced

end WalkieSongie.Carrier
