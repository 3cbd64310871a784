import WalkieSongie.RepairAttempts
set_option autoImplicit false

/-!
What the router's answers and the bridge's steps do to the rounds of a placement, and where two
attempts of the room meet in one attempt of the carrier.
-/

namespace WalkieSongie.Carrier
open TaskProgram
open BleLink

variable {T : RealtimeTypes} {L : BleLibrary T} {binding : BoardSessionBinding}
  {room room' : RoomLeg T} {link board board' : BleLink L} {hand : List (TransportEvent T)}

section Router

variable {leg : RoomLeg T}

/-- What of a round the router hands on with the command. -/
def BridgeCommand.relayed : BridgeCommand T → List (TransportEvent T)
  | .prepareBoardProvisioning binding | .startBoardRepair binding => [.boardProvisioned binding]
  | .sendBoardCapabilityBundle binding bundle => [.boardCapabilityBundlePrepared binding bundle]
  | .sendBoardRepairFrame binding frame => [.boardRepairOutbound binding frame]
  | _ => []

/-- What of a round the router takes with the event. -/
def polledHand : CarrierLegKind × TransportEvent T → List (TransportEvent T)
  | (.room,event) => [event]
  | (.board,.boardProvisioned binding) => [.boardProvisioned binding]
  | _ => []

namespace OneAttempt

theorem commands (h : OneAttempt hand leg board) {command : DriverCommand T}
    (hhand : hand = command.round) :
    OneAttempt [] (stateAfter (RoomLeg.command command leg)) board := by
  unfold RoomLeg.command
  split
  · exact h.drop
  split
  · subst hhand
    refine h.passes ⟨fun binding => ?_,fun _ hattempt => hattempt,fun _ frame hframe =>
      .inl ⟨frame,List.mem_append_right _ hframe,rfl⟩,rfl,rfl,
      fun attempt hattempt => ⟨attempt,hattempt,rfl,rfl⟩⟩ h.starts
    rw [command.tokens_round]
    simp only [stateAfter,RoomLeg.early,RoomLeg.line,List.map_append,List.map_cons,List.map_nil,
      List.sum_append,List.sum_cons,List.sum_nil,tokens_nil]
    omega
  · exact h.drop

theorem edits (h : OneAttempt [] leg board) (token : Nat) {edit : DriverCommand T}
    (hedit : edit.round = []) :
    OneAttempt [] (stateAfter (RoomLeg.editCommand token edit leg)) board := by
  have hasked := h.commands hedit.symm
  refine @RoomLeg.stateAfter_editCommand T (OneAttempt [] · board) leg edit token hasked ?_
  exact fun after queued hafter => hafter.roomEases (.of_same ⟨rfl,rfl,rfl,rfl⟩)

theorem roomHandles (command : BridgeCommand T) (h : OneAttempt command.relayed leg board) :
    OneAttempt [] (stateAfter (RoomLeg.handleCommand command leg)) board := by
  cases command with
  | configureRoomIdentity identitySeed => exact h.commands rfl
  | selectRoom name => exact h.commands rfl
  | leaveRoom => exact h.commands rfl
  | prepareBoardProvisioning binding => exact h.commands rfl
  | startBoardRepair binding => exact (notes h).commands rfl
  | observeBoardRepairFrame binding frame => exact h.commands rfl
  | confirmBoardRepairClose binding => exact h.commands rfl
  | abortBoardRepair binding => exact h.commands rfl
  | publishRoundTable frame => exact h.commands rfl
  | publishBoardEdit token frame settings pitchEdits => exact edits h token rfl
  | setSharedPitch token pitch active => exact edits h token rfl
  | _ => exact h.drop

theorem boardBundle {bundle : Traced Bytes}
    (h : OneAttempt [.boardCapabilityBundlePrepared binding bundle] room board) :
    OneAttempt [] room (stateAfter (sendCapabilityBundle (L := L) binding bundle board)) := by
  have hsent : ∀ {after : BleLink L}, Sent board after → Settles board after := fun hafter =>
    .of_same hafter.events hafter.pendingProvisioning hafter.carried hafter.carriers
      (.inl hafter.repairClose)
  refine Post.stateAfter ((sendCapabilityBundle_spec binding bundle board).mono ?_ ?_)
  · rintro - link' (hafter | ⟨after,digest,hafter,-,hnone,rfl⟩)
    · exact (h.boardSettles (hsent hafter)).drop
    · have hkept := h.boardSettles (hsent hafter)
      refine hkept.passes ⟨fun other => ?_,fun _ hattempt => hattempt,fun _ frame hframe =>
        .inl ⟨frame,List.mem_append_right _ hframe,rfl⟩,rfl,rfl,
        fun attempt hattempt => ⟨attempt,hattempt,rfl,rfl⟩⟩ hkept.starts
      have hempty := hafter.pendingProvisioning.trans hnone
      simp only [BleLink.owes,hempty,Option.map_some,Option.map_none,Option.some.injEq,
        tokens_cons,tokens_nil,TransportEvent.token,reduceCtorEq,if_false]
      omega
  · exact fun _ link' hafter => (h.boardSettles (hsent hafter)).drop

theorem opens (h : OneAttempt hand room link) (frame : Bytes) :
    OneAttempt hand room (link.opened binding frame) := by
  have horigin : ∀ {other origin}, Origin other origin hand room (link.opened binding frame) →
      Origin other origin hand room link := by
    intro other origin hfound
    refine hfound.imp_right fun hlater => hlater.imp_right ?_
    rintro ⟨attempt,hclose,-,sent,hsent,-⟩
    cases hclose
    exact absurd (h.numbered.1 _ hsent) (Nat.lt_irrefl _)
  constructor
  · exact h.token
  · exact fun other hsome origin hfound => h.fresh other hsome origin (horigin hfound)
  · exact fun other origin second hfirst hsecond =>
      h.single other origin second (horigin hfirst) (horigin hsecond)
  · exact fun other origin hfound => h.attempted other origin (horigin hfound)
  · refine ⟨fun entry hmem => Nat.lt_succ_of_lt (h.numbered.1 entry hmem),fun attempt hclose => ?_⟩
    cases hclose
    exact Nat.lt_succ_self _
  · exact h.carried
  · exact h.starts

/-- The frame of the router's hand is of the attempt that the carrier's has taken frames of. -/
theorem carries {frame : Traced Bytes} {attempt : CarrierAttempt L}
    (h : OneAttempt [.boardRepairOutbound binding frame] room link)
    (hclose : link.repairClose = some attempt) (hbinding : attempt.binding = binding) :
    OneAttempt [.boardRepairOutbound binding frame] room
      { link with carried := link.carried ++ [(attempt.number,frame)] } := by
  have hhand : Origin binding frame.origin [.boardRepairOutbound binding frame] room link :=
    .inl ⟨frame,List.mem_append_left _ (by simp),rfl⟩
  have horigin : ∀ {other origin}, Origin other origin [.boardRepairOutbound binding frame] room
      { link with carried := link.carried ++ [(attempt.number,frame)] } →
      Origin other origin [.boardRepairOutbound binding frame] room link := by
    rintro other origin (hline | hheld | ⟨later,hlater,hother,sent,hsent,hsame⟩)
    · exact .inl hline
    · exact .inr (.inl hheld)
    cases List.mem_append.mp hsent with
    | inl hold => exact .inr (.inr ⟨later,hlater,hother,sent,hold,hsame⟩)
    | inr hnew =>
      obtain rfl : sent = frame := (Prod.mk.inj (List.mem_singleton.mp hnew)).2
      obtain rfl : attempt = later := Option.some.inj (hclose.symm.trans hlater)
      rw [← hother,hbinding,← hsame]
      exact hhand
  have hsame : ∀ entry ∈ link.carried, entry.1 = attempt.number → entry.2.origin = frame.origin :=
    fun entry hmem hnumber => h.single binding _ _
      (.inr (.inr ⟨attempt,hclose,hbinding,entry.2,hnumber ▸ hmem,rfl⟩)) hhand
  constructor
  · exact h.token
  · exact fun other hsome origin hfound => h.fresh other hsome origin (horigin hfound)
  · exact fun other origin second hfirst hsecond =>
      h.single other origin second (horigin hfirst) (horigin hsecond)
  · exact fun other origin hfound => h.attempted other origin (horigin hfound)
  · refine ⟨fun entry hmem => ?_,h.numbered.2⟩
    cases List.mem_append.mp hmem with
    | inl hold => exact h.numbered.1 entry hold
    | inr hnew =>
      obtain rfl := List.mem_singleton.mp hnew
      exact h.numbered.2 attempt hclose
  · refine ⟨fun entry hmem => ?_,fun entry hmem other hother hnumber => ?_⟩
    · cases List.mem_append.mp hmem with
      | inl hold => exact h.carried.1 entry hold
      | inr hnew =>
        obtain rfl := List.mem_singleton.mp hnew
        exact h.attempted binding frame.origin hhand
    · cases List.mem_append.mp hmem with
      | inl hold =>
        cases List.mem_append.mp hother with
        | inl hfirst => exact h.carried.2 entry hold other hfirst hnumber
        | inr hnew =>
          obtain rfl := List.mem_singleton.mp hnew
          exact hsame entry hold hnumber
      | inr hnew =>
        obtain rfl := List.mem_singleton.mp hnew
        cases List.mem_append.mp hother with
        | inl hold => exact (hsame other hold hnumber.symm).symm
        | inr hlast =>
          obtain rfl := List.mem_singleton.mp hlast
          rfl
  · exact h.starts

theorem kept (hand : List (TransportEvent T)) (room : RoomLeg T) :
    Upkeep fun link link' : BleLink L => OneAttempt hand room link → OneAttempt hand room link' :=
  upkeep_settles.keeps fun _ _ hsettles hlink => hlink.boardSettles hsettles

theorem boardRuns {program : LinkM L Unit} (h : OneAttempt hand room board)
    (hprogram : Stays (fun link link' : BleLink L =>
      OneAttempt hand room link → OneAttempt hand room link') program) :
    OneAttempt hand room (stateAfter (program board)) :=
  Post.stateAfter ((hprogram board).mono (fun _ _ hafter => hafter h) fun _ _ hafter => hafter h)

theorem boardFrame {frame : Traced Bytes}
    (h : OneAttempt [.boardRepairOutbound binding frame] room board) :
    OneAttempt [] room (stateAfter (sendBoardRepairFrame (L := L) binding frame board)) := by
  refine (h.boardRuns ((kept _ room).sendBoardRepairFrame binding frame ?_ ?_)).drop
  · exact fun link _ _ hlink => hlink.opens frame.value
  · exact fun link attempt _ hclose hsame hlink => hlink.carries hclose hsame

theorem boardHandles (command : BridgeCommand T) (h : OneAttempt command.relayed room board) :
    OneAttempt [] room (stateAfter (handleLinkCommand command board)) := by
  cases command with
  | sendBoardCapabilityBundle binding bundle => exact boardBundle h
  | sendBoardRepairFrame binding frame => exact boardFrame h
  | forgetBoard identity =>
    refine h.boardRuns ((kept [] room).forgetBoard identity fun link hlink => ?_)
    exact hlink.boardSettles (.of_same rfl rfl rfl rfl (.inl rfl))
  | completeBoardRepair binding =>
    refine h.boardRuns ((kept [] room).completeBoardRepair binding fun link _ _ hlink => ?_)
    refine hlink.boardSettles (.trans ?_ (.publish (fun _ => rfl) _))
    exact .of_same rfl rfl rfl rfl (.inl rfl)
  | _ => exact h.drop.boardRuns ((kept [] room).handleLinkCommand trivial)

theorem roomPolls (h : OneAttempt [] room board) {event : Option (TransportEvent T)}
    (hpoll : room.pollEvent = (event,room')) :
    OneAttempt (event.elim [] fun event => polledHand (.room,event)) room' board := by
  have hline := room.pollEvent_line
  simp only [hpoll] at hline
  obtain ⟨taken,rfl,hline,hcommands,hactive,hstarts⟩ | ⟨hsame,hidle⟩ := hline
  · refine h.passes ⟨fun binding => ?_,fun attempt hattempt => ?_,fun binding frame hframe => ?_,
      rfl,rfl,fun attempt hattempt => ⟨attempt,hattempt,rfl,rfl⟩⟩ ?_
    · simp only [RoomLeg.early,hcommands,hline,Option.elim_some,polledHand,tokens_cons,tokens_nil]
      omega
    · rwa [RoomLeg.attempt,hactive] at hattempt
    · refine .inl ⟨frame,?_,rfl⟩
      rwa [List.nil_append,hline]
    · rw [hstarts]
      exact h.starts
  · have hkept := h.roomEases (.of_same hsame)
    cases event with
    | none => exact hkept
    | some event =>
      have hquiet := hidle event rfl
      refine hkept.passes ⟨fun binding => ?_,fun _ hattempt => hattempt,
        fun binding frame hframe => ?_,rfl,rfl,
        fun attempt hattempt => ⟨attempt,hattempt,rfl,rfl⟩⟩ hkept.starts
      · cases event <;> first | exact absurd hquiet id | exact le_rfl
      · refine .inl ⟨frame,?_,rfl⟩
        cases event <;> first | exact absurd hquiet id | simpa [polledHand] using hframe

theorem boardPolls (h : OneAttempt [] room board) {event : Option (TransportEvent T)}
    (hpoll : board.pollEvent = (event,board')) :
    OneAttempt (event.elim [] fun event => polledHand (.board,event)) room board' := by
  have htaken := upkeep_settles.pollEvent_taken board
  rw [hpoll] at htaken
  obtain ⟨middle,hmiddle,⟨rfl,rfl⟩ | ⟨⟨text,rfl⟩,hsame⟩⟩ := htaken
  · have hkept := h.boardSettles hmiddle
    refine hkept.passes ⟨fun binding => ?_,fun _ hattempt => hattempt,
      fun binding frame hframe => ?_,rfl,rfl,
      fun attempt hattempt => ⟨attempt,hattempt,rfl,rfl⟩⟩ hkept.starts
    · cases hevents : middle.events with
      | nil => simp [BleLink.owes,hevents]
      | cons first events =>
        have htoken : tokens binding (polledHand (.board,first)) ≤ first.token binding := by
          cases first <;> simp [polledHand,TransportEvent.token]
        simp only [BleLink.owes,hevents,List.head?_cons,Option.elim_some,List.tail_cons,
          tokens_cons,tokens_nil]
        omega
    · refine .inl ⟨frame,?_,rfl⟩
      cases hhead : middle.events.head? with
      | none => simpa [hhead] using hframe
      | some event =>
        rw [hhead] at hframe
        cases event <;> simpa [polledHand] using hframe
  · exact (h.boardSettles hmiddle).boardSettles (upkeep_settles.aside _ _ hsame)

theorem plays (h : OneAttempt [] room board) (toMidi : T.Midi → Except String T.Midi)
    (midi : T.Midi) : OneAttempt [] (stateAfter (RoomLeg.sendRealtime toMidi midi room)) board := by
  unfold RoomLeg.sendRealtime
  cases toMidi midi with
  | ok played => exact h.commands rfl
  | error reason => exact h

end OneAttempt

section Answered

variable {toMidi : T.Midi → Except String T.Midi} {router : BoardBridge L}

/-- What the router asks for hands on the round that it took, or begins one. -/
theorem asksFor_relayed {polled : CarrierLegKind × TransportEvent T}
    {asked : CarrierLegKind × BridgeCommand T} (h : router.asksFor polled = some asked) :
    asked.2.relayed = polledHand polled ∨ asked.2.relayed = [] ∨
      ∃ binding, asked = (.room,.prepareBoardProvisioning binding) := by
  have habout : ∀ {binding : BoardSessionBinding} {other : CarrierLegKind × BridgeCommand T},
      router.about binding other = some asked → other = asked := by
    intro binding other habout
    unfold CompositeTransport.about at habout
    split at habout
    · exact Option.some.inj habout
    · cases habout
  unfold CompositeTransport.asksFor at h
  split at h
  · obtain ⟨binding,-,rfl⟩ := Option.map_eq_some_iff.mp h
    exact .inr (.inr ⟨binding,rfl⟩)
  · split at h
    · obtain ⟨binding,-,rfl⟩ := Option.map_eq_some_iff.mp h
      exact .inr (.inr ⟨binding,rfl⟩)
    · cases h
  · obtain rfl := habout h
    exact .inl rfl
  · obtain rfl := habout h
    exact .inl rfl
  · obtain rfl := habout h
    exact .inr (.inl rfl)
  · obtain rfl := habout h
    exact .inr (.inl rfl)
  · obtain rfl := habout h
    exact .inr (.inl rfl)
  · split at h
    · cases h
      exact .inr (.inr ⟨_,rfl⟩)
    · cases h
  · obtain rfl := habout h
    exact .inl rfl
  · obtain rfl := habout h
    exact .inr (.inl rfl)
  · obtain rfl := habout h
    exact .inr (.inl rfl)
  · split at h
    · cases h
    · obtain ⟨binding,-,rfl⟩ := Option.map_eq_some_iff.mp h
      exact .inr (.inl rfl)
  · cases h

namespace OneAttempt

theorem answers {polled : CarrierLegKind × TransportEvent T}
    (h : OneAttempt (polledHand polled) router.room router.board)
    (hover : ∀ binding, router.asksFor polled = some (.room,.prepareBoardProvisioning binding) →
      RoundOver binding router.room router.board) :
    router.Answers (roomLeg toMidi) (boardLeg L) polled (OneAttempt []) := by
  have hasked : ∀ {asked}, router.asksFor polled = some asked →
      OneAttempt asked.2.relayed router.room router.board := by
    intro asked hasks
    obtain hsame | hnone | ⟨binding,rfl⟩ := asksFor_relayed hasks
    · rw [hsame]
      exact h
    · rw [hnone]
      exact h.drop
    · exact h.drop.begins (hover binding hasks)
  refine ⟨h.drop,fun command hasks => roomHandles command (hasked hasks),
    fun command hasks => boardHandles command (hasked hasks),?_,?_,?_,?_⟩
  · exact fun binding room board hrest => hrest.roomHandles (.abortBoardRepair binding)
  · exact fun binding room board hrest => hrest.boardHandles (.abortBoardRepair binding)
  · exact fun midi room board hrest => hrest.plays toMidi midi
  · exact fun midi room board hrest => hrest.boardRuns ((kept [] room).sendLinkRealtime midi)

end OneAttempt

end Answered

end Router

section Bridge

variable {toMidi : T.Midi → Except String T.Midi} {bridge : BoardBridge L}

namespace BoardBridge

/-- The placement whose provisioning the next poll has the room asked for, and what the router
stands on then. -/
def asksAnew (toMidi : T.Midi → Except String T.Midi) (bridge : BoardBridge L) :
    Option (BoardSessionBinding × BoardBridge L) :=
  match bridge.pending,bridge.pollLegs (roomLeg toMidi) (boardLeg L) with
  | [],(some polled,middle) =>
    match (middle.heard polled).asksFor polled with
    | some (.room,.prepareBoardProvisioning binding) => some (binding,middle)
    | _ => none
  | _,_ => none

/-- The application names no placement; a room's provisioning is asked for where nothing is left of
the last round; and an attempt that its close did not synchronize has nothing under way. -/
def MeetsRounds (toMidi : T.Midi → Except String T.Midi) (bridge : BoardBridge L) :
    BridgeStep L → Prop
  | .command command => command.binding = none
  | .poll => ∀ asked ∈ bridge.asksAnew toMidi, RoundOver asked.1 asked.2.room asked.2.board
  | .drive answers => answers.restarts → ∀ binding ∈ bridge.room.closes,
    Clear binding (bridge.room.hold none) bridge.board
  | _ => True

def MeetsRoundsThroughout (toMidi : T.Midi → Except String T.Midi) (bridge : BoardBridge L) :
    List (BridgeStep L) → Prop
  | [] => True
  | next :: steps =>
    bridge.MeetsRounds toMidi next ∧ (bridge.step toMidi next).MeetsRoundsThroughout toMidi steps

instance decidableMeetsRounds (bridge : BoardBridge L) :
    (next : BridgeStep L) → Decidable (bridge.MeetsRounds toMidi next)
  | .command command => inferInstanceAs (Decidable (command.binding = none))
  | .poll => inferInstanceAs (Decidable (∀ asked ∈ bridge.asksAnew toMidi,
    RoundOver asked.1 asked.2.room asked.2.board))
  | .drive answers => inferInstanceAs (Decidable (answers.restarts = true →
    ∀ binding ∈ bridge.room.closes, Clear binding (bridge.room.hold none) bridge.board))
  | .start | .realtime _ | .lose | .observe _ | .emit | .shutdown | .hostMoves _ | .clock _ =>
    inferInstanceAs (Decidable True)

instance decidableMeetsRoundsThroughout : (steps : List (BridgeStep L)) → (bridge : BoardBridge L) →
    Decidable (bridge.MeetsRoundsThroughout toMidi steps)
  | [],_ => inferInstanceAs (Decidable True)
  | next :: steps,bridge =>
    have := decidableMeetsRoundsThroughout steps (bridge.step toMidi next)
    inferInstanceAs (Decidable (_ ∧ _))

/-- Each frame that the board got comes from an attempt of the room, all those of one attempt of
the carrier from one; and no room is asked to start an attempt for a placement that it holds one
of. -/
structure OneForOne (bridge : BoardBridge L) : Prop where
  attempted : ∀ entry ∈ bridge.board.carried, entry.2.origin.isSome
  single : ∀ entry ∈ bridge.board.carried, ∀ other ∈ bridge.board.carried, entry.1 = other.1 →
    entry.2.origin = other.2.origin
  starts : ∀ start ∈ bridge.room.starts, start.2 ≠ some start.1

end BoardBridge

namespace OneAttempt

theorem new (hunused : link.Unused) (identitySeed : Digest) :
    OneAttempt [] (BoardBridge.new identitySeed link).room
      (BoardBridge.new identitySeed link).board := by
  have horigin : ∀ {binding origin}, ¬ Origin binding origin []
      (BoardBridge.new identitySeed link).room (BoardBridge.new identitySeed link).board := by
    rintro binding origin (⟨frame,hframe,-⟩ | ⟨attempt,hattempt,-⟩ | ⟨attempt,hclose,-⟩)
    · simp [BoardBridge.new,RoomLeg.line] at hframe
    · simp [BoardBridge.new,RoomLeg.attempt] at hattempt
    · simp [BoardBridge.new,hunused.repairClose] at hclose
  constructor
  · intro binding
    simp [BoardBridge.new,RoomLeg.early,RoomLeg.line,RoomLeg.held,RoomLeg.attempt,BleLink.owes,
      hunused.events,hunused.pendingProvisioning]
  · exact fun binding hsome origin => horigin
  · exact fun binding origin other hfirst => absurd hfirst horigin
  · exact fun binding origin hfound => absurd hfound horigin
  · simp [BoardBridge.new,hunused.carried,hunused.repairClose]
  · simp [BoardBridge.new,hunused.carried]
  · simp [BoardBridge.new]

theorem poll (h : OneAttempt [] bridge.room bridge.board)
    (hmeets : bridge.MeetsRounds toMidi .poll) :
    OneAttempt [] (bridge.step toMidi .poll).room (bridge.step toMidi .poll).board := by
  refine CompositeTransport.Holds.poll h (fun hnone => ?_) (fun hpending polled hsome => ?_) rfl
  · obtain ⟨hroom,hboard⟩ := CompositeTransport.pollLegs_none hnone
    exact (h.roomPolls hroom).boardPolls hboard
  · refine answers ?_ fun binding hasks =>
      hmeets (binding,(bridge.pollLegs (roomLeg toMidi) (boardLeg L)).2) ?_
    rotate_left
    · unfold BoardBridge.asksAnew
      rw [hpending,hsome]
      simp only [hasks,Option.mem_def]
    obtain ⟨leg,event⟩ := polled
    cases leg with
    | room =>
      obtain ⟨hroom,hsame | hboard,-⟩ := CompositeTransport.pollLegs_room hsome
      · have hafter := h.roomPolls hroom
        simpa [CompositeTransport.heard,hsame] using hafter
      · exact (h.boardPolls hboard).roomPolls hroom
    | board =>
      obtain ⟨hboard,hsame | hroom,-⟩ := CompositeTransport.pollLegs_board hsome
      · have hafter := h.boardPolls hboard
        simpa [CompositeTransport.heard,hsame] using hafter
      · exact (h.roomPolls hroom).boardPolls hboard

theorem ask (h : OneAttempt [] bridge.room bridge.board) {command : BridgeCommand T}
    (hcommand : command.binding = none) :
    OneAttempt [] (bridge.step toMidi (.command command)).room
      (bridge.step toMidi (.command command)).board := by
  have hnothing : command.relayed = [] := by
    cases command <;> first | rfl | simp [BridgeCommand.binding] at hcommand
  simp only [BoardBridge.step,CompositeTransport.handleCommand]
  split
  · obtain ⟨hroom,hboard⟩ := CompositeTransport.askRoom_legs (roomLeg toMidi) none command bridge
    rw [hroom,hboard]
    exact roomHandles command (by rwa [hnothing])
  · obtain ⟨hboard,hroom⟩ := CompositeTransport.askBoard_legs (boardLeg L) none command bridge
    rw [hroom,hboard]
    exact boardHandles command (by rwa [hnothing])

theorem step (h : OneAttempt [] bridge.room bridge.board) {next : BridgeStep L}
    (hmeets : bridge.MeetsRounds toMidi next) :
    OneAttempt [] (bridge.step toMidi next).room (bridge.step toMidi next).board := by
  cases next with
  | start =>
    obtain ⟨hroom,hboard,-⟩ := CompositeTransport.start_legs (roomLeg toMidi) (boardLeg L) bridge
    simp only [BoardBridge.step,hroom,hboard]
    exact h.boardRuns (kept _ _).reportTrusted
  | command command => exact h.ask hmeets
  | realtime midi =>
    obtain ⟨hroom,hboard,-⟩ :=
      CompositeTransport.sendRealtime_legs (roomLeg toMidi) (boardLeg L) bridge midi
    simp only [BoardBridge.step,hroom,hboard]
    exact (h.plays toMidi midi).boardRuns ((kept _ _).sendLinkRealtime midi)
  | poll => exact h.poll hmeets
  | drive answers => exact h.drives answers hmeets
  | lose => exact h.roomEases (upkeep_eases.lose _)
  | observe notices => exact h.roomEases (upkeep_eases.observe _ notices)
  | emit => exact h.roomEases (upkeep_eases.emit _)
  | shutdown =>
    exact (h.roomEases (upkeep_eases.shutdown _)).boardSettles (upkeep_settles.shutdown _)
  | hostMoves host => exact h.boardSettles (.of_same rfl rfl rfl rfl (.inl rfl))
  | clock now => exact h.boardSettles (.of_same rfl rfl rfl rfl (.inl rfl))

theorem run (h : OneAttempt [] bridge.room bridge.board) {steps : List (BridgeStep L)}
    (hmeets : bridge.MeetsRoundsThroughout toMidi steps) :
    OneAttempt [] (bridge.run toMidi steps).room (bridge.run toMidi steps).board := by
  induction steps generalizing bridge with
  | nil => exact h
  | cons next steps ih => exact ih (h.step hmeets.1) hmeets.2

end OneAttempt

end Bridge

section Rounds

theorem attempts_one_for_one {toMidi : T.Midi → Except String T.Midi} {host : L.Host}
    {config : BleLinkConfig} (hnew : BleLink.new host config = .ok link) {identitySeed : Digest}
    {steps : List (BridgeStep L)}
    (hmeets : (BoardBridge.new identitySeed link).MeetsRoundsThroughout toMidi steps) :
    ((BoardBridge.new identitySeed link).run toMidi steps).OneForOne := by
  have hrun := (OneAttempt.new (new_unused hnew) identitySeed).run hmeets
  exact ⟨hrun.carried.1,hrun.carried.2,hrun.starts⟩

/-- What the room's driver answers when all goes well: a bundle for the board, and frames. -/
def fineAnswers (bundle : Bytes) (frames : List Bytes) : DriverAnswers plainTypes :=
  ⟨.ok (),.ok bundle,⟨frames,.ok false⟩,.ok true,[]⟩

/-- The queues are emptied, a poll after each event of the driver's. -/
def pump (polls : Nat) : List (BridgeStep plainBle) :=
  (List.range polls).flatMap fun _ => [.emit,.poll]

/-- The board is provisioned by the room, and gets the first frame of its attempt. -/
def repairRound (digest : UInt8) (frame : Bytes) : List (BridgeStep plainBle) :=
  let answered : BridgeStep plainBle := .drive (fineAnswers [5,digest] [frame])
  pump 4 ++ [answered] ++ pump 2 ++ [.hostMoves [.notification [0,1,digest]]] ++ pump 2 ++
    [answered] ++ pump 2

def roomSteps (name : String) : List (BridgeStep plainBle) :=
  [.command (.selectRoom name),.drive (fineAnswers [] [])] ++ pump 6

def boardSteps : List (BridgeStep plainBle) :=
  .hostMoves (greeting ++ [.notification [0,0]]) :: pump 10

theorem attempts_one_for_one_repaired :
    (((BoardBridge.new 1 freshLink).run .ok
      (boardSteps ++ roomSteps "a" ++ repairRound 1 [9])).board.carried = [(0,⟨[9],some 0⟩)]) ∧
    ((BoardBridge.new 1 freshLink).run .ok
      (boardSteps ++ roomSteps "a" ++ repairRound 1 [9])).OneForOne :=
  ⟨by decide +kernel,attempts_one_for_one new_freshLink (by decide +kernel)⟩

/-- The application names no placement. -/
def BridgeStep.unbound : BridgeStep L → Bool
  | .command asked => asked.binding.isNone
  | _ => true

/-- The room is replaced while the carrier's attempt is under way. -/
theorem replaced_room_shares_carrier :
    ¬ ∀ (host : List BleHostEvent) (config : BleLinkConfig) (link : BleLink plainBle)
      (steps : List (BridgeStep plainBle)), BleLink.new host config = .ok link →
        steps.all BridgeStep.unbound →
          ((BoardBridge.new 1 link).run .ok steps).OneForOne := by
  intro h
  let steps := boardSteps ++ roomSteps "a" ++ repairRound 1 [9] ++ roomSteps "b" ++
    repairRound 2 [8]
  have hcarried : ((BoardBridge.new 1 freshLink).run .ok steps).board.carried =
      [(0,⟨[9],some 0⟩),(0,⟨[8],some 1⟩)] := by decide +kernel
  have hone := h [] plainConfig freshLink steps new_freshLink (by decide +kernel)
  have hsame := hone.single (0,⟨[9],some 0⟩) (by simp [hcarried]) (0,⟨[8],some 1⟩)
    (by simp [hcarried]) rfl
  simp at hsame

end Rounds

end WalkieSongie.Carrier
