import WalkieSongie.BoardBridge
set_option autoImplicit false

/-!
What the native room's leg leaves between the state that it finds and the one that it leaves, told
once for its smallest changes.
-/

namespace WalkieSongie.Carrier

variable {T : RealtimeTypes}

namespace RoomLeg

variable (leg : RoomLeg T) {attempt : RoomAttempt}

@[simp] theorem line_tell (events : List (TransportEvent T)) :
    (leg.tell events).line = leg.line ++ events := by
  have hsame : (fun event : TransportEvent T => Egress.event ⟨event,false⟩) = id := rfl
  simp [line,tell,Function.comp_def,hsame]

@[simp] theorem attempt_tell (events : List (TransportEvent T)) :
    (leg.tell events).attempt = leg.attempt := rfl

@[simp] theorem line_sendFrames (frames : List Bytes) :
    (leg.sendFrames attempt frames).line = leg.line ++ frames.map fun frame =>
      .boardRepairOutbound attempt.binding ⟨frame,some attempt.number⟩ := by
  simp [line,sendFrames,Function.comp_def]

@[simp] theorem attempt_sendFrames (frames : List Bytes) :
    (leg.sendFrames attempt frames).attempt = leg.attempt := rfl

@[simp] theorem line_hold (held : Option RoomAttempt) : (leg.hold held).line = leg.line := rfl

theorem attempt_hold (held : Option RoomAttempt) :
    ∀ attempt, (leg.hold held).attempt = some attempt → held = some attempt := by
  intro attempt hattempt
  cases hactive : leg.active with
  | none => simp [RoomLeg.attempt,hold,hactive] at hattempt
  | some room =>
    simp only [RoomLeg.attempt,hold,hactive,Option.map_some,Option.bind_some] at hattempt
    exact hattempt

end RoomLeg

theorem RoomLeg.stateAfter_editCommand {I : RoomLeg T → Prop} {leg : RoomLeg T}
    {edit : DriverCommand T} (token : Nat) (h : I (stateAfter (RoomLeg.command edit leg)))
    (hnoted : ∀ after queued, I after → I { after with highestQueued := queued }) :
    I (stateAfter (RoomLeg.editCommand token edit leg)) := by
  have hrun : stateAfter (RoomLeg.editCommand token edit leg) =
      match RoomLeg.command edit leg with
      | .ok _ after => { after with highestQueued := max after.highestQueued token }
      | .error _ after => after := by
    unfold RoomLeg.editCommand
    simp only [bind,EStateM.bind]
    cases RoomLeg.command edit leg <;> rfl
  rw [hrun]
  cases hresult : RoomLeg.command edit leg with
  | ok done after =>
    rw [hresult] at h
    exact hnoted after _ h
  | error error after =>
    rw [hresult] at h
    exact h

/-- The event carries neither a round of the board's provisioning and repair nor a part of it. -/
def TransportEvent.Aside : TransportEvent T → Prop
  | .boardCapabilityBundlePrepared _ _ | .boardProvisioned _ | .boardRepairOutbound _ _
  | .boardRepairSynchronized _ => False
  | _ => True

theorem notices_aside (notices : List (RoomNotice T)) :
    ∀ event ∈ notices.map RoomNotice.event, event.Aside := by
  intro event hmem
  obtain ⟨notice,-,rfl⟩ := List.mem_map.mp hmem
  cases notice <;> trivial

/-- The first event that waited has left the line, and nothing else changed. -/
structure Departs (room room' : RoomLeg T) (egress : Egress T) (outgoing : List (Egress T)) :
    Prop where
  commands : room'.commands = room.commands
  active : room'.active = room.active
  starts : room'.starts = room.starts
  waited : room.line = room.events ++ egress.event :: outgoing.map Egress.event
  line : room'.line = room.events ++ outgoing.map Egress.event

/-- A relation that the smallest changes of the room keep to. -/
structure RoomUpkeep (R : RoomLeg T → RoomLeg T → Prop) : Prop where
  trans : ∀ first second third, R first second → R second third → R first third
  same : ∀ room room', room.SameRoom room' → R room room'
  tells : ∀ events room, (∀ event ∈ events, event.Aside) → R room (room.tell events)
  holds : ∀ room, R room (room.hold none)
  leaves : ∀ active openings running room, active.bind ActiveRoom.boardRepair = none →
    R room { room with active, openings, running }
  loses : ∀ room room' egress outgoing, Departs room room' egress outgoing → R room room'
  shutdown : ∀ room, R room room.shutdown

namespace RoomUpkeep

variable {R : RoomLeg T → RoomLeg T → Prop} (h : RoomUpkeep R) (room : RoomLeg T)
include h

theorem refl : R room room := h.same room room ⟨rfl,rfl,rfl,rfl⟩

theorem abort (binding : BoardSessionBinding) : R room (room.abortBoardRepair binding) := by
  unfold RoomLeg.abortBoardRepair
  split
  · exact h.holds room
  · exact h.refl room

theorem tellTerminal (binding : BoardSessionBinding) (terminal : Bool) :
    R room (room.tellTerminal binding terminal) := by
  unfold RoomLeg.tellTerminal
  split
  · exact h.tells _ _ (by simp [TransportEvent.Aside])
  · exact h.refl room

theorem retracts (events : List (TransportEvent T)) (running : Bool)
    (hevents : ∀ event ∈ events, event.Aside) :
    R room (RoomLeg.tell events { room with active := none, running }) :=
  h.trans _ _ _ (h.leaves none room.openings running room rfl) (h.tells _ _ hevents)

theorem join (name : String) (answers : DriverAnswers T) : R room (room.join name answers) := by
  have hnotices := notices_aside answers.notices
  unfold RoomLeg.join
  split
  · exact h.tells _ _ (by simp [TransportEvent.Aside])
  have hleft := h.retracts room (RoomLeg.retraction ++ [.roomLink .connecting]) room.running
    (by simp [TransportEvent.Aside,RoomLeg.retraction])
  dsimp only
  split
  · refine h.trans _ _ _ hleft ?_
    refine h.trans _ _ _ (h.leaves (some ⟨name,_,none⟩) (_+1) room.running _ rfl) (h.tells _ _ ?_)
    simp only [List.mem_append]
    rintro event (hmem | hmem)
    · exact hnotices event hmem
    · revert event
      simp [TransportEvent.Aside]
  · refine h.trans _ _ _ hleft (h.tells _ _ ?_)
    simp only [List.mem_append]
    rintro event (hmem | hmem)
    · exact hnotices event hmem
    · revert event
      simp [TransportEvent.Aside]

theorem leave : R room room.leave := by
  refine h.retracts room _ room.running ?_
  cases room.active <;> simp [TransportEvent.Aside,RoomLeg.retraction]

theorem stop : R room room.stop :=
  h.retracts room _ false (by simp [TransportEvent.Aside,RoomLeg.retraction])

theorem lose : R room room.lose := by
  unfold RoomLeg.lose
  split
  · exact h.refl room
  · exact h.retracts room _ room.running (by simp [TransportEvent.Aside,RoomLeg.retraction])

theorem observe (notices : List (RoomNotice T)) : R room (room.observe notices) := by
  unfold RoomLeg.observe
  split
  · exact h.refl room
  · exact h.tells _ _ (notices_aside notices)

theorem emit : R room room.emit := by
  unfold RoomLeg.emit
  cases houtgoing : room.outgoing with
  | nil => exact h.refl room
  | cons egress outgoing =>
    have hline : room.line = room.events ++ egress.event :: outgoing.map Egress.event := by
      simp [RoomLeg.line,houtgoing]
    dsimp only
    split
    · refine h.same _ _ ⟨rfl,?_,rfl,rfl⟩
      simp [RoomLeg.line,houtgoing]
    split
    · exact h.loses _ _ egress outgoing ⟨rfl,rfl,rfl,hline,rfl⟩
    split
    · exact h.loses _ _ egress outgoing ⟨rfl,rfl,rfl,hline,rfl⟩
    · exact h.loses _ _ egress outgoing ⟨rfl,rfl,rfl,hline,rfl⟩

end RoomUpkeep

end WalkieSongie.Carrier
