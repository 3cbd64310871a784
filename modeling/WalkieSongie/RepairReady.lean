import WalkieSongie.CompositeBindings
import WalkieSongie.RepairRounds
set_option autoImplicit false

/-!
The board's link is reported ready after the whole chain of one room: its bundle is acknowledged,
its repair closes, and it says that the attempt synchronized.
-/

namespace WalkieSongie.Carrier
open TaskProgram
open BleLink

variable {T : RealtimeTypes} {L : BleLibrary T} {binding : BoardSessionBinding}
  {room room' : RoomLeg T} {link link' board board' : BleLink L}

/-- Since the last reset a bundle of the room was acknowledged, and a repair was closed. -/
structure Readied.Earned (readied : Readied) : Prop where
  room : readied.binding.origin.isSome
  acknowledged : readied.binding ∈ readied.facts.acknowledged
  closed : readied.binding.value ∈ readied.facts.closed

/-- The start of a repair that the driver takes up next, with the room that it is started in. -/
def RoomLeg.starting (leg : RoomLeg T) : Option (Traced BoardSessionBinding) :=
  match leg.outgoing,leg.commands,leg.active with
  | [],.startBoardRepair binding :: _,some room =>
    if room.boardRepair.isNone then some ⟨binding,some room.opening⟩ else none
  | _,_,_ => none

theorem RoomLeg.starting_origin {leg : RoomLeg T} {start : Traced BoardSessionBinding}
    (h : start ∈ leg.starting) : start.origin.isSome := by
  unfold starting at h
  split at h
  · split at h
    · cases h
      rfl
    · cases h
  · cases h

/-- The application names no placement; and the room that starts a repair with the board is one
whose bundle the board has acknowledged. -/
def BoardBridge.MeetsReady (bridge : BoardBridge L) : BridgeStep L → Prop
  | .command command => command.binding = none
  | .drive _ => ∀ start ∈ bridge.room.starting,
    bridge.board.currentBoardBinding = some start.value → start ∈ bridge.board.facts.acknowledged
  | _ => True

def BoardBridge.MeetsReadyThroughout (toMidi : T.Midi → Except String T.Midi)
    (bridge : BoardBridge L) : List (BridgeStep L) → Prop
  | [] => True
  | next :: steps =>
    bridge.MeetsReady next ∧ (bridge.step toMidi next).MeetsReadyThroughout toMidi steps

instance decidableMeetsReady (bridge : BoardBridge L) :
    (next : BridgeStep L) → Decidable (bridge.MeetsReady next)
  | .command command => inferInstanceAs (Decidable (command.binding = none))
  | .drive _ => inferInstanceAs (Decidable (∀ start ∈ bridge.room.starting,
    bridge.board.currentBoardBinding = some start.value → start ∈ bridge.board.facts.acknowledged))
  | .start | .realtime _ | .poll | .lose | .observe _ | .emit | .shutdown | .hostMoves _
  | .clock _ => inferInstanceAs (Decidable True)

instance decidableMeetsReadyThroughout {toMidi : T.Midi → Except String T.Midi} :
    (steps : List (BridgeStep L)) → (bridge : BoardBridge L) →
      Decidable (bridge.MeetsReadyThroughout toMidi steps)
  | [],_ => inferInstanceAs (Decidable True)
  | next :: steps,bridge =>
    have := @decidableMeetsReadyThroughout toMidi steps (bridge.step toMidi next)
    inferInstanceAs (Decidable (_ ∧ _))

section Board

namespace BleLink

/-- The placement in force was noted when its handshake was complete. -/
def Placed (link : BleLink L) : Prop :=
  ∀ binding, link.currentBoardBinding = some binding → binding ∈ link.placements

/-- The session still stands for the placement, and the board has taken the room's bundle; or the
placement is over. -/
structure Provisioned (link : BleLink L) (binding : Traced BoardSessionBinding) : Prop where
  room : binding.origin.isSome
  placed : binding.value ∈ link.placements
  acknowledged : link.currentBoardBinding = some binding.value →
    binding ∈ link.facts.acknowledged

structure Vouched (link : BleLink L) : Prop where
  placed : link.Placed
  closed : ∀ binding, link.repairAwaitingConfirmation = some binding →
    binding ∈ link.facts.closed
  provisioned : ∀ binding, .boardProvisioned binding ∈ link.events → binding ∈ link.placements

end BleLink

theorem mem_publish {event other : TransportEvent T}
    (h : other ∈ (publish event link).events) : other ∈ link.events ∨ other = event := by
  unfold publish at h
  split at h
  · simp only [List.mem_append,List.mem_singleton] at h
    exact h.imp_left List.mem_of_mem_tail
  · simpa using h

theorem publish_session (event : TransportEvent T) (link : BleLink L) :
    (publish event link).placements = link.placements ∧
      (publish event link).facts = link.facts ∧ (publish event link).readied = link.readied ∧
      (publish event link).repairAwaitingConfirmation = link.repairAwaitingConfirmation := by
  unfold publish
  split <;> exact ⟨rfl,rfl,rfl,rfl⟩

/-- One state of the session after another: no placement that is over comes into force again, and
for the one in force nothing acknowledged is forgotten. -/
structure Follows (link link' : BleLink L) : Prop where
  vouched : link.Vouched → link'.Vouched
  placements : link.placements <+: link'.placements
  readied : link'.readied = link.readied
  live : link'.placements.Nodup → ∀ binding ∈ link.placements,
    link'.currentBoardBinding = some binding → link.currentBoardBinding = some binding ∧
      link.facts.acknowledged ⊆ link'.facts.acknowledged

theorem Follows.provisioned (h : Follows link link') (hnodup : link'.placements.Nodup)
    {binding : Traced BoardSessionBinding} (hprovisioned : link.Provisioned binding) :
    link'.Provisioned binding where
  room := hprovisioned.room
  placed := h.placements.subset hprovisioned.placed
  acknowledged hcurrent := by
    obtain ⟨hbefore,hkept⟩ := h.live hnodup _ hprovisioned.placed hcurrent
    exact hkept (hprovisioned.acknowledged hbefore)

namespace Follows

theorem trans (first second third : BleLink L) (h : Follows first second)
    (h' : Follows second third) : Follows first third where
  vouched hvouched := h'.vouched (h.vouched hvouched)
  placements := h.placements.trans h'.placements
  readied := h'.readied.trans h.readied
  live hnodup binding hmem hcurrent := by
    obtain ⟨hmiddle,hkept⟩ := h'.live hnodup binding (h.placements.subset hmem) hcurrent
    obtain ⟨hfirst,hearlier⟩ := h.live (hnodup.sublist h'.placements.sublist) binding hmem hmiddle
    exact ⟨hfirst,List.Subset.trans hearlier hkept⟩

theorem of_same (hbinding : link'.currentBoardBinding = link.currentBoardBinding)
    (hplacements : link'.placements = link.placements)
    (hfacts : link'.facts = link.facts) (hreadied : link'.readied = link.readied)
    (hawaiting : link'.repairAwaitingConfirmation = link.repairAwaitingConfirmation ∨
      link'.repairAwaitingConfirmation = none)
    (hevents : ∀ binding, .boardProvisioned binding ∈ link'.events →
      .boardProvisioned binding ∈ link.events) : Follows link link' where
  vouched h := by
    constructor
    · intro binding hcurrent
      rw [hplacements]
      exact h.placed binding (hbinding ▸ hcurrent)
    · intro binding hconfirmed
      rw [hfacts]
      cases hawaiting with
      | inl hsame => exact h.closed binding (hsame ▸ hconfirmed)
      | inr hnone => simp [hnone] at hconfirmed
    · intro binding hmem
      rw [hplacements]
      exact h.provisioned binding (hevents binding hmem)
  placements := hplacements ▸ List.prefix_refl _
  readied := hreadied
  live _ binding _ hcurrent := ⟨hbinding ▸ hcurrent,by rw [hfacts]; exact fun _ h => h⟩

theorem of_over (hcurrent : link'.currentBoardBinding = none)
    (hplacements : link'.placements = link.placements) (hreadied : link'.readied = link.readied)
    (hawaiting : link'.repairAwaitingConfirmation = none)
    (hevents : link'.events = link.events) : Follows link link' where
  vouched h := by
    constructor
    · simp [Placed,hcurrent]
    · simp [hawaiting]
    · rw [hevents,hplacements]
      exact h.provisioned
  placements := hplacements ▸ List.prefix_refl _
  readied := hreadied
  live _ binding _ hlater := by simp [hcurrent] at hlater

theorem publish {event : TransportEvent T} (hevent : ∀ binding, event ≠ .boardProvisioned binding)
    (link : BleLink L) : Follows link (BleLink.publish event link) := by
  obtain ⟨hplacements,hfacts,hreadied,hawaiting⟩ := publish_session event link
  refine of_same (publish_binding event link) hplacements hfacts hreadied (.inl hawaiting) ?_
  intro binding hmem
  cases mem_publish hmem with
  | inl hold => exact hold
  | inr hnew => exact absurd hnew.symm (hevent binding)

theorem confirmed {waiting : Traced (BoardSessionBinding × Digest)}
    (hcurrent : link.currentBoardBinding = some waiting.value.1) :
    Follows link (link.confirmed waiting) := by
  obtain ⟨hplacements,hfacts,hreadied,hawaiting⟩ :=
    publish_session (.boardProvisioned waiting.value.1)
    { link with
      pendingProvisioning := none
      facts := { link.facts with
        acknowledged := link.facts.acknowledged ++ [⟨waiting.value.1,waiting.origin⟩] } }
  have hbinding : (link.confirmed waiting).currentBoardBinding = link.currentBoardBinding :=
    publish_binding _ _
  have hplaced : (link.confirmed waiting).placements = link.placements := hplacements
  constructor
  · intro h
    constructor
    · intro binding hlater
      rw [hplaced]
      exact h.placed binding (hbinding ▸ hlater)
    · intro binding hconfirmed
      simp only [BleLink.confirmed,hfacts]
      exact h.closed binding (hawaiting ▸ hconfirmed)
    · intro binding hmem
      rw [hplaced]
      cases mem_publish hmem with
      | inl hold => exact h.provisioned binding hold
      | inr hnew =>
        cases hnew
        exact h.placed _ hcurrent
  · rw [hplaced]
  · exact hreadied
  · intro _ binding _ hlater
    refine ⟨hbinding ▸ hlater,?_⟩
    simp only [BleLink.confirmed,hfacts]
    exact List.subset_append_left _ _

end Follows

theorem upkeep_follows (hstable : L.SessionStable) : Upkeep (L := L) Follows where
  refl link := .of_same rfl rfl rfl rfl (.inl rfl) fun _ h => h
  trans := Follows.trans
  aside link link' h := by
    refine .of_same h.binding h.placements h.facts h.readied (.inl h.awaiting)
      fun binding hmem => ?_
    rwa [h.events] at hmem
  codec link codec after hcodec hstep := by
    refine .of_same ?_ rfl rfl rfl (.inl rfl) fun _ h => h
    simp only [BleLink.currentBoardBinding,hcodec]
    cases link.remoteHello <;> simp [hstable _ _ hstep]
  exchanged link codec hcodec := .of_same rfl rfl rfl rfl (.inl rfl) fun _ h => h
  plain event link hevent := by
    refine .publish (fun binding hsame => ?_) link
    rw [hsame] at hevent
    exact hevent
  inbound binding frame link := by
    refine .of_same rfl rfl rfl rfl (.inl rfl) fun binding hmem => ?_
    simpa using hmem
  takes link := .of_same rfl rfl rfl rfl (.inl rfl) fun _ hmem => List.mem_of_mem_tail hmem
  observes link attempt close hclose := .of_same rfl rfl rfl rfl (.inl rfl) fun _ h => h
  closing link attempt hclose := by
    refine .trans _ _ _ ?_ (.publish (by simp) _)
    constructor
    · intro h
      refine ⟨h.placed,fun binding hconfirmed => ?_,h.provisioned⟩
      simp only [Option.some.injEq] at hconfirmed
      simp [hconfirmed]
    · exact List.prefix_refl _
    · rfl
    · exact fun _ binding _ hcurrent => ⟨hcurrent,fun _ hmem => hmem⟩
  reset hello link := .of_over (by cases hello <;> rfl) rfl rfl rfl rfl
  ended link := .of_over (by simp [BleLink.currentBoardBinding,BleLink.ended]) rfl rfl rfl rfl
  pend pending hello link hhello htrusted := .of_same rfl rfl rfl rfl (.inl rfl) fun _ h => h
  unpend link := .of_same rfl rfl rfl rfl (.inl rfl) fun _ h => h
  hello hello link hhello hpending hcodec := by
    refine .of_same ?_ rfl rfl rfl (.inl rfl) fun _ h => h
    simp [BleLink.currentBoardBinding,hcodec]
  authenticated codec remote pending link hpending hremote := by
    have hcurrent : (link.authenticated codec remote).currentBoardBinding =
        some ⟨remote.identity,remote.bootNonce,L.sessionId codec⟩ := by
      simp [BleLink.currentBoardBinding,BleLink.authenticated,hremote]
    constructor
    · intro h
      refine ⟨fun binding hlater => ?_,h.closed,fun binding hmem => ?_⟩
      · rw [hcurrent] at hlater
        cases hlater
        exact List.mem_append_right _ (List.mem_singleton_self _)
      · exact List.mem_append_left _ (h.provisioned binding hmem)
    · exact List.prefix_append _ _
    · rfl
    · intro hnodup binding hmem hlater
      rw [hcurrent] at hlater
      cases hlater
      have happart := List.nodup_append.mp hnodup
      exact absurd rfl (happart.2.2 _ hmem _ (List.mem_singleton_self _))
  confirmed link waiting hwaiting hcurrent := .confirmed hcurrent
  trusts identity link := .of_same rfl rfl rfl rfl (.inl rfl) fun _ h => h
  configures trusted link hhello hpending hcodec := .of_same rfl rfl rfl rfl (.inl rfl) fun _ h => h

end Board

section Room

variable {P : Traced BoardSessionBinding → Prop} {Q : BoardSessionBinding → Prop}
  {leg : RoomLeg T} {command : DriverCommand T}

/-- The attempt that the room holds, the attempts that it says synchronized and the starts that wait
for it are vouched for. -/
structure RoomLeg.Traces (P : Traced BoardSessionBinding → Prop) (Q : BoardSessionBinding → Prop)
    (room : RoomLeg T) : Prop where
  attempt : ∀ active, room.active = some active → ∀ attempt, active.boardRepair = some attempt →
    P ⟨attempt.binding,some active.opening⟩
  synchronized : ∀ binding, .boardRepairSynchronized binding ∈ room.line → P binding
  starts : ∀ binding, .startBoardRepair binding ∈ room.commands → Q binding

namespace RoomLeg.Traces

theorem mono {P' : Traced BoardSessionBinding → Prop} {Q' : BoardSessionBinding → Prop}
    (h : leg.Traces P Q) (hP : ∀ binding, P binding → P' binding)
    (hQ : ∀ binding, Q binding → Q' binding) : leg.Traces P' Q' where
  attempt active hactive attempt hattempt := hP _ (h.attempt active hactive attempt hattempt)
  synchronized binding hmem := hP _ (h.synchronized binding hmem)
  starts binding hmem := hQ _ (h.starts binding hmem)

theorem tell {events : List (TransportEvent T)} (h : leg.Traces P Q)
    (hevents : ∀ binding, .boardRepairSynchronized binding ∈ events → P binding) :
    (leg.tell events).Traces P Q where
  attempt := h.attempt
  synchronized binding hmem := by
    rw [RoomLeg.line_tell] at hmem
    cases List.mem_append.mp hmem with
    | inl hold => exact h.synchronized binding hold
    | inr hnew => exact hevents binding hnew
  starts := h.starts

theorem sendFrames (h : leg.Traces P Q) (attempt : RoomAttempt) (frames : List Bytes) :
    (leg.sendFrames attempt frames).Traces P Q where
  attempt := h.attempt
  synchronized binding hmem := by
    rw [RoomLeg.line_sendFrames] at hmem
    cases List.mem_append.mp hmem with
    | inl hold => exact h.synchronized binding hold
    | inr hnew => simp at hnew
  starts := h.starts

theorem hold (h : leg.Traces P Q) {held : Option RoomAttempt}
    (hheld : ∀ active, leg.active = some active → ∀ attempt, held = some attempt →
      P ⟨attempt.binding,some active.opening⟩) : (leg.hold held).Traces P Q where
  attempt active hactive attempt hattempt := by
    obtain ⟨before,hbefore,rfl⟩ := Option.map_eq_some_iff.mp hactive
    exact hheld before hbefore attempt hattempt
  synchronized := h.synchronized
  starts := h.starts

end RoomLeg.Traces

theorem upkeep_traces : RoomUpkeep fun room room' : RoomLeg T =>
    room.Traces P Q → room'.Traces P Q where
  trans _ _ _ hfirst hsecond h := hsecond (hfirst h)
  same room room' hsame h := by
    constructor
    · rw [hsame.active]
      exact h.attempt
    · rw [hsame.line]
      exact h.synchronized
    · rw [hsame.commands]
      exact h.starts
  tells events room hevents h := h.tell fun binding hmem => absurd (hevents _ hmem) id
  holds room h := h.hold (by simp)
  leaves active openings running room hactive h := by
    refine ⟨fun later hlater attempt hattempt => ?_,h.synchronized,h.starts⟩
    have hlater : active = some later := hlater
    simp [hlater,hattempt] at hactive
  loses room room' egress outgoing hdeparts h := by
    constructor
    · rw [hdeparts.active]
      exact h.attempt
    · intro binding hmem
      rw [hdeparts.line] at hmem
      apply h.synchronized binding
      rw [hdeparts.waited]
      simp only [List.mem_append,List.mem_cons] at hmem ⊢
      exact hmem.imp_right .inr
    · rw [hdeparts.commands]
      exact h.starts
  shutdown room h := by
    refine ⟨h.attempt,h.synchronized,fun binding hmem => h.starts binding ?_⟩
    simp only [RoomLeg.shutdown] at hmem
    split at hmem
    · simpa using hmem
    · exact hmem

namespace RoomLeg.Traces

theorem startBoardRepair (h : leg.Traces P Q) (turn : AttemptTurn)
    (hstart : ∀ active, leg.active = some active → active.boardRepair = none →
      P ⟨binding,some active.opening⟩) : (leg.startBoardRepair binding turn).2.Traces P Q := by
  unfold RoomLeg.startBoardRepair
  split
  · exact h
  rename_i hfree
  have hcounted : Traces P Q { leg with attempts := leg.attempts+1 } :=
    ⟨h.attempt,h.synchronized,h.starts⟩
  have hsent := hcounted.sendFrames ⟨binding,leg.attempts⟩ turn.frames
  dsimp only
  split
  · exact hsent
  · refine upkeep_traces.tellTerminal _ _ _ (hsent.hold fun active hactive attempt hattempt => ?_)
    cases hattempt
    have hactive : leg.active = some active := hactive
    apply hstart active hactive
    simpa [RoomLeg.attempt,hactive] using hfree

theorem observeBoardRepairFrame (h : leg.Traces P Q) (turn : AttemptTurn)
    (notices : List (RoomNotice T)) :
    (leg.observeBoardRepairFrame binding turn notices).2.Traces P Q := by
  unfold RoomLeg.observeBoardRepairFrame
  split
  · exact h
  split
  · exact h
  dsimp only
  split
  · exact h.sendFrames _ _
  · refine upkeep_traces.tellTerminal _ _ _ ?_
    exact upkeep_traces.tells _ _ (notices_aside notices) (h.sendFrames _ _)

theorem confirmBoardRepairClose (h : leg.Traces P Q) (answers : DriverAnswers T) :
    (leg.confirmBoardRepairClose binding answers).2.Traces P Q := by
  unfold RoomLeg.confirmBoardRepairClose
  split
  · rename_i attempt room hattempt hroom
    split
    · exact h
    rename_i hbinding
    rw [not_not] at hbinding
    have hheld : room.boardRepair = some attempt := by
      simpa [RoomLeg.attempt,hroom] using hattempt
    have hvouched : P ⟨binding,some room.opening⟩ := hbinding ▸ h.attempt room hroom attempt hheld
    have hfreed : (leg.hold none).Traces P Q := upkeep_traces.holds leg h
    dsimp only
    split
    · exact hfreed
    · refine hfreed.tell fun other hmem => ?_
      cases List.mem_append.mp hmem with
      | inl hnotice => exact absurd (notices_aside _ _ hnotice) id
      | inr hlast =>
        cases List.mem_singleton.mp hlast
        exact hvouched
    · have htold := upkeep_traces.tells _ _ (notices_aside answers.notices) hfreed
      refine htold.startBoardRepair answers.attempt fun active hactive _ => ?_
      obtain ⟨before,hbefore,rfl⟩ := Option.map_eq_some_iff.mp hactive
      obtain rfl := Option.some.inj (hroom.symm.trans hbefore)
      exact hvouched
  · exact h

theorem repairArm (h : leg.Traces P Q) (step : String)
    {handler : RoomLeg T → Option String × RoomLeg T}
    (hhandler : (handler leg).2.Traces P Q) :
    (leg.repairArm binding step handler).Traces P Q := by
  have htold : ∀ {leg : RoomLeg T} (text : String), leg.Traces P Q →
      ((leg.abortBoardRepair binding).tell [.boardRepairFailed binding text]).Traces P Q :=
    fun text hleg => upkeep_traces.tells _ _ (by simp [TransportEvent.Aside])
      (upkeep_traces.abort _ binding hleg)
  unfold RoomLeg.repairArm
  cases leg.active with
  | none => exact htold _ h
  | some room =>
    cases hrun : handler leg with
    | mk failed after =>
      rw [hrun] at hhandler
      cases failed with
      | none => exact hhandler
      | some error => exact htold _ hhandler

theorem handle (h : leg.Traces P Q) (answers : DriverAnswers T) (command : DriverCommand T)
    (hstart : ∀ binding, command = .startBoardRepair binding → ∀ active,
      leg.active = some active → active.boardRepair = none → P ⟨binding,some active.opening⟩) :
    (leg.handle answers command).Traces P Q := by
  have hnotices := upkeep_traces.tells _ leg (notices_aside answers.notices) h
  cases command with
  | configureIdentity identitySeed =>
    simp only [RoomLeg.handle]
    split
    · exact upkeep_traces.tells _ _ (by simp [TransportEvent.Aside]) h
    · exact ⟨h.attempt,h.synchronized,h.starts⟩
  | join name => exact upkeep_traces.join leg name answers h
  | leave => exact upkeep_traces.leave leg h
  | prepareBoardProvisioning binding =>
    simp only [RoomLeg.handle,RoomLeg.prepareBoardProvisioning]
    split
    · exact h.tell (by simp)
    split
    · exact h.tell (by simp)
    · exact h.tell (by simp)
  | startBoardRepair binding =>
    have hnoted : Traces P Q (leg.noteStart binding) := ⟨h.attempt,h.synchronized,h.starts⟩
    exact hnoted.repairArm "start" (hnoted.startBoardRepair _ (hstart binding rfl))
  | observeBoardRepairFrame binding frame =>
    exact h.repairArm "receive" (h.observeBoardRepairFrame _ _)
  | confirmBoardRepairClose binding =>
    exact h.repairArm "close confirmation" (h.confirmBoardRepairClose _)
  | abortBoardRepair binding => exact upkeep_traces.abort leg binding h
  | send midi => exact hnotices
  | roundTable frame => exact hnotices
  | boardEdit token frame settings pitchEdits => exact hnotices
  | pitchEdit token pitch active => exact hnotices
  | shutdown => exact upkeep_traces.stop leg h

theorem drive (h : leg.Traces P Q) (answers : DriverAnswers T)
    (hstart : ∀ start ∈ leg.starting, Q start.value → P start) :
    (leg.drive answers).Traces P Q := by
  unfold RoomLeg.drive
  split
  · exact h
  rename_i hfree
  simp only [not_or,not_not] at hfree
  split
  · exact upkeep_traces.stop leg h
  split
  · exact h
  · rename_i command commands hcommands
    have htaken : Traces P Q { leg with commands } := by
      refine ⟨h.attempt,h.synchronized,fun binding hmem => h.starts binding ?_⟩
      rw [hcommands]
      exact List.mem_cons_of_mem _ hmem
    refine htaken.handle answers command ?_
    rintro binding rfl active hactive hfresh
    have hactive : leg.active = some active := hactive
    refine hstart ⟨binding,some active.opening⟩ ?_ (h.starts binding (by simp [hcommands]))
    simp [RoomLeg.starting,hfree.2,hcommands,hactive,hfresh]

end RoomLeg.Traces

end Room

section Bridge

variable {polled : List (CarrierLegKind × TransportEvent T)}

/-- The room's and the session's state are vouched for, and so is each report of a ready link: the
router passed on that the room's attempt synchronized. -/
structure Chain (polled : List (CarrierLegKind × TransportEvent T)) (room : RoomLeg T)
    (board : BleLink L) : Prop where
  traces : room.Traces board.Provisioned (· ∈ board.placements)
  vouched : board.Vouched
  readied : ∀ readied ∈ board.readied, readied.Earned ∧
    (.room,.boardRepairSynchronized readied.binding) ∈ polled

/-- No placement has come twice so far. -/
def Chained (polled : List (CarrierLegKind × TransportEvent T)) (room : RoomLeg T)
    (board : BleLink L) : Prop :=
  board.placements.Nodup → Chain polled room board

namespace Chained

theorem follows (h : Chained polled room link) (hfollows : Follows link link') :
    Chained polled room link' := by
  intro hnodup
  have hbefore := h (hnodup.sublist hfollows.placements.sublist)
  constructor
  · exact hbefore.traces.mono (fun _ => hfollows.provisioned hnodup) fun _ hmem =>
      hfollows.placements.subset hmem
  · exact hfollows.vouched hbefore.vouched
  · rw [hfollows.readied]
    exact hbefore.readied

theorem boardRuns {program : LinkM L Unit} (h : Chained polled room board)
    (hprogram : Stays Follows program) : Chained polled room (stateAfter (program board)) :=
  Post.stateAfter ((hprogram board).mono (fun _ _ => h.follows) fun _ _ => h.follows)

theorem roomKeeps (h : Chained polled room board)
    (hroom : ∀ {P Q}, room.Traces P Q → room'.Traces P Q) : Chained polled room' board :=
  fun hnodup => ⟨hroom (h hnodup).traces,(h hnodup).vouched,(h hnodup).readied⟩

theorem commands (h : Chained polled room board) {command : DriverCommand T}
    (hstart : ∀ binding, command = .startBoardRepair binding → binding ∈ board.placements) :
    Chained polled (stateAfter (RoomLeg.command command room)) board := by
  unfold RoomLeg.command
  split
  · exact h
  split
  · intro hnodup
    obtain ⟨hroom,hboard,hreadied⟩ := h hnodup
    refine ⟨⟨hroom.attempt,hroom.synchronized,fun binding hmem => ?_⟩,hboard,hreadied⟩
    cases List.mem_append.mp hmem with
    | inl hold => exact hroom.starts binding hold
    | inr hnew => exact hstart binding (List.mem_singleton.mp hnew).symm
  · exact h

theorem edits (h : Chained polled room board) (token : Nat) {edit : DriverCommand T}
    (hedit : ∀ binding, edit ≠ .startBoardRepair binding) :
    Chained polled (stateAfter (RoomLeg.editCommand token edit room)) board := by
  have hasked := h.commands fun binding hsame => absurd hsame (hedit binding)
  refine @RoomLeg.stateAfter_editCommand T (Chained polled · board) room edit token hasked ?_
  exact fun after queued hafter => hafter.roomKeeps (upkeep_traces.same _ _ ⟨rfl,rfl,rfl,rfl⟩)

theorem roomHandles (h : Chained polled room board) (command : BridgeCommand T)
    (hstart : ∀ binding, command = .startBoardRepair binding → binding ∈ board.placements) :
    Chained polled (stateAfter (RoomLeg.handleCommand command room)) board := by
  cases command with
  | configureRoomIdentity identitySeed => exact h.commands (by simp)
  | selectRoom name => exact h.commands (by simp)
  | leaveRoom => exact h.commands (by simp)
  | prepareBoardProvisioning binding => exact h.commands (by simp)
  | startBoardRepair binding =>
    have hnoted : Chained polled (room.noteStart binding) board :=
      h.roomKeeps fun htraces => ⟨htraces.attempt,htraces.synchronized,htraces.starts⟩
    refine hnoted.commands fun other hsame => ?_
    cases hsame
    exact hstart binding rfl
  | observeBoardRepairFrame binding frame => exact h.commands (by simp)
  | confirmBoardRepairClose binding => exact h.commands (by simp)
  | abortBoardRepair binding => exact h.commands (by simp)
  | publishRoundTable frame => exact h.commands (by simp)
  | publishBoardEdit token frame settings pitchEdits => exact h.edits token (by simp)
  | setSharedPitch token pitch active => exact h.edits token (by simp)
  | _ => exact h

theorem completes {binding : Traced BoardSessionBinding} (h : Chained polled room board)
    (hpolled : (.room,.boardRepairSynchronized binding) ∈ polled)
    (hprovisioned : board.placements.Nodup → board.Provisioned binding) :
    Chained polled room (stateAfter (completeBoardRepair (L := L) binding board)) := by
  refine Post.stateAfter (Post.getting (Post.refuseIf (fun _ => h) fun hcurrent => ?_))
  simp only [not_or,not_not] at hcurrent
  have hready : Chained polled room { board with
      repairAwaitingConfirmation := none
      repairDeadline := none
      readied := board.readied ++ [⟨binding,board.facts⟩] } := by
    intro hnodup
    have hbefore := h hnodup
    have hfacts := hprovisioned hnodup
    refine ⟨hbefore.traces.mono (fun _ hsame => ?_) fun _ hmem => hmem,?_,?_⟩
    · exact ⟨hsame.room,hsame.placed,hsame.acknowledged⟩
    · exact ⟨hbefore.vouched.placed,by simp,hbefore.vouched.provisioned⟩
    · intro readied hmem
      cases List.mem_append.mp hmem with
      | inl hold => exact hbefore.readied readied hold
      | inr hnew =>
        obtain rfl := List.mem_singleton.mp hnew
        refine ⟨⟨hfacts.room,hfacts.acknowledged hcurrent.1,?_⟩,hpolled⟩
        exact hbefore.vouched.closed _ hcurrent.2
  exact hready.follows (.publish (by simp) _)

theorem boardHandles (hstable : L.SessionStable) (h : Chained polled room board)
    (command : BridgeCommand T) (hcompletes : ∀ binding, command = .completeBoardRepair binding →
      (.room,.boardRepairSynchronized binding) ∈ polled ∧
        (board.placements.Nodup → board.Provisioned binding)) :
    Chained polled room (stateAfter (handleLinkCommand command board)) := by
  have hupkeep := upkeep_follows hstable
  cases command with
  | sendBoardCapabilityBundle binding bundle =>
    refine h.boardRuns (hupkeep.sendCapabilityBundle binding bundle fun digest link => ?_)
    exact .of_same rfl rfl rfl rfl (.inl rfl) fun _ hmem => hmem
  | sendBoardRepairFrame binding frame =>
    refine h.boardRuns (hupkeep.sendBoardRepairFrame binding frame (fun link _ _ => ?_)
      fun link attempt _ _ _ => ?_)
    · exact .of_same rfl rfl rfl rfl (.inr rfl) fun _ hmem => hmem
    · exact .of_same rfl rfl rfl rfl (.inl rfl) fun _ hmem => hmem
  | forgetBoard identity =>
    refine h.boardRuns (hupkeep.forgetBoard identity fun link => ?_)
    exact .of_same rfl rfl rfl rfl (.inl rfl) fun _ hmem => hmem
  | completeBoardRepair binding =>
    obtain ⟨hpolled,hprovisioned⟩ := hcompletes binding rfl
    exact h.completes hpolled hprovisioned
  | _ => exact h.boardRuns (hupkeep.handleLinkCommand trivial)

theorem roomPolls (h : Chained polled room board) {event : Option (TransportEvent T)}
    (hpoll : room.pollEvent = (event,room')) :
    Chained polled room' board ∧ (board.placements.Nodup →
      ∀ binding, event = some (.boardRepairSynchronized binding) → board.Provisioned binding) := by
  have hline := room.pollEvent_line
  simp only [hpoll] at hline
  obtain ⟨taken,rfl,hline,hcommands,hactive,-⟩ | ⟨hsame,hidle⟩ := hline
  · constructor
    · refine h.roomKeeps fun htraces => ⟨?_,fun binding hmem => ?_,?_⟩
      · rw [hactive]
        exact htraces.attempt
      · apply htraces.synchronized binding
        rw [hline]
        exact List.mem_cons_of_mem _ hmem
      · rw [hcommands]
        exact htraces.starts
    · intro hnodup binding hevent
      apply (h hnodup).traces.synchronized binding
      simp [hline,Option.some.inj hevent]
  · refine ⟨h.roomKeeps (upkeep_traces.same _ _ hsame),fun _ binding hevent => ?_⟩
    exact absurd (hidle _ hevent) id

theorem boardPolls (hstable : L.SessionStable) (h : Chained polled room board)
    {event : Option (TransportEvent T)} (hpoll : board.pollEvent = (event,board')) :
    Chained polled room board' ∧ (board'.placements.Nodup →
      ∀ binding, event = some (.boardProvisioned binding) → binding ∈ board'.placements) := by
  have hupkeep := upkeep_follows hstable
  have htaken := hupkeep.pollEvent_taken board
  rw [hpoll] at htaken
  obtain ⟨middle,hmiddle,⟨rfl,rfl⟩ | ⟨⟨text,rfl⟩,hsame⟩⟩ := htaken
  · have hkept := h.follows hmiddle
    refine ⟨hkept.follows (hupkeep.takes middle),fun hnodup binding hevent => ?_⟩
    exact (hkept hnodup).vouched.provisioned binding (List.mem_of_mem_head? hevent)
  · refine ⟨(h.follows hmiddle).follows (hupkeep.aside _ _ hsame),fun _ binding hevent => ?_⟩
    simp at hevent

theorem plays (h : Chained polled room board) (toMidi : T.Midi → Except String T.Midi)
    (midi : T.Midi) :
    Chained polled (stateAfter (RoomLeg.sendRealtime toMidi midi room)) board := by
  unfold RoomLeg.sendRealtime
  cases toMidi midi with
  | ok played => exact h.commands (by simp)
  | error reason => exact h

end Chained

section Answered

variable {toMidi : T.Midi → Except String T.Midi} {router bridge : BoardBridge L}
  {event : CarrierLegKind × TransportEvent T}

theorem about_eq_some {asked other : CarrierLegKind × BridgeCommand T}
    (h : router.about binding other = some asked) : other = asked := by
  unfold CompositeTransport.about at h
  split at h
  · exact Option.some.inj h
  · cases h

theorem asksFor_start (h : router.asksFor event = some (.room,.startBoardRepair binding)) :
    event = (.board,.boardProvisioned binding) := by
  unfold CompositeTransport.asksFor at h
  split at h
  · simp at h
  · simp at h
  · cases about_eq_some h
  · cases about_eq_some h
  · cases about_eq_some h
  · cases about_eq_some h
  · cases about_eq_some h
  · simp at h
  · cases about_eq_some h
    rfl
  · cases about_eq_some h
  · cases about_eq_some h
  · simp at h
  · simp at h

theorem asksFor_complete {binding : Traced BoardSessionBinding}
    (h : router.asksFor event = some (.board,.completeBoardRepair binding)) :
    event = (.room,.boardRepairSynchronized binding) := by
  unfold CompositeTransport.asksFor at h
  split at h
  · simp at h
  · simp at h
  · cases about_eq_some h
  · cases about_eq_some h
  · cases about_eq_some h
  · cases about_eq_some h
  · cases about_eq_some h
    rfl
  · simp at h
  · cases about_eq_some h
  · cases about_eq_some h
  · cases about_eq_some h
  · simp at h
  · simp at h

theorem CompositeTransport.polled_askRoom (roomLeg : BridgeTransport T (RoomLeg T))
    (routing : Option (CarrierLegKind × TransportEvent T)) (command : BridgeCommand T)
    (router : BoardBridge L) :
    (router.askRoom roomLeg routing command).2.polled = router.polled := by
  unfold askRoom
  cases roomLeg.handleCommand command router.room <;> rfl

theorem CompositeTransport.polled_askBoard (boardLeg : BridgeTransport T (BleLink L))
    (routing : Option (CarrierLegKind × TransportEvent T)) (command : BridgeCommand T)
    (router : BoardBridge L) :
    (router.askBoard boardLeg routing command).2.polled = router.polled := by
  unfold askBoard
  cases boardLeg.handleCommand command router.board <;> rfl

theorem CompositeTransport.polled_start (roomLeg : BridgeTransport T (RoomLeg T))
    (boardLeg : BridgeTransport T (BleLink L)) (router : BoardBridge L) :
    (router.start roomLeg boardLeg).polled = router.polled := by
  unfold start
  cases roomLeg.start router.room <;> cases boardLeg.start router.board <;> rfl

theorem CompositeTransport.polled_sendRealtime (roomLeg : BridgeTransport T (RoomLeg T))
    (boardLeg : BridgeTransport T (BleLink L)) (midi : T.Midi) (router : BoardBridge L) :
    (router.sendRealtime roomLeg boardLeg midi).2.polled = router.polled := by
  unfold sendRealtime
  cases roomLeg.sendRealtime midi router.room with
  | ok done room => cases boardLeg.sendRealtime midi router.board <;> rfl
  | error roomError room =>
    cases boardLeg.sendRealtime midi router.board <;> cases roomError <;> rfl

theorem polled_pollEvent (roomLeg : BridgeTransport T (RoomLeg T))
    (boardLeg : BridgeTransport T (BleLink L)) (router : BoardBridge L) :
    (∀ event ∈ router.polled, event ∈ (router.pollEvent roomLeg boardLeg).2.polled) ∧
      (router.pending = [] → ∀ event middle,
        router.pollLegs roomLeg boardLeg = (some event,middle) →
          event ∈ (router.pollEvent roomLeg boardLeg).2.polled) := by
  have hpolled := (CompositeTransport.Tracks.pollLegs roomLeg boardLeg router).1
  unfold CompositeTransport.pollEvent
  split
  · rename_i hpending
    exact ⟨fun event hmem => hmem,by simp [hpending]⟩
  · split
    · rename_i middle hlegs
      rw [hlegs] at hpolled ⊢
      rw [hpolled]
      exact ⟨fun event hmem => hmem,by simp⟩
    · rename_i taken middle hlegs
      rw [hlegs] at hpolled ⊢
      obtain ⟨leg,event⟩ := taken
      cases leg with
      | room =>
        simp only [(Routed.room roomLeg boardLeg _ event).polled]
        exact ⟨fun _ hmem => List.mem_append_left _ (hpolled ▸ hmem),by simp⟩
      | board =>
        simp only [(Routed.board roomLeg boardLeg _ event).polled]
        exact ⟨fun _ hmem => List.mem_append_left _ (hpolled ▸ hmem),by simp⟩

/-- What is vouched for of an event that the router has taken. -/
def Heard (board : BleLink L) (event : CarrierLegKind × TransportEvent T) : Prop :=
  (∀ binding, event = (.room,.boardRepairSynchronized binding) → board.Provisioned binding) ∧
    ∀ binding, event = (.board,.boardProvisioned binding) → binding ∈ board.placements

namespace Chained

theorem later {more : List (CarrierLegKind × TransportEvent T)} (h : Chained polled room board)
    (hmore : ∀ event ∈ polled, event ∈ more) : Chained more room board := by
  intro hnodup
  refine ⟨(h hnodup).traces,(h hnodup).vouched,fun readied hmem => ?_⟩
  obtain ⟨hearned,hpolled⟩ := (h hnodup).readied readied hmem
  exact ⟨hearned,hmore _ hpolled⟩

theorem answers (hstable : L.SessionStable) (h : Chained polled router.room router.board)
    (hevent : event ∈ polled) (hheard : router.board.placements.Nodup → Heard router.board event) :
    CompositeTransport.Answers (roomLeg toMidi) (boardLeg L) router event (Chained polled) where
  rest := h
  room command hasks := by
    intro hnodup
    refine h.roomHandles command (fun binding hcommand => ?_) hnodup
    subst hcommand
    exact (hheard hnodup).2 binding (asksFor_start hasks)
  board command hasks := by
    refine h.boardHandles hstable command fun binding hcommand => ?_
    subst hcommand
    obtain rfl := asksFor_complete hasks
    exact ⟨hevent,fun hnodup => (hheard hnodup).1 binding rfl⟩
  abortRoom binding room board hrest := hrest.roomHandles (.abortBoardRepair binding) (by simp)
  abortBoard binding room board hrest :=
    hrest.boardHandles hstable (.abortBoardRepair binding) (by simp)
  playRoom midi room board hrest := hrest.plays toMidi midi
  playBoard midi room board hrest :=
    hrest.boardRuns ((upkeep_follows hstable).sendLinkRealtime midi)

theorem poll (hstable : L.SessionStable) (h : Chained bridge.polled bridge.room bridge.board) :
    Chained (bridge.step toMidi .poll).polled (bridge.step toMidi .poll).room
      (bridge.step toMidi .poll).board := by
  obtain ⟨hkept,htaken⟩ := polled_pollEvent (roomLeg toMidi) (boardLeg L) bridge
  have hlater : CompositeTransport.Holds (Chained (bridge.step toMidi .poll).polled) bridge :=
    h.later hkept
  have hgoal : CompositeTransport.Holds (Chained (bridge.step toMidi .poll).polled)
      (bridge.pollEvent (roomLeg toMidi) (boardLeg L)).2 := by
    refine hlater.poll (fun hnone => ?_) (fun hpending polled hsome => ?_) rfl
    · obtain ⟨hroom,hboard⟩ := CompositeTransport.pollLegs_none hnone
      exact ((h.later hkept).roomPolls hroom).1.boardPolls hstable hboard |>.1
    · have hmem := htaken hpending polled _ hsome
      obtain ⟨leg,event⟩ := polled
      cases leg with
      | room =>
        obtain ⟨hroom,hboard,-⟩ := CompositeTransport.pollLegs_room hsome
        obtain ⟨hafter,hheard⟩ := (h.later hkept).roomPolls hroom
        have hfollows : Follows bridge.board
            (bridge.pollLegs (roomLeg toMidi) (boardLeg L)).2.board := by
          cases hboard with
          | inl hsame =>
            rw [hsame]
            exact (upkeep_follows hstable).refl _
          | inr hnone =>
            have hpoll := (upkeep_follows hstable).pollEvent bridge.board
            rwa [show bridge.board.pollEvent = _ from hnone] at hpoll
        refine (hafter.follows hfollows).answers hstable hmem fun hnodup => ⟨?_,by simp⟩
        rintro binding hevent
        cases hevent
        exact hfollows.provisioned hnodup
          (hheard (hnodup.sublist hfollows.placements.sublist) binding rfl)
      | board =>
        obtain ⟨hboard,hroom,-⟩ := CompositeTransport.pollLegs_board hsome
        obtain ⟨hafter,hheard⟩ := (h.later hkept).boardPolls hstable hboard
        refine answers hstable ?_ hmem fun hnodup => ⟨by simp,?_⟩
        · cases hroom with
          | inl hsame =>
            simp only [CompositeTransport.heard,hsame]
            exact hafter
          | inr hnone => exact (hafter.roomPolls hnone).1
        · rintro binding hevent
          cases hevent
          exact hheard hnodup binding rfl
  exact hgoal

theorem ask (hstable : L.SessionStable) (h : Chained bridge.polled bridge.room bridge.board)
    {command : BridgeCommand T} (hcommand : command.binding = none) :
    Chained (bridge.step toMidi (.command command)).polled
      (bridge.step toMidi (.command command)).room
      (bridge.step toMidi (.command command)).board := by
  simp only [BoardBridge.step,CompositeTransport.handleCommand]
  split
  · obtain ⟨hroom,hboard⟩ := CompositeTransport.askRoom_legs (roomLeg toMidi) none command bridge
    rw [hroom,hboard,CompositeTransport.polled_askRoom]
    refine h.roomHandles command fun binding hstart => ?_
    simp [hstart,BridgeCommand.binding] at hcommand
  · obtain ⟨hboard,hroom⟩ := CompositeTransport.askBoard_legs (boardLeg L) none command bridge
    rw [hroom,hboard,CompositeTransport.polled_askBoard]
    refine h.boardHandles hstable command fun binding hcompletes => ?_
    simp [hcompletes,BridgeCommand.binding] at hcommand

theorem step (hstable : L.SessionStable) (h : Chained bridge.polled bridge.room bridge.board)
    {next : BridgeStep L} (hmeets : bridge.MeetsReady next) :
    Chained (bridge.step toMidi next).polled (bridge.step toMidi next).room
      (bridge.step toMidi next).board := by
  have hupkeep := upkeep_follows hstable
  cases next with
  | start =>
    obtain ⟨hroom,hboard,-⟩ := CompositeTransport.start_legs (roomLeg toMidi) (boardLeg L) bridge
    simp only [BoardBridge.step,hroom,hboard,CompositeTransport.polled_start]
    exact h.boardRuns hupkeep.reportTrusted
  | command command => exact h.ask hstable hmeets
  | realtime midi =>
    obtain ⟨hroom,hboard,-⟩ :=
      CompositeTransport.sendRealtime_legs (roomLeg toMidi) (boardLeg L) bridge midi
    simp only [BoardBridge.step,hroom,hboard,CompositeTransport.polled_sendRealtime]
    exact (h.plays toMidi midi).boardRuns (hupkeep.sendLinkRealtime midi)
  | poll => exact h.poll hstable
  | drive answers =>
    intro hnodup
    obtain ⟨htraces,hvouched,hreadied⟩ := h hnodup
    refine ⟨htraces.drive answers fun start hstart hplaced => ?_,hvouched,hreadied⟩
    refine ⟨RoomLeg.starting_origin hstart,hplaced,?_⟩
    exact hmeets start hstart
  | lose => exact h.roomKeeps (upkeep_traces.lose _)
  | observe notices => exact h.roomKeeps (upkeep_traces.observe _ notices)
  | emit => exact h.roomKeeps (upkeep_traces.emit _)
  | shutdown => exact (h.roomKeeps (upkeep_traces.shutdown _)).follows (hupkeep.shutdown _)
  | hostMoves host => exact h.follows (hupkeep.aside _ _ (by constructor <;> rfl))
  | clock now => exact h.follows (hupkeep.aside _ _ (by constructor <;> rfl))

theorem run (hstable : L.SessionStable) (h : Chained bridge.polled bridge.room bridge.board)
    {steps : List (BridgeStep L)} (hmeets : bridge.MeetsReadyThroughout toMidi steps) :
    Chained (bridge.run toMidi steps).polled (bridge.run toMidi steps).room
      (bridge.run toMidi steps).board := by
  induction steps generalizing bridge with
  | nil => exact h
  | cons next steps ih => exact ih (h.step hstable hmeets.1) hmeets.2

theorem new (hunused : link.Unused) (identitySeed : Digest) :
    Chained (BoardBridge.new identitySeed link).polled (BoardBridge.new identitySeed link).room
      (BoardBridge.new identitySeed link).board := by
  intro _
  constructor
  · constructor
    · simp [BoardBridge.new]
    · simp [BoardBridge.new,RoomLeg.line]
    · simp [BoardBridge.new]
  · constructor
    · simp [Placed,BoardBridge.new,BleLink.currentBoardBinding,hunused.codec]
    · simp [BoardBridge.new,hunused.awaiting]
    · simp [BoardBridge.new,hunused.events]
  · simp [BoardBridge.new,hunused.readied]

end Chained

end Answered

end Bridge

section Ready

/-- The session says that the board is ready only after the whole chain of one room. -/
theorem ready_after_repair_chain (hstable : L.SessionStable)
    {toMidi : T.Midi → Except String T.Midi} {host : L.Host} {config : BleLinkConfig}
    (hnew : BleLink.new host config = .ok link) {identitySeed : Digest}
    {steps : List (BridgeStep L)}
    (hmeets : (BoardBridge.new identitySeed link).MeetsReadyThroughout toMidi steps)
    (hfresh : ((BoardBridge.new identitySeed link).run toMidi steps).board.placements.Nodup) :
    ∀ readied ∈ ((BoardBridge.new identitySeed link).run toMidi steps).board.readied,
      readied.Earned ∧ (.room,.boardRepairSynchronized readied.binding) ∈
        ((BoardBridge.new identitySeed link).run toMidi steps).polled :=
  ((Chained.new (new_unused hnew) identitySeed).run hstable hmeets hfresh).readied

/-- The attempt is terminal at its first turn, and its close synchronizes. -/
def endAnswers (frames : List Bytes) : DriverAnswers plainTypes :=
  ⟨.ok (),.ok [5,2],⟨frames,.ok true⟩,.ok true,[]⟩

def provisioning : List (BridgeStep plainBle) :=
  pump 4 ++ [.drive (fineAnswers [5,1] [])] ++ pump 2

/-- The board acknowledges the bundle, and the router hears of it. -/
def acknowledging : List (BridgeStep plainBle) := [.hostMoves [.notification [0,1,1]],.poll]

/-- The repair begins with one frame, and both sides finish it. -/
def finishing : List (BridgeStep plainBle) :=
  [.drive (endAnswers [[9]])] ++ pump 4 ++
    [.hostMoves [.notification [0,2],.notification [0,3],.writeComplete 6]] ++ pump 5 ++
    [.drive (endAnswers [])] ++ pump 4

def repairedSteps : List (BridgeStep plainBle) :=
  boardSteps ++ roomSteps "a" ++ provisioning ++ acknowledging ++ finishing

def repairedReport : Readied := ⟨⟨⟨5,1,7⟩,some 0⟩,⟨[⟨⟨5,1,7⟩,some 0⟩],[⟨5,1,7⟩]⟩⟩

theorem ready_after_repair_chain_repaired :
    repairedReport ∈ ((BoardBridge.new 1 freshLink).run .ok repairedSteps).board.readied ∧
      repairedReport.Earned := by
  have hmem : repairedReport ∈
      ((BoardBridge.new 1 freshLink).run .ok repairedSteps).board.readied := by decide +kernel
  have hmeets : (BoardBridge.new 1 freshLink).MeetsReadyThroughout .ok repairedSteps := by
    decide +kernel
  have hfresh : ((BoardBridge.new 1 freshLink).run .ok repairedSteps).board.placements.Nodup := by
    decide +kernel
  exact ⟨hmem,(ready_after_repair_chain (fun _ _ _ => rfl) new_freshLink hmeets hfresh _ hmem).1⟩

/-- Another room is joined before the router hears that the board has the first room's bundle. -/
def replacedSteps : List (BridgeStep plainBle) :=
  boardSteps ++ roomSteps "a" ++ provisioning ++ [.command (.selectRoom "b")] ++ acknowledging ++
    [.drive (endAnswers [])] ++ pump 8 ++ finishing ++ [.drive (endAnswers [])] ++ pump 4

/-- The board holds no bundle of the room that the report is about. -/
def replacedReport : Readied := ⟨⟨⟨5,1,7⟩,some 1⟩,⟨[⟨⟨5,1,7⟩,some 0⟩],[⟨5,1,7⟩]⟩⟩

theorem replaced_room_reports_ready :
    ¬ ∀ (host : List BleHostEvent) (config : BleLinkConfig) (link : BleLink plainBle)
      (steps : List (BridgeStep plainBle)), BleLink.new host config = .ok link →
        steps.all BridgeStep.unbound →
          ((BoardBridge.new 1 link).run .ok steps).board.placements.Nodup →
            ∀ readied ∈ ((BoardBridge.new 1 link).run .ok steps).board.readied,
              readied.Earned := by
  intro h
  have hmem : replacedReport ∈
      ((BoardBridge.new 1 freshLink).run .ok replacedSteps).board.readied := by decide +kernel
  have hfresh : ((BoardBridge.new 1 freshLink).run .ok replacedSteps).board.placements.Nodup := by
    decide +kernel
  have hearned := h [] plainConfig freshLink replacedSteps new_freshLink (by decide +kernel) hfresh
    _ hmem
  have hbundle := hearned.acknowledged
  simp [replacedReport] at hbundle

end Ready

end WalkieSongie.Carrier
