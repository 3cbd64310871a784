import Mathlib.Algebra.BigOperators.Group.List.Basic
import WalkieSongie.RoomUpkeep
set_option autoImplicit false

/-!
One attempt of the room for each attempt of the carrier: a round of provisioning and repair is a
token that is in one place at a time, as long as the next round waits for the end of the last.
-/

namespace WalkieSongie.Carrier
open TaskProgram
open BleLink

variable {T : RealtimeTypes} {L : BleLibrary T} {binding : BoardSessionBinding}
  {room room' : RoomLeg T} {link link' board board' : BleLink L} {hand : List (TransportEvent T)}

section Token

variable (binding)

def TransportEvent.token : TransportEvent T → Nat
  | .boardCapabilityBundlePrepared other _ | .boardProvisioned other =>
    if other = binding then 1 else 0
  | _ => 0

def DriverCommand.token : DriverCommand T → Nat
  | .prepareBoardProvisioning other | .startBoardRepair other => if other = binding then 1 else 0
  | _ => 0

def tokens (events : List (TransportEvent T)) : Nat :=
  (events.map (TransportEvent.token binding)).sum

@[simp] theorem tokens_nil : tokens binding ([] : List (TransportEvent T)) = 0 := rfl

@[simp] theorem tokens_cons (event : TransportEvent T) (events : List (TransportEvent T)) :
    tokens binding (event :: events) = event.token binding+tokens binding events := by
  simp [tokens]

@[simp] theorem tokens_append (first second : List (TransportEvent T)) :
    tokens binding (first ++ second) = tokens binding first+tokens binding second := by
  simp [tokens]

@[simp] theorem tokens_outbound (other : BoardSessionBinding) (origin : Option Nat)
    (frames : List Bytes) : tokens binding (frames.map fun frame =>
      .boardRepairOutbound other ⟨frame,origin⟩ : List (TransportEvent T)) = 0 := by
  induction frames with
  | nil => rfl
  | cons frame frames ih => simp [TransportEvent.token,ih]

theorem tokens_tail (events : List (TransportEvent T)) :
    tokens binding events.tail ≤ tokens binding events := by
  cases events with
  | nil => rfl
  | cons event events => simp

/-- The round is under way at the room, and no attempt of it is held yet. -/
def RoomLeg.early (leg : RoomLeg T) : Nat :=
  (leg.commands.map (DriverCommand.token binding)).sum+tokens binding leg.line

def RoomLeg.held (leg : RoomLeg T) : Nat :=
  if leg.attempt.map RoomAttempt.binding = some binding then 1 else 0

def BleLink.owes (link : BleLink L) : Nat :=
  tokens binding link.events+
    if link.pendingProvisioning.map (fun waiting => waiting.value.1) = some binding then 1 else 0

end Token

/-- The board's session lets go of a round or passes it on, and opens no carrier attempt. -/
structure Settles (link link' : BleLink L) : Prop where
  owes : ∀ binding, link'.owes binding ≤ link.owes binding
  carried : link'.carried = link.carried
  carriers : link'.carriers = link.carriers
  close : ∀ attempt, link'.repairClose = some attempt → ∃ earlier,
    link.repairClose = some earlier ∧ earlier.binding = attempt.binding ∧
      earlier.number = attempt.number

namespace Settles

theorem of_same (hevents : link'.events = link.events)
    (hpending : link'.pendingProvisioning = link.pendingProvisioning)
    (hcarried : link'.carried = link.carried) (hcarriers : link'.carriers = link.carriers)
    (hclose : link'.repairClose = link.repairClose ∨ link'.repairClose = none) :
    Settles link link' := by
  refine ⟨fun binding => by rw [BleLink.owes,BleLink.owes,hevents,hpending],hcarried,hcarriers,?_⟩
  intro attempt hattempt
  cases hclose with
  | inl hsame => exact ⟨attempt,hsame ▸ hattempt,rfl,rfl⟩
  | inr hnone => simp [hnone] at hattempt

theorem trans {middle : BleLink L} (h : Settles link middle) (h' : Settles middle link') :
    Settles link link' := by
  refine ⟨fun binding => (h'.owes binding).trans (h.owes binding),h'.carried.trans h.carried,
    h'.carriers.trans h.carriers,fun attempt hattempt => ?_⟩
  obtain ⟨later,hlater,hbinding,hnumber⟩ := h'.close attempt hattempt
  obtain ⟨earlier,hearlier,hbinding',hnumber'⟩ := h.close later hlater
  exact ⟨earlier,hearlier,hbinding'.trans hbinding,hnumber'.trans hnumber⟩

theorem owes_publish (binding : BoardSessionBinding) (event : TransportEvent T)
    (link : BleLink L) :
    (publish event link).owes binding ≤ link.owes binding+event.token binding := by
  have htail := tokens_tail binding link.events
  unfold publish
  split
  · simp only [BleLink.owes,tokens_append,tokens_cons,tokens_nil]
    omega
  · simp only [BleLink.owes,tokens_append,tokens_cons,tokens_nil]
    omega

theorem publish_fields (event : TransportEvent T) (link : BleLink L) :
    (publish event link).carried = link.carried ∧ (publish event link).carriers = link.carriers ∧
      (publish event link).repairClose = link.repairClose := by
  unfold publish
  split <;> exact ⟨rfl,rfl,rfl⟩

theorem publish {event : TransportEvent T} (hevent : ∀ binding, event.token binding = 0)
    (link : BleLink L) : Settles link (BleLink.publish event link) := by
  obtain ⟨hcarried,hcarriers,hclose⟩ := publish_fields event link
  refine ⟨fun binding => ?_,hcarried,hcarriers,fun attempt hattempt => ?_⟩
  · have howes := owes_publish binding event link
    rw [hevent] at howes
    exact howes
  · exact ⟨attempt,hclose ▸ hattempt,rfl,rfl⟩

end Settles

theorem upkeep_settles : Upkeep (L := L) Settles where
  refl link := .of_same rfl rfl rfl rfl (.inl rfl)
  trans first second third h h' := h.trans h'
  aside link link' h := .of_same h.events h.pendingProvisioning h.carried h.carriers
    (.inl h.repairClose)
  codec link codec after hcodec hstep := .of_same rfl rfl rfl rfl (.inl rfl)
  exchanged link codec hcodec := .of_same rfl rfl rfl rfl (.inl rfl)
  plain event link hevent := by
    refine Settles.publish (fun binding => ?_) link
    cases event <;> first | rfl | exact absurd hevent id
  inbound binding frame link := by
    refine ⟨fun other => ?_,rfl,rfl,fun attempt hattempt => ⟨attempt,hattempt,rfl,rfl⟩⟩
    simp [BleLink.owes,TransportEvent.token]
  takes link := by
    refine ⟨fun binding => ?_,rfl,rfl,fun attempt hattempt => ⟨attempt,hattempt,rfl,rfl⟩⟩
    have htail := tokens_tail binding link.events
    simp only [BleLink.owes]
    omega
  observes link attempt close hclose := by
    refine ⟨fun _ => le_rfl,rfl,rfl,fun later hlater => ⟨attempt,hclose,?_,?_⟩⟩
    · cases hlater
      rfl
    · cases hlater
      rfl
  closing link attempt hclose := by
    refine Settles.trans ?_ (Settles.publish (fun _ => rfl) _)
    exact .of_same rfl rfl rfl rfl (.inr rfl)
  reset hello link := by
    refine ⟨fun binding => ?_,rfl,rfl,by simp [resetSession]⟩
    simp [BleLink.owes,resetSession]
  ended link := by
    refine ⟨fun binding => ?_,rfl,rfl,by simp [BleLink.ended]⟩
    simp [BleLink.owes,BleLink.ended]
  pend pending hello link hhello htrusted := .of_same rfl rfl rfl rfl (.inl rfl)
  unpend link := .of_same rfl rfl rfl rfl (.inl rfl)
  hello hello link hhello hpending hcodec := .of_same rfl rfl rfl rfl (.inl rfl)
  authenticated codec remote pending link hpending hremote := .of_same rfl rfl rfl rfl (.inl rfl)
  confirmed link waiting hwaiting hcurrent := by
    have hpassed : ∀ binding, (link.confirmed waiting).owes binding ≤ link.owes binding := by
      intro binding
      refine (Settles.owes_publish binding _ _).trans ?_
      simp only [BleLink.owes,hwaiting,Option.map_some,Option.map_none,Option.some.injEq,
        TransportEvent.token,reduceCtorEq,if_false]
      omega
    obtain ⟨hcarried,hcarriers,hclose⟩ := Settles.publish_fields
      (.boardProvisioned waiting.value.1 : TransportEvent T) { link with
        pendingProvisioning := none
        facts := { link.facts with
          acknowledged := link.facts.acknowledged ++ [⟨waiting.value.1,waiting.origin⟩] } }
    exact ⟨hpassed,hcarried,hcarriers,fun attempt hattempt =>
      ⟨attempt,hclose ▸ hattempt,rfl,rfl⟩⟩
  trusts identity link := .of_same rfl rfl rfl rfl (.inl rfl)
  configures trusted link hhello hpending hcodec := .of_same rfl rfl rfl rfl (.inl rfl)

/-- The room's driver lets go of a round or passes it on, and begins no attempt. -/
structure Eases (room room' : RoomLeg T) : Prop where
  early : ∀ binding, room'.early binding ≤ room.early binding
  attempt : ∀ attempt, room'.attempt = some attempt → room.attempt = some attempt
  outbound : ∀ binding frame, .boardRepairOutbound binding frame ∈ room'.line →
    .boardRepairOutbound binding frame ∈ room.line
  starts : room'.starts = room.starts

namespace Eases

theorem trans {middle : RoomLeg T} (h : Eases room middle) (h' : Eases middle room') :
    Eases room room' :=
  ⟨fun binding => (h'.early binding).trans (h.early binding),
    fun attempt hattempt => h.attempt attempt (h'.attempt attempt hattempt),
    fun binding frame hframe => h.outbound binding frame (h'.outbound binding frame hframe),
    h'.starts.trans h.starts⟩

theorem of_same (h : room.SameRoom room') : Eases room room' := by
  refine ⟨fun binding => ?_,fun attempt hattempt => ?_,fun binding frame hframe => ?_,h.starts⟩
  · rw [RoomLeg.early,RoomLeg.early,h.commands,h.line]
  · rwa [RoomLeg.attempt,h.active] at hattempt
  · rwa [h.line] at hframe

end Eases

section Line

/-- The event carries neither a round nor a frame of it. -/
def TransportEvent.Quiet : TransportEvent T → Prop
  | .boardCapabilityBundlePrepared _ _ | .boardProvisioned _ | .boardRepairOutbound _ _ => False
  | _ => True

def Quiet (events : List (TransportEvent T)) : Prop := ∀ event ∈ events, event.Quiet

theorem TransportEvent.Quiet.token {event : TransportEvent T} (h : event.Quiet)
    (binding : BoardSessionBinding) : event.token binding = 0 := by
  cases event <;> first | rfl | exact absurd h id

theorem Quiet.tokens {events : List (TransportEvent T)} (h : Quiet events)
    (binding : BoardSessionBinding) : tokens binding events = 0 := by
  refine List.sum_eq_zero fun count hcount => ?_
  obtain ⟨event,hmem,rfl⟩ := List.mem_map.mp hcount
  exact (h event hmem).token binding

theorem quiet_notices (notices : List (RoomNotice T)) :
    Quiet (notices.map RoomNotice.event) := by
  intro event hmem
  obtain ⟨notice,-,rfl⟩ := List.mem_map.mp hmem
  cases notice <;> trivial

@[simp] theorem quiet_append {first second : List (TransportEvent T)} :
    Quiet (first ++ second) ↔ Quiet first ∧ Quiet second := by
  simp only [Quiet,List.mem_append]
  exact ⟨fun h => ⟨fun event hmem => h event (.inl hmem),fun event hmem => h event (.inr hmem)⟩,
    fun h event hmem => hmem.elim (h.1 event) (h.2 event)⟩

namespace Eases

theorem tell {events : List (TransportEvent T)} (h : Quiet events) (room : RoomLeg T) :
    Eases room (room.tell events) := by
  refine ⟨fun binding => ?_,fun _ hattempt => hattempt,fun binding frame hframe => ?_,rfl⟩
  · simp only [RoomLeg.early,RoomLeg.line_tell,tokens_append,h.tokens]
    exact le_rfl
  · rw [RoomLeg.line_tell] at hframe
    cases List.mem_append.mp hframe with
    | inl hmem => exact hmem
    | inr hmem => exact absurd (h _ hmem) id

theorem hold (room : RoomLeg T) : Eases room (room.hold none) := by
  refine ⟨fun _ => le_rfl,fun attempt hattempt => ?_,fun _ _ hframe => hframe,rfl⟩
  have hnone := room.attempt_hold none attempt hattempt
  simp at hnone

end Eases

theorem TransportEvent.Aside.quiet {event : TransportEvent T} (h : event.Aside) :
    event.Quiet := by
  cases event <;> trivial

theorem upkeep_eases : RoomUpkeep (T := T) Eases where
  trans _ _ _ := Eases.trans
  same _ _ := Eases.of_same
  tells _ room hevents := .tell (fun event hmem => (hevents event hmem).quiet) room
  holds := Eases.hold
  leaves active openings running room hactive := by
    refine ⟨fun _ => le_rfl,fun attempt hattempt => ?_,fun _ _ hframe => hframe,rfl⟩
    simp only [RoomLeg.attempt,hactive] at hattempt
    cases hattempt
  loses room room' egress outgoing hdeparts := by
    refine ⟨fun binding => ?_,fun attempt hattempt => ?_,fun binding frame hframe => ?_,
      hdeparts.starts⟩
    · simp only [RoomLeg.early,hdeparts.commands,hdeparts.waited,hdeparts.line,tokens_append,
        tokens_cons]
      omega
    · rwa [RoomLeg.attempt,hdeparts.active] at hattempt
    · rw [hdeparts.line] at hframe
      rw [hdeparts.waited]
      simp only [List.mem_append,List.mem_cons] at hframe ⊢
      exact hframe.imp_right .inr
  shutdown room := by
    refine ⟨fun binding => ?_,fun _ hattempt => hattempt,fun _ _ hframe => hframe,rfl⟩
    simp only [RoomLeg.early,RoomLeg.shutdown]
    split
    · simp [DriverCommand.token,RoomLeg.line]
    · exact le_rfl

end Line

section Invariant

/-- A frame of the attempt is on its way to the board, the room holds the attempt, or the carrier's
attempt has taken frames of it. -/
def Origin (binding : BoardSessionBinding) (origin : Option Nat) (hand : List (TransportEvent T))
    (room : RoomLeg T) (board : BleLink L) : Prop :=
  (∃ frame, .boardRepairOutbound binding frame ∈ hand ++ room.line ∧ frame.origin = origin) ∨
  (∃ attempt, room.attempt = some attempt ∧ attempt.binding = binding ∧
    some attempt.number = origin) ∨
  ∃ attempt, board.repairClose = some attempt ∧ attempt.binding = binding ∧
    ∃ frame, (attempt.number,frame) ∈ board.carried ∧ frame.origin = origin

/-- A round of a placement is in one place; before its attempt nothing is left of an earlier one;
and from there on to the carrier everything comes from one attempt. -/
structure OneAttempt (hand : List (TransportEvent T)) (room : RoomLeg T) (board : BleLink L) :
    Prop where
  token : ∀ binding, room.early binding+room.held binding+board.owes binding+
    tokens binding hand ≤ 1
  fresh : ∀ binding, 0 < room.early binding+board.owes binding+tokens binding hand →
    ∀ origin, ¬ Origin binding origin hand room board
  single : ∀ binding origin other, Origin binding origin hand room board →
    Origin binding other hand room board → origin = other
  attempted : ∀ binding origin, Origin binding origin hand room board → origin.isSome
  numbered : (∀ entry ∈ board.carried, entry.1 < board.carriers) ∧
    ∀ attempt, board.repairClose = some attempt → attempt.number < board.carriers
  carried : (∀ entry ∈ board.carried, entry.2.origin.isSome) ∧
    ∀ entry ∈ board.carried, ∀ other ∈ board.carried, entry.1 = other.1 →
      entry.2.origin = other.2.origin
  starts : ∀ start ∈ room.starts, start.2 ≠ some start.1

theorem held_le (h : ∀ attempt, room'.attempt = some attempt → room.attempt = some attempt)
    (binding : BoardSessionBinding) : room'.held binding ≤ room.held binding := by
  unfold RoomLeg.held
  by_cases hheld : room'.attempt.map RoomAttempt.binding = some binding
  · obtain ⟨attempt,hattempt,hbinding⟩ := Option.map_eq_some_iff.mp hheld
    simp [h attempt hattempt,hbinding,hattempt]
  · simp [hheld]

/-- Rounds are passed on or let go, and with them what comes from their attempts. -/
structure Passes (hand hand' : List (TransportEvent T)) (room room' : RoomLeg T)
    (board board' : BleLink L) : Prop where
  rounds : ∀ binding, room'.early binding+board'.owes binding+tokens binding hand' ≤
    room.early binding+board.owes binding+tokens binding hand
  attempt : ∀ attempt, room'.attempt = some attempt → room.attempt = some attempt
  outbound : ∀ binding frame, .boardRepairOutbound binding frame ∈ hand' ++ room'.line →
    Origin binding frame.origin hand room board
  carried : board'.carried = board.carried
  carriers : board'.carriers = board.carriers
  close : ∀ attempt, board'.repairClose = some attempt → ∃ earlier,
    board.repairClose = some earlier ∧ earlier.binding = attempt.binding ∧
      earlier.number = attempt.number

variable {hand' : List (TransportEvent T)}

theorem Passes.origin (h : Passes hand hand' room room' board board') {origin : Option Nat}
    (horigin : Origin binding origin hand' room' board') :
    Origin binding origin hand room board := by
  obtain ⟨frame,hframe,hsame⟩ | ⟨attempt,hattempt,hsame⟩ |
    ⟨attempt,hclose,hbinding,frame,hframe,hsame⟩ := horigin
  · exact hsame ▸ h.outbound _ _ hframe
  · exact .inr (.inl ⟨attempt,h.attempt attempt hattempt,hsame⟩)
  · obtain ⟨earlier,hearlier,hother,hnumber⟩ := h.close attempt hclose
    rw [h.carried,← hnumber] at hframe
    exact .inr (.inr ⟨earlier,hearlier,hother.trans hbinding,frame,hframe,hsame⟩)

namespace OneAttempt

theorem passes (h : OneAttempt hand room board)
    (hpasses : Passes hand hand' room room' board board')
    (hstarts : ∀ start ∈ room'.starts, start.2 ≠ some start.1) :
    OneAttempt hand' room' board' := by
  constructor
  · intro binding
    have htoken := h.token binding
    have hrounds := hpasses.rounds binding
    have hheld := held_le hpasses.attempt binding
    omega
  · intro binding hsome origin hfound
    have hrounds := hpasses.rounds binding
    exact h.fresh binding (by omega) origin (hpasses.origin hfound)
  · intro binding origin other hfirst hsecond
    exact h.single binding origin other (hpasses.origin hfirst) (hpasses.origin hsecond)
  · intro binding origin hfound
    exact h.attempted binding origin (hpasses.origin hfound)
  · rw [hpasses.carried,hpasses.carriers]
    refine ⟨h.numbered.1,fun attempt hattempt => ?_⟩
    obtain ⟨earlier,hearlier,-,hnumber⟩ := hpasses.close attempt hattempt
    exact hnumber ▸ h.numbered.2 earlier hearlier
  · rw [hpasses.carried]
    exact h.carried
  · exact hstarts

theorem roomEases (h : OneAttempt hand room board) (hroom : Eases room room') :
    OneAttempt hand room' board := by
  refine h.passes ⟨fun binding => ?_,hroom.attempt,fun binding frame hframe => ?_,rfl,rfl,?_⟩ ?_
  · have hearly := hroom.early binding
    omega
  · refine .inl ⟨frame,?_,rfl⟩
    simp only [List.mem_append] at hframe ⊢
    exact hframe.imp_right (hroom.outbound binding frame)
  · exact fun attempt hattempt => ⟨attempt,hattempt,rfl,rfl⟩
  · rw [hroom.starts]
    exact h.starts

theorem boardSettles (h : OneAttempt hand room link) (hboard : Settles link link') :
    OneAttempt hand room link' := by
  refine h.passes ⟨fun binding => ?_,fun _ hattempt => hattempt,fun _ frame hframe =>
    .inl ⟨frame,hframe,rfl⟩,hboard.carried,hboard.carriers,hboard.close⟩ h.starts
  have howes := hboard.owes binding
  omega

theorem drop (h : OneAttempt hand room board) : OneAttempt [] room board := by
  refine h.passes ⟨fun binding => ?_,fun _ hattempt => hattempt,fun binding frame hframe => ?_,
    rfl,rfl,fun attempt hattempt => ⟨attempt,hattempt,rfl,rfl⟩⟩ h.starts
  · simp
  · simp only [List.nil_append] at hframe
    exact .inl ⟨frame,List.mem_append_right _ hframe,rfl⟩

end OneAttempt

end Invariant

section Driver

variable {leg leg' : RoomLeg T} {commands : List (DriverCommand T)} {command : DriverCommand T}
  {attempt : RoomAttempt}

def TransportEvent.outbound : TransportEvent T → Option BoardSessionBinding
  | .boardRepairOutbound binding _ => some binding
  | _ => none

/-- Nothing of an attempt for the placement is on the line, held or with the carrier. -/
def Clear (binding : BoardSessionBinding) (room : RoomLeg T) (board : BleLink L) : Prop :=
  (∀ event ∈ room.line, event.outbound ≠ some binding) ∧
  room.attempt.map RoomAttempt.binding ≠ some binding ∧
  ∀ attempt ∈ board.repairClose, attempt.binding = binding →
    ∀ entry ∈ board.carried, entry.1 ≠ attempt.number

instance : Decidable (Clear binding room board) := inferInstanceAs (Decidable (_ ∧ _ ∧ _))

theorem Clear.origin (h : Clear binding room board) (origin : Option Nat) :
    ¬ Origin binding origin [] room board := by
  obtain ⟨hline,hheld,hcarrier⟩ := h
  rintro (⟨frame,hframe,-⟩ | ⟨attempt,hattempt,hbinding,-⟩ |
    ⟨attempt,hclose,hbinding,frame,hframe,-⟩)
  · exact hline _ hframe rfl
  · exact hheld (by simp [hattempt,hbinding])
  · exact hcarrier attempt hclose hbinding _ hframe rfl

def RoundOver (binding : BoardSessionBinding) (room : RoomLeg T) (board : BleLink L) : Prop :=
  room.early binding = 0 ∧ board.owes binding = 0 ∧ Clear binding room board

instance : Decidable (RoundOver binding room board) := inferInstanceAs (Decidable (_ ∧ _ ∧ _))

/-- The placement whose attempt the next command ends. -/
def RoomLeg.closes (leg : RoomLeg T) : Option BoardSessionBinding :=
  match leg.outgoing,leg.commands with
  | [],.confirmBoardRepairClose binding :: _ =>
    if leg.attempt.map RoomAttempt.binding = some binding then some binding else none
  | _,_ => none

/-- The close that is confirmed did not synchronize. -/
def DriverAnswers.restarts (answers : DriverAnswers T) : Bool :=
  match answers.synchronized with
  | .ok false => true
  | _ => false

def DriverCommand.round : DriverCommand T → List (TransportEvent T)
  | .prepareBoardProvisioning binding | .startBoardRepair binding => [.boardProvisioned binding]
  | _ => []

theorem DriverCommand.tokens_round (command : DriverCommand T) (binding : BoardSessionBinding) :
    tokens binding command.round = command.token binding := by
  cases command <;> rfl

theorem DriverCommand.round_outbound (command : DriverCommand T) (binding : BoardSessionBinding)
    (frame : Traced Bytes) : .boardRepairOutbound binding frame ∉ command.round := by
  cases command <;> simp [round]

namespace OneAttempt

theorem begins (h : OneAttempt [] room board) (hover : RoundOver binding room board) :
    OneAttempt [.boardProvisioned binding] room board := by
  obtain ⟨hearly,howes,hclear⟩ := hover
  have hheld : room.held binding = 0 := if_neg hclear.2.1
  have horigin : ∀ {other origin}, Origin other origin [.boardProvisioned binding] room board →
      Origin other origin [] room board := by
    intro other origin hfound
    refine hfound.imp_left ?_
    rintro ⟨frame,hframe,hsame⟩
    exact ⟨frame,by simpa using hframe,hsame⟩
  constructor
  · intro other
    have htoken := h.token other
    simp only [tokens_cons,tokens_nil,TransportEvent.token] at htoken ⊢
    split
    · subst other
      rw [hearly,hheld,howes]
    · omega
  · intro other hsome origin hfound
    by_cases hother : binding = other
    · subst other
      exact hclear.origin origin (horigin hfound)
    · refine h.fresh other ?_ origin (horigin hfound)
      simpa [TransportEvent.token,hother] using hsome
  · exact fun other origin second hfirst hsecond =>
      h.single other origin second (horigin hfirst) (horigin hsecond)
  · exact fun other origin hfound => h.attempted other origin (horigin hfound)
  · exact h.numbered
  · exact h.carried
  · exact h.starts

theorem pops (h : OneAttempt [] room board) (hcommands : room.commands = command :: commands) :
    OneAttempt command.round { room with commands } board := by
  refine h.passes ⟨fun binding => ?_,fun _ hattempt => hattempt,fun binding frame hframe => ?_,
    rfl,rfl,fun attempt hattempt => ⟨attempt,hattempt,rfl,rfl⟩⟩ h.starts
  · rw [command.tokens_round]
    simp only [RoomLeg.early,hcommands,List.map_cons,List.sum_cons,RoomLeg.line,tokens_nil]
    omega
  · cases List.mem_append.mp hframe with
    | inl hround => exact absurd hround (command.round_outbound binding frame)
    | inr hline => exact .inl ⟨frame,hline,rfl⟩

theorem notes (h : OneAttempt [.boardProvisioned binding] room board) :
    OneAttempt [.boardProvisioned binding] (room.noteStart binding) board := by
  refine h.passes ⟨fun _ => le_rfl,fun _ hattempt => hattempt,fun _ frame hframe =>
    .inl ⟨frame,hframe,rfl⟩,rfl,rfl,fun attempt hattempt => ⟨attempt,hattempt,rfl,rfl⟩⟩ ?_
  intro start hstart
  cases List.mem_append.mp hstart with
  | inl hold => exact h.starts start hold
  | inr hnew =>
    obtain rfl := List.mem_singleton.mp hnew
    have htoken := h.token binding
    simp only [tokens_cons,tokens_nil,TransportEvent.token,if_pos,RoomLeg.held] at htoken
    intro hheld
    rw [if_pos hheld] at htoken
    omega

theorem prepares (h : OneAttempt [.boardProvisioned binding] room board) (bundle : Traced Bytes) :
    OneAttempt [] (room.tell [.boardCapabilityBundlePrepared binding bundle]) board := by
  refine h.passes ⟨fun other => ?_,fun _ hattempt => hattempt,fun other frame hframe => ?_,
    rfl,rfl,fun attempt hattempt => ⟨attempt,hattempt,rfl,rfl⟩⟩ h.starts
  · simp only [RoomLeg.early,RoomLeg.line_tell,tokens_append,tokens_cons,tokens_nil,
      TransportEvent.token]
    exact le_of_eq (by simp only [RoomLeg.tell]; omega)
  · refine .inl ⟨frame,?_,rfl⟩
    simpa using hframe

theorem sends (h : OneAttempt hand room board) (hattempt : room.attempt = some attempt)
    (frames : List Bytes) : OneAttempt hand (room.sendFrames attempt frames) board := by
  refine h.passes ⟨fun other => ?_,fun _ hlater => hlater,fun other frame hframe => ?_,
    rfl,rfl,fun attempt hlater => ⟨attempt,hlater,rfl,rfl⟩⟩ h.starts
  · simp only [RoomLeg.early,RoomLeg.line_sendFrames,tokens_append,tokens_outbound]
    exact le_rfl
  · rw [RoomLeg.line_sendFrames,← List.append_assoc] at hframe
    cases List.mem_append.mp hframe with
    | inl hbefore => exact .inl ⟨frame,hbefore,rfl⟩
    | inr hnew =>
      obtain ⟨bytes,-,hsame⟩ := List.mem_map.mp hnew
      cases hsame
      exact .inr (.inl ⟨attempt,hattempt,rfl,rfl⟩)

/-- The round's attempt begins where nothing of an earlier one is left. -/
theorem begun (h : OneAttempt [.boardProvisioned binding] leg board) (number : Nat)
    (frames : List Bytes) (hcommands : leg'.commands = leg.commands)
    (hline : leg'.line = leg.line ++ frames.map fun frame =>
      .boardRepairOutbound binding ⟨frame,some number⟩)
    (hattempt : ∀ attempt, leg'.attempt = some attempt → attempt = ⟨binding,number⟩)
    (hstarts : leg'.starts = leg.starts) : OneAttempt [] leg' board := by
  have hfresh : ∀ origin, ¬ Origin binding origin [.boardProvisioned binding] leg board :=
    h.fresh binding (by simp [TransportEvent.token])
  have horigin : ∀ {other origin}, Origin other origin [] leg' board →
      (other = binding ∧ origin = some number) ∨
        Origin other origin [.boardProvisioned binding] leg board := by
    rintro other origin (⟨frame,hframe,rfl⟩ | ⟨attempt,hheld,rfl,rfl⟩ | hcarrier)
    · rw [List.nil_append,hline] at hframe
      cases List.mem_append.mp hframe with
      | inl hbefore => exact .inr (.inl ⟨frame,List.mem_append_right _ hbefore,rfl⟩)
      | inr hnew =>
        obtain ⟨bytes,-,hsame⟩ := List.mem_map.mp hnew
        cases hsame
        exact .inl ⟨rfl,rfl⟩
    · rw [hattempt attempt hheld]
      exact .inl ⟨rfl,rfl⟩
    · exact .inr (.inr (.inr hcarrier))
  have hearly : ∀ other, leg'.early other = leg.early other := by
    simp [RoomLeg.early,hcommands,hline]
  have hheld : ∀ other, leg'.held other ≤ if binding = other then 1 else 0 := by
    intro other
    unfold RoomLeg.held
    split
    · rename_i hsome
      obtain ⟨attempt,hlater,hbinding⟩ := Option.map_eq_some_iff.mp hsome
      rw [hattempt attempt hlater] at hbinding
      simp only at hbinding
      simp [hbinding]
    · exact Nat.zero_le _
  constructor
  · intro other
    have htoken := h.token other
    have hless := hheld other
    simp only [tokens_cons,tokens_nil,TransportEvent.token,hearly] at htoken ⊢
    omega
  · intro other hsome origin hfound
    have htoken := h.token binding
    simp only [tokens_cons,tokens_nil,TransportEvent.token,if_pos] at htoken
    simp only [hearly,tokens_nil,Nat.add_zero] at hsome
    cases horigin hfound with
    | inl hnew =>
      obtain ⟨rfl,-⟩ := hnew
      omega
    | inr hold => exact h.fresh other (by omega) origin hold
  · intro other first second hfirst hsecond
    cases horigin hfirst with
    | inl hnew =>
      obtain ⟨rfl,rfl⟩ := hnew
      cases horigin hsecond with
      | inl hsame => exact hsame.2.symm
      | inr hold => exact absurd hold (hfresh second)
    | inr hold =>
      cases horigin hsecond with
      | inl hnew =>
        obtain ⟨rfl,rfl⟩ := hnew
        exact absurd hold (hfresh first)
      | inr hother => exact h.single other first second hold hother
  · intro other origin hfound
    cases horigin hfound with
    | inl hnew =>
      rw [hnew.2]
      rfl
    | inr hold => exact h.attempted other origin hold
  · exact h.numbered
  · exact h.carried
  · rw [hstarts]
    exact h.starts

theorem started (h : OneAttempt [.boardProvisioned binding] leg board) (turn : AttemptTurn) :
    OneAttempt [] (leg.startBoardRepair binding turn).2 board := by
  unfold RoomLeg.startBoardRepair
  split
  · exact h.drop
  rename_i hfree
  rw [Bool.not_eq_true,Option.isSome_eq_false_iff,Option.isNone_iff_eq_none] at hfree
  dsimp only
  split
  · refine h.begun leg.attempts turn.frames rfl (RoomLeg.line_sendFrames _ _) ?_ rfl
    intro attempt hattempt
    rw [RoomLeg.attempt_sendFrames] at hattempt
    exact absurd hattempt (by simp [RoomLeg.attempt,show leg.active.bind _ = none from hfree])
  · refine roomEases ?_ (upkeep_eases.tellTerminal _ _ _)
    refine h.begun leg.attempts turn.frames rfl ?_ (fun attempt hattempt => ?_) rfl
    · rw [RoomLeg.line_hold,RoomLeg.line_sendFrames]
      rfl
    exact (Option.some.inj (RoomLeg.attempt_hold _ _ _ hattempt)).symm

theorem repairArm (h : OneAttempt [] leg board) (step : String)
    {handler : RoomLeg T → Option String × RoomLeg T}
    (hhandler : OneAttempt [] (handler leg).2 board) :
    OneAttempt [] (leg.repairArm binding step handler) board := by
  have htold : ∀ {leg : RoomLeg T} (text : String), OneAttempt [] leg board →
      OneAttempt [] ((leg.abortBoardRepair binding).tell [.boardRepairFailed binding text])
        board := fun text hleg =>
    (hleg.roomEases (upkeep_eases.abort _ binding)).roomEases
      (.tell (by simp [Quiet,TransportEvent.Quiet]) _)
  unfold RoomLeg.repairArm
  cases leg.active with
  | none => exact htold _ h
  | some room =>
    cases hrun : handler leg with
    | mk failed after =>
      rw [hrun] at hhandler
      cases failed with
      | none => exact hhandler
      | some error => exact htold _ hhandler

theorem observes (h : OneAttempt [] leg board) (turn : AttemptTurn)
    (notices : List (RoomNotice T)) :
    OneAttempt [] (leg.observeBoardRepairFrame binding turn notices).2 board := by
  unfold RoomLeg.observeBoardRepairFrame
  split
  · exact h
  rename_i attempt hattempt
  split
  · exact h
  dsimp only
  split
  · exact h.sends hattempt _
  · have hsent := h.sends hattempt turn.frames
    exact (hsent.roomEases (.tell (quiet_notices notices) _)).roomEases
      (upkeep_eases.tellTerminal _ _ _)

theorem confirms (h : OneAttempt [] leg board) (answers : DriverAnswers T)
    (hclear : answers.synchronized = .ok false →
      leg.attempt.map RoomAttempt.binding = some binding → Clear binding (leg.hold none) board) :
    OneAttempt [] (leg.confirmBoardRepairClose binding answers).2 board := by
  have hheld := h.roomEases (.hold leg)
  unfold RoomLeg.confirmBoardRepairClose
  split
  · rename_i attempt room hattempt hroom
    split
    · exact h
    rename_i hbinding
    rw [not_not] at hbinding
    dsimp only
    split
    · exact hheld
    · refine hheld.roomEases (.tell ?_ _)
      simp only [quiet_append,quiet_notices,true_and]
      simp [Quiet,TransportEvent.Quiet]
    · rename_i hsynchronized
      have hnotices := Eases.tell (quiet_notices answers.notices) (leg.hold none)
      refine started (begins (hheld.roomEases hnotices) ?_) answers.attempt
      have htoken := h.token binding
      have hone : leg.held binding = 1 := by simp [RoomLeg.held,hattempt,hbinding]
      have hsame := (Eases.hold leg).early binding
      have hless := hnotices.early binding
      obtain ⟨hline,hnone,hcarrier⟩ := hclear hsynchronized (by simp [hattempt,hbinding])
      refine ⟨by omega,by omega,fun event hmem hevent => ?_,hnone,hcarrier⟩
      cases event with
      | boardRepairOutbound other frame => exact hline _ (hnotices.outbound other frame hmem) hevent
      | _ => cases hevent
  · exact h

theorem handles (answers : DriverAnswers T) (command : DriverCommand T)
    (h : OneAttempt command.round leg board)
    (hclear : ∀ binding, command = .confirmBoardRepairClose binding →
      answers.synchronized = .ok false → leg.attempt.map RoomAttempt.binding = some binding →
        Clear binding (leg.hold none) board) :
    OneAttempt [] (leg.handle answers command) board := by
  have hnotices := Eases.tell (quiet_notices answers.notices) leg
  cases command with
  | configureIdentity identitySeed =>
    simp only [RoomLeg.handle]
    split
    · exact h.roomEases (.tell (by simp [Quiet,TransportEvent.Quiet]) _)
    · exact h.roomEases (.of_same ⟨rfl,rfl,rfl,rfl⟩)
  | join name => exact h.roomEases (upkeep_eases.join leg name answers)
  | leave => exact h.roomEases (upkeep_eases.leave leg)
  | prepareBoardProvisioning binding =>
    simp only [RoomLeg.handle,RoomLeg.prepareBoardProvisioning]
    split
    · exact h.drop.roomEases (.tell (by simp [Quiet,TransportEvent.Quiet]) _)
    split
    · exact h.prepares _
    · exact h.drop.roomEases (.tell (by simp [Quiet,TransportEvent.Quiet]) _)
  | startBoardRepair binding => exact (notes h).drop.repairArm _ ((notes h).started _)
  | observeBoardRepairFrame binding frame => exact h.repairArm _ (h.observes _ _)
  | confirmBoardRepairClose binding =>
    exact h.repairArm _ (h.confirms answers (hclear binding rfl))
  | abortBoardRepair binding => exact h.roomEases (upkeep_eases.abort leg binding)
  | send midi => exact h.roomEases hnotices
  | roundTable frame => exact h.roomEases hnotices
  | boardEdit token frame settings pitchEdits => exact h.roomEases hnotices
  | pitchEdit token pitch active => exact h.roomEases hnotices
  | shutdown => exact h.roomEases (upkeep_eases.stop leg)

theorem drives (h : OneAttempt [] leg board) (answers : DriverAnswers T)
    (hclear : answers.restarts → ∀ binding ∈ leg.closes, Clear binding (leg.hold none) board) :
    OneAttempt [] (leg.drive answers) board := by
  unfold RoomLeg.drive
  split
  · exact h
  rename_i hfree
  simp only [not_or,not_not] at hfree
  split
  · exact h.roomEases (upkeep_eases.stop leg)
  split
  · exact h
  · rename_i command commands hcommands
    refine (h.pops hcommands).handles answers command fun binding hcommand hanswer hheld => ?_
    refine hclear (by simp [DriverAnswers.restarts,hanswer]) binding ?_
    have hheld' : leg.attempt.map RoomAttempt.binding = some binding := hheld
    simp [RoomLeg.closes,hfree.2,hcommands,hcommand,hheld']

end OneAttempt

end Driver

end WalkieSongie.Carrier
