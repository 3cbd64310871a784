import WalkieSongie.BleTrust
set_option autoImplicit false

/-!
The repair frames that a board's attempt counts, and the polls that deliver them.
-/

namespace WalkieSongie.Carrier
open TaskProgram
open Bridge (LinkState)
open BleLink

variable {T : RealtimeTypes} {L : BleLibrary T} {α : Type} {link : BleLink L}

/-- A frame of the board's that an attempt's count has taken. -/
structure Counted where
  attempt : Nat
  binding : BoardSessionBinding
  frame : Bytes
  deriving DecidableEq

def Counted.event (counted : Counted) : TransportEvent T :=
  .boardRepairInbound counted.binding counted.frame

/-- The handling of a repair frame as far as its count. -/
def observeFrame (sequence : UInt64) (frame : Bytes) : LinkM L Counted := do
  let link ← get
  stopIf (¬ link.remoteHello.any L.supportsRepair)
    (.transport "peer sent HHHS repair without advertising a repair driver")
  stopIf (link.remoteLaneProfile = none)
    (.transport "repair frame arrived before profile agreement")
  let limit := link.negotiatedRepairFrameBytes
  stopIf (limit < frame.length) (.transport
    s!"received BLE repair frame of {frame.length} bytes; negotiated limit is {limit}")
  let binding ← orElse link.currentBoardBinding
    (.transport "repair frame has no authenticated board placement")
  let attempt ← orElse link.repairClose
    (.transport "board sent repair before the room opened an attempt")
  stopIf (attempt.binding ≠ binding)
    (.transport "repair frame belongs to a stale board placement")
  onClose (L.observeRemoteRepair sequence)
  return ⟨attempt.number,binding,frame⟩

def observeWire (wire : Bytes) : LinkM L (Option Counted) := do
  match (← get).pending with
  | some _ => return none
  | none =>
    let message ← onCodec (.transport "unexpected pre-session notification") (L.decode wire)
    exchanges
    match message.lane with
    | .hhhsRepair => some <$> observeFrame message.sequence message.payload
    | _ => return none

def observeNotification (bytes : Bytes) : LinkM L (Option Counted) := do
  match ← onReassembler (L.push bytes) with
  | none => return none
  | some wire => observeWire wire

/-- The frame that an event of the host's makes an attempt count. -/
def countedBy (event : BleHostEvent) (link : BleLink L) : Option Counted :=
  match event with
  | .notification bytes =>
    match observeNotification bytes link with
    | .ok counted _ => counted
    | .error _ _ => none
  | _ => none

namespace BleLink

/-- The frames that the rounds of a poll make the attempts count. -/
def countedInLoop : Nat → BleLink L → List Counted
  | 0,_ => []
  | rounds+1,link =>
    match link.events with
    | _ :: _ => []
    | [] =>
      match L.pollHost link.host with
      | (none,_) => []
      | (some event,host) =>
        (countedBy event { link with host }).toList ++
          countedInLoop rounds (handleHostEvent event { link with host })

def countedInPoll (link : BleLink L) : List Counted :=
  if link.checkDeadline.droppedEvents ≠ 0 then [] else link.checkDeadline.countedInLoop 64

end BleLink

structure Poll (T : RealtimeTypes) where
  counted : List Counted
  event : Option (TransportEvent T)

def BleLink.polls (link : BleLink L) : List (LinkStep L) → List (Poll T)
  | [] => []
  | .poll :: steps =>
    ⟨link.countedInPoll,link.pollEvent.1⟩ :: (link.step .poll).polls steps
  | next :: steps => (link.step next).polls steps

def inboundFrame : TransportEvent T → Option (BoardSessionBinding × Bytes)
  | .boardRepairInbound binding frame => some (binding,frame)
  | _ => none

def Poll.delivered (poll : Poll T) : List (BoardSessionBinding × Bytes) :=
  poll.event.toList.filterMap inboundFrame

def BleLink.NoneWaiting (link : BleLink L) : Prop :=
  ∀ event ∈ link.events, inboundFrame event = none

theorem TransportEvent.Plain.no_frame {event : TransportEvent T} (h : event.Plain) :
    inboundFrame event = none := by
  cases event <;> first | rfl | exact absurd h id

theorem BleLink.NoneWaiting.publish (h : link.NoneWaiting) {event : TransportEvent T}
    (hevent : inboundFrame event = none) : (publish event link).NoneWaiting := by
  intro other hother
  unfold BleLink.publish at hother
  split at hother
  · rcases List.mem_append.mp hother with hold | hnew
    · exact h other (List.mem_of_mem_tail hold)
    · rwa [List.mem_singleton.mp hnew]
  · rcases List.mem_append.mp hother with hold | hnew
    · exact h other hold
    · rwa [List.mem_singleton.mp hnew]

/-- Nothing but a frame of the board's puts one into the queue. -/
theorem unprompted_noneWaiting :
    Unprompted (L := L) fun link link' => link.NoneWaiting → link'.NoneWaiting where
  refl _ h := h
  trans _ _ _ h h' hfirst := h' (h hfirst)
  aside link link' hsame h := by
    unfold BleLink.NoneWaiting
    rwa [hsame.events]
  codec _ _ _ _ _ h := h
  exchanged _ _ _ h := h
  plain event link hevent h := h.publish hevent.no_frame
  takes link h event hevent := h event (List.mem_of_mem_tail hevent)
  close _ _ _ _ _ h := h
  closing link attempt _ h := by
    have hkept : ({ link with
      repairClose := none
      repairAckWrite := none
      repairAwaitingConfirmation := some attempt.binding
      facts := { link.facts with closed := link.facts.closed ++ [attempt.binding] } } :
        BleLink L).NoneWaiting := h
    exact hkept.publish rfl
  reset _ _ h := h
  ended _ h := h
  pend _ _ _ _ _ h := h
  unpend _ h := h
  hello _ _ _ _ _ h := h
  authenticated _ _ _ _ _ _ h := h
  confirmed link waiting _ _ h := by
    have hkept : ({ link with
      pendingProvisioning := none
      facts := { link.facts with
        acknowledged := link.facts.acknowledged ++ [⟨waiting.value.1,waiting.origin⟩] } } :
        BleLink L).NoneWaiting := h
    exact hkept.publish rfl
  trusts _ _ h := h
  configures _ _ _ _ _ h := h

section Counting

/-- Whatever is only sent leads from one state to the other. -/
def OnlySends (link link' : BleLink L) : Prop :=
  ∀ R : BleLink L → BleLink L → Prop, Sends R → R link link'

theorem sends_onlySends : Sends (L := L) OnlySends where
  refl link _ h := h.refl link
  trans _ _ _ h h' _ hsends := hsends.trans _ _ _ (h _ hsends) (h' _ hsends)
  aside link link' hsame _ h := h.aside link link' hsame
  codec link codec after hcodec hstep _ h := h.codec link codec after hcodec hstep
  exchanged link codec hcodec _ h := h.exchanged link codec hcodec

/-- A relation that a frame keeps to, too, when its count refuses it. -/
structure Refusing (R : BleLink L → BleLink L → Prop) : Prop extends Unprompted R where
  refuses : ∀ link attempt sequence message close, link.repairClose = some attempt →
    L.observeRemoteRepair sequence attempt.close = .error message close →
      R link { link with repairClose := some { attempt with close } }

inductive Takes (counted : Counted) (link : BleLink L) : BleLink L → Prop where
  | intro (before : BleLink L) (attempt : CarrierAttempt L) (sequence : UInt64)
      (close : L.RepairCloseState) (sends : OnlySends link before)
      (opened : before.repairClose = some attempt) (number : attempt.number = counted.attempt)
      (takes : L.observeRemoteRepair sequence attempt.close = .ok () close) :
    Takes counted link { before with repairClose := some { attempt with close } }

theorem Takes.after {counted : Counted} {before after : BleLink L} (hsends : OnlySends link before)
    (h : Takes counted before after) : Takes counted link after := by
  obtain ⟨middle,attempt,sequence,close,hmiddle,hopened,hnumber,htakes⟩ := h
  exact ⟨middle,attempt,sequence,close,sends_onlySends.trans _ _ _ hsends hmiddle,hopened,hnumber,
    htakes⟩

theorem observeFrame_spec (sequence : UInt64) (frame : Bytes) (link : BleLink L) :
    Post (fun counted after => Takes counted link after)
      (fun _ after => ∀ R : BleLink L → BleLink L → Prop, Refusing R → R link after)
      (observeFrame sequence frame link) := by
  have hstays : ∀ R : BleLink L → BleLink L → Prop, Refusing R → R link link :=
    fun R h => h.refl link
  refine Post.getting (Post.refuseIf (fun _ => hstays) fun _ => ?_)
  refine Post.refuseIf (fun _ => hstays) fun _ => ?_
  refine Post.refuseIf (fun _ => hstays) fun _ => ?_
  refine post_orElse (fun _ => hstays) fun binding _ => ?_
  refine post_orElse (fun _ => hstays) fun attempt hattempt => ?_
  refine Post.refuseIf (fun _ => hstays) fun _ => ?_
  cases hrun : L.observeRemoteRepair sequence attempt.close with
  | ok done close =>
    have hclose : onClose (L.observeRemoteRepair sequence) link =
        .ok () { link with repairClose := some { attempt with close } } := by
      simp [onClose,hattempt,hrun]
    rw [bind_of_ok hclose]
    exact ⟨link,attempt,sequence,close,sends_onlySends.refl link,hattempt,rfl,hrun⟩
  | error message close =>
    have hclose : onClose (L.observeRemoteRepair sequence) link =
        .error (.transport message) { link with repairClose := some { attempt with close } } := by
      simp [onClose,hattempt,hrun]
    rw [bind_of_error hclose]
    exact fun R h => h.refuses link attempt sequence message close hattempt hrun

def deliverFrame (counted : Counted) : LinkM L Unit := do
  publishRepair counted.event
  maybeSendRepairAck

theorem handleRepairFrame_eq (sequence : UInt64) (frame : Bytes) :
    handleRepairFrame (L := L) sequence frame = observeFrame sequence frame >>= deliverFrame := by
  simp only [handleRepairFrame,observeFrame,bind_assoc,pure_bind]
  rfl

/-- Either a program's count takes a frame, and to deliver it is all that is left, or what it does
is quiet. -/
inductive Handles (observed : LinkM L (Option Counted)) (program : LinkM L Unit)
    (link : BleLink L) : Prop where
  | counts (counted : Counted) (after : BleLink L)
      (observes : observed link = .ok (some counted) after) (takes : Takes counted link after)
      (rest : program link = deliverFrame counted after)
  | passes (observes : ∀ counted after, observed link ≠ .ok (some counted) after)
      (quiet : ∀ R : BleLink L → BleLink L → Prop, Refusing R →
        Post (fun _ => R link) (fun _ => R link) (program link))

theorem handleRepairFrame_handles (sequence : UInt64) (frame : Bytes) (link : BleLink L) :
    Handles (some <$> observeFrame sequence frame) (handleRepairFrame sequence frame) link := by
  have hspec := observeFrame_spec sequence frame link
  rw [handleRepairFrame_eq,map_eq_pure_bind]
  cases hrun : observeFrame sequence frame link with
  | ok counted after =>
    rw [hrun] at hspec
    exact .counts counted after (bind_of_ok hrun) hspec (bind_of_ok hrun)
  | error error after =>
    rw [hrun] at hspec
    refine .passes ?_ ?_
    · intro counted other hother
      rw [bind_of_error hrun] at hother
      cases hother
    · intro R h
      rw [bind_of_error hrun]
      exact hspec R h

theorem Handles.bind {first : LinkM L α} {observed : α → LinkM L (Option Counted)}
    {program : α → LinkM L Unit} (hfirst : Stays OnlySends first)
    (hnext : ∀ value after, Handles (observed value) (program value) after) (link : BleLink L) :
    Handles (first >>= observed) (first >>= program) link := by
  have hsends := hfirst link
  cases hrun : first link with
  | ok value after =>
    rw [hrun] at hsends
    have hsends : OnlySends link after := hsends
    cases hnext value after with
    | counts counted last hobserves htakes hrest =>
      refine .counts counted last ?_ (htakes.after hsends) ?_
      · rw [bind_of_ok hrun,hobserves]
      · rw [bind_of_ok hrun,hrest]
    | passes hobserves hunprompted =>
      refine .passes ?_ ?_
      · rwa [bind_of_ok hrun]
      · intro R h
        rw [bind_of_ok hrun]
        exact h.after (hsends R h.toSends) (hunprompted R h)
  | error error after =>
    rw [hrun] at hsends
    refine .passes ?_ ?_
    · intro counted other hother
      rw [bind_of_error hrun] at hother
      cases hother
    · intro R h
      rw [bind_of_error hrun]
      exact hsends R h.toSends

theorem Handles.of_quiet {program : LinkM L Unit}
    (h : ∀ R : BleLink L → BleLink L → Prop, Refusing R →
      Post (fun _ => R link) (fun _ => R link) (program link)) :
    Handles (pure none) program link := by
  refine .passes ?_ h
  intro counted after hcounted
  cases hcounted

theorem Handles.congr {observed observed' : LinkM L (Option Counted)}
    {program program' : LinkM L Unit} (h : Handles observed program link)
    (hobserved : observed' link = observed link) (hprogram : program' link = program link) :
    Handles observed' program' link := by
  cases h with
  | counts counted after hobserves htakes hrest =>
    exact .counts counted after (hobserved.trans hobserves) htakes (hprogram.trans hrest)
  | passes hobserves hunprompted =>
    refine .passes ?_ ?_
    · rwa [hobserved]
    · rwa [hprogram]

theorem handleWire_handles (wire : Bytes) (link : BleLink L) :
    Handles (observeWire wire) (handleWire wire) link := by
  have hget : (get : LinkM L (BleLink L)) link = .ok link link := rfl
  cases hpending : link.pending with
  | some pending =>
    refine (Handles.of_quiet fun R h => h.completeHandshake wire hpending).congr ?_ ?_
    · rw [observeWire,bind_of_ok hget,hpending]
    · rw [handleWire,bind_of_ok hget,hpending]
  | none =>
    let received : LinkM L AuthenticatedMessage := do
      let message ← onCodec (.transport "unexpected pre-session notification") (L.decode wire)
      exchanges
      return message
    have hsends := sends_onlySends (L := L)
    have hreceived : Stays OnlySends received := by
      refine hsends.bind (hsends.onCodec _ fun codec after hleaves => ?_) fun message => ?_
      · exact .inr (.inl ⟨wire,hleaves⟩)
      · exact hsends.bind hsends.exchanges fun _ => hsends.pure _
    let observes : AuthenticatedMessage → LinkM L (Option Counted) := fun message =>
      match message.lane with
      | .hhhsRepair => some <$> observeFrame message.sequence message.payload
      | _ => return none
    obtain ⟨handles,hhandles,hlanes⟩ : ∃ handles : AuthenticatedMessage → LinkM L Unit,
        handleWire wire link = (received >>= handles) link ∧
        ∀ message after, Handles (observes message) (handles message) after := by
      refine ⟨?handles,?wire,fun message after => ?lane⟩
      case wire =>
        simp only [handleWire,received,bind_assoc,pure_bind]
        refine (bind_of_ok hget).trans ?_
        simp only [hpending]
        rfl
      case lane =>
        simp only [observes]
        cases message.lane with
        | control => exact Handles.of_quiet fun R h => h.handleRemoteControl _ _ after
        | realtime => exact Handles.of_quiet fun R h => h.handleRealtime _ after
        | hhhsRepair => exact handleRepairFrame_handles _ _ after
    refine (Handles.bind hreceived hlanes link).congr ?_ hhandles
    simp only [observeWire,received,bind_assoc,pure_bind]
    rw [bind_of_ok hget,hpending]

theorem handleNotification_handles (bytes : Bytes) (link : BleLink L) :
    Handles (observeNotification bytes) (handleNotification bytes) link := by
  have hpush := sends_onlySends.same (SameSession.onReassembler (L.push bytes))
  refine Handles.bind hpush (fun wire after => ?_) link
  cases wire with
  | none => exact Handles.of_quiet fun R h => h.pure _ after
  | some wire => exact handleWire_handles wire after

theorem sends_events : Sends (L := L) fun link link' => link'.events = link.events where
  refl _ := rfl
  trans _ _ _ h h' := h'.trans h
  aside _ _ hsame := hsame.events
  codec _ _ _ _ _ := rfl
  exchanged _ _ _ := rfl

theorem onClose_events (program : EStateM String L.RepairCloseState α) :
    Stays (fun link link' : BleLink L => link'.events = link.events) (onClose program) := by
  intro link
  unfold onClose
  cases hclose : link.repairClose with
  | none => exact (rfl : link.events = link.events)
  | some attempt =>
    dsimp only
    cases program attempt.close with
    | ok value close => exact (rfl : link.events = link.events)
    | error message close => exact (rfl : link.events = link.events)

theorem maybeSendRepairAck_events :
    Stays (fun link link' : BleLink L => link'.events = link.events) maybeSendRepairAck := by
  refine Stays.get fun link => ?_
  split
  · exact sends_events.pure _
  split
  · refine sends_events.bind (sends_events.orFail _) fun ack => ?_
    refine sends_events.bind (sends_events.sendAuthenticatedTrackedWithPriority _ _ _)
      fun sent => ?_
    exact sends_events.bind (onClose_events _) fun _ =>
      sends_events.modifies fun link => by constructor <;> rfl
  · exact sends_events.pure _

theorem Takes.events {counted : Counted} {after : BleLink L} (h : Takes counted link after) :
    after.events = link.events := by
  obtain ⟨before,attempt,sequence,close,hsends,hopened,hnumber,htakes⟩ := h
  exact hsends _ sends_events

/-- A frame that is counted comes into an empty queue, and stands first in it. -/
theorem deliverFrame_spec (counted : Counted) (hempty : link.events = []) :
    Post (fun _ after => after.events = [counted.event])
      (fun _ after => after.events = [counted.event]) (deliverFrame counted link) := by
  have hroom : ¬ link.events.length = transportEventCapacity := by
    simp [hempty,transportEventCapacity]
  refine Post.bind (R := fun _ after => after.events = [counted.event]) ?_ fun _ after hafter => ?_
  · refine Post.getting (Post.refuseIf (fun hfull => absurd hfull hroom) fun _ => ?_)
    change link.events ++ [counted.event] = [counted.event]
    rw [hempty]
    rfl
  · exact (maybeSendRepairAck_events after).mono (fun _ _ hevents => hevents.trans hafter)
      fun _ _ hevents => hevents.trans hafter

theorem deliverFrame_unprompted {R : BleLink L → BleLink L → Prop} (h : Unprompted R)
    (hinbound : ∀ binding frame link,
      R link { link with events := link.events ++ [.boardRepairInbound binding frame] })
    (counted : Counted) : Stays R (deliverFrame counted) := by
  refine h.bind (Stays.get fun _ => h.bind (h.stopIf _ _) fun _ => ?_) fun _ =>
    h.maybeSendRepairAck
  exact Stays.modifying (hinbound counted.binding counted.frame)

/-- The oldest event is this frame, and no other frame waits. -/
def BleLink.FrameFirst (link : BleLink L) (counted : Counted) : Prop :=
  ∃ told, link.events = counted.event :: told ∧ ∀ event ∈ told, inboundFrame event = none

theorem fail_frameFirst {counted : Counted} (text : String)
    (hevents : link.events = [counted.event]) : (link.fail text).FrameFirst counted := by
  have htold : (link.fail text).events =
      [counted.event,.boardLink .failed,.diagnostic text] := by
    unfold BleLink.fail
    dsimp only
    split <;> simp [publish,hevents,transportEventCapacity]
  refine ⟨[.boardLink .failed,.diagnostic text],htold,?_⟩
  simp [inboundFrame]

theorem countedBy_eq_some {event : BleHostEvent} {counted : Counted}
    (h : countedBy event link = some counted) : ∃ after, Takes counted link after ∧
      tryHostEvent event link = deliverFrame counted after := by
  cases event with
  | notification bytes =>
    simp only [countedBy] at h
    split at h
    · rename_i found after hobserves
      subst h
      cases handleNotification_handles bytes link with
      | passes hpasses hunprompted => exact absurd hobserves (hpasses counted after)
      | counts other last hother htakes hrest =>
        rw [hobserves] at hother
        cases hother
        exact ⟨after,htakes,hrest⟩
    · cases h
  | _ => cases h

theorem handleHostEvent_counts {event : BleHostEvent} {counted : Counted}
    (hcounted : countedBy event link = some counted) (hempty : link.events = []) :
    (handleHostEvent event link).FrameFirst counted := by
  obtain ⟨after,htakes,hevent⟩ := countedBy_eq_some hcounted
  have hdelivers := deliverFrame_spec counted (htakes.events.trans hempty)
  unfold handleHostEvent
  rw [hevent]
  cases hrun : deliverFrame counted after with
  | ok done last =>
    rw [hrun] at hdelivers
    exact ⟨[],hdelivers,by simp⟩
  | error error last =>
    rw [hrun] at hdelivers
    exact fail_frameFirst error.text hdelivers

theorem handleHostEvent_takes {R : BleLink L → BleLink L → Prop} (h : Unprompted R)
    (hinbound : ∀ binding frame link,
      R link { link with events := link.events ++ [.boardRepairInbound binding frame] })
    {event : BleHostEvent} {counted : Counted} (hcounted : countedBy event link = some counted) :
    ∃ after, Takes counted link after ∧ R after (handleHostEvent event link) := by
  obtain ⟨after,htakes,hevent⟩ := countedBy_eq_some hcounted
  have hdelivers := deliverFrame_unprompted h hinbound counted after
  refine ⟨after,htakes,?_⟩
  unfold handleHostEvent
  rw [hevent]
  cases hrun : deliverFrame counted after with
  | ok done last =>
    rw [hrun] at hdelivers
    exact hdelivers
  | error error last =>
    rw [hrun] at hdelivers
    exact h.trans _ _ _ hdelivers (h.fail _ last)

theorem tryHostEvent_passes {R : BleLink L → BleLink L → Prop} (h : Refusing R)
    {event : BleHostEvent} (hcounted : countedBy event link = none) :
    Post (fun _ => R link) (fun _ => R link) (tryHostEvent event link) := by
  cases event with
  | scanResult result => exact h.handleScanResult result link
  | connected address maxFragmentValueBytes => exact h.handleConnected _ link
  | disconnected address reason => exact h.handleDisconnected reason link
  | info bytes => exact h.handleInfo bytes link
  | notification bytes =>
    cases handleNotification_handles bytes link with
    | passes hpasses hunprompted => exact hunprompted R h
    | counts other last hother htakes hrest =>
      simp only [countedBy,hother] at hcounted
      cases hcounted
  | writeComplete messageId => exact h.handleWriteComplete messageId link
  | diagnostic text => exact h.report (by simp [TransportEvent.Plain]) link
  | permissionDenied => exact h.throw _ link
  | eventsDropped count => exact h.throw _ link
  | error error => exact h.throw _ link

theorem handleHostEvent_passes {R : BleLink L → BleLink L → Prop} (h : Refusing R)
    {event : BleHostEvent} (hcounted : countedBy event link = none) :
    R link (handleHostEvent event link) := by
  have hpasses := tryHostEvent_passes h hcounted
  unfold handleHostEvent
  cases hrun : tryHostEvent event link with
  | ok done after =>
    rw [hrun] at hpasses
    exact hpasses
  | error error after =>
    rw [hrun] at hpasses
    exact h.trans _ _ _ hpasses (h.fail _ after)

theorem refusing_noneWaiting :
    Refusing (L := L) fun link link' => link.NoneWaiting → link'.NoneWaiting where
  toUnprompted := unprompted_noneWaiting
  refuses _ _ _ _ _ _ _ h := h

end Counting

section Polling

/-- What a poll returns is what it counted, and nothing that was counted is left behind. -/
def Delivers (counted : List Counted) (taken : Option (TransportEvent T) × BleLink L) : Prop :=
  Poll.delivered ⟨counted,taken.1⟩ = counted.map (fun counted => (counted.binding,counted.frame)) ∧
    taken.2.NoneWaiting

theorem pollLoop_nonempty {event : TransportEvent T} {events : List (TransportEvent T)}
    (hevents : link.events = event :: events) (rounds : Nat) :
    link.pollLoop rounds = (some event,{ link with events }) := by
  cases rounds with
  | zero => simp [pollLoop,takeEvent,hevents]
  | succ rounds => simp [pollLoop,hevents]

theorem countedInLoop_nonempty {event : TransportEvent T} {events : List (TransportEvent T)}
    (hevents : link.events = event :: events) (rounds : Nat) : link.countedInLoop rounds = [] := by
  cases rounds with
  | zero => rfl
  | succ rounds => simp [countedInLoop,hevents]

theorem loop_idle {host : L.Host} (hevents : link.events = [])
    (hpoll : L.pollHost link.host = (none,host)) (rounds : Nat) :
    link.pollLoop (rounds+1) = (none,{ link with host }) ∧ link.countedInLoop (rounds+1) = [] := by
  simp [pollLoop,countedInLoop,hevents,hpoll]

theorem loop_handles {event : BleHostEvent} {host : L.Host} (hevents : link.events = [])
    (hpoll : L.pollHost link.host = (some event,host)) (rounds : Nat) :
    link.pollLoop (rounds+1) = pollLoop rounds (handleHostEvent event { link with host }) ∧
      link.countedInLoop (rounds+1) = (countedBy event { link with host }).toList ++
        countedInLoop rounds (handleHostEvent event { link with host }) := by
  simp [pollLoop,countedInLoop,hevents,hpoll]

theorem delivers_nothing {event : Option (TransportEvent T)} {after : BleLink L}
    (hevent : ∀ found, event = some found → inboundFrame found = none) (hnone : after.NoneWaiting) :
    Delivers [] (event,after) := by
  refine ⟨?_,hnone⟩
  cases event with
  | none => rfl
  | some found => simp [Poll.delivered,hevent found rfl]

/-- The host is only asked for an event when the queue is empty, so a frame that is counted is the
next to be taken. -/
theorem pollLoop_delivers (rounds : Nat) (hnone : link.NoneWaiting) :
    Delivers (link.countedInLoop rounds) (link.pollLoop rounds) := by
  induction rounds generalizing link with
  | zero =>
    refine delivers_nothing ?_ ?_
    · intro found hfound
      exact hnone found (List.mem_of_mem_head? hfound)
    · intro event hevent
      exact hnone event (List.mem_of_mem_tail hevent)
  | succ rounds ih =>
    cases hevents : link.events with
    | cons event events =>
      rw [pollLoop_nonempty hevents,countedInLoop_nonempty hevents]
      refine delivers_nothing ?_ ?_
      · rintro found ⟨⟩
        exact hnone event (by simp [hevents])
      · intro other hother
        exact hnone other (by simp [hevents,show other ∈ events from hother])
    | nil =>
      cases hpoll : L.pollHost link.host with
      | mk found host =>
        cases found with
        | none =>
          obtain ⟨hreturns,hidle⟩ := loop_idle hevents hpoll rounds
          rw [hidle,hreturns]
          exact delivers_nothing (by simp) hnone
        | some event =>
          obtain ⟨hreturns,hcounts⟩ := loop_handles hevents hpoll rounds
          rw [hcounts,hreturns]
          cases hcounted : countedBy event { link with host } with
          | none => exact ih (handleHostEvent_passes refusing_noneWaiting hcounted hnone)
          | some counted =>
            obtain ⟨told,htold,hplain⟩ := handleHostEvent_counts hcounted hevents
            rw [pollLoop_nonempty htold,countedInLoop_nonempty htold]
            exact ⟨rfl,hplain⟩

theorem pollEvent_delivers (hnone : link.NoneWaiting) :
    Delivers link.countedInPoll link.pollEvent := by
  have hdeadline := unprompted_noneWaiting.checkDeadline link hnone
  unfold countedInPoll pollEvent
  dsimp only
  split
  · exact delivers_nothing (by rintro found ⟨⟩; rfl) hdeadline
  · exact pollLoop_delivers 64 hdeadline

theorem noneWaiting_stateAfter {program : LinkM L α} (hnone : link.NoneWaiting)
    (hprogram : Stays (fun link link' : BleLink L => link.NoneWaiting → link'.NoneWaiting)
      program) : (stateAfter (program link)).NoneWaiting :=
  Post.stateAfter ((hprogram link).mono (fun _ _ hkeeps => hkeeps hnone)
    fun _ _ hkeeps => hkeeps hnone)

theorem handleLinkCommand_noneWaiting (command : BridgeCommand T) :
    Stays (fun link link' : BleLink L => link.NoneWaiting → link'.NoneWaiting)
      (handleLinkCommand command) := by
  have hunprompted := unprompted_noneWaiting (L := L)
  cases command with
  | forgetBoard identity => exact hunprompted.forgetBoard identity fun _ h => h
  | sendBoardCapabilityBundle binding bundle =>
    exact hunprompted.sendCapabilityBundle binding bundle fun _ _ h => h
  | sendBoardRepairFrame binding frame =>
    exact hunprompted.sendBoardRepairFrame binding frame (fun _ _ _ h => h) fun _ _ _ _ _ h => h
  | completeBoardRepair binding =>
    refine hunprompted.completeBoardRepair binding fun link _ _ h => ?_
    have hkept : ({ link with
      repairAwaitingConfirmation := none
      readied := link.readied ++ [⟨binding,link.facts⟩] } : BleLink L).NoneWaiting := h
    exact hkept.publish rfl
  | _ => exact hunprompted.handleLinkCommand trivial

theorem step_noneWaiting (hnone : link.NoneWaiting) (next : LinkStep L) :
    (link.step next).NoneWaiting := by
  cases next with
  | start => exact noneWaiting_stateAfter hnone unprompted_noneWaiting.reportTrusted
  | command command => exact noneWaiting_stateAfter hnone (handleLinkCommand_noneWaiting command)
  | realtime midi =>
    exact noneWaiting_stateAfter hnone (unprompted_noneWaiting.sendLinkRealtime midi)
  | poll => exact (pollEvent_delivers hnone).2
  | shutdown => exact unprompted_noneWaiting.shutdown link hnone
  | hostMoves host => exact hnone
  | clock now => exact hnone

theorem polls_deliver (hnone : link.NoneWaiting) (steps : List (LinkStep L)) :
    ∀ poll ∈ link.polls steps,
      poll.delivered = poll.counted.map fun counted => (counted.binding,counted.frame) := by
  induction steps generalizing link with
  | nil => simp [polls]
  | cons next steps ih =>
    have hlater := ih (step_noneWaiting hnone next)
    cases next with
    | poll =>
      intro poll hpoll
      rcases List.mem_cons.mp hpoll with rfl | hmem
      · exact (pollEvent_delivers hnone).1
      · exact hlater poll hmem
    | _ => exact hlater

end Polling

/-- What the closing of a repair makes of the board's frames: it counts what it accepts, and no
other call changes the count. -/
structure BleLibrary.CountsFrames (L : BleLibrary T) (received : L.RepairCloseState → Nat) :
    Prop where
  new : ∀ id, received (L.newClose id) = 0
  step : ∀ close after, L.CloseStep close after → received after = received close
  accepts : ∀ sequence close after, L.observeRemoteRepair sequence close = .ok () after →
    received after = received close+1
  refuses : ∀ sequence close message after,
    L.observeRemoteRepair sequence close = .error message after → received after = received close

def framesOf (attempt : Nat) (log : List Counted) : List Counted :=
  log.filter fun counted => counted.attempt = attempt

/-- The attempts are told apart, and the open one has counted its frames of the log. -/
structure BleLink.Agrees (received : L.RepairCloseState → Nat) (log : List Counted)
    (link : BleLink L) : Prop where
  known : ∀ counted ∈ log, counted.attempt < link.carriers
  number : ∀ attempt, link.repairClose = some attempt → attempt.number < link.carriers
  count : ∀ attempt, link.repairClose = some attempt →
    received attempt.close = (framesOf attempt.number log).length

section Agreement

variable {received : L.RepairCloseState → Nat} {log : List Counted} {link' : BleLink L}

theorem BleLink.Agrees.of_same (h : link.Agrees received log)
    (hcarriers : link'.carriers = link.carriers)
    (hclose : link'.repairClose = link.repairClose ∨ link'.repairClose = none) :
    link'.Agrees received log := by
  have hopen : ∀ attempt, link'.repairClose = some attempt → link.repairClose = some attempt := by
    intro attempt hattempt
    rcases hclose with hsame | hnone
    · rwa [← hsame]
    · rw [hnone] at hattempt
      cases hattempt
  constructor
  · intro counted hmem
    rw [hcarriers]
    exact h.known counted hmem
  · intro attempt hattempt
    rw [hcarriers]
    exact h.number attempt (hopen attempt hattempt)
  · intro attempt hattempt
    exact h.count attempt (hopen attempt hattempt)

theorem BleLink.Agrees.publish (h : link.Agrees received log) (event : TransportEvent T) :
    (publish event link).Agrees received log := by
  unfold BleLink.publish
  split
  · exact h.of_same rfl (.inl rfl)
  · exact h.of_same rfl (.inl rfl)

theorem BleLink.Agrees.closes (h : link.Agrees received log) {attempt : CarrierAttempt L}
    {close : L.RepairCloseState} (hopened : link.repairClose = some attempt)
    (hcount : received close = received attempt.close) :
    ({ link with repairClose := some { attempt with close } } : BleLink L).Agrees received log := by
  refine ⟨h.known,?_,?_⟩
  · rintro other ⟨⟩
    exact h.number attempt hopened
  · rintro other ⟨⟩
    exact hcount.trans (h.count attempt hopened)

theorem refusing_agrees (hcounts : L.CountsFrames received) (log : List Counted) :
    Refusing fun link link' : BleLink L =>
      link.Agrees received log → link'.Agrees received log where
  refl _ h := h
  trans _ _ _ h h' hfirst := h' (h hfirst)
  aside link link' hsame h := h.of_same hsame.carriers (.inl hsame.repairClose)
  codec _ _ _ _ _ h := h.of_same rfl (.inl rfl)
  exchanged _ _ _ h := h.of_same rfl (.inl rfl)
  plain event _ _ h := h.publish event
  takes _ h := h.of_same rfl (.inl rfl)
  close _ _ _ hopened hstep h := h.closes hopened (hcounts.step _ _ hstep)
  closing _ _ _ h := by
    refine BleLink.Agrees.publish ?_ _
    exact h.of_same rfl (.inr rfl)
  reset _ _ h := h.of_same rfl (.inr rfl)
  ended _ h := h.of_same rfl (.inr rfl)
  pend _ _ _ _ _ h := h.of_same rfl (.inl rfl)
  unpend _ h := h.of_same rfl (.inl rfl)
  hello _ _ _ _ _ h := h.of_same rfl (.inl rfl)
  authenticated _ _ _ _ _ _ h := h.of_same rfl (.inl rfl)
  confirmed _ _ _ _ h := by
    refine BleLink.Agrees.publish ?_ _
    exact h.of_same rfl (.inl rfl)
  trusts _ _ h := h.of_same rfl (.inl rfl)
  configures _ _ _ _ _ h := h.of_same rfl (.inl rfl)
  refuses _ _ _ _ _ hopened hrefused h := h.closes hopened (hcounts.refuses _ _ _ _ hrefused)

theorem BleLink.Agrees.opens (hcounts : L.CountsFrames received) (h : link.Agrees received log)
    (binding : BoardSessionBinding) (frame : Bytes) :
    (link.opened binding frame).Agrees received log := by
  refine ⟨fun counted hmem => Nat.lt_succ_of_lt (h.known counted hmem),?_,?_⟩
  · rintro attempt ⟨⟩
    exact Nat.lt_succ_self link.carriers
  · rintro attempt ⟨⟩
    have hunused : framesOf link.carriers log = [] := by
      refine List.filter_eq_nil_iff.mpr fun counted hmem => ?_
      simpa using (h.known counted hmem).ne
    simp [hunused,hcounts.new]

theorem Takes.agrees (hcounts : L.CountsFrames received) {counted : Counted}
    (htakes : Takes counted link link') (h : link.Agrees received log) :
    link'.Agrees received (log ++ [counted]) := by
  obtain ⟨before,attempt,sequence,close,hsends,hopened,hnumber,haccepts⟩ := htakes
  have hbefore := hsends _ (refusing_agrees hcounts log).toSends h
  refine ⟨?_,?_,?_⟩
  · intro other hother
    rcases List.mem_append.mp hother with hold | hnew
    · exact hbefore.known other hold
    · obtain rfl := List.mem_singleton.mp hnew
      exact hnumber ▸ hbefore.number attempt hopened
  · rintro other ⟨⟩
    exact hbefore.number attempt hopened
  · rintro other ⟨⟩
    have hframes : framesOf attempt.number (log ++ [counted]) =
        framesOf attempt.number log ++ [counted] := by
      simp [framesOf,hnumber]
    simp only
    rw [hframes,hcounts.accepts _ _ _ haccepts,hbefore.count attempt hopened]
    simp

theorem pollLoop_agrees (hcounts : L.CountsFrames received) (rounds : Nat)
    (h : link.Agrees received log) :
    (link.pollLoop rounds).2.Agrees received (log ++ link.countedInLoop rounds) := by
  induction rounds generalizing link log with
  | zero =>
    rw [show link.countedInLoop 0 = [] from rfl,List.append_nil]
    exact h.of_same rfl (.inl rfl)
  | succ rounds ih =>
    cases hevents : link.events with
    | cons event events =>
      rw [pollLoop_nonempty hevents,countedInLoop_nonempty hevents,List.append_nil]
      exact h.of_same rfl (.inl rfl)
    | nil =>
      cases hpoll : L.pollHost link.host with
      | mk found host =>
        cases found with
        | none =>
          obtain ⟨hreturns,hidle⟩ := loop_idle hevents hpoll rounds
          rw [hidle,hreturns,List.append_nil]
          exact h.of_same rfl (.inl rfl)
        | some event =>
          obtain ⟨hreturns,htook⟩ := loop_handles hevents hpoll rounds
          have hhost : ({ link with host } : BleLink L).Agrees received log :=
            h.of_same rfl (.inl rfl)
          rw [htook,hreturns,← List.append_assoc]
          apply ih
          cases htaken : countedBy event { link with host } with
          | none =>
            rw [Option.toList_none,List.append_nil]
            exact handleHostEvent_passes (refusing_agrees hcounts _) htaken hhost
          | some counted =>
            have hunprompted := (refusing_agrees hcounts (log ++ [counted])).toUnprompted
            obtain ⟨after,htakes,hkeeps⟩ := handleHostEvent_takes hunprompted
              (fun binding frame link hlink => hlink.of_same rfl (.inl rfl)) htaken
            exact hkeeps (htakes.agrees hcounts hhost)

theorem pollEvent_agrees (hcounts : L.CountsFrames received) (h : link.Agrees received log) :
    link.pollEvent.2.Agrees received (log ++ link.countedInPoll) := by
  have hdeadline := (refusing_agrees hcounts _).checkDeadline link h
  unfold pollEvent countedInPoll
  dsimp only
  split
  · rw [List.append_nil]
    exact hdeadline.of_same rfl (.inl rfl)
  · exact pollLoop_agrees hcounts 64 hdeadline

theorem handleLinkCommand_agrees (hcounts : L.CountsFrames received) (command : BridgeCommand T) :
    Stays (fun link link' : BleLink L => link.Agrees received log → link'.Agrees received log)
      (handleLinkCommand command) := by
  have hunprompted := (refusing_agrees hcounts log).toUnprompted
  cases command with
  | forgetBoard identity =>
    exact hunprompted.forgetBoard identity fun _ h => h.of_same rfl (.inl rfl)
  | sendBoardCapabilityBundle binding bundle =>
    exact hunprompted.sendCapabilityBundle binding bundle fun _ _ h => h.of_same rfl (.inl rfl)
  | sendBoardRepairFrame binding frame =>
    refine hunprompted.sendBoardRepairFrame binding frame ?_ ?_
    · exact fun link _ _ h => h.opens hcounts binding frame.value
    · exact fun link attempt _ _ _ h => h.of_same rfl (.inl rfl)
  | completeBoardRepair binding =>
    refine hunprompted.completeBoardRepair binding fun link _ _ h => BleLink.Agrees.publish ?_ _
    exact h.of_same rfl (.inl rfl)
  | _ => exact hunprompted.handleLinkCommand trivial

theorem step_agrees (hcounts : L.CountsFrames received) (h : link.Agrees received log)
    (next : LinkStep L) (steps : List (LinkStep L)) : ∃ counted : List Counted,
      (link.step next).Agrees received (log ++ counted) ∧
      (link.polls (next :: steps)).flatMap Poll.counted =
        counted ++ ((link.step next).polls steps).flatMap Poll.counted := by
  have hunprompted := refusing_agrees hcounts log
  cases next with
  | poll => exact ⟨link.countedInPoll,pollEvent_agrees hcounts h,rfl⟩
  | command command =>
    have hafter : (link.step (.command command)).Agrees received log :=
      Post.stateAfter ((handleLinkCommand_agrees hcounts command link).mono
        (fun _ _ hkeeps => hkeeps h) fun _ _ hkeeps => hkeeps h)
    exact ⟨[],by rwa [List.append_nil],rfl⟩
  | start =>
    have hafter : (link.step .start).Agrees received log := h.publish _
    exact ⟨[],by rwa [List.append_nil],rfl⟩
  | realtime midi =>
    have hafter : (link.step (.realtime midi)).Agrees received log :=
      Post.stateAfter ((hunprompted.sendLinkRealtime midi link).mono
        (fun _ _ hkeeps => hkeeps h) fun _ _ hkeeps => hkeeps h)
    exact ⟨[],by rwa [List.append_nil],rfl⟩
  | shutdown =>
    have hafter := hunprompted.shutdown link h
    exact ⟨[],by rwa [List.append_nil],rfl⟩
  | hostMoves host =>
    have hafter : (link.step (.hostMoves host)).Agrees received log := h.of_same rfl (.inl rfl)
    exact ⟨[],by rwa [List.append_nil],rfl⟩
  | clock now =>
    have hafter : (link.step (.clock now)).Agrees received log := h.of_same rfl (.inl rfl)
    exact ⟨[],by rwa [List.append_nil],rfl⟩

theorem run_agrees (hcounts : L.CountsFrames received) (h : link.Agrees received log)
    (steps : List (LinkStep L)) :
    (link.run steps).Agrees received (log ++ (link.polls steps).flatMap Poll.counted) := by
  induction steps generalizing link log with
  | nil => simpa [BleLink.polls,BleLink.run] using h
  | cons next steps ih =>
    obtain ⟨counted,hafter,htold⟩ := step_agrees hcounts h next steps
    rw [htold,← List.append_assoc]
    exact ih hafter

end Agreement

theorem run_noneWaiting (hnone : link.NoneWaiting) (steps : List (LinkStep L)) :
    (link.run steps).NoneWaiting := by
  induction steps generalizing link with
  | nil => exact hnone
  | cons next steps ih => exact ih (step_noneWaiting hnone next)

/-- Each poll returns the frame that it counted, if any, and no frame otherwise, so none waits
between two calls, and the closing of the open attempt has counted just its frames that were
delivered. -/
theorem counted_frames_delivered {host : L.Host} {config : BleLinkConfig}
    (hnew : BleLink.new host config = .ok link) (steps : List (LinkStep L)) :
    (∀ poll ∈ link.polls steps,
      poll.delivered = poll.counted.map fun counted => (counted.binding,counted.frame)) ∧
    (link.run steps).NoneWaiting ∧
    ∀ received : L.RepairCloseState → Nat, L.CountsFrames received →
      ∀ attempt, (link.run steps).repairClose = some attempt →
        received attempt.close = (framesOf attempt.number
          ((link.polls steps).flatMap Poll.counted)).length := by
  have hunused := new_unused hnew
  have hnone : link.NoneWaiting := by
    intro event hevent
    simp [hunused.events] at hevent
  refine ⟨polls_deliver hnone steps,run_noneWaiting hnone steps,?_⟩
  intro received hcounts attempt hattempt
  have hfresh : link.Agrees received [] := by
    constructor <;> simp [hunused.repairClose]
  exact (run_agrees hcounts hfresh steps).count attempt hattempt

section Delivered

/-- The established board, its profile agreed on, answers the room's first frame with two. -/
def repairSteps : List (LinkStep plainBle) :=
  greetedSteps ++ [.hostMoves [.notification [0,0]],.poll,.poll,.poll,.poll,
    .command (.sendBoardRepairFrame ⟨5,1,7⟩ ⟨[4],none⟩),.command .startBoardScan,.poll,
    .hostMoves [.notification [2,8],.notification [2,9]],.poll,.poll]

theorem plainBle_countsFrames : plainBle.CountsFrames PlainClose.taken where
  new _ := rfl
  step close after hstep := by
    cases hstep with
    | terminal => rfl
    | localRepair _ _ h | localFin _ _ h | remoteAck _ _ h | remoteFin _ _ _ h
    | localFinAck _ _ h | ackSent _ _ h =>
      obtain ⟨_,⟨⟩⟩ | ⟨_,⟨⟩⟩ := h
      rfl
  accepts _ close after h := by
    cases h
    rfl
  refuses _ _ _ _ h := by cases h

/-- Both frames are counted by the attempt and returned by the polls that counted them. -/
theorem counted_frames_delivered_two :
    (freshLink.polls repairSteps).flatMap Poll.counted = [⟨0,⟨5,1,7⟩,[8]⟩,⟨0,⟨5,1,7⟩,[9]⟩] ∧
      (∀ poll ∈ freshLink.polls repairSteps,
        poll.delivered = poll.counted.map fun counted => (counted.binding,counted.frame)) ∧
      ∃ attempt, (freshLink.run repairSteps).repairClose = some attempt ∧
        attempt.close.taken = 2 := by
  have hcounted : (freshLink.polls repairSteps).flatMap Poll.counted =
      [⟨0,⟨5,1,7⟩,[8]⟩,⟨0,⟨5,1,7⟩,[9]⟩] := by rfl
  have hopen : (freshLink.run repairSteps).repairClose.map (·.number) = some 0 := by rfl
  obtain ⟨attempt,hattempt,hnumber⟩ := Option.map_eq_some_iff.mp hopen
  have hdelivered := counted_frames_delivered new_freshLink repairSteps
  have hcount := hdelivered.2.2 PlainClose.taken plainBle_countsFrames attempt hattempt
  rw [hcounted,hnumber] at hcount
  exact ⟨hcounted,hdelivered.1,attempt,hattempt,hcount⟩

end Delivered

end WalkieSongie.Carrier
