import WalkieSongie.Rendezvous
import WalkieSongie.RequestLog
set_option autoImplicit false

/-!
A peer that the task knows has joined gossip, or a child is about to let it join, unless its session
ended before the child did, or had no room for one.
-/

namespace WalkieSongie.Net
open RequestLog

variable {L : SignalLibrary} {peering : RendezvousPeering} {around : Surroundings}
  {main main' : Rendezvous L} {session : Session L} {run run' : RendezvousRun L}
  {hello : HelloV5} {id : EndpointId} {events : List (RendezvousEvent L)}

def Child.owes (child : Child L) : Bool :=
  child.phase = .reincarnating ∨ child.phase = .waiting

def failed : Except String Unit → Bool
  | .error _ => true
  | .ok () => false

/-- The socket is closed, or does not take what the turn has to send. -/
def Turn.ends (around : Surroundings) : Turn L → Bool
  | .received (.error _) | .received (.ok none) => true
  | .received (.ok (some text)) =>
    match L.readMessage text with
    | some .ping => failed around.sent
    | _ => false
  | .reHello => failed around.sent
  | .signalOut recipient _ => recipient.isSome && failed around.sent
  | .childCompleted _ => false

/-- A hello is the first of its peer, and the peer is to be joined after its direct path. -/
def HelloV5.firstDirect (peering : RendezvousPeering) (main : Rendezvous L) (hello : HelloV5) :
    Bool :=
  hello.validate.isSome && (L.parseEndpoint hello.id).any fun id =>
    id ≠ peering.ourId ∧ id ∉ main.joined ∧ main.joined.card < maxRendezvousPeers ∧
      hello.rtc = some true ∧ peering.webrtc ≠ none

def Turn.firstDirect (peering : RendezvousPeering) (main : Rendezvous L) : Turn L → Bool
  | .received (.ok (some text)) =>
    match L.readMessage text with
    | some (.publish data) =>
      L.kind data ≠ some rtcKind && (L.readHello data).any (HelloV5.firstDirect peering main)
    | _ => false
  | _ => false

/-- No event concerns the peers that are joined. -/
def Quiet (events : List (RendezvousEvent L)) : Prop :=
  ∀ event ∈ events, ∀ id, event ≠ .inserted id ∧ event ≠ .joinPeers id

theorem Quiet.append {more : List (RendezvousEvent L)} (h : Quiet events) (hmore : Quiet more) :
    Quiet (events ++ more) := by
  intro event hevent
  rcases List.mem_append.mp hevent with hfirst | hsecond
  · exact h event hfirst
  · exact hmore event hsecond

namespace Rendezvous

@[simp]
theorem emit_joined : (main.emit events).joined = main.joined := rfl

@[simp]
theorem emit_log : (main.emit events).log = main.log ++ events := rfl

theorem emit_emit (more : List (RendezvousEvent L)) :
    (main.emit events).emit more = main.emit (events ++ more) := by
  simp [emit]

theorem emit_nil : main.emit [] = main := by
  simp [emit]

theorem send_eq (around : Surroundings) (main : Rendezvous L) (message : ClientMessage L) :
    ∃ events, Quiet events ∧ main.send around message = (around.sent,main.emit events) := by
  cases hsent : around.sent with
  | error error => exact ⟨[],by simp [Quiet],by simp [send,hsent,emit_nil]⟩
  | ok sent => exact ⟨[.sent message],by simp [Quiet],by simp [send,hsent]⟩

theorem sendHello_eq (peering : RendezvousPeering) (around : Surroundings)
    (L : SignalLibrary) :
    ∃ events : List (RendezvousEvent L), Quiet events ∧ ∀ main : Rendezvous L,
      main.sendHello peering around =
        (around.sent.map fun _ => around.relay.isSome,main.emit events) := by
  cases hsent : around.sent with
  | error error => exact ⟨[],by simp [Quiet],by simp [sendHello,send,hsent,emit_nil,Except.map]⟩
  | ok accepted =>
    refine ⟨[.sent (.hello peering.channel (peering.hello L around.relay))],by simp [Quiet],?_⟩
    simp [sendHello,send,hsent,Except.map]

theorem route_eq (peering : RendezvousPeering) (main : Rendezvous L) (data : L.Json) :
    ∃ events, Quiet events ∧ main.routeRtcEnvelope peering data = main.emit events := by
  have hnothing : ∃ events, Quiet events ∧ main = main.emit events :=
    ⟨[],by simp [Quiet],emit_nil.symm⟩
  unfold routeRtcEnvelope
  split
  · split
    · exact hnothing
    · split
      · split
        · exact hnothing
        · exact ⟨_,by simp [Quiet],rfl⟩
      · exact hnothing
  · exact hnothing

/-- No child that owes its peer a join is lost, and a new one is of a peer that is known. -/
structure Retains (main : Rendezvous L) (session session' : Session L) : Prop where
  keeps : ∀ child ∈ session.children, child.owes = true → child ∈ session'.children
  known : ∀ child ∈ session'.children, child ∈ session.children ∨ child.peer ∈ main.joined

theorem Retains.refl : Retains main session session := ⟨fun _ h _ => h,fun _ h => .inl h⟩

theorem knownPeer_cases (peering : RendezvousPeering) (around : Surroundings) (hello : HelloV5)
    (session : Session L) (support : Option UInt8) (reincarnated : Bool) (addr : EndpointAddr L)
    (hid : id ∈ main.joined) :
    ∃ events, Quiet events ∧
      (main.knownPeer peering around hello id support reincarnated addr session).2 =
        main.emit events ∧
      Retains main session
        (main.knownPeer peering around hello id support reincarnated addr session).1 := by
  unfold knownPeer
  simp only [emit_emit]
  split
  · exact ⟨_,by simp [Quiet],rfl,.refl⟩
  · split
    · split
      · exact ⟨_,by simp [Quiet],rfl,.refl⟩
      · refine ⟨_,by simp [Quiet],rfl,fun child hchild _ => by simp [hchild],fun child hchild => ?_⟩
        rcases List.mem_append.mp hchild with hold | hnew
        · exact .inl hold
        · obtain rfl := List.mem_singleton.mp hnew
          exact .inr hid
    · split
      · exact ⟨_,by simp [Quiet],rfl,.refl⟩
      · exact ⟨_,by simp [Quiet],rfl,.refl⟩

/-- The three ways that a first hello goes: joined at once, handed to a child, refused by the full
scope. -/
theorem newPeer_cases (peering : RendezvousPeering) (around : Surroundings) (hello : HelloV5)
    (id : EndpointId) (session : Session L) (main : Rendezvous L) (support : Option UInt8)
    (addr : EndpointAddr L) :
    ∃ before after, Quiet before ∧ Quiet after ∧
      (((hello.rtc = some true ∧ peering.webrtc ≠ none) ∧
          main.newPeer peering around hello id support addr session =
            (if maxRendezvousPeers ≤ session.children.length then session
              else { session with children := session.children ++ [⟨id,some addr,.waiting⟩] },
            { main with
              joined := insert id main.joined
              log := main.log ++ .inserted id :: before })) ∨
        (¬ (hello.rtc = some true ∧ peering.webrtc ≠ none) ∧
          main.newPeer peering around hello id support addr session =
            (session,{ main with
              joined := insert id main.joined
              log := main.log ++ .inserted id :: before ++ .joinPeers id :: after }))) := by
  obtain ⟨sent,hsent,hreply⟩ := sendHello_eq peering around L
  by_cases hdirect : hello.rtc = some true ∧ peering.webrtc ≠ none
  · by_cases hfull : maxRendezvousPeers ≤ session.children.length
    · refine ⟨[.addressed ⟨id,none,true⟩,.discovered id support,.dial id],[],by simp [Quiet],
        by simp [Quiet],.inl ⟨hdirect,?_⟩⟩
      simp [newPeer,hdirect,hfull,emit]
    · refine ⟨[.addressed ⟨id,none,true⟩,.discovered id support,.dial id] ++ sent,[],
        Quiet.append (by simp [Quiet]) hsent,by simp [Quiet],.inl ⟨hdirect,?_⟩⟩
      simp [newPeer,hdirect,hfull,reply,hreply,emit]
  · refine ⟨[.addressed addr,.discovered id support],sent,by simp [Quiet],hsent,.inr ⟨hdirect,?_⟩⟩
    simp only [newPeer,if_neg hdirect,reply,hreply]
    simp [emit]

/-- What a turn may do, told by whether it ends the session and whether it brings a first hello
whose join is left to a child. -/
inductive TurnOutcome (main : Rendezvous L) (session : Session L) :
    Bool → Bool → Option (Session L) → Rendezvous L → Prop where
  | ended {main' : Rendezvous L} {events : List (RendezvousEvent L)} (hquiet : Quiet events)
      (hjoined : main'.joined = main.joined) (hlog : main'.log = main.log ++ events) :
      TurnOutcome main session true false none main'
  | went {session' : Session L} {main' : Rendezvous L} {events : List (RendezvousEvent L)}
      (hquiet : Quiet events) (hjoined : main'.joined = main.joined)
      (hlog : main'.log = main.log ++ events) (hretains : Retains main session session') :
      TurnOutcome main session false false (some session') main'
  | child {main' : Rendezvous L} {events : List (RendezvousEvent L)} {id : EndpointId}
      {addr : EndpointAddr L} (hquiet : Quiet events) (hid : id ∉ main.joined)
      (hjoined : main'.joined = insert id main.joined)
      (hlog : main'.log = main.log ++ .inserted id :: events)
      (hroom : session.children.length < maxRendezvousPeers) :
      TurnOutcome main session false true
        (some { session with children := session.children ++ [⟨id,some addr,.waiting⟩] }) main'
  | refused {main' : Rendezvous L} {events : List (RendezvousEvent L)} {id : EndpointId}
      (hquiet : Quiet events) (hid : id ∉ main.joined)
      (hjoined : main'.joined = insert id main.joined)
      (hlog : main'.log = main.log ++ .inserted id :: events)
      (hfull : maxRendezvousPeers ≤ session.children.length) :
      TurnOutcome main session false true (some session) main'
  | joins {main' : Rendezvous L} {before after : List (RendezvousEvent L)} {id : EndpointId}
      (hbefore : Quiet before) (hafter : Quiet after) (hid : id ∉ main.joined)
      (hjoined : main'.joined = insert id main.joined)
      (hlog : main'.log = main.log ++ .inserted id :: before ++ .joinPeers id :: after) :
      TurnOutcome main session false false (some session) main'

theorem unchanged_outcome : TurnOutcome main session false false (some session) main :=
  .went (by simp [Quiet]) rfl (List.append_nil _).symm .refl

theorem knownPeer_outcome (support : Option UInt8) (reincarnated : Bool) (addr : EndpointAddr L)
    (hid : id ∈ main.joined) :
    TurnOutcome main session false false
      (some (main.knownPeer peering around hello id support reincarnated addr session).1)
      (main.knownPeer peering around hello id support reincarnated addr session).2 := by
  obtain ⟨events,hquiet,hmain,hretains⟩ := knownPeer_cases peering around hello session support
    reincarnated addr hid
  rw [hmain]
  exact .went hquiet rfl rfl hretains

theorem TurnOutcome.of_tracker {tracker : RtcIncarnationTracker} {ends direct : Bool}
    {session' : Option (Session L)}
    (h : TurnOutcome { main with rtcIncarnations := tracker } session ends direct session' main') :
    TurnOutcome main session ends direct session' main' := by
  cases h with
  | ended hquiet hjoined hlog => exact .ended hquiet hjoined hlog
  | went hquiet hjoined hlog hretains => exact .went hquiet hjoined hlog ⟨hretains.1,hretains.2⟩
  | child hquiet hid hjoined hlog hroom => exact .child hquiet hid hjoined hlog hroom
  | refused hquiet hid hjoined hlog hfull => exact .refused hquiet hid hjoined hlog hfull
  | joins hbefore hafter hid hjoined hlog => exact .joins hbefore hafter hid hjoined hlog

theorem newPeer_outcome (support : Option UInt8) (addr : EndpointAddr L) (hid : id ∉ main.joined) :
    TurnOutcome main session false (decide (hello.rtc = some true ∧ peering.webrtc ≠ none))
      (some (main.newPeer peering around hello id support addr session).1)
      (main.newPeer peering around hello id support addr session).2 := by
  obtain ⟨before,after,hbefore,hafter,⟨hdirect,hnew⟩ | ⟨hdirect,hnew⟩⟩ :=
    newPeer_cases peering around hello id session main support addr
  · rw [hnew,decide_eq_true hdirect]
    by_cases hfull : maxRendezvousPeers ≤ session.children.length
    · rw [if_pos hfull]
      exact .refused hbefore hid rfl rfl hfull
    · rw [if_neg hfull]
      exact .child hbefore hid rfl rfl (Nat.lt_of_not_le hfull)
  · rw [hnew,decide_eq_false hdirect]
    exact .joins hbefore hafter hid rfl rfl

theorem helloReceived_outcome (hello : HelloV5) :
    TurnOutcome main session false (hello.firstDirect peering main)
      (some (main.helloReceived peering around hello session).1)
      (main.helloReceived peering around hello session).2 := by
  cases hsupport : hello.validate with
  | none => simpa [helloReceived,HelloV5.firstDirect,hsupport] using unchanged_outcome
  | some support =>
    cases hparse : L.parseEndpoint hello.id with
    | none => simpa [helloReceived,HelloV5.firstDirect,hsupport,hparse] using unchanged_outcome
    | some id =>
      by_cases hown : id = peering.ourId
      · simpa [helloReceived,HelloV5.firstDirect,hsupport,hparse,hown] using unchanged_outcome
      · by_cases hknown : id ∈ main.joined
        · have hdirect : hello.firstDirect peering main = false := by
            simp [HelloV5.firstDirect,hsupport,hparse,hknown]
          simp only [helloReceived,hsupport,hparse,if_neg hown,if_pos hknown,hdirect]
          exact .of_tracker (knownPeer_outcome (some support) _ _ hknown)
        · by_cases hroom : main.joined.card < maxRendezvousPeers
          · have hdirect : hello.firstDirect peering main =
                decide (hello.rtc = some true ∧ peering.webrtc ≠ none) := by
              simp [HelloV5.firstDirect,hsupport,hparse,hown,hknown,hroom]
            simp only [helloReceived,hsupport,hparse,if_neg hown,if_neg hknown,if_pos hroom,hdirect]
            exact .of_tracker (newPeer_outcome (some support) _ hknown)
          · have hdirect : hello.firstDirect peering main = false := by
              simp [HelloV5.firstDirect,hsupport,hparse,hroom]
            simp only [helloReceived,hsupport,hparse,if_neg hown,if_neg hknown,if_neg hroom,hdirect]
            exact .of_tracker unchanged_outcome

theorem publishReceived_outcome (data : L.Json) :
    TurnOutcome main session false
      (L.kind data ≠ some rtcKind && (L.readHello data).any (HelloV5.firstDirect peering main))
      (some (main.publishReceived peering around data session).1)
      (main.publishReceived peering around data session).2 := by
  unfold publishReceived
  by_cases hrtc : L.kind data = some rtcKind
  · obtain ⟨events,hquiet,hroute⟩ := route_eq peering main data
    simp only [hrtc,hroute,ne_eq,not_true_eq_false,decide_false,Bool.false_and]
    exact .went hquiet rfl rfl .refl
  · cases hhello : L.readHello data with
    | none => simpa [hrtc] using unchanged_outcome
    | some hello => simpa [hrtc] using helloReceived_outcome hello

theorem messageReceived_outcome (text : String) :
    TurnOutcome main session (Turn.ends around (.received (.ok (some text)) : Turn L))
      (Turn.firstDirect peering main (.received (.ok (some text))))
      (main.messageReceived peering around text session).1
      (main.messageReceived peering around text session).2 := by
  simp only [messageReceived,Turn.ends,Turn.firstDirect]
  cases hmessage : L.readMessage text with
  | none => exact unchanged_outcome
  | some message =>
    cases message with
    | publish data => exact publishReceived_outcome data
    | other => exact unchanged_outcome
    | ping =>
      obtain ⟨events,hquiet,hsend⟩ := send_eq around main .pong
      simp only [hsend]
      cases around.sent with
      | error error => exact .ended hquiet rfl rfl
      | ok accepted => exact .went hquiet rfl rfl .refl

theorem turn_outcome (turn : Turn L) (hready : RendezvousRun.ready session turn = true) :
    TurnOutcome main session (turn.ends around) (turn.firstDirect peering main)
      (main.turn peering around session turn).1 (main.turn peering around session turn).2 := by
  cases turn with
  | received message =>
    cases message with
    | error error => exact .ended (by simp [Quiet]) rfl (List.append_nil _).symm
    | ok text =>
      cases text with
      | none => exact .ended (by simp [Quiet]) rfl (List.append_nil _).symm
      | some text => exact messageReceived_outcome text
  | reHello =>
    obtain ⟨events,hquiet,hhello⟩ := sendHello_eq peering around L
    simp only [turn,hhello,Turn.ends,Turn.firstDirect]
    cases around.sent with
    | error error => exact .ended hquiet rfl rfl
    | ok accepted => exact .went hquiet rfl rfl ⟨fun _ h _ => h,fun _ h => .inl h⟩
  | signalOut recipient payload =>
    cases recipient with
    | none => exact unchanged_outcome
    | some recipient =>
      simp only [turn,send,Turn.ends,Turn.firstDirect]
      cases around.sent with
      | error error => exact .ended (by simp [Quiet]) rfl (List.append_nil _).symm
      | ok accepted => exact .went (by simp [Quiet]) rfl rfl .refl
  | childCompleted index =>
    refine .went (by simp [Quiet]) rfl (List.append_nil _).symm ⟨fun child hchild howes => ?_,?_⟩
    · obtain ⟨place,hplace⟩ := List.mem_iff_getElem?.mp hchild
      refine List.mem_eraseIdx_iff_getElem?.mpr ⟨place,?_,hplace⟩
      rintro rfl
      simp only [RendezvousRun.ready,hplace,Option.any_some,decide_eq_true_eq] at hready
      simp [Child.owes,hready] at howes
    · exact fun child hchild => .inl (List.mem_of_mem_eraseIdx hchild)

end Rendezvous

namespace RendezvousRun

def Owing (run : RendezvousRun L) (id : EndpointId) : Prop :=
  ∃ session ∈ run.session, ∃ child ∈ session.children, child.peer = id ∧ child.owes = true

/-- Since some time that the peer was taken into `joined` it was not joined to gossip. -/
def Unjoined (run : RendezvousRun L) (id : EndpointId) : Prop :=
  Unanswered (.inserted id) (.joinPeers id) run.main.log

/-- Every peer that the task knows has joined gossip since, or a child will let it. -/
def NoneForgotten (run : RendezvousRun L) : Prop :=
  ∀ id ∈ run.main.joined, ¬ run.Unjoined id ∨ run.Owing id

structure Known (run : RendezvousRun L) : Prop where
  inserted : ∀ id, id ∈ run.main.joined ↔ .inserted id ∈ run.main.log
  children : ∀ session ∈ run.session, ∀ child ∈ session.children, child.peer ∈ run.main.joined

/-- A session ends only where no child of it owes a peer its first join, and the first hello of a
peer that is to be joined later finds room for a child. -/
def Meets (peering : RendezvousPeering) (run : RendezvousRun L) : RendezvousStep L → Prop
  | .turn around turn => ∀ session ∈ run.session,
    (turn.ends around = true →
      ∀ child ∈ session.children, child.owes = true → ¬ run.Unjoined child.peer) ∧
    (turn.firstDirect peering run.main = true → session.children.length < maxRendezvousPeers)
  | _ => True

variable {log : List (RendezvousEvent L)} {other : EndpointId}

theorem unanswered_quiet (hquiet : Quiet events) :
    Unanswered (.inserted id) (.joinPeers id) (log ++ events) ↔
      Unanswered (.inserted id) (.joinPeers id) log :=
  unanswered_append fun event hevent => hquiet event hevent id

theorem unanswered_inserted (hquiet : Quiet events) :
    Unanswered (.inserted other) (.joinPeers other) (log ++ .inserted id :: events) ↔
      other = id ∨ Unanswered (.inserted other) (.joinPeers other) log := by
  rw [List.append_cons,unanswered_quiet hquiet,unanswered_concat]
  simp [eq_comm]

theorem unanswered_joined (hquiet : Quiet events) :
    Unanswered (.inserted other) (.joinPeers other) (log ++ .joinPeers id :: events) ↔
      other ≠ id ∧ Unanswered (.inserted other) (.joinPeers other) log := by
  rw [List.append_cons,unanswered_quiet hquiet,unanswered_concat]
  simp [eq_comm]

theorem not_inserted (h : Quiet events) : .inserted id ∉ events :=
  fun hmem => (h _ hmem id).1 rfl

theorem known_start : Known ({} : RendezvousRun L) where
  inserted id := by simp
  children session h := by simp at h

theorem noneForgotten_start : NoneForgotten ({} : RendezvousRun L) := by
  intro id h
  simp at h

theorem Known.outcome {ends direct : Bool} {session' : Option (Session L)}
    (h : Known ⟨main,some session⟩)
    (houtcome : Rendezvous.TurnOutcome main session ends direct session' main') :
    Known ⟨main',session'⟩ := by
  have hinserted := h.inserted
  have hchildren := h.children session rfl
  simp only at hinserted hchildren
  cases houtcome with
  | ended hquiet hjoined hlog =>
    refine ⟨fun id => ?_,fun session hsession => by simp at hsession⟩
    simp [hjoined,hlog,hinserted,not_inserted hquiet]
  | went hquiet hjoined hlog hretains =>
    refine ⟨fun id => by simp [hjoined,hlog,hinserted,not_inserted hquiet],?_⟩
    simp only [Option.mem_def,Option.some.injEq,forall_eq',hjoined]
    intro child hchild
    rcases hretains.known child hchild with hold | hknown
    · exact hchildren child hold
    · exact hknown
  | child hquiet hid hjoined hlog hroom =>
    refine ⟨fun other => by simp [hjoined,hlog,hinserted,not_inserted hquiet,or_comm],?_⟩
    simp only [Option.mem_def,Option.some.injEq,forall_eq',hjoined]
    intro child hchild
    rcases List.mem_append.mp hchild with hold | hnew
    · exact Finset.mem_insert_of_mem (hchildren child hold)
    · obtain rfl := List.mem_singleton.mp hnew
      exact Finset.mem_insert_self _ _
  | refused hquiet hid hjoined hlog hfull =>
    refine ⟨fun other => by simp [hjoined,hlog,hinserted,not_inserted hquiet,or_comm],?_⟩
    simp only [Option.mem_def,Option.some.injEq,forall_eq',hjoined]
    exact fun child hchild => Finset.mem_insert_of_mem (hchildren child hchild)
  | joins hbefore hafter hid hjoined hlog =>
    refine ⟨fun other => ?_,?_⟩
    · simp [hjoined,hlog,hinserted,not_inserted hbefore,not_inserted hafter,or_comm]
    · simp only [Option.mem_def,Option.some.injEq,forall_eq',hjoined]
      exact fun child hchild => Finset.mem_insert_of_mem (hchildren child hchild)

/-- A turn forgets no peer exactly where it meets the condition. -/
theorem noneForgotten_outcome {ends direct : Bool} {session' : Option (Session L)}
    (h : NoneForgotten ⟨main,some session⟩) (hknown : Known ⟨main,some session⟩)
    (houtcome : Rendezvous.TurnOutcome main session ends direct session' main') :
    NoneForgotten ⟨main',session'⟩ ↔
      (ends = true → ∀ child ∈ session.children, child.owes = true →
        ¬ Unjoined ⟨main,some session⟩ child.peer) ∧
      (direct = true → session.children.length < maxRendezvousPeers) := by
  have hchildren := hknown.children session rfl
  cases houtcome with
  | ended hquiet hjoined hlog =>
    simp only [NoneForgotten,Unjoined,hjoined,hlog,unanswered_quiet hquiet]
    constructor
    · intro hall
      refine ⟨fun _ child hchild _ => ?_,by simp⟩
      rcases hall child.peer (hchildren child hchild) with hjoins | ⟨later,hlater,-⟩
      · exact hjoins
      · simp at hlater
    · rintro ⟨hends,-⟩ id hid
      rcases h id hid with hjoins | ⟨later,hlater,child,hchild,rfl,howes⟩
      · exact .inl hjoins
      · cases hlater
        exact .inl (hends trivial child hchild howes)
  | went hquiet hjoined hlog hretains =>
    refine iff_of_true (fun id hid => ?_) (by simp)
    simp only [Unjoined,hlog,unanswered_quiet hquiet]
    rw [hjoined] at hid
    rcases h id hid with hjoins | ⟨later,hlater,child,hchild,hpeer,howes⟩
    · exact .inl hjoins
    · cases hlater
      exact .inr ⟨_,rfl,child,hretains.keeps child hchild howes,hpeer,howes⟩
  | child hquiet hfresh hjoined hlog hroom =>
    refine iff_of_true (fun id hid => ?_) (by simp [hroom])
    rename_i fresh addr
    simp only [Unjoined,hlog,unanswered_inserted hquiet]
    rw [hjoined,Finset.mem_insert] at hid
    rcases hid with rfl | hid
    · have hnew := List.mem_append_right session.children
        (List.mem_singleton_self (⟨id,some addr,.waiting⟩ : Child L))
      exact .inr ⟨_,rfl,_,hnew,rfl,by simp [Child.owes]⟩
    · rcases h id hid with hjoins | ⟨later,hlater,child,hchild,hpeer,howes⟩
      · have hne : id ≠ fresh := fun hsame => hfresh (hsame ▸ hid)
        exact .inl (not_or.mpr ⟨hne,hjoins⟩)
      · cases hlater
        exact .inr ⟨_,rfl,child,List.mem_append_left _ hchild,hpeer,howes⟩
  | refused hquiet hfresh hjoined hlog hfull =>
    refine iff_of_false (fun hall => ?_) (by simp [hfull])
    rename_i id
    have hforgotten := hall id (by simp [hjoined])
    simp only [Unjoined,hlog,unanswered_inserted hquiet] at hforgotten
    rcases hforgotten with hjoins | ⟨later,hlater,child,hchild,rfl,-⟩
    · simp at hjoins
    · cases hlater
      exact hfresh (hchildren child hchild)
  | joins hbefore hafter hfresh hjoined hlog =>
    refine iff_of_true (fun id hid => ?_) (by simp)
    rename_i fresh
    simp only [Unjoined,hlog,unanswered_joined hafter,unanswered_inserted hbefore]
    rw [hjoined,Finset.mem_insert] at hid
    by_cases hsame : id = fresh
    · simp [hsame]
    · rcases h id (hid.resolve_left hsame) with hjoins | ⟨later,hlater,hchild⟩
      · exact .inl fun hinserted => (hinserted.2.resolve_left hsame |> hjoins)
      · cases hlater
        exact .inr ⟨_,rfl,hchild⟩

/-- What a child does next: it lets its peer join, or it does not concern the joins. -/
theorem resume_cases {child : Child L} {resumption : ChildResumption} {phase : ChildPhase}
    (h : child.resume resumption = some (phase,events)) :
    (∃ before, Quiet before ∧ events = before ++ [.joinPeers child.peer]) ∨
    (Quiet events ∧ (child.owes = true → Child.owes { child with phase } = true)) := by
  have hfallback : Quiet (child.fallbackAddr.toList.map RendezvousEvent.addressed) := by
    simp [Quiet]
  cases resumption with
  | fenced fence =>
    cases fence with
    | true =>
      simp [Child.resume] at h
      obtain ⟨-,rfl,rfl⟩ := h
      exact .inr ⟨by simp [Quiet],by simp [Child.owes]⟩
    | false =>
      simp [Child.resume] at h
      obtain ⟨-,-,rfl⟩ := h
      exact .inl ⟨[],by simp [Quiet],rfl⟩
  | waited direct =>
    cases direct with
    | true =>
      simp [Child.resume] at h
      obtain ⟨-,-,rfl⟩ := h
      exact .inl ⟨[],by simp [Quiet],rfl⟩
    | false =>
      simp [Child.resume] at h
      obtain ⟨-,-,rfl⟩ := h
      exact .inl ⟨_,by simpa using hfallback,rfl⟩
  | joined result =>
    simp only [Child.resume] at h
    split at h
    · rename_i hphase
      simp at h
      obtain ⟨-,rfl⟩ := h
      exact .inr ⟨by simp [Quiet],by simp [Child.owes,hphase]⟩
    · cases h
  | slept =>
    simp [Child.resume] at h
    obtain ⟨hphase,-,rfl⟩ := h
    exact .inr ⟨by simpa using hfallback,by simp [Child.owes,hphase]⟩

section ChildStep

variable {index : Nat} {child : Child L} {resumption : ChildResumption} {phase : ChildPhase}

theorem Known.resumeChild (h : Known ⟨main,some session⟩)
    (hchild : session.children[index]? = some child)
    (hresume : child.resume resumption = some (phase,events)) :
    Known ⟨main.emit events,some { session with
      children := session.children.set index { child with phase } }⟩ := by
  have hinserted : ∀ id, RendezvousEvent.inserted id ∉ events := by
    intro id
    rcases resume_cases hresume with ⟨before,hbefore,rfl⟩ | ⟨hquiet,-⟩
    · simp [not_inserted hbefore]
    · exact not_inserted hquiet
  refine ⟨fun id => ?_,?_⟩
  · have hid := h.inserted id
    simp only at hid
    simp [hid,hinserted id]
  · simp only [Option.mem_def,Option.some.injEq,forall_eq']
    intro other hother
    rcases List.mem_or_eq_of_mem_set hother with hold | rfl
    · exact h.children session rfl other hold
    · exact h.children session rfl child (List.mem_of_getElem? hchild)

theorem NoneForgotten.resumeChild (h : NoneForgotten ⟨main,some session⟩)
    (hchild : session.children[index]? = some child)
    (hresume : child.resume resumption = some (phase,events)) :
    NoneForgotten ⟨main.emit events,some { session with
      children := session.children.set index { child with phase } }⟩ := by
  have hindex : index < session.children.length := (List.getElem?_eq_some_iff.mp hchild).1
  intro id hid
  -- A child of another place stays where it is.
  have hothers : ∀ other ∈ session.children, other ≠ child →
      other ∈ session.children.set index { child with phase } := by
    intro other hother hne
    obtain ⟨place,hplace⟩ := List.mem_iff_getElem?.mp hother
    have hapart : index ≠ place := by
      rintro rfl
      exact hne (by simpa [hchild] using hplace.symm)
    exact List.mem_of_getElem? ((List.getElem?_set_ne hapart).trans hplace)
  rcases resume_cases hresume with ⟨before,hbefore,rfl⟩ | ⟨hquiet,howing⟩
  · have hlog : Unanswered (.inserted id) (.joinPeers id)
        (main.log ++ (before ++ [.joinPeers child.peer])) ↔
          id ≠ child.peer ∧ Unanswered (.inserted id) (.joinPeers id) main.log := by
      rw [← List.append_assoc,unanswered_joined (by simp [Quiet]),unanswered_quiet hbefore]
    by_cases hsame : id = child.peer
    · exact .inl fun hunjoined => (hlog.mp hunjoined).1 hsame
    · rcases h id hid with hjoins | ⟨later,hlater,other,hother,hpeer,howes⟩
      · exact .inl fun hunjoined => hjoins (hlog.mp hunjoined).2
      · cases hlater
        have hne : other ≠ child := by
          rintro rfl
          exact hsame hpeer.symm
        exact .inr ⟨_,rfl,other,hothers other hother hne,hpeer,howes⟩
  · rcases h id hid with hjoins | ⟨later,hlater,other,hother,hpeer,howes⟩
    · exact .inl fun hunjoined => hjoins ((unanswered_quiet hquiet).mp hunjoined)
    · cases hlater
      by_cases hsame : other = child
      · subst other
        exact .inr ⟨_,rfl,{ child with phase },List.mem_set hindex _,hpeer,howing howes⟩
      · exact .inr ⟨_,rfl,other,hothers other hother hsame,hpeer,howes⟩

end ChildStep

theorem start_cases (peering : RendezvousPeering) (subscribed : Except String Unit)
    (around : Surroundings) (main : Rendezvous L) :
    ∃ events, Quiet events ∧ (main.start peering subscribed around).2 = main.emit events ∧
      ∀ session ∈ (main.start peering subscribed around).1, session.children = [] := by
  obtain ⟨sent,hsent,hhello⟩ := Rendezvous.sendHello_eq peering around L
  cases subscribed with
  | error error =>
    exact ⟨[],by simp [Quiet],by simp [Rendezvous.start,Rendezvous.send,Rendezvous.emit_nil],
      by simp [Rendezvous.start,Rendezvous.send]⟩
  | ok accepted =>
    refine ⟨[.sent (.subscribe peering.channel)] ++ sent,.append (by simp [Quiet]) hsent,?_⟩
    simp only [Rendezvous.start,Rendezvous.send,hhello,Rendezvous.emit_emit]
    cases around.sent with
    | error error => simp [Except.map]
    | ok accepted => simp [Except.map]

theorem step_cases {next : RendezvousStep L} (h : run.step peering next = some run') :
    (∃ subscribed around, next = .connected subscribed around ∧ run.session = none ∧
      run' = ⟨(run.main.start peering subscribed around).2,
        (run.main.start peering subscribed around).1⟩) ∨
    (∃ around turn session, next = .turn around turn ∧ run.session = some session ∧
      ready session turn = true ∧ run' = ⟨(run.main.turn peering around session turn).2,
        (run.main.turn peering around session turn).1⟩) ∨
    (∃ index resumption session child phase events, next = .child index resumption ∧
      run.session = some session ∧ session.children[index]? = some child ∧
      child.resume resumption = some (phase,events) ∧
      run' = ⟨run.main.emit events,some { session with
        children := session.children.set index { child with phase } }⟩) := by
  cases next with
  | connected subscribed around =>
    cases hsession : run.session with
    | some session => simp [step,hsession] at h
    | none =>
      simp only [step,hsession,Option.some.injEq] at h
      exact .inl ⟨subscribed,around,rfl,rfl,h.symm⟩
  | turn around turn =>
    simp only [step,Option.bind_eq_bind,Option.bind_eq_some_iff] at h
    obtain ⟨session,hsession,h⟩ := h
    split at h
    · rename_i hready
      simp only [Option.some.injEq] at h
      exact .inr (.inl ⟨around,turn,session,rfl,hsession,hready,h.symm⟩)
    · cases h
  | child index resumption =>
    simp only [step,Option.bind_eq_bind,Option.bind_eq_some_iff] at h
    obtain ⟨session,hsession,child,hchild,⟨phase,events⟩,hresume,h⟩ := h
    simp only [Option.some.injEq] at h
    exact .inr (.inr ⟨index,resumption,session,child,phase,events,rfl,hsession,hchild,hresume,
      h.symm⟩)

theorem Known.step {next : RendezvousStep L} (h : Known run)
    (hstep : run.step peering next = some run') : Known run' := by
  obtain ⟨main,held⟩ := run
  rcases step_cases hstep with ⟨subscribed,around,-,-,rfl⟩ |
    ⟨around,turn,session,-,rfl,hready,rfl⟩ |
    ⟨index,resumption,session,child,phase,events,-,rfl,hchild,hresume,rfl⟩
  · obtain ⟨events,hquiet,hmain,hchildren⟩ := start_cases peering subscribed around main
    refine ⟨fun id => ?_,fun session hsession child hchild => ?_⟩
    · have hid := h.inserted id
      simp only at hid
      simp [hmain,hid,not_inserted hquiet]
    · rw [hchildren session hsession] at hchild
      cases hchild
  · exact h.outcome (Rendezvous.turn_outcome turn hready)
  · exact h.resumeChild hchild hresume

theorem noneForgotten_step {next : RendezvousStep L} (h : NoneForgotten run) (hknown : Known run)
    (hstep : run.step peering next = some run') :
    NoneForgotten run' ↔ run.Meets peering next := by
  obtain ⟨main,held⟩ := run
  rcases step_cases hstep with ⟨subscribed,around,rfl,hnone,rfl⟩ |
    ⟨around,turn,session,rfl,rfl,hready,rfl⟩ |
    ⟨index,resumption,session,child,phase,events,rfl,rfl,hchild,hresume,rfl⟩
  · refine iff_of_true (fun id hid => .inl ?_) trivial
    obtain ⟨events,hquiet,hmain,-⟩ := start_cases peering subscribed around main
    simp only [Unjoined,hmain,Rendezvous.emit_log,unanswered_quiet hquiet]
    simp only at hnone
    subst hnone
    rw [hmain] at hid
    rcases h id hid with hjoins | ⟨session,hsession,-⟩
    · exact hjoins
    · cases hsession
  · simpa [Meets] using noneForgotten_outcome h hknown (Rendezvous.turn_outcome turn hready)
  · exact iff_of_true (h.resumeChild hchild hresume) trivial

def MeetsThroughout (peering : RendezvousPeering) :
    List (RendezvousStep L) → RendezvousRun L → Prop
  | [], _ => True
  | next :: steps, run => run.Meets peering next ∧
    ∀ run' ∈ run.step peering next, MeetsThroughout peering steps run'

theorem Known.after {steps : List (RendezvousStep L)} (h : Known run)
    (hrun : after peering steps run = some run') : Known run' := by
  induction steps generalizing run with
  | nil =>
    simp only [RendezvousRun.after,Option.some.injEq] at hrun
    exact hrun ▸ h
  | cons next steps ih =>
    obtain ⟨middle,hstep,hrest⟩ := Option.bind_eq_some_iff.mp hrun
    exact ih (h.step hstep) hrest

theorem NoneForgotten.after {steps : List (RendezvousStep L)} (h : NoneForgotten run)
    (hknown : Known run) (hmeets : MeetsThroughout peering steps run)
    (hrun : after peering steps run = some run') : NoneForgotten run' := by
  induction steps generalizing run with
  | nil =>
    simp only [RendezvousRun.after,Option.some.injEq] at hrun
    exact hrun ▸ h
  | cons next steps ih =>
    obtain ⟨middle,hstep,hrest⟩ := Option.bind_eq_some_iff.mp hrun
    exact ih ((noneForgotten_step h hknown hstep).mpr hmeets.1) (hknown.step hstep)
      (hmeets.2 middle hstep) hrest

end RendezvousRun

section Peers
open RendezvousRun

theorem discovered_peers_joined {steps : List (RendezvousStep L)}
    (hrun : after peering steps {} = some run) :
    (∀ id, id ∈ run.main.joined ↔ .inserted id ∈ run.main.log) ∧
    (MeetsThroughout peering steps {} → run.NoneForgotten ∧
      ∀ next run', run.step peering next = some run' →
        (run'.NoneForgotten ↔ run.Meets peering next)) := by
  have hknown := known_start.after hrun
  refine ⟨hknown.inserted,fun hmeets => ?_⟩
  have hnone := noneForgotten_start.after known_start hmeets hrun
  exact ⟨hnone,fun next run' hstep => noneForgotten_step hnone hknown hstep⟩

def helloFrames : SignalLibrary where
  Json := HelloV5
  Payload := Unit
  RelayUrl := String
  kind hello := some hello.kind
  readMessage text := some (.publish
    { kind := helloKind, v := helloVersionV5, support := 3, id := text, relay := none,
      rtc := some true, rtcIncarnation := none })
  readHello := some
  readEnvelope _ := none
  parseEndpoint text := some text.length
  endpointText _ := ""
  parseRelay := some

def browserPeering : RendezvousPeering where
  ourId := 0
  webrtc := some (Vector.replicate 8 7)
  channel := "walkie-rdv-v5-00"
  localSupport := 3

def quietSurroundings : Surroundings where
  relay := none
  sent := .ok ()
  connected := false

/-- A peer's first hello, and its direct path at the end of the wait. -/
def joinedSteps : List (RendezvousStep helloFrames) :=
  [.connected (.ok ()) quietSurroundings,
    .turn quietSurroundings (.received (.ok (some "peer"))),
    .child 0 (.waited true)]

theorem meets_joinedSteps : MeetsThroughout browserPeering joinedSteps {} := by
  refine ⟨trivial,fun _ h => ?_⟩
  cases h
  refine ⟨fun session hsession => ?_,fun _ h => ?_⟩
  · obtain rfl := Option.some.inj hsession
    constructor
    · intro hends
      cases hends
    · intro _
      decide
  cases h
  exact ⟨trivial,fun _ _ => trivial⟩

theorem discovered_peers_joined_direct :
    ∃ run, after browserPeering joinedSteps {} = some run ∧ run.NoneForgotten :=
  ⟨_,rfl,((discovered_peers_joined (rfl : after browserPeering joinedSteps {} = some _)).2
    meets_joinedSteps).1⟩

/-- The socket closes while the peer's child waits for the direct path. -/
def closedSteps : List (RendezvousStep helloFrames) :=
  [.connected (.ok ()) quietSurroundings,
    .turn quietSurroundings (.received (.ok (some "peer"))),
    .turn quietSurroundings (.received (.ok none))]

theorem closed_session_forgets_peer :
    ¬ ∀ steps (run : RendezvousRun helloFrames), after browserPeering steps {} = some run →
      run.NoneForgotten := by
  intro h
  let ownHello : RendezvousEvent helloFrames :=
    .sent (.hello browserPeering.channel (browserPeering.hello helloFrames none))
  obtain ⟨run,hrun,hjoined,hsession,hlog⟩ : ∃ run, after browserPeering closedSteps {} = some run ∧
      4 ∈ run.main.joined ∧ run.session = none ∧ run.main.log =
        [.sent (.subscribe browserPeering.channel),ownHello] ++ .inserted 4 ::
          [.addressed ⟨4,none,true⟩,.discovered 4 (some 3),.dial 4,ownHello] :=
    ⟨_,rfl,by decide,rfl,rfl⟩
  rcases h closedSteps run hrun 4 hjoined with hjoins | ⟨session,hheld,-⟩
  · refine hjoins ?_
    rw [Unjoined,hlog,unanswered_inserted (by simp [Quiet,ownHello])]
    exact .inl rfl
  · rw [hsession] at hheld
    cases hheld

end Peers

end WalkieSongie.Net
