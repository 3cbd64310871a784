import WalkieSongie.RtcNetwork
set_option autoImplicit false

/-!
What a retired connection can still do, and how often a peer is dialed only because something is to
be sent to it.
-/

namespace WalkieSongie.Net.WebRtc
open Transport

variable {t t' : Transport} {peer : EndpointId} {attempt : RtcAttempt} {link : PeerLink}
  {pc : RtcPeerConnection} {task : Task} {choice : Choice}

/-! ### Retired offers -/

namespace Network

variable {ids : Nat → EndpointId} {network network' : Network} {index : Nat}

/-- The states that come after a state of the network. -/
inductive Later (ids : Nat → EndpointId) (network : Network) : Network → Prop where
  | refl : Later ids network network
  | step {after network' : Network} {index : Nat} {event : Event} (h : Later ids network after)
      (hhonest : after.honest ids index event) (hstep : after.step index event = some network') :
    Later ids network network'

theorem Reachable.later (h : Reachable ids network) (hlater : Later ids network network') :
    Reachable ids network' := by
  induction hlater with
  | refl => exact h
  | step _ hhonest hstep ih => exact ih.step hhonest hstep

theorem Later.retired (h : Reachable ids network) (hlater : Later ids network network')
    (hoffered : pc ∈ (network.carriers index).offerers)
    (hclosed : ((network.carriers index).browser pc).signaling = .closed) :
    pc ∈ (network'.carriers index).offerers ∧
      ((network'.carriers index).browser pc).signaling = .closed := by
  induction hlater with
  | refl => exact ⟨hoffered,hclosed⟩
  | @step after network' other event hafter hhonest hstep ih =>
    obtain ⟨t,ht,rfl⟩ := Option.map_eq_some_iff.mp hstep
    by_cases hsame : index = other
    · subst hsame
      have hstepped := ((h.later hafter).consistent.disciplined index).stepped ht
      simp only [Function.update_self]
      refine ⟨?_,hstepped.closed pc ih.2⟩
      rcases hstepped.offers with hkept | ⟨_,_,_,_,hnew⟩
      · exact hkept ▸ ih.1
      · exact hnew ▸ List.mem_append_left _ ih.1
    · simpa only [Function.update_of_ne hsame] using ih

theorem Consistent.stale (h : Consistent ids network)
    (hoffered : pc ∈ (network.carriers index).offerers)
    (hclosed : ((network.carriers index).browser pc).signaling = .closed) :
    (network.carriers index).linkOf pc.peer pc.attempt = none := by
  rw [linkOf_eq_none]
  intro link hlink hattempt
  obtain ⟨hmade,hrole⟩ := List.mem_filter.mp hoffered
  have hfits := (h.disciplined index).sound.linked _ _ hlink
  have hroles := ((h.traced index).sourced.roles pc hmade).2
  have hlinked : link.pc ∈ (network.carriers index).offerers :=
    List.mem_filter.mpr ⟨hfits.made,by rw [hfits.offerer,← hroles]; exact hrole⟩
  -- An attempt was drawn for one offer, so the link would be the closed connection's.
  obtain ⟨-,rfl⟩ := h.unique _ _ _ hlinked _ hoffered (hfits.attempt.trans hattempt)
  exact hfits.opened hclosed

/-- The callbacks of an offer that was retired, late answers to it and the end of its connection
change nothing from then on, and nothing more is asked of the connection. -/
theorem retired_offer_is_inert (h : Reachable ids network)
    (hoffered : pc ∈ (network.carriers index).offerers)
    (hclosed : ((network.carriers index).browser pc).signaling = .closed)
    (hlater : Later ids network network') :
    let t := network'.carriers index
    (∀ bytes, t.onMessage pc bytes = t) ∧ (∀ bytes, t.onSessionMessage pc bytes = t) ∧
      t.onOpen pc = t ∧ (∀ sdp, t.handleAnswer pc.peer pc.attempt sdp = t.finish none) ∧
      (∀ choice, t.handle choice (.linkTerminal pc.peer pc.attempt) = t.finish none) ∧
      (∀ task, t.task = some task → task.pc ≠ pc) ∧
      ∀ peer link, t.links.get? peer = some link → link.pc ≠ pc := by
  intro t
  have hconsistent := (h.later hlater).consistent
  obtain ⟨hoffered,hclosed⟩ := hlater.retired h hoffered hclosed
  have hnone := hconsistent.stale hoffered hclosed
  have hlinked : ∀ peer link, t.links.get? peer = some link → link.pc ≠ pc := by
    rintro peer link hlink rfl
    exact ((hconsistent.disciplined index).sound.linked peer link hlink).opened hclosed
  have hstale : t.attemptIsCurrent pc.peer pc.attempt = false := by
    rw [attemptIsCurrent,decide_eq_false_iff_not,currentAttempt_eq_some]
    rintro ⟨link,hlink,hattempt⟩
    exact linkOf_eq_none.mp hnone link hlink hattempt
  refine ⟨fun bytes => ?_,fun bytes => ?_,?_,fun sdp => ?_,fun choice => ?_,fun task htask => ?_,
    hlinked⟩
  · simp [onMessage,hstale]
  · simp [onSessionMessage,hstale]
  · simp [onOpen,hstale]
  · unfold handleAnswer
    rw [show t.linkOf pc.peer pc.attempt = none from hnone]
    split <;> rfl
  · simp [Transport.handle,hstale]
  · obtain ⟨link,hlink,hpc,-⟩ := (hconsistent.disciplined index).awaits task htask
    rw [← hpc]
    exact hlinked _ link (linkOf_eq_some.mp hlink).1

theorem Later.replay {after : Network} {events : List (Nat × Nat × Event)}
    (h : Later ids network after) (hreplay : after.replay ids events = some network') :
    Later ids network network' := by
  induction events generalizing after with
  | nil =>
    cases hreplay
    exact h
  | cons next events ih =>
    obtain ⟨index,source,event⟩ := next
    simp only [Network.replay] at hreplay
    split at hreplay
    · rename_i hchecks
      obtain ⟨stepped,hstep,hrest⟩ := Option.bind_eq_some_iff.mp hreplay
      exact ih (h.step (honest_of_checks hchecks) hstep) hrest
    · cases hreplay

/-- A dial that the browser refuses, and the next dial of the same peer. -/
def refusedDial : List (Nat × Nat × Event) :=
  [(0,0,.command (.dial 1)),(0,0,.next ⟨.replicate 8 1,true⟩),(0,0,.resolve .rejected)]

def redial : List (Nat × Nat × Event) :=
  [(0,0,.command (.dial 1)),(0,0,.next ⟨.replicate 8 2,true⟩)]

/-- The refused offer's callbacks leave the next dial's link alone. -/
theorem retired_offer_is_inert_redialed :
    ∃ network network' link, Reachable id network ∧ Later id network network' ∧
      (network'.carriers 0).links.get? 1 = some link ∧ link.attempt = .replicate 8 2 ∧
      (network'.carriers 0).onMessage ⟨0,1,.replicate 8 1,true⟩ [0] = network'.carriers 0 ∧
      ∀ sdp, (network'.carriers 0).handleAnswer 1 (.replicate 8 1) sdp =
        (network'.carriers 0).finish none := by
  have hrun : (replay id refusedDial { carriers := fun index => { localId := index } }).any
      (fun network => ⟨0,1,.replicate 8 1,true⟩ ∈ (network.carriers 0).offerers ∧
        ((network.carriers 0).browser ⟨0,1,.replicate 8 1,true⟩).signaling = .closed ∧
        (network.replay id redial).any fun network' =>
          ((network'.carriers 0).links.get? 1).any fun link =>
            link.attempt = .replicate 8 2) = true := by decide
  obtain ⟨network,hreplay,hfound⟩ := (Option.any_eq_true _ _).mp hrun
  obtain ⟨hoffered,hclosed,hredialed⟩ := of_decide_eq_true hfound
  obtain ⟨network',hredial,hlinked⟩ := (Option.any_eq_true _ _).mp hredialed
  obtain ⟨link,hlink,hattempt⟩ := (Option.any_eq_true _ _).mp hlinked
  have hreachable : Reachable id network := Reachable.start.replay hreplay
  have hlater : Later id network network' := Later.refl.replay hredial
  have hinert := retired_offer_is_inert hreachable hoffered hclosed hlater
  exact ⟨network,network',link,hreachable,hlater,hlink,of_decide_eq_true hattempt,hinert.1 [0],
    hinert.2.2.2.1⟩

end Network

/-! ### Lazy dials -/

def Transport.madeTo (t : Transport) (peer : EndpointId) : Nat :=
  t.made.countP fun pc => pc.peer = peer

/-- The invariant of the set of peers that are dialed. -/
structure Lazy (t : Transport) : Prop where
  dials : ∀ peer,
    t.lazyDials.count peer ≤ t.madeTo peer + if peer ∈ t.dialing then 1 else 0
  apart : ∀ peer ∈ t.dialing, t.links.get? peer = none

namespace Lazy

theorem of_eq (h : Lazy t) (hdials : t'.lazyDials = t.lazyDials) (hmade : t'.made = t.made)
    (hdialing : t'.dialing = t.dialing)
    (hlinks : ∀ peer, t.links.get? peer = none → t'.links.get? peer = none) : Lazy t' where
  dials peer := by
    rw [hdials,hdialing,Transport.madeTo,hmade]
    exact h.dials peer
  apart peer hpeer := hlinks peer (h.apart peer (hdialing ▸ hpeer))

theorem init (localId : EndpointId) : Lazy { localId } :=
  ⟨by simp [Transport.madeTo],by simp⟩

theorem retired (h : Lazy t) (hlink : t.links.get? peer = some link) :
    Lazy (t.retired peer pc) := by
  have habsent : peer ∉ t.dialing := fun hpeer => by
    rw [h.apart peer hpeer] at hlink
    cases hlink
  refine h.of_eq rfl rfl (Finset.erase_eq_of_notMem habsent) fun other hnone => ?_
  rw [Transport.retired,KeyedMap.get?_erase]
  split
  · rfl
  · exact hnone

theorem retireLink (h : Lazy t) (peer : EndpointId) (attempt : RtcAttempt) :
    Lazy (t.retireLink peer attempt) := by
  cases hlink : t.linkOf peer attempt with
  | none => rwa [retireLink_of_none hlink]
  | some link =>
    rw [retireLink_of_some hlink]
    exact h.retired (linkOf_eq_some.mp hlink).1

theorem createLink (h : Lazy t) (peer : EndpointId) (attempt : RtcAttempt) (offerer : Bool) :
    Lazy (t.createLink peer attempt offerer).2 := by
  refine ⟨fun other => ?_,fun other hother => ?_⟩
  · have hdials := h.dials other
    simp only [Transport.createLink,Transport.madeTo,List.countP_append,List.countP_singleton,
      Finset.mem_erase,decide_eq_true_eq]
    rw [Transport.madeTo] at hdials
    by_cases hsame : peer = other
    · simp only [hsame,if_true]
      split at hdials <;> omega
    · simpa [hsame,Ne.symm hsame] using hdials
  · obtain ⟨hne,hold⟩ := Finset.mem_erase.mp hother
    rw [Transport.createLink,KeyedMap.get?_insert,if_neg hne]
    exact h.apart other hold

theorem updateLink (h : Lazy t) (peer : EndpointId) (attempt : RtcAttempt)
    (f : PeerLink → PeerLink) : Lazy (t.updateLink peer attempt f) := by
  unfold Transport.updateLink
  split
  · rename_i link hlink
    refine h.of_eq rfl rfl rfl fun other hnone => ?_
    have hne : other ≠ peer := by
      rintro rfl
      rw [(linkOf_eq_some.mp hlink).1] at hnone
      cases hnone
    rw [KeyedMap.get?_insert,if_neg hne]
    exact hnone
  · exact h

theorem adoptEarlyIce (h : Lazy t) (peer : EndpointId) (attempt : RtcAttempt) :
    Lazy (t.adoptEarlyIce peer attempt) :=
  updateLink (t := { t with earlyIce := t.earlyIce.erase peer })
    (h.of_eq rfl rfl rfl fun _ => id) peer attempt _

theorem finish (h : Lazy t) (acknowledged : Option Acknowledgement) :
    Lazy (t.finish acknowledged) := by
  cases acknowledged <;> exact h.of_eq rfl rfl rfl fun _ => id

theorem ask (h : Lazy t) (task : Task) : Lazy (t.ask task) := h.of_eq rfl rfl rfl fun _ => id

theorem publish (h : Lazy t) (recipient : EndpointId) (payload : RtcPayload) :
    Lazy (t.publish recipient payload) := h.of_eq rfl rfl rfl fun _ => id

theorem flushNext (h : Lazy t) (task : Task) (answering : Bool) (pending : List IceCandidate) :
    Lazy (t.flushNext task answering pending) := by
  cases pending with
  | cons candidate rest => exact h.ask _
  | nil =>
    cases answering with
    | true => exact h.ask _
    | false => exact h.finish _

theorem move {signals : List (EndpointId × RtcPayload)} (h : Lazy t)
    (hmove : Move choice signals t t') : Lazy t' := by
  cases hmove with
  | acknowledge number retiredAttempt => exact h.of_eq rfl rfl rfl fun _ => id
  | retire hlink => exact h.retired hlink
  | dial acknowledged hother hofferer hnone hroom => exact (h.createLink _ _ _).ask _
  | offerAgain hofferer hlink hoffer => exact h.publish _ _
  | accept hsender hofferer hhandled hnone hroom => exact (h.createLink _ _ _).adoptEarlyIce _ _
  | adopt hofferer hlink => exact h.adoptEarlyIce _ _
  | answerAgain hofferer hlink hanswer => exact h.publish _ _
  | applyOffer hofferer hhandled hlink hanswer => exact h.ask _
  | applyAnswer hofferer hhandled hlink hstate => exact h.ask _
  | addIce hhandled hlink hset => exact h.ask _
  | bufferIce hhandled hlink hset => exact h.updateLink _ _ _
  | bufferEarlyIce hhandled hlink =>
    unfold bufferEarlyIce
    split
    · exact h
    · exact h.of_eq rfl rfl rfl fun _ => id

theorem resume (h : Lazy t) (task : Task) (outcome : Outcome) : Lazy (t.resume task outcome) := by
  cases outcome with
  | rejected =>
    unfold Transport.resume Transport.rejected
    cases task.stage with
    | flush candidate rest answering => exact h.flushNext task answering rest
    | addIce candidate => exact h.finish _
    | createOffer | setLocalOffer offer | setRemoteOffer sdp | createAnswer | setLocalAnswer answer
    | setRemoteAnswer sdp => exact (h.retireLink _ _).finish _
  | fulfilled sdp =>
    have hsettled : Lazy (t.settle task.pc task.stage.call) := h.of_eq rfl rfl rfl fun _ => id
    unfold Transport.resume Transport.fulfilled
    generalize t.settle task.pc task.stage.call = after at hsettled ⊢
    cases task.stage with
    | createOffer => exact hsettled.ask _
    | createAnswer => exact hsettled.ask _
    | setLocalOffer offer =>
      cases offer with
      | none => exact (hsettled.retireLink _ _).finish _
      | some sdp =>
        simp only [Transport.offered]
        split
        · exact ((hsettled.updateLink _ _ _).publish _ _).finish _
        · exact hsettled.finish _
    | setLocalAnswer answer =>
      cases answer with
      | none => exact hsettled.finish _
      | some sdp =>
        simp only [Transport.answered]
        split
        · exact ((hsettled.updateLink _ _ _).publish _ _).finish _
        · exact hsettled.finish _
    | setRemoteOffer sdp => exact (hsettled.updateLink _ _ _).flushNext task true _
    | setRemoteAnswer sdp => exact (hsettled.updateLink _ _ _).flushNext task false _
    | flush candidate rest answering => exact hsettled.flushNext task answering rest
    | addIce candidate => exact hsettled.finish _

theorem pollSend (h : Lazy t) (peer : EndpointId) (contents : List UInt8)
    (segmentSize : Option Nat) : Lazy (t.pollSend peer contents segmentSize) := by
  unfold Transport.pollSend
  dsimp only
  split
  · exact h.of_eq rfl rfl rfl fun _ => id
  · split
    · rename_i hlazy
      refine ⟨fun other => ?_,fun other hother => ?_⟩
      · have hdials := h.dials other
        simp only [Transport.madeTo,List.count_append,List.count_singleton,beq_iff_eq,
          Finset.mem_insert]
        rw [Transport.madeTo] at hdials
        by_cases hsame : peer = other
        · subst hsame
          simpa [hlazy.2] using hdials
        · simpa [hsame,Ne.symm hsame] using hdials
      · rcases Finset.mem_insert.mp hother with rfl | hold
        · simpa using hlazy.1
        · exact h.apart other hold
    · exact h

theorem step {event : Event} (h : Lazy t) (hstep : t.step event = some t') : Lazy t' := by
  cases event with
  | next choice =>
    simp only [Transport.step] at hstep
    split at hstep
    · rename_i command commands hidle hcommands
      cases hstep
      exact (handle_moves (t := { t with commands }) choice hidle command).preserve Lazy
        (fun _ _ hbefore _ hnext => hbefore.move hnext) (h.of_eq rfl rfl rfl fun _ => id)
    · cases hstep
  | resolve outcome =>
    obtain ⟨task,htask,rfl⟩ := Option.map_eq_some_iff.mp hstep
    exact h.resume task outcome
  | send peer contents segmentSize =>
    cases hstep
    exact h.pollSend peer contents segmentSize
  | dataChannel pc label channel =>
    cases hstep
    unfold attachIncomingChannel
    split
    · exact h.updateLink _ _ _
    · split
      · exact h.updateLink _ _ _
      · exact h
  | message pc bytes =>
    cases hstep
    unfold onMessage
    split <;> exact h.of_eq rfl rfl rfl fun _ => id
  | sessionMessage pc bytes =>
    cases hstep
    unfold onSessionMessage
    split <;> exact h.of_eq rfl rfl rfl fun _ => id
  | opened pc =>
    cases hstep
    unfold onOpen
    split <;> exact h.of_eq rfl rfl rfl fun _ => id
  | channels peer channel sessionChannel =>
    cases hstep
    refine h.of_eq rfl rfl rfl fun other hnone => ?_
    simp [KeyedMap.get?_mapValues,hnone]
  | command command => cases hstep; exact h.of_eq rfl rfl rfl fun _ => id
  | terminal pc => cases hstep; exact h.of_eq rfl rfl rfl fun _ => id
  | iceCandidate pc candidate => cases hstep; exact h.publish _ _
  | receive sizes => cases hstep; exact h.of_eq rfl rfl rfl fun _ => id
  | takeSession => cases hstep; exact h.of_eq rfl rfl rfl fun _ => id

end Lazy

/-- However much is sent to a peer, it is dialed for want of a link at most once more than
connections to it were made, and never while there is one. -/
theorem lazy_dials_follow_connections {localId : EndpointId} (h : Reachable localId t)
    (peer : EndpointId) :
    t.lazyDials.count peer ≤ t.madeTo peer + (if peer ∈ t.dialing then 1 else 0) ∧
      (peer ∈ t.dialing → t.links.get? peer = none) := by
  have hlazy : Lazy t := by
    induction h with
    | start => exact .init localId
    | step _ _ hstep ih => exact ih.step hstep
  exact ⟨hlazy.dials peer,hlazy.apart peer⟩

/-- Two sends before a connection, whose offer then fails, and one after it. -/
def refusedOffer : List Event :=
  [.send 2 [0] none,.send 2 [1] none,.next ⟨.replicate 8 1,true⟩,.send 2 [2] none,
    .resolve .rejected,.send 2 [3] none]

theorem lazy_dials_follow_connections_refusedOffer :
    ∃ t, ({ localId := 1 } : Transport).after refusedOffer = some t ∧ t.lazyDials = [2,2] ∧
      t.lazyDials.count 2 ≤ t.madeTo 2 + (if 2 ∈ t.dialing then 1 else 0) := by
  have hrun : (({ localId := 1 } : Transport).after refusedOffer).any
      (fun t => t.lazyDials = [2,2]) = true := by decide
  obtain ⟨t,hafter,hdials⟩ := (Option.any_eq_true _ _).mp hrun
  exact ⟨t,hafter,of_decide_eq_true hdials,
    (lazy_dials_follow_connections (Reachable.start.after hafter) 2).1⟩

end WalkieSongie.Net.WebRtc
