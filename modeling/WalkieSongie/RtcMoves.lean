import Mathlib.Logic.Relation
import WalkieSongie.RtcDriver
set_option autoImplicit false

/-!
A command is handled in moves, each of which needs no more than what the driver has just looked at.
-/

namespace WalkieSongie.Net.WebRtc

open Transport

def Transport.retired (t : Transport) (peer : EndpointId) (pc : RtcPeerConnection) : Transport :=
  { t with
    dialing := t.dialing.erase peer
    links := t.links.erase peer
    calls := t.calls ++ [⟨pc,t.browser pc,.close⟩]
    browser := Function.update t.browser pc ((t.browser pc).fulfill .close) }

/-- What the driver does between two promises, for a command that brings these signals. -/
inductive Move (choice : Choice) (signals : List (EndpointId × RtcPayload)) (t : Transport) :
    Transport → Prop where
  | acknowledge (number : Nat) (retiredAttempt : Option RtcAttempt) :
    Move choice signals t { t with fences := t.fences ++ [(number,⟨retiredAttempt⟩)] }
  | retire {peer : EndpointId} {link : PeerLink} (hlink : t.links.get? peer = some link) :
      Move choice signals t (t.retired peer link.pc)
  | dial {peer : EndpointId} (acknowledged : Option Acknowledgement) (hpeer : peer ≠ t.localId)
      (hofferer : localIsOfferer t.localId peer = true) (hnone : t.links.get? peer = none)
      (hroom : t.links.entries.length < maxSignalingPeers) :
    Move choice signals t ((t.createLink peer choice.attempt true).2.ask
      ⟨peer,choice.attempt,(t.createLink peer choice.attempt true).1,.createOffer,acknowledged⟩)
  | offerAgain {peer : EndpointId} {link : PeerLink} {sdp : String}
      (hofferer : localIsOfferer t.localId peer = true)
      (hlink : t.links.get? peer = some link) (hoffer : link.offerSdp = some sdp) :
    Move choice signals t (t.publish peer (.offer link.attempt sdp))
  | accept {sender : EndpointId} {attempt : RtcAttempt} {sdp : String}
      (hsender : sender ≠ t.localId)
      (hofferer : localIsOfferer sender t.localId = true)
      (hsignal : (sender,.offer attempt sdp) ∈ signals) (hnone : t.links.get? sender = none)
      (hroom : t.links.entries.length < maxSignalingPeers) :
    Move choice signals t ((t.createLink sender attempt false).2.adoptEarlyIce sender attempt)
  | adopt {sender : EndpointId} {attempt : RtcAttempt} {link : PeerLink}
      (hofferer : localIsOfferer sender t.localId = true)
      (hlink : t.linkOf sender attempt = some link) :
      Move choice signals t (t.adoptEarlyIce sender attempt)
  | answerAgain {sender : EndpointId} {attempt : RtcAttempt} {link : PeerLink} {sdp : String}
      (hofferer : localIsOfferer sender t.localId = true)
      (hlink : t.linkOf sender attempt = some link) (hanswer : link.answerSdp = some sdp) :
    Move choice signals t (t.publish sender (.answer attempt sdp))
  | applyOffer {sender : EndpointId} {attempt : RtcAttempt} {link : PeerLink} {sdp : String}
      (hofferer : localIsOfferer sender t.localId = true)
      (hsignal : (sender,.offer attempt sdp) ∈ signals)
      (hlink : t.linkOf sender attempt = some link) (hanswer : link.answerSdp = none) :
    Move choice signals t (t.ask ⟨sender,attempt,link.pc,.setRemoteOffer sdp,none⟩)
  | applyAnswer {sender : EndpointId} {attempt : RtcAttempt} {link : PeerLink} {sdp : String}
      (hofferer : localIsOfferer t.localId sender = true)
      (hsignal : (sender,.answer attempt sdp) ∈ signals)
      (hlink : t.linkOf sender attempt = some link)
      (hstate : (t.browser link.pc).signaling = .haveLocalOffer) :
    Move choice signals t (t.ask ⟨sender,attempt,link.pc,.setRemoteAnswer sdp,none⟩)
  | addIce {sender : EndpointId} {attempt : RtcAttempt} {link : PeerLink}
      {candidate : IceCandidate} (hsignal : (sender,.ice attempt candidate) ∈ signals)
      (hlink : t.linkOf sender attempt = some link) (hset : link.remoteDescSet = true) :
    Move choice signals t (t.ask ⟨sender,attempt,link.pc,.addIce candidate,none⟩)
  | bufferIce {sender : EndpointId} {attempt : RtcAttempt} {link : PeerLink}
      {candidate : IceCandidate} (hsignal : (sender,.ice attempt candidate) ∈ signals)
      (hlink : t.linkOf sender attempt = some link) (hset : link.remoteDescSet = false) :
    Move choice signals t (t.bufferIce sender attempt candidate)
  | bufferEarlyIce {sender : EndpointId} {attempt : RtcAttempt} {candidate : IceCandidate}
      (hsignal : (sender,.ice attempt candidate) ∈ signals)
      (hlink : t.linkOf sender attempt = none) :
    Move choice signals t (t.bufferEarlyIce sender attempt candidate)

def Command.signals : Command → List (EndpointId × RtcPayload)
  | signal sender payload => [(sender,payload)]
  | dial _ | peerReincarnated _ _ | linkTerminal _ _ => []

variable {t t' : Transport} {signals : List (EndpointId × RtcPayload)}
  {peer sender : EndpointId} {attempt : RtcAttempt} {link : PeerLink} {choice : Choice}

@[simp]
theorem EarlyIce.push_attempt (attempt : RtcAttempt) (candidate : IceCandidate)
    (early : EarlyIce) : (early.push attempt candidate).attempt = attempt := by
  unfold push
  by_cases hsame : early.attempt = attempt
  · simp only [hsame,if_true]
    split
    · rfl
    · exact hsame
  · simp only [hsame,if_false]
    split <;> rfl

theorem EarlyIce.mem_push {candidate other : IceCandidate} {early : EarlyIce}
    (h : other ∈ (early.push attempt candidate).candidates) :
    other = candidate ∨ early.attempt = attempt ∧ other ∈ early.candidates := by
  unfold push at h
  by_cases hsame : early.attempt = attempt
  · simp only [hsame,if_true] at h
    split at h
    · rcases List.mem_append.mp h with hold | hnew
      · exact .inr ⟨hsame,hold⟩
      · exact .inl (List.mem_singleton.mp hnew)
    · exact .inr ⟨hsame,h⟩
  · simp only [hsame,if_false] at h
    split at h
    · exact .inl (by simpa using h)
    · cases h

namespace Transport

theorem linkOf_eq_some :
    t.linkOf peer attempt = some link ↔ t.links.get? peer = some link ∧ link.attempt = attempt := by
  simp [linkOf,Option.filter_eq_some_iff]

theorem linkOf_eq_none :
    t.linkOf peer attempt = none ↔
      ∀ link, t.links.get? peer = some link → link.attempt ≠ attempt := by
  simp [linkOf,Option.filter_eq_none_iff]

theorem currentAttempt_eq_some :
    t.currentAttempt peer = some attempt ↔
      ∃ link, t.links.get? peer = some link ∧ link.attempt = attempt := by
  simp [currentAttempt,Option.map_eq_some_iff]

theorem updateLink_of_some {f : PeerLink → PeerLink} (h : t.linkOf peer attempt = some link) :
    t.updateLink peer attempt f = { t with links := t.links.insert peer (f link) } := by
  simp [updateLink,h]

theorem updateLink_of_none {f : PeerLink → PeerLink} (h : t.linkOf peer attempt = none) :
    t.updateLink peer attempt f = t := by
  simp [updateLink,h]

theorem retireLink_of_some (h : t.linkOf peer attempt = some link) :
    t.retireLink peer attempt = t.retired peer link.pc := by
  simp [retireLink,h,retired,record,settle]

theorem retireLink_of_none (h : t.linkOf peer attempt = none) : t.retireLink peer attempt = t := by
  simp [retireLink,h]

theorem retireOther_eq (t : Transport) (peer : EndpointId) (keep : Option RtcAttempt) :
    t.retireOther peer keep = t ∨ ∃ link, t.links.get? peer = some link ∧
      keep ≠ some link.attempt ∧ t.retireOther peer keep = t.retired peer link.pc := by
  unfold retireOther currentAttempt
  cases hlink : t.links.get? peer with
  | none => exact .inl rfl
  | some link =>
    by_cases hkeep : keep = some link.attempt
    · exact .inl (by simp [hkeep])
    · refine .inr ⟨link,rfl,hkeep,?_⟩
      simp [hkeep,retireLink_of_some (linkOf_eq_some.mpr ⟨hlink,rfl⟩)]

@[simp]
theorem finish_none_of_idle (h : t.task = none) : t.finish none = t := by
  simp [finish,← h]

end Transport

/-- The driver awaits nothing before a move. -/
def Moves (choice : Choice) (signals : List (EndpointId × RtcPayload)) :
    Transport → Transport → Prop :=
  Relation.ReflTransGen fun t t' => t.task = none ∧ Move choice signals t t'

theorem Moves.of_move (hidle : t.task = none) (h : Move choice signals t t') :
    Moves choice signals t t' :=
  .single ⟨hidle,h⟩

theorem Moves.preserve (P : Transport → Prop) (hmoves : Moves choice signals t t')
    (hmove : ∀ before after, P before → before.task = none →
      Move choice signals before after → P after)
    (h : P t) : P t' := by
  induction hmoves with
  | refl => exact h
  | tail _ hlast ih => exact hmove _ _ ih hlast.1 hlast.2

namespace Transport

theorem finish_moves (choice : Choice) (acknowledged : Option Acknowledgement)
    (hidle : t.task = none) :
    Moves choice signals t (t.finish acknowledged) := by
  cases acknowledged with
  | none => rw [finish_none_of_idle hidle]; exact .refl
  | some acknowledged =>
    obtain ⟨number,retiredAttempt⟩ := acknowledged
    have h := Moves.of_move hidle (@Move.acknowledge choice signals t number retiredAttempt)
    simpa [finish,← hidle] using h

theorem publish_moves {payload : RtcPayload} (acknowledged : Option Acknowledgement)
    (hidle : t.task = none) (h : Move choice signals t (t.publish peer payload)) :
    Moves choice signals t ((t.publish peer payload).finish acknowledged) :=
  (Moves.of_move hidle h).trans (finish_moves choice acknowledged hidle)

theorem retireOther_moves (peer : EndpointId) (keep : Option RtcAttempt) (hidle : t.task = none) :
    Moves choice signals t (t.retireOther peer keep) := by
  rcases t.retireOther_eq peer keep with h | ⟨link,hlink,-,h⟩
  · rw [h]; exact .refl
  · rw [h]; exact .of_move hidle (.retire hlink)

theorem retireLink_moves (hidle : t.task = none) :
    Moves choice signals t (t.retireLink peer attempt) := by
  cases hlink : t.linkOf peer attempt with
  | none => rw [retireLink_of_none hlink]; exact .refl
  | some link =>
    rw [retireLink_of_some hlink]
    exact .of_move hidle (.retire (linkOf_eq_some.mp hlink).1)

@[simp]
theorem retireOther_task (t : Transport) (peer : EndpointId) (keep : Option RtcAttempt) :
    (t.retireOther peer keep).task = t.task := by
  rcases t.retireOther_eq peer keep with h | ⟨link,-,-,h⟩ <;> rw [h]
  rfl

@[simp]
theorem retireLink_task : (t.retireLink peer attempt).task = t.task := by
  cases hlink : t.linkOf peer attempt with
  | none => rw [retireLink_of_none hlink]
  | some link => rw [retireLink_of_some hlink]; rfl

theorem retry_eq_some {sdp : String} (h : t.retry peer = some (attempt,sdp)) :
    ∃ link, t.links.get? peer = some link ∧ link.offerSdp = some sdp ∧ link.attempt = attempt := by
  unfold retry at h
  cases hlink : t.links.get? peer with
  | none => simp [hlink] at h
  | some link =>
    simp only [hlink] at h
    split at h
    · cases h
    · obtain ⟨_,hoffer,hsame⟩ := Option.map_eq_some_iff.mp h
      cases hsame
      exact ⟨link,rfl,hoffer,rfl⟩

/-- What `ensureLink` gives: nothing, the link that is there, or a new one. -/
theorem ensureLink_cases (t : Transport) (constructed : Bool) (peer : EndpointId)
    (attempt : RtcAttempt) (offerer : Bool) :
    t.ensureLink constructed peer attempt offerer = (none,t) ∨
      (∃ link, t.linkOf peer attempt = some link ∧ peer ≠ t.localId ∧
        t.ensureLink constructed peer attempt offerer = (some (link.pc,false),t)) ∨
      (t.links.get? peer = none ∧ peer ≠ t.localId ∧
        t.links.entries.length < maxSignalingPeers ∧
        t.ensureLink constructed peer attempt offerer =
          (some ((t.createLink peer attempt offerer).1,true),
            (t.createLink peer attempt offerer).2)) := by
  unfold ensureLink
  by_cases hself : peer = t.localId
  · exact .inl (by simp [hself])
  · cases hlink : t.links.get? peer with
    | some link =>
      by_cases hattempt : link.attempt = attempt
      · refine .inr (.inl ⟨link,linkOf_eq_some.mpr ⟨hlink,hattempt⟩,hself,?_⟩)
        simp [hself,hattempt]
      · exact .inl (by simp [hself,hattempt])
    | none =>
      by_cases hroom : maxSignalingPeers ≤ t.links.entries.length
      · exact .inl (by simp [hself,hroom])
      · cases constructed with
        | false => exact .inl (by simp [hself,hroom])
        | true => exact .inr (.inr ⟨rfl,hself,by omega,by simp [hself,hroom]⟩)

theorem handleDial_moves (acknowledged : Option Acknowledgement) (hidle : t.task = none) :
    Moves choice signals t (t.handleDial choice acknowledged peer) := by
  have hfinish : Moves choice signals t (t.finish acknowledged) :=
    finish_moves choice acknowledged hidle
  unfold handleDial
  by_cases hself : peer = t.localId
  · simpa [hself] using hfinish
  by_cases hofferer : localIsOfferer t.localId peer = true
  swap
  · simpa [hself,hofferer] using hfinish
  simp only [hself,hofferer,if_false,Bool.not_true,Bool.false_eq_true]
  cases hretry : t.retry peer with
  | some offer =>
    obtain ⟨attempt,sdp⟩ := offer
    obtain ⟨link,hlink,hoffer,rfl⟩ := retry_eq_some hretry
    exact publish_moves acknowledged hidle (.offerAgain hofferer hlink hoffer)
  | none =>
    dsimp only
    by_cases hcurrent : (t.currentAttempt peer).isSome
    · simpa [hcurrent] using hfinish
    · have hnone : t.links.get? peer = none := by simpa [currentAttempt] using hcurrent
      rw [if_neg hcurrent]
      rcases t.ensureLink_cases choice.constructed peer choice.attempt true
        with h | ⟨link,hlink,-,-⟩ | ⟨-,-,hroom,h⟩
      · rw [h]; exact hfinish
      · simp [(linkOf_eq_some.mp hlink).1] at hnone
      · rw [h]; exact .of_move hidle (.dial acknowledged hself hofferer hnone hroom)

theorem mem_earlyCandidates {candidate : IceCandidate} :
    candidate ∈ t.earlyCandidates peer attempt ↔
      ∃ early, t.earlyIce.get? peer = some early ∧ early.attempt = attempt ∧
        candidate ∈ early.candidates := by
  unfold earlyCandidates
  cases hearly : t.earlyIce.get? peer with
  | none => simp
  | some early =>
    by_cases hsame : early.attempt = attempt
    · simp [Option.filter,hsame]
    · simp [Option.filter,hsame]

theorem adoptEarlyIce_of_some (hlink : t.linkOf peer attempt = some link) :
    t.adoptEarlyIce peer attempt =
      { t with
        earlyIce := t.earlyIce.erase peer
        links := t.links.insert peer
          { link with pendingIce := link.pendingIce ++ t.earlyCandidates peer attempt } } := by
  exact updateLink_of_some hlink

theorem linkOf_adoptEarlyIce (hlink : t.linkOf peer attempt = some link) :
    (t.adoptEarlyIce peer attempt).linkOf peer attempt =
      some { link with pendingIce := link.pendingIce ++ t.earlyCandidates peer attempt } := by
  rw [adoptEarlyIce_of_some hlink,linkOf_eq_some]
  exact ⟨KeyedMap.get?_insert_self _ _ _,(linkOf_eq_some.mp hlink).2⟩

def freshLink (t : Transport) (peer : EndpointId) (attempt : RtcAttempt) (offerer : Bool) :
    PeerLink where
  pc := (t.createLink peer attempt offerer).1
  attempt
  channel := if offerer then some {} else none
  sessionChannel := if offerer then some {} else none

theorem linkOf_createLink {offerer : Bool} :
    (t.createLink peer attempt offerer).2.linkOf peer attempt =
      some (t.freshLink peer attempt offerer) := by
  rw [linkOf_eq_some]
  exact ⟨KeyedMap.get?_insert_self _ _ _,rfl⟩

theorem answerOffer_moves {start : Transport} {sdp : String} (hidle : t.task = none)
    (hofferer : localIsOfferer sender t.localId = true)
    (hsignal : (sender,.offer attempt sdp) ∈ signals) (hlink : t.linkOf sender attempt = some link)
    (hadopt : Moves choice signals start (t.adoptEarlyIce sender attempt)) :
    Moves choice signals start (t.answerOffer sender attempt sdp link.pc) := by
  have hadopted := linkOf_adoptEarlyIce hlink
  obtain ⟨htask,hlocal⟩ : (t.adoptEarlyIce sender attempt).task = t.task ∧
      (t.adoptEarlyIce sender attempt).localId = t.localId := by
    rw [adoptEarlyIce_of_some hlink]
    exact ⟨rfl,rfl⟩
  rw [← htask] at hidle
  rw [← hlocal] at hofferer
  refine hadopt.trans ?_
  unfold answerOffer
  simp only [hadopted,Option.bind_some]
  cases hanswer : link.answerSdp with
  | some answer => exact publish_moves none hidle (.answerAgain hofferer hadopted hanswer)
  | none =>
    have happly : Move choice signals (t.adoptEarlyIce sender attempt) _ :=
      .applyOffer hofferer hsignal hadopted hanswer
    exact Moves.of_move hidle happly

theorem handleOffer_moves {sdp : String} (hidle : t.task = none)
    (hsignal : (sender,.offer attempt sdp) ∈ signals) :
    Moves choice signals t (t.handleOffer choice sender attempt sdp) := by
  unfold handleOffer
  by_cases hofferer : localIsOfferer sender t.localId = true
  swap
  · simpa [hofferer] using finish_moves choice none hidle
  simp only [hofferer,Bool.not_true,Bool.false_eq_true,if_false]
  have hlocal : (t.retireOther sender (some attempt)).localId = t.localId := by
    rcases t.retireOther_eq sender (some attempt) with h | ⟨link,-,-,h⟩ <;> rw [h]
    rfl
  refine (retireOther_moves sender (some attempt) hidle).trans ?_
  rw [← retireOther_task t sender (some attempt)] at hidle
  rw [← hlocal] at hofferer
  clear hlocal
  generalize t.retireOther sender (some attempt) = t at *
  rcases t.ensureLink_cases choice.constructed sender attempt false
    with h | ⟨link,hlink,-,h⟩ | ⟨hnone,hself,hroom,h⟩
  · rw [h]
    exact finish_moves choice none hidle
  · rw [h]
    exact answerOffer_moves hidle hofferer hsignal hlink (.of_move hidle (.adopt hofferer hlink))
  · rw [h]
    have hcreated : (t.createLink sender attempt false).2.task = none := hidle
    exact answerOffer_moves hcreated hofferer hsignal linkOf_createLink
      (.of_move hidle (.accept hself hofferer hsignal hnone hroom))

theorem handleAnswer_moves {sdp : String} (hidle : t.task = none)
    (hsignal : (sender,.answer attempt sdp) ∈ signals) :
    Moves choice signals t (t.handleAnswer sender attempt sdp) := by
  have hfinish : Moves choice signals t (t.finish none) := finish_moves choice none hidle
  unfold handleAnswer
  by_cases hofferer : localIsOfferer t.localId sender = true
  swap
  · simpa [hofferer] using hfinish
  simp only [hofferer,Bool.not_true,Bool.false_eq_true,if_false]
  cases hlink : t.linkOf sender attempt with
  | none => exact hfinish
  | some link =>
    by_cases hstate : (t.browser link.pc).signaling = .haveLocalOffer
    · have happly : Move choice signals t _ := .applyAnswer hofferer hsignal hlink hstate
      simpa [hstate] using Moves.of_move hidle happly
    · simpa [hstate] using hfinish

theorem handleIce_moves {candidate : IceCandidate} (hidle : t.task = none)
    (hsignal : (sender,.ice attempt candidate) ∈ signals) :
    Moves choice signals t (t.handleIce sender attempt candidate) := by
  unfold handleIce
  cases hlink : t.linkOf sender attempt with
  | some link =>
    cases hset : link.remoteDescSet with
    | true =>
      have hadd : Move choice signals t _ := .addIce hsignal hlink hset
      simpa [hset] using Moves.of_move hidle hadd
    | false =>
      have hidle' : (t.bufferIce sender attempt candidate).task = none := by
        rw [bufferIce,updateLink_of_some hlink]
        exact hidle
      have hbuffer : Move choice signals t _ := .bufferIce hsignal hlink hset
      simpa [hset,finish_none_of_idle hidle'] using Moves.of_move hidle hbuffer
  | none =>
    have hidle' : (t.bufferEarlyIce sender attempt candidate).task = none := by
      unfold bufferEarlyIce
      split <;> exact hidle
    have hbuffer : Move choice signals t _ := .bufferEarlyIce hsignal hlink
    simpa [finish_none_of_idle hidle'] using Moves.of_move hidle hbuffer

theorem handleSignal_moves {payload : RtcPayload} (hidle : t.task = none) :
    Moves choice [(sender,payload)] { t with handled := t.handled ++ [(sender,payload)] }
      (t.handleSignal choice sender payload) := by
  unfold handleSignal
  dsimp only
  by_cases hself : sender = t.localId
  · rw [if_pos hself]
    exact finish_moves choice none hidle
  · rw [if_neg hself]
    cases payload with
    | offer attempt sdp => exact handleOffer_moves hidle (List.mem_singleton_self _)
    | answer attempt sdp => exact handleAnswer_moves hidle (List.mem_singleton_self _)
    | ice attempt candidate => exact handleIce_moves hidle (List.mem_singleton_self _)

theorem handle_moves (choice : Choice) (hidle : t.task = none) (command : Command) :
    Moves choice command.signals { t with handled := t.handled ++ command.signals }
      (t.handle choice command) := by
  have hkept : { t with handled := t.handled ++ [] } = t := by simp
  cases command with
  | dial peer =>
    rw [Command.signals,hkept]
    exact handleDial_moves none hidle
  | peerReincarnated peer acknowledged =>
    have hidle' : (t.retireOther peer none).task = none := by rw [retireOther_task]; exact hidle
    rw [Command.signals,hkept]
    exact (retireOther_moves peer none hidle).trans (handleDial_moves _ hidle')
  | signal sender payload => exact handleSignal_moves hidle
  | linkTerminal peer attempt =>
    have hidle' : (t.retireLink peer attempt).task = none := by rw [retireLink_task]; exact hidle
    rw [Command.signals,hkept,handle]
    by_cases hcurrent : t.attemptIsCurrent peer attempt = true
    · rw [if_pos hcurrent]
      exact (retireLink_moves hidle).trans (handleDial_moves none hidle')
    · rw [if_neg hcurrent]
      exact finish_moves choice none hidle

end Transport

theorem Move.handled (h : Move choice signals t t') : t'.handled = t.handled := by
  cases h with
  | accept hsender hofferer hsignal hnone hroom =>
    rw [adoptEarlyIce_of_some linkOf_createLink]
    rfl
  | adopt hofferer hlink => rw [adoptEarlyIce_of_some hlink]
  | bufferIce hsignal hlink hset => rw [Transport.bufferIce,updateLink_of_some hlink]
  | bufferEarlyIce hsignal hlink =>
    unfold Transport.bufferEarlyIce
    split <;> rfl
  | acknowledge | retire | dial | offerAgain | answerAgain | applyOffer | applyAnswer
      | addIce => rfl

end WalkieSongie.Net.WebRtc
