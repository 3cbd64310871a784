import WalkieSongie.RtcProvenance
set_option autoImplicit false

/-!
What becomes of a candidate that is handled: it is given to a connection, waits in a bounded buffer,
or is dropped, and those that are given keep their order.
-/

namespace WalkieSongie.Net.WebRtc
open Transport

variable {t t' : Transport} {peer other : EndpointId} {attempt : RtcAttempt} {link : PeerLink}
  {pc : RtcPeerConnection} {task : Task} {choice : Choice} {candidate : IceCandidate}

def RtcPayload.candidateOf (attempt : RtcAttempt) : RtcPayload → Option IceCandidate
  | ice other candidate => if other = attempt then some candidate else none
  | offer _ _ | answer _ _ => none

/-- The candidate that a call gives to a connection of this attempt. -/
def PcRecord.candidateOf (peer : EndpointId) (attempt : RtcAttempt) (entry : PcRecord) :
    Option IceCandidate :=
  match entry.call with
  | .addIceCandidate candidate =>
    if entry.pc.peer = peer ∧ entry.pc.attempt = attempt then some candidate else none
  | _ => none

def Stage.rest : Stage → List IceCandidate
  | flush _ rest _ => rest
  | _ => []

namespace Transport

variable (t : Transport)

def received (peer : EndpointId) (attempt : RtcAttempt) : List IceCandidate :=
  t.handled.filterMap fun signal =>
    if signal.1 = peer then signal.2.candidateOf attempt else none

def added (peer : EndpointId) (attempt : RtcAttempt) : List IceCandidate :=
  t.calls.filterMap fun entry => entry.candidateOf peer attempt

def upcoming (peer : EndpointId) (attempt : RtcAttempt) : List IceCandidate :=
  match t.task with
  | some task => if task.peer = peer ∧ task.attempt = attempt then task.stage.rest else []
  | none => []

/-- The candidates that a link has not been given yet; only an answerer will adopt early ones. -/
def waiting (peer : EndpointId) (attempt : RtcAttempt) : List IceCandidate :=
  match t.linkOf peer attempt with
  | some link => link.pendingIce
  | none => if localIsOfferer t.localId peer then [] else t.earlyCandidates peer attempt

def trail (peer : EndpointId) (attempt : RtcAttempt) : List IceCandidate :=
  t.added peer attempt ++ (t.upcoming peer attempt ++ t.waiting peer attempt)

end Transport

structure Buffered (t : Transport) : Prop where
  order : ∀ peer attempt, (t.trail peer attempt).Sublist (t.received peer attempt)
  flushed : ∀ peer link, t.links.get? peer = some link → link.remoteDescSet = true →
    link.pendingIce = []
  apart : ∀ peer link, t.links.get? peer = some link → link.pc.offerer = false →
    t.earlyCandidates peer link.attempt = []
  pending : ∀ peer link, t.links.get? peer = some link →
    link.pendingIce.length ≤ maxEarlyIceCandidates
  early : ∀ peer early, t.earlyIce.get? peer = some early →
    early.candidates.length ≤ maxEarlyIceCandidates
  peers : t.earlyIce.entries.length ≤ maxSignalingPeers

namespace Transport

theorem linkOf_insert (t : Transport) (peer other : EndpointId) (attempt : RtcAttempt)
    (link : PeerLink) :
    ({ t with links := t.links.insert peer link }).linkOf other attempt =
      if other = peer then (if link.attempt = attempt then some link else none)
      else t.linkOf other attempt := by
  unfold linkOf
  dsimp only
  rw [KeyedMap.get?_insert]
  by_cases hsame : other = peer
  · by_cases hattempt : link.attempt = attempt <;> simp [hsame,hattempt,Option.filter]
  · simp [hsame]

theorem linkOf_erase (t : Transport) (peer other : EndpointId) (attempt : RtcAttempt) :
    ({ t with links := t.links.erase peer }).linkOf other attempt =
      if other = peer then none else t.linkOf other attempt := by
  unfold linkOf
  dsimp only
  rw [KeyedMap.get?_erase]
  by_cases hsame : other = peer
  · simp [hsame]
  · simp [hsame]

@[simp]
theorem upcoming_of_idle (hidle : t.task = none) (attempt : RtcAttempt) :
    t.upcoming peer attempt = [] := by
  simp [upcoming,hidle]

theorem added_record (t : Transport) (peer : EndpointId) (attempt : RtcAttempt)
    (pc : RtcPeerConnection) (call : PcCall) :
    (t.record pc call).added peer attempt = t.added peer attempt ++
      (PcRecord.candidateOf peer attempt ⟨pc,t.browser pc,call⟩).toList := by
  cases hnew : PcRecord.candidateOf peer attempt ⟨pc,t.browser pc,call⟩ <;>
    simp [added,record,List.filterMap_append,hnew]

theorem candidateOf_of_ne {found : PcState} {call : PcCall}
    (h : ∀ candidate, call ≠ .addIceCandidate candidate) :
    PcRecord.candidateOf peer attempt ⟨pc,found,call⟩ = none := by
  unfold PcRecord.candidateOf
  split
  · rename_i candidate hcall
    exact absurd hcall (h candidate)
  · rfl

theorem added_candidate (t : Transport) (peer : EndpointId) (attempt : RtcAttempt)
    (pc : RtcPeerConnection) (candidate : IceCandidate) :
    (t.record pc (.addIceCandidate candidate)).added peer attempt = t.added peer attempt ++
      if pc.peer = peer ∧ pc.attempt = attempt then [candidate] else [] := by
  rw [added_record]
  by_cases h : pc.peer = peer ∧ pc.attempt = attempt
  · simp [PcRecord.candidateOf,h]
  · simp [PcRecord.candidateOf,h]

end Transport

namespace Buffered

/-- Nothing is received, and no candidate put anywhere else than it was. -/
theorem of_trail (h : Buffered t) (hhandled : t'.handled = t.handled)
    (htrail : ∀ peer attempt, (t'.trail peer attempt).Sublist (t.trail peer attempt))
    (hlinks : ∀ peer link, t'.links.get? peer = some link → ∃ old, t.links.get? peer = some old ∧
      link.pc = old.pc ∧ link.attempt = old.attempt ∧ link.remoteDescSet = old.remoteDescSet ∧
        link.pendingIce = old.pendingIce)
    (hearly : t'.earlyIce = t.earlyIce) : Buffered t' := by
  refine ⟨fun peer attempt => ?_,fun peer link hlink hset => ?_,fun peer link hlink hrole => ?_,
    fun peer link hlink => ?_,?_,?_⟩
  · rw [received,hhandled,← received]
    exact (htrail peer attempt).trans (h.order peer attempt)
  · obtain ⟨old,hold,-,-,hsame,hpending⟩ := hlinks peer link hlink
    rw [hpending]
    exact h.flushed peer old hold (hsame ▸ hset)
  · obtain ⟨old,hold,hpc,hattempt,-,-⟩ := hlinks peer link hlink
    rw [earlyCandidates,hearly,hattempt,← earlyCandidates]
    exact h.apart peer old hold (hpc ▸ hrole)
  · obtain ⟨old,hold,-,-,-,hpending⟩ := hlinks peer link hlink
    rw [hpending]
    exact h.pending peer old hold
  · rw [hearly]; exact h.early
  · rw [hearly]; exact h.peers

theorem of_eq (h : Buffered t) (hlocal : t'.localId = t.localId)
    (hhandled : t'.handled = t.handled) (hcalls : t'.calls = t.calls) (htask : t'.task = t.task)
    (hlinks : t'.links = t.links) (hearly : t'.earlyIce = t.earlyIce) : Buffered t' := by
  refine h.of_trail hhandled (fun peer attempt => ?_) (fun peer link hlink => ?_) hearly
  · simp only [trail,added,upcoming,waiting,linkOf,earlyCandidates,hlocal,hcalls,
      htask,hlinks,hearly]
    exact List.Sublist.refl _
  · exact ⟨link,hlinks ▸ hlink,rfl,rfl,rfl,rfl⟩

theorem waiting_length (h : Buffered t) (peer : EndpointId) (attempt : RtcAttempt) :
    (t.waiting peer attempt).length ≤ maxEarlyIceCandidates := by
  unfold waiting
  split
  · rename_i link hlink
    exact h.pending peer link (linkOf_eq_some.mp hlink).1
  · split
    · exact Nat.zero_le _
    · unfold earlyCandidates
      cases hearly : t.earlyIce.get? peer with
      | none => simp
      | some early =>
        have hbound := h.early peer early hearly
        by_cases hsame : early.attempt = attempt
        · simpa [Option.filter,hsame] using hbound
        · simp [Option.filter,hsame]

/-- A link that is gone leaves nothing behind. -/
theorem waiting_erase (h : Buffered t) (hlink : t.links.get? peer = some link)
    (hrole : link.pc.offerer = localIsOfferer t.localId peer) (other : EndpointId)
    (attempt : RtcAttempt) :
    (({ t with links := t.links.erase peer }).waiting other attempt).Sublist
      (t.waiting other attempt) := by
  unfold waiting
  rw [linkOf_erase]
  by_cases hsame : other = peer
  · subst hsame
    rw [if_pos rfl]
    dsimp only
    by_cases hattempt : link.attempt = attempt
    · have hnone : (if localIsOfferer t.localId other then []
          else t.earlyCandidates other attempt) = [] := by
        cases hofferer : localIsOfferer t.localId other with
        | true => rfl
        | false =>
          rw [hofferer] at hrole
          simpa [hattempt] using h.apart other link hlink hrole
      change List.Sublist (if localIsOfferer t.localId other then []
        else t.earlyCandidates other attempt) _
      rw [hnone]
      exact List.nil_sublist _
    · have hnone : t.linkOf other attempt = none := by
        rw [linkOf_eq_none]
        rintro found hfound
        rw [hlink] at hfound
        obtain rfl := Option.some.inj hfound
        exact hattempt
      rw [hnone]
      exact List.Sublist.refl _
  · rw [if_neg hsame]
    exact List.Sublist.refl _

theorem retired (h : Buffered t) (hlink : t.links.get? peer = some link)
    (hrole : link.pc.offerer = localIsOfferer t.localId peer) :
    Buffered (t.retired peer link.pc) := by
  refine h.of_trail rfl (fun other attempt => ?_) (fun other found hfound => ?_) rfl
  · have hadded : (t.retired peer link.pc).added other attempt = t.added other attempt := by
      have hrecorded := t.added_record other attempt link.pc .close
      rw [candidateOf_of_ne (by simp)] at hrecorded
      exact hrecorded.trans (List.append_nil _)
    unfold trail
    rw [hadded]
    exact (List.Sublist.append_left (h.waiting_erase hlink hrole other attempt) _).append_left _
  · simp only [Transport.retired,KeyedMap.get?_erase] at hfound
    split at hfound
    · cases hfound
    · exact ⟨found,hfound,rfl,rfl,rfl,rfl⟩

theorem asked (h : Buffered t) (hcall : ∀ candidate, task.stage.call ≠ .addIceCandidate candidate)
    (hrest : task.stage.rest = []) : Buffered (t.ask task) := by
  refine h.of_trail rfl (fun other attempt => ?_)
    (fun other found hfound => ⟨found,hfound,rfl,rfl,rfl,rfl⟩) rfl
  have hadded : (t.ask task).added other attempt = t.added other attempt := by
    have hrecorded := t.added_record other attempt task.pc task.stage.call
    rw [candidateOf_of_ne hcall] at hrecorded
    exact hrecorded.trans (List.append_nil _)
  have hupcoming : (t.ask task).upcoming other attempt = [] := by
    simp [upcoming,Transport.ask,hrest]
  unfold trail
  rw [hadded,hupcoming,List.nil_append]
  exact (List.sublist_append_right _ _).append_left _

theorem finished {acknowledged : Option Acknowledgement} (h : Buffered t) :
    Buffered (t.finish acknowledged) := by
  have hcleared : Buffered { t with task := none } := by
    refine h.of_trail rfl (fun other attempt => ?_)
      (fun other found hfound => ⟨found,hfound,rfl,rfl,rfl,rfl⟩) rfl
    unfold trail
    rw [upcoming_of_idle rfl,List.nil_append]
    exact (List.sublist_append_right _ _).append_left _
  cases acknowledged with
  | none => exact hcleared
  | some acknowledged => exact hcleared.of_eq rfl rfl rfl rfl rfl rfl

theorem earlyCandidates_erase (t : Transport) (peer other : EndpointId) (attempt : RtcAttempt) :
    ({ t with earlyIce := t.earlyIce.erase peer }).earlyCandidates other attempt =
      if other = peer then [] else t.earlyCandidates other attempt := by
  unfold earlyCandidates
  dsimp only
  rw [KeyedMap.get?_erase]
  by_cases hsame : other = peer
  · simp [hsame]
  · simp [hsame]

/-- A link of the answerer takes over what waits for its attempt. -/
theorem adopted {link' : PeerLink} (h : Buffered t)
    (hcurrent : ∀ link, t.links.get? peer = some link → link.attempt = attempt)
    (hanswerer : localIsOfferer t.localId peer = false) (hattempt : link'.attempt = attempt)
    (hpending : link'.pendingIce = t.waiting peer attempt)
    (hset : link'.remoteDescSet = true → link'.pendingIce = []) :
    Buffered { t with links := t.links.insert peer link', earlyIce := t.earlyIce.erase peer } := by
  let after : Transport :=
    { t with links := t.links.insert peer link', earlyIce := t.earlyIce.erase peer }
  have hlinkOf : ∀ other attempt', after.linkOf other attempt' =
      if other = peer then (if link'.attempt = attempt' then some link' else none)
      else t.linkOf other attempt' := fun other attempt' =>
        t.linkOf_insert peer other attempt' link'
  have hearly : ∀ other attempt', after.earlyCandidates other attempt' =
      if other = peer then [] else t.earlyCandidates other attempt' :=
    fun other attempt' => earlyCandidates_erase t peer other attempt'
  have hfound : ∀ other found, after.links.get? other = some found →
      (other = peer ∧ found = link') ∨ (other ≠ peer ∧ t.links.get? other = some found) := by
    intro other found hother
    simp only [after,KeyedMap.get?_insert] at hother
    by_cases hsame : other = peer
    · rw [if_pos hsame] at hother
      exact .inl ⟨hsame,(Option.some.inj hother).symm⟩
    · rw [if_neg hsame] at hother
      exact .inr ⟨hsame,hother⟩
  refine ⟨fun other attempt' => ?_,fun other found hother hremote => ?_,
    fun other found hother hrole => ?_,fun other found hother => ?_,fun other early hother => ?_,?_⟩
  · refine List.Sublist.trans ?_ (h.order other attempt')
    refine (List.Sublist.append_left ?_ _).append_left _
    change (after.waiting other attempt').Sublist _
    unfold waiting
    rw [hlinkOf,hearly]
    by_cases hsame : other = peer
    · subst hsame
      rw [if_pos rfl,if_pos rfl]
      by_cases hattempt' : link'.attempt = attempt'
      · rw [if_pos hattempt']
        dsimp only
        rw [hpending,← hattempt',hattempt]
        exact List.Sublist.refl _
      · rw [if_neg hattempt']
        simp
    · rw [if_neg hsame,if_neg hsame]
  · rcases hfound other found hother with ⟨-,rfl⟩ | ⟨-,hold⟩
    · exact hset hremote
    · exact h.flushed other found hold hremote
  · change after.earlyCandidates other found.attempt = []
    rw [hearly]
    rcases hfound other found hother with ⟨rfl,-⟩ | ⟨hne,hold⟩
    · rw [if_pos rfl]
    · rw [if_neg hne]
      exact h.apart other found hold hrole
  · rcases hfound other found hother with ⟨-,rfl⟩ | ⟨-,hold⟩
    · rw [hpending]
      exact h.waiting_length peer attempt
    · exact h.pending other found hold
  · simp only [KeyedMap.get?_erase] at hother
    split at hother
    · cases hother
    · exact h.early other early hother
  · exact (KeyedMap.length_erase_le _ _).trans h.peers

theorem replaced {link' : PeerLink} (h : Buffered t) (hlink : t.links.get? peer = some link)
    (hpc : link'.pc = link.pc) (hattempt : link'.attempt = link.attempt)
    (hset : link'.remoteDescSet = link.remoteDescSet)
    (hpending : link'.pendingIce = link.pendingIce) :
    Buffered { t with links := t.links.insert peer link' } := by
  refine h.of_trail rfl (fun other attempt => ?_) (fun other found hother => ?_) rfl
  · refine (List.Sublist.append_left ?_ _).append_left _
    unfold waiting
    rw [linkOf_insert]
    by_cases hsame : other = peer
    · subst hsame
      rw [if_pos rfl,hattempt]
      by_cases hcurrent : link.attempt = attempt
      · rw [if_pos hcurrent,linkOf_eq_some.mpr ⟨hlink,hcurrent⟩]
        dsimp only
        rw [hpending]
      · have hnone : t.linkOf other attempt = none := by
          rw [linkOf_eq_none]
          rintro found hfound
          rw [hlink] at hfound
          obtain rfl := Option.some.inj hfound
          exact hcurrent
        rw [if_neg hcurrent,hnone]
        exact List.Sublist.refl _
    · rw [if_neg hsame]
      exact List.Sublist.refl _
  · simp only [KeyedMap.get?_insert] at hother
    by_cases hsame : other = peer
    · rw [if_pos hsame] at hother
      obtain rfl := Option.some.inj hother
      exact ⟨link,hsame ▸ hlink,hpc,hattempt,hset,hpending⟩
    · rw [if_neg hsame] at hother
      exact ⟨found,hother,rfl,rfl,rfl,rfl⟩

theorem offered (h : Buffered t) (hnone : t.links.get? peer = none)
    (hofferer : localIsOfferer t.localId peer = true) (attempt : RtcAttempt) :
    Buffered (t.createLink peer attempt true).2 := by
  have hfound : ∀ other found, (t.createLink peer attempt true).2.links.get? other = some found →
      found = t.freshLink peer attempt true ∨ t.links.get? other = some found := by
    intro other found hother
    simp only [createLink,KeyedMap.get?_insert] at hother
    by_cases hsame : other = peer
    · rw [if_pos hsame] at hother
      exact .inl (Option.some.inj hother).symm
    · rw [if_neg hsame] at hother
      exact .inr hother
  refine ⟨fun other attempt' => ?_,fun other found hother hremote => ?_,
    fun other found hother hrole => ?_,fun other found hother => ?_,h.early,h.peers⟩
  · refine List.Sublist.trans ?_ (h.order other attempt')
    refine (List.Sublist.append_left ?_ _).append_left _
    have hlinkOf := t.linkOf_insert peer other attempt' (t.freshLink peer attempt true)
    unfold waiting
    change List.Sublist (match ({ t with
      links := t.links.insert peer (t.freshLink peer attempt true) }).linkOf other attempt' with
      | some link => link.pendingIce
      | none => if localIsOfferer t.localId other then [] else t.earlyCandidates other attempt') _
    rw [hlinkOf]
    by_cases hsame : other = peer
    · subst hsame
      rw [if_pos rfl]
      split
      · rename_i found hsome
        split at hsome
        · obtain rfl := Option.some.inj hsome
          exact List.nil_sublist _
        · cases hsome
      · rw [hofferer]
        exact List.nil_sublist _
    · rw [if_neg hsame]
  · rcases hfound other found hother with rfl | hold
    · rfl
    · exact h.flushed other found hold hremote
  · rcases hfound other found hother with rfl | hold
    · cases hrole
    · exact h.apart other found hold hrole
  · rcases hfound other found hother with rfl | hold
    · exact Nat.zero_le _
    · exact h.pending other found hold

theorem move {signals : List (EndpointId × RtcPayload)} (hd : Disciplined t) (h : Buffered t)
    (hidle : t.task = none)
    (hsignals : ∀ sender attempt candidate, (sender,.ice attempt candidate) ∉ signals)
    (hmove : Move choice signals t t') : Buffered t' := by
  have hsound := hd.sound_of_idle hidle
  cases hmove with
  | acknowledge number retiredAttempt => exact h.of_eq rfl rfl rfl rfl rfl rfl
  | retire hlink => exact h.retired hlink (hsound.linked _ _ hlink).offerer
  | dial acknowledged hother hofferer hnone hroom =>
    exact (h.offered hnone hofferer choice.attempt).asked (by simp [Stage.call]) rfl
  | offerAgain hofferer hlink hoffer => exact h.of_eq rfl rfl rfl rfl rfl rfl
  | @accept sender attempt sdp hsender hofferer hsignal hnone hroom =>
    have hwaiting : t.waiting sender attempt = t.earlyCandidates sender attempt := by
      have hlinkOf : t.linkOf sender attempt = none := by simp [linkOf_eq_none,hnone]
      simp [waiting,hlinkOf,localIsOfferer_symm hofferer]
    let link' : PeerLink := { t.freshLink sender attempt false with
      pendingIce := [] ++ t.earlyCandidates sender attempt }
    have hadopted : Buffered { t with
        links := t.links.insert sender link', earlyIce := t.earlyIce.erase sender } :=
      h.adopted (by simp [hnone]) (localIsOfferer_symm hofferer) rfl hwaiting.symm
        (by simp [link',freshLink])
    rw [adoptEarlyIce_of_some linkOf_createLink]
    exact hadopted.of_eq rfl rfl rfl rfl (KeyedMap.insert_insert _ _ _ _) rfl
  | @adopt sender attempt link hofferer hlink =>
    obtain ⟨hfound,hattempt⟩ := linkOf_eq_some.mp hlink
    have hanswerer := localIsOfferer_symm hofferer
    have hearly : t.earlyCandidates sender attempt = [] := by
      rw [← hattempt]
      exact h.apart sender link hfound ((hsound.linked _ _ hfound).offerer.trans hanswerer)
    rw [adoptEarlyIce_of_some hlink]
    refine h.adopted (fun other hother => ?_) hanswerer hattempt ?_ fun hset => ?_
    · rw [hfound] at hother
      obtain rfl := Option.some.inj hother
      exact hattempt
    · simp [waiting,hlink,hearly]
    · simpa [hearly] using h.flushed sender link hfound hset
  | answerAgain hofferer hlink hanswer => exact h.of_eq rfl rfl rfl rfl rfl rfl
  | applyOffer hofferer hsignal hlink hanswer => exact h.asked (by simp [Stage.call]) rfl
  | applyAnswer hofferer hsignal hlink hstate => exact h.asked (by simp [Stage.call]) rfl
  | addIce hsignal hlink hset => exact absurd hsignal (hsignals _ _ _)
  | bufferIce hsignal hlink hset => exact absurd hsignal (hsignals _ _ _)
  | bufferEarlyIce hsignal hlink => exact absurd hsignal (hsignals _ _ _)

/-! ### After a promise -/

theorem flushNext {answering : Bool} {pending : List IceCandidate} (candidate : IceCandidate)
    (h : Buffered { t with task := some { task with stage := .flush candidate pending answering } })
    (hkey : task.pc.peer = task.peer ∧ task.pc.attempt = task.attempt) :
    Buffered (t.flushNext task answering pending) := by
  cases pending with
  | cons next rest =>
    refine h.of_trail rfl (fun other attempt => ?_)
      (fun other found hfound => ⟨found,hfound,rfl,rfl,rfl,rfl⟩) rfl
    let flushing := { task with stage := .flush candidate (next :: rest) answering }
    have hadded : (t.flushNext task answering (next :: rest)).added other attempt =
        t.added other attempt ++
          if task.peer = other ∧ task.attempt = attempt then [next] else [] := by
      rw [← hkey.1,← hkey.2]
      exact t.added_candidate other attempt task.pc next
    have hupcoming : (t.flushNext task answering (next :: rest)).upcoming other attempt =
        if task.peer = other ∧ task.attempt = attempt then rest else [] := rfl
    have hbefore : ({ t with task := some flushing }).upcoming other attempt =
        if task.peer = other ∧ task.attempt = attempt then next :: rest else [] := rfl
    unfold trail
    rw [hadded,hupcoming,hbefore,List.append_assoc]
    refine List.Sublist.append_left ?_ _
    change List.Sublist (_ ++ (_ ++ t.waiting other attempt)) (_ ++ t.waiting other attempt)
    split
    · exact List.Sublist.refl _
    · exact List.Sublist.refl _
  | nil =>
    cases answering with
    | true =>
      let flushing := { task with stage := .flush candidate [] true }
      change Buffered (({ t with task := some flushing }).ask { task with stage := .createAnswer })
      exact h.asked (by simp [Stage.call]) rfl
    | false =>
      let flushing := { task with stage := .flush candidate [] false }
      have hsame : ({ t with task := some flushing }).finish task.acknowledged =
          t.finish task.acknowledged := by
        cases task.acknowledged <;> rfl
      change Buffered (t.finish task.acknowledged)
      rw [← hsame]
      exact h.finished

/-- The pending candidates of a link are those of its flush. -/
theorem flushAfterRemoteDesc {answering : Bool} (h : Buffered t) (htask : t.task = some task)
    (hrest : task.stage.rest = []) (hlink : t.linkOf task.peer task.attempt = some link)
    (hkey : task.pc.peer = task.peer ∧ task.pc.attempt = task.attempt) :
    Buffered (t.flushAfterRemoteDesc task answering) := by
  obtain ⟨hfound,hattempt⟩ := linkOf_eq_some.mp hlink
  unfold Transport.flushAfterRemoteDesc
  rw [updateLink_of_some hlink,hlink]
  let link' : PeerLink := { link with remoteDescSet := true, pendingIce := [] }
  let flushing := { task with stage := .flush ⟨"",none,none⟩ link.pendingIce answering }
  change Buffered (({ t with links := t.links.insert task.peer link' }).flushNext task answering
    link.pendingIce)
  refine flushNext ⟨"",none,none⟩ ?_ hkey
  change Buffered
    { t with links := t.links.insert task.peer link', task := some flushing }
  have hget : ∀ other found, (t.links.insert task.peer link').get? other = some found →
      (other = task.peer ∧ found = link') ∨ t.links.get? other = some found := by
    intro other found hother
    rw [KeyedMap.get?_insert] at hother
    by_cases hsame : other = task.peer
    · rw [if_pos hsame] at hother
      exact .inl ⟨hsame,(Option.some.inj hother).symm⟩
    · rw [if_neg hsame] at hother
      exact .inr hother
  refine ⟨fun other attempt => ?_,fun other found hother hset => ?_,
    fun other found hother hrole => ?_,fun other found hother => ?_,h.early,h.peers⟩
  · refine List.Sublist.trans ?_ (h.order other attempt)
    refine List.Sublist.append_left ?_ _
    have hupcoming : t.upcoming other attempt = [] := by
      simp [upcoming,htask,hrest]
    have hwaiting : ({ t with links := t.links.insert task.peer link', task := some flushing }
        ).waiting other attempt = if task.peer = other ∧ task.attempt = attempt then []
          else t.waiting other attempt := by
      have hlinkOf := t.linkOf_insert task.peer other attempt link'
      unfold waiting
      change (match ({ t with links := t.links.insert task.peer link' }).linkOf other attempt with
        | some found => found.pendingIce
        | none => if localIsOfferer t.localId other then [] else t.earlyCandidates other attempt) =
            _
      rw [hlinkOf]
      by_cases hpeer : other = task.peer
      · subst hpeer
        by_cases hcurrent : link.attempt = attempt
        · simp [link',hcurrent,← hattempt]
        · have hnone : t.linkOf task.peer attempt = none := by
            rw [linkOf_eq_none]
            rintro found hother
            rw [hfound] at hother
            obtain rfl := Option.some.inj hother
            exact hcurrent
          simp [link',hcurrent,← hattempt,hnone]
      · simp [hpeer,Ne.symm hpeer]
    have hbefore : task.peer = other ∧ task.attempt = attempt →
        t.waiting other attempt = link.pendingIce := by
      rintro ⟨rfl,rfl⟩
      simp [waiting,hlink]
    rw [hupcoming,hwaiting]
    change List.Sublist ((if task.peer = other ∧ task.attempt = attempt then link.pendingIce
      else []) ++ _) _
    split
    · rename_i hsame
      rw [hbefore hsame]
      simp
    · exact List.Sublist.refl _
  · rcases hget other found hother with ⟨-,rfl⟩ | hold
    · rfl
    · exact h.flushed other found hold hset
  · rcases hget other found hother with ⟨rfl,rfl⟩ | hold
    · exact h.apart task.peer link hfound hrole
    · exact h.apart other found hold hrole
  · rcases hget other found hother with ⟨-,rfl⟩ | hold
    · exact Nat.zero_le _
    · exact h.pending other found hold

theorem resume (hd : Disciplined t) (h : Buffered t) (htask : t.task = some task)
    (outcome : Outcome) : Buffered (t.resume task outcome) := by
  obtain ⟨link,hlink,hpc,-⟩ := hd.awaits task htask
  obtain ⟨hfound,hattempt⟩ := linkOf_eq_some.mp hlink
  have hfits := hd.sound.linked _ _ hfound
  have hkey : task.pc.peer = task.peer ∧ task.pc.attempt = task.attempt := by
    rw [← hpc]
    exact ⟨hfits.keyed,hfits.attempt.trans hattempt⟩
  have hflush : ∀ {after : Transport} {candidate rest answering}, Buffered after →
      after.task = some task → task.stage = .flush candidate rest answering →
        Buffered (after.flushNext task answering rest) := by
    intro after candidate rest answering hafter hsome hstage
    refine flushNext candidate ?_ hkey
    have hsame : { task with stage := .flush candidate rest answering } = task := by rw [← hstage]
    exact hafter.of_eq rfl rfl rfl (by rw [hsame,hsome]) rfl rfl
  cases outcome with
  | rejected =>
    have habandoned :
      Buffered ((t.retireLink task.peer task.attempt).finish task.acknowledged) := by
      rw [retireLink_of_some hlink]
      exact (h.retired hfound hfits.offerer).finished
    unfold Transport.resume Transport.rejected
    cases hstage : task.stage with
    | flush candidate rest answering => exact hflush h htask hstage
    | addIce candidate => exact h.finished
    | createOffer | setLocalOffer offer | setRemoteOffer sdp | createAnswer | setLocalAnswer answer
    | setRemoteAnswer sdp => exact habandoned
  | fulfilled sdp =>
    have hsettled : Buffered (t.settle task.pc task.stage.call) := h.of_eq rfl rfl rfl rfl rfl rfl
    have hlink' : (t.settle task.pc task.stage.call).linkOf task.peer task.attempt = some link :=
      hlink
    have htask' : (t.settle task.pc task.stage.call).task = some task := htask
    have hlocal : (t.settle task.pc task.stage.call).localId = t.localId := rfl
    have hfound' := (linkOf_eq_some.mp hlink').1
    have hrole := hfits.offerer
    rw [← hlocal] at hrole
    unfold Transport.resume Transport.fulfilled
    generalize t.settle task.pc task.stage.call = after at *
    have hdescribed : ∀ {link' : PeerLink} {payload : RtcPayload}, link'.pc = link.pc →
        link'.attempt = link.attempt → link'.remoteDescSet = link.remoteDescSet →
          link'.pendingIce = link.pendingIce →
            Buffered (({ after with links := after.links.insert task.peer link' }.publish task.peer
              payload).finish task.acknowledged) := by
      intro link' payload hsame hcurrent hset hpending
      have hreplaced := hsettled.replaced hfound' hsame hcurrent hset hpending
      exact Buffered.finished (hreplaced.of_eq rfl rfl rfl rfl rfl rfl)
    cases hstage : task.stage with
    | createOffer => exact hsettled.asked (by simp [Stage.call]) rfl
    | createAnswer => exact hsettled.asked (by simp [Stage.call]) rfl
    | setLocalOffer offer =>
      cases offer with
      | some sdp =>
        simp only [Transport.offered,hlink',Option.isSome_some,if_true,updateLink_of_some hlink']
        exact hdescribed rfl rfl rfl rfl
      | none =>
        simp only [Transport.offered,retireLink_of_some hlink']
        exact (hsettled.retired hfound' hrole).finished
    | setLocalAnswer answer =>
      cases answer with
      | some sdp =>
        simp only [Transport.answered,hlink',Option.isSome_some,if_true,updateLink_of_some hlink']
        exact hdescribed rfl rfl rfl rfl
      | none => exact hsettled.finished
    | setRemoteOffer sdp =>
      exact hsettled.flushAfterRemoteDesc htask' (by rw [hstage]; rfl) hlink' hkey
    | setRemoteAnswer sdp =>
      exact hsettled.flushAfterRemoteDesc htask' (by rw [hstage]; rfl) hlink' hkey
    | flush candidate rest answering => exact hflush hsettled htask' hstage
    | addIce candidate => exact hsettled.finished

/-! ### A candidate that is handled -/

theorem received_ice (t : Transport) (sender other : EndpointId) (attempt attempt' : RtcAttempt)
    (candidate : IceCandidate) :
    ({ t with handled := t.handled ++ [(sender,RtcPayload.ice attempt candidate)] }).received
      other attempt' =
      t.received other attempt' ++
        if sender = other ∧ attempt = attempt' then [candidate] else [] := by
  by_cases hsender : sender = other
  · by_cases hattempt : attempt = attempt'
    · simp [received,List.filterMap_append,hsender,hattempt,RtcPayload.candidateOf]
    · simp [received,List.filterMap_append,hsender,hattempt,RtcPayload.candidateOf]
  · simp [received,List.filterMap_append,hsender]

theorem handle (h : Buffered t) (signals : List (EndpointId × RtcPayload)) :
    Buffered { t with handled := t.handled ++ signals } := by
  refine ⟨fun peer attempt => ?_,h.flushed,h.apart,h.pending,h.early,h.peers⟩
  refine (h.order peer attempt).trans ?_
  simp only [received,List.filterMap_append]
  exact List.sublist_append_left _ _

/-- Where the trails grow by no more than the candidate that is handled. -/
theorem of_received {sender : EndpointId} (h : Buffered t)
    (hhandled : t'.handled = t.handled ++ [(sender,.ice attempt candidate)])
    (htrail : ∀ other attempt', (t'.trail other attempt').Sublist (t.trail other attempt' ++
      if sender = other ∧ attempt = attempt' then [candidate] else []))
    (hflushed : ∀ peer link, t'.links.get? peer = some link → link.remoteDescSet = true →
      link.pendingIce = [])
    (hapart : ∀ peer link, t'.links.get? peer = some link → link.pc.offerer = false →
      t'.earlyCandidates peer link.attempt = [])
    (hpending : ∀ peer link, t'.links.get? peer = some link →
      link.pendingIce.length ≤ maxEarlyIceCandidates)
    (hearly : ∀ peer early, t'.earlyIce.get? peer = some early →
      early.candidates.length ≤ maxEarlyIceCandidates)
    (hpeers : t'.earlyIce.entries.length ≤ maxSignalingPeers) : Buffered t' := by
  refine ⟨fun other attempt' => ?_,hflushed,hapart,hpending,hearly,hpeers⟩
  have hreceived := received_ice t sender other attempt attempt' candidate
  have hsame : t'.received other attempt' =
      ({ t with handled := t.handled ++ [(sender,RtcPayload.ice attempt candidate)] }).received
        other
        attempt' := by simp only [received,hhandled]
  rw [hsame,hreceived]
  exact (htrail other attempt').trans ((h.order other attempt').append_right _)

theorem addedNow {sender : EndpointId} (h : Buffered t) (hidle : t.task = none)
    (hlink : t.linkOf sender attempt = some link) (hset : link.remoteDescSet = true)
    (hkey : link.pc.peer = sender ∧ link.pc.attempt = attempt) :
    Buffered (({ t with handled := t.handled ++ [(sender,RtcPayload.ice attempt candidate)] }).ask
      ⟨sender,attempt,link.pc,.addIce candidate,none⟩) := by
  have hpending := h.flushed sender link (linkOf_eq_some.mp hlink).1 hset
  refine h.of_received rfl (fun other attempt' => ?_) h.flushed h.apart h.pending h.early h.peers
  have hadded := t.added_candidate other attempt' link.pc candidate
  rw [hkey.1,hkey.2] at hadded
  change List.Sublist (((t.record link.pc (.addIceCandidate candidate)).added other attempt') ++
    ((if sender = other ∧ attempt = attempt' then [] else []) ++ t.waiting other attempt')) _
  rw [hadded,ite_self,List.nil_append,trail,upcoming_of_idle hidle,List.nil_append]
  split
  · rename_i hsame
    obtain ⟨rfl,rfl⟩ := hsame
    have hwaiting : t.waiting sender attempt = [] := by simp [waiting,hlink,hpending]
    simp [hwaiting]
  · simp

theorem pushed {sender : EndpointId} (h : Buffered t)
    (hlink : t.linkOf sender attempt = some link) (hset : link.remoteDescSet = false)
    (hroom : link.pendingIce.length < maxEarlyIceCandidates) :
    Buffered { t with
      handled := t.handled ++ [(sender,.ice attempt candidate)]
      links := t.links.insert sender 
        { link with pendingIce := link.pendingIce ++ [candidate] } } := by
  obtain ⟨hfound,hattempt⟩ := linkOf_eq_some.mp hlink
  let link' : PeerLink := { link with pendingIce := link.pendingIce ++ [candidate] }
  have hget : ∀ other found, (t.links.insert sender link').get? other = some found →
      (other = sender ∧ found = link') ∨ t.links.get? other = some found := by
    intro other found hother
    rw [KeyedMap.get?_insert] at hother
    by_cases hsame : other = sender
    · rw [if_pos hsame] at hother
      exact .inl ⟨hsame,(Option.some.inj hother).symm⟩
    · rw [if_neg hsame] at hother
      exact .inr hother
  refine h.of_received rfl (fun other attempt' => ?_) (fun other found hother hremote => ?_)
    (fun other found hother hrole => ?_) (fun other found hother => ?_) h.early h.peers
  · have hlinkOf := t.linkOf_insert sender other attempt' link'
    have hwaiting : (match ({ t with links := t.links.insert sender link' }).linkOf other attempt'
        with
        | some found => found.pendingIce
        | none => if localIsOfferer t.localId other then [] else t.earlyCandidates other attempt') =
        t.waiting other attempt' ++
          if sender = other ∧ attempt = attempt' then [candidate] else [] := by
      rw [hlinkOf]
      by_cases hsame : other = sender
      · subst hsame
        by_cases hcurrent : attempt = attempt'
        · subst hcurrent
          simp [waiting,hlink,link',hattempt]
        · have hnone : t.linkOf other attempt' = none := by
            rw [linkOf_eq_none]
            rintro found hother
            rw [hfound] at hother
            obtain rfl := Option.some.inj hother
            rwa [hattempt]
          simp [waiting,link',hcurrent,hattempt,hnone]
      · simp [waiting,hsame,Ne.symm hsame]
    change List.Sublist (t.added other attempt' ++ (t.upcoming other attempt' ++ _)) _
    rw [trail,List.append_assoc,List.append_assoc]
    exact (List.Sublist.append_left (List.Sublist.append_left (hwaiting ▸ List.Sublist.refl _) _) _)
  · rcases hget other found hother with ⟨-,rfl⟩ | hold
    · rw [show link'.remoteDescSet = link.remoteDescSet from rfl,hset] at hremote
      cases hremote
    · exact h.flushed other found hold hremote
  · rcases hget other found hother with ⟨rfl,rfl⟩ | hold
    · exact h.apart other link hfound hrole
    · exact h.apart other found hold hrole
  · rcases hget other found hother with ⟨-,rfl⟩ | hold
    · simpa [link'] using Nat.succ_le_of_lt hroom
    · exact h.pending other found hold

theorem early_push (early : EarlyIce) :
    ((early.push attempt candidate).candidates).Sublist
      ((if early.attempt = attempt then early.candidates else []) ++ [candidate]) ∧
      (early.candidates.length ≤ maxEarlyIceCandidates →
        (early.push attempt candidate).candidates.length ≤ maxEarlyIceCandidates) := by
  unfold EarlyIce.push
  by_cases hsame : early.attempt = attempt
  · simp only [hsame,if_true]
    by_cases hroom : early.candidates.length < maxEarlyIceCandidates
    · simp only [hroom,if_true]
      exact ⟨List.Sublist.refl _,fun _ => by simpa using Nat.succ_le_of_lt hroom⟩
    · simp only [hroom,if_false]
      exact ⟨List.sublist_append_left _ _,id⟩
  · simp only [hsame,if_false]
    by_cases hroom : ([] : List IceCandidate).length < maxEarlyIceCandidates
    · simp only [hroom,if_true]
      exact ⟨List.Sublist.refl _,fun _ => by simpa using Nat.succ_le_of_lt hroom⟩
    · simp only [hroom,if_false]
      exact ⟨List.nil_sublist _,fun _ => Nat.zero_le _⟩

theorem pushedEarly {sender : EndpointId} (h : Buffered t)
    (hlink : t.linkOf sender attempt = none)
    (hroom : ¬ ((t.earlyIce.get? sender).isNone ∧
      maxSignalingPeers ≤ t.earlyIce.entries.length)) :
    Buffered { t with
      handled := t.handled ++ [(sender,.ice attempt candidate)]
      earlyIce := t.earlyIce.insert sender
        (((t.earlyIce.get? sender).getD ⟨attempt,[]⟩).push attempt candidate) } := by
  let old := (t.earlyIce.get? sender).getD ⟨attempt,[]⟩
  have hold : (if old.attempt = attempt then old.candidates else []) =
      t.earlyCandidates sender attempt := by
    unfold earlyCandidates
    cases hearly : t.earlyIce.get? sender with
    | none => simp [old,hearly]
    | some early =>
      by_cases hsame : early.attempt = attempt <;> simp [old,hearly,hsame,Option.filter]
  have hpush := @early_push attempt candidate old
  obtain ⟨hsublist,hlength⟩ := hpush
  rw [hold] at hsublist
  let after : Transport := { t with
    handled := t.handled ++ [(sender,.ice attempt candidate)]
    earlyIce := t.earlyIce.insert sender (old.push attempt candidate) }
  have hcandidates : ∀ other attempt', after.earlyCandidates other attempt' =
      if other = sender then
        (if attempt = attempt' then (old.push attempt candidate).candidates else [])
      else t.earlyCandidates other attempt' := by
    intro other attempt'
    unfold earlyCandidates
    simp only [after,KeyedMap.get?_insert]
    by_cases hsame : other = sender
    · by_cases hattempt : attempt = attempt' <;> simp [hsame,hattempt,Option.filter]
    · simp [hsame]
  refine h.of_received rfl (fun other attempt' => ?_) h.flushed (fun peer link hfound hrole => ?_)
    h.pending (fun peer early hearly => ?_) ?_
  · change List.Sublist (t.added other attempt' ++ (t.upcoming other attempt' ++
      after.waiting other attempt')) _
    rw [trail,List.append_assoc,List.append_assoc]
    refine List.Sublist.append_left (List.Sublist.append_left ?_ _) _
    have hkept : after.linkOf other attempt' = t.linkOf other attempt' := rfl
    unfold waiting
    rw [hkept,hcandidates]
    by_cases hsame : other = sender
    · subst hsame
      by_cases hattempt : attempt = attempt'
      · subst hattempt
        rw [hlink]
        change List.Sublist (if localIsOfferer t.localId other then [] else _) _
        cases localIsOfferer t.localId other with
        | true => exact List.nil_sublist _
        | false => simpa using hsublist
      · simp only [if_true,hattempt,if_false,and_false,List.append_nil]
        cases t.linkOf other attempt' with
        | some link => exact List.Sublist.refl _
        | none =>
          change List.Sublist (if localIsOfferer t.localId other then [] else []) _
          rw [ite_self]
          exact List.nil_sublist _
    · simp only [hsame,if_false]
      exact List.sublist_append_left _ _
  · change after.earlyCandidates peer link.attempt = []
    rw [hcandidates]
    by_cases hsame : peer = sender
    · subst hsame
      have hne := linkOf_eq_none.mp hlink link hfound
      rw [if_pos rfl,if_neg (Ne.symm hne)]
    · rw [if_neg hsame]
      exact h.apart peer link hfound hrole
  · simp only [KeyedMap.get?_insert] at hearly
    by_cases hsame : peer = sender
    · rw [if_pos hsame] at hearly
      obtain rfl := Option.some.inj hearly
      refine hlength ?_
      cases hfound : t.earlyIce.get? sender with
      | none => simp [old,hfound]
      | some early => simpa [old,hfound] using h.early sender early hfound
    · rw [if_neg hsame] at hearly
      exact h.early peer early hearly
  · cases hfound : t.earlyIce.get? sender with
    | none =>
      have hlt : t.earlyIce.entries.length < maxSignalingPeers := by
        by_contra hge
        exact hroom ⟨by simp [hfound],by omega⟩
      exact (KeyedMap.length_insert_le _ _ _).trans hlt
    | some early => exact (KeyedMap.length_insert_of_some _ hfound).trans h.peers

theorem handleIce {sender : EndpointId} (hd : Disciplined t) (h : Buffered t)
    (hidle : t.task = none) :
    Buffered (t.handle choice (.signal sender (.ice attempt candidate))) := by
  have hsound := hd.sound_of_idle hidle
  have hhandled : Buffered { t with
    handled := t.handled ++ [(sender,.ice attempt candidate)] } := h.handle _
  simp only [Transport.handle,Transport.handleSignal]
  by_cases hself : sender = t.localId
  · rw [if_pos hself]
    exact hhandled.finished
  rw [if_neg hself]
  unfold Transport.handleIce
  change Buffered (match t.linkOf sender attempt with
    | some link => _
    | none => _)
  cases hlink : t.linkOf sender attempt with
  | some link =>
    obtain ⟨hfound,hattempt⟩ := linkOf_eq_some.mp hlink
    have hfits := hsound.linked sender link hfound
    dsimp only
    cases hset : link.remoteDescSet with
    | true => exact h.addedNow hidle hlink hset ⟨hfits.keyed,hfits.attempt.trans hattempt⟩
    | false =>
      rw [if_neg (by simp)]
      refine finished ?_
      have hlink' : Transport.linkOf { t with
        handled := t.handled ++ [(sender,.ice attempt candidate)] } sender attempt = some link :=
        hlink
      rw [bufferIce,updateLink_of_some hlink']
      by_cases hroom : link.pendingIce.length < maxEarlyIceCandidates
      · rw [if_pos hroom]
        exact h.pushed hlink hset hroom
      · rw [if_neg hroom]
        exact hhandled.replaced hfound rfl rfl rfl rfl
  | none =>
    refine finished ?_
    unfold bufferEarlyIce
    dsimp only
    split
    · exact hhandled
    · exact h.pushedEarly hlink ‹_›

theorem attached {f : PeerLink → PeerLink} (h : Buffered t) (hpc : ∀ old, (f old).pc = old.pc)
    (hattempt : ∀ old, (f old).attempt = old.attempt)
    (hset : ∀ old, (f old).remoteDescSet = old.remoteDescSet)
    (hpending : ∀ old, (f old).pendingIce = old.pendingIce) :
    Buffered (t.updateLink peer attempt f) := by
  cases hlink : t.linkOf peer attempt with
  | none => rwa [updateLink_of_none hlink]
  | some old =>
    rw [updateLink_of_some hlink]
    exact h.replaced (linkOf_eq_some.mp hlink).1 (hpc old) (hattempt old) (hset old) (hpending old)

theorem rechanneled {f : EndpointId → PeerLink → PeerLink} (h : Buffered t)
    (hf : ∀ peer old, (f peer old).pc = old.pc ∧ (f peer old).attempt = old.attempt ∧
      (f peer old).remoteDescSet = old.remoteDescSet ∧
        (f peer old).pendingIce = old.pendingIce) :
    Buffered { t with links := t.links.mapValues f } := by
  refine h.of_trail rfl (fun other attempt => ?_) (fun other found hother => ?_) rfl
  · refine List.Sublist.append_left (List.Sublist.append_left ?_ _) _
    have hlinkOf : ({ t with links := t.links.mapValues f }).linkOf other attempt =
        (t.linkOf other attempt).map (f other) := by
      unfold linkOf
      dsimp only
      rw [KeyedMap.get?_mapValues]
      cases t.links.get? other with
      | none => rfl
      | some old =>
        by_cases hsame : old.attempt = attempt <;>
          simp [Option.filter,(hf other old).2.1,hsame]
    unfold waiting
    rw [hlinkOf]
    cases t.linkOf other attempt with
    | none => exact List.Sublist.refl _
    | some old => simp [(hf other old).2.2.2]
  · simp only [KeyedMap.get?_mapValues] at hother
    obtain ⟨old,hold,rfl⟩ := Option.map_eq_some_iff.mp hother
    exact ⟨old,hold,(hf other old).1,(hf other old).2.1,(hf other old).2.2.1,(hf other old).2.2.2⟩

theorem step {event : Event} (hd : Disciplined t) (h : Buffered t)
    (hstep : t.step event = some t') : Buffered t' := by
  cases event with
  | next choice =>
    simp only [Transport.step] at hstep
    split at hstep
    · rename_i command commands hidle hcommands
      cases hstep
      have hd' : Disciplined { t with commands } := hd.of_eq rfl rfl rfl rfl rfl rfl
      have h' : Buffered { t with commands } := h.of_eq rfl rfl rfl rfl rfl rfl
      by_cases hice : ∃ sender attempt candidate, command = .signal sender (.ice attempt candidate)
      · obtain ⟨sender,attempt,candidate,rfl⟩ := hice
        exact h'.handleIce hd' hidle
      · have hsignals : ∀ sender attempt candidate,
            (sender,RtcPayload.ice attempt candidate) ∉ command.signals := by
          intro sender attempt candidate hmem
          cases command with
          | signal sender' payload =>
            cases List.mem_singleton.mp hmem
            exact hice ⟨sender,attempt,candidate,rfl⟩
          | dial peer | peerReincarnated peer acknowledged | linkTerminal peer attempt => cases hmem
        have hmoves := (handle_moves (t := { t with commands }) choice hidle command).preserve
          (fun state => Disciplined state ∧ Buffered state)
          (fun _ _ hbefore hnext hmove => ⟨hbefore.1.move hnext hmove,
            hbefore.2.move hbefore.1 hnext hsignals hmove⟩)
          ⟨hd.of_eq rfl rfl rfl rfl rfl rfl,h'.handle _⟩
        exact hmoves.2
    · cases hstep
  | resolve outcome =>
    obtain ⟨task,htask,rfl⟩ := Option.map_eq_some_iff.mp hstep
    exact h.resume hd htask outcome
  | dataChannel pc label channel =>
    cases hstep
    unfold attachIncomingChannel
    split
    · exact h.attached (fun _ => rfl) (fun _ => rfl) (fun _ => rfl) fun _ => rfl
    · split
      · exact h.attached (fun _ => rfl) (fun _ => rfl) (fun _ => rfl) fun _ => rfl
      · exact h
  | channels peer channel sessionChannel =>
    cases hstep
    refine h.rechanneled fun other old => ?_
    split <;> exact ⟨rfl,rfl,rfl,rfl⟩
  | message pc bytes =>
    cases hstep
    unfold onMessage
    split
    · exact h.of_eq rfl rfl rfl rfl rfl rfl
    · exact h
  | sessionMessage pc bytes =>
    cases hstep
    unfold onSessionMessage
    split
    · exact h.of_eq rfl rfl rfl rfl rfl rfl
    · exact h
  | opened pc =>
    cases hstep
    unfold onOpen
    split
    · exact h.of_eq rfl rfl rfl rfl rfl rfl
    · exact h
  | send peer contents segmentSize =>
    cases hstep
    unfold pollSend
    dsimp only
    split
    · exact h.of_eq rfl rfl rfl rfl rfl rfl
    · split
      · exact h.of_eq rfl rfl rfl rfl rfl rfl
      · exact h
  | command command => cases hstep; exact h.of_eq rfl rfl rfl rfl rfl rfl
  | terminal pc => cases hstep; exact h.of_eq rfl rfl rfl rfl rfl rfl
  | iceCandidate pc candidate => cases hstep; exact h.of_eq rfl rfl rfl rfl rfl rfl
  | receive sizes => cases hstep; exact h.of_eq rfl rfl rfl rfl rfl rfl
  | takeSession => cases hstep; exact h.of_eq rfl rfl rfl rfl rfl rfl

theorem init (localId : EndpointId) : Buffered { localId } := by
  refine ⟨fun peer attempt => ?_,by simp,by simp,by simp,by simp,by simp [KeyedMap.empty]⟩
  simp [trail,added,upcoming,waiting,linkOf,earlyCandidates]

end Buffered

theorem Reachable.buffered {localId : EndpointId} (h : Reachable localId t) : Buffered t := by
  induction h with
  | start => exact .init localId
  | step hreach _ hstep ih => exact ih.step hreach.disciplined hstep

/-- The candidates that connections of an attempt were given, those of a flush under way and those
that wait are, in this order, among the candidates received for it, so each is given at most once
and none before one that it came after; and every buffer is bounded. -/
theorem candidates_given_in_order {localId : EndpointId} (h : Reachable localId t) :
    (∀ peer attempt, (t.added peer attempt ++
      (t.upcoming peer attempt ++ t.waiting peer attempt)).Sublist (t.received peer attempt)) ∧
    (∀ peer link, t.links.get? peer = some link →
      link.pendingIce.length ≤ maxEarlyIceCandidates ∧
        (link.remoteDescSet = true → link.pendingIce = [])) ∧
    (∀ peer early, t.earlyIce.get? peer = some early →
      early.candidates.length ≤ maxEarlyIceCandidates) ∧
    t.earlyIce.entries.length ≤ maxSignalingPeers := by
  have hbuffered := h.buffered
  exact ⟨hbuffered.order,fun peer link hlink =>
    ⟨hbuffered.pending peer link hlink,hbuffered.flushed peer link hlink⟩,hbuffered.early,
    hbuffered.peers⟩

/-- An answerer's handshake, with a candidate before the offer and one that arrives meanwhile. -/
def trickled : List Event :=
  let attempt : RtcAttempt := .replicate 8 1
  [.command (.signal 1 (.ice attempt ⟨"early",none,none⟩)),.next ⟨.replicate 8 2,true⟩,
    .command (.signal 1 (.offer attempt "offer")),.next ⟨.replicate 8 3,true⟩,
    .resolve (.fulfilled none),.command (.signal 1 (.ice attempt ⟨"late",none,none⟩)),
    .resolve (.fulfilled none),.resolve (.fulfilled (some "answer")),.resolve (.fulfilled none),
    .next ⟨.replicate 8 4,true⟩]

theorem candidates_given_in_order_trickled :
    ∃ t, ({ localId := 2 } : Transport).after trickled = some t ∧
      t.added 1 (.replicate 8 1) = [⟨"early",none,none⟩,⟨"late",none,none⟩] ∧
      (t.added 1 (.replicate 8 1)).Sublist (t.received 1 (.replicate 8 1)) := by
  have hrun : (({ localId := 2 } : Transport).after trickled).any (fun t =>
      t.added 1 (.replicate 8 1) = [⟨"early",none,none⟩,⟨"late",none,none⟩]) = true := by decide
  obtain ⟨t,hafter,hadded⟩ := (Option.any_eq_true _ _).mp hrun
  have horder := (candidates_given_in_order (Reachable.start.after hafter)).1 1 (.replicate 8 1)
  exact ⟨t,hafter,of_decide_eq_true hadded,(List.sublist_append_left _ _).trans horder⟩

end WalkieSongie.Net.WebRtc
