import WalkieSongie.RtcDiscipline
set_option autoImplicit false

/-!
Where the descriptions and candidates that a carrier gives to its connections come from, and what
the signals that it publishes were made by.
-/

namespace WalkieSongie.Net.WebRtc
open Transport

variable {t t' : Transport} {peer : EndpointId} {attempt : RtcAttempt} {link : PeerLink}
  {pc : RtcPeerConnection} {task : Task} {call : PcCall}

def Asked (calls : List PcRecord) (pc : RtcPeerConnection) (call : PcCall) : Prop :=
  ∃ found, ⟨pc,found,call⟩ ∈ calls

/-- The signal, or the earlier call, that a call rests on. -/
def Cause (handled : List (EndpointId × RtcPayload)) (calls : List PcRecord)
    (pc : RtcPeerConnection) : PcCall → Prop
  | .setRemoteDescription .offer sdp =>
    pc.offerer = false ∧ (pc.peer,.offer pc.attempt sdp) ∈ handled
  | .setRemoteDescription .answer sdp =>
    pc.offerer = true ∧ (pc.peer,.answer pc.attempt sdp) ∈ handled
  | .addIceCandidate candidate => (pc.peer,.ice pc.attempt candidate) ∈ handled
  | .createAnswer | .setLocalDescription .answer _ =>
    ∃ sdp, Asked calls pc (.setRemoteDescription .offer sdp)
  | .createOffer | .setLocalDescription .offer _ | .close => True

/-- The connection that a published payload was made by. -/
def Origin (made : List RtcPeerConnection) (calls : List PcRecord) (recipient : EndpointId)
    (payload : RtcPayload) : Prop :=
  ∃ pc ∈ made, pc.peer = recipient ∧ pc.attempt = payload.attempt ∧
    match payload with
    | .offer _ sdp =>
      pc.offerer = true ∧ Asked calls pc (.setLocalDescription .offer (some sdp))
    | .answer _ sdp =>
      pc.offerer = false ∧ Asked calls pc (.setLocalDescription .answer (some sdp))
    | .ice _ _ => True

/-- The cached descriptions and the pending candidates of a link. -/
structure Cached (handled : List (EndpointId × RtcPayload)) (calls : List PcRecord)
    (peer : EndpointId) (link : PeerLink) : Prop where
  offer : ∀ sdp, link.offerSdp = some sdp →
    Asked calls link.pc (.setLocalDescription .offer (some sdp))
  answer : ∀ sdp, link.answerSdp = some sdp →
    Asked calls link.pc (.setLocalDescription .answer (some sdp))
  pending : ∀ candidate ∈ link.pendingIce, (peer,.ice link.attempt candidate) ∈ handled

/-- What the driver has done of a command, and will do. -/
def Stage.Underway (handled : List (EndpointId × RtcPayload)) (calls : List PcRecord)
    (pc : RtcPeerConnection) : Stage → Prop
  | createOffer => ∀ offer, ¬ Asked calls pc (.setLocalDescription .offer offer)
  | setLocalOffer offer => Asked calls pc (.setLocalDescription .offer offer)
  | setRemoteOffer _ | createAnswer =>
    ∃ sdp, Asked calls pc (.setRemoteDescription .offer sdp)
  | flush _ rest answering =>
    (∀ candidate ∈ rest, (pc.peer,.ice pc.attempt candidate) ∈ handled) ∧
      (answering = true → ∃ sdp, Asked calls pc (.setRemoteDescription .offer sdp))
  | setLocalAnswer answer => Asked calls pc (.setLocalDescription .answer answer)
  | setRemoteAnswer _ | addIce _ => True

def OneOffer (calls : List PcRecord) : Prop :=
  ∀ pc one other, Asked calls pc (.setLocalDescription .offer one) →
    Asked calls pc (.setLocalDescription .offer other) → one = other

/-- What holds whatever the driver awaits. -/
structure Sourced (t : Transport) : Prop where
  roles : ∀ pc ∈ t.made, pc.peer ≠ t.localId ∧ pc.offerer = localIsOfferer t.localId pc.peer
  invited : ∀ pc ∈ t.made, pc.offerer = false →
    ∃ sdp, (pc.peer,.offer pc.attempt sdp) ∈ t.handled
  caused : ∀ pc call, Asked t.calls pc call → pc ∈ t.made ∧ Cause t.handled t.calls pc call
  oneOffer : OneOffer t.calls
  published : ∀ out ∈ t.outbound, Origin t.made t.calls out.recipient out.payload
  cached : ∀ peer link, t.links.get? peer = some link → Cached t.handled t.calls peer link
  early : ∀ peer early, t.earlyIce.get? peer = some early → ∀ candidate ∈ early.candidates,
    (peer,.ice early.attempt candidate) ∈ t.handled

structure Traced (t : Transport) : Prop where
  sourced : Sourced t
  underway : ∀ task, t.task = some task → task.stage.Underway t.handled t.calls task.pc

section Growth

variable {handled handled' : List (EndpointId × RtcPayload)} {calls calls' : List PcRecord}
  {made made' : List RtcPeerConnection}

theorem Asked.mono (hcalls : calls ⊆ calls') (h : Asked calls pc call) : Asked calls' pc call := by
  obtain ⟨found,hfound⟩ := h
  exact ⟨found,hcalls hfound⟩

theorem Cause.mono (hhandled : handled ⊆ handled') (hcalls : calls ⊆ calls')
    (h : Cause handled calls pc call) : Cause handled' calls' pc call := by
  cases call with
  | setRemoteDescription type sdp =>
    cases type with
    | offer => exact ⟨h.1,hhandled h.2⟩
    | answer => exact ⟨h.1,hhandled h.2⟩
  | addIceCandidate candidate => exact hhandled h
  | createAnswer =>
    obtain ⟨sdp,hasked⟩ := h
    exact ⟨sdp,hasked.mono hcalls⟩
  | setLocalDescription type sdp =>
    cases type with
    | offer => trivial
    | answer =>
      obtain ⟨offer,hasked⟩ := h
      exact ⟨offer,hasked.mono hcalls⟩
  | createOffer => trivial
  | close => trivial

theorem Origin.mono {recipient : EndpointId} {payload : RtcPayload} (hmade : made ⊆ made')
    (hcalls : calls ⊆ calls') (h : Origin made calls recipient payload) :
    Origin made' calls' recipient payload := by
  obtain ⟨pc,hpc,hpeer,hattempt,horigin⟩ := h
  refine ⟨pc,hmade hpc,hpeer,hattempt,?_⟩
  cases payload with
  | offer attempt sdp => exact ⟨horigin.1,horigin.2.mono hcalls⟩
  | answer attempt sdp => exact ⟨horigin.1,horigin.2.mono hcalls⟩
  | ice attempt candidate => trivial

theorem Cached.mono (hhandled : handled ⊆ handled') (hcalls : calls ⊆ calls')
    (h : Cached handled calls peer link) : Cached handled' calls' peer link where
  offer sdp hsdp := (h.offer sdp hsdp).mono hcalls
  answer sdp hsdp := (h.answer sdp hsdp).mono hcalls
  pending candidate hcandidate := hhandled (h.pending candidate hcandidate)

theorem asked_concat {found : PcState} {new : PcCall} {newPc : RtcPeerConnection} :
    Asked (calls ++ [⟨newPc,found,new⟩]) pc call ↔ Asked calls pc call ∨
    (pc = newPc ∧ call = new) := by
  constructor
  · rintro ⟨seen,hseen⟩
    rcases List.mem_append.mp hseen with hold | hnew
    · exact .inl ⟨seen,hold⟩
    · cases List.mem_singleton.mp hnew
      exact .inr ⟨rfl,rfl⟩
  · rintro (⟨seen,hseen⟩ | ⟨rfl,rfl⟩)
    · exact ⟨seen,List.mem_append_left _ hseen⟩
    · exact ⟨found,List.mem_append_right _ (List.mem_singleton.mpr rfl)⟩

theorem OneOffer.concat {found : PcState} (h : OneOffer calls)
    (hfirst : ∀ offer, call = .setLocalDescription .offer offer →
      ∀ other, ¬ Asked calls pc (.setLocalDescription .offer other)) :
    OneOffer (calls ++ [⟨pc,found,call⟩]) := by
  intro asked one other hone hother
  rcases asked_concat.mp hone with hone | ⟨hpc,hone⟩ <;>
    rcases asked_concat.mp hother with hother | ⟨hpc',hother⟩
  · exact h asked one other hone hother
  · exact absurd (hpc' ▸ hone) (hfirst other hother.symm one)
  · exact absurd (hpc ▸ hother) (hfirst one hone.symm other)
  · rw [← hone] at hother
    cases hother
    rfl

end Growth

namespace Sourced

theorem record (h : Sourced t) (hmade : pc ∈ t.made) (hcause : Cause t.handled t.calls pc call)
    (hfirst : ∀ offer, call = .setLocalDescription .offer offer →
      ∀ other, ¬ Asked t.calls pc (.setLocalDescription .offer other)) :
    Sourced (t.record pc call) := by
  have hgrown : t.calls ⊆ (t.record pc call).calls := List.subset_append_left _ _
  refine ⟨h.roles,h.invited,fun asked new hasked => ?_,h.oneOffer.concat hfirst,
    fun out hout => (h.published out hout).mono (List.Subset.refl _) hgrown,
    fun other found hfound => (h.cached other found hfound).mono (List.Subset.refl _) hgrown,
    h.early⟩
  rcases asked_concat.mp hasked with hold | ⟨rfl,rfl⟩
  · obtain ⟨hpc,hold⟩ := h.caused asked new hold
    exact ⟨hpc,hold.mono (List.Subset.refl _) hgrown⟩
  · exact ⟨hmade,hcause.mono (List.Subset.refl _) hgrown⟩

theorem of_eq (h : Sourced t) (hlocal : t'.localId = t.localId) (hmade : t'.made = t.made)
    (hhandled : t'.handled = t.handled) (hcalls : t'.calls = t.calls)
    (houtbound : t'.outbound = t.outbound) (hlinks : t'.links = t.links)
    (hearly : t'.earlyIce = t.earlyIce) : Sourced t' := by
  refine ⟨?_,?_,?_,?_,?_,?_,?_⟩
  · rw [hmade,hlocal]; exact h.roles
  · rw [hmade,hhandled]; exact h.invited
  · rw [hmade,hhandled,hcalls]; exact h.caused
  · rw [hcalls]; exact h.oneOffer
  · rw [houtbound,hmade,hcalls]; exact h.published
  · rw [hlinks,hhandled,hcalls]; exact h.cached
  · rw [hearly,hhandled]; exact h.early

theorem handle (h : Sourced t) (signals : List (EndpointId × RtcPayload)) :
    Sourced { t with handled := t.handled ++ signals } := by
  have hgrown : t.handled ⊆ t.handled ++ signals := List.subset_append_left _ _
  refine ⟨h.roles,fun pc hpc hrole => ?_,fun pc call hasked => ?_,h.oneOffer,h.published,
    fun other found hfound => (h.cached other found hfound).mono hgrown (List.Subset.refl _),
    fun other early hfound candidate hcandidate => hgrown (h.early other early hfound _ hcandidate)⟩
  · obtain ⟨sdp,hsdp⟩ := h.invited pc hpc hrole
    exact ⟨sdp,hgrown hsdp⟩
  · obtain ⟨hpc,hcause⟩ := h.caused pc call hasked
    exact ⟨hpc,hcause.mono hgrown (List.Subset.refl _)⟩

theorem publish {payload : RtcPayload} (h : Sourced t)
    (horigin : Origin t.made t.calls peer payload) : Sourced (t.publish peer payload) := by
  refine ⟨h.roles,h.invited,h.caused,h.oneOffer,fun out hout => ?_,h.cached,h.early⟩
  rcases List.mem_append.mp hout with hold | hnew
  · exact h.published out hold
  · obtain rfl := List.mem_singleton.mp hnew
    exact horigin

theorem put (h : Sourced t) (hcached : Cached t.handled t.calls peer link) :
    Sourced { t with links := t.links.insert peer link } := by
  refine ⟨h.roles,h.invited,h.caused,h.oneOffer,h.published,fun other found hfound => ?_,h.early⟩
  simp only [KeyedMap.get?_insert] at hfound
  by_cases hsame : other = peer
  · rw [if_pos hsame] at hfound
    rw [← Option.some.inj hfound,hsame]
    exact hcached
  · rw [if_neg hsame] at hfound
    exact h.cached other found hfound

theorem forget (h : Sourced t) : Sourced { t with links := t.links.erase peer } := by
  refine ⟨h.roles,h.invited,h.caused,h.oneOffer,h.published,fun other found hfound => ?_,h.early⟩
  simp only [KeyedMap.get?_erase] at hfound
  split at hfound
  · cases hfound
  · exact h.cached other found hfound

theorem retired (h : Sourced t) (hmade : link.pc ∈ t.made) : Sourced (t.retired peer link.pc) := by
  have hrecorded : Sourced (t.record link.pc .close) := h.record hmade trivial (by simp)
  have hforgotten : Sourced { t.record link.pc .close with links := t.links.erase peer } :=
    hrecorded.forget
  exact hforgotten.of_eq rfl rfl rfl rfl rfl rfl rfl

theorem created {offerer : Bool} (h : Sourced t) (attempt : RtcAttempt) (hother : peer ≠ t.localId)
    (hofferer : offerer = localIsOfferer t.localId peer)
    (hinvited : offerer = false → ∃ sdp, (peer,.offer attempt sdp) ∈ t.handled) :
    Sourced (t.createLink peer attempt offerer).2 := by
  have hgrown : t.made ⊆ (t.createLink peer attempt offerer).2.made := List.subset_append_left _ _
  have hadded : Sourced { t with made := (t.createLink peer attempt offerer).2.made } := by
    refine ⟨fun pc hpc => ?_,fun pc hpc hrole => ?_,fun pc call hasked => ?_,h.oneOffer,
      fun out hout => (h.published out hout).mono hgrown (List.Subset.refl _),h.cached,h.early⟩
    · rcases List.mem_append.mp hpc with hold | hnew
      · exact h.roles pc hold
      · obtain rfl := List.mem_singleton.mp hnew
        exact ⟨hother,hofferer⟩
    · rcases List.mem_append.mp hpc with hold | hnew
      · exact h.invited pc hold hrole
      · obtain rfl := List.mem_singleton.mp hnew
        exact hinvited hrole
    · obtain ⟨hpc,hcause⟩ := h.caused pc call hasked
      exact ⟨hgrown hpc,hcause⟩
  have hcached : Cached t.handled t.calls peer (t.freshLink peer attempt offerer) := by
    refine ⟨?_,?_,?_⟩ <;> simp [freshLink]
  have hput : Sourced { t with
      made := (t.createLink peer attempt offerer).2.made
      links := t.links.insert peer (t.freshLink peer attempt offerer) } := hadded.put hcached
  exact hput.of_eq rfl rfl rfl rfl rfl rfl rfl

theorem adopted (h : Sourced t) (hlink : t.linkOf peer attempt = some link) :
    Sourced (t.adoptEarlyIce peer attempt) := by
  obtain ⟨hfound,hattempt⟩ := linkOf_eq_some.mp hlink
  have hcached := h.cached peer link hfound
  rw [adoptEarlyIce_of_some hlink]
  let link' : PeerLink :=
    { link with pendingIce := link.pendingIce ++ t.earlyCandidates peer attempt }
  have hput : Sourced { t with links := t.links.insert peer link' } := by
    refine h.put ⟨hcached.offer,hcached.answer,fun candidate hcandidate => ?_⟩
    rcases List.mem_append.mp hcandidate with hold | hnew
    · exact hcached.pending candidate hold
    · obtain ⟨early,hearly,hsame,hmem⟩ := mem_earlyCandidates.mp hnew
      have hold := h.early peer early hearly candidate hmem
      rwa [hsame,← hattempt] at hold
  refine ⟨hput.roles,hput.invited,hput.caused,hput.oneOffer,hput.published,hput.cached,
    fun other early hearly => ?_⟩
  simp only [KeyedMap.get?_erase] at hearly
  split at hearly
  · cases hearly
  · exact h.early other early hearly

end Sourced

namespace Traced

theorem of_idle (h : Sourced t) (hidle : t.task = none) : Traced t := by
  refine ⟨h,fun task htask => ?_⟩
  rw [hidle] at htask
  cases htask

theorem asked (h : Sourced t) (hmade : task.pc ∈ t.made)
    (hcause : Cause t.handled t.calls task.pc task.stage.call)
    (hfirst : ∀ offer, task.stage.call = .setLocalDescription .offer offer →
      ∀ other, ¬ Asked t.calls task.pc (.setLocalDescription .offer other))
    (hunderway : task.stage.Underway t.handled
      (t.calls ++ [⟨task.pc,t.browser task.pc,task.stage.call⟩]) task.pc) :
    Traced (t.ask task) := by
  refine ⟨(h.record hmade hcause hfirst).of_eq rfl rfl rfl rfl rfl rfl rfl,fun task' htask => ?_⟩
  obtain rfl := Option.some.inj htask
  exact hunderway

theorem finished {acknowledged : Option Acknowledgement} (h : Sourced t) :
    Traced (t.finish acknowledged) := by
  cases acknowledged with
  | none => exact of_idle (h.of_eq rfl rfl rfl rfl rfl rfl rfl) rfl
  | some acknowledged => exact of_idle (h.of_eq rfl rfl rfl rfl rfl rfl rfl) rfl

theorem move {choice : Choice} {signals : List (EndpointId × RtcPayload)} (hd : Disciplined t)
    (h : Traced t) (hsignals : signals ⊆ t.handled) (hidle : t.task = none)
    (hmove : Move choice signals t t') : Traced t' := by
  have hsourced := h.sourced
  have hsound := hd.sound_of_idle hidle
  have hfits : ∀ {peer attempt link}, t.linkOf peer attempt = some link →
      link.pc ∈ t.made ∧ link.pc.peer = peer ∧ link.pc.attempt = attempt ∧
        link.pc.offerer = localIsOfferer t.localId peer := by
    intro peer attempt link hlink
    obtain ⟨hfound,hattempt⟩ := linkOf_eq_some.mp hlink
    have hfits := hsound.linked peer link hfound
    exact ⟨hfits.made,hfits.keyed,hfits.attempt.trans hattempt,hfits.offerer⟩
  cases hmove with
  | acknowledge number retiredAttempt =>
    exact of_idle (hsourced.of_eq rfl rfl rfl rfl rfl rfl rfl) hidle
  | retire hlink => exact of_idle (hsourced.retired (hsound.linked _ _ hlink).made) hidle
  | @dial peer acknowledged hother hofferer hnone hroom =>
    have hcreated := hsourced.created choice.attempt hother hofferer.symm (by simp)
    have hnew := hsound.createLink_fresh peer choice.attempt true
    refine asked hcreated (List.mem_append_right _ (List.mem_singleton.mpr rfl)) trivial
      (by simp [Stage.call]) fun offer hasked => ?_
    rcases asked_concat.mp hasked with hold | ⟨-,hcall⟩
    · exact hnew (hsourced.caused _ _ hold).1
    · cases hcall
  | offerAgain hofferer hlink hoffer =>
    obtain ⟨hmade,hpeer,hattempt,hrole⟩ := hfits (linkOf_eq_some.mpr ⟨hlink,rfl⟩)
    refine of_idle (hsourced.publish ⟨_,hmade,hpeer,hattempt,hrole.trans hofferer,?_⟩) hidle
    exact (hsourced.cached _ _ hlink).offer _ hoffer
  | @accept sender attempt sdp hsender hofferer hsignal hnone hroom =>
    have hcreated := hsourced.created attempt hsender (localIsOfferer_symm hofferer).symm
      fun _ => ⟨sdp,hsignals hsignal⟩
    refine of_idle (hcreated.adopted linkOf_createLink) ?_
    rw [adoptEarlyIce_of_some linkOf_createLink]
    exact hidle
  | adopt hofferer hlink =>
    refine of_idle (hsourced.adopted hlink) ?_
    rw [adoptEarlyIce_of_some hlink]
    exact hidle
  | answerAgain hofferer hlink hanswer =>
    obtain ⟨hmade,hpeer,hattempt,hrole⟩ := hfits hlink
    refine of_idle (hsourced.publish ⟨_,hmade,hpeer,hattempt,
      hrole.trans (localIsOfferer_symm hofferer),?_⟩) hidle
    exact (hsourced.cached _ _ (linkOf_eq_some.mp hlink).1).answer _ hanswer
  | @applyOffer sender attempt link sdp hofferer hsignal hlink hanswer =>
    obtain ⟨hmade,hpeer,hattempt,hrole⟩ := hfits hlink
    refine asked hsourced hmade ⟨hrole.trans (localIsOfferer_symm hofferer),?_⟩
      (by simp [Stage.call]) ⟨sdp,asked_concat.mpr (.inr ⟨rfl,rfl⟩)⟩
    rw [hpeer,hattempt]
    exact hsignals hsignal
  | @applyAnswer sender attempt link sdp hofferer hsignal hlink hstate =>
    obtain ⟨hmade,hpeer,hattempt,hrole⟩ := hfits hlink
    refine asked hsourced hmade ⟨hrole.trans hofferer,?_⟩ (by simp [Stage.call]) trivial
    rw [hpeer,hattempt]
    exact hsignals hsignal
  | @addIce sender attempt link candidate hsignal hlink hset =>
    obtain ⟨hmade,hpeer,hattempt,-⟩ := hfits hlink
    refine asked hsourced hmade ?_ (by simp [Stage.call]) trivial
    simp only [Stage.call,Cause,hpeer,hattempt]
    exact hsignals hsignal
  | @bufferIce sender attempt link candidate hsignal hlink hset =>
    obtain ⟨hfound,hattempt⟩ := linkOf_eq_some.mp hlink
    have hcached := hsourced.cached sender link hfound
    rw [bufferIce,updateLink_of_some hlink]
    refine of_idle (hsourced.put ?_) hidle
    split
    · refine ⟨hcached.offer,hcached.answer,fun other hother => ?_⟩
      rcases List.mem_append.mp hother with hold | hnew
      · exact hcached.pending other hold
      · obtain rfl := List.mem_singleton.mp hnew
        simpa [hattempt] using hsignals hsignal
    · exact hcached
  | @bufferEarlyIce sender attempt candidate hsignal hlink =>
    rw [bufferEarlyIce]
    split
    · exact of_idle hsourced hidle
    · refine of_idle ⟨hsourced.roles,hsourced.invited,hsourced.caused,hsourced.oneOffer,
        hsourced.published,hsourced.cached,fun other early hearly candidate' hcandidate => ?_⟩ hidle
      simp only [KeyedMap.get?_insert] at hearly
      by_cases hsame : other = sender
      · rw [if_pos hsame] at hearly
        obtain rfl := Option.some.inj hearly
        rw [EarlyIce.push_attempt,hsame]
        rcases EarlyIce.mem_push hcandidate with rfl | ⟨hattempt,hold⟩
        · exact hsignals hsignal
        · cases hfound : t.earlyIce.get? sender with
          | none => simp [hfound] at hold
          | some early =>
            simp only [hfound,Option.getD_some] at hattempt hold
            rw [← hattempt]
            exact hsourced.early sender early hfound candidate' hold
      · rw [if_neg hsame] at hearly
        exact hsourced.early other early hearly candidate' hcandidate

/-! ### After a promise -/

theorem flushNext {answering : Bool} {pending : List IceCandidate} (h : Sourced t)
    (hmade : task.pc ∈ t.made)
    (hpending : ∀ candidate ∈ pending,
      (task.pc.peer,.ice task.pc.attempt candidate) ∈ t.handled)
    (hoffer : answering = true → ∃ sdp, Asked t.calls task.pc (.setRemoteDescription .offer sdp)) :
    Traced (t.flushNext task answering pending) := by
  have hkept : ∀ {call}, answering = true → ∃ sdp, Asked
      (t.calls ++ [⟨task.pc,t.browser task.pc,call⟩]) task.pc
      (.setRemoteDescription .offer sdp) := by
    intro call hanswering
    obtain ⟨sdp,hasked⟩ := hoffer hanswering
    exact ⟨sdp,hasked.mono (List.subset_append_left _ _)⟩
  cases pending with
  | cons candidate rest =>
    rw [List.forall_mem_cons] at hpending
    exact asked h hmade hpending.1 (by simp [Stage.call]) ⟨hpending.2,hkept⟩
  | nil =>
    cases answering with
    | true => exact asked h hmade (hoffer rfl) (by simp [Stage.call]) (hkept rfl)
    | false => exact finished h

theorem flushAfterRemoteDesc {answering : Bool} (h : Sourced t)
    (hlink : t.linkOf task.peer task.attempt = some link) (hmade : task.pc ∈ t.made)
    (hkey : task.pc.peer = task.peer ∧ task.pc.attempt = task.attempt)
    (hoffer : answering = true → ∃ sdp, Asked t.calls task.pc (.setRemoteDescription .offer sdp)) :
    Traced (t.flushAfterRemoteDesc task answering) := by
  obtain ⟨hfound,hattempt⟩ := linkOf_eq_some.mp hlink
  have hcached := h.cached task.peer link hfound
  unfold Transport.flushAfterRemoteDesc
  rw [updateLink_of_some hlink,hlink]
  let link' : PeerLink := { link with remoteDescSet := true, pendingIce := [] }
  have hput : Sourced { t with links := t.links.insert task.peer link' } :=
    h.put ⟨hcached.offer,hcached.answer,by simp [link']⟩
  refine flushNext hput hmade (fun candidate hcandidate => ?_) hoffer
  rw [hkey.1,hkey.2,← hattempt]
  exact hcached.pending candidate hcandidate

theorem described {acknowledged : Option Acknowledgement} {payload : RtcPayload} (h : Sourced t)
    (hcached : Cached t.handled t.calls peer link)
    (horigin : Origin t.made t.calls peer payload) :
    Traced (({ t with links := t.links.insert peer link }.publish peer payload).finish
      acknowledged) := finished ((h.put hcached).publish horigin)

theorem resume (hd : Disciplined t) (h : Traced t) (htask : t.task = some task)
    (outcome : Outcome) : Traced (t.resume task outcome) := by
  obtain ⟨link,hlink,hpc,hfits'⟩ := hd.awaits task htask
  obtain ⟨hfound,hattempt⟩ := linkOf_eq_some.mp hlink
  have hfits := hd.sound.linked _ _ hfound
  have hmade : task.pc ∈ t.made := hpc ▸ hfits.made
  have hkey : task.pc.peer = task.peer ∧ task.pc.attempt = task.attempt := by
    rw [← hpc]
    exact ⟨hfits.keyed,hfits.attempt.trans hattempt⟩
  have hsourced := h.sourced
  have hunderway := h.underway task htask
  have hcached := hsourced.cached _ _ hfound
  have hretired : Traced ((t.retireLink task.peer task.attempt).finish task.acknowledged) := by
    rw [retireLink_of_some hlink]
    exact finished (hsourced.retired hfits.made)
  cases outcome with
  | rejected =>
    unfold Transport.resume Transport.rejected
    cases hstage : task.stage with
    | flush candidate rest answering =>
      rw [hstage] at hunderway
      exact flushNext hsourced hmade hunderway.1 hunderway.2
    | addIce candidate => exact finished hsourced
    | createOffer | setLocalOffer offer | setRemoteOffer sdp | createAnswer | setLocalAnswer answer
    | setRemoteAnswer sdp => exact hretired
  | fulfilled sdp =>
    have hsettled : Sourced (t.settle task.pc task.stage.call) :=
      hsourced.of_eq rfl rfl rfl rfl rfl rfl rfl
    have hlink' : (t.settle task.pc task.stage.call).linkOf task.peer task.attempt = some link :=
      hlink
    obtain ⟨hhandled,hcalls,hkept⟩ :
        (t.settle task.pc task.stage.call).handled = t.handled ∧
          (t.settle task.pc task.stage.call).calls = t.calls ∧
          (t.settle task.pc task.stage.call).made = t.made := ⟨rfl,rfl,rfl⟩
    rw [← hhandled,← hcalls] at hunderway hcached
    rw [← hkept] at hmade
    unfold Transport.resume Transport.fulfilled
    generalize t.settle task.pc task.stage.call = after at *
    cases hstage : task.stage with
    | createOffer =>
      rw [hstage] at hunderway
      refine asked hsettled hmade trivial ?_ (asked_concat.mpr (.inr ⟨rfl,rfl⟩))
      intro offer _ other
      exact hunderway other
    | setLocalOffer offer =>
      rw [hstage] at hunderway hfits'
      cases offer with
      | some sdp =>
        simp only [Transport.offered,hlink',Option.isSome_some,if_true,updateLink_of_some hlink']
        refine described hsettled ⟨fun sdp' hsdp => ?_,hcached.answer,hcached.pending⟩
          ⟨task.pc,hmade,hkey.1,hkey.2,hpc ▸ hfits'.1,hunderway⟩
        obtain rfl := Option.some.inj hsdp
        rwa [hpc]
      | none =>
        simp only [Transport.offered,retireLink_of_some hlink']
        exact finished (hsettled.retired (hpc ▸ hmade))
    | setRemoteOffer sdp =>
      rw [hstage] at hunderway
      exact flushAfterRemoteDesc hsettled hlink' hmade hkey fun _ => hunderway
    | flush candidate rest answering =>
      rw [hstage] at hunderway
      exact flushNext hsettled hmade hunderway.1 hunderway.2
    | createAnswer =>
      rw [hstage] at hunderway
      exact asked hsettled hmade hunderway (by simp [Stage.call])
        (asked_concat.mpr (.inr ⟨rfl,rfl⟩))
    | setLocalAnswer answer =>
      rw [hstage] at hunderway hfits'
      cases answer with
      | some sdp =>
        simp only [Transport.answered,hlink',Option.isSome_some,if_true,updateLink_of_some hlink']
        refine described hsettled ⟨hcached.offer,fun sdp' hsdp => ?_,hcached.pending⟩
          ⟨task.pc,hmade,hkey.1,hkey.2,hpc ▸ hfits'.1,hunderway⟩
        obtain rfl := Option.some.inj hsdp
        rwa [hpc]
      | none => exact finished hsettled
    | setRemoteAnswer sdp => exact flushAfterRemoteDesc hsettled hlink' hmade hkey (by simp)
    | addIce candidate => exact finished hsettled

/-! ### Callbacks and runs -/

theorem of_eq (h : Traced t) (htask : t'.task = t.task) (hlocal : t'.localId = t.localId)
    (hmade : t'.made = t.made) (hhandled : t'.handled = t.handled) (hcalls : t'.calls = t.calls)
    (houtbound : t'.outbound = t.outbound) (hlinks : t'.links = t.links)
    (hearly : t'.earlyIce = t.earlyIce) : Traced t' := by
  refine ⟨h.sourced.of_eq hlocal hmade hhandled hcalls houtbound hlinks hearly,fun task hsome => ?_⟩
  rw [htask] at hsome
  rw [hhandled,hcalls]
  exact h.underway task hsome

theorem rechanneled {links : KeyedMap EndpointId PeerLink} (h : Traced t)
    (hlinks : ∀ peer link, links.get? peer = some link → ∃ old, t.links.get? peer = some old ∧
      link = { old with channel := link.channel, sessionChannel := link.sessionChannel }) :
    Traced { t with links } := by
  refine ⟨⟨h.sourced.roles,h.sourced.invited,h.sourced.caused,h.sourced.oneOffer,
    h.sourced.published,fun peer link hlink => ?_,h.sourced.early⟩,h.underway⟩
  obtain ⟨old,hold,hsame⟩ := hlinks peer link hlink
  have hcached := h.sourced.cached peer old hold
  rw [hsame]
  exact ⟨hcached.offer,hcached.answer,hcached.pending⟩

theorem attached {f : PeerLink → PeerLink} (h : Traced t)
    (hf : ∀ old, f old = { old with
      channel := (f old).channel, sessionChannel := (f old).sessionChannel }) :
    Traced (t.updateLink peer attempt f) := by
  cases hlink : t.linkOf peer attempt with
  | none => rwa [updateLink_of_none hlink]
  | some old =>
    rw [updateLink_of_some hlink]
    refine h.rechanneled fun other found hfound => ?_
    rw [KeyedMap.get?_insert] at hfound
    by_cases hsame : other = peer
    · rw [if_pos hsame] at hfound
      obtain rfl := Option.some.inj hfound
      exact ⟨old,hsame ▸ (linkOf_eq_some.mp hlink).1,hf old⟩
    · rw [if_neg hsame] at hfound
      exact ⟨found,hfound,rfl⟩

theorem step {event : Event} (hd : Disciplined t) (h : Traced t) (hallowed : event.allowed t)
    (hstep : t.step event = some t') : Traced t' := by
  cases event with
  | next choice =>
    simp only [Transport.step] at hstep
    split at hstep
    · rename_i command commands hidle hcommands
      cases hstep
      have hpopped : Traced { t with commands, handled := t.handled ++ command.signals } :=
        of_idle ((h.sourced.handle command.signals).of_eq rfl rfl rfl rfl rfl rfl rfl) hidle
      have hd' : Disciplined { t with commands, handled := t.handled ++ command.signals } :=
        hd.of_eq rfl rfl rfl rfl rfl rfl
      have hmoves := (handle_moves (t := { t with commands }) choice hidle
        command).preserve
          (fun state => Disciplined state ∧ Traced state ∧ command.signals ⊆ state.handled)
          (fun _ _ hbefore hnext hmove => ⟨hbefore.1.move hnext hmove,
            hbefore.2.1.move hbefore.1 hbefore.2.2 hnext hmove,
            hmove.handled ▸ hbefore.2.2⟩)
          ⟨hd',hpopped,List.subset_append_right _ _⟩
      exact hmoves.2.1
    · cases hstep
  | resolve outcome =>
    obtain ⟨task,htask,rfl⟩ := Option.map_eq_some_iff.mp hstep
    exact h.resume hd htask outcome
  | dataChannel pc label channel =>
    cases hstep
    unfold attachIncomingChannel
    split
    · exact h.attached fun _ => rfl
    · split
      · exact h.attached fun _ => rfl
      · exact h
  | channels peer channel sessionChannel =>
    cases hstep
    refine h.rechanneled fun other found hfound => ?_
    rw [KeyedMap.get?_mapValues] at hfound
    obtain ⟨old,hold,rfl⟩ := Option.map_eq_some_iff.mp hfound
    refine ⟨old,hold,?_⟩
    by_cases hsame : other = peer
    · rw [if_pos hsame]
    · rw [if_neg hsame]
  | message pc bytes =>
    cases hstep
    unfold onMessage
    split
    · exact h.of_eq rfl rfl rfl rfl rfl rfl rfl rfl
    · exact h
  | sessionMessage pc bytes =>
    cases hstep
    unfold onSessionMessage
    split
    · exact h.of_eq rfl rfl rfl rfl rfl rfl rfl rfl
    · exact h
  | opened pc =>
    cases hstep
    unfold onOpen
    split
    · exact h.of_eq rfl rfl rfl rfl rfl rfl rfl rfl
    · exact h
  | send peer contents segmentSize =>
    cases hstep
    unfold pollSend
    dsimp only
    split
    · exact h.of_eq rfl rfl rfl rfl rfl rfl rfl rfl
    · split
      · exact h.of_eq rfl rfl rfl rfl rfl rfl rfl rfl
      · exact h
  | iceCandidate pc candidate =>
    cases hstep
    exact ⟨h.sourced.publish ⟨pc,hallowed,rfl,rfl,trivial⟩,h.underway⟩
  | command command => cases hstep; exact h.of_eq rfl rfl rfl rfl rfl rfl rfl rfl
  | terminal pc => cases hstep; exact h.of_eq rfl rfl rfl rfl rfl rfl rfl rfl
  | receive sizes => cases hstep; exact h.of_eq rfl rfl rfl rfl rfl rfl rfl rfl
  | takeSession => cases hstep; exact h.of_eq rfl rfl rfl rfl rfl rfl rfl rfl

theorem init (localId : EndpointId) : Traced { localId } := by
  refine of_idle ⟨by simp,by simp,?_,?_,by simp,by simp,by simp⟩ rfl
  · rintro pc call ⟨found,hfound⟩
    cases hfound
  · rintro pc one other ⟨found,hfound⟩
    cases hfound

end Traced

theorem Reachable.traced {localId : EndpointId} (h : Reachable localId t) : Traced t := by
  induction h with
  | start => exact .init localId
  | step hreach hallowed hstep ih => exact ih.step hreach.disciplined hallowed hstep

end WalkieSongie.Net.WebRtc
