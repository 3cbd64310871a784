import WalkieSongie.RtcMoves
set_option autoImplicit false

/-!
The driver asks a connection only for what its state allows, and every connection that is not closed
is the one of its peer's link.
-/

namespace WalkieSongie.Net.WebRtc
open Transport

variable {t : Transport} {busy : Option EndpointId} {peer : EndpointId} {link : PeerLink}
  {pc : RtcPeerConnection} {task : Task}

/-- A link that is in its place, with a connection that is open. -/
structure LinkFits (t : Transport) (peer : EndpointId) (link : PeerLink) : Prop where
  made : link.pc ∈ t.made
  keyed : link.pc.peer = peer
  attempt : link.pc.attempt = link.attempt
  other : peer ≠ t.localId
  offerer : link.pc.offerer = localIsOfferer t.localId peer
  opened : (t.browser link.pc).signaling ≠ .closed
  remote : link.remoteDescSet = true → (t.browser link.pc).remote.isSome = true

/-- The state that a promise is awaited in. -/
def Stage.Fits (link : PeerLink) (state : PcState) : Stage → Prop
  | createOffer | setLocalOffer _ => link.pc.offerer = true ∧ state.signaling = .stable
  | setRemoteOffer _ => link.pc.offerer = false ∧ state.signaling = .stable
  | flush _ _ true =>
    link.pc.offerer = false ∧ state.signaling = .haveRemoteOffer ∧ link.remoteDescSet = true
  | flush _ _ false => link.pc.offerer = true ∧ link.remoteDescSet = true
  | createAnswer | setLocalAnswer _ =>
    link.pc.offerer = false ∧ state.signaling = .haveRemoteOffer
  | setRemoteAnswer _ => link.pc.offerer = true ∧ state.signaling = .haveLocalOffer
  | addIce _ =>
    link.remoteDescSet = true ∧ (link.pc.offerer = false → state.signaling = .stable)

/-- Nothing is asked of a connection after it was asked to close. -/
def ClosedLast (earlier later : PcRecord) : Prop := earlier.call = .close → later.pc ≠ earlier.pc

/-- What holds of the links whatever the driver awaits; `busy` is the peer that it is busy with. -/
structure Sound (t : Transport) (busy : Option EndpointId) : Prop where
  numbered : ∀ pc ∈ t.made, pc.id < t.made.length
  untouched : ∀ pc, pc ∉ t.made → t.browser pc = {}
  linked : ∀ peer link, t.links.get? peer = some link → LinkFits t peer link
  rests : ∀ peer link, t.links.get? peer = some link → busy ≠ some peer →
    link.pc.offerer = false → (t.browser link.pc).signaling = .stable
  held : ∀ pc ∈ t.made, (t.browser pc).signaling ≠ .closed →
    ∃ link, t.links.get? pc.peer = some link ∧ link.pc = pc
  distinct : t.made.Nodup
  legal : ∀ entry ∈ t.calls, entry.found.accepts entry.call = true
  ended : ∀ entry ∈ t.calls, entry.call = .close → (t.browser entry.pc).signaling = .closed
  closing : t.calls.Pairwise ClosedLast
  room : t.links.entries.length ≤ maxSignalingPeers

structure Disciplined (t : Transport) : Prop where
  sound : Sound t (t.task.map Task.peer)
  awaits : ∀ task, t.task = some task → ∃ link, t.linkOf task.peer task.attempt = some link ∧
    link.pc = task.pc ∧ task.stage.Fits link (t.browser link.pc)

theorem PcState.open_of_accepts {state : PcState} {call : PcCall}
    (h : state.accepts call = true) : state.signaling ≠ .closed := by
  intro hclosed
  cases call with
  | setLocalDescription type _ => cases type <;> simp [PcState.accepts,hclosed] at h
  | setRemoteDescription type _ => cases type <;> simp [PcState.accepts,hclosed] at h
  | createOffer | createAnswer | addIceCandidate _ | close =>
    simp [PcState.accepts,hclosed] at h

theorem PcState.fulfill_open {state : PcState} {call : PcCall}
    (hopen : state.signaling ≠ .closed) (hcall : call ≠ .close) :
    (state.fulfill call).signaling ≠ .closed ∧
      (state.remote.isSome = true → (state.fulfill call).remote.isSome = true) := by
  cases call with
  | setLocalDescription type _ => cases type <;> simp [PcState.fulfill]
  | setRemoteDescription type _ => cases type <;> simp [PcState.fulfill]
  | createOffer | createAnswer | addIceCandidate _ => exact ⟨hopen,id⟩
  | close => exact absurd rfl hcall

@[simp]
theorem Transport.createLink_browser {attempt : RtcAttempt} {offerer : Bool} :
    (t.createLink peer attempt offerer).2.browser = t.browser := rfl

theorem localIsOfferer_symm {one other : EndpointId} (h : localIsOfferer one other = true) :
    localIsOfferer other one = false := by
  simp only [localIsOfferer,decide_eq_true_eq,decide_eq_false_iff_not] at h ⊢
  exact Nat.lt_asymm h

namespace Sound

theorem busy_with (h : Sound t none) (peer : EndpointId) : Sound t (some peer) :=
  { h with rests := fun other link hlink _ => h.rests other link hlink (by simp) }

theorem let_go (h : Sound t (some peer))
    (hrests : ∀ link, t.links.get? peer = some link → link.pc.offerer = false →
      (t.browser link.pc).signaling = .stable) : Sound t none := by
  refine { h with rests := fun other link hlink _ => ?_ }
  by_cases hsame : other = peer
  · subst hsame
    exact hrests link hlink
  · exact h.rests other link hlink (by simpa using Ne.symm hsame)

theorem append_closing {call : PcCall} (h : Sound t busy)
    (hlegal : (t.browser pc).accepts call = true) :
    (t.calls ++ [PcRecord.mk pc (t.browser pc) call]).Pairwise ClosedLast := by
  refine List.pairwise_append.mpr
    ⟨h.closing,List.pairwise_singleton _ _,fun entry hentry new hnew => ?_⟩
  obtain rfl := List.mem_singleton.mp hnew
  rintro hclose rfl
  exact PcState.open_of_accepts hlegal (h.ended entry hentry hclose)

theorem record {call : PcCall} (h : Sound t busy) (hlegal : (t.browser pc).accepts call = true)
    (hcall : call ≠ .close) : Sound (t.record pc call) busy := by
  refine ⟨h.numbered,h.untouched,fun peer link hlink => ?_,h.rests,h.held,h.distinct,?_,?_,
    h.append_closing hlegal,h.room⟩
  · exact { h.linked peer link hlink with }
  · intro entry hentry
    rcases List.mem_append.mp hentry with hold | hnew
    · exact h.legal entry hold
    · obtain rfl := List.mem_singleton.mp hnew
      exact hlegal
  · intro entry hentry hclose
    rcases List.mem_append.mp hentry with hold | hnew
    · exact h.ended entry hold hclose
    · obtain rfl := List.mem_singleton.mp hnew
      exact absurd hclose hcall

theorem of_eq {t' : Transport} (h : Sound t busy) (hlocal : t'.localId = t.localId)
    (hlinks : t'.links = t.links) (hmade : t'.made = t.made) (hbrowser : t'.browser = t.browser)
    (hcalls : t'.calls = t.calls) : Sound t' busy := by
  refine ⟨?_,?_,fun peer link hlink => ?_,?_,?_,?_,?_,?_,?_,?_⟩
  · rw [hmade]; exact h.numbered
  · rw [hmade,hbrowser]; exact h.untouched
  · rw [hlinks] at hlink
    have hfits := h.linked peer link hlink
    exact ⟨hmade ▸ hfits.made,hfits.keyed,hfits.attempt,hlocal ▸ hfits.other,hlocal ▸ hfits.offerer,
      hbrowser ▸ hfits.opened,hbrowser ▸ hfits.remote⟩
  · rw [hlinks,hbrowser]; exact h.rests
  · rw [hmade,hlinks,hbrowser]; exact h.held
  · rw [hmade]; exact h.distinct
  · rw [hcalls]; exact h.legal
  · rw [hcalls,hbrowser]; exact h.ended
  · rw [hcalls]; exact h.closing
  · rw [hlinks]; exact h.room

theorem pc_ne {other : EndpointId} {otherLink : PeerLink} (h : Sound t busy)
    (hlink : t.links.get? peer = some link) (hother : t.links.get? other = some otherLink)
    (hne : other ≠ peer) : otherLink.pc ≠ link.pc := by
  intro hsame
  have hpeer := (h.linked peer link hlink).keyed
  have hpeer' := (h.linked other otherLink hother).keyed
  rw [hsame,hpeer] at hpeer'
  exact hne hpeer'.symm

theorem retired (h : Sound t busy) (hbusy : ∀ other, busy = some other → other = peer)
    (hlink : t.links.get? peer = some link) : Sound (t.retired peer link.pc) none := by
  have hfits := h.linked peer link hlink
  have hlegal : (t.browser link.pc).accepts .close = true := by
    simpa [PcState.accepts] using hfits.opened
  have hkept : ∀ other otherLink, (t.links.erase peer).get? other = some otherLink →
      other ≠ peer ∧ t.links.get? other = some otherLink ∧ otherLink.pc ≠ link.pc := by
    intro other otherLink hother
    rw [KeyedMap.get?_erase] at hother
    by_cases hsame : other = peer
    · simp [hsame] at hother
    · rw [if_neg hsame] at hother
      exact ⟨hsame,hother,h.pc_ne hlink hother hsame⟩
  refine ⟨h.numbered,fun pc hpc => ?_,fun other otherLink hother => ?_,
    fun other otherLink hother _ => ?_,fun pc hpc hopen => ?_,h.distinct,fun entry hentry => ?_,
    fun entry hentry hclose => ?_,h.append_closing hlegal,?_⟩
  · have hne : pc ≠ link.pc := fun hsame => hpc (hsame ▸ hfits.made)
    simpa [Transport.retired,Function.update_of_ne hne] using h.untouched pc hpc
  · obtain ⟨-,hold,hne⟩ := hkept other otherLink hother
    have hold := h.linked other otherLink hold
    refine ⟨hold.made,hold.keyed,hold.attempt,hold.other,hold.offerer,?_,?_⟩
    · simpa [Transport.retired,Function.update_of_ne hne] using hold.opened
    · simpa [Transport.retired,Function.update_of_ne hne] using hold.remote
  · obtain ⟨hother',hold,hne⟩ := hkept other otherLink hother
    simp only [Transport.retired,Function.update_of_ne hne]
    exact h.rests other otherLink hold fun hb => hother' (hbusy other hb)
  · by_cases hsame : pc = link.pc
    · subst hsame
      simp [Transport.retired,PcState.fulfill] at hopen
    · simp only [Transport.retired,Function.update_of_ne hsame] at hopen
      obtain ⟨found,hfound,hpc'⟩ := h.held pc hpc hopen
      refine ⟨found,?_,hpc'⟩
      have hne : pc.peer ≠ peer := by
        rintro rfl
        rw [hlink] at hfound
        cases hfound
        exact hsame hpc'.symm
      simpa [Transport.retired,KeyedMap.get?_erase,hne] using hfound
  · rcases List.mem_append.mp hentry with hold | hnew
    · exact h.legal entry hold
    · obtain rfl := List.mem_singleton.mp hnew
      exact hlegal
  · by_cases hsame : entry.pc = link.pc
    · simp [Transport.retired,hsame,PcState.fulfill]
    · simp only [Transport.retired,Function.update_of_ne hsame]
      rcases List.mem_append.mp hentry with hold | hnew
      · exact h.ended entry hold hclose
      · obtain rfl := List.mem_singleton.mp hnew
        exact absurd rfl hsame
  · exact (KeyedMap.length_erase_le _ _).trans h.room

theorem createLink_fresh (h : Sound t busy) (peer : EndpointId) (attempt : RtcAttempt)
    (offerer : Bool) :
    (t.createLink peer attempt offerer).1 ∉ t.made := by
  intro hmem
  exact Nat.lt_irrefl _ (h.numbered _ hmem)

theorem created {offerer : Bool} (h : Sound t none) (attempt : RtcAttempt)
    (hother : peer ≠ t.localId) (hofferer : offerer = localIsOfferer t.localId peer)
    (hnone : t.links.get? peer = none) (hroom : t.links.entries.length < maxSignalingPeers) :
    Sound (t.createLink peer attempt offerer).2 none := by
  have hnew := h.createLink_fresh peer attempt offerer
  have hfound : ∀ other link, (t.createLink peer attempt offerer).2.links.get? other = some link →
      (other = peer ∧ link = t.freshLink peer attempt offerer) ∨
        (other ≠ peer ∧ t.links.get? other = some link) := by
    intro other link hlink
    simp only [createLink,KeyedMap.get?_insert] at hlink
    by_cases hsame : other = peer
    · rw [if_pos hsame] at hlink
      exact .inl ⟨hsame,(Option.some.inj hlink).symm⟩
    · rw [if_neg hsame] at hlink
      exact .inr ⟨hsame,hlink⟩
  refine ⟨fun pc hpc => ?_,fun pc hpc => ?_,
    fun other link hlink => ?_,fun other link hlink _ _ => ?_,
    fun pc hpc hopen => ?_,?_,h.legal,h.ended,h.closing,?_⟩
  · simp only [createLink,List.length_append,List.length_singleton]
    rcases List.mem_append.mp hpc with hold | hlast
    · exact Nat.lt_succ_of_lt (h.numbered pc hold)
    · obtain rfl := List.mem_singleton.mp hlast
      exact Nat.lt_succ_self _
  · exact h.untouched pc fun hold => hpc (List.mem_append_left _ hold)
  · rcases hfound other link hlink with ⟨rfl,rfl⟩ | ⟨-,hold⟩
    · refine ⟨List.mem_append_right _ (List.mem_singleton.mpr rfl),rfl,rfl,hother,hofferer,?_,?_⟩
      · simp [freshLink,createLink_browser,h.untouched _ hnew]
      · simp [freshLink]
    · have hold := h.linked other link hold
      exact ⟨List.mem_append_left _ hold.made,hold.keyed,hold.attempt,hold.other,hold.offerer,
        hold.opened,hold.remote⟩
  · rcases hfound other link hlink with ⟨rfl,rfl⟩ | ⟨-,hold⟩
    · simp [freshLink,createLink_browser,h.untouched _ hnew]
    · exact h.rests other link hold (by simp) ‹_›
  · rcases List.mem_append.mp hpc with hold | hlast
    · obtain ⟨found,hheld,hpc'⟩ := h.held pc hold hopen
      refine ⟨found,?_,hpc'⟩
      have hne : pc.peer ≠ peer := by
        rintro rfl
        rw [hnone] at hheld
        cases hheld
      simpa [createLink,KeyedMap.get?_insert,hne] using hheld
    · obtain rfl := List.mem_singleton.mp hlast
      exact ⟨_,KeyedMap.get?_insert_self _ _ _,rfl⟩
  · simpa [createLink,List.concat_eq_append] using List.Nodup.concat hnew h.distinct
  · exact (KeyedMap.length_insert_le _ _ _).trans hroom

theorem replaced {link' : PeerLink} (h : Sound t busy) (hlink : t.links.get? peer = some link)
    (hpc : link'.pc = link.pc) (hattempt : link'.attempt = link.attempt)
    (hremote : link'.remoteDescSet = true → (t.browser link.pc).remote.isSome = true) :
    Sound { t with links := t.links.insert peer link' } busy := by
  have hfits := h.linked peer link hlink
  have hfound : ∀ other found, (t.links.insert peer link').get? other = some found →
      (other = peer ∧ found = link') ∨ (other ≠ peer ∧ t.links.get? other = some found) := by
    intro other found hother
    rw [KeyedMap.get?_insert] at hother
    by_cases hsame : other = peer
    · rw [if_pos hsame] at hother
      exact .inl ⟨hsame,(Option.some.inj hother).symm⟩
    · rw [if_neg hsame] at hother
      exact .inr ⟨hsame,hother⟩
  refine ⟨h.numbered,h.untouched,fun other found hother => ?_,fun other found hother hb => ?_,
    fun pc hmade hopen => ?_,h.distinct,h.legal,h.ended,h.closing,?_⟩
  · rcases hfound other found hother with ⟨rfl,rfl⟩ | ⟨-,hold⟩
    · refine ⟨hpc ▸ hfits.made,hpc ▸ hfits.keyed,?_,hfits.other,hpc ▸ hfits.offerer,
        hpc ▸ hfits.opened,?_⟩
      · rw [hpc,hattempt]
        exact hfits.attempt
      · rw [hpc]
        exact hremote
    · exact { h.linked other found hold with }
  · rcases hfound other found hother with ⟨rfl,rfl⟩ | ⟨-,hold⟩
    · rw [hpc]
      exact h.rests other link hlink hb
    · exact h.rests other found hold hb
  · obtain ⟨found,hold,hsame⟩ := h.held pc hmade hopen
    by_cases hpeer : pc.peer = peer
    · rw [hpeer,hlink] at hold
      cases hold
      refine ⟨link',?_,hpc.trans hsame⟩
      rw [hpeer]
      exact KeyedMap.get?_insert_self _ _ _
    · refine ⟨found,?_,hsame⟩
      simpa [KeyedMap.get?_insert,hpeer] using hold
  · exact (KeyedMap.length_insert_of_some _ hlink).trans h.room

theorem settle {call : PcCall} (h : Sound t (some peer)) (hlink : t.links.get? peer = some link)
    (hcall : call ≠ .close) : Sound (t.settle link.pc call) (some peer) := by
  have hfits := h.linked peer link hlink
  obtain ⟨hopen,hset⟩ := PcState.fulfill_open hfits.opened hcall
  refine ⟨h.numbered,fun pc hpc => ?_,fun other found hother => ?_,fun other found hother hb => ?_,
    fun pc hmade hopen => ?_,h.distinct,h.legal,fun entry hentry hclose => ?_,h.closing,h.room⟩
  · have hne : pc ≠ link.pc := fun hsame => hpc (hsame ▸ hfits.made)
    simpa [Transport.settle,Function.update_of_ne hne] using h.untouched pc hpc
  · have hold := h.linked other found hother
    refine ⟨hold.made,hold.keyed,hold.attempt,hold.other,hold.offerer,?_,?_⟩
    · by_cases hsame : found.pc = link.pc
      · simpa [Transport.settle,hsame] using hopen
      · simpa [Transport.settle,Function.update_of_ne hsame] using hold.opened
    · intro hremote
      have hpast := hold.remote hremote
      by_cases hsame : found.pc = link.pc
      · rw [hsame] at hpast
        simpa [Transport.settle,hsame] using hset hpast
      · simpa [Transport.settle,Function.update_of_ne hsame] using hpast
  · have hne : other ≠ peer := fun hsame => hb (by rw [hsame])
    have hpc : found.pc ≠ link.pc := h.pc_ne hlink hother hne
    simpa [Transport.settle,Function.update_of_ne hpc] using h.rests other found hother hb
  · by_cases hsame : pc = link.pc
    · subst hsame
      rw [hfits.keyed]
      exact ⟨link,hlink,rfl⟩
    · simp only [Transport.settle,Function.update_of_ne hsame] at hopen
      exact h.held pc hmade hopen
  · have hended := h.ended entry hentry hclose
    have hne : entry.pc ≠ link.pc := by
      intro hsame
      rw [hsame] at hended
      exact hfits.opened hended
    simpa [Transport.settle,Function.update_of_ne hne] using hended

end Sound

theorem Stage.call_ne_close (stage : Stage) : stage.call ≠ .close := by
  cases stage <;> simp [Stage.call]

theorem Stage.Fits.accepts {stage : Stage} {state : PcState} (h : stage.Fits link state)
    (hopen : state.signaling ≠ .closed)
    (hremote : link.remoteDescSet = true → state.remote.isSome = true) :
    state.accepts stage.call = true := by
  cases stage with
  | createOffer => simp [Stage.call,PcState.accepts,h.2]
  | setLocalOffer offer => simp [Stage.call,PcState.accepts,h.2]
  | setRemoteOffer sdp => simp [Stage.call,PcState.accepts,h.2]
  | createAnswer => simp [Stage.call,PcState.accepts,h.2]
  | setLocalAnswer answer => simp [Stage.call,PcState.accepts,h.2]
  | setRemoteAnswer sdp => simp [Stage.call,PcState.accepts,h.2]
  | flush candidate rest answering =>
    have hset : link.remoteDescSet = true := by
      cases answering with
      | true => exact h.2.2
      | false => exact h.2
    simp [Stage.call,PcState.accepts,hopen,hremote hset]
  | addIce candidate => simp [Stage.call,PcState.accepts,hopen,hremote h.1]

theorem Stage.Fits.congr {stage : Stage} {state : PcState} {link' : PeerLink}
    (h : stage.Fits link state) (hpc : link'.pc = link.pc)
    (hset : link'.remoteDescSet = link.remoteDescSet) : stage.Fits link' state := by
  cases stage with
  | flush candidate rest answering =>
    cases answering with
    | true => exact ⟨hpc ▸ h.1,h.2.1,hset ▸ h.2.2⟩
    | false => exact ⟨hpc ▸ h.1,hset ▸ h.2⟩
  | addIce candidate => exact ⟨hset ▸ h.1,hpc ▸ h.2⟩
  | createOffer | setLocalOffer offer | setRemoteOffer sdp | createAnswer | setLocalAnswer answer
  | setRemoteAnswer sdp => exact ⟨hpc ▸ h.1,h.2⟩

namespace Disciplined

theorem of_idle (h : Sound t none) (hidle : t.task = none) : Disciplined t := by
  refine ⟨by rw [hidle]; exact h,fun task htask => ?_⟩
  rw [hidle] at htask
  cases htask

theorem asked (h : Sound t (some task.peer))
    (hlink : t.linkOf task.peer task.attempt = some link) (hpc : link.pc = task.pc)
    (hfits : task.stage.Fits link (t.browser link.pc)) : Disciplined (t.ask task) := by
  have hfound := h.linked _ _ (linkOf_eq_some.mp hlink).1
  have hlegal := hfits.accepts hfound.opened hfound.remote
  rw [hpc] at hlegal
  have hcall := task.stage.call_ne_close
  refine ⟨(h.record hlegal hcall).of_eq rfl rfl rfl rfl rfl,fun task' htask => ?_⟩
  obtain rfl := Option.some.inj htask
  exact ⟨link,hlink,hpc,hfits⟩

theorem finished {acknowledged : Option Acknowledgement} (h : Sound t none) :
    Disciplined (t.finish acknowledged) := by
  cases acknowledged with
  | none => exact of_idle (h.of_eq rfl rfl rfl rfl rfl) rfl
  | some acknowledged => exact of_idle (h.of_eq rfl rfl rfl rfl rfl) rfl

theorem init (localId : EndpointId) : Disciplined { localId } := by
  refine of_idle ⟨?_,?_,?_,?_,?_,?_,?_,?_,?_,?_⟩ rfl
  · simp
  · simp
  · simp
  · simp
  · simp
  · simp
  · simp
  · simp
  · simp
  · simp [KeyedMap.empty]

theorem sound_of_idle (h : Disciplined t) (hidle : t.task = none) : Sound t none := by
  have hsound := h.sound
  rwa [hidle] at hsound

theorem asked_of_idle (h : Sound t none)
    (hlink : t.linkOf task.peer task.attempt = some link) (hpc : link.pc = task.pc)
    (hfits : LinkFits t task.peer link → (link.pc.offerer = false →
      (t.browser link.pc).signaling = .stable) → task.stage.Fits link (t.browser link.pc)) :
    Disciplined (t.ask task) := by
  have hfound := (linkOf_eq_some.mp hlink).1
  exact asked (h.busy_with _) hlink hpc
    (hfits (h.linked _ _ hfound) (h.rests _ _ hfound (by simp)))

theorem adopted {sender : EndpointId} {attempt : RtcAttempt} (h : Sound t none)
    (hlink : t.linkOf sender attempt = some link) :
    Sound (t.adoptEarlyIce sender attempt) none := by
  have hfound := (linkOf_eq_some.mp hlink).1
  rw [adoptEarlyIce_of_some hlink]
  have hsame : Sound { t with earlyIce := t.earlyIce.erase sender } none :=
    h.of_eq rfl rfl rfl rfl rfl
  exact hsame.replaced hfound rfl rfl (h.linked _ _ hfound).remote

theorem move {choice : Choice} {signals : List (EndpointId × RtcPayload)} {t' : Transport}
    (h : Disciplined t) (hidle : t.task = none) (hmove : Move choice signals t t') :
    Disciplined t' := by
  have hsound := h.sound_of_idle hidle
  cases hmove with
  | acknowledge number retiredAttempt => exact of_idle (hsound.of_eq rfl rfl rfl rfl rfl) hidle
  | retire hlink => exact of_idle (hsound.retired (by simp) hlink) hidle
  | @dial peer acknowledged hother hofferer hnone hroom =>
    have hcreated := hsound.created choice.attempt hother hofferer.symm hnone hroom
    refine asked_of_idle hcreated linkOf_createLink rfl fun _ _ => ⟨rfl,?_⟩
    rw [createLink_browser,freshLink,hsound.untouched _
      (hsound.createLink_fresh peer choice.attempt true)]
  | offerAgain hofferer hlink hoffer => exact of_idle (hsound.of_eq rfl rfl rfl rfl rfl) hidle
  | @accept sender attempt sdp hsender hofferer hsignal hnone hroom =>
    have hcreated := hsound.created attempt hsender
      (localIsOfferer_symm hofferer).symm hnone hroom
    refine of_idle (adopted hcreated linkOf_createLink) ?_
    rw [adoptEarlyIce_of_some linkOf_createLink]
    exact hidle
  | adopt hofferer hlink =>
    refine of_idle (adopted hsound hlink) ?_
    rw [adoptEarlyIce_of_some hlink]
    exact hidle
  | answerAgain hofferer hlink hanswer => exact of_idle (hsound.of_eq rfl rfl rfl rfl rfl) hidle
  | applyOffer hofferer hsignal hlink hanswer =>
    refine asked_of_idle hsound hlink rfl fun hfits hrests => ?_
    have hrole := hfits.offerer.trans (localIsOfferer_symm hofferer)
    exact ⟨hrole,hrests hrole⟩
  | applyAnswer hofferer hsignal hlink hstate =>
    exact asked_of_idle hsound hlink rfl fun hfits _ => ⟨hfits.offerer.trans hofferer,hstate⟩
  | addIce hsignal hlink hset => exact asked_of_idle hsound hlink rfl fun _ hrests => ⟨hset,hrests⟩
  | bufferIce hsignal hlink hset =>
    have hfound := (linkOf_eq_some.mp hlink).1
    rw [bufferIce,updateLink_of_some hlink]
    refine of_idle (hsound.replaced hfound ?_ ?_ ?_) hidle
    · split <;> rfl
    · split <;> rfl
    · split <;> exact (hsound.linked _ _ hfound).remote
  | bufferEarlyIce hsignal hlink =>
    rw [bufferEarlyIce]
    split
    · exact of_idle hsound hidle
    · exact of_idle (hsound.of_eq rfl rfl rfl rfl rfl) hidle

/-! ### After a promise -/

theorem finished_offerer {acknowledged : Option Acknowledgement} (h : Sound t (some peer))
    (hlink : t.links.get? peer = some link) (hrole : link.pc.offerer = true) :
    Disciplined (t.finish acknowledged) := by
  refine finished (h.let_go fun found hfound hanswerer => ?_)
  rw [hlink] at hfound
  cases hfound
  rw [hrole] at hanswerer
  cases hanswerer

theorem finished_stable {acknowledged : Option Acknowledgement} (h : Sound t (some peer))
    (hlink : t.links.get? peer = some link) (hstable : (t.browser link.pc).signaling = .stable) :
    Disciplined (t.finish acknowledged) := by
  refine finished (h.let_go fun found hfound _ => ?_)
  rw [hlink] at hfound
  cases hfound
  exact hstable

theorem flushNext (answering : Bool) (h : Sound t (some task.peer))
    (hlink : t.linkOf task.peer task.attempt = some link) (hpc : link.pc = task.pc)
    (hset : link.remoteDescSet = true) (hrole : link.pc.offerer = !answering)
    (hstate : answering = true → (t.browser link.pc).signaling = .haveRemoteOffer)
    (pending : List IceCandidate) : Disciplined (t.flushNext task answering pending) := by
  cases pending with
  | cons candidate rest =>
    refine asked h hlink hpc ?_
    cases answering with
    | true => exact ⟨hrole,hstate rfl,hset⟩
    | false => exact ⟨hrole,hset⟩
  | nil =>
    cases answering with
    | true => exact asked h hlink hpc ⟨hrole,hstate rfl⟩
    | false => exact finished_offerer h (linkOf_eq_some.mp hlink).1 hrole

theorem flushAfterRemoteDesc (answering : Bool) (h : Sound t (some task.peer))
    (hlink : t.linkOf task.peer task.attempt = some link) (hpc : link.pc = task.pc)
    (hremote : (t.browser link.pc).remote.isSome = true) (hrole : link.pc.offerer = !answering)
    (hstate : answering = true → (t.browser link.pc).signaling = .haveRemoteOffer) :
    Disciplined (t.flushAfterRemoteDesc task answering) := by
  obtain ⟨hfound,hattempt⟩ := linkOf_eq_some.mp hlink
  unfold Transport.flushAfterRemoteDesc
  rw [updateLink_of_some hlink]
  let link' : PeerLink := { link with remoteDescSet := true, pendingIce := [] }
  have hreplaced : Sound { t with links := t.links.insert task.peer link' } (some task.peer) :=
    h.replaced hfound rfl rfl fun _ => hremote
  exact flushNext answering hreplaced
    (linkOf_eq_some.mpr ⟨KeyedMap.get?_insert_self _ _ _,hattempt⟩) hpc rfl hrole hstate _

theorem abandoned (h : Disciplined t) (htask : t.task = some task) :
    Disciplined ((t.retireLink task.peer task.attempt).finish task.acknowledged) := by
  obtain ⟨link,hlink,-,-⟩ := h.awaits task htask
  have hsound := h.sound
  rw [htask] at hsound
  rw [retireLink_of_some hlink]
  exact finished (hsound.retired (by simp) (linkOf_eq_some.mp hlink).1)

theorem rejected (h : Disciplined t) (htask : t.task = some task) :
    Disciplined (t.rejected task) := by
  obtain ⟨link,hlink,hpc,hfits⟩ := h.awaits task htask
  have hsound := h.sound
  rw [htask] at hsound
  unfold Transport.rejected
  cases hstage : task.stage with
  | flush candidate rest answering =>
    rw [hstage] at hfits
    cases answering with
    | true => exact flushNext true hsound hlink hpc hfits.2.2 hfits.1 (fun _ => hfits.2.1) rest
    | false => exact flushNext false hsound hlink hpc hfits.2 hfits.1 (by simp) rest
  | addIce candidate =>
    rw [hstage] at hfits
    refine finished (hsound.let_go fun found hfound hanswerer => ?_)
    rw [(linkOf_eq_some.mp hlink).1] at hfound
    cases hfound
    exact hfits.2 hanswerer
  | createOffer => exact h.abandoned htask
  | setLocalOffer offer => exact h.abandoned htask
  | setRemoteOffer sdp => exact h.abandoned htask
  | createAnswer => exact h.abandoned htask
  | setLocalAnswer answer => exact h.abandoned htask
  | setRemoteAnswer sdp => exact h.abandoned htask

theorem described {acknowledged : Option Acknowledgement} {payload : RtcPayload}
    {link' : PeerLink} (h : Sound t (some peer)) (hlink : t.links.get? peer = some link)
    (hpc : link'.pc = link.pc) (hattempt : link'.attempt = link.attempt)
    (hremote : link'.remoteDescSet = link.remoteDescSet)
    (hrests : link.pc.offerer = true ∨ (t.browser link.pc).signaling = .stable) :
    Disciplined (({ t with links := t.links.insert peer link' }.publish peer payload).finish
      acknowledged) := by
  have hreplaced := h.replaced hlink hpc hattempt fun hset =>
    (h.linked peer link hlink).remote (hremote ▸ hset)
  have hpublished : Sound ({ t with links := t.links.insert peer link' }.publish peer payload)
      (some peer) := hreplaced.of_eq rfl rfl rfl rfl rfl
  have hfound : ({ t with links := t.links.insert peer link' }.publish peer payload).links.get?
      peer = some link' := KeyedMap.get?_insert_self _ _ _
  rcases hrests with hrole | hstable
  · exact finished_offerer hpublished hfound (hpc ▸ hrole)
  · exact finished_stable hpublished hfound (hpc ▸ hstable)

theorem fulfilled (h : Disciplined t) (htask : t.task = some task) (sdp : Option String) :
    Disciplined (t.fulfilled task sdp) := by
  obtain ⟨link,hlink,hpc,hfits⟩ := h.awaits task htask
  have hsound := h.sound
  rw [htask] at hsound
  have hfound := (linkOf_eq_some.mp hlink).1
  have hcall := task.stage.call_ne_close
  have hsettled := hsound.settle hfound hcall
  rw [hpc] at hsettled
  have hbrowser : (t.settle task.pc task.stage.call).browser link.pc =
      (t.browser link.pc).fulfill task.stage.call := by
    simp [Transport.settle,hpc]
  have hlink' : (t.settle task.pc task.stage.call).linkOf task.peer task.attempt =
    some link := hlink
  have hfound' := (linkOf_eq_some.mp hlink').1
  unfold Transport.fulfilled
  generalize t.settle task.pc task.stage.call = after at *
  cases hstage : task.stage with
  | createOffer =>
    rw [hstage] at hfits hbrowser
    exact asked hsettled hlink' hpc ⟨hfits.1,by rw [hbrowser]; exact hfits.2⟩
  | setLocalOffer offer =>
    rw [hstage] at hfits
    cases offer with
    | some sdp =>
      simp only [Transport.offered,hlink',Option.isSome_some,if_true,updateLink_of_some hlink']
      exact described hsettled hfound' rfl rfl rfl (.inl hfits.1)
    | none =>
      simp only [Transport.offered,retireLink_of_some hlink']
      exact finished (hsettled.retired (by simp) hfound')
  | setRemoteOffer sdp =>
    rw [hstage] at hfits hbrowser
    refine flushAfterRemoteDesc true hsettled hlink' hpc ?_ hfits.1 fun _ => ?_
    · rw [hbrowser]; rfl
    · rw [hbrowser]; rfl
  | flush candidate rest answering =>
    rw [hstage] at hfits hbrowser
    cases answering with
    | true =>
      refine flushNext true hsettled hlink' hpc hfits.2.2 hfits.1 (fun _ => ?_) rest
      rw [hbrowser]
      exact hfits.2.1
    | false => exact flushNext false hsettled hlink' hpc hfits.2 hfits.1 (by simp) rest
  | createAnswer =>
    rw [hstage] at hfits hbrowser
    exact asked hsettled hlink' hpc ⟨hfits.1,by rw [hbrowser]; exact hfits.2⟩
  | setLocalAnswer answer =>
    rw [hstage] at hbrowser
    have hstable : (after.browser link.pc).signaling = .stable := by rw [hbrowser]; rfl
    cases answer with
    | some sdp =>
      simp only [Transport.answered,hlink',Option.isSome_some,if_true,updateLink_of_some hlink']
      exact described hsettled hfound' rfl rfl rfl (.inr hstable)
    | none => exact finished_stable hsettled hfound' hstable
  | setRemoteAnswer sdp =>
    rw [hstage] at hfits hbrowser
    refine flushAfterRemoteDesc false hsettled hlink' hpc ?_ hfits.1 (by simp)
    rw [hbrowser]
    rfl
  | addIce candidate =>
    rw [hstage] at hfits hbrowser
    refine finished (hsettled.let_go fun found hother hanswerer => ?_)
    rw [hfound'] at hother
    cases hother
    rw [hbrowser]
    exact hfits.2 hanswerer

/-! ### Callbacks and runs -/

theorem of_eq {t' : Transport} (h : Disciplined t) (htask : t'.task = t.task)
    (hlocal : t'.localId = t.localId) (hlinks : t'.links = t.links) (hmade : t'.made = t.made)
    (hbrowser : t'.browser = t.browser) (hcalls : t'.calls = t.calls) : Disciplined t' := by
  refine ⟨?_,fun task hsome => ?_⟩
  · rw [htask]
    exact h.sound.of_eq hlocal hlinks hmade hbrowser hcalls
  · rw [htask] at hsome
    obtain ⟨link,hlink,hpc,hfits⟩ := h.awaits task hsome
    refine ⟨link,?_,hpc,?_⟩
    · rw [linkOf_eq_some,hlinks]
      exact linkOf_eq_some.mp hlink
    · rw [hbrowser]
      exact hfits

theorem rechanneled {links : KeyedMap EndpointId PeerLink} {f : EndpointId → PeerLink → PeerLink}
    (h : Disciplined t) (hlinks : ∀ peer, links.get? peer = (t.links.get? peer).map (f peer))
    (hlength : links.entries.length ≤ t.links.entries.length)
    (hpc : ∀ peer link, (f peer link).pc = link.pc)
    (hattempt : ∀ peer link, (f peer link).attempt = link.attempt)
    (hset : ∀ peer link, (f peer link).remoteDescSet = link.remoteDescSet) :
    Disciplined { t with links } := by
  have hfound : ∀ peer found, links.get? peer = some found →
      ∃ link, t.links.get? peer = some link ∧ f peer link = found := by
    intro peer found hget
    rw [hlinks] at hget
    exact Option.map_eq_some_iff.mp hget
  refine ⟨⟨h.sound.numbered,h.sound.untouched,fun peer found hget => ?_,
    fun peer found hget hb hrole => ?_,fun pc hmade hopen => ?_,h.sound.distinct,h.sound.legal,
    h.sound.ended,h.sound.closing,hlength.trans h.sound.room⟩,fun task htask => ?_⟩
  · obtain ⟨link,hlink,rfl⟩ := hfound peer found hget
    have hfits := h.sound.linked peer link hlink
    refine ⟨?_,?_,?_,hfits.other,?_,?_,?_⟩
    · rw [hpc]; exact hfits.made
    · rw [hpc]; exact hfits.keyed
    · rw [hpc,hattempt]; exact hfits.attempt
    · rw [hpc]; exact hfits.offerer
    · rw [hpc]; exact hfits.opened
    · rw [hpc,hset]; exact hfits.remote
  · obtain ⟨link,hlink,rfl⟩ := hfound peer found hget
    rw [hpc] at hrole ⊢
    exact h.sound.rests peer link hlink hb hrole
  · obtain ⟨link,hlink,rfl⟩ := h.sound.held pc hmade hopen
    refine ⟨f link.pc.peer link,?_,hpc _ _⟩
    rw [hlinks,hlink]
    rfl
  · obtain ⟨link,hlink,hsame,hfits⟩ := h.awaits task htask
    obtain ⟨hget,hcurrent⟩ := linkOf_eq_some.mp hlink
    refine ⟨f task.peer link,linkOf_eq_some.mpr ⟨?_,(hattempt _ _).trans hcurrent⟩,
      (hpc _ _).trans hsame,?_⟩
    · rw [hlinks,hget]
      rfl
    · rw [hpc]
      exact hfits.congr (hpc _ _) (hset _ _)

theorem attached {attempt : RtcAttempt} {f : PeerLink → PeerLink} (h : Disciplined t)
    (hpc : ∀ link, (f link).pc = link.pc) (hattempt : ∀ link, (f link).attempt = link.attempt)
    (hset : ∀ link, (f link).remoteDescSet = link.remoteDescSet) :
    Disciplined (t.updateLink peer attempt f) := by
  cases hlink : t.linkOf peer attempt with
  | none => rwa [updateLink_of_none hlink]
  | some link =>
    obtain ⟨hget,hcurrent⟩ := linkOf_eq_some.mp hlink
    rw [updateLink_of_some hlink]
    refine h.rechanneled (f := fun other found => if other = peer then f found else found)
      (fun other => ?_) (KeyedMap.length_insert_of_some _ hget) ?_ ?_ ?_
    · rw [KeyedMap.get?_insert]
      by_cases hsame : other = peer
      · simp [hsame,hget]
      · simp [hsame]
    · intro other found
      split
      · exact hpc found
      · rfl
    · intro other found
      split
      · exact hattempt found
      · rfl
    · intro other found
      split
      · exact hset found
      · rfl

theorem step {event : Event} {t' : Transport} (h : Disciplined t)
    (hstep : t.step event = some t') : Disciplined t' := by
  cases event with
  | next choice =>
    simp only [Transport.step] at hstep
    split at hstep
    · rename_i command commands hidle hcommands
      cases hstep
      have hpopped : Disciplined
          { t with commands, handled := t.handled ++ command.signals } :=
        h.of_eq rfl rfl rfl rfl rfl rfl
      exact (handle_moves (t := { t with commands }) choice hidle command).preserve Disciplined
        (fun _ _ hbefore => hbefore.move) hpopped
    · cases hstep
  | resolve outcome =>
    obtain ⟨task,htask,rfl⟩ := Option.map_eq_some_iff.mp hstep
    cases outcome with
    | fulfilled sdp => exact h.fulfilled htask sdp
    | rejected => exact h.rejected htask
  | dataChannel pc label channel =>
    cases hstep
    unfold attachIncomingChannel
    split
    · exact h.attached (fun _ => rfl) (fun _ => rfl) fun _ => rfl
    · split
      · exact h.attached (fun _ => rfl) (fun _ => rfl) fun _ => rfl
      · exact h
  | channels peer channel sessionChannel =>
    cases hstep
    refine h.rechanneled (fun other => KeyedMap.get?_mapValues _ _ _)
      (KeyedMap.length_mapValues _ _).le ?_ ?_ ?_
    all_goals
      intro other found
      split <;> rfl
  | message pc bytes =>
    cases hstep
    unfold onMessage
    split
    · exact h.of_eq rfl rfl rfl rfl rfl rfl
    · exact h
  | sessionMessage pc bytes =>
    cases hstep
    unfold onSessionMessage
    split
    · exact h.of_eq rfl rfl rfl rfl rfl rfl
    · exact h
  | opened pc =>
    cases hstep
    unfold onOpen
    split
    · exact h.of_eq rfl rfl rfl rfl rfl rfl
    · exact h
  | send peer contents segmentSize =>
    cases hstep
    unfold pollSend
    dsimp only
    split
    · exact h.of_eq rfl rfl rfl rfl rfl rfl
    · split
      · exact h.of_eq rfl rfl rfl rfl rfl rfl
      · exact h
  | command command => cases hstep; exact h.of_eq rfl rfl rfl rfl rfl rfl
  | terminal pc => cases hstep; exact h.of_eq rfl rfl rfl rfl rfl rfl
  | iceCandidate pc candidate => cases hstep; exact h.of_eq rfl rfl rfl rfl rfl rfl
  | receive sizes => cases hstep; exact h.of_eq rfl rfl rfl rfl rfl rfl
  | takeSession => cases hstep; exact h.of_eq rfl rfl rfl rfl rfl rfl

end Disciplined

inductive Reachable (localId : EndpointId) : Transport → Prop where
  | start : Reachable localId { localId }
  | step {t t' : Transport} {event : Event} (h : Reachable localId t) (hallowed : event.allowed t)
      (hstep : t.step event = some t') : Reachable localId t'

variable {localId : EndpointId}

theorem Reachable.after {events : List Event} {t' : Transport} (h : Reachable localId t)
    (hafter : t.after events = some t') : Reachable localId t' := by
  induction events generalizing t with
  | nil =>
    cases hafter
    exact h
  | cons event events ih =>
    simp only [Transport.after] at hafter
    split at hafter
    · rename_i hallowed
      obtain ⟨next,hstep,hrest⟩ := Option.bind_eq_some_iff.mp hafter
      exact ih (h.step hallowed hstep) hrest
    · cases hafter

theorem Reachable.disciplined (h : Reachable localId t) : Disciplined t := by
  induction h with
  | start => exact .init localId
  | step _ _ hstep ih => exact ih.step hstep

theorem Sound.open_length (h : Sound t busy) :
    (t.made.filter fun pc => (t.browser pc).signaling ≠ .closed).length ≤
      t.links.entries.length := by
  have hheld : ∀ pc ∈ t.made.filter fun pc => (t.browser pc).signaling ≠ .closed,
      ∃ link, t.links.get? pc.peer = some link ∧ link.pc = pc := by
    intro pc hpc
    obtain ⟨hmade,hopen⟩ := List.mem_filter.mp hpc
    exact h.held pc hmade (by simpa using hopen)
  have hdistinct : ((t.made.filter fun pc => (t.browser pc).signaling ≠ .closed).map
      RtcPeerConnection.peer).Nodup := by
    refine List.Nodup.map_on (fun one hone other hother hsame => ?_) (h.distinct.filter _)
    obtain ⟨link,hlink,rfl⟩ := hheld one hone
    obtain ⟨link',hlink',rfl⟩ := hheld other hother
    rw [hsame,hlink'] at hlink
    rw [Option.some.inj hlink]
  have hkeys : ((t.made.filter fun pc => (t.browser pc).signaling ≠ .closed).map
      RtcPeerConnection.peer) ⊆ t.links.entries.map Prod.fst := by
    intro peer hpeer
    obtain ⟨pc,hpc,rfl⟩ := List.mem_map.mp hpeer
    obtain ⟨link,hlink,-⟩ := hheld pc hpc
    exact List.mem_map_of_mem (KeyedMap.get?_eq_some.mp hlink)
  simpa using (hdistinct.subperm hkeys).length_le

/-- Whatever is signaled and whatever the browser answers, every call is one that the state of its
connection allows, and none follows the call that closes it; a connection is open only as the one of
its peer's link, so no more than 64 are; and the attempt that the driver is at is still current at
every promise. -/
theorem driver_keeps_discipline (h : Reachable localId t) :
    (∀ entry ∈ t.calls, entry.found.accepts entry.call = true) ∧
      t.calls.Pairwise ClosedLast ∧
      (∀ pc ∈ t.made, (t.browser pc).signaling ≠ .closed →
        ∃ link, t.links.get? pc.peer = some link ∧ link.pc = pc ∧ link.attempt = pc.attempt) ∧
      (t.made.filter fun pc => (t.browser pc).signaling ≠ .closed).length ≤ maxSignalingPeers ∧
      (∀ task, t.task = some task → t.attemptIsCurrent task.peer task.attempt = true) := by
  have hdisciplined := h.disciplined
  have hsound := hdisciplined.sound
  refine ⟨hsound.legal,hsound.closing,fun pc hmade hopen => ?_,hsound.open_length.trans hsound.room,
    fun task htask => ?_⟩
  · obtain ⟨link,hlink,rfl⟩ := hsound.held pc hmade hopen
    exact ⟨link,hlink,rfl,(hsound.linked _ _ hlink).attempt.symm⟩
  · obtain ⟨link,hlink,-,-⟩ := hdisciplined.awaits task htask
    have hcurrent := currentAttempt_eq_some.mpr ⟨link,linkOf_eq_some.mp hlink⟩
    simpa [attemptIsCurrent] using hcurrent

/-- An offerer's link whose answer is rejected: it is closed, and a new attempt is made. -/
def rejectedAnswer : List Event :=
  [.send 2 [0] none,.next ⟨#v[1,0,0,0,0,0,0,0],true⟩,.resolve (.fulfilled (some "offer")),
    .resolve (.fulfilled none),.command (.signal 2 (.answer #v[1,0,0,0,0,0,0,0] "answer")),
    .next ⟨#v[2,0,0,0,0,0,0,0],true⟩,.resolve .rejected,.command (.dial 2),
    .next ⟨#v[3,0,0,0,0,0,0,0],true⟩]

theorem driver_keeps_discipline_rejectedAnswer :
    ∃ t, ({ localId := 1 } : Transport).after rejectedAnswer = some t ∧ t.calls.length = 5 ∧
      t.calls.Pairwise ClosedLast ∧
      (t.made.filter fun pc => (t.browser pc).signaling ≠ .closed).length ≤ maxSignalingPeers := by
  have hrun : (({ localId := 1 } : Transport).after rejectedAnswer).any
      (fun t => t.calls.length = 5) = true := by decide
  obtain ⟨t,hafter,hlength⟩ := (Option.any_eq_true _ _).mp hrun
  have hkeeps := driver_keeps_discipline (Reachable.start.after hafter)
  exact ⟨t,hafter,by simpa using hlength,hkeeps.2.1,hkeeps.2.2.2.1⟩

end WalkieSongie.Net.WebRtc
