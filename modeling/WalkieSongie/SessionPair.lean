import WalkieSongie.SessionEpochs
set_option autoImplicit false

/-!
Two tasks of one pair establishing sessions with each other: what each knows of the other's
Offers and Answers, whatever becomes of the frames between them.
-/

namespace WalkieSongie.Session
open TaskProgram Relation

variable {L : SessionLibrary}

section Binding

/-- What signed presentations promise: a proof is only verified for what it was signed for, and
that tells the manifest of the seat it claims. -/
structure SessionLibrary.BindingPromises (L : SessionLibrary) : Prop where
  presentation_bytes : ∀ presentation,
    L.decodePresentation (L.encodePresentation presentation) = .ok presentation
  presented : ∀ key grants context presentation expected receiver found verified,
    L.present key grants context = .ok presentation →
      L.verifyPresentation presentation expected = .ok (receiver,found,verified) →
        verified = context
  context_claim : ∀ namespaceDigest claim base otherDigest otherClaim otherBase context,
    L.presentationContext namespaceDigest claim base = .ok context →
      L.presentationContext otherDigest otherClaim otherBase = .ok context → claim = otherClaim
  manifest_digest : Function.Injective L.manifestDigest

theorem plainLibrary_bindingPromises : plainLibrary.BindingPromises where
  presentation_bytes _ := rfl
  presented _ _ _ presentation _ _ _ _ hpresent hverify := by
    simp only [plainLibrary] at hpresent hverify
    cases hpresent
    cases hverify
    rfl
  context_claim _ _ _ _ _ _ _ h h' := by
    simp only [plainLibrary] at h h'
    cases h
    cases h'
    rfl
  manifest_digest first second h := by
    simp only [plainLibrary] at h
    have hfields := Encodable.encode_injective h
    simp only [Prod.mk.injEq] at hfields
    obtain ⟨hepoch,hnamespace,hbase,hbinding,hseats⟩ := hfields
    cases first
    cases second
    simp only [SessionManifest.mk.injEq]
    exact ⟨hepoch,hnamespace,positionBytes_injective hbase,hbinding,hseats⟩

theorem foundationContext_ok {namespaceDigest : Digest} {manifest : SessionManifest}
    {claim : SeatFoundationClaim} {context : L.PresentationContext}
    (h : foundationContext L namespaceDigest manifest claim = .ok context) :
    L.presentationContext namespaceDigest claim manifest.base = .ok context := by
  unfold foundationContext at h
  split at h
  · cases h
  · rename_i found hfound
    cases h
    exact hfound

/-- A presentation made for one manifest is verified for no other. -/
theorem verifyFoundation_binds (hbinding : L.BindingPromises)
    {localSide foundation : RoomSessionFoundation L} {made manifest : SessionManifest}
    {actor : ActorId} {grants : List EntryHash} {encoded : L.PresentationBytes}
    {first second : VerifiedSeatFoundation}
    (hmade : localFoundation localSide made = .ok (first,encoded))
    (hverified : verifyFoundation foundation manifest actor grants encoded = .ok second) :
    manifest = made := by
  unfold localFoundation at hmade
  obtain ⟨_,-,hmade⟩ := bind_eq_ok.mp hmade
  obtain ⟨signed,hsigned,hmade⟩ := bind_eq_ok.mp hmade
  unfold verifyFoundation at hverified
  obtain ⟨_,-,hverified⟩ := bind_eq_ok.mp hverified
  obtain ⟨expected,hexpected,hverified⟩ := bind_eq_ok.mp hverified
  split at hmade
  · cases hmade
  rename_i presentation hpresent
  obtain ⟨_,-,hmade⟩ := bind_eq_ok.mp hmade
  cases hmade
  rw [hbinding.presentation_bytes] at hverified
  simp only [verifyClaim] at hverified
  split at hverified
  · cases hverified
  rename_i receiver found verified hverify
  split at hverified
  · cases hverified
  rename_i hclaims
  push Not at hclaims
  have hcontext : signed = expected :=
    (hbinding.presented _ _ _ _ _ _ _ _ hpresent hverify).symm.trans hclaims.2.2
  have hclaim := hbinding.context_claim _ _ _ _ _ _ _ (foundationContext_ok hsigned)
    (hcontext ▸ foundationContext_ok hexpected)
  simp only [seatClaim,SeatFoundationClaim.mk.injEq] at hclaim
  exact (hbinding.manifest_digest hclaim.2.2.2.1).symm

end Binding

section Sides

/-- The frame has been emitted, alone or with a projection. -/
def Core.Sent (core : Core L) (body : SessionCarrierBody L) : Prop :=
  ∃ event ∈ core.egress, event.carrier? = some body

/-- The Answer is to this session, with a presentation made for its manifest. -/
def AnswerBody.MadeFor (answer : AnswerBody L) (session : RoomSessionEpochIdentity) : Prop :=
  answer.sessionId = session.sessionId ∧ ∃ localSide manifest verified,
    localFoundation localSide manifest = .ok (verified,answer.foundation) ∧
      L.manifestDigest manifest = session.manifest ∧ manifest.epoch = session.epoch

/-- The Answer is to this session, and its presentation was verified for the manifest of it. -/
def AnswerBody.VerifiedFor (answer : AnswerBody L) (session : RoomSessionEpochIdentity) : Prop :=
  answer.sessionId = session.sessionId ∧ ∃ foundation manifest actor grants verified,
    verifyFoundation foundation manifest actor grants answer.foundation = .ok verified ∧
      L.manifestDigest manifest = session.manifest ∧ manifest.epoch = session.epoch

theorem AnswerBody.binds (hbinding : L.BindingPromises) {answer : AnswerBody L}
    {made verified : RoomSessionEpochIdentity} (hmade : answer.MadeFor made)
    (hverified : answer.VerifiedFor verified) :
    made.manifest = verified.manifest ∧ made.sessionId = verified.sessionId ∧
      made.epoch = verified.epoch := by
  obtain ⟨hfirst,localSide,manifest,_,hlocal,hdigest,hepoch⟩ := hmade
  obtain ⟨hsecond,foundation,other,_,_,_,hremote,hotherDigest,hotherEpoch⟩ := hverified
  have hsame := verifyFoundation_binds hbinding hlocal hremote
  subst hsame
  exact ⟨hdigest.symm.trans hotherDigest,hfirst.symm.trans hsecond,hepoch.symm.trans hotherEpoch⟩

/-- The session was taken from a frame of the other side: an Answer to it, or an Offer of its
epoch. -/
def TakenFrom (S : SessionCarrierBody L → Prop) (session : RoomSessionEpochIdentity) : Prop :=
  (∃ answer, S (.answer answer) ∧ answer.VerifiedFor session) ∨
    ∃ offer, S (.offer offer) ∧ offer.epoch = session.epoch

theorem TakenFrom.mono {S T : SessionCarrierBody L → Prop} {session : RoomSessionEpochIdentity}
    (h : TakenFrom S session) (hST : ∀ body, S body → T body) : TakenFrom T session := by
  obtain ⟨answer,hsent,hverified⟩ | ⟨offer,hsent,hepoch⟩ := h
  · exact .inl ⟨answer,hST _ hsent,hverified⟩
  · exact .inr ⟨offer,hST _ hsent,hepoch⟩

/-- What a side's openings and Answers have to do with each other and with the frames of the
other side. -/
structure Established (S : SessionCarrierBody L → Prop) (peer : ActorId) (core : Core L) :
    Prop where
  addressed : ∀ opening ∈ core.journal.openings, opening.session.peer = peer
  answers : ∀ answer, core.Sent (.answer answer) →
    ∃ opening ∈ core.journal.openings, answer.MadeFor opening.session
  taken : ∀ opening ∈ core.journal.openings, TakenFrom S opening.session

/-- No local edit is owed to anyone. -/
structure Idle (core : Core L) : Prop where
  inflight : core.task.inflightReifications = ∅
  awaiting : ∀ (peer : ActorId) active, core.task.active[peer]? = some active →
    active.awaitingReification = ∅

/-- The foundations of one actor for one peer in one room. -/
def Between (room localActor peer : Digest) (foundation : RoomSessionFoundation L) : Prop :=
  AtHome room localActor foundation ∧ foundation.peer = peer

variable {room localActor peer : Digest} {S : SessionCarrierBody L → Prop}
  {core before after : Core L} {installation : Installation L}

structure Settles (S : SessionCarrierBody L → Prop) (peer : ActorId)
    (installation : Installation L) : Prop where
  addressed : installation.identity.peer = peer
  answer : ∀ answer, installation.carrier = some (.answer answer) →
    answer.MadeFor installation.identity
  taken : TakenFrom S installation.identity

theorem verifyAnswer_ok {pending : PendingSession L} {answer : AnswerBody L}
    {remoteFoundation : VerifiedSeatFoundation} {keys : L.SessionKeys}
    (h : verifyAnswer pending answer = .ok (remoteFoundation,keys)) :
    verifyFoundation pending.foundation pending.manifest answer.source
      pending.foundation.peerGrants answer.foundation = .ok remoteFoundation := by
  unfold verifyAnswer at h
  obtain ⟨_,-,h⟩ := bind_eq_ok.mp h
  obtain ⟨_,-,h⟩ := bind_eq_ok.mp h
  obtain ⟨found,hfound,h⟩ := bind_eq_ok.mp h
  obtain ⟨_,-,h⟩ := bind_eq_ok.mp h
  cases h
  exact hfound

theorem verifyOfferBody_ok {localSide : RoomSessionFoundation L} {offer : OfferBody L}
    {verified : VerifiedOfferBody L} (h : verifyOfferBody localSide offer = .ok verified) :
    verified.manifest.epoch = offer.epoch ∧ localFoundation localSide verified.manifest =
      .ok (verified.localFoundation,verified.localPresentation) := by
  unfold verifyOfferBody at h
  obtain ⟨manifest,hmanifest,h⟩ := bind_eq_ok.mp h
  obtain ⟨_,-,h⟩ := bind_eq_ok.mp h
  obtain ⟨_,-,h⟩ := bind_eq_ok.mp h
  obtain ⟨_,-,h⟩ := bind_eq_ok.mp h
  obtain ⟨_,-,h⟩ := bind_eq_ok.mp h
  obtain ⟨⟨foundation,presentation⟩,hlocal,h⟩ := bind_eq_ok.mp h
  cases h
  exact ⟨(buildManifest_ok hmanifest).1,hlocal⟩

theorem Ready.settles (hlaws : L.RenewalPromises)
    (h : Ready (Between room localActor peer) S core peer installation) :
    Settles S peer installation := by
  obtain ⟨prior,-,horigin,-⟩ := h.origin
  cases horigin with
  | @answered localSide offer verified secret hframe hsource hprefer htarget hverified hanswer =>
    obtain ⟨-,hsession,hauthorized,handshake,hcarrier⟩ := answerOffer_ok hanswer
    obtain ⟨hepoch,hlocal⟩ := verifyOfferBody_ok hverified
    obtain ⟨-,hmanifest,-⟩ := authorizePair_ok hlaws hauthorized
    refine ⟨h.addressed,fun answer hfound => ?_,.inr ⟨offer,hframe,?_⟩⟩
    · rw [hcarrier] at hfound
      cases hfound
      refine ⟨hsession.symm,localSide,verified.manifest,_,hlocal,?_,?_⟩
      · rw [Installation.identity,hmanifest]
      · rw [Installation.identity,hmanifest]
    · rw [Installation.identity,hmanifest]
      exact hepoch.symm
  | @completed pending answer remoteFoundation keys authorization hframe hsource
      hidle hmade hfloor hverified hauthorized hinstallation =>
    obtain ⟨-,hmanifest,-⟩ := authorizePair_ok hlaws hauthorized
    subst hinstallation
    refine ⟨h.addressed,fun answer hfound => (by cases hfound),.inl ⟨answer,hframe,rfl,?_⟩⟩
    refine ⟨_,pending.manifest,_,_,_,verifyAnswer_ok hverified,?_,?_⟩
    · rw [Installation.identity,hmanifest]
    · rw [Installation.identity,hmanifest]

theorem sent_cons {event : RoomSessionEgress L} {note : List Opening}
    {body : SessionCarrierBody L} :
    (core.sends note event).Sent body ↔ event.carrier? = some body ∨ core.Sent body := by
  constructor
  · rintro ⟨found,hmem,hbody⟩
    rcases List.mem_cons.mp hmem with rfl | hmem
    · exact .inl hbody
    · exact .inr ⟨found,hmem,hbody⟩
  · rintro (hbody | ⟨found,hmem,hbody⟩)
    · exact ⟨event,List.mem_cons_self,hbody⟩
    · exact ⟨found,List.mem_cons_of_mem event hmem,hbody⟩

theorem stages_sent {active : ActiveSession L} {carrier : Option (SessionCarrierBody L)}
    {body : SessionCarrierBody L} :
    (core.stages peer active carrier).Sent body ↔ carrier = some body ∨ core.Sent body := by
  unfold Core.stages
  split
  · exact sent_cons
  · cases carrier with
    | none => simp
    | some found => exact sent_cons

theorem mem_stages_openings {active : ActiveSession L} {carrier : Option (SessionCarrierBody L)}
    {opening : Opening} (h : opening ∈ (core.stages peer active carrier).journal.openings) :
    opening.session = active.identity ∨ opening ∈ core.journal.openings := by
  unfold Core.stages at h
  have hannounced : ∀ event, opening ∈ (core.sends [⟨active.identity,.announced⟩]
      event).journal.openings → opening.session = active.identity ∨
        opening ∈ core.journal.openings := by
    intro event hmem
    rcases List.mem_cons.mp hmem with rfl | hmem
    · exact .inl rfl
    · exact .inr hmem
  split at h
  · exact hannounced _ h
  · cases carrier with
    | none => exact .inr h
    | some found => exact hannounced _ h

theorem Established.drops (h : Established S peer core) (other : ActorId) :
    Established S peer (core.drops other) := ⟨h.1,h.2,h.3⟩

theorem Established.opens (h : Established S peer core) (hsettles : Settles S peer installation)
    (stage : OpeningStage) :
    Established S peer (core.opens [⟨installation.identity,stage⟩]) := by
  refine ⟨fun opening hmem => ?_,fun answer hsent => ?_,fun opening hmem => ?_⟩
  · rcases List.mem_cons.mp hmem with rfl | hmem
    · exact hsettles.addressed
    · exact h.addressed opening hmem
  · obtain ⟨opening,hmem,hmade⟩ := h.answers answer hsent
    exact ⟨opening,List.mem_cons_of_mem _ hmem,hmade⟩
  · rcases List.mem_cons.mp hmem with rfl | hmem
    · exact hsettles.taken
    · exact h.taken opening hmem

theorem Established.announces (h : Established S peer core)
    (hsettles : Settles S peer installation) {event : RoomSessionEgress L}
    (hevent : ∀ body, event.carrier? = some body → installation.carrier = some body) :
    Established S peer (core.sends [⟨installation.identity,.announced⟩] event) := by
  have hopened := h.opens hsettles .announced
  refine ⟨hopened.addressed,fun answer hsent => ?_,hopened.taken⟩
  rcases sent_cons.mp hsent with hcarrier | hsent
  · exact ⟨_,List.mem_cons_self,hsettles.answer answer (hevent _ hcarrier)⟩
  · exact hopened.answers answer hsent

theorem Established.staged (h : Established S peer core)
    (hsettles : Settles S peer installation) {active : ActiveSession L}
    (hopens : installation.Opens active) (other : ActorId) :
    Established S peer (core.stages other active installation.carrier) := by
  unfold Core.stages
  rw [hopens.identity]
  split
  · exact h.announces hsettles fun _ hbody => hbody
  · cases hcarrier : installation.carrier with
    | none => exact h
    | some body => exact h.announces hsettles fun _ hbody => hcarrier.trans hbody

theorem Established.installEnds (h : Established S peer core)
    (hsettles : Settles S peer installation) {cut : Prop} {other : ActorId}
    (hends : InstallEnds cut other installation core after) : Established S peer after := by
  have hcached : Established S peer (installation.cached other core) := ⟨h.1,h.2,h.3⟩
  cases hends with
  | refused => exact h
  | stored => exact ⟨h.1,h.2,h.3⟩
  | cached hopens => exact hcached
  | staged _ hopens => exact hcached.staged hsettles hopens other
  | @installed active hopens =>
    have hopened := (hcached.staged hsettles hopens other).opens hsettles .installed
    rw [← hopens.identity] at hopened
    exact ⟨hopened.1,hopened.2,hopened.3⟩

theorem Renews.established (hplay : InPlay (Between room localActor peer) before)
    (hmove : Renews (Between room localActor peer) before after)
    (h : Established S peer before) : Established S peer after := by
  have hkept := hmove.kept
  refine ⟨hkept.journal ▸ h.addressed,fun answer hsent => ?_,hkept.journal ▸ h.taken⟩
  rw [hkept.journal]
  cases hmove with
  | @offered other pending hpending =>
    obtain ⟨-,-,⟨epoch,sessionId,secret,-,hoffer⟩,-⟩ := hplay.pending other pending hpending
    obtain ⟨handshake,presentation,hcarrier⟩ := (buildOffer_ok hoffer).carrier
    rcases sent_cons.mp hsent with hanswer | hsent
    · rw [hcarrier] at hanswer
      cases hanswer
    · exact h.answers answer hsent
  | traced trace =>
    rcases sent_cons.mp hsent with hanswer | hsent
    · cases hanswer
    · exact h.answers answer hsent
  | recovered | proposed | noted => exact h.answers answer hsent

theorem Establishes.established (hlaws : L.RenewalPromises)
    (hplay : InPlay (Between room localActor peer) before)
    (hmove : Establishes (Between room localActor peer) S before after)
    (h : Established S peer before) : Established S peer after := by
  cases hmove with
  | renews hrenews => exact hrenews.established hplay h
  | founded hfounded => exact ⟨h.1,h.2,h.3⟩
  | dropped other => exact h.drops other
  | @installs _ other installation hready hends =>
    obtain rfl : peer = other := hready.founded.2.symm.trans hready.addressed
    exact (h.drops peer).installEnds (hready.settles hlaws) hends

theorem Established.mono {T : SessionCarrierBody L → Prop} (h : Established S peer core)
    (hST : ∀ body, S body → T body) : Established T peer core :=
  ⟨h.1,h.2,fun opening hmem => (h.taken opening hmem).mono hST⟩

theorem Idle.installEnds (h : Idle core) {cut : Prop} {other : ActorId}
    (hends : InstallEnds cut other installation core after) : Idle after := by
  have hcached : Idle (installation.cached other core) := ⟨h.1,h.2⟩
  have hstaged : ∀ active, Idle ((installation.cached other core).stages other active
      installation.carrier) := fun active => by
    refine ⟨?_,?_⟩
    · rw [Core.stages_task]
      exact hcached.inflight
    · rw [Core.stages_task]
      exact hcached.awaiting
  cases hends with
  | refused => exact h
  | stored => exact ⟨h.1,h.2⟩
  | cached hopens => exact hcached
  | staged _ hopens => exact hstaged _
  | @installed active hopens =>
    obtain ⟨ticks,hnew⟩ := hopens
    refine ⟨(hstaged active).inflight,fun peer found hfound => ?_⟩
    simp only [Core.activates,Core.mapTask,Std.ExtTreeMap.getElem?_insert] at hfound
    split at hfound
    · cases hfound
      exact (ActiveSession.new_ok hnew).2.2.2
    · exact (hstaged active).awaiting peer found hfound

theorem Establishes.idle {F : RoomSessionFoundation L → Prop} (hmove : Establishes F S before after)
    (h : Idle before) : Idle after := by
  cases hmove with
  | renews hrenews =>
    have hkept := hrenews.kept
    exact ⟨hkept.inflight.trans h.inflight,hkept.active ▸ h.awaiting⟩
  | founded hfounded => exact ⟨h.1,h.2⟩
  | dropped other => exact ⟨h.1,h.2⟩
  | @installs _ other installation hready hends =>
    have hdrops : Idle (before.drops other) := ⟨h.1,h.2⟩
    exact hdrops.installEnds hends

theorem Idle.no_obligations (h : Idle core) (hretired : core.task.retired = ∅) (other : ActorId) :
    core.task.hasLocalReificationWait other = false ∧
      core.task.peerHasRecoveryWork other = false := by
  constructor
  · unfold RoomSessionTask.hasLocalReificationWait
    cases hactive : core.task.active[other]? with
    | none => rfl
    | some active => simp [ActiveSession.hasLocalReificationWait,h.awaiting other active hactive]
  · simp [RoomSessionTask.peerHasRecoveryWork,hretired,h.inflight]

theorem Establishes.sent {F : RoomSessionFoundation L → Prop} (hmove : Establishes F S before after)
    {body : SessionCarrierBody L} (h : before.Sent body) : after.Sent body := by
  cases hmove with
  | renews hrenews =>
    cases hrenews with
    | recovered | proposed | noted => exact h
    | offered | traced => exact sent_cons.mpr (.inr h)
  | founded | dropped => exact h
  | @installs _ other installation hready hends =>
    cases hends with
    | refused | stored | cached => exact h
    | staged | installed => exact stages_sent.mpr (.inr h)

/-- What holds of each side of a pair, whatever frames of the other side it takes in. -/
structure Side (room localActor peer : Digest) (S : SessionCarrierBody L → Prop) (core : Core L) :
    Prop where
  play : InPlay (Between room localActor peer) core
  rise : EpochsRise room localActor core
  established : Established S peer core
  idle : Idle core

theorem Side.mono {T : SessionCarrierBody L → Prop} (h : Side room localActor peer S core)
    (hST : ∀ body, S body → T body) : Side room localActor peer T core :=
  ⟨h.play,h.rise,h.established.mono hST,h.idle⟩

theorem Establishes.side (hlaws : L.RenewalPromises)
    (hmove : Establishes (Between room localActor peer) S before after)
    (h : Side room localActor peer S before) : Side room localActor peer S after := by
  refine ⟨hmove.inPlay h.play,?_,hmove.established hlaws h.play h.established,hmove.idle h.idle⟩
  exact Establishes.epochsRise hlaws (h.play.mono fun _ hF => hF.1)
    (hmove.mono (fun _ hF => hF.1) fun _ hG => hG) h.rise

theorem EstablishesMany.side (hlaws : L.RenewalPromises)
    (hmoves : EstablishesMany (Between room localActor peer) S before after)
    (h : Side room localActor peer S before) :
    Side room localActor peer S after ∧ ∀ body, before.Sent body → after.Sent body := by
  induction hmoves with
  | refl => exact ⟨h,fun _ hsent => hsent⟩
  | tail _ hlast ih => exact ⟨hlast.side hlaws ih.1,fun body hsent => hlast.sent (ih.2 body hsent)⟩

theorem EpochsRise.unique (h : EpochsRise room localActor core) {first second : Opening}
    (hfirst : first ∈ core.journal.openings) (hsecond : second ∈ core.journal.openings)
    (hpeer : first.session.peer = second.session.peer)
    (hepoch : first.session.epoch = second.session.epoch) : first.session = second.session := by
  have hsame : core.journal.openings.Pairwise fun later earlier =>
      later.session.peer = earlier.session.peer → later.session.epoch = earlier.session.epoch →
        later.session = earlier.session := by
    refine h.ordered.imp fun {later earlier} hafter hpeer hepoch => ?_
    rcases hafter hpeer with hbelow | ⟨-,-,hsession⟩
    · exact absurd hepoch.symm (Nat.ne_of_lt hbelow)
    · exact hsession.symm
  refine hsame.forall_of_forall_of_flip (fun _ _ _ _ => rfl) ?_ hfirst hsecond hpeer hepoch
  exact hsame.imp fun hback hpeer hepoch => (hback hpeer.symm hepoch.symm).symm

theorem Side.agree (hbinding : L.BindingPromises) (h : Side room localActor peer S core)
    {x y : ActiveSession L} (hy : core.task.active[peer]? = some y)
    (hepoch : x.manifest.epoch = y.manifest.epoch) {answer : AnswerBody L}
    (hsent : core.Sent (.answer answer)) (hverified : answer.VerifiedFor x.identity) :
    x.sessionId = y.sessionId ∧ x.manifest = y.manifest := by
  obtain ⟨opening,hmem,hmade⟩ := h.established.answers answer hsent
  obtain ⟨hmanifest,hsession,hopened⟩ := AnswerBody.binds hbinding hmade hverified
  obtain ⟨installed,hinstalled,hidentity⟩ := h.rise.active peer y hy
  have hsame : opening.session = installed.session := by
    refine h.rise.unique hmem hinstalled ?_ ?_
    · rw [h.established.addressed opening hmem,h.established.addressed installed hinstalled]
    · rw [hopened,hidentity]
      exact hepoch
  rw [hsame,hidentity] at hmanifest hsession
  exact ⟨hsession.symm,hbinding.manifest_digest hmanifest.symm⟩

end Sides

end WalkieSongie.Session
