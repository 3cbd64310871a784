import WalkieSongie.SessionPair
set_option autoImplicit false

/-!
Agreement of a pair: while the lower actor does not lose an offer that the other side may still
answer, sessions of one epoch on both sides are one session.
-/

namespace WalkieSongie.Session
open TaskProgram Relation

variable {L : SessionLibrary}

section Lower

variable {room localActor peer : Digest} {S : SessionCarrierBody L → Prop}
  {core before after : Core L} {installation : Installation L}

def floorEpoch : Option SessionRenewalFloor → Nat
  | none => 0
  | some floor => floor.epoch

theorem proposedEpoch_ok (hlaws : L.RenewalPromises) {floor : Option SessionRenewalFloor}
    {epoch : Nat} (h : proposedEpoch L floor = .ok epoch) : epoch = floorEpoch floor+1 := by
  cases floor with
  | none => exact (Except.ok.inj h).symm
  | some floor => exact hlaws.next_epoch floor epoch h

/-- The offers made so far are at most one epoch above the floor, and no session that was taken
from an Offer has the epoch of one. -/
structure Apart (S : SessionCarrierBody L → Prop) (peer : ActorId) (core : Core L) : Prop where
  bound : ∀ offer, core.Sent (.offer offer) → 0 < offer.epoch ∧
    ∃ floor, core.task.renewalFloors[peer]? = some floor ∧ offer.epoch ≤ floorEpoch floor+1
  apart : ∀ opening ∈ core.journal.openings,
    (∃ answer, S (.answer answer) ∧ answer.VerifiedFor opening.session) ∨
      ∀ offer, core.Sent (.offer offer) → offer.epoch ≠ opening.session.epoch

/-- While none is pending, every offer made so far is at the floor or below it. -/
def Held (peer : ActorId) (core : Core L) : Prop :=
  core.task.pending[peer]? = none → ∀ offer, core.Sent (.offer offer) →
    ∃ floor, core.task.renewalFloors[peer]? = some floor ∧ offer.epoch ≤ floorEpoch floor

/-- What holds of the lower actor's side. -/
structure Lower (room localActor peer : Digest) (S : SessionCarrierBody L → Prop) (core : Core L) :
    Prop where
  side : Side room localActor peer S core
  apart : Apart S peer core
  held : Held peer core

theorem Apart.mono {T : SessionCarrierBody L → Prop} (h : Apart S peer core)
    (hST : ∀ body, S body → T body) : Apart T peer core := by
  refine ⟨h.bound,fun opening hmem => ?_⟩
  rcases h.apart opening hmem with ⟨answer,hsent,hverified⟩ | hapart
  · exact .inl ⟨answer,hST _ hsent,hverified⟩
  · exact .inr hapart

theorem Lower.mono {T : SessionCarrierBody L → Prop} (h : Lower room localActor peer S core)
    (hST : ∀ body, S body → T body) : Lower room localActor peer T core :=
  ⟨h.side.mono hST,h.apart.mono hST,h.held⟩

theorem Side.pending_epoch (hlaws : L.RenewalPromises) (h : Side room localActor peer S core)
    {pending : PendingSession L} (hpending : core.task.pending[peer]? = some pending) :
    core.task.renewalFloors[peer]? = some pending.renewalFloor ∧
      pending.manifest.epoch = floorEpoch pending.renewalFloor+1 := by
  obtain ⟨-,-,hmade,hfloor⟩ := h.play.pending peer pending hpending
  exact ⟨hfloor,proposedEpoch_ok hlaws hmade.floor_next⟩

theorem Side.opened_below (h : Side room localActor peer S core)
    {floor : Option SessionRenewalFloor} (hfloor : core.task.renewalFloors[peer]? = some floor)
    {opening : Opening} (hmem : opening ∈ core.journal.openings) :
    opening.session.epoch ≤ floorEpoch floor := by
  obtain ⟨found,rfl,hle⟩ := h.rise.cached peer floor hfloor opening hmem
    (h.established.addressed opening hmem)
  exact hle

theorem Renews.floor_kept {F : RoomSessionFoundation L → Prop} (hmove : Renews F before after)
    {floor : Option SessionRenewalFloor} (hfloor : before.task.renewalFloors[peer]? = some floor) :
    after.task.renewalFloors[peer]? = some floor := by
  cases hmove with
  | @recovered foundation found hfoundation habsent hload =>
    simp only [Core.cachesFloor,Core.mapTask,Std.ExtTreeMap.getElem?_insert]
    split
    · rename_i hpeer
      rw [Std.LawfulEqOrd.eq_of_compare hpeer,hfloor] at habsent
      cases habsent
    · exact hfloor
  | proposed | offered | traced | noted => exact hfloor

theorem Renews.pending_kept {F : RoomSessionFoundation L → Prop} (hmove : Renews F before after)
    (hnone : after.task.pending[peer]? = none) : before.task.pending[peer]? = none := by
  cases hmove with
  | proposed =>
    simp only [Core.proposes,Core.mapTask,Std.ExtTreeMap.getElem?_insert] at hnone
    split at hnone
    · cases hnone
    · exact hnone
  | recovered | offered | traced | noted => exact hnone

theorem Renews.offer_sent (hplay : InPlay (Between room localActor peer) before)
    (hmove : Renews (Between room localActor peer) before after) (offer : OfferBody L)
    (hsent : after.Sent (.offer offer)) : before.Sent (.offer offer) ∨
      ∃ pending, before.task.pending[peer]? = some pending ∧
        offer.epoch = pending.manifest.epoch := by
  cases hmove with
  | @offered other pending hpending =>
    rcases sent_cons.mp hsent with hoffer | hsent
    · obtain ⟨hF,haddressed,⟨epoch,sessionId,secret,-,hmade⟩,-⟩ := hplay.pending _ _ hpending
      have hoffers := buildOffer_ok hmade
      obtain ⟨handshake,presentation,hcarrier⟩ := hoffers.carrier
      rw [RoomSessionEgress.carrier?,hcarrier] at hoffer
      cases hoffer
      obtain rfl : peer = other := hF.2.symm.trans haddressed
      exact .inr ⟨pending,hpending,(buildManifest_ok hoffers.manifest).1.symm⟩
    · exact .inl hsent
  | traced trace =>
    rcases sent_cons.mp hsent with hoffer | hsent
    · cases hoffer
    · exact .inl hsent
  | recovered | proposed | noted => exact .inl hsent

theorem Renews.apart (hlaws : L.RenewalPromises)
    (hmove : Renews (Between room localActor peer) before after)
    (hside : Side room localActor peer S before) (h : Apart S peer before) :
    Apart S peer after := by
  have hnew := hmove.offer_sent hside.play
  refine ⟨fun offer hsent => ?_,fun opening hmem => ?_⟩
  · rcases hnew offer hsent with hsent | ⟨pending,hpending,hepoch⟩
    · obtain ⟨hpos,floor,hfloor,hle⟩ := h.bound offer hsent
      exact ⟨hpos,floor,hmove.floor_kept hfloor,hle⟩
    · obtain ⟨hfloor,hnext⟩ := hside.pending_epoch hlaws hpending
      exact ⟨by omega,pending.renewalFloor,hmove.floor_kept hfloor,by omega⟩
  · rw [hmove.kept.journal] at hmem
    rcases h.apart opening hmem with htaken | hapart
    · exact .inl htaken
    · refine .inr fun offer hsent => ?_
      rcases hnew offer hsent with hsent | ⟨pending,hpending,hepoch⟩
      · exact hapart offer hsent
      · obtain ⟨hfloor,hnext⟩ := hside.pending_epoch hlaws hpending
        have hbelow := hside.opened_below hfloor hmem
        omega

theorem Renews.held (hmove : Renews (Between room localActor peer) before after)
    (hside : Side room localActor peer S before) (h : Held peer before) : Held peer after := by
  intro hnone offer hsent
  have hidle := hmove.pending_kept hnone
  rcases hmove.offer_sent hside.play offer hsent with hsent | ⟨pending,hpending,-⟩
  · obtain ⟨floor,hfloor,hle⟩ := h hidle offer hsent
    exact ⟨floor,hmove.floor_kept hfloor,hle⟩
  · rw [hidle] at hpending
    cases hpending

theorem RenewsMany.apart (hlaws : L.RenewalPromises)
    (hmoves : RenewsMany (Between room localActor peer) before after)
    (hside : Side room localActor peer S before) (h : Apart S peer before) :
    Side room localActor peer S after ∧ Apart S peer after ∧
    (Held peer before → Held peer after) := by
  induction hmoves with
  | refl => exact ⟨hside,h,id⟩
  | tail _ hlast ih =>
    obtain ⟨hside,h,hheld⟩ := ih
    exact ⟨Establishes.side hlaws (.renews hlast) hside,hlast.apart hlaws hside h,
      fun hstart => hlast.held hside (hheld hstart)⟩

theorem RenewsMany.lower (hlaws : L.RenewalPromises)
    (hmoves : RenewsMany (Between room localActor peer) before after)
    (h : Lower room localActor peer S before) : Lower room localActor peer S after := by
  obtain ⟨hside,hapart,hheld⟩ := RenewsMany.apart hlaws hmoves h.side h.apart
  exact ⟨hside,hapart,hheld h.held⟩

theorem InstallEnds.opens_only {cut : Prop} (hends : InstallEnds cut peer installation core after)
    (hcarrier : ∀ offer, installation.carrier ≠ some (.offer offer)) :
    (∀ offer, after.Sent (.offer offer) → core.Sent (.offer offer)) ∧
      ∀ opening ∈ after.journal.openings, opening.session = installation.identity ∨
        opening ∈ core.journal.openings := by
  have hsent : ∀ active offer, ((installation.cached peer core).stages peer active
      installation.carrier).Sent (.offer offer) → core.Sent (.offer offer) := by
    intro active offer hsent
    rcases stages_sent.mp hsent with hoffer | hsent
    · exact absurd hoffer (hcarrier offer)
    · exact hsent
  have hopening : ∀ active opening, opening ∈ ((installation.cached peer core).stages peer active
      installation.carrier).journal.openings → opening.session = active.identity ∨
        opening ∈ (installation.cached peer core).journal.openings :=
    fun active opening hmem => mem_stages_openings hmem
  cases hends with
  | refused | stored | cached => exact ⟨fun _ h => h,fun _ h => .inr h⟩
  | @staged _ active hopens =>
    rw [← hopens.identity]
    exact ⟨hsent active,hopening active⟩
  | @installed active hopens =>
    rw [← hopens.identity]
    refine ⟨hsent active,fun opening hmem => ?_⟩
    rcases List.mem_cons.mp hmem with rfl | hmem
    · exact .inl rfl
    · exact hopening active opening hmem

/-- An installation that raises the floor to the offers made so far keeps them apart. -/
theorem Apart.installEnds (h : Apart S peer core) {cut : Prop}
    (hends : InstallEnds cut peer installation core after)
    (hcarrier : ∀ offer, installation.carrier ≠ some (.offer offer))
    (hepoch : installation.authorization.floor.epoch = installation.identity.epoch)
    (hbelow : ∀ offer, core.Sent (.offer offer) → offer.epoch ≤ installation.identity.epoch)
    (hnew : (∃ answer, S (.answer answer) ∧ answer.VerifiedFor installation.identity) ∨
      ∀ offer, core.Sent (.offer offer) → offer.epoch ≠ installation.identity.epoch)
    (hraised : after.task.renewalFloors[peer]? = some (some installation.authorization.floor)) :
    Apart S peer after ∧ Held peer after := by
  obtain ⟨hsent,hopenings⟩ := hends.opens_only hcarrier
  refine ⟨⟨fun offer hoffer => ?_,fun opening hmem => ?_⟩,fun _ offer hoffer => ?_⟩
  · obtain ⟨hpos,-⟩ := h.bound offer (hsent offer hoffer)
    have hle := hbelow offer (hsent offer hoffer)
    exact ⟨hpos,_,hraised,by simp only [floorEpoch]; omega⟩
  · rcases hopenings opening hmem with hsession | hmem
    · rw [hsession]
      rcases hnew with htaken | hapart
      · exact .inl htaken
      · exact .inr fun offer hoffer => hapart offer (hsent offer hoffer)
    · rcases h.apart opening hmem with htaken | hapart
      · exact .inl htaken
      · exact .inr fun offer hoffer => hapart offer (hsent offer hoffer)
  · have hle := hbelow offer (hsent offer hoffer)
    exact ⟨_,hraised,by simp only [floorEpoch]; omega⟩

theorem persistFloor_granted {world : World L} (h : Granted world.answers) :
    persistFloor peer installation world =
      .ok () ⟨installation.stored world.core,world.answers.tail⟩ := by
  have hbytes : persistFloorBytes (renewalKey installation.foundation)
      installation.authorization.floorBytes world =
        .ok () ⟨installation.stored world.core,world.answers.tail⟩ :=
    bind_of_ok (effect_granted h true _)
  have hattempt : attempt (persistFloorBytes (renewalKey installation.foundation)
      installation.authorization.floorBytes) world =
        .ok (.ok ()) ⟨installation.stored world.core,world.answers.tail⟩ := by
    simp only [attempt,hbytes]
  exact bind_of_ok hattempt

/-- With storage and clock granted, an installation that can be opened raises the floor. -/
theorem installSession_raises {world : World L} (hgranted : Granted world.answers)
    (hnew : ∀ ticks, ∃ active, ActiveSession.new installation.foundation
      installation.authorization.session installation.sessionId installation.keys ticks =
        .ok active) :
    Ends (fun _ after => after.task.renewalFloors[peer]? =
        some (some installation.authorization.floor))
      (fun _ after => after.task.renewalFloors[peer]? =
        some (some installation.authorization.floor)) (installSession peer installation world) := by
  have hnotes : ∀ (core : Core L) needed consumed, core.task.renewalFloors[peer]? =
      some (some installation.authorization.floor) →
        (core.notes needed consumed).task.renewalFloors[peer]? =
        some (some installation.authorization.floor) := fun _ _ _ h => h
  have htraces : ∀ (core : Core L) trace, core.task.renewalFloors[peer]? =
      some (some installation.authorization.floor) →
        (core.sends [] (.renewalTrace trace)).task.renewalFloors[peer]? =
          some (some installation.authorization.floor) := fun _ _ h => h
  unfold installSession
  rw [bind_of_ok (persistFloor_granted hgranted),bind_of_ok (nowTicks_granted hgranted.tail)]
  refine Ends.check (fun active _ => ?_) fun message herror => ?_
  · refine Ends.bind (R := fun _ after => after.task.renewalFloors[peer]? =
      some (some installation.authorization.floor))
      (Ends.modifyTask Std.ExtTreeMap.getElem?_insert_self) fun _ cached hcached => ?_
    refine Ends.bind (renewalCut_ends hnotes htraces hcached) fun _ uncut huncut => ?_
    rw [← huncut] at hcached
    refine Ends.bind (Ends.mono (announceInstall_ends hnotes hcached fun (_ : True) => ?_)
      (fun _ _ h => h) fun _ _ h => h fun _ => trivial) fun _ staged hstaged => ?_
    · rw [Core.stages_task]
      exact hcached
    · refine Ends.bind (R := fun _ after => after.task.renewalFloors[peer]? =
        some (some installation.authorization.floor)) (Ends.modifyCore ?_) fun _ installed h => ?_
      · rw [hstaged]
        simp only [Core.activates,Core.opens,Core.mapTask,Core.stages_task]
        exact hcached
      · exact Ends.mono (emitRenewalTrace_ends htraces h) (fun _ _ h => h.1) fun _ _ h => h
  · obtain ⟨active,hactive⟩ := hnew (((⟨installation.stored world.core,world.answers.tail⟩ :
      World L).answers.headD {}).ticks)
    rw [hactive] at herror
    cases herror

theorem loadRenewalFloor_cached {world : World L} {foundation : RoomSessionFoundation L}
    {floor : Option SessionRenewalFloor}
    (hfloor : world.core.task.renewalFloors[foundation.peer]? = some floor) :
    loadRenewalFloor foundation world = .ok floor world := by
  unfold loadRenewalFloor
  rw [bind_of_ok (show getTask world = .ok world.core.task world from rfl)]
  simp only [hfloor]
  rfl

def Offerable (foundation : RoomSessionFoundation L) (floor : Option SessionRenewalFloor)
    (epoch : Nat) : Prop :=
  ∀ sessionId secret, ∃ pending, buildOffer foundation floor epoch sessionId secret = .ok pending

/-- Where nothing refuses it, starting a session leaves an offer pending. -/
theorem beginSession_offers {world : World L} {foundation : RoomSessionFoundation L}
    {floor : Option SessionRenewalFloor} {epoch : Nat} (hgranted : Granted world.answers)
    (hidle : world.core.task.hasLocalReificationWait foundation.peer = false ∧
      world.core.task.peerHasRecoveryWork foundation.peer = false)
    (hfloor : world.core.task.renewalFloors[foundation.peer]? = some floor)
    (hactive : foundation.peer ∈ world.core.task.active → floor ≠ none)
    (hepoch : proposedEpoch L floor = .ok epoch) (hoffers : Offerable foundation floor epoch) :
    Ends (fun _ core => foundation.peer ∈ core.task.pending)
      (fun _ core => foundation.peer ∈ core.task.pending) (beginSession foundation world) := by
  refine Ends.getTask <| Ends.branch (fun h => Ends.pure h) fun _ => ?_
  refine Ends.refuseIf (fun h => by rw [hidle.2] at h; cases h) fun _ => ?_
  refine Ends.refuseIf (fun h => by rw [hidle.1] at h; cases h) fun _ => ?_
  unfold proposeSession
  rw [bind_of_ok (loadRenewalFloor_cached hfloor)]
  refine Ends.getTask <| Ends.refuseIf (fun h => absurd h.2 (hactive h.1)) fun _ => ?_
  refine Ends.check (fun found hfound => ?_) fun _ h => by rw [hepoch] at h; cases h
  obtain rfl := Except.ok.inj (hepoch.symm.trans hfound)
  have hdraw : drawRandom world = .ok _ ⟨world.core,world.answers.tail⟩ :=
    bind_of_ok (effect_granted hgranted false id)
  rw [bind_of_ok hdraw]
  refine Ends.check (fun pending _ => ?_) fun _ h => ?_
  · refine Ends.bind (R := fun _ core => foundation.peer ∈ core.task.pending)
      (Ends.modifyTask Std.ExtTreeMap.mem_insert_self) fun _ proposed hproposed => ?_
    refine Ends.bind (R := fun _ core => foundation.peer ∈ core.task.pending) ?_
      fun _ traced htraced => Ends.emit htraced (fun _ => htraced) htraced
    exact Ends.emitRenewalTrace hproposed (fun _ => hproposed) (fun _ => hproposed)
      fun _ => hproposed
  · obtain ⟨pending,hpending⟩ := hoffers _ _
    rw [hpending] at h
    cases h

theorem RenewsMany.pending_mem {F : RoomSessionFoundation L → Prop}
    (hmoves : RenewsMany F before after) (h : peer ∈ before.task.pending) :
    peer ∈ after.task.pending := by
  induction hmoves with
  | refl => exact h
  | tail _ hlast ih =>
    by_contra hnone
    rw [Std.ExtTreeMap.mem_iff_isSome_getElem?,Option.not_isSome_iff_eq_none] at hnone
    rw [Std.ExtTreeMap.mem_iff_isSome_getElem?,hlast.pending_kept hnone] at ih
    cases ih

theorem beginSession_keeps {world : World L} {foundation : RoomSessionFoundation L}
    (h : peer ∈ world.core.task.pending) :
    Ends (fun _ core => peer ∈ core.task.pending) (fun _ core => peer ∈ core.task.pending)
      (beginSession foundation world) :=
  Ends.mono (beginSession_renews (F := fun _ => True) trivial)
    (fun _ _ hrenews => RenewsMany.pending_mem hrenews.1 h)
    fun _ _ hrenews => RenewsMany.pending_mem hrenews h

theorem renewActive_keeps {world : World L} {other : ActorId}
    (h : peer ∈ world.core.task.pending) :
    Ends (fun _ core => peer ∈ core.task.pending) (fun _ core => peer ∈ core.task.pending)
      (renewActive other world) := by
  have hrenewable : Renewable (fun _ => True) world.core :=
    ⟨fun _ _ _ => trivial,fun _ _ _ _ => trivial⟩
  exact Ends.mono (renewActive_renews hrenewable)
    (fun _ _ hrenews => RenewsMany.pending_mem hrenews h)
    fun _ _ hrenews => RenewsMany.pending_mem hrenews h

section Reoffers

variable {current : RoomSessionFoundation L}

theorem retiredRenewals_current (hplay : InPlay (Between room localActor peer) core)
    (hcurrent : core.task.foundations.entries[peer]? = some current)
    {foundation : RoomSessionFoundation L} (h : foundation ∈ core.task.retiredRenewals) :
    foundation = current := by
  obtain ⟨other,hother⟩ := retiredRenewals_founded h
  have hpeer := (hplay.founded other foundation hother).2
  rw [← core.task.foundations.keyed other foundation hother,hpeer,hcurrent] at hother
  exact (Option.some.inj hother).symm

theorem current_mem_retiredRenewals
    (hcurrent : core.task.foundations.entries[peer]? = some current)
    (hneeded : peer ∈ core.task.renewalNeeded) (hpending : peer ∉ core.task.pending)
    (hactive : peer ∉ core.task.active)
    (hrecovery : core.task.peerHasRecoveryWork peer = false) :
    current ∈ core.task.retiredRenewals := by
  refine List.mem_filterMap.mpr ⟨peer,?_,hcurrent⟩
  rw [Std.ExtTreeMap.mem_iff_contains,Bool.not_eq_true] at hpending hactive
  simp [List.mem_filter,hneeded,hpending,hactive,hrecovery]

theorem activeRenewals_peer (hplay : InPlay (Between room localActor peer) core) {other : ActorId}
    (h : other ∈ core.task.activeRenewals) : other = peer := by
  obtain ⟨⟨found,active⟩,hmem,rfl⟩ := List.mem_map.mp h
  have hactive := Std.ExtTreeMap.mem_toList_iff_getElem?_eq_some.mp (List.mem_filter.mp hmem).1
  obtain ⟨hF,haddressed⟩ := hplay.active found active hactive
  exact haddressed.symm.trans hF.2

theorem peer_mem_activeRenewals (hidle : Idle core) (hneeded : peer ∈ core.task.renewalNeeded)
    (hpending : peer ∉ core.task.pending) (hactive : peer ∈ core.task.active)
    (hrecovery : core.task.peerHasRecoveryWork peer = false) :
    peer ∈ core.task.activeRenewals := by
  have hfound := Std.ExtTreeMap.getElem?_eq_some_getElem hactive
  refine List.mem_map.mpr ⟨(peer,core.task.active[peer]),?_,rfl⟩
  refine List.mem_filter.mpr ⟨Std.ExtTreeMap.mem_toList_iff_getElem?_eq_some.mpr hfound,?_⟩
  have hwait := hidle.awaiting peer _ hfound
  rw [Std.ExtTreeMap.mem_iff_contains,Bool.not_eq_true] at hpending
  simp [hneeded,hpending,hrecovery,ActiveSession.hasLocalReificationWait,hwait]

/-- Where nothing refuses it, the renewal that is needed leaves an offer pending. -/
theorem startReadyRenewals_offers {world : World L} {floor : Option SessionRenewalFloor}
    {epoch : Nat} (hplay : InPlay (Between room localActor peer) world.core)
    (hidle : Idle world.core) (hgranted : Granted world.answers)
    (hcurrent : world.core.task.foundations.entries[peer]? = some current)
    (hneeded : peer ∈ world.core.task.renewalNeeded)
    (hfloor : world.core.task.renewalFloors[peer]? = some floor)
    (hactive : peer ∈ world.core.task.active → floor ≠ none)
    (hepoch : proposedEpoch L floor = .ok epoch) (hoffers : Offerable current floor epoch) :
    Ends (fun _ core => peer ∈ core.task.pending) (fun _ core => peer ∈ core.task.pending)
      (startReadyRenewals (L := L) world) := by
  have hnothing := hidle.no_obligations hplay.retired peer
  have haddressed := world.core.task.foundations.keyed peer current hcurrent
  have hbegin : Ends (fun _ core => peer ∈ core.task.pending)
      (fun _ core => peer ∈ core.task.pending) (beginSession current world) := by
    rw [← haddressed] at hnothing hfloor hactive ⊢
    exact beginSession_offers hgranted hnothing hfloor hactive hepoch hoffers
  by_cases hpending : peer ∈ world.core.task.pending
  · have hrenewable : Renewable (fun _ => True) world.core :=
      ⟨fun _ _ _ => trivial,fun _ _ _ _ => trivial⟩
    exact Ends.mono (startReadyRenewals_renews hrenewable)
      (fun _ _ hrenews => RenewsMany.pending_mem hrenews hpending)
      fun _ _ hrenews => RenewsMany.pending_mem hrenews hpending
  by_cases hretired : world.core.task.retiredRenewals = []
  · -- The peer has a session, so its renewal is among those of the active ones.
    have hin : peer ∈ world.core.task.active := by
      by_contra hout
      have hmem := current_mem_retiredRenewals hcurrent hneeded hpending hout hnothing.2
      rw [hretired] at hmem
      cases hmem
    have hmem := peer_mem_activeRenewals hidle hneeded hpending hin hnothing.2
    unfold startReadyRenewals
    refine Ends.getTask ?_
    rw [hretired,bind_of_ok (show beginEach [] world = .ok () world from rfl)]
    refine Ends.getTask <| Ends.forM_first _ (List.ne_nil_of_mem hmem) (fun other hother => ?_)
      fun other _ after hafter => renewActive_keeps hafter
    rw [activeRenewals_peer hplay hother]
    refine Ends.getTask ?_
    simp only [hcurrent,Option.some_or]
    exact hbegin
  · refine Ends.getTask <| Ends.bind (R := fun _ core => peer ∈ core.task.pending) ?_
      fun _ begun hbegun => Ends.getTask <| Ends.forM _ hbegun
        fun other _ after hafter => renewActive_keeps hafter
    refine Ends.forM_first _ hretired (fun foundation hfoundation => ?_)
      fun foundation _ after hafter => beginSession_keeps hafter
    rw [retiredRenewals_current hplay hcurrent hfoundation]
    exact hbegin

end Reoffers

section Handlers

variable {world : World L}

theorem Side.active_floor (h : Side room localActor peer S core)
    {floor : Option SessionRenewalFloor} (hfloor : core.task.renewalFloors[peer]? = some floor)
    (hactive : peer ∈ core.task.active) : floor ≠ none := by
  obtain ⟨opening,hmem,-⟩ := h.rise.active peer _ (Std.ExtTreeMap.getElem?_eq_some_getElem hactive)
  obtain ⟨found,rfl,-⟩ := h.rise.cached peer floor hfloor opening hmem
    (h.established.addressed opening hmem)
  exact Option.some_ne_none found

theorem Lower.of_pending (hside : Side room localActor peer S core) (hapart : Apart S peer core)
    (hpending : peer ∈ core.task.pending) : Lower room localActor peer S core :=
  ⟨hside,hapart,fun hnone => by
    rw [Std.ExtTreeMap.mem_iff_isSome_getElem?,hnone] at hpending
    cases hpending⟩

/-- What an offer over a changed base needs: nothing refuses the new offer. -/
def StartKeeps (core : Core L) (foundation : RoomSessionFoundation L)
    (answers : List EffectAnswer) : Prop :=
  ∀ pending, core.task.pending[foundation.peer]? = some pending →
    pending.manifest.base ≠ L.frontier foundation.history → Granted answers ∧
      Offerable foundation pending.renewalFloor pending.manifest.epoch

/-- An Offer that takes the pending offer's place: nothing refuses its session any more. -/
def OfferKeeps (core : Core L) (offer : OfferBody L) (answers : List EffectAnswer) : Prop :=
  ∀ pending installation, core.task.pending[offer.source]? = some pending →
    TakesUp core offer installation → Granted answers ∧
      ∀ ticks, ∃ active, ActiveSession.new installation.foundation
        installation.authorization.session installation.sessionId installation.keys ticks =
          .ok active

/-- An Answer that finds an offer pending is the one to it, and nothing refuses its session, or
the new offer where the pending one was outgrown. -/
def AnswerKeeps (core : Core L) (answer : AnswerBody L) (answers : List EffectAnswer) : Prop :=
  ∀ pending, core.task.pending[answer.source]? = some pending → Granted answers ∧
    ∃ remoteFoundation keys current, verifyAnswer pending answer = .ok (remoteFoundation,keys) ∧
      core.task.foundations.entries[answer.source]? = some current ∧
      if core.task.outgrown current pending answer.source = true then
        Offerable current pending.renewalFloor pending.manifest.epoch
      else ∃ authorization, authorizePair pending.foundation pending.manifest
          pending.localFoundation remoteFoundation pending.renewalFloor = .ok authorization ∧
        ∀ ticks, ∃ active, ActiveSession.new pending.foundation authorization.session
          answer.sessionId keys ticks = .ok active

theorem startReadyRenewals_lower (hlaws : L.RenewalPromises)
    (h : Lower room localActor peer S world.core) :
    Ends (fun _ core => Lower room localActor peer S core)
      (fun _ core => Lower room localActor peer S core) (startReadyRenewals (L := L) world) :=
  Ends.mono (startReadyRenewals_runs h.side.play)
    (fun _ _ hmoves => RenewsMany.lower hlaws hmoves h)
    fun _ _ hmoves => RenewsMany.lower hlaws hmoves h

theorem Lower.founded (hlaws : L.RenewalPromises) (h : Lower room localActor peer S core)
    {foundation : RoomSessionFoundation L} (hF : Between room localActor peer foundation) :
    Lower room localActor peer S (core.mapTask fun task => { task with
      foundations := task.foundations.insert foundation }) :=
  ⟨Establishes.side hlaws (.founded (Foundations.insert_founded hF h.side.play.founded)) h.side,
    ⟨h.apart.bound,h.apart.apart⟩,h.held⟩

theorem Apart.drops (h : Apart S peer core) (other : ActorId) : Apart S peer (core.drops other) :=
  ⟨h.bound,h.apart⟩

theorem replaceOffer_lower (hlaws : L.RenewalPromises)
    (h : Lower room localActor peer S world.core) {foundation : RoomSessionFoundation L}
    (hF : Between room localActor peer foundation) {pending : PendingSession L}
    (hpending : world.core.task.pending[peer]? = some pending) (hgranted : Granted world.answers)
    (hoffers : Offerable foundation pending.renewalFloor pending.manifest.epoch) :
    Ends (fun _ core => Lower room localActor peer S core)
      (fun _ core => Lower room localActor peer S core) (replaceOffer foundation world) := by
  obtain ⟨-,-,hmade,hfloor⟩ := h.side.play.pending peer pending hpending
  refine Post.bind (R := fun _ after => after.answers = world.answers ∧
    after.core = (world.core.drops foundation.peer).notes
      (world.core.task.renewalNeeded.insert foundation.peer)
      world.core.task.renewalTestCutConsumed) ⟨rfl,rfl⟩ fun _ dropped ⟨hanswers,hdropped⟩ => ?_
  have hmoves : EstablishesMany (Between room localActor peer) S world.core dropped.core := by
    rw [hdropped]
    exact (ReflTransGen.single (.dropped foundation.peer)).tail (.renews (.noted _ _))
  obtain ⟨hside,-⟩ := hmoves.side hlaws h.side
  have hapart : Apart S peer dropped.core := by
    rw [hdropped]
    exact ⟨h.apart.bound,h.apart.apart⟩
  have hfloorDropped : dropped.core.task.renewalFloors[peer]? = some pending.renewalFloor := by
    rw [hdropped]
    exact hfloor
  have hidle := hside.idle.no_obligations hside.play.retired foundation.peer
  have hbegin : Ends (fun _ core => foundation.peer ∈ core.task.pending)
      (fun _ core => foundation.peer ∈ core.task.pending) (beginSession foundation dropped) := by
    rw [← hF.2] at hfloorDropped
    refine beginSession_offers (hanswers ▸ hgranted) hidle hfloorDropped (fun hactive => ?_)
      hmade.floor_next hoffers
    rw [hF.2] at hfloorDropped hactive
    exact hside.active_floor hfloorDropped hactive
  rw [hF.2] at hbegin
  refine Post.mono (Post.and hbegin (beginSession_runs hF)) (fun _ _ hend => ?_) fun _ _ hend => ?_
  · obtain ⟨hside,hapart,-⟩ := RenewsMany.apart hlaws hend.2 hside hapart
    exact Lower.of_pending hside hapart hend.1
  · obtain ⟨hside,hapart,-⟩ := RenewsMany.apart hlaws hend.2 hside hapart
    exact Lower.of_pending hside hapart hend.1

theorem startPeer_lower (hlaws : L.RenewalPromises) (h : Lower room localActor peer S world.core)
    {foundation : RoomSessionFoundation L} (hF : Between room localActor peer foundation)
    (hkeeps : StartKeeps world.core foundation world.answers) :
    Ends (fun _ core => Lower room localActor peer S core)
      (fun _ core => Lower room localActor peer S core) (startPeer foundation world) := by
  refine Post.bind (R := fun _ after => after.answers = world.answers ∧
    after.core.task.pending = world.core.task.pending ∧
    Lower room localActor peer S after.core) ⟨rfl,rfl,h.founded hlaws hF⟩
    fun _ after ⟨hanswers,hsame,hlower⟩ => Ends.getTask ?_
  cases hpending : after.core.task.pending[foundation.peer]? with
  | some pending =>
    refine Ends.branch (fun _ => ?_) fun hbase => ?_
    · have hoffered := RenewsMany.lower hlaws (.single (.offered hpending)) hlower
      exact Ends.emit hoffered (fun _ => hlower) hoffered
    · obtain ⟨hgranted,hoffers⟩ := hkeeps pending (hsame ▸ hpending) hbase
      rw [hF.2] at hpending
      exact replaceOffer_lower hlaws hlower hF hpending (hanswers ▸ hgranted) hoffers
  | none =>
    refine Ends.branch (fun _ => Ends.pure hlower) fun _ => ?_
    exact Ends.mono (startUnlessWaiting_runs hF)
      (fun _ _ hmoves => RenewsMany.lower hlaws hmoves hlower)
      fun _ _ hmoves => RenewsMany.lower hlaws hmoves hlower

/-- An installation whose session is taken up keeps the lower side, where the floor it raises is
certain to be raised if an offer was taken out for it. -/
theorem installSession_lower (hlaws : L.RenewalPromises) {start : Core L}
    (h : Side room localActor peer S start) (hapart : Apart S peer start)
    (hready : Ready (Between room localActor peer) S start peer installation)
    (hcore : world.core = start.drops peer)
    (hheld : (Held peer start ∧ start.task.pending[peer]? = none) ∨ (Granted world.answers ∧
      ∀ ticks, ∃ active, ActiveSession.new installation.foundation
        installation.authorization.session installation.sessionId installation.keys ticks =
          .ok active))
    (hbelow : ∀ offer, start.Sent (.offer offer) → offer.epoch ≤ installation.identity.epoch)
    (hnew : (∃ answer, S (.answer answer) ∧ answer.VerifiedFor installation.identity) ∨
      ∀ offer, start.Sent (.offer offer) → offer.epoch ≠ installation.identity.epoch) :
    Ends (fun _ core => Lower room localActor peer S core)
      (fun _ core => Lower room localActor peer S core)
      (installSession peer installation world) := by
  have hepoch : installation.authorization.floor.epoch = installation.identity.epoch :=
    (Ready.opens hlaws h.rise (hready.mono (fun _ hF => hF.1) fun _ hG => hG)).epoch
  have hcarrier : ∀ offer, installation.carrier ≠ some (.offer offer) := by
    intro offer hoffer
    obtain ⟨prior,-,horigin,-⟩ := hready.origin
    obtain ⟨answer,hanswer,-⟩ := horigin.carrier hoffer
    cases hanswer
  let raised (core : Core L) : Prop :=
    core.task.renewalFloors[peer]? = some (some installation.authorization.floor)
  let M (core : Core L) : Prop := Side room localActor peer S core ∧
    (raised core ∨ (Held peer start ∧ start.task.pending[peer]? = none) →
      Apart S peer core ∧ Held peer core)
  have hrenews : ∀ {core after : Core L}, M core →
      Renews (Between room localActor peer) core after → (raised after → raised core) →
        M after := by
    intro core after ⟨hside,hkept⟩ hmove hraised
    refine ⟨Establishes.side hlaws (.renews hmove) hside,fun hpremise => ?_⟩
    obtain ⟨hapart,hheld⟩ := hkept (hpremise.imp_left hraised)
    exact ⟨hmove.apart hlaws hside hapart,hmove.held hside hheld⟩
  have hends : ∀ after, InstallEnds True peer installation world.core after → M after := by
    intro after hends
    rw [hcore] at hends
    refine ⟨Establishes.side hlaws (.installs hready hends) h,fun hpremise => ?_⟩
    have hinstalls : raised after → Apart S peer after ∧ Held peer after :=
      fun hraised => (hapart.drops peer).installEnds hends hcarrier hepoch hbelow hnew hraised
    rcases hpremise with hraised | ⟨hstart,hidle⟩
    · exact hinstalls hraised
    · rw [Core.drops_of_absent hidle] at hends
      cases hends with
      | refused => exact ⟨hapart,hstart⟩
      | stored => exact ⟨⟨hapart.bound,hapart.apart⟩,hstart⟩
      | cached => exact hinstalls Std.ExtTreeMap.getElem?_insert_self
      | staged =>
        refine hinstalls ?_
        simp only [raised,Core.stages_task]
        exact Std.ExtTreeMap.getElem?_insert_self
      | installed =>
        refine hinstalls ?_
        simp only [raised,Core.activates,Core.opens,Core.mapTask,Core.stages_task]
        exact Std.ExtTreeMap.getElem?_insert_self
  have hinstall : Ends (fun _ => M) (fun _ => M) (installSession peer installation world) :=
    Ends.mono (installSession_ends
      (fun core needed consumed hM => hrenews hM (.noted needed consumed) id)
      (fun core trace hM => hrenews hM (.traced trace) id) hends)
      (fun _ _ hend => hend.1) fun _ _ hend => hend fun _ => trivial
  rcases hheld with hheld | ⟨hgranted,hnew⟩
  · have hlower : ∀ core, M core → Lower room localActor peer S core := fun core hM =>
      ⟨hM.1,(hM.2 (.inr hheld)).1,(hM.2 (.inr hheld)).2⟩
    exact Ends.mono hinstall (fun _ => hlower) fun _ => hlower
  · have hlower : ∀ core, M core → raised core → Lower room localActor peer S core :=
      fun core hM hraised => ⟨hM.1,(hM.2 (.inl hraised)).1,(hM.2 (.inl hraised)).2⟩
    exact Post.mono (Post.and hinstall (installSession_raises hgranted hnew))
      (fun _ _ hend => hlower _ hend.1 hend.2) fun _ _ hend => hlower _ hend.1 hend.2

theorem carrierOffer_lower (hlaws : L.RenewalPromises) {offer : OfferBody L}
    (hactors : localActor < peer) (h : Lower room localActor peer S world.core)
    (hframe : S (.offer offer)) (hkeeps : OfferKeeps world.core offer world.answers) :
    Ends (fun _ core => Lower room localActor peer S core)
      (fun _ core => Lower room localActor peer S core) (carrierOffer offer world) := by
  refine carrierOffer_ends h.side.play (fun core hrenews => ?_)
    fun core installation after hrenews hcached hsame htaken hafter hspent => ?_
  · exact ⟨RenewsMany.lower hlaws hrenews h,fun _ => RenewsMany.lower hlaws hrenews h⟩
  have hlower := RenewsMany.lower hlaws hrenews h
  have hF := hlower.side.play.founded _ _ htaken.current
  obtain rfl : offer.source = peer :=
    (core.task.foundations.keyed _ _ htaken.current).symm.trans hF.2
  have hready := htaken.ready hframe hlower.side.play
  obtain ⟨floor,verified,secret,hfloor,hverified,hanswer,-⟩ := htaken.answered
  obtain ⟨-,-,hauthorized,-⟩ := answerOffer_ok hanswer
  obtain ⟨habove,hmanifest,-⟩ := authorizePair_ok hlaws hauthorized
  obtain ⟨hepoch,-⟩ := verifyOfferBody_ok hverified
  have hidentity : installation.identity.epoch = offer.epoch := by
    rw [Installation.identity,hmanifest]
    exact hepoch
  have hbelow : floorEpoch floor < offer.epoch := by
    cases floor with
    | none => exact Nat.pos_of_ne_zero htaken.admitted.epoch
    | some found => exact hepoch ▸ habove found rfl
  -- An offer of the lower actor at this epoch would still be pending, and be preferred.
  have hoffers : ∀ own, core.Sent (.offer own) → own.epoch < installation.identity.epoch := by
    intro own hsent
    rw [hidentity]
    cases hpending : core.task.pending[offer.source]? with
    | none =>
      obtain ⟨found,hfound,hle⟩ := hlower.held hpending own hsent
      obtain rfl := Option.some.inj (hfloor.symm.trans hfound)
      omega
    | some pending =>
      obtain ⟨hcachedFloor,hnext⟩ := hlower.side.pending_epoch hlaws hpending
      obtain ⟨-,found,hfound,hle⟩ := hlower.apart.bound own hsent
      obtain rfl := Option.some.inj (hcachedFloor.symm.trans hfound)
      have hprefer := htaken.prefer pending hpending
      simp only [preferIncomingOffer,hF.1.2,Bool.or_eq_true,decide_eq_true_eq,
        Bool.and_eq_true] at hprefer
      rcases hprefer with hhigher | ⟨-,hlowerActor⟩
      · omega
      · exact absurd hactors (Nat.lt_asymm hlowerActor)
  refine installSession_lower hlaws hlower.side hlower.apart hready hafter ?_
    (fun own hsent => (hoffers own hsent).le) (.inr fun own hsent => (hoffers own hsent).ne)
  cases hpending : core.task.pending[offer.source]? with
  | none => exact .inl ⟨hlower.held,rfl⟩
  | some pending =>
    rw [hsame] at hpending
    obtain ⟨-,-,-,hstored⟩ := h.side.play.pending _ pending hpending
    rw [hcached (by rw [hstored]; exact Option.some_ne_none _)] at htaken
    obtain ⟨hgranted,hnew⟩ := hkeeps pending installation hpending htaken
    exact .inr ⟨fun answer hmem => hgranted answer (hspent.subset hmem),hnew⟩

theorem takePending_some {source : ActorId} {pending : PendingSession L}
    (hpending : world.core.task.pending[source]? = some pending) :
    takePending source world = .ok pending ⟨world.core.drops source,world.answers⟩ := by
  unfold takePending
  rw [bind_of_ok (show getTask world = .ok world.core.task world from rfl)]
  simp only [hpending]
  rfl

/-- The pending offer was outgrown, and the new one takes its place. -/
theorem renewOutgrown_lower (hlaws : L.RenewalPromises)
    (h : Lower room localActor peer S core) {pending : PendingSession L}
    {current : RoomSessionFoundation L} (hpending : core.task.pending[peer]? = some pending)
    (hcurrent : core.task.foundations.entries[peer]? = some current)
    (hcore : world.core = core.drops peer) (hgranted : Granted world.answers)
    (hoffers : Offerable current pending.renewalFloor pending.manifest.epoch) :
    Ends (fun prepared after => prepared = none ∧ Lower room localActor peer S after)
      (fun _ after => Lower room localActor peer S after) ((do
        needRenewal peer
        startReadyRenewals
        return none : TaskM L (Option (Installation L))) world) := by
  obtain ⟨-,-,hmade,hfloor⟩ := h.side.play.pending peer pending hpending
  refine Post.bind (R := fun _ after => after.answers = world.answers ∧ after.core =
    world.core.notes (world.core.task.renewalNeeded.insert peer)
      world.core.task.renewalTestCutConsumed) ⟨rfl,rfl⟩ fun _ needed ⟨hanswers,hneeded⟩ => ?_
  rw [hcore] at hneeded
  have hmoves : EstablishesMany (Between room localActor peer) S core needed.core := by
    rw [hneeded]
    exact (ReflTransGen.single (.dropped peer)).tail (.renews (.noted _ _))
  obtain ⟨hside,-⟩ := hmoves.side hlaws h.side
  have hapart : Apart S peer needed.core := by
    rw [hneeded]
    exact ⟨h.apart.bound,h.apart.apart⟩
  have hfloorNeeded : needed.core.task.renewalFloors[peer]? = some pending.renewalFloor := by
    rw [hneeded]
    exact hfloor
  have hcurrentNeeded : needed.core.task.foundations.entries[peer]? = some current := by
    rw [hneeded]
    exact hcurrent
  have hmem : peer ∈ needed.core.task.renewalNeeded := by
    rw [hneeded]
    exact Std.ExtTreeSet.mem_insert_self
  have hstart := startReadyRenewals_offers hside.play hside.idle (hanswers ▸ hgranted)
    hcurrentNeeded hmem hfloorNeeded (hside.active_floor hfloorNeeded) hmade.floor_next hoffers
  have hlower : ∀ after, peer ∈ after.task.pending →
      RenewsMany (Between room localActor peer) needed.core after →
        Lower room localActor peer S after := by
    intro after hin hrenews
    obtain ⟨hside,hapart,-⟩ := RenewsMany.apart hlaws hrenews hside hapart
    exact Lower.of_pending hside hapart hin
  refine Post.bind (R := fun _ after => Lower room localActor peer S after.core)
    (Post.mono (Post.and hstart (startReadyRenewals_runs hside.play))
      (fun _ _ hend => hlower _ hend.1 hend.2) fun _ _ hend => hlower _ hend.1 hend.2)
    fun _ _ hend => ⟨rfl,hend⟩

theorem carrierAnswer_lower (hlaws : L.RenewalPromises) {answer : AnswerBody L}
    (h : Lower room localActor peer S world.core)
    (hframe : S (.answer answer)) (hkeeps : AnswerKeeps world.core answer world.answers) :
    Ends (fun _ core => Lower room localActor peer S core)
      (fun _ core => Lower room localActor peer S core) (carrierAnswer answer world) := by
  cases hpending : world.core.task.pending[answer.source]? with
  | none =>
    refine Ends.bind (R := fun _ _ => False) (prepareAnswer_ends h.side.play (fun _ => h)
      (fun pending core hfound => ?_) fun pending installation hcompletes => ?_)
      fun _ _ hend => hend.elim
    · rw [hpending] at hfound
      cases hfound
    · have hfound := hcompletes.taken
      rw [hpending] at hfound
      cases hfound
  | some pending =>
    obtain ⟨hF,haddressed,hmade,hfloor⟩ := h.side.play.pending _ pending hpending
    obtain rfl : answer.source = peer := haddressed.symm.trans hF.2
    obtain ⟨hgranted,remoteFoundation,keys,current,hverified,hcurrent,hrest⟩ :=
      hkeeps pending hpending
    let dropped : World L := ⟨world.core.drops answer.source,world.answers⟩
    have hprepared : Post (fun prepared after =>
        (prepared = none ∧ Lower room localActor answer.source S after.core) ∨
          ∃ installation, prepared = some installation ∧ after = dropped ∧
            Completes world.core answer pending installation ∧ ∀ ticks, ∃ active,
              ActiveSession.new installation.foundation installation.authorization.session
                installation.sessionId installation.keys ticks = .ok active)
        (fun _ after => Lower room localActor answer.source S after.core)
        (prepareAnswer answer world) := by
      unfold prepareAnswer
      rw [bind_of_ok (takePending_some hpending),hverified,
        bind_of_ok (show check (.ok (remoteFoundation,keys)) dropped = .ok _ dropped from rfl)]
      dsimp only
      rw [bind_of_ok (show getTask dropped = .ok dropped.core.task dropped from rfl)]
      have hfound : dropped.core.task.foundations.entries[answer.source]? = some current := hcurrent
      simp only [hfound]
      by_cases houtgrown : world.core.task.outgrown current pending answer.source = true
      · rw [if_pos houtgrown] at hrest
        rw [if_pos (show dropped.core.task.outgrown current pending answer.source = true from
          houtgrown)]
        refine Post.mono (renewOutgrown_lower hlaws h hpending hcurrent rfl hgranted hrest)
          (fun _ _ hend => .inl hend) fun _ _ hend => hend
      · rw [if_neg houtgrown] at hrest
        obtain ⟨authorization,hauthorized,hnew⟩ := hrest
        obtain ⟨-,hdrained,-⟩ := RoomSessionTask.not_outgrown houtgrown
        rw [if_neg (show ¬ dropped.core.task.outgrown current pending answer.source = true from
          houtgrown),hauthorized]
        exact .inr ⟨_,rfl,rfl,⟨hpending,⟨_,_,_,hverified,hauthorized,rfl⟩,hdrained⟩,hnew⟩
    refine Post.bind hprepared fun prepared after hafter => ?_
    rcases hafter with ⟨rfl,hlower⟩ | ⟨installation,rfl,rfl,hcompletes,hnew⟩
    · exact Ends.pure hlower
    · have hdropped : Side room localActor answer.source S dropped.core :=
        Establishes.side hlaws (.dropped answer.source) h.side
      have hidle : dropped.core.task.pending[answer.source]? = none :=
        Std.ExtTreeMap.getElem?_erase_self
      obtain ⟨found,hstored,authorization,hverifiedAgain,hauthorized,rfl⟩ := hcompletes.verified
      obtain ⟨-,hmanifest,-⟩ := authorizePair_ok hlaws hauthorized
      obtain ⟨-,hnext⟩ := h.side.pending_epoch hlaws hpending
      refine installSession_lower hlaws hdropped (h.apart.drops answer.source)
        (hcompletes.ready hframe h.side.play) (Core.drops_of_absent hidle).symm
        (.inr ⟨hgranted,hnew⟩) (fun own hsent => ?_) (.inl ⟨answer,hframe,rfl,?_⟩)
      · obtain ⟨-,floor,hfound,hle⟩ := h.apart.bound own hsent
        obtain rfl := Option.some.inj (hfloor.symm.trans hfound)
        rw [Installation.identity,hmanifest]
        exact hnext ▸ hle
      · refine ⟨_,pending.manifest,_,_,_,verifyAnswer_ok hverifiedAgain,?_,?_⟩
        · rw [Installation.identity,hmanifest]
        · rw [Installation.identity,hmanifest]

end Handlers

end Lower

section Pairs

def Core.handshakes (core : Core L) : List (SessionCarrierBody L) :=
  core.frames.filter fun body => match body with
    | .offer _ | .answer _ => true
    | .event _ => false

/-- What a task of a pair is given to do. A frame is named by its place among the handshakes of
the other task, so that it can come late, out of order, twice or never. -/
inductive PairInput (L : SessionLibrary) where
  | start (foundation : RoomSessionFoundation L)
  | renew
  | deliver (frame : Nat)

def PairInput.program (frames : List (SessionCarrierBody L)) : PairInput L → TaskM L Unit
  | .start foundation => startPeer foundation
  | .renew => startReadyRenewals
  | .deliver frame => match frames[frame]? with
      | none => pure ()
      | some body => carrier body

def Core.takes (frames : List (SessionCarrierBody L)) (core : Core L) (input : PairInput L)
    (answers : List EffectAnswer) : Core L :=
  match input.program frames ⟨core,answers⟩ with
  | .ok _ after | .error _ after => after.core

/-- The tasks of the lower and of the upper actor of a pair. -/
structure Pair (L : SessionLibrary) where
  lower : Core L
  upper : Core L

inductive PairEvent (L : SessionLibrary) where
  | lower (input : PairInput L) (answers : List EffectAnswer)
  | upper (input : PairInput L) (answers : List EffectAnswer)

def Pair.step (pair : Pair L) : PairEvent L → Pair L
  | .lower input answers => { pair with
      lower := pair.lower.takes pair.upper.handshakes input answers }
  | .upper input answers => { pair with
      upper := pair.upper.takes pair.lower.handshakes input answers }

def Pair.run (pair : Pair L) (events : List (PairEvent L)) : Pair L := events.foldl Pair.step pair

/-- A configured task that has done nothing yet, over any store. -/
def Core.configured (store : RoomSessionRenewalKey → Option L.FloorBytes) (generation : Nat)
    (traceEnabled renewalTestCut : Bool) : Core L where
  store := store
  task := {
    events := some generation
    traceEnabled := traceEnabled
    renewalTestCut := renewalTestCut }

/-- The foundations that a task is started with are its actor's, for the other one. -/
def PairInput.Within (room localActor peer : Digest) : PairInput L → Prop
  | .start foundation => Between room localActor peer foundation
  | _ => True

def PairEvent.Within (room lowerActor upperActor : Digest) : PairEvent L → Prop
  | .lower input _ => input.Within room lowerActor upperActor
  | .upper input _ => input.Within room upperActor lowerActor

/-- A step that takes the pending offer out is not refused afterwards. -/
def PairInput.KeepsOffer (frames : List (SessionCarrierBody L)) (core : Core L)
    (answers : List EffectAnswer) : PairInput L → Prop
  | .start foundation => StartKeeps core foundation answers
  | .renew => True
  | .deliver frame => match frames[frame]? with
      | some (.offer offer) => OfferKeeps core offer answers
      | some (.answer answer) => AnswerKeeps core answer answers
      | _ => True

def PairEvent.KeepsOffer (pair : Pair L) : PairEvent L → Prop
  | .lower input answers => input.KeepsOffer pair.upper.handshakes pair.lower answers
  | .upper _ _ => True

/-- Every step of the run keeps the lower actor's offer. -/
def Pair.RunKeeps (pair : Pair L) : List (PairEvent L) → Prop
  | [] => True
  | event :: rest => event.KeepsOffer pair ∧ (pair.step event).RunKeeps rest

theorem PairInput.keepsOffer_of_idle {frames : List (SessionCarrierBody L)} {core : Core L}
    (hidle : core.task.pending.isEmpty = true) (input : PairInput L)
    (answers : List EffectAnswer) : input.KeepsOffer frames core answers := by
  have hnone : ∀ peer : ActorId, core.task.pending[peer]? = none := by
    simp [Std.ExtTreeMap.isEmpty_iff.mp hidle]
  cases input with
  | start foundation => simp [PairInput.KeepsOffer,StartKeeps,hnone]
  | renew => trivial
  | deliver frame =>
    simp only [PairInput.KeepsOffer]
    split <;> simp [OfferKeeps,AnswerKeeps,hnone]

variable {room lowerActor upperActor : Digest}

theorem mem_handshakes {core : Core L} {body : SessionCarrierBody L}
    (h : body ∈ core.handshakes) : core.Sent body ∧ ∀ event, body ≠ .event event := by
  obtain ⟨hmem,hkind⟩ := List.mem_filter.mp h
  obtain ⟨event,hevent,hbody⟩ := List.mem_filterMap.mp hmem
  refine ⟨⟨event,List.mem_reverse.mp hevent,hbody⟩,fun found hfound => ?_⟩
  rw [hfound] at hkind
  cases hkind

/-- What holds of a pair while the lower actor keeps its offers. -/
structure Agreeing (room lowerActor upperActor : Digest) (pair : Pair L) : Prop where
  lower : Lower room lowerActor upperActor pair.upper.Sent pair.lower
  upper : Side room upperActor lowerActor pair.lower.Sent pair.upper

theorem Core.takes_ends {frames : List (SessionCarrierBody L)} {core : Core L}
    {input : PairInput L} {answers : List EffectAnswer} {M : Core L → Prop}
    (h : Ends (fun _ => M) (fun _ => M) (input.program frames ⟨core,answers⟩)) :
    M (core.takes frames input answers) := by
  unfold Core.takes
  cases hrun : input.program frames ⟨core,answers⟩ with
  | ok value after => rw [hrun] at h; exact h
  | error stop after => rw [hrun] at h; exact h

theorem PairInput.establishes {localActor peer : Digest} {S : SessionCarrierBody L → Prop}
    {frames : List (SessionCarrierBody L)} {input : PairInput L} {world : World L}
    (hframes : ∀ body ∈ frames, S body ∧ ∀ event, body ≠ .event event)
    (hinput : input.Within room localActor peer)
    (hplay : InPlay (Between room localActor peer) world.core) :
    Runs (Establishes (Between room localActor peer) S) (input.program frames) world := by
  cases input with
  | start foundation => exact startPeer_runs hinput hplay
  | renew => exact (startReadyRenewals_runs hplay).establishes
  | deliver frame =>
    simp only [PairInput.program]
    cases hframe : frames[frame]? with
    | none => exact Runs.pure ()
    | some body =>
      obtain ⟨hsent,hevent⟩ := hframes body (List.mem_of_getElem? hframe)
      cases body with
      | offer offer => exact carrierOffer_runs hsent hplay
      | answer answer => exact carrierAnswer_runs hsent hplay
      | event event => exact absurd rfl (hevent event)

theorem PairInput.lower (hlaws : L.RenewalPromises) (hactors : lowerActor < upperActor)
    {S : SessionCarrierBody L → Prop} {frames : List (SessionCarrierBody L)}
    {input : PairInput L} {world : World L}
    (hframes : ∀ body ∈ frames, S body ∧ ∀ event, body ≠ .event event)
    (hinput : input.Within room lowerActor upperActor)
    (h : Lower room lowerActor upperActor S world.core)
    (hkeeps : input.KeepsOffer frames world.core world.answers) :
    Ends (fun _ core => Lower room lowerActor upperActor S core)
      (fun _ core => Lower room lowerActor upperActor S core) (input.program frames world) := by
  cases input with
  | start foundation => exact startPeer_lower hlaws h hinput hkeeps
  | renew => exact startReadyRenewals_lower hlaws h
  | deliver frame =>
    simp only [PairInput.program]
    simp only [PairInput.KeepsOffer] at hkeeps
    cases hframe : frames[frame]? with
    | none => exact Ends.pure h
    | some body =>
      obtain ⟨hsent,hevent⟩ := hframes body (List.mem_of_getElem? hframe)
      simp only [hframe] at hkeeps
      cases body with
      | offer offer => exact carrierOffer_lower hlaws hactors h hsent hkeeps
      | answer answer => exact carrierAnswer_lower hlaws h hsent hkeeps
      | event event => exact absurd rfl (hevent event)

theorem Agreeing.step (hlaws : L.RenewalPromises) (hactors : lowerActor < upperActor)
    {pair : Pair L}
    (h : Agreeing room lowerActor upperActor pair) {event : PairEvent L}
    (hevent : event.Within room lowerActor upperActor) (hkeeps : event.KeepsOffer pair) :
    Agreeing room lowerActor upperActor (pair.step event) := by
  cases event with
  | lower input answers =>
    have hlower : Lower room lowerActor upperActor pair.upper.Sent
        (pair.lower.takes pair.upper.handshakes input answers) :=
      Core.takes_ends
        (PairInput.lower hlaws hactors (fun _ => mem_handshakes) hevent h.lower hkeeps)
    have hsent : ∀ body, pair.lower.Sent body →
        (pair.lower.takes pair.upper.handshakes input answers).Sent body := by
      have hmoves : EstablishesMany (Between room lowerActor upperActor) pair.upper.Sent pair.lower
          (pair.lower.takes pair.upper.handshakes input answers) :=
        Core.takes_ends (PairInput.establishes (fun _ => mem_handshakes) hevent h.lower.side.play)
      exact (hmoves.side hlaws h.lower.side).2
    exact ⟨hlower,h.upper.mono hsent⟩
  | upper input answers =>
    have hmoves : EstablishesMany (Between room upperActor lowerActor) pair.lower.Sent pair.upper
        (pair.upper.takes pair.lower.handshakes input answers) :=
      Core.takes_ends (PairInput.establishes (fun _ => mem_handshakes) hevent h.upper.play)
    obtain ⟨hside,hsent⟩ := hmoves.side hlaws h.upper
    exact ⟨h.lower.mono hsent,hside⟩

theorem Agreeing.run (hlaws : L.RenewalPromises) (hactors : lowerActor < upperActor) {pair : Pair L}
    (h : Agreeing room lowerActor upperActor pair) {events : List (PairEvent L)}
    (hevents : ∀ event ∈ events, event.Within room lowerActor upperActor)
    (hkeeps : pair.RunKeeps events) :
    Agreeing room lowerActor upperActor (pair.run events) := by
  induction events generalizing pair with
  | nil => exact h
  | cons event rest ih =>
    exact ih (h.step hlaws hactors (hevents event List.mem_cons_self) hkeeps.1)
      (fun other hother => hevents other (List.mem_cons_of_mem event hother)) hkeeps.2

theorem Side.configured (room localActor peer : Digest) (S : SessionCarrierBody L → Prop)
    (store : RoomSessionRenewalKey → Option L.FloorBytes) (generation : Nat)
    (traceEnabled renewalTestCut : Bool) :
    Side room localActor peer S
      (Core.configured store generation traceEnabled renewalTestCut) := by
  refine ⟨⟨?_,?_,?_,rfl⟩,⟨?_,?_,.nil,?_,?_⟩,⟨?_,?_,?_⟩,⟨rfl,?_⟩⟩ <;>
    simp [Core.configured,Foundations.empty,Core.Sent]

theorem Lower.configured (room localActor peer : Digest) (S : SessionCarrierBody L → Prop)
    (store : RoomSessionRenewalKey → Option L.FloorBytes) (generation : Nat)
    (traceEnabled renewalTestCut : Bool) :
    Lower room localActor peer S
      (Core.configured store generation traceEnabled renewalTestCut) := by
  refine ⟨Side.configured room localActor peer S store generation traceEnabled renewalTestCut,
    ⟨?_,?_⟩,?_⟩ <;> simp [Core.configured,Core.Sent,Held]

theorem Agreeing.agree (hbinding : L.BindingPromises) {pair : Pair L}
    (h : Agreeing room lowerActor upperActor pair) {x y : ActiveSession L}
    (hx : pair.lower.task.active[upperActor]? = some x)
    (hy : pair.upper.task.active[lowerActor]? = some y)
    (hepoch : x.manifest.epoch = y.manifest.epoch) :
    x.sessionId = y.sessionId ∧ x.manifest = y.manifest := by
  obtain ⟨opening,hmem,hopened⟩ := h.lower.side.rise.active upperActor x hx
  rcases h.lower.apart.apart opening hmem with ⟨answer,hsent,hverified⟩ | hapart
  · exact h.upper.agree hbinding hy hepoch hsent (hopened ▸ hverified)
  · obtain ⟨other,hother,hfound⟩ := h.upper.rise.active lowerActor y hy
    rcases h.upper.established.taken other hother with
      ⟨answer,hsent,hverified⟩ | ⟨offer,hsent,hoffer⟩
    · obtain ⟨hsession,hmanifest⟩ :=
        h.lower.side.agree hbinding hx hepoch.symm hsent (hfound ▸ hverified)
      exact ⟨hsession.symm,hmanifest.symm⟩
    · -- The lower actor took its session from an Offer at the epoch of an offer of its own.
      refine absurd ?_ (hapart offer hsent)
      rw [hoffer,hfound,hopened]
      exact hepoch.symm

/-- Two tasks of one pair, whatever becomes of the frames between them: while no step of the
lower actor that takes its pending offer out is refused afterwards, active sessions of one epoch
are one session. -/
theorem sessions_agree_while_offers_are_kept (hlaws : L.RenewalPromises)
    (hbinding : L.BindingPromises) (hactors : lowerActor < upperActor)
    (lowerStore upperStore : RoomSessionRenewalKey → Option L.FloorBytes)
    (lowerGeneration upperGeneration : Nat) (lowerTrace lowerCut upperTrace upperCut : Bool)
    (events : List (PairEvent L))
    (hevents : ∀ event ∈ events, event.Within room lowerActor upperActor)
    (hkeeps : Pair.RunKeeps ⟨Core.configured lowerStore lowerGeneration lowerTrace lowerCut,
      Core.configured upperStore upperGeneration upperTrace upperCut⟩ events)
    (x y : ActiveSession L)
    (hx : (Pair.run ⟨Core.configured lowerStore lowerGeneration lowerTrace lowerCut,
      Core.configured upperStore upperGeneration upperTrace upperCut⟩
        events).lower.task.active[upperActor]? = some x)
    (hy : (Pair.run ⟨Core.configured lowerStore lowerGeneration lowerTrace lowerCut,
      Core.configured upperStore upperGeneration upperTrace upperCut⟩
        events).upper.task.active[lowerActor]? = some y)
    (hepoch : x.manifest.epoch = y.manifest.epoch) :
    x.sessionId = y.sessionId ∧ x.manifest = y.manifest := by
  have hstart : Agreeing room lowerActor upperActor
      ⟨Core.configured lowerStore lowerGeneration lowerTrace lowerCut,
        Core.configured upperStore upperGeneration upperTrace upperCut⟩ :=
    ⟨Lower.configured room lowerActor upperActor _ lowerStore lowerGeneration lowerTrace lowerCut,
      Side.configured room upperActor lowerActor _ upperStore upperGeneration upperTrace upperCut⟩
  exact (hstart.run hlaws hactors hevents hkeeps).agree hbinding hx hy hepoch

abbrev PlainPairEvent := PairEvent plainLibrary

/-- Two configured tasks, of which the upper one recovers the floors of `upperStore`. -/
def plainPair (upperStore : RoomSessionRenewalKey → Option SessionRenewalFloor) :
    Pair plainLibrary :=
  ⟨Core.configured (fun _ => none) 1 false false,Core.configured upperStore 1 false false⟩

/-- Actor 1 offers session 71, actor 2 takes it up, and actor 1 gets the Answer. -/
def offeredAndAnswered : List PlainPairEvent :=
  [.lower (.start (plainFoundation 1 2 5 0)) [{},{ randomSession := 71 }],
    .upper (.start (plainFoundation 2 1 5 0)) [],.upper (.deliver 0) [],.lower (.deliver 0) []]

/-- The first Offer comes twice more and the first Answer once more, and the Offers that actor 2
made on seeing the first one again cross the one that actor 1 made on seeing actor 2's. -/
def crossedOffers : List PlainPairEvent :=
  offeredAndAnswered ++ [.upper (.deliver 0) [{ randomSession := 82 }],.lower (.deliver 1) [],
    .upper (.deliver 1) [],.lower (.deliver 1) [{ randomSession := 73 }],
    .upper (.deliver 0) [{ randomSession := 83 }],.upper (.deliver 2) [],.lower (.deliver 0) [],
    .lower (.deliver 2) []]

theorem sessions_disagree_crossedOffers :
    (∀ event ∈ crossedOffers, event.Within 9 1 2) ∧
      ∃ x y : ActiveSession plainLibrary,
        ((plainPair fun _ => none).run crossedOffers).lower.task.active[2]? = some x ∧
          ((plainPair fun _ => none).run crossedOffers).upper.task.active[1]? = some y ∧
            x.manifest.epoch = y.manifest.epoch ∧ x.sessionId ≠ y.sessionId := by
  have hlower : (((plainPair fun _ => none).run crossedOffers).lower.task.active[2]?.map
      fun active => (active.manifest.epoch,active.sessionId)) = some (3,83) := by decide +kernel
  have hupper : (((plainPair fun _ => none).run crossedOffers).upper.task.active[1]?.map
      fun active => (active.manifest.epoch,active.sessionId)) = some (3,73) := by decide +kernel
  obtain ⟨x,hx,hsession⟩ := Option.map_eq_some_iff.mp hlower
  obtain ⟨y,hy,hother⟩ := Option.map_eq_some_iff.mp hupper
  simp only [Prod.mk.injEq] at hsession hother
  refine ⟨?_,x,y,hx,hy,by omega,by omega⟩
  simp [crossedOffers,offeredAndAnswered,PairEvent.Within,PairInput.Within,Between,AtHome,
    plainFoundation]

/-- The Answer is one to the pending offer, which can still be installed as it was made. -/
def answersOffer (core : Core plainLibrary) (answer : AnswerBody plainLibrary) : Bool :=
  match core.task.pending[answer.source]?, core.task.foundations.entries[answer.source]? with
  | some pending, some current =>
    !core.task.outgrown current pending answer.source &&
      match verifyAnswer pending answer with
      | .ok (remoteFoundation,_) => (authorizePair pending.foundation pending.manifest
          pending.localFoundation remoteFoundation pending.renewalFloor).isOk
      | .error _ => false
  | _, _ => false

theorem answerKeeps_of_answersOffer {core : Core plainLibrary} {answer : AnswerBody plainLibrary}
    (h : answersOffer core answer = true) : AnswerKeeps core answer [] := by
  intro pending hpending
  unfold answersOffer at h
  rw [hpending] at h
  cases hcurrent : core.task.foundations.entries[answer.source]? with
  | none => simp [hcurrent] at h
  | some current =>
    rw [hcurrent] at h
    simp only [Bool.and_eq_true,Bool.not_eq_true'] at h
    obtain ⟨houtgrown,h⟩ := h
    cases hverify : verifyAnswer pending answer with
    | error message => simp [hverify] at h
    | ok verified =>
      obtain ⟨remoteFoundation,keys⟩ := verified
      rw [hverify] at h
      refine ⟨by simp [Granted],remoteFoundation,keys,current,rfl,rfl,?_⟩
      rw [if_neg (by simp [houtgrown])]
      cases hauthorize : authorizePair pending.foundation pending.manifest
          pending.localFoundation remoteFoundation pending.renewalFloor with
      | error message => simp [hauthorize,Except.isOk,Except.toBool] at h
      | ok authorization => exact ⟨authorization,rfl,fun ticks => ⟨_,rfl⟩⟩

theorem offeredAndAnswered_keeps : (plainPair fun _ => none).RunKeeps offeredAndAnswered := by
  let offered := (plainPair fun _ => none).run (offeredAndAnswered.take 3)
  have hanswered : (offered.upper.handshakes[0]?.any fun body => match body with
      | .answer answer => answersOffer offered.lower answer
      | _ => false) = true := by decide +kernel
  obtain ⟨body,hbody,hanswers⟩ := (Option.any_eq_true _ _).mp hanswered
  have hidle : (plainPair fun _ => none).lower.task.pending.isEmpty = true := by decide +kernel
  have hfirst : PairInput.KeepsOffer (plainPair fun _ => none).upper.handshakes
      (plainPair fun _ => none).lower [{},{ randomSession := 71 }]
      (.start (plainFoundation 1 2 5 0)) := PairInput.keepsOffer_of_idle hidle _ _
  refine ⟨hfirst,trivial,trivial,?_,trivial⟩
  change PairInput.KeepsOffer offered.upper.handshakes offered.lower [] (.deliver 0)
  rw [PairInput.KeepsOffer,hbody]
  cases body with
  | answer answer => exact answerKeeps_of_answersOffer hanswers
  | _ => cases hanswers

theorem sessions_agree_offeredAndAnswered :
    ∃ x y : ActiveSession plainLibrary,
      ((plainPair fun _ => none).run offeredAndAnswered).lower.task.active[2]? = some x ∧
        ((plainPair fun _ => none).run offeredAndAnswered).upper.task.active[1]? = some y ∧
          x.sessionId = 71 ∧ x.sessionId = y.sessionId ∧ x.manifest = y.manifest := by
  have hlower : (((plainPair fun _ => none).run offeredAndAnswered).lower.task.active[2]?.map
      fun active => (active.manifest.epoch,active.sessionId)) = some (1,71) := by decide +kernel
  have hupper : (((plainPair fun _ => none).run offeredAndAnswered).upper.task.active[1]?.map
      fun active => active.manifest.epoch) = some 1 := by decide +kernel
  obtain ⟨x,hx,hsession⟩ := Option.map_eq_some_iff.mp hlower
  obtain ⟨y,hy,hepoch⟩ := Option.map_eq_some_iff.mp hupper
  simp only [Prod.mk.injEq] at hsession
  have hevents : ∀ event ∈ offeredAndAnswered, event.Within 9 1 2 := by
    simp [offeredAndAnswered,PairEvent.Within,PairInput.Within,Between,AtHome,plainFoundation]
  exact ⟨x,y,hx,hy,hsession.2,
    sessions_agree_while_offers_are_kept plainLibrary_renewalPromises plainLibrary_bindingPromises
      (by decide) (fun _ => none) (fun _ => none) 1 1 false false false false
      offeredAndAnswered hevents offeredAndAnswered_keeps x y hx hy
      (hsession.1.trans hepoch.symm)⟩

end Pairs

end WalkieSongie.Session
