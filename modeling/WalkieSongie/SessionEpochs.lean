import WalkieSongie.SessionRuns
set_option autoImplicit false

/-!
Epochs are never reopened: the sessions opened for one peer have rising epochs over every run
of a worker, and nothing of a session is seen before its epoch is stored.
-/

namespace WalkieSongie.Session
open TaskProgram Relation

variable {L : SessionLibrary}

theorem authorizePair_ok (hlaws : L.RenewalPromises) {foundation : RoomSessionFoundation L}
    {manifest : SessionManifest} {localSeat remoteSeat : VerifiedSeatFoundation}
    {prior : Option SessionRenewalFloor} {authorization : PairAuthorization L}
    (h : authorizePair foundation manifest localSeat remoteSeat prior = .ok authorization) :
    (∀ floor, prior = some floor → floor.epoch < manifest.epoch) ∧
      L.sessionManifest authorization.session = manifest ∧
      authorization.floor.epoch = manifest.epoch ∧
      authorization.floorBytes = L.floorToBytes authorization.floor := by
  obtain ⟨policy,-,h⟩ := bind_eq_ok.mp h
  cases prior with
  | none =>
    obtain ⟨session,hsession,h⟩ := bind_eq_ok.mp h
    cases h
    have hmanifest := hlaws.authorized _ _ _ _ _ hsession
    refine ⟨fun floor hfloor => (by cases hfloor),hmanifest,?_,rfl⟩
    rw [← hmanifest]
    exact hlaws.floor_epoch session
  | some floor =>
    obtain ⟨⟨session,next,expectedFrontier,bytes⟩,hrenewal,h⟩ := bind_eq_ok.mp h
    cases h
    obtain ⟨habove,hmanifest,hepoch,hbytes⟩ := hlaws.renewed _ _ _ _ _ _ _ _ _ hrenewal
    exact ⟨fun other hother => Option.some.inj hother ▸ habove,hmanifest,hepoch,hbytes⟩

theorem Origin.authorized {G : SessionCarrierBody L → Prop} {peer : ActorId}
    {pending? : Option (PendingSession L)} {prior : Option SessionRenewalFloor}
    {installation : Installation L} (h : Origin G peer pending? prior installation) :
    ∃ manifest localSeat remoteSeat, authorizePair installation.foundation manifest localSeat
      remoteSeat prior = .ok installation.authorization := by
  cases h with
  | answered _ _ _ _ _ hanswer =>
    obtain ⟨hfoundation,-,hauthorized,-⟩ := answerOffer_ok hanswer
    exact ⟨_,_,_,hfoundation ▸ hauthorized⟩
  | completed _ _ _ _ _ _ hauthorized hinstallation =>
    subst hinstallation
    exact ⟨_,_,_,hauthorized⟩

/-- The only frame that installing a session sends is the Answer to an offer of its peer. -/
theorem Origin.carrier {G : SessionCarrierBody L → Prop} {peer : ActorId}
    {pending? : Option (PendingSession L)} {prior : Option SessionRenewalFloor}
    {installation : Installation L} (h : Origin G peer pending? prior installation)
    {body : SessionCarrierBody L} (hbody : installation.carrier = some body) :
    ∃ answer, body = .answer answer ∧ answer.target = peer ∧
      answer.sessionId = installation.sessionId := by
  cases h with
  | answered _ hsource _ _ _ hanswer =>
    obtain ⟨-,hsession,-,handshake,hcarrier⟩ := answerOffer_ok hanswer
    rw [hcarrier] at hbody
    cases hbody
    exact ⟨_,rfl,hsource,hsession.symm⟩
  | completed _ _ _ _ _ _ _ hinstallation =>
    subst hinstallation
    cases hbody

def AtHome (room localActor : Digest) (foundation : RoomSessionFoundation L) : Prop :=
  foundation.identity.object = room ∧ foundation.localActor = localActor

theorem AtHome.stable (room localActor : Digest) :
    Stable (AtHome (L := L) room localActor) :=
  fun _ _ _ _ h => h

theorem AtHome.renewalKey {room localActor : Digest} {foundation : RoomSessionFoundation L}
    (h : AtHome room localActor foundation) :
    renewalKey foundation = ⟨room,localActor,foundation.peer⟩ := by
  rw [Session.renewalKey,h.1,h.2]

/-- The floor stored under the key is at this epoch or above it. -/
def StoredAtLeast (core : Core L) (key : RoomSessionRenewalKey) (epoch : Nat) : Prop :=
  ∃ bytes floor, core.store key = some bytes ∧ L.floorFromBytes bytes = .ok floor ∧
    epoch ≤ floor.epoch

/-- Of two openings for one peer, the later one is of a higher epoch, or it installs the session
that the earlier one announced. -/
def Opening.After (later earlier : Opening) : Prop :=
  later.session.peer = earlier.session.peer →
    earlier.session.epoch < later.session.epoch ∨
      (earlier.stage = .announced ∧ later.stage = .installed ∧ earlier.session = later.session)

/-- What is emitted belongs to sessions that have been opened. -/
def RoomSessionEgress.Opened (openings : List Opening) (event : RoomSessionEgress L) : Prop :=
  (∀ projection, event.projection? = some projection →
    ∃ opening ∈ openings, projection.Of opening.session) ∧
  ∀ answer, event.carrier? = some (.answer answer) →
    ∃ opening ∈ openings, opening.stage = .announced ∧ opening.session.peer = answer.target ∧
      opening.session.sessionId = answer.sessionId

theorem RoomSessionEgress.Opened.mono {openings more : List Opening}
    {event : RoomSessionEgress L} (h : event.Opened openings) (hmore : openings ⊆ more) :
    event.Opened more := by
  refine ⟨fun projection hprojection => ?_,fun answer hanswer => ?_⟩
  · obtain ⟨opening,hmem,hof⟩ := h.1 projection hprojection
    exact ⟨opening,hmore hmem,hof⟩
  · obtain ⟨opening,hmem,hof⟩ := h.2 answer hanswer
    exact ⟨opening,hmore hmem,hof⟩

/-- The floor in the store, the cached floor, the active session and what was seen of a peer's
sessions, related to its openings. -/
structure EpochsRise (room localActor : Digest) (core : Core L) : Prop where
  stored : ∀ opening ∈ core.journal.openings,
    StoredAtLeast core ⟨room,localActor,opening.session.peer⟩ opening.session.epoch
  cached : ∀ (peer : ActorId) floor?, core.task.renewalFloors[peer]? = some floor? →
    ∀ opening ∈ core.journal.openings, opening.session.peer = peer →
      ∃ floor, floor? = some floor ∧ opening.session.epoch ≤ floor.epoch
  ordered : core.journal.openings.Pairwise Opening.After
  active : ∀ (peer : ActorId) active, core.task.active[peer]? = some active →
    ∃ opening ∈ core.journal.openings, opening.session = active.identity
  egress : ∀ event ∈ core.egress, event.Opened core.journal.openings

section Installation

variable {room localActor : Digest} {core : Core L} {peer : ActorId}
  {installation : Installation L}

structure Opens (room localActor : Digest) (core : Core L) (peer : ActorId)
    (installation : Installation L) : Prop where
  key : renewalKey installation.foundation = ⟨room,localActor,peer⟩
  addressed : installation.identity.peer = peer
  bytes : L.floorFromBytes installation.authorization.floorBytes =
    .ok installation.authorization.floor
  epoch : installation.authorization.floor.epoch = installation.identity.epoch
  above : ∀ opening ∈ core.journal.openings, opening.session.peer = peer →
    opening.session.epoch < installation.identity.epoch
  carrier : ∀ answer, installation.carrier = some (.answer answer) → answer.target = peer ∧
    answer.sessionId = installation.identity.sessionId

theorem Ready.opens {G : SessionCarrierBody L → Prop} (hlaws : L.RenewalPromises)
    (hrise : EpochsRise room localActor core)
    (h : Ready (AtHome room localActor) G core peer installation) :
    Opens room localActor core peer installation := by
  obtain ⟨prior,hprior,horigin,-⟩ := h.origin
  obtain ⟨manifest,localSeat,remoteSeat,hauthorized⟩ := horigin.authorized
  obtain ⟨habove,hmanifest,hepoch,hbytes⟩ := authorizePair_ok hlaws hauthorized
  have hidentity : installation.identity.epoch = manifest.epoch := by
    rw [Installation.identity,hmanifest]
  refine ⟨?_,h.addressed,?_,hepoch.trans hidentity.symm,fun opening hmem hpeer => ?_,?_⟩
  · rw [h.founded.renewalKey,h.addressed]
  · rw [hbytes]
    exact hlaws.floor_bytes _
  · obtain ⟨floor,hfloor,hle⟩ := hrise.cached peer prior hprior opening hmem hpeer
    rw [hidentity]
    exact Nat.lt_of_le_of_lt hle (habove floor hfloor)
  · rintro answer hanswer
    obtain ⟨found,hfound,htarget,hsession⟩ := horigin.carrier hanswer
    cases hfound
    exact ⟨htarget,hsession⟩

theorem Opens.drops (h : Opens room localActor core peer installation) (other : ActorId) :
    Opens room localActor (core.drops other) peer installation := ⟨h.1,h.2,h.3,h.4,h.5,h.6⟩

theorem Installation.Opens.identity {active : ActiveSession L}
    (h : installation.Opens active) : active.identity = installation.identity := by
  obtain ⟨ticks,hnew⟩ := h
  obtain ⟨hfoundation,hsession,hnumber,-⟩ := ActiveSession.new_ok hnew
  rw [ActiveSession.identity,ActiveSession.manifest,hfoundation,hsession,hnumber]
  rfl

theorem EpochsRise.drops (h : EpochsRise room localActor core) (other : ActorId) :
    EpochsRise room localActor (core.drops other) := ⟨h.1,h.2,h.3,h.4,h.5⟩

theorem storedAtLeast_stores {key other : RoomSessionRenewalKey} {bytes : L.FloorBytes}
    {floor : SessionRenewalFloor} {epoch : Nat} (hbytes : L.floorFromBytes bytes = .ok floor)
    (hsame : other = key → epoch ≤ floor.epoch) (h : other ≠ key → StoredAtLeast core other epoch) :
    StoredAtLeast (core.stores key bytes) other epoch := by
  by_cases hkey : other = key
  · subst hkey
    exact ⟨bytes,floor,Function.update_self _ _ _,hbytes,hsame rfl⟩
  · obtain ⟨found,decoded,hstore,hdecoded,hle⟩ := h hkey
    exact ⟨found,decoded,(Function.update_of_ne hkey _ _).trans hstore,hdecoded,hle⟩

theorem EpochsRise.stored_ends (h : EpochsRise room localActor core)
    (hopens : Opens room localActor core peer installation) :
    EpochsRise room localActor (installation.stored core) := by
  refine ⟨fun opening hmem => ?_,h.2,h.3,h.4,h.5⟩
  refine storedAtLeast_stores hopens.bytes (fun hkey => ?_) fun _ => h.stored opening hmem
  rw [hopens.key,RoomSessionRenewalKey.mk.injEq] at hkey
  exact hopens.epoch ▸ (hopens.above opening hmem hkey.2.2).le

theorem EpochsRise.cached_ends (h : EpochsRise room localActor core)
    (hopens : Opens room localActor core peer installation) :
    EpochsRise room localActor (installation.cached peer core) := by
  have hstored := h.stored_ends hopens
  refine ⟨hstored.1,fun other floor? hfloor opening hmem hpeer => ?_,h.3,h.4,h.5⟩
  simp only [Installation.cached,Core.cachesFloor,Core.mapTask,
    Std.ExtTreeMap.getElem?_insert] at hfloor
  split at hfloor
  · rename_i hother
    cases hfloor
    refine ⟨_,rfl,hopens.epoch ▸ (hopens.above opening hmem ?_).le⟩
    exact hpeer.trans (Std.LawfulEqOrd.eq_of_compare hother).symm
  · exact h.cached other floor? hfloor opening hmem hpeer

/-- Opening a session for which the floor is stored and cached, after earlier openings only. -/
theorem EpochsRise.opens_of (h : EpochsRise room localActor core) {opening : Opening}
    (hstored : StoredAtLeast core ⟨room,localActor,opening.session.peer⟩ opening.session.epoch)
    (hcached : ∃ floor, core.task.renewalFloors[opening.session.peer]? = some (some floor) ∧
      opening.session.epoch ≤ floor.epoch)
    (hafter : ∀ earlier ∈ core.journal.openings, opening.After earlier) :
    EpochsRise room localActor (core.opens [opening]) := by
  have hsub : core.journal.openings ⊆ (core.opens [opening]).journal.openings :=
    fun _ => List.mem_cons_of_mem opening
  refine ⟨fun other hmem => ?_,fun peer floor? hfloor other hmem hpeer => ?_,?_,?_,?_⟩
  · rcases List.mem_cons.mp hmem with rfl | hmem
    · exact hstored
    · exact h.stored other hmem
  · rcases List.mem_cons.mp hmem with rfl | hmem
    · obtain ⟨floor,hcached,hle⟩ := hcached
      subst hpeer
      exact ⟨floor,Option.some.inj (hfloor.symm.trans hcached),hle⟩
    · exact h.cached peer floor? hfloor other hmem hpeer
  · exact List.pairwise_cons.mpr ⟨hafter,h.ordered⟩
  · intro other active hactive
    obtain ⟨found,hmem,hsession⟩ := h.active other active hactive
    exact ⟨found,hsub hmem,hsession⟩
  · exact fun event hevent => (h.egress event hevent).mono hsub

theorem EpochsRise.emits (h : EpochsRise room localActor core) {event : RoomSessionEgress L}
    (hevent : event.Opened core.journal.openings) :
    EpochsRise room localActor { core with egress := event :: core.egress } := by
  refine ⟨h.1,h.2,h.3,h.4,fun other hother => ?_⟩
  rcases List.mem_cons.mp hother with rfl | hother
  · exact hevent
  · exact h.egress other hother

/-- The floor of the session is in place, and the session is not opened yet, or only announced. -/
structure Placed (room localActor : Digest) (core : Core L) (session : RoomSessionEpochIdentity) :
    Prop where
  rise : EpochsRise room localActor core
  stored : StoredAtLeast core ⟨room,localActor,session.peer⟩ session.epoch
  cached : ∃ floor, core.task.renewalFloors[session.peer]? = some (some floor) ∧
    session.epoch ≤ floor.epoch
  above : ∀ earlier ∈ core.journal.openings, earlier.session.peer = session.peer →
    earlier.session.epoch < session.epoch ∨
      (earlier.stage = .announced ∧ earlier.session = session)

theorem Placed.opens {session : RoomSessionEpochIdentity} (h : Placed room localActor core session)
    {stage : OpeningStage} (hstage : stage = .announced → ∀ earlier ∈ core.journal.openings,
      earlier.session.peer = session.peer → earlier.session.epoch < session.epoch) :
    EpochsRise room localActor (core.opens [⟨session,stage⟩]) := by
  refine h.rise.opens_of h.stored h.cached fun earlier hmem hpeer => ?_
  cases stage with
  | announced => exact .inl (hstage rfl earlier hmem hpeer.symm)
  | installed =>
    rcases h.above earlier hmem hpeer.symm with habove | ⟨hstage,hsession⟩
    · exact .inl habove
    · exact .inr ⟨hstage,rfl,hsession⟩

theorem EpochsRise.placed (h : EpochsRise room localActor core)
    (hopens : Opens room localActor core peer installation) :
    Placed room localActor (installation.cached peer core) installation.identity := by
  refine ⟨h.cached_ends hopens,?_,⟨_,?_,hopens.epoch.ge⟩,fun earlier hmem hpeer => .inl ?_⟩
  · rw [hopens.addressed]
    exact ⟨_,_,(congrArg _ hopens.key.symm).trans (Function.update_self _ _ _),hopens.bytes,
      hopens.epoch.ge⟩
  · rw [hopens.addressed]
    exact Std.ExtTreeMap.getElem?_insert_self
  · exact hopens.above earlier hmem (hpeer.trans hopens.addressed)

theorem Placed.sends {session : RoomSessionEpochIdentity} (h : Placed room localActor core session)
    (hnew : ∀ earlier ∈ core.journal.openings, earlier.session.peer = session.peer →
      earlier.session.epoch < session.epoch) {event : RoomSessionEgress L}
    (hevent : event.Opened (⟨session,.announced⟩ :: core.journal.openings)) :
    Placed room localActor (core.sends [⟨session,.announced⟩] event) session := by
  refine ⟨(h.opens fun _ => hnew).emits hevent,h.stored,h.cached,fun earlier hmem hpeer => ?_⟩
  rcases List.mem_cons.mp hmem with rfl | hmem
  · exact .inr ⟨rfl,rfl⟩
  · exact h.above earlier hmem hpeer

theorem EpochsRise.staged (h : EpochsRise room localActor core)
    (hopens : Opens room localActor core peer installation) {active : ActiveSession L}
    (hactive : installation.Opens active) :
    Placed room localActor
      ((installation.cached peer core).stages peer active installation.carrier)
      active.identity := by
  have hplaced := h.placed hopens
  rw [← hactive.identity] at hplaced
  have hnew : ∀ earlier ∈ core.journal.openings,
      earlier.session.peer = active.identity.peer →
        earlier.session.epoch < active.identity.epoch := by
    rw [hactive.identity,hopens.addressed]
    exact hopens.above
  have hanswer : ∀ answer, installation.carrier = some (.answer answer) →
      ∃ opening ∈ (⟨active.identity,.announced⟩ :: core.journal.openings : List Opening),
        opening.stage = .announced ∧ opening.session.peer = answer.target ∧
          opening.session.sessionId = answer.sessionId := by
    intro answer hcarrier
    obtain ⟨htarget,hsession⟩ := hopens.carrier answer hcarrier
    refine ⟨_,List.mem_cons_self,rfl,?_,?_⟩
    · rw [htarget,hactive.identity]
      exact hopens.addressed
    · rw [hsession,hactive.identity]
  unfold Core.stages
  split
  · refine hplaced.sends hnew ⟨fun projection hprojection => ?_,fun answer hcarrier => ?_⟩
    · cases hprojection
      exact ⟨_,List.mem_cons_self,rfl,rfl,rfl⟩
    · exact hanswer answer hcarrier
  · cases hcarrier : installation.carrier with
    | none => exact hplaced
    | some body =>
      refine hplaced.sends hnew ⟨fun _ hprojection => (by cases hprojection),
        fun answer hbody => ?_⟩
      exact hanswer answer (hcarrier.trans hbody)

theorem EpochsRise.installed (h : EpochsRise room localActor core)
    (hopens : Opens room localActor core peer installation) {active : ActiveSession L}
    (hactive : installation.Opens active) :
    EpochsRise room localActor
      (((installation.cached peer core).stages peer active installation.carrier).activates
        peer active) := by
  have hnew : OpeningStage.installed = .announced →
    ∀ earlier ∈ ((installation.cached peer core).stages
      peer active installation.carrier).journal.openings, earlier.session.peer =
        active.identity.peer → earlier.session.epoch < active.identity.epoch :=
    fun hstage => by cases hstage
  have hrise := (h.staged hopens hactive).opens hnew
  refine ⟨hrise.1,hrise.2,hrise.3,fun other found hfound => ?_,hrise.5⟩
  simp only [Core.activates,Core.mapTask,Std.ExtTreeMap.getElem?_insert] at hfound
  split at hfound
  · cases hfound
    exact ⟨_,List.mem_cons_self,rfl⟩
  · exact hrise.active other found hfound

end Installation

section Runs

variable {room localActor : Digest} {G : SessionCarrierBody L → Prop} {before after : Core L}

theorem Renews.epochsRise (hplay : InPlay (AtHome room localActor) before)
    (hmove : Renews (AtHome room localActor) before after)
    (h : EpochsRise room localActor before) : EpochsRise room localActor after := by
  cases hmove with
  | @recovered foundation floor hfoundation habsent hload =>
    refine ⟨h.1,fun peer floor? hfloor opening hmem hpeer => ?_,h.3,h.4,h.5⟩
    simp only [Core.cachesFloor,Core.mapTask,Std.ExtTreeMap.getElem?_insert] at hfloor
    split at hfloor
    · rename_i hother
      cases hfloor
      obtain ⟨bytes,stored,hstore,hdecoded,hle⟩ := h.stored opening hmem
      rw [hfoundation.renewalKey,Std.LawfulEqOrd.eq_of_compare hother,← hpeer,hstore] at hload
      simp only [decodeFloor,hdecoded] at hload
      cases hload
      exact ⟨stored,rfl,hle⟩
    · exact h.cached peer floor? hfloor opening hmem hpeer
  | proposed => exact ⟨h.1,h.2,h.3,h.4,h.5⟩
  | @offered peer pending hpending =>
    obtain ⟨-,-,⟨epoch,sessionId,secret,-,hoffer⟩,-⟩ := hplay.pending peer pending hpending
    obtain ⟨handshake,presentation,hcarrier⟩ := (buildOffer_ok hoffer).carrier
    rw [hcarrier]
    exact h.emits ⟨fun _ h => (by cases h),fun _ h => by cases h⟩
  | traced trace =>
    exact h.emits ⟨fun _ h => (by cases h),fun _ h => by cases h⟩
  | noted => exact ⟨h.1,h.2,h.3,h.4,h.5⟩

theorem Establishes.epochsRise (hlaws : L.RenewalPromises)
    (hplay : InPlay (AtHome room localActor) before)
    (hmove : Establishes (AtHome room localActor) G before after)
    (h : EpochsRise room localActor before) : EpochsRise room localActor after := by
  cases hmove with
  | renews hrenews => exact hrenews.epochsRise hplay h
  | founded hfounded => exact ⟨h.1,h.2,h.3,h.4,h.5⟩
  | dropped peer => exact h.drops peer
  | @installs _ peer installation hready hends =>
    have hopens := (hready.opens hlaws h).drops peer
    have hdrops := h.drops peer
    cases hends with
    | refused => exact hdrops
    | stored => exact hdrops.stored_ends hopens
    | cached hactive => exact hdrops.cached_ends hopens
    | staged _ hactive => exact (hdrops.staged hopens hactive).rise
    | installed hactive => exact hdrops.installed hopens hactive

theorem Moves.epochsRise (hlaws : L.RenewalPromises)
    (hplay : InPlay (AtHome room localActor) before)
    (hmove : Moves (AtHome room localActor) G before after)
    (h : EpochsRise room localActor before) : EpochsRise room localActor after := by
  cases hmove with
  | establishes hestablishes => exact hestablishes.epochsRise hlaws hplay h
  | @served peer old new hactive hkeeps =>
    refine ⟨h.1,h.2,h.3,fun other found hfound => ?_,h.5⟩
    simp only [Core.serves,Core.mapTask,Std.ExtTreeMap.getElem?_insert] at hfound
    split at hfound
    · cases hfound
      rw [hkeeps.identity]
      exact h.active peer old hactive
    · exact h.active other found hfound
  | @published peer active event hactive hof hcarrier =>
    obtain ⟨opening,hmem,hsession⟩ := h.active peer active hactive
    refine h.emits ⟨fun projection hprojection => ?_,fun answer hanswer => ?_⟩
    · cases hprojection
      exact ⟨opening,hmem,hsession ▸ hof⟩
    · obtain ⟨frame,hframe⟩ := hcarrier _ hanswer
      cases hframe
  | @spoke event hprojection hcarrier =>
    refine h.emits ⟨fun projection hfound => ?_,fun answer hanswer => ?_⟩
    · rw [hprojection] at hfound
      cases hfound
    · rw [hcarrier] at hanswer
      cases hanswer
  | ended terminal =>
    refine ⟨h.1,h.2,h.3,fun peer active hactive => ?_,h.5⟩
    simp [Core.ends] at hactive
  | configured | inflight | queued | ingested | confirmed =>
    exact ⟨h.1,h.2,h.3,h.4,h.5⟩

theorem EpochsRise.restart (h : EpochsRise room localActor before) :
    EpochsRise room localActor before.restart := by
  refine ⟨h.1,fun peer floor? hfloor => ?_,h.3,fun peer active hactive => ?_,h.5⟩
  · simp [Core.restart] at hfloor
  · simp [Core.restart] at hactive

/-- Over every run of one actor's workers in one room, cut by crashes anywhere: the sessions
opened for a peer have rising epochs, a session announced or installed has its epoch stored,
every active session has been opened, and every projection and every Answer that was emitted is
of a session that has been. -/
theorem session_epochs_rise (hlaws : L.RenewalPromises) (room localActor : Digest)
    (store : RoomSessionRenewalKey → Option L.FloorBytes) (events : List (WorkerEvent L))
    (hevents : ∀ event ∈ events, event.Within (AtHome room localActor) fun _ => True) :
    ((Core.run { store := store } events).journal.openings.Pairwise Opening.After) ∧
      (∀ opening ∈ (Core.run { store := store } events).journal.openings,
        StoredAtLeast (Core.run { store := store } events)
          ⟨room,localActor,opening.session.peer⟩ opening.session.epoch) ∧
      (∀ (peer : ActorId) active,
        (Core.run { store := store } events).task.active[peer]? = some active →
          ∃ opening ∈ (Core.run { store := store } events).journal.openings,
            opening.session = active.identity) ∧
      ∀ event ∈ (Core.run { store := store } events).egress,
        event.Opened (Core.run { store := store } events).journal.openings := by
  have hstart : EpochsRise room localActor ({ store := store } : Core L) := by
    refine ⟨?_,?_,.nil,?_,?_⟩ <;> simp
  have hplay : InPlay (AtHome room localActor) ({ store := store } : Core L) :=
    InPlay.restart { store := store }
  obtain ⟨-,hrise⟩ := Core.run_induct (AtHome.stable room localActor)
    (fun _ _ hplay h hmove => Moves.epochsRise hlaws hplay hmove h)
    (fun _ h => h.restart) hplay hstart hevents
  exact ⟨hrise.ordered,hrise.stored,hrise.active,hrise.egress⟩

/-- Actor 2 stores the floor of actor 1's offer, answers it, and crashes before it installs. -/
def answeredThenCrashed : List PlainEvent :=
  let offering : Core plainLibrary := Core.run {} [plainConfigure,plainStart 1 2 5 0 77]
  [plainConfigure,plainStart 2 1 5 0 88] ++ offering.frames.map fun offer =>
    plainDeliver offer [{},{},{},{ reply := .crash, performed := true }]

/-- After the crash actor 1 offers a session over the stored floor, and actor 2 installs it. -/
def answeredAgain : List PlainEvent :=
  let offering : Core plainLibrary :=
    Core.run { store := fun _ => some ⟨1,0,{5}⟩ } [plainConfigure,plainStart 1 2 5 0 78]
  answeredThenCrashed ++ [plainConfigure,plainStart 2 1 5 0 89] ++
    offering.frames.map fun offer => plainDeliver offer []

theorem answeredAgain_within : ∀ event ∈ answeredAgain,
    event.Within (AtHome 9 2) fun _ => True := by
  intro event hevent
  simp only [answeredAgain,answeredThenCrashed,List.mem_append,List.mem_map,List.mem_cons,
    List.not_mem_nil,or_false] at hevent
  obtain (((rfl | rfl) | ⟨offer,-,rfl⟩) | rfl | rfl) | ⟨offer,-,rfl⟩ := hevent
  · trivial
  · exact ⟨rfl,rfl⟩
  · trivial
  · trivial
  · exact ⟨rfl,rfl⟩
  · trivial

theorem session_epochs_rise_answeredAgain :
    (Core.run { store := fun _ => none } answeredAgain).journal.openings.map
        (fun opening => (opening.session.epoch,opening.stage)) =
          [(2,.installed),(2,.announced),(1,.announced)] ∧
      (Core.run { store := fun _ => none } answeredAgain).journal.openings.Pairwise
        Opening.After :=
  ⟨by decide +kernel,(session_epochs_rise plainLibrary_renewalPromises 9 2 (fun _ => none)
    answeredAgain answeredAgain_within).1⟩

end Runs

end WalkieSongie.Session
