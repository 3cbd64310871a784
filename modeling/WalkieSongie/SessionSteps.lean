import Mathlib.Logic.Relation
import WalkieSongie.SessionLive
set_option autoImplicit false

/-!
The single changes that handlers are made of. A handler's run, however it ends, is a sequence
of these; what every one of them keeps is kept by every run.
-/

namespace WalkieSongie.Session
open TaskProgram Relation

variable {L : SessionLibrary} {α : Type}

section Renewals

def Core.cachesFloor (peer : ActorId) (floor : Option SessionRenewalFloor) (core : Core L) :
    Core L :=
  core.mapTask fun task => { task with renewalFloors := task.renewalFloors.insert peer floor }

def Core.proposes (peer : ActorId) (pending : PendingSession L) (core : Core L) : Core L :=
  core.mapTask fun task => { task with
    pending := task.pending.insert peer pending
    renewalNeeded := task.renewalNeeded.erase peer }

def Core.notes (needed : Std.ExtTreeSet ActorId) (consumed : Bool) (core : Core L) : Core L :=
  core.mapTask fun task => { task with
    renewalNeeded := needed
    renewalTestCutConsumed := consumed }

/-- The changes of making an offer, with foundations that have a property. -/
inductive Renews (F : RoomSessionFoundation L → Prop) : Core L → Core L → Prop where
  | recovered {core : Core L} {foundation : RoomSessionFoundation L}
      {floor : Option SessionRenewalFloor} (hfoundation : F foundation)
      (habsent : core.task.renewalFloors[foundation.peer]? = none)
      (hload : decodeFloor L (core.store (renewalKey foundation)) = .ok floor) :
      Renews F core (core.cachesFloor foundation.peer floor)
  | proposed {core : Core L} {foundation : RoomSessionFoundation L}
      {floor : Option SessionRenewalFloor} {epoch sessionId secret : Nat}
      {pending : PendingSession L} (hfoundation : F foundation)
      (hpending : foundation.peer ∉ core.task.pending)
      (hrecovery : core.task.peerHasRecoveryWork foundation.peer = false)
      (hwait : core.task.hasLocalReificationWait foundation.peer = false)
      (hfloor : core.task.renewalFloors[foundation.peer]? = some floor)
      (hepoch : proposedEpoch L floor = .ok epoch)
      (hoffer : buildOffer foundation floor epoch sessionId secret = .ok pending) :
      Renews F core (core.proposes foundation.peer pending)
  | offered {core : Core L} {peer : ActorId} {pending : PendingSession L}
      (hpending : core.task.pending[peer]? = some pending) :
      Renews F core (core.sends [] (.carrier pending.offerCarrier))
  | traced {core : Core L} (trace : RoomSessionRenewalTrace) :
      Renews F core (core.sends [] (.renewalTrace trace))
  | noted {core : Core L} (needed : Std.ExtTreeSet ActorId) (consumed : Bool) :
      Renews F core (core.notes needed consumed)

abbrev RenewsMany (F : RoomSessionFoundation L → Prop) : Core L → Core L → Prop :=
  ReflTransGen (Renews F)

/-- What making offers leaves as it is. -/
structure KeptByRenewals (before after : Core L) : Prop where
  foundations : after.task.foundations = before.task.foundations
  active : after.task.active = before.task.active
  retired : after.task.retired = before.task.retired
  inflight : after.task.inflightReifications = before.task.inflightReifications
  presentation : after.task.presentationPeer = before.task.presentationPeer
  events : after.task.events = before.task.events
  store : after.store = before.store
  queue : after.queue = before.queue
  journal : after.journal = before.journal

variable {F : RoomSessionFoundation L → Prop}

theorem KeptByRenewals.refl (core : Core L) : KeptByRenewals core core :=
  ⟨rfl,rfl,rfl,rfl,rfl,rfl,rfl,rfl,rfl⟩

theorem KeptByRenewals.trans {first second third : Core L} (h : KeptByRenewals first second)
    (h' : KeptByRenewals second third) : KeptByRenewals first third where
  foundations := h'.foundations.trans h.foundations
  active := h'.active.trans h.active
  retired := h'.retired.trans h.retired
  inflight := h'.inflight.trans h.inflight
  presentation := h'.presentation.trans h.presentation
  events := h'.events.trans h.events
  store := h'.store.trans h.store
  queue := h'.queue.trans h.queue
  journal := h'.journal.trans h.journal

theorem Renews.kept {before after : Core L} (h : Renews F before after) :
    KeptByRenewals before after := by
  cases h <;> exact ⟨rfl,rfl,rfl,rfl,rfl,rfl,rfl,rfl,rfl⟩

theorem RenewsMany.kept {before after : Core L} (h : RenewsMany F before after) :
    KeptByRenewals before after := by
  induction h with
  | refl => exact .refl before
  | tail _ hlast ih => exact ih.trans hlast.kept

variable {world : World L}

theorem Ends.emitRenewalTrace {Q : Unit → Core L → Prop} {E : Stop → Core L → Prop}
    {stage : RoomSessionRenewalTraceStage} {peer : ActorId} {epoch : Nat} {floorEpoch : Option Nat}
    (hsame : Q () world.core) (hsent : ∀ trace, Q () (world.core.sends [] (.renewalTrace trace)))
    (herror : ∀ stop, E stop world.core)
    (hcrash : ∀ trace, E .crash (world.core.sends [] (.renewalTrace trace))) :
    Ends Q E (Session.emitRenewalTrace stage peer epoch floorEpoch world) :=
  Ends.getTask <| Ends.branch (fun _ => Ends.emit (hsent _) herror (hcrash _))
    fun _ => Ends.pure hsame

/-- The floor has been looked up; nothing but the cached floors may have changed in the task. -/
structure Loaded (F : RoomSessionFoundation L → Prop) (before : Core L) (peer : ActorId)
    (floor : Option SessionRenewalFloor) (after : Core L) : Prop where
  renews : RenewsMany F before after
  floor : after.task.renewalFloors[peer]? = some floor
  task : after.task = { before.task with renewalFloors := after.task.renewalFloors }

theorem loadRenewalFloor_ends {foundation : RoomSessionFoundation L} (hfoundation : F foundation) :
    Ends (fun floor core => Loaded F world.core foundation.peer floor core)
      (fun _ core => RenewsMany F world.core core) (loadRenewalFloor foundation world) := by
  refine Ends.getTask ?_
  cases hfloor : world.core.task.renewalFloors[foundation.peer]? with
  | some floor => exact Ends.pure ⟨.refl,hfloor,rfl⟩
  | none =>
    have hload : Ends (fun encoded core => core = world.core ∧
        encoded = world.core.store (renewalKey foundation)) (fun _ core => core = world.core)
        (loadFloorBytes (renewalKey foundation) world) :=
      Ends.bind (R := fun _ core => core = world.core)
        (Ends.effect (fun _ => rfl) (fun _ => rfl) rfl fun _ _ => rfl)
        fun _ after hafter => ⟨hafter,by rw [← hafter]⟩
    refine Ends.bind (Ends.mono hload (fun _ _ h => h) fun _ _ h => h ▸ .refl)
      fun encoded after ⟨hcore,hencoded⟩ => ?_
    refine Ends.check (fun floor hdecode => ?_) fun _ _ => hcore ▸ .refl
    have htraced : Ends (fun _ core => RenewsMany F world.core core ∧
        core.task = world.core.task ∧ core.store = world.core.store)
        (fun _ core => RenewsMany F world.core core)
        (traceRecoveredFloor foundation.peer floor after) := by
      cases floor with
      | none => exact Ends.pure (hcore ▸ ⟨.refl,rfl,rfl⟩)
      | some recovered =>
        exact Ends.emitRenewalTrace (hcore ▸ ⟨.refl,rfl,rfl⟩)
          (fun trace => hcore ▸ ⟨.single (.traced trace),rfl,rfl⟩) (fun _ => hcore ▸ .refl)
          fun trace => hcore ▸ .single (.traced trace)
    refine Ends.bind htraced fun _ traced ⟨hrenews,htask,hstore⟩ => ?_
    refine Ends.bind (R := fun _ core => core = traced.core.cachesFloor foundation.peer floor)
      (Ends.modifyTask rfl) fun _ cached hcached => Ends.pure ?_
    rw [hencoded,← hstore] at hdecode
    rw [← htask] at hfloor
    rw [hcached]
    refine ⟨hrenews.tail (.recovered hfoundation hfloor hdecode),?_,?_⟩
    · exact Std.ExtTreeMap.getElem?_insert_self
    · simp only [Core.cachesFloor,Core.mapTask,htask]

theorem proposeSession_renews {foundation : RoomSessionFoundation L} (hfoundation : F foundation)
    (hpending : foundation.peer ∉ world.core.task.pending)
    (hrecovery : world.core.task.peerHasRecoveryWork foundation.peer = false)
    (hwait : world.core.task.hasLocalReificationWait foundation.peer = false) :
    Ends (fun _ core => RenewsMany F world.core core ∧ foundation.peer ∈ core.task.pending)
      (fun _ core => RenewsMany F world.core core)
      (proposeSession foundation world) := by
  refine Ends.bind (loadRenewalFloor_ends hfoundation) fun floor loaded hloaded => ?_
  refine Ends.getTask <| Ends.refuseIf (fun _ => hloaded.renews) fun _ => ?_
  refine Ends.check (fun epoch hepoch => ?_) fun _ _ => hloaded.renews
  have hdraw : Ends (fun _ core => core = loaded.core) (fun _ core => core = loaded.core)
      (drawRandom loaded) :=
    Ends.bind (R := fun _ core => core = loaded.core)
      (Ends.effect (fun _ => rfl) (fun _ => rfl) rfl fun _ _ => rfl) fun _ _ h => h
  refine Ends.bind (Ends.mono hdraw (fun _ _ h => h) fun _ _ h => h ▸ hloaded.renews)
    fun (sessionId,secret) drawn hdrawn => ?_
  refine Ends.check (fun pending hoffer => ?_) fun _ _ => hdrawn ▸ hloaded.renews
  refine Ends.bind (R := fun _ core => core = loaded.core.proposes foundation.peer pending)
    (Ends.modifyTask (hdrawn ▸ rfl)) fun _ proposed hproposed => ?_
  have hproposes : RenewsMany F world.core (loaded.core.proposes foundation.peer pending) := by
    refine hloaded.renews.tail (.proposed hfoundation ?_ ?_ ?_ hloaded.floor hepoch hoffer)
    · rw [hloaded.task]
      exact hpending
    · rw [hloaded.task]
      exact hrecovery
    · rw [hloaded.task]
      exact hwait
  have hmine : (loaded.core.proposes foundation.peer pending).task.pending[foundation.peer]? =
      some pending := Std.ExtTreeMap.getElem?_insert_self
  have hin : foundation.peer ∈ (loaded.core.proposes foundation.peer pending).task.pending :=
    Std.ExtTreeMap.mem_insert_self
  refine Ends.bind (R := fun _ core => RenewsMany F world.core core ∧
      core.task = (loaded.core.proposes foundation.peer pending).task) ?_
    fun _ traced ⟨htraced,htask⟩ => ?_
  · rw [← hproposed] at hproposes ⊢
    exact Ends.emitRenewalTrace ⟨hproposes,rfl⟩
      (fun trace => ⟨hproposes.tail (.traced trace),rfl⟩) (fun _ => hproposes)
      fun trace => hproposes.tail (.traced trace)
  · rw [← htask] at hmine hin
    exact Ends.emit ⟨htraced.tail (.offered hmine),hin⟩ (fun _ => htraced)
      (htraced.tail (.offered hmine))

theorem beginSession_renews {foundation : RoomSessionFoundation L} (hfoundation : F foundation) :
    Ends (fun _ core => RenewsMany F world.core core ∧ foundation.peer ∈ core.task.pending)
      (fun _ core => RenewsMany F world.core core)
      (beginSession foundation world) := by
  refine Ends.getTask <| Ends.branch (fun h => Ends.pure ⟨.refl,h⟩) fun hpending => ?_
  refine Ends.refuseIf (fun _ => .refl) fun hrecovery => ?_
  refine Ends.refuseIf (fun _ => .refl) fun hwait => ?_
  exact proposeSession_renews hfoundation hpending (Bool.eq_false_iff.mpr hrecovery)
    (Bool.eq_false_iff.mpr hwait)

/-- The foundations that renewals are started from. -/
structure Renewable (F : RoomSessionFoundation L → Prop) (core : Core L) : Prop where
  founded : ∀ (peer : ActorId) foundation,
    core.task.foundations.entries[peer]? = some foundation → F foundation
  active : ∀ (peer : ActorId) active, core.task.active[peer]? = some active →
    core.task.foundations.entries[peer]? = none → F active.foundation

theorem Renewable.congr {core after : Core L} (h : Renewable F core)
    (hkept : KeptByRenewals core after) : Renewable F after where
  founded := by
    rw [hkept.foundations]
    exact h.founded
  active := by
    rw [hkept.foundations,hkept.active]
    exact h.active

theorem renewActive_renews {peer : ActorId} (h : Renewable F world.core) :
    Ends (fun _ core => RenewsMany F world.core core)
      (fun _ core => RenewsMany F world.core core) (renewActive peer world) := by
  refine Ends.getTask ?_
  cases hfound : world.core.task.foundations.entries[peer]? with
  | some foundation =>
    exact Ends.mono (beginSession_renews (h.founded peer foundation hfound))
      (fun _ _ h => h.1) fun _ _ h => h
  | none =>
    cases hactive : world.core.task.active[peer]? with
    | none => exact Ends.fail .refl
    | some active =>
      exact Ends.mono (beginSession_renews (h.active peer active hactive hfound))
        (fun _ _ h => h.1) fun _ _ h => h

theorem retiredRenewals_founded {task : RoomSessionTask L} {foundation : RoomSessionFoundation L}
    (h : foundation ∈ task.retiredRenewals) :
    ∃ peer : ActorId, task.foundations.entries[peer]? = some foundation := by
  obtain ⟨peer,-,hpeer⟩ := List.mem_filterMap.mp h
  exact ⟨peer,hpeer⟩

theorem startReadyRenewals_renews (h : Renewable F world.core) :
    Ends (fun _ core => RenewsMany F world.core core)
      (fun _ core => RenewsMany F world.core core) (startReadyRenewals (L := L) world) := by
  refine Ends.getTask ?_
  refine Ends.bind (R := fun _ core => RenewsMany F world.core core) ?_ fun _ begun hbegun => ?_
  · refine Ends.forM (RenewsMany F world.core) .refl
      fun foundation hmem after hafter => ?_
    obtain ⟨peer,hpeer⟩ := retiredRenewals_founded hmem
    exact Ends.mono (beginSession_renews (h.founded peer foundation hpeer))
      (fun _ _ h => hafter.trans h.1) fun _ _ h => hafter.trans h
  · refine Ends.getTask ?_
    refine Ends.forM (RenewsMany F world.core) hbegun
      fun peer _ after hafter => ?_
    exact Ends.mono (renewActive_renews (h.congr hafter.kept))
      (fun _ _ h => hafter.trans h) fun _ _ h => hafter.trans h

end Renewals

section Offers

/-- The offer was made as `proposeSession` makes it: at the epoch after its floor. -/
def Made (pending : PendingSession L) : Prop :=
  ∃ epoch sessionId secret, proposedEpoch L pending.renewalFloor = .ok epoch ∧
    buildOffer pending.foundation pending.renewalFloor epoch sessionId secret = .ok pending

theorem buildManifest_ok {foundation : RoomSessionFoundation L} {sessionId epoch : Nat}
    {manifest : SessionManifest} (h : buildManifest foundation sessionId epoch = .ok manifest) :
    manifest.epoch = epoch ∧ manifest.base = L.frontier foundation.history := by
  obtain ⟨_,-,h⟩ := bind_eq_ok.mp h
  cases h
  exact ⟨rfl,rfl⟩

structure OfferOf (foundation : RoomSessionFoundation L) (renewalFloor : Option SessionRenewalFloor)
    (epoch sessionId : Nat) (pending : PendingSession L) : Prop where
  founded : pending.foundation = foundation
  floored : pending.renewalFloor = renewalFloor
  numbered : pending.sessionId = sessionId
  manifest : buildManifest foundation sessionId epoch = .ok pending.manifest
  carrier : ∃ handshake presentation, pending.offerCarrier = .offer {
    source := foundation.localActor
    target := foundation.peer
    sessionId := sessionId
    epoch := epoch
    base := positionBytes pending.manifest.base
    grants := foundation.localGrants
    handshake := handshake
    foundation := presentation }

theorem buildOffer_ok {foundation : RoomSessionFoundation L}
    {renewalFloor : Option SessionRenewalFloor} {epoch sessionId secret : Nat}
    {pending : PendingSession L}
    (h : buildOffer foundation renewalFloor epoch sessionId secret = .ok pending) :
    OfferOf foundation renewalFloor epoch sessionId pending := by
  obtain ⟨manifest,hmanifest,h⟩ := bind_eq_ok.mp h
  obtain ⟨⟨localFoundation,presentation⟩,-,h⟩ := bind_eq_ok.mp h
  cases h
  exact ⟨rfl,rfl,rfl,hmanifest,_,_,rfl⟩

theorem Made.floor_next {pending : PendingSession L} (h : Made pending) :
    proposedEpoch L pending.renewalFloor = .ok pending.manifest.epoch := by
  obtain ⟨epoch,sessionId,secret,hepoch,hoffer⟩ := h
  rw [(buildManifest_ok (buildOffer_ok hoffer).manifest).1]
  exact hepoch

theorem answerOffer_ok {localSide : RoomSessionFoundation L} {offer : OfferBody L}
    {verified : VerifiedOfferBody L} {secret : Nat} {renewalFloor : Option SessionRenewalFloor}
    {installation : Installation L}
    (h : answerOffer localSide offer verified secret renewalFloor = .ok installation) :
    installation.foundation = localSide ∧ installation.sessionId = offer.sessionId ∧
      authorizePair localSide verified.manifest verified.localFoundation verified.remoteFoundation
        renewalFloor = .ok installation.authorization ∧
      ∃ handshake, installation.carrier = some (.answer {
        source := localSide.localActor
        target := offer.source
        sessionId := offer.sessionId
        grants := localSide.localGrants
        handshake := handshake
        foundation := verified.localPresentation }) := by
  obtain ⟨⟨handshake,keys⟩,-,h⟩ := bind_eq_ok.mp h
  obtain ⟨authorization,hauthorization,h⟩ := bind_eq_ok.mp h
  cases h
  exact ⟨rfl,rfl,hauthorization,handshake,rfl⟩

end Offers

section Installing

def Core.drops (peer : ActorId) (core : Core L) : Core L :=
  core.mapTask fun task => { task with pending := task.pending.erase peer }

theorem Core.drops_of_absent {peer : ActorId} {core : Core L}
    (h : core.task.pending[peer]? = none) : core.drops peer = core := by
  have hpending : core.task.pending.erase peer = core.task.pending := by
    refine Std.ExtTreeMap.ext_getElem? fun other => ?_
    rw [Std.ExtTreeMap.getElem?_erase]
    split
    · rename_i hother
      rw [← Std.LawfulEqOrd.eq_of_compare hother,h]
    · rfl
  simp only [Core.drops,Core.mapTask,hpending]

/-- Where an installed session comes from: an offer that was delivered and answered, or an
answer that was delivered to an offer of this side. -/
inductive Origin (G : SessionCarrierBody L → Prop) (peer : ActorId)
    (pending? : Option (PendingSession L)) (prior : Option SessionRenewalFloor)
    (installation : Installation L) : Prop where
  | answered {localSide : RoomSessionFoundation L} {offer : OfferBody L}
      {verified : VerifiedOfferBody L} {secret : Nat} (hframe : G (.offer offer))
      (hsource : offer.source = peer)
      (hprefer : ∀ pending, pending? = some pending → preferIncomingOffer localSide.localActor
        offer.source offer.epoch pending.manifest.epoch = true)
      (htarget : offer.target = localSide.localActor)
      (hverified : verifyOfferBody localSide offer = .ok verified)
      (hanswer : answerOffer localSide offer verified secret prior = .ok installation)
  | completed {pending : PendingSession L} {answer : AnswerBody L}
      {remoteFoundation : VerifiedSeatFoundation} {keys : L.SessionKeys}
      {authorization : PairAuthorization L} (hframe : G (.answer answer))
      (hsource : answer.source = peer) (hidle : pending? = none) (hmade : Made pending)
      (hfloor : pending.renewalFloor = prior)
      (hverified : verifyAnswer pending answer = .ok (remoteFoundation,keys))
      (hauthorized : authorizePair pending.foundation pending.manifest pending.localFoundation
        remoteFoundation prior = .ok authorization)
      (hinstallation : installation =
        ⟨pending.foundation,authorization,answer.sessionId,keys,none⟩)

structure Ready (F : RoomSessionFoundation L → Prop) (G : SessionCarrierBody L → Prop)
    (core : Core L) (peer : ActorId) (installation : Installation L) : Prop where
  founded : F installation.foundation
  addressed : installation.foundation.peer = peer
  origin : ∃ prior, core.task.renewalFloors[peer]? = some prior ∧
    Origin G peer core.task.pending[peer]? prior installation ∧
    (prior ≠ none → core.task.incomingRenewalHasLocalObligations peer = false)

def Installation.stored (installation : Installation L) (core : Core L) : Core L :=
  core.stores (renewalKey installation.foundation) installation.authorization.floorBytes

def Installation.cached (peer : ActorId) (installation : Installation L) (core : Core L) : Core L :=
  (installation.stored core).cachesFloor peer (some installation.authorization.floor)

def Core.stages (peer : ActorId) (active : ActiveSession L)
    (carrier : Option (SessionCarrierBody L)) (core : Core L) : Core L :=
  if core.task.presents peer = true then core.sends [⟨active.identity,.announced⟩]
    (.realtime { projection := active.projectionEvent .reset, carrier := carrier })
  else match carrier with
    | some body => core.sends [⟨active.identity,.announced⟩] (.carrier body)
    | none => core

@[simp] theorem Core.stages_task (peer : ActorId) (active : ActiveSession L)
    (carrier : Option (SessionCarrierBody L)) (core : Core L) :
    (core.stages peer active carrier).task = core.task := by
  unfold Core.stages
  split
  · rfl
  · cases carrier with
    | none => rfl
    | some body => rfl

def Installation.Opens (installation : Installation L) (active : ActiveSession L) : Prop :=
  ∃ ticks, ActiveSession.new installation.foundation installation.authorization.session
    installation.sessionId installation.keys ticks = .ok active

/-- How far an installation can get; only a cut separates what it stages from what it installs. -/
inductive InstallEnds (cut : Prop) (peer : ActorId) (installation : Installation L)
    (core : Core L) : Core L → Prop where
  | refused : InstallEnds cut peer installation core core
  | stored : InstallEnds cut peer installation core (installation.stored core)
  | cached {active : ActiveSession L} (hopens : installation.Opens active) :
      InstallEnds cut peer installation core (installation.cached peer core)
  | staged (hcut : cut) {active : ActiveSession L} (hopens : installation.Opens active) :
      InstallEnds cut peer installation core
        ((installation.cached peer core).stages peer active installation.carrier)
  | installed {active : ActiveSession L} (hopens : installation.Opens active) :
      InstallEnds cut peer installation core
        (((installation.cached peer core).stages peer active installation.carrier).activates
          peer active)

end Installing

section Moves

def RoomSessionProjection.Of (projection : RoomSessionProjection)
    (session : RoomSessionEpochIdentity) : Prop :=
  projection.manifest = session.manifest ∧ projection.sessionId = session.sessionId ∧
    projection.epoch = session.epoch

def Core.serves (peer : ActorId) (active : ActiveSession L) (core : Core L) : Core L :=
  core.mapTask fun task => { task with active := task.active.insert peer active }

/-- The changes of establishing sessions, with foundations that have a property and with frames
that may have been delivered. -/
inductive Establishes (F : RoomSessionFoundation L → Prop) (G : SessionCarrierBody L → Prop) :
    Core L → Core L → Prop where
  | renews {before after : Core L} (h : Renews F before after) : Establishes F G before after
  | founded {core : Core L} {foundations : Foundations L} (h : ∀ (peer : ActorId) foundation,
        foundations.entries[peer]? = some foundation → F foundation) :
      Establishes F G core (core.mapTask fun task => { task with foundations := foundations })
  | dropped {core : Core L} (peer : ActorId) : Establishes F G core (core.drops peer)
  | installs {core after : Core L} {peer : ActorId} {installation : Installation L}
      (hready : Ready F G core peer installation)
      (hends : InstallEnds True peer installation (core.drops peer) after) :
      Establishes F G core after

inductive Moves (F : RoomSessionFoundation L → Prop) (G : SessionCarrierBody L → Prop) :
    Core L → Core L → Prop where
  | establishes {before after : Core L} (h : Establishes F G before after) : Moves F G before after
  | configured {core : Core L} (generation : Nat) (traceEnabled renewalTestCut : Bool) :
      Moves F G core (core.mapTask fun task => { task with
        events := some generation
        traceEnabled := traceEnabled
        renewalTestCut := renewalTestCut })
  | served {core : Core L} {peer : ActorId} {before after : ActiveSession L}
      (hactive : core.task.active[peer]? = some before) (hkeeps : KeepsSession before after) :
      Moves F G core (core.serves peer after)
  | inflight {core : Core L} (inflight : InflightReifications) :
      Moves F G core (core.mapTask fun task => { task with inflightReifications := inflight })
  | queued {core : Core L} (reification : RoomSessionReification L) :
      Moves F G core (core.queues reification)
  | ingested {core : Core L} (edit : SessionEdit) : Moves F G core (core.ingests edit)
  | confirmed {core : Core L} (edit : SessionEdit) : Moves F G core (core.confirms edit)
  | published {core : Core L} {peer : ActorId} {active : ActiveSession L}
      {event : RoomSessionRealtimeEgress L} (hactive : core.task.active[peer]? = some active)
      (hof : event.projection.Of active.identity)
      (hcarrier : ∀ body, event.carrier = some body → ∃ frame, body = .event frame) :
      Moves F G core (core.sends [] (.realtime event))
  | spoke {core : Core L} {event : RoomSessionEgress L} (hprojection : event.projection? = none)
      (hcarrier : event.carrier? = none) : Moves F G core (core.sends [] event)
  | ended {core : Core L} (terminal : String) : Moves F G core (core.ends terminal)

abbrev EstablishesMany (F : RoomSessionFoundation L → Prop) (G : SessionCarrierBody L → Prop) :
    Core L → Core L → Prop :=
  ReflTransGen (Establishes F G)

abbrev MovesMany (F : RoomSessionFoundation L → Prop) (G : SessionCarrierBody L → Prop) :
    Core L → Core L → Prop :=
  ReflTransGen (Moves F G)

/-- The property does not depend on the durable horizon a foundation stands on. -/
def Stable (F : RoomSessionFoundation L → Prop) : Prop :=
  ∀ foundation history durableView durableRevision, F foundation → F { foundation with
    history := history
    durableView := durableView
    durableRevision := durableRevision }

/-- What holds between any two changes. No epoch is ever retired. -/
structure InPlay (F : RoomSessionFoundation L → Prop) (core : Core L) : Prop where
  founded : ∀ (peer : ActorId) foundation,
    core.task.foundations.entries[peer]? = some foundation → F foundation
  pending : ∀ (peer : ActorId) pending, core.task.pending[peer]? = some pending →
    F pending.foundation ∧ pending.foundation.peer = peer ∧ Made pending ∧
      core.task.renewalFloors[peer]? = some pending.renewalFloor
  active : ∀ (peer : ActorId) active, core.task.active[peer]? = some active →
    F active.foundation ∧ active.foundation.peer = peer
  retired : core.task.retired = ∅

variable {F : RoomSessionFoundation L → Prop} {G : SessionCarrierBody L → Prop}

theorem InPlay.renewable {core : Core L} (h : InPlay F core) : Renewable F core where
  founded := h.founded
  active peer active hactive _ := (h.active peer active hactive).1

theorem InPlay.drops {core : Core L} (h : InPlay F core) (peer : ActorId) :
    InPlay F (core.drops peer) where
  founded := h.founded
  pending other pending hpending := by
    refine h.pending other pending ?_
    simp only [Core.drops,Core.mapTask,Std.ExtTreeMap.getElem?_erase] at hpending
    split at hpending
    · cases hpending
    · exact hpending
  active := h.active
  retired := h.retired

theorem InPlay.cachesFloor {core : Core L} (h : InPlay F core) {peer : ActorId}
    (hidle : core.task.pending[peer]? = none) (floor : Option SessionRenewalFloor) :
    InPlay F (core.cachesFloor peer floor) where
  founded := h.founded
  pending other pending hpending := by
    obtain ⟨hF,haddressed,hmade,hfloor⟩ := h.pending other pending hpending
    refine ⟨hF,haddressed,hmade,?_⟩
    simp only [Core.cachesFloor,Core.mapTask,Std.ExtTreeMap.getElem?_insert]
    split
    · rename_i hother
      have hpeer : peer = other := Std.LawfulEqOrd.eq_of_compare hother
      subst hpeer
      exact absurd (hidle.symm.trans hpending) (by simp)
    · exact hfloor
  active := h.active
  retired := h.retired

theorem InPlay.sends {core : Core L} (h : InPlay F core) (note : List Opening)
    (event : RoomSessionEgress L) : InPlay F (core.sends note event) :=
  ⟨h.founded,h.pending,h.active,h.retired⟩

theorem InPlay.serves {core : Core L} (h : InPlay F core) {peer : ActorId}
    {active : ActiveSession L} (hF : F active.foundation)
    (haddressed : active.foundation.peer = peer) : InPlay F (core.serves peer active) where
  founded := h.founded
  pending := h.pending
  active other found hfound := by
    simp only [Core.serves,Core.mapTask,Std.ExtTreeMap.getElem?_insert] at hfound
    split at hfound
    · rename_i hother
      cases hfound
      exact ⟨hF,haddressed.trans (Std.LawfulEqOrd.eq_of_compare hother)⟩
    · exact h.active other found hfound
  retired := h.retired

theorem Renews.inPlay {before after : Core L} (hmove : Renews F before after)
    (h : InPlay F before) : InPlay F after := by
  cases hmove with
  | @recovered foundation floor hF habsent hload =>
    refine h.cachesFloor ?_ floor
    cases hpending : before.task.pending[foundation.peer]? with
    | none => rfl
    | some pending =>
      obtain ⟨-,-,-,hfloor⟩ := h.pending _ pending hpending
      exact absurd (habsent.symm.trans hfloor) (by simp)
  | @proposed foundation floor epoch sessionId secret pending hF hpending hrecovery
      hwait hfloor hepoch hoffer =>
    have hmade := buildOffer_ok hoffer
    refine ⟨h.founded,fun other found hfound => ?_,h.active,h.retired⟩
    simp only [Core.proposes,Core.mapTask,Std.ExtTreeMap.getElem?_insert] at hfound
    split at hfound
    · rename_i hother
      cases hfound
      obtain rfl : foundation.peer = other := Std.LawfulEqOrd.eq_of_compare hother
      rw [hmade.founded]
      refine ⟨hF,rfl,⟨epoch,sessionId,secret,?_,?_⟩,?_⟩
      · rw [hmade.floored]
        exact hepoch
      · rw [hmade.founded,hmade.floored]
        exact hoffer
      · rw [hmade.floored]
        exact hfloor
    · exact h.pending other found hfound
  | offered hpending => exact h.sends _ _
  | traced trace => exact h.sends _ _
  | noted => exact ⟨h.founded,h.pending,h.active,h.retired⟩

theorem ActiveSession.new_ok {foundation : RoomSessionFoundation L}
    {session : L.AuthorizedSession} {sessionId ticks : Nat} {keys : L.SessionKeys}
    {active : ActiveSession L}
    (h : ActiveSession.new foundation session sessionId keys ticks = .ok active) :
    active.foundation = foundation ∧ active.session = session ∧ active.sessionId = sessionId ∧
      active.awaitingReification = ∅ := by
  obtain ⟨lanes,-,h⟩ := bind_eq_ok.mp h
  obtain ⟨kernel,-,h⟩ := bind_eq_ok.mp h
  obtain ⟨projection,-,h⟩ := bind_eq_ok.mp h
  obtain ⟨planner,-,h⟩ := bind_eq_ok.mp h
  cases h
  exact ⟨rfl,rfl,rfl,rfl⟩

theorem InPlay.stages {core : Core L} (h : InPlay F core) (peer : ActorId)
    (active : ActiveSession L) (carrier : Option (SessionCarrierBody L)) :
    InPlay F (core.stages peer active carrier) := by
  unfold Core.stages
  split
  · exact h.sends _ _
  · split
    · exact h.sends _ _
    · exact h

theorem InPlay.installEnds {core after : Core L} {peer : ActorId} {installation : Installation L}
    {cut : Prop} (h : InPlay F core) (hF : F installation.foundation)
    (haddressed : installation.foundation.peer = peer)
    (hends : InstallEnds cut peer installation (core.drops peer) after) : InPlay F after := by
  have hdrops := h.drops peer
  have hstored : InPlay F (installation.stored (core.drops peer)) :=
    ⟨hdrops.founded,hdrops.pending,hdrops.active,hdrops.retired⟩
  have hcached : InPlay F (installation.cached peer (core.drops peer)) :=
    hstored.cachesFloor Std.ExtTreeMap.getElem?_erase_self _
  cases hends with
  | refused => exact hdrops
  | stored => exact hstored
  | cached hopens => exact hcached
  | staged _ hopens => exact hcached.stages _ _ _
  | @installed active hopens =>
    obtain ⟨ticks,hnew⟩ := hopens
    obtain ⟨hfoundation,-⟩ := ActiveSession.new_ok hnew
    rw [← hfoundation] at hF haddressed
    have hserves := (hcached.stages peer active installation.carrier).serves hF haddressed
    exact ⟨hserves.founded,hserves.pending,hserves.active,hserves.retired⟩

theorem Establishes.inPlay {before after : Core L} (hmove : Establishes F G before after)
    (h : InPlay F before) : InPlay F after := by
  cases hmove with
  | renews hrenews => exact hrenews.inPlay h
  | founded hfounded => exact ⟨hfounded,h.pending,h.active,h.retired⟩
  | dropped peer => exact h.drops peer
  | installs hready hends => exact h.installEnds hready.founded hready.addressed hends

theorem Moves.inPlay (hstable : Stable F) {before after : Core L} (hmove : Moves F G before after)
    (h : InPlay F before) : InPlay F after := by
  cases hmove with
  | establishes hestablishes => exact hestablishes.inPlay h
  | @served peer old new hactive hkeeps =>
    obtain ⟨hF,haddressed⟩ := h.active peer old hactive
    obtain ⟨history,durableView,durableRevision,hfoundation⟩ := hkeeps.foundation
    refine h.serves ?_ (hkeeps.peer.trans haddressed)
    rw [hfoundation]
    exact hstable _ _ _ _ hF
  | published hactive hof hcarrier => exact h.sends _ _
  | spoke hprojection hcarrier => exact h.sends _ _
  | ended terminal =>
    refine ⟨h.founded,fun peer pending hpending => ?_,fun peer active hactive => ?_,rfl⟩
    · simp [Core.ends] at hpending
    · simp [Core.ends] at hactive
  | configured | inflight | queued | ingested | confirmed =>
    exact ⟨h.founded,h.pending,h.active,h.retired⟩

theorem inPlay_many {R : Core L → Core L → Prop}
    (hmove : ∀ before after, R before after → InPlay F before → InPlay F after)
    {before after : Core L} (hmoves : ReflTransGen R before after) (h : InPlay F before) :
    InPlay F after := by
  induction hmoves with
  | refl => exact h
  | tail _ hlast ih => exact hmove _ _ hlast ih

theorem MovesMany.inPlay (hstable : Stable F) {before after : Core L}
    (hmoves : MovesMany F G before after) (h : InPlay F before) : InPlay F after :=
  inPlay_many (fun _ _ hmove => hmove.inPlay hstable) hmoves h

section Mono

variable {F' : RoomSessionFoundation L → Prop} {G' : SessionCarrierBody L → Prop}

theorem InPlay.mono {core : Core L} (h : InPlay F core) (hF : ∀ foundation, F foundation →
    F' foundation) : InPlay F' core where
  founded peer foundation hfound := hF _ (h.founded peer foundation hfound)
  pending peer pending hpending := by
    obtain ⟨hfounded,hrest⟩ := h.pending peer pending hpending
    exact ⟨hF _ hfounded,hrest⟩
  active peer active hactive := by
    obtain ⟨hfounded,hrest⟩ := h.active peer active hactive
    exact ⟨hF _ hfounded,hrest⟩
  retired := h.retired

theorem Renews.mono {before after : Core L} (h : Renews F before after)
    (hF : ∀ foundation, F foundation → F' foundation) : Renews F' before after := by
  cases h with
  | recovered hfoundation habsent hload => exact .recovered (hF _ hfoundation) habsent hload
  | proposed hfoundation hpending hrecovery hwait hfloor hepoch hoffer =>
    exact .proposed (hF _ hfoundation) hpending hrecovery hwait hfloor hepoch hoffer
  | offered hpending => exact .offered hpending
  | traced trace => exact .traced trace
  | noted needed consumed => exact .noted needed consumed

theorem Ready.mono {core : Core L} {peer : ActorId} {installation : Installation L}
    (h : Ready F G core peer installation) (hF : ∀ foundation, F foundation → F' foundation)
    (hG : ∀ body, G body → G' body) : Ready F' G' core peer installation := by
  obtain ⟨prior,hprior,horigin,hdrained⟩ := h.origin
  refine ⟨hF _ h.founded,h.addressed,prior,hprior,?_,hdrained⟩
  cases horigin with
  | answered hframe hsource hprefer htarget hverified hanswer =>
    exact .answered (hG _ hframe) hsource hprefer htarget hverified hanswer
  | completed hframe hsource hidle hmade hfloor hverified hauthorized hinstallation =>
    exact .completed (hG _ hframe) hsource hidle hmade hfloor hverified hauthorized hinstallation

theorem Establishes.mono {before after : Core L} (h : Establishes F G before after)
    (hF : ∀ foundation, F foundation → F' foundation) (hG : ∀ body, G body → G' body) :
    Establishes F' G' before after := by
  cases h with
  | renews hrenews => exact .renews (hrenews.mono hF)
  | founded hfounded =>
    exact .founded fun peer foundation hfound => hF _ (hfounded peer foundation hfound)
  | dropped peer => exact .dropped peer
  | installs hready hends => exact .installs (hready.mono hF hG) hends

end Mono

theorem RenewsMany.establishes {before after : Core L} (h : RenewsMany F before after) :
    EstablishesMany F G before after :=
  ReflTransGen.mono (fun _ _ hrenews => .renews hrenews) _ _ h

theorem EstablishesMany.moves {before after : Core L} (h : EstablishesMany F G before after) :
    MovesMany F G before after :=
  ReflTransGen.mono (fun _ _ hestablishes => .establishes hestablishes) _ _ h

end Moves

end WalkieSongie.Session
