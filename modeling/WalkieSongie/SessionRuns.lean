import WalkieSongie.SessionSteps
set_option autoImplicit false

/-! Every handler, and every run of a worker with restarts, is a sequence of single changes. -/

namespace WalkieSongie.Session
open TaskProgram Relation

variable {L : SessionLibrary} {α β : Type} {F : RoomSessionFoundation L → Prop}
  {G : SessionCarrierBody L → Prop} {world : World L}

section Runs

variable {R : Core L → Core L → Prop}

/-- However the program ends, it has made only changes of this kind. -/
def Runs (R : Core L → Core L → Prop) (program : TaskM L α) (world : World L) : Prop :=
  Ends (fun _ core => ReflTransGen R world.core core)
    (fun _ core => ReflTransGen R world.core core) (program world)

theorem Runs.pure (value : α) : Runs R (Pure.pure value : TaskM L α) world := ReflTransGen.refl

theorem Runs.fail (message : String) : Runs R (fail message : TaskM L α) world :=
  ReflTransGen.refl

theorem Runs.bind {first : TaskM L β} {next : β → TaskM L α} (h : Runs R first world)
    (hnext : ∀ value after, ReflTransGen R world.core after.core → Runs R (next value) after) :
    Runs R (first >>= next) world :=
  Ends.bind h fun value after hafter => Ends.mono (hnext value after hafter)
    (fun _ _ hlast => hafter.trans hlast) fun _ _ hlast => hafter.trans hlast

/-- As `Runs.bind`, where more is known of how the first program ends well. -/
theorem Runs.bind_of {first : TaskM L β} {next : β → TaskM L α} {Q : β → Core L → Prop}
    (h : Ends (fun value core => ReflTransGen R world.core core ∧ Q value core)
      (fun _ core => ReflTransGen R world.core core) (first world))
    (hnext : ∀ value after, Q value after.core → ReflTransGen R world.core after.core →
      Runs R (next value) after) :
    Runs R (first >>= next) world :=
  Ends.bind h fun value after hafter => Ends.mono (hnext value after hafter.2 hafter.1)
    (fun _ _ hlast => hafter.1.trans hlast) fun _ _ hlast => hafter.1.trans hlast

theorem Runs.getTask {next : RoomSessionTask L → TaskM L α}
    (h : Runs R (next world.core.task) world) : Runs R (Session.getTask >>= next) world := h

theorem Runs.check {checked : Except String β} {next : β → TaskM L α}
    (h : ∀ value, checked = .ok value → Runs R (next value) world) :
    Runs R (Session.check checked >>= next) world :=
  Ends.check h fun _ _ => ReflTransGen.refl

theorem Runs.refuseIf {bad : Prop} [Decidable bad] {stop : Stop} {next : Unit → TaskM L α}
    (h : ¬ bad → Runs R (next ()) world) :
    Runs R (TaskProgram.refuseIf bad stop >>= next) world :=
  Ends.refuseIf (fun _ => ReflTransGen.refl) h

theorem Runs.branch {bad : Prop} [Decidable bad] {first second : TaskM L α}
    (hfirst : bad → Runs R first world) (hsecond : ¬ bad → Runs R second world) :
    Runs R (if bad then first else second) world :=
  Ends.branch hfirst hsecond

theorem Runs.attempt {program : TaskM L α} (h : Runs R program world) :
    Runs R (Session.attempt program) world := by
  refine Ends.mono (Ends.attempt h) (fun caught core hcaught => ?_) fun _ _ h => h
  cases caught with
  | ok value => exact hcaught
  | error message => exact hcaught

theorem Runs.modifyTask {f : RoomSessionTask L → RoomSessionTask L}
    (h : R world.core (world.core.mapTask f)) : Runs R (Session.modifyTask f) world :=
  ReflTransGen.single h

theorem Runs.modifyCore {f : Core L → Core L} (h : R world.core (f world.core)) :
    Runs R (Session.modifyCore f) world :=
  ReflTransGen.single h

theorem Runs.quiet : Runs R (effect false id) world :=
  Ends.effect (fun _ => ReflTransGen.refl) (fun _ => ReflTransGen.refl) ReflTransGen.refl
    fun _ _ => ReflTransGen.refl

theorem Runs.emit {event : RoomSessionEgress L}
    (h : R world.core (world.core.sends [] event)) : Runs R (Session.emit event) world :=
  Ends.emit (.single h) (fun _ => ReflTransGen.refl) (.single h)

theorem Runs.nowTicks : Runs R Session.nowTicks world :=
  Ends.nowTicks (fun _ => ReflTransGen.refl) fun _ => ReflTransGen.refl

theorem Runs.forM {items : List β} {body : β → TaskM L PUnit}
    (h : ∀ item ∈ items, ∀ after, ReflTransGen R world.core after.core →
      Runs R (body item) after) :
    Runs R (items.forM body) world :=
  Ends.forM (ReflTransGen R world.core) .refl fun item hitem after hafter =>
    Ends.mono (h item hitem after hafter) (fun _ _ hlast => hafter.trans hlast)
      fun _ _ hlast => hafter.trans hlast

end Runs

section Establishing

theorem Runs.emitRenewalTrace {stage : RoomSessionRenewalTraceStage} {peer : ActorId}
    {epoch : Nat} {floorEpoch : Option Nat} :
    Runs (Renews F) (Session.emitRenewalTrace stage peer epoch floorEpoch) world :=
  Ends.emitRenewalTrace .refl (fun trace => .single (.traced trace)) (fun _ => .refl)
    fun trace => .single (.traced trace)

theorem Runs.needRenewal (peer : ActorId) : Runs (Renews F) (Session.needRenewal peer) world :=
  Runs.modifyTask (.noted (world.core.task.renewalNeeded.insert peer)
    world.core.task.renewalTestCutConsumed)

theorem Runs.establishes {program : TaskM L α} (h : Runs (Renews F) program world) :
    Runs (Establishes F G) program world :=
  Ends.mono h (fun _ _ h => RenewsMany.establishes h) fun _ _ h => RenewsMany.establishes h

theorem Runs.moves {program : TaskM L α} (h : Runs (Establishes F G) program world) :
    Runs (Moves F G) program world :=
  Ends.mono h (fun _ _ h => EstablishesMany.moves h) fun _ _ h => EstablishesMany.moves h

theorem RenewsMany.inPlay {before after : Core L} (h : RenewsMany F before after)
    (hplay : InPlay F before) : InPlay F after :=
  inPlay_many (fun _ _ hmove => hmove.inPlay) h hplay

theorem loadRenewalFloor_runs {foundation : RoomSessionFoundation L} (hfoundation : F foundation) :
    Runs (Renews F) (loadRenewalFloor foundation) world :=
  Ends.mono (loadRenewalFloor_ends hfoundation) (fun _ _ h => h.renews) fun _ _ h => h

theorem beginSession_runs {foundation : RoomSessionFoundation L} (hfoundation : F foundation) :
    Runs (Renews F) (beginSession foundation) world :=
  Ends.mono (beginSession_renews hfoundation) (fun _ _ h => h.1) fun _ _ h => h

theorem startReadyRenewals_runs (h : InPlay F world.core) :
    Runs (Renews F) (startReadyRenewals (L := L)) world :=
  startReadyRenewals_renews h.renewable

theorem Foundations.insert_founded {foundations : Foundations L}
    {foundation : RoomSessionFoundation L} (hfoundation : F foundation)
    (h : ∀ (peer : ActorId) found, foundations.entries[peer]? = some found → F found)
    (peer : ActorId) (found : RoomSessionFoundation L)
    (hfound : (foundations.insert foundation).entries[peer]? = some found) : F found := by
  simp only [Foundations.insert,Std.ExtTreeMap.getElem?_insert] at hfound
  split at hfound
  · cases hfound
    exact hfoundation
  · exact h peer found hfound

theorem Foundations.foldl_founded {foundations : List (RoomSessionFoundation L)}
    (h : ∀ foundation ∈ foundations, F foundation) {start : Foundations L}
    (hstart : ∀ (peer : ActorId) found, start.entries[peer]? = some found → F found) :
    ∀ (peer : ActorId) found,
      (foundations.foldl Foundations.insert start).entries[peer]? = some found → F found := by
  induction foundations generalizing start with
  | nil => exact hstart
  | cons foundation rest ih =>
    exact ih (fun other hother => h other (List.mem_cons_of_mem foundation hother))
      (Foundations.insert_founded (h foundation List.mem_cons_self) hstart)

theorem Foundations.ofList_founded {foundations : List (RoomSessionFoundation L)}
    (h : ∀ foundation ∈ foundations, F foundation) :
    ∀ (peer : ActorId) found,
      (Foundations.ofList foundations).entries[peer]? = some found → F found :=
  Foundations.foldl_founded h fun peer found hfound => by simp [Foundations.empty] at hfound

theorem startUnlessWaiting_runs {foundation : RoomSessionFoundation L}
    (hfoundation : F foundation) :
    Runs (Renews F) (startUnlessWaiting foundation) world :=
  Runs.bind (loadRenewalFloor_runs hfoundation) fun _ _ _ =>
    Runs.branch (fun _ => Runs.pure ()) fun _ => beginSession_runs hfoundation

theorem startPeer_runs {foundation : RoomSessionFoundation L} (hfoundation : F foundation)
    (h : InPlay F world.core) : Runs (Establishes F G) (startPeer foundation) world := by
  refine Runs.bind (Runs.modifyTask
    (.founded (Foundations.insert_founded hfoundation h.founded))) fun _ after _ => ?_
  refine Runs.getTask ?_
  cases hpending : after.core.task.pending[foundation.peer]? with
  | some pending =>
    refine Runs.branch (fun _ => Runs.emit (.renews (.offered hpending))) fun _ => ?_
    refine Runs.bind ?_ fun _ _ _ => (beginSession_runs hfoundation).establishes
    exact (ReflTransGen.single (.dropped foundation.peer)).tail (.renews (.noted
      (after.core.task.renewalNeeded.insert foundation.peer)
      after.core.task.renewalTestCutConsumed))
  | none =>
    exact Runs.branch (fun _ => Runs.pure ()) fun _ =>
      (startUnlessWaiting_runs hfoundation).establishes

section Installing

variable {peer : ActorId} {installation : Installation L} {M : Core L → Prop}
  (hnotes : ∀ core needed consumed, M core → M (core.notes needed consumed))
  (htraces : ∀ core trace, M core → M (core.sends [] (.renewalTrace trace)))

include hnotes

theorem persistFloor_ends (h : M world.core) (hstored : M (installation.stored world.core)) :
    Ends (fun _ after => after = installation.stored world.core) (fun _ => M)
      (persistFloor peer installation world) := by
  refine Ends.bind (Ends.attempt (Q := fun _ after => after = installation.stored world.core)
    (E := fun _ => M) ?_) fun persisted after hafter => ?_
  · refine Ends.bind (R := fun _ after => after = installation.stored world.core) ?_
      fun _ _ h => Ends.pure h
    exact Ends.effect (fun _ => rfl) (fun _ => h) hstored fun _ message => hstored
  · cases persisted with
    | ok _ => exact Ends.pure hafter
    | error error =>
      exact Ends.bind (R := fun _ => M) (Ends.modifyTask (hnotes after.core
        (after.core.task.renewalNeeded.insert peer) after.core.task.renewalTestCutConsumed hafter))
        fun _ _ h => Ends.fail h

theorem announceInstall_ends {active : ActiveSession L} {carrier : Option (SessionCarrierBody L)}
    {cut : Prop} (h : M world.core) (hstaged : cut → M (world.core.stages peer active carrier)) :
    Ends (fun _ after => after = world.core.stages peer active carrier)
      (fun stop after => (stop = .crash → cut) → M after)
      (announceInstall peer active carrier world) := by
  have hstages : Ends (fun _ after => after = world.core.stages peer active carrier)
      (fun stop after => (stop = .crash → cut) → M after)
      (stageInstall peer active carrier world) := by
    refine Ends.getTask ?_
    unfold Core.stages at hstaged ⊢
    refine Ends.branch (fun hpresents => ?_) fun hpresents => ?_
    · rw [if_pos hpresents] at hstaged ⊢
      exact Ends.emitOpening rfl (fun _ _ => h) fun hcut => hstaged (hcut rfl)
    · rw [if_neg hpresents] at hstaged ⊢
      cases carrier with
      | none => exact Ends.pure rfl
      | some body => exact Ends.emitOpening rfl (fun _ _ => h) fun hcut => hstaged (hcut rfl)
  refine Ends.bind (Ends.attempt hstages) fun staged after hafter => ?_
  cases staged with
  | ok _ => exact Ends.pure hafter
  | error error =>
    exact Ends.bind (R := fun _ => M) (Ends.modifyTask (hnotes after.core
      (after.core.task.renewalNeeded.insert peer) after.core.task.renewalTestCutConsumed
        (hafter fun hcrash => by cases hcrash))) fun _ _ h => Ends.fail fun _ => h

include htraces

omit hnotes in
theorem emitRenewalTrace_ends {stage : RoomSessionRenewalTraceStage} {epoch : Nat}
    {floorEpoch : Option Nat} (h : M world.core) :
    Ends (fun _ after => M after ∧ after.task = world.core.task) (fun _ => M)
      (emitRenewalTrace stage peer epoch floorEpoch world) :=
  Ends.emitRenewalTrace ⟨h,rfl⟩ (fun trace => ⟨htraces world.core trace h,rfl⟩) (fun _ => h)
    fun trace => htraces world.core trace h

theorem renewalCut_ends {epoch : Nat} (h : M world.core) :
    Ends (fun _ after => after = world.core) (fun _ => M) (renewalCut peer epoch world) := by
  refine Ends.getTask <| Ends.branch (fun _ => ?_) fun _ => Ends.pure rfl
  refine Ends.bind (R := fun _ => M) (Ends.modifyTask (hnotes world.core
    (world.core.task.renewalNeeded.insert peer) true h)) fun _ after hafter => ?_
  exact Ends.bind (emitRenewalTrace_ends htraces hafter) fun _ _ h => Ends.fail h.1

/-- Whatever holds wherever an installation can get to holds of how it ends; what it has staged
only is left behind by a crash. -/
theorem installSession_ends {cut : Prop}
    (hends : ∀ after, InstallEnds cut peer installation world.core after → M after) :
    Ends (fun _ after => M after ∧ ∃ active, installation.Opens active ∧ after.task =
        (((installation.cached peer world.core).stages peer active installation.carrier).activates
          peer active).task)
      (fun stop after => (stop = .crash → cut) → M after)
      (installSession peer installation world) := by
  refine Ends.bind (Ends.mono (persistFloor_ends hnotes (hends _ .refused) (hends _ .stored))
    (fun _ _ h => h) fun _ _ h _ => h) fun _ stored hstored => ?_
  refine Ends.bind (R := fun _ after => after = stored.core)
    (Ends.nowTicks (fun _ => rfl) fun _ _ => hstored ▸ hends _ .stored)
    fun ticks clocked hclocked => ?_
  rw [hstored] at hclocked
  refine Ends.check (fun active hnew => ?_) fun _ _ _ => hclocked ▸ hends _ .stored
  have hopens : installation.Opens active := ⟨ticks,hnew⟩
  refine Ends.bind (R := fun _ after => after = installation.cached peer world.core)
    (Ends.modifyTask (hclocked ▸ rfl)) fun _ cached hcached => ?_
  refine Ends.bind (Ends.mono (renewalCut_ends hnotes htraces (hcached ▸ hends _ (.cached hopens)))
    (fun _ _ h => h) fun _ _ h _ => h) fun _ uncut huncut => ?_
  rw [hcached] at huncut
  refine Ends.bind (announceInstall_ends hnotes (huncut ▸ hends _ (.cached hopens))
    fun hcut => huncut ▸ hends _ (.staged hcut hopens)) fun _ staged hstaged => ?_
  rw [huncut] at hstaged
  refine Ends.bind (R := fun _ after => after = staged.core.activates peer active)
    (Ends.modifyCore rfl) fun _ installed hinstalled => ?_
  rw [hstaged] at hinstalled
  refine Ends.mono (emitRenewalTrace_ends htraces (M := M)
    (hinstalled ▸ hends _ (.installed hopens))) (fun _ after h => ⟨h.1,active,hopens,?_⟩)
    fun _ _ h _ => h
  rw [h.2,hinstalled]

end Installing

theorem installSession_runs {peer : ActorId} {installation : Installation L} {core : Core L}
    (hready : Ready F G core peer installation) (hcore : world.core = core.drops peer) :
    Ends (fun _ after => EstablishesMany F G core after)
      (fun _ after => EstablishesMany F G core after) (installSession peer installation world) := by
  have hends := @installSession_ends _ _ peer installation (EstablishesMany F G core)
    (fun _ needed consumed h => h.tail (.renews (.noted needed consumed)))
    (fun _ trace h => h.tail (.renews (.traced trace))) True
    fun _ h => .single (.installs hready (hcore ▸ h))
  exact Ends.mono hends (fun _ _ h => h.1) fun _ _ h => h fun _ => trivial

section Offers

/-- The Offer passes the checks against the foundation its receiver holds for its sender. -/
structure Admits (localSide : RoomSessionFoundation L) (offer : OfferBody L) : Prop where
  target : offer.target = localSide.localActor
  epoch : offer.epoch ≠ 0
  base : offer.base = positionBytes (L.frontier localSide.history)
  grants : offer.grants = localSide.peerGrants

/-- The Offer is taken up, and this is the session it opens. -/
structure TakesUp (core : Core L) (offer : OfferBody L) (installation : Installation L) : Prop where
  current : core.task.foundations.entries[offer.source]? = some installation.foundation
  admitted : Admits installation.foundation offer
  answered : ∃ floor verified secret, core.task.renewalFloors[offer.source]? = some floor ∧
    verifyOfferBody installation.foundation offer = .ok verified ∧
    answerOffer installation.foundation offer verified secret floor = .ok installation ∧
    (floor ≠ none → core.task.incomingRenewalHasLocalObligations offer.source = false)
  prefer : ∀ pending, core.task.pending[offer.source]? = some pending →
    preferIncomingOffer installation.foundation.localActor offer.source offer.epoch
      pending.manifest.epoch = true

theorem TakesUp.ready {core : Core L} {offer : OfferBody L} {installation : Installation L}
    (h : TakesUp core offer installation) (hframe : G (.offer offer)) (hplay : InPlay F core) :
    Ready F G core offer.source installation := by
  obtain ⟨floor,verified,secret,hfloor,hverified,hanswer,hdrained⟩ := h.answered
  exact ⟨hplay.founded _ _ h.current,core.task.foundations.keyed _ _ h.current,floor,hfloor,
    .answered hframe rfl h.prefer h.admitted.target hverified hanswer,hdrained⟩

theorem admitOffer_ends {localSide : RoomSessionFoundation L} {offer : OfferBody L} :
    Post (fun _ after => after = world ∧ Admits localSide offer)
      (fun _ after => RenewsMany F world.core after.core) (admitOffer localSide offer world) := by
  refine Post.refuseIf (fun _ => .refl) fun htarget => ?_
  refine Post.refuseIf (fun _ => .refl) fun hepoch => ?_
  refine Post.ite (fun _ => ?_) fun hbase => Post.ite (fun _ => ReflTransGen.refl) fun hgrants => ?_
  · have htraced : Runs (Renews F) (traceStaleOffer offer none) world := Runs.emitRenewalTrace
    exact Post.bind htraced fun _ _ h => h
  · exact ⟨rfl,not_not.mp htarget,hepoch,not_not.mp hbase,not_not.mp hgrants⟩

theorem counterOffer_runs {localSide : RoomSessionFoundation L} {offer : OfferBody L}
    {floor : SessionRenewalFloor} (hF : F localSide) (h : InPlay F world.core) :
    Runs (Renews F) (counterOffer localSide offer floor) world := by
  refine Runs.bind (Runs.needRenewal _) fun _ needed hneeded => ?_
  refine Runs.bind Runs.emitRenewalTrace fun _ traced htraced => Runs.getTask ?_
  refine Runs.branch (fun _ => beginSession_runs hF) fun _ => startReadyRenewals_runs ?_
  exact RenewsMany.inPlay htraced (RenewsMany.inPlay hneeded h)

theorem loadRenewalFloor_spends (foundation : RoomSessionFoundation L) :
    Spends (loadRenewalFloor foundation) := by
  refine Spends.getTask fun task => ?_
  split
  · exact Spends.pure _
  · refine Spends.bind (Spends.bind (Spends.effect _ _) fun _ => World.Spent.refl) fun encoded =>
      Spends.bind (Spends.check _) fun floor => Spends.bind ?_ fun _ =>
        Spends.bind (Spends.modifyCore _) fun _ => Spends.pure _
    cases floor with
    | none => exact Spends.pure _
    | some recovered => exact Spends.emitRenewalTrace _ _ _ _

/-- An offer that is not taken up changes nothing but offers of this side. Otherwise what holds
of the installation of its session holds of it. -/
theorem carrierOffer_ends {offer : OfferBody L} {Q : Unit → Core L → Prop}
    {E : Stop → Core L → Prop} (h : InPlay F world.core)
    (hquiet : ∀ core, RenewsMany F world.core core → Q () core ∧ ∀ stop, E stop core)
    (hinstall : ∀ core installation after, RenewsMany F world.core core →
      (world.core.task.renewalFloors[offer.source]? ≠ none → core = world.core) →
      core.task.pending = world.core.task.pending →
      TakesUp core offer installation → after.core = core.drops offer.source →
      world.Spent after → Ends Q E (installSession offer.source installation after)) :
    Ends Q E (carrierOffer offer world) := by
  refine Ends.getTask ?_
  cases hfound : world.core.task.foundations.entries[offer.source]? with
  | none => exact Ends.fail ((hquiet _ .refl).2 _)
  | some localSide =>
    have hF := h.founded _ localSide hfound
    have haddressed := world.core.task.foundations.keyed _ localSide hfound
    refine Post.bind (Post.mono admitOffer_ends (fun _ _ h => h)
      fun _ _ h => (hquiet _ h).2 _) fun _ admitted ⟨hsame,hadmits⟩ => ?_
    subst hsame
    have hload : Ends (fun floor core => Loaded F admitted.core localSide.peer floor core ∧
        (admitted.core.task.renewalFloors[offer.source]? ≠ none → core = admitted.core))
        (fun _ core => RenewsMany F admitted.core core) (loadRenewalFloor localSide admitted) := by
      rw [← haddressed]
      cases hfloor : admitted.core.task.renewalFloors[localSide.peer]? with
      | none =>
        exact Ends.mono (loadRenewalFloor_ends hF)
          (fun _ _ h => ⟨h,fun hcached => absurd rfl hcached⟩)
          fun _ _ h => h
      | some floor =>
        refine Ends.getTask ?_
        simp only [hfloor]
        exact Ends.pure ⟨⟨.refl,hfloor,rfl⟩,fun _ => rfl⟩
    refine Post.bind (Post.mono (Ends.spending hload (loadRenewalFloor_spends _)) (fun _ _ h => h)
      fun _ _ h => (hquiet _ h.1).2 _) fun floor loaded ⟨⟨hloaded,hcached⟩,hspent⟩ => ?_
    have hplay : InPlay F loaded.core := RenewsMany.inPlay hloaded.renews h
    have haccept : ∀ replaces, (∀ pending, loaded.core.task.pending[offer.source]? = some pending →
        replaces = true ∧ preferIncomingOffer localSide.localActor offer.source offer.epoch
          pending.manifest.epoch = true) →
        Ends Q E (acceptOffer localSide offer floor replaces loaded) := by
      intro replaces hreplaces
      have hfails : ∀ stop, E stop loaded.core := (hquiet _ hloaded.renews).2
      refine Ends.check (fun verified hverified => ?_) fun _ _ => hfails _
      have hdraw : Ends (fun _ core => core = loaded.core) (fun _ core => core = loaded.core)
          (drawRandom loaded) :=
        Ends.bind (R := fun _ core => core = loaded.core)
          (Ends.effect (fun _ => rfl) (fun _ => rfl) rfl fun _ _ => rfl) fun _ _ h => h
      refine Post.bind (Post.mono (Ends.spending hdraw (Spends.bind (Spends.effect _ _)
        fun _ => Spends.pure _)) (fun _ _ h => h) fun _ _ h => h.1 ▸ hfails _)
        fun drawn after ⟨hafter,hspends⟩ => ?_
      rw [← hafter] at hfails
      refine Ends.check (fun installation hanswer => Ends.getTask <| Ends.refuseIf
        (fun _ => hfails _) fun hdrained => ?_) fun _ _ => hfails _
      obtain ⟨hfoundation,-⟩ := answerOffer_ok hanswer
      have htaken : TakesUp loaded.core offer installation := by
        rw [← hfoundation] at hfound hadmits hverified hanswer hreplaces
        refine ⟨?_,hadmits,⟨floor,verified,_,?_,hverified,hanswer,fun hfloor => ?_⟩,
          fun pending hpending => (hreplaces pending hpending).2⟩
        · rw [hloaded.task]
          exact hfound
        · rw [← haddressed]
          exact hloaded.floor
        · rw [hafter] at hdrained
          exact Bool.eq_false_iff.mpr fun hobligations => hdrained ⟨hfloor,hobligations⟩
      have hdrops : (after.core.mapTask fun task => { task with
          pending := if replaces then task.pending.erase offer.source else task.pending }) =
          loaded.core.drops offer.source := by
        rw [hafter]
        cases replaces with
        | true => rfl
        | false =>
          have hnone : loaded.core.task.pending[offer.source]? = none :=
            Option.eq_none_iff_forall_not_mem.mpr fun pending hpending =>
              absurd (hreplaces pending hpending).1 (by decide)
          rw [Core.drops_of_absent hnone]
          rfl
      refine Post.bind (R := fun _ last => last.core = loaded.core.drops offer.source ∧
        after.Spent last) ⟨hdrops,World.Spent.refl after⟩ fun _ dropped ⟨hdropped,hlast⟩ => ?_
      exact hinstall loaded.core installation dropped hloaded.renews hcached
        (by rw [hloaded.task]) htaken hdropped ((hlast.trans hspends).trans hspent)
    cases hbehind : floor.filter fun floor => offer.epoch ≤ floor.epoch with
    | some behind =>
      exact Ends.mono (counterOffer_runs hF hplay)
        (fun _ _ h => (hquiet _ (hloaded.renews.trans h)).1)
        fun _ _ h => (hquiet _ (hloaded.renews.trans h)).2 _
    | none =>
      refine Ends.getTask ?_
      cases hpending : loaded.core.task.pending[offer.source]? with
      | some pending =>
        refine Ends.branch (fun hprefer => haccept true fun other hother => ?_)
          fun _ => Ends.pure (hquiet _ hloaded.renews).1
        obtain rfl := Option.some.inj (hpending.symm.trans hother)
        exact ⟨rfl,hprefer⟩
      | none =>
        exact haccept false fun other hother => absurd (hpending.symm.trans hother) (by simp)

theorem carrierOffer_runs {offer : OfferBody L} (hframe : G (.offer offer))
    (h : InPlay F world.core) : Runs (Establishes F G) (carrierOffer offer) world := by
  refine carrierOffer_ends h (fun core hrenews => ⟨RenewsMany.establishes hrenews,
      fun _ => RenewsMany.establishes hrenews⟩)
    fun core installation after hrenews _ _ htaken hafter _ => ?_
  have hready := htaken.ready hframe (RenewsMany.inPlay hrenews h)
  exact Ends.mono (installSession_runs hready hafter)
    (fun _ _ h => (RenewsMany.establishes hrenews).trans h)
    fun _ _ h => (RenewsMany.establishes hrenews).trans h

end Offers

section Answers

theorem takePending_ends {peer : ActorId} :
    Ends (fun pending core => world.core.task.pending[peer]? = some pending ∧
        core = world.core.drops peer)
      (fun _ core => core = world.core) (takePending peer world) := by
  refine Ends.getTask ?_
  cases hpending : world.core.task.pending[peer]? with
  | none => exact Ends.fail rfl
  | some pending =>
    exact Ends.bind (R := fun _ core => core = world.core.drops peer) (Ends.modifyTask rfl)
      fun _ _ h => Ends.pure ⟨rfl,h⟩

theorem RoomSessionTask.not_outgrown {task : RoomSessionTask L} {current : RoomSessionFoundation L}
    {pending : PendingSession L} {source : ActorId}
    (h : ¬ task.outgrown current pending source = true) :
    L.frontier current.history = pending.manifest.base ∧
      task.incomingRenewalHasLocalObligations source = false ∧
      task.renewalFloors[source]?.join = pending.renewalFloor := by
  simp only [outgrown,Bool.or_eq_true,decide_eq_true_eq,not_or,ne_eq,not_not,
    Bool.not_eq_true] at h
  obtain ⟨⟨⟨hbase,hwait⟩,hrecovery⟩,hfloor⟩ := h
  exact ⟨hbase,by rw [incomingRenewalHasLocalObligations,hwait,hrecovery]; rfl,hfloor⟩

/-- The Answer completes the pending offer, and this is the session it opens. -/
structure Completes (core : Core L) (answer : AnswerBody L) (pending : PendingSession L)
    (installation : Installation L) : Prop where
  taken : core.task.pending[answer.source]? = some pending
  verified : ∃ remoteFoundation keys authorization,
    verifyAnswer pending answer = .ok (remoteFoundation,keys) ∧
    authorizePair pending.foundation pending.manifest pending.localFoundation remoteFoundation
      pending.renewalFloor = .ok authorization ∧
    installation = ⟨pending.foundation,authorization,answer.sessionId,keys,none⟩
  drained : core.task.incomingRenewalHasLocalObligations answer.source = false

theorem Completes.ready {core : Core L} {answer : AnswerBody L} {pending : PendingSession L}
    {installation : Installation L} (h : Completes core answer pending installation)
    (hframe : G (.answer answer)) (hplay : InPlay F core) :
    Ready F G (core.drops answer.source) answer.source installation := by
  obtain ⟨remoteFoundation,keys,authorization,hverified,hauthorized,rfl⟩ := h.verified
  obtain ⟨hF,haddressed,hmade,hfloor⟩ := hplay.pending _ pending h.taken
  have hidle : (core.drops answer.source).task.pending[answer.source]? = none :=
    Std.ExtTreeMap.getElem?_erase_self
  exact ⟨hF,haddressed,pending.renewalFloor,hfloor,
    .completed hframe rfl hidle hmade rfl hverified hauthorized rfl,fun _ => h.drained⟩

/-- An Answer without an offer changes nothing. Otherwise the offer is used up, and its session
is ready, or only offers of this side change. -/
theorem prepareAnswer_ends {answer : AnswerBody L} {Q : Option (Installation L) → Core L → Prop}
    {E : Stop → Core L → Prop} (h : InPlay F world.core) (hidle : ∀ stop, E stop world.core)
    (hlost : ∀ pending core, world.core.task.pending[answer.source]? = some pending →
      RenewsMany F (world.core.drops answer.source) core → Q none core ∧ ∀ stop, E stop core)
    (hready : ∀ pending installation, Completes world.core answer pending installation →
      Q (some installation) (world.core.drops answer.source)) :
    Ends Q E (prepareAnswer answer world) := by
  refine Ends.bind (Ends.mono takePending_ends (fun _ _ h => h) fun _ _ h => h ▸ hidle _)
    fun pending dropped ⟨hpending,hdropped⟩ => ?_
  have hfails : ∀ stop, E stop dropped.core := hdropped ▸ (hlost pending _ hpending .refl).2
  refine Ends.check (fun (remoteFoundation,keys) hverified => Ends.getTask ?_) fun _ _ => hfails _
  cases hfound : dropped.core.task.foundations.entries[answer.source]? with
  | none => exact Ends.fail (hfails _)
  | some current =>
    refine Ends.branch (fun _ => ?_) fun houtgrown => ?_
    · have hplay : InPlay F dropped.core := hdropped ▸ h.drops answer.source
      have hrenews : ∀ core, RenewsMany F dropped.core core → Q none core ∧ ∀ stop, E stop core :=
        fun core hcore => hlost pending core hpending (hdropped ▸ hcore)
      refine Ends.bind (Ends.mono (Runs.needRenewal _) (fun _ _ h => h)
        fun _ _ h => (hrenews _ h).2 _) fun _ needed hneeded => ?_
      refine Ends.bind (Ends.mono (startReadyRenewals_runs (RenewsMany.inPlay hneeded hplay))
        (fun _ _ h => h) fun _ _ h => (hrenews _ (hneeded.trans h)).2 _)
        fun _ renewed hrenewed => ?_
      exact Ends.pure (hrenews _ (hneeded.trans hrenewed)).1
    · obtain ⟨-,hdrained,-⟩ := RoomSessionTask.not_outgrown houtgrown
      refine Ends.check (fun authorization hauthorized => Ends.pure ?_) fun _ _ => hfails _
      rw [hdropped] at hdrained ⊢
      exact hready pending _ ⟨hpending,⟨_,_,_,hverified,hauthorized,rfl⟩,hdrained⟩

theorem carrierAnswer_runs {answer : AnswerBody L} (hframe : G (.answer answer))
    (h : InPlay F world.core) : Runs (Establishes F G) (carrierAnswer answer) world := by
  have hdrops : EstablishesMany F G world.core (world.core.drops answer.source) :=
    .single (.dropped answer.source)
  have hprepared : Ends (fun prepared core => EstablishesMany F G world.core core ∧
      ∀ installation, prepared = some installation → core = world.core.drops answer.source ∧
        Ready F G core answer.source installation)
      (fun _ core => EstablishesMany F G world.core core) (prepareAnswer answer world) := by
    refine prepareAnswer_ends h (fun _ => .refl) (fun pending core _ hrenews => ?_)
      fun pending installation hcompletes => ⟨hdrops,?_⟩
    · have hmany := hdrops.trans (RenewsMany.establishes hrenews)
      exact ⟨⟨hmany,fun _ hnone => by cases hnone⟩,fun _ => hmany⟩
    · rintro _ ⟨⟩
      exact ⟨rfl,hcompletes.ready hframe h⟩
  refine Ends.bind hprepared fun prepared after ⟨hmoves,hready⟩ => ?_
  cases prepared with
  | none => exact Ends.pure hmoves
  | some installation =>
    obtain ⟨hcore,hready⟩ := hready installation rfl
    have hidle : after.core.task.pending[answer.source]? = none := by
      rw [hcore]
      exact Std.ExtTreeMap.getElem?_erase_self
    exact Ends.mono (installSession_runs hready (Core.drops_of_absent hidle).symm)
      (fun _ _ h => hmoves.trans h) fun _ _ h => hmoves.trans h

end Answers

end Establishing

section Live

theorem Runs.failSessionGeneration (reason : String) :
    Runs (Moves F G) (Session.failSessionGeneration reason : TaskM L α) world :=
  Runs.bind (Runs.modifyCore (.ended _)) fun _ _ _ => Runs.fail _

theorem Runs.emitRealtimeOrFailGeneration {event : RoomSessionRealtimeEgress L}
    (h : Moves F G world.core (world.core.sends [] (.realtime event))) :
    Runs (Moves F G) (Session.emitRealtimeOrFailGeneration event) world := by
  refine Runs.bind (Runs.attempt (Runs.emit h)) fun first after _ => ?_
  cases first with
  | ok _ => exact Runs.pure ()
  | error firstError => exact Runs.failSessionGeneration _

theorem Runs.onActive {peer : ActorId} {missing : String} {program : ActiveM L α}
    (h : Keeps program) : Runs (Moves F G) (Session.onActive peer missing program) world := by
  refine Runs.getTask ?_
  cases hactive : world.core.task.active[peer]? with
  | none => exact Runs.fail missing
  | some active =>
    have hprogram := h active
    simp only
    cases hrun : program active with
    | ok value after =>
      rw [hrun] at hprogram
      exact Runs.bind (Runs.modifyTask (.served hactive hprogram)) fun _ _ _ => Runs.pure value
    | error message after =>
      rw [hrun] at hprogram
      exact Runs.bind (Runs.modifyTask (.served hactive hprogram)) fun _ _ _ => Runs.fail message

theorem Runs.startReadyRenewals (h : InPlay F world.core) :
    Runs (Moves F G) (Session.startReadyRenewals (L := L)) world :=
  Runs.moves (Runs.establishes (startReadyRenewals_runs h))

def Shown (core : Core L) (projection : RoomSessionProjection) : Prop :=
  ∃ (peer : ActorId) (active : ActiveSession L),
    core.task.active[peer]? = some active ∧ projection.Of active.identity

theorem Shown.congr {before after : Core L} {projection : RoomSessionProjection}
    (h : Shown before projection) (hactive : after.task.active = before.task.active) :
    Shown after projection := by
  obtain ⟨peer,active,hpeer,hof⟩ := h
  exact ⟨peer,active,hactive ▸ hpeer,hof⟩

theorem Shown.serves {core : Core L} {projection : RoomSessionProjection} {peer : ActorId}
    {before after : ActiveSession L} (h : Shown core projection)
    (hactive : core.task.active[peer]? = some before) (hkeeps : KeepsSession before after) :
    Shown (core.serves peer after) projection := by
  obtain ⟨other,active,hother,hof⟩ := h
  by_cases hpeer : peer = other
  · subst hpeer
    obtain rfl := Option.some.inj (hactive.symm.trans hother)
    exact ⟨peer,after,Std.ExtTreeMap.getElem?_insert_self,hkeeps.identity ▸ hof⟩
  · refine ⟨other,active,?_,hof⟩
    simp only [Core.serves,Core.mapTask,Std.ExtTreeMap.getElem?_insert,
      Std.LawfulEqCmp.compare_eq_iff_eq,hpeer,if_false]
    exact hother

theorem Shown.published {projection : RoomSessionProjection} {event : RoomSessionRealtimeEgress L}
    {core : Core L} (h : Shown core projection) (hprojection : event.projection = projection)
    (hcarrier : ∀ body, event.carrier = some body → ∃ frame, body = .event frame) :
    Moves F G core (core.sends [] (.realtime event)) := by
  obtain ⟨peer,active,hactive,hof⟩ := h
  exact .published hactive (hprojection ▸ hof) hcarrier

theorem onActive_shown {peer : ActorId} {missing : String} {program : ActiveM L α}
    (h : Keeps program) :
    Ends (fun _ core => MovesMany F G world.core core ∧
        ∀ projection, Shown world.core projection → Shown core projection)
      (fun _ core => MovesMany F G world.core core) (onActive peer missing program world) := by
  refine Ends.getTask ?_
  cases hactive : world.core.task.active[peer]? with
  | none => exact Ends.fail .refl
  | some active =>
    have hprogram := h active
    simp only
    cases hrun : program active with
    | ok value after =>
      rw [hrun] at hprogram
      refine Ends.bind (R := fun _ core => core = world.core.serves peer after)
        (Ends.modifyTask rfl)
        fun _ _ hserved => Ends.pure ?_
      rw [hserved]
      exact ⟨.single (.served hactive hprogram),fun _ hshown => hshown.serves hactive hprogram⟩
    | error message after =>
      rw [hrun] at hprogram
      exact Ends.bind (R := fun _ core => MovesMany F G world.core core)
        (Ends.modifyTask (.single (.served hactive hprogram))) fun _ _ h => Ends.fail h

theorem addInflight_runs (session : RoomSessionEpochIdentity) (plan : L.ReificationPlan) :
    Runs (Moves F G) (addInflight session plan) world :=
  Runs.modifyTask (.inflight _)

theorem dropInflight_runs (session : RoomSessionEpochIdentity) (plan : L.ReificationPlan) :
    Runs (Moves F G) (dropInflight session plan) world :=
  Runs.modifyTask (.inflight _)

theorem sendReification_runs (reification : RoomSessionReification L) :
    Runs (Moves F G) (sendReification reification) world :=
  Runs.bind (Ends.effect (fun _ => .single (.queued reification)) (fun _ => .refl)
    (.single (.queued reification)) fun h => absurd h (by decide)) fun _ _ _ => Runs.pure ()

theorem enqueueReification_runs (peer : ActorId) (session : RoomSessionEpochIdentity)
    (ready : ReadyReification L) :
    Runs (Moves F G) (enqueueReification peer session ready) world := by
  obtain ⟨plan,command,intentToken⟩ := ready
  refine Runs.bind (addInflight_runs session plan) fun _ _ _ => ?_
  refine Runs.bind (Runs.attempt (sendReification_runs _)) fun sent _ _ => ?_
  cases sent with
  | ok _ => exact Runs.pure ()
  | error _ => exact Runs.bind (dropInflight_runs session plan) fun _ _ _ => Runs.fail _

theorem enqueueReifications_runs (peer : ActorId) (ready : List (ReadyReification L)) :
    Runs (Moves F G) (enqueueReifications peer ready) world := by
  refine Runs.getTask ?_
  cases world.core.task.active[peer]? with
  | none => exact Runs.fail _
  | some active => exact Runs.forM fun item _ _ _ => enqueueReification_runs peer _ item

theorem removeInflightReification_runs (session : RoomSessionEpochIdentity)
    (plan : L.ReificationPlan) :
    Runs (Moves F G) (removeInflightReification session plan) world := by
  refine Runs.getTask ?_
  cases world.core.task.inflightReifications[session]? with
  | none => exact Runs.fail _
  | some inflight =>
    exact Runs.refuseIf fun _ => Runs.bind (dropInflight_runs session plan)
      fun _ _ _ => Runs.modifyCore (.confirmed _)

theorem rejectIntent_runs (intentToken : PerformanceIntentToken) (reason : String) :
    Runs (Moves F G) (rejectIntent intentToken reason) world :=
  Runs.emit (.spoke rfl rfl)

/-- Queueing a local plan leaves the active sessions alone, unless the generation ends. -/
theorem queueLocalPlan_ends (peer : ActorId) (session : RoomSessionEpochIdentity)
    (intentToken : PerformanceIntentToken) (event : LocalSessionEvent L) :
    Ends (fun _ core => MovesMany F G world.core core ∧
        core.task.active = world.core.task.active)
      (fun _ core => MovesMany F G world.core core)
      (queueLocalPlan peer session intentToken event world) := by
  unfold queueLocalPlan
  cases event.plan with
  | none => exact Ends.pure ⟨.refl,rfl⟩
  | some plan =>
    have hadds : MovesMany F G world.core (world.core.mapTask _) := .single (.inflight
      (InflightReifications.add session (L.planCorrelation plan)
        world.core.task.inflightReifications))
    refine Ends.bind (R := fun _ core => MovesMany F G world.core core ∧
      core.task.active = world.core.task.active) (Ends.modifyTask ⟨hadds,rfl⟩)
      fun _ added ⟨hadded,hactive⟩ => ?_
    have hqueued : MovesMany F G world.core (added.core.queues
        ⟨peer,session,plan,event.command,some intentToken⟩) := hadded.tail (.queued _)
    have hsent : Ends (fun _ core => MovesMany F G world.core core ∧
        core.task.active = world.core.task.active) (fun _ core => MovesMany F G world.core core)
        (sendReification ⟨peer,session,plan,event.command,some intentToken⟩ added) :=
      Ends.bind (R := fun _ core => MovesMany F G world.core core ∧
        core.task.active = world.core.task.active) (Ends.effect (fun _ => ⟨hqueued,hactive⟩)
          (fun _ => hadded) hqueued fun h => absurd h (by decide)) fun _ _ h => Ends.pure h
    refine Ends.bind (Ends.attempt hsent) fun sent after hafter => ?_
    cases sent with
    | ok _ => exact Ends.pure hafter
    | error _ =>
      refine Ends.bind (R := fun _ core => MovesMany F G world.core core) ?_ fun _ failed h => ?_
      · exact Ends.modifyTask (hafter.tail (.inflight _))
      · exact Ends.bind (R := fun _ core => MovesMany F G world.core core)
          (Ends.modifyCore (h.tail (.ended _))) fun _ _ h => Ends.fail h

theorem publishLocalEvent_runs (peer : ActorId) (intentToken : PerformanceIntentToken)
    (event : LocalSessionEvent L) :
    Runs (Moves F G) (publishLocalEvent peer intentToken event) world := by
  refine Runs.getTask ?_
  cases hactive : world.core.task.active[peer]? with
  | none => exact Runs.fail _
  | some active =>
    refine Runs.bind_of (Q := fun _ core => core.task.active = world.core.task.active)
      (Ends.modifyCore ⟨.single (.ingested _),rfl⟩) fun _ noted hnoted _ => ?_
    refine Runs.bind_of (Q := fun _ core => core.task.active = world.core.task.active)
      (Ends.mono (queueLocalPlan_ends peer active.identity intentToken event)
        (fun _ _ h => ⟨h.1,h.2.trans hnoted⟩) fun _ _ h => h) fun _ queued hqueued _ => ?_
    refine Runs.emitRealtimeOrFailGeneration (.published (hqueued ▸ hactive) ⟨rfl,rfl,rfl⟩ ?_)
    rintro body ⟨⟩
    exact ⟨_,rfl⟩

theorem sealLocalEdit_runs (peer : ActorId) (command : MusicOp)
    (intentToken : PerformanceIntentToken) :
    Runs (Moves F G) (sealLocalEdit (L := L) peer command intentToken) world := by
  refine Runs.bind (Runs.attempt Runs.quiet) fun reserved _ _ => ?_
  cases reserved with
  | error _ => exact rejectIntent_runs _ _
  | ok _ =>
    refine Runs.bind (Runs.attempt Runs.nowTicks) fun now _ _ => ?_
    cases now with
    | error _ => exact rejectIntent_runs _ _
    | ok ticks =>
      refine Runs.bind (Runs.attempt (Runs.onActive (localEvent_keeps _ _ _))) fun made _ _ => ?_
      cases made with
      | error _ => exact Runs.failSessionGeneration _
      | ok event => exact publishLocalEvent_runs peer intentToken event

theorem localEdit_runs (command : MusicOp) (intentToken : PerformanceIntentToken) :
    Runs (Moves F G) (localEdit (L := L) command intentToken) world := by
  refine Runs.getTask ?_
  cases world.core.task.events with
  | none => exact Runs.fail _
  | some workerGeneration =>
    refine Runs.branch (fun _ => rejectIntent_runs _ _) fun _ => ?_
    refine Runs.branch (fun _ => rejectIntent_runs _ _) fun _ => ?_
    cases world.core.task.selected with
    | none => exact Runs.emit (.spoke rfl rfl)
    | some selected =>
      obtain ⟨peer,active⟩ := selected
      refine Runs.branch (fun _ => Runs.emit (.spoke rfl rfl)) fun _ => ?_
      cases active.preflightLocalEvent with
      | error _ => exact rejectIntent_runs _ _
      | ok _ => exact sealLocalEdit_runs peer command intentToken

theorem publishChange_runs (peer : ActorId) (changed : Option RoomSessionProjectionKind) :
    Runs (Moves F G) (publishChange (L := L) peer changed) world := by
  cases changed with
  | none => exact Runs.pure ()
  | some kind =>
    refine Runs.getTask ?_
    cases hactive : world.core.task.active[peer]? with
    | none => exact Runs.fail _
    | some active =>
      refine Runs.branch (fun _ => Runs.emitRealtimeOrFailGeneration ?_) fun _ => Runs.pure ()
      exact .published hactive ⟨rfl,rfl,rfl⟩ fun body hbody => by cases hbody

theorem carrierEvent_runs (event : EventBody) (h : InPlay F world.core) (hstable : Stable F) :
    Runs (Moves F G) (carrierEvent (L := L) event) world := by
  refine Runs.getTask <| Runs.branch (fun _ => ?_) fun _ => ?_
  · refine Runs.bind Runs.nowTicks fun ticks _ _ => ?_
    refine Runs.bind (Runs.onActive (receiveRemote_keeps _)) fun ⟨atTime,received⟩ _ _ => ?_
    refine Runs.branch (fun _ => ?_) fun _ => Runs.pure ()
    refine Runs.bind (Runs.attempt
      (Runs.onActive (keepsSession_background.ingestFresh _ _ _ _))) fun taken _ _ => ?_
    cases taken with
    | error _ => exact Runs.failSessionGeneration _
    | ok changed => exact publishChange_runs event.source changed
  · refine Runs.bind (Runs.needRenewal _).establishes.moves fun _ needed hneeded => Runs.getTask ?_
    have hinplay := MovesMany.inPlay hstable hneeded h
    cases hfound : needed.core.task.foundations.entries[event.source]? with
    | none => exact Runs.pure ()
    | some foundation =>
      exact Runs.branch (fun _ => Runs.startReadyRenewals hinplay)
        fun _ => (beginSession_runs (hinplay.founded _ foundation hfound)).establishes.moves

theorem selectChanged_ends (peer : ActorId) (changed : Option RoomSessionProjectionKind) :
    Ends (fun projections core => core = world.core ∧
        ∀ projection ∈ projections, Shown world.core projection)
      (fun _ core => core = world.core) (selectChanged peer changed world) := by
  cases changed with
  | none => exact Ends.pure ⟨rfl,fun _ h => absurd h (List.not_mem_nil)⟩
  | some kind =>
    refine Ends.getTask ?_
    cases hactive : world.core.task.active[peer]? with
    | none => exact Ends.fail rfl
    | some active =>
      refine Ends.pure ⟨rfl,fun projection hprojection => ?_⟩
      split at hprojection
      · obtain rfl := List.mem_singleton.mp hprojection
        exact ⟨peer,active,hactive,rfl,rfl,rfl⟩
      · exact absurd hprojection (List.not_mem_nil)

theorem eachSession_ends {program : ActiveM L (Option RoomSessionProjectionKind)}
    (h : Keeps program) (peers : List ActorId) :
    Ends (fun projections core => MovesMany F G world.core core ∧
        (∀ projection ∈ projections, Shown core projection) ∧
        ∀ projection, Shown world.core projection → Shown core projection)
      (fun _ core => MovesMany F G world.core core) (eachSession program peers world) := by
  induction peers generalizing world with
  | nil => exact Ends.pure ⟨.refl,fun _ h => absurd h (List.not_mem_nil),fun _ h => h⟩
  | cons peer rest ih =>
    refine Ends.bind (onActive_shown h) fun changed served ⟨hserved,hkept⟩ => ?_
    refine Ends.bind (Ends.mono (selectChanged_ends peer changed) (fun _ _ h => h)
      fun _ _ h => h ▸ hserved) fun projected selected ⟨hselected,hprojected⟩ => ?_
    have hrest := @ih selected
    rw [hselected] at hrest
    refine Ends.bind (Ends.mono hrest (fun _ _ h => h) fun _ _ h => hserved.trans h)
      fun others after ⟨hafter,hothers,hkeeps⟩ => Ends.pure ⟨hserved.trans hafter,?_,?_⟩
    · intro projection hprojection
      rcases List.mem_append.mp hprojection with hmem | hmem
      · exact hkeeps projection (hprojected projection hmem)
      · exact hothers projection hmem
    · exact fun projection hprojection => hkeeps projection (hkept projection hprojection)

theorem updateFoundationHorizon_ends {horizon : DurableHorizon L} (hstable : Stable F)
    (h : InPlay F world.core) :
    Ends (fun _ core => MovesMany F G world.core core ∧
        core.task.active = world.core.task.active)
      (fun _ core => MovesMany F G world.core core) (updateFoundationHorizon horizon world) := by
  refine Ends.modifyTask
    ⟨.single (.establishes (.founded fun peer foundation hfoundation => ?_)),rfl⟩
  simp only [Foundations.updateHorizon,Std.ExtTreeMap.getElem?_map,Option.map_eq_some_iff]
    at hfoundation
  obtain ⟨old,hold,rfl⟩ := hfoundation
  exact hstable _ _ _ _ (h.founded peer old hold)

theorem emitProjections_runs {projections : List RoomSessionProjection}
    (h : ∀ projection ∈ projections, Shown world.core projection) :
    Ends (fun _ core => MovesMany F G world.core core)
      (fun _ core => MovesMany F G world.core core) (emitProjections projections world) := by
  refine Ends.mono (Ends.forM (fun core => MovesMany F G world.core core ∧
    core.task.active = world.core.task.active) ⟨.refl,rfl⟩
    fun projection hprojection after ⟨hmoves,hactive⟩ => ?_) (fun _ _ h => h.1) fun _ _ h => h
  have hshown : Moves F G after.core
      (after.core.sends [] (.realtime { projection := projection })) :=
    Shown.published ((h projection hprojection).congr hactive) rfl fun body hbody => by cases hbody
  exact Ends.emit ⟨hmoves.tail hshown,hactive⟩ (fun _ => hmoves) (hmoves.tail hshown)

theorem advanceAll_runs (horizon : DurableHorizon L) (hstable : Stable F)
    (h : InPlay F world.core) : Runs (Moves F G) (advanceAll horizon) world := by
  refine Runs.getTask ?_
  refine Runs.bind_of (Ends.mono (eachSession_ends (keepsSession_background.advanceDurable _ _ _) _)
    (fun _ _ h => ⟨h.1,h.2.1⟩) fun _ _ h => h) fun projections advanced hshown hadvanced => ?_
  have hinplay := MovesMany.inPlay hstable hadvanced h
  refine Runs.bind_of (updateFoundationHorizon_ends hstable hinplay)
    fun _ updated hactive hupdated => ?_
  refine Runs.bind (emitProjections_runs fun projection hprojection =>
    (hshown projection hprojection).congr hactive) fun _ emitted hemitted => ?_
  exact Runs.startReadyRenewals
    (MovesMany.inPlay hstable hemitted (MovesMany.inPlay hstable hupdated hinplay))

theorem resetAllProjections_runs (horizon : DurableHorizon L) (hstable : Stable F)
    (h : InPlay F world.core) : Runs (Moves F G) (resetAllProjections horizon) world := by
  have hkeeps : Keeps (do
      let _ ← resynchronizeExact horizon.durableRevision horizon.history horizon.durableView
      return some .reset : ActiveM L (Option RoomSessionProjectionKind)) :=
    Keeps.bind (keepsSession_background.resynchronizeExact _ _ _) fun _ => Keeps.pure _
  refine Runs.getTask ?_
  refine Runs.bind_of (Ends.mono (eachSession_ends hkeeps _)
    (fun _ _ h => ⟨h.1,h.2.1⟩) fun _ _ h => h) fun projections reset hshown hreset => ?_
  have hinplay := MovesMany.inPlay hstable hreset h
  refine Runs.bind_of (updateFoundationHorizon_ends hstable hinplay)
    fun _ updated hactive hupdated => ?_
  have hupdatedInPlay := MovesMany.inPlay hstable hupdated hinplay
  cases hlast : projections.getLast? with
  | none => exact Runs.bind (Runs.startReadyRenewals hupdatedInPlay) fun _ _ _ => Runs.pure _
  | some projection =>
    have hpublished : Moves F G updated.core
        (updated.core.sends [] (.realtime { projection := projection })) :=
      Shown.published ((hshown projection (List.mem_of_getLast? hlast)).congr hactive) rfl
        fun body hbody => by cases hbody
    refine Runs.bind (Runs.emit hpublished) fun _ _ hemitted => ?_
    exact Runs.bind (Runs.startReadyRenewals (MovesMany.inPlay hstable hemitted hupdatedInPlay))
      fun _ _ _ => Runs.pure _

theorem takeAdmission_keeps {record : L.SessionAdmission → ActiveM L L.SessionAdmission}
    (h : ∀ replica, Keeps (record replica)) (admitted : AdmittedEntry L) :
    Keeps (takeAdmission record admitted) :=
  Keeps.bind (Keeps.orThrow _) fun replica => Keeps.bind (h replica) fun _ =>
    Keeps.bind (keepsSession_background.confirm _ _ _ _) fun _ => Keeps.bind retryReifications_keeps
      fun _ => Keeps.pure _

theorem recordPlanned_keeps (plan : L.ReificationPlan) (entry : L.Entry)
    (replica : L.SessionAdmission) : Keeps (recordPlanned plan entry replica) :=
  keepsSession_background.onPlanner _

theorem recordObserved_keeps (entry : L.Entry) (replica : L.SessionAdmission) :
    Keeps (recordObserved entry replica) :=
  Stays.get fun _ => keepsSession_background.onPlanner _

theorem publishConfirmation_runs (peer : ActorId) (kind : RoomSessionProjectionKind)
    (ready : List (ReadyReification L)) (intentToken : Option PerformanceIntentToken)
    (horizon : DurableHorizon L) (hstable : Stable F) (h : InPlay F world.core) :
    Runs (Moves F G) (publishConfirmation peer kind ready intentToken horizon) world := by
  refine Runs.bind_of (Q := fun projection core => ∀ shown, projection = some shown →
    Shown core shown) ?_ fun projection advanced hshown hadvanced => ?_
  · refine Ends.bind (Ends.mono (selectChanged_ends peer (some kind)) (fun _ _ h => h)
      fun _ _ h => h ▸ .refl) fun own selected ⟨hselected,hown⟩ => Ends.getTask ?_
    rw [← hselected] at hown ⊢
    refine Ends.bind (eachSession_ends (keepsSession_background.advanceDurable _ _ _) _)
      fun projections after ⟨hmoves,hprojections,hkept⟩ =>
        Ends.pure ⟨hmoves,fun shown hlast => ?_⟩
    rcases List.mem_append.mp (List.mem_of_getLast? hlast) with hmem | hmem
    · exact hkept shown (hown shown hmem)
    · exact hprojections shown hmem
  · refine Runs.bind_of
      (updateFoundationHorizon_ends hstable (MovesMany.inPlay hstable hadvanced h))
      fun _ updated hactive hupdated => ?_
    cases projection with
    | none => exact Runs.pure ()
    | some projection =>
      exact Runs.emitRealtimeOrFailGeneration (Shown.published
        ((hshown projection rfl).congr hactive) rfl fun body hbody => by cases hbody)

/-- What follows an admission in a live session: it is shown, the ready edits are queued and the
renewals that are ready are started. -/
theorem finishConfirmation_runs (peer : ActorId) (kind : RoomSessionProjectionKind)
    (ready : List (ReadyReification L)) (intentToken : Option PerformanceIntentToken)
    (horizon : DurableHorizon L) (hstable : Stable F) (h : InPlay F world.core) :
    Runs (Moves F G) (do
      publishConfirmation peer kind ready intentToken horizon
      enqueueReifications peer ready
      startReadyRenewals) world :=
  Runs.bind (publishConfirmation_runs peer kind ready intentToken horizon hstable h)
    fun _ _ hpublished => Runs.bind (enqueueReifications_runs peer ready) fun _ _ hqueued =>
      Runs.startReadyRenewals
        (MovesMany.inPlay hstable hqueued (MovesMany.inPlay hstable hpublished h))

theorem confirmRetired_runs (commit : LocalCommit L) (h : InPlay F world.core) :
    Runs (Moves F G) (confirmRetired commit) world := by
  refine Ends.bind (R := fun _ _ => False) (Ends.getTask ?_) fun _ _ h => h.elim
  have hnone : world.core.task.retired[commit.session]? = none := by simp [h.retired]
  simp only [hnone]
  exact Ends.fail .refl

theorem confirmLocal_runs (commit : LocalCommit L) (hstable : Stable F)
    (h : InPlay F world.core) : Runs (Moves F G) (confirmLocal commit) world := by
  refine Runs.getTask <| Runs.branch (fun _ => ?_) fun _ => confirmRetired_runs commit h
  refine Runs.bind (Runs.onActive (takeAdmission_keeps (recordPlanned_keeps _ _) _))
    fun ⟨ready,kind⟩ _ htaken => ?_
  refine Runs.bind (removeInflightReification_runs _ _) fun _ _ hremoved => ?_
  exact finishConfirmation_runs _ _ _ _ _ hstable
    (MovesMany.inPlay hstable hremoved (MovesMany.inPlay hstable htaken h))

theorem observe_runs (admitted : AdmittedEntry L) (hstable : Stable F)
    (h : InPlay F world.core) : Runs (Moves F G) (observe admitted) world := by
  refine Runs.branch (fun _ => Runs.check fun manifest _ => Runs.getTask ?_) fun _ => Runs.pure ()
  cases world.core.task.peerOfManifest manifest with
  | none => exact advanceAll_runs _ hstable h
  | some peer =>
    refine Runs.bind (Runs.onActive (takeAdmission_keeps (recordObserved_keeps _) _))
      fun ⟨ready,kind⟩ _ htaken => ?_
    exact finishConfirmation_runs _ _ _ _ _ hstable (MovesMany.inPlay hstable htaken h)

/-- The foundations and the frames of an input are among those considered. -/
def RoomSessionTaskInput.Within (F : RoomSessionFoundation L → Prop)
    (G : SessionCarrierBody L → Prop) : RoomSessionTaskInput L → Prop
  | .startPeer foundation => F foundation
  | .refreshFoundations foundations => ∀ foundation ∈ foundations, F foundation
  | .application _ (.ok (.carrier (.ok body))) => G body
  | _ => True

theorem carrier_runs {body : SessionCarrierBody L} (hframe : G body) (hstable : Stable F)
    (h : InPlay F world.core) : Runs (Moves F G) (carrier body) world := by
  cases body with
  | offer offer => exact (carrierOffer_runs hframe h).moves
  | answer answer => exact (carrierAnswer_runs hframe h).moves
  | event event => exact carrierEvent_runs event h hstable

theorem accept_runs {input : RoomSessionTaskInput L} (hinput : input.Within F G)
    (hstable : Stable F) (h : InPlay F world.core) : Runs (Moves F G) (accept input) world := by
  cases input with
  | configure generation traceEnabled renewalTestCut => exact Runs.modifyTask (.configured _ _ _)
  | startPeer foundation => exact (startPeer_runs hinput h).moves
  | application channel decoded =>
    refine Runs.refuseIf fun _ => Runs.check fun body hbody => ?_
    subst hbody
    cases body with
    | localPitchEdit command intentToken => exact localEdit_runs command intentToken
    | carrier decoded =>
      refine Runs.check fun body hbody => ?_
      subst hbody
      exact carrier_runs hinput hstable h
  | localCommitted commit => exact confirmLocal_runs commit hstable h
  | observed admitted => exact observe_runs admitted hstable h
  | durableAdvanced horizon => exact advanceAll_runs horizon hstable h
  | resetProjection horizon =>
    exact Runs.bind (resetAllProjections_runs horizon hstable h) fun _ _ _ => Runs.pure _
  | repairResynchronized horizon =>
    exact Runs.bind (resetAllProjections_runs horizon hstable h) fun _ _ _ => Runs.pure _
  | refreshFoundations foundations =>
    refine Runs.bind (Runs.modifyTask (.establishes (.founded (Foundations.ofList_founded hinput))))
      fun _ _ hfounded => ?_
    exact Runs.startReadyRenewals (MovesMany.inPlay hstable hfounded h)

theorem handle_runs {input : RoomSessionTaskInput L} (hinput : input.Within F G)
    (hstable : Stable F) (h : InPlay F world.core) : Runs (Moves F G) (handle input) world := by
  refine Runs.bind (Runs.attempt (accept_runs hinput hstable h)) fun accepted _ _ => ?_
  cases accepted with
  | ok _ => exact Runs.pure ()
  | error error =>
    refine Runs.bind (Runs.attempt (Runs.emit (.spoke rfl rfl))) fun _ _ _ => Runs.getTask ?_
    exact Runs.branch (fun _ => ReflTransGen.refl) fun _ => Runs.pure ()

end Live

section Workers

/-- The inputs of a worker's event are among those considered. -/
def WorkerEvent.Within (F : RoomSessionFoundation L → Prop) (G : SessionCarrierBody L → Prop) :
    WorkerEvent L → Prop
  | .input accepted _ => accepted.Within F G
  | .restart => True

theorem InPlay.restart (core : Core L) : InPlay F core.restart where
  founded peer foundation h := by simp [Core.restart,Foundations.empty] at h
  pending peer pending h := by simp [Core.restart] at h
  active peer active h := by simp [Core.restart] at h
  retired := rfl

theorem Core.step_induct {I : Core L → Prop} (hstable : Stable F)
    (hmoves : ∀ before after, InPlay F before → I before → Moves F G before after → I after)
    (hrestart : ∀ core : Core L, I core → I core.restart) {core : Core L} (hplay : InPlay F core)
    (h : I core) {event : WorkerEvent L} (hevent : event.Within F G) :
    InPlay F (core.step event) ∧ I (core.step event) := by
  have hmany : ∀ after, MovesMany F G core after → InPlay F after ∧ I after := by
    intro after hafter
    induction hafter with
    | refl => exact ⟨hplay,h⟩
    | tail _ hlast ih => exact ⟨hlast.inPlay hstable ih.1,hmoves _ _ ih.1 ih.2 hlast⟩
  cases event with
  | restart => exact ⟨InPlay.restart core,hrestart core h⟩
  | input input answers =>
    have hruns : Runs (Moves F G) (handle input) ⟨core,answers⟩ := handle_runs hevent hstable hplay
    simp only [Core.step]
    cases hrun : handle input ⟨core,answers⟩ with
    | ok value after =>
      rw [Runs,hrun] at hruns
      exact hmany after.core hruns
    | error stop after =>
      rw [Runs,hrun] at hruns
      exact ⟨InPlay.restart after.core,hrestart after.core (hmany after.core hruns).2⟩

theorem Core.run_induct {I : Core L → Prop} (hstable : Stable F)
    (hmoves : ∀ before after, InPlay F before → I before → Moves F G before after → I after)
    (hrestart : ∀ core : Core L, I core → I core.restart) {core : Core L} (hplay : InPlay F core)
    (h : I core) {events : List (WorkerEvent L)} (hevents : ∀ event ∈ events, event.Within F G) :
    InPlay F (core.run events) ∧ I (core.run events) := by
  induction events generalizing core with
  | nil => exact ⟨hplay,h⟩
  | cons event rest ih =>
    obtain ⟨hplay,h⟩ := Core.step_induct hstable hmoves hrestart hplay h
      (hevents event List.mem_cons_self)
    exact ih hplay h fun other hother => hevents other (List.mem_cons_of_mem event hother)

end Workers

end WalkieSongie.Session
