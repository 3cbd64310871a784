import WalkieSongie.WindowAdmissions
import WalkieSongie.WindowEvents
set_option autoImplicit false

/-!
What the installation of a session shows, and with it what every input shows: over a whole run
the window is never handed a projection that its gate refuses.
-/

namespace WalkieSongie.Session
open TaskProgram Relation

variable {L : SessionLibrary} {canonical : Nat × Digest} {world : World L}

section Installing

variable {core : Core L} {peer : ActorId} {installation : Installation L}
  {active : ActiveSession L}

def RoomSessionFoundation.horizon (foundation : RoomSessionFoundation L) : Nat × Digest :=
  (foundation.durableRevision,L.historyRoot foundation.history)

/-- A session of this foundation opens where the window may be moved to. -/
structure OpensAhead (canonical : Nat × Digest) (core : Core L) (peer : ActorId)
    (foundation : RoomSessionFoundation L) : Prop where
  ahead : core.task.presents peer = true →
    AtOrAhead canonical foundation.horizon.1 foundation.horizon.2
  starts : core.task.presents peer = true → core.shown = [] → canonical = foundation.horizon

theorem OpensAhead.congr {after : Core L} {foundation : RoomSessionFoundation L}
    (h : OpensAhead canonical core peer foundation) (hunseen : Unseen core after) :
    OpensAhead canonical after peer foundation where
  ahead hpresents := by
    rw [RoomSessionTask.presents,hunseen.presentation] at hpresents
    exact h.ahead hpresents
  starts hpresents hnone := by
    rw [RoomSessionTask.presents,hunseen.presentation] at hpresents
    rw [hunseen.shown] at hnone
    exact h.starts hpresents hnone

theorem Installation.Opens.manifest (h : installation.Opens active) :
    active.manifest = L.sessionManifest installation.authorization.session := by
  obtain ⟨ticks,hnew⟩ := h
  obtain ⟨-,hsession,-⟩ := ActiveSession.new_ok hnew
  rw [ActiveSession.manifest,hsession]

theorem Installation.Opens.horizon (hpromises : L.WindowPromises) (h : installation.Opens active) :
    (active.projectionEvent .reset).horizon = installation.foundation.horizon ∧
      active.durableRevision = installation.foundation.durableRevision := by
  obtain ⟨ticks,hnew⟩ := h
  obtain ⟨lanes,-,hnew⟩ := bind_eq_ok.mp hnew
  obtain ⟨kernel,-,hnew⟩ := bind_eq_ok.mp hnew
  obtain ⟨projection,hopened,hnew⟩ := bind_eq_ok.mp hnew
  obtain ⟨planner,-,hnew⟩ := bind_eq_ok.mp hnew
  cases hnew
  have hdurable := hpromises.opened _ _ _ _ _ _ hopened
  simp [RoomSessionProjection.horizon,ActiveSession.projectionEvent,hdurable,
    RoomSessionFoundation.horizon]

theorem Installation.Opens.stands (hpromises : L.WindowPromises) (h : installation.Opens active)
    (hahead : AtOrAhead canonical installation.foundation.horizon.1
      installation.foundation.horizon.2) : Stands canonical active := by
  obtain ⟨hhorizon,hrevision⟩ := h.horizon hpromises
  refine ⟨?_,hrevision ▸ hahead.revision⟩
  rw [← hhorizon] at hahead
  exact hahead

/-- The session that is installed is of a higher epoch than the one it replaces. -/
structure Rises (core : Core L) (peer : ActorId) (installation : Installation L) : Prop where
  above : ∀ old, core.task.active[peer]? = some old →
    old.manifest.epoch < (L.sessionManifest installation.authorization.session).epoch
  floor : installation.authorization.floor.epoch =
    (L.sessionManifest installation.authorization.session).epoch

theorem Ready.rises {F : RoomSessionFoundation L → Prop} {G : SessionCarrierBody L → Prop}
    (hlaws : L.RenewalPromises) (h : Ready F G core peer installation) (hfloored : Floored core) :
    Rises core peer installation := by
  obtain ⟨prior,hprior,horigin,-⟩ := h.origin
  obtain ⟨manifest,localSeat,remoteSeat,hauthorized⟩ := horigin.authorized
  obtain ⟨habove,hmanifest,hepoch,-⟩ := authorizePair_ok hlaws hauthorized
  refine ⟨fun old hold => ?_,hmanifest ▸ hepoch⟩
  obtain ⟨floor,hfloor,hle⟩ := hfloored peer old hold
  rw [hmanifest]
  exact Nat.lt_of_le_of_lt hle (habove floor (Option.some.inj (hprior.symm.trans hfloor)))

theorem Floored.cached (h : Floored core) (hrises : Rises core peer installation) :
    Floored (installation.cached peer core) := by
  intro other found hfound
  simp only [Installation.cached,Core.cachesFloor,Core.mapTask,Std.ExtTreeMap.getElem?_insert,
    Std.LawfulEqCmp.compare_eq_iff_eq]
  by_cases hpeer : peer = other
  · subst hpeer
    rw [if_pos rfl]
    exact ⟨_,rfl,hrises.floor ▸ (hrises.above found hfound).le⟩
  · rw [if_neg hpeer]
    exact h other found hfound

theorem InStep.cached (h : InStep canonical core) (hrises : Rises core peer installation) :
    InStep canonical (installation.cached peer core) :=
  ⟨h.taken,h.cursor,h.stands,h.floored.cached hrises⟩

theorem shown_stages (active : ActiveSession L) (carrier : Option (SessionCarrierBody L)) :
    (core.stages peer active carrier).shown = core.shown ++
      if core.task.presents peer = true then [active.projectionEvent .reset] else [] := by
  unfold Core.stages
  by_cases hpresents : core.task.presents peer = true
  · rw [if_pos hpresents,if_pos hpresents,Core.shown_sends]
    rfl
  · rw [if_neg hpresents,if_neg hpresents,List.append_nil]
    cases carrier with
    | none => rfl
    | some body => simp [Core.shown_sends,RoomSessionEgress.projection?]

theorem presents_iff {task : RoomSessionTask L} : task.presents peer = true ↔
    task.presentationPeer = none ∨ task.presentationPeer = some peer := by
  simp [RoomSessionTask.presents]

/-- The first projection of a session continues what the window was shown of an older one. -/
theorem InStep.continues (hpromises : L.WindowPromises) (h : InStep canonical core)
    (hpresents : core.task.presents peer = true)
    (habove : ∀ old, core.task.active[peer]? = some old →
      old.manifest.epoch < active.manifest.epoch) :
    (active.projectionEvent .reset).Continues
      (core.shown.getLast?.map RoomSessionProjection.cursor) := by
  rw [h.cursor]
  cases hselected : core.task.selected with
  | none => exact .first rfl
  | some selected =>
    obtain ⟨other,old⟩ := selected
    obtain ⟨hpresented,hactive⟩ := selected_eq_some.mp hselected
    have hpeer : other = peer := by
      cases presents_iff.mp hpresents with
      | inl hnone => cases hpresented.symm.trans hnone
      | inr hsame => exact Option.some.inj (hpresented.symm.trans hsame)
    subst hpeer
    have hhigher := habove old hactive
    refine .session old.cursor (fun hsame => ?_) hhigher rfl
    have hepoch := hpromises.digest _ _ hsame
    omega

/-- An announced session has been shown if it is to be presented. -/
theorem InStep.staged (hpromises : L.WindowPromises) (h : InStep canonical core)
    (hopens : OpensAhead canonical core peer installation.foundation)
    (hactive : installation.Opens active)
    (habove : ∀ old, core.task.active[peer]? = some old →
      old.manifest.epoch < active.manifest.epoch)
    (carrier : Option (SessionCarrierBody L)) :
    Taken canonical (core.stages peer active carrier).shown := by
  rw [shown_stages]
  by_cases hpresents : core.task.presents peer = true
  · rw [if_pos hpresents]
    obtain ⟨hhorizon,-⟩ := hactive.horizon hpromises
    refine h.taken.concat (h.continues hpromises hpresents habove) ?_ fun hnone => ?_
    · exact (hactive.stands hpromises (hopens.ahead hpresents)).horizon
    · rw [hhorizon]
      exact hopens.starts hpresents hnone
  · rw [if_neg hpresents,List.append_nil]
    exact h.taken

theorem getElem?_activates (other : ActorId) (active : ActiveSession L) :
    (core.activates peer active).task.active[other]? =
      if peer = other then some active else core.task.active[other]? := by
  simp only [Core.activates,Core.mapTask,Core.opens,Std.ExtTreeMap.getElem?_insert,
    Std.LawfulEqCmp.compare_eq_iff_eq]

theorem selected_activates (active : ActiveSession L) : (core.activates peer active).task.selected =
    if core.task.presents peer = true then some (peer,active) else core.task.selected := by
  have hpresentation : (core.activates peer active).task.presentationPeer =
    if core.task.presents peer = true then some peer else core.task.presentationPeer := rfl
  by_cases hpresents : core.task.presents peer = true
  · rw [if_pos hpresents] at hpresentation ⊢
    rw [selected_eq_some,getElem?_activates,if_pos rfl]
    exact ⟨hpresentation,rfl⟩
  · rw [if_neg hpresents] at hpresentation ⊢
    rw [RoomSessionTask.selected,hpresentation,RoomSessionTask.selected]
    cases hpeer : core.task.presentationPeer with
    | none => rfl
    | some other =>
      have hother : peer ≠ other := by
        rintro rfl
        exact hpresents (presents_iff.mpr (.inr hpeer))
      simp [getElem?_activates,hother]

theorem InStep.activates (hpromises : L.WindowPromises) (h : InStep canonical core)
    (hopens : OpensAhead canonical core peer installation.foundation)
    (hactive : installation.Opens active)
    (habove : ∀ old, core.task.active[peer]? = some old →
      old.manifest.epoch < active.manifest.epoch)
    (hfloor : ∃ floor, core.task.renewalFloors[peer]? = some (some floor) ∧
      active.manifest.epoch ≤ floor.epoch) (carrier : Option (SessionCarrierBody L)) :
    InStep canonical ((core.stages peer active carrier).activates peer active) := by
  have htask : (core.stages peer active carrier).task = core.task := Core.stages_task _ _ _ _
  have hshown : ((core.stages peer active carrier).activates peer active).shown =
    (core.stages peer active carrier).shown := rfl
  have hselected : ((core.stages peer active carrier).activates peer active).task.selected =
      if core.task.presents peer = true then some (peer,active) else core.task.selected := by
    rw [selected_activates,htask]
  refine ⟨hshown ▸ h.staged hpromises hopens hactive habove carrier,?_,fun other found hfound => ?_,
    fun other found hfound => ?_⟩
  · rw [hshown,shown_stages,hselected]
    by_cases hpresents : core.task.presents peer = true
    · simp [hpresents]
    · simp only [hpresents,Bool.false_eq_true,if_false,List.append_nil]
      exact h.cursor
  · rw [hselected] at hfound
    by_cases hpresents : core.task.presents peer = true
    · rw [if_pos hpresents] at hfound
      cases hfound
      exact hactive.stands hpromises (hopens.ahead hpresents)
    · rw [if_neg hpresents] at hfound
      exact h.stands other found hfound
  · have hfloors : ((core.stages peer active carrier).activates peer active).task.renewalFloors =
      (core.stages peer active carrier).task.renewalFloors := rfl
    rw [hfloors,htask]
    rw [getElem?_activates,htask] at hfound
    by_cases hpeer : peer = other
    · subst hpeer
      rw [if_pos rfl] at hfound
      cases hfound
      exact hfloor
    · rw [if_neg hpeer] at hfound
      exact h.floored other found hfound

/-- However far an installation gets, the window is in step with what it leaves. -/
theorem installSession_inStep (hpromises : L.WindowPromises) (hrises : Rises core peer installation)
    (hopens : OpensAhead canonical core peer installation.foundation) (h : InStep canonical core)
    (hcore : world.core = core.drops peer) :
    Ends (fun _ => InStep canonical) (Halts canonical)
      (installSession peer installation world) := by
  have hdrops : InStep canonical world.core := hcore ▸ h.unseen (.of_task rfl rfl rfl)
  have hrises : Rises world.core peer installation := hcore ▸ ⟨hrises.above,hrises.floor⟩
  have hopens : OpensAhead canonical world.core peer installation.foundation :=
    hcore ▸ hopens.congr (.of_task rfl rfl rfl)
  have hcached := hdrops.cached hrises
  have hahead : OpensAhead canonical (installation.cached peer world.core) peer
      installation.foundation := ⟨hopens.ahead,hopens.starts⟩
  have habove : ∀ active, installation.Opens active → ∀ old,
      (installation.cached peer world.core).task.active[peer]? = some old →
        old.manifest.epoch < active.manifest.epoch := by
    intro active hactive old hold
    rw [hactive.manifest]
    exact hrises.above old hold
  have hfloor : ∀ active, installation.Opens active → ∃ floor,
      (installation.cached peer world.core).task.renewalFloors[peer]? = some (some floor) ∧
        active.manifest.epoch ≤ floor.epoch := by
    intro active hactive
    refine ⟨_,Std.ExtTreeMap.getElem?_insert_self,?_⟩
    rw [hactive.manifest,hrises.floor]
  have hinstalled : ∀ active, installation.Opens active → InStep canonical
      (((installation.cached peer world.core).stages peer active installation.carrier).activates
        peer active) :=
    fun active hactive => hcached.activates hpromises hahead hactive (habove active hactive)
      (hfloor active hactive) _
  -- short of a crash, what is announced is also made the active session
  have hstill := @installSession_ends _ world peer installation (InStep canonical)
    (fun _ needed consumed h => h.unseen (.of_task rfl rfl rfl))
    (fun _ trace h => h.unseen (.sends rfl)) False fun after hends => by
      cases hends with
      | refused => exact hdrops
      | stored => exact hdrops.unseen ⟨rfl,rfl,rfl,fun _ _ h => h⟩
      | cached _ => exact hcached
      | staged hcut _ => exact hcut.elim
      | installed hactive => exact hinstalled _ hactive
  have htaken := @installSession_ends _ world peer installation
    (fun core => Taken canonical core.shown)
    (fun _ needed consumed h => h)
    (fun core trace h => by simpa [Core.shown_sends,RoomSessionEgress.projection?] using h) True
    fun after hends => by
      cases hends with
      | refused => exact hdrops.taken
      | stored => exact hdrops.taken
      | cached _ => exact hcached.taken
      | staged _ hactive => exact hcached.staged hpromises hahead hactive (habove _ hactive) _
      | installed hactive => exact (hinstalled _ hactive).taken
  refine Post.mono (Post.and hstill htaken) (fun _ after h => h.1.1) fun stop after h => ?_
  exact ⟨h.2 fun _ => trivial,fun hcrash _ => h.1 fun hstop => absurd hstop hcrash⟩

end Installing

section Carriers

variable {F : RoomSessionFoundation L → Prop}

theorem Renews.unseen_many {before after : Core L} (h : RenewsMany F before after) :
    Unseen before after :=
  unseen_of_many (ReflTransGen.mono (fun _ _ => Renews.unseen) _ _ h)

theorem InStep.renews {before after : Core L} (h : InStep canonical before)
    (hrenews : RenewsMany F before after) : InStep canonical after :=
  h.unseen (Renews.unseen_many hrenews)

theorem carrierOffer_inStep (hpromises : L.WindowPromises) (hlaws : L.RenewalPromises)
    (offer : OfferBody L) (hplay : InPlay F world.core) (h : InStep canonical world.core)
    (hopens : ∀ foundation verified,
      world.core.task.foundations.entries[offer.source]? = some foundation →
      Admits foundation offer → verifyOfferBody foundation offer = .ok verified →
        OpensAhead canonical world.core offer.source foundation) :
    Ends (fun _ => InStep canonical) (Halts canonical) (carrierOffer offer world) := by
  refine carrierOffer_ends hplay (fun core hrenews => ⟨h.renews hrenews,(h.renews hrenews).halts⟩)
    fun core installation after hrenews _ _ htaken hafter _ => ?_
  have hcore := h.renews hrenews
  have hready := htaken.ready (G := fun _ => True) trivial (RenewsMany.inPlay hrenews hplay)
  obtain ⟨floor,verified,secret,-,hverified,-⟩ := htaken.answered
  have hcurrent := htaken.current
  rw [(RenewsMany.kept hrenews).foundations] at hcurrent
  have hahead := hopens _ verified hcurrent htaken.admitted hverified
  exact installSession_inStep hpromises (hready.rises hlaws hcore.floored)
    (hahead.congr (Renews.unseen_many hrenews)) hcore hafter

theorem carrierAnswer_inStep (hpromises : L.WindowPromises) (hlaws : L.RenewalPromises)
    (answer : AnswerBody L) (hplay : InPlay F world.core) (h : InStep canonical world.core)
    (hopens : ∀ pending installation, Completes world.core answer pending installation →
      OpensAhead canonical world.core answer.source pending.foundation) :
    Ends (fun _ => InStep canonical) (Halts canonical) (carrierAnswer answer world) := by
  have hunseen : Unseen world.core (world.core.drops answer.source) := .of_task rfl rfl rfl
  have hdrops := h.unseen hunseen
  have hprepared : Ends (fun prepared core => InStep canonical core ∧
      ∀ installation, prepared = some installation → core = world.core.drops answer.source ∧
        ∃ pending, Completes world.core answer pending installation)
      (Halts canonical) (prepareAnswer answer world) := by
    refine prepareAnswer_ends hplay h.halts (fun pending core _ hrenews => ?_)
      fun pending installation hcompletes => ⟨hdrops,fun other hother => ?_⟩
    · have hcore := hdrops.renews hrenews
      exact ⟨⟨hcore,fun _ hnone => by cases hnone⟩,hcore.halts⟩
    · cases hother
      exact ⟨rfl,pending,hcompletes⟩
  refine Ends.bind hprepared fun prepared after ⟨hafter,hready⟩ => ?_
  cases prepared with
  | none => exact Ends.pure hafter
  | some installation =>
    obtain ⟨hcore,pending,hcompletes⟩ := hready installation rfl
    have hready := hcompletes.ready (G := fun _ => True) trivial hplay
    have hfoundation : installation.foundation = pending.foundation := by
      obtain ⟨_,_,_,-,-,rfl⟩ := hcompletes.verified
      rfl
    have hahead : OpensAhead canonical (world.core.drops answer.source) answer.source
        installation.foundation := by
      rw [hfoundation]
      exact (hopens pending installation hcompletes).congr hunseen
    have hidle : (world.core.drops answer.source).task.pending[answer.source]? = none :=
      Std.ExtTreeMap.getElem?_erase_self
    refine installSession_inStep hpromises (hready.rises hlaws hdrops.floored) hahead hdrops ?_
    rw [hcore,Core.drops_of_absent hidle]

end Carriers

end WalkieSongie.Session
