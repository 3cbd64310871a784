import WalkieSongie.ReificationPlaces
set_option autoImplicit false

/-! The changes that put a local edit from one place to another, and those that end a session. -/

namespace WalkieSongie.Session
open TaskProgram Relation OnePlace

variable {L : SessionLibrary} {core : Core L} {taken : List SessionEdit}

section Inflight

variable {session : RoomSessionEpochIdentity} {correlation : RoomSessionDurableCorrelation}

def Core.putsInflight (session : RoomSessionEpochIdentity)
    (correlation : RoomSessionDurableCorrelation) (core : Core L) : Core L :=
  core.mapTask fun task => { task with
    inflightReifications := InflightReifications.add session correlation task.inflightReifications }

def Core.dropsInflight (session : RoomSessionEpochIdentity)
    (correlation : RoomSessionDurableCorrelation) (core : Core L) : Core L :=
  core.mapTask fun task => { task with
    inflightReifications :=
      InflightReifications.remove session correlation task.inflightReifications }

theorem getElem?_add (other : RoomSessionEpochIdentity) (inflight : InflightReifications) :
    (InflightReifications.add session correlation inflight)[other]? =
      if session = other then some (insert correlation (inflight[session]?.getD ∅))
      else inflight[other]? := by
  simp only [InflightReifications.add,Std.ExtTreeMap.getElem?_insert,
    Std.LawfulEqCmp.compare_eq_iff_eq]

theorem getElem?_remove {correlations : Finset RoomSessionDurableCorrelation}
    {inflight : InflightReifications} (hfound : inflight[session]? = some correlations)
    (other : RoomSessionEpochIdentity) :
    (InflightReifications.remove session correlation inflight)[other]? =
      if session = other then
        if correlations.erase correlation = ∅ then none else some (correlations.erase correlation)
      else inflight[other]? := by
  simp only [InflightReifications.remove,hfound]
  by_cases hempty : correlations.erase correlation = ∅
  · simp only [hempty,if_true,Std.ExtTreeMap.getElem?_erase,Std.LawfulEqCmp.compare_eq_iff_eq]
  · simp only [hempty,if_false,Std.ExtTreeMap.getElem?_insert,Std.LawfulEqCmp.compare_eq_iff_eq]

theorem SingleDots.add {inflight : InflightReifications} (h : SingleDots inflight)
    (hfresh : ∀ found ∈ inflight[session]?.getD ∅, found.dot ≠ correlation.dot) :
    SingleDots (InflightReifications.add session correlation inflight) := by
  intro other correlations hfound first hfirst second hsecond hsame
  have hget : (InflightReifications.add session correlation inflight)[other]? =
      some correlations := hfound
  rw [getElem?_add] at hget
  split at hget
  · cases hget
    rw [Finset.mem_insert] at hfirst hsecond
    have hold : ∀ first ∈ inflight[session]?.getD ∅, ∀ second ∈ inflight[session]?.getD ∅,
        first.dot = second.dot → first = second := by
      cases hbefore : inflight[session]? with
      | none => simp
      | some before => exact h session before hbefore
    obtain rfl | hfirst := hfirst
    · obtain rfl | hsecond := hsecond
      · rfl
      · exact absurd hsame.symm (hfresh second hsecond)
    · obtain rfl | hsecond := hsecond
      · exact absurd hsame (hfresh first hfirst)
      · exact hold first hfirst second hsecond hsame
  · exact h other correlations hget first hfirst second hsecond hsame

theorem SingleDots.remove {inflight : InflightReifications} (h : SingleDots inflight)
    {correlations : Finset RoomSessionDurableCorrelation}
    (hfound : inflight[session]? = some correlations) :
    SingleDots (InflightReifications.remove session correlation inflight) := by
  intro other others hothers first hfirst second hsecond hsame
  have hget : (InflightReifications.remove session correlation inflight)[other]? =
      some others := hothers
  rw [getElem?_remove hfound] at hget
  split at hget
  · split at hget
    · cases hget
    · cases hget
      exact h session correlations hfound first (Finset.mem_of_mem_erase hfirst) second
        (Finset.mem_of_mem_erase hsecond) hsame
  · exact h other others hget first hfirst second hsecond hsame

theorem inFlight_puts (edit : SessionEdit) :
    edit.InFlight (core.putsInflight session correlation) ↔
      edit.InFlight core ∨ edit = ⟨session,correlation.dot⟩ := by
  obtain ⟨minted,dot⟩ := edit
  have hget : (core.putsInflight session correlation).task.inflightReifications[minted]? =
      if session = minted then
        some (insert correlation (core.task.inflightReifications[session]?.getD ∅))
      else core.task.inflightReifications[minted]? := getElem?_add _ _
  simp only [SessionEdit.InFlight,hget,SessionEdit.mk.injEq]
  by_cases hsession : session = minted
  · subst hsession
    simp only [if_true,Option.mem_def,Option.some.injEq,exists_eq_left',Finset.mem_insert,
      exists_eq_or_imp,true_and]
    rw [or_comm,eq_comm (b := dot)]
    refine or_congr_left ⟨?_,?_⟩
    · rintro ⟨found,hmem,hdot⟩
      cases hbefore : core.task.inflightReifications[session]? with
      | none => simp [hbefore] at hmem
      | some before => exact ⟨before,rfl,found,by simpa [hbefore] using hmem,hdot⟩
    · rintro ⟨correlations,hcorrelations,found,hmem,hdot⟩
      exact ⟨found,by simpa [hcorrelations] using hmem,hdot⟩
  · have hother : minted ≠ session := Ne.symm hsession
    simp only [if_neg hsession,hother,false_and,or_false]

theorem inFlight_drops {correlations : Finset RoomSessionDurableCorrelation}
    (hfound : core.task.inflightReifications[session]? = some correlations)
    (hmem : correlation ∈ correlations) (hsingle : ∀ first ∈ correlations,
      ∀ second ∈ correlations, first.dot = second.dot → first = second) (edit : SessionEdit) :
    edit.InFlight (core.dropsInflight session correlation) ↔
      edit.InFlight core ∧ edit ≠ ⟨session,correlation.dot⟩ := by
  obtain ⟨minted,dot⟩ := edit
  have hget : (core.dropsInflight session correlation).task.inflightReifications[minted]? =
      if session = minted then
        if correlations.erase correlation = ∅ then none else some (correlations.erase correlation)
      else core.task.inflightReifications[minted]? := getElem?_remove hfound _
  simp only [SessionEdit.InFlight,hget,SessionEdit.mk.injEq,ne_eq]
  by_cases hsession : session = minted
  · subst hsession
    simp only [if_true,hfound,Option.mem_def,Option.some.injEq,exists_eq_left',true_and]
    constructor
    · rintro ⟨rest,hrest,found,hin,hdot⟩
      split at hrest
      · cases hrest
      · cases hrest
        obtain ⟨hother,hin⟩ := Finset.mem_erase.mp hin
        refine ⟨⟨found,hin,hdot⟩,fun hsame => hother ?_⟩
        exact hsingle found hin correlation hmem (hdot.trans hsame)
    · rintro ⟨⟨found,hin,hdot⟩,hdifferent⟩
      have hother : found ≠ correlation := by
        rintro rfl
        exact hdifferent hdot.symm
      have herase := Finset.mem_erase.mpr ⟨hother,hin⟩
      exact ⟨_,if_neg (Finset.ne_empty_of_mem herase),found,herase,hdot⟩
  · have hother : minted ≠ session := Ne.symm hsession
    simp only [if_neg hsession,hother,false_and,not_false_eq_true,and_true]

end Inflight

section Moves

theorem Accounted.unqueued {edit : SessionEdit} (h : Accounted taken core) (hedit : edit ∈ taken) :
    edit ∉ core.queue.map RoomSessionReification.edit := by
  intro hqueued
  obtain ⟨reification,hmem,rfl⟩ := List.mem_map.mp hqueued
  cases h.queued reification hmem with
  | inl hinFlight => exact (h.sorted.known .inflightReifications _ hinFlight).2 hedit
  | inr hconfirmed => exact (h.sorted.known .confirmed _ hconfirmed).2 hedit

theorem Accounted.comes {edit : SessionEdit} (place : EditPlace) {after : Core L}
    (h : Accounted (edit :: taken) core)
    (hingested : after.journal.ingested = core.journal.ingested)
    (hlies : ∀ other (found : SessionEdit), found.Lies after other ↔
      found.Lies core other ∨ other = place ∧ found = edit) :
    Sorted (fun edit => edit ∈ after.journal.ingested ∧ edit ∉ taken) (SessionEdit.Lies after) := by
  obtain ⟨habsent,-⟩ := List.nodup_cons.mp h.takenOnce
  refine h.sorted.adds edit place (fun hknown => hknown.2 List.mem_cons_self)
    (fun other => ?_) hlies
  rw [hingested,List.mem_cons,not_or]
  constructor
  · intro ⟨hother,htaken⟩
    by_cases hsame : other = edit
    · exact .inr hsame
    · exact .inl ⟨hother,hsame,htaken⟩
  · intro hknown
    cases hknown with
    | inl hold => exact ⟨hold.1,hold.2.2⟩
    | inr hsame => exact hsame ▸ ⟨h.takenIngested edit List.mem_cons_self,habsent⟩

theorem Kept.puts {edit : SessionEdit} {correlation : RoomSessionDurableCorrelation}
    (h : Kept (edit :: taken) core) (hdot : correlation.dot = edit.dot)
    (hcurrent : edit.Current core) : Kept taken (core.putsInflight edit.session correlation) := by
  have hinFlight : ∀ other : SessionEdit,
      other.InFlight (core.putsInflight edit.session correlation) ↔
        other.InFlight core ∨ other = edit := by
    intro other
    rw [inFlight_puts,hdot]
  have hnone : ¬ edit.InFlight core := fun hbefore =>
    (h.accounted.sorted.known .inflightReifications edit hbefore).2 List.mem_cons_self
  refine ⟨⟨h.accounted.comes .inflightReifications rfl fun place other => ?_,
    h.accounted.ingestedOnce,
    fun other hmem => h.accounted.takenIngested other (List.mem_cons_of_mem edit hmem),
    (List.nodup_cons.mp h.accounted.takenOnce).2,h.accounted.queuedOnce,
    fun reification hqueued => ?_,?_⟩,fun other hother => ?_,h.standing.numbered,
    h.standing.epochs,h.standing.floored⟩
  · cases place with
    | awaitingReification =>
      simp [SessionEdit.Lies,Core.putsInflight,Core.mapTask,SessionEdit.Awaits]
    | inflightReifications => simpa [SessionEdit.Lies] using hinFlight other
    | confirmed => simp [SessionEdit.Lies,Core.putsInflight,Core.mapTask]
  · rw [hinFlight]
    cases h.accounted.queued reification hqueued with
    | inl hbefore => exact .inl (.inl hbefore)
    | inr hconfirmed => exact .inr hconfirmed
  · refine h.accounted.single.add fun found hmem hdots => hnone ?_
    cases hbefore : core.task.inflightReifications[edit.session]? with
    | none => simp [hbefore] at hmem
    | some before => exact ⟨before,hbefore,found,by simpa [hbefore] using hmem,hdots.trans hdot⟩
  · cases (hinFlight other).mp hother with
    | inl hbefore => exact h.standing.current other hbefore
    | inr hsame => exact hsame ▸ hcurrent

theorem Kept.enqueues {reification : RoomSessionReification L}
    (h : Kept (reification.edit :: taken) core) (hcurrent : reification.edit.Current core) :
    Kept taken ((core.putsInflight reification.session
      (L.planCorrelation reification.plan)).queues reification) := by
  have hnew := h.accounted.unqueued List.mem_cons_self
  have hputs : Kept taken (core.putsInflight reification.session
      (L.planCorrelation reification.plan)) := h.puts rfl hcurrent
  have hinFlight : reification.edit.InFlight
      (core.putsInflight reification.session (L.planCorrelation reification.plan)) :=
    (inFlight_puts _).mpr (.inr rfl)
  refine ⟨⟨hputs.accounted.sorted.congr (fun _ => Iff.rfl) fun place _ => ?_,
    hputs.accounted.ingestedOnce,hputs.accounted.takenIngested,hputs.accounted.takenOnce,?_,
    fun other hother => ?_,hputs.accounted.single⟩,
    hputs.standing.current,hputs.standing.numbered,hputs.standing.epochs,hputs.standing.floored⟩
  · cases place <;> rfl
  · rw [Core.queues,List.map_append,List.nodup_append]
    refine ⟨hputs.accounted.queuedOnce,List.nodup_singleton _,
      fun first hfirst second hsecond hsame => ?_⟩
    rw [List.map_singleton,List.mem_singleton] at hsecond
    exact hnew (hsecond ▸ hsame ▸ hfirst)
  · cases List.mem_append.mp hother with
    | inl hold => exact hputs.accounted.queued other hold
    | inr hsame => exact .inl (List.mem_singleton.mp hsame ▸ hinFlight)

theorem Kept.releases {session : RoomSessionEpochIdentity}
    {correlation : RoomSessionDurableCorrelation}
    {correlations : Finset RoomSessionDurableCorrelation} (h : Kept taken core)
    (hfound : core.task.inflightReifications[session]? = some correlations)
    (hmem : correlation ∈ correlations) :
    Kept taken ((core.dropsInflight session correlation).confirms ⟨session,correlation.dot⟩) := by
  have hinFlight : ∀ edit : SessionEdit,
      edit.InFlight ((core.dropsInflight session correlation).confirms ⟨session,correlation.dot⟩) ↔
        edit.InFlight core ∧ edit ≠ ⟨session,correlation.dot⟩ :=
    inFlight_drops hfound hmem (h.accounted.single session correlations hfound)
  have hmine : SessionEdit.InFlight core ⟨session,correlation.dot⟩ :=
    ⟨correlations,hfound,correlation,hmem,rfl⟩
  refine ⟨⟨?_,h.accounted.ingestedOnce,h.accounted.takenIngested,h.accounted.takenOnce,
    h.accounted.queuedOnce,fun reification hqueued => ?_,h.accounted.single.remove hfound⟩,
    fun edit hedit => h.standing.current edit ((hinFlight edit).mp hedit).1,h.standing.numbered,
    h.standing.epochs,h.standing.floored⟩
  · have helsewhere : ∀ place, place ≠ .inflightReifications → ∀ edit : SessionEdit,
        edit.Lies core place → edit ≠ ⟨session,correlation.dot⟩ := by
      rintro place hother edit hplace rfl
      exact hother (h.accounted.sorted.once place .inflightReifications _ hplace hmine)
    refine h.accounted.sorted.moves .confirmed
      (h.accounted.sorted.known .inflightReifications _ hmine) (fun _ => Iff.rfl)
      fun place edit => ?_
    cases place with
    | awaitingReification =>
      have hstays := helsewhere .awaitingReification (by decide) edit
      exact ⟨fun hplace => .inl ⟨hplace,hstays hplace⟩,
        fun hplace => hplace.elim And.left fun hmoved => absurd hmoved.1 (by decide)⟩
    | inflightReifications => simpa [SessionEdit.Lies] using hinFlight edit
    | confirmed =>
      have hstays : edit ∈ core.journal.confirmed → edit ≠ ⟨session,correlation.dot⟩ :=
        helsewhere .confirmed (by decide) edit
      simp only [SessionEdit.Lies,Core.confirms,Core.dropsInflight,Core.mapTask,List.mem_cons]
      tauto
  · rw [hinFlight]
    cases h.accounted.queued reification hqueued with
    | inl hbefore =>
      by_cases hsame : reification.edit = ⟨session,correlation.dot⟩
      · exact .inr (hsame ▸ List.mem_cons_self)
      · exact .inl ⟨hbefore,hsame⟩
    | inr hconfirmed => exact .inr (List.mem_cons_of_mem _ hconfirmed)

end Moves

section Mints

variable {peer : ActorId} {active later : ActiveSession L} {edit : SessionEdit}

/-- The session that an edit is minted in, before and after. -/
structure Mints (core : Core L) (peer : ActorId) (active later : ActiveSession L)
    (edit : SessionEdit) : Prop where
  served : core.task.active[peer]? = some active
  addressed : active.foundation.peer = peer
  session : edit.session = active.identity
  continues : Continues active later
  fresh : L.highestSealedCounter active.lanes < edit.dot.counter
  sealed : edit.dot.counter ≤ L.highestSealedCounter later.lanes

theorem Mints.not_ingested (h : Mints core peer active later edit) (hstanding : Standing core) :
    edit ∉ core.journal.ingested := by
  intro hingested
  have hpeer : edit.session.peer = peer := h.session ▸ h.addressed
  have hle := hstanding.numbered edit hingested active (hpeer ▸ h.served) h.session.symm
  exact absurd h.fresh (Nat.not_lt.mpr hle)

theorem Accounted.ingests (h : Accounted [] core) (hnew : edit ∉ core.journal.ingested) :
    Accounted [edit] (core.ingests edit) := by
  refine ⟨h.sorted.congr (fun other => ?_) fun place other => ?_,
    List.nodup_cons.mpr ⟨hnew,h.ingestedOnce⟩,fun other hother => ?_,List.nodup_singleton edit,
    h.queuedOnce,h.queued,h.single⟩
  · simp only [Core.ingests,List.mem_cons,List.not_mem_nil,or_false,not_false_eq_true,and_true]
    constructor
    · intro ⟨hmem,hother⟩
      exact hmem.resolve_left hother
    · intro hmem
      exact ⟨.inr hmem,fun hsame => hnew (hsame ▸ hmem)⟩
  · cases place <;> rfl
  · exact List.mem_singleton.mp hother ▸ List.mem_cons_self

theorem Standing.mints (h : Standing core) (hmints : Mints core peer active later edit) :
    Standing ((core.serves peer later).ingests edit) := by
  have hserved := h.upholds (Upholds.serves hmints.served hmints.continues)
  have hpeer : edit.session.peer = peer := hmints.session ▸ hmints.addressed
  refine ⟨hserved.current,fun other hother found hfound hidentity => ?_,fun other hother => ?_,
    hserved.floored⟩
  · cases List.mem_cons.mp hother with
    | inl hsame =>
      subst hsame
      have hmine : (core.serves peer later).task.active[other.session.peer]? = some later := by
        rw [getElem?_serves,if_pos hpeer.symm]
      cases hmine.symm.trans hfound
      exact hmints.sealed
    | inr hold => exact hserved.numbered other hold found hfound hidentity
  · cases List.mem_cons.mp hother with
    | inl hsame =>
      obtain ⟨floor,hfloor,hle⟩ := h.floored peer active hmints.served
      rw [hsame,hpeer,hmints.session]
      exact ⟨floor,hfloor,hle⟩
    | inr hold => exact hserved.epochs other hold

theorem Kept.mints_planned (h : Kept [] core) (hmints : Mints core peer active later edit)
    (hstays : LetsGo [] active later) :
    Kept [edit] ((core.serves peer later).ingests edit) := by
  refine ⟨(h.accounted.still (Passes.serves hmints.served (fun hnone => absurd rfl hnone)
    hstays)).ingests ?_,h.standing.mints hmints⟩
  exact hmints.not_ingested h.standing

theorem Kept.mints_awaiting (h : Kept [] core) (hmints : Mints core peer active later edit)
    (hwaiting : ∀ dot, dot ∈ later.awaitingReification ↔
      dot ∈ active.awaitingReification ∨ dot = edit.dot) :
    Kept [] ((core.serves peer later).ingests edit) := by
  have hnew := hmints.not_ingested h.standing
  have hingests := h.accounted.ingests hnew
  have hpeer : edit.session.peer = peer := hmints.session ▸ hmints.addressed
  refine ⟨⟨hingests.comes .awaitingReification rfl fun place other => ?_,
    hingests.ingestedOnce,fun _ hnone => absurd hnone List.not_mem_nil,List.nodup_nil,
    hingests.queuedOnce,hingests.queued,hingests.single⟩,h.standing.mints hmints⟩
  cases place with
  | awaitingReification =>
    obtain ⟨session,dot⟩ := other
    obtain ⟨minted,mine⟩ := edit
    have hminted : minted = active.identity := hmints.session
    have hidentity := hmints.continues.keeps.identity
    have hactive := hmints.served
    simp only [SessionEdit.Lies,SessionEdit.Awaits,Core.ingests,getElem?_serves,Option.mem_def,
      SessionEdit.mk.injEq,true_and]
    by_cases hsame : peer = session.peer
    · rw [hsame] at hactive
      simp only [hsame,if_true,Option.some.injEq,hactive,exists_eq_left',hidentity,hwaiting,
        hminted,eq_comm (a := session)]
      tauto
    · have hother : session ≠ minted := by
        rintro rfl
        exact hsame hpeer.symm
      simp only [if_neg hsame,hother,false_and,or_false]
  | inflightReifications =>
    simp [SessionEdit.Lies,SessionEdit.InFlight,Core.ingests,Core.serves,Core.mapTask]
  | confirmed => simp [SessionEdit.Lies,Core.ingests,Core.serves,Core.mapTask]

end Mints

section Installs

variable {peer : ActorId} {installation : Installation L} {F : RoomSessionFoundation L → Prop}
  {G : SessionCarrierBody L → Prop}

/-- No edit minted for the peer waits or is in flight. -/
def Drained (peer : ActorId) (core : Core L) : Prop :=
  ∀ edit : SessionEdit, edit.session.peer = peer → ¬ edit.Awaits core ∧ ¬ edit.InFlight core

theorem drained_of_no_obligations
    (h : core.task.incomingRenewalHasLocalObligations peer = false) : Drained peer core := by
  obtain ⟨hwait,hrecovery⟩ := Bool.or_eq_false_iff.mp h
  intro edit hpeer
  refine ⟨fun ⟨active,hactive,_,hmem⟩ => ?_,fun ⟨correlations,hfound,correlation,hmem,_⟩ => ?_⟩
  · have hempty : active.awaitingReification.isEmpty = true := by
      simpa [RoomSessionTask.hasLocalReificationWait,← hpeer,Option.mem_def.mp hactive,
        ActiveSession.hasLocalReificationWait] using hwait
    rw [Std.ExtTreeMap.isEmpty_iff.mp hempty] at hmem
    exact Std.ExtTreeMap.not_mem_empty hmem
  · have hnone := List.any_eq_false.mp (Bool.or_eq_false_iff.mp hrecovery).2
      (edit.session,correlations) (Std.ExtTreeMap.mem_toList_iff_getElem?_eq_some.mpr hfound)
    simp only [hpeer,decide_true,Bool.true_and,decide_eq_true_eq,ne_eq,not_not] at hnone
    exact absurd hmem (hnone ▸ Finset.notMem_empty correlation)

theorem Ready.drained (h : Ready F G core peer installation) (hkept : Kept taken core) :
    Drained peer core := by
  obtain ⟨prior,hprior,-,hdrained⟩ := h.origin
  cases prior with
  | some floor => exact drained_of_no_obligations (hdrained (by simp))
  | none =>
    intro edit hpeer
    have hunknown : ∀ place, ¬ edit.Lies core place := by
      intro place hplace
      obtain ⟨floor,hfloor,-⟩ := hkept.standing.epochs edit
        (hkept.accounted.sorted.known place edit hplace).1
      rw [hpeer,hprior] at hfloor
      cases hfloor
    exact ⟨hunknown .awaitingReification,hunknown .inflightReifications⟩

theorem Ready.raises (hlaws : L.RenewalPromises) (h : Ready F G core peer installation)
    {floor : SessionRenewalFloor} (hfloor : core.task.renewalFloors[peer]? = some (some floor)) :
    floor.epoch < installation.authorization.floor.epoch := by
  obtain ⟨prior,hprior,horigin,-⟩ := h.origin
  obtain ⟨manifest,localSeat,remoteSeat,hauthorized⟩ := horigin.authorized
  obtain ⟨habove,-,hepoch,-⟩ := authorizePair_ok hlaws hauthorized
  rw [hepoch]
  exact habove floor (Option.some.inj (hprior.symm.trans hfloor))

theorem Aside.stages (active : ActiveSession L) (carrier : Option (SessionCarrierBody L)) :
    Aside core (core.stages peer active carrier) := by
  have hrefl : Aside core core := .of_active rfl rfl rfl rfl rfl fun _ _ h => h
  unfold Core.stages
  split
  · exact .sends _ _ _
  · cases carrier with
    | none => exact hrefl
    | some body => exact .sends _ _ _

theorem Standing.cached (h : Standing core) (hrises : Rises core peer installation)
    (hraises : ∀ floor, core.task.renewalFloors[peer]? = some (some floor) →
      floor.epoch < installation.authorization.floor.epoch) :
    Standing (installation.cached peer core) := by
  refine ⟨h.current,h.numbered,fun edit hedit => ?_,h.floored.cached hrises⟩
  obtain ⟨floor,hfloor,hle⟩ := h.epochs edit hedit
  simp only [Installation.cached,Core.cachesFloor,Core.mapTask,Std.ExtTreeMap.getElem?_insert,
    Std.LawfulEqCmp.compare_eq_iff_eq]
  by_cases hpeer : peer = edit.session.peer
  · rw [if_pos hpeer]
    exact ⟨_,rfl,hle.trans (hraises floor (hpeer ▸ hfloor)).le⟩
  · rw [if_neg hpeer]
    exact ⟨floor,hfloor,hle⟩

/-- A session of a new epoch replaces one that owes nothing. -/
theorem Kept.activates (h : Kept taken core) (hdrained : Drained peer core)
    {active : ActiveSession L} (hempty : active.awaitingReification = ∅)
    (hfloor : ∃ floor, core.task.renewalFloors[peer]? = some (some floor) ∧
      active.manifest.epoch ≤ floor.epoch)
    (hnew : ∀ edit ∈ core.journal.ingested, active.identity ≠ edit.session) :
    Kept taken (core.activates peer active) := by
  refine ⟨h.accounted.still ⟨fun edit => ?_,rfl,rfl,rfl,rfl⟩,fun edit hinFlight => ?_,
    fun edit hedit found hfound hidentity => ?_,h.standing.epochs,fun other found hfound => ?_⟩
  · simp only [SessionEdit.Awaits,getElem?_activates,Option.mem_def]
    by_cases hpeer : peer = edit.session.peer
    · simp only [hpeer,if_true,Option.some.injEq,exists_eq_left',hempty,
        Std.ExtTreeMap.not_mem_empty,and_false,false_iff,List.not_mem_nil,not_false_eq_true,
        and_true]
      exact (hdrained edit hpeer.symm).1
    · simp only [if_neg hpeer,List.not_mem_nil,not_false_eq_true,and_true]
  · obtain ⟨found,hfound,hidentity⟩ := h.standing.current edit hinFlight
    refine ⟨found,?_,hidentity⟩
    rw [getElem?_activates,if_neg fun hpeer => (hdrained edit hpeer.symm).2 hinFlight]
    exact hfound
  · rw [getElem?_activates] at hfound
    split at hfound
    · cases hfound
      exact absurd hidentity (hnew edit hedit)
    · exact h.standing.numbered edit hedit found hfound hidentity
  · rw [getElem?_activates] at hfound
    split at hfound
    · rename_i hpeer
      cases hfound
      exact hpeer ▸ hfloor
    · exact h.standing.floored other found hfound

/-- However far the installation of a session gets, no edit is discarded. -/
theorem Kept.installEnds {cut : Prop} {after : Core L} (hlaws : L.RenewalPromises)
    (h : Kept [] core) (hready : Ready F G core peer installation)
    (hends : InstallEnds cut peer installation (core.drops peer) after) : Kept [] after := by
  have hdrops : Kept [] (core.drops peer) := h.aside (.of_task rfl rfl rfl)
  have hrises : Rises (core.drops peer) peer installation :=
    ⟨(hready.rises hlaws h.standing.floored).above,
      (hready.rises hlaws h.standing.floored).floor⟩
  have hcached : Kept [] (installation.cached peer (core.drops peer)) :=
    ⟨hdrops.accounted.still (.of_active rfl rfl rfl rfl rfl),
      hdrops.standing.cached hrises fun floor hfloor => hready.raises hlaws hfloor⟩
  cases hends with
  | refused => exact hdrops
  | stored => exact hdrops.aside (.of_active rfl rfl rfl rfl rfl fun _ _ h => h)
  | cached => exact hcached
  | staged => exact hcached.aside (.stages _ _)
  | @installed active hopens =>
    obtain ⟨ticks,hnew⟩ := hopens
    obtain ⟨hfoundation,-,-,hempty⟩ := ActiveSession.new_ok hnew
    have hmanifest : active.manifest = L.sessionManifest installation.authorization.session :=
      Installation.Opens.manifest ⟨ticks,hnew⟩
    have hepoch : active.manifest.epoch = installation.authorization.floor.epoch := by
      rw [hmanifest,hrises.floor]
    have hstaged : Aside (installation.cached peer (core.drops peer))
        ((installation.cached peer (core.drops peer)).stages peer active installation.carrier) :=
      .stages _ _
    refine (hcached.aside hstaged).activates (fun edit hpeer => ?_) hempty ?_
      fun edit hedit hsame => ?_
    · obtain ⟨hawaits,hinFlight⟩ := hready.drained h edit hpeer
      refine ⟨fun hlater => hawaits ?_,fun hlater => hinFlight ?_⟩
      · exact ((hstaged.passes.awaits edit).mp hlater).1
      · exact (hstaged.passes.inFlight edit).mp hlater
    · rw [Core.stages_task]
      exact ⟨_,Std.ExtTreeMap.getElem?_insert_self,hepoch.le⟩
    · -- an edit of this session would be above the floor it was minted under
      rw [hstaged.passes.ingested] at hedit
      obtain ⟨floor,hfloor,hle⟩ := h.standing.epochs edit hedit
      have hpeer : edit.session.peer = peer := by
        rw [← hsame,← hready.addressed,← hfoundation]
        rfl
      have habove := hready.raises hlaws (hpeer ▸ hfloor)
      rw [← hsame] at hle
      have hidentity : active.identity.epoch = active.manifest.epoch := rfl
      omega

end Installs

end WalkieSongie.Session
