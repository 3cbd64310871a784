import WalkieSongie.OnePlace
import WalkieSongie.WindowInstalls
set_option autoImplicit false

/-!
Where a local edit is between its seal and its confirmation: it waits for its dependencies, it is
in flight to the replica, or it is confirmed. What the rest of a task's work leaves where it is.
-/

namespace WalkieSongie.Session
open TaskProgram Relation OnePlace

variable {L : SessionLibrary} {α : Type} {core before after : Core L}
  {taken gone : List SessionEdit}

section Places

inductive EditPlace where
  | awaitingReification
  | inflightReifications
  | confirmed
  deriving DecidableEq

def SessionEdit.Awaits (core : Core L) (edit : SessionEdit) : Prop :=
  ∃ active ∈ core.task.active[edit.session.peer]?,
    active.identity = edit.session ∧ edit.dot ∈ active.awaitingReification

def SessionEdit.InFlight (core : Core L) (edit : SessionEdit) : Prop :=
  ∃ correlations ∈ core.task.inflightReifications[edit.session]?,
    ∃ correlation ∈ correlations, correlation.dot = edit.dot

instance (core : Core L) (edit : SessionEdit) : Decidable (edit.Awaits core) :=
  inferInstanceAs (Decidable (∃ active ∈ core.task.active[edit.session.peer]?,
    active.identity = edit.session ∧ edit.dot ∈ active.awaitingReification))

instance (core : Core L) (edit : SessionEdit) : Decidable (edit.InFlight core) :=
  inferInstanceAs (Decidable (∃ correlations ∈ core.task.inflightReifications[edit.session]?,
    ∃ correlation ∈ correlations, correlation.dot = edit.dot))

def SessionEdit.Lies (core : Core L) : EditPlace → SessionEdit → Prop
  | .awaitingReification => SessionEdit.Awaits core
  | .inflightReifications => SessionEdit.InFlight core
  | .confirmed => fun edit => edit ∈ core.journal.confirmed

def SessionEdit.Current (core : Core L) (edit : SessionEdit) : Prop :=
  ∃ active ∈ core.task.active[edit.session.peer]?, active.identity = edit.session

def RoomSessionReification.edit (reification : RoomSessionReification L) : SessionEdit :=
  ⟨reification.session,(L.planCorrelation reification.plan).dot⟩

def SingleDots (inflight : InflightReifications) : Prop :=
  ∀ session : RoomSessionEpochIdentity, ∀ correlations ∈ inflight[session]?,
    ∀ first ∈ correlations, ∀ second ∈ correlations, first.dot = second.dot → first = second

/-- Every edit that was taken in lies in one place, but for those that are on their way from one
to another; none is on its way twice, and none is queued twice. -/
structure Accounted (taken : List SessionEdit) (core : Core L) : Prop where
  sorted : Sorted (fun edit => edit ∈ core.journal.ingested ∧ edit ∉ taken) (SessionEdit.Lies core)
  ingestedOnce : core.journal.ingested.Nodup
  takenIngested : ∀ edit ∈ taken, edit ∈ core.journal.ingested
  takenOnce : taken.Nodup
  queuedOnce : (core.queue.map RoomSessionReification.edit).Nodup
  queued : ∀ reification ∈ core.queue, reification.edit.InFlight core ∨
    reification.edit ∈ core.journal.confirmed
  single : SingleDots core.task.inflightReifications

/-- What the edits so far say of the sessions: those in flight are of the active ones, and a dot
is neither beyond what its session has sealed nor its epoch beyond the floor of its peer. -/
structure Standing (core : Core L) : Prop where
  current : ∀ edit : SessionEdit, edit.InFlight core → edit.Current core
  numbered : ∀ edit ∈ core.journal.ingested, ∀ active ∈ core.task.active[edit.session.peer]?,
    active.identity = edit.session → edit.dot.counter ≤ L.highestSealedCounter active.lanes
  epochs : ∀ edit ∈ core.journal.ingested, ∃ floor,
    core.task.renewalFloors[edit.session.peer]? = some (some floor) ∧
      edit.session.epoch ≤ floor.epoch
  floored : Floored core

structure Kept (taken : List SessionEdit) (core : Core L) : Prop where
  accounted : Accounted taken core
  standing : Standing core

theorem Accounted.awaits_current (h : Accounted taken core) {edit : SessionEdit}
    (hingested : edit ∈ core.journal.ingested) (htaken : edit ∉ taken)
    (hstanding : Standing core) (hunconfirmed : edit ∉ core.journal.confirmed) :
    edit.Current core := by
  obtain ⟨place,hplace⟩ := h.sorted.somewhere edit ⟨hingested,htaken⟩
  cases place with
  | awaitingReification =>
    obtain ⟨active,hactive,hidentity,-⟩ := hplace
    exact ⟨active,hactive,hidentity⟩
  | inflightReifications => exact hstanding.current edit hplace
  | confirmed => exact absurd hplace hunconfirmed

end Places

section Sessions

/-- The session goes on, and has sealed no fewer events. -/
structure Continues (before after : ActiveSession L) : Prop where
  keeps : KeepsSession before after
  sealed : L.highestSealedCounter before.lanes ≤ L.highestSealedCounter after.lanes

theorem Continues.refl (active : ActiveSession L) : Continues active active :=
  ⟨KeepsSession.refl active,le_rfl⟩

theorem Continues.trans {first second third : ActiveSession L} (h : Continues first second)
    (h' : Continues second third) : Continues first third :=
  ⟨KeepsSession.trans _ _ _ h.keeps h'.keeps,h.sealed.trans h'.sealed⟩

/-- The session goes on, and only these dots do not wait in it any more. -/
structure LetsGo (dots : List SessionDot) (before after : ActiveSession L) : Prop where
  continues : Continues before after
  waiting : ∀ dot, dot ∈ after.awaitingReification ↔
    dot ∈ before.awaitingReification ∧ dot ∉ dots

theorem LetsGo.of_same {before after : ActiveSession L} (h : Continues before after)
    (hwaiting : after.awaitingReification = before.awaitingReification) : LetsGo [] before after :=
  ⟨h,fun dot => by simp [hwaiting]⟩

theorem LetsGo.trans {dots dots' : List SessionDot} {first second third : ActiveSession L}
    (h : LetsGo dots first second) (h' : LetsGo dots' second third) :
    LetsGo (dots ++ dots') first third := by
  refine ⟨h.continues.trans h'.continues,fun dot => ?_⟩
  rw [h'.waiting,h.waiting,List.mem_append,not_or,and_assoc]

theorem letsGo_background : Background (LetsGo (L := L) []) where
  refl active := .of_same (.refl active) rfl
  trans _ _ _ h h' := h.trans h'
  kernel _ _ := .of_same ⟨⟨rfl,rfl,_,_,_,rfl⟩,le_rfl⟩ rfl
  projection _ _ := .of_same ⟨⟨rfl,rfl,_,_,_,rfl⟩,le_rfl⟩ rfl
  planner _ _ := .of_same ⟨⟨rfl,rfl,_,_,_,rfl⟩,le_rfl⟩ rfl
  time _ _ := .of_same ⟨⟨rfl,rfl,_,_,_,rfl⟩,le_rfl⟩ rfl
  clock _ _ := .of_same ⟨⟨rfl,rfl,_,_,_,rfl⟩,le_rfl⟩ rfl
  revision _ _ := .of_same ⟨⟨rfl,rfl,_,_,_,rfl⟩,le_rfl⟩ rfl
  horizon _ _ _ _ := .of_same ⟨⟨rfl,rfl,_,_,_,rfl⟩,le_rfl⟩ rfl

theorem rel_refl {Item : Type} {R : Item → Item → Prop} (h : ∀ item, R item item)
    (found : Option Item) : Option.Rel R found found := by
  cases found with
  | none => exact .none
  | some item => exact .some (h item)

end Sessions

section Passing

/-- These edits have left their wait; nothing else has moved. -/
structure Passes (gone : List SessionEdit) (before after : Core L) : Prop where
  awaits : ∀ edit : SessionEdit, edit.Awaits after ↔ edit.Awaits before ∧ edit ∉ gone
  inflight : after.task.inflightReifications = before.task.inflightReifications
  ingested : after.journal.ingested = before.journal.ingested
  confirmed : after.journal.confirmed = before.journal.confirmed
  queue : after.queue = before.queue

/-- The sessions go on, and their floors stay. -/
structure Upholds (before after : Core L) : Prop where
  sessions : ∀ peer : ActorId,
    Option.Rel Continues before.task.active[peer]? after.task.active[peer]?
  inflight : after.task.inflightReifications = before.task.inflightReifications
  ingested : after.journal.ingested = before.journal.ingested
  floors : ∀ (peer : ActorId) floor, before.task.renewalFloors[peer]? = some floor →
    after.task.renewalFloors[peer]? = some floor

/-- The change leaves every edit where it is. -/
structure Aside (before after : Core L) : Prop where
  passes : Passes [] before after
  upholds : Upholds before after

theorem Passes.inFlight (h : Passes gone before after) (edit : SessionEdit) :
    edit.InFlight after ↔ edit.InFlight before := by
  rw [SessionEdit.InFlight,SessionEdit.InFlight,h.inflight]

theorem Accounted.passes (h : Accounted taken before) (hpasses : Passes gone before after)
    (hgone : ∀ edit ∈ gone, edit.Awaits before) (honce : gone.Nodup) :
    Accounted (gone ++ taken) after where
  sorted := by
    refine h.sorted.forgets (fun edit => edit ∈ gone) (fun edit => ?_) fun place edit => ?_
    · rw [hpasses.ingested,List.mem_append,not_or]
      tauto
    · have habsent : ∀ place, place ≠ .awaitingReification → edit.Lies before place →
          edit ∉ gone := fun place hother hplace hmem =>
        hother (h.sorted.once place .awaitingReification edit hplace (hgone edit hmem))
      cases place with
      | awaitingReification => exact hpasses.awaits edit
      | inflightReifications =>
        rw [SessionEdit.Lies,SessionEdit.Lies,hpasses.inFlight]
        exact (and_iff_left_of_imp (habsent .inflightReifications (by decide))).symm
      | confirmed =>
        rw [SessionEdit.Lies,SessionEdit.Lies,hpasses.confirmed]
        exact (and_iff_left_of_imp (habsent .confirmed (by decide))).symm
  ingestedOnce := hpasses.ingested ▸ h.ingestedOnce
  takenIngested edit hmem := by
    rw [hpasses.ingested]
    cases List.mem_append.mp hmem with
    | inl hleft => exact (h.sorted.known .awaitingReification edit (hgone edit hleft)).1
    | inr htaken => exact h.takenIngested edit htaken
  takenOnce := by
    refine List.nodup_append.mpr ⟨honce,h.takenOnce,fun edit hleft other htaken hsame => ?_⟩
    subst hsame
    exact (h.sorted.known .awaitingReification edit (hgone edit hleft)).2 htaken
  queuedOnce := hpasses.queue ▸ h.queuedOnce
  queued reification hqueued := by
    rw [hpasses.inFlight,hpasses.confirmed]
    exact h.queued reification (hpasses.queue ▸ hqueued)
  single := hpasses.inflight ▸ h.single

theorem Accounted.still (h : Accounted taken before) (hpasses : Passes [] before after) :
    Accounted taken after :=
  h.passes hpasses (fun _ hnone => absurd hnone List.not_mem_nil) List.nodup_nil

theorem Upholds.later (h : Upholds before after) {peer : ActorId} {active : ActiveSession L}
    (hactive : before.task.active[peer]? = some active) :
    ∃ later, after.task.active[peer]? = some later ∧ Continues active later := by
  have hsessions := h.sessions peer
  rw [hactive] at hsessions
  cases hlater : after.task.active[peer]? with
  | none =>
    rw [hlater] at hsessions
    cases hsessions
  | some later =>
    rw [hlater] at hsessions
    cases hsessions with
    | some hcontinues => exact ⟨later,rfl,hcontinues⟩

theorem Upholds.earlier (h : Upholds before after) {peer : ActorId} {later : ActiveSession L}
    (hlater : after.task.active[peer]? = some later) :
    ∃ active, before.task.active[peer]? = some active ∧ Continues active later := by
  have hsessions := h.sessions peer
  rw [hlater] at hsessions
  cases hactive : before.task.active[peer]? with
  | none =>
    rw [hactive] at hsessions
    cases hsessions
  | some active =>
    rw [hactive] at hsessions
    cases hsessions with
    | some hcontinues => exact ⟨active,rfl,hcontinues⟩

theorem Standing.upholds (h : Standing before) (hupholds : Upholds before after) :
    Standing after where
  current edit hinFlight := by
    rw [SessionEdit.InFlight,hupholds.inflight] at hinFlight
    obtain ⟨active,hactive,hidentity⟩ := h.current edit hinFlight
    obtain ⟨later,hlater,hcontinues⟩ := hupholds.later hactive
    exact ⟨later,hlater,hcontinues.keeps.identity.trans hidentity⟩
  numbered edit hedit later hlater hidentity := by
    rw [hupholds.ingested] at hedit
    obtain ⟨active,hactive,hcontinues⟩ := hupholds.earlier hlater
    exact (h.numbered edit hedit active hactive
      (hcontinues.keeps.identity.symm.trans hidentity)).trans hcontinues.sealed
  epochs edit hedit := by
    rw [hupholds.ingested] at hedit
    obtain ⟨floor,hfloor,hle⟩ := h.epochs edit hedit
    exact ⟨floor,hupholds.floors _ _ hfloor,hle⟩
  floored peer later hlater := by
    obtain ⟨active,hactive,hcontinues⟩ := hupholds.earlier hlater
    obtain ⟨floor,hfloor,hle⟩ := h.floored peer active hactive
    rw [hcontinues.keeps.manifest]
    exact ⟨floor,hupholds.floors _ _ hfloor,hle⟩

theorem Kept.aside (h : Kept taken before) (haside : Aside before after) : Kept taken after :=
  ⟨h.accounted.still haside.passes,h.standing.upholds haside.upholds⟩

theorem Kept.asides (h : Kept taken before) (hmany : ReflTransGen Aside before after) :
    Kept taken after := by
  induction hmany with
  | refl => exact h
  | tail _ hlast ih => exact ih.aside hlast

theorem current_asides {peer : ActorId} {session : RoomSessionEpochIdentity}
    (hmany : ReflTransGen Aside before after)
    (h : before.task.active[peer]?.map ActiveSession.identity = some session) :
    after.task.active[peer]?.map ActiveSession.identity = some session := by
  induction hmany with
  | refl => exact h
  | tail _ hlast ih =>
    obtain ⟨active,hactive,rfl⟩ := Option.map_eq_some_iff.mp ih
    obtain ⟨later,hlater,hcontinues⟩ := hlast.upholds.later hactive
    rw [hlater]
    exact congrArg some hcontinues.keeps.identity

end Passing

section Aside

theorem Passes.of_active (hactive : after.task.active = before.task.active)
    (hinflight : after.task.inflightReifications = before.task.inflightReifications)
    (hjournal : after.journal.ingested = before.journal.ingested)
    (hconfirmed : after.journal.confirmed = before.journal.confirmed)
    (hqueue : after.queue = before.queue) : Passes [] before after :=
  ⟨fun edit => by simp [SessionEdit.Awaits,hactive],hinflight,hjournal,hconfirmed,hqueue⟩

theorem Aside.of_active (hactive : after.task.active = before.task.active)
    (hinflight : after.task.inflightReifications = before.task.inflightReifications)
    (hjournal : after.journal.ingested = before.journal.ingested)
    (hconfirmed : after.journal.confirmed = before.journal.confirmed)
    (hqueue : after.queue = before.queue) (hfloors : ∀ (peer : ActorId) floor,
      before.task.renewalFloors[peer]? = some floor →
        after.task.renewalFloors[peer]? = some floor) : Aside before after :=
  ⟨.of_active hactive hinflight hjournal hconfirmed hqueue,
    ⟨fun _ => hactive ▸ rel_refl Continues.refl _,hinflight,hjournal,hfloors⟩⟩

theorem Aside.of_task {f : RoomSessionTask L → RoomSessionTask L}
    (hactive : (f core.task).active = core.task.active)
    (hinflight : (f core.task).inflightReifications = core.task.inflightReifications)
    (hfloors : (f core.task).renewalFloors = core.task.renewalFloors) :
    Aside core (core.mapTask f) :=
  .of_active hactive hinflight rfl rfl rfl fun _ _ h => hfloors.symm ▸ h

theorem Aside.sends (note : List Opening) (event : RoomSessionEgress L) (core : Core L) :
    Aside core (core.sends note event) :=
  .of_active rfl rfl rfl rfl rfl fun _ _ h => h

theorem Renews.aside {F : RoomSessionFoundation L → Prop} (h : Renews F before after) :
    Aside before after :=
  .of_active h.kept.active h.kept.inflight (congrArg Journal.ingested h.kept.journal)
    (congrArg Journal.confirmed h.kept.journal) h.kept.queue h.unseen.floors

section Serving

variable {peer : ActorId} {active later : ActiveSession L} {dots : List SessionDot}

theorem Passes.serves (hactive : core.task.active[peer]? = some active)
    (haddressed : dots ≠ [] → active.foundation.peer = peer) (h : LetsGo dots active later) :
    Passes (dots.map fun dot => ⟨active.identity,dot⟩) core (core.serves peer later) := by
  refine ⟨fun edit => ?_,rfl,rfl,rfl,rfl⟩
  obtain ⟨session,dot⟩ := edit
  have hgone : (⟨session,dot⟩ : SessionEdit) ∈ dots.map (fun dot => ⟨active.identity,dot⟩) ↔
      active.identity = session ∧ dot ∈ dots := by
    simp [and_comm]
  rw [hgone]
  simp only [SessionEdit.Awaits,getElem?_serves,Option.mem_def]
  by_cases hpeer : peer = session.peer
  · simp only [hpeer,if_true]
    rw [hpeer] at hactive
    simp only [Option.some.injEq,hactive,exists_eq_left',h.continues.keeps.identity,h.waiting]
    tauto
  · simp only [hpeer,if_false]
    refine (and_iff_left_of_imp fun _ ⟨hidentity,hmem⟩ => hpeer ?_).symm
    rw [← haddressed (List.ne_nil_of_mem hmem),← hidentity]
    rfl

theorem Upholds.serves (hactive : core.task.active[peer]? = some active)
    (h : Continues active later) : Upholds core (core.serves peer later) := by
  refine ⟨fun other => ?_,rfl,rfl,fun _ _ h => h⟩
  rw [getElem?_serves]
  by_cases hpeer : peer = other
  · rw [if_pos hpeer,← hpeer,hactive]
    exact .some h
  · rw [if_neg hpeer]
    exact rel_refl Continues.refl _

theorem Aside.serves (hactive : core.task.active[peer]? = some active)
    (h : LetsGo [] active later) : Aside core (core.serves peer later) :=
  ⟨Passes.serves hactive (fun hnone => absurd rfl hnone) h,Upholds.serves hactive h.continues⟩

end Serving

end Aside

end WalkieSongie.Session
