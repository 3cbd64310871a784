import Mathlib.Data.Finset.Basic
import Mathlib.Data.Finset.Dedup
import WalkieSongie.ObservedRemove
import WalkieSongie.SessionLibrary
set_option autoImplicit false

/-!
The provisional pitch set of a session: a durable base with the session's own adds and removes
over it, and the set that every delivery in causal order shows.
-/

namespace WalkieSongie.Session
open ObservedRemove

structure PendingPitchFactId where
  manifest : Digest
  dot : SessionDot
  event : Digest
  deriving DecidableEq

structure SessionEvent (Context : Type) where
  dependencies : Context
  payload : MusicOp
  deriving DecidableEq

structure PitchProjectionState where
  base : SharedPitchSet
  removedBaseDegrees : Finset TunedDegree := ∅
  removedBasePitches : Finset TunedPeriodicPitch := ∅
  degreeAdds : List (PendingPitchFactId × TunedDegree) := []
  pitchAdds : List (PendingPitchFactId × TunedPeriodicPitch) := []
  visible : SharedPitchSet

def PitchProjectionState.durable (base : SharedPitchSet) : PitchProjectionState where
  base := base
  visible := base

def PitchProjectionState.rebuildVisible (state : PitchProjectionState) : PitchProjectionState :=
  { state with
    visible := {
      pitchClasses := (state.base.pitchClasses \ state.removedBaseDegrees) ∪
        (state.degreeAdds.map Prod.snd).toFinset
      pitches := (state.base.pitches \ state.removedBasePitches) ∪
        (state.pitchAdds.map Prod.snd).toFinset } }

section Events

variable {Context Elem : Type}

def insertFact (fact : PendingPitchFactId) (elem : Elem)
    (adds : List (PendingPitchFactId × Elem)) : List (PendingPitchFactId × Elem) :=
  (fact,elem) :: adds.filter fun add => add.1 ≠ fact

variable (observes : Context → SessionDot → Bool)

def retainUnobserved [DecidableEq Elem] (fact : PendingPitchFactId) (dependencies : Context)
    (elem : Elem)
    (adds : List (PendingPitchFactId × Elem)) : List (PendingPitchFactId × Elem) :=
  adds.filter fun add =>
    add.2 ≠ elem || add.1.manifest ≠ fact.manifest || !observes dependencies add.1.dot

def PitchProjectionState.applyEvent (state : PitchProjectionState) (fact : PendingPitchFactId)
    (event : SessionEvent Context) : Except String PitchProjectionState :=
  match event.payload with
  | .addDegree degree => .ok (rebuildVisible { state with
      degreeAdds := insertFact fact degree state.degreeAdds })
  | .removeDegree degree => .ok (rebuildVisible { state with
      removedBaseDegrees := insert degree state.removedBaseDegrees
      degreeAdds := retainUnobserved observes fact event.dependencies degree state.degreeAdds })
  | .addPitch pitch => .ok (rebuildVisible { state with
      pitchAdds := insertFact fact pitch state.pitchAdds })
  | .removePitch pitch => .ok (rebuildVisible { state with
      removedBasePitches := insert pitch state.removedBasePitches
      pitchAdds := retainUnobserved observes fact event.dependencies pitch state.pitchAdds })
  | .other _ => .error "non-pitch command entered the pitch session projector"

structure PitchEdit (Context : Type) where
  fact : PendingPitchFactId
  event : SessionEvent Context
  deriving DecidableEq

def PitchProjectionState.applyEvents (state : PitchProjectionState)
    (edits : List (PitchEdit Context)) : Except String PitchProjectionState :=
  edits.foldlM (fun state edit => state.applyEvent observes edit.fact edit.event) state

/-- The dependency context of the one covers the other, in the session of both. -/
def PitchEdit.Observes (edit earlier : PitchEdit Context) : Prop :=
  earlier.fact.manifest = edit.fact.manifest ∧
    observes edit.event.dependencies earlier.fact.dot = true

instance (edit earlier : PitchEdit Context) : Decidable (edit.Observes observes earlier) :=
  inferInstanceAs (Decidable (_ ∧ _))

/-- The events one by one, none before an event that it observed. -/
structure LinearExtension (events : Finset (PitchEdit Context))
    (delivered : List (PitchEdit Context)) : Prop where
  each : ∀ edit, edit ∈ delivered ↔ edit ∈ events
  once : delivered.Nodup
  causal : delivered.Pairwise fun earlier later => ¬ earlier.Observes observes later

/-- In the base with no event removing it, or added by an event that no removing event of the
same manifest observed. -/
def Sounds (base : Finset Elem) (events : Finset (PitchEdit Context)) (add remove : Elem → MusicOp)
    (elem : Elem) : Prop :=
  (elem ∈ base ∧ ∀ edit ∈ events, edit.event.payload ≠ remove elem) ∨
    ∃ edit ∈ events, edit.event.payload = add elem ∧
      ∀ other ∈ events, other.event.payload = remove elem → ¬ other.Observes observes edit

/-- The removes and adds of one kind of element, as an observed-remove set. -/
def replicaOf (removedBase : Finset Elem) (adds : List (PendingPitchFactId × Elem)) :
    Replica PendingPitchFactId Elem where
  removedBase := { elem | elem ∈ removedBase }
  adds := { add | add ∈ adds }

/-- The adds that an event's remove takes away. -/
def PitchEdit.observed (edit : PitchEdit Context) : Set PendingPitchFactId :=
  { fact | fact.manifest = edit.fact.manifest ∧
    observes edit.event.dependencies fact.dot = true }

def PitchEdit.degreeUpdate (edit : PitchEdit Context) :
    Option (Update PendingPitchFactId TunedDegree) :=
  match edit.event.payload with
  | .addDegree degree => some (.add edit.fact degree)
  | .removeDegree degree => some (.remove degree (edit.observed observes))
  | _ => none

def PitchEdit.pitchUpdate (edit : PitchEdit Context) :
    Option (Update PendingPitchFactId TunedPeriodicPitch) :=
  match edit.event.payload with
  | .addPitch pitch => some (.add edit.fact pitch)
  | .removePitch pitch => some (.remove pitch (edit.observed observes))
  | _ => none

theorem replicaOf_insertFact {fact : PendingPitchFactId}
    {adds : List (PendingPitchFactId × Elem)} (hfresh : ∀ add ∈ adds, add.1 ≠ fact)
    (removedBase : Finset Elem) (elem : Elem) :
    replicaOf removedBase (insertFact fact elem adds) =
      (replicaOf removedBase adds).apply (.add fact elem) := by
  have hkept : (adds.filter fun add => add.1 ≠ fact) = adds :=
    List.filter_eq_self.mpr fun add hadd => by simpa using hfresh add hadd
  rw [insertFact,hkept]
  ext add <;> simp [replicaOf,Replica.apply]

theorem replicaOf_retainUnobserved [DecidableEq Elem] (edit : PitchEdit Context)
    (removedBase : Finset Elem)
    (adds : List (PendingPitchFactId × Elem)) (elem : Elem) :
    replicaOf (insert elem removedBase)
        (retainUnobserved observes edit.fact edit.event.dependencies elem adds) =
      (replicaOf removedBase adds).apply (.remove elem (edit.observed observes)) := by
  ext add
  · simp [replicaOf,Replica.apply]
  · simp only [replicaOf,Replica.apply,retainUnobserved,PitchEdit.observed,Set.mem_ofPred_eq,
      List.mem_filter]
    by_cases helem : add.2 = elem <;> by_cases hmanifest : add.1.manifest = edit.fact.manifest <;>
      simp [helem,hmanifest]

structure PitchProjectionState.Tracks (base : SharedPitchSet) (delivered : List (PitchEdit Context))
    (state : PitchProjectionState) : Prop where
  base_eq : state.base = base
  degrees : replicaOf state.removedBaseDegrees state.degreeAdds =
    Replica.run (delivered.filterMap (PitchEdit.degreeUpdate observes))
  pitches : replicaOf state.removedBasePitches state.pitchAdds =
    Replica.run (delivered.filterMap (PitchEdit.pitchUpdate observes))
  rebuilt : state.rebuildVisible = state

theorem PitchProjectionState.tracks_durable (base : SharedPitchSet) :
    (durable base).Tracks observes base [] := by
  refine ⟨rfl,?_,?_,?_⟩
  · ext <;> simp [durable,replicaOf,Replica.run,Replica.empty]
  · ext <;> simp [durable,replicaOf,Replica.run,Replica.empty]
  · simp [durable,rebuildVisible]

theorem fresh_of_run {update : PitchEdit Context → Option (Update PendingPitchFactId Elem)}
    {delivered : List (PitchEdit Context)} {removedBase : Finset Elem}
    {adds : List (PendingPitchFactId × Elem)} {fact : PendingPitchFactId}
    (hrun : replicaOf removedBase adds = Replica.run (delivered.filterMap update))
    (hupdate : ∀ edit tag elem, update edit = some (.add tag elem) → edit.fact = tag)
    (hfresh : ∀ edit ∈ delivered, edit.fact ≠ fact) : ∀ add ∈ adds, add.1 ≠ fact := by
  intro add hadd
  have hmem : add ∈ (replicaOf removedBase adds).adds := hadd
  rw [hrun] at hmem
  obtain ⟨edit,hedit,hsome⟩ := List.mem_filterMap.mp (Replica.add_of_mem_run hmem)
  exact hupdate edit _ _ hsome ▸ hfresh edit hedit

theorem degreeUpdate_add {edit : PitchEdit Context} {fact : PendingPitchFactId}
    {degree : TunedDegree} :
    edit.degreeUpdate observes = some (.add fact degree) ↔
      edit.fact = fact ∧ edit.event.payload = .addDegree degree := by
  unfold PitchEdit.degreeUpdate
  split <;> simp_all

theorem degreeUpdate_remove {edit : PitchEdit Context} {seen : Set PendingPitchFactId}
    {degree : TunedDegree} :
    edit.degreeUpdate observes = some (.remove degree seen) ↔
      edit.event.payload = .removeDegree degree ∧ edit.observed observes = seen := by
  unfold PitchEdit.degreeUpdate
  split <;> simp_all

theorem pitchUpdate_add {edit : PitchEdit Context} {fact : PendingPitchFactId}
    {pitch : TunedPeriodicPitch} :
    edit.pitchUpdate observes = some (.add fact pitch) ↔
      edit.fact = fact ∧ edit.event.payload = .addPitch pitch := by
  unfold PitchEdit.pitchUpdate
  split <;> simp_all

theorem pitchUpdate_remove {edit : PitchEdit Context} {seen : Set PendingPitchFactId}
    {pitch : TunedPeriodicPitch} :
    edit.pitchUpdate observes = some (.remove pitch seen) ↔
      edit.event.payload = .removePitch pitch ∧ edit.observed observes = seen := by
  unfold PitchEdit.pitchUpdate
  split <;> simp_all

theorem PitchProjectionState.Tracks.applyEvent {base : SharedPitchSet}
    {delivered : List (PitchEdit Context)} {state : PitchProjectionState}
    (h : state.Tracks observes base delivered) {edit : PitchEdit Context}
    (hpitch : isPitchEdit edit.event.payload = true)
    (hfresh : ∀ other ∈ delivered, other.fact ≠ edit.fact) :
    ∃ after, state.applyEvent observes edit.fact edit.event = .ok after ∧
      after.Tracks observes base (delivered ++ [edit]) := by
  have hdegrees : ∀ add ∈ state.degreeAdds, add.1 ≠ edit.fact :=
    fresh_of_run h.degrees (fun _ _ _ hadd => ((degreeUpdate_add observes).mp hadd).1) hfresh
  have hpitches : ∀ add ∈ state.pitchAdds, add.1 ≠ edit.fact :=
    fresh_of_run h.pitches (fun _ _ _ hadd => ((pitchUpdate_add observes).mp hadd).1) hfresh
  unfold PitchProjectionState.applyEvent
  cases hpayload : edit.event.payload with
  | addDegree degree =>
    refine ⟨_,rfl,h.base_eq,?_,?_,rfl⟩
    · simp [rebuildVisible,replicaOf_insertFact hdegrees,h.degrees,PitchEdit.degreeUpdate,hpayload]
    · simp [rebuildVisible,h.pitches,PitchEdit.pitchUpdate,hpayload]
  | removeDegree degree =>
    refine ⟨_,rfl,h.base_eq,?_,?_,rfl⟩
    · simp [rebuildVisible,replicaOf_retainUnobserved,h.degrees,PitchEdit.degreeUpdate,hpayload]
    · simp [rebuildVisible,h.pitches,PitchEdit.pitchUpdate,hpayload]
  | addPitch pitch =>
    refine ⟨_,rfl,h.base_eq,?_,?_,rfl⟩
    · simp [rebuildVisible,h.degrees,PitchEdit.degreeUpdate,hpayload]
    · simp [rebuildVisible,replicaOf_insertFact hpitches,h.pitches,PitchEdit.pitchUpdate,hpayload]
  | removePitch pitch =>
    refine ⟨_,rfl,h.base_eq,?_,?_,rfl⟩
    · simp [rebuildVisible,h.degrees,PitchEdit.degreeUpdate,hpayload]
    · simp [rebuildVisible,replicaOf_retainUnobserved,h.pitches,PitchEdit.pitchUpdate,hpayload]
  | other code => simp [isPitchEdit,hpayload] at hpitch

theorem PitchProjectionState.tracks_applyEvents (base : SharedPitchSet)
    {delivered : List (PitchEdit Context)}
    (hpitch : ∀ edit ∈ delivered, isPitchEdit edit.event.payload = true)
    (hfacts : delivered.Pairwise fun earlier later => earlier.fact ≠ later.fact) :
    ∃ state, (durable base).applyEvents observes delivered = .ok state ∧
      state.Tracks observes base delivered := by
  induction delivered using List.reverseRecOn with
  | nil => exact ⟨_,rfl,tracks_durable observes base⟩
  | append_singleton delivered edit ih =>
    obtain ⟨hbefore,-,hlast⟩ := List.pairwise_append.mp hfacts
    obtain ⟨state,hstate,htracks⟩ :=
      ih (fun other hother => hpitch other (List.mem_append_left _ hother)) hbefore
    obtain ⟨after,hafter,htracks⟩ := htracks.applyEvent observes (hpitch edit (by simp))
      fun other hother => hlast other hother edit (by simp)
    refine ⟨after,?_,htracks⟩
    rw [applyEvents,List.foldlM_append,← applyEvents,hstate]
    simp only [bind,Except.bind,List.foldlM_cons,List.foldlM_nil,hafter]
    rfl

/-- A linear extension delivers the updates of one kind of element in causal order. -/
theorem LinearExtension.causal_updates {events : Finset (PitchEdit Context)}
    {delivered : List (PitchEdit Context)} (h : LinearExtension observes events delivered)
    {update : PitchEdit Context → Option (Update PendingPitchFactId Elem)}
    (hadd : ∀ edit tag elem, update edit = some (.add tag elem) → edit.fact = tag)
    (hremove : ∀ edit elem seen, update edit = some (.remove elem seen) →
      edit.observed observes = seen) : Causal (delivered.filterMap update) := by
  refine List.pairwise_filterMap.mpr (h.causal.imp fun {earlier later} hunseen => ?_)
  intro first hfirst second hsecond hobserves
  cases first with
  | add => exact hobserves
  | remove elem seen =>
    cases second with
    | remove => exact hobserves
    | add tag added =>
      obtain rfl := hadd _ _ _ hsecond
      obtain rfl := hremove _ _ _ hfirst
      exact hunseen hobserves.2

theorem LinearExtension.present_iff_sounds {events : Finset (PitchEdit Context)}
    {delivered : List (PitchEdit Context)} (h : LinearExtension observes events delivered)
    {update : PitchEdit Context → Option (Update PendingPitchFactId Elem)}
    {add remove : Elem → MusicOp}
    (hadd : ∀ edit tag elem, update edit = some (.add tag elem) ↔
      edit.fact = tag ∧ edit.event.payload = add elem)
    (hremove : ∀ edit elem seen, update edit = some (.remove elem seen) ↔
      edit.event.payload = remove elem ∧ edit.observed observes = seen)
    (base : Finset Elem) (elem : Elem) :
    Present { elem | elem ∈ base } (delivered.filterMap update) elem ↔
      Sounds observes base events add remove elem := by
  have hremoves : ∀ seen, Update.remove elem seen ∈ delivered.filterMap update ↔
      ∃ edit ∈ events, edit.event.payload = remove elem ∧ edit.observed observes = seen := by
    intro seen
    simp only [List.mem_filterMap,hremove,h.each]
  have hadds : ∀ tag, Update.add tag elem ∈ delivered.filterMap update ↔
      ∃ edit ∈ events, edit.fact = tag ∧ edit.event.payload = add elem := by
    intro tag
    simp only [List.mem_filterMap,hadd,h.each]
  simp only [Present,hremoves,hadds,Sounds]
  refine or_congr (and_congr_right fun _ => ?_) ?_
  · constructor
    · intro hnone edit hedit hpayload
      exact hnone _ ⟨edit,hedit,hpayload,rfl⟩
    · rintro hnone seen ⟨edit,hedit,hpayload,-⟩
      exact hnone edit hedit hpayload
  · constructor
    · rintro ⟨_,⟨edit,hedit,rfl,hpayload⟩,hunseen⟩
      exact ⟨edit,hedit,hpayload,fun other hother hremoved hobserves =>
        hunseen _ ⟨other,hother,hremoved,rfl⟩ hobserves⟩
    · rintro ⟨edit,hedit,hpayload,hunseen⟩
      refine ⟨edit.fact,⟨edit,hedit,rfl,hpayload⟩,?_⟩
      rintro _ ⟨other,hother,hremoved,rfl⟩ hobserves
      exact hunseen other hother hremoved hobserves

theorem PitchProjectionState.Tracks.visible_pitchClasses {base : SharedPitchSet}
    {delivered : List (PitchEdit Context)} {state : PitchProjectionState}
    (h : state.Tracks observes base delivered) (degree : TunedDegree) :
    degree ∈ state.visible.pitchClasses ↔ degree ∈ Replica.visible
      { degree | degree ∈ base.pitchClasses }
        (Replica.run (delivered.filterMap (PitchEdit.degreeUpdate observes))) := by
  rw [← h.rebuilt,← h.degrees,← h.base_eq]
  simp [rebuildVisible,Replica.visible,replicaOf]

theorem PitchProjectionState.Tracks.visible_pitches {base : SharedPitchSet}
    {delivered : List (PitchEdit Context)} {state : PitchProjectionState}
    (h : state.Tracks observes base delivered) (pitch : TunedPeriodicPitch) :
    pitch ∈ state.visible.pitches ↔ pitch ∈ Replica.visible
      { pitch | pitch ∈ base.pitches }
        (Replica.run (delivered.filterMap (PitchEdit.pitchUpdate observes))) := by
  rw [← h.rebuilt,← h.pitches,← h.base_eq]
  simp [rebuildVisible,Replica.visible,replicaOf]

/-- What a delivery in causal order shows, told from the events alone. -/
theorem LinearExtension.shows {events : Finset (PitchEdit Context)}
    (hpitch : ∀ edit ∈ events, isPitchEdit edit.event.payload = true)
    (hfacts : ∀ edit ∈ events, ∀ other ∈ events, edit.fact = other.fact → edit = other)
    {delivered : List (PitchEdit Context)} (h : LinearExtension observes events delivered)
    (base : SharedPitchSet) :
    ∃ state, (PitchProjectionState.durable base).applyEvents observes delivered = .ok state ∧
      (∀ degree, degree ∈ state.visible.pitchClasses ↔
        Sounds observes base.pitchClasses events .addDegree .removeDegree degree) ∧
      ∀ pitch, pitch ∈ state.visible.pitches ↔
        Sounds observes base.pitches events .addPitch .removePitch pitch := by
  have hdistinct : delivered.Pairwise fun earlier later => earlier.fact ≠ later.fact :=
    h.once.imp_of_mem fun hearlier hlater hne hsame =>
      hne (hfacts _ ((h.each _).mp hearlier) _ ((h.each _).mp hlater) hsame)
  obtain ⟨state,hstate,htracks⟩ := PitchProjectionState.tracks_applyEvents observes base
    (fun edit hedit => hpitch edit ((h.each edit).mp hedit)) hdistinct
  refine ⟨state,hstate,fun degree => ?_,fun pitch => ?_⟩
  · have hcausal : Causal (delivered.filterMap (PitchEdit.degreeUpdate observes)) :=
      h.causal_updates observes
      (fun _ _ _ hadd => ((degreeUpdate_add observes).mp hadd).1)
      fun _ _ _ hremove => ((degreeUpdate_remove observes).mp hremove).2
    rw [htracks.visible_pitchClasses,Replica.mem_visible_run _ hcausal]
    exact h.present_iff_sounds observes (fun _ _ _ => degreeUpdate_add observes)
      (fun _ _ _ => degreeUpdate_remove observes) _ _
  · have hcausal : Causal (delivered.filterMap (PitchEdit.pitchUpdate observes)) :=
      h.causal_updates observes
      (fun _ _ _ hadd => ((pitchUpdate_add observes).mp hadd).1)
      fun _ _ _ hremove => ((pitchUpdate_remove observes).mp hremove).2
    rw [htracks.visible_pitches,Replica.mem_visible_run _ hcausal]
    exact h.present_iff_sounds observes (fun _ _ _ => pitchUpdate_add observes)
      (fun _ _ _ => pitchUpdate_remove observes) _ _

/-- The provisional pitch set is an observed-remove set: whatever the order of a delivery, if it
is causal, it shows just what is in the base and not removed, or added and not observed by a
remove of the same manifest. -/
theorem pitch_projection_observed_remove (base : SharedPitchSet)
    (events : Finset (PitchEdit Context))
    (hpitch : ∀ edit ∈ events, isPitchEdit edit.event.payload = true)
    (hfacts : ∀ edit ∈ events, ∀ other ∈ events, edit.fact = other.fact → edit = other)
    (first second : List (PitchEdit Context)) (hfirst : LinearExtension observes events first)
    (hsecond : LinearExtension observes events second) :
    ∃ one other, (PitchProjectionState.durable base).applyEvents observes first = .ok one ∧
      (PitchProjectionState.durable base).applyEvents observes second = .ok other ∧
      one.visible = other.visible ∧
      (∀ degree, degree ∈ one.visible.pitchClasses ↔
        Sounds observes base.pitchClasses events .addDegree .removeDegree degree) ∧
      ∀ pitch, pitch ∈ one.visible.pitches ↔
        Sounds observes base.pitches events .addPitch .removePitch pitch := by
  obtain ⟨one,hone,hdegrees,hpitches⟩ := hfirst.shows observes hpitch hfacts base
  obtain ⟨other,hother,hotherDegrees,hotherPitches⟩ := hsecond.shows observes hpitch hfacts base
  refine ⟨one,other,hone,hother,?_,hdegrees,hpitches⟩
  have hclasses : one.visible.pitchClasses = other.visible.pitchClasses := by
    ext degree
    rw [hdegrees,hotherDegrees]
  have hexact : one.visible.pitches = other.visible.pitches := by
    ext pitch
    rw [hpitches,hotherPitches]
  cases hone' : one.visible
  cases hother' : other.visible
  simp_all

end Events

section Plain

/-- The counters of two seats, each seen up to its own. -/
def seen (counters : Nat × Nat) (dot : SessionDot) : Bool :=
  dot.counter ≤ if dot.seat = 0 then counters.1 else counters.2

def plainDegree : TunedDegree := ⟨1,7⟩

def plainEdit (seat counter : Nat) (dependencies : Nat × Nat) (payload : MusicOp) :
    PitchEdit (Nat × Nat) :=
  ⟨⟨1,⟨1,seat,counter⟩,seat⟩,⟨dependencies,payload⟩⟩

def addLeft : PitchEdit (Nat × Nat) := plainEdit 0 1 (0,0) (.addDegree plainDegree)
def addRight : PitchEdit (Nat × Nat) := plainEdit 1 1 (0,0) (.addDegree plainDegree)
def removeLeft : PitchEdit (Nat × Nat) := plainEdit 0 2 (1,0) (.removeDegree plainDegree)

theorem pitch_projection_observed_remove_concurrent :
    ∃ one other,
      (PitchProjectionState.durable ⟨{plainDegree},∅⟩).applyEvents seen
        [addLeft,removeLeft,addRight] = .ok one ∧
      (PitchProjectionState.durable ⟨{plainDegree},∅⟩).applyEvents seen
        [addRight,addLeft,removeLeft] = .ok other ∧
      one.visible = other.visible ∧ plainDegree ∈ one.visible.pitchClasses := by
  obtain ⟨one,other,hone,hother,hsame,hdegrees,-⟩ :=
    pitch_projection_observed_remove seen ⟨{plainDegree},∅⟩ {addLeft,addRight,removeLeft}
      (by decide) (by decide) [addLeft,removeLeft,addRight] [addRight,addLeft,removeLeft]
      ⟨by simp; tauto,by decide,by decide⟩ ⟨by simp; tauto,by decide,by decide⟩
  refine ⟨one,other,hone,hother,hsame,(hdegrees plainDegree).mpr (.inr ?_)⟩
  exact ⟨addRight,by decide,rfl,by decide⟩

end Plain

end WalkieSongie.Session
