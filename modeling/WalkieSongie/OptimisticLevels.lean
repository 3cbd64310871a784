import Mathlib.Data.List.Induction
import Mathlib.Logic.Function.Basic
import WalkieSongie.BridgePitches
set_option autoImplicit false

/-!
What the bridge shows of a class while edits of it are open, against the queue of the intents that
are outstanding.
-/

namespace WalkieSongie.Bridge

/-- The outstanding intents of each class, the latest first. -/
abbrev IntentQueue := TunedDegree → List PendingPitchIntent

namespace IntentQueue

variable (queue : IntentQueue)

def track (token : Nat) (source : PitchIntentSource)
    (pitchEdits : List (TunedPeriodicPitch × Bool)) : IntentQueue :=
  pitchEdits.foldl (fun queue edit =>
    Function.update queue (sharedDegree edit.1)
      (⟨edit.2,token,source⟩ :: queue (sharedDegree edit.1))) queue

/-- The intents that a rejection or a cut-off leaves outstanding. -/
def keep (stays : PendingPitchIntent → Bool) : IntentQueue := fun degree =>
  (queue degree).filter stays

/-- A room that shows the level of a class's latest intent retires all of them. -/
def retire (room : SharedPitchSet) : IntentQueue := fun degree =>
  if (queue degree).head?.any fun latest => containsClass room degree = latest.active then []
  else queue degree

/-- The level that the latest outstanding intent asks for, the room's when there is none. -/
def level (room : SharedPitchSet) (degree : TunedDegree) : Bool :=
  match (queue degree).head? with
  | some latest => latest.active
  | none => containsClass room degree

end IntentQueue

inductive IntentCall where
  | trackPitchIntent (token : Nat) (source : PitchIntentSource)
      (pitchEdits : List (TunedPeriodicPitch × Bool))
  | rejectPitchIntent (token : Nat)
  | abandonPitchIntentsThrough (throughToken : Nat)
  | applyConfirmedRoom (room : SharedPitchSet)

/-- The bridge's state beside the queue that it stands for. -/
structure IntentRun (M : MusicLibrary) where
  pitches : BridgePitchState M := {}
  queue : IntentQueue := fun _ => []

namespace IntentRun

variable {M : MusicLibrary}

def step (run : IntentRun M) : IntentCall → IntentRun M
  | .trackPitchIntent token source pitchEdits =>
      ⟨run.pitches.trackPitchIntent token source pitchEdits,
        run.queue.track token source pitchEdits⟩
  | .rejectPitchIntent token =>
      ⟨run.pitches.rejectPitchIntent token,
        run.queue.keep fun intent => intent.intentToken ≠ token⟩
  | .abandonPitchIntentsThrough throughToken =>
      ⟨run.pitches.abandonPitchIntentsThrough throughToken,
        run.queue.keep fun intent => throughToken < intent.intentToken⟩
  | .applyConfirmedRoom room =>
      ⟨(run.pitches.applyConfirmedRoom room).2,run.queue.retire room⟩

def after (M : MusicLibrary) (calls : List IntentCall) : IntentRun M := calls.foldl step {}

/-- Every class is shown as its latest outstanding intent asks. -/
def Agrees (run : IntentRun M) : Prop :=
  ∀ pitch, run.pitches.containsOptimisticPitchClass pitch =
    run.queue.level run.pitches.room (sharedDegree pitch)

/-- The latest outstanding intent of some class goes, and the one that is then the latest asks for
another level than the confirmed one. -/
def Uncovers (run : IntentRun M) (stays : PendingPitchIntent → Bool) : Prop :=
  ∃ degree latest next, (run.queue degree).head? = some latest ∧ stays latest = false ∧
    (run.queue.keep stays degree).head? = some next ∧
      next.active ≠ containsClass run.pitches.room degree

/-- The calls after which a class is shown otherwise: a rejection or a cut-off that uncovers an
older intent, and a room that does not show the level of an intent which the bridge has no entry
for. -/
def Loses (run : IntentRun M) : IntentCall → Prop
  | .trackPitchIntent _ _ _ => False
  | .rejectPitchIntent token => run.Uncovers fun intent => intent.intentToken ≠ token
  | .abandonPitchIntentsThrough throughToken =>
      run.Uncovers fun intent => throughToken < intent.intentToken
  | .applyConfirmedRoom room => ∃ degree latest,
      run.pitches.pendingClasses.get? degree = none ∧ (run.queue degree).head? = some latest ∧
        containsClass room degree ≠ latest.active

/-- An entry is the latest outstanding intent of its class. -/
def Slotted (run : IntentRun M) : Prop :=
  ∀ degree intent, run.pitches.pendingClasses.get? degree = some intent →
    (run.queue degree).head? = some intent

/-- Where no entry is, the room shows what the latest outstanding intent asks for. -/
def Shown (run : IntentRun M) : Prop :=
  ∀ degree latest, run.pitches.pendingClasses.get? degree = none →
    (run.queue degree).head? = some latest →
      latest.active = containsClass run.pitches.room degree

variable {run : IntentRun M}

theorem Slotted.agrees_iff (h : run.Slotted) : run.Agrees ↔ run.Shown := by
  constructor
  · intro hagrees degree latest hnone hlatest
    have hlevel := hagrees ⟨degree.tuningId,degree.degree,0⟩
    simp only [BridgePitchState.containsOptimisticPitchClass,sharedDegree,hnone,
      IntentQueue.level,hlatest] at hlevel
    exact hlevel.symm
  · intro hshown pitch
    cases hentry : run.pitches.pendingClasses.get? (sharedDegree pitch) with
    | some intent =>
        simp [BridgePitchState.containsOptimisticPitchClass,IntentQueue.level,hentry,
          h _ _ hentry]
    | none =>
        cases hlatest : (run.queue (sharedDegree pitch)).head? with
        | none =>
            simp [BridgePitchState.containsOptimisticPitchClass,IntentQueue.level,hentry,hlatest,
              BridgePitchState.confirmedContainsPitchClass]
        | some latest =>
            simp [BridgePitchState.containsOptimisticPitchClass,IntentQueue.level,hentry,hlatest,
              BridgePitchState.confirmedContainsPitchClass,hshown _ _ hentry hlatest]

/-- Tracking edits some classes, each shown by its entry from then on, and no other. -/
theorem track_cases (run : IntentRun M) (token : Nat) (source : PitchIntentSource)
    (pitchEdits : List (TunedPeriodicPitch × Bool)) (degree : TunedDegree) :
    (∃ intent, (run.pitches.trackPitchIntent token source pitchEdits).pendingClasses.get? degree =
        some intent ∧ (run.queue.track token source pitchEdits degree).head? = some intent) ∨
      (run.pitches.trackPitchIntent token source pitchEdits).pendingClasses.get? degree =
        run.pitches.pendingClasses.get? degree ∧
      run.queue.track token source pitchEdits degree = run.queue degree := by
  simp only [BridgePitchState.trackPitchIntent,IntentQueue.track]
  induction pitchEdits using List.reverseRecOn with
  | nil => exact .inr ⟨rfl,rfl⟩
  | append_singleton pitchEdits edit ih =>
      rw [List.foldl_append,List.foldl_append]
      simp only [List.foldl_cons,List.foldl_nil,KeyedMap.get?_insert]
      by_cases hsame : degree = sharedDegree edit.1
      · left
        subst hsame
        exact ⟨⟨edit.2,token,source⟩,by simp,by simp⟩
      · simpa [hsame] using ih

theorem Slotted.keep (h : run.Slotted) (stays : PendingPitchIntent → Bool) :
    Slotted ⟨{ run.pitches with
      pendingClasses := run.pitches.pendingClasses.retain fun _ intent => stays intent },
        run.queue.keep stays⟩ := by
  intro degree intent hentry
  simp only [KeyedMap.get?_retain,Option.filter_eq_some_iff] at hentry
  have hlatest := h degree intent hentry.1
  obtain ⟨older,holder⟩ := List.head?_eq_some_iff.mp hlatest
  simp [IntentQueue.keep,holder,hentry.2]

theorem Slotted.step (h : run.Slotted) (call : IntentCall) : (run.step call).Slotted := by
  cases call with
  | trackPitchIntent token source pitchEdits =>
      intro degree intent hentry
      rcases run.track_cases token source pitchEdits degree with
        ⟨latest,hlatest,hhead⟩ | ⟨hkept,hqueue⟩
      · have hsame : latest = intent := Option.some.inj (hlatest.symm.trans hentry)
        simpa [IntentRun.step,hsame] using hhead
      · simp only [IntentRun.step] at hentry ⊢
        rw [hkept] at hentry
        rw [hqueue]
        exact h degree intent hentry
  | rejectPitchIntent token => exact h.keep _
  | abandonPitchIntentsThrough throughToken => exact h.keep _
  | applyConfirmedRoom room =>
      intro degree intent hentry
      simp only [IntentRun.step,BridgePitchState.applyConfirmedRoom,KeyedMap.get?_retain,
        Option.filter_eq_some_iff,decide_eq_true_eq] at hentry
      have hlatest := h degree intent hentry.1
      simp [IntentRun.step,IntentQueue.retire,hlatest,hentry.2]

theorem Shown.keep (h : run.Shown) (hslotted : run.Slotted) {stays : PendingPitchIntent → Bool}
    (hcovers : ¬ run.Uncovers stays) :
    Shown ⟨{ run.pitches with
      pendingClasses := run.pitches.pendingClasses.retain fun _ intent => stays intent },
        run.queue.keep stays⟩ := by
  intro degree next hnone hnext
  cases hlatest : (run.queue degree).head? with
  | none =>
      have hempty : run.queue degree = [] := List.head?_eq_none_iff.mp hlatest
      simp [IntentQueue.keep,hempty] at hnext
  | some latest =>
      cases hstays : stays latest with
      | false =>
          by_contra hother
          exact hcovers ⟨degree,latest,next,hlatest,hstays,hnext,hother⟩
      | true =>
          obtain ⟨older,holder⟩ := List.head?_eq_some_iff.mp hlatest
          have hsame : latest = next := by simpa [IntentQueue.keep,holder,hstays] using hnext
          subst hsame
          apply h degree latest _ hlatest
          cases hentry : run.pitches.pendingClasses.get? degree with
          | none => rfl
          | some intent =>
              have hintent : intent = latest :=
                Option.some.inj ((hslotted degree intent hentry).symm.trans hlatest)
              subst hintent
              simp [KeyedMap.get?_retain,hentry,hstays] at hnone

theorem Uncovers.not_shown {stays : PendingPitchIntent → Bool} (h : run.Uncovers stays)
    (hslotted : run.Slotted) :
    ¬ Shown ⟨{ run.pitches with
      pendingClasses := run.pitches.pendingClasses.retain fun _ intent => stays intent },
        run.queue.keep stays⟩ := by
  obtain ⟨degree,latest,next,hlatest,hstays,hnext,hother⟩ := h
  intro hshown
  apply hother
  apply hshown degree next _ hnext
  rw [KeyedMap.get?_retain]
  cases hentry : run.pitches.pendingClasses.get? degree with
  | none => rfl
  | some intent =>
      have hintent : intent = latest :=
        Option.some.inj ((hslotted degree intent hentry).symm.trans hlatest)
      simp [hintent,hstays]

theorem Shown.step (h : run.Shown) (hslotted : run.Slotted) {call : IntentCall}
    (hkeeps : ¬ run.Loses call) : (run.step call).Shown := by
  cases call with
  | trackPitchIntent token source pitchEdits =>
      intro degree latest hnone hlatest
      rcases run.track_cases token source pitchEdits degree with
        ⟨intent,hintent,-⟩ | ⟨hkept,hqueue⟩
      · exact absurd (hintent.symm.trans hnone) (by simp)
      · exact h degree latest (hkept.symm.trans hnone) (hqueue ▸ hlatest)
  | rejectPitchIntent token => exact h.keep hslotted hkeeps
  | abandonPitchIntentsThrough throughToken => exact h.keep hslotted hkeeps
  | applyConfirmedRoom room =>
      intro degree latest hnone hlatest
      simp only [IntentRun.step,IntentQueue.retire] at hlatest
      split at hlatest
      · simp at hlatest
      · rename_i hunshown
        have hother : containsClass room degree ≠ latest.active := by
          simpa [hlatest] using hunshown
        exfalso
        refine hkeeps ⟨degree,latest,?_,hlatest,hother⟩
        cases hentry : run.pitches.pendingClasses.get? degree with
        | none => rfl
        | some intent =>
            have hintent : intent = latest :=
              Option.some.inj ((hslotted degree intent hentry).symm.trans hlatest)
            simp [IntentRun.step,BridgePitchState.applyConfirmedRoom,KeyedMap.get?_retain,
              hentry,hintent,hother] at hnone

theorem Loses.not_shown {call : IntentCall} (h : run.Loses call) (hslotted : run.Slotted) :
    ¬ (run.step call).Shown := by
  cases call with
  | trackPitchIntent token source pitchEdits => exact h.elim
  | rejectPitchIntent token => exact Uncovers.not_shown h hslotted
  | abandonPitchIntentsThrough throughToken => exact Uncovers.not_shown h hslotted
  | applyConfirmedRoom room =>
      obtain ⟨degree,latest,hnone,hlatest,hother⟩ := h
      intro hshown
      apply hother
      have hqueue : ((run.queue.retire room) degree).head? = some latest := by
        simp [IntentQueue.retire,hlatest,hother]
      refine (hshown degree latest ?_ hqueue).symm
      simp [IntentRun.step,BridgePitchState.applyConfirmedRoom,KeyedMap.get?_retain,hnone]

theorem after_append (calls : List IntentCall) (call : IntentCall) :
    after M (calls ++ [call]) = (after M calls).step call := by
  simp [after]

theorem slotted_after (calls : List IntentCall) : (after M calls).Slotted := by
  induction calls using List.reverseRecOn with
  | nil =>
      intro degree intent hentry
      simp [after] at hentry
  | append_singleton calls call ih =>
      rw [after_append]
      exact ih.step call

/-- Over every sequence of calls each class is shown all along as its latest outstanding intent
asks, or as the room is without one, exactly when no call loses an outstanding intent. -/
theorem optimistic_levels_iff (M : MusicLibrary) (calls : List IntentCall) :
    (∀ done, done <+: calls → (after M done).Agrees) ↔
      ∀ done call, done ++ [call] <+: calls → ¬ (after M done).Loses call := by
  constructor
  · intro hagrees done call hfront hloses
    apply hloses.not_shown (slotted_after done)
    rw [← after_append]
    exact (slotted_after _).agrees_iff.mp (hagrees _ hfront)
  · intro hkeeps done hfront
    rw [(slotted_after done).agrees_iff]
    induction done using List.reverseRecOn with
    | nil =>
        intro degree latest _ hlatest
        simp [after] at hlatest
    | append_singleton done call ih =>
        rw [after_append]
        exact (ih ((List.prefix_append done [call]).trans hfront)).step (slotted_after done)
          (hkeeps done call hfront)

/-- The key of a class pressed and then released, the release rejected. -/
def rejectedRelease : List IntentCall :=
  [.trackPitchIntent 1 .host [(⟨1,0,5⟩,true)],
    .trackPitchIntent 2 .host [(⟨1,0,5⟩,false)],
    .rejectPitchIntent 2]

/-- The press is still outstanding, but is shown no more. -/
theorem rejected_release_hides_press : ¬ (after plainMusic rejectedRelease).Agrees := by
  intro hagrees
  have hlevel := hagrees ⟨1,0,5⟩
  exact absurd hlevel (by decide)

end IntentRun

end WalkieSongie.Bridge
