import Mathlib
import WalkieSongie.PitchLevels
set_option autoImplicit false

/-!
The board's pattern and the classes of the room's set: which slots the set's notes leave on, and
what an edit of the board makes of them.
-/

namespace WalkieSongie.Bridge

variable {M : MusicLibrary} {Slot : Type} [DecidableEq Slot]

/-- The pattern as the round-table crate documents it: a note is in it when its slot is on,
toggling a note flips its slot alone or fails where it has none, and patterns that agree on the
notes of a board are one. -/
structure Slotted (M : MusicLibrary) (slot : Nat → Option Slot) : Prop where
  cleared : ∀ note, M.contains M.cleared note = false
  toggled_none : ∀ pattern note, slot note = none → M.toggled pattern note = none
  toggled_some : ∀ pattern note, slot note ≠ none → ∃ next, M.toggled pattern note = some next ∧
    ∀ other, M.contains next other = (M.contains pattern other ^^ decide (slot other = slot note))
  ext : ∀ pattern pattern',
    (∀ note < 128, M.contains pattern note = M.contains pattern' note) → pattern = pattern'

def sharers (slot : Nat → Option Slot) (notes : Finset Nat) (note : Nat) : Nat :=
  (notes.filter fun other => slot other = slot note).card

/-- The notes that a set's degrees name from 48 up, and those its exact pitches round to. -/
def hostNotes (M : MusicLibrary) (shared : SharedPitchSet) : Finset Nat :=
  (Finset.range 128).filter fun note =>
    (∃ degree ∈ shared.pitchClasses, degree.tuningId = M.twelveTet ∧ 48+degree.degree = note) ∨
      ∃ pitch ∈ shared.pitches, pitch.tuningId = M.twelveTet ∧ M.roundedMidi pitch = note

/-- An odd number of the set's notes share the note's slot. -/
def OddlyShared (M : MusicLibrary) (slot : Nat → Option Slot) (shared : SharedPitchSet)
    (note : Nat) : Prop :=
  slot note ≠ none ∧ sharers slot (hostNotes M shared) note % 2 = 1

instance (slot : Nat → Option Slot) (shared : SharedPitchSet) (note : Nat) :
    Decidable (OddlyShared M slot shared note) := inferInstanceAs (Decidable (_ ∧ _))

section Toggling

variable {slot : Nat → Option Slot}

def toggleActive (M : MusicLibrary) (notes : Finset Nat) (pattern : M.Pattern) (note : Nat) :
    M.Pattern :=
  if note ∈ notes then (M.toggled pattern note).getD pattern else pattern

theorem contains_toggleActive (hslots : Slotted M slot) (notes : Finset Nat) (pattern : M.Pattern)
    (note other : Nat) : M.contains (toggleActive M notes pattern note) other =
      (M.contains pattern other ^^
        decide (slot other ≠ none ∧ note ∈ notes ∧ slot note = slot other)) := by
  unfold toggleActive
  by_cases hactive : note ∈ notes
  · cases hslot : slot note with
    | none =>
      have hfails := hslots.toggled_none pattern note hslot
      have hnever : ¬ (slot other ≠ none ∧ note ∈ notes ∧ none = slot other) := by
        rintro ⟨hsome,-,hnone⟩
        exact hsome hnone.symm
      simp only [hactive,if_true,hfails,Option.getD_none]
      simp only [hactive] at hnever
      rw [decide_eq_false hnever,Bool.xor_false]
    | some found =>
      have hsome : slot note ≠ none := by simp [hslot]
      obtain ⟨next,hnext,hflips⟩ := hslots.toggled_some pattern note hsome
      have hsame : (slot other = slot note) ↔
          (slot other ≠ none ∧ note ∈ notes ∧ some found = slot other) := by
        rw [hslot]
        constructor
        · intro hother
          simp [hother,hactive]
        · intro hother
          exact hother.2.2.symm
      simp only [hactive,if_true,hnext,Option.getD_some,hflips,decide_eq_decide.mpr hsame]
  · simp [hactive]

theorem contains_foldl_toggleActive (hslots : Slotted M slot) (notes : Finset Nat) (line : List Nat)
    (pattern : M.Pattern) (other : Nat) :
    M.contains (line.foldl (toggleActive M notes) pattern) other =
      (M.contains pattern other ^^ decide (slot other ≠ none ∧
        line.countP (fun note => note ∈ notes ∧ slot note = slot other) % 2 = 1)) := by
  induction line generalizing pattern with
  | nil => simp
  | cons note rest ih =>
    rw [List.foldl_cons,ih,contains_toggleActive hslots,List.countP_cons]
    generalize hcount : rest.countP (fun note => note ∈ notes ∧ slot note = slot other) = count
    by_cases hslot : slot other = none
    · simp [hslot]
    · by_cases hshares : note ∈ notes ∧ slot note = slot other
      · have hodd : (count+1) % 2 = 1 ↔ ¬ count % 2 = 1 := by omega
        simp only [hslot,hshares,ne_eq,not_false_iff,true_and,and_self,decide_true,if_true,hodd]
        by_cases hcount : count % 2 = 1
        · simp [hcount]
        · simp [hcount]
      · simp [hslot,hshares]

theorem hostNotes_lt {shared : SharedPitchSet} {note : Nat} (h : note ∈ hostNotes M shared) :
    note < 128 := List.mem_range.mp (Finset.mem_filter.mp h).1

theorem roomMidiNotes_eq (pitches : BridgePitchState M) :
    pitches.roomMidiNotes = hostNotes M pitches.room := by
  ext note
  simp only [BridgePitchState.roomMidiNotes,hostNotes,Finset.mem_union,Finset.mem_filter,
    Finset.mem_image,Finset.mem_range]
  constructor
  · rintro (⟨⟨degree,⟨hmem,htuning⟩,rfl⟩,hhigh⟩ | ⟨sounding,⟨⟨pitch,⟨hmem,htuning⟩,rfl⟩,hin⟩,rfl⟩)
    · exact ⟨by omega,.inl ⟨degree,hmem,htuning,rfl⟩⟩
    · exact ⟨by omega,.inr ⟨pitch,hmem,htuning,(Int.toNat_of_nonneg hin.1).symm⟩⟩
  · rintro ⟨hlow,⟨degree,hmem,htuning,rfl⟩ | ⟨pitch,hmem,htuning,hsounds⟩⟩
    · exact .inl ⟨⟨degree,⟨hmem,htuning⟩,rfl⟩,by omega⟩
    · exact .inr ⟨note,⟨⟨pitch,⟨hmem,htuning⟩,hsounds⟩,by omega⟩,Int.toNat_natCast note⟩

theorem countP_range {slot : Nat → Option Slot} {notes : Finset Nat} (note : Nat)
    (hnotes : ∀ note ∈ notes, note < 128) :
    (List.range 128).countP (fun other => other ∈ notes ∧ slot other = slot note) =
      sharers slot notes note := by
  have hfilter : notes.filter (fun other => slot other = slot note) =
      (Finset.range 128).filter fun other => other ∈ notes ∧ slot other = slot note := by
    ext other
    simp only [Finset.mem_filter,Finset.mem_range]
    constructor
    · intro h
      exact ⟨hnotes other h.1,h⟩
    · intro h
      exact h.2
  rw [sharers,hfilter,List.countP_eq_length_filter]
  rfl

theorem contains_roomPattern (hslots : Slotted M slot) (pitches : BridgePitchState M) (note : Nat) :
    M.contains pitches.roomPattern note = decide (OddlyShared M slot pitches.room note) := by
  have hfold : pitches.roomPattern =
      (List.range 128).foldl (toggleActive M (hostNotes M pitches.room)) M.cleared := by
    rw [← roomMidiNotes_eq]
    unfold toggleActive
    rfl
  rw [hfold,contains_foldl_toggleActive hslots,hslots.cleared,Bool.false_xor,
    countP_range note fun other => hostNotes_lt]
  rfl

theorem board_shows_iff (hslots : Slotted M slot) (pitches : BridgePitchState M)
    (degree : Nat → TunedDegree) : (∀ pitchClass < 12,
      M.contains pitches.boardConfig.pattern (48+pitchClass) =
        containsClass pitches.room (degree pitchClass)) ↔
      ∀ pitchClass < 12, OddlyShared M slot pitches.room (48+pitchClass) ↔
        containsClass pitches.room (degree pitchClass) = true := by
  have hshown : ∀ note, M.contains pitches.boardConfig.pattern note =
      decide (OddlyShared M slot pitches.room note) := contains_roomPattern hslots pitches
  have hclass : ∀ pitchClass, (M.contains pitches.boardConfig.pattern (48+pitchClass) =
      containsClass pitches.room (degree pitchClass)) ↔
        (OddlyShared M slot pitches.room (48+pitchClass) ↔
          containsClass pitches.room (degree pitchClass) = true) := by
    intro pitchClass
    rw [hshown,Bool.eq_iff_iff,decide_eq_true_iff]
  simp only [hclass]

end Toggling

section Planning

def classDegree (M : MusicLibrary) (pitchClass : Nat) : TunedDegree := ⟨M.twelveTet,pitchClass⟩

/-- The twelve notes from 48 up carry the twelve degrees in order. -/
def TwelveDegrees (M : MusicLibrary) : Prop :=
  ∀ pitchClass < 12, ∃ period, M.periodicPitchForMidi (48+pitchClass) = some (pitchClass,period)

def editOf (edit : TunedPeriodicPitch × Bool) : TunedDegree × Bool := (sharedDegree edit.1,edit.2)

theorem planPitchEdits_eq (hdegrees : TwelveDegrees M) (before after : M.Pattern)
    {classes : List Nat} (hclasses : ∀ pitchClass ∈ classes, pitchClass < 12) :
    ∃ edits, BridgePitchState.planPitchEdits before after classes = .ok edits ∧
      edits.map editOf = (classes.filter fun pitchClass =>
        M.contains before (48+pitchClass) ≠ M.contains after (48+pitchClass)).map
          fun pitchClass => (classDegree M pitchClass,M.contains after (48+pitchClass)) := by
  induction classes with
  | nil => exact ⟨[],rfl,rfl⟩
  | cons pitchClass rest ih =>
    obtain ⟨edits,hedits,hmap⟩ := ih fun other hother => hclasses other (by simp [hother])
    obtain ⟨period,hperiod⟩ := hdegrees pitchClass (hclasses pitchClass (by simp))
    by_cases hdiffer : M.contains before (48+pitchClass) ≠ M.contains after (48+pitchClass)
    · refine ⟨(⟨M.twelveTet,pitchClass,period⟩,M.contains after (48+pitchClass)) :: edits,?_,?_⟩
      · simp [BridgePitchState.planPitchEdits,hdiffer,pitchForMidi,hperiod,hedits,bind,Except.bind,
          pure,Except.pure]
      · rw [List.filter_cons_of_pos (by simpa using hdiffer),List.map_cons,List.map_cons,hmap]
        rfl
    · refine ⟨edits,?_,?_⟩
      · simp only [BridgePitchState.planPitchEdits,if_neg hdiffer,hedits]
      · rw [List.filter_cons_of_neg (by simpa using hdiffer),hmap]

variable {pitchEdits : List (TunedPeriodicPitch × Bool)}

theorem mem_live_admitPitchEdits (hdistinct : ((pitchEdits.map editOf).map Prod.fst).Nodup)
    (replica : RoomReplica M) (degree : TunedDegree) :
    degree ∈ (replica.admitPitchEdits pitchEdits).live ↔
      (degree,true) ∈ pitchEdits.map editOf ∨
        degree ∈ replica.live ∧ degree ∉ (pitchEdits.map editOf).map Prod.fst := by
  induction pitchEdits generalizing replica with
  | nil => simp [RoomReplica.admitPitchEdits]
  | cons edit rest ih =>
    obtain ⟨pitch,active⟩ := edit
    have hkeys : ((pitch,active) :: rest).map editOf =
        (sharedDegree pitch,active) :: rest.map editOf := rfl
    have hfirst : replica.admitPitchEdits ((pitch,active) :: rest) =
        (replica.admitPitchEdit pitch active).admitPitchEdits rest := rfl
    rw [hkeys,List.map_cons,List.nodup_cons] at hdistinct
    rw [hfirst,ih hdistinct.2,hkeys]
    generalize rest.map editOf = keys at hdistinct
    have hunnamed := hdistinct.1
    have hfresh : (sharedDegree pitch,true) ∉ keys := fun hmem =>
      hunnamed (List.mem_map.mpr ⟨_,hmem,rfl⟩)
    simp only [RoomReplica.admitPitchEdit,List.map_cons,List.mem_cons,Prod.mk.injEq]
    by_cases hsame : degree = sharedDegree pitch
    · subst hsame
      cases active with
      | true => simp only [if_true,Finset.mem_insert_self,hunnamed,not_false_iff,or_true,
          and_self,true_or]
      | false => simp [hfresh]
    · cases active with
      | true => simp [hsame]
      | false => simp [hsame]

theorem mem_livePitches_admitPitchEdits (replica : RoomReplica M) (pitch : TunedPeriodicPitch) :
    pitch ∈ (replica.admitPitchEdits pitchEdits).livePitches ↔
      pitch ∈ replica.livePitches ∧
        sharedDegree pitch ∉ (pitchEdits.map editOf).map Prod.fst := by
  induction pitchEdits generalizing replica with
  | nil => simp [RoomReplica.admitPitchEdits]
  | cons edit rest ih =>
    have hfirst : replica.admitPitchEdits (edit :: rest) =
        (replica.admitPitchEdit edit.1 edit.2).admitPitchEdits rest := rfl
    rw [hfirst,ih]
    simp only [RoomReplica.admitPitchEdit,Finset.mem_filter,List.map_cons,List.mem_cons,editOf,
      not_or,and_assoc]

section Edited

variable (M) (slot : Nat → Option Slot) (shared : SharedPitchSet) (pattern : M.Pattern)

/-- The classes that a pattern of the board's changes in a room with this set. -/
def editedClasses : Finset Nat :=
  (Finset.range 12).filter fun pitchClass =>
    ¬ (OddlyShared M slot shared (48+pitchClass) ↔ M.contains pattern (48+pitchClass) = true)

def editedSet : SharedPitchSet where
  pitchClasses :=
    shared.pitchClasses \ (editedClasses M slot shared pattern).image (classDegree M) ∪
      ((editedClasses M slot shared pattern).filter fun pitchClass =>
        M.contains pattern (48+pitchClass) = true).image (classDegree M)
  pitches := shared.pitches.filter fun pitch =>
    sharedDegree pitch ∉ (editedClasses M slot shared pattern).image (classDegree M)

end Edited

variable {slot : Nat → Option Slot}

theorem classDegree_injective : Function.Injective (classDegree M) := by
  intro first second h
  exact (TunedDegree.mk.inj h).2

/-- The edits of a plan name each edited class once, with the pattern's word on it. -/
theorem planBoardEdit_edits (hslots : Slotted M slot) (hdegrees : TwelveDegrees M)
    (pitches : BridgePitchState M) (config : RoundTableConfig M) :
    ∃ plan, pitches.planBoardEdit config = .ok plan ∧
      ((plan.pitchEdits.map editOf).map Prod.fst).Nodup ∧
      ∀ degree active, (degree,active) ∈ plan.pitchEdits.map editOf ↔
        ∃ pitchClass ∈ editedClasses M slot pitches.room config.pattern,
          classDegree M pitchClass = degree ∧
            M.contains config.pattern (48+pitchClass) = active := by
  have hclasses : ∀ pitchClass ∈ List.range 12, pitchClass < 12 := fun _ => List.mem_range.mp
  obtain ⟨edits,hedits,hmap⟩ :=
    planPitchEdits_eq hdegrees pitches.roomPattern config.pattern hclasses
  refine ⟨_,by simp only [BridgePitchState.planBoardEdit,hedits]; rfl,?_,?_⟩
  · simp only [hmap,List.map_map]
    refine List.Nodup.map_on ?_ (List.nodup_range.filter _)
    intro first _ second _ hsame
    exact classDegree_injective hsame
  · intro degree active
    simp only [hmap,List.mem_map,List.mem_filter,List.mem_range,Prod.mk.injEq,editedClasses,
      Finset.mem_filter,Finset.mem_range,contains_roomPattern hslots]
    have hdiffer : ∀ pitchClass, decide (decide (OddlyShared M slot pitches.room (48+pitchClass)) ≠
        M.contains config.pattern (48+pitchClass)) = true ↔
          ¬ (OddlyShared M slot pitches.room (48+pitchClass) ↔
            M.contains config.pattern (48+pitchClass) = true) := by
      intro pitchClass
      by_cases hodd : OddlyShared M slot pitches.room (48+pitchClass)
      · simp [hodd]
      · simp [hodd]
    simp only [hdiffer]

/-- In whatever order, the edits of a plan leave the edited set. -/
theorem soundingPitchSet_admitPlan (hslots : Slotted M slot) (hdegrees : TwelveDegrees M)
    {pitches : BridgePitchState M} {config : RoundTableConfig M} {plan : BoardEditPlan M}
    (hplan : pitches.planBoardEdit config = .ok plan)
    {order : List (TunedPeriodicPitch × Bool)} (horder : order.Perm plan.pitchEdits)
    {replica : RoomReplica M} (hpieces : replica.pieces = .empty)
    (hroom : replica.soundingPitchSet = pitches.room) :
    (replica.admitPitchEdits order).soundingPitchSet =
      editedSet M slot pitches.room config.pattern := by
  obtain ⟨found,hfound,hnodup,hedits⟩ := planBoardEdit_edits hslots hdegrees pitches config
  obtain rfl : plan = found := Except.ok.inj (hplan.symm.trans hfound)
  have hkeys : (order.map editOf).Perm (plan.pitchEdits.map editOf) := horder.map editOf
  have hdistinct : ((order.map editOf).map Prod.fst).Nodup :=
    (hkeys.map Prod.fst).nodup_iff.mpr hnodup
  have hword : ∀ degree active, (degree,active) ∈ order.map editOf ↔
      ∃ pitchClass ∈ editedClasses M slot pitches.room config.pattern,
        classDegree M pitchClass = degree ∧
          M.contains config.pattern (48+pitchClass) = active := fun degree active =>
    (hkeys.mem_iff).trans (hedits degree active)
  have hnamed : ∀ degree, degree ∈ (order.map editOf).map Prod.fst ↔
      degree ∈ (editedClasses M slot pitches.room config.pattern).image (classDegree M) := by
    intro degree
    rw [List.mem_map,Finset.mem_image]
    constructor
    · rintro ⟨⟨found,active⟩,hmem,rfl⟩
      obtain ⟨pitchClass,hedited,hdegree,-⟩ := (hword found active).mp hmem
      exact ⟨pitchClass,hedited,hdegree⟩
    · rintro ⟨pitchClass,hedited,rfl⟩
      exact ⟨_,(hword _ _).mpr ⟨pitchClass,hedited,rfl,rfl⟩,rfl⟩
  have hbare : ∀ replica : RoomReplica M, replica.pieces = .empty →
      replica.pieceDegrees = ∅ := by
    intro replica hempty
    simp [RoomReplica.pieceDegrees,hempty,KeyedMap.empty]
  have hafter : (replica.admitPitchEdits order).pieces = .empty := by
    rw [RoomReplica.pieceDegrees_admitPitchEdits,hpieces]
  have hlive : replica.live = pitches.room.pitchClasses := by
    rw [← hroom]
    simp [RoomReplica.soundingPitchSet,hbare replica hpieces]
  have hexact : replica.livePitches = pitches.room.pitches := by
    rw [← hroom]
    rfl
  simp only [RoomReplica.soundingPitchSet,hbare _ hafter,Finset.union_empty,editedSet,
    SharedPitchSet.mk.injEq]
  constructor
  · ext degree
    rw [mem_live_admitPitchEdits hdistinct,hword,hnamed,hlive]
    simp only [Finset.mem_union,Finset.mem_sdiff,Finset.mem_image,Finset.mem_filter]
    constructor
    · rintro (⟨pitchClass,hedited,hdegree,hon⟩ | hkept)
      · exact .inr ⟨pitchClass,⟨hedited,hon⟩,hdegree⟩
      · exact .inl hkept
    · rintro (hkept | ⟨pitchClass,⟨hedited,hon⟩,hdegree⟩)
      · exact .inr hkept
      · exact .inl ⟨pitchClass,hedited,hdegree,hon⟩
  · ext pitch
    rw [mem_livePitches_admitPitchEdits,hnamed,hexact,Finset.mem_filter]

end Planning

/-- The pattern shows the classes of the room's set exactly when each class is in the set just where
an odd number of its host notes share the slot of the class; and a plan, admitted in whatever order,
makes it the config's pattern exactly when that has just the notes whose slot an odd number of the
edited set's host notes share. -/
theorem board_pattern_iff {slot : Nat → Option Slot} (hslots : Slotted M slot)
    (hdegrees : TwelveDegrees M) (pitches : BridgePitchState M) :
    ((∀ pitchClass < 12, M.contains pitches.boardConfig.pattern (48+pitchClass) =
        containsClass pitches.room (classDegree M pitchClass)) ↔
      ∀ pitchClass < 12, OddlyShared M slot pitches.room (48+pitchClass) ↔
        containsClass pitches.room (classDegree M pitchClass) = true) ∧
    ∀ config : RoundTableConfig M, ∃ plan, pitches.planBoardEdit config = .ok plan ∧
      ∀ order : List (TunedPeriodicPitch × Bool), order.Perm plan.pitchEdits →
        ∀ replica : RoomReplica M, replica.pieces = .empty →
          replica.soundingPitchSet = pitches.room →
            (({ pitches with room := (replica.admitPitchEdits order).soundingPitchSet } :
                BridgePitchState M).roomPattern = config.pattern ↔
              ∀ note < 128, M.contains config.pattern note = true ↔
                OddlyShared M slot (editedSet M slot pitches.room config.pattern) note) := by
  refine ⟨board_shows_iff hslots pitches (classDegree M),fun config => ?_⟩
  · obtain ⟨plan,hplan,-⟩ := planBoardEdit_edits hslots hdegrees pitches config
    refine ⟨plan,hplan,?_⟩
    intro order horder replica hpieces hroom
    have hafter := soundingPitchSet_admitPlan hslots hdegrees hplan horder hpieces hroom
    have hcontains := contains_roomPattern hslots
      ({ pitches with room := (replica.admitPitchEdits order).soundingPitchSet } :
        BridgePitchState M)
    constructor
    · intro hpattern note _
      have hnote := (congrArg (fun pattern => M.contains pattern note) hpattern).symm.trans
        (hcontains note)
      rw [hnote,decide_eq_true_iff,hafter]
    · intro hnotes
      refine hslots.ext _ _ fun note hnote => ?_
      rw [hcontains,Bool.eq_iff_iff,decide_eq_true_iff,hnotes note hnote,hafter]

section Layouts

variable {slot : Nat → Option Slot}

/-- Where each note has a slot of its own, the board shows the set's host notes, and so the classes
whose note from 48 up is one of these. -/
theorem board_of_notes (hslots : Slotted M slot) (hslotted : ∀ note < 128, slot note ≠ none)
    (hown : ∀ note < 128, ∀ other < 128, slot note = slot other → note = other)
    (pitches : BridgePitchState M) :
    (∀ pitchClass < 12, M.contains pitches.boardConfig.pattern (48+pitchClass) =
        containsClass pitches.room (classDegree M pitchClass)) ↔
      ∀ pitchClass < 12, 48+pitchClass ∈ hostNotes M pitches.room ↔
        containsClass pitches.room (classDegree M pitchClass) = true := by
  have halone : ∀ pitchClass < 12, OddlyShared M slot pitches.room (48+pitchClass) ↔
      48+pitchClass ∈ hostNotes M pitches.room := by
    intro pitchClass hclass
    have hnote : 48+pitchClass < 128 := by omega
    have hshared : (hostNotes M pitches.room).filter (fun other => slot other =
        slot (48+pitchClass)) = (hostNotes M pitches.room).filter (· = 48+pitchClass) := by
      refine Finset.filter_congr fun other hother => ?_
      constructor
      · exact hown other (hostNotes_lt hother) (48+pitchClass) hnote
      · intro hsame
        rw [hsame]
    unfold OddlyShared sharers
    rw [hshared,Finset.filter_eq']
    by_cases hplayed : 48+pitchClass ∈ hostNotes M pitches.room
    · simp [hplayed,hslotted (48+pitchClass) hnote]
    · simp [hplayed]
  rw [board_shows_iff hslots pitches (classDegree M)]
  constructor
  · intro h pitchClass hclass
    rw [← halone pitchClass hclass,h pitchClass hclass]
  · intro h pitchClass hclass
    rw [halone pitchClass hclass,h pitchClass hclass]

/-- Where the notes of a class share one slot, the board shows a class when an odd number of host
notes play it. -/
theorem board_of_classes (hslots : Slotted M slot) (hslotted : ∀ note, slot note ≠ none)
    (hclasses : ∀ note other, slot note = slot other ↔ note % 12 = other % 12)
    (pitches : BridgePitchState M) :
    (∀ pitchClass < 12, M.contains pitches.boardConfig.pattern (48+pitchClass) =
        containsClass pitches.room (classDegree M pitchClass)) ↔
      ∀ pitchClass < 12,
        ((hostNotes M pitches.room).filter (· % 12 = pitchClass)).card % 2 = 1 ↔
          containsClass pitches.room (classDegree M pitchClass) = true := by
  have hodd : ∀ pitchClass < 12, OddlyShared M slot pitches.room (48+pitchClass) ↔
      ((hostNotes M pitches.room).filter (· % 12 = pitchClass)).card % 2 = 1 := by
    intro pitchClass hclass
    have hresidue : (48+pitchClass) % 12 = pitchClass := by omega
    simp only [OddlyShared,sharers,hclasses,hresidue,ne_eq,hslotted,not_false_iff,true_and]
  rw [board_shows_iff hslots pitches (classDegree M)]
  constructor
  · intro h pitchClass hclass
    rw [← hodd pitchClass hclass,h pitchClass hclass]
  · intro h pitchClass hclass
    rw [hodd pitchClass hclass,h pitchClass hclass]

def flipSlot {slots : Nat} (pattern : Finset (Fin slots)) (place : Fin slots) :
    Finset (Fin slots) :=
  if place ∈ pattern then pattern.erase place else insert place pattern

theorem mem_flipSlot {slots : Nat} (pattern : Finset (Fin slots)) (place other : Fin slots) :
    decide (other ∈ flipSlot pattern place) =
      (decide (other ∈ pattern) ^^ decide (other = place)) := by
  unfold flipSlot
  by_cases hsame : other = place
  · subst hsame
    by_cases hactive : other ∈ pattern
    · simp [hactive]
    · simp [hactive]
  · by_cases hactive : place ∈ pattern
    · simp [hsame,hactive]
    · simp [hsame,hactive]

/-- Twelve equal steps over a board of so many slots, which the notes take in turn. -/
def layoutMusic (slots : Nat) [NeZero slots] : MusicLibrary where
  twelveTet := 1
  periodicPitchForMidi note := if note < 128 then some (note % 12,note / 12) else none
  roundedMidi pitch := 12*pitch.period+pitch.degree
  Pattern := Finset (Fin slots)
  patternEq := inferInstance
  cleared := ∅
  contains pattern note := Fin.ofNat slots note ∈ pattern
  toggled pattern note := some (flipSlot pattern (Fin.ofNat slots note))
  Settings := Nat
  settingsEq := inferInstance
  defaultSettings := 0
  defaultPattern := ∅

def layoutSlot (slots : Nat) [NeZero slots] (note : Nat) : Option (Fin slots) :=
  some (Fin.ofNat slots note)

def layoutConfig (notes : Finset (Fin 128)) : RoundTableConfig (layoutMusic 128) :=
  ⟨(0 : Nat),notes⟩

variable {slots : Nat} [NeZero slots]

theorem slotted_layoutMusic (hslots : slots ≤ 128) :
    Slotted (layoutMusic slots) (layoutSlot slots) where
  cleared note := by simp [layoutMusic]
  toggled_none pattern note h := by simp [layoutSlot] at h
  toggled_some pattern note _ := by
    refine ⟨_,rfl,fun other => ?_⟩
    have hflip := mem_flipSlot pattern (Fin.ofNat slots note) (Fin.ofNat slots other)
    have hslot : (layoutSlot slots other = layoutSlot slots note) ↔
        (Fin.ofNat slots other = Fin.ofNat slots note) := Option.some_inj
    rw [decide_eq_decide.mpr hslot]
    exact hflip
  ext pattern pattern' h := by
    refine Finset.ext fun place => ?_
    have hplace := h place.val (place.isLt.trans_le hslots)
    simpa [layoutMusic] using hplace

theorem twelveDegrees_layoutMusic : TwelveDegrees (layoutMusic slots) := by
  intro pitchClass hclass
  refine ⟨4,?_⟩
  have hnote : 48+pitchClass < 128 := by omega
  have hdegree : (48+pitchClass) % 12 = pitchClass := by omega
  have hperiod : ((48+pitchClass : Nat) : Int) / 12 = 4 := by omega
  simp [layoutMusic,hnote,hdegree]
  omega

/-- An exact pitch an octave above its class's note, alone and together with the plain class. -/
def exactRoom : SharedPitchSet := ⟨∅,{⟨1,0,5⟩}⟩
def doubledRoom : SharedPitchSet := ⟨{⟨1,0⟩},{⟨1,0,5⟩}⟩

def chordPitches : BridgePitchState (layoutMusic 128) := { room := ⟨{⟨1,0⟩,⟨1,4⟩},∅⟩ }

def chordReplica : RoomReplica (layoutMusic 128) where
  live := {⟨1,0⟩,⟨1,4⟩}
  roundTable := layoutConfig ∅

end Layouts

/-- A board with a slot for each note misses the exact pitch in another octave, and one with a slot
for each class flips it twice. -/
theorem board_misses_class :
    ¬ (∀ pitches : BridgePitchState (layoutMusic 128), ∀ pitchClass < 12,
      (layoutMusic 128).contains pitches.boardConfig.pattern (48+pitchClass) =
        containsClass pitches.room (classDegree (layoutMusic 128) pitchClass)) ∧
    ¬ (∀ pitches : BridgePitchState (layoutMusic 12), ∀ pitchClass < 12,
      (layoutMusic 12).contains pitches.boardConfig.pattern (48+pitchClass) =
        containsClass pitches.room (classDegree (layoutMusic 12) pitchClass)) := by
  constructor
  · intro h
    have hmissed := h { room := exactRoom } 0 (by decide)
    revert hmissed
    decide +kernel
  · intro h
    have hmissed := h { room := doubledRoom } 0 (by decide)
    revert hmissed
    decide +kernel

/-- The board moves the chord's root, and the room admits the two edits from the last. -/
theorem board_pattern_iff_chord :
    ∃ plan, chordPitches.planBoardEdit (layoutConfig {52,55}) = .ok plan ∧
      ({ chordPitches with
        room := (chordReplica.admitPitchEdits plan.pitchEdits.reverse).soundingPitchSet } :
          BridgePitchState (layoutMusic 128)).roomPattern = (layoutConfig {52,55}).pattern := by
  obtain ⟨plan,hplan,hadmits⟩ := (board_pattern_iff (slotted_layoutMusic (by decide))
    twelveDegrees_layoutMusic chordPitches).2 (layoutConfig {52,55})
  refine ⟨plan,hplan,?_⟩
  refine (hadmits _ (List.reverse_perm _) chordReplica rfl (by decide)).mpr ?_
  decide +kernel

end WalkieSongie.Bridge
