import Mathlib.Logic.ExistsUnique
set_option autoImplicit false

/-! Items that lie in exactly one of several places, and the moves that keep them so. -/

namespace WalkieSongie.OnePlace

variable {Item Place : Type}

/-- Every known item lies in exactly one place, and what lies anywhere is known. -/
structure Sorted (known : Item → Prop) (lies : Place → Item → Prop) : Prop where
  somewhere : ∀ item, known item → ∃ place, lies place item
  once : ∀ first second item, lies first item → lies second item → first = second
  known : ∀ place item, lies place item → known item

variable {known known' : Item → Prop} {lies lies' : Place → Item → Prop}

theorem Sorted.exactly (h : Sorted known lies) {item : Item} (hknown : known item) :
    ∃! place, lies place item := by
  obtain ⟨place,hplace⟩ := h.somewhere item hknown
  exact ⟨place,hplace,fun other hother => h.once other place item hother hplace⟩

theorem Sorted.congr (h : Sorted known lies) (hknown : ∀ item, known' item ↔ known item)
    (hlies : ∀ place item, lies' place item ↔ lies place item) : Sorted known' lies' where
  somewhere item hitem := by
    obtain ⟨place,hplace⟩ := h.somewhere item ((hknown item).mp hitem)
    exact ⟨place,(hlies place item).mpr hplace⟩
  once first second item hfirst hsecond :=
    h.once first second item ((hlies first item).mp hfirst) ((hlies second item).mp hsecond)
  known place item hplace := (hknown item).mpr (h.known place item ((hlies place item).mp hplace))

theorem Sorted.forgets (h : Sorted known lies) (gone : Item → Prop)
    (hknown : ∀ item, known' item ↔ known item ∧ ¬ gone item)
    (hlies : ∀ place item, lies' place item ↔ lies place item ∧ ¬ gone item) :
    Sorted known' lies' where
  somewhere item hitem := by
    obtain ⟨hold,hstays⟩ := (hknown item).mp hitem
    obtain ⟨place,hplace⟩ := h.somewhere item hold
    exact ⟨place,(hlies place item).mpr ⟨hplace,hstays⟩⟩
  once first second item hfirst hsecond :=
    h.once first second item ((hlies first item).mp hfirst).1 ((hlies second item).mp hsecond).1
  known place item hplace := by
    obtain ⟨hold,hstays⟩ := (hlies place item).mp hplace
    exact (hknown item).mpr ⟨h.known place item hold,hstays⟩

theorem Sorted.adds (h : Sorted known lies) (new : Item) (target : Place) (hnew : ¬ known new)
    (hknown : ∀ item, known' item ↔ known item ∨ item = new)
    (hlies : ∀ place item, lies' place item ↔ lies place item ∨ place = target ∧ item = new) :
    Sorted known' lies' where
  somewhere item hitem := by
    cases (hknown item).mp hitem with
    | inl hold =>
      obtain ⟨place,hplace⟩ := h.somewhere item hold
      exact ⟨place,(hlies place item).mpr (.inl hplace)⟩
    | inr hsame => exact ⟨target,(hlies target item).mpr (.inr ⟨rfl,hsame⟩)⟩
  once first second item hfirst hsecond := by
    have habsent : ∀ place, lies place item → item ≠ new := by
      rintro place hplace rfl
      exact hnew (h.known place item hplace)
    cases (hlies first item).mp hfirst with
    | inl hold =>
      cases (hlies second item).mp hsecond with
      | inl hold' => exact h.once first second item hold hold'
      | inr hadded => exact absurd hadded.2 (habsent first hold)
    | inr hadded =>
      cases (hlies second item).mp hsecond with
      | inl hold => exact absurd hadded.2 (habsent second hold)
      | inr hadded' => exact hadded.1.trans hadded'.1.symm
  known place item hplace := by
    cases (hlies place item).mp hplace with
    | inl hold => exact (hknown item).mpr (.inl (h.known place item hold))
    | inr hadded => exact (hknown item).mpr (.inr hadded.2)

theorem Sorted.moves (h : Sorted known lies) {moved : Item} (target : Place)
    (hmoved : known moved) (hknown : ∀ item, known' item ↔ known item)
    (hlies : ∀ place item, lies' place item ↔
      lies place item ∧ item ≠ moved ∨ place = target ∧ item = moved) :
    Sorted known' lies' := by
  have htaken : Sorted (fun item => known item ∧ item ≠ moved)
      fun place item => lies place item ∧ item ≠ moved :=
    h.forgets (fun item => item = moved) (fun _ => Iff.rfl) fun _ _ => Iff.rfl
  refine htaken.adds moved target (fun hagain => hagain.2 rfl) (fun item => ?_) hlies
  rw [hknown]
  constructor
  · intro hold
    by_cases hsame : item = moved
    · exact .inr hsame
    · exact .inl ⟨hold,hsame⟩
  · rintro (⟨hold,-⟩ | rfl)
    · exact hold
    · exact hmoved

end WalkieSongie.OnePlace
