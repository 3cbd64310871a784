import Mathlib.Data.List.Basic
set_option autoImplicit false

/-!
Histories that turn to a value: they show another one, and that one after it.
-/

variable {Value : Type}

def TurnsTo (value : Value) (history : List Value) : Prop :=
  ∃ other, other ≠ value ∧ [other,value].Sublist history

namespace TurnsTo

variable {value : Value} {history longer : List Value}

theorem mono (h : TurnsTo value history) (hsub : history.Sublist longer) :
    TurnsTo value longer := by
  obtain ⟨other,hne,hpair⟩ := h
  exact ⟨other,hne,hpair.trans hsub⟩

theorem mem (h : TurnsTo value history) : value ∈ history := by
  obtain ⟨other,_,hpair⟩ := h
  exact hpair.subset (by simp)

theorem append_value {other : Value} (hne : other ≠ value) (hmem : other ∈ history) :
    TurnsTo value (history ++ [value]) :=
  ⟨other,hne,(List.singleton_sublist.mpr hmem).append_right [value]⟩

theorem turn {added : Value} (h : TurnsTo value history) (hne : value ≠ added) :
    TurnsTo added (history ++ [added]) :=
  append_value hne h.mem

theorem tail {first next : Value} {rest : List Value} (h : TurnsTo value (first :: next :: rest))
    (hnext : next ≠ value) : TurnsTo value (next :: rest) := by
  obtain ⟨other,hne,hpair⟩ := h
  have hvalue : value ∈ next :: rest := by
    cases hpair with
    | cons _ hpair => exact hpair.subset (by simp)
    | cons_cons _ hsingle => exact List.singleton_sublist.mp hsingle
  have hrest : value ∈ rest := by simpa [hnext.symm] using hvalue
  exact ⟨next,hnext,(List.singleton_sublist.mpr hrest).cons_cons next⟩

theorem not_singleton (first : Value) : ¬ TurnsTo value [first] := by
  intro h
  obtain ⟨other,_,hpair⟩ := h
  have hlength := hpair.length_le
  simp at hlength

theorem dedup {before after : List Value} {repeated : Value}
    (h : TurnsTo value (before ++ repeated :: repeated :: after)) :
    TurnsTo value (before ++ repeated :: after) := by
  obtain ⟨other,hne,hpair⟩ := h
  refine ⟨other,hne,?_⟩
  induction before with
  | nil =>
    cases hpair with
    | cons _ hpair => exact hpair
    | cons_cons _ hsingle =>
      have hvalue : value ∈ after := by
        simpa [hne.symm] using List.singleton_sublist.mp hsingle
      exact (List.singleton_sublist.mpr hvalue).cons_cons _
  | cons head before ih =>
    cases hpair with
    | cons _ hpair => exact (ih hpair).cons head
    | cons_cons _ hsingle =>
      have hvalue : value ∈ before ++ repeated :: after := by
        simpa using List.singleton_sublist.mp hsingle
      exact (List.singleton_sublist.mpr hvalue).cons_cons _

end TurnsTo
