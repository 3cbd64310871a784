import Mathlib.Data.List.Sort
set_option autoImplicit false

/-!
Tables as lists of rows: the first row that meets a predicate is replaced, new rows go to their
place, and the difference of two tables, applied to the first, gives the second.
-/

namespace SortedRows

variable {Row Key : Type}

def replaceFirst (meets : Row → Bool) (row : Row) : List Row → List Row
  | [] => []
  | first :: rows =>
    if meets first then row :: rows else first :: replaceFirst meets row rows

theorem perm_replaceFirst {meets : Row → Bool} {found : Row} (row : Row) {rows : List Row}
    (h : rows.find? meets = some found) :
    ∃ rest, rows.Perm (found :: rest) ∧ (replaceFirst meets row rows).Perm (row :: rest) := by
  induction rows with
  | nil => cases h
  | cons first rows ih =>
    by_cases hmeets : meets first = true
    · simp only [List.find?_cons,hmeets,Option.some.injEq] at h
      subst found
      exact ⟨rows,.refl _,by simp [replaceFirst,hmeets]⟩
    · simp only [List.find?_cons,hmeets] at h
      obtain ⟨rest,hrows,hreplaced⟩ := ih h
      refine ⟨first :: rest,(hrows.cons first).trans (.swap found first rest),?_⟩
      simpa [replaceFirst,hmeets] using (hreplaced.cons first).trans (.swap row first rest)

theorem map_replaceFirst (key : Row → Key) {meets : Row → Bool} {row : Row}
    (h : ∀ other, meets other = true → key other = key row) (rows : List Row) :
    (replaceFirst meets row rows).map key = rows.map key := by
  induction rows with
  | nil => rfl
  | cons first rows ih =>
    unfold replaceFirst
    split
    · rename_i hmeets
      simp [h first hmeets]
    · simp [ih]

section Keyed

variable [LinearOrder Key] (key : Row → Key)

/-- A row takes the place of the first one of its key, or comes in by the order of the keys. -/
def upsert (row : Row) (rows : List Row) : List Row :=
  if rows.any fun other => key other = key row then
    replaceFirst (fun other => key other = key row) row rows
  else (rows ++ [row]).insertionSort fun first second => key first ≤ key second

def remove (gone : Key) (rows : List Row) : List Row := rows.filter fun row => key row ≠ gone

def upsertAll (upserted rows : List Row) : List Row :=
  upserted.foldl (fun rows row => upsert key row rows) rows

def removeAll (removed : List Key) (rows : List Row) : List Row :=
  removed.foldl (fun rows gone => remove key gone rows) rows

def Sorted (rows : List Row) : Prop := rows.Pairwise fun first second => key first < key second

variable {key} {rows target : List Row}

theorem Sorted.unique (h : Sorted key rows) {first second : Row} (hfirst : first ∈ rows)
    (hsecond : second ∈ rows) (hkey : key first = key second) : first = second := by
  induction rows with
  | nil => cases hfirst
  | cons head rows ih =>
    obtain ⟨hhead,hrows⟩ := List.pairwise_cons.mp h
    cases List.mem_cons.mp hfirst with
    | inl hf =>
      cases List.mem_cons.mp hsecond with
      | inl hs => rw [hf,hs]
      | inr hs =>
        have hlt := hhead second hs
        rw [← hf,hkey] at hlt
        exact absurd hlt (lt_irrefl _)
    | inr hf =>
      cases List.mem_cons.mp hsecond with
      | inl hs =>
        have hlt := hhead first hf
        rw [← hs,hkey] at hlt
        exact absurd hlt (lt_irrefl _)
      | inr hs => exact ih hrows hf hs

theorem Sorted.nodup (h : Sorted key rows) : rows.Nodup :=
  h.imp fun hlt heq => by
    rw [heq] at hlt
    exact lt_irrefl _ hlt

theorem Sorted.find_eq_some (h : Sorted key rows) {row : Row} {wanted : Key} :
    rows.find? (fun other => key other = wanted) = some row ↔ row ∈ rows ∧ key row = wanted := by
  constructor
  · intro hfound
    exact ⟨List.mem_of_find?_eq_some hfound,by simpa using List.find?_some hfound⟩
  · rintro ⟨hmem,rfl⟩
    cases hfound : rows.find? fun other => key other = key row with
    | none =>
      have hnone := List.find?_eq_none.mp hfound row hmem
      simp at hnone
    | some other =>
      have hkey : key other = key row := by simpa using List.find?_some hfound
      rw [h.unique (List.mem_of_find?_eq_some hfound) hmem hkey]

theorem Sorted.ext (h : Sorted key rows) (htarget : Sorted key target)
    (hmem : ∀ row, row ∈ rows ↔ row ∈ target) : rows = target := by
  have hperm := (List.perm_ext_iff_of_nodup h.nodup htarget.nodup).mpr hmem
  exact hperm.eq_of_pairwise (fun first second _ _ hlt hgt => absurd hlt (lt_asymm hgt)) h htarget

theorem Sorted.remove (h : Sorted key rows) (gone : Key) : Sorted key (remove key gone rows) :=
  h.sublist List.filter_sublist

theorem mem_remove {gone : Key} {row : Row} :
    row ∈ remove key gone rows ↔ row ∈ rows ∧ key row ≠ gone := by
  simp [remove]

theorem Sorted.replaceFirst (h : Sorted key rows) (row : Row) :
    Sorted key (replaceFirst (fun other => key other = key row) row rows) := by
  have hmeets : ∀ other, decide (key other = key row) = true → key other = key row := by simp
  have hkeys := map_replaceFirst key hmeets rows
  have hmapped : (rows.map key).Pairwise (· < ·) := List.pairwise_map.mpr h
  rw [← hkeys] at hmapped
  exact List.pairwise_map.mp hmapped

theorem Sorted.upsert (h : Sorted key rows) (row : Row) : Sorted key (upsert key row rows) := by
  unfold SortedRows.upsert
  split
  · exact h.replaceFirst row
  · rename_i hnone
    have hother : ∀ other ∈ rows, key other ≠ key row := by simpa using hnone
    have hsorted := List.pairwise_insertionSort
      (r := fun first second => key first ≤ key second) (rows ++ [row])
    have hperm := List.perm_insertionSort (fun first second => key first ≤ key second)
      (rows ++ [row])
    have hdistinct : (rows ++ [row]).Pairwise fun first second => key first ≠ key second := by
      refine List.pairwise_append.mpr ⟨h.imp ne_of_lt,List.pairwise_singleton _ _,?_⟩
      intro other hmem last hlast
      obtain rfl := List.mem_singleton.mp hlast
      exact hother other hmem
    have hsortedDistinct := (hperm.pairwise_iff fun hne => hne.symm).mpr hdistinct
    exact hsorted.and hsortedDistinct |>.imp fun hboth => lt_of_le_of_ne hboth.1 hboth.2

theorem Sorted.mem_upsert (h : Sorted key rows) {row other : Row} :
    other ∈ SortedRows.upsert key row rows ↔ other = row ∨ other ∈ rows ∧ key other ≠ key row := by
  unfold SortedRows.upsert
  split
  · rename_i hsome
    obtain ⟨found,hfound,hkey⟩ : ∃ found ∈ rows, key found = key row := by simpa using hsome
    have hfind := h.find_eq_some.mpr ⟨hfound,hkey⟩
    obtain ⟨rest,hrows,hreplaced⟩ := perm_replaceFirst row hfind
    have hnodup := hrows.nodup_iff.mp h.nodup
    rw [hreplaced.mem_iff,hrows.mem_iff,List.mem_cons,List.mem_cons]
    constructor
    · rintro (rfl | hrest)
      · exact .inl rfl
      · refine .inr ⟨.inr hrest,fun hsame => ?_⟩
        have hother : other ∈ rows := hrows.mem_iff.mpr (List.mem_cons_of_mem _ hrest)
        rw [h.unique hother hfound (hsame.trans hkey.symm)] at hrest
        exact (List.nodup_cons.mp hnodup).1 hrest
    · rintro (rfl | ⟨rfl | hrest,hne⟩)
      · exact .inl rfl
      · exact absurd hkey hne
      · exact .inr hrest
  · rename_i hnone
    have hother : ∀ other ∈ rows, key other ≠ key row := by simpa using hnone
    rw [List.mem_insertionSort]
    simp only [List.mem_append,List.mem_singleton]
    constructor
    · rintro (hmem | rfl)
      · exact .inr ⟨hmem,hother other hmem⟩
      · exact .inl rfl
    · rintro (rfl | ⟨hmem,-⟩)
      · exact .inr rfl
      · exact .inl hmem

theorem Sorted.removeAll (h : Sorted key rows) (removed : List Key) :
    Sorted key (SortedRows.removeAll key removed rows) := by
  induction removed generalizing rows with
  | nil => exact h
  | cons gone removed ih => exact ih (h.remove gone)

theorem mem_removeAll {removed : List Key} {row : Row} :
    row ∈ SortedRows.removeAll key removed rows ↔ row ∈ rows ∧ key row ∉ removed := by
  induction removed generalizing rows with
  | nil => simp [SortedRows.removeAll]
  | cons gone removed ih =>
    have hfold := @ih (SortedRows.remove key gone rows)
    simp only [SortedRows.removeAll,List.foldl_cons] at hfold ⊢
    rw [hfold,mem_remove]
    simp [and_assoc]

theorem Sorted.upsertAll (h : Sorted key rows) (upserted : List Row) :
    Sorted key (SortedRows.upsertAll key upserted rows) := by
  induction upserted generalizing rows with
  | nil => exact h
  | cons row upserted ih => exact ih (h.upsert row)

theorem Sorted.mem_upsertAll (h : Sorted key rows) {upserted : List Row}
    (hupserted : Sorted key upserted) {other : Row} :
    other ∈ SortedRows.upsertAll key upserted rows ↔
      other ∈ upserted ∨ other ∈ rows ∧ ∀ row ∈ upserted, key other ≠ key row := by
  induction upserted generalizing rows with
  | nil => simp [SortedRows.upsertAll]
  | cons row upserted ih =>
    obtain ⟨hhead,hrest⟩ := List.pairwise_cons.mp hupserted
    have hfold := ih (h.upsert row) hrest
    simp only [SortedRows.upsertAll,List.foldl_cons] at hfold ⊢
    rw [hfold,h.mem_upsert]
    have hfresh : ∀ later ∈ upserted, key row ≠ key later := fun later hlater =>
      ne_of_lt (hhead later hlater)
    constructor
    · rintro (hlater | ⟨rfl | ⟨hmem,hne⟩,hall⟩)
      · exact .inl (List.mem_cons_of_mem _ hlater)
      · exact .inl List.mem_cons_self
      · exact .inr ⟨hmem,by simpa [hne] using hall⟩
    · rintro (hupsert | ⟨hmem,hall⟩)
      · cases List.mem_cons.mp hupsert with
        | inl hsame => exact .inr ⟨.inl hsame,hsame ▸ hfresh⟩
        | inr hlater => exact .inl hlater
      · refine .inr ⟨.inr ⟨hmem,hall row List.mem_cons_self⟩,fun later hlater => ?_⟩
        exact hall later (List.mem_cons_of_mem _ hlater)

/-- The rows that are gone taken out and the new or changed ones put in, the target is reached. -/
theorem Sorted.difference (h : Sorted key rows) (htarget : Sorted key target)
    [DecidableEq Row] :
    SortedRows.upsertAll key
        (target.filter fun row => rows.find? (fun old => key old = key row) ≠ some row)
        (SortedRows.removeAll key ((rows.filter fun row =>
          !target.any fun other => key other = key row).map key) rows) = target := by
  have hremoved := h.removeAll ((rows.filter fun row =>
    !target.any fun other => key other = key row).map key)
  have hupserted : Sorted key
      (target.filter fun row => rows.find? (fun old => key old = key row) ≠ some row) :=
    htarget.sublist List.filter_sublist
  refine (hremoved.upsertAll _).ext htarget fun row => ?_
  rw [hremoved.mem_upsertAll hupserted,mem_removeAll]
  have hkept : ∀ row, (rows.find? (fun old => key old = key row) = some row) ↔ row ∈ rows := by
    intro row
    rw [h.find_eq_some]
    simp
  simp only [List.mem_filter,decide_eq_true_eq,ne_eq,hkept,List.mem_map,Bool.not_eq_true',
    List.any_eq_false,not_exists,not_and]
  constructor
  · rintro (⟨hmem,-⟩ | ⟨⟨hmem,hshown⟩,hsame⟩)
    · exact hmem
    · by_contra hgone
      obtain ⟨other,hother,hkey⟩ : ∃ other ∈ target, key other = key row := by
        by_contra hnone
        push Not at hnone
        exact hshown row ⟨hmem,fun other hother => by simpa using hnone other hother⟩ rfl
      by_cases hold : other ∈ rows
      · exact hgone (h.unique hold hmem hkey ▸ hother)
      · exact hsame other ⟨hother,hold⟩ hkey.symm
  · intro hmem
    by_cases hold : row ∈ rows
    · refine .inr ⟨⟨hold,fun other hother hkey => ?_⟩,fun other hother hkey => ?_⟩
      · have hne : ¬ key row = key other := by simpa using hother.2 row hmem
        exact hne hkey.symm
      · exact hother.2 (htarget.unique hother.1 hmem hkey.symm ▸ hold)
    · exact .inl ⟨hmem,hold⟩

end Keyed

end SortedRows
