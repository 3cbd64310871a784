import Mathlib.Data.List.Perm.Subperm
import Std.Data.ExtTreeMap
set_option autoImplicit false

/-!
Replay windows: the last accepted number of each of a bounded number of keys, the least of which
makes room for a new one.
-/

open Std

abbrev ReplayWindow (κ : Type) [Ord κ] := ExtTreeMap κ Nat

namespace ReplayWindow

variable {κ α : Type} [Ord κ] [TransOrd κ]

def Fresh (key : κ) (number : Nat) (window : ReplayWindow κ) : Prop :=
  ∀ last ∈ window[key]?, last < number

instance (key : κ) (number : Nat) (window : ReplayWindow κ) :
    Decidable (window.Fresh key number) :=
  inferInstanceAs (Decidable (∀ last ∈ window[key]?, last < number))

/-- A full window drops its least key for one that it does not hold. -/
def makeRoom (capacity : Nat) (key : κ) (window : ReplayWindow κ) : ReplayWindow κ :=
  if window.size = capacity ∧ key ∉ window then
    match window.keys.head? with
    | some least => window.erase least
    | none => window
  else window

def remember (capacity : Nat) (key : κ) (number : Nat) (window : ReplayWindow κ) : ReplayWindow κ :=
  (window.makeRoom capacity key).insert key number

theorem makeRoom_drops {capacity : Nat} {key other : κ} {window : ReplayWindow κ}
    (hother : other ∈ window) (h : other ∉ window.makeRoom capacity key) :
    window.size = capacity ∧ key ∉ window := by
  unfold makeRoom at h
  split at h
  next hfull => exact hfull
  next => exact absurd hother h

theorem getElem?_makeRoom {capacity : Nat} {key other : κ} {window : ReplayWindow κ}
    (h : other ∈ window.makeRoom capacity key) :
    (window.makeRoom capacity key)[other]? = window[other]? := by
  unfold makeRoom at h ⊢
  split
  next hfull =>
    rw [if_pos hfull] at h
    cases hleast : window.keys.head? with
    | none => rfl
    | some least =>
      simp only [hleast,ExtTreeMap.mem_erase] at h
      simp only [ExtTreeMap.getElem?_erase]
      rw [if_neg h.1]
  next => rfl

variable [LawfulEqOrd κ]

theorem getElem?_remember_self (capacity : Nat) (key : κ) (number : Nat) (window : ReplayWindow κ) :
    (window.remember capacity key number)[key]? = some number := by
  simp [remember]

theorem getElem?_remember {capacity : Nat} {key other : κ} {number : Nat} {window : ReplayWindow κ}
    (hne : other ≠ key) (h : other ∈ window.remember capacity key number) :
    (window.remember capacity key number)[other]? = window[other]? := by
  have hcompare : compare key other ≠ .eq := fun heq => hne (LawfulEqOrd.eq_of_compare heq).symm
  simp only [remember,ExtTreeMap.mem_insert] at h
  have hroom := h.resolve_left hcompare
  rw [remember,ExtTreeMap.getElem?_insert,if_neg hcompare,getElem?_makeRoom hroom]

theorem remember_drops {capacity : Nat} {key other : κ} {number : Nat} {window : ReplayWindow κ}
    (hother : other ∈ window) (h : other ∉ window.remember capacity key number) :
    other ≠ key ∧ window.size = capacity ∧ key ∉ window := by
  simp only [remember,ExtTreeMap.mem_insert,not_or] at h
  refine ⟨?_,makeRoom_drops hother h.2⟩
  rintro rfl
  exact h.1 ReflOrd.compare_self

omit [Ord κ] [TransOrd κ] [LawfulEqOrd κ] in
theorem pairwise_of_each [DecidableEq κ] {key : α → κ} {R : α → α → Prop} {items : List α}
    (h : ∀ kept, (items.filter fun item => key item = kept).Pairwise R) :
    items.Pairwise fun earlier later => key earlier = key later → R earlier later := by
  induction items with
  | nil => exact .nil
  | cons item items ih =>
    refine List.pairwise_cons.mpr ⟨fun later hlater hkey => ?_,ih fun kept => ?_⟩
    · have hown := h (key item)
      simp only [List.filter_cons,decide_true,if_true,List.pairwise_cons,List.mem_filter,
        decide_eq_true_eq] at hown
      exact hown.1 later ⟨hlater,hkey.symm⟩
    · exact (h kept).sublist ((List.sublist_cons_self item items).filter _)

section Run

variable (capacity : Nat) (key : α → κ) (number : α → Nat)

def next (window : ReplayWindow κ) (item : α) : ReplayWindow κ :=
  if window.Fresh (key item) (number item) then window.remember capacity (key item) (number item)
  else window

def accepted : ReplayWindow κ → List α → List α
  | _, [] => []
  | window, item :: items =>
    let rest := accepted (window.next capacity key number item) items
    if window.Fresh (key item) (number item) then item :: rest else rest

def Keeps (kept : κ) : ReplayWindow κ → List α → Prop
  | _, [] => True
  | window, item :: items => (kept ∈ window → kept ∈ window.next capacity key number item) ∧
      Keeps kept (window.next capacity key number item) items

variable {capacity : Nat} {key : α → κ} {number : α → Nat} {window : ReplayWindow κ}
  {item : α} {items : List α} {kept : κ}

omit [LawfulEqOrd κ] in
theorem accepted_sublist : (window.accepted capacity key number items).Sublist items := by
  induction items generalizing window with
  | nil => exact .slnil
  | cons item items ih =>
    simp only [accepted]
    split
    · exact ih.cons_cons item
    · exact ih.cons item

theorem fresh_of_next [DecidableEq κ] {above : Nat}
    (hkeeps : kept ∈ window → kept ∈ window.next capacity key number item)
    (h : (window.next capacity key number item).Fresh kept above) :
    window.Fresh kept above ∧
      (window.Fresh (key item) (number item) → key item = kept → number item < above) := by
  by_cases hfresh : window.Fresh (key item) (number item)
  · simp only [next,if_pos hfresh] at hkeeps h
    by_cases hkey : key item = kept
    · subst hkey
      have habove : number item < above := h _ (getElem?_remember_self _ _ _ _)
      exact ⟨fun last hlast => Nat.lt_trans (hfresh last hlast) habove,fun _ _ => habove⟩
    · refine ⟨?_,fun _ hsame => absurd hsame hkey⟩
      intro last hlast
      have hheld : kept ∈ window := by
        rw [ExtTreeMap.mem_iff_isSome_getElem?,Option.isSome_iff_exists]
        exact ⟨last,hlast⟩
      have hsame := getElem?_remember (Ne.symm hkey) (hkeeps hheld)
      exact h last (hsame ▸ hlast)
  · simp only [next,if_neg hfresh] at h
    exact ⟨h,fun hnot => absurd hnot hfresh⟩

theorem accepted_increasing [DecidableEq κ] (hkeeps : Keeps capacity key number kept window items) :
    ((window.accepted capacity key number items).filter fun item => key item = kept).Pairwise
        (fun earlier later => number earlier < number later) ∧
      ∀ later ∈ window.accepted capacity key number items, key later = kept →
        window.Fresh kept (number later) := by
  induction items generalizing window with
  | nil => simp [accepted]
  | cons item items ih =>
    obtain ⟨hstep,hrest⟩ := hkeeps
    obtain ⟨hpairwise,habove⟩ := ih hrest
    have hlater :
        ∀ later ∈ (window.next capacity key number item).accepted capacity key number items,
        key later = kept → window.Fresh kept (number later) ∧
          (window.Fresh (key item) (number item) → key item = kept → number item < number later) :=
      fun later hmem hkey => fresh_of_next hstep (habove later hmem hkey)
    by_cases hfresh : window.Fresh (key item) (number item)
    · simp only [accepted,if_pos hfresh,List.filter_cons,List.forall_mem_cons]
      refine ⟨?_,fun hkey => hkey ▸ hfresh,fun later hmem hkey => (hlater later hmem hkey).1⟩
      by_cases hkey : key item = kept
      · simp only [hkey,decide_true,if_true,List.pairwise_cons,List.mem_filter,decide_eq_true_eq]
        exact ⟨fun later hmem => (hlater later hmem.1 hmem.2).2 hfresh hkey,hpairwise⟩
      · simpa only [hkey,decide_false,Bool.false_eq_true,if_false] using hpairwise
    · simp only [accepted,if_neg hfresh]
      exact ⟨hpairwise,fun later hmem hkey => (hlater later hmem hkey).1⟩

theorem mem_next (h : kept ∈ window.next capacity key number item) :
    kept ∈ window ∨ kept = key item := by
  unfold next at h
  split at h
  next =>
    simp only [remember,ExtTreeMap.mem_insert] at h
    rcases h with hsame | hroom
    · exact .inr (LawfulEqOrd.eq_of_compare hsame).symm
    · unfold makeRoom at hroom
      split at hroom
      next =>
        split at hroom
        next => exact .inl (ExtTreeMap.mem_of_mem_erase hroom)
        next => exact .inl hroom
      next => exact .inl hroom
  next => exact .inl h

theorem keeps_of_few [DecidableEq κ] {known : List κ} (hfew : known.length ≤ capacity)
    (hwindow : ∀ held ∈ window, held ∈ known) (hitems : ∀ item ∈ items, key item ∈ known) :
    Keeps capacity key number kept window items := by
  induction items generalizing window with
  | nil => trivial
  | cons item items ih =>
    have hitem := hitems item List.mem_cons_self
    refine ⟨fun hkept => ?_,ih ?_ fun later hlater => hitems later (List.mem_cons_of_mem _ hlater)⟩
    · by_contra hdropped
      unfold next at hdropped
      split at hdropped
      next =>
        obtain ⟨_,hfull,hnew⟩ := remember_drops hkept hdropped
        -- The full window's keys and the new one are more keys than are known.
        have hnodup : (key item :: window.keys).Nodup :=
          List.nodup_cons.mpr ⟨fun hmem => hnew (ExtTreeMap.mem_keys.mp hmem),ExtTreeMap.nodup_keys⟩
        have hsubset : key item :: window.keys ⊆ known := by
          intro held hheld
          rcases List.mem_cons.mp hheld with rfl | hheld
          · exact hitem
          · exact hwindow held (ExtTreeMap.mem_keys.mp hheld)
        have hlength := (List.subperm_of_subset hnodup hsubset).length_le
        rw [List.length_cons,ExtTreeMap.length_keys] at hlength
        omega
      next => exact hdropped hkept
    · intro held hheld
      rcases mem_next hheld with hheld | rfl
      · exact hwindow held hheld
      · exact hitem

theorem accepted_ordered_of_few [DecidableEq κ] {known : List κ} (hfew : known.length ≤ capacity)
    (hwindow : ∀ held ∈ window, held ∈ known) (hitems : ∀ item ∈ items, key item ∈ known) :
    (window.accepted capacity key number items).Pairwise
      fun earlier later => key earlier = key later → number earlier < number later :=
  pairwise_of_each fun _ => (accepted_increasing (keeps_of_few hfew hwindow hitems)).1

theorem next_drops (hkept : kept ∈ window) (h : kept ∉ window.next capacity key number item) :
    kept ≠ key item ∧ window.size = capacity ∧ key item ∉ window := by
  unfold next at h
  split at h
  next => exact remember_drops hkept h
  next => exact absurd hkept h

end Run

end ReplayWindow
