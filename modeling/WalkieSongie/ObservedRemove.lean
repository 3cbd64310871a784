import Mathlib.Data.Set.Insert
import Mathlib.Data.List.Induction
set_option autoImplicit false

/-!
Observed-remove sets over a base: an element is added under a tag, and a remove takes away the
base element and the adds it has observed. Any delivery that respects observation leaves the
same set.
-/

namespace ObservedRemove

variable {Tag Elem : Type}

inductive Update (Tag Elem : Type) where
  | add (tag : Tag) (elem : Elem)
  | remove (elem : Elem) (observed : Set Tag)

/-- The removes that took effect on the base, and the adds still standing. -/
@[ext]
structure Replica (Tag Elem : Type) where
  removedBase : Set Elem
  adds : Set (Tag × Elem)

def Replica.empty : Replica Tag Elem := ⟨∅,∅⟩

def Replica.apply (replica : Replica Tag Elem) : Update Tag Elem → Replica Tag Elem
  | .add tag elem => { replica with adds := insert (tag,elem) replica.adds }
  | .remove elem observed => {
      removedBase := insert elem replica.removedBase
      adds := { add ∈ replica.adds | add.2 = elem → add.1 ∉ observed } }

def Replica.run (updates : List (Update Tag Elem)) : Replica Tag Elem :=
  updates.foldl Replica.apply Replica.empty

def Replica.visible (base : Set Elem) (replica : Replica Tag Elem) : Set Elem :=
  { elem | (elem ∈ base ∧ elem ∉ replica.removedBase) ∨ ∃ tag, (tag,elem) ∈ replica.adds }

/-- The first update is a remove that takes the second one, an add, away. -/
def Update.Observes : Update Tag Elem → Update Tag Elem → Prop
  | .remove elem observed, .add tag added => added = elem ∧ tag ∈ observed
  | _, _ => False

/-- No update comes before one that it observed. -/
def Causal (updates : List (Update Tag Elem)) : Prop :=
  updates.Pairwise fun earlier later => ¬ earlier.Observes later

/-- In the base and never removed, or added and not observed by any remove. -/
def Present (base : Set Elem) (updates : List (Update Tag Elem)) (elem : Elem) : Prop :=
  (elem ∈ base ∧ ∀ observed, Update.remove elem observed ∉ updates) ∨
    ∃ tag, Update.add tag elem ∈ updates ∧
      ∀ observed, Update.remove elem observed ∈ updates → tag ∉ observed

@[simp]
theorem Replica.run_append (updates : List (Update Tag Elem)) (update : Update Tag Elem) :
    Replica.run (updates ++ [update]) = (Replica.run updates).apply update := by
  simp [Replica.run]

theorem Replica.mem_removedBase_run (updates : List (Update Tag Elem)) (elem : Elem) :
    elem ∈ (Replica.run updates).removedBase ↔
      ∃ observed, Update.remove elem observed ∈ updates := by
  induction updates using List.reverseRecOn with
  | nil => simp [Replica.run,Replica.empty]
  | append_singleton updates update ih =>
    cases update with
    | add tag added => simp [Replica.apply,ih]
    | remove removed observed =>
      simp only [Replica.run_append,Replica.apply,Set.mem_insert_iff,ih,List.mem_append,
        List.mem_singleton,Update.remove.injEq]
      constructor
      · rintro (rfl | ⟨found,hfound⟩)
        · exact ⟨observed,.inr ⟨rfl,rfl⟩⟩
        · exact ⟨found,.inl hfound⟩
      · rintro ⟨found,hfound | ⟨rfl,-⟩⟩
        · exact .inr ⟨found,hfound⟩
        · exact .inl rfl

theorem Replica.mem_adds_run {updates : List (Update Tag Elem)} (hcausal : Causal updates)
    (tag : Tag) (elem : Elem) :
    (tag,elem) ∈ (Replica.run updates).adds ↔ Update.add tag elem ∈ updates ∧
      ∀ observed, Update.remove elem observed ∈ updates → tag ∉ observed := by
  induction updates using List.reverseRecOn with
  | nil => simp [Replica.run,Replica.empty]
  | append_singleton updates update ih =>
    obtain ⟨hbefore,-,hlast⟩ := List.pairwise_append.mp hcausal
    have ih := ih hbefore
    cases update with
    | add added other =>
      have hunseen : ∀ observed, Update.remove other observed ∈ updates → added ∉ observed :=
        fun observed hremove hseen => hlast _ hremove _ (List.mem_singleton.mpr rfl) ⟨rfl,hseen⟩
      simp only [Replica.run_append,Replica.apply,Set.mem_insert_iff,Prod.mk.injEq,ih,
        List.mem_append,List.mem_singleton,Update.add.injEq,reduceCtorEq,or_false]
      constructor
      · rintro (⟨rfl,rfl⟩ | ⟨hadd,hremoves⟩)
        · exact ⟨.inr ⟨rfl,rfl⟩,hunseen⟩
        · exact ⟨.inl hadd,hremoves⟩
      · rintro ⟨hadd | hsame,hremoves⟩
        · exact .inr ⟨hadd,hremoves⟩
        · exact .inl hsame
    | remove removed observed =>
      simp only [Replica.run_append,Replica.apply,Set.mem_ofPred_eq,ih,List.mem_append,
        List.mem_singleton,reduceCtorEq,or_false,Update.remove.injEq]
      constructor
      · rintro ⟨⟨hadd,hremoves⟩,hremoved⟩
        refine ⟨hadd,fun found hfound => ?_⟩
        rcases hfound with hfound | ⟨hsame,rfl⟩
        · exact hremoves found hfound
        · exact hremoved hsame
      · rintro ⟨hadd,hremoves⟩
        exact ⟨⟨hadd,fun found hfound => hremoves found (.inl hfound)⟩,
          fun hsame => hremoves observed (.inr ⟨hsame,rfl⟩)⟩

theorem Replica.add_of_mem_run {updates : List (Update Tag Elem)} {tag : Tag} {elem : Elem}
    (h : (tag,elem) ∈ (Replica.run updates).adds) : Update.add tag elem ∈ updates := by
  induction updates using List.reverseRecOn with
  | nil => cases h
  | append_singleton updates update ih =>
    rw [Replica.run_append] at h
    cases update with
    | add added other =>
      rcases Set.mem_insert_iff.mp h with hsame | hbefore
      · cases hsame
        simp
      · exact List.mem_append_left _ (ih hbefore)
    | remove removed observed => exact List.mem_append_left _ (ih h.1)

theorem Replica.mem_visible_run (base : Set Elem) {updates : List (Update Tag Elem)}
    (hcausal : Causal updates) (elem : Elem) :
    elem ∈ (Replica.run updates).visible base ↔ Present base updates elem := by
  simp only [Replica.visible,Set.mem_ofPred_eq,Replica.mem_removedBase_run,
    Replica.mem_adds_run hcausal,Present,not_exists]

end ObservedRemove
