import Mathlib.Order.WellFoundedSet
import Mathlib.Data.Finset.Max
set_option autoImplicit false

/-!
Last-writer registers over a causal order.

Ids carry two orders: a strict causal one and a total one that breaks ties. A finite
set of ids is won by the largest of its causally maximal members.
-/

namespace WalkieSongie.CausalRegister

def Latest {Id : Type} (before : Id → Id → Prop) (ids : Finset Id) (id : Id) : Prop :=
  id ∈ ids ∧ ∀ other ∈ ids, ¬ before id other

theorem exists_latest_above {Id : Type} (before : Id → Id → Prop) [IsStrictOrder Id before]
    (ids : Finset Id) (id : Id) (hid : id ∈ ids) :
    ∃ top, Latest before ids top ∧ (id = top ∨ before id top) := by
  have hwf : (ids : Set Id).WellFoundedOn (Function.swap before) :=
    ids.finite_toSet.wellFoundedOn
  refine Set.WellFoundedOn.induction
    (P := fun id => ∃ top, Latest before ids top ∧ (id = top ∨ before id top))
    hwf (Finset.mem_coe.mpr hid) fun id hid ih => ?_
  by_cases hlast : ∀ other ∈ ids, ¬ before id other
  · exact ⟨id,⟨hid,hlast⟩,.inl rfl⟩
  · push Not at hlast
    obtain ⟨other,hother,hlt⟩ := hlast
    obtain ⟨top,htop,hle⟩ := ih other hother hlt
    refine ⟨top,htop,.inr ?_⟩
    rcases hle with rfl | hle
    · exact hlt
    · exact IsTrans.trans id other top hlt hle

section Winner

variable {Id : Type} [LinearOrder Id] {before : Id → Id → Prop} {ids : Finset Id}

/-- The register's winner is the largest causally maximal member. -/
def Wins (before : Id → Id → Prop) (ids : Finset Id) (winner : Id) : Prop :=
  Latest before ids winner ∧ ∀ other, Latest before ids other → other ≤ winner

theorem Wins.mem {winner : Id} (h : Wins before ids winner) : winner ∈ ids := h.1.1

theorem Wins.unique {first second : Id} (hf : Wins before ids first)
    (hs : Wins before ids second) : first = second :=
  le_antisymm (hs.2 first hf.1) (hf.2 second hs.1)

theorem Wins.congr {after : Id → Id → Prop}
    (h : ∀ first ∈ ids, ∀ second ∈ ids, before first second ↔ after first second) {winner : Id} :
    Wins before ids winner ↔ Wins after ids winner := by
  have hlatest : ∀ id, Latest before ids id ↔ Latest after ids id := by
    intro id
    refine and_congr_right fun hid => forall₂_congr fun other hother => ?_
    rw [h id hid other hother]
  simp only [Wins,hlatest]

theorem exists_wins (before : Id → Id → Prop) [IsStrictOrder Id before] (h : ids.Nonempty) :
    ∃ winner, Wins before ids winner := by
  classical
  obtain ⟨id,hid⟩ := h
  obtain ⟨top,htop,-⟩ := exists_latest_above before ids id hid
  let tops := ids.filter (Latest before ids)
  have htops : tops.Nonempty := ⟨top,Finset.mem_filter.mpr ⟨htop.1,htop⟩⟩
  refine ⟨tops.max' htops,(Finset.mem_filter.mp (tops.max'_mem htops)).2,?_⟩
  intro other hother
  exact tops.le_max' other (Finset.mem_filter.mpr ⟨hother.1,hother⟩)

theorem wins_iff_of_latest_kept [IsStrictOrder Id before] {kept : Finset Id} (hsub : kept ⊆ ids)
    (hkept : ∀ id, Latest before ids id → id ∈ kept) {winner : Id} :
    Wins before ids winner ↔ Wins before kept winner := by
  have hlatest : ∀ id, Latest before ids id ↔ Latest before kept id := by
    intro id
    constructor
    · exact fun h => ⟨hkept id h,fun other hother => h.2 other (hsub hother)⟩
    · rintro ⟨hid,hlast⟩
      obtain ⟨top,htop,rfl | habove⟩ := exists_latest_above before ids id (hsub hid)
      · exact htop
      · exact absurd habove (hlast top (hkept top htop))
  simp only [Wins,hlatest]

end Winner

end WalkieSongie.CausalRegister
