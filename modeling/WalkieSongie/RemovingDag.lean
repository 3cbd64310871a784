import Mathlib.Data.Finset.Option
import WalkieSongie.CausalDag
set_option autoImplicit false

/-!
Histories that grow by one entry at a time, and the observed-remove set of a history: an add
stands unless a remove of the same kind lies above it.
-/

namespace WalkieSongie.CausalDag
open Relation

variable {Id Payload : Type}

namespace DagSnapshot

variable {before after third : DagSnapshot Id Payload}

/-- The one history has come out of the other by new entries on top. -/
def Grows (before after : DagSnapshot Id Payload) : Prop :=
  before.newestFirst <:+ after.newestFirst

theorem Grows.refl (history : DagSnapshot Id Payload) : history.Grows history :=
  List.suffix_refl _

theorem Grows.trans (h : before.Grows after) (h' : after.Grows third) : before.Grows third :=
  List.IsSuffix.trans h h'

theorem Grows.mem (h : before.Grows after) {entry : Entry Id Payload}
    (hentry : entry ∈ before.newestFirst) : entry ∈ after.newestFirst :=
  h.subset hentry

theorem Grows.ancestor (h : before.Grows after) {id top : Id} (hbelow : before.Ancestor id top) :
    after.Ancestor id top :=
  TransGen.mono (fun _ _ => Parent.mono h.subset) _ _ hbelow

variable [DecidableEq Id]

instance [DecidableEq Payload] (before after : DagSnapshot Id Payload) :
    Decidable (before.Grows after) :=
  inferInstanceAs (Decidable (before.newestFirst <:+ after.newestFirst))

theorem Grows.hashes (h : before.Grows after) : before.hashes ⊆ after.hashes := by
  intro id hid
  obtain ⟨entry,hentry,hhash⟩ := mem_hashes.mp hid
  exact mem_hashes.mpr ⟨entry,h.mem hentry,hhash⟩

/-- Below an old entry nothing changes. -/
theorem Grows.ancestor_iff (h : before.Grows after) {id top : Id} (htop : top ∈ before.hashes) :
    after.Ancestor id top ↔ before.Ancestor id top := by
  obtain ⟨entry,hentry,rfl⟩ := mem_hashes.mp htop
  exact (AgreeBelow.of_subset h.subset hentry).ancestor_iff

theorem Grows.observedAt (h : before.Grows after) {heads : Finset Id}
    (hheads : heads ⊆ before.hashes) : after.observedAt heads = before.observedAt heads := by
  ext id
  simp only [mem_observedAt]
  constructor
  · rintro ⟨head,hhead,rfl | hbelow⟩
    · exact ⟨id,hhead,.inl rfl⟩
    · exact ⟨head,hhead,.inr ((h.ancestor_iff (hheads hhead)).mp hbelow)⟩
  · rintro ⟨head,hhead,rfl | hbelow⟩
    · exact ⟨id,hhead,.inl rfl⟩
    · exact ⟨head,hhead,.inr (h.ancestor hbelow)⟩

theorem observedAt_subset {history : DagSnapshot Id Payload} {heads : Finset Id}
    (hheads : heads ⊆ history.hashes) : history.observedAt heads ⊆ history.hashes := by
  intro id hid
  obtain ⟨head,hhead,rfl | hbelow⟩ := mem_observedAt.mp hid
  · exact hheads hhead
  · exact hbelow.mem_hashes

/-- An entry goes on top of a history that holds its predecessors and not itself. -/
def Extends (history : DagSnapshot Id Payload) (entry : Entry Id Payload) : Prop :=
  (∀ prev ∈ entry.prevs, prev ∈ history.newestFirst.map Entry.hash) ∧
    entry.hash ∉ history.newestFirst.map Entry.hash

instance (history : DagSnapshot Id Payload) (entry : Entry Id Payload) :
    Decidable (history.Extends entry) :=
  inferInstanceAs (Decidable (_ ∧ _))

def extend (history : DagSnapshot Id Payload) (entry : Entry Id Payload) :
    Option (DagSnapshot Id Payload) :=
  if h : history.Extends entry then
    some ⟨entry :: history.newestFirst,h.1,h.2,history.topological⟩
  else none

theorem extend_eq_some {history : DagSnapshot Id Payload} {entry : Entry Id Payload} :
    history.extend entry = some after ↔
      history.Extends entry ∧ after.newestFirst = entry :: history.newestFirst := by
  unfold extend
  split
  next h =>
    simp only [Option.some.injEq,h,true_and]
    constructor
    · rintro rfl
      rfl
    · intro hafter
      cases after
      cases hafter
      rfl
  next h => simp [h]

structure Extended (before after : DagSnapshot Id Payload) (entry : Entry Id Payload) : Prop where
  grows : before.Grows after
  mem : entry ∈ after.newestFirst
  only : ∀ other ∈ after.newestFirst, other = entry ∨ other ∈ before.newestFirst
  fresh : entry.hash ∉ before.hashes
  prevs : entry.prevs ⊆ before.hashes

theorem Extended.of_extend {entry : Entry Id Payload} (h : before.extend entry = some after) :
    Extended before after entry := by
  obtain ⟨⟨hprevs,hfresh⟩,hafter⟩ := extend_eq_some.mp h
  refine ⟨?_,?_,?_,?_,?_⟩
  · rw [Grows,hafter]
    exact List.suffix_cons _ _
  · simp [hafter]
  · simp [hafter]
  · simpa [DagSnapshot.hashes] using hfresh
  · exact fun prev hprev => List.mem_toFinset.mpr (hprevs prev hprev)

end DagSnapshot

variable [DecidableEq Id]

theorem DagSnapshot.eq_of_hash {history : DagSnapshot Id Payload} {first second : Entry Id Payload}
    (hfirst : first ∈ history.newestFirst) (hsecond : second ∈ history.newestFirst)
    (hhash : first.hash = second.hash) : first = second := by
  have hsame := (entry_eq_some.mpr ⟨hfirst,hhash⟩).symm.trans (entry_eq_some.mpr ⟨hsecond,rfl⟩)
  exact Option.some.inj hsame

section ObservedRemove

/-- A remove of the history has the add in its past. -/
def Removed (history : DagSnapshot Id Payload) (remove : Payload) (id : Id) : Prop :=
  ∃ entry ∈ history.newestFirst, entry.payload = remove ∧ id ∈ history.observedAt entry.prevs

instance [DecidableEq Payload] (history : DagSnapshot Id Payload) (remove : Payload) (id : Id) :
    Decidable (Removed history remove id) :=
  inferInstanceAs (Decidable (∃ entry ∈ history.newestFirst, _))

/-- The set of the history has the element that `add` adds and `remove` removes. -/
def Holds (history : DagSnapshot Id Payload) (add remove : Payload) : Prop :=
  ∃ entry ∈ history.newestFirst, entry.payload = add ∧ ¬ Removed history remove entry.hash

instance [DecidableEq Payload] (history : DagSnapshot Id Payload) (add remove : Payload) :
    Decidable (Holds history add remove) :=
  inferInstanceAs (Decidable (∃ entry ∈ history.newestFirst, _))

theorem removed_iff {history : DagSnapshot Id Payload} {remove : Payload} {id : Id} :
    Removed history remove id ↔
      ∃ entry ∈ history.newestFirst, entry.payload = remove ∧ history.Ancestor id entry.hash := by
  constructor
  · rintro ⟨entry,hentry,hpayload,hbelow⟩
    exact ⟨entry,hentry,hpayload,(DagSnapshot.mem_observedAt_prevs hentry).mp hbelow⟩
  · rintro ⟨entry,hentry,hpayload,hbelow⟩
    exact ⟨entry,hentry,hpayload,(DagSnapshot.mem_observedAt_prevs hentry).mpr hbelow⟩

theorem Removed.grows {before after : DagSnapshot Id Payload} (h : before.Grows after)
    {remove : Payload} {id : Id} (hremoved : Removed before remove id) :
    Removed after remove id := by
  obtain ⟨entry,hentry,hpayload,hbelow⟩ := removed_iff.mp hremoved
  exact removed_iff.mpr ⟨entry,h.mem hentry,hpayload,h.ancestor hbelow⟩

end ObservedRemove

end WalkieSongie.CausalDag
