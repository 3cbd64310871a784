import Mathlib.Logic.Relation
import Mathlib.Data.Finset.Union
import Mathlib.Data.Finset.Image
import WalkieSongie.CausalRegister
set_option autoImplicit false

/-!
Finite causal histories: hash-linked entries in an order that puts every entry after its
predecessors, with the causal past computed by one sweep and characterised by paths.
-/

namespace WalkieSongie.CausalDag
open Relation CausalRegister

structure Entry (Id Payload : Type) where
  hash : Id
  prevs : Finset Id
  payload : Payload
  deriving DecidableEq

variable {Id Payload : Type}

def Parent (entries : List (Entry Id Payload)) (parent child : Id) : Prop :=
  ∃ entry ∈ entries, entry.hash = child ∧ parent ∈ entry.prevs

/-- Newest first: predecessors stand further down and no hash occurs twice. -/
def Topological : List (Entry Id Payload) → Prop
  | [] => True
  | entry :: rest =>
      (∀ prev ∈ entry.prevs, prev ∈ rest.map Entry.hash) ∧
        entry.hash ∉ rest.map Entry.hash ∧ Topological rest

instance decidableTopological [DecidableEq Id] :
    (entries : List (Entry Id Payload)) → Decidable (Topological entries)
  | [] => isTrue trivial
  | _ :: rest =>
      have : Decidable (Topological rest) := decidableTopological rest
      inferInstanceAs (Decidable (_ ∧ _ ∧ _))

theorem parent_cons {entry : Entry Id Payload} {rest : List (Entry Id Payload)} {a b : Id} :
    Parent (entry :: rest) a b ↔ (entry.hash = b ∧ a ∈ entry.prevs) ∨ Parent rest a b := by
  simp [Parent]

theorem Parent.mono {small large : List (Entry Id Payload)} (h : small ⊆ large) {a b : Id}
    (hp : Parent small a b) : Parent large a b := by
  obtain ⟨entry,hentry,hhash,hprev⟩ := hp
  exact ⟨entry,h hentry,hhash,hprev⟩

theorem Parent.child_mem {entries : List (Entry Id Payload)} {a b : Id}
    (h : Parent entries a b) : b ∈ entries.map Entry.hash := by
  obtain ⟨entry,hentry,rfl,-⟩ := h
  exact List.mem_map_of_mem hentry

theorem Parent.parent_mem {entries : List (Entry Id Payload)} (ht : Topological entries) {a b : Id}
    (h : Parent entries a b) : a ∈ entries.map Entry.hash := by
  induction entries with
  | nil => simp [Parent] at h
  | cons entry rest ih =>
    rcases parent_cons.mp h with ⟨-,hprev⟩ | hrest
    · exact List.mem_cons_of_mem _ (ht.1 a hprev)
    · exact List.mem_cons_of_mem _ (ih ht.2.2 hrest)

theorem not_parent_newest {entry : Entry Id Payload} {rest : List (Entry Id Payload)}
    (ht : Topological (entry :: rest)) (b : Id) : ¬ Parent (entry :: rest) entry.hash b := by
  intro h
  rcases parent_cons.mp h with ⟨-,hprev⟩ | hrest
  · exact ht.2.1 (ht.1 _ hprev)
  · exact ht.2.1 (hrest.parent_mem ht.2.2)

theorem path_cons {entry : Entry Id Payload} {rest : List (Entry Id Payload)}
    (ht : Topological (entry :: rest)) {a b : Id}
    (h : ReflTransGen (Parent (entry :: rest)) a b) :
    ReflTransGen (Parent rest) a b ∨
      (entry.hash = b ∧ ∃ prev ∈ entry.prevs, ReflTransGen (Parent rest) a prev) := by
  induction h with
  | refl => exact .inl .refl
  | tail _ hstep ih =>
    rcases ih with hpath | ⟨rfl,-⟩
    · rcases parent_cons.mp hstep with ⟨hhash,hprev⟩ | hrest
      · exact .inr ⟨hhash,_,hprev,hpath⟩
      · exact .inl (hpath.tail hrest)
    · exact absurd hstep (not_parent_newest ht _)

theorem acyclic {entries : List (Entry Id Payload)} (ht : Topological entries) (a : Id) :
    ¬ TransGen (Parent entries) a a := by
  induction entries with
  | nil =>
    intro h
    obtain ⟨b,-,hstep⟩ := TransGen.tail'_iff.mp h
    simp [Parent] at hstep
  | cons entry rest ih =>
    intro h
    obtain ⟨b,hpath,hstep⟩ := TransGen.tail'_iff.mp h
    have hne : entry.hash ≠ a := by
      rintro rfl
      obtain ⟨c,hfirst,-⟩ := TransGen.head'_iff.mp h
      exact not_parent_newest ht c hfirst
    rcases parent_cons.mp hstep with ⟨hhash,-⟩ | hrest
    · exact hne hhash
    · rcases path_cons ht hpath with hold | ⟨rfl,-⟩
      · exact ih ht.2.2 (TransGen.tail' hold hrest)
      · exact not_parent_newest ht _ hstep

/-- One sweep from the newest entry down collects the ids at or below `wanted`. -/
def past [DecidableEq Id] : List (Entry Id Payload) → Finset Id → Finset Id
  | [], wanted => wanted
  | entry :: rest, wanted =>
      if entry.hash ∈ wanted then past rest (wanted ∪ entry.prevs) else past rest wanted

theorem mem_past [DecidableEq Id] {entries : List (Entry Id Payload)} (ht : Topological entries)
    (wanted : Finset Id) (id : Id) :
    id ∈ past entries wanted ↔ ∃ head ∈ wanted, ReflTransGen (Parent entries) id head := by
  induction entries generalizing wanted with
  | nil =>
    have hnone : ∀ a b, ¬ Parent ([] : List (Entry Id Payload)) a b := by simp [Parent]
    constructor
    · exact fun h => ⟨id,h,.refl⟩
    · rintro ⟨head,hhead,hpath⟩
      rcases ReflTransGen.cases_tail hpath with rfl | ⟨b,-,hstep⟩
      · exact hhead
      · exact absurd hstep (hnone _ _)
  | cons entry rest ih =>
    have hmono : ∀ a b, Parent rest a b → Parent (entry :: rest) a b :=
      fun a b => Parent.mono (List.subset_cons_self entry rest)
    unfold past
    split
    · rename_i hwanted
      rw [ih ht.2.2]
      constructor
      · rintro ⟨head,hhead,hpath⟩
        have hlift := ReflTransGen.mono hmono _ _ hpath
        rcases Finset.mem_union.mp hhead with hold | hprev
        · exact ⟨head,hold,hlift⟩
        · exact ⟨entry.hash,hwanted,hlift.tail (parent_cons.mpr (.inl ⟨rfl,hprev⟩))⟩
      · rintro ⟨head,hhead,hpath⟩
        rcases path_cons ht hpath with hold | ⟨-,prev,hprev,hold⟩
        · exact ⟨head,Finset.mem_union_left _ hhead,hold⟩
        · exact ⟨prev,Finset.mem_union_right _ hprev,hold⟩
    · rename_i hskip
      rw [ih ht.2.2]
      constructor
      · rintro ⟨head,hhead,hpath⟩
        exact ⟨head,hhead,ReflTransGen.mono hmono _ _ hpath⟩
      · rintro ⟨head,hhead,hpath⟩
        rcases path_cons ht hpath with hold | ⟨rfl,-⟩
        · exact ⟨head,hhead,hold⟩
        · exact absurd hhead hskip

theorem Topological.nodup {entries : List (Entry Id Payload)} (ht : Topological entries) :
    (entries.map Entry.hash).Nodup := by
  induction entries with
  | nil => exact List.nodup_nil
  | cons entry rest ih => exact List.nodup_cons.mpr ⟨ht.2.1,ih ht.2.2⟩

theorem filterMap_key_sublist {A T : Type} {items : List A} {key : A → Id}
    {read : A → Option (Id × T)}
    (hread : ∀ item id value, read item = some (id,value) → key item = id) :
    ((items.filterMap read).map Prod.fst).Sublist (items.map key) := by
  induction items with
  | nil => exact .slnil
  | cons item rest ih =>
    cases hvalue : read item with
    | none =>
      rw [List.filterMap_cons_none hvalue]
      exact ih.cons (key item)
    | some found =>
      rw [List.filterMap_cons_some hvalue,List.map_cons,List.map_cons,
        hread item found.1 found.2 hvalue]
      exact ih.cons_cons found.1

/-- A causally closed history, kept in one of its topological orders. -/
structure DagSnapshot (Id Payload : Type) where
  newestFirst : List (Entry Id Payload)
  topological : Topological newestFirst

namespace DagSnapshot

variable [DecidableEq Id] (history : DagSnapshot Id Payload)

def entriesTopo : List (Entry Id Payload) := history.newestFirst.reverse

def entry (id : Id) : Option (Entry Id Payload) :=
  history.newestFirst.find? fun entry => entry.hash = id

def hashes : Finset Id := (history.newestFirst.map Entry.hash).toFinset

/-- The entries no other entry names as a predecessor. -/
def frontier : Finset Id :=
  history.hashes.filter fun id => ∀ entry ∈ history.newestFirst, id ∉ entry.prevs

/-- What a reader at position `heads` has seen: the heads and everything below them. -/
def observedAt (heads : Finset Id) : Finset Id := past history.newestFirst heads

def isAncestor (ancestor id : Id) : Bool :=
  match history.entry id with
  | none => false
  | some entry => ancestor ∈ history.observedAt entry.prevs

def Ancestor (ancestor id : Id) : Prop := TransGen (Parent history.newestFirst) ancestor id

end DagSnapshot

namespace DagSnapshot

variable {history : DagSnapshot Id Payload}

instance : IsStrictOrder Id history.Ancestor where
  irrefl := acyclic history.topological
  trans _ _ _ := TransGen.trans

theorem mem_entriesTopo {entry : Entry Id Payload} :
    entry ∈ history.entriesTopo ↔ entry ∈ history.newestFirst := by
  simp [entriesTopo]

theorem nodup_entriesTopo (history : DagSnapshot Id Payload) :
    (history.entriesTopo.map Entry.hash).Nodup := by
  rw [entriesTopo,List.map_reverse]
  exact List.nodup_reverse.mpr history.topological.nodup

variable [DecidableEq Id]

theorem mem_hashes {id : Id} :
    id ∈ history.hashes ↔ ∃ entry ∈ history.newestFirst, entry.hash = id := by
  simp [hashes]

theorem entry_eq_some {id : Id} {entry : Entry Id Payload} :
    history.entry id = some entry ↔ entry ∈ history.newestFirst ∧ entry.hash = id := by
  obtain ⟨entries,ht⟩ := history
  show entries.find? _ = some entry ↔ entry ∈ entries ∧ entry.hash = id
  induction entries with
  | nil => simp
  | cons first rest ih =>
    by_cases hfirst : first.hash = id
    · have hrest : ∀ other ∈ rest, other.hash ≠ id := by
        rintro other hother rfl
        exact ht.2.1 (hfirst ▸ List.mem_map_of_mem hother)
      simp only [List.find?_cons_of_pos,hfirst,decide_true,Option.some.injEq,List.mem_cons]
      constructor
      · rintro rfl
        exact ⟨.inl rfl,hfirst⟩
      · rintro ⟨rfl | hmem,hhash⟩
        · rfl
        · exact absurd hhash (hrest entry hmem)
    · rw [List.find?_cons_of_neg (by simpa using hfirst),ih ht.2.2,List.mem_cons]
      constructor
      · exact fun h => ⟨.inr h.1,h.2⟩
      · rintro ⟨rfl | hmem,hhash⟩
        · exact absurd hhash hfirst
        · exact ⟨hmem,hhash⟩

theorem entry_eq_none {id : Id} : history.entry id = none ↔ id ∉ history.hashes := by
  simp [entry,mem_hashes]

theorem mem_observedAt {heads : Finset Id} {id : Id} :
    id ∈ history.observedAt heads ↔ ∃ head ∈ heads, id = head ∨ history.Ancestor id head := by
  simp only [observedAt,mem_past history.topological,reflTransGen_iff_eq_or_transGen,Ancestor,
    eq_comm]

theorem parent_of_entry {entry : Entry Id Payload} (h : entry ∈ history.newestFirst) {prev : Id} :
    Parent history.newestFirst prev entry.hash ↔ prev ∈ entry.prevs := by
  constructor
  · rintro ⟨other,hother,hhash,hprev⟩
    have hsame := (entry_eq_some.mpr ⟨hother,hhash⟩).symm.trans (entry_eq_some.mpr ⟨h,rfl⟩)
    simpa [Option.some.inj hsame] using hprev
  · exact fun hprev => ⟨entry,h,rfl,hprev⟩

theorem isAncestor_iff {ancestor id : Id} :
    history.isAncestor ancestor id = true ↔ history.Ancestor ancestor id := by
  unfold isAncestor
  cases hentry : history.entry id with
  | none =>
    simp only [Bool.false_eq_true,false_iff]
    intro h
    obtain ⟨b,-,hstep⟩ := TransGen.tail'_iff.mp h
    exact entry_eq_none.mp hentry (List.mem_toFinset.mpr hstep.child_mem)
  | some entry =>
    obtain ⟨hmem,rfl⟩ := entry_eq_some.mp hentry
    rw [decide_eq_true_iff,observedAt,mem_past history.topological]
    constructor
    · rintro ⟨prev,hprev,hpath⟩
      exact TransGen.tail' hpath ((parent_of_entry hmem).mpr hprev)
    · intro h
      obtain ⟨prev,hpath,hstep⟩ := TransGen.tail'_iff.mp h
      exact ⟨prev,(parent_of_entry hmem).mp hstep,hpath⟩

theorem Ancestor.mem_hashes {ancestor id : Id} (h : history.Ancestor ancestor id) :
    ancestor ∈ history.hashes := by
  obtain ⟨b,hstep,-⟩ := TransGen.head'_iff.mp h
  exact List.mem_toFinset.mpr (hstep.parent_mem history.topological)

theorem observedAt_frontier : history.observedAt history.frontier = history.hashes := by
  ext id
  rw [mem_observedAt]
  constructor
  · rintro ⟨head,hhead,rfl | h⟩
    · exact (Finset.mem_filter.mp hhead).1
    · exact h.mem_hashes
  · intro hid
    obtain ⟨top,⟨htop,hlast⟩,hle⟩ :=
      exists_latest_above history.Ancestor history.hashes id hid
    refine ⟨top,Finset.mem_filter.mpr ⟨htop,fun entry hentry hprev => ?_⟩,hle⟩
    exact hlast entry.hash (DagSnapshot.mem_hashes.mpr ⟨entry,hentry,rfl⟩)
      (.single ⟨entry,hentry,rfl,hprev⟩)

/-- Two topological orders of one history. -/
def SameEntries (first second : DagSnapshot Id Payload) : Prop :=
  ∀ entry, entry ∈ first.newestFirst ↔ entry ∈ second.newestFirst

namespace SameEntries

variable {first second : DagSnapshot Id Payload} (h : first.SameEntries second)
include h

omit [DecidableEq Id] in
theorem ancestor : first.Ancestor = second.Ancestor := by
  have hparent : Parent first.newestFirst = Parent second.newestFirst := by
    funext a b
    simp only [Parent,h _]
  unfold Ancestor
  rw [hparent]

theorem entry (id : Id) : first.entry id = second.entry id := by
  refine Option.ext fun entry => ?_
  rw [entry_eq_some,entry_eq_some,h entry]

theorem isAncestor : first.isAncestor = second.isAncestor := by
  funext a b
  rw [Bool.eq_iff_iff,isAncestor_iff,isAncestor_iff,h.ancestor]

theorem hashes : first.hashes = second.hashes := by
  ext id
  simp only [mem_hashes,h _]

theorem frontier : first.frontier = second.frontier := by
  ext id
  simp only [DagSnapshot.frontier,h.hashes,Finset.mem_filter,h _]

end SameEntries

theorem subset_of_frontier {first second : DagSnapshot Id Payload}
    (hnames : ∀ entry ∈ first.newestFirst, ∀ other ∈ second.newestFirst,
      entry.hash = other.hash → entry = other)
    (h : first.frontier ⊆ second.hashes) : first.newestFirst ⊆ second.newestFirst := by
  have hbelow : ∀ {id head}, head ∈ first.frontier →
      ReflTransGen (Parent first.newestFirst) id head → id ∈ second.hashes := by
    intro id head hhead hpath
    induction hpath using ReflTransGen.head_induction_on with
    | refl => exact h hhead
    | head hstep _ ih =>
        obtain ⟨entry,hentry,rfl,hprev⟩ := hstep
        obtain ⟨other,hother,hhash⟩ := mem_hashes.mp ih
        obtain rfl := hnames entry hentry other hother hhash.symm
        have hparent : Parent second.newestFirst _ entry.hash := ⟨entry,hother,rfl,hprev⟩
        exact List.mem_toFinset.mpr (hparent.parent_mem second.topological)
  intro entry hentry
  have hseen : entry.hash ∈ first.observedAt first.frontier := by
    rw [observedAt_frontier]
    exact mem_hashes.mpr ⟨entry,hentry,rfl⟩
  obtain ⟨head,hhead,hpath⟩ := mem_observedAt.mp hseen
  have hheld : entry.hash ∈ second.hashes := by
    apply hbelow hhead
    rcases hpath with hsame | hancestor
    · rw [hsame]
    · exact hancestor.to_reflTransGen
  obtain ⟨other,hother,hhash⟩ := mem_hashes.mp hheld
  obtain rfl := hnames entry hentry other hother hhash.symm
  exact hother

theorem sameEntries_of_frontier {first second : DagSnapshot Id Payload}
    (hnames : ∀ entry ∈ first.newestFirst, ∀ other ∈ second.newestFirst,
      entry.hash = other.hash → entry = other)
    (h : first.frontier = second.frontier) : first.SameEntries second := by
  have hfirst : first.frontier ⊆ second.hashes := by
    rw [h]
    exact Finset.filter_subset _ _
  have hsecond : second.frontier ⊆ first.hashes := by
    rw [← h]
    exact Finset.filter_subset _ _
  intro entry
  constructor
  · intro hentry
    exact subset_of_frontier hnames hfirst hentry
  · intro hentry
    refine subset_of_frontier ?_ hsecond hentry
    intro other hother found hfound hhash
    exact (hnames found hfound other hother hhash.symm).symm

/-- Two histories hold `entry` and the same entries below it. -/
structure AgreeBelow (first second : DagSnapshot Id Payload) (entry : Entry Id Payload) : Prop where
  mem_first : entry ∈ first.newestFirst
  mem_second : entry ∈ second.newestFirst
  lookup : ∀ id, first.Ancestor id entry.hash → second.entry id = first.entry id

namespace AgreeBelow

variable {first second : DagSnapshot Id Payload} {entry : Entry Id Payload}

theorem entry_of_ancestor (h : AgreeBelow first second entry) {id : Id}
    (ha : first.Ancestor id entry.hash) :
    ∃ found, found ∈ first.newestFirst ∧ found ∈ second.newestFirst ∧ found.hash = id := by
  obtain ⟨found,hfound,hhash⟩ := DagSnapshot.mem_hashes.mp ha.mem_hashes
  have hfirst := entry_eq_some.mpr ⟨hfound,hhash⟩
  have hsecond := entry_eq_some.mp ((h.lookup id ha).trans hfirst)
  exact ⟨found,hfound,hsecond.1,hhash⟩

theorem ancestor_mono (h : AgreeBelow first second entry) {top : Id}
    (htop : top = entry.hash ∨ first.Ancestor top entry.hash) {id : Id} :
    second.Ancestor id top → first.Ancestor id top := by
  intro ha
  induction ha using TransGen.head_induction_on with
  | single hstep =>
    rcases htop with rfl | htop
    · exact .single ((parent_of_entry h.mem_first).mpr ((parent_of_entry h.mem_second).mp hstep))
    · obtain ⟨found,hfirst,hsecond,rfl⟩ := h.entry_of_ancestor htop
      exact .single ((parent_of_entry hfirst).mpr ((parent_of_entry hsecond).mp hstep))
  | @head child parent hstep _ ih =>
    have hbelow : first.Ancestor parent entry.hash := by
      rcases htop with rfl | htop
      · exact ih
      · exact ih.trans htop
    obtain ⟨found,hfirst,hsecond,rfl⟩ := h.entry_of_ancestor hbelow
    exact ih.head ((parent_of_entry hfirst).mpr ((parent_of_entry hsecond).mp hstep))

theorem symm (h : AgreeBelow first second entry) : AgreeBelow second first entry where
  mem_first := h.mem_second
  mem_second := h.mem_first
  lookup id ha := (h.lookup id (h.ancestor_mono (.inl rfl) ha)).symm

theorem ancestor_iff (h : AgreeBelow first second entry) {id : Id} :
    second.Ancestor id entry.hash ↔ first.Ancestor id entry.hash :=
  ⟨h.ancestor_mono (.inl rfl),h.symm.ancestor_mono (.inl rfl)⟩

theorem ancestor_iff_below (h : AgreeBelow first second entry) {top : Id}
    (htop : first.Ancestor top entry.hash) {id : Id} :
    second.Ancestor id top ↔ first.Ancestor id top :=
  ⟨h.ancestor_mono (.inr htop),h.symm.ancestor_mono (.inr (h.ancestor_iff.mpr htop))⟩

theorem trans {third : DagSnapshot Id Payload} (h : AgreeBelow first second entry)
    (hnext : AgreeBelow second third entry) : AgreeBelow first third entry where
  mem_first := h.mem_first
  mem_second := hnext.mem_second
  lookup id ha := (hnext.lookup id (h.ancestor_iff.mpr ha)).trans (h.lookup id ha)

theorem of_subset (hsub : first.newestFirst ⊆ second.newestFirst)
    (hentry : entry ∈ first.newestFirst) : AgreeBelow first second entry where
  mem_first := hentry
  mem_second := hsub hentry
  lookup id ha := by
    obtain ⟨found,hfound,hhash⟩ := DagSnapshot.mem_hashes.mp ha.mem_hashes
    rw [entry_eq_some.mpr ⟨hfound,hhash⟩,entry_eq_some.mpr ⟨hsub hfound,hhash⟩]

end AgreeBelow

theorem mem_observedAt_prevs {entry : Entry Id Payload}
    (h : entry ∈ history.newestFirst) {id : Id} :
    id ∈ history.observedAt entry.prevs ↔ history.Ancestor id entry.hash := by
  rw [← isAncestor_iff,isAncestor,entry_eq_some.mpr ⟨h,rfl⟩,decide_eq_true_iff]

theorem topological_filter {entries : List (Entry Id Payload)} (ht : Topological entries)
    {keep : Finset Id}
    (hclosed : ∀ id ∈ keep, ∀ prev, Parent entries prev id → prev ∈ keep) :
    Topological (entries.filter fun entry => entry.hash ∈ keep) := by
  induction entries with
  | nil => exact ht
  | cons entry rest ih =>
    have hrest := ih ht.2.2 fun id hid prev hp =>
      hclosed id hid prev (hp.mono (List.subset_cons_self entry rest))
    by_cases hkeep : entry.hash ∈ keep
    · rw [List.filter_cons_of_pos (by simpa using hkeep)]
      refine ⟨fun prev hprev => ?_,?_,hrest⟩
      · have hin := hclosed entry.hash hkeep prev (parent_cons.mpr (.inl ⟨rfl,hprev⟩))
        obtain ⟨found,hfound,rfl⟩ := List.mem_map.mp (ht.1 prev hprev)
        exact List.mem_map_of_mem (List.mem_filter.mpr ⟨hfound,by simpa using hin⟩)
      · intro hmem
        obtain ⟨found,hfound,hhash⟩ := List.mem_map.mp hmem
        exact ht.2.1 (hhash ▸ List.mem_map_of_mem (List.mem_filter.mp hfound).1)
    · rwa [List.filter_cons_of_neg (by simpa using hkeep)]

/-- The part of a history at or below one of its entries. -/
def upTo (history : DagSnapshot Id Payload) (entry : Entry Id Payload)
    (h : entry ∈ history.newestFirst) : DagSnapshot Id Payload where
  newestFirst := history.newestFirst.filter fun other =>
    other.hash ∈ insert entry.hash (history.observedAt entry.prevs)
  topological := by
    refine topological_filter history.topological fun id hid prev hp => ?_
    rw [Finset.mem_insert,mem_observedAt_prevs h] at hid ⊢
    rcases hid with rfl | hid
    · exact .inr (.single hp)
    · exact .inr (hid.head hp)

theorem mem_upTo {entry other : Entry Id Payload} (h : entry ∈ history.newestFirst) :
    other ∈ (history.upTo entry h).newestFirst ↔ other ∈ history.newestFirst ∧
      (other.hash = entry.hash ∨ history.Ancestor other.hash entry.hash) := by
  simp only [upTo,List.mem_filter,decide_eq_true_eq,Finset.mem_insert,mem_observedAt_prevs h]

theorem agreeBelow_upTo {entry : Entry Id Payload} (h : entry ∈ history.newestFirst) :
    AgreeBelow history (history.upTo entry h) entry :=
  (AgreeBelow.of_subset (fun _ hmem => ((mem_upTo h).mp hmem).1)
    ((mem_upTo h).mpr ⟨h,.inl rfl⟩)).symm

def push (history : DagSnapshot Id Payload) (entry : Entry Id Payload)
    (hprevs : ∀ prev ∈ entry.prevs, prev ∈ history.hashes) (hfresh : entry.hash ∉ history.hashes) :
    DagSnapshot Id Payload where
  newestFirst := entry :: history.newestFirst
  topological := ⟨fun prev hprev => List.mem_toFinset.mp (hprevs prev hprev),
    fun h => hfresh (List.mem_toFinset.mpr h),history.topological⟩

end DagSnapshot

end WalkieSongie.CausalDag
