import Mathlib.Data.List.Induction
import Mathlib.Data.List.Nodup
set_option autoImplicit false

/-!
Maps as lists of entries with one entry a key.
-/

structure KeyedMap (Key Value : Type) where
  entries : List (Key × Value)
  unique : (entries.map Prod.fst).Nodup

namespace KeyedMap

variable {Key Value : Type}

def empty : KeyedMap Key Value := ⟨[],.nil⟩

def isEmpty (map : KeyedMap Key Value) : Bool := map.entries.isEmpty

def retain (keep : Key → Value → Bool) (map : KeyedMap Key Value) : KeyedMap Key Value :=
  ⟨map.entries.filter fun entry => keep entry.1 entry.2,
    map.unique.sublist (List.filter_sublist.map _)⟩

variable [DecidableEq Key]

def get? (map : KeyedMap Key Value) (key : Key) : Option Value :=
  (map.entries.find? fun entry => entry.1 = key).map Prod.snd

def insert (key : Key) (value : Value) (map : KeyedMap Key Value) : KeyedMap Key Value where
  entries := (key,value) :: map.entries.filter fun entry => entry.1 ≠ key
  unique := by
    refine List.nodup_cons.mpr ⟨?_,map.unique.sublist (List.filter_sublist.map _)⟩
    simp

theorem get?_eq_some {map : KeyedMap Key Value} {key : Key} {value : Value} :
    map.get? key = some value ↔ (key,value) ∈ map.entries := by
  obtain ⟨entries,hunique⟩ := map
  unfold get?
  constructor
  · intro h
    obtain ⟨⟨found,_⟩,hfound,rfl⟩ := Option.map_eq_some_iff.mp h
    obtain rfl : found = key := by simpa using List.find?_some hfound
    exact List.mem_of_find?_eq_some hfound
  · intro hmem
    induction entries with
    | nil => cases hmem
    | cons entry rest ih =>
      obtain ⟨first,held⟩ := entry
      simp only [List.map_cons,List.nodup_cons] at hunique
      rcases List.mem_cons.mp hmem with hsame | hrest
      · cases hsame
        simp
      · have hne : first ≠ key := by
          rintro rfl
          exact hunique.1 (List.mem_map_of_mem (f := Prod.fst) hrest)
        simpa [List.find?_cons,hne] using ih hunique.2 hrest

@[simp]
theorem get?_empty (key : Key) : (empty : KeyedMap Key Value).get? key = none := rfl

theorem get?_insert (map : KeyedMap Key Value) (key other : Key) (value : Value) :
    (map.insert key value).get? other = if other = key then some value else map.get? other := by
  ext found
  rw [get?_eq_some]
  by_cases h : other = key
  · simp [insert,h,eq_comm]
  · simp [insert,h,get?_eq_some]

@[simp]
theorem get?_insert_self (map : KeyedMap Key Value) (key : Key) (value : Value) :
    (map.insert key value).get? key = some value := by
  rw [get?_insert,if_pos rfl]

theorem insert_insert (map : KeyedMap Key Value) (key : Key) (value later : Value) :
    (map.insert key value).insert key later = map.insert key later := by
  simp [insert]

theorem get?_retain (map : KeyedMap Key Value) (keep : Key → Value → Bool) (key : Key) :
    (map.retain keep).get? key = (map.get? key).filter (keep key) := by
  ext found
  rw [get?_eq_some]
  simp [retain,Option.filter_eq_some_iff,get?_eq_some]

def erase (key : Key) (map : KeyedMap Key Value) : KeyedMap Key Value :=
  map.retain fun other _ => other ≠ key

theorem get?_erase (map : KeyedMap Key Value) (key other : Key) :
    (map.erase key).get? other = if other = key then none else map.get? other := by
  rw [erase,get?_retain]
  by_cases h : other = key
  · simp [h]
  · cases map.get? other with
    | none => simp [h]
    | some value => simp [h]

def mapValues {Value' : Type} (f : Key → Value → Value') (map : KeyedMap Key Value) :
    KeyedMap Key Value' where
  entries := map.entries.map fun entry => (entry.1,f entry.1 entry.2)
  unique := by simpa [Function.comp_def] using map.unique

theorem get?_mapValues {Value' : Type} (f : Key → Value → Value') (map : KeyedMap Key Value)
    (key : Key) : (map.mapValues f).get? key = (map.get? key).map (f key) := by
  ext found
  simp only [get?_eq_some,mapValues,List.mem_map,Prod.mk.injEq,Option.map_eq_some_iff]
  constructor
  · rintro ⟨⟨other,value⟩,hentry,rfl,rfl⟩
    exact ⟨value,hentry,rfl⟩
  · rintro ⟨value,hentry,rfl⟩
    exact ⟨(key,value),hentry,rfl,rfl⟩

def ofEntries (entries : List (Key × Value)) : KeyedMap Key Value :=
  entries.foldl (fun map entry => map.insert entry.1 entry.2) empty

theorem ofEntries_append (entries : List (Key × Value)) (entry : Key × Value) :
    ofEntries (entries ++ [entry]) = (ofEntries entries).insert entry.1 entry.2 := by
  simp [ofEntries]

theorem get?_ofEntries (entries : List (Key × Value)) (key : Key) : (ofEntries entries).get? key =
    (entries.reverse.find? fun entry => entry.1 = key).map Prod.snd := by
  induction entries using List.reverseRecOn with
  | nil => rfl
  | append_singleton entries entry ih =>
    rw [ofEntries_append,get?_insert,ih,List.reverse_concat,List.find?_cons]
    by_cases h : key = entry.1
    · simp [h]
    · simp [h,Ne.symm h]

theorem get?_ofEntries_ne_none {entries : List (Key × Value)} {key : Key} :
    (ofEntries entries).get? key ≠ none ↔ key ∈ entries.map Prod.fst := by
  rw [get?_ofEntries,ne_eq,Option.map_eq_none_iff,List.find?_eq_none]
  simp

theorem get?_ofEntries_eq_some {entries : List (Key × Value)} (h : (entries.map Prod.fst).Nodup)
    {key : Key} {value : Value} :
    (ofEntries entries).get? key = some value ↔ (key,value) ∈ entries := by
  have hunique : (entries.reverse.map Prod.fst).Nodup := by
    rw [List.map_reverse]
    exact List.nodup_reverse.mpr h
  rw [get?_ofEntries,← List.mem_reverse]
  exact @get?_eq_some Key Value _ ⟨entries.reverse,hunique⟩ key value

theorem length_insert_le (map : KeyedMap Key Value) (key : Key) (value : Value) :
    (map.insert key value).entries.length ≤ map.entries.length + 1 :=
  Nat.succ_le_succ (List.length_filter_le _ _)

theorem length_insert_of_some {map : KeyedMap Key Value} {key : Key} {old : Value} (value : Value)
    (h : map.get? key = some old) :
    (map.insert key value).entries.length ≤ map.entries.length := by
  refine List.length_filter_lt_length_iff_exists.mpr ⟨(key,old),get?_eq_some.mp h,?_⟩
  simp

theorem length_erase_le (map : KeyedMap Key Value) (key : Key) :
    (map.erase key).entries.length ≤ map.entries.length := List.length_filter_le _ _

omit [DecidableEq Key] in
@[simp]
theorem length_mapValues {Value' : Type} (f : Key → Value → Value') (map : KeyedMap Key Value) :
    (map.mapValues f).entries.length = map.entries.length := List.length_map _

theorem isEmpty_iff {map : KeyedMap Key Value} :
    map.isEmpty = true ↔ ∀ key, map.get? key = none := by
  constructor
  · intro h key
    simp [isEmpty] at h
    simp [get?,h]
  · intro h
    obtain ⟨entries,hunique⟩ := map
    cases entries with
    | nil => rfl
    | cons entry rest =>
      have hnone := h entry.1
      simp [get?] at hnone

end KeyedMap
