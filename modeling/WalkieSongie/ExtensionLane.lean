import WalkieSongie.CausalDag
import WalkieSongie.RoomValues
set_option autoImplicit false

/-!
The extension lane: commands on pieces and configuration, the envelopes that carry them as
history entries, and the register both admission and the view resolve.
-/

namespace WalkieSongie.Extension
open CausalRegister

abbrev PieceId := EntryHash

inductive ExtensionCommand where
  | putPiece (emoji : String) (pitch : TunedPeriodicPitch)
  | movePiece (piece : PieceId) (pitch : TunedPeriodicPitch)
  | removePiece (piece : PieceId)
  | unremovePiece (remove : PieceId)
  | setConfig (piecesLocked : Option Bool) (availableEmojis : Option String)
  deriving DecidableEq

structure CommandEnvelope where
  generation : Nat
  namespaceDigest : Digest
  actor : ActorId
  presented : List EntryHash
  command : ExtensionCommand
  deriving DecidableEq

structure Area where
  namespaceDigest : Digest
  path : List String
  deriving DecidableEq

structure Grant where
  issuer : ActorId
  receiver : ActorId
  area : Area
  parent : Option EntryHash
  deriving DecidableEq

structure Revoke where
  revoker : ActorId
  target : EntryHash
  barrier : Bool
  deriving DecidableEq

inductive CapabilityOp where
  | grant (grant : Grant)
  | revoke (revoke : Revoke)
  deriving DecidableEq

/-- An entry's payload, sorted by the decoder that recognises it. -/
inductive Payload where
  | capability (op : CapabilityOp)
  | command (envelope : CommandEnvelope)
  | other (bytes : List UInt8)
  deriving DecidableEq

abbrev Entry := CausalDag.Entry EntryHash Payload
abbrev DagSnapshot := CausalDag.DagSnapshot EntryHash Payload

def roomProtocolGeneration : Nat := 5

inductive CommandCodecError where
  | wrongDomain
  | unsupportedGeneration (generation : Nat)
  deriving DecidableEq

def decodeEnvelope : Payload → Except CommandCodecError CommandEnvelope
  | .command envelope =>
      if envelope.generation ≠ roomProtocolGeneration then
        .error (.unsupportedGeneration envelope.generation)
      else .ok envelope
  | .capability _ | .other _ => .error .wrongDomain

/-- `maxPresentedGrants` is the proof library's bound. -/
def presentedIds (maxPresentedGrants : Nat) (envelope : CommandEnvelope) :
    Except String (List EntryHash) :=
  if envelope.presented.isEmpty ∨ maxPresentedGrants < envelope.presented.length then
    .error "command presents an invalid number of capability grants"
  else if envelope.presented.toFinset.card ≠ envelope.presented.length then
    .error "command repeats a presented capability grant"
  else .ok envelope.presented

def extensionPiecesArea (namespaceDigest : Digest) : Area :=
  ⟨namespaceDigest,["extension","pieces"]⟩
def extensionConfigArea (namespaceDigest : Digest) : Area :=
  ⟨namespaceDigest,["extension","config"]⟩

def extensionCommandArea (namespaceDigest : Digest) : ExtensionCommand → Area
  | .putPiece _ _ | .movePiece _ _ | .removePiece _ | .unremovePiece _ =>
      extensionPiecesArea namespaceDigest
  | .setConfig _ _ => extensionConfigArea namespaceDigest

def resolveRegister {T : Type} (isAncestor : EntryHash → EntryHash → Bool)
    (values : List (EntryHash × T)) : Option T :=
  let ids := values.map Prod.fst
  match (ids.filter fun candidate => !ids.any (isAncestor candidate)).max? with
  | none => none
  | some winner => values.findSome? fun (id,value) => if id = winner then some value else none

section Register

variable {T : Type} {isAncestor : EntryHash → EntryHash → Bool}
  {before : EntryHash → EntryHash → Prop} {values : List (EntryHash × T)}

theorem findSome?_id (hunique : (values.map Prod.fst).Nodup) {winner : EntryHash} {value : T} :
    (values.findSome? fun (id,value) => if id = winner then some value else none) = some value ↔
      (winner,value) ∈ values := by
  induction values with
  | nil => simp
  | cons first rest ih =>
    obtain ⟨id,kept⟩ := first
    obtain ⟨hfirst,hrest⟩ := List.nodup_cons.mp hunique
    by_cases hid : id = winner
    · subst hid
      have hno : (id,value) ∉ rest := fun h => hfirst (List.mem_map.mpr ⟨_,h,rfl⟩)
      simp [hno,eq_comm]
    · simp [hid,ih hrest,Ne.symm hid]

theorem wins_iff_writes {winner : EntryHash} :
    Wins before (values.map Prod.fst).toFinset winner ↔ winner ∈ values.map Prod.fst ∧
      (∀ other ∈ values, ¬ before winner other.1) ∧
        ∀ rival ∈ values, (∀ other ∈ values, ¬ before rival.1 other.1) → rival.1 ≤ winner := by
  have hlatest : ∀ id, Latest before (values.map Prod.fst).toFinset id ↔
      id ∈ values.map Prod.fst ∧ ∀ other ∈ values, ¬ before id other.1 := by
    intro id
    simp only [Latest,List.mem_toFinset,List.forall_mem_map]
  simp only [Wins,hlatest,and_imp,List.forall_mem_map,and_assoc]

section Relation

variable (hbefore : ∀ first second, isAncestor first second = true ↔ before first second)

include hbefore

theorem max?_latest {winner : EntryHash} :
    ((values.map Prod.fst).filter fun candidate =>
        !(values.map Prod.fst).any (isAncestor candidate)).max? = some winner ↔
      Wins before (values.map Prod.fst).toFinset winner := by
  have hlatest : ∀ id, id ∈ ((values.map Prod.fst).filter fun candidate =>
      !(values.map Prod.fst).any (isAncestor candidate)) ↔
        Latest before (values.map Prod.fst).toFinset id := by
    intro id
    simp only [Latest,List.mem_toFinset,List.mem_filter,Bool.not_eq_true',List.any_eq_false,hbefore]
  simp only [List.max?_eq_some_iff,hlatest,Wins]

theorem register_eq_some (hunique : (values.map Prod.fst).Nodup) {value : T} :
    resolveRegister isAncestor values = some value ↔
      ∃ winner, Wins before (values.map Prod.fst).toFinset winner ∧ (winner,value) ∈ values := by
  simp only [resolveRegister]
  split
  · rename_i hnone
    have hempty : ∀ winner, ¬ Wins before (values.map Prod.fst).toFinset winner := by
      intro winner hwins
      rw [(max?_latest hbefore).mpr hwins] at hnone
      cases hnone
    simp [hempty]
  · rename_i winner hsome
    have hwins := (max?_latest hbefore).mp hsome
    rw [findSome?_id hunique]
    constructor
    · exact fun h => ⟨winner,hwins,h⟩
    · rintro ⟨other,hother,hmem⟩
      rwa [hwins.unique hother]

theorem register_eq_none [IsStrictOrder EntryHash before] :
    resolveRegister isAncestor values = none ↔ values = [] := by
  constructor
  · intro h
    by_contra hne
    have hids : (values.map Prod.fst).toFinset.Nonempty := by
      rw [List.toFinset_nonempty_iff]
      simpa using hne
    obtain ⟨winner,hwins⟩ := exists_wins before hids
    have hmem := List.mem_toFinset.mp hwins.mem
    obtain ⟨⟨id,value⟩,hvalue,rfl⟩ := List.mem_map.mp hmem
    simp only [resolveRegister,(max?_latest hbefore).mpr hwins,List.findSome?_eq_none_iff] at h
    simpa using h (id,value) hvalue
  · rintro rfl
    rfl

/-- Two registers with the same writes agree where the same ids win. -/
theorem register_congr {other : EntryHash → EntryHash → Bool}
    {after : EntryHash → EntryHash → Prop} {written : List (EntryHash × T)}
    (hafter : ∀ first second, other first second = true ↔ after first second)
    (hvalues : (values.map Prod.fst).Nodup) (hwritten : (written.map Prod.fst).Nodup)
    (hsame : ∀ write, write ∈ written → write ∈ values)
    (hwins : ∀ winner, Wins before (values.map Prod.fst).toFinset winner ↔
      Wins after (written.map Prod.fst).toFinset winner) :
    resolveRegister isAncestor values = resolveRegister other written := by
  refine Option.ext fun value => ?_
  rw [register_eq_some hbefore hvalues,register_eq_some hafter hwritten]
  refine exists_congr fun winner => ?_
  rw [hwins winner]
  refine and_congr_right fun hwinner => ⟨fun hmem => ?_,hsame _⟩
  obtain ⟨⟨id,stored⟩,hstored,rfl⟩ := List.mem_map.mp (List.mem_toFinset.mp hwinner.mem)
  have hvalue := List.inj_on_of_nodup_map hvalues hmem (hsame _ hstored) rfl
  rwa [hvalue]

end Relation

/-- Over any strict reachability relation a register is empty only if nothing was written. Its
value is the write's that no other write follows, of the largest hash among those; the order of
the writes, and the writes that a remaining one follows, do not matter. -/
theorem register_picks_maximal
    (hstrict : IsStrictOrder EntryHash fun first second => isAncestor first second = true)
    (hunique : (values.map Prod.fst).Nodup) :
    ((resolveRegister isAncestor values).isSome = true ↔ values ≠ []) ∧
    (∀ value, resolveRegister isAncestor values = some value ↔ ∃ winner,
      (winner,value) ∈ values ∧ (∀ other ∈ values, isAncestor winner other.1 = false) ∧
        ∀ rival ∈ values, (∀ other ∈ values, isAncestor rival.1 other.1 = false) →
          rival.1 ≤ winner) ∧
    (∀ permuted, permuted.Perm values →
      resolveRegister isAncestor permuted = resolveRegister isAncestor values) ∧
    ∀ kept, kept ⊆ values → (kept.map Prod.fst).Nodup →
      (∀ write ∈ values, write ∉ kept → ∃ later ∈ kept, isAncestor write.1 later.1 = true) →
        resolveRegister isAncestor kept = resolveRegister isAncestor values := by
  have hself : ∀ first second, isAncestor first second = true ↔ isAncestor first second = true :=
    fun _ _ => Iff.rfl
  refine ⟨?_,fun value => ?_,fun permuted hperm => ?_,fun kept hsub hkept hbelow => ?_⟩
  · rw [Option.isSome_iff_ne_none,ne_eq,register_eq_none hself]
  · rw [register_eq_some hself hunique]
    refine exists_congr fun winner => ?_
    simp only [wins_iff_writes,Bool.not_eq_true]
    constructor
    · rintro ⟨⟨-,hlast,hlargest⟩,hmem⟩
      exact ⟨hmem,hlast,hlargest⟩
    · rintro ⟨hmem,hlast,hlargest⟩
      exact ⟨⟨List.mem_map_of_mem hmem,hlast,hlargest⟩,hmem⟩
  · have hids : (permuted.map Prod.fst).toFinset = (values.map Prod.fst).toFinset :=
      List.toFinset_eq_of_perm _ _ (hperm.map _)
    refine (register_congr hself hself hunique ((hperm.map _).nodup_iff.mpr hunique)
      (fun write => hperm.mem_iff.mp) fun winner => ?_).symm
    rw [hids]
  · refine (register_congr hself hself hunique hkept (fun write hwrite => hsub hwrite)
      fun winner => wins_iff_of_latest_kept ?_ fun id hlatest => ?_).symm
    · intro id hid
      obtain ⟨write,hwrite,rfl⟩ := List.mem_map.mp (List.mem_toFinset.mp hid)
      exact List.mem_toFinset.mpr (List.mem_map_of_mem (hsub hwrite))
    · obtain ⟨write,hwrite,rfl⟩ := List.mem_map.mp (List.mem_toFinset.mp hlatest.1)
      by_contra hmissing
      have habsent : write ∉ kept :=
        fun hmem => hmissing (List.mem_toFinset.mpr (List.mem_map_of_mem hmem))
      -- a write that was left out lies below one that was kept, so it is not latest
      obtain ⟨later,hlater,habove⟩ := hbelow write hwrite habsent
      exact hlatest.2 later.1 (List.mem_toFinset.mpr (List.mem_map_of_mem (hsub hlater))) habove

end Register

section Resolve

variable {T : Type} {history : DagSnapshot} {values : List (EntryHash × T)}

theorem isAncestor_strict (history : DagSnapshot) :
    IsStrictOrder EntryHash fun first second => history.isAncestor first second = true := by
  simp only [CausalDag.DagSnapshot.isAncestor_iff]
  exact inferInstanceAs (IsStrictOrder EntryHash history.Ancestor)

/-- Two writes that follow the first one, and not each other: the larger hash wins, also with the
first one left out. -/
theorem register_picks_maximal_fork :
    let entry := fun (hash : EntryHash) (prevs : Position) => (⟨hash,prevs,.other []⟩ : Entry)
    let history : DagSnapshot := ⟨[entry 3 {1},entry 2 {1},entry 1 ∅],by decide⟩
    resolveRegister history.isAncestor [(1,"first"),(3,"third"),(2,"second")] = some "third" ∧
      resolveRegister history.isAncestor [(2,"second"),(3,"third")] = some "third" := by
  intro entry history
  have hunique : (([(1,"first"),(3,"third"),(2,"second")] : List (EntryHash × String)).map
      Prod.fst).Nodup := by decide
  obtain ⟨-,hvalue,-,hkept⟩ := register_picks_maximal (isAncestor_strict history) hunique
  exact ⟨(hvalue "third").mpr ⟨3,by decide,by decide,by decide⟩,
    (hkept [(2,"second"),(3,"third")] (by decide) (by decide) (by decide)).trans
      ((hvalue "third").mpr ⟨3,by decide,by decide,by decide⟩)⟩

theorem resolveRegister_eq_some (hunique : (values.map Prod.fst).Nodup) {value : T} :
    resolveRegister history.isAncestor values = some value ↔
      ∃ winner, Wins history.Ancestor (values.map Prod.fst).toFinset winner ∧
        (winner,value) ∈ values :=
  register_eq_some (fun _ _ => CausalDag.DagSnapshot.isAncestor_iff) hunique

theorem resolveRegister_eq_none :
    resolveRegister history.isAncestor values = none ↔ values = [] :=
  register_eq_none fun _ _ =>
    (CausalDag.DagSnapshot.isAncestor_iff : _ ↔ history.Ancestor _ _)

/-- A register depends on what was written and on the causal order of the writes only. -/
theorem resolveRegister_congr {other : DagSnapshot} {written : List (EntryHash × T)}
    (hvalues : (values.map Prod.fst).Nodup) (hwritten : (written.map Prod.fst).Nodup)
    (hsame : ∀ write, write ∈ values ↔ write ∈ written)
    (horder : ∀ first ∈ values, ∀ second ∈ values,
      history.Ancestor first.1 second.1 ↔ other.Ancestor first.1 second.1) :
    resolveRegister history.isAncestor values = resolveRegister other.isAncestor written := by
  have hids : (values.map Prod.fst).toFinset = (written.map Prod.fst).toFinset := by
    ext id
    simp only [List.mem_toFinset,List.mem_map,hsame]
  refine register_congr (fun _ _ => CausalDag.DagSnapshot.isAncestor_iff)
    (fun _ _ => CausalDag.DagSnapshot.isAncestor_iff) hvalues hwritten
    (fun write => (hsame write).mpr) fun winner => ?_
  rw [← hids]
  refine Wins.congr fun first hfirst second hsecond => ?_
  obtain ⟨write,hwrite,rfl⟩ := List.mem_map.mp (List.mem_toFinset.mp hfirst)
  obtain ⟨later,hlater,rfl⟩ := List.mem_map.mp (List.mem_toFinset.mp hsecond)
  exact horder write hwrite later hlater

end Resolve

end WalkieSongie.Extension
