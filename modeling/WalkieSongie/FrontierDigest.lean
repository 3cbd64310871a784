import Mathlib.Logic.Equiv.List
import WalkieSongie.ByteFormat
import WalkieSongie.CausalDag
import WalkieSongie.ReplicaWorker
set_option autoImplicit false

/-!
The digest of a lane's frontier, by which two peers tell without repair whether they hold the same
history.
-/

namespace WalkieSongie.FrontierDigest
open ByteFormat CausalDag Replica

inductive EncoderField where
  | bytes (bytes : List UInt8)
  | u64 (value : Nat)
  | digest (digest : Digest)
  deriving DecidableEq

def EncoderField.kind : EncoderField → Nat
  | .bytes _ => 0
  | .u64 _ => 1
  | .digest _ => 2

structure HashLibrary where
  /-- The bytes that an encoder has written. -/
  encode : List EncoderField → List UInt8
  hash : List UInt8 → Digest
  Payload : Type
  /-- The hash of an entry, from its predecessors and its payload. -/
  entryHash : Finset EntryHash → Payload → EntryHash

variable (H : HashLibrary)

def frontierDigestDomain : List UInt8 := ascii "walkie replica frontier v5\x00"

/-- The causally maximal entries, in ascending order behind their number. -/
def replicaFrontierDigest (frontier : Position) : Digest :=
  H.hash (H.encode (.bytes frontierDigestDomain :: .u64 (positionBytes frontier).length ::
    (positionBytes frontier).map .digest))

abbrev History := DagSnapshot EntryHash H.Payload

abbrev ReplicaRepairProbe := RepairProbe Digest Digest

structure RoomReplicas where
  music : History H
  extension : History H

variable {H}

def RoomReplicas.snapshot (replicas : RoomReplicas H) : RoomLane → History H
  | .music => replicas.music
  | .extension => replicas.extension

def RoomReplicas.probe (replicas : RoomReplicas H) (lane : RoomLane) (source : Digest) :
    ReplicaRepairProbe :=
  ⟨lane,source,replicaFrontierDigest H (replicas.snapshot lane).frontier⟩

def RoomReplicas.handleProbe (replicas : RoomReplicas H) (probe : ReplicaRepairProbe) :
    Option (Digest × RoomLane) :=
  if replicaFrontierDigest H (replicas.snapshot probe.lane).frontier ≠ probe.frontier then
    some (probe.source,probe.lane)
  else none

/-- Hashes name their entries, predecessors and all. -/
def Committed (history : History H) : Prop :=
  ∀ entry ∈ history.newestFirst, entry.hash = H.entryHash entry.prevs entry.payload

/-- The documented properties of the hashes: no collisions, and an encoder whose fields show where
they end to a reader who knows their kinds. -/
structure CollisionFree (H : HashLibrary) : Prop where
  encode : ∀ field field' fields fields', field.kind = field'.kind →
    H.encode (field :: fields) = H.encode (field' :: fields') →
      field = field' ∧ H.encode fields = H.encode fields'
  hash : Function.Injective H.hash
  entryHash : ∀ prevs prevs' payload payload', H.entryHash prevs payload =
    H.entryHash prevs' payload' → prevs = prevs' ∧ payload = payload'

theorem CollisionFree.digests (hfree : CollisionFree H) (first second : List Digest)
    (hlength : first.length = second.length)
    (h : H.encode (first.map .digest) = H.encode (second.map .digest)) : first = second := by
  induction first generalizing second with
  | nil => exact (List.eq_nil_of_length_eq_zero hlength.symm).symm
  | cons digest rest ih =>
      cases second with
      | nil => simp at hlength
      | cons other others =>
          obtain ⟨hsame,hrest⟩ := hfree.encode (.digest digest) (.digest other) _ _ rfl h
          have hothers := ih others (by simpa using hlength) hrest
          simp_all

theorem replicaFrontierDigest_inj (hfree : CollisionFree H) {first second : Position} :
    replicaFrontierDigest H first = replicaFrontierDigest H second ↔ first = second := by
  constructor
  · intro h
    have hencoded := hfree.hash h
    obtain ⟨-,hcounted⟩ := hfree.encode (.bytes frontierDigestDomain)
      (.bytes frontierDigestDomain) _ _ rfl hencoded
    obtain ⟨hnumber,hdigests⟩ := hfree.encode (.u64 (positionBytes first).length)
      (.u64 (positionBytes second).length) _ _ rfl hcounted
    have hlength := EncoderField.u64.inj hnumber
    exact positionBytes_injective (hfree.digests _ _ hlength hdigests)
  · rintro rfl
    rfl

theorem Committed.names (hfree : CollisionFree H) {first second : History H}
    (hfirst : Committed first) (hsecond : Committed second) :
    ∀ entry ∈ first.newestFirst, ∀ other ∈ second.newestFirst,
      entry.hash = other.hash → entry = other := by
  intro entry hentry other hother hhash
  have hcommits := hfirst entry hentry
  rw [hhash,hsecond other hother] at hcommits
  obtain ⟨hprevs,hpayload⟩ := hfree.entryHash _ _ _ _ hcommits
  cases entry
  cases other
  simp_all

theorem frontierDigest_eq_iff (hfree : CollisionFree H) {first second : History H}
    (hfirst : Committed first) (hsecond : Committed second) :
    replicaFrontierDigest H first.frontier = replicaFrontierDigest H second.frontier ↔
      first.SameEntries second := by
  rw [replicaFrontierDigest_inj hfree]
  constructor
  · exact DagSnapshot.sameEntries_of_frontier (hfirst.names hfree hsecond)
  · exact DagSnapshot.SameEntries.frontier

/-- Equal probes mean equal histories: the digests of two frontiers agree exactly when the entries
do, so a handler that skips repair holds every entry of the peer, and one that holds the same
history never opens it. -/
theorem frontier_probe_exact (hfree : CollisionFree H) (local' peer : RoomReplicas H)
    (lane : RoomLane) (source : Digest) (hlocal : Committed (local'.snapshot lane))
    (hpeer : Committed (peer.snapshot lane)) :
    (replicaFrontierDigest H (local'.snapshot lane).frontier =
        replicaFrontierDigest H (peer.snapshot lane).frontier ↔
      (local'.snapshot lane).SameEntries (peer.snapshot lane)) ∧
    (local'.handleProbe (peer.probe lane source) = none →
      ∀ entry ∈ (peer.snapshot lane).newestFirst, entry ∈ (local'.snapshot lane).newestFirst) ∧
    ((local'.snapshot lane).SameEntries (peer.snapshot lane) →
      local'.handleProbe (peer.probe lane source) = none) := by
  have hiff := frontierDigest_eq_iff hfree hlocal hpeer
  refine ⟨hiff,?_,?_⟩
  · intro hskips entry hentry
    have hdigest : replicaFrontierDigest H (local'.snapshot lane).frontier =
        replicaFrontierDigest H (peer.snapshot lane).frontier := by
      by_contra hother
      simp [RoomReplicas.handleProbe,RoomReplicas.probe,hother] at hskips
    exact (hiff.mp hdigest entry).mpr hentry
  · intro hsame
    simp [RoomReplicas.handleProbe,RoomReplicas.probe,hiff.mpr hsame]

section Held

/-- A digest behind its number of ones. -/
def unary (value : Nat) : List UInt8 :=
  List.replicate value 1 ++ [0]

theorem unary_append_inj {value value' : Nat} {rest rest' : List UInt8}
    (h : unary value ++ rest = unary value' ++ rest') : value = value' ∧ rest = rest' := by
  induction value generalizing value' with
  | zero =>
      cases value' with
      | zero => simpa [unary] using h
      | succ value' => simp [unary,List.replicate_succ] at h
  | succ value ih =>
      cases value' with
      | zero => simp [unary,List.replicate_succ] at h
      | succ value' =>
          have hless : unary value ++ rest = unary value' ++ rest' := by
            simpa [unary,List.replicate_succ] using h
          obtain ⟨rfl,hrest⟩ := ih hless
          exact ⟨rfl,hrest⟩

def writeField : EncoderField → List UInt8
  | .bytes bytes => unary bytes.length ++ bytes
  | .u64 value | .digest value => unary value

/-- Lengths stand before the bytes, and a hash is a number of its input. -/
def plainHashes : HashLibrary where
  encode fields := fields.flatMap writeField
  hash bytes := Encodable.encode (bytes.map UInt8.toNat)
  Payload := Nat
  entryHash prevs payload := Encodable.encode (positionBytes prevs,payload)

theorem plainHashes_free : CollisionFree plainHashes where
  encode := by
    intro field field' fields fields' hkind h
    have happend : writeField field ++ fields.flatMap writeField =
        writeField field' ++ fields'.flatMap writeField := by simpa [plainHashes] using h
    cases field <;> cases field' <;> simp only [EncoderField.kind] at hkind <;>
      try contradiction
    case bytes.bytes bytes bytes' =>
      simp only [writeField,List.append_assoc] at happend
      obtain ⟨hlength,hbytes⟩ := unary_append_inj happend
      obtain ⟨rfl,hfields⟩ := List.append_inj hbytes hlength
      exact ⟨rfl,hfields⟩
    all_goals
      obtain ⟨rfl,hfields⟩ := unary_append_inj happend
      exact ⟨rfl,hfields⟩
  hash := by
    have hbytes : Function.Injective (List.map UInt8.toNat) :=
      List.map_injective_iff.mpr fun _ _ => UInt8.toNat_inj.mp
    exact Encodable.encode_injective.comp hbytes
  entryHash := by
    intro prevs prevs' payload payload' h
    have hpair : ((positionBytes prevs,payload) : List EntryHash × Nat) =
        (positionBytes prevs',payload') := Encodable.encode_injective h
    obtain ⟨hprevs,hpayload⟩ := Prod.mk.inj hpair
    exact ⟨positionBytes_injective hprevs,hpayload⟩

def rootEntry (payload : Nat) : CausalDag.Entry EntryHash plainHashes.Payload :=
  ⟨plainHashes.entryHash ∅ payload,∅,payload⟩

theorem rootEntry_hash_ne {payload payload' : Nat} (h : payload ≠ payload') :
    (rootEntry payload).hash ≠ (rootEntry payload').hash := by
  intro hsame
  exact h (plainHashes_free.entryHash _ _ _ _ hsame).2

def twoRoots (payload payload' : Nat) (h : payload ≠ payload') : History plainHashes where
  newestFirst := [rootEntry payload,rootEntry payload']
  topological := by
    have hne := rootEntry_hash_ne h
    have hprevs : ∀ payload, (rootEntry payload).prevs = ∅ := fun _ => rfl
    simp only [CausalDag.Topological]
    simp [hne,hprevs]

theorem twoRoots_committed {payload payload' : Nat} (h : payload ≠ payload') :
    Committed (twoRoots payload payload' h) := by
  intro entry hentry
  rcases List.mem_pair.mp hentry with rfl | rfl
  · rfl
  · rfl

def rootReplicas : RoomReplicas plainHashes :=
  ⟨twoRoots 0 1 Nat.zero_ne_one,twoRoots 0 1 Nat.zero_ne_one⟩

def turnedReplicas : RoomReplicas plainHashes :=
  ⟨twoRoots 1 0 Nat.one_ne_zero,twoRoots 1 0 Nat.one_ne_zero⟩

end Held

/-- Two replicas that admitted the same two concurrent entries in either order skip the repair. -/
theorem frontier_probe_exact_roots :
    rootReplicas.handleProbe (turnedReplicas.probe .music 7) = none := by
  have hlocal : Committed (rootReplicas.snapshot .music) := twoRoots_committed Nat.zero_ne_one
  have hpeer : Committed (turnedReplicas.snapshot .music) := twoRoots_committed Nat.one_ne_zero
  have hexact := frontier_probe_exact plainHashes_free rootReplicas turnedReplicas .music 7 hlocal
    hpeer
  apply hexact.2.2
  intro entry
  exact List.mem_pair.trans (Or.comm.trans List.mem_pair.symm)

end WalkieSongie.FrontierDigest
