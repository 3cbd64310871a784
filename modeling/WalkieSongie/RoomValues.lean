import Mathlib.Algebra.Group.Nat.Defs
import Mathlib.Data.Finset.Basic
import Mathlib.Data.List.Sort
set_option autoImplicit false

/-! Identifiers and musical values that the lanes and the sessions of a room share. -/

namespace WalkieSongie

/-- A 32-byte value; byte strings of one length compare like the numbers they spell. -/
abbrev Digest := Nat
abbrev EntryHash := Digest
abbrev ActorId := Digest

/-- A position in a history is the set of entries it stands on. -/
abbrev Position := Finset EntryHash

/-- A position as its frames and requests spell it, in ascending order. -/
def positionBytes (position : Position) : List EntryHash :=
  Quot.lift (List.insertionSort (· ≤ ·))
    (fun first second hperm => List.Perm.eq_of_pairwise (fun _ _ _ _ => Nat.le_antisymm)
      (List.pairwise_insertionSort _ first) (List.pairwise_insertionSort _ second)
      ((List.perm_insertionSort _ first).trans
        (hperm.trans (List.perm_insertionSort _ second).symm)))
    position.val

theorem positionBytes_coe (position : Position) :
    (positionBytes position : Multiset EntryHash) = position.val := by
  obtain ⟨entries,hnodup⟩ := position
  induction entries using Quot.inductionOn with
  | h entries => exact Multiset.coe_eq_coe.mpr (List.perm_insertionSort _ entries)

theorem positionBytes_injective : Function.Injective positionBytes := by
  intro first second h
  apply Finset.val_injective
  rw [← positionBytes_coe,← positionBytes_coe,h]

abbrev Bytes := List UInt8

/-- The anti-replay floor of one peer: the last session epoch, its manifest and its base. -/
structure SessionRenewalFloor where
  epoch : Nat
  manifest : Digest
  base : Position
  deriving DecidableEq

structure RoomSessionRenewalKey where
  room : Digest
  localActor : ActorId
  peer : ActorId
  deriving DecidableEq

structure TunedDegree where
  tuningId : Digest
  degree : Nat
  deriving DecidableEq

structure TunedPeriodicPitch where
  tuningId : Digest
  degree : Nat
  period : Int
  deriving DecidableEq

structure SharedPitchSet where
  pitchClasses : Finset TunedDegree
  pitches : Finset TunedPeriodicPitch
  deriving DecidableEq

end WalkieSongie
