import Mathlib.Data.Finset.Basic
set_option autoImplicit false

/-!
Keys that are held: each touch of a key marks it pressed or released, or is passed over.
-/

namespace WalkieSongie.HeldKeys

variable {κ : Type} [DecidableEq κ]

/-- A key is pressed or released, and the holder of the marks takes it or not; or all marks go. -/
inductive Touch (κ : Type) where
  | key (key : κ) (pressed marked : Bool)
  | clear

def apply (held : Finset κ) : Touch κ → Finset κ
  | .key key pressed marked =>
    if marked then if pressed then insert key held else held.erase key else held
  | .clear => ∅

def run (held : Finset κ) (touches : List (Touch κ)) : Finset κ := touches.foldl apply held

theorem run_append (held : Finset κ) (first second : List (Touch κ)) :
    run held (first ++ second) = run (run held first) second := by
  simp [run]

def Touch.of (key : κ) : Touch κ → Option Bool
  | .key other pressed _ => if other = key then some pressed else none
  | .clear => none

def Touch.markOf (key : κ) : Touch κ → Option Bool
  | .key other pressed marked => if other = key ∧ marked = true then some pressed else none
  | .clear => some false

def last (key : κ) (touches : List (Touch κ)) : Option Bool :=
  touches.reverse.findSome? (Touch.of key)

def lastMark (key : κ) (touches : List (Touch κ)) : Option Bool :=
  touches.reverse.findSome? (Touch.markOf key)

theorem last_snoc (key : κ) (touches : List (Touch κ)) (touch : Touch κ) :
    last key (touches ++ [touch]) = (touch.of key).or (last key touches) := by
  simp only [last,List.reverse_append,List.reverse_singleton,List.singleton_append,
    List.findSome?_cons]
  cases touch.of key <;> rfl

theorem lastMark_snoc (key : κ) (touches : List (Touch κ)) (touch : Touch κ) :
    lastMark key (touches ++ [touch]) = (touch.markOf key).or (lastMark key touches) := by
  simp only [lastMark,List.reverse_append,List.reverse_singleton,List.singleton_append,
    List.findSome?_cons]
  cases touch.markOf key <;> rfl

theorem mem_run (key : κ) (touches : List (Touch κ)) :
    key ∈ run ∅ touches ↔ lastMark key touches = some true := by
  induction touches using List.reverseRecOn with
  | nil => simp [run,lastMark]
  | append_singleton touches touch ih =>
    rw [run_append,lastMark_snoc]
    cases touch with
    | clear => simp [run,apply,Touch.markOf]
    | key other pressed marked =>
      by_cases hother : other = key
      · subst other
        cases marked <;> cases pressed <;> simp [run,apply,Touch.markOf] at ih ⊢ <;> exact ih
      · have hfar : ¬ key = other := fun hsame => hother hsame.symm
        cases marked <;> cases pressed <;> simp [run,apply,Touch.markOf,hother,hfar] at ih ⊢ <;>
          exact ih

theorem last_of_mark {key : κ} {touches : List (Touch κ)}
    (h : lastMark key touches = some true) : (last key touches).isSome := by
  induction touches using List.reverseRecOn with
  | nil => simp [lastMark] at h
  | append_singleton touches touch ih =>
    rw [lastMark_snoc] at h
    rw [last_snoc]
    cases touch with
    | clear => simp [Touch.markOf] at h
    | key other pressed marked =>
      by_cases hother : other = key
      · simp [Touch.of,hother]
      · simp only [Touch.markOf,hother,false_and,if_false,Option.none_or] at h
        simp [Touch.of,hother,ih h]

/-- Where a key that was released last is not marked pressed, only keys that were pressed last are
held, and the other way round. -/
theorem held_pressed_iff (touches : List (Touch κ)) :
    (∀ key ∈ run ∅ touches, last key touches = some true) ↔
      ∀ key, last key touches = some false → lastMark key touches ≠ some true := by
  constructor
  · intro h key hreleased hmark
    have hpressed := h key ((mem_run key touches).mpr hmark)
    simp [hreleased] at hpressed
  · intro h key hmem
    have hmark := (mem_run key touches).mp hmem
    obtain ⟨pressed,hlast⟩ := Option.isSome_iff_exists.mp (last_of_mark hmark)
    cases pressed with
    | true => exact hlast
    | false => exact absurd hmark (h key hlast)

end WalkieSongie.HeldKeys
