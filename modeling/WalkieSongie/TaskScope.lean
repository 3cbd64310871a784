import Mathlib.Logic.Relation
import Mathlib.Data.List.Basic
set_option autoImplicit false

/-!
Scopes of tasks: a scope starts tasks until it is closed for some cause, and is given up when none
of them runs any more.
-/

inductive TaskState where
  | running
  | completed
  | aborted
  deriving DecidableEq

def TaskState.abort : TaskState → TaskState
  | .running => .aborted
  | state => state

/-- Why the scope was closed, all tasks it has started, and whether it was given up. -/
structure TaskScope (Cause : Type) where
  exit : Option Cause
  tasks : List TaskState
  released : Bool

namespace TaskScope

variable {Cause : Type} {scope later : TaskScope Cause}

inductive Step : TaskScope Cause → TaskScope Cause → Prop
  | start (scope : TaskScope Cause) (hopen : scope.exit = none) (hheld : scope.released = false) :
      Step scope { scope with tasks := scope.tasks ++ [.running] }
  | complete (scope : TaskScope Cause) (task : Nat)
      (hrunning : scope.tasks[task]? = some .running) :
      Step scope { scope with tasks := scope.tasks.set task .completed }
  | close (scope : TaskScope Cause) (cause : Cause) (hopen : scope.exit = none) :
      Step scope { scope with exit := some cause }
  | release (scope : TaskScope Cause) (hclosed : scope.exit ≠ none)
      (hended : .running ∉ scope.tasks) :
      Step scope { scope with released := true }
  | abort (scope : TaskScope Cause) (hclosed : scope.exit ≠ none) :
      Step scope { scope with tasks := scope.tasks.map TaskState.abort, released := true }

abbrev Later : TaskScope Cause → TaskScope Cause → Prop := Relation.ReflTransGen Step

theorem Step.exit {cause : Cause} (h : Step scope later) (hexit : scope.exit = some cause) :
    later.exit = some cause := by
  cases h with
  | start hopen => rw [hopen] at hexit; cases hexit
  | complete => exact hexit
  | close cause' hopen => rw [hopen] at hexit; cases hexit
  | release => exact hexit
  | abort => exact hexit

theorem Step.length (h : Step scope later) (hclosed : scope.exit ≠ none) :
    later.tasks.length = scope.tasks.length := by
  cases h with
  | start hopen => exact absurd hopen hclosed
  | complete task => exact List.length_set
  | close cause hopen => exact absurd hopen hclosed
  | release => rfl
  | abort => exact List.length_map _

theorem Later.closed {cause : Cause} (h : Later scope later) (hexit : scope.exit = some cause) :
    later.exit = some cause ∧ later.tasks.length = scope.tasks.length := by
  induction h with
  | refl => exact ⟨hexit,rfl⟩
  | tail _ hstep ih =>
    have hclosed := Option.ne_none_iff_exists'.mpr ⟨cause,ih.1⟩
    exact ⟨hstep.exit ih.1,(hstep.length hclosed).trans ih.2⟩

/-- A scope is given up only when it is closed and none of its tasks runs. -/
structure Ended (scope : TaskScope Cause) : Prop where
  closed : scope.released = true → scope.exit ≠ none
  quiet : scope.released = true → .running ∉ scope.tasks

theorem running_not_mem_abort (tasks : List TaskState) :
    .running ∉ tasks.map TaskState.abort := by
  rw [List.mem_map]
  rintro ⟨state,-,habort⟩
  cases state <;> cases habort

theorem Step.ended (h : Step scope later) (hended : scope.Ended) : later.Ended := by
  cases h with
  | start hopen hheld =>
    constructor <;> intro hreleased <;> exact absurd (hheld.symm.trans hreleased) (by simp)
  | complete task hrunning =>
    constructor
    · exact hended.closed
    · intro hreleased
      exact absurd (List.mem_of_getElem? hrunning) (hended.quiet hreleased)
  | close cause hopen => exact ⟨fun _ => Option.some_ne_none _,hended.quiet⟩
  | release hclosed hquiet => exact ⟨fun _ => hclosed,fun _ => hquiet⟩
  | abort hclosed => exact ⟨fun _ => hclosed,fun _ => running_not_mem_abort _⟩

theorem Later.ended (h : Later scope later) (hended : scope.Ended) : later.Ended := by
  induction h with
  | refl => exact hended
  | tail _ hstep ih => exact hstep.ended ih

theorem Later.released (h : Later scope later) (hended : scope.Ended)
    (hreleased : scope.released = true) : later = scope := by
  induction h with
  | refl => rfl
  | tail _ hstep ih =>
    rw [ih] at hstep
    cases hstep with
    | start hopen => exact absurd hopen (hended.closed hreleased)
    | complete task hrunning =>
      exact absurd (List.mem_of_getElem? hrunning) (hended.quiet hreleased)
    | close cause hopen => exact absurd hopen (hended.closed hreleased)
    | release => rw [← hreleased]
    | abort =>
      have hkept : ∀ state ∈ scope.tasks, state.abort = state := by
        intro state hmem
        cases state with
        | running => exact absurd hmem (hended.quiet hreleased)
        | completed => rfl
        | aborted => rfl
      have htasks : scope.tasks.map TaskState.abort = scope.tasks := by
        rw [List.map_congr_left hkept,List.map_id']
      rw [htasks,← hreleased]

end TaskScope
