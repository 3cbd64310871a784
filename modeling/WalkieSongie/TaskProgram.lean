import Mathlib.Init
set_option autoImplicit false

/-!
Rules for programs that may fail: exceptions alone, and exceptions over a state that is kept
when one is thrown.
-/

namespace WalkieSongie.TaskProgram

/-- The early exit of a checked operation. -/
def refuseIf {ε : Type} {m : Type → Type} [Monad m] [MonadExceptOf ε m] (bad : Prop)
    [Decidable bad] (error : ε) : m Unit :=
  if bad then throw error else pure ()

/-- A call on a library that fails where it gives an error. -/
def raise {ε : Type} {m : Type → Type} [Monad m] [MonadExceptOf ε m] : Option ε → m Unit
  | none => pure ()
  | some error => throw error

section Exceptions

variable {ε α β : Type}

theorem bind_eq_ok {first : Except ε α} {next : α → Except ε β} {result : β} :
    (first >>= next) = .ok result ↔ ∃ value, first = .ok value ∧ next value = .ok result := by
  cases first with
  | error error => simp [bind,Except.bind]
  | ok value => simp [bind,Except.bind]

theorem refuseIf_eq_ok {bad : Prop} [Decidable bad] {error : ε} {result : Unit} :
    (refuseIf bad error : Except ε Unit) = .ok result ↔ ¬ bad := by
  by_cases h : bad
  · simp [refuseIf,h,throw,throwThe,MonadExceptOf.throw]
  · simp [refuseIf,h,pure,Except.pure]

theorem raise_eq_ok {error : Option ε} {result : Unit} :
    (raise error : Except ε Unit) = .ok result ↔ error = none := by
  cases error with
  | none => simp [raise,pure,Except.pure]
  | some error => simp [raise,throw,throwThe,MonadExceptOf.throw]

end Exceptions

section KeptState

variable {ε σ τ α β : Type}

/-- Whichever way a program ended, its value or its error and the state it left satisfy this. -/
def Post (Q : α → σ → Prop) (E : ε → σ → Prop) : EStateM.Result ε σ α → Prop
  | .ok value state => Q value state
  | .error error state => E error state

variable {Q : α → σ → Prop} {E : ε → σ → Prop} {state : σ}

theorem Post.mono {Q' : α → σ → Prop} {E' : ε → σ → Prop} {result : EStateM.Result ε σ α}
    (h : Post Q' E' result) (hok : ∀ value state, Q' value state → Q value state)
    (herror : ∀ error state, E' error state → E error state) : Post Q E result := by
  cases result with
  | ok value state => exact hok value state h
  | error error state => exact herror error state h

theorem Post.and {Q' : α → σ → Prop} {E' : ε → σ → Prop} {result : EStateM.Result ε σ α}
    (h : Post Q E result) (h' : Post Q' E' result) :
    Post (fun value state => Q value state ∧ Q' value state)
      (fun error state => E error state ∧ E' error state) result := by
  cases result with
  | ok value state => exact ⟨h,h'⟩
  | error error state => exact ⟨h,h'⟩

theorem Post.pure {value : α} (h : Q value state) :
    Post Q E ((Pure.pure value : EStateM ε σ α) state) := h

theorem Post.bind {first : EStateM ε σ β} {next : β → EStateM ε σ α} {R : β → σ → Prop}
    (h : Post R E (first state))
    (hnext : ∀ value state, R value state → Post Q E (next value state)) :
    Post Q E ((first >>= next) state) := by
  simp only [Bind.bind,EStateM.bind]
  cases hfirst : first state with
  | ok value after => exact hnext value after (by rw [hfirst] at h; exact h)
  | error error after => exact (by rw [hfirst] at h; exact h : Post R E (.error error after))

theorem bind_of_ok {first : EStateM ε σ β} {next : β → EStateM ε σ α} {value : β} {after : σ}
    (h : first state = .ok value after) : (first >>= next) state = next value after := by
  simp only [Bind.bind,EStateM.bind,h]

theorem bind_of_error {first : EStateM ε σ β} {next : β → EStateM ε σ α} {error : ε} {after : σ}
    (h : first state = .error error after) : (first >>= next) state = .error error after := by
  simp only [Bind.bind,EStateM.bind,h]

theorem Post.getting {next : σ → EStateM ε σ α} (h : Post Q E (next state state)) :
    Post Q E ((MonadState.get >>= next) state) := h

theorem Post.modifying {f : σ → σ} {next : Unit → EStateM ε σ α}
    (h : Post Q E (next () (f state))) : Post Q E ((modify f >>= next) state) := h

theorem Post.setting {later : σ} {next : PUnit → EStateM ε σ α}
    (h : Post Q E (next ⟨⟩ later)) : Post Q E ((set later >>= next) state) := h

theorem Post.refuseIf {bad : Prop} [Decidable bad] {error : ε} {next : Unit → EStateM ε σ α}
    (hbad : bad → E error state) (hgood : ¬ bad → Post Q E (next () state)) :
    Post Q E ((TaskProgram.refuseIf bad error >>= next) state) := by
  unfold TaskProgram.refuseIf
  by_cases h : bad
  · rw [if_pos h]
    exact hbad h
  · rw [if_neg h]
    exact hgood h

theorem Post.raise {fault : Option ε} {next : Unit → EStateM ε σ α}
    (hbad : ∀ error, fault = some error → E error state)
    (hgood : fault = none → Post Q E (next () state)) :
    Post Q E ((TaskProgram.raise fault >>= next) state) := by
  cases fault with
  | none => exact hgood rfl
  | some error => exact hbad error rfl

theorem Post.ite {bad : Prop} [Decidable bad] {first second : EStateM ε σ α}
    (hfirst : bad → Post Q E (first state)) (hsecond : ¬ bad → Post Q E (second state)) :
    Post Q E ((if bad then first else second) state) := by
  by_cases h : bad
  · simpa only [h,if_true] using hfirst h
  · simpa only [h,if_false] using hsecond h

theorem Post.forM {items : List β} {body : β → EStateM ε σ PUnit} (I : σ → Prop) (h : I state)
    (hbody : ∀ item ∈ items, ∀ state, I state → Post (fun _ => I) E (body item state)) :
    Post (fun _ => I) E ((items.forM body : EStateM ε σ PUnit) state) := by
  induction items generalizing state with
  | nil => exact h
  | cons item rest ih =>
    refine Post.bind (hbody item List.mem_cons_self state h) fun _ state hstate => ?_
    exact ih hstate fun other hother => hbody other (List.mem_cons_of_mem item hother)

/-- Run a program and go on with its value or its error. -/
def attempt {ε' : Type} (program : EStateM ε σ α) : EStateM ε' σ (Except ε α) := fun state =>
  match program state with
  | .ok value after => .ok (.ok value) after
  | .error error after => .ok (.error error) after

theorem Post.attempt {ε' : Type} {E' : ε' → σ → Prop} {program : EStateM ε σ β}
    {next : Except ε β → EStateM ε' σ α} {Q' : α → σ → Prop}
    (h : Post (fun value after => Post Q' E' (next (.ok value) after))
      (fun error after => Post Q' E' (next (.error error) after)) (program state)) :
    Post Q' E' ((TaskProgram.attempt program >>= next) state) := by
  unfold TaskProgram.attempt
  simp only [Bind.bind,EStateM.bind]
  cases hrun : program state with
  | ok value after => rw [hrun] at h; exact h
  | error error after => rw [hrun] at h; exact h

/-- Run a program on a part of the state, which is put back also when it fails. -/
def onPart (part : σ → τ) (put : τ → σ → σ) (program : EStateM ε τ α) : EStateM ε σ α :=
  fun state => match program (part state) with
    | .ok value after => .ok value (put after state)
    | .error error after => .error error (put after state)

theorem Post.onPart {part : σ → τ} {put : τ → σ → σ} {program : EStateM ε τ α}
    (h : Post (fun value after => Q value (put after state))
      (fun error after => E error (put after state)) (program (part state))) :
    Post Q E (TaskProgram.onPart part put program state) := by
  unfold TaskProgram.onPart
  cases hrun : program (part state) with
  | ok value after => rw [hrun] at h; exact h
  | error error after => rw [hrun] at h; exact h

/-- However the program ends, the state it leaves is related to the one it found. -/
def Stays (R : σ → σ → Prop) (program : EStateM ε σ α) : Prop :=
  ∀ state, Post (fun _ => R state) (fun _ => R state) (program state)

section Stays

variable {R : σ → σ → Prop}

theorem Stays.pure (hrefl : ∀ state, R state state) (value : α) :
    Stays R (Pure.pure value : EStateM ε σ α) := hrefl

theorem Stays.throw (hrefl : ∀ state, R state state) (error : ε) :
    Stays R (MonadExcept.throw error : EStateM ε σ α) := hrefl

theorem Stays.bind (htrans : ∀ first second third, R first second → R second third →
      R first third) {first : EStateM ε σ β} {next : β → EStateM ε σ α} (h : Stays R first)
    (hnext : ∀ value, Stays R (next value)) : Stays R (first >>= next) := by
  intro state
  refine Post.bind (h state) fun value after hafter => ?_
  exact Post.mono (hnext value after) (fun _ last => htrans state after last hafter)
    fun _ last => htrans state after last hafter

theorem Stays.get {next : σ → EStateM ε σ α} (h : ∀ value, Stays R (next value)) :
    Stays R (MonadState.get >>= next) := fun state => h state state

theorem Stays.modifying {f : σ → σ} (h : ∀ state, R state (f state)) :
    Stays R (modify f : EStateM ε σ PUnit) := h

theorem Stays.refuseIf (hrefl : ∀ state, R state state) (bad : Prop) [Decidable bad] (error : ε) :
    Stays R (TaskProgram.refuseIf bad error : EStateM ε σ Unit) := by
  unfold TaskProgram.refuseIf
  split
  · exact Stays.throw hrefl error
  · exact Stays.pure hrefl ()

theorem Stays.onPart {part : σ → τ} {put : τ → σ → σ} (h : ∀ after state, R state (put after state))
    (program : EStateM ε τ α) : Stays R (TaskProgram.onPart part put program) := by
  intro state
  refine Post.onPart ?_
  cases program (part state) with
  | ok value after => exact h after state
  | error error after => exact h after state

end Stays

end KeptState

end WalkieSongie.TaskProgram
