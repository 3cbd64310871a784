import Mathlib.Data.List.Basic
set_option autoImplicit false

/-!
Logs in which an event may answer the requests before it, and the turns that some party takes
while a request waits.
-/

namespace RequestLog

variable {ε : Type} {request answer turn event : ε} {log : List ε} {bound : Nat}

/-- Some request in the log has no answer after it. -/
def Unanswered (request answer : ε) (log : List ε) : Prop :=
  ∃ later, request :: later <:+ log ∧ answer ∉ later

theorem not_unanswered_nil : ¬ Unanswered request answer [] := by
  rintro ⟨later,hsuffix,-⟩
  simp at hsuffix

theorem suffix_concat_cases {later : List ε} (h : request :: later <:+ log ++ [event]) :
    (event = request ∧ later = []) ∨
      ∃ before, later = before ++ [event] ∧ request :: before <:+ log := by
  rcases List.suffix_concat_iff.mp h with hnil | ⟨before,hbefore,hsuffix⟩
  · cases hnil
  · cases before with
    | nil =>
      simp at hbefore
      exact .inl ⟨hbefore.1.symm,hbefore.2⟩
    | cons first before =>
      simp at hbefore
      obtain ⟨rfl,rfl⟩ := hbefore
      exact .inr ⟨before,rfl,hsuffix⟩

theorem unanswered_concat :
    Unanswered request answer (log ++ [event]) ↔
      event = request ∨ event ≠ answer ∧ Unanswered request answer log := by
  constructor
  · rintro ⟨later,hsuffix,hanswer⟩
    rcases suffix_concat_cases hsuffix with ⟨rfl,rfl⟩ | ⟨before,rfl,hbefore⟩
    · exact .inl rfl
    · simp at hanswer
      exact .inr ⟨Ne.symm hanswer.2,before,hbefore,hanswer.1⟩
  · rintro (rfl | ⟨hevent,before,hsuffix,hanswer⟩)
    · exact ⟨[],List.suffix_append log [event],by simp⟩
    · refine ⟨before ++ [event],?_,by simp [hanswer,Ne.symm hevent]⟩
      obtain ⟨earlier,rfl⟩ := hsuffix
      exact ⟨earlier,by simp⟩

theorem unanswered_append {events : List ε}
    (h : ∀ event ∈ events, event ≠ request ∧ event ≠ answer) :
    Unanswered request answer (log ++ events) ↔ Unanswered request answer log := by
  induction events generalizing log with
  | nil => simp
  | cons event events ih =>
    simp only [List.forall_mem_cons] at h
    rw [List.append_cons,ih h.2,unanswered_concat]
    simp [h.1.1,h.1.2]

variable [DecidableEq ε]

/-- No unanswered request has waited for more than so many turns. -/
def WaitsAtMost (request answer turn : ε) (bound : Nat) (log : List ε) : Prop :=
  ∀ later, request :: later <:+ log → answer ∉ later → later.count turn ≤ bound

theorem waitsAtMost_of_answered (h : ¬ Unanswered request answer log) :
    WaitsAtMost request answer turn bound log :=
  fun later hsuffix hanswer => absurd ⟨later,hsuffix,hanswer⟩ h

theorem WaitsAtMost.concat (h : WaitsAtMost request answer turn bound log) (hevent : event ≠ turn) :
    WaitsAtMost request answer turn bound (log ++ [event]) := by
  intro later hsuffix hanswer
  rcases suffix_concat_cases hsuffix with ⟨rfl,rfl⟩ | ⟨before,rfl,hbefore⟩
  · simp
  · simp at hanswer
    have hcount := h before hbefore hanswer.1
    simp [hevent]
    omega

theorem WaitsAtMost.concat_turn (h : WaitsAtMost request answer turn bound log) :
    WaitsAtMost request answer turn (bound+1) (log ++ [turn]) := by
  intro later hsuffix hanswer
  rcases suffix_concat_cases hsuffix with ⟨rfl,rfl⟩ | ⟨before,rfl,hbefore⟩
  · simp
  · simp at hanswer
    have hcount := h before hbefore hanswer.1
    simp
    omega

end RequestLog
