import Mathlib.Data.List.Basic
set_option autoImplicit false

/-!
Trains of parts that leave a first-in first-out queue part by part: what has been confirmed is
every train up to some place, and a prefix of the one there.
-/

structure Train (ι π : Type) where
  id : ι
  parts : List π

namespace TrainLane

variable {ι π : Type}

/-- What was accepted, confirmed and returned since the lane was last empty for good. -/
structure History (ι π : Type) where
  accepted : List (Train ι π) := []
  confirmed : List π := []
  returned : List ι := []

/-- The head's train as it was before these parts of it left. -/
def restore (sent : List π) : List (Train ι π) → List (Train ι π)
  | [] => []
  | head :: rest => { head with parts := sent ++ head.parts } :: rest

/-- The queue holds what is left of each train, less the pending part of its head. -/
structure Exact (history : History ι π) (queue : List (Train ι π)) (pending : Option π)
    (done : List (Train ι π)) (sent : List π) : Prop where
  returned : history.returned = done.map Train.id
  confirmed : history.confirmed = done.flatMap Train.parts ++ sent
  accepted : history.accepted = done ++ restore (sent ++ pending.toList) queue
  idle : queue = [] → sent = [] ∧ pending = none
  left : ∀ head ∈ queue.head?, pending.toList ++ head.parts ≠ []
  whole : ∀ train ∈ queue.tail, train.parts ≠ []

/-- Trains are confirmed in their order: those whose ids were returned wholly, the next one up to
some part of it, the others not at all. -/
def Progress (history : History ι π) (current : Option (Train ι π)) : Prop :=
  ∃ done waiting sent, history.accepted = done ++ current.toList ++ waiting ∧
    history.confirmed = done.flatMap Train.parts ++ sent ∧
    history.returned = done.map Train.id ∧
    (current = none → waiting = [] ∧ sent = []) ∧
    ∀ train ∈ current, sent <+: train.parts ∧ sent ≠ train.parts

variable {history : History ι π} {queue : List (Train ι π)} {pending : Option π}
  {done : List (Train ι π)} {sent : List π} {train : Train ι π} {id : ι} {part : π}
  {parts : List π}

theorem exact_empty : Exact ({} : History ι π) [] none [] [] where
  returned := rfl
  confirmed := rfl
  accepted := rfl
  idle _ := ⟨rfl,rfl⟩
  left _ h := by simp at h
  whole _ h := by simp at h

theorem restore_append (h : queue ≠ []) (train : Train ι π) :
    restore sent (queue ++ [train]) = restore sent queue ++ [train] := by
  cases queue with
  | nil => exact absurd rfl h
  | cons head rest => rfl

theorem Exact.accept (h : Exact history queue pending done sent) (htrain : train.parts ≠ []) :
    Exact { history with accepted := history.accepted ++ [train] } (queue ++ [train]) pending done
      sent := by
  cases queue with
  | nil =>
    obtain ⟨rfl,rfl⟩ := h.idle rfl
    refine ⟨h.returned,h.confirmed,?_,fun hnil => by simp at hnil,?_,fun _ hmem => by simp at hmem⟩
    · simp [h.accepted,restore]
    · simpa using htrain
  | cons head rest =>
    refine ⟨h.returned,h.confirmed,?_,fun hnil => by simp at hnil,h.left,?_⟩
    · rw [restore_append (by simp),h.accepted,List.append_assoc]
    · intro other hmem
      rw [List.cons_append,List.tail_cons,List.mem_append,List.mem_singleton] at hmem
      rcases hmem with hrest | rfl
      · exact h.whole other hrest
      · exact htrain

theorem Exact.prepare (h : Exact history (⟨id,part :: parts⟩ :: queue) none done sent) :
    Exact history (⟨id,parts⟩ :: queue) (some part) done sent where
  returned := h.returned
  confirmed := h.confirmed
  accepted := by simp [h.accepted,restore]
  idle hnil := by simp at hnil
  left _ _ := by simp
  whole := h.whole

theorem Exact.confirm (h : Exact history (⟨id,parts⟩ :: queue) (some part) done sent)
    (hparts : parts ≠ []) :
    Exact { history with confirmed := history.confirmed ++ [part] } (⟨id,parts⟩ :: queue) none done
      (sent ++ [part]) where
  returned := h.returned
  confirmed := by simp [h.confirmed]
  accepted := by simp [h.accepted]
  idle hnil := by simp at hnil
  left head hhead := by
    obtain rfl : ⟨id,parts⟩ = head := by simpa using hhead
    simpa using hparts
  whole := h.whole

theorem Exact.complete (h : Exact history (⟨id,[]⟩ :: queue) (some part) done sent) :
    Exact { history with
        confirmed := history.confirmed ++ [part]
        returned := history.returned ++ [id] } queue none
      (done ++ [⟨id,sent ++ [part]⟩]) [] where
  returned := by simp [h.returned]
  confirmed := by simp [h.confirmed]
  accepted := by
    rw [h.accepted]
    cases queue <;> simp [restore]
  idle _ := ⟨rfl,rfl⟩
  left head hhead := by
    have hwhole := h.whole head
    rw [List.tail_cons] at hwhole
    simpa using hwhole (List.mem_of_mem_head? hhead)
  whole other hmem := h.whole other (List.mem_of_mem_tail hmem)

theorem Exact.progress (h : Exact history queue pending done sent) :
    Progress history (restore (sent ++ pending.toList) queue).head? := by
  refine ⟨done,(restore (sent ++ pending.toList) queue).tail,sent,?_,h.confirmed,h.returned,?_,?_⟩
  · rw [h.accepted,List.append_assoc]
    cases queue <;> simp [restore]
  · cases queue with
    | nil => exact fun _ => ⟨rfl,(h.idle rfl).1⟩
    | cons head rest => simp [restore]
  · cases queue with
    | nil => simp [restore]
    | cons head rest =>
      intro train htrain
      obtain rfl : { head with parts := sent ++ pending.toList ++ head.parts } = train := by
        simpa [restore] using htrain
      have hleft := h.left head rfl
      refine ⟨by simp,fun hsame => hleft ?_⟩
      simpa using hsame

end TrainLane
