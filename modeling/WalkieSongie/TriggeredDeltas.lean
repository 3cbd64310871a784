import Mathlib.Data.Finset.Disjoint
import Mathlib.Data.Finset.SDiff
import Mathlib.Data.List.Induction
set_option autoImplicit false

/-!
Deltas of a set that is read again whenever an event says that it may have changed. The events come
over a bounded broadcast channel that drops the oldest ones.
-/

namespace TriggeredDeltas

universe u

/-- A state whose mutations are told by events, with a set of its that some of them concern. -/
structure Source (State : Type) (Mutation : Type u) (Event Element : Type) where
  mutate : Mutation → State → State × List Event
  current : State → Finset Element
  concerns : Event → Bool
  /-- A mutation that changes the set tells so. -/
  told : ∀ mutation state, current (mutate mutation state).1 ≠ current state →
    ∃ event ∈ (mutate mutation state).2, concerns event = true

structure Delta (Element : Type) where
  added : Finset Element
  removed : Finset Element
  deriving DecidableEq

variable {State : Type} {Mutation : Type u} {Event Element : Type}

section Deltas

variable [DecidableEq Element]

def difference (old new : Finset Element) : Delta Element := ⟨new \ old,old \ new⟩

def Delta.isEmpty (delta : Delta Element) : Bool := delta.added = ∅ ∧ delta.removed = ∅

def fold (elements : Finset Element) (delta : Delta Element) : Finset Element :=
  (elements ∪ delta.added) \ delta.removed

/-- Nothing present is added, nothing absent removed. -/
def Fits : Finset Element → List (Delta Element) → Prop
  | _, [] => True
  | elements, delta :: deltas =>
      Disjoint delta.added elements ∧ delta.removed ⊆ elements ∧ Fits (fold elements delta) deltas

theorem fits_append {elements : Finset Element} {deltas later : List (Delta Element)} :
    Fits elements (deltas ++ later) ↔
      Fits elements deltas ∧ Fits (deltas.foldl fold elements) later := by
  induction deltas generalizing elements with
  | nil => simp [Fits]
  | cons delta deltas ih => simp [Fits,ih,and_assoc]

theorem fold_difference (old new : Finset Element) : fold old (difference old new) = new := by
  ext element
  simp only [fold,difference,Finset.mem_sdiff,Finset.mem_union]
  tauto

theorem fits_difference (old new : Finset Element) : Fits old [difference old new] :=
  ⟨disjoint_sdiff_self_left,Finset.sdiff_subset,trivial⟩

theorem eq_of_isEmpty {old new : Finset Element} (h : (difference old new).isEmpty = true) :
    old = new := by
  simp only [difference,Delta.isEmpty,Bool.decide_and,Bool.and_eq_true,decide_eq_true_eq,
    Finset.sdiff_eq_empty_iff_subset] at h
  exact h.2.antisymm h.1

end Deltas

/-- A stream of deltas with its source. A mutation holds the source's lock until all its events are
sent. -/
structure Stream (State Event Element : Type) where
  state : State
  sending : List Event := []
  /-- The events sent since the stream took its last one. -/
  unread : List Event := []
  previous : Finset Element
  initial : Option (Delta Element)
  /-- An event was taken for which the set is not yet read. -/
  reading : Bool := false
  deltas : List (Delta Element) := []
  ended : Bool := false

inductive Step (Mutation : Type u) where
  | mutate (mutation : Mutation)
  | send
  | poll
  | read

namespace Stream

variable [DecidableEq Element] (source : Source State Mutation Event Element) (capacity : Nat)

/-- A stream made while nothing is being sent. -/
def start (state : State) : Stream State Event Element where
  state := state
  previous := source.current state
  initial := if source.current state = ∅ then none else some ⟨source.current state,∅⟩

def yields (stream : Stream State Event Element) (delta : Delta Element) :
    Stream State Event Element :=
  if delta.isEmpty then stream else { stream with deltas := stream.deltas ++ [delta] }

/-- One poll as far as it goes without the source's lock. Behind by more than the capacity, the
channel answers with an overflow instead of an event. -/
def poll (stream : Stream State Event Element) : Stream State Event Element :=
  if stream.ended = true ∨ stream.reading = true then stream
  else match stream.initial with
    | some delta => { stream with initial := none, deltas := stream.deltas ++ [delta] }
    | none =>
        if capacity < stream.unread.length then
          { stream with
            unread := stream.unread.drop (stream.unread.length-capacity)
            ended := true }
        else match stream.unread with
          | [] => stream
          | event :: unread => { stream with unread := unread, reading := source.concerns event }

def step (stream : Stream State Event Element) : Step Mutation → Stream State Event Element
  | .mutate mutation =>
      if stream.sending ≠ [] then stream
      else
        let result := source.mutate mutation stream.state
        { stream with state := result.1, sending := result.2 }
  | .send =>
      match stream.sending with
      | [] => stream
      | event :: sending =>
          { stream with sending := sending, unread := stream.unread ++ [event] }
  | .poll => stream.poll source capacity
  | .read =>
      if stream.sending ≠ [] ∨ stream.reading = false then stream
      else
        let current := source.current stream.state
        { stream with previous := current, reading := false }.yields
          (difference stream.previous current)

def run (state : State) (steps : List (Step Mutation)) : Stream State Event Element :=
  steps.foldl (step source capacity) (start source state)

def Pending (stream : Stream State Event Element) : Prop :=
  stream.initial = none ∧ stream.reading = false ∧ stream.unread = [] ∧ stream.sending = []

/-- The deltas so far fit one another from the empty set on, a stream polled until it is pending
has told the whole set, and it has not ended. -/
structure Faithful (stream : Stream State Event Element) : Prop where
  fits : Fits ∅ stream.deltas
  current : stream.Pending → stream.deltas.foldl fold ∅ = source.current stream.state
  lives : stream.ended = false

/-- The step asks the channel for an event when more of them wait than the channel keeps. -/
def Overruns (stream : Stream State Event Element) (taken : Step Mutation) : Prop :=
  taken = .poll ∧ stream.initial = none ∧ stream.reading = false ∧
    capacity < stream.unread.length

/-- The set as the consumer has it: empty until the initial delta is taken. -/
def told (stream : Stream State Event Element) : Finset Element :=
  if stream.initial.isSome then ∅ else stream.previous

/-- What a stream keeps that never overran. -/
structure Kept (stream : Stream State Event Element) : Prop where
  fits : Fits ∅ stream.deltas
  folds : stream.deltas.foldl fold ∅ = stream.told
  initial : ∀ delta ∈ stream.initial, delta = ⟨stream.previous,∅⟩ ∧ stream.reading = false
  /-- The set is as it was read last, or something still to come says that it may not be. -/
  due : source.current stream.state = stream.previous ∨ stream.reading = true ∨
    ∃ event ∈ stream.unread ++ stream.sending, source.concerns event = true
  lives : stream.ended = false

variable {source capacity} {stream : Stream State Event Element}

theorem kept_start (state : State) : (start source state).Kept source := by
  unfold start
  split
  · constructor <;> simp_all [Fits,told]
  · constructor <;> simp_all [Fits,told]

theorem Kept.mutate (h : stream.Kept source) (mutation : Mutation) :
    (stream.step source capacity (.mutate mutation)).Kept source := by
  by_cases hsending : stream.sending = []
  · simp only [step,hsending,ne_eq,not_true_eq_false,if_false]
    constructor
    · exact h.fits
    · exact h.folds
    · exact h.initial
    · by_cases hsame :
          source.current (source.mutate mutation stream.state).1 = source.current stream.state
      · rcases h.due with hdue | hreading | ⟨event,hevent,hconcerns⟩
        · exact .inl (hsame.trans hdue)
        · exact .inr (.inl hreading)
        · rw [hsending,List.append_nil] at hevent
          exact .inr (.inr ⟨event,List.mem_append_left _ hevent,hconcerns⟩)
      · obtain ⟨event,hevent,hconcerns⟩ := source.told mutation stream.state hsame
        exact .inr (.inr ⟨event,List.mem_append_right _ hevent,hconcerns⟩)
    · exact h.lives
  · simpa [step,hsending] using h

theorem Kept.send (h : stream.Kept source) :
    (stream.step source capacity (.send : Step Mutation)).Kept source := by
  cases hsending : stream.sending with
  | nil => simpa [step,hsending] using h
  | cons event sending =>
      simp only [step,hsending]
      have hdue := h.due
      rw [hsending] at hdue
      exact ⟨h.fits,h.folds,h.initial,by simpa [List.append_assoc] using hdue,h.lives⟩

theorem Kept.read (h : stream.Kept source) :
    (stream.step source capacity (.read : Step Mutation)).Kept source := by
  by_cases hready : stream.sending ≠ [] ∨ stream.reading = false
  · simpa [step,hready] using h
  · have hinitial : stream.initial = none := by
      cases hinitial : stream.initial with
      | none => rfl
      | some delta =>
          have hreading := (h.initial delta (by simp [hinitial])).2
          exact absurd (.inr hreading) hready
    have hfolds : stream.deltas.foldl fold ∅ = stream.previous := by
      simpa [told,hinitial] using h.folds
    simp only [step,hready,if_false,yields]
    split
    · rename_i hempty
      have hsame := eq_of_isEmpty hempty
      exact ⟨h.fits,by simpa [told,hinitial,← hsame] using hfolds,by simp [hinitial],.inl rfl,
        h.lives⟩
    · constructor
      · exact fits_append.mpr ⟨h.fits,by rw [hfolds]; exact fits_difference _ _⟩
      · simp [told,hinitial,hfolds,fold_difference]
      · simp [hinitial]
      · exact .inl rfl
      · exact h.lives

omit [DecidableEq Element] in
theorem poll_initial {delta : Delta Element} (hlives : stream.ended = false)
    (hreading : stream.reading = false) (hinitial : stream.initial = some delta) :
    stream.poll source capacity =
      { stream with initial := none, deltas := stream.deltas ++ [delta] } := by
  simp [poll,hlives,hreading,hinitial]

omit [DecidableEq Element] in
theorem poll_next (hlives : stream.ended = false) (hreading : stream.reading = false)
    (hinitial : stream.initial = none) (hroom : ¬ capacity < stream.unread.length) :
    (stream.unread = [] ∧ stream.poll source capacity = stream) ∨
      ∃ event unread, stream.unread = event :: unread ∧ stream.poll source capacity =
        { stream with unread := unread, reading := source.concerns event } := by
  cases hunread : stream.unread with
  | nil => simp [poll,hlives,hreading,hinitial,hunread]
  | cons event unread =>
      rw [hunread] at hroom
      right
      refine ⟨event,unread,rfl,?_⟩
      simp only [poll,hlives,hreading,hinitial,hunread,Bool.false_eq_true,or_self,if_false,
        if_neg hroom]

theorem Kept.poll (h : stream.Kept source)
    (hkeeps : ¬ stream.Overruns capacity (.poll : Step Mutation)) :
    (stream.step source capacity (.poll : Step Mutation)).Kept source := by
  cases hreading : stream.reading with
  | true => simpa [step,Stream.poll,hreading] using h
  | false =>
      cases hinitial : stream.initial with
      | some delta =>
          obtain ⟨hdelta,-⟩ := h.initial delta (by simp [hinitial])
          have hfolds : stream.deltas.foldl fold ∅ = ∅ := by simpa [told,hinitial] using h.folds
          simp only [step]
          rw [poll_initial h.lives hreading hinitial]
          constructor
          · refine fits_append.mpr ⟨h.fits,?_⟩
            simp [hfolds,hdelta,Fits,Finset.disjoint_empty_right]
          · simp [told,hfolds,hdelta,fold]
          · simp
          · exact h.due
          · exact h.lives
      | none =>
          have hroom : ¬ capacity < stream.unread.length := by
            intro hlong
            exact hkeeps ⟨rfl,hinitial,hreading,hlong⟩
          simp only [step]
          rcases poll_next h.lives hreading hinitial hroom with
            ⟨-,hpoll⟩ | ⟨event,unread,hunread,hpoll⟩
          · rw [hpoll]
            exact h
          · rw [hpoll]
            constructor
            · exact h.fits
            · simpa [told,hinitial] using h.folds
            · simp [hinitial]
            · rcases h.due with hdue | hdue | ⟨waiting,hwaiting,hconcerns⟩
              · exact .inl hdue
              · simp [hreading] at hdue
              · rw [hunread,List.cons_append,List.mem_cons] at hwaiting
                rcases hwaiting with rfl | hlater
                · exact .inr (.inl hconcerns)
                · exact .inr (.inr ⟨waiting,hlater,hconcerns⟩)
            · exact h.lives

theorem Kept.step (h : stream.Kept source) {taken : Step Mutation}
    (hkeeps : ¬ stream.Overruns capacity taken) :
    (stream.step source capacity taken).Kept source := by
  cases taken with
  | mutate mutation => exact h.mutate mutation
  | send => exact h.send
  | poll => exact h.poll hkeeps
  | read => exact h.read

theorem Kept.faithful (h : stream.Kept source) : stream.Faithful source where
  fits := h.fits
  lives := h.lives
  current hpending := by
    obtain ⟨hinitial,hreading,hunread,hsending⟩ := hpending
    rcases h.due with hdue | hdue | ⟨event,hevent,-⟩
    · simpa [told,hinitial,hdue] using h.folds
    · simp [hreading] at hdue
    · simp [hunread,hsending] at hevent

theorem Overruns.not_faithful {taken : Step Mutation} (h : stream.Overruns capacity taken) :
    ¬ (stream.step source capacity taken).Faithful source := by
  obtain ⟨rfl,hinitial,hreading,hlong⟩ := h
  intro hfaithful
  have hlives := hfaithful.lives
  by_cases hended : stream.ended = true
  · simp [Stream.step,Stream.poll,hended] at hlives
  · simp [Stream.step,Stream.poll,hended,hreading,hinitial,hlong] at hlives

theorem run_append (state : State) (steps : List (Step Mutation)) (taken : Step Mutation) :
    run source capacity state (steps ++ [taken]) =
      (run source capacity state steps).step source capacity taken := by
  simp [run]

/-- Over every sequence of mutations and polls the stream is faithful all along exactly when no
poll asks for an event behind by more than the channel keeps. -/
theorem faithful_iff (state : State) (steps : List (Step Mutation)) :
    (∀ done, done <+: steps → (run source capacity state done).Faithful source) ↔
      ∀ done taken, done ++ [taken] <+: steps →
        ¬ (run source capacity state done).Overruns capacity taken := by
  constructor
  · intro hfaithful done taken hfront hoverruns
    have hnext := hfaithful _ hfront
    rw [run_append] at hnext
    exact hoverruns.not_faithful hnext
  · intro hnone done hfront
    have hkept : (run source capacity state done).Kept source := by
      induction done using List.reverseRecOn with
      | nil => exact kept_start state
      | append_singleton done taken ih =>
          rw [run_append]
          exact (ih ((List.prefix_append done [taken]).trans hfront)).step
            (hnone done taken hfront)
    exact hkept.faithful

end Stream

end TriggeredDeltas
