import WalkieSongie.SessionLibrary
set_option autoImplicit false

/-!
The window's table of the gestures that wait for an outcome: one slot a target, each filled by a
transaction that can still be rolled back.
-/

namespace WalkieSongie.Session

structure PendingFeedback where
  token : PerformanceIntentToken
  target : TunedDegree
  desiredActive : Bool
  deriving DecidableEq

structure BeginRollback where
  token : PerformanceIntentToken
  slot : Nat
  previous : Option PendingFeedback
  deriving DecidableEq

structure PerformanceFeedback where
  generation : Option Nat := none
  highWater : Nat := 0
  slots : List (Option PendingFeedback)
  beginRollback : Option BeginRollback := none
  deriving DecidableEq

namespace PerformanceFeedback

def empty (capacity : Nat) : PerformanceFeedback where
  slots := List.replicate capacity none

variable (feedback : PerformanceFeedback)

def slotFor (target : TunedDegree) : Option Nat :=
  match feedback.slots.findIdx? fun slot => slot.any (·.target = target) with
  | some slot => some slot
  | none => feedback.slots.findIdx? Option.isNone

/-- A refused operation leaves the table as it is. -/
def beginTransaction (token : PerformanceIntentToken) (target : TunedDegree)
    (desiredActive : Bool) : Except String PerformanceFeedback :=
  if feedback.beginRollback ≠ none then
    .error "performance feedback begin transaction is already open"
  else if token.sequence = 0 then
    .error "performance intent sequence must be non-zero"
  else if feedback.generation ≠ some token.generation then
    .error "performance intent belongs to a generation that is not installed"
  else if token.sequence ≤ feedback.highWater then
    .error "performance intent sequence did not increase"
  else match feedback.slotFor target with
    | none => .error "performance feedback capacity is full"
    | some slot => .ok { feedback with
        slots := feedback.slots.set slot (some ⟨token,target,desiredActive⟩)
        highWater := token.sequence
        beginRollback := some ⟨token,slot,(feedback.slots[slot]?).join⟩ }

def commitBegin (token : PerformanceIntentToken) : Except String PerformanceFeedback :=
  match feedback.beginRollback with
  | none => .error "performance feedback begin transaction is not open"
  | some rollback =>
      if rollback.token ≠ token then
        .error "performance feedback commit token does not match open begin"
      else .ok { feedback with beginRollback := none }

def rollbackBegin (token : PerformanceIntentToken) : Except String PerformanceFeedback :=
  match feedback.beginRollback with
  | none => .error "performance feedback begin transaction is not open"
  | some rollback =>
      if rollback.token ≠ token then
        .error "performance feedback rollback token does not match open begin"
      else .ok { feedback with
        slots := feedback.slots.set rollback.slot rollback.previous
        beginRollback := none }

def resolve (token : PerformanceIntentToken) : PerformanceFeedback :=
  match feedback.slots.findIdx? fun slot => slot.any (·.token = token) with
  | none => feedback
  | some slot => { feedback with slots := feedback.slots.set slot none }

def resetGeneration (generation : Nat) : Except String PerformanceFeedback :=
  if feedback.generation ≠ some generation then
    .error "performance feedback reset belongs to a generation that is not installed"
  else .ok { feedback with
    beginRollback := none
    slots := feedback.slots.map fun _ => none }

def installGeneration (generation : Nat) : Except String PerformanceFeedback :=
  if generation = 0 then
    .error "performance feedback generation must be non-zero"
  else if feedback.generation.any (generation ≤ ·) = true then
    .error "performance feedback generation did not increase"
  else .ok { feedback with
    generation := some generation
    highWater := 0
    beginRollback := none
    slots := feedback.slots.map fun _ => none }

/-- A gesture with this token waits for its outcome. -/
def Holds (token : PerformanceIntentToken) : Prop :=
  ∃ pending, some pending ∈ feedback.slots ∧ pending.token = token

instance (token : PerformanceIntentToken) : Decidable (feedback.Holds token) :=
  decidable_of_iff (∃ slot ∈ feedback.slots, slot.any (·.token = token) = true) (by
    constructor
    · rintro ⟨slot,hslot,htoken⟩
      obtain ⟨pending,rfl,hpending⟩ := (Option.any_eq_true _ _).mp htoken
      exact ⟨pending,hslot,of_decide_eq_true hpending⟩
    · rintro ⟨pending,hslot,rfl⟩
      exact ⟨some pending,hslot,by simp⟩)

/-- No two slots hold the same token, and every token is from below the high water. -/
structure Sound : Prop where
  distinct : ∀ (i j : Nat) (first second : PendingFeedback),
    feedback.slots[i]? = some (some first) → feedback.slots[j]? = some (some second) →
      first.token = second.token → i = j
  below : ∀ pending, some pending ∈ feedback.slots → pending.token.sequence ≤ feedback.highWater

variable {feedback} {after : PerformanceFeedback} {token other : PerformanceIntentToken}

theorem sound_empty (capacity : Nat) : (empty capacity).Sound := by
  constructor <;> simp [empty,List.getElem?_replicate]

theorem holds_cleared :
    ¬ Holds { feedback with slots := feedback.slots.map fun _ => none } token := by
  rintro ⟨pending,hslot,-⟩
  simp at hslot

theorem slotFor_lt {target : TunedDegree} {slot : Nat} (h : feedback.slotFor target = some slot) :
    slot < feedback.slots.length := by
  unfold slotFor at h
  split at h
  · rename_i found hfound
    cases h
    exact (List.findIdx?_eq_some_iff_getElem.mp hfound).1
  · exact (List.findIdx?_eq_some_iff_getElem.mp h).1

theorem beginTransaction_slotFor {target : TunedDegree} {desiredActive : Bool}
    (h : feedback.beginTransaction token target desiredActive = .ok after) :
    feedback.beginRollback = none ∧ feedback.generation = some token.generation ∧
      feedback.highWater < token.sequence ∧ ∃ slot, feedback.slotFor target = some slot ∧
        after = { feedback with
          slots := feedback.slots.set slot (some ⟨token,target,desiredActive⟩)
          highWater := token.sequence
          beginRollback := some ⟨token,slot,(feedback.slots[slot]?).join⟩ } := by
  unfold beginTransaction at h
  split at h
  · simp at h
  · rename_i hopen
    split at h
    · simp at h
    · split at h
      · simp at h
      · rename_i hgeneration
        split at h
        · simp at h
        · rename_i hfresh
          split at h
          · simp at h
          · rename_i slot hslot
            exact ⟨by simpa using hopen,by simpa using hgeneration,by omega,slot,hslot,
              (Except.ok.inj h).symm⟩

theorem beginTransaction_eq_ok {target : TunedDegree} {desiredActive : Bool}
    (h : feedback.beginTransaction token target desiredActive = .ok after) :
    feedback.beginRollback = none ∧ feedback.generation = some token.generation ∧
      feedback.highWater < token.sequence ∧ ∃ slot, slot < feedback.slots.length ∧
        after = { feedback with
          slots := feedback.slots.set slot (some ⟨token,target,desiredActive⟩)
          highWater := token.sequence
          beginRollback := some ⟨token,slot,(feedback.slots[slot]?).join⟩ } := by
  obtain ⟨hopen,hgeneration,hfresh,slot,hslot,hafter⟩ := beginTransaction_slotFor h
  exact ⟨hopen,hgeneration,hfresh,slot,slotFor_lt hslot,hafter⟩

theorem holds_begin {target : TunedDegree} {desiredActive : Bool}
    (h : feedback.beginTransaction token target desiredActive = .ok after)
    (hholds : after.Holds other) : other = token ∨ feedback.Holds other := by
  obtain ⟨-,-,-,slot,-,rfl⟩ := beginTransaction_eq_ok h
  obtain ⟨pending,hpending,rfl⟩ := hholds
  rcases List.mem_or_eq_of_mem_set hpending with hold | hnew
  · exact .inr ⟨pending,hold,rfl⟩
  · cases hnew
    exact .inl rfl

theorem Sound.begin {target : TunedDegree} {desiredActive : Bool} (hsound : feedback.Sound)
    (h : feedback.beginTransaction token target desiredActive = .ok after) : after.Sound := by
  obtain ⟨-,-,hfresh,slot,hbound,rfl⟩ := beginTransaction_eq_ok h
  have hnot : ∀ (i : Nat) (pending : PendingFeedback),
      feedback.slots[i]? = some (some pending) → pending.token ≠ token := by
    rintro i pending hi rfl
    have hbelow := hsound.below pending (List.mem_of_getElem? hi)
    omega
  constructor
  · intro i j first second hi hj htoken
    simp only [List.getElem?_set] at hi hj
    split at hi
    · rename_i hislot
      split at hj
      · rename_i hjslot
        exact hislot.symm.trans hjslot
      · simp only [Option.some.injEq] at hi
        cases hi
        exact absurd htoken.symm (hnot j second hj)
    · split at hj
      · rename_i hjslot
        simp only [Option.some.injEq] at hj
        cases hj
        exact absurd htoken (hnot i first hi)
      · exact hsound.distinct i j first second hi hj htoken
  · intro pending hpending
    rcases List.mem_or_eq_of_mem_set hpending with hold | hnew
    · have hbelow := hsound.below pending hold
      simp only
      omega
    · cases hnew
      exact le_rfl

theorem commit_begin {target : TunedDegree} {desiredActive : Bool}
    (h : feedback.beginTransaction token target desiredActive = .ok after) :
    after.commitBegin token = .ok { after with beginRollback := none } := by
  obtain ⟨-,-,-,slot,-,rfl⟩ := beginTransaction_eq_ok h
  simp [commitBegin]

theorem rollback_begin {target : TunedDegree} {desiredActive : Bool}
    (h : feedback.beginTransaction token target desiredActive = .ok after) :
    after.rollbackBegin token = .ok { feedback with highWater := token.sequence } := by
  obtain ⟨hopen,-,-,slot,hbound,rfl⟩ := beginTransaction_eq_ok h
  have hslots : feedback.slots.set slot (feedback.slots[slot]?).join = feedback.slots := by
    simp [List.getElem?_eq_getElem hbound]
  simp [rollbackBegin,hslots,hopen]

theorem holds_resolve (h : (feedback.resolve token).Holds other) : feedback.Holds other := by
  unfold resolve at h
  split at h
  · exact h
  · obtain ⟨pending,hpending,rfl⟩ := h
    rcases List.mem_or_eq_of_mem_set hpending with hold | hnew
    · exact ⟨pending,hold,rfl⟩
    · simp at hnew

theorem Sound.rollback {target : TunedDegree} {desiredActive : Bool} (hsound : feedback.Sound)
    (h : feedback.beginTransaction token target desiredActive = .ok after) :
    Sound { feedback with highWater := token.sequence } where
  distinct := hsound.distinct
  below pending hpending := by
    have hbelow := hsound.below pending hpending
    have hfresh := (beginTransaction_eq_ok h).2.2.1
    simp only
    omega

@[simp] theorem resolve_generation : (feedback.resolve token).generation = feedback.generation := by
  unfold resolve
  split <;> rfl

@[simp] theorem resolve_beginRollback :
    (feedback.resolve token).beginRollback = feedback.beginRollback := by
  unfold resolve
  split <;> rfl

@[simp] theorem resolve_highWater : (feedback.resolve token).highWater = feedback.highWater := by
  unfold resolve
  split <;> rfl

theorem Sound.not_holds_resolve (hsound : feedback.Sound) (token : PerformanceIntentToken) :
    ¬ (feedback.resolve token).Holds token := by
  unfold resolve
  split
  · rename_i hnone
    rintro ⟨pending,hpending,rfl⟩
    have hmiss := List.findIdx?_eq_none_iff.mp hnone (some pending) hpending
    simp at hmiss
  · rename_i slot hslot
    obtain ⟨hbound,hfound,-⟩ := List.findIdx?_eq_some_iff_getElem.mp hslot
    rintro ⟨pending,hpending,rfl⟩
    obtain ⟨i,hi⟩ := List.mem_iff_getElem?.mp hpending
    obtain ⟨first,hfirst,htoken⟩ := (Option.any_eq_true _ _).mp hfound
    simp only [List.getElem?_set] at hi
    split at hi
    · rename_i hsame
      simp at hi
    · rename_i hne
      apply hne
      exact hsound.distinct slot i first pending
        (by rw [List.getElem?_eq_getElem hbound,hfirst]) hi (of_decide_eq_true htoken)

theorem Sound.resolve (hsound : feedback.Sound) (token : PerformanceIntentToken) :
    (feedback.resolve token).Sound := by
  unfold PerformanceFeedback.resolve
  split
  · exact hsound
  · rename_i slot hslot
    constructor
    · intro i j first second hi hj htoken
      simp only [List.getElem?_set] at hi hj
      split at hi
      · split at hi <;> simp at hi
      · split at hj
        · split at hj <;> simp at hj
        · exact hsound.distinct i j first second hi hj htoken
    · intro pending hpending
      rcases List.mem_or_eq_of_mem_set hpending with hold | hnew
      · exact hsound.below pending hold
      · simp at hnew

theorem sound_cleared (highWater : Nat) (generation : Option Nat) :
    Sound { feedback with
      generation := generation
      highWater := highWater
      beginRollback := none
      slots := feedback.slots.map fun _ => none } := by
  constructor
  · intro i j first second hi
    simp [List.getElem?_replicate] at hi
  · intro pending hpending
    simp at hpending

end PerformanceFeedback

end WalkieSongie.Session
