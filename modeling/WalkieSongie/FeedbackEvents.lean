import WalkieSongie.PerformanceFeedback
set_option autoImplicit false

/-!
The events of the window's table of waiting gestures, applied in place: what every sequence of them
keeps, and which intents can come back after their outcome was delivered.
-/

namespace WalkieSongie.Session

inductive PerformanceFeedbackResolution where
  | accepted
  | rejected
  deriving DecidableEq

inductive PerformanceFeedbackEvent where
  | begin (token : PerformanceIntentToken) (target : TunedDegree) (desiredActive : Bool)
  | commitBegin (token : PerformanceIntentToken)
  | rollbackBegin (token : PerformanceIntentToken)
  | resolved (token : PerformanceIntentToken) (resolution : PerformanceFeedbackResolution)
  | reset (generation : Nat)
  | installGeneration (generation : Nat)
  deriving DecidableEq

/-- What a call answers, and the table it leaves. -/
structure FeedbackApplied (α : Type) where
  answer : Except String α
  table : PerformanceFeedback

namespace FeedbackApplied

variable {α β : Type}

def map (f : α → β) (applied : FeedbackApplied α) : FeedbackApplied β where
  answer := applied.answer.map f
  table := applied.table

/-- A call whose checks all come before its first write. -/
def checked (feedback : PerformanceFeedback) (answer : α) :
    Except String PerformanceFeedback → FeedbackApplied α
  | .ok after => ⟨.ok answer,after⟩
  | .error message => ⟨.error message,feedback⟩

theorem checked_error {feedback : PerformanceFeedback} {answer : α}
    {result : Except String PerformanceFeedback} {message : String}
    (h : (checked feedback answer result).answer = .error message) :
    (checked feedback answer result).table = feedback ∧ result = .error message := by
  cases result with
  | ok after => simp [checked] at h
  | error reason => simp_all [checked]

theorem map_checked (f : α → β) (feedback : PerformanceFeedback) (answer : α)
    (result : Except String PerformanceFeedback) :
    (checked feedback answer result).map f = checked feedback (f answer) result := by
  cases result <;> rfl

end FeedbackApplied

namespace PerformanceFeedback

variable (feedback : PerformanceFeedback)

/-- The open transaction is taken out before its token is looked at, and put back when the token
is another one. -/
def commitInPlace (token : PerformanceIntentToken) : FeedbackApplied Unit :=
  let taken := { feedback with beginRollback := none }
  match feedback.beginRollback with
  | none => ⟨.error "performance feedback begin transaction is not open",taken⟩
  | some rollback =>
      if rollback.token ≠ token then
        ⟨.error "performance feedback commit token does not match open begin",
          { taken with beginRollback := some rollback }⟩
      else ⟨.ok (),taken⟩

def rollbackInPlace (token : PerformanceIntentToken) : FeedbackApplied Bool :=
  let taken := { feedback with beginRollback := none }
  match feedback.beginRollback with
  | none => ⟨.error "performance feedback begin transaction is not open",taken⟩
  | some rollback =>
      if rollback.token ≠ token then
        ⟨.error "performance feedback rollback token does not match open begin",
          { taken with beginRollback := some rollback }⟩
      else ⟨.ok true,{ taken with slots := taken.slots.set rollback.slot rollback.previous }⟩

def awaits (token : PerformanceIntentToken) : Bool :=
  feedback.slots.any fun slot => slot.any (·.token = token)

def apply (event : PerformanceFeedbackEvent) : FeedbackApplied Bool :=
  match event with
  | .begin token target desiredActive =>
      .checked feedback true (feedback.beginTransaction token target desiredActive)
  | .commitBegin token => (feedback.commitInPlace token).map fun _ => false
  | .rollbackBegin token => feedback.rollbackInPlace token
  | .resolved token _ => ⟨.ok (feedback.awaits token),feedback.resolve token⟩
  | .reset generation =>
      .checked feedback (feedback.slots.any Option.isSome) (feedback.resetGeneration generation)
  | .installGeneration generation =>
      .checked feedback
        (decide (feedback.generation ≠ some generation) || feedback.slots.any Option.isSome)
        (feedback.installGeneration generation)

variable {feedback} {token other : PerformanceIntentToken}

theorem commitInPlace_eq :
    feedback.commitInPlace token = .checked feedback () (feedback.commitBegin token) := by
  obtain ⟨generation,highWater,slots,opened⟩ := feedback
  cases opened with
  | none => rfl
  | some rollback =>
      by_cases htoken : rollback.token = token <;>
        simp [commitInPlace,commitBegin,htoken,FeedbackApplied.checked]

theorem rollbackInPlace_eq :
    feedback.rollbackInPlace token = .checked feedback true (feedback.rollbackBegin token) := by
  obtain ⟨generation,highWater,slots,opened⟩ := feedback
  cases opened with
  | none => rfl
  | some rollback =>
      by_cases htoken : rollback.token = token <;>
        simp [rollbackInPlace,rollbackBegin,htoken,FeedbackApplied.checked]

theorem apply_error {event : PerformanceFeedbackEvent} {message : String}
    (h : (feedback.apply event).answer = .error message) :
    (feedback.apply event).table = feedback := by
  cases event with
  | begin token target desiredActive => exact (FeedbackApplied.checked_error h).1
  | commitBegin token =>
      rw [apply,commitInPlace_eq,FeedbackApplied.map_checked] at h ⊢
      exact (FeedbackApplied.checked_error h).1
  | rollbackBegin token =>
      rw [apply,rollbackInPlace_eq] at h ⊢
      exact (FeedbackApplied.checked_error h).1
  | resolved token resolution => simp [apply] at h
  | reset generation => exact (FeedbackApplied.checked_error h).1
  | installGeneration generation => exact (FeedbackApplied.checked_error h).1

/-- No two slots hold intents with the same key. -/
def OnePer {κ : Type} (key : PendingFeedback → κ) (slots : List (Option PendingFeedback)) : Prop :=
  ∀ (i j : Nat) (first second : PendingFeedback), slots[i]? = some (some first) →
    slots[j]? = some (some second) → key first = key second → i = j

namespace OnePer

variable {κ : Type} {key : PendingFeedback → κ} {slots : List (Option PendingFeedback)}

theorem set (h : OnePer key slots) {slot : Nat} {content : Option PendingFeedback}
    (hfresh : ∀ new ∈ content, ∀ (i : Nat) (old : PendingFeedback),
      i ≠ slot → slots[i]? = some (some old) → key old ≠ key new) :
    OnePer key (slots.set slot content) := by
  intro i j first second hi hj hkey
  simp only [List.getElem?_set] at hi hj
  by_cases hislot : slot = i
  · by_cases hjslot : slot = j
    · omega
    · simp only [if_neg hjslot] at hj
      have hnew : content = some first := by simp_all
      exact absurd hkey.symm (hfresh first hnew j second (Ne.symm hjslot) hj)
  · simp only [if_neg hislot] at hi
    by_cases hjslot : slot = j
    · have hnew : content = some second := by simp_all
      exact absurd hkey (hfresh second hnew i first (Ne.symm hislot) hi)
    · simp only [if_neg hjslot] at hj
      exact h i j first second hi hj hkey

theorem cleared : OnePer key (slots.map fun _ => none) := by
  intro i j first second hi
  simp [List.getElem?_replicate] at hi

end OnePer

/-- What the slots keep: one for a target, no token twice, all begun in the installed
generation. -/
structure Neat (generation : Option Nat) (highWater : Nat) (slots : List (Option PendingFeedback)) :
    Prop where
  targets : OnePer (·.target) slots
  tokens : OnePer (·.token) slots
  current : ∀ pending, some pending ∈ slots →
    generation = some pending.token.generation ∧ pending.token.sequence ≤ highWater

namespace Neat

variable {generation : Option Nat} {highWater : Nat} {slots : List (Option PendingFeedback)}

theorem cleared : Neat generation highWater (slots.map fun _ => none) where
  targets := OnePer.cleared
  tokens := OnePer.cleared
  current pending hpending := by simp at hpending

theorem clear (h : Neat generation highWater slots) (slot : Nat) :
    Neat generation highWater (slots.set slot none) where
  targets := h.targets.set (by simp)
  tokens := h.tokens.set (by simp)
  current pending hpending := by
    rcases List.mem_or_eq_of_mem_set hpending with hold | hnew
    · exact h.current pending hold
    · simp at hnew

theorem mono (h : Neat generation highWater slots) {above : Nat} (habove : highWater ≤ above) :
    Neat generation above slots where
  targets := h.targets
  tokens := h.tokens
  current pending hpending := by
    have hcurrent := h.current pending hpending
    exact ⟨hcurrent.1,by omega⟩

/-- A newer intent takes the slot of its target, or a free one when its target has none. -/
theorem put (h : Neat generation highWater slots) {slot : Nat} (new : PendingFeedback)
    (hgeneration : generation = some new.token.generation) (hnewer : highWater < new.token.sequence)
    (htarget : ∀ (i : Nat) (old : PendingFeedback),
      i ≠ slot → slots[i]? = some (some old) → old.target ≠ new.target) :
    Neat generation new.token.sequence (slots.set slot (some new)) where
  targets := h.targets.set (by simpa using htarget)
  tokens := by
    apply h.tokens.set
    intro pending hpending i old _ hold htoken
    cases hpending
    have hcurrent := h.current old (List.mem_of_getElem? hold)
    rw [htoken] at hcurrent
    omega
  current pending hpending := by
    rcases List.mem_or_eq_of_mem_set hpending with hold | hnew
    · have hcurrent := h.current pending hold
      exact ⟨hcurrent.1,by omega⟩
    · cases hnew
      exact ⟨hgeneration,le_rfl⟩

end Neat

/-- The slots are neat, and would still be if the open transaction were rolled back. -/
structure Kept (feedback : PerformanceFeedback) : Prop where
  neat : Neat feedback.generation feedback.highWater feedback.slots
  restorable : ∀ rollback, feedback.beginRollback = some rollback →
    rollback.slot < feedback.slots.length ∧
      Neat feedback.generation feedback.highWater
        (feedback.slots.set rollback.slot rollback.previous)

theorem kept_empty (capacity : Nat) : (empty capacity).Kept where
  neat := by
    have hcleared : Neat none 0 ((List.replicate capacity none).map fun _ => none) := Neat.cleared
    simpa [empty] using hcleared
  restorable := by simp [empty]

variable {after : PerformanceFeedback}

theorem slotFor_holder {target : TunedDegree} {slot : Nat}
    (h : feedback.slotFor target = some slot) :
    (∃ old, feedback.slots[slot]? = some (some old) ∧ old.target = target) ∨
      ∀ old, some old ∈ feedback.slots → old.target ≠ target := by
  unfold slotFor at h
  split at h
  · rename_i found hfound
    cases h
    obtain ⟨hbound,hhit,-⟩ := List.findIdx?_eq_some_iff_getElem.mp hfound
    obtain ⟨old,hold,htarget⟩ := (Option.any_eq_true _ _).mp hhit
    exact .inl ⟨old,by rw [List.getElem?_eq_getElem hbound,hold],of_decide_eq_true htarget⟩
  · rename_i hnone
    right
    rintro old hold rfl
    have hmiss := List.findIdx?_eq_none_iff.mp hnone (some old) hold
    simp at hmiss

theorem OnePer.slotFor (h : OnePer (·.target) feedback.slots) {target : TunedDegree} {slot : Nat}
    (hslot : feedback.slotFor target = some slot) (i : Nat) (old : PendingFeedback)
    (hi : i ≠ slot) (hold : feedback.slots[i]? = some (some old)) : old.target ≠ target := by
  intro htarget
  rcases slotFor_holder hslot with ⟨holder,hholder,hsame⟩ | hfree
  · exact hi (h i slot old holder hold hholder (htarget.trans hsame.symm))
  · exact hfree old (List.mem_of_getElem? hold) htarget

theorem slotFor_eq_none {target : TunedDegree} (h : feedback.slotFor target = none) :
    ∀ slot ∈ feedback.slots, ∃ pending, slot = some pending ∧ pending.target ≠ target := by
  unfold slotFor at h
  split at h
  · simp at h
  · rename_i hnone
    intro slot hslot
    have htaken := List.findIdx?_eq_none_iff.mp h slot hslot
    have hother := List.findIdx?_eq_none_iff.mp hnone slot hslot
    cases slot with
    | none => simp at htaken
    | some pending => exact ⟨pending,rfl,by simpa using hother⟩

theorem beginTransaction_full {target : TunedDegree} {desiredActive : Bool}
    (h : feedback.beginTransaction token target desiredActive =
      .error "performance feedback capacity is full") :
    ∀ slot ∈ feedback.slots, ∃ pending, slot = some pending ∧ pending.target ≠ target := by
  unfold beginTransaction at h
  split at h
  · simp at h
  · split at h
    · simp at h
    · split at h
      · simp at h
      · split at h
        · simp at h
        · split at h
          · exact slotFor_eq_none ‹_›
          · simp at h

theorem Kept.begin {target : TunedDegree} {desiredActive : Bool} (hkept : feedback.Kept)
    (h : feedback.beginTransaction token target desiredActive = .ok after) : after.Kept := by
  obtain ⟨-,hgeneration,hfresh,slot,hslot,rfl⟩ := beginTransaction_slotFor h
  have hbound := slotFor_lt hslot
  constructor
  · have htarget := hkept.neat.targets.slotFor hslot
    exact hkept.neat.put ⟨token,target,desiredActive⟩ hgeneration hfresh htarget
  · intro rollback hrollback
    cases hrollback
    -- what stood in the slot is written back over the new intent
    have hback : (feedback.slots.set slot (some ⟨token,target,desiredActive⟩)).set slot
        (feedback.slots[slot]?).join = feedback.slots := by
      simp [List.getElem?_eq_getElem hbound]
    constructor
    · simpa using hbound
    · rw [hback]
      exact hkept.neat.mono hfresh.le

theorem commitBegin_eq_ok (h : feedback.commitBegin token = .ok after) :
    ∃ rollback, feedback.beginRollback = some rollback ∧ rollback.token = token ∧
      after = { feedback with beginRollback := none } := by
  cases hopen : feedback.beginRollback with
  | none => simp [commitBegin,hopen] at h
  | some rollback =>
      by_cases htoken : rollback.token = token
      · simp only [commitBegin,hopen,htoken,ne_eq,not_true_eq_false,if_false,
          Except.ok.injEq] at h
        exact ⟨rollback,rfl,htoken,h.symm⟩
      · simp [commitBegin,hopen,htoken] at h

theorem rollbackBegin_eq_ok (h : feedback.rollbackBegin token = .ok after) :
    ∃ rollback, feedback.beginRollback = some rollback ∧ rollback.token = token ∧
      after = { feedback with
        slots := feedback.slots.set rollback.slot rollback.previous
        beginRollback := none } := by
  cases hopen : feedback.beginRollback with
  | none => simp [rollbackBegin,hopen] at h
  | some rollback =>
      by_cases htoken : rollback.token = token
      · simp only [rollbackBegin,hopen,htoken,ne_eq,not_true_eq_false,if_false,
          Except.ok.injEq] at h
        exact ⟨rollback,rfl,htoken,h.symm⟩
      · simp [rollbackBegin,hopen,htoken] at h

theorem resetGeneration_eq_ok {generation : Nat}
    (h : feedback.resetGeneration generation = .ok after) :
    feedback.generation = some generation ∧ after = { feedback with
      beginRollback := none
      slots := feedback.slots.map fun _ => none } := by
  unfold resetGeneration at h
  split at h
  · simp at h
  · rename_i hgeneration
    exact ⟨by simpa using hgeneration,(Except.ok.inj h).symm⟩

theorem installGeneration_eq_ok {generation : Nat}
    (h : feedback.installGeneration generation = .ok after) :
    (∀ current ∈ feedback.generation, current < generation) ∧ after = { feedback with
      generation := some generation
      highWater := 0
      beginRollback := none
      slots := feedback.slots.map fun _ => none } := by
  unfold installGeneration at h
  split at h
  · simp at h
  · split at h
    · simp at h
    · rename_i hnewer
      constructor
      · intro current hcurrent
        rw [hcurrent] at hnewer
        simpa using hnewer
      · exact (Except.ok.inj h).symm

theorem Kept.commit (hkept : feedback.Kept) (h : feedback.commitBegin token = .ok after) :
    after.Kept := by
  obtain ⟨rollback,-,-,rfl⟩ := commitBegin_eq_ok h
  exact ⟨hkept.neat,by simp⟩

theorem Kept.rollback (hkept : feedback.Kept) (h : feedback.rollbackBegin token = .ok after) :
    after.Kept := by
  obtain ⟨rollback,hopen,-,rfl⟩ := rollbackBegin_eq_ok h
  exact ⟨(hkept.restorable rollback hopen).2,by simp⟩

theorem Kept.resolve (hkept : feedback.Kept) (token : PerformanceIntentToken) :
    (feedback.resolve token).Kept := by
  unfold PerformanceFeedback.resolve
  split
  · exact hkept
  · rename_i slot _
    constructor
    · exact hkept.neat.clear slot
    · intro rollback hopen
      obtain ⟨hbound,hneat⟩ := hkept.restorable rollback hopen
      constructor
      · simpa using hbound
      -- the outcome empties the slot of the transaction, or another one than it writes back
      · by_cases hsame : slot = rollback.slot
        · subst hsame
          simpa using hneat
        · rw [List.set_comm _ _ hsame]
          exact hneat.clear slot

theorem Kept.reset {generation : Nat} (h : feedback.resetGeneration generation = .ok after) :
    after.Kept := by
  obtain ⟨-,rfl⟩ := resetGeneration_eq_ok h
  exact ⟨Neat.cleared,by simp⟩

theorem Kept.install {generation : Nat} (h : feedback.installGeneration generation = .ok after) :
    after.Kept := by
  obtain ⟨-,rfl⟩ := installGeneration_eq_ok h
  exact ⟨Neat.cleared,by simp⟩

/-- What an event does to the table: nothing, or what its operation does when it is accepted. -/
inductive Accepted (before : PerformanceFeedback) :
    PerformanceFeedbackEvent → PerformanceFeedback → Prop
  | begin {token : PerformanceIntentToken} {target : TunedDegree} {desiredActive : Bool}
      {after : PerformanceFeedback}
      (h : before.beginTransaction token target desiredActive = .ok after) :
      Accepted before (.begin token target desiredActive) after
  | commit {token : PerformanceIntentToken} {after : PerformanceFeedback}
      (h : before.commitBegin token = .ok after) : Accepted before (.commitBegin token) after
  | rollback {token : PerformanceIntentToken} {after : PerformanceFeedback}
      (h : before.rollbackBegin token = .ok after) : Accepted before (.rollbackBegin token) after
  | resolved {token : PerformanceIntentToken} {resolution : PerformanceFeedbackResolution} :
      Accepted before (.resolved token resolution) (before.resolve token)
  | reset {generation : Nat} {after : PerformanceFeedback}
      (h : before.resetGeneration generation = .ok after) :
      Accepted before (.reset generation) after
  | install {generation : Nat} {after : PerformanceFeedback}
      (h : before.installGeneration generation = .ok after) :
      Accepted before (.installGeneration generation) after

theorem apply_ok {event : PerformanceFeedbackEvent} {answer : Bool}
    (h : (feedback.apply event).answer = .ok answer) :
    feedback.Accepted event (feedback.apply event).table := by
  cases event with
  | begin token target desiredActive =>
      cases hresult : feedback.beginTransaction token target desiredActive with
      | error message => simp [apply,hresult,FeedbackApplied.checked] at h
      | ok after => simpa [apply,hresult,FeedbackApplied.checked] using Accepted.begin hresult
  | commitBegin token =>
      rw [apply,commitInPlace_eq,FeedbackApplied.map_checked] at h ⊢
      cases hresult : feedback.commitBegin token with
      | error message => simp [hresult,FeedbackApplied.checked] at h
      | ok after => simpa [FeedbackApplied.checked] using Accepted.commit hresult
  | rollbackBegin token =>
      rw [apply,rollbackInPlace_eq] at h ⊢
      cases hresult : feedback.rollbackBegin token with
      | error message => simp [hresult,FeedbackApplied.checked] at h
      | ok after => simpa [FeedbackApplied.checked] using Accepted.rollback hresult
  | resolved token resolution => exact Accepted.resolved
  | reset generation =>
      cases hresult : feedback.resetGeneration generation with
      | error message => simp [apply,hresult,FeedbackApplied.checked] at h
      | ok after => simpa [apply,hresult,FeedbackApplied.checked] using Accepted.reset hresult
  | installGeneration generation =>
      cases hresult : feedback.installGeneration generation with
      | error message => simp [apply,hresult,FeedbackApplied.checked] at h
      | ok after => simpa [apply,hresult,FeedbackApplied.checked] using Accepted.install hresult

theorem Kept.accepted {event : PerformanceFeedbackEvent} (hkept : feedback.Kept)
    (h : feedback.Accepted event after) : after.Kept := by
  cases h with
  | begin h => exact hkept.begin h
  | commit h => exact hkept.commit h
  | rollback h => exact hkept.rollback h
  | resolved => exact hkept.resolve _
  | reset h => exact Kept.reset h
  | install h => exact Kept.install h

theorem Kept.sound (hkept : feedback.Kept) : feedback.Sound where
  distinct := hkept.neat.tokens
  below pending hpending := (hkept.neat.current pending hpending).2

theorem Accepted.length {event : PerformanceFeedbackEvent} (h : feedback.Accepted event after) :
    after.slots.length = feedback.slots.length := by
  cases h with
  | begin h =>
      obtain ⟨-,-,-,slot,-,rfl⟩ := beginTransaction_slotFor h
      simp
  | commit h =>
      obtain ⟨rollback,-,-,rfl⟩ := commitBegin_eq_ok h
      rfl
  | rollback h =>
      obtain ⟨rollback,-,-,rfl⟩ := rollbackBegin_eq_ok h
      simp
  | resolved =>
      unfold PerformanceFeedback.resolve
      split <;> simp
  | reset h =>
      obtain ⟨-,rfl⟩ := resetGeneration_eq_ok h
      simp
  | install h =>
      obtain ⟨-,rfl⟩ := installGeneration_eq_ok h
      simp

theorem apply_length (event : PerformanceFeedbackEvent) :
    (feedback.apply event).table.slots.length = feedback.slots.length := by
  cases hanswer : (feedback.apply event).answer with
  | error message => rw [apply_error hanswer]
  | ok answer => exact (apply_ok hanswer).length

end PerformanceFeedback

/-- A run of the table, with the intents it has begun and those of them whose outcome was
delivered while their generation was installed, newest first. -/
structure FeedbackHistory where
  table : PerformanceFeedback
  begun : List PerformanceIntentToken := []
  resolved : List PerformanceIntentToken := []

namespace FeedbackHistory

variable (history : FeedbackHistory)

/-- The event begins an intent, and the table takes it. -/
def begins (event : PerformanceFeedbackEvent) : Option PerformanceIntentToken :=
  match event, (history.table.apply event).answer with
  | .begin token _ _, .ok _ => some token
  | _, _ => none

/-- The event is the outcome of an intent that has begun in the installed generation. -/
def resolves (event : PerformanceFeedbackEvent) : Option PerformanceIntentToken :=
  match event with
  | .resolved token _ =>
      if token ∈ history.begun ∧ history.table.generation = some token.generation then some token
      else none
  | _ => none

def step (event : PerformanceFeedbackEvent) : FeedbackHistory where
  table := (history.table.apply event).table
  begun := (history.begins event).toList ++ history.begun
  resolved := (history.resolves event).toList ++ history.resolved

def after (capacity : Nat) (events : List PerformanceFeedbackEvent) : FeedbackHistory :=
  events.foldl step { table := .empty capacity }

/-- The rollback of a transaction that took the place of an intent whose outcome was delivered
since. -/
def Revives (event : PerformanceFeedbackEvent) : Prop :=
  ∃ rollback pending, history.table.beginRollback = some rollback ∧
    event = .rollbackBegin rollback.token ∧ rollback.previous = some pending ∧
      pending.token ∈ history.resolved

/-- No intent of the installed generation waits whose outcome was delivered. -/
def OutcomesKept : Prop :=
  ∀ token ∈ history.resolved, history.table.generation = some token.generation →
    ¬ history.table.Holds token

variable {history} {event : PerformanceFeedbackEvent}

theorem step_refused {message : String}
    (h : (history.table.apply event).answer = .error message) : history.step event = history := by
  have htable := PerformanceFeedback.apply_error h
  have hbegins : history.begins event = none := by
    cases event <;> simp [begins,h]
  have hresolves : history.resolves event = none := by
    cases event with
    | resolved token resolution => simp [PerformanceFeedback.apply] at h
    | _ => rfl
  simp [step,htable,hbegins,hresolves]

structure Sound (history : FeedbackHistory) : Prop where
  kept : history.table.Kept
  dated : ∀ token ∈ history.begun, ∃ installed, history.table.generation = some installed ∧
    (token.generation < installed ∨
      token.generation = installed ∧ token.sequence ≤ history.table.highWater)
  ordered : history.begun.Pairwise fun newer older =>
    newer.generation = older.generation → older.sequence < newer.sequence
  begun : ∀ token ∈ history.resolved, token ∈ history.begun

theorem sound_empty (capacity : Nat) : Sound { table := .empty capacity } := by
  constructor <;> simp [PerformanceFeedback.kept_empty]

theorem mem_step_resolved {token : PerformanceIntentToken}
    (h : token ∈ (history.step event).resolved) :
    (∃ resolution, event = .resolved token resolution ∧ token ∈ history.begun) ∨
      token ∈ history.resolved := by
  rcases List.mem_append.mp h with hnew | hold
  · left
    have hresolves := Option.mem_toList.mp hnew
    cases event with
    | resolved which resolution =>
        simp only [resolves] at hresolves
        split at hresolves
        · rename_i hwhich
          cases hresolves
          exact ⟨resolution,rfl,hwhich.1⟩
        · simp at hresolves
    | _ => simp [resolves] at hresolves
  · exact .inr hold

/-- An event that begins no intent and keeps generation and high water. -/
theorem Sound.sameGeneration (h : history.Sound) (hbegins : history.begins event = none)
    (hkept : (history.step event).table.Kept)
    (hgeneration : (history.step event).table.generation = history.table.generation)
    (hhighWater : (history.step event).table.highWater = history.table.highWater) :
    (history.step event).Sound where
  kept := hkept
  dated token htoken := by
    rw [hgeneration,hhighWater]
    exact h.dated token (by simpa [step,hbegins] using htoken)
  ordered := by simpa [step,hbegins] using h.ordered
  begun token htoken := by
    have hbegun : (history.step event).begun = history.begun := by simp [step,hbegins]
    rw [hbegun]
    rcases mem_step_resolved htoken with ⟨resolution,-,hnew⟩ | hold
    · exact hnew
    · exact h.begun token hold

theorem step_begin {token : PerformanceIntentToken} {target : TunedDegree} {desiredActive : Bool}
    {after : PerformanceFeedback}
    (h : history.table.beginTransaction token target desiredActive = .ok after) :
    history.step (.begin token target desiredActive) =
      ⟨after,token :: history.begun,history.resolved⟩ := by
  simp [step,begins,resolves,PerformanceFeedback.apply,h,FeedbackApplied.checked]

theorem Sound.begins {token : PerformanceIntentToken} {target : TunedDegree} {desiredActive : Bool}
    {after : PerformanceFeedback} (h : history.Sound)
    (hbegin : history.table.beginTransaction token target desiredActive = .ok after) :
    (history.step (.begin token target desiredActive)).Sound := by
  have hkept := h.kept.begin hbegin
  rw [step_begin hbegin]
  obtain ⟨-,hgeneration,hnewer,slot,-,rfl⟩ := PerformanceFeedback.beginTransaction_slotFor hbegin
  constructor
  · exact hkept
  · intro earlier hearlier
    rcases List.mem_cons.mp hearlier with rfl | hold
    · exact ⟨earlier.generation,hgeneration,.inr ⟨rfl,le_rfl⟩⟩
    · obtain ⟨installed,hinstalled,hdated⟩ := h.dated earlier hold
      refine ⟨installed,hinstalled,hdated.imp_right fun hsame => ⟨hsame.1,?_⟩⟩
      have hbelow := hsame.2
      simp only
      omega
  · refine List.pairwise_cons.mpr ⟨?_,h.ordered⟩
    intro earlier hearlier hsame
    obtain ⟨installed,hinstalled,hdated⟩ := h.dated earlier hearlier
    have hcurrent : installed = token.generation := by simp_all
    omega
  · intro resolved hresolved
    exact List.mem_cons_of_mem _ (h.begun resolved hresolved)

theorem Sound.installs {generation : Nat} {after : PerformanceFeedback} (h : history.Sound)
    (hinstall : history.table.installGeneration generation = .ok after) :
    (history.step (.installGeneration generation)).Sound := by
  have hkept := PerformanceFeedback.Kept.install hinstall
  have hstep : history.step (.installGeneration generation) =
      ⟨after,history.begun,history.resolved⟩ := by
    simp [step,FeedbackHistory.begins,resolves,PerformanceFeedback.apply,hinstall,
      FeedbackApplied.checked]
  rw [hstep]
  obtain ⟨hnewer,rfl⟩ := PerformanceFeedback.installGeneration_eq_ok hinstall
  constructor
  · exact hkept
  · intro token htoken
    obtain ⟨installed,hinstalled,hdated⟩ := h.dated token htoken
    have holder := hnewer installed hinstalled
    exact ⟨generation,rfl,by omega⟩
  · exact h.ordered
  · exact h.begun

theorem Sound.step (h : history.Sound) (event : PerformanceFeedbackEvent) :
    (history.step event).Sound := by
  cases hanswer : (history.table.apply event).answer with
  | error message => simpa [step_refused hanswer] using h
  | ok answer =>
      have haccepted := PerformanceFeedback.apply_ok hanswer
      have hkept := h.kept.accepted haccepted
      have htable : (history.step event).table = (history.table.apply event).table := rfl
      rw [← htable] at haccepted hkept
      generalize hafter : (history.step event).table = after at haccepted hkept
      cases haccepted with
      | begin hbegin => exact h.begins hbegin
      | commit hcommit =>
          obtain ⟨rollback,-,-,rfl⟩ := PerformanceFeedback.commitBegin_eq_ok hcommit
          apply h.sameGeneration rfl (by rwa [hafter]) <;> simp [hafter]
      | rollback hrollback =>
          obtain ⟨rollback,-,-,rfl⟩ := PerformanceFeedback.rollbackBegin_eq_ok hrollback
          apply h.sameGeneration rfl (by rwa [hafter]) <;> simp [hafter]
      | resolved => apply h.sameGeneration rfl (by rwa [hafter]) <;> simp [hafter]
      | reset hreset =>
          obtain ⟨-,rfl⟩ := PerformanceFeedback.resetGeneration_eq_ok hreset
          apply h.sameGeneration rfl (by rwa [hafter]) <;> simp [hafter]
      | install hinstall => exact h.installs hinstall

theorem after_append (capacity : Nat) (events : List PerformanceFeedbackEvent)
    (event : PerformanceFeedbackEvent) :
    after capacity (events ++ [event]) = (after capacity events).step event := by
  simp [after]

theorem sound_after (capacity : Nat) (events : List PerformanceFeedbackEvent) :
    (after capacity events).Sound := by
  induction events using List.reverseRecOn with
  | nil => exact sound_empty capacity
  | append_singleton done event ih =>
      rw [after_append]
      exact ih.step event

theorem after_length (capacity : Nat) (events : List PerformanceFeedbackEvent) :
    (after capacity events).table.slots.length = capacity := by
  induction events using List.reverseRecOn with
  | nil => simp [after,PerformanceFeedback.empty]
  | append_singleton done event ih =>
      rw [after_append]
      exact (PerformanceFeedback.apply_length event).trans ih

/-- What the table keeps over every sequence of events: one slot for a target, no token twice, all
of the installed generation and none above the high water; begins of one generation that increase;
a begin refused for capacity only when other targets take every slot; and nothing changed by a
refused event. -/
theorem feedback_table_kept (capacity : Nat) (events : List PerformanceFeedbackEvent) :
    let history := after capacity events
    history.table.slots.length = capacity ∧
    PerformanceFeedback.Neat history.table.generation history.table.highWater
      history.table.slots ∧
    (history.begun.Pairwise fun newer older =>
      newer.generation = older.generation → older.sequence < newer.sequence) ∧
    (∀ token target desiredActive,
      (history.table.apply (.begin token target desiredActive)).answer =
          .error "performance feedback capacity is full" →
        ∀ slot ∈ history.table.slots, ∃ pending, slot = some pending ∧ pending.target ≠ target) ∧
    ∀ event message, (history.table.apply event).answer = .error message →
      (history.table.apply event).table = history.table := by
  intro history
  have hsound := sound_after capacity events
  refine ⟨after_length capacity events,hsound.kept.neat,hsound.ordered,?_,?_⟩
  · intro token target desiredActive hfull
    have hrefused := (FeedbackApplied.checked_error hfull).2
    exact PerformanceFeedback.beginTransaction_full hrefused
  · intro event message hrefused
    exact PerformanceFeedback.apply_error hrefused

theorem outcomesKept_empty (capacity : Nat) :
    OutcomesKept { table := .empty capacity } := by
  simp [OutcomesKept]

/-- A delivered outcome stays delivered, unless the event is the rollback that writes its intent
back. -/
theorem OutcomesKept.step (h : history.OutcomesKept) (hsound : history.Sound)
    (hrevives : ¬ history.Revives event) : (history.step event).OutcomesKept := by
  cases hanswer : (history.table.apply event).answer with
  | error message => simpa [step_refused hanswer] using h
  | ok answer =>
      have haccepted := PerformanceFeedback.apply_ok hanswer
      intro token hresolved hgeneration hholds
      change (history.table.apply event).table.generation = _ at hgeneration
      change (history.table.apply event).table.Holds token at hholds
      replace hresolved := mem_step_resolved hresolved
      generalize (history.table.apply event).table = after at haccepted hgeneration hholds
      cases haccepted with
      | begin hbegin =>
          have hold : token ∈ history.resolved := by simpa using hresolved
          rcases PerformanceFeedback.holds_begin hbegin hholds with rfl | hheld
          · obtain ⟨-,hcurrent,hnewer,-⟩ :=
              PerformanceFeedback.beginTransaction_eq_ok hbegin
            obtain ⟨installed,hinstalled,hdated⟩ := hsound.dated token (hsound.begun token hold)
            have hsame : installed = token.generation := by simp_all
            omega
          · obtain ⟨-,-,-,slot,-,rfl⟩ := PerformanceFeedback.beginTransaction_eq_ok hbegin
            exact h token hold hgeneration hheld
      | commit hcommit =>
          obtain ⟨rollback,-,-,rfl⟩ := PerformanceFeedback.commitBegin_eq_ok hcommit
          exact h token (by simpa using hresolved) hgeneration hholds
      | rollback hrollback =>
          have hold : token ∈ history.resolved := by simpa using hresolved
          obtain ⟨rollback,hopen,rfl,rfl⟩ := PerformanceFeedback.rollbackBegin_eq_ok hrollback
          obtain ⟨pending,hpending,rfl⟩ := hholds
          rcases List.mem_or_eq_of_mem_set hpending with hslot | hback
          · exact h pending.token hold hgeneration ⟨pending,hslot,rfl⟩
          · exact hrevives ⟨rollback,pending,hopen,rfl,hback.symm,hold⟩
      | resolved =>
          rcases hresolved with ⟨resolution,hsame,-⟩ | hold
          · cases hsame
            exact hsound.kept.sound.not_holds_resolve token hholds
          · rw [PerformanceFeedback.resolve_generation] at hgeneration
            exact h token hold hgeneration (PerformanceFeedback.holds_resolve hholds)
      | reset hreset =>
          obtain ⟨-,rfl⟩ := PerformanceFeedback.resetGeneration_eq_ok hreset
          exact PerformanceFeedback.holds_cleared hholds
      | install hinstall =>
          obtain ⟨-,rfl⟩ := PerformanceFeedback.installGeneration_eq_ok hinstall
          obtain ⟨pending,hpending,-⟩ := hholds
          simp at hpending

theorem Revives.not_outcomesKept (h : history.Revives event) (hsound : history.Sound) :
    ¬ (history.step event).OutcomesKept := by
  obtain ⟨rollback,pending,hopen,rfl,hprevious,hresolved⟩ := h
  obtain ⟨hbound,hneat⟩ := hsound.kept.restorable rollback hopen
  have hstep : history.step (.rollbackBegin rollback.token) =
      { history with table := { history.table with
          slots := history.table.slots.set rollback.slot rollback.previous
          beginRollback := none } } := by
    simp [step,begins,resolves,PerformanceFeedback.apply,PerformanceFeedback.rollbackInPlace,hopen]
  have hback : some pending ∈ history.table.slots.set rollback.slot rollback.previous := by
    rw [hprevious]
    exact List.mem_set hbound _
  rw [hstep]
  intro hkept
  exact hkept pending.token hresolved (hneat.current pending hback).1 ⟨pending,hback,rfl⟩

/-- Over every sequence of events, the intents whose outcome was delivered never wait again exactly
when no begin is rolled back that took the place of such an intent. -/
theorem delivered_outcomes_stay_iff (capacity : Nat) (events : List PerformanceFeedbackEvent) :
    (∀ done, done <+: events → (after capacity done).OutcomesKept) ↔
      ∀ done event, done ++ [event] <+: events → ¬ (after capacity done).Revives event := by
  constructor
  · intro hkept done event hfront hrevives
    apply hrevives.not_outcomesKept (sound_after capacity done)
    rw [← after_append]
    exact hkept _ hfront
  · intro hnone done hfront
    induction done using List.reverseRecOn with
    | nil => exact outcomesKept_empty capacity
    | append_singleton done event ih =>
        rw [after_append]
        exact (ih ((List.prefix_append done [event]).trans hfront)).step
          (sound_after capacity done) (hnone done event hfront)

/-- The outcome of the first intent arrives while the second one stands in its slot; the second is
then rolled back. -/
def lateOutcome : List PerformanceFeedbackEvent :=
  [.installGeneration 1,
    .begin ⟨1,1⟩ ⟨0,12⟩ true,
    .commitBegin ⟨1,1⟩,
    .begin ⟨1,2⟩ ⟨0,12⟩ false,
    .resolved ⟨1,1⟩ .accepted,
    .rollbackBegin ⟨1,2⟩]

theorem late_outcome_comes_back : ¬ (after 1 lateOutcome).OutcomesKept := by
  intro hkept
  exact hkept ⟨1,1⟩ (by decide) (by decide) (by decide)

end FeedbackHistory

end WalkieSongie.Session
