import Mathlib.Data.Finset.Card
import Mathlib.Data.Finset.Dedup
import Mathlib.Data.List.ReduceOption
import WalkieSongie.BoundedQueue
import WalkieSongie.FeedbackEvents
import WalkieSongie.HostProtocol
set_option autoImplicit false

/-!
How the window of a browser host dispatches commands: an intent in the feedback table for an edit
of a pitch, then a place in the bounded queue. Which commands in a row are all taken.
-/

namespace WalkieSongie.Client
open Session (PerformanceIntentToken PerformanceFeedback PerformanceFeedbackEvent PendingFeedback)

variable {T : TuningLibrary}

def pitchDegree (pitch : TunedPeriodicPitch) : TunedDegree := ⟨pitch.tuningId,pitch.degree⟩

def performanceTarget : ClientCommand T → Option (TunedDegree × Bool)
  | .addDegree pitch => some (pitch,true)
  | .removeDegree pitch => some (pitch,false)
  | .addPitch pitch => some (pitchDegree pitch,true)
  | .removePitch pitch => some (pitchDegree pitch,false)
  | _ => none

structure QueuedCommand (T : TuningLibrary) where
  command : ClientCommand T
  intentToken : Option PerformanceIntentToken

/-- The window's slots for pending gestures. -/
def feedbackCapacity : Nat := 32

def windowCommandCapacity : Nat := 64

structure CommandWindow (T : TuningLibrary) where
  activeRoom : Bool
  performanceGeneration : Nat
  performanceSequence : Nat
  feedback : PerformanceFeedback
  /-- `none` before the host is initialized and after its loop has ended. -/
  commands : Option (BoundedQueue (QueuedCommand T))
  diagnostics : List (String × String) := []
  /-- What the callers were told of commands that were not taken. -/
  errors : List String := []

namespace CommandWindow

variable (window : CommandWindow T)

/-- An event for the table; what it refuses becomes a diagnostic. -/
def tell (code : String) (event : PerformanceFeedbackEvent) : CommandWindow T :=
  let applied := window.feedback.apply event
  match applied.answer with
  | .ok _ => { window with feedback := applied.table }
  | .error error =>
    { window with
      feedback := applied.table
      diagnostics := window.diagnostics ++ [(code,error)] }

def beginPerformanceIntent (target : TunedDegree) (desiredActive : Bool) :
    Except String PerformanceIntentToken × CommandWindow T :=
  if window.activeRoom = false ∨ window.performanceGeneration = 0 then
    (.error "enter a room before changing shared state",window)
  else if 2^64 ≤ window.performanceSequence+1 then
    (.error "performance intent sequence exhausted",window)
  else
    let token : PerformanceIntentToken :=
      ⟨window.performanceGeneration,window.performanceSequence+1⟩
    let applied := window.feedback.apply (.begin token target desiredActive)
    (applied.answer.map fun _ => token,
      { window with
        performanceSequence := window.performanceSequence+1
        feedback := applied.table })

/-- A commit that the table refuses clears it. -/
def commitPerformanceIntent (token : PerformanceIntentToken) : CommandWindow T :=
  let applied := window.feedback.apply (.commitBegin token)
  let committed := { window with feedback := applied.table }
  match applied.answer with
  | .ok _ => committed
  | .error error =>
    let cleared := committed.tell "performance_feedback_reset" (.reset token.generation)
    { cleared with diagnostics := cleared.diagnostics ++ [("performance_feedback_commit",error)] }

def rollbackPerformanceIntent (token : PerformanceIntentToken) : CommandWindow T :=
  window.tell "performance_feedback_rollback" (.rollbackBegin token)

def onError (error : String) : CommandWindow T :=
  { window with errors := window.errors ++ [error] }

/-- The intent goes with its command: it is committed once the command is queued, and else rolled
back. -/
def trySend (queued : QueuedCommand T) : CommandWindow T :=
  match window.commands.bind fun commands => commands.push queued with
  | some commands =>
    let sent := { window with commands := some commands }
    queued.intentToken.elim sent sent.commitPerformanceIntent
  | none =>
    (queued.intentToken.elim window window.rollbackPerformanceIntent).onError
      (if window.commands.isSome then "browser command queue is full"
      else "browser networking is not initialized or has closed")

def dispatch (command : ClientCommand T) : CommandWindow T :=
  match performanceTarget command with
  | none => window.trySend ⟨command,none⟩
  | some target =>
    let begun := window.beginPerformanceIntent target.1 target.2
    match begun.1 with
    | .error error => begun.2.onError error
    | .ok token => begun.2.trySend ⟨command,some token⟩

def dispatchAll (commands : List (ClientCommand T)) : CommandWindow T :=
  commands.foldl dispatch window

/-- All of the commands are in the queue, and no caller is told of a failure. -/
structure Accepts (commands : List (ClientCommand T)) : Prop where
  queued : ∃ queue, (window.dispatchAll commands).commands = some queue ∧
    queue.items.map QueuedCommand.command = commands
  silent : (window.dispatchAll commands).errors = window.errors

end CommandWindow

section Slots

variable {A B : Type} {slots : List (Option A)} {slot : Nat}

theorem reduceOption_set_of_none (h : slots[slot]? = some none) (item : A) :
    (slots.set slot (some item)).reduceOption.Perm (item :: slots.reduceOption) := by
  induction slots generalizing slot with
  | nil => cases h
  | cons first slots ih =>
    cases slot with
    | zero =>
      obtain rfl : first = none := by simpa using h
      simp
    | succ slot =>
      have hfree : slots[slot]? = some none := by simpa using h
      have hrest := ih hfree
      cases first with
      | none => simpa using hrest
      | some taken =>
        simp only [List.set_cons_succ,List.reduceOption_cons_of_some]
        exact (hrest.cons taken).trans (.swap item taken _)

theorem map_reduceOption_set (f : A → B) {old item : A} (h : slots[slot]? = some (some old))
    (hsame : f item = f old) :
    (slots.set slot (some item)).reduceOption.map f = slots.reduceOption.map f := by
  induction slots generalizing slot with
  | nil => cases h
  | cons first slots ih =>
    cases slot with
    | zero =>
      obtain rfl : first = some old := by simpa using h
      simp [hsame]
    | succ slot =>
      have hold : slots[slot]? = some (some old) := by simpa using h
      have hrest := ih hold
      cases first <;> simpa using hrest

end Slots

section Targets

variable {feedback after : PerformanceFeedback} {token : PerformanceIntentToken}
  {target : TunedDegree} {desiredActive : Bool}

def pendingTargets (feedback : PerformanceFeedback) : List TunedDegree :=
  feedback.slots.reduceOption.map PendingFeedback.target

theorem mem_pendingTargets : target ∈ pendingTargets feedback ↔
    ∃ pending, some pending ∈ feedback.slots ∧ pending.target = target := by
  simp [pendingTargets,List.reduceOption_mem_iff]

theorem slotFor_cases {slot : Nat} (h : feedback.slotFor target = some slot) :
    (∃ old, feedback.slots[slot]? = some (some old) ∧ old.target = target) ∨
      feedback.slots[slot]? = some none ∧ target ∉ pendingTargets feedback := by
  have hholder := PerformanceFeedback.slotFor_holder h
  unfold PerformanceFeedback.slotFor at h
  split at h
  · rename_i found hfound
    cases h
    obtain ⟨hbound,hhit,-⟩ := List.findIdx?_eq_some_iff_getElem.mp hfound
    obtain ⟨old,hold,htarget⟩ := (Option.any_eq_true _ _).mp hhit
    exact .inl ⟨old,by rw [List.getElem?_eq_getElem hbound,hold],of_decide_eq_true htarget⟩
  · obtain ⟨hbound,hfree,-⟩ := List.findIdx?_eq_some_iff_getElem.mp h
    have hnone : feedback.slots[slot]? = some none := by
      rw [List.getElem?_eq_getElem hbound,Option.isNone_iff_eq_none.mp hfree]
    refine .inr ⟨hnone,fun hmem => ?_⟩
    obtain ⟨pending,hpending,htarget⟩ := mem_pendingTargets.mp hmem
    obtain ⟨old,hold,-⟩ | hother := hholder
    · rw [hnone] at hold
      cases hold
    · exact hother pending hpending htarget

theorem pendingTargets_begin
    (h : feedback.beginTransaction token target desiredActive = .ok after) :
    (target ∈ pendingTargets feedback ∧ pendingTargets after = pendingTargets feedback) ∨
      target ∉ pendingTargets feedback ∧
        (pendingTargets after).Perm (target :: pendingTargets feedback) := by
  obtain ⟨-,-,-,slot,hslot,rfl⟩ := PerformanceFeedback.beginTransaction_slotFor h
  obtain ⟨old,hold,htarget⟩ | ⟨hfree,hnew⟩ := slotFor_cases hslot
  · have hmem : target ∈ pendingTargets feedback :=
      mem_pendingTargets.mpr ⟨old,List.mem_of_getElem? hold,htarget⟩
    exact .inl ⟨hmem,map_reduceOption_set _ hold htarget.symm⟩
  · exact .inr ⟨hnew,(reduceOption_set_of_none hfree _).map _⟩

/-- A begin that meets no other obstacle is refused just if the table is full of other degrees. -/
theorem begin_refused (hclosed : feedback.beginRollback = none) (hsequence : token.sequence ≠ 0)
    (hgeneration : feedback.generation = some token.generation)
    (hfresh : feedback.highWater < token.sequence) {error : String}
    (h : feedback.beginTransaction token target desiredActive = .error error) :
    target ∉ pendingTargets feedback ∧
      (pendingTargets feedback).length = feedback.slots.length := by
  unfold PerformanceFeedback.beginTransaction at h
  simp only [hclosed,hsequence,hgeneration,Nat.not_le.mpr hfresh,ne_eq,not_true_eq_false,
    if_false] at h
  cases hslot : feedback.slotFor target with
  | some slot => simp [hslot] at h
  | none =>
    have hfull := PerformanceFeedback.slotFor_eq_none hslot
    constructor
    · intro hmem
      obtain ⟨pending,hpending,htarget⟩ := mem_pendingTargets.mp hmem
      obtain ⟨other,hother,hne⟩ := hfull _ hpending
      exact hne (Option.some.inj hother ▸ htarget)
    · have hsome : feedback.slots.filter Option.isSome = feedback.slots := by
        refine List.filter_eq_self.mpr fun slot hslot => ?_
        obtain ⟨pending,rfl,-⟩ := hfull slot hslot
        rfl
      rw [pendingTargets,List.length_map,List.reduceOption_length_eq,hsome]

end Targets

section Runs

def targets (commands : List (ClientCommand T)) : List TunedDegree :=
  commands.filterMap fun command => (performanceTarget command).map Prod.fst

/-- In a room, with nothing pending and nothing queued. -/
structure CommandWindow.Idle (window : CommandWindow T) (capacity : Nat) : Prop where
  activeRoom : window.activeRoom = true
  generation : window.performanceGeneration ≠ 0
  bounded : window.performanceSequence < 2^64
  installed : window.feedback.generation = some window.performanceGeneration
  highWater : window.feedback.highWater ≤ window.performanceSequence
  closed : window.feedback.beginRollback = none
  free : ∀ slot ∈ window.feedback.slots, slot = none
  queue : window.commands = some (.empty capacity)

structure CommandWindow.Took (start : CommandWindow T) (capacity : Nat)
    (commands : List (ClientCommand T)) (window : CommandWindow T) : Prop where
  activeRoom : window.activeRoom = true
  generation : window.performanceGeneration ≠ 0
  installed : window.feedback.generation = some window.performanceGeneration
  highWater : window.feedback.highWater ≤ window.performanceSequence
  closed : window.feedback.beginRollback = none
  sequence : window.performanceSequence = start.performanceSequence+(targets commands).length
  bounded : window.performanceSequence < 2^64
  distinct : (pendingTargets window.feedback).Nodup
  pending : ∀ target, target ∈ pendingTargets window.feedback ↔ target ∈ targets commands
  slots : window.feedback.slots.length = start.feedback.slots.length
  queue : ∃ queue, window.commands = some queue ∧ queue.capacity = capacity ∧
    queue.items.map QueuedCommand.command = commands ∧
      ∀ queued ∈ queue.items,
        queued.intentToken.isSome = (performanceTarget queued.command).isSome
  errors : window.errors = start.errors

/-- There is a slot for each degree, room in the queue for each command, and a number for each
intent. -/
structure CommandWindow.Fits (start : CommandWindow T) (capacity : Nat)
    (commands : List (ClientCommand T)) : Prop where
  slots : (targets commands).toFinset.card ≤ start.feedback.slots.length
  queue : commands.length ≤ capacity
  numbers : start.performanceSequence+(targets commands).length < 2^64

namespace CommandWindow

variable {start window : CommandWindow T} {capacity : Nat} {commands : List (ClientCommand T)}
  {command : ClientCommand T}

theorem Took.fits (h : Took start capacity commands window) : start.Fits capacity commands where
  slots := by
    have hsame : (targets commands).toFinset = (pendingTargets window.feedback).toFinset := by
      ext target
      simp [h.pending]
    rw [hsame,List.toFinset_card_of_nodup h.distinct,← h.slots,pendingTargets,List.length_map]
    exact List.reduceOption_length_le _
  queue := by
    obtain ⟨queue,-,hcapacity,hitems,-⟩ := h.queue
    have hbounded := queue.bounded
    rw [← hitems,List.length_map]
    omega
  numbers := by
    have hsequence := h.sequence
    have hbounded := h.bounded
    omega

theorem Fits.prefix (h : start.Fits capacity (commands ++ [command])) :
    start.Fits capacity commands where
  slots := by
    refine (Finset.card_le_card fun target htarget => ?_).trans h.slots
    simp only [targets,List.filterMap_append,List.toFinset_append,Finset.mem_union]
    exact .inl htarget
  queue := by
    have hqueue := h.queue
    simp at hqueue
    omega
  numbers := by
    have hnumbers := h.numbers
    simp only [targets,List.filterMap_append,List.length_append] at hnumbers ⊢
    omega

theorem Idle.pendingTargets (h : start.Idle capacity) : pendingTargets start.feedback = [] := by
  refine List.eq_nil_iff_forall_not_mem.mpr fun target htarget => ?_
  obtain ⟨pending,hpending,-⟩ := mem_pendingTargets.mp htarget
  cases h.free _ hpending

theorem Idle.took (h : start.Idle capacity) : Took start capacity [] start where
  activeRoom := h.activeRoom
  generation := h.generation
  installed := h.installed
  highWater := h.highWater
  closed := h.closed
  sequence := rfl
  bounded := h.bounded
  distinct := by simp [h.pendingTargets]
  pending := by simp [h.pendingTargets,targets]
  slots := rfl
  queue := ⟨_,h.queue,rfl,rfl,by simp⟩
  errors := rfl

section Steps

variable {target : TunedDegree} {desiredActive : Bool} {begun : PerformanceFeedback}
  {token : PerformanceIntentToken}

theorem tell_errors (window : CommandWindow T) (code : String) (event : PerformanceFeedbackEvent) :
    (window.tell code event).errors = window.errors := by
  unfold tell
  simp only
  split <;> rfl

theorem trySend_full {queued : QueuedCommand T} {queue : BoundedQueue (QueuedCommand T)}
    (hqueue : window.commands = some queue) (hfull : queue.push queued = none) :
    (window.trySend queued).errors = window.errors ++ ["browser command queue is full"] := by
  obtain ⟨command,intentToken⟩ := queued
  cases intentToken with
  | none => simp [trySend,hqueue,hfull,onError]
  | some token =>
    simp [trySend,hqueue,hfull,onError,rollbackPerformanceIntent,tell_errors]

theorem trySend_taken {queue after : BoundedQueue (QueuedCommand T)}
    (hqueue : window.commands = some queue)
    (hpush : queue.push ⟨command,none⟩ = some after) :
    window.trySend ⟨command,none⟩ = { window with commands := some after } := by
  simp [trySend,hqueue,hpush]

theorem trySend_committed {queue after : BoundedQueue (QueuedCommand T)}
    (hqueue : window.commands = some queue)
    (hbegin : begun.beginTransaction token target desiredActive = .ok window.feedback)
    (hpush : queue.push ⟨command,some token⟩ = some after) :
    window.trySend ⟨command,some token⟩ =
      { window with
        commands := some after
        feedback := { window.feedback with beginRollback := none } } := by
  have hcommit := PerformanceFeedback.commit_begin hbegin
  simp only [trySend,hqueue,hpush,Option.bind_some,Option.elim_some,commitPerformanceIntent,
    PerformanceFeedback.apply,PerformanceFeedback.commitInPlace_eq,hcommit,
    Session.FeedbackApplied.checked,Session.FeedbackApplied.map]
  rfl

theorem Took.begin_ok (h : Took start capacity commands window)
    (hnumber : window.performanceSequence+1 < 2^64)
    (hbegin : window.feedback.beginTransaction
      ⟨window.performanceGeneration,window.performanceSequence+1⟩ target desiredActive =
        .ok begun) :
    window.beginPerformanceIntent target desiredActive =
      (.ok ⟨window.performanceGeneration,window.performanceSequence+1⟩,
        { window with
          performanceSequence := window.performanceSequence+1
          feedback := begun }) := by
  simp only [beginPerformanceIntent,h.activeRoom,h.generation,Nat.not_le.mpr hnumber,
    PerformanceFeedback.apply,hbegin,Session.FeedbackApplied.checked]
  rfl

theorem Took.begin_error (h : Took start capacity commands window)
    (hnumber : window.performanceSequence+1 < 2^64) {error : String}
    (hbegin : window.feedback.beginTransaction
      ⟨window.performanceGeneration,window.performanceSequence+1⟩ target desiredActive =
        .error error) :
    window.beginPerformanceIntent target desiredActive =
      (.error error,{ window with performanceSequence := window.performanceSequence+1 }) := by
  simp only [beginPerformanceIntent,h.activeRoom,h.generation,Nat.not_le.mpr hnumber,
    PerformanceFeedback.apply,hbegin,Session.FeedbackApplied.checked]
  rfl

theorem begin_exhausted (window : CommandWindow T)
    (hnumber : 2^64 ≤ window.performanceSequence+1) (target : TunedDegree)
    (desiredActive : Bool) :
    ∃ error, window.beginPerformanceIntent target desiredActive = (.error error,window) := by
  unfold beginPerformanceIntent
  split
  · exact ⟨_,rfl⟩
  · exact ⟨_,rfl⟩

theorem targets_snoc (commands : List (ClientCommand T)) (command : ClientCommand T) :
    targets (commands ++ [command]) =
      targets commands ++ ((performanceTarget command).map Prod.fst).toList := by
  simp only [targets,List.filterMap_append]
  cases h : (performanceTarget command).map Prod.fst <;> simp [h]

theorem Took.untargeted (h : Took start capacity commands window)
    (hnone : performanceTarget command = none) {queue after : BoundedQueue (QueuedCommand T)}
    (hqueue : window.commands = some queue) (hpush : queue.push ⟨command,none⟩ = some after) :
    Took start capacity (commands ++ [command]) { window with commands := some after } := by
  obtain ⟨-,hitems,hcapacity⟩ := BoundedQueue.push_eq_some hpush
  obtain ⟨other,hother,hbound,hcommands,htokens⟩ := h.queue
  obtain rfl := Option.some.inj (hqueue.symm.trans hother)
  have htargets : targets (commands ++ [command]) = targets commands := by
    simp [targets_snoc,hnone]
  refine ⟨h.activeRoom,h.generation,h.installed,h.highWater,h.closed,?_,h.bounded,h.distinct,?_,
    h.slots,⟨after,rfl,hcapacity.trans hbound,?_,?_⟩,h.errors⟩
  · rw [htargets]
    exact h.sequence
  · rw [htargets]
    exact h.pending
  · simp [hitems,hcommands]
  · intro queued hqueued
    rw [hitems,List.mem_append,List.mem_singleton] at hqueued
    obtain hold | rfl := hqueued
    · exact htokens queued hold
    · simp [hnone]

theorem Took.targeted (h : Took start capacity commands window)
    (htarget : performanceTarget command = some (target,desiredActive))
    (hnumber : window.performanceSequence+1 < 2^64)
    (hbegin : window.feedback.beginTransaction
      ⟨window.performanceGeneration,window.performanceSequence+1⟩ target desiredActive =
        .ok begun) {queue after : BoundedQueue (QueuedCommand T)}
    (hqueue : window.commands = some queue)
    (hpush : queue.push ⟨command,
      some ⟨window.performanceGeneration,window.performanceSequence+1⟩⟩ = some after) :
    Took start capacity (commands ++ [command])
      { window with
        performanceSequence := window.performanceSequence+1
        commands := some after
        feedback := { begun with beginRollback := none } } := by
  obtain ⟨-,hitems,hcapacity⟩ := BoundedQueue.push_eq_some hpush
  obtain ⟨other,hother,hbound,hcommands,htokens⟩ := h.queue
  obtain rfl := Option.some.inj (hqueue.symm.trans hother)
  have htargets : targets (commands ++ [command]) = targets commands ++ [target] := by
    simp [targets_snoc,htarget]
  have hpending := pendingTargets_begin hbegin
  obtain ⟨-,hgeneration,-,slot,hslot,rfl⟩ := PerformanceFeedback.beginTransaction_slotFor hbegin
  refine ⟨h.activeRoom,h.generation,h.installed,le_refl _,rfl,?_,hnumber,?_,?_,?_,
    ⟨after,rfl,hcapacity.trans hbound,?_,?_⟩,h.errors⟩
  · show window.performanceSequence+1 = _
    rw [htargets,List.length_append,List.length_singleton,h.sequence,Nat.add_assoc]
  · obtain ⟨-,hsame⟩ | ⟨hnew,hperm⟩ := hpending
    · exact hsame ▸ h.distinct
    · exact hperm.nodup_iff.mpr (List.nodup_cons.mpr ⟨hnew,h.distinct⟩)
  · intro wanted
    rw [htargets,List.mem_append,List.mem_singleton,← h.pending wanted]
    obtain ⟨hmem,hsame⟩ | ⟨-,hperm⟩ := hpending
    · refine (hsame ▸ Iff.rfl : _ ↔ wanted ∈ pendingTargets window.feedback).trans ?_
      constructor
      · exact .inl
      · rintro (hwanted | rfl)
        · exact hwanted
        · exact hmem
    · exact hperm.mem_iff.trans (List.mem_cons.trans or_comm)
  · simpa using h.slots
  · simp [hitems,hcommands]
  · intro queued hqueued
    rw [hitems,List.mem_append,List.mem_singleton] at hqueued
    obtain hold | rfl := hqueued
    · exact htokens queued hold
    · simp [htarget]

/-- A command that finds no number, no slot or no room in the queue does not fit. -/
theorem Took.dispatch (h : Took start capacity commands window) (command : ClientCommand T) :
    Took start capacity (commands ++ [command]) (window.dispatch command) ∨
      ¬ start.Fits capacity (commands ++ [command]) ∧
        ∃ error, (window.dispatch command).errors = window.errors ++ [error] := by
  obtain ⟨queue,hqueue,hcapacity,hitems,-⟩ := h.queue
  have hlength : queue.items.length = commands.length := by
    rw [← hitems,List.length_map]
  have hovertaken : ∀ queued, queue.push queued = none →
      ¬ start.Fits capacity (commands ++ [command]) := by
    intro queued hfull hfits
    have hroom := hfits.queue
    have hfilled := BoundedQueue.push_eq_none.mp hfull
    simp only [List.length_append,List.length_singleton] at hroom
    omega
  unfold CommandWindow.dispatch
  split
  next hnone =>
    cases hpush : queue.push ⟨command,none⟩ with
    | none => exact .inr ⟨hovertaken _ hpush,_,trySend_full hqueue hpush⟩
    | some after =>
      rw [trySend_taken hqueue hpush]
      exact .inl (h.untargeted hnone hqueue hpush)
  next wanted hwanted =>
    obtain ⟨target,desiredActive⟩ := wanted
    have htargets : targets (commands ++ [command]) = targets commands ++ [target] := by
      simp [targets_snoc,hwanted]
    by_cases hnumber : window.performanceSequence+1 < 2^64
    · cases hbegin : window.feedback.beginTransaction
          ⟨window.performanceGeneration,window.performanceSequence+1⟩ target desiredActive with
      | error error =>
        rw [h.begin_error hnumber hbegin]
        refine .inr ⟨fun hfits => ?_,error,rfl⟩
        obtain ⟨hnew,hfull⟩ := begin_refused h.closed (Nat.succ_ne_zero _) h.installed
          (Nat.lt_succ_of_le h.highWater) hbegin
        have hcard := hfits.slots
        have hsame : (targets (commands ++ [command])).toFinset =
            (target :: pendingTargets window.feedback).toFinset := by
          ext other
          simp [htargets,h.pending]
        rw [hsame,List.toFinset_card_of_nodup (List.nodup_cons.mpr ⟨hnew,h.distinct⟩),
          List.length_cons,hfull,h.slots] at hcard
        omega
      | ok begun =>
        rw [h.begin_ok hnumber hbegin]
        cases hpush : queue.push ⟨command,
            some ⟨window.performanceGeneration,window.performanceSequence+1⟩⟩ with
        | none =>
          exact .inr ⟨hovertaken _ hpush,_,trySend_full hqueue hpush⟩
        | some after =>
          have hsent : CommandWindow.trySend { window with
                performanceSequence := window.performanceSequence+1
                feedback := begun } ⟨command,some _⟩ = _ :=
            trySend_committed hqueue hbegin hpush
          refine .inl ?_
          simp only [hsent]
          exact h.targeted hwanted hnumber hbegin hqueue hpush
    · obtain ⟨error,hrefused⟩ := begin_exhausted window (Nat.not_lt.mp hnumber) target desiredActive
      rw [hrefused]
      refine .inr ⟨fun hfits => hnumber ?_,error,rfl⟩
      have hnumbers := hfits.numbers
      have hsequence := h.sequence
      rw [htargets,List.length_append,List.length_singleton] at hnumbers
      omega

end Steps

theorem onError_errors (window : CommandWindow T) (error : String) :
    (window.onError error).errors = window.errors ++ [error] := rfl

theorem commitPerformanceIntent_errors (window : CommandWindow T)
    (token : PerformanceIntentToken) :
    (window.commitPerformanceIntent token).errors = window.errors := by
  unfold commitPerformanceIntent
  simp only
  split
  · rfl
  · exact tell_errors _ _ _

theorem beginPerformanceIntent_errors (window : CommandWindow T) (target : TunedDegree)
    (desiredActive : Bool) :
    (window.beginPerformanceIntent target desiredActive).2.errors = window.errors := by
  unfold beginPerformanceIntent
  split
  · rfl
  · split <;> rfl

theorem trySend_errors (window : CommandWindow T) (queued : QueuedCommand T) :
    window.errors <+: (window.trySend queued).errors := by
  unfold trySend
  split
  · obtain ⟨command,token⟩ := queued
    cases token with
    | none => exact List.prefix_rfl
    | some token =>
      rw [Option.elim_some,commitPerformanceIntent_errors]
  · rw [onError_errors]
    refine List.IsPrefix.trans ?_ (List.prefix_append _ _)
    obtain ⟨command,token⟩ := queued
    cases token with
    | none => exact List.prefix_rfl
    | some token =>
      rw [Option.elim_some,rollbackPerformanceIntent,tell_errors]

theorem dispatch_errors (window : CommandWindow T) (command : ClientCommand T) :
    window.errors <+: (window.dispatch command).errors := by
  unfold dispatch
  split
  · exact trySend_errors _ _
  next target htarget =>
    have hbegun := beginPerformanceIntent_errors window target.1 target.2
    simp only
    split
    · rw [onError_errors,hbegun]
      exact List.prefix_append _ _
    · rw [← hbegun]
      exact trySend_errors _ _

theorem dispatchAll_errors (window : CommandWindow T) (commands : List (ClientCommand T)) :
    window.errors <+: (window.dispatchAll commands).errors := by
  induction commands generalizing window with
  | nil => exact List.prefix_rfl
  | cons command commands ih =>
    exact (dispatch_errors window command).trans (ih (window.dispatch command))

theorem dispatchAll_snoc (window : CommandWindow T) (commands : List (ClientCommand T))
    (command : ClientCommand T) :
    window.dispatchAll (commands ++ [command]) =
      (window.dispatchAll commands).dispatch command := by
  simp [dispatchAll]

theorem Idle.dispatchAll (h : start.Idle capacity) (commands : List (ClientCommand T)) :
    Took start capacity commands (start.dispatchAll commands) ∨
      ¬ start.Fits capacity commands ∧ (start.dispatchAll commands).errors ≠ start.errors := by
  induction commands using List.reverseRecOn with
  | nil => exact .inl h.took
  | append_singleton commands command ih =>
    rw [dispatchAll_snoc]
    have hbefore := dispatchAll_errors start commands
    have hstep := dispatch_errors (start.dispatchAll commands) command
    obtain htook | ⟨hfits,hchanged⟩ := ih
    · obtain hnext | ⟨hfits,error,htold⟩ := htook.dispatch command
      · exact .inl hnext
      · refine .inr ⟨hfits,fun hsame => ?_⟩
        rw [htold,htook.errors] at hsame
        simp at hsame
    · refine .inr ⟨fun hwhole => hfits hwhole.prefix,fun hsame => hchanged ?_⟩
      rw [hsame] at hstep
      exact hstep.eq_of_length_le hbefore.length_le

theorem Took.accepts {commands : List (ClientCommand T)}
    (h : Took start capacity commands (start.dispatchAll commands)) : start.Accepts commands := by
  obtain ⟨queue,hqueue,-,hitems,-⟩ := h.queue
  exact ⟨⟨queue,hqueue,hitems⟩,h.errors⟩

theorem Idle.accepts_iff (h : start.Idle capacity) (commands : List (ClientCommand T)) :
    start.Accepts commands ↔ start.Fits capacity commands := by
  obtain htook | ⟨hfits,hchanged⟩ := h.dispatchAll commands
  · exact iff_of_true htook.accepts htook.fits
  · exact iff_of_false (fun haccepts => hchanged haccepts.silent) hfits

theorem Idle.took_of_fits (h : start.Idle capacity) (hfits : start.Fits capacity commands) :
    Took start capacity commands (start.dispatchAll commands) := by
  obtain htook | ⟨hnone,-⟩ := h.dispatchAll commands
  · exact htook
  · exact absurd hfits hnone

end CommandWindow

end Runs

end WalkieSongie.Client
