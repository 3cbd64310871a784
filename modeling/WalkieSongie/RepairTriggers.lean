import Mathlib.Data.List.Nodup
import WalkieSongie.RepairTasks
import WalkieSongie.RequestLog
set_option autoImplicit false

/-!
A key has one owner at a time, and a repair that was asked for is begun, unless an attempt that the
trigger found at work ends its batch without having completed.
-/

namespace WalkieSongie.Repair
open RequestLog

variable {tasks tasks' : RepairTasks} {key other : RepairKey} {phase : InitiatorPhase}
  {next : Option InitiatorPhase} {repairs repairs' : RepairCoordinatorState}
  {resumption : Resumption} {index : Nat}

/-- The turn ends its batch, and the batch has not completed. -/
def InitiatorPhase.quits : InitiatorPhase → Resumption → Bool
  | .attempting retry, .attempted result =>
    !completed result && (!retryFresh result || retry = divergentBackoffMs.length)
  | _, _ => false

/-- An attempt is under way, or the work that ends it. -/
def InitiatorPhase.busy : InitiatorPhase → Bool
  | .attempting _ | .establishing _ => true
  | _ => false

theorem InitiatorPhase.resume_of_quits (h : phase.quits resumption = true) :
    phase.resume key repairs resumption = some (none,repairs.finish key) := by
  cases phase with
  | attempting retry =>
    cases resumption with
    | attempted result =>
      simp only [quits,Bool.and_eq_true,Bool.not_eq_true'] at h
      simp [resume,reported,h.1,h.2]
    | _ => simp [quits] at h
  | _ => simp [quits] at h

theorem reported_cases (key : RepairKey) (repairs : RepairCoordinatorState) (retry : Nat)
    (result : AttemptResult) :
    reported key retry result repairs = (some (.sleeping retry),repairs) ∨
    ((InitiatorPhase.attempting retry).quits (.attempted result) = true ∧
      reported key retry result repairs = (none,repairs.finish key)) ∨
    (completed result = true ∧
      reported key retry result repairs =
        (if (repairs.continuePending key).1 then some (.attempting 0) else none,
          (repairs.continuePending key).2)) := by
  unfold reported
  by_cases hends : (!retryFresh result || decide (retry = divergentBackoffMs.length)) = true
  · cases hcompleted : completed result with
    | true => simp [hends]
    | false => simp_all [InitiatorPhase.quits]
  · simp [hends]

theorem InitiatorPhase.resume_cases
    (h : phase.resume key repairs resumption = some (next,repairs')) :
    (∃ retry, next = some (.attempting retry) ∧ repairs' = repairs) ∨
    (∃ retry, phase = .attempting retry ∧ repairs' = repairs ∧
      (next = some (.establishing retry) ∨ next = some (.sleeping retry))) ∨
    (phase.quits resumption = true ∧ next = none ∧ repairs' = repairs.finish key) ∨
    (phase.busy = true ∧ repairs' = (repairs.continuePending key).2 ∧
      next = if (repairs.continuePending key).1 then some (.attempting 0) else none) := by
  cases resumption with
  | polled =>
    cases phase <;> simp [resume] at h
    exact .inl ⟨0,h.1.symm,h.2.symm⟩
  | slept =>
    cases phase <;> simp [resume] at h
    exact .inl ⟨_,h.1.symm,h.2.symm⟩
  | attempted result =>
    cases phase <;> simp [resume] at h
    rename_i retry
    split at h
    · simp at h
      exact .inr (.inl ⟨retry,rfl,h.2.symm,.inl h.1.symm⟩)
    · rcases reported_cases key repairs retry result with hr | ⟨hquits,hr⟩ | ⟨-,hr⟩
      · simp [hr] at h
        exact .inr (.inl ⟨retry,rfl,h.2.symm,.inr h.1.symm⟩)
      · simp [hr] at h
        exact .inr (.inr (.inl ⟨hquits,h.1.symm,h.2.symm⟩))
      · simp [hr] at h
        exact .inr (.inr (.inr ⟨rfl,h.2.symm,h.1.symm⟩))
  | established result =>
    cases phase <;> simp [resume] at h
    rename_i retry
    simp [reported,retryFresh,completed] at h
    exact .inr (.inr (.inr ⟨rfl,h.2.symm,h.1.symm⟩))

namespace RepairCoordinatorState

theorem continuePending_cases (h : (repairs.active.get? key).isSome = true) :
    (repairs.active.get? key = some true ∧ repairs.continuePending key =
      (true,{ repairs with active := repairs.active.insert key false })) ∨
    (repairs.active.get? key = some false ∧ repairs.continuePending key =
      (false,{ repairs with active := repairs.active.erase key })) := by
  cases hpending : repairs.active.get? key with
  | none => simp [hpending] at h
  | some pending =>
    cases pending with
    | true => simp [continuePending,hpending]
    | false => simp [continuePending,hpending]

end RepairCoordinatorState

/-- A turn touches the entry of its own key alone, and takes it out just where the task returns. -/
theorem InitiatorPhase.resume_repairs
    (h : phase.resume key repairs resumption = some (next,repairs'))
    (hactive : (repairs.active.get? key).isSome = true) :
    repairs'.responders = repairs.responders ∧
      (∀ other, other ≠ key → repairs'.active.get? other = repairs.active.get? other) ∧
      (repairs'.active.get? key).isSome = next.isSome := by
  rcases resume_cases h with ⟨retry,rfl,rfl⟩ | ⟨retry,-,rfl,rfl | rfl⟩ | ⟨-,rfl,rfl⟩ | ⟨-,rfl,rfl⟩
  · simp [hactive]
  · simp [hactive]
  · simp [hactive]
  · refine ⟨rfl,fun other hother => ?_,?_⟩
    · simp [RepairCoordinatorState.finish,KeyedMap.get?_erase,hother]
    · simp [RepairCoordinatorState.finish,KeyedMap.get?_erase]
  · rcases RepairCoordinatorState.continuePending_cases hactive with ⟨-,hpending⟩ | ⟨-,hpending⟩
    · rw [hpending]
      refine ⟨rfl,fun other hother => ?_,by simp⟩
      simp [KeyedMap.get?_insert,hother]
    · rw [hpending]
      refine ⟨rfl,fun other hother => ?_,by simp [KeyedMap.get?_erase]⟩
      simp [KeyedMap.get?_erase,hother]

namespace RepairTasks

/-- One task at most has a key, and the coordinator knows whose it is. -/
structure Owned (tasks : RepairTasks) : Prop where
  initiators : (tasks.initiators.map InitiatorTask.key).Nodup
  responding : tasks.responding.Nodup
  active : ∀ key, (tasks.repairs.active.get? key).isSome = true ↔
    key ∈ tasks.initiators.map InitiatorTask.key
  responders : ∀ key, key ∈ tasks.repairs.responders ↔ key ∈ tasks.responding
  apart : ∀ key, key ∈ tasks.repairs.responders → tasks.repairs.active.get? key = none

theorem owned_start : Owned {} := by
  constructor <;> simp

theorem trigger_cases (tasks : RepairTasks) (key : RepairKey) :
    (key ∈ tasks.repairs.responders ∧ tasks.spawnRepairInitiator key =
      { tasks with log := tasks.log ++ [.triggered key] }) ∨
    (key ∉ tasks.repairs.responders ∧ (tasks.repairs.active.get? key).isSome = true ∧
      tasks.spawnRepairInitiator key = { tasks with
        repairs.active := tasks.repairs.active.insert key true
        log := tasks.log ++ [.triggered key] }) ∨
    (key ∉ tasks.repairs.responders ∧ tasks.repairs.active.get? key = none ∧
      tasks.spawnRepairInitiator key = { tasks with
        repairs.active := tasks.repairs.active.insert key false
        initiators := tasks.initiators ++ [⟨key,.spawned⟩]
        log := tasks.log ++ [.triggered key] }) := by
  by_cases hresponder : key ∈ tasks.repairs.responders
  · simp [spawnRepairInitiator,RepairCoordinatorState.schedule,hresponder]
  · cases hactive : tasks.repairs.active.get? key with
    | none => simp [spawnRepairInitiator,RepairCoordinatorState.schedule,hresponder,hactive]
    | some pending => simp [spawnRepairInitiator,RepairCoordinatorState.schedule,hresponder,hactive]

theorem inbound_cases (tasks : RepairTasks) (key : RepairKey) :
    tasks.spawnRepairResponder key = tasks ∨
    (key ∉ tasks.repairs.responders ∧ tasks.repairs.active.get? key = none ∧
      tasks.spawnRepairResponder key = { tasks with
        repairs.responders := insert key tasks.repairs.responders
        responding := tasks.responding ++ [key] }) := by
  by_cases hresponder : key ∈ tasks.repairs.responders
  · simp [spawnRepairResponder,RepairCoordinatorState.beginResponder,hresponder]
  · cases hactive : tasks.repairs.active.get? key with
    | none => simp [spawnRepairResponder,RepairCoordinatorState.beginResponder,hresponder,hactive]
    | some pending => simp [spawnRepairResponder,RepairCoordinatorState.beginResponder,hactive]

theorem resumeInitiator_cases (h : tasks.resumeInitiator index resumption = some tasks') :
    ∃ before task after next repairs',
      tasks.initiators = before ++ task :: after ∧
      tasks.initiators[index]? = some task ∧
      task.phase.resume task.key tasks.repairs resumption = some (next,repairs') ∧
      tasks' = { tasks with
        repairs := repairs'
        initiators := before ++ (next.map (InitiatorTask.mk task.key)).toList ++ after
        log := tasks.log ++ turnEvents task.key next } := by
  simp only [resumeInitiator,Option.bind_eq_bind,Option.bind_eq_some_iff] at h
  obtain ⟨task,htask,⟨next,repairs'⟩,hresume,htasks⟩ := h
  obtain ⟨hindex,rfl⟩ := List.getElem?_eq_some_iff.mp htask
  have hsplit : tasks.initiators = tasks.initiators.take index ++
      tasks.initiators[index] :: tasks.initiators.drop (index+1) := by
    rw [← List.drop_eq_getElem_cons hindex,List.take_append_drop]
  refine ⟨_,_,_,next,repairs',hsplit,htask,hresume,?_⟩
  cases next with
  | none => simpa [List.eraseIdx_eq_take_drop_succ] using htasks.symm
  | some phase => simpa [List.set_eq_take_append_cons_drop,hindex] using htasks.symm

theorem resumeResponder_cases (h : tasks.resumeResponder index = some tasks') :
    ∃ key ∈ tasks.responding,
      tasks' = { tasks with
        repairs := tasks.repairs.finishResponder key
        responding := tasks.responding.eraseIdx index } ∧ tasks.responding[index]? = some key := by
  simp only [resumeResponder,Option.bind_eq_bind,Option.bind_eq_some_iff] at h
  obtain ⟨key,hkey,htasks⟩ := h
  exact ⟨key,List.mem_of_getElem? hkey,by simpa using htasks.symm,hkey⟩

theorem Owned.trigger (h : Owned tasks) (key : RepairKey) :
    Owned (tasks.spawnRepairInitiator key) := by
  rcases trigger_cases tasks key with
    ⟨-,htrigger⟩ | ⟨hresponder,hactive,htrigger⟩ | ⟨hresponder,hactive,htrigger⟩
  · rw [htrigger]
    exact { h with }
  · rw [htrigger]
    refine { h with active := fun other => ?_, apart := fun other hother => ?_ }
    · by_cases hsame : other = key
      · subst other
        simpa [hactive] using h.active key
      · simpa [KeyedMap.get?_insert,hsame] using h.active other
    · have hne : other ≠ key := fun hsame => hresponder (hsame ▸ hother)
      simpa [KeyedMap.get?_insert,hne] using h.apart other hother
  · rw [htrigger]
    have hfresh : key ∉ tasks.initiators.map InitiatorTask.key := by
      rw [← h.active key,hactive]
      simp
    refine { h with initiators := ?_, active := fun other => ?_, apart := fun other hother => ?_ }
    · rw [List.map_append,List.map_singleton,← List.concat_eq_append]
      exact h.initiators.concat hfresh
    · by_cases hsame : other = key
      · simp [hsame]
      · simpa [KeyedMap.get?_insert,hsame] using h.active other
    · have hne : other ≠ key := fun hsame => hresponder (hsame ▸ hother)
      simpa [KeyedMap.get?_insert,hne] using h.apart other hother

theorem Owned.inbound (h : Owned tasks) (key : RepairKey) :
    Owned (tasks.spawnRepairResponder key) := by
  rcases inbound_cases tasks key with hinbound | ⟨hresponder,hactive,hinbound⟩
  · rwa [hinbound]
  · rw [hinbound]
    have hfresh : key ∉ tasks.responding := by
      rwa [← h.responders key]
    have hresponding := h.responding.concat hfresh
    rw [List.concat_eq_append] at hresponding
    refine { h with
      responding := hresponding, responders := fun other => ?_, apart := fun other hother => ?_ }
    · simp [h.responders other,or_comm]
    · rcases Finset.mem_insert.mp hother with rfl | hheld
      · exact hactive
      · exact h.apart other hheld

theorem Owned.resumeInitiator (h : Owned tasks)
    (hstep : tasks.resumeInitiator index resumption = some tasks') : Owned tasks' := by
  obtain ⟨before,task,after,next,repairs',hsplit,-,hresume,rfl⟩ := resumeInitiator_cases hstep
  have hnodup := h.initiators
  have hactive := h.active
  rw [hsplit] at hnodup hactive
  have hheld : (tasks.repairs.active.get? task.key).isSome = true := by
    simp [hactive]
  obtain ⟨hresponders,hothers,hown⟩ := InitiatorPhase.resume_repairs hresume hheld
  simp [List.nodup_append] at hnodup
  refine { h with
    initiators := ?_, active := fun key => ?_, responders := ?_, apart := fun key hkey => ?_ }
  · cases next with
    | none => simp [List.nodup_append]; grind
    | some phase => simp [List.nodup_append]; grind
  · by_cases hsame : key = task.key
    · subst key
      rw [hown]
      cases next with
      | none => simp; grind
      | some phase => simp
    · rw [hothers key hsame,hactive key]
      cases next <;> simp [hsame]
  · simpa [hresponders] using h.responders
  · rw [hresponders] at hkey
    have hnone := h.apart key hkey
    have hne : key ≠ task.key := by
      rintro rfl
      simp [hnone] at hheld
    rw [hothers key hne,hnone]

theorem Owned.resumeResponder (h : Owned tasks)
    (hstep : tasks.resumeResponder index = some tasks') : Owned tasks' := by
  obtain ⟨key,hmem,rfl,hkey⟩ := resumeResponder_cases hstep
  obtain ⟨hindex,rfl⟩ := List.getElem?_eq_some_iff.mp hkey
  rw [← h.responding.erase_getElem index hindex]
  refine { h with
    responding := h.responding.erase _, responders := fun other => ?_,
    apart := fun other hother => ?_ }
  · simp [RepairCoordinatorState.finishResponder,h.responding.mem_erase_iff,h.responders other]
  · exact h.apart other (Finset.mem_of_mem_erase hother)

theorem Owned.step {step : RepairStep} (h : Owned tasks) (hstep : tasks.step step = some tasks') :
    Owned tasks' := by
  cases step with
  | trigger key =>
    simp only [RepairTasks.step,Option.some.injEq] at hstep
    exact hstep ▸ h.trigger key
  | inbound key =>
    simp only [RepairTasks.step,Option.some.injEq] at hstep
    exact hstep ▸ h.inbound key
  | resume index resumption => exact h.resumeInitiator hstep
  | responded index => exact h.resumeResponder hstep

theorem Owned.unique (h : Owned tasks) {first second : InitiatorTask}
    (hfirst : first ∈ tasks.initiators) (hsecond : second ∈ tasks.initiators)
    (hkey : first.key = second.key) : first = second :=
  List.inj_on_of_nodup_map h.initiators hfirst hsecond hkey

def Unserved (tasks : RepairTasks) (key : RepairKey) : Prop :=
  Unanswered (.triggered key) (.attempted key) tasks.log

/-- A trigger finds no responder of its key at work, and the attempt that ends a batch without
completing it has begun after the last trigger of its key. -/
def Meets (tasks : RepairTasks) : RepairStep → Prop
  | .trigger key => key ∉ tasks.repairs.responders
  | .resume index resumption => ∀ task ∈ tasks.initiators[index]?,
    task.phase.quits resumption = true → ¬ tasks.Unserved task.key
  | .inbound _ | .responded _ => True

/-- The turns that an initiator in this phase may have taken since a trigger it has to answer. -/
def turnsTaken : InitiatorPhase → Nat
  | .spawned | .attempting _ => 0
  | .establishing _ | .sleeping _ => 1

/-- The task will begin an attempt for the key. -/
structure Due (tasks : RepairTasks) (key : RepairKey) (task : InitiatorTask) : Prop where
  mem : task ∈ tasks.initiators
  owner : task.key = key
  waits : WaitsAtMost (.triggered key) (.attempted key) (.resumed key) (turnsTaken task.phase)
    tasks.log
  pending : task.phase.busy = true → tasks.repairs.active.get? key = some true

def Kept (tasks : RepairTasks) : Prop :=
  ∀ key, tasks.Unserved key → ∃ task, tasks.Due key task

theorem kept_start : Kept {} := fun _ h => absurd h not_unanswered_nil

theorem Kept.waits {task : InitiatorTask} (h : Kept tasks) (howned : Owned tasks)
    (htask : task ∈ tasks.initiators) :
    WaitsAtMost (.triggered task.key) (.attempted task.key) (.resumed task.key)
      (turnsTaken task.phase) tasks.log := by
  by_cases hunserved : tasks.Unserved task.key
  · obtain ⟨due,hdue⟩ := h task.key hunserved
    obtain rfl := howned.unique hdue.mem htask hdue.owner
    exact hdue.waits
  · exact waitsAtMost_of_answered hunserved

theorem Kept.trigger (h : Kept tasks) (howned : Owned tasks)
    (hmeets : key ∉ tasks.repairs.responders) : Kept (tasks.spawnRepairInitiator key) := by
  rcases trigger_cases tasks key with ⟨hresponder,-⟩ | ⟨-,hactive,htrigger⟩ | ⟨-,hactive,htrigger⟩
  · exact absurd hresponder hmeets
  · rw [htrigger]
    intro other hunserved
    by_cases hsame : other = key
    · subst other
      obtain ⟨task,htask,rfl⟩ := List.mem_map.mp ((howned.active key).mp hactive)
      exact ⟨task,htask,rfl,(h.waits howned htask).concat (by simp),fun _ => by simp⟩
    · have hbefore : tasks.Unserved other := by
        simpa [Unserved,unanswered_concat,Ne.symm hsame] using hunserved
      obtain ⟨task,hdue⟩ := h other hbefore
      refine ⟨task,hdue.mem,hdue.owner,hdue.waits.concat (by simp),fun hbusy => ?_⟩
      simpa [KeyedMap.get?_insert,hsame] using hdue.pending hbusy
  · rw [htrigger]
    intro other hunserved
    by_cases hsame : other = key
    · subst other
      have hanswered : ¬ tasks.Unserved key := by
        intro hbefore
        obtain ⟨task,hdue⟩ := h key hbefore
        have hheld := (howned.active key).mpr (List.mem_map.mpr ⟨task,hdue.mem,hdue.owner⟩)
        simp [hactive] at hheld
      refine ⟨⟨key,.spawned⟩,by simp,rfl,?_,by simp [InitiatorPhase.busy]⟩
      exact (waitsAtMost_of_answered hanswered).concat (by simp)
    · have hbefore : tasks.Unserved other := by
        simpa [Unserved,unanswered_concat,Ne.symm hsame] using hunserved
      obtain ⟨task,hdue⟩ := h other hbefore
      refine ⟨task,by simp [hdue.mem],hdue.owner,hdue.waits.concat (by simp),fun hbusy => ?_⟩
      simpa [KeyedMap.get?_insert,hsame] using hdue.pending hbusy

theorem Kept.inbound (h : Kept tasks) (key : RepairKey) :
    Kept (tasks.spawnRepairResponder key) := by
  rcases inbound_cases tasks key with hinbound | ⟨-,-,hinbound⟩
  · rwa [hinbound]
  · rw [hinbound]
    intro other hunserved
    obtain ⟨task,hdue⟩ := h other hunserved
    exact ⟨task,{ hdue with }⟩

theorem unserved_turn :
    Unanswered (.triggered other) (.attempted other) (tasks.log ++ turnEvents key next) ↔
      tasks.Unserved other ∧ (other = key → ∀ retry, next ≠ some (.attempting retry)) := by
  unfold turnEvents
  split
  · rw [List.append_cons,unanswered_concat,unanswered_concat]
    simp [Unserved]
    tauto
  · rw [unanswered_concat]
    simp [Unserved]
    grind

theorem waits_turnEvents {bound : Nat} (hne : other ≠ key)
    (h : WaitsAtMost (.triggered other) (.attempted other) (.resumed other) bound tasks.log) :
    WaitsAtMost (.triggered other) (.attempted other) (.resumed other) bound
      (tasks.log ++ turnEvents key next) := by
  have hturn : WaitsAtMost (.triggered other) (.attempted other) (.resumed other) bound
      (tasks.log ++ [.resumed key]) := h.concat (by simpa using Ne.symm hne)
  unfold turnEvents
  split
  · rw [List.append_cons]
    exact hturn.concat (by simp)
  · exact hturn

theorem Kept.resumeInitiator (h : Kept tasks) (howned : Owned tasks)
    (hmeets : tasks.Meets (.resume index resumption))
    (hstep : tasks.resumeInitiator index resumption = some tasks') : Kept tasks' := by
  obtain ⟨before,task,after,next,repairs',hsplit,hindex,hresume,rfl⟩ := resumeInitiator_cases hstep
  have htask : task ∈ tasks.initiators := List.mem_of_getElem? hindex
  have hheld : (tasks.repairs.active.get? task.key).isSome = true :=
    (howned.active _).mpr (List.mem_map_of_mem htask)
  intro key hunserved
  obtain ⟨hbefore,hnext⟩ := unserved_turn.mp hunserved
  obtain ⟨due,hdue⟩ := h key hbefore
  by_cases hsame : key = task.key
  · obtain rfl := howned.unique hdue.mem htask (hdue.owner.trans hsame)
    subst key
    have hbusy := hdue.pending
    rcases InitiatorPhase.resume_cases hresume with
      ⟨retry,hattempt,-⟩ | ⟨retry,hphase,rfl,hwaits⟩ | ⟨hquits,-,-⟩ | ⟨hbatch,-,hcontinue⟩
    · exact absurd hattempt (hnext rfl retry)
    · have hnow := hdue.waits
      rw [hphase] at hnow hbusy
      rcases hwaits with rfl | rfl
      · exact ⟨⟨due.key,.establishing retry⟩,by simp,rfl,hnow.concat_turn,fun _ => hbusy rfl⟩
      · exact ⟨⟨due.key,.sleeping retry⟩,by simp,rfl,hnow.concat_turn,fun _ => hbusy rfl⟩
    · exact absurd hbefore (hmeets due hindex hquits)
    · rw [RepairCoordinatorState.continuePending,hbusy hbatch] at hcontinue
      exact absurd hcontinue (hnext rfl 0)
  · have hmem := hdue.mem
    have hne : due ≠ task := by
      rintro rfl
      exact hsame hdue.owner.symm
    rw [hsplit,List.mem_append,List.mem_cons] at hmem
    obtain ⟨-,hothers,-⟩ := InitiatorPhase.resume_repairs hresume hheld
    refine ⟨due,?_,hdue.owner,waits_turnEvents hsame hdue.waits,fun hbusy => ?_⟩
    · simp only [List.mem_append]
      tauto
    · rw [hothers key hsame]
      exact hdue.pending hbusy

theorem Kept.step {step : RepairStep} (h : Kept tasks) (howned : Owned tasks)
    (hmeets : tasks.Meets step) (hstep : tasks.step step = some tasks') : Kept tasks' := by
  cases step with
  | trigger key =>
    simp only [RepairTasks.step,Option.some.injEq] at hstep
    exact hstep ▸ h.trigger howned hmeets
  | inbound key =>
    simp only [RepairTasks.step,Option.some.injEq] at hstep
    exact hstep ▸ h.inbound key
  | resume index resumption => exact h.resumeInitiator howned hmeets hstep
  | responded index =>
    obtain ⟨key,-,rfl,-⟩ := resumeResponder_cases hstep
    intro other hunserved
    obtain ⟨task,hdue⟩ := h other hunserved
    exact ⟨task,{ hdue with }⟩

/-- Every trigger is followed by an attempt, or some task is to begin one at the latest with its
second turn after the trigger. -/
def TriggersAnswered (tasks : RepairTasks) : Prop :=
  ∀ key later, .triggered key :: later <:+ tasks.log → .attempted key ∈ later ∨
    (∃ task ∈ tasks.initiators, task.key = key) ∧ later.count (.resumed key) ≤ 1

theorem Kept.answered (h : Kept tasks) : TriggersAnswered tasks := by
  intro key later hsuffix
  by_cases hattempt : .attempted key ∈ later
  · exact .inl hattempt
  · obtain ⟨task,hdue⟩ := h key ⟨later,hsuffix,hattempt⟩
    have hturns : turnsTaken task.phase ≤ 1 := by
      cases task.phase <;> simp [turnsTaken]
    exact .inr ⟨⟨task,hdue.mem,hdue.owner⟩,(hdue.waits later hsuffix hattempt).trans hturns⟩

/-- A step that does not meet the condition loses a trigger. -/
theorem meets_of_answered {step : RepairStep} (howned : Owned tasks)
    (hstep : tasks.step step = some tasks') (h : TriggersAnswered tasks') : tasks.Meets step := by
  cases step with
  | inbound key => trivial
  | responded index => trivial
  | trigger key =>
    simp only [RepairTasks.step,Option.some.injEq] at hstep
    subst hstep
    intro hresponder
    rcases trigger_cases tasks key with ⟨-,htrigger⟩ | ⟨hfree,-,-⟩ | ⟨hfree,-,-⟩
    · rw [htrigger] at h
      rcases h key [] (List.suffix_append _ _) with hattempt | ⟨⟨task,htask,hkey⟩,-⟩
      · simp at hattempt
      · have hheld := (howned.active key).mpr (List.mem_map.mpr ⟨task,htask,hkey⟩)
        simp [howned.apart key hresponder] at hheld
    · exact hfree hresponder
    · exact hfree hresponder
  | resume index resumption =>
    intro task htask hquits hunserved
    obtain ⟨before,held,after,next,repairs',hsplit,hindex,hresume,rfl⟩ :=
      resumeInitiator_cases hstep
    obtain rfl : held = task := by simpa [hindex] using htask
    have hnodup := howned.initiators
    rw [hsplit] at hnodup
    rw [InitiatorPhase.resume_of_quits hquits] at hresume
    simp only [Option.some.injEq,Prod.mk.injEq] at hresume
    obtain ⟨rfl,rfl⟩ := hresume
    have hlost : Unanswered (.triggered held.key) (.attempted held.key)
        (tasks.log ++ turnEvents held.key none) := unserved_turn.mpr ⟨hunserved,by simp⟩
    obtain ⟨later,hsuffix,hattempt⟩ := hlost
    rcases h held.key later hsuffix with hserved | ⟨⟨task,htask,hkey⟩,-⟩
    · exact hattempt hserved
    · simp [List.nodup_append] at hnodup
      simp at htask
      grind

def MeetsThroughout : List RepairStep → RepairTasks → Prop
  | [], _ => True
  | step :: steps, tasks =>
    tasks.Meets step ∧ ∀ tasks' ∈ tasks.step step, MeetsThroughout steps tasks'

theorem Owned.run {steps : List RepairStep} (h : Owned tasks)
    (hrun : run steps tasks = some tasks') : Owned tasks' := by
  induction steps generalizing tasks with
  | nil =>
    simp only [RepairTasks.run,Option.some.injEq] at hrun
    exact hrun ▸ h
  | cons step steps ih =>
    obtain ⟨middle,hstep,hrest⟩ := Option.bind_eq_some_iff.mp hrun
    exact ih (h.step hstep) hrest

theorem Kept.run {steps : List RepairStep} (h : Kept tasks) (howned : Owned tasks)
    (hmeets : MeetsThroughout steps tasks) (hrun : run steps tasks = some tasks') :
    Kept tasks' := by
  induction steps generalizing tasks with
  | nil =>
    simp only [RepairTasks.run,Option.some.injEq] at hrun
    exact hrun ▸ h
  | cons step steps ih =>
    obtain ⟨middle,hstep,hrest⟩ := Option.bind_eq_some_iff.mp hrun
    exact ih (h.step howned hmeets.1 hstep) (howned.step hstep) (hmeets.2 middle hstep) hrest

def running (key : RepairKey) (tasks : RepairTasks) : Nat :=
  (tasks.initiators.map InitiatorTask.key).count key + tasks.responding.count key

theorem Owned.running_le_one (h : Owned tasks) (key : RepairKey) : tasks.running key ≤ 1 := by
  have hinitiators := List.nodup_iff_count_le_one.mp h.initiators key
  have hresponding := List.nodup_iff_count_le_one.mp h.responding key
  by_cases hresponder : key ∈ tasks.repairs.responders
  · have hfree : key ∉ tasks.initiators.map InitiatorTask.key := by
      rw [← h.active key,h.apart key hresponder]
      simp
    have hnone := List.count_eq_zero_of_not_mem hfree
    unfold running
    omega
  · have hnone := List.count_eq_zero_of_not_mem fun hmem => hresponder ((h.responders key).mpr hmem)
    unfold running
    omega

end RepairTasks

section Triggers
open RepairTasks

theorem repair_triggers_answered {steps : List RepairStep}
    (hrun : RepairTasks.run steps {} = some tasks) :
    (∀ key, tasks.running key ≤ 1 ∧
      ¬ ((tasks.repairs.active.get? key).isSome = true ∧ key ∈ tasks.repairs.responders)) ∧
    (MeetsThroughout steps {} → TriggersAnswered tasks ∧
      ∀ step tasks', tasks.step step = some tasks' →
        (TriggersAnswered tasks' ↔ tasks.Meets step)) := by
  have howned := owned_start.run hrun
  refine ⟨fun key => ⟨howned.running_le_one key,?_⟩,fun hmeets => ?_⟩
  · rintro ⟨hactive,hresponder⟩
    simp [howned.apart key hresponder] at hactive
  · have hkept := kept_start.run owned_start hmeets hrun
    refine ⟨hkept.answered,fun step tasks' hstep => ⟨meets_of_answered howned hstep,?_⟩⟩
    intro hstepMeets
    exact (hkept.step howned hstepMeets hstep).answered

/-- A second trigger lands in the attempt of the first, which completes. -/
def answeredSteps : List RepairStep :=
  [.trigger ⟨1,.extension⟩,.resume 0 .polled,.trigger ⟨1,.extension⟩,
    .resume 0 (.attempted (.ok .complete))]

theorem meets_answeredSteps : MeetsThroughout answeredSteps {} := by
  refine ⟨by simp [Meets],fun _ h => ?_⟩
  cases h
  refine ⟨fun task htask hquits => ?_,fun _ h => ?_⟩
  · cases htask
    cases hquits
  cases h
  refine ⟨show _ ∉ (∅ : Finset RepairKey) by simp,fun _ h => ?_⟩
  cases h
  refine ⟨fun task htask hquits => ?_,fun _ _ => trivial⟩
  cases htask
  cases hquits

theorem repair_triggers_answered_twice :
    ∃ tasks, RepairTasks.run answeredSteps {} = some tasks ∧ TriggersAnswered tasks :=
  ⟨_,rfl,((repair_triggers_answered (rfl : RepairTasks.run answeredSteps {} = some _)).2
    meets_answeredSteps).1⟩

/-- The attempt that the second trigger found at work fails to dial. -/
def lostSteps : List RepairStep :=
  [.trigger ⟨1,.music⟩,.resume 0 .polled,.trigger ⟨1,.music⟩,
    .resume 0 (.attempted (.error "dial: unreachable"))]

theorem failed_attempt_drops_trigger :
    ¬ ∀ steps tasks, RepairTasks.run steps {} = some tasks → TriggersAnswered tasks := by
  intro h
  obtain ⟨tasks,hrun,hinitiators,hlog⟩ : ∃ tasks, RepairTasks.run lostSteps {} = some tasks ∧
      tasks.initiators = [] ∧ tasks.log = [.triggered ⟨1,.music⟩,.resumed ⟨1,.music⟩,
        .attempted ⟨1,.music⟩,.triggered ⟨1,.music⟩,.resumed ⟨1,.music⟩] := ⟨_,rfl,rfl,rfl⟩
  have hsuffix : [.triggered ⟨1,.music⟩,.resumed ⟨1,.music⟩] <:+ tasks.log := by
    rw [hlog]
    exact List.suffix_append [_,_,_] _
  have hlost := h lostSteps tasks hrun ⟨1,.music⟩ [.resumed ⟨1,.music⟩] hsuffix
  simp [hinitiators] at hlost

end Triggers

end WalkieSongie.Repair
