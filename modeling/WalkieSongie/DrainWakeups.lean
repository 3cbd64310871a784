import WalkieSongie.SessionLive
set_option autoImplicit false

/-!
How a queued reification comes to be drained: the session task queues it and announces it in a
projection event, the window polls the service as long as it is told that something was taken out.
-/

namespace WalkieSongie.DrainWakeups

/-- What the session task does to the outside, in the order of its code. -/
inductive Effect (Plan : Type) where
  /-- A projection event with the correlations of the plans that it announces. -/
  | realtime (durable : List Plan)
  | enqueueReification (plan : Plan)
  deriving DecidableEq

namespace Effect

def announces {Plan : Type} : Effect Plan → Bool
  | realtime durable => !durable.isEmpty
  | enqueueReification _ => false

def enqueues {Plan : Type} : Effect Plan → Bool
  | realtime _ => false
  | enqueueReification _ => true

end Effect

/-- An input of the session task, with the plans that its handling makes ready, and whether a
projection of the presented session comes out of it. -/
inductive RoomSessionTaskInput (Plan : Type) where
  | localEdit (plan : Option Plan)
  | confirmLocal (ready : List Plan) (selected : Bool)
  | confirmRetired (ready : List Plan) (selected : Bool)
  | observe (ready : List Plan) (selected : Bool)
  /-- A durable advance, a reset, a remote event: nothing becomes ready. -/
  | other (selected : Bool)
  deriving DecidableEq

variable {Plan : Type}

namespace RoomSessionTaskInput

/-- Only a local edit queues its plan before it announces it (`localEdit_queues_first`,
`confirmation_announces_first`); a retired session's plans are not announced at all. -/
def effects : RoomSessionTaskInput Plan → List (Effect Plan)
  | localEdit plan => plan.toList.map .enqueueReification ++ [.realtime plan.toList]
  | confirmLocal ready selected | observe ready selected =>
      (if selected then [.realtime ready] else []) ++ ready.map .enqueueReification
  | confirmRetired ready selected =>
      ready.map .enqueueReification ++ [.realtime []] ++ if selected then [.realtime []] else []
  | other selected => if selected then [.realtime []] else []

/-- What the service sends to the task for a plan that it has made durable. -/
def isLocalCommitted : RoomSessionTaskInput Plan → Bool
  | confirmLocal _ _ | confirmRetired _ _ => true
  | _ => false

end RoomSessionTaskInput

/-- The window's drain loop; it runs, and `draining` is set, unless it is idle. -/
inductive DrainLoop where
  | idle
  /-- A `DrainSession` is on its way to the service. -/
  | requested
  /-- The service has answered whether it took a plan out of the queue. -/
  | answered (committed : Bool)
  deriving DecidableEq

structure Worker (Plan : Type) where
  inbox : List (RoomSessionTaskInput Plan) := []
  /-- What the task has still to do for the input at hand. -/
  current : List (Effect Plan) := []
  reifications : List Plan := []
  /-- The events that the window has not handled yet, oldest first. -/
  egress : List (List Plan) := []
  drainLoop : DrainLoop := .idle
  deriving DecidableEq

inductive Input (Plan : Type) where
  /-- An input reaches the task from the window, a peer or the repair. -/
  | receive (input : RoomSessionTaskInput Plan)
  | next
  | perform
  /-- The service handles a `DrainSession`. -/
  | drainSession (confirmation : RoomSessionTaskInput Plan)
  /-- The drain loop goes on after an answer. -/
  | drained
  /-- The window handles the next event. -/
  | sessionEvent

namespace Worker

variable (worker : Worker Plan)

def next : Option (Worker Plan) :=
  match worker.current, worker.inbox with
  | [], input :: rest => some { worker with current := input.effects, inbox := rest }
  | _, _ => none

/-- The task can be held up before each effect, by a full queue or otherwise. -/
def perform : Option (Worker Plan) :=
  match worker.current with
  | [] => none
  | .realtime durable :: rest =>
      some { worker with current := rest, egress := worker.egress ++ [durable] }
  | .enqueueReification plan :: rest =>
      some { worker with current := rest, reifications := worker.reifications ++ [plan] }

def drainSession (confirmation : RoomSessionTaskInput Plan) : Option (Worker Plan) :=
  match worker.drainLoop, worker.reifications with
  | .requested, [] => some { worker with drainLoop := .answered false }
  | .requested, _ :: rest =>
      if confirmation.isLocalCommitted = true then
        some { worker with
          reifications := rest
          inbox := worker.inbox ++ [confirmation]
          drainLoop := .answered true }
      else none
  | _, _ => none

def drained : Option (Worker Plan) :=
  match worker.drainLoop with
  | .answered true => some { worker with drainLoop := .requested }
  | .answered false => some { worker with drainLoop := .idle }
  | _ => none

def sessionEvent : Option (Worker Plan) :=
  match worker.egress with
  | [] => none
  | durable :: rest => some { worker with
      egress := rest
      drainLoop := if durable ≠ [] ∧ worker.drainLoop = .idle then .requested
        else worker.drainLoop }

def step : Input Plan → Option (Worker Plan)
  | .receive input =>
      if input.isLocalCommitted = true then none
      else some { worker with inbox := worker.inbox ++ [input] }
  | .next => worker.next
  | .perform => worker.perform
  | .drainSession confirmation => worker.drainSession confirmation
  | .drained => worker.drained
  | .sessionEvent => worker.sessionEvent

end Worker

def run (worker : Worker Plan) : List (Input Plan) → Option (Worker Plan)
  | [] => some worker
  | input :: rest => (worker.step input).bind fun after => run after rest

namespace Worker

variable (worker : Worker Plan)

/-- The input at hand has a plan still to queue. -/
def enqueues : Bool := worker.current.any Effect.enqueues

/-- An announcement that the window has not handled is under way, or is still to be made. -/
def announced : Bool :=
  worker.egress.any (!·.isEmpty) || worker.current.any Effect.announces

/-- The drain loop runs and will find what is in the queue. -/
def drains : Bool :=
  match worker.drainLoop with
  | .requested | .answered true => true
  | .idle | .answered false => false

/-- A plan is in the queue or about to be put there. -/
def Pending : Prop :=
  worker.reifications ≠ [] ∨ worker.current.head?.any Effect.enqueues = true

/-- The next event of the window is the last announcement. -/
def lastAnnouncement : Bool :=
  match worker.egress with
  | [] => false
  | durable :: rest =>
      !durable.isEmpty && !rest.any (!·.isEmpty) && !worker.current.any Effect.announces

/-- No wake-up is used up before the plan that it is for is in the queue. -/
def Keeps : Input Plan → Prop
  | .next => ∀ input ∈ worker.inbox.head?, input.effects.any Effect.enqueues = true →
      input.effects.any Effect.announces = false →
        worker.drains = true ∨ worker.announced = true
  | .drainSession _ => worker.reifications = [] → worker.enqueues = true →
      worker.announced = true
  | .sessionEvent => worker.drainLoop = .answered false → worker.lastAnnouncement = true →
      worker.reifications = [] ∧ worker.enqueues = false
  | _ => True

/-- The invariant: what is queued, or will be by the input at hand, is going to be drained. -/
def Woken : Prop :=
  worker.reifications ≠ [] ∨ worker.enqueues = true →
    worker.drains = true ∨ worker.announced = true

def Quiet : Prop :=
  worker.inbox = [] ∧ worker.current = [] ∧ worker.egress = [] ∧ worker.drainLoop = .idle

section Decidable

variable [DecidableEq Plan]

instance : Decidable worker.Pending := inferInstanceAs (Decidable (_ ∨ _))

instance : (input : Input Plan) → Decidable (worker.Keeps input)
  | .next => inferInstanceAs (Decidable (∀ input ∈ worker.inbox.head?, _))
  | .drainSession _ => inferInstanceAs (Decidable (worker.reifications = [] → _))
  | .sessionEvent => inferInstanceAs (Decidable (worker.drainLoop = .answered false → _))
  | .receive _ | .perform | .drained => isTrue trivial

end Decidable

def Kept : Worker Plan → List (Input Plan) → Prop
  | _, [] => True
  | worker, input :: rest =>
      worker.Keeps input ∧ ∀ after ∈ worker.step input, after.Kept rest

instance decidableKept [DecidableEq Plan] : (worker : Worker Plan) →
    (inputs : List (Input Plan)) → Decidable (worker.Kept inputs)
  | _, [] => isTrue trivial
  | worker, input :: rest =>
      have (after : Worker Plan) : Decidable (after.Kept rest) := decidableKept after rest
      inferInstanceAs (Decidable (worker.Keeps input ∧ ∀ after ∈ worker.step input, _))

variable {worker} {after : Worker Plan}

theorem enqueues_of_pending (h : worker.Pending) :
    worker.reifications ≠ [] ∨ worker.enqueues = true := by
  rcases h with hqueued | hnext
  · exact .inl hqueued
  · cases hcurrent : worker.current with
    | nil => simp [hcurrent] at hnext
    | cons effect rest =>
      simp only [hcurrent,List.head?_cons,Option.any_some] at hnext
      exact .inr (by simp [enqueues,hcurrent,hnext])

theorem Woken.next (h : worker.Woken) (hkeeps : worker.Keeps .next)
    (hstep : worker.next = some after) : after.Woken := by
  unfold Worker.next at hstep
  split at hstep
  next input rest hcurrent hinbox =>
    cases hstep
    intro hpending
    by_cases hannounces : input.effects.any Effect.announces = true
    · exact .inr (by simp [announced,hannounces])
    · by_cases henqueues : input.effects.any Effect.enqueues = true
      · have hkept := hkeeps input (by simp [hinbox]) henqueues (by simpa using hannounces)
        simpa [drains,announced,hcurrent,hannounces] using hkept
      · have hqueued : worker.reifications ≠ [] := by
          simpa [enqueues,henqueues] using hpending
        have hkept := h (.inl hqueued)
        simpa [drains,announced,hcurrent,hannounces] using hkept
  next => simp at hstep

theorem Woken.perform (h : worker.Woken) (hstep : worker.perform = some after) :
    after.Woken := by
  unfold Worker.perform at hstep
  split at hstep
  next => simp at hstep
  next durable rest hcurrent =>
    cases hstep
    intro hpending
    have hkept := h (by simpa [enqueues,hcurrent,Effect.enqueues] using hpending)
    rcases hkept with hdrains | hannounced
    · exact .inl hdrains
    · right
      simp only [announced,hcurrent,List.any_cons,Effect.announces,Bool.or_eq_true,
        List.any_append,List.any_nil,Bool.or_false] at hannounced ⊢
      tauto
  next plan rest hcurrent =>
    cases hstep
    intro _
    have hkept := h (.inr (by simp [enqueues,hcurrent,Effect.enqueues]))
    simpa [drains,announced,hcurrent,Effect.announces] using hkept

theorem Woken.drainSession {confirmation : RoomSessionTaskInput Plan}
    (hkeeps : worker.Keeps (.drainSession confirmation))
    (hstep : worker.drainSession confirmation = some after) : after.Woken := by
  unfold Worker.drainSession at hstep
  split at hstep
  next hrequested hempty =>
    cases hstep
    intro hpending
    have henqueues : worker.enqueues = true := by
      simpa [enqueues,hempty] using hpending
    exact .inr (hkeeps hempty henqueues)
  next plan rest hrequested hqueued =>
    split at hstep
    next =>
      cases hstep
      exact fun _ => .inl rfl
    next => simp at hstep
  next => simp at hstep

theorem Woken.drained (h : worker.Woken) (hstep : worker.drained = some after) :
    after.Woken := by
  unfold Worker.drained at hstep
  split at hstep
  next hanswered =>
    cases hstep
    exact fun _ => .inl rfl
  next hanswered =>
    cases hstep
    intro hpending
    rcases h hpending with hdrains | hannounced
    · simp [drains,hanswered] at hdrains
    · exact .inr hannounced
  next => simp at hstep

theorem Woken.sessionEvent (h : worker.Woken) (hkeeps : worker.Keeps .sessionEvent)
    (hstep : worker.sessionEvent = some after) : after.Woken := by
  unfold Worker.sessionEvent at hstep
  split at hstep
  next => simp at hstep
  next durable rest hegress =>
    cases hstep
    intro hpending
    have hkept := h hpending
    cases hdurable : durable.isEmpty with
    | true =>
      have hnil : durable = [] := by simpa using hdurable
      simpa [drains,announced,hegress,hnil] using hkept
    | false =>
      have hne : durable ≠ [] := by simpa using hdurable
      cases hloop : worker.drainLoop with
      | idle => exact .inl (by simp [drains,hne])
      | requested => exact .inl (by simp [drains])
      | answered committed =>
        cases committed with
        | true => exact .inl (by simp [drains])
        | false =>
          right
          by_contra hlast
          have hnone := hkeeps hloop (by
            simpa [lastAnnouncement,announced,hegress,hdurable] using hlast)
          rcases hpending with hqueued | henqueues
          · exact hqueued hnone.1
          · have hfalse : worker.enqueues = true := henqueues
            simp [hnone.2] at hfalse

theorem Woken.step (h : worker.Woken) {input : Input Plan} (hkeeps : worker.Keeps input)
    (hstep : worker.step input = some after) : after.Woken := by
  cases input with
  | receive input =>
    simp only [Worker.step,Option.ite_none_left_eq_some] at hstep
    obtain ⟨-,⟨⟩⟩ := hstep
    exact h
  | next => exact h.next hkeeps hstep
  | perform => exact h.perform hstep
  | drainSession confirmation => exact Woken.drainSession hkeeps hstep
  | drained => exact h.drained hstep
  | sessionEvent => exact h.sessionEvent hkeeps hstep

theorem Woken.run {inputs : List (Input Plan)} (h : worker.Woken) (hkept : worker.Kept inputs)
    (hrun : run worker inputs = some after) : after.Woken := by
  induction inputs generalizing worker with
  | nil =>
    cases hrun
    exact h
  | cons input rest ih =>
    obtain ⟨next,hstep,hrest⟩ := Option.bind_eq_some_iff.mp hrun
    exact ih (h.step hkept.1 hstep) (hkept.2 next hstep) hrest

theorem woken_opened : Woken ({} : Worker Plan) := by
  simp [Woken,enqueues]

theorem Woken.quiet (h : worker.Woken) (hquiet : worker.Quiet) : worker.reifications = [] := by
  obtain ⟨-,hcurrent,hegress,hloop⟩ := hquiet
  by_contra hqueued
  have hkept := h (.inl hqueued)
  simp [drains,announced,hcurrent,hegress,hloop] at hkept

end Worker

section SessionTask

open Session TaskProgram

variable {L : SessionLibrary} {world : World L} {before : Core L} {peer : ActorId}

/-- The correlations that the projection events so far have announced, newest first. -/
def announcements (core : Core L) : List (List RoomSessionDurableCorrelation) :=
  core.egress.filterMap fun event => match event with
    | .realtime event => if event.durable = [] then none else some event.durable
    | _ => none

def Silent (before after : Core L) : Prop :=
  after.queue = before.queue ∧ announcements after = announcements before

/-- Nothing is announced before a plan is queued. -/
def QueuesFirst (before after : Core L) : Prop :=
  after.queue = before.queue → announcements after = announcements before

theorem Silent.queuesFirst {after : Core L} (h : Silent before after) : QueuesFirst before after :=
  fun _ => h.2

theorem onActive_silent {A : Type} (missing : String)
    (program : EStateM String (ActiveSession L) A) (h : Silent before world.core) :
    Ends (fun _ => Silent before) (fun _ => Silent before)
      (onActive peer missing program world) := by
  refine Ends.getTask ?_
  cases world.core.task.active[peer]? with
  | none => exact Ends.fail h
  | some active =>
    cases hprogram : program active with
    | ok value after =>
      simp only [hprogram]
      exact Ends.bind (R := fun _ => Silent before) (Ends.modifyTask h) fun _ _ h => Ends.pure h
    | error message after =>
      simp only [hprogram]
      exact Ends.bind (R := fun _ => Silent before) (Ends.modifyTask h) fun _ _ h => Ends.fail h

theorem rejectIntent_queues_first {intentToken : PerformanceIntentToken} {reason : String}
    (h : Silent before world.core) :
    Ends (fun _ => QueuesFirst before) (fun _ => QueuesFirst before)
      (rejectIntent intentToken reason world) :=
  Ends.emit (fun _ => h.2) (fun _ => h.queuesFirst) fun _ => h.2

theorem failSessionGeneration_silent {A : Type} {reason : String} {Q : A → Core L → Prop}
    (h : Silent before world.core) :
    Ends Q (fun _ => Silent before) (failSessionGeneration reason world) :=
  Ends.bind (R := fun _ => Silent before) (Ends.modifyCore h) fun _ _ h => Ends.fail h

theorem announcements_sends (core : Core L) (event : RoomSessionRealtimeEgress L) :
    announcements (core.sends [] (.realtime event)) =
      (if event.durable = [] then [] else [event.durable]) ++ announcements core := by
  simp only [announcements,Core.sends,Core.opens,List.filterMap_cons]
  split_ifs <;> rfl

theorem emitRealtime_ends {event : RoomSessionRealtimeEgress L} {Q E : Core L → Prop}
    (hsent : Q (world.core.sends [] (.realtime event)))
    (hcrash : E (world.core.sends [] (.realtime event)))
    (hsame : ∀ core : Core L, Silent world.core core → E core) :
    Ends (fun _ => Q) (fun _ => E) (emitRealtimeOrFailGeneration event world) := by
  -- Only a crash can have sent the frame although the program ends there.
  have hemit : Ends (fun _ => Q)
      (fun stop core => E core ∧ ∀ message, stop = .failed message → Silent world.core core)
      (emit (.realtime event) world) :=
    Ends.emit hsent (fun _ => ⟨hsame _ ⟨rfl,rfl⟩,fun _ _ => ⟨rfl,rfl⟩⟩)
      ⟨hcrash,fun _ hstop => by cases hstop⟩
  refine Ends.bind (Ends.mono (Ends.attempt hemit) (fun _ _ h => h) fun _ _ h => h.1)
    fun sent after hafter => ?_
  cases sent with
  | ok _ => exact Ends.pure hafter
  | error message =>
    have hsilent : Silent world.core after.core := hafter.2 message rfl
    exact Ends.mono (failSessionGeneration_silent hsilent) (fun _ _ h => h) fun _ core h =>
      hsame core h

theorem queueLocalPlan_quiet {session : RoomSessionEpochIdentity}
    {intentToken : PerformanceIntentToken} {event : LocalSessionEvent L}
    (h : Silent before world.core) :
    Ends (fun _ core => announcements core = announcements before ∧
        (event.plan ≠ none → core.queue ≠ before.queue))
      (fun _ => QueuesFirst before)
      (queueLocalPlan peer session intentToken event world) := by
  unfold queueLocalPlan
  cases hplan : event.plan with
  | none => exact Ends.pure ⟨h.2,fun hsome => absurd rfl hsome⟩
  | some plan =>
    refine Ends.bind (R := fun _ => Silent before) (Ends.modifyTask h) fun _ added hadded => ?_
    have hqueue (reification : RoomSessionReification L) :
        (added.core.queues reification).queue ≠ before.queue := by
      simp [Core.queues,hadded.1]
    have hsent : Ends (fun _ core => announcements core = announcements before ∧
          core.queue ≠ before.queue)
        (fun _ core => announcements core = announcements before)
        (sendReification ⟨peer,session,plan,event.command,some intentToken⟩ added) :=
      Ends.bind (R := fun _ core => announcements core = announcements before ∧
          core.queue ≠ before.queue)
        (Ends.effect (fun _ => ⟨hadded.2,hqueue _⟩) (fun _ => hadded.2) hadded.2
          fun h => absurd h (by decide))
        fun _ _ h => Ends.pure h
    refine Ends.bind (Ends.mono (Ends.attempt hsent) (fun _ _ h => h) fun _ _ h _ => h)
      fun sent after hafter => ?_
    cases sent with
    | ok _ => exact Ends.pure ⟨hafter.1,fun _ => hafter.2⟩
    | error message =>
      refine Ends.bind (R := fun _ core => announcements core = announcements before)
        (Ends.modifyTask hafter) fun _ dropped hdropped => ?_
      exact Ends.bind (R := fun _ core => announcements core = announcements before)
        (Ends.modifyCore hdropped) fun _ _ h => Ends.fail fun _ => h

theorem publishLocalEvent_queues_first {intentToken : PerformanceIntentToken}
    {event : LocalSessionEvent L} (h : Silent before world.core) :
    Ends (fun _ => QueuesFirst before) (fun _ => QueuesFirst before)
      (publishLocalEvent peer intentToken event world) := by
  refine Ends.getTask ?_
  cases world.core.task.active[peer]? with
  | none => exact Ends.fail h.queuesFirst
  | some active =>
    refine Ends.bind (R := fun _ => Silent before) (Ends.modifyCore h) fun _ noted hnoted => ?_
    refine Ends.bind (queueLocalPlan_quiet hnoted) fun _ queued hqueued => ?_
    have hsent (frame : RoomSessionRealtimeEgress L)
        (hframe : frame.durable = (event.plan.map L.planCorrelation).toList) :
        QueuesFirst before (queued.core.sends [] (.realtime frame)) := by
      intro hsame
      cases hplan : event.plan with
      | none => simpa [announcements_sends,hframe,hplan] using hqueued.1
      | some plan => exact absurd hsame (hqueued.2 (by simp [hplan]))
    exact emitRealtime_ends (hsent _ rfl) (hsent _ rfl) fun core hcore _ =>
      hcore.2.trans hqueued.1

theorem sealLocalEdit_queues_first {command : MusicOp} {intentToken : PerformanceIntentToken}
    (h : Silent before world.core) :
    Ends (fun _ => QueuesFirst before) (fun _ => QueuesFirst before)
      (sealLocalEdit peer command intentToken world) := by
  have hquiet {A : Type} {program : TaskM L A} {world : World L}
      (hprogram : Ends (fun _ => Silent before) (fun _ => Silent before) (program world)) :
      Ends (fun _ => Silent before) (fun _ => QueuesFirst before)
        (Session.attempt program world) := by
    refine Ends.mono (Ends.attempt hprogram) (fun result _ h => ?_) fun _ _ (h : Silent before _) =>
      h.queuesFirst
    cases result with
    | ok _ => exact h
    | error _ => exact h
  have heffect {world : World L} (h : Silent before world.core) :
      Ends (fun _ => Silent before) (fun _ => Silent before)
        (effect (L := L) false id world) :=
    Ends.effect (fun _ => h) (fun _ => h) h fun _ _ => h
  refine Ends.bind (hquiet (heffect h)) fun reserved taken htaken => ?_
  cases reserved with
  | error _ => exact rejectIntent_queues_first htaken
  | ok _ =>
    have hticks : Ends (fun _ => Silent before) (fun _ => Silent before)
        (nowTicks (L := L) taken) := Ends.nowTicks (fun _ => htaken) fun _ => htaken
    refine Ends.bind (hquiet hticks) fun now read hread => ?_
    cases now with
    | error _ => exact rejectIntent_queues_first hread
    | ok receiverNow =>
      refine Ends.bind (hquiet (onActive_silent _ _ hread)) fun made sealed hsealed => ?_
      cases made with
      | error _ =>
        exact Ends.mono (failSessionGeneration_silent (Q := fun _ => Silent before) hsealed)
          (fun _ _ h => h.queuesFirst) fun _ _ h => h.queuesFirst
      | ok event => exact publishLocalEvent_queues_first hsealed

theorem localEdit_queues_first (command : MusicOp) (intentToken : PerformanceIntentToken) :
    Ends (fun _ => QueuesFirst world.core) (fun _ => QueuesFirst world.core)
      (localEdit command intentToken world) := by
  have hstart : Silent world.core world.core := ⟨rfl,rfl⟩
  have hfallback : Ends (fun _ => QueuesFirst world.core) (fun _ => QueuesFirst world.core)
      (emit (.fallbackDurable command intentToken) world) :=
    Ends.emit (fun _ => rfl) (fun _ _ => rfl) fun _ => rfl
  refine Ends.getTask ?_
  cases world.core.task.events with
  | none => exact Ends.fail hstart.queuesFirst
  | some workerGeneration =>
    refine Ends.branch (fun _ => rejectIntent_queues_first hstart) fun _ => ?_
    refine Ends.branch (fun _ => rejectIntent_queues_first hstart) fun _ => ?_
    cases world.core.task.selected with
    | none => exact hfallback
    | some selected =>
      obtain ⟨peer,active⟩ := selected
      refine Ends.branch (fun _ => hfallback) fun _ => ?_
      cases active.preflightLocalEvent with
      | error error => exact rejectIntent_queues_first hstart
      | ok _ => exact sealLocalEdit_queues_first hstart

theorem enqueueReifications_announcements {ready : List (ReadyReification L)} :
    Ends (fun _ core => announcements core = announcements world.core)
      (fun _ core => announcements core = announcements world.core)
      (enqueueReifications peer ready world) := by
  refine Ends.getTask ?_
  cases world.core.task.active[peer]? with
  | none => exact Ends.fail rfl
  | some active =>
    refine Ends.forM (fun core => announcements core = announcements world.core) rfl ?_
    rintro ⟨plan,command,intentToken⟩ - after hafter
    refine Ends.bind (R := fun _ core => announcements core = announcements world.core)
      (Ends.modifyTask hafter) fun _ added hadded => ?_
    have hsent : Ends (fun _ core => announcements core = announcements world.core)
        (fun _ core => announcements core = announcements world.core)
        (sendReification ⟨peer,active.identity,plan,command,intentToken⟩ added) :=
      Ends.bind (R := fun _ core => announcements core = announcements world.core)
        (Ends.effect (fun _ => hadded) (fun _ => hadded) hadded fun _ _ => hadded)
        fun _ _ h => Ends.pure h
    refine Ends.bind (Ends.attempt hsent) fun sent after hafter => ?_
    cases sent with
    | ok _ => exact Ends.pure hafter
    | error _ =>
      exact Ends.bind (R := fun _ core => announcements core = announcements world.core)
        (Ends.modifyTask hafter) fun _ _ h => Ends.fail h

/-- A confirmation announces what has become ready before it queues it, if a projection is
selected, and not at all otherwise. -/
theorem confirmation_announces_first {kind : RoomSessionProjectionKind}
    {ready : List (ReadyReification L)} {intentToken : Option PerformanceIntentToken}
    {horizon : DurableHorizon L} {projection : Option RoomSessionProjection} {selected : World L}
    (hselected : advanceCompanionsAndSelectProjection peer kind horizon world =
      .ok projection selected) (hready : ready ≠ []) :
    let announced (core : Core L) : Prop := core.queue ≠ selected.core.queue →
      announcements core = projection.toList.map (fun _ =>
        ready.map fun reification => L.planCorrelation reification.1) ++
          announcements selected.core
    Ends (fun _ => announced) (fun _ => announced)
      ((publishConfirmation peer kind ready intentToken horizon >>= fun _ =>
        enqueueReifications peer ready) world) := by
  intro announced
  have hdurable : ready.map (fun reification => L.planCorrelation reification.1) ≠ [] := by
    simpa using hready
  have hpublished : Ends (fun _ core => announcements core = projection.toList.map (fun _ =>
          ready.map fun reification => L.planCorrelation reification.1) ++
            announcements selected.core)
      (fun _ core => core.queue = selected.core.queue)
      (publishConfirmation peer kind ready intentToken horizon world) := by
    unfold publishConfirmation
    rw [bind_of_ok hselected]
    refine Ends.bind (R := fun _ core => core.queue = selected.core.queue ∧
      announcements core = announcements selected.core) (Ends.modifyTask ⟨rfl,rfl⟩)
      fun _ told htold => ?_
    cases projection with
    | none => exact Ends.pure htold.2
    | some projection =>
      refine emitRealtime_ends ?_ htold.1 fun core hcore => hcore.1.trans htold.1
      rw [announcements_sends,if_neg hdurable,htold.2]
      rfl
  refine Ends.bind (Ends.mono hpublished (fun _ _ h => h) fun _ core h hqueue => absurd h hqueue)
    fun _ published htold => ?_
  exact Ends.mono enqueueReifications_announcements (fun _ _ h _ => h.trans htold)
    fun _ _ h _ => h.trans htold

end SessionTask

/-- Where no wake-up is used up early, every plan that is queued, or about to be, is going to be
drained, and none is left when nothing is under way any more. -/
theorem queued_is_drained {inputs : List (Input Plan)} {worker : Worker Plan}
    (hkept : Worker.Kept {} inputs) (hrun : run {} inputs = some worker) :
    (worker.Pending → worker.drains = true ∨ worker.announced = true) ∧
      (worker.Quiet → worker.reifications = []) := by
  have hwoken := Worker.woken_opened.run hkept hrun
  constructor
  · exact fun hpending => hwoken (Worker.enqueues_of_pending hpending)
  · exact hwoken.quiet

/-- Two edits, the second one waiting for the first; both are drained. -/
theorem queued_is_drained_chained :
    ∃ worker : Worker Nat, run {} [.receive (.localEdit (some 1)),.next,.perform,.perform,
        .receive (.localEdit none),.next,.perform,.sessionEvent,
        .drainSession (.confirmLocal [2] true),.drained,.next,.perform,.sessionEvent,.perform] =
          some worker ∧
      worker.reifications = [2] ∧ (worker.drains = true ∨ worker.announced = true) := by
  refine ⟨_,rfl,rfl,?_⟩
  exact (@queued_is_drained Nat [.receive (.localEdit (some 1)),.next,.perform,.perform,
    .receive (.localEdit none),.next,.perform,.sessionEvent,
    .drainSession (.confirmLocal [2] true),.drained,.next,.perform,.sessionEvent,.perform] _
    (by decide) rfl).1 (by decide)

/-- The confirmation of the first edit announces the second one before it queues it; the window
polls in between, finds nothing and stops. -/
theorem announced_plan_is_left :
    ∃ worker : Worker Nat, run {} [.receive (.localEdit (some 1)),.next,.perform,.perform,
        .receive (.localEdit none),.next,.perform,.sessionEvent,.sessionEvent,
        .drainSession (.confirmLocal [2] true),.drained,.drainSession (.other false),.drained,
        .next,.perform,.sessionEvent,.drainSession (.other false),.drained,.perform] =
          some worker ∧
      worker.reifications = [2] ∧ worker.Pending ∧
      ¬ (worker.drains = true ∨ worker.announced = true) ∧ worker.Quiet :=
  ⟨_,rfl,rfl,by decide,by decide,rfl,rfl,rfl,rfl⟩

end WalkieSongie.DrainWakeups
