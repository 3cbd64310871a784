import WalkieSongie.PerformanceFeedback
import WalkieSongie.ProjectionGate
set_option autoImplicit false

/-!
The way of a performance intent: from the window's command loop to the session task, through its
kernel and the reification lane, and back in a session event that resolves it.
-/

namespace WalkieSongie.IntentOutcomes
open Session

inductive RoomSessionEgress where
  | realtime (projection : RoomSessionProjection) (intentToken : Option PerformanceIntentToken)
  | fallbackDurable (intentToken : PerformanceIntentToken)
  | intentRejected (intentToken : PerformanceIntentToken)
  deriving DecidableEq

def durableIntentResolved : RoomSessionProjectionKind → Bool
  | .confirmed | .corrected | .advanced => true
  | .reset | .predicted => false

inductive CommandOutcome where
  | sent
  | internalError
  | refused
  deriving DecidableEq

/-- What the task makes of a local edit, and whether the window takes the frame for it. -/
inductive EditOutcome where
  | rejected (taken : Bool)
  | fallback (taken : Bool)
  | predicted (projection : RoomSessionProjection) (taken : Bool)
  deriving DecidableEq

/-- What the task makes of the durable admission of an edit. -/
inductive Confirmation where
  | published (projection : RoomSessionProjection) (taken : Bool)
  /-- No projection is selected. -/
  | unselected
  /-- A library refuses, and the handling ends with a diagnostic. -/
  | failed
  | retired (projection : RoomSessionProjection) (taken : Bool)
  deriving DecidableEq

def Confirmation.told : Confirmation → Bool
  | .published projection _ => projection.kind ≠ .predicted
  | .unselected | .failed => false
  | .retired _ _ => true

structure Generation where
  generation : Nat
  performanceSequence : Nat := 0
  feedback : PerformanceFeedback
  gate : RoomSessionProjectionGate := {}
  /-- The commands of the window's queue. -/
  commands : List PerformanceIntentToken := []
  /-- The local edits in the task's inbox. -/
  inbox : List PerformanceIntentToken := []
  /-- The edits taken into the kernel and not confirmed yet. -/
  reifying : List PerformanceIntentToken := []
  egress : List RoomSessionEgress := []
  /-- The durable fallbacks that the window has under way. -/
  fallbacks : List PerformanceIntentToken := []
  /-- The generation has failed, and the worker is terminated. -/
  ended : Bool := false
  deriving DecidableEq

inductive Input where
  | dispatch (target : TunedDegree) (desiredActive isFull : Bool)
  | command (outcome : CommandOutcome)
  | localEdit (outcome : EditOutcome)
  | localCommitted (intentToken : PerformanceIntentToken) (confirmation : Confirmation)
  /-- A projection event that belongs to no intent. -/
  | realtime (projection : RoomSessionProjection) (taken : Bool)
  | canonical (revision : Nat) (root : Digest)
  /-- The window handles the next session event. -/
  | sessionEvent
  /-- The commit of a fallback is durable. -/
  | committed (intentToken : PerformanceIntentToken)

namespace Generation

variable (worker : Generation)

/-- An operation that the table refuses leaves a diagnostic and no more. -/
def applied (result : Except String PerformanceFeedback) : Generation :=
  match result with
  | .ok feedback => { worker with feedback := feedback }
  | .error _ => worker

def resetPerformanceFeedback : Generation :=
  worker.applied (worker.feedback.resetGeneration worker.generation)

def resolvePerformanceIntent (token : PerformanceIntentToken) : Generation :=
  { worker with feedback := worker.feedback.resolve token }

/-- Begin an intent, queue its command, and commit the intent or roll it back. -/
def dispatch (target : TunedDegree) (desiredActive isFull : Bool) : Generation :=
  let sequence := worker.performanceSequence+1
  if 2^64 ≤ sequence then worker
  else
    let token : PerformanceIntentToken := ⟨worker.generation,sequence⟩
    match worker.feedback.beginTransaction token target desiredActive with
    | .error _ => { worker with performanceSequence := sequence }
    | .ok begun =>
        if isFull then
          applied { worker with performanceSequence := sequence, feedback := begun }
            (begun.rollbackBegin token)
        else
          let queued := { worker with
            performanceSequence := sequence
            commands := worker.commands ++ [token] }
          match begun.commitBegin token with
          | .ok feedback => { queued with feedback := feedback }
          | .error _ => resetPerformanceFeedback { queued with feedback := begun }

def command (outcome : CommandOutcome) : Option Generation :=
  match worker.commands with
  | [] => none
  | token :: rest =>
      let taken := { worker with commands := rest }
      some (match outcome with
        | .sent => { taken with inbox := worker.inbox ++ [token] }
        | .internalError => taken.resetPerformanceFeedback
        | .refused => taken.resolvePerformanceIntent token)

/-- The window takes a frame into its bounded queue; refusing one, whatever it carries, it fails
the generation and terminates the worker. -/
def emit (event : RoomSessionEgress) (taken : Bool) : Generation :=
  if taken then { worker with egress := worker.egress ++ [event] }
  else { worker with ended := true }

def localEdit (outcome : EditOutcome) : Option Generation :=
  match worker.inbox with
  | [] => none
  | token :: rest =>
      let handled := { worker with inbox := rest }
      some (match outcome with
        | .rejected taken => handled.emit (.intentRejected token) taken
        | .fallback taken => handled.emit (.fallbackDurable token) taken
        | .predicted projection taken =>
            emit { handled with reifying := worker.reifying ++ [token] }
              (.realtime { projection with kind := .predicted } (some token)) taken)

def localCommitted (token : PerformanceIntentToken) (confirmation : Confirmation) :
    Option Generation :=
  if token ∈ worker.reifying then
    let confirmed := { worker with reifying := worker.reifying.erase token }
    some (match confirmation with
      | .published projection taken =>
          confirmed.emit (.realtime projection (some token)) taken
      | .unselected => confirmed
      | .failed => confirmed
      | .retired projection taken =>
          confirmed.emit (.realtime { projection with kind := .confirmed } (some token)) taken)
  else none

/-- A reset that the gate takes clears the table. -/
def accept (projection : RoomSessionProjection) : Generation :=
  match RoomSessionProjectionGate.accept projection worker.gate with
  | .ok accepted gate =>
      let gated := { worker with gate := gate }
      if accepted ∧ projection.kind = .reset then gated.resetPerformanceFeedback else gated
  | .error _ gate => { worker with gate := gate }

/-- Accepted or not, a projection resolves the intent that it carries if it is of such a kind. -/
def handleRealtime (projection : RoomSessionProjection) :
    Option PerformanceIntentToken → Generation
  | some token =>
      if durableIntentResolved projection.kind then
        (worker.accept projection).resolvePerformanceIntent token
      else worker.accept projection
  | none => worker.accept projection

def sessionEvent : Option Generation :=
  match worker.egress with
  | [] => none
  | event :: rest =>
      let handled := { worker with egress := rest }
      some (match event with
        | .realtime projection intentToken => handled.handleRealtime projection intentToken
        | .fallbackDurable token => { handled with fallbacks := worker.fallbacks ++ [token] }
        | .intentRejected token => handled.resolvePerformanceIntent token)

def committed (token : PerformanceIntentToken) : Option Generation :=
  if token ∈ worker.fallbacks then
    some (resolvePerformanceIntent { worker with fallbacks := worker.fallbacks.erase token } token)
  else none

def canonical (revision : Nat) (root : Digest) : Generation :=
  match RoomSessionProjectionGate.canonical revision root worker.gate with
  | .ok _ gate => { worker with gate := gate }
  | .error _ gate => { worker with gate := gate }

def live : Input → Option Generation
  | .dispatch target desiredActive isFull => some (worker.dispatch target desiredActive isFull)
  | .command outcome => worker.command outcome
  | .localEdit outcome => worker.localEdit outcome
  | .localCommitted token confirmation => worker.localCommitted token confirmation
  | .realtime projection taken => some (worker.emit (.realtime projection none) taken)
  | .canonical revision root => some (worker.canonical revision root)
  | .sessionEvent => worker.sessionEvent
  | .committed token => worker.committed token

/-- A generation that has failed does nothing more. -/
def step (input : Input) : Option Generation :=
  if worker.ended then none else worker.live input

end Generation

def run (worker : Generation) : List Input → Option Generation
  | [] => some worker
  | input :: rest => (worker.step input).bind fun after => run after rest

/-- The generation is installed, and nothing has been dispatched yet. -/
def installed (capacity generation : Nat) : Generation where
  generation := generation
  feedback := { PerformanceFeedback.empty capacity with generation := some generation }

def RoomSessionEgress.brings (token : PerformanceIntentToken) : RoomSessionEgress → Bool
  | .realtime projection (some intentToken) =>
      intentToken = token ∧ projection.kind ≠ .predicted
  | .realtime _ none => false
  | .fallbackDurable intentToken => intentToken = token
  | .intentRejected intentToken => intentToken = token

namespace Generation

variable (worker : Generation)

/-- The intent's edit is admitted or rejected, as far as the task and the window's own commits
know. -/
def Decided (token : PerformanceIntentToken) : Prop :=
  token ∉ worker.commands ∧ token ∉ worker.inbox ∧ token ∉ worker.reifying ∧
    token ∉ worker.fallbacks

def Handled (token : PerformanceIntentToken) : Prop :=
  ∀ event ∈ worker.egress, event.brings token = false

instance (token : PerformanceIntentToken) : Decidable (worker.Decided token) :=
  inferInstanceAs (Decidable (_ ∧ _ ∧ _ ∧ _))

instance (token : PerformanceIntentToken) : Decidable (worker.Handled token) :=
  inferInstanceAs (Decidable (∀ event ∈ worker.egress, _))

def Accepts (projection : RoomSessionProjection) : Bool :=
  match RoomSessionProjectionGate.accept projection worker.gate with
  | .ok accepted _ => accepted
  | .error _ _ => false

/-- Handled now, the event leaves the intent waiting that it brings: a reset resolves no intent by
its kind, and one that the gate does not take clears none. -/
def Drops (event : RoomSessionEgress) : Bool :=
  match event with
  | .realtime projection (some token) => projection.kind = .reset ∧ worker.feedback.Holds token ∧
      worker.Accepts projection = false
  | _ => false

/-- No outcome of an intent that is still held is lost on the way. -/
def Keeps : Input → Prop
  | .localCommitted token confirmation => confirmation.told = true ∨ ¬ worker.feedback.Holds token
  | .sessionEvent => ∀ event ∈ worker.egress.head?, worker.Drops event = false
  | _ => True

instance : (input : Input) → Decidable (worker.Keeps input)
  | .localCommitted .. => inferInstanceAs (Decidable (_ ∨ _))
  | .sessionEvent => inferInstanceAs (Decidable (∀ event ∈ worker.egress.head?, _))
  | .dispatch .. | .command _ | .localEdit _ | .realtime .. | .canonical .. | .committed _ =>
      isTrue trivial

def Kept : Generation → List Input → Prop
  | _, [] => True
  | worker, input :: rest =>
      worker.Keeps input ∧ ∀ after ∈ worker.step input, after.Kept rest

instance decidableKept : (worker : Generation) → (inputs : List Input) →
    Decidable (worker.Kept inputs)
  | _, [] => isTrue trivial
  | worker, input :: rest =>
      have (after : Generation) : Decidable (after.Kept rest) := decidableKept after rest
      inferInstanceAs (Decidable (worker.Keeps input ∧ ∀ after ∈ worker.step input, _))

variable {worker} {after : Generation} {token other : PerformanceIntentToken}

def Waits (worker : Generation) (token : PerformanceIntentToken) : Prop :=
  ¬ worker.Decided token ∨ ∃ event ∈ worker.egress, event.brings token = true

structure Sound (worker : Generation) : Prop where
  feedback : worker.feedback.Sound
  closed : worker.feedback.beginRollback = none
  generation : worker.feedback.generation = some worker.generation
  waits : ∀ token, worker.feedback.Holds token → worker.Waits token

theorem waits_iff : worker.Waits token ↔ token ∈ worker.commands ∨ token ∈ worker.inbox ∨
    token ∈ worker.reifying ∨ token ∈ worker.fallbacks ∨
      ∃ event ∈ worker.egress, event.brings token = true := by
  simp only [Waits,Decided]
  tauto

theorem sound_installed (capacity generation : Nat) : (installed capacity generation).Sound where
  feedback := ⟨(PerformanceFeedback.sound_empty capacity).distinct,
    (PerformanceFeedback.sound_empty capacity).below⟩
  closed := rfl
  generation := rfl
  waits token hholds := by
    obtain ⟨pending,hslot,-⟩ := hholds
    simp [installed,PerformanceFeedback.empty] at hslot

theorem Sound.moved (h : worker.Sound) (hfeedback : after.feedback = worker.feedback)
    (hgeneration : after.generation = worker.generation)
    (hwaits : ∀ token, worker.feedback.Holds token → worker.Waits token → after.Waits token) :
    after.Sound where
  feedback := hfeedback ▸ h.feedback
  closed := hfeedback ▸ h.closed
  generation := by rw [hfeedback,hgeneration,h.generation]
  waits token hholds := by
    rw [hfeedback] at hholds
    exact hwaits token hholds (h.waits token hholds)

theorem Sound.resolved (h : worker.Sound) (token : PerformanceIntentToken)
    (hfeedback : after.feedback = worker.feedback.resolve token)
    (hgeneration : after.generation = worker.generation)
    (hwaits : ∀ other, other ≠ token → worker.Waits other → after.Waits other) : after.Sound where
  feedback := hfeedback ▸ h.feedback.resolve token
  closed := by rw [hfeedback,PerformanceFeedback.resolve_beginRollback,h.closed]
  generation := by rw [hfeedback,PerformanceFeedback.resolve_generation,hgeneration,h.generation]
  waits other hholds := by
    rw [hfeedback] at hholds
    apply hwaits other
    · rintro rfl
      exact h.feedback.not_holds_resolve other hholds
    · exact h.waits other (PerformanceFeedback.holds_resolve hholds)

theorem sound_reset (h : worker.feedback.generation = some worker.generation) :
    worker.resetPerformanceFeedback.Sound := by
  have hreset : worker.resetPerformanceFeedback = { worker with feedback := { worker.feedback with
      beginRollback := none
      slots := worker.feedback.slots.map fun _ => none } } := by
    simp [resetPerformanceFeedback,PerformanceFeedback.resetGeneration,h,applied]
  rw [hreset]
  exact ⟨PerformanceFeedback.sound_cleared _ _,rfl,h,
    fun token hholds => absurd hholds PerformanceFeedback.holds_cleared⟩

theorem Sound.dispatch (h : worker.Sound) (target : TunedDegree) (desiredActive isFull : Bool) :
    (worker.dispatch target desiredActive isFull).Sound := by
  unfold Generation.dispatch
  simp only
  split
  · exact h
  · split
    · exact h.moved rfl rfl fun _ _ hwaits => hwaits
    · rename_i begun hbegun
      have hgeneration := h.generation
      split
      · rw [PerformanceFeedback.rollback_begin hbegun]
        exact ⟨h.feedback.rollback hbegun,h.closed,hgeneration,h.waits⟩
      · rw [PerformanceFeedback.commit_begin hbegun]
        have hsound := h.feedback.begin hbegun
        refine ⟨⟨hsound.distinct,hsound.below⟩,rfl,?_,?_⟩
        · obtain ⟨-,-,-,slot,-,rfl⟩ := PerformanceFeedback.beginTransaction_eq_ok hbegun
          exact hgeneration
        · intro other hholds
          rcases PerformanceFeedback.holds_begin hbegun hholds with rfl | hheld
          · simp [waits_iff]
          · have hwaits := waits_iff.mp (h.waits other hheld)
            simp only [waits_iff,List.mem_append]
            tauto

theorem taken_of_emit {event : RoomSessionEgress} {taken : Bool}
    (hlive : (worker.emit event taken).ended = false) : taken = true := by
  cases taken with
  | true => rfl
  | false => simp [emit] at hlive

theorem waits_emit {event : RoomSessionEgress} :
    (worker.emit event true).Waits token ↔ worker.Waits token ∨ event.brings token = true := by
  simp only [waits_iff,emit,if_true,List.mem_append,List.mem_singleton,or_and_right,exists_or,
    exists_eq_left,or_assoc]

theorem Sound.command (h : worker.Sound) {outcome : CommandOutcome}
    (hstep : worker.command outcome = some after) : after.Sound := by
  unfold Generation.command at hstep
  split at hstep
  · simp at hstep
  · rename_i token rest hcommands
    cases outcome with
    | sent =>
      simp only [Option.some.injEq] at hstep
      subst hstep
      refine h.moved rfl rfl ?_
      intro other _ hwaits
      simp only [waits_iff,hcommands,List.mem_cons,List.mem_append,List.not_mem_nil,or_false] at *
      tauto
    | internalError =>
      simp only [Option.some.injEq] at hstep
      subst hstep
      exact sound_reset h.generation
    | refused =>
      simp only [Option.some.injEq] at hstep
      subst hstep
      refine h.resolved token rfl rfl ?_
      intro other hother hwaits
      simp only [waits_iff,hcommands,List.mem_cons,hother,false_or] at hwaits
      simpa only [waits_iff,resolvePerformanceIntent] using hwaits

/-- An edit leaves the inbox for the lane or for an event. -/
theorem Sound.localEdit (h : worker.Sound) {outcome : EditOutcome} (hlive : after.ended = false)
    (hstep : worker.localEdit outcome = some after) : after.Sound := by
  unfold Generation.localEdit at hstep
  split at hstep
  · simp at hstep
  · rename_i token rest hinbox
    have hrest : ∀ other, worker.Waits other →
        other = token ∨ Waits { worker with inbox := rest } other := by
      intro other hwaits
      simp only [waits_iff,hinbox,List.mem_cons] at hwaits ⊢
      tauto
    cases outcome with
    | rejected taken | fallback taken =>
      simp only [Option.some.injEq] at hstep
      subst hstep
      obtain rfl := taken_of_emit hlive
      refine h.moved rfl rfl ?_
      intro other _ hwaits
      rw [waits_emit]
      rcases hrest other hwaits with rfl | hrest
      · exact .inr (by simp [RoomSessionEgress.brings])
      · exact .inl hrest
    | predicted projection taken =>
      simp only [Option.some.injEq] at hstep
      subst hstep
      obtain rfl := taken_of_emit hlive
      refine h.moved rfl rfl ?_
      intro other _ hwaits
      rw [waits_emit]
      rcases hrest other hwaits with rfl | hrest
      · exact .inl (by simp [waits_iff])
      · simp only [waits_iff,List.mem_append] at hrest ⊢
        grind

/-- A confirmed edit leaves the lane for an event, or for nothing that is still held. -/
theorem Sound.localCommitted (h : worker.Sound) {confirmation : Confirmation}
    (hkeeps : worker.Keeps (.localCommitted token confirmation)) (hlive : after.ended = false)
    (hstep : worker.localCommitted token confirmation = some after) : after.Sound := by
  unfold Generation.localCommitted at hstep
  split at hstep
  · rename_i hmem
    have hrest : ∀ other, worker.Waits other →
        other = token ∨ Waits { worker with reifying := worker.reifying.erase token } other := by
      intro other hwaits
      by_cases hother : other = token
      · exact .inl hother
      · exact .inr (by simpa only [waits_iff,List.mem_erase_of_ne hother] using hwaits)
    have hlost : confirmation.told = false → ∀ other, worker.feedback.Holds other →
        worker.Waits other →
          Waits { worker with reifying := worker.reifying.erase token } other := by
      intro huntold other hholds hwaits
      rcases hrest other hwaits with rfl | hrest
      · simp [Keeps,huntold,hholds] at hkeeps
      · exact hrest
    have htold : ∀ event : RoomSessionEgress, event.brings token = true → ∀ other,
        worker.Waits other →
          (emit { worker with reifying := worker.reifying.erase token } event true).Waits
            other := by
      intro event hbrings other hwaits
      rw [waits_emit]
      rcases hrest other hwaits with rfl | hrest
      · exact .inr hbrings
      · exact .inl hrest
    cases confirmation with
    | published projection taken =>
      simp only [Option.some.injEq] at hstep
      subst hstep
      obtain rfl := taken_of_emit hlive
      refine h.moved rfl rfl ?_
      intro other hholds hwaits
      by_cases hkind : projection.kind = .predicted
      · have hmoved := hlost (by simp [Confirmation.told,hkind]) other hholds hwaits
        exact waits_emit.mpr (.inl hmoved)
      · exact htold _ (by simp [RoomSessionEgress.brings,hkind]) other hwaits
    | unselected | failed =>
      simp only [Option.some.injEq] at hstep
      subst hstep
      exact h.moved rfl rfl (hlost rfl)
    | retired projection taken =>
      simp only [Option.some.injEq] at hstep
      subst hstep
      obtain rfl := taken_of_emit hlive
      refine h.moved rfl rfl ?_
      intro other _ hwaits
      exact htold _ (by simp [RoomSessionEgress.brings]) other hwaits
  · simp at hstep

theorem accept_cases (h : worker.feedback.generation = some worker.generation)
    (projection : RoomSessionProjection) :
    (worker.accept projection).Sound ∧ projection.kind = .reset ∨
      ∃ gate, worker.accept projection = { worker with gate := gate } ∧
        (projection.kind = .reset → worker.Accepts projection = false) := by
  unfold Generation.accept
  cases haccept : RoomSessionProjectionGate.accept projection worker.gate with
  | error message gate => exact .inr ⟨gate,rfl,by simp [Accepts,haccept]⟩
  | ok accepted gate =>
    by_cases hreset : accepted = true ∧ projection.kind = .reset
    · left
      simp only [hreset,and_self,if_true,and_true]
      exact sound_reset h
    · right
      simp only [hreset,if_false]
      refine ⟨gate,rfl,?_⟩
      intro hkind
      simpa [Accepts,haccept,hkind] using hreset

/-- A projection leaves the table sound, whatever the gate makes of it, if it drops nothing. -/
theorem Sound.handleRealtime {projection : RoomSessionProjection}
    {intentToken : Option PerformanceIntentToken} {rest : List RoomSessionEgress}
    (h : worker.Sound) (hdrops : worker.Drops (.realtime projection intentToken) = false)
    (hrest : ∀ other, worker.Waits other →
      RoomSessionEgress.brings other (.realtime projection intentToken) = true ∨
        Waits { worker with egress := rest } other) :
    (handleRealtime { worker with egress := rest } projection intentToken).Sound := by
  rcases @accept_cases { worker with egress := rest } h.generation projection with
    ⟨hsound,hkind⟩ | ⟨gate,hgate,hrefused⟩
  · cases intentToken with
    | none => exact hsound
    | some token => simpa [Generation.handleRealtime,hkind,durableIntentResolved] using hsound
  · cases intentToken with
    | none =>
      simp only [Generation.handleRealtime,hgate]
      refine h.moved rfl rfl ?_
      intro other _ hwaits
      rcases hrest other hwaits with hbrings | hrest
      · simp [RoomSessionEgress.brings] at hbrings
      · exact hrest
    | some token =>
      simp only [RoomSessionEgress.brings,decide_eq_true_eq] at hrest
      simp only [Generation.handleRealtime,hgate]
      by_cases hresolved : durableIntentResolved projection.kind = true
      · simp only [hresolved,if_true]
        refine h.resolved token rfl rfl ?_
        intro other hother hwaits
        rcases hrest other hwaits with ⟨rfl,-⟩ | hrest
        · exact absurd rfl hother
        · exact hrest
      · simp only [hresolved,Bool.false_eq_true,if_false]
        refine h.moved rfl rfl ?_
        intro other hholds hwaits
        rcases hrest other hwaits with ⟨rfl,hkind⟩ | hrest
        · have hreset : projection.kind = .reset := by
            cases hcase : projection.kind <;> simp_all [durableIntentResolved]
          have hnone : worker.Accepts projection = false := hrefused hreset
          simp [Drops,hreset,hnone,hholds] at hdrops
        · exact hrest

theorem Sound.sessionEvent (h : worker.Sound) (hkeeps : worker.Keeps .sessionEvent)
    (hstep : worker.sessionEvent = some after) : after.Sound := by
  unfold Generation.sessionEvent at hstep
  split at hstep
  · simp at hstep
  · rename_i event rest hegress
    have hdrops : worker.Drops event = false := hkeeps event (by simp [hegress])
    have hrest : ∀ other, worker.Waits other →
        event.brings other = true ∨ Waits { worker with egress := rest } other := by
      intro other hwaits
      simp only [waits_iff,hegress,List.mem_cons,or_and_right,exists_or,exists_eq_left] at hwaits ⊢
      grind
    cases event with
    | realtime projection intentToken =>
      simp only [Option.some.injEq] at hstep
      subst hstep
      exact h.handleRealtime hdrops hrest
    | fallbackDurable token =>
      simp only [Option.some.injEq] at hstep
      subst hstep
      refine h.moved rfl rfl ?_
      intro other _ hwaits
      rcases hrest other hwaits with hbrings | hrest
      · simp only [RoomSessionEgress.brings,decide_eq_true_eq] at hbrings
        simp [waits_iff,hbrings]
      · simp only [waits_iff,List.mem_append] at hrest ⊢
        grind
    | intentRejected token =>
      simp only [Option.some.injEq] at hstep
      subst hstep
      refine h.resolved token rfl rfl ?_
      intro other hother hwaits
      rcases hrest other hwaits with hbrings | hrest
      · simp only [RoomSessionEgress.brings,decide_eq_true_eq] at hbrings
        exact absurd hbrings.symm hother
      · exact hrest

theorem Sound.committed (h : worker.Sound) (hstep : worker.committed token = some after) :
    after.Sound := by
  unfold Generation.committed at hstep
  split at hstep
  · simp only [Option.some.injEq] at hstep
    subst hstep
    refine h.resolved token rfl rfl ?_
    intro other hother hwaits
    simpa only [waits_iff,resolvePerformanceIntent,List.mem_erase_of_ne hother] using hwaits
  · simp at hstep

theorem step_eq_some {input : Input} (h : worker.step input = some after) :
    worker.ended = false ∧ worker.live input = some after := by
  unfold Generation.step at h
  split at h
  · cases h
  · rename_i hlive
    exact ⟨by simpa using hlive,h⟩

theorem Sound.step (h : worker.Sound) {input : Input} (hkeeps : worker.Keeps input)
    (hlive : after.ended = false) (hstep : worker.step input = some after) : after.Sound := by
  have hstep := (step_eq_some hstep).2
  cases input with
  | dispatch target desiredActive isFull =>
    cases hstep
    exact h.dispatch target desiredActive isFull
  | command outcome => exact h.command hstep
  | localEdit outcome => exact h.localEdit hlive hstep
  | localCommitted token confirmation => exact h.localCommitted hkeeps hlive hstep
  | realtime projection taken =>
    cases hstep
    obtain rfl := taken_of_emit hlive
    refine h.moved rfl rfl ?_
    intro other _ hwaits
    exact waits_emit.mpr (.inl hwaits)
  | canonical revision root =>
    cases hstep
    unfold Generation.canonical
    split <;> exact h.moved rfl rfl fun _ _ hwaits => hwaits
  | sessionEvent => exact h.sessionEvent hkeeps hstep
  | committed token => exact h.committed hstep

theorem live_of_run {inputs : List Input} (hrun : IntentOutcomes.run worker inputs = some after)
    (hlive : after.ended = false) : worker.ended = false := by
  cases inputs with
  | nil =>
    cases hrun
    exact hlive
  | cons input rest =>
    obtain ⟨next,hstep,-⟩ := Option.bind_eq_some_iff.mp hrun
    exact (step_eq_some hstep).1

theorem Sound.run (h : worker.Sound) {inputs : List Input} (hkept : worker.Kept inputs)
    (hlive : after.ended = false) (hrun : IntentOutcomes.run worker inputs = some after) :
    after.Sound := by
  induction inputs generalizing worker with
  | nil =>
    cases hrun
    exact h
  | cons input rest ih =>
    obtain ⟨next,hstep,hrest⟩ := Option.bind_eq_some_iff.mp hrun
    exact ih (h.step hkept.1 (live_of_run hrest hlive) hstep) (hkept.2 next hstep) hrest

end Generation

/-- In a generation that has not failed, an intent whose edit is decided, and whose outcome the
window has handled, is held no more. -/
theorem decided_is_resolved (capacity generation : Nat) (inputs : List Input) (after : Generation)
    (hkept : (installed capacity generation).Kept inputs)
    (hrun : run (installed capacity generation) inputs = some after) (hlive : after.ended = false)
    (token : PerformanceIntentToken) (hdecided : after.Decided token)
    (hhandled : after.Handled token) : ¬ after.feedback.Holds token := by
  have hsound := (Generation.sound_installed capacity generation).run hkept hlive hrun
  intro hholds
  rcases hsound.waits token hholds with hwaiting | ⟨event,hevent,hbrings⟩
  · exact hwaiting hdecided
  · simp [hhandled event hevent] at hbrings

/-- The session opens, shows an edit, and tells the window of its confirmation. -/
def confirmedRun : List Input :=
  [.realtime openFirst true,.sessionEvent,.dispatch ⟨1,4⟩ true false,.command .sent,
    .localEdit (.predicted { openFirst with sequence := 1 } true),.sessionEvent,
    .localCommitted ⟨1,1⟩ (.published { openFirst with sequence := 2, kind := .confirmed } true),
    .sessionEvent]

theorem decided_is_resolved_confirmed :
    ∃ after, run (installed 2 1) confirmedRun = some after ∧ after.gate.awaitingReset = false ∧
      ¬ after.feedback.Holds ⟨1,1⟩ :=
  ⟨_,rfl,rfl,decided_is_resolved 2 1 confirmedRun _ (by decide) rfl rfl ⟨1,1⟩ (by decide)
    (by decide)⟩

/-- The session was not told of an entry at revision 5, so the confirmation at revision 6 is a
reset. It comes to the gate when the canonical state has gone on to revision 7. -/
def lateResetRun : List Input :=
  [.realtime openFirst true,.sessionEvent,.dispatch ⟨1,4⟩ true false,.command .sent,
    .localEdit (.predicted { openFirst with sequence := 1 } true),.sessionEvent,
    .localCommitted ⟨1,1⟩
      (.published { openFirst with generation := 2, durableRevision := 6 } true),
    .canonical 7 9,.sessionEvent]

theorem late_reset_keeps_intent :
    ∃ after, run (installed 2 1) lateResetRun = some after ∧ after.ended = false ∧
      after.Decided ⟨1,1⟩ ∧ after.Handled ⟨1,1⟩ ∧ after.feedback.Holds ⟨1,1⟩ :=
  ⟨_,rfl,rfl,by decide,by decide,by decide⟩

end WalkieSongie.IntentOutcomes
