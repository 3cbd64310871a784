import Mathlib.Data.List.Chain
import WalkieSongie.SessionEpochs
set_option autoImplicit false

/-!
The window at the other end of a task: the stream of projections that its gate never refuses,
and what the operations of a pair-session do to the projection it would show next.
-/

namespace WalkieSongie.Session
open TaskProgram Relation RoomSessionProjectionGate

variable {L : SessionLibrary} {α : Type}

section Stream

/-- A gate that starts at this canonical horizon is handed these projections, in order. -/
def windowRun (canonical : Nat × Digest) (shown : List RoomSessionProjection) : GateRun :=
  gateRun (.canonical canonical.1 canonical.2 :: shown.map GateCall.accept)

/-- No call was answered by an error. -/
def GateRun.Unrefused (run : GateRun) : Prop :=
  ∀ event ∈ run.events, ∀ message, event.outcome ≠ .error message

/-- The projection comes right after this cursor: it is the next of its generation, or the reset
that opens a newer generation or a session of a higher epoch. -/
inductive RoomSessionProjection.Continues (projection : RoomSessionProjection) :
    Option RoomSessionProjectionCursor → Prop where
  | first (hreset : projection.kind = .reset) : Continues projection none
  | session (old : RoomSessionProjectionCursor) (hother : old.manifest ≠ projection.manifest)
      (hepoch : old.epoch < projection.epoch) (hreset : projection.kind = .reset) :
      Continues projection (some old)
  | generation (old : RoomSessionProjectionCursor)
      (hsame : { old with generation := projection.generation, sequence := projection.sequence } =
        projection.cursor)
      (hnewer : old.generation < projection.generation) (hreset : projection.kind = .reset) :
      Continues projection (some old)
  | next (old : RoomSessionProjectionCursor)
      (hsame : { old with sequence := projection.sequence } = projection.cursor)
      (hsequence : projection.sequence = old.sequence+1) (hbound : projection.sequence < 2^64) :
      Continues projection (some old)

/-- The horizon is the canonical one, or of a later revision. -/
def AtOrAhead (canonical : Nat × Digest) (revision : Nat) (root : Digest) : Prop :=
  canonical.1 < revision ∨ canonical = (revision,root)

theorem AtOrAhead.revision {canonical : Nat × Digest} {revision : Nat} {root : Digest}
    (h : AtOrAhead canonical revision root) : canonical.1 ≤ revision := by
  cases h with
  | inl hlater => omega
  | inr hsame => simp [hsame]

theorem cursorMove_continues {projection : RoomSessionProjection}
    {cursor : Option RoomSessionProjectionCursor} (h : projection.Continues cursor) :
    cursorMove projection cursor = .move projection.cursor := by
  cases h with
  | first hreset => simp [cursorMove,hreset]
  | session old hother hepoch hreset =>
    have hnewer : ¬ projection.epoch ≤ old.epoch := by omega
    simp [cursorMove,hother,hnewer,hreset]
  | generation old hsame hnewer hreset =>
    have hkept := hsame
    simp only [RoomSessionProjection.cursor,RoomSessionProjectionCursor.mk.injEq] at hkept
    obtain ⟨hmanifest,hsession,hepoch,-,-⟩ := hkept
    have hother : old.generation ≠ projection.generation := by omega
    have hahead : ¬ projection.generation ≤ old.generation := by omega
    simp [cursorMove,hmanifest,hsession,hepoch,hother,hahead,hreset,RoomSessionProjection.cursor]
  | next old hsame hsequence hbound =>
    have hkept := hsame
    simp only [RoomSessionProjection.cursor,RoomSessionProjectionCursor.mk.injEq] at hkept
    obtain ⟨hmanifest,hsession,hepoch,hgeneration,-⟩ := hkept
    have hroom : old.sequence < 18446744073709551615 := by omega
    simp [cursorMove,hmanifest,hsession,hepoch,hgeneration,hsequence,hroom,
      RoomSessionProjection.cursor]

def RoomSessionProjection.horizon (projection : RoomSessionProjection) : Nat × Digest :=
  (projection.durableRevision,projection.durableRoot)

/-- The window, which starts at the horizon of the first of these projections, has shown every
one of them, and stands at the last. -/
structure Taken (canonical : Nat × Digest) (shown : List RoomSessionProjection) : Prop where
  unrefused : (windowRun canonical shown).Unrefused
  ready : (windowRun canonical shown).gate.awaitingReset = false
  horizon : ((windowRun canonical shown).gate.canonicalRevision,
    (windowRun canonical shown).gate.canonicalRoot) = canonical
  cursor : (windowRun canonical shown).gate.cursor =
    shown.getLast?.map RoomSessionProjection.cursor
  continuous : shown.IsChain fun first second => second.Continues (some first.cursor)
  started : ∀ first, shown.head? = some first → canonical = first.horizon

theorem Taken.nil (canonical : Nat × Digest) : Taken canonical [] where
  unrefused := by
    intro event hevent message
    simp only [windowRun,gateRun,List.map_nil,List.foldl_cons,List.foldl_nil,GateRun.step,
      GateCall.perform,RoomSessionProjectionGate.canonical,canonicalVisible,false_and,if_false,
      Bool.false_eq_true,List.mem_singleton] at hevent
    subst hevent
    simp
  ready := rfl
  horizon := rfl
  cursor := rfl
  continuous := .nil
  started first hfirst := by cases hfirst

theorem windowRun_concat (canonical : Nat × Digest) (shown : List RoomSessionProjection)
    (projection : RoomSessionProjection) : windowRun canonical (shown ++ [projection]) =
      (windowRun canonical shown).step (.accept projection) := by
  simp [windowRun,gateRun]

theorem Taken.concat {canonical : Nat × Digest} {shown : List RoomSessionProjection}
    {projection : RoomSessionProjection} (h : Taken canonical shown)
    (hcontinues : projection.Continues (shown.getLast?.map RoomSessionProjection.cursor))
    (hahead : AtOrAhead canonical projection.durableRevision projection.durableRoot)
    (hstarts : shown = [] → canonical = projection.horizon) :
    Taken canonical (shown ++ [projection]) := by
  have hmove := cursorMove_continues hcontinues
  obtain ⟨hrevision,hroot⟩ := Prod.ext_iff.mp h.horizon
  simp only at hrevision hroot
  have hbehind : ¬ projection.durableRevision <
      (windowRun canonical shown).gate.canonicalRevision := by
    have hle := hahead.revision
    omega
  have hbeside : ¬ (projection.durableRevision =
      (windowRun canonical shown).gate.canonicalRevision ∧
      projection.durableRoot ≠ (windowRun canonical shown).gate.canonicalRoot) := by
    rintro ⟨hsame,hother⟩
    cases hahead with
    | inl hlater => omega
    | inr hcanonical =>
      rw [hroot,hcanonical] at hother
      exact hother rfl
  have haccept : RoomSessionProjectionGate.accept projection (windowRun canonical shown).gate =
      .ok true { (windowRun canonical shown).gate with
        cursor := some projection.cursor
        awaitingReset := false
        visibleSessionHorizon := some (projection.durableRevision,projection.durableRoot) } := by
    simp only [RoomSessionProjectionGate.accept,h.ready,hbehind,hbeside,h.cursor,hmove,
      Bool.false_eq_true,false_and,if_false,Bool.false_and]
  have hrun : windowRun canonical (shown ++ [projection]) =
      ⟨{ (windowRun canonical shown).gate with
        cursor := some projection.cursor
        awaitingReset := false
        visibleSessionHorizon := some (projection.durableRevision,projection.durableRoot) },
        ⟨.accept projection,.ok true⟩ :: (windowRun canonical shown).events⟩ := by
    simp only [windowRun_concat,GateRun.step,GateCall.perform,haccept]
  constructor
  · intro event hevent message
    rw [hrun] at hevent
    cases List.mem_cons.mp hevent with
    | inl hnew => simp [hnew]
    | inr hold => exact h.unrefused event hold message
  · rw [hrun]
  · rw [hrun]
    exact h.horizon
  · simp [hrun]
  · rw [List.isChain_append]
    refine ⟨h.continuous,.singleton _,?_⟩
    intro last hlast next hnext
    simp only [List.head?_cons,Option.mem_def,Option.some.injEq] at hnext
    rw [Option.mem_def] at hlast
    rw [hlast] at hcontinues
    subst hnext
    exact hcontinues
  · intro first hfirst
    cases shown with
    | nil =>
      cases hfirst
      exact hstarts rfl
    | cons head rest => exact h.started first hfirst

end Stream

section Hosts

namespace SessionLibrary

/-- The host shows what it showed before. -/
structure Rests (L : SessionLibrary) (before after : L.SessionProjectionHost) : Prop where
  generation : L.generation after = L.generation before
  sequence : L.sequence after = L.sequence before
  durable : L.durable after = L.durable before

/-- The host has made one transition, and stands on this durable horizon. -/
structure Transits (L : SessionLibrary) (durable : DurableProjection)
    (before after : L.SessionProjectionHost) : Prop where
  generation : L.generation after = L.generation before
  sequence : L.sequence after = L.sequence before+1
  bound : L.sequence after < 2^64
  durable : L.durable after = durable

/-- The operation makes one transition if it returns one, and otherwise none. -/
def MakesTransition (L : SessionLibrary) (target : DurableProjection → DurableProjection)
    (operation : EStateM String L.SessionProjectionHost (Option SessionProjectionChange)) : Prop :=
  ∀ host, Post (fun change after => (change = none → L.Rests host after) ∧
      (change ≠ none → L.Transits (target (L.durable host)) host after))
    (fun _ => L.Rests host) (operation host)

/-- What the window relies on: a transition raises the sequence by one, a resynchronization opens
a newer generation, and the digests of two epochs differ. -/
structure WindowPromises (L : SessionLibrary) : Prop where
  digest : ∀ first second, L.manifestDigest first = L.manifestDigest second →
    first.epoch = second.epoch
  opened : ∀ session kernel generation time durable host,
    L.openProjection session kernel generation time durable = .ok host → L.durable host = durable
  simulated : ∀ time, L.MakesTransition id (L.advanceSimulation time)
  predicted : ∀ kernel start stop, L.MakesTransition id (L.predictBetween kernel start stop)
  confirmed : ∀ admission durable,
    L.MakesTransition (fun _ => durable) (L.confirmProjection admission durable)
  advanced : ∀ durable, L.MakesTransition (fun _ => durable) (some <$> L.advanceDurable durable)
  resynchronized : ∀ generation kernel time durable history host,
    Post (fun change after => change = .reset ∧ L.generation host < L.generation after ∧
        L.durable after = durable)
      (fun _ => L.Rests host) (L.resynchronize generation kernel time durable history host)

end SessionLibrary

theorem SessionLibrary.Rests.refl (host : L.SessionProjectionHost) : L.Rests host host :=
  ⟨rfl,rfl,rfl⟩

theorem SessionLibrary.Rests.trans {first second third : L.SessionProjectionHost}
    (h : L.Rests first second) (h' : L.Rests second third) : L.Rests first third :=
  ⟨h'.generation.trans h.generation,h'.sequence.trans h.sequence,h'.durable.trans h.durable⟩

end Hosts

section Sessions

def ActiveSession.cursor (active : ActiveSession L) : RoomSessionProjectionCursor :=
  (active.projectionEvent .reset).cursor

@[simp] theorem ActiveSession.projectionEvent_cursor (active : ActiveSession L)
    (kind : RoomSessionProjectionKind) : (active.projectionEvent kind).cursor = active.cursor := rfl

/-- The session shows what it showed before. -/
structure Unmoved (before after : ActiveSession L) : Prop where
  keeps : KeepsSession before after
  rests : L.Rests before.projection after.projection
  revision : before.durableRevision ≤ after.durableRevision

theorem Unmoved.of_same {before after : ActiveSession L} (hkeeps : KeepsSession before after)
    (hprojection : after.projection = before.projection)
    (hrevision : after.durableRevision = before.durableRevision) : Unmoved before after :=
  ⟨hkeeps,hprojection ▸ .refl _,hrevision.ge⟩

theorem Unmoved.refl (active : ActiveSession L) : Unmoved active active :=
  .of_same (KeepsSession.refl active) rfl rfl

theorem Unmoved.trans {first second third : ActiveSession L} (h : Unmoved first second)
    (h' : Unmoved second third) : Unmoved first third :=
  ⟨KeepsSession.trans _ _ _ h.keeps h'.keeps,h.rests.trans h'.rests,h.revision.trans h'.revision⟩

theorem KeepsSession.manifest {before after : ActiveSession L} (h : KeepsSession before after) :
    after.manifest = before.manifest := by
  rw [ActiveSession.manifest,ActiveSession.manifest,h.session]

theorem Unmoved.cursor {before after : ActiveSession L} (h : Unmoved before after) :
    after.cursor = before.cursor := by
  simp [ActiveSession.cursor,ActiveSession.projectionEvent,RoomSessionProjection.cursor,
    h.keeps.manifest,h.keeps.sessionId,h.rests.generation,h.rests.sequence]

/-- What the session shows is nowhere behind the canonical horizon of the window. -/
structure Stands (canonical : Nat × Digest) (active : ActiveSession L) : Prop where
  horizon : AtOrAhead canonical (L.durable active.projection).revision
    (L.durable active.projection).historyRoot
  revision : canonical.1 ≤ active.durableRevision

theorem Stands.unmoved {canonical : Nat × Digest} {before after : ActiveSession L}
    (h : Stands canonical before) (hunmoved : Unmoved before after) : Stands canonical after :=
  ⟨hunmoved.rests.durable ▸ h.horizon,h.revision.trans hunmoved.revision⟩

/-- A projection of this kind shows the session after this change, right after what it showed
before. -/
structure Publishes (canonical : Nat × Digest) (kind : RoomSessionProjectionKind)
    (before after : ActiveSession L) : Prop where
  keeps : KeepsSession before after
  continues : (after.projectionEvent kind).Continues (some before.cursor)
  stands : Stands canonical after

theorem RoomSessionProjection.Continues.congr {first second : RoomSessionProjection}
    {cursor : Option RoomSessionProjectionCursor} (h : first.Continues cursor)
    (hcursor : second.cursor = first.cursor) (hkind : second.kind = first.kind) :
    second.Continues cursor := by
  have hfields := hcursor
  simp only [RoomSessionProjection.cursor,RoomSessionProjectionCursor.mk.injEq] at hfields
  obtain ⟨hmanifest,hsession,hepoch,hgeneration,hsequence⟩ := hfields
  cases h with
  | first hreset => exact .first (hkind.trans hreset)
  | session old hother hsooner hreset =>
    exact .session old (hmanifest ▸ hother) (hepoch ▸ hsooner) (hkind.trans hreset)
  | generation old hsame hnewer hreset =>
    refine .generation old ?_ (hgeneration ▸ hnewer) (hkind.trans hreset)
    rw [hcursor,hgeneration,hsequence,hsame]
  | next old hsame hnext hbound =>
    refine .next old ?_ (hsequence ▸ hnext) (hsequence ▸ hbound)
    rw [hcursor,hsequence,hsame]

theorem Publishes.unmoved {canonical : Nat × Digest} {kind : RoomSessionProjectionKind}
    {before after later : ActiveSession L} (h : Publishes canonical kind before after)
    (hunmoved : Unmoved after later) : Publishes canonical kind before later :=
  ⟨KeepsSession.trans _ _ _ h.keeps hunmoved.keeps,h.continues.congr hunmoved.cursor rfl,
    h.stands.unmoved hunmoved⟩

theorem Unmoved.publishes {canonical : Nat × Digest} {kind : RoomSessionProjectionKind}
    {before after later : ActiveSession L} (h : Unmoved before after)
    (hpublishes : Publishes canonical kind after later) : Publishes canonical kind before later :=
  ⟨KeepsSession.trans _ _ _ h.keeps hpublishes.keeps,h.cursor ▸ hpublishes.continues,
    hpublishes.stands⟩

theorem Publishes.of_transits {canonical : Nat × Digest} {before after : ActiveSession L}
    {durable : DurableProjection} (kind : RoomSessionProjectionKind)
    (hkeeps : KeepsSession before after)
    (htransits : L.Transits durable before.projection after.projection)
    (hstands : Stands canonical after) : Publishes canonical kind before after := by
  refine ⟨hkeeps,.next _ ?_ htransits.sequence htransits.bound,hstands⟩
  simp [ActiveSession.cursor,ActiveSession.projectionEvent,RoomSessionProjection.cursor,
    hkeeps.manifest,hkeeps.sessionId,htransits.generation]

theorem Publishes.of_newer {canonical : Nat × Digest} {before after : ActiveSession L}
    (hkeeps : KeepsSession before after)
    (hnewer : L.generation before.projection < L.generation after.projection)
    (hstands : Stands canonical after) : Publishes canonical .reset before after := by
  refine ⟨hkeeps,.generation _ ?_ hnewer rfl,hstands⟩
  simp [ActiveSession.cursor,ActiveSession.projectionEvent,RoomSessionProjection.cursor,
    hkeeps.manifest,hkeeps.sessionId]

end Sessions

section Operations

variable {canonical : Nat × Digest} {active : ActiveSession L}

theorem unmoved_foreground : Foreground (Unmoved (L := L)) where
  refl := Unmoved.refl
  trans _ _ _ := Unmoved.trans
  lanes _ _ := .of_same ⟨rfl,rfl,_,_,_,rfl⟩ rfl rfl
  planner _ _ := .of_same ⟨rfl,rfl,_,_,_,rfl⟩ rfl rfl
  time _ _ := .of_same ⟨rfl,rfl,_,_,_,rfl⟩ rfl rfl
  clock _ _ := .of_same ⟨rfl,rfl,_,_,_,rfl⟩ rfl rfl

theorem unmoved_waiting
    (waiting : Std.ExtTreeMap SessionDot (MusicOp × Option PerformanceIntentToken))
    (active : ActiveSession L) : Unmoved active { active with awaitingReification := waiting } :=
  .of_same ⟨rfl,rfl,_,_,_,rfl⟩ rfl rfl

theorem onProjection_of_ok (active : ActiveSession L)
    {program : EStateM String L.SessionProjectionHost α} {value : α}
    {projection : L.SessionProjectionHost} (h : program active.projection = .ok value projection) :
    onProjection program active = .ok value { active with projection := projection } := by
  simp only [onProjection,onPart,h]

theorem onProjection_of_error (active : ActiveSession L)
    {program : EStateM String L.SessionProjectionHost α} {message : String}
    {projection : L.SessionProjectionHost}
    (h : program active.projection = .error message projection) :
    onProjection program active = .error message { active with projection := projection } := by
  simp only [onProjection,onPart,h]

theorem onKernel_of_ok (active : ActiveSession L)
    {program : EStateM String L.SessionKernel α} {value : α}
    {kernel : L.SessionKernel} (h : program active.kernel = .ok value kernel) :
    onKernel program active = .ok value { active with kernel := kernel } := by
  simp only [onKernel,onPart,h]

theorem onKernel_of_error (active : ActiveSession L)
    {program : EStateM String L.SessionKernel α} {message : String} {kernel : L.SessionKernel}
    (h : program active.kernel = .error message kernel) :
    onKernel program active = .error message { active with kernel := kernel } := by
  simp only [onKernel,onPart,h]

/-- How many transitions the host makes while the session takes this event in. -/
def ingestTransitions (event : L.PermittedEvent) (active : ActiveSession L) : Nat :=
  match L.advanceSimulation active.logicalTime active.projection with
  | .error _ _ => 0
  | .ok timeChange projection =>
      timeChange.toList.length + match L.ingestEvent event active.kernel with
        | .ok true kernel => match L.predictBetween kernel (L.projectedCut projection)
              (L.readyCut kernel) projection with
            | .ok transition _ => transition.toList.length
            | .error _ _ => 0
        | _ => 0

theorem SessionLibrary.Rests.transits {durable : DurableProjection}
    {first second third : L.SessionProjectionHost} (h : L.Rests first second)
    (h' : L.Transits durable second third) : L.Transits durable first third :=
  ⟨h'.generation.trans h.generation,h.sequence ▸ h'.sequence,h'.bound,h'.durable⟩

theorem SessionLibrary.Transits.rests {durable : DurableProjection}
    {first second third : L.SessionProjectionHost} (h : L.Transits durable first second)
    (h' : L.Rests second third) : L.Transits durable first third where
  generation := h'.generation.trans h.generation
  sequence := h'.sequence.trans h.sequence
  bound := h'.sequence ▸ h.bound
  durable := h'.durable.trans h.durable

/-- An event that moves the host once is shown once; one that does not move it is not shown. -/
theorem ingest_ends (hpromises : L.WindowPromises) (event : L.PermittedEvent)
    (hstands : Stands canonical active) :
    Post (fun kind after =>
        (ingestTransitions event active = 0 → kind = none ∧ Unmoved active after) ∧
        (ingestTransitions event active = 1 →
          kind = some .predicted ∧ Publishes canonical .predicted active after))
      (fun _ _ => True) (ingest event active) := by
  have hkeeps : ∀ kernel projection, KeepsSession active
      { active with kernel := kernel, projection := projection } :=
    fun _ _ => ⟨rfl,rfl,_,_,_,rfl⟩
  have hrests : ∀ kernel projection, L.Rests active.projection projection →
      Unmoved active { active with kernel := kernel, projection := projection } :=
    fun kernel projection h => ⟨hkeeps kernel projection,h,le_rfl⟩
  have hmoves : ∀ kernel projection, L.Transits (L.durable active.projection) active.projection
      projection → Publishes canonical .predicted active
        { active with kernel := kernel, projection := projection } := by
    intro kernel projection h
    refine .of_transits .predicted (hkeeps kernel projection) h ⟨?_,hstands.revision⟩
    rw [h.durable]
    exact hstands.horizon
  have hsimulated := hpromises.simulated active.logicalTime active.projection
  simp only [ingest,ingestTransitions]
  refine Post.getting ?_
  cases hsimulate : L.advanceSimulation active.logicalTime active.projection with
  | error message projection =>
    rw [bind_of_error (onProjection_of_error active hsimulate)]
    trivial
  | ok timeChange projection =>
    rw [hsimulate] at hsimulated
    obtain ⟨hstill,hadvanced⟩ : (timeChange = none → L.Rests active.projection projection) ∧
      (timeChange ≠ none → L.Transits (L.durable active.projection) active.projection projection) :=
        hsimulated
    rw [bind_of_ok (onProjection_of_ok active hsimulate)]
    refine Post.getting ?_
    cases hingest : L.ingestEvent event active.kernel with
    | error message kernel =>
      rw [bind_of_error (onKernel_of_error { active with projection := projection } hingest)]
      trivial
    | ok advanced kernel =>
      rw [bind_of_ok (onKernel_of_ok { active with projection := projection } hingest)]
      cases advanced with
      | false =>
        cases timeChange with
        | none => simpa [Post,pure,EStateM.pure] using hrests kernel projection (hstill rfl)
        | some change =>
          simpa [Post,pure,EStateM.pure] using hmoves kernel projection (hadvanced (by simp))
      | true =>
        have hpredicted := hpromises.predicted kernel (L.projectedCut projection)
          (L.readyCut kernel) projection
        simp only [Bool.true_eq_false,if_false]
        refine Post.getting ?_
        cases hpredict : L.predictBetween kernel (L.projectedCut projection) (L.readyCut kernel)
          projection with
        | error message last =>
          rw [bind_of_error (onProjection_of_error
            { active with kernel := kernel, projection := projection } hpredict)]
          trivial
        | ok transition last =>
          rw [hpredict] at hpredicted
          obtain ⟨hsame,hnext⟩ : (transition = none → L.Rests projection last) ∧
            (transition ≠ none → L.Transits (L.durable projection) projection last) := hpredicted
          rw [bind_of_ok (onProjection_of_ok
            { active with kernel := kernel, projection := projection } hpredict)]
          cases timeChange with
          | none =>
            have hfirst := hstill rfl
            cases transition with
            | none =>
              simpa [Post,pure,EStateM.pure] using hrests kernel last (hfirst.trans (hsame rfl))
            | some change =>
              have hlast := hnext (by simp)
              rw [hfirst.durable] at hlast
              simpa [Post,pure,EStateM.pure] using hmoves kernel last (hfirst.transits hlast)
          | some change =>
            have hfirst := hadvanced (by simp)
            cases transition with
            | none =>
              simpa [Post,pure,EStateM.pure] using hmoves kernel last (hfirst.rests (hsame rfl))
            | some second => simp [Post,pure,EStateM.pure]

/-- A durable horizon that the session takes over is shown, unless its host made no transition. -/
structure TakesOver (canonical : Nat × Digest) (kind : Option RoomSessionProjectionKind)
    (before after : ActiveSession L) : Prop where
  unmoved : kind = none → Unmoved before after
  publishes : ∀ shown, kind = some shown → Publishes canonical shown before after

theorem resynchronize_ends (hpromises : L.WindowPromises) (revision : Nat) (history : L.History)
    (durable : DurableProjection) :
    Post (fun _ after => KeepsSession active after ∧
        L.generation active.projection < L.generation after.projection ∧
        L.durable after.projection = durable)
      (fun _ => Unmoved active) (resynchronize revision history durable active) := by
  refine Post.getting ?_
  refine Post.bind (R := fun change after => change = .reset ∧ KeepsSession active after ∧
      L.generation active.projection < L.generation after.projection ∧
      L.durable after.projection = durable) (Post.onPart ?_) fun change after hafter => ?_
  · exact Post.mono (hpromises.resynchronized _ _ _ durable history active.projection)
      (fun _ _ h => ⟨h.1,⟨rfl,rfl,_,_,_,rfl⟩,h.2⟩)
      fun _ _ h => ⟨⟨rfl,rfl,_,_,_,rfl⟩,h,le_rfl⟩
  · obtain ⟨rfl,hkeeps,hnewer,hdurable⟩ := hafter
    refine Post.refuseIf (fun h => absurd rfl h) fun _ => ?_
    exact ⟨KeepsSession.trans _ _ _ hkeeps ⟨rfl,rfl,_,_,_,rfl⟩,hnewer,hdurable⟩

theorem takeDurable_ends (hpromises : L.WindowPromises) (hstands : Stands canonical active)
    {step : DurableProjection → ActiveM L (Option RoomSessionProjectionKind)}
    (hstep : ∀ durable, Post (fun kind after => (kind = none → Unmoved active after) ∧
        (kind ≠ none → KeepsSession active after ∧
          L.Transits durable active.projection after.projection))
      (fun _ => Unmoved active) (step durable active))
    (revision : Nat) (history : L.History) (durableView : SharedPitchSet) :
    Post (fun kind after => TakesOver canonical kind active after) (fun _ => Unmoved active)
      (takeDurable step revision history durableView active) := by
  refine Post.getting <| Post.ite (fun _ => ?_) fun hnewer => ?_
  · exact Post.pure ⟨fun _ => Unmoved.refl active,fun _ h => by cases h⟩
  have hbehind : canonical.1 < revision := by
    have hle := hstands.revision
    omega
  -- what was taken over is settled: the host stays, and the foundation takes over its horizon
  have hsettled : ∀ kind after, (kind = none → Unmoved active after) →
      (kind ≠ none → KeepsSession active after ∧
        (L.durable after.projection).revision = revision) →
      (∀ shown later, kind = some shown → KeepsSession active later →
        later.projection = after.projection → Stands canonical later →
          Publishes canonical shown active later) →
      Post (fun kind after => TakesOver canonical kind active after) (fun _ => Unmoved active)
        ((do settleDurable revision history; return kind : ActiveM L _) after) := by
    intro kind after hnone hsome hshown
    refine Post.modifying (Post.pure ⟨fun hkind => ?_,fun shown hkind => ?_⟩)
    · have hunmoved := hnone hkind
      refine ⟨KeepsSession.trans _ _ _ hunmoved.keeps ⟨rfl,rfl,_,_,_,rfl⟩,hunmoved.rests,?_⟩
      simp only
      omega
    · obtain ⟨hkeeps,hrevision⟩ := hsome (by simp [hkind])
      refine hshown shown _ hkind (KeepsSession.trans _ _ _ hkeeps ⟨rfl,rfl,_,_,_,rfl⟩) rfl ?_
      exact ⟨.inl (by simp only [hrevision]; exact hbehind),hbehind.le⟩
  refine Post.bind (R := fun kind after =>
      Post (fun kind after => TakesOver canonical kind active after) (fun _ => Unmoved active)
        ((do settleDurable revision history; return kind : ActiveM L _) after))
    (Post.getting <| Post.ite (fun _ => ?_) fun _ => ?_) fun _ _ h => h
  · refine Post.mono (hstep _) (fun kind after h => ?_) fun _ _ h => h
    refine hsettled kind after h.1 (fun hkind => ?_) fun shown later hkind hkeeps hsame hlater => ?_
    · obtain ⟨hkeeps,htransits⟩ := h.2 hkind
      exact ⟨hkeeps,by rw [htransits.durable]; rfl⟩
    · obtain ⟨-,htransits⟩ := h.2 (by simp [hkind])
      exact .of_transits shown hkeeps (hsame ▸ htransits) hlater
  · refine Post.bind (resynchronize_ends hpromises revision history _)
      fun _ after ⟨hkeeps,hgeneration,hdurable⟩ => ?_
    refine hsettled (some .reset) after (fun h => by cases h)
      (fun _ => ⟨hkeeps,by rw [hdurable]; rfl⟩) fun shown later hkind hkeeps hsame hlater => ?_
    cases hkind
    exact .of_newer hkeeps (hsame ▸ hgeneration) hlater

theorem confirm_ends (hpromises : L.WindowPromises) (hstands : Stands canonical active)
    (admission : L.SessionAdmission) (revision : Nat) (history : L.History)
    (durableView : SharedPitchSet) :
    Post (fun kind after => TakesOver canonical kind active after) (fun _ => Unmoved active)
      (confirm admission revision history durableView active) := by
  refine takeDurable_ends hpromises hstands (fun durable => ?_) revision history durableView
  refine Post.bind (Post.onPart (Q := fun change after => (change = none → Unmoved active after) ∧
      (change ≠ none → KeepsSession active after ∧
        L.Transits durable active.projection after.projection))
    (E := fun _ => Unmoved active) ?_) fun change after h => Post.pure ?_
  · exact Post.mono (hpromises.confirmed admission durable active.projection)
      (fun _ _ h => ⟨fun hnone => ⟨⟨rfl,rfl,_,_,_,rfl⟩,h.1 hnone,le_rfl⟩,
        fun hsome => ⟨⟨rfl,rfl,_,_,_,rfl⟩,h.2 hsome⟩⟩)
      fun _ _ h => ⟨⟨rfl,rfl,_,_,_,rfl⟩,h,le_rfl⟩
  · cases change with
    | none => exact ⟨fun _ => h.1 rfl,fun hnone => absurd rfl hnone⟩
    | some change => exact ⟨fun hnone => (by cases hnone),fun _ => h.2 (by simp)⟩

theorem advanceDurable_ends (hpromises : L.WindowPromises) (hstands : Stands canonical active)
    (revision : Nat) (history : L.History) (durableView : SharedPitchSet) :
    Post (fun kind after => TakesOver canonical kind active after) (fun _ => Unmoved active)
      (advanceDurable revision history durableView active) := by
  refine takeDurable_ends hpromises hstands (fun durable => ?_) revision history durableView
  have hadvanced := hpromises.advanced durable active.projection
  cases hrun : L.advanceDurable durable active.projection with
  | ok change projection =>
    rw [map_eq_pure_bind,bind_of_ok hrun] at hadvanced
    rw [bind_of_ok (onProjection_of_ok active hrun)]
    exact ⟨fun h => (by cases h),fun _ => ⟨⟨rfl,rfl,_,_,_,rfl⟩,hadvanced.2 (by simp)⟩⟩
  | error message projection =>
    rw [map_eq_pure_bind,bind_of_error hrun] at hadvanced
    rw [bind_of_error (onProjection_of_error active hrun)]
    exact ⟨⟨rfl,rfl,_,_,_,rfl⟩,hadvanced,le_rfl⟩

/-- A reset over a horizon that is not behind the window is shown. -/
theorem resynchronizeExact_ends (hpromises : L.WindowPromises) (revision : Nat)
    (history : L.History) (durableView : SharedPitchSet) :
    Post (fun _ after => AtOrAhead canonical revision (L.historyRoot history) →
        Publishes canonical .reset active after)
      (fun _ => Unmoved active)
      (resynchronizeExact revision history durableView active) := by
  refine Post.bind (resynchronize_ends hpromises revision history _)
    fun _ after ⟨hkeeps,hnewer,hdurable⟩ => ?_
  refine Post.modifying (Post.getting (Post.pure fun hahead => ?_))
  refine .of_newer (KeepsSession.trans _ _ _ hkeeps ⟨rfl,rfl,_,_,_,rfl⟩) hnewer ⟨?_,hahead.revision⟩
  simp only [hdurable]
  exact hahead

end Operations

end WalkieSongie.Session
