import WalkieSongie.RoomValues
set_option autoImplicit false

/-!
The window's continuity gate: which session projections it shows, between canonical
revisions of the room, and what every sequence of calls to it guarantees.
-/

namespace WalkieSongie.Session

inductive RoomSessionProjectionKind where
  | reset
  | predicted
  | confirmed
  | corrected
  | advanced
  deriving DecidableEq

/-- Ordering and durable-horizon metadata for a speculative view. -/
structure RoomSessionProjection where
  manifest : Digest
  sessionId : Nat
  epoch : Nat
  generation : Nat
  sequence : Nat
  durableRevision : Nat
  durableRoot : Digest
  kind : RoomSessionProjectionKind
  view : SharedPitchSet
  deriving DecidableEq

structure RoomSessionProjectionCursor where
  manifest : Digest
  sessionId : Nat
  epoch : Nat
  generation : Nat
  sequence : Nat
  deriving DecidableEq

structure RoomSessionProjectionGate where
  canonicalInitialized : Bool := false
  canonicalRevision : Nat := 0
  canonicalRoot : Digest := 0
  cursor : Option RoomSessionProjectionCursor := none
  visibleSessionHorizon : Option (Nat × Digest) := none
  awaitingReset : Bool := false
  deriving DecidableEq

abbrev GateM := EStateM String RoomSessionProjectionGate

/-- Every refusal leaves the gate waiting for a reset. -/
def RoomSessionProjectionGate.refuse (message : String) : GateM Bool :=
  fun gate => .error message { gate with awaitingReset := true }

/-- The canonical horizon is in place; what does the visible session projection make of it? -/
def RoomSessionProjectionGate.canonicalVisible (revision : Nat) (root : Digest) : GateM Bool :=
  fun gate => match gate.visibleSessionHorizon with
    | some (sessionRevision,sessionRoot) =>
        if sessionRevision = revision then
          if sessionRoot ≠ root then
            refuse s!"canonical music root contradicts visible session projection at revision {revision}"
              gate
          else .ok false gate
        else if revision < sessionRevision then .ok false gate
        else .ok true { gate with visibleSessionHorizon := none }
    | none => .ok true { gate with visibleSessionHorizon := none }

def RoomSessionProjectionGate.canonical (revision : Nat) (root : Digest) : GateM Bool :=
  fun gate =>
    if gate.canonicalInitialized ∧ revision < gate.canonicalRevision then .ok false gate
    else if gate.canonicalInitialized ∧ revision = gate.canonicalRevision ∧
        root ≠ gate.canonicalRoot then
      refuse s!"canonical music root conflicts at revision {revision}" gate
    else
      canonicalVisible revision root
        { gate with
          canonicalInitialized := true
          canonicalRevision := revision
          canonicalRoot := root }

def RoomSessionProjection.cursor (projection : RoomSessionProjection) :
    RoomSessionProjectionCursor where
  manifest := projection.manifest
  sessionId := projection.sessionId
  epoch := projection.epoch
  generation := projection.generation
  sequence := projection.sequence

/-- What a projection does to the cursor: it is passed over, refused, or moves it. -/
inductive CursorMove where
  | ignore
  | refuse (message : String)
  | move (cursor : RoomSessionProjectionCursor)
  deriving DecidableEq

def cursorMove (projection : RoomSessionProjection) :
    Option RoomSessionProjectionCursor → CursorMove
  | none =>
      if projection.kind ≠ .reset then
        .refuse "first session projection was not a reset snapshot"
      else .move projection.cursor
  | some cursor =>
      if cursor.manifest ≠ projection.manifest ∨ cursor.sessionId ≠ projection.sessionId then
        if projection.epoch ≤ cursor.epoch then .ignore
        else if projection.kind ≠ .reset then
          .refuse "newer session superseded presentation without a reset"
        else .move projection.cursor
      else if cursor.generation ≠ projection.generation then
        if projection.kind ≠ .reset ∨ projection.generation ≤ cursor.generation then
          .refuse "session projection generation changed without a newer reset"
        else .move { cursor with
          generation := projection.generation
          sequence := projection.sequence }
      else if 2^64 ≤ cursor.sequence+1 then .refuse "session projection sequence exhausted"
      else if projection.sequence ≠ cursor.sequence+1 then
        let expected := cursor.sequence+1
        let received := projection.sequence
        .refuse s!"session projection sequence gap: expected {expected}, received {received}"
      else .move { cursor with sequence := projection.sequence }

def RoomSessionProjectionGate.accept (projection : RoomSessionProjection) : GateM Bool :=
  fun gate =>
    if gate.awaitingReset ∧ projection.kind ≠ .reset then .ok false gate
    else if projection.durableRevision < gate.canonicalRevision then .ok false gate
    else if projection.durableRevision = gate.canonicalRevision ∧
        projection.durableRoot ≠ gate.canonicalRoot then
      let revision := projection.durableRevision
      refuse s!"session projection durable root differs at revision {revision}" gate
    else match cursorMove projection gate.cursor with
      | .ignore => .ok false gate
      | .refuse message => refuse message gate
      | .move cursor => .ok true { gate with
          cursor := some cursor
          awaitingReset := gate.awaitingReset && projection.kind ≠ .reset
          visibleSessionHorizon := some (projection.durableRevision,projection.durableRoot) }

open RoomSessionProjectionGate

def SameSession (first second : RoomSessionProjection) : Prop :=
  first.manifest = second.manifest ∧ first.sessionId = second.sessionId

instance (first second : RoomSessionProjection) : Decidable (SameSession first second) :=
  inferInstanceAs (Decidable (_ ∧ _))

/-- How an accepted projection may follow the cursor it found. -/
inductive Follows (projection : RoomSessionProjection) :
    Option RoomSessionProjectionCursor → RoomSessionProjectionCursor → Prop where
  | first (hreset : projection.kind = .reset) : Follows projection none projection.cursor
  | session (old : RoomSessionProjectionCursor)
      (hother : old.manifest ≠ projection.manifest ∨ old.sessionId ≠ projection.sessionId)
      (hepoch : old.epoch < projection.epoch) (hreset : projection.kind = .reset) :
      Follows projection (some old) projection.cursor
  | generation (old : RoomSessionProjectionCursor)
      (hmanifest : old.manifest = projection.manifest)
      (hsession : old.sessionId = projection.sessionId)
      (hnewer : old.generation < projection.generation) (hreset : projection.kind = .reset) :
      Follows projection (some old)
        { old with generation := projection.generation, sequence := projection.sequence }
  | next (old : RoomSessionProjectionCursor)
      (hmanifest : old.manifest = projection.manifest)
      (hsession : old.sessionId = projection.sessionId)
      (hgeneration : old.generation = projection.generation)
      (hsequence : projection.sequence = old.sequence+1) :
      Follows projection (some old) { old with sequence := projection.sequence }

theorem cursorMove_follows {projection : RoomSessionProjection}
    {cursor : Option RoomSessionProjectionCursor} {next : RoomSessionProjectionCursor}
    (h : cursorMove projection cursor = .move next) : Follows projection cursor next := by
  cases cursor with
  | none =>
    simp only [cursorMove] at h
    split at h
    · cases h
    · rename_i hreset
      cases h
      exact .first (not_not.mp hreset)
  | some old =>
    simp only [cursorMove] at h
    split at h
    · rename_i hother
      split at h
      · cases h
      · rename_i hepoch
        split at h
        · cases h
        · rename_i hreset
          cases h
          exact .session old hother (Nat.lt_of_not_le hepoch) (not_not.mp hreset)
    · rename_i hsame
      push Not at hsame
      split at h
      · split at h
        · cases h
        · rename_i hnewer
          push Not at hnewer
          cases h
          exact .generation old hsame.1 hsame.2 hnewer.2 hnewer.1
      · rename_i hgeneration
        split at h
        · cases h
        · split at h
          · cases h
          · rename_i hsequence
            cases h
            exact .next old hsame.1 hsame.2 (not_not.mp hgeneration) (not_not.mp hsequence)

theorem accept_cases (projection : RoomSessionProjection) (gate : RoomSessionProjectionGate) :
    accept projection gate = .ok false gate ∨
    (∃ message, accept projection gate = .error message { gate with awaitingReset := true }) ∨
    ∃ cursor, accept projection gate = .ok true { gate with
        cursor := some cursor
        awaitingReset := gate.awaitingReset && projection.kind ≠ .reset
        visibleSessionHorizon := some (projection.durableRevision,projection.durableRoot) } ∧
      (gate.awaitingReset = true → projection.kind = .reset) ∧
      gate.canonicalRevision ≤ projection.durableRevision ∧
      (projection.durableRevision = gate.canonicalRevision →
        projection.durableRoot = gate.canonicalRoot) ∧
      Follows projection gate.cursor cursor := by
  unfold accept
  split
  · exact .inl rfl
  · rename_i hawaiting
    split
    · exact .inl rfl
    · rename_i hbehind
      split
      · exact .inr (.inl ⟨_,rfl⟩)
      · rename_i hroot
        cases hmove : cursorMove projection gate.cursor with
        | ignore => exact .inl rfl
        | refuse message => exact .inr (.inl ⟨message,rfl⟩)
        | move cursor =>
          push Not at hawaiting hroot
          exact .inr (.inr ⟨cursor,rfl,hawaiting,Nat.le_of_not_lt hbehind,hroot,
            cursorMove_follows hmove⟩)

/-- Everything `canonical` can do: it passes the revision over, or reports a conflict, or
records the revision and then may still report one. -/
theorem canonical_cases (revision : Nat) (root : Digest) (gate : RoomSessionProjectionGate) :
    (canonical revision root gate = .ok false gate ∧
      gate.canonicalInitialized = true ∧ revision < gate.canonicalRevision) ∨
    (∃ message, canonical revision root gate = .error message { gate with awaitingReset := true } ∧
      gate.canonicalInitialized = true ∧ revision = gate.canonicalRevision) ∨
    ((gate.canonicalInitialized = true → gate.canonicalRevision < revision ∨
        (revision = gate.canonicalRevision ∧ root = gate.canonicalRoot)) ∧
      ∃ visible,
        (∃ shown, canonical revision root gate = .ok shown { gate with
          canonicalInitialized := true
          canonicalRevision := revision
          canonicalRoot := root
          visibleSessionHorizon := visible }) ∨
        ∃ message, canonical revision root gate = .error message { gate with
          canonicalInitialized := true
          canonicalRevision := revision
          canonicalRoot := root
          awaitingReset := true
          visibleSessionHorizon := visible }) := by
  unfold canonical
  split
  · rename_i hbehind
    exact .inl ⟨rfl,hbehind⟩
  · rename_i hbehind
    split
    · rename_i hconflict
      exact .inr (.inl ⟨_,rfl,hconflict.1,hconflict.2.1⟩)
    · rename_i hconflict
      refine .inr (.inr ⟨fun hinit => ?_,?_⟩)
      · rcases Nat.lt_trichotomy revision gate.canonicalRevision with h | h | h
        · exact absurd ⟨hinit,h⟩ hbehind
        · exact .inr ⟨h,by_contra fun hroot => hconflict ⟨hinit,h,hroot⟩⟩
        · exact .inl h
      · unfold canonicalVisible
        cases hvisible : gate.visibleSessionHorizon with
        | none => exact ⟨none,.inl ⟨true,rfl⟩⟩
        | some horizon =>
          obtain ⟨sessionRevision,sessionRoot⟩ := horizon
          simp only
          split
          · split
            · exact ⟨_,.inr ⟨_,by rw [refuse]⟩⟩
            · exact ⟨_,.inl ⟨false,rfl⟩⟩
          · split
            · exact ⟨_,.inl ⟨false,rfl⟩⟩
            · exact ⟨none,.inl ⟨true,rfl⟩⟩

section Calls

inductive GateCall where
  | canonical (revision : Nat) (root : Digest)
  | accept (projection : RoomSessionProjection)

structure GateEvent where
  call : GateCall
  outcome : Except String Bool

structure GateRun where
  gate : RoomSessionProjectionGate
  events : List GateEvent

def GateCall.perform : GateCall → GateM Bool
  | .canonical revision root => RoomSessionProjectionGate.canonical revision root
  | .accept projection => RoomSessionProjectionGate.accept projection

def GateRun.step (run : GateRun) (call : GateCall) : GateRun :=
  match call.perform run.gate with
  | .ok shown gate => ⟨gate,⟨call,.ok shown⟩ :: run.events⟩
  | .error message gate => ⟨gate,⟨call,.error message⟩ :: run.events⟩

def gateRun (calls : List GateCall) : GateRun := calls.foldl GateRun.step ⟨{},[]⟩

def GateEvent.accepted? : GateEvent → Option RoomSessionProjection
  | ⟨.accept projection,.ok true⟩ => some projection
  | _ => none

def lastAccepted (events : List GateEvent) : Option RoomSessionProjection :=
  events.findSome? GateEvent.accepted?

theorem lastAccepted_cons_none {event : GateEvent} (h : event.accepted? = none)
    (events : List GateEvent) : lastAccepted (event :: events) = lastAccepted events := by
  simp only [lastAccepted,List.findSome?_cons,h]

theorem lastAccepted_cons_accept (projection : RoomSessionProjection) (events : List GateEvent) :
    lastAccepted (⟨.accept projection,.ok true⟩ :: events) = some projection := rfl

/-- The projection through which the session last shown was entered. -/
def sessionEntry : List GateEvent → Option RoomSessionProjection
  | [] => none
  | event :: rest => match event.accepted? with
    | none => sessionEntry rest
    | some projection => match lastAccepted rest with
      | none => some projection
      | some last => if SameSession last projection then sessionEntry rest else some projection

/-- Some call has been refused since the last accepted reset. -/
def errorSinceReset : List GateEvent → Bool
  | [] => false
  | ⟨_,.error _⟩ :: _ => true
  | ⟨.accept projection,.ok true⟩ :: rest => errorSinceReset rest && projection.kind ≠ .reset
  | ⟨_,.ok _⟩ :: rest => errorSinceReset rest

/-- The highest revision announced as canonical, with the root it was first announced with. -/
def canonicalHorizon : List GateEvent → Option (Nat × Digest)
  | [] => none
  | ⟨.canonical revision root,_⟩ :: rest => match canonicalHorizon rest with
    | none => some (revision,root)
    | some (highest,known) =>
        if highest < revision then some (revision,root) else some (highest,known)
  | ⟨.accept _,_⟩ :: rest => canonicalHorizon rest

/-- What the gate remembers of the calls it has answered. -/
structure GateRun.Consistent (run : GateRun) : Prop where
  awaiting : run.gate.awaitingReset = errorSinceReset run.events
  initialized : run.gate.canonicalInitialized = (canonicalHorizon run.events).isSome
  horizon : (run.gate.canonicalRevision,run.gate.canonicalRoot) =
    (canonicalHorizon run.events).getD (0,0)
  unopened : lastAccepted run.events = none → run.gate.cursor = none
  opened : ∀ last, lastAccepted run.events = some last →
    ∃ entry, sessionEntry run.events = some entry ∧ SameSession entry last ∧
      run.gate.cursor = some { last.cursor with epoch := entry.epoch }

/-- A call that accepts nothing and announces nothing leaves the memory of acceptances. -/
theorem GateRun.Consistent.unaccepted {run : GateRun} (h : run.Consistent) {event : GateEvent}
    {gate : RoomSessionProjectionGate} (hnone : event.accepted? = none)
    (hcursor : gate.cursor = run.gate.cursor)
    (hawaiting : gate.awaitingReset = errorSinceReset (event :: run.events))
    (hinitialized : gate.canonicalInitialized = (canonicalHorizon (event :: run.events)).isSome)
    (hhorizon : (gate.canonicalRevision,gate.canonicalRoot) =
      (canonicalHorizon (event :: run.events)).getD (0,0)) :
    GateRun.Consistent ⟨gate,event :: run.events⟩ where
  awaiting := hawaiting
  initialized := hinitialized
  horizon := hhorizon
  unopened hlast := by
    rw [lastAccepted_cons_none hnone] at hlast
    exact hcursor.trans (h.unopened hlast)
  opened last hlast := by
    rw [lastAccepted_cons_none hnone] at hlast
    simp only [sessionEntry,hnone,hcursor]
    exact h.opened last hlast

/-- The cursor an acceptance leaves is the projection's own, under its session's epoch. -/
theorem sessionEntry_accept {run : GateRun} (h : run.Consistent)
    {projection : RoomSessionProjection} {cursor : RoomSessionProjectionCursor}
    (hfollows : Follows projection run.gate.cursor cursor) :
    ∃ entry, sessionEntry (⟨.accept projection,.ok true⟩ :: run.events) = some entry ∧
      SameSession entry projection ∧ cursor = { projection.cursor with epoch := entry.epoch } := by
  cases hlast : lastAccepted run.events with
  | none =>
    rw [h.unopened hlast] at hfollows
    cases hfollows with
    | first hreset =>
      exact ⟨projection,by simp only [sessionEntry,GateEvent.accepted?,hlast],⟨rfl,rfl⟩,rfl⟩
  | some last =>
    obtain ⟨entry,hentry,hsame,hcursor⟩ := h.opened last hlast
    rw [hcursor] at hfollows
    cases hfollows with
    | session _ hother hepoch hreset =>
      have hnew : ¬ SameSession last projection := by
        rintro ⟨hmanifest,hsession⟩
        rcases hother with hother | hother
        · exact hother hmanifest
        · exact hother hsession
      exact ⟨projection,by simp only [sessionEntry,GateEvent.accepted?,hlast,hnew,if_false],
        ⟨rfl,rfl⟩,rfl⟩
    | generation _ hmanifest hsession hnewer hreset =>
      have hold : SameSession last projection := ⟨hmanifest,hsession⟩
      refine ⟨entry,by simp only [sessionEntry,GateEvent.accepted?,hlast,hold,if_true,hentry],
        ⟨hsame.1.trans hold.1,hsame.2.trans hold.2⟩,?_⟩
      simp only [RoomSessionProjection.cursor] at hmanifest hsession ⊢
      rw [hmanifest,hsession]
    | next _ hmanifest hsession hgeneration hsequence =>
      have hold : SameSession last projection := ⟨hmanifest,hsession⟩
      refine ⟨entry,by simp only [sessionEntry,GateEvent.accepted?,hlast,hold,if_true,hentry],
        ⟨hsame.1.trans hold.1,hsame.2.trans hold.2⟩,?_⟩
      simp only [RoomSessionProjection.cursor] at hmanifest hsession hgeneration ⊢
      rw [hmanifest,hsession,hgeneration]

theorem step_accept_consistent {run : GateRun} (h : run.Consistent)
    (projection : RoomSessionProjection) : (run.step (.accept projection)).Consistent := by
  rcases accept_cases projection run.gate with
    hresult | ⟨message,hresult⟩ | ⟨cursor,hresult,hawaiting,-,-,hfollows⟩
  · simp only [GateRun.step,GateCall.perform,hresult]
    exact h.unaccepted rfl rfl h.awaiting h.initialized h.horizon
  · simp only [GateRun.step,GateCall.perform,hresult]
    exact h.unaccepted rfl rfl rfl h.initialized h.horizon
  · simp only [GateRun.step,GateCall.perform,hresult]
    refine ⟨?_,h.initialized,h.horizon,fun hlast => ?_,fun last hlast => ?_⟩
    · simp only [errorSinceReset,h.awaiting]
    · rw [lastAccepted_cons_accept] at hlast
      cases hlast
    · rw [lastAccepted_cons_accept] at hlast
      obtain rfl := Option.some.inj hlast
      obtain ⟨entry,hentry,hsame,rfl⟩ := sessionEntry_accept h hfollows
      exact ⟨entry,hentry,hsame,rfl⟩

theorem step_canonical_consistent {run : GateRun} (h : run.Consistent) (revision : Nat)
    (root : Digest) : (run.step (.canonical revision root)).Consistent := by
  have hinitialized := h.initialized
  have hhorizon := h.horizon
  rcases canonical_cases revision root run.gate with
    ⟨hresult,hinit,hbehind⟩ | ⟨message,hresult,hinit,hsame⟩ | ⟨hnewer,visible,hrecorded⟩
  · simp only [GateRun.step,GateCall.perform,hresult]
    cases hknown : canonicalHorizon run.events with
    | none => simp [hknown,hinit] at hinitialized
    | some known =>
      obtain ⟨highest,root⟩ := known
      simp only [hknown,Option.getD_some,Prod.mk.injEq] at hhorizon
      obtain ⟨rfl,rfl⟩ := hhorizon
      refine h.unaccepted rfl rfl h.awaiting ?_ ?_
      · simp [canonicalHorizon,hknown,hinit,Nat.not_lt.mpr hbehind.le]
      · simp [canonicalHorizon,hknown,Nat.not_lt.mpr hbehind.le]
  · simp only [GateRun.step,GateCall.perform,hresult]
    cases hknown : canonicalHorizon run.events with
    | none => simp [hknown,hinit] at hinitialized
    | some known =>
      obtain ⟨highest,root⟩ := known
      simp only [hknown,Option.getD_some,Prod.mk.injEq] at hhorizon
      obtain ⟨rfl,rfl⟩ := hhorizon
      refine h.unaccepted rfl rfl rfl ?_ ?_
      · simp [canonicalHorizon,hknown,hinit,hsame]
      · simp [canonicalHorizon,hknown,hsame]
  · have hafter : ∀ outcome, canonicalHorizon
        (⟨.canonical revision root,outcome⟩ :: run.events) = some (revision,root) := by
      intro outcome
      cases hknown : canonicalHorizon run.events with
      | none => simp [canonicalHorizon,hknown]
      | some known =>
        obtain ⟨highest,known⟩ := known
        simp only [hknown,Option.getD_some,Prod.mk.injEq] at hhorizon
        obtain ⟨rfl,rfl⟩ := hhorizon
        rcases hnewer (by simp [hinitialized,hknown]) with hlt | ⟨rfl,rfl⟩
        · simp [canonicalHorizon,hknown,hlt]
        · simp [canonicalHorizon,hknown]
    rcases hrecorded with ⟨shown,hresult⟩ | ⟨message,hresult⟩
    · simp only [GateRun.step,GateCall.perform,hresult]
      have hawaiting : run.gate.awaitingReset = errorSinceReset
          (⟨.canonical revision root,.ok shown⟩ :: run.events) := by
        cases shown <;> exact h.awaiting
      exact h.unaccepted rfl rfl hawaiting (by rw [hafter]; rfl) (by rw [hafter]; rfl)
    · simp only [GateRun.step,GateCall.perform,hresult]
      exact h.unaccepted rfl rfl rfl (by rw [hafter]; rfl) (by rw [hafter]; rfl)

theorem gateRun_consistent (calls : List GateCall) : (gateRun calls).Consistent := by
  suffices h : ∀ run : GateRun, run.Consistent → (calls.foldl GateRun.step run).Consistent by
    refine h _ ⟨rfl,rfl,rfl,fun _ => rfl,fun last hlast => ?_⟩
    cases hlast
  induction calls with
  | nil => exact fun run h => h
  | cons call rest ih =>
    intro run h
    cases call with
    | canonical revision root => exact ih _ (step_canonical_consistent h revision root)
    | accept projection => exact ih _ (step_accept_consistent h projection)

/-- After any calls, an accepted projection continues the one accepted before it: the next
sequence within a generation, a reset for a newer generation, a reset for a session whose
epoch is above the one the outgoing session was entered with. After an error only a reset is
accepted, and never anything behind or beside the canonical horizon. -/
theorem accept_after_calls (calls : List GateCall) (projection : RoomSessionProjection)
    (gate : RoomSessionProjectionGate)
    (haccepted : accept projection (gateRun calls).gate = .ok true gate) :
    (lastAccepted (gateRun calls).events = none → projection.kind = .reset) ∧
    (∀ last, lastAccepted (gateRun calls).events = some last →
      (SameSession last projection → last.generation = projection.generation →
        projection.sequence = last.sequence+1) ∧
      (SameSession last projection → last.generation ≠ projection.generation →
        projection.kind = .reset ∧ last.generation < projection.generation) ∧
      (¬ SameSession last projection → projection.kind = .reset ∧
        ∃ entry, sessionEntry (gateRun calls).events = some entry ∧ SameSession entry last ∧
          entry.epoch < projection.epoch)) ∧
    (errorSinceReset (gateRun calls).events = true → projection.kind = .reset) ∧
    ∀ revision root, canonicalHorizon (gateRun calls).events = some (revision,root) →
      revision ≤ projection.durableRevision ∧
        (projection.durableRevision = revision → projection.durableRoot = root) := by
  have hrun := gateRun_consistent calls
  rcases accept_cases projection (gateRun calls).gate with
    hresult | ⟨message,hresult⟩ | ⟨cursor,-,hawaiting,hahead,hroot,hfollows⟩
  · rw [hresult] at haccepted
    cases haccepted
  · rw [hresult] at haccepted
    cases haccepted
  · refine ⟨fun hnone => ?_,fun last hlast => ?_,fun herror => ?_,fun revision root hknown => ?_⟩
    · rw [hrun.unopened hnone] at hfollows
      cases hfollows with
      | first hreset => exact hreset
    · obtain ⟨entry,hentry,hsame,hcursor⟩ := hrun.opened last hlast
      rw [hcursor] at hfollows
      cases hfollows with
      | session _ hother hepoch hreset =>
        have hnew : ¬ SameSession last projection := by
          rintro ⟨hmanifest,hsession⟩
          rcases hother with hother | hother
          · exact hother hmanifest
          · exact hother hsession
        exact ⟨fun h => absurd h hnew,fun h => absurd h hnew,
          fun _ => ⟨hreset,entry,hentry,hsame,hepoch⟩⟩
      | generation _ hmanifest hsession hnewer hreset =>
        exact ⟨fun _ h => absurd h hnewer.ne,fun _ _ => ⟨hreset,hnewer⟩,
          fun h => absurd ⟨hmanifest,hsession⟩ h⟩
      | next _ hmanifest hsession hgeneration hsequence =>
        exact ⟨fun _ _ => hsequence,fun _ h => absurd hgeneration h,
          fun h => absurd ⟨hmanifest,hsession⟩ h⟩
    · exact hawaiting (hrun.awaiting.trans herror)
    · have hhorizon := hrun.horizon
      simp only [hknown,Option.getD_some,Prod.mk.injEq] at hhorizon
      obtain ⟨rfl,rfl⟩ := hhorizon
      exact ⟨hahead,hroot⟩

def emptyView : SharedPitchSet := ⟨∅,∅⟩

/-- A reset that opens session 1 of manifest 10 at epoch 1. -/
def openFirst : RoomSessionProjection := ⟨10,1,1,1,0,4,7,.reset,emptyView⟩

def advanceFirst : RoomSessionProjection := ⟨10,1,1,1,1,4,7,.advanced,emptyView⟩

theorem accept_after_calls_advanceFirst :
    advanceFirst.sequence = openFirst.sequence+1 ∧ 4 ≤ advanceFirst.durableRevision := by
  have h := accept_after_calls [.canonical 4 7,.accept openFirst] advanceFirst _ rfl
  exact ⟨(h.2.1 openFirst rfl).1 ⟨rfl,rfl⟩ rfl,(h.2.2.2 4 7 rfl).1⟩

/-- The same session claims epoch 5, and a session of epoch 3 then supersedes it. -/
def claimsEpochFive : RoomSessionProjection := ⟨10,1,5,1,1,4,7,.advanced,emptyView⟩
def openThird : RoomSessionProjection := ⟨11,2,3,1,0,4,7,.reset,emptyView⟩

theorem session_change_below_last_epoch :
    lastAccepted (gateRun [.accept openFirst,.accept claimsEpochFive]).events =
        some claimsEpochFive ∧
      (∃ gate, accept openThird (gateRun [.accept openFirst,.accept claimsEpochFive]).gate =
        .ok true gate) ∧
      ¬ SameSession claimsEpochFive openThird ∧ openThird.epoch < claimsEpochFive.epoch :=
  ⟨rfl,⟨_,rfl⟩,by decide,by decide⟩

end Calls

end WalkieSongie.Session
