import Mathlib.Data.List.Chain
import WalkieSongie.ProjectionGate
set_option autoImplicit false

/-!
The durable revisions that the window's gate lets through, in the order it shows them.
-/

namespace WalkieSongie.Session

open RoomSessionProjectionGate

section Shown

/-- The durable revision of what a call lets through to the window. -/
def GateEvent.shown? : GateEvent → Option Nat
  | ⟨.canonical revision _,.ok true⟩ => some revision
  | ⟨.accept projection,.ok true⟩ => some projection.durableRevision
  | _ => none

def GateRun.shown (run : GateRun) : List Nat := run.events.reverse.filterMap GateEvent.shown?

def RoomSessionProjectionGate.Continues (gate : RoomSessionProjectionGate)
    (projection : RoomSessionProjection) : Prop :=
  (gate.awaitingReset = true → projection.kind = .reset) ∧
  gate.canonicalRevision ≤ projection.durableRevision ∧
  (projection.durableRevision = gate.canonicalRevision →
    projection.durableRoot = gate.canonicalRoot) ∧
  ∃ cursor, cursorMove projection gate.cursor = .move cursor

/-- A projection that the gate has no reason to hold back, behind the one that is visible. -/
def GateCall.FallsBehind (gate : RoomSessionProjectionGate) : GateCall → Prop
  | .canonical _ _ => False
  | .accept projection => gate.Continues projection ∧
      ∃ visible root, gate.visibleSessionHorizon = some (visible,root) ∧
        projection.durableRevision < visible

theorem accept_continues (projection : RoomSessionProjection) (gate : RoomSessionProjectionGate) :
    (gate.Continues projection ∧ ∃ cursor, accept projection gate = .ok true { gate with
        cursor := some cursor
        awaitingReset := gate.awaitingReset && projection.kind ≠ .reset
        visibleSessionHorizon := some (projection.durableRevision,projection.durableRoot) }) ∨
    (¬ gate.Continues projection ∧ (accept projection gate = .ok false gate ∨
      ∃ message, accept projection gate = .error message { gate with awaitingReset := true })) := by
  unfold accept Continues
  split
  · rename_i hawaiting
    exact .inr ⟨fun h => hawaiting.2 (h.1 hawaiting.1),.inl rfl⟩
  · rename_i hawaiting
    split
    · rename_i hbehind
      exact .inr ⟨fun h => by omega,.inl rfl⟩
    · rename_i hbehind
      split
      · rename_i hroot
        exact .inr ⟨fun h => hroot.2 (h.2.2.1 hroot.1),.inr ⟨_,rfl⟩⟩
      · rename_i hroot
        push Not at hawaiting hroot
        cases hmove : cursorMove projection gate.cursor with
        | ignore => exact .inr ⟨fun h => by simp at h,.inl rfl⟩
        | refuse message => exact .inr ⟨fun h => by simp at h,.inr ⟨message,rfl⟩⟩
        | move cursor => exact .inl ⟨⟨hawaiting,by omega,hroot,cursor,rfl⟩,cursor,rfl⟩

/-- Of `canonical`: it shows a revision above the visible session projection, or leaves that
projection visible and goes no further than it. -/
theorem canonical_shows (revision : Nat) (root : Digest) (gate : RoomSessionProjectionGate) :
    (∃ after, canonical revision root gate = .ok true after ∧
      after.canonicalRevision = revision ∧ after.visibleSessionHorizon = none ∧
      (gate.canonicalInitialized = true → gate.canonicalRevision ≤ revision) ∧
      ∀ visible ∈ gate.visibleSessionHorizon, visible.1 < revision) ∨
    ∃ after, (canonical revision root gate = .ok false after ∨
        ∃ message, canonical revision root gate = .error message after) ∧
      after.visibleSessionHorizon = gate.visibleSessionHorizon ∧
      (after.canonicalRevision = gate.canonicalRevision ∨
        ∃ visible ∈ gate.visibleSessionHorizon, after.canonicalRevision ≤ visible.1) := by
  unfold canonical
  split
  · exact .inr ⟨gate,.inl rfl,rfl,.inl rfl⟩
  · rename_i hbehind
    split
    · exact .inr ⟨_,.inr ⟨_,rfl⟩,rfl,.inl rfl⟩
    · unfold canonicalVisible
      cases hvisible : gate.visibleSessionHorizon with
      | none => exact .inl ⟨_,rfl,rfl,rfl,fun hinit => by simp [hinit] at hbehind; omega,by simp⟩
      | some visible =>
        obtain ⟨sessionRevision,sessionRoot⟩ := visible
        simp only [Option.mem_def,Option.some.injEq,forall_eq',exists_eq_left']
        split
        · split
          · exact .inr ⟨_,.inr ⟨_,rfl⟩,rfl,.inr (by simp; omega)⟩
          · exact .inr ⟨_,.inl rfl,rfl,.inr (by simp; omega)⟩
        · split
          · exact .inr ⟨_,.inl rfl,rfl,.inr (by simp; omega)⟩
          · exact .inl ⟨_,rfl,rfl,rfl,fun hinit => by simp [hinit] at hbehind; omega,by omega⟩

/-- Where the window stands: at the visible session projection, or at the canonical revision. -/
structure GateRun.Shows (run : GateRun) : Prop where
  session : ∀ visible ∈ run.gate.visibleSessionHorizon,
    run.shown.getLast? = some visible.1 ∧ run.gate.canonicalRevision ≤ visible.1
  canonical : run.gate.visibleSessionHorizon = none →
    ∀ last ∈ run.shown.getLast?, last ≤ run.gate.canonicalRevision

theorem GateRun.shown_cons_none {run : GateRun} {event : GateEvent}
    {gate : RoomSessionProjectionGate} (h : event.shown? = none) :
    GateRun.shown ⟨gate,event :: run.events⟩ = run.shown := by
  simp [GateRun.shown,h]

theorem GateRun.shown_cons_some {run : GateRun} {event : GateEvent} {revision : Nat}
    {gate : RoomSessionProjectionGate} (h : event.shown? = some revision) :
    GateRun.shown ⟨gate,event :: run.events⟩ = run.shown ++ [revision] := by
  simp [GateRun.shown,h]

/-- A call that shows nothing leaves the visible projection, and the canonical horizon goes no
further than it. -/
theorem GateRun.Shows.unshown {run : GateRun} (h : run.Shows) {call : GateCall}
    (hshown : (run.step call).shown = run.shown)
    (hvisible : (run.step call).gate.visibleSessionHorizon = run.gate.visibleSessionHorizon)
    (hrevision : (run.step call).gate.canonicalRevision = run.gate.canonicalRevision ∨
      ∃ visible ∈ run.gate.visibleSessionHorizon,
        (run.step call).gate.canonicalRevision ≤ visible.1)
    (hfalls : ¬ call.FallsBehind run.gate) :
    (run.step call).Shows ∧
      (((run.step call).shown = run.shown ∧ ¬ call.FallsBehind run.gate) ∨
        ∃ revision, (run.step call).shown = run.shown ++ [revision] ∧
          ((∀ last ∈ run.shown.getLast?, last ≤ revision) ↔ ¬ call.FallsBehind run.gate)) := by
  refine ⟨⟨fun visible hsession => ?_,fun hsession => ?_⟩,.inl ⟨hshown,hfalls⟩⟩
  · rw [hvisible] at hsession
    rw [hshown]
    have hbefore := h.session visible hsession
    refine ⟨hbefore.1,?_⟩
    rcases hrevision with hrevision | ⟨other,hother,hrevision⟩
    · omega
    · obtain rfl := Option.mem_unique hother hsession
      exact hrevision
  · rw [hvisible] at hsession
    rw [hshown]
    rcases hrevision with hrevision | ⟨other,hother,-⟩
    · rw [hrevision]
      exact h.canonical hsession
    · simp [hsession] at hother

/-- A call shows nothing, or a revision that is behind the last one shown just where the call
falls behind. -/
theorem step_shows {run : GateRun} (h : run.Shows) (call : GateCall)
    (hunset : run.gate.canonicalInitialized = false → run.gate.canonicalRevision = 0) :
    (run.step call).Shows ∧
      (((run.step call).shown = run.shown ∧ ¬ call.FallsBehind run.gate) ∨
        ∃ revision, (run.step call).shown = run.shown ++ [revision] ∧
          ((∀ last ∈ run.shown.getLast?, last ≤ revision) ↔ ¬ call.FallsBehind run.gate)) := by
  cases call with
  | canonical revision root =>
    rcases canonical_shows revision root run.gate with
      ⟨after,hresult,hrevision,hnone,hahead,hvisible⟩ | ⟨after,hresult,hvisible,hrevision⟩
    · have hstep : run.step (.canonical revision root) =
          ⟨after,⟨.canonical revision root,.ok true⟩ :: run.events⟩ := by
        simp only [GateRun.step,GateCall.perform,hresult]
      have hshown : (run.step (.canonical revision root)).shown = run.shown ++ [revision] := by
        rw [hstep]
        exact GateRun.shown_cons_some rfl
      refine ⟨⟨?_,?_⟩,.inr ⟨revision,hshown,?_⟩⟩
      · simp [hstep,hnone]
      · rw [hshown]
        simp [hstep,hrevision]
      · simp only [GateCall.FallsBehind,not_false_eq_true,iff_true]
        intro last hlast
        cases hsession : run.gate.visibleSessionHorizon with
        | some visible =>
          have hbefore := h.session visible hsession
          have hbelow := hvisible visible hsession
          simp only [hbefore.1,Option.mem_def,Option.some.injEq] at hlast
          omega
        | none =>
          have hbefore := h.canonical hsession last hlast
          cases hinit : run.gate.canonicalInitialized with
          | true =>
            have := hahead hinit
            omega
          | false =>
            have := hunset hinit
            omega
    · have hafter : (run.step (.canonical revision root)).gate = after := by
        rcases hresult with hresult | ⟨message,hresult⟩ <;>
          simp only [GateRun.step,GateCall.perform,hresult]
      have hsame : (run.step (.canonical revision root)).shown = run.shown := by
        rcases hresult with hresult | ⟨message,hresult⟩ <;>
          simp only [GateRun.step,GateCall.perform,hresult] <;> exact GateRun.shown_cons_none rfl
      refine h.unshown hsame (by rw [hafter,hvisible]) ?_ not_false
      rw [hafter]
      exact hrevision
  | accept projection =>
    rcases accept_continues projection run.gate with
      ⟨hcontinues,cursor,hresult⟩ | ⟨hcontinues,hresult⟩
    · have hshown : (run.step (.accept projection)).shown =
          run.shown ++ [projection.durableRevision] := by
        simp only [GateRun.step,GateCall.perform,hresult]
        exact GateRun.shown_cons_some rfl
      refine ⟨⟨?_,?_⟩,.inr ⟨_,hshown,?_⟩⟩
      · rw [hshown]
        simp [GateRun.step,GateCall.perform,hresult,hcontinues.2.1]
      · simp [GateRun.step,GateCall.perform,hresult]
      · simp only [GateCall.FallsBehind,hcontinues,true_and]
        cases hsession : run.gate.visibleSessionHorizon with
        | some visible =>
          simp [(h.session visible hsession).1,Prod.ext_iff]
        | none =>
          simp only [reduceCtorEq,false_and,exists_false,not_false_eq_true,iff_true]
          intro last hlast
          exact (h.canonical hsession last hlast).trans hcontinues.2.1
    · refine h.unshown ?_ ?_ (.inl ?_) fun hfalls => hcontinues hfalls.1
      all_goals
        rcases hresult with hresult | ⟨message,hresult⟩ <;>
          simp only [GateRun.step,GateCall.perform,hresult]
      all_goals exact GateRun.shown_cons_none rfl

theorem gateRun_unset (calls : List GateCall)
    (h : (gateRun calls).gate.canonicalInitialized = false) :
    (gateRun calls).gate.canonicalRevision = 0 := by
  have hrun := gateRun_consistent calls
  have hhorizon := hrun.horizon
  rw [hrun.initialized,Option.isSome_eq_false_iff,Option.isNone_iff_eq_none] at h
  simp only [h,Option.getD_none,Prod.mk.injEq] at hhorizon
  exact hhorizon.1

theorem gateRun_append (calls : List GateCall) (call : GateCall) :
    gateRun (calls ++ [call]) = (gateRun calls).step call := by
  simp [gateRun]

theorem gateRun_shows (calls : List GateCall) : (gateRun calls).Shows := by
  induction calls using List.reverseRecOn with
  | nil => exact ⟨by simp [gateRun],by simp [gateRun,GateRun.shown]⟩
  | append_singleton calls call ih =>
    rw [gateRun_append]
    exact (step_shows ih call (gateRun_unset calls)).1

/-- What the window shows never goes back in durable time, unless a projection falls behind the
visible one. -/
theorem shown_never_goes_back_iff (calls : List GateCall) :
    (gateRun calls).shown.Pairwise (· ≤ ·) ↔
      ∀ before call, before ++ [call] <+: calls → ¬ call.FallsBehind (gateRun before).gate := by
  induction calls using List.reverseRecOn with
  | nil => simp [gateRun,GateRun.shown]
  | append_singleton calls call ih =>
    have hbegins : (∀ before other, before ++ [other] <+: calls ++ [call] →
          ¬ other.FallsBehind (gateRun before).gate) ↔
        (∀ before other, before ++ [other] <+: calls →
          ¬ other.FallsBehind (gateRun before).gate) ∧ ¬ call.FallsBehind (gateRun calls).gate := by
      refine ⟨fun h => ⟨fun before other hbefore => ?_,?_⟩,fun ⟨h,hlast⟩ before other hbefore => ?_⟩
      · exact h before other (hbefore.trans (List.prefix_append calls [call]))
      · exact h calls call (List.prefix_refl _)
      · rcases List.prefix_concat_iff.mp hbefore with hsame | hbefore
        · obtain ⟨rfl,rfl⟩ := List.concat_inj.mp (by simpa using hsame)
          exact hlast
        · exact h before other hbefore
    rw [hbegins,← ih,gateRun_append,← List.isChain_iff_pairwise,← List.isChain_iff_pairwise]
    rcases (step_shows (gateRun_shows calls) call (gateRun_unset calls)).2 with
      ⟨hshown,hfalls⟩ | ⟨revision,hshown,hfalls⟩
    · rw [hshown]
      exact (and_iff_left hfalls).symm
    · rw [hshown,List.isChain_append,← hfalls]
      simp

/-- The session's next projection, bound to an older durable revision. -/
def advanceBehind : RoomSessionProjection := ⟨10,1,1,1,1,5,7,.advanced,emptyView⟩
def openAhead : RoomSessionProjection := ⟨10,1,1,1,0,6,8,.reset,emptyView⟩

theorem shown_goes_back_advanceBehind :
    (gateRun [.canonical 4 7,.accept openAhead,.accept advanceBehind]).shown = [4,6,5] ∧
      ¬ (gateRun [.canonical 4 7,.accept openAhead,.accept advanceBehind]).shown.Pairwise
        (· ≤ ·) := by
  decide

end Shown

end WalkieSongie.Session
