import WalkieSongie.EditLevels
set_option autoImplicit false

/-!
A while in which nothing is added: the user's removals, once they are durable, have taken away all
that was shown when it began.
-/

namespace WalkieSongie.EditRoutes
open CausalDag Session Relation

variable {Id : Type} [DecidableEq Id]

def IsRemoval (command : MusicOp) : Prop := ∃ element : Element, command = element.remove

instance (command : MusicOp) : Decidable (IsRemoval command) :=
  decidable_of_iff ((removes command).isSome = true) <| by
    simp only [Option.isSome_iff_exists,removes_eq_some,IsRemoval]

theorem IsRemoval.ne_add {command : MusicOp} (h : IsRemoval command) (element : Element) :
    command ≠ element.add := by
  obtain ⟨removed,rfl⟩ := h
  cases removed <;> cases element <;> simp [Element.add,Element.remove]

theorem IsRemoval.isPitchEdit {command : MusicOp} (h : IsRemoval command) :
    isPitchEdit command = true := by
  obtain ⟨removed,rfl⟩ := h
  cases removed <;> rfl

def Input.isEdit : Input Id → Bool
  | .localEdit _ _ _ => true
  | .applyLive _ | .advanceDurable _ | .installSession | .ingestRemote _ _ _
  | .commitSession _ _ | .commit _ _ => false

namespace Placement

/-- Whoever takes the step, it brings in removals only; the user's own reach what is shown. -/
def Removing (placement : Placement Id) : Input Id → Prop
  | .applyLive entry => IsRemoval entry.payload
  | .ingestRemote _ payload _ => IsRemoval payload
  | .localEdit command _ isSaturated => IsRemoval command ∧
      (isSaturated = false → ∀ live ∈ placement.session, ∀ element ∈ removes command,
        placement.Reaches live element)
  | .advanceDurable _ | .installSession | .commitSession _ _ | .commit _ _ => True

instance (placement : Placement Id) : (input : Input Id) → Decidable (placement.Removing input)
  | .applyLive _ | .ingestRemote _ _ _ => inferInstanceAs (Decidable (IsRemoval _))
  | .localEdit _ _ _ => inferInstanceAs (Decidable (_ ∧ _))
  | .advanceDurable _ | .installSession | .commitSession _ _ | .commit _ _ => isTrue trivial

/-- The task shows all that is durable, and no addition is on its way. -/
structure Settled (placement : Placement Id) : Prop where
  sound : placement.Sound
  shown : placement.shown = placement.history
  events : ∀ event ∈ placement.events, placement.durable (.session event.dot) = none →
    IsRemoval event.payload
  edits : ∀ edit ∈ placement.edits, placement.durable edit.route = none → IsRemoval edit.payload

/-- The edit was made with all of the start in view, and its event reaches what was shown. -/
structure Covering (start placement : Placement Id) (edit : OwnEdit Id) : Prop where
  shown : start.shown.Grows edit.shown
  covered : ∀ element : Element, edit.payload = element.remove → ∀ event ∈ placement.events,
    edit.route = .session event.dot → placement.CoversShown edit event element

/-- What has come of a settled start in which these commands were given. -/
structure Clearing (start : Placement Id) (commands : List MusicOp) (placement : Placement Id) :
    Prop where
  sound : placement.Sound
  continues : Continues start placement
  only : ∀ entry ∈ placement.history.newestFirst,
    entry ∈ start.history.newestFirst ∨ IsRemoval entry.payload
  events : ∀ event ∈ placement.events, placement.durable (.session event.dot) = none →
    IsRemoval event.payload
  edits : ∀ edit ∈ placement.edits, placement.durable edit.route = none → IsRemoval edit.payload
  made : ∀ command ∈ commands, ∃ edit ∈ placement.edits, edit.payload = command ∧
    Covering start placement edit

section Steps

variable {start before after : Placement Id} {commands : List MusicOp}

theorem Settled.clearing (h : start.Settled) : Clearing start [] start where
  sound := h.sound
  continues := .refl start
  only _ hentry := .inl hentry
  events := h.events
  edits := h.edits
  made := by simp

theorem Clearing.carry (h : Clearing start commands before)
    (hstep : Continues before after ∧ after.Sound)
    (honly : ∀ entry ∈ after.history.newestFirst,
      entry ∈ before.history.newestFirst ∨ IsRemoval entry.payload)
    (hevents : ∀ event ∈ after.events, event ∈ before.events ∨ IsRemoval event.payload)
    (hedits : after.edits = before.edits) : Clearing start commands after := by
  obtain ⟨hc,hs⟩ := hstep
  refine ⟨hs,h.continues.trans hc,?_,?_,?_,?_⟩
  · intro entry hentry
    obtain hold | hnew := honly entry hentry
    · exact h.only entry hold
    · exact .inr hnew
  · intro event hevent hnone
    obtain hold | hnew := hevents event hevent
    · exact h.events event hold (not_not.mp fun hne => hc.durable_ne_none hne hnone)
    · exact hnew
  · intro edit hedit hnone
    rw [hedits] at hedit
    exact h.edits edit hedit (not_not.mp fun hne => hc.durable_ne_none hne hnone)
  · intro command hcommand
    obtain ⟨edit,hedit,hpayload,hcovering⟩ := h.made command hcommand
    refine ⟨edit,hedits ▸ hedit,hpayload,hcovering.shown,?_⟩
    intro element hremove event hevent hroute
    have hknown := h.sound.event_of_route hc hedit hevent hroute
    exact (hcovering.covered element hremove event hknown hroute).continues hc

theorem Clearing.remember (h : Clearing start commands before) {command : MusicOp} {route : Route}
    (hs : (before.remember command route).Sound) (hremoval : IsRemoval command)
    (hcovered : ∀ element : Element, command = element.remove → ∀ event ∈ before.events,
      route = .session event.dot →
        before.CoversShown ⟨command,route,before.shown⟩ event element) :
    Clearing start (commands ++ [command]) (before.remember command route) := by
  have hc : Continues before (before.remember command route) := continues_remember
  refine ⟨hs,h.continues.trans hc,h.only,h.events,?_,?_⟩
  · intro edit hedit hnone
    obtain hold | hnew := List.mem_append.mp hedit
    · exact h.edits edit hold hnone
    · obtain rfl := List.mem_singleton.mp hnew
      exact hremoval
  · intro given hgiven
    obtain hold | hnew := List.mem_append.mp hgiven
    · obtain ⟨edit,hedit,hpayload,hcovering⟩ := h.made given hold
      exact ⟨edit,List.mem_append_left _ hedit,hpayload,hcovering.shown,hcovering.covered⟩
    · obtain rfl := List.mem_singleton.mp hnew
      refine ⟨_,List.mem_append_right _ (List.mem_singleton.mpr rfl),rfl,h.continues.shown,?_⟩
      exact hcovered

theorem Clearing.localEdit (h : Clearing start commands before) {command : MusicOp}
    {dot : SessionDot} {isSaturated : Bool}
    (hremoving : before.Removing (.localEdit command dot isSaturated))
    (hstep : before.localEdit command dot isSaturated = some after) :
    Clearing start (commands ++ [command]) after := by
  obtain ⟨hremoval,hreaches⟩ := hremoving
  obtain ⟨hother,-⟩ | ⟨-,rfl⟩ | ⟨live,hlive,hroom,hfresh,rfl⟩ := localEdit_cases hstep
  · rw [hremoval.isPitchEdit] at hother
    cases hother
  · apply h.remember (h.sound.rememberFallback command) hremoval
    rintro - - - - ⟨⟩
  · have hingested : Clearing start commands (before.ingest live dot command live.readyCut) := by
      refine h.carry ⟨continues_ingest hfresh,?_⟩ (fun _ hentry => .inl hentry) ?_ rfl
      · exact h.sound.ingest hlive hfresh subset_rfl (h.sound.isCut_readyCut hlive)
      · intro event hevent
        obtain rfl | hold := List.mem_cons.mp hevent
        · exact .inr hremoval
        · exact .inl hold
    apply hingested.remember (h.sound.rememberSession hlive hfresh command) hremoval
    intro element hremove event hevent hroute
    obtain rfl | hold := List.mem_cons.mp hevent
    · have hreach := hreaches hroom live hlive element (removes_eq_some.mpr hremove)
      exact hreach
    · obtain rfl := Route.session.inj hroute
      exact absurd hfresh (mem_dots hold)

theorem Clearing.committed (h : Clearing start commands before) {route : Route}
    {entry : Entry Id MusicOp} (hs : after.Sound) (hc : Committed before after route entry)
    (hremoval : IsRemoval entry.payload) : Clearing start commands after := by
  refine h.carry ⟨hc.continues,hs⟩ ?_ ?_ hc.edits
  · intro other hother
    obtain rfl | hold := hc.extended.only other hother
    · exact .inr hremoval
    · exact .inl hold
  · intro event hevent
    exact .inl (hc.events ▸ hevent)

theorem Clearing.step (h : Clearing start commands before) {input : Input Id}
    (hother : input.isEdit = false) (hremoving : before.Removing input)
    (hstep : before.step input = some after) : Clearing start commands after := by
  have hsound := h.sound.step hstep
  cases input with
  | applyLive entry =>
    obtain ⟨history,hextend,rfl⟩ := Option.map_eq_some_iff.mp hstep
    refine h.carry hsound ?_ (fun _ hevent => .inl hevent) rfl
    intro other hother
    obtain rfl | hold := (DagSnapshot.Extended.of_extend hextend).only other hother
    · exact .inr hremoving
    · exact .inl hold
  | advanceDurable snapshot =>
    simp only [Placement.step,advanceDurable,Option.ite_none_right_eq_some] at hstep
    obtain ⟨-,⟨⟩⟩ := hstep
    exact h.carry hsound (fun _ hentry => .inl hentry) (fun _ hevent => .inl hevent) rfl
  | installSession =>
    simp only [Placement.step,installSession,Option.ite_none_left_eq_some] at hstep
    obtain ⟨-,⟨⟩⟩ := hstep
    exact h.carry hsound (fun _ hentry => .inl hentry) (fun _ hevent => .inl hevent) rfl
  | ingestRemote dot payload dependencies =>
    simp only [Placement.step,ingestRemote] at hstep
    split at hstep
    next => simp at hstep
    next live hlive =>
      simp only [Option.ite_none_right_eq_some] at hstep
      obtain ⟨-,⟨⟩⟩ := hstep
      refine h.carry hsound (fun _ hentry => .inl hentry) ?_ rfl
      intro event hevent
      obtain rfl | hold := List.mem_cons.mp hevent
      · exact .inr hremoving
      · exact .inl hold
  | localEdit command dot isSaturated => cases hother
  | commitSession dot hash =>
    obtain ⟨event,hevent,rfl,-,hc⟩ := commitSession_cases hstep
    exact h.committed hsound.2 hc (h.events event hevent hc.unadmitted)
  | commit serial hash =>
    obtain ⟨edit,hedit,hroute,hc⟩ := commit_cases hstep
    exact h.committed hsound.2 hc (h.edits edit hedit (hroute ▸ hc.unadmitted))

end Steps

section Cleared

variable {start placement : Placement Id} {commands : List MusicOp} {element : Element}

theorem Clearing.holds_start (h : Clearing start commands placement)
    (hholds : Holds placement.history element.add element.remove) :
    Holds start.history element.add element.remove := by
  obtain ⟨entry,hentry,hadd,hstays⟩ := hholds
  obtain hold | hremoval := h.only entry hentry
  · exact ⟨entry,hold,hadd,fun hremoved => hstays (hremoved.grows h.continues.history)⟩
  · exact absurd hadd (hremoval.ne_add element)

theorem Clearing.not_holds (h : Clearing start commands placement) (hstart : start.Settled)
    (hdurable : ∀ edit ∈ placement.edits, placement.durable edit.route ≠ none)
    (hcommand : element.remove ∈ commands) :
    ¬ Holds placement.history element.add element.remove := by
  rintro ⟨entry,hentry,hadd,hstays⟩
  obtain ⟨edit,hedit,hremove,hcovering⟩ := h.made _ hcommand
  obtain ⟨id,hid⟩ := Option.ne_none_iff_exists'.mp (hdurable edit hedit)
  have hshown : entry.hash ∈ edit.shown.hashes := by
    obtain hold | hremoval := h.only entry hentry
    · rw [← hstart.shown] at hold
      exact DagSnapshot.mem_hashes.mpr ⟨entry,hcovering.shown.mem hold,rfl⟩
    · exact absurd hadd (hremoval.ne_add element)
  exact hstays (h.sound.removed_of_shown hedit hremove (hcovering.covered element hremove) hid
    hentry hadd hshown)

end Cleared

end Placement

end WalkieSongie.EditRoutes
