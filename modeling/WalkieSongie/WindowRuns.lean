import WalkieSongie.SessionWindow
set_option autoImplicit false

/-!
What a task shows its window over a whole run: the projections its gate is handed, one for each
change of the session that is presented.
-/

namespace WalkieSongie.Session
open TaskProgram Relation

variable {L : SessionLibrary} {α : Type} {canonical : Nat × Digest} {world : World L}

/-- What the window has been handed so far, oldest first. -/
def Core.shown (core : Core L) : List RoomSessionProjection :=
  core.egress.reverse.filterMap RoomSessionEgress.projection?

theorem Core.shown_sends (note : List Opening) (event : RoomSessionEgress L) (core : Core L) :
    (core.sends note event).shown = core.shown ++ event.projection?.toList := by
  cases h : event.projection? <;> simp [Core.shown,Core.sends,Core.opens,h]

section Invariant

/-- The floor of every active session is known, at its epoch or above. -/
def Floored (core : Core L) : Prop :=
  ∀ (peer : ActorId) active, core.task.active[peer]? = some active →
    ∃ floor, core.task.renewalFloors[peer]? = some (some floor) ∧
      active.manifest.epoch ≤ floor.epoch

/-- The window stands where the presented session does. -/
structure InStep (canonical : Nat × Digest) (core : Core L) : Prop where
  taken : Taken canonical core.shown
  cursor : core.shown.getLast?.map RoomSessionProjection.cursor =
    core.task.selected.map fun selected => selected.2.cursor
  stands : ∀ peer active, core.task.selected = some (peer,active) → Stands canonical active
  floored : Floored core

/-- The presented session is one projection ahead of the window, and this is the projection. -/
structure Due (canonical : Nat × Digest) (projection : RoomSessionProjection) (core : Core L) :
    Prop where
  taken : Taken canonical core.shown
  begun : core.shown ≠ []
  continues : projection.Continues (core.shown.getLast?.map RoomSessionProjection.cursor)
  shows : ∃ peer active kind, core.task.selected = some (peer,active) ∧
    projection = active.projectionEvent kind ∧ Stands canonical active
  floored : Floored core

/-- Nothing of what the window sees has changed. -/
structure Unseen (before after : Core L) : Prop where
  active : after.task.active = before.task.active
  presentation : after.task.presentationPeer = before.task.presentationPeer
  shown : after.shown = before.shown
  floors : ∀ (peer : ActorId) floor, before.task.renewalFloors[peer]? = some floor →
    after.task.renewalFloors[peer]? = some floor

theorem Unseen.refl (core : Core L) : Unseen core core := ⟨rfl,rfl,rfl,fun _ _ h => h⟩

theorem Unseen.trans {first second third : Core L} (h : Unseen first second)
    (h' : Unseen second third) : Unseen first third where
  active := h'.active.trans h.active
  presentation := h'.presentation.trans h.presentation
  shown := h'.shown.trans h.shown
  floors peer floor hfloor := h'.floors peer floor (h.floors peer floor hfloor)

theorem Unseen.selected {before after : Core L} (h : Unseen before after) :
    after.task.selected = before.task.selected := by
  rw [RoomSessionTask.selected,RoomSessionTask.selected,h.active,h.presentation]

theorem Unseen.floored {before after : Core L} (h : Unseen before after)
    (hfloored : Floored before) : Floored after := by
  intro peer active hactive
  rw [h.active] at hactive
  obtain ⟨floor,hfloor,hle⟩ := hfloored peer active hactive
  exact ⟨floor,h.floors peer _ hfloor,hle⟩

theorem InStep.unseen {before after : Core L} (h : InStep canonical before)
    (hunseen : Unseen before after) : InStep canonical after where
  taken := hunseen.shown ▸ h.taken
  cursor := by
    rw [hunseen.shown,hunseen.selected]
    exact h.cursor
  stands := by
    rw [hunseen.selected]
    exact h.stands
  floored := hunseen.floored h.floored

theorem Due.unseen {projection : RoomSessionProjection} {before after : Core L}
    (h : Due canonical projection before) (hunseen : Unseen before after) :
    Due canonical projection after where
  taken := hunseen.shown ▸ h.taken
  begun := hunseen.shown ▸ h.begun
  continues := hunseen.shown ▸ h.continues
  shows := hunseen.selected ▸ h.shows
  floored := hunseen.floored h.floored

theorem Due.ahead {projection : RoomSessionProjection} {core : Core L}
    (h : Due canonical projection core) :
    AtOrAhead canonical projection.durableRevision projection.durableRoot := by
  obtain ⟨peer,active,kind,-,rfl,hstands⟩ := h.shows
  exact hstands.horizon

theorem Due.taken_concat {projection : RoomSessionProjection} {core : Core L}
    (h : Due canonical projection core) : Taken canonical (core.shown ++ [projection]) :=
  h.taken.concat h.continues h.ahead fun hnone => absurd hnone h.begun

theorem Due.sends {projection : RoomSessionProjection} {core : Core L}
    (h : Due canonical projection core) (note : List Opening) {event : RoomSessionRealtimeEgress L}
    (hevent : event.projection = projection) :
    InStep canonical (core.sends note (.realtime event)) := by
  have hshown : (core.sends note (.realtime event)).shown = core.shown ++ [projection] := by
    rw [Core.shown_sends,← hevent]
    rfl
  obtain ⟨peer,active,kind,hselected,hprojection,hstands⟩ := h.shows
  have hsame : (core.sends note (.realtime event)).task.selected = some (peer,active) := hselected
  constructor
  · rw [hshown]
    exact h.taken_concat
  · simp [hshown,hsame,hprojection]
  · intro other found hfound
    cases hsame.symm.trans hfound
    exact hstands
  · exact h.floored

section Serving

variable {core : Core L} {peer : ActorId} {before after : ActiveSession L}

theorem getElem?_serves (peer other : ActorId) (after : ActiveSession L) (core : Core L) :
    (core.serves peer after).task.active[other]? =
      if peer = other then some after else core.task.active[other]? := by
  simp only [Core.serves,Core.mapTask,Std.ExtTreeMap.getElem?_insert,
    Std.LawfulEqCmp.compare_eq_iff_eq]

theorem selected_serves_other (after : ActiveSession L)
    (h : core.task.presentationPeer ≠ some peer) :
    (core.serves peer after).task.selected = core.task.selected := by
  unfold RoomSessionTask.selected
  have hpresentation : (core.serves peer after).task.presentationPeer =
    core.task.presentationPeer := rfl
  rw [hpresentation]
  cases hpeer : core.task.presentationPeer with
  | none => rfl
  | some other =>
    have hother : peer ≠ other := by
      rintro rfl
      exact h hpeer
    simp [getElem?_serves,hother]

theorem selected_serves_presented (after : ActiveSession L)
    (h : core.task.presentationPeer = some peer) :
    (core.serves peer after).task.selected = some (peer,after) := by
  have hpresentation : (core.serves peer after).task.presentationPeer = some peer := h
  simp [RoomSessionTask.selected,hpresentation,getElem?_serves]

theorem selected_eq_some {task : RoomSessionTask L} {active : ActiveSession L} :
    task.selected = some (peer,active) ↔
      task.presentationPeer = some peer ∧ task.active[peer]? = some active := by
  unfold RoomSessionTask.selected
  constructor
  · intro h
    obtain ⟨other,hother,h⟩ := Option.bind_eq_some_iff.mp h
    obtain ⟨found,hfound,h⟩ := Option.map_eq_some_iff.mp h
    cases h
    exact ⟨hother,hfound⟩
  · rintro ⟨hpresentation,hactive⟩
    simp [hpresentation,hactive]

theorem Floored.serves (h : Floored core) (hactive : core.task.active[peer]? = some before)
    (hkeeps : KeepsSession before after) : Floored (core.serves peer after) := by
  intro other found hfound
  rw [getElem?_serves] at hfound
  by_cases hpeer : peer = other
  · subst hpeer
    rw [if_pos rfl,Option.some.injEq] at hfound
    subst hfound
    rw [hkeeps.manifest]
    exact h peer before hactive
  · rw [if_neg hpeer] at hfound
    exact h other found hfound

theorem InStep.serves_other (h : InStep canonical core)
    (hother : core.task.presentationPeer ≠ some peer)
    (hactive : core.task.active[peer]? = some before) (hkeeps : KeepsSession before after) :
    InStep canonical (core.serves peer after) where
  taken := h.taken
  cursor := by
    rw [selected_serves_other _ hother]
    exact h.cursor
  stands := by
    rw [selected_serves_other _ hother]
    exact h.stands
  floored := h.floored.serves hactive hkeeps

theorem Due.serves_other {projection : RoomSessionProjection} (h : Due canonical projection core)
    (hother : core.task.presentationPeer ≠ some peer)
    (hactive : core.task.active[peer]? = some before) (hkeeps : KeepsSession before after) :
    Due canonical projection (core.serves peer after) where
  taken := h.taken
  begun := h.begun
  continues := h.continues
  shows := by
    rw [selected_serves_other _ hother]
    exact h.shows
  floored := h.floored.serves hactive hkeeps

theorem InStep.serves_unmoved (h : InStep canonical core)
    (hactive : core.task.active[peer]? = some before) (hunmoved : Unmoved before after) :
    InStep canonical (core.serves peer after) := by
  by_cases hpresented : core.task.presentationPeer = some peer
  · have hselected := selected_eq_some.mpr ⟨hpresented,hactive⟩
    have hafter := selected_serves_presented after hpresented
    refine ⟨h.taken,?_,fun other found hfound => ?_,h.floored.serves hactive hunmoved.keeps⟩
    · have hcursor := h.cursor
      rw [hselected] at hcursor
      rw [hafter,Option.map_some,hunmoved.cursor]
      exact hcursor
    · cases hafter.symm.trans hfound
      exact (h.stands peer before hselected).unmoved hunmoved
  · exact h.serves_other hpresented hactive hunmoved.keeps

theorem InStep.serves_publishes {kind : RoomSessionProjectionKind} (h : InStep canonical core)
    (hselected : core.task.selected = some (peer,before))
    (hpublishes : Publishes canonical kind before after) :
    Due canonical (after.projectionEvent kind) (core.serves peer after) := by
  obtain ⟨hpresented,hactive⟩ := selected_eq_some.mp hselected
  have hcursor := h.cursor
  rw [hselected] at hcursor
  have hlast : (core.serves peer after).shown.getLast?.map RoomSessionProjection.cursor =
    some before.cursor := hcursor
  refine ⟨h.taken,fun hnone => ?_,?_,
    ⟨peer,after,kind,selected_serves_presented _ hpresented,rfl,hpublishes.stands⟩,
    h.floored.serves hactive hpublishes.keeps⟩
  · rw [hnone] at hlast
    cases hlast
  · rw [hlast]
    exact hpublishes.continues

end Serving

end Invariant

section Quietly

theorem unseen_of_many {before after : Core L} (h : ReflTransGen Unseen before after) :
    Unseen before after := by
  induction h with
  | refl => exact .refl before
  | tail _ hlast ih => exact ih.trans hlast

/-- Where a step ends by an error, the window is in step with the task or the task is over. -/
def Halts (canonical : Nat × Digest) (stop : Stop) (core : Core L) : Prop :=
  Taken canonical core.shown ∧
    (stop ≠ .crash → core.task.events ≠ none → InStep canonical core)

theorem InStep.halts {core : Core L} (h : InStep canonical core) (stop : Stop) :
    Halts canonical stop core :=
  ⟨h.taken,fun _ _ => h⟩

theorem Runs.inStep {program : TaskM L α} (hruns : Runs Unseen program world)
    (h : InStep canonical world.core) :
    Ends (fun _ => InStep canonical) (Halts canonical) (program world) :=
  Ends.mono hruns (fun _ _ hmany => h.unseen (unseen_of_many hmany))
    fun stop _ hmany => (h.unseen (unseen_of_many hmany)).halts stop

theorem Unseen.sends {core : Core L} {event : RoomSessionEgress L}
    (h : event.projection? = none) : Unseen core (core.sends [] event) :=
  ⟨rfl,rfl,by simp [Core.shown_sends,h],fun _ _ h => h⟩

theorem Renews.unseen {F : RoomSessionFoundation L → Prop} {before after : Core L}
    (h : Renews F before after) : Unseen before after := by
  cases h with
  | @recovered foundation floor hfoundation habsent hload =>
    refine ⟨rfl,rfl,rfl,fun peer known hknown => ?_⟩
    have hother : foundation.peer ≠ peer := by
      rintro rfl
      cases habsent.symm.trans hknown
    simp only [Core.cachesFloor,Core.mapTask,Std.ExtTreeMap.getElem?_insert,
      Std.LawfulEqCmp.compare_eq_iff_eq,hother,if_false]
    exact hknown
  | proposed => exact ⟨rfl,rfl,rfl,fun _ _ h => h⟩
  | offered hpending => exact .sends rfl
  | traced trace => exact .sends rfl
  | noted => exact ⟨rfl,rfl,rfl,fun _ _ h => h⟩

theorem Runs.unseen {F : RoomSessionFoundation L → Prop} {program : TaskM L α}
    (h : Runs (Renews F) program world) : Runs Unseen program world :=
  Ends.mono h (fun _ _ hmany => ReflTransGen.mono (fun _ _ => Renews.unseen) _ _ hmany)
    fun _ _ hmany => ReflTransGen.mono (fun _ _ => Renews.unseen) _ _ hmany

theorem renewable_any (core : Core L) : Renewable (fun _ => True) core :=
  ⟨fun _ _ _ => trivial,fun _ _ _ _ => trivial⟩

theorem startReadyRenewals_unseen : Runs Unseen (startReadyRenewals (L := L)) world :=
  Runs.unseen (startReadyRenewals_renews (renewable_any world.core))

theorem beginSession_unseen (foundation : RoomSessionFoundation L) :
    Runs Unseen (beginSession foundation) world :=
  Runs.unseen (F := fun _ => True) (beginSession_runs trivial)

theorem Unseen.of_task {before : Core L} {f : RoomSessionTask L → RoomSessionTask L}
    (hactive : (f before.task).active = before.task.active)
    (hpresentation : (f before.task).presentationPeer = before.task.presentationPeer)
    (hfloors : (f before.task).renewalFloors = before.task.renewalFloors) :
    Unseen before (before.mapTask f) :=
  ⟨hactive,hpresentation,rfl,fun _ _ h => hfloors.symm ▸ h⟩

theorem startPeer_unseen (foundation : RoomSessionFoundation L) :
    Runs Unseen (startPeer foundation) world := by
  refine Runs.bind (Runs.modifyTask (.of_task rfl rfl rfl)) fun _ after _ => Runs.getTask ?_
  cases hpending : after.core.task.pending[foundation.peer]? with
  | some pending =>
    refine Runs.branch (fun _ => Runs.emit (.sends rfl)) fun _ => ?_
    refine Runs.bind (Runs.modifyTask (.of_task rfl rfl rfl)) fun _ _ _ => ?_
    exact beginSession_unseen foundation
  | none =>
    refine Runs.branch (fun _ => Runs.pure ()) fun _ => ?_
    exact Runs.unseen (F := fun _ => True) (startUnlessWaiting_runs trivial)

theorem rejectIntent_unseen (intentToken : PerformanceIntentToken) (reason : String) :
    Runs Unseen (rejectIntent (L := L) intentToken reason) world :=
  Runs.emit (.sends rfl)

theorem sendReification_unseen (reification : RoomSessionReification L) :
    Runs Unseen (sendReification reification) world := by
  have hqueued : Unseen world.core (world.core.queues reification) := ⟨rfl,rfl,rfl,fun _ _ h => h⟩
  refine Runs.bind (Ends.effect (fun _ => .single hqueued) (fun _ => .refl) (.single hqueued)
    fun h => absurd h (by decide)) fun _ _ _ => Runs.pure ()

theorem addInflight_unseen (session : RoomSessionEpochIdentity) (plan : L.ReificationPlan) :
    Runs Unseen (addInflight session plan) world :=
  Runs.modifyTask (.of_task rfl rfl rfl)

theorem dropInflight_unseen (session : RoomSessionEpochIdentity) (plan : L.ReificationPlan) :
    Runs Unseen (dropInflight session plan) world :=
  Runs.modifyTask (.of_task rfl rfl rfl)

theorem enqueueReification_unseen (peer : ActorId) (session : RoomSessionEpochIdentity)
    (ready : ReadyReification L) : Runs Unseen (enqueueReification peer session ready) world := by
  obtain ⟨plan,command,intentToken⟩ := ready
  refine Runs.bind (addInflight_unseen session plan) fun _ _ _ => ?_
  refine Runs.bind (Runs.attempt (sendReification_unseen _)) fun sent _ _ => ?_
  cases sent with
  | ok _ => exact Runs.pure ()
  | error _ => exact Runs.bind (dropInflight_unseen session plan) fun _ _ _ => Runs.fail _

theorem enqueueReifications_unseen (peer : ActorId) (ready : List (ReadyReification L)) :
    Runs Unseen (enqueueReifications peer ready) world := by
  refine Runs.getTask ?_
  cases world.core.task.active[peer]? with
  | none => exact Runs.fail _
  | some active => exact Runs.forM fun item _ _ _ => enqueueReification_unseen peer _ item

end Quietly

section Showing

theorem Ends.failing {core : Core L} {stop : Stop} {shown : List RoomSessionProjection}
    (h : Taken canonical shown) (hshown : core.shown = shown)
    (hevents : core.task.events = none) : Halts canonical stop core :=
  ⟨hshown ▸ h,fun _ hlive => absurd hevents hlive⟩

theorem failSessionGeneration_halts {Q : α → Core L → Prop} (reason : String)
    (h : Taken canonical world.core.shown) :
    Ends Q (Halts canonical) (failSessionGeneration reason world) := by
  refine Ends.bind (R := fun _ core => core.shown = world.core.shown ∧ core.task.events = none)
    (Ends.modifyCore ⟨rfl,rfl⟩) fun _ after ⟨hshown,hevents⟩ => Ends.fail ?_
  exact Ends.failing h hshown hevents

theorem Ends.attempting {program : TaskM L α} {Q : α → Core L → Prop} {E : Stop → Core L → Prop}
    (h : Ends Q E (program world)) :
    Ends (Caught Q E) (fun stop core => stop = .crash ∧ E stop core)
      (Session.attempt program world) := by
  unfold Session.attempt
  cases hrun : program world with
  | ok value after =>
    rw [hrun] at h
    exact h
  | error stop after =>
    rw [hrun] at h
    cases stop with
    | failed message => exact h
    | crash => exact ⟨rfl,h⟩

theorem Taken.crash {core : Core L} (h : Taken canonical core.shown) :
    Halts canonical .crash core :=
  ⟨h,fun hcrash => absurd rfl hcrash⟩

theorem Due.emitRealtime {projection : RoomSessionProjection}
    (h : Due canonical projection world.core) {event : RoomSessionRealtimeEgress L}
    (hevent : event.projection = projection) :
    Ends (fun _ => InStep canonical) (Halts canonical)
      (emitRealtimeOrFailGeneration event world) := by
  have hsends := h.sends [] hevent
  have hemitted : Ends (fun _ => InStep canonical) (fun _ core => Taken canonical core.shown)
      (Session.emit (.realtime event) world) :=
    Ends.emit hsends (fun _ => h.taken) hsends.taken
  refine Ends.bind (Ends.mono (Ends.attempting hemitted) (fun _ _ h => h) ?_)
    fun first after hafter => ?_
  · rintro stop core ⟨rfl,hcore⟩
    exact Taken.crash hcore
  cases first with
  | ok _ => exact Ends.pure hafter
  | error message => exact failSessionGeneration_halts _ hafter

theorem Due.emit {projection : RoomSessionProjection} (h : Due canonical projection world.core)
    (hopen : ∀ message, (world.answers.headD {}).reply ≠ .refused message) :
    Ends (fun _ => InStep canonical) (Halts canonical)
      (emit (.realtime { projection := projection }) world) := by
  have hsends : InStep canonical (world.core.sends [] (.realtime { projection := projection })) :=
    h.sends [] rfl
  refine Ends.getTask <| Ends.refuseIf (fun hevents => Ends.failing h.taken rfl hevents) fun _ => ?_
  refine Ends.bind (R := fun _ => InStep canonical) ?_ fun _ _ h => Ends.pure h
  unfold Session.effect
  cases hreply : (world.answers.headD {}).reply with
  | accepted =>
    simp only [hreply]
    exact hsends
  | refused message => exact absurd hreply (hopen message)
  | crash =>
    simp only [hreply]
    refine Taken.crash ?_
    split
    · exact hsends.taken
    · exact h.taken

end Showing

section Each

/-- One session is served; everything else stays as it is. -/
theorem onActive_of_ok {peer : ActorId} {missing : String} {program : ActiveM L α}
    {active after : ActiveSession L} {value : α}
    (hactive : world.core.task.active[peer]? = some active)
    (hrun : program active = .ok value after) :
    onActive peer missing program world =
      .ok value ⟨world.core.serves peer after,world.answers⟩ :=
  onActive_ok missing hactive hrun

theorem onActive_of_error {peer : ActorId} {missing message : String} {program : ActiveM L α}
    {active after : ActiveSession L} (hactive : world.core.task.active[peer]? = some active)
    (hrun : program active = .error message after) :
    onActive peer missing program world =
      .error (.failed message) ⟨world.core.serves peer after,world.answers⟩ :=
  onActive_failed missing hactive hrun

theorem onActive_missing {peer : ActorId} {missing : String} {program : ActiveM L α}
    (hactive : world.core.task.active[peer]? = none) :
    onActive peer missing program world = .error (.failed missing) world := by
  simp only [onActive,getTask_bind,hactive]
  rfl

/-- The program succeeds on the session of each of these peers. -/
def RunsAll (program : ActiveM L α) (core : Core L) (peers : List ActorId) : Prop :=
  ∀ peer ∈ peers, ∃ active value after,
    core.task.active[peer]? = some active ∧ program active = .ok value after

theorem runsAll_cons {program : ActiveM L α} {core : Core L} {peer : ActorId}
    {rest : List ActorId} : RunsAll program core (peer :: rest) ↔
      (∃ active value after, core.task.active[peer]? = some active ∧
        program active = .ok value after) ∧ RunsAll program core rest := by
  simp [RunsAll]

theorem runsAll_serves {program : ActiveM L α} {core : Core L} {peer : ActorId}
    {after : ActiveSession L} {peers : List ActorId} (h : peer ∉ peers) :
    RunsAll program (core.serves peer after) peers ↔ RunsAll program core peers := by
  have hsame : ∀ other ∈ peers, (core.serves peer after).task.active[other]? =
      core.task.active[other]? := by
    intro other hother
    have hpeer : peer ≠ other := by
      rintro rfl
      exact h hother
    rw [getElem?_serves,if_neg hpeer]
  constructor
  · intro hall other hother
    obtain ⟨active,hrest⟩ := hall other hother
    rw [hsame other hother] at hrest
    exact ⟨active,hrest⟩
  · intro hall other hother
    obtain ⟨active,hrest⟩ := hall other hother
    rw [← hsame other hother] at hrest
    exact ⟨active,hrest⟩

theorem selectChanged_other (world : World L) {peer : ActorId} {active : ActiveSession L}
    (hactive : world.core.task.active[peer]? = some active)
    (hother : world.core.task.presentationPeer ≠ some peer)
    (changed : Option RoomSessionProjectionKind) :
    selectChanged peer changed world = .ok [] world := by
  cases changed with
  | none => rfl
  | some kind =>
    simp only [selectChanged,selectProjection,getTask_bind,hactive,hother,if_false]
    rfl

theorem selectProjection_presented (world : World L) {peer : ActorId} {active : ActiveSession L}
    (h : world.core.task.selected = some (peer,active)) (kind : RoomSessionProjectionKind) :
    selectProjection peer kind world = .ok [active.projectionEvent kind] world := by
  obtain ⟨hpresented,hactive⟩ := selected_eq_some.mp h
  simp only [selectProjection,getTask_bind,hactive,hpresented,if_true]
  rfl

theorem not_runsAll_of_error {program : ActiveM L α} {core : Core L} {peer : ActorId}
    {rest : List ActorId} {active after : ActiveSession L} {message : String}
    (hactive : core.task.active[peer]? = some active)
    (hrun : program active = .error message after) : ¬ RunsAll program core (peer :: rest) := by
  intro hall
  obtain ⟨found,value,last,hfound,hok⟩ := hall peer List.mem_cons_self
  cases hactive.symm.trans hfound
  rw [hrun] at hok
  cases hok

theorem not_runsAll_of_missing {program : ActiveM L α} {core : Core L} {peer : ActorId}
    {rest : List ActorId} (hactive : core.task.active[peer]? = none) :
    ¬ RunsAll program core (peer :: rest) := by
  intro hall
  obtain ⟨found,-,-,hfound,-⟩ := hall peer List.mem_cons_self
  cases hactive.symm.trans hfound

/-- Programs on sessions that are not presented keep what holds whatever those do. -/
theorem eachSession_others (world : World L) {I : Core L → Prop}
    {program : ActiveM L (Option RoomSessionProjectionKind)}
    (hserves : ∀ core peer before after, I core → core.task.presentationPeer ≠ some peer →
      core.task.active[peer]? = some before → KeepsSession before after →
        I (core.serves peer after))
    (hkeeps : Keeps program) {peers : List ActorId} (hnodup : peers.Nodup)
    (hothers : ∀ peer ∈ peers, world.core.task.presentationPeer ≠ some peer) (h : I world.core) :
    Post (fun projections after => projections = [] ∧ I after.core ∧
        after.answers = world.answers ∧ RunsAll program world.core peers)
      (fun _ after => I after.core ∧ ¬ RunsAll program world.core peers)
      (eachSession program peers world) := by
  induction peers generalizing world with
  | nil => exact ⟨rfl,h,rfl,by simp [RunsAll]⟩
  | cons peer rest ih =>
    obtain ⟨hpeer,hrest⟩ := List.nodup_cons.mp hnodup
    have hother := hothers peer List.mem_cons_self
    simp only [eachSession]
    cases hactive : world.core.task.active[peer]? with
    | none =>
      rw [bind_of_error (onActive_missing hactive)]
      exact ⟨h,not_runsAll_of_missing hactive⟩
    | some active =>
      have hkept := hkeeps active
      cases hrun : program active with
      | error message after =>
        rw [hrun] at hkept
        rw [bind_of_error (onActive_of_error hactive hrun)]
        exact ⟨hserves _ peer active after h hother hactive hkept,not_runsAll_of_error hactive hrun⟩
      | ok changed after =>
        rw [hrun] at hkept
        rw [bind_of_ok (onActive_of_ok hactive hrun)]
        have hserved := hserves _ peer active after h hother hactive hkept
        have hmine : (world.core.serves peer after).task.active[peer]? = some after := by
          rw [getElem?_serves,if_pos rfl]
        rw [bind_of_ok (selectChanged_other
          ⟨world.core.serves peer after,world.answers⟩ hmine hother changed)]
        have hfollow := ih ⟨world.core.serves peer after,world.answers⟩ hrest
          (fun other hmem => hothers other (List.mem_cons_of_mem peer hmem)) hserved
        refine Post.bind (Post.mono hfollow (fun _ _ h => h) fun _ _ hlast => ⟨hlast.1,?_⟩)
          fun projections last hlast => ?_
        · intro hall
          exact hlast.2 ((runsAll_serves hpeer).mpr (runsAll_cons.mp hall).2)
        · obtain ⟨rfl,hlast,hanswers,hall⟩ := hlast
          exact ⟨rfl,hlast,hanswers,runsAll_cons.mpr
            ⟨⟨active,changed,after,hactive,hrun⟩,(runsAll_serves hpeer).mp hall⟩⟩

/-- Once the presented session is ahead of the window, none of the others fails. -/
def NoneFailsAfter (program : ActiveM L (Option RoomSessionProjectionKind)) (core : Core L)
    (peers : List ActorId) : Prop :=
  ∀ front peer rest active kind moved, peers = front ++ peer :: rest →
    core.task.selected = some (peer,active) → RunsAll program core front →
      program active = .ok (some kind) moved → RunsAll program core rest

/-- The program changes what the presented session shows. -/
def ShowsChange (program : ActiveM L (Option RoomSessionProjectionKind)) (core : Core L) : Prop :=
  ∃ peer active kind moved, core.task.selected = some (peer,active) ∧
    program active = .ok (some kind) moved

theorem NoneFailsAfter.serves {program : ActiveM L (Option RoomSessionProjectionKind)}
    {core : Core L} {peer : ActorId} {rest : List ActorId} {active after : ActiveSession L}
    {changed : Option RoomSessionProjectionKind} (h : NoneFailsAfter program core (peer :: rest))
    (hpeer : peer ∉ rest) (hother : core.task.presentationPeer ≠ some peer)
    (hactive : core.task.active[peer]? = some active)
    (hrun : program active = .ok changed after) :
    NoneFailsAfter program (core.serves peer after) rest := by
  intro front other last found kind moved hsplit hselected hfront hmoved
  rw [selected_serves_other _ hother] at hselected
  rw [hsplit] at hpeer
  have hmem : peer ∉ front ∧ peer ∉ last := by
    simp only [List.mem_append,List.mem_cons,not_or] at hpeer
    exact ⟨hpeer.1,hpeer.2.2⟩
  rw [runsAll_serves hmem.1] at hfront
  rw [runsAll_serves hmem.2]
  refine h (peer :: front) other last found kind moved (by rw [hsplit]; rfl) hselected ?_ hmoved
  exact runsAll_cons.mpr ⟨⟨active,changed,after,hactive,hrun⟩,hfront⟩

/-- The presented session comes first; those after it show nothing. -/
theorem eachSession_presented (world : World L) {peer : ActorId} {active : ActiveSession L}
    {program : ActiveM L (Option RoomSessionProjectionKind)}
    (hselected : world.core.task.selected = some (peer,active))
    (hmoves : Post (fun kind after => TakesOver canonical kind active after)
      (fun _ => Unmoved active) (program active))
    (hkeeps : Keeps program) {rest : List ActorId} (hnodup : (peer :: rest).Nodup)
    (h : InStep canonical world.core) (hfits : NoneFailsAfter program world.core (peer :: rest)) :
    Post (fun projections after => after.answers = world.answers ∧
        RunsAll program world.core (peer :: rest) ∧
        ((projections = [] ∧ InStep canonical after.core) ∨
          ∃ projection, projections = [projection] ∧ Due canonical projection after.core ∧
            ShowsChange program world.core))
      (fun _ after => InStep canonical after.core) (eachSession program (peer :: rest) world) := by
  obtain ⟨hpeer,hrest⟩ := List.nodup_cons.mp hnodup
  obtain ⟨hpresented,hactive⟩ := selected_eq_some.mp hselected
  have hothers : ∀ other ∈ rest, world.core.task.presentationPeer ≠ some other := by
    intro other hmem hother
    cases hpresented.symm.trans hother
    exact hpeer hmem
  simp only [eachSession]
  cases hrun : program active with
  | error message after =>
    rw [hrun] at hmoves
    rw [bind_of_error (onActive_of_error hactive hrun)]
    exact h.serves_unmoved hactive hmoves
  | ok changed after =>
    rw [hrun] at hmoves
    rw [bind_of_ok (onActive_of_ok hactive hrun)]
    have hafter := selected_serves_presented after hpresented
    have hall : RunsAll program (world.core.serves peer after) rest →
        RunsAll program world.core (peer :: rest) := by
      intro hrestAll
      exact runsAll_cons.mpr ⟨⟨active,changed,after,hactive,hrun⟩,
        (runsAll_serves hpeer).mp hrestAll⟩
    cases changed with
    | none =>
      have hstill := h.serves_unmoved hactive (hmoves.unmoved rfl)
      simp only [selectChanged,pure_bind]
      refine Post.bind (Post.mono (eachSession_others
        ⟨world.core.serves peer after,world.answers⟩
        (fun _ _ _ _ h hother hactive hkeeps => h.serves_other hother hactive hkeeps)
        hkeeps hrest hothers hstill) (fun _ _ h => h) fun _ _ h => h.1) fun _ last hlast => ?_
      obtain ⟨rfl,hlast,hanswers,hrestAll⟩ := hlast
      exact ⟨hanswers,hall hrestAll,.inl ⟨rfl,hlast⟩⟩
    | some kind =>
      have hdue := h.serves_publishes hselected (hmoves.publishes kind rfl)
      have hrestAll : RunsAll program (world.core.serves peer after) rest := by
        rw [runsAll_serves hpeer]
        exact hfits [] peer rest active kind after rfl hselected (by simp [RunsAll]) hrun
      simp only [selectChanged]
      rw [bind_of_ok (selectProjection_presented
        ⟨world.core.serves peer after,world.answers⟩ hafter kind)]
      refine Post.bind (Post.mono (eachSession_others
        ⟨world.core.serves peer after,world.answers⟩
        (fun _ _ _ _ h hother hactive hkeeps => Due.serves_other h hother hactive hkeeps)
        hkeeps hrest hothers hdue) (fun _ _ h => h) fun _ _ h => absurd hrestAll h.2)
        fun _ last hlast => ?_
      obtain ⟨rfl,hlast,hanswers,-⟩ := hlast
      exact ⟨hanswers,hall hrestAll,.inr ⟨_,rfl,hlast,peer,active,kind,after,hselected,hrun⟩⟩

theorem eachSession_inStep (world : World L)
    {program : ActiveM L (Option RoomSessionProjectionKind)}
    (hprogram : ∀ peer active, world.core.task.selected = some (peer,active) →
      Post (fun kind after => TakesOver canonical kind active after) (fun _ => Unmoved active)
        (program active))
    (hkeeps : Keeps program) {peers : List ActorId} (hnodup : peers.Nodup)
    (h : InStep canonical world.core) (hfits : NoneFailsAfter program world.core peers) :
    Post (fun projections after => after.answers = world.answers ∧
        RunsAll program world.core peers ∧
        ((projections = [] ∧ InStep canonical after.core) ∨
          ∃ projection, projections = [projection] ∧ Due canonical projection after.core ∧
            ShowsChange program world.core))
      (fun _ after => InStep canonical after.core) (eachSession program peers world) := by
  induction peers generalizing world with
  | nil => exact ⟨rfl,by simp [RunsAll],.inl ⟨rfl,h⟩⟩
  | cons peer rest ih =>
    obtain ⟨hpeer,hrest⟩ := List.nodup_cons.mp hnodup
    cases hactive : world.core.task.active[peer]? with
    | none =>
      simp only [eachSession]
      rw [bind_of_error (onActive_missing hactive)]
      exact h
    | some active =>
      by_cases hpresented : world.core.task.presentationPeer = some peer
      · have hselected := selected_eq_some.mpr ⟨hpresented,hactive⟩
        exact eachSession_presented world hselected (hprogram peer active hselected) hkeeps hnodup
          h hfits
      · have hkept := hkeeps active
        simp only [eachSession]
        cases hrun : program active with
        | error message after =>
          rw [hrun] at hkept
          rw [bind_of_error (onActive_of_error hactive hrun)]
          exact h.serves_other hpresented hactive hkept
        | ok changed after =>
          rw [hrun] at hkept
          rw [bind_of_ok (onActive_of_ok hactive hrun)]
          have hmine : (world.core.serves peer after).task.active[peer]? = some after := by
            rw [getElem?_serves,if_pos rfl]
          rw [bind_of_ok (selectChanged_other
            ⟨world.core.serves peer after,world.answers⟩ hmine hpresented changed)]
          have hsame := selected_serves_other after hpresented
          have hfollow := ih ⟨world.core.serves peer after,world.answers⟩
            (fun other found hfound => hprogram other found (hsame ▸ hfound)) hrest
            (h.serves_other hpresented hactive hkept)
            (hfits.serves hpeer hpresented hactive hrun)
          refine Post.bind (Post.mono hfollow (fun _ _ h => h) fun _ _ h => h)
            fun projections last hlast => ?_
          obtain ⟨hanswers,hall,hlast⟩ := hlast
          rw [runsAll_serves hpeer] at hall
          refine ⟨hanswers,runsAll_cons.mpr ⟨⟨active,changed,after,hactive,hrun⟩,hall⟩,?_⟩
          cases hlast with
          | inl hsilent => exact .inl hsilent
          | inr hshown =>
            obtain ⟨projection,rfl,hdue,other,found,kind,moved,hfound,hmoved⟩ := hshown
            rw [hsame] at hfound
            exact .inr ⟨projection,rfl,hdue,other,found,kind,moved,hfound,hmoved⟩

end Each

section Durable

/-- One session takes over a durable horizon. -/
def advanceTo (horizon : DurableHorizon L) : ActiveM L (Option RoomSessionProjectionKind) :=
  advanceDurable horizon.durableRevision horizon.history horizon.durableView

def resetTo (horizon : DurableHorizon L) : ActiveM L (Option RoomSessionProjectionKind) := do
  let _ ← resynchronizeExact horizon.durableRevision horizon.history horizon.durableView
  return some .reset

theorem advanceTo_keeps (horizon : DurableHorizon L) : Keeps (advanceTo horizon) :=
  keepsSession_background.advanceDurable _ _ _

theorem resetTo_keeps (horizon : DurableHorizon L) : Keeps (resetTo horizon) :=
  Keeps.bind (keepsSession_background.resynchronizeExact _ _ _) fun _ => Keeps.pure _

theorem nodup_keys (task : RoomSessionTask L) : task.active.keys.Nodup := by
  refine task.active.distinct_keys.imp fun {first second} h => ?_
  rintro rfl
  exact h (Std.ReflCmp.compare_self)

/-- The event port does not refuse the projection of a step that comes through. -/
def PortOpen (program : ActiveM L (Option RoomSessionProjectionKind)) (core : Core L)
    (answers : List EffectAnswer) : Prop :=
  RunsAll program core core.task.active.keys → ShowsChange program core →
    ∀ message, (answers.headD {}).reply ≠ .refused message

/-- Every session takes a horizon over, and the presented one is shown. -/
structure UpdateFits (program : ActiveM L (Option RoomSessionProjectionKind)) (core : Core L)
    (answers : List EffectAnswer) : Prop where
  through : NoneFailsAfter program core core.task.active.keys
  port : PortOpen program core answers

theorem updateFoundationHorizon_post {E : Stop → World L → Prop} (world : World L)
    (horizon : DurableHorizon L) :
    Post (fun _ after => Unseen world.core after.core ∧ after.answers = world.answers) E
      (updateFoundationHorizon horizon world) :=
  ⟨⟨rfl,rfl,rfl,fun _ _ h => h⟩,rfl⟩

theorem advanceAll_inStep (hpromises : L.WindowPromises) (horizon : DurableHorizon L)
    (h : InStep canonical world.core)
    (hfits : UpdateFits (advanceTo horizon) world.core world.answers) :
    Ends (fun _ => InStep canonical) (Halts canonical) (advanceAll horizon world) := by
  simp only [advanceAll,getTask_bind]
  refine Post.bind (Post.mono (eachSession_inStep world
    (fun peer active hselected =>
      advanceDurable_ends hpromises (h.stands peer active hselected) _ _ _)
    (advanceTo_keeps horizon) (nodup_keys _) h hfits.through) (fun _ _ h => h)
    fun _ _ h => h.halts _) fun projections advanced hadvanced => ?_
  obtain ⟨hanswers,hall,hadvanced⟩ := hadvanced
  refine Post.bind (updateFoundationHorizon_post advanced horizon)
    fun _ updated ⟨hunseen,hupdated⟩ => ?_
  refine Ends.bind (R := fun _ => InStep canonical) ?_ fun _ _ hemitted =>
    startReadyRenewals_unseen.inStep hemitted
  cases hadvanced with
  | inl hsilent =>
    obtain ⟨rfl,hadvanced⟩ := hsilent
    exact Ends.pure (hadvanced.unseen hunseen)
  | inr hshown =>
    obtain ⟨projection,rfl,hdue,hchange⟩ := hshown
    have hopen : ∀ message, (updated.answers.headD {}).reply ≠ .refused message := by
      rw [hupdated,hanswers]
      exact hfits.port hall hchange
    exact Ends.bind ((hdue.unseen hunseen).emit hopen) fun _ _ hemitted => Ends.pure hemitted

theorem resetTo_ends (hpromises : L.WindowPromises) (horizon : DurableHorizon L)
    {active : ActiveSession L}
    (hahead : (∃ kind moved, resetTo horizon active = .ok (some kind) moved) →
      AtOrAhead canonical horizon.durableRevision (L.historyRoot horizon.history)) :
    Post (fun kind after => TakesOver canonical kind active after) (fun _ => Unmoved active)
      (resetTo horizon active) := by
  have hreset : Post (fun _ after => AtOrAhead canonical horizon.durableRevision
        (L.historyRoot horizon.history) → Publishes canonical .reset active after)
      (fun _ => Unmoved active) (resynchronizeExact horizon.durableRevision horizon.history
        horizon.durableView active) :=
    resynchronizeExact_ends hpromises _ _ _
  unfold resetTo at hahead ⊢
  cases hrun : resynchronizeExact horizon.durableRevision horizon.history horizon.durableView
    active with
  | error message after =>
    rw [hrun] at hreset
    rw [bind_of_error hrun]
    exact hreset
  | ok projection after =>
    rw [hrun] at hreset
    rw [bind_of_ok hrun] at hahead ⊢
    refine ⟨fun hnone => (by cases hnone),fun shown hshown => ?_⟩
    cases hshown
    exact hreset (hahead ⟨.reset,after,rfl⟩)

theorem resetAllProjections_inStep (hpromises : L.WindowPromises) (horizon : DurableHorizon L)
    (h : InStep canonical world.core)
    (hfits : UpdateFits (resetTo horizon) world.core world.answers)
    (hahead : ShowsChange (resetTo horizon) world.core →
      AtOrAhead canonical horizon.durableRevision (L.historyRoot horizon.history)) :
    Ends (fun _ => InStep canonical) (Halts canonical) (resetAllProjections horizon world) := by
  simp only [resetAllProjections,getTask_bind]
  refine Post.bind (Post.mono (eachSession_inStep world
    (fun peer active hselected => resetTo_ends hpromises horizon fun ⟨kind,moved,hmoved⟩ =>
      hahead ⟨peer,active,kind,moved,hselected,hmoved⟩)
    (resetTo_keeps horizon) (nodup_keys _) h hfits.through) (fun _ _ h => h)
    fun _ _ h => h.halts _) fun projections reset hreset => ?_
  obtain ⟨hanswers,hall,hreset⟩ := hreset
  refine Post.bind (updateFoundationHorizon_post reset horizon)
    fun _ updated ⟨hunseen,hupdated⟩ => ?_
  cases hreset with
  | inl hsilent =>
    obtain ⟨rfl,hreset⟩ := hsilent
    exact Ends.bind (startReadyRenewals_unseen.inStep (hreset.unseen hunseen))
      fun _ _ h => Ends.pure h
  | inr hshown =>
    obtain ⟨projection,rfl,hdue,hchange⟩ := hshown
    have hopen : ∀ message, (updated.answers.headD {}).reply ≠ .refused message := by
      rw [hupdated,hanswers]
      exact hfits.port hall hchange
    refine Ends.bind ((hdue.unseen hunseen).emit hopen) fun _ emitted hemitted => ?_
    exact Ends.bind (startReadyRenewals_unseen.inStep hemitted) fun _ _ h => Ends.pure h

end Durable

end WalkieSongie.Session
