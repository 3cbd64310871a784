import WalkieSongie.WindowRuns
set_option autoImplicit false

/-!
What confirmations and admissions show: the session that is presented, and its companions, take
over one durable horizon.
-/

namespace WalkieSongie.Session
open TaskProgram

variable {L : SessionLibrary} {α : Type} {canonical : Nat × Digest} {world : World L}

/-- What an admission does to a session before the waiting edits are tried again. -/
def recordAndConfirm (record : L.SessionAdmission → ActiveM L L.SessionAdmission)
    (admitted : AdmittedEntry L) : ActiveM L (Option RoomSessionProjectionKind) := do
  let replica ← orThrow (L.sessionAdmission admitted.entry admitted.durableAdmission)
  let admission ← record replica
  confirm admission admitted.horizon.durableRevision admitted.horizon.history
    admitted.horizon.durableView

theorem takeAdmission_eq (record : L.SessionAdmission → ActiveM L L.SessionAdmission)
    (admitted : AdmittedEntry L) : takeAdmission record admitted = (do
      let kind ← recordAndConfirm record admitted
      let ready ← retryReifications
      return (ready,kind.getD .confirmed)) := by
  simp only [takeAdmission,recordAndConfirm,bind_assoc]

theorem TakesOver.after_unmoved {kind : Option RoomSessionProjectionKind}
    {before middle after : ActiveSession L} (h : TakesOver canonical kind middle after)
    (hunmoved : Unmoved before middle) : TakesOver canonical kind before after :=
  ⟨fun hnone => hunmoved.trans (h.unmoved hnone),
    fun shown hshown => hunmoved.publishes (h.publishes shown hshown)⟩

theorem recordAndConfirm_ends (hpromises : L.WindowPromises)
    {record : L.SessionAdmission → ActiveM L L.SessionAdmission}
    (hrecord : ∀ replica, Stays Unmoved (record replica)) (admitted : AdmittedEntry L)
    {active : ActiveSession L} (hstands : Stands canonical active) :
    Post (fun kind after => TakesOver canonical kind active after) (fun _ => Unmoved active)
      (recordAndConfirm record admitted active) := by
  refine Post.bind (unmoved_foreground.orThrow _ active) fun replica first hfirst => ?_
  refine Post.bind (Post.mono (hrecord replica first) (fun _ _ h => hfirst.trans h)
    fun _ _ h => hfirst.trans h) fun admission recorded hrecorded => ?_
  exact Post.mono (confirm_ends hpromises (hstands.unmoved hrecorded) _ _ _ _)
    (fun _ _ h => h.after_unmoved hrecorded) fun _ _ h => hrecorded.trans h

theorem recordPlanned_unmoved (plan : L.ReificationPlan) (entry : L.Entry)
    (replica : L.SessionAdmission) : Stays Unmoved (recordPlanned plan entry replica) :=
  unmoved_foreground.onPlanner _

theorem recordObserved_unmoved (entry : L.Entry) (replica : L.SessionAdmission) :
    Stays Unmoved (recordObserved entry replica) :=
  Stays.get fun _ => unmoved_foreground.onPlanner _

theorem retryReifications_unmoved : Stays (Unmoved (L := L)) retryReifications :=
  unmoved_foreground.retryReifications unmoved_waiting

def RoomSessionTask.companions (task : RoomSessionTask L) (source : ActorId) : List ActorId :=
  task.active.keys.filter fun peer => peer ≠ source

/-- An admission comes through as far as it changes what the window sees. Of the presented
session, its host makes a transition exactly if nothing fails before the projection of it; of
another session, no companion fails once the presented one is ahead of the window. -/
structure AdmissionFits (core : Core L) (source : ActorId)
    (record : L.SessionAdmission → ActiveM L L.SessionAdmission) (admitted : AdmittedEntry L)
    (awaited : Prop) : Prop where
  presented : ∀ active kind taken, core.task.selected = some (source,active) →
    recordAndConfirm record admitted active = .ok kind taken →
      (kind ≠ none ↔ (∃ ready after, retryReifications taken = .ok ready after) ∧ awaited ∧
        RunsAll (advanceTo admitted.horizon) core (core.task.companions source))
  companion : ∀ active ready after, core.task.active[source]? = some active →
    core.task.presentationPeer ≠ some source →
      takeAdmission record admitted active = .ok ready after → awaited →
        NoneFailsAfter (advanceTo admitted.horizon) core (core.task.companions source)

theorem not_mem_companions (task : RoomSessionTask L) (source : ActorId) :
    source ∉ task.companions source := by
  simp [RoomSessionTask.companions]

theorem nodup_companions (task : RoomSessionTask L) (source : ActorId) :
    (task.companions source).Nodup :=
  (nodup_keys task).filter _

theorem RunsAll.congr {program : ActiveM L α} {before after : Core L} {peers : List ActorId}
    (hactive : after.task.active = before.task.active) :
    RunsAll program after peers ↔ RunsAll program before peers := by
  simp only [RunsAll,hactive]

theorem NoneFailsAfter.unseen {program : ActiveM L (Option RoomSessionProjectionKind)}
    {before after : Core L} {peers : List ActorId} (h : NoneFailsAfter program before peers)
    (hunseen : Unseen before after) : NoneFailsAfter program after peers := by
  intro front peer rest active kind moved hsplit hselected hfront hmoved
  rw [hunseen.selected] at hselected
  rw [RunsAll.congr hunseen.active] at hfront ⊢
  exact h front peer rest active kind moved hsplit hselected hfront hmoved

theorem NoneFailsAfter.serves_absent {program : ActiveM L (Option RoomSessionProjectionKind)}
    {core : Core L} {source : ActorId} {after : ActiveSession L} {peers : List ActorId}
    (h : NoneFailsAfter program core peers) (hother : core.task.presentationPeer ≠ some source)
    (habsent : source ∉ peers) : NoneFailsAfter program (core.serves source after) peers := by
  intro front peer rest active kind moved hsplit hselected hfront hmoved
  rw [hsplit] at habsent
  have hmem : source ∉ front ∧ source ∉ rest := by
    simp only [List.mem_append,List.mem_cons,not_or] at habsent
    exact ⟨habsent.1,habsent.2.2⟩
  rw [selected_serves_other _ hother] at hselected
  rw [runsAll_serves hmem.1] at hfront
  rw [runsAll_serves hmem.2]
  exact h front peer rest active kind moved hsplit hselected hfront hmoved

theorem keys_serves {core : Core L} {source : ActorId} {before after : ActiveSession L}
    (hactive : core.task.active[source]? = some before) :
    (core.serves source after).task.active.keys = core.task.active.keys := by
  have hmem : ∀ peer, peer ∈ (core.serves source after).task.active.keys ↔
      peer ∈ core.task.active.keys := by
    intro peer
    rw [Std.ExtTreeMap.mem_keys,Std.ExtTreeMap.mem_keys,Std.ExtTreeMap.mem_iff_isSome_getElem?,
      Std.ExtTreeMap.mem_iff_isSome_getElem?,getElem?_serves]
    by_cases hpeer : source = peer
    · subst hpeer
      simp [hactive]
    · rw [if_neg hpeer]
  have hperm := (List.perm_ext_iff_of_nodup (nodup_keys _) (nodup_keys core.task)).mpr hmem
  refine List.Perm.eq_of_pairwise (fun first second _ _ hlt hgt => ?_)
    Std.ExtTreeMap.ordered_keys Std.ExtTreeMap.ordered_keys hperm
  rw [Std.OrientedCmp.gt_of_lt hlt] at hgt
  cases hgt

theorem companions_serves {core : Core L} {source : ActorId} {before after : ActiveSession L}
    (hactive : core.task.active[source]? = some before) :
    (core.serves source after).task.companions source = core.task.companions source := by
  rw [RoomSessionTask.companions,RoomSessionTask.companions,keys_serves hactive]

theorem companions_other {world : World L} {peer : ActorId}
    (h : world.core.task.presentationPeer = some peer) :
    ∀ other ∈ world.core.task.companions peer,
      world.core.task.presentationPeer ≠ some other := by
  intro other hmem hother
  cases h.symm.trans hother
  exact not_mem_companions _ _ hmem

/-- The presented session is ahead of the window, and the companions follow it. -/
theorem publishConfirmation_due {peer : ActorId} {active : ActiveSession L}
    {kind : RoomSessionProjectionKind} (ready : List (ReadyReification L))
    (intentToken : Option PerformanceIntentToken) (horizon : DurableHorizon L)
    (hselected : world.core.task.selected = some (peer,active))
    (hdue : Due canonical (active.projectionEvent kind) world.core)
    (hfits : RunsAll (advanceTo horizon) world.core (world.core.task.companions peer)) :
    Ends (fun _ => InStep canonical) (Halts canonical)
      (publishConfirmation peer kind ready intentToken horizon world) := by
  refine Post.bind (R := fun projection (after : World L) =>
      projection = some (active.projectionEvent kind) ∧
        Due canonical (active.projectionEvent kind) after.core) ?_
    fun projection advanced hadvanced => ?_
  · unfold advanceCompanionsAndSelectProjection
    rw [bind_of_ok (selectProjection_presented world hselected kind),getTask_bind]
    refine Post.bind (Post.mono (eachSession_others world
      (fun _ _ _ _ h hother hactive hkeeps => Due.serves_other h hother hactive hkeeps)
      (advanceTo_keeps horizon) (nodup_companions _ peer)
      (companions_other (selected_eq_some.mp hselected).1) hdue) (fun _ _ h => h)
      fun _ _ h => absurd hfits h.2) fun advanced last hlast => ?_
    obtain ⟨rfl,hlast,-⟩ := hlast
    exact ⟨rfl,hlast⟩
  · obtain ⟨rfl,hadvanced⟩ := hadvanced
    refine Post.bind (updateFoundationHorizon_post advanced horizon) fun _ updated hupdated => ?_
    exact (hadvanced.unseen hupdated.1).emitRealtime rfl

/-- The presented session has nothing to show, but a companion fails before it is shown. -/
theorem publishConfirmation_still {peer : ActorId} {active : ActiveSession L}
    (kind : RoomSessionProjectionKind) (ready : List (ReadyReification L))
    (intentToken : Option PerformanceIntentToken) (horizon : DurableHorizon L)
    (hselected : world.core.task.selected = some (peer,active)) (h : InStep canonical world.core)
    (hfails : ¬ RunsAll (advanceTo horizon) world.core (world.core.task.companions peer)) :
    Ends (fun _ => InStep canonical) (Halts canonical)
      (publishConfirmation peer kind ready intentToken horizon world) := by
  refine Post.bind (R := fun _ _ => False) ?_ fun _ _ h => h.elim
  unfold advanceCompanionsAndSelectProjection
  rw [bind_of_ok (selectProjection_presented world hselected kind),getTask_bind]
  refine Post.bind (Post.mono (eachSession_others world
    (fun _ _ _ _ h hother hactive hkeeps => h.serves_other hother hactive hkeeps)
    (advanceTo_keeps horizon) (nodup_companions _ peer)
    (companions_other (selected_eq_some.mp hselected).1) h) (fun _ _ h => h)
    fun _ _ h => h.1.halts _) fun _ _ hlast => ?_
  exact absurd hlast.2.2.2 hfails

/-- The confirmed session is not the presented one, which may advance as a companion. -/
theorem publishConfirmation_other (hpromises : L.WindowPromises) {peer : ActorId}
    (active : ActiveSession L) (kind : RoomSessionProjectionKind)
    (ready : List (ReadyReification L)) (intentToken : Option PerformanceIntentToken)
    (horizon : DurableHorizon L) (hactive : world.core.task.active[peer]? = some active)
    (hother : world.core.task.presentationPeer ≠ some peer) (h : InStep canonical world.core)
    (hfits : NoneFailsAfter (advanceTo horizon) world.core (world.core.task.companions peer)) :
    Ends (fun _ => InStep canonical) (Halts canonical)
      (publishConfirmation peer kind ready intentToken horizon world) := by
  have hown : selectProjection peer kind world = .ok [] world := by
    simp only [selectProjection,getTask_bind,hactive,hother,if_false]
    rfl
  refine Post.bind (R := fun projection (after : World L) =>
      (projection = none ∧ InStep canonical after.core) ∨
      ∃ shown, projection = some shown ∧ Due canonical shown after.core) ?_
    fun projection advanced hadvanced => ?_
  · unfold advanceCompanionsAndSelectProjection
    rw [bind_of_ok hown,getTask_bind]
    refine Post.bind (Post.mono (eachSession_inStep world
      (fun peer active hselected =>
        advanceDurable_ends hpromises (h.stands peer active hselected) _ _ _)
      (advanceTo_keeps horizon) (nodup_companions _ peer) h hfits) (fun _ _ h => h)
      fun _ _ h => h.halts _) fun projections last hlast => ?_
    obtain ⟨-,-,hlast⟩ := hlast
    cases hlast with
    | inl hsilent =>
      obtain ⟨rfl,hlast⟩ := hsilent
      exact .inl ⟨rfl,hlast⟩
    | inr hshown =>
      obtain ⟨projection,rfl,hdue,-⟩ := hshown
      exact .inr ⟨projection,rfl,hdue⟩
  · refine Post.bind (updateFoundationHorizon_post advanced horizon) fun _ updated hupdated => ?_
    cases hadvanced with
    | inl hsilent =>
      obtain ⟨rfl,hadvanced⟩ := hsilent
      exact hadvanced.unseen hupdated.1
    | inr hshown =>
      obtain ⟨shown,rfl,hdue⟩ := hshown
      exact (hdue.unseen hupdated.1).emitRealtime rfl

/-- A confirmation, once its session has taken the admission. -/
def finishAdmission (peer : ActorId) (release : TaskM L Unit)
    (intentToken : Option PerformanceIntentToken) (horizon : DurableHorizon L)
    (taken : List (ReadyReification L) × RoomSessionProjectionKind) : TaskM L Unit := do
  release
  publishConfirmation peer taken.2 taken.1 intentToken horizon
  enqueueReifications peer taken.1
  startReadyRenewals

/-- The program takes an edit out of the in-flight ones, exactly if it is one of them. -/
def Releases (release : TaskM L Unit) (awaited : Prop) (core : Core L) : Prop :=
  ∀ world : World L, world.core.task.inflightReifications = core.task.inflightReifications →
    Post (fun _ after => Unseen world.core after.core ∧ awaited)
      (fun _ after => Unseen world.core after.core ∧ ¬ awaited) (release world)

theorem finishAdmission_ends {peer : ActorId} {release : TaskM L Unit} {awaited : Prop}
    {intentToken : Option PerformanceIntentToken} {horizon : DurableHorizon L}
    {taken : List (ReadyReification L) × RoomSessionProjectionKind}
    (hrelease : Releases release awaited world.core) {I : Core L → Prop}
    (hunseen : ∀ before after, I before → Unseen before after → I after)
    (h : I world.core) (hrefused : ∀ core, I core → ¬ awaited → InStep canonical core)
    (hpublish : ∀ after : World L, Unseen world.core after.core → I after.core → awaited →
      Ends (fun _ => InStep canonical) (Halts canonical)
        (publishConfirmation peer taken.2 taken.1 intentToken horizon after)) :
    Ends (fun _ => InStep canonical) (Halts canonical)
      (finishAdmission peer release intentToken horizon taken world) := by
  refine Post.bind (Post.mono (hrelease world rfl) (fun _ _ h => h) fun stop after hafter => ?_)
    fun _ released hreleased => ?_
  · exact (hrefused _ (hunseen _ _ h hafter.1) hafter.2).halts stop
  · refine Ends.bind (hpublish released hreleased.1 (hunseen _ _ h hreleased.1) hreleased.2)
      fun _ published hpublished => ?_
    refine Ends.bind ((enqueueReifications_unseen peer taken.1).inStep hpublished)
      fun _ queued hqueued => ?_
    exact startReadyRenewals_unseen.inStep hqueued

theorem takeAdmission_of_ok {record : L.SessionAdmission → ActiveM L L.SessionAdmission}
    {admitted : AdmittedEntry L} {active taken after : ActiveSession L}
    {kind : Option RoomSessionProjectionKind} {ready : List (ReadyReification L)}
    (hrun : recordAndConfirm record admitted active = .ok kind taken)
    (hretry : retryReifications taken = .ok ready after) :
    takeAdmission record admitted active = .ok (ready,kind.getD .confirmed) after := by
  rw [takeAdmission_eq,bind_of_ok hrun,bind_of_ok hretry]
  rfl

theorem takeAdmission_of_retry_error {record : L.SessionAdmission → ActiveM L L.SessionAdmission}
    {admitted : AdmittedEntry L} {active taken after : ActiveSession L}
    {kind : Option RoomSessionProjectionKind} {message : String}
    (hrun : recordAndConfirm record admitted active = .ok kind taken)
    (hretry : retryReifications taken = .error message after) :
    takeAdmission record admitted active = .error message after := by
  rw [takeAdmission_eq,bind_of_ok hrun,bind_of_error hretry]

theorem takeAdmission_of_error {record : L.SessionAdmission → ActiveM L L.SessionAdmission}
    {admitted : AdmittedEntry L} {active after : ActiveSession L} {message : String}
    (hrun : recordAndConfirm record admitted active = .error message after) :
    takeAdmission record admitted active = .error message after := by
  rw [takeAdmission_eq,bind_of_error hrun]

/-- A confirmation of the presented session leaves the window in step with it. -/
theorem takeAdmission_presented (hpromises : L.WindowPromises) {peer : ActorId} {missing : String}
    {record : L.SessionAdmission → ActiveM L L.SessionAdmission}
    (hrecord : ∀ replica, Stays Unmoved (record replica)) (admitted : AdmittedEntry L)
    {release : TaskM L Unit} {awaited : Prop} (intentToken : Option PerformanceIntentToken)
    (hrelease : Releases release awaited world.core) {active : ActiveSession L}
    (hselected : world.core.task.selected = some (peer,active)) (h : InStep canonical world.core)
    (hfits : AdmissionFits world.core peer record admitted awaited) :
    Ends (fun _ => InStep canonical) (Halts canonical)
      ((onActive peer missing (takeAdmission record admitted) >>=
        finishAdmission peer release intentToken admitted.horizon) world) := by
  obtain ⟨hpresented,hactive⟩ := selected_eq_some.mp hselected
  have hmoves := recordAndConfirm_ends hpromises hrecord admitted (h.stands peer active hselected)
  cases hrun : recordAndConfirm record admitted active with
  | error message after =>
    rw [hrun] at hmoves
    rw [bind_of_error (onActive_of_error hactive (takeAdmission_of_error hrun))]
    exact (h.serves_unmoved hactive hmoves).halts _
  | ok kind taken =>
    rw [hrun] at hmoves
    have hshown := hfits.presented active kind taken hselected hrun
    have hretried := retryReifications_unmoved taken
    cases hretry : retryReifications taken with
    | error message after =>
      rw [hretry] at hretried hshown
      rw [bind_of_error (onActive_of_error hactive (takeAdmission_of_retry_error hrun hretry))]
      have hnone : kind = none := by
        by_contra hsome
        obtain ⟨⟨ready,last,hlast⟩,-⟩ := hshown.mp hsome
        cases hlast
      exact (h.serves_unmoved hactive ((hmoves.unmoved hnone).trans hretried)).halts _
    | ok ready after =>
      rw [hretry] at hretried
      rw [bind_of_ok (onActive_of_ok hactive (takeAdmission_of_ok hrun hretry))]
      have hafter : ∀ later : World L, Unseen (world.core.serves peer after) later.core →
          later.core.task.selected = some (peer,after) := by
        intro later hlater
        rw [hlater.selected]
        exact selected_serves_presented after hpresented
      have hall : ∀ later : World L, Unseen (world.core.serves peer after) later.core →
          (RunsAll (advanceTo admitted.horizon) later.core
              (later.core.task.companions peer) ↔
            RunsAll (advanceTo admitted.horizon) world.core (world.core.task.companions peer)) := by
        intro later hlater
        have hsame : later.core.task.companions peer = world.core.task.companions peer := by
          rw [RoomSessionTask.companions,hlater.active]
          exact companions_serves hactive
        rw [hsame,RunsAll.congr hlater.active,runsAll_serves (not_mem_companions _ _)]
      cases kind with
      | none =>
        have hstill := h.serves_unmoved hactive ((hmoves.unmoved rfl).trans hretried)
        refine finishAdmission_ends (I := InStep canonical) hrelease
          (fun _ _ => InStep.unseen) hstill (fun _ h _ => h) fun later hlater hsame hawaited => ?_
        refine publishConfirmation_still _ ready intentToken _ (hafter later hlater) hsame ?_
        rw [hall later hlater]
        intro hfits
        exact (hshown.mpr ⟨⟨ready,after,hretry⟩,hawaited,hfits⟩) rfl
      | some kind =>
        obtain ⟨-,hawaited,hcompanions⟩ := hshown.mp (by simp)
        have hdue := h.serves_publishes hselected ((hmoves.publishes kind rfl).unmoved hretried)
        refine finishAdmission_ends (I := Due canonical (after.projectionEvent kind)) hrelease
          (fun _ _ => Due.unseen) hdue (fun _ _ hnot => absurd hawaited hnot)
          fun later hlater hsame _ => ?_
        refine publishConfirmation_due ready intentToken _ (hafter later hlater) hsame ?_
        rw [hall later hlater]
        exact hcompanions

theorem takeAdmission_other (hpromises : L.WindowPromises) {peer : ActorId} {missing : String}
    {record : L.SessionAdmission → ActiveM L L.SessionAdmission}
    (hrecord : ∀ replica, Keeps (record replica)) (admitted : AdmittedEntry L)
    {release : TaskM L Unit} {awaited : Prop} (intentToken : Option PerformanceIntentToken)
    (hrelease : Releases release awaited world.core)
    (hother : world.core.task.presentationPeer ≠ some peer) (h : InStep canonical world.core)
    (hfits : AdmissionFits world.core peer record admitted awaited) :
    Ends (fun _ => InStep canonical) (Halts canonical)
      ((onActive peer missing (takeAdmission record admitted) >>=
        finishAdmission peer release intentToken admitted.horizon) world) := by
  cases hactive : world.core.task.active[peer]? with
  | none =>
    rw [bind_of_error (onActive_missing hactive)]
    exact h.halts _
  | some active =>
    have hkept := takeAdmission_keeps hrecord admitted active
    cases hrun : takeAdmission record admitted active with
    | error message after =>
      rw [hrun] at hkept
      rw [bind_of_error (onActive_of_error hactive hrun)]
      exact (h.serves_other hother hactive hkept).halts _
    | ok taken after =>
      rw [hrun] at hkept
      rw [bind_of_ok (onActive_of_ok hactive hrun)]
      have hserved := h.serves_other hother hactive hkept
      refine finishAdmission_ends (I := InStep canonical) hrelease (fun _ _ => InStep.unseen)
        hserved (fun _ h _ => h) fun later hlater hsame hawaited => ?_
      refine publishConfirmation_other hpromises after _ _ intentToken _ ?_ ?_ hsame ?_
      · rw [hlater.active,getElem?_serves,if_pos rfl]
      · rw [hlater.presentation]
        exact hother
      · have hsame : later.core.task.companions peer = world.core.task.companions peer := by
          rw [RoomSessionTask.companions,hlater.active]
          exact companions_serves hactive
        rw [hsame]
        refine NoneFailsAfter.unseen (NoneFailsAfter.serves_absent ?_ hother
          (not_mem_companions _ _)) hlater
        exact hfits.companion active taken after hactive hother hrun hawaited

theorem admission_inStep (hpromises : L.WindowPromises) {peer : ActorId} {missing : String}
    {record : L.SessionAdmission → ActiveM L L.SessionAdmission}
    (hkeeps : ∀ replica, Keeps (record replica))
    (hrecord : ∀ replica, Stays Unmoved (record replica)) (admitted : AdmittedEntry L)
    {release : TaskM L Unit} {awaited : Prop} (intentToken : Option PerformanceIntentToken)
    (hrelease : Releases release awaited world.core) (h : InStep canonical world.core)
    (hfits : AdmissionFits world.core peer record admitted awaited) :
    Ends (fun _ => InStep canonical) (Halts canonical)
      ((onActive peer missing (takeAdmission record admitted) >>=
        finishAdmission peer release intentToken admitted.horizon) world) := by
  by_cases hpresented : world.core.task.presentationPeer = some peer
  · cases hactive : world.core.task.active[peer]? with
    | none =>
      rw [bind_of_error (onActive_missing hactive)]
      exact h.halts _
    | some active =>
      exact takeAdmission_presented hpromises hrecord admitted intentToken hrelease
        (selected_eq_some.mpr ⟨hpresented,hactive⟩) h hfits
  · exact takeAdmission_other hpromises hkeeps admitted intentToken hrelease hpresented h hfits

def LocalCommit.InFlight (commit : LocalCommit L) (core : Core L) : Prop :=
  ∃ inflight, core.task.inflightReifications[commit.session]? = some inflight ∧
    L.planCorrelation commit.plan ∈ inflight

def LocalCommit.ForActive (commit : LocalCommit L) (core : Core L) : Prop :=
  core.task.active[commit.peer]?.any (fun active => active.identity = commit.session) = true

theorem removeInflight_releases (commit : LocalCommit L) (core : Core L) :
    Releases (removeInflightReification commit.session commit.plan) (commit.InFlight core)
      core := by
  intro world hsame
  have hinflight : commit.InFlight core ↔ commit.InFlight world.core := by
    rw [LocalCommit.InFlight,LocalCommit.InFlight,hsame]
  rw [hinflight]
  simp only [removeInflightReification,getTask_bind]
  cases hfound : world.core.task.inflightReifications[commit.session]? with
  | none =>
    refine ⟨.refl _,?_⟩
    rintro ⟨inflight,hinflight,-⟩
    cases hfound.symm.trans hinflight
  | some inflight =>
    refine Post.refuseIf (fun habsent => ⟨.refl _,?_⟩) fun hpresent => ?_
    · rintro ⟨found,hinflight,hmem⟩
      cases hfound.symm.trans hinflight
      exact habsent hmem
    · refine ⟨⟨rfl,rfl,rfl,fun _ _ h => h⟩,inflight,hfound,?_⟩
      exact not_not.mp hpresent

theorem pure_releases (core : Core L) :
    Releases (Pure.pure () : TaskM L Unit) True core :=
  fun world _ => ⟨.refl world.core,trivial⟩

/-- An edit of this side is confirmed as far as its session shows it. -/
def CommitFits (core : Core L) (commit : LocalCommit L) : Prop :=
  commit.ForActive core → AdmissionFits core commit.peer
    (recordPlanned commit.plan commit.admitted.entry) commit.admitted (commit.InFlight core)

theorem confirmRetired_halts (commit : LocalCommit L) {F : RoomSessionFoundation L → Prop}
    (hplay : InPlay F world.core) (h : InStep canonical world.core) :
    Ends (fun _ => InStep canonical) (Halts canonical) (confirmRetired commit world) := by
  have hretired : world.core.task.retired[commit.session]? = none := by
    rw [hplay.retired]
    exact Std.ExtTreeMap.getElem?_empty
  refine Ends.bind (R := fun _ _ => False) ?_ fun _ _ h => h.elim
  simp only [onRetired,getTask_bind,hretired]
  exact Ends.fail (h.halts _)

theorem confirmLocal_inStep (hpromises : L.WindowPromises) (commit : LocalCommit L)
    {F : RoomSessionFoundation L → Prop} (hplay : InPlay F world.core)
    (h : InStep canonical world.core) (hfits : CommitFits world.core commit) :
    Ends (fun _ => InStep canonical) (Halts canonical) (confirmLocal commit world) := by
  refine Ends.getTask <| Ends.branch (fun hactive => ?_) fun _ => ?_
  · exact admission_inStep hpromises (recordPlanned_keeps _ _) (recordPlanned_unmoved _ _)
      commit.admitted commit.intentToken (removeInflight_releases commit world.core) h
      (hfits hactive)
  · exact confirmRetired_halts commit hplay h

/-- An admission of the replica is taken as far as a session shows it. -/
structure ObserveFits (core : Core L) (admitted : AdmittedEntry L) (answers : List EffectAnswer) :
    Prop where
  known : ∀ manifest peer, L.isReifiedCommand admitted.entry = true →
    L.reifiedManifest admitted.entry = .ok manifest →
    core.task.peerOfManifest manifest = some peer →
      AdmissionFits core peer (recordObserved admitted.entry) admitted True
  unknown : ∀ manifest, L.isReifiedCommand admitted.entry = true →
    L.reifiedManifest admitted.entry = .ok manifest → core.task.peerOfManifest manifest = none →
      UpdateFits (advanceTo admitted.horizon) core answers

theorem observe_inStep (hpromises : L.WindowPromises) (admitted : AdmittedEntry L)
    (h : InStep canonical world.core) (hfits : ObserveFits world.core admitted world.answers) :
    Ends (fun _ => InStep canonical) (Halts canonical) (observe admitted world) := by
  refine Ends.branch (fun hreified => ?_) fun _ => Ends.pure h
  refine Ends.check (fun manifest hmanifest => Ends.getTask ?_) fun _ _ => h.halts _
  cases hpeer : world.core.task.peerOfManifest manifest with
  | none =>
    exact advanceAll_inStep hpromises _ h (hfits.unknown manifest hreified hmanifest hpeer)
  | some peer =>
    exact admission_inStep hpromises (recordObserved_keeps _) (recordObserved_unmoved _) admitted
      none (pure_releases world.core) h (hfits.known manifest peer hreified hmanifest hpeer)

end WalkieSongie.Session
