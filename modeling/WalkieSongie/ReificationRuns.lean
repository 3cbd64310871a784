import WalkieSongie.ReificationWaits
set_option autoImplicit false

/-!
What the handlers do to the edits of their sessions: each leaves every edit in its place, or puts
it to the next one.
-/

namespace WalkieSongie.Session
open TaskProgram Relation

variable {L : SessionLibrary} {α : Type} {world : World L} {taken : List SessionEdit}

section Asides

theorem Runs.kept {program : TaskM L α} (hruns : Runs Aside program world)
    (h : Kept taken world.core) :
    Ends (fun _ => Kept taken) (fun _ => Kept taken) (program world) :=
  Ends.mono hruns (fun _ _ hmany => h.asides hmany) fun _ _ hmany => h.asides hmany

theorem Runs.aside {F : RoomSessionFoundation L → Prop} {program : TaskM L α}
    (h : Runs (Renews F) program world) : Runs Aside program world :=
  Ends.mono h (fun _ _ hmany => ReflTransGen.mono (fun _ _ => Renews.aside) _ _ hmany)
    fun _ _ hmany => ReflTransGen.mono (fun _ _ => Renews.aside) _ _ hmany

theorem startReadyRenewals_aside : Runs Aside (startReadyRenewals (L := L)) world :=
  Runs.aside (startReadyRenewals_renews (renewable_any world.core))

theorem beginSession_aside (foundation : RoomSessionFoundation L) :
    Runs Aside (beginSession foundation) world :=
  Runs.aside (F := fun _ => True) (beginSession_runs trivial)

theorem emit_aside (event : RoomSessionEgress L) : Runs Aside (emit event) world :=
  Runs.emit (.sends [] event _)

theorem startPeer_aside (foundation : RoomSessionFoundation L) :
    Runs Aside (startPeer foundation) world := by
  refine Runs.bind (Runs.modifyTask (.of_task rfl rfl rfl)) fun _ after _ => Runs.getTask ?_
  cases after.core.task.pending[foundation.peer]? with
  | some pending =>
    refine Runs.branch (fun _ => emit_aside _) fun _ => ?_
    refine Runs.bind (Runs.modifyTask (.of_task rfl rfl rfl)) fun _ _ _ => ?_
    exact beginSession_aside foundation
  | none =>
    refine Runs.branch (fun _ => Runs.pure ()) fun _ => ?_
    exact Runs.aside (F := fun _ => True) (startUnlessWaiting_runs trivial)

theorem onActive_aside {peer : ActorId} {missing : String} {program : ActiveM L α}
    (hstays : Stays (LetsGo []) program) : Runs Aside (onActive peer missing program) world := by
  cases hactive : world.core.task.active[peer]? with
  | none =>
    rw [Runs,onActive_missing hactive]
    exact ReflTransGen.refl
  | some active =>
    have hlets := hstays active
    cases hrun : program active with
    | ok value after =>
      rw [hrun] at hlets
      rw [Runs,onActive_of_ok hactive hrun]
      exact ReflTransGen.single (.serves hactive hlets)
    | error message after =>
      rw [hrun] at hlets
      rw [Runs,onActive_of_error hactive hrun]
      exact ReflTransGen.single (.serves hactive hlets)

theorem selectChanged_aside (peer : ActorId) (changed : Option RoomSessionProjectionKind) :
    Runs Aside (selectChanged (L := L) peer changed) world := by
  cases changed with
  | none => exact Runs.pure _
  | some kind =>
    refine Runs.getTask ?_
    cases world.core.task.active[peer]? with
    | none => exact Runs.fail _
    | some active => exact Runs.pure _

theorem eachSession_aside {program : ActiveM L (Option RoomSessionProjectionKind)}
    (hstays : Stays (LetsGo []) program) (peers : List ActorId) :
    Runs Aside (eachSession program peers) world := by
  induction peers generalizing world with
  | nil => exact Runs.pure _
  | cons peer rest ih =>
    refine Runs.bind (onActive_aside hstays) fun changed _ _ => ?_
    refine Runs.bind (selectChanged_aside peer changed) fun _ _ _ => ?_
    exact Runs.bind ih fun _ _ _ => Runs.pure _

theorem advanceTo_stays (horizon : DurableHorizon L) : Stays (LetsGo []) (advanceTo horizon) :=
  letsGo_background.advanceDurable _ _ _

theorem resetTo_stays (horizon : DurableHorizon L) : Stays (LetsGo []) (resetTo horizon) :=
  letsGo_background.bind (letsGo_background.resynchronizeExact _ _ _) fun _ =>
    letsGo_background.pure _

theorem updateFoundationHorizon_aside (horizon : DurableHorizon L) :
    Runs Aside (updateFoundationHorizon horizon) world :=
  Runs.modifyTask (.of_task rfl rfl rfl)

theorem advanceAll_aside (horizon : DurableHorizon L) : Runs Aside (advanceAll horizon) world := by
  refine Runs.getTask <| Runs.bind (eachSession_aside (advanceTo_stays horizon) _) fun _ _ _ => ?_
  refine Runs.bind (updateFoundationHorizon_aside horizon) fun _ _ _ => ?_
  refine Runs.bind (Runs.forM fun _ _ _ _ => emit_aside _) fun _ _ _ => startReadyRenewals_aside

theorem resetAllProjections_aside (horizon : DurableHorizon L) :
    Runs Aside (resetAllProjections horizon) world := by
  refine Runs.getTask <| Runs.bind (eachSession_aside (resetTo_stays horizon) _)
    fun projections _ _ => ?_
  refine Runs.bind (updateFoundationHorizon_aside horizon) fun _ _ _ => ?_
  cases projections.getLast? with
  | none => exact Runs.bind startReadyRenewals_aside fun _ _ _ => Runs.pure _
  | some projection =>
    refine Runs.bind (emit_aside _) fun _ _ _ => ?_
    exact Runs.bind startReadyRenewals_aside fun _ _ _ => Runs.pure _

end Asides

section Survival

/-- Short of a crash and of the end of its generation, a failure leaves every edit accounted
for. -/
def Survives (stop : Stop) (core : Core L) : Prop :=
  stop ≠ .crash → core.task.events ≠ none → Kept [] core

theorem Kept.survives {core : Core L} (h : Kept [] core) (stop : Stop) : Survives stop core :=
  fun _ _ => h

theorem Runs.surviving {program : TaskM L α} (hruns : Runs Aside program world)
    (h : Kept [] world.core) : Ends (fun _ => Kept []) Survives (program world) :=
  Ends.mono (hruns.kept h) (fun _ _ h => h) fun stop _ h => h.survives stop

theorem survives_crash (core : Core L) : Survives .crash core :=
  fun hcrash => absurd rfl hcrash

theorem failSessionGeneration_survives {Q : α → Core L → Prop} (reason : String) :
    Ends Q Survives (failSessionGeneration reason world) := by
  refine Ends.bind (R := fun _ core => core.task.events = none) (Ends.modifyCore rfl)
    fun _ after hafter => Ends.fail fun _ hlive => absurd hafter hlive

theorem emitRealtimeOrFailGeneration_ends (event : RoomSessionRealtimeEgress L) :
    Post (fun _ after => Aside world.core after.core ∧ after.answers = world.answers.tail ∧
        after.core.task = world.core.task)
      (fun stop after => Survives stop after.core) (emitRealtimeOrFailGeneration event world) := by
  have hemitted : Post (fun _ after => Aside world.core after.core ∧
      after.answers = world.answers.tail ∧ after.core.task = world.core.task) (fun _ _ => True)
      (emit (.realtime event) world) := by
    refine Post.refuseIf (fun _ => trivial) fun _ => ?_
    refine Post.bind (R := fun _ after => Aside world.core after.core ∧
      after.answers = world.answers.tail ∧ after.core.task = world.core.task) ?_ fun _ _ h => h
    unfold effect
    cases hreply : (world.answers.headD {}).reply with
    | accepted =>
      simp only [hreply]
      exact ⟨.sends [] _ _,rfl,rfl⟩
    | refused message =>
      simp only [hreply]
      trivial
    | crash =>
      simp only [hreply]
      trivial
  refine Post.bind (Post.mono (Post.attempting hemitted) (fun _ _ h => h) ?_)
    fun outcome after hafter => ?_
  · rintro stop core ⟨rfl,-⟩
    exact survives_crash _
  cases hafter with
  | inl hok =>
    obtain ⟨value,rfl,hok⟩ := hok
    exact hok
  | inr hfailed =>
    obtain ⟨message,rfl,-⟩ := hfailed
    exact Post.mono (failSessionGeneration_survives (Q := fun _ _ => False) _)
      (fun _ _ h => h.elim) fun _ _ h => h

theorem emitRealtimeOrFailGeneration_kept (event : RoomSessionRealtimeEgress L)
    (h : Kept [] world.core) :
    Ends (fun _ => Kept []) Survives (emitRealtimeOrFailGeneration event world) :=
  Post.mono (emitRealtimeOrFailGeneration_ends event) (fun _ _ hlast => h.aside hlast.1)
    fun _ _ h => h

end Survival

section RemoteEvent

theorem receiveRemote_stays (hpromises : L.EditPromises) (frame : Bytes) :
    Stays (LetsGo []) (receiveRemote (L := L) frame) := by
  refine Stays.get fun _ => letsGo_background.bind (letsGo_background.orThrow _) fun packet => ?_
  refine letsGo_background.bind (fun active => Post.onPart ?_) fun _ => letsGo_background.pure _
  exact Post.mono (hpromises.received packet active.lanes)
    (fun _ _ h => .of_same ⟨⟨rfl,rfl,_,_,_,rfl⟩,h.ge⟩ rfl)
    fun _ _ h => .of_same ⟨⟨rfl,rfl,_,_,_,rfl⟩,h.ge⟩ rfl

theorem publishChange_kept (peer : ActorId) (changed : Option RoomSessionProjectionKind)
    (h : Kept [] world.core) :
    Ends (fun _ => Kept []) Survives (publishChange peer changed world) := by
  cases changed with
  | none => exact Ends.pure h
  | some kind =>
    refine Ends.getTask ?_
    cases world.core.task.active[peer]? with
    | none => exact Ends.fail (h.survives _)
    | some active =>
      exact Ends.branch (fun _ => emitRealtimeOrFailGeneration_kept _ h) fun _ => Ends.pure h

theorem takeRemoteEvent_kept (hpromises : L.EditPromises) (event : EventBody)
    (h : Kept [] world.core) :
    Ends (fun _ => Kept []) Survives (takeRemoteEvent event world) := by
  refine Ends.bind ((Runs.nowTicks (R := Aside)).surviving h) fun ticks read hread => ?_
  refine Ends.bind ((onActive_aside (receiveRemote_stays hpromises event.frame)).surviving hread)
    fun (atTime,received) opened hopened => ?_
  refine Ends.branch (fun _ => ?_) fun _ => Ends.pure hopened
  refine Ends.bind (Ends.mono (Ends.attempting ((onActive_aside
    (letsGo_background.ingestFresh _ _ _ _)).kept hopened)) (fun _ _ h => h) ?_)
    fun outcome after hafter => ?_
  · rintro stop core ⟨rfl,-⟩
    exact survives_crash core
  cases outcome with
  | ok changed => exact publishChange_kept event.source changed hafter
  | error message => exact failSessionGeneration_survives _

theorem carrierEvent_kept (hpromises : L.EditPromises) (event : EventBody)
    (h : Kept [] world.core) : Ends (fun _ => Kept []) Survives (carrierEvent event world) := by
  refine Ends.getTask <| Ends.branch (fun _ => takeRemoteEvent_kept hpromises event h) fun _ => ?_
  refine Runs.surviving (Runs.bind (Runs.aside (F := fun _ => True) (Runs.needRenewal event.source))
    fun _ needed _ => Runs.getTask ?_) h
  cases needed.core.task.foundations.entries[event.source]? with
  | none => exact Runs.pure ()
  | some foundation =>
    exact Runs.branch (fun _ => startReadyRenewals_aside) fun _ => beginSession_aside foundation

end RemoteEvent

section Establishing

variable {F : RoomSessionFoundation L → Prop}

theorem installSession_kept (hlaws : L.RenewalPromises) {core : Core L} {peer : ActorId}
    {installation : Installation L} (h : Kept [] core)
    (hready : Ready F (fun _ => True) core peer installation)
    (hcore : world.core = core.drops peer) :
    Ends (fun _ => Kept []) Survives (installSession peer installation world) := by
  have hends := @installSession_ends _ world peer installation (Kept [])
    (fun _ needed consumed h => h.aside (.of_task rfl rfl rfl))
    (fun core trace h => h.aside (.sends [] _ core)) True
    fun _ hends => h.installEnds hlaws hready (hcore ▸ hends)
  exact Ends.mono hends (fun _ _ h => h.1) fun stop _ h => (h fun _ => trivial).survives stop

theorem Kept.renews {before after : Core L} (h : Kept taken before)
    (hrenews : RenewsMany F before after) : Kept taken after :=
  h.asides (ReflTransGen.mono (fun _ _ => Renews.aside) _ _ hrenews)

theorem carrierOffer_kept (hlaws : L.RenewalPromises) (offer : OfferBody L)
    (hplay : InPlay F world.core) (h : Kept [] world.core) :
    Ends (fun _ => Kept []) Survives (carrierOffer offer world) := by
  refine carrierOffer_ends hplay
    (fun core hrenews => ⟨h.renews hrenews,(h.renews hrenews).survives⟩)
    fun core installation after hrenews _ _ htaken hafter _ => ?_
  exact installSession_kept hlaws (h.renews hrenews)
    (htaken.ready trivial (RenewsMany.inPlay hrenews hplay)) hafter

theorem carrierAnswer_kept (hlaws : L.RenewalPromises) (answer : AnswerBody L)
    (hplay : InPlay F world.core) (h : Kept [] world.core) :
    Ends (fun _ => Kept []) Survives (carrierAnswer answer world) := by
  have hdrops : Kept [] (world.core.drops answer.source) := h.aside (.of_task rfl rfl rfl)
  have hprepared : Ends (fun prepared core => Kept [] core ∧
      ∀ installation, prepared = some installation → core = world.core.drops answer.source ∧
        Ready F (fun _ => True) core answer.source installation)
      Survives (prepareAnswer answer world) := by
    refine prepareAnswer_ends hplay h.survives (fun pending core _ hrenews => ?_)
      fun pending installation hcompletes => ⟨hdrops,fun other hother => ?_⟩
    · have hcore := hdrops.renews hrenews
      exact ⟨⟨hcore,fun _ hnone => by cases hnone⟩,hcore.survives⟩
    · cases hother
      exact ⟨rfl,hcompletes.ready trivial hplay⟩
  refine Ends.bind hprepared fun prepared after ⟨hafter,hready⟩ => ?_
  cases prepared with
  | none => exact Ends.pure hafter
  | some installation =>
    obtain ⟨hcore,hready⟩ := hready installation rfl
    have hidle : after.core.task.pending[answer.source]? = none := by
      rw [hcore]
      exact Std.ExtTreeMap.getElem?_erase_self
    exact installSession_kept hlaws hafter hready (Core.drops_of_absent hidle).symm

theorem carrier_kept (hpromises : L.EditPromises) (hlaws : L.RenewalPromises)
    (body : SessionCarrierBody L) (hplay : InPlay F world.core) (h : Kept [] world.core) :
    Ends (fun _ => Kept []) Survives (carrier body world) := by
  cases body with
  | offer offer => exact carrierOffer_kept hlaws offer hplay h
  | answer answer => exact carrierAnswer_kept hlaws answer hplay h
  | event event => exact carrierEvent_kept hpromises event h

end Establishing

section LocalEdit

theorem rejectIntent_kept (intentToken : PerformanceIntentToken) (reason : String)
    (h : Kept [] world.core) :
    Ends (fun _ => Kept []) Survives (rejectIntent intentToken reason world) :=
  (emit_aside _).surviving h

theorem queueLocalPlan_kept (peer : ActorId) (session : RoomSessionEpochIdentity)
    (intentToken : PerformanceIntentToken) (event : LocalSessionEvent L)
    {plan : L.ReificationPlan} (hplan : event.plan = some plan)
    (hdot : (L.planCorrelation plan).dot = event.dot)
    (h : Kept [⟨session,event.dot⟩] world.core)
    (hcurrent : SessionEdit.Current world.core ⟨session,event.dot⟩) :
    Ends (fun _ => Kept []) Survives (queueLocalPlan peer session intentToken event world) := by
  simp only [queueLocalPlan,hplan]
  have hqueued : Kept [] ((world.core.putsInflight session (L.planCorrelation plan)).queues
      ⟨peer,session,plan,event.command,some intentToken⟩) := by
    refine Kept.enqueues ?_ ?_
    · simpa only [RoomSessionReification.edit,hdot] using h
    · simpa only [RoomSessionReification.edit,hdot] using hcurrent
  refine Ends.bind (R := fun _ core => core = world.core.putsInflight session
    (L.planCorrelation plan)) (Ends.modifyTask rfl) fun _ added hadded => ?_
  have hsent : Ends (fun _ => Kept []) (fun _ _ => True)
      (sendReification ⟨peer,session,plan,event.command,some intentToken⟩ added) :=
    Ends.bind (R := fun _ => Kept []) (Ends.effect (fun _ => hadded ▸ hqueued) (fun _ => trivial)
      trivial fun _ _ => trivial) fun _ _ h => Ends.pure h
  refine Ends.bind (Ends.mono (Ends.attempting hsent) (fun _ _ h => h) ?_)
    fun sent after hafter => ?_
  · rintro stop core ⟨rfl,-⟩
    exact survives_crash core
  cases sent with
  | ok _ => exact Ends.pure hafter
  | error message =>
    exact Ends.bind (R := fun _ _ => True) (Ends.modifyTask trivial) fun _ _ _ =>
      failSessionGeneration_survives _

theorem publishLocalEvent_kept (intentToken : PerformanceIntentToken) {core : Core L}
    {peer : ActorId} {active later : ActiveSession L} {event : LocalSessionEvent L}
    (h : Kept [] core) (hactive : core.task.active[peer]? = some active)
    (haddressed : active.foundation.peer = peer) (hedits : Edits active event later)
    (hcore : world.core = core.serves peer later) :
    Ends (fun _ => Kept []) Survives (publishLocalEvent peer intentToken event world) := by
  have hlater : world.core.task.active[peer]? = some later := by
    rw [hcore,getElem?_serves,if_pos rfl]
  have hidentity : later.identity = active.identity := hedits.continues.keeps.identity
  have hpeer : later.identity.peer = peer := hidentity.symm ▸ haddressed
  have hmints : Mints core peer active later ⟨later.identity,event.dot⟩ :=
    ⟨hactive,haddressed,hidentity,hedits.continues,hedits.fresh,hedits.sealed⟩
  refine Ends.getTask ?_
  rw [hlater]
  refine Ends.bind (R := fun _ after => after = world.core.ingests ⟨later.identity,event.dot⟩)
    (Ends.modifyCore rfl) fun _ ingested hingested => ?_
  rw [hcore] at hingested
  refine Ends.bind (R := fun _ => Kept []) ?_ fun _ queued hqueued =>
    emitRealtimeOrFailGeneration_kept _ hqueued
  cases hplan : event.plan with
  | none =>
    simp only [queueLocalPlan,hplan]
    exact Ends.pure (hingested ▸ h.mints_awaiting hmints (hedits.waits hplan))
  | some plan =>
    obtain ⟨hdot,hstays⟩ := hedits.planned plan hplan
    refine queueLocalPlan_kept peer _ intentToken event hplan hdot
      (hingested ▸ h.mints_planned hmints hstays) ⟨later,?_,rfl⟩
    rw [hingested]
    exact hpeer.symm ▸ hcore ▸ hlater

theorem sealLocalEdit_kept (hpromises : L.EditPromises) (command : MusicOp)
    (intentToken : PerformanceIntentToken) {peer : ActorId} {active : ActiveSession L}
    (hactive : world.core.task.active[peer]? = some active)
    (haddressed : active.foundation.peer = peer) (h : Kept [] world.core) :
    Ends (fun _ => Kept []) Survives (sealLocalEdit peer command intentToken world) := by
  refine Post.bind (Post.mono (Post.attempting effect_post) (fun _ _ h => h) ?_)
    fun reserved first hfirst => ?_
  · rintro stop after ⟨rfl,-⟩
    exact survives_crash _
  cases hfirst with
  | inr hrefused =>
    obtain ⟨message,rfl,hcore⟩ := hrefused
    exact rejectIntent_kept intentToken _ (hcore ▸ h)
  | inl hreserved =>
    obtain ⟨answer,rfl,-,-,rfl⟩ := hreserved
    refine Post.bind (Post.mono (Post.attempting nowTicks_post) (fun _ _ h => h) ?_)
      fun now second hsecond => ?_
    · rintro stop after ⟨rfl,-⟩
      exact survives_crash _
    cases hsecond with
    | inr hrefused =>
      obtain ⟨message,rfl,hcore⟩ := hrefused
      exact rejectIntent_kept intentToken _ (hcore ▸ h)
    | inl hread =>
      obtain ⟨ticks,rfl,rfl,-,rfl⟩ := hread
      have hedits : Post (fun event after => Edits active event after) (fun _ _ => True)
          (localEvent command intentToken (world.answers.tail.headD {}).ticks active) :=
        localEvent_edits hpromises command intentToken _
      dsimp only
      have hlater : (World.mk world.core world.answers.tail.tail).core.task.active[peer]? =
        some active := hactive
      cases hrun : localEvent command intentToken (world.answers.tail.headD {}).ticks active with
      | error message after =>
        rw [bind_of_ok (attempt_of_failed (onActive_of_error hlater hrun))]
        exact failSessionGeneration_survives _
      | ok event after =>
        rw [hrun] at hedits
        rw [bind_of_ok (attempt_of_ok (onActive_of_ok hlater hrun))]
        exact publishLocalEvent_kept intentToken h hactive haddressed hedits rfl

theorem localEdit_kept (hpromises : L.EditPromises) (command : MusicOp)
    (intentToken : PerformanceIntentToken) {F : RoomSessionFoundation L → Prop}
    (hplay : InPlay F world.core) (h : Kept [] world.core) :
    Ends (fun _ => Kept []) Survives (localEdit command intentToken world) := by
  refine Ends.getTask ?_
  have hfallback : Ends (fun _ => Kept []) Survives
      (emit (.fallbackDurable command intentToken) world) := (emit_aside _).surviving h
  cases world.core.task.events with
  | none => exact Ends.fail (h.survives _)
  | some generation =>
    refine Ends.branch (fun _ => rejectIntent_kept _ _ h) fun _ => ?_
    refine Ends.branch (fun _ => rejectIntent_kept _ _ h) fun _ => ?_
    cases hselected : world.core.task.selected with
    | none => exact hfallback
    | some selected =>
      obtain ⟨peer,active⟩ := selected
      have hactive := (selected_eq_some.mp hselected).2
      refine Ends.branch (fun _ => hfallback) fun _ => ?_
      cases active.preflightLocalEvent with
      | error error => exact rejectIntent_kept _ _ h
      | ok _ =>
        exact sealLocalEdit_kept hpromises command intentToken hactive
          (hplay.active peer active hactive).2 h

end LocalEdit

section Through

/-- A session that is there has its projection shown exactly if it is the presented one and has
changed. -/
theorem selectChanged_through {peer : ActorId} {active : ActiveSession L}
    (hactive : world.core.task.active[peer]? = some active)
    (changed : Option RoomSessionProjectionKind) :
    Post (fun projected after => after = world ∧
        (projected ≠ [] ↔ world.core.task.presentationPeer = some peer ∧ changed ≠ none))
      (fun _ _ => False) (selectChanged peer changed world) := by
  cases changed with
  | none => exact ⟨rfl,by simp⟩
  | some kind =>
    simp only [selectChanged,selectProjection,getTask_bind,hactive]
    refine ⟨rfl,?_⟩
    split <;> simp_all

/-- Where every session takes the durable horizon over, no answer is used up, and there is
something to show exactly if the presented one of them has changed. -/
theorem eachSession_through (world : World L)
    {program : ActiveM L (Option RoomSessionProjectionKind)} {peers : List ActorId}
    (hnodup : peers.Nodup) (hall : RunsAll program world.core peers) :
    Post (fun projections after => after.answers = world.answers ∧ (projections ≠ [] ↔
        ∃ peer ∈ peers, ∃ active kind moved, world.core.task.selected = some (peer,active) ∧
          program active = .ok (some kind) moved))
      (fun _ _ => False) (eachSession program peers world) := by
  induction peers generalizing world with
  | nil => exact ⟨rfl,by simp⟩
  | cons peer rest ih =>
    obtain ⟨hpeer,hrest⟩ := List.nodup_cons.mp hnodup
    obtain ⟨⟨active,changed,after,hactive,hrun⟩,hothers⟩ := runsAll_cons.mp hall
    have hselected : ∀ other ∈ rest, ∀ found,
        (world.core.serves peer after).task.selected = some (other,found) ↔
          world.core.task.selected = some (other,found) := by
      intro other hother found
      have hne : peer ≠ other := by
        rintro rfl
        exact hpeer hother
      rw [selected_eq_some,selected_eq_some,getElem?_serves,if_neg hne]
      rfl
    have hmine : (world.core.serves peer after).task.active[peer]? = some after := by
      rw [getElem?_serves,if_pos rfl]
    simp only [eachSession]
    rw [bind_of_ok (onActive_of_ok hactive hrun)]
    refine Post.bind (selectChanged_through hmine changed) fun projected served hserved => ?_
    obtain ⟨rfl,hprojected⟩ := hserved
    refine Post.bind (ih ⟨world.core.serves peer after,world.answers⟩ hrest
      ((runsAll_serves hpeer).mpr hothers)) fun others last hlast => ?_
    obtain ⟨hanswers,hshows⟩ := hlast
    refine ⟨hanswers,?_⟩
    rw [ne_eq,List.append_eq_nil_iff,not_and_or,← ne_eq,← ne_eq,hprojected,hshows]
    constructor
    · rintro (⟨hpresented,hsome⟩ | ⟨other,hmem,found,kind,moved,hfound,hmoved⟩)
      · obtain ⟨kind,rfl⟩ := Option.ne_none_iff_exists'.mp hsome
        exact ⟨peer,List.mem_cons_self,active,kind,after,
          selected_eq_some.mpr ⟨hpresented,hactive⟩,hrun⟩
      · exact ⟨other,List.mem_cons_of_mem peer hmem,found,kind,moved,
          (hselected other hmem found).mp hfound,hmoved⟩
    · rintro ⟨other,hmem,found,kind,moved,hfound,hmoved⟩
      cases List.mem_cons.mp hmem with
      | inl hsame =>
        subst hsame
        obtain ⟨hpresented,hmine⟩ := selected_eq_some.mp hfound
        cases hactive.symm.trans hmine
        cases hrun.symm.trans hmoved
        exact .inl ⟨hpresented,by simp⟩
      | inr hlater =>
        exact .inr ⟨other,hlater,found,kind,moved,(hselected other hlater found).mpr hfound,hmoved⟩

/-- The confirmation is shown: its session is the presented one, or the presented one takes its
horizon over with a change. -/
def ShowsAdmission (core : Core L) (source : ActorId) (horizon : DurableHorizon L) : Prop :=
  core.task.presentationPeer = some source ∨ ShowsChange (advanceTo horizon) core

theorem showsAdmission_iff (core : Core L) (source : ActorId) (horizon : DurableHorizon L) :
    ShowsAdmission core source horizon ↔ core.task.presentationPeer = some source ∨
      ∃ peer ∈ core.task.companions source, ∃ active kind moved,
        core.task.selected = some (peer,active) ∧
          advanceTo horizon active = .ok (some kind) moved := by
  constructor
  · rintro (hpresented | ⟨peer,active,kind,moved,hselected,hmoved⟩)
    · exact .inl hpresented
    · by_cases hsame : peer = source
      · exact .inl (hsame ▸ (selected_eq_some.mp hselected).1)
      · refine .inr ⟨peer,?_,active,kind,moved,hselected,hmoved⟩
        rw [RoomSessionTask.companions,List.mem_filter,Std.ExtTreeMap.mem_keys,
          Std.ExtTreeMap.mem_iff_isSome_getElem?,(selected_eq_some.mp hselected).2]
        exact ⟨rfl,decide_eq_true hsame⟩
  · rintro (hpresented | ⟨peer,-,active,kind,moved,hselected,hmoved⟩)
    · exact .inl hpresented
    · exact .inr ⟨peer,active,kind,moved,hselected,hmoved⟩

/-- Where every companion takes the durable horizon over, a confirmation is published, with one
answer if it is shown. -/
theorem publishConfirmation_through {peer : ActorId} {active : ActiveSession L}
    (kind : RoomSessionProjectionKind) (ready : List (ReadyReification L))
    (intentToken : Option PerformanceIntentToken) (horizon : DurableHorizon L)
    (hactive : world.core.task.active[peer]? = some active)
    (hall : RunsAll (advanceTo horizon) world.core (world.core.task.companions peer)) :
    Post (fun _ after => ReflTransGen Aside world.core after.core ∧
        (ShowsAdmission world.core peer horizon → after.answers = world.answers.tail) ∧
        (¬ ShowsAdmission world.core peer horizon → after.answers = world.answers))
      (fun stop after => Survives stop after.core)
      (publishConfirmation peer kind ready intentToken horizon world) := by
  have hown : selectProjection peer kind world = .ok
      (if world.core.task.presentationPeer = some peer then [active.projectionEvent kind] else [])
      world := by
    simp only [selectProjection,getTask_bind,hactive]
    rfl
  refine Post.bind (R := fun projection (after : World L) =>
      ReflTransGen Aside world.core after.core ∧ after.answers = world.answers ∧
        (projection ≠ none ↔ ShowsAdmission world.core peer horizon)) ?_
    fun projection advanced hadvanced => ?_
  · unfold advanceCompanionsAndSelectProjection
    rw [bind_of_ok hown,getTask_bind]
    have hthrough := Post.and (eachSession_aside (advanceTo_stays horizon) _)
      (eachSession_through world (nodup_companions _ peer) hall)
    refine Post.bind (Post.mono hthrough (fun _ _ h => h) fun _ _ h => h.2.elim)
      fun projections last hlast => ?_
    obtain ⟨haside,hanswers,hshows⟩ := hlast
    refine ⟨haside,hanswers,?_⟩
    rw [showsAdmission_iff,← hshows,ne_eq,List.getLast?_eq_none_iff,List.append_eq_nil_iff,
      not_and_or]
    simp
  · obtain ⟨haside,hanswers,hshown⟩ := hadvanced
    have hupdates : Post (fun _ (after : World L) => ReflTransGen Aside advanced.core after.core ∧
        after.answers = advanced.answers) (fun _ _ => False)
        (updateFoundationHorizon horizon advanced) :=
      ⟨.single (.of_active rfl rfl rfl rfl rfl fun _ _ h => h),rfl⟩
    refine Post.bind (Post.mono hupdates (fun _ _ h => h) fun _ _ h => h.elim)
      fun _ updated hlater => ?_
    obtain ⟨hupdated,hsame⟩ := hlater
    have haside := haside.trans hupdated
    have hanswers := hsame.trans hanswers
    cases projection with
    | none =>
      have hsilent : ¬ ShowsAdmission world.core peer horizon := by simpa using hshown
      exact ⟨haside,fun hshows => absurd hshows hsilent,fun _ => hanswers⟩
    | some projection =>
      have hshows : ShowsAdmission world.core peer horizon := by simpa using hshown
      refine Post.mono (emitRealtimeOrFailGeneration_ends _) (fun _ after hafter => ?_)
        fun _ _ h => h
      exact ⟨haside.tail hafter.1,fun _ => hanswers ▸ hafter.2.1,
        fun hsilent => absurd hshows hsilent⟩

theorem publishConfirmation_kept (peer : ActorId) (kind : RoomSessionProjectionKind)
    (ready : List (ReadyReification L)) (intentToken : Option PerformanceIntentToken)
    (horizon : DurableHorizon L) (h : Kept [] world.core) :
    Ends (fun _ => Kept []) Survives
      (publishConfirmation peer kind ready intentToken horizon world) := by
  have hadvanced : Runs Aside (advanceCompanionsAndSelectProjection peer kind horizon) world := by
    refine Runs.bind (selectChanged_aside peer (some kind)) fun _ _ _ => Runs.getTask ?_
    exact Runs.bind (eachSession_aside (advanceTo_stays horizon) _) fun _ _ _ => Runs.pure _
  refine Ends.bind (hadvanced.surviving h) fun projection advanced hadvanced => ?_
  refine Ends.bind ((updateFoundationHorizon_aside horizon).surviving hadvanced)
    fun _ updated hupdated => ?_
  cases projection with
  | none => exact Ends.pure hupdated
  | some projection => exact emitRealtimeOrFailGeneration_kept _ hupdated

end Through

section Enqueueing

/-- None of the next so many effects is refused. -/
def AcceptsFirst (count : Nat) (answers : List EffectAnswer) : Prop :=
  ∀ answer ∈ answers.take count, ∀ message, answer.reply ≠ .refused message

theorem AcceptsFirst.head {count : Nat} {answers : List EffectAnswer}
    (h : AcceptsFirst (count+1) answers) (message : String) :
    (answers.headD {}).reply ≠ .refused message := by
  cases answers with
  | nil => simp
  | cons answer rest => exact h answer List.mem_cons_self message

theorem AcceptsFirst.tail {count : Nat} {answers : List EffectAnswer}
    (h : AcceptsFirst (count+1) answers) : AcceptsFirst count answers.tail := by
  cases answers with
  | nil => simp [AcceptsFirst]
  | cons answer rest => exact fun other hother => h other (List.mem_cons_of_mem answer hother)

theorem enqueueReification_kept {peer : ActorId} {session : RoomSessionEpochIdentity}
    (ready : ReadyReification L) (h : Kept (⟨session,readyDot ready⟩ :: taken) world.core)
    (hcurrent : SessionEdit.Current world.core ⟨session,readyDot ready⟩)
    (haccepts : ∀ message, (world.answers.headD {}).reply ≠ .refused message) :
    Post (fun _ after => Kept taken after.core ∧
        after.core.task.active = world.core.task.active ∧ after.answers = world.answers.tail)
      (fun stop _ => stop = .crash) (enqueueReification peer session ready world) := by
  obtain ⟨plan,command,intentToken⟩ := ready
  refine Post.bind (R := fun _ after => after = ⟨world.core.putsInflight session
    (L.planCorrelation plan),world.answers⟩) rfl fun _ added hadded => ?_
  subst hadded
  have hqueued : Kept taken ((world.core.putsInflight session (L.planCorrelation plan)).queues
      ⟨peer,session,plan,command,intentToken⟩) :=
    Kept.enqueues h hcurrent
  have hsent : Post (fun _ after => Kept taken after.core ∧
      after.core.task.active = world.core.task.active ∧ after.answers = world.answers.tail)
      (fun stop _ => stop = .crash) (sendReification ⟨peer,session,plan,command,intentToken⟩
        ⟨world.core.putsInflight session (L.planCorrelation plan),world.answers⟩) := by
    refine Post.bind (R := fun _ after => Kept taken after.core ∧
      after.core.task.active = world.core.task.active ∧ after.answers = world.answers.tail) ?_
      fun _ _ h => h
    unfold effect
    cases hreply : (world.answers.headD {}).reply with
    | accepted =>
      simp only [hreply]
      exact ⟨hqueued,rfl,rfl⟩
    | refused message => exact absurd hreply (haccepts message)
    | crash =>
      simp only [hreply]
      rfl
  refine Post.bind (Post.mono (Post.attempting hsent) (fun _ _ h => h) fun _ _ h => h.1)
    fun sent after hafter => ?_
  cases hafter with
  | inl hok =>
    obtain ⟨value,rfl,hok⟩ := hok
    exact hok
  | inr hfailed =>
    obtain ⟨message,-,hcrash⟩ := hfailed
    cases hcrash

/-- All edits that were let go are put in flight and queued. -/
theorem enqueueReificationsFor_kept {peer : ActorId} {session : RoomSessionEpochIdentity}
    {ready : List (ReadyReification L)}
    (h : Kept (ready.map fun reification => ⟨session,readyDot reification⟩) world.core)
    (hcurrent : ∀ dot, SessionEdit.Current world.core ⟨session,dot⟩)
    (haccepts : AcceptsFirst ready.length world.answers) :
    Post (fun _ after => Kept [] after.core) (fun stop _ => stop = .crash)
      (enqueueReificationsFor peer session ready world) := by
  induction ready generalizing world with
  | nil => exact h
  | cons first rest ih =>
    refine Post.bind (enqueueReification_kept first h (hcurrent _) haccepts.head)
      fun _ after ⟨hkept,hactive,hanswers⟩ => ?_
    refine ih hkept (fun dot => ?_) (hanswers ▸ haccepts.tail)
    rw [SessionEdit.Current,hactive]
    exact hcurrent dot

end Enqueueing

section Admissions

/-- The program confirms an edit that is in flight, or refuses to, and nothing else moves. -/
def Confirms (release : TaskM L Unit) (awaited : Prop) (core : Core L) : Prop :=
  ∀ (world : World L) (taken : List SessionEdit),
    world.core.task.inflightReifications = core.task.inflightReifications →
    Kept taken world.core → Post (fun _ after => Kept taken after.core ∧
        after.core.task.active = world.core.task.active ∧
        after.core.task.presentationPeer = world.core.task.presentationPeer ∧
        after.answers = world.answers)
      (fun _ after => Kept taken after.core ∧ ¬ awaited) (release world)

/-- Nothing fails while these edits go on their way: the planner comes through all waiting edits,
the confirmed edit is in flight, every companion takes the horizon over, and the queue accepts each
send, which comes after the projection if there is one. -/
structure GoesThrough (core : Core L) (source : ActorId) (horizon : DurableHorizon L)
    (awaited : Prop) (answers : List EffectAnswer) (planned : List SessionDot × Bool) : Prop where
  whole : planned.2 = true
  awaited : awaited
  companions : RunsAll (advanceTo horizon) core (core.task.companions source)
  shown : ShowsAdmission core source horizon → AcceptsFirst planned.1.length answers.tail
  silent : ¬ ShowsAdmission core source horizon → AcceptsFirst planned.1.length answers

/-- Where the planner plans waiting edits after an admission is recorded, they all go on their
way. -/
def AdmissionReifies (core : Core L) (source : ActorId)
    (record : L.SessionAdmission → ActiveM L L.SessionAdmission) (admitted : AdmittedEntry L)
    (awaited : Prop) (answers : List EffectAnswer) : Prop :=
  ∀ active kind taken, core.task.active[source]? = some active →
    recordAndConfirm record admitted active = .ok kind taken → taken.plannable.1 ≠ [] →
      GoesThrough core source admitted.horizon awaited answers taken.plannable

theorem showsAdmission_serves {core : Core L} {source : ActorId} (after : ActiveSession L)
    (horizon : DurableHorizon L) :
    ShowsAdmission (core.serves source after) source horizon ↔
      ShowsAdmission core source horizon := by
  by_cases hpresented : core.task.presentationPeer = some source
  · exact ⟨fun _ => .inl hpresented,fun _ => .inl hpresented⟩
  · rw [ShowsAdmission,ShowsAdmission,ShowsChange,ShowsChange,selected_serves_other _ hpresented]
    rfl

theorem ShowsAdmission.congr {before after : Core L} {source : ActorId}
    {horizon : DurableHorizon L} (hactive : after.task.active = before.task.active)
    (hpresentation : after.task.presentationPeer = before.task.presentationPeer) :
    ShowsAdmission after source horizon ↔ ShowsAdmission before source horizon := by
  simp only [ShowsAdmission,ShowsChange,RoomSessionTask.selected,hactive,hpresentation]

theorem Kept.lets {core : Core L} {peer : ActorId} {active after : ActiveSession L}
    {ready : List (ReadyReification L)} (h : Kept [] core)
    (hactive : core.task.active[peer]? = some active) (haddressed : active.foundation.peer = peer)
    (hout : LetsOut active ready after) :
    Kept (ready.map fun reification => ⟨after.identity,readyDot reification⟩)
      (core.serves peer after) := by
  have hidentity : after.identity = active.identity := hout.lets.continues.keeps.identity
  have hpasses := Passes.serves hactive (fun _ => haddressed) hout.lets
  have haccounted := h.accounted.passes hpasses (fun edit hmem => ?_)
    (hout.once.map fun first second hsame => (SessionEdit.mk.inj hsame).2)
  · rw [List.append_nil,List.map_map] at haccounted
    rw [hidentity]
    exact ⟨haccounted,h.standing.upholds (.serves hactive hout.lets.continues)⟩
  · obtain ⟨dot,hdot,rfl⟩ := List.mem_map.mp hmem
    have hpeer : active.identity.peer = peer := haddressed
    exact ⟨active,hpeer ▸ hactive,rfl,hout.waiting dot hdot⟩

/-- Where nothing fails, the confirmation is published and the queue accepts what comes next. -/
theorem GoesThrough.publishes {peer : ActorId} {horizon : DurableHorizon L} {awaited : Prop}
    {core : Core L} {answers : List EffectAnswer} {planned : List SessionDot × Bool}
    (h : GoesThrough core peer horizon awaited answers planned) {active after : ActiveSession L}
    (hactive : core.task.active[peer]? = some active)
    (hsessions : world.core.task.active = (core.serves peer after).task.active)
    (hpresentation : world.core.task.presentationPeer = core.task.presentationPeer)
    (hanswers : world.answers = answers) (kind : RoomSessionProjectionKind)
    (ready : List (ReadyReification L)) (intentToken : Option PerformanceIntentToken) :
    Post (fun _ published => ReflTransGen Aside world.core published.core ∧
        AcceptsFirst planned.1.length published.answers)
      (fun stop after => Survives stop after.core)
      (publishConfirmation peer kind ready intentToken horizon world) := by
  have hmine : world.core.task.active[peer]? = some after := by
    rw [hsessions,getElem?_serves,if_pos rfl]
  have hcompanions : world.core.task.companions peer = core.task.companions peer := by
    rw [RoomSessionTask.companions,hsessions]
    exact companions_serves hactive
  have hall : RunsAll (advanceTo horizon) world.core (world.core.task.companions peer) := by
    rw [hcompanions,RunsAll.congr hsessions,runsAll_serves (not_mem_companions _ _)]
    exact h.companions
  have hshows : ShowsAdmission world.core peer horizon ↔ ShowsAdmission core peer horizon := by
    rw [ShowsAdmission.congr hsessions hpresentation,showsAdmission_serves]
  refine Post.mono (publishConfirmation_through kind ready intentToken horizon hmine hall)
    (fun _ published hpublished => ?_) fun _ _ h => h
  obtain ⟨haside,htail,hsame⟩ := hpublished
  refine ⟨haside,?_⟩
  by_cases hshow : ShowsAdmission core peer horizon
  · rw [htail (hshows.mpr hshow),hanswers]
    exact h.shown hshow
  · rw [hsame fun hagain => hshow (hshows.mp hagain),hanswers]
    exact h.silent hshow

theorem enqueueReifications_none {peer : ActorId} (h : Kept [] world.core) :
    Ends (fun _ => Kept []) Survives (enqueueReifications peer [] world) := by
  refine Ends.getTask ?_
  cases world.core.task.active[peer]? with
  | none => exact Ends.fail (h.survives _)
  | some later => exact Ends.pure h

theorem enqueueReifications_kept {session : RoomSessionEpochIdentity}
    {ready : List (ReadyReification L)}
    (hcurrent : world.core.task.active[session.peer]?.map ActiveSession.identity = some session)
    (h : Kept (ready.map fun reification => ⟨session,readyDot reification⟩) world.core)
    (haccepts : AcceptsFirst ready.length world.answers) :
    Ends (fun _ => Kept []) Survives (enqueueReifications session.peer ready world) := by
  obtain ⟨later,hlater,rfl⟩ := Option.map_eq_some_iff.mp hcurrent
  refine Ends.getTask ?_
  rw [hlater]
  exact Post.mono (enqueueReificationsFor_kept h (fun dot => ⟨later,hlater,rfl⟩) haccepts)
    (fun _ _ h => h) fun stop _ hcrash => hcrash ▸ survives_crash _

theorem finishAdmission_kept {peer : ActorId} {release : TaskM L Unit} {awaited : Prop}
    {core : Core L} {answers : List EffectAnswer} {active after : ActiveSession L}
    {ready : List (ReadyReification L)} (kind : RoomSessionProjectionKind)
    (intentToken : Option PerformanceIntentToken) (horizon : DurableHorizon L)
    (hrelease : Confirms release awaited core) (h : Kept [] core)
    (hactive : core.task.active[peer]? = some active) (haddressed : active.foundation.peer = peer)
    (hout : LetsOut active ready after)
    {planned : List SessionDot × Bool} (hplanned : ready.map readyDot = planned.1)
    (hthrough : planned.1 ≠ [] → GoesThrough core peer horizon awaited answers planned) :
    Ends (fun _ => Kept []) Survives (finishAdmission peer release intentToken horizon (ready,kind)
      ⟨core.serves peer after,answers⟩) := by
  have hreleased := hrelease ⟨core.serves peer after,answers⟩ _ rfl (h.lets hactive haddressed hout)
  by_cases hready : ready = []
  · subst hready
    refine Post.bind (Post.mono hreleased (fun _ _ h => h) fun stop _ h => h.1.survives stop)
      fun _ released hlater => ?_
    refine Ends.bind (publishConfirmation_kept peer kind [] intentToken horizon hlater.1)
      fun _ published hpublished => ?_
    exact Ends.bind (enqueueReifications_none hpublished) fun _ _ hqueued =>
      startReadyRenewals_aside.surviving hqueued
  · have hgoes := hthrough fun hnone => hready (List.map_eq_nil_iff.mp (hplanned.trans hnone))
    refine Post.bind (Post.mono hreleased (fun _ _ h => h) fun _ _ h => absurd hgoes.awaited h.2)
      fun _ released hlater => ?_
    obtain ⟨hkept,hsessions,hpresentation,hanswers⟩ := hlater
    refine Post.bind
      (hgoes.publishes hactive hsessions hpresentation hanswers kind ready intentToken)
      fun _ published hpublished => ?_
    have hpeer : after.identity.peer = peer :=
      (hout.lets.continues.keeps.identity ▸ haddressed : after.identity.peer = peer)
    have hcurrent : published.core.task.active[peer]?.map ActiveSession.identity =
        some after.identity :=
      current_asides hpublished.1 (by rw [hsessions,getElem?_serves,if_pos rfl]; rfl)
    have hlength : ready.length = planned.1.length := by rw [← hplanned,List.length_map]
    refine Ends.bind (R := fun _ => Kept []) ?_ fun _ _ hqueued =>
      startReadyRenewals_aside.surviving hqueued
    rw [← hpeer] at hcurrent ⊢
    exact enqueueReifications_kept hcurrent (hkept.asides hpublished.1)
      (hlength.symm ▸ hpublished.2)

theorem admission_kept (hpromises : L.EditPromises) {peer : ActorId} {missing : String}
    {record : L.SessionAdmission → ActiveM L L.SessionAdmission}
    (hrecord : ∀ replica, Stays (LetsGo []) (record replica)) (admitted : AdmittedEntry L)
    {release : TaskM L Unit} {awaited : Prop} (intentToken : Option PerformanceIntentToken)
    (hrelease : Confirms release awaited world.core) {F : RoomSessionFoundation L → Prop}
    (hplay : InPlay F world.core) (h : Kept [] world.core)
    (hreifies : AdmissionReifies world.core peer record admitted awaited world.answers) :
    Ends (fun _ => Kept []) Survives ((onActive peer missing (takeAdmission record admitted) >>=
      finishAdmission peer release intentToken admitted.horizon) world) := by
  cases hactive : world.core.task.active[peer]? with
  | none =>
    rw [bind_of_error (onActive_missing hactive)]
    exact h.survives _
  | some active =>
    have htaken := takeAdmission_ends hpromises hrecord admitted
      fun kind taken hrecorded hsome => (hreifies active kind taken hactive hrecorded hsome).whole
    cases hrun : takeAdmission record admitted active with
    | error message after =>
      rw [hrun] at htaken
      rw [bind_of_error (onActive_of_error hactive hrun)]
      exact (h.aside (.serves hactive htaken)).survives _
    | ok finished after =>
      obtain ⟨ready,kind⟩ := finished
      rw [hrun] at htaken
      obtain ⟨hout,recorded,taken,hrecorded,hplanned⟩ := htaken
      rw [bind_of_ok (onActive_of_ok hactive hrun)]
      exact finishAdmission_kept kind intentToken admitted.horizon hrelease h hactive
        (hplay.active peer active hactive).2 hout hplanned
        (hreifies active recorded taken hactive hrecorded)

theorem removeInflight_confirms (commit : LocalCommit L) (core : Core L) :
    Confirms (removeInflightReification commit.session commit.plan) (commit.InFlight core)
      core := by
  intro world taken hsame h
  have hinflight : commit.InFlight core ↔ commit.InFlight world.core := by
    rw [LocalCommit.InFlight,LocalCommit.InFlight,hsame]
  rw [hinflight]
  simp only [removeInflightReification,getTask_bind]
  cases hfound : world.core.task.inflightReifications[commit.session]? with
  | none =>
    refine ⟨h,?_⟩
    rintro ⟨inflight,hinflight,-⟩
    cases hfound.symm.trans hinflight
  | some inflight =>
    refine Post.refuseIf (fun habsent => ⟨h,?_⟩) fun hpresent => ?_
    · rintro ⟨found,hinflight,hmem⟩
      cases hfound.symm.trans hinflight
      exact habsent hmem
    · exact ⟨h.releases hfound (not_not.mp hpresent),rfl,rfl,rfl⟩

theorem pure_confirms (core : Core L) : Confirms (Pure.pure () : TaskM L Unit) True core :=
  fun _ _ _ h => ⟨h,rfl,rfl,rfl⟩

/-- An edit of this side is confirmed without another being lost. -/
def CommitReifies (core : Core L) (commit : LocalCommit L) (answers : List EffectAnswer) : Prop :=
  commit.ForActive core → AdmissionReifies core commit.peer
    (recordPlanned commit.plan commit.admitted.entry) commit.admitted (commit.InFlight core) answers

theorem confirmLocal_kept (hpromises : L.EditPromises) (commit : LocalCommit L)
    {F : RoomSessionFoundation L → Prop} (hplay : InPlay F world.core) (h : Kept [] world.core)
    (hreifies : CommitReifies world.core commit world.answers) :
    Ends (fun _ => Kept []) Survives (confirmLocal commit world) := by
  refine Ends.getTask <| Ends.branch (fun hactive => ?_) fun _ => ?_
  · exact admission_kept hpromises (recordPlanned_stays _ _) commit.admitted commit.intentToken
      (removeInflight_confirms commit world.core) hplay h (hreifies hactive)
  · have hretired : world.core.task.retired[commit.session]? = none := by
      rw [hplay.retired]
      exact Std.ExtTreeMap.getElem?_empty
    refine Ends.bind (R := fun _ _ => False) ?_ fun _ _ h => h.elim
    simp only [onRetired,getTask_bind,hretired]
    exact Ends.fail (h.survives _)

/-- An admission of the replica is observed without an edit being lost. -/
def ObserveReifies (core : Core L) (admitted : AdmittedEntry L) (answers : List EffectAnswer) :
    Prop :=
  ∀ manifest peer, L.isReifiedCommand admitted.entry = true →
    L.reifiedManifest admitted.entry = .ok manifest →
    core.task.peerOfManifest manifest = some peer →
      AdmissionReifies core peer (recordObserved admitted.entry) admitted True answers

theorem observe_kept (hpromises : L.EditPromises) (admitted : AdmittedEntry L)
    {F : RoomSessionFoundation L → Prop} (hplay : InPlay F world.core) (h : Kept [] world.core)
    (hreifies : ObserveReifies world.core admitted world.answers) :
    Ends (fun _ => Kept []) Survives (observe admitted world) := by
  refine Ends.branch (fun hreified => ?_) fun _ => Ends.pure h
  refine Ends.check (fun manifest hmanifest => Ends.getTask ?_) fun _ _ => h.survives _
  cases hpeer : world.core.task.peerOfManifest manifest with
  | none => exact (advanceAll_aside _).surviving h
  | some peer =>
    exact admission_kept hpromises (recordObserved_stays _) admitted none
      (pure_confirms world.core) hplay h (hreifies manifest peer hreified hmanifest hpeer)

end Admissions

end WalkieSongie.Session
