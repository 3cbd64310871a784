import WalkieSongie.SessionRuns
set_option autoImplicit false

/-!
Refused Answers: an Answer uses up the pending offer of its source before anything of it is
checked, so a refused one leaves the task unchanged only where there was no offer to use up.
-/

namespace WalkieSongie.Session
open TaskProgram Relation

variable {L : SessionLibrary}

/-- The two tasks have the same offers, sessions, reifications in flight and floors. -/
structure SameSessions (before after : RoomSessionTask L) : Prop where
  pending : after.pending = before.pending
  active : after.active = before.active
  retired : after.retired = before.retired
  inflight : after.inflightReifications = before.inflightReifications
  floors : after.renewalFloors = before.renewalFloors

theorem SameSessions.refl (task : RoomSessionTask L) : SameSessions task task :=
  ⟨rfl,rfl,rfl,rfl,rfl⟩

section Reoffered

variable {source : ActorId} {current : RoomSessionFoundation L}

/-- Any offer there now is for the peer is made over this foundation and the cached floor, where
nothing local is owed to the peer. -/
def Reoffered (source : ActorId) (current : RoomSessionFoundation L) (core : Core L) : Prop :=
  ∀ pending, core.task.pending[source]? = some pending →
    pending.manifest.base = L.frontier current.history ∧
      core.task.renewalFloors[source]? = some pending.renewalFloor ∧
      core.task.incomingRenewalHasLocalObligations source = false

theorem Renews.reoffered {before after : Core L}
    (hmove : Renews (fun foundation => foundation.peer = source → foundation = current)
      before after) (h : Reoffered source current before) :
    Reoffered source current after := by
  cases hmove with
  | @recovered foundation floor hfoundation habsent hload =>
    intro pending hpending
    obtain ⟨hbase,hfloor,hobligations⟩ := h pending hpending
    refine ⟨hbase,?_,hobligations⟩
    simp only [Core.cachesFloor,Core.mapTask,Std.ExtTreeMap.getElem?_insert]
    split
    · rename_i hpeer
      rw [Std.LawfulEqOrd.eq_of_compare hpeer,hfloor] at habsent
      cases habsent
    · exact hfloor
  | @proposed foundation floor epoch sessionId secret made hfoundation hpending hrecovery
      hwait hfloor hepoch hoffer =>
    intro pending hfound
    simp only [Core.proposes,Core.mapTask,Std.ExtTreeMap.getElem?_insert] at hfound
    split at hfound
    · rename_i hpeer
      have hsource := Std.LawfulEqOrd.eq_of_compare hpeer
      cases hfound
      have hmade := buildOffer_ok hoffer
      rw [← hfoundation hsource]
      refine ⟨(buildManifest_ok hmade.manifest).2,?_,?_⟩
      · rw [hmade.floored,← hsource]
        exact hfloor
      · rw [← hsource]
        simp only [RoomSessionTask.incomingRenewalHasLocalObligations,Bool.or_eq_false_iff]
        exact ⟨hwait,hrecovery⟩
    · exact h pending hfound
  | offered hpending => exact h
  | traced trace => exact h
  | noted => exact h

theorem RenewsMany.reoffered {before after : Core L}
    (hmoves : RenewsMany (fun foundation => foundation.peer = source → foundation = current)
      before after) (h : Reoffered source current before) :
    Reoffered source current after := by
  induction hmoves with
  | refl => exact h
  | tail _ hlast ih => exact hlast.reoffered ih

theorem InPlay.renewable_at {F : RoomSessionFoundation L → Prop} {core : Core L}
    (h : InPlay F core) (hcurrent : core.task.foundations.entries[source]? = some current) :
    Renewable (fun foundation => foundation.peer = source → foundation = current) core where
  founded peer foundation hfound hpeer := by
    rw [← core.task.foundations.keyed peer foundation hfound,hpeer,hcurrent] at hfound
    exact (Option.some.inj hfound).symm
  active peer active hactive hnone hpeer := by
    rw [← (h.active peer active hactive).2,hpeer,hcurrent] at hnone
    cases hnone

end Reoffered

/-- An Answer that finds a pending offer and is then refused does not leave it in place. -/
theorem prepareAnswer_loses {F : RoomSessionFoundation L → Prop} {answer : AnswerBody L}
    {world : World L} (h : InPlay F world.core) {pending : PendingSession L}
    (hpending : world.core.task.pending[answer.source]? = some pending) :
    Ends (fun _ _ => True) (fun _ core => ¬ SameSessions world.core.task core.task)
      (prepareAnswer answer world) := by
  have hlost : ∀ core : Core L, core.task.pending[answer.source]? = none →
      ¬ SameSessions world.core.task core.task := by
    intro core hnone hsame
    rw [hsame.pending,hpending] at hnone
    cases hnone
  refine Ends.bind (R := fun taken core => taken = pending ∧
    core = world.core.drops answer.source) ?_ fun taken dropped ⟨htaken,hdropped⟩ => ?_
  · refine Ends.getTask ?_
    simp only [hpending]
    exact Ends.bind (R := fun _ core => core = world.core.drops answer.source)
      (Ends.modifyTask rfl) fun _ _ h => Ends.pure ⟨rfl,h⟩
  subst htaken
  have hnone : dropped.core.task.pending[answer.source]? = none := by
    rw [hdropped]
    exact Std.ExtTreeMap.getElem?_erase_self
  refine Ends.check (fun (remoteFoundation,keys) _ => Ends.getTask ?_) fun _ _ => hlost _ hnone
  cases hcurrent : dropped.core.task.foundations.entries[answer.source]? with
  | none => exact Ends.fail (hlost _ hnone)
  | some current =>
    refine Ends.branch (fun houtgrown => ?_) fun _ => ?_
    · refine Ends.bind (R := fun _ core => core = dropped.core.notes
        (dropped.core.task.renewalNeeded.insert answer.source)
        dropped.core.task.renewalTestCutConsumed) (Ends.modifyTask rfl)
        fun _ needed hneeded => ?_
      have hplay : InPlay F needed.core := by
        rw [hneeded,hdropped]
        exact ⟨h.founded,(h.drops _).pending,h.active,h.retired⟩
      have hstart : Reoffered answer.source current needed.core := fun found hfound => by
        rw [hneeded] at hfound
        exact absurd (hnone.symm.trans hfound) (by simp)
      refine Ends.bind (R := fun _ _ => True) (Ends.mono (startReadyRenewals_renews
        (hplay.renewable_at (by rw [hneeded]; exact hcurrent))) (fun _ _ _ => trivial) ?_)
        fun _ _ _ => Ends.pure trivial
      intro stop core hrenews hsame
      -- An offer that is still there was made anew, so nothing the old one was outgrown by holds.
      obtain ⟨hbase,hfloor,hobligations⟩ := hrenews.reoffered hstart taken
        (by rw [hsame.pending]; exact hpending)
      simp only [RoomSessionTask.incomingRenewalHasLocalObligations,
        RoomSessionTask.hasLocalReificationWait,RoomSessionTask.peerHasRecoveryWork,hsame.active,
        hsame.retired,hsame.inflight] at hobligations
      rw [hsame.floors] at hfloor
      rw [hdropped] at houtgrown
      refine absurd houtgrown (Bool.eq_false_iff.mp ?_)
      simp only [RoomSessionTask.outgrown,Bool.or_eq_false_iff,decide_eq_false_iff_not,ne_eq,
        not_not]
      refine ⟨⟨⟨hbase.symm,?_⟩,?_⟩,?_⟩
      · exact (Bool.or_eq_false_iff.mp hobligations).1
      · exact (Bool.or_eq_false_iff.mp hobligations).2
      · exact congrArg Option.join hfloor
    · exact Ends.check (fun _ _ => Ends.pure trivial) fun _ _ => hlost _ hnone

/-- In every state a worker can be in, an Answer that is refused before its session would be
installed leaves offers, sessions, reifications in flight and floors as they were exactly where
its source had no pending offer. -/
theorem refused_answer_keeps_sessions_iff
    (store : RoomSessionRenewalKey → Option L.FloorBytes) (events : List (WorkerEvent L))
    (answer : AnswerBody L) (answers : List EffectAnswer) (message : String) (after : World L)
    (h : prepareAnswer answer ⟨Core.run { store := store } events,answers⟩ =
      .error (.failed message) after) :
    carrier (.answer answer) ⟨Core.run { store := store } events,answers⟩ =
        .error (.failed message) after ∧
      (SameSessions (Core.run { store := store } events).task after.core.task ↔
        (Core.run { store := store } events).task.pending[answer.source]? = none) := by
  generalize hcore : Core.run { store := store } events = core at h ⊢
  have hplay : InPlay (fun _ => True) core := by
    rw [← hcore]
    refine (Core.run_induct (G := fun _ => True) (I := fun _ => True) (fun _ _ _ _ h => h)
      (fun _ _ _ _ _ => trivial) (fun _ _ => trivial) (InPlay.restart { store := store }) trivial
      fun event _ => ?_).1
    unfold WorkerEvent.Within RoomSessionTaskInput.Within
    split
    · split <;> simp
    · trivial
  refine ⟨?_,fun hsame => ?_,fun hnone => ?_⟩
  · simp only [carrier,carrierAnswer,bind,EStateM.bind,h]
  · cases hpending : core.task.pending[answer.source]? with
    | none => rfl
    | some pending =>
      have hloses : Ends (fun _ _ => True) (fun _ later => ¬ SameSessions core.task later.task)
          (prepareAnswer answer ⟨core,answers⟩) := prepareAnswer_loses hplay hpending
      rw [h] at hloses
      exact absurd hsame hloses
  · have hkeeps : Ends (fun _ _ => True) (fun _ later => later = core)
        (prepareAnswer answer ⟨core,answers⟩) := by
      have htaken : Ends (fun pending _ => core.task.pending[answer.source]? = some pending)
          (fun _ later => later = core) (takePending answer.source ⟨core,answers⟩) :=
        Ends.mono takePending_ends (fun _ _ h => h.1) fun _ _ h => h
      refine Ends.bind htaken fun pending _ hpending => ?_
      rw [hnone] at hpending
      cases hpending
    rw [h] at hkeeps
    rw [show after.core = core from hkeeps]
    exact .refl core.task

section WrongSession

def offeredTo2 : Core plainLibrary :=
  Core.run { store := fun _ => none } [plainConfigure,plainStart 1 2 5 0 77]

def answeredBy2 : Core plainLibrary :=
  Core.run {} ([plainConfigure,plainStart 2 1 5 0 88] ++
    offeredTo2.frames.map fun offer => plainDeliver offer [])

/-- An Answer in actor 2's name to another session, with nothing else in it. -/
def answerTo78 : AnswerBody plainLibrary where
  source := 2
  target := 1
  sessionId := 78
  grants := []
  handshake := (0,0)
  foundation := (0,[],0,⟨0,0,[],0,∅⟩,∅)

def afterAnswerTo78 : World plainLibrary :=
  match prepareAnswer answerTo78 ⟨offeredTo2,[]⟩ with
  | .ok _ after | .error _ after => after

theorem answerTo78_refused : prepareAnswer answerTo78 ⟨offeredTo2,[]⟩ =
    .error (.failed "session answer targets another actor or handshake") afterAnswerTo78 := rfl

/-- The refused Answer has used up the offer, and the genuine Answer is not installed after it. -/
theorem wrong_session_answer_drops_offer :
    prepareAnswer answerTo78 ⟨offeredTo2,[]⟩ =
        .error (.failed "session answer targets another actor or handshake") afterAnswerTo78 ∧
      offeredTo2.task.pending.keys = [2] ∧ afterAnswerTo78.core.task.pending.keys = [] ∧
      (offeredTo2.run (answeredBy2.frames.map fun answer =>
        plainDeliver answer [])).task.active.keys = [2] ∧
      (afterAnswerTo78.core.run (answeredBy2.frames.map fun answer =>
        plainDeliver answer [])).task.active.keys = [] :=
  ⟨answerTo78_refused,by decide,by decide,by decide,by decide⟩

theorem refused_answer_keeps_sessions_iff_answerTo78 :
    SameSessions offeredTo2.task afterAnswerTo78.core.task ↔ offeredTo2.task.pending[2]? = none :=
  (refused_answer_keeps_sessions_iff (fun _ => none) [plainConfigure,plainStart 1 2 5 0 77]
    answerTo78 [] _ afterAnswerTo78 answerTo78_refused).2

end WrongSession

end WalkieSongie.Session
