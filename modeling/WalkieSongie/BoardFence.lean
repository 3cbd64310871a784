import WalkieSongie.BoardConvergence
set_option autoImplicit false

/-!
The continuity fence over the board's own edit: what the bridge sends to the board while the edit
is under way to the room. The fence looks at pending pitch classes alone, and an edit has settings
as well.
-/

namespace WalkieSongie.Bridge

variable {M : MusicLibrary}

/-- An edit of the board that the transport accepted, with the pattern it was planned against. -/
structure BoardEdit (M : MusicLibrary) where
  token : Nat
  config : RoundTableConfig M
  settings : Option (RoundTableConfig M)
  pitchEdits : List (TunedPeriodicPitch × Bool)
  base : M.Pattern

namespace BoardEdit

/-- The edit changes one of the twelve classes from note 48 up. -/
def Changes (edit : BoardEdit M) (pitchClass : Nat) : Prop :=
  pitchClass < 12 ∧
    M.contains edit.base (48+pitchClass) ≠ M.contains edit.config.pattern (48+pitchClass)

/-- A configuration with the settings of the edit, where it changed them, and with the edit's
level in every class it changed. -/
def Agrees (edit : BoardEdit M) (config : RoundTableConfig M) : Prop :=
  (∀ settings, edit.settings = some settings → settingsOnly config = settings) ∧
    ∀ pitchClass, edit.Changes pitchClass →
      M.contains config.pattern (48+pitchClass) = M.contains edit.config.pattern (48+pitchClass)

/-- The room's published set and settings contain the edit. -/
def contained (edit : BoardEdit M) (pitches : BridgePitchState M) : Bool :=
  (edit.pitchEdits.all fun asked => containsClass pitches.room (sharedDegree asked.1) = asked.2) &&
    edit.settings.all fun settings => settingsOnly pitches.roomConfig = settings

def endedBy (edit : BoardEdit M) : TransportEvent M → Bool
  | .roomLink link => link ≠ .ready
  | .roomSelected _ => true
  | .boardLink link => link ≠ .ready
  | .pitchIntentOutcome token (.rejected _) => token = edit.token
  | .pitchIntentReset throughToken => edit.token ≤ throughToken
  | _ => false

end BoardEdit

def RoundTableFrame.boardConfig : RoundTableFrame M → Option (RoundTableConfig M)
  | .run shown => some shown
  | .config shown => some shown
  | _ => none

/-- The worker, with the last board edit that is still under way. -/
structure FencedRun (M : MusicLibrary) where
  worker : Worker M := {}
  edit : Option (BoardEdit M) := none

namespace FencedRun

/-- The edit that a board frame has made between two states of the worker. -/
def newEdit (before after : Worker M) : BridgeInput M → Option (BoardEdit M)
  | .transport _ (.boardRoundTable frame) =>
      match frame.boardConfig,after.calls with
      | some config,(.command (.publishBoardEdit token _ settings pitchEdits),none) :: calls =>
          if calls.length = before.calls.length then
            some ⟨token,config,settings,pitchEdits,before.pitches.roomPattern⟩
          else none
      | _,_ => none
  | _ => none

def keptEdit (edit : Option (BoardEdit M)) : BridgeInput M → Option (BoardEdit M)
  | .transport _ event => edit.filter fun edit => !edit.endedBy event
  | _ => edit

variable (transport : Transport M)

/-- An edit is under way until it is rejected, abandoned, superseded by another or contained in
what the room has published. -/
def step (run : FencedRun M) (input : BridgeInput M) : FencedRun M :=
  let after := run.worker.after (Worker.input transport input)
  let edit := (newEdit run.worker after input).or (keptEdit run.edit input)
  { worker := after, edit := edit.filter fun edit => !edit.contained after.pitches }

def steps (run : FencedRun M) (inputs : List (BridgeInput M)) : FencedRun M :=
  inputs.foldl (step transport) run

/-- Whenever the pass ends, what is sent to the board agrees with the edit under way. -/
def Fenced (run : FencedRun M) : Prop :=
  ∀ now frame answer, (run.worker.after (Worker.sendBoardTarget transport now)).calls =
      (.command (.sendBoardRoundTable frame),answer) :: run.worker.calls →
    ∀ edit, run.edit = some edit → ∀ config, frame.boardConfig = some config → edit.Agrees config

def stagedFrom (pitches : BridgePitchState M) : TransportEvent M → Option (BridgePitchState M)
  | .roomLink link =>
      if link = .ready then none else some pitches.abandonPitchIntents.clearBoardTarget
  | .roomSelected _ => some pitches.abandonPitchIntents.clearBoardTarget
  | .boardLink link => if link = .ready then some pitches.forgetBoard else none
  | .boardRoundTable (.configSnapshot revision config) =>
      if pitches.boardSnapshotRevision.any (revision ≤ ·) = true ∨
        pitches.boardTarget.isSome = true ∨
          pitches.boardConfirmed = some config then none
      else some { pitches with
        boardSnapshotRevision := some revision
        boardConfirmed := some config }
  | .pitchIntentOutcome token (.rejected _) => some (pitches.rejectPitchIntent token)
  | .pitchIntentReset throughToken => some (pitches.abandonPitchIntentsThrough throughToken)
  | .roomPitchSet shared =>
      if pitches.room = shared then none else some (pitches.applyConfirmedRoom shared).2
  | .roundTable frame => some (pitches.applyRoundTable frame)
  | _ => none

/-- The event stages the board behind the fence: a class is still pending, or the board shows the
room's configuration already, or that configuration agrees with the edit under way. -/
def Keeps (run : FencedRun M) : BridgeInput M → Prop
  | .transport now event => ∀ staged, stagedFrom run.worker.pitches event = some staged →
      ∀ edit, (run.step transport (.transport now event)).edit = some edit →
        staged.hasPendingPitchIntent = true ∨
          (staged.boardConfirmed = some staged.boardConfig ∧ staged.boardTarget = none) ∨
          edit.Agrees staged.boardConfig
  | _ => True

def RunKeeps (run : FencedRun M) : List (BridgeInput M) → Prop
  | [] => True
  | input :: rest => run.Keeps transport input ∧ (run.step transport input).RunKeeps rest

end FencedRun

section Steps

variable {transport : Transport M}

namespace Worker

theorem sends_target {worker : Worker M} {target : RoundTableConfig M}
    (h : worker.pitches.boardTarget = some target) : ∃ now answer,
      (worker.after (sendBoardTarget transport now)).calls =
        (.command (.sendBoardRoundTable (.config target)),answer) :: worker.calls := by
  refine ⟨worker.pitches.boardRetryAt.getD 0,
    transport worker.calls (.command (.sendBoardRoundTable (.config target))),?_⟩
  have hdue : ¬ (worker.pitches.boardRetryAt.any
      (worker.pitches.boardRetryAt.getD 0 < ·)) = true := by
    cases worker.pitches.boardRetryAt <;> simp
  simp only [after,sendBoardTarget,BridgePitchState.boardTargetDue,h]
  rw [if_neg hdue]
  rfl

theorem sends_only_target {worker : Worker M} {now : Nat} {frame : RoundTableFrame M}
    {answer : Option BridgeError}
    (h : (worker.after (sendBoardTarget transport now)).calls =
      (.command (.sendBoardRoundTable frame),answer) :: worker.calls) :
    ∃ target, worker.pitches.boardTarget = some target ∧ frame = .config target := by
  simp only [after,sendBoardTarget,BridgePitchState.boardTargetDue] at h
  have hlength : ∀ call : TransportCall M × Option BridgeError, worker.calls ≠
      call :: worker.calls := fun call hsame => by
    have := congrArg List.length hsame
    simp at this
  cases htarget : worker.pitches.boardTarget with
  | none =>
    rw [htarget] at h
    exact absurd h (hlength _)
  | some target =>
    rw [htarget] at h
    simp only at h
    split_ifs at h
    · exact absurd h (hlength _)
    · refine ⟨target,rfl,?_⟩
      simp only [call,setPitches,List.cons.injEq,Prod.mk.injEq,TransportCall.command.injEq,
        BridgeCommand.sendBoardRoundTable.injEq] at h
      exact h.1.1.symm

end Worker

namespace FencedRun

variable {run : FencedRun M} {input : BridgeInput M}

theorem fenced_iff : run.Fenced transport ↔ ∀ target, run.worker.pitches.boardTarget = some target →
    ∀ edit, run.edit = some edit → edit.Agrees target := by
  constructor
  · intro h target htarget edit hedit
    obtain ⟨now,answer,hsent⟩ : ∃ now answer,
        (run.worker.after (Worker.sendBoardTarget transport now)).calls =
          (.command (.sendBoardRoundTable (.config target)),answer) :: run.worker.calls :=
      Worker.sends_target htarget
    exact h now _ answer hsent edit hedit target rfl
  · intro h now frame answer hsent edit hedit config hconfig
    obtain ⟨target,htarget,rfl⟩ := Worker.sends_only_target hsent
    obtain rfl : target = config := Option.some.inj hconfig
    exact h target htarget edit hedit

theorem edit_of_step {edit : BoardEdit M} (h : (run.step transport input).edit = some edit) :
    newEdit run.worker (run.worker.after (Worker.input transport input)) input = some edit ∨
      run.edit = some edit := by
  obtain ⟨hedit,-⟩ := Option.filter_eq_some_iff.mp h
  cases hnew : newEdit run.worker (run.worker.after (Worker.input transport input)) input with
  | some edit =>
    rw [hnew] at hedit
    exact .inl hedit
  | none =>
    rw [hnew,Option.none_or] at hedit
    refine .inr ?_
    cases input with
    | transport now event => exact (Option.filter_eq_some_iff.mp hedit).1
    | released mode event => exact hedit
    | realtime mode event => exact hedit
    | passEnd now => exact hedit

/-- An input that stages nothing and makes no edit keeps the fence. -/
theorem fenced_of_target (h : run.Fenced transport)
    (hnew : newEdit run.worker (run.worker.after (Worker.input transport input)) input = none)
    (htarget : ∀ target, (run.worker.after
      (Worker.input transport input)).pitches.boardTarget = some target →
        run.worker.pitches.boardTarget = some target) :
    (run.step transport input).Fenced transport := by
  refine fenced_iff.mpr fun target hafter edit hedit => ?_
  have hkept := (edit_of_step hedit).resolve_left (by simp [hnew])
  exact fenced_iff.mp h target (htarget target hafter) edit hkept

theorem fenced_of_none (h : (run.worker.after
    (Worker.input transport input)).pitches.boardTarget = none) :
    (run.step transport input).Fenced transport := by
  refine fenced_iff.mpr fun target hafter => ?_
  rw [show (run.step transport input).worker.pitches.boardTarget = none from h] at hafter
  cases hafter

/-- An event that stages the board keeps the fence just where it stages it behind the fence. -/
theorem fenced_of_staged {now : Nat} {event : TransportEvent M} {staged : BridgePitchState M}
    (hstaged : stagedFrom run.worker.pitches event = some staged)
    (hafter : (run.worker.after (Worker.input transport (.transport now event))).pitches =
      staged.stageBoardTarget now) :
    (run.step transport (.transport now event)).Fenced transport ↔
      run.Keeps transport (.transport now event) := by
  have htarget : (run.step transport (.transport now event)).worker.pitches.boardTarget =
      (staged.stageBoardTarget now).boardTarget := congrArg BridgePitchState.boardTarget hafter
  rw [fenced_iff,htarget]
  simp only [Keeps,hstaged,Option.some.injEq,forall_eq']
  unfold BridgePitchState.stageBoardTarget
  by_cases hpending : staged.hasPendingPitchIntent = true
  · simp [hpending]
  · by_cases hshown : staged.boardConfirmed = some staged.boardConfig ∧ staged.boardTarget = none
    · simp [hpending,hshown]
    · simp [hpending,hshown]

theorem fenced_iff_true (hstaged : ∀ event now, input = .transport now event →
    stagedFrom run.worker.pitches event = none)
    (hfenced : (run.step transport input).Fenced transport) :
    (run.step transport input).Fenced transport ↔ run.Keeps transport input := by
  refine iff_of_true hfenced ?_
  cases input with
  | transport now event =>
    intro staged hsome
    rw [hstaged event now rfl] at hsome
    cases hsome
  | released mode event => trivial
  | realtime mode event => trivial
  | passEnd now => trivial

theorem fenced_of_keepsBoard (h : run.Fenced transport)
    (hnew : newEdit run.worker (run.worker.after (Worker.input transport input)) input = none)
    (hkeeps : run.worker.KeepsBoard (run.worker.after (Worker.input transport input))) :
    (run.step transport input).Fenced transport :=
  fenced_of_target h hnew fun _ htarget => hkeeps.boardTarget ▸ htarget

theorem step_boardConfig {now : Nat} {frame : RoundTableFrame M} {config : RoundTableConfig M}
    (hframe : ∀ revision snapshot, frame ≠ .configSnapshot revision snapshot)
    (hobserve : ∀ pitches, Worker.observeBoard now frame pitches =
      (some (config,(pitches.observeBoardConfig config).1),(pitches.observeBoardConfig config).2)) :
    (run.step transport (.transport now (.boardRoundTable frame))).Fenced transport := by
  refine fenced_of_none ?_
  simp only [Worker.after,Worker.input,Worker.transportEvent,Worker.boardRoundTable,hobserve]
  by_cases hshown : run.worker.pitches.boardTarget = none ∧
      run.worker.pitches.boardConfirmed = some config
  · have hobserved : run.worker.pitches.observeBoardConfig config =
        (.confirmed,run.worker.pitches) := if_pos hshown
    rw [hobserved]
    cases frame with
    | run other => exact hshown.1
    | config other => exact hshown.1
    | configSnapshot revision other => exact hshown.1
    | pulse => exact hshown.1
  · have hobserved : run.worker.pitches.observeBoardConfig config =
        (.boardEdit,run.worker.pitches.showing config) := if_neg hshown
    rw [hobserved]
    exact (Worker.publishBoardEdit_spec transport hframe config
      (run.worker.setPitches (run.worker.pitches.showing config))).1.boardTarget

theorem step_snapshot (h : run.Fenced transport) (now revision : Nat)
    (config : RoundTableConfig M) :
    (run.step transport (.transport now
        (.boardRoundTable (.configSnapshot revision config)))).Fenced transport ↔
      run.Keeps transport
        (.transport now (.boardRoundTable (.configSnapshot revision config))) := by
  have hafter : (run.worker.after (Worker.input transport (.transport now
      (.boardRoundTable (.configSnapshot revision config))))).pitches =
        (run.worker.pitches.observeBoardSnapshot revision config now).2 := by
    rw [BridgeRun.after_snapshot]
    rfl
  by_cases hquiet : run.worker.pitches.boardSnapshotRevision.any (revision ≤ ·) = true ∨
      run.worker.pitches.boardTarget.isSome = true ∨
        run.worker.pitches.boardConfirmed = some config
  · have hstaged : stagedFrom run.worker.pitches
        (.boardRoundTable (.configSnapshot revision config)) = none := if_pos hquiet
    refine fenced_iff_true (fun event later hsame => ?_) (fenced_of_target h rfl ?_)
    · cases hsame
      exact hstaged
    · intro target htarget
      rw [hafter] at htarget
      unfold BridgePitchState.observeBoardSnapshot at htarget
      by_cases hstale : run.worker.pitches.boardSnapshotRevision.any (revision ≤ ·) = true
      · rw [if_pos hstale] at htarget
        exact htarget
      · rw [if_neg hstale] at htarget
        have hlevel := hquiet.resolve_left hstale
        simp only at htarget
        split_ifs at htarget with hshown hsome hconfirmed
        · exact htarget
        · exact htarget
        · exact absurd hlevel (by simp [hsome,hconfirmed])
  · obtain ⟨hstale,hsome,hconfirmed⟩ := by simpa only [not_or] using hquiet
    have hstaged : stagedFrom run.worker.pitches
        (.boardRoundTable (.configSnapshot revision config)) = some { run.worker.pitches with
          boardSnapshotRevision := some revision
          boardConfirmed := some config } := if_neg hquiet
    refine fenced_of_staged hstaged (hafter.trans ?_)
    have hshown : run.worker.pitches.boardTarget ≠ some config := by
      intro hshown
      exact hsome (by simp [hshown])
    unfold BridgePitchState.observeBoardSnapshot
    rw [if_neg hstale]
    simp only [hshown,hsome,hconfirmed,if_false]
    rfl

theorem step_boardRoundTable (h : run.Fenced transport) (now : Nat) (frame : RoundTableFrame M) :
    (run.step transport (.transport now (.boardRoundTable frame))).Fenced transport ↔
      run.Keeps transport (.transport now (.boardRoundTable frame)) := by
  cases frame with
  | run config =>
    refine fenced_iff_true (fun event later hsame => ?_) (step_boardConfig (by simp) fun _ => rfl)
    cases hsame
    rfl
  | config config =>
    refine fenced_iff_true (fun event later hsame => ?_) (step_boardConfig (by simp) fun _ => rfl)
    cases hsame
    rfl
  | configSnapshot revision config => exact step_snapshot h now revision config
  | pulse =>
    refine fenced_iff_true (fun event later hsame => ?_) (fenced_of_keepsBoard h rfl
      (Worker.keepsBoard_call (.command (.publishRoundTable .pulse)) run.worker))
    cases hsame
    rfl

theorem step_boardLink (now : Nat) (link : LinkState) :
    (run.step transport (.transport now (.boardLink link))).Fenced transport ↔
      run.Keeps transport (.transport now (.boardLink link)) := by
  by_cases hready : link = .ready
  · subst hready
    exact fenced_of_staged rfl rfl
  · refine fenced_iff_true (fun event later hsame => ?_) (fenced_of_none ?_)
    · cases hsame
      exact if_neg hready
    · cases link <;> first | rfl | exact absurd rfl hready

theorem step_spec (h : run.Fenced transport) (input : BridgeInput M) :
    (run.step transport input).Fenced transport ↔ run.Keeps transport input := by
  cases input with
  | released mode event =>
    exact iff_of_true (fenced_of_keepsBoard h rfl
      (Worker.keepsBoard_releaseInput mode event run.worker)) trivial
  | realtime mode event =>
    exact iff_of_true (fenced_of_keepsBoard h rfl
      (Worker.keepsBoard_realtimeInput mode event run.worker)) trivial
  | passEnd now =>
    exact iff_of_true (fenced_of_keepsBoard h rfl
      (Worker.keepsBoard_sendBoardTarget now run.worker)) trivial
  | transport now event =>
    cases event with
    | roomLink link =>
      by_cases hready : link = .ready
      · subst hready
        refine fenced_iff_true (fun event later hsame => ?_)
          (fenced_of_keepsBoard h rfl (.refl run.worker))
        cases hsame
        rfl
      · have hstaged : stagedFrom run.worker.pitches (.roomLink link) =
            some run.worker.pitches.abandonPitchIntents.clearBoardTarget := if_neg hready
        refine fenced_of_staged hstaged ?_
        cases link <;> first | rfl | exact absurd rfl hready
    | roomSelected room => exact fenced_of_staged rfl rfl
    | boardLink link => exact step_boardLink now link
    | boardRoundTable frame => exact step_boardRoundTable h now frame
    | pitchIntentOutcome token outcome =>
      cases outcome with
      | applied =>
        refine fenced_iff_true (fun event later hsame => ?_)
          (fenced_of_keepsBoard h rfl (.refl run.worker))
        cases hsame
        rfl
      | rejected error => exact fenced_of_staged rfl rfl
    | pitchIntentReset throughToken => exact fenced_of_staged rfl rfl
    | roomPitchSet shared =>
      by_cases hroom : run.worker.pitches.room = shared
      · refine fenced_iff_true (fun event later hsame => ?_) (fenced_of_target h rfl ?_)
        · cases hsame
          exact if_pos hroom
        · intro target htarget
          simpa [Worker.after,Worker.input,Worker.transportEvent,Worker.setPitches,
            BridgePitchState.applyConfirmedRoom,hroom] using htarget
      · refine fenced_of_staged (if_neg hroom) ?_
        simp only [Worker.after,Worker.input,Worker.transportEvent,
          BridgePitchState.applyConfirmedRoom,hroom,ne_eq,not_false_eq_true,decide_true,if_true]
        rfl
    | roundTable frame => exact fenced_of_staged rfl rfl
    | midi event =>
      refine fenced_iff_true (fun event later hsame => ?_)
        (fenced_of_keepsBoard h rfl (.refl run.worker))
      cases hsame
      rfl
    | other code =>
      refine fenced_iff_true (fun event later hsame => ?_)
        (fenced_of_keepsBoard h rfl (.refl run.worker))
      cases hsame
      rfl

theorem steps_fenced_iff (h : run.Fenced transport) (inputs : List (BridgeInput M)) :
    (∀ earlier later, inputs = earlier ++ later → (run.steps transport earlier).Fenced transport) ↔
      run.RunKeeps transport inputs := by
  induction inputs generalizing run with
  | nil =>
    refine iff_of_true (fun earlier later hinputs => ?_) trivial
    obtain ⟨rfl,-⟩ := List.nil_eq_append_iff.mp hinputs
    exact h
  | cons input rest ih =>
    have hkeeps : (run.step transport input).Fenced transport ↔ run.Keeps transport input :=
      step_spec h input
    constructor
    · intro hall
      have hfirst := hall [input] rest rfl
      refine ⟨hkeeps.mp hfirst,(ih hfirst).mp fun earlier later hrest => ?_⟩
      exact hall (input :: earlier) later (congrArg (input :: ·) hrest)
    · intro hrun earlier later hinputs
      have hfirst := hkeeps.mpr hrun.1
      cases earlier with
      | nil => exact h
      | cons other earlier =>
        obtain ⟨rfl,hrest⟩ := List.cons.inj hinputs
        exact (ih hfirst).mpr hrun.2 earlier later hrest

end FencedRun

end Steps

/-- The fence covers the board's edit: whenever a pass of the run ends, what it sends to the board
agrees with the edit under way, exactly if every event of the run that stages the board stages it
behind the fence. -/
theorem board_edit_fenced_iff (transport : Transport M) (inputs : List (BridgeInput M)) :
    (∀ earlier later, inputs = earlier ++ later →
        (({} : FencedRun M).steps transport earlier).Fenced transport) ↔
      ({} : FencedRun M).RunKeeps transport inputs := by
  refine FencedRun.steps_fenced_iff (FencedRun.fenced_iff.mpr fun target htarget => ?_) inputs
  cases htarget

/-- The board changes the room's settings, and before the room has taken them up someone else adds
a class: the board is sent the old settings. -/
def settingsEditInputs : List (BridgeInput plainMusic) :=
  [.transport 0 (.boardLink .ready),
    .transport 1 (.boardRoundTable (.config (plainConfig 1 ∅))),
    .transport 2 (.roomPitchSet ⟨{⟨1,2⟩},∅⟩)]

theorem settings_edit_overtaken :
    let run := ({} : FencedRun plainMusic).steps (fun _ _ => none) settingsEditInputs
    (run.edit.map fun edit => edit.settings) = some (some (plainConfig 1 ∅)) ∧
      ((run.worker.after (Worker.sendBoardTarget (fun _ _ => none) 2)).calls.map Prod.fst).head? =
        some (.command (.sendBoardRoundTable (.config (plainConfig 0 {50})))) ∧
      ¬ run.Fenced (fun _ _ => none) := by
  have hedit : ((({} : FencedRun plainMusic).steps (fun _ _ => none) settingsEditInputs).edit.map
      fun edit => (edit.settings,edit.config)) = some (some (plainConfig 1 ∅),plainConfig 1 ∅) := by
    decide +kernel
  have htarget : (({} : FencedRun plainMusic).steps (fun _ _ => none)
      settingsEditInputs).worker.pitches.boardTarget = some (plainConfig 0 {50}) := by
    decide +kernel
  obtain ⟨edit,hsome,hsettings⟩ := Option.map_eq_some_iff.mp hedit
  refine ⟨by rw [hsome,Option.map_some,(Prod.mk.inj hsettings).1],by decide +kernel,
    fun hfenced => ?_⟩
  have hagrees := (FencedRun.fenced_iff.mp hfenced _ htarget edit hsome).1 _
    (Prod.mk.inj hsettings).1
  exact absurd hagrees (by decide +kernel)

end WalkieSongie.Bridge
