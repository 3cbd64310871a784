import WalkieSongie.BridgeWorker
set_option autoImplicit false

/-!
Whether the board comes to show the room: it does, or is about to be repainted, or an edit is on
its way to the room. An edit of the board that never leaves the bridge breaks this.
-/

namespace WalkieSongie.Bridge

variable {M : MusicLibrary}

namespace BridgePitchState

/-- The board is shown the room's configuration, or is to be. -/
def Scheduled (pitches : BridgePitchState M) : Prop :=
  pitches.boardTarget = some pitches.boardConfig ∨
    (pitches.boardTarget = none ∧ pitches.boardConfirmed = some pitches.boardConfig)

/-- What the board is to be repainted with is the room's configuration. -/
def Aims (pitches : BridgePitchState M) : Prop :=
  ∀ target, pitches.boardTarget = some target → target = pitches.boardConfig

/-- No class is pending, or the board shows the room's configuration anyway. -/
def StagesFreely (pitches : BridgePitchState M) : Prop :=
  pitches.hasPendingPitchIntent = true → pitches.boardConfirmed = some pitches.boardConfig

end BridgePitchState

def acceptedToken : TransportCall M × Option BridgeError → Option Nat
  | (.command (.setSharedPitch token _ _),none) => some token
  | (.command (.publishBoardEdit token _ _ _),none) => some token
  | _ => none

def BridgeInput.closes : BridgeInput M → Nat → Bool
  | .transport _ (.pitchIntentOutcome token _),other => other = token
  | .transport _ (.pitchIntentReset throughToken),other => other ≤ throughToken
  | _,_ => false

namespace Worker

def issuedTokens (before after : Worker M) : List Nat :=
  (after.calls.take (after.calls.length-before.calls.length)).filterMap acceptedToken

/-- The board's edit is planned, gets a token, and is accepted by the transport. -/
def EditAccepted (transport : Transport M) (worker : Worker M) (frame : RoundTableFrame M)
    (config : RoundTableConfig M) : Prop :=
  ∃ plan, worker.pitches.planBoardEdit config = .ok plan ∧
    worker.pitches.nextIntentToken+1 < 2^64 ∧
    transport worker.calls (.command (.publishBoardEdit worker.pitches.nextIntentToken frame
      plan.settings plan.pitchEdits)) = none

end Worker

/-- The worker, with the tokens that have been published and have no outcome yet. -/
structure BridgeRun (M : MusicLibrary) where
  worker : Worker M := {}
  openTokens : Finset Nat := ∅

namespace BridgeRun

variable (transport : Transport M)

def step (run : BridgeRun M) (input : BridgeInput M) : BridgeRun M :=
  let after := run.worker.after (Worker.input transport input)
  { worker := after
    openTokens := (run.openTokens ∪ (run.worker.issuedTokens after).toFinset).filter
      fun token => input.closes token = false }

def steps (run : BridgeRun M) (inputs : List (BridgeInput M)) : BridgeRun M :=
  inputs.foldl (step transport) run

/-- While the board is connected, an edit is under way or the board is taken care of. -/
def Converging (run : BridgeRun M) : Prop :=
  run.worker.boardLink = .ready → run.openTokens.Nonempty ∨ run.worker.pitches.Scheduled

/-- What a board frame asks of a connected bridge: an edit of the board is accepted, or asks for
the room's configuration, or another one is under way; a new passive level that is not the target
finds no class pending. -/
def FrameKeeps (run : BridgeRun M) (frame : RoundTableFrame M) : Prop :=
  let pitches := run.worker.pitches
  let edited (config : RoundTableConfig M) : Prop :=
    (pitches.boardTarget = none ∧ pitches.boardConfirmed = some config) ∨
      config = pitches.boardConfig ∨ run.openTokens.Nonempty ∨
      run.worker.EditAccepted transport frame config
  match frame with
  | .run config => edited config
  | .config config => edited config
  | .configSnapshot revision config =>
      pitches.boardSnapshotRevision.any (revision ≤ ·) = true ∨ pitches.boardTarget.isSome = true ∨
        pitches.boardConfirmed = some config ∨ pitches.hasPendingPitchIntent = false ∨
        config = pitches.boardConfig ∨ run.openTokens.Nonempty
  | .pulse => True

/-- The event does not leave the board behind: an edit of its own is accepted, an outcome comes
when the board is taken care of, and the board is staged when no class is pending, unless another
edit is under way or the board shows the room's configuration. -/
def EventKeeps (run : BridgeRun M) (event : TransportEvent M) : Prop :=
  let pitches := run.worker.pitches
  match event with
  | .boardRoundTable frame => run.FrameKeeps transport frame
  | .pitchIntentOutcome token .applied => pitches.Scheduled ∨ (run.openTokens.erase token).Nonempty
  | .pitchIntentOutcome token (.rejected _) =>
      (pitches.rejectPitchIntent token).StagesFreely ∨ (run.openTokens.erase token).Nonempty
  | .pitchIntentReset throughToken =>
      (pitches.abandonPitchIntentsThrough throughToken).StagesFreely ∨
        (run.openTokens.filter (throughToken < ·)).Nonempty
  | .roomPitchSet shared => pitches.room ≠ shared →
      (pitches.applyConfirmedRoom shared).2.StagesFreely ∨ run.openTokens.Nonempty
  | .roundTable frame => (pitches.applyRoundTable frame).StagesFreely ∨ run.openTokens.Nonempty
  | _ => True

def Keeps (run : BridgeRun M) : BridgeInput M → Prop
  | .transport _ (.boardLink .ready) =>
      run.worker.pitches.hasPendingPitchIntent = false ∨ run.openTokens.Nonempty
  | .transport _ event => run.worker.boardLink = .ready → run.EventKeeps transport event
  | _ => True

def RunKeeps (run : BridgeRun M) : List (BridgeInput M) → Prop
  | [] => True
  | input :: rest => run.Keeps transport input ∧ (run.step transport input).RunKeeps rest

end BridgeRun

namespace BridgePitchState

variable {pitches other : BridgePitchState M} {now : Nat}

theorem boardConfig_congr (hroom : pitches.room = other.room)
    (hconfig : pitches.roomConfig = other.roomConfig) :
    pitches.boardConfig = other.boardConfig := by
  have hnotes : pitches.roomMidiNotes = other.roomMidiNotes := by
    simp only [roomMidiNotes,hroom]
  unfold boardConfig
  rw [hconfig,hnotes]

theorem stageBoardTarget_keeps (pitches : BridgePitchState M) (now : Nat) :
    (pitches.stageBoardTarget now).room = pitches.room ∧
      (pitches.stageBoardTarget now).roomConfig = pitches.roomConfig ∧
      (pitches.stageBoardTarget now).boardConfirmed = pitches.boardConfirmed ∧
      (pitches.stageBoardTarget now).pendingClasses = pitches.pendingClasses := by
  unfold stageBoardTarget
  split
  · simp
  · simp only
    split <;> simp

theorem stageBoardTarget_boardConfig (pitches : BridgePitchState M) (now : Nat) :
    (pitches.stageBoardTarget now).boardConfig = pitches.boardConfig :=
  boardConfig_congr (stageBoardTarget_keeps pitches now).1 (stageBoardTarget_keeps pitches now).2.1

theorem stageBoardTarget_aims (pitches : BridgePitchState M) (now : Nat) :
    (pitches.stageBoardTarget now).Aims := by
  intro target htarget
  rw [stageBoardTarget_boardConfig]
  unfold stageBoardTarget at htarget
  split at htarget
  · cases htarget
  · simp only at htarget
    split at htarget
    · rename_i hsame
      rw [hsame.2] at htarget
      cases htarget
    · exact (Option.some.inj htarget).symm

theorem stageBoardTarget_scheduled (pitches : BridgePitchState M) (now : Nat) :
    (pitches.stageBoardTarget now).Scheduled ↔ pitches.StagesFreely := by
  unfold Scheduled StagesFreely
  rw [stageBoardTarget_boardConfig,(stageBoardTarget_keeps pitches now).2.2.1]
  unfold stageBoardTarget
  by_cases hpending : pitches.hasPendingPitchIntent = true
  · simp [hpending]
  · simp only [hpending,if_false,Bool.false_eq_true,false_implies,iff_true]
    split
    · rename_i hsame
      exact .inr ⟨hsame.2,hsame.1⟩
    · exact .inl rfl

theorem Scheduled.congr (hroom : pitches.room = other.room)
    (hconfig : pitches.roomConfig = other.roomConfig)
    (htarget : pitches.boardTarget = other.boardTarget)
    (hconfirmed : pitches.boardConfirmed = other.boardConfirmed) :
    pitches.Scheduled ↔ other.Scheduled := by
  simp only [Scheduled,boardConfig_congr hroom hconfig,htarget,hconfirmed]

theorem Aims.congr (hroom : pitches.room = other.room)
    (hconfig : pitches.roomConfig = other.roomConfig)
    (htarget : pitches.boardTarget = other.boardTarget) : pitches.Aims ↔ other.Aims := by
  simp only [Aims,boardConfig_congr hroom hconfig,htarget]

theorem aims_of_none (h : pitches.boardTarget = none) : pitches.Aims := by
  intro target htarget
  rw [h] at htarget
  cases htarget

def showing (config : RoundTableConfig M) (pitches : BridgePitchState M) : BridgePitchState M :=
  { pitches with
    boardConfirmed := some config
    boardTarget := none
    boardRetryAt := none }

theorem scheduled_iff_of_none (h : pitches.boardTarget = none) :
    pitches.Scheduled ↔ pitches.boardConfirmed = some pitches.boardConfig := by
  simp [Scheduled,h]

end BridgePitchState

namespace Worker

variable {transport : Transport M} {before after : Worker M}

theorem issuedTokens_of_same (h : after.calls = before.calls) : before.issuedTokens after = [] := by
  simp [issuedTokens,h]

theorem issuedTokens_of_call {call : TransportCall M × Option BridgeError}
    (h : after.calls = call :: before.calls) :
    before.issuedTokens after = (acceptedToken call).toList := by
  rw [issuedTokens,h,List.length_cons,Nat.add_sub_cancel_left]
  cases htoken : acceptedToken call <;> simp [htoken]

/-- What the bridge holds of the board and the room is as it was. -/
structure KeepsBoard (before after : Worker M) : Prop where
  boardLink : after.boardLink = before.boardLink
  room : after.pitches.room = before.pitches.room
  roomConfig : after.pitches.roomConfig = before.pitches.roomConfig
  boardTarget : after.pitches.boardTarget = before.pitches.boardTarget
  boardConfirmed : after.pitches.boardConfirmed = before.pitches.boardConfirmed

theorem KeepsBoard.refl (worker : Worker M) : KeepsBoard worker worker := ⟨rfl,rfl,rfl,rfl,rfl⟩

theorem KeepsBoard.trans {first second third : Worker M} (h : KeepsBoard first second)
    (h' : KeepsBoard second third) : KeepsBoard first third :=
  ⟨h'.boardLink.trans h.boardLink,h'.room.trans h.room,h'.roomConfig.trans h.roomConfig,
    h'.boardTarget.trans h.boardTarget,h'.boardConfirmed.trans h.boardConfirmed⟩

theorem keepsBoard_call (call : TransportCall M) (worker : Worker M) :
    KeepsBoard worker (worker.after (Worker.call transport call)) := ⟨rfl,rfl,rfl,rfl,rfl⟩

theorem keepsBoard_applySharedPitchIntent (pitch : TunedPeriodicPitch) (active : Bool)
    (worker : Worker M) :
    KeepsBoard worker (worker.after (applySharedPitchIntent transport pitch active)) := by
  rw [after_applySharedPitchIntent]
  split
  · simp only
    split <;> exact ⟨rfl,rfl,rfl,rfl,rfl⟩
  · exact .refl worker

theorem keepsBoard_setHostHeld (note : Nat) (held : Bool) (worker : Worker M) :
    KeepsBoard worker (worker.setPitches (worker.pitches.setHostHeld note held).2) :=
  ⟨rfl,rfl,rfl,rfl,rfl⟩

theorem keepsBoard_handleHostNoteRelease (mode : MidiInputMode) (note : Nat) (worker : Worker M) :
    KeepsBoard worker (worker.after (handleHostNoteRelease transport mode note)) := by
  have hmarked := keepsBoard_setHostHeld note false worker
  simp only [after,handleHostNoteRelease]
  split
  · exact hmarked
  · cases pitchForMidi M note with
    | error error => exact hmarked
    | ok pitch =>
      simp only
      split
      · exact hmarked.trans (keepsBoard_applySharedPitchIntent pitch false _)
      · exact hmarked

theorem keepsBoard_handleHostNoteOn (mode : MidiInputMode) (note : Nat) (worker : Worker M) :
    KeepsBoard worker (worker.after (handleHostNoteOn transport mode note)) := by
  have hmarked := keepsBoard_setHostHeld note true worker
  simp only [after,handleHostNoteOn]
  split
  · exact hmarked
  · cases pitchForMidi M note with
    | error error => exact hmarked
    | ok pitch =>
      cases mode with
      | toggleSet => exact hmarked.trans (keepsBoard_applySharedPitchIntent pitch _ _)
      | gateSet =>
        simp only
        split
        · exact hmarked
        · exact hmarked.trans (keepsBoard_applySharedPitchIntent pitch true _)
      | perform => exact hmarked

theorem keepsBoard_releaseInput (mode : MidiInputMode) (event : RealtimeMidi) (worker : Worker M) :
    KeepsBoard worker (worker.after (releaseInput transport mode event)) := by
  unfold releaseInput
  split
  · exact keepsBoard_call _ worker
  · split
    · exact keepsBoard_handleHostNoteRelease mode event.note worker
    · exact keepsBoard_call _ worker

theorem keepsBoard_realtimeInput (mode : MidiInputMode) (event : RealtimeMidi) (worker : Worker M) :
    KeepsBoard worker (worker.after (realtimeInput transport mode event)) := by
  unfold realtimeInput
  split
  · split
    · exact keepsBoard_call _ worker
    · split
      · exact keepsBoard_handleHostNoteRelease mode event.note worker
      · exact keepsBoard_handleHostNoteOn mode event.note worker
  · exact keepsBoard_call _ worker

theorem keepsBoard_sendBoardTarget (now : Nat) (worker : Worker M) :
    KeepsBoard worker (worker.after (sendBoardTarget transport now)) := by
  simp only [after,sendBoardTarget,BridgePitchState.boardTargetDue]
  cases htarget : worker.pitches.boardTarget with
  | none => exact .refl worker
  | some target =>
    simp only
    by_cases hwait : worker.pitches.boardRetryAt.any (now < ·) = true
    · rw [if_pos hwait]
      exact .refl worker
    · rw [if_neg hwait]
      exact ⟨rfl,rfl,rfl,htarget.symm,rfl⟩

/-- An edit of the board leaves what is held of the board alone, and issues a token just where it
is accepted. -/
theorem publishBoardEdit_spec (transport : Transport M) {frame : RoundTableFrame M}
    (hframe : ∀ revision snapshot, frame ≠ .configSnapshot revision snapshot)
    (config : RoundTableConfig M) (worker : Worker M) :
    KeepsBoard worker (worker.after (publishBoardEdit transport frame config)) ∧
      ((worker.EditAccepted transport frame config ∧
          worker.issuedTokens (worker.after (publishBoardEdit transport frame config)) =
            [worker.pitches.nextIntentToken]) ∨
        (¬ worker.EditAccepted transport frame config ∧
          worker.issuedTokens (worker.after (publishBoardEdit transport frame config)) = [])) := by
  unfold after publishBoardEdit EditAccepted
  cases hplan : worker.pitches.planBoardEdit config with
  | error error => exact ⟨.refl worker,.inr ⟨by simp,issuedTokens_of_same rfl⟩⟩
  | ok plan =>
    simp only [BridgePitchState.allocateIntentToken]
    by_cases hroom : worker.pitches.nextIntentToken+1 < 2^64
    · simp only [hroom,if_true]
      cases hanswer : transport worker.calls (.command (.publishBoardEdit
          worker.pitches.nextIntentToken frame plan.settings plan.pitchEdits)) with
      | none =>
        simp only [Worker.call,setPitches,hanswer]
        refine ⟨⟨rfl,rfl,rfl,rfl,rfl⟩,.inl ⟨⟨plan,rfl,trivial,hanswer⟩,?_⟩⟩
        rw [issuedTokens_of_call rfl]
        rfl
      | some error =>
        simp only [Worker.call,setPitches,hanswer]
        refine ⟨⟨rfl,rfl,rfl,rfl,rfl⟩,.inr ⟨by simp [hanswer],?_⟩⟩
        rw [issuedTokens_of_call rfl]
        rfl
    · simp only [hroom,if_false]
      exact ⟨.refl worker,.inr ⟨by simp,issuedTokens_of_same rfl⟩⟩

end Worker

namespace BridgeRun

variable {transport : Transport M} {run : BridgeRun M} {input : BridgeInput M}

theorem step_openTokens_subset (hcloses : ∀ token, input.closes token = false) :
    run.openTokens ⊆ (run.step transport input).openTokens := by
  intro token htoken
  simp [step,hcloses,htoken]

theorem converging_congr {worker : Worker M} {tokens : Finset Nat} (h : run.Converging)
    (hkeeps : run.worker.KeepsBoard worker) (htokens : run.openTokens ⊆ tokens) :
    (⟨worker,tokens⟩ : BridgeRun M).Converging := by
  intro hready
  rw [hkeeps.boardLink] at hready
  rcases h hready with hopen | hscheduled
  · exact .inl (hopen.mono htokens)
  · exact .inr ((BridgePitchState.Scheduled.congr hkeeps.room hkeeps.roomConfig hkeeps.boardTarget
      hkeeps.boardConfirmed).mpr hscheduled)

theorem step_converging_of_keepsBoard (h : run.Converging)
    (hkeeps : run.worker.KeepsBoard (run.step transport input).worker)
    (hcloses : ∀ token, input.closes token = false) : (run.step transport input).Converging :=
  converging_congr h hkeeps (step_openTokens_subset hcloses)

theorem aims_of_keepsBoard {after : Worker M} (h : run.worker.pitches.Aims)
    (hkeeps : run.worker.KeepsBoard after) : after.pitches.Aims :=
  (BridgePitchState.Aims.congr hkeeps.room hkeeps.roomConfig hkeeps.boardTarget).mpr h

theorem step_boardEdit {now : Nat} {frame : RoundTableFrame M} {config : RoundTableConfig M}
    (hframe : ∀ revision snapshot, frame ≠ .configSnapshot revision snapshot)
    (hafter : run.worker.after (Worker.input transport (.transport now (.boardRoundTable frame))) =
      (run.worker.setPitches (run.worker.pitches.showing config)).after
        (Worker.publishBoardEdit transport frame config)) :
    (run.step transport (.transport now (.boardRoundTable frame))).worker.pitches.Aims ∧
      ((run.step transport (.transport now (.boardRoundTable frame))).Converging ↔
        (run.worker.boardLink = .ready → config = run.worker.pitches.boardConfig ∨
          run.openTokens.Nonempty ∨ run.worker.EditAccepted transport frame config)) := by
  have hspec := Worker.publishBoardEdit_spec transport hframe config
    (run.worker.setPitches (run.worker.pitches.showing config))
  rw [← hafter] at hspec
  have hstep : run.step transport (.transport now (.boardRoundTable frame)) =
      ⟨run.worker.after (Worker.input transport (.transport now (.boardRoundTable frame))),
        run.openTokens ∪ (run.worker.issuedTokens (run.worker.after
          (Worker.input transport (.transport now (.boardRoundTable frame))))).toFinset⟩ := by
    simp [step,BridgeInput.closes]
  rw [hstep]
  generalize run.worker.after (Worker.input transport (.transport now (.boardRoundTable frame))) =
    after at hspec ⊢
  obtain ⟨hkeeps,hissued⟩ := hspec
  have hscheduled : after.pitches.Scheduled ↔ config = run.worker.pitches.boardConfig := by
    rw [BridgePitchState.Scheduled.congr hkeeps.room hkeeps.roomConfig hkeeps.boardTarget
      hkeeps.boardConfirmed,BridgePitchState.scheduled_iff_of_none rfl]
    exact Option.some_inj
  refine ⟨BridgePitchState.aims_of_none hkeeps.boardTarget,?_⟩
  simp only [Converging,hscheduled,hkeeps.boardLink]
  refine imp_congr Iff.rfl ?_
  rcases hissued with ⟨haccepted,hissued⟩ | ⟨hrefused,hissued⟩
  · have haccepted : run.worker.EditAccepted transport frame config := haccepted
    have hissued : run.worker.issuedTokens after = [run.worker.pitches.nextIntentToken] := hissued
    simp [hissued,haccepted]
  · have hrefused : ¬ run.worker.EditAccepted transport frame config := hrefused
    have hissued : run.worker.issuedTokens after = [] := hissued
    simp [hissued,hrefused,or_comm]

theorem converging_stage (worker : Worker M) (tokens : Finset Nat) (now : Nat) :
    (⟨worker.stage now,tokens⟩ : BridgeRun M).Converging ↔
      (worker.boardLink = .ready → tokens.Nonempty ∨ worker.pitches.StagesFreely) := by
  unfold Converging
  simp only [Worker.stage,Worker.setPitches,BridgePitchState.stageBoardTarget_scheduled]

theorem step_of_same {after : Worker M}
    (hafter : run.worker.after (Worker.input transport input) = after)
    (hcalls : after.calls = run.worker.calls) :
    run.step transport input =
      ⟨after,run.openTokens.filter fun token => input.closes token = false⟩ := by
  simp [step,hafter,Worker.issuedTokens_of_same hcalls]

theorem erase_eq_filter (tokens : Finset Nat) (token : Nat) :
    (tokens.filter fun other => decide (other = token) = false) = tokens.erase token := by
  ext other
  simp [and_comm]

theorem after_snapshot {now revision : Nat} {config : RoundTableConfig M} (worker : Worker M) :
    worker.after (Worker.input transport (.transport now
        (.boardRoundTable (.configSnapshot revision config)))) =
      worker.setPitches (worker.pitches.observeBoardSnapshot revision config now).2 := by
  have hpassive : (worker.pitches.observeBoardSnapshot revision config now).1 ≠ .boardEdit := by
    unfold BridgePitchState.observeBoardSnapshot
    split
    · simp
    · simp only
      split_ifs <;> simp
  simp only [Worker.after,Worker.input,Worker.transportEvent,Worker.boardRoundTable,
    Worker.observeBoard]
  cases hobserved : (worker.pitches.observeBoardSnapshot revision config now).1 with
  | confirmed => rfl
  | staleEcho => rfl
  | boardEdit => exact absurd hobserved hpassive

theorem observeBoardSnapshot_converging (haims : run.worker.pitches.Aims) (h : run.Converging)
    (now revision : Nat) (config : RoundTableConfig M) :
    (run.worker.pitches.observeBoardSnapshot revision config now).2.Aims ∧
      ((⟨run.worker.setPitches (run.worker.pitches.observeBoardSnapshot revision config now).2,
          run.openTokens⟩ : BridgeRun M).Converging ↔
        (run.worker.boardLink = .ready →
          run.FrameKeeps transport (.configSnapshot revision config))) := by
  unfold BridgePitchState.observeBoardSnapshot FrameKeeps
  by_cases hstale : run.worker.pitches.boardSnapshotRevision.any (revision ≤ ·) = true
  · rw [if_pos hstale]
    exact ⟨haims,iff_of_true h fun _ => .inl hstale⟩
  rw [if_neg hstale]
  by_cases hshown : run.worker.pitches.boardTarget = some config
  · simp only [hshown,if_true]
    refine ⟨BridgePitchState.aims_of_none rfl,iff_of_true (fun _ => .inr (.inr ⟨rfl,?_⟩))
      fun _ => .inr (.inl rfl)⟩
    exact congrArg some (haims config hshown)
  by_cases htarget : run.worker.pitches.boardTarget.isSome = true
  · simp only [hshown,htarget,if_true,if_false]
    exact ⟨(BridgePitchState.Aims.congr rfl rfl rfl).mpr haims,
      iff_of_true (converging_congr h ⟨rfl,rfl,rfl,rfl,rfl⟩ subset_rfl) fun _ =>
        .inr (.inl trivial)⟩
  by_cases hconfirmed : run.worker.pitches.boardConfirmed = some config
  · simp only [hshown,htarget,hconfirmed,if_true,if_false]
    exact ⟨(BridgePitchState.Aims.congr rfl rfl rfl).mpr haims,
      iff_of_true (converging_congr h ⟨rfl,rfl,rfl,rfl,hconfirmed.symm⟩ subset_rfl)
        fun _ => .inr (.inr (.inl trivial))⟩
  · simp only [hshown,htarget,hconfirmed,if_false]
    refine ⟨BridgePitchState.stageBoardTarget_aims _ now,?_⟩
    have hfree : BridgePitchState.StagesFreely { run.worker.pitches with
        boardSnapshotRevision := some revision, boardConfirmed := some config } ↔
          (run.worker.pitches.hasPendingPitchIntent = false ∨
            config = run.worker.pitches.boardConfig) := by
      have hpending : BridgePitchState.hasPendingPitchIntent { run.worker.pitches with
          boardSnapshotRevision := some revision, boardConfirmed := some config } =
            run.worker.pitches.hasPendingPitchIntent := rfl
      have hconfig : BridgePitchState.boardConfig { run.worker.pitches with
          boardSnapshotRevision := some revision, boardConfirmed := some config } =
            run.worker.pitches.boardConfig := BridgePitchState.boardConfig_congr rfl rfl
      simp only [BridgePitchState.StagesFreely,hpending,hconfig,Option.some.injEq]
      cases run.worker.pitches.hasPendingPitchIntent <;> simp
    have hstaged := converging_stage (run.worker.setPitches { run.worker.pitches with
      boardSnapshotRevision := some revision, boardConfirmed := some config }) run.openTokens now
    refine Iff.trans hstaged (imp_congr Iff.rfl ?_)
    simp only [Worker.setPitches,hfree,hstale,Bool.false_eq_true,false_or]
    exact or_comm.trans or_assoc

theorem closed_none (tokens : Finset Nat) (hcloses : ∀ token, input.closes token = false) :
    (tokens.filter fun token => input.closes token = false) = tokens := by
  simp [hcloses]

/-- An event that stages the board, with the tokens it leaves open. -/
theorem step_stage (transport : Transport M) (run : BridgeRun M) (input : BridgeInput M) {now : Nat}
    {worker : Worker M}
    (hafter : run.worker.after (Worker.input transport input) = worker.stage now)
    (hcalls : worker.calls = run.worker.calls) :
    (run.step transport input).worker.pitches.Aims ∧
      ((run.step transport input).Converging ↔ (worker.boardLink = .ready →
        (run.openTokens.filter fun token => input.closes token = false).Nonempty ∨
          worker.pitches.StagesFreely)) := by
  rw [step_of_same hafter hcalls]
  exact ⟨BridgePitchState.stageBoardTarget_aims _ now,converging_stage worker _ now⟩

theorem step_of_keepsBoard (haims : run.worker.pitches.Aims) (h : run.Converging)
    (hkeeps : run.worker.KeepsBoard (run.worker.after (Worker.input transport input)))
    (hcloses : ∀ token, input.closes token = false) :
    (run.step transport input).worker.pitches.Aims ∧ (run.step transport input).Converging :=
  ⟨aims_of_keepsBoard haims hkeeps,step_converging_of_keepsBoard h hkeeps hcloses⟩

theorem step_abandoned {now : Nat}
    (hafter : run.worker.after (Worker.input transport input) =
      (run.worker.setPitches run.worker.pitches.abandonPitchIntents.clearBoardTarget).stage now) :
    (run.step transport input).worker.pitches.Aims ∧ (run.step transport input).Converging := by
  obtain ⟨haims,hconverging⟩ := step_stage transport run input hafter rfl
  refine ⟨haims,hconverging.mpr fun _ => .inr fun hpending => ?_⟩
  cases hpending

/-- A frame that carries the board's own configuration: it is shown already, or is an edit. -/
theorem step_boardConfig (haims : run.worker.pitches.Aims) (h : run.Converging) {now : Nat}
    {frame : RoundTableFrame M} {config : RoundTableConfig M}
    (hframe : ∀ revision snapshot, frame ≠ .configSnapshot revision snapshot)
    (hobserve : ∀ pitches, Worker.observeBoard now frame pitches =
      (some (config,(pitches.observeBoardConfig config).1),(pitches.observeBoardConfig config).2)) :
    (run.step transport (.transport now (.boardRoundTable frame))).worker.pitches.Aims ∧
      ((run.step transport (.transport now (.boardRoundTable frame))).Converging ↔
        (run.worker.boardLink = .ready →
          (run.worker.pitches.boardTarget = none ∧
            run.worker.pitches.boardConfirmed = some config) ∨
          config = run.worker.pitches.boardConfig ∨ run.openTokens.Nonempty ∨
          run.worker.EditAccepted transport frame config)) := by
  by_cases hshown : run.worker.pitches.boardTarget = none ∧
      run.worker.pitches.boardConfirmed = some config
  · have hobserved : run.worker.pitches.observeBoardConfig config =
        (.confirmed,run.worker.pitches) := if_pos hshown
    have hkeeps : run.worker.KeepsBoard (run.worker.after (Worker.input transport
        (.transport now (.boardRoundTable frame)))) := by
      simp only [Worker.after,Worker.input,Worker.transportEvent,Worker.boardRoundTable,hobserve,
        hobserved]
      cases frame with
      | run other => exact Worker.keepsBoard_call _ run.worker
      | config other => exact .refl run.worker
      | configSnapshot revision other => exact .refl run.worker
      | pulse => exact Worker.keepsBoard_call _ run.worker
    obtain ⟨hafter,hconverging⟩ := step_of_keepsBoard haims h hkeeps fun _ => rfl
    exact ⟨hafter,iff_of_true hconverging fun _ => .inl hshown⟩
  · have hobserved : run.worker.pitches.observeBoardConfig config =
        (.boardEdit,run.worker.pitches.showing config) := if_neg hshown
    have hedited : run.worker.after (Worker.input transport (.transport now
        (.boardRoundTable frame))) =
        (run.worker.setPitches (run.worker.pitches.showing config)).after
          (Worker.publishBoardEdit transport frame config) := by
      simp only [Worker.after,Worker.input,Worker.transportEvent,Worker.boardRoundTable,hobserve,
        hobserved]
    obtain ⟨hafter,hconverging⟩ := step_boardEdit hframe hedited
    refine ⟨hafter,hconverging.trans (imp_congr Iff.rfl ?_)⟩
    simp only [hshown,false_or]

theorem step_boardRoundTable (haims : run.worker.pitches.Aims) (h : run.Converging) (now : Nat)
    (frame : RoundTableFrame M) :
    (run.step transport (.transport now (.boardRoundTable frame))).worker.pitches.Aims ∧
      ((run.step transport (.transport now (.boardRoundTable frame))).Converging ↔
        (run.worker.boardLink = .ready → run.FrameKeeps transport frame)) := by
  cases frame with
  | run config => exact step_boardConfig haims h (by simp) fun _ => rfl
  | config config => exact step_boardConfig haims h (by simp) fun _ => rfl
  | configSnapshot revision config =>
    have hcloses : ∀ token, (BridgeInput.transport now (TransportEvent.boardRoundTable
        (.configSnapshot revision config)) : BridgeInput M).closes token = false := fun _ => rfl
    rw [step_of_same (after_snapshot run.worker) rfl,closed_none run.openTokens hcloses]
    exact observeBoardSnapshot_converging haims h now revision config
  | pulse =>
    have hkeeps : run.worker.KeepsBoard (run.worker.after
        (Worker.input transport (.transport now (.boardRoundTable .pulse)))) :=
      Worker.keepsBoard_call (.command (.publishRoundTable .pulse)) run.worker
    obtain ⟨hafter,hconverging⟩ := step_of_keepsBoard haims h hkeeps fun _ => rfl
    exact ⟨hafter,iff_of_true hconverging fun _ => trivial⟩

theorem step_outcome (haims : run.worker.pitches.Aims) (now token : Nat)
    (outcome : PitchIntentOutcome) :
    (run.step transport (.transport now (.pitchIntentOutcome token outcome))).worker.pitches.Aims ∧
      ((run.step transport (.transport now (.pitchIntentOutcome token outcome))).Converging ↔
        (run.worker.boardLink = .ready →
          run.EventKeeps transport (.pitchIntentOutcome token outcome))) := by
  have hopen : (run.openTokens.filter fun other => (BridgeInput.transport now
      (TransportEvent.pitchIntentOutcome token outcome) : BridgeInput M).closes other = false) =
        run.openTokens.erase token := erase_eq_filter run.openTokens token
  cases outcome with
  | applied =>
    have hsame : run.worker.after (Worker.input transport
        (.transport now (.pitchIntentOutcome token .applied))) = run.worker := rfl
    rw [step_of_same hsame rfl,hopen]
    exact ⟨haims,imp_congr Iff.rfl or_comm⟩
  | rejected error =>
    obtain ⟨hafter,hconverging⟩ := step_stage transport run
      (.transport now (.pitchIntentOutcome token (.rejected error))) rfl rfl
    rw [hopen] at hconverging
    exact ⟨hafter,hconverging.trans (imp_congr Iff.rfl or_comm)⟩

theorem step_roomPitchSet (haims : run.worker.pitches.Aims) (h : run.Converging) (now : Nat)
    (shared : SharedPitchSet) :
    (run.step transport (.transport now (.roomPitchSet shared))).worker.pitches.Aims ∧
      ((run.step transport (.transport now (.roomPitchSet shared))).Converging ↔
        (run.worker.boardLink = .ready → run.EventKeeps transport (.roomPitchSet shared))) := by
  by_cases hsame : run.worker.pitches.room = shared
  · -- The set is as it was: intents may be retired, and nothing is staged.
    have hkeeps : run.worker.KeepsBoard (run.worker.after
        (Worker.input transport (.transport now (.roomPitchSet shared)))) := by
      simp only [Worker.after,Worker.input,Worker.transportEvent,
        BridgePitchState.applyConfirmedRoom,hsame,ne_eq,not_true,decide_false]
      exact ⟨rfl,hsame.symm,rfl,rfl,rfl⟩
    obtain ⟨hafter,hconverging⟩ := step_of_keepsBoard haims h hkeeps fun _ => rfl
    exact ⟨hafter,iff_of_true hconverging fun _ hchanged => absurd hsame hchanged⟩
  · have hstaged :
      run.worker.after (Worker.input transport (.transport now (.roomPitchSet shared))) =
        (run.worker.setPitches (run.worker.pitches.applyConfirmedRoom shared).2).stage now := by
      simp only [Worker.after,Worker.input,Worker.transportEvent,
        BridgePitchState.applyConfirmedRoom,hsame,ne_eq,not_false_eq_true,decide_true,if_true]
    obtain ⟨hafter,hconverging⟩ := step_stage transport run _ hstaged rfl
    refine ⟨hafter,hconverging.trans (imp_congr Iff.rfl ?_)⟩
    rw [closed_none run.openTokens fun _ => rfl]
    simp only [EventKeeps,hsame,ne_eq,not_false_eq_true,true_implies]
    exact or_comm

theorem step_boardLink (now : Nat) (link : LinkState) :
    (run.step transport (.transport now (.boardLink link))).worker.pitches.Aims ∧
      ((run.step transport (.transport now (.boardLink link))).Converging ↔
        run.Keeps transport (.transport now (.boardLink link))) := by
  by_cases hready : link = .ready
  · subst hready
    have hstaged : run.worker.after (Worker.input transport (.transport now (.boardLink .ready))) =
        ({ run.worker with boardLink := .ready }.setPitches run.worker.pitches.forgetBoard).stage
          now := rfl
    obtain ⟨hafter,hconverging⟩ := step_stage transport run _ hstaged rfl
    refine ⟨hafter,hconverging.trans ?_⟩
    rw [closed_none run.openTokens fun _ => rfl]
    have hfree : run.worker.pitches.forgetBoard.StagesFreely ↔
        run.worker.pitches.hasPendingPitchIntent = false := by
      have hpending : run.worker.pitches.forgetBoard.hasPendingPitchIntent =
        run.worker.pitches.hasPendingPitchIntent := rfl
      unfold BridgePitchState.StagesFreely
      rw [hpending]
      cases run.worker.pitches.hasPendingPitchIntent <;> simp [BridgePitchState.forgetBoard]
    simp only [Worker.setPitches,hfree,Keeps,true_implies]
    exact or_comm
  · have hlost : run.worker.after (Worker.input transport (.transport now (.boardLink link))) =
        { run.worker with boardLink := link }.setPitches
          run.worker.pitches.abandonBoardPitchIntents.clearBoardTarget.forgetBoard := by
      cases link <;> first | rfl | exact absurd rfl hready
    rw [step_of_same hlost rfl]
    refine ⟨BridgePitchState.aims_of_none rfl,iff_of_true (fun hlink => absurd hlink hready) ?_⟩
    cases link <;> first | exact fun _ => trivial | exact absurd rfl hready

/-- What one input keeps: the target is always the room's configuration, and the board is taken
care of exactly where the input keeps it so. -/
theorem step_spec (haims : run.worker.pitches.Aims) (h : run.Converging) (input : BridgeInput M) :
    (run.step transport input).worker.pitches.Aims ∧
      ((run.step transport input).Converging ↔ run.Keeps transport input) := by
  cases input with
  | released mode event =>
    have hkeeps : run.worker.KeepsBoard
        (run.worker.after (Worker.input transport (.released mode event))) :=
      Worker.keepsBoard_releaseInput mode event run.worker
    obtain ⟨hafter,hconverging⟩ := step_of_keepsBoard haims h hkeeps fun _ => rfl
    exact ⟨hafter,iff_of_true hconverging trivial⟩
  | realtime mode event =>
    have hkeeps : run.worker.KeepsBoard
        (run.worker.after (Worker.input transport (.realtime mode event))) :=
      Worker.keepsBoard_realtimeInput mode event run.worker
    obtain ⟨hafter,hconverging⟩ := step_of_keepsBoard haims h hkeeps fun _ => rfl
    exact ⟨hafter,iff_of_true hconverging trivial⟩
  | passEnd now =>
    have hkeeps : run.worker.KeepsBoard
        (run.worker.after (Worker.input transport (.passEnd now))) :=
      Worker.keepsBoard_sendBoardTarget now run.worker
    obtain ⟨hafter,hconverging⟩ := step_of_keepsBoard haims h hkeeps fun _ => rfl
    exact ⟨hafter,iff_of_true hconverging trivial⟩
  | transport now event =>
    have hidle : run.worker.after (Worker.input transport (.transport now event)) = run.worker →
        (∀ token, (BridgeInput.transport now event).closes token = false) →
        (run.step transport (.transport now event)).worker.pitches.Aims ∧
          (run.step transport (.transport now event)).Converging := by
      intro hsame hcloses
      refine step_of_keepsBoard haims h ?_ hcloses
      rw [hsame]
      exact .refl run.worker
    cases event with
    | roomLink link =>
      by_cases hready : link = .ready
      · subst hready
        obtain ⟨hafter,hconverging⟩ := hidle rfl fun _ => rfl
        exact ⟨hafter,iff_of_true hconverging fun _ => trivial⟩
      · have hstaged : run.worker.after (Worker.input transport (.transport now (.roomLink link))) =
            (run.worker.setPitches
              run.worker.pitches.abandonPitchIntents.clearBoardTarget).stage now := by
          cases link <;> first | rfl | exact absurd rfl hready
        obtain ⟨hafter,hconverging⟩ := step_abandoned hstaged
        exact ⟨hafter,iff_of_true hconverging fun _ => trivial⟩
    | roomSelected room =>
      have hstaged :
        run.worker.after (Worker.input transport (.transport now (.roomSelected room))) =
          (run.worker.setPitches
            run.worker.pitches.abandonPitchIntents.clearBoardTarget).stage now := rfl
      obtain ⟨hafter,hconverging⟩ := step_abandoned hstaged
      exact ⟨hafter,iff_of_true hconverging fun _ => trivial⟩
    | boardLink link => exact step_boardLink now link
    | boardRoundTable frame => exact step_boardRoundTable haims h now frame
    | pitchIntentOutcome token outcome => exact step_outcome haims now token outcome
    | pitchIntentReset throughToken =>
      obtain ⟨hafter,hconverging⟩ := step_stage transport run
        (.transport now (.pitchIntentReset throughToken)) rfl rfl
      have hopen : (run.openTokens.filter fun other => (BridgeInput.transport now
          (TransportEvent.pitchIntentReset throughToken) : BridgeInput M).closes other = false) =
            run.openTokens.filter (throughToken < ·) := by
        simp [BridgeInput.closes]
      rw [hopen] at hconverging
      exact ⟨hafter,hconverging.trans (imp_congr Iff.rfl or_comm)⟩
    | roomPitchSet shared => exact step_roomPitchSet haims h now shared
    | roundTable frame =>
      obtain ⟨hafter,hconverging⟩ := step_stage transport run
        (.transport now (.roundTable frame)) rfl rfl
      rw [closed_none run.openTokens fun _ => rfl] at hconverging
      exact ⟨hafter,hconverging.trans (imp_congr Iff.rfl or_comm)⟩
    | midi event =>
      obtain ⟨hafter,hconverging⟩ := hidle rfl fun _ => rfl
      exact ⟨hafter,iff_of_true hconverging fun _ => trivial⟩
    | other code =>
      obtain ⟨hafter,hconverging⟩ := hidle rfl fun _ => rfl
      exact ⟨hafter,iff_of_true hconverging fun _ => trivial⟩

/-- A run keeps the board taken care of exactly as long as its inputs do. -/
theorem steps_converging_iff (haims : run.worker.pitches.Aims) (h : run.Converging)
    (inputs : List (BridgeInput M)) :
    (∀ earlier later, inputs = earlier ++ later → (run.steps transport earlier).Converging) ↔
      run.RunKeeps transport inputs := by
  induction inputs generalizing run with
  | nil =>
    refine iff_of_true (fun earlier later hinputs => ?_) trivial
    obtain ⟨rfl,-⟩ := List.nil_eq_append_iff.mp hinputs
    exact h
  | cons input rest ih =>
    obtain ⟨hafter,hkeeps⟩ := step_spec haims h input
    constructor
    · intro hall
      have hfirst := hall [input] rest rfl
      refine ⟨hkeeps.mp hfirst,(ih hafter hfirst).mp fun earlier later hrest => ?_⟩
      exact hall (input :: earlier) later (congrArg (input :: ·) hrest)
    · intro hrun earlier later hinputs
      have hfirst := hkeeps.mpr hrun.1
      cases earlier with
      | nil => exact h
      | cons other earlier =>
        obtain ⟨rfl,hrest⟩ := List.cons.inj hinputs
        exact (ih hafter hfirst).mpr hrun.2 earlier later hrest

end BridgeRun

/-- The board converges to the room: after every event of a run with the board connected an edit
is under way, or the board is to be repainted with the room's configuration or shows it, exactly
if no event of the run leaves the board behind. -/
theorem board_converges_iff (transport : Transport M) (inputs : List (BridgeInput M)) :
    (∀ earlier later, inputs = earlier ++ later →
        (({} : BridgeRun M).steps transport earlier).Converging) ↔
      ({} : BridgeRun M).RunKeeps transport inputs :=
  BridgeRun.steps_converging_iff (BridgePitchState.aims_of_none rfl)
    (fun hready => by cases hready) inputs

def refusingTransport : Transport plainMusic := fun _ _ => some (.unavailable "no room is joined")

/-- The board connects to an empty room, is repainted, and is then edited: the edit is refused. -/
def refusedEditInputs : List (BridgeInput plainMusic) :=
  [.transport 0 (.boardLink .ready),
    .transport 1 (.boardRoundTable (.configSnapshot 1 (plainConfig 0 ∅))),
    .transport 2 (.boardRoundTable (.config (plainConfig 0 {48})))]

/-- The board shows an edit that never left the bridge, and nothing repaints it. -/
theorem board_stays_on_refused_edit :
    let run := ({} : BridgeRun plainMusic).steps refusingTransport refusedEditInputs
    ¬ run.Converging ∧ run.worker.pitches.boardTarget = none ∧
      run.worker.pitches.boardConfirmed = some (plainConfig 0 {48}) ∧
      run.worker.pitches.boardConfig = plainConfig 0 ∅ := by
  have hready : (({} : BridgeRun plainMusic).steps refusingTransport
      refusedEditInputs).worker.boardLink = .ready := by decide +kernel
  have hopen : (({} : BridgeRun plainMusic).steps refusingTransport
      refusedEditInputs).openTokens = ∅ := by decide +kernel
  have htarget : (({} : BridgeRun plainMusic).steps refusingTransport
      refusedEditInputs).worker.pitches.boardTarget = none := by decide +kernel
  have hconfirmed : (({} : BridgeRun plainMusic).steps refusingTransport
      refusedEditInputs).worker.pitches.boardConfirmed = some (plainConfig 0 {48}) := by
    decide +kernel
  have hconfig : (({} : BridgeRun plainMusic).steps refusingTransport
      refusedEditInputs).worker.pitches.boardConfig = plainConfig 0 ∅ := by
    decide +kernel
  refine ⟨fun hconverging => ?_,htarget,hconfirmed,hconfig⟩
  rcases hconverging hready with htoken | hscheduled
  · rw [hopen] at htoken
    exact Finset.not_nonempty_empty htoken
  · rw [BridgePitchState.scheduled_iff_of_none htarget,hconfirmed,hconfig] at hscheduled
    exact absurd hscheduled (by decide +kernel)

end WalkieSongie.Bridge
