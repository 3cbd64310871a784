import WalkieSongie.PitchLevels
set_option autoImplicit false

/-!
What the bridge asks of the room: each handling of its own inputs issues at most one edit of a
class, and that edit is never what the bridge held the class for.
-/

namespace WalkieSongie.Bridge

variable {M : MusicLibrary}

/-- What the bridge's library promises for the twelve classes from note 48 up: the notes are the
classes, a cleared pattern is empty, toggling a note does just that, and an exact pitch that sounds
on such a note is of its class. -/
structure MusicLibrary.Lawful (M : MusicLibrary) : Prop where
  midi : ∀ pitchClass < 12, ∃ period,
    M.periodicPitchForMidi (48+pitchClass) = some (pitchClass,period)
  cleared : ∀ note, M.contains M.cleared note = false
  toggled : ∀ pattern note after, M.toggled pattern note = some after →
    ∀ other, M.contains after other =
      if other = note then !M.contains pattern note else M.contains pattern other
  toggles : ∀ pattern, ∀ pitchClass < 12, (M.toggled pattern (48+pitchClass)).isSome = true
  sounding : ∀ pitch : TunedPeriodicPitch, ∀ pitchClass : Nat, pitchClass < 12 →
    pitch.tuningId = M.twelveTet → M.roundedMidi pitch = 48+pitchClass →
      pitch.degree = pitchClass

namespace Worker

/-- What one handling by the bridge asks of a class: nothing, and then nothing new is pending; or a
level, which is not the one pending before, or not how the room stood. -/
def Asks (degree : TunedDegree) (before after : Worker M) : Prop :=
  let asked := after.issued.filterMap fun command => lastEdit degree command.pitchEdits
  (asked = [] ∧ ∀ intent, after.pitches.pendingClasses.get? degree = some intent →
      before.pitches.pendingClasses.get? degree = some intent) ∨
    ∃ active, asked = [active] ∧
      (∀ intent, after.pitches.pendingClasses.get? degree = some intent →
        intent.active = active) ∧
      ((∃ intent, before.pitches.pendingClasses.get? degree = some intent ∧
          intent.active ≠ active) ∨
        levelOf before.pitches.room degree ≠ .target active)

end Worker

section Plan

theorem contains_foldl_toggled (hlaw : M.Lawful) (chosen : Nat → Prop) [DecidablePred chosen]
    {pitchClass : Nat} (hclass : pitchClass < 12) {notes : List Nat} (hnodup : notes.Nodup)
    (pattern : M.Pattern) :
    M.contains (notes.foldl (fun pattern note =>
        if chosen note then (M.toggled pattern note).getD pattern else pattern) pattern)
      (48+pitchClass) =
      if 48+pitchClass ∈ notes ∧ chosen (48+pitchClass) then !M.contains pattern (48+pitchClass)
      else M.contains pattern (48+pitchClass) := by
  induction notes generalizing pattern with
  | nil => simp
  | cons note rest ih =>
    obtain ⟨hfresh,hrest⟩ := List.nodup_cons.mp hnodup
    rw [List.foldl_cons,ih hrest]
    by_cases hnote : 48+pitchClass = note
    · subst hnote
      by_cases hchosen : chosen (48+pitchClass)
      · obtain ⟨after,hafter⟩ := Option.isSome_iff_exists.mp
          (hlaw.toggles pattern pitchClass hclass)
        have hcontains := hlaw.toggled pattern (48+pitchClass) after hafter (48+pitchClass)
        simp only [if_true] at hcontains
        simp [hfresh,hchosen,hafter,hcontains]
      · simp [hchosen]
    · have hsame : M.contains (if chosen note then (M.toggled pattern note).getD pattern
          else pattern) (48+pitchClass) = M.contains pattern (48+pitchClass) := by
        split
        · cases htoggled : M.toggled pattern note with
          | none => rfl
          | some after =>
            have hcontains := hlaw.toggled pattern note after htoggled (48+pitchClass)
            rwa [if_neg hnote] at hcontains
        · rfl
      rw [hsame]
      simp [hnote]

theorem roomPattern_contains (hlaw : M.Lawful) (pitches : BridgePitchState M) {pitchClass : Nat}
    (hclass : pitchClass < 12) : M.contains pitches.roomPattern (48+pitchClass) =
      decide (48+pitchClass ∈ pitches.roomMidiNotes) := by
  unfold BridgePitchState.roomPattern BridgePitchState.boardConfig
  rw [contains_foldl_toggled hlaw _ hclass List.nodup_range,hlaw.cleared]
  have hrange : 48+pitchClass ∈ List.range 128 := List.mem_range.mpr (by omega)
  by_cases hnote : 48+pitchClass ∈ pitches.roomMidiNotes <;> simp [hrange,hnote]

theorem pitchForMidi_class (hlaw : M.Lawful) {pitchClass : Nat} (hclass : pitchClass < 12)
    {pitch : TunedPeriodicPitch} (h : pitchForMidi M (48+pitchClass) = .ok pitch) :
    sharedDegree pitch = ⟨M.twelveTet,pitchClass⟩ := by
  obtain ⟨period,hperiod⟩ := hlaw.midi pitchClass hclass
  rw [pitchForMidi,hperiod] at h
  cases h
  rfl

theorem mem_roomMidiNotes (hlaw : M.Lawful) (pitches : BridgePitchState M) {pitchClass : Nat}
    (hclass : pitchClass < 12) (h : 48+pitchClass ∈ pitches.roomMidiNotes) :
    levelOf pitches.room ⟨M.twelveTet,pitchClass⟩ ≠ .off := by
  have hcontained : containsClass pitches.room ⟨M.twelveTet,pitchClass⟩ = true := by
    simp only [BridgePitchState.roomMidiNotes,Finset.mem_union,Finset.mem_filter,
      Finset.mem_image] at h
    rcases h with hdegree | hexact
    · obtain ⟨⟨degree,⟨hmem,htuning⟩,hnote⟩,_⟩ := hdegree
      have hsame : degree = ⟨M.twelveTet,pitchClass⟩ := by
        cases degree
        simp_all
      simp [containsClass,← hsame,hmem]
    · obtain ⟨note,⟨⟨pitch,⟨hmem,htuning⟩,hrounded⟩,hlow,_⟩,hnote⟩ := hexact
      have hdegree : pitch.degree = pitchClass :=
        hlaw.sounding pitch pitchClass hclass htuning (by omega)
      have hsame : sharedDegree pitch = ⟨M.twelveTet,pitchClass⟩ := by
        simp [sharedDegree,htuning,hdegree]
      simp only [containsClass,decide_eq_true_eq]
      exact .inr ⟨pitch,hmem,hsame⟩
  exact (containsClass_eq _ _).mp hcontained

theorem notMem_roomMidiNotes (pitches : BridgePitchState M) {pitchClass : Nat}
    (hclass : pitchClass < 12) (h : 48+pitchClass ∉ pitches.roomMidiNotes) :
    levelOf pitches.room ⟨M.twelveTet,pitchClass⟩ ≠ .on := by
  intro hon
  refine h ?_
  have hmem : (⟨M.twelveTet,pitchClass⟩ : TunedDegree) ∈ pitches.room.pitchClasses := by
    unfold levelOf at hon
    split at hon
    · assumption
    · split at hon <;> cases hon
  simp only [BridgePitchState.roomMidiNotes,Finset.mem_union,Finset.mem_filter,Finset.mem_image]
  exact .inl ⟨⟨⟨M.twelveTet,pitchClass⟩,⟨hmem,rfl⟩,rfl⟩,by omega⟩

theorem mem_planPitchEdits {before after : M.Pattern} {classes : List Nat}
    {pitchEdits : List (TunedPeriodicPitch × Bool)}
    (hplan : BridgePitchState.planPitchEdits before after classes = .ok pitchEdits)
    {edit : TunedPeriodicPitch × Bool} (hedit : edit ∈ pitchEdits) :
    ∃ pitchClass ∈ classes, pitchForMidi M (48+pitchClass) = .ok edit.1 ∧
      edit.2 = M.contains after (48+pitchClass) ∧
      M.contains before (48+pitchClass) ≠ M.contains after (48+pitchClass) := by
  induction classes generalizing pitchEdits with
  | nil =>
    cases hplan
    cases hedit
  | cons pitchClass rest ih =>
    rw [BridgePitchState.planPitchEdits] at hplan
    by_cases hsame : M.contains before (48+pitchClass) ≠ M.contains after (48+pitchClass)
    · rw [if_pos hsame] at hplan
      cases hpitch : pitchForMidi M (48+pitchClass) with
      | error error =>
        rw [hpitch] at hplan
        cases hplan
      | ok pitch =>
        cases hrest : BridgePitchState.planPitchEdits before after rest with
        | error error =>
          rw [hpitch,hrest] at hplan
          cases hplan
        | ok edits =>
          rw [hpitch,hrest] at hplan
          cases hplan
          rcases List.mem_cons.mp hedit with rfl | hmem
          · exact ⟨pitchClass,.head _,hpitch,rfl,hsame⟩
          · obtain ⟨other,hother,hfound⟩ := ih hrest hmem
            exact ⟨other,.tail _ hother,hfound⟩
    · rw [if_neg hsame] at hplan
      obtain ⟨other,hother,hfound⟩ := ih hplan hedit
      exact ⟨other,.tail _ hother,hfound⟩

theorem planBoardEdit_stands (hlaw : M.Lawful) {pitches : BridgePitchState M}
    {config : RoundTableConfig M} {plan : BoardEditPlan M}
    (hplan : pitches.planBoardEdit config = .ok plan) {edit : TunedPeriodicPitch × Bool}
    (hedit : edit ∈ plan.pitchEdits) :
    levelOf pitches.room (sharedDegree edit.1) ≠ .target edit.2 := by
  unfold BridgePitchState.planBoardEdit at hplan
  cases hedits : BridgePitchState.planPitchEdits pitches.roomPattern config.pattern
      (List.range 12) with
  | error error =>
    rw [hedits] at hplan
    cases hplan
  | ok pitchEdits =>
    rw [hedits] at hplan
    cases hplan
    obtain ⟨pitchClass,hclass,hpitch,hactive,hdiffers⟩ := mem_planPitchEdits hedits hedit
    have hclass := List.mem_range.mp hclass
    rw [roomPattern_contains hlaw pitches hclass,← hactive] at hdiffers
    rw [pitchForMidi_class hlaw hclass hpitch]
    cases hedit : edit.2 with
    | true =>
      have hnote : 48+pitchClass ∉ pitches.roomMidiNotes := by simpa [hedit] using hdiffers
      exact notMem_roomMidiNotes pitches hclass hnote
    | false =>
      have hnote : 48+pitchClass ∈ pitches.roomMidiNotes := by simpa [hedit] using hdiffers
      exact mem_roomMidiNotes hlaw pitches hclass hnote

end Plan

namespace Worker

/-- The room set stays, and every class is asked for something or nothing. -/
structure AsksAll (before after : Worker M) : Prop where
  room : after.pitches.room = before.pitches.room
  asks : ∀ degree, Asks degree before after

theorem asksAll_quiet {before after : Worker M} (hroom : after.pitches.room = before.pitches.room)
    (hissued : ∀ command ∈ after.issued, command.pitchEdits = [])
    (hpending : ∀ degree intent, after.pitches.pendingClasses.get? degree = some intent →
      before.pitches.pendingClasses.get? degree = some intent) : AsksAll before after := by
  refine ⟨hroom,fun degree => .inl ⟨?_,hpending degree⟩⟩
  rw [List.filterMap_eq_nil_iff]
  intro command hcommand
  simp [hissued command hcommand,lastEdit]

theorem asksAll_same {before after : Worker M} (hcalls : after.calls = [])
    (hroom : after.pitches.room = before.pitches.room)
    (hpending : after.pitches.pendingClasses = before.pitches.pendingClasses) :
    AsksAll before after :=
  asksAll_quiet hroom (by simp [issued,hcalls]) (by simp [hpending])

theorem AsksAll.congr {before middle after : Worker M} (h : AsksAll middle after)
    (hroom : middle.pitches.room = before.pitches.room)
    (hpending : middle.pitches.pendingClasses = before.pitches.pendingClasses) :
    AsksAll before after where
  room := h.room.trans hroom
  asks degree := by
    have hasks := h.asks degree
    rwa [Asks,hpending,hroom] at hasks

/-- One command with edits that are not how the class stood is issued and tracked. -/
theorem asksAll_tracked {before after : Worker M} {command : DriverCommand M} {token : Nat}
    {source : PitchIntentSource} (hroom : after.pitches.room = before.pitches.room)
    (hissued : after.issued = [command])
    (hpending : after.pitches.pendingClasses =
      (before.pitches.trackPitchIntent token source command.pitchEdits).pendingClasses)
    (hstands : ∀ degree active, lastEdit degree command.pitchEdits = some active →
      (∃ intent, before.pitches.pendingClasses.get? degree = some intent ∧
          intent.active ≠ active) ∨
        levelOf before.pitches.room degree ≠ .target active) : AsksAll before after := by
  refine ⟨hroom,fun degree => ?_⟩
  unfold Asks
  simp only [hissued,hpending,trackPitchIntent_get?,List.filterMap_cons,List.filterMap_nil]
  cases hedit : lastEdit degree command.pitchEdits with
  | none => exact .inl ⟨rfl,fun _ h => h⟩
  | some active =>
    refine .inr ⟨active,rfl,fun intent hintent => ?_,hstands degree active hedit⟩
    cases hintent
    rfl

theorem issued_of_call {before after : Worker M} (hbefore : before.calls = [])
    {call : TransportCall M} {answer : Option BridgeError} {command : DriverCommand M}
    (hcommand : call.driverCommand = some command)
    (hcalls : after.calls = (call,answer) :: before.calls) : after.issued = [command] := by
  simp [issued,hcalls,hbefore,hcommand]

theorem asksAll_applySharedPitchIntent {worker : Worker M} (hcalls : worker.calls = [])
    {pitch : TunedPeriodicPitch} {active : Bool}
    (hshown : worker.pitches.containsOptimisticPitchClass pitch = !active) :
    AsksAll worker (worker.after (applySharedPitchIntent openTransport pitch active)) := by
  rw [after_applySharedPitchIntent]
  by_cases hroom : worker.pitches.nextIntentToken+1 < 2^64
  · simp only [hroom,if_true,openTransport]
    refine asksAll_tracked rfl (issued_of_call hcalls rfl rfl) rfl fun degree asked hasked => ?_
    have hdegree : sharedDegree pitch = degree ∧ active = asked := by
      rw [DriverCommand.pitchEdits,lastEdit_singleton] at hasked
      split at hasked
      · exact ⟨by assumption,Option.some.inj hasked⟩
      · cases hasked
    obtain ⟨rfl,rfl⟩ := hdegree
    unfold BridgePitchState.containsOptimisticPitchClass at hshown
    cases hpending : worker.pitches.pendingClasses.get? (sharedDegree pitch) with
    | some intent =>
      rw [hpending] at hshown
      exact .inl ⟨intent,rfl,by simp [hshown]⟩
    | none =>
      rw [hpending] at hshown
      have hdiffers : containsClass worker.pitches.room (sharedDegree pitch) ≠ active := by
        have hcontains : containsClass worker.pitches.room (sharedDegree pitch) = !active := hshown
        simp [hcontains]
      exact .inr (levelOf_ne_target hdiffers)
  · rw [if_neg hroom]
    exact asksAll_same hcalls rfl rfl

theorem asksAll_publishBoardEdit (hlaw : M.Lawful) {worker : Worker M} (hcalls : worker.calls = [])
    (frame : RoundTableFrame M) (config : RoundTableConfig M) :
    AsksAll worker (worker.after (publishBoardEdit openTransport frame config)) := by
  unfold after publishBoardEdit
  cases hplan : worker.pitches.planBoardEdit config with
  | error error => exact asksAll_same hcalls rfl rfl
  | ok plan =>
    have hstands (degree : TunedDegree) (active : Bool)
        (h : lastEdit degree plan.pitchEdits = some active) :
        levelOf worker.pitches.room degree ≠ .target active := by
      obtain ⟨edit,hedit,hdegree,hactive⟩ := lastEdit_eq_some h
      rw [← hdegree,← hactive]
      exact planBoardEdit_stands hlaw hplan hedit
    cases frame with
    | configSnapshot revision snapshot => exact asksAll_same hcalls rfl rfl
    | run _ | config _ | pulse =>
      simp only [BridgePitchState.allocateIntentToken]
      by_cases hroom : worker.pitches.nextIntentToken+1 < 2^64
      · simp only [hroom,if_true]
        refine asksAll_tracked rfl (issued_of_call hcalls rfl rfl) rfl ?_
        intro degree active h
        exact .inr (hstands degree active h)
      · simp only [hroom,if_false]
        exact asksAll_same hcalls rfl rfl

theorem observeBoard_keeps (now : Nat) (frame : RoundTableFrame M) (pitches : BridgePitchState M) :
    (observeBoard now frame pitches).2.room = pitches.room ∧
      (observeBoard now frame pitches).2.pendingClasses = pitches.pendingClasses := by
  cases frame with
  | run config | config config =>
    simp only [observeBoard,BridgePitchState.observeBoardConfig]
    split <;> exact ⟨rfl,rfl⟩
  | pulse => exact ⟨rfl,rfl⟩
  | configSnapshot revision config =>
    simp only [observeBoard,BridgePitchState.observeBoardSnapshot]
    split
    · exact ⟨rfl,rfl⟩
    · split
      · exact ⟨rfl,rfl⟩
      · split
        · exact ⟨rfl,rfl⟩
        · split
          · exact ⟨rfl,rfl⟩
          · simp only [BridgePitchState.stageBoardTarget]
            split
            · exact ⟨rfl,rfl⟩
            · split <;> exact ⟨rfl,rfl⟩

theorem asksAll_stage {before after : Worker M} (h : AsksAll before after) (now : Nat) :
    AsksAll before (after.stage now) := by
  obtain ⟨hroom,_,_,hpending⟩ := after.pitches.stageBoardTarget_keeps now
  refine ⟨hroom.trans h.room,fun degree => ?_⟩
  have hasks := h.asks degree
  unfold Asks at hasks ⊢
  simp only [stage,setPitches,hpending]
  exact hasks

theorem asksAll_publishRoundTable {worker : Worker M} (hcalls : worker.calls = [])
    (frame : RoundTableFrame M) :
    AsksAll worker (worker.after (call openTransport (.command (.publishRoundTable frame)))) := by
  refine asksAll_quiet rfl (fun command hcommand => ?_) fun _ _ h => h
  have hissued : command = .roundTable frame := by
    simpa [issued,after,call,hcalls,TransportCall.driverCommand,BridgeCommand.driverCommand]
      using hcommand
  rw [hissued]
  rfl

theorem asksAll_boardRoundTable (hlaw : M.Lawful) {worker : Worker M} (hcalls : worker.calls = [])
    (now : Nat) (frame : RoundTableFrame M) :
    AsksAll worker (worker.after (boardRoundTable openTransport now frame)) := by
  obtain ⟨hroom,hpending⟩ := observeBoard_keeps now frame worker.pitches
  unfold after boardRoundTable
  generalize observeBoard now frame worker.pitches = result at *
  obtain ⟨observed,pitches⟩ := result
  have hseen : AsksAll worker (worker.setPitches pitches) := asksAll_same hcalls hroom hpending
  have hsilent : (worker.setPitches pitches).calls = [] := hcalls
  have hpublished := (asksAll_publishRoundTable hsilent frame).congr hroom hpending
  cases observed with
  | none =>
    cases frame with
    | run config | pulse => exact hpublished
    | config config | configSnapshot revision config => exact hseen
  | some seen =>
    obtain ⟨config,observation⟩ := seen
    cases observation with
    | confirmed | staleEcho =>
      cases frame with
      | run config | pulse => exact hpublished
      | config config | configSnapshot revision config => exact hseen
    | boardEdit =>
      exact (asksAll_publishBoardEdit hlaw hsilent frame config).congr hroom hpending

/-- Whatever comes to the bridge but a room set asks for something or nothing of each class. -/
theorem asksAll_transportEvent (hlaw : M.Lawful) {worker : Worker M} (hcalls : worker.calls = [])
    (now : Nat) {event : TransportEvent M} (hset : event.pitchSet = none) :
    AsksAll worker (worker.after (transportEvent openTransport now event)) := by
  have hretained (keep : TunedDegree → PendingPitchIntent → Bool) :
      ∀ degree intent, (worker.pitches.pendingClasses.retain keep).get? degree = some intent →
        worker.pitches.pendingClasses.get? degree = some intent := by
    intro degree intent hintent
    rw [KeyedMap.get?_retain] at hintent
    exact (Option.filter_eq_some_iff.mp hintent).1
  have hsilent {after : Worker M} (hafter : after.calls = worker.calls) :
      ∀ command ∈ after.issued, command.pitchEdits = [] := by
    simp [issued,hafter,hcalls]
  have habandoned : AsksAll worker
      (worker.setPitches worker.pitches.abandonPitchIntents.clearBoardTarget) :=
    asksAll_quiet rfl (hsilent rfl) fun _ _ h => by cases h
  cases event with
  | roomPitchSet shared => cases hset
  | midi event | other code => exact asksAll_same hcalls rfl rfl
  | roundTable frame =>
    have happlied : AsksAll worker
        (worker.setPitches (worker.pitches.applyRoundTable frame)) :=
      asksAll_same hcalls (by cases frame <;> rfl) (by cases frame <;> rfl)
    exact asksAll_stage happlied now
  | boardRoundTable frame => exact asksAll_boardRoundTable hlaw hcalls now frame
  | pitchIntentOutcome token outcome =>
    cases outcome with
    | applied => exact asksAll_same hcalls rfl rfl
    | rejected error =>
      have hrejected : AsksAll worker
          (worker.setPitches (worker.pitches.rejectPitchIntent token)) :=
        asksAll_quiet rfl (hsilent rfl) (hretained _)
      exact asksAll_stage hrejected now
  | pitchIntentReset throughToken =>
    have hreset : AsksAll worker
        (worker.setPitches (worker.pitches.abandonPitchIntentsThrough throughToken)) :=
      asksAll_quiet rfl (hsilent rfl) (hretained _)
    exact asksAll_stage hreset now
  | roomSelected room => exact asksAll_stage habandoned now
  | roomLink link =>
    cases link with
    | ready => exact asksAll_same hcalls rfl rfl
    | offline | discovering | connecting | authenticating | repairing | refused | failed =>
      exact asksAll_stage habandoned now
  | boardLink link =>
    cases link with
    | ready =>
      have hforgotten : AsksAll worker
          ({ worker with boardLink := .ready }.setPitches worker.pitches.forgetBoard) :=
        asksAll_same hcalls rfl rfl
      exact asksAll_stage hforgotten now
    | offline | discovering | connecting | authenticating | repairing | refused | failed =>
      exact asksAll_quiet rfl (hsilent rfl) (hretained fun _ intent => intent.source ≠ .board)

theorem asksAll_realtimeCall {worker : Worker M} (hcalls : worker.calls = [])
    (event : RealtimeMidi) :
    AsksAll worker (worker.after (call openTransport (.realtime event))) := by
  refine asksAll_quiet rfl (fun command hcommand => ?_) fun _ _ h => h
  simp [issued,after,call,hcalls,TransportCall.driverCommand] at hcommand

theorem asksAll_handleHostNoteRelease {worker : Worker M} (hcalls : worker.calls = [])
    (mode : MidiInputMode) (note : Nat) :
    AsksAll worker (worker.after (handleHostNoteRelease openTransport mode note)) := by
  simp only [after,handleHostNoteRelease]
  split
  · exact asksAll_same hcalls rfl rfl
  · cases pitchForMidi M note with
    | error error => exact asksAll_same hcalls rfl rfl
    | ok pitch =>
      dsimp only
      split
      · rename_i hlast
        have hmarked : (worker.setPitches (worker.pitches.setHostHeld note false).2).calls = [] :=
          hcalls
        exact (asksAll_applySharedPitchIntent hmarked (by simp [setPitches,hlast.2])).congr rfl rfl
      · exact asksAll_same hcalls rfl rfl

theorem asksAll_handleHostNoteOn {worker : Worker M} (hcalls : worker.calls = [])
    (mode : MidiInputMode) (note : Nat) :
    AsksAll worker (worker.after (handleHostNoteOn openTransport mode note)) := by
  have hmarked : (worker.setPitches (worker.pitches.setHostHeld note true).2).calls = [] := hcalls
  simp only [after,handleHostNoteOn]
  split
  · exact asksAll_same hcalls rfl rfl
  · cases pitchForMidi M note with
    | error error => exact asksAll_same hcalls rfl rfl
    | ok pitch =>
      cases mode with
      | toggleSet =>
        exact (asksAll_applySharedPitchIntent hmarked (by simp [setPitches])).congr rfl rfl
      | gateSet =>
        dsimp only
        split
        · exact asksAll_same hcalls rfl rfl
        · rename_i habsent
          exact (asksAll_applySharedPitchIntent hmarked
            (by simpa [setPitches] using habsent)).congr rfl rfl
      | perform => exact asksAll_same hcalls rfl rfl

theorem asksAll_local (hlaw : M.Lawful) {worker : Worker M} (hcalls : worker.calls = [])
    (input : LocalInput M) :
    AsksAll worker (worker.after (Worker.input openTransport input.input)) := by
  cases input with
  | released mode event =>
    simp only [LocalInput.input,Worker.input,releaseInput]
    split
    · exact asksAll_realtimeCall hcalls event
    · split
      · exact asksAll_handleHostNoteRelease hcalls mode event.note
      · exact asksAll_realtimeCall hcalls event
  | realtime mode event =>
    simp only [LocalInput.input,Worker.input,realtimeInput]
    split
    · split
      · exact asksAll_realtimeCall hcalls event
      · split
        · exact asksAll_handleHostNoteRelease hcalls mode event.note
        · exact asksAll_handleHostNoteOn hcalls mode event.note
    · exact asksAll_realtimeCall hcalls event
  | boardRoundTable now frame => exact asksAll_boardRoundTable hlaw hcalls now frame
  | boardLink now link => exact asksAll_transportEvent hlaw hcalls now rfl
  | passEnd now =>
    simp only [LocalInput.input,Worker.input,after,sendBoardTarget,
      BridgePitchState.boardTargetDue]
    cases worker.pitches.boardTarget with
    | none => exact asksAll_same hcalls rfl rfl
    | some target =>
      dsimp only
      split
      · rename_i hdue
        split at hdue
        · cases hdue
          exact asksAll_same hcalls rfl rfl
        · cases hdue
      · rename_i hdue
        split at hdue
        · cases hdue
        · cases hdue
          refine asksAll_quiet rfl (fun command hcommand => ?_) fun _ _ h => h
          simp [issued,call,setPitches,hcalls,TransportCall.driverCommand,
            BridgeCommand.driverCommand] at hcommand

end Worker

end WalkieSongie.Bridge
