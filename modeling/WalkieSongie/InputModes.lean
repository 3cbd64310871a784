import WalkieSongie.HeldKeys
import WalkieSongie.HostInput
set_option autoImplicit false

/-!
The input mode is changed while keys are held, at the bridge and at the browser's MIDI input: a
release that comes in a mode which passes over it leaves its key held.
-/

namespace WalkieSongie.Bridge
open HeldKeys

section Bridge

variable {M : MusicLibrary}

/-- What the worker takes in passes of their own: a key event of the host's in the mode that is set
then, an event of the transport, or the end of a pass. -/
inductive ModePass (M : MusicLibrary) where
  | key (mode : MidiInputMode) (event : RealtimeMidi) (isKey : event.isKey = true)
  | transport (now : Nat) (event : TransportEvent M)
  | passEnd (now : Nat)

namespace ModePass

variable (transport : Transport M)

def step (worker : Worker M) : ModePass M → Worker M
  | .key mode event _ => worker.keyInput transport mode event
  | .transport now event => worker.after (Worker.input transport (.transport now event))
  | .passEnd now => worker.after (Worker.input transport (.passEnd now))

def run (passes : List (ModePass M)) : Worker M := passes.foldl (step transport) {}

/-- Perform mode passes over the keys. -/
def touch : ModePass M → Option (Touch Nat)
  | .key mode event _ => some (.key event.note event.isPress (mode ≠ .perform))
  | _ => none

end ModePass

def HeldArePressed (held : Finset Nat) (touches : List (Touch Nat)) : Prop :=
  ∀ note ∈ held, last note touches = some true

/-- A note that was released last is not marked as pressed last. -/
def ReleasesMarked (touches : List (Touch Nat)) : Prop :=
  ∀ note, last note touches = some false → lastMark note touches ≠ some true

section Keeps

variable {transport : Transport M}

theorem observeBoard_hostHeld (now : Nat) (frame : RoundTableFrame M)
    (pitches : BridgePitchState M) :
    (Worker.observeBoard now frame pitches).2.hostHeld = pitches.hostHeld := by
  have hconfig : ∀ config, (pitches.observeBoardConfig config).2.hostHeld = pitches.hostHeld := by
    intro config
    simp only [BridgePitchState.observeBoardConfig]
    split <;> rfl
  cases frame with
  | run config => exact hconfig config
  | config config => exact hconfig config
  | configSnapshot revision config =>
    simp only [Worker.observeBoard,BridgePitchState.observeBoardSnapshot]
    split
    · rfl
    split
    · rfl
    split
    · rfl
    split
    · rfl
    · exact BridgePitchState.stageBoardTarget_hostHeld _ now
  | pulse => rfl

theorem publishBoardEdit_hostHeld (frame : RoundTableFrame M) (config : RoundTableConfig M)
    (worker : Worker M) :
    (worker.after (Worker.publishBoardEdit transport frame config)).pitches.hostHeld =
      worker.pitches.hostHeld := by
  simp only [Worker.after,Worker.publishBoardEdit,BridgePitchState.allocateIntentToken]
  split
  · rfl
  split
  · rfl
  split
  · rfl
  rename_i token pitches hallocated
  have hheld : pitches.hostHeld = worker.pitches.hostHeld := by
    split at hallocated
    · cases hallocated
      rfl
    · cases hallocated
  simp only [Worker.call]
  generalize transport _ _ = answer
  cases answer <;> exact hheld

theorem transportEvent_hostHeld (now : Nat) (event : TransportEvent M) (worker : Worker M) :
    (worker.after (Worker.input transport (.transport now event))).pitches.hostHeld =
      worker.pitches.hostHeld := by
  have hstage : ∀ worker : Worker M, (worker.stage now).pitches.hostHeld =
      worker.pitches.hostHeld := fun worker =>
    worker.pitches.stageBoardTarget_hostHeld now
  cases event with
  | roomLink link =>
    cases link <;> first | rfl | exact hstage _
  | roomSelected room => exact hstage _
  | boardLink link =>
    cases link <;> first | rfl | exact hstage _
  | boardRoundTable frame =>
    have hobserved := observeBoard_hostHeld now frame worker.pitches
    simp only [Worker.after,Worker.input,Worker.transportEvent,Worker.boardRoundTable]
    split
    · exact (publishBoardEdit_hostHeld frame _ _).trans hobserved
    · cases frame <;> exact hobserved
  | pitchIntentOutcome token outcome =>
    cases outcome with
    | applied => rfl
    | rejected error => exact hstage _
  | pitchIntentReset throughToken => exact hstage _
  | roomPitchSet shared =>
    simp only [Worker.after,Worker.input,Worker.transportEvent]
    split
    · exact hstage _
    · rfl
  | roundTable frame =>
    refine (hstage _).trans ?_
    cases frame <;> rfl
  | midi event => rfl
  | other code => rfl

theorem passEnd_hostHeld (now : Nat) (worker : Worker M) :
    (worker.after (Worker.input transport (.passEnd now))).pitches.hostHeld =
      worker.pitches.hostHeld := by
  simp only [Worker.after,Worker.input,Worker.sendBoardTarget,BridgePitchState.boardTargetDue]
  cases worker.pitches.boardTarget with
  | none => rfl
  | some target =>
    cases hdue : worker.pitches.boardRetryAt.any (now < ·) with
    | true => rfl
    | false => rfl

theorem ModePass.step_hostHeld (worker : Worker M) (pass : ModePass M) :
    (pass.step transport worker).pitches.hostHeld =
      HeldKeys.run worker.pitches.hostHeld pass.touch.toList := by
  cases pass with
  | key mode event isKey =>
    by_cases hmode : mode = .perform
    · subst mode
      simp only [step,touch,Worker.keyInput,Worker.releaseInput,Worker.realtimeInput,Worker.after]
      split
      · rfl
      split <;> rfl
    · ext note
      rw [step,Worker.keyInput_hostHeld hmode isKey]
      by_cases hnote : note = event.note <;> by_cases hpress : event.isPress = true <;>
        simp [touch,HeldKeys.run,apply,hmode,hnote,hpress]
  | transport now event => exact transportEvent_hostHeld now event worker
  | passEnd now => exact passEnd_hostHeld now worker

theorem ModePass.run_hostHeld (passes : List (ModePass M)) :
    (ModePass.run transport passes).pitches.hostHeld =
      HeldKeys.run ∅ (passes.filterMap ModePass.touch) := by
  have hfrom : ∀ worker : Worker M,
      (passes.foldl (ModePass.step transport) worker).pitches.hostHeld =
        HeldKeys.run worker.pitches.hostHeld (passes.filterMap ModePass.touch) := by
    induction passes with
    | nil => exact fun worker => rfl
    | cons pass passes ih =>
      intro worker
      rw [List.foldl_cons,ih,ModePass.step_hostHeld,← HeldKeys.run_append]
      cases htouch : pass.touch <;> simp [htouch]
  exact hfrom {}

end Keeps

end Bridge

section Browser

structure MidiInputEvent where
  note : Nat
  velocity : Nat
  isNoteOn : Bool

/-- The client's active tuning: the class that the frequency of a MIDI note has in it, and the
degree of a class. -/
structure ClientTuning where
  quantize : Nat → Option Nat
  degree : Nat → Option TunedDegree

/-- A degree is set at the host; one that goes takes the exact pitches of its class along. -/
inductive DegreeDispatch where
  | add (pitch : TunedDegree)
  | remove (pitch : TunedDegree) (absoluteMembers : Finset TunedPeriodicPitch)

/-- What the browser's client reads and writes as MIDI comes in. -/
structure ClientState where
  nativeBackend : Bool
  arpeggiatorEditMode : Bool := true
  arpMidiHeld : Finset Nat := ∅
  tuning : ClientTuning
  nativeSnapshot : Option SharedPitchSet := none
  /-- What the performance feedback has pending for a degree. -/
  desired : TunedDegree → Option Bool := fun _ => none
  dispatched : List DegreeDispatch := []
  toggleSet : Finset Nat := ∅

namespace ClientState

def currentNativePitch (client : ClientState) (pitchClass : Nat) : Option TunedDegree :=
  client.tuning.degree pitchClass

def absoluteMembers (client : ClientState) (pitch : TunedDegree) : Finset TunedPeriodicPitch :=
  match client.nativeSnapshot with
  | none => ∅
  | some snapshot => snapshot.pitches.filter fun candidate => sharedDegree candidate = pitch

def setNativeDegree (pitchClass : Nat) (active : Bool) (client : ClientState) : ClientState :=
  match client.currentNativePitch pitchClass with
  | none => client
  | some pitch =>
    { client with dispatched := client.dispatched ++
        [if active then .add pitch else .remove pitch (client.absoluteMembers pitch)] }

def degreeIsActive (client : ClientState) (pitchClass : Nat) : Bool :=
  match client.currentNativePitch pitchClass with
  | none => false
  | some pitch => (client.desired pitch).getD <|
      client.nativeSnapshot.any fun snapshot => containsClass snapshot pitch

def toggleNativeSharedPitchClass (note : Nat) (client : ClientState) : ClientState :=
  match client.tuning.quantize note with
  | none => client
  | some pitchClass =>
    client.setNativeDegree pitchClass (!client.degreeIsActive pitchClass)

def routeMidiEvent (event : MidiInputEvent) (client : ClientState) : ClientState :=
  match client.tuning.quantize event.note with
  | none => client
  | some pitchClass =>
    if client.nativeBackend && client.arpeggiatorEditMode then
      if event.isNoteOn then
        if event.note ∈ client.arpMidiHeld then client
        else toggleNativeSharedPitchClass event.note
          { client with arpMidiHeld := insert event.note client.arpMidiHeld }
      else { client with arpMidiHeld := client.arpMidiHeld.erase event.note }
    else if client.nativeBackend then client.setNativeDegree pitchClass event.isNoteOn
    else if event.isNoteOn then { client with toggleSet := insert pitchClass client.toggleSet }
    else { client with toggleSet := client.toggleSet.erase pitchClass }

end ClientState

inductive ClientStep where
  | midi (event : MidiInputEvent)
  | toggleEditMode
  | roomChanged
  | retuned (tuning : ClientTuning)
  | shown (nativeSnapshot : Option SharedPitchSet) (desired : TunedDegree → Option Bool)

namespace ClientState

def step (client : ClientState) : ClientStep → ClientState
  | .midi event => client.routeMidiEvent event
  | .toggleEditMode => { client with arpeggiatorEditMode := !client.arpeggiatorEditMode }
  | .roomChanged => { client with arpMidiHeld := ∅ }
  | .retuned tuning => { client with tuning }
  | .shown nativeSnapshot desired => { client with nativeSnapshot, desired }

def run (client : ClientState) (steps : List ClientStep) : ClientState := steps.foldl step client

/-- Only the edit mode over a host takes the key, where the tuning has a class for it. -/
def touch (client : ClientState) : ClientStep → Option (Touch Nat)
  | .midi event => some (.key event.note event.isNoteOn (client.nativeBackend &&
      client.arpeggiatorEditMode && (client.tuning.quantize event.note).isSome))
  | .roomChanged => some .clear
  | _ => none

def touches (client : ClientState) : List ClientStep → List (Touch Nat)
  | [] => []
  | next :: steps => (client.touch next).toList ++ (client.step next).touches steps

@[simp] theorem setNativeDegree_held (pitchClass : Nat) (active : Bool) (client : ClientState) :
    (client.setNativeDegree pitchClass active).arpMidiHeld = client.arpMidiHeld := by
  unfold setNativeDegree
  split <;> rfl

theorem setNativeDegree_holding (pitchClass : Nat) (active : Bool) (held : Finset Nat)
    (client : ClientState) : setNativeDegree pitchClass active { client with arpMidiHeld := held } =
      { client.setNativeDegree pitchClass active with arpMidiHeld := held } := by
  simp only [setNativeDegree,currentNativePitch]
  cases client.tuning.degree pitchClass <;> rfl

@[simp] theorem toggleNativeSharedPitchClass_held (note : Nat) (client : ClientState) :
    (client.toggleNativeSharedPitchClass note).arpMidiHeld = client.arpMidiHeld := by
  unfold toggleNativeSharedPitchClass
  split
  · rfl
  · exact setNativeDegree_held _ _ client

theorem step_arpMidiHeld (client : ClientState) (next : ClientStep) :
    (client.step next).arpMidiHeld =
      HeldKeys.run client.arpMidiHeld (client.touch next).toList := by
  cases next with
  | midi event =>
    simp only [step,touch,routeMidiEvent,Option.toList_some,HeldKeys.run,List.foldl_cons,
      List.foldl_nil,apply]
    cases hquantized : client.tuning.quantize event.note with
    | none => simp
    | some pitchClass =>
      cases client.nativeBackend <;> cases client.arpeggiatorEditMode <;>
        cases event.isNoteOn <;> simp
      split
      · rename_i hheld
        exact (Finset.insert_eq_of_mem hheld).symm
      · simp
  | _ => rfl

theorem run_arpMidiHeld (client : ClientState) (steps : List ClientStep) :
    (client.run steps).arpMidiHeld = HeldKeys.run client.arpMidiHeld (client.touches steps) := by
  induction steps generalizing client with
  | nil => rfl
  | cons next steps ih =>
    rw [touches,HeldKeys.run_append,← step_arpMidiHeld]
    exact ih (client.step next)

end ClientState

end Browser

section Modes

variable {M : MusicLibrary}

theorem notMem_run_of_released {touches : List (Touch Nat)} {note : Nat}
    (hmarked : ReleasesMarked touches) (hreleased : last note touches ≠ some true) :
    note ∉ HeldKeys.run ∅ touches := by
  intro hheld
  exact hreleased ((held_pressed_iff touches).mpr hmarked note hheld)

/-- Where no key that is let go stays held, a press of a note that was not pressed last is not taken
for the keyboard's repeat: it makes its edit. -/
theorem fresh_press_edits (transport : Transport M) (passes : List (ModePass M))
    (hmarked : ReleasesMarked (passes.filterMap ModePass.touch)) {mode : MidiInputMode}
    (hmode : mode ≠ .perform) {event : RealtimeMidi} (hkey : event.isKey = true)
    (hpress : event.isPress = true) {pitch : TunedPeriodicPitch}
    (hpitch : pitchForMidi M event.note = .ok pitch)
    (hreleased : last event.note (passes.filterMap ModePass.touch) ≠ some true) :
    let worker := ModePass.run transport passes
    let present := worker.pitches.containsOptimisticPitchClass pitch
    worker.keyInput transport mode event = (worker.setHeld event).edit transport
      (if mode = .toggleSet then some (pitch,!present)
        else if present then none else some (pitch,true)) := by
  intro worker present
  have hfresh : event.note ∉ worker.pitches.hostHeld := by
    rw [ModePass.run_hostHeld]
    exact notMem_run_of_released hmarked hreleased
  rw [Worker.keyInput_eq hmode hkey]
  simp only [BridgePitchState.intentOf,hpitch,hpress,hfresh,if_true,if_false]
  rfl

/-- In the browser such a press toggles its class, and its key is held. -/
theorem fresh_press_toggles (client : ClientState) (hidle : client.arpMidiHeld = ∅)
    (steps : List ClientStep) (hmarked : ReleasesMarked (client.touches steps))
    {event : MidiInputEvent} (hpress : event.isNoteOn = true)
    (hreleased : last event.note (client.touches steps) ≠ some true)
    (hedits : ((client.run steps).nativeBackend && (client.run steps).arpeggiatorEditMode) = true) :
    let before := client.run steps
    before.step (.midi event) = { before.toggleNativeSharedPitchClass event.note with
      arpMidiHeld := if (before.tuning.quantize event.note).isSome then
        insert event.note before.arpMidiHeld else before.arpMidiHeld } := by
  intro before
  have hedits' : (before.nativeBackend && before.arpeggiatorEditMode) = true := hedits
  have hfresh : event.note ∉ before.arpMidiHeld := by
    rw [ClientState.run_arpMidiHeld,hidle]
    exact notMem_run_of_released hmarked hreleased
  simp only [ClientState.step,ClientState.routeMidiEvent,
    ClientState.toggleNativeSharedPitchClass]
  cases hquantized : before.tuning.quantize event.note with
  | none => simp
  | some pitchClass =>
    simp only [hedits',hpress,hfresh,if_true,if_false,Option.isSome_some]
    exact ClientState.setNativeDegree_holding pitchClass (!before.degreeIsActive pitchClass)
      (insert event.note before.arpMidiHeld) before

/-- Whatever becomes of the input mode, exactly those runs leave no key held that is let go in which
no key that was released last is marked as pressed last. -/
theorem held_keys_pressed_iff (transport : Transport M) (passes : List (ModePass M))
    (nativeBackend : Bool) (tuning : ClientTuning) (steps : List ClientStep) :
    let client : ClientState := { nativeBackend, tuning }
    (HeldArePressed (ModePass.run transport passes).pitches.hostHeld
        (passes.filterMap ModePass.touch) ↔ ReleasesMarked (passes.filterMap ModePass.touch)) ∧
      (HeldArePressed (client.run steps).arpMidiHeld (client.touches steps) ↔
        ReleasesMarked (client.touches steps)) := by
  dsimp only
  constructor
  · rw [ModePass.run_hostHeld]
    exact held_pressed_iff _
  · rw [ClientState.run_arpMidiHeld]
    exact held_pressed_iff _

def twelveClasses : ClientTuning where
  quantize note := some (note % 12)
  degree pitchClass := if pitchClass < 12 then some ⟨1,pitchClass⟩ else none

/-- A key that is let go in perform mode stays held, and so does one that is let go while the
browser does not edit the arpeggiator. -/
theorem keys_let_go_stay_held :
    (¬ ∀ (transport : Transport plainMusic) (passes : List (ModePass plainMusic)),
      HeldArePressed (ModePass.run transport passes).pitches.hostHeld
        (passes.filterMap ModePass.touch)) ∧
      ¬ ∀ (client : ClientState) (steps : List ClientStep), client.arpMidiHeld = ∅ →
        HeldArePressed (client.run steps).arpMidiHeld (client.touches steps) := by
  constructor
  · intro h
    have hheld := h acceptingTransport [.key .toggleSet (keyEvent .noteOn 60) (by decide),
      .key .perform (keyEvent .noteOff 60) (by decide)] 60
    have hlast := hheld (by decide +kernel)
    simp [ModePass.touch,last,Touch.of,keyEvent,RealtimeMidi.isPress] at hlast
  · intro h
    have hheld := h { nativeBackend := true, tuning := twelveClasses }
      [.midi ⟨60,90,true⟩,.toggleEditMode,.midi ⟨60,0,false⟩] rfl 60
    have hlast := hheld (by decide +kernel)
    simp [ClientState.touches,ClientState.touch,ClientState.step,last,Touch.of] at hlast

end Modes

end WalkieSongie.Bridge
