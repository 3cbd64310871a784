import Mathlib.Data.List.DropRight
import WalkieSongie.BridgeWorker
set_option autoImplicit false

/-!
The host's keys through the worker's passes: a pass drains the releases of its batch before the
NoteOns, so a release can overtake a NoteOn that was sent before it, and a NoteOn that is sent
between the two drains can overtake a release.
-/

namespace WalkieSongie.Bridge

variable {M : MusicLibrary}

/-- A NoteOn, NoteOff or choke of one of the 128 MIDI notes. -/
def RealtimeMidi.isKey (event : RealtimeMidi) : Bool :=
  event.note < 128 ∧ (event.kind = .noteOn ∨ event.kind = .noteOff ∨ event.kind = .choke)

/-- A NoteOn with velocity; the other key events are releases. -/
def RealtimeMidi.isPress (event : RealtimeMidi) : Bool := event.kind = .noteOn ∧ 0 < event.value

/-- The events sent before the pass has drained the release queue, those sent from then until it
has drained the realtime queue, and what it does after that, which leaves the keys alone. -/
structure Pass (M : MusicLibrary) where
  batch : List RealtimeMidi
  between : List RealtimeMidi
  rest : Worker M → Worker M
  keeps : ∀ worker, (rest worker).pitches.hostHeld = worker.pitches.hostHeld

namespace Pass

def sent (pass : Pass M) : List RealtimeMidi := pass.batch ++ pass.between

/-- The releases that come too late for the drain of this pass. -/
def missed (pass : Pass M) : List RealtimeMidi := pass.between.filter fun event => event.isRelease

/-- The releases that nothing else follows before the realtime queue is drained. -/
def trailing (pass : Pass M) : List RealtimeMidi :=
  pass.between.rtakeWhile fun event => event.isRelease

/-- What is sent up to the last event that the realtime drain can take, after the releases that
the pass before has left. -/
def due (left : List RealtimeMidi) (pass : Pass M) : List RealtimeMidi :=
  left ++ pass.batch ++ pass.between.rdropWhile fun event => event.isRelease

end Pass

namespace Worker

variable (transport : Transport M) (mode : MidiInputMode)

/-- The release queue holds what the pass before has left and the releases of the batch; the
realtime queue is drained later, and holds what was sent until then. -/
def runPass (worker : Worker M) (left : List RealtimeMidi) (pass : Pass M) : Worker M :=
  pass.rest (drainInput transport mode (left ++ pass.batch.filter fun event => event.isRelease)
    (pass.sent.filter fun event => !event.isRelease) worker)

/-- What the last pass has left is drained by the next one. -/
def runPasses (worker : Worker M) (left : List RealtimeMidi) : List (Pass M) → Worker M
  | [] => drainInput transport mode left [] worker
  | pass :: rest => (worker.runPass transport mode left pass).runPasses pass.missed rest

/-- A pass that finds one event in its queue. -/
def drainOne (worker : Worker M) (event : RealtimeMidi) : Worker M :=
  drainInput transport mode (if event.isRelease then [event] else [])
    (if event.isRelease then [] else [event]) worker

/-- Every event in a pass of its own, in sending order. -/
def runPassSingly (worker : Worker M) (left : List RealtimeMidi) (pass : Pass M) : Worker M :=
  pass.rest ((pass.due left).foldl (drainOne transport mode) worker)

def runPassesSingly (worker : Worker M) (left : List RealtimeMidi) : List (Pass M) → Worker M
  | [] => left.foldl (drainOne transport mode) worker
  | pass :: rest =>
      (worker.runPassSingly transport mode left pass).runPassesSingly pass.trailing rest

end Worker

/-- The last key event sent for the note is a press. -/
def PressedLast (note : Nat) (events : List RealtimeMidi) : Bool :=
  (events.reverse.find? fun event => event.note = note).any RealtimeMidi.isPress

namespace BridgePitchState

variable (mode : MidiInputMode)

/-- The edit of the shared set that a key event asks for. -/
def intentOf (pitches : BridgePitchState M) (event : RealtimeMidi) :
    Option (TunedPeriodicPitch × Bool) :=
  match pitchForMidi M event.note with
  | .error _ => none
  | .ok pitch =>
      let marked := (pitches.setHostHeld event.note event.isPress).2
      let present := marked.containsOptimisticPitchClass pitch
      if event.isPress = true then
        if event.note ∈ pitches.hostHeld then none
        else if mode = .toggleSet then some (pitch,!present)
        else if present then none else some (pitch,true)
      else if mode = .gateSet ∧ event.note ∈ pitches.hostHeld ∧
          marked.hasHeldPitchClass pitch = false ∧ present = true then some (pitch,false)
      else none

end BridgePitchState

def SameClass (M : MusicLibrary) (event other : RealtimeMidi) : Bool :=
  match pitchForMidi M event.note, pitchForMidi M other.note with
  | .ok pitch, .ok candidate => pitch.degree = candidate.degree
  | _, _ => false

/-- A release that overtakes a waiting event without anything coming of it: no press of its own
key, and in gate mode the event or the release is idle, or one of the two asks for no edit and the
other does not depend on it, or neither asks for one whichever comes first. -/
def Harmless (mode : MidiInputMode) (pitches : BridgePitchState M)
    (waiting release : RealtimeMidi) : Prop :=
  if waiting.note = release.note then waiting.isPress = false
  else mode = .toggleSet ∨ release.note ∉ pitches.hostHeld ∨
    (waiting.note ∈ pitches.hostHeld ↔ waiting.isPress = true) ∨
    (SameClass M waiting release = false ∧
      (pitches.intentOf mode waiting = none ∨ pitches.intentOf mode release = none)) ∨
    (waiting.isPress = true ∧ pitches.intentOf mode release = none) ∨
    (pitches.intentOf mode waiting = none ∧ pitches.intentOf mode release = none ∧
      (pitches.setHostHeld waiting.note waiting.isPress).2.intentOf mode release = none ∧
      (pitches.setHostHeld release.note release.isPress).2.intentOf mode waiting = none)

namespace Worker

variable (transport : Transport M) (mode : MidiInputMode)

/-- The handling of a key event, whichever queue it comes from. -/
def keyInput (worker : Worker M) (event : RealtimeMidi) : Worker M :=
  worker.after (if event.isRelease then releaseInput transport mode event
    else realtimeInput transport mode event)

/-- The release overtakes all that wait in the realtime queue. -/
def OvertakesHarmlessly (worker : Worker M) (release : RealtimeMidi) :
    List RealtimeMidi → Prop
  | [] => True
  | waiting :: rest => Harmless mode worker.pitches waiting release ∧
      (worker.keyInput transport mode waiting).OvertakesHarmlessly release rest

/-- Every release of the batch overtakes harmlessly the events that wait when it is handled. -/
def BatchKeeps (worker : Worker M) (waiting : List RealtimeMidi) : List RealtimeMidi → Prop
  | [] => True
  | event :: rest =>
      if event.isRelease then
        worker.OvertakesHarmlessly transport mode event waiting ∧
          (worker.keyInput transport mode event).BatchKeeps waiting rest
      else worker.BatchKeeps (waiting ++ [event]) rest

/-- In every pass the releases overtake harmlessly, and those sent between its drains are sent
last. -/
def RunKeeps (worker : Worker M) (left : List RealtimeMidi) : List (Pass M) → Prop
  | [] => True
  | pass :: rest => pass.missed = pass.trailing ∧
      worker.BatchKeeps transport mode [] (pass.due left) ∧
      (worker.runPass transport mode left pass).RunKeeps pass.missed rest

end Worker

section Handling

variable {transport : Transport M} {mode : MidiInputMode}

namespace Worker

def setHeld (worker : Worker M) (event : RealtimeMidi) : Worker M :=
  worker.setPitches (worker.pitches.setHostHeld event.note event.isPress).2

def edit (transport : Transport M) (worker : Worker M) :
    Option (TunedPeriodicPitch × Bool) → Worker M
  | none => worker
  | some (pitch,active) => worker.after (applySharedPitchIntent transport pitch active)

theorem setHeld_release {event : RealtimeMidi} (hrelease : event.isPress = false)
    (worker : Worker M) : worker.setHeld event =
      worker.setPitches (worker.pitches.setHostHeld event.note false).2 := by
  rw [setHeld,hrelease]

theorem setHeld_press {event : RealtimeMidi} (hpress : event.isPress = true) (worker : Worker M) :
    worker.setHeld event = worker.setPitches (worker.pitches.setHostHeld event.note true).2 := by
  rw [setHeld,hpress]

theorem wasHeld_setHostHeld (pitches : BridgePitchState M) (note : Nat) (held : Bool) :
    (pitches.setHostHeld note held).1 = decide (note ∈ pitches.hostHeld) := rfl

theorem handleHostNoteRelease_eq {event : RealtimeMidi} (hrelease : event.isPress = false)
    (worker : Worker M) : worker.after (handleHostNoteRelease transport mode event.note) =
      (worker.setHeld event).edit transport (worker.pitches.intentOf mode event) := by
  simp only [after,handleHostNoteRelease,BridgePitchState.intentOf,setHeld_release hrelease,
    hrelease,Bool.false_eq_true,if_false]
  by_cases hgate : mode = .gateSet ∧ event.note ∈ worker.pitches.hostHeld
  · have hasked : ¬ (mode ≠ .gateSet ∨
        (worker.pitches.setHostHeld event.note false).1 = false) := by
      simp [wasHeld_setHostHeld,hgate]
    rw [if_neg hasked]
    cases pitchForMidi M event.note with
    | error error => rfl
    | ok pitch =>
      simp only [hgate,true_and]
      split <;> rfl
  · have hskip : mode ≠ .gateSet ∨
        (worker.pitches.setHostHeld event.note false).1 = false := by
      by_cases hmode : mode = .gateSet
      · exact .inr (decide_eq_false fun hheld => hgate ⟨hmode,hheld⟩)
      · exact .inl hmode
    have hnone : ∀ rest : Prop, ¬ (mode = .gateSet ∧ event.note ∈ worker.pitches.hostHeld ∧ rest) :=
      fun rest h => hgate ⟨h.1,h.2.1⟩
    rw [if_pos hskip]
    cases pitchForMidi M event.note with
    | error error => rfl
    | ok pitch =>
      simp only [hnone,if_false]
      rfl

theorem handleHostNoteOn_eq (hmode : mode ≠ .perform) {event : RealtimeMidi}
    (hpress : event.isPress = true) (worker : Worker M) :
    worker.after (handleHostNoteOn transport mode event.note) =
      (worker.setHeld event).edit transport (worker.pitches.intentOf mode event) := by
  simp only [after,handleHostNoteOn,BridgePitchState.intentOf,setHeld_press hpress,
    hpress,if_true]
  by_cases hheld : event.note ∈ worker.pitches.hostHeld
  · have hwas : (worker.pitches.setHostHeld event.note true).1 = true := decide_eq_true hheld
    rw [if_pos hwas]
    simp only [hheld,if_true]
    cases pitchForMidi M event.note <;> rfl
  · have hwas : ¬ (worker.pitches.setHostHeld event.note true).1 = true := by
      simp [wasHeld_setHostHeld,hheld]
    rw [if_neg hwas]
    simp only [hheld,if_false]
    cases pitchForMidi M event.note with
    | error error => rfl
    | ok pitch =>
      cases mode with
      | toggleSet => rfl
      | gateSet =>
        simp only [reduceCtorEq,if_false]
        split <;> rfl
      | perform => exact absurd rfl hmode

theorem keyInput_eq (hmode : mode ≠ .perform) {event : RealtimeMidi} (hkey : event.isKey = true)
    (worker : Worker M) : worker.keyInput transport mode event =
      (worker.setHeld event).edit transport (worker.pitches.intentOf mode event) := by
  unfold keyInput
  by_cases hrelease : event.isRelease = true
  · have hpress : event.isPress = false := by
      simp only [RealtimeMidi.isRelease,decide_eq_true_eq] at hrelease
      rcases hrelease with hkind | hkind <;> simp [RealtimeMidi.isPress,hkind]
    have hkind : event.kind = .noteOff ∨ event.kind = .choke := by
      simpa [RealtimeMidi.isRelease] using hrelease
    simp only [hrelease,if_true,releaseInput,hmode,hkind,if_false]
    exact handleHostNoteRelease_eq hpress worker
  · have hkind : event.kind = .noteOn := by
      simp only [RealtimeMidi.isRelease,decide_eq_true_eq,not_or] at hrelease
      simpa [RealtimeMidi.isKey,hrelease] using (of_decide_eq_true hkey).2
    rw [if_neg hrelease]
    simp only [realtimeInput,hkind,if_true,hmode,if_false]
    by_cases hsilent : event.value ≤ 0
    · rw [if_pos hsilent]
      have hpress : event.isPress = false := by
        simp [RealtimeMidi.isPress,Rat.not_lt.mpr hsilent]
      exact handleHostNoteRelease_eq hpress worker
    · rw [if_neg hsilent]
      have hpress : event.isPress = true := by
        simp [RealtimeMidi.isPress,hkind,Rat.not_le.mp hsilent]
      exact handleHostNoteOn_eq hmode hpress worker

theorem hasHeldPitchClass_congr {pitches other : BridgePitchState M}
    (h : pitches.hostHeld = other.hostHeld) (pitch : TunedPeriodicPitch) :
    pitches.hasHeldPitchClass pitch = other.hasHeldPitchClass pitch := by
  simp only [BridgePitchState.hasHeldPitchClass,h]

theorem edit_setHeld (event : RealtimeMidi) (worker : Worker M)
    (intent : Option (TunedPeriodicPitch × Bool)) :
    (worker.edit transport intent).setHeld event =
      (worker.setHeld event).edit transport intent := by
  cases intent with
  | none => rfl
  | some asked =>
    simp only [edit,after_applySharedPitchIntent,setHeld,setPitches,BridgePitchState.setHostHeld]
    split
    · split <;> rfl
    · rfl

theorem edit_hostHeld (worker : Worker M) (intent : Option (TunedPeriodicPitch × Bool)) :
    (worker.edit transport intent).pitches.hostHeld = worker.pitches.hostHeld := by
  cases intent with
  | none => rfl
  | some asked =>
    simp only [edit,after_applySharedPitchIntent]
    split
    · split <;> rfl
    · rfl

theorem edit_containsOptimistic (worker : Worker M) {pitch other : TunedPeriodicPitch}
    (active : Bool) (hother : sharedDegree other ≠ sharedDegree pitch) :
    (worker.edit transport (some (pitch,active))).pitches.containsOptimisticPitchClass other =
      worker.pitches.containsOptimisticPitchClass other := by
  simp only [edit,after_applySharedPitchIntent]
  split
  · split
    · simp [setPitches,BridgePitchState.containsOptimisticPitchClass,
        BridgePitchState.trackPitchIntent,KeyedMap.get?_insert,hother,
        BridgePitchState.confirmedContainsPitchClass]
    · rfl
  · rfl

theorem keyInput_hostHeld (hmode : mode ≠ .perform) {event : RealtimeMidi}
    (hkey : event.isKey = true) (worker : Worker M) (note : Nat) :
    note ∈ (worker.keyInput transport mode event).pitches.hostHeld ↔
      if note = event.note then event.isPress = true else note ∈ worker.pitches.hostHeld := by
  rw [keyInput_eq hmode hkey,edit_hostHeld]
  simp only [setHeld,setPitches,BridgePitchState.setHostHeld]
  by_cases hnote : note = event.note <;> by_cases hpress : event.isPress = true <;>
    simp [hnote,hpress]

theorem keyInput_idle (hmode : mode ≠ .perform) {event : RealtimeMidi} (hkey : event.isKey = true)
    {worker : Worker M} (hidle : event.note ∈ worker.pitches.hostHeld ↔ event.isPress = true) :
    worker.keyInput transport mode event = worker := by
  have hmarked : worker.setHeld event = worker := by
    simp only [setHeld,setPitches,BridgePitchState.setHostHeld]
    cases hpress : event.isPress with
    | true => simp [Finset.insert_eq_of_mem (hidle.mpr hpress)]
    | false =>
      have hfree : event.note ∉ worker.pitches.hostHeld := by simp [hidle,hpress]
      simp [Finset.erase_eq_of_notMem hfree]
  have hnone : worker.pitches.intentOf mode event = none := by
    unfold BridgePitchState.intentOf
    cases pitchForMidi M event.note with
    | error error => rfl
    | ok pitch =>
      cases hpress : event.isPress with
      | true => simp [hidle.mpr hpress]
      | false =>
        have hfree : event.note ∉ worker.pitches.hostHeld := by simp [hidle,hpress]
        simp [hfree]
  rw [keyInput_eq hmode hkey,hmarked,hnone]
  rfl

theorem setHeld_comm {event other : RealtimeMidi} (hnotes : event.note ≠ other.note)
    (worker : Worker M) : (worker.setHeld event).setHeld other =
      (worker.setHeld other).setHeld event := by
  simp only [setHeld,setPitches,BridgePitchState.setHostHeld]
  cases event.isPress <;> cases other.isPress
  · simp [Finset.erase_right_comm]
  · simp [Finset.erase_insert_of_ne hnotes.symm]
  · simp [Finset.erase_insert_of_ne hnotes]
  · simp [Finset.insert_comm]

theorem intentOf_setHeld {event other : RealtimeMidi} (hnotes : event.note ≠ other.note)
    (hapart : event.isPress = true ∨ SameClass M other event = false) (worker : Worker M) :
    (worker.setHeld other).pitches.intentOf mode event = worker.pitches.intentOf mode event := by
  unfold BridgePitchState.intentOf
  cases hpitch : pitchForMidi M event.note with
  | error error => rfl
  | ok pitch =>
    have hmem : event.note ∈ (worker.setHeld other).pitches.hostHeld ↔
        event.note ∈ worker.pitches.hostHeld := by
      simp only [setHeld,setPitches,BridgePitchState.setHostHeld]
      split <;> simp [hnotes]
    have hpresent : ((worker.setHeld other).pitches.setHostHeld
        event.note event.isPress).2.containsOptimisticPitchClass pitch =
        (worker.pitches.setHostHeld event.note event.isPress).2.containsOptimisticPitchClass
          pitch :=
      rfl
    simp only [hmem,hpresent]
    split
    · rfl
    · rename_i hpress
      have hclass : SameClass M other event = false := hapart.resolve_left hpress
      have hheld : ((worker.setHeld other).pitches.setHostHeld
          event.note event.isPress).2.hasHeldPitchClass pitch =
          (worker.pitches.setHostHeld event.note event.isPress).2.hasHeldPitchClass pitch := by
        unfold BridgePitchState.hasHeldPitchClass
        congr 1
        funext note
        by_cases hnote : note = other.note
        · subst hnote
          cases hother : pitchForMidi M other.note with
          | error error => simp
          | ok candidate =>
            have hne : candidate.degree ≠ pitch.degree := by
              simpa [SameClass,hother,hpitch] using hclass
            simp [hne]
        · have hsame : note ∈ ((worker.setHeld other).pitches.setHostHeld
              event.note event.isPress).2.hostHeld ↔
                note ∈ (worker.pitches.setHostHeld event.note event.isPress).2.hostHeld := by
            simp only [setHeld,setPitches,BridgePitchState.setHostHeld]
            split_ifs <;> simp [hnote]
          simp only [hsame]
      rw [hheld]

theorem intentOf_pitch {pitches : BridgePitchState M} {event : RealtimeMidi}
    {pitch : TunedPeriodicPitch} {active : Bool}
    (h : pitches.intentOf mode event = some (pitch,active)) :
    pitchForMidi M event.note = .ok pitch := by
  unfold BridgePitchState.intentOf at h
  cases hpitch : pitchForMidi M event.note with
  | error error =>
    rw [hpitch] at h
    cases h
  | ok found =>
    rw [hpitch] at h
    simp only at h
    split at h
    · split at h
      · cases h
      · split at h
        · cases h
          rfl
        · split at h
          · cases h
          · cases h
            rfl
    · split at h
      · cases h
        rfl
      · cases h

theorem intentOf_edit {event other : RealtimeMidi} (hclass : SameClass M other event = false)
    {worker : Worker M} {intent : Option (TunedPeriodicPitch × Bool)}
    (hintent : ∀ pitch active, intent = some (pitch,active) →
      pitchForMidi M other.note = .ok pitch) :
    (worker.edit transport intent).pitches.intentOf mode event =
      worker.pitches.intentOf mode event := by
  cases intent with
  | none => rfl
  | some asked =>
    obtain ⟨pitch,active⟩ := asked
    have hother := hintent pitch active rfl
    unfold BridgePitchState.intentOf
    cases hpitch : pitchForMidi M event.note with
    | error error => rfl
    | ok found =>
      have hdegree : sharedDegree found ≠ sharedDegree pitch := by
        intro hsame
        simp only [SameClass,hother,hpitch,decide_eq_false_iff_not] at hclass
        exact hclass (congrArg TunedDegree.degree hsame).symm
      have hpresent : ∀ held, ((worker.edit transport (some (pitch,active))).pitches.setHostHeld
          event.note held).2.containsOptimisticPitchClass found =
            (worker.pitches.setHostHeld event.note held).2.containsOptimisticPitchClass found :=
        fun _ => worker.edit_containsOptimistic active hdegree
      have hheld : ∀ held, ((worker.edit transport (some (pitch,active))).pitches.setHostHeld
          event.note held).2.hasHeldPitchClass found =
            (worker.pitches.setHostHeld event.note held).2.hasHeldPitchClass found := by
        intro held
        refine hasHeldPitchClass_congr ?_ found
        simp only [BridgePitchState.setHostHeld,edit_hostHeld]
      simp only [hpresent,hheld,edit_hostHeld]

theorem sameClass_comm (event other : RealtimeMidi) :
    SameClass M event other = SameClass M other event := by
  unfold SameClass
  cases pitchForMidi M event.note <;> cases pitchForMidi M other.note <;> simp [eq_comm]

/-- Two key events of different notes commute where one asks for no edit, before or after the
other, and the other's is the same after it. -/
theorem keyInput_comm (hmode : mode ≠ .perform) {event other : RealtimeMidi}
    (hkey : event.isKey = true) (hother : other.isKey = true) (hnotes : event.note ≠ other.note)
    {worker : Worker M} (hnone : worker.pitches.intentOf mode other = none)
    (hafter : (worker.keyInput transport mode event).pitches.intentOf mode other = none)
    (hsame : (worker.keyInput transport mode other).pitches.intentOf mode event =
      worker.pitches.intentOf mode event) :
    (worker.keyInput transport mode event).keyInput transport mode other =
      (worker.keyInput transport mode other).keyInput transport mode event := by
  rw [keyInput_eq hmode hother (worker.keyInput transport mode event),hafter,
    keyInput_eq hmode hkey (worker.keyInput transport mode other),hsame,
    keyInput_eq hmode hkey worker,
    keyInput_eq hmode hother worker,hnone]
  simp only [edit_setHeld,setHeld_comm hnotes]
  rfl

theorem intentOf_keyInput (hmode : mode ≠ .perform) {event other : RealtimeMidi}
    (hother : other.isKey = true) (hnotes : event.note ≠ other.note)
    (hclass : SameClass M other event = false) (worker : Worker M) :
    (worker.keyInput transport mode other).pitches.intentOf mode event =
      worker.pitches.intentOf mode event := by
  rw [keyInput_eq hmode hother,intentOf_edit hclass fun pitch active h => intentOf_pitch h,
    intentOf_setHeld hnotes (.inr hclass)]

theorem intentOf_release_after_press (hmode : mode ≠ .perform) {press release : RealtimeMidi}
    (hkey : press.isKey = true) (hpress : press.isPress = true)
    (hrelease : release.isPress = false) (hnotes : press.note ≠ release.note) {worker : Worker M}
    (hnone : worker.pitches.intentOf mode release = none) :
    (worker.keyInput transport mode press).pitches.intentOf mode release = none := by
  by_cases hclass : SameClass M press release = false
  · rw [intentOf_keyInput hmode hkey hnotes.symm hclass,hnone]
  · -- The pressed key holds the class, so the release leaves it alone.
    obtain ⟨pitch,candidate,hpitch,hcandidate,hdegree⟩ : ∃ pitch candidate,
        pitchForMidi M press.note = .ok pitch ∧ pitchForMidi M release.note = .ok candidate ∧
          pitch.degree = candidate.degree := by
      unfold SameClass at hclass
      split at hclass
      · rename_i pitch candidate hpitch hcandidate
        exact ⟨pitch,candidate,hpitch,hcandidate,by simpa using hclass⟩
      · simp at hclass
    have hnote : press.note < 128 := (of_decide_eq_true hkey).1
    have hmem : press.note ∈ ((worker.keyInput transport mode press).pitches.setHostHeld
        release.note release.isPress).2.hostHeld := by
      simp only [BridgePitchState.setHostHeld,hrelease,Bool.false_eq_true,if_false,
        Finset.mem_erase]
      exact ⟨hnotes,(keyInput_hostHeld hmode hkey worker press.note).mpr (by simp [hpress])⟩
    have hheld : ((worker.keyInput transport mode press).pitches.setHostHeld
        release.note release.isPress).2.hasHeldPitchClass candidate = true := by
      refine List.any_eq_true.mpr ⟨press.note,List.mem_range.mpr hnote,?_⟩
      simp [hmem,hpitch,hdegree]
    unfold BridgePitchState.intentOf
    simp only [hcandidate,hheld]
    simp [hrelease]

theorem intentOf_release_toggleSet {event : RealtimeMidi} (hrelease : event.isPress = false)
    (pitches : BridgePitchState M) : pitches.intentOf .toggleSet event = none := by
  unfold BridgePitchState.intentOf
  cases pitchForMidi M event.note with
  | error error => rfl
  | ok pitch => simp [hrelease]

theorem isPress_of_isRelease {event : RealtimeMidi} (hrelease : event.isRelease = true) :
    event.isPress = false := by
  simp only [RealtimeMidi.isRelease,decide_eq_true_eq] at hrelease
  rcases hrelease with hkind | hkind <;> simp [RealtimeMidi.isPress,hkind]

theorem keyInput_release (hmode : mode ≠ .perform) {event other : RealtimeMidi}
    (hkey : event.isKey = true) (hother : other.isKey = true) (hnotes : event.note = other.note)
    (hevent : event.isPress = false) (hrelease : other.isPress = false) (worker : Worker M) :
    worker.keyInput transport mode event = worker.keyInput transport mode other := by
  rw [keyInput_eq hmode hkey,keyInput_eq hmode hother,← handleHostNoteRelease_eq hevent,
    ← handleHostNoteRelease_eq hrelease,hnotes]

theorem Harmless.swap (hmode : mode ≠ .perform) {waiting release : RealtimeMidi}
    (hwaiting : waiting.isKey = true) (hkey : release.isKey = true)
    (hrelease : release.isRelease = true) {worker : Worker M}
    (h : Harmless mode worker.pitches waiting release) :
    (worker.keyInput transport mode waiting).keyInput transport mode release =
      (worker.keyInput transport mode release).keyInput transport mode waiting := by
  have hfree := isPress_of_isRelease hrelease
  unfold Harmless at h
  split at h
  · rename_i hnotes
    rw [keyInput_release hmode hwaiting hkey hnotes h hfree worker,
      keyInput_release hmode hwaiting hkey hnotes h hfree]
  rename_i hnotes
  rcases h with rfl | hidle | hidle | ⟨hclass,hnone | hnone⟩ | ⟨hpress,hnone⟩ |
    ⟨hwait,hnone,hmarked,hwaitMarked⟩
  · refine keyInput_comm hmode hwaiting hkey hnotes (intentOf_release_toggleSet hfree _)
      (intentOf_release_toggleSet hfree _) ?_
    rw [keyInput_eq hmode hkey,intentOf_release_toggleSet hfree]
    cases hpress : waiting.isPress with
    | true => exact intentOf_setHeld hnotes (.inl hpress) worker
    | false => rw [intentOf_release_toggleSet hpress,intentOf_release_toggleSet hpress]
  · -- The release is of a key that is not held, before the waiting event and after it.
    have hbefore : worker.keyInput transport mode release = worker :=
      keyInput_idle hmode hkey (by simp [hidle,hfree])
    have hafter : (worker.keyInput transport mode waiting).keyInput transport mode release =
        worker.keyInput transport mode waiting := by
      refine keyInput_idle hmode hkey ?_
      rw [keyInput_hostHeld hmode hwaiting,if_neg (Ne.symm hnotes)]
      simp [hidle,hfree]
    rw [hbefore,hafter]
  · have hbefore : worker.keyInput transport mode waiting = worker :=
      keyInput_idle hmode hwaiting hidle
    have hafter : (worker.keyInput transport mode release).keyInput transport mode waiting =
        worker.keyInput transport mode release := by
      refine keyInput_idle hmode hwaiting ?_
      rw [keyInput_hostHeld hmode hkey,if_neg hnotes]
      exact hidle
    rw [hbefore,hafter]
  · refine (keyInput_comm hmode hkey hwaiting (Ne.symm hnotes) hnone ?_ ?_).symm
    · rw [intentOf_keyInput hmode hkey hnotes (by rw [sameClass_comm,hclass]),hnone]
    · exact intentOf_keyInput hmode hwaiting (Ne.symm hnotes) hclass worker
  · refine keyInput_comm hmode hwaiting hkey hnotes hnone ?_ ?_
    · rw [intentOf_keyInput hmode hwaiting (Ne.symm hnotes) hclass,hnone]
    · exact intentOf_keyInput hmode hkey hnotes (by rw [sameClass_comm,hclass]) worker
  · refine keyInput_comm hmode hwaiting hkey hnotes hnone
      (intentOf_release_after_press hmode hwaiting hpress hfree hnotes hnone) ?_
    rw [keyInput_eq hmode hkey,hnone]
    exact intentOf_setHeld hnotes (.inl hpress) worker
  · refine keyInput_comm hmode hwaiting hkey hnotes hnone ?_ ?_
    · rw [keyInput_eq hmode hwaiting,hwait]
      exact hmarked
    · rw [keyInput_eq hmode hkey,hnone,hwait]
      exact hwaitMarked

variable (transport mode) in
def keyInputs (worker : Worker M) (events : List RealtimeMidi) : Worker M :=
  events.foldl (keyInput transport mode) worker

theorem OvertakesHarmlessly.keyInputs (hmode : mode ≠ .perform) {release : RealtimeMidi}
    (hkey : release.isKey = true) (hrelease : release.isRelease = true)
    {waiting : List RealtimeMidi} (hwaiting : ∀ event ∈ waiting, event.isKey = true)
    {worker : Worker M} (h : worker.OvertakesHarmlessly transport mode release waiting) :
    (worker.keyInputs transport mode waiting).keyInput transport mode release =
      (worker.keyInput transport mode release).keyInputs transport mode waiting := by
  induction waiting generalizing worker with
  | nil => rfl
  | cons event rest ih =>
    have hrest := ih (fun other hother => hwaiting other (List.mem_cons_of_mem event hother)) h.2
    simp only [Worker.keyInputs,List.foldl_cons] at hrest ⊢
    have hfirst : Harmless mode worker.pitches event release := h.1
    rw [hrest,Harmless.swap hmode (hwaiting event List.mem_cons_self) hkey hrelease hfirst]

/-- Where every release overtakes harmlessly, draining the queues is handling the events in
sending order: `waiting` has been sent already, and waits in the realtime queue. -/
theorem BatchKeeps.keyInputs (hmode : mode ≠ .perform) {batch waiting : List RealtimeMidi}
    (hbatch : ∀ event ∈ batch, event.isKey = true)
    (hwaiting : ∀ event ∈ waiting, event.isKey = true)
    {worker : Worker M} (h : worker.BatchKeeps transport mode waiting batch) :
    (worker.keyInputs transport mode waiting).keyInputs transport mode batch =
      (worker.keyInputs transport mode (batch.filter fun event => event.isRelease)).keyInputs
        transport mode (waiting ++ batch.filter fun event => !event.isRelease) := by
  induction batch generalizing worker waiting with
  | nil => simp [Worker.keyInputs]
  | cons event rest ih =>
    have hkey := hbatch event List.mem_cons_self
    have hrest : ∀ other ∈ rest, other.isKey = true :=
      fun other hother => hbatch other (List.mem_cons_of_mem event hother)
    simp only [BatchKeeps] at h
    split at h
    · rename_i hrelease
      have hmoved := h.1.keyInputs hmode hkey hrelease hwaiting
      have hih := ih hrest hwaiting h.2
      simp only [Worker.keyInputs,List.foldl_cons,List.filter_cons,hrelease,if_true,
        Bool.not_true,Bool.false_eq_true,if_false] at hmoved hih ⊢
      rw [hmoved]
      exact hih
    · rename_i hpress
      have hih := ih hrest (fun other hother => by
        rcases List.mem_append.mp hother with hbefore | hlast
        · exact hwaiting other hbefore
        · obtain rfl := List.mem_singleton.mp hlast
          exact hkey) h
      simp only [Worker.keyInputs,List.foldl_append,List.foldl_cons,List.foldl_nil,List.filter_cons,
        hpress,if_false,Bool.not_false,if_true,Bool.false_eq_true] at hih ⊢
      exact hih

theorem drainInput_eq {released realtime : List RealtimeMidi}
    (hreleased : ∀ event ∈ released, event.isRelease = true)
    (hrealtime : ∀ event ∈ realtime, event.isRelease = false) (worker : Worker M) :
    drainInput transport mode released realtime worker =
      (worker.keyInputs transport mode released).keyInputs transport mode realtime := by
  have hfirst : ∀ start : Worker M, released.foldl
      (fun worker event => worker.after (releaseInput transport mode event)) start =
        start.keyInputs transport mode released := by
    intro start
    refine List.foldl_ext _ _ _ fun worker event hevent => ?_
    simp only [keyInput,hreleased event hevent,if_true]
  have hthen : ∀ start : Worker M, realtime.foldl
      (fun worker event => worker.after (realtimeInput transport mode event)) start =
        start.keyInputs transport mode realtime := by
    intro start
    refine List.foldl_ext _ _ _ fun worker event hevent => ?_
    simp only [keyInput,hrealtime event hevent,Bool.false_eq_true,if_false]
  rw [drainInput,hfirst,hthen]

theorem drainOne_eq (event : RealtimeMidi) (worker : Worker M) :
    worker.drainOne transport mode event = worker.keyInput transport mode event := by
  cases hrelease : event.isRelease <;>
    simp [drainOne,drainInput,keyInput,hrelease]

theorem foldl_drainOne (events : List RealtimeMidi) (worker : Worker M) :
    events.foldl (drainOne transport mode) worker = worker.keyInputs transport mode events :=
  List.foldl_ext _ _ _ fun worker event _ => drainOne_eq event worker

theorem runPassSingly_eq (left : List RealtimeMidi) (pass : Pass M) (worker : Worker M) :
    worker.runPassSingly transport mode left pass =
      pass.rest (worker.keyInputs transport mode (pass.due left)) := by
  rw [runPassSingly,foldl_drainOne]

end Worker

namespace Pass

theorem mem_of_due {left : List RealtimeMidi} {pass : Pass M} {event : RealtimeMidi}
    (h : event ∈ pass.due left) : event ∈ left ∨ event ∈ pass.sent := by
  rcases List.mem_append.mp h with hbefore | hbetween
  · rcases List.mem_append.mp hbefore with hleft | hbatch
    · exact .inl hleft
    · exact .inr (List.mem_append_left _ hbatch)
  · have hfront := List.rdropWhile_prefix (fun event : RealtimeMidi => event.isRelease)
      (l := pass.between)
    exact .inr (List.mem_append_right _ (hfront.subset hbetween))

theorem due_append_trailing (left : List RealtimeMidi) (pass : Pass M) :
    pass.due left ++ pass.trailing = left ++ pass.sent := by
  simp only [due,trailing,sent,List.append_assoc,List.rdropWhile_append_rtakeWhile]

/-- Where the releases sent between the drains are sent last, the realtime drain takes all that
was sent before them. -/
theorem releases_before {pass : Pass M} (h : pass.missed = pass.trailing) :
    (pass.between.rdropWhile fun event => event.isRelease).filter
      (fun event => event.isRelease) = [] := by
  have hsplit : ((pass.between.rdropWhile fun event => event.isRelease) ++ pass.trailing).filter
      (fun event => event.isRelease) = pass.missed := by
    rw [trailing,List.rdropWhile_append_rtakeWhile,missed]
  have htrailing : pass.trailing.filter (fun event => event.isRelease) = pass.trailing :=
    List.filter_eq_self.mpr fun event hevent => List.mem_rtakeWhile_imp hevent
  rw [List.filter_append] at hsplit
  have hmissed : (pass.between.rdropWhile fun event => event.isRelease).filter
      (fun event => event.isRelease) ++ pass.trailing = pass.trailing := by
    rw [← htrailing]
    exact hsplit.trans (h.trans htrailing.symm)
  exact List.append_left_eq_self.mp hmissed

end Pass

namespace Worker

theorem runPass_eq (hmode : mode ≠ .perform) {left : List RealtimeMidi} {pass : Pass M}
    (hreleases : ∀ event ∈ left, event.isRelease = true)
    (hkeys : ∀ event ∈ pass.due left, event.isKey = true) {worker : Worker M}
    (hlast : pass.missed = pass.trailing)
    (hkeeps : worker.BatchKeeps transport mode [] (pass.due left)) :
    worker.runPass transport mode left pass = worker.runPassSingly transport mode left pass := by
  have hnothing : ∀ event ∈ ([] : List RealtimeMidi), event.isKey = true := by simp
  have horder := hkeeps.keyInputs hmode hkeys hnothing
  have hreleased : (pass.due left).filter (fun event => event.isRelease) =
      left ++ pass.batch.filter fun event => event.isRelease := by
    rw [Pass.due,List.filter_append,List.filter_append,Pass.releases_before hlast,
      List.filter_eq_self.mpr hreleases,List.append_nil]
  have hrealtime : (pass.due left).filter (fun event => !event.isRelease) =
      pass.sent.filter fun event => !event.isRelease := by
    have hleft : left.filter (fun event => !event.isRelease) = [] := by
      rw [List.filter_eq_nil_iff]
      intro event hevent
      simp [hreleases event hevent]
    have htrailing : pass.trailing.filter (fun event => !event.isRelease) = [] := by
      rw [List.filter_eq_nil_iff]
      intro event hevent
      simp [List.mem_rtakeWhile_imp hevent]
    have hsent := congrArg (List.filter fun event => !event.isRelease)
      (Pass.due_append_trailing left pass)
    simpa only [List.filter_append,hleft,htrailing,List.append_nil,List.nil_append] using hsent
  have hdrained : drainInput transport mode ((pass.due left).filter fun event => event.isRelease)
      ((pass.due left).filter fun event => !event.isRelease) worker =
        worker.keyInputs transport mode (pass.due left) := by
    rw [drainInput_eq (fun event hevent => (List.mem_filter.mp hevent).2)
      (fun event hevent => by simpa using (List.mem_filter.mp hevent).2)]
    exact horder.symm
  rw [runPassSingly_eq,runPass,← hreleased,← hrealtime,hdrained]

theorem runPasses_eq (hmode : mode ≠ .perform) {passes : List (Pass M)}
    (hkeys : ∀ pass ∈ passes, ∀ event ∈ pass.sent, event.isKey = true)
    {left : List RealtimeMidi} (hreleases : ∀ event ∈ left, event.isRelease = true)
    (hleft : ∀ event ∈ left, event.isKey = true) {worker : Worker M}
    (hkeeps : worker.RunKeeps transport mode left passes) :
    worker.runPasses transport mode left passes =
      worker.runPassesSingly transport mode left passes := by
  induction passes generalizing worker left with
  | nil =>
    rw [runPasses,drainInput_eq hreleases (by simp),runPassesSingly,foldl_drainOne]
    rfl
  | cons pass rest ih =>
    obtain ⟨hlast,hbatch,hrest⟩ := hkeeps
    have hsent := hkeys pass List.mem_cons_self
    have hfirst := runPass_eq hmode hreleases (fun event hevent =>
      (Pass.mem_of_due hevent).elim (hleft event) (hsent event)) hlast hbatch
    have hthen := ih (fun other hother => hkeys other (List.mem_cons_of_mem pass hother))
      (fun event hevent => (List.mem_filter.mp hevent).2)
      (fun event hevent => hsent event
        (List.mem_append_right _ (List.mem_of_mem_filter hevent))) hrest
    rw [runPasses,runPassesSingly,← hfirst,← hlast]
    exact hthen

/-- The keys held are those pressed last in what was sent. -/
def Follows (worker : Worker M) (sent : List RealtimeMidi) : Prop :=
  ∀ note, note ∈ worker.pitches.hostHeld ↔ PressedLast note sent = true

theorem Follows.keyInput (hmode : mode ≠ .perform) {event : RealtimeMidi}
    (hkey : event.isKey = true) {worker : Worker M} {sent : List RealtimeMidi}
    (h : worker.Follows sent) :
    (worker.keyInput transport mode event).Follows (sent ++ [event]) := by
  intro note
  rw [keyInput_hostHeld hmode hkey]
  by_cases hnote : note = event.note
  · simp [PressedLast,hnote]
  · have hother : ¬ event.note = note := fun hsame => hnote hsame.symm
    rw [if_neg hnote,h note]
    simp [PressedLast,hother]

theorem Follows.keyInputs (hmode : mode ≠ .perform) {events : List RealtimeMidi}
    (hkeys : ∀ event ∈ events, event.isKey = true) {worker : Worker M} {sent : List RealtimeMidi}
    (h : worker.Follows sent) :
    (worker.keyInputs transport mode events).Follows (sent ++ events) := by
  induction events generalizing worker sent with
  | nil => simpa [Worker.keyInputs] using h
  | cons event rest ih =>
    have hfirst : (worker.keyInput transport mode event).Follows (sent ++ [event]) :=
      h.keyInput hmode (hkeys event List.mem_cons_self)
    have hrest := ih (fun other hother => hkeys other (List.mem_cons_of_mem event hother)) hfirst
    rw [List.append_assoc] at hrest
    exact hrest

theorem Follows.runPassesSingly (hmode : mode ≠ .perform) {passes : List (Pass M)}
    (hkeys : ∀ pass ∈ passes, ∀ event ∈ pass.sent, event.isKey = true)
    {left : List RealtimeMidi} (hleft : ∀ event ∈ left, event.isKey = true)
    {worker : Worker M} {sent : List RealtimeMidi} (h : worker.Follows sent) :
    (worker.runPassesSingly transport mode left passes).Follows
      (sent ++ left ++ passes.flatMap Pass.sent) := by
  induction passes generalizing worker left sent with
  | nil =>
    rw [Worker.runPassesSingly,foldl_drainOne,List.flatMap_nil,List.append_nil]
    exact h.keyInputs hmode hleft
  | cons pass rest ih =>
    have hsent := hkeys pass List.mem_cons_self
    have hdue : (worker.keyInputs transport mode (pass.due left)).Follows
        (sent ++ pass.due left) :=
      h.keyInputs hmode fun event hevent =>
        (Pass.mem_of_due hevent).elim (hleft event) (hsent event)
    have hpass : (worker.runPassSingly transport mode left pass).Follows
        (sent ++ pass.due left) := by
      intro note
      rw [runPassSingly_eq,pass.keeps]
      exact hdue note
    have htrailing : ∀ event ∈ pass.trailing, event.isKey = true := by
      intro event hevent
      have hsuffix := List.rtakeWhile_suffix (fun event : RealtimeMidi => event.isRelease)
        (l := pass.between)
      exact hsent event (List.mem_append_right _ (hsuffix.subset hevent))
    have hrest := ih (fun other hother => hkeys other (List.mem_cons_of_mem pass hother))
      htrailing hpass
    rw [List.append_assoc sent,Pass.due_append_trailing] at hrest
    rw [List.flatMap_cons,← List.append_assoc,List.append_assoc sent]
    exact hrest

end Worker

end Handling

/-- However the two drains of the passes cut what was sent: where every release overtakes
harmlessly and is not overtaken, the calls are those of passes of one event, and the keys held are
those pressed last. -/
theorem keys_follow_the_keyboard (transport : Transport M) (mode : MidiInputMode)
    (hmode : mode ≠ .perform) (passes : List (Pass M))
    (hkeys : ∀ pass ∈ passes, ∀ event ∈ pass.sent, event.isKey = true)
    (hkeeps : ({} : Worker M).RunKeeps transport mode [] passes) :
    (({} : Worker M).runPasses transport mode [] passes).calls =
        (({} : Worker M).runPassesSingly transport mode [] passes).calls ∧
      ∀ note, note ∈ (({} : Worker M).runPasses transport mode [] passes).pitches.hostHeld ↔
        PressedLast note (passes.flatMap Pass.sent) = true := by
  have hstart : ({} : Worker M).Follows [] := by
    intro note
    simp [PressedLast]
  have hnothing : ∀ event ∈ ([] : List RealtimeMidi), event.isKey = true := by simp
  rw [Worker.runPasses_eq hmode hkeys (by simp) hnothing hkeeps]
  exact ⟨rfl,hstart.runPassesSingly hmode hkeys hnothing⟩

def keyEvent (kind : RealtimeMidiKind) (note : Nat) : RealtimeMidi where
  note := note
  kind := kind
  value := 1

def keyPass (batch between : List RealtimeMidi) : Pass plainMusic where
  batch := batch
  between := between
  rest := id
  keeps := fun _ => rfl

def acceptingTransport : Transport plainMusic := fun _ _ => none

/-- A chord is struck, a key of it let go while the pass drains its NoteOns; of the two keys of
one class that are left, one is let go after another key was struck. -/
def chordPasses : List (Pass plainMusic) :=
  [keyPass [keyEvent .noteOn 60,keyEvent .noteOn 64] [keyEvent .noteOn 76,keyEvent .noteOff 60],
    keyPass [keyEvent .noteOn 67,keyEvent .noteOff 76] []]

theorem keys_follow_the_keyboard_chord :
    (({} : Worker plainMusic).runPasses acceptingTransport .gateSet [] chordPasses).calls =
        (({} : Worker plainMusic).runPassesSingly
          acceptingTransport .gateSet [] chordPasses).calls ∧
      64 ∈ (({} : Worker plainMusic).runPasses
        acceptingTransport .gateSet [] chordPasses).pitches.hostHeld := by
  have hkeeps : ({} : Worker plainMusic).RunKeeps acceptingTransport .gateSet [] chordPasses := by
    refine ⟨by decide,trivial,by decide,⟨trivial,⟨?_,trivial⟩,trivial⟩,trivial⟩
    exact .inr (.inr (.inr (.inr (.inl ⟨rfl,by decide +kernel⟩))))
  have hkeys : ∀ pass ∈ chordPasses, ∀ event ∈ pass.sent, event.isKey = true := by
    decide
  obtain ⟨hcalls,hheld⟩ :=
    keys_follow_the_keyboard acceptingTransport .gateSet (by decide) chordPasses hkeys hkeeps
  have hlast : PressedLast 64 (chordPasses.flatMap Pass.sent) = true := by decide +kernel
  exact ⟨hcalls,(hheld 64).mpr hlast⟩

/-- A tap between two passes: the release is handled before the press, the key stays held, and
the class stays on. -/
theorem keys_tapped_stay_held :
    let passes := [keyPass [keyEvent .noteOn 60,keyEvent .noteOff 60] []]
    let worker := ({} : Worker plainMusic).runPasses acceptingTransport .gateSet [] passes
    let singly := ({} : Worker plainMusic).runPassesSingly acceptingTransport .gateSet [] passes
    60 ∈ worker.pitches.hostHeld ∧ PressedLast 60 (passes.flatMap Pass.sent) = false ∧
      worker.calls.map Prod.fst = [.command (.setSharedPitch 1 ⟨1,0,5⟩ true)] ∧
      singly.calls.map Prod.fst = [.command (.setSharedPitch 2 ⟨1,0,5⟩ false),
        .command (.setSharedPitch 1 ⟨1,0,5⟩ true)] := by
  decide +kernel

end WalkieSongie.Bridge
