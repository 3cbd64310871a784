import WalkieSongie.PitchLevels
set_option autoImplicit false

/-!
What the keys ask of the room, over the bridge and the room's driver together: each key event in a
pass of its own, with others editing other classes.
-/

namespace WalkieSongie.Bridge

variable {M : MusicLibrary}

def noteDegree (M : MusicLibrary) (note : Nat) : Option TunedDegree :=
  match pitchForMidi M note with
  | .ok pitch => some (sharedDegree pitch)
  | .error _ => none

/-- The keys held, and the presses of the keys of one class that were no auto-repeats. -/
structure Keyboard where
  held : Finset Nat := ∅
  presses : Nat := 0

namespace Keyboard

def strike (M : MusicLibrary) (degree : TunedDegree) (keyboard : Keyboard) (event : RealtimeMidi) :
    Keyboard where
  held := if event.isPress = true then insert event.note keyboard.held
    else keyboard.held.erase event.note
  presses :=
    if event.isPress = true ∧ event.note ∉ keyboard.held ∧
      noteDegree M event.note = some degree then
      keyboard.presses+1
    else keyboard.presses

def holds (M : MusicLibrary) (degree : TunedDegree) (keyboard : Keyboard) : Bool :=
  ∃ note ∈ keyboard.held, note < 128 ∧ noteDegree M note = some degree

/-- Where the keys put a class that stood so at first. -/
def level (M : MusicLibrary) (mode : MidiInputMode) (degree : TunedDegree) (initial : Bool)
    (keyboard : Keyboard) : Bool :=
  match mode with
  | .gateSet => if keyboard.presses = 0 then initial else keyboard.holds M degree
  | .toggleSet => initial ^^ decide (keyboard.presses % 2 = 1)
  | .perform => initial

end Keyboard

/-- An edit of the others that leaves a class and the pieces alone. -/
structure ForeignEdit (M : MusicLibrary) (degree : TunedDegree) where
  edit : RoomReplica M → RoomReplica M
  pieces : ∀ replica, (edit replica).pieces = replica.pieces
  level : ∀ replica, containsClass (edit replica).soundingPitchSet degree =
    containsClass replica.soundingPitchSet degree

inductive KeyInput (M : MusicLibrary) (degree : TunedDegree) where
  | key (event : RealtimeMidi) (isKey : event.isKey = true)
  | drive
  | foreign (change : ForeignEdit M degree)
  | publish
  | deliver (now : Nat)

def KeyInput.event? {degree : TunedDegree} : KeyInput M degree → Option RealtimeMidi
  | .key event _ => some event
  | _ => none

/-- The keyboard after the key events of a run. -/
def struckFrom {degree : TunedDegree} (keyboard : Keyboard)
    (inputs : List (KeyInput M degree)) : Keyboard :=
  (inputs.filterMap KeyInput.event?).foldl (Keyboard.strike M degree) keyboard

namespace Coupled

variable (mode : MidiInputMode) {degree : TunedDegree}

/-- A key event goes through the queue of its kind. -/
def keyInput (coupled : Coupled M) : KeyInput M degree → CoupledInput M
  | .key event _ => .bridge (if event.isRelease then .released mode event else .realtime mode event)
  | .drive => .drive none
  | .foreign change => .replica (change.edit coupled.room.replica)
  | .publish => .publish
  | .deliver now => .deliver now

def keyStep (coupled : Coupled M) (input : KeyInput M degree) : Coupled M :=
  coupled.step (coupled.keyInput mode input)

def keyRun (coupled : Coupled M) (inputs : List (KeyInput M degree)) : Coupled M :=
  inputs.foldl (keyStep mode) coupled

/-- The room just joined, its first publications delivered. -/
def joined (name : String) (replica : RoomReplica M) : Coupled M :=
  (opened name replica).run [.deliver 0,.deliver 0]

/-- Where the class stands once the waiting commands are handled. -/
def asked (coupled : Coupled M) (degree : TunedDegree) : Bool :=
  (coupled.commands.filterMap fun command => lastEdit degree command.pitchEdits).getLast?.getD
    (containsClass coupled.room.replica.soundingPitchSet degree)

/-- The key event decides on its class: a fresh press, in gate mode one that holds the class alone,
or the release of the last key that held it. -/
def Decides (coupled : Coupled M) (event : RealtimeMidi) (pitch : TunedPeriodicPitch) : Bool :=
  if event.isPress = true then
    event.note ∉ coupled.worker.pitches.hostHeld ∧
      (mode = .gateSet → coupled.worker.pitches.hasHeldPitchClass pitch = false)
  else mode = .gateSet ∧ event.note ∈ coupled.worker.pitches.hostHeld ∧
    (coupled.worker.pitches.setHostHeld event.note false).2.hasHeldPitchClass pitch = false

/-- When a key event decides on the class, the last intent for it is still pending, or the bridge's
room set shows the level that was asked last; and a token is left for the edit it asks for. -/
def KeyKeeps (coupled : Coupled M) : KeyInput M degree → Prop
  | .key event _ => ∀ pitch, pitchForMidi M event.note = .ok pitch → sharedDegree pitch = degree →
      coupled.Decides mode event pitch = true →
        (coupled.worker.pitches.pendingClasses.get? degree = none →
            containsClass coupled.worker.pitches.room degree = coupled.asked degree) ∧
          (coupled.worker.pitches.intentOf mode event ≠ none →
            coupled.worker.pitches.nextIntentToken+1 < 2^64)
  | _ => True

instance (coupled : Coupled M) :
    (input : KeyInput M degree) → Decidable (coupled.KeyKeeps mode input)
  | .key event _ =>
      match hpitch : pitchForMidi M event.note with
      | .error _ => isTrue fun pitch h => by
          rw [hpitch] at h
          cases h
      | .ok pitch => decidable_of_iff
          (sharedDegree pitch = degree → coupled.Decides mode event pitch = true →
            (coupled.worker.pitches.pendingClasses.get? degree = none →
                containsClass coupled.worker.pitches.room degree = coupled.asked degree) ∧
              (coupled.worker.pitches.intentOf mode event ≠ none →
                coupled.worker.pitches.nextIntentToken+1 < 2^64))
          ⟨fun h other hother => by
              rw [hpitch] at hother
              cases hother
              exact h,fun h => h pitch hpitch⟩
  | .drive => isTrue trivial
  | .foreign _ => isTrue trivial
  | .publish => isTrue trivial
  | .deliver _ => isTrue trivial

def KeyRunKeeps (coupled : Coupled M) : List (KeyInput M degree) → Prop
  | [] => True
  | input :: rest => coupled.KeyKeeps mode input ∧ (coupled.keyStep mode input).KeyRunKeeps rest

instance decidableKeyRunKeeps : (coupled : Coupled M) → (inputs : List (KeyInput M degree)) →
    Decidable (coupled.KeyRunKeeps mode inputs)
  | _,[] => isTrue trivial
  | coupled,input :: rest =>
      have := decidableKeyRunKeeps (coupled.keyStep mode input) rest
      inferInstanceAs (Decidable
        (coupled.KeyKeeps mode input ∧ (coupled.keyStep mode input).KeyRunKeeps mode rest))

end Coupled

section Keys

theorem noteDegree_of_pitch {note : Nat} {pitch : TunedPeriodicPitch}
    (h : pitchForMidi M note = .ok pitch) : noteDegree M note = some (sharedDegree pitch) := by
  rw [noteDegree,h]

/-- Two keys play one class just where their degrees are the same: both are of the one tuning. -/
theorem sharedDegree_eq_iff {note other : Nat} {pitch candidate : TunedPeriodicPitch}
    (h : pitchForMidi M note = .ok pitch) (hother : pitchForMidi M other = .ok candidate) :
    sharedDegree candidate = sharedDegree pitch ↔ candidate.degree = pitch.degree := by
  have htuning : ∀ note pitch, pitchForMidi M note = .ok pitch → pitch.tuningId = M.twelveTet := by
    intro note pitch hpitch
    unfold pitchForMidi at hpitch
    split at hpitch
    · cases hpitch
      rfl
    · cases hpitch
  simp [sharedDegree,htuning _ _ h,htuning _ _ hother]

theorem hasHeldPitchClass_eq {pitches : BridgePitchState M} {keyboard : Keyboard}
    (hheld : pitches.hostHeld = keyboard.held) {note : Nat} {pitch : TunedPeriodicPitch}
    (hpitch : pitchForMidi M note = .ok pitch) :
    pitches.hasHeldPitchClass pitch = keyboard.holds M (sharedDegree pitch) := by
  rw [Bool.eq_iff_iff]
  simp only [BridgePitchState.hasHeldPitchClass,Keyboard.holds,List.any_eq_true,List.mem_range,
    Bool.and_eq_true,decide_eq_true_eq,hheld]
  refine exists_congr fun other => ?_
  cases hother : pitchForMidi M other with
  | error error => simp [noteDegree,hother]
  | ok candidate =>
    simp only [noteDegree_of_pitch hother,Option.some.injEq,sharedDegree_eq_iff hpitch hother]
    constructor
    · intro h
      exact ⟨h.2.1,h.1,of_decide_eq_true h.2.2⟩
    · intro h
      exact ⟨h.2.1,h.1,decide_eq_true h.2.2⟩

namespace Keyboard

variable {degree : TunedDegree} {keyboard : Keyboard} {event : RealtimeMidi}

theorem strike_of_other (keyboard : Keyboard) (hother : noteDegree M event.note ≠ some degree) :
    (keyboard.strike M degree event).presses = keyboard.presses ∧
      (keyboard.strike M degree event).holds M degree = keyboard.holds M degree := by
  refine ⟨by simp [strike,hother],?_⟩
  rw [Bool.eq_iff_iff]
  simp only [holds,decide_eq_true_eq]
  simp only [strike]
  refine exists_congr fun note => and_congr_left fun hclass => ?_
  have hne : note ≠ event.note := by
    intro hsame
    exact hother (hsame ▸ hclass.2)
  split <;> simp [hne]

theorem holds_of_press (hnote : event.note < 128) (hpress : event.isPress = true)
    (hclass : noteDegree M event.note = some degree) :
    (keyboard.strike M degree event).holds M degree = true := by
  simp only [holds,decide_eq_true_eq]
  simp only [strike,hpress,if_true]
  exact ⟨event.note,Finset.mem_insert_self _ _,hnote,hclass⟩

theorem holds_of_mem (hnote : event.note < 128) (hmem : event.note ∈ keyboard.held)
    (hclass : noteDegree M event.note = some degree) : keyboard.holds M degree = true := by
  simp only [holds,decide_eq_true_eq]
  exact ⟨event.note,hmem,hnote,hclass⟩

theorem strike_idle (hidle : event.note ∈ keyboard.held ↔ event.isPress = true) :
    keyboard.strike M degree event = keyboard := by
  unfold strike
  cases hpress : event.isPress with
  | true =>
    have hmem := hidle.mpr hpress
    simp [hmem,Finset.insert_eq_of_mem hmem]
  | false =>
    have hfree : event.note ∉ keyboard.held := by simp [hidle,hpress]
    simp [Finset.erase_eq_of_notMem hfree]

end Keyboard

namespace Worker

/-- The level that a key event has the worker ask of a class. -/
def issues (mode : MidiInputMode) (degree : TunedDegree) (worker : Worker M)
    (event : RealtimeMidi) :
    Option Bool :=
  if worker.pitches.nextIntentToken+1 < 2^64 then
    (worker.pitches.intentOf mode event).bind fun edit =>
      if sharedDegree edit.1 = degree then some edit.2 else none
  else none

/-- What a key event comes to: the key is marked, and the class is asked for what is issued. -/
structure Played (degree : TunedDegree) (event : RealtimeMidi) (issued : Option Bool)
    (before after : Worker M) : Prop where
  room : after.pitches.room = before.pitches.room
  held : after.pitches.hostHeld =
    if event.isPress = true then insert event.note before.pitches.hostHeld
    else before.pitches.hostHeld.erase event.note
  asked : (after.issued.filterMap fun command => lastEdit degree command.pitchEdits) =
    issued.toList
  pending : (after.pitches.pendingClasses.get? degree).map PendingPitchIntent.active =
    issued.or ((before.pitches.pendingClasses.get? degree).map PendingPitchIntent.active)

theorem played_keyInput {mode : MidiInputMode} (hmode : mode ≠ .perform) {event : RealtimeMidi}
    (hkey : event.isKey = true) {worker : Worker M} (hcalls : worker.calls = [])
    (degree : TunedDegree) :
    Played degree event (worker.issues mode degree event) worker
      (worker.keyInput openTransport mode event) := by
  rw [keyInput_eq hmode hkey]
  unfold issues
  cases hintent : worker.pitches.intentOf mode event with
  | none =>
    have hissued : (worker.setHeld event).issued = [] := by
      simp [issued,setHeld,setPitches,hcalls]
    refine ⟨rfl,rfl,?_,?_⟩
    · simp [edit,hissued]
    · simp [edit,setHeld,setPitches,BridgePitchState.setHostHeld]
  | some asked =>
    obtain ⟨pitch,active⟩ := asked
    by_cases htoken : worker.pitches.nextIntentToken+1 < 2^64
    · have hedit : (worker.setHeld event).edit openTransport (some (pitch,active)) =
          { worker with
            pitches := { (worker.pitches.setHostHeld event.note event.isPress).2 with
              nextIntentToken := worker.pitches.nextIntentToken+1
              pendingClasses := worker.pitches.pendingClasses.insert (sharedDegree pitch)
                ⟨active,worker.pitches.nextIntentToken,.host⟩ }
            calls := [(.command (.setSharedPitch worker.pitches.nextIntentToken pitch active),
              none)] } := by
        have hmarked : (worker.setHeld event).pitches.nextIntentToken+1 < 2^64 := htoken
        rw [edit,after_applySharedPitchIntent,if_pos hmarked]
        simp [setHeld,setPitches,BridgePitchState.setHostHeld,hcalls,openTransport,
          BridgePitchState.trackPitchIntent]
      rw [hedit]
      refine ⟨rfl,rfl,?_,?_⟩
      · rw [if_pos htoken]
        simp only [issued,TransportCall.driverCommand,BridgeCommand.driverCommand,
          List.reverse_singleton,List.filterMap_cons,List.filterMap_nil,DriverCommand.pitchEdits,
          lastEdit_singleton,Option.bind_some]
        by_cases hsame : sharedDegree pitch = degree <;> simp [hsame]
      · rw [if_pos htoken]
        simp only [KeyedMap.get?_insert,Option.bind_some]
        by_cases hsame : sharedDegree pitch = degree
        · simp [hsame]
        · have hother : ¬ degree = sharedDegree pitch := fun h => hsame h.symm
          simp [hsame,hother]
    · have hedit : (worker.setHeld event).edit openTransport (some (pitch,active)) =
          worker.setHeld event := by
        rw [edit,after_applySharedPitchIntent]
        exact if_neg htoken
      have hissued : (worker.setHeld event).issued = [] := by
        simp [issued,setHeld,setPitches,hcalls]
      rw [hedit,if_neg htoken]
      refine ⟨rfl,rfl,?_,?_⟩
      · simp [hissued]
      · simp [setHeld,setPitches,BridgePitchState.setHostHeld]

end Worker

namespace Coupled

variable {mode : MidiInputMode} {degree : TunedDegree} {coupled : Coupled M} {keyboard : Keyboard}
  {event : RealtimeMidi} {initial : Bool}

/-- What a key event asks for, where its key plays a class. -/
theorem intentOf_of_pitch {pitch : TunedPeriodicPitch}
    (hpitch : pitchForMidi M event.note = .ok pitch) (pitches : BridgePitchState M) :
    pitches.intentOf mode event =
      if event.isPress = true then
        if event.note ∈ pitches.hostHeld then none
        else if mode = .toggleSet then some (pitch,!pitches.containsOptimisticPitchClass pitch)
        else if pitches.containsOptimisticPitchClass pitch then none else some (pitch,true)
      else if mode = .gateSet ∧ event.note ∈ pitches.hostHeld ∧
          (pitches.setHostHeld event.note event.isPress).2.hasHeldPitchClass pitch = false ∧
          pitches.containsOptimisticPitchClass pitch = true then some (pitch,false)
      else none := by
  unfold BridgePitchState.intentOf
  rw [hpitch]
  rfl

/-- The events that pass a key of the class over, or another class's key: nothing is issued, and the
keyboard has nothing new to say of the class. -/
theorem key_quiet (hlevel : coupled.asked degree = keyboard.level M mode degree initial)
    (hissues : coupled.worker.issues mode degree event = none)
    (hsame : (keyboard.strike M degree event).level M mode degree initial =
      keyboard.level M mode degree initial)
    (hfree : ∀ pitch, pitchForMidi M event.note = .ok pitch → sharedDegree pitch = degree →
      coupled.Decides mode event pitch = false) (hkey : event.isKey = true) :
    (coupled.worker.issues mode degree event).getD (coupled.asked degree) =
        (keyboard.strike M degree event).level M mode degree initial ↔
      coupled.KeyKeeps mode (.key event hkey : KeyInput M degree) := by
  rw [hissues,Option.getD_none,hsame,hlevel]
  refine iff_of_true rfl fun pitch hpitch hdegree hdecides => ?_
  rw [hfree pitch hpitch hdegree] at hdecides
  cases hdecides

/-- An intent that is pending is the one asked last, so the view shows the level asked last just
where the intent is pending or the room set shows it. -/
theorem view_iff (hpending : ∀ intent, coupled.worker.pitches.pendingClasses.get? degree =
      some intent → intent.active = coupled.asked degree)
    {pitch : TunedPeriodicPitch} (hdegree : sharedDegree pitch = degree) :
    coupled.worker.pitches.containsOptimisticPitchClass pitch = coupled.asked degree ↔
      (coupled.worker.pitches.pendingClasses.get? degree = none →
        containsClass coupled.worker.pitches.room degree = coupled.asked degree) := by
  unfold BridgePitchState.containsOptimisticPitchClass
  rw [hdegree]
  cases hintent : coupled.worker.pitches.pendingClasses.get? degree with
  | none => simp [BridgePitchState.confirmedContainsPitchClass]
  | some intent => simp [hpending intent hintent]

/-- Where the event decides on the class, the condition is about the view and the token. -/
theorem keyKeeps_of_decides (hpending : ∀ intent,
      coupled.worker.pitches.pendingClasses.get? degree = some intent →
        intent.active = coupled.asked degree)
    {pitch : TunedPeriodicPitch} (hpitch : pitchForMidi M event.note = .ok pitch)
    (hdegree : sharedDegree pitch = degree)
    (hdecides : coupled.Decides mode event pitch = true) (hkey : event.isKey = true) :
    coupled.KeyKeeps mode (.key event hkey : KeyInput M degree) ↔
      (coupled.worker.pitches.containsOptimisticPitchClass pitch = coupled.asked degree ∧
        (coupled.worker.pitches.intentOf mode event ≠ none →
          coupled.worker.pitches.nextIntentToken+1 < 2^64)) := by
  rw [view_iff hpending hdegree]
  constructor
  · intro h
    exact h pitch hpitch hdegree hdecides
  · intro h other hother _ _
    rw [hpitch] at hother
    cases hother
    exact h

/-- A fresh press in toggle mode flips what was asked exactly if it is read against that. -/
theorem key_toggle (hpending : ∀ intent, coupled.worker.pitches.pendingClasses.get? degree =
      some intent → intent.active = coupled.asked degree)
    (hheld : coupled.worker.pitches.hostHeld = keyboard.held)
    (hlevel : coupled.asked degree = keyboard.level M .toggleSet degree initial)
    {pitch : TunedPeriodicPitch} (hpitch : pitchForMidi M event.note = .ok pitch)
    (hdegree : sharedDegree pitch = degree) (hpress : event.isPress = true)
    (hfresh : event.note ∉ keyboard.held) (hkey : event.isKey = true) :
    (coupled.worker.issues .toggleSet degree event).getD (coupled.asked degree) =
        (keyboard.strike M degree event).level M .toggleSet degree initial ↔
      coupled.KeyKeeps .toggleSet (.key event hkey : KeyInput M degree) := by
  have hdecides : coupled.Decides .toggleSet event pitch = true := by
    simp [Decides,hpress,hheld,hfresh]
  have hflip : (keyboard.strike M degree event).level M .toggleSet degree initial =
      !keyboard.level M .toggleSet degree initial := by
    have hclass : noteDegree M event.note = some degree := by
      rw [noteDegree_of_pitch hpitch,hdegree]
    simp only [Keyboard.level,Keyboard.strike,hpress,hfresh,hclass,not_false_eq_true,and_self,
      if_true]
    rcases Nat.mod_two_eq_zero_or_one keyboard.presses with hmod | hmod
    · simp [hmod,show (keyboard.presses+1) % 2 = 1 by omega]
    · simp [hmod,show (keyboard.presses+1) % 2 = 0 by omega]
  have hintent : coupled.worker.pitches.intentOf .toggleSet event =
      some (pitch,!coupled.worker.pitches.containsOptimisticPitchClass pitch) := by
    rw [intentOf_of_pitch hpitch,if_pos hpress,hheld,if_neg hfresh,if_pos rfl]
  rw [keyKeeps_of_decides hpending hpitch hdegree hdecides hkey,hflip,← hlevel,
    Worker.issues,hintent]
  by_cases htoken : coupled.worker.pitches.nextIntentToken+1 < 2^64
  · rw [if_pos htoken]
    simp [hdegree]
    omega
  · rw [if_neg htoken]
    simp
    omega

/-- A fresh press in gate mode leaves the class asked for, unless the view shows it where nothing
asked for it. -/
theorem key_gate_press (hpending : ∀ intent, coupled.worker.pitches.pendingClasses.get? degree =
      some intent → intent.active = coupled.asked degree)
    (hheld : coupled.worker.pitches.hostHeld = keyboard.held)
    (hlevel : coupled.asked degree = keyboard.level M .gateSet degree initial)
    (hpressed : keyboard.holds M degree = true → keyboard.presses ≠ 0)
    {pitch : TunedPeriodicPitch} (hpitch : pitchForMidi M event.note = .ok pitch)
    (huntouched : keyboard.presses = 0 →
      coupled.worker.pitches.containsOptimisticPitchClass pitch = coupled.asked degree)
    (hdegree : sharedDegree pitch = degree) (hpress : event.isPress = true)
    (hfresh : event.note ∉ keyboard.held) (hkey : event.isKey = true) :
    (coupled.worker.issues .gateSet degree event).getD (coupled.asked degree) =
        (keyboard.strike M degree event).level M .gateSet degree initial ↔
      coupled.KeyKeeps .gateSet (.key event hkey : KeyInput M degree) := by
  have hclass : noteDegree M event.note = some degree := by
    rw [noteDegree_of_pitch hpitch,hdegree]
  have hafter : (keyboard.strike M degree event).level M .gateSet degree initial = true := by
    have hpresses : (keyboard.strike M degree event).presses ≠ 0 := by
      simp [Keyboard.strike,hpress,hfresh,hclass]
    simp only [Keyboard.level,hpresses,if_false]
    exact Keyboard.holds_of_press (of_decide_eq_true hkey).1 hpress hclass
  have hholds : coupled.worker.pitches.hasHeldPitchClass pitch = keyboard.holds M degree := by
    rw [hasHeldPitchClass_eq hheld hpitch,hdegree]
  have hintent : coupled.worker.pitches.intentOf .gateSet event =
      if coupled.worker.pitches.containsOptimisticPitchClass pitch then none
      else some (pitch,true) := by
    rw [intentOf_of_pitch hpitch,if_pos hpress,hheld,if_neg hfresh,if_neg (by simp)]
  rw [hafter,Worker.issues,hintent]
  by_cases hother : keyboard.holds M degree = true
  · -- Another key holds the class already, so it is asked for whatever the view shows.
    have hasked : coupled.asked degree = true := by
      rw [hlevel,Keyboard.level]
      simp [hpressed hother,hother]
    refine iff_of_true ?_ fun other hpitch' hdegree' hdecides => ?_
    · rw [hasked]
      split
      · split <;> simp [hdegree]
      · rfl
    · rw [hpitch] at hpitch'
      cases hpitch'
      simp [Decides,hpress,hholds,hother] at hdecides
  · have hdecides : coupled.Decides .gateSet event pitch = true := by
      simp [Decides,hpress,hheld,hfresh,hholds,hother]
    rw [keyKeeps_of_decides hpending hpitch hdegree hdecides hkey,hintent]
    cases hview : coupled.worker.pitches.containsOptimisticPitchClass pitch with
    | true =>
      cases hasked : coupled.asked degree <;> simp
    | false =>
      have hasked : coupled.asked degree = false := by
        by_cases hpresses : keyboard.presses = 0
        · rw [← huntouched hpresses,hview]
        · rw [hlevel,Keyboard.level]
          simpa [hpresses] using hother
      rw [hasked]
      by_cases htoken : coupled.worker.pitches.nextIntentToken+1 < 2^64
      · rw [if_pos htoken]
        simp [hdegree]
        omega
      · rw [if_neg htoken]
        simp
        omega

/-- The release of a held key in gate mode leaves the class to the other keys, unless it is the last
one and the view does not show the class that is asked for. -/
theorem key_gate_release (hpending : ∀ intent, coupled.worker.pitches.pendingClasses.get? degree =
      some intent → intent.active = coupled.asked degree)
    (hheld : coupled.worker.pitches.hostHeld = keyboard.held)
    (hlevel : coupled.asked degree = keyboard.level M .gateSet degree initial)
    (hpressed : keyboard.holds M degree = true → keyboard.presses ≠ 0)
    {pitch : TunedPeriodicPitch} (hpitch : pitchForMidi M event.note = .ok pitch)
    (hdegree : sharedDegree pitch = degree) (hrelease : event.isPress = false)
    (hmem : event.note ∈ keyboard.held) (hkey : event.isKey = true) :
    (coupled.worker.issues .gateSet degree event).getD (coupled.asked degree) =
        (keyboard.strike M degree event).level M .gateSet degree initial ↔
      coupled.KeyKeeps .gateSet (.key event hkey : KeyInput M degree) := by
  have hclass : noteDegree M event.note = some degree := by
    rw [noteDegree_of_pitch hpitch,hdegree]
  have hbefore : keyboard.holds M degree = true :=
    Keyboard.holds_of_mem (of_decide_eq_true hkey).1 hmem hclass
  have hasked : coupled.asked degree = true := by
    rw [hlevel,Keyboard.level]
    simp [hpressed hbefore,hbefore]
  have hpresses : (keyboard.strike M degree event).presses = keyboard.presses := by
    simp [Keyboard.strike,hrelease]
  have hafter : (keyboard.strike M degree event).level M .gateSet degree initial =
      (keyboard.strike M degree event).holds M degree := by
    simp [Keyboard.level,hpresses,hpressed hbefore]
  have hholds : (coupled.worker.pitches.setHostHeld event.note false).2.hasHeldPitchClass pitch =
      (keyboard.strike M degree event).holds M degree := by
    have hmarked : (coupled.worker.pitches.setHostHeld event.note false).2.hostHeld =
        (keyboard.strike M degree event).held := by
      simp [BridgePitchState.setHostHeld,Keyboard.strike,hrelease,hheld]
    rw [hasHeldPitchClass_eq hmarked hpitch,hdegree]
  have hintent : coupled.worker.pitches.intentOf .gateSet event =
      if (keyboard.strike M degree event).holds M degree = false ∧
          coupled.worker.pitches.containsOptimisticPitchClass pitch = true then some (pitch,false)
      else none := by
    rw [intentOf_of_pitch hpitch]
    simp [hrelease,hheld,hmem,hholds]
  rw [hafter,Worker.issues,hintent]
  cases hlast : (keyboard.strike M degree event).holds M degree with
  | true =>
    refine iff_of_true (by simp [hasked]) fun other hpitch' hdegree' hdecides => ?_
    rw [hpitch] at hpitch'
    cases hpitch'
    simp [Decides,hrelease,hholds,hlast] at hdecides
  | false =>
    have hdecides : coupled.Decides .gateSet event pitch = true := by
      simp [Decides,hrelease,hheld,hmem,hholds,hlast]
    rw [keyKeeps_of_decides hpending hpitch hdegree hdecides hkey,hintent,hasked]
    cases hview : coupled.worker.pitches.containsOptimisticPitchClass pitch with
    | false => simp
    | true =>
      by_cases htoken : coupled.worker.pitches.nextIntentToken+1 < 2^64
      · rw [if_pos htoken]
        simp [hdegree,hlast]
        omega
      · rw [if_neg htoken]
        simp [hlast]
        omega

/-- What a key event leaves asked of the class is what the keys say, exactly if the condition
holds. -/
theorem key_iff (hmode : mode ≠ .perform)
    (hpending : ∀ intent, coupled.worker.pitches.pendingClasses.get? degree =
      some intent → intent.active = coupled.asked degree)
    (hheld : coupled.worker.pitches.hostHeld = keyboard.held)
    (hlevel : coupled.asked degree = keyboard.level M mode degree initial)
    (hpressed : keyboard.holds M degree = true → keyboard.presses ≠ 0)
    (huntouched : keyboard.presses = 0 → ∀ pitch, sharedDegree pitch = degree →
      coupled.worker.pitches.containsOptimisticPitchClass pitch = coupled.asked degree)
    (hkey : event.isKey = true) :
    (coupled.worker.issues mode degree event).getD (coupled.asked degree) =
        (keyboard.strike M degree event).level M mode degree initial ↔
      coupled.KeyKeeps mode (.key event hkey : KeyInput M degree) := by
  by_cases hclass : noteDegree M event.note = some degree
  · obtain ⟨pitch,hpitch,hdegree⟩ : ∃ pitch, pitchForMidi M event.note = .ok pitch ∧
        sharedDegree pitch = degree := by
      unfold noteDegree at hclass
      split at hclass
      · rename_i pitch hpitch
        exact ⟨pitch,hpitch,Option.some.inj hclass⟩
      · cases hclass
    by_cases hidle : event.note ∈ keyboard.held ↔ event.isPress = true
    · have hintent : coupled.worker.pitches.intentOf mode event = none := by
        rw [intentOf_of_pitch hpitch,hheld]
        cases hpress : event.isPress <;> simp [hidle,hpress]
      refine key_quiet hlevel (by simp [Worker.issues,hintent])
        (by rw [Keyboard.strike_idle hidle]) (fun other _ _ => ?_) hkey
      cases hpress : event.isPress <;> simp [Decides,hheld,hidle,hpress]
    · cases hpress : event.isPress with
      | true =>
        have hfresh : event.note ∉ keyboard.held := by simpa [hpress] using hidle
        cases mode with
        | perform => exact absurd rfl hmode
        | toggleSet => exact key_toggle hpending hheld hlevel hpitch hdegree hpress hfresh hkey
        | gateSet =>
          exact key_gate_press hpending hheld hlevel hpressed hpitch
            (fun hnone => huntouched hnone pitch hdegree) hdegree hpress hfresh hkey
      | false =>
        have hmem : event.note ∈ keyboard.held := by simpa [hpress] using hidle
        cases mode with
        | perform => exact absurd rfl hmode
        | toggleSet =>
          have hintent : coupled.worker.pitches.intentOf .toggleSet event = none := by
            rw [intentOf_of_pitch hpitch]
            simp [hpress]
          exact key_quiet hlevel (by simp [Worker.issues,hintent])
            (by simp [Keyboard.level,Keyboard.strike,hpress])
            (fun other _ _ => by simp [Decides,hpress]) hkey
        | gateSet =>
          exact key_gate_release hpending hheld hlevel hpressed hpitch hdegree hpress hmem hkey
  · have hissues : coupled.worker.issues mode degree event = none := by
      cases hintent : coupled.worker.pitches.intentOf mode event with
      | none => simp [Worker.issues,hintent]
      | some edit =>
        have hpitch := Worker.intentOf_pitch hintent
        have hother : sharedDegree edit.1 ≠ degree := by
          intro hsame
          exact hclass (by rw [noteDegree_of_pitch hpitch,hsame])
        simp [Worker.issues,hintent,hother]
    obtain ⟨hpresses,hholds⟩ := keyboard.strike_of_other hclass
    refine key_quiet hlevel hissues (by simp [Keyboard.level,hpresses,hholds])
      (fun pitch hpitch hdegree => ?_) hkey
    exact absurd (by rw [noteDegree_of_pitch hpitch,hdegree]) hclass

end Coupled

end Keys

end WalkieSongie.Bridge
