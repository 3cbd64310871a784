import WalkieSongie.BridgeDriver
set_option autoImplicit false

/-!
How a class stands in the room's sets, and where the driver puts it when it handles an edit.
-/

namespace WalkieSongie.Bridge

variable {M : MusicLibrary}

/-- How a class stands in a pitch set: not at all, by an exact pitch alone, or as a class. -/
inductive Level where
  | off
  | exact
  | on
  deriving DecidableEq

def Level.target : Bool → Level
  | true => .on
  | false => .off

def levelOf (shared : SharedPitchSet) (degree : TunedDegree) : Level :=
  if degree ∈ shared.pitchClasses then .on
  else if ∃ pitch ∈ shared.pitches, sharedDegree pitch = degree then .exact
  else .off

theorem containsClass_eq (shared : SharedPitchSet) (degree : TunedDegree) :
    containsClass shared degree = true ↔ levelOf shared degree ≠ .off := by
  unfold containsClass levelOf
  split
  · simp [*]
  · split <;> simp [*]

theorem levelOf_ne_target {shared : SharedPitchSet} {degree : TunedDegree} {active : Bool}
    (h : containsClass shared degree ≠ active) : levelOf shared degree ≠ .target active := by
  have hcontains := containsClass_eq shared degree
  cases active with
  | true =>
    intro hon
    exact h (hcontains.mpr (by simp [hon,Level.target]))
  | false =>
    intro hoff
    have hcontained : containsClass shared degree = true := by simpa using h
    exact hcontains.mp hcontained hoff

theorem lastEdit_append (degree : TunedDegree) (pitchEdits : List (TunedPeriodicPitch × Bool))
    (edit : TunedPeriodicPitch × Bool) :
    lastEdit degree (pitchEdits ++ [edit]) =
      if sharedDegree edit.1 = degree then some edit.2 else lastEdit degree pitchEdits := by
  unfold lastEdit
  by_cases hsame : sharedDegree edit.1 = degree <;> simp [hsame]

theorem lastEdit_singleton (degree : TunedDegree) (pitch : TunedPeriodicPitch) (active : Bool) :
    lastEdit degree [(pitch,active)] =
      if sharedDegree pitch = degree then some active else none :=
  lastEdit_append degree [] (pitch,active)

theorem lastEdit_eq_some {degree : TunedDegree} {pitchEdits : List (TunedPeriodicPitch × Bool)}
    {active : Bool} (h : lastEdit degree pitchEdits = some active) :
    ∃ edit ∈ pitchEdits, sharedDegree edit.1 = degree ∧ edit.2 = active := by
  have hmem := List.mem_of_getLast? h
  obtain ⟨edit,hedit,hactive⟩ := List.mem_filterMap.mp hmem
  by_cases hsame : sharedDegree edit.1 = degree
  · exact ⟨edit,hedit,hsame,by simpa [hsame] using hactive⟩
  · simp [hsame] at hactive

/-- Tracking leaves each edited class with the last word on it. -/
theorem trackPitchIntent_get? (pitches : BridgePitchState M) (token : Nat)
    (source : PitchIntentSource) (pitchEdits : List (TunedPeriodicPitch × Bool))
    (degree : TunedDegree) :
    (pitches.trackPitchIntent token source pitchEdits).pendingClasses.get? degree =
      match lastEdit degree pitchEdits with
      | some active => some ⟨active,token,source⟩
      | none => pitches.pendingClasses.get? degree := by
  simp only [BridgePitchState.trackPitchIntent]
  induction pitchEdits using List.reverseRecOn with
  | nil => rfl
  | append_singleton pitchEdits edit ih =>
    rw [List.foldl_append,List.foldl_cons,List.foldl_nil,KeyedMap.get?_insert,lastEdit_append,ih]
    by_cases hsame : sharedDegree edit.1 = degree
    · simp [hsame]
    · have hother : ¬ degree = sharedDegree edit.1 := fun h => hsame h.symm
      simp [hsame,hother]

namespace RoomReplica

theorem pieceDegrees_admitPitchEdits (pitchEdits : List (TunedPeriodicPitch × Bool))
    (replica : RoomReplica M) :
    (replica.admitPitchEdits pitchEdits).pieces = replica.pieces := by
  unfold admitPitchEdits
  induction pitchEdits generalizing replica with
  | nil => rfl
  | cons edit rest ih =>
    rw [List.foldl_cons,ih]
    rfl

theorem levelOf_admitPitchEdit (pitch : TunedPeriodicPitch) (active : Bool)
    {replica : RoomReplica M}
    (hpieces : active = false → sharedDegree pitch ∉ replica.pieceDegrees) :
    levelOf (replica.admitPitchEdit pitch active).soundingPitchSet (sharedDegree pitch) =
      .target active := by
  cases active with
  | true => simp [levelOf,admitPitchEdit,soundingPitchSet,Level.target]
  | false =>
    have hclass : sharedDegree pitch ∉
        (replica.admitPitchEdit pitch false).soundingPitchSet.pitchClasses := by
      simpa [admitPitchEdit,soundingPitchSet,pieceDegrees] using hpieces rfl
    have hexact : ¬ ∃ candidate ∈ (replica.admitPitchEdit pitch false).soundingPitchSet.pitches,
        sharedDegree candidate = sharedDegree pitch := by
      simp [admitPitchEdit,soundingPitchSet]
    rw [levelOf,if_neg hclass,if_neg hexact]
    rfl

theorem levelOf_admitPitchEdit_of_ne (pitch : TunedPeriodicPitch) (active : Bool)
    (replica : RoomReplica M) {degree : TunedDegree} (hother : sharedDegree pitch ≠ degree) :
    levelOf (replica.admitPitchEdit pitch active).soundingPitchSet degree =
      levelOf replica.soundingPitchSet degree := by
  have hlive : degree ∈ (replica.admitPitchEdit pitch active).soundingPitchSet.pitchClasses ↔
      degree ∈ replica.soundingPitchSet.pitchClasses := by
    cases active <;> simp [admitPitchEdit,soundingPitchSet,pieceDegrees,hother.symm]
  have hexact : (∃ candidate ∈ (replica.admitPitchEdit pitch active).soundingPitchSet.pitches,
      sharedDegree candidate = degree) ↔
        ∃ candidate ∈ replica.soundingPitchSet.pitches, sharedDegree candidate = degree := by
    simp only [admitPitchEdit,soundingPitchSet,Finset.mem_filter]
    constructor
    · intro h
      obtain ⟨candidate,hcandidate,hdegree⟩ := h
      exact ⟨candidate,hcandidate.1,hdegree⟩
    · intro h
      obtain ⟨candidate,hcandidate,hdegree⟩ := h
      exact ⟨candidate,⟨hcandidate,by rw [hdegree]; exact hother.symm⟩,hdegree⟩
  simp only [levelOf,hlive,hexact]

theorem levelOf_admitPitchEdits {pitchEdits : List (TunedPeriodicPitch × Bool)}
    {replica : RoomReplica M} {degree : TunedDegree} {active : Bool}
    (hpieces : ∀ edit ∈ pitchEdits, edit.2 = false → sharedDegree edit.1 ∉ replica.pieceDegrees)
    (h : lastEdit degree pitchEdits = some active) :
    levelOf (replica.admitPitchEdits pitchEdits).soundingPitchSet degree = .target active := by
  induction pitchEdits using List.reverseRecOn with
  | nil => cases h
  | append_singleton pitchEdits edit ih =>
    have hsplit : replica.admitPitchEdits (pitchEdits ++ [edit]) =
        (replica.admitPitchEdits pitchEdits).admitPitchEdit edit.1 edit.2 := by
      simp [admitPitchEdits]
    rw [lastEdit_append] at h
    rw [hsplit]
    by_cases hsame : sharedDegree edit.1 = degree
    · rw [if_pos hsame] at h
      cases h
      rw [← hsame]
      refine levelOf_admitPitchEdit edit.1 edit.2 fun hoff => ?_
      have hfree := hpieces edit (by simp) hoff
      rwa [pieceDegrees,pieceDegrees_admitPitchEdits]
    · rw [if_neg hsame] at h
      rw [levelOf_admitPitchEdit_of_ne _ _ _ hsame]
      exact ih (fun other hother => hpieces other (by simp [hother])) h

end RoomReplica

theorem RoomReplica.admitPitchEdits_settings (pitchEdits : List (TunedPeriodicPitch × Bool))
    (settings : Option (RoundTableConfig M)) (replica : RoomReplica M) :
    ((replica.admitRoundTableSettings settings).admitPitchEdits pitchEdits).soundingPitchSet =
      (replica.admitPitchEdits pitchEdits).soundingPitchSet := by
  have hcommute : (replica.admitRoundTableSettings settings).admitPitchEdits pitchEdits =
      (replica.admitPitchEdits pitchEdits).admitRoundTableSettings settings := by
    unfold admitPitchEdits
    induction pitchEdits generalizing replica with
    | nil => rfl
    | cons edit rest ih =>
      rw [List.foldl_cons,List.foldl_cons,← ih]
      cases settings <;> rfl
  rw [hcommute]
  cases settings <;> rfl

namespace ActiveRoom

theorem publishPitchSet_room (room : ActiveRoom M) : (room.publishPitchSetIfChanged false).1 =
    { room with forwardedPitchSet := room.replica.soundingPitchSet } := by
  simp only [publishPitchSetIfChanged]
  split
  · rename_i hsame
    rw [hsame.2]
  · rfl

theorem publishRoundTable_keeps (room : ActiveRoom M) :
    (room.publishRoundTableIfChanged false).1.replica = room.replica ∧
      (room.publishRoundTableIfChanged false).1.forwardedPitchSet = room.forwardedPitchSet := by
  simp only [publishRoundTableIfChanged]
  split <;> exact ⟨rfl,rfl⟩

theorem acceptPitchEdit_replica (pitch : TunedPeriodicPitch) (active : Bool) (room : ActiveRoom M) :
    (room.acceptPitchEdit .admitted pitch active).2.1.replica =
      room.replica.admitPitchEdit pitch active := by
  simp [acceptPitchEdit,publishPitchSet_room]

theorem acceptBoardEdit_replica (broadcast : Option String)
    (settings : Option (RoundTableConfig M)) (pitchEdits : List (TunedPeriodicPitch × Bool))
    (room : ActiveRoom M) :
    (room.acceptBoardEdit .admitted broadcast settings pitchEdits).2.1.replica =
      (room.replica.admitRoundTableSettings settings).admitPitchEdits pitchEdits := by
  simp [acceptBoardEdit,publishPitchSet_room,(publishRoundTable_keeps _).1]

end ActiveRoom

theorem exists_handleCommand (broadcast : Option String) (command : DriverCommand M)
    (room : ActiveRoom M) :
    ∃ after, (handleCommand .admitted broadcast command (some room)).1 = some after := by
  cases command <;> exact ⟨_,rfl⟩

theorem handleCommand_forwarded {broadcast : Option String} {command : DriverCommand M}
    {room after : ActiveRoom M}
    (h : (handleCommand .admitted broadcast command (some room)).1 = some after)
    (hedits : command.pitchEdits ≠ []) : after.forwardedPitchSet =
      (room.replica.admitPitchEdits command.pitchEdits).soundingPitchSet := by
  cases command with
  | roundTable frame => exact absurd rfl hedits
  | boardEdit token frame settings pitchEdits =>
    simp only [handleCommand,Option.some.injEq] at h
    rw [← h,(ActiveRoom.publishRoundTable_keeps _).2,ActiveRoom.publishPitchSet_room]
    dsimp only
    rw [ActiveRoom.acceptBoardEdit_replica]
    exact RoomReplica.admitPitchEdits_settings pitchEdits settings room.replica
  | pitchEdit token pitch enabled =>
    simp only [handleCommand,Option.some.injEq] at h
    rw [← h,ActiveRoom.publishPitchSet_room]
    dsimp only
    rw [ActiveRoom.acceptPitchEdit_replica]
    rfl

theorem filterMap_pitchSet_ofRoom (events : List (TransportEvent M)) :
    (ofRoom events).filterMap Egress.pitchSet = events.filterMap TransportEvent.pitchSet := by
  rw [ofRoom,List.filterMap_map]
  rfl

/-- What the driver sends keeps its shadow the last of the sets on their way. -/
theorem Coupled.shadow_sent {coupled : Coupled M} (h : (coupled.worker.pitches.room ::
      coupled.events.filterMap TransportEvent.pitchSet).getLast? =
        some coupled.room.forwardedPitchSet)
    {after : ActiveRoom M} {events : List (TransportEvent M)}
    (hfollows : Follows coupled.room (after,ofRoom events)) :
    (coupled.worker.pitches.room ::
      (coupled.events ++ events).filterMap TransportEvent.pitchSet).getLast? =
        some after.forwardedPitchSet := by
  have hforwards := hfollows.pitchSet
  rw [Forwards,filterMap_pitchSet_ofRoom] at hforwards
  rw [List.filterMap_append,← List.cons_append,List.getLast?_append]
  cases hlast : (events.filterMap TransportEvent.pitchSet).getLast? with
  | some shared => simpa [hlast] using hforwards
  | none => simpa [hlast,h] using hforwards

namespace Coupled

variable {coupled : Coupled M}

theorem Delivered.sets (h : coupled.Delivered) :
    coupled.events.filterMap TransportEvent.pitchSet = [] := by
  simpa using fun event hevent => (h.2 event hevent).1

theorem Delivered.edits (h : coupled.Delivered) {degree : TunedDegree} :
    (coupled.commands.filterMap fun command => lastEdit degree command.pitchEdits) = [] := by
  rw [List.filterMap_eq_nil_iff]
  intro command hcommand
  have htoken := h.1 command hcommand
  cases command with
  | roundTable frame => rfl
  | boardEdit token frame settings pitchEdits => cases htoken
  | pitchEdit token pitch active => cases htoken

end Coupled

end WalkieSongie.Bridge
