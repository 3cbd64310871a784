import WalkieSongie.KeyIntents
set_option autoImplicit false

/-!
Runs of keys, driver and deliveries: where the waiting commands put a class, and what the room
holds of it at the end.
-/

namespace WalkieSongie.Bridge

variable {M : MusicLibrary}

/-- The kinds of events that the driver sends while every command is admitted. -/
def TransportEvent.fromDriver : TransportEvent M → Bool
  | .roundTable _ => true
  | .roomPitchSet _ => true
  | .pitchIntentOutcome _ .applied => true
  | .other _ => true
  | _ => false

namespace Coupled

/-- What the run keeps of a class: an intent that is pending is the one asked last, and as long as
no key of the class was pressed, every set shows what the class was at first. -/
structure Tracking (degree : TunedDegree) (coupled : Coupled M) (keyboard : Keyboard) : Prop where
  calls : coupled.worker.calls = []
  events : ∀ event ∈ coupled.events, event.fromDriver = true
  shadow : (coupled.worker.pitches.room ::
    coupled.events.filterMap TransportEvent.pitchSet).getLast? = some coupled.room.forwardedPitchSet
  pieces : coupled.room.replica.pieces = .empty
  forwarded : containsClass coupled.room.forwardedPitchSet degree =
    containsClass coupled.room.replica.soundingPitchSet degree
  held : coupled.worker.pitches.hostHeld = keyboard.held
  pressed : keyboard.holds M degree = true → keyboard.presses ≠ 0
  pending : ∀ intent, coupled.worker.pitches.pendingClasses.get? degree = some intent →
    intent.active = coupled.asked degree
  untouched : keyboard.presses = 0 →
    coupled.worker.pitches.pendingClasses.get? degree = none ∧
      (coupled.commands.filterMap fun command => lastEdit degree command.pitchEdits) = [] ∧
      ∀ shared ∈ coupled.worker.pitches.room :: coupled.events.filterMap TransportEvent.pitchSet,
        containsClass shared degree = coupled.asked degree

end Coupled

section Driver

theorem containsClass_of_levelOf {shared other : SharedPitchSet} {degree : TunedDegree}
    (h : levelOf shared degree = levelOf other degree) :
    containsClass shared degree = containsClass other degree := by
  rw [Bool.eq_iff_iff,containsClass_eq,containsClass_eq,h]

theorem containsClass_of_target {shared : SharedPitchSet} {degree : TunedDegree} {active : Bool}
    (h : levelOf shared degree = .target active) : containsClass shared degree = active := by
  rw [Bool.eq_iff_iff,containsClass_eq,h]
  cases active <;> simp [Level.target]

theorem RoomReplica.containsClass_admitPitchEdits {pitchEdits : List (TunedPeriodicPitch × Bool)}
    {replica : RoomReplica M} (hpieces : replica.pieces = .empty) (degree : TunedDegree) :
    containsClass (replica.admitPitchEdits pitchEdits).soundingPitchSet degree =
      (lastEdit degree pitchEdits).getD (containsClass replica.soundingPitchSet degree) := by
  cases hedit : lastEdit degree pitchEdits with
  | some active =>
    have hfree : ∀ edit ∈ pitchEdits, edit.2 = false →
        sharedDegree edit.1 ∉ replica.pieceDegrees := by
      intro edit _ _
      simp [pieceDegrees,hpieces,KeyedMap.empty]
    exact containsClass_of_target (levelOf_admitPitchEdits hfree hedit)
  | none =>
    refine containsClass_of_levelOf ?_
    induction pitchEdits using List.reverseRecOn with
    | nil => rfl
    | append_singleton pitchEdits edit ih =>
      rw [lastEdit_append] at hedit
      by_cases hsame : sharedDegree edit.1 = degree
      · rw [if_pos hsame] at hedit
        cases hedit
      · rw [if_neg hsame] at hedit
        have hsplit : replica.admitPitchEdits (pitchEdits ++ [edit]) =
            (replica.admitPitchEdits pitchEdits).admitPitchEdit edit.1 edit.2 := by
          simp [admitPitchEdits]
        rw [hsplit,levelOf_admitPitchEdit_of_ne _ _ _ hsame]
        exact ih hedit

namespace ActiveRoom

theorem publishPitchSet_events (room : ActiveRoom M) :
    ∀ event ∈ (room.publishPitchSetIfChanged false).2,
      event = .roomPitchSet room.replica.soundingPitchSet := by
  simp only [publishPitchSetIfChanged]
  split <;> simp

theorem publishRoundTable_events (room : ActiveRoom M) :
    ∀ event ∈ (room.publishRoundTableIfChanged false).2,
      event = .roundTable (.config (roundTableSettings room.replica.roundTable)) := by
  simp only [publishRoundTableIfChanged]
  split <;> simp

end ActiveRoom

/-- A set of the driver's is the room's set of that moment; the other events are of its kinds. -/
def Sends (shared : SharedPitchSet) (events : List (TransportEvent M)) : Prop :=
  ∀ event ∈ events, event.fromDriver = true ∧ (event.pitchSet = none ∨ event.pitchSet = some shared)

theorem Sends.append {shared : SharedPitchSet} {first last : List (TransportEvent M)}
    (hfirst : Sends shared first) (hlast : Sends shared last) : Sends shared (first ++ last) := by
  intro event hevent
  rcases List.mem_append.mp hevent with hevent | hevent
  · exact hfirst event hevent
  · exact hlast event hevent

theorem sends_publishPitchSet {room : ActiveRoom M} {shared : SharedPitchSet}
    (h : room.replica.soundingPitchSet = shared) :
    Sends shared (room.publishPitchSetIfChanged false).2 := by
  intro event hevent
  rw [room.publishPitchSet_events event hevent,h]
  exact ⟨rfl,.inr rfl⟩

theorem sends_publishRoundTable (room : ActiveRoom M) (shared : SharedPitchSet) :
    Sends shared (room.publishRoundTableIfChanged false).2 := by
  intro event hevent
  rw [room.publishRoundTable_events event hevent]
  exact ⟨rfl,.inl rfl⟩

theorem sends_applied (token : Nat) (shared : SharedPitchSet) :
    Sends (M := M) shared [.pitchIntentOutcome token (pitchIntentOutcome none)] := by
  intro event hevent
  rw [List.mem_singleton.mp hevent]
  exact ⟨rfl,.inl rfl⟩

theorem sends_settingsReport (settings : Option (RoundTableConfig M)) (replica : RoomReplica M)
    (shared : SharedPitchSet) : Sends shared (replica.settingsReport settings) := by
  intro event hevent
  have hreport : event = .other 0 := by
    unfold RoomReplica.settingsReport at hevent
    split at hevent
    · cases hevent
    · split at hevent
      · cases hevent
      · exact List.mem_singleton.mp hevent
  rw [hreport]
  exact ⟨rfl,.inl rfl⟩

theorem admitRoundTableSettings_sounding (settings : Option (RoundTableConfig M))
    (replica : RoomReplica M) :
    (replica.admitRoundTableSettings settings).soundingPitchSet = replica.soundingPitchSet ∧
      (replica.admitRoundTableSettings settings).pieces = replica.pieces := by
  cases settings <;> exact ⟨rfl,rfl⟩

/-- The replica that a handled command leaves, and what the driver sends of it. -/
structure Handles (command : DriverCommand M) (room after : ActiveRoom M)
    (events : List (TransportEvent M)) : Prop where
  pieces : after.replica.pieces = room.replica.pieces
  sounding : after.replica.soundingPitchSet =
    (room.replica.admitPitchEdits command.pitchEdits).soundingPitchSet
  sends : Sends after.replica.soundingPitchSet events
  forwarded : after.forwardedPitchSet = after.replica.soundingPitchSet ∨
    (after.forwardedPitchSet = room.forwardedPitchSet ∧ command.pitchEdits = [])

theorem handles_handleCommand {command : DriverCommand M} {room after : ActiveRoom M}
    (h : (handleCommand .admitted none command (some room)).1 = some after) :
    Handles command room after (handleCommand .admitted none command (some room)).2 := by
  cases command with
  | roundTable frame =>
    obtain ⟨hsounding,hpieces⟩ := admitRoundTableSettings_sounding frame.boardConfig room.replica
    have hreplica : after.replica = room.replica.admitRoundTableSettings frame.boardConfig := by
      simp only [handleCommand,ActiveRoom.acceptRoundTable,Option.some.injEq] at h
      rw [← h,(ActiveRoom.publishRoundTable_keeps _).1]
    have hforwarded : after.forwardedPitchSet = room.forwardedPitchSet := by
      simp only [handleCommand,ActiveRoom.acceptRoundTable,Option.some.injEq] at h
      rw [← h,(ActiveRoom.publishRoundTable_keeps _).2]
    refine ⟨by rw [hreplica,hpieces],by rw [hreplica,hsounding]; rfl,?_,.inr ⟨hforwarded,rfl⟩⟩
    exact (sends_settingsReport _ _ _).append (sends_publishRoundTable _ _)
  | boardEdit token frame settings pitchEdits =>
    have hreplica : after.replica =
        (room.replica.admitRoundTableSettings settings).admitPitchEdits pitchEdits := by
      simp only [handleCommand,Option.some.injEq] at h
      rw [← h,(ActiveRoom.publishRoundTable_keeps _).1,ActiveRoom.publishPitchSet_room]
      exact ActiveRoom.acceptBoardEdit_replica none settings pitchEdits room
    have hsounding := RoomReplica.admitPitchEdits_settings pitchEdits settings room.replica
    have hforwarded : after.forwardedPitchSet = after.replica.soundingPitchSet := by
      simp only [handleCommand,Option.some.injEq] at h
      rw [← h,(ActiveRoom.publishRoundTable_keeps _).1,(ActiveRoom.publishRoundTable_keeps _).2,
        ActiveRoom.publishPitchSet_room]
    refine ⟨?_,by rw [hreplica,hsounding]; rfl,?_,.inl hforwarded⟩
    · rw [hreplica,RoomReplica.pieceDegrees_admitPitchEdits,
        (admitRoundTableSettings_sounding settings room.replica).2]
    · rw [hreplica]
      have haccepted : Sends ((room.replica.admitRoundTableSettings settings).admitPitchEdits
          pitchEdits).soundingPitchSet
            (room.acceptBoardEdit .admitted none settings pitchEdits).2.2 :=
        ((sends_settingsReport settings room.replica _).append (sends_publishPitchSet rfl)).append
          (sends_publishRoundTable _ _)
      have hagain : Sends ((room.replica.admitRoundTableSettings settings).admitPitchEdits
          pitchEdits).soundingPitchSet ((room.acceptBoardEdit .admitted none settings
            pitchEdits).2.1.publishPitchSetIfChanged false).2 :=
        sends_publishPitchSet (by rw [ActiveRoom.acceptBoardEdit_replica])
      exact ((haccepted.append hagain).append (sends_publishRoundTable _ _)).append
        (sends_applied token _)
  | pitchEdit token pitch enabled =>
    have hreplica : after.replica = room.replica.admitPitchEdit pitch enabled := by
      simp only [handleCommand,Option.some.injEq] at h
      rw [← h,ActiveRoom.publishPitchSet_room]
      exact ActiveRoom.acceptPitchEdit_replica _ _ _
    have haccepted : Sends (room.replica.admitPitchEdit pitch enabled).soundingPitchSet
        (room.acceptPitchEdit .admitted pitch enabled).2.2 := sends_publishPitchSet rfl
    have hagain : Sends (room.replica.admitPitchEdit pitch enabled).soundingPitchSet
        ((room.acceptPitchEdit .admitted pitch enabled).2.1.publishPitchSetIfChanged false).2 :=
      sends_publishPitchSet (by rw [ActiveRoom.acceptPitchEdit_replica])
    have hforwarded : after.forwardedPitchSet = after.replica.soundingPitchSet := by
      simp only [handleCommand,Option.some.injEq] at h
      rw [← h,ActiveRoom.publishPitchSet_room]
    refine ⟨by rw [hreplica]; rfl,by rw [hreplica]; rfl,?_,.inl hforwarded⟩
    rw [hreplica]
    exact (haccepted.append hagain).append (sends_applied token _)

theorem sends_publish (room : ActiveRoom M) :
    Sends room.replica.soundingPitchSet room.publish.2 := by
  have hsets : Sends room.replica.soundingPitchSet
      ((room.publishRoundTableIfChanged false).1.publishPitchSetIfChanged false).2 :=
    sends_publishPitchSet (by rw [room.publishRoundTable_keeps.1])
  exact (sends_publishRoundTable room _).append hsets

theorem Sends.sets {shared : SharedPitchSet} {events : List (TransportEvent M)}
    (h : Sends shared events) : ∀ other ∈ events.filterMap TransportEvent.pitchSet,
      other = shared := by
  intro other hother
  obtain ⟨event,hevent,hset⟩ := List.mem_filterMap.mp hother
  rcases (h event hevent).2 with hnone | hsome
  · simp [hnone] at hset
  · simpa [hsome] using hset.symm

end Driver

namespace Coupled

variable {mode : MidiInputMode} {degree : TunedDegree} {coupled : Coupled M} {keyboard : Keyboard}

theorem getLast?_getD_append {first last : List Bool} {initial : Bool} :
    (first ++ last).getLast?.getD initial = last.getLast?.getD (first.getLast?.getD initial) := by
  rw [List.getLast?_append]
  cases last.getLast? <;> simp

theorem getLast?_toList (last : Option Bool) : last.toList.getLast? = last := by
  cases last <;> rfl

theorem asked_drive (h : coupled.Tracking degree keyboard) {command : DriverCommand M}
    {rest : List (DriverCommand M)} (hcommands : coupled.commands = command :: rest)
    {after : ActiveRoom M} {events : List (TransportEvent M)}
    (hhandles : Handles command coupled.room after events) :
    asked { coupled with commands := rest, room := after, events := coupled.events ++ events }
      degree = coupled.asked degree := by
  have hlevel : containsClass after.replica.soundingPitchSet degree =
      (lastEdit degree command.pitchEdits).getD
        (containsClass coupled.room.replica.soundingPitchSet degree) := by
    rw [hhandles.sounding,RoomReplica.containsClass_admitPitchEdits h.pieces]
  have hedits : (coupled.commands.filterMap fun command => lastEdit degree command.pitchEdits) =
      (lastEdit degree command.pitchEdits).toList ++
        rest.filterMap fun command => lastEdit degree command.pitchEdits := by
    rw [hcommands,List.filterMap_cons]
    cases lastEdit degree command.pitchEdits <;> rfl
  unfold asked
  rw [hedits,getLast?_getD_append,getLast?_toList,← hlevel]

theorem tracking_drive (h : coupled.Tracking degree keyboard) :
    (coupled.step (.drive none)).Tracking degree keyboard ∧
      (coupled.step (.drive none)).asked degree = coupled.asked degree := by
  unfold step
  cases hcommands : coupled.commands with
  | nil => exact ⟨h,rfl⟩
  | cons command rest =>
    obtain ⟨after,hafter⟩ := exists_handleCommand none command coupled.room
    have hfollows := follows_handleCommand .admitted none command hafter
    have hhandles := handles_handleCommand hafter
    have hasked := asked_drive h hcommands hhandles
    have hlevel : containsClass after.replica.soundingPitchSet degree =
        (lastEdit degree command.pitchEdits).getD
          (containsClass coupled.room.replica.soundingPitchSet degree) := by
      rw [hhandles.sounding,RoomReplica.containsClass_admitPitchEdits h.pieces]
    have hforwarded : containsClass after.forwardedPitchSet degree =
        containsClass after.replica.soundingPitchSet degree := by
      rcases hhandles.forwarded with hset | hkept
      · rw [hset]
      · rw [hkept.1,h.forwarded,hlevel,hkept.2]
        rfl
    simp only [hafter,Option.getD_some]
    refine ⟨⟨h.calls,?_,shadow_sent h.shadow hfollows,hhandles.pieces.trans h.pieces,hforwarded,
      h.held,h.pressed,?_,?_⟩,hasked⟩
    · intro event hevent
      rcases List.mem_append.mp hevent with hevent | hevent
      · exact h.events event hevent
      · exact (hhandles.sends event hevent).1
    · intro intent hintent
      rw [hasked]
      exact h.pending intent hintent
    · intro hpresses
      obtain ⟨hpending,hedits,hsets⟩ := h.untouched hpresses
      have hnone : lastEdit degree command.pitchEdits = none ∧
          (rest.filterMap fun command => lastEdit degree command.pitchEdits) = [] := by
        rw [hcommands,List.filterMap_cons] at hedits
        cases hedit : lastEdit degree command.pitchEdits with
        | none => simpa [hedit] using hedits
        | some active => simp [hedit] at hedits
      have hreplica : coupled.asked degree =
          containsClass coupled.room.replica.soundingPitchSet degree := by
        rw [asked,hedits]
        rfl
      refine ⟨hpending,hnone.2,fun shared hshared => ?_⟩
      rw [hasked]
      rw [List.filterMap_append,← List.cons_append] at hshared
      rcases List.mem_append.mp hshared with hearlier | hsent
      · exact hsets shared hearlier
      · rw [hhandles.sends.sets shared hsent,hlevel,hnone.1,hreplica]
        rfl

/-- The driver's own publication sends the room's set. -/
theorem tracking_publish (h : coupled.Tracking degree keyboard) :
    (coupled.step .publish).Tracking degree keyboard ∧
      (coupled.step .publish).asked degree = coupled.asked degree := by
  have hreplica : coupled.room.publish.1.replica = coupled.room.replica := by
    simp only [ActiveRoom.publish,ActiveRoom.publishPitchSet_room]
    exact coupled.room.publishRoundTable_keeps.1
  have hforwarded : coupled.room.publish.1.forwardedPitchSet =
      coupled.room.replica.soundingPitchSet := by
    rw [ActiveRoom.publish_forwardedPitchSet,hreplica]
  have hsends := sends_publish coupled.room
  have hasked : (coupled.step .publish).asked degree = coupled.asked degree := by
    simp only [asked,step,hreplica]
  refine ⟨⟨h.calls,?_,shadow_sent h.shadow (ActiveRoom.follows_publish coupled.room),?_,?_,h.held,
    h.pressed,?_,?_⟩,hasked⟩
  · intro event hevent
    rcases List.mem_append.mp hevent with hevent | hevent
    · exact h.events event hevent
    · exact (hsends event hevent).1
  · simp only [step,hreplica]
    exact h.pieces
  · simp only [step,hreplica,hforwarded]
  · intro intent hintent
    rw [hasked]
    exact h.pending intent hintent
  · intro hpresses
    obtain ⟨hpending,hedits,hsets⟩ := h.untouched hpresses
    refine ⟨hpending,hedits,fun shared hshared => ?_⟩
    rw [hasked]
    simp only [step] at hshared
    rw [List.filterMap_append,← List.cons_append] at hshared
    rcases List.mem_append.mp hshared with hearlier | hsent
    · exact hsets shared hearlier
    · rw [hsends.sets shared hsent,asked,hedits]
      rfl

theorem tracking_foreign (h : coupled.Tracking degree keyboard) (change : ForeignEdit M degree) :
    (coupled.step (.replica (change.edit coupled.room.replica))).Tracking degree keyboard ∧
      (coupled.step (.replica (change.edit coupled.room.replica))).asked degree =
        coupled.asked degree := by
  have hlevel := change.level coupled.room.replica
  have hasked : (coupled.step (.replica (change.edit coupled.room.replica))).asked degree =
      coupled.asked degree := by
    simp only [asked,step,hlevel]
  refine ⟨⟨h.calls,h.events,h.shadow,(change.pieces _).trans h.pieces,?_,h.held,h.pressed,?_,?_⟩,
    hasked⟩
  · simp only [step,hlevel]
    exact h.forwarded
  · intro intent hintent
    rw [hasked]
    exact h.pending intent hintent
  · intro hpresses
    obtain ⟨hpending,hedits,hsets⟩ := h.untouched hpresses
    refine ⟨hpending,hedits,fun shared hshared => ?_⟩
    rw [hasked]
    exact hsets shared hshared

/-- A delivered event of the driver's: the bridge stays silent, and a set retires what it shows. -/
structure Delivers (event : TransportEvent M) (before after : Worker M) : Prop where
  calls : after.calls = before.calls
  held : after.pitches.hostHeld = before.pitches.hostHeld
  room : after.pitches.room = event.pitchSet.getD before.pitches.room
  pending : after.pitches.pendingClasses = match event.pitchSet with
    | none => before.pitches.pendingClasses
    | some shared => (before.pitches.applyConfirmedRoom shared).2.pendingClasses

theorem delivers_transportEvent {event : TransportEvent M} (hdriver : event.fromDriver = true)
    (now : Nat) (worker : Worker M) :
    Delivers event worker (worker.after (Worker.input openTransport (.transport now event))) := by
  cases event with
  | roomPitchSet shared =>
    simp only [Worker.after,Worker.input,Worker.transportEvent]
    split
    · obtain ⟨hroom,_,_,hpending⟩ :=
        (worker.pitches.applyConfirmedRoom shared).2.stageBoardTarget_keeps now
      exact ⟨rfl,BridgePitchState.stageBoardTarget_hostHeld _ now,hroom,hpending⟩
    · exact ⟨rfl,rfl,rfl,rfl⟩
  | roundTable frame =>
    obtain ⟨hroom,_,_,hpending⟩ := (worker.pitches.applyRoundTable frame).stageBoardTarget_keeps now
    have hheld := (worker.pitches.applyRoundTable frame).stageBoardTarget_hostHeld now
    cases frame <;> exact ⟨rfl,hheld,hroom,hpending⟩
  | pitchIntentOutcome token outcome =>
    cases outcome with
    | applied => exact ⟨rfl,rfl,rfl,rfl⟩
    | rejected error => cases hdriver
  | other code => exact ⟨rfl,rfl,rfl,rfl⟩
  | roomLink _ | roomSelected _ | boardLink _ | midi _ | boardRoundTable _ | pitchIntentReset _ =>
    cases hdriver

theorem tracking_deliver (h : coupled.Tracking degree keyboard) (now : Nat) :
    (coupled.step (.deliver now)).Tracking degree keyboard ∧
      (coupled.step (.deliver now)).asked degree = coupled.asked degree := by
  unfold step
  cases hevents : coupled.events with
  | nil => exact ⟨h,rfl⟩
  | cons event rest =>
    have hdriver : event.fromDriver = true := h.events event (by simp [hevents])
    have hdelivers := delivers_transportEvent hdriver now coupled.worker
    dsimp only
    generalize coupled.worker.after (Worker.input openTransport (.transport now event)) = after
      at hdelivers
    have hissued : after.issued = [] := by
      simp [Worker.issued,hdelivers.calls,h.calls]
    have hasked : (takeUp { coupled with events := rest } after).asked degree =
        coupled.asked degree := by
      simp [asked,takeUp,hissued]
    have hretired : ∀ intent, after.pitches.pendingClasses.get? degree = some intent →
        coupled.worker.pitches.pendingClasses.get? degree = some intent := by
      intro intent hintent
      rw [hdelivers.pending] at hintent
      cases hset : event.pitchSet with
      | none => simpa [hset] using hintent
      | some shared =>
        simp only [hset,BridgePitchState.applyConfirmedRoom,KeyedMap.get?_retain] at hintent
        exact (Option.filter_eq_some_iff.mp hintent).1
    -- The bridge's set and the sets on their way are the same queue, one place further.
    have hqueue : ∃ earlier, earlier ++ (after.pitches.room ::
        rest.filterMap TransportEvent.pitchSet) = coupled.worker.pitches.room ::
          coupled.events.filterMap TransportEvent.pitchSet := by
      rw [hevents,List.filterMap_cons,hdelivers.room]
      cases hset : event.pitchSet with
      | none => exact ⟨[],rfl⟩
      | some shared => exact ⟨[coupled.worker.pitches.room],rfl⟩
    obtain ⟨earlier,hqueue⟩ := hqueue
    refine ⟨⟨rfl,?_,?_,h.pieces,h.forwarded,hdelivers.held.trans h.held,h.pressed,?_,?_⟩,hasked⟩
    · intro other hother
      exact h.events other (by simp [hevents,show other ∈ rest from hother])
    · have hshadow := h.shadow
      rw [← hqueue,List.getLast?_append_cons] at hshadow
      exact hshadow
    · intro intent hintent
      rw [hasked]
      exact h.pending intent (hretired intent hintent)
    · intro hpresses
      obtain ⟨hpending,hedits,hsets⟩ := h.untouched hpresses
      refine ⟨?_,by simp [takeUp,hissued,hedits],fun shared hshared => ?_⟩
      · cases hintent : after.pitches.pendingClasses.get? degree with
        | none => exact hintent
        | some intent =>
          rw [hretired intent hintent] at hpending
          cases hpending
      · rw [hasked]
        refine hsets shared ?_
        rw [← hqueue]
        exact List.mem_append_right _ hshared

theorem issues_none_of_untouched (h : coupled.Tracking degree keyboard) {event : RealtimeMidi}
    (hkey : event.isKey = true)
    (huntouched : (keyboard.strike M degree event).presses = 0) :
    coupled.worker.issues mode degree event = none := by
  cases hintent : coupled.worker.pitches.intentOf mode event with
  | none => simp [Worker.issues,hintent]
  | some edit =>
    have hpitch := Worker.intentOf_pitch hintent
    by_cases hother : sharedDegree edit.1 = degree
    · have hclass : noteDegree M event.note = some degree := by
        rw [noteDegree_of_pitch hpitch,hother]
      rw [intentOf_of_pitch hpitch,h.held] at hintent
      exfalso
      cases hpress : event.isPress with
      | true =>
        by_cases hmem : event.note ∈ keyboard.held
        · simp [hpress,hmem] at hintent
        · simp [Keyboard.strike,hpress,hmem,hclass] at huntouched
      | false =>
        by_cases hmem : event.note ∈ keyboard.held
        · have hholds := Keyboard.holds_of_mem (of_decide_eq_true hkey).1 hmem hclass
          have hpresses := h.pressed hholds
          simp [Keyboard.strike,hpress] at huntouched
          exact hpresses huntouched
        · simp [hpress,hmem] at hintent
    · simp [Worker.issues,hintent,hother]

theorem strike_pressed (h : keyboard.holds M degree = true → keyboard.presses ≠ 0)
    (event : RealtimeMidi) (hheld : (keyboard.strike M degree event).holds M degree = true) :
    (keyboard.strike M degree event).presses ≠ 0 := by
  by_cases hclass : noteDegree M event.note = some degree
  · by_cases hidle : event.note ∈ keyboard.held ↔ event.isPress = true
    · rw [Keyboard.strike_idle hidle] at hheld ⊢
      exact h hheld
    · cases hpress : event.isPress with
      | true =>
        have hfresh : event.note ∉ keyboard.held := by simpa [hpress] using hidle
        simp [Keyboard.strike,hpress,hfresh,hclass]
      | false =>
        have hbefore : keyboard.holds M degree = true := by
          simp only [Keyboard.holds,decide_eq_true_eq] at hheld ⊢
          obtain ⟨note,hmem,hnote⟩ := hheld
          simp only [Keyboard.strike,hpress,Bool.false_eq_true,if_false,Finset.mem_erase] at hmem
          exact ⟨note,hmem.2,hnote⟩
        simpa [Keyboard.strike,hpress] using h hbefore
  · obtain ⟨hpresses,hholds⟩ := keyboard.strike_of_other hclass
    rw [hholds] at hheld
    rw [hpresses]
    exact h hheld

theorem keyStep_key (coupled : Coupled M) {event : RealtimeMidi} (hkey : event.isKey = true) :
    coupled.keyStep mode (.key event hkey : KeyInput M degree) =
      coupled.takeUp (coupled.worker.keyInput openTransport mode event) := by
  simp only [keyStep,keyInput,step,Worker.keyInput]
  split <;> rfl

theorem tracking_key (hmode : mode ≠ .perform) (h : coupled.Tracking degree keyboard)
    {event : RealtimeMidi} (hkey : event.isKey = true) :
    (coupled.keyStep mode (.key event hkey : KeyInput M degree)).Tracking degree
        (keyboard.strike M degree event) ∧
      (coupled.keyStep mode (.key event hkey : KeyInput M degree)).asked degree =
        (coupled.worker.issues mode degree event).getD (coupled.asked degree) := by
  have hplayed := Worker.played_keyInput hmode hkey h.calls degree
  rw [keyStep_key]
  generalize coupled.worker.keyInput openTransport mode event = after at hplayed
  have hasked : (coupled.takeUp after).asked degree =
      (coupled.worker.issues mode degree event).getD (coupled.asked degree) := by
    unfold asked takeUp
    rw [List.filterMap_append,hplayed.asked,getLast?_getD_append,getLast?_toList]
  refine ⟨⟨rfl,h.events,?_,h.pieces,h.forwarded,?_,strike_pressed h.pressed event,?_,?_⟩,hasked⟩
  · simp only [takeUp,hplayed.room]
    exact h.shadow
  · simp only [takeUp,hplayed.held,h.held]
    rfl
  · intro intent hintent
    rw [hasked]
    have hpending := hplayed.pending
    have hafter : after.pitches.pendingClasses.get? degree = some intent := hintent
    rw [hafter,Option.map_some] at hpending
    cases hissues : coupled.worker.issues mode degree event with
    | some active => simpa [hissues] using hpending
    | none =>
      rw [hissues,Option.none_or] at hpending
      obtain ⟨earlier,hearlier,hactive⟩ := Option.map_eq_some_iff.mp hpending.symm
      rw [← hactive]
      exact h.pending earlier hearlier
  · intro hpresses
    have hissues : coupled.worker.issues mode degree event = none :=
      issues_none_of_untouched h hkey hpresses
    have hbefore : keyboard.presses = 0 := by
      simp only [Keyboard.strike] at hpresses
      split at hpresses
      · omega
      · exact hpresses
    obtain ⟨hpending,hedits,hsets⟩ := h.untouched hbefore
    refine ⟨?_,?_,fun shared hshared => ?_⟩
    · have hnone := hplayed.pending
      rw [hissues,hpending] at hnone
      have hafter : after.pitches.pendingClasses.get? degree = none := by simpa using hnone
      exact hafter
    · simp only [takeUp]
      rw [List.filterMap_append,hplayed.asked,hissues,hedits]
      rfl
    · rw [hasked,hissues]
      simp only [takeUp,hplayed.room] at hshared
      exact hsets shared hshared

/-- One step: the tracking goes on, and what is asked stays what the keys say just where the
condition holds. -/
theorem keyStep_iff (hmode : mode ≠ .perform) {initial : Bool}
    (h : coupled.Tracking degree keyboard)
    (hlevel : coupled.asked degree = keyboard.level M mode degree initial)
    (input : KeyInput M degree) :
    let struck := (input.event?.toList).foldl (Keyboard.strike M degree) keyboard
    (coupled.keyStep mode input).Tracking degree struck ∧
      ((coupled.keyStep mode input).asked degree = struck.level M mode degree initial ↔
        coupled.KeyKeeps mode input) := by
  cases input with
  | key event hkey =>
    obtain ⟨htracking,hasked⟩ := tracking_key hmode h hkey
    refine ⟨htracking,?_⟩
    rw [hasked]
    refine key_iff hmode h.pending h.held hlevel h.pressed (fun hpresses pitch hdegree => ?_) hkey
    obtain ⟨hpending,_,hsets⟩ := h.untouched hpresses
    rw [BridgePitchState.containsOptimisticPitchClass,hdegree,hpending]
    exact hsets _ (List.mem_cons_self ..)
  | drive =>
    obtain ⟨htracking,hasked⟩ := tracking_drive h
    exact ⟨htracking,iff_of_true (hasked.trans hlevel) trivial⟩
  | foreign change =>
    obtain ⟨htracking,hasked⟩ := tracking_foreign h change
    exact ⟨htracking,iff_of_true (hasked.trans hlevel) trivial⟩
  | publish =>
    obtain ⟨htracking,hasked⟩ := tracking_publish h
    exact ⟨htracking,iff_of_true (hasked.trans hlevel) trivial⟩
  | deliver now =>
    obtain ⟨htracking,hasked⟩ := tracking_deliver h now
    exact ⟨htracking,iff_of_true (hasked.trans hlevel) trivial⟩

theorem struckFrom_cons (keyboard : Keyboard) (input : KeyInput M degree)
    (rest : List (KeyInput M degree)) : struckFrom keyboard (input :: rest) =
      struckFrom ((input.event?.toList).foldl (Keyboard.strike M degree) keyboard) rest := by
  unfold struckFrom
  rw [List.filterMap_cons]
  cases input.event? <;> rfl

theorem keyRun_tracking (hmode : mode ≠ .perform) (h : coupled.Tracking degree keyboard)
    (inputs : List (KeyInput M degree)) :
    (coupled.keyRun mode inputs).Tracking degree (struckFrom keyboard inputs) := by
  induction inputs generalizing coupled keyboard with
  | nil => exact h
  | cons input rest ih =>
    rw [struckFrom_cons]
    have hstep : (coupled.keyStep mode input).Tracking degree
        ((input.event?.toList).foldl (Keyboard.strike M degree) keyboard) := by
      cases input with
      | key event hkey => exact (tracking_key hmode h hkey).1
      | drive => exact (tracking_drive h).1
      | foreign change => exact (tracking_foreign h change).1
      | publish => exact (tracking_publish h).1
      | deliver now => exact (tracking_deliver h now).1
    exact ih hstep

theorem keyRun_iff (hmode : mode ≠ .perform) {initial : Bool}
    (h : coupled.Tracking degree keyboard)
    (hlevel : coupled.asked degree = keyboard.level M mode degree initial)
    (inputs : List (KeyInput M degree)) :
    (∀ earlier later, inputs = earlier ++ later → (coupled.keyRun mode earlier).asked degree =
        (struckFrom keyboard earlier).level M mode degree initial) ↔
      coupled.KeyRunKeeps mode inputs := by
  induction inputs generalizing coupled keyboard with
  | nil =>
    refine iff_of_true (fun earlier later hinputs => ?_) trivial
    rw [(List.append_eq_nil_iff.mp hinputs.symm).1]
    exact hlevel
  | cons input rest ih =>
    obtain ⟨hstep,hkeeps⟩ := keyStep_iff hmode h hlevel input
    constructor
    · intro hall
      have hfirst := hall [input] rest rfl
      rw [struckFrom_cons] at hfirst
      refine ⟨hkeeps.mp hfirst,(ih hstep hfirst).mp fun earlier later hrest => ?_⟩
      have hlater := hall (input :: earlier) later (by rw [hrest,List.cons_append])
      rwa [struckFrom_cons] at hlater
    · intro hrun earlier later hinputs
      cases earlier with
      | nil => exact hlevel
      | cons other earlier =>
        obtain ⟨rfl,hrest⟩ := List.cons.inj hinputs
        rw [struckFrom_cons]
        exact (ih hstep (hkeeps.mpr hrun.1)).mpr hrun.2 earlier later hrest

theorem asked_delivered (h : coupled.Tracking degree keyboard) (hdelivered : coupled.Delivered) :
    containsClass coupled.worker.pitches.room degree = coupled.asked degree ∧
      containsClass coupled.room.replica.soundingPitchSet degree = coupled.asked degree := by
  have hasked : coupled.asked degree =
      containsClass coupled.room.replica.soundingPitchSet degree := by
    rw [asked,hdelivered.edits]
    rfl
  have hshadow := h.shadow
  rw [hdelivered.sets] at hshadow
  have hroom : coupled.worker.pitches.room = coupled.room.forwardedPitchSet :=
    Option.some.inj hshadow
  exact ⟨by rw [hroom,h.forwarded,hasked],hasked.symm⟩

/-- The bridge that was told of the room just opened. -/
theorem joined_tracking (name : String) {replica : RoomReplica M}
    (hpieces : replica.pieces = .empty)
    (degree : TunedDegree) : (joined name replica).Tracking degree {} ∧
      (joined name replica).asked degree = containsClass replica.soundingPitchSet degree := by
  have hopened : opened name replica = {
      room := .ofReplica name replica
      events := [.roundTable (.config (roundTableSettings replica.roundTable)),
        .roomPitchSet replica.soundingPitchSet] } := by
    rw [opened,ActiveRoom.publishOpened_spec]
  have hjoined : ∃ worker : Worker M, joined name replica =
      { worker := worker, room := .ofReplica name replica } ∧ worker.calls = [] ∧
      worker.pitches.hostHeld = ∅ ∧ worker.pitches.room = replica.soundingPitchSet ∧
      ∀ degree, worker.pitches.pendingClasses.get? degree = none := by
    unfold joined
    rw [hopened]
    simp only [run,List.foldl_cons,List.foldl_nil,step]
    have htable : Delivers (.roundTable (.config (roundTableSettings replica.roundTable)))
        ({} : Worker M) _ := delivers_transportEvent rfl 0 {}
    generalize Worker.after {} (Worker.input openTransport (.transport 0
      (.roundTable (.config (roundTableSettings replica.roundTable))))) = first at htable ⊢
    have hset : Delivers (.roomPitchSet replica.soundingPitchSet) { first with calls := [] } _ :=
      delivers_transportEvent rfl 0 { first with calls := [] }
    simp only [takeUp]
    generalize Worker.after { first with calls := [] } (Worker.input openTransport (.transport 0
      (.roomPitchSet replica.soundingPitchSet))) = second at hset ⊢
    have hfirst : first.issued = [] := by simp [Worker.issued,htable.calls]
    have hsecond : second.issued = [] := by simp [Worker.issued,hset.calls]
    refine ⟨{ second with calls := [] },by rw [hfirst,hsecond]; rfl,rfl,?_,?_,?_⟩
    · exact hset.held.trans htable.held
    · exact hset.room
    · intro degree
      have hpending := hset.pending
      simp only [TransportEvent.pitchSet,BridgePitchState.applyConfirmedRoom,htable.pending]
        at hpending
      simp [hpending,KeyedMap.get?_retain]
  obtain ⟨worker,hjoined,hcalls,hheld,hroom,hpending⟩ := hjoined
  have hasked : (joined name replica).asked degree =
      containsClass replica.soundingPitchSet degree := by
    rw [hjoined]
    rfl
  refine ⟨⟨?_,?_,?_,?_,?_,?_,?_,?_,?_⟩,hasked⟩
  · rw [hjoined]
    exact hcalls
  · simp [hjoined]
  · simp [hjoined,hroom,ActiveRoom.ofReplica]
  · rw [hjoined]
    exact hpieces
  · rw [hjoined]
    rfl
  · rw [hjoined]
    exact hheld
  · simp [Keyboard.holds]
  · intro intent hintent
    rw [hjoined] at hintent
    rw [hpending] at hintent
    cases hintent
  · intro _
    rw [hasked,hjoined]
    exact ⟨hpending degree,rfl,by simp [hroom]⟩

end Coupled

/-- The room ends with what the keys said: at every moment of a run the waiting commands put the
class where the keys do, exactly if every key event that decides on it is read against the level
asked last; and once all is delivered, room and bridge hold just that. -/
theorem keys_settle_iff {mode : MidiInputMode} (hmode : mode ≠ .perform) (name : String)
    {replica : RoomReplica M} (hpieces : replica.pieces = .empty) (degree : TunedDegree)
    (inputs : List (KeyInput M degree)) :
    let start := Coupled.joined name replica
    let initial := containsClass replica.soundingPitchSet degree
    ((∀ earlier later, inputs = earlier ++ later → (start.keyRun mode earlier).asked degree =
        (struckFrom {} earlier).level M mode degree initial) ↔ start.KeyRunKeeps mode inputs) ∧
      (start.KeyRunKeeps mode inputs → (start.keyRun mode inputs).Delivered →
        containsClass (start.keyRun mode inputs).worker.pitches.room degree =
            (struckFrom {} inputs).level M mode degree initial ∧
          containsClass (start.keyRun mode inputs).room.replica.soundingPitchSet degree =
            (struckFrom {} inputs).level M mode degree initial) := by
  intro start initial
  obtain ⟨htracking,hasked⟩ := Coupled.joined_tracking name hpieces degree
  have hlevel : start.asked degree = ({} : Keyboard).level M mode degree initial := by
    rw [hasked]
    cases mode with
    | perform => exact absurd rfl hmode
    | toggleSet => simp [Keyboard.level,initial]
    | gateSet => simp [Keyboard.level,initial]
  have hiff := Coupled.keyRun_iff hmode htracking hlevel inputs
  refine ⟨hiff,fun hkeeps hdelivered => ?_⟩
  have hlast := hiff.mpr hkeeps inputs [] (List.append_nil _).symm
  obtain ⟨hroom,hreplica⟩ := Coupled.asked_delivered
    (Coupled.keyRun_tracking hmode htracking inputs) hdelivered
  exact ⟨hroom.trans hlast,hreplica.trans hlast⟩

def emptyRoom : RoomReplica plainMusic where
  roundTable := plainConfig 0 ∅

def pressD : KeyInput plainMusic ⟨1,2⟩ :=
  .key { note := 50, kind := .noteOn, value := 1 } (by decide)

def releaseD : KeyInput plainMusic ⟨1,2⟩ :=
  .key { note := 50, kind := .noteOff, value := 0 } (by decide)

def RoomReplica.addClass (degree : TunedDegree) (replica : RoomReplica M) : RoomReplica M :=
  { replica with live := insert degree replica.live }

theorem containsClass_addClass {degree other : TunedDegree} (hother : degree ≠ other)
    (replica : RoomReplica M) : containsClass (replica.addClass other).soundingPitchSet degree =
      containsClass replica.soundingPitchSet degree := by
  rw [Bool.eq_iff_iff]
  simp only [containsClass,RoomReplica.soundingPitchSet,RoomReplica.pieceDegrees,
    RoomReplica.addClass,decide_eq_true_eq,Finset.mem_union,Finset.mem_insert,hother,false_or]

def addE : ForeignEdit plainMusic ⟨1,2⟩ where
  edit := RoomReplica.addClass ⟨1,4⟩
  pieces _ := rfl
  level := containsClass_addClass (by decide)

/-- A press and a release, each delivered before the next key, with another class added between. -/
def heldKeyInputs : List (KeyInput plainMusic ⟨1,2⟩) :=
  [pressD,.drive,.foreign addE,.publish,.deliver 1,.deliver 1,.deliver 1,releaseD,.drive,.deliver 2,
    .deliver 2]

theorem keys_settle_iff_held_key :
    containsClass ((Coupled.joined "hall" emptyRoom).keyRun .gateSet
        heldKeyInputs).worker.pitches.room ⟨1,2⟩ = false ∧
      containsClass ((Coupled.joined "hall" emptyRoom).keyRun .gateSet
        heldKeyInputs).worker.pitches.room ⟨1,4⟩ = true := by
  have hkeeps : (Coupled.joined "hall" emptyRoom).KeyRunKeeps .gateSet heldKeyInputs := by
    decide +kernel
  have hcommands : ((Coupled.joined "hall" emptyRoom).keyRun .gateSet
      heldKeyInputs).commands.length = 0 := by decide +kernel
  have hevents : ((Coupled.joined "hall" emptyRoom).keyRun .gateSet
      heldKeyInputs).events.length = 0 := by decide +kernel
  rw [List.length_eq_zero_iff] at hcommands hevents
  have hsettled := (keys_settle_iff (by decide : MidiInputMode.gateSet ≠ .perform) "hall"
    (rfl : emptyRoom.pieces = .empty) ⟨1,2⟩ heldKeyInputs).2 hkeeps
      ⟨by simp [hcommands],by simp [hevents]⟩
  have hsays : (struckFrom {} heldKeyInputs).level plainMusic .gateSet ⟨1,2⟩
      (containsClass emptyRoom.soundingPitchSet ⟨1,2⟩) = false := by decide +kernel
  exact ⟨hsettled.1.trans hsays,by decide +kernel⟩

/-- The third edit of the class is asked for while the sets of the first two are on their way: the
first one retires it, and the second one shows the class off. -/
def overtakenInputs : List (KeyInput plainMusic ⟨1,2⟩) :=
  [pressD,releaseD,.drive,.drive,pressD,.deliver 1,.deliver 1,.deliver 1,releaseD,.drive,.deliver 2,
    .deliver 2,.deliver 2]

def overtakenToggleInputs : List (KeyInput plainMusic ⟨1,2⟩) :=
  [pressD,releaseD,pressD,releaseD,.drive,.drive,pressD,releaseD,.deliver 1,.deliver 1,.deliver 1,
    pressD,releaseD,.drive,.drive,.deliver 2,.deliver 2,.deliver 2,.deliver 2,.deliver 2]

/-- In gate mode the class stays in the room with no key held; in toggle mode four presses leave
it changed. -/
theorem keys_overtaken_by_older_set :
    let gate := (Coupled.joined "hall" emptyRoom).keyRun .gateSet overtakenInputs
    let toggle := (Coupled.joined "hall" emptyRoom).keyRun .toggleSet overtakenToggleInputs
    gate.commands = [] ∧ gate.events = [] ∧ gate.worker.pitches.hostHeld = ∅ ∧
      containsClass gate.room.replica.soundingPitchSet ⟨1,2⟩ = true ∧
      (struckFrom {} overtakenInputs).level plainMusic .gateSet ⟨1,2⟩ false = false ∧
      toggle.commands = [] ∧ toggle.events = [] ∧
      containsClass toggle.room.replica.soundingPitchSet ⟨1,2⟩ = true ∧
      (struckFrom {} overtakenToggleInputs).level plainMusic .toggleSet ⟨1,2⟩ false = false := by
  have hcommands : ((Coupled.joined "hall" emptyRoom).keyRun .gateSet
      overtakenInputs).commands.length = 0 := by decide +kernel
  have hevents : ((Coupled.joined "hall" emptyRoom).keyRun .gateSet
      overtakenInputs).events.length = 0 := by decide +kernel
  have hcommands' : ((Coupled.joined "hall" emptyRoom).keyRun .toggleSet
      overtakenToggleInputs).commands.length = 0 := by decide +kernel
  have hevents' : ((Coupled.joined "hall" emptyRoom).keyRun .toggleSet
      overtakenToggleInputs).events.length = 0 := by decide +kernel
  exact ⟨List.length_eq_zero_iff.mp hcommands,List.length_eq_zero_iff.mp hevents,by decide +kernel,
    by decide +kernel,by decide +kernel,List.length_eq_zero_iff.mp hcommands',
    List.length_eq_zero_iff.mp hevents',by decide +kernel,by decide +kernel⟩

end WalkieSongie.Bridge
