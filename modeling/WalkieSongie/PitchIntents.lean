import WalkieSongie.TurningHistory
import WalkieSongie.BridgeAsks
set_option autoImplicit false

/-!
The intents that the bridge keeps pending, over the bridge and the room's driver together: each
waits for a level that the room's history still turns to.
-/

namespace WalkieSongie.Bridge

variable {M : MusicLibrary}

namespace Coupled

/-- How the class stands from the bridge's room set over the sets on their way to what the waiting
commands ask for. -/
def history (coupled : Coupled M) (degree : TunedDegree) : List Level :=
  ((coupled.worker.pitches.room :: coupled.events.filterMap TransportEvent.pitchSet).map
      (levelOf · degree)) ++
    (coupled.commands.filterMap fun command => lastEdit degree command.pitchEdits).map Level.target

/-- The intents wait for what their class turns to, and the driver's shadow is the last room set on
its way. -/
structure Fences (coupled : Coupled M) : Prop where
  calls : coupled.worker.calls = []
  shadow : (coupled.worker.pitches.room ::
    coupled.events.filterMap TransportEvent.pitchSet).getLast? = some coupled.room.forwardedPitchSet
  turns : ∀ degree intent, coupled.worker.pitches.pendingClasses.get? degree = some intent →
    TurnsTo (.target intent.active) (coupled.history degree)

/-- The driver is not to switch off a class that an emoji piece holds. -/
def Keeps (coupled : Coupled M) : CoupledInput M → Prop
  | .drive _ => ∀ command ∈ coupled.commands.head?, ∀ edit ∈ command.pitchEdits,
      edit.2 = false → sharedDegree edit.1 ∉ coupled.room.replica.pieceDegrees
  | _ => True

def RunKeeps (coupled : Coupled M) : List (CoupledInput M) → Prop
  | [] => True
  | input :: rest => coupled.Keeps input ∧ (coupled.step input).RunKeeps rest

instance (coupled : Coupled M) : (input : CoupledInput M) → Decidable (coupled.Keeps input)
  | .drive _ => inferInstanceAs (Decidable (∀ command ∈ coupled.commands.head?, _))
  | .bridge _ => isTrue trivial
  | .replica _ => isTrue trivial
  | .publish => isTrue trivial
  | .deliver _ => isTrue trivial

instance decidableRunKeeps :
    (coupled : Coupled M) → (inputs : List (CoupledInput M)) → Decidable (coupled.RunKeeps inputs)
  | _,[] => isTrue trivial
  | coupled,input :: rest =>
      have := decidableRunKeeps (coupled.step input) rest
      inferInstanceAs (Decidable (coupled.Keeps input ∧ (coupled.step input).RunKeeps rest))

end Coupled

namespace Coupled

variable {coupled : Coupled M}

theorem turns_sets {sets sent : List SharedPitchSet} {rest : List Level} {value : Level}
    {degree : TunedDegree} (h : TurnsTo value (sets.map (levelOf · degree) ++ rest)) :
    TurnsTo value ((sets ++ sent).map (levelOf · degree) ++ rest) := by
  refine h.mono ?_
  rw [List.map_append,List.append_assoc]
  exact List.Sublist.append_left (List.sublist_append_right _ rest) _

theorem turns_handled {sets sent : List SharedPitchSet} {shared : SharedPitchSet}
    {rest : List Level} {value : Level} {degree : TunedDegree}
    (hlast : (sets ++ sent).getLast? = some shared)
    (h : TurnsTo value (sets.map (levelOf · degree) ++ levelOf shared degree :: rest)) :
    TurnsTo value ((sets ++ sent).map (levelOf · degree) ++ rest) := by
  cases sent using List.reverseRecOn with
  | nil =>
    rw [List.append_nil] at hlast ⊢
    obtain ⟨earlier,rfl⟩ := List.getLast?_eq_some_iff.mp hlast
    rw [List.map_append,List.map_singleton,List.append_assoc] at h ⊢
    exact h.dedup
  | append_singleton sent last =>
    have hsame : last = shared := by simpa using hlast
    subst hsame
    refine h.mono ?_
    rw [← List.append_assoc,List.map_append,List.append_assoc,List.map_singleton,
      List.map_append,List.append_assoc]
    exact List.Sublist.append_left (List.sublist_append_right _ _) _

theorem fences_publish (h : coupled.Fences) : (coupled.step .publish).Fences := by
  refine ⟨h.calls,shadow_sent h.shadow (ActiveRoom.follows_publish coupled.room),?_⟩
  intro degree intent hintent
  unfold history step
  rw [List.filterMap_append,← List.cons_append]
  exact turns_sets (h.turns degree intent hintent)

theorem fences_drive (h : coupled.Fences) (broadcast : Option String)
    (hkeeps : coupled.Keeps (.drive broadcast)) : (coupled.step (.drive broadcast)).Fences := by
  unfold step
  cases hcommands : coupled.commands with
  | nil => exact h
  | cons command rest =>
    obtain ⟨after,hafter⟩ := exists_handleCommand broadcast command coupled.room
    have hfollows := follows_handleCommand .admitted broadcast command hafter
    have hpieces : ∀ edit ∈ command.pitchEdits, edit.2 = false →
        sharedDegree edit.1 ∉ coupled.room.replica.pieceDegrees := by
      unfold Keeps at hkeeps
      rw [hcommands] at hkeeps
      exact hkeeps command rfl
    have hshadow := shadow_sent h.shadow hfollows
    simp only [hafter,Option.getD_some]
    refine ⟨h.calls,hshadow,fun degree intent hintent => ?_⟩
    have hturns := h.turns degree intent hintent
    unfold history at hturns ⊢
    rw [hcommands,List.filterMap_cons] at hturns
    rw [List.filterMap_append,← List.cons_append] at hshadow ⊢
    cases hedit : lastEdit degree command.pitchEdits with
    | none =>
      rw [hedit] at hturns
      exact turns_sets hturns
    | some active =>
      simp only [hedit,List.map_cons] at hturns
      have hlevel : levelOf after.forwardedPitchSet degree = .target active := by
        have hedits : command.pitchEdits ≠ [] := by
          intro hnil
          simp [hnil,lastEdit] at hedit
        rw [handleCommand_forwarded hafter hedits]
        exact RoomReplica.levelOf_admitPitchEdits hpieces hedit
      rw [← hlevel] at hturns
      exact turns_handled hshadow hturns

theorem target_injective {active other : Bool} (h : active ≠ other) :
    Level.target active ≠ .target other := by
  cases active <;> cases other <;> first | exact absurd rfl h | decide

theorem fences_takeUp (h : coupled.Fences) {events : List (TransportEvent M)}
    (hsets : events.filterMap TransportEvent.pitchSet =
      coupled.events.filterMap TransportEvent.pitchSet) {after : Worker M}
    (hasks : coupled.worker.AsksAll after) :
    (takeUp { coupled with events := events } after).Fences := by
  refine ⟨rfl,?_,fun degree intent hintent => ?_⟩
  · simp only [takeUp,hasks.room,hsets]
    exact h.shadow
  · have hhistory : (takeUp { coupled with events := events } after).history degree =
        coupled.history degree ++ (after.issued.filterMap fun command =>
          lastEdit degree command.pitchEdits).map Level.target := by
      simp [history,takeUp,hasks.room,hsets]
    have hshown : levelOf coupled.worker.pitches.room degree ∈ coupled.history degree := by
      simp [history]
    rw [hhistory]
    rcases hasks.asks degree with ⟨hasked,hkept⟩ | ⟨active,hasked,hactive,hstands⟩
    · rw [hasked,List.map_nil,List.append_nil]
      exact h.turns degree intent (hkept intent hintent)
    · rw [hasked,List.map_singleton,hactive intent hintent]
      rcases hstands with ⟨earlier,hearlier,hother⟩ | hlevel
      · exact (h.turns degree earlier hearlier).turn (target_injective hother)
      · exact .append_value hlevel hshown

/-- A room set that is delivered retires the intents it shows; the others still wait. -/
theorem fences_deliverSet (h : coupled.Fences) {shared : SharedPitchSet}
    {rest : List (TransportEvent M)} (hevents : coupled.events = .roomPitchSet shared :: rest)
    (now : Nat) :
    (takeUp { coupled with events := rest } (coupled.worker.after
      (Worker.input openTransport (.transport now (.roomPitchSet shared))))).Fences := by
  have hevent : (TransportEvent.roomPitchSet (M := M) shared).pitchSet = some shared := rfl
  have hafter : ∃ after : Worker M, after = coupled.worker.after
      (Worker.input openTransport (.transport now (.roomPitchSet shared))) ∧
      after.calls = [] ∧ after.pitches.room = shared ∧ after.pitches.pendingClasses =
        (coupled.worker.pitches.applyConfirmedRoom shared).2.pendingClasses := by
    refine ⟨_,rfl,?_⟩
    simp only [Worker.after,Worker.input,Worker.transportEvent]
    split
    · obtain ⟨hroom,_,_,hpending⟩ :=
        (coupled.worker.pitches.applyConfirmedRoom shared).2.stageBoardTarget_keeps now
      exact ⟨h.calls,hroom,hpending⟩
    · exact ⟨h.calls,rfl,rfl⟩
  obtain ⟨after,hsame,hcalls,hroom,hpending⟩ := hafter
  rw [← hsame]
  have hissued : after.issued = [] := by simp [Worker.issued,hcalls]
  have hshadow := h.shadow
  rw [hevents,List.filterMap_cons,hevent] at hshadow
  refine ⟨rfl,?_,fun degree intent hintent => ?_⟩
  · simp only [takeUp,hroom]
    rwa [List.getLast?_cons_cons] at hshadow
  · simp only [takeUp] at hintent
    rw [hpending,BridgePitchState.applyConfirmedRoom,KeyedMap.get?_retain] at hintent
    obtain ⟨hbefore,hkept⟩ := Option.filter_eq_some_iff.mp hintent
    have hlevel : levelOf shared degree ≠ .target intent.active :=
      levelOf_ne_target (by simpa using hkept)
    have hturns := h.turns degree intent hbefore
    unfold history at hturns ⊢
    rw [hevents,List.filterMap_cons,hevent] at hturns
    simp only [takeUp,hroom,hissued,List.append_nil]
    exact hturns.tail hlevel

theorem step_fences (hlaw : M.Lawful) (h : coupled.Fences) (input : CoupledInput M)
    (hkeeps : coupled.Keeps input) : (coupled.step input).Fences := by
  cases input with
  | bridge input =>
    have hasks := Worker.asksAll_local hlaw h.calls input
    exact fences_takeUp h rfl hasks
  | drive broadcast => exact fences_drive h broadcast hkeeps
  | replica replica => exact ⟨h.calls,h.shadow,h.turns⟩
  | publish => exact fences_publish h
  | deliver now =>
    unfold step
    cases hevents : coupled.events with
    | nil => exact h
    | cons event rest =>
      cases hset : event.pitchSet with
      | none =>
        have hsets : rest.filterMap TransportEvent.pitchSet =
            coupled.events.filterMap TransportEvent.pitchSet := by
          rw [hevents,List.filterMap_cons,hset]
        have hasks := Worker.asksAll_transportEvent hlaw h.calls now hset
        exact fences_takeUp h hsets hasks
      | some shared =>
        cases event with
        | roomPitchSet other => exact fences_deliverSet h hevents now
        | roomLink _ | roomSelected _ | boardLink _ | midi _ | roundTable _ | boardRoundTable _
        | pitchIntentOutcome _ _ | pitchIntentReset _ | other _ => cases hset

theorem run_fences (hlaw : M.Lawful) (h : coupled.Fences) {inputs : List (CoupledInput M)}
    (hkeeps : coupled.RunKeeps inputs) : (coupled.run inputs).Fences := by
  induction inputs generalizing coupled with
  | nil => exact h
  | cons input rest ih => exact ih (step_fences hlaw h input hkeeps.1) hkeeps.2

theorem opened_fences (name : String) (replica : RoomReplica M) : (opened name replica).Fences where
  calls := rfl
  shadow := by
    rw [opened,ActiveRoom.publishOpened_spec]
    rfl
  turns _ _ hintent := by cases hintent

theorem history_delivered (h : coupled.Delivered) (degree : TunedDegree) :
    coupled.history degree = [levelOf coupled.worker.pitches.room degree] := by
  rw [history,h.sets,h.edits]
  rfl

end Coupled

/-- The fence opens: once every outcome and every room set is delivered, nothing is pending, and
the next key is read against the confirmed set. -/
theorem pitch_fence_opens (hlaw : M.Lawful) (name : String) (replica : RoomReplica M)
    (inputs : List (CoupledInput M)) (hkeeps : (Coupled.opened name replica).RunKeeps inputs)
    (hdelivered : ((Coupled.opened name replica).run inputs).Delivered) :
    let pitches := ((Coupled.opened name replica).run inputs).worker.pitches
    pitches.pendingClasses.isEmpty = true ∧ pitches.hasPendingPitchIntent = false ∧
      ∀ pitch, pitches.containsOptimisticPitchClass pitch =
        pitches.confirmedContainsPitchClass (sharedDegree pitch) := by
  intro pitches
  have hfences := Coupled.run_fences hlaw (Coupled.opened_fences name replica) hkeeps
  have hnone : ∀ degree, pitches.pendingClasses.get? degree = none := by
    intro degree
    cases hpending : pitches.pendingClasses.get? degree with
    | none => rfl
    | some intent =>
      have hturns := hfences.turns degree intent hpending
      rw [Coupled.history_delivered hdelivered] at hturns
      exact absurd hturns (TurnsTo.not_singleton _)
  have hempty : pitches.pendingClasses.isEmpty = true := KeyedMap.isEmpty_iff.mpr hnone
  refine ⟨hempty,by simp [BridgePitchState.hasPendingPitchIntent,hempty],fun pitch => ?_⟩
  simp [BridgePitchState.containsOptimisticPitchClass,hnone]

/-- Twelve equal steps whose exact pitches sound on a note where they are of the octave. -/
def octaveMusic : MusicLibrary :=
  { plainMusic with
    roundedMidi := fun pitch =>
      if pitch.degree < 12 then 12*pitch.period+pitch.degree else -1 }

theorem octaveMusic_lawful : octaveMusic.Lawful where
  midi pitchClass hclass := by
    have hdegree : (48+pitchClass) % 12 = pitchClass := by omega
    have hnote : 48+pitchClass < 128 := by omega
    exact ⟨((48+pitchClass : Nat) : Int)/12,by simp [octaveMusic,plainMusic,hdegree,hnote]⟩
  cleared note := by simp [octaveMusic,plainMusic]
  toggled := by
    intro (pattern : Finset Nat) note (after : Finset Nat) h other
    have hafter : after = if note ∈ pattern then pattern.erase note else insert note pattern := by
      simp only [octaveMusic,plainMusic] at h
      split at h
      · exact (Option.some.inj h).symm
      · cases h
    simp only [octaveMusic,plainMusic,hafter]
    by_cases hmem : note ∈ pattern <;> by_cases hsame : other = note <;> simp [hmem,hsame]
  toggles pattern pitchClass hclass := by
    simp only [octaveMusic,plainMusic]
    rw [if_pos (by omega)]
    rfl
  sounding pitch pitchClass hclass _ h := by
    simp only [octaveMusic,plainMusic] at h
    split at h <;> omega

def togglePress (note : Nat) : CoupledInput octaveMusic :=
  .bridge (.realtime .toggleSet { note := note, kind := .noteOn, value := 1 })

/-- A room whose only member is an emoji piece of class 2. -/
def pieceRoom : RoomReplica octaveMusic where
  pieces := KeyedMap.empty.insert 7 ⟨1,2⟩
  roundTable := ⟨(0 : Nat),(∅ : Finset Nat)⟩

/-- The room's first publications, a press, and all that comes of it. -/
def pressDelivered (note : Nat) : List (CoupledInput octaveMusic) :=
  [.deliver 0,.deliver 0,togglePress note,.drive none,.deliver 1,.deliver 1]

theorem pitch_fence_opens_press :
    ((Coupled.opened "hall" pieceRoom).run
        (pressDelivered 52)).worker.pitches.hasPendingPitchIntent = false ∧
      containsClass ((Coupled.opened "hall" pieceRoom).run
        (pressDelivered 52)).worker.pitches.room ⟨1,4⟩ = true := by
  have hkeeps : (Coupled.opened "hall" pieceRoom).RunKeeps (pressDelivered 52) := by
    decide +kernel
  have hdelivered : ((Coupled.opened "hall" pieceRoom).run (pressDelivered 52)).Delivered := by
    have hcommands : ((Coupled.opened "hall" pieceRoom).run
        (pressDelivered 52)).commands.length = 0 := by decide +kernel
    have hevents : ((Coupled.opened "hall" pieceRoom).run
        (pressDelivered 52)).events.length = 0 := by decide +kernel
    rw [List.length_eq_zero_iff] at hcommands hevents
    exact ⟨by simp [hcommands],by simp [hevents]⟩
  exact ⟨(pitch_fence_opens octaveMusic_lawful "hall" pieceRoom (pressDelivered 52) hkeeps
    hdelivered).2.1,by decide +kernel⟩

/-- A key switches off the class that the piece holds: the room set stays as it was, and the intent
stays pending. -/
theorem pitch_fence_wedges_on_piece :
    let coupled := (Coupled.opened "hall" pieceRoom).run (pressDelivered 50)
    coupled.commands = [] ∧ coupled.events = [] ∧
      coupled.worker.pitches.room = coupled.room.forwardedPitchSet ∧
      coupled.worker.pitches.pendingClasses.get? ⟨1,2⟩ = some ⟨false,1,.host⟩ ∧
      coupled.worker.pitches.hasPendingPitchIntent = true := by
  have hcommands : ((Coupled.opened "hall" pieceRoom).run
      (pressDelivered 50)).commands.length = 0 := by decide +kernel
  have hevents : ((Coupled.opened "hall" pieceRoom).run
      (pressDelivered 50)).events.length = 0 := by decide +kernel
  exact ⟨List.length_eq_zero_iff.mp hcommands,List.length_eq_zero_iff.mp hevents,
    by decide +kernel,by decide +kernel,by decide +kernel⟩

end WalkieSongie.Bridge
