import WalkieSongie.HostedRoom
set_option autoImplicit false

/-!
Clearing a room from the browser window: the retractions of what a snapshot shows, which of them
are accepted, and what the room shows when all are through.
-/

namespace WalkieSongie.Client
open CausalDag
open EditRoutes (History Placement)
open Extension (ExtensionReplica PieceId)

variable {T : TuningLibrary} {Id : Type} [DecidableEq Id]

section Retractions

/-- The commands that take away what is shown, in the order in which the sets are walked. -/
def retractions (pitchClasses : List TunedDegree) (pitches : List TunedPeriodicPitch)
    (pieces : List PieceSnapshot) : List (ClientCommand T) :=
  pitchClasses.map .removeDegree ++ pitches.map .removePitch ++
    pieces.map fun piece => .removePiece piece.id

/-- The retractions, and the end of the voice preview. -/
def CommandWindow.clearNativeMusicalState (window : CommandWindow T)
    (pitchClasses : List TunedDegree) (pitches : List TunedPeriodicPitch)
    (pieces : List PieceSnapshot) (voiceSession : Nat) : CommandWindow T :=
  (window.dispatchAll (retractions pitchClasses pitches pieces)).dispatch
    (.setVoicePreview voiceSession none)

/-- The lists walk the two sets, each element once. -/
structure Walks (shared : SharedPitchSet) (pitchClasses : List TunedDegree)
    (pitches : List TunedPeriodicPitch) : Prop where
  pitchClasses : pitchClasses.Nodup ∧ pitchClasses.toFinset = shared.pitchClasses
  pitches : pitches.Nodup ∧ pitches.toFinset = shared.pitches

/-- A slot for each degree that is touched, room in the queue for each command, and a number for
each intent. -/
structure CommandWindow.HoldsRetractions (window : CommandWindow T) (snapshot : AppSnapshot T) :
    Prop where
  slots : (snapshot.sharedPitches.pitchClasses ∪
    snapshot.sharedPitches.pitches.image pitchDegree).card ≤ feedbackCapacity
  queue : snapshot.sharedPitches.pitchClasses.card + snapshot.sharedPitches.pitches.card +
    snapshot.pieces.length ≤ windowCommandCapacity+1
  numbers : window.performanceSequence + (snapshot.sharedPitches.pitchClasses.card +
    snapshot.sharedPitches.pitches.card) < 2^64

variable {snapshot : AppSnapshot T} {pitchClasses : List TunedDegree}
  {pitches : List TunedPeriodicPitch}

theorem targets_retractions (pieces : List PieceSnapshot) :
    targets (T := T) (retractions pitchClasses pitches pieces) =
      pitchClasses ++ pitches.map pitchDegree := by
  have hclasses : targets (T := T) (pitchClasses.map .removeDegree) = pitchClasses := by
    simp [targets,List.filterMap_map,performanceTarget]
  have hpitches : targets (T := T) (pitches.map .removePitch) = pitches.map pitchDegree := by
    simp [targets,List.filterMap_map,performanceTarget]
  have hpieces : targets (T := T) (pieces.map fun piece => .removePiece piece.id) = [] := by
    simp [targets,List.filterMap_map,performanceTarget]
  simp only [retractions]
  unfold targets at hclasses hpitches hpieces ⊢
  rw [List.filterMap_append,List.filterMap_append,hclasses,hpitches,hpieces,List.append_nil]

theorem Walks.fits_iff (h : Walks snapshot.sharedPitches pitchClasses pitches)
    {window : CommandWindow T} (hslots : window.feedback.slots.length = feedbackCapacity) :
    window.Fits (windowCommandCapacity+1) (retractions pitchClasses pitches snapshot.pieces) ↔
      window.HoldsRetractions snapshot := by
  have hclasses := List.toFinset_card_of_nodup h.pitchClasses.1
  have hpitches := List.toFinset_card_of_nodup h.pitches.1
  have htouched : (pitchClasses ++ pitches.map pitchDegree).toFinset =
      snapshot.sharedPitches.pitchClasses ∪ snapshot.sharedPitches.pitches.image pitchDegree := by
    rw [List.toFinset_append,← h.pitchClasses.2,← h.pitches.2]
    congr 1
    ext degree
    simp
  rw [h.pitchClasses.2] at hclasses
  rw [h.pitches.2] at hpitches
  have hlength : (retractions (T := T) pitchClasses pitches snapshot.pieces).length =
      snapshot.sharedPitches.pitchClasses.card + snapshot.sharedPitches.pitches.card +
        snapshot.pieces.length := by
    simp [retractions,hclasses,hpitches]
    omega
  have htargets : targets (T := T) (retractions pitchClasses pitches snapshot.pieces) =
      pitchClasses ++ pitches.map pitchDegree := targets_retractions snapshot.pieces
  constructor
  · rintro ⟨hslot,hqueue,hnumbers⟩
    rw [htargets] at hslot hnumbers
    refine ⟨?_,hlength ▸ hqueue,?_⟩
    · rwa [htouched,hslots] at hslot
    · rwa [List.length_append,List.length_map,← hclasses,← hpitches] at hnumbers
  · rintro ⟨hslot,hqueue,hnumbers⟩
    refine ⟨?_,hlength ▸ hqueue,?_⟩
    · rwa [htargets,htouched,hslots]
    · rwa [htargets,List.length_append,List.length_map,← hclasses,← hpitches]

end Retractions

section Clear

/-- The room is entered, its snapshot is current and shows no lock, and nothing is under way. -/
structure HostedRoom.Ready (replica : RoomReplica T Id) (room : HostedRoom T Id)
    (snapshot : AppSnapshot T) : Prop where
  idle : room.window.Idle (windowCommandCapacity+1)
  slots : room.window.feedback.slots.length = feedbackCapacity
  activeRoom : room.host.activeRoom = true
  shown : (room.view replica).Shown true snapshot
  tuning : room.host.snapshot.tuning = snapshot.tuning
  unlocked : snapshot.piecesLocked = false
  settled : room.music.Settled

variable {replica : RoomReplica T Id} {room after : HostedRoom T Id} {snapshot : AppSnapshot T}
  {pitchClasses : List TunedDegree} {pitches : List TunedPeriodicPitch}

/-- A command without a target is queued last, or not at all. -/
theorem CommandWindow.Took.queued {start window : CommandWindow T} {capacity : Nat}
    {commands : List (ClientCommand T)} (h : Took start capacity commands window)
    {command : ClientCommand T} (hnone : performanceTarget command = none) :
    ∃ queue, (window.dispatch command).commands = some queue ∧
      (queue.items.map QueuedCommand.command = commands ∨
        queue.items.map QueuedCommand.command = commands ++ [command]) ∧
      ∀ queued ∈ queue.items,
        queued.intentToken.isSome = (performanceTarget queued.command).isSome := by
  obtain ⟨queue,hqueue,-,hitems,htokens⟩ := h.queue
  have hdispatch : window.dispatch command = window.trySend ⟨command,none⟩ := by
    simp [CommandWindow.dispatch,hnone]
  rw [hdispatch]
  cases hpush : queue.push ⟨command,none⟩ with
  | none =>
    refine ⟨queue,?_,.inl hitems,htokens⟩
    simp [trySend,hqueue,hpush,onError]
  | some after =>
    obtain ⟨-,hafter,-⟩ := BoundedQueue.push_eq_some hpush
    refine ⟨after,?_,.inr ?_,?_⟩
    · rw [trySend_taken hqueue hpush]
    · simp [hafter,hitems]
    · intro queued hqueued
      rw [hafter,List.mem_append,List.mem_singleton] at hqueued
      obtain hold | rfl := hqueued
      · exact htokens queued hold
      · simp [hnone]

theorem mem_retractions {command : ClientCommand T} {pieces : List PieceSnapshot} :
    command ∈ retractions pitchClasses pitches pieces ↔
      (∃ pitch ∈ pitchClasses, .removeDegree pitch = command) ∨
        (∃ pitch ∈ pitches, .removePitch pitch = command) ∨
          ∃ piece ∈ pieces, .removePiece piece.id = command := by
  simp [retractions]

theorem mem_pieces_iff {view : RoomView T} {id : PieceId} :
    id ∈ view.pieces ↔ ∃ piece ∈ view.pieceSnapshots, piece.id = id := by
  rw [← Std.ExtTreeMap.contains_iff_mem,contains_eq_any,List.any_eq_true]
  simp

/-- The retractions are about what the current view shows, and leave nothing of it out. -/
theorem HostedRoom.Ready.retracts (h : room.Ready replica snapshot)
    (hwalks : Walks snapshot.sharedPitches pitchClasses pitches) :
    (∀ command ∈ retractions pitchClasses pitches snapshot.pieces,
      Retracts (room.view replica) command) ∧
    (∀ pitch ∈ (room.view replica).music.sharedPitches.pitchClasses,
      .removeDegree pitch ∈ retractions (T := T) pitchClasses pitches snapshot.pieces) ∧
    (∀ pitch ∈ (room.view replica).music.sharedPitches.pitches,
      .removePitch pitch ∈ retractions (T := T) pitchClasses pitches snapshot.pieces) ∧
    ∀ piece ∈ (room.view replica).pieces,
      .removePiece piece ∈ retractions (T := T) pitchClasses pitches snapshot.pieces := by
  have hshared := h.shown.sharedPitches rfl
  have hclasses : ∀ pitch, pitch ∈ pitchClasses ↔
      pitch ∈ (room.view replica).music.sharedPitches.pitchClasses := by
    intro pitch
    rw [← hshared,← hwalks.pitchClasses.2,List.mem_toFinset]
  have hpitches : ∀ pitch, pitch ∈ pitches ↔
      pitch ∈ (room.view replica).music.sharedPitches.pitches := by
    intro pitch
    rw [← hshared,← hwalks.pitches.2,List.mem_toFinset]
  refine ⟨fun command hcommand => ?_,fun pitch hpitch => ?_,fun pitch hpitch => ?_,
    fun piece hpiece => ?_⟩
  · rw [mem_retractions] at hcommand
    obtain ⟨pitch,hpitch,rfl⟩ | ⟨pitch,hpitch,rfl⟩ | ⟨piece,hpiece,rfl⟩ := hcommand
    · exact (hclasses pitch).mp hpitch
    · exact (hpitches pitch).mp hpitch
    · exact mem_pieces_iff.mpr ⟨piece,h.shown.pieces ▸ hpiece,rfl⟩
  · exact mem_retractions.mpr (.inl ⟨pitch,(hclasses pitch).mpr hpitch,rfl⟩)
  · exact mem_retractions.mpr (.inr (.inl ⟨pitch,(hpitches pitch).mpr hpitch,rfl⟩))
  · obtain ⟨shown,hshown,rfl⟩ := mem_pieces_iff.mp hpiece
    exact mem_retractions.mpr (.inr (.inr ⟨shown,h.shown.pieces ▸ hshown,rfl⟩))

theorem HostedRoom.Ready.pieces_eq_nil (h : room.Ready replica snapshot) :
    snapshot.pieces = [] ↔ (room.view replica).pieces = ∅ := by
  rw [h.shown.pieces]
  constructor
  · intro hnone
    refine Std.ExtTreeMap.eq_empty_iff_forall_not_mem.mpr fun piece hpiece => ?_
    obtain ⟨shown,hshown,-⟩ := mem_pieces_iff.mp hpiece
    rw [hnone] at hshown
    cases hshown
  · intro hnone
    simp [RoomView.pieceSnapshots,hnone]

def HostedRoom.clear (room : HostedRoom T Id) (pitchClasses : List TunedDegree)
    (pitches : List TunedPeriodicPitch) (pieces : List PieceSnapshot) (voiceSession : Nat) :
    HostedRoom T Id :=
  { room with
    window := room.window.clearNativeMusicalState pitchClasses pitches pieces voiceSession }

/-- The retractions are all accepted just if the window has room for them. If it has, then every run
in which they are processed undisturbed leaves the room without pitch classes and exact pitches, and
without pieces just if there were none or the member may remove them. -/
theorem clear_empties_room (hmusic : replica.ReadsMusic)
    (hlaws : replica.extension.CommandsKeepAuthority) (hready : room.Ready replica snapshot)
    (hwalks : Walks snapshot.sharedPitches pitchClasses pitches) (voiceSession : Nat) :
    (room.window.Accepts (retractions pitchClasses pitches snapshot.pieces) ↔
      room.window.HoldsRetractions snapshot) ∧
    (room.window.HoldsRetractions snapshot → ∀ inputs after,
      (room.clear pitchClasses pitches snapshot.pieces voiceSession).run replica inputs =
          some after →
        (room.clear pitchClasses pitches snapshot.pieces voiceSession).UndisturbedRun replica
          inputs → after.Processed →
        (after.view replica).music.sharedPitches = ⟨∅,∅⟩ ∧
          ((after.view replica).pieces = ∅ ↔
            snapshot.pieces = [] ∨ replica.extension.MayRemove room.extension)) := by
  have hfits := hwalks.fits_iff hready.slots
  refine ⟨(hready.idle.accepts_iff _).trans hfits,?_⟩
  intro hholds inputs after hrun hundisturbed hdone
  have htook := hready.idle.took_of_fits (hfits.mpr hholds)
  obtain ⟨queue,hqueue,hcommands,htokens⟩ :=
    htook.queued (show performanceTarget (.setVoicePreview voiceSession none) = none from rfl)
  obtain ⟨hretracts,hclasses,hpitches,hpieces⟩ := hready.retracts hwalks
  have hloop : CommandLoop replica room (queue.items.map QueuedCommand.command) []
      (room.clear pitchClasses pitches snapshot.pieces voiceSession) := by
    refine ⟨⟨hready.settled.clearing,fun hmay => hmay.cleared,fun _ => rfl⟩,hready.activeRoom,
      ?_,queue,hqueue,rfl,htokens⟩
    exact hready.tuning.trans hready.shown.tuning
  have hknown : ∀ command ∈ queue.items.map QueuedCommand.command,
      Retracts (room.view replica) command := by
    intro command hcommand
    obtain hsame | hsame := hcommands
    · exact hretracts command (hsame ▸ hcommand)
    · rw [hsame,List.mem_append,List.mem_singleton] at hcommand
      obtain hold | rfl := hcommand
      · exact hretracts command hold
      · rfl
  have hsub : ∀ command ∈ retractions pitchClasses pitches snapshot.pieces,
      command ∈ queue.items.map QueuedCommand.command := by
    intro command hcommand
    obtain hsame | hsame := hcommands
    · exact hsame ▸ hcommand
    · rw [hsame]
      exact List.mem_append_left _ hcommand
  obtain ⟨taken,hafter⟩ := hloop.run hmusic hlaws hknown hundisturbed hrun
  have hthrough := hafter.taken_all hdone
  constructor
  · exact hthrough.sharedPitches_empty hmusic hready.settled hdone
      (fun pitch hpitch => hsub _ (hclasses pitch hpitch))
      fun pitch hpitch => hsub _ (hpitches pitch hpitch)
  · rw [hthrough.pieces_empty_iff hmusic fun piece hpiece => hsub _ (hpieces piece hpiece),
      hready.pieces_eq_nil]

end Clear

section HeldMusic

/-- A reading of the music in a scale of 53 degrees. -/
def heldMusic (history : History Nat) : MusicView equalTunings where
  tuning := (53 : Nat)
  roundTable := (0 : Nat)
  sharedPitches :=
    { pitchClasses := (history.newestFirst.filterMap fun entry => match entry.payload with
        | .addDegree degree => some degree
        | _ => none).toFinset.filter fun degree =>
          Holds history (.addDegree degree) (.removeDegree degree) ∧ degree.degree < 53
      pitches := (history.newestFirst.filterMap fun entry => match entry.payload with
        | .addPitch pitch => some pitch
        | _ => none).toFinset.filter fun pitch =>
          Holds history (.addPitch pitch) (.removePitch pitch) ∧ pitch.degree < 53 }

def grantRevoked (history : Extension.DagSnapshot) (grant : EntryHash) : Bool :=
  history.entriesTopo.any fun entry => match entry.payload with
    | .capability (.revoke revoke) => revoke.target = grant
    | _ => false

def rootGrants : Extension.CapabilityEvaluator where
  authorize history roots request := request.presented.any fun id =>
    match Extension.grantAt history id with
    | none => false
    | some grant => id ∈ roots && grant.receiver = request.receiver &&
        grant.area.namespaceDigest = request.area.namespaceDigest &&
        grant.area.path.isPrefixOf request.area.path && !grantRevoked history id
  maxPresentedGrants := 8
  authorize_congr first second h := by
    have hgrant : Extension.grantAt first = Extension.grantAt second := by
      funext id
      simp only [Extension.grantAt,h.entry id]
    have hrevoked : grantRevoked first = grantRevoked second := by
      funext grant
      rw [Bool.eq_iff_iff]
      simp only [grantRevoked,List.any_eq_true,CausalDag.DagSnapshot.mem_entriesTopo,h _]
    rw [hgrant,hrevoked]

def ownersLane : ExtensionReplica where
  evaluator := rootGrants
  roots := [1]
  namespaceDigest := 5
  localActor := 7
  liveGrantsFor history := (history.entriesTopo.filterMap fun entry => match entry.payload with
    | .capability (.grant grant) =>
      if grant.receiver = 7 && !grantRevoked history entry.hash then some entry.hash else none
    | _ => none).take 8
  unauthorized := "presentation is not authorized"
  maxScaleDegrees := 128

def heldReplica : RoomReplica equalTunings Nat := ⟨heldMusic,ownersLane⟩

theorem allows_equalTunings {degrees : Nat} (hdegrees : degrees ≠ 0) {degree : TunedDegree} :
    equalTunings.Allows (some (degrees : Nat)) (equalTunings.validateDegree degree) ↔
      degree.degree < degrees := by
  simp [TuningLibrary.Allows,equalTunings,hdegrees]

theorem allowsPitch_equalTunings {degrees : Nat} (hdegrees : degrees ≠ 0)
    {pitch : TunedPeriodicPitch} :
    equalTunings.Allows (some (degrees : Nat)) (equalTunings.validatePitch pitch) ↔
      pitch.degree < degrees := by
  simp [TuningLibrary.Allows,equalTunings,hdegrees]

theorem readsMusic_held : heldReplica.ReadsMusic where
  pitchClasses history degree := by
    have hallows : equalTunings.Allows (some (53 : Nat)) (equalTunings.validateDegree degree) ↔
        degree.degree < 53 := allows_equalTunings (by decide)
    simp only [heldReplica,heldMusic,hallows,Finset.mem_filter,List.mem_toFinset,
      and_iff_right_iff_imp,and_imp]
    rintro ⟨entry,hentry,hadd,-⟩ -
    exact List.mem_filterMap.mpr ⟨entry,hentry,by rw [hadd]⟩
  pitches history pitch := by
    have hallows : equalTunings.Allows (some (53 : Nat)) (equalTunings.validatePitch pitch) ↔
        pitch.degree < 53 := allowsPitch_equalTunings (by decide)
    simp only [heldReplica,heldMusic,hallows,Finset.mem_filter,List.mem_toFinset,
      and_iff_right_iff_imp,and_imp]
    rintro ⟨entry,hentry,hadd,-⟩ -
    exact List.mem_filterMap.mpr ⟨entry,hentry,by rw [hadd]⟩
  tuning _ _ _ _ := rfl

section Grants

variable {before after : Extension.DagSnapshot} {entry : Extension.Entry}
  {envelope : Extension.CommandEnvelope} (hextend : before.extend entry = some after)
  (hcommand : entry.payload = .command envelope)
include hextend hcommand

theorem grantAt_command (id : EntryHash) :
    Extension.grantAt after id = Extension.grantAt before id := by
  obtain ⟨⟨-,hfresh⟩,hafter⟩ := CausalDag.DagSnapshot.extend_eq_some.mp hextend
  unfold Extension.grantAt CausalDag.DagSnapshot.entry
  rw [hafter]
  by_cases hid : entry.hash = id
  · have hnone : before.newestFirst.find? (fun other => decide (other.hash = id)) = none := by
      refine List.find?_eq_none.mpr fun other hother hsame => hfresh ?_
      exact List.mem_map.mpr ⟨other,hother,(of_decide_eq_true hsame).trans hid.symm⟩
    rw [List.find?_cons_of_pos (by simpa using hid),hnone]
    obtain ⟨hash,prevs,payload⟩ := entry
    simp only at hcommand
    rw [hcommand]
  · rw [List.find?_cons_of_neg (by simpa using hid)]

omit hcommand in
theorem entriesTopo_extend : after.entriesTopo = before.entriesTopo ++ [entry] := by
  obtain ⟨-,hafter⟩ := CausalDag.DagSnapshot.extend_eq_some.mp hextend
  simp [CausalDag.DagSnapshot.entriesTopo,hafter]

theorem grantRevoked_command (grant : EntryHash) :
    grantRevoked after grant = grantRevoked before grant := by
  simp [grantRevoked,entriesTopo_extend hextend,hcommand]

theorem authorize_command (request : Extension.AuthorizationRequest)
    (atPosition fromPosition : Position) :
    rootGrants.authorize after ownersLane.roots request =
      rootGrants.authorize before ownersLane.roots
        { request with atPosition := atPosition, fromPosition := fromPosition } := by
  simp only [rootGrants,grantAt_command hextend hcommand,grantRevoked_command hextend hcommand]

end Grants

theorem commandsKeepAuthority_owners : ownersLane.CommandsKeepAuthority where
  liveGrants before after entry envelope hextend hcommand := by
    simp [ownersLane,entriesTopo_extend hextend,hcommand,
      grantRevoked_command hextend hcommand]
  frontier _ _ _ _ hextend hcommand _ _ _ := authorize_command hextend hcommand _ _ _
  authored _ _ _ _ hextend hcommand _ _ _ _ := authorize_command hextend hcommand _ _ _
  earlier _ _ _ _ hextend hcommand _ _ _ _ _ := authorize_command hextend hcommand _ _ _

def openedWindow : CommandWindow equalTunings where
  activeRoom := true
  performanceGeneration := 1
  performanceSequence := 0
  feedback := { Session.PerformanceFeedback.empty feedbackCapacity with generation := some 1 }
  commands := some (.empty (windowCommandCapacity+1))

/-- A room over these histories, as its host shows it. -/
def heldRoom (music : History Nat) (extension : Extension.DagSnapshot) :
    HostedRoom equalTunings Nat where
  window := openedWindow
  host :=
    { snapshot := (BrowserHost.applyRoomView .empty (heldReplica.view music extension)).snapshot
      activeRoom := true }
  music := .opened music
  extension := extension

theorem idle_openedWindow : openedWindow.Idle (windowCommandCapacity+1) where
  activeRoom := rfl
  generation := by decide
  bounded := by decide
  installed := rfl
  highWater := le_rfl
  closed := rfl
  free slot hslot := List.eq_of_mem_replicate hslot
  queue := rfl

theorem shown_applyRoomView (snapshot : AppSnapshot T) (view : RoomView T) :
    view.Shown true (BrowserHost.applyRoomView snapshot view).snapshot := by
  rw [BrowserHost.applyRoomView,applyRoomViewInner_snapshot]
  exact ⟨rfl,rfl,fun _ => rfl,rfl,rfl,rfl⟩

theorem settled_opened (history : History Nat) : (Placement.opened history).Settled where
  sound := Placement.sound_opened history
  shown := rfl
  events := by simp [Placement.opened]
  edits := by simp [Placement.opened]

theorem ready_heldRoom {music : History Nat} {extension : Extension.DagSnapshot}
    (hunlocked : (ownersLane.view extension).piecesLocked = false) :
    (heldRoom music extension).Ready heldReplica (heldRoom music extension).host.snapshot where
  idle := idle_openedWindow
  slots := rfl
  activeRoom := rfl
  shown := shown_applyRoomView _ _
  tuning := rfl
  unlocked := (shown_applyRoomView _ _).piecesLocked.trans hunlocked
  settled := settled_opened music

def soundingRoom : HostedRoom equalTunings Nat :=
  heldRoom ⟨[⟨1,{0},.addPitch ⟨3,7,1⟩⟩,⟨0,∅,.addDegree ⟨3,4⟩⟩],by decide⟩ Extension.onlyPut

def soundingSnapshot : AppSnapshot equalTunings := soundingRoom.host.snapshot

def soundingInputs : List (RoomInput Nat) :=
  [.next ⟨⟨1,0,1⟩,false,3,false⟩,.next ⟨⟨1,0,1⟩,false,3,false⟩,.next ⟨⟨1,0,1⟩,false,3,false⟩,
    .next ⟨⟨1,0,1⟩,false,3,false⟩,.music (.commit 0 2),.music (.commit 1 3)]

theorem pieces_onlyPut :
    (ownersLane.view Extension.onlyPut).pieces = Std.ExtTreeMap.insert ∅ 2 ⟨7,"sun",⟨3,4,0⟩⟩ := rfl

theorem pieces_soundingSnapshot : soundingSnapshot.pieces = [⟨2,7,"sun",⟨3,4,0⟩⟩] := by
  have hpieces : (soundingRoom.view heldReplica).pieces =
      Std.ExtTreeMap.insert ∅ 2 ⟨7,"sun",⟨3,4,0⟩⟩ := by
    refine Std.ExtTreeMap.ext_getElem? fun put => ?_
    show (((ownersLane.view Extension.onlyPut).pieces.filter fun _ piece =>
      (equalTunings.validatePitch piece.pitch (53 : Nat)).isOk))[put]? = _
    rw [pieces_onlyPut,Std.ExtTreeMap.getElem?_filter',Std.ExtTreeMap.getElem?_insert]
    split <;> rfl
  have hsnapshot : soundingSnapshot.pieces = (soundingRoom.view heldReplica).pieceSnapshots :=
    (shown_applyRoomView _ _).pieces
  rw [hsnapshot,RoomView.pieceSnapshots,hpieces]
  rfl

theorem clear_empties_room_sounding :
    ∃ after, (soundingRoom.clear [⟨3,4⟩] [⟨3,7,1⟩] soundingSnapshot.pieces 1).run heldReplica
        soundingInputs = some after ∧
      (after.view heldReplica).music.sharedPitches = ⟨∅,∅⟩ ∧
      (after.view heldReplica).pieces = ∅ := by
  have hready : soundingRoom.Ready heldReplica soundingSnapshot := ready_heldRoom (by decide)
  have hwalks : Walks soundingSnapshot.sharedPitches [⟨3,4⟩] [⟨3,7,1⟩] :=
    ⟨⟨by decide,by decide⟩,⟨by decide,by decide⟩⟩
  obtain ⟨-,hempties⟩ := clear_empties_room readsMusic_held commandsKeepAuthority_owners hready
    hwalks 1
  have hholds : soundingRoom.window.HoldsRetractions soundingSnapshot :=
    ⟨by decide,by rw [pieces_soundingSnapshot]; decide,by decide⟩
  have hmay : ownersLane.MayRemove Extension.onlyPut :=
    ⟨by decide,by decide,by decide,by decide,by decide⟩
  have hruns := hempties hholds soundingInputs
  rw [pieces_soundingSnapshot] at hruns ⊢
  obtain ⟨hpitches,hpieces⟩ := hruns _ rfl (by decide) ⟨by rintro queue ⟨⟩; rfl,by decide⟩
  exact ⟨_,rfl,hpitches,hpieces.mpr (.inr hmay)⟩

def crowdedDegrees : List TunedDegree :=
  (List.range (feedbackCapacity+1)).map fun index => ⟨3,index⟩

def crowdedHistory : History Nat :=
  ⟨crowdedDegrees.map fun degree => ⟨degree.degree,∅,.addDegree degree⟩,by decide⟩

def crowdedRoom : HostedRoom equalTunings Nat :=
  heldRoom crowdedHistory ⟨[Extension.topGrant],by decide⟩

theorem crowded_holds {degree : TunedDegree} :
    Holds crowdedHistory (.addDegree degree) (.removeDegree degree) ↔ degree ∈ crowdedDegrees := by
  constructor
  · rintro ⟨entry,hentry,hadd,-⟩
    obtain ⟨added,hadded,rfl⟩ := List.mem_map.mp hentry
    exact Session.MusicOp.addDegree.inj hadd ▸ hadded
  · intro hdegree
    refine ⟨_,List.mem_map.mpr ⟨degree,hdegree,rfl⟩,rfl,?_⟩
    rintro ⟨entry,hentry,hremove,-⟩
    obtain ⟨added,-,rfl⟩ := List.mem_map.mp hentry
    cases hremove

theorem crowded_walks : Walks crowdedRoom.host.snapshot.sharedPitches crowdedDegrees [] := by
  have hshared : crowdedRoom.host.snapshot.sharedPitches =
      (heldMusic crowdedHistory).sharedPitches := (shown_applyRoomView _ _).sharedPitches rfl
  refine ⟨⟨by decide,?_⟩,List.nodup_nil,by decide⟩
  ext degree
  rw [hshared,List.mem_toFinset]
  refine Iff.trans ?_ (readsMusic_held.pitchClasses crowdedHistory degree).symm
  rw [crowded_holds]
  refine ⟨fun hdegree => ⟨hdegree,?_⟩,fun h => h.1⟩
  obtain ⟨index,hindex,rfl⟩ := List.mem_map.mp hdegree
  have hbound := List.mem_range.mp hindex
  have hallows : equalTunings.Allows (some (53 : Nat)) (equalTunings.validateDegree ⟨3,index⟩) :=
    (allows_equalTunings (by decide)).mpr (Nat.lt_of_lt_of_le hbound (by decide))
  exact hallows

theorem crowded_pieces : crowdedRoom.host.snapshot.pieces = [] := by
  have hpieces : (crowdedRoom.view heldReplica).pieces = ∅ := by
    refine Std.ExtTreeMap.ext_getElem? fun put => ?_
    show (Std.ExtTreeMap.filter _ ∅)[put]? = _
    rw [Std.ExtTreeMap.getElem?_filter',Std.ExtTreeMap.getElem?_empty]
    rfl
  have hsnapshot : crowdedRoom.host.snapshot.pieces =
      (crowdedRoom.view heldReplica).pieceSnapshots := (shown_applyRoomView _ _).pieces
  rw [hsnapshot,RoomView.pieceSnapshots,hpieces]
  rfl

set_option maxRecDepth 4000 in
theorem crowded_errors : (openedWindow.dispatchAll (retractions crowdedDegrees [] [])).errors =
    ["performance feedback capacity is full"] := by
  decide

/-- Thirty-three degrees, and the last of the retractions finds no slot. -/
theorem clear_refuses_last_degree :
    crowdedRoom.Ready heldReplica crowdedRoom.host.snapshot ∧
      Walks crowdedRoom.host.snapshot.sharedPitches crowdedDegrees [] ∧
      (crowdedRoom.window.dispatchAll (retractions crowdedDegrees []
        crowdedRoom.host.snapshot.pieces)).errors = ["performance feedback capacity is full"] ∧
      ¬ crowdedRoom.window.Accepts (retractions crowdedDegrees []
        crowdedRoom.host.snapshot.pieces) := by
  have herrors : (crowdedRoom.window.dispatchAll (retractions crowdedDegrees []
      crowdedRoom.host.snapshot.pieces)).errors = ["performance feedback capacity is full"] := by
    rw [crowded_pieces]
    exact crowded_errors
  refine ⟨ready_heldRoom (by decide),crowded_walks,herrors,fun haccepts => ?_⟩
  have hsilent := herrors.symm.trans haccepts.silent
  cases hsilent

end HeldMusic

end WalkieSongie.Client
