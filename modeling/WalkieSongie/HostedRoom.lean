import WalkieSongie.CommandDispatch
import WalkieSongie.EditClearing
import WalkieSongie.PieceClearing
import WalkieSongie.RoomLaunches
set_option autoImplicit false

/-!
A room of the browser host while its command loop empties the queue: the way of each command into
its lane, and what the lanes have come to when removals are through.
-/

namespace WalkieSongie.Client
open CausalDag
open EditRoutes (Element History Placement)
open Extension (ExtensionReplica PieceId)
open Session (SessionDot)

variable {T : TuningLibrary} {Id : Type} [DecidableEq Id]

section Rooms

def sessionPitchEdit : MusicOp T → Option Session.MusicOp
  | .addDegree degree => some (.addDegree degree)
  | .removeDegree degree => some (.removeDegree degree)
  | .addPitch pitch => some (.addPitch pitch)
  | .removePitch pitch => some (.removePitch pitch)
  | .setTuning _ | .setRoundTable _ => none

/-- The two lanes of a room, with the music crate's reading of its history. -/
structure RoomReplica (T : TuningLibrary) (Id : Type) where
  materializeMusic : History Id → MusicView T
  extension : ExtensionReplica

/-- The pieces in view are those that the active tuning allows. -/
def RoomReplica.view (replica : RoomReplica T Id) (music : History Id)
    (extension : Extension.DagSnapshot) : RoomView T :=
  let music := replica.materializeMusic music
  let extension := replica.extension.view extension
  { music
    pieces := match T.validate music.tuning with
      | .ok active => extension.pieces.filter fun _ piece =>
          (T.validatePitch piece.pitch active).isOk
      | .error _ => ∅
    piecesLocked := extension.piecesLocked
    availableEmojis := extension.availableEmojis }

/-- A room of the browser host: the window, and what the worker holds of the two lanes. -/
structure HostedRoom (T : TuningLibrary) (Id : Type) where
  window : CommandWindow T
  host : BrowserHost T
  music : Placement Id
  extension : Extension.DagSnapshot

/-- The intent of a command that failed is rejected, and its caller is told. -/
def CommandWindow.refuse (window : CommandWindow T) (queued : QueuedCommand T) (error : AppError) :
    CommandWindow T :=
  let resolved := match queued.intentToken with
    | none => window
    | some token =>
      if error.code = AppErrorCode.internal then
        window.tell "performance_feedback_reset" (.reset token.generation)
      else window.tell "performance_feedback" (.resolved token .rejected)
  resolved.onError (error.message ++ error.detail.elim "" fun detail => " (" ++ detail ++ ")")

/-- What the environment settles of a step: the session's next dot, whether it is saturated and
whether its task refuses the edit, and the hash of what is committed. -/
structure Circumstances where
  dot : SessionDot
  isSaturated : Bool
  hash : EntryHash
  isRefused : Bool := false

inductive RoomInput (Id : Type) where
  /-- The command loop takes its next command. -/
  | next (given : Circumstances)
  /-- Something else befalls the music. -/
  | music (input : EditRoutes.Input Id)
  | applyRoomView (applySharedPitches : Bool)
  | applySessionPitchView (shared : SharedPitchSet)

namespace HostedRoom

variable (replica : RoomReplica T Id) (room : HostedRoom T Id)

def view : RoomView T := replica.view room.music.history room.extension

/-- The work that an accepted command sets going in the room. A change of room, of tuning or of
round table is not followed here. -/
def perform (given : Circumstances) : Work T → Option (HostedRoom T Id)
  | .command (.music command) =>
    (sessionPitchEdit command).bind fun command =>
      -- a refused edit leaves no event behind, only its intent is rejected later
      if room.music.session.isSome && given.isRefused then some room
      else
        (room.music.localEdit command given.dot given.isSaturated).map fun music =>
          { room with music := music }
  | .command (.extension command) =>
    match replica.extension.commit command given.hash room.extension with
    | .ok entry => (room.extension.extend entry).map fun extension =>
        { room with extension := extension }
    | .error error =>
      let told := room.window.onError ("durable Room-v5 storage failed (" ++ error ++ ")")
      some { room with window := told }
  | .presence _ _ => some room
  | .enterRoom _ | .joinTicket _ | .leaveRoom => none

def carryOut (given : Circumstances) (queued : QueuedCommand T) :
    Outcome T → Option (HostedRoom T Id)
  | .accepted work => work.foldlM (fun room work => room.perform replica given work) room
  | .refused error => some { room with window := room.window.refuse queued error }
  | .panicked => none

def next (given : Circumstances) : Option (HostedRoom T Id) :=
  (room.window.commands.bind BoundedQueue.pop).bind fun popped =>
    { room with window := { room.window with commands := some popped.2 } }.carryOut replica given
      popped.1 (room.host.dispatch popped.1.intentToken popped.1.command)

/-- One step; there is none for an input that does not fit the state. -/
def step : RoomInput Id → Option (HostedRoom T Id)
  | .next given => room.next replica given
  | .music input =>
    if input.isEdit = true then none
    else (room.music.step input).map fun music => { room with music := music }
  | .applyRoomView applySharedPitches =>
    let told := BrowserHost.applyRoomViewInner room.host.snapshot (room.view replica)
      applySharedPitches
    some { room with host := { room.host with snapshot := told.snapshot } }
  | .applySessionPitchView shared =>
    let told := BrowserHost.applySessionPitchView room.host.snapshot shared
    some { room with host := { room.host with snapshot := told.snapshot } }

def run : HostedRoom T Id → List (RoomInput Id) → Option (HostedRoom T Id)
  | room, [] => some room
  | room, input :: rest => (room.step replica input).bind fun after => after.run rest

/-- The queue is empty, and the user's edits are durable. -/
structure Processed : Prop where
  queue : ∀ queue ∈ room.window.commands, queue.items = []
  durable : ∀ edit ∈ room.music.edits, room.music.durable edit.route ≠ none

end HostedRoom

end Rooms

section Conditions

/-- What the music crate says of its reading: an element is in the set while it is held and the
active tuning allows it, and edits of pitches leave the tuning alone. -/
structure RoomReplica.ReadsMusic (replica : RoomReplica T Id) : Prop where
  pitchClasses : ∀ history degree,
    degree ∈ (replica.materializeMusic history).sharedPitches.pitchClasses ↔
      Holds history (.addDegree degree) (.removeDegree degree) ∧
        T.Allows (some (replica.materializeMusic history).tuning) (T.validateDegree degree)
  pitches : ∀ history pitch,
    pitch ∈ (replica.materializeMusic history).sharedPitches.pitches ↔
      Holds history (.addPitch pitch) (.removePitch pitch) ∧
        T.Allows (some (replica.materializeMusic history).tuning) (T.validatePitch pitch)
  tuning : ∀ before after : History Id, before.Grows after →
    (∀ entry ∈ after.newestFirst,
      entry ∈ before.newestFirst ∨ Session.isPitchEdit entry.payload = true) →
    (replica.materializeMusic after).tuning = (replica.materializeMusic before).tuning

def removedElement : ClientCommand T → Option Element
  | .removeDegree pitch => some (.degree pitch)
  | .removePitch pitch => some (.pitch pitch)
  | _ => none

def removedPiece : ClientCommand T → Option PieceId
  | .removePiece piece => some piece
  | _ => none

namespace HostedRoom

variable (replica : RoomReplica T Id) (room : HostedRoom T Id)

/-- Others only remove, and a removal that goes to a session is not refused and reaches what is
shown. -/
def Undisturbed : RoomInput Id → Prop
  | .next given => ∀ live ∈ room.music.session, given.isRefused = false ∧
      (given.isSaturated = false → ∀ queue ∈ room.window.commands,
        ∀ queued ∈ queue.items.head?, ∀ element ∈ removedElement queued.command,
          room.music.Reaches live element)
  | .music input => room.music.Removing input
  | .applyRoomView _ | .applySessionPitchView _ => True

instance (room : HostedRoom T Id) : (input : RoomInput Id) → Decidable (room.Undisturbed input)
  | .next given =>
      inferInstanceAs (Decidable (∀ live ∈ room.music.session, given.isRefused = false ∧ _))
  | .music input => inferInstanceAs (Decidable (room.music.Removing input))
  | .applyRoomView _ | .applySessionPitchView _ => isTrue trivial

def UndisturbedRun : HostedRoom T Id → List (RoomInput Id) → Prop
  | _, [] => True
  | room, input :: rest =>
      room.Undisturbed input ∧ ∀ after ∈ room.step replica input, after.UndisturbedRun rest

instance decidableUndisturbedRun : (room : HostedRoom T Id) → (inputs : List (RoomInput Id)) →
    Decidable (room.UndisturbedRun replica inputs)
  | _, [] => isTrue trivial
  | room, input :: rest =>
      have (after : HostedRoom T Id) : Decidable (after.UndisturbedRun replica rest) :=
        decidableUndisturbedRun after rest
      inferInstanceAs (Decidable (room.Undisturbed input ∧
        ∀ after ∈ room.step replica input, after.UndisturbedRun replica rest))

end HostedRoom

end Conditions

section Dispatch

variable {host : BrowserHost T} {intentToken : Option Session.PerformanceIntentToken}

theorem BrowserHost.submitPitchEdit_eq (hroom : host.activeRoom = true)
    (htoken : intentToken.isSome = true) (command : MusicOp T) :
    host.submitPitchEdit command intentToken = .accepted [.command (.music command)] := by
  obtain ⟨token,rfl⟩ := Option.isSome_iff_exists.mp htoken
  simp [submitPitchEdit,submit,hroom,requireIntentToken,Outcome.after]

theorem BrowserHost.dispatch_removeDegree (hroom : host.activeRoom = true)
    (htoken : intentToken.isSome = true) {pitch : TunedDegree}
    (hallowed : T.Allows host.snapshot.tuning (T.validateDegree pitch)) :
    host.dispatch intentToken (.removeDegree pitch) =
      .accepted [.command (.music (.removeDegree pitch))] := by
  rw [dispatch,submitPitchEdit_eq hroom htoken,validateDegree_eq_ok.mpr hallowed]
  rfl

theorem BrowserHost.dispatch_removePitch (hroom : host.activeRoom = true)
    (htoken : intentToken.isSome = true) {pitch : TunedPeriodicPitch}
    (hallowed : T.Allows host.snapshot.tuning (T.validatePitch pitch)) :
    host.dispatch intentToken (.removePitch pitch) =
      .accepted [.command (.music (.removePitch pitch))] := by
  rw [dispatch,submitPitchEdit_eq hroom htoken,validatePitch_eq_ok.mpr hallowed]
  rfl

theorem BrowserHost.dispatch_removePiece (hroom : host.activeRoom = true) (piece : PieceId) :
    host.dispatch intentToken (.removePiece piece) =
      .accepted [.command (.extension (.removePiece piece))] := by
  simp [dispatch,submit,hroom]

theorem CommandWindow.tell_commands (window : CommandWindow T) (code : String)
    (event : Session.PerformanceFeedbackEvent) :
    (window.tell code event).commands = window.commands := by
  unfold tell
  simp only
  split <;> rfl

theorem CommandWindow.refuse_commands (window : CommandWindow T) (queued : QueuedCommand T)
    (error : AppError) : (window.refuse queued error).commands = window.commands := by
  unfold refuse
  simp only [onError]
  split
  · rfl
  · split <;> exact tell_commands _ _ _

end Dispatch

section Processing

variable {replica : RoomReplica T Id} {start room after : HostedRoom T Id}
  {taken : List (ClientCommand T)} {given : Circumstances}

/-- What the lanes have come to when these commands are through: pieces go if the member may remove
them, and else the lane stays as it was. -/
structure Through (replica : RoomReplica T Id) (start : HostedRoom T Id)
    (taken : List (ClientCommand T)) (room : HostedRoom T Id) : Prop where
  music : start.music.Clearing
    (taken.filterMap fun command => (removedElement command).map Element.remove) room.music
  cleared : replica.extension.MayRemove start.extension →
    replica.extension.Cleared start.extension (taken.filterMap removedPiece) room.extension
  kept : ¬ replica.extension.MayRemove start.extension → room.extension = start.extension

omit [DecidableEq Id] in
theorem RoomReplica.mem_extension_pieces {music : History Id} {extension : Extension.DagSnapshot}
    {piece : PieceId} (h : piece ∈ (replica.view music extension).pieces) :
    piece ∈ (replica.extension.view extension).pieces := by
  simp only [RoomReplica.view] at h
  split at h
  · exact Std.ExtTreeMap.mem_of_mem_filter h
  · simp at h

omit [DecidableEq Id] in
theorem carryOut_single (replica : RoomReplica T Id) (room : HostedRoom T Id)
    (given : Circumstances) (queued : QueuedCommand T) (work : Work T) :
    room.carryOut replica given queued (.accepted [work]) = room.perform replica given work := by
  simp [HostedRoom.carryOut]

/-- A removal of an element goes to the session task. -/
theorem Through.perform_music (h : Through replica start taken room) {command : MusicOp T}
    {retraction : ClientCommand T} {element : Element}
    (hcommand : sessionPitchEdit command = some element.remove)
    (helement : removedElement retraction = some element) (hpiece : removedPiece retraction = none)
    (hreaches : ∀ live ∈ room.music.session, given.isRefused = false ∧
      (given.isSaturated = false → room.music.Reaches live element))
    (hstep : room.perform replica given (.command (.music command)) = some after) :
    Through replica start (taken ++ [retraction]) after ∧ after.host = room.host ∧
      after.window.commands = room.window.commands := by
  have haccepted : (room.music.session.isSome && given.isRefused) = false := by
    cases hsession : room.music.session with
    | none => rfl
    | some live => exact (hreaches live hsession).1
  simp only [HostedRoom.perform,hcommand,Option.bind_some,haccepted,Bool.false_eq_true,if_false,
    Option.map_eq_some_iff] at hstep
  obtain ⟨music,hedit,rfl⟩ := hstep
  refine ⟨⟨?_,?_,h.kept⟩,rfl,rfl⟩
  · have hremoving : room.music.Removing
        (.localEdit element.remove given.dot given.isSaturated) := by
      refine ⟨⟨element,rfl⟩,fun hroom live hlive other hother => ?_⟩
      obtain rfl : element = other := by
        have hself : EditRoutes.removes element.remove = some element :=
          EditRoutes.removes_eq_some.mpr rfl
        exact Option.some.inj (hself.symm.trans hother)
      exact (hreaches live hlive).2 hroom
    simpa [helement] using h.music.localEdit hremoving hedit
  · simpa [hpiece] using h.cleared

/-- A removal of a piece that was in view goes into the extension lane, or is refused there. -/
theorem Through.perform_piece (h : Through replica start taken room)
    (hlaws : replica.extension.CommandsKeepAuthority) {piece : PieceId}
    (hpiece : piece ∈ (replica.extension.view start.extension).pieces)
    (hstep : room.perform replica given (.command (.extension (.removePiece piece))) = some after) :
    Through replica start (taken ++ [.removePiece piece]) after ∧ after.host = room.host ∧
      after.window.commands = room.window.commands := by
  have hmusic : start.music.Clearing
      ((taken ++ [ClientCommand.removePiece piece]).filterMap fun command =>
        (removedElement command).map Element.remove) room.music := by
    simpa [removedElement] using h.music
  by_cases hmay : replica.extension.MayRemove start.extension
  · have hcommit : replica.extension.commit (.removePiece piece) given.hash room.extension =
        .ok (replica.extension.authored (.removePiece piece) given.hash room.extension) :=
      (h.cleared hmay).commit_ok hpiece
    simp only [HostedRoom.perform,hcommit,Option.map_eq_some_iff] at hstep
    obtain ⟨extension,hextended,rfl⟩ := hstep
    refine ⟨⟨hmusic,fun _ => ?_,fun hnot => absurd hmay hnot⟩,rfl,rfl⟩
    simpa [removedPiece] using (h.cleared hmay).step hlaws hcommit hextended
  · have hsame := h.kept hmay
    cases hcommit : replica.extension.commit (.removePiece piece) given.hash room.extension with
    | ok entry =>
      obtain ⟨-,hallowed,-⟩ := ExtensionReplica.commit_removePiece.mp hcommit
      exact absurd (hsame ▸ hallowed) hmay
    | error error =>
      simp only [HostedRoom.perform,hcommit,Option.some.injEq] at hstep
      subst hstep
      exact ⟨⟨hmusic,fun hallowed => absurd hallowed hmay,fun _ => hsame⟩,rfl,rfl⟩

/-- The command takes away what the view shows, or ends the voice preview. -/
def Retracts (view : RoomView T) : ClientCommand T → Prop
  | .removeDegree pitch => pitch ∈ view.music.sharedPitches.pitchClasses
  | .removePitch pitch => pitch ∈ view.music.sharedPitches.pitches
  | .removePiece piece => piece ∈ view.pieces
  | .setVoicePreview _ pitch => pitch = none
  | _ => False

/-- The command loop on its way through the queue, with what it has taken out so far. -/
structure CommandLoop (replica : RoomReplica T Id) (start : HostedRoom T Id)
    (commands taken : List (ClientCommand T)) (room : HostedRoom T Id) : Prop where
  through : Through replica start taken room
  activeRoom : room.host.activeRoom = true
  tuning : room.host.snapshot.tuning = some (start.view replica).music.tuning
  queue : ∃ queue, room.window.commands = some queue ∧
    taken ++ queue.items.map QueuedCommand.command = commands ∧
      ∀ queued ∈ queue.items,
        queued.intentToken.isSome = (performanceTarget queued.command).isSome

theorem Through.carryOut (h : Through replica start taken room)
    (hmusic : replica.ReadsMusic) (hlaws : replica.extension.CommandsKeepAuthority)
    {host : BrowserHost T} (hroom : host.activeRoom = true)
    (htuning : host.snapshot.tuning = some (start.view replica).music.tuning)
    {queued : QueuedCommand T}
    (htoken : queued.intentToken.isSome = (performanceTarget queued.command).isSome)
    (hretracts : Retracts (start.view replica) queued.command)
    (hreaches : ∀ live ∈ room.music.session, given.isRefused = false ∧
      (given.isSaturated = false → ∀ element ∈ removedElement queued.command,
        room.music.Reaches live element))
    (hstep : room.carryOut replica given queued
      (host.dispatch queued.intentToken queued.command) = some after) :
    Through replica start (taken ++ [queued.command]) after ∧ after.host = room.host ∧
      after.window.commands = room.window.commands := by
  obtain ⟨command,intentToken⟩ := queued
  simp only at htoken hretracts hreaches hstep ⊢
  cases command with
  | removeDegree pitch =>
    have hallowed := ((hmusic.pitchClasses _ pitch).mp hretracts).2
    rw [host.dispatch_removeDegree hroom htoken (htuning ▸ hallowed),carryOut_single] at hstep
    have helement : removedElement (T := T) (.removeDegree pitch) = some (.degree pitch) := rfl
    exact h.perform_music rfl helement rfl
      (fun live hlive => ⟨(hreaches live hlive).1,
        fun hfree => (hreaches live hlive).2 hfree _ helement⟩) hstep
  | removePitch pitch =>
    have hallowed := ((hmusic.pitches _ pitch).mp hretracts).2
    rw [host.dispatch_removePitch hroom htoken (htuning ▸ hallowed),carryOut_single] at hstep
    have helement : removedElement (T := T) (.removePitch pitch) = some (.pitch pitch) := rfl
    exact h.perform_music rfl helement rfl
      (fun live hlive => ⟨(hreaches live hlive).1,
        fun hfree => (hreaches live hlive).2 hfree _ helement⟩) hstep
  | removePiece piece =>
    rw [host.dispatch_removePiece hroom,carryOut_single] at hstep
    exact h.perform_piece hlaws (RoomReplica.mem_extension_pieces hretracts) hstep
  | setVoicePreview session pitch =>
    obtain rfl : pitch = none := hretracts
    have hthrough : Through replica start (taken ++ [.setVoicePreview session none]) room := by
      have helement : removedElement (T := T) (.setVoicePreview session none) = none := rfl
      have hpiece : removedPiece (T := T) (.setVoicePreview session none) = none := rfl
      refine ⟨?_,?_,h.kept⟩
      · simpa [helement] using h.music
      · simpa [hpiece] using h.cleared
    by_cases hsession : session = 0
    · simp only [BrowserHost.dispatch,hsession,if_true,HostedRoom.carryOut,
        Option.some.injEq] at hstep
      subst hstep
      exact ⟨⟨hthrough.music,hthrough.cleared,hthrough.kept⟩,rfl,
        CommandWindow.refuse_commands _ _ _⟩
    · simp only [BrowserHost.dispatch,hsession,if_false,BrowserHost.submitPresence,hroom,
        if_true,carryOut_single,HostedRoom.perform,Option.some.injEq] at hstep
      subst hstep
      exact ⟨hthrough,rfl,rfl⟩
  | enterRoom | joinTicket | leaveRoom | setTuning | addDegree | setRoundTable | addPitch
  | putPiece | movePiece | setRoomConfig | listMidiPorts | selectMidiInput | selectMidiOutput
  | panicMidi => exact hretracts.elim

theorem Through.tuning (h : Through replica start taken room) (hmusic : replica.ReadsMusic) :
    (room.view replica).music.tuning = (start.view replica).music.tuning := by
  refine hmusic.tuning _ _ h.music.continues.history fun entry hentry => ?_
  obtain hold | hremoval := h.music.only entry hentry
  · exact .inl hold
  · exact .inr hremoval.isPitchEdit

namespace CommandLoop

variable {commands : List (ClientCommand T)}

theorem step (h : CommandLoop replica start commands taken room) (hmusic : replica.ReadsMusic)
    (hlaws : replica.extension.CommandsKeepAuthority)
    (hretracts : ∀ command ∈ commands, Retracts (start.view replica) command)
    {input : RoomInput Id} (hundisturbed : room.Undisturbed input)
    (hstep : room.step replica input = some after) :
    ∃ taken, CommandLoop replica start commands taken after := by
  obtain ⟨queue,hqueue,hcommands,htokens⟩ := h.queue
  cases input with
  | next given =>
    simp only [HostedRoom.step,HostedRoom.next,hqueue,Option.bind_some] at hstep
    obtain ⟨⟨queued,rest⟩,hpop,hcarried⟩ := Option.bind_eq_some_iff.mp hstep
    obtain ⟨hitems,-⟩ := BoundedQueue.pop_eq_some hpop
    have hmem : queued.command ∈ commands := by
      rw [← hcommands,hitems]
      simp
    have htoken := htokens queued (hitems ▸ List.mem_cons_self)
    have hpopped : Through replica start taken
        { room with window := { room.window with commands := some rest } } :=
      ⟨h.through.music,h.through.cleared,h.through.kept⟩
    obtain ⟨hthrough,hhost,hafter⟩ := hpopped.carryOut hmusic hlaws h.activeRoom h.tuning htoken
      (hretracts _ hmem) (fun live hlive => ⟨(hundisturbed live hlive).1,
        fun hfree => (hundisturbed live hlive).2 hfree queue hqueue queued (by simp [hitems])⟩)
      hcarried
    refine ⟨taken ++ [queued.command],hthrough,?_,?_,rest,hafter,?_,?_⟩
    · rw [hhost]
      exact h.activeRoom
    · rw [hhost]
      exact h.tuning
    · rw [← hcommands,hitems]
      simp
    · exact fun other hother => htokens other (hitems ▸ List.mem_cons_of_mem _ hother)
  | music input =>
    simp only [HostedRoom.step,Option.ite_none_left_eq_some,Option.map_eq_some_iff] at hstep
    obtain ⟨hother,music,hmoved,rfl⟩ := hstep
    have hcleared := h.through.music.step (Bool.not_eq_true _ ▸ hother) hundisturbed hmoved
    exact ⟨taken,⟨hcleared,h.through.cleared,h.through.kept⟩,h.activeRoom,h.tuning,queue,hqueue,
      hcommands,htokens⟩
  | applyRoomView applySharedPitches =>
    obtain rfl := Option.some.inj hstep
    refine ⟨taken,⟨h.through.music,h.through.cleared,h.through.kept⟩,h.activeRoom,?_,queue,hqueue,
      hcommands,htokens⟩
    simp only [applyRoomViewInner_snapshot,h.through.tuning hmusic]
  | applySessionPitchView shared =>
    obtain rfl := Option.some.inj hstep
    refine ⟨taken,⟨h.through.music,h.through.cleared,h.through.kept⟩,h.activeRoom,?_,queue,hqueue,
      hcommands,htokens⟩
    rw [← h.tuning]
    simp [BrowserHost.applySessionPitchView,Told.sharedPitches_snapshot]

theorem run (h : CommandLoop replica start commands taken room) (hmusic : replica.ReadsMusic)
    (hlaws : replica.extension.CommandsKeepAuthority)
    (hretracts : ∀ command ∈ commands, Retracts (start.view replica) command)
    {inputs : List (RoomInput Id)} (hundisturbed : room.UndisturbedRun replica inputs)
    (hrun : room.run replica inputs = some after) :
    ∃ taken, CommandLoop replica start commands taken after := by
  induction inputs generalizing room taken with
  | nil =>
    cases hrun
    exact ⟨taken,h⟩
  | cons input rest ih =>
    obtain ⟨next,hstep,hrest⟩ := Option.bind_eq_some_iff.mp hrun
    obtain ⟨taken,hnext⟩ := h.step hmusic hlaws hretracts hundisturbed.1 hstep
    exact ih hnext (hundisturbed.2 next hstep) hrest

theorem taken_all (h : CommandLoop replica start commands taken room) (hdone : room.Processed) :
    Through replica start commands room := by
  obtain ⟨queue,hqueue,hcommands,-⟩ := h.queue
  rw [hdone.queue queue hqueue,List.map_nil,List.append_nil] at hcommands
  exact hcommands ▸ h.through

end CommandLoop

section Emptied

variable {commands : List (ClientCommand T)} (h : Through replica start commands room)
  (hmusic : replica.ReadsMusic)
include h hmusic

omit hmusic in
theorem Through.not_holds (hstart : start.music.Settled)
    (hdurable : ∀ edit ∈ room.music.edits, room.music.durable edit.route ≠ none)
    {retraction : ClientCommand T} (hretraction : retraction ∈ commands) {element : Element}
    (helement : removedElement retraction = some element) :
    ¬ Holds room.music.history element.add element.remove := by
  refine h.music.not_holds hstart hdurable (List.mem_filterMap.mpr ⟨retraction,hretraction,?_⟩)
  rw [helement]
  rfl

theorem Through.sharedPitches_empty (hstart : start.music.Settled) (hdone : room.Processed)
    (hclasses : ∀ pitch ∈ (start.view replica).music.sharedPitches.pitchClasses,
      .removeDegree pitch ∈ commands)
    (hpitches : ∀ pitch ∈ (start.view replica).music.sharedPitches.pitches,
      .removePitch pitch ∈ commands) :
    (room.view replica).music.sharedPitches = ⟨∅,∅⟩ := by
  have htuning := h.tuning hmusic
  have hpitchClasses : (room.view replica).music.sharedPitches.pitchClasses = ∅ := by
    refine Finset.eq_empty_of_forall_notMem fun pitch hpitch => ?_
    obtain ⟨hholds,hallowed⟩ := (hmusic.pitchClasses _ pitch).mp hpitch
    have hbefore : Holds start.music.history (Element.degree pitch).add
        (Element.degree pitch).remove := h.music.holds_start hholds
    have hshown := (hmusic.pitchClasses _ pitch).mpr ⟨hbefore,htuning ▸ hallowed⟩
    exact h.not_holds hstart hdone.durable (hclasses pitch hshown) rfl hholds
  have hexact : (room.view replica).music.sharedPitches.pitches = ∅ := by
    refine Finset.eq_empty_of_forall_notMem fun pitch hpitch => ?_
    obtain ⟨hholds,hallowed⟩ := (hmusic.pitches _ pitch).mp hpitch
    have hbefore : Holds start.music.history (Element.pitch pitch).add
        (Element.pitch pitch).remove := h.music.holds_start hholds
    have hshown := (hmusic.pitches _ pitch).mpr ⟨hbefore,htuning ▸ hallowed⟩
    exact h.not_holds hstart hdone.durable (hpitches pitch hshown) rfl hholds
  rw [← hpitchClasses,← hexact]

theorem Through.pieces_empty (hmay : replica.extension.MayRemove start.extension)
    (hpieces : ∀ piece ∈ (start.view replica).pieces, .removePiece piece ∈ commands) :
    (room.view replica).pieces = ∅ := by
  have htuning := h.tuning hmusic
  refine Std.ExtTreeMap.ext_getElem? fun put => ?_
  rw [Std.ExtTreeMap.getElem?_empty,Option.eq_none_iff_forall_ne_some]
  intro piece hput
  have hcleared := (h.cleared hmay).pieces put
  have hstart : (start.view replica).pieces[put]? = some piece ∧
      put ∉ commands.filterMap removedPiece := by
    simp only [HostedRoom.view,RoomReplica.view] at hput htuning ⊢
    rw [htuning] at hput
    cases hvalid : T.validate (replica.materializeMusic start.music.history).tuning with
    | error error => simp [hvalid] at hput
    | ok active =>
      simp only [hvalid,Std.ExtTreeMap.getElem?_filter',hcleared] at hput ⊢
      by_cases hremoved : put ∈ commands.filterMap removedPiece
      · simp [hremoved] at hput
      · simp only [hremoved,if_false] at hput
        exact ⟨hput,hremoved⟩
  obtain ⟨hshown,hkept⟩ := hstart
  have hmem : put ∈ (start.view replica).pieces := by
    rw [Std.ExtTreeMap.mem_iff_isSome_getElem?,hshown]
    rfl
  exact hkept (List.mem_filterMap.mpr ⟨_,hpieces put hmem,rfl⟩)

/-- No piece is left just if there was none, or the member may remove them. -/
theorem Through.pieces_empty_iff
    (hpieces : ∀ piece ∈ (start.view replica).pieces, .removePiece piece ∈ commands) :
    (room.view replica).pieces = ∅ ↔
      (start.view replica).pieces = ∅ ∨ replica.extension.MayRemove start.extension := by
  by_cases hmay : replica.extension.MayRemove start.extension
  · exact iff_of_true (h.pieces_empty hmusic hmay hpieces) (.inr hmay)
  · have hsame : (room.view replica).pieces = (start.view replica).pieces := by
      have htuning := h.tuning hmusic
      simp only [HostedRoom.view,RoomReplica.view] at htuning ⊢
      rw [h.kept hmay,htuning]
    simp [hsame,hmay]

end Emptied

end Processing

end WalkieSongie.Client
