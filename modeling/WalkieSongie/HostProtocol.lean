import WalkieSongie.HostViews
import WalkieSongie.SessionLibrary
set_option autoImplicit false

/-!
The two hosts side by side: how the native runtime and the browser dispatch a client's command, and
how they take over a view of the room.
-/

namespace WalkieSongie.Client
open Extension (PieceId ExtensionCommand)
open Session (PerformanceIntentToken)

variable {T : TuningLibrary}

inductive ClientCommand (T : TuningLibrary) where
  | enterRoom (roomName : String)
  | joinTicket (ticket : String)
  | leaveRoom
  | setTuning (definition : T.TuningDefinition)
  | addDegree (pitch : TunedDegree)
  | removeDegree (pitch : TunedDegree)
  | setRoundTable (config : T.RoundTableConfig)
  | addPitch (pitch : TunedPeriodicPitch)
  | removePitch (pitch : TunedPeriodicPitch)
  | putPiece (emoji : String) (pitch : TunedPeriodicPitch)
  | movePiece (piece : PieceId) (pitch : TunedPeriodicPitch)
  | removePiece (piece : PieceId)
  | setRoomConfig (piecesLocked : Option Bool) (availableEmojis : Option String)
  | setVoicePreview (session : Nat) (pitch : Option TunedPeriodicPitch)
  | listMidiPorts
  | selectMidiInput (portId : Option String)
  | selectMidiOutput (portId : Option String)
  | panicMidi

inductive MusicOp (T : TuningLibrary) where
  | setTuning (definition : T.TuningDefinition)
  | setRoundTable (config : T.RoundTableConfig)
  | addDegree (degree : TunedDegree)
  | removeDegree (degree : TunedDegree)
  | addPitch (pitch : TunedPeriodicPitch)
  | removePitch (pitch : TunedPeriodicPitch)
  deriving DecidableEq

inductive RoomCommand (T : TuningLibrary) where
  | music (command : MusicOp T)
  | extension (command : ExtensionCommand)
  deriving DecidableEq

inductive AppErrorCode where
  | invalidCommand
  | invalidRoom
  | invalidTicket
  | invalidTuning
  | unknownTuning
  | networkUnavailable
  | midiUnavailable
  | internal
  deriving DecidableEq

structure AppError where
  code : AppErrorCode
  message : String
  detail : Option String
  deriving DecidableEq

/-- What a dispatched command sets going. -/
inductive Work (T : TuningLibrary) where
  | command (command : RoomCommand T)
  | presence (session : Nat) (pitch : Option TunedPeriodicPitch)
  | enterRoom (roomName : String)
  | joinTicket (ticket : T.Ticket)
  | leaveRoom
  deriving DecidableEq

inductive Outcome (T : TuningLibrary) where
  | refused (error : AppError)
  | panicked
  | accepted (work : List (Work T))
  deriving DecidableEq

/-- Both refuse, or both set the same work going. -/
def Outcome.Agrees : Outcome T → Outcome T → Prop
  | .refused _,.refused _ => True
  | .accepted work,.accepted other => work = other
  | _,_ => False

/-- A check before what comes of the command. -/
def Outcome.after (outcome : Outcome T) : Except AppError Unit → Outcome T
  | .error error => .refused error
  | .ok () => outcome

def isValidRoomName (name : String) : Bool :=
  let parts := name.toList.splitOn '-'
  parts.length = 3 && parts.all fun part => !part.isEmpty && part.all Char.isLower

/-- A check whose text becomes the detail of an error. -/
def orRefuse {α : Type} (code : AppErrorCode) (message : String) : Except String α →
    Except AppError α
  | .error text => .error ⟨code,message,some text⟩
  | .ok value => .ok value

@[simp]
theorem orRefuse_ok {α : Type} (code : AppErrorCode) (message : String) (value : α) :
    orRefuse code message (.ok value) = .ok value := rfl

@[simp]
theorem orRefuse_error {α : Type} (code : AppErrorCode) (message text : String) :
    orRefuse (α := α) code message (.error text) = .error ⟨code,message,some text⟩ := rfl

theorem orRefuse_eq_ok {α : Type} {code : AppErrorCode} {message : String}
    {check : Except String α} {value : α} :
    orRefuse code message check = .ok value ↔ check = .ok value := by
  cases check <;> simp

inductive HeldInputAction where
  | degreeActivated (degree : TunedDegree)
  | degreeReleased (degree : TunedDegree)
  deriving DecidableEq

/-- The native runtime, with what its MIDI service, its held keys and its environment answer. -/
structure AppRuntime (T : TuningLibrary) where
  snapshot : AppSnapshot T
  /-- A room task takes commands. -/
  activeRoom : Bool
  relayPolicy : Except AppError Unit
  held : List HeldInputAction
  refreshMidi : Except String Unit
  selectInput : Option String → Except String Unit
  selectOutput : Option String → Except String Unit
  panicMidi : Except String Unit

namespace AppRuntime

variable (host : AppRuntime T)

def currentTuning : Except AppError T.Tuning :=
  match host.snapshot.tuning with
  | none => .error ⟨.unknownTuning,"room has no active tuning",none⟩
  | some definition =>
    orRefuse .invalidTuning "stored room tuning is invalid" (T.validate definition)

def validateDegree (pitch : TunedDegree) : Except AppError Unit :=
  match host.currentTuning with
  | .error error => .error error
  | .ok tuning =>
    orRefuse .invalidCommand "invalid tuning-scoped degree" (T.validateDegree pitch tuning)

def validatePeriodicPitch (pitch : TunedPeriodicPitch) : Except AppError Unit :=
  match host.currentTuning with
  | .error error => .error error
  | .ok tuning =>
    orRefuse .invalidCommand "invalid tuning-scoped periodic pitch" (T.validatePitch pitch tuning)

def submitDurable (command : RoomCommand T) : Outcome T :=
  if host.activeRoom then .accepted [.command command]
  else .refused ⟨.networkUnavailable,"enter a room before changing durable musical state",none⟩

def submitPresence (session : Nat) (pitch : Option TunedPeriodicPitch) : Outcome T :=
  if host.activeRoom then .accepted [.presence session pitch]
  else .refused ⟨.networkUnavailable,"enter a room before sending voice presence",none⟩

def enterRoomV5 (roomName : String) : Outcome T :=
  if isValidRoomName roomName then
    (Outcome.accepted [.enterRoom roomName]).after host.relayPolicy
  else .refused ⟨.invalidRoom,"room names use the form adjective-noun-noun",none⟩

def joinTicketV5 (encoded : String) : Outcome T :=
  match T.parseTicket encoded with
  | .error error => .refused ⟨.invalidTicket,"invalid Room-v5 ticket",some error⟩
  | .ok ticket => (Outcome.accepted [.joinTicket ticket]).after host.relayPolicy

/-- The edits of held degrees that a change of the input lets go, while there is a room. -/
def releases : List (Work T) :=
  if host.activeRoom then
    host.held.filterMap fun
      | .degreeReleased degree => some (.command (.music (.removeDegree degree)))
      | .degreeActivated _ => none
  else []

def midi (work : List (Work T)) (answer : Except String Unit) : Outcome T :=
  (Outcome.accepted work).after (orRefuse .midiUnavailable "native MIDI operation failed" answer)

def dispatchNondurable : ClientCommand T → Outcome T
  | .listMidiPorts => midi [] host.refreshMidi
  | .selectMidiInput portId => midi host.releases (host.selectInput portId)
  | .selectMidiOutput portId => midi [] (host.selectOutput portId)
  | .panicMidi => midi [] host.panicMidi
  -- unreachable!("durable and room commands were dispatched earlier")
  | _ => .panicked

def dispatch : ClientCommand T → Outcome T
  | .enterRoom roomName => host.enterRoomV5 roomName
  | .joinTicket ticket => host.joinTicketV5 ticket
  | .leaveRoom => .accepted [.leaveRoom]
  | .setTuning definition =>
    (host.submitDurable (.music (.setTuning definition))).after
      ((orRefuse .invalidTuning "invalid tuning definition" (T.validate definition)).map
        fun _ => ())
  | .addDegree pitch =>
    (host.submitDurable (.music (.addDegree pitch))).after (host.validateDegree pitch)
  | .removeDegree pitch =>
    (host.submitDurable (.music (.removeDegree pitch))).after (host.validateDegree pitch)
  | .putPiece emoji pitch =>
    (host.submitDurable (.extension (.putPiece emoji pitch))).after
      (host.validatePeriodicPitch pitch)
  | .movePiece piece pitch =>
    (host.submitDurable (.extension (.movePiece piece pitch))).after
      (host.validatePeriodicPitch pitch)
  | .removePiece piece => host.submitDurable (.extension (.removePiece piece))
  | .setRoomConfig piecesLocked availableEmojis =>
    host.submitDurable (.extension (.setConfig piecesLocked availableEmojis))
  | .setVoicePreview session pitch =>
    if session = 0 then
      .refused ⟨.invalidCommand,"voice presence session must be non-zero",none⟩
    else
      match pitch with
      | none => host.submitPresence session none
      | some pitch =>
        (host.submitPresence session (some pitch)).after (host.validatePeriodicPitch pitch)
  | command => host.dispatchNondurable command

end AppRuntime

structure BrowserHost (T : TuningLibrary) where
  snapshot : AppSnapshot T
  /-- A room task takes commands. -/
  activeRoom : Bool

def notInRoom : AppError :=
  ⟨.networkUnavailable,"enter a room before changing shared state",none⟩

def requireIntentToken : Option PerformanceIntentToken → Except AppError Unit
  | some _ => .ok ()
  | none => .error ⟨.internal,"shared pitch edit lost its performance intent token",none⟩

namespace BrowserHost

variable (host : BrowserHost T)

def activeTuning : Except AppError T.Tuning :=
  match host.snapshot.tuning with
  | none => .error notInRoom
  | some definition => orRefuse .invalidTuning "invalid tuning" (T.validate definition)

def validateDegree (degree : TunedDegree) : Except AppError Unit :=
  match host.activeTuning with
  | .error error => .error error
  | .ok tuning => orRefuse .invalidTuning "invalid tuning" (T.validateDegree degree tuning)

def validatePitch (pitch : TunedPeriodicPitch) : Except AppError Unit :=
  match host.activeTuning with
  | .error error => .error error
  | .ok tuning => orRefuse .invalidTuning "invalid tuning" (T.validatePitch pitch tuning)

def submit (command : RoomCommand T) : Outcome T :=
  if host.activeRoom then .accepted [.command command] else .refused notInRoom

def submitPresence (session : Nat) (pitch : Option TunedPeriodicPitch) : Outcome T :=
  if host.activeRoom then .accepted [.presence session pitch] else .refused notInRoom

def enterRoom (roomName : String) : Outcome T :=
  if isValidRoomName roomName then .accepted [.enterRoom roomName]
  else .refused ⟨.invalidRoom,"room names use the form adjective-noun-noun",none⟩

def joinTicket (encoded : String) : Outcome T :=
  match T.parseTicket encoded with
  | .error error => .refused ⟨.invalidTicket,"invalid Room-v5 ticket",some error⟩
  | .ok ticket => .accepted [.joinTicket ticket]

/-- A pitch edit goes to the session with the token of its intent. -/
def submitPitchEdit (command : MusicOp T) (intentToken : Option PerformanceIntentToken) :
    Outcome T :=
  (host.submit (.music command)).after (requireIntentToken intentToken)

def dispatch (intentToken : Option PerformanceIntentToken) : ClientCommand T → Outcome T
  | .enterRoom roomName => enterRoom roomName
  | .joinTicket ticket => joinTicket ticket
  | .leaveRoom => .accepted [.leaveRoom]
  | .setTuning definition =>
    (host.submit (.music (.setTuning definition))).after
      ((orRefuse .invalidTuning "invalid tuning" (T.validate definition)).map fun _ => ())
  | .addDegree pitch =>
    (host.submitPitchEdit (.addDegree pitch) intentToken).after (host.validateDegree pitch)
  | .removeDegree pitch =>
    (host.submitPitchEdit (.removeDegree pitch) intentToken).after (host.validateDegree pitch)
  | .setRoundTable config =>
    match orRefuse .invalidCommand "invalid round-table config" (T.validateRoundTable config) with
    | .error error => .refused error
    | .ok config => host.submit (.music (.setRoundTable config))
  | .addPitch pitch =>
    (host.submitPitchEdit (.addPitch pitch) intentToken).after (host.validatePitch pitch)
  | .removePitch pitch =>
    (host.submitPitchEdit (.removePitch pitch) intentToken).after (host.validatePitch pitch)
  | .putPiece emoji pitch =>
    (host.submit (.extension (.putPiece emoji pitch))).after (host.validatePitch pitch)
  | .movePiece piece pitch =>
    (host.submit (.extension (.movePiece piece pitch))).after (host.validatePitch pitch)
  | .removePiece piece => host.submit (.extension (.removePiece piece))
  | .setRoomConfig piecesLocked availableEmojis =>
    host.submit (.extension (.setConfig piecesLocked availableEmojis))
  | .setVoicePreview session pitch =>
    if session = 0 then
      .refused ⟨.invalidCommand,"voice presence session must be non-zero",none⟩
    else
      match pitch with
      | none => host.submitPresence session none
      | some pitch => (host.submitPresence session (some pitch)).after (host.validatePitch pitch)
  | .listMidiPorts | .selectMidiInput _ | .selectMidiOutput _ | .panicMidi => .accepted []

end BrowserHost

section Dispatch

/-- The active tuning is there and sound, and passes the check. -/
def TuningLibrary.Allows (T : TuningLibrary) (tuning : Option T.TuningDefinition)
    (check : T.Tuning → Except String Unit) : Prop :=
  ∃ definition sound, tuning = some definition ∧ T.validate definition = .ok sound ∧
    check sound = .ok ()

/-- The commands that the native runtime dispatches as the browser does. -/
def ClientCommand.Shared (tauri : AppRuntime T) (intentToken : Option PerformanceIntentToken) :
    ClientCommand T → Prop
  | .setRoundTable _ | .addPitch _ | .removePitch _ => False
  | .addDegree pitch | .removeDegree pitch =>
    T.Allows tauri.snapshot.tuning (T.validateDegree pitch) → tauri.activeRoom = true →
      intentToken.isSome = true
  | .enterRoom roomName => isValidRoomName roomName = true → tauri.relayPolicy = .ok ()
  | .joinTicket ticket => (T.parseTicket ticket).isOk = true → tauri.relayPolicy = .ok ()
  | .listMidiPorts => tauri.refreshMidi = .ok ()
  | .selectMidiInput portId => tauri.selectInput portId = .ok () ∧
      (tauri.activeRoom = true → ∀ degree, .degreeReleased degree ∉ tauri.held)
  | .selectMidiOutput portId => tauri.selectOutput portId = .ok ()
  | .panicMidi => tauri.panicMidi = .ok ()
  | _ => True

theorem Outcome.after_agrees {first second : Outcome T} {check other : Except AppError Unit}
    (h : check = .ok () ↔ other = .ok ()) :
    (first.after check).Agrees (second.after other) ↔ (check = .ok () → first.Agrees second) := by
  cases check with
  | error error =>
    cases other with
    | error error => simp [Outcome.after,Outcome.Agrees]
    | ok value => simp at h
  | ok value =>
    cases other with
    | error error => simp at h
    | ok value => simp [Outcome.after]

theorem Outcome.after_accepted_agrees {work : List (Work T)} {check : Except AppError Unit}
    {expected : List (Work T)} : ((Outcome.accepted work).after check).Agrees (.accepted expected) ↔
      check = .ok () ∧ work = expected := by
  cases check <;> simp [Outcome.after,Outcome.Agrees]

variable {tauri : AppRuntime T} {browser : BrowserHost T}

theorem AppRuntime.validateDegree_eq_ok {pitch : TunedDegree} :
    tauri.validateDegree pitch = .ok () ↔
      T.Allows tauri.snapshot.tuning (T.validateDegree pitch) := by
  unfold validateDegree currentTuning TuningLibrary.Allows
  cases tauri.snapshot.tuning with
  | none => simp
  | some definition => cases hsound : T.validate definition <;> simp [hsound,orRefuse_eq_ok]

theorem AppRuntime.validatePeriodicPitch_eq_ok {pitch : TunedPeriodicPitch} :
    tauri.validatePeriodicPitch pitch = .ok () ↔
      T.Allows tauri.snapshot.tuning (T.validatePitch pitch) := by
  unfold validatePeriodicPitch currentTuning TuningLibrary.Allows
  cases tauri.snapshot.tuning with
  | none => simp
  | some definition => cases hsound : T.validate definition <;> simp [hsound,orRefuse_eq_ok]

theorem BrowserHost.validateDegree_eq_ok {pitch : TunedDegree} :
    browser.validateDegree pitch = .ok () ↔
      T.Allows browser.snapshot.tuning (T.validateDegree pitch) := by
  unfold validateDegree activeTuning TuningLibrary.Allows
  cases browser.snapshot.tuning with
  | none => simp
  | some definition => cases hsound : T.validate definition <;> simp [hsound,orRefuse_eq_ok]

theorem BrowserHost.validatePitch_eq_ok {pitch : TunedPeriodicPitch} :
    browser.validatePitch pitch = .ok () ↔
      T.Allows browser.snapshot.tuning (T.validatePitch pitch) := by
  unfold validatePitch activeTuning TuningLibrary.Allows
  cases browser.snapshot.tuning with
  | none => simp
  | some definition => cases hsound : T.validate definition <;> simp [hsound,orRefuse_eq_ok]

section Same

variable (hroom : tauri.activeRoom = browser.activeRoom)
include hroom

theorem submit_agrees (command : RoomCommand T) :
    (tauri.submitDurable command).Agrees (browser.submit command) := by
  unfold AppRuntime.submitDurable BrowserHost.submit
  rw [hroom]
  cases browser.activeRoom <;> simp [Outcome.Agrees]

theorem submitPresence_agrees (session : Nat) (pitch : Option TunedPeriodicPitch) :
    (tauri.submitPresence session pitch).Agrees (browser.submitPresence session pitch) := by
  unfold AppRuntime.submitPresence BrowserHost.submitPresence
  rw [hroom]
  cases browser.activeRoom <;> simp [Outcome.Agrees]

theorem submitPitchEdit_agrees_iff (command : MusicOp T)
    (intentToken : Option PerformanceIntentToken) :
    (tauri.submitDurable (.music command)).Agrees
        (browser.submitPitchEdit command intentToken) ↔
      (tauri.activeRoom = true → intentToken.isSome = true) := by
  unfold AppRuntime.submitDurable BrowserHost.submitPitchEdit BrowserHost.submit
  rw [hroom]
  cases browser.activeRoom <;> cases intentToken <;>
    simp [Outcome.after,requireIntentToken,Outcome.Agrees]

end Same

theorem AppRuntime.releases_eq_nil :
    tauri.releases = [] ↔
      (tauri.activeRoom = true → ∀ degree, .degreeReleased degree ∉ tauri.held) := by
  unfold releases
  cases tauri.activeRoom with
  | false => simp
  | true =>
    simp only [if_true,List.filterMap_eq_nil_iff,true_implies]
    constructor
    · intro h degree hmem
      simpa using h _ hmem
    · rintro h (degree | degree) hmem
      · rfl
      · exact absurd hmem (h degree)

theorem AppRuntime.midi_agrees {work : List (Work T)} {answer : Except String Unit} :
    (AppRuntime.midi work answer).Agrees (.accepted []) ↔ answer = .ok () ∧ work = [] := by
  rw [AppRuntime.midi,Outcome.after_accepted_agrees,orRefuse_eq_ok]

theorem dispatch_agrees_iff (htuning : tauri.snapshot.tuning = browser.snapshot.tuning)
    (hroom : tauri.activeRoom = browser.activeRoom) (command : ClientCommand T)
    (intentToken : Option PerformanceIntentToken) :
    (tauri.dispatch command).Agrees (browser.dispatch intentToken command) ↔
      command.Shared tauri intentToken := by
  have hdegree (pitch : TunedDegree) :
      tauri.validateDegree pitch = .ok () ↔ browser.validateDegree pitch = .ok () := by
    rw [AppRuntime.validateDegree_eq_ok,BrowserHost.validateDegree_eq_ok,htuning]
  have hpitch (pitch : TunedPeriodicPitch) :
      tauri.validatePeriodicPitch pitch = .ok () ↔ browser.validatePitch pitch = .ok () := by
    rw [AppRuntime.validatePeriodicPitch_eq_ok,BrowserHost.validatePitch_eq_ok,htuning]
  have hpanicked (outcome : Outcome T) : ¬ Outcome.Agrees .panicked outcome := by
    cases outcome <;> simp [Outcome.Agrees]
  cases command with
  | enterRoom roomName =>
    simp only [AppRuntime.dispatch,AppRuntime.enterRoomV5,BrowserHost.dispatch,
      BrowserHost.enterRoom,ClientCommand.Shared]
    cases isValidRoomName roomName with
    | false => simp [Outcome.Agrees]
    | true => simp [Outcome.after_accepted_agrees]
  | joinTicket ticket =>
    simp only [AppRuntime.dispatch,AppRuntime.joinTicketV5,BrowserHost.dispatch,
      BrowserHost.joinTicket,ClientCommand.Shared]
    cases T.parseTicket ticket with
    | error error => simp [Outcome.Agrees,Except.isOk,Except.toBool]
    | ok ticket => simp [Outcome.after_accepted_agrees,Except.isOk,Except.toBool]
  | leaveRoom => simp [AppRuntime.dispatch,BrowserHost.dispatch,Outcome.Agrees,ClientCommand.Shared]
  | setTuning definition =>
    have hsound : (orRefuse .invalidTuning "invalid tuning definition"
        (T.validate definition)).map (fun _ => ()) = .ok () ↔
          (orRefuse .invalidTuning "invalid tuning" (T.validate definition)).map
            (fun _ => ()) = .ok () := by
      cases T.validate definition <;> simp [Except.map]
    simp [AppRuntime.dispatch,BrowserHost.dispatch,Outcome.after_agrees hsound,
      submit_agrees hroom,ClientCommand.Shared]
  | addDegree pitch =>
    simp only [AppRuntime.dispatch,BrowserHost.dispatch,Outcome.after_agrees (hdegree pitch),
      submitPitchEdit_agrees_iff hroom,ClientCommand.Shared,AppRuntime.validateDegree_eq_ok]
  | removeDegree pitch =>
    simp only [AppRuntime.dispatch,BrowserHost.dispatch,Outcome.after_agrees (hdegree pitch),
      submitPitchEdit_agrees_iff hroom,ClientCommand.Shared,AppRuntime.validateDegree_eq_ok]
  | putPiece emoji pitch =>
    simp [AppRuntime.dispatch,BrowserHost.dispatch,Outcome.after_agrees (hpitch pitch),
      submit_agrees hroom,ClientCommand.Shared]
  | movePiece piece pitch =>
    simp [AppRuntime.dispatch,BrowserHost.dispatch,Outcome.after_agrees (hpitch pitch),
      submit_agrees hroom,ClientCommand.Shared]
  | removePiece piece =>
    simp [AppRuntime.dispatch,BrowserHost.dispatch,submit_agrees hroom,ClientCommand.Shared]
  | setRoomConfig piecesLocked availableEmojis =>
    simp [AppRuntime.dispatch,BrowserHost.dispatch,submit_agrees hroom,ClientCommand.Shared]
  | setVoicePreview session pitch =>
    simp only [AppRuntime.dispatch,BrowserHost.dispatch,ClientCommand.Shared,iff_true]
    split
    · simp [Outcome.Agrees]
    · cases pitch with
      | none => exact submitPresence_agrees hroom session none
      | some pitch =>
        rw [Outcome.after_agrees (hpitch pitch)]
        exact fun _ => submitPresence_agrees hroom session (some pitch)
  | setRoundTable config => exact iff_of_false (hpanicked _) id
  | addPitch pitch => exact iff_of_false (hpanicked _) id
  | removePitch pitch => exact iff_of_false (hpanicked _) id
  | listMidiPorts =>
    simp [AppRuntime.dispatch,AppRuntime.dispatchNondurable,BrowserHost.dispatch,
      AppRuntime.midi_agrees,ClientCommand.Shared]
  | selectMidiInput portId =>
    simp [AppRuntime.dispatch,AppRuntime.dispatchNondurable,BrowserHost.dispatch,
      AppRuntime.midi_agrees,AppRuntime.releases_eq_nil,ClientCommand.Shared]
  | selectMidiOutput portId =>
    simp [AppRuntime.dispatch,AppRuntime.dispatchNondurable,BrowserHost.dispatch,
      AppRuntime.midi_agrees,ClientCommand.Shared]
  | panicMidi =>
    simp [AppRuntime.dispatch,AppRuntime.dispatchNondurable,BrowserHost.dispatch,
      AppRuntime.midi_agrees,ClientCommand.Shared]

/-- The hosts agree on the shared commands, and on the views that leave the round table alone and
whose MIDI outputs follow. -/
theorem hosts_agree_iff (htuning : tauri.snapshot.tuning = browser.snapshot.tuning)
    (hroom : tauri.activeRoom = browser.activeRoom) :
    (∀ (command : ClientCommand T) intentToken,
      (tauri.dispatch command).Agrees (browser.dispatch intentToken command) ↔
        command.Shared tauri intentToken) ∧
      ∀ (snapshot : AppSnapshot T) (applied : List (RoomView T × List MidiFailure)),
        let native := (Told.mk snapshot []).run AppRuntime.applyRoomView applied
        let web := (Told.mk snapshot []).run BrowserHost.applyRoomView (applied.map Prod.fst)
        native.snapshot.SameRoom web.snapshot ∧ native.events = web.events ↔
          ∀ input ∈ applied, input.1.music.roundTable = snapshot.roundTable ∧ input.2 = [] := by
  constructor
  · exact fun command intentToken => dispatch_agrees_iff htuning hroom command intentToken
  · exact fun snapshot applied => views_agree_iff snapshot applied

def twelveTone : AppSnapshot equalTunings := { AppSnapshot.empty with tuning := some (12 : Nat) }

def nativeInRoom : AppRuntime equalTunings where
  snapshot := twelveTone
  activeRoom := true
  relayPolicy := .ok ()
  held := []
  refreshMidi := .ok ()
  selectInput _ := .ok ()
  selectOutput _ := .ok ()
  panicMidi := .ok ()

def browserInRoom : BrowserHost equalTunings := ⟨twelveTone,true⟩

theorem hosts_agree_iff_degree :
    (nativeInRoom.dispatch (.addDegree ⟨12,7⟩)).Agrees
      (browserInRoom.dispatch (some ⟨1,1⟩) (.addDegree ⟨12,7⟩)) := by
  have htuning : nativeInRoom.snapshot.tuning = browserInRoom.snapshot.tuning := rfl
  have hroom : nativeInRoom.activeRoom = browserInRoom.activeRoom := rfl
  obtain ⟨hcommands,-⟩ := hosts_agree_iff htuning hroom
  exact (hcommands (.addDegree ⟨12,7⟩) (some ⟨1,1⟩)).mpr fun _ _ => rfl

/-- An exact pitch for a room: the browser submits it, the native runtime panics. -/
theorem native_runtime_panics_on_pitch :
    nativeInRoom.snapshot.tuning = browserInRoom.snapshot.tuning ∧
      nativeInRoom.activeRoom = browserInRoom.activeRoom ∧
      nativeInRoom.dispatch (.addPitch ⟨12,7,0⟩) = .panicked ∧
      browserInRoom.dispatch (some ⟨1,1⟩) (.addPitch ⟨12,7,0⟩) =
        .accepted [.command (.music (.addPitch ⟨12,7,0⟩))] ∧
      ¬ (nativeInRoom.dispatch (.addPitch ⟨12,7,0⟩)).Agrees
        (browserInRoom.dispatch (some ⟨1,1⟩) (.addPitch ⟨12,7,0⟩)) :=
  ⟨rfl,rfl,rfl,rfl,id⟩

end Dispatch

end WalkieSongie.Client
