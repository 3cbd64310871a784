import WalkieSongie.BridgePitches
set_option autoImplicit false

/-!
The bridge worker: what it makes of the host's keys and of the transport's events, and the calls
it makes on the transport, which may refuse any of them.
-/

namespace WalkieSongie.Bridge

variable {M : MusicLibrary}

inductive LinkState where
  | offline
  | discovering
  | connecting
  | authenticating
  | repairing
  | ready
  | refused
  | failed
  deriving DecidableEq

inductive BridgeCommand (M : MusicLibrary) where
  | publishRoundTable (frame : RoundTableFrame M)
  | publishBoardEdit (token : Nat) (frame : RoundTableFrame M)
      (settings : Option (RoundTableConfig M)) (pitchEdits : List (TunedPeriodicPitch × Bool))
  | sendBoardRoundTable (frame : RoundTableFrame M)
  | setSharedPitch (token : Nat) (pitch : TunedPeriodicPitch) (active : Bool)
  deriving DecidableEq

inductive PitchIntentOutcome where
  | applied
  | rejected (error : String)
  deriving DecidableEq

/-- The transport events that the worker itself reads; `other` stands for those it only hands on. -/
inductive TransportEvent (M : MusicLibrary) where
  | roomLink (link : LinkState)
  | roomSelected (room : String)
  | boardLink (link : LinkState)
  | midi (event : RealtimeMidi)
  | roundTable (frame : RoundTableFrame M)
  | roomPitchSet (shared : SharedPitchSet)
  | boardRoundTable (frame : RoundTableFrame M)
  | pitchIntentOutcome (token : Nat) (outcome : PitchIntentOutcome)
  | pitchIntentReset (throughToken : Nat)
  | other (code : Nat)

inductive TransportCall (M : MusicLibrary) where
  | command (command : BridgeCommand M)
  | realtime (event : RealtimeMidi)
  deriving DecidableEq

inductive BridgeInput (M : MusicLibrary) where
  | released (mode : MidiInputMode) (event : RealtimeMidi)
  | realtime (mode : MidiInputMode) (event : RealtimeMidi)
  | transport (now : Nat) (event : TransportEvent M)
  | passEnd (now : Nat)

/-- The worker, with the calls it has made on the transport and their errors, newest first. -/
structure Worker (M : MusicLibrary) where
  pitches : BridgePitchState M := {}
  boardLink : LinkState := .offline
  calls : List (TransportCall M × Option BridgeError) := []

abbrev Transport (M : MusicLibrary) :=
  List (TransportCall M × Option BridgeError) → TransportCall M → Option BridgeError

abbrev WorkerM (M : MusicLibrary) := Worker M → Except BridgeError Unit × Worker M

namespace Worker

def setPitches (worker : Worker M) (pitches : BridgePitchState M) : Worker M :=
  { worker with pitches := pitches }

/-- A call the transport refuses leaves its error. -/
def call (transport : Transport M) (call : TransportCall M) : WorkerM M := fun worker =>
  let answer := transport worker.calls call
  (match answer with
    | none => .ok ()
    | some error => .error error,{ worker with calls := (call,answer) :: worker.calls })

variable (transport : Transport M)

def applySharedPitchIntent (pitch : TunedPeriodicPitch) (active : Bool) : WorkerM M := fun worker =>
  match worker.pitches.allocateIntentToken with
  | .error error => (.error error,worker)
  | .ok (token,pitches) =>
      match call transport (.command (.setSharedPitch token pitch active))
          (worker.setPitches pitches) with
      | (.error error,after) => (.error error,after)
      | (.ok (),after) =>
          (.ok (),after.setPitches (after.pitches.trackPitchIntent token .host [(pitch,active)]))

def handleHostNoteRelease (mode : MidiInputMode) (note : Nat) : WorkerM M := fun worker =>
  let (wasHeld,pitches) := worker.pitches.setHostHeld note false
  let worker := worker.setPitches pitches
  if mode ≠ .gateSet ∨ wasHeld = false then (.ok (),worker)
  else match pitchForMidi M note with
    | .error error => (.error error,worker)
    | .ok pitch =>
        -- Octaves are aggregated: another key of the class may still be held.
        if pitches.hasHeldPitchClass pitch = false ∧
            pitches.containsOptimisticPitchClass pitch = true then
          applySharedPitchIntent transport pitch false worker
        else (.ok (),worker)

def handleHostNoteOn (mode : MidiInputMode) (note : Nat) : WorkerM M := fun worker =>
  let (wasHeld,pitches) := worker.pitches.setHostHeld note true
  let worker := worker.setPitches pitches
  if wasHeld then (.ok (),worker)
  else match pitchForMidi M note with
    | .error error => (.error error,worker)
    | .ok pitch =>
        let present := pitches.containsOptimisticPitchClass pitch
        match mode with
        | .toggleSet => applySharedPitchIntent transport pitch (!present) worker
        | .gateSet =>
            if present then (.ok (),worker) else applySharedPitchIntent transport pitch true worker
        | .perform => (.ok (),worker)

def releaseInput (mode : MidiInputMode) (event : RealtimeMidi) : WorkerM M :=
  if mode = .perform then call transport (.realtime event)
  else if event.kind = .noteOff ∨ event.kind = .choke then
    handleHostNoteRelease transport mode event.note
  else call transport (.realtime event)

/-- An event popped from the realtime queue: a NoteOn without velocity is a release. -/
def realtimeInput (mode : MidiInputMode) (event : RealtimeMidi) : WorkerM M :=
  if event.kind = .noteOn then
    if mode = .perform then call transport (.realtime event)
    else if event.value ≤ 0 then handleHostNoteRelease transport mode event.note
    else handleHostNoteOn transport mode event.note
  else call transport (.realtime event)

/-- What the board's frame shows, and what the bridge makes of it. -/
def observeBoard (now : Nat) (frame : RoundTableFrame M) (pitches : BridgePitchState M) :
    Option (RoundTableConfig M × BridgePitchState.BoardConfigObservation) × BridgePitchState M :=
  match frame with
  | .run config =>
      let (observation,pitches) := pitches.observeBoardConfig config
      (some (config,observation),pitches)
  | .config config =>
      let (observation,pitches) := pitches.observeBoardConfig config
      (some (config,observation),pitches)
  | .configSnapshot revision config =>
      let (observation,pitches) := pitches.observeBoardSnapshot revision config now
      (some (config,observation),pitches)
  | .pulse => (none,pitches)

def publishBoardEdit (frame : RoundTableFrame M) (config : RoundTableConfig M) : WorkerM M :=
  fun worker =>
    match worker.pitches.planBoardEdit config with
    | .error error => (.error error,worker)
    | .ok plan =>
        match frame with
        | .configSnapshot _ _ =>
            (.error (.transport "passive board snapshot cannot author a room edit"),worker)
        | _ =>
            match worker.pitches.allocateIntentToken with
            | .error error => (.error error,worker)
            | .ok (token,pitches) =>
                match call transport
                    (.command (.publishBoardEdit token frame plan.settings plan.pitchEdits))
                    (worker.setPitches pitches) with
                -- A refused edit is forgotten: nothing stages the board again.
                | (.error error,after) => (.error error,after)
                | (.ok (),after) => (.ok (),after.setPitches
                    (after.pitches.trackPitchIntent token .board plan.pitchEdits))

def boardRoundTable (now : Nat) (frame : RoundTableFrame M) : WorkerM M := fun worker =>
  let (observed,pitches) := observeBoard now frame worker.pitches
  let worker := worker.setPitches pitches
  match observed with
  | some (config,.boardEdit) => publishBoardEdit transport frame config worker
  | _ =>
      match frame with
      | .run _ => call transport (.command (.publishRoundTable frame)) worker
      | .pulse => call transport (.command (.publishRoundTable frame)) worker
      | _ => (.ok (),worker)

def stage (now : Nat) (worker : Worker M) : Worker M :=
  worker.setPitches (worker.pitches.stageBoardTarget now)

def transportEvent (now : Nat) : TransportEvent M → WorkerM M
  | .roomLink .ready => fun worker => (.ok (),worker)
  | .roomLink _ => fun worker =>
      (.ok (),(worker.setPitches worker.pitches.abandonPitchIntents.clearBoardTarget).stage now)
  | .roomSelected _ => fun worker =>
      (.ok (),(worker.setPitches worker.pitches.abandonPitchIntents.clearBoardTarget).stage now)
  | .boardLink .ready => fun worker =>
      let worker := { worker with boardLink := .ready }
      (.ok (),(worker.setPitches worker.pitches.forgetBoard).stage now)
  | .boardLink link => fun worker =>
      (.ok (),{ worker with boardLink := link }.setPitches
        worker.pitches.abandonBoardPitchIntents.clearBoardTarget.forgetBoard)
  | .boardRoundTable frame => boardRoundTable transport now frame
  | .pitchIntentOutcome token (.rejected _) => fun worker =>
      (.ok (),(worker.setPitches (worker.pitches.rejectPitchIntent token)).stage now)
  | .pitchIntentOutcome _ .applied => fun worker => (.ok (),worker)
  | .pitchIntentReset throughToken => fun worker =>
      (.ok (),(worker.setPitches (worker.pitches.abandonPitchIntentsThrough throughToken)).stage
        now)
  | .roomPitchSet shared => fun worker =>
      let (changed,pitches) := worker.pitches.applyConfirmedRoom shared
      let worker := worker.setPitches pitches
      (.ok (),if changed then worker.stage now else worker)
  | .roundTable frame => fun worker =>
      (.ok (),(worker.setPitches (worker.pitches.applyRoundTable frame)).stage now)
  | .midi _ => fun worker => (.ok (),worker)
  | .other _ => fun worker => (.ok (),worker)

def sendBoardTarget (now : Nat) : WorkerM M := fun worker =>
  match worker.pitches.boardTargetDue now with
  | (none,pitches) => (.ok (),worker.setPitches pitches)
  | (some frame,pitches) =>
      call transport (.command (.sendBoardRoundTable frame)) (worker.setPitches pitches)

/-- Errors end up as diagnostics; the loop goes on. -/
def after (worker : Worker M) (handler : WorkerM M) : Worker M := (handler worker).2

/-- The worker drains the release queue, and then the realtime queue. -/
def drainInput (mode : MidiInputMode) (released realtime : List RealtimeMidi) (worker : Worker M) :
    Worker M :=
  realtime.foldl (fun worker event => worker.after (realtimeInput transport mode event))
    (released.foldl (fun worker event => worker.after (releaseInput transport mode event)) worker)

/-- What the loop takes next: an event of one of the host's queues, a transport event, or the end
of the pass. -/
def input : BridgeInput M → WorkerM M
  | .released mode event => releaseInput transport mode event
  | .realtime mode event => realtimeInput transport mode event
  | .transport now event => transportEvent transport now event
  | .passEnd now => sendBoardTarget transport now

theorem after_applySharedPitchIntent (worker : Worker M) (pitch : TunedPeriodicPitch)
    (active : Bool) : worker.after (applySharedPitchIntent transport pitch active) =
      if worker.pitches.nextIntentToken+1 < 2^64 then
        let token := worker.pitches.nextIntentToken
        let command := TransportCall.command (.setSharedPitch token pitch active)
        let called : Worker M := { worker with
          pitches := { worker.pitches with nextIntentToken := token+1 }
          calls := (command,transport worker.calls command) :: worker.calls }
        if transport worker.calls command = none then
          called.setPitches (called.pitches.trackPitchIntent token .host [(pitch,active)])
        else called
      else worker := by
  unfold after applySharedPitchIntent BridgePitchState.allocateIntentToken
  by_cases hroom : worker.pitches.nextIntentToken+1 < 2^64
  · simp only [hroom,if_true,call,setPitches]
    cases hanswer : transport worker.calls
        (.command (.setSharedPitch worker.pitches.nextIntentToken pitch active)) with
    | none => simp
    | some error => simp
  · simp only [hroom,if_false]

end Worker

end WalkieSongie.Bridge
