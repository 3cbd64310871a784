import WalkieSongie.Composite
set_option autoImplicit false

/-!
The native room's leg of the router: bounded queues to and from a driver thread, which holds the
active room and its stepwise repair attempt with the board.
-/

namespace WalkieSongie.Carrier
open Bridge (LinkState PitchIntentOutcome)

def commandCapacity : Nat := 64

def eventCapacity : Nat := 256

section Driver

variable (T : RealtimeTypes)

inductive DriverCommand where
  | configureIdentity (identitySeed : Digest)
  | join (name : String)
  | leave
  | prepareBoardProvisioning (binding : BoardSessionBinding)
  | startBoardRepair (binding : BoardSessionBinding)
  | observeBoardRepairFrame (binding : BoardSessionBinding) (frame : Bytes)
  | confirmBoardRepairClose (binding : BoardSessionBinding)
  | abortBoardRepair (binding : BoardSessionBinding)
  | send (midi : T.Midi)
  | roundTable (frame : T.RoundTableFrame)
  | boardEdit (token : Nat) (frame : T.RoundTableFrame) (settings : Option T.RoundTableConfig)
      (pitchEdits : List (TunedPeriodicPitch × Bool))
  | pitchEdit (token : Nat) (pitch : TunedPeriodicPitch) (active : Bool)
  | shutdown

/-- What the driver has to tell beside the board's repair and the room's link. -/
inductive RoomNotice where
  | peers (count : Nat)
  | midi (midi : T.Midi)
  | roundTable (frame : T.RoundTableFrame)
  | pitchSet (set : SharedPitchSet)
  | intentOutcome (token : Nat) (outcome : PitchIntentOutcome)
  /-- The network's event stream is closed; the room stays for the time being. -/
  | closed
  | diagnostic (text : String)

/-- The room's side of one repair with the board; the number tells the attempts apart. -/
structure RoomAttempt where
  binding : BoardSessionBinding
  number : Nat
  deriving DecidableEq

/-- The room that is joined; the opening tells apart two times that a room of one name is. -/
structure ActiveRoom where
  name : String
  opening : Nat
  boardRepair : Option RoomAttempt := none

/-- An event on its way out of a handler; a required one is an error where it finds no room. -/
structure Egress where
  event : TransportEvent T
  required : Bool

/-- The stepwise attempt takes a turn: the frames it sends, and whether it is terminal then. -/
structure AttemptTurn where
  frames : List Bytes
  result : Except String Bool

/-- What the room's network, replica and attempt answer while the driver handles a command. -/
structure DriverAnswers where
  opened : Except String Unit
  prepared : Except String Bytes
  attempt : AttemptTurn
  synchronized : Except String Bool
  notices : List (RoomNotice T)

structure RoomLeg where
  commands : List (DriverCommand T) := []
  events : List (TransportEvent T) := []
  outgoing : List (Egress T) := []
  droppedEvents : Nat := 0
  abandonedThrough : Nat := 0
  highestQueued : Nat := 0
  disconnectReported : Bool := false
  stopping : Bool := false
  running : Bool := true
  identitySeed : Digest
  active : Option ActiveRoom := none
  openings : Nat := 0
  attempts : Nat := 0
  /-- Each request for an attempt, with the placement of the attempt that the room held then. -/
  starts : List (BoardSessionBinding × Option BoardSessionBinding) := []

end Driver

variable {T : RealtimeTypes}

def RoomNotice.event : RoomNotice T → TransportEvent T
  | .peers count => .roomPeers count
  | .midi played => .midi played
  | .roundTable frame => .roundTable frame
  | .pitchSet set => .roomPitchSet set
  | .intentOutcome token outcome => .pitchIntentOutcome token outcome
  | .closed => .roomLink .failed
  | .diagnostic text => .diagnostic text

namespace RoomLeg

def attempt (leg : RoomLeg T) : Option RoomAttempt := leg.active.bind ActiveRoom.boardRepair

def tell (events : List (TransportEvent T)) (leg : RoomLeg T) : RoomLeg T :=
  { leg with outgoing := leg.outgoing ++ events.map fun event => ⟨event,false⟩ }

/-- The frames of the room's attempt go out before the attempt is asked what comes next. -/
def sendFrames (attempt : RoomAttempt) (frames : List Bytes) (leg : RoomLeg T) : RoomLeg T :=
  { leg with outgoing := leg.outgoing ++ frames.map fun frame =>
      ⟨.boardRepairOutbound attempt.binding ⟨frame,some attempt.number⟩,true⟩ }

def hold (attempt : Option RoomAttempt) (leg : RoomLeg T) : RoomLeg T :=
  { leg with active := leg.active.map fun room => { room with boardRepair := attempt } }

def noteStart (binding : BoardSessionBinding) (leg : RoomLeg T) : RoomLeg T :=
  { leg with starts := leg.starts ++ [(binding,leg.attempt.map RoomAttempt.binding)] }

def tellTerminal (binding : BoardSessionBinding) (terminal : Bool) (leg : RoomLeg T) : RoomLeg T :=
  if terminal then leg.tell [.boardRepairTerminal binding] else leg

/-- An error is `some`. -/
def startBoardRepair (binding : BoardSessionBinding) (turn : AttemptTurn) (leg : RoomLeg T) :
    Option String × RoomLeg T :=
  if leg.attempt.isSome then (some "another board repair attempt is still active",leg)
  else
    let attempt : RoomAttempt := ⟨binding,leg.attempts⟩
    let leg := sendFrames attempt turn.frames { leg with attempts := leg.attempts+1 }
    match turn.result with
    | .error error => (some error,leg)
    | .ok terminal => (none,(leg.hold (some attempt)).tellTerminal binding terminal)

def observeBoardRepairFrame (binding : BoardSessionBinding) (turn : AttemptTurn)
    (notices : List (RoomNotice T)) (leg : RoomLeg T) : Option String × RoomLeg T :=
  match leg.attempt with
  | none => (some "board repair frame arrived without an active attempt",leg)
  | some attempt =>
    if attempt.binding ≠ binding then (some "board repair frame belongs to a stale placement",leg)
    else
      let leg := leg.sendFrames attempt turn.frames
      match turn.result with
      | .error error => (some error,leg)
      | .ok terminal =>
        (none,(leg.tell (notices.map RoomNotice.event)).tellTerminal binding terminal)

/-- A close that did not synchronize begins a fresh attempt. -/
def confirmBoardRepairClose (binding : BoardSessionBinding) (answers : DriverAnswers T)
    (leg : RoomLeg T) : Option String × RoomLeg T :=
  match leg.attempt,leg.active with
  | some attempt,some room =>
    if attempt.binding ≠ binding then (some "board repair close belongs to a stale placement",leg)
    else
      let leg := leg.hold none
      match answers.synchronized with
      | .error error => (some error,leg)
      | .ok true =>
        (none,leg.tell (answers.notices.map RoomNotice.event ++
          [.boardRepairSynchronized ⟨binding,some room.opening⟩]))
      | .ok false =>
        (leg.tell (answers.notices.map RoomNotice.event)).startBoardRepair binding answers.attempt
  | _,_ => (some "board repair close arrived without an active attempt",leg)

def abortBoardRepair (binding : BoardSessionBinding) (leg : RoomLeg T) : RoomLeg T :=
  if leg.attempt.map RoomAttempt.binding = some binding then leg.hold none else leg

def repairArm (binding : BoardSessionBinding) (step : String)
    (handler : RoomLeg T → Option String × RoomLeg T) (leg : RoomLeg T) : RoomLeg T :=
  let (failed,leg) :=
    match leg.active with
    | none => (some "no active room is available for board repair",leg)
    | some _ => handler leg
  match failed with
  | none => leg
  | some error =>
    (leg.abortBoardRepair binding).tell [.boardRepairFailed binding s!"{step} failed: {error}"]

def retraction : List (TransportEvent T) := [.roomPitchSet ⟨∅,∅⟩,.roomPeers 0]

def join (name : String) (answers : DriverAnswers T) (leg : RoomLeg T) : RoomLeg T :=
  if leg.active.any fun room => room.name = name then
    leg.tell [.roomSelected name,.roomLink .ready]
  else
    let leg := tell (retraction ++ [.roomLink .connecting]) { leg with active := none }
    match answers.opened with
    | .ok () =>
      tell (answers.notices.map RoomNotice.event ++ [.roomSelected name,.roomLink .ready])
        { leg with active := some ⟨name,leg.openings,none⟩, openings := leg.openings+1 }
    | .error error =>
      leg.tell (answers.notices.map RoomNotice.event ++
        [.roomLink .failed,.diagnostic s!"could not join Iroh room: {error}"])

def leave (leg : RoomLeg T) : RoomLeg T :=
  let left := leg.active.elim [] fun room => [.diagnostic s!"left Iroh room {room.name}"]
  tell (left ++ retraction ++ [.roomLink .offline]) { leg with active := none }

def prepareBoardProvisioning (binding : BoardSessionBinding) (prepared : Except String Bytes)
    (leg : RoomLeg T) : RoomLeg T :=
  match leg.active with
  | none =>
    leg.tell [.boardProvisioningFailed binding
      "no active room is available for board provisioning"]
  | some room =>
    match prepared with
    | .ok bundle =>
      leg.tell [.boardCapabilityBundlePrepared binding ⟨bundle,some room.opening⟩]
    | .error reason => leg.tell [.boardProvisioningFailed binding reason]

def stop (leg : RoomLeg T) : RoomLeg T :=
  tell (retraction ++ [.roomLink .offline]) { leg with active := none, running := false }

/-- The loop's arms; what an edit admits and reports is a matter of the replica alone. -/
def handle (answers : DriverAnswers T) (leg : RoomLeg T) : DriverCommand T → RoomLeg T
  | .configureIdentity identitySeed =>
    if leg.active.isSome then
      leg.tell [.diagnostic "native room identity can only change before joining a room"]
    else { leg with identitySeed }
  | .join name => leg.join name answers
  | .leave => leg.leave
  | .prepareBoardProvisioning binding => leg.prepareBoardProvisioning binding answers.prepared
  | .startBoardRepair binding =>
    (leg.noteStart binding).repairArm binding "start"
      fun leg => leg.startBoardRepair binding answers.attempt
  | .observeBoardRepairFrame binding _ =>
    leg.repairArm binding "receive"
      fun leg => leg.observeBoardRepairFrame binding answers.attempt answers.notices
  | .confirmBoardRepairClose binding =>
    leg.repairArm binding "close confirmation"
      fun leg => leg.confirmBoardRepairClose binding answers
  | .abortBoardRepair binding => leg.abortBoardRepair binding
  | .send _ | .roundTable _ | .boardEdit _ _ _ _ | .pitchEdit _ _ _ =>
    leg.tell (answers.notices.map RoomNotice.event)
  | .shutdown => leg.stop

/-- A handler runs to its end before the next command is taken. -/
def drive (answers : DriverAnswers T) (leg : RoomLeg T) : RoomLeg T :=
  if leg.running = false ∨ leg.outgoing ≠ [] then leg
  else if leg.stopping then leg.stop
  else
    match leg.commands with
    | [] => leg
    | command :: commands => handle answers { leg with commands } command

/-- The room's network stopped by itself. -/
def lose (leg : RoomLeg T) : RoomLeg T :=
  if leg.active.isNone ∨ leg.outgoing ≠ [] then leg
  else
    tell ([.roomLink .failed,.diagnostic "Iroh room transport stopped"] ++ retraction)
      { leg with active := none }

/-- What peers and finished repairs of the room let the driver report. -/
def observe (notices : List (RoomNotice T)) (leg : RoomLeg T) : RoomLeg T :=
  if leg.active.isNone ∨ leg.outgoing ≠ [] then leg
  else leg.tell (notices.map RoomNotice.event)

/-- The next event of the running handler is placed, or finds no room. -/
def emit (leg : RoomLeg T) : RoomLeg T :=
  match leg.outgoing with
  | [] => leg
  | egress :: outgoing =>
    if leg.events.length < eventCapacity then
      { leg with outgoing, events := leg.events ++ [egress.event] }
    else if egress.required then { leg with outgoing }
    else
      match egress.event with
      | .pitchIntentOutcome token _ =>
        { leg with outgoing, abandonedThrough := max leg.abandonedThrough token }
      | _ => { leg with outgoing, droppedEvents := leg.droppedEvents+1 }

def command (command : DriverCommand T) : EStateM BridgeError (RoomLeg T) Unit := fun leg =>
  if leg.running = false then .error (.unavailable "native room worker has stopped") leg
  else if leg.commands.length < commandCapacity then
    .ok () { leg with commands := leg.commands ++ [command] }
  else .error (.queueFull "native room command") leg

def editCommand (token : Nat) (edit : DriverCommand T) : EStateM BridgeError (RoomLeg T) Unit := do
  command edit
  modify fun leg => { leg with highestQueued := max leg.highestQueued token }

def handleCommand : BridgeCommand T → EStateM BridgeError (RoomLeg T) Unit
  | .configureRoomIdentity identitySeed => command (.configureIdentity identitySeed)
  | .selectRoom name => command (.join name)
  | .leaveRoom => command .leave
  | .prepareBoardProvisioning binding => command (.prepareBoardProvisioning binding)
  | .startBoardRepair binding => do
    modify (noteStart binding)
    command (.startBoardRepair binding)
  | .observeBoardRepairFrame binding frame => command (.observeBoardRepairFrame binding frame)
  | .confirmBoardRepairClose binding => command (.confirmBoardRepairClose binding)
  | .abortBoardRepair binding => command (.abortBoardRepair binding)
  | .completeBoardRepair _ =>
    throw (.unavailable "the native room leg cannot complete the board carrier")
  | .publishRoundTable frame => command (.roundTable frame)
  | .publishBoardEdit token frame settings pitchEdits =>
    editCommand token (.boardEdit token frame settings pitchEdits)
  | .setSharedPitch token pitch active => editCommand token (.pitchEdit token pitch active)
  | _ => throw (.unavailable "command does not belong to the native room leg")

def sendRealtime (toMidi : T.Midi → Except String T.Midi) (midi : T.Midi) :
    EStateM BridgeError (RoomLeg T) Unit :=
  match toMidi midi with
  | .ok midi => command (.send midi)
  | .error reason => throw (.transport reason)

def pollEvent (leg : RoomLeg T) : Option (TransportEvent T) × RoomLeg T :=
  if leg.abandonedThrough ≠ 0 then
    (some (.pitchIntentReset leg.abandonedThrough),{ leg with abandonedThrough := 0 })
  else
    match leg.events with
    | event :: events => (some event,{ leg with events })
    | [] =>
      if leg.running ∨ leg.outgoing ≠ [] then
        if leg.droppedEvents ≠ 0 then
          (some (.diagnostic s!"native room event queue dropped {leg.droppedEvents} values"),
            { leg with droppedEvents := 0 })
        else (none,leg)
      else if leg.disconnectReported = false then
        (some (.pitchIntentReset leg.highestQueued),{ leg with disconnectReported := true })
      else (none,leg)

def shutdown (leg : RoomLeg T) : RoomLeg T :=
  let commands := if leg.commands.length < commandCapacity then leg.commands ++ [.shutdown]
    else leg.commands
  { leg with stopping := true, commands }

end RoomLeg

/-- Events that a leg makes up while it is polled. -/
def TransportEvent.Idle : TransportEvent T → Prop
  | .pitchIntentReset _ | .diagnostic _ => True
  | _ => False

namespace RoomLeg

/-- What is on its way to the router, the next event first. -/
def line (leg : RoomLeg T) : List (TransportEvent T) :=
  leg.events ++ leg.outgoing.map Egress.event

/-- The legs differ in counters alone. -/
structure SameRoom (leg leg' : RoomLeg T) : Prop where
  commands : leg'.commands = leg.commands
  line : leg'.line = leg.line
  active : leg'.active = leg.active
  starts : leg'.starts = leg.starts

theorem pollEvent_line (leg : RoomLeg T) :
    (∃ event, leg.pollEvent.1 = some event ∧ leg.line = event :: leg.pollEvent.2.line ∧
      leg.pollEvent.2.commands = leg.commands ∧ leg.pollEvent.2.active = leg.active ∧
      leg.pollEvent.2.starts = leg.starts) ∨
    SameRoom leg leg.pollEvent.2 ∧ ∀ event, leg.pollEvent.1 = some event → event.Idle := by
  have hidle : ∀ event : TransportEvent T, (none : Option (TransportEvent T)) = some event →
      event.Idle := by simp
  unfold pollEvent
  split
  · refine .inr ⟨⟨rfl,rfl,rfl,rfl⟩,fun event hevent => ?_⟩
    cases hevent
    trivial
  split
  · rename_i event events hevents
    exact .inl ⟨event,rfl,by simp [line,hevents],rfl,rfl,rfl⟩
  split
  · split
    · refine .inr ⟨⟨rfl,rfl,rfl,rfl⟩,fun event hevent => ?_⟩
      cases hevent
      trivial
    · exact .inr ⟨⟨rfl,rfl,rfl,rfl⟩,hidle⟩
  split
  · refine .inr ⟨⟨rfl,rfl,rfl,rfl⟩,fun event hevent => ?_⟩
    cases hevent
    trivial
  · exact .inr ⟨⟨rfl,rfl,rfl,rfl⟩,hidle⟩

end RoomLeg

def roomLeg (toMidi : T.Midi → Except String T.Midi) : BridgeTransport T (RoomLeg T) where
  start := pure ()
  handleCommand := RoomLeg.handleCommand
  sendRealtime := RoomLeg.sendRealtime toMidi
  pollEvent := RoomLeg.pollEvent
  shutdown := RoomLeg.shutdown

end WalkieSongie.Carrier
