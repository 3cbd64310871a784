import WalkieSongie.CarrierEvents
set_option autoImplicit false

/-!
The router between the room's leg and the board's leg of the bridge.
-/

namespace WalkieSongie.Carrier
open Bridge (LinkState)

def pendingEventCapacity : Nat := 64

inductive CarrierLegKind where
  | room
  | board
  deriving DecidableEq

variable (T : RealtimeTypes)

/-- A command that a leg was asked for: after these events of the legs, and for the sake of the last
of them or, where there is none, for the application. -/
structure Asked where
  leg : CarrierLegKind
  command : BridgeCommand T
  polled : List (CarrierLegKind × TransportEvent T)
  routing : Option (CarrierLegKind × TransportEvent T)

/-- The router, with what it polled and asked so far. -/
structure CompositeTransport (Room Board : Type) where
  room : Room
  board : Board
  pending : List (TransportEvent T) := []
  pollRoomFirst : Bool := true
  roomReady : Bool := false
  boardBinding : Option BoardSessionBinding := none
  provisioningRequested : Option BoardSessionBinding := none
  polled : List (CarrierLegKind × TransportEvent T) := []
  asked : List (Asked T) := []

variable {T} {Room Board : Type}

namespace CompositeTransport

section Legs

variable (roomLeg : BridgeTransport T Room) (boardLeg : BridgeTransport T Board)

def askRoom (routing : Option (CarrierLegKind × TransportEvent T)) (command : BridgeCommand T)
    (router : CompositeTransport T Room Board) :
    Option BridgeError × CompositeTransport T Room Board :=
  let asked := router.asked ++ [⟨.room,command,router.polled,routing⟩]
  match roomLeg.handleCommand command router.room with
  | .ok () room => (none,{ router with room, asked })
  | .error error room => (some error,{ router with room, asked })

def askBoard (routing : Option (CarrierLegKind × TransportEvent T)) (command : BridgeCommand T)
    (router : CompositeTransport T Room Board) :
    Option BridgeError × CompositeTransport T Room Board :=
  let asked := router.asked ++ [⟨.board,command,router.polled,routing⟩]
  match boardLeg.handleCommand command router.board with
  | .ok () board => (none,{ router with board, asked })
  | .error error board => (some error,{ router with board, asked })

/-- The oldest pending event gives way to a new one. -/
def push (event : TransportEvent T) (router : CompositeTransport T Room Board) :
    CompositeTransport T Room Board :=
  let pending := if router.pending.length = pendingEventCapacity then router.pending.tail
    else router.pending
  { router with pending := pending ++ [event] }

def diagnostic (leg : String) (error : BridgeError) (router : CompositeTransport T Room Board) :
    CompositeTransport T Room Board :=
  match error with
  | .unavailable _ => router
  | error => router.push (.diagnostic s!"{leg}: {error.text}")

def requestBoardProvisioning (routing : CarrierLegKind × TransportEvent T)
    (router : CompositeTransport T Room Board) : CompositeTransport T Room Board :=
  match router.boardBinding with
  | none => router
  | some binding =>
    if router.roomReady = false ∨ router.provisioningRequested = some binding then router
    else
      match router.askRoom roomLeg (some routing) (.prepareBoardProvisioning binding) with
      | (none,router) => { router with provisioningRequested := some binding }
      | (some error,router) => router.diagnostic "room provisioning" error

def fenceBoardRepair (routing : CarrierLegKind × TransportEvent T) (binding : BoardSessionBinding)
    (leg : String) (error : BridgeError) (router : CompositeTransport T Room Board) :
    CompositeTransport T Room Board :=
  if router.boardBinding ≠ some binding then router
  else
    let router := (router.askRoom roomLeg (some routing) (.abortBoardRepair binding)).2
    let router := (router.askBoard boardLeg (some routing) (.abortBoardRepair binding)).2
    router.diagnostic leg error

/-- A command for the board about the binding in force; an event about another one is ignored. -/
def relayToBoard (routing : CarrierLegKind × TransportEvent T) (binding : BoardSessionBinding)
    (command : BridgeCommand T)
    (failed : BridgeError → CompositeTransport T Room Board → CompositeTransport T Room Board)
    (router : CompositeTransport T Room Board) : CompositeTransport T Room Board :=
  if router.boardBinding = some binding then
    match router.askBoard boardLeg (some routing) command with
    | (none,router) => router
    | (some error,router) => failed error router
  else router

def relayToRoom (routing : CarrierLegKind × TransportEvent T) (binding : BoardSessionBinding)
    (command : BridgeCommand T)
    (failed : BridgeError → CompositeTransport T Room Board → CompositeTransport T Room Board)
    (router : CompositeTransport T Room Board) : CompositeTransport T Room Board :=
  if router.boardBinding = some binding then
    match router.askRoom roomLeg (some routing) command with
    | (none,router) => router
    | (some error,router) => failed error router
  else router

def routeRoomEvent (event : TransportEvent T) (router : CompositeTransport T Room Board) :
    TransportEvent T × CompositeTransport T Room Board :=
  let routing := (CarrierLegKind.room,event)
  let fence := fenceBoardRepair roomLeg boardLeg routing
  let router :=
    match event with
    | .roomLink .ready =>
      requestBoardProvisioning roomLeg routing
        { router with roomReady := true, provisioningRequested := none }
    | .roomLink _ => { router with roomReady := false, provisioningRequested := none }
    | .roomSelected _ =>
      requestBoardProvisioning roomLeg routing { router with provisioningRequested := none }
    | .boardCapabilityBundlePrepared binding bundle =>
      router.relayToBoard boardLeg routing binding (.sendBoardCapabilityBundle binding bundle)
        fun error router =>
          { router with provisioningRequested := none }.diagnostic "board provisioning" error
    | .boardProvisioningFailed binding _ =>
      if router.boardBinding = some binding then { router with provisioningRequested := none }
      else router
    | .boardRepairOutbound binding frame =>
      router.relayToBoard boardLeg routing binding (.sendBoardRepairFrame binding frame)
        (fence binding "board repair output")
    | .boardRepairTerminal binding =>
      router.relayToBoard boardLeg routing binding (.finishBoardRepair binding)
        (fence binding "board repair close")
    | .boardRepairFailed binding _ =>
      router.relayToBoard boardLeg routing binding (.abortBoardRepair binding)
        (diagnostic "board repair failure fence")
    | .boardRepairSynchronized binding =>
      router.relayToBoard boardLeg routing binding.value (.completeBoardRepair binding)
        (fence binding.value "board repair completion")
    | .midi midi =>
      match boardLeg.sendRealtime midi router.board with
      | .ok () board => { router with board }
      | .error error board => { router with board }.diagnostic "board forwarding" error
    | _ => router
  (event,router)

/-- The binding is over, and the room gives up its attempt for it. -/
def clearBinding (routing : CarrierLegKind × TransportEvent T)
    (router : CompositeTransport T Room Board) : CompositeTransport T Room Board :=
  let router :=
    match router.boardBinding with
    | none => router
    | some binding =>
      match router.askRoom roomLeg (some routing) (.abortBoardRepair binding) with
      | (none,router) => router
      | (some error,router) => router.diagnostic "board repair abandonment" error
  { router with boardBinding := none, provisioningRequested := none }

/-- A round-table frame of the board reaches the core before the room. -/
def routeBoardEvent (event : TransportEvent T) (router : CompositeTransport T Room Board) :
    TransportEvent T × CompositeTransport T Room Board :=
  let routing := (CarrierLegKind.board,event)
  let fence := fenceBoardRepair roomLeg boardLeg routing
  match event with
  | .boardProvisioningRequired binding =>
    (event,requestBoardProvisioning roomLeg routing
      { router with boardBinding := some binding, provisioningRequested := none })
  | .boardProvisioned binding =>
    (event,if router.boardBinding ≠ some binding then
        router.diagnostic "board provisioning"
          (.transport "stale board provisioning completion was ignored")
      else router.relayToRoom roomLeg routing binding (.startBoardRepair binding)
        (fence binding "board repair start"))
  | .boardRepairInbound binding frame =>
    (event,router.relayToRoom roomLeg routing binding (.observeBoardRepairFrame binding frame)
      (fence binding "board repair input"))
  | .boardRepairCarrierClosed binding =>
    (event,router.relayToRoom roomLeg routing binding (.confirmBoardRepairClose binding)
      (fence binding "board repair confirmation"))
  | .boardLink link =>
    (event,if link = .ready ∨ link = .repairing then router
      else router.clearBinding roomLeg routing)
  | .midi midi =>
    (event,match roomLeg.sendRealtime midi router.room with
      | .ok () room => { router with room }
      | .error error room => { router with room }.diagnostic "room forwarding" error)
  | .roundTable frame => (.boardRoundTable frame,router)
  | event => (event,router)

def startFailed (leg : CarrierLegKind) (error : BridgeError)
    (router : CompositeTransport T Room Board) : CompositeTransport T Room Board :=
  match leg with
  | .room => (router.push (.roomLink .failed)).push (.diagnostic s!"Room startup: {error.text}")
  | .board => (router.push (.boardLink .failed)).push (.diagnostic s!"Board startup: {error.text}")

/-- Both legs are started before a failure of either is reported. -/
def start (router : CompositeTransport T Room Board) : CompositeTransport T Room Board :=
  let (roomError,room) := match roomLeg.start router.room with
    | .ok () room => (none,room)
    | .error error room => (some error,room)
  let (boardError,board) := match boardLeg.start router.board with
    | .ok () board => (none,board)
    | .error error board => (some error,board)
  let router := { router with room, board }
  let router := match roomError with
    | none => router
    | some error => router.startFailed .room error
  match boardError with
  | none => router
  | some error => router.startFailed .board error

def legOf : BridgeCommand T → CarrierLegKind
  | .configureRoomIdentity _ | .selectRoom _ | .leaveRoom | .prepareBoardProvisioning _
  | .startBoardRepair _ | .observeBoardRepairFrame _ _ | .confirmBoardRepairClose _
  | .abortBoardRepair _ | .publishRoundTable _ | .publishBoardEdit _ _ _ _
  | .setSharedPitch _ _ _ => .room
  | _ => .board

def handleCommand (command : BridgeCommand T) (router : CompositeTransport T Room Board) :
    Option BridgeError × CompositeTransport T Room Board :=
  match legOf command with
  | .room => router.askRoom roomLeg none command
  | .board => router.askBoard boardLeg none command

def sendRealtime (midi : T.Midi) (router : CompositeTransport T Room Board) :
    Option BridgeError × CompositeTransport T Room Board :=
  let (roomError,room) := match roomLeg.sendRealtime midi router.room with
    | .ok () room => (none,room)
    | .error error room => (some error,room)
  let (boardError,board) := match boardLeg.sendRealtime midi router.board with
    | .ok () board => (none,board)
    | .error error board => (some error,board)
  let router := { router with room, board }
  match roomError,boardError with
  | some (.unavailable _),some _ => (none,router)
  | some error,some _ => (some error,router)
  | _,_ => (none,router)

/-- The next event of the legs, the room's first or the board's first. -/
def pollLegs (router : CompositeTransport T Room Board) :
    Option (CarrierLegKind × TransportEvent T) × CompositeTransport T Room Board :=
  if router.pollRoomFirst then
    match roomLeg.pollEvent router.room with
    | (some event,room) => (some (.room,event),{ router with room })
    | (none,room) =>
      let (event,board) := boardLeg.pollEvent router.board
      (event.map (.board,·),{ router with room, board })
  else
    match boardLeg.pollEvent router.board with
    | (some event,board) => (some (.board,event),{ router with board })
    | (none,board) =>
      let (event,room) := roomLeg.pollEvent router.room
      (event.map (.room,·),{ router with room, board })

def pollEvent (router : CompositeTransport T Room Board) :
    Option (TransportEvent T) × CompositeTransport T Room Board :=
  match router.pending with
  | event :: pending => (some event,{ router with pending })
  | [] =>
    match router.pollLegs roomLeg boardLeg with
    | (none,router) => (none,router)
    | (some polled,router) =>
      let router := { router with
        pollRoomFirst := !router.pollRoomFirst
        polled := router.polled ++ [polled] }
      let (event,router) := match polled.1 with
        | .room => router.routeRoomEvent roomLeg boardLeg polled.2
        | .board => router.routeBoardEvent roomLeg boardLeg polled.2
      (some event,router)

def shutdown (router : CompositeTransport T Room Board) : CompositeTransport T Room Board :=
  { router with
    room := roomLeg.shutdown router.room
    board := boardLeg.shutdown router.board }

end Legs

end CompositeTransport

end WalkieSongie.Carrier
