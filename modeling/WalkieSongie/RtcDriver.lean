import WalkieSongie.RtcTransport
set_option autoImplicit false

/-!
What the driver makes of a command and of what the browser tells it, what the callbacks of a
connection do at any time, and what iroh and the rendezvous task ask for.
-/

namespace WalkieSongie.Net.WebRtc

/-- What a handler finds outside: the attempt that is drawn, and whether the browser gives a new
connection. -/
structure Choice where
  attempt : RtcAttempt
  constructed : Bool

/-- What a promise ends in; a description is there where one was to be created. -/
inductive Outcome where
  | fulfilled (sdp : Option String)
  | rejected

namespace Transport

variable (t : Transport)

/-- The cached offer of a link whose channel is not open. -/
def retry (peer : EndpointId) : Option (RtcAttempt × String) :=
  match t.links.get? peer with
  | some link =>
    if link.channel.any fun channel => channel.readyState = .open then none
    else link.offerSdp.map fun sdp => (link.attempt,sdp)
  | none => none

def handleDial (choice : Choice) (acknowledged : Option Acknowledgement) (peer : EndpointId) :
    Transport :=
  if peer = t.localId then t.finish acknowledged
  else if !localIsOfferer t.localId peer then t.finish acknowledged
  else
    match t.retry peer with
    | some (attempt,sdp) => (t.publish peer (.offer attempt sdp)).finish acknowledged
    | none =>
      if (t.currentAttempt peer).isSome then t.finish acknowledged
      else
        match t.ensureLink choice.constructed peer choice.attempt true with
        | (some (pc,true),t) => t.ask ⟨peer,choice.attempt,pc,.createOffer,acknowledged⟩
        | (_,t) => t.finish acknowledged

/-- The part of an offer after its link is there: an exact duplicate gets the cached answer. -/
def answerOffer (sender : EndpointId) (attempt : RtcAttempt) (sdp : String)
    (pc : RtcPeerConnection) : Transport :=
  let t := t.adoptEarlyIce sender attempt
  match (t.linkOf sender attempt).bind PeerLink.answerSdp with
  | some answer => (t.publish sender (.answer attempt answer)).finish none
  | none => t.ask ⟨sender,attempt,pc,.setRemoteOffer sdp,none⟩

def handleOffer (choice : Choice) (sender : EndpointId) (attempt : RtcAttempt) (sdp : String) :
    Transport :=
  if !localIsOfferer sender t.localId then t.finish none
  else
    match (t.retireOther sender (some attempt)).ensureLink choice.constructed sender attempt false
      with
    | (some (pc,_),t) => t.answerOffer sender attempt sdp pc
    | (none,t) => t.finish none

/-- An answer is applied only where one is awaited. -/
def handleAnswer (sender : EndpointId) (attempt : RtcAttempt) (sdp : String) : Transport :=
  if !localIsOfferer t.localId sender then t.finish none
  else
    match t.linkOf sender attempt with
    | some link =>
      if (t.browser link.pc).signaling ≠ .haveLocalOffer then t.finish none
      else t.ask ⟨sender,attempt,link.pc,.setRemoteAnswer sdp,none⟩
    | none => t.finish none

def handleIce (sender : EndpointId) (attempt : RtcAttempt) (candidate : IceCandidate) :
    Transport :=
  match t.linkOf sender attempt with
  | some link =>
    if link.remoteDescSet then t.ask ⟨sender,attempt,link.pc,.addIce candidate,none⟩
    else (t.bufferIce sender attempt candidate).finish none
  | none => (t.bufferEarlyIce sender attempt candidate).finish none

def handleSignal (choice : Choice) (sender : EndpointId) (payload : RtcPayload) : Transport :=
  let t := { t with handled := t.handled ++ [(sender,payload)] }
  if sender = t.localId then t.finish none
  else
    match payload with
    | .offer attempt sdp => t.handleOffer choice sender attempt sdp
    | .answer attempt sdp => t.handleAnswer sender attempt sdp
    | .ice attempt candidate => t.handleIce sender attempt candidate

/-- A command, as far as the first promise that it awaits. -/
def handle (choice : Choice) : Command → Transport
  | .dial peer => t.handleDial choice none peer
  | .peerReincarnated peer acknowledged =>
    (t.retireOther peer none).handleDial choice (some (acknowledged,t.currentAttempt peer)) peer
  | .signal sender payload => t.handleSignal choice sender payload
  | .linkTerminal peer attempt =>
    if t.attemptIsCurrent peer attempt then
      (t.retireLink peer attempt).handleDial choice none peer
    else t.finish none

/-! ### After a promise -/

def flushNext (task : Task) (answering : Bool) : List IceCandidate → Transport
  | candidate :: rest => t.ask { task with stage := .flush candidate rest answering }
  | [] =>
    if answering then t.ask { task with stage := .createAnswer } else t.finish task.acknowledged

def flushAfterRemoteDesc (task : Task) (answering : Bool) : Transport :=
  let pending := ((t.linkOf task.peer task.attempt).map PeerLink.pendingIce).getD []
  let t := t.updateLink task.peer task.attempt fun link =>
    { link with remoteDescSet := true, pendingIce := [] }
  t.flushNext task answering pending

/-- The offer is cached and published, where its link is still there. -/
def offered (task : Task) : Option String → Transport
  | some sdp =>
    if (t.linkOf task.peer task.attempt).isSome then
      ((t.updateLink task.peer task.attempt fun link => { link with offerSdp := some sdp }).publish
        task.peer (.offer task.attempt sdp)).finish task.acknowledged
    else t.finish task.acknowledged
  | none => (t.retireLink task.peer task.attempt).finish task.acknowledged

def answered (task : Task) : Option String → Transport
  | some sdp =>
    if (t.linkOf task.peer task.attempt).isSome then
      ((t.updateLink task.peer task.attempt fun link => { link with answerSdp := some sdp }).publish
        task.peer (.answer task.attempt sdp)).finish task.acknowledged
    else t.finish task.acknowledged
  | none => t.finish task.acknowledged

def fulfilled (task : Task) (sdp : Option String) : Transport :=
  let t := t.settle task.pc task.stage.call
  match task.stage with
  | .createOffer => t.ask { task with stage := .setLocalOffer sdp }
  | .setLocalOffer offer => t.offered task offer
  | .setRemoteOffer _ => t.flushAfterRemoteDesc task true
  | .flush _ rest answering => t.flushNext task answering rest
  | .createAnswer => t.ask { task with stage := .setLocalAnswer sdp }
  | .setLocalAnswer answer => t.answered task answer
  | .setRemoteAnswer _ => t.flushAfterRemoteDesc task false
  | .addIce _ => t.finish task.acknowledged

def rejected (task : Task) : Transport :=
  match task.stage with
  | .flush _ rest answering => t.flushNext task answering rest
  | .addIce _ => t.finish task.acknowledged
  | .createOffer | .setLocalOffer _ | .setRemoteOffer _ | .createAnswer | .setLocalAnswer _
  | .setRemoteAnswer _ => (t.retireLink task.peer task.attempt).finish task.acknowledged

def resume (task : Task) : Outcome → Transport
  | .fulfilled sdp => t.fulfilled task sdp
  | .rejected => t.rejected task

/-! ### Callbacks -/

/-- `onmessage` of the datagram channel. -/
def onMessage (pc : RtcPeerConnection) (bytes : List UInt8) : Transport :=
  if t.attemptIsCurrent pc.peer pc.attempt then
    { t with recvQueue := t.recvQueue ++ [(pc.peer,bytes)], recvWaker := false }
  else t

/-- `onmessage` of the session channel: a full queue drops the frame. -/
def onSessionMessage (pc : RtcPeerConnection) (bytes : List UInt8) : Transport :=
  if t.attemptIsCurrent pc.peer pc.attempt ∧ bytes.length ≤ maxDirectSessionFrameBytes then
    { t with directSessions := (t.directSessions.push ⟨pc.peer,bytes⟩).getD t.directSessions }
  else t

def onOpen (pc : RtcPeerConnection) : Transport :=
  if t.attemptIsCurrent pc.peer pc.attempt then
    { t with ready := t.ready ++ [⟨pc.peer,pc.attempt⟩] }
  else t

/-- The connection has failed or is closed. -/
def onTerminal (pc : RtcPeerConnection) : Transport :=
  { t with commands := t.commands ++ [.linkTerminal pc.peer pc.attempt] }

/-- A channel that the offerer has created arrives at the answerer. -/
def attachIncomingChannel (pc : RtcPeerConnection) (label : String) (channel : RtcDataChannel) :
    Transport :=
  if label = "walkie/iroh-quic/2" then
    t.updateLink pc.peer pc.attempt fun link => { link with channel := some channel }
  else if label = "walkie/session-carrier/1" then
    t.updateLink pc.peer pc.attempt fun link => { link with sessionChannel := some channel }
  else t

def onIceCandidate (pc : RtcPeerConnection) (candidate : IceCandidate) : Transport :=
  t.publish pc.peer (.ice pc.attempt candidate)

/-! ### Polls -/

def isConnected (peer : EndpointId) : Bool :=
  ((t.links.get? peer).bind PeerLink.channel).any fun channel => channel.readyState = .open

/-- A packet is written in segments; without an open channel it is dropped, and one dial is asked
for. -/
def pollSend (peer : EndpointId) (contents : List UInt8) (segmentSize : Option Nat) : Transport :=
  let segment := max (segmentSize.getD contents.length) 1
  if t.isConnected peer then
    { t with written := t.written ++ (contents.toChunks segment).map fun chunk => (peer,chunk) }
  else if (t.links.get? peer).isNone ∧ peer ∉ t.dialing then
    { t with
      dialing := insert peer t.dialing
      commands := t.commands ++ [.dial peer]
      lazyDials := t.lazyDials ++ [peer] }
  else t

/-- The datagrams that fit into buffers of these sizes, as long as each does, and those left. -/
def takeFitting : List Nat → List (EndpointId × List UInt8) →
    List (EndpointId × List UInt8) × List (EndpointId × List UInt8)
  | size :: sizes, datagram :: queue =>
    if size < datagram.2.length then ([],datagram :: queue)
    else
      let (taken,left) := takeFitting sizes queue
      (datagram :: taken,left)
  | [], queue => ([],queue)
  | _ :: _, [] => ([],[])

def pollRecv (sizes : List Nat) : List (EndpointId × List UInt8) × Transport :=
  let (taken,left) := takeFitting sizes t.recvQueue
  (taken,{ t with recvQueue := left, recvWaker := t.recvWaker || (taken = [] && sizes ≠ []) })

end Transport

inductive Event where
  /-- The rendezvous task asks for something. -/
  | command (command : Command)
  /-- The driver takes its next command. -/
  | next (choice : Choice)
  | resolve (outcome : Outcome)
  | message (pc : RtcPeerConnection) (bytes : List UInt8)
  | sessionMessage (pc : RtcPeerConnection) (bytes : List UInt8)
  | opened (pc : RtcPeerConnection)
  | terminal (pc : RtcPeerConnection)
  | dataChannel (pc : RtcPeerConnection) (label : String) (channel : RtcDataChannel)
  | iceCandidate (pc : RtcPeerConnection) (candidate : IceCandidate)
  /-- The browser's channels of a link change by themselves. -/
  | channels (peer : EndpointId) (channel sessionChannel : RtcDataChannel → RtcDataChannel)
  | send (peer : EndpointId) (contents : List UInt8) (segmentSize : Option Nat)
  | receive (sizes : List Nat)
  | takeSession

namespace Event

/-- Callbacks are those of connections that were made; only the answerer is given channels, and only
the callbacks tell that a link is terminal. -/
def allowed (t : Transport) : Event → Prop
  | command (.linkTerminal _ _) => False
  | message pc _ | sessionMessage pc _ | opened pc | terminal pc | iceCandidate pc _ =>
    pc ∈ t.made
  | dataChannel pc _ _ => pc ∈ t.made ∧ pc.offerer = false
  | _ => True

instance (t : Transport) : (event : Event) → Decidable (event.allowed t)
  | command (.linkTerminal _ _) => isFalse id
  | command (.dial _) | command (.peerReincarnated _ _) | command (.signal _ _) | next _
  | resolve _ | channels _ _ _ | send _ _ _ | receive _ | takeSession => isTrue trivial
  | message pc _ | sessionMessage pc _ | opened pc | terminal pc | iceCandidate pc _ =>
    inferInstanceAs (Decidable (pc ∈ t.made))
  | dataChannel pc _ _ => inferInstanceAs (Decidable (pc ∈ t.made ∧ pc.offerer = false))

end Event

namespace Transport

def step (t : Transport) : Event → Option Transport
  | .command command => some { t with commands := t.commands ++ [command] }
  | .next choice =>
    match t.task,t.commands with
    | none,command :: commands => some ({ t with commands }.handle choice command)
    | _,_ => none
  | .resolve outcome => t.task.map fun task => t.resume task outcome
  | .message pc bytes => some (t.onMessage pc bytes)
  | .sessionMessage pc bytes => some (t.onSessionMessage pc bytes)
  | .opened pc => some (t.onOpen pc)
  | .terminal pc => some (t.onTerminal pc)
  | .dataChannel pc label channel => some (t.attachIncomingChannel pc label channel)
  | .iceCandidate pc candidate => some (t.onIceCandidate pc candidate)
  | .channels peer channel sessionChannel =>
    some { t with
      links := t.links.mapValues fun other link =>
        if other = peer then
          { link with
            channel := link.channel.map channel
            sessionChannel := link.sessionChannel.map sessionChannel }
        else link }
  | .send peer contents segmentSize => some (t.pollSend peer contents segmentSize)
  | .receive sizes => some (t.pollRecv sizes).2
  | .takeSession =>
    some { t with directSessions := (t.directSessions.pop.map Prod.snd).getD t.directSessions }

def after : List Event → Transport → Option Transport
  | [], t => some t
  | event :: events, t => if event.allowed t then (t.step event).bind (after events) else none

end Transport

end WalkieSongie.Net.WebRtc
