import Mathlib.Data.Finset.Card
import WalkieSongie.KeyedMap
set_option autoImplicit false

/-!
The rendezvous task of a room: signaling sessions that come and go, the peers discovered in all of
them, and the children that a session owns. A native build has no WebRTC port.
-/

namespace WalkieSongie.Net

abbrev EndpointId := Nat
abbrev RtcIncarnation := Vector UInt8 8

structure HelloV5 where
  kind : String
  v : UInt32
  support : UInt8
  id : String
  relay : Option String
  rtc : Option Bool
  rtcIncarnation : Option RtcIncarnation

structure RtcEnvelope (Payload : Type) where
  kind : String
  v : UInt32
  sender : String
  recipient : String
  payload : Payload

inductive ServerMessage (Json : Type) where
  | publish (data : Json)
  | ping
  | other

/-- What the task takes from the JSON and the endpoint crates. -/
structure SignalLibrary where
  Json : Type
  Payload : Type
  RelayUrl : Type
  kind : Json → Option String
  readMessage : String → Option (ServerMessage Json)
  readHello : Json → Option HelloV5
  readEnvelope : Json → Option (RtcEnvelope Payload)
  parseEndpoint : String → Option EndpointId
  endpointText : EndpointId → String
  parseRelay : String → Option RelayUrl

def helloKind : String := "walkie-hello"
def helloVersionV5 : UInt32 := 5
def rtcKind : String := "walkie-rtc"
def rtcVersion : UInt32 := 2
def rtcIncarnationsRememberedPerPeer : Nat := 8
def maxRendezvousPeers : Nat := 64

def supportWalkie : UInt8 := 0x01 ||| 0x02

def supportFromBits (bits : UInt8) : Option UInt8 :=
  if bits = 0 ∨ bits &&& ~~~supportWalkie ≠ 0 then none else some bits

def HelloV5.new (support : UInt8) (id : String) (relay : Option String) (rtc : Option Bool)
    (rtcIncarnation : Option RtcIncarnation) : HelloV5 where
  kind := helloKind
  v := helloVersionV5
  support
  id
  relay
  rtc
  rtcIncarnation

def HelloV5.validate (hello : HelloV5) : Option UInt8 :=
  if hello.kind ≠ helloKind ∨ hello.v ≠ helloVersionV5 then none
  else supportFromBits hello.support

inductive IncarnationObservation where
  | first
  | known
  | reincarnated
  | capacityRefused
  deriving DecidableEq

structure RtcIncarnationTracker where
  seen : KeyedMap EndpointId (List RtcIncarnation) := .empty

def RtcIncarnationTracker.observe (peer : EndpointId) (incarnation : RtcIncarnation)
    (tracker : RtcIncarnationTracker) : IncarnationObservation × RtcIncarnationTracker :=
  if (tracker.seen.get? peer).isNone ∧ maxRendezvousPeers ≤ tracker.seen.entries.length then
    (.capacityRefused,tracker)
  else
    let values := (tracker.seen.get? peer).getD []
    if incarnation ∈ values then (.known,tracker)
    else
      let kept := values ++ [incarnation]
      let kept := if rtcIncarnationsRememberedPerPeer < kept.length then kept.tail else kept
      (if values = [] then .first else .reincarnated,{ seen := tracker.seen.insert peer kept })

/-- Only a hello that offers WebRTC tells its incarnation. -/
def RtcIncarnationTracker.observeHello (peer : EndpointId) (hello : HelloV5)
    (tracker : RtcIncarnationTracker) : Bool × RtcIncarnationTracker :=
  match hello.rtc,hello.rtcIncarnation with
  | some true,some incarnation =>
    let (observation,tracker) := tracker.observe peer incarnation
    (observation = .reincarnated,tracker)
  | _,_ => (false,tracker)

variable (L : SignalLibrary)

structure EndpointAddr where
  id : EndpointId
  relay : Option L.RelayUrl
  custom : Bool

inductive ClientMessage where
  | subscribe (channel : String)
  | hello (channel : String) (hello : HelloV5)
  | envelope (channel : String) (envelope : RtcEnvelope L.Payload)
  | pong

/-- What the task does to the world outside it, and when it takes a peer into `joined`. -/
inductive RendezvousEvent where
  | sent (message : ClientMessage L)
  | inserted (id : EndpointId)
  | discovered (id : EndpointId) (support : Option UInt8)
  | addressed (addr : EndpointAddr L)
  | dial (id : EndpointId)
  | signal (sender : EndpointId) (payload : L.Payload)
  | joinPeers (id : EndpointId)

inductive ChildPhase where
  | reincarnating
  | waiting
  | joining (direct : Bool)
  | settling
  | finished
  deriving DecidableEq

/-- A child of a first hello restores the peer's relay later; one of a reincarnation does not. -/
structure Child where
  peer : EndpointId
  fallbackAddr : Option (EndpointAddr L)
  phase : ChildPhase

structure RendezvousPeering where
  ourId : EndpointId
  /-- The own incarnation, where a WebRTC port is there. -/
  webrtc : Option RtcIncarnation
  channel : String
  localSupport : UInt8

def RendezvousPeering.hello (peering : RendezvousPeering) (relay : Option String) : HelloV5 :=
  .new peering.localSupport (L.endpointText peering.ourId) relay
    (peering.webrtc.map fun _ => true) peering.webrtc

/-- What outlives a session, and what was done so far. -/
structure Rendezvous where
  joined : Finset EndpointId := ∅
  rtcIncarnations : RtcIncarnationTracker := {}
  log : List (RendezvousEvent L) := []

structure Session where
  haveRelay : Bool
  children : List (Child L)

/-- What a turn meets outside: the home relay, whether the socket takes the turn's frame, and
whether the peer's data channel is open. -/
structure Surroundings where
  relay : Option String
  sent : Except String Unit
  connected : Bool

inductive Turn where
  | received (message : Except String (Option String))
  | reHello
  | signalOut (recipient : Option EndpointId) (payload : L.Payload)
  | childCompleted (index : Nat)

variable {L}

namespace Rendezvous

def emit (events : List (RendezvousEvent L)) (main : Rendezvous L) : Rendezvous L :=
  { main with log := main.log ++ events }

def send (around : Surroundings) (message : ClientMessage L) (main : Rendezvous L) :
    Except String Unit × Rendezvous L :=
  match around.sent with
  | .error error => (.error error,main)
  | .ok () => (.ok (),main.emit [.sent message])

/-- Whether a home relay was known. -/
def sendHello (peering : RendezvousPeering) (around : Surroundings) (main : Rendezvous L) :
    Except String Bool × Rendezvous L :=
  match main.send around (.hello peering.channel (peering.hello L around.relay)) with
  | (.error error,main) => (.error error,main)
  | (.ok (),main) => (.ok around.relay.isSome,main)

def routeRtcEnvelope (peering : RendezvousPeering) (data : L.Json) (main : Rendezvous L) :
    Rendezvous L :=
  match peering.webrtc,L.readEnvelope data with
  | some _,some envelope =>
    if envelope.v ≠ rtcVersion ∨ envelope.recipient ≠ L.endpointText peering.ourId then main
    else
      match L.parseEndpoint envelope.sender with
      | some sender =>
        if sender = peering.ourId then main else main.emit [.signal sender envelope.payload]
      | none => main
  | _,_ => main

/-- The hello of a peer that is known: its addressing is refreshed, and a fresh placement of its
browser is given to a child. -/
def knownPeer (peering : RendezvousPeering) (around : Surroundings) (hello : HelloV5)
    (id : EndpointId) (support : Option UInt8) (reincarnated : Bool) (addr : EndpointAddr L)
    (session : Session L) (main : Rendezvous L) : Session L × Rendezvous L :=
  let main := main.emit [.addressed addr]
  if peering.webrtc = none then (session,main)
  else if reincarnated then
    let main := main.emit [.discovered id support]
    if maxRendezvousPeers ≤ session.children.length then (session,main)
    else ({ session with children := session.children ++ [⟨id,none,.reincarnating⟩] },main)
  else if hello.rtc = some true ∧ !around.connected then (session,main.emit [.dial id])
  else (session,main)

/-- The reply to a first hello; where it fails, that is only reported. -/
def reply (peering : RendezvousPeering) (around : Surroundings) (main : Rendezvous L) :
    Rendezvous L := (main.sendHello peering around).2

/-- The first hello of a peer: it joins gossip at once, or through a child after its direct path.
Where the scope of the children is full, the turn ends before either. -/
def newPeer (peering : RendezvousPeering) (around : Surroundings) (hello : HelloV5)
    (id : EndpointId) (support : Option UInt8) (addr : EndpointAddr L) (session : Session L)
    (main : Rendezvous L) : Session L × Rendezvous L :=
  let main := { main with joined := insert id main.joined }.emit [.inserted id]
  if hello.rtc = some true ∧ peering.webrtc ≠ none then
    let main := main.emit [.addressed ⟨id,none,true⟩,.discovered id support,.dial id]
    if maxRendezvousPeers ≤ session.children.length then (session,main)
    else ({ session with children := session.children ++ [⟨id,some addr,.waiting⟩] },
      main.reply peering around)
  else (session,(main.emit [.addressed addr,.discovered id support,.joinPeers id]).reply peering
    around)

def helloReceived (peering : RendezvousPeering) (around : Surroundings) (hello : HelloV5)
    (session : Session L) (main : Rendezvous L) : Session L × Rendezvous L :=
  match hello.validate,L.parseEndpoint hello.id with
  | some support,some id =>
    if id = peering.ourId then (session,main)
    else
      let (reincarnated,tracker) := main.rtcIncarnations.observeHello id hello
      let main := { main with rtcIncarnations := tracker }
      let addr : EndpointAddr L :=
        { id
          relay := hello.relay.bind L.parseRelay
          custom := peering.webrtc.isSome && hello.rtc = some true }
      if id ∈ main.joined then
        main.knownPeer peering around hello id (some support) reincarnated addr session
      else if main.joined.card < maxRendezvousPeers then
        main.newPeer peering around hello id (some support) addr session
      else (session,main)
  | _,_ => (session,main)

def publishReceived (peering : RendezvousPeering) (around : Surroundings) (data : L.Json)
    (session : Session L) (main : Rendezvous L) : Session L × Rendezvous L :=
  if L.kind data = some rtcKind then (session,main.routeRtcEnvelope peering data)
  else
    match L.readHello data with
    | some hello => main.helloReceived peering around hello session
    | none => (session,main)

/-- The session that the frame's turn leaves; `none` is its end. -/
def messageReceived (peering : RendezvousPeering) (around : Surroundings) (text : String)
    (session : Session L) (main : Rendezvous L) : Option (Session L) × Rendezvous L :=
  match L.readMessage text with
  | some (.publish data) =>
    let (session,main) := main.publishReceived peering around data session
    (some session,main)
  | some .ping =>
    match main.send around .pong with
    | (.error _,main) => (none,main)
    | (.ok (),main) => (some session,main)
  | some .other | none => (some session,main)

def turn (peering : RendezvousPeering) (around : Surroundings) (session : Session L)
    (main : Rendezvous L) : Turn L → Option (Session L) × Rendezvous L
  | .received (.error _) | .received (.ok none) => (none,main)
  | .received (.ok (some text)) => main.messageReceived peering around text session
  | .reHello =>
    match main.sendHello peering around with
    | (.error _,main) => (none,main)
    | (.ok haveRelay,main) => (some { session with haveRelay },main)
  | .signalOut none _ => (some session,main)
  | .signalOut (some recipient) payload =>
    let envelope : RtcEnvelope L.Payload :=
      { kind := rtcKind
        v := rtcVersion
        sender := L.endpointText peering.ourId
        recipient := L.endpointText recipient
        payload }
    match main.send around (.envelope peering.channel envelope) with
    | (.error _,main) => (none,main)
    | (.ok (),main) => (some session,main)
  | .childCompleted index =>
    (some { session with children := session.children.eraseIdx index },main)

/-- The start of a session, as far as its first hello. -/
def start (peering : RendezvousPeering) (subscribed : Except String Unit) (around : Surroundings)
    (main : Rendezvous L) : Option (Session L) × Rendezvous L :=
  match main.send { around with sent := subscribed } (.subscribe peering.channel) with
  | (.error _,main) => (none,main)
  | (.ok (),main) =>
    match main.sendHello peering around with
    | (.error _,main) => (none,main)
    | (.ok haveRelay,main) => (some { haveRelay, children := [] },main)

end Rendezvous

inductive ChildResumption where
  | fenced (fence : Bool)
  | waited (direct : Bool)
  | joined (result : Except String Unit)
  | slept

/-- The child's next phase, and what it did on the way there. -/
def Child.resume (child : Child L) :
    ChildResumption → Option (ChildPhase × List (RendezvousEvent L))
  | .fenced fence =>
    if child.phase = .reincarnating then
      if fence then some (.waiting,[]) else some (.joining false,[.joinPeers child.peer])
    else none
  | .waited direct =>
    if child.phase = .waiting then
      let fallback := if direct then [] else child.fallbackAddr.toList.map .addressed
      some (.joining direct,fallback ++ [.joinPeers child.peer])
    else none
  | .joined _ =>
    match child.phase with
    | .joining direct =>
      some (if direct && child.fallbackAddr.isSome then .settling else .finished,[])
    | _ => none
  | .slept =>
    if child.phase = .settling then
      some (.finished,child.fallbackAddr.toList.map .addressed)
    else none

variable (L)

/-- The task as a whole: between two sessions there is none. -/
structure RendezvousRun where
  main : Rendezvous L := {}
  session : Option (Session L) := none

inductive RendezvousStep where
  | connected (subscribed : Except String Unit) (around : Surroundings)
  | turn (around : Surroundings) (turn : Turn L)
  | child (index : Nat) (resumption : ChildResumption)

variable {L}

namespace RendezvousRun

/-- Only a finished child completes. -/
def ready (session : Session L) : Turn L → Bool
  | .childCompleted index => (session.children[index]?).any fun child => child.phase = .finished
  | _ => true

def step (peering : RendezvousPeering) (run : RendezvousRun L) :
    RendezvousStep L → Option (RendezvousRun L)
  | .connected subscribed around =>
    match run.session with
    | some _ => none
    | none =>
      let (session,main) := run.main.start peering subscribed around
      some { main, session }
  | .turn around turn => do
    let session ← run.session
    if ready session turn then
      let (session,main) := run.main.turn peering around session turn
      some { main, session }
    else none
  | .child index resumption => do
    let session ← run.session
    let child ← session.children[index]?
    let (phase,events) ← child.resume resumption
    some
      { main := run.main.emit events
        session := some { session with
          children := session.children.set index { child with phase } } }

def after (peering : RendezvousPeering) :
    List (RendezvousStep L) → RendezvousRun L → Option (RendezvousRun L)
  | [], run => some run
  | step :: steps, run => (run.step peering step).bind (after peering steps)

end RendezvousRun

end WalkieSongie.Net
