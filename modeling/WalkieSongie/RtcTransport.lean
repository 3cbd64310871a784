import Mathlib.Data.Finset.Insert
import WalkieSongie.BoundedQueue
import WalkieSongie.Rendezvous
set_option autoImplicit false

/-!
The WebRTC carrier of one endpoint: its serial driver, stopped at every promise of the browser that
it awaits, and the callbacks and polls that run in between.
-/

namespace WalkieSongie.Net.WebRtc

abbrev RtcAttempt := Vector UInt8 8

structure IceCandidate where
  candidate : String
  mid : Option String
  index : Option UInt16
  deriving DecidableEq

inductive RtcPayload where
  | offer (attempt : RtcAttempt) (sdp : String)
  | answer (attempt : RtcAttempt) (sdp : String)
  | ice (attempt : RtcAttempt) (candidate : IceCandidate)
  deriving DecidableEq

def RtcPayload.attempt : RtcPayload → RtcAttempt
  | offer attempt _ | answer attempt _ | ice attempt _ => attempt

structure SignalOut where
  recipient : EndpointId
  payload : RtcPayload
  deriving DecidableEq

/-- An acknowledgement is named by a number. -/
inductive Command where
  | dial (peer : EndpointId)
  | peerReincarnated (peer : EndpointId) (acknowledged : Nat)
  | signal (sender : EndpointId) (payload : RtcPayload)
  | linkTerminal (peer : EndpointId) (attempt : RtcAttempt)

structure ReincarnationFence where
  retiredAttempt : Option RtcAttempt
  deriving DecidableEq

structure DirectReady where
  peer : EndpointId
  attempt : RtcAttempt
  deriving DecidableEq

structure DirectSessionFrame where
  peer : EndpointId
  bytes : List UInt8
  deriving DecidableEq

def maxSignalingPeers : Nat := 64
def maxEarlyIceCandidates : Nat := 64
def maxDirectSessionFrameBytes : Nat := 16 * 1024
def directSessionQueueDepth : Nat := 64

/-! ### The browser -/

inductive RtcSignalingState where
  | stable
  | haveLocalOffer
  | haveRemoteOffer
  | closed
  deriving DecidableEq

inductive RtcSdpType where
  | offer
  | answer
  deriving DecidableEq

inductive PcCall where
  | createOffer
  | createAnswer
  | setLocalDescription (type : RtcSdpType) (sdp : Option String)
  | setRemoteDescription (type : RtcSdpType) (sdp : String)
  | addIceCandidate (candidate : IceCandidate)
  | close
  deriving DecidableEq

structure PcState where
  signaling : RtcSignalingState := .stable
  remote : Option String := none
  deriving DecidableEq

namespace PcState

/-- The signaling states are the WebRTC standard's: every other call is rejected with an
`InvalidStateError`. -/
def accepts (state : PcState) : PcCall → Bool
  | .createOffer | .setLocalDescription .offer _ =>
    state.signaling = .stable || state.signaling = .haveLocalOffer
  | .createAnswer | .setLocalDescription .answer _ => state.signaling = .haveRemoteOffer
  | .setRemoteDescription .offer _ =>
    state.signaling = .stable || state.signaling = .haveRemoteOffer
  | .setRemoteDescription .answer _ => state.signaling = .haveLocalOffer
  | .addIceCandidate _ => state.signaling ≠ .closed && state.remote.isSome
  | .close => state.signaling ≠ .closed

/-- What a call that is fulfilled has made of the connection, by the same standard. -/
def fulfill (state : PcState) : PcCall → PcState
  | .setLocalDescription .offer _ => { state with signaling := .haveLocalOffer }
  | .setLocalDescription .answer _ => { state with signaling := .stable }
  | .setRemoteDescription .offer sdp => { signaling := .haveRemoteOffer, remote := some sdp }
  | .setRemoteDescription .answer sdp => { signaling := .stable, remote := some sdp }
  | .createOffer | .createAnswer | .addIceCandidate _ => state
  | .close => { state with signaling := .closed }

end PcState

structure RtcPeerConnection where
  id : Nat
  peer : EndpointId
  attempt : RtcAttempt
  offerer : Bool
  deriving DecidableEq

inductive RtcDataChannelState where
  | connecting
  | open
  | closing
  | closed
  deriving DecidableEq

structure RtcDataChannel where
  readyState : RtcDataChannelState := .connecting
  deriving DecidableEq

/-! ### The state of the carrier -/

/-- One peer's WebRTC connection state. -/
structure PeerLink where
  pc : RtcPeerConnection
  attempt : RtcAttempt
  channel : Option RtcDataChannel
  sessionChannel : Option RtcDataChannel
  remoteDescSet : Bool := false
  pendingIce : List IceCandidate := []
  offerSdp : Option String := none
  answerSdp : Option String := none
  deriving DecidableEq

structure EarlyIce where
  attempt : RtcAttempt
  candidates : List IceCandidate
  deriving DecidableEq

/-- The promise that the driver awaits. A flush has the candidate that is being added and those
after it, and goes on to the answer where it followed an offer. -/
inductive Stage where
  | createOffer
  | setLocalOffer (offer : Option String)
  | setRemoteOffer (sdp : String)
  | flush (candidate : IceCandidate) (rest : List IceCandidate) (answering : Bool)
  | createAnswer
  | setLocalAnswer (answer : Option String)
  | setRemoteAnswer (sdp : String)
  | addIce (candidate : IceCandidate)
  deriving DecidableEq

def Stage.call : Stage → PcCall
  | createOffer => .createOffer
  | setLocalOffer offer => .setLocalDescription .offer offer
  | setRemoteOffer sdp => .setRemoteDescription .offer sdp
  | flush candidate _ _ | addIce candidate => .addIceCandidate candidate
  | createAnswer => .createAnswer
  | setLocalAnswer answer => .setLocalDescription .answer answer
  | setRemoteAnswer sdp => .setRemoteDescription .answer sdp

/-- What is to be acknowledged when a dial ends: the number, and the attempt that was retired. -/
abbrev Acknowledgement := Nat × Option RtcAttempt

structure Task where
  peer : EndpointId
  attempt : RtcAttempt
  pc : RtcPeerConnection
  stage : Stage
  acknowledged : Option Acknowledgement
  deriving DecidableEq

structure PcRecord where
  pc : RtcPeerConnection
  found : PcState
  call : PcCall
  deriving DecidableEq

/-- What the driver, the callbacks and the polls share, what the browser holds, and logs of what was
asked of it, published, written and acknowledged. -/
structure Transport where
  localId : EndpointId
  recvQueue : List (EndpointId × List UInt8) := []
  /-- A waker is parked. -/
  recvWaker : Bool := false
  links : KeyedMap EndpointId PeerLink := .empty
  earlyIce : KeyedMap EndpointId EarlyIce := .empty
  dialing : Finset EndpointId := ∅
  directSessions : BoundedQueue DirectSessionFrame := .empty (directSessionQueueDepth + 1)
  commands : List Command := []
  task : Option Task := none
  made : List RtcPeerConnection := []
  browser : RtcPeerConnection → PcState := fun _ => {}
  calls : List PcRecord := []
  outbound : List SignalOut := []
  ready : List DirectReady := []
  fences : List (Nat × ReincarnationFence) := []
  /-- The signals that were handled so far. -/
  handled : List (EndpointId × RtcPayload) := []
  lazyDials : List EndpointId := []
  written : List (EndpointId × List UInt8) := []

/-- A candidate joins those of its own attempt; an attempt that it replaces is forgotten. -/
def EarlyIce.push (attempt : RtcAttempt) (candidate : IceCandidate) (early : EarlyIce) :
    EarlyIce :=
  let early := if early.attempt = attempt then early else ⟨attempt,[]⟩
  if early.candidates.length < maxEarlyIceCandidates then
    ⟨early.attempt,early.candidates ++ [candidate]⟩
  else early

def localIsOfferer (localId peer : EndpointId) : Bool := localId < peer

namespace Transport

variable (t : Transport)

def currentAttempt (peer : EndpointId) : Option RtcAttempt :=
  (t.links.get? peer).map PeerLink.attempt

def attemptIsCurrent (peer : EndpointId) (attempt : RtcAttempt) : Bool :=
  t.currentAttempt peer = some attempt

def linkOf (peer : EndpointId) (attempt : RtcAttempt) : Option PeerLink :=
  (t.links.get? peer).filter fun link => link.attempt = attempt

def updateLink (peer : EndpointId) (attempt : RtcAttempt) (f : PeerLink → PeerLink) : Transport :=
  match t.linkOf peer attempt with
  | some link => { t with links := t.links.insert peer (f link) }
  | none => t

def publish (recipient : EndpointId) (payload : RtcPayload) : Transport :=
  { t with outbound := t.outbound ++ [⟨recipient,payload⟩] }

def record (pc : RtcPeerConnection) (call : PcCall) : Transport :=
  { t with calls := t.calls ++ [⟨pc,t.browser pc,call⟩] }

def settle (pc : RtcPeerConnection) (call : PcCall) : Transport :=
  { t with browser := Function.update t.browser pc ((t.browser pc).fulfill call) }

/-- The driver asks the browser and awaits what it says. -/
def ask (task : Task) : Transport := { t.record task.pc task.stage.call with task := some task }

def finish : Option Acknowledgement → Transport
  | none => { t with task := none }
  | some (number,retired) => { t with task := none, fences := t.fences ++ [(number,⟨retired⟩)] }

def retireLink (peer : EndpointId) (attempt : RtcAttempt) : Transport :=
  match t.linkOf peer attempt with
  | some link =>
    let t := { t with dialing := t.dialing.erase peer, links := t.links.erase peer }
    (t.record link.pc .close).settle link.pc .close
  | none => t

/-- Retires whichever attempt is current, unless it is the one to keep. -/
def retireOther (peer : EndpointId) (keep : Option RtcAttempt) : Transport :=
  match t.currentAttempt peer with
  | some current => if keep = some current then t else t.retireLink peer current
  | none => t

def createLink (peer : EndpointId) (attempt : RtcAttempt) (offerer : Bool) :
    RtcPeerConnection × Transport :=
  let pc := ⟨t.made.length,peer,attempt,offerer⟩
  let channel := if offerer then some {} else none
  (pc,{ t with
    made := t.made ++ [pc]
    links := t.links.insert peer { pc, attempt, channel, sessionChannel := channel }
    dialing := t.dialing.erase peer })

/-- `constructed` tells whether the browser gives a new connection. -/
def ensureLink (constructed : Bool) (peer : EndpointId) (attempt : RtcAttempt) (offerer : Bool) :
    Option (RtcPeerConnection × Bool) × Transport :=
  if peer = t.localId then (none,t)
  else
    match t.links.get? peer with
    | some link => (if link.attempt = attempt then some (link.pc,false) else none,t)
    | none =>
      if maxSignalingPeers ≤ t.links.entries.length then (none,t)
      else if constructed then
        let (pc,t) := t.createLink peer attempt offerer
        (some (pc,true),t)
      else (none,t)

/-! ### Candidates -/

def bufferIce (peer : EndpointId) (attempt : RtcAttempt) (candidate : IceCandidate) : Transport :=
  t.updateLink peer attempt fun link =>
    if link.pendingIce.length < maxEarlyIceCandidates then
      { link with pendingIce := link.pendingIce ++ [candidate] }
    else link

def bufferEarlyIce (peer : EndpointId) (attempt : RtcAttempt) (candidate : IceCandidate) :
    Transport :=
  if (t.earlyIce.get? peer).isNone ∧ maxSignalingPeers ≤ t.earlyIce.entries.length then t
  else
    let early := (t.earlyIce.get? peer).getD ⟨attempt,[]⟩
    { t with earlyIce := t.earlyIce.insert peer (early.push attempt candidate) }

def earlyCandidates (peer : EndpointId) (attempt : RtcAttempt) : List IceCandidate :=
  (((t.earlyIce.get? peer).filter fun early => early.attempt = attempt).map
    EarlyIce.candidates).getD []

def adoptEarlyIce (peer : EndpointId) (attempt : RtcAttempt) : Transport :=
  { t with earlyIce := t.earlyIce.erase peer }.updateLink peer attempt fun link =>
    { link with pendingIce := link.pendingIce ++ t.earlyCandidates peer attempt }

end Transport

end WalkieSongie.Net.WebRtc
