import WalkieSongie.SessionActive
set_option autoImplicit false

/-!
Establishing a pair-session: recovering the renewal floor, offering, answering, and installing
the session both sides have authorized.
-/

namespace WalkieSongie.Session
open TaskProgram

variable {L : SessionLibrary}

def renewalKey (foundation : RoomSessionFoundation L) : RoomSessionRenewalKey where
  room := foundation.identity.object
  localActor := foundation.localActor
  peer := foundation.peer

def buildManifest (foundation : RoomSessionFoundation L) (sessionId epoch : Nat) :
    Except String SessionManifest := do
  let seats := ordered foundation.localActor foundation.peer
  let manifest := {
    epoch := epoch
    namespaceDigest := foundation.identity.music
    base := L.frontier foundation.history
    channelBinding := establishmentBinding L foundation.identity seats.1 seats.2 sessionId
    seats := seats }
  L.checkManifest manifest
  return manifest

def foundationContext (L : SessionLibrary) (namespaceDigest : Digest) (manifest : SessionManifest)
    (claim : SeatFoundationClaim) : Except String L.PresentationContext :=
  match L.presentationContext namespaceDigest claim manifest.base with
  | .error error => .error s!"session foundation context failed: {error}"
  | .ok context => .ok context

def verifyClaim (claim : SeatFoundationClaim) (presentation : L.PresentationEnvelope)
    (context : L.PresentationContext) : Except String VerifiedSeatFoundation :=
  match L.verifyPresentation presentation context with
  | .error error => .error s!"session foundation verification failed: {error}"
  | .ok (receiver,presented,verified) =>
      if receiver ≠ claim.receiver ∨ presented ≠ claim.grants ∨ verified ≠ context then
        .error "session foundation proof claims do not match the manifest seat"
      else .ok ⟨claim⟩

def seatClaim (L : SessionLibrary) (seat : Nat) (actor : ActorId) (grants : List EntryHash)
    (manifest : SessionManifest) : SeatFoundationClaim where
  seat := seat
  receiver := actor
  grants := grants
  manifest := L.manifestDigest manifest
  base := manifest.base

def localFoundation (foundation : RoomSessionFoundation L) (manifest : SessionManifest) :
    Except String (VerifiedSeatFoundation × L.PresentationBytes) := do
  let claim := seatClaim L (seatFor foundation.localActor foundation.peer) foundation.localActor
    foundation.localGrants manifest
  L.checkClaim claim
  let context ← foundationContext L foundation.identity.music manifest claim
  match L.present foundation.signingKey foundation.localGrants context with
  | .error error => .error s!"session foundation signing failed: {error}"
  | .ok presentation => do
      let verified ← verifyClaim claim presentation context
      return (verified,L.encodePresentation presentation)

def verifyFoundation (foundation : RoomSessionFoundation L) (manifest : SessionManifest)
    (actor : ActorId) (grants : List EntryHash) (encoded : L.PresentationBytes) :
    Except String VerifiedSeatFoundation := do
  let claim := seatClaim L (seatFor actor foundation.localActor) actor grants manifest
  L.checkClaim claim
  let context ← foundationContext L foundation.identity.music manifest claim
  match L.decodePresentation encoded with
  | .error error => .error s!"session foundation decoding failed: {error}"
  | .ok presentation => verifyClaim claim presentation context

inductive PairAuthorization (L : SessionLibrary) where
  | initial (session : L.AuthorizedSession) (floor : SessionRenewalFloor)
  | renewal (session : L.AuthorizedSession) (floor : SessionRenewalFloor)
      (expectedFrontier : Position) (floorBytes : L.FloorBytes)

def PairAuthorization.session : PairAuthorization L → L.AuthorizedSession
  | .initial session _ | .renewal session _ _ _ => session

def PairAuthorization.floor : PairAuthorization L → SessionRenewalFloor
  | .initial _ floor | .renewal _ floor _ _ => floor

/-- What is persisted before the session may be seen. -/
def PairAuthorization.floorBytes : PairAuthorization L → L.FloorBytes
  | .initial _ floor => L.floorToBytes floor
  | .renewal _ _ _ bytes => bytes

def authorizePair (foundation : RoomSessionFoundation L) (manifest : SessionManifest)
    (localSeat remoteSeat : VerifiedSeatFoundation) (renewalFloor : Option SessionRenewalFloor) :
    Except String (PairAuthorization L) := do
  let policy ← L.sessionPolicy manifest foundation.identity.music
  let capabilities := L.captureCapabilities foundation.history foundation.musicRoot
  let foundations := if seatFor foundation.localActor foundation.peer = 0
    then (localSeat,remoteSeat) else (remoteSeat,localSeat)
  match renewalFloor with
  | some floor => do
      let (session,next,expectedFrontier,bytes) ←
        L.authorizeSessionRenewal capabilities policy floor manifest foundations
      return .renewal session next expectedFrontier bytes
  | none => do
      let session ← L.authorizeSession capabilities policy manifest foundations
      return .initial session (L.floorFromAuthorized session)

def proposedEpoch (L : SessionLibrary) : Option SessionRenewalFloor → Except String Nat
  | some floor => L.nextEpoch floor
  | none => .ok 1

/-- The higher epoch wins; between equal epochs the offer of the lower actor does. -/
def preferIncomingOffer (localActor remote : ActorId) (incoming pending : Nat) : Bool :=
  pending < incoming || (incoming = pending && remote < localActor)

/-- A replacement epoch could be based on a durable cut that misses work of an older one. -/
def RoomSessionTask.peerHasRecoveryWork (task : RoomSessionTask L) (peer : ActorId) : Bool :=
  (task.retired.toList.any fun (session,retired) => session.peer = peer &&
    (retired.outstanding ≠ ∅ || retired.active.hasLocalReificationWait)) ||
  task.inflightReifications.toList.any fun (session,inflight) =>
    session.peer = peer && inflight ≠ ∅

def RoomSessionTask.hasLocalReificationWait (task : RoomSessionTask L) (peer : ActorId) : Bool :=
  task.active[peer]?.any ActiveSession.hasLocalReificationWait

/-- Replacing the peer's epoch could abandon a local durable obligation. -/
def RoomSessionTask.incomingRenewalHasLocalObligations (task : RoomSessionTask L)
    (peer : ActorId) : Bool :=
  task.hasLocalReificationWait peer || task.peerHasRecoveryWork peer

def decodeFloor (L : SessionLibrary) : Option L.FloorBytes →
    Except String (Option SessionRenewalFloor)
  | none => .ok none
  | some bytes => match L.floorFromBytes bytes with
      | .error error => .error s!"invalid persisted session renewal floor: {error}"
      | .ok floor => .ok (some floor)

def traceRecoveredFloor (peer : ActorId) : Option SessionRenewalFloor → TaskM L Unit
  | none => pure ()
  | some recovered => emitRenewalTrace .recoveredFloor peer recovered.epoch (some recovered.epoch)

def loadRenewalFloor (foundation : RoomSessionFoundation L) :
    TaskM L (Option SessionRenewalFloor) := do
  let task ← getTask
  match task.renewalFloors[foundation.peer]? with
  | some floor => return floor
  | none => do
      let encoded ← loadFloorBytes (renewalKey foundation)
      let floor ← check (decodeFloor L encoded)
      traceRecoveredFloor foundation.peer floor
      modifyTask fun task => { task with
        renewalFloors := task.renewalFloors.insert foundation.peer floor }
      return floor

def needRenewal (peer : ActorId) : TaskM L Unit :=
  modifyTask fun task => { task with renewalNeeded := task.renewalNeeded.insert peer }

/-- Random bytes for a session id, which is never zero, and a secret. -/
def drawRandom : TaskM L (Nat × Nat) := do
  let answer ← effect false id
  return (if answer.randomSession = 0 then 1 else answer.randomSession,answer.randomSecret)

/-- The offer of a session at an epoch, and what is kept of it until it is answered. -/
def buildOffer (foundation : RoomSessionFoundation L) (renewalFloor : Option SessionRenewalFloor)
    (epoch sessionId secret : Nat) : Except String (PendingSession L) := do
  let peer := foundation.peer
  let manifest ← buildManifest foundation sessionId epoch
  let binding := establishmentBinding L foundation.identity foundation.localActor peer sessionId
  let (pending,offer) := L.beginHandshake foundation.signingKey binding sessionId secret
  let (localFoundation,presentation) ← localFoundation foundation manifest
  return {
    foundation := foundation
    pending := pending
    sessionId := sessionId
    manifest := manifest
    localFoundation := localFoundation
    renewalFloor := renewalFloor
    offerCarrier := .offer {
      source := foundation.localActor
      target := peer
      sessionId := sessionId
      epoch := epoch
      base := positionBytes manifest.base
      grants := foundation.localGrants
      handshake := offer
      foundation := presentation } }

/-- Make an offer at the epoch after the peer's floor. -/
def proposeSession (foundation : RoomSessionFoundation L) : TaskM L Unit := do
  let peer := foundation.peer
  let renewalFloor ← loadRenewalFloor foundation
  let task ← getTask
  refuseIf (peer ∈ task.active ∧ renewalFloor = none)
    (Stop.failed "active session has no durable renewal floor")
  let epoch ← check (proposedEpoch L renewalFloor)
  let (sessionId,secret) ← drawRandom
  let pending ← check (buildOffer foundation renewalFloor epoch sessionId secret)
  modifyTask fun task => { task with
    pending := task.pending.insert peer pending
    renewalNeeded := task.renewalNeeded.erase peer }
  emitRenewalTrace .offerStarted peer epoch (renewalFloor.map SessionRenewalFloor.epoch)
  emit (.carrier pending.offerCarrier)

def beginSession (foundation : RoomSessionFoundation L) : TaskM L Unit := do
  let peer := foundation.peer
  let task ← getTask
  if peer ∈ task.pending then pure ()
  else do
    refuseIf (task.peerHasRecoveryWork peer = true)
      (Stop.failed "session renewal requires every retired/in-flight recovery to drain")
    refuseIf (task.hasLocalReificationWait peer = true)
      (Stop.failed "session renewal requires the old local durable suffix to drain")
    proposeSession foundation

/-- Offer again over a fresh foundation: the pending offer was bound to an older base. -/
def replaceOffer (foundation : RoomSessionFoundation L) : TaskM L Unit := do
  modifyTask fun task => { task with
    pending := task.pending.erase foundation.peer
    renewalNeeded := task.renewalNeeded.insert foundation.peer }
  beginSession foundation

/-- The lower actor starts; the higher one only where it recovers a floor. -/
def startUnlessWaiting (foundation : RoomSessionFoundation L) : TaskM L Unit := do
  let recovered ← loadRenewalFloor foundation
  if foundation.peer < foundation.localActor ∧ recovered = none then pure ()
  else beginSession foundation

def startPeer (foundation : RoomSessionFoundation L) : TaskM L Unit := do
  let peer := foundation.peer
  modifyTask fun task => { task with foundations := task.foundations.insert foundation }
  let task ← getTask
  match task.pending[peer]? with
  | some pending =>
      if pending.manifest.base = L.frontier foundation.history then
        emit (.carrier pending.offerCarrier)
      else replaceOffer foundation
  | none =>
      if peer ∈ task.active then pure () else startUnlessWaiting foundation

def beginEach (foundations : List (RoomSessionFoundation L)) : TaskM L Unit :=
  foundations.forM beginSession

/-- The peers that need a renewal and have neither a session nor an offer. -/
def RoomSessionTask.retiredRenewals (task : RoomSessionTask L) :
    List (RoomSessionFoundation L) :=
  ((task.renewalNeeded.toList.filter fun peer => !task.active.contains peer &&
    !task.pending.contains peer).filter fun peer => !task.peerHasRecoveryWork peer).filterMap
    fun peer => task.foundations.entries[peer]?

/-- The peers whose session is due for renewal and owes nothing. -/
def RoomSessionTask.activeRenewals (task : RoomSessionTask L) : List ActorId :=
  (task.active.toList.filter fun (peer,active) =>
    ((active.foundation.localActor < peer && active.needsRenewal) ||
      task.renewalNeeded.contains peer) && !active.hasLocalReificationWait &&
    !task.peerHasRecoveryWork peer && !task.pending.contains peer).map Prod.fst

def renewActive (peer : ActorId) : TaskM L Unit := do
  let task ← getTask
  match task.foundations.entries[peer]?.or
      (task.active[peer]?.map fun active => active.foundation) with
  | none => fail "renewing session lost its admitted foundation"
  | some foundation => beginSession foundation

def startReadyRenewals : TaskM L Unit := do
  let task ← getTask
  beginEach task.retiredRenewals
  let task ← getTask
  task.activeRenewals.forM renewActive

structure Installation (L : SessionLibrary) where
  foundation : RoomSessionFoundation L
  authorization : PairAuthorization L
  sessionId : Nat
  keys : L.SessionKeys
  carrier : Option (SessionCarrierBody L)

def Installation.identity (installation : Installation L) : RoomSessionEpochIdentity where
  peer := installation.foundation.peer
  manifest := L.manifestDigest (L.sessionManifest installation.authorization.session)
  sessionId := installation.sessionId
  epoch := (L.sessionManifest installation.authorization.session).epoch

def persistFloor (peer : ActorId) (installation : Installation L) : TaskM L Unit := do
  let persisted ← attempt
    (persistFloorBytes (renewalKey installation.foundation) installation.authorization.floorBytes)
  match persisted with
  | .ok _ => pure ()
  | .error error => do
      needRenewal peer
      fail s!"session renewal floor persistence failed before observable install egress: {error}"

def renewalCut (peer : ActorId) (epoch : Nat) : TaskM L Unit := do
  let task ← getTask
  if task.renewalTestCut = true ∧ task.renewalTestCutConsumed = false then do
    modifyTask fun task => { task with
      renewalTestCutConsumed := true
      renewalNeeded := task.renewalNeeded.insert peer }
    emitRenewalTrace .floorPersistedBeforeEgressCut peer epoch (some epoch)
    fail "injected renewal crash cut after durable floor persistence and before observable install egress"
  else pure ()

def RoomSessionTask.presents (task : RoomSessionTask L) (peer : ActorId) : Bool :=
  task.presentationPeer = none || task.presentationPeer = some peer

/-- Reset the window to the session if it is presented, and send the Answer if there is one. -/
def stageInstall (peer : ActorId) (active : ActiveSession L)
    (carrier : Option (SessionCarrierBody L)) :
    TaskM L Unit := do
  let task ← getTask
  let note : List Opening := [⟨active.identity,.announced⟩]
  if task.presents peer = true then
    emitOpening note (.realtime { projection := active.projectionEvent .reset, carrier := carrier })
  else match carrier with
    | some body => emitOpening note (.carrier body)
    | none => pure ()

/-- Make the staged session the peer's active one. -/
def Core.activates (peer : ActorId) (active : ActiveSession L) (core : Core L) : Core L :=
  (core.opens [⟨active.identity,.installed⟩]).mapTask fun task => { task with
    active := task.active.insert peer active
    presentationPeer := if task.presents peer = true then some peer else task.presentationPeer }

def announceInstall (peer : ActorId) (active : ActiveSession L)
    (carrier : Option (SessionCarrierBody L)) : TaskM L Unit := do
  let staged ← attempt (stageInstall peer active carrier)
  match staged with
  | .ok _ => pure ()
  | .error error => do
      needRenewal peer
      fail s!"session install egress failed after floor persistence; higher-epoch recovery is required: {error}"

def installSession (peer : ActorId) (installation : Installation L) : TaskM L Unit := do
  persistFloor peer installation
  let ticks ← nowTicks
  let active ← check (ActiveSession.new installation.foundation installation.authorization.session
    installation.sessionId installation.keys ticks)
  let nextFloor := installation.authorization.floor
  let installedEpoch := nextFloor.epoch
  modifyTask fun task => { task with
    renewalFloors := task.renewalFloors.insert peer (some nextFloor) }
  renewalCut peer installedEpoch
  announceInstall peer active installation.carrier
  modifyCore (Core.activates peer active)
  emitRenewalTrace .sessionInstalled peer installedEpoch (some installedEpoch)

/-- The peer's pending offer, which is used up by asking for it. -/
def takePending (peer : ActorId) : TaskM L (PendingSession L) := do
  let task ← getTask
  match task.pending[peer]? with
  | none => fail "session answer has no pending offer"
  | some pending => do
      modifyTask fun task => { task with pending := task.pending.erase peer }
      return pending

/-- Everything checked of an Answer against the offer it is for. -/
def verifyAnswer (pending : PendingSession L) (answer : AnswerBody L) :
    Except String (VerifiedSeatFoundation × L.SessionKeys) := do
  refuseIf (answer.target ≠ pending.foundation.localActor ∨ answer.sessionId ≠ pending.sessionId)
    "session answer targets another actor or handshake"
  refuseIf (answer.grants ≠ pending.foundation.peerGrants)
    "session answer foundation grants differ from admitted history"
  let remoteFoundation ← verifyFoundation pending.foundation pending.manifest answer.source
    pending.foundation.peerGrants answer.foundation
  let keys ← L.completeHandshake pending.pending answer.handshake answer.source
  return (remoteFoundation,keys)

/-- The offer can no longer be installed as it was made: the base has moved, a local edit is
still owed, or the floor is another. -/
def RoomSessionTask.outgrown (task : RoomSessionTask L) (current : RoomSessionFoundation L)
    (pending : PendingSession L) (source : ActorId) : Bool :=
  (L.frontier current.history ≠ pending.manifest.base || task.hasLocalReificationWait source ||
    task.peerHasRecoveryWork source) ||
  task.renewalFloors[source]?.join ≠ pending.renewalFloor

/-- Everything an Answer does before its session is installed: `none` says that the offer was
outgrown and the renewals that are ready have been started instead. -/
def prepareAnswer (answer : AnswerBody L) : TaskM L (Option (Installation L)) := do
  let source := answer.source
  let pending ← takePending source
  let (remoteFoundation,keys) ← check (verifyAnswer pending answer)
  let task ← getTask
  match task.foundations.entries[source]? with
  | none => fail "session answer arrived after its peer foundation was revoked"
  | some current =>
      if task.outgrown current pending source = true then do
        needRenewal source
        startReadyRenewals
        return none
      else do
        let authorization ← check (authorizePair pending.foundation pending.manifest
          pending.localFoundation remoteFoundation pending.renewalFloor)
        return some ⟨pending.foundation,authorization,answer.sessionId,keys,none⟩

def installPrepared (peer : ActorId) : Option (Installation L) → TaskM L Unit
  | none => pure ()
  | some installation => installSession peer installation

def carrierAnswer (answer : AnswerBody L) : TaskM L Unit := do
  let prepared ← prepareAnswer answer
  installPrepared answer.source prepared

def traceStaleOffer (offer : OfferBody L) (floorEpoch : Option Nat) : TaskM L Unit :=
  emitRenewalTrace .staleOfferRefused offer.source offer.epoch floorEpoch

/-- The checks of an Offer against the foundation its receiver holds for the sender. -/
def admitOffer (localSide : RoomSessionFoundation L) (offer : OfferBody L) : TaskM L Unit := do
  refuseIf (offer.target ≠ localSide.localActor)
    (Stop.failed "session offer targets another actor")
  refuseIf (offer.epoch = 0) (Stop.failed "session offer epoch zero is invalid")
  if offer.base ≠ positionBytes (L.frontier localSide.history) then do
    traceStaleOffer offer none
    fail "session offer is bound to a stale durable base"
  else if offer.grants ≠ localSide.peerGrants then
    fail "session offer foundation grants differ from admitted history"
  else pure ()

/-- An offer at or below the floor is not taken up; a counter-offer above it is. -/
def counterOffer (localSide : RoomSessionFoundation L) (offer : OfferBody L)
    (floor : SessionRenewalFloor) : TaskM L Unit := do
  needRenewal offer.source
  traceStaleOffer offer (some floor.epoch)
  let task ← getTask
  if offer.source ∉ task.active ∧ offer.source ∉ task.pending then beginSession localSide
  else startReadyRenewals

/-- An Offer that has been checked against the session its receiver would hold. -/
structure VerifiedOfferBody (L : SessionLibrary) where
  manifest : SessionManifest
  offer : L.VerifiedOffer
  remoteFoundation : VerifiedSeatFoundation
  localFoundation : VerifiedSeatFoundation
  localPresentation : L.PresentationBytes

def verifyOfferBody (localSide : RoomSessionFoundation L) (offer : OfferBody L) :
    Except String (VerifiedOfferBody L) := do
  let manifest ← buildManifest localSide offer.sessionId offer.epoch
  let binding := establishmentBinding L localSide.identity offer.source offer.target offer.sessionId
  let decoded ← L.decodeOffer offer.handshake
  let verified ← L.verifyOffer decoded binding
  refuseIf (L.offerIdentity verified ≠ offer.source)
    "session offer identity does not match its claimed source"
  let remoteFoundation ← verifyFoundation localSide manifest offer.source localSide.peerGrants
    offer.foundation
  let (localFoundation,presentation) ← localFoundation localSide manifest
  return ⟨manifest,verified,remoteFoundation,localFoundation,presentation⟩

def answerOffer (localSide : RoomSessionFoundation L) (offer : OfferBody L)
    (verified : VerifiedOfferBody L) (secret : Nat) (renewalFloor : Option SessionRenewalFloor) :
    Except String (Installation L) := do
  let (handshake,keys) ← L.respondToOffer verified.offer localSide.signingKey secret
  let authorization ← authorizePair localSide verified.manifest verified.localFoundation
    verified.remoteFoundation renewalFloor
  return {
    foundation := localSide
    authorization := authorization
    sessionId := offer.sessionId
    keys := keys
    carrier := some (.answer {
      source := localSide.localActor
      target := offer.source
      sessionId := offer.sessionId
      grants := localSide.localGrants
      handshake := handshake
      foundation := verified.localPresentation }) }

def acceptOffer (localSide : RoomSessionFoundation L) (offer : OfferBody L)
    (renewalFloor : Option SessionRenewalFloor) (replacesPending : Bool) : TaskM L Unit := do
  let verified ← check (verifyOfferBody localSide offer)
  let (_,secret) ← drawRandom
  let installation ← check (answerOffer localSide offer verified secret renewalFloor)
  let task ← getTask
  refuseIf (renewalFloor ≠ none ∧ task.incomingRenewalHasLocalObligations offer.source = true)
    (Stop.failed "session renewal arrived before local durable obligations drained")
  modifyTask fun task => { task with
    pending := if replacesPending then task.pending.erase offer.source else task.pending }
  installSession offer.source installation

def carrierOffer (offer : OfferBody L) : TaskM L Unit := do
  let source := offer.source
  let task ← getTask
  match task.foundations.entries[source]? with
  | none => fail "session offer arrived before the peer foundation was ready"
  | some localSide => do
      admitOffer localSide offer
      let renewalFloor ← loadRenewalFloor localSide
      match renewalFloor.filter fun floor => offer.epoch ≤ floor.epoch with
      | some floor => counterOffer localSide offer floor
      | none => do
          let task ← getTask
          match task.pending[source]? with
          | some pending =>
              if preferIncomingOffer localSide.localActor source offer.epoch
                  pending.manifest.epoch = true then acceptOffer localSide offer renewalFloor true
              else pure ()
          | none => acceptOffer localSide offer renewalFloor false

end WalkieSongie.Session
