import Std.Data.ExtTreeMap
import Mathlib.Logic.Equiv.List
import WalkieSongie.RoomValues
set_option autoImplicit false

/-!
What the room session task takes from its session, handshake and capability libraries: their
values as opaque types, their operations as functions, and the promises the task relies on.
-/

namespace WalkieSongie.Session

structure RoomIdentity where
  object : Digest
  music : Digest
  extension : Digest
  deriving DecidableEq

/-- Window-minted identity for one application intent. -/
structure PerformanceIntentToken where
  generation : Nat
  sequence : Nat
  deriving DecidableEq

/-- The four shared pitch-set edits; every other musical operation only by its code. -/
inductive MusicOp where
  | addDegree (degree : TunedDegree)
  | removeDegree (degree : TunedDegree)
  | addPitch (pitch : TunedPeriodicPitch)
  | removePitch (pitch : TunedPeriodicPitch)
  | other (code : Nat)
  deriving DecidableEq

def isPitchEdit : MusicOp → Bool
  | .addDegree _ | .removeDegree _ | .addPitch _ | .removePitch _ => true
  | .other _ => false

structure SessionDot where
  epoch : Nat
  seat : Nat
  counter : Nat
  deriving DecidableEq

def SessionDot.key (dot : SessionDot) : List Nat := [dot.epoch,dot.seat,dot.counter]

/-- Stable identity of a compact event queued for ordinary reification. -/
structure RoomSessionDurableCorrelation where
  manifest : Digest
  epoch : Nat
  seat : Nat
  counter : Nat
  event : Digest
  deriving DecidableEq

def RoomSessionDurableCorrelation.dot (correlation : RoomSessionDurableCorrelation) : SessionDot :=
  ⟨correlation.epoch,correlation.seat,correlation.counter⟩

/-- Exact causal epoch which minted one or more pending durable reifications. -/
structure RoomSessionEpochIdentity where
  peer : ActorId
  manifest : Digest
  sessionId : Nat
  epoch : Nat
  deriving DecidableEq

def RoomSessionEpochIdentity.key (identity : RoomSessionEpochIdentity) : List Nat :=
  [identity.peer,identity.manifest,identity.sessionId,identity.epoch]

section KeyOrder

instance : Ord SessionDot := ⟨compareOn SessionDot.key⟩
instance : Ord RoomSessionEpochIdentity := ⟨compareOn RoomSessionEpochIdentity.key⟩

instance : Std.TransOrd SessionDot := inferInstanceAs (Std.TransCmp (compareOn SessionDot.key))
instance : Std.TransOrd RoomSessionEpochIdentity :=
  inferInstanceAs (Std.TransCmp (compareOn RoomSessionEpochIdentity.key))

instance : Std.LawfulEqOrd SessionDot where
  eq_of_compare {first second} h := by
    have hkey : first.key = second.key := Std.LawfulEqOrd.eq_of_compare h
    simpa only [SessionDot.key,List.cons.injEq,and_true,← SessionDot.mk.injEq] using hkey

instance : Std.LawfulEqOrd RoomSessionEpochIdentity where
  eq_of_compare {first second} h := by
    have hkey : first.key = second.key := Std.LawfulEqOrd.eq_of_compare h
    simpa only [RoomSessionEpochIdentity.key,List.cons.injEq,and_true,
      ← RoomSessionEpochIdentity.mk.injEq] using hkey

end KeyOrder

/-- What two actors agree to hold a session under; its constant terms are left out. -/
structure SessionManifest where
  epoch : Nat
  namespaceDigest : Digest
  base : Position
  channelBinding : Digest
  seats : ActorId × ActorId
  deriving DecidableEq

structure SeatFoundationClaim where
  seat : Nat
  receiver : ActorId
  grants : List EntryHash
  manifest : Digest
  base : Position
  deriving DecidableEq

/-- A claim whose proof has been checked. -/
structure VerifiedSeatFoundation where
  claim : SeatFoundationClaim
  deriving DecidableEq

structure DurableProjection where
  revision : Nat
  base : Position
  historyRoot : Digest
  view : SharedPitchSet
  deriving DecidableEq

inductive SessionProjectionChange where
  | predicted
  | simulationAdvanced
  | confirmed
  | corrected
  | rejected
  | durableAdvanced
  | reset
  | other
  deriving DecidableEq

inductive ReificationError where
  | unreifiedDependency
  | other (message : String)
  deriving DecidableEq

/-- The libraries. An operation that changes a value returns the changed value also when it
fails; nothing is assumed about what a failed operation leaves behind. Bytes that only the
libraries read are opaque too. -/
structure SessionLibrary where
  HandshakeBytes : Type
  PresentationBytes : Type
  FloorBytes : Type
  History : Type
  SigningKey : Type
  PendingInitiator : Type
  HandshakeOffer : Type
  VerifiedOffer : Type
  SessionKeys : Type
  PresentationContext : Type
  PresentationEnvelope : Type
  CapabilitySnapshot : Type
  SessionPolicy : Type
  AuthorizedSession : Type
  Lanes : Type
  Header : Type
  Packet : Type
  Received : Type
  SessionEvent : Type
  PermittedEvent : Type
  SessionKernel : Type
  Cut : Type
  SessionProjectionHost : Type
  ReificationPlanner : Type
  ReificationPlan : Type
  Entry : Type
  DurableEntryAdmission : Type
  SessionAdmission : Type
  frontier : History → Position
  historyRoot : History → Digest
  checkManifest : SessionManifest → Except String Unit
  manifestDigest : SessionManifest → Digest
  deriveChannelBinding : Digest → ActorId × ActorId → Nat → Digest
  checkClaim : SeatFoundationClaim → Except String Unit
  presentationContext : Digest → SeatFoundationClaim → Position →
    Except String PresentationContext
  present : SigningKey → List EntryHash → PresentationContext → Except String PresentationEnvelope
  encodePresentation : PresentationEnvelope → PresentationBytes
  decodePresentation : PresentationBytes → Except String PresentationEnvelope
  /-- The receiver, the grants and the context that a verified presentation is for. -/
  verifyPresentation : PresentationEnvelope → PresentationContext →
    Except String (ActorId × List EntryHash × PresentationContext)
  contextDecidableEq : DecidableEq PresentationContext
  beginHandshake : SigningKey → Digest → Nat → Nat → PendingInitiator × HandshakeBytes
  decodeOffer : HandshakeBytes → Except String HandshakeOffer
  verifyOffer : HandshakeOffer → Digest → Except String VerifiedOffer
  offerIdentity : VerifiedOffer → ActorId
  respondToOffer : VerifiedOffer → SigningKey → Nat →
    Except String (HandshakeBytes × SessionKeys)
  completeHandshake : PendingInitiator → HandshakeBytes → ActorId → Except String SessionKeys
  sessionPolicy : SessionManifest → Digest → Except String SessionPolicy
  captureCapabilities : History → EntryHash → CapabilitySnapshot
  authorizeSession : CapabilitySnapshot → SessionPolicy → SessionManifest →
    VerifiedSeatFoundation × VerifiedSeatFoundation → Except String AuthorizedSession
  /-- The session, its floor, and what installing it asks the store to persist. -/
  authorizeSessionRenewal : CapabilitySnapshot → SessionPolicy → SessionRenewalFloor →
    SessionManifest → VerifiedSeatFoundation × VerifiedSeatFoundation →
    Except String (AuthorizedSession × SessionRenewalFloor × Position × FloorBytes)
  sessionManifest : AuthorizedSession → SessionManifest
  floorFromAuthorized : AuthorizedSession → SessionRenewalFloor
  floorToBytes : SessionRenewalFloor → FloorBytes
  floorFromBytes : FloorBytes → Except String SessionRenewalFloor
  nextEpoch : SessionRenewalFloor → Except String Nat
  openLanes : AuthorizedSession → Nat → Nat → SessionKeys → Digest × Digest → Except String Lanes
  openKernel : AuthorizedSession → Except String SessionKernel
  openProjection : AuthorizedSession → SessionKernel → Nat → Nat → DurableProjection →
    Except String SessionProjectionHost
  openPlanner : AuthorizedSession → Except String ReificationPlanner
  remainingCausalEvents : Lanes → Nat
  highestSealedCounter : Lanes → Nat
  sealHeader : Lanes → Nat → Cut → Nat → Except String Header
  encodeCommand : MusicOp → Except String Bytes
  decodeCommand : Bytes → Except String MusicOp
  sealPacket : Header → Bytes → EStateM String Lanes Packet
  encodeSent : Lanes → Packet → Except String Bytes
  decodeSent : Lanes → Bytes → Except String Packet
  receiveEcho : Packet → EStateM String Lanes Received
  decodeReceived : Lanes → Bytes → Except String Packet
  effectiveAt : Packet → Nat
  receivePacket : Packet → EStateM String Lanes Received
  isFresh : Received → Bool
  tryDecode : Received → (Nat → Bytes → Except String MusicOp) → Except String SessionEvent
  permitEvent : AuthorizedSession → Nat → SessionEvent → Nat → Except String PermittedEvent
  permittedDot : PermittedEvent → SessionDot
  ingestEvent : PermittedEvent → EStateM String SessionKernel Bool
  readyCut : SessionKernel → Cut
  eventBudgetExhausted : SessionKernel → Bool
  remainingEventBudget : SessionKernel → Nat → Option Nat
  advanceSimulation : Nat →
    EStateM String SessionProjectionHost (Option SessionProjectionChange)
  predictBetween : SessionKernel → Cut → Cut →
    EStateM String SessionProjectionHost (Option SessionProjectionChange)
  confirmProjection : SessionAdmission → DurableProjection →
    EStateM String SessionProjectionHost (Option SessionProjectionChange)
  advanceDurable : DurableProjection → EStateM String SessionProjectionHost SessionProjectionChange
  resynchronize : Nat → SessionKernel → Nat → DurableProjection → History →
    EStateM String SessionProjectionHost SessionProjectionChange
  projectedCut : SessionProjectionHost → Cut
  generation : SessionProjectionHost → Nat
  sequence : SessionProjectionHost → Nat
  durable : SessionProjectionHost → DurableProjection
  visible : SessionProjectionHost → SharedPitchSet
  plan : SessionKernel → SessionDot → EStateM ReificationError ReificationPlanner ReificationPlan
  planCorrelation : ReificationPlan → RoomSessionDurableCorrelation
  sessionAdmission : Entry → DurableEntryAdmission → Except String SessionAdmission
  recordAdmission : ReificationPlan → Entry → SessionAdmission →
    EStateM String ReificationPlanner SessionAdmission
  recordObservedAdmission : SessionKernel → Entry → SessionAdmission →
    EStateM String ReificationPlanner SessionAdmission
  isReifiedCommand : Entry → Bool
  reifiedManifest : Entry → Except String Digest

attribute [instance] SessionLibrary.contextDecidableEq

/-- What floors and authorized sessions promise each other. -/
structure SessionLibrary.RenewalPromises (L : SessionLibrary) : Prop where
  floor_bytes : ∀ floor, L.floorFromBytes (L.floorToBytes floor) = .ok floor
  floor_epoch : ∀ session, (L.floorFromAuthorized session).epoch = (L.sessionManifest session).epoch
  next_epoch : ∀ floor epoch, L.nextEpoch floor = .ok epoch → epoch = floor.epoch+1
  authorized : ∀ capabilities policy manifest foundations session,
    L.authorizeSession capabilities policy manifest foundations = .ok session →
      L.sessionManifest session = manifest
  /-- A renewal is authorized only above its floor, and installs the floor of its session. -/
  renewed : ∀ capabilities policy floor manifest foundations session next expectedFrontier bytes,
    L.authorizeSessionRenewal capabilities policy floor manifest foundations =
        .ok (session,next,expectedFrontier,bytes) →
      floor.epoch < manifest.epoch ∧ L.sessionManifest session = manifest ∧
        next.epoch = manifest.epoch ∧ bytes = L.floorToBytes next

section Plain

structure PlainLanes where
  localSeat : Nat
  remoteSeat : Nat
  sealed : Nat

structure PlainReceived where
  seat : Nat
  counter : Nat
  payload : Bytes

structure PlainProjection where
  generation : Nat
  sequence : Nat
  durable : DurableProjection

/-- Every transition of the plain projection host raises the sequence by one. -/
def PlainProjection.transition {Change : Type} (change : Change) :
    EStateM String PlainProjection Change :=
  fun projection => .ok change { projection with sequence := projection.sequence+1 }

def PlainProjection.takeDurable {Change : Type} (change : Change) (durable : DurableProjection) :
    EStateM String PlainProjection Change :=
  fun projection => .ok change { projection with
    sequence := projection.sequence+1
    durable := durable }

/-- The plain planner plans a dot once every dot taken in before it has been admitted. -/
def plainPlan (manifest : Digest) (kernel : List SessionDot) (dot : SessionDot) :
    EStateM ReificationError (List SessionDot) RoomSessionDurableCorrelation :=
  fun admitted =>
    if (kernel.takeWhile (· ≠ dot)).all (· ∈ admitted) then
      .ok ⟨manifest,dot.epoch,dot.seat,dot.counter,0⟩ admitted
    else .error .unreifiedDependency admitted

/-- A library without cryptography: signatures are names, and nothing is refused but what the
promises need refused. -/
def plainLibrary : SessionLibrary where
  HandshakeBytes := ActorId × Digest
  PresentationBytes := ActorId × List EntryHash × Digest × SeatFoundationClaim × Position
  FloorBytes := SessionRenewalFloor
  History := Nat
  SigningKey := ActorId
  PendingInitiator := Digest
  HandshakeOffer := ActorId × Digest
  VerifiedOffer := ActorId × Digest
  SessionKeys := Digest
  PresentationContext := Digest × SeatFoundationClaim × Position
  PresentationEnvelope := ActorId × List EntryHash × Digest × SeatFoundationClaim × Position
  CapabilitySnapshot := Unit
  SessionPolicy := Unit
  AuthorizedSession := SessionManifest
  Lanes := PlainLanes
  Header := Nat
  Packet := Nat × Bytes
  Received := PlainReceived
  SessionEvent := PlainReceived
  PermittedEvent := SessionDot
  SessionKernel := List SessionDot
  Cut := Nat
  SessionProjectionHost := PlainProjection
  ReificationPlanner := List SessionDot
  ReificationPlan := RoomSessionDurableCorrelation
  Entry := RoomSessionDurableCorrelation
  DurableEntryAdmission := Unit
  SessionAdmission := SessionDot
  frontier history := {history}
  historyRoot history := history
  checkManifest _ := .ok ()
  manifestDigest manifest := Encodable.encode (manifest.epoch,manifest.namespaceDigest,
    positionBytes manifest.base,manifest.channelBinding,manifest.seats)
  deriveChannelBinding _ seats sessionId := Encodable.encode (seats,sessionId)
  checkClaim _ := .ok ()
  presentationContext namespaceDigest claim base := .ok (namespaceDigest,claim,base)
  present key grants context := .ok (key,grants,context)
  encodePresentation presentation := presentation
  decodePresentation presentation := .ok presentation
  verifyPresentation presentation _ := .ok presentation
  contextDecidableEq := inferInstance
  beginHandshake key binding _ _ := (binding,(key,binding))
  decodeOffer offer := .ok offer
  verifyOffer offer binding := if offer.2 = binding then .ok offer else .error "binding"
  offerIdentity offer := offer.1
  respondToOffer offer key _ := .ok ((key,offer.2),offer.2)
  completeHandshake pending answer source :=
    if answer = (source,pending) then .ok pending else .error "handshake"
  sessionPolicy _ _ := .ok ()
  captureCapabilities _ _ := ()
  authorizeSession _ _ manifest _ := .ok manifest
  authorizeSessionRenewal _ _ floor manifest _ :=
    if floor.epoch < manifest.epoch then
      .ok (manifest,⟨manifest.epoch,0,manifest.base⟩,manifest.base,
        ⟨manifest.epoch,0,manifest.base⟩)
    else .error "floor"
  sessionManifest session := session
  floorFromAuthorized session := ⟨session.epoch,0,session.base⟩
  floorToBytes floor := floor
  floorFromBytes floor := .ok floor
  nextEpoch floor := .ok (floor.epoch+1)
  openLanes _ localSeat remoteSeat _ _ := .ok ⟨localSeat,remoteSeat,0⟩
  openKernel _ := .ok []
  openProjection _ _ generation _ durable := .ok ⟨generation,0,durable⟩
  openPlanner _ := .ok []
  remainingCausalEvents lanes := 64-lanes.sealed
  highestSealedCounter lanes := lanes.sealed
  sealHeader _ counter _ _ := .ok counter
  encodeCommand _ := .ok []
  decodeCommand _ := .ok (.addDegree ⟨0,0⟩)
  sealPacket header payload := fun lanes => .ok (header,payload) { lanes with sealed := header }
  encodeSent _ packet := .ok (UInt8.ofNat packet.1 :: packet.2)
  decodeSent _ frame := match frame with
    | [] => .error "frame"
    | counter :: payload => .ok (counter.toNat,payload)
  receiveEcho packet := fun lanes => .ok ⟨lanes.localSeat,packet.1,packet.2⟩ lanes
  decodeReceived _ frame := match frame with
    | [] => .error "frame"
    | counter :: payload => .ok (counter.toNat,payload)
  effectiveAt packet := packet.1
  receivePacket packet := fun lanes => .ok ⟨lanes.remoteSeat,packet.1,packet.2⟩ lanes
  isFresh _ := true
  tryDecode received decode := match decode 1 received.payload with
    | .error error => .error error
    | .ok _ => .ok received
  permitEvent session _ event _ := .ok ⟨session.epoch,event.seat,event.counter⟩
  permittedDot dot := dot
  ingestEvent dot := fun kernel => .ok true (kernel ++ [dot])
  readyCut kernel := kernel.length
  eventBudgetExhausted _ := false
  remainingEventBudget _ _ := none
  advanceSimulation _ := fun projection => .ok none projection
  predictBetween _ _ _ := PlainProjection.transition (some .predicted)
  confirmProjection _ durable := PlainProjection.takeDurable (some .confirmed) durable
  advanceDurable durable := PlainProjection.takeDurable .durableAdvanced durable
  resynchronize generation _ _ durable _ := fun _ => .ok .reset ⟨generation,0,durable⟩
  projectedCut _ := 0
  generation projection := projection.generation
  sequence projection := projection.sequence
  durable projection := projection.durable
  visible projection := projection.durable.view
  plan := plainPlan 0
  planCorrelation plan := plan
  sessionAdmission entry _ := .ok entry.dot
  recordAdmission _ _ admission := fun admitted => .ok admission (admission :: admitted)
  recordObservedAdmission _ _ admission := fun admitted => .ok admission (admission :: admitted)
  isReifiedCommand _ := true
  reifiedManifest entry := .ok entry.manifest

theorem plainLibrary_renewalPromises : plainLibrary.RenewalPromises where
  floor_bytes _ := rfl
  floor_epoch _ := rfl
  next_epoch _ _ h := (Except.ok.inj h).symm
  authorized _ _ _ _ _ h := (Except.ok.inj h).symm
  renewed _ _ floor manifest _ session next expectedFrontier bytes h := by
    simp only [plainLibrary] at h
    split at h
    · rename_i hepoch
      cases h
      exact ⟨hepoch,rfl,rfl,rfl⟩
    · cases h

end Plain

end WalkieSongie.Session
