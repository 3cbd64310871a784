import WalkieSongie.SessionEstablishment
set_option autoImplicit false

/-!
The task at work: local edits, remote events, durable confirmations and advances, and the loop
that feeds it its inputs.
-/

namespace WalkieSongie.Session
open TaskProgram

variable {L : SessionLibrary}

/-- The durable music lane as the task is told of it. -/
structure DurableHorizon (L : SessionLibrary) where
  history : L.History
  durableView : SharedPitchSet
  durableRevision : Nat

structure AdmittedEntry (L : SessionLibrary) where
  entry : L.Entry
  durableAdmission : L.DurableEntryAdmission
  horizon : DurableHorizon L

structure LocalCommit (L : SessionLibrary) where
  peer : ActorId
  session : RoomSessionEpochIdentity
  plan : L.ReificationPlan
  intentToken : Option PerformanceIntentToken
  admitted : AdmittedEntry L

section Inflight

abbrev InflightReifications :=
  Std.ExtTreeMap RoomSessionEpochIdentity (Finset RoomSessionDurableCorrelation)

def InflightReifications.add (session : RoomSessionEpochIdentity)
    (correlation : RoomSessionDurableCorrelation) (inflight : InflightReifications) :
    InflightReifications :=
  inflight.insert session (insert correlation (inflight[session]?.getD ∅))

/-- An epoch that has nothing in flight any more loses its entry. -/
def InflightReifications.remove (session : RoomSessionEpochIdentity)
    (correlation : RoomSessionDurableCorrelation) (inflight : InflightReifications) :
    InflightReifications :=
  match inflight[session]? with
  | none => inflight
  | some correlations =>
      if correlations.erase correlation = ∅ then inflight.erase session
      else inflight.insert session (correlations.erase correlation)

def addInflight (session : RoomSessionEpochIdentity) (plan : L.ReificationPlan) : TaskM L Unit :=
  modifyTask fun task => { task with
    inflightReifications :=
      InflightReifications.add session (L.planCorrelation plan) task.inflightReifications }

def dropInflight (session : RoomSessionEpochIdentity) (plan : L.ReificationPlan) : TaskM L Unit :=
  modifyTask fun task => { task with
    inflightReifications :=
      InflightReifications.remove session (L.planCorrelation plan) task.inflightReifications }

def Core.confirms (edit : SessionEdit) (core : Core L) : Core L :=
  { core with journal := { core.journal with confirmed := edit :: core.journal.confirmed } }

def Core.ingests (edit : SessionEdit) (core : Core L) : Core L :=
  { core with journal := { core.journal with ingested := edit :: core.journal.ingested } }

def removeInflightReification (session : RoomSessionEpochIdentity) (plan : L.ReificationPlan) :
    TaskM L Unit := do
  let correlation := L.planCorrelation plan
  let task ← getTask
  match task.inflightReifications[session]? with
  | none => fail "durable confirmation has no matching in-flight session epoch"
  | some inflight => do
      refuseIf (correlation ∉ inflight)
        (Stop.failed "durable confirmation has no matching in-flight correlation")
      dropInflight session plan
      modifyCore (Core.confirms ⟨session,correlation.dot⟩)

/-- Put one planned edit in flight and queue it for the replica. -/
def enqueueReification (peer : ActorId) (session : RoomSessionEpochIdentity) :
    ReadyReification L → TaskM L Unit
  | (plan,command,intentToken) => do
      addInflight session plan
      let sent ← attempt (sendReification ⟨peer,session,plan,command,intentToken⟩)
      match sent with
      | .ok _ => pure ()
      | .error _ => do
          dropInflight session plan
          fail "session reification queue closed"

def enqueueReificationsFor (peer : ActorId) (session : RoomSessionEpochIdentity)
    (reifications : List (ReadyReification L)) : TaskM L Unit :=
  reifications.forM (enqueueReification peer session)

def enqueueReifications (peer : ActorId) (reifications : List (ReadyReification L)) :
    TaskM L Unit := do
  let task ← getTask
  match task.active[peer]? with
  | none => fail "session reification has no active peer"
  | some active => enqueueReificationsFor peer active.identity reifications

end Inflight

section LocalEdit

def queueLocalPlan (peer : ActorId) (session : RoomSessionEpochIdentity)
    (intentToken : PerformanceIntentToken) (event : LocalSessionEvent L) : TaskM L Unit :=
  match event.plan with
  | none => pure ()
  | some plan => do
      addInflight session plan
      let sent ← attempt
        (sendReification ⟨peer,session,plan,event.command,some intentToken⟩)
      match sent with
      | .ok _ => pure ()
      | .error _ => do
          dropInflight session plan
          failSessionGeneration "reserved session reification enqueue failed after session mutation"

def publishLocalEvent (peer : ActorId) (intentToken : PerformanceIntentToken)
    (event : LocalSessionEvent L) : TaskM L Unit := do
  let task ← getTask
  match task.active[peer]? with
  | none => fail "selected active session"
  | some active => do
      modifyCore (Core.ingests ⟨active.identity,event.dot⟩)
      queueLocalPlan peer active.identity intentToken event
      emitRealtimeOrFailGeneration {
        projection := active.projectionEvent .predicted
        carrier := some (.event {
          source := active.foundation.localActor
          target := peer
          sessionId := active.sessionId
          frame := event.frame })
        durable := (event.plan.map L.planCorrelation).toList
        intentToken := some intentToken }

/-- Seal the edit in the selected session. Before the seal it can still be rejected. -/
def sealLocalEdit (peer : ActorId) (command : MusicOp) (intentToken : PerformanceIntentToken) :
    TaskM L Unit := do
  let reserved ← attempt (effect false id)
  match reserved with
  | .error _ => rejectIntent intentToken "session reification queue closed"
  | .ok _ => do
      let now ← attempt nowTicks
      match now with
      | .error error => rejectIntent intentToken error
      | .ok receiverNow => do
          let sealed ← attempt
            (onActive peer "selected active session" (localEvent command intentToken receiverNow))
          match sealed with
          | .error error =>
              failSessionGeneration s!"compact local event failed after session mutation: {error}"
          | .ok event => publishLocalEvent peer intentToken event

def RoomSessionTask.selected (task : RoomSessionTask L) : Option (ActorId × ActiveSession L) :=
  task.presentationPeer.bind fun peer => task.active[peer]?.map fun active => (peer,active)

def localEdit (command : MusicOp) (intentToken : PerformanceIntentToken) : TaskM L Unit := do
  let task ← getTask
  match task.events with
  | none => fail "worker session event port is not configured"
  | some workerGeneration =>
      let stale := intentToken.generation
      if stale ≠ workerGeneration then
        rejectIntent intentToken s!"stale performance intent generation {stale}; current worker generation is {workerGeneration}"
      else if isPitchEdit command = false then
        rejectIntent intentToken "compact session only accepts shared pitch-set edits"
      else match task.selected with
        | none => emit (.fallbackDurable command intentToken)
        | some (peer,active) =>
            if active.isSaturated = true then emit (.fallbackDurable command intentToken)
            else match active.preflightLocalEvent with
              | .error error => rejectIntent intentToken error
              | .ok _ => sealLocalEdit peer command intentToken

end LocalEdit

section RemoteEvent

/-- The session the event is for is not the active one; recover by a handshake at a higher epoch. -/
def recoverFromUnknownEvent (source : ActorId) : TaskM L Unit := do
  needRenewal source
  let task ← getTask
  match task.foundations.entries[source]? with
  | none => pure ()
  | some foundation =>
      if source ∈ task.active then startReadyRenewals else beginSession foundation

/-- Show what a remote event has changed, if its session is the presented one. -/
def publishChange (peer : ActorId) : Option RoomSessionProjectionKind → TaskM L Unit
  | none => pure ()
  | some kind => do
      let task ← getTask
      match task.active[peer]? with
      | none => fail "matching active session retained"
      | some active =>
          if task.presentationPeer = some peer then
            emitRealtimeOrFailGeneration { projection := active.projectionEvent kind }
          else pure ()

def takeRemoteEvent (event : EventBody) : TaskM L Unit := do
  let receiverNow ← nowTicks
  let (atTime,received) ← onActive event.source "matching active session checked above"
    (receiveRemote event.frame)
  if L.isFresh received = true then do
    let taken ← attempt (onActive event.source "matching active session checked above"
      (ingestFresh event.frame.length receiverNow atTime received))
    match taken with
    | .error error =>
        failSessionGeneration
          s!"remote compact event failed after Fresh replay state was consumed: {error}"
    | .ok changed => publishChange event.source changed
  else pure ()

def RoomSessionTask.matchesActive (task : RoomSessionTask L) (event : EventBody) : Bool :=
  task.active[event.source]?.any fun active =>
    event.target = active.foundation.localActor && event.sessionId = active.sessionId

def carrierEvent (event : EventBody) : TaskM L Unit := do
  let task ← getTask
  if task.matchesActive event = true then takeRemoteEvent event
  else recoverFromUnknownEvent event.source

def carrier : SessionCarrierBody L → TaskM L Unit
  | .offer offer => carrierOffer offer
  | .answer answer => carrierAnswer answer
  | .event event => carrierEvent event

end RemoteEvent

section Durable

def updateFoundationHorizon (horizon : DurableHorizon L) : TaskM L Unit :=
  modifyTask fun task => { task with
    foundations := task.foundations.updateHorizon horizon.history horizon.durableView
      horizon.durableRevision }

def selectProjection (peer : ActorId) (kind : RoomSessionProjectionKind) :
    TaskM L (List RoomSessionProjection) := do
  let task ← getTask
  match task.active[peer]? with
  | none => fail "durable session confirmation has no active peer"
  | some active =>
      return if task.presentationPeer = some peer then [active.projectionEvent kind] else []

def selectChanged (peer : ActorId) :
    Option RoomSessionProjectionKind → TaskM L (List RoomSessionProjection)
  | none => return []
  | some kind => selectProjection peer kind

/-- Run a program on each of these peers' sessions in turn and keep the selected one's
projection. -/
def eachSession (program : ActiveM L (Option RoomSessionProjectionKind)) :
    List ActorId → TaskM L (List RoomSessionProjection)
  | [] => return []
  | peer :: rest => do
      let changed ← onActive peer "active session" program
      let projected ← selectChanged peer changed
      let others ← eachSession program rest
      return projected ++ others

def advanceEach (horizon : DurableHorizon L) (peers : List ActorId) :
    TaskM L (List RoomSessionProjection) :=
  eachSession (advanceDurable horizon.durableRevision horizon.history horizon.durableView) peers

def advanceCompanionsAndSelectProjection (sourcePeer : ActorId)
    (sourceKind : RoomSessionProjectionKind) (horizon : DurableHorizon L) :
    TaskM L (Option RoomSessionProjection) := do
  let own ← selectProjection sourcePeer sourceKind
  let task ← getTask
  let advanced ← advanceEach horizon (task.active.keys.filter fun peer => peer ≠ sourcePeer)
  return (own ++ advanced).getLast?

def emitProjections (projections : List RoomSessionProjection) : TaskM L Unit :=
  projections.forM fun projection => emit (.realtime { projection := projection })

def advanceAll (horizon : DurableHorizon L) : TaskM L Unit := do
  let task ← getTask
  let projections ← advanceEach horizon task.active.keys
  updateFoundationHorizon horizon
  emitProjections projections
  startReadyRenewals

def resetEach (horizon : DurableHorizon L) (peers : List ActorId) :
    TaskM L (List RoomSessionProjection) :=
  eachSession (do
    let _ ← resynchronizeExact horizon.durableRevision horizon.history horizon.durableView
    return some .reset) peers

def resetAllProjections (horizon : DurableHorizon L) : TaskM L Bool := do
  let task ← getTask
  let selected ← resetEach horizon task.active.keys
  updateFoundationHorizon horizon
  match selected.getLast? with
  | none => do
      startReadyRenewals
      return false
  | some projection => do
      emit (.realtime { projection := projection })
      startReadyRenewals
      return true

/-- Record an admission with the planner, confirm it, and see which waiting edits are ready. -/
def takeAdmission (record : L.SessionAdmission → ActiveM L L.SessionAdmission)
    (admitted : AdmittedEntry L) :
    ActiveM L (List (ReadyReification L) × RoomSessionProjectionKind) := do
  let replica ← orThrow (L.sessionAdmission admitted.entry admitted.durableAdmission)
  let admission ← record replica
  let kind ← confirm admission admitted.horizon.durableRevision admitted.horizon.history
    admitted.horizon.durableView
  let ready ← retryReifications
  return (ready,kind.getD .confirmed)

/-- Show a confirmation: the companions advance, the window sees the selected session. -/
def publishConfirmation (peer : ActorId) (kind : RoomSessionProjectionKind)
    (ready : List (ReadyReification L)) (intentToken : Option PerformanceIntentToken)
    (horizon : DurableHorizon L) : TaskM L Unit := do
  let projection ← advanceCompanionsAndSelectProjection peer kind horizon
  updateFoundationHorizon horizon
  match projection with
  | none => pure ()
  | some projection => emitRealtimeOrFailGeneration {
      projection := projection
      durable := ready.map fun reification => L.planCorrelation reification.1
      intentToken := intentToken }

def recordPlanned (plan : L.ReificationPlan) (entry : L.Entry) (replica : L.SessionAdmission) :
    ActiveM L L.SessionAdmission :=
  onPlanner (L.recordAdmission plan entry replica)

def recordObserved (entry : L.Entry) (replica : L.SessionAdmission) :
    ActiveM L L.SessionAdmission := do
  let active ← get
  onPlanner (L.recordObservedAdmission active.kernel entry replica)

/-- A confirmation of a retired epoch, which shows a sequence of its own. -/
def confirmOutstanding (commit : LocalCommit L) :
    EStateM String (RetiredSession L)
      (RoomSessionProjection × List (ReadyReification L) × Bool) := do
  let correlation := L.planCorrelation commit.plan
  let retired ← get
  refuseIf (correlation ∉ retired.outstanding)
    "durable session confirmation did not match an outstanding retired reification"
  let (ready,_) ← onPart (fun retired => retired.active)
    (fun active retired => { retired with active := active })
    (takeAdmission (recordPlanned commit.plan commit.admitted.entry) commit.admitted)
  modify fun retired => { retired with
    outstanding := retired.outstanding.erase correlation ∪
      (ready.map fun reification => L.planCorrelation reification.1).toFinset }
  let retired ← get
  refuseIf (2^64 ≤ retired.projection.sequence+1) "retired session projection sequence exhausted"
  modify fun retired => { retired with
    projection := { retired.projection with
      sequence := retired.projection.sequence+1
      durableRevision := commit.admitted.horizon.durableRevision
      durableRoot := L.historyRoot commit.admitted.horizon.history
      kind := .confirmed
      view := commit.admitted.horizon.durableView } }
  let retired ← get
  return (retired.projection,ready,
    retired.outstanding = ∅ && !retired.active.hasLocalReificationWait)

def onRetired {α : Type} (session : RoomSessionEpochIdentity) (missing : String)
    (program : EStateM String (RetiredSession L) α) : TaskM L α := do
  let task ← getTask
  match task.retired[session]? with
  | none => fail missing
  | some retired => match program retired with
      | .ok value after => do
          modifyTask fun task => { task with retired := task.retired.insert session after }
          pure value
      | .error message after => do
          modifyTask fun task => { task with retired := task.retired.insert session after }
          fail message

def confirmRetired (commit : LocalCommit L) : TaskM L Unit := do
  let (projection,ready,drained) ← onRetired commit.session
    "durable session confirmation has neither an active nor retired epoch"
    (confirmOutstanding commit)
  removeInflightReification commit.session commit.plan
  enqueueReificationsFor commit.session.peer commit.session ready
  modifyTask fun task => { task with
    retired := if drained then task.retired.erase commit.session else task.retired }
  emit (.realtime { projection := projection, intentToken := commit.intentToken })
  advanceAll commit.admitted.horizon

def confirmActive (commit : LocalCommit L) : TaskM L Unit := do
  let (ready,kind) ← onActive commit.peer "durable session confirmation has no active peer"
    (takeAdmission (recordPlanned commit.plan commit.admitted.entry) commit.admitted)
  removeInflightReification commit.session commit.plan
  publishConfirmation commit.peer kind ready commit.intentToken commit.admitted.horizon
  enqueueReifications commit.peer ready
  startReadyRenewals

def confirmLocal (commit : LocalCommit L) : TaskM L Unit := do
  let task ← getTask
  if task.active[commit.peer]?.any (fun active => active.identity = commit.session) = true then
    confirmActive commit
  else confirmRetired commit

def observeActive (peer : ActorId) (admitted : AdmittedEntry L) : TaskM L Unit := do
  let (ready,kind) ← onActive peer "peer selected from active sessions"
    (takeAdmission (recordObserved admitted.entry) admitted)
  publishConfirmation peer kind ready none admitted.horizon
  enqueueReifications peer ready
  startReadyRenewals

def RoomSessionTask.peerOfManifest (task : RoomSessionTask L) (manifest : Digest) :
    Option ActorId :=
  task.active.toList.findSome? fun (peer,active) =>
    if L.manifestDigest active.manifest = manifest then some peer else none

def observe (admitted : AdmittedEntry L) : TaskM L Unit := do
  if L.isReifiedCommand admitted.entry = true then do
    let manifest ← check (L.reifiedManifest admitted.entry)
    let task ← getTask
    match task.peerOfManifest manifest with
    | none => advanceAll admitted.horizon
    | some peer => observeActive peer admitted
  else pure ()

end Durable

section Loop

inductive RoomSessionIngress (L : SessionLibrary) where
  | localPitchEdit (command : MusicOp) (intentToken : PerformanceIntentToken)
  /-- A carrier frame, as far as its bytes can be decoded. -/
  | carrier (decoded : Except String (SessionCarrierBody L))

inductive RoomSessionTaskInput (L : SessionLibrary) where
  | configure (generation : Nat) (traceEnabled renewalTestCut : Bool)
  | startPeer (foundation : RoomSessionFoundation L)
  /-- An application frame, as far as its bytes can be decoded. -/
  | application (channel : Nat) (decoded : Except String (RoomSessionIngress L))
  | localCommitted (commit : LocalCommit L)
  | observed (admitted : AdmittedEntry L)
  | durableAdvanced (horizon : DurableHorizon L)
  | resetProjection (horizon : DurableHorizon L)
  | repairResynchronized (horizon : DurableHorizon L)
  | refreshFoundations (foundations : List (RoomSessionFoundation L))

def roomSessionChannel : Nat := 0x54555453

def ingress : RoomSessionIngress L → TaskM L Unit
  | .localPitchEdit command intentToken => localEdit command intentToken
  | .carrier decoded => do
      let body ← check decoded
      carrier body

def accept : RoomSessionTaskInput L → TaskM L Unit
  | .configure generation traceEnabled renewalTestCut => modifyTask fun task => { task with
      events := some generation
      traceEnabled := traceEnabled
      renewalTestCut := traceEnabled && renewalTestCut }
  | .startPeer foundation => startPeer foundation
  | .application channel decoded => do
      refuseIf (channel ≠ roomSessionChannel)
        (Stop.failed s!"unsupported worker session channel {channel}")
      let body ← check decoded
      ingress body
  | .localCommitted commit => confirmLocal commit
  | .observed admitted => observe admitted
  | .durableAdvanced horizon => advanceAll horizon
  | .resetProjection horizon | .repairResynchronized horizon => do
      let _ ← resetAllProjections horizon
  | .refreshFoundations foundations => do
      modifyTask fun task => { task with foundations := .ofList foundations }
      startReadyRenewals

/-- Handle one input; a failure is reported, and ends the task if its generation is over. -/
def handle (input : RoomSessionTaskInput L) : TaskM L Unit := do
  let accepted ← attempt (accept input)
  match accepted with
  | .ok _ => pure ()
  | .error error => do
      let _ ← attempt (emit (.diagnostic error))
      let task ← getTask
      if task.events = none then throw .crash else pure ()

/-- The host starts a new task over what the old one left behind. -/
def Core.restart (core : Core L) : Core L := { core with task := {} }

/-- An input with what the outside answers while it is handled, or the worker's end. -/
inductive WorkerEvent (L : SessionLibrary) where
  | input (input : RoomSessionTaskInput L) (answers : List EffectAnswer)
  | restart

def Core.step (core : Core L) : WorkerEvent L → Core L
  | .restart => core.restart
  | .input input answers => match handle input ⟨core,answers⟩ with
      | .ok _ after => after.core
      | .error _ after => after.core.restart

def Core.run (core : Core L) (events : List (WorkerEvent L)) : Core L := events.foldl Core.step core

end Loop

section Plain

/-- The foundation of one actor for another in room 9, over the plain library. -/
def plainFoundation (localActor peer : ActorId) (history revision : Nat) :
    RoomSessionFoundation plainLibrary where
  identity := ⟨9,9,9⟩
  localActor := localActor
  peer := peer
  signingKey := localActor
  history := history
  musicRoot := 0
  localGrants := []
  peerGrants := []
  durableView := ⟨∅,∅⟩
  durableRevision := revision

abbrev PlainEvent := WorkerEvent plainLibrary

def plainConfigure : PlainEvent := .input (.configure 1 false false) []

def plainStart (localActor peer : ActorId) (history revision sessionId : Nat) : PlainEvent :=
  .input (.startPeer (plainFoundation localActor peer history revision))
    [{},{ randomSession := sessionId }]

def plainDeliver (body : SessionCarrierBody plainLibrary) (answers : List EffectAnswer) :
    PlainEvent :=
  .input (.application roomSessionChannel (.ok (.carrier (.ok body)))) answers

def Core.frames (core : Core L) : List (SessionCarrierBody L) :=
  core.egress.reverse.filterMap RoomSessionEgress.carrier?

end Plain

end WalkieSongie.Session
