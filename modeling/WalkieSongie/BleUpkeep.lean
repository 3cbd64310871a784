import WalkieSongie.BleLink
set_option autoImplicit false

/-!
What every program of the board session leaves between the state that it finds and the one that it
leaves, told once for its smallest changes.
-/

namespace WalkieSongie.Carrier
open TaskProgram
open Bridge (LinkState)
open Ble (BleWriteMessage BleWritePriority)
open BleLink

variable {T : RealtimeTypes} {L : BleLibrary T} {α β : Type} {link link' : BleLink L}

/-- Whichever way a call on a part ended, it left the part so. -/
def Leaves {ε σ : Type} (program : EStateM ε σ α) (part after : σ) : Prop :=
  (∃ value, program part = .ok value after) ∨ ∃ error, program part = .error error after

def BleLibrary.CodecStep (L : BleLibrary T) (codec after : L.Codec) : Prop :=
  (∃ lane payload, Leaves (L.encode lane payload) codec after) ∨
  (∃ wire, Leaves (L.decode wire) codec after) ∨
  ∃ limit, Leaves (L.restrictPayload limit) codec after

/-- A call of the session on the closing of a repair, but for the frames that come in. -/
inductive BleLibrary.CloseStep (L : BleLibrary T) (close : L.RepairCloseState) :
    L.RepairCloseState → Prop where
  | terminal : CloseStep L close (L.markLocalTerminal close)
  | localRepair (sequence : UInt64) (after : L.RepairCloseState) :
    Leaves (L.observeLocalRepair sequence) close after → CloseStep L close after
  | localFin (sequence : UInt64) (after : L.RepairCloseState) :
    Leaves (L.observeLocalFinEncoded sequence) close after → CloseStep L close after
  | remoteAck (sequence : UInt64) (after : L.RepairCloseState) :
    Leaves (L.observeRemoteAckEncoded sequence) close after → CloseStep L close after
  | remoteFin (fin : L.RepairFin) (sequence : UInt64) (after : L.RepairCloseState) :
    Leaves (L.observeRemoteFin fin sequence) close after → CloseStep L close after
  | localFinAck (ack : L.RepairAck) (after : L.RepairCloseState) :
    Leaves (L.observeLocalFinAck ack) close after → CloseStep L close after
  | ackSent (sequence : UInt64) (after : L.RepairCloseState) :
    Leaves (L.confirmRemoteAckSent sequence) close after → CloseStep L close after

/-- The two states agree on the session; what differs is its surroundings. -/
structure SameSession (link link' : BleLink L) : Prop where
  events : link'.events = link.events
  trusted : link'.trusted = link.trusted
  remoteHello : link'.remoteHello = link.remoteHello
  pendingProvisioning : link'.pendingProvisioning = link.pendingProvisioning
  pending : link'.pending = link.pending
  codec : link'.codec = link.codec
  repairClose : link'.repairClose = link.repairClose
  awaiting : link'.repairAwaitingConfirmation = link.repairAwaitingConfirmation
  exchanged : link'.exchanged = link.exchanged
  placements : link'.placements = link.placements
  carriers : link'.carriers = link.carriers
  carried : link'.carried = link.carried
  facts : link'.facts = link.facts
  readied : link'.readied = link.readied

/-- Reports that no other part of the program acts on for the sake of a repair. -/
def TransportEvent.Plain : TransportEvent T → Prop
  | .boardProvisioned _ | .boardRepairCarrierClosed _ | .boardRepairInbound _ _
  | .boardCapabilityBundlePrepared _ _ => False
  | .boardLink link => link ≠ .ready
  | _ => True

namespace BleLink

def pend (pending : L.Pending) (link : BleLink L) : BleLink L :=
  { link with pending := some pending }

/-- Everything of the session but the hello and what it has seen is gone. -/
def ended (link : BleLink L) : BleLink L :=
  { link with
    pending := none
    codec := none
    pendingProvisioning := none
    repairClose := none
    repairAwaitingConfirmation := none }

/-- The link is up, and a hello that came before it is kept. -/
def linked (link : BleLink L) : BleLink L :=
  { link.resetSession with
    remoteHello := link.remoteHello
    scanRequested := false
    connectPending := false
    linkConnected := true }

def authenticated (codec : L.Codec) (remote : PeerHello) (link : BleLink L) : BleLink L :=
  { link with
    pending := none
    codec := some ⟨codec,remote.identity⟩
    placements := link.placements ++ [⟨remote.identity,remote.bootNonce,L.sessionId codec⟩] }

def confirmed (waiting : Traced (BoardSessionBinding × Digest)) (link : BleLink L) : BleLink L :=
  publish (.boardProvisioned waiting.value.1) { link with
    pendingProvisioning := none
    facts := { link.facts with
      acknowledged := link.facts.acknowledged ++ [⟨waiting.value.1,waiting.origin⟩] } }

/-- The carrier's next attempt, for the room's first frame. -/
def opened (binding : BoardSessionBinding) (frame : Bytes) (link : BleLink L) : BleLink L :=
  { link with
    repairAwaitingConfirmation := none
    repairClose := some {
      binding
      close := L.newClose (L.repairAttemptId binding.sessionId frame)
      number := link.carriers }
    carriers := link.carriers+1 }

def closing (binding : BoardSessionBinding) (link : BleLink L) : BleLink L :=
  publish (.boardRepairCarrierClosed binding) { link with
    repairClose := none
    repairAckWrite := none
    repairAwaitingConfirmation := some binding
    facts := { link.facts with closed := link.facts.closed ++ [binding] } }

end BleLink

theorem publish_trusted (event : TransportEvent T) (link : BleLink L) :
    (publish event link).trusted = link.trusted := by
  unfold publish
  split <;> rfl

theorem publish_binding (event : TransportEvent T) (link : BleLink L) :
    (publish event link).currentBoardBinding = link.currentBoardBinding := by
  unfold publish
  split <;> rfl

theorem publish_remoteHello (event : TransportEvent T) (link : BleLink L) :
    (publish event link).remoteHello = link.remoteHello := by
  unfold publish
  split <;> rfl

/-- Commands that neither take trust back nor move a bundle, a frame or the end of a repair. -/
def BridgeCommand.Ordinary : BridgeCommand T → Prop
  | .forgetBoard _ | .sendBoardCapabilityBundle _ _ | .sendBoardRepairFrame _ _
  | .completeBoardRepair _ => False
  | _ => True

/-- A relation that holds whatever is only sent. -/
structure Sends (R : BleLink L → BleLink L → Prop) : Prop where
  refl : ∀ link, R link link
  trans : ∀ first second third, R first second → R second third → R first third
  aside : ∀ link link', SameSession link link' → R link link'
  codec : ∀ link codec after, link.codec = some codec → L.CodecStep codec.codec after →
    R link { link with codec := some { codec with codec := after } }
  exchanged : ∀ link codec, link.codec = some codec →
    R link { link with exchanged := link.exchanged ++ [⟨codec.peer,link.trusted⟩] }

def BleLibrary.SessionStable (L : BleLibrary T) : Prop :=
  ∀ codec after, L.CodecStep codec after → L.sessionId after = L.sessionId codec

theorem SameSession.binding (h : SameSession link link') :
    link'.currentBoardBinding = link.currentBoardBinding := by
  simp only [BleLink.currentBoardBinding,h.remoteHello,h.codec]

/-- What sending leaves as it was: all but the codec and the log of the exchanges. -/
structure Sent (link link' : BleLink L) : Prop where
  events : link'.events = link.events
  remoteHello : link'.remoteHello = link.remoteHello
  pendingProvisioning : link'.pendingProvisioning = link.pendingProvisioning
  repairClose : link'.repairClose = link.repairClose
  awaiting : link'.repairAwaitingConfirmation = link.repairAwaitingConfirmation
  placements : link'.placements = link.placements
  carriers : link'.carriers = link.carriers
  carried : link'.carried = link.carried
  facts : link'.facts = link.facts
  readied : link'.readied = link.readied
  binding : L.SessionStable → link'.currentBoardBinding = link.currentBoardBinding

theorem sends_sent : Sends (L := L) Sent where
  refl link := by constructor <;> simp
  trans first second third h h' := by
    constructor
    · rw [h'.events,h.events]
    · rw [h'.remoteHello,h.remoteHello]
    · rw [h'.pendingProvisioning,h.pendingProvisioning]
    · rw [h'.repairClose,h.repairClose]
    · rw [h'.awaiting,h.awaiting]
    · rw [h'.placements,h.placements]
    · rw [h'.carriers,h.carriers]
    · rw [h'.carried,h.carried]
    · rw [h'.facts,h.facts]
    · rw [h'.readied,h.readied]
    · exact fun hstable => (h'.binding hstable).trans (h.binding hstable)
  aside link link' h := ⟨h.events,h.remoteHello,h.pendingProvisioning,h.repairClose,h.awaiting,
    h.placements,h.carriers,h.carried,h.facts,h.readied,fun _ => h.binding⟩
  codec link codec after hcodec hstep := by
    refine ⟨rfl,rfl,rfl,rfl,rfl,rfl,rfl,rfl,rfl,rfl,fun hstable => ?_⟩
    simp only [BleLink.currentBoardBinding,hcodec]
    cases link.remoteHello <;> simp [hstable _ _ hstep]
  exchanged link codec hcodec := ⟨rfl,rfl,rfl,rfl,rfl,rfl,rfl,rfl,rfl,rfl,fun _ => rfl⟩

/-- A relation that the smallest changes of the session keep to, but for a frame of the board's. -/
structure Unprompted (R : BleLink L → BleLink L → Prop) : Prop extends Sends R where
  plain : ∀ event link, event.Plain → R link (publish event link)
  takes : ∀ link, R link { link with events := link.events.tail }
  close : ∀ link attempt close, link.repairClose = some attempt →
    L.CloseStep attempt.close close →
      R link { link with repairClose := some { attempt with close } }
  closing : ∀ link attempt, link.repairClose = some attempt →
    R link (link.closing attempt.binding)
  reset : ∀ hello link, R link { link.resetSession with remoteHello := hello }
  ended : ∀ link, R link link.ended
  pend : ∀ pending hello link, link.remoteHello = some hello → hello.identity ∈ link.trusted →
    R link (link.pend pending)
  unpend : ∀ link, R link { link with pending := none }
  hello : ∀ hello link, link.remoteHello = none → link.pending = none → link.codec = none →
    R link { link with remoteHello := some hello }
  authenticated : ∀ codec remote pending link, link.pending = some pending →
    link.remoteHello = some remote → R link (link.authenticated codec remote)
  confirmed : ∀ link waiting, link.pendingProvisioning = some waiting →
    link.currentBoardBinding = some waiting.value.1 → R link (link.confirmed waiting)
  trusts : ∀ identity link, R link { link with trusted := insert identity link.trusted }
  configures : ∀ trusted link, link.remoteHello = none → link.pending = none → link.codec = none →
    R link { link with trusted := trusted }

/-- A relation that the smallest changes of the session keep to. -/
structure Upkeep (R : BleLink L → BleLink L → Prop) : Prop extends Unprompted R where
  inbound : ∀ binding frame link,
    R link { link with events := link.events ++ [.boardRepairInbound binding frame] }
  observes : ∀ link attempt close, link.repairClose = some attempt →
    R link { link with repairClose := some { attempt with close } }
  close link attempt close hclose _ := observes link attempt close hclose

section Answers

variable {Q : β → BleLink L → Prop} {E : BridgeError → BleLink L → Prop}

theorem post_orFail {checked : Except String α} {next : α → LinkM L β}
    (herror : ∀ error, E error link)
    (hok : ∀ value, checked = .ok value → Post Q E (next value link)) :
    Post Q E ((orFail checked >>= next) link) := by
  cases checked with
  | ok value => exact hok value rfl
  | error message => exact herror _

theorem post_orElse {found : Option α} {error : BridgeError} {next : α → LinkM L β}
    (hnone : ∀ error, E error link)
    (hsome : ∀ value, found = some value → Post Q E (next value link)) :
    Post Q E ((orElse found error >>= next) link) := by
  cases found with
  | some value => exact hsome value rfl
  | none => exact hnone error

theorem post_reportTrusted {Q : α → BleLink L → Prop} {next : Unit → LinkM L α}
    (h : Post Q E (next () (publish (.trustedBoards (min link.trusted.card (2^32-1))) link))) :
    Post Q E ((reportTrusted >>= next) link) := h

end Answers

namespace SameSession

theorem refl (link : BleLink L) : SameSession link link := by constructor <;> rfl

theorem trans (first second third : BleLink L) (h : SameSession first second)
    (h' : SameSession second third) : SameSession first third := by
  constructor
  · rw [h'.events,h.events]
  · rw [h'.trusted,h.trusted]
  · rw [h'.remoteHello,h.remoteHello]
  · rw [h'.pendingProvisioning,h.pendingProvisioning]
  · rw [h'.pending,h.pending]
  · rw [h'.codec,h.codec]
  · rw [h'.repairClose,h.repairClose]
  · rw [h'.awaiting,h.awaiting]
  · rw [h'.exchanged,h.exchanged]
  · rw [h'.placements,h.placements]
  · rw [h'.carriers,h.carriers]
  · rw [h'.carried,h.carried]
  · rw [h'.facts,h.facts]
  · rw [h'.readied,h.readied]

theorem onHost (program : EStateM BleHostError L.Host α) :
    Stays SameSession (Carrier.onHost program) := by
  intro link
  unfold Carrier.onHost
  cases program link.host <;> constructor <;> rfl

theorem onReassembler (program : EStateM String L.Reassembler α) :
    Stays SameSession (Carrier.onReassembler program) := by
  intro link
  unfold Carrier.onReassembler
  cases program link.reassembler <;> constructor <;> rfl

theorem orElse (found : Option α) (error : BridgeError) :
    Stays SameSession (Carrier.orElse found error : LinkM L α) := by
  cases found with
  | some value => exact Stays.pure refl value
  | none => exact Stays.throw refl error

theorem sendWireTracked (wire : Bytes) (priority : BleWritePriority) :
    Stays SameSession (Carrier.sendWireTracked (L := L) wire priority) := by
  refine Stays.get fun _ => Stays.bind trans (orElse _ _) fun remote => Stays.get fun _ => ?_
  refine Stays.bind trans (Stays.modifying fun link => by constructor <;> rfl) fun _ => ?_
  dsimp only
  split
  · exact Stays.throw refl _
  · exact Stays.bind trans (onHost _) fun _ => Stays.pure refl _

theorem sendWire (wire : Bytes) (priority : BleWritePriority) :
    Stays SameSession (Carrier.sendWire (L := L) wire priority) :=
  Stays.bind trans (sendWireTracked wire priority) fun _ => Stays.pure refl _

end SameSession

section Programs

variable {R : BleLink L → BleLink L → Prop}

namespace Sends

theorem same (h : Sends R) {program : LinkM L α} (hprogram : Stays SameSession program) :
    Stays R program := fun link =>
  Post.mono (hprogram link) (fun _ after => h.aside link after) fun _ after => h.aside link after

theorem after (h : Sends R) (hbefore : R link link') {result : EStateM.Result BridgeError _ α}
    (hresult : Post (fun _ => R link') (fun _ => R link') result) :
    Post (fun _ => R link) (fun _ => R link) result :=
  Post.mono hresult (fun _ last => h.trans link link' last hbefore) fun _ last =>
    h.trans link link' last hbefore

theorem bind (h : Sends R) {first : LinkM L β} {next : β → LinkM L α} (hfirst : Stays R first)
    (hnext : ∀ value, Stays R (next value)) : Stays R (first >>= next) :=
  Stays.bind h.trans hfirst hnext

theorem pure (h : Sends R) (value : α) : Stays R (Pure.pure value : LinkM L α) :=
  Stays.pure h.refl value

theorem throw (h : Sends R) (error : BridgeError) :
    Stays R (MonadExcept.throw error : LinkM L α) :=
  Stays.throw h.refl error

theorem stopIf (h : Sends R) (bad : Prop) [Decidable bad] (error : BridgeError) :
    Stays R (Carrier.stopIf (L := L) bad error) :=
  Stays.refuseIf h.refl bad error

theorem orFail (h : Sends R) (checked : Except String α) :
    Stays R (Carrier.orFail checked : LinkM L α) := by
  cases checked with
  | ok value => exact h.pure value
  | error message => exact h.throw _

theorem orElse (h : Sends R) (found : Option α) (error : BridgeError) :
    Stays R (Carrier.orElse found error : LinkM L α) :=
  h.same (SameSession.orElse found error)

theorem modifies (h : Sends R) {f : BleLink L → BleLink L}
    (hf : ∀ link, SameSession link (f link)) :
    Stays R (modify f : LinkM L PUnit) :=
  Stays.modifying fun link => h.aside link _ (hf link)

theorem onCodec (h : Sends R) (missing : BridgeError) {program : EStateM String L.Codec α}
    (hprogram : ∀ codec after, Leaves program codec after → L.CodecStep codec after) :
    Stays R (Carrier.onCodec missing program) := by
  intro link
  unfold Carrier.onCodec
  cases hcodec : link.codec with
  | none => exact h.refl link
  | some codec =>
    dsimp only
    cases hrun : program codec.codec with
    | ok value after => exact h.codec link codec after hcodec (hprogram _ _ (.inl ⟨value,hrun⟩))
    | error message after =>
      exact h.codec link codec after hcodec (hprogram _ _ (.inr ⟨message,hrun⟩))

theorem exchanges (h : Sends R) : Stays R (Carrier.exchanges (L := L)) := by
  refine Stays.modifying fun link => ?_
  split
  · exact h.refl link
  · rename_i codec hcodec
    exact h.exchanged link codec hcodec

theorem sendAuthenticatedTrackedWithPriority (h : Sends R) (lane : Lane) (payload : Bytes)
    (priority : BleWritePriority) :
    Stays R (Carrier.sendAuthenticatedTrackedWithPriority (L := L) lane payload priority) := by
  refine Stays.get fun _ => h.bind (h.stopIf _ _) fun _ => ?_
  refine h.bind (h.onCodec _ fun codec after hleaves => .inl ⟨lane,payload,hleaves⟩) fun _ => ?_
  refine h.bind h.exchanges fun _ => ?_
  exact h.bind (h.same (SameSession.sendWireTracked _ _)) fun _ => h.pure _

theorem sendAuthenticatedTracked (h : Sends R) (lane : Lane) (payload : Bytes) :
    Stays R (Carrier.sendAuthenticatedTracked (L := L) lane payload) :=
  h.sendAuthenticatedTrackedWithPriority _ _ _

theorem sendAuthenticated (h : Sends R) (lane : Lane) (payload : Bytes) :
    Stays R (Carrier.sendAuthenticated (L := L) lane payload) :=
  h.bind (h.sendAuthenticatedTrackedWithPriority _ _ _) fun _ => h.pure _

end Sends

/-- A bundle that leaves for the board waits for its acknowledgement. -/
theorem sendCapabilityBundle_spec (binding : BoardSessionBinding) (bundle : Traced Bytes)
    (link : BleLink L) :
    Post (fun _ link' => Sent link link' ∨ ∃ after digest, Sent link after ∧
        link.currentBoardBinding = some binding ∧ link.pendingProvisioning = none ∧
        link' = { after with pendingProvisioning := some ⟨(binding,digest),bundle.origin⟩ })
      (fun _ link' => Sent link link') (sendCapabilityBundle (L := L) binding bundle link) := by
  have hrefl := sends_sent.refl link
  refine Post.getting (Post.refuseIf (fun _ => hrefl) fun hcurrent => ?_)
  refine Post.getting (Post.refuseIf (fun _ => hrefl) fun _ => ?_)
  refine post_orFail (fun _ => hrefl) fun receiver _ => ?_
  refine Post.refuseIf (fun _ => hrefl) fun _ => Post.getting ?_
  cases hpending : link.pendingProvisioning with
  | some waiting =>
    exact (sends_sent.stopIf _ _ link).mono (fun _ _ hsent => .inl hsent) fun _ _ hsent => hsent
  | none =>
    refine post_orFail (fun _ => hrefl) fun control _ => ?_
    refine Post.bind (sends_sent.sendAuthenticated _ _ link) fun _ after hsent => ?_
    exact .inr ⟨after,_,hsent,not_not.mp hcurrent,rfl,rfl⟩

namespace Unprompted

theorem report (h : Unprompted R) {event : TransportEvent T} (hevent : event.Plain) :
    Stays R (Carrier.report (L := L) event) :=
  Stays.modifying fun link => h.plain event link hevent

theorem onClose (h : Unprompted R) {program : EStateM String L.RepairCloseState α}
    (hprogram : ∀ close after, Leaves program close after → L.CloseStep close after) :
    Stays R (Carrier.onClose program) := by
  intro link
  unfold Carrier.onClose
  cases hclose : link.repairClose with
  | none => exact h.refl link
  | some attempt =>
    dsimp only
    cases hrun : program attempt.close with
    | ok value close =>
      exact h.close link attempt close hclose (hprogram _ _ (.inl ⟨value,hrun⟩))
    | error message close =>
      exact h.close link attempt close hclose (hprogram _ _ (.inr ⟨message,hrun⟩))

theorem maybeSendRepairAck (h : Unprompted R) : Stays R (Carrier.maybeSendRepairAck (L := L)) := by
  refine Stays.get fun link => ?_
  split
  · exact h.pure _
  · split
    · refine h.bind (h.orFail _) fun ack => ?_
      refine h.bind (h.sendAuthenticatedTrackedWithPriority _ _ _) fun sent => ?_
      exact h.bind (h.onClose fun _ _ => .remoteAck _ _) fun _ =>
        h.modifies fun link => by constructor <;> rfl
    · exact h.pure _

theorem maybePublishRepairClosed (h : Unprompted R) :
    Stays R (Carrier.maybePublishRepairClosed (L := L)) := by
  intro link
  refine Post.getting ?_
  cases hclose : link.repairClose with
  | none => exact h.refl link
  | some attempt =>
    refine Post.ite (fun _ => ?_) fun _ => h.refl link
    exact h.closing link attempt hclose

theorem finishBoardRepair (h : Unprompted R) (binding : BoardSessionBinding) :
    Stays R (Carrier.finishBoardRepair (L := L) binding) := by
  refine Stays.get fun _ => h.bind (h.orElse _ _) fun attempt => ?_
  refine h.bind (h.stopIf _ _) fun _ => h.bind (h.onClose fun close after hleaves => ?_) fun _ => ?_
  · rcases hleaves with ⟨value,hrun⟩ | ⟨error,hrun⟩
    · cases hrun
      exact .terminal
    · cases hrun
  refine h.bind ?_ fun _ => h.bind h.maybeSendRepairAck fun _ => h.maybePublishRepairClosed
  unfold Carrier.sendFin
  split
  · refine h.bind (h.orFail _) fun fin => ?_
    exact h.bind (h.sendAuthenticatedTrackedWithPriority _ _ _) fun sent =>
      h.onClose fun _ _ => .localFin _ _
  · exact h.pure _

theorem handleRepairControl (h : Unprompted R) {observe : EStateM String L.RepairCloseState Unit}
    (hobserve : ∀ close after, Leaves observe close after → L.CloseStep close after) :
    Stays R (Carrier.handleRepairControl observe) :=
  Stays.get fun _ => h.bind (h.orElse _ _) fun _ => h.bind (h.onClose hobserve) fun _ =>
    h.bind h.maybeSendRepairAck fun _ => h.maybePublishRepairClosed

theorem resumeDesiredConnection (h : Unprompted R) :
    Stays R (Carrier.resumeDesiredConnection (L := L)) := by
  refine Stays.get fun link => ?_
  split
  · split
    · exact h.bind (h.modifies fun link => by constructor <;> rfl) fun _ =>
        h.report (by simp [TransportEvent.Plain])
    · exact h.bind (h.modifies fun link => by constructor <;> rfl) fun _ =>
        h.report (by simp [TransportEvent.Plain])
  · exact h.pure _

theorem beginAuthentication (h : Unprompted R) {hello : PeerHello}
    (hhello : link.remoteHello = some hello) (htrusted : hello.identity ∈ link.trusted) :
    Post (fun _ => R link) (fun _ => R link) (Carrier.beginAuthentication (L := L) link) := by
  refine Post.getting (Post.refuseIf (fun _ => h.refl link) fun _ => ?_)
  refine Post.getting ?_
  rw [hhello]
  refine Post.refuseIf (fun _ => h.refl link) fun _ => Post.getting ?_
  have hsent := SameSession.sendWire (L := L) (L.encodeHello link.localHello) .control link
  refine Post.bind (Post.mono hsent (fun _ _ hsame => hsame) fun _ after hsame => ?_)
    fun _ after hsame => Post.getting ?_
  · exact h.aside link after hsame
  have hpends : R link (after.pend (L.beginInitiator after.signingKey after.localHello hello
      after.draws).1) :=
    h.trans _ _ _ (h.aside link after hsame)
      (h.pend _ hello after (hsame.remoteHello.trans hhello) (hsame.trusted ▸ htrusted))
  refine Post.modifying (h.after hpends ?_)
  refine h.after (h.aside _ _ (by constructor <;> rfl)) (h.bind ?_ (fun _ => h.report ?_) _)
  · exact h.same (SameSession.sendWire _ _)
  · simp [TransportEvent.Plain]

theorem continueAfterHello (h : Unprompted R) {hello : PeerHello}
    (hhello : link.remoteHello = some hello) :
    Post (fun _ => R link) (fun _ => R link) (Carrier.continueAfterHello (L := L) hello link) := by
  refine Post.getting (Post.ite (fun htrusted => ?_) fun _ => ?_)
  · refine Post.modifying (h.after (h.aside _ _ ?_) (h.beginAuthentication hhello htrusted))
    constructor <;> rfl
  · refine Post.modifying (h.after (h.aside _ _ ?_) (h.report ?_ _))
    · constructor <;> rfl
    · simp [TransportEvent.Plain]

theorem continueEarly (h : Unprompted R) {earlyHello : Option PeerHello}
    (hhello : link.remoteHello = earlyHello) :
    Post (fun _ => R link) (fun _ => R link) (Carrier.continueEarly (L := L) earlyHello link) := by
  cases earlyHello with
  | none => exact h.refl link
  | some hello => exact h.continueAfterHello hhello

theorem handleInfo (h : Unprompted R) (bytes : Bytes) :
    Stays R (Carrier.handleInfo (L := L) bytes) := by
  refine h.bind (h.orFail _) fun hello link => Post.getting ?_
  refine Post.ite (fun _ => h.refl link) fun _ => ?_
  refine Post.refuseIf (fun _ => h.refl link) fun hfree => ?_
  simp only [not_or,Option.not_isSome_iff_eq_none] at hfree
  obtain ⟨hhello,hpending,hcodec⟩ := hfree
  refine Post.modifying (h.after (h.hello hello link hhello hpending hcodec) ?_)
  exact Post.ite (fun _ => h.continueAfterHello rfl) fun _ => h.refl _

theorem handleRemoteProfile (h : Unprompted R) (profile : LaneProfile) :
    Stays R (Carrier.handleRemoteProfile (L := L) profile) := by
  refine Stays.get fun link => ?_
  split
  · exact h.pure _
  refine h.bind (h.stopIf _ _) fun _ => ?_
  refine h.bind (h.report (by simp [TransportEvent.Plain])) fun _ => ?_
  have hrefused : ∀ text, Stays R (Carrier.report (.boardLink .refused) >>= fun _ =>
      Carrier.report (L := L) (.diagnostic text)) := fun text =>
    h.bind (h.report (by simp [TransportEvent.Plain])) fun _ =>
      h.report (by simp [TransportEvent.Plain])
  dsimp only
  split
  · exact hrefused _
  split
  · exact hrefused _
  split
  · exact hrefused _
  refine h.bind (h.onCodec _ fun codec after hleaves => .inr (.inr ⟨_,hleaves⟩)) fun _ => ?_
  refine h.bind (h.orElse _ _) fun ceiling => h.bind (h.orFail _) fun budget => ?_
  refine h.bind (h.same (SameSession.onReassembler _)) fun _ => ?_
  refine h.bind (h.modifies fun link => by constructor <;> rfl) fun _ => ?_
  refine Stays.get fun _ => h.bind (h.orElse _ _) fun binding => ?_
  exact h.report (by simp [TransportEvent.Plain])

theorem handleCapabilityReady (h : Unprompted R) (bundleDigest : Digest) :
    Stays R (Carrier.handleCapabilityReady (L := L) bundleDigest) := by
  intro link
  refine Post.getting (post_orElse (fun _ => h.refl link) fun waiting hwaiting => ?_)
  refine Post.getting (Post.refuseIf (fun _ => h.refl link) fun hcurrent => ?_)
  simp only [not_or,not_not] at hcurrent
  refine Post.modifying ?_
  refine h.after (h.confirmed link waiting hwaiting hcurrent.1) ?_
  exact h.report (by simp [TransportEvent.Plain]) _

theorem handleRemoteControl (h : Unprompted R) (sequence : UInt64) (bytes : Bytes) :
    Stays R (Carrier.handleRemoteControl (L := L) sequence bytes) := by
  refine h.bind (h.orFail _) fun control => ?_
  cases control with
  | profile profile => exact h.handleRemoteProfile profile
  | capabilityBundle bundle => exact h.throw _
  | repairFin fin => exact h.handleRepairControl fun _ _ => .remoteFin _ _ _
  | repairAck ack => exact h.handleRepairControl fun _ _ => .localFinAck _ _
  | capabilityReady bundleDigest => exact h.handleCapabilityReady bundleDigest

theorem handleRealtime (h : Unprompted R) (bytes : Bytes) :
    Stays R (Carrier.handleRealtime (L := L) bytes) := by
  refine Stays.get fun _ => h.bind (h.stopIf _ _) fun _ => h.bind (h.orFail _) fun frame => ?_
  cases frame with
  | midi midi => exact h.report (by simp [TransportEvent.Plain])
  | roundTable frame => exact h.report (by simp [TransportEvent.Plain])

theorem completeHandshake (h : Unprompted R) {pending : L.Pending} (wire : Bytes)
    (hpending : link.pending = some pending) :
    Post (fun _ => R link) (fun _ => R link)
      (Carrier.completeHandshake (L := L) pending wire link) := by
  have hunpend := h.unpend link
  refine Post.modifying (Post.getting ?_)
  refine post_orElse (fun _ => hunpend) fun remote hremote => ?_
  refine post_orFail (fun _ => hunpend) fun answer _ => ?_
  refine post_orFail (fun _ => hunpend) fun keys _ => Post.getting ?_
  refine post_orFail (fun _ => hunpend) fun codec _ => Post.modifying ?_
  refine h.after (h.authenticated codec remote pending link hpending hremote) ?_
  refine h.bind (h.report (by simp [TransportEvent.Plain])) (fun _ => ?_) _
  exact Stays.get fun _ => h.sendAuthenticated _ _

theorem handleScanResult (h : Unprompted R) (result : BleScanResult) :
    Stays R (Carrier.handleScanResult (L := L) result) := by
  refine Stays.get fun link => h.bind (h.report (by simp [TransportEvent.Plain])) fun _ => ?_
  split
  · refine h.bind (h.modifies fun link => by constructor <;> rfl) fun _ => ?_
    refine h.bind (h.same (SameSession.onHost _)) fun _ => ?_
    refine h.bind (h.modifies fun link => by constructor <;> rfl) fun _ => ?_
    exact h.report (by simp [TransportEvent.Plain])
  · exact h.pure _

theorem handleConnected (h : Unprompted R) (maxFragmentValueBytes : UInt16) :
    Stays R (Carrier.handleConnected (L := L) maxFragmentValueBytes) := by
  intro link
  have hlinked : R link link.linked :=
    h.trans _ _ _ (h.reset link.remoteHello link) (h.aside _ _ (by constructor <;> rfl))
  refine Post.getting (Post.modifying (Post.refuseIf (fun _ => hlinked) fun _ => ?_))
  let ready : BleLink L := { link.linked with
    localHello := { link.localHello with maxFragmentValueBytes } }
  have hready : R link (publish (.boardLink .authenticating) ready) :=
    h.trans _ _ _ (h.trans _ _ _ hlinked (h.aside _ ready (by constructor <;> rfl)))
      (h.plain _ _ (by simp [TransportEvent.Plain]))
  refine Post.modifying (Post.modifying (h.after hready (h.continueEarly ?_)))
  rw [publish_remoteHello]
  rfl

theorem handleDisconnected (h : Unprompted R) (reason : Option String) :
    Stays R (Carrier.handleDisconnected (L := L) reason) := by
  refine h.bind (Stays.modifying fun link => ?_) fun _ => ?_
  · exact h.trans _ _ _ (h.reset none link) (h.aside _ _ (by constructor <;> rfl))
  refine h.bind (h.report (by simp [TransportEvent.Plain])) fun _ => ?_
  split
  · exact h.resumeDesiredConnection
  · exact h.bind (h.report (by simp [TransportEvent.Plain])) fun _ => h.resumeDesiredConnection

theorem handleWriteComplete (h : Unprompted R) (messageId : UInt16) :
    Stays R (Carrier.handleWriteComplete (L := L) messageId) := by
  refine Stays.get fun link => ?_
  split
  · exact h.pure _
  · split
    · refine Stays.get fun _ => h.bind (h.orElse _ _) fun _ => ?_
      refine h.bind (h.onClose fun _ _ => .ackSent _ _) fun _ => ?_
      exact h.bind (h.modifies fun link => by constructor <;> rfl) fun _ =>
        h.maybePublishRepairClosed
    · exact h.pure _

theorem fail (h : Unprompted R) (text : String) (link : BleLink L) : R link (link.fail text) := by
  have hended : R link { link.ended with
      remoteLaneProfile := none
      repairAckWrite := none
      repairDeadline := none
      reassembler := L.resetReassembler link.reassembler
      scanRequested := false
      connectPending := false
      linkConnected := false } :=
    h.trans _ _ _ (h.ended link) (h.aside _ _ (by constructor <;> rfl))
  have hfailed := h.trans _ _ _ hended
    (h.plain (.boardLink .failed) _ (by simp [TransportEvent.Plain]))
  have htold := h.trans _ _ _ hfailed
    (h.plain (.diagnostic text) _ (by simp [TransportEvent.Plain]))
  unfold BleLink.fail
  dsimp only
  split
  · exact h.trans _ _ _ htold (h.aside _ _ (by constructor <;> rfl))
  · exact h.trans _ _ _ htold (h.aside _ _ (by constructor <;> rfl))

theorem checkDeadline (h : Unprompted R) (link : BleLink L) : R link link.checkDeadline := by
  unfold BleLink.checkDeadline
  split
  · exact h.fail _ link
  · exact h.refl link

theorem shutdown (h : Unprompted R) (link : BleLink L) : R link link.shutdown :=
  h.trans _ _ _ (h.reset none link) (h.aside _ _ (by constructor <;> rfl))

theorem reportTrusted (h : Unprompted R) : Stays R (Carrier.reportTrusted (L := L)) :=
  Stays.get fun _ => h.report (by simp [TransportEvent.Plain])

theorem startBoardScan (h : Unprompted R) : Stays R (Carrier.startBoardScan (L := L)) := by
  refine Stays.get fun link => ?_
  split
  · exact h.pure _
  · refine h.bind (h.same (SameSession.onHost _)) fun _ => ?_
    refine h.bind (h.modifies fun link => by constructor <;> rfl) fun _ => ?_
    exact h.report (by simp [TransportEvent.Plain])

theorem connectBoard (h : Unprompted R) (address : BleAddress) :
    Stays R (Carrier.connectBoard (L := L) address) := by
  refine Stays.get fun link => ?_
  split
  · exact h.pure _
  refine h.bind (Stays.modifying fun link => ?_) fun _ => Stays.get fun _ => ?_
  · exact h.trans _ _ _ (h.reset none link) (h.aside _ _ (by constructor <;> rfl))
  dsimp only
  split
  · exact h.bind (h.modifies fun link => by constructor <;> rfl) fun _ =>
      h.report (by simp [TransportEvent.Plain])
  · exact h.bind (h.modifies fun link => by constructor <;> rfl) fun _ => h.throw _

theorem disconnectBoard (h : Unprompted R) : Stays R (Carrier.disconnectBoard (L := L)) :=
  h.bind (h.modifies fun link => by constructor <;> rfl) fun _ => h.same (SameSession.onHost _)

theorem trustBoard (h : Unprompted R) (identity : Digest) :
    Stays R (Carrier.trustBoard (L := L) identity) := by
  intro link
  refine Post.getting (Post.ite (fun htrusted => ?_) fun huntrusted => ?_)
  · cases hhello : link.remoteHello with
    | none => exact h.refl link
    | some hello =>
      refine Post.refuseIf (fun _ => h.refl link) fun hsame => ?_
      refine Post.ite (fun _ => h.beginAuthentication hhello ?_) fun _ => h.refl link
      rwa [not_not.mp hsame]
  · refine Post.refuseIf (fun _ => h.refl link) fun hobserved => Post.modifying ?_
    have htrusts := h.trans _ _ { link with
      trusted := insert identity link.trusted, trustCandidate := none }
      (h.trusts identity link) (h.aside _ _ (by constructor <;> rfl))
    refine h.after htrusts (post_reportTrusted ?_)
    refine h.after (h.plain (.trustedBoards
      (min (insert identity link.trusted).card (2^32-1))) _ trivial) ?_
    refine Post.ite (fun hknown => ?_) fun _ => ?_
    · obtain ⟨hello,hhello⟩ := Option.isSome_iff_exists.mp hknown.1
      refine h.beginAuthentication ((publish_remoteHello _ _).trans hhello) ?_
      have hsame : hello.identity = identity := by simpa [hhello] using hobserved
      rw [publish_trusted,hsame]
      exact Finset.mem_insert_self _ _
    · exact Post.ite (fun _ => h.resumeDesiredConnection _) fun _ => h.refl _

theorem configureBle (h : Unprompted R) (identitySeed : Digest) (trustedBoards : List Digest) :
    Stays R (Carrier.configureBle (L := L) identitySeed trustedBoards) := by
  refine fun link => Post.getting (Post.refuseIf (fun _ => h.refl link) fun hfree => ?_)
  simp only [not_or,Option.not_isSome_iff_eq_none] at hfree
  obtain ⟨hhello,hpending,hcodec⟩ := hfree
  refine h.after (h.configures trustedBoards.toFinset link hhello hpending hcodec) ?_
  refine Post.modifying (h.after (h.aside _ _ ?_) (h.reportTrusted _))
  constructor <;> rfl

theorem abortBoardRepair (h : Unprompted R) (binding : BoardSessionBinding) :
    Stays R (Carrier.abortBoardRepair (L := L) binding) := fun link =>
  Post.getting (Post.ite (fun _ => h.fail _ link) fun _ => h.refl link)

theorem sendRoundTable (h : Unprompted R) (frame : T.RoundTableFrame) :
    Stays R (Carrier.sendRoundTable (L := L) frame) :=
  h.bind (h.orFail _) fun _ => h.sendAuthenticated _ _

theorem sendLinkRealtime (h : Unprompted R) (midi : T.Midi) :
    Stays R (Carrier.sendLinkRealtime (L := L) midi) :=
  h.bind (h.orFail _) fun _ => h.sendAuthenticated _ _

theorem handleLinkCommand (h : Unprompted R) {command : BridgeCommand T}
    (hordinary : command.Ordinary) : Stays R (Carrier.handleLinkCommand (L := L) command) := by
  cases command with
  | startBoardScan => exact h.startBoardScan
  | connectBoard address => exact h.connectBoard address
  | disconnectBoard => exact h.disconnectBoard
  | trustBoard identity => exact h.trustBoard identity
  | finishBoardRepair binding => exact h.finishBoardRepair binding
  | abortBoardRepair binding => exact h.abortBoardRepair binding
  | sendBoardRoundTable frame => exact h.sendRoundTable frame
  | configureBle identitySeed trustedBoards => exact h.configureBle identitySeed trustedBoards
  | forgetBoard _ | sendBoardCapabilityBundle _ _ | sendBoardRepairFrame _ _
  | completeBoardRepair _ => exact absurd hordinary id
  | _ => exact h.throw _

theorem forgetBoard (h : Unprompted R) (identity : Digest)
    (hforgets : ∀ link, R link { link with trusted := link.trusted.erase identity }) :
    Stays R (Carrier.forgetBoard (L := L) identity) :=
  h.bind (Stays.modifying hforgets) fun _ => h.reportTrusted

theorem sendCapabilityBundle (h : Unprompted R) (binding : BoardSessionBinding)
    (bundle : Traced Bytes) (hbundle : ∀ digest link,
      R link { link with pendingProvisioning := some ⟨(binding,digest),bundle.origin⟩ }) :
    Stays R (Carrier.sendCapabilityBundle (L := L) binding bundle) := by
  refine Stays.get fun _ => h.bind (h.stopIf _ _) fun _ => Stays.get fun _ => ?_
  refine h.bind (h.stopIf _ _) fun _ => h.bind (h.orFail _) fun receiver => ?_
  refine h.bind (h.stopIf _ _) fun _ => Stays.get fun link => ?_
  cases link.pendingProvisioning with
  | some waiting => exact h.stopIf _ _
  | none =>
    refine h.bind (h.orFail _) fun control => h.bind (h.sendAuthenticated _ _) fun _ => ?_
    exact Stays.modifying (hbundle _)

theorem carries (h : Unprompted R) {frame : Traced Bytes}
    (hcarries : ∀ attempt, link.repairClose = some attempt →
      R link { link with carried := link.carried ++ [(attempt.number,frame)] }) :
    Post (fun _ => R link) (fun _ => R link) (Carrier.carries (L := L) frame link) := by
  change R link _
  beta_reduce
  split
  · exact h.refl link
  · rename_i attempt hattempt
    exact hcarries attempt hattempt

/-- A frame of the room's attempt leaves inside the carrier's. -/
theorem sendBoardRepairFrame (h : Unprompted R) (binding : BoardSessionBinding)
    (frame : Traced Bytes)
    (hopens : ∀ link, link.currentBoardBinding = some binding → link.repairClose = none →
      R link (link.opened binding frame.value))
    (hcarries : ∀ link attempt, (L.SessionStable → link.currentBoardBinding = some binding) →
      link.repairClose = some attempt → attempt.binding = binding →
        R link { link with carried := link.carried ++ [(attempt.number,frame)] }) :
    Stays R (Carrier.sendBoardRepairFrame (L := L) binding frame) := by
  refine fun link => Post.getting (Post.refuseIf (fun _ => h.refl link) fun hcurrent => ?_)
  refine Post.getting (Post.refuseIf (fun _ => h.refl link) fun _ => ?_)
  have hopened : Post (fun _ after => R link after ∧ after.currentBoardBinding = some binding)
      (fun _ => R link) (Carrier.openCarrier (L := L) binding frame.value link) := by
    refine Post.getting (Post.ite (fun hnone => ?_) fun _ => ⟨h.refl link,not_not.mp hcurrent⟩)
    rw [Option.isNone_iff_eq_none] at hnone
    have hopens' := h.trans _ _ { link.opened binding frame.value with
      repairDeadline := some (link.now+repairCloseTimeout) }
      (hopens link (not_not.mp hcurrent) hnone) (h.aside _ _ (by constructor <;> rfl))
    refine Post.modifying ⟨h.trans _ _ _ hopens' (h.plain (.boardLink .repairing) _ ?_),?_⟩
    · simp [TransportEvent.Plain]
    · rw [publish_binding]
      exact not_not.mp hcurrent
  refine Post.bind hopened fun _ after hafter => ?_
  obtain ⟨hbefore,hbinding⟩ := hafter
  refine h.after hbefore (Post.getting (Post.refuseIf (fun _ => h.refl _) fun hother => ?_))
  refine Post.bind (Post.and (h.sendAuthenticatedTracked _ _ after)
    (sends_sent.sendAuthenticatedTracked _ _ after) |>.mono (fun _ _ hboth => hboth)
      fun _ _ hboth => hboth.1) fun sent last hlast => ?_
  obtain ⟨hsent,hkept⟩ := hlast
  refine h.after hsent (Post.bind ?_ fun _ state hstate => h.after hstate
    (h.onClose (fun _ _ => .localRepair _ _) state))
  exact h.carries (fun attempt hlast => by
    have hattempt : after.repairClose = some attempt := hkept.repairClose.symm.trans hlast
    refine hcarries last attempt (fun hstable => ?_) hlast ?_
    · exact (hkept.binding hstable).trans hbinding
    · simpa [hattempt] using hother)

theorem completeBoardRepair (h : Unprompted R) (binding : Traced BoardSessionBinding)
    (hcompletes : ∀ link, link.currentBoardBinding = some binding.value →
      link.repairAwaitingConfirmation = some binding.value →
        R link (publish (.boardLink .ready) { link with
          repairAwaitingConfirmation := none
          readied := link.readied ++ [⟨binding,link.facts⟩] })) :
    Stays R (Carrier.completeBoardRepair (L := L) binding) := by
  refine fun link => Post.getting (Post.refuseIf (fun _ => h.refl link) fun hcurrent => ?_)
  simp only [not_or,not_not] at hcurrent
  refine h.after (h.aside link { link with repairDeadline := none } (by constructor <;> rfl)) ?_
  exact hcompletes { link with repairDeadline := none } hcurrent.1 hcurrent.2

end Unprompted

namespace Upkeep

theorem keeps (h : Upkeep R) {P : BleLink L → Prop}
    (hpass : ∀ link link', R link link' → P link → P link') :
    Upkeep fun link link' : BleLink L => P link → P link' where
  refl _ hlink := hlink
  trans _ _ _ h h' hfirst := h' (h hfirst)
  aside link link' hsame := hpass _ _ (h.aside link link' hsame)
  codec link codec after hcodec hstep := hpass _ _ (h.codec link codec after hcodec hstep)
  exchanged link codec hcodec := hpass _ _ (h.exchanged link codec hcodec)
  plain event link hevent := hpass _ _ (h.plain event link hevent)
  inbound binding frame link := hpass _ _ (h.inbound binding frame link)
  takes link := hpass _ _ (h.takes link)
  observes link attempt close hclose := hpass _ _ (h.observes link attempt close hclose)
  closing link attempt hclose := hpass _ _ (h.closing link attempt hclose)
  reset hello link := hpass _ _ (h.reset hello link)
  ended link := hpass _ _ (h.ended link)
  pend pending hello link hhello htrusted := hpass _ _ (h.pend pending hello link hhello htrusted)
  unpend link := hpass _ _ (h.unpend link)
  hello hello link hhello hpending hcodec := hpass _ _ (h.hello hello link hhello hpending hcodec)
  authenticated codec remote pending link hpending hremote :=
    hpass _ _ (h.authenticated codec remote pending link hpending hremote)
  confirmed link waiting hwaiting hcurrent :=
    hpass _ _ (h.confirmed link waiting hwaiting hcurrent)
  trusts identity link := hpass _ _ (h.trusts identity link)
  configures trusted link hhello hpending hcodec :=
    hpass _ _ (h.configures trusted link hhello hpending hcodec)

theorem publishRepair (h : Upkeep R) (binding : BoardSessionBinding) (frame : Bytes) :
    Stays R (Carrier.publishRepair (L := L) (.boardRepairInbound binding frame)) :=
  Stays.get fun _ => h.bind (h.stopIf _ _) fun _ => Stays.modifying (h.inbound binding frame)

theorem observeRemoteRepair (h : Upkeep R) (sequence : UInt64) :
    Stays R (Carrier.onClose (L.observeRemoteRepair sequence)) := by
  intro link
  unfold Carrier.onClose
  cases hclose : link.repairClose with
  | none => exact h.refl link
  | some attempt =>
    dsimp only
    cases L.observeRemoteRepair sequence attempt.close with
    | ok value close => exact h.observes link attempt close hclose
    | error message close => exact h.observes link attempt close hclose

theorem handleRepairFrame (h : Upkeep R) (sequence : UInt64) (frame : Bytes) :
    Stays R (Carrier.handleRepairFrame (L := L) sequence frame) := by
  refine Stays.get fun link => h.bind (h.stopIf _ _) fun _ => h.bind (h.stopIf _ _) fun _ => ?_
  refine h.bind (h.stopIf _ _) fun _ => h.bind (h.orElse _ _) fun binding => ?_
  refine h.bind (h.orElse _ _) fun attempt => h.bind (h.stopIf _ _) fun _ => ?_
  exact h.bind (h.observeRemoteRepair sequence) fun _ => h.bind (h.publishRepair _ _) fun _ =>
    h.maybeSendRepairAck

theorem handleWire (h : Upkeep R) (wire : Bytes) : Stays R (Carrier.handleWire (L := L) wire) := by
  intro link
  refine Post.getting ?_
  cases hpending : link.pending with
  | some pending => exact h.completeHandshake wire hpending
  | none =>
    refine h.bind ?_ (fun message => h.bind h.exchanges fun _ => ?_) link
    · exact h.onCodec _ fun codec after hleaves => .inr (.inl ⟨wire,hleaves⟩)
    · cases message.lane with
      | control => exact h.handleRemoteControl _ _
      | realtime => exact h.handleRealtime _
      | hhhsRepair => exact h.handleRepairFrame _ _

theorem handleNotification (h : Upkeep R) (bytes : Bytes) :
    Stays R (Carrier.handleNotification (L := L) bytes) := by
  refine h.bind (h.same (SameSession.onReassembler _)) fun wire => ?_
  cases wire with
  | none => exact h.pure _
  | some wire => exact h.handleWire wire

theorem tryHostEvent (h : Upkeep R) (event : BleHostEvent) :
    Stays R (Carrier.tryHostEvent (L := L) event) := by
  cases event with
  | scanResult result => exact h.handleScanResult result
  | connected address maxFragmentValueBytes => exact h.handleConnected maxFragmentValueBytes
  | disconnected address reason => exact h.handleDisconnected reason
  | info bytes => exact h.handleInfo bytes
  | notification bytes => exact h.handleNotification bytes
  | writeComplete messageId => exact h.handleWriteComplete messageId
  | diagnostic text => exact h.report (by simp [TransportEvent.Plain])
  | permissionDenied => exact h.throw _
  | eventsDropped count => exact h.throw _
  | error error => exact h.throw _

theorem handleHostEvent (h : Upkeep R) (event : BleHostEvent) (link : BleLink L) :
    R link (handleHostEvent event link) := by
  have hevent := h.tryHostEvent event link
  unfold Carrier.handleHostEvent
  cases hrun : Carrier.tryHostEvent event link with
  | ok done after =>
    rw [hrun] at hevent
    exact hevent
  | error error after =>
    rw [hrun] at hevent
    exact h.trans _ _ _ hevent (h.fail _ after)

theorem pollLoop (h : Upkeep R) (rounds : Nat) (link : BleLink L) :
    R link (link.pollLoop rounds).2 := by
  induction rounds generalizing link with
  | zero => exact h.takes link
  | succ rounds ih =>
    unfold BleLink.pollLoop
    split
    · rename_i event events hevents
      have htakes := h.takes link
      rw [hevents] at htakes
      exact htakes
    · split
      · exact h.aside _ _ (by constructor <;> rfl)
      · rename_i event host hpoll
        have hhost : R link { link with host } := h.aside _ _ (by constructor <;> rfl)
        exact h.trans _ _ _ hhost (h.trans _ _ _ (h.handleHostEvent event _) (ih _))

theorem pollLoop_taken (h : Upkeep R) (rounds : Nat) (link : BleLink L) :
    ∃ middle, R link middle ∧ (link.pollLoop rounds).1 = middle.events.head? ∧
      (link.pollLoop rounds).2 = { middle with events := middle.events.tail } := by
  induction rounds generalizing link with
  | zero => exact ⟨link,h.refl link,rfl,rfl⟩
  | succ rounds ih =>
    unfold BleLink.pollLoop
    split
    · rename_i event events hevents
      exact ⟨link,h.refl link,by rw [hevents]; rfl,by rw [hevents]; rfl⟩
    · rename_i hevents
      split
      · rename_i host hpoll
        refine ⟨{ link with host },h.aside _ _ (by constructor <;> rfl),?_,?_⟩
        · rw [hevents]
          rfl
        · rw [hevents]
          rfl
      · rename_i event host hpoll
        have hhost : R link { link with host } := h.aside _ _ (by constructor <;> rfl)
        obtain ⟨middle,hmiddle,htaken⟩ := ih (Carrier.handleHostEvent event { link with host })
        exact ⟨middle,h.trans _ _ _ hhost (h.trans _ _ _ (h.handleHostEvent event _) hmiddle),
          htaken⟩

theorem pollEvent (h : Upkeep R) (link : BleLink L) : R link link.pollEvent.2 := by
  unfold BleLink.pollEvent
  dsimp only
  split
  · exact h.trans _ _ _ (h.checkDeadline link) (h.aside _ _ (by constructor <;> rfl))
  · exact h.trans _ _ _ (h.checkDeadline link) (h.pollLoop 64 _)

theorem pollEvent_taken (h : Upkeep R) (link : BleLink L) :
    ∃ middle, R link middle ∧
      ((link.pollEvent.1 = middle.events.head? ∧
        link.pollEvent.2 = { middle with events := middle.events.tail }) ∨
      (∃ text, link.pollEvent.1 = some (.diagnostic text)) ∧
        SameSession middle link.pollEvent.2) := by
  have hdeadline := h.checkDeadline link
  unfold BleLink.pollEvent
  dsimp only
  split
  · exact ⟨_,hdeadline,.inr ⟨⟨_,rfl⟩,by constructor <;> rfl⟩⟩
  · obtain ⟨middle,hmiddle,htaken⟩ := h.pollLoop_taken 64 link.checkDeadline
    exact ⟨middle,h.trans _ _ _ hdeadline hmiddle,.inl htaken⟩

end Upkeep

end Programs

end WalkieSongie.Carrier
