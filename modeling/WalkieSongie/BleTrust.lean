import WalkieSongie.BleUpkeep
set_option autoImplicit false

/-!
Whoever the session talks to is trusted, unless trust is taken back while it talks.
-/

namespace WalkieSongie.Carrier
open TaskProgram
open BleLink

variable {T : RealtimeTypes} {L : BleLibrary T} {link link' : BleLink L}

namespace BleLink

structure Unused (link : BleLink L) : Prop where
  events : link.events = []
  remoteHello : link.remoteHello = none
  pendingProvisioning : link.pendingProvisioning = none
  pending : link.pending = none
  codec : link.codec = none
  repairClose : link.repairClose = none
  awaiting : link.repairAwaitingConfirmation = none
  exchanged : link.exchanged = []
  placements : link.placements = []
  carried : link.carried = []
  facts : link.facts = {}
  readied : link.readied = []

theorem new_unused {host : L.Host} {config : BleLinkConfig}
    (hnew : BleLink.new host config = .ok link) : link.Unused := by
  unfold BleLink.new at hnew
  obtain ⟨_,_,hprofile⟩ := bind_eq_ok.mp hnew
  obtain ⟨profile,_,hmade⟩ := bind_eq_ok.mp hprofile
  split at hmade
  · cases hmade
  · split at hmade
    · cases hmade
    · split at hmade
      · cases hmade
      · cases hmade
        constructor <;> rfl

/-- A handshake is under way or a session is established. -/
def Busy (link : BleLink L) : Prop := link.pending ≠ none ∨ link.codec ≠ none

/-- A busy session's board is trusted, and so was everyone it exchanged a message with. -/
structure TrustKept (link : BleLink L) : Prop where
  session : link.Busy → ∃ hello, link.remoteHello = some hello ∧ hello.identity ∈ link.trusted
  exchanged : ∀ exchange ∈ link.exchanged, exchange.peer ∈ exchange.trusted

/-- The session's keys are those of the board that said hello. -/
structure Trusting (link : BleLink L) : Prop extends TrustKept link where
  peer : ∀ codec, link.codec = some codec → ∀ hello, link.remoteHello = some hello →
    codec.peer = hello.identity

theorem publish_pending (event : TransportEvent T) (link : BleLink L) :
    (publish event link).pending = link.pending := by
  unfold publish
  split <;> rfl

theorem publish_codec (event : TransportEvent T) (link : BleLink L) :
    (publish event link).codec = link.codec := by
  unfold publish
  split <;> rfl

theorem publish_exchanged (event : TransportEvent T) (link : BleLink L) :
    (publish event link).exchanged = link.exchanged := by
  unfold publish
  split <;> rfl

namespace Trusting

theorem of_same (h : link.Trusting) (htrusted : link'.trusted = link.trusted)
    (hhello : link'.remoteHello = link.remoteHello) (hpending : link'.pending = link.pending)
    (hcodec : link'.codec = link.codec) (hexchanged : link'.exchanged = link.exchanged) :
    link'.Trusting := by
  refine ⟨⟨fun hbusy => ?_,by rw [hexchanged]; exact h.exchanged⟩,?_⟩
  · rw [Busy,hpending,hcodec] at hbusy
    rw [hhello,htrusted]
    exact h.session hbusy
  · rw [hcodec,hhello]
    exact h.peer

theorem publish (h : link.Trusting) (event : TransportEvent T) :
    (BleLink.publish event link).Trusting :=
  h.of_same (publish_trusted _ _) (publish_remoteHello _ _) (publish_pending _ _)
    (publish_codec _ _) (publish_exchanged _ _)

theorem of_idle (h : link.Trusting) (hpending : link'.pending = none)
    (hcodec : link'.codec = none) (hexchanged : link'.exchanged = link.exchanged) :
    link'.Trusting := by
  refine ⟨⟨fun hbusy => ?_,by rw [hexchanged]; exact h.exchanged⟩,by simp [hcodec]⟩
  simp [Busy,hpending,hcodec] at hbusy

end Trusting

end BleLink

theorem upkeep_trusting : Upkeep (L := L) fun link link' => link.Trusting → link'.Trusting where
  refl link h := h
  trans first second third hfirst hsecond h := hsecond (hfirst h)
  aside link link' hsame h :=
    h.of_same hsame.trusted hsame.remoteHello hsame.pending hsame.codec hsame.exchanged
  codec link codec after hcodec hstep h := by
    refine ⟨⟨fun hbusy => h.session (.inr (by simp [hcodec])),h.exchanged⟩,?_⟩
    intro later hlater
    cases hlater
    exact h.peer codec hcodec
  exchanged link codec hcodec h := by
    refine ⟨⟨h.session,fun exchange hmem => ?_⟩,h.peer⟩
    cases List.mem_append.mp hmem with
    | inl hold => exact h.exchanged exchange hold
    | inr hnew =>
      obtain rfl := List.mem_singleton.mp hnew
      obtain ⟨hello,hhello,htrusted⟩ := h.session (.inr (by simp [hcodec]))
      simp only
      rwa [h.peer codec hcodec hello hhello]
  plain event link hevent h := h.publish event
  inbound binding frame link h := h.of_same rfl rfl rfl rfl rfl
  takes link h := h.of_same rfl rfl rfl rfl rfl
  observes link attempt close hclose h := h.of_same rfl rfl rfl rfl rfl
  closing link attempt hclose h := by
    refine Trusting.publish ?_ _
    exact h.of_same rfl rfl rfl rfl rfl
  reset hello link h := h.of_idle rfl rfl rfl
  ended link h := h.of_idle rfl rfl rfl
  pend pending hello link hhello htrusted h :=
    ⟨⟨fun _ => ⟨hello,hhello,htrusted⟩,h.exchanged⟩,h.peer⟩
  unpend link h :=
    ⟨⟨fun hbusy => h.session (.inr (by simpa [Busy] using hbusy)),h.exchanged⟩,h.peer⟩
  hello hello link hhello hpending hcodec h := h.of_idle hpending hcodec rfl
  authenticated codec remote pending link hpending hremote h := by
    obtain ⟨hello,hhello,htrusted⟩ := h.session (.inl (by simp [hpending]))
    refine ⟨⟨fun _ => ⟨hello,hhello,htrusted⟩,h.exchanged⟩,?_⟩
    intro later hlater other hother
    cases hlater
    have hsame : some remote = some other := hremote.symm.trans hother
    rw [Option.some.inj hsame]
  confirmed link waiting hwaiting hcurrent h := by
    refine Trusting.publish ?_ _
    exact h.of_same rfl rfl rfl rfl rfl
  trusts identity link h := by
    refine ⟨⟨fun hbusy => ?_,h.exchanged⟩,h.peer⟩
    obtain ⟨hello,hhello,htrusted⟩ := h.session hbusy
    exact ⟨hello,hhello,Finset.mem_insert_of_mem htrusted⟩
  configures trusted link hhello hpending hcodec h := h.of_idle hpending hcodec rfl

/-- What the application does with the session, and what goes on around it. -/
inductive LinkStep (L : BleLibrary T) where
  | start
  | command (command : BridgeCommand T)
  | realtime (midi : T.Midi)
  | poll
  | shutdown
  | hostMoves (host : L.Host)
  | clock (now : Nat)

/-- The state that a call leaves, also when it is refused. -/
def stateAfter {ε σ α : Type} : EStateM.Result ε σ α → σ
  | .ok _ state => state
  | .error _ state => state

theorem Post.stateAfter {α : Type} {P : BleLink L → Prop}
    {result : EStateM.Result BridgeError (BleLink L) α}
    (h : Post (fun _ => P) (fun _ => P) result) : P (Carrier.stateAfter result) := by
  cases result <;> exact h

namespace BleLink

def step (link : BleLink L) : LinkStep L → BleLink L
  | .start => stateAfter (reportTrusted link)
  | .command command => stateAfter (handleLinkCommand command link)
  | .realtime midi => stateAfter (sendLinkRealtime midi link)
  | .poll => link.pollEvent.2
  | .shutdown => link.shutdown
  | .hostMoves host => { link with host }
  | .clock now => { link with now }

def run (link : BleLink L) (steps : List (LinkStep L)) : BleLink L := steps.foldl step link

def MeetsTrust (link : BleLink L) : LinkStep L → Prop
  | .command (.forgetBoard identity) =>
    link.Busy → ∀ hello, link.remoteHello = some hello → hello.identity ≠ identity
  | _ => True

def MeetsTrustThroughout (link : BleLink L) : List (LinkStep L) → Prop
  | [] => True
  | next :: steps => link.MeetsTrust next ∧ (link.step next).MeetsTrustThroughout steps

namespace Trusting

theorem stateAfter {α : Type} {program : LinkM L α} (h : link.Trusting)
    (hprogram : Stays (fun link link' : BleLink L => link.Trusting → link'.Trusting) program) :
    (Carrier.stateAfter (program link)).Trusting :=
  Post.stateAfter ((hprogram link).mono (fun _ _ hkeeps => hkeeps h) fun _ _ hkeeps => hkeeps h)

theorem command (h : link.Trusting) (command : BridgeCommand T)
    (hkeeps : ∀ identity, command ≠ .forgetBoard identity) :
    (Carrier.stateAfter (handleLinkCommand command link)).Trusting := by
  refine h.stateAfter ?_
  cases command with
  | forgetBoard identity => exact absurd rfl (hkeeps identity)
  | sendBoardCapabilityBundle binding bundle =>
    exact upkeep_trusting.sendCapabilityBundle binding bundle fun digest link h =>
      h.of_same rfl rfl rfl rfl rfl
  | sendBoardRepairFrame binding frame =>
    exact upkeep_trusting.sendBoardRepairFrame binding frame
      (fun link _ _ h => h.of_same rfl rfl rfl rfl rfl)
      fun link attempt _ _ _ h => h.of_same rfl rfl rfl rfl rfl
  | completeBoardRepair binding =>
    refine upkeep_trusting.completeBoardRepair binding fun link _ _ h => Trusting.publish ?_ _
    exact h.of_same rfl rfl rfl rfl rfl
  | _ => exact upkeep_trusting.handleLinkCommand trivial

theorem forget (h : link.Trusting) {identity : Digest}
    (hmeets : link.MeetsTrust (.command (.forgetBoard identity))) :
    (link.step (.command (.forgetBoard identity))).Trusting := by
  let after : BleLink L := { link with trusted := link.trusted.erase identity }
  have hstands : after.Trusting := by
    refine ⟨⟨fun hbusy => ?_,h.exchanged⟩,h.peer⟩
    obtain ⟨hello,hhello,htrusted⟩ := h.session hbusy
    exact ⟨hello,hhello,Finset.mem_erase.mpr ⟨hmeets hbusy hello hhello,htrusted⟩⟩
  exact hstands.publish _

theorem step (h : link.Trusting) {next : LinkStep L} (hmeets : link.MeetsTrust next) :
    (link.step next).Trusting := by
  cases next with
  | start => exact h.stateAfter upkeep_trusting.reportTrusted
  | command command =>
    by_cases hforget : ∃ identity, command = .forgetBoard identity
    · obtain ⟨identity,rfl⟩ := hforget
      exact h.forget hmeets
    · exact h.command command fun identity hsame => hforget ⟨identity,hsame⟩
  | realtime midi => exact h.stateAfter (upkeep_trusting.sendLinkRealtime midi)
  | poll => exact upkeep_trusting.pollEvent link h
  | shutdown => exact h.of_idle rfl rfl rfl
  | hostMoves host => exact h.of_same rfl rfl rfl rfl rfl
  | clock now => exact h.of_same rfl rfl rfl rfl rfl

theorem meets_of_kept {next : LinkStep L} (hkept : (link.step next).TrustKept) :
    link.MeetsTrust next := by
  cases next with
  | command command =>
    cases command with
    | forgetBoard identity =>
      intro hbusy hello hhello hsame
      let after : BleLink L := { link with trusted := link.trusted.erase identity }
      have hstep : link.step (.command (.forgetBoard identity)) =
          BleLink.publish (.trustedBoards (min after.trusted.card (2^32-1))) after := rfl
      rw [hstep] at hkept
      have hstill : (BleLink.publish (.trustedBoards (min after.trusted.card (2^32-1)))
          after).Busy := by
        rw [Busy,publish_pending,publish_codec]
        exact hbusy
      obtain ⟨other,hother,htrusted⟩ := hkept.session hstill
      rw [publish_remoteHello] at hother
      rw [publish_trusted] at htrusted
      obtain rfl : hello = other := Option.some.inj (hhello.symm.trans hother)
      exact (Finset.mem_erase.mp htrusted).1 hsame
    | _ => trivial
  | _ => trivial

theorem run (h : link.Trusting) {steps : List (LinkStep L)}
    (hmeets : link.MeetsTrustThroughout steps) : (link.run steps).Trusting := by
  induction steps generalizing link with
  | nil => exact h
  | cons next steps ih => exact ih (h.step hmeets.1) hmeets.2

theorem new {host : L.Host} {config : BleLinkConfig} (hnew : BleLink.new host config = .ok link) :
    link.Trusting := by
  have hunused := new_unused hnew
  refine ⟨⟨fun hbusy => ?_,by simp [hunused.exchanged]⟩,by simp [hunused.codec]⟩
  simp [Busy,hunused.pending,hunused.codec] at hbusy

end Trusting

end BleLink

/-- The closing of a repair, told by what has gone out and come in of it. -/
structure PlainClose where
  /-- How many frames of the board were taken. -/
  taken : Nat := 0
  terminal : Bool := false
  finSent : Bool := false
  finAcked : Bool := false
  remoteFin : Bool := false
  ackSent : Bool := false
  ackWritten : Bool := false

def plainLaneProfile : LaneProfile := ⟨1,1,64,1,1,1,7,512,256⟩

/-- The first byte of a wire is its lane. -/
def plainMessage : Bytes → Except String AuthenticatedMessage
  | 0 :: payload => .ok ⟨.control,0,payload⟩
  | 1 :: payload => .ok ⟨.realtime,0,payload⟩
  | 2 :: payload => .ok ⟨.hhhsRepair,0,payload⟩
  | _ => .error "unknown lane"

def plainControl : Bytes → Except String (ControlFrame Unit Unit)
  | [0] => .ok (.profile plainLaneProfile)
  | [1,digest] => .ok (.capabilityReady digest.toNat)
  | [2] => .ok (.repairFin ())
  | [3] => .ok (.repairAck ())
  | _ => .error "unknown control frame"

def plainHello : Bytes → Except String PeerHello
  | [identity] => .ok ⟨identity.toNat,1,20,3⟩
  | _ => .error "malformed hello"

/-- A bundle is its receiver, and a byte that tells it from others. -/
def plainReceiver : Bytes → Except String Digest
  | [receiver,_] => .ok receiver.toNat
  | _ => .error "malformed bundle"

/-- A board that speaks in the clear, over a host that plays a script of events. -/
def plainBle : BleLibrary plainTypes where
  Host := List BleHostEvent
  startScan := pure ()
  stopScan := pure ()
  connect _ := pure ()
  disconnect := pure ()
  writeRxMessage _ := pure ()
  pollHost script := (script.head?,script.tail)
  fragments _ _ _ := .ok ()
  random _ := 1
  publicIdentity seed := seed
  decodeHello := plainHello
  encodeHello _ := []
  supportsRealtime _ := true
  supportsRepair _ := true
  localCapabilities := 3
  minFragmentValueBytes := 20
  hardMaxPayloadBytes := 4096
  hardMaxWireBytes := 8192
  completeWireCeiling length := some (length+32)
  Pending := Unit
  Keys := Unit
  Codec := Unit
  beginInitiator _ _ _ _ := ((),[])
  decodeAnswer wire := .ok wire
  complete _ _ _ := .ok ()
  newCodec _ _ := .ok ()
  sessionId _ := 7
  encode lane payload := pure (0,(if lane = .hhhsRepair then 2 else 0) :: payload)
  decode wire := fun codec => match plainMessage wire with
    | .ok message => .ok message codec
    | .error reason => .error reason codec
  restrictPayload _ := pure ()
  Budget := Unit
  Reassembler := Unit
  reassemblyBudget _ _ _ := .ok ()
  newReassembler _ := .ok ()
  push wire := pure (some wire)
  restrictBudget _ := pure ()
  resetReassembler reassembler := reassembler
  RepairFin := Unit
  RepairAck := Unit
  decodeControl := plainControl
  encodeProfile _ := [0]
  encodeBundle bundle := .ok bundle
  encodeFin _ := [2]
  encodeAck _ := [3]
  AttemptId := Unit
  RepairCloseState := PlainClose
  repairAttemptId _ _ := ()
  newClose _ := {}
  markLocalTerminal close := { close with terminal := true }
  localFinPending close := close.terminal && !close.finSent
  localFin _ := .ok ()
  remoteAckPending close := close.terminal && close.remoteFin && !close.ackSent
  remoteAck _ := .ok ()
  isConfirmedClosed close := close.finAcked && close.ackWritten
  observeLocalRepair _ := pure ()
  observeLocalFinEncoded _ := modify fun close => { close with finSent := true }
  observeRemoteAckEncoded _ := modify fun close => { close with ackSent := true }
  observeRemoteFin _ _ := modify fun close => { close with remoteFin := true }
  observeLocalFinAck _ := modify fun close => { close with finAcked := close.finSent }
  confirmRemoteAckSent _ := modify fun close => { close with ackWritten := true }
  observeRemoteRepair _ := modify fun close => { close with taken := close.taken+1 }
  expectedReceiver := plainReceiver
  digestOf bundle := bundle.tail.head?.elim 0 UInt8.toNat
  encodeMidi _ := .ok []
  encodeRoundTable _ := .ok []
  decodeRealtime _ := .error "no realtime"
  capMusic := 1
  capHhhsRepair := 2
  capRealtime := 4
  capWalkieExtension := 8
  maxReplicaRecordBytes := 64
  wireGeneration := 1
  realtimeGeneration _ := 1
  withRealtimeGeneration capabilities _ := capabilities

def plainConfig : BleLinkConfig := ⟨1,[5],⟨1,1,1,1,1,7⟩,512,256⟩

section Trust

theorem board_trust_kept {host : L.Host} {config : BleLinkConfig}
    (hnew : BleLink.new host config = .ok link) {steps : List (LinkStep L)}
    (hmeets : link.MeetsTrustThroughout steps) : (link.run steps).TrustKept ∧
      ∀ next, ((link.run steps).step next).TrustKept ↔ (link.run steps).MeetsTrust next := by
  have hrun := (Trusting.new hnew).run hmeets
  refine ⟨hrun.toTrustKept,fun next => ⟨Trusting.meets_of_kept,fun hnext => ?_⟩⟩
  exact (hrun.step hnext).toTrustKept

def greeting : List BleHostEvent :=
  [.connected ⟨"board"⟩ 20,.info [5],.notification []]

def greetedSteps : List (LinkStep plainBle) := [.hostMoves greeting,.poll,.poll,.poll]

def freshLink : BleLink plainBle where
  host := []
  trusted := {5}
  signingKey := 1
  localHello := ⟨1,1,20,3⟩
  localProfile := plainConfig.localProfile
  localLaneProfile := ⟨1,1,64,1,1,1,7,512,256⟩
  reassembler := ()
  negotiatedRepairFrameBytes := 256
  draws := 1

theorem new_freshLink : BleLink.new [] plainConfig = .ok freshLink := by rfl

theorem board_trust_kept_greeted :
    (freshLink.run greetedSteps).codec = some ⟨(),5⟩ ∧ (freshLink.run greetedSteps).TrustKept :=
  ⟨by rfl,(board_trust_kept new_freshLink (show freshLink.MeetsTrustThroughout greetedSteps from
    ⟨trivial,trivial,trivial,trivial,trivial⟩)).1⟩

/-- The board is forgotten while its session is established. -/
theorem forgotten_board_stays :
    ¬ ∀ (host : List BleHostEvent) (config : BleLinkConfig) (link : BleLink plainBle)
      (steps : List (LinkStep plainBle)),
        BleLink.new host config = .ok link → (link.run steps).TrustKept := by
  intro h
  have hkept := h [] plainConfig freshLink
    (greetedSteps ++ [.command (.forgetBoard 5)]) new_freshLink
  obtain ⟨hello,hhello,htrusted⟩ := hkept.session (.inr (by
    rw [show (freshLink.run (greetedSteps ++ [.command (.forgetBoard 5)])).codec =
      some ⟨(),5⟩ from rfl]
    simp))
  have hnobody : (freshLink.run (greetedSteps ++ [.command (.forgetBoard 5)])).trusted = ∅ := rfl
  rw [hnobody] at htrusted
  simp at htrusted

end Trust

end WalkieSongie.Carrier
