import WalkieSongie.ReplicaWorker
set_option autoImplicit false

/-!
What the replica worker admits, and what it announces of it. A step that fails between the two
leaves admitted entries behind that no later request announces.
-/

namespace WalkieSongie.Replica
open TaskProgram

variable {L : ReplicaLibrary} {α : Type}

/-- A request with what goes wrong around it. -/
structure Turn (L : ReplicaLibrary) where
  request : WorkerRequest L
  faults : Faults := {}

/-- One of the inputs moves the session task to this history. -/
def CarriedBy (history : List L.Entry) (inputs : List (RoomSessionTaskInput L)) : Prop :=
  ∃ input ∈ inputs, ∃ horizon, input.horizon = some horizon ∧ horizon.history = history

/-- The steps that tell the session task of a grown history. -/
def Faults.Tells (faults : Faults) : Prop :=
  faults.horizon = none ∧ faults.taskClosed = false ∧ faults.refreshClosed = false

/-- What was admitted to the lanes is announced: no step fails up to the new projection. -/
def Faults.Announces (faults : Faults) (session : Bool) (lanes : List RoomLane) : Prop :=
  (∀ lane ∈ lanes, faults.outbound lane = none) ∧
    (.music ∈ lanes → session = true → faults.Tells) ∧ faults.projection = none

namespace RoomReplicaWorkerService

def step (service : RoomReplicaWorkerService L) (turn : Turn L) : RoomReplicaWorkerService L :=
  match handle turn.faults turn.request service with
  | .ok _ after => after
  | .error _ after => after

def run (service : RoomReplicaWorkerService L) (turns : List (Turn L)) :
    RoomReplicaWorkerService L :=
  turns.foldl step service

def musicHistory (service : RoomReplicaWorkerService L) : List L.Entry :=
  (service.room.map fun room => room.music.history).getD []

def Emitted (service : RoomReplicaWorkerService L) (record : RoomLane × L.Entry) : Prop :=
  ∃ source, WorkerEvent.outboundRecord record.1 source record.2 ∈ service.events

/-- A request's growth of the music history has gone to the session task, the projection is the
room's, and every entry of this worker's own has gone out. -/
structure Announced (before after : RoomReplicaWorkerService L) : Prop where
  task : after.session = true → after.musicHistory ≠ before.musicHistory →
    ∃ inputs, after.taskInputs = inputs ++ before.taskInputs ∧
      CarriedBy after.musicHistory inputs
  projection : after.projection = after.room.map RoomDataPlane.projection
  outbound : ∀ record ∈ after.committed, after.Emitted record

def opened (room : RoomDataPlane L) (session : Bool) : RoomReplicaWorkerService L where
  room := some room
  projection := some room.projection
  session := session

/-- An own entry gets as far as being committed to the lane. -/
def CommitsOwn (faults : Faults) (service : RoomReplicaWorkerService L) (lane : RoomLane) : Prop :=
  ∃ room, service.room = some room ∧ faults.capabilities lane = none ∧
    room.capabilitiesForLane room.localActor lane ≠ [] ∧ faults.commit lane = none

/-- The lane's part of a grant fails. -/
def refusesGrant (faults : Faults) (room : RoomDataPlane L) (peer : ActorId) (lane : RoomLane) :
    Bool :=
  (faults.capabilities lane).isSome ||
    (room.capabilitiesForLane peer lane = [] && (faults.commit lane).isSome)

/-- The lane's part of a grant is a new entry. -/
def grantsLane (faults : Faults) (room : RoomDataPlane L) (peer : ActorId) (lane : RoomLane) :
    Bool :=
  room.capabilitiesForLane peer lane = [] && !refusesGrant faults room peer lane

/-- The lanes where a grant to the peer admits an entry. -/
def grantedLanes (faults : Faults) (room : RoomDataPlane L) (peer : ActorId) : List RoomLane :=
  if peer = room.localActor ∨
      (room.owner ≠ room.localActor ∧ room.grantAuthority ≠ some room.owner) ∨
      refusesGrant faults room peer .music = true then []
  else [RoomLane.music,.extension].filter (grantsLane faults room peer)

def Announces (service : RoomReplicaWorkerService L) (turn : Turn L) : Prop :=
  let faults := turn.faults
  match turn.request with
  | .commit command => CommitsOwn faults service (L.lane command) →
      faults.Announces service.session [L.lane command]
  | .grantPeer peer => ∀ room, service.room = some room → grantedLanes faults room peer ≠ [] →
      refusesGrant faults room peer .extension = false ∧
        faults.Announces service.session (grantedLanes faults room peer)
  | .drainSession reification => reification.isSome = true → service.session = true →
      CommitsOwn faults service .music →
        faults.unexpectedIdentity = false ∧ faults.Announces true [.music]
  | .inboundRecord live report => service.room.isSome = true → report.admitted ≠ [] →
      report.error = none ∧ faults.projection = none ∧
        (live.lane = .music → service.session = true →
          ApplyReport.accepted report live.entry = true ∧ faults.durableAdmission = none ∧
            faults.Tells)
  | .repairFrame (.frame session _ report) => ∀ room state, service.room = some room →
      room.repair.get? session = some state →
      (state.lane = .music → faults.revisionBefore = none) → report.admitted ≠ [] →
        report.error = none ∧ faults.revisionAfter = none ∧ faults.projection = none ∧
          (state.lane = .music → service.session = true → faults.Tells)
  | _ => True

def RunAnnounces (service : RoomReplicaWorkerService L) : List (Turn L) → Prop
  | [] => True
  | turn :: rest => service.Announces turn ∧ (service.step turn).RunAnnounces rest

/-- What is still to be announced: these records are still to go out, and the session task is
still to be told of the music history where that is set. -/
structure Owing (before service : RoomReplicaWorkerService L) (records : List (RoomLane × L.Entry))
    (untold : Bool) : Prop where
  room : ∃ room, service.room = some room
  session : service.session = before.session
  task : ∃ inputs, service.taskInputs = inputs ++ before.taskInputs ∧
    (untold = false → service.session = true → service.musicHistory ≠ before.musicHistory →
      CarriedBy service.musicHistory inputs)
  outbound : ∀ record ∈ service.committed, service.Emitted record ∨ record ∈ records

section Steps

variable {faults : Faults} {before service : RoomReplicaWorkerService L}
  {records : List (RoomLane × L.Entry)} {untold : Bool}
  {Q : α → RoomReplicaWorkerService L → Prop} {E : String → RoomReplicaWorkerService L → Prop}

theorem openRoom_closed (h : service.room = none) :
    openRoom service = .error "Room worker is not open" service := by
  cases service
  cases h
  rfl

theorem openRoom_opened {room : RoomDataPlane L} (h : service.room = some room) :
    openRoom service = .ok room service := by
  cases service
  cases h
  rfl

theorem post_openRoom {next : RoomDataPlane L → ServiceM L α}
    (hclosed : service.room = none → ∀ error, E error service)
    (hopen : ∀ room, service.room = some room → Post Q E (next room service)) :
    Post Q E ((openRoom >>= next) service) := by
  cases hroom : service.room with
  | none =>
    simp only [bind,EStateM.bind,openRoom_closed hroom]
    exact hclosed hroom _
  | some room =>
    rw [bind_of_ok (openRoom_opened hroom)]
    exact hopen room hroom

theorem Owing.emitOutbound {record : RoomLane × L.Entry}
    (h : Owing before service (record :: records) untold)
    (hfault : faults.outbound record.1 = none) :
    Post (fun _ after => Owing before after records untold) E
      (emitOutbound faults record service) := by
  obtain ⟨room,hroom⟩ := h.room
  refine post_openRoom (fun hclosed => absurd hclosed (by simp [hroom])) fun found hfound => ?_
  refine Post.raise (fun error herror => absurd herror (by simp [hfault])) fun _ => ?_
  refine ⟨h.room,h.session,h.task,fun other hother => ?_⟩
  rcases h.outbound other hother with ⟨source,hsent⟩ | howed
  · exact .inl ⟨source,List.mem_cons_of_mem _ hsent⟩
  · rcases List.mem_cons.mp howed with rfl | hrest
    · exact .inl ⟨found.localActor,List.mem_cons_self⟩
    · exact .inr hrest

theorem Owing.emitOutbounds (h : Owing before service records untold)
    (hfault : ∀ record ∈ records, faults.outbound record.1 = none) :
    Post (fun _ after => Owing before after [] untold) E
      ((records.forM (RoomReplicaWorkerService.emitOutbound faults) : ServiceM L PUnit)
        service) := by
  induction records generalizing service with
  | nil => exact h
  | cons record rest ih =>
    refine Post.bind (h.emitOutbound (hfault record List.mem_cons_self)) fun _ after hafter => ?_
    exact ih hafter fun other hother => hfault other (List.mem_cons_of_mem record hother)

theorem Owing.sendTask (h : Owing before service records untold)
    {input : RoomSessionTaskInput L} {message : String} {told : Bool}
    (htold : told = false → untold = false ∨
      ∃ horizon, input.horizon = some horizon ∧ horizon.history = service.musicHistory) :
    Post (fun _ after => Owing before after records told) E
      (RoomReplicaWorkerService.sendTask false message input service) := by
  refine Post.refuseIf (fun hclosed => absurd hclosed (by simp)) fun _ => ?_
  obtain ⟨inputs,hinputs,hcarried⟩ := h.task
  refine ⟨h.room,h.session,⟨input :: inputs,congrArg (input :: ·) hinputs,?_⟩,h.outbound⟩
  intro hnow hsession hgrown
  rcases htold hnow with hbefore | ⟨horizon,hhorizon,hhistory⟩
  · obtain ⟨other,hother,hcarries⟩ := hcarried hbefore hsession hgrown
    exact ⟨other,List.mem_cons_of_mem input hother,hcarries⟩
  · exact ⟨input,List.mem_cons_self,horizon,hhorizon,hhistory⟩

theorem Owing.tellAdvance (h : Owing before service records untold) {message : String}
    {input : DurableHorizon L → RoomSessionTaskInput L}
    (hinput : ∀ horizon, (input horizon).horizon = some horizon)
    (htells : before.session = true → faults.Tells) :
    Post (fun _ after => Owing before after records false) E
      (tellAdvance faults message input service) := by
  unfold RoomReplicaWorkerService.tellAdvance
  refine Post.getting ?_
  refine Post.ite (fun hnone => ?_) fun hsession => ?_
  · obtain ⟨inputs,hinputs,-⟩ := h.task
    exact ⟨h.room,h.session,⟨inputs,hinputs,fun _ hsome => absurd hsome (by simp [hnone])⟩,
      h.outbound⟩
  · have hsome : service.session = true := by simpa using hsession
    obtain ⟨hhorizon,hclosed,-⟩ := htells (by rw [← h.session,hsome])
    obtain ⟨room,hroom⟩ := h.room
    have hread : durableHorizon faults service = .ok room.horizon service := by
      unfold durableHorizon
      rw [bind_of_ok (openRoom_opened hroom),hhorizon]
      rfl
    rw [bind_of_ok hread,hclosed]
    exact h.sendTask fun _ => .inr ⟨room.horizon,hinput _,by
      simp [musicHistory,hroom,RoomDataPlane.horizon]⟩

theorem Owing.refreshSessionFoundations (h : Owing before service records untold)
    (hopen : before.session = true → faults.refreshClosed = false) :
    Post (fun _ after => Owing before after records untold) E
      (refreshSessionFoundations faults service) := by
  unfold RoomReplicaWorkerService.refreshSessionFoundations
  refine Post.getting ?_
  refine Post.ite (fun _ => h) fun hsession => ?_
  have hsome : service.session = true := by simpa using hsession
  rw [hopen (by rw [← h.session,hsome])]
  exact h.sendTask .inl

theorem Owing.tellSession {grown : Bool} (h : Owing before service records grown) {message : String}
    {input : DurableHorizon L → RoomSessionTaskInput L}
    (hinput : ∀ horizon, (input horizon).horizon = some horizon)
    (htells : grown = true → before.session = true → faults.Tells) :
    Post (fun _ after => Owing before after records false) E
      (tellSession faults grown message input service) := by
  unfold RoomReplicaWorkerService.tellSession
  refine Post.ite (fun hgrown => ?_) fun hsame => ?_
  · refine Post.bind (h.tellAdvance hinput (htells hgrown)) fun _ after hafter => ?_
    exact hafter.refreshSessionFoundations fun hsession => (htells hgrown hsession).2.2
  · obtain rfl : grown = false := by simpa using hsame
    exact h

theorem Announced.publishRevisions (subscriptions : List Nat) (previous revision : Nat)
    (next : RoomWorkerProjection L) (h : Announced before service) :
    Post (fun _ => Announced before) (fun _ => Announced before)
      ((subscriptions.forM fun subscription => do
        raise (faults.subscriber subscription)
        modify fun service : RoomReplicaWorkerService L => { service with
          events := .revision subscription previous revision next :: service.events } :
        ServiceM L PUnit) service) := by
  refine Post.forM (Announced before) h fun subscription _ service hservice => ?_
  refine Post.raise (fun _ _ => hservice) fun _ => ?_
  refine ⟨hservice.task,hservice.projection,fun record hrecord => ?_⟩
  obtain ⟨source,hsent⟩ := hservice.outbound record hrecord
  exact ⟨source,List.mem_cons_of_mem _ hsent⟩

theorem Owing.publishProjection (h : Owing before service [] false)
    (hprojection : faults.projection = none ∨
      service.projection = service.room.map RoomDataPlane.projection) :
    Post (fun _ => Announced before) (fun _ => Announced before)
      (publishProjection faults service) := by
  have hsettled : ∀ after : RoomReplicaWorkerService L, after.room = service.room →
      after.session = service.session → after.taskInputs = service.taskInputs →
      after.events = service.events → after.committed = service.committed →
      after.projection = after.room.map RoomDataPlane.projection → Announced before after := by
    intro after hroom hsession htask hevents hcommitted hcurrent
    obtain ⟨inputs,hinputs,hcarried⟩ := h.task
    have hhistory : after.musicHistory = service.musicHistory := by simp only [musicHistory,hroom]
    refine ⟨fun hsome hgrown => ⟨inputs,htask.trans hinputs,?_⟩,hcurrent,fun record hrecord => ?_⟩
    · rw [hhistory] at hgrown ⊢
      exact hcarried rfl (by rw [← hsession,hsome]) hgrown
    · have hsent := h.outbound record (by rwa [← hcommitted])
      simpa [Emitted,hevents] using hsent
  obtain ⟨room,hroom⟩ := h.room
  refine post_openRoom (fun hclosed => absurd hclosed (by simp [hroom])) fun found hfound => ?_
  refine Post.raise (fun error herror => ?_) fun _ => ?_
  · have hcurrent := hprojection.resolve_left (by simp [herror])
    exact hsettled service rfl rfl rfl rfl rfl hcurrent
  · refine Post.getting ?_
    refine Post.ite (fun hsame => ?_) fun _ => ?_
    · exact hsettled service rfl rfl rfl rfl rfl (by rw [hsame,hfound]; rfl)
    · refine Post.modifying ?_
      have hstored := hsettled { service with
        revision := min (service.revision+1) (2^64-1), projection := some found.projection }
        rfl rfl rfl rfl rfl (by rw [hfound]; rfl)
      refine Post.bind (hstored.publishRevisions _ _ _ _) fun _ after hafter => ?_
      exact hafter

theorem admit_nil (lane : RoomLane) (service : RoomReplicaWorkerService L) :
    service.admitAll lane [] = service := by
  cases hroom : service.room <;> cases lane <;> simp [admitAll,hroom,RoomDataPlane.admitAll,
    DurableLane.admitAll] <;> rw [← hroom]

theorem musicHistory_admit_extension (entries : List L.Entry)
    (service : RoomReplicaWorkerService L) :
    (service.admitAll .extension entries).musicHistory = service.musicHistory := by
  cases hroom : service.room <;> simp [musicHistory,admitAll,hroom,RoomDataPlane.admitAll]

theorem Owing.admitAll (h : Owing before service records untold) (lane : RoomLane)
    (entries : List L.Entry) :
    Owing before (service.admitAll lane entries) records (untold || lane = .music) := by
  obtain ⟨room,hroom⟩ := h.room
  obtain ⟨inputs,hinputs,hcarried⟩ := h.task
  refine ⟨⟨room.admitAll lane entries,by simp [RoomReplicaWorkerService.admitAll,hroom]⟩,h.session,
    ⟨inputs,hinputs,fun htold hsession hgrown => ?_⟩,h.outbound⟩
  cases lane with
  | music => simp at htold
  | extension =>
    rw [musicHistory_admit_extension] at hgrown ⊢
    exact hcarried (by simpa using htold) hsession hgrown

theorem Owing.commitOwn (h : Owing before service records untold) (lane : RoomLane)
    (entry : L.Entry) :
    Owing before (service.commitOwn lane entry) ((lane,entry) :: records)
      (untold || lane = .music) := by
  have hadmitted := h.admitAll lane [entry]
  refine ⟨hadmitted.room,hadmitted.session,hadmitted.task,fun record hrecord => ?_⟩
  rcases List.mem_cons.mp hrecord with rfl | hrest
  · exact .inr List.mem_cons_self
  · exact (hadmitted.outbound record hrest).imp_right (List.mem_cons_of_mem _)

theorem Announced.owing (h : Announced before before) {room : RoomDataPlane L}
    (hroom : before.room = some room) : Owing before before [] false :=
  ⟨⟨room,hroom⟩,rfl,⟨[],rfl,fun _ _ hgrown => absurd rfl hgrown⟩,
    fun record hrecord => .inl (h.outbound record hrecord)⟩

/-- A commit that fails admits nothing; one that goes through owes its entry. -/
theorem commit_spec (h : Announced before before) (command : L.RoomCommand) :
    Post (fun entry after => CommitsOwn faults before (L.lane command) ∧
        Owing before after [(L.lane command,entry)] (L.lane command = .music))
      (fun _ => Announced before) (commit faults command before) := by
  refine post_openRoom (fun _ _ => h) fun room hroom => ?_
  refine Post.raise (fun _ _ => h) fun hcapabilities => ?_
  refine Post.refuseIf (fun _ => h) fun hlive => ?_
  refine Post.raise (fun _ _ => h) fun hcommit => ?_
  refine Post.modifying ?_
  have howing := (h.owing hroom).commitOwn (L.lane command) (L.authored room.localActor
    (room.capabilitiesForLane room.localActor (L.lane command))
    (room.laneOf (L.lane command)).history command)
  rw [Bool.false_or] at howing
  exact ⟨⟨room,hroom,hcapabilities,hlive,hcommit⟩,howing⟩

theorem handleCommit_announced (h : Announced before before) {command : L.RoomCommand}
    (hquiet : CommitsOwn faults before (L.lane command) →
      faults.Announces before.session [L.lane command]) :
    Post (fun _ => Announced before) (fun _ => Announced before)
      (handleCommit faults command before) := by
  refine Post.bind (commit_spec h command) fun entry service hcommitted => ?_
  obtain ⟨houtbound,htells,hprojection⟩ := hquiet hcommitted.1
  refine Post.bind (hcommitted.2.emitOutbound (houtbound _ List.mem_cons_self))
    fun _ service hsent => ?_
  refine Post.bind (hsent.tellSession (fun _ => rfl) fun hmusic => htells ?_)
    fun _ service htold => ?_
  · rw [of_decide_eq_true hmusic]
    exact List.mem_cons_self
  · refine Post.bind (htold.publishProjection (.inl hprojection)) fun _ service hdone => ?_
    exact hdone

theorem grantLane_spec {room : RoomDataPlane L} (hroom : service.room = some room) {peer : ActorId}
    {lane : RoomLane} {Q : List (RoomLane × L.Entry) → RoomReplicaWorkerService L → Prop}
    (hrefused : refusesGrant faults room peer lane = true → ∀ error, E error service)
    (hskipped : refusesGrant faults room peer lane = false →
      grantsLane faults room peer lane = false → Q [] service)
    (hgranted : grantsLane faults room peer lane = true → ∀ entry,
      Q [(lane,entry)] (service.commitOwn lane entry)) :
    Post Q E (grantLane faults peer lane service) := by
  unfold grantLane
  rw [bind_of_ok (openRoom_opened hroom)]
  refine Post.raise (fun error herror => hrefused (by simp [refusesGrant,herror]) error)
    fun hcapabilities => ?_
  refine Post.ite (fun hlive => ?_) fun hnone => ?_
  · exact hskipped (by simp [refusesGrant,hcapabilities,hlive]) (by simp [grantsLane,hlive])
  · have hempty : room.capabilitiesForLane peer lane = [] := by simpa using hnone
    refine Post.raise (fun error herror => hrefused ?_ error) fun hcommit => ?_
    · simp [refusesGrant,hempty,herror]
    · exact hgranted (by simp [grantsLane,refusesGrant,hempty,hcapabilities,hcommit]) _

/-- The lanes of a grant, where a failure on the second lane does not follow a grant on the
first. -/
theorem grantPeer_spec (h : Announced before before) {peer : ActorId}
    (hquiet : ∀ room, before.room = some room → grantedLanes faults room peer ≠ [] →
      refusesGrant faults room peer .extension = false) :
    Post (fun grants after => ∃ room, before.room = some room ∧
        grants.map Prod.fst = grantedLanes faults room peer ∧
        Owing before after grants (grants.any fun record => record.1 = .music) ∧
        (grants = [] → after = before))
      (fun _ => Announced before) (grantPeer faults peer before) := by
  refine post_openRoom (fun _ _ => h) fun room hroom => ?_
  refine Post.ite (fun hself => ⟨room,hroom,by simp [grantedLanes,hself],h.owing hroom,
    fun _ => rfl⟩) fun hother => ?_
  refine Post.refuseIf (fun _ => h) fun hauthority => ?_
  have hlanes : refusesGrant faults room peer .music = false → grantedLanes faults room peer =
      [RoomLane.music,.extension].filter (grantsLane faults room peer) := by
    intro hmusic
    unfold grantedLanes
    rw [if_neg]
    simp only [hother,hauthority,hmusic,Bool.false_eq_true,or_self,not_false_eq_true]
  refine Post.bind (R := fun music middle =>
    (music = [] ∧ middle = before ∧ grantsLane faults room peer .music = false ∧
        refusesGrant faults room peer .music = false) ∨
      ∃ entry, music = [(.music,entry)] ∧ middle = before.commitOwn .music entry ∧
        grantsLane faults room peer .music = true)
    (grantLane_spec hroom (fun _ _ => h) (fun hpass hnone => .inl ⟨rfl,rfl,hnone,hpass⟩)
      fun hgrant entry => .inr ⟨entry,rfl,rfl,hgrant⟩) fun music middle hmiddle => ?_
  rcases hmiddle with ⟨rfl,rfl,hnone,hpass⟩ | ⟨entry,rfl,rfl,hgrant⟩
  · refine Post.bind (R := fun extension last => extension.map Prod.fst =
        grantedLanes faults room peer ∧
      Owing middle last extension (extension.any fun record => record.1 = .music) ∧
        (extension = [] → last = middle))
      (grantLane_spec hroom (fun _ _ => h) (fun _ hskip => ?_) fun hgrant entry => ?_)
      fun extension last hlast => ⟨room,hroom,hlast⟩
    · exact ⟨by simp [hlanes hpass,hnone,hskip],h.owing hroom,fun _ => rfl⟩
    · have howing := (h.owing hroom).commitOwn .extension entry
      exact ⟨by simp [hlanes hpass,hnone,hgrant],howing,by simp⟩
  · have hpass : refusesGrant faults room peer .music = false := by
      simp only [grantsLane,Bool.and_eq_true,Bool.not_eq_true'] at hgrant
      exact hgrant.2
    have hsome : (before.commitOwn .music entry).room = some (room.admitAll .music [entry]) := by
      simp [commitOwn,RoomReplicaWorkerService.admitAll,hroom]
    have hgoes : refusesGrant faults room peer .extension = false :=
      hquiet room hroom (by simp [hlanes hpass,hgrant])
    have howing := (h.owing hroom).commitOwn .music entry
    refine Post.bind (R := fun extension last =>
      ([(RoomLane.music,entry)] ++ extension).map Prod.fst =
        grantedLanes faults room peer ∧
      Owing before last ([(.music,entry)] ++ extension)
        (([(RoomLane.music,entry)] ++ extension).any fun record => record.1 = .music) ∧
        ([(RoomLane.music,entry)] ++ extension = [] → last = before))
      (grantLane_spec hsome (fun hrefused => ?_) (fun _ hskip => ?_) fun hgranted other => ?_)
      fun extension last hlast => ⟨room,hroom,hlast⟩
    · have hrefused : refusesGrant faults room peer .extension = true := hrefused
      rw [hgoes] at hrefused
      cases hrefused
    · have hskip : grantsLane faults room peer .extension = false := hskip
      exact ⟨by simp [hlanes hpass,hgrant,hskip],howing,by simp⟩
    · have hgranted : grantsLane faults room peer .extension = true := hgranted
      have hboth := howing.commitOwn .extension other
      refine ⟨by simp [hlanes hpass,hgrant,hgranted],?_,by simp⟩
      exact ⟨hboth.room,hboth.session,hboth.task,fun record hrecord =>
        (hboth.outbound record hrecord).imp_right fun hmem => by
          simpa [or_comm] using hmem⟩

theorem handleGrantPeer_announced (h : Announced before before) {peer : ActorId}
    (hquiet : ∀ room, before.room = some room → grantedLanes faults room peer ≠ [] →
      refusesGrant faults room peer .extension = false ∧
        faults.Announces before.session (grantedLanes faults room peer)) :
    Post (fun _ => Announced before) (fun _ => Announced before)
      (handleGrantPeer faults peer before) := by
  refine Post.bind (grantPeer_spec h fun room hroom hlanes => (hquiet room hroom hlanes).1)
    fun grants service hgrants => ?_
  obtain ⟨room,hroom,hlanes,howing,hidle⟩ := hgrants
  by_cases hnone : grants = []
  · -- Nothing was granted: the request only publishes.
    obtain rfl := hidle hnone
    subst hnone
    refine Post.bind (R := fun _ after => after = service) rfl fun _ middle hsent => ?_
    subst hsent
    refine Post.bind (R := fun _ after => after = middle) rfl fun _ last htold => ?_
    subst htold
    exact Post.bind (howing.publishProjection (.inr h.projection)) fun _ _ hdone => hdone
  · have hlane : grantedLanes faults room peer ≠ [] := by
      rw [← hlanes]
      simpa using hnone
    obtain ⟨houtbound,htells,hprojection⟩ := (hquiet room hroom hlane).2
    rw [← hlanes] at houtbound htells
    refine Post.bind (howing.emitOutbounds fun record hrecord =>
      houtbound record.1 (List.mem_map_of_mem hrecord)) fun _ middle hsent => ?_
    refine Post.bind (hsent.tellSession (fun _ => rfl) fun hmusic => htells ?_)
      fun _ last htold => ?_
    · obtain ⟨record,hrecord,hlane⟩ := List.any_eq_true.mp hmusic
      exact List.mem_map.mpr ⟨record,hrecord,of_decide_eq_true hlane⟩
    · exact Post.bind (htold.publishProjection (.inl hprojection)) fun _ _ hdone => hdone

theorem commitSession_spec (h : Announced before before) (plan : L.ReificationPlan)
    (command : L.MusicOp) (hquiet : CommitsOwn faults before .music →
      faults.unexpectedIdentity = false) :
    Post (fun entry after => CommitsOwn faults before .music ∧
        Owing before after [(.music,entry)] true)
      (fun _ => Announced before) (commitSession faults plan command before) := by
  refine post_openRoom (fun _ _ => h) fun room hroom => ?_
  refine Post.raise (fun _ _ => h) fun hcapabilities => ?_
  refine Post.refuseIf (fun _ => h) fun hlive => ?_
  refine Post.raise (fun _ _ => h) fun hcommit => ?_
  refine Post.modifying ?_
  have hcommits : CommitsOwn faults before .music := ⟨room,hroom,hcapabilities,hlive,hcommit⟩
  refine Post.refuseIf (fun hbad => absurd hbad (by simp [hquiet hcommits])) fun _ => ?_
  exact ⟨hcommits,(h.owing hroom).commitOwn .music _⟩

theorem handleDrainSession_announced (h : Announced before before)
    {reification : Option (RoomSessionReification L)}
    (hquiet : reification.isSome = true → before.session = true →
      CommitsOwn faults before .music →
        faults.unexpectedIdentity = false ∧ faults.Announces true [.music]) :
    Post (fun _ => Announced before) (fun _ => Announced before)
      (handleDrainSession faults reification before) := by
  refine Post.getting ?_
  refine Post.refuseIf (fun _ => h) fun hsession => ?_
  have hsome : before.session = true := by simpa using hsession
  cases reification with
  | none => exact h
  | some reification =>
    refine Post.bind (commitSession_spec h reification.plan reification.command
      fun hcommits => (hquiet rfl hsome hcommits).1) fun entry service hcommitted => ?_
    obtain ⟨houtbound,htells,hprojection⟩ := (hquiet rfl hsome hcommitted.1).2
    refine Post.bind (hcommitted.2.emitOutbound (houtbound _ List.mem_cons_self))
      fun _ middle hsent => ?_
    refine Post.bind (hsent.tellSession (fun _ => rfl) fun _ _ => htells List.mem_cons_self rfl)
      fun _ last htold => ?_
    exact Post.bind (htold.publishProjection (.inl hprojection)) fun _ _ hdone => hdone

/-- A record that was admitted owes nothing but the telling of the session task. -/
theorem tellInbound_spec {live : ReplicaLiveRecord L} {accepted : Bool}
    (howing : Owing before service [] (live.lane = .music))
    (hquiet : live.lane = .music → before.session = true →
      accepted = true ∧ faults.durableAdmission = none ∧ faults.Tells) :
    Post (fun _ after => Owing before after [] false) E
      (tellInbound faults live accepted service) := by
  refine Post.getting ?_
  refine Post.ite (fun htells => ?_) fun hsilent => ?_
  · obtain ⟨-,hmusic,hsession⟩ := htells
    rw [howing.session] at hsession
    obtain ⟨-,hadmission,htold⟩ := hquiet hmusic hsession
    refine Post.raise (fun error herror => absurd herror (by simp [hadmission])) fun _ => ?_
    rw [decide_eq_true hmusic] at howing
    refine howing.tellSession (fun _ => ?_) fun _ _ => htold
    split <;> rfl
  · obtain ⟨inputs,hinputs,hcarried⟩ := howing.task
    refine ⟨howing.room,howing.session,⟨inputs,hinputs,fun _ hsession hgrown => ?_⟩,
      howing.outbound⟩
    refine hcarried (decide_eq_false fun hmusic => ?_) hsession hgrown
    exact hsilent ⟨(hquiet hmusic (by rw [← howing.session,hsession])).1,hmusic,hsession⟩

theorem handleInboundRecord_announced (h : Announced before before)
    {live : ReplicaLiveRecord L} {report : ApplyReport L}
    (hquiet : before.room.isSome = true → report.admitted ≠ [] →
      report.error = none ∧ faults.projection = none ∧
        (live.lane = .music → before.session = true →
          ApplyReport.accepted report live.entry = true ∧ faults.durableAdmission = none ∧
            faults.Tells)) :
    Post (fun _ => Announced before) (fun _ => Announced before)
      (handleInboundRecord faults live report before) := by
  refine Post.bind (R := fun accepted service =>
      accepted = ApplyReport.accepted report live.entry ∧ before.room.isSome = true ∧
        service = before.admitAll live.lane report.admitted) ?_ fun accepted service happlied => ?_
  · refine post_openRoom (fun _ _ => h) fun room hroom => ?_
    refine Post.modifying ?_
    refine Post.raise (fun error herror => ?_) fun _ => ⟨rfl,by simp [hroom],rfl⟩
    by_cases hnone : report.admitted = []
    · rw [hnone,admit_nil]
      exact h
    · exact absurd herror (by simp [(hquiet (by simp [hroom]) hnone).1])
  · obtain ⟨rfl,hopen,rfl⟩ := happlied
    obtain ⟨room,hroom⟩ := Option.isSome_iff_exists.mp hopen
    by_cases hnone : report.admitted = []
    · -- A record that admits nothing is not accepted, and the request only publishes.
      have hrejected : ApplyReport.accepted report live.entry = false := by
        simp [ApplyReport.accepted,hnone]
      rw [hnone,admit_nil,hrejected]
      refine Post.bind (R := fun _ after => after = before) ?_ fun _ service hsame => ?_
      · refine Post.getting ?_
        exact Post.ite (fun htells => absurd htells.1 (by simp)) fun _ => rfl
      · subst hsame
        exact Post.bind ((h.owing hroom).publishProjection (.inr h.projection))
          fun _ _ hdone => hdone
    · obtain ⟨-,hprojection,htells⟩ := hquiet hopen hnone
      have howing := (h.owing hroom).admitAll live.lane report.admitted
      rw [Bool.false_or] at howing
      refine Post.bind (tellInbound_spec howing htells) fun _ service htold => ?_
      exact Post.bind (htold.publishProjection (.inl hprojection)) fun _ _ hdone => hdone

theorem Announced.setRepair (h : Announced before before)
    (repair : KeyedMap Nat (RepairState L)) : Announced before (before.setRepair repair) := by
  have hhistory : (before.setRepair repair).musicHistory = before.musicHistory := by
    cases hroom : before.room <;> simp [musicHistory,RoomReplicaWorkerService.setRepair,hroom]
  refine ⟨fun _ hgrown => absurd hhistory hgrown,?_,h.outbound⟩
  have hcurrent := h.projection
  simp only [RoomReplicaWorkerService.setRepair,hcurrent]
  cases before.room <;> rfl

theorem Owing.setRepair (h : Owing before service records untold)
    (repair : KeyedMap Nat (RepairState L)) :
    Owing before (service.setRepair repair) records untold := by
  obtain ⟨room,hroom⟩ := h.room
  have hhistory : (service.setRepair repair).musicHistory = service.musicHistory := by
    simp [musicHistory,RoomReplicaWorkerService.setRepair,hroom]
  refine ⟨⟨{ room with repair := repair },by simp [RoomReplicaWorkerService.setRepair,hroom]⟩,
    h.session,?_,h.outbound⟩
  rw [hhistory]
  exact h.task

theorem setRepair_self {room : RoomDataPlane L} (hroom : before.room = some room) :
    before.setRepair room.repair = before := by
  cases before
  cases hroom
  rfl

theorem repairStep_idle {operation : RoomWorkerRepairRequest L}
    (hframe : ∀ session attempt report, operation ≠ .frame session attempt report)
    {room : RoomDataPlane L} (hroom : before.room = some room) :
    Post (fun _ after => ∃ repair, after = before.setRepair repair)
      (fun _ after => ∃ repair, after = before.setRepair repair) (repairStep operation before) := by
  have hsame : ∃ repair, before = before.setRepair repair :=
    ⟨room.repair,(setRepair_self hroom).symm⟩
  cases operation with
  | start session lane opened =>
    simp only [repairStep,startRepair]
    rw [bind_of_ok (openRoom_opened hroom)]
    refine Post.refuseIf (fun _ => hsame) fun _ => ?_
    refine Post.refuseIf (fun _ => hsame) fun _ => ?_
    cases opened with
    | error error => exact hsame
    | ok attempt => exact ⟨_,rfl⟩
  | frame session attempt report => exact absurd rfl (hframe session attempt report)
  | finish session closed =>
    simp only [repairStep,finishRepair]
    rw [bind_of_ok (openRoom_opened hroom)]
    cases hstate : room.repair.get? session with
    | none => exact hsame
    | some state =>
      refine Post.modifying ?_
      cases closed with
      | error error => exact ⟨_,rfl⟩
      | ok finished => exact ⟨_,rfl⟩

/-- What follows a repair step that changed the table of repairs alone. -/
theorem finish_idle_repair (h : Announced before before) {room : RoomDataPlane L}
    (hroom : before.room = some room) {message : String}
    {input : DurableHorizon L → RoomSessionTaskInput L} (repair : KeyedMap Nat (RepairState L))
    (step : RoomWorkerRepairStep L) {revision : Option Nat}
    (hrevision : ∀ before ∈ revision, before = room.music.historyEpoch) :
    Post (fun _ => Announced before) (fun _ => Announced before)
      ((do
        raise faults.revisionAfter
        let after := (← openRoom (L := L)).music.historyEpoch
        tellSession faults (repairRevisionAdvanced revision after) message input
        let _ ← publishProjection (L := L) faults
        return RoomWorkerResponse.repair step) (before.setRepair repair)) := by
  have hsame := h.setRepair repair
  have hafter : (before.setRepair repair).room = some { room with repair := repair } := by
    simp [RoomReplicaWorkerService.setRepair,hroom]
  refine Post.raise (fun _ _ => hsame) fun _ => ?_
  rw [bind_of_ok (openRoom_opened hafter)]
  have hstill : repairRevisionAdvanced revision room.music.historyEpoch = false := by
    cases revision with
    | none => rfl
    | some before => simp [repairRevisionAdvanced,hrevision before rfl]
  simp only [hstill]
  refine Post.bind (R := fun _ last => last = before.setRepair repair) rfl fun _ last htold => ?_
  subst htold
  exact Post.bind (((h.owing hroom).setRepair repair).publishProjection (.inr hsame.projection))
    fun _ _ hdone => hdone

theorem handleRepairFrame_announced (h : Announced before before)
    {operation : RoomWorkerRepairRequest L}
    (hquiet : ∀ session attempt report, operation = .frame session attempt report →
      ∀ room state, before.room = some room → room.repair.get? session = some state →
      (state.lane = .music → faults.revisionBefore = none) → report.admitted ≠ [] →
        report.error = none ∧ faults.revisionAfter = none ∧ faults.projection = none ∧
          (state.lane = .music → before.session = true → faults.Tells)) :
    Post (fun _ => Announced before) (fun _ => Announced before)
      (handleRepairFrame faults operation before) := by
  refine post_openRoom (fun _ _ => h) fun room hroom => ?_
  refine Post.raise (fun _ _ => h) fun hbefore => ?_
  have hrevision : ∀ revision ∈ (if repairedMusic room operation = true then
      some room.music.historyEpoch else none), revision = room.music.historyEpoch := by
    intro revision hrevision
    split at hrevision
    · exact (Option.some.inj hrevision).symm
    · cases hrevision
  by_cases hframe : ∃ session attempt report, operation = .frame session attempt report
  · obtain ⟨session,attempt,report,rfl⟩ := hframe
    cases hstate : room.repair.get? session with
    | none =>
      refine Post.bind (R := fun _ _ => False) ?_ fun _ _ hnever => hnever.elim
      simp only [repairStep,advanceRepair]
      rw [bind_of_ok (openRoom_opened hroom),hstate]
      exact h
    | some state =>
      by_cases hnone : report.admitted = []
      · refine Post.bind (R := fun _ after => ∃ repair, after = before.setRepair repair) ?_
          fun step after hafter => ?_
        · simp only [repairStep,advanceRepair]
          rw [bind_of_ok (openRoom_opened hroom),hstate]
          refine Post.modifying ?_
          rw [hnone,admit_nil]
          exact Post.raise (fun _ _ => h.setRepair _) fun _ => ⟨_,rfl⟩
        · obtain ⟨repair,rfl⟩ := hafter
          exact finish_idle_repair h hroom repair step hrevision
      · have hlane : repairedMusic room (.frame session attempt report) =
            decide (state.lane = .music) := by
          simp [repairedMusic,hstate]
        obtain ⟨hadvanced,hafter,hprojection,htells⟩ :=
          hquiet session attempt report rfl room state hroom hstate
            (fun hmusic => by simpa [hlane,hmusic] using hbefore) hnone
        have howing := ((h.owing hroom).admitAll state.lane report.admitted).setRepair
          (room.repair.insert session ⟨state.lane,attempt⟩)
        rw [Bool.false_or] at howing
        refine Post.bind (R := fun _ after => after =
          (before.admitAll state.lane report.admitted).setRepair
            (room.repair.insert session ⟨state.lane,attempt⟩)) ?_ fun step after hdone => ?_
        · simp only [repairStep,advanceRepair]
          rw [bind_of_ok (openRoom_opened hroom),hstate]
          refine Post.modifying ?_
          exact Post.raise (fun error herror => absurd herror (by simp [hadvanced])) fun _ => rfl
        · subst hdone
          refine Post.raise (fun error herror => absurd herror (by simp [hafter])) fun _ => ?_
          have hopened : ((before.admitAll state.lane report.admitted).setRepair
              (room.repair.insert session ⟨state.lane,attempt⟩)).room =
                some { room.admitAll state.lane report.admitted with
                  repair := room.repair.insert session ⟨state.lane,attempt⟩ } := by
            simp [RoomReplicaWorkerService.setRepair,RoomReplicaWorkerService.admitAll,hroom]
          rw [bind_of_ok (openRoom_opened hopened)]
          have hgrown : repairRevisionAdvanced (if decide (state.lane = .music) = true then
              some room.music.historyEpoch else none)
                (room.admitAll state.lane report.admitted).music.historyEpoch =
                  decide (state.lane = .music) := by
            have hlength := List.length_pos_iff.mpr hnone
            cases state.lane with
            | music => simpa [repairRevisionAdvanced,RoomDataPlane.admitAll,DurableLane.admitAll]
            | extension => rfl
          simp only [hlane,hgrown]
          refine Post.bind (howing.tellSession (fun _ => rfl) fun hmusic =>
            htells (of_decide_eq_true hmusic)) fun _ last htold => ?_
          exact Post.bind (htold.publishProjection (.inl hprojection)) fun _ _ hdone => hdone
  · have hother : ∀ session attempt report, operation ≠ .frame session attempt report :=
      fun session attempt report hsame => hframe ⟨session,attempt,report,hsame⟩
    have hidle := repairStep_idle hother hroom
    refine Post.bind (R := fun _ after => ∃ repair, after = before.setRepair repair)
      (Post.mono hidle (fun _ _ hafter => hafter) ?_) fun step after hafter => ?_
    · intro _ after hafter
      obtain ⟨repair,rfl⟩ := hafter
      exact h.setRepair repair
    · obtain ⟨repair,rfl⟩ := hafter
      exact finish_idle_repair h hroom repair step hrevision

theorem handleStartSessionPeer_announced (h : Announced before before) (peer : ActorId) :
    Post (fun _ => Announced before) (fun _ => Announced before)
      (handleStartSessionPeer faults peer before) := by
  refine post_openRoom (fun _ _ => h) fun room hroom => ?_
  refine Post.raise (fun _ _ => h) fun _ => ?_
  cases room.sessionFoundation peer with
  | error error => exact h
  | ok foundation =>
    refine Post.getting ?_
    refine Post.refuseIf (fun _ => h) fun _ => ?_
    refine Post.bind (R := fun _ => Announced before) ?_ fun _ _ hsent =>
      ⟨hsent.task,hsent.projection,hsent.outbound⟩
    refine Post.refuseIf (fun _ => h) fun _ => ?_
    exact ⟨fun _ hgrown => absurd rfl hgrown,h.projection,h.outbound⟩

theorem handle_announced (h : Announced before before) {turn : Turn L}
    (hquiet : before.Announces turn) :
    Post (fun _ => Announced before) (fun _ => Announced before)
      (handle turn.faults turn.request before) := by
  obtain ⟨request,faults⟩ := turn
  cases request with
  | subscribe subscription =>
    refine Post.modifying (Post.getting ?_)
    have hsame : Announced before { before with
        subscriptions := insert subscription before.subscriptions } :=
      ⟨fun _ hgrown => absurd rfl hgrown,h.projection,h.outbound⟩
    cases hprojection : before.projection with
    | none =>
      rw [hprojection] at hsame
      exact hsame
    | some projection =>
      rw [hprojection] at hsame
      exact hsame
  | unsubscribe subscription => exact ⟨fun _ hgrown => absurd rfl hgrown,h.projection,h.outbound⟩
  | commit command => exact handleCommit_announced h hquiet
  | grantPeer peer => exact handleGrantPeer_announced h hquiet
  | startSessionPeer peer => exact handleStartSessionPeer_announced h peer
  | drainSession reification => exact handleDrainSession_announced h hquiet
  | inboundRecord live report => exact handleInboundRecord_announced h hquiet
  | repairFrame operation =>
    refine handleRepairFrame_announced h fun session attempt report hframe => ?_
    subst hframe
    exact hquiet

theorem Announced.step (h : Announced before before) {turn : Turn L}
    (hquiet : before.Announces turn) : Announced before (before.step turn) := by
  have hpost := handle_announced h hquiet
  unfold RoomReplicaWorkerService.step
  cases hresult : handle turn.faults turn.request before with
  | ok response after =>
    rw [hresult] at hpost
    exact hpost
  | error error after =>
    rw [hresult] at hpost
    exact hpost

theorem Announced.settled (h : Announced before service) : Announced service service :=
  ⟨fun _ hgrown => absurd rfl hgrown,h.projection,h.outbound⟩

theorem opened_announced (room : RoomDataPlane L) (session : Bool) :
    Announced (opened room session) (opened room session) :=
  ⟨fun _ hgrown => absurd rfl hgrown,rfl,by simp [opened]⟩

theorem Announced.run {turns : List (Turn L)} (h : Announced before before)
    (hquiet : before.RunAnnounces turns) {earlier later : List (Turn L)} {turn : Turn L}
    (hturns : turns = earlier ++ turn :: later) :
    Announced (before.run earlier) ((before.run earlier).step turn) := by
  subst hturns
  induction earlier generalizing before with
  | nil => exact h.step hquiet.1
  | cons first rest ih => exact ih (h.step hquiet.1).settled hquiet.2

end Steps

end RoomReplicaWorkerService

open RoomReplicaWorkerService

/-- Durable growth is announced: in a run whose requests all announce what they admitAll, after each
of them the session task has been told of the growth of the music history, the projection is the
room's, and every entry of the worker's own has gone out. -/
theorem durable_growth_announced (room : RoomDataPlane L) (session : Bool)
    (turns : List (Turn L)) (hquiet : (opened room session).RunAnnounces turns)
    (earlier later : List (Turn L)) (turn : Turn L) (hturns : turns = earlier ++ turn :: later) :
    Announced ((opened room session).run earlier)
      (((opened room session).run earlier).step turn) :=
  (opened_announced room session).run hquiet hturns

/-- Entries that are numbers, with a member's grant the number of the member. -/
def plainReplica : ReplicaLibrary where
  Entry := Nat
  entryEq := inferInstance
  hash := id
  hasSessionDomain _ := false
  RoomCommand := RoomLane × Nat
  lane := Prod.fst
  authored _ _ _ command := 1000+command.2
  ReificationPlan := Unit
  MusicOp := Nat
  reified _ _ _ _ command := 2000+command
  memberGrant _ _ peer := peer
  capabilitiesForLane actor _ history := history.filter fun entry => entry = actor
  View := Nat × Nat
  viewEq := inferInstance
  view music extension := (music.length,extension.length)
  sharedPitches _ := ⟨∅,∅⟩
  historyRoot history := history.foldl (fun sum entry => sum+entry) 0
  frontierDigest history := history.foldl (fun sum entry => sum+entry) 0
  RepairAttempt := Unit
  RepairDisposition := Unit

def plainEntry (hash : Nat) : plainReplica.Entry := hash

/-- The room of actor 1, who holds a grant on both lanes. -/
def ownRoom : RoomDataPlane plainReplica where
  owner := 1
  localActor := 1
  grantAuthority := some 1
  musicRoot := some 0
  music := ⟨[plainEntry 1],1⟩
  extension := ⟨[plainEntry 1],1⟩

/-- A frame of a music repair admits an entry, and the session task hears of it. -/
def repairTurns : List (Turn plainReplica) :=
  [⟨.repairFrame (.start 7 .music (.ok ())),{}⟩,
    ⟨.repairFrame (.frame 7 () { admitted := [plainEntry 5] }),{}⟩]

theorem durable_growth_announced_repair :
    Announced ((opened ownRoom true).run [⟨.repairFrame (.start 7 .music (.ok ())),{}⟩])
      ((opened ownRoom true).run repairTurns) := by
  have hquiet : (opened ownRoom true).RunAnnounces repairTurns := by
    refine ⟨trivial,fun _ _ _ _ _ _ => ⟨rfl,rfl,rfl,fun _ _ => ⟨rfl,rfl,rfl⟩⟩,trivial⟩
  exact durable_growth_announced ownRoom true repairTurns hquiet
    [⟨.repairFrame (.start 7 .music (.ok ())),{}⟩] []
    ⟨.repairFrame (.frame 7 () { admitted := [plainEntry 5] }),{}⟩ rfl

/-- A grant to actor 2 whose extension lane fails, and the retry. -/
def halfGrant : Turn plainReplica :=
  ⟨.grantPeer 2,
    { commit := fun lane => if lane = .extension then some "storage is full" else none }⟩

/-- The music grant is admitted, and the request is refused before anything is announced; the
retry passes over the music lane, so its entry never goes out and the session task never hears
of it. -/
theorem half_grant_stays_unannounced :
    let before := opened ownRoom true
    let after := before.step halfGrant
    let retried := after.step ⟨.grantPeer 2,{}⟩
    after.musicHistory ≠ before.musicHistory ∧ ¬ before.Announced after ∧
      ¬ retried.Emitted (.music,plainEntry 2) ∧ retried.taskInputs.length = 0 := by
  have hevents : ((opened ownRoom true).step halfGrant).events.length = 0 := by decide +kernel
  have hcommitted : ((opened ownRoom true).step halfGrant).committed = [(.music,plainEntry 2)] := by
    decide +kernel
  have hretried : (((opened ownRoom true).step halfGrant).step ⟨.grantPeer 2,{}⟩).events =
      [.outboundRecord .extension 1 (plainEntry 2)] := by
    decide +kernel
  refine ⟨by decide +kernel,fun hannounced => ?_,fun ⟨source,hsent⟩ => ?_,by decide +kernel⟩
  · obtain ⟨source,hsent⟩ := hannounced.outbound (.music,plainEntry 2) (by rw [hcommitted]; simp)
    rw [List.length_eq_zero_iff.mp hevents] at hsent
    cases hsent
  · rw [hretried] at hsent
    simp at hsent

end WalkieSongie.Replica
