import WalkieSongie.DurableGrowth
import WalkieSongie.ReplicaHandle
set_option autoImplicit false

/-!
What a commit of the window has seen when it returns: no wait for a projection is answered before
the window shows one that the awaited entries are in.
-/

namespace WalkieSongie.Replica
open TaskProgram

variable {L : ReplicaLibrary} {α : Type}

def RoomDataPlane.Grown (room later : RoomDataPlane L) : Prop :=
  ∀ lane, ∀ entry ∈ (room.laneOf lane).history, entry ∈ (later.laneOf lane).history

/-- The entries that the response tells of are in the room. -/
def Holds (room : RoomDataPlane L) : WorkerRequest L → RoomWorkerResponse L → Prop
  | .commit command, .commandCommitted hash _ =>
    ∃ entry ∈ (room.laneOf (L.lane command)).history, L.hash entry = hash
  | .grantPeer _, .peerGranted entries _ =>
    ∀ granted ∈ entries, ∃ entry ∈ (room.laneOf granted.1).history, L.hash entry = granted.2
  | .inboundRecord live _, .inboundApplied accepted _ _ =>
    accepted = true → live.entry ∈ (room.laneOf live.lane).history
  | _, _ => True

theorem Holds.grown {room later : RoomDataPlane L} {request : WorkerRequest L}
    {response : RoomWorkerResponse L} (h : Holds room request response)
    (hgrown : room.Grown later) : Holds later request response := by
  unfold Holds at h ⊢
  split at h
  · obtain ⟨entry,hentry,hhash⟩ := h
    exact ⟨entry,hgrown _ entry hentry,hhash⟩
  · intro granted hgranted
    obtain ⟨entry,hentry,hhash⟩ := h granted hgranted
    exact ⟨entry,hgrown _ entry hentry,hhash⟩
  · exact fun haccepted => hgrown _ _ (h haccepted)
  · trivial

namespace RoomReplicaWorkerService

def Published (service : RoomReplicaWorkerService L) (revision : Nat)
    (projection : RoomWorkerProjection L) : Prop :=
  ∃ subscription previous,
    WorkerEvent.revision subscription previous revision projection ∈ service.events

/-- Entries may come in, nothing is published. -/
structure Gathers (before after : RoomReplicaWorkerService L) : Prop where
  room : ∀ room, before.room = some room → ∃ later, after.room = some later ∧ room.Grown later
  projection : after.projection = before.projection
  revision : after.revision = before.revision
  events : ∀ revision projection, after.Published revision projection →
    before.Published revision projection

theorem Gathers.refl (service : RoomReplicaWorkerService L) : Gathers service service :=
  ⟨fun room hroom => ⟨room,hroom,fun _ _ hentry => hentry⟩,rfl,rfl,fun _ _ h => h⟩

theorem Gathers.trans (first second third : RoomReplicaWorkerService L) (h : Gathers first second)
    (h' : Gathers second third) : Gathers first third := by
  refine ⟨fun room hroom => ?_,h'.projection.trans h.projection,h'.revision.trans h.revision,
    fun revision projection hpublished => h.events _ _ (h'.events _ _ hpublished)⟩
  obtain ⟨middle,hmiddle,hgrown⟩ := h.room room hroom
  obtain ⟨later,hlater,hgrown'⟩ := h'.room middle hmiddle
  exact ⟨later,hlater,fun lane entry hentry => hgrown' lane entry (hgrown lane entry hentry)⟩

variable {faults : Faults} {before service : RoomReplicaWorkerService L}

section Gathering

/-- A step of a request before its projection, with what comes after. -/
theorem Gathers.bind (h : before.Gathers service) {first : ServiceM L α}
    (hfirst : Stays Gathers first) {β : Type} {next : α → ServiceM L β}
    {Q' : β → RoomReplicaWorkerService L → Prop} {E' : String → RoomReplicaWorkerService L → Prop}
    (herror : ∀ error after, before.Gathers after → E' error after)
    (hnext : ∀ value after, service.Gathers after → before.Gathers after →
      Post Q' E' (next value after)) :
    Post Q' E' ((first >>= next) service) := by
  refine Post.bind (R := fun _ after => service.Gathers after ∧ before.Gathers after) ?_
    fun value after hafter => hnext value after hafter.1 hafter.2
  refine Post.mono (hfirst service) (fun _ after hafter => ⟨hafter,.trans _ _ _ h hafter⟩)
    fun error after hafter => herror error after (.trans _ _ _ h hafter)

theorem gathers_emitOutbound (record : RoomLane × L.Entry) :
    Stays Gathers (emitOutbound faults record) := by
  intro service
  refine post_openRoom (fun _ _ => .refl service) fun room hroom => ?_
  refine Post.raise (fun _ _ => .refl service) fun _ => ?_
  refine ⟨(Gathers.refl service).room,rfl,rfl,fun revision projection hpublished => ?_⟩
  obtain ⟨subscription,previous,hevent⟩ := hpublished
  rcases List.mem_cons.mp hevent with hnew | hold
  · cases hnew
  · exact ⟨subscription,previous,hold⟩

theorem gathers_sendTask (closed : Bool) (message : String) (input : RoomSessionTaskInput L) :
    Stays Gathers (sendTask closed message input) := by
  intro service
  refine Post.refuseIf (fun _ => .refl service) fun _ => ?_
  exact ⟨(Gathers.refl service).room,rfl,rfl,fun _ _ h => h⟩

theorem gathers_tellAdvance (message : String) (input : DurableHorizon L → RoomSessionTaskInput L) :
    Stays Gathers (tellAdvance faults message input) := by
  intro service
  refine Post.getting ?_
  refine Post.ite (fun _ => .refl service) fun _ => ?_
  have hhorizon : Stays Gathers (durableHorizon faults : ServiceM L _) := by
    intro service
    refine post_openRoom (fun _ _ => .refl service) fun room _ => ?_
    exact Post.raise (fun _ _ => .refl service) fun _ => .refl service
  exact (Gathers.refl service).bind hhorizon (fun _ _ h => h) fun horizon after _ hafter =>
    Post.mono (gathers_sendTask _ _ _ after) (fun _ last hlast => .trans _ _ _ hafter hlast)
      fun _ last hlast => .trans _ _ _ hafter hlast

theorem gathers_refreshSessionFoundations :
    Stays Gathers (refreshSessionFoundations faults : ServiceM L Unit) := by
  intro service
  refine Post.getting ?_
  exact Post.ite (fun _ => .refl service) fun _ => gathers_sendTask _ _ _ service

theorem gathers_tellSession (grown : Bool) (message : String)
    (input : DurableHorizon L → RoomSessionTaskInput L) :
    Stays Gathers (tellSession faults grown message input) := by
  intro service
  unfold tellSession
  refine Post.ite (fun _ => ?_) fun _ => .refl service
  exact Stays.bind Gathers.trans (gathers_tellAdvance message input)
    (fun _ => gathers_refreshSessionFoundations) service

theorem gathers_admitAll (lane : RoomLane) (entries : List L.Entry) :
    service.Gathers (service.admitAll lane entries) := by
  refine ⟨fun room hroom => ⟨room.admitAll lane entries,?_,fun other entry hentry => ?_⟩,rfl,rfl,
    fun _ _ h => h⟩
  · simp [admitAll,hroom]
  · cases lane <;> cases other <;>
      simp_all [RoomDataPlane.admitAll,RoomDataPlane.laneOf,DurableLane.admitAll]

theorem gathers_commitOwn (lane : RoomLane) (entry : L.Entry) :
    service.Gathers (service.commitOwn lane entry) := by
  have hadmitted := @gathers_admitAll _ service lane [entry]
  exact ⟨hadmitted.room,hadmitted.projection,hadmitted.revision,hadmitted.events⟩

def InRoom (service : RoomReplicaWorkerService L) (lane : RoomLane) (entry : L.Entry) : Prop :=
  ∃ room, service.room = some room ∧ entry ∈ (room.laneOf lane).history

theorem InRoom.gathers {lane : RoomLane} {entry : L.Entry} (h : before.InRoom lane entry)
    (hgathers : before.Gathers service) : service.InRoom lane entry := by
  obtain ⟨room,hroom,hentry⟩ := h
  obtain ⟨later,hlater,hgrown⟩ := hgathers.room room hroom
  exact ⟨later,hlater,hgrown lane entry hentry⟩

theorem inRoom_admitAll {room : RoomDataPlane L} (hroom : service.room = some room)
    (lane : RoomLane) {entries : List L.Entry} {entry : L.Entry} (hentry : entry ∈ entries) :
    (service.admitAll lane entries).InRoom lane entry := by
  refine ⟨room.admitAll lane entries,by simp [admitAll,hroom],?_⟩
  cases lane <;>
    simp [RoomDataPlane.admitAll,RoomDataPlane.laneOf,DurableLane.admitAll,hentry]

theorem commit_gathers (command : L.RoomCommand) :
    Post (fun entry after => before.Gathers after ∧ after.InRoom (L.lane command) entry)
      (fun _ => before.Gathers) (commit faults command before) := by
  refine post_openRoom (fun _ _ => .refl before) fun room hroom => ?_
  refine Post.raise (fun _ _ => .refl before) fun _ => ?_
  refine Post.refuseIf (fun _ => .refl before) fun _ => ?_
  refine Post.raise (fun _ _ => .refl before) fun _ => ?_
  refine Post.modifying ?_
  exact ⟨gathers_commitOwn _ _,inRoom_admitAll hroom _ (List.mem_singleton_self _)⟩

theorem grantLane_gathers (peer : ActorId) (lane : RoomLane) :
    Post (fun grants after => before.Gathers after ∧
        ∀ grant ∈ grants, after.InRoom grant.1 grant.2)
      (fun _ => before.Gathers) (grantLane faults peer lane before) := by
  refine post_openRoom (fun _ _ => .refl before) fun room hroom => ?_
  refine Post.raise (fun _ _ => .refl before) fun _ => ?_
  refine Post.ite (fun _ => ⟨.refl before,by simp⟩) fun _ => ?_
  refine Post.raise (fun _ _ => .refl before) fun _ => ?_
  refine Post.modifying ⟨gathers_commitOwn _ _,fun grant hgrant => ?_⟩
  rw [List.mem_singleton.mp hgrant]
  exact inRoom_admitAll hroom lane (List.mem_singleton_self _)

theorem grantPeer_gathers (peer : ActorId) :
    Post (fun grants after => before.Gathers after ∧
        ∀ grant ∈ grants, after.InRoom grant.1 grant.2)
      (fun _ => before.Gathers) (grantPeer faults peer before) := by
  refine post_openRoom (fun _ _ => .refl before) fun room hroom => ?_
  refine Post.ite (fun _ => ⟨.refl before,by simp⟩) fun _ => ?_
  refine Post.refuseIf (fun _ => .refl before) fun _ => ?_
  refine Post.bind (grantLane_gathers peer .music) fun music middle hmusic => ?_
  refine Post.bind (R := fun extension after => before.Gathers after ∧
    ∀ grant ∈ music ++ extension, after.InRoom grant.1 grant.2) ?_ fun _ _ h => h
  refine Post.mono (grantLane_gathers peer .extension) (fun extension after hafter => ?_)
    fun _ after hafter => .trans _ _ _ hmusic.1 hafter
  refine ⟨.trans _ _ _ hmusic.1 hafter.1,fun grant hgrant => ?_⟩
  rcases List.mem_append.mp hgrant with hold | hnew
  · exact (hmusic.2 grant hold).gathers hafter.1
  · exact hafter.2 grant hnew

theorem gathers_commitSession (plan : L.ReificationPlan) (command : L.MusicOp) :
    Stays Gathers (commitSession faults plan command) := by
  intro service
  refine post_openRoom (fun _ _ => .refl service) fun room _ => ?_
  refine Post.raise (fun _ _ => .refl service) fun _ => ?_
  refine Post.refuseIf (fun _ => .refl service) fun _ => ?_
  refine Post.raise (fun _ _ => .refl service) fun _ => ?_
  refine Post.modifying ?_
  exact Post.refuseIf (fun _ => gathers_commitOwn _ _) fun _ => gathers_commitOwn _ _

theorem applyLive_gathers (live : ReplicaLiveRecord L) (report : ApplyReport L) :
    Post (fun accepted after => before.Gathers after ∧
        (accepted = true → after.InRoom live.lane live.entry))
      (fun _ => before.Gathers) (applyLive live report before) := by
  refine post_openRoom (fun _ _ => .refl before) fun room hroom => ?_
  refine Post.modifying ?_
  refine Post.raise (fun _ _ => gathers_admitAll _ _) fun _ => ?_
  refine ⟨gathers_admitAll _ _,fun haccepted => ?_⟩
  have hadmitted : report.refused = false ∧ live.entry ∈ report.admitted :=
    of_decide_eq_true haccepted
  exact inRoom_admitAll hroom live.lane hadmitted.2

theorem gathers_tellInbound (live : ReplicaLiveRecord L) (accepted : Bool) :
    Stays Gathers (tellInbound faults live accepted) := by
  intro service
  refine Post.getting ?_
  refine Post.ite (fun _ => ?_) fun _ => .refl service
  exact Post.raise (fun _ _ => .refl service) fun _ => gathers_tellSession _ _ _ service

theorem gathers_setRepair (repair : KeyedMap Nat (RepairState L)) :
    service.Gathers (service.setRepair repair) := by
  refine ⟨fun room hroom => ⟨{ room with repair := repair },?_,fun _ _ h => ?_⟩,rfl,rfl,
    fun _ _ h => h⟩
  · simp [setRepair,hroom]
  · rename_i lane _
    cases lane <;> exact h

theorem gathers_repairStep (operation : RoomWorkerRepairRequest L) :
    Stays Gathers (repairStep operation) := by
  intro service
  cases operation with
  | start session lane opened =>
    refine post_openRoom (fun _ _ => .refl service) fun room _ => ?_
    refine Post.refuseIf (fun _ => .refl service) fun _ => ?_
    refine Post.refuseIf (fun _ => .refl service) fun _ => ?_
    cases opened with
    | error error => exact Gathers.refl service
    | ok attempt => exact gathers_setRepair _
  | frame session attempt report =>
    refine post_openRoom (fun _ _ => .refl service) fun room _ => ?_
    cases hsession : room.repair.get? session with
    | none => exact Gathers.refl service
    | some state =>
      have hadmitted : service.Gathers (service.admitAll state.lane report.admitted) :=
        gathers_admitAll _ _
      have hgathers := Gathers.trans _ _ _ hadmitted
        (gathers_setRepair (room.repair.insert session ⟨state.lane,attempt⟩))
      exact Post.modifying (Post.raise (fun _ _ => hgathers) fun _ => hgathers)
  | finish session closed =>
    refine post_openRoom (fun _ _ => .refl service) fun room _ => ?_
    cases hsession : room.repair.get? session with
    | none => exact Gathers.refl service
    | some state =>
      refine Post.modifying ?_
      cases closed with
      | error error => exact gathers_setRepair _
      | ok result => exact gathers_setRepair _

end Gathering

/-- What a request makes of the projection: it stays, or it is the grown room's under the next
revision, until there is no next one. -/
structure Serves (before after : RoomReplicaWorkerService L) : Prop where
  room : ∀ room, before.room = some room → ∃ later, after.room = some later ∧ room.Grown later
  projection : (after.projection = before.projection ∧ after.revision = before.revision) ∨
    ∃ room, after.room = some room ∧ after.projection = some room.projection
  revision : before.revision ≤ 2^64-1 →
    before.revision ≤ after.revision ∧ after.revision ≤ 2^64-1
  same : after.revision = before.revision → after.revision < 2^64-1 →
    after.projection = before.projection
  events : ∀ revision projection, after.Published revision projection →
    before.Published revision projection ∨
      (revision = after.revision ∧ after.projection = some projection)

theorem Gathers.serves (h : before.Gathers service) : before.Serves service :=
  ⟨h.room,.inl ⟨h.projection,h.revision⟩,fun hbound => by rw [h.revision]; exact ⟨le_rfl,hbound⟩,
    fun _ _ => h.projection,
    fun _ _ hpublished => .inl (h.events _ _ hpublished)⟩

def Shows (service : RoomReplicaWorkerService L) (revision : Nat) : Prop :=
  service.revision = revision ∧
    ∃ room, service.room = some room ∧ service.projection = some room.projection

theorem publishProjection_serves (h : before.Gathers service) :
    Post (fun revision after => before.Serves after ∧ after.Shows revision ∧
        after.room = service.room)
      (fun _ => before.Serves) (publishProjection faults service) := by
  refine post_openRoom (fun _ _ => h.serves) fun room hroom => ?_
  refine Post.raise (fun _ _ => h.serves) fun _ => ?_
  refine Post.getting ?_
  refine Post.ite (fun hsame => ⟨h.serves,⟨rfl,room,hroom,hsame⟩,rfl⟩) fun hnew => ?_
  refine Post.modifying ?_
  -- Each subscriber gets the projection that is there by then, under the new revision.
  let told : RoomReplicaWorkerService L → Prop := fun after =>
    before.Serves after ∧ after.revision = min (service.revision+1) (2^64-1) ∧
      after.room = service.room ∧ after.projection = some room.projection
  have hstored : told { service with
      revision := min (service.revision+1) (2^64-1), projection := some room.projection } := by
    have hrevision := h.revision
    refine ⟨⟨h.room,.inr ⟨room,hroom,rfl⟩,fun hbound => ?_,fun hsame hbound => ?_,
      fun _ _ hpublished => .inl (h.events _ _ hpublished)⟩,rfl,rfl,rfl⟩
    · simp only
      omega
    · simp only at hsame hbound
      omega
  refine Post.bind (R := fun _ => told) ?_ fun _ after hafter =>
    ⟨hafter.1,⟨hafter.2.1,room,hafter.2.2.1.trans hroom,hafter.2.2.2⟩,hafter.2.2.1⟩
  suffices hsends : Post (fun _ => told) (fun _ => told) _ from
    hsends.mono (fun _ _ hafter => hafter) fun _ _ hafter => hafter.1
  refine Post.forM told hstored fun subscription _ after hafter => ?_
  refine Post.raise (fun _ _ => hafter) fun _ => ?_
  obtain ⟨hserves,hrevision,hroom',hprojection⟩ := hafter
  refine ⟨⟨hserves.room,hserves.projection,hserves.revision,hserves.same,
    fun revision projection hpublished => ?_⟩,hrevision,hroom',hprojection⟩
  obtain ⟨subscription',previous,hevent⟩ := hpublished
  rcases List.mem_cons.mp hevent with hnew | hold
  · cases hnew
    exact .inr ⟨hrevision.symm,hprojection⟩
  · exact hserves.events _ _ ⟨subscription',previous,hold⟩

/-- What the response tells of holds of the worker that gives it. -/
def Answers (request : WorkerRequest L) (response : RoomWorkerResponse L)
    (service : RoomReplicaWorkerService L) : Prop :=
  (∀ room, service.room = some room → Holds room request response) ∧
    (∀ revision, awaited request response = .ok (some revision) → service.Shows revision) ∧
    ∀ projection revision, response = .subscribed projection revision →
      service.projection = some projection ∧ service.revision = revision

theorem Gathers.publish (h : before.Gathers service) {request : WorkerRequest L}
    (respond : Nat → RoomWorkerResponse L)
    (hawaited : ∀ revision revision', awaited request (respond revision) = .ok (some revision') →
      revision = revision')
    (hholds : ∀ revision room, service.room = some room → Holds room request (respond revision))
    (hresponse : ∀ revision projection revision',
      respond revision ≠ .subscribed projection revision') :
    Post (fun response after => before.Serves after ∧ after.Answers request response)
      (fun _ => before.Serves)
      ((publishProjection faults >>= fun revision => pure (respond revision)) service) := by
  refine Post.bind (publishProjection_serves h) fun revision after hafter => ?_
  obtain ⟨hserves,hshows,hroom⟩ := hafter
  refine ⟨hserves,fun room hroom' => hholds revision room (hroom ▸ hroom'),
    fun revision' hawait => ?_,fun projection revision' hsame => absurd hsame (hresponse _ _ _)⟩
  rw [← hawaited revision revision' hawait]
  exact hshows

theorem InRoom.holds {lane : RoomLane} {entry : L.Entry} (h : service.InRoom lane entry)
    {room : RoomDataPlane L} (hroom : service.room = some room) :
    entry ∈ (room.laneOf lane).history := by
  obtain ⟨found,hfound,hentry⟩ := h
  rw [hroom] at hfound
  cases hfound
  exact hentry

theorem handleCommit_serves (command : L.RoomCommand) :
    Post (fun response after => before.Serves after ∧ after.Answers (.commit command) response)
      (fun _ => before.Serves) (handleCommit faults command before) := by
  refine Post.bind (Post.mono (commit_gathers command) (fun _ _ h => h) fun _ _ h => h.serves)
    fun entry committed hcommitted => ?_
  obtain ⟨hgathers,hentry⟩ := hcommitted
  refine hgathers.bind (gathers_emitOutbound _) (fun _ _ h => h.serves)
    fun _ sent hsent hgathers' => ?_
  refine hgathers'.bind (gathers_tellSession _ _ _) (fun _ _ h => h.serves)
    fun _ told htold hgathers'' => ?_
  refine hgathers''.publish _ (fun revision revision' hawait => ?_) (fun revision room hroom => ?_)
    fun _ _ _ hsame => by cases hsame
  · cases hawait
    rfl
  · exact ⟨entry,((hentry.gathers hsent).gathers htold).holds hroom,rfl⟩

theorem handleGrantPeer_serves (peer : ActorId) :
    Post (fun response after => before.Serves after ∧ after.Answers (.grantPeer peer) response)
      (fun _ => before.Serves) (handleGrantPeer faults peer before) := by
  refine Post.bind (Post.mono (grantPeer_gathers peer) (fun _ _ h => h) fun _ _ h => h.serves)
    fun grants granted hgranted => ?_
  obtain ⟨hgathers,hgrants⟩ := hgranted
  have hemit : Stays Gathers (grants.forM (emitOutbound faults) : ServiceM L PUnit) :=
    fun service =>
    Post.forM (service.Gathers ·) (.refl service) fun record _ after hafter =>
      Post.mono (gathers_emitOutbound record after) (fun _ _ h => .trans _ _ _ hafter h)
        fun _ _ h => .trans _ _ _ hafter h
  refine hgathers.bind hemit (fun _ _ h => h.serves) fun _ sent hsent hgathers' => ?_
  refine hgathers'.bind (gathers_tellSession _ _ _) (fun _ _ h => h.serves)
    fun _ told htold hgathers'' => ?_
  refine hgathers''.publish _ (fun revision revision' hawait => ?_) (fun revision room hroom => ?_)
    fun _ _ _ hsame => by cases hsame
  · cases hawait
    rfl
  · intro grant hgrant
    obtain ⟨record,hrecord,rfl⟩ := List.mem_map.mp hgrant
    exact ⟨record.2,(((hgrants record hrecord).gathers hsent).gathers htold).holds hroom,rfl⟩

theorem handleInboundRecord_serves (live : ReplicaLiveRecord L) (report : ApplyReport L) :
    Post (fun response after => before.Serves after ∧
        after.Answers (.inboundRecord live report) response)
      (fun _ => before.Serves) (handleInboundRecord faults live report before) := by
  refine Post.bind
    (Post.mono (applyLive_gathers live report) (fun _ _ h => h) fun _ _ h => h.serves)
    fun accepted applied happlied => ?_
  obtain ⟨hgathers,hentry⟩ := happlied
  refine hgathers.bind (gathers_tellInbound _ _) (fun _ _ h => h.serves)
    fun _ told htold hgathers' => ?_
  refine hgathers'.publish _ (fun revision revision' hawait => ?_) (fun revision room hroom => ?_)
    fun _ _ _ hsame => by cases hsame
  · cases hawait
    rfl
  · exact fun haccepted => ((hentry haccepted).gathers htold).holds hroom

theorem answers_of_idle {request : WorkerRequest L} {response : RoomWorkerResponse L}
    (hholds : ∀ room, Holds room request response)
    (hawaited : ∀ revision, awaited request response ≠ .ok (some revision))
    (hresponse : ∀ projection revision, response ≠ .subscribed projection revision) :
    service.Answers request response :=
  ⟨fun room _ => hholds room,fun revision hawait => absurd hawait (hawaited revision),
    fun projection revision hsame => absurd hsame (hresponse projection revision)⟩

theorem handleDrainSession_serves (reification : Option (RoomSessionReification L)) :
    Post (fun response after => before.Serves after ∧
        after.Answers (.drainSession reification) response)
      (fun _ => before.Serves) (handleDrainSession faults reification before) := by
  have hrefl := (Gathers.refl before).serves
  refine Post.getting ?_
  refine Post.refuseIf (fun _ => hrefl) fun _ => ?_
  cases reification with
  | none =>
    refine Post.getting ⟨hrefl,answers_of_idle (fun _ => trivial) (fun _ => by simp [awaited])
      fun _ _ => by simp⟩
  | some reification =>
    refine (Gathers.refl before).bind (gathers_commitSession _ _) (fun _ _ h => h.serves)
      fun entry committed _ hgathers => ?_
    refine hgathers.bind (gathers_emitOutbound _) (fun _ _ h => h.serves)
      fun _ sent _ hgathers' => ?_
    refine hgathers'.bind (gathers_tellSession _ _ _) (fun _ _ h => h.serves)
      fun _ told _ hgathers'' => ?_
    exact hgathers''.publish _ (fun _ _ hawait => by cases hawait) (fun _ _ _ => trivial)
      fun _ _ _ hsame => by cases hsame

theorem handleRepairFrame_serves (operation : RoomWorkerRepairRequest L) :
    Post (fun response after => before.Serves after ∧
        after.Answers (.repairFrame operation) response)
      (fun _ => before.Serves) (handleRepairFrame faults operation before) := by
  have hrefl := (Gathers.refl before).serves
  refine post_openRoom (fun _ _ => hrefl) fun room hroom => ?_
  refine Post.raise (fun _ _ => hrefl) fun _ => ?_
  refine (Gathers.refl before).bind (gathers_repairStep operation) (fun _ _ h => h.serves)
    fun step stepped _ hgathers => ?_
  refine Post.raise (fun _ _ => hgathers.serves) fun _ => ?_
  refine post_openRoom (fun _ _ => hgathers.serves) fun room' hroom' => ?_
  refine hgathers.bind (gathers_tellSession _ _ _) (fun _ _ h => h.serves)
    fun _ told _ hgathers' => ?_
  exact hgathers'.publish (fun _ => .repair step) (fun _ _ hawait => by cases hawait)
    (fun _ _ _ => trivial) fun _ _ _ hsame => by cases hsame

theorem handle_serves (request : WorkerRequest L) :
    Post (fun response after => before.Serves after ∧ after.Answers request response)
      (fun _ => before.Serves) (handle faults request before) := by
  have hrefl := (Gathers.refl before).serves
  cases request with
  | subscribe subscription =>
    have hserves : before.Serves { before with
        subscriptions := insert subscription before.subscriptions } :=
      ⟨hrefl.room,.inl ⟨rfl,rfl⟩,hrefl.revision,fun _ _ => rfl,hrefl.events⟩
    refine Post.modifying (Post.getting ?_)
    cases hprojection : before.projection with
    | none =>
      rw [hprojection] at hserves
      exact hserves
    | some projection =>
      rw [hprojection] at hserves
      refine ⟨hserves,fun _ _ => trivial,fun _ hawait => (by cases hawait),fun _ _ hsame => ?_⟩
      cases hsame
      exact ⟨rfl,rfl⟩
  | unsubscribe subscription =>
    refine Post.modifying
      ⟨⟨hrefl.room,.inl ⟨rfl,rfl⟩,hrefl.revision,fun _ _ => rfl,hrefl.events⟩,?_⟩
    exact answers_of_idle (fun _ => trivial) (fun _ => by simp [awaited]) fun _ _ => by simp
  | commit command => exact handleCommit_serves command
  | grantPeer peer => exact handleGrantPeer_serves peer
  | startSessionPeer peer =>
    refine post_openRoom (fun _ _ => hrefl) fun room hroom => ?_
    refine Post.raise (fun _ _ => hrefl) fun _ => ?_
    cases hfoundation : room.sessionFoundation peer with
    | error error => exact hrefl
    | ok foundation =>
      refine Post.getting (Post.refuseIf (fun _ => hrefl) fun _ => ?_)
      refine (Gathers.refl before).bind (gathers_sendTask _ _ _) (fun _ _ h => h.serves)
        fun _ sent _ hgathers => ?_
      refine Post.modifying ⟨⟨hgathers.room,hgathers.serves.projection,hgathers.serves.revision,
        fun _ _ => hgathers.projection,hgathers.serves.events⟩,?_⟩
      exact answers_of_idle (fun _ => trivial) (fun _ => by simp [awaited]) fun _ _ => by simp
  | drainSession reification => exact handleDrainSession_serves reification
  | inboundRecord live report => exact handleInboundRecord_serves live report
  | repairFrame operation => exact handleRepairFrame_serves operation

end RoomReplicaWorkerService

/-! ### The window's waits -/

namespace WindowWorkerState

variable {published : List (Nat × RoomWorkerProjection L)} {state after : WindowWorkerState L}

def Ahead (state : WindowWorkerState L) : Prop :=
  ∀ waiter ∈ state.projectionWaiters, ∀ current, state.projection = some current →
    current.revision < waiter.1

def waits (state : WindowWorkerState L) : List Nat :=
  state.answers.map Prod.fst ++ state.projectionWaiters.map Prod.snd

/-- The window shows what was published, and answers waits, an answer that is a projection only
from their revision on. -/
structure Moves (published : List (Nat × RoomWorkerProjection L))
    (state after : WindowWorkerState L) : Prop where
  projection : after.projection = state.projection ∨
    ∃ current, after.projection = some current ∧ (current.revision,current.value) ∈ published
  waiters : ∀ waiter ∈ after.projectionWaiters, waiter ∈ state.projectionWaiters
  answers : ∀ answer ∈ after.answers, answer ∈ state.answers ∨
    ∃ target, (target,answer.1) ∈ state.projectionWaiters ∧ ∀ projection,
      answer.2 = .ok projection → ∃ revision, target ≤ revision ∧ (revision,projection) ∈ published
  waits : after.waits.Perm state.waits
  ahead : state.Ahead → after.Ahead

theorem Moves.refl (state : WindowWorkerState L) : Moves published state state :=
  ⟨.inl rfl,fun _ h => h,fun _ h => .inl h,.rfl,fun h => h⟩

theorem Moves.idle (hprojection : after.projection = state.projection)
    (hwaiters : after.projectionWaiters = state.projectionWaiters)
    (hanswers : after.answers = state.answers) : Moves published state after := by
  refine ⟨.inl hprojection,fun _ h => hwaiters ▸ h,fun _ h => .inl (hanswers ▸ h),?_,?_⟩
  · simp [WindowWorkerState.waits,hwaiters,hanswers]
  · simp [Ahead,hwaiters,hprojection]

theorem moves_fail (message : String) : Moves published state (state.fail message) := by
  unfold fail
  split
  · exact .refl state
  · exact .refl state
  · exact .refl state
  all_goals
    refine ⟨.inl rfl,by simp,fun answer hanswer => ?_,?_,fun _ => by simp [Ahead]⟩
    · rcases List.mem_append.mp hanswer with hold | hnew
      · exact .inl hold
      · obtain ⟨waiter,hwaiter,rfl⟩ := List.mem_map.mp hnew
        exact .inr ⟨waiter.1,hwaiter,fun _ hok => by cases hok⟩
    · simp [WindowWorkerState.waits,Function.comp_def]

theorem moves_acceptProjection {projection : BrowserProjectionState L}
    (hpublished : (projection.revision,projection.value) ∈ published) :
    Moves published state (state.acceptProjection projection) := by
  refine ⟨.inr ⟨projection,rfl,hpublished⟩,fun waiter hwaiter => (List.mem_filter.mp hwaiter).1,
    fun answer hanswer => ?_,?_,fun _ waiter hwaiter current hcurrent => ?_⟩
  · rcases List.mem_append.mp hanswer with hold | hnew
    · exact .inl hold
    · obtain ⟨waiter,hwaiter,rfl⟩ := List.mem_map.mp hnew
      obtain ⟨hmem,hdue⟩ := List.mem_filter.mp hwaiter
      refine .inr ⟨waiter.1,hmem,fun shown hok => ?_⟩
      cases hok
      exact ⟨projection.revision,by simpa using hdue,hpublished⟩
  · simp only [WindowWorkerState.waits,acceptProjection,List.map_append,List.map_map,
      List.append_assoc,Function.comp_def]
    refine List.Perm.append_left _ ?_
    rw [← List.map_append]
    refine List.Perm.map _ ?_
    have hrest : (fun waiter : Nat × Nat => decide (projection.revision < waiter.1)) =
        fun waiter => !decide (waiter.1 ≤ projection.revision) := by
      funext waiter
      rw [← decide_not]
      exact decide_eq_decide.mpr Nat.not_le.symm
    rw [hrest]
    exact List.filter_append_perm _ _
  · cases hcurrent
    simpa using (List.mem_filter.mp hwaiter).2

theorem moves_receive {event : WindowEvent L}
    (hpublished : ∀ kind revision projection, event = .projection kind (.ok revision)
      (.ok projection) → (revision,projection) ∈ published) :
    Moves published state (state.receive event) := by
  cases event with
  | projection kind accepted payload =>
    simp only [receive]
    split
    · exact .idle rfl rfl rfl
    · cases accepted with
      | error error => exact moves_fail _
      | ok revision =>
        cases payload with
        | error error => exact moves_fail _
        | ok projection => exact moves_acceptProjection (hpublished kind revision projection rfl)
  | outboundRecord record => exact .idle rfl rfl rfl
  | repairFrame => exact .idle rfl rfl rfl
  | error text => exact moves_fail _
  | backpressure text => exact .idle rfl rfl rfl
  | closed text => exact moves_fail _
  | uncorrelated kind => exact .idle rfl rfl rfl
  | unknown kind => exact moves_fail _

theorem moves_requestFailed (error : String) (fatal : Bool) :
    Moves published state (state.requestFailed error fatal) := by
  cases fatal with
  | false => exact .refl state
  | true => exact moves_fail error

theorem moves_acceptInitialSnapshot {accepted : Except String Nat}
    {projection : RoomWorkerProjection L}
    (hpublished : ∀ revision, accepted = .ok revision → (revision,projection) ∈ published)
    (h : state.acceptInitialSnapshot accepted (.ok projection) = .ok after) :
    Moves published state after := by
  unfold acceptInitialSnapshot at h
  split at h
  · cases h
  · cases accepted with
    | error error => cases h
    | ok revision =>
      cases h
      exact moves_acceptProjection (hpublished revision rfl)

theorem moves_endClose (error : Option String) : Moves published state (state.endClose error) := by
  cases error with
  | none => exact .idle rfl rfl rfl
  | some error => exact moves_fail error

/-- What a method goes on with: the projection that has come, or a wait that is ahead of it. -/
theorem waitForProjection_spec (state : WindowWorkerState L) (target waiter : Nat) :
    (∃ current, state.projection = some current ∧ target ≤ current.revision ∧
      state.waitForProjection target waiter = (some current.value,state)) ∨
    ((∀ current, state.projection = some current → current.revision < target) ∧
      state.waitForProjection target waiter = (none,state.addWaiter target waiter)) := by
  unfold waitForProjection
  cases hcurrent : state.projection with
  | none => exact .inr ⟨fun _ h => (by cases h),rfl⟩
  | some current =>
    by_cases hreached : target ≤ current.revision
    · exact .inl ⟨current,rfl,hreached,if_pos hreached⟩
    · refine .inr ⟨fun other hother => ?_,if_neg hreached⟩
      cases hother
      omega

end WindowWorkerState

/-! ### The worker and its window -/

def Call.response? (call : Call L) : Option (RoomWorkerResponse L) :=
  match call.phase with
  | .handled (.ok response) => some response
  | .waiting response => some response
  | .returned (.ok (response,_)) => some response
  | _ => none

namespace Placement

variable {placement : Placement L} {index : Nat} {call : Call L}

/-- What the response tells of is in the worker's room, and in a room of every projection from the
awaited revision on. -/
structure Certified (placement : Placement L) (request : WorkerRequest L)
    (response : RoomWorkerResponse L) : Prop where
  holds : ∀ room, placement.service.room = some room → Holds room request response
  shown : ∀ target, awaited request response = .ok (some target) → target < 2^64-1 →
    ∀ revision projection, (revision,projection) ∈ placement.published → target ≤ revision →
      ∃ room ∈ placement.rooms, projection = room.projection ∧ Holds room request response
  subscribed : ∀ projection revision, response = .subscribed projection revision →
    (revision,projection) ∈ placement.published

/-- The published projections are those of the worker's rooms, in the order of their revisions. -/
structure Recorded (placement : Placement L) : Prop where
  room : ∃ room, placement.service.room = some room ∧ room ∈ placement.rooms
  bound : placement.service.revision ≤ 2^64-1
  current : ∀ projection, placement.service.projection = some projection →
    (placement.service.revision,projection) ∈ placement.published
  known : ∀ revision projection, (revision,projection) ∈ placement.published →
    revision ≤ placement.service.revision ∧
      ∃ room ∈ placement.rooms, projection = room.projection
  latest : ∀ revision projection, (revision,projection) ∈ placement.published →
    revision = placement.service.revision → revision < 2^64-1 →
      placement.service.projection = some projection
  events : ∀ revision projection, placement.service.Published revision projection →
    (revision,projection) ∈ placement.published

/-- What an answer to a wait promises the call that waits. -/
def Promised (placement : Placement L) (call : Call L) (response : RoomWorkerResponse L)
    (projection : RoomWorkerProjection L) : Prop :=
  ∃ target revision, awaited call.request response = .ok (some target) ∧ target ≤ revision ∧
    (revision,projection) ∈ placement.published

structure Consistent (placement : Placement L) : Prop extends placement.Recorded where
  window : ∀ current, placement.window.projection = some current →
    (current.revision,current.value) ∈ placement.published
  certified : ∀ call ∈ placement.calls, ∀ response, call.response? = some response →
    placement.Certified call.request response
  waiting : ∀ waiter ∈ placement.window.projectionWaiters, ∃ call response,
    placement.calls[waiter.2]? = some call ∧ call.phase = .waiting response ∧
      awaited call.request response = .ok (some waiter.1)
  answered : ∀ answer ∈ placement.window.answers, ∃ call,
    placement.calls[answer.1]? = some call ∧
      ((∃ response, call.phase = .waiting response ∧ ∀ projection, answer.2 = .ok projection →
          placement.Promised call response projection) ∨
        ∃ result, call.phase = .returned result)
  returned : ∀ call ∈ placement.calls, ∀ response projection,
    call.phase = .returned (.ok (response,some projection)) →
      placement.Promised call response projection
  once : placement.window.waits.Nodup
  ahead : placement.window.Ahead

theorem opened_consistent (room : RoomDataPlane L) (session : Bool) :
    (opened room session).Consistent := by
  refine ⟨⟨⟨room,rfl,List.mem_singleton_self room⟩,by simp [opened],fun projection h => ?_,
    fun revision projection h => ?_,fun revision projection h _ _ => ?_,?_⟩,?_,?_,?_,?_,?_,.nil,?_⟩
  · cases h
    exact List.mem_singleton_self _
  · cases List.mem_singleton.mp h
    exact ⟨le_rfl,room,List.mem_singleton_self room,rfl⟩
  · cases List.mem_singleton.mp h
    rfl
  · rintro revision projection ⟨subscription,previous,hevent⟩
    cases hevent
  all_goals simp [opened,WindowWorkerState.Ahead]

section Sharing

variable {later : Placement L}

theorem Certified.congr {request : WorkerRequest L} {response : RoomWorkerResponse L}
    (h : placement.Certified request response) (hservice : later.service = placement.service)
    (hrooms : later.rooms = placement.rooms) (hpublished : later.published = placement.published) :
    later.Certified request response := by
  obtain ⟨service,window,calls,rooms,published⟩ := later
  cases hservice
  cases hrooms
  cases hpublished
  exact ⟨h.holds,h.shown,h.subscribed⟩

theorem Recorded.congr (h : placement.Recorded) (hservice : later.service = placement.service)
    (hrooms : later.rooms = placement.rooms) (hpublished : later.published = placement.published) :
    later.Recorded := by
  obtain ⟨service,window,calls,rooms,published⟩ := later
  cases hservice
  cases hrooms
  cases hpublished
  exact ⟨h.room,h.bound,h.current,h.known,h.latest,h.events⟩

end Sharing

theorem Consistent.setWindow (h : placement.Consistent) {after : WindowWorkerState L}
    (hmoves : placement.window.Moves placement.published after) :
    (placement.setWindow after).Consistent := by
  refine ⟨h.toRecorded.congr rfl rfl rfl,fun current hcurrent => ?_,
    fun call hcall response hresponse => ?_,fun waiter hwaiter => ?_,fun answer hanswer => ?_,
    fun call hcall response projection hphase => h.returned call hcall response projection hphase,
    hmoves.waits.nodup_iff.mpr h.once,hmoves.ahead h.ahead⟩
  · rcases hmoves.projection with hsame | ⟨shown,hshown,hpublished⟩
    · exact h.window current (hsame ▸ hcurrent)
    · rw [show (placement.setWindow after).window.projection = some shown from hshown] at hcurrent
      cases hcurrent
      exact hpublished
  · exact (h.certified call hcall response hresponse).congr rfl rfl rfl
  · exact h.waiting waiter (hmoves.waiters waiter hwaiter)
  · rcases hmoves.answers answer hanswer with hold | ⟨target,hwaiter,hreached⟩
    · exact h.answered answer hold
    · obtain ⟨call,response,hcall,hphase,hawaited⟩ := h.waiting _ hwaiter
      refine ⟨call,hcall,.inl ⟨response,hphase,fun projection hok => ?_⟩⟩
      obtain ⟨revision,hle,hpublished⟩ := hreached projection hok
      exact ⟨target,revision,hawaited,hle,hpublished⟩

theorem Consistent.not_mem_waits (h : placement.Consistent)
    (hcall : placement.calls[index]? = some call)
    (hwaiting : ∀ response, call.phase ≠ .waiting response)
    (hreturned : ∀ result, call.phase ≠ .returned result) :
    index ∉ placement.window.waits := by
  intro hmem
  rcases List.mem_append.mp hmem with hmem | hmem
  · obtain ⟨answer,hanswer,rfl⟩ := List.mem_map.mp hmem
    obtain ⟨found,hfound,hphase⟩ := h.answered answer hanswer
    rw [hcall] at hfound
    cases hfound
    rcases hphase with ⟨response,hphase,-⟩ | ⟨result,hphase⟩
    · exact hwaiting response hphase
    · exact hreturned result hphase
  · obtain ⟨waiter,hwaiter,rfl⟩ := List.mem_map.mp hmem
    obtain ⟨found,response,hfound,hphase,-⟩ := h.waiting waiter hwaiter
    rw [hcall] at hfound
    cases hfound
    exact hwaiting response hphase

theorem mem_setCall {phase : CallPhase L} {other : Call L}
    (h : other ∈ (placement.setCall index call phase).calls) :
    other ∈ placement.calls ∨ other = { call with phase := phase } :=
  List.mem_or_eq_of_mem_set h

/-- A call goes on to another phase; none of the waits is its own, or it has returned. -/
theorem Consistent.setCall (h : placement.Consistent)
    (hcall : placement.calls[index]? = some call) (phase : CallPhase L)
    (hcertified : ∀ response, Call.response? { call with phase := phase } = some response →
      placement.Certified call.request response)
    (hwaiting : ∀ waiter ∈ placement.window.projectionWaiters, waiter.2 ≠ index)
    (hanswered : ∀ answer ∈ placement.window.answers, answer.1 = index →
      ∃ result, phase = .returned result)
    (hreturned : ∀ response projection, phase = .returned (.ok (response,some projection)) →
      placement.Promised call response projection) :
    (placement.setCall index call phase).Consistent := by
  have hlength := (List.getElem?_eq_some_iff.mp hcall).1
  refine ⟨h.toRecorded.congr rfl rfl rfl,h.window,
    fun other hother response hresponse => ?_,fun waiter hwaiter => ?_,fun answer hanswer => ?_,
    fun other hother response projection hphase => ?_,h.once,h.ahead⟩
  · have hold : placement.Certified other.request response := by
      rcases mem_setCall hother with hmem | rfl
      · exact h.certified other hmem response hresponse
      · exact hcertified response hresponse
    exact hold.congr rfl rfl rfl
  · obtain ⟨found,response,hfound,hphase,hawaited⟩ := h.waiting waiter hwaiter
    refine ⟨found,response,?_,hphase,hawaited⟩
    rw [Placement.setCall,List.getElem?_set_ne (hwaiting waiter hwaiter).symm,hfound]
  · by_cases hsame : answer.1 = index
    · obtain ⟨result,hresult⟩ := hanswered answer hanswer hsame
      refine ⟨{ call with phase := phase },?_,.inr ⟨result,hresult⟩⟩
      rw [Placement.setCall,hsame,List.getElem?_set_self hlength]
    · obtain ⟨found,hfound,hphase⟩ := h.answered answer hanswer
      refine ⟨found,?_,hphase⟩
      rw [Placement.setCall,List.getElem?_set_ne (Ne.symm hsame),hfound]
  · rcases mem_setCall hother with hmem | rfl
    · exact h.returned other hmem response projection hphase
    · exact hreturned response projection hphase

theorem Consistent.proceed (h : placement.Consistent)
    (hcall : placement.calls[index]? = some call) (phase : CallPhase L)
    (hidle : index ∉ placement.window.waits)
    (hcertified : ∀ response, Call.response? { call with phase := phase } = some response →
      placement.Certified call.request response)
    (hreturned : ∀ response projection, phase = .returned (.ok (response,some projection)) →
      placement.Promised call response projection) :
    (placement.setCall index call phase).Consistent := by
  refine h.setCall hcall phase hcertified (fun waiter hwaiter hsame => ?_)
    (fun answer hanswer hsame => ?_) hreturned
  · exact hidle (List.mem_append_right _ (hsame ▸ List.mem_map_of_mem hwaiter))
  · exact absurd (List.mem_append_left _ (hsame ▸ List.mem_map_of_mem hanswer)) hidle

theorem Consistent.addWaiter (h : placement.Consistent)
    (hcall : placement.calls[index]? = some call) {response : RoomWorkerResponse L} {target : Nat}
    (hphase : call.phase = .waiting response)
    (hawaited : awaited call.request response = .ok (some target))
    (hidle : index ∉ placement.window.waits)
    (hahead : ∀ current, placement.window.projection = some current → current.revision < target) :
    (placement.setWindow (placement.window.addWaiter target index)).Consistent := by
  have hwaits : (placement.window.addWaiter target index).waits =
      placement.window.waits ++ [index] := by
    simp [WindowWorkerState.waits,WindowWorkerState.addWaiter]
  refine ⟨h.toRecorded.congr rfl rfl rfl,h.window,
    fun other hother response hresponse => ?_,fun waiter hwaiter => ?_,h.answered,h.returned,?_,
    fun waiter hwaiter current hcurrent => ?_⟩
  · exact (h.certified other hother response hresponse).congr rfl rfl rfl
  · rcases List.mem_append.mp hwaiter with hold | hnew
    · exact h.waiting waiter hold
    · rw [List.mem_singleton.mp hnew]
      exact ⟨call,response,hcall,hphase,hawaited⟩
  · show (placement.window.addWaiter target index).waits.Nodup
    rw [hwaits]
    exact List.nodup_append.mpr ⟨h.once,List.nodup_singleton index,
      fun other hother same hsame hsame' =>
        hidle (List.mem_singleton.mp hsame ▸ hsame' ▸ hother)⟩
  · rcases List.mem_append.mp hwaiter with hold | hnew
    · exact h.ahead waiter hold current hcurrent
    · rw [List.mem_singleton.mp hnew]
      exact hahead current hcurrent

theorem Consistent.appendCall (h : placement.Consistent) (request : WorkerRequest L) :
    (placement.step (.call request)).Consistent := by
  have hkept : ∀ {index : Nat} {call : Call L}, placement.calls[index]? = some call →
      (placement.calls ++ [{ request := request }])[index]? = some call := fun hcall => by
    rw [List.getElem?_append_left (List.getElem?_eq_some_iff.mp hcall).1,hcall]
  refine ⟨h.toRecorded.congr rfl rfl rfl,h.window,
    fun other hother response hresponse => ?_,fun waiter hwaiter => ?_,fun answer hanswer => ?_,
    fun other hother response projection hphase => ?_,h.once,h.ahead⟩
  · rcases List.mem_append.mp hother with hold | hnew
    · exact (h.certified other hold response hresponse).congr rfl rfl rfl
    · rw [List.mem_singleton.mp hnew] at hresponse
      cases hresponse
  · obtain ⟨found,response,hfound,hphase⟩ := h.waiting waiter hwaiter
    exact ⟨found,response,hkept hfound,hphase⟩
  · obtain ⟨found,hfound,hphase⟩ := h.answered answer hanswer
    exact ⟨found,hkept hfound,hphase⟩
  · rcases List.mem_append.mp hother with hold | hnew
    · exact h.returned other hold response projection hphase
    · rw [List.mem_singleton.mp hnew] at hphase
      cases hphase

section Serving

variable {after : RoomReplicaWorkerService L}

theorem Recorded.served (h : placement.Recorded) (hserves : placement.service.Serves after) :
    (placement.served after).Recorded := by
  obtain ⟨room,hroom,hmem⟩ := h.room
  obtain ⟨later,hlater,-⟩ := hserves.room room hroom
  obtain ⟨hrevision,hbound⟩ := hserves.revision h.bound
  have hrooms : (placement.served after).rooms = later :: placement.rooms := by
    simp [Placement.served,hlater]
  have hpublished : ∀ {revision projection}, (revision,projection) ∈
      (placement.served after).published →
        (revision = after.revision ∧ after.projection = some projection) ∨
          (revision,projection) ∈ placement.published := by
    intro revision projection hpublished
    rcases List.mem_append.mp hpublished with hnew | hold
    · obtain ⟨shown,hshown,hpair⟩ := List.mem_map.mp hnew
      cases hpair
      exact .inl ⟨rfl,Option.mem_toList.mp hshown⟩
    · exact .inr hold
  have hcurrent : ∀ projection, after.projection = some projection →
      (after.revision,projection) ∈ (placement.served after).published := by
    intro projection hprojection
    refine List.mem_append_left _ (List.mem_map.mpr ⟨projection,?_,rfl⟩)
    rw [hprojection]
    exact List.mem_singleton_self projection
  refine ⟨⟨later,hlater,hrooms ▸ List.mem_cons_self⟩,hbound,hcurrent,
    fun revision projection hmem => ?_,fun revision projection hmem hlast hbelow => ?_,
    fun revision projection hevent => ?_⟩
  · rw [hrooms]
    rcases hpublished hmem with ⟨rfl,hprojection⟩ | hold
    · refine ⟨le_rfl,?_⟩
      rcases hserves.projection with ⟨hsame,-⟩ | ⟨room',hroom',hshown⟩
      · obtain ⟨-,room',hroom',hshown⟩ := h.known _ _ (h.current projection (hsame ▸ hprojection))
        exact ⟨room',List.mem_cons_of_mem _ hroom',hshown⟩
      · rw [hlater] at hroom'
        cases hroom'
        rw [hshown] at hprojection
        cases hprojection
        exact ⟨later,List.mem_cons_self,rfl⟩
    · obtain ⟨hle,room',hroom',hshown⟩ := h.known _ _ hold
      exact ⟨hle.trans hrevision,room',List.mem_cons_of_mem _ hroom',hshown⟩
  · rcases hpublished hmem with ⟨-,hprojection⟩ | hold
    · exact hprojection
    · have hlast' : revision = after.revision := hlast
      have hle := (h.known _ _ hold).1
      have hsame := hserves.same (by omega) (by omega)
      exact hsame.trans (h.latest revision projection hold (by omega) hbelow)
  · rcases hserves.events revision projection hevent with hold | ⟨rfl,hprojection⟩
    · exact List.mem_append_right _ (h.events _ _ hold)
    · exact hcurrent projection hprojection

theorem mem_rooms_served {room : RoomDataPlane L} (h : room ∈ placement.rooms) :
    room ∈ (placement.served after).rooms := List.mem_append_right _ h

theorem mem_published_served {pair : Nat × RoomWorkerProjection L}
    (h : pair ∈ placement.published) : pair ∈ (placement.served after).published :=
  List.mem_append_right _ h

theorem Certified.served {request : WorkerRequest L} {response : RoomWorkerResponse L}
    (h : placement.Certified request response) (hrecorded : placement.Recorded)
    (hserves : placement.service.Serves after) :
    (placement.served after).Certified request response := by
  obtain ⟨room,hroom,-⟩ := hrecorded.room
  obtain ⟨later,hlater,hgrown⟩ := hserves.room room hroom
  have hholds := (h.holds room hroom).grown hgrown
  refine ⟨fun room' hroom' => ?_,
    fun target hawaited hbelow revision projection hpublished hle => ?_,
    fun projection revision hsame => mem_published_served (h.subscribed projection revision hsame)⟩
  · rw [show (placement.served after).service.room = some later from hlater] at hroom'
    cases hroom'
    exact hholds
  · have hold : ∀ revision, (revision,projection) ∈ placement.published → target ≤ revision →
        ∃ room ∈ (placement.served after).rooms,
          projection = room.projection ∧ Holds room request response := by
      intro revision hpublished hle
      obtain ⟨room',hroom',hshown⟩ :=
        h.shown target hawaited hbelow revision projection hpublished hle
      exact ⟨room',mem_rooms_served hroom',hshown⟩
    rcases List.mem_append.mp hpublished with hnew | hbefore
    · obtain ⟨shown,hshown,hpair⟩ := List.mem_map.mp hnew
      cases hpair
      have hprojection : after.projection = some projection := Option.mem_toList.mp hshown
      rcases hserves.projection with ⟨hsame,hrevision⟩ | ⟨room',hroom',hshown⟩
      · exact hold _ (hrecorded.current projection (hsame ▸ hprojection)) (hrevision ▸ hle)
      · rw [hlater] at hroom'
        cases hroom'
        rw [hshown] at hprojection
        cases hprojection
        refine ⟨later,?_,rfl,hholds⟩
        simp [Placement.served,hlater]
    · exact hold revision hbefore hle

theorem Recorded.certified {request : WorkerRequest L} {response : RoomWorkerResponse L}
    (h : (placement.served after).Recorded) (hanswers : after.Answers request response) :
    (placement.served after).Certified request response := by
  obtain ⟨hholds,hshows,hsubscribed⟩ := hanswers
  refine ⟨hholds,fun target hawaited hbelow revision projection hpublished hle => ?_,
    fun projection revision hsame => ?_⟩
  · obtain ⟨hrevision,room,hroom,hprojection⟩ := hshows target hawaited
    obtain ⟨hle',-⟩ := h.known revision projection hpublished
    have hle'' : revision ≤ after.revision := hle'
    have hsame := h.latest revision projection hpublished
      (show revision = after.revision by omega) (by omega)
    have hsame' : after.projection = some projection := hsame
    rw [hprojection] at hsame'
    cases hsame'
    obtain ⟨room',hroom',hmem⟩ := h.room
    rw [show (placement.served after).service.room = some room from hroom] at hroom'
    cases hroom'
    exact ⟨room,hmem,rfl,hholds room hroom⟩
  · obtain ⟨hprojection,hrevision⟩ := hsubscribed projection revision hsame
    rw [← hrevision]
    exact h.current projection hprojection

theorem Consistent.served (h : placement.Consistent) (hserves : placement.service.Serves after) :
    (placement.served after).Consistent := by
  refine ⟨h.toRecorded.served hserves,fun current hcurrent => mem_published_served
      (h.window current hcurrent),fun call hcall response hresponse =>
    (h.certified call hcall response hresponse).served h.toRecorded hserves,h.waiting,
    fun answer hanswer => ?_,fun call hcall response projection hphase => ?_,h.once,h.ahead⟩
  · obtain ⟨call,hcall,hphase⟩ := h.answered answer hanswer
    refine ⟨call,hcall,hphase.imp_left fun ⟨response,hwaiting,hpromised⟩ =>
      ⟨response,hwaiting,fun projection hok => ?_⟩⟩
    obtain ⟨target,revision,hawaited,hle,hpublished⟩ := hpromised projection hok
    exact ⟨target,revision,hawaited,hle,mem_published_served hpublished⟩
  · obtain ⟨target,revision,hawaited,hle,hpublished⟩ :=
      h.returned call hcall response projection hphase
    exact ⟨target,revision,hawaited,hle,mem_published_served hpublished⟩

end Serving

/-- A consistent placement in which every call that waits has its wait, or the answer to it. -/
structure Sound (placement : Placement L) : Prop extends placement.Consistent where
  heard : ∀ (index : Nat) (call : Call L) (response : RoomWorkerResponse L),
    placement.calls[index]? = some call → call.phase = .waiting response →
      index ∈ placement.window.waits

theorem opened_sound (room : RoomDataPlane L) (session : Bool) : (opened room session).Sound :=
  ⟨opened_consistent room session,fun _ _ _ hcall => by cases hcall⟩

theorem Sound.setWindow (h : placement.Sound) {after : WindowWorkerState L}
    (hmoves : placement.window.Moves placement.published after) :
    (placement.setWindow after).Sound :=
  ⟨h.toConsistent.setWindow hmoves,fun index call response hcall hphase =>
    hmoves.waits.mem_iff.mpr (h.heard index call response hcall hphase)⟩

theorem getElem?_setCall {phase : CallPhase L} {other : Nat} {found : Call L}
    (h : (placement.setCall index call phase).calls[other]? = some found) :
    (other = index ∧ found = { call with phase := phase }) ∨
      placement.calls[other]? = some found := by
  by_cases hsame : other = index
  · refine .inl ⟨hsame,?_⟩
    rw [Placement.setCall,hsame,List.getElem?_set,if_pos rfl] at h
    split at h
    · exact (Option.some.inj h).symm
    · cases h
  · refine .inr ?_
    rwa [Placement.setCall,List.getElem?_set_ne (Ne.symm hsame)] at h

theorem Sound.proceed (h : placement.Sound) (hcall : placement.calls[index]? = some call)
    (phase : CallPhase L) (hidle : index ∉ placement.window.waits)
    (hcertified : ∀ response, Call.response? { call with phase := phase } = some response →
      placement.Certified call.request response)
    (hreturned : ∀ response projection, phase = .returned (.ok (response,some projection)) →
      placement.Promised call response projection)
    (hwaiting : ∀ response, phase ≠ .waiting response) :
    (placement.setCall index call phase).Sound := by
  refine ⟨h.toConsistent.proceed hcall phase hidle hcertified hreturned,
    fun other found response hfound hphase => ?_⟩
  rcases getElem?_setCall hfound with ⟨-,rfl⟩ | hold
  · exact absurd hphase (hwaiting response)
  · exact h.heard other found response hold hphase

theorem Sound.beginWait (h : placement.Sound) (hcall : placement.calls[index]? = some call)
    {response : RoomWorkerResponse L} {target : Nat} (hidle : index ∉ placement.window.waits)
    (hcertified : placement.Certified call.request response)
    (hawaited : awaited call.request response = .ok (some target))
    (hahead : ∀ current, placement.window.projection = some current → current.revision < target) :
    ((placement.setCall index call (.waiting response)).setWindow
      (placement.window.addWaiter target index)).Sound := by
  have hlength := (List.getElem?_eq_some_iff.mp hcall).1
  have hwaits : (placement.window.addWaiter target index).waits =
      placement.window.waits ++ [index] := by
    simp [WindowWorkerState.waits,WindowWorkerState.addWaiter]
  have hwaiting := h.toConsistent.proceed hcall (.waiting response) hidle
    (fun other hother => by cases hother; exact hcertified) (fun _ _ hphase => by cases hphase)
  have hcall' : (placement.setCall index call (.waiting response)).calls[index]? =
      some { call with phase := .waiting response } := List.getElem?_set_self hlength
  refine ⟨hwaiting.addWaiter hcall' rfl hawaited hidle hahead,
    fun other found response hfound hphase => ?_⟩
  show other ∈ (placement.window.addWaiter target index).waits
  rw [hwaits]
  rcases getElem?_setCall hfound with ⟨rfl,-⟩ | hold
  · exact List.mem_append_right _ (List.mem_singleton_self other)
  · exact List.mem_append_left _ (h.heard other found response hold hphase)

theorem Sound.handle (h : placement.Sound) (hcall : placement.calls[index]? = some call)
    (hsent : call.phase = .sent) (faults : Faults) :
    (placement.handle index call faults).Sound := by
  have hidle := h.not_mem_waits hcall (by simp [hsent]) (by simp [hsent])
  have hpost := @RoomReplicaWorkerService.handle_serves L faults placement.service call.request
  have hserved : ∀ {after : RoomReplicaWorkerService L}, placement.service.Serves after →
      (placement.served after).Sound := fun hserves =>
    ⟨h.toConsistent.served hserves,h.heard⟩
  unfold Placement.handle
  cases hrun : RoomReplicaWorkerService.handle faults call.request placement.service with
  | ok response after =>
    rw [hrun] at hpost
    have hafter := hserved hpost.1
    refine hafter.proceed hcall _ hidle (fun other hother => ?_) (fun _ _ hphase => by cases hphase)
      fun _ hphase => by cases hphase
    cases hother
    exact hafter.toRecorded.certified hpost.2
  | error error after =>
    rw [hrun] at hpost
    exact (hserved hpost).proceed hcall _ hidle (fun _ hother => by cases hother)
      (fun _ _ hphase => by cases hphase) fun _ hphase => by cases hphase

theorem Sound.goOn (h : placement.Sound) (hcall : placement.calls[index]? = some call)
    {response : RoomWorkerResponse L} (hphase : call.phase = .handled (.ok response)) :
    (placement.goOn index call response).Sound := by
  have hidle := h.not_mem_waits hcall (by simp [hphase]) (by simp [hphase])
  have hcertified : placement.Certified call.request response :=
    h.certified call (List.mem_of_getElem? hcall) response (by simp [Call.response?,hphase])
  unfold Placement.goOn
  cases hawaited : awaited call.request response with
  | error error =>
    exact h.proceed hcall _ hidle (fun _ hother => by cases hother)
      (fun _ _ hphase => by cases hphase) fun _ hphase => by cases hphase
  | ok target =>
    cases target with
    | none =>
      exact h.proceed hcall _ hidle (fun _ hother => by cases hother; exact hcertified)
        (fun _ _ hphase => by cases hphase) fun _ hphase => by cases hphase
    | some target =>
      rcases placement.window.waitForProjection_spec target index with
        ⟨current,hcurrent,hreached,hsame⟩ | ⟨hahead,hsame⟩
      · simp only [hsame]
        refine h.proceed hcall _ hidle (fun _ hother => by cases hother; exact hcertified)
          (fun _ _ hphase => ?_) fun _ hphase => by cases hphase
        cases hphase
        exact ⟨target,current.revision,hawaited,hreached,h.window current hcurrent⟩
      · simp only [hsame]
        exact h.beginWait hcall hidle hcertified hawaited hahead

theorem Sound.returns (h : placement.Sound) (hcall : placement.calls[index]? = some call)
    (hwaiting : ∀ response, call.phase ≠ .waiting response)
    (hreturned : ∀ result, call.phase ≠ .returned result) {after : WindowWorkerState L}
    (hmoves : placement.window.Moves placement.published after)
    (result : Except String (RoomWorkerResponse L × Option (RoomWorkerProjection L)))
    (hresult : ∀ response projection, result = .ok (response,projection) →
      placement.Certified call.request response ∧ projection = none) :
    ((placement.setWindow after).setCall index call (.returned result)).Sound := by
  have hafter := h.setWindow hmoves
  have hidle := hafter.not_mem_waits hcall hwaiting hreturned
  refine hafter.proceed hcall _ hidle (fun response hother => ?_)
    (fun response projection hsame => ?_) fun _ hsame => by cases hsame
  · cases result with
    | error error => cases hother
    | ok pair =>
      cases hother
      exact (hresult pair.1 pair.2 rfl).1.congr rfl rfl rfl
  · cases hsame
    exact absurd (hresult response _ rfl).2 (Option.some_ne_none projection)

theorem Sound.refuse (h : placement.Sound) (hcall : placement.calls[index]? = some call)
    (hwaiting : ∀ response, call.phase ≠ .waiting response)
    (hreturned : ∀ result, call.phase ≠ .returned result) (error : String) (fatal : Bool) :
    (placement.refuse index call error fatal).Sound :=
  h.returns hcall hwaiting hreturned (WindowWorkerState.moves_requestFailed error fatal) _
    fun _ _ hsame => by cases hsame

theorem Sound.respond (h : placement.Sound) (hcall : placement.calls[index]? = some call)
    {result : Except String (RoomWorkerResponse L)} (hphase : call.phase = .handled result)
    (failure : Option (String × Bool)) (accepted : Except String Unit) :
    (placement.respond index call result failure accepted).Sound := by
  have hwaiting : ∀ response, call.phase ≠ .waiting response := by simp [hphase]
  have hreturned : ∀ result, call.phase ≠ .returned result := by simp [hphase]
  unfold Placement.respond
  split
  · exact h.refuse hcall hwaiting hreturned _ _
  · exact h
  · rename_i projection revision
    have hcertified : placement.Certified call.request (.subscribed projection revision) :=
      h.certified call (List.mem_of_getElem? hcall) _ (by simp [Call.response?,hphase])
    split
    · rename_i window hwindow
      refine h.returns hcall hwaiting hreturned
        (WindowWorkerState.moves_acceptInitialSnapshot (fun other hother => ?_) hwindow) _
        fun response shown hsame => ?_
      · cases accepted with
        | error error => cases hother
        | ok accepted =>
          cases hother
          exact hcertified.subscribed projection revision rfl
      · cases hsame
        exact ⟨hcertified,rfl⟩
    · exact h.returns hcall hwaiting hreturned (.refl _) _ fun _ _ hsame => by cases hsame
  · exact h.goOn hcall hphase

theorem Sound.resume (h : placement.Sound) (hcall : placement.calls[index]? = some call)
    {response : RoomWorkerResponse L} (hphase : call.phase = .waiting response) :
    (placement.resume index call response).Sound := by
  have hcertified : placement.Certified call.request response :=
    h.certified call (List.mem_of_getElem? hcall) response (by simp [Call.response?,hphase])
  have hends : ∀ answer ∈ placement.window.answers, answer.1 = index →
      ∀ result : Except String (RoomWorkerResponse L × Option (RoomWorkerProjection L)),
      (∀ other projection, result = .ok (other,projection) →
        other = response ∧ ∀ shown, projection = some shown → answer.2 = .ok shown) →
      (placement.setCall index call (.returned result)).Sound := by
    intro answer hanswer hindex result hresult
    refine ⟨h.setCall hcall _ (fun other hother => ?_) (fun waiter hwaiter hsame => ?_)
      (fun _ _ _ => ⟨result,rfl⟩) (fun other projection hsame => ?_),
      fun other found response hfound hwaiting => ?_⟩
    · cases result with
      | error error => cases hother
      | ok pair =>
        cases hother
        rw [(hresult pair.1 pair.2 rfl).1]
        exact hcertified
    · -- Its wait is over, since it is answered.
      have hdisjoint := (List.nodup_append.mp h.once).2.2
      exact hdisjoint answer.1 (List.mem_map_of_mem hanswer) waiter.2 (List.mem_map_of_mem hwaiter)
        (hindex.trans hsame.symm)
    · cases hsame
      obtain ⟨rfl,hshown⟩ := hresult other _ rfl
      obtain ⟨found,hfound,hpromised⟩ := h.answered answer hanswer
      rw [hindex,hcall] at hfound
      cases hfound
      rcases hpromised with ⟨other',hother',hpromised⟩ | ⟨result,hreturned⟩
      · rw [hphase] at hother'
        cases hother'
        exact hpromised projection (hshown projection rfl)
      · rw [hphase] at hreturned
        cases hreturned
    · rcases getElem?_setCall hfound with ⟨-,rfl⟩ | hold
      · cases hwaiting
      · exact h.heard other found response hold hwaiting
  unfold Placement.resume
  split
  · exact h
  · rename_i answered projection hfind
    have hindex : answered = index := by simpa using List.find?_some hfind
    refine hends _ (List.mem_of_find?_eq_some hfind) hindex _ fun other shown hsame => ?_
    cases hsame
    exact ⟨rfl,fun shown hshown => by cases hshown; rfl⟩
  · rename_i answered error hfind
    have hindex : answered = index := by simpa using List.find?_some hfind
    exact hends _ (List.mem_of_find?_eq_some hfind) hindex _ fun _ _ hsame => by cases hsame

theorem Sound.ofCall (h : placement.Sound) (index : Nat) (input : PlacementInput L) :
    (placement.ofCall index input).Sound := by
  unfold Placement.ofCall
  cases hcall : placement.calls[index]? with
  | none => exact h
  | some call =>
    simp only
    unfold Placement.stepCall
    cases input with
    | handle _ faults =>
      simp only
      split
      · rename_i hphase
        exact h.handle hcall hphase faults
      · exact h
    | respond _ failure accepted =>
      simp only
      split
      · rename_i hphase
        exact h.respond hcall hphase _ accepted
      · rename_i error fatal hphase
        exact h.refuse hcall (by simp [hphase]) (by simp [hphase]) error fatal
      · exact h
    | resume _ =>
      simp only
      split
      · rename_i hphase
        exact h.resume hcall hphase
      · exact h
    | call | pull | receive | subscribe | becomeReady | beginClose | endClose | terminate
    | failAndTerminate => exact h

theorem Sound.appendCall (h : placement.Sound) (request : WorkerRequest L) :
    (placement.step (.call request)).Sound := by
  refine ⟨h.toConsistent.appendCall request,fun index call response hcall hphase => ?_⟩
  have hmem : call ∈ placement.calls ++ [{ request := request }] := List.mem_of_getElem? hcall
  by_cases hlength : index < placement.calls.length
  · have hold : (placement.calls ++ [{ request := request }])[index]? = some call := hcall
    rw [List.getElem?_append_left hlength] at hold
    exact h.heard index call response hold hphase
  · have hnew : (placement.calls ++ [{ request := request }])[index]? = some call := hcall
    rw [List.getElem?_append_right (Nat.le_of_not_lt hlength)] at hnew
    rw [List.mem_singleton.mp (List.mem_of_getElem? hnew)] at hphase
    cases hphase

theorem Sound.step (h : placement.Sound) (input : PlacementInput L) :
    (placement.step input).Sound := by
  cases input with
  | call request => exact h.appendCall request
  | handle call faults => exact h.ofCall call _
  | respond call failure accepted => exact h.ofCall call _
  | resume call => exact h.ofCall call _
  | pull event kind accepted =>
    simp only [Placement.step]
    split
    · rename_i subscription previous revision projection hevent
      have hmoves : placement.window.Moves placement.published (placement.window.receive
          (.projection kind (accepted.map fun _ => revision) (.ok projection))) := by
        refine WindowWorkerState.moves_receive fun kind' revision' projection' hsame => ?_
        cases accepted with
        | error error => cases hsame
        | ok accepted =>
          cases hsame
          exact h.events _ _ ⟨subscription,previous,List.mem_of_getElem? hevent⟩
      exact h.setWindow hmoves
    · exact h
  | receive event =>
    have hother : (∀ kind revision projection,
        event ≠ .projection kind (.ok revision) (.ok projection)) →
        (placement.setWindow (placement.window.receive event)).Sound := fun hne =>
      h.setWindow (WindowWorkerState.moves_receive fun kind revision projection hsame =>
        absurd hsame (hne kind revision projection))
    cases event with
    | projection kind accepted payload =>
      exact h.setWindow (WindowWorkerState.moves_receive fun _ _ _ hsame => by cases hsame)
    | outboundRecord | repairFrame | error | backpressure | closed | uncorrelated | unknown =>
      exact hother fun _ _ _ hsame => by cases hsame
  | subscribe => exact h.setWindow (.idle rfl rfl rfl)
  | becomeReady generation => exact h.setWindow (.idle rfl rfl rfl)
  | beginClose => exact h.setWindow (.idle rfl rfl rfl)
  | endClose error => exact h.setWindow (WindowWorkerState.moves_endClose error)
  | terminate => exact h.setWindow (.idle rfl rfl rfl)
  | failAndTerminate message => exact h.setWindow (WindowWorkerState.moves_fail message)

theorem run_sound (inputs : List (PlacementInput L)) (h : placement.Sound) :
    (placement.run inputs).Sound := by
  induction inputs generalizing placement with
  | nil => exact h
  | cons input rest ih => exact ih (h.step input)

/-- A method that has waited returns with a projection of a room in which what its response tells of
is there, up to the last revision. -/
theorem waited_call_sees_its_own (room : RoomDataPlane L) (session : Bool)
    (inputs : List (PlacementInput L)) {call : Call L} {response : RoomWorkerResponse L}
    {projection : RoomWorkerProjection L}
    (hcall : call ∈ ((opened room session).run inputs).calls)
    (hphase : call.phase = .returned (.ok (response,some projection))) :
    ∃ target, awaited call.request response = .ok (some target) ∧ (target < 2^64-1 →
      ∃ later ∈ ((opened room session).run inputs).rooms,
        projection = later.projection ∧ Holds later call.request response) := by
  have hsound := run_sound inputs (opened_sound room session)
  obtain ⟨target,revision,hawaited,hle,hpublished⟩ :=
    hsound.returned call hcall response projection hphase
  have hcertified := hsound.certified call hcall response (by simp [Call.response?,hphase])
  exact ⟨target,hawaited,fun hbelow =>
    hcertified.shown target hawaited hbelow revision projection hpublished hle⟩

/-- Whether the call has committed this entry under revision 1 and has waited for its projection. -/
def hasCommitted (hash : EntryHash) (call : Call plainReplica) : Bool :=
  match call.phase with
  | .returned (.ok (.commandCommitted entry revision,some _)) => entry = hash && revision = 1
  | _ => false

theorem phase_of_hasCommitted {hash : EntryHash} {call : Call plainReplica}
    (h : hasCommitted hash call = true) :
    ∃ projection, call.phase = .returned (.ok (.commandCommitted hash 1,some projection)) := by
  unfold hasCommitted at h
  split at h
  · rename_i entry revision projection hphase
    obtain ⟨rfl,rfl⟩ : entry = hash ∧ revision = 1 := by simpa using h
    exact ⟨projection,hphase⟩
  · cases h

/-- The window commits a note; the response comes before the projection. -/
def lateProjection : List (PlacementInput plainReplica) :=
  [.subscribe,.call (.subscribe 1),.handle 0 {},.respond 0 none (.ok ()),
    .call (.commit (.music,7)),.handle 1 {},.respond 1 none (.ok ()),.pull 0 .revision (.ok ()),
    .resume 1]

theorem waited_call_sees_its_own_lateProjection :
    let placement := (opened ownRoom true).run lateProjection
    ∃ call ∈ placement.calls, ∃ projection,
      call.phase = .returned (.ok (.commandCommitted 1007 1,some projection)) ∧
      ∃ later ∈ placement.rooms, projection = later.projection ∧
        Holds later call.request (.commandCommitted 1007 1) := by
  intro placement
  have hcommitted : (placement.calls[1]?).any (hasCommitted 1007) = true := by decide +kernel
  obtain ⟨call,hfound,hcall⟩ := (Option.any_eq_true _ _).mp hcommitted
  obtain ⟨projection,hphase⟩ := phase_of_hasCommitted hcall
  have hmem : call ∈ placement.calls := List.mem_of_getElem? hfound
  obtain ⟨target,hawaited,hshown⟩ := waited_call_sees_its_own _ true lateProjection hmem hphase
  have htarget : target = 1 := by
    cases hrequest : call.request <;> simp_all [awaited]
  exact ⟨call,hmem,projection,hphase,hshown (by omega)⟩

/-- No wait is lost and none is answered twice: a call that waits has its answer, or its wait is
still there, for a revision that the window does not show yet. -/
theorem waits_are_answered_once (room : RoomDataPlane L) (session : Bool)
    (inputs : List (PlacementInput L)) :
    let placement := (opened room session).run inputs
    placement.window.waits.Nodup ∧ ∀ (index : Nat) (call : Call L)
      (response : RoomWorkerResponse L), placement.calls[index]? = some call →
      call.phase = .waiting response →
        (∃ answer ∈ placement.window.answers, answer.1 = index) ∨
        ∃ target, (target,index) ∈ placement.window.projectionWaiters ∧
          awaited call.request response = .ok (some target) ∧
          ∀ current, placement.window.projection = some current → current.revision < target := by
  intro placement
  have hsound : placement.Sound := run_sound inputs (opened_sound room session)
  refine ⟨hsound.once,fun index call response hcall hphase => ?_⟩
  rcases List.mem_append.mp (hsound.heard index call response hcall hphase) with hmem | hmem
  · obtain ⟨answer,hanswer,hindex⟩ := List.mem_map.mp hmem
    exact .inl ⟨answer,hanswer,hindex⟩
  · obtain ⟨waiter,hwaiter,rfl⟩ := List.mem_map.mp hmem
    obtain ⟨found,other,hfound,hother,hawaited⟩ := hsound.waiting waiter hwaiter
    rw [hcall] at hfound
    cases hfound
    rw [hphase] at hother
    cases hother
    exact .inr ⟨waiter.1,hwaiter,hawaited,hsound.ahead waiter hwaiter⟩

end Placement

end WalkieSongie.Replica
