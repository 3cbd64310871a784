import Std.Data.ExtTreeMap
import WalkieSongie.CausalDag
import WalkieSongie.RoomValues
import WalkieSongie.TaskProgram
set_option autoImplicit false

/-!
The room worker's store of session renewal floors: one shared checkpoint beside the music
history, read, changed and written back by every persisting request.
-/

namespace WalkieSongie.Renewal
open CausalDag TaskProgram

abbrev SessionRenewalFloors := Std.ExtTreeMap ActorId Bytes

/-- The byte formats of one floor and of the checkpoint that holds them all. -/
structure RenewalCodec where
  floorFromBytes : Bytes → Except String SessionRenewalFloor
  encodeFloors : SessionRenewalFloors → Except String Bytes
  decodeFloors : Bytes → Except String SessionRenewalFloors
  decode_encode : ∀ floors bytes, encodeFloors floors = .ok bytes → decodeFloors bytes = .ok floors

structure Checkpoint where
  bytes : Bytes
  isIntact : Bool

structure StorageSnapshot (Payload : Type) where
  sequence : Nat
  historyEpoch : Nat
  history : DagSnapshot EntryHash Payload
  checkpoint : Option Checkpoint

structure RoomDataPlane (Payload : Type) where
  object : Digest
  localActor : ActorId
  music : StorageSnapshot Payload

structure StorageAnswers where
  snapshot : Except String Unit := .ok ()
  prepare : Except String Unit := .ok ()
  commit : Except String Unit := .ok ()

inductive RoomSessionRenewalStoreOperation where
  | load
  | persist (expectedFrontier : List EntryHash) (floor : Bytes)
  | migrateLegacy (floor : Bytes)

structure RoomSessionRenewalStoreRequest where
  request : Nat
  key : RoomSessionRenewalKey
  operation : RoomSessionRenewalStoreOperation

inductive RoomSessionRenewalStoreValue where
  | loaded (floor : Option Bytes)
  | persisted

structure RoomSessionRenewalStoreResponse where
  request : Nat
  result : Except String RoomSessionRenewalStoreValue

def maxSessionRenewalPeers : Nat := 64

/-- Physical storage also advances for checkpoints; only history growth is public. -/
def publicMusicRevision {Payload : Type} (snapshot : StorageSnapshot Payload) : Nat :=
  snapshot.historyEpoch

section DataPlane

variable {Payload : Type} (codec : RenewalCodec) (answers : StorageAnswers)

def validateSessionRenewalKey (plane : RoomDataPlane Payload) (key : RoomSessionRenewalKey) :
    Except String Unit :=
  if key.room ≠ plane.object then .error "session renewal key names another room"
  else if key.localActor ≠ plane.localActor then
    .error "session renewal key names another local actor"
  else if key.peer = key.localActor then
    .error "session renewal key cannot name the local actor as its peer"
  else .ok ()

def storedFloors (snapshot : StorageSnapshot Payload) : Except String SessionRenewalFloors :=
  match snapshot.checkpoint with
  | none => .ok ∅
  | some checkpoint => do
      refuseIf (checkpoint.isIntact = false) "session renewal checkpoint failed its integrity check"
      let floors ← codec.decodeFloors checkpoint.bytes
      let peers := floors.size
      refuseIf (maxSessionRenewalPeers < peers)
        s!"session renewal checkpoint has {peers} peers; maximum is {maxSessionRenewalPeers}"
      return floors

def sessionRenewalFloors (plane : RoomDataPlane Payload) : Except String SessionRenewalFloors := do
  answers.snapshot
  storedFloors codec plane.music

def loadSessionRenewalFloor (plane : RoomDataPlane Payload) (key : RoomSessionRenewalKey) :
    Except String (Option Bytes) := do
  validateSessionRenewalKey plane key
  let floors ← sessionRenewalFloors codec answers plane
  return floors[key.peer]?

/-- A floor names the frontier it is installed at, or, carried over, known history. -/
def checkFloorBase (plane : RoomDataPlane Payload) (decoded : SessionRenewalFloor) :
    Option (List EntryHash) → Except String Unit
  | some expected => refuseIf (positionBytes decoded.base ≠ expected)
      "session renewal floor and install frontier differ"
  | none => refuseIf (∃ entry ∈ decoded.base, entry ∉ plane.music.history.hashes)
      "legacy session renewal floor names unavailable music history"

def checkPreparedFrontier (plane : RoomDataPlane Payload) :
    Option (List EntryHash) → Except String Unit
  | some expected => refuseIf (positionBytes plane.music.history.frontier ≠ expected)
      "session renewal install no longer names the prepared transaction frontier"
  | none => .ok ()

def decodeFloor (floor : Bytes) : Except String SessionRenewalFloor :=
  match codec.floorFromBytes floor with
  | .error error => .error s!"invalid session renewal floor: {error}"
  | .ok decoded => .ok decoded

/-- Everything `persistSessionRenewalFloor` checks and computes before it commits. -/
def prepareSessionRenewalFloor (plane : RoomDataPlane Payload) (key : RoomSessionRenewalKey)
    (floor : Bytes) (expectedFrontier : Option (List EntryHash)) : Except String Bytes := do
  validateSessionRenewalKey plane key
  let decoded ← decodeFloor codec floor
  answers.snapshot
  checkFloorBase plane decoded expectedFrontier
  let floors ← sessionRenewalFloors codec answers plane
  refuseIf (key.peer ∉ floors ∧ maxSessionRenewalPeers ≤ floors.size)
    s!"session renewal checkpoint already has {maxSessionRenewalPeers} peers"
  let bytes ← codec.encodeFloors (floors.insert key.peer floor)
  answers.prepare
  checkPreparedFrontier plane expectedFrontier
  return bytes

abbrev PlaneM (Payload : Type) := EStateM String (RoomDataPlane Payload)

/-- A local transaction that saves the checkpoint and leaves the history alone. -/
def saveCheckpoint (bytes : Bytes) (plane : RoomDataPlane Payload) : RoomDataPlane Payload :=
  { plane with music := { plane.music with
      sequence := plane.music.sequence+1
      checkpoint := some ⟨bytes,true⟩ } }

def persistSessionRenewalFloor (key : RoomSessionRenewalKey) (floor : Bytes)
    (expectedFrontier : Option (List EntryHash)) : PlaneM Payload Unit := fun plane =>
  match prepareSessionRenewalFloor codec answers plane key floor expectedFrontier with
  | .error error => .error error plane
  | .ok bytes => match answers.commit with
    | .error error => .error error plane
    | .ok () => .ok () (saveCheckpoint bytes plane)

def handleSessionRenewalStore (request : RoomSessionRenewalStoreRequest) :
    PlaneM Payload RoomSessionRenewalStoreValue :=
  match request.operation with
  | .load => fun plane => match loadSessionRenewalFloor codec answers plane request.key with
    | .error error => .error error plane
    | .ok floor => .ok (.loaded floor) plane
  | .persist expectedFrontier floor => do
      persistSessionRenewalFloor codec answers request.key floor (some expectedFrontier)
      return .persisted
  | .migrateLegacy floor => do
      persistSessionRenewalFloor codec answers request.key floor none
      return .persisted

/-- One worker command: the response it sends and the room it leaves. -/
def handleCommand (plane : RoomDataPlane Payload) (request : RoomSessionRenewalStoreRequest) :
    RoomSessionRenewalStoreResponse × RoomDataPlane Payload :=
  match handleSessionRenewalStore codec answers request plane with
  | .error error plane => (⟨request.request,.error error⟩,plane)
  | .ok value plane => (⟨request.request,.ok value⟩,plane)

end DataPlane

section Floors

variable {Payload : Type} {codec : RenewalCodec} {answers : StorageAnswers}
  {plane after : RoomDataPlane Payload} {key : RoomSessionRenewalKey}

theorem storedFloors_size {snapshot : StorageSnapshot Payload} {floors : SessionRenewalFloors}
    (h : storedFloors codec snapshot = .ok floors) : floors.size ≤ maxSessionRenewalPeers := by
  unfold storedFloors at h
  split at h
  · cases h
    simp
  · obtain ⟨-,-,h⟩ := bind_eq_ok.mp h
    obtain ⟨found,-,h⟩ := bind_eq_ok.mp h
    obtain ⟨_,hsize,h⟩ := bind_eq_ok.mp h
    cases h
    exact Nat.le_of_not_lt (refuseIf_eq_ok.mp hsize)

theorem storedFloors_saveCheckpoint {floors : SessionRenewalFloors} {bytes : Bytes}
    (hencode : codec.encodeFloors floors = .ok bytes)
    (hsize : floors.size ≤ maxSessionRenewalPeers) :
    storedFloors codec (saveCheckpoint bytes plane).music = .ok floors := by
  simp only [storedFloors,saveCheckpoint]
  refine bind_eq_ok.mpr ⟨(),refuseIf_eq_ok.mpr (by simp),?_⟩
  refine bind_eq_ok.mpr ⟨floors,codec.decode_encode floors bytes hencode,?_⟩
  exact bind_eq_ok.mpr ⟨(),refuseIf_eq_ok.mpr (Nat.not_lt.mpr hsize),rfl⟩

/-- What a prepared checkpoint holds: the stored floors with the new one in its peer's place. -/
theorem prepareSessionRenewalFloor_ok {floor bytes : Bytes}
    {expectedFrontier : Option (List EntryHash)}
    (h : prepareSessionRenewalFloor codec answers plane key floor expectedFrontier = .ok bytes) :
    ∃ decoded floors, codec.floorFromBytes floor = .ok decoded ∧
      storedFloors codec plane.music = .ok floors ∧
      storedFloors codec (saveCheckpoint bytes plane).music =
        .ok (floors.insert key.peer floor) := by
  obtain ⟨-,-,h⟩ := bind_eq_ok.mp h
  obtain ⟨decoded,hdecode,h⟩ := bind_eq_ok.mp h
  obtain ⟨-,-,h⟩ := bind_eq_ok.mp h
  obtain ⟨-,-,h⟩ := bind_eq_ok.mp h
  obtain ⟨floors,hfloors,h⟩ := bind_eq_ok.mp h
  obtain ⟨_,hroom,h⟩ := bind_eq_ok.mp h
  obtain ⟨encoded,hencode,h⟩ := bind_eq_ok.mp h
  obtain ⟨-,-,h⟩ := bind_eq_ok.mp h
  obtain ⟨-,-,h⟩ := bind_eq_ok.mp h
  cases h
  obtain ⟨-,-,hfloors⟩ := bind_eq_ok.mp hfloors
  have hdecoded : codec.floorFromBytes floor = .ok decoded := by
    unfold decodeFloor at hdecode
    split at hdecode
    · cases hdecode
    · rename_i found hfound
      cases hdecode
      exact hfound
  have hold := storedFloors_size hfloors
  have hnew : (floors.insert key.peer floor).size ≤ maxSessionRenewalPeers := by
    rw [Std.ExtTreeMap.size_insert]
    split
    · exact hold
    · rename_i habsent
      have := refuseIf_eq_ok.mp hroom
      push Not at this
      exact this habsent
  exact ⟨decoded,floors,hdecoded,hfloors,storedFloors_saveCheckpoint hencode hnew⟩

def RoomSessionRenewalStoreOperation.floor? : RoomSessionRenewalStoreOperation → Option Bytes
  | .load => none
  | .persist _ floor | .migrateLegacy floor => some floor

def storedFloor (codec : RenewalCodec) (plane : RoomDataPlane Payload) (peer : ActorId) :
    Option Bytes :=
  match storedFloors codec plane.music with
  | .error _ => none
  | .ok floors => floors[peer]?

def storedEpoch (codec : RenewalCodec) (plane : RoomDataPlane Payload) (peer : ActorId) :
    Option Nat :=
  (storedFloor codec plane peer).bind fun floor => match codec.floorFromBytes floor with
    | .error _ => none
    | .ok decoded => some decoded.epoch

/-- The checkpoint `bytes` holds the stored floors with `floor` in the peer's place. -/
def HoldsFloor (codec : RenewalCodec) (plane : RoomDataPlane Payload) (peer : ActorId)
    (floor bytes : Bytes) : Prop :=
  ∃ decoded floors, codec.floorFromBytes floor = .ok decoded ∧
    storedFloors codec plane.music = .ok floors ∧
    storedFloors codec (saveCheckpoint bytes plane).music = .ok (floors.insert peer floor)

/-- A request keeps the room as it is, or stores its floor in its peer's place. -/
def KeepsOrStores (codec : RenewalCodec) (answers : StorageAnswers) (plane : RoomDataPlane Payload)
    (request : RoomSessionRenewalStoreRequest) : Prop :=
  ((handleCommand codec answers plane request).2 = plane ∧
    ∀ value, (handleCommand codec answers plane request).1.result = .ok value →
      request.operation.floor? = none) ∨
  ∃ floor bytes, request.operation.floor? = some floor ∧
    handleCommand codec answers plane request =
      (⟨request.request,.ok .persisted⟩,saveCheckpoint bytes plane) ∧
    HoldsFloor codec plane request.key.peer floor bytes

theorem persistSessionRenewalFloor_cases (codec : RenewalCodec) (answers : StorageAnswers)
    (plane : RoomDataPlane Payload) (key : RoomSessionRenewalKey) (floor : Bytes)
    (expectedFrontier : Option (List EntryHash)) :
    (∃ error, persistSessionRenewalFloor codec answers key floor expectedFrontier plane =
      .error error plane) ∨
    ∃ bytes, persistSessionRenewalFloor codec answers key floor expectedFrontier plane =
        .ok () (saveCheckpoint bytes plane) ∧ HoldsFloor codec plane key.peer floor bytes := by
  unfold persistSessionRenewalFloor
  cases hprepare : prepareSessionRenewalFloor codec answers plane key floor expectedFrontier with
  | error error => exact .inl ⟨error,rfl⟩
  | ok bytes =>
    cases hcommit : answers.commit with
    | error error => exact .inl ⟨error,by simp only⟩
    | ok _ => exact .inr ⟨bytes,by simp only,prepareSessionRenewalFloor_ok hprepare⟩

theorem keepsOrStores_of_persists {request : RoomSessionRenewalStoreRequest} {floor : Bytes}
    (expectedFrontier : Option (List EntryHash)) (hfloor : request.operation.floor? = some floor)
    (hhandle : handleSessionRenewalStore codec answers request = (do
      persistSessionRenewalFloor codec answers request.key floor expectedFrontier
      return .persisted : PlaneM Payload _)) :
    KeepsOrStores codec answers plane request := by
  rcases persistSessionRenewalFloor_cases codec answers plane request.key floor
    expectedFrontier with ⟨error,herror⟩ | ⟨bytes,hbytes,hholds⟩
  · refine .inl ?_
    simp [handleCommand,hhandle,bind,EStateM.bind,herror]
  · refine .inr ⟨floor,bytes,hfloor,?_,hholds⟩
    simp [handleCommand,hhandle,bind,EStateM.bind,hbytes,pure,EStateM.pure]

theorem handleCommand_keepsOrStores (codec : RenewalCodec) (answers : StorageAnswers)
    (plane : RoomDataPlane Payload) (request : RoomSessionRenewalStoreRequest) :
    KeepsOrStores codec answers plane request := by
  obtain ⟨id,key,operation⟩ := request
  cases operation with
  | load =>
    refine .inl ⟨?_,fun _ _ => rfl⟩
    simp only [handleCommand,handleSessionRenewalStore]
    cases loadSessionRenewalFloor codec answers plane key <;> rfl
  | persist expectedFrontier floor =>
    exact keepsOrStores_of_persists (some expectedFrontier) rfl rfl
  | migrateLegacy floor => exact keepsOrStores_of_persists none rfl rfl

theorem storedFloor_saveCheckpoint {peer other : ActorId} {floor bytes : Bytes}
    (h : HoldsFloor codec plane peer floor bytes) :
    storedFloor codec (saveCheckpoint bytes plane) other =
      if other = peer then some floor else storedFloor codec plane other := by
  obtain ⟨decoded,floors,-,hbefore,hafter⟩ := h
  simp only [storedFloor,hbefore,hafter,Std.ExtTreeMap.getElem?_insert,
    Std.LawfulEqCmp.compare_eq_iff_eq,eq_comm (a := peer)]

theorem storedEpoch_saveCheckpoint {peer other : ActorId} {floor bytes : Bytes}
    {decoded : SessionRenewalFloor} (h : HoldsFloor codec plane peer floor bytes)
    (hdecoded : codec.floorFromBytes floor = .ok decoded) :
    storedEpoch codec (saveCheckpoint bytes plane) other =
      if other = peer then some decoded.epoch else storedEpoch codec plane other := by
  unfold storedEpoch
  rw [storedFloor_saveCheckpoint h]
  split
  · simp only [Option.bind_some,hdecoded]
  · rfl

/-- A request that stores a floor stores one whose epoch is not below the peer's stored one. -/
def ForwardRequest (codec : RenewalCodec) (plane : RoomDataPlane Payload)
    (request : RoomSessionRenewalStoreRequest) : Prop :=
  ∀ floor decoded epoch, request.operation.floor? = some floor →
    codec.floorFromBytes floor = .ok decoded →
    storedEpoch codec plane request.key.peer = some epoch → epoch ≤ decoded.epoch

/-- The room after a sequence of requests, each with the storage's answers to it. -/
def runCommands (codec : RenewalCodec) (plane : RoomDataPlane Payload)
    (run : List (StorageAnswers × RoomSessionRenewalStoreRequest)) : RoomDataPlane Payload :=
  run.foldl (fun plane (answers,request) => (handleCommand codec answers plane request).2) plane

def ForwardRun (codec : RenewalCodec) :
    RoomDataPlane Payload → List (StorageAnswers × RoomSessionRenewalStoreRequest) → Prop
  | _, [] => True
  | plane, (answers,request) :: rest => ForwardRequest codec plane request ∧
      ForwardRun codec (handleCommand codec answers plane request).2 rest

/-- No peer's stored epoch is lower, or gone, in the second room. -/
def FloorsRise (codec : RenewalCodec) (before after : RoomDataPlane Payload) : Prop :=
  ∀ peer epoch, storedEpoch codec before peer = some epoch →
    ∃ later, storedEpoch codec after peer = some later ∧ epoch ≤ later

theorem FloorsRise.refl (plane : RoomDataPlane Payload) : FloorsRise codec plane plane :=
  fun _ epoch h => ⟨epoch,h,le_rfl⟩

theorem FloorsRise.trans {first second third : RoomDataPlane Payload}
    (h : FloorsRise codec first second) (hnext : FloorsRise codec second third) :
    FloorsRise codec first third := by
  intro peer epoch hepoch
  obtain ⟨middle,hmiddle,hle⟩ := h peer epoch hepoch
  obtain ⟨last,hlast,hle'⟩ := hnext peer middle hmiddle
  exact ⟨last,hlast,hle.trans hle'⟩

theorem handleCommand_floorsRise (answers : StorageAnswers)
    {request : RoomSessionRenewalStoreRequest}
    (h : ForwardRequest codec plane request) :
    FloorsRise codec plane (handleCommand codec answers plane request).2 := by
  rcases handleCommand_keepsOrStores codec answers plane request with
    ⟨hkeeps,-⟩ | ⟨floor,bytes,hfloor,hstores,hholds⟩
  · rw [hkeeps]
    exact .refl plane
  · intro peer epoch hepoch
    obtain ⟨decoded,-,hdecoded,-⟩ := id hholds
    rw [hstores,storedEpoch_saveCheckpoint hholds hdecoded]
    split
    · rename_i hpeer
      subst hpeer
      exact ⟨decoded.epoch,rfl,h floor decoded epoch hfloor hdecoded hepoch⟩
    · exact ⟨epoch,hepoch,le_rfl⟩

theorem runCommands_floorsRise
    {run : List (StorageAnswers × RoomSessionRenewalStoreRequest)}
    (h : ForwardRun codec plane run) : FloorsRise codec plane (runCommands codec plane run) := by
  induction run generalizing plane with
  | nil => exact .refl plane
  | cons command rest ih => exact (handleCommand_floorsRise command.1 h.1).trans (ih h.2)

theorem runCommands_append (early late : List (StorageAnswers × RoomSessionRenewalStoreRequest)) :
    runCommands codec plane (early ++ late) =
      runCommands codec (runCommands codec plane early) late :=
  List.foldl_append

theorem ForwardRun.append {early late : List (StorageAnswers × RoomSessionRenewalStoreRequest)}
    (h : ForwardRun codec plane (early ++ late)) :
    ForwardRun codec (runCommands codec plane early) late := by
  induction early generalizing plane with
  | nil => exact h
  | cons command rest ih => exact ih h.2

/-- Floors rise over every run whose stored floors never step back, and a request that is
accepted steps back exactly when its own floor does. An accepted request touches its own
peer's floor only and a refused one nothing. -/
theorem renewal_floors_rise_when_forward (codec : RenewalCodec) :
    (∀ (plane : RoomDataPlane Payload) run, ForwardRun codec plane run →
      ∀ early late, run = early ++ late →
        FloorsRise codec (runCommands codec plane early) (runCommands codec plane run)) ∧
    ∀ answers (plane : RoomDataPlane Payload) request,
      (∀ error, (handleCommand codec answers plane request).1.result = .error error →
        (handleCommand codec answers plane request).2 = plane) ∧
      ∀ value, (handleCommand codec answers plane request).1.result = .ok value →
        (FloorsRise codec plane (handleCommand codec answers plane request).2 ↔
          ForwardRequest codec plane request) ∧
        publicMusicRevision (handleCommand codec answers plane request).2.music =
          publicMusicRevision plane.music ∧
        (handleCommand codec answers plane request).2.music.history = plane.music.history ∧
        ∀ peer, peer ≠ request.key.peer →
          storedFloor codec (handleCommand codec answers plane request).2 peer =
            storedFloor codec plane peer := by
  refine ⟨?_,fun answers plane request => ?_⟩
  · rintro plane run hrun early late rfl
    rw [runCommands_append]
    exact runCommands_floorsRise hrun.append
  · have hforward := fun h : ForwardRequest codec plane request =>
      handleCommand_floorsRise answers h
    rcases handleCommand_keepsOrStores codec answers plane request with
      ⟨hkeeps,hloads⟩ | ⟨floor,bytes,hfloor,hstores,hholds⟩
    · refine ⟨fun _ _ => hkeeps,fun value hvalue => ⟨⟨fun _ => ?_,hforward⟩,?_,?_,?_⟩⟩
      · intro floor decoded epoch hfloor
        rw [hloads value hvalue] at hfloor
        cases hfloor
      · rw [hkeeps]
      · rw [hkeeps]
      · intro peer _
        rw [hkeeps]
    · rw [hstores] at hforward ⊢
      refine ⟨fun _ herror => ?_,fun value _ => ⟨⟨fun hrise => ?_,hforward⟩,rfl,rfl,?_⟩⟩
      · cases herror
      · intro stored decoded epoch hstored hdecoded hepoch
        obtain rfl := Option.some.inj (hfloor.symm.trans hstored)
        obtain ⟨later,hlater,hle⟩ := hrise request.key.peer epoch hepoch
        rw [storedEpoch_saveCheckpoint hholds hdecoded,if_pos rfl] at hlater
        exact hle.trans_eq (Option.some.inj hlater).symm
      · intro peer hpeer
        rw [storedFloor_saveCheckpoint hholds,if_neg hpeer]

end Floors

section LoweredFloor

/-- A one-peer format: the peer's number, then the floor's single byte, its epoch. -/
def onePeerCodec : RenewalCodec where
  floorFromBytes
    | [epoch] => .ok ⟨epoch.toNat,0,∅⟩
    | _ => .error "floor length"
  encodeFloors floors := match floors.toList with
    | [(peer,floor)] =>
        if peer < 256 then .ok (UInt8.ofNat peer :: floor) else .error "peer"
    | _ => .error "peers"
  decodeFloors
    | [] => .error "empty"
    | peer :: floor => .ok (Std.ExtTreeMap.empty.insert peer.toNat floor)
  decode_encode floors bytes h := by
    split at h
    · rename_i peer floor hlist
      split at h
      · rename_i hpeer
        cases h
        have hbyte : (UInt8.ofNat peer).toNat = peer := Nat.mod_eq_of_lt hpeer
        simp only [hbyte,Except.ok.injEq]
        exact Std.ExtTreeMap.toList_inj.mp (hlist ▸ rfl)
      · cases h
    · cases h

def emptyHistory : DagSnapshot EntryHash Unit := ⟨[],trivial⟩

/-- Actor 1 of room 9 has persisted epoch 5 for peer 2. -/
def persistedFive : RoomDataPlane Unit := ⟨9,1,⟨1,0,emptyHistory,some ⟨[2,5],true⟩⟩⟩

def migrate (epoch : UInt8) : RoomSessionRenewalStoreRequest := ⟨1,⟨9,1,2⟩,.migrateLegacy [epoch]⟩

theorem renewal_floors_rise_when_forward_persistedFive :
    FloorsRise onePeerCodec persistedFive
      (runCommands onePeerCodec persistedFive [({},migrate 7)]) := by
  refine (renewal_floors_rise_when_forward onePeerCodec).1 persistedFive [({},migrate 7)] ?_ []
    [({},migrate 7)] rfl
  refine ⟨?_,trivial⟩
  intro floor decoded epoch hfloor hdecoded hepoch
  obtain rfl : [7] = floor := Option.some.inj hfloor
  obtain rfl : (⟨7,0,∅⟩ : SessionRenewalFloor) = decoded := Except.ok.inj hdecoded
  obtain rfl : 5 = epoch := Option.some.inj hepoch
  decide

theorem accepted_request_lowers_floor :
    (handleCommand onePeerCodec {} persistedFive (migrate 3)).1.result.toOption.isSome = true ∧
      storedEpoch onePeerCodec persistedFive 2 = some 5 ∧
      storedEpoch onePeerCodec (handleCommand onePeerCodec {} persistedFive (migrate 3)).2 2 =
        some 3 :=
  ⟨by decide,by decide,by decide⟩

end LoweredFloor

end WalkieSongie.Renewal
