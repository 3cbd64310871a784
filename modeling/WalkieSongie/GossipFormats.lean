import WalkieSongie.ByteFormat
import WalkieSongie.ReplicaWorker
set_option autoImplicit false

/-!
The byte formats of a room's gossip topic: repair hints, repair probes, live records and signed
realtime frames, which one receiver tries in sequence.
-/

namespace WalkieSongie

namespace Replica

def RoomLane.tag : RoomLane → UInt8
  | .music => 1
  | .extension => 2

end Replica

namespace Gossip
open ByteFormat TaskProgram
open Replica (RoomLane)

abbrev PeerId := FixedBytes 32

def roomProtocolGeneration : Nat := 5
def repairHintDomain : List UInt8 := ascii "walkie replica repair hint v5\x00"
def repairHintBytes : Nat := repairHintDomain.length+4+1+32+32
def repairProbeDomain : List UInt8 := ascii "walkie replica repair probe v5\x00"
def repairProbeBytes : Nat := repairProbeDomain.length+4+1+32+32
def liveRecordDomain : List UInt8 := ascii "walkie replica live record v5\x00"
def liveRecordHeaderBytes : Nat := liveRecordDomain.length+4+1+32

/-- What the formats take from the crates whose values they carry. -/
structure WireLibrary where
  ReplicaRecord : Type
  encodeRecord : ReplicaRecord → List UInt8
  decodeRecord : List UInt8 → Option ReplicaRecord
  Frame : Type
  encodeFrame : Frame → Option (List UInt8)
  decodeFrame : List UInt8 → Option Frame
  SigningKey : Type
  VerifyingKey : Type
  verifyingKey : SigningKey → VerifyingKey
  keyBytes : VerifyingKey → FixedBytes 32
  keyFromBytes : FixedBytes 32 → Option VerifyingKey
  sign : SigningKey → List UInt8 → FixedBytes 64
  verify : VerifyingKey → List UInt8 → FixedBytes 64 → Bool

variable {W : WireLibrary} {α : Type} {bytes : List UInt8}

structure ReplicaRepairHint where
  lane : RoomLane
  source : PeerId
  entry : FixedBytes 32

abbrev ReplicaRepairProbe := Replica.RepairProbe PeerId (FixedBytes 32)

structure ReplicaLiveRecord (W : WireLibrary) where
  lane : RoomLane
  source : PeerId
  record : W.ReplicaRecord

section Header

/-- What a hint, a probe and a live record start with. -/
structure RecordHeader where
  lane : RoomLane
  source : PeerId

def RecordHeader.encode (domain : List UInt8) (header : RecordHeader) : List UInt8 :=
  domain ++ leBytes 4 roomProtocolGeneration ++ [header.lane.tag] ++ header.source.bytes

def laneOfTag (tag : UInt8) : Reading Unit RoomLane :=
  if tag = RoomLane.music.tag then pure .music
  else if tag = RoomLane.extension.tag then pure .extension
  else throw (.refused ())

/-- The fields behind the domain, each at its cursor. -/
def readHeader (domain bytes : List UInt8) : Reading Unit RecordHeader := do
  let cursor := domain.length
  let generation ← slice cursor (cursor+4) bytes >>= toArray 4 ()
  let cursor := cursor+4
  refuse (generation.toNat ≠ roomProtocolGeneration) ()
  let lane ← byteAt cursor bytes >>= laneOfTag
  let cursor := cursor+1
  let source ← slice cursor (cursor+32) bytes >>= toArray 32 ()
  return { lane, source }

/-- What reading the header comes to once its fields are cut out. -/
def headerOf (generation : FixedBytes 4) (tag : UInt8) (source : PeerId) :
    Reading Unit RecordHeader := do
  refuse (generation.toNat ≠ roomProtocolGeneration) ()
  let lane ← laneOfTag tag
  return { lane, source }

variable {domain : List UInt8}

theorem laneOfTag_eq_ok {tag : UInt8} {lane : RoomLane} :
    laneOfTag tag = .ok lane ↔ tag = lane.tag := by
  by_cases hmusic : tag = RoomLane.music.tag
  · subst hmusic
    cases lane <;> simp [laneOfTag,RoomLane.tag,pure,Except.pure]
  · by_cases hextension : tag = RoomLane.extension.tag
    · subst hextension
      cases lane <;> simp [laneOfTag,RoomLane.tag,pure,Except.pure]
    · cases lane <;> simp [laneOfTag,hmusic,hextension,throw,throwThe,MonadExceptOf.throw]

theorem headerOf_eq_ok (domain : List UInt8) {generation : FixedBytes 4} {tag : UInt8}
    {source : PeerId}
    {header : RecordHeader} : headerOf generation tag source = .ok header ↔
      header.encode domain = domain ++ (generation.bytes ++ (tag :: source.bytes)) := by
  have hgeneration :=
    FixedBytes.toNat_eq_iff (by decide : roomProtocolGeneration < 256^4) generation
  simp only [headerOf,bind_eq_ok,refuse_eq_ok,not_not,laneOfTag_eq_ok,exists_const,pure,Except.pure,
    Except.ok.injEq,RecordHeader.encode,List.append_assoc,List.append_cancel_left_eq,
    List.singleton_append]
  constructor
  · rintro ⟨hnumber,lane,rfl,rfl⟩
    rw [hgeneration.mp hnumber]
  · intro h
    have hwidth : (leBytes 4 roomProtocolGeneration).length = generation.bytes.length := by simp
    obtain ⟨hbytes,hrest⟩ := List.append_inj h hwidth
    simp only [List.cons.injEq] at hrest
    have hsource := FixedBytes.ext hrest.2
    exact ⟨hgeneration.mpr hbytes.symm,header.lane,hrest.1.symm,by rw [← hsource]⟩

theorem headerOf_encode (lane : RoomLane) (source : PeerId) :
    headerOf (.ofNat 4 roomProtocolGeneration) lane.tag source = .ok { lane, source } :=
  (headerOf_eq_ok []).mpr (by simp [RecordHeader.encode,FixedBytes.ofNat])

theorem inBounds_laneOfTag (tag : UInt8) : InBounds (laneOfTag tag) := by
  unfold laneOfTag
  split
  · exact inBounds_pure _
  · split
    · exact inBounds_pure _
    · exact inBounds_throw ()

theorem inBounds_headerOf (generation : FixedBytes 4) (tag : UInt8) (source : PeerId) :
    InBounds (headerOf generation tag source) := by
  refine .bind (inBounds_refuse ()) fun _ => ?_
  exact .bind (inBounds_laneOfTag tag) fun lane => inBounds_pure _

theorem exists_fields (hdomain : domain <+: bytes) (hbytes : domain.length+37 ≤ bytes.length) :
    ∃ (generation : FixedBytes 4) (tag : UInt8) (source : PeerId) (rest : List UInt8),
      bytes = domain ++ (generation.bytes ++ (tag :: (source.bytes ++ rest))) := by
  obtain ⟨behind,rfl⟩ := hdomain
  simp only [List.length_append] at hbytes
  obtain ⟨generation,tagged,rfl⟩ := exists_field (by omega : 4 ≤ behind.length)
  simp only [List.length_append,FixedBytes.length_eq] at hbytes
  cases tagged with
  | nil => simp at hbytes
  | cons tag sourced =>
    simp only [List.length_cons] at hbytes
    obtain ⟨source,rest,rfl⟩ := exists_field (by omega : 32 ≤ sourced.length)
    exact ⟨generation,tag,source,rest,rfl⟩

theorem readHeader_fields (generation : FixedBytes 4) (tag : UInt8) (source : PeerId)
    (rest : List UInt8) :
    readHeader domain (domain ++ (generation.bytes ++ (tag :: (source.bytes ++ rest)))) =
      headerOf generation tag source := by
  have hgeneration : slice (ε := Unit) domain.length (domain.length+4)
      (domain ++ (generation.bytes ++ (tag :: (source.bytes ++ rest)))) = .ok generation.bytes :=
    slice_field rfl rfl (by simp)
  have htag : byteAt (ε := Unit) (domain.length+4)
      (domain ++ (generation.bytes ++ (tag :: (source.bytes ++ rest)))) = .ok tag :=
    byteAt_field (List.append_assoc _ _ _).symm (by simp)
  have hsource : slice (ε := Unit) (domain.length+4+1) (domain.length+4+1+32)
      (domain ++ (generation.bytes ++ (tag :: (source.bytes ++ rest)))) = .ok source.bytes := by
    have hbefore : domain ++ (generation.bytes ++ (tag :: (source.bytes ++ rest))) =
        (domain ++ (generation.bytes ++ [tag])) ++ (source.bytes ++ rest) := by simp
    exact slice_field hbefore (by simp) (by simp)
  simp only [readHeader,headerOf,hgeneration,htag,hsource,bind,Except.bind,toArray_bytes]

theorem inBounds_readHeader (hdomain : domain <+: bytes)
    (hbytes : domain.length+37 ≤ bytes.length) : InBounds (readHeader domain bytes) := by
  obtain ⟨generation,tag,source,rest,rfl⟩ := exists_fields hdomain hbytes
  rw [readHeader_fields]
  exact inBounds_headerOf generation tag source

end Header

section Digest

/-- A hint and a probe are a header and the digest they announce. -/
def encodeDigest (domain : List UInt8) (lane : RoomLane) (source : PeerId)
    (digest : FixedBytes 32) : List UInt8 :=
  RecordHeader.encode domain { lane, source } ++ digest.bytes

def decodeDigest (domain : List UInt8) (size : Nat) (build : RoomLane → PeerId → FixedBytes 32 → α)
    (bytes : List UInt8) : Reading Unit α := do
  refuse (bytes.length ≠ size ∨ ¬ domain <+: bytes) ()
  let header ← readHeader domain bytes
  let cursor := domain.length+4+1+32
  let digest ← slice cursor (cursor+32) bytes >>= toArray 32 ()
  return build header.lane header.source digest

def ReplicaRepairHint.encode (hint : ReplicaRepairHint) : List UInt8 :=
  encodeDigest repairHintDomain hint.lane hint.source hint.entry

def ReplicaRepairHint.decode : List UInt8 → Reading Unit ReplicaRepairHint :=
  decodeDigest repairHintDomain repairHintBytes ReplicaRepairHint.mk

def ReplicaRepairProbe.encode (probe : ReplicaRepairProbe) : List UInt8 :=
  encodeDigest repairProbeDomain probe.lane probe.source probe.frontier

def ReplicaRepairProbe.decode : List UInt8 → Reading Unit ReplicaRepairProbe :=
  decodeDigest repairProbeDomain repairProbeBytes Replica.RepairProbe.mk

variable {domain : List UInt8} {build : RoomLane → PeerId → FixedBytes 32 → α}

theorem slice_digest (generation : FixedBytes 4) (tag : UInt8) (source : PeerId)
    (digest : FixedBytes 32) :
    slice (ε := Unit) (domain.length+4+1+32) (domain.length+4+1+32+32)
      (domain ++ (generation.bytes ++ (tag :: (source.bytes ++ digest.bytes)))) =
        .ok digest.bytes := by
  have hbefore : domain ++ (generation.bytes ++ (tag :: (source.bytes ++ digest.bytes))) =
      (domain ++ (generation.bytes ++ (tag :: source.bytes))) ++ (digest.bytes ++ []) := by simp
  have hstart : (domain ++ (generation.bytes ++ (tag :: source.bytes))).length =
      domain.length+4+1+32 := by
        simp only [List.length_append,List.length_cons,FixedBytes.length_eq]
  exact slice_field hbefore hstart (by simp)

theorem exists_digest (hdomain : domain <+: bytes)
    (hbytes : bytes.length = domain.length+4+1+32+32) :
    ∃ (generation : FixedBytes 4) (tag : UInt8) (source : PeerId) (digest : FixedBytes 32),
      bytes = domain ++ (generation.bytes ++ (tag :: (source.bytes ++ digest.bytes))) := by
  obtain ⟨generation,tag,source,rest,rfl⟩ := exists_fields hdomain (by omega)
  simp only [List.length_append,List.length_cons,FixedBytes.length_eq] at hbytes
  exact ⟨generation,tag,source,⟨rest,by omega⟩,rfl⟩

theorem decodeDigest_fields (generation : FixedBytes 4) (tag : UInt8) (source : PeerId)
    (digest : FixedBytes 32) :
    decodeDigest domain (domain.length+4+1+32+32) build
      (domain ++ (generation.bytes ++ (tag :: (source.bytes ++ digest.bytes)))) =
        (headerOf generation tag source).map fun header =>
          build header.lane header.source digest := by
  have hsize : (domain ++ (generation.bytes ++ (tag :: (source.bytes ++ digest.bytes)))).length =
      domain.length+4+1+32+32 := by
    simp only [List.length_append,List.length_cons,FixedBytes.length_eq]
  simp only [decodeDigest,refuse,hsize,ne_eq,not_true_eq_false,List.prefix_append,or_self,
    if_false,readHeader_fields,slice_digest]
  cases headerOf generation tag source <;> simp [bind,Except.bind,pure,Except.pure,Except.map]

theorem decodeDigest_eq_ok {value : α} :
    decodeDigest domain (domain.length+4+1+32+32) build bytes = .ok value ↔
      ∃ lane source digest, build lane source digest = value ∧
        encodeDigest domain lane source digest = bytes := by
  constructor
  · intro h
    have hguard : bytes.length = domain.length+4+1+32+32 ∧ domain <+: bytes := by
      simp only [decodeDigest,bind_eq_ok,refuse_eq_ok,not_or,not_not] at h
      obtain ⟨_,hguard,_⟩ := h
      exact hguard
    obtain ⟨generation,tag,source,digest,rfl⟩ := exists_digest hguard.2 hguard.1
    rw [decodeDigest_fields] at h
    cases hheader : headerOf generation tag source with
    | error stop => rw [hheader] at h; cases h
    | ok header =>
      rw [hheader] at h
      simp only [Except.map,Except.ok.injEq] at h
      have hencoded := (headerOf_eq_ok domain).mp hheader
      exact ⟨header.lane,header.source,digest,h,by simp [encodeDigest,hencoded]⟩
  · rintro ⟨lane,source,digest,rfl,rfl⟩
    have hencoded : encodeDigest domain lane source digest = domain ++
        ((FixedBytes.ofNat 4 roomProtocolGeneration).bytes ++
          (lane.tag :: (source.bytes ++ digest.bytes))) := by
      simp [encodeDigest,RecordHeader.encode,FixedBytes.ofNat]
    rw [hencoded,decodeDigest_fields,headerOf_encode]
    rfl

theorem inBounds_decodeDigest :
    InBounds (decodeDigest domain (domain.length+4+1+32+32) build bytes) := by
  refine inBounds_guarded fun hguard => ?_
  simp only [not_or,not_not] at hguard
  refine .bind (inBounds_readHeader hguard.2 (by omega)) fun header => ?_
  refine .bind (.bind (inBounds_slice (by omega) (by omega)) (inBounds_toArray ())) fun digest => ?_
  exact inBounds_pure _

end Digest

section LiveRecord

def ReplicaLiveRecord.encode (live : ReplicaLiveRecord W) : List UInt8 :=
  RecordHeader.encode liveRecordDomain { lane := live.lane, source := live.source } ++
    W.encodeRecord live.record

/-- Everything behind the header is the record's, and there has to be something. -/
def ReplicaLiveRecord.decode (W : WireLibrary) (bytes : List UInt8) :
    Reading Unit (ReplicaLiveRecord W) := do
  refuse (bytes.length ≤ liveRecordHeaderBytes ∨ ¬ liveRecordDomain <+: bytes) ()
  let header ← readHeader liveRecordDomain bytes
  let cursor := liveRecordDomain.length+4+1+32
  let rest ← slice cursor bytes.length bytes
  let record ← orRefuse () (W.decodeRecord rest)
  return { lane := header.lane, source := header.source, record }

theorem inBounds_decodeLive : InBounds (ReplicaLiveRecord.decode W bytes) := by
  refine inBounds_guarded fun hguard => ?_
  simp only [not_or,not_not,not_le,liveRecordHeaderBytes] at hguard
  refine .bind (inBounds_readHeader hguard.2 (by omega)) fun header => ?_
  refine .bind (inBounds_slice (by omega) (by omega)) fun rest => ?_
  exact .bind (inBounds_orRefuse () _) fun record => inBounds_pure _

theorem decodeLive_fields {generation : FixedBytes 4} {tag : UInt8} {source : PeerId}
    {rest : List UInt8} (hrest : rest ≠ []) :
    ReplicaLiveRecord.decode W
      (liveRecordDomain ++ (generation.bytes ++ (tag :: (source.bytes ++ rest)))) =
        (do
          let header ← headerOf generation tag source
          let record ← orRefuse () (W.decodeRecord rest)
          return { lane := header.lane, source := header.source, record }) := by
  have hlength := List.length_pos_of_ne_nil hrest
  have hsize : ¬ (liveRecordDomain ++
      (generation.bytes ++ (tag :: (source.bytes ++ rest)))).length ≤ liveRecordHeaderBytes := by
    simp only [List.length_append,List.length_cons,FixedBytes.length_eq,liveRecordHeaderBytes]
    omega
  have hslice : slice (ε := Unit) (liveRecordDomain.length+4+1+32)
      (liveRecordDomain ++ (generation.bytes ++ (tag :: (source.bytes ++ rest)))).length
      (liveRecordDomain ++ (generation.bytes ++ (tag :: (source.bytes ++ rest)))) =
        .ok rest := by
    have hbefore : liveRecordDomain ++ (generation.bytes ++ (tag :: (source.bytes ++ rest))) =
        (liveRecordDomain ++ (generation.bytes ++ (tag :: source.bytes))) ++ (rest ++ []) := by
      simp
    refine slice_field hbefore ?_ ?_
    · simp only [List.length_append,List.length_cons,FixedBytes.length_eq]
    · simp only [List.length_append,List.length_cons,FixedBytes.length_eq]
      omega
  simp only [ReplicaLiveRecord.decode,refuse,hsize,List.prefix_append,not_true_eq_false,or_self,
    if_false,readHeader_fields,hslice]
  rfl

theorem decodeLive_eq_ok {live : ReplicaLiveRecord W}
    (hrecord : Canonical (fun record bytes => W.encodeRecord record = bytes) W.decodeRecord)
    (hwritten : ∀ record, W.encodeRecord record ≠ []) :
    ReplicaLiveRecord.decode W bytes = .ok live ↔ live.encode = bytes := by
  constructor
  · intro h
    have hguard : liveRecordHeaderBytes < bytes.length ∧ liveRecordDomain <+: bytes := by
      simp only [ReplicaLiveRecord.decode,bind_eq_ok,refuse_eq_ok,not_or,not_not,not_le] at h
      obtain ⟨_,hguard,_⟩ := h
      exact hguard
    have hbytes : liveRecordDomain.length+37 < bytes.length := by
      have := hguard.1
      rw [liveRecordHeaderBytes] at this
      omega
    obtain ⟨generation,tag,source,rest,rfl⟩ := exists_fields hguard.2 hbytes.le
    have hrest : rest ≠ [] := by
      rintro rfl
      simp at hbytes
    rw [decodeLive_fields hrest] at h
    simp only [bind_eq_ok,orRefuse_eq_ok,hrecord rest,pure,Except.pure,Except.ok.injEq] at h
    obtain ⟨header,hheader,record,rfl,rfl⟩ := h
    have hencoded := (headerOf_eq_ok liveRecordDomain).mp hheader
    simp [ReplicaLiveRecord.encode,hencoded]
  · rintro rfl
    have hencoded : live.encode = liveRecordDomain ++
        ((FixedBytes.ofNat 4 roomProtocolGeneration).bytes ++
          (live.lane.tag :: (live.source.bytes ++ W.encodeRecord live.record))) := by
      simp [ReplicaLiveRecord.encode,RecordHeader.encode,FixedBytes.ofNat]
    have hfound : W.decodeRecord (W.encodeRecord live.record) = some live.record :=
      (hrecord _ _).mpr rfl
    rw [hencoded,decodeLive_fields (hwritten live.record),headerOf_encode,hfound]
    rfl

end LiveRecord

section Realtime

inductive RoomRealtimeError where
  | malformed
  | wrongRoom
  | invalidSignature
  deriving DecidableEq

/-- Of a room's identity, what its realtime frames are bound to. -/
structure RoomIdentity where
  object : FixedBytes 32

structure RoomRealtime (W : WireLibrary) where
  source : PeerId
  session : UInt64
  sequence : UInt64
  frame : W.Frame

def realtimeDomain : List UInt8 := ascii "walkie room realtime v1\x00"
def signatureBytes : Nat := 64
def fixedBytes : Nat := realtimeDomain.length+4+32+32+8+8+2+signatureBytes

def RoomRealtime.signedPart (room : RoomIdentity) (realtime : RoomRealtime W)
    (payload : List UInt8) : List UInt8 :=
  realtimeDomain ++ leBytes 4 roomProtocolGeneration ++ room.object.bytes ++
    realtime.source.bytes ++ leBytes 8 realtime.session.toNat ++
    leBytes 8 realtime.sequence.toNat ++ leBytes 2 payload.length ++ payload

def RoomRealtime.encode (room : RoomIdentity) (signingKey : W.SigningKey)
    (session sequence : UInt64) (frame : W.Frame) : Except RoomRealtimeError (List UInt8) :=
  match W.encodeFrame frame with
  | none => throw .malformed
  | some payload =>
    if payload.length < 2^16 then
      let source := W.keyBytes (W.verifyingKey signingKey)
      let bytes := RoomRealtime.signedPart room { source, session, sequence, frame } payload
      pure (bytes ++ (W.sign signingKey bytes).bytes)
    else throw .malformed

def takeArray (width : Nat) (bytes : List UInt8) (cursor : Nat) :
    Reading RoomRealtimeError (FixedBytes width) :=
  if cursor+width ≤ bytes.length then toArray width .malformed ((bytes.drop cursor).take width)
  else throw (.refused .malformed)

/-- Every take moves the cursor past what it took. -/
def RoomRealtime.decode (W : WireLibrary) (room : RoomIdentity) (bytes : List UInt8) :
    Reading RoomRealtimeError (RoomRealtime W) := do
  refuse (bytes.length < fixedBytes ∨ ¬ realtimeDomain <+: bytes) .malformed
  let cursor := realtimeDomain.length
  let generation ← takeArray 4 bytes cursor
  let cursor := cursor+4
  let object ← takeArray 32 bytes cursor
  let cursor := cursor+32
  refuse (generation.toNat ≠ roomProtocolGeneration ∨ object ≠ room.object)
    .wrongRoom
  let source ← takeArray 32 bytes cursor
  let cursor := cursor+32
  let session ← takeArray 8 bytes cursor
  let cursor := cursor+8
  let sequence ← takeArray 8 bytes cursor
  let cursor := cursor+8
  let payloadLen ← takeArray 2 bytes cursor
  let cursor := cursor+2
  -- Two bytes of length do not bring the cursor near the end of a machine word.
  let signedLen := cursor+payloadLen.toNat
  refuse (signedLen+signatureBytes ≠ bytes.length) .malformed
  let payload ← slice cursor signedLen bytes
  let signature ← slice signedLen bytes.length bytes >>= toArray 64 .malformed
  let verifyingKey ← orRefuse .invalidSignature (W.keyFromBytes source)
  let signed ← slice 0 signedLen bytes
  refuse (W.verify verifyingKey signed signature = false) .invalidSignature
  let frame ← orRefuse .malformed (W.decodeFrame payload)
  return { source, session := .ofNat session.toNat, sequence := .ofNat sequence.toNat, frame }

/-- The signed layout of a frame in a room: an exact payload length, the frame's own payload, and
a signature of the source over all that stands in front of it. -/
def RoomRealtime.Layout (room : RoomIdentity) (realtime : RoomRealtime W) (bytes : List UInt8) :
    Prop :=
  ∃ payload signature key, W.encodeFrame realtime.frame = some payload ∧ payload.length < 2^16 ∧
    W.keyFromBytes realtime.source = some key ∧
    W.verify key (realtime.signedPart room payload) signature = true ∧
    bytes = realtime.signedPart room payload ++ signature.bytes

theorem inBounds_takeArray (width cursor : Nat) : InBounds (takeArray width bytes cursor) := by
  unfold takeArray
  split
  · exact inBounds_toArray _ _
  · exact inBounds_throw _

theorem inBounds_decodeRealtime {room : RoomIdentity} :
    InBounds (RoomRealtime.decode W room bytes) := by
  refine .bind (inBounds_refuse _) fun _ => ?_
  refine .bind (inBounds_takeArray 4 _) fun generation => ?_
  refine .bind (inBounds_takeArray 32 _) fun object => ?_
  refine .bind (inBounds_refuse _) fun _ => ?_
  refine .bind (inBounds_takeArray 32 _) fun source => ?_
  refine .bind (inBounds_takeArray 8 _) fun session => ?_
  refine .bind (inBounds_takeArray 8 _) fun sequence => ?_
  refine .bind (inBounds_takeArray 2 _) fun payloadLen => ?_
  -- The length was checked before the payload and the signature are cut out.
  refine inBounds_guarded fun hsigned => ?_
  simp only [ne_eq,not_not] at hsigned
  refine .bind (inBounds_slice (by omega) (by omega)) fun payload => ?_
  refine .bind (.bind (inBounds_slice (by omega) (by omega)) (inBounds_toArray _))
    fun signature => ?_
  refine .bind (inBounds_orRefuse _ _) fun key => ?_
  refine .bind (inBounds_slice (by omega) (by omega)) fun signed => ?_
  refine .bind (inBounds_refuse _) fun _ => ?_
  exact .bind (inBounds_orRefuse _ _) fun frame => inBounds_pure _

theorem takeArray_eq_ok {width cursor : Nat} {field : FixedBytes width}
    (h : takeArray width bytes cursor = .ok field) :
    bytes.drop cursor = field.bytes ++ bytes.drop (cursor+width) := by
  unfold takeArray at h
  split at h
  · rw [toArray_eq_ok] at h
    rw [← h,← List.drop_drop,List.take_append_drop]
  · cases h

theorem takeArray_next {width cursor : Nat} {field : FixedBytes width} {rest : List UInt8}
    (hwidth : 0 < width) (h : bytes.drop cursor = field.bytes ++ rest) :
    takeArray width bytes cursor = .ok field ∧ bytes.drop (cursor+width) = rest := by
  have hlength := congrArg List.length h
  simp only [List.length_drop,List.length_append,FixedBytes.length_eq] at hlength
  rw [takeArray,if_pos (by omega),← List.drop_drop,h,List.take_left' field.length_eq,toArray_bytes]
  exact ⟨rfl,List.drop_left' field.length_eq⟩

variable {room : RoomIdentity} {realtime : RoomRealtime W}

theorem layout_of_decode (hframe : Canonical (fun frame bytes => W.encodeFrame frame = some bytes)
    W.decodeFrame) (h : RoomRealtime.decode W room bytes = .ok realtime) :
    realtime.Layout room bytes := by
  simp only [RoomRealtime.decode,bind_eq_ok,refuse_eq_ok,orRefuse_eq_ok,hframe _,toArray_eq_ok,
    not_or,not_not,ne_eq,pure,Except.pure,Except.ok.injEq] at h
  obtain ⟨_,⟨hlength,hdomain⟩,generation,hgeneration,object,hobject,_,⟨hnumber,rfl⟩,source,hsource,
    session,hsession,sequence,hsequence,payloadLen,hpayloadLen,_,hsigned,payload,hpayload,signature,
    ⟨_,hsignature,rfl⟩,key,hkey,signed,hslice,_,hverify,frame,hencoded,rfl⟩ := h
  have hstart : bytes = realtimeDomain ++ bytes.drop realtimeDomain.length := by
    obtain ⟨behind,rfl⟩ := hdomain
    rw [List.drop_left]
  obtain ⟨hbehind,hlong⟩ := slice_eq_ok hpayload
  rw [takeArray_eq_ok hgeneration,takeArray_eq_ok hobject,takeArray_eq_ok hsource,
    takeArray_eq_ok hsession,takeArray_eq_ok hsequence,takeArray_eq_ok hpayloadLen,
    hbehind] at hstart
  have hsplit := (slice_eq_ok hslice).1
  have hend := (slice_eq_ok hsignature).1
  rw [List.drop_zero] at hsplit
  rw [List.drop_length,List.append_nil] at hend
  rw [Nat.add_sub_cancel_left] at hlong
  have hwidth : payload.length < 256^2 := hlong ▸ payloadLen.toNat_lt
  have hsignedPart : signed = RoomRealtime.signedPart room
      { source, session := .ofNat session.toNat, sequence := .ofNat sequence.toNat, frame }
      payload := by
    rw [FixedBytes.toNat_eq_iff (by decide)] at hnumber
    have hpayloadBytes := (FixedBytes.toNat_eq_iff hwidth payloadLen).mp hlong.symm
    have hjoined := hstart.symm.trans hsplit
    simp only [← List.append_assoc] at hjoined
    rw [← List.append_cancel_right hjoined]
    simp only [RoomRealtime.signedPart,leBytes_toUInt64,hnumber,hpayloadBytes]
  rw [hsignedPart] at hverify hsplit
  refine ⟨payload,signature,key,hencoded,hwidth,hkey,?_,hsplit.trans (by rw [hend])⟩
  simpa using hverify

theorem length_signedPart (payload : List UInt8) : (realtime.signedPart room payload).length =
    realtimeDomain.length+4+32+32+8+8+2+payload.length := by
  simp only [RoomRealtime.signedPart,List.length_append,FixedBytes.length_eq,length_leBytes]

theorem decode_of_layout (hframe : Canonical (fun frame bytes => W.encodeFrame frame = some bytes)
    W.decodeFrame) (h : realtime.Layout room bytes) :
    RoomRealtime.decode W room bytes = .ok realtime := by
  obtain ⟨payload,signature,key,hencoded,hwidth,hkey,hverify,hbytes⟩ := h
  have hlength : bytes.length = fixedBytes+payload.length := by
    rw [hbytes,List.length_append,length_signedPart,FixedBytes.length_eq,fixedBytes,signatureBytes]
    omega
  have hfields : bytes = realtimeDomain ++ ((FixedBytes.ofNat 4 roomProtocolGeneration).bytes ++
      (room.object.bytes ++ (realtime.source.bytes ++
        ((FixedBytes.ofNat 8 realtime.session.toNat).bytes ++
          ((FixedBytes.ofNat 8 realtime.sequence.toNat).bytes ++
            ((FixedBytes.ofNat 2 payload.length).bytes ++ (payload ++ signature.bytes))))))) := by
    rw [hbytes]
    simp only [RoomRealtime.signedPart,FixedBytes.ofNat,List.append_assoc]
  have hdomain : realtimeDomain <+: bytes := ⟨_,hfields.symm⟩
  have hdrop := congrArg (List.drop realtimeDomain.length) hfields
  rw [List.drop_left] at hdrop
  obtain ⟨hgeneration,hdrop⟩ := takeArray_next (by decide) hdrop
  obtain ⟨hobject,hdrop⟩ := takeArray_next (by decide) hdrop
  obtain ⟨hsource,hdrop⟩ := takeArray_next (by decide) hdrop
  obtain ⟨hsession,hdrop⟩ := takeArray_next (by decide) hdrop
  obtain ⟨hsequence,hdrop⟩ := takeArray_next (by decide) hdrop
  obtain ⟨hpayloadLen,hdrop⟩ := takeArray_next (by decide) hdrop
  have hfixed : bytes.length = realtimeDomain.length+4+32+32+8+8+2+payload.length+64 := by
    rw [hlength,fixedBytes,signatureBytes]
    omega
  obtain ⟨hpayload,hdrop⟩ := slice_next (ε := RoomRealtimeError) hdrop (by omega) rfl
  have hend : realtimeDomain.length+4+32+32+8+8+2+payload.length+signature.bytes.length =
      bytes.length := by rw [FixedBytes.length_eq,hfixed]
  obtain ⟨hsignature,_⟩ := slice_next (ε := RoomRealtimeError)
    (hdrop.trans (List.append_nil _).symm) (by omega) hend
  have hwhole : bytes.drop 0 = realtime.signedPart room payload ++ signature.bytes := hbytes
  obtain ⟨hsigned,_⟩ := slice_next (ε := RoomRealtimeError) hwhole (Nat.zero_le _)
    (by rw [Nat.zero_add,length_signedPart])
  have hframed : W.decodeFrame payload = some realtime.frame := (hframe _ _).mpr hencoded
  have hlen := FixedBytes.toNat_ofNat (by simpa using hwidth : payload.length < 256^2)
  have hnumber : (FixedBytes.ofNat 4 roomProtocolGeneration).toNat = roomProtocolGeneration :=
    FixedBytes.toNat_ofNat (by decide)
  have hshort : ¬ bytes.length < fixedBytes := by rw [hlength]; omega
  simp only [RoomRealtime.decode,bind_eq_ok,refuse_eq_ok,orRefuse_eq_ok,toArray_eq_ok,
    not_or,not_not,
    ne_eq,pure,Except.pure,Except.ok.injEq]
  refine ⟨(),⟨hshort,hdomain⟩,_,hgeneration,_,hobject,(),⟨hnumber,rfl⟩,_,hsource,_,hsession,_,
    hsequence,_,hpayloadLen,(),?_,payload,?_,signature,⟨_,?_,rfl⟩,key,hkey,
    realtime.signedPart room payload,?_,(),?_,_,hframed,?_⟩
  · rw [hlen,hfixed,signatureBytes]
  · rw [hlen,hpayload]
  · rw [hlen,hsignature]
  · rw [hlen,hsigned]
  · rw [hverify]
    decide
  · simp only [toNat_ofUInt64]

/-- What is sent has the signed layout, where a key signs what its public half verifies. -/
theorem layout_of_encode {signingKey : W.SigningKey} {session sequence : UInt64} {frame : W.Frame}
    (hkey : W.keyFromBytes (W.keyBytes (W.verifyingKey signingKey)) =
      some (W.verifyingKey signingKey))
    (hsign : ∀ message,
      W.verify (W.verifyingKey signingKey) message (W.sign signingKey message) = true)
    (h : RoomRealtime.encode room signingKey session sequence frame = .ok bytes) :
    RoomRealtime.Layout room
      { source := W.keyBytes (W.verifyingKey signingKey), session, sequence, frame } bytes := by
  unfold RoomRealtime.encode at h
  cases hpayload : W.encodeFrame frame with
  | none => rw [hpayload] at h; cases h
  | some payload =>
    rw [hpayload] at h
    by_cases hwidth : payload.length < 2^16
    · simp only [if_pos hwidth,pure,Except.pure,Except.ok.injEq] at h
      exact ⟨payload,_,_,hpayload,hwidth,hkey,hsign _,h.symm⟩
    · simp only [if_neg hwidth] at h
      cases h

end Realtime

section Formats

inductive GossipFormat where
  | realtime
  | live
  | hint
  | probe
  deriving DecidableEq

def GossipFormat.domain : GossipFormat → List UInt8
  | .realtime => realtimeDomain
  | .live => liveRecordDomain
  | .hint => repairHintDomain
  | .probe => repairProbeDomain

def GossipFormat.Accepts (W : WireLibrary) (room : RoomIdentity) (bytes : List UInt8) :
    GossipFormat → Prop
  | .realtime => ∃ realtime, RoomRealtime.decode W room bytes = .ok realtime
  | .live => ∃ live, ReplicaLiveRecord.decode W bytes = .ok live
  | .hint => ∃ hint, ReplicaRepairHint.decode bytes = .ok hint
  | .probe => ∃ probe, ReplicaRepairProbe.decode bytes = .ok probe

variable {room : RoomIdentity}

theorem decodeHint_eq_ok {hint : ReplicaRepairHint} :
    ReplicaRepairHint.decode bytes = .ok hint ↔ hint.encode = bytes := by
  refine decodeDigest_eq_ok.trans ⟨?_,fun h => ⟨_,_,_,rfl,h⟩⟩
  rintro ⟨lane,source,entry,rfl,h⟩
  exact h

theorem decodeProbe_eq_ok {probe : ReplicaRepairProbe} :
    ReplicaRepairProbe.decode bytes = .ok probe ↔ probe.encode = bytes := by
  refine decodeDigest_eq_ok.trans ⟨?_,fun h => ⟨_,_,_,rfl,h⟩⟩
  rintro ⟨lane,source,frontier,rfl,h⟩
  exact h

theorem encodeDigest_domain (domain : List UInt8) (lane : RoomLane) (source : PeerId)
    (digest : FixedBytes 32) : domain <+: encodeDigest domain lane source digest := by
  simp only [encodeDigest,RecordHeader.encode,List.append_assoc,List.prefix_append]

theorem accepts_domain (format : GossipFormat) (h : format.Accepts W room bytes) :
    format.domain <+: bytes := by
  cases format with
  | realtime =>
    obtain ⟨realtime,h⟩ := h
    simp only [RoomRealtime.decode,bind_eq_ok,refuse_eq_ok,not_or,not_not] at h
    obtain ⟨_,⟨_,hdomain⟩,_⟩ := h
    exact hdomain
  | live =>
    obtain ⟨live,h⟩ := h
    simp only [ReplicaLiveRecord.decode,bind_eq_ok,refuse_eq_ok,not_or,not_not] at h
    obtain ⟨_,⟨_,hdomain⟩,_⟩ := h
    exact hdomain
  | hint =>
    obtain ⟨hint,h⟩ := h
    rw [← decodeHint_eq_ok.mp h]
    exact encodeDigest_domain _ _ _ _
  | probe =>
    obtain ⟨probe,h⟩ := h
    rw [← decodeProbe_eq_ok.mp h]
    exact encodeDigest_domain _ _ _ _

theorem domain_prefixFree (format format' : GossipFormat)
    (h : format.domain <+: format'.domain) : format = format' := by
  revert h
  cases format <;> cases format' <;> decide

/-- The decoders accept just what is written, give back what was written, never accept one string
twice and stay within it. -/
theorem gossip_formats_canonical (room : RoomIdentity)
    (hrecord : Canonical (fun record bytes => W.encodeRecord record = bytes) W.decodeRecord)
    (hwritten : ∀ record, W.encodeRecord record ≠ [])
    (hframe : Canonical (fun frame bytes => W.encodeFrame frame = some bytes) W.decodeFrame)
    (bytes : List UInt8) :
    (∀ hint, ReplicaRepairHint.decode bytes = .ok hint ↔ hint.encode = bytes) ∧
    (∀ probe, ReplicaRepairProbe.decode bytes = .ok probe ↔ probe.encode = bytes) ∧
    (∀ live : ReplicaLiveRecord W,
      ReplicaLiveRecord.decode W bytes = .ok live ↔ live.encode = bytes) ∧
    (∀ realtime, RoomRealtime.decode W room bytes = .ok realtime ↔ realtime.Layout room bytes) ∧
    (∀ format format' : GossipFormat, format.Accepts W room bytes →
      format'.Accepts W room bytes → format = format') ∧
    InBounds (ReplicaRepairHint.decode bytes) ∧ InBounds (ReplicaRepairProbe.decode bytes) ∧
    InBounds (ReplicaLiveRecord.decode W bytes) ∧ InBounds (RoomRealtime.decode W room bytes) := by
  refine ⟨fun _ => decodeHint_eq_ok,fun _ => decodeProbe_eq_ok,
    fun _ => decodeLive_eq_ok hrecord hwritten,
    fun _ => ⟨layout_of_decode hframe,decode_of_layout hframe⟩,?_,inBounds_decodeDigest,
    inBounds_decodeDigest,inBounds_decodeLive,inBounds_decodeRealtime⟩
  intro format format' h h'
  exact eq_of_accepts GossipFormat.domain (fun format bytes => format.Accepts W room bytes)
    (fun format _ => accepts_domain format) domain_prefixFree h h'

/-- A record that is its own bytes, of which there is a first one. -/
def plainRecord : List UInt8 → Option (UInt8 × List UInt8)
  | [] => none
  | first :: rest => some (first,rest)

def plainWire : WireLibrary where
  ReplicaRecord := UInt8 × List UInt8
  encodeRecord record := record.1 :: record.2
  decodeRecord := plainRecord
  Frame := List UInt8
  encodeFrame := some
  decodeFrame := some
  SigningKey := FixedBytes 32
  VerifyingKey := FixedBytes 32
  verifyingKey key := key
  keyBytes key := key
  keyFromBytes := some
  sign _ _ := .ofNat 64 0
  verify _ _ signature := decide (signature = .ofNat 64 0)

theorem canonical_plainRecord :
    Canonical (fun record bytes => plainWire.encodeRecord record = bytes)
      plainWire.decodeRecord := by
  intro bytes record
  cases bytes with
  | nil => simp [plainWire,plainRecord]
  | cons first rest =>
    obtain ⟨first',rest'⟩ := record
    simp [plainWire,plainRecord,eq_comm]

def hintOfZeros : ReplicaRepairHint where
  lane := .music
  source := .ofNat 32 0
  entry := .ofNat 32 0

theorem gossip_formats_canonical_hint :
    ReplicaRepairHint.decode hintOfZeros.encode = .ok hintOfZeros ∧
      ¬ GossipFormat.live.Accepts plainWire ⟨.ofNat 32 0⟩ hintOfZeros.encode := by
  have h := gossip_formats_canonical ⟨.ofNat 32 0⟩ canonical_plainRecord
    (fun _ => List.cons_ne_nil _ _) (fun _ _ => by simp [plainWire,eq_comm]) hintOfZeros.encode
  have hdecoded := (h.1 hintOfZeros).mpr rfl
  refine ⟨hdecoded,fun hlive => ?_⟩
  exact absurd (h.2.2.2.2.1 .hint .live ⟨_,hdecoded⟩ hlive) (by decide)

end Formats

end Gossip

end WalkieSongie
