import WalkieSongie.ByteFormat
set_option autoImplicit false

/-!
Frames over a repair stream: a big-endian length of four bytes, then the payload. The stream hands
its bytes out in pieces of any size.
-/

namespace WalkieSongie.RepairFraming
open ByteFormat

/-- What is still to come of a stream, in the pieces its reads find. -/
structure RecvStream where
  chunks : List (List UInt8)
  nonempty : ∀ chunk ∈ chunks, chunk ≠ []

namespace RecvStream

def bytes (stream : RecvStream) : List UInt8 := stream.chunks.flatten

/-- The pieces left once so many bytes are taken off the front. -/
def dropBytes : Nat → List (List UInt8) → List (List UInt8)
  | _, [] => []
  | count, chunk :: chunks =>
      if chunk.length ≤ count then dropBytes (count-chunk.length) chunks
      else chunk.drop count :: chunks

theorem dropBytes_nonempty {count : Nat} {chunks : List (List UInt8)}
    (h : ∀ chunk ∈ chunks, chunk ≠ []) : ∀ chunk ∈ dropBytes count chunks, chunk ≠ [] := by
  induction chunks generalizing count with
  | nil => simp [dropBytes]
  | cons chunk chunks ih =>
      simp only [List.mem_cons,forall_eq_or_imp] at h
      unfold dropBytes
      split
      · exact ih h.2
      · rename_i hlong
        simp only [List.mem_cons,forall_eq_or_imp]
        refine ⟨?_,h.2⟩
        intro hempty
        have hlength := List.drop_eq_nil_iff.mp hempty
        omega

theorem flatten_dropBytes (count : Nat) (chunks : List (List UInt8)) :
    (dropBytes count chunks).flatten = chunks.flatten.drop count := by
  induction chunks generalizing count with
  | nil => simp [dropBytes]
  | cons chunk chunks ih =>
      unfold dropBytes
      split
      · rename_i hshort
        simp [ih,List.drop_append,List.drop_eq_nil_of_le hshort]
      · rename_i hlong
        have hzero : count-chunk.length = 0 := by omega
        simp [List.drop_append,hzero]

def drop (stream : RecvStream) (count : Nat) : RecvStream where
  chunks := dropBytes count stream.chunks
  nonempty := dropBytes_nonempty stream.nonempty

@[simp] theorem bytes_drop (stream : RecvStream) (count : Nat) :
    (stream.drop count).bytes = stream.bytes.drop count := flatten_dropBytes count stream.chunks

/-- One read into a buffer of this size: what the next piece holds of it, nothing at the end. -/
def read (stream : RecvStream) (room : Nat) : Option (List UInt8) :=
  stream.chunks.head?.map (·.take room)

theorem read_eq_none {stream : RecvStream} {room : Nat} (h : stream.read room = none) :
    stream.bytes = [] := by
  have hchunks : stream.chunks = [] := by simpa [read] using h
  simp [bytes,hchunks]

theorem read_eq_some {stream : RecvStream} {room : Nat} {found : List UInt8} (hroom : 0 < room)
    (h : stream.read room = some found) :
    0 < found.length ∧ found.length ≤ room ∧ found ++ stream.bytes.drop found.length =
      stream.bytes := by
  cases hchunks : stream.chunks with
  | nil => simp [read,hchunks] at h
  | cons chunk chunks =>
      have hchunk : chunk ≠ [] := stream.nonempty chunk (by simp [hchunks])
      have hpositive := List.length_pos_iff.mpr hchunk
      have hfound : chunk.take room = found := by simpa [read,hchunks] using h
      subst hfound
      have hbytes : stream.bytes = chunk ++ chunks.flatten := by simp [bytes,hchunks]
      refine ⟨by simp; omega,by simp,?_⟩
      have hfront : chunk.take room <+: stream.bytes := by
        rw [hbytes]
        have htake := List.take_prefix room chunk
        exact htake.trans (List.prefix_append _ _)
      obtain ⟨rest,hrest⟩ := hfront
      rw [← hrest]
      simp

end RecvStream

inductive RepairError where
  | io (message : String)
  | frameTooLarge (actual max : Nat)
  deriving DecidableEq

def toBeBytes (length : Nat) : List UInt8 := (leBytes 4 length).reverse

def fromBeBytes (bytes : List UInt8) : Nat := leNat bytes.reverse

@[simp] theorem length_toBeBytes (length : Nat) : (toBeBytes length).length = 4 := by
  simp [toBeBytes]

theorem fromBeBytes_toBeBytes {length : Nat} (h : length < 2^32) :
    fromBeBytes (toBeBytes length) = length := by
  have hrange : length < 256^4 := by omega
  simp [fromBeBytes,toBeBytes,leNat_leBytes hrange]

section Framing

-- The limit is the sync driver's frame cap, the message the transport's own.
variable (maxRepairFrameBytes : Nat) (finishedEarly : Nat → String)

/-- The bytes sent so far, with one more frame. Only the low four bytes of its length are
written. -/
def writeFrame (sent bytes : List UInt8) : Except RepairError (List UInt8) :=
  if maxRepairFrameBytes < bytes.length then
    .error (.frameTooLarge bytes.length maxRepairFrameBytes)
  else .ok (sent ++ toBeBytes bytes.length ++ bytes)

def writeSyncFrames (sent : List UInt8) : List (List UInt8) → Except RepairError (List UInt8)
  | [] => .ok sent
  | frame :: frames => do
      let sent ← writeFrame maxRepairFrameBytes sent frame
      writeSyncFrames sent frames

/-- The loop that fills the four bytes of a length; nothing at a clean end of the stream. -/
def readLength (filled : List UInt8) (stream : RecvStream) :
    Except RepairError (Option (List UInt8)) × RecvStream :=
  if hroom : filled.length < 4 then
    match hread : stream.read (4-filled.length) with
    | none =>
        if filled = [] then (.ok none,stream)
        else (.error (.io "repair stream ended inside a frame length"),stream)
    | some found =>
        have _hfound := RecvStream.read_eq_some (Nat.sub_pos_of_lt hroom) hread
        readLength (filled ++ found) (stream.drop found.length)
  else (.ok (some filled),stream)
termination_by 4-filled.length
decreasing_by
  simp only [List.length_append]
  omega

def readExact (length : Nat) (stream : RecvStream) :
    Except RepairError (List UInt8) × RecvStream :=
  if stream.bytes.length < length then
    (.error (.io (finishedEarly stream.bytes.length)),stream.drop stream.bytes.length)
  else (.ok (stream.bytes.take length),stream.drop length)

/-- The length is looked at before the payload is read. -/
def readFrame (stream : RecvStream) : Except RepairError (Option (List UInt8)) × RecvStream :=
  match readLength [] stream with
  | (.error error,behind) => (.error error,behind)
  | (.ok none,behind) => (.ok none,behind)
  | (.ok (some header),behind) =>
      let length := fromBeBytes header
      if maxRepairFrameBytes < length then
        (.error (.frameTooLarge length maxRepairFrameBytes),behind)
      else match readExact finishedEarly length behind with
        | (.error error,behind) => (.error error,behind)
        | (.ok bytes,behind) => (.ok (some bytes),behind)

def readFrames : Nat → RecvStream → List (Except RepairError (Option (List UInt8)))
  | 0, _ => []
  | calls+1, stream =>
      let (result,behind) := readFrame maxRepairFrameBytes finishedEarly stream
      result :: readFrames calls behind

variable {maxRepairFrameBytes} {stream : RecvStream}

theorem readLength_full {filled : List UInt8} (h : 4 ≤ filled.length) :
    readLength filled stream = (.ok (some filled),stream) := by
  unfold readLength
  simp [Nat.not_lt.mpr h]

theorem readLength_end {filled : List UInt8} (hroom : filled.length < 4)
    (hread : stream.read (4-filled.length) = none) :
    readLength filled stream =
      if filled = [] then (.ok none,stream)
      else (.error (.io "repair stream ended inside a frame length"),stream) := by
  unfold readLength
  simp only [hroom,dite_true]
  split
  · rfl
  · simp_all

theorem readLength_more {filled found : List UInt8} (hroom : filled.length < 4)
    (hread : stream.read (4-filled.length) = some found) :
    readLength filled stream = readLength (filled ++ found) (stream.drop found.length) := by
  conv => lhs; unfold readLength
  simp only [hroom,dite_true]
  split
  · simp_all
  · simp_all

/-- However the stream splits them, the bytes of the length come in their order. -/
theorem readLength_filled (filled : List UInt8) (stream : RecvStream)
    (hfilled : filled.length ≤ 4) (hbytes : 4 ≤ filled.length+stream.bytes.length) :
    ∃ behind, readLength filled stream =
        (.ok (some (filled ++ stream.bytes.take (4-filled.length))),behind) ∧
      behind.bytes = stream.bytes.drop (4-filled.length) := by
  induction hmissing : 4-filled.length using Nat.strong_induction_on
    generalizing filled stream with
  | _ missing ih =>
      by_cases hfull : 4 ≤ filled.length
      · have hzero : missing = 0 := by omega
        exact ⟨stream,by simp [readLength_full hfull,hzero],by simp [hzero]⟩
      · cases hread : stream.read (4-filled.length) with
        | none =>
            have hnone := RecvStream.read_eq_none hread
            simp only [hnone,List.length_nil] at hbytes
            omega
        | some found =>
            obtain ⟨hpositive,hfits,hsplit⟩ := RecvStream.read_eq_some (by omega) hread
            have hlength := congrArg List.length hsplit
            simp only [List.length_append,List.length_drop] at hlength
            obtain ⟨behind,hbehind,hrest⟩ := ih (missing-found.length) (by omega)
              (filled ++ found) (stream.drop found.length) (by simp; omega) (by simp; omega)
              (by simp; omega)
            have htake : found ++ (stream.bytes.drop found.length).take (missing-found.length) =
                stream.bytes.take missing := by
              conv => rhs; rw [← hsplit]
              rw [List.take_append,List.take_of_length_le (show found.length ≤ missing by omega)]
            have hdrop : (stream.bytes.drop found.length).drop (missing-found.length) =
                stream.bytes.drop missing := by
              rw [List.drop_drop]
              congr 1
              omega
            refine ⟨behind,?_,?_⟩
            · rw [readLength_more (by omega) hread,hbehind]
              simp [List.append_assoc,htake]
            · simpa [hdrop] using hrest

theorem readLength_cut (filled : List UInt8) (stream : RecvStream)
    (hbytes : filled.length+stream.bytes.length < 4) :
    if filled ++ stream.bytes = [] then readLength filled stream = (.ok none,stream)
    else ∃ behind, readLength filled stream =
      (.error (.io "repair stream ended inside a frame length"),behind) := by
  induction hmissing : 4-filled.length using Nat.strong_induction_on
    generalizing filled stream with
  | _ missing ih =>
      cases hread : stream.read (4-filled.length) with
      | none =>
          have hnone := RecvStream.read_eq_none hread
          rw [readLength_end (by omega) hread,hnone,List.append_nil]
          split
          · rfl
          · exact ⟨stream,rfl⟩
      | some found =>
          obtain ⟨hpositive,hfits,hsplit⟩ := RecvStream.read_eq_some (by omega) hread
          have hlength := congrArg List.length hsplit
          simp only [List.length_append,List.length_drop] at hlength
          have hlater := ih (missing-found.length) (by omega) (filled ++ found)
            (stream.drop found.length) (by simp; omega) (by simp; omega)
          have hfound : found ≠ [] := List.length_pos_iff.mp hpositive
          have hsome : filled ++ stream.bytes ≠ [] := by
            rw [← hsplit]
            simp [hfound]
          rw [readLength_more (by omega) hread,if_neg hsome]
          simpa [hfound] using hlater

theorem readLength_header {length : Nat} {rest : List UInt8}
    (hbytes : stream.bytes = toBeBytes length ++ rest) :
    ∃ behind, readLength [] stream = (.ok (some (toBeBytes length)),behind) ∧
      behind.bytes = rest := by
  obtain ⟨behind,hbehind,hrest⟩ := readLength_filled [] stream (by simp) (by simp [hbytes])
  have htake : stream.bytes.take 4 = toBeBytes length := by
    rw [hbytes,List.take_left' (length_toBeBytes length)]
  have hdrop : stream.bytes.drop 4 = rest := by
    rw [hbytes,List.drop_left' (length_toBeBytes length)]
  exact ⟨behind,by simpa [htake] using hbehind,by simpa [hdrop] using hrest⟩

def frameBytes (bytes : List UInt8) : List UInt8 := toBeBytes bytes.length ++ bytes

@[simp] theorem length_frameBytes (bytes : List UInt8) :
    (frameBytes bytes).length = 4+bytes.length := by
  simp [frameBytes]

theorem readFrame_frame {bytes rest : List UInt8} (hlimit : maxRepairFrameBytes < 2^32)
    (hfits : bytes.length ≤ maxRepairFrameBytes)
    (hbytes : stream.bytes = frameBytes bytes ++ rest) :
    ∃ behind, readFrame maxRepairFrameBytes finishedEarly stream = (.ok (some bytes),behind) ∧
      behind.bytes = rest := by
  rw [frameBytes,List.append_assoc] at hbytes
  obtain ⟨behind,hheader,hbehind⟩ := readLength_header hbytes
  have hlength : fromBeBytes (toBeBytes bytes.length) = bytes.length :=
    fromBeBytes_toBeBytes (by omega)
  refine ⟨behind.drop bytes.length,?_,by simp [hbehind]⟩
  simp [readFrame,hheader,hlength,Nat.not_lt.mpr hfits,readExact,hbehind]

theorem readFrame_end (hbytes : stream.bytes = []) :
    readFrame maxRepairFrameBytes finishedEarly stream = (.ok none,stream) := by
  have hcut := readLength_cut [] stream (by simp [hbytes])
  simp only [hbytes,List.append_nil,if_true] at hcut
  simp [readFrame,hcut]

theorem readFrame_tooLarge {length : Nat} {rest : List UInt8} (hlength : length < 2^32)
    (hlarge : maxRepairFrameBytes < length) (hbytes : stream.bytes = toBeBytes length ++ rest) :
    ∃ behind, readFrame maxRepairFrameBytes finishedEarly stream =
        (.error (.frameTooLarge length maxRepairFrameBytes),behind) ∧ behind.bytes = rest := by
  obtain ⟨behind,hheader,hbehind⟩ := readLength_header hbytes
  refine ⟨behind,?_,hbehind⟩
  simp [readFrame,hheader,fromBeBytes_toBeBytes hlength,hlarge]

theorem readFrame_cut {bytes : List UInt8} (hlimit : maxRepairFrameBytes < 2^32)
    (hfits : bytes.length ≤ maxRepairFrameBytes) (hfront : stream.bytes <+: frameBytes bytes)
    (hsome : stream.bytes ≠ []) (hcut : stream.bytes ≠ frameBytes bytes) :
    ∃ error behind, readFrame maxRepairFrameBytes finishedEarly stream = (.error error,behind) := by
  obtain ⟨missing,hmissing⟩ := hfront
  by_cases hshort : stream.bytes.length < 4
  · have hpart := readLength_cut [] stream (by simpa using hshort)
    rw [List.nil_append,if_neg hsome] at hpart
    obtain ⟨behind,hbehind⟩ := hpart
    refine ⟨.io "repair stream ended inside a frame length",behind,?_⟩
    simp [readFrame,hbehind]
  · have hlong : (toBeBytes bytes.length).length ≤ stream.bytes.length := by
      rw [length_toBeBytes]
      omega
    obtain ⟨rest,hrest⟩ := List.prefix_of_prefix_length_le
      (List.prefix_append _ bytes) ⟨missing,hmissing⟩ hlong
    obtain ⟨behind,hheader,hbehind⟩ := readLength_header hrest.symm
    have hpositive : missing ≠ [] := by
      rintro rfl
      exact hcut (by simpa using hmissing)
    have hcount := congrArg List.length hmissing
    have hlength := congrArg List.length hrest
    simp only [List.length_append,length_frameBytes,length_toBeBytes] at hcount hlength
    have hmore := List.length_pos_iff.mpr hpositive
    have hearly : behind.bytes.length < bytes.length := by
      rw [hbehind]
      omega
    have hvalue : fromBeBytes (toBeBytes bytes.length) = bytes.length :=
      fromBeBytes_toBeBytes (by omega)
    refine ⟨.io (finishedEarly behind.bytes.length),behind.drop behind.bytes.length,?_⟩
    simp [readFrame,hheader,hvalue,Nat.not_lt.mpr hfits,readExact,hearly]

theorem writeSyncFrames_eq_ok {frames : List (List UInt8)} (sent : List UInt8)
    (hfits : ∀ frame ∈ frames, frame.length ≤ maxRepairFrameBytes) :
    writeSyncFrames maxRepairFrameBytes sent frames =
      .ok (sent ++ (frames.map frameBytes).flatten) := by
  induction frames generalizing sent with
  | nil => simp [writeSyncFrames]
  | cons frame frames ih =>
      simp only [List.mem_cons,forall_eq_or_imp] at hfits
      have hwrite : writeFrame maxRepairFrameBytes sent frame =
          .ok (sent ++ frameBytes frame) := by
        simp [writeFrame,Nat.not_lt.mpr hfits.1,frameBytes]
      simp [writeSyncFrames,hwrite,bind,Except.bind,ih _ hfits.2]

theorem readFrames_end (calls : Nat) (hbytes : stream.bytes = []) :
    readFrames maxRepairFrameBytes finishedEarly calls stream =
      List.replicate calls (.ok none) := by
  induction calls with
  | zero => rfl
  | succ calls ih => simp [readFrames,readFrame_end finishedEarly hbytes,ih,List.replicate_succ]

/-- The frames at the front of a stream are read in their order, whatever is behind them. -/
theorem readFrames_append {frames : List (List UInt8)} {rest : List UInt8}
    (hlimit : maxRepairFrameBytes < 2^32)
    (hfits : ∀ frame ∈ frames, frame.length ≤ maxRepairFrameBytes)
    (hbytes : stream.bytes = (frames.map frameBytes).flatten ++ rest) :
    ∃ behind, behind.bytes = rest ∧ ∀ calls,
      readFrames maxRepairFrameBytes finishedEarly (frames.length+calls) stream =
        frames.map (fun frame => .ok (some frame)) ++
          readFrames maxRepairFrameBytes finishedEarly calls behind := by
  induction frames generalizing stream with
  | nil => exact ⟨stream,by simpa using hbytes,by simp⟩
  | cons frame frames ih =>
      simp only [List.mem_cons,forall_eq_or_imp] at hfits
      rw [List.map_cons,List.flatten_cons,List.append_assoc] at hbytes
      obtain ⟨next,hnext,hnextBytes⟩ := readFrame_frame finishedEarly hlimit hfits.1 hbytes
      obtain ⟨behind,hbehind,hcalls⟩ := ih hfits.2 hnextBytes
      refine ⟨behind,hbehind,?_⟩
      intro calls
      have hcount : (frame :: frames).length+calls = frames.length+calls+1 := by simp; omega
      rw [hcount]
      simp [readFrames,hnext,hcalls]

/-- Where a stream of frames is cut short: so many of them are whole, the next one is not. -/
theorem cut_frames {frames : List (List UInt8)} {front : List UInt8}
    (hfront : front <+: (frames.map frameBytes).flatten)
    (hcut : front ≠ (frames.map frameBytes).flatten) :
    ∃ complete next later cut, frames = complete ++ next :: later ∧
      front = (complete.map frameBytes).flatten ++ cut ∧
      cut <+: frameBytes next ∧ cut ≠ frameBytes next := by
  induction frames generalizing front with
  | nil => simp_all
  | cons frame frames ih =>
      rw [List.map_cons,List.flatten_cons] at hfront hcut
      by_cases hwhole : frameBytes frame <+: front
      · obtain ⟨rest,rfl⟩ := hwhole
        obtain ⟨complete,next,later,cut,rfl,rfl,hnext⟩ :=
          ih ((List.prefix_append_right_inj _).mp hfront) (by simpa using hcut)
        exact ⟨frame :: complete,next,later,cut,by simp,by simp,hnext⟩
      · have hpart : front <+: frameBytes frame := by
          rcases List.prefix_or_prefix_of_prefix hfront (List.prefix_append _ _) with h | h
          · exact h
          · exact absurd h hwhole
        refine ⟨[],frame,frames,front,by simp,by simp,hpart,?_⟩
        rintro rfl
        exact hwhole (List.prefix_refl _)

/-- Framing is exact however the stream splits it: the frames written come back in their order
and then the end; a stream that is cut short gives its whole frames, then the end at a frame's
boundary and an error anywhere else; and a length above the limit is refused with the payload
unread. -/
theorem repair_framing_exact (hlimit : maxRepairFrameBytes < 2^32) (frames : List (List UInt8))
    (hfits : ∀ frame ∈ frames, frame.length ≤ maxRepairFrameBytes) :
    ∃ sent, writeSyncFrames maxRepairFrameBytes [] frames = .ok sent ∧
      (∀ stream : RecvStream, stream.bytes = sent → ∀ calls,
        readFrames maxRepairFrameBytes finishedEarly (frames.length+calls) stream =
          frames.map (fun frame => .ok (some frame)) ++ List.replicate calls (.ok none)) ∧
      (∀ stream : RecvStream, stream.bytes <+: sent → stream.bytes ≠ sent →
        ∃ complete next later cut last, frames = complete ++ next :: later ∧
          stream.bytes = (complete.map frameBytes).flatten ++ cut ∧
          cut <+: frameBytes next ∧ cut ≠ frameBytes next ∧
          readFrames maxRepairFrameBytes finishedEarly (complete.length+1) stream =
            complete.map (fun frame => .ok (some frame)) ++ [last] ∧
          (cut = [] → last = .ok none) ∧ (cut ≠ [] → ∃ error, last = .error error)) ∧
      ∀ (stream : RecvStream) (length : Nat) (rest : List UInt8),
        maxRepairFrameBytes < length → length < 2^32 →
          stream.bytes = toBeBytes length ++ rest →
            ∃ behind, readFrame maxRepairFrameBytes finishedEarly stream =
              (.error (.frameTooLarge length maxRepairFrameBytes),behind) ∧
                behind.bytes = rest := by
  refine ⟨(frames.map frameBytes).flatten,?_,?_,?_,?_⟩
  · simpa using writeSyncFrames_eq_ok [] hfits
  · intro stream hbytes calls
    obtain ⟨behind,hbehind,hcalls⟩ :=
      readFrames_append finishedEarly hlimit hfits (hbytes.trans (List.append_nil _).symm)
    rw [hcalls calls,readFrames_end finishedEarly calls hbehind]
  · intro stream hfront hshort
    obtain ⟨complete,next,later,cut,rfl,hbytes,hnext,hpart⟩ := cut_frames hfront hshort
    have hcomplete : ∀ frame ∈ complete, frame.length ≤ maxRepairFrameBytes :=
      fun frame hframe => hfits frame (List.mem_append_left _ hframe)
    have hnextFits : next.length ≤ maxRepairFrameBytes := hfits next (by simp)
    obtain ⟨behind,hbehind,hcalls⟩ := readFrames_append finishedEarly hlimit hcomplete hbytes
    subst hbehind
    have hone := hcalls 1
    refine ⟨complete,next,later,behind.bytes,(readFrame maxRepairFrameBytes finishedEarly
      behind).1,rfl,hbytes,hnext,hpart,by simpa [readFrames] using hone,?_,?_⟩
    · intro hempty
      rw [readFrame_end finishedEarly hempty]
    · intro hsome
      obtain ⟨error,after,herror⟩ :=
        readFrame_cut finishedEarly hlimit hnextFits hnext hsome hpart
      exact ⟨error,by rw [herror]⟩
  · intro stream length rest hlarge hlength hbytes
    exact readFrame_tooLarge finishedEarly hlength hlarge hbytes

end Framing

/-- Three frames, one of them empty, in pieces that respect no boundary. -/
def scattered : RecvStream where
  chunks := [[0,0],[0,1,7,0],[0,0,0],[0,0,0,2,8],[9]]
  nonempty := by decide

theorem repair_framing_exact_scattered :
    readFrames 1048576 (fun _ => "early") 4 scattered =
      [.ok (some [7]),.ok (some []),.ok (some [8,9]),.ok none] := by
  obtain ⟨sent,hsent,hread,-⟩ := @repair_framing_exact 1048576 (fun _ => "early") (by decide)
    [[7],[],[8,9]] (by decide)
  have hwritten : writeSyncFrames 1048576 [] [[7],[],[8,9]] = .ok scattered.bytes := by decide
  have hsame : scattered.bytes = sent := Except.ok.inj (hwritten.symm.trans hsent)
  exact hread scattered hsame 1

end WalkieSongie.RepairFraming
