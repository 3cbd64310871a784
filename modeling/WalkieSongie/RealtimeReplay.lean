import WalkieSongie.GossipFormats
import WalkieSongie.ReplayWindow
set_option autoImplicit false

/-!
What a room forwards of its realtime frames: the native driver and the browser's room loop keep
the last sequence number of a bounded number of sessions.
-/

namespace WalkieSongie.Gossip
open ByteFormat Std

variable {W : WireLibrary}

/-- A source and its session, ordered as the map of the last sequence numbers is. -/
abbrev SessionKey := PeerId × UInt64

instance {width : Nat} : Ord (FixedBytes width) := ⟨compareOn FixedBytes.bytes⟩

instance {width : Nat} : TransOrd (FixedBytes width) :=
  inferInstanceAs (TransCmp (compareOn FixedBytes.bytes))

instance {width : Nat} : LawfulEqOrd (FixedBytes width) where
  eq_of_compare h := FixedBytes.ext (LawfulEqOrd.eq_of_compare h)

instance : Ord SessionKey := lexOrd

instance : TransOrd SessionKey := inferInstanceAs (TransCmp (compareLex _ _))

instance : LawfulEqOrd SessionKey where
  eq_of_compare h := by
    simp only [compare,compareLex_eq_eq,compareOn] at h
    exact Prod.ext (LawfulEqOrd.eq_of_compare h.1) (LawfulEqOrd.eq_of_compare h.2)

def RoomRealtime.key (realtime : RoomRealtime W) : SessionKey := (realtime.source,realtime.session)

def maxReplaySessions : Nat := 128
def maxRealtimeSessions : Nat := 128
def sessionCarrierDomain : List UInt8 := ascii "walkie hhhs pitch session carrier v1\x00"

/-- Where the two rooms differ: the sessions they remember, the messages that reach the realtime
decoder and the frames that are forwarded. -/
structure RealtimeHost (W : WireLibrary) where
  capacity : Nat
  takes : List UInt8 → Bool
  shows : W.Frame → Bool

def nativeHost (W : WireLibrary) : RealtimeHost W where
  capacity := maxReplaySessions
  takes _ := true
  shows _ := true

/-- The browser tries the session carrier first, and forwards only MIDI. -/
def browserHost (isMidi : W.Frame → Bool) : RealtimeHost W where
  capacity := maxRealtimeSessions
  takes bytes := !decide (sessionCarrierDomain <+: bytes)
  shows := isMidi

structure RealtimeRoom where
  endpoint : PeerId
  identity : RoomIdentity
  replay : ReplayWindow SessionKey

/-- A message of the room's topic, and the frame that is forwarded for it. -/
def handleMessage (host : RealtimeHost W) (bytes : List UInt8) (room : RealtimeRoom) :
    RealtimeRoom × Option (RoomRealtime W) :=
  if host.takes bytes = false then (room,none)
  else
    match RoomRealtime.decode W room.identity bytes with
    | .error _ => (room,none)
    | .ok realtime =>
      if realtime.source = room.endpoint then (room,none)
      else if room.replay.Fresh realtime.key realtime.sequence.toNat then
        ({ room with
            replay := room.replay.remember host.capacity realtime.key realtime.sequence.toNat },
          if host.shows realtime.frame then some realtime else none)
      else (room,none)

def forwarded (host : RealtimeHost W) : RealtimeRoom → List (List UInt8) → List (RoomRealtime W)
  | _, [] => []
  | room, bytes :: messages => (handleMessage host bytes room).2.toList ++
      forwarded host (handleMessage host bytes room).1 messages

/-- No message of the run evicts the session from the window. -/
def KeepsSession (host : RealtimeHost W) (key : SessionKey) :
    RealtimeRoom → List (List UInt8) → Prop
  | _, [] => True
  | room, bytes :: messages =>
    (key ∈ room.replay → key ∈ (handleMessage host bytes room).1.replay) ∧
      KeepsSession host key (handleMessage host bytes room).1 messages

def Ordered (frames : List (RoomRealtime W)) : Prop :=
  frames.Pairwise fun earlier later => earlier.key = later.key → earlier.sequence < later.sequence

/-- The frame of another endpoint that a message reaches the window with. -/
def foreignFrame (host : RealtimeHost W) (room : RealtimeRoom) (bytes : List UInt8) :
    Option (RoomRealtime W) :=
  if host.takes bytes = false then none
  else (RoomRealtime.decode W room.identity bytes).toOption.filter fun realtime =>
    realtime.source ≠ room.endpoint

variable {host : RealtimeHost W} {room : RealtimeRoom} {bytes : List UInt8}
  {messages : List (List UInt8)} {key : SessionKey}

def sequenceNumber (realtime : RoomRealtime W) : Nat := realtime.sequence.toNat

theorem foreignFrame_eq_some {realtime : RoomRealtime W} :
    foreignFrame host room bytes = some realtime ↔ host.takes bytes = true ∧
      RoomRealtime.decode W room.identity bytes = .ok realtime ∧
        realtime.source ≠ room.endpoint := by
  unfold foreignFrame
  cases htakes : host.takes bytes with
  | false => simp
  | true =>
    cases hdecoded : RoomRealtime.decode W room.identity bytes with
    | error stop => simp [Except.toOption]
    | ok found =>
      simp only [Bool.true_eq_false,if_false,Except.toOption,Option.filter_eq_some_iff,
        Option.some.injEq,decide_eq_true_eq,true_and,Except.ok.injEq]

theorem handleMessage_of_none (h : foreignFrame host room bytes = none) :
    handleMessage host bytes room = (room,none) := by
  unfold handleMessage
  split
  next => rfl
  next htakes =>
    split
    next => rfl
    next realtime hdecoded =>
      by_cases hown : realtime.source = room.endpoint
      · rw [if_pos hown]
      · have hsome := foreignFrame_eq_some.mpr ⟨by simpa using htakes,hdecoded,hown⟩
        rw [h] at hsome
        cases hsome

theorem handleMessage_of_some {realtime : RoomRealtime W}
    (h : foreignFrame host room bytes = some realtime) :
    (handleMessage host bytes room).1 = { room with
        replay := room.replay.next host.capacity RoomRealtime.key sequenceNumber realtime } ∧
      (handleMessage host bytes room).2 =
        if room.replay.Fresh realtime.key (sequenceNumber realtime) ∧ host.shows realtime.frame
        then some realtime else none := by
  obtain ⟨htakes,hdecoded,hown⟩ := foreignFrame_eq_some.mp h
  simp only [handleMessage,htakes,Bool.true_eq_false,if_false,hdecoded,if_neg hown,
    ReplayWindow.next,sequenceNumber]
  by_cases hfresh : room.replay.Fresh realtime.key realtime.sequence.toNat
  · simp only [hfresh,if_true,true_and,and_self]
  · simp only [hfresh,if_false,false_and,and_self]

theorem forwarded_eq : forwarded host room messages =
    (room.replay.accepted host.capacity RoomRealtime.key sequenceNumber
      (messages.filterMap (foreignFrame host room))).filter
        fun realtime => host.shows realtime.frame := by
  induction messages generalizing room with
  | nil => rfl
  | cons bytes messages ih =>
    cases hframe : foreignFrame host room bytes with
    | none => simp only [forwarded,handleMessage_of_none hframe,List.filterMap_cons,hframe,
        Option.toList_none,List.nil_append,ih]
    | some realtime =>
      obtain ⟨hroom,hout⟩ := handleMessage_of_some hframe
      simp only [forwarded,hroom,hout,List.filterMap_cons,hframe,ih,ReplayWindow.accepted]
      -- The later frames are read the same way: no message changes the endpoint or the identity.
      have hsame : ∀ replay, foreignFrame host { room with replay } = foreignFrame host room :=
        fun replay => rfl
      rw [hsame]
      by_cases hfresh : room.replay.Fresh realtime.key (sequenceNumber realtime)
      · by_cases hshows : host.shows realtime.frame
        · simp [hfresh,hshows]
        · simp [hfresh,hshows]
      · simp [hfresh]

theorem keeps_of_keepsSession (h : KeepsSession host key room messages) :
    ReplayWindow.Keeps host.capacity RoomRealtime.key sequenceNumber key room.replay
      (messages.filterMap (foreignFrame host room)) := by
  induction messages generalizing room with
  | nil => trivial
  | cons bytes messages ih =>
    obtain ⟨hstep,hrest⟩ := h
    cases hframe : foreignFrame host room bytes with
    | none =>
      rw [handleMessage_of_none hframe] at hrest
      simpa only [List.filterMap_cons,hframe] using ih hrest
    | some realtime =>
      rw [(handleMessage_of_some hframe).1] at hstep hrest
      simp only [List.filterMap_cons,hframe]
      exact ⟨hstep,ih hrest⟩

theorem forwarded_increasing (h : KeepsSession host key room messages) :
    ((forwarded host room messages).filter fun realtime => realtime.key = key).Pairwise
      (fun earlier later => earlier.sequence < later.sequence) := by
  have hincreasing := (ReplayWindow.accepted_increasing (keeps_of_keepsSession h)).1
  rw [forwarded_eq,List.filter_comm]
  exact (hincreasing.sublist List.filter_sublist).imp fun hlt => UInt64.lt_iff_toNat_lt.mpr hlt

theorem handleMessage_evicts (hkey : key ∈ room.replay)
    (h : key ∉ (handleMessage host bytes room).1.replay) :
    room.replay.size = host.capacity ∧ ∃ realtime, foreignFrame host room bytes = some realtime ∧
      realtime.key ∉ room.replay ∧ realtime.key ≠ key := by
  cases hframe : foreignFrame host room bytes with
  | none =>
    rw [handleMessage_of_none hframe] at h
    exact absurd hkey h
  | some realtime =>
    rw [(handleMessage_of_some hframe).1] at h
    obtain ⟨hne,hfull,hnew⟩ := ReplayWindow.next_drops hkey h
    exact ⟨hfull,realtime,rfl,hnew,hne.symm⟩

theorem forwarded_ordered_of_few {known : List SessionKey} (hfew : known.length ≤ host.capacity)
    (hroom : ∀ held ∈ room.replay, held ∈ known)
    (hmessages : ∀ bytes ∈ messages, ∀ realtime, foreignFrame host room bytes = some realtime →
      realtime.key ∈ known) : Ordered (forwarded host room messages) := by
  have hitems : ∀ realtime ∈ messages.filterMap (foreignFrame host room),
      RoomRealtime.key realtime ∈ known := by
    intro realtime hmem
    obtain ⟨bytes,hbytes,hframe⟩ := List.mem_filterMap.mp hmem
    exact hmessages bytes hbytes realtime hframe
  rw [forwarded_eq]
  have hordered : (room.replay.accepted host.capacity RoomRealtime.key sequenceNumber
      (messages.filterMap (foreignFrame host room))).Pairwise _ :=
    ReplayWindow.accepted_ordered_of_few hfew hroom hitems
  refine (hordered.sublist List.filter_sublist).imp fun hlt hkey => ?_
  exact UInt64.lt_iff_toNat_lt.mpr (hlt hkey)

/-- Frames of a session are forwarded in increasing order while the session is in the window. It
leaves the window only for a frame of another session, when the window is full, so never where no
more sessions are heard than there are places. -/
theorem realtime_replay_bounded (host : RealtimeHost W) (room : RealtimeRoom)
    (messages : List (List UInt8)) :
    (∀ key, KeepsSession host key room messages →
      ((forwarded host room messages).filter fun realtime => realtime.key = key).Pairwise
        (fun earlier later => earlier.sequence < later.sequence)) ∧
    (∀ bytes key, key ∈ room.replay → key ∉ (handleMessage host bytes room).1.replay →
      room.replay.size = host.capacity ∧ ∃ realtime, foreignFrame host room bytes = some realtime ∧
        realtime.key ∉ room.replay ∧ realtime.key ≠ key) ∧
    ∀ known : List SessionKey, known.length ≤ host.capacity →
      (∀ held ∈ room.replay, held ∈ known) →
      (∀ bytes ∈ messages, ∀ realtime, foreignFrame host room bytes = some realtime →
        realtime.key ∈ known) → Ordered (forwarded host room messages) :=
  ⟨fun _ => forwarded_increasing,fun _ _ => handleMessage_evicts,
    fun _ => forwarded_ordered_of_few⟩

section Evicted

def plainRoom : RealtimeRoom where
  endpoint := .ofNat 32 0
  identity := ⟨.ofNat 32 0⟩
  replay := ∅

def firstFrame (session : Nat) : RoomRealtime plainWire where
  source := .ofNat 32 7
  session := .ofNat session
  sequence := 0
  frame := ([] : List UInt8)

def firstMessage (session : Nat) : List UInt8 :=
  (firstFrame session).signedPart plainRoom.identity [] ++ (FixedBytes.ofNat 64 0).bytes

/-- One session more than the window has places for, and the first one again. -/
def sessionsAndReplay : List Nat := List.range 129 ++ [0]

theorem foreignFrame_firstMessage (host : RealtimeHost plainWire) (session : Nat)
    (htakes : host.takes (firstMessage session) = true) :
    foreignFrame host plainRoom (firstMessage session) = some (firstFrame session) := by
  have hlayout : (firstFrame session).Layout plainRoom.identity (firstMessage session) :=
    ⟨[],.ofNat 64 0,(firstFrame session).source,rfl,by decide,rfl,by simp [plainWire],rfl⟩
  have hsource : FixedBytes.ofNat 32 7 ≠ FixedBytes.ofNat 32 0 := by decide
  have hframe : ByteFormat.Canonical (fun frame bytes => plainWire.encodeFrame frame = some bytes)
      plainWire.decodeFrame := fun _ _ => by simp [plainWire,eq_comm]
  exact foreignFrame_eq_some.mpr ⟨htakes,decode_of_layout hframe hlayout,hsource⟩

theorem browserHost_takes (isMidi : plainWire.Frame → Bool) (session : Nat) :
    (browserHost isMidi).takes (firstMessage session) = true := by
  have hdomain : realtimeDomain <+: firstMessage session := by
    simp only [firstMessage,RoomRealtime.signedPart,List.append_assoc,List.prefix_append]
  simp only [browserHost,Bool.not_eq_true',decide_eq_false_iff_not]
  intro hcarrier
  cases List.prefix_or_prefix_of_prefix hdomain hcarrier with
  | inl h => exact absurd h (by decide)
  | inr h => exact absurd h (by decide)

theorem filterMap_firstMessage (host : RealtimeHost plainWire)
    (htakes : ∀ session, host.takes (firstMessage session) = true) (sessions : List Nat) :
    (sessions.map firstMessage).filterMap (foreignFrame host plainRoom) =
      sessions.map firstFrame := by
  induction sessions with
  | nil => rfl
  | cons session sessions ih =>
    simp only [List.map_cons,List.filterMap_cons,
      foreignFrame_firstMessage host session (htakes session),ih]

/-- The replayed frame is forwarded again: its session made room for the last one. -/
theorem replay_after_eviction :
    ¬ Ordered (forwarded (nativeHost plainWire) plainRoom (sessionsAndReplay.map firstMessage)) ∧
      ¬ Ordered (forwarded (browserHost fun _ : plainWire.Frame => true) plainRoom
        (sessionsAndReplay.map firstMessage)) := by
  have hlength : (plainRoom.replay.accepted 128 RoomRealtime.key sequenceNumber
      (sessionsAndReplay.map firstFrame)).length = (sessionsAndReplay.map firstFrame).length := by
    decide +kernel
  have hall := ReplayWindow.accepted_sublist.eq_of_length hlength
  have htwice : List.Sublist [0,0] sessionsAndReplay := by decide +kernel
  have haccepted : ¬ Ordered (sessionsAndReplay.map firstFrame) := by
    intro hordered
    have hpair : Ordered [firstFrame 0,firstFrame 0] := hordered.sublist (htwice.map firstFrame)
    simp [Ordered] at hpair
  constructor
  · rw [forwarded_eq,filterMap_firstMessage _ fun _ => rfl]
    simpa [nativeHost,maxReplaySessions,hall] using haccepted
  · rw [forwarded_eq,filterMap_firstMessage _ (browserHost_takes _)]
    simpa [browserHost,maxRealtimeSessions,hall] using haccepted

end Evicted

end WalkieSongie.Gossip
