import WalkieSongie.HostViews
import WalkieSongie.ReplicaWorker
import WalkieSongie.SortedRows
set_option autoImplicit false

/-!
A client that starts from a host's snapshot and applies every later event: when it shows what the
host does.
-/

namespace WalkieSongie.Client
open Replica (RoomLane)

variable {T : TuningLibrary}

def noPitches : SharedPitchSet := ⟨∅,∅⟩

def applyNativeDelta (snapshot : AppSnapshot T) : AppEvent T → AppSnapshot T
  | .snapshot replacement => replacement
  | .roomChanged roomName roomTopic ticket =>
    let snapshot := if roomName = none then
        { snapshot with sharedPitches := noPitches, pieces := [], voices := [], peers := [] }
      else snapshot
    { snapshot with roomName := roomName, roomTopic := roomTopic, roomTicket := ticket }
  | .tuningChanged definition =>
    { snapshot with tuningId := some (T.id definition), tuning := some definition }
  | .roundTableChanged config => { snapshot with roundTable := config }
  | .pitchSetChanged shared => { snapshot with sharedPitches := shared }
  | .pieceUpserted piece =>
    { snapshot with pieces := SortedRows.upsert PieceSnapshot.id piece snapshot.pieces }
  | .pieceRemoved piece =>
    { snapshot with pieces := SortedRows.remove PieceSnapshot.id piece snapshot.pieces }
  | .roomConfigChanged piecesLocked availableEmojis =>
    { snapshot with piecesLocked := piecesLocked, availableEmojis := availableEmojis }
  | .voiceUpdated voice =>
    { snapshot with voices := SortedRows.upsert VoiceSnapshot.author voice snapshot.voices }
  | .voiceExpired author session =>
    { snapshot with
        voices := snapshot.voices.filter fun voice =>
          voice.author ≠ author ∨ voice.session ≠ session }
  | .peerUpdated peer =>
    { snapshot with peers := SortedRows.upsert PeerSnapshot.author peer snapshot.peers }
  | .peerRemoved author =>
    { snapshot with peers := SortedRows.remove PeerSnapshot.author author snapshot.peers }
  | .midiPortsChanged inputs outputs =>
    { snapshot with midiInputs := inputs, midiOutputs := outputs }
  | .realtimeMidi => snapshot
  | .diagnostic _ _ => snapshot

def laneTag : RoomLane → UInt8
  | .music => 1
  | .extension => 2

structure PeerSyncState where
  required : UInt8
  complete : UInt8

def PeerSyncState.synchronized (sync : PeerSyncState) : Bool :=
  sync.required ≠ 0 && sync.complete &&& sync.required = sync.required

def PeerSyncState.updateRequirements (sync : PeerSyncState) (support : UInt8) (path : PeerPath) :
    PeerSyncState :=
  ⟨support,if path = .disconnected then 0 else sync.complete &&& support⟩

def PeerSyncState.markLane (sync : PeerSyncState) (lane : RoomLane) (synchronized : Bool) :
    PeerSyncState :=
  { sync with complete :=
      if synchronized then sync.complete ||| laneTag lane
      else sync.complete &&& ~~~ laneTag lane }

/-- A host's snapshot, and what it knows of its peers' lanes. -/
structure HostState (T : TuningLibrary) where
  snapshot : AppSnapshot T
  peerSync : ActorId → Option PeerSyncState

/-- A host's state after a call, with the events that the call emits. -/
abbrev Emitted (T : TuningLibrary) := HostState T × List (AppEvent T)

namespace HostState

variable (host : HostState T)

def told (told : Told T) : Emitted T := ({ host with snapshot := told.snapshot },told.events)

def setSync (author : ActorId) (sync : Option PeerSyncState) : HostState T :=
  { host with peerSync := fun other => if other = author then sync else host.peerSync other }

def isVoice (author : ActorId) (session : Nat) (voice : VoiceSnapshot) : Bool :=
  voice.author = author && voice.session = session

def applyVoice (voice : VoiceSnapshot) : Emitted T :=
  let voices := host.snapshot.voices
  match voices.find? (isVoice voice.author voice.session) with
  | some existing =>
    if voice.sequence ≤ existing.sequence then (host,[])
    else
      ({ host with snapshot := { host.snapshot with
          voices := SortedRows.replaceFirst (isVoice voice.author voice.session) voice voices } },
        [.voiceUpdated voice])
  | none =>
    ({ host with snapshot := { host.snapshot with voices := voices ++ [voice] } },
      [.voiceUpdated voice])

def showPeer (peer : PeerSnapshot) : Emitted T :=
  ({ host with snapshot := { host.snapshot with
      peers := SortedRows.upsert PeerSnapshot.author peer host.snapshot.peers } },
    [.peerUpdated peer])

def findPeer (author : ActorId) : Option PeerSnapshot :=
  host.snapshot.peers.find? fun peer => peer.author = author

def installRoom (roomName : Option String) (topic ticket : String) : Emitted T :=
  (⟨{ host.snapshot with
      roomName := roomName, roomTopic := some topic, roomTicket := some ticket,
      peers := [], voices := [] },fun _ => none⟩,
    [.roomChanged roomName (some topic) (some ticket)])

end HostState

def u64Max : Nat := 2^64-1

section Native

inductive NativeCall (T : TuningLibrary) where
  | applyRoomView (view : RoomView T)
  | applyPresence (author : ActorId) (session sequence : Nat)
      (pitch : Option TunedPeriodicPitch) (expiresAtMs : Nat)
  | updatePeer (author : ActorId) (endpointId : String) (discovery : DiscoverySource)
      (path : PeerPath) (support : UInt8)
  | removePeer (author : ActorId)
  | markPeerLaneSynchronized (author : ActorId) (lane : RoomLane) (synchronized : Bool)
  | installRoom (roomName : Option String) (topic ticket : String)
  | leaveRoom
  | updateMidiPorts (inputs outputs : List MidiPortSnapshot)
  | emitDiagnostic (code message : String)

namespace AppRuntime

variable (host : HostState T)

def updatePeer (author : ActorId) (endpointId : String) (discovery : DiscoverySource)
    (path : PeerPath) (support : UInt8) : Emitted T :=
  let sync := ((host.peerSync author).getD ⟨0,0⟩).updateRequirements support path
  let roundTripMs := (host.findPeer author).bind PeerSnapshot.roundTripMs
  (host.setSync author (some sync)).showPeer
    ⟨author,endpointId,path,discovery,roundTripMs,sync.synchronized⟩

def removePeer (author : ActorId) : Emitted T :=
  let host := host.setSync author none
  ({ host with snapshot := { host.snapshot with
      peers := SortedRows.remove PeerSnapshot.author author host.snapshot.peers } },
    [.peerRemoved author])

def markPeerLaneSynchronized (author : ActorId) (lane : RoomLane) (synchronized : Bool) :
    Emitted T :=
  let sync := ((host.peerSync author).getD ⟨laneTag lane,0⟩).markLane lane synchronized
  let host := host.setSync author (some sync)
  match host.findPeer author with
  | none => (host,[])
  | some peer =>
    if peer.synchronized = sync.synchronized then (host,[])
    else host.showPeer { peer with synchronized := sync.synchronized }

def leaveRoom : Emitted T :=
  (⟨{ host.snapshot with
      roomName := none, roomTopic := none, roomTicket := none, sharedPitches := noPitches,
      pieces := [], piecesLocked := false, availableEmojis := none, voices := [], peers := [] },
      fun _ => none⟩,
    [.roomChanged none none none])

def updateMidiPorts (inputs outputs : List MidiPortSnapshot) : Emitted T :=
  if host.snapshot.midiInputs = inputs ∧ host.snapshot.midiOutputs = outputs then (host,[])
  else
    ({ host with snapshot := { host.snapshot with midiInputs := inputs, midiOutputs := outputs } },
      [.midiPortsChanged inputs outputs])

def call : NativeCall T → Emitted T
  -- The failures of the MIDI outputs come as diagnostics of their own.
  | .applyRoomView view => host.told (takeRoomView host.snapshot view)
  | .applyPresence author session sequence pitch expiresAtMs =>
    host.applyVoice ⟨author,session,sequence,pitch,expiresAtMs⟩
  | .updatePeer author endpointId discovery path support =>
    updatePeer host author endpointId discovery path support
  | .removePeer author => removePeer host author
  | .markPeerLaneSynchronized author lane synchronized =>
    markPeerLaneSynchronized host author lane synchronized
  | .installRoom roomName topic ticket => host.installRoom roomName topic ticket
  | .leaveRoom => leaveRoom host
  | .updateMidiPorts inputs outputs => updateMidiPorts host inputs outputs
  | .emitDiagnostic code message => (host,[.diagnostic code message])

end AppRuntime

end Native

section Browser

inductive BrowserCall (T : TuningLibrary) where
  | applyRoomView (view : RoomView T)
  | applyNonMusicRoomView (view : RoomView T)
  | applySessionPitchView (shared : SharedPitchSet)
  | applyPresence (actor : ActorId) (session sequence : Nat)
      (pitch : Option TunedPeriodicPitch) (nowMs : Nat)
  | updatePeer (actor : ActorId) (endpointId : String) (discovery : DiscoverySource)
      (path : PeerPath) (support : UInt8)
  | markLaneSynchronized (actor : ActorId) (lane : RoomLane)
  | installRoom (roomName : Option String) (topic ticket : String)
  | leaveRoom
  | realtimeMidi
  | emitDiagnostic (code message : String)

namespace BrowserHost

variable (host : HostState T)

def updatePeer (actor : ActorId) (endpointId : String) (discovery : DiscoverySource)
    (path : PeerPath) (support : UInt8) : Emitted T :=
  let before := (host.peerSync actor).getD ⟨0,0⟩
  let sync : PeerSyncState := ⟨support,if path = .disconnected then 0 else before.complete⟩
  (host.setSync actor (some sync)).showPeer
    ⟨actor,endpointId,path,discovery,none,sync.synchronized⟩

def markLaneSynchronized (actor : ActorId) (lane : RoomLane) : Emitted T :=
  let sync := ((host.peerSync actor).getD ⟨laneTag lane,0⟩).markLane lane true
  let host := host.setSync actor (some sync)
  match host.findPeer actor with
  | none => (host,[])
  | some peer => host.showPeer { peer with synchronized := sync.synchronized }

/-- Leaving keeps the room's configuration. -/
def leaveRoom : Emitted T :=
  (⟨{ host.snapshot with
      roomName := none, roomTopic := none, roomTicket := none, sharedPitches := noPitches,
      pieces := [], voices := [], peers := [] },fun _ => none⟩,
    [.roomChanged none none none])

def call : BrowserCall T → Emitted T
  | .applyRoomView view => host.told (applyRoomView host.snapshot view)
  | .applyNonMusicRoomView view => host.told (applyNonMusicRoomView host.snapshot view)
  | .applySessionPitchView shared => host.told (applySessionPitchView host.snapshot shared)
  | .applyPresence actor session sequence pitch nowMs =>
    host.applyVoice ⟨actor,session,sequence,pitch,min (nowMs+1500) u64Max⟩
  | .updatePeer actor endpointId discovery path support =>
    updatePeer host actor endpointId discovery path support
  | .markLaneSynchronized actor lane => markLaneSynchronized host actor lane
  | .installRoom roomName topic ticket => host.installRoom roomName topic ticket
  | .leaveRoom => leaveRoom host
  | .realtimeMidi => (host,[.realtimeMidi])
  | .emitDiagnostic code message => (host,[.diagnostic code message])

end BrowserHost

end Browser

section Shows

/-- The client shows what the host does, voices in any order. -/
structure AppSnapshot.Shows (host client : AppSnapshot T) : Prop where
  roomName : host.roomName = client.roomName
  roomTopic : host.roomTopic = client.roomTopic
  roomTicket : host.roomTicket = client.roomTicket
  tuning : host.tuning = client.tuning
  roundTable : host.roundTable = client.roundTable
  sharedPitches : host.sharedPitches = client.sharedPitches
  pieces : host.pieces = client.pieces
  piecesLocked : host.piecesLocked = client.piecesLocked
  availableEmojis : host.availableEmojis = client.availableEmojis
  voices : ∀ voice, voice ∈ host.voices ↔ voice ∈ client.voices
  peers : host.peers = client.peers

def voiceKey (voice : VoiceSnapshot) : ActorId × Nat := (voice.author,voice.session)

/-- One piece an id, in order, and one voice a session of an author. -/
structure AppSnapshot.Sound (host : AppSnapshot T) : Prop where
  pieces : SortedRows.Sorted PieceSnapshot.id host.pieces
  voices : (host.voices.map voiceKey).Nodup

/-- Between calls: the host is sound, and the client's voices are the host's, one for one. -/
structure AppSnapshot.Tracks (host client : AppSnapshot T) : Prop where
  sorted : SortedRows.Sorted PieceSnapshot.id host.pieces
  distinct : (host.voices.map voiceKey).Nodup
  roomName : host.roomName = client.roomName
  roomTopic : host.roomTopic = client.roomTopic
  roomTicket : host.roomTicket = client.roomTicket
  tuning : host.tuning = client.tuning
  roundTable : host.roundTable = client.roundTable
  sharedPitches : host.sharedPitches = client.sharedPitches
  pieces : host.pieces = client.pieces
  piecesLocked : host.piecesLocked = client.piecesLocked
  availableEmojis : host.availableEmojis = client.availableEmojis
  voices : host.voices.Perm client.voices
  peers : host.peers = client.peers

variable {host client : AppSnapshot T}

theorem AppSnapshot.Tracks.shows (h : host.Tracks client) : host.Shows client where
  roomName := h.roomName
  roomTopic := h.roomTopic
  roomTicket := h.roomTicket
  tuning := h.tuning
  roundTable := h.roundTable
  sharedPitches := h.sharedPitches
  pieces := h.pieces
  piecesLocked := h.piecesLocked
  availableEmojis := h.availableEmojis
  voices _ := h.voices.mem_iff
  peers := h.peers

theorem AppSnapshot.Sound.tracks (h : host.Sound) : host.Tracks host where
  sorted := h.pieces
  distinct := h.voices
  roomName := rfl
  roomTopic := rfl
  roomTicket := rfl
  tuning := rfl
  roundTable := rfl
  sharedPitches := rfl
  pieces := rfl
  piecesLocked := rfl
  availableEmojis := rfl
  voices := .refl _
  peers := rfl

theorem AppSnapshot.Tracks.toSound (h : host.Tracks client) : host.Sound := ⟨h.sorted,h.distinct⟩

end Shows

section Views

theorem pieceSnapshots_sorted (view : RoomView T) :
    SortedRows.Sorted PieceSnapshot.id view.pieceSnapshots := by
  refine List.pairwise_map.mpr ?_
  exact Std.ExtTreeMap.ordered_keys_toList.imp fun hlt => Nat.compare_eq_lt.mp hlt

theorem contains_eq_any (view : RoomView T) (id : Nat) :
    view.pieces.contains id = view.pieceSnapshots.any fun piece => piece.id = id := by
  rw [Bool.eq_iff_iff,← Std.ExtTreeMap.mem_iff_contains,← Std.ExtTreeMap.mem_keys,
    ← Std.ExtTreeMap.map_fst_toList_eq_keys,RoomView.pieceSnapshots,List.any_map,List.any_eq_true,
    List.mem_map]
  simp only [Function.comp_apply,decide_eq_true_eq]

theorem foldl_pieceRemoved (pieces : List PieceSnapshot) (client : AppSnapshot T) :
    (pieces.map fun piece => .pieceRemoved piece.id).foldl applyNativeDelta client =
      { client with pieces :=
          SortedRows.removeAll PieceSnapshot.id (pieces.map PieceSnapshot.id) client.pieces } := by
  induction pieces generalizing client with
  | nil => rfl
  | cons piece pieces ih =>
    simp only [List.map_cons,List.foldl_cons,ih]
    rfl

theorem foldl_pieceUpserted (pieces : List PieceSnapshot) (client : AppSnapshot T) :
    (pieces.map .pieceUpserted).foldl applyNativeDelta client =
      { client with pieces := SortedRows.upsertAll PieceSnapshot.id pieces client.pieces } := by
  induction pieces generalizing client with
  | nil => rfl
  | cons piece pieces ih =>
    simp only [List.map_cons,List.foldl_cons,ih]
    rfl

theorem foldl_pieceEvents {client : AppSnapshot T} (view : RoomView T)
    (h : SortedRows.Sorted PieceSnapshot.id client.pieces) :
    (Told.pieceEvents client.pieces view).foldl applyNativeDelta client =
      { client with pieces := view.pieceSnapshots } := by
  have hdifference := h.difference (pieceSnapshots_sorted view)
  simp only [Told.pieceEvents,List.foldl_append,foldl_pieceRemoved,foldl_pieceUpserted,
    contains_eq_any]
  rw [hdifference]

/-- The client that has read the events tracks the snapshot. -/
def Told.Tracks (told : Told T) (client : AppSnapshot T) : Prop :=
  told.snapshot.Tracks (told.events.foldl applyNativeDelta client)

variable {told : Told T} {client : AppSnapshot T} {view : RoomView T}

theorem Told.Tracks.tuning (h : told.Tracks client) : (told.tuning view).Tracks client := by
  unfold Told.tuning
  split
  · exact h
  · rw [Told.Tracks,List.foldl_append]
    exact { h with tuning := rfl }

theorem Told.Tracks.roundTable (h : told.Tracks client) :
    (told.roundTable view).Tracks client := by
  unfold Told.roundTable
  split
  · exact h
  · rw [Told.Tracks,List.foldl_append]
    exact { h with roundTable := rfl }

theorem Told.Tracks.sharedPitches (h : told.Tracks client) (shared : SharedPitchSet) :
    (told.sharedPitches shared).Tracks client := by
  unfold Told.sharedPitches
  split
  · exact h
  · rw [Told.Tracks,List.foldl_append]
    exact { h with sharedPitches := rfl }

theorem Told.Tracks.pieces (h : told.Tracks client) : (told.pieces view).Tracks client := by
  have hsorted : SortedRows.Sorted PieceSnapshot.id
      (told.events.foldl applyNativeDelta client).pieces :=
    AppSnapshot.Tracks.pieces h ▸ h.sorted
  have hpieces := AppSnapshot.Tracks.pieces h
  simp only [Told.pieces,Told.Tracks,List.foldl_append]
  rw [hpieces,foldl_pieceEvents view hsorted]
  exact { h with
    sorted := pieceSnapshots_sorted view
    pieces := rfl }

theorem Told.Tracks.config (h : told.Tracks client) : (told.config view).Tracks client := by
  unfold Told.config
  split
  · exact h
  · rw [Told.Tracks,List.foldl_append]
    exact { h with
      piecesLocked := rfl
      availableEmojis := rfl }

variable {host : AppSnapshot T}

theorem AppRuntime.takeRoomView_tracks (h : host.Tracks client) :
    (AppRuntime.takeRoomView host view).Tracks client := by
  have hstart : (Told.mk host []).Tracks client := h
  exact ((hstart.tuning.sharedPitches view.music.sharedPitches).pieces).config

theorem BrowserHost.applyRoomViewInner_tracks (h : host.Tracks client)
    (applySharedPitches : Bool) :
    (BrowserHost.applyRoomViewInner host view applySharedPitches).Tracks client := by
  have hstart : (Told.mk host []).Tracks client := h
  cases applySharedPitches with
  | false => exact hstart.tuning.roundTable.pieces.config
  | true =>
    exact ((hstart.tuning.roundTable.sharedPitches view.music.sharedPitches).pieces).config

end Views

section Calls

/-- After a call, the client that has read its events tracks the host. -/
def Emitted.Tracks (emitted : Emitted T) (client : AppSnapshot T) : Prop :=
  emitted.1.snapshot.Tracks (emitted.2.foldl applyNativeDelta client)

def Emitted.Shows (emitted : Emitted T) (client : AppSnapshot T) : Prop :=
  emitted.1.snapshot.Shows (emitted.2.foldl applyNativeDelta client)

def HostState.Fresh (host : HostState T) (author : ActorId) (session sequence : Nat) : Prop :=
  ∀ existing, host.snapshot.voices.find? (HostState.isVoice author session) = some existing →
    existing.sequence < sequence

/-- The first voice that the client shows of the author, if any, is of this session. -/
def AppSnapshot.ShowsSession (client : AppSnapshot T) (author : ActorId) (session : Nat) : Prop :=
  ∀ shown, client.voices.find? (fun voice => voice.author = author) = some shown →
    shown.session = session

/-- A room may be installed: under a name where no voice and no peer of the last room is left, by a
ticket where no pitch and no piece is there. -/
def AppSnapshot.Installs (host : AppSnapshot T) (roomName : Option String) : Prop :=
  if roomName = none then host.sharedPitches = noPitches ∧ host.pieces = []
  else host.voices = [] ∧ host.peers = []

variable {host : HostState T} {client : AppSnapshot T}

theorem isVoice_iff {author : ActorId} {session : Nat} {voice : VoiceSnapshot} :
    HostState.isVoice author session voice = true ↔ voiceKey voice = (author,session) := by
  simp [HostState.isVoice,voiceKey]

theorem perm_upsert_voice {voice shown : VoiceSnapshot} {voices : List VoiceSnapshot}
    (h : voices.find? (fun other => other.author = voice.author) = some shown) :
    ∃ rest, voices.Perm (shown :: rest) ∧
      (SortedRows.upsert VoiceSnapshot.author voice voices).Perm (voice :: rest) := by
  have hany : (voices.any fun other => other.author = voice.author) = true := by
    have hauthor : shown.author = voice.author := by simpa using List.find?_some h
    rw [List.any_eq_true]
    exact ⟨shown,List.mem_of_find?_eq_some h,by simpa using hauthor⟩
  rw [SortedRows.upsert,if_pos hany]
  exact SortedRows.perm_replaceFirst voice h

theorem perm_upsert_new {voice : VoiceSnapshot} {voices : List VoiceSnapshot}
    (h : voices.find? (fun other => other.author = voice.author) = none) :
    (SortedRows.upsert VoiceSnapshot.author voice voices).Perm (voices ++ [voice]) := by
  have hany : ¬ (voices.any fun other => other.author = voice.author) = true := by
    rw [List.any_eq_true]
    rintro ⟨other,hmem,hauthor⟩
    exact List.find?_eq_none.mp h other hmem hauthor
  rw [SortedRows.upsert,if_neg hany]
  exact List.perm_insertionSort _ _

theorem voice_unique {voices : List VoiceSnapshot} (h : (voices.map voiceKey).Nodup)
    {first second : VoiceSnapshot} (hfirst : first ∈ voices) (hsecond : second ∈ voices)
    (hkey : voiceKey first = voiceKey second) : first = second :=
  List.inj_on_of_nodup_map h hfirst hsecond hkey

theorem applyVoice_stale {voice : VoiceSnapshot}
    (h : ¬ host.Fresh voice.author voice.session voice.sequence) :
    host.applyVoice voice = (host,[]) := by
  unfold HostState.Fresh at h
  push Not at h
  obtain ⟨existing,hfind,hstale⟩ := h
  simp [HostState.applyVoice,hfind,hstale]

theorem applyVoice_fresh {voice : VoiceSnapshot}
    (h : host.Fresh voice.author voice.session voice.sequence) :
    ∃ voices, host.applyVoice voice =
        ({ host with snapshot := { host.snapshot with voices := voices } },
          [.voiceUpdated voice]) ∧
      ((∃ existing rest, host.snapshot.voices.find?
            (HostState.isVoice voice.author voice.session) = some existing ∧
          host.snapshot.voices.Perm (existing :: rest) ∧ voices.Perm (voice :: rest)) ∨
        host.snapshot.voices.find? (HostState.isVoice voice.author voice.session) = none ∧
          voices = host.snapshot.voices ++ [voice]) := by
  cases hfind : host.snapshot.voices.find? (HostState.isVoice voice.author voice.session) with
  | none => exact ⟨_,by simp [HostState.applyVoice,hfind],.inr ⟨rfl,rfl⟩⟩
  | some existing =>
    have hlater : ¬ voice.sequence ≤ existing.sequence := Nat.not_le.mpr (h existing hfind)
    obtain ⟨rest,hhost,hreplaced⟩ := SortedRows.perm_replaceFirst voice hfind
    refine ⟨_,?_,.inl ⟨existing,rest,rfl,hhost,hreplaced⟩⟩
    simp [HostState.applyVoice,hfind,hlater]

theorem applyVoice_sound (h : host.snapshot.Sound) (voice : VoiceSnapshot) :
    (host.applyVoice voice).1.snapshot.Sound := by
  by_cases hfresh : host.Fresh voice.author voice.session voice.sequence
  · obtain ⟨voices,hcall,hvoices⟩ := applyVoice_fresh hfresh
    rw [hcall]
    refine ⟨h.pieces,?_⟩
    obtain ⟨existing,rest,hfind,hhost,hafter⟩ | ⟨hfind,rfl⟩ := hvoices
    · have hkey : voiceKey existing = voiceKey voice := isVoice_iff.mp (List.find?_some hfind)
      have hnodup := (hhost.map voiceKey).nodup_iff.mp h.voices
      rw [(hafter.map voiceKey).nodup_iff,List.map_cons,← hkey]
      exact hnodup
    · have hother : ∀ other ∈ host.snapshot.voices, voiceKey other ≠ voiceKey voice :=
        fun other hmem hsame => List.find?_eq_none.mp hfind other hmem (isVoice_iff.mpr hsame)
      rw [List.map_append,List.nodup_append]
      refine ⟨h.voices,by simp,?_⟩
      intro key hmem last hlast
      obtain ⟨other,hother',rfl⟩ := List.mem_map.mp hmem
      simp only [List.map_cons,List.map_nil,List.mem_singleton] at hlast
      exact hlast ▸ hother other hother'
  · rw [applyVoice_stale hfresh]
    exact h

theorem applyVoice_tracks (h : host.snapshot.Tracks client) {voice : VoiceSnapshot}
    (hkeeps : host.Fresh voice.author voice.session voice.sequence →
      client.ShowsSession voice.author voice.session) :
    (host.applyVoice voice).Tracks client := by
  have hsound := applyVoice_sound h.toSound voice
  by_cases hfresh : host.Fresh voice.author voice.session voice.sequence
  · obtain ⟨voices,hcall,hvoices⟩ := applyVoice_fresh hfresh
    rw [hcall] at hsound ⊢
    have hsession := hkeeps hfresh
    refine { h with
      sorted := hsound.pieces
      distinct := hsound.voices
      voices := ?_ }
    change voices.Perm (SortedRows.upsert VoiceSnapshot.author voice client.voices)
    -- the client's first voice of the author, if any, is the host's voice of the session
    have hshown : ∀ shown, client.voices.find? (fun other => other.author = voice.author) =
        some shown → shown ∈ host.snapshot.voices ∧ voiceKey shown = voiceKey voice := by
      intro shown hfound
      have hauthor : shown.author = voice.author := by simpa using List.find?_some hfound
      refine ⟨h.voices.mem_iff.mpr (List.mem_of_find?_eq_some hfound),?_⟩
      rw [voiceKey,voiceKey,hauthor,hsession shown hfound]
    cases hfound : client.voices.find? fun other => other.author = voice.author with
    | none =>
      have hnone : ∀ other ∈ host.snapshot.voices, voiceKey other ≠ voiceKey voice := by
        intro other hmem hsame
        have hauthor : other.author = voice.author := congrArg Prod.fst hsame
        exact List.find?_eq_none.mp hfound other (h.voices.mem_iff.mp hmem) (by simpa using hauthor)
      obtain ⟨existing,rest,hfind,-,-⟩ | ⟨-,rfl⟩ := hvoices
      · exact absurd (isVoice_iff.mp (List.find?_some hfind))
          (hnone existing (List.mem_of_find?_eq_some hfind))
      · exact (h.voices.append_right [voice]).trans (perm_upsert_new hfound).symm
    | some shown =>
      obtain ⟨hmem,hkey⟩ := hshown shown hfound
      obtain ⟨rest,hclient,hupsert⟩ := perm_upsert_voice hfound
      obtain ⟨existing,others,hfind,hhost,hafter⟩ | ⟨hfind,-⟩ := hvoices
      · have hsame : existing = shown := by
          refine voice_unique h.distinct (List.mem_of_find?_eq_some hfind) hmem ?_
          rw [isVoice_iff.mp (List.find?_some hfind),hkey,voiceKey]
        subst hsame
        have hrest : others.Perm rest := (hhost.symm.trans (h.voices.trans hclient)).cons_inv
        exact hafter.trans ((hrest.cons voice).trans hupsert.symm)
      · exact absurd (isVoice_iff.mpr hkey) (List.find?_eq_none.mp hfind shown hmem)
  · rw [applyVoice_stale hfresh]
    exact h

theorem applyVoice_only (h : host.snapshot.Tracks client) {voice : VoiceSnapshot}
    (hshows : (host.applyVoice voice).Shows client)
    (hfresh : host.Fresh voice.author voice.session voice.sequence) :
    client.ShowsSession voice.author voice.session := by
  intro shown hfound
  by_contra hsession
  obtain ⟨voices,hcall,hvoices⟩ := applyVoice_fresh hfresh
  rw [hcall] at hshows
  obtain ⟨rest,hclient,hupsert⟩ := perm_upsert_voice hfound
  have hmem := h.voices.mem_iff.mpr (List.mem_of_find?_eq_some hfound)
  have hother : voiceKey shown ≠ voiceKey voice := fun hsame => hsession (congrArg Prod.snd hsame)
  have hkept : shown ∈ voices := by
    obtain ⟨existing,others,hfind,hhost,hafter⟩ | ⟨-,rfl⟩ := hvoices
    · have hexisting := isVoice_iff.mp (List.find?_some hfind)
      rw [hafter.mem_iff]
      cases List.mem_cons.mp (hhost.mem_iff.mp hmem) with
      | inl hsame => exact absurd (hsame ▸ hexisting) hother
      | inr hrest => exact List.mem_cons_of_mem _ hrest
    · exact List.mem_append_left _ hmem
  have hthere := (hshows.voices shown).mp hkept
  have hnodup : (shown :: rest).Nodup :=
    hclient.nodup_iff.mp (h.voices.nodup_iff.mp (List.Nodup.of_map _ h.distinct))
  change shown ∈ SortedRows.upsert VoiceSnapshot.author voice client.voices at hthere
  cases List.mem_cons.mp (hupsert.mem_iff.mp hthere) with
  | inl hsame => exact hsession (hsame ▸ rfl)
  | inr hrest => exact (List.nodup_cons.mp hnodup).1 hrest

theorem showPeer_tracks (h : host.snapshot.Tracks client) (peer : PeerSnapshot) :
    (host.showPeer peer).Tracks client :=
  { h with peers := congrArg (SortedRows.upsert PeerSnapshot.author peer) h.peers }

theorem installRoom_tracks (h : host.snapshot.Tracks client) {roomName : Option String}
    {topic ticket : String} (hinstalls : host.snapshot.Installs roomName) :
    (host.installRoom roomName topic ticket).Tracks client := by
  unfold AppSnapshot.Installs at hinstalls
  cases roomName with
  | none =>
    obtain ⟨hpitches,hpieces⟩ := hinstalls
    exact { h with
      distinct := List.nodup_nil
      roomName := rfl
      roomTopic := rfl
      roomTicket := rfl
      sharedPitches := hpitches
      pieces := hpieces
      voices := .refl _
      peers := rfl }
  | some name =>
    obtain ⟨hvoices,hpeers⟩ := hinstalls
    have hclient : client.voices = [] := List.perm_nil.mp (hvoices ▸ h.voices.symm)
    refine { h with
      distinct := List.nodup_nil
      roomName := rfl
      roomTopic := rfl
      roomTicket := rfl
      voices := ?_
      peers := ?_ }
    · change List.Perm [] client.voices
      rw [hclient]
    · exact hpeers.symm.trans h.peers

theorem installRoom_only (h : host.snapshot.Tracks client) {roomName : Option String}
    {topic ticket : String} (hshows : (host.installRoom roomName topic ticket).Shows client) :
    host.snapshot.Installs roomName := by
  unfold AppSnapshot.Installs
  cases roomName with
  | none => exact ⟨hshows.sharedPitches,hshows.pieces⟩
  | some name =>
    have hclient : client.voices = [] :=
      List.eq_nil_iff_forall_not_mem.mpr fun voice hmem =>
        List.not_mem_nil ((hshows.voices voice).mpr hmem)
    have hpeers : [] = client.peers := hshows.peers
    exact ⟨List.perm_nil.mp (hclient ▸ h.voices),h.peers.trans hpeers.symm⟩

/-- The calls of the native runtime after which the client still shows the host. -/
def NativeCall.Keeps (host : HostState T) (client : AppSnapshot T) : NativeCall T → Prop
  | .applyPresence author session sequence _ _ =>
    host.Fresh author session sequence → client.ShowsSession author session
  | .installRoom roomName _ _ => host.snapshot.Installs roomName
  | .leaveRoom => host.snapshot.piecesLocked = false ∧ host.snapshot.availableEmojis = none
  | _ => True

def BrowserCall.Keeps (host : HostState T) (client : AppSnapshot T) : BrowserCall T → Prop
  | .applyPresence actor session sequence _ _ =>
    host.Fresh actor session sequence → client.ShowsSession actor session
  | .installRoom roomName _ _ => host.snapshot.Installs roomName
  | _ => True

namespace AppRuntime

theorem call_sound (h : host.snapshot.Sound) (input : NativeCall T) :
    (call host input).1.snapshot.Sound := by
  cases input with
  | applyRoomView view => exact (takeRoomView_tracks h.tracks).toSound
  | applyPresence author session sequence pitch expiresAtMs => exact applyVoice_sound h _
  | updatePeer author endpointId discovery path support => exact ⟨h.pieces,h.voices⟩
  | removePeer author => exact ⟨h.pieces,h.voices⟩
  | markPeerLaneSynchronized author lane synchronized =>
    simp only [call,markPeerLaneSynchronized]
    split
    · exact h
    · split
      · exact h
      · exact ⟨h.pieces,h.voices⟩
  | installRoom roomName topic ticket => exact ⟨h.pieces,List.nodup_nil⟩
  | leaveRoom => exact ⟨List.Pairwise.nil,List.nodup_nil⟩
  | updateMidiPorts inputs outputs =>
    simp only [call,updateMidiPorts]
    split
    · exact h
    · exact ⟨h.pieces,h.voices⟩
  | emitDiagnostic code message => exact h

theorem call_tracks (h : host.snapshot.Tracks client) {input : NativeCall T}
    (hkeeps : input.Keeps host client) : (call host input).Tracks client := by
  cases input with
  | applyRoomView view => exact takeRoomView_tracks h
  | applyPresence author session sequence pitch expiresAtMs => exact applyVoice_tracks h hkeeps
  | updatePeer author endpointId discovery path support => exact showPeer_tracks h _
  | removePeer author =>
    exact { h with peers := congrArg (SortedRows.remove PeerSnapshot.author author) h.peers }
  | markPeerLaneSynchronized author lane synchronized =>
    simp only [call,markPeerLaneSynchronized]
    split
    · exact h
    · split
      · exact h
      · exact showPeer_tracks h _
  | installRoom roomName topic ticket => exact installRoom_tracks h hkeeps
  | leaveRoom =>
    exact { h with
      sorted := List.Pairwise.nil
      distinct := List.nodup_nil
      roomName := rfl
      roomTopic := rfl
      roomTicket := rfl
      sharedPitches := rfl
      pieces := rfl
      piecesLocked := hkeeps.1.symm.trans h.piecesLocked
      availableEmojis := hkeeps.2.symm.trans h.availableEmojis
      voices := .refl _
      peers := rfl }
  | updateMidiPorts inputs outputs =>
    simp only [call,updateMidiPorts]
    split
    · exact h
    · exact { h with }
  | emitDiagnostic code message => exact h

theorem call_only (h : host.snapshot.Tracks client) {input : NativeCall T}
    (hshows : (call host input).Shows client) : input.Keeps host client := by
  cases input with
  | applyPresence author session sequence pitch expiresAtMs =>
    exact fun hfresh => applyVoice_only h hshows hfresh
  | installRoom roomName topic ticket => exact installRoom_only h hshows
  | leaveRoom =>
    have hlocked : false = client.piecesLocked := hshows.piecesLocked
    have hemojis : none = client.availableEmojis := hshows.availableEmojis
    exact ⟨h.piecesLocked.trans hlocked.symm,h.availableEmojis.trans hemojis.symm⟩
  | applyRoomView view => trivial
  | updatePeer author endpointId discovery path support => trivial
  | removePeer author => trivial
  | markPeerLaneSynchronized author lane synchronized => trivial
  | updateMidiPorts inputs outputs => trivial
  | emitDiagnostic code message => trivial

end AppRuntime

namespace BrowserHost

theorem call_sound (h : host.snapshot.Sound) (input : BrowserCall T) :
    (call host input).1.snapshot.Sound := by
  cases input with
  | applyRoomView view => exact (applyRoomViewInner_tracks h.tracks true).toSound
  | applyNonMusicRoomView view => exact (applyRoomViewInner_tracks h.tracks false).toSound
  | applySessionPitchView shared =>
    have hstart : (Told.mk host.snapshot []).Tracks host.snapshot := h.tracks
    exact (hstart.sharedPitches shared).toSound
  | applyPresence actor session sequence pitch nowMs => exact applyVoice_sound h _
  | updatePeer actor endpointId discovery path support => exact ⟨h.pieces,h.voices⟩
  | markLaneSynchronized actor lane =>
    simp only [call,markLaneSynchronized]
    split
    · exact h
    · exact ⟨h.pieces,h.voices⟩
  | installRoom roomName topic ticket => exact ⟨h.pieces,List.nodup_nil⟩
  | leaveRoom => exact ⟨List.Pairwise.nil,List.nodup_nil⟩
  | realtimeMidi => exact h
  | emitDiagnostic code message => exact h

theorem call_tracks (h : host.snapshot.Tracks client) {input : BrowserCall T}
    (hkeeps : input.Keeps host client) : (call host input).Tracks client := by
  cases input with
  | applyRoomView view => exact applyRoomViewInner_tracks h true
  | applyNonMusicRoomView view => exact applyRoomViewInner_tracks h false
  | applySessionPitchView shared =>
    have hstart : (Told.mk host.snapshot []).Tracks client := h
    exact hstart.sharedPitches shared
  | applyPresence actor session sequence pitch nowMs => exact applyVoice_tracks h hkeeps
  | updatePeer actor endpointId discovery path support => exact showPeer_tracks h _
  | markLaneSynchronized actor lane =>
    simp only [call,markLaneSynchronized]
    split
    · exact h
    · exact showPeer_tracks h _
  | installRoom roomName topic ticket => exact installRoom_tracks h hkeeps
  | leaveRoom =>
    exact { h with
      sorted := List.Pairwise.nil
      distinct := List.nodup_nil
      roomName := rfl
      roomTopic := rfl
      roomTicket := rfl
      sharedPitches := rfl
      pieces := rfl
      voices := .refl _
      peers := rfl }
  | realtimeMidi => exact h
  | emitDiagnostic code message => exact h

theorem call_only (h : host.snapshot.Tracks client) {input : BrowserCall T}
    (hshows : (call host input).Shows client) : input.Keeps host client := by
  cases input with
  | applyPresence actor session sequence pitch nowMs =>
    exact fun hfresh => applyVoice_only h hshows hfresh
  | installRoom roomName topic ticket => exact installRoom_only h hshows
  | applyRoomView view => trivial
  | applyNonMusicRoomView view => trivial
  | applySessionPitchView shared => trivial
  | updatePeer actor endpointId discovery path support => trivial
  | markLaneSynchronized actor lane => trivial
  | leaveRoom => trivial
  | realtimeMidi => trivial
  | emitDiagnostic code message => trivial

end BrowserHost

end Calls

section Runs

structure Watched (T : TuningLibrary) where
  host : HostState T
  client : AppSnapshot T

def HostState.initial : HostState T := ⟨AppSnapshot.empty,fun _ => none⟩

theorem HostState.initial_sound : (initial : HostState T).snapshot.Sound where
  pieces := List.Pairwise.nil
  voices := List.nodup_nil

/-- A subscriber gets the snapshot, whatever it showed before. -/
def HostState.register (host : HostState T) (earlier : AppSnapshot T) : Watched T :=
  ⟨host,applyNativeDelta earlier (.snapshot host.snapshot)⟩

variable {Call : Type} (call : HostState T → Call → Emitted T)
  (keeps : HostState T → AppSnapshot T → Call → Prop)

def HostState.run (host : HostState T) (inputs : List Call) : HostState T :=
  inputs.foldl (fun host input => (call host input).1) host

namespace Watched

def Shows (watched : Watched T) : Prop := watched.host.snapshot.Shows watched.client

def step (watched : Watched T) (input : Call) : Watched T :=
  let emitted := call watched.host input
  ⟨emitted.1,emitted.2.foldl applyNativeDelta watched.client⟩

def run (watched : Watched T) (inputs : List Call) : Watched T := inputs.foldl (step call) watched

def RunKeeps : Watched T → List Call → Prop
  | _,[] => True
  | watched,input :: inputs =>
    keeps watched.host watched.client input ∧ RunKeeps (watched.step call input) inputs

variable {call keeps}

theorem run_tracks (htracks : ∀ {host client}, host.snapshot.Tracks client → ∀ {input},
      keeps host client input → (call host input).Tracks client)
    {watched : Watched T} (h : watched.host.snapshot.Tracks watched.client) {inputs : List Call}
    (hkeeps : watched.RunKeeps call keeps inputs) :
    (watched.run call inputs).host.snapshot.Tracks (watched.run call inputs).client := by
  induction inputs generalizing watched with
  | nil => exact h
  | cons input inputs ih => exact ih (htracks h hkeeps.1) hkeeps.2

end Watched

variable {call}

theorem HostState.run_sound (hsound : ∀ {host : HostState T}, host.snapshot.Sound →
      ∀ input : Call, (call host input).1.snapshot.Sound) {host : HostState T}
    (h : host.snapshot.Sound) (inputs : List Call) : (host.run call inputs).snapshot.Sound := by
  induction inputs generalizing host with
  | nil => exact h
  | cons input inputs ih => exact ih (hsound h input)

/-- In runs that keep to the condition the client shows the host after each call, and the next call
keeps this just if it meets the condition too. -/
theorem client_shows_host (earlier : AppSnapshot T) :
    (∀ before inputs : List (NativeCall T),
      let start := (HostState.initial.run AppRuntime.call before).register earlier
      let now := start.run AppRuntime.call inputs
      start.RunKeeps AppRuntime.call NativeCall.Keeps inputs →
        now.Shows ∧ ∀ next : NativeCall T,
          (now.step AppRuntime.call next).Shows ↔ next.Keeps now.host now.client) ∧
      ∀ before inputs : List (BrowserCall T),
        let start := (HostState.initial.run BrowserHost.call before).register earlier
        let now := start.run BrowserHost.call inputs
        start.RunKeeps BrowserHost.call BrowserCall.Keeps inputs →
          now.Shows ∧ ∀ next : BrowserCall T,
            (now.step BrowserHost.call next).Shows ↔ next.Keeps now.host now.client := by
  constructor
  · intro before inputs start now hkeeps
    have hsound := HostState.run_sound AppRuntime.call_sound HostState.initial_sound before
    have htracks : now.host.snapshot.Tracks now.client :=
      Watched.run_tracks AppRuntime.call_tracks hsound.tracks hkeeps
    refine ⟨htracks.shows,fun next => ⟨AppRuntime.call_only htracks,fun hnext => ?_⟩⟩
    exact (AppRuntime.call_tracks htracks hnext).shows
  · intro before inputs start now hkeeps
    have hsound := HostState.run_sound BrowserHost.call_sound HostState.initial_sound before
    have htracks : now.host.snapshot.Tracks now.client :=
      Watched.run_tracks BrowserHost.call_tracks hsound.tracks hkeeps
    refine ⟨htracks.shows,fun next => ⟨BrowserHost.call_only htracks,fun hnext => ?_⟩⟩
    exact (BrowserHost.call_tracks htracks hnext).shows

def soundingView : RoomView equalTunings where
  music := ⟨(12 : Nat),(0 : Nat),⟨{⟨12,7⟩},∅⟩⟩
  pieces := ∅
  piecesLocked := false
  availableEmojis := none

/-- A browser that enters a room by its name, with one peer and one voice. -/
def namedRoom : List (BrowserCall equalTunings) :=
  [.applyRoomView soundingView,.installRoom (some "calm-red-fox") "topic" "ticket",
    .updatePeer 4 "four" .gossip .direct 3,.applyPresence 4 1 0 none 100,
    .applyPresence 4 1 1 none 200]

theorem client_shows_host_named :
    (((HostState.initial : HostState equalTunings).register .empty).run BrowserHost.call
      namedRoom).Shows := by
  refine ((client_shows_host (T := equalTunings) .empty).2 [] namedRoom ?_).1
  refine ⟨trivial,⟨rfl,rfl⟩,trivial,fun _ shown hshown => ?_,fun _ shown hshown => ?_,trivial⟩
  · cases hshown
  · cases hshown
    rfl

/-- A browser that joins the room by a ticket, so that the room has no name. -/
def ticketRoom : List (BrowserCall equalTunings) :=
  [.applyRoomView soundingView,.installRoom none "topic" "ticket"]

theorem ticket_room_clears_client :
    ¬ (((HostState.initial : HostState equalTunings).register .empty).run BrowserHost.call
      ticketRoom).Shows := by
  intro h
  have hpitches := h.sharedPitches
  revert hpitches
  decide

end Runs

end WalkieSongie.Client
