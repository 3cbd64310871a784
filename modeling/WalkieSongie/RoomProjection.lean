import Mathlib.Data.List.Basic
import Mathlib.Data.Set.Basic
import WalkieSongie.KeyedMap
set_option autoImplicit false

/-!
The render and MIDI cache of a room: what each change of it tells as events, and what those events
say of it.
-/

namespace WalkieSongie.Projection

structure PitchClass where
  index : Nat
  deriving DecidableEq

structure Piece where
  id : String
  pitch : Int
  emoji : String
  deriving DecidableEq

/-- The pitch an actor sings and its class; neither for one that is silent. -/
abbrev Voice := Option Int × Option PitchClass

inductive RoomEvent where
  | pitchAdded (pitchClass : PitchClass)
  | pitchRemoved (pitchClass : PitchClass)
  | pitchesCleared
  | voiceChanged (peerId : String) (pitch : Option Int) (pitchClass : Option PitchClass)
  | voiceCleared (peerId : String) (pitch : Option Int)
  | pieceAdded (id : String) (pitch : Int) (emoji : String)
  | pieceMoved (id : String) (oldPitch newPitch : Int)
  | pieceRemoved (id : String) (pitch : Int)
  | piecesCleared
  | piecesLockChanged (locked : Bool)
  | tuningChanged (scl : String)
  | emojisChanged (emojis : List String)
  | peerJoined (peerId : String)
  | peerLeft (peerId : String)
  | fullStateSync (pitches : List PitchClass) (pieces : List (String × Int × String))
      (voices : List (String × Voice)) (piecesLocked : Bool)
  deriving DecidableEq

/-- The order in which hash collections are walked: any. -/
structure HashOrder where
  walk : {α : Type} → List α → List α
  perm : ∀ {α : Type} (entries : List α), (walk entries).Perm entries

@[simp] theorem HashOrder.mem_walk (order : HashOrder) {α : Type} {entries : List α} {entry : α} :
    entry ∈ order.walk entries ↔ entry ∈ entries := (order.perm entries).mem_iff

structure ProjectionSnapshot where
  pitches : KeyedMap PitchClass Unit
  pieces : KeyedMap String (Int × String)
  voices : KeyedMap String Voice
  piecesLocked : Bool

structure RoomProjection where
  localActor : String
  sharedPitches : KeyedMap PitchClass Unit := .empty
  pieces : KeyedMap String Piece := .empty
  voices : KeyedMap String Voice := .empty
  tuningScl : String := ""
  piecesLocked : Bool := false
  availableEmojis : List String

def defaultEmojis : List String :=
  ["🪨","🥜","🐚","🌱","🫟","🌀","✳️","🫯","🧶","🐟","🦠","🥑"]

def setOf {α : Type} [DecidableEq α] (elements : List α) : KeyedMap α Unit :=
  .ofEntries (elements.map fun element => (element,()))

namespace RoomProjection

def new (localActor : String) : RoomProjection where
  localActor := localActor
  availableEmojis := defaultEmojis

def snapshot (projection : RoomProjection) : ProjectionSnapshot where
  pitches := projection.sharedPitches
  pieces := projection.pieces.mapValues fun _ piece => (piece.pitch,piece.emoji)
  voices := projection.voices
  piecesLocked := projection.piecesLocked

end RoomProjection

section Diffs

variable (order : HashOrder) (before after : ProjectionSnapshot)

def difference (first second : KeyedMap PitchClass Unit) : List PitchClass :=
  (order.walk first.entries).filterMap fun entry =>
    if (second.get? entry.1).isNone then some entry.1 else none

def pieceDiff (id : String) (piece : Int × String) : Option RoomEvent :=
  match before.pieces.get? id with
  | some (oldPitch,_) => if oldPitch ≠ piece.1 then some (.pieceMoved id oldPitch piece.1) else none
  | none => some (.pieceAdded id piece.1 piece.2)

def voiceDiff (actor : String) (voice : Voice) : Option RoomEvent :=
  if before.voices.get? actor ≠ some voice then
    if voice.1.isNone ∧ voice.2.isNone then
      some (.voiceCleared actor ((before.voices.get? actor).bind Prod.fst))
    else some (.voiceChanged actor voice.1 voice.2)
  else none

def emitDiffs : List RoomEvent :=
  (difference order after.pitches before.pitches).map .pitchAdded ++
  (difference order before.pitches after.pitches).map .pitchRemoved ++
  (order.walk after.pieces.entries).filterMap (fun entry => pieceDiff before entry.1 entry.2) ++
  (order.walk before.pieces.entries).filterMap (fun entry =>
    if (after.pieces.get? entry.1).isNone then some (.pieceRemoved entry.1 entry.2.1) else none) ++
  (order.walk after.voices.entries).filterMap (fun entry => voiceDiff before entry.1 entry.2) ++
  (order.walk before.voices.entries).filterMap (fun entry =>
    if (after.voices.get? entry.1).isNone then some (.voiceCleared entry.1 entry.2.1) else none) ++
  (if before.piecesLocked ≠ after.piecesLocked then [.piecesLockChanged after.piecesLocked] else [])

end Diffs

namespace RoomProjection

section Replace

-- the segmentation crate's extended grapheme clusters
variable (graphemes : String → List String)

def palette (availableEmojis : Option String) : List String :=
  match availableEmojis.filter (· ≠ "") with
  | some emojis => graphemes emojis
  | none => defaultEmojis

/-- The cache replaced from an admitted view, and the events it emits. -/
def replaceReplicaProjection (order : HashOrder) (pitches : List PitchClass) (pieces : List Piece)
    (voices : List (String × Voice)) (piecesLocked : Bool) (availableEmojis : Option String)
    (projection : RoomProjection) : RoomProjection × List RoomEvent :=
  let replaced := { projection with
    sharedPitches := setOf pitches
    pieces := .ofEntries (pieces.map fun piece => (piece.id,piece))
    voices := .ofEntries voices
    piecesLocked := piecesLocked
    availableEmojis := palette graphemes availableEmojis }
  (replaced,emitDiffs order projection.snapshot replaced.snapshot ++
    if projection.availableEmojis ≠ replaced.availableEmojis then
      [.emojisChanged replaced.availableEmojis] else [])

end Replace

variable (order : HashOrder) (projection : RoomProjection)

def allPieces : List Piece := projection.pieces.entries.map Prod.snd

def emitFullStateSync : RoomProjection × List RoomEvent :=
  (projection,[.fullStateSync
    ((order.walk projection.sharedPitches.entries).map Prod.fst)
    ((projection.allPieces.mergeSort fun left right => left.id ≤ right.id).map fun piece =>
      (piece.id,piece.pitch,piece.emoji))
    (order.walk projection.voices.entries) projection.piecesLocked])

def addPitch (pitchClass : PitchClass) : RoomProjection × List RoomEvent :=
  if (projection.sharedPitches.get? pitchClass).isNone then
    ({ projection with sharedPitches := projection.sharedPitches.insert pitchClass () },
      [.pitchAdded pitchClass])
  else (projection,[])

def removePitch (pitchClass : PitchClass) : RoomProjection × List RoomEvent :=
  if (projection.sharedPitches.get? pitchClass).isSome then
    ({ projection with sharedPitches := projection.sharedPitches.erase pitchClass },
      [.pitchRemoved pitchClass])
  else (projection,[])

def setSinglePitch (pitchClass : PitchClass) : RoomProjection × List RoomEvent :=
  let single := { projection with sharedPitches := setOf [pitchClass] }
  (single,emitDiffs order projection.snapshot single.snapshot)

def clearPitches : RoomProjection × List RoomEvent :=
  if projection.sharedPitches.isEmpty then (projection,[])
  else ({ projection with sharedPitches := .empty },[.pitchesCleared])

def setTuningScl (scl : String) : RoomProjection × List RoomEvent :=
  if projection.tuningScl ≠ scl then
    ({ projection with tuningScl := scl },[.tuningChanged scl])
  else (projection,[])

def setVoice (pitch : Option Int) (pitchClass : Option PitchClass) :
    RoomProjection × List RoomEvent :=
  let previous := (projection.voices.get? projection.localActor).getD (none,none)
  if previous = (pitch,pitchClass) then (projection,[])
  else if pitch.isNone ∧ pitchClass.isNone then
    ({ projection with voices := projection.voices.erase projection.localActor },
      [.voiceCleared projection.localActor previous.1])
  else
    ({ projection with
        voices := projection.voices.insert projection.localActor (pitch,pitchClass) },
      [.voiceChanged projection.localActor pitch pitchClass])

def setVoicePitch (pitch : Option Int) : RoomProjection × List RoomEvent :=
  projection.setVoice pitch (pitch.map fun pitch => ⟨(pitch % 12).toNat⟩)

def setVoicePitchclass (pitchClass : Option PitchClass) : RoomProjection × List RoomEvent :=
  projection.setVoice (pitchClass.map fun pitchClass => 60+pitchClass.index) pitchClass

def clearVoice : RoomProjection × List RoomEvent := projection.setVoice none none

/-- Each actor of the class taken out in turn. -/
def clearVoices : List String → RoomProjection → RoomProjection × List RoomEvent
  | [], projection => (projection,[])
  | actor :: actors, projection =>
      let pitch := (projection.voices.get? actor).bind Prod.fst
      let rest := clearVoices actors { projection with voices := projection.voices.erase actor }
      (rest.1,.voiceCleared actor pitch :: rest.2)

def clearVoiceAtPitchClass (target : PitchClass) : RoomProjection × List RoomEvent :=
  clearVoices (((order.walk projection.voices.entries).filter fun entry =>
    entry.2.2 = some target).map Prod.fst) projection

def hasPieceAt (pitch : Int) : Bool := projection.allPieces.any (·.pitch = pitch)

/-- The id is a fresh one. -/
def addPiece (id : String) (pitch : Int) (emoji : String) : RoomProjection × List RoomEvent :=
  if projection.hasPieceAt pitch then (projection,[])
  else ({ projection with pieces := projection.pieces.insert id ⟨id,pitch,emoji⟩ },
    [.pieceAdded id pitch emoji])

def removePiece (id : String) : RoomProjection × List RoomEvent :=
  match projection.pieces.get? id with
  | none => (projection,[])
  | some piece => ({ projection with pieces := projection.pieces.erase id },
      [.pieceRemoved id piece.pitch])

def movePiece (id : String) (newPitch : Int) : RoomProjection × List RoomEvent :=
  match projection.pieces.get? id with
  | none => (projection,[])
  | some piece =>
      if piece.pitch = newPitch then (projection,[])
      else ({ projection with
          pieces := projection.pieces.insert id { piece with pitch := newPitch } },
        [.pieceMoved id piece.pitch newPitch])

def clearPieces : RoomProjection × List RoomEvent :=
  if projection.pieces.isEmpty then (projection,[])
  else ({ projection with pieces := .empty },[.piecesCleared])

def setPiecesLocked (locked : Bool) : RoomProjection × List RoomEvent :=
  if projection.piecesLocked ≠ locked then
    ({ projection with piecesLocked := locked },[.piecesLockChanged locked])
  else (projection,[])

def addEmojiToPalette (emoji : String) : RoomProjection × List RoomEvent :=
  if emoji ∈ projection.availableEmojis then (projection,[])
  else
    let emojis := projection.availableEmojis ++ [emoji]
    ({ projection with availableEmojis := emojis },[.emojisChanged emojis])

end RoomProjection

/-- What the events of a room speak of: a voice that is not there is silent. -/
@[ext] structure RoomFacts where
  pitches : PitchClass → Prop
  pieces : String → Option (Int × String)
  voices : String → Voice
  piecesLocked : Bool
  emojis : List String

def ProjectionSnapshot.facts (snapshot : ProjectionSnapshot) (emojis : List String) :
    RoomFacts where
  pitches pitchClass := (snapshot.pitches.get? pitchClass).isSome
  pieces := snapshot.pieces.get?
  voices actor := (snapshot.voices.get? actor).getD (none,none)
  piecesLocked := snapshot.piecesLocked
  emojis := emojis

def RoomProjection.facts (projection : RoomProjection) : RoomFacts :=
  projection.snapshot.facts projection.availableEmojis

open Function in
/-- The facts once an event is taken at its word. -/
def RoomFacts.replay (facts : RoomFacts) (event : RoomEvent) : RoomFacts :=
  match event with
  | .pitchAdded pitchClass =>
      { facts with pitches := update facts.pitches pitchClass True }
  | .pitchRemoved pitchClass =>
      { facts with pitches := update facts.pitches pitchClass False }
  | .pitchesCleared => { facts with pitches := fun _ => False }
  | .voiceChanged peerId pitch pitchClass =>
      { facts with voices := update facts.voices peerId (pitch,pitchClass) }
  | .voiceCleared peerId _ => { facts with voices := update facts.voices peerId (none,none) }
  | .pieceAdded id pitch emoji =>
      { facts with pieces := update facts.pieces id (some (pitch,emoji)) }
  | .pieceMoved id _ newPitch =>
      let moved := (facts.pieces id).map fun piece => (newPitch,piece.2)
      { facts with pieces := update facts.pieces id moved }
  | .pieceRemoved id _ => { facts with pieces := update facts.pieces id none }
  | .piecesCleared => { facts with pieces := fun _ => none }
  | .piecesLockChanged locked => { facts with piecesLocked := locked }
  | .emojisChanged emojis => { facts with emojis := emojis }
  | .fullStateSync pitches pieces voices piecesLocked =>
      { facts with
        pitches := fun pitchClass => pitchClass ∈ pitches
        pieces := (KeyedMap.ofEntries pieces).get?
        voices := fun actor => ((KeyedMap.ofEntries voices).get? actor).getD (none,none)
        piecesLocked := piecesLocked }
  | .tuningChanged _ | .peerJoined _ | .peerLeft _ => facts

inductive Subject where
  | pitch (pitchClass : PitchClass)
  | piece (id : String)
  | voice (actor : String)
  | lock
  | palette

def Agree (first second : RoomFacts) : Subject → Prop
  | .pitch pitchClass => first.pitches pitchClass ↔ second.pitches pitchClass
  | .piece id => first.pieces id = second.pieces id
  | .voice actor => first.voices actor = second.voices actor
  | .lock => first.piecesLocked = second.piecesLocked
  | .palette => first.emojis = second.emojis

theorem RoomFacts.ext_agree {first second : RoomFacts} (h : ∀ subject, Agree first second subject) :
    first = second := by
  ext subject
  · exact h (.pitch subject)
  · rw [show first.pieces subject = second.pieces subject from h (.piece subject)]
  · rw [show first.voices subject = second.voices subject from h (.voice subject)]
  · rw [show first.voices subject = second.voices subject from h (.voice subject)]
  · rw [show first.piecesLocked = second.piecesLocked from h .lock]
  · rw [show first.emojis = second.emojis from h .palette]

/-- The events that tell one step from the old facts to the new ones, each of one subject. -/
inductive Tells (before after : RoomFacts) : RoomEvent → Subject → Prop
  | pitchAdded {pitchClass : PitchClass} (h : after.pitches pitchClass) :
      Tells before after (.pitchAdded pitchClass) (.pitch pitchClass)
  | pitchRemoved {pitchClass : PitchClass} (h : ¬ after.pitches pitchClass) :
      Tells before after (.pitchRemoved pitchClass) (.pitch pitchClass)
  | pieceAdded {id : String} {pitch : Int} {emoji : String}
      (h : after.pieces id = some (pitch,emoji)) :
      Tells before after (.pieceAdded id pitch emoji) (.piece id)
  | pieceMoved {id : String} {oldPitch newPitch : Int} {emoji : String}
      (hold : before.pieces id = some (oldPitch,emoji))
      (hnew : after.pieces id = some (newPitch,emoji)) :
      Tells before after (.pieceMoved id oldPitch newPitch) (.piece id)
  | pieceRemoved {id : String} {pitch : Int} (h : after.pieces id = none) :
      Tells before after (.pieceRemoved id pitch) (.piece id)
  | voiceChanged {actor : String} {voice : Voice} (h : after.voices actor = voice) :
      Tells before after (.voiceChanged actor voice.1 voice.2) (.voice actor)
  | voiceCleared {actor : String} {pitch : Option Int} (h : after.voices actor = (none,none)) :
      Tells before after (.voiceCleared actor pitch) (.voice actor)
  | locked : Tells before after (.piecesLockChanged after.piecesLocked) .lock
  | emojis : Tells before after (.emojisChanged after.emojis) .palette

variable {before after facts : RoomFacts} {event : RoomEvent} {subject other : Subject}

theorem Tells.agree (h : Tells before after event subject)
    (hfrom : Agree facts before subject ∨ Agree facts after subject) :
    Agree (facts.replay event) after subject := by
  cases h with
  | pitchAdded h => simpa [RoomFacts.replay,Agree] using h
  | pitchRemoved h => simpa [RoomFacts.replay,Agree] using h
  | pieceAdded h => simpa [RoomFacts.replay,Agree] using h.symm
  | pieceMoved hold hnew => rcases hfrom with hfrom | hfrom <;> simp_all [RoomFacts.replay,Agree]
  | pieceRemoved h => simpa [RoomFacts.replay,Agree] using h.symm
  | voiceChanged h => simpa [RoomFacts.replay,Agree] using h.symm
  | voiceCleared h => simpa [RoomFacts.replay,Agree] using h.symm
  | locked => simp [RoomFacts.replay,Agree]
  | emojis => simp [RoomFacts.replay,Agree]

theorem Tells.agree_other (h : Tells before after event subject) (hother : other ≠ subject)
    (target : RoomFacts) : Agree (facts.replay event) target other ↔ Agree facts target other := by
  cases h <;> cases other <;> simp_all [RoomFacts.replay,Agree]

/-- Facts on the way from the old to the new ones: of each subject one or the other. -/
def Between (before after facts : RoomFacts) : Prop :=
  ∀ subject, Agree facts before subject ∨ Agree facts after subject

theorem Between.replay (h : Between before after facts)
    (htells : Tells before after event subject) : Between before after (facts.replay event) := by
  intro other
  by_cases hsame : other = subject
  · subst hsame
    exact .inr (htells.agree (h other))
  · rw [htells.agree_other hsame,htells.agree_other hsame]
    exact h other

theorem Between.foldl_agree {events : List RoomEvent} (h : Between before after facts)
    (htold : ∀ event ∈ events, ∃ subject, Tells before after event subject)
    (hreached : Agree facts after other ∨ ∃ event ∈ events, Tells before after event other) :
    Agree (events.foldl RoomFacts.replay facts) after other := by
  induction events generalizing facts with
  | nil => simpa using hreached
  | cons event events ih =>
      obtain ⟨subject,htells⟩ := htold event (by simp)
      apply ih (h.replay htells) (fun later hlater => htold later (List.mem_cons_of_mem _ hlater))
      by_cases hsame : other = subject
      · subst hsame
        exact .inl (htells.agree (h other))
      · rcases hreached with hreached | ⟨later,hlater,hlaterTells⟩
        · exact .inl ((htells.agree_other hsame after).mpr hreached)
        · rcases List.mem_cons.mp hlater with rfl | hlater
          · exact .inl (hlaterTells.agree (h other))
          · exact .inr ⟨later,hlater,hlaterTells⟩

theorem foldl_replay {events : List RoomEvent}
    (htold : ∀ event ∈ events, ∃ subject, Tells before after event subject)
    (hcovers : ∀ subject, Agree before after subject ∨
      ∃ event ∈ events, Tells before after event subject) :
    events.foldl RoomFacts.replay before = after := by
  apply RoomFacts.ext_agree
  intro subject
  have hstart : Between before after before := by
    intro other
    left
    cases other <;> simp [Agree]
  exact hstart.foldl_agree htold (hcovers subject)

section Emitted

variable (order : HashOrder) {old new : ProjectionSnapshot} {oldEmojis newEmojis : List String}

theorem mem_difference {first second : KeyedMap PitchClass Unit} {pitchClass : PitchClass} :
    pitchClass ∈ difference order first second ↔
      (first.get? pitchClass).isSome ∧ second.get? pitchClass = none := by
  simp only [difference,List.mem_filterMap,HashOrder.mem_walk,Option.isSome_iff_exists,
    KeyedMap.get?_eq_some]
  constructor
  · rintro ⟨⟨found,content⟩,hentry,hdiff⟩
    by_cases hnone : second.get? found = none
    · simp only [hnone,Option.isNone_none,if_true,Option.some.injEq] at hdiff
      subst hdiff
      exact ⟨⟨content,hentry⟩,hnone⟩
    · simp [hnone] at hdiff
  · rintro ⟨⟨content,hentry⟩,hnone⟩
    exact ⟨(pitchClass,content),hentry,by simp [hnone]⟩

theorem mem_gone {Value : Type} {first second : KeyedMap String Value} {event : RoomEvent}
    (tell : String → Value → RoomEvent) :
    event ∈ (order.walk first.entries).filterMap (fun entry =>
        if (second.get? entry.1).isNone then some (tell entry.1 entry.2) else none) ↔
      ∃ key value, first.get? key = some value ∧ second.get? key = none ∧
        event = tell key value := by
  simp only [List.mem_filterMap,HashOrder.mem_walk,KeyedMap.get?_eq_some]
  constructor
  · rintro ⟨⟨key,value⟩,hentry,hdiff⟩
    by_cases hnone : second.get? key = none
    · simp only [hnone,Option.isNone_none,if_true,Option.some.injEq] at hdiff
      exact ⟨key,value,hentry,hnone,hdiff.symm⟩
    · simp [hnone] at hdiff
  · rintro ⟨key,value,hentry,hnone,rfl⟩
    exact ⟨(key,value),hentry,by simp [hnone]⟩

theorem mem_walked {Value : Type} {map : KeyedMap String Value} {event : RoomEvent}
    (diff : String → Value → Option RoomEvent) :
    event ∈ (order.walk map.entries).filterMap (fun entry => diff entry.1 entry.2) ↔
      ∃ key value, map.get? key = some value ∧ diff key value = some event := by
  simp only [List.mem_filterMap,HashOrder.mem_walk,KeyedMap.get?_eq_some,Prod.exists]

theorem mem_emitDiffs : event ∈ emitDiffs order old new ↔
    (∃ pitchClass, ((new.pitches.get? pitchClass).isSome ∧
      old.pitches.get? pitchClass = none) ∧ .pitchAdded pitchClass = event) ∨
    (∃ pitchClass, ((old.pitches.get? pitchClass).isSome ∧
      new.pitches.get? pitchClass = none) ∧ .pitchRemoved pitchClass = event) ∨
    (∃ id piece, new.pieces.get? id = some piece ∧ pieceDiff old id piece = some event) ∨
    (∃ id piece, old.pieces.get? id = some piece ∧ new.pieces.get? id = none ∧
      event = .pieceRemoved id piece.1) ∨
    (∃ actor voice, new.voices.get? actor = some voice ∧
      voiceDiff old actor voice = some event) ∨
    (∃ actor voice, old.voices.get? actor = some voice ∧ new.voices.get? actor = none ∧
      event = .voiceCleared actor voice.1) ∨
    (old.piecesLocked ≠ new.piecesLocked ∧ event = .piecesLockChanged new.piecesLocked) := by
  have hlock : event ∈ (if old.piecesLocked ≠ new.piecesLocked then
      [RoomEvent.piecesLockChanged new.piecesLocked] else []) ↔
      old.piecesLocked ≠ new.piecesLocked ∧ event = .piecesLockChanged new.piecesLocked := by
    split <;> simp_all
  simp only [emitDiffs,List.mem_append,List.mem_map,mem_difference,hlock,or_assoc]
  have hpieces := @mem_gone order _ old.pieces new.pieces event
    fun id piece => .pieceRemoved id piece.1
  have hvoices := @mem_gone order _ old.voices new.voices event
    fun actor voice => .voiceCleared actor voice.1
  rw [mem_walked order (pieceDiff old),mem_walked order (voiceDiff old),hpieces,hvoices]

def KeepsEmojis (old new : ProjectionSnapshot) : Prop :=
  ∀ id first second, old.pieces.get? id = some first → new.pieces.get? id = some second →
    first.2 = second.2

theorem pieceDiff_tells (hemojis : KeepsEmojis old new) {id : String} {piece : Int × String}
    (hnew : new.pieces.get? id = some piece) (hdiff : pieceDiff old id piece = some event) :
    Tells (old.facts oldEmojis) (new.facts newEmojis) event (.piece id) := by
  cases hold : old.pieces.get? id with
  | none =>
      simp only [pieceDiff,hold,Option.some.injEq] at hdiff
      subst hdiff
      exact .pieceAdded hnew
  | some before =>
      obtain ⟨oldPitch,emoji⟩ := before
      have hemoji : emoji = piece.2 := hemojis id _ _ hold hnew
      by_cases hmoved : oldPitch = piece.1
      · simp [pieceDiff,hold,hmoved] at hdiff
      · simp only [pieceDiff,hold,ne_eq,hmoved,not_false_eq_true,if_true,Option.some.injEq] at hdiff
        subst hdiff hemoji
        exact .pieceMoved hold hnew

theorem voiceDiff_tells {actor : String} {voice : Voice}
    (hnew : new.voices.get? actor = some voice) (hdiff : voiceDiff old actor voice = some event) :
    Tells (old.facts oldEmojis) (new.facts newEmojis) event (.voice actor) := by
  have hvoice : (new.facts newEmojis).voices actor = voice := by
    simp [ProjectionSnapshot.facts,hnew]
  unfold voiceDiff at hdiff
  split at hdiff
  · split at hdiff
    · rename_i hsilent
      cases hdiff
      apply Tells.voiceCleared
      rw [hvoice]
      exact Prod.ext (by simpa using hsilent.1) (by simpa using hsilent.2)
    · cases hdiff
      exact .voiceChanged hvoice
  · simp at hdiff

theorem emitDiffs_tells (hemojis : KeepsEmojis old new) (hevent : event ∈ emitDiffs order old new) :
    ∃ subject, Tells (old.facts oldEmojis) (new.facts newEmojis) event subject := by
  rcases (mem_emitDiffs order).mp hevent with ⟨pitchClass,⟨hin,-⟩,rfl⟩ |
    ⟨pitchClass,⟨-,hout⟩,rfl⟩ | ⟨id,piece,hnew,hdiff⟩ | ⟨id,piece,-,hnew,rfl⟩ |
    ⟨actor,voice,hnew,hdiff⟩ | ⟨actor,voice,-,hnew,rfl⟩ | ⟨-,rfl⟩
  · exact ⟨_,.pitchAdded hin⟩
  · exact ⟨_,.pitchRemoved (by simp [ProjectionSnapshot.facts,hout])⟩
  · exact ⟨_,pieceDiff_tells hemojis hnew hdiff⟩
  · exact ⟨_,.pieceRemoved hnew⟩
  · exact ⟨_,voiceDiff_tells hnew hdiff⟩
  · exact ⟨_,.voiceCleared (by simp [ProjectionSnapshot.facts,hnew])⟩
  · exact ⟨_,.locked⟩

/-- Every subject but the palette that differs is told of. -/
theorem emitDiffs_covers (hemojis : KeepsEmojis old new) (subject : Subject) :
    Agree (old.facts oldEmojis) (new.facts newEmojis) subject ∨ subject = .palette ∨
      ∃ event ∈ emitDiffs order old new,
        Tells (old.facts oldEmojis) (new.facts newEmojis) event subject := by
  cases subject with
  | pitch pitchClass =>
      cases hold : old.pitches.get? pitchClass with
      | none =>
          cases hnew : new.pitches.get? pitchClass with
          | none => exact .inl (by simp [Agree,ProjectionSnapshot.facts,hold,hnew])
          | some content =>
              refine .inr (.inr ⟨_,?_,.pitchAdded (by simp [ProjectionSnapshot.facts,hnew])⟩)
              exact (mem_emitDiffs order).mpr (.inl ⟨pitchClass,by simp [hold,hnew],rfl⟩)
      | some content =>
          cases hnew : new.pitches.get? pitchClass with
          | some later => exact .inl (by simp [Agree,ProjectionSnapshot.facts,hold,hnew])
          | none =>
              refine .inr (.inr ⟨_,?_,.pitchRemoved (by simp [ProjectionSnapshot.facts,hnew])⟩)
              exact (mem_emitDiffs order).mpr (.inr (.inl ⟨pitchClass,by simp [hold,hnew],rfl⟩))
  | piece id =>
      cases hnew : new.pieces.get? id with
      | none =>
          cases hold : old.pieces.get? id with
          | none => exact .inl (by simp [Agree,ProjectionSnapshot.facts,hold,hnew])
          | some piece =>
              refine .inr (.inr ⟨.pieceRemoved id piece.1,?_,.pieceRemoved hnew⟩)
              exact (mem_emitDiffs order).mpr
                (.inr (.inr (.inr (.inl ⟨id,piece,hold,hnew,rfl⟩))))
      | some piece =>
          cases hdiff : pieceDiff old id piece with
          | none =>
              left
              cases hold : old.pieces.get? id with
              | none => simp [pieceDiff,hold] at hdiff
              | some before =>
                  have hpitch : before.1 = piece.1 := by simpa [pieceDiff,hold] using hdiff
                  have hsame : before = piece := Prod.ext hpitch (hemojis id _ _ hold hnew)
                  simp [Agree,ProjectionSnapshot.facts,hold,hnew,hsame]
          | some event =>
              refine .inr (.inr ⟨event,?_,pieceDiff_tells hemojis hnew hdiff⟩)
              exact (mem_emitDiffs order).mpr (.inr (.inr (.inl ⟨id,piece,hnew,hdiff⟩)))
  | voice actor =>
      cases hnew : new.voices.get? actor with
      | none =>
          cases hold : old.voices.get? actor with
          | none => exact .inl (by simp [Agree,ProjectionSnapshot.facts,hold,hnew])
          | some voice =>
              have hsilent : (new.facts newEmojis).voices actor = (none,none) := by
                simp [ProjectionSnapshot.facts,hnew]
              refine .inr (.inr ⟨.voiceCleared actor voice.1,?_,.voiceCleared hsilent⟩)
              exact (mem_emitDiffs order).mpr
                (.inr (.inr (.inr (.inr (.inr (.inl ⟨actor,voice,hold,hnew,rfl⟩))))))
      | some voice =>
          cases hdiff : voiceDiff old actor voice with
          | none =>
              left
              have hold : old.voices.get? actor = some voice := by
                by_contra hother
                unfold voiceDiff at hdiff
                rw [if_pos hother] at hdiff
                split at hdiff <;> simp at hdiff
              simp [Agree,ProjectionSnapshot.facts,hold,hnew]
          | some event =>
              refine .inr (.inr ⟨event,?_,voiceDiff_tells hnew hdiff⟩)
              exact (mem_emitDiffs order).mpr
                (.inr (.inr (.inr (.inr (.inl ⟨actor,voice,hnew,hdiff⟩)))))
  | lock =>
      by_cases hlock : old.piecesLocked = new.piecesLocked
      · exact .inl hlock
      · refine .inr (.inr ⟨_,?_,.locked⟩)
        exact (mem_emitDiffs order).mpr (by simp [ProjectionSnapshot.facts,hlock])
  | palette => exact .inr (.inl rfl)

def ProjectionSnapshot.Same (first second : ProjectionSnapshot) : Prop :=
  (∀ pitchClass, first.pitches.get? pitchClass = second.pitches.get? pitchClass) ∧
  (∀ id, first.pieces.get? id = second.pieces.get? id) ∧
  (∀ actor, first.voices.get? actor = second.voices.get? actor) ∧
  first.piecesLocked = second.piecesLocked

theorem emitDiffs_same (hsame : old.Same new) : emitDiffs order old new = [] := by
  obtain ⟨hpitches,hpieces,hvoices,hlock⟩ := hsame
  rw [List.eq_nil_iff_forall_not_mem]
  intro event hevent
  rcases (mem_emitDiffs order).mp hevent with ⟨pitchClass,⟨hin,hout⟩,-⟩ |
    ⟨pitchClass,⟨hin,hout⟩,-⟩ | ⟨id,piece,hnew,hdiff⟩ | ⟨id,piece,hold,hnew,-⟩ |
    ⟨actor,voice,hnew,hdiff⟩ | ⟨actor,voice,hold,hnew,-⟩ | ⟨hdiff,-⟩
  · simp_all
  · simp_all
  · simp_all [pieceDiff]
  · simp_all
  · simp_all [voiceDiff]
  · simp_all
  · exact hdiff hlock

end Emitted

/-- Folded over the old facts in the order they come, the events that a replacement emits give the
new facts; and a replacement that changes nothing emits none. -/
theorem replacement_replays (graphemes : String → List String) (order : HashOrder)
    (pitches : List PitchClass) (pieces : List Piece) (voices : List (String × Voice))
    (piecesLocked : Bool) (availableEmojis : Option String) (projection : RoomProjection) :
    let result := projection.replaceReplicaProjection graphemes order pitches pieces voices
      piecesLocked availableEmojis
    (KeepsEmojis projection.snapshot result.1.snapshot →
      result.2.foldl RoomFacts.replay projection.facts = result.1.facts) ∧
    (projection.snapshot.Same result.1.snapshot →
      projection.availableEmojis = result.1.availableEmojis → result.2 = []) := by
  intro result
  have hevents : result.2 = emitDiffs order projection.snapshot result.1.snapshot ++
      if projection.availableEmojis ≠ result.1.availableEmojis then
        [.emojisChanged result.1.availableEmojis] else [] := rfl
  generalize result = replacement at hevents ⊢
  obtain ⟨replaced,events⟩ := replacement
  dsimp only at hevents ⊢
  constructor
  · intro hemojis
    apply foldl_replay
    · intro event hevent
      rw [hevents] at hevent
      rcases List.mem_append.mp hevent with hdiff | hpalette
      · exact emitDiffs_tells order hemojis hdiff
      · split at hpalette
        · obtain rfl := List.mem_singleton.mp hpalette
          exact ⟨_,.emojis⟩
        · simp at hpalette
    · intro subject
      rw [hevents]
      rcases emitDiffs_covers order hemojis subject with hagree | rfl | ⟨event,hevent,htells⟩
      · exact .inl hagree
      · by_cases hpalette : projection.availableEmojis = replaced.availableEmojis
        · exact .inl hpalette
        · exact .inr ⟨.emojisChanged replaced.availableEmojis,by simp [hpalette],.emojis⟩
      · exact .inr ⟨event,List.mem_append_left _ hevent,htells⟩
  · intro hsame hpalette
    rw [hevents,emitDiffs_same order hsame,if_neg (by simpa using hpalette)]
    rfl

theorem replacement_shows (graphemes : String → List String) (order : HashOrder)
    (pitches : List PitchClass) (pieces : List Piece) (voices : List (String × Voice))
    (piecesLocked : Bool) (availableEmojis : Option String) (projection : RoomProjection)
    (hids : (pieces.map Piece.id).Nodup) (hactors : (voices.map Prod.fst).Nodup) :
    let facts := (projection.replaceReplicaProjection graphemes order pitches pieces voices
      piecesLocked availableEmojis).1.facts
    (∀ pitchClass, facts.pitches pitchClass ↔ pitchClass ∈ pitches) ∧
    (∀ id pitch emoji, facts.pieces id = some (pitch,emoji) ↔ ⟨id,pitch,emoji⟩ ∈ pieces) ∧
    (∀ actor voice, voice ≠ (none,none) → (facts.voices actor = voice ↔ (actor,voice) ∈ voices)) ∧
    facts.piecesLocked = piecesLocked ∧
    facts.emojis = RoomProjection.palette graphemes availableEmojis := by
  refine ⟨fun pitchClass => ?_,fun id pitch emoji => ?_,fun actor voice hvoice => ?_,rfl,rfl⟩
  · change ((setOf pitches).get? pitchClass).isSome = true ↔ _
    rw [Option.isSome_iff_ne_none,setOf,KeyedMap.get?_ofEntries_ne_none]
    simp
  · have hkeys : ((pieces.map fun piece => (piece.id,piece)).map Prod.fst).Nodup := by
      simpa [Function.comp_def] using hids
    change ((KeyedMap.ofEntries _).mapValues _).get? id = _ ↔ _
    rw [KeyedMap.get?_mapValues,Option.map_eq_some_iff]
    simp only [KeyedMap.get?_ofEntries_eq_some hkeys,List.mem_map,Prod.mk.injEq]
    constructor
    · rintro ⟨_,⟨piece,hpiece,rfl,rfl⟩,rfl,rfl⟩
      exact hpiece
    · exact fun hpiece => ⟨_,⟨_,hpiece,rfl,rfl⟩,rfl,rfl⟩
  · change ((KeyedMap.ofEntries voices).get? actor).getD (none,none) = voice ↔ _
    rw [← KeyedMap.get?_ofEntries_eq_some hactors]
    cases (KeyedMap.ofEntries voices).get? actor with
    | none => simpa using hvoice.symm
    | some found => simp

def entryOrder : HashOrder := ⟨fun entries => entries,fun entries => .refl entries⟩

def letters (text : String) : List String := text.toList.map toString

def duet : RoomProjection :=
  ((RoomProjection.new "me").replaceReplicaProjection letters entryOrder [⟨0⟩]
    [⟨"a",60,"x"⟩,⟨"b",62,"y"⟩] [("ann",some 60,some ⟨0⟩),("bob",some 64,some ⟨4⟩)] false none).1

/-- One replacement with an event of each kind; made once more, it emits none. -/
theorem replacement_replays_duet :
    let replace (projection : RoomProjection) :=
      projection.replaceReplicaProjection letters entryOrder [⟨7⟩] [⟨"a",61,"x"⟩,⟨"c",65,"z"⟩]
        [("ann",some 61,some ⟨1⟩)] true (some "xyz")
    (replace duet).2 = [.pitchAdded ⟨7⟩,.pitchRemoved ⟨0⟩,.pieceAdded "c" 65 "z",
        .pieceMoved "a" 60 61,.pieceRemoved "b" 62,.voiceChanged "ann" (some 61) (some ⟨1⟩),
        .voiceCleared "bob" (some 64),.piecesLockChanged true,.emojisChanged ["x","y","z"]] ∧
      (replace duet).2.foldl RoomFacts.replay duet.facts = (replace duet).1.facts ∧
      (replace (replace duet).1).2 = [] := by
  intro replace
  have hreplayed := replacement_replays letters entryOrder [⟨7⟩] [⟨"a",61,"x"⟩,⟨"c",65,"z"⟩]
    [("ann",some 61,some ⟨1⟩)] true (some "xyz")
  refine ⟨by decide +kernel,(hreplayed duet).1 ?_,(hreplayed (replace duet).1).2 ?_ rfl⟩
  · intro id first second hfirst hsecond
    have hbefore : duet.snapshot.pieces.entries = [("b",62,"y"),("a",60,"x")] := by decide +kernel
    have hafter : (replace duet).1.snapshot.pieces.entries = [("c",65,"z"),("a",61,"x")] := by
      decide +kernel
    rw [KeyedMap.get?_eq_some,hbefore] at hfirst
    rw [KeyedMap.get?_eq_some,hafter] at hsecond
    simp only [List.mem_cons,Prod.mk.injEq,List.not_mem_nil,or_false] at hfirst hsecond
    obtain ⟨rfl,rfl⟩ | ⟨rfl,rfl⟩ := hfirst
    · simp at hsecond
    · obtain ⟨h,-⟩ | ⟨-,rfl⟩ := hsecond
      · simp at h
      · rfl
  · exact ⟨fun _ => rfl,fun _ => rfl,fun _ => rfl,rfl⟩

end WalkieSongie.Projection
