import Mathlib.Data.Finset.Image
import WalkieSongie.RoomProjection
import WalkieSongie.TriggeredDeltas
set_option autoImplicit false

/-!
The delta streams that MIDI output follows: what is sounding in a room, its pieces and its voices.
-/

namespace WalkieSongie.Projection

inductive Mutation where
  | replaceReplicaProjection (order : HashOrder) (pitches : List PitchClass) (pieces : List Piece)
      (voices : List (String × Voice)) (piecesLocked : Bool) (availableEmojis : Option String)
  | emitFullStateSync (order : HashOrder)
  | addPitch (pitchClass : PitchClass)
  | removePitch (pitchClass : PitchClass)
  | setSinglePitch (order : HashOrder) (pitchClass : PitchClass)
  | clearPitches
  | setTuningScl (scl : String)
  | setVoicePitch (pitch : Option Int)
  | setVoicePitchclass (pitchClass : Option PitchClass)
  | setVoice (pitch : Option Int) (pitchClass : Option PitchClass)
  | clearVoice
  | clearVoiceAtPitchClass (order : HashOrder) (target : PitchClass)
  | addPiece (id : String) (pitch : Int) (emoji : String)
  | removePiece (id : String)
  | movePiece (id : String) (newPitch : Int)
  | clearPieces
  | setPiecesLocked (locked : Bool)
  | addEmojiToPalette (emoji : String)

def Mutation.apply (graphemes : String → List String) (mutation : Mutation)
    (projection : RoomProjection) : RoomProjection × List RoomEvent :=
  match mutation with
  | .replaceReplicaProjection order pitches pieces voices piecesLocked availableEmojis =>
      projection.replaceReplicaProjection graphemes order pitches pieces voices piecesLocked
        availableEmojis
  | .emitFullStateSync order => projection.emitFullStateSync order
  | .addPitch pitchClass => projection.addPitch pitchClass
  | .removePitch pitchClass => projection.removePitch pitchClass
  | .setSinglePitch order pitchClass => projection.setSinglePitch order pitchClass
  | .clearPitches => projection.clearPitches
  | .setTuningScl scl => projection.setTuningScl scl
  | .setVoicePitch pitch => projection.setVoicePitch pitch
  | .setVoicePitchclass pitchClass => projection.setVoicePitchclass pitchClass
  | .setVoice pitch pitchClass => projection.setVoice pitch pitchClass
  | .clearVoice => projection.clearVoice
  | .clearVoiceAtPitchClass order target => projection.clearVoiceAtPitchClass order target
  | .addPiece id pitch emoji => projection.addPiece id pitch emoji
  | .removePiece id => projection.removePiece id
  | .movePiece id newPitch => projection.movePiece id newPitch
  | .clearPieces => projection.clearPieces
  | .setPiecesLocked locked => projection.setPiecesLocked locked
  | .addEmojiToPalette emoji => projection.addEmojiToPalette emoji

namespace RoomEvent

def movesPieces : RoomEvent → Bool
  | .pieceAdded _ _ _ | .pieceMoved _ _ _ | .pieceRemoved _ _ | .piecesCleared
  | .fullStateSync _ _ _ _ => true
  | _ => false

def movesVoices : RoomEvent → Bool
  | .voiceChanged _ _ _ | .voiceCleared _ _ | .fullStateSync _ _ _ _ => true
  | _ => false

end RoomEvent

/-- What a change leaves as it is unless it says so: the pitch classes unless it emits any event,
the pieces' pitches and the voices unless it emits one of theirs. -/
structure Told (before : RoomProjection) (result : RoomProjection × List RoomEvent) : Prop where
  pitches : result.2 ≠ [] ∨ ∀ pitchClass, (result.1.sharedPitches.get? pitchClass).isSome =
    (before.sharedPitches.get? pitchClass).isSome
  pieces : (∃ event ∈ result.2, event.movesPieces = true) ∨
    ∀ id, (result.1.pieces.get? id).map Piece.pitch = (before.pieces.get? id).map Piece.pitch
  voices : (∃ event ∈ result.2, event.movesVoices = true) ∨
    ∀ actor, result.1.voices.get? actor = before.voices.get? actor

variable {before : RoomProjection} {result : RoomProjection × List RoomEvent}

theorem Told.same (projection : RoomProjection) (events : List RoomEvent) :
    Told projection (projection,events) :=
  ⟨.inr fun _ => rfl,.inr fun _ => rfl,.inr fun _ => rfl⟩

theorem Told.ofPitches (hpitches : result.2 ≠ []) (hpieces : result.1.pieces = before.pieces)
    (hvoices : result.1.voices = before.voices) : Told before result :=
  ⟨.inl hpitches,.inr fun _ => by rw [hpieces],.inr fun _ => by rw [hvoices]⟩

theorem Told.ofPieces (hpitches : result.1.sharedPitches = before.sharedPitches)
    (hpieces : ∃ event ∈ result.2, event.movesPieces = true)
    (hvoices : result.1.voices = before.voices) : Told before result :=
  ⟨.inr fun _ => by rw [hpitches],.inl hpieces,.inr fun _ => by rw [hvoices]⟩

theorem Told.ofVoices (hpitches : result.1.sharedPitches = before.sharedPitches)
    (hpieces : result.1.pieces = before.pieces)
    (hvoices : (∃ event ∈ result.2, event.movesVoices = true) ∨
      ∀ actor, result.1.voices.get? actor = before.voices.get? actor) : Told before result :=
  ⟨.inr fun _ => by rw [hpitches],.inr fun _ => by rw [hpieces],hvoices⟩

section Diffs

variable (order : HashOrder) {old new : ProjectionSnapshot}

theorem emitDiffs_pitches (h : emitDiffs order old new = []) (pitchClass : PitchClass) :
    (new.pitches.get? pitchClass).isSome = (old.pitches.get? pitchClass).isSome := by
  have hnone : ∀ event, event ∉ emitDiffs order old new := by simp [h]
  cases hold : old.pitches.get? pitchClass with
  | none =>
      cases hnew : new.pitches.get? pitchClass with
      | none => rfl
      | some content =>
          have hadded : .pitchAdded pitchClass ∈ emitDiffs order old new :=
            (mem_emitDiffs order).mpr (.inl ⟨pitchClass,by simp [hold,hnew],rfl⟩)
          exact absurd hadded (hnone _)
  | some content =>
      cases hnew : new.pitches.get? pitchClass with
      | some later => rfl
      | none =>
          have hremoved : .pitchRemoved pitchClass ∈ emitDiffs order old new :=
            (mem_emitDiffs order).mpr (.inr (.inl ⟨pitchClass,by simp [hold,hnew],rfl⟩))
          exact absurd hremoved (hnone _)

theorem emitDiffs_pieces (id : String) :
    (∃ event ∈ emitDiffs order old new, event.movesPieces = true) ∨
      (new.pieces.get? id).map Prod.fst = (old.pieces.get? id).map Prod.fst := by
  cases hnew : new.pieces.get? id with
  | none =>
      cases hold : old.pieces.get? id with
      | none => exact .inr rfl
      | some piece =>
          exact .inl ⟨.pieceRemoved id piece.1,(mem_emitDiffs order).mpr
            (.inr (.inr (.inr (.inl ⟨id,piece,hold,hnew,rfl⟩)))),rfl⟩
  | some piece =>
      cases hdiff : pieceDiff old id piece with
      | none =>
          right
          cases hold : old.pieces.get? id with
          | none => simp [pieceDiff,hold] at hdiff
          | some before =>
              have hpitch : before.1 = piece.1 := by simpa [pieceDiff,hold] using hdiff
              simp [hpitch]
      | some event =>
          have hmoves : event.movesPieces = true := by
            unfold pieceDiff at hdiff
            split at hdiff
            · split at hdiff <;> simp at hdiff
              subst hdiff
              rfl
            · cases hdiff
              rfl
          exact .inl ⟨event,(mem_emitDiffs order).mpr
            (.inr (.inr (.inl ⟨id,piece,hnew,hdiff⟩))),hmoves⟩

theorem emitDiffs_voices (actor : String) :
    (∃ event ∈ emitDiffs order old new, event.movesVoices = true) ∨
      new.voices.get? actor = old.voices.get? actor := by
  cases hnew : new.voices.get? actor with
  | none =>
      cases hold : old.voices.get? actor with
      | none => exact .inr rfl
      | some voice =>
          exact .inl ⟨.voiceCleared actor voice.1,(mem_emitDiffs order).mpr
            (.inr (.inr (.inr (.inr (.inr (.inl ⟨actor,voice,hold,hnew,rfl⟩)))))),rfl⟩
  | some voice =>
      by_cases hsame : old.voices.get? actor = some voice
      · exact .inr hsame.symm
      · left
        have hdiff : ∃ event, voiceDiff old actor voice = some event ∧
            event.movesVoices = true := by
          unfold voiceDiff
          rw [if_pos hsame]
          split
          · exact ⟨_,rfl,rfl⟩
          · exact ⟨_,rfl,rfl⟩
        obtain ⟨event,hevent,hmoves⟩ := hdiff
        exact ⟨event,(mem_emitDiffs order).mpr
          (.inr (.inr (.inr (.inr (.inl ⟨actor,voice,hnew,hevent⟩))))),hmoves⟩

theorem Told.emitDiffs (behind : List RoomEvent)
    (h : result.2 = emitDiffs order before.snapshot result.1.snapshot ++ behind) :
    Told before result := by
  have hevents : ∀ event ∈ Projection.emitDiffs order before.snapshot result.1.snapshot,
      event ∈ result.2 := fun event hevent => by
    rw [h]
    exact List.mem_append_left _ hevent
  constructor
  · by_cases hnone : result.2 = []
    · right
      rw [hnone] at h
      exact emitDiffs_pitches order (List.append_eq_nil_iff.mp h.symm).1
    · exact .inl hnone
  · by_cases hmoves : ∃ event ∈ result.2, event.movesPieces = true
    · exact .inl hmoves
    · right
      intro id
      rcases emitDiffs_pieces order id with ⟨event,hevent,hmove⟩ | hsame
      · exact absurd ⟨event,hevents event hevent,hmove⟩ hmoves
      · simpa [RoomProjection.snapshot,KeyedMap.get?_mapValues,Function.comp_def] using hsame
  · by_cases hmoves : ∃ event ∈ result.2, event.movesVoices = true
    · exact .inl hmoves
    · right
      intro actor
      rcases emitDiffs_voices order actor with ⟨event,hevent,hmove⟩ | hsame
      · exact absurd ⟨event,hevents event hevent,hmove⟩ hmoves
      · exact hsame

end Diffs

theorem Told.setVoice (pitch : Option Int) (pitchClass : Option PitchClass) :
    Told before (before.setVoice pitch pitchClass) := by
  unfold RoomProjection.setVoice
  dsimp only
  split
  · exact Told.same _ _
  · split
    · exact Told.ofVoices rfl rfl (.inl ⟨_,List.mem_singleton_self _,rfl⟩)
    · exact Told.ofVoices rfl rfl (.inl ⟨_,List.mem_singleton_self _,rfl⟩)

theorem clearVoices_kept (actors : List String) (projection : RoomProjection) :
    (RoomProjection.clearVoices actors projection).1.sharedPitches = projection.sharedPitches ∧
      (RoomProjection.clearVoices actors projection).1.pieces = projection.pieces := by
  induction actors generalizing projection with
  | nil => exact ⟨rfl,rfl⟩
  | cons actor actors ih => exact ih { projection with voices := projection.voices.erase actor }

theorem Told.clearVoices (actors : List String) :
    Told before (RoomProjection.clearVoices actors before) := by
  obtain ⟨hpitches,hpieces⟩ := clearVoices_kept actors before
  apply Told.ofVoices hpitches hpieces
  cases actors with
  | nil => exact .inr fun _ => rfl
  | cons actor actors => exact .inl ⟨_,List.mem_cons_self,rfl⟩

variable (graphemes : String → List String)

theorem Mutation.told (mutation : Mutation) (projection : RoomProjection) :
    Told projection (mutation.apply graphemes projection) := by
  cases mutation with
  | replaceReplicaProjection order pitches pieces voices piecesLocked availableEmojis =>
      exact Told.emitDiffs order _ rfl
  | emitFullStateSync order => exact Told.same _ _
  | addPitch pitchClass =>
      simp only [apply,RoomProjection.addPitch]
      split
      · exact Told.ofPitches (by simp) rfl rfl
      · exact Told.same _ _
  | removePitch pitchClass =>
      simp only [apply,RoomProjection.removePitch]
      split
      · exact Told.ofPitches (by simp) rfl rfl
      · exact Told.same _ _
  | setSinglePitch order pitchClass =>
      exact Told.emitDiffs order [] (List.append_nil _).symm
  | clearPitches =>
      simp only [apply,RoomProjection.clearPitches]
      split
      · exact Told.same _ _
      · exact Told.ofPitches (by simp) rfl rfl
  | setTuningScl scl =>
      simp only [apply,RoomProjection.setTuningScl]
      split
      · exact Told.ofPitches (by simp) rfl rfl
      · exact Told.same _ _
  | setVoicePitch pitch => exact Told.setVoice _ _
  | setVoicePitchclass pitchClass => exact Told.setVoice _ _
  | setVoice pitch pitchClass => exact Told.setVoice _ _
  | clearVoice => exact Told.setVoice _ _
  | clearVoiceAtPitchClass order target => exact Told.clearVoices _
  | addPiece id pitch emoji =>
      simp only [apply,RoomProjection.addPiece]
      split
      · exact Told.same _ _
      · exact Told.ofPieces rfl ⟨_,List.mem_singleton_self _,rfl⟩ rfl
  | removePiece id =>
      simp only [apply,RoomProjection.removePiece]
      split
      · exact Told.same _ _
      · exact Told.ofPieces rfl ⟨_,List.mem_singleton_self _,rfl⟩ rfl
  | movePiece id newPitch =>
      simp only [apply,RoomProjection.movePiece]
      split
      · exact Told.same _ _
      · split
        · exact Told.same _ _
        · exact Told.ofPieces rfl ⟨_,List.mem_singleton_self _,rfl⟩ rfl
  | clearPieces =>
      simp only [apply,RoomProjection.clearPieces]
      split
      · exact Told.same _ _
      · exact Told.ofPieces rfl ⟨_,List.mem_singleton_self _,rfl⟩ rfl
  | setPiecesLocked locked =>
      simp only [apply,RoomProjection.setPiecesLocked]
      split
      · exact Told.ofPitches (by simp) rfl rfl
      · exact Told.same _ _
  | addEmojiToPalette emoji =>
      simp only [apply,RoomProjection.addEmojiToPalette]
      split
      · exact Told.same _ _
      · exact Told.ofPitches (by simp) rfl rfl

namespace RoomProjection

variable (projection : RoomProjection)

def togglePitchClasses : Finset Nat :=
  (projection.sharedPitches.entries.map fun entry => entry.1.index).toFinset

def piecePitches : Finset Int := (projection.allPieces.map Piece.pitch).toFinset

def voicePitches : Finset Int :=
  (projection.voices.entries.filterMap fun entry => entry.2.1).toFinset

/-- The difference of two `i32`s as it is without overflow checks. -/
def wrappingSub (first second : Int) : Int := Int.bmod (first-second) 4294967296

def piecePitchClasses (pitchClassCount : Nat) : Finset Nat :=
  projection.piecePitches.image fun pitch : Int =>
    (wrappingSub pitch 60 % (max pitchClassCount 1 : Int)).toNat

def unifiedPitchClasses (pitchClassCount : Nat) : Finset Nat :=
  projection.togglePitchClasses ∪ projection.piecePitchClasses pitchClassCount

variable {projection} {later : RoomProjection}

theorem togglePitchClasses_congr
    (h : ∀ pitchClass, (later.sharedPitches.get? pitchClass).isSome =
      (projection.sharedPitches.get? pitchClass).isSome) :
    later.togglePitchClasses = projection.togglePitchClasses := by
  have hmem : ∀ (map : KeyedMap PitchClass Unit) (pitchClass : PitchClass),
      (∃ content, (pitchClass,content) ∈ map.entries) ↔ (map.get? pitchClass).isSome := by
    intro map pitchClass
    simp [Option.isSome_iff_exists,KeyedMap.get?_eq_some]
  ext index
  simp only [togglePitchClasses,List.mem_toFinset,List.mem_map,Prod.exists,exists_and_right,
    hmem,h]

theorem piecePitches_congr
    (h : ∀ id, (later.pieces.get? id).map Piece.pitch =
      (projection.pieces.get? id).map Piece.pitch) :
    later.piecePitches = projection.piecePitches := by
  have hmem : ∀ (map : KeyedMap String Piece) (pitch : Int),
      pitch ∈ (map.entries.map Prod.snd).map Piece.pitch ↔
        ∃ id, (map.get? id).map Piece.pitch = some pitch := by
    intro map pitch
    simp [KeyedMap.get?_eq_some]
  ext pitch
  simp only [piecePitches,allPieces,List.mem_toFinset,hmem,h]

theorem voicePitches_congr (h : ∀ actor, later.voices.get? actor = projection.voices.get? actor) :
    later.voicePitches = projection.voicePitches := by
  have hmem : ∀ (map : KeyedMap String Voice) (pitch : Int),
      pitch ∈ map.entries.filterMap (fun entry => entry.2.1) ↔
        ∃ actor voice, map.get? actor = some voice ∧ voice.1 = some pitch := by
    intro map pitch
    simp [KeyedMap.get?_eq_some]
  ext pitch
  simp only [voicePitches,List.mem_toFinset,hmem,h]

end RoomProjection

open TriggeredDeltas

/-- Read again on every event. -/
def unifiedPitchClassDeltas (pitchClassCount : Nat) :
    Source RoomProjection Mutation RoomEvent Nat where
  mutate mutation := mutation.apply graphemes
  current projection := projection.unifiedPitchClasses pitchClassCount
  concerns _ := true
  told mutation projection hchanged := by
    have htold := mutation.told graphemes projection
    by_contra hsilent
    have hnone : (mutation.apply graphemes projection).2 = [] := by
      rw [List.eq_nil_iff_forall_not_mem]
      intro event hevent
      exact hsilent ⟨event,hevent,rfl⟩
    have hpitches := htold.pitches.resolve_left (by simp [hnone])
    have hpieces := htold.pieces.resolve_left (by simp [hnone])
    apply hchanged
    unfold RoomProjection.unifiedPitchClasses RoomProjection.piecePitchClasses
    rw [RoomProjection.togglePitchClasses_congr hpitches,
      RoomProjection.piecePitches_congr hpieces]

def piecePitchDeltas : Source RoomProjection Mutation RoomEvent Int where
  mutate mutation := mutation.apply graphemes
  current := RoomProjection.piecePitches
  concerns := RoomEvent.movesPieces
  told mutation projection hchanged := by
    rcases (mutation.told graphemes projection).pieces with htold | hsame
    · exact htold
    · exact absurd (RoomProjection.piecePitches_congr hsame) hchanged

def voicePitchDeltas : Source RoomProjection Mutation RoomEvent Int where
  mutate mutation := mutation.apply graphemes
  current := RoomProjection.voicePitches
  concerns := RoomEvent.movesVoices
  told mutation projection hchanged := by
    rcases (mutation.told graphemes projection).voices with htold | hsame
    · exact htold
    · exact absurd (RoomProjection.voicePitches_congr hsame) hchanged

def eventChannelCapacity : Nat := 256

/-- Each of the three streams is faithful over a whole run of changes, sends, polls and readings
exactly when it is never polled for an event with more of them waiting than the channel keeps. -/
theorem delta_streams_faithful_iff (pitchClassCount : Nat) (projection : RoomProjection)
    (steps : List (Step Mutation)) :
    ((∀ done, done <+: steps →
        (Stream.run (unifiedPitchClassDeltas graphemes pitchClassCount) eventChannelCapacity
          projection done).Faithful (unifiedPitchClassDeltas graphemes pitchClassCount)) ↔
      ∀ done taken, done ++ [taken] <+: steps →
        ¬ (Stream.run (unifiedPitchClassDeltas graphemes pitchClassCount) eventChannelCapacity
          projection done).Overruns eventChannelCapacity taken) ∧
    ((∀ done, done <+: steps →
        (Stream.run (piecePitchDeltas graphemes) eventChannelCapacity projection done).Faithful
          (piecePitchDeltas graphemes)) ↔
      ∀ done taken, done ++ [taken] <+: steps →
        ¬ (Stream.run (piecePitchDeltas graphemes) eventChannelCapacity projection
          done).Overruns eventChannelCapacity taken) ∧
    ((∀ done, done <+: steps →
        (Stream.run (voicePitchDeltas graphemes) eventChannelCapacity projection done).Faithful
          (voicePitchDeltas graphemes)) ↔
      ∀ done taken, done ++ [taken] <+: steps →
        ¬ (Stream.run (voicePitchDeltas graphemes) eventChannelCapacity projection
          done).Overruns eventChannelCapacity taken) :=
  ⟨Stream.faithful_iff projection steps,Stream.faithful_iff projection steps,
    Stream.faithful_iff projection steps⟩

/-- A key pressed and the set cleared, again and again, with no poll between. -/
def burst : Nat → List (Step Mutation)
  | 0 => []
  | rounds+1 => burst rounds ++
      [.mutate (.addPitch ⟨0⟩),.send,.mutate .clearPitches,.send]

theorem run_burst (source : Source RoomProjection Mutation RoomEvent Nat)
    (hmutate : source.mutate = fun mutation => mutation.apply fun text => [text])
    (rounds : Nat) : ∃ unread, unread.length = 2*rounds ∧
      Stream.run source eventChannelCapacity (.new "local") (burst rounds) =
        { Stream.start source (.new "local") with unread := unread } := by
  induction rounds with
  | zero => exact ⟨[],rfl,rfl⟩
  | succ rounds ih =>
      obtain ⟨unread,hlength,hrun⟩ := ih
      refine ⟨unread ++ [.pitchAdded ⟨0⟩] ++ [.pitchesCleared],by simp; omega,?_⟩
      rw [burst,Stream.run,List.foldl_append,← Stream.run,hrun]
      obtain ⟨mutate,current,concerns,told⟩ := source
      subst hmutate
      rfl

theorem burst_ends_stream :
    ¬ (Stream.run (unifiedPitchClassDeltas (fun text => [text]) 12) eventChannelCapacity
      (.new "local") (burst 129 ++ [.poll])).Faithful
        (unifiedPitchClassDeltas (fun text => [text]) 12) := by
  obtain ⟨unread,hlength,hrun⟩ :=
    run_burst (unifiedPitchClassDeltas (fun text => [text]) 12) rfl 129
  rw [Stream.run_append,hrun]
  apply Stream.Overruns.not_faithful
  refine ⟨rfl,?_,rfl,?_⟩
  · rfl
  · simp only [eventChannelCapacity,hlength]
    decide

end WalkieSongie.Projection
