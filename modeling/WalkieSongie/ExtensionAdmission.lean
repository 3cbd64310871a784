import WalkieSongie.ExtensionLane
set_option autoImplicit false

/-! Admission of extension commands against the history they arrive in. -/

namespace WalkieSongie.Extension
open CausalRegister CausalDag CausalDag.DagSnapshot

def maxAbsPeriod : Nat := 1000000
def maxEmojiBytes : Nat := 64
def maxEmojiPaletteBytes : Nat := 4096

/-- `maxScaleDegrees` is the music library's bound. -/
def validatePitch (maxScaleDegrees : Nat) (pitch : TunedPeriodicPitch) : Except String Unit :=
  if maxScaleDegrees ≤ pitch.degree ∨ maxAbsPeriod < pitch.period.natAbs then
    .error "piece pitch is outside protocol bounds"
  else .ok ()

def requireExtensionTarget (history : DagSnapshot) (target : EntryHash)
    (expected : ExtensionCommand → Bool) : Except String Unit :=
  match history.entry target with
  | none => .error "extension target is missing"
  | some entry =>
      match decodeEnvelope entry.payload with
      | .error _ => .error "extension target has another payload type"
      | .ok envelope =>
          if !expected envelope.command then
            .error "extension target has the wrong command type"
          else .ok ()

def isPutPiece : ExtensionCommand → Bool
  | .putPiece _ _ => true
  | _ => false

def isRemovePiece : ExtensionCommand → Bool
  | .removePiece _ => true
  | _ => false

def lockWrite (entry : Entry) : Option (EntryHash × Bool) :=
  match decodeEnvelope entry.payload with
  | .error _ => none
  | .ok envelope =>
      match envelope.command with
      | .setConfig (some locked) _ => some (entry.hash,locked)
      | _ => none

def lockWritesAt (history : DagSnapshot) (heads : Position) : List (EntryHash × Bool) :=
  (history.entriesTopo.filter fun entry => entry.hash ∈ history.observedAt heads).filterMap
    lockWrite

def extensionLockAt (history : DagSnapshot) (heads : Position) : Bool :=
  (resolveRegister history.isAncestor (lockWritesAt history heads)).getD false

def refuseLocked (history : DagSnapshot) (entry : Entry) : Except String Unit :=
  if extensionLockAt history entry.prevs then
    .error "pieces are locked at this command's causal position"
  else .ok ()

def validateExtension (maxScaleDegrees : Nat) (command : ExtensionCommand) (entry : Entry)
    (history : DagSnapshot) : Except String Unit :=
  match command with
  | .putPiece emoji pitch =>
      if emoji = "" ∨ maxEmojiBytes < emoji.utf8ByteSize then
        .error "piece emoji is outside protocol bounds"
      else validatePitch maxScaleDegrees pitch
  | .movePiece piece pitch => do
      validatePitch maxScaleDegrees pitch
      requireExtensionTarget history piece isPutPiece
      refuseLocked history entry
  | .removePiece piece => do
      requireExtensionTarget history piece isPutPiece
      refuseLocked history entry
  | .unremovePiece remove => do
      requireExtensionTarget history remove isRemovePiece
      refuseLocked history entry
  | .setConfig _ (some emojis) =>
      if maxEmojiPaletteBytes < emojis.utf8ByteSize then
        .error "emoji palette is outside protocol bounds"
      else .ok ()
  | .setConfig _ none => .ok ()

/-- The checks that read the command alone. -/
def withinBounds (maxScaleDegrees : Nat) : ExtensionCommand → Bool
  | .putPiece emoji pitch =>
      emoji ≠ "" && emoji.utf8ByteSize ≤ maxEmojiBytes &&
        (pitch.degree < maxScaleDegrees && pitch.period.natAbs ≤ maxAbsPeriod)
  | .movePiece _ pitch => pitch.degree < maxScaleDegrees && pitch.period.natAbs ≤ maxAbsPeriod
  | .removePiece _ | .unremovePiece _ => true
  | .setConfig _ emojis => emojis.all fun emojis => emojis.utf8ByteSize ≤ maxEmojiPaletteBytes

/-- The entry a command acts on, and the kind of command that entry must carry. -/
def commandTarget : ExtensionCommand → Option (EntryHash × (ExtensionCommand → Bool))
  | .movePiece piece _ | .removePiece piece => some (piece,isPutPiece)
  | .unremovePiece remove => some (remove,isRemovePiece)
  | .putPiece _ _ | .setConfig _ _ => none

theorem validatePitch_ok {maxScaleDegrees : Nat} {pitch : TunedPeriodicPitch} :
    validatePitch maxScaleDegrees pitch = .ok () ↔
      (decide (pitch.degree < maxScaleDegrees) &&
        decide (pitch.period.natAbs ≤ maxAbsPeriod)) = true := by
  simp [validatePitch]

theorem requireExtensionTarget_ok {history : DagSnapshot} {target : EntryHash}
    {expected : ExtensionCommand → Bool} :
    requireExtensionTarget history target expected = .ok () ↔
      ∃ entry envelope, history.entry target = some entry ∧
        decodeEnvelope entry.payload = .ok envelope ∧ expected envelope.command = true := by
  unfold requireExtensionTarget
  cases hentry : history.entry target with
  | none => simp
  | some entry =>
    cases hdecode : decodeEnvelope entry.payload with
    | error e => simp [hdecode]
    | ok envelope => simp [hdecode]

theorem refuseLocked_ok {history : DagSnapshot} {entry : Entry} :
    refuseLocked history entry = .ok () ↔ extensionLockAt history entry.prevs = false := by
  simp [refuseLocked]

theorem bind_ok_unit {first second : Except String Unit} :
    (do first; second) = .ok () ↔ first = .ok () ∧ second = .ok () := by
  cases first with
  | error e => simp [bind,Except.bind]
  | ok u => simp [bind,Except.bind]

theorem validateExtension_ok {maxScaleDegrees : Nat} {command : ExtensionCommand} {entry : Entry}
    {history : DagSnapshot} :
    validateExtension maxScaleDegrees command entry history = .ok () ↔
      withinBounds maxScaleDegrees command = true ∧
        ∀ target expected, commandTarget command = some (target,expected) →
          requireExtensionTarget history target expected = .ok () ∧
            extensionLockAt history entry.prevs = false := by
  cases command with
  | putPiece emoji pitch =>
    simp only [validateExtension,withinBounds,commandTarget]
    split
    · rename_i hemoji
      rcases hemoji with h | h
      · simp [h]
      · simp [Nat.not_le.mpr h]
    · rename_i hemoji
      push Not at hemoji
      simp [hemoji.1,hemoji.2,validatePitch_ok]
  | movePiece piece pitch =>
    simp [validateExtension,withinBounds,commandTarget,bind_ok_unit,validatePitch_ok,
      refuseLocked_ok]
  | removePiece piece =>
    simp [validateExtension,withinBounds,commandTarget,bind_ok_unit,refuseLocked_ok]
  | unremovePiece remove =>
    simp [validateExtension,withinBounds,commandTarget,bind_ok_unit,refuseLocked_ok]
  | setConfig piecesLocked availableEmojis =>
    cases availableEmojis with
    | none => simp [validateExtension,withinBounds,commandTarget]
    | some emojis => simp [validateExtension,withinBounds,commandTarget]

section CausalPast

variable {first second : DagSnapshot} {entry : Entry}

theorem lockWrite_eq_some {written : Entry} {id : EntryHash} {locked : Bool} :
    lockWrite written = some (id,locked) ↔ written.hash = id ∧ ∃ envelope emojis,
      decodeEnvelope written.payload = .ok envelope ∧
        envelope.command = .setConfig (some locked) emojis := by
  unfold lockWrite
  cases hdecode : decodeEnvelope written.payload with
  | error e => simp
  | ok envelope =>
    cases hcommand : envelope.command with
    | setConfig piecesLocked emojis =>
      cases piecesLocked with
      | none => simp [hcommand]
      | some value => simp [hcommand]
    | putPiece | movePiece | removePiece | unremovePiece => simp [hcommand]

theorem mem_lockWritesAt {history : DagSnapshot} {heads : Position} {id : EntryHash}
    {locked : Bool} :
    (id,locked) ∈ lockWritesAt history heads ↔ id ∈ history.observedAt heads ∧
      ∃ written ∈ history.newestFirst, lockWrite written = some (id,locked) := by
  simp only [lockWritesAt,List.mem_filterMap,List.mem_filter,decide_eq_true_eq,mem_entriesTopo]
  constructor
  · rintro ⟨written,⟨hmem,hseen⟩,hwrite⟩
    exact ⟨(lockWrite_eq_some.mp hwrite).1 ▸ hseen,written,hmem,hwrite⟩
  · rintro ⟨hseen,written,hmem,hwrite⟩
    exact ⟨written,⟨hmem,(lockWrite_eq_some.mp hwrite).1 ▸ hseen⟩,hwrite⟩

theorem nodup_lockWritesAt {history : DagSnapshot} {heads : Position} :
    ((lockWritesAt history heads).map Prod.fst).Nodup := by
  refine (nodup_entriesTopo history).sublist ?_
  refine (filterMap_key_sublist fun written id locked hwrite =>
    (lockWrite_eq_some.mp hwrite).1).trans ?_
  exact List.filter_sublist.map CausalDag.Entry.hash

theorem extensionLockAt_congr (h : AgreeBelow first second entry) :
    extensionLockAt first entry.prevs = extensionLockAt second entry.prevs := by
  unfold extensionLockAt
  have hbelow : ∀ write ∈ lockWritesAt first entry.prevs, first.Ancestor write.1 entry.hash :=
    fun write hwrite => (mem_observedAt_prevs h.mem_first).mp (mem_lockWritesAt.mp hwrite).1
  rw [resolveRegister_congr nodup_lockWritesAt nodup_lockWritesAt]
  · rintro ⟨id,locked⟩
    rw [mem_lockWritesAt,mem_lockWritesAt,mem_observedAt_prevs h.mem_first,
      mem_observedAt_prevs h.mem_second,h.ancestor_iff]
    refine and_congr_right fun hid => ?_
    obtain ⟨found,hfirst,hsecond,rfl⟩ := h.entry_of_ancestor hid
    have honly : ∀ history : DagSnapshot, found ∈ history.newestFirst →
        ((∃ written ∈ history.newestFirst, lockWrite written = some (found.hash,locked)) ↔
          lockWrite found = some (found.hash,locked)) := by
      intro history hfound
      constructor
      · rintro ⟨written,hwritten,hwrite⟩
        have hhash := (lockWrite_eq_some.mp hwrite).1
        have hsame := (entry_eq_some.mpr ⟨hwritten,hhash⟩).symm.trans
          (entry_eq_some.mpr ⟨hfound,rfl⟩)
        rwa [Option.some.inj hsame] at hwrite
      · exact fun hwrite => ⟨found,hfound,hwrite⟩
    rw [honly first hfirst,honly second hsecond]
  · intro write _ later hlater
    exact (h.ancestor_iff_below (hbelow later hlater)).symm

theorem requireExtensionTarget_congr (h : AgreeBelow first second entry) {target : EntryHash}
    (htarget : target = entry.hash ∨ first.Ancestor target entry.hash)
    (expected : ExtensionCommand → Bool) :
    requireExtensionTarget first target expected =
      requireExtensionTarget second target expected := by
  have hlookup : second.entry target = first.entry target := by
    rcases htarget with rfl | hbelow
    · rw [entry_eq_some.mpr ⟨h.mem_second,rfl⟩,entry_eq_some.mpr ⟨h.mem_first,rfl⟩]
    · exact h.lookup target hbelow
  simp only [requireExtensionTarget,hlookup]

/-- The target of a command, if it has one, is the entry itself or one of its ancestors. -/
def TargetInPast (history : DagSnapshot) (entry : Entry) (command : ExtensionCommand) : Prop :=
  ∀ target expected, commandTarget command = some (target,expected) →
    target = entry.hash ∨ history.Ancestor target entry.hash

theorem validateExtension_congr (h : AgreeBelow first second entry) {maxScaleDegrees : Nat}
    {command : ExtensionCommand} (htarget : TargetInPast first entry command) :
    validateExtension maxScaleDegrees command entry second = .ok () ↔
      validateExtension maxScaleDegrees command entry first = .ok () := by
  rw [validateExtension_ok,validateExtension_ok,extensionLockAt_congr h]
  refine and_congr_right fun _ => forall₃_congr fun target expected hcommand => ?_
  rw [requireExtensionTarget_congr h (htarget target expected hcommand)]

theorem commandTarget_expected {command : ExtensionCommand} {target : EntryHash}
    {expected : ExtensionCommand → Bool} (h : commandTarget command = some (target,expected)) :
    ∃ wanted, expected wanted = true := by
  cases command with
  | movePiece piece pitch | removePiece piece =>
    obtain ⟨rfl,rfl⟩ := Prod.mk.inj (Option.some.inj h)
    exact ⟨.putPiece "" ⟨0,0,0⟩,rfl⟩
  | unremovePiece remove =>
    obtain ⟨rfl,rfl⟩ := Prod.mk.inj (Option.some.inj h)
    exact ⟨.removePiece 0,rfl⟩
  | putPiece emoji pitch | setConfig piecesLocked availableEmojis => cases h

/-- An entry that acts on something outside its past meets a history where the target is
absent and one where a concurrent entry supplies it. -/
theorem exists_absent_and_present (hentry : entry ∈ first.newestFirst) {target : EntryHash}
    {expected : ExtensionCommand → Bool} (hself : target ≠ entry.hash)
    (hpast : ¬ first.Ancestor target entry.hash) (hwanted : ∃ wanted, expected wanted = true) :
    ∃ absent present, AgreeBelow first absent entry ∧ AgreeBelow first present entry ∧
      requireExtensionTarget absent target expected ≠ .ok () ∧
      requireExtensionTarget present target expected = .ok () := by
  obtain ⟨wanted,hwanted⟩ := hwanted
  let absent := first.upTo entry hentry
  have habsent : target ∉ absent.hashes := by
    rw [DagSnapshot.mem_hashes]
    rintro ⟨found,hfound,rfl⟩
    rcases ((mem_upTo hentry).mp hfound).2 with h | h
    · exact hself h
    · exact hpast h
  let supplied : Entry := ⟨target,∅,.command ⟨roomProtocolGeneration,0,0,[],wanted⟩⟩
  let present := absent.push supplied (by simp [supplied]) habsent
  have hagree : AgreeBelow first absent entry := agreeBelow_upTo hentry
  refine ⟨absent,present,hagree,
    hagree.trans (.of_subset (List.subset_cons_self _ _) hagree.mem_second),?_,?_⟩
  · rw [ne_eq,requireExtensionTarget_ok,entry_eq_none.mpr habsent]
    simp
  · rw [requireExtensionTarget_ok]
    exact ⟨supplied,_,entry_eq_some.mpr ⟨List.mem_cons_self,rfl⟩,rfl,hwanted⟩

/-- Exactly when the verdict on an entry is a function of its causal past. -/
theorem verdict_of_causal_past_iff {history : DagSnapshot} {entry : Entry}
    (hentry : entry ∈ history.newestFirst) (maxScaleDegrees : Nat) (command : ExtensionCommand) :
    (∀ other, AgreeBelow history other entry →
      (validateExtension maxScaleDegrees command entry other = .ok () ↔
        validateExtension maxScaleDegrees command entry history = .ok ())) ↔
    TargetInPast history entry command ∨ withinBounds maxScaleDegrees command = false ∨
      extensionLockAt history entry.prevs = true := by
  constructor
  · intro hverdict
    by_contra hno
    push Not at hno
    obtain ⟨houtside,hbounds,hunlocked⟩ := hno
    rw [ne_eq,Bool.not_eq_false] at hbounds
    rw [ne_eq,Bool.not_eq_true] at hunlocked
    unfold TargetInPast at houtside
    push Not at houtside
    obtain ⟨target,expected,hcommand,hself,hpast⟩ := houtside
    obtain ⟨absent,present,habsent,hpresent,hmissing,hfound⟩ :=
      exists_absent_and_present hentry hself hpast (commandTarget_expected hcommand)
    have haccepts : validateExtension maxScaleDegrees command entry present = .ok () := by
      refine validateExtension_ok.mpr ⟨hbounds,fun found wanted h => ?_⟩
      obtain ⟨rfl,rfl⟩ := Prod.mk.inj (Option.some.inj (hcommand.symm.trans h))
      exact ⟨hfound,(extensionLockAt_congr hpresent).symm.trans hunlocked⟩
    have hrefuses := (hverdict absent habsent).mpr ((hverdict present hpresent).mp haccepts)
    exact hmissing ((validateExtension_ok.mp hrefuses).2 target expected hcommand).1
  · rintro (htarget | hbounds | hlocked) other hother
    · exact validateExtension_congr hother htarget
    · simp [validateExtension_ok,hbounds]
    · rw [validateExtension_ok,validateExtension_ok,← extensionLockAt_congr hother,hlocked]
      simp only [Bool.true_eq_false,and_false]

end CausalPast

section ConcurrentTarget

def topGrant : Entry := ⟨1,∅,.capability (.grant ⟨7,7,⟨5,[]⟩,none⟩)⟩

def putSun : Entry := ⟨2,{1},.command ⟨5,5,7,[1],.putPiece "sun" ⟨3,4,0⟩⟩⟩

/-- A move of the piece that `putSun` puts, authored without having seen it. -/
def blindMove : Entry := ⟨3,{1},.command ⟨5,5,7,[1],.movePiece 2 ⟨3,6,0⟩⟩⟩

def withoutPut : DagSnapshot := ⟨[blindMove,topGrant],by decide⟩
def withPut : DagSnapshot := ⟨[blindMove,putSun,topGrant],by decide⟩

def onlyPut : DagSnapshot := ⟨[putSun,topGrant],by decide⟩

/-- A move whose author has seen the piece being put. -/
def seenMove : Entry := ⟨4,{2},.command ⟨5,5,7,[1],.movePiece 2 ⟨3,6,0⟩⟩⟩

def aloneMoved : DagSnapshot := ⟨[seenMove,putSun,topGrant],by decide⟩
def besideMoved : DagSnapshot := ⟨[seenMove,blindMove,putSun,topGrant],by decide⟩

theorem seenMove_target : TargetInPast aloneMoved seenMove (.movePiece 2 ⟨3,6,0⟩) := by
  intro target expected h
  obtain ⟨rfl,-⟩ := Prod.mk.inj (Option.some.inj h)
  have hmoved : seenMove ∈ aloneMoved.newestFirst := by decide
  have hparent : CausalDag.Parent aloneMoved.newestFirst putSun.hash seenMove.hash :=
    (parent_of_entry hmoved).mpr (by decide)
  exact .inr (.single hparent)

theorem verdict_of_causal_past_iff_seenMove :
    validateExtension 128 (.movePiece 2 ⟨3,6,0⟩) seenMove besideMoved = .ok () ↔
      validateExtension 128 (.movePiece 2 ⟨3,6,0⟩) seenMove aloneMoved = .ok () :=
  (verdict_of_causal_past_iff (by decide) 128 (.movePiece 2 ⟨3,6,0⟩)).mpr
    (.inl seenMove_target) besideMoved (.of_subset (by decide) (by decide))

/-- One replica admits the move and another, with the same past of it, refuses. -/
theorem concurrent_target_splits_verdict :
    AgreeBelow withoutPut withPut blindMove ∧
      validateExtension 128 (.movePiece 2 ⟨3,6,0⟩) blindMove withPut = .ok () ∧
      validateExtension 128 (.movePiece 2 ⟨3,6,0⟩) blindMove withoutPut =
        .error "extension target is missing" :=
  ⟨.of_subset (by decide) (by decide),by decide,by decide⟩

end ConcurrentTarget

end WalkieSongie.Extension
