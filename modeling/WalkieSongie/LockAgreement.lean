import WalkieSongie.ExtensionView
set_option autoImplicit false

/-!
The lock that admission reads at a frontier and the lock that the view shows: one register
over all lock writes, the other over those whose authority still stands.
-/

namespace WalkieSongie.Extension
open CausalRegister CausalDag CausalDag.DagSnapshot

section Locks

variable {evaluator : CapabilityEvaluator} {roots : List EntryHash} {history : DagSnapshot}

def WritesLock (history : DagSnapshot) (id : EntryHash) (locked : Bool) : Prop :=
  ∃ entry ∈ history.newestFirst, lockWrite entry = some (id,locked)

def WritesLockWithAuthority (evaluator : CapabilityEvaluator) (roots : List EntryHash)
    (history : DagSnapshot) (id : EntryHash) (locked : Bool) : Prop :=
  ∃ actor emojis, Issued evaluator roots history id actor (.setConfig (some locked) emojis)

/-- The value of the largest write that no other write follows. -/
def LockRegister (history : DagSnapshot) (writes : EntryHash → Bool → Prop)
    (locked : Bool) : Prop :=
  ∃ winner, writes winner locked ∧
    (∀ other value, writes other value → ¬ history.Ancestor winner other) ∧
    ∀ other value, writes other value →
      (∀ third value, writes third value → ¬ history.Ancestor other third) → other ≤ winner

theorem resolveRegister_lock {values : List (EntryHash × Bool)}
    {writes : EntryHash → Bool → Prop} (hunique : (values.map Prod.fst).Nodup)
    (hwrites : ∀ id locked, (id,locked) ∈ values ↔ writes id locked) :
    (resolveRegister history.isAncestor values).getD false = true ↔
      LockRegister history writes true := by
  have hids : ∀ id, id ∈ (values.map Prod.fst).toFinset ↔ ∃ locked, writes id locked := by
    intro id
    simp only [List.mem_toFinset,List.mem_map,Prod.exists,exists_and_right,exists_eq_right,hwrites]
  have hget : (resolveRegister history.isAncestor values).getD false = true ↔
      resolveRegister history.isAncestor values = some true := by
    cases resolveRegister history.isAncestor values <;> simp
  rw [hget,resolveRegister_eq_some hunique]
  simp only [Wins,Latest,hids,hwrites,LockRegister,forall_exists_index,and_imp]
  constructor
  · rintro ⟨winner,⟨⟨-,hlast⟩,hlargest⟩,hvalue⟩
    exact ⟨winner,hvalue,hlast,hlargest⟩
  · rintro ⟨winner,hvalue,hlast,hlargest⟩
    exact ⟨winner,⟨⟨⟨true,hvalue⟩,hlast⟩,hlargest⟩,hvalue⟩

theorem mem_lockWritesAt_frontier {id : EntryHash} {locked : Bool} :
    (id,locked) ∈ lockWritesAt history history.frontier ↔ WritesLock history id locked := by
  rw [mem_lockWritesAt,observedAt_frontier,DagSnapshot.mem_hashes]
  constructor
  · exact fun h => h.2
  · rintro ⟨entry,hentry,hwrite⟩
    exact ⟨⟨entry,hentry,(lockWrite_eq_some.mp hwrite).1⟩,entry,hentry,hwrite⟩

theorem mem_lockWrites_extensionCommands {id : EntryHash} {locked : Bool} :
    (id,locked) ∈ lockWrites (extensionCommands evaluator roots history) ↔
      WritesLockWithAuthority evaluator roots history id locked := by
  unfold WritesLockWithAuthority
  rw [← issuedBy_extensionCommands]
  simp only [lockWrites,List.mem_filterMap]
  constructor
  · rintro ⟨⟨found,actor,command⟩,hmem,hread⟩
    cases command with
    | setConfig piecesLocked emojis =>
      cases piecesLocked with
      | none => cases hread
      | some value =>
        obtain ⟨rfl,rfl⟩ := Prod.mk.inj (Option.some.inj hread)
        exact ⟨actor,emojis,hmem⟩
    | putPiece | movePiece | unremovePiece | removePiece => cases hread
  · rintro ⟨actor,emojis,hmem⟩
    exact ⟨_,hmem,rfl⟩

theorem WritesLockWithAuthority.writesLock {id : EntryHash} {locked : Bool}
    (h : WritesLockWithAuthority evaluator roots history id locked) :
    WritesLock history id locked := by
  obtain ⟨actor,emojis,entry,hentry,rfl,envelope,hdecode,rfl,hcommand,-⟩ := h
  exact ⟨entry,hentry,lockWrite_eq_some.mpr ⟨rfl,envelope,emojis,hdecode,hcommand⟩⟩

/-- Every lock write that no other lock write follows still has its authority. -/
def LatestLockWritesStand (evaluator : CapabilityEvaluator) (roots : List EntryHash)
    (history : DagSnapshot) : Prop :=
  ∀ id locked, WritesLock history id locked →
    (∀ other value, WritesLock history other value → ¬ history.Ancestor id other) →
    WritesLockWithAuthority evaluator roots history id locked

theorem extensionLockAt_frontier :
    extensionLockAt history history.frontier = true ↔
      LockRegister history (WritesLock history) true :=
  resolveRegister_lock nodup_lockWritesAt fun _ _ => mem_lockWritesAt_frontier

theorem piecesLocked_iff :
    (materializeExtension evaluator roots history).piecesLocked = true ↔
      LockRegister history (WritesLockWithAuthority evaluator roots history) true :=
  resolveRegister_lock (nodup_lockWrites (nodup_extensionCommands evaluator roots history))
    fun _ _ => mem_lockWrites_extensionCommands

theorem writesLock_unique {id : EntryHash} {first second : Bool}
    (hfirst : WritesLock history id first) (hsecond : WritesLock history id second) :
    first = second := by
  have hsame := List.inj_on_of_nodup_map nodup_lockWritesAt
    (mem_lockWritesAt_frontier.mpr hfirst) (mem_lockWritesAt_frontier.mpr hsecond) rfl
  exact (Prod.mk.inj hsame).2

theorem lock_agrees_of_latest_stand (h : LatestLockWritesStand evaluator roots history) :
    extensionLockAt history history.frontier =
      (materializeExtension evaluator roots history).piecesLocked := by
  let all := lockWritesAt history history.frontier
  let standing := lockWrites (extensionCommands evaluator roots history)
  have hall : ∀ id, id ∈ (all.map Prod.fst).toFinset ↔ ∃ locked, WritesLock history id locked := by
    intro id
    simp only [List.mem_toFinset,List.mem_map,Prod.exists,exists_and_right,exists_eq_right,all,
      mem_lockWritesAt_frontier]
  have hstanding : ∀ id, id ∈ (standing.map Prod.fst).toFinset ↔
      ∃ locked, WritesLockWithAuthority evaluator roots history id locked := by
    intro id
    simp only [List.mem_toFinset,List.mem_map,Prod.exists,exists_and_right,exists_eq_right,
      standing,mem_lockWrites_extensionCommands]
  have hwins : ∀ winner, Wins history.Ancestor (all.map Prod.fst).toFinset winner ↔
      Wins history.Ancestor (standing.map Prod.fst).toFinset winner := by
    refine fun winner => wins_iff_of_latest_kept ?_ ?_
    · intro id hid
      obtain ⟨locked,hwrites⟩ := (hstanding id).mp hid
      exact (hall id).mpr ⟨locked,hwrites.writesLock⟩
    · rintro id ⟨hid,hlast⟩
      obtain ⟨locked,hwrites⟩ := (hall id).mp hid
      refine (hstanding id).mpr ⟨locked,h id locked hwrites fun other value hother => ?_⟩
      exact hlast other ((hall other).mpr ⟨value,hother⟩)
  have hresolve : resolveRegister history.isAncestor all =
      resolveRegister history.isAncestor standing := by
    refine Option.ext fun locked => ?_
    rw [resolveRegister_eq_some nodup_lockWritesAt,
      resolveRegister_eq_some (nodup_lockWrites (nodup_extensionCommands evaluator roots history))]
    refine exists_congr fun winner => ?_
    rw [hwins winner]
    refine and_congr_right fun hwinner => ?_
    rw [mem_lockWritesAt_frontier,mem_lockWrites_extensionCommands]
    constructor
    · intro hwrites
      obtain ⟨value,hvalue⟩ := (hstanding winner).mp hwinner.mem
      rwa [writesLock_unique hwrites hvalue.writesLock]
    · exact fun hwrites => hwrites.writesLock
  simp only [extensionLockAt,materializeExtension]
  exact congrArg (Option.getD · false) hresolve

/-- A command whose own checks pass is refused as locked or admitted. -/
theorem validateExtension_locked {maxScaleDegrees : Nat} {command : ExtensionCommand}
    {entry : Entry} {target : EntryHash} {expected : ExtensionCommand → Bool}
    (hbounds : withinBounds maxScaleDegrees command = true)
    (hcommand : commandTarget command = some (target,expected))
    (htarget : requireExtensionTarget history target expected = .ok ()) :
    validateExtension maxScaleDegrees command entry history = refuseLocked history entry := by
  cases command with
  | movePiece piece pitch =>
    obtain ⟨rfl,rfl⟩ := Prod.mk.inj (Option.some.inj hcommand)
    simp only [validateExtension,validatePitch_ok.mpr hbounds,htarget,bind,Except.bind]
  | removePiece piece | unremovePiece remove =>
    obtain ⟨rfl,rfl⟩ := Prod.mk.inj (Option.some.inj hcommand)
    simp only [validateExtension,htarget,bind,Except.bind]
  | putPiece emoji pitch | setConfig piecesLocked emojis => cases hcommand

/-- Admission resolves the lock over every write and the view over the standing ones. They
agree, and a command at the frontier is refused as locked exactly when the view is locked,
as soon as the latest writes stand. -/
theorem lock_at_frontier_and_view (evaluator : CapabilityEvaluator) (roots : List EntryHash)
    (history : DagSnapshot) :
    (extensionLockAt history history.frontier = true ↔
      LockRegister history (WritesLock history) true) ∧
    ((materializeExtension evaluator roots history).piecesLocked = true ↔
      LockRegister history (WritesLockWithAuthority evaluator roots history) true) ∧
    (LatestLockWritesStand evaluator roots history →
      extensionLockAt history history.frontier =
        (materializeExtension evaluator roots history).piecesLocked ∧
      ∀ maxScaleDegrees command entry target expected,
        entry.prevs = history.frontier → withinBounds maxScaleDegrees command = true →
        commandTarget command = some (target,expected) →
        requireExtensionTarget history target expected = .ok () →
        (validateExtension maxScaleDegrees command entry history =
            .error "pieces are locked at this command's causal position" ↔
          (materializeExtension evaluator roots history).piecesLocked = true)) := by
  refine ⟨extensionLockAt_frontier,piecesLocked_iff,fun h => ?_⟩
  have hagrees := lock_agrees_of_latest_stand h
  refine ⟨hagrees,?_⟩
  intro maxScaleDegrees command entry target expected hprevs hbounds hcommand htarget
  rw [validateExtension_locked hbounds hcommand htarget,refuseLocked,hprevs,hagrees]
  split <;> simp_all

end Locks

section RetractedLock

def lockByOwner : Entry := ⟨2,{1},.command ⟨5,5,7,[1],.setConfig (some true) none⟩⟩
def lockedByOwner : DagSnapshot := ⟨[lockByOwner,topGrant],by decide⟩

theorem lock_at_frontier_and_view_lockedByOwner :
    extensionLockAt lockedByOwner lockedByOwner.frontier =
      (materializeExtension directGrants [1] lockedByOwner).piecesLocked := by
  refine ((lock_at_frontier_and_view directGrants [1] lockedByOwner).2.2 ?_).1
  rintro id locked ⟨entry,hentry,hwrite⟩ -
  obtain ⟨rfl,envelope,emojis,hdecode,hcommand⟩ := lockWrite_eq_some.mp hwrite
  rcases List.mem_cons.mp hentry with rfl | hentry
  · obtain rfl := Except.ok.inj hdecode
    obtain ⟨hlocked,hemojis⟩ := ExtensionCommand.setConfig.inj hcommand
    obtain rfl := Option.some.inj hlocked
    exact ⟨7,none,lockByOwner,by decide,rfl,_,rfl,rfl,rfl,by decide⟩
  · rcases List.mem_cons.mp hentry with rfl | hnone
    · cases hdecode
    · cases hnone

/-- The owner delegates configuration; the member's lock and the owner's barrier revocation of
the delegation do not see each other. -/
def delegateConfig : Entry :=
  ⟨2,{1},.capability (.grant ⟨7,8,extensionConfigArea 5,some 1⟩)⟩
def lockByMember : Entry := ⟨3,{2},.command ⟨5,5,8,[2],.setConfig (some true) none⟩⟩
def revokeMember : Entry := ⟨4,{2},.capability (.revoke ⟨7,2,true⟩)⟩
def retractedLock : DagSnapshot :=
  ⟨[revokeMember,lockByMember,delegateConfig,topGrant],by decide⟩

theorem retracted_lock_splits_lock_and_view :
    extensionLockAt retractedLock retractedLock.frontier = true ∧
      (materializeExtension directGrants [1] retractedLock).piecesLocked = false := by
  decide

end RetractedLock

end WalkieSongie.Extension
