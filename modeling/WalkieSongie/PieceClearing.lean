import WalkieSongie.LockAgreement
import WalkieSongie.RemovingDag
set_option autoImplicit false

/-!
The extension lane as its own worker writes to it: a command authored over the frontier, and what
becomes of the pieces when they are removed one after the other.
-/

namespace WalkieSongie.Extension
open CausalRegister CausalDag CausalDag.DagSnapshot

theorem Issued.mem_hashes {evaluator : CapabilityEvaluator} {roots : List EntryHash}
    {history : DagSnapshot} {id : EntryHash} {actor : ActorId} {command : ExtensionCommand}
    (h : Issued evaluator roots history id actor command) : id ∈ history.hashes := by
  obtain ⟨found,hfound,rfl,-⟩ := h
  exact DagSnapshot.mem_hashes.mpr ⟨found,hfound,rfl⟩

theorem Asserts.mem_hashes {evaluator : CapabilityEvaluator} {roots : List EntryHash}
    {history : DagSnapshot} {put assertion : EntryHash} {putPitch pitch : TunedPeriodicPitch}
    (h : Asserts (Issued evaluator roots history) put putPitch assertion pitch)
    (hput : put ∈ history.hashes) : assertion ∈ history.hashes := by
  obtain ⟨rfl,-⟩ | ⟨actor,hmove,-⟩ := h
  · exact hput
  · exact hmove.mem_hashes

theorem presentedIds_eq_ok {maxPresentedGrants : Nat} {envelope : CommandEnvelope}
    {presented : List EntryHash} :
    presentedIds maxPresentedGrants envelope = .ok presented ↔
      envelope.presented = presented ∧ envelope.presented ≠ [] ∧
        envelope.presented.length ≤ maxPresentedGrants ∧ envelope.presented.Nodup := by
  have hdistinct : envelope.presented.toFinset.card = envelope.presented.length ↔
      envelope.presented.Nodup := Multiset.toFinset_card_eq_card_iff_nodup
  unfold presentedIds
  split
  · rename_i hbad
    simp only [reduceCtorEq,false_iff]
    rintro ⟨-,hnonempty,hbounded,-⟩
    obtain hempty | hmany := hbad
    · exact hnonempty (List.isEmpty_iff.mp hempty)
    · omega
  · rename_i hgood
    simp only [List.isEmpty_iff,not_or,Nat.not_lt] at hgood
    split
    · rename_i hrepeats
      simp [hdistinct.not.mp hrepeats]
    · rename_i hnodup
      rw [ne_eq,not_not,hdistinct] at hnodup
      simp [hgood.1,hgood.2,hnodup]

/-- The lane's replica in the hands of one member. -/
structure ExtensionReplica where
  evaluator : CapabilityEvaluator
  roots : List EntryHash
  namespaceDigest : Digest
  localActor : ActorId
  /-- The member's live grants, cut at the bound of a presentation. -/
  liveGrantsFor : DagSnapshot → List EntryHash
  /-- The library's refusal of a presentation. -/
  unauthorized : String
  maxScaleDegrees : Nat

namespace ExtensionReplica

variable (replica : ExtensionReplica)

def envelope (command : ExtensionCommand) (history : DagSnapshot) : CommandEnvelope where
  generation := roomProtocolGeneration
  namespaceDigest := replica.namespaceDigest
  actor := replica.localActor
  presented := replica.liveGrantsFor history
  command := command

def authored (command : ExtensionCommand) (hash : EntryHash) (history : DagSnapshot) : Entry :=
  ⟨hash,history.frontier,.command (replica.envelope command history)⟩

/-- The live grants let the member invoke at the frontier. -/
def authorizes (area : Area) (history : DagSnapshot) : Bool :=
  replica.evaluator.authorize history replica.roots
    { receiver := replica.localActor
      area
      right := .invoke
      presented := replica.liveGrantsFor history
      atPosition := history.frontier
      fromPosition := history.frontier }

/-- The entry that a command becomes, or why it is not admitted. -/
def commit (command : ExtensionCommand) (hash : EntryHash) (history : DagSnapshot) :
    Except String Entry :=
  if (replica.liveGrantsFor history).isEmpty then
    .error "local actor has no live capability for this Room-v5 lane"
  else if !replica.authorizes (extensionCommandArea replica.namespaceDigest command) history then
    .error replica.unauthorized
  else do
    let entry := replica.authored command hash history
    let _ ← presentedIds replica.evaluator.maxPresentedGrants (replica.envelope command history)
    validateExtension replica.maxScaleDegrees command entry history
    return entry

/-- Commands leave all authority as it was, and what a live grant allows at the frontier is allowed
to the command that is put there. -/
structure CommandsKeepAuthority : Prop where
  liveGrants : ∀ before after entry envelope, before.extend entry = some after →
    entry.payload = .command envelope →
      replica.liveGrantsFor after = replica.liveGrantsFor before
  frontier : ∀ before after entry envelope, before.extend entry = some after →
    entry.payload = .command envelope → ∀ receiver area presented,
      replica.evaluator.authorize after replica.roots
          ⟨receiver,area,.invoke,presented,after.frontier,after.frontier⟩ =
        replica.evaluator.authorize before replica.roots
          ⟨receiver,area,.invoke,presented,before.frontier,before.frontier⟩
  authored : ∀ before after entry envelope, before.extend entry = some after →
    entry.payload = .command envelope → entry.prevs = before.frontier →
      ∀ receiver area presented,
        replica.evaluator.authorize after replica.roots
            ⟨receiver,area,.invoke,presented,{entry.hash},after.frontier⟩ =
          replica.evaluator.authorize before replica.roots
            ⟨receiver,area,.invoke,presented,before.frontier,before.frontier⟩
  earlier : ∀ before after entry envelope, before.extend entry = some after →
    entry.payload = .command envelope → ∀ receiver area presented, ∀ id ∈ before.hashes,
      replica.evaluator.authorize after replica.roots
          ⟨receiver,area,.invoke,presented,{id},after.frontier⟩ =
        replica.evaluator.authorize before replica.roots
          ⟨receiver,area,.invoke,presented,{id},before.frontier⟩

/-- The member may remove pieces, by grants that one presentation holds, and admission finds no
lock at the frontier. -/
structure MayRemove (history : DagSnapshot) : Prop where
  authorizes : replica.authorizes (extensionPiecesArea replica.namespaceDigest) history = true
  nonempty : replica.liveGrantsFor history ≠ []
  bounded : (replica.liveGrantsFor history).length ≤ replica.evaluator.maxPresentedGrants
  distinct : (replica.liveGrantsFor history).Nodup
  unlocked : extensionLockAt history history.frontier = false

def view (history : DagSnapshot) : ExtensionView :=
  materializeExtension replica.evaluator replica.roots history

section Commit

variable {replica} {before after history : DagSnapshot} {piece put hash : EntryHash} {entry : Entry}

/-- What is admitted is the entry as it was authored, by grants that allow it. -/
theorem commit_eq_ok {command : ExtensionCommand} :
    replica.commit command hash history = .ok entry ↔
      entry = replica.authored command hash history ∧
      replica.authorizes (extensionCommandArea replica.namespaceDigest command) history = true ∧
      presentedIds replica.evaluator.maxPresentedGrants (replica.envelope command history) =
        .ok (replica.liveGrantsFor history) ∧
      validateExtension replica.maxScaleDegrees command entry history = .ok () := by
  unfold ExtensionReplica.commit
  cases hauthorizes : replica.authorizes
      (extensionCommandArea replica.namespaceDigest command) history with
  | false => split <;> simp
  | true =>
    cases hpresented : presentedIds replica.evaluator.maxPresentedGrants
        (replica.envelope command history) with
    | error error => split <;> simp [bind,Except.bind]
    | ok presented =>
      obtain ⟨rfl,hnonempty,-,-⟩ := presentedIds_eq_ok.mp hpresented
      have hgrants : replica.liveGrantsFor history ≠ [] := hnonempty
      cases hvalid : validateExtension replica.maxScaleDegrees command
          (replica.authored command hash history) history with
      | error error =>
        simp only [hgrants,List.isEmpty_iff,if_false,Bool.not_true,Bool.false_eq_true,hvalid,
          bind,Except.bind,reduceCtorEq,false_iff,not_and]
        rintro rfl - -
        simp [hvalid]
      | ok checked =>
        simp only [hgrants,List.isEmpty_iff,if_false,Bool.not_true,Bool.false_eq_true,hvalid,
          bind,Except.bind,pure,Except.pure,Except.ok.injEq]
        constructor
        · rintro rfl
          exact ⟨rfl,trivial,rfl,hvalid⟩
        · exact fun h => h.1.symm

theorem commit_removePiece :
    replica.commit (.removePiece piece) hash history = .ok entry ↔
      entry = replica.authored (.removePiece piece) hash history ∧ replica.MayRemove history ∧
        requireExtensionTarget history piece isPutPiece = .ok () := by
  rw [commit_eq_ok,presentedIds_eq_ok]
  refine and_congr_right fun hentry => ?_
  have hprevs : entry.prevs = history.frontier := by
    rw [hentry]
    rfl
  simp only [validateExtension_ok,withinBounds,commandTarget,Option.some.injEq,Prod.mk.injEq,
    and_imp,hprevs,true_and]
  constructor
  · rintro ⟨hauthorizes,⟨-,hnonempty,hbounded,hdistinct⟩,hvalid⟩
    obtain ⟨htarget,hunlocked⟩ := hvalid piece isPutPiece rfl rfl
    exact ⟨⟨hauthorizes,hnonempty,hbounded,hdistinct,hunlocked⟩,htarget⟩
  · rintro ⟨h,htarget⟩
    refine ⟨h.authorizes,⟨rfl,h.nonempty,h.bounded,h.distinct⟩,?_⟩
    rintro target expected rfl rfl
    exact ⟨htarget,h.unlocked⟩

end Commit

section Removal

variable {replica} {before after : DagSnapshot} {piece hash : EntryHash} {entry : Entry}

structure Removal (replica : ExtensionReplica) (piece : PieceId) (before : DagSnapshot)
    (entry : Entry) (after : DagSnapshot) : Prop where
  extended : before.extend entry = some after
  prevs : entry.prevs = before.frontier
  payload : entry.payload = .command (replica.envelope (.removePiece piece) before)
  authorizes : replica.authorizes (extensionPiecesArea replica.namespaceDigest) before = true
  presented : presentedIds replica.evaluator.maxPresentedGrants
    (replica.envelope (.removePiece piece) before) = .ok (replica.liveGrantsFor before)

theorem Removal.of_commit (h : replica.commit (.removePiece piece) hash before = .ok entry)
    (hextended : before.extend entry = some after) :
    replica.Removal piece before entry after := by
  obtain ⟨rfl,hauthorizes,hpresented,-⟩ := commit_eq_ok.mp h
  exact ⟨hextended,rfl,rfl,hauthorizes,hpresented⟩

namespace Removal

variable (h : replica.Removal piece before entry after)
include h

theorem grows : Extended before after entry := .of_extend h.extended

theorem decoded :
    decodeEnvelope entry.payload = .ok (replica.envelope (.removePiece piece) before) := by
  rw [h.payload]
  rfl

theorem above {id : EntryHash} (hid : id ∈ before.hashes) : after.Ancestor id entry.hash := by
  have hheads : before.frontier ⊆ before.hashes := Finset.filter_subset _ _
  rw [← mem_observedAt_prevs h.grows.mem,h.prevs,h.grows.grows.observedAt hheads,
    observedAt_frontier]
  exact hid

theorem ancestor_iff {id top : EntryHash} (htop : top ∈ before.hashes) :
    after.Ancestor id top ↔ before.Ancestor id top :=
  h.grows.grows.ancestor_iff htop

/-- The removal stands, and the commands before it stand as they did. -/
theorem issued_iff (hlaws : replica.CommandsKeepAuthority) {id : EntryHash} {actor : ActorId}
    {command : ExtensionCommand} :
    Issued replica.evaluator replica.roots after id actor command ↔
      (id = entry.hash ∧ actor = replica.localActor ∧ command = .removePiece piece) ∨
        Issued replica.evaluator replica.roots before id actor command := by
  have hcurrently : ∀ envelope area, ∀ id ∈ before.hashes,
      commandIsCurrentlyAuthorized replica.evaluator replica.roots after id envelope area =
        commandIsCurrentlyAuthorized replica.evaluator replica.roots before id envelope area := by
    intro envelope area id hid
    unfold commandIsCurrentlyAuthorized
    cases presentedIds replica.evaluator.maxPresentedGrants envelope with
    | error error => rfl
    | ok presented => exact hlaws.earlier before after entry _ h.extended h.payload _ _ _ id hid
  constructor
  · rintro ⟨found,hfound,rfl,envelope,hdecode,rfl,rfl,hauthorized⟩
    obtain rfl | hold := h.grows.only found hfound
    · rw [h.decoded] at hdecode
      obtain rfl := Except.ok.inj hdecode
      exact .inl ⟨rfl,rfl,rfl⟩
    · rw [hcurrently _ _ _ (DagSnapshot.mem_hashes.mpr ⟨found,hold,rfl⟩)] at hauthorized
      exact .inr ⟨found,hold,rfl,envelope,hdecode,rfl,rfl,hauthorized⟩
  · rintro (⟨rfl,rfl,rfl⟩ | ⟨found,hfound,rfl,envelope,hdecode,rfl,rfl,hauthorized⟩)
    · refine ⟨entry,h.grows.mem,rfl,_,h.decoded,rfl,rfl,?_⟩
      simp only [commandIsCurrentlyAuthorized,h.presented]
      exact (hlaws.authored before after entry _ h.extended h.payload h.prevs _ _ _).trans
        h.authorizes
    · rw [← hcurrently _ _ _ (DagSnapshot.mem_hashes.mpr ⟨found,hfound,rfl⟩)] at hauthorized
      exact ⟨found,h.grows.grows.mem hfound,rfl,envelope,hdecode,rfl,rfl,hauthorized⟩

section Pieces

variable (hlaws : replica.CommandsKeepAuthority)
include hlaws

/-- The removal is one more effective remove; the others are what they were. -/
theorem effectiveRemove_iff {remove put : EntryHash} :
    EffectiveRemove after.Ancestor (Issued replica.evaluator replica.roots after) remove put ↔
      (remove = entry.hash ∧ put = piece) ∨
        EffectiveRemove before.Ancestor (Issued replica.evaluator replica.roots before) remove
          put := by
  simp only [EffectiveRemove,h.issued_iff hlaws,reduceCtorEq,and_false,false_or]
  constructor
  · rintro ⟨⟨actor,⟨rfl,-,hcommand⟩ | hissued⟩,hstands⟩
    · exact .inl ⟨rfl,ExtensionCommand.removePiece.inj hcommand⟩
    · refine .inr ⟨⟨actor,hissued⟩,fun unremove other hunremove hbefore => ?_⟩
      exact hstands unremove other hunremove ((h.ancestor_iff hunremove.mem_hashes).mpr hbefore)
  · rintro (⟨rfl,rfl⟩ | ⟨⟨actor,hissued⟩,hstands⟩)
    · refine ⟨⟨_,.inl ⟨rfl,rfl,rfl⟩⟩,fun unremove other hunremove hafter => ?_⟩
      -- no old entry stands above the new one
      exact h.grows.fresh ((h.ancestor_iff hunremove.mem_hashes).mp hafter).mem_hashes
    · refine ⟨⟨actor,.inr hissued⟩,fun unremove other hunremove hafter => ?_⟩
      exact hstands unremove other hunremove ((h.ancestor_iff hunremove.mem_hashes).mp hafter)

theorem asserts_iff {put assertion : EntryHash} {putPitch pitch : TunedPeriodicPitch} :
    Asserts (Issued replica.evaluator replica.roots after) put putPitch assertion pitch ↔
      Asserts (Issued replica.evaluator replica.roots before) put putPitch assertion pitch := by
  simp only [Asserts,h.issued_iff hlaws,reduceCtorEq,and_false,false_or]

section Put

variable {put : EntryHash} (hput : put ∈ before.hashes)
include hput

/-- Of the piece that is removed no assertion is left, of the others all are. -/
theorem survives_iff {putPitch pitch : TunedPeriodicPitch} {assertion : EntryHash} :
    Survives after.Ancestor (Issued replica.evaluator replica.roots after) put putPitch assertion
        pitch ↔
      put ≠ piece ∧ Survives before.Ancestor (Issued replica.evaluator replica.roots before) put
        putPitch assertion pitch := by
  simp only [Survives,h.asserts_iff hlaws,h.effectiveRemove_iff hlaws]
  constructor
  · rintro ⟨hasserts,hunseen⟩
    refine ⟨?_,hasserts,fun remove hremove hbefore => ?_⟩
    · rintro rfl
      exact hunseen entry.hash (.inl ⟨rfl,rfl⟩) (h.above (hasserts.mem_hashes hput))
    · obtain ⟨actor,hissued⟩ := hremove.1
      exact hunseen remove (.inr hremove) ((h.ancestor_iff hissued.mem_hashes).mpr hbefore)
  · rintro ⟨hother,hasserts,hunseen⟩
    refine ⟨hasserts,?_⟩
    rintro remove (⟨-,hsame⟩ | hremove) hafter
    · exact hother hsame
    · obtain ⟨actor,hissued⟩ := hremove.1
      exact hunseen remove hremove ((h.ancestor_iff hissued.mem_hashes).mp hafter)

theorem latestSurvivor_iff {putPitch pitch : TunedPeriodicPitch} {assertion : EntryHash} :
    LatestSurvivor after.Ancestor (Issued replica.evaluator replica.roots after) put putPitch
        assertion pitch ↔
      put ≠ piece ∧ LatestSurvivor before.Ancestor
        (Issued replica.evaluator replica.roots before) put putPitch assertion pitch := by
  have hlast : ∀ other otherPitch, Survives before.Ancestor
      (Issued replica.evaluator replica.roots before) put putPitch other otherPitch →
        (after.Ancestor assertion other ↔ before.Ancestor assertion other) :=
    fun other otherPitch hsurvives => h.ancestor_iff (hsurvives.1.mem_hashes hput)
  simp only [LatestSurvivor,h.survives_iff hlaws hput,and_assoc]
  refine and_congr_right fun hother => and_congr_right fun _ => ?_
  constructor
  · intro hafter other otherPitch hsurvives hbefore
    exact hafter other otherPitch ⟨hother,hsurvives⟩ ((hlast _ _ hsurvives).mpr hbefore)
  · rintro hbefore other otherPitch ⟨-,hsurvives⟩ hafter
    exact hbefore other otherPitch hsurvives ((hlast _ _ hsurvives).mp hafter)

end Put

theorem shows_iff {put : EntryHash} {shown : Piece} :
    Shows after.Ancestor (Issued replica.evaluator replica.roots after) put shown ↔
      put ≠ piece ∧
        Shows before.Ancestor (Issued replica.evaluator replica.roots before) put shown := by
  simp only [Shows,h.issued_iff hlaws,reduceCtorEq,and_false,false_or]
  constructor
  · rintro ⟨putPitch,winner,hput,hlatest,hlargest⟩
    have hmem := hput.mem_hashes
    simp only [h.latestSurvivor_iff hlaws hmem] at hlatest hlargest
    refine ⟨hlatest.1,putPitch,winner,hput,hlatest.2,fun other otherPitch hother => ?_⟩
    exact hlargest other otherPitch ⟨hlatest.1,hother⟩
  · rintro ⟨hother,putPitch,winner,hput,hlatest,hlargest⟩
    have hmem := hput.mem_hashes
    refine ⟨putPitch,winner,hput,(h.latestSurvivor_iff hlaws hmem).mpr ⟨hother,hlatest⟩,?_⟩
    intro rival rivalPitch hrival
    exact hlargest rival rivalPitch ((h.latestSurvivor_iff hlaws hmem).mp hrival).2

theorem pieces (put : PieceId) :
    (replica.view after).pieces[put]? =
      if put = piece then none else (replica.view before).pieces[put]? := by
  have hunique := nodup_extensionCommands replica.evaluator replica.roots
  refine Option.ext fun shown => ?_
  simp only [view,materializeExtension]
  rw [materializePieces_getElem? (hunique after),issuedBy_extensionCommands,h.shows_iff hlaws]
  split
  · rename_i hsame
    simp [hsame]
  · rename_i hother
    rw [materializePieces_getElem? (hunique before),issuedBy_extensionCommands]
    exact and_iff_right hother

end Pieces

theorem writesLock_iff {id : EntryHash} {locked : Bool} :
    WritesLock after id locked ↔ WritesLock before id locked := by
  constructor
  · rintro ⟨found,hfound,hwrite⟩
    obtain rfl | hold := h.grows.only found hfound
    · obtain ⟨-,envelope,emojis,hdecode,hcommand⟩ := lockWrite_eq_some.mp hwrite
      rw [h.decoded] at hdecode
      cases hdecode
      cases hcommand
    · exact ⟨found,hold,hwrite⟩
  · rintro ⟨found,hfound,hwrite⟩
    exact ⟨found,h.grows.grows.mem hfound,hwrite⟩

theorem lockAt : extensionLockAt after after.frontier = extensionLockAt before before.frontier := by
  have hbelow : ∀ id other value, WritesLock before other value →
      (after.Ancestor id other ↔ before.Ancestor id other) := by
    rintro id other value ⟨found,hfound,hwrite⟩
    refine h.ancestor_iff (DagSnapshot.mem_hashes.mpr ⟨found,hfound,?_⟩)
    exact (lockWrite_eq_some.mp hwrite).1
  rw [Bool.eq_iff_iff,extensionLockAt_frontier,extensionLockAt_frontier]
  simp only [LockRegister,h.writesLock_iff]
  refine exists_congr fun winner => and_congr_right fun _ => and_congr ?_ ?_
  · refine forall_congr' fun other => forall_congr' fun value => forall_congr' fun hwrite => ?_
    rw [hbelow winner other value hwrite]
  · refine forall_congr' fun other => forall_congr' fun value => forall_congr' fun _ => ?_
    refine imp_congr_left (forall_congr' fun third => forall_congr' fun value =>
      forall_congr' fun hwrite => ?_)
    rw [hbelow other third value hwrite]

theorem mayRemove (hlaws : replica.CommandsKeepAuthority) (hmay : replica.MayRemove before) :
    replica.MayRemove after := by
  have hgrants := hlaws.liveGrants before after entry _ h.extended h.payload
  have hfrontier := hlaws.frontier before after entry _ h.extended h.payload
  refine ⟨?_,hgrants ▸ hmay.nonempty,hgrants ▸ hmay.bounded,hgrants ▸ hmay.distinct,
    h.lockAt.trans hmay.unlocked⟩
  unfold ExtensionReplica.authorizes
  rw [hgrants,hfrontier]
  exact hmay.authorizes

end Removal

end Removal

section Cleared

variable {replica} {start before after : DagSnapshot} {removed : List PieceId}
  {piece hash : EntryHash} {entry : Entry}

/-- What the lane has come to when these pieces have been removed. -/
structure Cleared (replica : ExtensionReplica) (start : DagSnapshot) (removed : List PieceId)
    (history : DagSnapshot) : Prop where
  grows : start.Grows history
  mayRemove : replica.MayRemove history
  pieces : ∀ put : PieceId, (replica.view history).pieces[put]? =
    if put ∈ removed then none else (replica.view start).pieces[put]?

theorem MayRemove.cleared (h : replica.MayRemove start) : replica.Cleared start [] start where
  grows := .refl start
  mayRemove := h
  pieces put := by simp

theorem requireExtensionTarget_of_view (h : piece ∈ (replica.view start).pieces) :
    requireExtensionTarget start piece isPutPiece = .ok () := by
  have hunique := nodup_extensionCommands replica.evaluator replica.roots start
  obtain ⟨owner,emoji,putPitch,hput,-⟩ := (mem_materializePieces hunique).mp h
  rw [issuedBy_extensionCommands] at hput
  obtain ⟨found,hfound,rfl,envelope,hdecode,-,hcommand,-⟩ := hput
  refine requireExtensionTarget_ok.mpr ⟨found,envelope,entry_eq_some.mpr ⟨hfound,rfl⟩,hdecode,?_⟩
  rw [hcommand]
  rfl

theorem requireExtensionTarget_grows (h : start.Grows after)
    (htarget : requireExtensionTarget start piece isPutPiece = .ok ()) :
    requireExtensionTarget after piece isPutPiece = .ok () := by
  obtain ⟨found,envelope,hfound,hdecode,hexpected⟩ := requireExtensionTarget_ok.mp htarget
  obtain ⟨hmem,hhash⟩ := entry_eq_some.mp hfound
  exact requireExtensionTarget_ok.mpr
    ⟨found,envelope,entry_eq_some.mpr ⟨h.mem hmem,hhash⟩,hdecode,hexpected⟩

theorem Cleared.commit_ok (h : replica.Cleared start removed before)
    (hpiece : piece ∈ (replica.view start).pieces) :
    replica.commit (.removePiece piece) hash before =
      .ok (replica.authored (.removePiece piece) hash before) :=
  commit_removePiece.mpr ⟨rfl,h.mayRemove,
    requireExtensionTarget_grows h.grows (requireExtensionTarget_of_view hpiece)⟩

theorem Cleared.step (h : replica.Cleared start removed before)
    (hlaws : replica.CommandsKeepAuthority)
    (hcommit : replica.commit (.removePiece piece) hash before = .ok entry)
    (hextended : before.extend entry = some after) :
    replica.Cleared start (removed ++ [piece]) after := by
  have hremoval := Removal.of_commit hcommit hextended
  refine ⟨h.grows.trans hremoval.grows.grows,hremoval.mayRemove hlaws h.mayRemove,?_⟩
  intro put
  rw [hremoval.pieces hlaws put,h.pieces put]
  by_cases hsame : put = piece
  · simp [hsame]
  · simp [hsame]

end Cleared

end ExtensionReplica

end WalkieSongie.Extension
