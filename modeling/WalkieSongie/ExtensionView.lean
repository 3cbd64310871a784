import Std.Data.ExtTreeMap
import WalkieSongie.ExtensionAdmission
set_option autoImplicit false

/-!
The extension view: the pieces and the configuration that the currently authorized commands
of a history amount to.
-/

namespace WalkieSongie.Extension
open CausalRegister CausalDag CausalDag.DagSnapshot

inductive Right where
  | invoke
  deriving DecidableEq

structure AuthorizationRequest where
  receiver : ActorId
  area : Area
  right : Right
  presented : List EntryHash
  atPosition : Position
  fromPosition : Position

/-- The capability library: its verdicts read the entries of a history, not their order. -/
structure CapabilityEvaluator where
  authorize : DagSnapshot → List EntryHash → AuthorizationRequest → Bool
  maxPresentedGrants : Nat
  authorize_congr : ∀ first second : DagSnapshot, first.SameEntries second →
    authorize first = authorize second

variable (evaluator : CapabilityEvaluator) (roots : List EntryHash) (history : DagSnapshot)

def commandIsCurrentlyAuthorized (entry : EntryHash) (envelope : CommandEnvelope) (area : Area) :
    Bool :=
  match presentedIds evaluator.maxPresentedGrants envelope with
  | .error _ => false
  | .ok presented =>
      evaluator.authorize history roots
        { receiver := envelope.actor
          area
          right := .invoke
          presented
          atPosition := {entry}
          fromPosition := history.frontier }

/-- A command with the entry and the actor it came from. -/
abbrev Authored := EntryHash × ActorId × ExtensionCommand

def authorizedCommand (entry : Entry) : Option Authored :=
  match decodeEnvelope entry.payload with
  | .error _ => none
  | .ok envelope =>
      if commandIsCurrentlyAuthorized evaluator roots history entry.hash envelope
          (extensionCommandArea envelope.namespaceDigest envelope.command) then
        some (entry.hash,envelope.actor,envelope.command)
      else none

def extensionCommands : List Authored :=
  history.entriesTopo.filterMap (authorizedCommand evaluator roots history)

structure Piece where
  owner : ActorId
  emoji : String
  pitch : TunedPeriodicPitch
  deriving DecidableEq

structure ExtensionView where
  pieces : Std.ExtTreeMap PieceId Piece
  piecesLocked : Bool
  availableEmojis : Option String

section Materialize

variable (isAncestor : EntryHash → EntryHash → Bool) (commands : List Authored)

def lockWrites : List (EntryHash × Bool) :=
  commands.filterMap fun
    | (id,_,.setConfig (some value) _) => some (id,value)
    | _ => none

def emojiWrites : List (EntryHash × String) :=
  commands.filterMap fun
    | (id,_,.setConfig _ (some value)) => some (id,value)
    | _ => none

def unremoves : List (EntryHash × PieceId) :=
  commands.filterMap fun
    | (id,_,.unremovePiece remove) => some (id,remove)
    | _ => none

def effectiveRemoves : List (EntryHash × PieceId) :=
  (commands.filterMap fun
    | (id,_,.removePiece piece) => some (id,piece)
    | _ => none).filter fun (remove,_) =>
      !(unremoves commands).any fun (unremove,target) =>
        target = remove && isAncestor remove unremove

def puts : List (EntryHash × ActorId × String × TunedPeriodicPitch) :=
  commands.filterMap fun
    | (id,actor,.putPiece emoji pitch) => some (id,actor,emoji,pitch)
    | _ => none

/-- The put and the moves that keep its tuning, less what an effective remove has seen. -/
def survivingAssertions (put : EntryHash) (putPitch : TunedPeriodicPitch) :
    List (EntryHash × TunedPeriodicPitch) :=
  ((put,putPitch) :: commands.filterMap fun
    | (id,_,.movePiece piece pitch) =>
        if piece = put ∧ pitch.tuningId = putPitch.tuningId then some (id,pitch) else none
    | _ => none).filter fun (assertion,_) =>
      !(effectiveRemoves isAncestor commands).any fun (remove,target) =>
        target = put && isAncestor assertion remove

def materializePieces : Std.ExtTreeMap PieceId Piece :=
  (puts commands).foldl (fun pieces (put,owner,emoji,putPitch) =>
    match resolveRegister isAncestor (survivingAssertions isAncestor commands put putPitch) with
    | none => pieces
    | some pitch => pieces.insert put ⟨owner,emoji,pitch⟩) ∅

end Materialize

def materializeExtension : ExtensionView :=
  let commands := extensionCommands evaluator roots history
  { pieces := materializePieces history.isAncestor commands
    piecesLocked := (resolveRegister history.isAncestor (lockWrites commands)).getD false
    availableEmojis := resolveRegister history.isAncestor (emojiWrites commands) }

section Meaning

variable (before : EntryHash → EntryHash → Prop)
  (issued : EntryHash → ActorId → ExtensionCommand → Prop)

/-- A remove holds unless an unremove that saw it took it back. -/
def EffectiveRemove (remove piece : EntryHash) : Prop :=
  (∃ actor, issued remove actor (.removePiece piece)) ∧
    ∀ unremove actor, issued unremove actor (.unremovePiece remove) → ¬ before remove unremove

/-- What a piece's pitch may come from: its put, or a move that keeps the put's tuning. -/
def Asserts (put : EntryHash) (putPitch : TunedPeriodicPitch) (assertion : EntryHash)
    (pitch : TunedPeriodicPitch) : Prop :=
  (assertion = put ∧ pitch = putPitch) ∨
    ∃ actor, issued assertion actor (.movePiece put pitch) ∧ pitch.tuningId = putPitch.tuningId

/-- An assertion that no effective remove of the piece has seen. -/
def Survives (put : EntryHash) (putPitch : TunedPeriodicPitch) (assertion : EntryHash)
    (pitch : TunedPeriodicPitch) : Prop :=
  Asserts issued put putPitch assertion pitch ∧
    ∀ remove, EffectiveRemove before issued remove put → ¬ before assertion remove

def LatestSurvivor (put : EntryHash) (putPitch : TunedPeriodicPitch) (assertion : EntryHash)
    (pitch : TunedPeriodicPitch) : Prop :=
  Survives before issued put putPitch assertion pitch ∧
    ∀ other otherPitch, Survives before issued put putPitch other otherPitch →
      ¬ before assertion other

/-- A piece shows the pitch of its largest latest survivor. -/
def Shows (put : EntryHash) (piece : Piece) : Prop :=
  ∃ putPitch winner, issued put piece.owner (.putPiece piece.emoji putPitch) ∧
    LatestSurvivor before issued put putPitch winner piece.pitch ∧
    ∀ other otherPitch, LatestSurvivor before issued put putPitch other otherPitch →
      other ≤ winner

end Meaning

section Registers

variable {history : DagSnapshot} {commands : List Authored}

abbrev IssuedBy (commands : List Authored) (id : EntryHash) (actor : ActorId)
    (command : ExtensionCommand) : Prop := (id,actor,command) ∈ commands

theorem mem_unremoves {unremove remove : EntryHash} :
    (unremove,remove) ∈ unremoves commands ↔
      ∃ actor, IssuedBy commands unremove actor (.unremovePiece remove) := by
  simp only [unremoves,List.mem_filterMap]
  constructor
  · rintro ⟨⟨id,actor,command⟩,hmem,hread⟩
    cases command with
    | unremovePiece target =>
      obtain ⟨rfl,rfl⟩ := Prod.mk.inj (Option.some.inj hread)
      exact ⟨actor,hmem⟩
    | putPiece | movePiece | removePiece | setConfig => cases hread
  · rintro ⟨actor,hmem⟩
    exact ⟨_,hmem,rfl⟩

theorem mem_effectiveRemoves {remove piece : EntryHash} :
    (remove,piece) ∈ effectiveRemoves history.isAncestor commands ↔
      EffectiveRemove history.Ancestor (IssuedBy commands) remove piece := by
  have hissued : (∃ item ∈ commands, (match item with
      | (id,_,.removePiece piece) => some (id,piece)
      | _ => none) = some (remove,piece)) ↔
      ∃ actor, IssuedBy commands remove actor (.removePiece piece) := by
    constructor
    · rintro ⟨⟨id,actor,command⟩,hmem,hread⟩
      cases command with
      | removePiece target =>
        obtain ⟨rfl,rfl⟩ := Prod.mk.inj (Option.some.inj hread)
        exact ⟨actor,hmem⟩
      | putPiece | movePiece | unremovePiece | setConfig => cases hread
    · rintro ⟨actor,hmem⟩
      exact ⟨_,hmem,rfl⟩
  simp only [effectiveRemoves,List.mem_filter,List.mem_filterMap,hissued,EffectiveRemove,
    Bool.not_eq_true',List.any_eq_false,Bool.and_eq_true,decide_eq_true_eq,not_and,isAncestor_iff]
  refine and_congr_right fun _ => ?_
  constructor
  · intro h unremove actor hunremove
    exact h (unremove,remove) (mem_unremoves.mpr ⟨actor,hunremove⟩) rfl
  · rintro h ⟨unremove,target⟩ hmem rfl
    obtain ⟨actor,hunremove⟩ := mem_unremoves.mp hmem
    exact h unremove actor hunremove

theorem mem_puts {put : EntryHash} {owner : ActorId} {emoji : String} {pitch : TunedPeriodicPitch} :
    (put,owner,emoji,pitch) ∈ puts commands ↔
      IssuedBy commands put owner (.putPiece emoji pitch) := by
  simp only [puts,List.mem_filterMap]
  constructor
  · rintro ⟨⟨id,actor,command⟩,hmem,hread⟩
    cases command with
    | putPiece _ _ =>
      simp only [Option.some.injEq,Prod.mk.injEq] at hread
      obtain ⟨rfl,rfl,rfl,rfl⟩ := hread
      exact hmem
    | unremovePiece | movePiece | removePiece | setConfig => cases hread
  · exact fun hmem => ⟨_,hmem,rfl⟩

theorem mem_survivingAssertions {put assertion : EntryHash}
    {putPitch pitch : TunedPeriodicPitch} :
    (assertion,pitch) ∈ survivingAssertions history.isAncestor commands put putPitch ↔
      Survives history.Ancestor (IssuedBy commands) put putPitch assertion pitch := by
  have hmoves : (∃ item ∈ commands, (match item with
      | (id,_,.movePiece piece pitch) =>
          if piece = put ∧ pitch.tuningId = putPitch.tuningId then some (id,pitch) else none
      | _ => none) = some (assertion,pitch)) ↔
      ∃ actor, IssuedBy commands assertion actor (.movePiece put pitch) ∧
        pitch.tuningId = putPitch.tuningId := by
    constructor
    · rintro ⟨⟨id,actor,command⟩,hmem,hread⟩
      cases command with
      | movePiece piece moved =>
        simp only [Option.ite_none_right_eq_some,Option.some.injEq,Prod.mk.injEq] at hread
        obtain ⟨⟨rfl,htuning⟩,rfl,rfl⟩ := hread
        exact ⟨actor,hmem,htuning⟩
      | putPiece | unremovePiece | removePiece | setConfig => cases hread
    · rintro ⟨actor,hmem,htuning⟩
      exact ⟨_,hmem,by simp [htuning]⟩
  simp only [survivingAssertions,List.mem_filter,List.mem_cons,List.mem_filterMap,hmoves,
    Prod.mk.injEq,Survives,Asserts,Bool.not_eq_true',List.any_eq_false,Bool.and_eq_true,
    decide_eq_true_eq,not_and,isAncestor_iff]
  refine and_congr_right fun _ => ?_
  constructor
  · intro h remove hremove
    exact h (remove,put) (mem_effectiveRemoves.mpr hremove) rfl
  · rintro h ⟨remove,target⟩ hmem rfl
    exact h remove (mem_effectiveRemoves.mp hmem)

variable (hunique : (commands.map Prod.fst).Nodup)
include hunique

theorem issued_unique {id : EntryHash} {actor other : ActorId} {command second : ExtensionCommand}
    (hfirst : IssuedBy commands id actor command) (hsecond : IssuedBy commands id other second) :
    actor = other ∧ command = second := by
  have hsame := List.inj_on_of_nodup_map hunique hfirst hsecond rfl
  simpa using hsame

theorem nodup_survivingAssertions {put : EntryHash} {owner : ActorId} {emoji : String}
    {putPitch : TunedPeriodicPitch}
    (hput : IssuedBy commands put owner (.putPiece emoji putPitch)) :
    ((survivingAssertions history.isAncestor commands put putPitch).map Prod.fst).Nodup := by
  refine List.Nodup.sublist (List.filter_sublist.map Prod.fst) ?_
  rw [List.map_cons,List.nodup_cons]
  constructor
  · intro hmem
    obtain ⟨⟨id,pitch⟩,hmove,rfl⟩ := List.mem_map.mp hmem
    obtain ⟨⟨id,actor,command⟩,hissued,hread⟩ := List.mem_filterMap.mp hmove
    cases command with
    | movePiece piece moved =>
      simp only [Option.ite_none_right_eq_some,Option.some.injEq,Prod.mk.injEq] at hread
      obtain ⟨-,rfl,-⟩ := hread
      cases (issued_unique hunique hput hissued).2
    | putPiece | unremovePiece | removePiece | setConfig => cases hread
  · refine hunique.sublist (filterMap_key_sublist ?_)
    rintro ⟨id,actor,command⟩ found pitch hread
    cases command with
    | movePiece piece moved =>
      simp only [Option.ite_none_right_eq_some,Option.some.injEq,Prod.mk.injEq] at hread
      exact hread.2.1
    | putPiece | unremovePiece | removePiece | setConfig => cases hread

/-- The register over the survivors picks the pitch the piece shows. -/
theorem resolve_surviving {put : EntryHash} {owner : ActorId} {emoji : String}
    {putPitch pitch : TunedPeriodicPitch}
    (hput : IssuedBy commands put owner (.putPiece emoji putPitch)) :
    resolveRegister history.isAncestor
        (survivingAssertions history.isAncestor commands put putPitch) = some pitch ↔
      Shows history.Ancestor (IssuedBy commands) put ⟨owner,emoji,pitch⟩ := by
  have hids : ∀ id, id ∈ ((survivingAssertions history.isAncestor commands put putPitch).map
      Prod.fst).toFinset ↔
      ∃ pitch, Survives history.Ancestor (IssuedBy commands) put putPitch id pitch := by
    intro id
    simp only [List.mem_toFinset,List.mem_map,Prod.exists,exists_and_right,exists_eq_right,
      mem_survivingAssertions]
  have hlatest : ∀ id, Latest history.Ancestor ((survivingAssertions history.isAncestor commands
      put putPitch).map Prod.fst).toFinset id ↔
      ∃ pitch, LatestSurvivor history.Ancestor (IssuedBy commands) put putPitch id pitch := by
    intro id
    simp only [Latest,hids,LatestSurvivor,exists_and_right,forall_exists_index]
  rw [resolveRegister_eq_some (nodup_survivingAssertions hunique hput)]
  simp only [mem_survivingAssertions,Wins,hlatest,forall_exists_index,Shows]
  constructor
  · rintro ⟨winner,⟨⟨other,hsurvivor,hlast⟩,hlargest⟩,hpitch⟩
    exact ⟨putPitch,winner,hput,⟨hpitch,hlast⟩,hlargest⟩
  · rintro ⟨putPitch',winner,hput',hsurvivor,hlargest⟩
    cases (issued_unique hunique hput hput').2
    exact ⟨winner,⟨⟨pitch,hsurvivor⟩,hlargest⟩,hsurvivor.1⟩

omit hunique in
/-- Building a map by inserting under distinct keys: each key holds what was inserted for it. -/
theorem foldl_insert_getElem? {A V : Type} {items : List A} (key : A → EntryHash)
    (value : A → Option V) (hkeys : (items.map key).Nodup) {map : Std.ExtTreeMap EntryHash V}
    (hfresh : ∀ item ∈ items, key item ∉ map) {id : EntryHash} {found : V} :
    (items.foldl (fun map item => (value item).elim map (map.insert (key item))) map)[id]? =
        some found ↔
      (∃ item ∈ items, key item = id ∧ value item = some found) ∨ map[id]? = some found := by
  induction items generalizing map with
  | nil => simp
  | cons item rest ih =>
    obtain ⟨hitem,hrest⟩ := List.nodup_cons.mp hkeys
    have hne : ∀ other ∈ rest, key other ≠ key item :=
      fun other hother heq => hitem (heq ▸ List.mem_map_of_mem hother)
    have hnew := hfresh item List.mem_cons_self
    rw [List.foldl_cons]
    cases hvalue : value item with
    | none =>
      rw [Option.elim_none,ih hrest fun other hother =>
        hfresh other (List.mem_cons_of_mem _ hother)]
      simp [hvalue]
    | some inserted =>
      rw [Option.elim_some,ih hrest fun other hother => by
        simpa [Ne.symm (hne other hother)] using hfresh other (List.mem_cons_of_mem _ hother)]
      by_cases hid : key item = id
      · subst hid
        have habsent : map[key item]? = none := Std.ExtTreeMap.getElem?_eq_none hnew
        simp [hvalue,habsent,or_comm]
      · simp [hid,Std.ExtTreeMap.getElem?_insert]

theorem nodup_puts : ((puts commands).map Prod.fst).Nodup := by
  refine hunique.sublist (filterMap_key_sublist ?_)
  rintro ⟨id,actor,command⟩ found rest hread
  cases command with
  | putPiece emoji pitch => exact (Prod.mk.inj (Option.some.inj hread)).1
  | movePiece | unremovePiece | removePiece | setConfig => cases hread

theorem materializePieces_getElem? {put : EntryHash} {piece : Piece} :
    (materializePieces history.isAncestor commands)[put]? = some piece ↔
      Shows history.Ancestor (IssuedBy commands) put piece := by
  let shown := fun (put,owner,emoji,putPitch) =>
    (resolveRegister history.isAncestor
      (survivingAssertions history.isAncestor commands put putPitch)).map fun pitch =>
        (⟨owner,emoji,pitch⟩ : Piece)
  have hfold : materializePieces history.isAncestor commands =
      (puts commands).foldl (fun pieces item => (shown item).elim pieces (pieces.insert item.1))
        ∅ := by
    unfold materializePieces
    congr
    funext pieces ⟨put,owner,emoji,putPitch⟩
    cases hpitch : resolveRegister history.isAncestor
      (survivingAssertions history.isAncestor commands put putPitch) <;> simp [shown,hpitch]
  rw [hfold,foldl_insert_getElem? Prod.fst shown (nodup_puts hunique) (by simp)]
  simp only [Std.ExtTreeMap.getElem?_empty,reduceCtorEq,or_false]
  constructor
  · rintro ⟨⟨id,owner,emoji,putPitch⟩,hput,rfl,hshown⟩
    obtain ⟨pitch,hpitch,rfl⟩ := Option.map_eq_some_iff.mp hshown
    exact (resolve_surviving hunique (mem_puts.mp hput)).mp hpitch
  · intro hshows
    obtain ⟨putPitch,winner,hput,hrest⟩ := hshows
    refine ⟨(put,piece.owner,piece.emoji,putPitch),mem_puts.mpr hput,rfl,?_⟩
    rw [Option.map_eq_some_iff]
    exact ⟨piece.pitch,(resolve_surviving hunique hput).mpr ⟨putPitch,winner,hput,hrest⟩,rfl⟩

theorem mem_materializePieces {put : EntryHash} :
    put ∈ materializePieces history.isAncestor commands ↔
      ∃ owner emoji putPitch, IssuedBy commands put owner (.putPiece emoji putPitch) ∧
        ∃ assertion pitch,
          Survives history.Ancestor (IssuedBy commands) put putPitch assertion pitch := by
  constructor
  · intro hmem
    have hget := Std.ExtTreeMap.getElem?_eq_some_getElem hmem
    obtain ⟨putPitch,winner,hput,⟨hsurvives,-⟩,-⟩ :=
      (materializePieces_getElem? hunique).mp hget
    exact ⟨_,_,putPitch,hput,winner,_,hsurvives⟩
  · rintro ⟨owner,emoji,putPitch,hput,assertion,pitch,hsurvives⟩
    cases hresolve : resolveRegister history.isAncestor
      (survivingAssertions history.isAncestor commands put putPitch) with
    | none =>
      have hmem := mem_survivingAssertions.mpr hsurvives
      rw [resolveRegister_eq_none.mp hresolve] at hmem
      cases hmem
    | some found =>
      have hget := (materializePieces_getElem? hunique).mpr
        ((resolve_surviving hunique hput).mp hresolve)
      rw [Std.ExtTreeMap.mem_iff_isSome_getElem?,hget]
      rfl

theorem nodup_lockWrites : ((lockWrites commands).map Prod.fst).Nodup := by
  refine hunique.sublist (filterMap_key_sublist ?_)
  rintro ⟨id,actor,command⟩ found value hread
  cases command with
  | setConfig piecesLocked emojis =>
    cases piecesLocked with
    | none => cases hread
    | some locked => exact (Prod.mk.inj (Option.some.inj hread)).1
  | putPiece | movePiece | unremovePiece | removePiece => cases hread

theorem nodup_emojiWrites : ((emojiWrites commands).map Prod.fst).Nodup := by
  refine hunique.sublist (filterMap_key_sublist ?_)
  rintro ⟨id,actor,command⟩ found value hread
  cases command with
  | setConfig piecesLocked emojis =>
    cases emojis with
    | none => cases hread
    | some emojis => exact (Prod.mk.inj (Option.some.inj hread)).1
  | putPiece | movePiece | unremovePiece | removePiece => cases hread

end Registers

section View

variable {evaluator : CapabilityEvaluator} {roots : List EntryHash}

theorem authorizedCommand_eq_some {history : DagSnapshot} {entry : Entry} {id : EntryHash}
    {actor : ActorId} {command : ExtensionCommand} :
    authorizedCommand evaluator roots history entry = some (id,actor,command) ↔
      entry.hash = id ∧ ∃ envelope, decodeEnvelope entry.payload = .ok envelope ∧
        envelope.actor = actor ∧ envelope.command = command ∧
        commandIsCurrentlyAuthorized evaluator roots history entry.hash envelope
          (extensionCommandArea envelope.namespaceDigest command) = true := by
  unfold authorizedCommand
  cases hdecode : decodeEnvelope entry.payload with
  | error e => simp
  | ok envelope =>
    simp only [Option.ite_none_right_eq_some,Option.some.injEq,Prod.mk.injEq,Except.ok.injEq,
      exists_eq_left']
    constructor
    · rintro ⟨hauthorized,rfl,rfl,rfl⟩
      exact ⟨rfl,rfl,rfl,hauthorized⟩
    · rintro ⟨rfl,rfl,rfl,hauthorized⟩
      exact ⟨hauthorized,rfl,rfl,rfl⟩

/-- The entry `id` carries `command` by `actor`, and the grants it presents still stand. -/
def Issued (evaluator : CapabilityEvaluator) (roots : List EntryHash) (history : DagSnapshot)
    (id : EntryHash) (actor : ActorId) (command : ExtensionCommand) : Prop :=
  ∃ entry ∈ history.newestFirst, entry.hash = id ∧
    ∃ envelope, decodeEnvelope entry.payload = .ok envelope ∧
      envelope.actor = actor ∧ envelope.command = command ∧
      commandIsCurrentlyAuthorized evaluator roots history entry.hash envelope
        (extensionCommandArea envelope.namespaceDigest command) = true

theorem issuedBy_extensionCommands (history : DagSnapshot) :
    IssuedBy (extensionCommands evaluator roots history) = Issued evaluator roots history := by
  funext id actor command
  simp only [IssuedBy,extensionCommands,List.mem_filterMap,mem_entriesTopo,
    authorizedCommand_eq_some,Issued]

theorem nodup_extensionCommands (evaluator : CapabilityEvaluator) (roots : List EntryHash)
    (history : DagSnapshot) :
    ((extensionCommands evaluator roots history).map Prod.fst).Nodup := by
  refine (nodup_entriesTopo history).sublist (filterMap_key_sublist ?_)
  rintro entry id ⟨actor,command⟩ hread
  exact (authorizedCommand_eq_some.mp hread).1

section Enumerations

variable {first second : DagSnapshot}

theorem commandIsCurrentlyAuthorized_congr (h : first.SameEntries second) :
    commandIsCurrentlyAuthorized evaluator roots first =
      commandIsCurrentlyAuthorized evaluator roots second := by
  funext entry envelope area
  unfold commandIsCurrentlyAuthorized
  rw [h.frontier,evaluator.authorize_congr first second h]

theorem authorizedCommand_congr (h : first.SameEntries second) :
    authorizedCommand evaluator roots first = authorizedCommand evaluator roots second := by
  funext entry
  unfold authorizedCommand
  rw [commandIsCurrentlyAuthorized_congr h]

theorem mem_extensionCommands_congr (evaluator : CapabilityEvaluator) (roots : List EntryHash)
    (h : first.SameEntries second) (item : Authored) :
    item ∈ extensionCommands evaluator roots first ↔
      item ∈ extensionCommands evaluator roots second := by
  simp only [extensionCommands,List.mem_filterMap,mem_entriesTopo,h _,authorizedCommand_congr h]

theorem materializeExtension_congr (h : first.SameEntries second) :
    materializeExtension evaluator roots first = materializeExtension evaluator roots second := by
  have hfirst := nodup_extensionCommands evaluator roots first
  have hsecond := nodup_extensionCommands evaluator roots second
  have hmem := mem_extensionCommands_congr evaluator roots h
  have hpieces : materializePieces first.isAncestor (extensionCommands evaluator roots first) =
      materializePieces second.isAncestor (extensionCommands evaluator roots second) := by
    refine Std.ExtTreeMap.ext_getElem? fun put => Option.ext fun piece => ?_
    have hissued : IssuedBy (extensionCommands evaluator roots first) =
        IssuedBy (extensionCommands evaluator roots second) := by
      funext id actor command
      exact propext (hmem _)
    rw [materializePieces_getElem? hfirst,materializePieces_getElem? hsecond,h.ancestor,hissued]
  have hlocked : resolveRegister first.isAncestor
      (lockWrites (extensionCommands evaluator roots first)) =
      resolveRegister second.isAncestor
        (lockWrites (extensionCommands evaluator roots second)) := by
    refine resolveRegister_congr (nodup_lockWrites hfirst) (nodup_lockWrites hsecond) ?_ ?_
    · intro write
      simp only [lockWrites,List.mem_filterMap,hmem]
    · intro _ _ _ _
      rw [h.ancestor]
  have hemojis : resolveRegister first.isAncestor
      (emojiWrites (extensionCommands evaluator roots first)) =
      resolveRegister second.isAncestor
        (emojiWrites (extensionCommands evaluator roots second)) := by
    refine resolveRegister_congr (nodup_emojiWrites hfirst) (nodup_emojiWrites hsecond) ?_ ?_
    · intro write
      simp only [emojiWrites,List.mem_filterMap,hmem]
    · intro _ _ _ _
      rw [h.ancestor]
  simp only [materializeExtension,hpieces,hlocked,hemojis]

end Enumerations

/-- The view is one and the same for every topological order of a history, and it shows the
pieces whose put stands with a surviving assertion, at the pitch of the winning survivor. -/
theorem materializeExtension_converges {first second : DagSnapshot}
    (h : first.newestFirst.Perm second.newestFirst) :
    materializeExtension evaluator roots first = materializeExtension evaluator roots second ∧
      (∀ put, put ∈ (materializeExtension evaluator roots first).pieces ↔
        ∃ owner emoji putPitch,
          Issued evaluator roots first put owner (.putPiece emoji putPitch) ∧
            ∃ assertion pitch, Survives first.Ancestor (Issued evaluator roots first) put
              putPitch assertion pitch) ∧
      ∀ put piece, (materializeExtension evaluator roots first).pieces[put]? = some piece ↔
        Shows first.Ancestor (Issued evaluator roots first) put piece := by
  have hunique := nodup_extensionCommands evaluator roots first
  refine ⟨materializeExtension_congr fun entry => h.mem_iff,fun put => ?_,fun put piece => ?_⟩
  · rw [← issuedBy_extensionCommands]
    exact mem_materializePieces hunique
  · rw [← issuedBy_extensionCommands]
    exact materializePieces_getElem? hunique

end View

section DirectGrants

def grantAt (history : DagSnapshot) (id : EntryHash) : Option Grant :=
  match history.entry id with
  | some ⟨_,_,.capability (.grant grant)⟩ => some grant
  | _ => none

/-- A revocation ends a grant for what follows it and, as a barrier, for what it did not see. -/
def revokedAt (history : DagSnapshot) (grant : EntryHash) (position : Position) : Bool :=
  history.entriesTopo.any fun entry => match entry.payload with
    | .capability (.revoke revoke) => revoke.target = grant &&
        (decide (∃ id ∈ position, history.isAncestor entry.hash id) ||
          revoke.barrier && decide (∀ id ∈ position, !history.isAncestor id entry.hash))
    | _ => false

/-- Top grants and grants delegated directly from them. -/
def authorizeDirect (history : DagSnapshot) (roots : List EntryHash)
    (request : AuthorizationRequest) : Bool :=
  request.presented.any fun id => match grantAt history id with
    | none => false
    | some grant => grant.receiver = request.receiver &&
        grant.area.namespaceDigest = request.area.namespaceDigest &&
        grant.area.path.isPrefixOf request.area.path &&
        !revokedAt history id request.atPosition &&
        (match grant.parent with
          | none => id ∈ roots
          | some parent => parent ∈ roots && !revokedAt history parent request.atPosition)

def directGrants : CapabilityEvaluator where
  authorize := authorizeDirect
  maxPresentedGrants := 8
  authorize_congr first second h := by
    have hgrant : grantAt first = grantAt second := by
      funext id
      simp only [grantAt,h.entry id]
    have hrevoked : revokedAt first = revokedAt second := by
      funext grant position
      rw [Bool.eq_iff_iff]
      simp only [revokedAt,List.any_eq_true,mem_entriesTopo,h _,h.isAncestor]
    unfold authorizeDirect
    rw [hgrant,hrevoked]

def putMoon : Entry := ⟨4,{1},.command ⟨5,5,7,[1],.putPiece "moon" ⟨3,9,1⟩⟩⟩
def moveSun : Entry := ⟨5,{2},.command ⟨5,5,7,[1],.movePiece 2 ⟨3,7,0⟩⟩⟩

def sunFirst : DagSnapshot := ⟨[moveSun,putMoon,putSun,topGrant],by decide⟩
def moonFirst : DagSnapshot := ⟨[moveSun,putSun,putMoon,topGrant],by decide⟩

theorem materializeExtension_converges_sunFirst :
    materializeExtension directGrants [1] sunFirst =
      materializeExtension directGrants [1] moonFirst ∧
      (materializeExtension directGrants [1] sunFirst).pieces[2]? = some ⟨7,"sun",⟨3,7,0⟩⟩ :=
  ⟨(materializeExtension_converges (by decide)).1,by decide⟩

end DirectGrants

end WalkieSongie.Extension
