import WalkieSongie.ClientFold
import WalkieSongie.RepairTasks
import Mathlib.Data.Nat.Bitwise
import Mathlib.Tactic.IntervalCases
set_option autoImplicit false

/-!
What a host shows of its peers: when a peer that stands as synchronized is.
-/

namespace WalkieSongie.Client
open Replica (RoomLane)

variable {T : TuningLibrary}

section Lanes

def hasLane (bits : UInt8) (lane : RoomLane) : Bool := bits &&& laneTag lane ≠ 0

def walkieBits : UInt8 := laneTag .music ||| laneTag .extension

/-- The lanes that a peer takes part in: one or both. -/
structure ProtocolSupport where
  bits : UInt8
  nonzero : bits ≠ 0
  known : bits &&& ~~~ walkieBits = 0

namespace ProtocolSupport

def walkie : ProtocolSupport := ⟨walkieBits,by decide,by decide⟩

def supports (support : ProtocolSupport) (lane : RoomLane) : Bool := hasLane support.bits lane

end ProtocolSupport

def lanePosition : RoomLane → Nat
  | .music => 0
  | .extension => 1

theorem hasLane_eq_testBit (bits : UInt8) (lane : RoomLane) :
    hasLane bits lane = bits.toNat.testBit (lanePosition lane) := by
  have htag : (laneTag lane).toNat = 2^lanePosition lane := by cases lane <;> rfl
  have hzero : bits &&& laneTag lane = 0 ↔ bits.toNat.testBit (lanePosition lane) = false := by
    rw [← UInt8.toNat_inj,UInt8.toNat_and,htag,Nat.and_two_pow]
    cases bits.toNat.testBit (lanePosition lane) <;> simp
  unfold hasLane
  cases hbit : bits.toNat.testBit (lanePosition lane) with
  | false => simp [hzero.mpr hbit]
  | true => simp [hzero,hbit]

@[simp] theorem hasLane_zero (lane : RoomLane) : hasLane 0 lane = false := by
  cases lane <;> rfl

@[simp] theorem hasLane_and (first second : UInt8) (lane : RoomLane) :
    hasLane (first &&& second) lane = (hasLane first lane && hasLane second lane) := by
  simp [hasLane_eq_testBit]

theorem hasLane_tag (marked lane : RoomLane) :
    hasLane (laneTag marked) lane = decide (lane = marked) := by
  cases marked <;> cases lane <;> rfl

theorem hasLane_or_tag (bits : UInt8) (marked lane : RoomLane) :
    hasLane (bits ||| laneTag marked) lane = (hasLane bits lane || decide (lane = marked)) := by
  rw [← hasLane_tag]
  simp [hasLane_eq_testBit]

theorem hasLane_not_tag (marked lane : RoomLane) :
    hasLane (~~~ laneTag marked) lane = decide (lane ≠ marked) := by
  cases marked <;> cases lane <;> rfl

theorem ProtocolSupport.lane_of_testBit (support : ProtocolSupport) {position : Nat}
    (h : support.bits.toNat.testBit position = true) : ∃ lane, position = lanePosition lane := by
  have hlt : position < 8 := by
    have hge := Nat.ge_two_pow_of_testBit h
    exact (Nat.pow_lt_pow_iff_right (by decide)).mp (lt_of_le_of_lt hge support.bits.toNat_lt)
  have hmask : (support.bits &&& ~~~ walkieBits).toNat.testBit position = false := by
    simp [support.known]
  rw [UInt8.toNat_and,Nat.testBit_and,h,Bool.true_and] at hmask
  interval_cases position
  · exact ⟨.music,rfl⟩
  · exact ⟨.extension,rfl⟩
  all_goals exact absurd hmask (by decide)

theorem ProtocolSupport.exists_lane (support : ProtocolSupport) :
    ∃ lane, support.supports lane = true := by
  have hne : support.bits.toNat ≠ 0 := fun hzero => support.nonzero (UInt8.toNat_inj.mp hzero)
  obtain ⟨position,hbit⟩ := Nat.exists_testBit_of_ne_zero hne
  obtain ⟨lane,rfl⟩ := support.lane_of_testBit hbit
  exact ⟨lane,(hasLane_eq_testBit _ _).trans hbit⟩

namespace PeerSyncState

variable {sync : PeerSyncState}

theorem hasLane_markLane (marked lane : RoomLane) (synchronized : Bool) :
    hasLane (sync.markLane marked synchronized).complete lane =
      if lane = marked then synchronized else hasLane sync.complete lane := by
  by_cases hlane : lane = marked <;> cases synchronized <;>
    simp [markLane,hasLane_or_tag,hasLane_not_tag,hlane]

theorem synchronized_iff :
    sync.synchronized = true ↔
      sync.required ≠ 0 ∧ sync.complete &&& sync.required = sync.required := by
  simp [synchronized]

theorem hasLane_of_synchronized (h : sync.synchronized = true) {lane : RoomLane}
    (hrequired : hasLane sync.required lane = true) : hasLane sync.complete lane = true := by
  rw [← (synchronized_iff.mp h).2,hasLane_and] at hrequired
  exact (Bool.and_eq_true_iff.mp hrequired).1

theorem synchronized_of_hasLane {support : ProtocolSupport}
    (hsupport : sync.required = support.bits)
    (h : ∀ lane, hasLane sync.required lane = true → hasLane sync.complete lane = true) :
    sync.synchronized = true := by
  refine synchronized_iff.mpr ⟨hsupport ▸ support.nonzero,?_⟩
  rw [← UInt8.toNat_inj,UInt8.toNat_and]
  refine Nat.eq_of_testBit_eq fun position => ?_
  rw [Nat.testBit_and]
  cases hbit : sync.required.toNat.testBit position with
  | false => simp
  | true =>
    obtain ⟨lane,rfl⟩ := support.lane_of_testBit (hsupport ▸ hbit)
    rw [← hasLane_eq_testBit] at hbit ⊢
    simp [h lane hbit]

end PeerSyncState

end Lanes

section Histories

inductive PeerEvent (End : Type) where
  | updated (path : PeerPath) (support : ProtocolSupport)
  | expired
  | repairEnded (lane : RoomLane) (ended : End)
  | roomChanged

variable {End : Type} (succeeded : End → Bool)

/-- Whether the latest attempt succeeded that ended since the peer was last disconnected, by the
peer's events from the last one back. -/
def latestEnd (lane : RoomLane) : List (PeerEvent End) → Option Bool
  | [] => none
  | .updated path _ :: past => if path = .disconnected then none else latestEnd lane past
  | .repairEnded other ended :: past =>
    if lane = other then some (succeeded ended) else latestEnd lane past
  | .expired :: past => latestEnd lane past
  | .roomChanged :: past => latestEnd lane past

def currentSupport : List (PeerEvent End) → Option ProtocolSupport
  | [] => none
  | .updated _ support :: _ => some support
  | .expired :: past => currentSupport past
  | .repairEnded _ _ :: past => currentSupport past
  | .roomChanged :: past => currentSupport past

end Histories

section Rules

/-- What a host keeps to on hearing of a peer. -/
structure PeerRules (End : Type) where
  succeeded : End → Bool
  /-- What the host takes down of an attempt that ended, if it does. -/
  marked : End → Option Bool
  updated : PeerSyncState → ProtocolSupport → PeerPath → PeerSyncState
  expires : Bool
  marked_eq : ∀ {ended synchronized}, marked ended = some synchronized →
    synchronized = succeeded ended
  required_updated : ∀ sync support path, (updated sync support path).required = support.bits
  hasLane_updated : ∀ {sync support path lane},
    hasLane (updated sync support path).complete lane = true →
      path ≠ .disconnected ∧ hasLane sync.complete lane = true

structure ShownPeer where
  path : PeerPath
  synchronized : Bool
  deriving DecidableEq

structure PeerView where
  sync : Option PeerSyncState
  shown : Option ShownPeer

namespace PeerView

def empty : PeerView := ⟨none,none⟩

/-- The lanes are written down, and the peer is shown by them if it is shown. -/
def mark (view : PeerView) (lane : RoomLane) (synchronized : Bool) : PeerView :=
  let sync := (view.sync.getD ⟨laneTag lane,0⟩).markLane lane synchronized
  ⟨some sync,view.shown.map fun peer => ⟨peer.path,sync.synchronized⟩⟩

variable {End : Type} (rules : PeerRules End)

def act (view : PeerView) : PeerEvent End → PeerView
  | .updated path support =>
    let sync := rules.updated (view.sync.getD ⟨0,0⟩) support path
    ⟨some sync,some ⟨path,sync.synchronized⟩⟩
  | .expired => if rules.expires then empty else view
  | .repairEnded lane ended =>
    match rules.marked ended with
    | none => view
    | some synchronized => view.mark lane synchronized
  | .roomChanged => empty

/-- A peer that stands as synchronized is. -/
def Honest (view : PeerView) (past : List (PeerEvent End)) : Prop :=
  ∀ peer, view.shown = some peer → peer.synchronized = true →
    peer.path ≠ .disconnected ∧
      ∃ support, currentSupport past = some support ∧
        ∀ lane, support.supports lane = true → latestEnd rules.succeeded lane past = some true

/-- The host takes the lane for complete. -/
def Counts (view : PeerView) (lane : RoomLane) : Prop :=
  ∃ sync, view.sync = some sync ∧ hasLane sync.complete lane = true

/-- A peer that stands as disconnected wants another lane that is not complete. -/
def WantsOther (view : PeerView) (lane : RoomLane) : Prop :=
  ∀ peer, view.shown = some peer → peer.path = .disconnected →
    ∃ sync other, view.sync = some sync ∧ other ≠ lane ∧ hasLane sync.required other = true ∧
      hasLane sync.complete other = false

/-- A success that is taken down does not complete a disconnected peer, and a failure that is not
taken down is of a lane that does not count as complete. -/
def EndMeets (view : PeerView) (lane : RoomLane) (ended : End) : Prop :=
  (rules.marked ended = some true → view.WantsOther lane) ∧
    (rules.marked ended = none → rules.succeeded ended = false → ¬ view.Counts lane)

/-- The same of a failure that is not taken down, but only where the peer stands as synchronized
and its support has the lane. -/
def EndShows (view : PeerView) (lane : RoomLane) (ended : End) : Prop :=
  (rules.marked ended = some true → view.WantsOther lane) ∧
    (rules.marked ended = none → rules.succeeded ended = false →
      ∀ peer sync, view.shown = some peer → view.sync = some sync →
        peer.synchronized = true → hasLane sync.required lane = false)

def Meets (view : PeerView) : PeerEvent End → Prop
  | .repairEnded lane ended => view.EndMeets rules lane ended
  | _ => True

/-- The view after a peer's events, the last one first. -/
def after : List (PeerEvent End) → PeerView
  | [] => empty
  | event :: past => (after past).act rules event

/-- The peer is shown by what the host knows of its lanes, under its current support. -/
def Shows (view : PeerView) (past : List (PeerEvent End)) : Prop :=
  ∀ peer, view.shown = some peer → ∃ sync support, view.sync = some sync ∧
    currentSupport past = some support ∧ sync.required = support.bits ∧
      peer.synchronized = sync.synchronized

/-- A lane counts as complete only after a success, and no disconnected peer stands as
synchronized. -/
structure Truthful (view : PeerView) (past : List (PeerEvent End)) : Prop where
  counted : ∀ {lane}, view.Counts lane → latestEnd rules.succeeded lane past = some true
  away : ∀ {peer}, view.shown = some peer → peer.path = .disconnected → peer.synchronized = false

variable {rules} {view : PeerView} {past : List (PeerEvent End)}

theorem Shows.act (h : view.Shows past) (event : PeerEvent End) :
    (view.act rules event).Shows (event :: past) := by
  cases event with
  | updated path support =>
    intro peer hpeer
    cases hpeer
    exact ⟨_,support,rfl,rfl,rules.required_updated _ _ _,rfl⟩
  | expired =>
    intro peer hpeer
    by_cases hexpires : rules.expires = true
    · simp only [PeerView.act,if_pos hexpires] at hpeer
      cases hpeer
    · simp only [PeerView.act,if_neg hexpires] at hpeer ⊢
      exact h peer hpeer
  | repairEnded lane ended =>
    intro peer hpeer
    cases hmarked : rules.marked ended with
    | none =>
      simp only [PeerView.act,hmarked] at hpeer ⊢
      exact h peer hpeer
    | some synchronized =>
      simp only [PeerView.act,hmarked,mark,Option.map_eq_some_iff] at hpeer ⊢
      obtain ⟨before,hbefore,rfl⟩ := hpeer
      obtain ⟨sync,support,hsync,hsupport,hrequired,-⟩ := h before hbefore
      refine ⟨_,support,rfl,hsupport,?_,rfl⟩
      rw [hsync]
      exact hrequired
  | roomChanged =>
    intro peer hpeer
    cases hpeer

theorem Truthful.honest (h : view.Truthful rules past) (hshows : view.Shows past) :
    view.Honest rules past := by
  intro peer hpeer hsynchronized
  obtain ⟨sync,support,hsync,hsupport,hrequired,hshown⟩ := hshows peer hpeer
  refine ⟨fun hpath => ?_,support,hsupport,fun lane hlane => ?_⟩
  · rw [h.away hpeer hpath] at hsynchronized
    cases hsynchronized
  · refine h.counted ⟨sync,hsync,?_⟩
    exact PeerSyncState.hasLane_of_synchronized (hshown ▸ hsynchronized) (hrequired ▸ hlane)

theorem Counts.of_mark {lane marked : RoomLane} {synchronized : Bool}
    (h : (view.mark marked synchronized).Counts lane) :
    lane = marked ∧ synchronized = true ∨ lane ≠ marked ∧ view.Counts lane := by
  obtain ⟨sync,hsync,hlane⟩ := h
  cases hsync
  rw [PeerSyncState.hasLane_markLane] at hlane
  split at hlane
  · rename_i hsame
    exact .inl ⟨hsame,hlane⟩
  · rename_i hother
    refine .inr ⟨hother,?_⟩
    cases hview : view.sync with
    | none => simp [hview] at hlane
    | some before =>
      rw [hview] at hlane
      exact ⟨before,hview,hlane⟩

theorem Truthful.updated (h : view.Truthful rules past) (path : PeerPath)
    (support : ProtocolSupport) :
    (view.act rules (.updated path support)).Truthful rules (.updated path support :: past) := by
  constructor
  · intro lane hcounts
    obtain ⟨sync,hsync,hlane⟩ := hcounts
    cases hsync
    obtain ⟨hpath,hbefore⟩ := rules.hasLane_updated hlane
    simp only [latestEnd,if_neg hpath]
    cases hview : view.sync with
    | none => simp [hview] at hbefore
    | some before =>
      rw [hview] at hbefore
      exact h.counted ⟨before,hview,hbefore⟩
  · intro peer hpeer hpath
    cases hpeer
    refine Bool.eq_false_iff.mpr fun hsynchronized => ?_
    obtain ⟨lane,hlane⟩ := support.exists_lane
    have hcomplete := PeerSyncState.hasLane_of_synchronized hsynchronized
      ((congrArg (hasLane · lane) (rules.required_updated _ _ _)).trans hlane)
    exact (rules.hasLane_updated hcomplete).1 hpath

theorem WantsOther.mark {lane : RoomLane} (h : view.WantsOther lane) (synchronized : Bool)
    {peer : ShownPeer} (hpeer : (view.mark lane synchronized).shown = some peer)
    (hpath : peer.path = .disconnected) : peer.synchronized = false := by
  simp only [PeerView.mark,Option.map_eq_some_iff] at hpeer
  obtain ⟨before,hbefore,rfl⟩ := hpeer
  obtain ⟨sync,other,hsync,hother,hrequired,hmissing⟩ := h before hbefore hpath
  refine Bool.eq_false_iff.mpr fun hsynchronized => ?_
  rw [hsync] at hsynchronized
  have hcomplete := PeerSyncState.hasLane_of_synchronized hsynchronized hrequired
  rw [Option.getD_some,PeerSyncState.hasLane_markLane,if_neg hother,hmissing] at hcomplete
  cases hcomplete

theorem Truthful.mark_false (h : view.Truthful rules past) (hshows : view.Shows past)
    (lane : RoomLane) {peer : ShownPeer} (hpeer : (view.mark lane false).shown = some peer)
    (hpath : peer.path = .disconnected) : peer.synchronized = false := by
  simp only [PeerView.mark,Option.map_eq_some_iff] at hpeer
  obtain ⟨before,hbefore,rfl⟩ := hpeer
  obtain ⟨sync,support,hsync,-,hrequired,hshown⟩ := hshows before hbefore
  refine Bool.eq_false_iff.mpr fun hsynchronized => ?_
  have hbeforeSynchronized : sync.synchronized = true := by
    refine PeerSyncState.synchronized_of_hasLane hrequired fun other hother => ?_
    rw [hsync] at hsynchronized
    have hcomplete := PeerSyncState.hasLane_of_synchronized hsynchronized hother
    rw [Option.getD_some,PeerSyncState.hasLane_markLane] at hcomplete
    split at hcomplete
    · cases hcomplete
    · exact hcomplete
  rw [← hshown,h.away hbefore hpath] at hbeforeSynchronized
  cases hbeforeSynchronized

theorem Truthful.repairEnded (h : view.Truthful rules past) (hshows : view.Shows past)
    {lane : RoomLane} {ended : End} (hmeets : view.EndMeets rules lane ended) :
    (view.act rules (.repairEnded lane ended)).Truthful rules
      (.repairEnded lane ended :: past) := by
  cases hmarked : rules.marked ended with
  | none =>
    simp only [PeerView.act,hmarked]
    refine ⟨fun {other} hcounts => ?_,h.away⟩
    simp only [latestEnd]
    split
    · rename_i hsame
      refine congrArg some (Bool.not_eq_false _ |>.mp fun hfailed => ?_)
      exact hmeets.2 hmarked hfailed (hsame ▸ hcounts)
    · exact h.counted hcounts
  | some synchronized =>
    simp only [PeerView.act,hmarked]
    refine ⟨fun {other} hcounts => ?_,fun {peer} hpeer hpath => ?_⟩
    · simp only [latestEnd,← rules.marked_eq hmarked]
      obtain ⟨hsame,rfl⟩ | ⟨hother,hbefore⟩ := Counts.of_mark hcounts
      · rw [if_pos hsame]
      · rw [if_neg hother]
        exact h.counted hbefore
    · cases synchronized with
      | false => exact h.mark_false hshows lane hpeer hpath
      | true => exact (hmeets.1 hmarked).mark true hpeer hpath

theorem Truthful.empty (past : List (PeerEvent End)) : empty.Truthful rules past where
  counted hcounts := by
    obtain ⟨sync,hsync,-⟩ := hcounts
    cases hsync
  away hpeer := by cases hpeer

theorem Truthful.act (h : view.Truthful rules past) (hshows : view.Shows past)
    {event : PeerEvent End} (hmeets : view.Meets rules event) :
    (view.act rules event).Truthful rules (event :: past) := by
  cases event with
  | updated path support => exact h.updated path support
  | expired =>
    by_cases hexpires : rules.expires = true
    · simp only [PeerView.act,if_pos hexpires]
      exact .empty _
    · simp only [PeerView.act,if_neg hexpires]
      exact ⟨h.counted,h.away⟩
  | repairEnded lane ended => exact h.repairEnded hshows hmeets
  | roomChanged => exact .empty _

theorem after_shows (past : List (PeerEvent End)) : (after rules past).Shows past := by
  induction past with
  | nil =>
    intro peer hpeer
    cases hpeer
  | cons event past ih => exact ih.act event

theorem Shows.not_honest (h : view.Shows past) {lane : RoomLane} {ended : End}
    (hmarked : rules.marked ended = some true) (hwants : ¬ view.WantsOther lane) :
    ¬ (view.act rules (.repairEnded lane ended)).Honest rules
      (.repairEnded lane ended :: past) := by
  intro hhonest
  simp only [WantsOther,not_forall,not_exists,not_and] at hwants
  obtain ⟨peer,hpeer,hpath,hcomplete⟩ := hwants
  obtain ⟨sync,support,hsync,-,hrequired,-⟩ := h peer hpeer
  have hsynchronized : (sync.markLane lane true).synchronized = true := by
    refine PeerSyncState.synchronized_of_hasLane hrequired fun other hother => ?_
    rw [PeerSyncState.hasLane_markLane]
    split
    · rfl
    · rename_i hne
      exact Bool.not_eq_false _ |>.mp (hcomplete sync other hsync hne hother)
  have hafter : (view.act rules (.repairEnded lane ended)).shown =
      some ⟨peer.path,(sync.markLane lane true).synchronized⟩ := by
    simp [PeerView.act,hmarked,mark,hpeer,hsync]
  exact (hhonest _ hafter hsynchronized).1 hpath

theorem Honest.fails (h : view.Honest rules past) (hshows : view.Shows past) {lane : RoomLane}
    {ended : End} (hmarked : rules.marked ended = none) (hfailed : rules.succeeded ended = false) :
    (view.act rules (.repairEnded lane ended)).Honest rules (.repairEnded lane ended :: past) ↔
      ∀ peer sync, view.shown = some peer → view.sync = some sync →
        peer.synchronized = true → hasLane sync.required lane = false := by
  simp only [Honest,PeerView.act,hmarked,currentSupport,latestEnd,hfailed]
  constructor
  · intro hafter peer sync hpeer hsync hsynchronized
    refine Bool.eq_false_iff.mpr fun hlane => ?_
    obtain ⟨-,support,hsupport,hall⟩ := hafter peer hpeer hsynchronized
    obtain ⟨known,current,hknown,hcurrent,hrequired,-⟩ := hshows peer hpeer
    obtain rfl := Option.some.inj (hsync.symm.trans hknown)
    obtain rfl := Option.some.inj (hsupport.symm.trans hcurrent)
    have hlatest := hall lane (by rwa [ProtocolSupport.supports,← hrequired])
    simp at hlatest
  · intro hother peer hpeer hsynchronized
    obtain ⟨hpath,support,hsupport,hall⟩ := h peer hpeer hsynchronized
    obtain ⟨sync,current,hsync,hcurrent,hrequired,-⟩ := hshows peer hpeer
    obtain rfl := Option.some.inj (hsupport.symm.trans hcurrent)
    refine ⟨hpath,support,hsupport,fun other hsupports => ?_⟩
    split
    · rename_i hsame
      have hmissing := hother peer sync hpeer hsync hsynchronized
      rw [hrequired,← hsame] at hmissing
      exact absurd hsupports (by simp [ProtocolSupport.supports,hmissing])
    · exact hall other hsupports

theorem Truthful.repairEnded_honest (h : view.Truthful rules past) (hshows : view.Shows past)
    (lane : RoomLane) (ended : End) :
    (view.act rules (.repairEnded lane ended)).Honest rules (.repairEnded lane ended :: past) ↔
      view.EndShows rules lane ended := by
  by_cases hunmarked : rules.marked ended = none ∧ rules.succeeded ended = false
  · rw [(h.honest hshows).fails hshows hunmarked.1 hunmarked.2,EndShows]
    simp [hunmarked.1,hunmarked.2]
  · constructor
    · intro hhonest
      refine ⟨fun hmarked => ?_,fun hnone hfailed => absurd ⟨hnone,hfailed⟩ hunmarked⟩
      by_contra hwants
      exact hshows.not_honest hmarked hwants hhonest
    · intro hends
      have hmeets : view.EndMeets rules lane ended :=
        ⟨hends.1,fun hnone hfailed => absurd ⟨hnone,hfailed⟩ hunmarked⟩
      exact (h.repairEnded hshows hmeets).honest (hshows.act _)

end PeerView

end Rules

section Hosts

inductive PeerStep (End : Type) where
  | updatePeer (author : ActorId) (endpointId : String) (discovery : DiscoverySource)
      (path : PeerPath) (support : ProtocolSupport)
  | removePeer (author : ActorId)
  | repairEnded (author : ActorId) (lane : RoomLane) (ended : End)
  | installRoom (roomName : Option String) (topic ticket : String)
  | leaveRoom

def PeerStep.about {End : Type} (author : ActorId) : PeerStep End → Option (PeerEvent End)
  | .updatePeer other _ _ path support =>
    if author = other then some (.updated path support) else none
  | .removePeer other => if author = other then some .expired else none
  | .repairEnded other lane ended =>
    if author = other then some (.repairEnded lane ended) else none
  | .installRoom _ _ _ => some .roomChanged
  | .leaveRoom => some .roomChanged

namespace HostState

variable (host : HostState T)

def peerView (author : ActorId) : PeerView :=
  ⟨host.peerSync author,
    (host.findPeer author).map fun peer => ⟨peer.path,peer.synchronized⟩⟩

def PeersSorted : Prop := SortedRows.Sorted PeerSnapshot.author host.snapshot.peers

variable {host}

theorem PeersSorted.findPeer_eq_some (h : host.PeersSorted) {author : ActorId}
    {peer : PeerSnapshot} :
    host.findPeer author = some peer ↔ peer ∈ host.snapshot.peers ∧ peer.author = author :=
  SortedRows.Sorted.find_eq_some h

theorem PeersSorted.findPeer_showPeer (h : host.PeersSorted) (peer : PeerSnapshot)
    (author : ActorId) :
    (host.showPeer peer).1.findPeer author =
      if author = peer.author then some peer else host.findPeer author := by
  have hshown : (host.showPeer peer).1.PeersSorted := SortedRows.Sorted.upsert h peer
  refine Option.ext fun other => ?_
  rw [hshown.findPeer_eq_some]
  have hmem : other ∈ (host.showPeer peer).1.snapshot.peers ↔
      other = peer ∨ other ∈ host.snapshot.peers ∧ other.author ≠ peer.author :=
    SortedRows.Sorted.mem_upsert h
  split
  · rename_i hsame
    rw [Option.some.injEq]
    constructor
    · rintro ⟨hother,hauthor⟩
      obtain rfl | ⟨-,hne⟩ := hmem.mp hother
      · rfl
      · exact absurd (hauthor.trans hsame) hne
    · rintro rfl
      exact ⟨hmem.mpr (.inl rfl),hsame.symm⟩
  · rename_i hne
    rw [h.findPeer_eq_some]
    constructor
    · rintro ⟨hother,hauthor⟩
      obtain rfl | ⟨hbefore,-⟩ := hmem.mp hother
      · exact absurd hauthor.symm hne
      · exact ⟨hbefore,hauthor⟩
    · rintro ⟨hother,hauthor⟩
      exact ⟨hmem.mpr (.inr ⟨hother,hauthor ▸ hne⟩),hauthor⟩

theorem PeersSorted.findPeer_remove (h : host.PeersSorted) (gone author : ActorId) :
    ((SortedRows.remove PeerSnapshot.author gone host.snapshot.peers).find? fun peer =>
      peer.author = author) = if author = gone then none else host.findPeer author := by
  have hremoved := SortedRows.Sorted.remove h gone
  refine Option.ext fun other => ?_
  rw [hremoved.find_eq_some,SortedRows.mem_remove]
  split
  · rename_i hsame
    constructor
    · rintro ⟨⟨-,hne⟩,hauthor⟩
      exact absurd (hauthor.trans hsame) hne
    · rintro ⟨⟩
  · rename_i hne
    rw [h.findPeer_eq_some]
    constructor
    · rintro ⟨⟨hother,-⟩,hauthor⟩
      exact ⟨hother,hauthor⟩
    · rintro ⟨hother,hauthor⟩
      exact ⟨⟨hother,hauthor ▸ hne⟩,hauthor⟩

theorem peerView_setSync (marked : ActorId) (sync : PeerSyncState) (author : ActorId) :
    (host.setSync marked (some sync)).peerView author =
      if author = marked then ⟨some sync,(host.peerView marked).shown⟩
      else host.peerView author := by
  by_cases hsame : author = marked
  · subst hsame
    simp [peerView,setSync,findPeer]
  · simp [peerView,setSync,findPeer,hsame]

theorem PeersSorted.peerView_showPeer (h : host.PeersSorted) {marked : ActorId}
    (sync : PeerSyncState) (peer : PeerSnapshot) (hpeer : peer.author = marked)
    (author : ActorId) :
    ((host.setSync marked (some sync)).showPeer peer).1.peerView author =
      if author = marked then ⟨some sync,some ⟨peer.path,peer.synchronized⟩⟩
      else host.peerView author := by
  have hset : (host.setSync marked (some sync)).PeersSorted := h
  unfold peerView
  rw [hset.findPeer_showPeer,hpeer]
  by_cases hsame : author = marked
  · simp [hsame,showPeer,setSync]
  · simp only [if_neg hsame,showPeer,setSync]
    rfl

theorem peerView_mark (host : HostState T) (marked : ActorId) (lane : RoomLane)
    (synchronized : Bool) :
    (host.peerView marked).mark lane synchronized =
      ⟨some (((host.peerSync marked).getD ⟨laneTag lane,0⟩).markLane lane synchronized),
        (host.findPeer marked).map fun peer => ⟨peer.path,
          (((host.peerSync marked).getD ⟨laneTag lane,0⟩).markLane lane
            synchronized).synchronized⟩⟩ := by
  simp [peerView,PeerView.mark,Function.comp_def]

theorem peerView_told (told : Told T) (h : told.snapshot.peers = host.snapshot.peers)
    (author : ActorId) : (host.told told).1.peerView author = host.peerView author := by
  simp [peerView,HostState.told,findPeer,h]

end HostState

/-- A host whose peers each go by the rules, whatever it hears of the others. -/
structure PeerHost (T : TuningLibrary) (End : Type) where
  rules : PeerRules End
  step : HostState T → PeerStep End → HostState T
  sorted : ∀ {host}, host.PeersSorted → ∀ input, (step host input).PeersSorted
  peerView_step : ∀ {host}, host.PeersSorted → ∀ input author,
    (step host input).peerView author =
      ((input.about author).map ((host.peerView author).act rules)).getD (host.peerView author)

section Native

/-- How an attempt at repair ends on the native host. -/
inductive ReplicaAttempt (T : TuningLibrary) where
  | dial (message : String)
  | stream (message : String)
  | synchronized (view : RoomView T)
  | incomplete (message : String)
  | failed (message : String)

def ReplicaAttempt.succeeded : ReplicaAttempt T → Bool
  | .synchronized _ => true
  | _ => false

namespace AppRuntime

def attemptEnded (peer : ActorId) (lane : RoomLane) : ReplicaAttempt T → List (NativeCall T)
  | .dial message =>
    [.markPeerLaneSynchronized peer lane false,.emitDiagnostic "replica_repair_dial" message]
  | .stream message =>
    [.markPeerLaneSynchronized peer lane false,.emitDiagnostic "replica_repair_stream" message]
  | .synchronized view => [.applyRoomView view,.markPeerLaneSynchronized peer lane true]
  | .incomplete message =>
    [.markPeerLaneSynchronized peer lane false,.emitDiagnostic "replica_repair_incomplete" message]
  | .failed message =>
    [.markPeerLaneSynchronized peer lane false,.emitDiagnostic "replica_repair" message]

def peerCalls : PeerStep (ReplicaAttempt T) → List (NativeCall T)
  | .updatePeer author endpointId discovery path support =>
    [.updatePeer author endpointId discovery path support.bits]
  | .removePeer author => [.removePeer author]
  | .repairEnded author lane ended => attemptEnded author lane ended
  | .installRoom roomName topic ticket => [.installRoom roomName topic ticket]
  | .leaveRoom => [.leaveRoom]

def peerRules : PeerRules (ReplicaAttempt T) where
  succeeded := ReplicaAttempt.succeeded
  marked ended := some ended.succeeded
  updated sync support path := sync.updateRequirements support.bits path
  expires := true
  marked_eq h := (Option.some.inj h).symm
  required_updated _ _ _ := rfl
  hasLane_updated := by
    intro sync support path lane h
    unfold PeerSyncState.updateRequirements at h
    by_cases hpath : path = .disconnected
    · simp [hpath] at h
    · simp only [if_neg hpath,hasLane_and,Bool.and_eq_true] at h
      exact ⟨hpath,h.1⟩

variable {host : HostState T}

theorem takeRoomView_peers (snapshot : AppSnapshot T) (view : RoomView T) :
    (takeRoomView snapshot view).snapshot.peers = snapshot.peers := by
  simp only [takeRoomView,Told.tuning,Told.sharedPitches,Told.pieces,Told.config]
  split <;> split <;> split <;> rfl

theorem peerView_markPeerLaneSynchronized (h : host.PeersSorted) (marked : ActorId)
    (lane : RoomLane) (synchronized : Bool) (author : ActorId) :
    (markPeerLaneSynchronized host marked lane synchronized).1.peerView author =
      if author = marked then (host.peerView marked).mark lane synchronized
      else host.peerView author := by
  have hset (sync : PeerSyncState) :
      (host.setSync marked (some sync)).findPeer marked = host.findPeer marked := rfl
  rw [HostState.peerView_mark]
  simp only [markPeerLaneSynchronized,hset]
  cases hfound : host.findPeer marked with
  | none =>
    rw [HostState.peerView_setSync]
    simp [HostState.peerView,hfound]
  | some peer =>
    have hauthor := (h.findPeer_eq_some.mp hfound).2
    simp only [Option.map_some]
    split
    · rename_i hsame
      rw [HostState.peerView_setSync]
      simp [HostState.peerView,hfound,hsame]
    · refine h.peerView_showPeer _ _ ?_ author
      exact hauthor

theorem markPeerLaneSynchronized_sorted (h : host.PeersSorted) (marked : ActorId)
    (lane : RoomLane) (synchronized : Bool) :
    (markPeerLaneSynchronized host marked lane synchronized).1.PeersSorted := by
  simp only [markPeerLaneSynchronized]
  split
  · exact h
  · split
    · exact h
    · exact SortedRows.Sorted.upsert h _

theorem call_sorted (h : host.PeersSorted) (input : PeerStep (ReplicaAttempt T)) :
    (host.run call (peerCalls input)).PeersSorted := by
  cases input with
  | updatePeer author endpointId discovery path support => exact SortedRows.Sorted.upsert h _
  | removePeer author => exact SortedRows.Sorted.remove h author
  | repairEnded author lane ended =>
    cases ended with
    | synchronized view =>
      refine markPeerLaneSynchronized_sorted ?_ author lane true
      simpa [HostState.PeersSorted,call,HostState.told,takeRoomView_peers] using h
    | _ => exact markPeerLaneSynchronized_sorted h author lane false
  | installRoom roomName topic ticket => exact List.Pairwise.nil
  | leaveRoom => exact List.Pairwise.nil

theorem peerView_removePeer (h : host.PeersSorted) (gone author : ActorId) :
    (removePeer host gone).1.peerView author =
      if author = gone then .empty else host.peerView author := by
  have hfound : (removePeer host gone).1.findPeer author =
      if author = gone then none else host.findPeer author := h.findPeer_remove gone author
  unfold HostState.peerView
  rw [hfound]
  by_cases hsame : author = gone
  · simp [hsame,removePeer,HostState.setSync,PeerView.empty]
  · simp [hsame,removePeer,HostState.setSync]

theorem peerView_attemptEnded (h : host.PeersSorted) (peer : ActorId) (lane : RoomLane)
    (ended : ReplicaAttempt T) (author : ActorId) :
    (host.run call (attemptEnded peer lane ended)).peerView author =
      if author = peer then (host.peerView peer).mark lane ended.succeeded
      else host.peerView author := by
  cases ended with
  | synchronized view =>
    have htold : ∀ author, (host.told (takeRoomView host.snapshot view)).1.peerView author =
        host.peerView author :=
      HostState.peerView_told _ (takeRoomView_peers host.snapshot view)
    have hsorted : (host.told (takeRoomView host.snapshot view)).1.PeersSorted := by
      simpa [HostState.PeersSorted,HostState.told,takeRoomView_peers] using h
    have hmarked := peerView_markPeerLaneSynchronized hsorted peer lane true author
    rw [htold peer,htold author] at hmarked
    exact hmarked
  | _ => exact peerView_markPeerLaneSynchronized h peer lane false author

def peerHost : PeerHost T (ReplicaAttempt T) where
  rules := peerRules
  step host input := host.run call (peerCalls input)
  sorted := call_sorted
  peerView_step := by
    intro host h input author
    cases input with
    | updatePeer other endpointId discovery path support =>
      refine (h.peerView_showPeer _ ⟨other,endpointId,path,discovery,_,_⟩ rfl author).trans ?_
      by_cases hsame : author = other
      · simp [PeerStep.about,hsame,PeerView.act,HostState.peerView,peerRules]
      · simp [PeerStep.about,hsame]
    | removePeer other =>
      refine (peerView_removePeer h other author).trans ?_
      by_cases hsame : author = other
      · simp [PeerStep.about,hsame,PeerView.act,peerRules]
      · simp [PeerStep.about,hsame]
    | repairEnded other lane ended =>
      refine (peerView_attemptEnded h other lane ended author).trans ?_
      by_cases hsame : author = other
      · simp [PeerStep.about,hsame,PeerView.act,peerRules]
      · simp [PeerStep.about,hsame]
    | installRoom roomName topic ticket => rfl
    | leaveRoom => rfl

end AppRuntime

end Native

section Browser

/-- How an attempt at repair ends in a browser, and whether its room's generation is still alive. -/
structure ReportedAttempt where
  alive : Bool
  result : Repair.AttemptResult
  message : String

def ReportedAttempt.succeeded (ended : ReportedAttempt) : Bool := Repair.completed ended.result

namespace BrowserHost

def reportRepair (peer : ActorId) (lane : RoomLane) (ended : ReportedAttempt) :
    List (BrowserCall T) :=
  if !ended.alive then []
  else
    match ended.result with
    | .ok .complete => [.markLaneSynchronized peer lane]
    | .ok _ => [.emitDiagnostic "replica_repair_incomplete" ended.message]
    | .error _ => [.emitDiagnostic "replica_repair" ended.message]

/-- No peer is removed: the expiry of its announcement is not listened to. -/
def peerCalls : PeerStep ReportedAttempt → List (BrowserCall T)
  | .updatePeer author endpointId discovery path support =>
    [.updatePeer author endpointId discovery path support.bits]
  | .removePeer _ => []
  | .repairEnded author lane ended => reportRepair author lane ended
  | .installRoom roomName topic ticket => [.installRoom roomName topic ticket]
  | .leaveRoom => [.leaveRoom]

/-- Only a success that is reported is taken down. -/
def peerRules : PeerRules ReportedAttempt where
  succeeded := ReportedAttempt.succeeded
  marked ended := if ended.alive && ended.succeeded then some true else none
  updated sync support path := ⟨support.bits,if path = .disconnected then 0 else sync.complete⟩
  expires := false
  marked_eq := by
    intro ended synchronized h
    split at h
    · rename_i hsucceeded
      rw [(Bool.and_eq_true_iff.mp hsucceeded).2,← Option.some.inj h]
    · cases h
  required_updated _ _ _ := rfl
  hasLane_updated := by
    intro sync support path lane h
    by_cases hpath : path = .disconnected
    · simp [hpath] at h
    · simp only [if_neg hpath] at h
      exact ⟨hpath,h⟩

variable {host : HostState T}

theorem peerView_markLaneSynchronized (h : host.PeersSorted) (marked : ActorId)
    (lane : RoomLane) (author : ActorId) :
    (markLaneSynchronized host marked lane).1.peerView author =
      if author = marked then (host.peerView marked).mark lane true
      else host.peerView author := by
  have hset (sync : PeerSyncState) :
      (host.setSync marked (some sync)).findPeer marked = host.findPeer marked := rfl
  rw [HostState.peerView_mark]
  simp only [markLaneSynchronized,hset]
  cases hfound : host.findPeer marked with
  | none =>
    rw [HostState.peerView_setSync]
    simp [HostState.peerView,hfound]
  | some peer =>
    refine h.peerView_showPeer _ _ ?_ author
    exact (h.findPeer_eq_some.mp hfound).2

theorem markLaneSynchronized_sorted (h : host.PeersSorted) (marked : ActorId) (lane : RoomLane) :
    (markLaneSynchronized host marked lane).1.PeersSorted := by
  simp only [markLaneSynchronized]
  split
  · exact h
  · exact SortedRows.Sorted.upsert h _

theorem run_reportRepair (peer : ActorId) (lane : RoomLane) (ended : ReportedAttempt) :
    host.run call (reportRepair peer lane ended) =
      if ended.alive && ended.succeeded then (markLaneSynchronized host peer lane).1 else host := by
  obtain ⟨alive,result,message⟩ := ended
  cases alive with
  | false => rfl
  | true =>
    cases result with
    | error error => rfl
    | ok status => cases status <;> rfl

theorem call_sorted (h : host.PeersSorted) (input : PeerStep ReportedAttempt) :
    (host.run call (peerCalls input)).PeersSorted := by
  cases input with
  | updatePeer author endpointId discovery path support => exact SortedRows.Sorted.upsert h _
  | removePeer author => exact h
  | repairEnded author lane ended =>
    simp only [peerCalls,run_reportRepair]
    split
    · exact markLaneSynchronized_sorted h author lane
    · exact h
  | installRoom roomName topic ticket => exact List.Pairwise.nil
  | leaveRoom => exact List.Pairwise.nil

def peerHost : PeerHost T ReportedAttempt where
  rules := peerRules
  step host input := host.run call (peerCalls input)
  sorted := call_sorted
  peerView_step := by
    intro host h input author
    cases input with
    | updatePeer other endpointId discovery path support =>
      refine (h.peerView_showPeer _ ⟨other,endpointId,path,discovery,_,_⟩ rfl author).trans ?_
      by_cases hsame : author = other
      · simp [PeerStep.about,hsame,PeerView.act,HostState.peerView,peerRules]
      · simp [PeerStep.about,hsame]
    | removePeer other =>
      by_cases hsame : author = other
      · simp [peerCalls,HostState.run,PeerStep.about,hsame,PeerView.act,peerRules]
      · simp [peerCalls,HostState.run,PeerStep.about,hsame]
    | repairEnded other lane ended =>
      simp only [peerCalls,run_reportRepair]
      have hmarked : peerRules.marked ended =
          if ended.alive && ended.succeeded then some true else none := rfl
      cases hreported : ended.alive && ended.succeeded with
      | false =>
        rw [hreported] at hmarked
        by_cases hsame : author = other
        · simp [PeerStep.about,hsame,PeerView.act,hmarked]
        · simp [PeerStep.about,hsame]
      | true =>
        rw [hreported] at hmarked
        refine (peerView_markLaneSynchronized h other lane author).trans ?_
        by_cases hsame : author = other
        · simp [PeerStep.about,hsame,PeerView.act,hmarked]
        · simp [PeerStep.about,hsame]
    | installRoom roomName topic ticket => rfl
    | leaveRoom => rfl

end BrowserHost

end Browser

section Runs

namespace PeerHost

variable {End : Type} (peers : PeerHost T End)

/-- The host after what it heard, the last thing first. -/
def after : List (PeerStep End) → HostState T
  | [] => .initial
  | input :: past => peers.step (after past) input

def heard (author : ActorId) (past : List (PeerStep End)) : List (PeerEvent End) :=
  past.filterMap (PeerStep.about author)

/-- Each peer that the host shows as synchronized is connected, and of each lane that its support
has the latest attempt succeeded. -/
def Honest (past : List (PeerStep End)) : Prop :=
  ∀ peer ∈ (peers.after past).snapshot.peers, peer.synchronized = true →
    peer.path ≠ .disconnected ∧
      ∃ support, currentSupport (heard peer.author past) = some support ∧
        ∀ lane, support.supports lane = true →
          latestEnd peers.rules.succeeded lane (heard peer.author past) = some true

def Meets (host : HostState T) : PeerStep End → Prop
  | .repairEnded author lane ended => (host.peerView author).EndMeets peers.rules lane ended
  | _ => True

def NextShows (host : HostState T) : PeerStep End → Prop
  | .repairEnded author lane ended => (host.peerView author).EndShows peers.rules lane ended
  | _ => True

def RunMeets (past : List (PeerStep End)) : Prop :=
  ∀ input earlier, input :: earlier <:+ past → peers.Meets (peers.after earlier) input

variable {peers} {past : List (PeerStep End)}

theorem after_sorted (peers : PeerHost T End) (past : List (PeerStep End)) :
    (peers.after past).PeersSorted := by
  induction past with
  | nil => exact List.Pairwise.nil
  | cons input past ih => exact peers.sorted ih input

theorem peerView_after (peers : PeerHost T End) (author : ActorId) (past : List (PeerStep End)) :
    (peers.after past).peerView author = PeerView.after peers.rules (heard author past) := by
  induction past with
  | nil => rfl
  | cons input past ih =>
    rw [after,peers.peerView_step (peers.after_sorted past),ih]
    cases habout : input.about author with
    | none => simp [heard,habout]
    | some event => simp [heard,habout,PeerView.after]

theorem honest_iff : peers.Honest past ↔
    ∀ author, ((peers.after past).peerView author).Honest peers.rules (heard author past) := by
  have hsorted := peers.after_sorted past
  constructor
  · intro h author shown hshown hsynchronized
    obtain ⟨peer,hfound,rfl⟩ := Option.map_eq_some_iff.mp hshown
    obtain ⟨hpeer,rfl⟩ := hsorted.findPeer_eq_some.mp hfound
    exact h peer hpeer hsynchronized
  · intro h peer hpeer hsynchronized
    have hfound := hsorted.findPeer_eq_some.mpr ⟨hpeer,rfl⟩
    exact h peer.author ⟨peer.path,peer.synchronized⟩ (by simp [HostState.peerView,hfound])
      hsynchronized

theorem view_shows (peers : PeerHost T End) (author : ActorId) (past : List (PeerStep End)) :
    ((peers.after past).peerView author).Shows (heard author past) := by
  rw [peerView_after]
  exact PeerView.after_shows _

theorem Meets.about {host : HostState T} {input : PeerStep End} (h : peers.Meets host input)
    {author : ActorId} {event : PeerEvent End} (habout : input.about author = some event) :
    (host.peerView author).Meets peers.rules event := by
  cases input with
  | repairEnded other lane ended =>
    simp only [PeerStep.about] at habout
    split at habout
    · rename_i hsame
      cases habout
      subst hsame
      exact h
    · cases habout
  | installRoom roomName topic ticket =>
    cases habout
    trivial
  | leaveRoom =>
    cases habout
    trivial
  | _ =>
    simp only [PeerStep.about] at habout
    split at habout <;> cases habout
    trivial

theorem RunMeets.suffix (h : peers.RunMeets past) {earlier : List (PeerStep End)}
    (hearlier : earlier <:+ past) : peers.RunMeets earlier := fun input before hbefore =>
  h input before (hbefore.trans hearlier)

theorem RunMeets.truthful (h : peers.RunMeets past) (author : ActorId) :
    ((peers.after past).peerView author).Truthful peers.rules (heard author past) := by
  induction past with
  | nil => exact .empty _
  | cons input past ih =>
    have hview := ih (h.suffix (List.suffix_cons _ _))
    have hstep := peers.peerView_step (peers.after_sorted past) input author
    cases habout : input.about author with
    | none =>
      rw [after,hstep,habout]
      simpa [heard,habout] using hview
    | some event =>
      have hmeets : ((peers.after past).peerView author).Meets peers.rules event :=
        (h input past (List.suffix_refl _)).about habout
      rw [after,hstep,habout]
      simpa [heard,habout] using hview.act (peers.view_shows author past) hmeets

theorem RunMeets.honest (h : peers.RunMeets past) : peers.Honest past :=
  honest_iff.mpr fun author => (h.truthful author).honest (peers.view_shows author past)

theorem RunMeets.cons {input : PeerStep End} (h : peers.RunMeets past)
    (hinput : peers.Meets (peers.after past) input) : peers.RunMeets (input :: past) := by
  intro other earlier hsuffix
  obtain hsame | hpast := List.suffix_cons_iff.mp hsuffix
  · cases hsame
    exact hinput
  · exact h other earlier hpast

theorem view_repairEnded (author : ActorId) (lane : RoomLane) (ended : End) :
    (peers.after (.repairEnded author lane ended :: past)).peerView author =
      ((peers.after past).peerView author).act peers.rules (.repairEnded lane ended) := by
  rw [after,peers.peerView_step (peers.after_sorted past)]
  simp [PeerStep.about]

theorem heard_repairEnded (author : ActorId) (lane : RoomLane) (ended : End) :
    heard author (.repairEnded author lane ended :: past) =
      .repairEnded lane ended :: heard author past := by
  simp [heard,PeerStep.about]

theorem RunMeets.next (h : peers.RunMeets past) (input : PeerStep End) :
    peers.Honest (input :: past) ↔ peers.NextShows (peers.after past) input := by
  cases input with
  | repairEnded author lane ended =>
    have hends := (h.truthful author).repairEnded_honest (peers.view_shows author past) lane ended
    rw [honest_iff,NextShows,← hends]
    constructor
    · intro hhonest
      have hview := hhonest author
      rwa [view_repairEnded,heard_repairEnded] at hview
    · intro hview other
      by_cases hsame : other = author
      · subst hsame
        rwa [view_repairEnded,heard_repairEnded]
      · have hother := honest_iff.mp h.honest other
        rw [after,peers.peerView_step (peers.after_sorted past)]
        simpa [PeerStep.about,heard,hsame] using hother
  | _ =>
    refine iff_of_true (RunMeets.honest (h.cons ?_)) trivial
    trivial

theorem honest_iff_runMeets (hmarked : ∀ ended, peers.rules.marked ended ≠ none) :
    (∀ earlier, earlier <:+ past → peers.Honest earlier) ↔ peers.RunMeets past := by
  constructor
  · intro h input earlier hsuffix
    cases input with
    | repairEnded author lane ended =>
      refine ⟨fun hsucceeded => ?_,fun hnone => absurd hnone (hmarked ended)⟩
      by_contra hwants
      have hview := honest_iff.mp (h _ hsuffix) author
      rw [view_repairEnded,heard_repairEnded] at hview
      exact (peers.view_shows author earlier).not_honest hsucceeded hwants hview
    | _ => trivial
  · intro h earlier hsuffix
    exact (h.suffix hsuffix).honest

end PeerHost

/-- Which peers a host shows as synchronized: the native host rightly just in those runs that meet
the condition, the browser in them, as long as the next step allows it. -/
theorem synchronized_peers :
    (∀ past : List (PeerStep (ReplicaAttempt T)),
      (∀ earlier, earlier <:+ past → AppRuntime.peerHost.Honest earlier) ↔
        AppRuntime.peerHost.RunMeets past) ∧
      ∀ past : List (PeerStep ReportedAttempt),
        (BrowserHost.peerHost (T := T)).RunMeets past →
          (∀ earlier, earlier <:+ past → (BrowserHost.peerHost (T := T)).Honest earlier) ∧
            ∀ input, (BrowserHost.peerHost (T := T)).Honest (input :: past) ↔
              (BrowserHost.peerHost (T := T)).NextShows
                (BrowserHost.peerHost.after past) input := by
  constructor
  · intro past
    refine PeerHost.honest_iff_runMeets fun ended => ?_
    simp [AppRuntime.peerHost,AppRuntime.peerRules]
  · intro past h
    exact ⟨fun earlier hsuffix => (h.suffix hsuffix).honest,h.next⟩

def completed : ReportedAttempt := ⟨true,.ok .complete,""⟩

def repairedPeer : List (PeerStep ReportedAttempt) :=
  [.updatePeer 4 "four" .gossip .relayed .walkie,.repairEnded 4 .extension completed,
    .repairEnded 4 .music completed,.updatePeer 4 "four" .gossip .direct .walkie]

theorem completed_meets {peers : HostState equalTunings} {author : ActorId} {lane : RoomLane}
    (hpath : ∀ peer, (peers.peerView author).shown = some peer → peer.path ≠ .disconnected) :
    BrowserHost.peerHost.Meets peers (.repairEnded author lane completed) :=
  ⟨fun _ peer hpeer hgone => absurd hgone (hpath peer hpeer),fun hnone => by cases hnone⟩

theorem repairedPeer_meets : (BrowserHost.peerHost (T := equalTunings)).RunMeets repairedPeer := by
  refine PeerHost.RunMeets.cons (.cons (.cons (.cons ?_ trivial) ?_) ?_) trivial
  · intro input earlier hsuffix
    cases List.suffix_nil.mp hsuffix
  · refine completed_meets fun peer hpeer => ?_
    cases hpeer
    decide
  · refine completed_meets fun peer hpeer => ?_
    cases hpeer
    decide

theorem synchronized_peers_repaired :
    ∃ peer ∈ ((BrowserHost.peerHost (T := equalTunings)).after repairedPeer).snapshot.peers,
      peer.synchronized = true ∧ peer.path ≠ .disconnected := by
  have hhonest := ((synchronized_peers (T := equalTunings)).2 repairedPeer
    repairedPeer_meets).1 repairedPeer (List.suffix_refl _)
  obtain ⟨hpath,-⟩ := hhonest ⟨4,"four",.relayed,.gossip,none,true⟩ (by decide) rfl
  exact ⟨_,by decide,rfl,hpath⟩

/-- The peer goes while both lanes are being repaired, and both repairs succeed. -/
def lateRepairs : List (PeerStep (ReplicaAttempt equalTunings)) :=
  [.repairEnded 4 .extension (.synchronized soundingView),
    .repairEnded 4 .music (.synchronized soundingView),
    .updatePeer 4 "four" .gossip .disconnected .walkie,
    .updatePeer 4 "four" .gossip .direct .walkie]

def failedRepair : List (PeerStep ReportedAttempt) :=
  .repairEnded 4 .music ⟨true,.error "stream closed",""⟩ :: repairedPeer

theorem synchronized_peers_wrong :
    ¬ AppRuntime.peerHost.Honest lateRepairs ∧
      ¬ (BrowserHost.peerHost (T := equalTunings)).Honest failedRepair := by
  constructor
  · intro h
    have hpeer := h ⟨4,"four",.disconnected,.gossip,none,true⟩ (by decide) rfl
    exact hpeer.1 rfl
  · intro h
    have hpeer := h ⟨4,"four",.relayed,.gossip,none,true⟩ (by decide) rfl
    obtain ⟨-,support,hsupport,hall⟩ := hpeer
    cases hsupport
    exact absurd (hall .music rfl) (by decide)

end Runs

end Hosts
end WalkieSongie.Client
