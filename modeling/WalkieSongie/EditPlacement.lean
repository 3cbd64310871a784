import WalkieSongie.EditRoutes
set_option autoImplicit false

/-!
What every step of the two routes keeps: no durable entry is lost or comes below an older one, and
the entry of a session event stands on its base and its dependencies alone.
-/

namespace WalkieSongie.EditRoutes
open CausalDag Session Relation

variable {Id : Type} [DecidableEq Id]

def Route.isFallback : Route → Bool
  | .session _ => false
  | .fallback _ => true

/-- The one state has come out of the other: nothing durable is lost, and no dot is used twice. -/
structure Continues (before after : Placement Id) : Prop where
  history : before.history.Grows after.history
  shown : before.shown.Grows after.shown
  events : before.events ⊆ after.events
  fresh : ∀ event ∈ after.events, ¬ before.Fresh event.dot → event ∈ before.events
  durable : ∀ route id, before.durable route = some id → after.durable route = some id

namespace Continues

variable {before after third : Placement Id}

omit [DecidableEq Id] in
theorem refl (placement : Placement Id) : Continues placement placement :=
  ⟨.refl _,.refl _,List.Subset.refl _,fun _ hevent _ => hevent,fun _ _ hid => hid⟩

omit [DecidableEq Id] in
theorem trans (h : Continues before after) (h' : Continues after third) :
    Continues before third := by
  constructor
  · exact h.history.trans h'.history
  · exact h.shown.trans h'.shown
  · exact List.Subset.trans h.events h'.events
  · intro event hevent hused
    have hstill : ¬ after.Fresh event.dot :=
      fun hfresh => hused fun hmem => hfresh (List.map_subset _ h.events hmem)
    exact h.fresh event (h'.fresh event hevent hstill) hused
  · exact fun route id hid => h'.durable route id (h.durable route id hid)

omit [DecidableEq Id] in
theorem durable_eq (h : Continues before after) {route : Route}
    (hroute : before.durable route ≠ none) : after.durable route = before.durable route := by
  obtain ⟨id,hid⟩ := Option.ne_none_iff_exists'.mp hroute
  rw [hid,h.durable route id hid]

omit [DecidableEq Id] in
theorem durable_ne_none (h : Continues before after) {route : Route}
    (hroute : before.durable route ≠ none) : after.durable route ≠ none := by
  rwa [h.durable_eq hroute]

end Continues

namespace Placement

section Invariant

variable (placement : Placement Id)

/-- The event's entry stands on the base and on the entries of the dependencies, and on no other. -/
structure Reified (event : KernelEvent Id) (id : Id) : Prop where
  dependencies : ∀ dot ∈ event.dependencies, placement.durable (.session dot) ≠ none
  entry : ∃ entry ∈ placement.history.newestFirst, entry.hash = id ∧ entry.payload = event.payload
  past : ∀ below, placement.history.Ancestor below id ↔
    below ∈ placement.history.observedAt event.base ∨
      ∃ dot ∈ event.dependencies, placement.durable (.session dot) = some below

structure EventSound (event : KernelEvent Id) : Prop where
  base : event.base ⊆ placement.shown.hashes
  closed : ∀ dot ∈ event.dependencies, ∃ below ∈ placement.events, below.dot = dot ∧
    below.base = event.base ∧ below.dependencies ⊆ event.dependencies
  reified : ∀ id, placement.durable (.session event.dot) = some id → placement.Reified event id

structure LiveSound (live : LiveSession Id) : Prop where
  base : live.base ⊆ placement.shown.hashes
  closed : ∀ dot ∈ live.readyCut, ∃ below ∈ placement.events, below.dot = dot ∧
    below.base = live.base ∧ below.dependencies ⊆ live.readyCut

structure EditSound (edit : OwnEdit Id) : Prop where
  shown : edit.shown.Grows placement.shown
  event : ∀ dot, edit.route = .session dot → ∃ event ∈ placement.events, event.dot = dot ∧
    event.payload = edit.payload ∧ event.base ⊆ edit.shown.hashes
  serial : ∀ serial, edit.route = .fallback serial → serial < placement.edits.length
  late : ∀ id, placement.durable edit.route = some id → id ∉ edit.shown.hashes
  above : edit.route.isFallback = true → ∀ id, placement.durable edit.route = some id →
    ∃ entry ∈ placement.history.newestFirst, entry.hash = id ∧ entry.payload = edit.payload ∧
      ∀ below ∈ edit.shown.hashes, placement.history.Ancestor below id
  ready : ∀ dot, edit.route = .session dot →
    (∃ id ∈ placement.shown.hashes, placement.durable edit.route = some id) ∨
      ∃ live ∈ placement.session, dot ∈ live.readyCut

/-- How two own edits stand to each other, the first of them made before the second. -/
structure Issued (first second : OwnEdit Id) : Prop where
  routes : first.route ≠ second.route
  shown : first.shown.Grows second.shown
  apart : ∀ event ∈ placement.events, first.route = .session event.dot →
    ∀ dot ∈ event.dependencies, second.route ≠ .session dot

structure Sound : Prop where
  shown : placement.shown.Grows placement.history
  dots : (placement.events.map KernelEvent.dot).Nodup
  events : ∀ event ∈ placement.events, placement.EventSound event
  live : ∀ live, placement.session = some live → placement.LiveSound live
  edits : ∀ edit ∈ placement.edits, placement.EditSound edit
  issued : placement.edits.Pairwise placement.Issued
  admitted : ∀ route id, placement.durable route = some id → id ∈ placement.history.hashes
  distinct : ∀ first second id, placement.durable first = some id →
    placement.durable second = some id → first = second
  usedDot : ∀ dot, placement.durable (.session dot) ≠ none → ¬ placement.Fresh dot
  usedSerial : ∀ serial, placement.durable (.fallback serial) ≠ none →
    serial < placement.edits.length

end Invariant

section Growth

variable {before after : Placement Id} {event : KernelEvent Id} {edit first second : OwnEdit Id}

theorem Reified.continues {id : Id} (h : before.Reified event id) (hc : Continues before after)
    (hbase : event.base ⊆ before.history.hashes) : after.Reified event id := by
  obtain ⟨entry,hentry,hhash,hpayload⟩ := h.entry
  have hid : id ∈ before.history.hashes := DagSnapshot.mem_hashes.mpr ⟨entry,hentry,hhash⟩
  constructor
  · intro dot hdot
    exact hc.durable_ne_none (h.dependencies dot hdot)
  · exact ⟨entry,hc.history.mem hentry,hhash,hpayload⟩
  · intro below
    rw [hc.history.ancestor_iff hid,hc.history.observedAt hbase,h.past]
    apply or_congr_right
    apply exists_congr
    intro dot
    apply and_congr_right
    intro hdot
    rw [hc.durable_eq (h.dependencies dot hdot)]

theorem EventSound.continues (h : before.EventSound event) (hc : Continues before after)
    (hshown : before.shown.Grows before.history)
    (hnew : ∀ id, after.durable (.session event.dot) = some id →
      before.durable (.session event.dot) = some id ∨ after.Reified event id) :
    after.EventSound event := by
  constructor
  · exact h.base.trans hc.shown.hashes
  · intro dot hdot
    obtain ⟨below,hbelow,hrest⟩ := h.closed dot hdot
    exact ⟨below,hc.events hbelow,hrest⟩
  · intro id hid
    rcases hnew id hid with hold | hnew
    · exact (h.reified id hold).continues hc (h.base.trans hshown.hashes)
    · exact hnew

theorem EditSound.continues (h : before.EditSound edit) (hc : Continues before after)
    (hlength : before.edits.length ≤ after.edits.length)
    (hsession : ∀ live, before.session = some live → ∀ dot ∈ live.readyCut,
      edit.route = .session dot → (∃ id ∈ after.shown.hashes, after.durable edit.route = some id) ∨
        ∃ live ∈ after.session, dot ∈ live.readyCut)
    (hlate : ∀ id, after.durable edit.route = some id →
      before.durable edit.route = some id ∨ id ∉ edit.shown.hashes)
    (habove : edit.route.isFallback = true → ∀ id, after.durable edit.route = some id →
      before.durable edit.route = some id ∨
        ∃ entry ∈ after.history.newestFirst, entry.hash = id ∧ entry.payload = edit.payload ∧
          ∀ below ∈ edit.shown.hashes, after.history.Ancestor below id) :
    after.EditSound edit := by
  constructor
  · exact h.shown.trans hc.shown
  · intro dot hdot
    obtain ⟨event,hevent,hrest⟩ := h.event dot hdot
    exact ⟨event,hc.events hevent,hrest⟩
  · intro serial hserial
    have hbound := h.serial serial hserial
    omega
  · intro id hid
    rcases hlate id hid with hold | hnew
    · exact h.late id hold
    · exact hnew
  · intro hfallback id hid
    rcases habove hfallback id hid with hold | hnew
    · obtain ⟨entry,hentry,hhash,hpayload,hbelow⟩ := h.above hfallback id hold
      exact ⟨entry,hc.history.mem hentry,hhash,hpayload,
        fun below hmem => hc.history.ancestor (hbelow below hmem)⟩
    · exact hnew
  · intro dot hdot
    rcases h.ready dot hdot with ⟨id,hid,hdurable⟩ | ⟨live,hlive,hready⟩
    · exact .inl ⟨id,hc.shown.hashes hid,hc.durable _ _ hdurable⟩
    · exact hsession live hlive dot hready hdot

end Growth

section Commit

variable {before after : Placement Id} {route : Route} {entry : Entry Id MusicOp}

/-- An entry for one route has been put on top of the history. -/
structure Committed (before after : Placement Id) (route : Route) (entry : Entry Id MusicOp) :
    Prop where
  extended : DagSnapshot.Extended before.history after.history entry
  unadmitted : before.durable route = none
  shown : after.shown = before.shown
  session : after.session = before.session
  events : after.events = before.events
  edits : after.edits = before.edits
  durable : after.durable = Function.update before.durable route (some entry.hash)

theorem committed_of_commitAt (h : before.commitAt route entry = some after) :
    Committed before after route entry := by
  unfold commitAt at h
  split at h
  next hnone =>
    obtain ⟨history,hextend,rfl⟩ := Option.map_eq_some_iff.mp h
    exact ⟨.of_extend hextend,hnone,rfl,rfl,rfl,rfl,rfl⟩
  next => simp at h

theorem commitSession_cases {dot : SessionDot} {hash : Id}
    (h : before.commitSession dot hash = some after) :
    ∃ event ∈ before.events, event.dot = dot ∧
      (∀ other ∈ event.dependencies, before.durable (.session other) ≠ none) ∧
      Committed before after (.session dot)
        ⟨hash,event.predecessors before.durable,event.payload⟩ := by
  unfold commitSession at h
  split at h
  next => simp at h
  next event hfind =>
    split at h
    next hready =>
      have hdot : event.dot = dot := by simpa using List.find?_some hfind
      exact ⟨event,List.mem_of_find?_eq_some hfind,hdot,hready,committed_of_commitAt h⟩
    next => simp at h

theorem commit_cases {serial : Nat} {hash : Id} (h : before.commit serial hash = some after) :
    ∃ edit ∈ before.edits, edit.route = .fallback serial ∧
      Committed before after (.fallback serial)
        ⟨hash,before.history.frontier,edit.payload⟩ := by
  unfold commit at h
  split at h
  next => simp at h
  next edit hfind =>
    have hroute : edit.route = .fallback serial := by simpa using List.find?_some hfind
    exact ⟨edit,List.mem_of_find?_eq_some hfind,hroute,committed_of_commitAt h⟩

namespace Committed

theorem durable_self (h : Committed before after route entry) :
    after.durable route = some entry.hash := by
  simp [h.durable]

theorem durable_other (h : Committed before after route entry) {other : Route}
    (hne : other ≠ route) : after.durable other = before.durable other := by
  simp [h.durable,hne]

theorem durable_cases (h : Committed before after route entry) {other : Route} {id : Id}
    (hid : after.durable other = some id) :
    before.durable other = some id ∨ (other = route ∧ id = entry.hash) := by
  by_cases hother : other = route
  · subst hother
    rw [h.durable_self] at hid
    exact .inr ⟨rfl,(Option.some.inj hid).symm⟩
  · exact .inl (h.durable_other hother ▸ hid)

theorem continues (h : Committed before after route entry) : Continues before after := by
  constructor
  · exact h.extended.grows
  · rw [h.shown]
    exact .refl _
  · rw [h.events]
    exact List.Subset.refl _
  · intro event hevent _
    exact h.events ▸ hevent
  · intro other id hid
    have hne : other ≠ route := by
      rintro rfl
      simp [h.unadmitted] at hid
    rw [h.durable_other hne,hid]

/-- Below the new entry lies what its predecessors have seen. -/
theorem ancestor_iff (h : Committed before after route entry) {below : Id} :
    after.history.Ancestor below entry.hash ↔ below ∈ before.history.observedAt entry.prevs := by
  rw [← DagSnapshot.mem_observedAt_prevs h.extended.mem,
    h.extended.grows.observedAt h.extended.prevs]

theorem not_ancestor (h : Committed before after route entry) {id : Id}
    (hid : id ∈ before.history.hashes) : ¬ after.history.Ancestor entry.hash id := by
  intro hbelow
  exact h.extended.fresh ((h.extended.grows.ancestor_iff hid).mp hbelow).mem_hashes

end Committed

end Commit

section Steps

variable {before after : Placement Id}

theorem LiveSound.continues {live : LiveSession Id} (h : before.LiveSound live)
    (hc : Continues before after) : after.LiveSound live := by
  constructor
  · exact h.base.trans hc.shown.hashes
  · intro dot hdot
    obtain ⟨below,hbelow,hrest⟩ := h.closed dot hdot
    exact ⟨below,hc.events hbelow,hrest⟩

omit [DecidableEq Id] in
theorem mem_dots {event : KernelEvent Id} (h : event ∈ before.events) : ¬ before.Fresh event.dot :=
  fun hfresh => hfresh (List.mem_map_of_mem h)

theorem Sound.event_ext (h : before.Sound) {first second : KernelEvent Id}
    (hfirst : first ∈ before.events) (hsecond : second ∈ before.events)
    (hdot : first.dot = second.dot) : first = second :=
  List.inj_on_of_nodup_map h.dots hfirst hsecond hdot

/-- Nothing becomes durable, no event and no edit comes in. -/
theorem Sound.carry (h : before.Sound) (hc : Continues before after)
    (hdurable : after.durable = before.durable) (hevents : after.events = before.events)
    (hedits : after.edits = before.edits) (hshown : after.shown.Grows after.history)
    (hlive : ∀ live, after.session = some live → after.LiveSound live)
    (hready : ∀ live, before.session = some live → ∀ dot ∈ live.readyCut,
      ∀ edit ∈ before.edits, edit.route = .session dot →
        (∃ id ∈ after.shown.hashes, after.durable edit.route = some id) ∨
          ∃ live ∈ after.session, dot ∈ live.readyCut) : after.Sound := by
  constructor
  · exact hshown
  · rw [hevents]
    exact h.dots
  · intro event hevent
    rw [hevents] at hevent
    apply (h.events event hevent).continues hc h.shown
    intro id hid
    rw [hdurable] at hid
    exact .inl hid
  · exact hlive
  · intro edit hedit
    rw [hedits] at hedit
    apply (h.edits edit hedit).continues hc
    · rw [hedits]
    · intro live hsession dot hdot
      exact hready live hsession dot hdot edit hedit
    · intro id hid
      rw [hdurable] at hid
      exact .inl hid
    · intro _ id hid
      rw [hdurable] at hid
      exact .inl hid
  · rw [hedits]
    refine h.issued.imp fun hpair => ⟨hpair.routes,hpair.shown,?_⟩
    rw [hevents]
    exact hpair.apart
  · intro route id hid
    rw [hdurable] at hid
    exact hc.history.hashes (h.admitted route id hid)
  · rw [hdurable]
    exact h.distinct
  · intro dot hdot
    rw [hdurable] at hdot
    rw [Fresh,hevents]
    exact h.usedDot dot hdot
  · rw [hdurable,hedits]
    exact h.usedSerial

theorem Sound.applyLive {entry : Entry Id MusicOp} (h : before.Sound)
    (hstep : before.applyLive entry = some after) : Continues before after ∧ after.Sound := by
  obtain ⟨history,hextend,rfl⟩ := Option.map_eq_some_iff.mp hstep
  have hgrows := (DagSnapshot.Extended.of_extend hextend).grows
  have hc : Continues before { before with history := history } :=
    ⟨hgrows,.refl _,List.Subset.refl _,fun _ hevent _ => hevent,fun _ _ hid => hid⟩
  refine ⟨hc,h.carry hc rfl rfl rfl (h.shown.trans hgrows) ?_ ?_⟩
  · intro live hlive
    exact (h.live live hlive).continues hc
  · intro live hlive dot hdot _ _ _
    exact .inr ⟨live,hlive,hdot⟩

theorem Sound.advanceDurable {snapshot : History Id} (h : before.Sound)
    (hstep : before.advanceDurable snapshot = some after) :
    Continues before after ∧ after.Sound := by
  unfold Placement.advanceDurable at hstep
  split at hstep
  next hgrows =>
    cases hstep
    have hc : Continues before { before with shown := snapshot } :=
      ⟨.refl _,hgrows.1,List.Subset.refl _,fun _ hevent _ => hevent,fun _ _ hid => hid⟩
    refine ⟨hc,h.carry hc rfl rfl rfl hgrows.2 ?_ ?_⟩
    · intro live hlive
      exact (h.live live hlive).continues hc
    · intro live hlive dot hdot _ _ _
      exact .inr ⟨live,hlive,hdot⟩
  next => simp at hstep

theorem durable_of_not_owes (h : before.owes = false) {edit : OwnEdit Id}
    (hedit : edit ∈ before.edits) {dot : SessionDot} (hroute : edit.route = .session dot) :
    ∃ id ∈ before.shown.hashes, before.durable edit.route = some id := by
  have hpaid := List.any_eq_false.mp h edit hedit
  rw [hroute] at hpaid ⊢
  cases hdurable : before.durable (.session dot) with
  | none => simp [hdurable] at hpaid
  | some id => simpa [hdurable] using hpaid

theorem frontier_subset (history : History Id) : history.frontier ⊆ history.hashes :=
  Finset.filter_subset _ _

theorem Sound.installSession (h : before.Sound) (hstep : before.installSession = some after) :
    Continues before after ∧ after.Sound := by
  unfold Placement.installSession at hstep
  split at hstep
  next => simp at hstep
  next howes =>
    cases hstep
    have hc : Continues before { before with session := some ⟨before.shown.frontier,∅⟩ } :=
      ⟨.refl _,.refl _,List.Subset.refl _,fun _ hevent _ => hevent,fun _ _ hid => hid⟩
    refine ⟨hc,h.carry hc rfl rfl rfl h.shown ?_ ?_⟩
    · intro live hlive
      cases hlive
      constructor
      · exact frontier_subset _
      · simp
    · intro _ _ _ _ edit hedit hroute
      have hpaid : before.owes = false := Bool.eq_false_iff.mpr howes
      exact .inl (durable_of_not_owes hpaid hedit hroute)

theorem Sound.used_of_mem_readyCut (h : before.Sound) {live : LiveSession Id}
    (hlive : before.session = some live) {dot : SessionDot} (hdot : dot ∈ live.readyCut) :
    ¬ before.Fresh dot := by
  obtain ⟨below,hbelow,rfl,-⟩ := (h.live live hlive).closed dot hdot
  exact mem_dots hbelow

theorem Sound.used_of_mem_dependencies (h : before.Sound) {event : KernelEvent Id}
    (hevent : event ∈ before.events) {dot : SessionDot} (hdot : dot ∈ event.dependencies) :
    ¬ before.Fresh dot := by
  obtain ⟨below,hbelow,rfl,-⟩ := (h.events event hevent).closed dot hdot
  exact mem_dots hbelow

theorem Sound.isCut_readyCut (h : before.Sound) {live : LiveSession Id}
    (hlive : before.session = some live) : before.IsCut live.readyCut := by
  intro event hevent hdot
  obtain ⟨below,hbelow,hsame,-,hclosed⟩ := (h.live live hlive).closed event.dot hdot
  rwa [h.event_ext hbelow hevent hsame] at hclosed

section Ingest

variable {live : LiveSession Id} {dot : SessionDot} {payload : MusicOp}
  {dependencies : Finset SessionDot}

omit [DecidableEq Id] in
theorem continues_ingest (hfresh : before.Fresh dot) :
    Continues before (before.ingest live dot payload dependencies) := by
  constructor
  · exact .refl _
  · exact .refl _
  · exact List.subset_cons_self _ _
  · intro event hevent hused
    rcases List.mem_cons.mp hevent with rfl | hold
    · exact absurd hfresh hused
    · exact hold
  · exact fun _ _ hid => hid

theorem Sound.ingest (h : before.Sound) (hlive : before.session = some live)
    (hfresh : before.Fresh dot) (hready : dependencies ⊆ live.readyCut)
    (hcut : before.IsCut dependencies) :
    (before.ingest live dot payload dependencies).Sound := by
  have hc : Continues before (before.ingest live dot payload dependencies) :=
    continues_ingest hfresh
  have hsound := h.live live hlive
  have hbelow : ∀ other ∈ dependencies, ∃ below ∈ before.events, below.dot = other ∧
      below.base = live.base ∧ below.dependencies ⊆ dependencies := by
    intro other hother
    obtain ⟨below,hbelow,rfl,hbase,-⟩ := hsound.closed other (hready hother)
    exact ⟨below,hbelow,rfl,hbase,hcut below hbelow hother⟩
  constructor
  · exact h.shown
  · exact List.nodup_cons.mpr ⟨hfresh,h.dots⟩
  · intro event hevent
    rcases List.mem_cons.mp hevent with rfl | hold
    · constructor
      · exact hsound.base
      · intro other hother
        obtain ⟨below,hmem,hrest⟩ := hbelow other hother
        exact ⟨below,List.mem_cons_of_mem _ hmem,hrest⟩
      · intro id hid
        exact absurd hfresh (h.usedDot dot (by simp_all [Placement.ingest]))
    · exact (h.events event hold).continues hc h.shown fun id hid => .inl hid
  · intro next hnext
    cases hnext
    constructor
    · exact hsound.base
    · intro other hother
      rcases Finset.mem_insert.mp hother with rfl | hold
      · exact ⟨_,List.mem_cons_self,rfl,rfl,hready.trans (Finset.subset_insert _ _)⟩
      · obtain ⟨below,hmem,hdot,hbase,hclosed⟩ := hsound.closed other hold
        exact ⟨below,List.mem_cons_of_mem _ hmem,hdot,hbase,
          hclosed.trans (Finset.subset_insert _ _)⟩
  · intro edit hedit
    apply (h.edits edit hedit).continues hc le_rfl
    · intro other hother used hused _
      rw [hlive] at hother
      cases hother
      exact .inr ⟨_,rfl,Finset.mem_insert_of_mem hused⟩
    · exact fun id hid => .inl hid
    · exact fun _ id hid => .inl hid
  · refine h.issued.imp_of_mem fun {first second} hfirst _ hpair =>
      ⟨hpair.routes,hpair.shown,?_⟩
    intro event hevent hroute
    rcases List.mem_cons.mp hevent with rfl | hold
    · obtain ⟨known,hknown,hdot,-⟩ := (h.edits first hfirst).event dot hroute
      exact absurd hfresh (hdot ▸ mem_dots hknown)
    · exact hpair.apart event hold hroute
  · exact h.admitted
  · exact h.distinct
  · intro other hother hnew
    exact h.usedDot other hother fun hmem => hnew (List.mem_cons_of_mem _ hmem)
  · exact h.usedSerial

end Ingest

section Remember

variable {command : MusicOp} {route : Route}

omit [DecidableEq Id] in
theorem continues_remember : Continues before (before.remember command route) :=
  ⟨.refl _,.refl _,List.Subset.refl _,fun _ hevent _ => hevent,fun _ _ hid => hid⟩

/-- The new edit goes by a route of its own, which nothing in the kernel depends on. -/
theorem Sound.remember (h : before.Sound) (hunused : ∀ edit ∈ before.edits, edit.route ≠ route)
    (hdurable : before.durable route = none)
    (hevent : ∀ dot, route = .session dot → ∃ event ∈ before.events, event.dot = dot ∧
      event.payload = command ∧ event.base ⊆ before.shown.hashes)
    (hserial : ∀ serial, route = .fallback serial → serial = before.edits.length)
    (hapart : ∀ event ∈ before.events, ∀ dot ∈ event.dependencies, route ≠ .session dot)
    (hready : ∀ dot, route = .session dot → ∃ live ∈ before.session, dot ∈ live.readyCut) :
    (before.remember command route).Sound := by
  have hc : Continues before (before.remember command route) := continues_remember
  have hlength : (before.remember command route).edits.length = before.edits.length + 1 := by
    simp [Placement.remember]
  have hnone : ∀ id, before.durable route ≠ some id := by simp [hdurable]
  constructor
  · exact h.shown
  · exact h.dots
  · intro event hmem
    exact (h.events event hmem).continues hc h.shown fun id hid => .inl hid
  · intro live hlive
    exact (h.live live hlive).continues hc
  · intro edit hedit
    rcases List.mem_append.mp hedit with hold | hnew
    · apply (h.edits edit hold).continues hc (by omega)
      · exact fun live hlive dot hdot _ => .inr ⟨live,hlive,hdot⟩
      · exact fun id hid => .inl hid
      · exact fun _ id hid => .inl hid
    · obtain rfl := List.mem_singleton.mp hnew
      constructor
      · exact .refl _
      · exact hevent
      · intro serial hroute
        have hlast := hserial serial hroute
        omega
      · intro id hid
        exact absurd hid (hnone id)
      · intro _ id hid
        exact absurd hid (hnone id)
      · intro dot hroute
        exact .inr (hready dot hroute)
  · apply List.pairwise_append.mpr
    refine ⟨h.issued.imp fun hpair => ⟨hpair.routes,hpair.shown,hpair.apart⟩,
      List.pairwise_singleton _ _,?_⟩
    intro first hfirst second hsecond
    obtain rfl := List.mem_singleton.mp hsecond
    exact ⟨hunused first hfirst,(h.edits first hfirst).shown,
      fun event hmem _ => hapart event hmem⟩
  · exact h.admitted
  · exact h.distinct
  · exact h.usedDot
  · intro serial hused
    have hbound := h.usedSerial serial hused
    omega

end Remember

omit [DecidableEq Id] in
theorem localEdit_cases {command : MusicOp} {dot : SessionDot} {isSaturated : Bool}
    (h : before.localEdit command dot isSaturated = some after) :
    (isPitchEdit command = false ∧ after = before) ∨
    ((before.session = none ∨ isSaturated = true) ∧
      after = before.remember command (.fallback before.edits.length)) ∨
    ∃ live, before.session = some live ∧ isSaturated = false ∧ before.Fresh dot ∧
      after = (before.ingest live dot command live.readyCut).remember command (.session dot) := by
  unfold Placement.localEdit at h
  split at h
  next hother => exact .inl ⟨hother,(Option.some.inj h).symm⟩
  next =>
    split at h
    next hnone => exact .inr (.inl ⟨.inl hnone,(Option.some.inj h).symm⟩)
    next live hlive =>
      split at h
      next hfull => exact .inr (.inl ⟨.inr hfull,(Option.some.inj h).symm⟩)
      next hroom =>
        split at h
        next hfresh =>
          exact .inr (.inr ⟨live,hlive,by simpa using hroom,hfresh,(Option.some.inj h).symm⟩)
        next => simp at h

theorem Sound.rememberFallback (h : before.Sound) (command : MusicOp) :
    (before.remember command (.fallback before.edits.length)).Sound := by
  have hunused : ∀ edit ∈ before.edits, edit.route ≠ .fallback before.edits.length := by
    intro edit hedit hroute
    have hbound := (h.edits edit hedit).serial _ hroute
    omega
  have hnone : before.durable (.fallback before.edits.length) = none := by
    by_contra hne
    have hbound := h.usedSerial _ hne
    omega
  apply h.remember hunused hnone
  · simp
  · simp
  · simp
  · simp

theorem Sound.rememberSession (h : before.Sound) {live : LiveSession Id}
    (hlive : before.session = some live) {dot : SessionDot} (hfresh : before.Fresh dot)
    (command : MusicOp) :
    ((before.ingest live dot command live.readyCut).remember command (.session dot)).Sound := by
  have hsound : (before.ingest live dot command live.readyCut).Sound :=
    h.ingest hlive hfresh subset_rfl (h.isCut_readyCut hlive)
  apply hsound.remember
  · intro edit hedit hroute
    obtain ⟨event,hevent,hdot,-⟩ := (h.edits edit hedit).event dot hroute
    exact mem_dots hevent (hdot ▸ hfresh)
  · by_contra hne
    exact h.usedDot dot hne hfresh
  · intro other hother
    cases hother
    exact ⟨_,List.mem_cons_self,rfl,rfl,(h.live live hlive).base⟩
  · simp
  · intro event hevent other hother hsame
    cases hsame
    rcases List.mem_cons.mp hevent with rfl | hold
    · exact h.used_of_mem_readyCut hlive hother hfresh
    · exact h.used_of_mem_dependencies hold hother hfresh
  · intro other hother
    cases hother
    exact ⟨_,rfl,Finset.mem_insert_self _ _⟩

theorem Sound.localEdit (h : before.Sound) {command : MusicOp} {dot : SessionDot}
    {isSaturated : Bool} (hstep : before.localEdit command dot isSaturated = some after) :
    Continues before after ∧ after.Sound := by
  rcases localEdit_cases hstep with ⟨-,rfl⟩ | ⟨-,rfl⟩ | ⟨live,hlive,-,hfresh,rfl⟩
  · exact ⟨.refl _,h⟩
  · exact ⟨continues_remember,h.rememberFallback command⟩
  · exact ⟨(continues_ingest hfresh).trans continues_remember,
      h.rememberSession hlive hfresh command⟩

theorem Sound.ingestRemote (h : before.Sound) {dot : SessionDot} {payload : MusicOp}
    {dependencies : Finset SessionDot}
    (hstep : before.ingestRemote dot payload dependencies = some after) :
    Continues before after ∧ after.Sound := by
  unfold Placement.ingestRemote at hstep
  split at hstep
  next => simp at hstep
  next live hlive =>
    split at hstep
    next hfits =>
      cases hstep
      exact ⟨continues_ingest hfits.1,h.ingest hlive hfits.1 hfits.2.1 hfits.2.2⟩
    next => simp at hstep

section Commits

variable {route : Route} {entry : Entry Id MusicOp}

theorem Sound.committed (h : before.Sound) (hc : Committed before after route entry)
    (hdot : ∀ dot, route = .session dot → ¬ before.Fresh dot)
    (hserial : ∀ serial, route = .fallback serial → serial < before.edits.length)
    (hreified : ∀ event ∈ before.events, route = .session event.dot →
      after.Reified event entry.hash)
    (habove : ∀ edit ∈ before.edits, edit.route = route → route.isFallback = true →
      entry.payload = edit.payload ∧
        ∀ below ∈ edit.shown.hashes, after.history.Ancestor below entry.hash) :
    after.Sound := by
  have hcontinues := hc.continues
  constructor
  · rw [hc.shown]
    exact h.shown.trans hcontinues.history
  · rw [hc.events]
    exact h.dots
  · intro event hevent
    rw [hc.events] at hevent
    apply (h.events event hevent).continues hcontinues h.shown
    intro id hid
    rcases hc.durable_cases hid with hold | ⟨hroute,rfl⟩
    · exact .inl hold
    · exact .inr (hreified event hevent hroute.symm)
  · intro live hlive
    rw [hc.session] at hlive
    exact (h.live live hlive).continues hcontinues
  · intro edit hedit
    rw [hc.edits] at hedit
    have hsound := h.edits edit hedit
    apply hsound.continues hcontinues (by rw [hc.edits])
    · intro live hlive dot hready _
      exact .inr ⟨live,hc.session ▸ hlive,hready⟩
    · intro id hid
      rcases hc.durable_cases hid with hold | ⟨-,rfl⟩
      · exact .inl hold
      · have hsub := (hsound.shown.trans h.shown).hashes
        exact .inr fun hmem => hc.extended.fresh (hsub hmem)
    · intro hfallback id hid
      rcases hc.durable_cases hid with hold | ⟨hroute,rfl⟩
      · exact .inl hold
      · obtain ⟨hpayload,hbelow⟩ := habove edit hedit hroute (hroute ▸ hfallback)
        exact .inr ⟨entry,hc.extended.mem,rfl,hpayload,hbelow⟩
  · rw [hc.edits]
    refine h.issued.imp fun hpair => ⟨hpair.routes,hpair.shown,?_⟩
    rw [hc.events]
    exact hpair.apart
  · intro other id hid
    rcases hc.durable_cases hid with hold | ⟨-,rfl⟩
    · exact hcontinues.history.hashes (h.admitted other id hold)
    · exact DagSnapshot.mem_hashes.mpr ⟨entry,hc.extended.mem,rfl⟩
  · intro first second id hfirst hsecond
    rcases hc.durable_cases hfirst with hold | ⟨rfl,rfl⟩
    · rcases hc.durable_cases hsecond with hold' | ⟨-,rfl⟩
      · exact h.distinct first second id hold hold'
      · exact absurd (h.admitted first _ hold) hc.extended.fresh
    · rcases hc.durable_cases hsecond with hold' | ⟨rfl,-⟩
      · exact absurd (h.admitted second _ hold') hc.extended.fresh
      · rfl
  · intro dot hne
    rw [Fresh,hc.events]
    obtain ⟨id,hid⟩ := Option.ne_none_iff_exists'.mp hne
    rcases hc.durable_cases hid with hold | ⟨hroute,-⟩
    · exact h.usedDot dot (by simp [hold])
    · exact hdot dot hroute.symm
  · intro serial hne
    rw [hc.edits]
    obtain ⟨id,hid⟩ := Option.ne_none_iff_exists'.mp hne
    rcases hc.durable_cases hid with hold | ⟨hroute,-⟩
    · exact h.usedSerial serial (by simp [hold])
    · exact hserial serial hroute.symm

/-- The entry of an event stands on the base and on the entries of its dependencies: each of
these brings in no more than the base and entries of further dependencies. -/
theorem Sound.reified (h : before.Sound) {event : KernelEvent Id} (hevent : event ∈ before.events)
    {hash : Id} (hready : ∀ dot ∈ event.dependencies, before.durable (.session dot) ≠ none)
    (hc : Committed before after (.session event.dot)
      ⟨hash,event.predecessors before.durable,event.payload⟩) : after.Reified event hash := by
  have hsound := h.events event hevent
  have hbase := hsound.base.trans h.shown.hashes
  have hsame : ∀ dot ∈ event.dependencies,
      after.durable (.session dot) = before.durable (.session dot) :=
    fun dot hdot => hc.continues.durable_eq (hready dot hdot)
  constructor
  · exact fun dot hdot => hc.continues.durable_ne_none (hready dot hdot)
  · exact ⟨_,hc.extended.mem,rfl,rfl⟩
  · intro below
    have hiff : after.history.Ancestor below hash ↔
        below ∈ before.history.observedAt (event.predecessors before.durable) := hc.ancestor_iff
    rw [hiff,DagSnapshot.mem_observedAt,hc.extended.grows.observedAt hbase]
    constructor
    · rintro ⟨head,hhead,hbelow⟩
      rcases Finset.mem_union.mp hhead with hhead | hhead
      · exact .inl (DagSnapshot.mem_observedAt.mpr ⟨head,hhead,hbelow⟩)
      · obtain ⟨dot,hdot,hid⟩ := Finset.mem_biUnion.mp hhead
        have hid := Option.mem_toFinset.mp hid
        rcases hbelow with rfl | hbelow
        · exact .inr ⟨dot,hdot,(hsame dot hdot).trans hid⟩
        · obtain ⟨known,hknown,rfl,hroot,hdeps⟩ := hsound.closed dot hdot
          have hpast := ((h.events known hknown).reified head hid).past below
          rcases hpast.mp hbelow with hold | ⟨other,hother,hdurable⟩
          · exact .inl (hroot ▸ hold)
          · exact .inr ⟨other,hdeps hother,(hsame other (hdeps hother)).trans hdurable⟩
    · rintro (hold | ⟨dot,hdot,hid⟩)
      · obtain ⟨head,hhead,hbelow⟩ := DagSnapshot.mem_observedAt.mp hold
        exact ⟨head,Finset.mem_union_left _ hhead,hbelow⟩
      · rw [hsame dot hdot] at hid
        exact ⟨below,Finset.mem_union_right _
          (Finset.mem_biUnion.mpr ⟨dot,hdot,Option.mem_toFinset.mpr hid⟩),.inl rfl⟩

theorem Sound.edit_ext (h : before.Sound) {first second : OwnEdit Id}
    (hfirst : first ∈ before.edits) (hsecond : second ∈ before.edits)
    (hroute : first.route = second.route) : first = second := by
  have hnodup : (before.edits.map OwnEdit.route).Nodup :=
    List.pairwise_map.mpr (h.issued.imp fun hpair => hpair.routes)
  exact List.inj_on_of_nodup_map hnodup hfirst hsecond hroute

theorem Sound.commitSession (h : before.Sound) {dot : SessionDot} {hash : Id}
    (hstep : before.commitSession dot hash = some after) :
    Continues before after ∧ after.Sound := by
  obtain ⟨event,hevent,rfl,hready,hc⟩ := commitSession_cases hstep
  refine ⟨hc.continues,h.committed hc ?_ ?_ ?_ ?_⟩
  · rintro dot ⟨⟩
    exact mem_dots hevent
  · simp
  · intro other hother hroute
    cases h.event_ext hevent hother (by simpa using hroute)
    exact h.reified hevent hready hc
  · simp [Route.isFallback]

theorem above_frontier {edit : OwnEdit Id} {route : Route} {hash : Id}
    (hc : Committed before after route ⟨hash,before.history.frontier,edit.payload⟩) :
    ∀ below ∈ before.history.hashes, after.history.Ancestor below hash := by
  intro below hbelow
  apply hc.ancestor_iff.mpr
  rwa [DagSnapshot.observedAt_frontier]

theorem Sound.commit (h : before.Sound) {serial : Nat} {hash : Id}
    (hstep : before.commit serial hash = some after) :
    Continues before after ∧ after.Sound := by
  obtain ⟨edit,hedit,hroute,hc⟩ := commit_cases hstep
  refine ⟨hc.continues,h.committed hc ?_ ?_ ?_ ?_⟩
  · simp
  · rintro serial ⟨⟩
    exact (h.edits edit hedit).serial serial hroute
  · simp
  · intro other hother hsame _
    cases h.edit_ext hother hedit (hsame.trans hroute.symm)
    refine ⟨rfl,fun below hbelow => ?_⟩
    exact above_frontier hc below (((h.edits edit hedit).shown.trans h.shown).hashes hbelow)

end Commits

theorem Sound.step (h : before.Sound) {input : Input Id} (hstep : before.step input = some after) :
    Continues before after ∧ after.Sound := by
  cases input with
  | applyLive entry => exact h.applyLive hstep
  | advanceDurable snapshot => exact h.advanceDurable hstep
  | installSession => exact h.installSession hstep
  | ingestRemote dot payload dependencies => exact h.ingestRemote hstep
  | localEdit command dot isSaturated => exact h.localEdit hstep
  | commitSession dot hash => exact h.commitSession hstep
  | commit serial hash => exact h.commit hstep

theorem sound_opened (history : History Id) : (opened history).Sound := by
  constructor <;> simp [opened,DagSnapshot.Grows.refl]

end Steps

end Placement

end WalkieSongie.EditRoutes
