import WalkieSongie.EditPlacement
set_option autoImplicit false

/-!
What the user's own edits of an element come to in the durable music, whichever way each of them
went.
-/

namespace WalkieSongie.EditRoutes
open CausalDag Session Relation

variable {Id : Type} [DecidableEq Id]

def removes : MusicOp → Option Element
  | .removeDegree value => some (.degree value)
  | .removePitch value => some (.pitch value)
  | _ => none

theorem removes_eq_some {command : MusicOp} {element : Element} :
    removes command = some element ↔ command = element.remove := by
  cases command <;> cases element <;> simp [removes,Element.remove]

section Positions

variable {A K : Type} [DecidableEq K] {key : A → K}

theorem split_at_key {items : List A} (h : (items.map key).Nodup) {item : A}
    (hitem : item ∈ items) :
    items = items.takeWhile (fun other => key other ≠ key item) ++
      item :: (items.dropWhile fun other => key other ≠ key item).tail := by
  induction items with
  | nil => simp at hitem
  | cons head rest ih =>
    rw [List.map_cons,List.nodup_cons] at h
    rcases List.mem_cons.mp hitem with rfl | hrest
    · simp
    · have hne : key head ≠ key item := fun hkey => h.1 (hkey ▸ List.mem_map_of_mem hrest)
      simp only [hne,ne_eq,not_false_eq_true,decide_true,List.takeWhile_cons_of_pos,
        List.dropWhile_cons_of_pos,List.cons_append,List.cons.injEq,true_and]
      exact ih h.2 hrest

theorem pairwise_positions {items : List A} (h : (items.map key).Nodup) :
    items.Pairwise fun first second =>
      first ∈ items.takeWhile (fun other => key other ≠ key second) ∧
        second ∈ (items.dropWhile fun other => key other ≠ key first).tail := by
  induction items with
  | nil => simp
  | cons head rest ih =>
    rw [List.map_cons,List.nodup_cons] at h
    have hne : ∀ item ∈ rest, key head ≠ key item :=
      fun item hitem hkey => h.1 (hkey ▸ List.mem_map_of_mem hitem)
    apply List.pairwise_cons.mpr
    constructor
    · intro second hsecond
      simp [hne second hsecond,hsecond]
    · apply (ih h.2).imp_of_mem
      intro first second hfirst hsecond hpair
      have hfirst := hne first hfirst
      have hsecond := hne second hsecond
      simpa [hfirst,hsecond] using ⟨.inr (by simpa using hpair.1),by simpa using hpair.2⟩

end Positions

namespace Placement

section Conditions

variable (placement : Placement Id)

/-- The own edits made before the one that goes by `route`. -/
def earlier (route : Route) : List (OwnEdit Id) :=
  placement.edits.takeWhile fun edit => edit.route ≠ route

def later (route : Route) : List (OwnEdit Id) :=
  (placement.edits.dropWhile fun edit => edit.route ≠ route).tail

/-- Every shown copy of the element lies below what an event of the session will stand on. -/
def Reaches (live : LiveSession Id) (element : Element) : Prop :=
  ∀ entry ∈ placement.shown.newestFirst, entry.payload = element.add →
    ¬ Removed placement.shown element.remove entry.hash →
      entry.hash ∈ placement.shown.observedAt live.base ∨
        ∃ dot ∈ live.readyCut, placement.durable (.session dot) = some entry.hash

/-- The user's additions by the fallback are durable, and the task has been told of them. -/
def ShowsFallbacks (element : Element) : Prop :=
  ∀ edit ∈ placement.edits, edit.payload = element.add → edit.route.isFallback = true →
    (placement.durable edit.route).any (· ∈ placement.shown.hashes) = true

instance (live : LiveSession Id) (element : Element) : Decidable (placement.Reaches live element) :=
  inferInstanceAs (Decidable (∀ entry ∈ placement.shown.newestFirst, _))

instance (element : Element) : Decidable (placement.ShowsFallbacks element) :=
  inferInstanceAs (Decidable (∀ edit ∈ placement.edits, _))

/-- A removal is made where it reaches what is shown, or admitted in the order of the edits. -/
def Keeps : Input Id → Prop
  | .localEdit command _ isSaturated => isSaturated = false → ∀ live ∈ placement.session,
      ∀ element ∈ removes command,
        placement.Reaches live element ∧ placement.ShowsFallbacks element
  | .commit serial _ => ∀ edit ∈ placement.edits, edit.route = .fallback serial →
      ∀ element ∈ removes edit.payload,
        (∀ other ∈ placement.earlier (.fallback serial), other.payload = element.add →
          placement.durable other.route ≠ none) ∧
        ∀ other ∈ placement.later (.fallback serial), other.payload = element.add →
          placement.durable other.route = none
  | _ => True

instance : (input : Input Id) → Decidable (placement.Keeps input)
  | .localEdit _ _ _ | .commit _ _ => inferInstanceAs (Decidable (∀ _, _))
  | .applyLive _ | .advanceDurable _ | .installSession | .ingestRemote _ _ _
  | .commitSession _ _ => isTrue trivial

/-- What the edit could build on: the music shown then, the edits before it, and what its event
depends on. -/
def Known (edit : OwnEdit Id) (id : Id) : Prop :=
  id ∈ edit.shown.hashes ∨
    (∃ other ∈ placement.earlier edit.route, placement.durable other.route = some id) ∨
    ∃ event ∈ placement.events, edit.route = .session event.dot ∧
      ∃ dot ∈ event.dependencies, placement.durable (.session dot) = some id

instance (edit : OwnEdit Id) (id : Id) : Decidable (placement.Known edit id) :=
  inferInstanceAs (Decidable (_ ∨ _ ∨ _))

/-- Nobody adds the element again concurrently with the edit or after it. -/
def NotAddedAgain (edit : OwnEdit Id) (element : Element) : Prop :=
  ∀ entry ∈ placement.history.newestFirst, entry.payload = element.add →
    placement.Known edit entry.hash

instance (edit : OwnEdit Id) (element : Element) :
    Decidable (placement.NotAddedAgain edit element) :=
  inferInstanceAs (Decidable (∀ entry ∈ placement.history.newestFirst, _))

/-- Nobody else touches the element concurrently with the edit or after it. -/
def Undisturbed (edit : OwnEdit Id) (element : Element) : Prop :=
  ∀ entry ∈ placement.history.newestFirst, About entry.payload element →
    placement.durable edit.route = some entry.hash ∨ placement.Known edit entry.hash

instance (edit : OwnEdit Id) (element : Element) :
    Decidable (placement.Undisturbed edit element) :=
  inferInstanceAs (Decidable (∀ entry ∈ placement.history.newestFirst, _))

end Conditions

/-- Every step of the run is taken in a state that keeps the condition. -/
def Kept : Placement Id → List (Input Id) → Prop
  | _, [] => True
  | placement, input :: rest =>
      placement.Keeps input ∧ ∀ after ∈ placement.step input, after.Kept rest

instance decidableKept : (placement : Placement Id) → (inputs : List (Input Id)) →
    Decidable (placement.Kept inputs)
  | _, [] => isTrue trivial
  | placement, input :: rest =>
      have (after : Placement Id) : Decidable (after.Kept rest) := decidableKept after rest
      inferInstanceAs (Decidable (placement.Keeps input ∧ ∀ after ∈ placement.step input, _))

end Placement

namespace Placement

section Order

variable (placement : Placement Id)

/-- The event reaches every copy that was shown when the edit was made. -/
def CoversShown (edit : OwnEdit Id) (event : KernelEvent Id) (element : Element) : Prop :=
  ∀ entry ∈ edit.shown.newestFirst, entry.payload = element.add →
    ¬ Removed edit.shown element.remove entry.hash →
      entry.hash ∈ edit.shown.observedAt event.base ∨
        ∃ dot ∈ event.dependencies, placement.durable (.session dot) = some entry.hash

structure Covers (first second : OwnEdit Id) : Prop where
  session : ∀ event ∈ placement.events, second.route = .session event.dot →
    (∃ id ∈ second.shown.hashes, placement.durable first.route = some id) ∨
      ∃ dot ∈ event.dependencies, first.route = .session dot
  fallback : second.route.isFallback = true → ∀ id, placement.durable second.route = some id →
    ∃ below, placement.durable first.route = some below ∧ placement.history.Ancestor below id

def Spares (first second : OwnEdit Id) : Prop :=
  ∀ removal addition, placement.durable first.route = some removal →
    placement.durable second.route = some addition →
      ¬ placement.history.Ancestor addition removal

structure InOrder (first second : OwnEdit Id) : Prop where
  covers : ∀ element : Element, first.payload = element.add → second.payload = element.remove →
    placement.Covers first second
  spares : ∀ element : Element, first.payload = element.remove → second.payload = element.add →
    placement.Spares first second

structure Ordered : Prop where
  covered : ∀ edit ∈ placement.edits, ∀ element : Element, edit.payload = element.remove →
    ∀ event ∈ placement.events, edit.route = .session event.dot →
      placement.CoversShown edit event element
  pairs : placement.edits.Pairwise placement.InOrder

end Order

section OrderSteps

variable {before after : Placement Id} {edit first second : OwnEdit Id}

theorem CoversShown.continues {event : KernelEvent Id} {element : Element}
    (h : before.CoversShown edit event element) (hc : Continues before after) :
    after.CoversShown edit event element := by
  intro entry hentry hadd hremoved
  rcases h entry hentry hadd hremoved with hbase | ⟨dot,hdot,hid⟩
  · exact .inl hbase
  · exact .inr ⟨dot,hdot,hc.durable _ _ hid⟩

theorem Sound.event_of_route (hs : before.Sound) (hc : Continues before after)
    (hedit : edit ∈ before.edits) {event : KernelEvent Id} (hevent : event ∈ after.events)
    (hroute : edit.route = .session event.dot) : event ∈ before.events := by
  obtain ⟨known,hknown,hdot,-⟩ := (hs.edits edit hedit).event event.dot hroute
  exact hc.fresh event hevent (hdot ▸ mem_dots hknown)

theorem InOrder.continues (h : before.InOrder first second) (hs : before.Sound)
    (hc : Continues before after) (hsecond : second ∈ before.edits)
    (hcovers : ∀ element : Element, first.payload = element.add →
      second.payload = element.remove → second.route.isFallback = true →
        ∀ id, after.durable second.route = some id → before.durable second.route = some id ∨
          ∃ below, after.durable first.route = some below ∧ after.history.Ancestor below id)
    (hspares : ∀ element : Element, first.payload = element.remove →
      second.payload = element.add → ∀ removal addition,
        after.durable first.route = some removal → after.durable second.route = some addition →
          (before.durable first.route = some removal ∧
            before.durable second.route = some addition) ∨
          ¬ after.history.Ancestor addition removal) : after.InOrder first second := by
  constructor
  · intro element hadd hremove
    have hold := h.covers element hadd hremove
    constructor
    · intro event hevent hroute
      rcases hold.session event (hs.event_of_route hc hsecond hevent hroute) hroute with
        ⟨id,hid,hdurable⟩ | hready
      · exact .inl ⟨id,hid,hc.durable _ _ hdurable⟩
      · exact .inr hready
    · intro hfallback id hid
      rcases hcovers element hadd hremove hfallback id hid with hid | hnew
      · obtain ⟨below,hdurable,hbelow⟩ := hold.fallback hfallback id hid
        exact ⟨below,hc.durable _ _ hdurable,hc.history.ancestor hbelow⟩
      · exact hnew
  · intro element hremove hadd removal addition hfirst hsecond'
    rcases hspares element hremove hadd removal addition hfirst hsecond' with hboth | hnew
    · rw [hc.history.ancestor_iff (hs.admitted _ _ hboth.1)]
      exact h.spares element hremove hadd removal addition hboth.1 hboth.2
    · exact hnew

theorem Ordered.carry (h : before.Ordered) (hs : before.Sound) (hc : Continues before after)
    (hdurable : after.durable = before.durable) (hedits : after.edits = before.edits) :
    after.Ordered := by
  constructor
  · intro edit hedit element hremove event hevent hroute
    rw [hedits] at hedit
    have hknown := hs.event_of_route hc hedit hevent hroute
    exact (h.covered edit hedit element hremove event hknown hroute).continues hc
  · rw [hedits]
    apply h.pairs.imp_of_mem
    intro first second _ hsecond hpair
    apply hpair.continues hs hc hsecond
    · intro _ _ _ _ id hid
      rw [hdurable] at hid
      exact .inl hid
    · intro _ _ _ removal addition hfirst hsecond'
      rw [hdurable] at hfirst hsecond'
      exact .inl ⟨hfirst,hsecond'⟩

/-- A new edit at the end: it is not durable yet. -/
theorem Ordered.remember (h : before.Ordered) {command : MusicOp} {route : Route}
    (hnone : before.durable route = none)
    (hcovered : ∀ element : Element, command = element.remove → ∀ event ∈ before.events,
      route = .session event.dot →
        before.CoversShown ⟨command,route,before.shown⟩ event element)
    (hpairs : ∀ first ∈ before.edits, ∀ element : Element, first.payload = element.add →
      command = element.remove → ∀ event ∈ before.events, route = .session event.dot →
        (∃ id ∈ before.shown.hashes, before.durable first.route = some id) ∨
          ∃ dot ∈ event.dependencies, first.route = .session dot) :
    (before.remember command route).Ordered := by
  have hc : Continues before (before.remember command route) := continues_remember
  constructor
  · intro edit hedit element hremove event hevent hroute
    rcases List.mem_append.mp hedit with hold | hnew
    · exact (h.covered edit hold element hremove event hevent hroute).continues hc
    · obtain rfl := List.mem_singleton.mp hnew
      exact (hcovered element hremove event hevent hroute).continues hc
  · have hpending : ∀ id, before.durable route ≠ some id := by simp [hnone]
    have hold : before.edits.Pairwise (before.remember command route).InOrder := by
      apply h.pairs.imp
      intro first second hpair
      constructor
      · intro element hadd hremove
        have hcovers := hpair.covers element hadd hremove
        exact ⟨hcovers.session,hcovers.fallback⟩
      · exact hpair.spares
    apply List.pairwise_append.mpr
    refine ⟨hold,List.pairwise_singleton _ _,?_⟩
    intro first hfirst second hsecond
    obtain rfl := List.mem_singleton.mp hsecond
    constructor
    · intro element hadd hremove
      constructor
      · exact hpairs first hfirst element hadd hremove
      · exact fun _ id hid => absurd hid (hpending id)
    · intro _ _ _ _ addition _ hid
      exact absurd hid (hpending addition)

theorem Ordered.ingest (h : before.Ordered) (hs : before.Sound) {live : LiveSession Id}
    {dot : SessionDot} {payload : MusicOp} {dependencies : Finset SessionDot}
    (hfresh : before.Fresh dot) : (before.ingest live dot payload dependencies).Ordered :=
  h.carry hs (continues_ingest hfresh) rfl rfl

/-- A new edit through the session is made where its event reaches what is shown. -/
theorem Ordered.localEdit (h : before.Ordered) (hs : before.Sound) {command : MusicOp}
    {dot : SessionDot} {isSaturated : Bool}
    (hkeeps : before.Keeps (.localEdit command dot isSaturated))
    (hstep : before.localEdit command dot isSaturated = some after) : after.Ordered := by
  rcases localEdit_cases hstep with ⟨-,rfl⟩ | ⟨-,rfl⟩ | ⟨live,hlive,hroom,hfresh,rfl⟩
  · exact h
  · apply h.remember
    · by_contra hne
      have hbound := hs.usedSerial _ hne
      omega
    · simp
    · simp
  · have hreach : ∀ element : Element, command = element.remove →
        before.Reaches live element ∧ before.ShowsFallbacks element :=
      fun element hremove => hkeeps hroom live hlive element (removes_eq_some.mpr hremove)
    have hevent : ∀ event ∈ (before.ingest live dot command live.readyCut).events,
        Route.session dot = .session event.dot →
          event = ⟨dot,command,live.base,live.readyCut⟩ := by
      intro event hevent hdot
      rcases List.mem_cons.mp hevent with rfl | hold
      · rfl
      · cases hdot
        exact absurd hfresh (mem_dots hold)
    apply (h.ingest hs hfresh).remember
    · by_contra hne
      exact hs.usedDot dot hne hfresh
    · intro element hremove event hmem hdot
      rw [hevent event hmem hdot]
      exact (hreach element hremove).1
    · intro first hfirst element hadd hremove event hmem hdot
      rw [hevent event hmem hdot]
      cases hroute : first.route with
      | fallback serial =>
        have hshown := (hreach element hremove).2 first hfirst hadd (by rw [hroute]; rfl)
        obtain ⟨id,hid,hmem⟩ := (Option.any_eq_true _ _).mp hshown
        exact .inl ⟨id,of_decide_eq_true hmem,hroute ▸ hid⟩
      | session other =>
        rcases (hs.edits first hfirst).ready other hroute with hshown | ⟨known,hknown,hready⟩
        · exact .inl (hroute ▸ hshown)
        · rw [hlive] at hknown
          cases hknown
          exact .inr ⟨other,hready,rfl⟩

/-- The entry of an earlier edit through the session does not stand above a later edit: it stands
on what was shown before, and on events that were there before. -/
theorem Sound.spares_session (hs : before.Sound) {event : KernelEvent Id} {hash : Id}
    (hevent : event ∈ before.events)
    (hready : ∀ dot ∈ event.dependencies, before.durable (.session dot) ≠ none)
    (hc : Committed before after (.session event.dot)
      ⟨hash,event.predecessors before.durable,event.payload⟩)
    (hfirst : first ∈ before.edits) (hroute : first.route = .session event.dot)
    (hpair : before.Issued first second) (hsecond : second ∈ before.edits) {addition : Id}
    (haddition : before.durable second.route = some addition) :
    ¬ after.history.Ancestor addition hash := by
  intro hbelow
  obtain ⟨known,hknown,hdot,-,hbase⟩ := (hs.edits first hfirst).event event.dot hroute
  cases hs.event_ext hknown hevent hdot
  have hgrows : first.shown.Grows after.history :=
    ((hs.edits first hfirst).shown.trans hs.shown).trans hc.continues.history
  rcases ((hs.reified hevent hready hc).past addition).mp hbelow with hold | ⟨dot,hmem,hid⟩
  · rw [hgrows.observedAt hbase] at hold
    have hseen := hpair.shown.hashes (DagSnapshot.observedAt_subset hbase hold)
    exact (hs.edits second hsecond).late addition haddition hseen
  · rw [hc.continues.durable_eq (hready dot hmem)] at hid
    exact hpair.apart event hevent hroute dot hmem (hs.distinct _ _ _ haddition hid)

theorem Sound.nodup_routes (hs : before.Sound) : (before.edits.map OwnEdit.route).Nodup :=
  List.pairwise_map.mpr (hs.issued.imp fun hpair => hpair.routes)

/-- Once an entry of `route` is in, the edits keep their order if this one does. -/
theorem Ordered.committed (h : before.Ordered) (hs : before.Sound) {route : Route}
    {entry : Entry Id MusicOp} (hc : Committed before after route entry)
    (hcovers : ∀ first ∈ before.earlier route, ∀ second ∈ before.edits, second.route = route →
      ∀ element : Element, first.payload = element.add → second.payload = element.remove →
        second.route.isFallback = true →
          ∃ below, after.durable first.route = some below ∧
            after.history.Ancestor below entry.hash)
    (hspares : ∀ first ∈ before.edits, ∀ second ∈ before.later route, first.route = route →
      second ∈ before.edits → before.Issued first second →
      ∀ element : Element, first.payload = element.remove → second.payload = element.add →
        ∀ addition, before.durable second.route = some addition →
          ¬ after.history.Ancestor addition entry.hash) : after.Ordered := by
  have hcontinues := hc.continues
  constructor
  · intro edit hedit element hremove event hevent hroute
    rw [hc.edits] at hedit
    have hknown := hs.event_of_route hcontinues hedit hevent hroute
    exact (h.covered edit hedit element hremove event hknown hroute).continues hcontinues
  · rw [hc.edits]
    apply ((h.pairs.and hs.issued).and (pairwise_positions hs.nodup_routes)).imp_of_mem
    rintro first second hfirst hsecond ⟨⟨hpair,hissued⟩,hbefore,hafter⟩
    apply hpair.continues hs hcontinues hsecond
    · intro element hadd hremove hfallback id hid
      rcases hc.durable_cases hid with hold | ⟨rfl,rfl⟩
      · exact .inl hold
      · exact .inr (hcovers first hbefore second hsecond rfl element hadd hremove hfallback)
    · intro element hremove hadd removal addition hfirst' hsecond'
      rcases hc.durable_cases hfirst' with hold | ⟨rfl,rfl⟩
      · rcases hc.durable_cases hsecond' with hold' | ⟨-,rfl⟩
        · exact .inl ⟨hold,hold'⟩
        · exact .inr (hc.not_ancestor (hs.admitted _ _ hold))
      · have hold : before.durable second.route = some addition := by
          rwa [hc.durable_other hissued.routes.symm] at hsecond'
        exact .inr (hspares first hfirst second hafter rfl hsecond hissued element hremove hadd
          addition hold)

theorem Ordered.commitSession (h : before.Ordered) (hs : before.Sound) {dot : SessionDot}
    {hash : Id} (hstep : before.commitSession dot hash = some after) : after.Ordered := by
  obtain ⟨event,hevent,rfl,hready,hc⟩ := commitSession_cases hstep
  apply h.committed hs hc
  · intro first _ second _ hroute _ _ _ hfallback
    simp [hroute,Route.isFallback] at hfallback
  · intro first hfirst second _ hroute hsecond hissued _ _ _ addition haddition
    exact hs.spares_session hevent hready hc hfirst hroute hissued hsecond haddition

theorem Ordered.commit (h : before.Ordered) (hs : before.Sound) {serial : Nat} {hash : Id}
    (hkeeps : before.Keeps (.commit serial hash))
    (hstep : before.commit serial hash = some after) : after.Ordered := by
  obtain ⟨edit,hedit,hroute,hc⟩ := commit_cases hstep
  have hturn : ∀ element : Element, edit.payload = element.remove → _ :=
    fun element hremove => hkeeps edit hedit hroute element (removes_eq_some.mpr hremove)
  apply h.committed hs hc
  · intro first hfirst second hsecond hsame element hadd hremove _
    cases hs.edit_ext hsecond hedit (hsame.trans hroute.symm)
    obtain ⟨below,hbelow⟩ :=
      Option.ne_none_iff_exists'.mp ((hturn element hremove).1 first hfirst hadd)
    exact ⟨below,hc.continues.durable _ _ hbelow,
      above_frontier hc below (hs.admitted _ _ hbelow)⟩
  · intro first hfirst second hsecond hsame _ _ element hremove hadd addition haddition
    cases hs.edit_ext hfirst hedit (hsame.trans hroute.symm)
    have hnone := (hturn element hremove).2 second hsecond hadd
    simp [hnone] at haddition

theorem Ordered.step (h : before.Ordered) (hs : before.Sound) {input : Input Id}
    (hkeeps : before.Keeps input) (hstep : before.step input = some after) : after.Ordered := by
  have hc := (hs.step hstep).1
  cases input with
  | applyLive entry =>
    obtain ⟨history,-,rfl⟩ := Option.map_eq_some_iff.mp hstep
    exact h.carry hs hc rfl rfl
  | advanceDurable snapshot =>
    simp only [Placement.step,advanceDurable,Option.ite_none_right_eq_some] at hstep
    obtain ⟨-,⟨⟩⟩ := hstep
    exact h.carry hs hc rfl rfl
  | installSession =>
    simp only [Placement.step,installSession,Option.ite_none_left_eq_some] at hstep
    obtain ⟨-,⟨⟩⟩ := hstep
    exact h.carry hs hc rfl rfl
  | ingestRemote dot payload dependencies =>
    simp only [Placement.step,ingestRemote] at hstep
    split at hstep
    next => simp at hstep
    next live hlive =>
      simp only [Option.ite_none_right_eq_some] at hstep
      obtain ⟨-,⟨⟩⟩ := hstep
      exact h.carry hs hc rfl rfl
  | localEdit command dot isSaturated => exact h.localEdit hs hkeeps hstep
  | commitSession dot hash => exact h.commitSession hs hstep
  | commit serial hash => exact h.commit hs hkeeps hstep

theorem ordered_opened (history : History Id) : (opened history).Ordered := by
  constructor <;> simp [opened]

theorem Ordered.run {inputs : List (Input Id)} (h : before.Ordered) (hs : before.Sound)
    (hkept : before.Kept inputs) (hrun : before.run inputs = some after) :
    after.Sound ∧ after.Ordered := by
  induction inputs generalizing before with
  | nil =>
    cases hrun
    exact ⟨hs,h⟩
  | cons input rest ih =>
    obtain ⟨next,hstep,hrest⟩ := Option.bind_eq_some_iff.mp hrun
    have hs' := (hs.step hstep).2
    exact ih (h.step hs hkept.1 hstep) hs' (hkept.2 next hstep) hrest

end OrderSteps

section Levels

variable {placement : Placement Id} {edit : OwnEdit Id} {element : Element} {id : Id}

theorem Sound.entry_of_edit (hs : placement.Sound) (hedit : edit ∈ placement.edits)
    (hid : placement.durable edit.route = some id) :
    ∃ entry ∈ placement.history.newestFirst, entry.hash = id ∧ entry.payload = edit.payload := by
  have hsound := hs.edits edit hedit
  cases hroute : edit.route with
  | session dot =>
    obtain ⟨event,hevent,rfl,hpayload,-⟩ := hsound.event dot hroute
    obtain ⟨entry,hentry,hhash,hsame⟩ :=
      ((hs.events event hevent).reified id (hroute ▸ hid)).entry
    exact ⟨entry,hentry,hhash,hsame.trans hpayload⟩
  | fallback serial =>
    obtain ⟨entry,hentry,hhash,hpayload,-⟩ :=
      hsound.above (by rw [hroute]; rfl) id hid
    exact ⟨entry,hentry,hhash,hpayload⟩

theorem Sound.payload_of_durable (hs : placement.Sound) (hedit : edit ∈ placement.edits)
    {entry : Entry Id MusicOp} (hentry : entry ∈ placement.history.newestFirst)
    (hid : placement.durable edit.route = some entry.hash) : edit.payload = entry.payload := by
  obtain ⟨known,hknown,hhash,hpayload⟩ := hs.entry_of_edit hedit hid
  rw [← hpayload,DagSnapshot.eq_of_hash hknown hentry hhash]

omit [DecidableEq Id] in
theorem mem_of_earlier {route : Route} (h : edit ∈ placement.earlier route) :
    edit ∈ placement.edits :=
  (List.takeWhile_prefix _).subset h

theorem Ordered.inOrder (h : placement.Ordered) (hs : placement.Sound)
    (hedit : edit ∈ placement.edits) {other : OwnEdit Id}
    (hother : other ∈ placement.earlier edit.route) : placement.InOrder other edit := by
  have hpairs := h.pairs
  rw [split_at_key hs.nodup_routes hedit] at hpairs
  exact (List.pairwise_append.mp hpairs).2.2 other hother edit List.mem_cons_self

/-- What is below the base of an edit's event, or among its dependencies, is below its entry. -/
theorem Sound.below_session (hs : placement.Sound) {event : KernelEvent Id}
    (hevent : event ∈ placement.events) (hedit : edit ∈ placement.edits)
    (hroute : edit.route = .session event.dot) (hid : placement.durable edit.route = some id)
    {below : Id} (h : below ∈ edit.shown.observedAt event.base ∨
      ∃ dot ∈ event.dependencies, placement.durable (.session dot) = some below) :
    placement.history.Ancestor below id := by
  obtain ⟨known,hknown,hdot,-,hbase⟩ := (hs.edits edit hedit).event event.dot hroute
  cases hs.event_ext hknown hevent hdot
  have hgrows := (hs.edits edit hedit).shown.trans hs.shown
  rw [← hgrows.observedAt hbase] at h
  exact (((hs.events event hevent).reified id (hroute ▸ hid)).past below).mpr h

/-- A durable removal whose event reaches the shown copies has every shown addition below it, or
another removal has. -/
theorem Sound.removed_of_shown (hs : placement.Sound) (hedit : edit ∈ placement.edits)
    (hremove : edit.payload = element.remove)
    (hcovered : ∀ event ∈ placement.events, edit.route = .session event.dot →
      placement.CoversShown edit event element)
    (hid : placement.durable edit.route = some id) {entry : Entry Id MusicOp}
    (hentry : entry ∈ placement.history.newestFirst) (hadd : entry.payload = element.add)
    (hshown : entry.hash ∈ edit.shown.hashes) :
    Removed placement.history element.remove entry.hash := by
  have hsound := hs.edits edit hedit
  have hgrows := hsound.shown.trans hs.shown
  obtain ⟨removal,hremoval,rfl,hpayload⟩ := hs.entry_of_edit hedit hid
  obtain ⟨old,hold,hhash⟩ := DagSnapshot.mem_hashes.mp hshown
  cases DagSnapshot.eq_of_hash (hgrows.mem hold) hentry hhash
  by_cases hgone : Removed edit.shown element.remove entry.hash
  · exact hgone.grows hgrows
  · refine removed_iff.mpr ⟨removal,hremoval,hpayload.trans hremove,?_⟩
    cases hroute : edit.route with
    | session dot =>
      obtain ⟨event,hevent,rfl,-⟩ := hsound.event dot hroute
      have hreaches := hcovered event hevent hroute entry hold hadd hgone
      exact hs.below_session hevent hedit hroute hid hreaches
    | fallback serial =>
      obtain ⟨-,-,-,-,hall⟩ := hsound.above (by rw [hroute]; rfl) removal.hash hid
      exact hall entry.hash hshown

/-- A durable removal has every addition it could build on below it, or another removal has. -/
theorem Ordered.removed_of_known (h : placement.Ordered) (hs : placement.Sound)
    (hedit : edit ∈ placement.edits) (hremove : edit.payload = element.remove)
    (hid : placement.durable edit.route = some id) {entry : Entry Id MusicOp}
    (hentry : entry ∈ placement.history.newestFirst) (hadd : entry.payload = element.add)
    (hknown : placement.Known edit entry.hash) :
    Removed placement.history element.remove entry.hash := by
  have hsound := hs.edits edit hedit
  have hshown : entry.hash ∈ edit.shown.hashes →
      Removed placement.history element.remove entry.hash :=
    hs.removed_of_shown hedit hremove (h.covered edit hedit element hremove) hid hentry hadd
  obtain ⟨removal,hremoval,rfl,hpayload⟩ := hs.entry_of_edit hedit hid
  have hbelow : placement.history.Ancestor entry.hash removal.hash →
      Removed placement.history element.remove entry.hash :=
    fun hbelow => removed_iff.mpr ⟨removal,hremoval,hpayload.trans hremove,hbelow⟩
  rcases hknown with hmem | ⟨other,hother,hdurable⟩ | ⟨event,hevent,hroute,hready⟩
  · exact hshown hmem
  · have hother' := mem_of_earlier hother
    have hsame := (hs.payload_of_durable hother' hentry hdurable).trans hadd
    have hcovers := (h.inOrder hs hedit hother).covers element hsame hremove
    cases hroute : edit.route with
    | session dot =>
      obtain ⟨event,hevent,rfl,-⟩ := hsound.event dot hroute
      rcases hcovers.session event hevent hroute with ⟨seen,hseen,hsame⟩ | ⟨dot,hdot,hsame⟩
      · cases hdurable.symm.trans hsame
        exact hshown hseen
      · exact hbelow (hs.below_session hevent hedit hroute hid (.inr ⟨dot,hdot,hsame ▸ hdurable⟩))
    | fallback serial =>
      obtain ⟨below,hsame,hlow⟩ := hcovers.fallback (by rw [hroute]; rfl) removal.hash hid
      cases hdurable.symm.trans hsame
      exact hbelow hlow
  · exact hbelow (hs.below_session hevent hedit hroute hid (.inr hready))

theorem Ordered.not_holds (h : placement.Ordered) (hs : placement.Sound)
    (hedit : edit ∈ placement.edits) (hremove : edit.payload = element.remove)
    (hid : placement.durable edit.route = some id)
    (honly : placement.NotAddedAgain edit element) :
    ¬ Holds placement.history element.add element.remove := by
  rintro ⟨entry,hentry,hadd,hstays⟩
  exact hstays (h.removed_of_known hs hedit hremove hid hentry hadd (honly entry hentry hadd))

theorem Ordered.holds (h : placement.Ordered) (hs : placement.Sound)
    (hedit : edit ∈ placement.edits) (hadd : edit.payload = element.add)
    (hid : placement.durable edit.route = some id)
    (honly : placement.Undisturbed edit element) :
    Holds placement.history element.add element.remove := by
  obtain ⟨addition,haddition,rfl,hpayload⟩ := hs.entry_of_edit hedit hid
  refine ⟨addition,haddition,hpayload.trans hadd,fun hremoved => ?_⟩
  obtain ⟨removal,hremoval,hremove,hbelow⟩ := removed_iff.mp hremoved
  rcases honly removal hremoval (.inr hremove) with
    hsame | hmem | ⟨other,hother,hdurable⟩ | ⟨event,hevent,hroute,hready⟩
  · rw [hid] at hsame
    exact acyclic placement.history.topological _ (Option.some.inj hsame ▸ hbelow)
  · have hgrows := (hs.edits edit hedit).shown.trans hs.shown
    exact (hs.edits edit hedit).late _ hid ((hgrows.ancestor_iff hmem).mp hbelow).mem_hashes
  · have hsame := (hs.payload_of_durable (mem_of_earlier hother) hremoval hdurable).trans hremove
    exact (h.inOrder hs hedit hother).spares element hsame hadd _ _ hdurable hid hbelow
  · have habove := hs.below_session hevent hedit hroute hid (.inr hready)
    exact acyclic placement.history.topological _ (hbelow.trans habove)

end Levels

/-- Where each removal reaches what is shown, or is admitted in the order of the edits, it takes
the element away, and the last edit decides. -/
theorem own_edits_take_effect {history : History Id} {inputs : List (Input Id)}
    {placement : Placement Id} (hkept : (opened history).Kept inputs)
    (hrun : (opened history).run inputs = some placement) {edit : OwnEdit Id}
    (hedit : edit ∈ placement.edits) {id : Id} (hid : placement.durable edit.route = some id)
    (element : Element) :
    (edit.payload = element.remove → placement.NotAddedAgain edit element →
      ¬ Holds placement.history element.add element.remove) ∧
    (About edit.payload element → placement.Undisturbed edit element →
      (Holds placement.history element.add element.remove ↔ edit.payload = element.add)) := by
  obtain ⟨hs,h⟩ := (ordered_opened history).run (sound_opened history) hkept hrun
  constructor
  · intro hremove honly
    exact h.not_holds hs hedit hremove hid honly
  · intro habout honly
    constructor
    · intro hholds
      rcases habout with hadd | hremove
      · exact hadd
      · have hknown : placement.NotAddedAgain edit element := by
          intro entry hentry hadd
          rcases honly entry hentry (.inl hadd) with hsame | hknown
          · have hpayload := hs.payload_of_durable hedit hentry hsame
            exact absurd (hadd.symm.trans (hpayload.symm.trans hremove)) (add_ne_remove element)
          · exact hknown
        exact absurd hholds (h.not_holds hs hedit hremove hid hknown)
    · intro hadd
      exact h.holds hs hedit hadd hid honly

/-- A note in the base is taken off through the session, and put back by the fallback. -/
theorem own_edits_take_effect_toggle :
    let note : Element := .degree ⟨0,0⟩
    let dot : SessionDot := ⟨1,0,1⟩
    ∃ off on : Placement Nat, ∃ removal ∈ off.edits, ∃ addition ∈ on.edits,
      (opened ⟨[⟨0,∅,note.add⟩],by decide⟩).run
        [.installSession,.localEdit note.remove dot false,.commitSession dot 1] = some off ∧
      off.run [.localEdit note.add dot true,.commit 1 2] = some on ∧
      removal.payload = note.remove ∧ addition.payload = note.add ∧
      ¬ Holds off.history note.add note.remove ∧ Holds on.history note.add note.remove := by
  intro note dot
  refine ⟨_,_,_,List.mem_cons_self,_,List.mem_cons_of_mem _ List.mem_cons_self,
    rfl,rfl,rfl,rfl,?_,?_⟩
  · exact (@own_edits_take_effect Nat _ ⟨[⟨0,∅,note.add⟩],by decide⟩
      [.installSession,.localEdit note.remove dot false,.commitSession dot 1] _
      (by decide) rfl _ List.mem_cons_self 1 rfl note).1 rfl (by decide)
  · exact ((@own_edits_take_effect Nat _ ⟨[⟨0,∅,note.add⟩],by decide⟩
      [.installSession,.localEdit note.remove dot false,.commitSession dot 1,
        .localEdit note.add dot true,.commit 1 2] _
      (by decide) rfl _ (List.mem_cons_of_mem _ List.mem_cons_self) 2 rfl note).2
        (.inl rfl) (by decide)).mpr rfl

/-- A note that came into the durable music after the session's base is shown, and nobody adds it
again, but a removal through the session leaves it there. -/
theorem removal_leaves_shown_note :
    let note : Element := .degree ⟨0,0⟩
    let dot : SessionDot := ⟨1,0,1⟩
    let first : Entry Nat MusicOp := ⟨0,∅,.other 0⟩
    let second : Entry Nat MusicOp := ⟨1,{0},note.add⟩
    ∃ before after : Placement Nat, ∃ edit ∈ after.edits,
      (opened ⟨[first],by decide⟩).run [.installSession,.applyLive second,
        .advanceDurable ⟨[second,first],by decide⟩] = some before ∧
      before.events = [] ∧ Holds before.shown note.add note.remove ∧
      before.run [.localEdit note.remove dot false,.commitSession dot 2] = some after ∧
      edit.payload = note.remove ∧ edit.route = .session dot ∧
      after.durable edit.route = some 2 ∧ after.NotAddedAgain edit note ∧
      Holds after.history note.add note.remove := by
  intro note dot first second
  exact ⟨_,_,_,List.mem_cons_self,rfl,rfl,by decide,rfl,rfl,rfl,rfl,by decide,by decide⟩

end Placement

end WalkieSongie.EditRoutes
