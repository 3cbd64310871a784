import Mathlib.Data.List.TakeWhile
import WalkieSongie.RoomValues
set_option autoImplicit false

/-!
The grants an author presents with a command: those that are live at the frontier, cut at the bound
of a presentation.
-/

namespace WalkieSongie.LiveGrants

variable {Area Rights History : Type}

structure Grant (Area Rights : Type) where
  issuer : ActorId
  receiver : ActorId
  area : Area
  rights : Rights
  parent : Option EntryHash

structure AuthorizationRequest (Area : Type) where
  receiver : ActorId
  area : Area
  presented : List EntryHash
  atPosition : Position
  fromPosition : Position

/-- What the capability library captures of a history under its trusted roots. -/
structure CapabilitySnapshot (Area Rights : Type) where
  grantsForReceiver : ActorId → List (EntryHash × Grant Area Rights)
  authorize : AuthorizationRequest Area → Bool

structure CapabilityLibrary (Area Rights History : Type) where
  containsInvoke : Rights → Bool
  covers : Area → Area → Bool
  frontier : History → Position
  /-- The grants of a history. -/
  grants : History → EntryHash → Option (Grant Area Rights)
  captureWith : History → List EntryHash → CapabilitySnapshot Area Rights

variable (C : CapabilityLibrary Area Rights History) (history : History) (root : EntryHash)

/-- At the frontier the actor may invoke on the area with these grants presented. -/
def invokes (actor : ActorId) (area : Area) (presented : List EntryHash) : Bool :=
  (C.captureWith history [root]).authorize
    ⟨actor,area,presented,C.frontier history,C.frontier history⟩

def isLive (actor : ActorId) (id : EntryHash) (grant : Grant Area Rights) : Bool :=
  C.containsInvoke grant.rights && invokes C history root actor grant.area [id]

def liveGrants (actor : ActorId) : List EntryHash :=
  ((C.captureWith history [root]).grantsForReceiver actor).filterMap fun (id,grant) =>
    if C.containsInvoke grant.rights = false ∨
        invokes C history root actor grant.area [id] = false then none
    else some id

/-- The proof library bounds what one presentation may hold. -/
def liveGrantsFor (maxPresentedGrants : Nat) (actor : ActorId) : List EntryHash :=
  (liveGrants C history root actor).take maxPresentedGrants

/-- What authority decides of a commit on a command's area: the refusal of an actor without any
live grant, or the library's own of what is presented. -/
def commitAuthority (unauthorized : String) (maxPresentedGrants : Nat) (actor : ActorId)
    (area : Area) : Except String Unit :=
  let capabilities := liveGrantsFor C history root maxPresentedGrants actor
  if capabilities.isEmpty then
    .error "local actor has no live capability for this Room-v5 lane"
  else if invokes C history root actor area capabilities then .ok ()
  else .error unauthorized

/-- A grant of the history to the actor that is authorized for invoking. -/
def Live (actor : ActorId) (id : EntryHash) (grant : Grant Area Rights) : Prop :=
  C.grants history id = some grant ∧ grant.receiver = actor ∧
    isLive C history root actor id grant = true

/-- The library enumerates just the grants addressed to a receiver, a live grant allows the areas it
covers, and live grants presented together allow what one of them allows. -/
structure Documented : Prop where
  enumerates : ∀ actor id grant,
    (id,grant) ∈ (C.captureWith history [root]).grantsForReceiver actor ↔
      C.grants history id = some grant ∧ grant.receiver = actor
  covered : ∀ actor id grant area, Live C history root actor id grant →
    C.covers grant.area area = true → invokes C history root actor area [id] = true
  presents : ∀ actor area presented,
    (∀ id ∈ presented, ∃ grant, Live C history root actor id grant) →
      (invokes C history root actor area presented = true ↔
        ∃ id ∈ presented, invokes C history root actor area [id] = true)

/-- Some live grant to the actor covers the area. -/
def Holds (actor : ActorId) (area : Area) : Prop :=
  ∃ id grant, Live C history root actor id grant ∧ C.covers grant.area area = true

def liveBefore (actor : ActorId) (area : Area) : List EntryHash :=
  (liveGrants C history root actor).takeWhile fun id =>
    !invokes C history root actor area [id]

section Presented

variable {C history root} (hdocumented : Documented C history root)
include hdocumented

theorem mem_liveGrants {actor : ActorId} {id : EntryHash} :
    id ∈ liveGrants C history root actor ↔ ∃ grant, Live C history root actor id grant := by
  simp only [liveGrants,Live,isLive,List.mem_filterMap,Bool.and_eq_true]
  constructor
  · rintro ⟨⟨found,grant⟩,henumerated,hlive⟩
    obtain ⟨hgrant,hreceiver⟩ := (hdocumented.enumerates actor found grant).mp henumerated
    by_cases hrefused : C.containsInvoke grant.rights = false ∨
        invokes C history root actor grant.area [found] = false
    · simp [hrefused] at hlive
    · simp only [hrefused,if_false,Option.some.injEq] at hlive
      subst hlive
      exact ⟨grant,hgrant,hreceiver,by simpa using hrefused⟩
  · rintro ⟨grant,hgrant,hreceiver,hlive⟩
    have henumerated := (hdocumented.enumerates actor id grant).mpr ⟨hgrant,hreceiver⟩
    exact ⟨(id,grant),henumerated,by simp [hlive.1,hlive.2]⟩

theorem commitAuthority_eq_ok {unauthorized : String} {maxPresentedGrants : Nat} {actor : ActorId}
    {area : Area} :
    commitAuthority C history root unauthorized maxPresentedGrants actor area = .ok () ↔
      ∃ id ∈ liveGrantsFor C history root maxPresentedGrants actor,
        invokes C history root actor area [id] = true := by
  have hlive : ∀ id ∈ liveGrantsFor C history root maxPresentedGrants actor,
      ∃ grant, Live C history root actor id grant := by
    intro id hid
    exact (mem_liveGrants hdocumented).mp (List.mem_of_mem_take hid)
  rw [← hdocumented.presents actor area _ hlive,commitAuthority]
  cases hpresented : liveGrantsFor C history root maxPresentedGrants actor with
  | nil =>
      have hnone : ¬ invokes C history root actor area [] = true := by
        rw [hdocumented.presents actor area [] (by simp)]
        simp
      simp [hnone]
  | cons first rest => simp

end Presented

/-- A list that holds a wanted element keeps one among its first so many exactly when fewer stand
before the first of them. -/
theorem exists_mem_take_iff {α : Type} {wanted : α → Bool} {entries : List α}
    (h : ∃ entry ∈ entries, wanted entry = true) (count : Nat) :
    (∃ entry ∈ entries.take count, wanted entry = true) ↔
      (entries.takeWhile fun entry => !wanted entry).length < count := by
  induction entries generalizing count with
  | nil => simp at h
  | cons first rest ih =>
      cases count with
      | zero => simp
      | succ count =>
          cases hfirst : wanted first with
          | true => simp [hfirst]
          | false =>
              have hrest : ∃ entry ∈ rest, wanted entry = true := by simpa [hfirst] using h
              simpa [hfirst] using ih hrest count

/-- An actor that holds a live grant for an area is presented one and not refused exactly when
fewer of its live grants than a presentation may hold are enumerated before the first that allows
the area. -/
theorem live_grant_presented_iff {C : CapabilityLibrary Area Rights History} {history : History}
    {root : EntryHash} (hdocumented : Documented C history root) {actor : ActorId} {area : Area}
    (hholds : Holds C history root actor area) (unauthorized : String) (maxPresentedGrants : Nat) :
    ((∃ id ∈ liveGrantsFor C history root maxPresentedGrants actor,
        invokes C history root actor area [id] = true) ∧
      commitAuthority C history root unauthorized maxPresentedGrants actor area = .ok ()) ↔
      (liveBefore C history root actor area).length < maxPresentedGrants := by
  have hlive : ∃ id ∈ liveGrants C history root actor,
      invokes C history root actor area [id] = true := by
    obtain ⟨id,grant,hlive,hcovers⟩ := hholds
    have hmem := (mem_liveGrants hdocumented).mpr ⟨grant,hlive⟩
    exact ⟨id,hmem,hdocumented.covered actor id grant area hlive hcovers⟩
  rw [commitAuthority_eq_ok hdocumented,and_self]
  exact exists_mem_take_iff hlive maxPresentedGrants

section Paths

/-- Grants in the order of their ids; areas are paths, and one covers those that begin with it. -/
abbrev PathHistory := List (Grant (List String) Bool)

/-- A grant by the trusted root allows its receiver the paths below its own. -/
def pathAllows (history : PathHistory) (roots : List EntryHash) (receiver : ActorId)
    (area : List String) (id : EntryHash) : Bool :=
  history[id]?.any fun grant =>
    grant.receiver = receiver && grant.rights && grant.area.isPrefixOf area &&
      (id ∈ roots || grant.parent.any (· ∈ roots))

def pathLibrary : CapabilityLibrary (List String) Bool PathHistory where
  containsInvoke rights := rights
  covers := List.isPrefixOf
  frontier _ := ∅
  grants history id := history[id]?
  captureWith history roots := {
    grantsForReceiver receiver := history.zipIdx.filterMap fun (grant,id) =>
      if grant.receiver = receiver then some (id,grant) else none
    authorize request :=
      request.presented.any (pathAllows history roots request.receiver request.area) }

theorem documented_pathLibrary (history : PathHistory) (root : EntryHash) :
    Documented pathLibrary history root := by
  constructor
  · intro actor id grant
    simp only [pathLibrary,List.mem_filterMap]
    constructor
    · rintro ⟨⟨found,place⟩,hplace,hfound⟩
      have hgrant := List.mem_zipIdx_iff_getElem?.mp hplace
      split at hfound
      · rename_i hreceiver
        cases hfound
        exact ⟨hgrant,hreceiver⟩
      · simp at hfound
    · rintro ⟨hgrant,hreceiver⟩
      exact ⟨(grant,id),List.mem_zipIdx_iff_getElem?.mpr hgrant,by simp [hreceiver]⟩
  · intro actor id grant area hlive hcovers
    obtain ⟨hgrant,-,hlive⟩ := hlive
    have hgrant : history[id]? = some grant := hgrant
    simp only [isLive,invokes,pathLibrary,pathAllows,hgrant,List.any_cons,List.any_nil,
      Option.any_some,Bool.or_false,Bool.and_eq_true] at hlive ⊢
    exact ⟨⟨hlive.2.1.1,hcovers⟩,hlive.2.2⟩
  · intro actor area presented _
    simp [invokes,pathLibrary]

/-- The trusted root's own grant, so many to an actor for the pieces alone, and one for the whole
namespace. -/
def manyGrants (count : Nat) : PathHistory :=
  ⟨1,1,[],true,none⟩ ::
    (List.replicate count ⟨1,7,["extension","pieces"],true,some 0⟩ ++ [⟨1,7,[],true,some 0⟩])

theorem getElem?_manyGrants_low {count id : Nat} (hlow : id < count) :
    (manyGrants count)[id+1]? = some ⟨1,7,["extension","pieces"],true,some 0⟩ := by
  simp [manyGrants,List.getElem?_append,hlow]

theorem getElem?_manyGrants_last (count : Nat) :
    (manyGrants count)[count+1]? = some ⟨1,7,[],true,some 0⟩ := by
  simp [manyGrants]

theorem holds_manyGrants (count : Nat) (area : List String) :
    Holds pathLibrary (manyGrants count) 0 7 area := by
  refine ⟨count+1,_,⟨getElem?_manyGrants_last count,rfl,?_⟩,rfl⟩
  simp [isLive,invokes,pathLibrary,pathAllows,getElem?_manyGrants_last]

theorem mem_manyGrants {count : Nat} {grant : Grant (List String) Bool}
    (h : grant ∈ (manyGrants count).tail) :
    grant.receiver = 7 ∧ grant.rights = true ∧ grant.parent = some 0 := by
  simp only [manyGrants,List.tail_cons,List.mem_append,List.mem_replicate,
    List.mem_singleton] at h
  rcases h with ⟨-,rfl⟩ | rfl
  · exact ⟨rfl,rfl,rfl⟩
  · exact ⟨rfl,rfl,rfl⟩

theorem liveGrants_manyGrants (count : Nat) :
    liveGrants pathLibrary (manyGrants count) 0 7 = List.range' 1 (count+1) := by
  have hzip : (manyGrants count).zipIdx =
      (⟨1,1,[],true,none⟩,0) :: (manyGrants count).tail.zipIdx 1 := rfl
  have hlength : (manyGrants count).tail.length = count+1 := by simp [manyGrants]
  have hlive : ∀ place ∈ (manyGrants count).tail.zipIdx 1,
      place.1.receiver = 7 ∧ isLive pathLibrary (manyGrants count) 0 7 place.2 place.1 = true := by
    rintro ⟨grant,id⟩ hplace
    have hfields := mem_manyGrants (List.fst_mem_of_mem_zipIdx hplace)
    simp only at hfields
    have hgrant : (manyGrants count)[id]? = some grant := by
      have hmem : (grant,id) ∈ (manyGrants count).zipIdx := List.mem_cons_of_mem _ hplace
      exact List.mem_zipIdx_iff_getElem?.mp hmem
    simp [isLive,invokes,pathLibrary,pathAllows,hgrant,hfields]
  have henumerated : (pathLibrary.captureWith (manyGrants count) [0]).grantsForReceiver 7 =
      ((manyGrants count).tail.zipIdx 1).filterMap fun place => some (place.2,place.1) := by
    have hskip : (pathLibrary.captureWith (manyGrants count) [0]).grantsForReceiver 7 =
        ((manyGrants count).tail.zipIdx 1).filterMap fun (grant,id) =>
          if grant.receiver = 7 then some (id,grant) else none := by
      simp [pathLibrary,hzip]
    rw [hskip]
    apply List.filterMap_congr
    intro place hplace
    simp [(hlive place hplace).1]
  have hkeep : liveGrants pathLibrary (manyGrants count) 0 7 =
      ((manyGrants count).tail.zipIdx 1).filterMap fun place => some place.2 := by
    rw [liveGrants,henumerated,List.filterMap_filterMap]
    apply List.filterMap_congr
    intro place hplace
    have hplaceLive := (hlive place hplace).2
    simp only [isLive,Bool.and_eq_true] at hplaceLive
    simp [hplaceLive]
  rw [hkeep,List.filterMap_eq_map',List.zipIdx_map_snd,hlength]

end Paths

theorem live_grant_presented_iff_two :
    (liveBefore pathLibrary (manyGrants 2) 0 7 ["extension","config"]).length < 3 :=
  (live_grant_presented_iff (documented_pathLibrary (manyGrants 2) 0)
    (holds_manyGrants 2 ["extension","config"]) "refused" 3).mp (by decide)

/-- Whatever the bound of a presentation, as many narrower grants before it hide a live one. -/
theorem no_bound_presents_every_grant : ¬ ∃ maxPresentedGrants,
    ∀ (history : PathHistory) (root : EntryHash) (actor : ActorId) (area : List String),
      Documented pathLibrary history root → Holds pathLibrary history root actor area →
        ∃ id ∈ liveGrantsFor pathLibrary history root maxPresentedGrants actor,
          invokes pathLibrary history root actor area [id] = true := by
  rintro ⟨count,hpresents⟩
  obtain ⟨id,hid,hinvokes⟩ := hpresents (manyGrants count) 0 7 ["extension","config"]
    (documented_pathLibrary (manyGrants count) 0) (holds_manyGrants count _)
  have htake : (List.range' 1 count ++ [1+1*count]).take count = List.range' 1 count :=
    List.take_left' List.length_range'
  rw [liveGrantsFor,liveGrants_manyGrants,List.range'_concat,htake,List.mem_range'_1] at hid
  obtain ⟨place,rfl⟩ := Nat.exists_eq_add_of_le' hid.1
  have hlow : place < count := by omega
  have hgrant := getElem?_manyGrants_low hlow
  simp [invokes,pathLibrary,pathAllows,hgrant] at hinvokes

end WalkieSongie.LiveGrants
