import WalkieSongie.AppSnapshot
set_option autoImplicit false

/-!
How each host takes over a view of the room: what changes in its snapshot, and the events it emits.
-/

namespace WalkieSongie.Client
open Extension (PieceId)

variable {T : TuningLibrary}

/-- A host's snapshot on its way through a call, with the events emitted so far. -/
structure Told (T : TuningLibrary) where
  snapshot : AppSnapshot T
  events : List (AppEvent T)
  deriving DecidableEq

namespace Told

def pieceEvents (pieces : List PieceSnapshot) (view : RoomView T) : List (AppEvent T) :=
  (pieces.filter fun piece => !view.pieces.contains piece.id).map (fun piece =>
      .pieceRemoved piece.id) ++
    (view.pieceSnapshots.filter fun piece =>
      pieces.find? (fun old => old.id = piece.id) ≠ some piece).map .pieceUpserted

variable (told : Told T) (view : RoomView T)

def tuning : Told T :=
  if told.snapshot.tuning = some view.music.tuning then told
  else
    ⟨{ told.snapshot with
        tuning := some view.music.tuning, tuningId := some (T.id view.music.tuning) },
      told.events ++ [.tuningChanged view.music.tuning]⟩

def roundTable : Told T :=
  if told.snapshot.roundTable = view.music.roundTable then told
  else
    ⟨{ told.snapshot with roundTable := view.music.roundTable },
      told.events ++ [.roundTableChanged view.music.roundTable]⟩

def sharedPitches (shared : SharedPitchSet) : Told T :=
  if told.snapshot.sharedPitches = shared then told
  else
    ⟨{ told.snapshot with sharedPitches := shared }, told.events ++ [.pitchSetChanged shared]⟩

def pieces : Told T :=
  ⟨{ told.snapshot with pieces := view.pieceSnapshots },
    told.events ++ pieceEvents told.snapshot.pieces view⟩

def config : Told T :=
  if told.snapshot.piecesLocked = view.piecesLocked ∧
      told.snapshot.availableEmojis = view.availableEmojis then told
  else
    ⟨{ told.snapshot with
        piecesLocked := view.piecesLocked, availableEmojis := view.availableEmojis },
      told.events ++ [.roomConfigChanged view.piecesLocked view.availableEmojis]⟩

end Told

/-- The steps that can fail where the MIDI outputs are brought up to the snapshot. -/
inductive MidiStep where
  | send
  | tuning
  | release
  | route

def MidiStep.code : MidiStep → String
  | .send => "midi_send"
  | .tuning => "midi_tuning"
  | .release => "midi_release"
  | .route => "midi_route"

structure MidiFailure where
  step : MidiStep
  error : String

def MidiFailure.diagnostic (failure : MidiFailure) : AppEvent T :=
  .diagnostic failure.step.code failure.error

namespace AppRuntime

/-- The native runtime's reading of a view, which leaves the round table out. -/
def takeRoomView (snapshot : AppSnapshot T) (view : RoomView T) : Told T :=
  ((((Told.mk snapshot []).tuning view).sharedPitches view.music.sharedPitches).pieces view).config
    view

/-- The view is taken, then the MIDI outputs follow; what fails there is reported. -/
def applyRoomView (snapshot : AppSnapshot T) : RoomView T × List MidiFailure → Told T
  | (view,failures) =>
    let told := takeRoomView snapshot view
    ⟨told.snapshot,told.events ++ failures.map MidiFailure.diagnostic⟩

end AppRuntime

namespace BrowserHost

def applyRoomViewInner (snapshot : AppSnapshot T) (view : RoomView T)
    (applySharedPitches : Bool) : Told T :=
  let told := ((Told.mk snapshot []).tuning view).roundTable view
  let told := if applySharedPitches then told.sharedPitches view.music.sharedPitches else told
  (told.pieces view).config view

def applyRoomView (snapshot : AppSnapshot T) (view : RoomView T) : Told T :=
  applyRoomViewInner snapshot view true

def applyNonMusicRoomView (snapshot : AppSnapshot T) (view : RoomView T) : Told T :=
  applyRoomViewInner snapshot view false

def applySessionPitchView (snapshot : AppSnapshot T) (shared : SharedPitchSet) : Told T :=
  (Told.mk snapshot []).sharedPitches shared

end BrowserHost

/-- One call after the other, each from the snapshot that the last one left. -/
def Told.run {Input : Type} (call : AppSnapshot T → Input → Told T) (told : Told T) :
    List Input → Told T
  | [] => told
  | input :: inputs =>
    let next := call told.snapshot input
    Told.run call ⟨next.snapshot,told.events ++ next.events⟩ inputs

section Views

namespace AppEvent

/-- The events that both hosts make of a view. -/
def OfView : AppEvent T → Prop
  | .tuningChanged _ | .pitchSetChanged _ | .pieceUpserted _ | .pieceRemoved _
  | .roomConfigChanged _ _ => True
  | _ => False

def IsRoundTable : AppEvent T → Prop
  | .roundTableChanged _ => True
  | _ => False

def IsDiagnostic : AppEvent T → Prop
  | .diagnostic _ _ => True
  | _ => False

theorem OfView.not_roundTable {event : AppEvent T} (h : event.OfView) : ¬ event.IsRoundTable := by
  cases event <;> simp_all [OfView,IsRoundTable]

theorem OfView.not_diagnostic {event : AppEvent T} (h : event.OfView) : ¬ event.IsDiagnostic := by
  cases event <;> simp_all [OfView,IsDiagnostic]

end AppEvent

variable {snapshot : AppSnapshot T} {view : RoomView T}

@[simp]
theorem Told.roundTable_of_same {told : Told T}
    (h : view.music.roundTable = told.snapshot.roundTable) : told.roundTable view = told := by
  simp [Told.roundTable,h]

@[simp]
theorem Told.tuning_roundTable (told : Told T) :
    (told.tuning view).snapshot.roundTable = told.snapshot.roundTable := by
  unfold Told.tuning
  split <;> rfl

@[simp]
theorem Told.sharedPitches_roundTable (told : Told T) (shared : SharedPitchSet) :
    (told.sharedPitches shared).snapshot.roundTable = told.snapshot.roundTable := by
  unfold Told.sharedPitches
  split <;> rfl

@[simp]
theorem Told.pieces_roundTable (told : Told T) :
    (told.pieces view).snapshot.roundTable = told.snapshot.roundTable := rfl

@[simp]
theorem Told.config_roundTable (told : Told T) :
    (told.config view).snapshot.roundTable = told.snapshot.roundTable := by
  unfold Told.config
  split <;> rfl

theorem AppRuntime.takeRoomView_roundTable :
    (AppRuntime.takeRoomView snapshot view).snapshot.roundTable = snapshot.roundTable := by
  simp [AppRuntime.takeRoomView]

theorem BrowserHost.applyRoomView_eq (h : view.music.roundTable = snapshot.roundTable) :
    BrowserHost.applyRoomView snapshot view = AppRuntime.applyRoomView snapshot (view,[]) := by
  have hsame : view.music.roundTable =
      ((Told.mk snapshot []).tuning view).snapshot.roundTable := by simpa using h
  simp [BrowserHost.applyRoomView,BrowserHost.applyRoomViewInner,AppRuntime.applyRoomView,
    AppRuntime.takeRoomView,Told.roundTable_of_same hsame]

/-- Every event so far is one of these. -/
def Told.Within (told : Told T) (allowed : AppEvent T → Prop) : Prop :=
  ∀ event ∈ told.events, allowed event

namespace Told

variable {told : Told T} {allowed : AppEvent T → Prop}

theorem within_start (snapshot : AppSnapshot T) : (Told.mk snapshot []).Within allowed := by
  simp [Within]

theorem Within.append (h : told.Within allowed) {events : List (AppEvent T)}
    (hevents : ∀ event ∈ events, allowed event) (after : AppSnapshot T) :
    (Told.mk after (told.events ++ events)).Within allowed := by
  intro event hmem
  cases List.mem_append.mp hmem with
  | inl hbefore => exact h event hbefore
  | inr hnew => exact hevents event hnew

section Allowed

variable (hview : ∀ event : AppEvent T, event.OfView → allowed event)
include hview

theorem Within.tuning (h : told.Within allowed) : (told.tuning view).Within allowed := by
  unfold Told.tuning
  split
  · exact h
  · exact h.append (by simpa using hview (.tuningChanged view.music.tuning) trivial) _

theorem Within.sharedPitches (h : told.Within allowed) (shared : SharedPitchSet) :
    (told.sharedPitches shared).Within allowed := by
  unfold Told.sharedPitches
  split
  · exact h
  · exact h.append (by simpa using hview (.pitchSetChanged shared) trivial) _

theorem Within.pieces (h : told.Within allowed) : (told.pieces view).Within allowed := by
  refine h.append (fun event hmem => hview event ?_) _
  simp only [pieceEvents,List.mem_append,List.mem_map] at hmem
  obtain ⟨_,_,rfl⟩ | ⟨_,_,rfl⟩ := hmem
  · trivial
  · trivial

theorem Within.config (h : told.Within allowed) : (told.config view).Within allowed := by
  unfold Told.config
  split
  · exact h
  · refine h.append ?_ _
    simpa using hview (.roomConfigChanged view.piecesLocked view.availableEmojis) trivial

end Allowed

theorem Within.run {Input : Type} {call : AppSnapshot T → Input → Told T}
    (hcall : ∀ snapshot input, (call snapshot input).Within allowed) (h : told.Within allowed)
    (inputs : List Input) : (told.run call inputs).Within allowed := by
  induction inputs generalizing told with
  | nil => exact h
  | cons input inputs ih => exact ih (h.append (hcall told.snapshot input) _)

theorem subset_sharedPitches (shared : SharedPitchSet) :
    told.events ⊆ (told.sharedPitches shared).events := by
  unfold Told.sharedPitches
  split <;> simp

theorem subset_config : told.events ⊆ (told.config view).events := by
  unfold Told.config
  split <;> simp

theorem subset_run {Input : Type} (call : AppSnapshot T → Input → Told T) (inputs : List Input) :
    told.events ⊆ (run call told inputs).events := by
  induction inputs generalizing told with
  | nil => simp [run]
  | cons input inputs ih => exact fun event hmem => ih (List.mem_append_left _ hmem)

theorem mem_run {Input : Type} {call : AppSnapshot T → Input → Told T} {inputs : List Input}
    {input : Input} (hmem : input ∈ inputs) {event : AppEvent T}
    (hcall : ∀ snapshot, event ∈ (call snapshot input).events) :
    event ∈ (told.run call inputs).events := by
  induction inputs generalizing told with
  | nil => cases hmem
  | cons first inputs ih =>
    cases List.mem_cons.mp hmem with
    | inl hfirst =>
      subst hfirst
      exact subset_run call inputs (List.mem_append_right told.events (hcall told.snapshot))
    | inr hlater => exact ih hlater

end Told

theorem AppRuntime.applyRoomView_within (snapshot : AppSnapshot T)
    (applied : RoomView T × List MidiFailure) :
    (AppRuntime.applyRoomView snapshot applied).Within (¬ ·.IsRoundTable) := by
  obtain ⟨view,failures⟩ := applied
  have hview (event : AppEvent T) (h : event.OfView) := h.not_roundTable
  have htaken : (AppRuntime.takeRoomView snapshot view).Within (¬ ·.IsRoundTable) :=
    ((((Told.within_start snapshot).tuning hview).sharedPitches hview _).pieces hview).config hview
  refine htaken.append (fun event hmem => ?_) _
  obtain ⟨failure,-,rfl⟩ := List.mem_map.mp hmem
  exact id

theorem BrowserHost.applyRoomView_within (snapshot : AppSnapshot T) (view : RoomView T) :
    (BrowserHost.applyRoomView snapshot view).Within (¬ ·.IsDiagnostic) := by
  have hview (event : AppEvent T) (h : event.OfView) := h.not_diagnostic
  have htuning : ((Told.mk snapshot []).tuning view).Within (¬ ·.IsDiagnostic) :=
    (Told.within_start snapshot).tuning hview
  have htable : (((Told.mk snapshot []).tuning view).roundTable view).Within
      (¬ ·.IsDiagnostic) := by
    unfold Told.roundTable
    split
    · exact htuning
    · exact htuning.append (by simp [AppEvent.IsDiagnostic]) _
  exact ((htable.sharedPitches hview view.music.sharedPitches).pieces hview).config hview

theorem BrowserHost.roundTableChanged_mem (h : view.music.roundTable ≠ snapshot.roundTable) :
    .roundTableChanged view.music.roundTable ∈
      (BrowserHost.applyRoomView snapshot view).events := by
  have hother : ((Told.mk snapshot []).tuning view).snapshot.roundTable ≠
      view.music.roundTable := by simpa using h.symm
  have htold : .roundTableChanged view.music.roundTable ∈
      (((Told.mk snapshot []).tuning view).roundTable view).events := by
    rw [Told.roundTable,if_neg hother]
    simp
  simp only [applyRoomView,applyRoomViewInner,if_true]
  exact Told.subset_config (List.mem_append_left _ (Told.subset_sharedPitches _ htold))

theorem BrowserHost.run_tells {told : Told T} {views : List (RoomView T)}
    (h : ∃ view ∈ views, view.music.roundTable ≠ told.snapshot.roundTable) :
    ∃ event ∈ (told.run BrowserHost.applyRoomView views).events, event.IsRoundTable := by
  induction views generalizing told with
  | nil => simp at h
  | cons first views ih =>
    by_cases hfirst : first.music.roundTable = told.snapshot.roundTable
    · refine ih ?_
      obtain ⟨view,hmem,hother⟩ := h
      simp only [applyRoomView_eq hfirst,AppRuntime.applyRoomView,
        AppRuntime.takeRoomView_roundTable]
      cases List.mem_cons.mp hmem with
      | inl hsame => exact absurd (hsame ▸ hfirst) hother
      | inr hlater => exact ⟨view,hlater,hother⟩
    · have hmem := roundTableChanged_mem hfirst
      exact ⟨.roundTableChanged first.music.roundTable,
        Told.subset_run applyRoomView views (List.mem_append_right told.events hmem),trivial⟩

theorem AppRuntime.run_reports {told : Told T} {applied : List (RoomView T × List MidiFailure)}
    (h : ∃ input ∈ applied, input.2 ≠ []) :
    ∃ event ∈ (told.run AppRuntime.applyRoomView applied).events, event.IsDiagnostic := by
  obtain ⟨⟨view,failures⟩,hmem,hfails⟩ := h
  obtain ⟨failure,hfailure⟩ := List.exists_mem_of_ne_nil failures hfails
  refine ⟨failure.diagnostic,Told.mem_run hmem fun snapshot => ?_,trivial⟩
  exact List.mem_append_right _ (List.mem_map_of_mem hfailure)

/-- A native host takes a view as the browser does: it has the same round table as the snapshot,
and the MIDI outputs follow. -/
def AppRuntime.Plain (snapshot : AppSnapshot T) (applied : RoomView T × List MidiFailure) : Prop :=
  applied.1.music.roundTable = snapshot.roundTable ∧ applied.2 = []

theorem run_applyRoomView_eq {told : Told T} {applied : List (RoomView T × List MidiFailure)}
    (h : ∀ input ∈ applied, AppRuntime.Plain told.snapshot input) :
    told.run BrowserHost.applyRoomView (applied.map Prod.fst) =
      told.run AppRuntime.applyRoomView applied := by
  induction applied generalizing told with
  | nil => rfl
  | cons first applied ih =>
    obtain ⟨view,failures⟩ := first
    obtain ⟨htable,hquiet⟩ := h (view,failures) List.mem_cons_self
    subst hquiet
    simp only [List.map_cons,Told.run,BrowserHost.applyRoomView_eq htable]
    refine ih fun input hmem => ?_
    have hlater := h input (List.mem_cons_of_mem _ hmem)
    simpa [AppRuntime.Plain,AppRuntime.applyRoomView,AppRuntime.takeRoomView_roundTable]
      using hlater

/-- What the views tell is the same in two snapshots. -/
structure AppSnapshot.SameRoom (first second : AppSnapshot T) : Prop where
  tuning : first.tuning = second.tuning
  tuningId : first.tuningId = second.tuningId
  roundTable : first.roundTable = second.roundTable
  sharedPitches : first.sharedPitches = second.sharedPitches
  pieces : first.pieces = second.pieces
  piecesLocked : first.piecesLocked = second.piecesLocked
  availableEmojis : first.availableEmojis = second.availableEmojis

theorem views_agree_iff (snapshot : AppSnapshot T)
    (applied : List (RoomView T × List MidiFailure)) :
    let native := (Told.mk snapshot []).run AppRuntime.applyRoomView applied
    let browser := (Told.mk snapshot []).run BrowserHost.applyRoomView (applied.map Prod.fst)
    native.snapshot.SameRoom browser.snapshot ∧ native.events = browser.events ↔
      ∀ input ∈ applied, AppRuntime.Plain snapshot input := by
  dsimp only
  constructor
  · rintro ⟨-,hevents⟩ input hmem
    constructor
    · by_contra hother
      obtain ⟨event,hevent,htable⟩ : ∃ event ∈ ((Told.mk snapshot []).run
          BrowserHost.applyRoomView (applied.map Prod.fst)).events, event.IsRoundTable :=
        BrowserHost.run_tells ⟨input.1,List.mem_map_of_mem hmem,hother⟩
      rw [← hevents] at hevent
      exact (Told.within_start snapshot).run AppRuntime.applyRoomView_within applied event hevent
        htable
    · by_contra hfails
      obtain ⟨event,hevent,hdiagnostic⟩ : ∃ event ∈ ((Told.mk snapshot []).run
          AppRuntime.applyRoomView applied).events, event.IsDiagnostic :=
        AppRuntime.run_reports ⟨input,hmem,hfails⟩
      rw [hevents] at hevent
      exact (Told.within_start snapshot).run BrowserHost.applyRoomView_within _ event hevent
        hdiagnostic
  · intro h
    rw [← @run_applyRoomView_eq T (Told.mk snapshot []) applied h]
    exact ⟨⟨rfl,rfl,rfl,rfl,rfl,rfl,rfl⟩,rfl⟩

end Views

end WalkieSongie.Client
