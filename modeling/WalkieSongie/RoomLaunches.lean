import WalkieSongie.ClientFold
set_option autoImplicit false

/-!
Room operations of the browser window: launches of rooms that overlap at their suspension points,
what a superseded launch may still do, and when a refused one has terminated its worker.
-/

namespace WalkieSongie.Client

variable {T : TuningLibrary}

structure Bootstrap where
  peer : ActorId
  endpointId : String
  support : UInt8

structure RoomRestartSpec where
  roomName : Option String
  /-- The room authority, if there is one, is the room's owner. -/
  authorized : Bool
  bootstrapSource : DiscoverySource
  bootstrap : Option Bootstrap

/-- In front of which suspension point a launch stands, or how it returned. -/
inductive LaunchPhase where
  | opening
  | subscribing
  | binding
  | settling
  | closing
  | installed
  | refused
  deriving DecidableEq

structure Launch where
  spec : RoomRestartSpec
  operation : Nat
  phase : LaunchPhase
  /-- The generation of the worker that was opened. -/
  worker : Option Nat
  terminated : Bool

inductive PerformanceNotice where
  | installGeneration (generation : Nat)
  | reset (generation : Nat)
  deriving DecidableEq

structure WindowState (T : TuningLibrary) where
  host : HostState T
  performanceGeneration : Nat
  performanceSequence : Nat
  roomOperation : Nat
  /-- The launch whose room is installed. -/
  activeRoom : Option Nat
  launches : List Launch
  /-- Calls of start_room that wait for the last room to stop. -/
  starting : List (RoomRestartSpec × Nat)
  /-- Automatic restarts of failed generations. -/
  restarting : List (RoomRestartSpec × Nat)

def WindowState.initial : WindowState T where
  host := HostState.initial
  performanceGeneration := 0
  performanceSequence := 0
  roomOperation := 0
  activeRoom := none
  launches := []
  starting := []
  restarting := []

/-- A worker's projection, and what the session gate makes of it: a view with or without its music,
or a break in continuity. -/
structure WorkerProjection (T : TuningLibrary) where
  view : RoomView T
  canonical : Except String Bool

/-- How the dedicated worker came up: not at all, with a response that is none, with another
response than Opened, or opened. -/
inductive WorkerOpening where
  | failed
  | undecodable (generation : Nat)
  | unexpected (generation : Nat)
  | opened (generation : Nat)

inductive LaunchInput (T : TuningLibrary) where
  | startRoom (spec : RoomRestartSpec)
  | leaveRoom
  /-- The room that a start or a leave waits for has stopped. -/
  | roomStopped (start : Nat)
  | roomLeft
  | generationFailed (launch : Nat) (reason : String)
  | workerClosed (launch : Nat)
  | restart (restart : Nat)
  | sessionEnded (generation : Nat)
  | workerOpened (launch : Nat) (opening : WorkerOpening)
  /-- Subscribe is answered, or fails; what comes with it is checked against the response to Open,
  and the sink takes the new generation or does not. -/
  | subscribed (launch : Nat) (snapshot : Option (WorkerProjection T)) (matching taken : Bool)
  | networkBound (launch : Nat) (bound : Bool)
  | ticketSettled (launch : Nat) (topic ticket : String)
  | networkDown (launch : Nat)
  | projection (launch : Nat) (projection : WorkerProjection T)

inductive WindowEffect (T : TuningLibrary) where
  | event (event : AppEvent T)
  | notice (notice : PerformanceNotice)
  /-- The launch is answered: installed, or refused. -/
  | answered (launch : Nat) (installed : Bool)

abbrev Stepped (T : TuningLibrary) := WindowState T × List (WindowEffect T)

namespace WindowState

variable (state : WindowState T)

/-- A call on the host's snapshot, with the events it emits. -/
def emit (emitted : Emitted T) : Stepped T :=
  ({ state with host := emitted.1 },emitted.2.map .event)

def diagnostic (code message : String) : Stepped T := (state,[.event (.diagnostic code message)])

def andThen (first : Stepped T) (second : WindowState T → Stepped T) : Stepped T :=
  ((second first.1).1,first.2 ++ (second first.1).2)

def setLaunch (index : Nat) (launch : Launch) : WindowState T :=
  { state with launches := state.launches.set index launch }

def refuse (index : Nat) (launch : Launch) : Stepped T :=
  (state.setLaunch index { launch with phase := .refused },[.answered index false])

def Superseded (launch : Launch) : Prop := launch.operation ≠ state.roomOperation

instance (launch : Launch) : Decidable (state.Superseded launch) :=
  inferInstanceAs (Decidable (_ ≠ _))

def raiseOperation : WindowState T :=
  { state with roomOperation := max (min (state.roomOperation+1) u64Max) 1 }

/-- The active room is taken out; its feedback is reset where a generation was installed. -/
def stopActiveRoom : Stepped T :=
  ({ state with activeRoom := none },
    if state.performanceGeneration ≠ 0 then [.notice (.reset state.performanceGeneration)] else [])

def launchRoom (spec : RoomRestartSpec) (operation : Nat) : Stepped T :=
  let index := state.launches.length
  if spec.authorized then
    ({ state with launches := state.launches ++ [⟨spec,operation,.opening,none,false⟩] },[])
  else
    ({ state with launches := state.launches ++ [⟨spec,operation,.refused,none,false⟩] },
      [.answered index false])

/-- The callback that a launch hands to its worker. -/
def onProjection (projection : WorkerProjection T) : Stepped T :=
  match projection.canonical with
  | .ok true => state.emit (state.host.told
      (BrowserHost.applyRoomView state.host.snapshot projection.view))
  | .ok false => state.emit (state.host.told
      (BrowserHost.applyNonMusicRoomView state.host.snapshot projection.view))
  | .error error => state.diagnostic "canonical_projection_continuity" error

/-- The generation is told to the sink unless it is older than the installed one; `taken` is the
sink's answer. -/
def installPerformanceGeneration (generation : Nat) (taken : Bool) : Stepped T × Bool :=
  if state.performanceGeneration = generation then ((state,[.notice (.reset generation)]),taken)
  else if state.performanceGeneration < generation then
    (({ state with performanceGeneration := generation, performanceSequence := 0 },
      [.notice (.installGeneration generation)]),taken)
  else ((state,[]),false)

/-- The worker has its first projection: it is checked, and the launch goes on to the network. -/
def workerReady (index : Nat) (launch : Launch) (generation : Nat) (matching taken : Bool) :
    Stepped T :=
  if matching then
    let installed := state.installPerformanceGeneration generation taken
    if installed.2 then
      andThen installed.1 fun state =>
        (state.setLaunch index { launch with phase := .binding },[])
    else andThen installed.1 fun state => state.refuse index launch
  else state.refuse index { launch with terminated := true }

/-- The bootstrap peer is shown, then the operation is checked and the room installed. -/
def settle (index : Nat) (launch : Launch) (topic ticket : String) : Stepped T :=
  let shown := match launch.spec.bootstrap with
    | none => (state,[])
    | some bootstrap => state.emit (BrowserHost.updatePeer state.host bootstrap.peer
        bootstrap.endpointId launch.spec.bootstrapSource .connecting bootstrap.support)
  andThen shown fun state =>
    if state.Superseded launch then
      (state.setLaunch index { launch with phase := .closing, terminated := true },[])
    else
      let installed := { state.setLaunch index { launch with phase := .installed } with
        activeRoom := some index }
      andThen (installed.emit (state.host.installRoom launch.spec.roomName topic ticket))
        fun state => (state,[.answered index true])

/-- The active generation fails: its worker is terminated, and a restart is due. -/
def failGeneration (index : Nat) (launch : Launch) (reason : String) : Stepped T :=
  let generation := launch.worker.getD 0
  let failed := { state.setLaunch index { launch with terminated := true } with
    activeRoom := none,
    restarting := state.restarting ++ [(launch.spec,launch.operation)] }
  (failed,[.event (.diagnostic "replica_worker_generation_failed" reason),
    .notice (.reset generation),
    .event (.diagnostic "replica_worker_generation_terminal" reason)])

def stepLaunch (index : Nat) (launch : Launch) : LaunchInput T → Stepped T
  | .workerOpened _ opening =>
    if launch.phase = .opening then
      match opening with
      | .failed => state.refuse index launch
      | .undecodable generation => state.refuse index { launch with worker := some generation }
      | .unexpected generation =>
        state.refuse index { launch with worker := some generation, terminated := true }
      | .opened generation =>
        (state.setLaunch index { launch with phase := .subscribing, worker := some generation },[])
    else (state,[])
  | .subscribed _ snapshot matching taken =>
    match launch.phase,launch.worker,snapshot with
    | .subscribing,some _,none => state.refuse index launch
    | .subscribing,some generation,some projection =>
      andThen (state.onProjection projection) fun state =>
        state.workerReady index launch generation matching taken
    | _,_,_ => (state,[])
  | .networkBound _ bound =>
    if launch.phase = .binding then
      if bound then (state.setLaunch index { launch with phase := .settling },[])
      else state.refuse index { launch with terminated := true }
    else (state,[])
  | .ticketSettled _ topic ticket =>
    if launch.phase = .settling then state.settle index launch topic ticket else (state,[])
  | .networkDown _ => if launch.phase = .closing then state.refuse index launch else (state,[])
  | .projection _ projection =>
    if launch.phase = .installed ∧ launch.terminated = false then state.onProjection projection
    else (state,[])
  | _ => (state,[])

end WindowState

/-- The launch whose next part, or whose callback, the step is. -/
def LaunchInput.launch : LaunchInput T → Option Nat
  | .workerOpened launch _ | .subscribed launch _ _ _ | .networkBound launch _
  | .ticketSettled launch _ _ | .networkDown launch | .projection launch _ => some launch
  | _ => none

namespace WindowState

variable (state : WindowState T)

/-- Steps of start_room, leave_room, restarts and sessions. -/
def stepWindow : LaunchInput T → Stepped T
  | .startRoom spec =>
    let raised := state.raiseOperation
    { raised with starting := raised.starting ++ [(spec,raised.roomOperation)] }.stopActiveRoom
  | .leaveRoom => state.raiseOperation.stopActiveRoom
  | .roomLeft => state.emit (BrowserHost.leaveRoom state.host)
  | .roomStopped start =>
    match state.starting[start]? with
    | none => (state,[])
    | some (spec,operation) =>
      { state with starting := state.starting.eraseIdx start }.launchRoom spec operation
  | .restart restart =>
    match state.restarting[restart]? with
    | none => (state,[])
    | some (spec,operation) =>
      if state.roomOperation = operation ∧ state.activeRoom = none then
        state.launchRoom spec operation
      else ({ state with restarting := state.restarting.eraseIdx restart },[])
  | .generationFailed index reason =>
    match state.launches[index]? with
    | none => (state,[])
    | some launch =>
      if state.activeRoom = some index then state.failGeneration index launch reason
      else (state,[])
  | .workerClosed index =>
    match state.launches[index]? with
    | none => (state,[])
    | some launch =>
      if launch.phase = .installed then
        (state.setLaunch index { launch with terminated := true },[])
      else (state,[])
  | .sessionEnded generation =>
    if state.performanceGeneration = generation then
      ({ state with performanceGeneration := 0 },[.notice (.reset generation)])
    else (state,[])
  | _ => (state,[])

def step (input : LaunchInput T) : Stepped T :=
  match input.launch with
  | none => state.stepWindow input
  | some index =>
    match state.launches[index]? with
    | none => (state,[])
    | some launch => state.stepLaunch index launch input

end WindowState

section Shown

variable {told : Told T} {view : RoomView T} {snapshot : AppSnapshot T}

theorem Told.tuning_snapshot : (told.tuning view).snapshot =
    { told.snapshot with
      tuning := some view.music.tuning
      tuningId := (told.tuning view).snapshot.tuningId } := by
  unfold Told.tuning
  split
  · rename_i hsame
    rw [← hsame]
  · rfl

theorem Told.roundTable_snapshot : (told.roundTable view).snapshot =
    { told.snapshot with roundTable := view.music.roundTable } := by
  unfold Told.roundTable
  split
  · rename_i hsame
    rw [← hsame]
  · rfl

theorem Told.sharedPitches_snapshot {shared : SharedPitchSet} :
    (told.sharedPitches shared).snapshot = { told.snapshot with sharedPitches := shared } := by
  unfold Told.sharedPitches
  split
  · rename_i hsame
    rw [← hsame]
  · rfl

theorem Told.config_snapshot : (told.config view).snapshot =
    { told.snapshot with
      piecesLocked := view.piecesLocked
      availableEmojis := view.availableEmojis } := by
  unfold Told.config
  split
  · rename_i hsame
    rw [← hsame.1,← hsame.2]
  · rfl

/-- The view says what the snapshot shows already. -/
structure RoomView.Shown (view : RoomView T) (music : Bool) (snapshot : AppSnapshot T) : Prop where
  tuning : snapshot.tuning = some view.music.tuning
  roundTable : snapshot.roundTable = view.music.roundTable
  sharedPitches : music = true → snapshot.sharedPitches = view.music.sharedPitches
  pieces : snapshot.pieces = view.pieceSnapshots
  piecesLocked : snapshot.piecesLocked = view.piecesLocked
  availableEmojis : snapshot.availableEmojis = view.availableEmojis

theorem pieceEvents_same : Told.pieceEvents view.pieceSnapshots view = [] := by
  have hkept : ∀ piece ∈ view.pieceSnapshots, view.pieces.contains piece.id = true := by
    intro piece hmem
    rw [contains_eq_any,List.any_eq_true]
    exact ⟨piece,hmem,by simp⟩
  have hfound : ∀ piece ∈ view.pieceSnapshots,
      view.pieceSnapshots.find? (fun old => old.id = piece.id) = some piece := by
    intro piece hmem
    exact (pieceSnapshots_sorted view).find_eq_some.mpr ⟨hmem,rfl⟩
  simp only [Told.pieceEvents,List.append_eq_nil_iff,List.map_eq_nil_iff,List.filter_eq_nil_iff]
  constructor
  · intro piece hmem
    simp [hkept piece hmem]
  · intro piece hmem
    simp [hfound piece hmem]

theorem RoomView.Shown.applied {music : Bool} (h : view.Shown music snapshot) :
    BrowserHost.applyRoomViewInner snapshot view music = ⟨snapshot,[]⟩ := by
  have hpieces : (Told.mk snapshot []).pieces view = Told.mk snapshot [] := by
    simp only [Told.pieces,h.pieces,pieceEvents_same]
    rw [← h.pieces]
    rfl
  cases music with
  | false =>
    simp [BrowserHost.applyRoomViewInner,Told.tuning,Told.roundTable,Told.config,h.tuning,
      h.roundTable,h.piecesLocked,h.availableEmojis,hpieces]
  | true =>
    simp [BrowserHost.applyRoomViewInner,Told.tuning,Told.roundTable,Told.sharedPitches,
      Told.config,h.tuning,h.roundTable,h.sharedPitches rfl,h.piecesLocked,h.availableEmojis,
      hpieces]

theorem applyRoomViewInner_snapshot (snapshot : AppSnapshot T) (view : RoomView T)
    (music : Bool) : (BrowserHost.applyRoomViewInner snapshot view music).snapshot =
      { snapshot with
        tuning := some view.music.tuning
        tuningId := ((Told.mk snapshot []).tuning view).snapshot.tuningId
        roundTable := view.music.roundTable
        sharedPitches := if music then view.music.sharedPitches else snapshot.sharedPitches
        pieces := view.pieceSnapshots
        piecesLocked := view.piecesLocked
        availableEmojis := view.availableEmojis } := by
  cases music with
  | false =>
    simp only [BrowserHost.applyRoomViewInner,Bool.false_eq_true,if_false,Told.config_snapshot,
      Told.pieces,Told.roundTable_snapshot]
    rw [Told.tuning_snapshot]
  | true =>
    simp only [BrowserHost.applyRoomViewInner,if_true,Told.config_snapshot,Told.pieces,
      Told.sharedPitches_snapshot,Told.roundTable_snapshot]
    rw [Told.tuning_snapshot]

theorem RoomView.shown_of_unchanged {music : Bool}
    (h : (BrowserHost.applyRoomViewInner snapshot view music).snapshot = snapshot) :
    view.Shown music snapshot := by
  rw [applyRoomViewInner_snapshot] at h
  constructor
  · exact (congrArg AppSnapshot.tuning h).symm
  · exact (congrArg AppSnapshot.roundTable h).symm
  · rintro rfl
    exact (congrArg AppSnapshot.sharedPitches h).symm
  · exact (congrArg AppSnapshot.pieces h).symm
  · exact (congrArg AppSnapshot.piecesLocked h).symm
  · exact (congrArg AppSnapshot.availableEmojis h).symm

end Shown

section Superseded

def WindowEffect.Quiet : WindowEffect T → Prop
  | .event (.diagnostic _ _) => True
  | .answered _ installed => installed = false
  | _ => False

/-- Nothing of the application's state is touched: no snapshot, event, generation or room. -/
structure WindowState.Harmless (state : WindowState T) (stepped : Stepped T) : Prop where
  snapshot : stepped.1.host.snapshot = state.host.snapshot
  generation : stepped.1.performanceGeneration = state.performanceGeneration
  activeRoom : stepped.1.activeRoom = state.activeRoom
  effects : ∀ effect ∈ stepped.2, effect.Quiet

/-- A launch that returned an error has terminated its worker; a closing one has done so before,
and one whose worker is not open has none. -/
structure Launch.Sound (launch : Launch) : Prop where
  live : launch.phase = .opening ∨ launch.phase = .subscribing → launch.terminated = false
  opening : launch.phase = .opening → launch.worker = none
  subscribing : launch.phase = .subscribing → launch.worker.isSome = true
  closing : launch.phase = .closing → launch.terminated = true
  refused : launch.phase = .refused → launch.worker.isSome = true → launch.terminated = true

structure WindowState.Sound (state : WindowState T) : Prop where
  launches : ∀ launch ∈ state.launches, launch.Sound
  active : ∀ index, state.activeRoom = some index → ∃ launch,
    state.launches[index]? = some launch ∧ launch.phase = .installed

/-- The worker of every launch that returned an error is terminated. -/
def WindowState.Terminated (state : WindowState T) : Prop :=
  ∀ launch ∈ state.launches, launch.phase = .refused → launch.worker.isSome = true →
    launch.terminated = true

/-- The callback would change nothing: continuity is broken, or the view is shown already. -/
def WorkerProjection.NothingNew (projection : WorkerProjection T) (snapshot : AppSnapshot T) :
    Prop :=
  ∀ music, projection.canonical = .ok music → projection.view.Shown music snapshot

namespace WindowState

variable {state : WindowState T} {index : Nat} {launch : Launch}

def LaunchKeeps (state : WindowState T) (launch : Launch) : LaunchInput T → Prop
  | .workerOpened _ opening => launch.phase = .opening → ∀ generation,
      opening ≠ .undecodable generation
  | .subscribed _ snapshot matching taken => launch.phase = .subscribing →
      ∃ projection, snapshot = some projection ∧
        (matching = true → state.performanceGeneration ≤ launch.worker.getD 0 ∧ taken = true) ∧
        (state.Superseded launch →
          matching = false ∧ projection.NothingNew state.host.snapshot)
  | .ticketSettled _ _ _ => launch.phase = .settling → state.Superseded launch →
      launch.spec.bootstrap = none
  | .projection _ projection => launch.phase = .installed ∧ launch.terminated = false →
      state.Superseded launch → projection.NothingNew state.host.snapshot
  | _ => True

/-- A step keeps superseded launches harmless and refused ones terminated. -/
def Keeps (state : WindowState T) (input : LaunchInput T) : Prop :=
  ∀ index launch, input.launch = some index → state.launches[index]? = some launch →
    state.LaunchKeeps launch input

/-- The step does no harm for a superseded launch. -/
def Fenced (state : WindowState T) (input : LaunchInput T) : Prop :=
  ∀ index launch, input.launch = some index → state.launches[index]? = some launch →
    state.Superseded launch → state.Harmless (state.step input)

theorem onProjection_harmless {projection : WorkerProjection T}
    (h : projection.NothingNew state.host.snapshot) :
    state.Harmless (state.onProjection projection) := by
  unfold onProjection
  unfold WorkerProjection.NothingNew at h
  cases hcanonical : projection.canonical with
  | error error => exact ⟨rfl,rfl,rfl,by simp [diagnostic,WindowEffect.Quiet]⟩
  | ok music =>
    have happlied := (h music hcanonical).applied
    cases music with
    | false =>
      simp only [BrowserHost.applyNonMusicRoomView,happlied]
      exact ⟨rfl,rfl,rfl,by simp [emit,HostState.told]⟩
    | true =>
      simp only [BrowserHost.applyRoomView,happlied]
      exact ⟨rfl,rfl,rfl,by simp [emit,HostState.told]⟩

theorem nothingNew_of_unchanged {projection : WorkerProjection T}
    (h : (state.onProjection projection).1.host.snapshot = state.host.snapshot) :
    projection.NothingNew state.host.snapshot := by
  intro music hcanonical
  unfold onProjection at h
  rw [hcanonical] at h
  cases music with
  | false => exact RoomView.shown_of_unchanged h
  | true => exact RoomView.shown_of_unchanged h

theorem onProjection_eq (state : WindowState T) (projection : WorkerProjection T) :
    ∃ host, (state.onProjection projection).1 = { state with host := host } := by
  unfold onProjection
  split
  · exact ⟨_,rfl⟩
  · exact ⟨_,rfl⟩
  · exact ⟨state.host,rfl⟩

theorem Harmless.andThen {first : Stepped T} {second : WindowState T → Stepped T}
    (hfirst : state.Harmless first) (hsecond : first.1.Harmless (second first.1)) :
    state.Harmless (andThen first second) where
  snapshot := hsecond.snapshot.trans hfirst.snapshot
  generation := hsecond.generation.trans hfirst.generation
  activeRoom := hsecond.activeRoom.trans hfirst.activeRoom
  effects effect hmem := by
    cases List.mem_append.mp hmem with
    | inl hbefore => exact hfirst.effects effect hbefore
    | inr hafter => exact hsecond.effects effect hafter

theorem setLaunch_harmless (launch : Launch) :
    state.Harmless (state.setLaunch index launch,[]) :=
  ⟨rfl,rfl,rfl,by simp⟩

theorem refuse_harmless (launch : Launch) : state.Harmless (state.refuse index launch) :=
  ⟨rfl,rfl,rfl,by simp [refuse,WindowEffect.Quiet]⟩

theorem harmless_rfl : state.Harmless (state,[]) := ⟨rfl,rfl,rfl,by simp⟩

theorem stepLaunch_harmless {input : LaunchInput T}
    (hkeeps : state.LaunchKeeps launch input) (hsuperseded : state.Superseded launch) :
    state.Harmless (state.stepLaunch index launch input) := by
  cases input with
  | workerOpened _ opening =>
    simp only [stepLaunch]
    split
    · cases opening with
      | opened generation => exact setLaunch_harmless _
      | failed => exact refuse_harmless _
      | undecodable generation => exact refuse_harmless _
      | unexpected generation => exact refuse_harmless _
    · exact harmless_rfl
  | subscribed _ snapshot matching taken =>
    simp only [stepLaunch]
    split
    · exact refuse_harmless _
    · rename_i generation projection hphase hworker
      obtain ⟨_,hsame,-,hnothing⟩ := hkeeps hphase
      cases hsame
      obtain ⟨rfl,hnew⟩ := hnothing hsuperseded
      refine (onProjection_harmless hnew).andThen ?_
      simp only [workerReady,Bool.false_eq_true,if_false]
      exact refuse_harmless _
    · exact harmless_rfl
  | networkBound _ bound =>
    simp only [stepLaunch]
    split
    · cases bound with
      | false => exact refuse_harmless _
      | true => exact setLaunch_harmless _
    · exact harmless_rfl
  | ticketSettled _ topic ticket =>
    simp only [stepLaunch]
    split
    · rename_i hphase
      have hnone := hkeeps hphase hsuperseded
      simp only [settle,hnone]
      refine harmless_rfl.andThen ?_
      rw [if_pos hsuperseded]
      exact setLaunch_harmless _
    · exact harmless_rfl
  | networkDown _ =>
    simp only [stepLaunch]
    split
    · exact refuse_harmless _
    · exact harmless_rfl
  | projection _ projection =>
    simp only [stepLaunch]
    split
    · rename_i hinstalled
      exact onProjection_harmless (hkeeps hinstalled hsuperseded)
    · exact harmless_rfl
  | startRoom spec => exact harmless_rfl
  | leaveRoom => exact harmless_rfl
  | roomStopped start => exact harmless_rfl
  | roomLeft => exact harmless_rfl
  | generationFailed launch reason => exact harmless_rfl
  | workerClosed launch => exact harmless_rfl
  | restart restart => exact harmless_rfl
  | sessionEnded generation => exact harmless_rfl

theorem Sound.congr {other : WindowState T} (h : state.Sound)
    (hlaunches : other.launches = state.launches)
    (hactive : ∀ index, other.activeRoom = some index → state.activeRoom = some index) :
    other.Sound where
  launches := hlaunches ▸ h.launches
  active index hindex := hlaunches ▸ h.active index (hactive index hindex)

theorem Sound.setLaunch (h : state.Sound) (hfound : state.launches[index]? = some launch)
    {after : Launch} (hafter : after.Sound)
    (hinstalled : launch.phase = .installed → after.phase = .installed) :
    (state.setLaunch index after).Sound where
  launches other hmem := by
    cases List.mem_or_eq_of_mem_set hmem with
    | inl hbefore => exact h.launches other hbefore
    | inr hsame => exact hsame ▸ hafter
  active other hother := by
    obtain ⟨found,hthere,hphase⟩ := h.active other hother
    by_cases hsame : index = other
    · subst hsame
      cases hfound.symm.trans hthere
      have hlength := (List.getElem?_eq_some_iff.mp hfound).1
      exact ⟨after,by simp [WindowState.setLaunch,hlength],hinstalled hphase⟩
    · exact ⟨found,by simp [WindowState.setLaunch,hsame,hthere],hphase⟩

theorem Sound.launchRoom (h : state.Sound) (spec : RoomRestartSpec) (operation : Nat) :
    (state.launchRoom spec operation).1.Sound := by
  have happend : ∀ added : Launch, added.Sound →
      ({ state with launches := state.launches ++ [added] } : WindowState T).Sound := by
    intro added hadded
    constructor
    · intro launch hmem
      cases List.mem_append.mp hmem with
      | inl hbefore => exact h.launches launch hbefore
      | inr hlast => exact (List.mem_singleton.mp hlast) ▸ hadded
    · intro index hindex
      obtain ⟨launch,hfound,hphase⟩ := h.active index hindex
      have hlength := (List.getElem?_eq_some_iff.mp hfound).1
      exact ⟨launch,by simp [List.getElem?_append_left hlength,hfound],hphase⟩
  unfold WindowState.launchRoom
  dsimp only
  split
  · exact happend _ ⟨fun _ => rfl,fun _ => rfl,nofun,nofun,nofun⟩
  · exact happend _ ⟨nofun,nofun,nofun,nofun,nofun⟩

theorem Sound.refuse (h : state.Sound) (hfound : state.launches[index]? = some launch)
    {after : Launch} (hphase : launch.phase ≠ .installed)
    (hafter : after.worker.isSome = true → after.terminated = true) :
    (state.refuse index after).1.Sound :=
  h.setLaunch hfound ⟨nofun,nofun,nofun,nofun,fun _ => hafter⟩ fun hinstalled =>
    absurd hinstalled hphase

theorem Sound.install (h : state.Sound) (hfound : state.launches[index]? = some launch) :
    ({ state.setLaunch index { launch with phase := .installed } with
      activeRoom := some index } : WindowState T).Sound where
  launches other hmem := by
    cases List.mem_or_eq_of_mem_set hmem with
    | inl hbefore => exact h.launches other hbefore
    | inr hsame => exact hsame ▸ ⟨nofun,nofun,nofun,nofun,nofun⟩
  active other hother := by
    cases hother
    have hlength := (List.getElem?_eq_some_iff.mp hfound).1
    exact ⟨{ launch with phase := .installed },by simp [WindowState.setLaunch,hlength],rfl⟩

theorem installPerformanceGeneration_newer (state : WindowState T) {generation : Nat}
    (taken : Bool) (h : state.performanceGeneration ≤ generation) :
    ∃ notice, (state.installPerformanceGeneration generation taken).1.2 = [.notice notice] ∧
      (state.installPerformanceGeneration generation taken).2 = taken := by
  unfold installPerformanceGeneration
  split
  · exact ⟨_,rfl,rfl⟩
  · split
    · exact ⟨_,rfl,rfl⟩
    · rename_i hsame holder
      omega

theorem installPerformanceGeneration_taken {generation : Nat} {taken : Bool}
    (h : (state.installPerformanceGeneration generation taken).2 = true) :
    state.performanceGeneration ≤ generation ∧ taken = true := by
  unfold installPerformanceGeneration at h
  split at h
  · rename_i hsame
    exact ⟨hsame.le,h⟩
  · split at h
    · rename_i hnewer
      exact ⟨hnewer.le,h⟩
    · cases h

theorem installPerformanceGeneration_keeps (state : WindowState T) (generation : Nat)
    (taken : Bool) :
    (state.installPerformanceGeneration generation taken).1.1.launches = state.launches ∧
      (state.installPerformanceGeneration generation taken).1.1.activeRoom =
        state.activeRoom := by
  unfold installPerformanceGeneration
  split
  · exact ⟨rfl,rfl⟩
  · split <;> exact ⟨rfl,rfl⟩

theorem settle_eq (state : WindowState T) (index : Nat) (launch : Launch) (topic ticket : String) :
    ∃ host events, state.settle index launch topic ticket =
      andThen (({ state with host := host } : WindowState T),events) fun state =>
        if state.Superseded launch then
          (state.setLaunch index { launch with phase := .closing, terminated := true },[])
        else
          let installed := { state.setLaunch index { launch with phase := .installed } with
            activeRoom := some index }
          andThen (installed.emit (state.host.installRoom launch.spec.roomName topic ticket))
            fun state => (state,[.answered index true]) := by
  unfold settle
  cases launch.spec.bootstrap with
  | none => exact ⟨state.host,[],rfl⟩
  | some bootstrap => exact ⟨_,_,rfl⟩

theorem stepLaunch_sound (h : state.Sound) (hfound : state.launches[index]? = some launch)
    {input : LaunchInput T} (hkeeps : state.LaunchKeeps launch input) :
    (state.stepLaunch index launch input).1.Sound := by
  have hsound : launch.Sound := h.launches launch (List.mem_of_getElem? hfound)
  cases input with
  | workerOpened _ opening =>
    simp only [stepLaunch]
    split
    · rename_i hphase
      have hother : launch.phase ≠ .installed := by rw [hphase]; decide
      cases opening with
      | failed => exact h.refuse hfound hother (by simp [hsound.opening hphase])
      | undecodable generation => exact absurd rfl (hkeeps hphase generation)
      | unexpected generation => exact h.refuse hfound hother fun _ => rfl
      | opened generation =>
        refine h.setLaunch hfound ⟨fun _ => ?_,nofun,fun _ => rfl,nofun,nofun⟩
          fun hinstalled => absurd hinstalled hother
        exact hsound.live (.inl hphase)
    · exact h
  | subscribed _ snapshot matching taken =>
    simp only [stepLaunch]
    split
    · rename_i hphase hworker
      obtain ⟨_,hnone,-⟩ := hkeeps hphase
      cases hnone
    · rename_i generation projection hphase hworker
      obtain ⟨_,hsame,htaken,-⟩ := hkeeps hphase
      cases hsame
      have hother : launch.phase ≠ .installed := by rw [hphase]; decide
      obtain ⟨host,hhost⟩ := onProjection_eq state projection
      simp only [andThen,hhost]
      have hbefore : ({ state with host := host } : WindowState T).Sound :=
        h.congr rfl fun _ => id
      cases hmatching : matching with
      | false => exact hbefore.refuse hfound hother fun _ => rfl
      | true =>
        obtain ⟨hnewer,rfl⟩ := htaken hmatching
        rw [hworker,Option.getD_some] at hnewer
        have hinstalled : state.performanceGeneration ≤ generation := hnewer
        obtain ⟨_,-,htold⟩ := installPerformanceGeneration_newer
          { state with host := host } true hinstalled
        obtain ⟨hlaunches,hactive⟩ := installPerformanceGeneration_keeps
          { state with host := host } generation true
        simp only [workerReady,if_true,htold,andThen]
        have hafter := hbefore.congr hlaunches fun _ hindex => hactive ▸ hindex
        exact hafter.setLaunch (by rw [hlaunches]; exact hfound) ⟨nofun,nofun,nofun,nofun,nofun⟩
          fun hthere => absurd hthere hother
    · exact h
  | networkBound _ bound =>
    simp only [stepLaunch]
    split
    · rename_i hphase
      have hother : launch.phase ≠ .installed := by rw [hphase]; decide
      cases bound with
      | false => exact h.refuse hfound hother fun _ => rfl
      | true =>
        exact h.setLaunch hfound ⟨nofun,nofun,nofun,nofun,nofun⟩
          fun hinstalled => absurd hinstalled hother
    · exact h
  | ticketSettled _ topic ticket =>
    simp only [stepLaunch]
    split
    · rename_i hphase
      have hother : launch.phase ≠ .installed := by rw [hphase]; decide
      obtain ⟨host,events,hsettle⟩ := settle_eq state index launch topic ticket
      have hbefore : ({ state with host := host } : WindowState T).Sound :=
        h.congr rfl fun _ => id
      rw [hsettle]
      dsimp only [andThen]
      split
      · exact hbefore.setLaunch hfound ⟨nofun,nofun,nofun,fun _ => rfl,nofun⟩
          fun hthere => absurd hthere hother
      · exact (hbefore.install hfound).congr rfl fun _ => id
    · exact h
  | networkDown _ =>
    simp only [stepLaunch]
    split
    · rename_i hphase
      have hother : launch.phase ≠ .installed := by rw [hphase]; decide
      exact h.refuse hfound hother fun _ => hsound.closing hphase
    · exact h
  | projection _ projection =>
    simp only [stepLaunch]
    split
    · obtain ⟨host,hhost⟩ := onProjection_eq state projection
      rw [hhost]
      exact h.congr rfl fun _ => id
    · exact h
  | startRoom spec => exact h
  | leaveRoom => exact h
  | roomStopped start => exact h
  | roomLeft => exact h
  | generationFailed launch reason => exact h
  | workerClosed launch => exact h
  | restart restart => exact h
  | sessionEnded generation => exact h

theorem stepWindow_sound (h : state.Sound) (input : LaunchInput T) :
    (state.stepWindow input).1.Sound := by
  cases input with
  | startRoom spec => exact h.congr rfl nofun
  | leaveRoom => exact h.congr rfl nofun
  | roomLeft => exact h.congr rfl fun _ => id
  | roomStopped start =>
    simp only [stepWindow]
    split
    · exact h
    · rename_i spec operation hfound
      have hbefore : ({ state with starting := state.starting.eraseIdx start } :
          WindowState T).Sound := h.congr rfl fun _ => id
      exact hbefore.launchRoom spec operation
  | restart restart =>
    simp only [stepWindow]
    split
    · exact h
    · split
      · exact h.launchRoom _ _
      · exact h.congr rfl fun _ => id
  | generationFailed index reason =>
    simp only [stepWindow]
    split
    · exact h
    · rename_i launch hfound
      split
      · rename_i hactive
        obtain ⟨found,hthere,hphase⟩ := h.active index hactive
        cases hfound.symm.trans hthere
        have hlaunch : ({ launch with terminated := true } : Launch).Sound := by
          constructor <;> simp [hphase]
        have hset := h.setLaunch hfound hlaunch id
        exact hset.congr rfl nofun
      · exact h
  | workerClosed index =>
    simp only [stepWindow]
    split
    · exact h
    · rename_i launch hfound
      split
      · rename_i hphase
        have hlaunch : ({ launch with terminated := true } : Launch).Sound := by
          constructor <;> simp [hphase]
        exact h.setLaunch hfound hlaunch id
      · exact h
  | sessionEnded generation =>
    simp only [stepWindow]
    split
    · exact h.congr rfl fun _ => id
    · exact h
  | workerOpened launch opening => exact h
  | subscribed launch snapshot matching taken => exact h
  | networkBound launch bound => exact h
  | ticketSettled launch topic ticket => exact h
  | networkDown launch => exact h
  | projection launch projection => exact h

theorem step_sound (h : state.Sound) {input : LaunchInput T} (hkeeps : state.Keeps input) :
    (state.step input).1.Sound := by
  unfold step
  split
  · exact stepWindow_sound h input
  · rename_i index hindex
    split
    · exact h
    · rename_i launch hfound
      exact stepLaunch_sound h hfound (hkeeps index launch hindex hfound)

theorem Sound.terminated (h : state.Sound) : state.Terminated := fun launch hmem =>
  (h.launches launch hmem).refused

theorem step_fenced {input : LaunchInput T} (hkeeps : state.Keeps input) :
    state.Fenced input := by
  intro index launch hindex hfound hsuperseded
  unfold step
  rw [hindex]
  dsimp only
  rw [hfound]
  exact stepLaunch_harmless (hkeeps index launch hindex hfound) hsuperseded

theorem Terminated.refused (hfound : state.launches[index]? = some launch) (after : Launch)
    {stepped : WindowState T} (h : stepped.Terminated)
    (hlaunches : stepped.launches = state.launches.set index { after with phase := .refused })
    (hworker : after.worker.isSome = true) : after.terminated = true := by
  have hlength := (List.getElem?_eq_some_iff.mp hfound).1
  have hmem : { after with phase := .refused } ∈ stepped.launches := by
    rw [hlaunches]
    exact List.mem_of_getElem? (i := index) (by simp [hlength])
  exact h { after with phase := .refused } hmem rfl hworker

theorem stepLaunch_only (h : state.Sound) (hfound : state.launches[index]? = some launch)
    {input : LaunchInput T}
    (hfenced : state.Superseded launch → state.Harmless (state.stepLaunch index launch input))
    (hterminated : (state.stepLaunch index launch input).1.Terminated) :
    state.LaunchKeeps launch input := by
  have hsound : launch.Sound := h.launches launch (List.mem_of_getElem? hfound)
  cases input with
  | workerOpened _ opening =>
    rintro hphase generation rfl
    simp only [stepLaunch,if_pos hphase] at hterminated
    have hdead := Terminated.refused hfound { launch with worker := some generation } hterminated
      rfl rfl
    rw [hsound.live (.inl hphase)] at hdead
    cases hdead
  | subscribed _ snapshot matching taken =>
    intro hphase
    obtain ⟨generation,hworker⟩ := Option.isSome_iff_exists.mp (hsound.subscribing hphase)
    have halive := hsound.live (.inr hphase)
    cases snapshot with
    | none =>
      simp only [stepLaunch,hphase,hworker] at hterminated
      have hdead := Terminated.refused hfound launch hterminated rfl (by simp [hworker])
      rw [halive] at hdead
      cases hdead
    | some projection =>
      simp only [stepLaunch,hphase,hworker] at hterminated hfenced
      obtain ⟨host,hhost⟩ := onProjection_eq state projection
      have htaken : matching = true →
          (WindowState.installPerformanceGeneration { state with host := host } generation
            taken).2 = true := by
        rintro rfl
        by_contra hrefused
        simp only [andThen,hhost,workerReady,if_true,hrefused,if_false] at hterminated
        have hlaunches := (installPerformanceGeneration_keeps { state with host := host }
          generation taken).1
        have hset := congrArg
          (fun launches => launches.set index { launch with phase := .refused }) hlaunches
        have hdead := Terminated.refused hfound launch hterminated hset (by simp [hworker])
        rw [halive] at hdead
        cases hdead
      refine ⟨projection,rfl,fun hmatching => ?_,fun hsuperseded => ?_⟩
      · rw [hworker,Option.getD_some]
        have hboth := installPerformanceGeneration_taken (htaken hmatching)
        exact hboth
      · have hharmless := hfenced hsuperseded
        have hmismatch : matching = false := by
          by_contra hmatching
          rw [Bool.not_eq_false] at hmatching
          have hnewer := (installPerformanceGeneration_taken (htaken hmatching)).1
          obtain ⟨notice,hnotice,-⟩ := installPerformanceGeneration_newer
            { state with host := host } taken hnewer
          have hquiet := hharmless.effects (.notice notice) (by
            simp [andThen,hhost,workerReady,hmatching,htaken hmatching,hnotice])
          exact hquiet.elim
        refine ⟨hmismatch,nothingNew_of_unchanged ?_⟩
        have hsnapshot := hharmless.snapshot
        simpa [andThen,workerReady,hmismatch,refuse,WindowState.setLaunch] using hsnapshot
  | ticketSettled _ topic ticket =>
    intro hphase hsuperseded
    have hharmless := hfenced hsuperseded
    simp only [stepLaunch,if_pos hphase,settle] at hharmless
    cases hbootstrap : launch.spec.bootstrap with
    | none => rfl
    | some bootstrap =>
      rw [hbootstrap] at hharmless
      have hquiet := hharmless.effects (.event (.peerUpdated _)) (List.mem_append_left _
        (List.mem_singleton.mpr rfl))
      exact hquiet.elim
  | projection _ projection =>
    intro hinstalled hsuperseded
    have hharmless := hfenced hsuperseded
    simp only [stepLaunch,if_pos hinstalled] at hharmless
    exact nothingNew_of_unchanged hharmless.snapshot
  | networkBound _ bound => trivial
  | networkDown _ => trivial
  | startRoom spec => trivial
  | leaveRoom => trivial
  | roomStopped start => trivial
  | roomLeft => trivial
  | generationFailed launch reason => trivial
  | workerClosed launch => trivial
  | restart restart => trivial
  | sessionEnded generation => trivial

theorem keeps_of_step (h : state.Sound) {input : LaunchInput T} (hfenced : state.Fenced input)
    (hterminated : (state.step input).1.Terminated) : state.Keeps input := by
  intro index launch hindex hfound
  have hstep : state.step input = state.stepLaunch index launch input := by
    unfold step
    rw [hindex]
    dsimp only
    rw [hfound]
  rw [hstep] at hterminated
  refine stepLaunch_only h hfound (fun hsuperseded => ?_) hterminated
  exact hstep ▸ hfenced index launch hindex hfound hsuperseded

def RunKeeps : WindowState T → List (LaunchInput T) → Prop
  | _,[] => True
  | state,input :: inputs => state.Keeps input ∧ RunKeeps (state.step input).1 inputs

/-- In every step of the run superseded launches do no harm, and after it every launch that
returned an error has terminated its worker. -/
def RunHolds : WindowState T → List (LaunchInput T) → Prop
  | _,[] => True
  | state,input :: inputs =>
    state.Fenced input ∧ (state.step input).1.Terminated ∧ RunHolds (state.step input).1 inputs

theorem runHolds_iff (h : state.Sound) (inputs : List (LaunchInput T)) :
    state.RunHolds inputs ↔ state.RunKeeps inputs := by
  induction inputs generalizing state with
  | nil => exact Iff.rfl
  | cons input inputs ih =>
    constructor
    · rintro ⟨hfenced,hterminated,hrest⟩
      have hkeeps := keeps_of_step h hfenced hterminated
      exact ⟨hkeeps,(ih (step_sound h hkeeps)).mp hrest⟩
    · rintro ⟨hkeeps,hrest⟩
      have hsound := step_sound h hkeeps
      exact ⟨step_fenced hkeeps,hsound.terminated,(ih hsound).mpr hrest⟩

theorem initial_sound : (initial : WindowState T).Sound where
  launches _ := nofun
  active _ := nofun

end WindowState

theorem launches_fenced_iff (inputs : List (LaunchInput T)) :
    (WindowState.initial : WindowState T).RunHolds inputs ↔
      (WindowState.initial : WindowState T).RunKeeps inputs :=
  WindowState.runHolds_iff WindowState.initial_sound inputs

def namedSpec : RoomRestartSpec := ⟨some "calm-red-fox",true,.gossip,none⟩

/-- The user leaves while the room's worker is still subscribing. -/
def leftWhileOpening : List (LaunchInput equalTunings) :=
  [.startRoom namedSpec,.roomStopped 0,.workerOpened 0 (.opened 7),.leaveRoom,
    .subscribed 0 (some ⟨soundingView,.ok true⟩) true true]

theorem superseded_launch_shows_room :
    ¬ (WindowState.initial : WindowState equalTunings).RunHolds leftWhileOpening := by
  rintro ⟨-,-,-,-,-,-,-,-,hfenced,-,-⟩
  have hharmless := hfenced 0 _ rfl rfl (by decide)
  have hpitches := congrArg AppSnapshot.sharedPitches hharmless.snapshot
  revert hpitches
  decide

end Superseded

end WalkieSongie.Client
