import WalkieSongie.ClientFold
import WalkieSongie.TaskScope
set_option autoImplicit false

/-!
The asynchronous work of the browser window's rooms: one scope of tasks for each worker generation,
the rooms that take turns in owning the active one, and what becomes of the scopes they leave.
-/

namespace WalkieSongie.Client.Generations

inductive RoomGenerationExitCause where
  | completed
  | superseded
  | failed (reason : String)
  | refused
  | parentClosed
  deriving DecidableEq

structure RoomGenerationToken where
  generation : Nat
  alive : Bool
  cancelled : Bool
  exit : Option RoomGenerationExitCause

namespace RoomGenerationToken

def new (generation : Nat) : RoomGenerationToken := ⟨generation,true,false,none⟩

def close (cause : RoomGenerationExitCause) (token : RoomGenerationToken) : RoomGenerationToken :=
  if token.exit.isSome then token
  else { token with exit := some cause, alive := false, cancelled := true }

end RoomGenerationToken

/-- The scope's join set while it is in place, what a shutdown has taken of it, and what became of
every task that was spawned. A child that has ended stays in its set until it is joined. -/
structure RoomGenerationScope where
  token : RoomGenerationToken
  tasks : Option (List Nat)
  joining : Option (List Nat)
  children : List TaskState
  /-- The one owner, or its shutdown, is still there. -/
  owned : Bool

namespace RoomGenerationScope

variable (scope : RoomGenerationScope)

def new (generation : Nat) : RoomGenerationScope := ⟨.new generation,some [],none,[],true⟩

def close (cause : RoomGenerationExitCause) : RoomGenerationScope :=
  { scope with token := scope.token.close cause }

def spawn : Except RoomGenerationExitCause RoomGenerationScope :=
  if scope.owned = false then .error .parentClosed
  else if scope.token.alive = false then .error (scope.token.exit.getD .refused)
  else match scope.tasks with
    | none => .error .refused
    | some tasks => .ok { scope with
        tasks := some (tasks ++ [scope.children.length])
        children := scope.children ++ [.running] }

/-- The scope with the child that it is given, if it takes it. -/
def withChild : RoomGenerationScope := scope.spawn.toOption.getD scope

def childEnds (child : Nat) : RoomGenerationScope :=
  if scope.children[child]? = some .running then
    { scope with children := scope.children.set child .completed }
  else scope

def gracefulShutdown (cause : RoomGenerationExitCause) : RoomGenerationScope :=
  { scope.close cause with tasks := none, joining := scope.tasks }

/-- The children that a join set holds. -/
def joinable : List Nat := scope.tasks.getD [] ++ scope.joining.getD []

def joinNext (child : Nat) : RoomGenerationScope :=
  if scope.children[child]? = some .running then scope
  else { scope with joining := scope.joining.map (·.erase child) }

/-- The owner is dropped, and with it the join sets, which abort what they hold. -/
def drop : RoomGenerationScope :=
  { scope.close .parentClosed with
    tasks := none
    joining := none
    children := scope.children.mapIdx fun child state =>
      if scope.joinable.contains child then state.abort else state
    owned := false }

/-- The scope as one of tasks that are started, ended and given up. -/
def view : TaskScope RoomGenerationExitCause := ⟨scope.token.exit,scope.children,!scope.owned⟩

/-- The flags tell of the exit, and no running child is outside of the join sets. -/
structure Sound : Prop where
  alive : scope.token.alive = scope.token.exit.isNone
  cancelled : scope.token.cancelled = scope.token.exit.isSome
  taken : scope.tasks = none → scope.token.exit ≠ none
  held : ∀ child, scope.children[child]? = some .running → child ∈ scope.joinable
  unharmed : scope.owned = true → .aborted ∉ scope.children
  ended : scope.view.Ended

end RoomGenerationScope

structure ActiveRoom where
  scope : Nat
  generation : Nat
  operation : Nat

inductive Purpose where
  | start (operation : Nat)
  | leave
  | restart (operation : Nat)

/-- A call of stop_active_room, or the task that a failure leaves behind: it waits for the room
loop, then for the other children. -/
structure Stop where
  scope : Nat
  cause : RoomGenerationExitCause
  joining : Bool
  purpose : Purpose

structure Launch where
  operation : Nat
  /-- The scope whose shutdown the launch has waited for. None where no room was active, although
  one that has failed may still be stopping. -/
  after : Option Nat
  /-- The attempt of an automatic restart. -/
  attempt : Option Nat

/-- A launch that has found itself superseded: it shuts its network down, and still has its
scope. -/
structure Withdrawn where
  launch : Launch
  scope : Nat

structure GenerationHost where
  roomOperation : Nat := 0
  scopes : List RoomGenerationScope := []
  activeRoom : Option ActiveRoom := none
  stops : List Stop := []
  launches : List Launch := []
  withdrawn : List Withdrawn := []
  /-- Automatic restarts between two attempts. -/
  restarts : List Launch := []

namespace GenerationHost

variable (host : GenerationHost)

def raiseOperation : GenerationHost :=
  { host with roomOperation := max (min (host.roomOperation+1) u64Max) 1 }

def modifyScope (index : Nat) (change : RoomGenerationScope → RoomGenerationScope) :
    GenerationHost :=
  { host with scopes := host.scopes.modify index change }

def goOn (after : Option Nat) : Purpose → GenerationHost
  | .start operation => { host with launches := host.launches ++ [⟨operation,after,none⟩] }
  | .leave => host
  | .restart operation => { host with restarts := host.restarts ++ [⟨operation,after,some 0⟩] }

/-- The active room is taken out, its scope closed; what follows waits for it. -/
def leaveActive (active : ActiveRoom) (cause : RoomGenerationExitCause) (purpose : Purpose) :
    GenerationHost :=
  { host.modifyScope active.scope (·.close cause) with
    activeRoom := none
    stops := host.stops ++ [⟨active.scope,cause,false,purpose⟩] }

def stopActiveRoom (cause : RoomGenerationExitCause) (purpose : Purpose) : GenerationHost :=
  match host.activeRoom with
  | none => host.goOn none purpose
  | some active => host.leaveActive active cause purpose

def failActiveRoomGeneration (generation : Nat) (reason : String) : GenerationHost :=
  match host.activeRoom with
  | none => host
  | some active =>
    if active.generation = generation then
      host.leaveActive active (.failed reason) (.restart active.operation)
    else host

def reopenAttempts : Nat := 6

/-- A launch has returned an error: an automatic restart makes its next attempt. -/
def launchRefused (launch : Launch) : GenerationHost :=
  match launch.attempt with
  | none => host
  | some attempt =>
    if attempt+1 < reopenAttempts then
      { host with restarts := host.restarts ++ [{ launch with attempt := some (attempt+1) }] }
    else host

/-- The loops of a room in the order of their spawning, with what a refusal fails the room by. -/
def loopRefusals : List (Option String) :=
  [some "room generation scope refused its primary room task",
    some "room generation scope refused its projection-pull task",
    some "room generation scope refused its session task",none,none,
    some "room generation scope refused its worker-failure task"]

def spawnLoop (index generation : Nat) (host : GenerationHost) (refusal : Option String) :
    GenerationHost :=
  match host.scopes[index]? with
  | none => host
  | some scope =>
    match scope.spawn with
    | .ok _ => host.modifyScope index (·.withChild)
    | .error _ =>
      match refusal with
      | none => host
      | some text => host.failActiveRoomGeneration generation text

def withdraw (launch : Launch) (generation : Nat) : GenerationHost :=
  { host with
    scopes := host.scopes ++ [.new generation]
    withdrawn := host.withdrawn ++ [⟨launch,host.scopes.length⟩] }

def launchReturns (index : Nat) (entry : Withdrawn) : GenerationHost :=
  let dropped := { host.modifyScope entry.scope (·.drop) with
    withdrawn := host.withdrawn.eraseIdx index }
  dropped.launchRefused entry.launch

def withdrawnScopes : List Nat := host.withdrawn.map (·.scope)

def place (generation operation : Nat) : GenerationHost :=
  { host with
    scopes := host.scopes ++ [.new generation]
    activeRoom := some ⟨host.scopes.length,generation,operation⟩ }

/-- The room takes the active one's place; a room that was there is dropped. -/
def install (launch : Launch) (generation : Nat) : GenerationHost :=
  let dropped := match host.activeRoom with
    | none => host
    | some active => { host.modifyScope active.scope (·.drop) with activeRoom := none }
  loopRefusals.foldl (spawnLoop host.scopes.length generation)
    (dropped.place generation launch.operation)

end GenerationHost

inductive GenerationInput where
  | startRoom
  | leaveRoom
  /-- Some task, or a refused one, fails the active room if it is of that generation. -/
  | fail (generation : Nat) (reason : String)
  /-- The room loop of the scope that a stop is about has sent that it stopped, or is gone. -/
  | roomStopped (stop : Nat)
  | joinNext (stop child : Nat)
  | shutdownReturns (stop : Nat)
  | retry (restart : Nat)
  | launchRefused (launch : Nat)
  /-- A launch comes to the check of its operation, with its worker's generation. -/
  | launchSettles (launch generation : Nat)
  | launchReturns (withdrawn : Nat)
  | spawn (scope : Nat)
  | childEnds (scope child : Nat)
  /-- The room loop closes its scope when it is left. -/
  | loopCloses (scope : Nat)

namespace GenerationHost

variable (host : GenerationHost)

/-- The room loop is gone: the shutdown takes the other children. -/
def beginShutdown (index : Nat) (stop : Stop) : GenerationHost :=
  { host.modifyScope stop.scope (·.gracefulShutdown stop.cause) with
    stops := host.stops.set index { stop with joining := true } }

/-- The shutdown returns, and the owner that it took is dropped. -/
def endShutdown (index : Nat) (stop : Stop) : GenerationHost :=
  { host.modifyScope stop.scope (·.drop) with stops := host.stops.eraseIdx index }

def stepStop (index : Nat) (stop : Stop) (scope : RoomGenerationScope) :
    GenerationInput → GenerationHost
  | .roomStopped _ =>
    if stop.joining = false ∧ scope.children[0]? ≠ some .running then
      host.beginShutdown index stop
    else host
  | .joinNext _ child =>
    if stop.joining = true then host.modifyScope stop.scope (·.joinNext child) else host
  | .shutdownReturns _ =>
    if stop.joining = true ∧ scope.joining.getD [] = [] then
      (host.endShutdown index stop).goOn (some stop.scope) stop.purpose
    else host
  | _ => host

def returned (index : Nat) : GenerationHost :=
  { host with launches := host.launches.eraseIdx index }

def stepLaunch (index : Nat) (launch : Launch) : GenerationInput → GenerationHost
  | .launchRefused _ => (host.returned index).launchRefused launch
  | .launchSettles _ generation =>
    if launch.operation = host.roomOperation then (host.returned index).install launch generation
    else (host.returned index).withdraw launch generation
  | _ => host

/-- An automatic restart makes its attempt, unless a room operation has come in between. -/
def retry (index : Nat) (restart : Launch) : GenerationHost :=
  let waited := { host with restarts := host.restarts.eraseIdx index }
  if host.roomOperation = restart.operation ∧ host.activeRoom.isNone then
    { waited with launches := waited.launches ++ [restart] }
  else waited

def ofStop (index : Nat) (input : GenerationInput) : GenerationHost :=
  match host.stops[index]? with
  | none => host
  | some stop =>
    match host.scopes[stop.scope]? with
    | none => host
    | some scope => host.stepStop index stop scope input

def ofLaunch (index : Nat) (input : GenerationInput) : GenerationHost :=
  match host.launches[index]? with
  | none => host
  | some launch => host.stepLaunch index launch input

def step : GenerationInput → GenerationHost
  | .startRoom =>
    let raised := host.raiseOperation
    raised.stopActiveRoom .superseded (.start raised.roomOperation)
  | .leaveRoom => host.raiseOperation.stopActiveRoom .completed .leave
  | .fail generation reason => host.failActiveRoomGeneration generation reason
  | .roomStopped stop => host.ofStop stop (.roomStopped stop)
  | .joinNext stop child => host.ofStop stop (.joinNext stop child)
  | .shutdownReturns stop => host.ofStop stop (.shutdownReturns stop)
  | .retry restart =>
    match host.restarts[restart]? with
    | none => host
    | some entry => host.retry restart entry
  | .launchRefused launch => host.ofLaunch launch (.launchRefused launch)
  | .launchSettles launch generation => host.ofLaunch launch (.launchSettles launch generation)
  | .launchReturns withdrawn =>
    match host.withdrawn[withdrawn]? with
    | none => host
    | some entry => host.launchReturns withdrawn entry
  -- A launch hands its spawner out only once it is installed.
  | .spawn scope =>
    if scope ∈ host.withdrawnScopes then host else host.modifyScope scope (·.withChild)
  | .childEnds scope child => host.modifyScope scope (·.childEnds child)
  | .loopCloses scope => host.modifyScope scope (·.close .parentClosed)

def run (inputs : List GenerationInput) : GenerationHost := inputs.foldl step host

end GenerationHost

/-! ### What each call makes of a scope -/

namespace RoomGenerationScope

variable {scope spawned : RoomGenerationScope} {cause : RoomGenerationExitCause} {child : Nat}

theorem close_of_closed (h : scope.token.exit ≠ none) : scope.close cause = scope := by
  have hsome : scope.token.exit.isSome = true := Option.isSome_iff_ne_none.mpr h
  simp [close,RoomGenerationToken.close,hsome]

theorem close_of_open (h : scope.token.exit = none) : scope.close cause =
    { scope with token := ⟨scope.token.generation,false,true,some cause⟩ } := by
  simp [close,RoomGenerationToken.close,h]

theorem close_exit_ne_none : (scope.close cause).token.exit ≠ none := by
  cases hexit : scope.token.exit with
  | none => rw [close_of_open hexit]; exact Option.some_ne_none cause
  | some old =>
    have hclosed : scope.token.exit ≠ none := by simp [hexit]
    rwa [close_of_closed hclosed]

theorem close_later : TaskScope.Later scope.view (scope.close cause).view := by
  cases hexit : scope.token.exit with
  | none =>
    rw [close_of_open hexit]
    exact .single (.close scope.view cause hexit)
  | some old =>
    rw [close_of_closed (by simp [hexit])]

theorem Sound.close (h : scope.Sound) : (scope.close cause).Sound := by
  cases hexit : scope.token.exit with
  | none =>
    have hended : (scope.close cause).view.Ended := close_later.ended h.ended
    rw [close_of_open hexit] at hended ⊢
    exact ⟨rfl,rfl,fun _ => Option.some_ne_none cause,h.held,h.unharmed,hended⟩
  | some old =>
    rw [close_of_closed (by simp [hexit])]
    exact h

theorem Sound.spawn_error (h : scope.Sound) : scope.spawn = .error cause ↔
    (scope.owned = false ∧ cause = .parentClosed) ∨
      (scope.owned = true ∧ scope.token.exit = some cause) := by
  unfold spawn
  cases howned : scope.owned with
  | false => simp [eq_comm]
  | true =>
    cases hexit : scope.token.exit with
    | some old => simp [h.alive,hexit]
    | none =>
      cases htasks : scope.tasks with
      | none => exact absurd hexit (h.taken htasks)
      | some tasks => simp [h.alive,hexit]

theorem spawn_eq_ok (h : scope.spawn = .ok spawned) : scope.owned = true ∧
    scope.token.alive = true ∧ ∃ tasks, scope.tasks = some tasks ∧ spawned = { scope with
      tasks := some (tasks ++ [scope.children.length])
      children := scope.children ++ [.running] } := by
  unfold spawn at h
  split at h
  · cases h
  · rename_i howned
    split at h
    · cases h
    · rename_i halive
      cases htasks : scope.tasks with
      | none => rw [htasks] at h; cases h
      | some tasks =>
        rw [htasks] at h
        cases h
        exact ⟨by simpa using howned,by simpa using halive,tasks,rfl,rfl⟩

theorem Sound.spawn_later (h : scope.Sound) (hspawn : scope.spawn = .ok spawned) :
    TaskScope.Later scope.view spawned.view := by
  obtain ⟨howned,halive,tasks,htasks,rfl⟩ := spawn_eq_ok hspawn
  have hopen : scope.token.exit = none := by
    rw [h.alive] at halive
    simpa using halive
  exact .single (.start scope.view hopen (by simp [view,howned]))

theorem Sound.spawn (h : scope.Sound) (hspawn : scope.spawn = .ok spawned) : spawned.Sound := by
  have hended := (h.spawn_later hspawn).ended h.ended
  obtain ⟨howned,halive,tasks,htasks,rfl⟩ := spawn_eq_ok hspawn
  have hheld := h.held
  simp only [joinable,htasks,Option.getD_some] at hheld
  refine ⟨h.alive,h.cancelled,by simp,fun child hchild => ?_,fun _ => ?_,hended⟩
  · simp only [List.getElem?_append,List.getElem?_singleton] at hchild
    simp only [joinable,Option.getD_some,List.mem_append,List.mem_singleton]
    split at hchild
    · rcases List.mem_append.mp (hheld child hchild) with htask | hjoining
      · exact .inl (.inl htask)
      · exact .inr hjoining
    · rename_i hlength
      have hlast : child = scope.children.length := by
        split at hchild
        · omega
        · cases hchild
      exact .inl (.inr hlast)
  · simpa using h.unharmed howned

theorem withChild_of_ok (h : scope.spawn = .ok spawned) : scope.withChild = spawned := by
  simp [withChild,h,Except.toOption]

theorem withChild_of_error (h : scope.spawn = .error cause) : scope.withChild = scope := by
  simp [withChild,h,Except.toOption]

theorem Sound.withChild_later (h : scope.Sound) :
    TaskScope.Later scope.view scope.withChild.view := by
  cases hspawn : scope.spawn with
  | error cause => rw [withChild_of_error hspawn]
  | ok spawned =>
    rw [withChild_of_ok hspawn]
    exact h.spawn_later hspawn

theorem Sound.withChild (h : scope.Sound) : scope.withChild.Sound := by
  cases hspawn : scope.spawn with
  | error cause => rwa [withChild_of_error hspawn]
  | ok spawned =>
    rw [withChild_of_ok hspawn]
    exact h.spawn hspawn

theorem withChild_owned : scope.withChild.owned = scope.owned := by
  cases hspawn : scope.spawn with
  | error cause => rw [withChild_of_error hspawn]
  | ok spawned =>
    rw [withChild_of_ok hspawn]
    obtain ⟨-,-,tasks,-,rfl⟩ := spawn_eq_ok hspawn
    rfl

theorem childEnds_later : TaskScope.Later scope.view (scope.childEnds child).view := by
  unfold childEnds
  split
  · rename_i hrunning
    exact .single (.complete scope.view child hrunning)
  · exact .refl

theorem Sound.childEnds (h : scope.Sound) : (scope.childEnds child).Sound := by
  have hended : (scope.childEnds child).view.Ended := childEnds_later.ended h.ended
  unfold RoomGenerationScope.childEnds at hended ⊢
  by_cases hrunning : scope.children[child]? = some .running
  · rw [if_pos hrunning] at hended ⊢
    refine ⟨h.alive,h.cancelled,h.taken,fun other hother => ?_,fun howned hmem => ?_,hended⟩
    · simp only [List.getElem?_set] at hother
      split at hother
      · split at hother <;> cases hother
      · exact h.held other hother
    · rcases List.mem_or_eq_of_mem_set hmem with hold | hnew
      · exact h.unharmed howned hold
      · cases hnew
  · rw [if_neg hrunning]
    exact h

theorem joinNext_view : (scope.joinNext child).view = scope.view := by
  unfold joinNext
  split <;> rfl

theorem Sound.joinNext (h : scope.Sound) : (scope.joinNext child).Sound := by
  have hended : (scope.joinNext child).view.Ended := by
    rw [joinNext_view]
    exact h.ended
  unfold RoomGenerationScope.joinNext at hended ⊢
  by_cases hchild : scope.children[child]? = some .running
  · rw [if_pos hchild]
    exact h
  · rw [if_neg hchild] at hended ⊢
    refine ⟨h.alive,h.cancelled,h.taken,fun other hother => ?_,h.unharmed,hended⟩
    have hne : other ≠ child := by
      rintro rfl
      exact hchild hother
    have hheld := h.held other hother
    simp only [joinable,List.mem_append] at hheld ⊢
    cases hjoining : scope.joining with
    | none =>
      rw [hjoining] at hheld
      exact hheld
    | some joining =>
      rw [hjoining] at hheld
      exact hheld.imp_right (List.mem_erase_of_ne hne).mpr

theorem Sound.gracefulShutdown (h : scope.Sound) (hjoining : scope.joining = none) :
    (scope.gracefulShutdown cause).Sound := by
  have hclosed : (scope.close cause).Sound := h.close
  refine ⟨hclosed.alive,hclosed.cancelled,fun _ => close_exit_ne_none,fun child hchild => ?_,
    hclosed.unharmed,hclosed.ended⟩
  have hheld := hclosed.held child hchild
  simpa [joinable,RoomGenerationScope.close,RoomGenerationScope.gracefulShutdown,hjoining] using
    hheld

theorem Sound.drop_children (h : scope.Sound) :
    scope.drop.children = scope.children.map TaskState.abort := by
  refine List.ext_getElem? fun child => ?_
  simp only [drop,List.getElem?_mapIdx,List.getElem?_map]
  cases hchild : scope.children[child]? with
  | none => rfl
  | some state =>
    simp only [Option.map_some]
    split
    · rfl
    · rename_i hheld
      cases state with
      | running => exact absurd (h.held child hchild) (by simpa using hheld)
      | completed => rfl
      | aborted => rfl

theorem Sound.drop_later (h : scope.Sound) : TaskScope.Later scope.view scope.drop.view := by
  have habort := TaskScope.Step.abort (scope.close .parentClosed).view close_exit_ne_none
  have hview : scope.drop.view = { (scope.close .parentClosed).view with
      tasks := (scope.close .parentClosed).view.tasks.map TaskState.abort, released := true } := by
    simp only [view,h.drop_children]
    rfl
  rw [hview]
  exact close_later.tail habort

theorem Sound.drop (h : scope.Sound) : scope.drop.Sound := by
  have hclosed : (scope.close .parentClosed).Sound := h.close
  refine ⟨hclosed.alive,hclosed.cancelled,fun _ => close_exit_ne_none,fun child hchild => ?_,?_,
    h.drop_later.ended h.ended⟩
  · rw [h.drop_children] at hchild
    exact absurd (List.mem_of_getElem? hchild) (TaskScope.running_not_mem_abort _)
  · intro howned
    cases howned

/-- Every task of the scope has come to its own end, and the scope is given up. -/
def Finished (scope : TaskScope RoomGenerationExitCause) : Prop :=
  scope.released = true ∧ ∀ state ∈ scope.tasks, state = .completed

theorem Sound.drop_finished (h : scope.Sound) (howned : scope.owned = true)
    (htasks : scope.tasks = none) (hjoined : scope.joining.getD [] = []) :
    Finished scope.drop.view := by
  refine ⟨rfl,fun state hstate => ?_⟩
  have hstate' : state ∈ scope.children.map TaskState.abort := by
    rw [← h.drop_children]
    exact hstate
  obtain ⟨before,hbefore,rfl⟩ := List.mem_map.mp hstate'
  cases before with
  | running =>
    obtain ⟨child,hchild⟩ := List.mem_iff_getElem?.mp hbefore
    have hheld := h.held child hchild
    simp [joinable,htasks,hjoined] at hheld
  | completed => rfl
  | aborted => exact absurd hbefore (h.unharmed howned)

theorem sound_new (generation : Nat) : (new generation).Sound := by
  refine ⟨rfl,rfl,?_,?_,?_,?_,?_⟩ <;> simp [new,view]

end RoomGenerationScope

/-! ### Who holds the scopes -/

namespace GenerationHost

open RoomGenerationScope

variable {host later : GenerationHost} {index : Nat}
variable {change : RoomGenerationScope → RoomGenerationScope}

def activeScope (host : GenerationHost) : Option Nat := host.activeRoom.map (·.scope)

/-- The scopes that the active room, the stops and the withdrawn launches own, and whether their
join sets are taken. -/
def claims (host : GenerationHost) : List (Nat × Bool) :=
  host.activeScope.toList.map (·,false) ++
    (host.stops.map (fun stop => (stop.scope,stop.joining)) ++ host.withdrawnScopes.map (·,false))

def holders (host : GenerationHost) : List Nat := host.claims.map Prod.fst

theorem mem_holders : index ∈ host.holders ↔ ∃ joining, (index,joining) ∈ host.claims := by
  simp [holders]

def openScopes (host : GenerationHost) : List Nat :=
  host.activeScope.toList ++ host.withdrawnScopes

def waiting (host : GenerationHost) : List Launch :=
  host.launches ++ (host.restarts ++ host.withdrawn.map (·.launch))

/-- A join set is in place until the shutdown takes it. -/
def Placed (joining : Bool) (scope : RoomGenerationScope) : Prop :=
  if joining = true then scope.tasks = none else scope.tasks ≠ none ∧ scope.joining = none

/-- Each scope has one owner as long as it is there, the active room's and those of the withdrawn
launches are open, these without a task, and what a launch has waited for is finished. -/
structure Housed (host : GenerationHost) : Prop where
  sound : ∀ (index : Nat) (scope : RoomGenerationScope), host.scopes[index]? = some scope →
    scope.Sound
  owned : ∀ (index : Nat) (scope : RoomGenerationScope), host.scopes[index]? = some scope →
    (scope.owned = true ↔ index ∈ host.holders)
  known : ∀ index ∈ host.holders, index < host.scopes.length
  active : ∀ (index : Nat) (scope : RoomGenerationScope), host.scopes[index]? = some scope →
    scope.token.exit = none → index ∈ host.openScopes
  idle : ∀ index ∈ host.withdrawnScopes, ∀ scope, host.scopes[index]? = some scope →
    scope.children = []
  placed : ∀ index joining, (index,joining) ∈ host.claims → ∀ scope,
    host.scopes[index]? = some scope → Placed joining scope
  once : host.holders.Nodup
  waited : ∀ launch ∈ host.waiting, ∀ index, launch.after = some index →
    ∃ scope, host.scopes[index]? = some scope ∧ Finished scope.view

/-- What a scope has become, with the claims there are now. -/
structure Changed (later : GenerationHost) (index : Nat) (scope after : RoomGenerationScope) :
    Prop where
  sound : after.Sound
  moved : TaskScope.Later scope.view after.view
  owned : after.owned = true ↔ index ∈ later.holders
  active : after.token.exit = none → index ∈ later.openScopes
  idle : index ∈ later.withdrawnScopes → after.children = []
  placed : ∀ joining, (index,joining) ∈ later.claims → Placed joining after

theorem finished_later {scope after : RoomGenerationScope} (hsound : scope.Sound)
    (hlater : TaskScope.Later scope.view after.view) (h : Finished scope.view) :
    Finished after.view := by
  rw [hlater.released hsound.ended h.1]
  exact h

theorem getElem?_modify_cases {scopes : List RoomGenerationScope} {other : Nat}
    {scope : RoomGenerationScope} (h : (scopes.modify index change)[other]? = some scope) :
    (other ≠ index ∧ scopes[other]? = some scope) ∨
      (other = index ∧ ∃ before, scopes[index]? = some before ∧ scope = change before) := by
  rw [List.getElem?_modify] at h
  split at h
  · rename_i hsame
    subst hsame
    obtain ⟨before,hbefore,rfl⟩ := Option.map_eq_some_iff.mp h
    exact .inr ⟨rfl,before,hbefore,rfl⟩
  · rename_i hne
    exact .inl ⟨fun hsame => hne hsame.symm,by simpa using h⟩

theorem Housed.changed (h : host.Housed) (index : Nat)
    (change : RoomGenerationScope → RoomGenerationScope)
    (hscopes : later.scopes = host.scopes.modify index change)
    (hchange : ∀ scope, host.scopes[index]? = some scope →
      later.Changed index scope (change scope))
    (hclaims : ∀ other joining, other ≠ index →
      ((other,joining) ∈ later.claims ↔ (other,joining) ∈ host.claims))
    (hknown : index ∈ later.holders → index < host.scopes.length)
    (honce : later.holders.Nodup)
    (hactive : ∀ other, other ≠ index → other ∈ host.openScopes → other ∈ later.openScopes)
    (hidle : later.withdrawnScopes ⊆ host.withdrawnScopes)
    (hwaited : ∀ launch ∈ later.waiting, ∃ old ∈ host.waiting, launch.after = old.after) :
    later.Housed := by
  have hholders : ∀ other, other ≠ index → (other ∈ later.holders ↔ other ∈ host.holders) := by
    intro other hne
    rw [mem_holders,mem_holders]
    exact exists_congr fun joining => hclaims other joining hne
  have hkept : ∀ (other : Nat) (scope : RoomGenerationScope), host.scopes[other]? = some scope →
      ∃ after, later.scopes[other]? = some after ∧ TaskScope.Later scope.view after.view := by
    intro other scope hscope
    rw [hscopes,List.getElem?_modify]
    by_cases hsame : index = other
    · subst hsame
      exact ⟨change scope,by simp [hscope],(hchange scope hscope).moved⟩
    · exact ⟨scope,by simp [hsame,hscope],.refl⟩
  refine ⟨fun other scope hscope => ?_,fun other scope hscope => ?_,fun other hother => ?_,
    fun other scope hscope hopen => ?_,fun other hother scope hscope => ?_,
    fun other joining hclaim scope hscope => ?_,honce,fun launch hlaunch other hafter => ?_⟩
  · rw [hscopes] at hscope
    rcases getElem?_modify_cases hscope with ⟨-,hscope⟩ | ⟨rfl,before,hbefore,rfl⟩
    · exact h.sound other scope hscope
    · exact (hchange before hbefore).sound
  · rw [hscopes] at hscope
    rcases getElem?_modify_cases hscope with ⟨hne,hscope⟩ | ⟨rfl,before,hbefore,rfl⟩
    · rw [hholders other hne]
      exact h.owned other scope hscope
    · exact (hchange before hbefore).owned
  · rw [hscopes,List.length_modify]
    by_cases hsame : other = index
    · subst hsame
      exact hknown hother
    · exact h.known other ((hholders other hsame).mp hother)
  · rw [hscopes] at hscope
    rcases getElem?_modify_cases hscope with ⟨hne,hscope⟩ | ⟨rfl,before,hbefore,rfl⟩
    · exact hactive other hne (h.active other scope hscope hopen)
    · exact (hchange before hbefore).active hopen
  · rw [hscopes] at hscope
    rcases getElem?_modify_cases hscope with ⟨hne,hscope⟩ | ⟨rfl,before,hbefore,rfl⟩
    · exact h.idle other (hidle hother) scope hscope
    · exact (hchange before hbefore).idle hother
  · rw [hscopes] at hscope
    rcases getElem?_modify_cases hscope with ⟨hne,hscope⟩ | ⟨rfl,before,hbefore,rfl⟩
    · exact h.placed other joining ((hclaims other joining hne).mp hclaim) scope hscope
    · exact (hchange before hbefore).placed joining hclaim
  · obtain ⟨old,hold,hsame⟩ := hwaited launch hlaunch
    obtain ⟨scope,hscope,hfinished⟩ := h.waited old hold other (hsame ▸ hafter)
    obtain ⟨after,hafter',hlater⟩ := hkept other scope hscope
    exact ⟨after,hafter',finished_later (h.sound other scope hscope) hlater hfinished⟩

/-- Only what no scope depends on changes; launches come in that have waited for their scope. -/
theorem Housed.congr (h : host.Housed) (hscopes : later.scopes = host.scopes)
    (hactive : later.activeRoom = host.activeRoom) (hstops : later.stops = host.stops)
    (hwithdrawn : later.withdrawn = host.withdrawn)
    (hwaited : ∀ launch ∈ later.waiting, launch ∈ host.waiting ∨
      ∀ index, launch.after = some index →
        ∃ scope, host.scopes[index]? = some scope ∧ Finished scope.view) :
    later.Housed := by
  have hscope : later.activeScope = host.activeScope := by simp only [activeScope,hactive]
  have hgone : later.withdrawnScopes = host.withdrawnScopes := by
    simp only [withdrawnScopes,hwithdrawn]
  have hclaims : later.claims = host.claims := by simp only [claims,hscope,hstops,hgone]
  constructor
  · rw [hscopes]
    exact h.sound
  · rw [hscopes,holders,hclaims]
    exact h.owned
  · rw [hscopes,holders,hclaims]
    exact h.known
  · rw [hscopes,openScopes,hscope,hgone]
    exact h.active
  · rw [hscopes,hgone]
    exact h.idle
  · rw [hscopes,hclaims]
    exact h.placed
  · rw [holders,hclaims]
    exact h.once
  · intro launch hlaunch index hafter
    rw [hscopes]
    rcases hwaited launch hlaunch with hold | hnew
    · exact h.waited launch hold index hafter
    · exact hnew index hafter

/-- A call on one scope that leaves its owner and its join sets where they are. -/
theorem Housed.modifyScope (h : host.Housed)
    (hsound : ∀ scope : RoomGenerationScope, scope.Sound → (change scope).Sound)
    (hlater : ∀ scope : RoomGenerationScope, scope.Sound →
      TaskScope.Later scope.view (change scope).view)
    (howned : ∀ scope, (change scope).owned = scope.owned)
    (hplaced : ∀ scope joining, Placed joining scope → Placed joining (change scope))
    (hidle : index ∈ host.withdrawnScopes → ∀ scope, scope.children = [] →
      (change scope).children = []) :
    (host.modifyScope index change).Housed := by
  refine h.changed index change rfl (fun scope hscope => ?_) (fun other joining _ => Iff.rfl)
    (fun hindex => h.known index hindex) h.once (fun other _ hactive => hactive)
    (List.Subset.refl _) fun launch hlaunch => ⟨launch,hlaunch,rfl⟩
  have hold := h.sound index scope hscope
  refine ⟨hsound scope hold,hlater scope hold,?_,fun hopen => ?_,fun hgone => ?_,
    fun joining hclaim => ?_⟩
  · rw [howned]
    exact h.owned index scope hscope
  · have hbefore : scope.token.exit = none := by
      by_contra hclosed
      obtain ⟨cause,hcause⟩ := Option.ne_none_iff_exists'.mp hclosed
      have hafter := ((hlater scope hold).closed hcause).1
      exact absurd (hafter.symm.trans hopen) (Option.some_ne_none cause)
    exact h.active index scope hscope hbefore
  · exact hidle hgone scope (h.idle index hgone scope hscope)
  · exact hplaced scope joining (h.placed index joining hclaim scope hscope)

theorem placed_close {scope : RoomGenerationScope} {cause : RoomGenerationExitCause}
    {joining : Bool} : Placed joining (scope.close cause) ↔ Placed joining scope := Iff.rfl

theorem claim_unique (honce : host.holders.Nodup) {first second : Bool}
    (hfirst : (index,first) ∈ host.claims) (hsecond : (index,second) ∈ host.claims) :
    first = second := by
  have hsame := List.inj_on_of_nodup_map honce hfirst hsecond rfl
  exact (Prod.mk.inj hsame).2

theorem housed_start : ({} : GenerationHost).Housed := by
  refine ⟨?_,?_,?_,?_,?_,?_,.nil,?_⟩ <;>
    simp [holders,claims,activeScope,withdrawnScopes,waiting]

theorem claims_active {active : ActiveRoom} (hactive : host.activeRoom = some active) :
    host.claims = (active.scope,false) ::
      (host.stops.map (fun stop => (stop.scope,stop.joining)) ++
        host.withdrawnScopes.map (·,false)) := by
  simp [claims,activeScope,hactive]

theorem Housed.released (h : host.Housed) {joining : Bool}
    (hscopes : later.scopes = host.scopes.modify index (·.drop))
    (hperm : host.claims.Perm ((index,joining) :: later.claims))
    (hactive : ∀ other, other ≠ index → other ∈ host.openScopes → other ∈ later.openScopes)
    (hidle : later.withdrawnScopes ⊆ host.withdrawnScopes)
    (hwaited : ∀ launch ∈ later.waiting, ∃ old ∈ host.waiting, launch.after = old.after) :
    later.Housed := by
  have hholders : host.holders.Perm (index :: later.holders) := hperm.map Prod.fst
  have hnodup := hholders.nodup_iff.mp h.once
  have hgone : index ∉ later.holders := hnodup.notMem
  refine h.changed index (·.drop) hscopes (fun scope hscope => ?_) (fun other joining' hne => ?_)
    (fun hindex => absurd hindex hgone) hnodup.of_cons hactive hidle hwaited
  · have hold := h.sound index scope hscope
    refine ⟨hold.drop,hold.drop_later,?_,fun hopen => absurd hopen close_exit_ne_none,
      fun hwithdrawn => ?_,fun joining' hclaim => absurd (mem_holders.mpr ⟨joining',hclaim⟩) hgone⟩
    · exact ⟨fun howned => (by cases howned),fun hindex => absurd hindex hgone⟩
    · rw [hold.drop_children,h.idle index (hidle hwithdrawn) scope hscope,List.map_nil]
  · rw [hperm.mem_iff,List.mem_cons]
    exact (or_iff_right fun hsame => hne (Prod.mk.inj hsame).1).symm

theorem mem_openScopes_of_active {active : ActiveRoom} (hactive : host.activeRoom = some active)
    (h : index ∈ host.openScopes) (hne : index ≠ active.scope) : index ∈ host.withdrawnScopes := by
  rcases List.mem_append.mp h with hroom | hwithdrawn
  · simp only [activeScope,hactive,Option.map_some,Option.toList_some,List.mem_singleton] at hroom
    exact absurd hroom hne
  · exact hwithdrawn

section Leaving

variable {active : ActiveRoom} {cause : RoomGenerationExitCause} {purpose : Purpose}

theorem leaveActive_claims (hactive : host.activeRoom = some active) :
    (host.leaveActive active cause purpose).claims.Perm host.claims := by
  rw [claims_active hactive]
  simp only [claims,activeScope,leaveActive,modifyScope,withdrawnScopes,Option.map_none,
    Option.toList_none,List.map_nil,List.nil_append,List.map_append,List.map_cons,
    List.append_assoc,List.singleton_append]
  exact List.perm_middle

theorem Housed.leaveActive (h : host.Housed) (hactive : host.activeRoom = some active) :
    (host.leaveActive active cause purpose).Housed := by
  have hperm : (host.leaveActive active cause purpose).claims.Perm host.claims :=
    leaveActive_claims hactive
  have hclaim : (active.scope,false) ∈ host.claims := by simp [claims_active hactive]
  have hholders : (host.leaveActive active cause purpose).holders.Perm host.holders :=
    hperm.map Prod.fst
  refine h.changed active.scope (·.close cause) rfl
    (fun scope hscope => ?_) (fun other joining _ => hperm.mem_iff)
    (fun _ => h.known _ (mem_holders.mpr ⟨false,hclaim⟩)) (hholders.nodup_iff.mpr h.once)
    (fun other hne hother => ?_) (List.Subset.refl _) fun launch hlaunch => ⟨launch,hlaunch,rfl⟩
  · have hold := h.sound _ scope hscope
    refine ⟨hold.close,close_later,?_,fun hopen => absurd hopen close_exit_ne_none,
      fun hgone => h.idle _ hgone scope hscope,fun joining hlater => ?_⟩
    · rw [hholders.mem_iff]
      exact h.owned _ scope hscope
    · exact placed_close.mpr (h.placed _ joining (hperm.mem_iff.mp hlater) scope hscope)
  · have hgone : other ∈ host.withdrawnScopes := mem_openScopes_of_active hactive hother hne
    exact List.mem_append_right _ hgone

theorem Housed.goOn (h : host.Housed) {after : Option Nat}
    (hafter : ∀ index, after = some index →
      ∃ scope, host.scopes[index]? = some scope ∧ Finished scope.view) :
    (host.goOn after purpose).Housed := by
  cases purpose with
  | start operation =>
    refine h.congr rfl rfl rfl rfl fun launch hlaunch => ?_
    simp only [waiting,GenerationHost.goOn,List.mem_append,List.mem_singleton] at hlaunch ⊢
    rcases hlaunch with (hold | rfl) | hold
    · exact .inl (.inl hold)
    · exact .inr hafter
    · exact .inl (.inr hold)
  | leave => exact h
  | restart operation =>
    refine h.congr rfl rfl rfl rfl fun launch hlaunch => ?_
    simp only [waiting,GenerationHost.goOn,List.mem_append,List.mem_singleton] at hlaunch ⊢
    rcases hlaunch with hold | (hold | rfl) | hold
    · exact .inl (.inl hold)
    · exact .inl (.inr (.inl hold))
    · exact .inr hafter
    · exact .inl (.inr (.inr hold))

theorem Housed.stopActiveRoom (h : host.Housed) : (host.stopActiveRoom cause purpose).Housed := by
  unfold GenerationHost.stopActiveRoom
  split
  · have hnone : ∀ index, (none : Option Nat) = some index →
        ∃ scope, host.scopes[index]? = some scope ∧ Finished scope.view := by simp
    exact h.goOn hnone
  · rename_i active hactive
    exact h.leaveActive hactive

theorem Housed.failActiveRoomGeneration (h : host.Housed) {generation : Nat} {reason : String} :
    (host.failActiveRoomGeneration generation reason).Housed := by
  unfold GenerationHost.failActiveRoomGeneration
  split
  · exact h
  · rename_i active hactive
    split
    · exact h.leaveActive hactive
    · exact h

end Leaving

section Stopping

variable {stop : Stop} {position : Nat}

theorem stops_split (hstop : host.stops[position]? = some stop) :
    host.stops = host.stops.take position ++ stop :: host.stops.drop (position+1) := by
  obtain ⟨hlength,hget⟩ := List.getElem?_eq_some_iff.mp hstop
  rw [← hget,← List.drop_eq_getElem_cons hlength,List.take_append_drop]

theorem claims_split (hstop : host.stops[position]? = some stop) : host.claims =
    host.activeScope.toList.map (·,false) ++
      ((host.stops.take position).map (fun stop => (stop.scope,stop.joining)) ++
        (stop.scope,stop.joining) ::
          ((host.stops.drop (position+1)).map (fun stop => (stop.scope,stop.joining)) ++
            host.withdrawnScopes.map (·,false))) := by
  rw [claims]
  conv_lhs => rw [stops_split hstop]
  rw [List.map_append,List.map_cons,List.append_assoc,List.cons_append]

theorem beginShutdown_claims (hstop : host.stops[position]? = some stop) :
    (host.beginShutdown position stop).claims = host.activeScope.toList.map (·,false) ++
      ((host.stops.take position).map (fun stop => (stop.scope,stop.joining)) ++
        (stop.scope,true) ::
          ((host.stops.drop (position+1)).map (fun stop => (stop.scope,stop.joining)) ++
            host.withdrawnScopes.map (·,false))) := by
  have hlength := (List.getElem?_eq_some_iff.mp hstop).1
  simp only [claims,activeScope,withdrawnScopes,beginShutdown,GenerationHost.modifyScope]
  rw [List.set_eq_take_append_cons_drop,if_pos hlength,List.map_append,List.map_cons,
    List.append_assoc,List.cons_append]

theorem endShutdown_claims (host : GenerationHost) (position : Nat) (stop : Stop) :
    (host.endShutdown position stop).claims = host.activeScope.toList.map (·,false) ++
      ((host.stops.take position).map (fun stop => (stop.scope,stop.joining)) ++
        ((host.stops.drop (position+1)).map (fun stop => (stop.scope,stop.joining)) ++
          host.withdrawnScopes.map (·,false))) := by
  simp only [claims,activeScope,withdrawnScopes,endShutdown,GenerationHost.modifyScope]
  rw [List.eraseIdx_eq_take_drop_succ,List.map_append,List.append_assoc]

theorem Housed.beginShutdown (h : host.Housed) (hstop : host.stops[position]? = some stop)
    (hfirst : stop.joining = false) : (host.beginShutdown position stop).Housed := by
  have hclaims := claims_split hstop
  have hlater := beginShutdown_claims hstop
  have hclaim : (stop.scope,false) ∈ host.claims := by simp [hclaims,hfirst]
  have hclaim' : (stop.scope,true) ∈ (host.beginShutdown position stop).claims := by simp [hlater]
  have hholders : (host.beginShutdown position stop).holders = host.holders := by
    simp [holders,hlater,hclaims]
  have honce : (host.beginShutdown position stop).holders.Nodup := hholders ▸ h.once
  refine h.changed stop.scope (·.gracefulShutdown stop.cause) rfl
    (fun scope hscope => ?_) (fun other joining hne => ?_) (fun _ => ?_) honce
    (fun _ _ hactive => hactive) (List.Subset.refl _) fun launch hlaunch => ⟨launch,hlaunch,rfl⟩
  · have hold := h.sound _ scope hscope
    have hplaced := h.placed _ false hclaim scope hscope
    refine ⟨hold.gracefulShutdown hplaced.2,close_later,?_,
      fun hopen => absurd hopen close_exit_ne_none,fun hgone => h.idle _ hgone scope hscope,
      fun joining hjoining => ?_⟩
    · rw [hholders]
      exact h.owned _ scope hscope
    · rw [claim_unique honce hjoining hclaim']
      rfl
  · rw [hlater,hclaims]
    simp [hne]
  · exact h.known _ (mem_holders.mpr ⟨false,hclaim⟩)

theorem Housed.endShutdown (h : host.Housed) (hstop : host.stops[position]? = some stop) :
    (host.endShutdown position stop).Housed := by
  have hperm : host.claims.Perm
      ((stop.scope,stop.joining) :: (host.endShutdown position stop).claims) := by
    rw [claims_split hstop,endShutdown_claims,← List.append_assoc,← List.append_assoc]
    exact List.perm_middle
  exact h.released rfl hperm (fun _ _ hactive => hactive) (List.Subset.refl _)
    fun launch hlaunch => ⟨launch,hlaunch,rfl⟩

theorem Housed.endShutdown_finished (h : host.Housed) (hstop : host.stops[position]? = some stop)
    {scope : RoomGenerationScope} (hscope : host.scopes[stop.scope]? = some scope)
    (hjoining : stop.joining = true) (hjoined : scope.joining.getD [] = []) :
    ∃ after, (host.endShutdown position stop).scopes[stop.scope]? = some after ∧
      Finished after.view := by
  have hclaim : (stop.scope,stop.joining) ∈ host.claims := by simp [claims_split hstop]
  have howned := (h.owned _ scope hscope).mpr (mem_holders.mpr ⟨_,hclaim⟩)
  have htasks : scope.tasks = none := by
    have hplaced := h.placed _ _ hclaim scope hscope
    rwa [hjoining] at hplaced
  refine ⟨scope.drop,?_,(h.sound _ scope hscope).drop_finished howned htasks hjoined⟩
  simp [GenerationHost.endShutdown,GenerationHost.modifyScope,hscope]

theorem placed_joinNext {scope : RoomGenerationScope} {joining : Bool} {child : Nat}
    (h : Placed joining scope) : Placed joining (scope.joinNext child) := by
  unfold RoomGenerationScope.joinNext
  split
  · exact h
  · cases joining with
    | true => exact h
    | false => exact ⟨h.1,by simp [h.2]⟩

theorem Housed.stepStop (h : host.Housed) (hstop : host.stops[position]? = some stop)
    {scope : RoomGenerationScope} (hscope : host.scopes[stop.scope]? = some scope)
    (input : GenerationInput) : (host.stepStop position stop scope input).Housed := by
  cases input with
  | roomStopped position' =>
    simp only [GenerationHost.stepStop]
    split
    · rename_i hready
      exact h.beginShutdown hstop hready.1
    · exact h
  | joinNext position' child =>
    simp only [GenerationHost.stepStop]
    split
    · refine h.modifyScope (fun scope hsound => hsound.joinNext) (fun scope hsound => ?_)
        (fun scope => ?_) (fun scope joining => placed_joinNext) fun _ scope hempty => ?_
      · rw [joinNext_view]
      · unfold RoomGenerationScope.joinNext
        split <;> rfl
      · unfold RoomGenerationScope.joinNext
        split <;> exact hempty
    · exact h
  | shutdownReturns position' =>
    simp only [GenerationHost.stepStop]
    split
    · rename_i hready
      refine (h.endShutdown hstop).goOn fun index hafter => ?_
      cases hafter
      exact h.endShutdown_finished hstop hscope hready.1 hready.2
    · exact h
  | _ => exact h

end Stopping

section Launching

variable {launch : Launch} {generation : Nat}

theorem Housed.relaunched (h : host.Housed) (hscopes : later.scopes = host.scopes)
    (hactive : later.activeRoom = host.activeRoom) (hstops : later.stops = host.stops)
    (hwithdrawn : later.withdrawn = host.withdrawn)
    (hwaited : ∀ launch ∈ later.waiting, ∃ old ∈ host.waiting, launch.after = old.after) :
    later.Housed := by
  refine h.congr hscopes hactive hstops hwithdrawn fun launch hlaunch => .inr fun index hafter => ?_
  obtain ⟨old,hold,hsame⟩ := hwaited launch hlaunch
  exact h.waited old hold index (hsame ▸ hafter)

theorem returned_waiting {position : Nat} : (host.returned position).waiting ⊆ host.waiting :=
  List.append_subset.mpr ⟨fun _ h => List.mem_append_left _ (List.mem_of_mem_eraseIdx h),
    List.subset_append_right _ _⟩

theorem Housed.returned (h : host.Housed) (position : Nat) : (host.returned position).Housed :=
  h.relaunched rfl rfl rfl rfl fun other hother => ⟨other,returned_waiting hother,rfl⟩

theorem launchRefused_cases (host : GenerationHost) (launch : Launch) :
    host.launchRefused launch = host ∨ ∃ attempt, host.launchRefused launch =
      { host with restarts := host.restarts ++ [{ launch with attempt := some attempt }] } := by
  unfold GenerationHost.launchRefused
  split
  · exact .inl rfl
  · split
    · exact .inr ⟨_,rfl⟩
    · exact .inl rfl

theorem mem_launchRefused_waiting {other : Launch}
    (h : other ∈ (host.launchRefused launch).waiting) :
    other ∈ host.waiting ∨ other.after = launch.after := by
  obtain hsame | ⟨attempt,hagain⟩ := launchRefused_cases host launch
  · rw [hsame] at h
    exact .inl h
  · rw [hagain] at h
    simp only [waiting,List.mem_append,List.mem_singleton] at h ⊢
    obtain hold | (hold | rfl) | hold := h
    · exact .inl (.inl hold)
    · exact .inl (.inr (.inl hold))
    · exact .inr rfl
    · exact .inl (.inr (.inr hold))

theorem Housed.launchRefused (h : host.Housed) (position : Nat)
    (hlaunch : host.launches[position]? = some launch) :
    ((host.returned position).launchRefused launch).Housed := by
  have hmem : launch ∈ host.waiting := List.mem_append_left _ (List.mem_of_getElem? hlaunch)
  have hwaited : ∀ other ∈ ((host.returned position).launchRefused launch).waiting,
      ∃ old ∈ host.waiting, other.after = old.after := by
    intro other hother
    obtain hold | hsame := mem_launchRefused_waiting hother
    · exact ⟨other,returned_waiting hold,rfl⟩
    · exact ⟨launch,hmem,hsame⟩
  obtain hsame | ⟨attempt,hagain⟩ := launchRefused_cases (host.returned position) launch
  · rw [hsame]
    exact h.returned position
  · rw [hagain] at hwaited ⊢
    exact h.relaunched rfl rfl rfl rfl hwaited

theorem Housed.dropActive (h : host.Housed) {active : ActiveRoom}
    (hactive : host.activeRoom = some active) :
    ({ host.modifyScope active.scope (·.drop) with activeRoom := none } :
    GenerationHost).Housed := by
  let dropped : GenerationHost := { host.modifyScope active.scope (·.drop) with activeRoom := none }
  suffices hdropped : dropped.Housed from hdropped
  have hperm : host.claims.Perm ((active.scope,false) :: dropped.claims) := by
    rw [claims_active hactive]
    rfl
  refine h.released rfl hperm (fun other hne hother => ?_) (List.Subset.refl _)
    fun launch hlaunch => ⟨launch,hlaunch,rfl⟩
  have hgone : other ∈ host.withdrawnScopes := mem_openScopes_of_active hactive hother hne
  exact List.mem_append_right _ hgone

theorem withdrawn_split {position : Nat} {entry : Withdrawn}
    (h : host.withdrawn[position]? = some entry) : host.withdrawn =
      host.withdrawn.take position ++ entry :: host.withdrawn.drop (position+1) := by
  obtain ⟨hlength,hget⟩ := List.getElem?_eq_some_iff.mp h
  rw [← hget,← List.drop_eq_getElem_cons hlength,List.take_append_drop]

theorem Housed.launchReturns (h : host.Housed) {position : Nat} {entry : Withdrawn}
    (hentry : host.withdrawn[position]? = some entry) :
    (host.launchReturns position entry).Housed := by
  let dropped : GenerationHost := { host.modifyScope entry.scope (·.drop) with
    withdrawn := host.withdrawn.eraseIdx position }
  have hrest : dropped.withdrawn =
      host.withdrawn.take position ++ host.withdrawn.drop (position+1) :=
    List.eraseIdx_eq_take_drop_succ host.withdrawn position
  have hscopes : host.withdrawnScopes.Perm (entry.scope :: dropped.withdrawnScopes) := by
    rw [withdrawnScopes,withdrawn_split hentry,withdrawnScopes,hrest]
    exact (List.perm_middle).map _
  have hperm : host.claims.Perm ((entry.scope,false) :: dropped.claims) := by
    refine ((hscopes.map (·,false)).append_left _ |>.append_left _).trans ?_
    rw [List.map_cons,← List.append_assoc]
    refine List.perm_middle.trans ?_
    rw [List.append_assoc]
    rfl
  have hactive : ∀ other, other ≠ entry.scope → other ∈ host.openScopes →
      other ∈ dropped.openScopes := by
    intro other hne hother
    rcases List.mem_append.mp hother with hroom | hwithdrawn
    · exact List.mem_append_left _ hroom
    · exact List.mem_append_right _
        ((List.mem_cons.mp (hscopes.mem_iff.mp hwithdrawn)).resolve_left hne)
  have hidle : dropped.withdrawnScopes ⊆ host.withdrawnScopes := fun other hother =>
    hscopes.mem_iff.mpr (List.mem_cons_of_mem _ hother)
  have hwaited : ∀ launch ∈ (dropped.launchRefused entry.launch).waiting,
      ∃ old ∈ host.waiting, launch.after = old.after := by
    intro launch hlaunch
    obtain hold | hsame := mem_launchRefused_waiting hlaunch
    · refine ⟨launch,?_,rfl⟩
      simp only [waiting,List.mem_append] at hold ⊢
      refine hold.imp_right (Or.imp_right fun hmem => ?_)
      exact ((List.eraseIdx_sublist host.withdrawn position).map _).subset hmem
    · refine ⟨entry.launch,?_,hsame⟩
      have hmem := List.mem_map_of_mem (f := Withdrawn.launch) (List.mem_of_getElem? hentry)
      exact List.mem_append_right _ (List.mem_append_right _ hmem)
  suffices hreturned : (dropped.launchRefused entry.launch).Housed from hreturned
  obtain hsame | ⟨attempt,hagain⟩ := launchRefused_cases dropped entry.launch
  · rw [hsame] at hwaited ⊢
    exact h.released rfl hperm hactive hidle hwaited
  · rw [hagain] at hwaited ⊢
    exact h.released rfl hperm hactive hidle hwaited

theorem Housed.opened (h : host.Housed) {generation : Nat}
    (hscopes : later.scopes = host.scopes ++ [.new generation])
    (hperm : later.claims.Perm ((host.scopes.length,false) :: host.claims))
    (hactive : ∀ index, index = host.scopes.length ∨ index ∈ host.openScopes →
      index ∈ later.openScopes)
    (hidle : ∀ index ∈ later.withdrawnScopes,
      index = host.scopes.length ∨ index ∈ host.withdrawnScopes)
    (hwaited : later.waiting ⊆ host.waiting) : later.Housed := by
  have hholders : later.holders.Perm (host.scopes.length :: host.holders) := hperm.map Prod.fst
  have hfresh : host.scopes.length ∉ host.holders := fun hmem => absurd (h.known _ hmem) (by omega)
  have hold : ∀ (index : Nat) (scope : RoomGenerationScope), host.scopes[index]? = some scope →
      index ≠ host.scopes.length := by
    intro index scope hscope
    exact Nat.ne_of_lt (List.getElem?_eq_some_iff.mp hscope).1
  have hcases : ∀ (index : Nat) (scope : RoomGenerationScope), later.scopes[index]? = some scope →
      host.scopes[index]? = some scope ∨ index = host.scopes.length ∧ scope = .new generation := by
    intro index scope hscope
    rw [hscopes,List.getElem?_append] at hscope
    split at hscope
    · exact .inl hscope
    · rename_i hlength
      obtain ⟨hindex,hnew⟩ := List.getElem?_eq_some_iff.mp hscope
      rw [List.length_singleton] at hindex
      exact .inr ⟨by omega,by simpa using hnew.symm⟩
  refine ⟨fun index scope hscope => ?_,fun index scope hscope => ?_,fun index hindex => ?_,
    fun index scope hscope hexit => hactive index ?_,fun index hindex scope hscope => ?_,
    fun index joining hclaim scope hscope => ?_,?_,fun launch hlaunch index hafter => ?_⟩
  · rcases hcases index scope hscope with hscope | ⟨-,rfl⟩
    · exact h.sound index scope hscope
    · exact sound_new generation
  · rw [hholders.mem_iff,List.mem_cons]
    rcases hcases index scope hscope with hscope | ⟨rfl,rfl⟩
    · rw [h.owned index scope hscope]
      exact (or_iff_right (hold index scope hscope)).symm
    · exact ⟨fun _ => .inl rfl,fun _ => rfl⟩
  · rw [hholders.mem_iff,List.mem_cons] at hindex
    rw [hscopes,List.length_append,List.length_singleton]
    rcases hindex with rfl | hold
    · omega
    · exact Nat.lt_succ_of_lt (h.known index hold)
  · rcases hcases index scope hscope with hscope | ⟨rfl,-⟩
    · exact .inr (h.active index scope hscope hexit)
    · exact .inl rfl
  · rcases hcases index scope hscope with hscope | ⟨-,rfl⟩
    · exact h.idle index ((hidle index hindex).resolve_left (hold index scope hscope)) scope hscope
    · rfl
  · rw [hperm.mem_iff,List.mem_cons] at hclaim
    rcases hcases index scope hscope with hscope | ⟨rfl,rfl⟩
    · refine h.placed index joining (hclaim.resolve_left fun hsame => ?_) scope hscope
      exact hold index scope hscope (Prod.mk.inj hsame).1
    · rcases hclaim with hnew | hclaim
      · rw [(Prod.mk.inj hnew).2]
        exact ⟨by simp [new],rfl⟩
      · exact absurd (mem_holders.mpr ⟨joining,hclaim⟩) hfresh
  · exact hholders.nodup_iff.mpr (List.nodup_cons.mpr ⟨hfresh,h.once⟩)
  · obtain ⟨scope,hscope,hfinished⟩ := h.waited launch (hwaited hlaunch) index hafter
    have hlength := (List.getElem?_eq_some_iff.mp hscope).1
    exact ⟨scope,by rw [hscopes,List.getElem?_append_left hlength,hscope],hfinished⟩

theorem Housed.place (h : host.Housed) (hnone : host.activeRoom = none)
    (generation operation : Nat) : (host.place generation operation).Housed := by
  refine h.opened rfl ?_ (fun index hindex => ?_) (fun index hindex => .inr hindex)
    (List.Subset.refl _)
  · simp [claims,activeScope,withdrawnScopes,GenerationHost.place,hnone]
  · simpa [openScopes,activeScope,withdrawnScopes,GenerationHost.place,hnone] using hindex

theorem Housed.withdraw (h : host.Housed) {position : Nat}
    (hlaunch : host.launches[position]? = some launch) :
    ((host.returned position).withdraw launch generation).Housed := by
  refine h.opened rfl ?_ (fun index hindex => ?_) (fun index hindex => ?_) fun other hother => ?_
  · simp only [claims,activeScope,withdrawnScopes,GenerationHost.withdraw,GenerationHost.returned,
      List.map_append,List.map_cons,List.map_nil,← List.append_assoc]
    exact List.perm_append_singleton _ _
  · simp only [openScopes,activeScope,withdrawnScopes,GenerationHost.withdraw,
      GenerationHost.returned,List.map_append,List.map_cons,List.map_nil,List.mem_append,
      List.mem_singleton] at hindex ⊢
    tauto
  · simp only [withdrawnScopes,GenerationHost.withdraw,GenerationHost.returned,List.map_append,
      List.map_cons,List.map_nil,List.mem_append,List.mem_singleton] at hindex ⊢
    exact hindex.symm
  · simp only [waiting,GenerationHost.withdraw,GenerationHost.returned,List.map_append,
      List.map_cons,List.map_nil,List.mem_append,List.mem_singleton] at hother ⊢
    obtain hold | hold | hold | rfl := hother
    · exact .inl (List.mem_of_mem_eraseIdx hold)
    · exact .inr (.inl hold)
    · exact .inr (.inr hold)
    · exact .inl (List.mem_of_getElem? hlaunch)

theorem placed_withChild {scope : RoomGenerationScope} {joining : Bool}
    (h : Placed joining scope) : Placed joining scope.withChild := by
  cases hspawn : scope.spawn with
  | error cause => rwa [withChild_of_error hspawn]
  | ok spawned =>
    rw [withChild_of_ok hspawn]
    obtain ⟨-,-,tasks,htasks,rfl⟩ := spawn_eq_ok hspawn
    cases joining with
    | true =>
      have htaken : scope.tasks = none := h
      rw [htasks] at htaken
      cases htaken
    | false => exact ⟨by simp,h.2⟩

theorem Housed.withChild (h : host.Housed) (hindex : index ∉ host.withdrawnScopes) :
    (host.modifyScope index (·.withChild)).Housed :=
  h.modifyScope (fun _ hsound => hsound.withChild) (fun _ hsound => hsound.withChild_later)
    (fun _ => withChild_owned) (fun _ _ => placed_withChild) fun hgone => absurd hgone hindex

theorem failActiveRoomGeneration_withdrawnScopes {generation : Nat} {reason : String} :
    (host.failActiveRoomGeneration generation reason).withdrawnScopes = host.withdrawnScopes := by
  unfold GenerationHost.failActiveRoomGeneration
  split
  · rfl
  · split <;> rfl

theorem spawnLoop_withdrawnScopes {refusal : Option String} :
    (host.spawnLoop index generation refusal).withdrawnScopes = host.withdrawnScopes := by
  unfold GenerationHost.spawnLoop
  split
  · rfl
  · split
    · rfl
    · split
      · rfl
      · exact failActiveRoomGeneration_withdrawnScopes

theorem Housed.spawnLoop (h : host.Housed) (hindex : index ∉ host.withdrawnScopes)
    (generation : Nat) (refusal : Option String) :
    (host.spawnLoop index generation refusal).Housed := by
  unfold GenerationHost.spawnLoop
  split
  · exact h
  · split
    · exact h.withChild hindex
    · split
      · exact h
      · exact h.failActiveRoomGeneration

theorem Housed.spawnLoops (h : host.Housed) (hindex : index ∉ host.withdrawnScopes)
    (refusals : List (Option String)) :
    (refusals.foldl (GenerationHost.spawnLoop index generation) host).Housed := by
  induction refusals generalizing host with
  | nil => exact h
  | cons refusal rest ih =>
    exact ih (h.spawnLoop hindex generation refusal) (by rwa [spawnLoop_withdrawnScopes])

theorem Housed.fresh_not_withdrawn (h : host.Housed) :
    host.scopes.length ∉ host.withdrawnScopes := by
  intro hmem
  have hholder : host.scopes.length ∈ host.holders :=
    mem_holders.mpr ⟨false,by simp [claims,hmem]⟩
  exact Nat.lt_irrefl _ (h.known _ hholder)

theorem Housed.install (h : host.Housed) : (host.install launch generation).Housed := by
  unfold GenerationHost.install
  split
  · rename_i hnone
    exact (h.place hnone generation launch.operation).spawnLoops h.fresh_not_withdrawn _
  · rename_i active hactive
    have hplaced := (h.dropActive hactive).place rfl generation launch.operation
    exact hplaced.spawnLoops h.fresh_not_withdrawn _

theorem Housed.stepLaunch (h : host.Housed) {position : Nat}
    (hlaunch : host.launches[position]? = some launch) (input : GenerationInput) :
    (host.stepLaunch position launch input).Housed := by
  cases input with
  | launchRefused position' => exact h.launchRefused position hlaunch
  | launchSettles position' generation =>
    simp only [GenerationHost.stepLaunch]
    split
    · exact (h.returned position).install
    · exact h.withdraw hlaunch
  | _ => exact h

theorem Housed.retry (h : host.Housed) {position : Nat} {restart : Launch}
    (hrestart : host.restarts[position]? = some restart) :
    (host.retry position restart).Housed := by
  have hmem : restart ∈ host.restarts := List.mem_of_getElem? hrestart
  unfold GenerationHost.retry
  split
  · refine h.relaunched rfl rfl rfl rfl fun other hother => ⟨other,?_,rfl⟩
    simp only [waiting,List.mem_append,List.mem_singleton] at hother ⊢
    obtain (hold | rfl) | hold | hold := hother
    · exact .inl hold
    · exact .inr (.inl hmem)
    · exact .inr (.inl (List.mem_of_mem_eraseIdx hold))
    · exact .inr (.inr hold)
  · refine h.relaunched rfl rfl rfl rfl fun other hother => ⟨other,?_,rfl⟩
    simp only [waiting,List.mem_append] at hother ⊢
    exact hother.imp_right (Or.imp_left List.mem_of_mem_eraseIdx)

end Launching

theorem Housed.step (h : host.Housed) (input : GenerationInput) : (host.step input).Housed := by
  have hraised : host.raiseOperation.Housed :=
    h.congr rfl rfl rfl rfl fun launch hlaunch => .inl hlaunch
  have hstop : ∀ position input, (host.ofStop position input).Housed := by
    intro position input
    unfold ofStop
    split
    · exact h
    · rename_i stop hstop
      split
      · exact h
      · rename_i scope hscope
        exact h.stepStop hstop hscope input
  have hlaunch : ∀ position input, (host.ofLaunch position input).Housed := by
    intro position input
    unfold ofLaunch
    split
    · exact h
    · rename_i launch hlaunch
      exact h.stepLaunch hlaunch input
  cases input with
  | startRoom => exact hraised.stopActiveRoom
  | leaveRoom => exact hraised.stopActiveRoom
  | fail generation reason => exact h.failActiveRoomGeneration
  | roomStopped position => exact hstop _ _
  | joinNext position child => exact hstop _ _
  | shutdownReturns position => exact hstop _ _
  | retry position =>
    simp only [GenerationHost.step]
    split
    · exact h
    · rename_i restart hrestart
      exact h.retry hrestart
  | launchRefused position => exact hlaunch _ _
  | launchSettles position generation => exact hlaunch _ _
  | launchReturns position =>
    simp only [GenerationHost.step]
    split
    · exact h
    · rename_i entry hentry
      exact h.launchReturns hentry
  | spawn scope =>
    simp only [GenerationHost.step]
    split
    · exact h
    · rename_i hindex
      exact h.withChild hindex
  | childEnds scope child =>
    refine h.modifyScope (fun _ hsound => hsound.childEnds) (fun _ _ => childEnds_later)
      (fun scope => ?_) (fun scope joining hplaced => ?_) fun _ scope hempty => ?_
    all_goals
      unfold RoomGenerationScope.childEnds
      split
    · rfl
    · rfl
    · exact hplaced
    · exact hplaced
    · simp [hempty]
    · exact hempty
  | loopCloses scope =>
    exact h.modifyScope (fun _ hsound => hsound.close) (fun _ _ => close_later) (fun _ => rfl)
      (fun _ _ => placed_close.mpr) fun _ _ => id

def Kept (host later : GenerationHost) : Prop :=
  ∀ (index : Nat) (scope : RoomGenerationScope), host.scopes[index]? = some scope →
    ∃ after, later.scopes[index]? = some after ∧ TaskScope.Later scope.view after.view

theorem Kept.refl (host : GenerationHost) : Kept host host := fun _ scope hscope =>
  ⟨scope,hscope,.refl⟩

theorem Kept.trans {middle : GenerationHost} (h : Kept host middle) (h' : Kept middle later) :
    Kept host later := by
  intro index scope hscope
  obtain ⟨between,hbetween,hfirst⟩ := h index scope hscope
  obtain ⟨after,hafter,hsecond⟩ := h' index between hbetween
  exact ⟨after,hafter,hfirst.trans hsecond⟩

theorem Kept.congr (h : later.scopes = host.scopes) : Kept host later := by
  intro index scope hscope
  exact ⟨scope,h ▸ hscope,.refl⟩

theorem Housed.kept_modify (h : host.Housed)
    (hscopes : later.scopes = host.scopes.modify index change)
    (hlater : ∀ scope : RoomGenerationScope, scope.Sound →
      TaskScope.Later scope.view (change scope).view) : Kept host later := by
  intro other scope hscope
  rw [hscopes,List.getElem?_modify]
  by_cases hsame : index = other
  · subst hsame
    exact ⟨change scope,by simp [hscope],hlater scope (h.sound index scope hscope)⟩
  · exact ⟨scope,by simp [hsame,hscope],.refl⟩

theorem kept_goOn {after : Option Nat} {purpose : Purpose} :
    Kept host (host.goOn after purpose) := by
  cases purpose <;> exact .congr rfl

theorem Housed.kept_stopActiveRoom (h : host.Housed) {cause : RoomGenerationExitCause}
    {purpose : Purpose} : Kept host (host.stopActiveRoom cause purpose) := by
  unfold GenerationHost.stopActiveRoom
  split
  · exact kept_goOn
  · exact h.kept_modify rfl fun _ _ => close_later

theorem Housed.kept_failActiveRoomGeneration (h : host.Housed) {generation : Nat}
    {reason : String} : Kept host (host.failActiveRoomGeneration generation reason) := by
  unfold GenerationHost.failActiveRoomGeneration
  split
  · exact .refl host
  · split
    · exact h.kept_modify rfl fun _ _ => close_later
    · exact .refl host

theorem Housed.kept_stepStop (h : host.Housed) {position : Nat} {stop : Stop}
    {scope : RoomGenerationScope} (input : GenerationInput) :
    Kept host (host.stepStop position stop scope input) := by
  cases input with
  | roomStopped position' =>
    simp only [GenerationHost.stepStop]
    split
    · exact h.kept_modify rfl fun _ _ => close_later
    · exact .refl host
  | joinNext position' child =>
    simp only [GenerationHost.stepStop]
    split
    · refine h.kept_modify rfl fun _ _ => ?_
      rw [joinNext_view]
    · exact .refl host
  | shutdownReturns position' =>
    simp only [GenerationHost.stepStop]
    split
    · have hended : Kept host (host.endShutdown position stop) :=
        h.kept_modify rfl fun _ hsound => hsound.drop_later
      exact hended.trans kept_goOn
    · exact .refl host
  | _ => exact .refl host

theorem kept_append {scope : RoomGenerationScope} (h : later.scopes = host.scopes ++ [scope]) :
    Kept host later := by
  intro index scope hscope
  have hlength := (List.getElem?_eq_some_iff.mp hscope).1
  exact ⟨scope,by rw [h,List.getElem?_append_left hlength,hscope],.refl⟩

theorem kept_launchRefused {launch : Launch} : Kept host (host.launchRefused launch) := by
  unfold GenerationHost.launchRefused
  split
  · exact .refl host
  · split <;> exact .congr rfl

theorem Housed.kept_spawnLoop (h : host.Housed) {generation : Nat} {refusal : Option String} :
    Kept host (host.spawnLoop index generation refusal) := by
  unfold GenerationHost.spawnLoop
  split
  · exact .refl host
  · split
    · exact h.kept_modify rfl fun _ hsound => hsound.withChild_later
    · split
      · exact .refl host
      · exact h.kept_failActiveRoomGeneration

theorem Housed.kept_spawnLoops (h : host.Housed) (hindex : index ∉ host.withdrawnScopes)
    {generation : Nat} (refusals : List (Option String)) :
    Kept host (refusals.foldl (GenerationHost.spawnLoop index generation) host) := by
  induction refusals generalizing host with
  | nil => exact .refl host
  | cons refusal rest ih =>
    exact h.kept_spawnLoop.trans
      (ih (h.spawnLoop hindex generation refusal) (by rwa [spawnLoop_withdrawnScopes]))

theorem Housed.kept_install (h : host.Housed) {launch : Launch} {generation : Nat} :
    Kept host (host.install launch generation) := by
  unfold GenerationHost.install
  split
  · rename_i hnone
    have hplaced := h.place hnone generation launch.operation
    exact Kept.trans (kept_append rfl) (hplaced.kept_spawnLoops h.fresh_not_withdrawn _)
  · rename_i active hactive
    have hdropped : Kept host
        { host.modifyScope active.scope (·.drop) with activeRoom := none } :=
      h.kept_modify rfl fun _ hsound => hsound.drop_later
    have hplaced := (h.dropActive hactive).place rfl generation launch.operation
    exact (hdropped.trans (kept_append rfl)).trans
      (hplaced.kept_spawnLoops h.fresh_not_withdrawn _)

theorem Housed.kept_step (h : host.Housed) (input : GenerationInput) :
    Kept host (host.step input) := by
  have hraised : host.raiseOperation.Housed :=
    h.congr rfl rfl rfl rfl fun launch hlaunch => .inl hlaunch
  have hraise : Kept host host.raiseOperation := .congr rfl
  have hstop : ∀ position input, Kept host (host.ofStop position input) := by
    intro position input
    unfold ofStop
    split
    · exact .refl host
    · split
      · exact .refl host
      · exact h.kept_stepStop input
  have hlaunch : ∀ position input, Kept host (host.ofLaunch position input) := by
    intro position input
    unfold ofLaunch
    split
    · exact .refl host
    · rename_i launch hlaunch
      have hreturned : Kept host (host.returned position) := .congr rfl
      cases input with
      | launchRefused position' => exact hreturned.trans kept_launchRefused
      | launchSettles position' generation =>
        simp only [GenerationHost.stepLaunch]
        split
        · exact hreturned.trans (h.returned position).kept_install
        · exact hreturned.trans (kept_append rfl)
      | _ => exact .refl host
  cases input with
  | startRoom => exact hraise.trans hraised.kept_stopActiveRoom
  | leaveRoom => exact hraise.trans hraised.kept_stopActiveRoom
  | fail generation reason => exact h.kept_failActiveRoomGeneration
  | roomStopped position => exact hstop _ _
  | joinNext position child => exact hstop _ _
  | shutdownReturns position => exact hstop _ _
  | retry position =>
    simp only [GenerationHost.step,GenerationHost.retry]
    split
    · exact .refl host
    · split <;> exact .congr rfl
  | launchRefused position => exact hlaunch _ _
  | launchSettles position generation => exact hlaunch _ _
  | launchReturns position =>
    simp only [GenerationHost.step]
    split
    · exact .refl host
    · rename_i entry hentry
      have hdropped : Kept host { host.modifyScope entry.scope (·.drop) with
          withdrawn := host.withdrawn.eraseIdx position } :=
        h.kept_modify rfl fun _ hsound => hsound.drop_later
      exact hdropped.trans kept_launchRefused
  | spawn scope =>
    simp only [GenerationHost.step]
    split
    · exact .refl host
    · exact h.kept_modify rfl fun _ hsound => hsound.withChild_later
  | childEnds scope child => exact h.kept_modify rfl fun _ _ => childEnds_later
  | loopCloses scope => exact h.kept_modify rfl fun _ _ => close_later

end GenerationHost

def Reachable (host : GenerationHost) : Prop := ∃ inputs, ({} : GenerationHost).run inputs = host

namespace GenerationHost

variable {host : GenerationHost}

theorem run_housed (inputs : List GenerationInput) (h : host.Housed) :
    (host.run inputs).Housed := by
  induction inputs generalizing host with
  | nil => exact h
  | cons input rest ih => exact ih (h.step input)

theorem run_kept (inputs : List GenerationInput) (h : host.Housed) :
    Kept host (host.run inputs) := by
  induction inputs generalizing host with
  | nil => exact .refl host
  | cons input rest ih => exact (h.kept_step input).trans (ih (h.step input))

theorem reachable_housed (h : Reachable host) : host.Housed := by
  obtain ⟨inputs,rfl⟩ := h
  exact run_housed inputs housed_start

/-- Only the active room's scope is open, and those of superseded launches that shut their networks
down, in which nothing is started. A task runs only under the active room, or under one that is
being stopped; and a launch that has waited for a room comes after all of that room's tasks. -/
theorem one_generation_is_open (h : Reachable host) :
    (∀ (index : Nat) (scope : RoomGenerationScope), host.scopes[index]? = some scope →
      scope.token.alive = true → host.activeRoom.any (·.scope = index) = true ∨
        (∃ entry ∈ host.withdrawn, entry.scope = index) ∧ scope.children = []) ∧
    (∀ (index child : Nat) (scope : RoomGenerationScope), host.scopes[index]? = some scope →
      scope.children[child]? = some .running →
        host.activeRoom.any (·.scope = index) = true ∨ ∃ stop ∈ host.stops, stop.scope = index) ∧
    ∀ launch ∈ host.launches ++ host.restarts, ∀ index, launch.after = some index →
      ∃ scope, host.scopes[index]? = some scope ∧ ∀ state ∈ scope.children, state = .completed := by
  have hhoused := reachable_housed h
  have hactive : ∀ {index}, index ∈ host.activeScope.toList →
      host.activeRoom.any (·.scope = index) = true := by
    intro index hindex
    obtain ⟨active,hroom,rfl⟩ := Option.map_eq_some_iff.mp (Option.mem_toList.mp hindex)
    simp [hroom]
  refine ⟨fun index scope hscope halive => ?_,fun index child scope hscope hrunning => ?_,
    fun launch hlaunch index hafter => ?_⟩
  · rw [(hhoused.sound index scope hscope).alive,Option.isNone_iff_eq_none] at halive
    rcases List.mem_append.mp (hhoused.active index scope hscope halive) with hroom | hwithdrawn
    · exact .inl (hactive hroom)
    · exact .inr ⟨List.mem_map.mp hwithdrawn,hhoused.idle index hwithdrawn scope hscope⟩
  · have howned : scope.owned = true := by
      by_contra hgone
      have hended := (hhoused.sound index scope hscope).ended.quiet
        (by simpa [RoomGenerationScope.view] using hgone)
      exact hended (List.mem_of_getElem? hrunning)
    obtain ⟨joining,hclaim⟩ := mem_holders.mp ((hhoused.owned index scope hscope).mp howned)
    simp only [claims,List.mem_append,List.mem_map] at hclaim
    rcases hclaim with ⟨other,hother,hpair⟩ | ⟨stop,hstop,hpair⟩ | ⟨other,hother,hpair⟩
    · cases hpair
      exact .inl (hactive hother)
    · exact .inr ⟨stop,hstop,(Prod.mk.inj hpair).1⟩
    · cases hpair
      rw [hhoused.idle index hother scope hscope] at hrunning
      cases hrunning
  · have hwaiting : launch ∈ host.waiting := by
      rcases List.mem_append.mp hlaunch with hlaunch | hrestart
      · exact List.mem_append_left _ hlaunch
      · exact List.mem_append_right _ (List.mem_append_left _ hrestart)
    obtain ⟨scope,hscope,hfinished⟩ := hhoused.waited launch hwaiting index hafter
    exact ⟨scope,hscope,hfinished.2⟩

/-- A room that has failed may still be stopping when the next one is started: that one does not
wait. -/
example : (({} : GenerationHost).run
  [.startRoom,.launchSettles 0 7,.fail 7 "worker lost",.startRoom]
    ).launches.map (·.after) = [none] := by decide

/-- A closed scope stays closed by the cause that came first, starts no task from then on, and
tells every later child why it is refused. -/
theorem closed_generation_is_final (h : Reachable host) {index : Nat} {scope : RoomGenerationScope}
    {cause : RoomGenerationExitCause} (hscope : host.scopes[index]? = some scope)
    (hexit : scope.token.exit = some cause) (inputs : List GenerationInput) :
    ∃ after, (host.run inputs).scopes[index]? = some after ∧ after.token.exit = some cause ∧
      after.token.alive = false ∧ after.token.cancelled = true ∧
      after.children.length = scope.children.length ∧
      after.spawn = .error (if after.owned = true then cause else .parentClosed) := by
  have hhoused := reachable_housed h
  obtain ⟨after,hafter,hlater⟩ := run_kept inputs hhoused index scope hscope
  have hsound := (run_housed inputs hhoused).sound index after hafter
  obtain ⟨hexit',hlength⟩ := hlater.closed hexit
  have hexit'' : after.token.exit = some cause := hexit'
  refine ⟨after,hafter,hexit'',?_,?_,hlength,hsound.spawn_error.mpr ?_⟩
  · rw [hsound.alive,hexit'']
    rfl
  · rw [hsound.cancelled,hexit'']
    rfl
  · cases howned : after.owned with
    | false => exact .inl ⟨rfl,by simp⟩
    | true => exact .inr ⟨rfl,by simpa using hexit''⟩

/-- A room with one task beside its loops; another one is started, and the first comes to its
end. -/
def superseded : List GenerationInput :=
  [.startRoom,.launchSettles 0 7,.spawn 0,.startRoom,.childEnds 0 0,.roomStopped 0] ++
    (List.range 7).map (.childEnds 0) ++ (List.range 7).map (.joinNext 0) ++ [.shutdownReturns 0]

theorem one_generation_is_open_superseded :
    let host := ({} : GenerationHost).run superseded
    host.launches.map (·.after) = [some 0] ∧
      ∃ scope, host.scopes[0]? = some scope ∧ scope.children.length = 7 ∧
        ∀ state ∈ scope.children, state = .completed := by
  intro host
  have hafter : host.launches.map (·.after) = [some 0] := by decide
  have hlength : (host.scopes[0]?).map (·.children.length) = some 7 := by decide
  obtain ⟨launch,hlaunch,hwaited⟩ := List.mem_map.mp (hafter ▸ List.mem_singleton_self (some 0))
  have hopen := one_generation_is_open ⟨superseded,rfl⟩
  obtain ⟨scope,hscope,hcompleted⟩ := hopen.2.2 launch (List.mem_append_left _ hlaunch) 0 hwaited
  rw [hscope] at hlength
  exact ⟨hafter,scope,hscope,by simpa using hlength,hcompleted⟩

theorem closed_generation_is_final_superseded :
    let host := ({} : GenerationHost).run [.startRoom,.launchSettles 0 7,.startRoom]
    ∃ after, (host.run [.spawn 0,.loopCloses 0]).scopes[0]? = some after ∧
      after.token.exit = some .superseded ∧ after.spawn = .error .superseded := by
  intro host
  have hclosed : (host.scopes[0]?).any (fun scope =>
      scope.token.exit = some .superseded) = true := by decide
  obtain ⟨scope,hscope,hexit⟩ := (Option.any_eq_true _ _).mp hclosed
  have howned : ((host.run [.spawn 0,.loopCloses 0]).scopes[0]?).map (·.owned) = some true := by
    decide
  obtain ⟨after,hafter,hcause,-,-,-,hspawn⟩ :=
    closed_generation_is_final ⟨_,rfl⟩ hscope (of_decide_eq_true hexit) [.spawn 0,.loopCloses 0]
  rw [hafter] at howned
  rw [if_pos (Option.some.inj howned)] at hspawn
  exact ⟨after,hafter,hcause,hspawn⟩

end GenerationHost

end WalkieSongie.Client.Generations
