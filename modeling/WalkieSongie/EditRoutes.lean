import WalkieSongie.RemovingDag
import WalkieSongie.SessionLibrary
set_option autoImplicit false

/-!
The two ways of an edit into the durable music: through the compact session, over the base that
its manifest has fixed, and by the durable fallback, over all that is durable by then.
-/

namespace WalkieSongie.EditRoutes
open CausalDag Session Relation

inductive Element where
  | degree (degree : TunedDegree)
  | pitch (pitch : TunedPeriodicPitch)
  deriving DecidableEq

def Element.add : Element → MusicOp
  | .degree value => .addDegree value
  | .pitch value => .addPitch value

def Element.remove : Element → MusicOp
  | .degree value => .removeDegree value
  | .pitch value => .removePitch value

def About (command : MusicOp) (element : Element) : Prop :=
  command = element.add ∨ command = element.remove

instance (command : MusicOp) (element : Element) : Decidable (About command element) :=
  inferInstanceAs (Decidable (_ ∨ _))

theorem add_ne_remove (element : Element) : element.add ≠ element.remove := by
  cases element <;> simp [Element.add,Element.remove]

abbrev History (Id : Type) := DagSnapshot Id MusicOp

/-- An event that a session's kernel has taken in at a cut, with the base of its manifest. -/
structure KernelEvent (Id : Type) where
  dot : SessionDot
  payload : MusicOp
  base : Finset Id
  dependencies : Finset SessionDot

structure LiveSession (Id : Type) where
  base : Finset Id
  readyCut : Finset SessionDot

inductive Route where
  | session (dot : SessionDot)
  | fallback (serial : Nat)
  deriving DecidableEq

/-- One of the user's own edits, with the durable history the task showed when it was made. -/
structure OwnEdit (Id : Type) where
  payload : MusicOp
  route : Route
  shown : History Id

/-- The durable music, what the session task has been told of it, and the sessions over it. -/
structure Placement (Id : Type) where
  history : History Id
  shown : History Id
  session : Option (LiveSession Id) := none
  events : List (KernelEvent Id) := []
  edits : List (OwnEdit Id) := []
  durable : Route → Option Id := fun _ => none

variable {Id : Type} [DecidableEq Id]

def KernelEvent.predecessors (durable : Route → Option Id) (event : KernelEvent Id) : Finset Id :=
  event.base ∪ event.dependencies.biUnion fun dot => (durable (.session dot)).toFinset

namespace Placement

/-- An entry that is not of the user's making is admitted. -/
def applyLive (entry : Entry Id MusicOp) (placement : Placement Id) : Option (Placement Id) :=
  (placement.history.extend entry).map fun history => { placement with history := history }

/-- The task takes over the durable history as it was at some moment. -/
def advanceDurable (snapshot : History Id) (placement : Placement Id) : Option (Placement Id) :=
  if placement.shown.Grows snapshot ∧ snapshot.Grows placement.history then
    some { placement with shown := snapshot }
  else none

/-- No replacement is installed before the session's own edits are durable. -/
def owes (placement : Placement Id) : Bool :=
  placement.edits.any fun edit => match edit.route with
    | .session _ => !(placement.durable edit.route).any (· ∈ placement.shown.hashes)
    | .fallback _ => false

def installSession (placement : Placement Id) : Option (Placement Id) :=
  if placement.owes = true then none
  else some { placement with session := some ⟨placement.shown.frontier,∅⟩ }

/-- The kernel of the running session takes an event in. -/
def ingest (live : LiveSession Id) (dot : SessionDot) (payload : MusicOp)
    (dependencies : Finset SessionDot) (placement : Placement Id) : Placement Id :=
  { placement with
    session := some { live with readyCut := insert dot live.readyCut }
    events := ⟨dot,payload,live.base,dependencies⟩ :: placement.events }

/-- The dots form a cut of what has been taken in so far. -/
def IsCut (placement : Placement Id) (dots : Finset SessionDot) : Prop :=
  ∀ event ∈ placement.events, event.dot ∈ dots → event.dependencies ⊆ dots

instance (placement : Placement Id) (dots : Finset SessionDot) :
    Decidable (placement.IsCut dots) :=
  inferInstanceAs (Decidable (∀ event ∈ placement.events, _))

def Fresh (placement : Placement Id) (dot : SessionDot) : Prop :=
  dot ∉ placement.events.map KernelEvent.dot

instance (placement : Placement Id) (dot : SessionDot) : Decidable (placement.Fresh dot) :=
  inferInstanceAs (Decidable (¬ _))

def ingestRemote (dot : SessionDot) (payload : MusicOp) (dependencies : Finset SessionDot)
    (placement : Placement Id) : Option (Placement Id) :=
  match placement.session with
  | none => none
  | some live =>
      if placement.Fresh dot ∧ dependencies ⊆ live.readyCut ∧ placement.IsCut dependencies then
        some (placement.ingest live dot payload dependencies)
      else none

def remember (command : MusicOp) (route : Route) (placement : Placement Id) : Placement Id :=
  { placement with edits := placement.edits ++ [⟨command,route,placement.shown⟩] }

/-- The edit goes through the session, unless there is none or it is saturated. -/
def localEdit (command : MusicOp) (dot : SessionDot) (isSaturated : Bool)
    (placement : Placement Id) : Option (Placement Id) :=
  if isPitchEdit command = false then some placement
  else match placement.session with
    | none => some (placement.remember command (.fallback placement.edits.length))
    | some live =>
        if isSaturated = true then
          some (placement.remember command (.fallback placement.edits.length))
        else if placement.Fresh dot then
          some ((placement.remember command (.session dot)).ingest live dot command live.readyCut)
        else none

def commitAt (route : Route) (entry : Entry Id MusicOp) (placement : Placement Id) :
    Option (Placement Id) :=
  if placement.durable route = none then
    (placement.history.extend entry).map fun history => { placement with
      history := history
      durable := Function.update placement.durable route (some entry.hash) }
  else none

/-- The reification of a session event, once all that it depends on is durable. -/
def commitSession (dot : SessionDot) (hash : Id) (placement : Placement Id) :
    Option (Placement Id) :=
  match placement.events.find? fun event => event.dot = dot with
  | none => none
  | some event =>
      if ∀ other ∈ event.dependencies, placement.durable (.session other) ≠ none then
        placement.commitAt (.session dot)
          ⟨hash,event.predecessors placement.durable,event.payload⟩
      else none

/-- The durable fallback of an edit, over the whole history. -/
def commit (serial : Nat) (hash : Id) (placement : Placement Id) : Option (Placement Id) :=
  match placement.edits.find? fun edit => edit.route = .fallback serial with
  | none => none
  | some edit =>
      placement.commitAt (.fallback serial) ⟨hash,placement.history.frontier,edit.payload⟩

end Placement

inductive Input (Id : Type) where
  | applyLive (entry : Entry Id MusicOp)
  | advanceDurable (snapshot : History Id)
  | installSession
  | ingestRemote (dot : SessionDot) (payload : MusicOp) (dependencies : Finset SessionDot)
  | localEdit (command : MusicOp) (dot : SessionDot) (isSaturated : Bool)
  | commitSession (dot : SessionDot) (hash : Id)
  | commit (serial : Nat) (hash : Id)

namespace Placement

/-- One step; there is none for an input that does not fit the state. -/
def step (placement : Placement Id) : Input Id → Option (Placement Id)
  | .applyLive entry => placement.applyLive entry
  | .advanceDurable snapshot => placement.advanceDurable snapshot
  | .installSession => placement.installSession
  | .ingestRemote dot payload dependencies => placement.ingestRemote dot payload dependencies
  | .localEdit command dot isSaturated => placement.localEdit command dot isSaturated
  | .commitSession dot hash => placement.commitSession dot hash
  | .commit serial hash => placement.commit serial hash

def run (placement : Placement Id) : List (Input Id) → Option (Placement Id)
  | [] => some placement
  | input :: rest => (placement.step input).bind fun after => after.run rest

def opened (history : History Id) : Placement Id where
  history := history
  shown := history

end Placement

end WalkieSongie.EditRoutes
