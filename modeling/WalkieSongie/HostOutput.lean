import Mathlib.Data.List.Induction
import Mathlib.Logic.Function.Iterate
import WalkieSongie.BoundedQueue
import WalkieSongie.BridgePitches
set_option autoImplicit false

/-!
The host's notes as a projection of the confirmed set: the edges that the bridge worker queues for
the audio callback, and the notes that the callback's host is left with.
-/

namespace WalkieSongie.Bridge

variable {M : MusicLibrary}

/-- The background worker's and the audio callback's ends of the two output queues, with what
the callback has received, newest first. -/
structure HostPort (M : MusicLibrary) where
  pitches : BridgePitchState M
  outputEnabled : Bool := true
  releaseOut : BoundedQueue RealtimeMidi
  realtimeOut : BoundedQueue RealtimeMidi
  realtimeEgressEvents : Nat := 0
  realtimeEgressDropped : Nat := 0
  received : List RealtimeMidi := []

def noteOffEdge (note : Nat) : RealtimeMidi where
  voiceId := membershipVoiceId note
  note := note
  kind := .noteOff
  value := 0

def noteOnEdge (note : Nat) : RealtimeMidi where
  voiceId := membershipVoiceId note
  note := note
  kind := .noteOn
  value := 4/5

@[simp]
theorem noteOffEdge_note (note : Nat) : (noteOffEdge note).note = note := rfl

@[simp]
theorem noteOffEdge_kind (note : Nat) : (noteOffEdge note).kind = .noteOff := rfl

@[simp]
theorem noteOnEdge_note (note : Nat) : (noteOnEdge note).note = note := rfl

@[simp]
theorem noteOnEdge_kind (note : Nat) : (noteOnEdge note).kind = .noteOn := rfl

namespace HostPort

def setOutputNotes (port : HostPort M) (outputNotes : Finset Nat) : HostPort M :=
  { port with pitches := { port.pitches with outputNotes := outputNotes } }

def releaseEdges (target : Finset Nat) : List Nat → HostPort M → Bool × HostPort M
  | [], port => (true,port)
  | note :: rest, port =>
      if note ∈ port.pitches.outputNotes ∧ note ∉ target then
        match port.releaseOut.push (noteOffEdge note) with
        | none => (false,{ port with realtimeEgressDropped := port.realtimeEgressDropped+1 })
        | some queue =>
            releaseEdges target rest
              ({ port with
                releaseOut := queue
                realtimeEgressEvents := port.realtimeEgressEvents+1 }.setOutputNotes
                  (port.pitches.outputNotes.erase note))
      else releaseEdges target rest port

/-- Strike what the target adds, until the queue is full. -/
def noteOnEdges (target : Finset Nat) : List Nat → HostPort M → Bool × HostPort M
  | [], port => (true,port)
  | note :: rest, port =>
      if note ∉ port.pitches.outputNotes ∧ note ∈ target then
        match port.realtimeOut.push (noteOnEdge note) with
        | none => (false,{ port with realtimeEgressDropped := port.realtimeEgressDropped+1 })
        | some queue =>
            noteOnEdges target rest
              ({ port with
                realtimeOut := queue
                realtimeEgressEvents := port.realtimeEgressEvents+1 }.setOutputNotes
                  (insert note port.pitches.outputNotes))
      else noteOnEdges target rest port

def target (port : HostPort M) : Finset Nat :=
  if port.outputEnabled then port.pitches.roomMidiNotes else ∅

/-- Reconcile the host endpoint from its shadow to the materialized room set. -/
def reconcileHostOutput (port : HostPort M) : HostPort M :=
  match releaseEdges port.target (List.range 128) port with
  | (false,after) => after
  | (true,after) => (noteOnEdges port.target (List.range 128) after).2

/-- Release messages are always drained before ordinary ones. -/
def tryRecv (port : HostPort M) : HostPort M :=
  match port.releaseOut.pop with
  | some (event,queue) => { port with releaseOut := queue, received := event :: port.received }
  | none => match port.realtimeOut.pop with
    | some (event,queue) => { port with realtimeOut := queue, received := event :: port.received }
    | none => port

def queued (port : HostPort M) : Nat :=
  port.releaseOut.items.length+port.realtimeOut.items.length

def drained (port : HostPort M) : HostPort M := tryRecv^[port.queued] port

/-- The last membership event received for the note is a NoteOn. -/
def Holds (port : HostPort M) (note : Nat) : Prop :=
  (port.received.find? fun event => event.isMembershipProjection && event.note = note).map
    RealtimeMidi.kind = some .noteOn

instance (port : HostPort M) (note : Nat) : Decidable (port.Holds note) :=
  inferInstanceAs (Decidable (_ = _))

end HostPort

inductive HostOp where
  | materialize (room : SharedPitchSet)
  | setOutputEnabled (enabled : Bool)
  | reconcile
  | tryRecv

def HostPort.step (port : HostPort M) : HostOp → HostPort M
  | .materialize room => { port with pitches := (port.pitches.applyConfirmedRoom room).2 }
  | .setOutputEnabled enabled => { port with outputEnabled := enabled }
  | .reconcile => port.reconcileHostOutput
  | .tryRecv => port.tryRecv

def HostPort.run (port : HostPort M) (ops : List HostOp) : HostPort M :=
  ops.foldl HostPort.step port

def HostPort.fresh (M : MusicLibrary) (releaseCapacity realtimeCapacity : Nat) : HostPort M where
  pitches := {}
  releaseOut := .empty releaseCapacity
  realtimeOut := .empty realtimeCapacity

namespace HostPort

theorem edges_are_membership : ∀ note < 128, (noteOffEdge note).isMembershipProjection = true ∧
    (noteOnEdge note).isMembershipProjection = true := by
  decide

theorem noteOnEdge_injective {note other : Nat} (h : noteOnEdge note = noteOnEdge other) :
    note = other := congrArg RealtimeMidi.note h

theorem noteOffEdge_injective {note other : Nat} (h : noteOffEdge note = noteOffEdge other) :
    note = other := congrArg RealtimeMidi.note h

/-- The notes a pass releases: as many of those outside the target as the queue has room for. -/
def released (port : HostPort M) : List Nat :=
  ((List.range 128).filter fun note =>
    note ∈ port.pitches.outputNotes ∧ note ∉ port.target).take
      (port.releaseOut.capacity - port.releaseOut.items.length)

/-- A pass releases a note whose NoteOn the host has not received yet. -/
def Overtakes (port : HostPort M) : Prop :=
  ∃ note ∈ port.released, noteOnEdge note ∈ port.realtimeOut.items

instance (port : HostPort M) : Decidable port.Overtakes :=
  inferInstanceAs (Decidable (∃ note ∈ _, _))

def dueReleases (target : Finset Nat) (notes : List Nat) (port : HostPort M) : List Nat :=
  notes.filter fun note => note ∈ port.pitches.outputNotes ∧ note ∉ target

def dueStrikes (target : Finset Nat) (notes : List Nat) (port : HostPort M) : List Nat :=
  notes.filter fun note => note ∉ port.pitches.outputNotes ∧ note ∈ target

/-- What a loop over edges leaves when it has pushed some of them. -/
structure Pushed (port : HostPort M) (releases strikes : List Nat) (after : HostPort M) : Prop where
  releaseOut : after.releaseOut.items = port.releaseOut.items ++ releases.map noteOffEdge
  releaseCapacity : after.releaseOut.capacity = port.releaseOut.capacity
  realtimeOut : after.realtimeOut.items = port.realtimeOut.items ++ strikes.map noteOnEdge
  realtimeCapacity : after.realtimeOut.capacity = port.realtimeOut.capacity
  received : after.received = port.received
  outputNotes : ∀ note, note ∈ after.pitches.outputNotes ↔
    note ∈ strikes ∨ (note ∈ port.pitches.outputNotes ∧ note ∉ releases)
  dropped : port.realtimeEgressDropped ≤ after.realtimeEgressDropped

theorem Pushed.refl (port : HostPort M) : port.Pushed [] [] port := by
  constructor <;> simp

theorem Pushed.trans {port middle after : HostPort M}
    {releases releases' strikes strikes' : List Nat}
    (h : port.Pushed releases strikes middle) (h' : middle.Pushed releases' strikes' after)
    (hapart : ∀ note ∈ strikes, note ∉ releases') :
    port.Pushed (releases ++ releases') (strikes ++ strikes') after where
  releaseOut := by rw [h'.releaseOut,h.releaseOut,List.map_append,List.append_assoc]
  releaseCapacity := h'.releaseCapacity.trans h.releaseCapacity
  realtimeOut := by rw [h'.realtimeOut,h.realtimeOut,List.map_append,List.append_assoc]
  realtimeCapacity := h'.realtimeCapacity.trans h.realtimeCapacity
  received := h'.received.trans h.received
  outputNotes note := by
    have := hapart note
    rw [h'.outputNotes,h.outputNotes]
    simp only [List.mem_append,not_or]
    tauto
  dropped := h.dropped.trans h'.dropped

theorem pushed_noteOff {port : HostPort M} {note : Nat} {queue : BoundedQueue RealtimeMidi}
    (hpush : port.releaseOut.push (noteOffEdge note) = some queue) :
    port.Pushed [note] [] ({ port with
      releaseOut := queue
      realtimeEgressEvents := port.realtimeEgressEvents+1 }.setOutputNotes
        (port.pitches.outputNotes.erase note)) := by
  obtain ⟨-,hitems,hcapacity⟩ := BoundedQueue.push_eq_some hpush
  constructor <;> simp [setOutputNotes,hitems,hcapacity,and_comm]

theorem pushed_noteOn {port : HostPort M} {note : Nat} {queue : BoundedQueue RealtimeMidi}
    (hpush : port.realtimeOut.push (noteOnEdge note) = some queue) :
    port.Pushed [] [note] ({ port with
      realtimeOut := queue
      realtimeEgressEvents := port.realtimeEgressEvents+1 }.setOutputNotes
        (insert note port.pitches.outputNotes)) := by
  obtain ⟨-,hitems,hcapacity⟩ := BoundedQueue.push_eq_some hpush
  constructor <;> simp [setOutputNotes,hitems,hcapacity]

theorem pushed_dropped (port : HostPort M) : port.Pushed [] []
    { port with realtimeEgressDropped := port.realtimeEgressDropped+1 } := by
  constructor <;> simp

theorem releaseEdges_pushed (target : Finset Nat) {notes : List Nat} (hnodup : notes.Nodup)
    (port : HostPort M) :
    port.Pushed ((dueReleases target notes port).take
        (port.releaseOut.capacity - port.releaseOut.items.length)) []
      (releaseEdges target notes port).2 ∧
      (((releaseEdges target notes port).1 = true ∧ (dueReleases target notes port).length ≤
          port.releaseOut.capacity - port.releaseOut.items.length) ∨
        ((releaseEdges target notes port).1 = false ∧
          port.realtimeEgressDropped <
            (releaseEdges target notes port).2.realtimeEgressDropped)) := by
  induction notes generalizing port with
  | nil => simpa [releaseEdges,dueReleases] using Pushed.refl port
  | cons note rest ih =>
    obtain ⟨hnote,hrest⟩ := List.nodup_cons.mp hnodup
    by_cases hdue : note ∈ port.pitches.outputNotes ∧ note ∉ target
    · have hdues : dueReleases target (note :: rest) port =
          note :: dueReleases target rest port := by
        simp [dueReleases,hdue]
      cases hpush : port.releaseOut.push (noteOffEdge note) with
      | none =>
        have hfull := BoundedQueue.push_eq_none.mp hpush
        have hroom : port.releaseOut.capacity - port.releaseOut.items.length = 0 := by omega
        simp only [releaseEdges,hdue,hpush,hroom,and_self,not_false_eq_true,if_true,List.take_zero]
        exact ⟨pushed_dropped port,.inr (by simp)⟩
      | some queue =>
        obtain ⟨hroom,hitems,hcapacity⟩ := BoundedQueue.push_eq_some hpush
        have hfirst := pushed_noteOff hpush
        simp only [releaseEdges,hdue,hpush,and_self,not_false_eq_true,if_true]
        obtain ⟨middle,hmiddle⟩ : ∃ middle : HostPort M, { port with
            releaseOut := queue
            realtimeEgressEvents := port.realtimeEgressEvents+1 }.setOutputNotes
              (port.pitches.outputNotes.erase note) = middle := ⟨_,rfl⟩
        rw [hmiddle] at hfirst ⊢
        have hsame : dueReleases target rest middle = dueReleases target rest port := by
          refine List.filter_congr fun other hother => ?_
          have hne : other ≠ note := fun h => hnote (h ▸ hother)
          simp [hfirst.outputNotes,hne]
        have hspace : port.releaseOut.capacity - port.releaseOut.items.length =
            (middle.releaseOut.capacity - middle.releaseOut.items.length)+1 := by
          rw [hfirst.releaseOut,hfirst.releaseCapacity]
          simp only [List.length_append,List.length_map,List.length_singleton]
          omega
        obtain ⟨hpushed,hdone⟩ := ih hrest middle
        rw [hsame] at hpushed hdone
        rw [hdues,hspace,List.take_succ_cons]
        refine ⟨hfirst.trans hpushed (by simp),hdone.imp (fun h => ?_) fun h => ?_⟩
        · refine ⟨h.1,?_⟩
          simpa using h.2
        · exact ⟨h.1,hfirst.dropped.trans_lt h.2⟩
    · have hdues : dueReleases target (note :: rest) port = dueReleases target rest port := by
        simp only [dueReleases,List.filter_cons,hdue,decide_false,Bool.false_eq_true,if_false]
      rw [hdues]
      simp only [releaseEdges,hdue,if_false]
      exact ih hrest port

theorem noteOnEdges_pushed (target : Finset Nat) {notes : List Nat} (hnodup : notes.Nodup)
    (port : HostPort M) :
    ∃ strikes, strikes <+: dueStrikes target notes port ∧
      port.Pushed [] strikes (noteOnEdges target notes port).2 ∧
      (strikes = dueStrikes target notes port ∨
        port.realtimeEgressDropped < (noteOnEdges target notes port).2.realtimeEgressDropped) := by
  induction notes generalizing port with
  | nil => exact ⟨[],List.nil_prefix,Pushed.refl port,.inl rfl⟩
  | cons note rest ih =>
    obtain ⟨hnote,hrest⟩ := List.nodup_cons.mp hnodup
    by_cases hdue : note ∉ port.pitches.outputNotes ∧ note ∈ target
    · have hdues : dueStrikes target (note :: rest) port =
          note :: dueStrikes target rest port := by
        simp [dueStrikes,hdue]
      cases hpush : port.realtimeOut.push (noteOnEdge note) with
      | none =>
        simp only [noteOnEdges,hdue,hpush,not_false_eq_true,and_self,if_true]
        exact ⟨[],List.nil_prefix,pushed_dropped port,.inr (Nat.lt_succ_self _)⟩
      | some queue =>
        have hfirst := pushed_noteOn hpush
        simp only [noteOnEdges,hdue,hpush,not_false_eq_true,and_self,if_true]
        obtain ⟨middle,hmiddle⟩ : ∃ middle : HostPort M, { port with
            realtimeOut := queue
            realtimeEgressEvents := port.realtimeEgressEvents+1 }.setOutputNotes
              (insert note port.pitches.outputNotes) = middle := ⟨_,rfl⟩
        rw [hmiddle] at hfirst ⊢
        have hsame : dueStrikes target rest middle = dueStrikes target rest port := by
          refine List.filter_congr fun other hother => ?_
          have hne : other ≠ note := fun h => hnote (h ▸ hother)
          simp [hfirst.outputNotes,hne]
        obtain ⟨strikes,hbegins,hpushed,hdone⟩ := ih hrest middle
        rw [hsame] at hbegins hdone
        rw [hdues]
        refine ⟨note :: strikes,List.cons_prefix_cons.mpr ⟨rfl,hbegins⟩,
          hfirst.trans hpushed (by simp),hdone.imp (fun h => ?_) fun h => ?_⟩
        · rw [h]
        · exact hfirst.dropped.trans_lt h
    · have hdues : dueStrikes target (note :: rest) port = dueStrikes target rest port := by
        simp only [dueStrikes,List.filter_cons,hdue,decide_false,Bool.false_eq_true,if_false]
      rw [hdues]
      simp only [noteOnEdges,hdue,if_false]
      exact ih hrest port

theorem mem_target {port : HostPort M} {note : Nat} (h : note ∈ port.target) : note < 128 := by
  unfold target at h
  split at h
  · simp only [BridgePitchState.roomMidiNotes,Finset.mem_union,Finset.mem_filter,
      Finset.mem_image] at h
    rcases h with ⟨-,hnote⟩ | ⟨whole,⟨-,hlow,hhigh⟩,rfl⟩ <;> omega
  · cases h

theorem mem_released {port : HostPort M} {note : Nat} (h : note ∈ port.released) :
    note ∈ port.pitches.outputNotes ∧ note ∉ port.target := by
  simpa using (List.mem_filter.mp (List.mem_of_mem_take h)).2

theorem reconcile_pushed (port : HostPort M) :
    ∃ strikes, (∀ note ∈ strikes, note ∈ port.target) ∧
      port.Pushed port.released strikes port.reconcileHostOutput ∧
      (port.reconcileHostOutput.realtimeEgressDropped = port.realtimeEgressDropped →
        ∀ note < 128, note ∈ port.reconcileHostOutput.pitches.outputNotes ↔
          note ∈ port.target) := by
  obtain ⟨hreleased,hdone⟩ := releaseEdges_pushed port.target (List.nodup_range (n := 128)) port
  change port.Pushed port.released [] _ at hreleased
  unfold reconcileHostOutput
  cases hloop : releaseEdges port.target (List.range 128) port with
  | mk complete middle =>
    rw [hloop] at hreleased hdone
    cases complete with
    | false =>
      have hlost : port.realtimeEgressDropped < middle.realtimeEgressDropped := by
        simpa using hdone
      refine ⟨[],by simp,hreleased,fun hsame => ?_⟩
      simp only at hsame
      omega
    | true =>
      have hall : (dueReleases port.target (List.range 128) port).length ≤
          port.releaseOut.capacity - port.releaseOut.items.length := by simpa using hdone
      have hreleases : port.released = dueReleases port.target (List.range 128) port :=
        List.take_of_length_le hall
      obtain ⟨strikes,hbegins,hstruck,hdone⟩ :=
        noteOnEdges_pushed port.target (List.nodup_range (n := 128)) middle
      have hpushed := hreleased.trans hstruck (by simp)
      simp only [List.append_nil,List.nil_append] at hpushed
      refine ⟨strikes,fun note hnote => ?_,hpushed,fun hsame note hnote => ?_⟩
      · have hstrike := (List.mem_filter.mp (hbegins.subset hnote)).2
        simp only [decide_eq_true_eq] at hstrike
        exact hstrike.2
      · have hbefore := hreleased.dropped
        rcases hdone with rfl | hlost
        · rw [hpushed.outputNotes,hreleases]
          simp [dueStrikes,dueReleases,hnote,hreleased.outputNotes,hreleases]
          tauto
        · simp only at hsame hbefore
          omega

/-- Only releases wait in the one queue and only strikes in the other, of notes there are. -/
structure Shaped (port : HostPort M) : Prop where
  releases : ∀ event ∈ port.releaseOut.items, ∃ note < 128, event = noteOffEdge note
  strikes : ∀ event ∈ port.realtimeOut.items, ∃ note < 128, event = noteOnEdge note
  shadow : ∀ note ∈ port.pitches.outputNotes, note < 128

/-- What the host is left with once it has drained the queues. -/
def WillHold (port : HostPort M) (note : Nat) : Prop :=
  noteOnEdge note ∈ port.realtimeOut.items ∨
    (noteOffEdge note ∉ port.releaseOut.items ∧ port.Holds note)

theorem holds_noteOff {port after : HostPort M} {note : Nat} (hnote : note < 128)
    (hreceived : after.received = noteOffEdge note :: port.received) (other : Nat) :
    after.Holds other ↔ other ≠ note ∧ port.Holds other := by
  have hedge := (edges_are_membership note hnote).1
  by_cases h : other = note
  · simp [Holds,hreceived,hedge,h]
  · have hne : note ≠ other := fun hsame => h hsame.symm
    simp [Holds,hreceived,hne,h]

theorem holds_noteOn {port after : HostPort M} {note : Nat} (hnote : note < 128)
    (hreceived : after.received = noteOnEdge note :: port.received) (other : Nat) :
    after.Holds other ↔ other = note ∨ port.Holds other := by
  have hedge := (edges_are_membership note hnote).2
  by_cases h : other = note
  · simp [Holds,hreceived,hedge,h]
  · have hne : note ≠ other := fun hsame => h hsame.symm
    simp [Holds,hreceived,hne,h]

theorem tryRecv_pitches (port : HostPort M) : port.tryRecv.pitches = port.pitches := by
  unfold tryRecv
  split
  · rfl
  · split <;> rfl

theorem tryRecv_outputEnabled (port : HostPort M) :
    port.tryRecv.outputEnabled = port.outputEnabled := by
  unfold tryRecv
  split
  · rfl
  · split <;> rfl

/-- Receiving takes one event off the queues, and changes nothing of what the host will hold. -/
theorem tryRecv_spec {port : HostPort M} (h : port.Shaped) :
    port.tryRecv.Shaped ∧ port.tryRecv.queued = port.queued-1 ∧
      ∀ note, port.tryRecv.WillHold note ↔ port.WillHold note := by
  unfold tryRecv
  cases hrelease : port.releaseOut.pop with
  | some popped =>
    obtain ⟨event,queue⟩ := popped
    obtain ⟨hitems,-⟩ := BoundedQueue.pop_eq_some hrelease
    obtain ⟨note,hnote,rfl⟩ := h.releases event (by simp [hitems])
    refine ⟨⟨fun event hevent => h.releases event (by simp [hitems,hevent]),h.strikes,h.shadow⟩,
      by simp [queued,hitems],fun other => ?_⟩
    have hholds : Holds { port with
        releaseOut := queue, received := noteOffEdge note :: port.received } other ↔
          other ≠ note ∧ port.Holds other := holds_noteOff hnote rfl other
    by_cases hother : other = note
    · subst hother
      simp [WillHold,hholds,hitems]
    · have hne : noteOffEdge other ≠ noteOffEdge note :=
        fun hsame => hother (noteOffEdge_injective hsame)
      simp [WillHold,hholds,hitems,hother,hne]
  | none =>
    have hempty := BoundedQueue.pop_eq_none.mp hrelease
    cases hrealtime : port.realtimeOut.pop with
    | none =>
      have hnone := BoundedQueue.pop_eq_none.mp hrealtime
      exact ⟨h,by simp [queued,hempty,hnone],fun _ => Iff.rfl⟩
    | some popped =>
      obtain ⟨event,queue⟩ := popped
      obtain ⟨hitems,-⟩ := BoundedQueue.pop_eq_some hrealtime
      obtain ⟨note,hnote,rfl⟩ := h.strikes event (by simp [hitems])
      refine ⟨⟨h.releases,fun event hevent => h.strikes event (by simp [hitems,hevent]),h.shadow⟩,
        by simp [queued,hitems],fun other => ?_⟩
      have hholds : Holds { port with
          realtimeOut := queue, received := noteOnEdge note :: port.received } other ↔
            other = note ∨ port.Holds other := holds_noteOn hnote rfl other
      by_cases hother : other = note
      · subst hother
        simp [WillHold,hholds,hitems,hempty]
      · have hne : noteOnEdge other ≠ noteOnEdge note :=
          fun hsame => hother (noteOnEdge_injective hsame)
        simp [WillHold,hholds,hitems,hempty,hother,hne]

theorem tryRecv_iterate {port : HostPort M} (h : port.Shaped) (count : Nat) :
    (tryRecv^[count] port).Shaped ∧ (tryRecv^[count] port).queued = port.queued-count ∧
      (tryRecv^[count] port).pitches = port.pitches ∧
      (tryRecv^[count] port).outputEnabled = port.outputEnabled ∧
      ∀ note, (tryRecv^[count] port).WillHold note ↔ port.WillHold note := by
  induction count with
  | zero => exact ⟨h,rfl,rfl,rfl,fun _ => Iff.rfl⟩
  | succ count ih =>
    obtain ⟨hshaped,hqueued,hpitches,henabled,hholds⟩ := ih
    obtain ⟨hafter,hless,hsame⟩ := tryRecv_spec hshaped
    rw [Function.iterate_succ_apply']
    exact ⟨hafter,by omega,(tryRecv_pitches _).trans hpitches,
      (tryRecv_outputEnabled _).trans henabled,fun note => (hsame note).trans (hholds note)⟩

structure Drained (port after : HostPort M) : Prop where
  shaped : after.Shaped
  releaseOut : after.releaseOut.items = []
  realtimeOut : after.realtimeOut.items = []
  pitches : after.pitches = port.pitches
  target : after.target = port.target
  holds : ∀ note, after.Holds note ↔ port.WillHold note

theorem drained_spec {port : HostPort M} (h : port.Shaped) : port.Drained port.drained := by
  obtain ⟨hshaped,hqueued,hpitches,henabled,hholds⟩ := tryRecv_iterate h port.queued
  change port.drained.Shaped at hshaped
  change port.drained.queued = _ at hqueued
  have hempty : port.drained.releaseOut.items = [] ∧ port.drained.realtimeOut.items = [] := by
    simp only [queued,Nat.sub_self,Nat.add_eq_zero_iff,List.length_eq_zero_iff] at hqueued
    exact hqueued
  refine ⟨hshaped,hempty.1,hempty.2,hpitches,?_,fun note => ?_⟩
  · simp only [HostPort.target]
    rw [drained,hpitches,henabled]
  · rw [← hholds note]
    change _ ↔ port.drained.WillHold note
    simp [WillHold,hempty.1,hempty.2]

/-- The host will hold just the notes of the shadow. -/
def Agrees (port : HostPort M) : Prop :=
  ∀ note, port.WillHold note ↔ note ∈ port.pitches.outputNotes

theorem Pushed.willHold {port after : HostPort M} {releases strikes : List Nat}
    (h : port.Pushed releases strikes after) (note : Nat) :
    after.WillHold note ↔ note ∈ strikes ∨ noteOnEdge note ∈ port.realtimeOut.items ∨
      (note ∉ releases ∧ noteOffEdge note ∉ port.releaseOut.items ∧ port.Holds note) := by
  have hoff : noteOffEdge note ∈ releases.map noteOffEdge ↔ note ∈ releases :=
    ⟨fun hmem => by
      obtain ⟨other,hother,hsame⟩ := List.mem_map.mp hmem
      exact noteOffEdge_injective hsame ▸ hother,List.mem_map_of_mem⟩
  have hon : noteOnEdge note ∈ strikes.map noteOnEdge ↔ note ∈ strikes :=
    ⟨fun hmem => by
      obtain ⟨other,hother,hsame⟩ := List.mem_map.mp hmem
      exact noteOnEdge_injective hsame ▸ hother,List.mem_map_of_mem⟩
  simp only [WillHold,Holds,h.releaseOut,h.realtimeOut,h.received,List.mem_append,hoff,hon]
  tauto

theorem reconcile_agrees {port : HostPort M} (h : port.Agrees) :
    port.reconcileHostOutput.Agrees ↔ ¬ port.Overtakes := by
  obtain ⟨strikes,hstrikes,hpushed,-⟩ := reconcile_pushed port
  constructor
  · rintro hagrees ⟨note,hreleased,hqueued⟩
    have hafter := (hagrees note).mp ((hpushed.willHold note).mpr (.inr (.inl hqueued)))
    rcases (hpushed.outputNotes note).mp hafter with hstruck | ⟨-,hkept⟩
    · exact (mem_released hreleased).2 (hstrikes note hstruck)
    · exact hkept hreleased
  · intro hnone note
    have hbefore := h note
    rw [hpushed.willHold,hpushed.outputNotes,← hbefore,WillHold]
    by_cases hreleased : note ∈ port.released
    · have hfree : noteOnEdge note ∉ port.realtimeOut.items :=
        fun hqueued => hnone ⟨note,hreleased,hqueued⟩
      simp [hreleased,hfree]
    · simp [hreleased]

theorem reconcile_shaped {port : HostPort M} (h : port.Shaped) :
    port.reconcileHostOutput.Shaped := by
  obtain ⟨strikes,hstrikes,hpushed,-⟩ := reconcile_pushed port
  refine ⟨fun event hevent => ?_,fun event hevent => ?_,fun note hnote => ?_⟩
  · rw [hpushed.releaseOut] at hevent
    rcases List.mem_append.mp hevent with hbefore | hreleased
    · exact h.releases event hbefore
    · obtain ⟨note,hnote,rfl⟩ := List.mem_map.mp hreleased
      exact ⟨note,h.shadow note (mem_released hnote).1,rfl⟩
  · rw [hpushed.realtimeOut] at hevent
    rcases List.mem_append.mp hevent with hbefore | hstruck
    · exact h.strikes event hbefore
    · obtain ⟨note,hnote,rfl⟩ := List.mem_map.mp hstruck
      exact ⟨note,mem_target (hstrikes note hnote),rfl⟩
  · rcases (hpushed.outputNotes note).mp hnote with hstruck | ⟨hkept,-⟩
    · exact mem_target (hstrikes note hstruck)
    · exact h.shadow note hkept

/-- Drained, the host holds the shadow; after one more unobstructed pass, the target. -/
def Settles (port : HostPort M) : Prop :=
  (∀ note, port.drained.Holds note ↔ note ∈ port.drained.pitches.outputNotes) ∧
    (port.drained.reconcileHostOutput.realtimeEgressDropped = port.drained.realtimeEgressDropped →
      ∀ note, port.drained.reconcileHostOutput.drained.Holds note ↔ note ∈ port.drained.target)

theorem settles_iff_agrees {port : HostPort M} (h : port.Shaped) : port.Settles ↔ port.Agrees := by
  have hdrained := drained_spec h
  have hsame : (∀ note, port.drained.Holds note ↔ note ∈ port.drained.pitches.outputNotes) ↔
      port.Agrees := by
    simp only [Agrees,hdrained.holds,hdrained.pitches]
  rw [Settles,hsame,and_iff_left_iff_imp]
  intro hagrees hunobstructed note
  have hempty : port.drained.Agrees := by
    intro note
    rw [WillHold,hdrained.releaseOut,hdrained.realtimeOut,hdrained.holds,hdrained.pitches,hagrees]
    simp
  have hpass : port.drained.reconcileHostOutput.Agrees := by
    refine (reconcile_agrees hempty).mpr ?_
    rintro ⟨note,-,hqueued⟩
    simp [hdrained.realtimeOut] at hqueued
  have hshaped := reconcile_shaped hdrained.shaped
  obtain ⟨-,-,-,htarget⟩ := reconcile_pushed port.drained
  rw [(drained_spec hshaped).holds,hpass note]
  constructor
  · intro hnote
    exact (htarget hunobstructed note (hshaped.shadow note hnote)).mp hnote
  · intro hnote
    exact (htarget hunobstructed note (mem_target hnote)).mpr hnote

end HostPort

section Runs

variable (M : MusicLibrary) (releaseCapacity realtimeCapacity : Nat)

theorem HostPort.step_shaped {port : HostPort M} (h : port.Shaped) (op : HostOp) :
    (port.step op).Shaped := by
  cases op with
  | materialize room => exact ⟨h.releases,h.strikes,h.shadow⟩
  | setOutputEnabled enabled => exact ⟨h.releases,h.strikes,h.shadow⟩
  | reconcile => exact reconcile_shaped h
  | tryRecv => exact (tryRecv_spec h).1

theorem HostPort.step_agrees {port : HostPort M} (hshaped : port.Shaped) (h : port.Agrees)
    (op : HostOp) (hop : op = .reconcile → ¬ port.Overtakes) : (port.step op).Agrees := by
  cases op with
  | materialize room => exact h
  | setOutputEnabled enabled => exact h
  | reconcile => exact (reconcile_agrees h).mpr (hop rfl)
  | tryRecv =>
    intro note
    simp only [HostPort.step]
    rw [(tryRecv_spec hshaped).2.2,tryRecv_pitches]
    exact h note

theorem HostPort.run_append (port : HostPort M) (ops : List HostOp) (op : HostOp) :
    port.run (ops ++ [op]) = (port.run ops).step op := by
  simp [HostPort.run]

theorem HostPort.run_shaped (ops : List HostOp) :
    ((HostPort.fresh M releaseCapacity realtimeCapacity).run ops).Shaped := by
  induction ops using List.reverseRecOn with
  | nil => exact ⟨by simp [run,fresh],by simp [run,fresh],by simp [run,fresh]⟩
  | append_singleton ops op ih =>
    rw [run_append]
    exact step_shaped M ih op

/-- Host output never leaves a stuck note, just as long as no pass releases a note whose NoteOn
is still waiting for the host. -/
theorem host_output_settles_iff (ops : List HostOp) :
    (∀ before, before <+: ops →
        ((HostPort.fresh M releaseCapacity realtimeCapacity).run before).Settles) ↔
      ∀ before, before ++ [.reconcile] <+: ops →
        ¬ ((HostPort.fresh M releaseCapacity realtimeCapacity).run before).Overtakes := by
  have hshaped := HostPort.run_shaped M releaseCapacity realtimeCapacity
  simp only [fun ops => HostPort.settles_iff_agrees (hshaped ops)]
  constructor
  · intro hagrees before hbefore
    have hafter := hagrees _ hbefore
    rw [HostPort.run_append] at hafter
    exact (HostPort.reconcile_agrees (hagrees before ((List.prefix_append _ _).trans hbefore))).mp
      hafter
  · intro hkept before
    induction before using List.reverseRecOn with
    | nil =>
      intro _ note
      simp [HostPort.run,HostPort.fresh,HostPort.WillHold,HostPort.Holds]
    | append_singleton before op ih =>
      intro hbefore
      rw [HostPort.run_append]
      refine HostPort.step_agrees M (hshaped before)
        (ih ((List.prefix_append _ _).trans hbefore)) op ?_
      rintro rfl
      exact hkept before hbefore

/-- C enters the room and leaves it again before the host has received its NoteOn. -/
def overtakenStrike : List HostOp :=
  [.materialize ⟨{⟨1,0⟩},∅⟩,.reconcile,.materialize ⟨∅,∅⟩,.reconcile]

theorem host_output_stuck_overtakenStrike :
    ((HostPort.fresh plainMusic 128 512).run overtakenStrike).drained.Holds 48 ∧
      ((HostPort.fresh plainMusic 128 512).run overtakenStrike).drained.pitches.outputNotes = ∅ ∧
      ((HostPort.fresh plainMusic 128 512).run overtakenStrike).drained.target = ∅ := by
  decide +kernel

end Runs

end WalkieSongie.Bridge
