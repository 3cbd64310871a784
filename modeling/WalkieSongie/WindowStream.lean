import WalkieSongie.WindowInstalls
set_option autoImplicit false

/-!
A task from its start until it ends: when every projection that it shows its window is the next
one the window's gate takes.
-/

namespace WalkieSongie.Session
open TaskProgram

variable {L : SessionLibrary}

/-- The task handles these inputs until it ends. -/
def Core.serve (core : Core L) :
    List (RoomSessionTaskInput L × List EffectAnswer) → Core L
  | [] => core
  | event :: rest => match handle event.1 ⟨core,event.2⟩ with
      | .ok _ after => after.core.serve rest
      | .error _ after => after.core

section Fits

/-- A session of this foundation is not presented, or it opens over a horizon that is not behind
the one the window began with. -/
def OpensWithin (core : Core L) (peer : ActorId) (foundation : RoomSessionFoundation L) : Prop :=
  core.task.presents peer = true → ∀ first, core.shown.head? = some first →
    AtOrAhead first.horizon foundation.horizon.1 foundation.horizon.2

def OfferFits (core : Core L) (offer : OfferBody L) : Prop :=
  ∀ foundation verified, core.task.foundations.entries[offer.source]? = some foundation →
    Admits foundation offer → verifyOfferBody foundation offer = .ok verified →
      OpensWithin core offer.source foundation

def AnswerFits (core : Core L) (answer : AnswerBody L) : Prop :=
  ∀ pending installation, Completes core answer pending installation →
    OpensWithin core answer.source pending.foundation

/-- Every session is reset, and the presented one not behind what the window began with. -/
structure ResetFits (core : Core L) (horizon : DurableHorizon L) (answers : List EffectAnswer) :
    Prop where
  update : UpdateFits (resetTo horizon) core answers
  ahead : ShowsChange (resetTo horizon) core → ∀ first, core.shown.head? = some first →
    AtOrAhead first.horizon horizon.durableRevision (L.historyRoot horizon.history)

def SessionCarrierBody.Fits (core : Core L) (answers : List EffectAnswer) :
    SessionCarrierBody L → Prop
  | .offer body => OfferFits core body
  | .answer body => AnswerFits core body
  | .event body => RemoteFits core body answers

/-- What the input changes of the presented session is shown by one projection, and nothing is
shown that it does not change. -/
def RoomSessionTaskInput.Fits (core : Core L) (answers : List EffectAnswer) :
    RoomSessionTaskInput L → Prop
  | .application _ (.ok (.localPitchEdit command intentToken)) =>
      EditFits core command intentToken answers
  | .application _ (.ok (.carrier (.ok body))) => body.Fits core answers
  | .localCommitted commit => CommitFits core commit
  | .observed admitted => ObserveFits core admitted answers
  | .durableAdvanced horizon => UpdateFits (advanceTo horizon) core answers
  | .resetProjection horizon | .repairResynchronized horizon => ResetFits core horizon answers
  | _ => True

def Core.ServesFit (core : Core L) :
    List (RoomSessionTaskInput L × List EffectAnswer) → Prop
  | [] => True
  | event :: rest => event.1.Fits core event.2 ∧
      ∀ after, handle event.1 ⟨core,event.2⟩ = .ok () after → after.core.ServesFit rest

end Fits

section Steps

variable {canonical : Nat × Digest} {world : World L} {core : Core L}
  {F : RoomSessionFoundation L → Prop}

/-- The window stands where the task does, whatever it began with. -/
def InWindow (core : Core L) : Prop := ∃ canonical, InStep canonical core

def HaltsInWindow (stop : Stop) (core : Core L) : Prop := ∃ canonical, Halts canonical stop core

theorem InStep.inWindow {α : Type} (canonical : Nat × Digest) {program : TaskM L α}
    (h : Ends (fun _ => InStep canonical) (Halts canonical) (program world)) :
    Ends (fun _ => InWindow) HaltsInWindow (program world) :=
  Ends.mono h (fun _ _ h => ⟨canonical,h⟩) fun _ _ h => ⟨canonical,h⟩

theorem InStep.unselected (h : InStep canonical core) (hnone : core.shown = []) :
    core.task.selected = none := by
  have hcursor := h.cursor
  rw [hnone] at hcursor
  simpa using hcursor.symm

theorem InStep.begins (h : InStep canonical core) (hnone : core.shown = [])
    (other : Nat × Digest) : InStep other core where
  taken := hnone ▸ Taken.nil other
  cursor := h.cursor
  stands peer active hselected := by
    rw [h.unselected hnone] at hselected
    cases hselected
  floored := h.floored

theorem InStep.opensAhead {peer : ActorId} {foundation : RoomSessionFoundation L}
    (h : InStep canonical core) (hwithin : OpensWithin core peer foundation) :
    ∃ canonical, InStep canonical core ∧ OpensAhead canonical core peer foundation := by
  cases hshown : core.shown.head? with
  | none =>
    refine ⟨foundation.horizon,h.begins (List.head?_eq_none_iff.mp hshown) _,?_⟩
    exact ⟨fun _ => .inr rfl,fun _ _ => rfl⟩
  | some first =>
    refine ⟨canonical,h,fun hpresents => ?_,fun _ hnone => ?_⟩
    · rw [h.taken.started first hshown]
      exact hwithin hpresents first hshown
    · rw [hnone] at hshown
      cases hshown

theorem carrierOffer_inWindow (hpromises : L.WindowPromises) (hlaws : L.RenewalPromises)
    (offer : OfferBody L) (hplay : InPlay F world.core) (h : InStep canonical world.core)
    (hfits : OfferFits world.core offer) :
    Ends (fun _ => InWindow) HaltsInWindow (carrierOffer offer world) := by
  by_cases hopens : ∃ foundation verified,
      world.core.task.foundations.entries[offer.source]? = some foundation ∧
      Admits foundation offer ∧ verifyOfferBody foundation offer = .ok verified
  · obtain ⟨foundation,verified,hfound,hadmits,hverified⟩ := hopens
    obtain ⟨canonical,hbegins,hahead⟩ := h.opensAhead
      (hfits foundation verified hfound hadmits hverified)
    refine InStep.inWindow _ (carrierOffer_inStep hpromises hlaws offer hplay hbegins
      fun other _ hother _ _ => ?_)
    cases hfound.symm.trans hother
    exact hahead
  · refine InStep.inWindow _ (carrierOffer_inStep hpromises hlaws offer hplay h
      fun foundation verified hfound hadmits hverified => ?_)
    exact absurd ⟨foundation,verified,hfound,hadmits,hverified⟩ hopens

theorem carrierAnswer_inWindow (hpromises : L.WindowPromises) (hlaws : L.RenewalPromises)
    (answer : AnswerBody L) (hplay : InPlay F world.core) (h : InStep canonical world.core)
    (hfits : AnswerFits world.core answer) :
    Ends (fun _ => InWindow) HaltsInWindow (carrierAnswer answer world) := by
  by_cases hopens : ∃ pending installation, Completes world.core answer pending installation
  · obtain ⟨pending,installation,hcompletes⟩ := hopens
    obtain ⟨canonical,hbegins,hahead⟩ := h.opensAhead (hfits pending installation hcompletes)
    refine InStep.inWindow _ (carrierAnswer_inStep hpromises hlaws answer hplay hbegins
      fun other _ hother => ?_)
    cases hcompletes.taken.symm.trans hother.taken
    exact hahead
  · refine InStep.inWindow _ (carrierAnswer_inStep hpromises hlaws answer hplay h
      fun pending installation hcompletes => ?_)
    exact absurd ⟨pending,installation,hcompletes⟩ hopens

theorem resetAll_inWindow (hpromises : L.WindowPromises) (horizon : DurableHorizon L)
    (h : InStep canonical world.core) (hfits : ResetFits world.core horizon world.answers) :
    Ends (fun _ => InWindow) HaltsInWindow ((do
      let _ ← resetAllProjections horizon : TaskM L Unit) world) := by
  refine InStep.inWindow canonical (Ends.bind
    (resetAllProjections_inStep hpromises horizon h hfits.update fun hshows => ?_)
    fun _ _ h => Ends.pure h)
  cases hshown : world.core.shown.head? with
  | none =>
    obtain ⟨peer,active,-,-,hselected,-⟩ := hshows
    rw [h.unselected (List.head?_eq_none_iff.mp hshown)] at hselected
    cases hselected
  | some first =>
    rw [h.taken.started first hshown]
    exact hfits.ahead hshows first hshown

theorem carrier_inWindow (hpromises : L.WindowPromises) (hlaws : L.RenewalPromises)
    (body : SessionCarrierBody L) (hplay : InPlay F world.core) (h : InStep canonical world.core)
    (hfits : body.Fits world.core world.answers) :
    Ends (fun _ => InWindow) HaltsInWindow (carrier body world) := by
  cases body with
  | offer offer => exact carrierOffer_inWindow hpromises hlaws offer hplay h hfits
  | answer answer => exact carrierAnswer_inWindow hpromises hlaws answer hplay h hfits
  | event event => exact InStep.inWindow _ (carrierEvent_inStep hpromises event h hfits)

theorem accept_inWindow (hpromises : L.WindowPromises) (hlaws : L.RenewalPromises)
    (input : RoomSessionTaskInput L) (hplay : InPlay F world.core) (h : InStep canonical world.core)
    (hfits : input.Fits world.core world.answers) :
    Ends (fun _ => InWindow) HaltsInWindow (accept input world) := by
  cases input with
  | configure generation traceEnabled renewalTestCut =>
    exact Ends.modifyTask ⟨canonical,h.unseen (.of_task rfl rfl rfl)⟩
  | startPeer foundation => exact InStep.inWindow _ ((startPeer_unseen foundation).inStep h)
  | application channel decoded =>
    refine Ends.refuseIf (fun _ => ⟨canonical,h.halts _⟩) fun _ => ?_
    refine Ends.check (fun body hbody => ?_) fun _ _ => ⟨canonical,h.halts _⟩
    subst hbody
    cases body with
    | localPitchEdit command intentToken =>
      exact InStep.inWindow _ (localEdit_inStep hpromises command intentToken h hfits)
    | carrier decoded =>
      refine Ends.check (fun body hbody => ?_) fun _ _ => ⟨canonical,h.halts _⟩
      subst hbody
      exact carrier_inWindow hpromises hlaws body hplay h hfits
  | localCommitted commit =>
    exact InStep.inWindow _ (confirmLocal_inStep hpromises commit hplay h hfits)
  | observed admitted => exact InStep.inWindow _ (observe_inStep hpromises admitted h hfits)
  | durableAdvanced horizon => exact InStep.inWindow _ (advanceAll_inStep hpromises horizon h hfits)
  | resetProjection horizon => exact resetAll_inWindow hpromises horizon h hfits
  | repairResynchronized horizon => exact resetAll_inWindow hpromises horizon h hfits
  | refreshFoundations foundations =>
    refine InStep.inWindow canonical (Ends.bind (R := fun _ => InStep canonical)
      (Ends.modifyTask (h.unseen (.of_task rfl rfl rfl))) fun _ _ h => ?_)
    exact startReadyRenewals_unseen.inStep h

theorem Halts.sends {stop : Stop} {event : RoomSessionEgress L} (h : Halts canonical stop core)
    (hevent : event.projection? = none) : Halts canonical stop (core.sends [] event) := by
  have hunseen : Unseen core (core.sends [] event) := .sends hevent
  exact ⟨hunseen.shown ▸ h.1,fun hcrash hevents => (h.2 hcrash hevents).unseen hunseen⟩

theorem handle_inWindow (hpromises : L.WindowPromises) (hlaws : L.RenewalPromises)
    (input : RoomSessionTaskInput L) (hplay : InPlay F world.core) (h : InWindow world.core)
    (hfits : input.Fits world.core world.answers) :
    Ends (fun _ => InWindow) (fun _ core => ∃ canonical, Taken canonical core.shown)
      (handle input world) := by
  obtain ⟨canonical,h⟩ := h
  refine Ends.bind (Ends.mono (Ends.attempting
    (accept_inWindow hpromises hlaws input hplay h hfits))
    (fun _ _ h => h) fun _ _ ⟨_,canonical,h⟩ => ⟨canonical,h.1⟩) fun accepted after hafter => ?_
  cases accepted with
  | ok _ => exact Ends.pure hafter
  | error message =>
    obtain ⟨canonical,hafter⟩ := hafter
    have hsends : Halts canonical (.failed message)
        (after.core.sends [] (.diagnostic message)) := hafter.sends rfl
    have hemitted : Ends (fun _ => Halts canonical (.failed message))
        (fun _ => Halts canonical (.failed message)) (emit (.diagnostic message) after) :=
      Ends.emit hsends (fun _ => hafter) hsends
    have hdiagnosed : Ends (fun _ => Halts canonical (.failed message))
        (fun _ => Halts canonical (.failed message))
        (attempt (emit (.diagnostic message)) after) := by
      refine Ends.mono (Ends.attempt hemitted) (fun outcome core hcore => ?_) fun _ _ h => h
      cases outcome with
      | ok _ => exact hcore
      | error _ => exact hcore
    refine Ends.bind (Ends.mono hdiagnosed (fun _ _ h => h) fun _ _ h => ⟨canonical,h.1⟩)
      fun _ diagnosed hcore => Ends.getTask ?_
    refine Ends.branch (fun _ => ⟨canonical,hcore.1⟩) fun hevents => ?_
    exact Ends.pure ⟨canonical,hcore.2 (by simp) hevents⟩

theorem serve_taken (hpromises : L.WindowPromises) (hlaws : L.RenewalPromises)
    (inputs : List (RoomSessionTaskInput L × List EffectAnswer))
    (hplay : InPlay (fun _ => True) core) (h : InWindow core) (hfits : core.ServesFit inputs) :
    ∃ canonical, Taken canonical (core.serve inputs).shown := by
  induction inputs generalizing core with
  | nil =>
    obtain ⟨canonical,h⟩ := h
    exact ⟨canonical,h.taken⟩
  | cons event rest ih =>
    obtain ⟨hfits,hrest⟩ := hfits
    have hstable : Stable fun _ : RoomSessionFoundation L => True := fun _ _ _ _ _ => trivial
    have hwithin : event.1.Within (fun _ => True) fun _ => True := by
      unfold RoomSessionTaskInput.Within
      split <;> simp
    have hhandled : Ends (fun _ => InWindow) (fun _ core => ∃ canonical, Taken canonical core.shown)
        (handle event.1 ⟨core,event.2⟩) :=
      handle_inWindow hpromises hlaws event.1 hplay h hfits
    have hmoves : Runs (Moves (fun _ => True) fun _ => True) (handle event.1) ⟨core,event.2⟩ :=
      handle_runs hwithin hstable hplay
    simp only [Core.serve]
    cases hrun : handle event.1 ⟨core,event.2⟩ with
    | ok _ after =>
      rw [Runs,hrun] at hmoves
      rw [hrun] at hhandled
      exact ih (MovesMany.inPlay hstable hmoves hplay) hhandled (hrest after hrun)
    | error stop after =>
      rw [hrun] at hhandled
      exact hhandled

end Steps

section Run

/-- The horizon the window begins with: the one of the first projection it is handed. -/
def Core.windowHorizon (core : Core L) : Nat × Digest :=
  (core.shown.head?.map RoomSessionProjection.horizon).getD (0,0)

theorem Taken.begins {canonical : Nat × Digest} {core : Core L} (h : Taken canonical core.shown) :
    Taken core.windowHorizon core.shown := by
  cases hshown : core.shown with
  | nil => exact Taken.nil _
  | cons first rest =>
    have hstarted := h.started first (by rw [hshown]; rfl)
    rw [hshown,hstarted] at h
    rw [Core.windowHorizon,hshown]
    exact h

/-- A window that begins at the horizon of the first projection refuses none of those a task
emits over a run whose inputs fit: each is the next of its generation, or the reset of a newer
generation or of a session of a higher epoch. -/
theorem projections_accepted (hpromises : L.WindowPromises) (hlaws : L.RenewalPromises)
    (store : RoomSessionRenewalKey → Option L.FloorBytes)
    (inputs : List (RoomSessionTaskInput L × List EffectAnswer))
    (hfits : ({ store := store } : Core L).ServesFit inputs) :
    (windowRun (Core.serve { store := store } inputs).windowHorizon
        (Core.serve { store := store } inputs).shown).Unrefused ∧
      (Core.serve { store := store } inputs).shown.IsChain
        fun first second => second.Continues (some first.cursor) := by
  have hplay : InPlay (fun _ => True) ({ store := store } : Core L) :=
    InPlay.restart { store := store }
  have hstart : InWindow ({ store := store } : Core L) := by
    refine ⟨(0,0),Taken.nil _,rfl,fun peer active hselected => ?_,fun peer active hactive => ?_⟩
    · cases hselected
    · simp at hactive
  obtain ⟨canonical,htaken⟩ := serve_taken hpromises hlaws inputs hplay hstart hfits
  exact ⟨htaken.begins.unrefused,htaken.continuous⟩

theorem Core.ServesFit.concat {core : Core L}
    {inputs : List (RoomSessionTaskInput L × List EffectAnswer)} (h : core.ServesFit inputs)
    (event : RoomSessionTaskInput L × List EffectAnswer)
    (hlast : event.1.Fits (core.serve inputs) event.2) : core.ServesFit (inputs ++ [event]) := by
  induction inputs generalizing core with
  | nil => exact ⟨hlast,fun _ _ => trivial⟩
  | cons first rest ih =>
    refine ⟨h.1,fun after hafter => ih (h.2 after hafter) ?_⟩
    simp only [Core.serve,hafter] at hlast
    exact hlast

end Run

section Plain

/-- A transition of a host whose sequence is a 64-bit number. -/
def PlainProjection.counted {Change : Type} (change : Change) (durable : DurableProjection) :
    EStateM String PlainProjection Change :=
  fun projection =>
    if projection.sequence+1 < 2^64 then .ok change { projection with
      sequence := projection.sequence+1
      durable := durable }
    else .error "sequence" projection

def PlainProjection.reopened (generation : Nat) (durable : DurableProjection) :
    EStateM String PlainProjection SessionProjectionChange :=
  fun projection =>
    if projection.generation < generation then .ok .reset ⟨generation,0,durable⟩
    else .error "generation" projection

/-- The plain library, with a host that keeps to its numbers. -/
def windowLibrary : SessionLibrary := { plainLibrary with
  predictBetween := fun _ _ _ projection =>
    PlainProjection.counted (some .predicted) projection.durable projection
  confirmProjection := fun _ durable => PlainProjection.counted (some .confirmed) durable
  advanceDurable := fun durable => PlainProjection.counted .durableAdvanced durable
  resynchronize := fun generation _ _ durable _ => PlainProjection.reopened generation durable }

theorem PlainProjection.counted_ends {Change : Type} (change : Change) (durable : DurableProjection)
    (projection : PlainProjection) :
    Post (fun value after => value = change ∧
        windowLibrary.Transits durable projection after)
      (fun _ after => windowLibrary.Rests projection after)
      (PlainProjection.counted change durable projection) := by
  unfold PlainProjection.counted
  by_cases hbound : projection.sequence+1 < 2^64
  · rw [if_pos hbound]
    exact ⟨rfl,rfl,rfl,hbound,rfl⟩
  · rw [if_neg hbound]
    exact ⟨rfl,rfl,rfl⟩

theorem windowLibrary_windowPromises : windowLibrary.WindowPromises where
  digest first second h := by
    have hsame := Encodable.encode_injective h
    exact (Prod.ext_iff.mp hsame).1
  opened _ _ _ _ durable host h := by
    cases h
    rfl
  simulated time host := ⟨fun _ => ⟨rfl,rfl,rfl⟩,fun hsome => absurd rfl hsome⟩
  predicted kernel start stop host := by
    refine Post.mono (PlainProjection.counted_ends _ _ host) (fun _ _ h => ?_) fun _ _ h => h
    obtain ⟨rfl,htransits⟩ := h
    exact ⟨fun hnone => (by cases hnone),fun _ => htransits⟩
  confirmed admission durable host := by
    refine Post.mono (PlainProjection.counted_ends _ _ host) (fun _ _ h => ?_) fun _ _ h => h
    obtain ⟨rfl,htransits⟩ := h
    exact ⟨fun hnone => (by cases hnone),fun _ => htransits⟩
  advanced durable host := by
    rw [map_eq_pure_bind]
    refine Post.bind (PlainProjection.counted_ends _ _ host) fun _ _ h => ?_
    exact ⟨fun hnone => (by cases hnone),fun _ => h.2⟩
  resynchronized generation kernel time durable history host := by
    simp only [windowLibrary,PlainProjection.reopened]
    by_cases hnewer : host.generation < generation
    · rw [if_pos hnewer]
      exact ⟨rfl,hnewer,rfl⟩
    · rw [if_neg hnewer]
      exact ⟨rfl,rfl,rfl⟩

theorem windowLibrary_renewalPromises : windowLibrary.RenewalPromises where
  floor_bytes := plainLibrary_renewalPromises.floor_bytes
  floor_epoch := plainLibrary_renewalPromises.floor_epoch
  next_epoch := plainLibrary_renewalPromises.next_epoch
  authorized := plainLibrary_renewalPromises.authorized
  renewed := plainLibrary_renewalPromises.renewed

theorem windowLibrary_ingests {event : windowLibrary.PermittedEvent}
    {active after : ActiveSession windowLibrary} {kind : Option RoomSessionProjectionKind}
    (h : ingest event active = .ok kind after) : ingestTransitions event active = 1 := by
  by_cases hbound : (active.projection : PlainProjection).sequence+1 < 2^64
  · simp only [ingestTransitions,windowLibrary,plainLibrary,PlainProjection.counted,if_pos hbound]
    rfl
  · have hrefused : ∀ kernel start stop, windowLibrary.predictBetween kernel start stop
        active.projection = .error "sequence" active.projection :=
      fun _ _ _ => if_neg hbound
    have hfailed : Post (fun _ _ => False) (fun _ _ => True) (ingest event active) := by
      have hsimulated : windowLibrary.advanceSimulation active.logicalTime active.projection =
        .ok none active.projection := rfl
      have hingested : windowLibrary.ingestEvent event active.kernel =
        .ok true (List.append active.kernel [event]) := rfl
      refine Post.getting ?_
      rw [bind_of_ok (onProjection_of_ok active hsimulated)]
      refine Post.getting ?_
      rw [bind_of_ok (onKernel_of_ok active hingested)]
      refine Post.getting ?_
      rw [bind_of_error (onProjection_of_error
        { active with kernel := List.append active.kernel [event] } (hrefused _ _ _))]
      trivial
    rw [h] at hfailed
    exact hfailed.elim

def windowFoundation (localActor peer : ActorId) : RoomSessionFoundation windowLibrary where
  identity := ⟨9,9,9⟩
  localActor := localActor
  peer := peer
  signingKey := localActor
  history := (5 : Nat)
  musicRoot := 0
  localGrants := []
  peerGrants := []
  durableView := ⟨∅,∅⟩
  durableRevision := 0

abbrev WindowInput := RoomSessionTaskInput windowLibrary × List EffectAnswer

def windowConfigure : WindowInput := (.configure 1 false false,[])

def windowStart (localActor peer : ActorId) (sessionId : Nat) : WindowInput :=
  (.startPeer (windowFoundation localActor peer),[{},{ randomSession := sessionId }])

def windowDeliver (body : SessionCarrierBody windowLibrary) : WindowInput :=
  (.application roomSessionChannel (.ok (.carrier (.ok body))),[])

def windowEdit : WindowInput :=
  (.application roomSessionChannel (.ok (.localPitchEdit (.addDegree ⟨0,0⟩) ⟨1,1⟩)),[])

def windowAhead (revision : Nat) : DurableHorizon windowLibrary where
  history := (6 : Nat)
  durableView := ⟨∅,∅⟩
  durableRevision := revision

def windowOffer : SessionCarrierBody windowLibrary :=
  (Core.serve {} [windowConfigure,windowStart 1 2 77] : Core windowLibrary).frames.headD
    (.event ⟨1,2,77,[]⟩)

/-- Actor 2 answers the offer, edits, and is told that the durable lane has advanced. -/
def windowAdvanced : List WindowInput :=
  [windowConfigure,windowStart 2 1 88,windowDeliver windowOffer,
    windowEdit,(.durableAdvanced (windowAhead 1),[])]

theorem windowLibrary_edit_fits (core : Core windowLibrary) (command : MusicOp)
    (intentToken : PerformanceIntentToken) (answers : List EffectAnswer) :
    EditFits core command intentToken answers := by
  intro peer active sealed taken event after _ _ _ _ htake
  cases hingest : ingest sealed.2 taken with
  | ok kind ingested => exact windowLibrary_ingests hingest
  | error message ingested =>
    unfold takeLocal at htake
    rw [bind_of_error hingest] at htake
    cases htake

theorem updateFits_alone {program : ActiveM L (Option RoomSessionProjectionKind)} {core : Core L}
    (peer : ActorId) (hkeys : core.task.active.keys = [peer]) : UpdateFits program core [] := by
  refine ⟨?_,fun _ _ message => by simp⟩
  intro front other rest active kind moved hsplit _ _ _
  rw [hkeys,List.singleton_eq_append_iff] at hsplit
  have hrest : rest = [] := by
    cases hsplit with
    | inl hfirst => exact (List.cons.inj hfirst.2).2
    | inr hnone => cases hnone.2
  simp [hrest,RunsAll]

theorem carrier_fits_unshown {core : Core L} (hshown : core.shown = [])
    (hselected : core.task.selected = none) (body : SessionCarrierBody L)
    (answers : List EffectAnswer) : body.Fits core answers := by
  cases body with
  | offer offer =>
    intro foundation verified _ _ _ _ first hfirst
    rw [hshown] at hfirst
    cases hfirst
  | answer answer =>
    intro pending installation _ _ first hfirst
    rw [hshown] at hfirst
    cases hfirst
  | event event =>
    intro active _ _ _ _ hactive
    rw [hselected] at hactive
    cases hactive

theorem projections_accepted_windowAdvanced :
    (Core.serve { store := fun _ => none } windowAdvanced : Core windowLibrary).shown.map
        (fun projection => (projection.kind,projection.sequence,projection.durableRevision)) =
      [(.reset,0,0),(.predicted,1,0),(.advanced,2,1)] ∧
    (windowRun
      (Core.serve { store := fun _ => none } windowAdvanced : Core windowLibrary).windowHorizon
      (Core.serve { store := fun _ => none } windowAdvanced :
        Core windowLibrary).shown).Unrefused := by
  have hstarted : ({ store := fun _ => none } : Core windowLibrary).ServesFit
      [windowConfigure,windowStart 2 1 88] := ⟨trivial,fun _ _ => ⟨trivial,fun _ _ => trivial⟩⟩
  have hanswered := hstarted.concat (windowDeliver windowOffer) (carrier_fits_unshown
    (by decide +kernel) (Option.isNone_iff_eq_none.mp (by decide +kernel)) windowOffer [])
  have hedited := hanswered.concat windowEdit (windowLibrary_edit_fits _ _ _ _)
  have hfits := hedited.concat (.durableAdvanced (windowAhead 1),[])
    (updateFits_alone 1 (by decide +kernel))
  exact ⟨by decide +kernel,(projections_accepted windowLibrary_windowPromises
    windowLibrary_renewalPromises (fun _ => none) windowAdvanced hfits).1⟩

/-- Only now it is told of the edit's own admission at that revision. -/
def windowConfirmed : List WindowInput :=
  windowAdvanced ++ (Core.serve {} windowAdvanced : Core windowLibrary).queue.map
    fun reification => (.localCommitted {
      peer := reification.peer
      session := reification.session
      plan := reification.plan
      intentToken := reification.intentToken
      admitted := ⟨reification.plan,(),windowAhead 1⟩ },[])

/-- A confirmation that comes after the durable lane has passed it is shown at the sequence that
the advance was shown at, and the window refuses it. -/
theorem late_confirmation_refused :
    windowLibrary.WindowPromises ∧ windowLibrary.RenewalPromises ∧
      ¬ (windowRun (Core.serve {} windowConfirmed : Core windowLibrary).windowHorizon
        (Core.serve {} windowConfirmed : Core windowLibrary).shown).Unrefused := by
  refine ⟨windowLibrary_windowPromises,windowLibrary_renewalPromises,fun hunrefused => ?_⟩
  have hlast : (windowRun (Core.serve {} windowConfirmed : Core windowLibrary).windowHorizon
      (Core.serve {} windowConfirmed : Core windowLibrary).shown).events.head?.map
        (fun event => event.outcome.isOk) = some false := by decide +kernel
  obtain ⟨event,hevent,hfailed⟩ := Option.map_eq_some_iff.mp hlast
  cases houtcome : event.outcome with
  | ok shown => simp [houtcome,Except.isOk,Except.toBool] at hfailed
  | error message => exact hunrefused event (List.mem_of_mem_head? hevent) message houtcome

end Plain

end WalkieSongie.Session
