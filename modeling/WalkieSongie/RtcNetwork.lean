import WalkieSongie.RtcProvenance
set_option autoImplicit false

/-!
Carriers that signal each other over a channel that may lose, repeat and reorder what it carries.
Two carriers of one endpoint are two placements of it, one after the other or at once.
-/

namespace WalkieSongie.Net.WebRtc
open Transport

variable {t t' : Transport} {peer : EndpointId} {attempt : RtcAttempt} {link : PeerLink}
  {pc : RtcPeerConnection} {task : Task} {choice : Choice}

/-! ### What a step leaves as it was -/

/-- Signals are handled, and connections made, only where a command is taken. -/
structure Kept (t t' : Transport) : Prop where
  localId : t'.localId = t.localId
  handled : t'.handled = t.handled
  commands : t'.commands = t.commands
  made : t'.made = t.made
  outbound : t.outbound ⊆ t'.outbound
  closed : ∀ pc, (t.browser pc).signaling = .closed → (t'.browser pc).signaling = .closed

namespace Kept

theorem refl (t : Transport) : Kept t t := ⟨rfl,rfl,rfl,rfl,List.Subset.refl _,fun _ => id⟩

theorem trans {t'' : Transport} (h : Kept t t') (h' : Kept t' t'') : Kept t t'' where
  localId := h'.localId.trans h.localId
  handled := h'.handled.trans h.handled
  commands := h'.commands.trans h.commands
  made := h'.made.trans h.made
  outbound := List.Subset.trans h.outbound h'.outbound
  closed pc hclosed := h'.closed pc (h.closed pc hclosed)

theorem publish (t : Transport) (recipient : EndpointId) (payload : RtcPayload) :
    Kept t (t.publish recipient payload) :=
    ⟨rfl,rfl,rfl,rfl,List.subset_append_left _ _,fun _ => id⟩

theorem ask (t : Transport) (task : Task) : Kept t (t.ask task) :=
  ⟨rfl,rfl,rfl,rfl,List.Subset.refl _,fun _ => id⟩

theorem settle {t : Transport} {pc : RtcPeerConnection}
    (hopen : (t.browser pc).signaling ≠ .closed) (call : PcCall) : Kept t (t.settle pc call) := by
  refine ⟨rfl,rfl,rfl,rfl,List.Subset.refl _,fun other hclosed => ?_⟩
  have hne : other ≠ pc := by
    rintro rfl
    exact hopen hclosed
  simpa [Transport.settle,Function.update_of_ne hne] using hclosed

theorem retired (t : Transport) (peer : EndpointId) (pc : RtcPeerConnection) :
    Kept t (t.retired peer pc) := by
  refine ⟨rfl,rfl,rfl,rfl,List.Subset.refl _,fun other hclosed => ?_⟩
  by_cases hsame : other = pc
  · simp [Transport.retired,hsame,PcState.fulfill]
  · simpa [Transport.retired,Function.update_of_ne hsame] using hclosed

theorem finish (t : Transport) (acknowledged : Option Acknowledgement) :
    Kept t (t.finish acknowledged) := by
  cases acknowledged <;> exact ⟨rfl,rfl,rfl,rfl,List.Subset.refl _,fun _ => id⟩

theorem retireLink (t : Transport) (peer : EndpointId) (attempt : RtcAttempt) :
    Kept t (t.retireLink peer attempt) := by
  cases hlink : t.linkOf peer attempt with
  | none => rw [retireLink_of_none hlink]; exact refl t
  | some link => rw [retireLink_of_some hlink]; exact retired t peer link.pc

theorem updateLink (t : Transport) (peer : EndpointId) (attempt : RtcAttempt)
    (f : PeerLink → PeerLink) : Kept t (t.updateLink peer attempt f) := by
  unfold Transport.updateLink
  split
  · exact ⟨rfl,rfl,rfl,rfl,List.Subset.refl _,fun _ => id⟩
  · exact refl t

theorem adoptEarlyIce (t : Transport) (peer : EndpointId) (attempt : RtcAttempt) :
    Kept t (t.adoptEarlyIce peer attempt) := by
  have hearly : Kept t { t with earlyIce := t.earlyIce.erase peer } :=
    ⟨rfl,rfl,rfl,rfl,List.Subset.refl _,fun _ => id⟩
  exact hearly.trans (updateLink _ peer attempt _)

theorem flushNext (t : Transport) (task : Task) (answering : Bool)
    (pending : List IceCandidate) : Kept t (t.flushNext task answering pending) := by
  cases pending with
  | cons candidate rest => exact ask t _
  | nil =>
    cases answering with
    | true => exact ask t _
    | false => exact finish t _

theorem resume (task : Task) (hopen : (t.browser task.pc).signaling ≠ .closed)
    (outcome : Outcome) : Kept t (t.resume task outcome) := by
  have habandoned := (retireLink t task.peer task.attempt).trans (finish _ task.acknowledged)
  cases outcome with
  | rejected =>
    unfold Transport.resume Transport.rejected
    cases task.stage with
    | flush candidate rest answering => exact flushNext t task answering rest
    | addIce candidate => exact finish t _
    | createOffer | setLocalOffer offer | setRemoteOffer sdp | createAnswer | setLocalAnswer answer
    | setRemoteAnswer sdp => exact habandoned
  | fulfilled sdp =>
    refine (settle hopen task.stage.call).trans ?_
    unfold Transport.resume Transport.fulfilled
    generalize t.settle task.pc task.stage.call = after
    have hdescribed : ∀ f payload, Kept after
        (((after.updateLink task.peer task.attempt f).publish task.peer payload).finish
          task.acknowledged) := fun f payload =>
      (updateLink after task.peer task.attempt f).trans ((publish _ _ _).trans (finish _ _))
    cases task.stage with
    | createOffer => exact ask after _
    | createAnswer => exact ask after _
    | setLocalOffer offer =>
      cases offer with
      | none => exact (retireLink after task.peer task.attempt).trans (finish _ _)
      | some sdp =>
        simp only [Transport.offered]
        split
        · exact hdescribed _ _
        · exact finish after _
    | setLocalAnswer answer =>
      cases answer with
      | none => exact finish after _
      | some sdp =>
        simp only [Transport.answered]
        split
        · exact hdescribed _ _
        · exact finish after _
    | setRemoteOffer sdp => exact (updateLink after _ _ _).trans (flushNext _ task true _)
    | setRemoteAnswer sdp => exact (updateLink after _ _ _).trans (flushNext _ task false _)
    | flush candidate rest answering => exact flushNext after task answering rest
    | addIce candidate => exact finish after _

end Kept

def Transport.offerers (t : Transport) : List RtcPeerConnection :=
  t.made.filter RtcPeerConnection.offerer

/-- The moves of a command make at most one connection to offer, of the attempt that was drawn. -/
structure Handled (choice : Choice) (t t' : Transport) : Prop where
  localId : t'.localId = t.localId
  handled : t'.handled = t.handled
  commands : t'.commands = t.commands
  outbound : t.outbound ⊆ t'.outbound
  closed : ∀ pc, (t.browser pc).signaling = .closed → (t'.browser pc).signaling = .closed
  offers : t'.offerers = t.offerers ∨ t'.task ≠ none ∧
    ∃ pc, pc.attempt = choice.attempt ∧ t'.offerers = t.offerers ++ [pc]

theorem Handled.of_kept {t'' : Transport} (h : Handled choice t t') (hidle : t'.task = none)
    (hkept : Kept t' t'') : Handled choice t t'' := by
  refine ⟨hkept.localId.trans h.localId,hkept.handled.trans h.handled,
    hkept.commands.trans h.commands,List.Subset.trans h.outbound hkept.outbound,
    fun pc hclosed => hkept.closed pc (h.closed pc hclosed),.inl ?_⟩
  rcases h.offers with hsame | ⟨hbusy,-⟩
  · rw [← hsame,Transport.offerers,hkept.made,Transport.offerers]
  · exact absurd hidle hbusy

theorem Handled.move {t'' : Transport} {signals : List (EndpointId × RtcPayload)}
    (h : Handled choice t t') (hidle : t'.task = none) (hmove : Move choice signals t' t'') :
    Handled choice t t'' := by
  cases hmove with
  | acknowledge number retiredAttempt =>
    exact h.of_kept hidle ⟨rfl,rfl,rfl,rfl,List.Subset.refl _,fun _ => id⟩
  | retire hlink => exact h.of_kept hidle (.retired _ _ _)
  | @dial peer acknowledged hother hofferer hnone hroom =>
    refine ⟨h.localId,h.handled,h.commands,h.outbound,h.closed,.inr ⟨by simp [Transport.ask],
      (t'.createLink peer choice.attempt true).1,rfl,?_⟩⟩
    rcases h.offers with hsame | ⟨hbusy,-⟩
    · rw [← hsame]
      simp [Transport.offerers,Transport.ask,Transport.record,createLink]
    · exact absurd hidle hbusy
  | offerAgain hofferer hlink hoffer => exact h.of_kept hidle (.publish _ _ _)
  | @accept sender attempt sdp hsender hofferer hhandled hnone hroom =>
    have hkept := Kept.adoptEarlyIce (t'.createLink sender attempt false).2 sender attempt
    refine ⟨hkept.localId.trans h.localId,hkept.handled.trans h.handled,
      hkept.commands.trans h.commands,List.Subset.trans h.outbound hkept.outbound,
      fun pc hclosed => hkept.closed pc (h.closed pc hclosed),.inl ?_⟩
    rcases h.offers with hsame | ⟨hbusy,-⟩
    · rw [← hsame,Transport.offerers,hkept.made]
      simp [Transport.offerers,createLink]
    · exact absurd hidle hbusy
  | adopt hofferer hlink => exact h.of_kept hidle (.adoptEarlyIce _ _ _)
  | answerAgain hofferer hlink hanswer => exact h.of_kept hidle (.publish _ _ _)
  | applyOffer hofferer hhandled hlink hanswer => exact h.of_kept hidle (.ask _ _)
  | applyAnswer hofferer hhandled hlink hstate => exact h.of_kept hidle (.ask _ _)
  | addIce hhandled hlink hset => exact h.of_kept hidle (.ask _ _)
  | bufferIce hhandled hlink hset => exact h.of_kept hidle (.updateLink _ _ _ _)
  | bufferEarlyIce hhandled hlink =>
    refine h.of_kept hidle ?_
    unfold bufferEarlyIce
    split
    · exact .refl _
    · exact ⟨rfl,rfl,rfl,rfl,List.Subset.refl _,fun _ => id⟩

/-- The signals that were handled or wait in the driver's queue. -/
def Transport.heard (t : Transport) : List (EndpointId × RtcPayload) :=
  t.handled ++ t.commands.flatMap Command.signals

def Event.signals : Event → List (EndpointId × RtcPayload)
  | .command asked => asked.signals
  | _ => []

/-- What a step may do to a carrier, as others see it. -/
structure Stepped (event : Event) (t t' : Transport) : Prop where
  localId : t'.localId = t.localId
  heard : t'.heard ⊆ t.heard ++ event.signals
  outbound : t.outbound ⊆ t'.outbound
  closed : ∀ pc, (t.browser pc).signaling = .closed → (t'.browser pc).signaling = .closed
  offers : t'.offerers = t.offerers ∨ ∃ choice pc, event = .next choice ∧
    pc.attempt = choice.attempt ∧ t'.offerers = t.offerers ++ [pc]

theorem Stepped.of_kept {event : Event} (h : Kept t t') : Stepped event t t' where
  localId := h.localId
  heard := by
    rw [Transport.heard,h.handled,h.commands]
    exact List.subset_append_left _ _
  outbound := h.outbound
  closed := h.closed
  offers := .inl (by rw [Transport.offerers,h.made,Transport.offerers])

/-- A callback or a poll that asks for a command without a signal. -/
theorem Stepped.queue {event : Event} {command : Command} (hlocal : t'.localId = t.localId)
    (hhandled : t'.handled = t.handled) (hcommands : t'.commands = t.commands ++ [command])
    (hmade : t'.made = t.made) (houtbound : t'.outbound = t.outbound)
    (hbrowser : t'.browser = t.browser)
    (hsignals : command.signals ⊆ event.signals) : Stepped event t t' where
  localId := hlocal
  heard := by
    rw [Transport.heard,hhandled,hcommands]
    simp only [List.flatMap_append,List.flatMap_singleton,← List.append_assoc]
    exact List.append_subset.mpr ⟨List.subset_append_left _ _,
      List.Subset.trans hsignals (List.subset_append_right _ _)⟩
  outbound := by rw [houtbound]; exact List.Subset.refl _
  closed := by rw [hbrowser]; exact fun _ => id
  offers := .inl (by rw [Transport.offerers,hmade,Transport.offerers])

theorem Disciplined.stepped {event : Event} (hd : Disciplined t) (hstep : t.step event = some t') :
    Stepped event t t' := by
  cases event with
  | next choice =>
    simp only [Transport.step] at hstep
    split at hstep
    · rename_i command commands hidle hcommands
      cases hstep
      have hmoves := (handle_moves (t := { t with commands }) choice hidle command).preserve
        (Handled choice { t with commands, handled := t.handled ++ command.signals })
        (fun _ _ hbefore hnext => hbefore.move hnext)
        ⟨rfl,rfl,rfl,List.Subset.refl _,fun _ => id,.inl rfl⟩
      refine ⟨hmoves.localId,?_,hmoves.outbound,hmoves.closed,?_⟩
      · rw [Transport.heard,hmoves.handled,hmoves.commands,Transport.heard,hcommands]
        simp only [Event.signals,List.flatMap_cons,List.append_assoc,List.append_nil]
        exact List.Subset.refl _
      · rcases hmoves.offers with hsame | ⟨-,pc,hattempt,hnew⟩
        · exact .inl hsame
        · exact .inr ⟨choice,pc,rfl,hattempt,hnew⟩
    · cases hstep
  | resolve outcome =>
    obtain ⟨task,htask,rfl⟩ := Option.map_eq_some_iff.mp hstep
    obtain ⟨link,hlink,hpc,-⟩ := hd.awaits task htask
    have hopen := (hd.sound.linked _ _ (linkOf_eq_some.mp hlink).1).opened
    rw [hpc] at hopen
    exact .of_kept (.resume task hopen outcome)
  | command command =>
    cases hstep
    exact .queue rfl rfl rfl rfl rfl rfl (List.Subset.refl _)
  | terminal pc =>
    cases hstep
    exact .queue rfl rfl rfl rfl rfl rfl (List.Subset.refl _)
  | send peer contents segmentSize =>
    cases hstep
    unfold pollSend
    dsimp only
    split
    · exact .of_kept ⟨rfl,rfl,rfl,rfl,List.Subset.refl _,fun _ => id⟩
    · split
      · exact .queue rfl rfl rfl rfl rfl rfl (List.Subset.refl _)
      · exact .of_kept (.refl t)
  | dataChannel pc label channel =>
    cases hstep
    unfold attachIncomingChannel
    refine .of_kept ?_
    split
    · exact .updateLink _ _ _ _
    · split
      · exact .updateLink _ _ _ _
      · exact .refl t
  | message pc bytes =>
    cases hstep
    unfold onMessage
    split <;> exact .of_kept ⟨rfl,rfl,rfl,rfl,List.Subset.refl _,fun _ => id⟩
  | sessionMessage pc bytes =>
    cases hstep
    unfold onSessionMessage
    split <;> exact .of_kept ⟨rfl,rfl,rfl,rfl,List.Subset.refl _,fun _ => id⟩
  | opened pc =>
    cases hstep
    unfold onOpen
    split <;> exact .of_kept ⟨rfl,rfl,rfl,rfl,List.Subset.refl _,fun _ => id⟩
  | channels peer channel sessionChannel =>
    cases hstep
    exact .of_kept ⟨rfl,rfl,rfl,rfl,List.Subset.refl _,fun _ => id⟩
  | iceCandidate pc candidate =>
    cases hstep
    exact .of_kept (.publish _ _ _)
  | receive sizes =>
    cases hstep
    exact .of_kept ⟨rfl,rfl,rfl,rfl,List.Subset.refl _,fun _ => id⟩
  | takeSession =>
    cases hstep
    exact .of_kept ⟨rfl,rfl,rfl,rfl,List.Subset.refl _,fun _ => id⟩

/-! ### The network -/

structure Network where
  carriers : Nat → Transport
  /-- The attempts that were drawn anywhere so far. -/
  drawn : List RtcAttempt := []

namespace Network

def Event.draws : Event → List RtcAttempt
  | .next choice => [choice.attempt]
  | _ => []

/-- No signal is told that was not published for the endpoint by the one that it is said to be of,
and no attempt is drawn twice. -/
def honest (ids : Nat → EndpointId) (network : Network) (index : Nat) (event : Event) : Prop :=
  event.allowed (network.carriers index) ∧
    (∀ sender payload, (sender,payload) ∈ event.signals →
      ∃ other, ids other = sender ∧ ⟨ids index,payload⟩ ∈ (network.carriers other).outbound) ∧
    ∀ attempt ∈ Event.draws event, attempt ∉ network.drawn

def step (network : Network) (index : Nat) (event : Event) : Option Network :=
  ((network.carriers index).step event).map fun t =>
    { carriers := Function.update network.carriers index t
      drawn := network.drawn ++ Event.draws event }

inductive Reachable (ids : Nat → EndpointId) : Network → Prop where
  | start : Reachable ids { carriers := fun index => { localId := ids index } }
  | step {network network' : Network} {index : Nat} {event : Event} (h : Reachable ids network)
      (hhonest : network.honest ids index event)
      (hstep : network.step index event = some network') :
    Reachable ids network'

variable {ids : Nat → EndpointId} {network network' : Network} {index other : Nat}
  {pc' : RtcPeerConnection}

structure Consistent (ids : Nat → EndpointId) (network : Network) : Prop where
  disciplined : ∀ index, Disciplined (network.carriers index)
  traced : ∀ index, Traced (network.carriers index)
  localId : ∀ index, (network.carriers index).localId = ids index
  heard : ∀ index sender payload, (sender,payload) ∈ (network.carriers index).heard →
    ∃ other, ids other = sender ∧ ⟨ids index,payload⟩ ∈ (network.carriers other).outbound
  drawn : ∀ index, ∀ pc ∈ (network.carriers index).offerers, pc.attempt ∈ network.drawn
  unique : ∀ index other, ∀ pc ∈ (network.carriers index).offerers,
    ∀ pc' ∈ (network.carriers other).offerers, pc.attempt = pc'.attempt → index = other ∧ pc = pc'

theorem Consistent.start :
    Consistent ids { carriers := fun index => { localId := ids index } } where
  disciplined index := .init (ids index)
  traced index := .init (ids index)
  localId _ := rfl
  heard := by simp [Transport.heard]
  drawn := by simp [Transport.offerers]
  unique := by simp [Transport.offerers]

theorem Consistent.step {event : Event} (h : Consistent ids network)
    (hhonest : network.honest ids index event) (hstep : network.step index event = some network') :
    Consistent ids network' := by
  obtain ⟨hallowed,htold,hfresh⟩ := hhonest
  obtain ⟨t,ht,rfl⟩ := Option.map_eq_some_iff.mp hstep
  have hstepped := (h.disciplined index).stepped ht
  have hoffers : ∀ i, ∀ pc ∈ (Function.update network.carriers index t i).offerers,
      pc ∈ (network.carriers i).offerers ∨
        i = index ∧ pc.attempt ∈ Event.draws event ∧
          (Function.update network.carriers index t i).offerers =
            (network.carriers i).offerers ++ [pc] := by
    intro i pc hpc
    by_cases hi : i = index
    · subst hi
      rw [Function.update_self] at hpc ⊢
      rcases hstepped.offers with hsame | ⟨choice,new,rfl,hattempt,hnew⟩
      · exact .inl (hsame ▸ hpc)
      · rw [hnew] at hpc
        rcases List.mem_append.mp hpc with hold | hlast
        · exact .inl hold
        · obtain rfl := List.mem_singleton.mp hlast
          exact .inr ⟨rfl,by simp [Event.draws,hattempt],hnew⟩
    · rw [Function.update_of_ne hi] at hpc
      exact .inl hpc
  refine ⟨fun i => ?_,fun i => ?_,fun i => ?_,fun i sender payload hheard => ?_,fun i pc hpc => ?_,
    fun i j pc hpc pc' hpc' hattempt => ?_⟩
  · by_cases hi : i = index
    · subst hi
      simpa using (h.disciplined i).step ht
    · simpa [Function.update_of_ne hi] using h.disciplined i
  · by_cases hi : i = index
    · subst hi
      simpa using (h.traced i).step (h.disciplined i) hallowed ht
    · simpa [Function.update_of_ne hi] using h.traced i
  · by_cases hi : i = index
    · subst hi
      simpa using hstepped.localId.trans (h.localId i)
    · simpa [Function.update_of_ne hi] using h.localId i
  · have hbefore : ∃ other, ids other = sender ∧
        ⟨ids i,payload⟩ ∈ (network.carriers other).outbound := by
      by_cases hi : i = index
      · subst hi
        simp only [Function.update_self] at hheard
        rcases List.mem_append.mp (hstepped.heard hheard) with hold | hnew
        · exact h.heard i sender payload hold
        · exact htold sender payload hnew
      · simp only [Function.update_of_ne hi] at hheard
        exact h.heard i sender payload hheard
    obtain ⟨other,hid,hout⟩ := hbefore
    refine ⟨other,hid,?_⟩
    by_cases hother : other = index
    · subst hother
      simpa using hstepped.outbound hout
    · simpa [Function.update_of_ne hother] using hout
  · rcases hoffers i pc hpc with hold | ⟨-,hnew,-⟩
    · exact List.mem_append_left _ (h.drawn i pc hold)
    · exact List.mem_append_right _ hnew
  · rcases hoffers i pc hpc with hold | ⟨hi,hdrawn,hnew⟩ <;>
      rcases hoffers j pc' hpc' with hold' | ⟨hj,hdrawn',hnew'⟩
    · exact h.unique i j pc hold pc' hold' hattempt
    · exact absurd (hattempt ▸ h.drawn i pc hold) (hfresh _ hdrawn')
    · exact absurd (hattempt ▸ h.drawn j pc' hold') (hfresh _ hdrawn)
    · subst hi hj
      rw [hnew] at hnew'
      simpa using hnew'

theorem Reachable.consistent (h : Reachable ids network) : Consistent ids network := by
  induction h with
  | start => exact .start
  | step _ hhonest hstep ih => exact ih.step hhonest hstep

/-- A connection at the other end of the same attempt. -/
structure Counterpart (ids : Nat → EndpointId) (network : Network) (index : Nat)
    (pc : RtcPeerConnection) (other : Nat) (pc' : RtcPeerConnection) : Prop where
  made : pc' ∈ (network.carriers other).made
  endpoint : ids other = pc.peer
  addressed : pc'.peer = ids index
  attempt : pc'.attempt = pc.attempt
  role : pc'.offerer = !pc.offerer

namespace Consistent

/-- A payload that was heard of was published by a connection at the other end. -/
theorem origin {payload : RtcPayload} (h : Consistent ids network)
    (hmade : pc ∈ (network.carriers index).made) (hattempt : payload.attempt = pc.attempt)
    (hheard : (pc.peer,payload) ∈ (network.carriers index).handled) :
    ∃ other pc', Counterpart ids network index pc other pc' ∧
      ⟨ids index,payload⟩ ∈ (network.carriers other).outbound ∧
      (∀ attempt sdp, payload = .offer attempt sdp →
        Asked (network.carriers other).calls pc' (.setLocalDescription .offer (some sdp))) ∧
      ∀ attempt sdp, payload = .answer attempt sdp →
        Asked (network.carriers other).calls pc' (.setLocalDescription .answer (some sdp)) := by
  obtain ⟨other,hid,hout⟩ := h.heard index pc.peer payload (List.mem_append_left _ hheard)
  obtain ⟨pc',hmade',hpeer,hattempt',horigin⟩ := (h.traced other).sourced.published _ hout
  obtain ⟨hne,hrole⟩ := (h.traced index).sourced.roles pc hmade
  obtain ⟨-,hrole'⟩ := (h.traced other).sourced.roles pc' hmade'
  rw [h.localId] at hrole hrole' hne
  refine ⟨other,pc',⟨hmade',hid,hpeer,hattempt'.trans hattempt,?_⟩,hout,?_,?_⟩
  · rw [hrole',hrole,hpeer,hid]
    simp only [localIsOfferer]
    rcases Nat.lt_or_gt_of_ne hne with hlt | hgt
    · simp [hlt,Nat.lt_asymm hlt]
    · simp [hgt,Nat.lt_asymm hgt]
  · rintro attempt sdp rfl
    exact horigin.2
  · rintro attempt sdp rfl
    exact horigin.2

end Consistent

/-- Nothing of one attempt reaches a connection of another: an offer that is applied is the only one
of the connection at the other end, an answer was created there over this connection's own offer,
and a candidate was published there for this attempt. -/
theorem connection_has_one_attempt (h : Reachable ids network) :
    (∀ sdp, Asked (network.carriers index).calls pc (.setRemoteDescription .offer sdp) →
      ∃ other pc', Counterpart ids network index pc other pc' ∧ ∀ offer,
        Asked (network.carriers other).calls pc' (.setLocalDescription .offer offer) ↔
          offer = some sdp) ∧
    (∀ sdp, Asked (network.carriers index).calls pc (.setRemoteDescription .answer sdp) →
      ∃ other pc' offer, Counterpart ids network index pc other pc' ∧
        Asked (network.carriers other).calls pc' (.setLocalDescription .answer (some sdp)) ∧
        Asked (network.carriers other).calls pc' (.setRemoteDescription .offer offer) ∧
        Asked (network.carriers index).calls pc (.setLocalDescription .offer (some offer))) ∧
    ∀ candidate, Asked (network.carriers index).calls pc (.addIceCandidate candidate) →
      ∃ other pc', Counterpart ids network index pc other pc' ∧
        ⟨ids index,.ice pc.attempt candidate⟩ ∈ (network.carriers other).outbound := by
  have hconsistent := h.consistent
  have hoffered : ∀ {index pc sdp},
      Asked (network.carriers index).calls pc (.setRemoteDescription .offer sdp) →
        ∃ other pc', Counterpart ids network index pc other pc' ∧
          Asked (network.carriers other).calls pc' (.setLocalDescription .offer (some sdp)) := by
    intro index pc sdp hasked
    obtain ⟨hmade,-,hhandled⟩ := (hconsistent.traced index).sourced.caused _ _ hasked
    obtain ⟨other,pc',hcounterpart,-,hoffer,-⟩ := hconsistent.origin hmade rfl hhandled
    exact ⟨other,pc',hcounterpart,hoffer _ _ rfl⟩
  refine ⟨fun sdp hasked => ?_,fun sdp hasked => ?_,fun candidate hasked => ?_⟩
  · obtain ⟨other,pc',hcounterpart,hoffer⟩ := hoffered hasked
    refine ⟨other,pc',hcounterpart,fun offer => ⟨fun hother => ?_,?_⟩⟩
    · exact (hconsistent.traced other).sourced.oneOffer pc' _ _ hother hoffer
    · rintro rfl
      exact hoffer
  · obtain ⟨hmade,hrole,hhandled⟩ := (hconsistent.traced index).sourced.caused _ _ hasked
    obtain ⟨other,pc',hcounterpart,-,-,hanswer⟩ := hconsistent.origin hmade rfl hhandled
    have hanswer := hanswer _ _ rfl
    obtain ⟨-,offer,hoffer⟩ := (hconsistent.traced other).sourced.caused _ _ hanswer
    obtain ⟨third,pc'',hcounterpart',hlocal⟩ := hoffered hoffer
    -- The attempt was offered once, so the other end's offer is this connection's.
    have hfirst : pc ∈ (network.carriers index).offerers := List.mem_filter.mpr ⟨hmade,hrole⟩
    have hsecond : pc'' ∈ (network.carriers third).offerers :=
      List.mem_filter.mpr ⟨hcounterpart'.made,by
        rw [hcounterpart'.role,hcounterpart.role,hrole]; rfl⟩
    obtain ⟨rfl,rfl⟩ := hconsistent.unique _ _ _ hfirst _ hsecond
      (hcounterpart'.attempt.trans hcounterpart.attempt).symm
    exact ⟨other,pc',offer,hcounterpart,hanswer,hoffer,hlocal⟩
  · obtain ⟨hmade,hhandled⟩ := (hconsistent.traced index).sourced.caused _ _ hasked
    obtain ⟨other,pc',hcounterpart,hout,-,-⟩ := hconsistent.origin hmade rfl hhandled
    exact ⟨other,pc',hcounterpart,hout⟩

/-! ### A run that can be evaluated -/

instance (calls : List PcRecord) (pc : RtcPeerConnection) (call : PcCall) :
    Decidable (Asked calls pc call) :=
  decidable_of_iff (∃ entry ∈ calls, entry.pc = pc ∧ entry.call = call)
    (by
      refine ⟨?_,?_⟩
      · rintro ⟨entry,hentry,rfl,rfl⟩
        exact ⟨entry.found,hentry⟩
      · rintro ⟨found,hfound⟩
        exact ⟨⟨pc,found,call⟩,hfound,rfl,rfl⟩)

/-- Whether a step is honest, where its signals are said to be published by the carrier `source`. -/
def checks (ids : Nat → EndpointId) (network : Network) (index source : Nat) (event : Event) :
    Bool :=
  decide (event.allowed (network.carriers index)) &&
    (event.signals.all fun signal => ids source = signal.1 ∧
      ⟨ids index,signal.2⟩ ∈ (network.carriers source).outbound) &&
    (Event.draws event).all fun attempt => !network.drawn.contains attempt

def replay (ids : Nat → EndpointId) : List (Nat × Nat × Event) → Network → Option Network
  | [], network => some network
  | (index,source,event) :: events, network =>
    if network.checks ids index source event then
      (network.step index event).bind (replay ids events)
    else none

theorem honest_of_checks {source : Nat} {event : Event}
    (h : network.checks ids index source event = true) : network.honest ids index event := by
  simp only [checks,Bool.and_eq_true,decide_eq_true_eq,List.all_eq_true,Bool.not_eq_true',
    List.contains_eq_mem,decide_eq_false_iff_not] at h
  obtain ⟨⟨hallowed,hsignals⟩,hfresh⟩ := h
  refine ⟨hallowed,fun sender payload hsignal => ?_,hfresh⟩
  obtain ⟨hsource,hout⟩ := hsignals _ hsignal
  exact ⟨source,hsource,hout⟩

theorem Reachable.replay {events : List (Nat × Nat × Event)} (h : Reachable ids network)
    (hreplay : network.replay ids events = some network') : Reachable ids network' := by
  induction events generalizing network with
  | nil =>
    cases hreplay
    exact h
  | cons next events ih =>
    obtain ⟨index,source,event⟩ := next
    simp only [Network.replay] at hreplay
    split at hreplay
    · rename_i hchecks
      obtain ⟨after,hstep,hrest⟩ := Option.bind_eq_some_iff.mp hreplay
      exact ih (h.step (honest_of_checks hchecks) hstep) hrest
    · cases hreplay

/-- A dial, its offer and the answer; the offerer's own candidate arrives before its offer does. -/
def handshake : List (Nat × Nat × Event) :=
  let attempt : RtcAttempt := #v[1,2,3,4,5,6,7,8]
  let candidate : IceCandidate := ⟨"candidate",none,some 0⟩
  [(0,0,.command (.dial 1)),(0,0,.next ⟨attempt,true⟩),
    (0,0,.resolve (.fulfilled (some "offer"))),(0,0,.resolve (.fulfilled none)),
    (0,0,.iceCandidate ⟨0,1,attempt,true⟩ candidate),
    (1,0,.command (.signal 0 (.ice attempt candidate))),(1,0,.next ⟨#v[0,0,0,0,0,0,0,1],true⟩),
    (1,0,.command (.signal 0 (.offer attempt "offer"))),(1,0,.next ⟨#v[0,0,0,0,0,0,0,2],true⟩),
    (1,0,.resolve (.fulfilled none)),(1,0,.resolve (.fulfilled none)),
    (1,0,.resolve (.fulfilled (some "answer"))),(1,0,.resolve (.fulfilled none)),
    (0,1,.command (.signal 1 (.answer attempt "answer"))),
    (0,0,.next ⟨#v[0,0,0,0,0,0,0,3],true⟩),(0,0,.resolve (.fulfilled none))]

theorem connection_has_one_attempt_handshake :
    ∃ network, Reachable id network ∧
      (∃ other pc', Counterpart id network 1 ⟨0,0,#v[1,2,3,4,5,6,7,8],false⟩ other pc' ∧
        ⟨1,.ice #v[1,2,3,4,5,6,7,8] ⟨"candidate",none,some 0⟩⟩ ∈
          (network.carriers other).outbound) ∧
      ∃ other pc' offer, Counterpart id network 0 ⟨0,1,#v[1,2,3,4,5,6,7,8],true⟩ other pc' ∧
        Asked (network.carriers other).calls pc' (.setLocalDescription .answer (some "answer")) ∧
        Asked (network.carriers other).calls pc' (.setRemoteDescription .offer offer) ∧
        Asked (network.carriers 0).calls ⟨0,1,#v[1,2,3,4,5,6,7,8],true⟩
          (.setLocalDescription .offer (some offer)) := by
  have hrun : (replay id handshake { carriers := fun index => { localId := index } }).any
      (fun network =>
        Asked (network.carriers 1).calls ⟨0,0,#v[1,2,3,4,5,6,7,8],false⟩
          (.addIceCandidate ⟨"candidate",none,some 0⟩) ∧
        Asked (network.carriers 0).calls ⟨0,1,#v[1,2,3,4,5,6,7,8],true⟩
          (.setRemoteDescription .answer "answer")) = true := by decide
  obtain ⟨network,hreplay,hasked⟩ := (Option.any_eq_true _ _).mp hrun
  obtain ⟨hadded,hanswered⟩ := of_decide_eq_true hasked
  have hreachable : Reachable id network := Reachable.start.replay hreplay
  exact ⟨network,hreachable,(connection_has_one_attempt hreachable).2.2 _ hadded,
    (connection_has_one_attempt hreachable).2.1 _ hanswered⟩

end Network

end WalkieSongie.Net.WebRtc
