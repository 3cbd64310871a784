import WalkieSongie.ReificationMoves
set_option autoImplicit false

/-! What one session does to its waiting edits: it mints one, or it lets some go. -/

namespace WalkieSongie.Session
open TaskProgram

variable {L : SessionLibrary} {α β : Type} {active : ActiveSession L}

section Promises

namespace SessionLibrary

/-- A packet was sealed under a counter, and has come back to its own sender. -/
def SealedUnder (L : SessionLibrary) (lanes : L.Lanes) (counter : Nat) (received : L.Received)
    (after : L.Lanes) : Prop :=
  ∃ cut time header payload packet opened frame decoded,
    L.sealHeader lanes counter cut time = .ok header ∧
    L.sealPacket header payload lanes = .ok packet opened ∧
    L.encodeSent opened packet = .ok frame ∧ L.decodeSent opened frame = .ok decoded ∧
    L.receiveEcho decoded opened = .ok received after

/-- What the waiting edits rely on: a plan is for the dot it was made for, an event sealed within
the budget bears the next counter, and what is received does not count as sealed. -/
structure EditPromises (L : SessionLibrary) : Prop where
  planned : ∀ kernel dot planner plan after,
    L.plan kernel dot planner = .ok plan after → (L.planCorrelation plan).dot = dot
  budget : ∀ lanes, L.remainingCausalEvents lanes ≠ 0 → L.highestSealedCounter lanes+1 < 2^32
  counted : ∀ lanes received after, L.remainingCausalEvents lanes ≠ 0 →
    L.SealedUnder lanes (L.highestSealedCounter lanes+1) received after →
      L.highestSealedCounter after = L.highestSealedCounter lanes+1
  numbered : ∀ lanes received after decode event session now length permitted,
    L.remainingCausalEvents lanes ≠ 0 →
    L.SealedUnder lanes (L.highestSealedCounter lanes+1) received after →
    L.tryDecode received decode = .ok event →
    L.permitEvent session now event length = .ok permitted →
      (L.permittedDot permitted).counter = L.highestSealedCounter lanes+1
  received : ∀ packet lanes,
    Post (fun _ after => L.highestSealedCounter after = L.highestSealedCounter lanes)
      (fun _ after => L.highestSealedCounter after = L.highestSealedCounter lanes)
      (L.receivePacket packet lanes)

end SessionLibrary

end Promises

section Lets

theorem Post.checking {checked : Except String β} {next : β → ActiveM L α}
    {Q : α → ActiveSession L → Prop} {E : String → ActiveSession L → Prop}
    (hok : ∀ value, checked = .ok value → Post Q E (next value active))
    (herror : ∀ message, checked = .error message → E message active) :
    Post Q E ((orThrow checked >>= next) active) := by
  cases checked with
  | ok value => exact hok value rfl
  | error message => exact herror message rfl

/-- The dots that the planner plans now, in order, and whether it comes through them all. -/
def SessionLibrary.plannable (L : SessionLibrary) (kernel : L.SessionKernel) :
    List SessionDot → L.ReificationPlanner → List SessionDot × Bool
  | [],_ => ([],true)
  | dot :: rest,planner => match L.plan kernel dot planner with
      | .ok _ next => (dot :: (L.plannable kernel rest next).1,(L.plannable kernel rest next).2)
      | .error .unreifiedDependency next => L.plannable kernel rest next
      | .error (.other _) _ => ([],false)

def ActiveSession.plannable (active : ActiveSession L) : List SessionDot × Bool :=
  L.plannable active.kernel active.awaitingReification.keys active.planner

theorem plannable_sublist (kernel : L.SessionKernel) (dots : List SessionDot)
    (planner : L.ReificationPlanner) : (L.plannable kernel dots planner).1.Sublist dots := by
  induction dots generalizing planner with
  | nil => exact List.Sublist.refl []
  | cons dot rest ih =>
    unfold SessionLibrary.plannable
    cases L.plan kernel dot planner with
    | ok plan next => exact (ih next).cons_cons dot
    | error error next => cases error with
      | unreifiedDependency => exact (ih next).cons dot
      | other message => exact List.nil_sublist _

def readyDot (ready : ReadyReification L) : SessionDot := (L.planCorrelation ready.1).dot

theorem letsGo_erase (active : ActiveSession L) (dot : SessionDot) :
    LetsGo [dot] active { active with
      awaitingReification := active.awaitingReification.erase dot } := by
  refine ⟨⟨⟨rfl,rfl,_,_,_,rfl⟩,le_rfl⟩,fun other => ?_⟩
  rw [Std.ExtTreeMap.mem_erase,ne_eq,Std.LawfulEqCmp.compare_eq_iff_eq,List.mem_singleton,
    eq_comm (a := other),and_comm]

/-- These dots have been planned, and do not wait any more. -/
structure Readies (planned : List SessionDot × Bool) (before : ActiveSession L)
    (ready : List (ReadyReification L)) (after : ActiveSession L) : Prop where
  lets : LetsGo planned.1 before after
  dots : ready.map readyDot = planned.1
  whole : planned.2 = true

/-- The planner has come to another error; if it had planned none, none was let go. -/
structure Stalls (planned : List SessionDot × Bool) (before after : ActiveSession L) : Prop where
  broken : planned.2 = false
  still : planned.1 = [] → LetsGo [] before after

theorem retryDots_ends (hpromises : L.EditPromises) {dots : List SessionDot} (hnodup : dots.Nodup)
    (active : ActiveSession L) (hwaiting : ∀ dot ∈ dots, dot ∈ active.awaitingReification) :
    Post (fun ready after => Readies (L.plannable active.kernel dots active.planner) active ready
        after)
      (fun _ after => Stalls (L.plannable active.kernel dots active.planner) active after)
      (retryDots dots active) := by
  induction dots generalizing active with
  | nil => exact ⟨letsGo_background.refl active,rfl,rfl⟩
  | cons dot rest ih =>
    obtain ⟨hdot,hrest⟩ := List.nodup_cons.mp hnodup
    simp only [retryDots,SessionLibrary.plannable]
    cases hplan : L.plan active.kernel dot active.planner with
    | error error next =>
      have hasked : LetsGo [] active { active with planner := next } :=
        letsGo_background.planner next active
      have hrun : planDot dot active = .ok (.error error) { active with planner := next } := by
        simp only [planDot,hplan]
      rw [bind_of_ok hrun]
      cases error with
      | other message => exact ⟨rfl,fun _ => hasked⟩
      | unreifiedDependency =>
        refine Post.mono (ih hrest { active with planner := next } fun other hmem =>
          hwaiting other (List.mem_cons_of_mem dot hmem)) (fun ready after h => ?_) fun _ _ h => ?_
        · exact ⟨hasked.trans h.lets,h.dots,h.whole⟩
        · exact ⟨h.broken,fun hnone => hasked.trans (h.still hnone)⟩
    | ok plan next =>
      have hasked : LetsGo [] active { active with planner := next } :=
        letsGo_background.planner next active
      have hrun : planDot dot active = .ok (.ok plan) { active with planner := next } := by
        simp only [planDot,hplan]
      rw [bind_of_ok hrun]
      refine Post.getting ?_
      have hmine := hwaiting dot List.mem_cons_self
      rw [Std.ExtTreeMap.mem_iff_isSome_getElem?] at hmine
      obtain ⟨⟨command,intentToken⟩,hfound⟩ := Option.isSome_iff_exists.mp hmine
      simp only [hfound]
      have herase := hasked.trans (letsGo_erase { active with planner := next } dot)
      have hothers : ∀ other ∈ rest, other ∈ active.awaitingReification.erase dot := by
        intro other hmem
        rw [Std.ExtTreeMap.mem_erase,ne_eq,Std.LawfulEqCmp.compare_eq_iff_eq]
        exact ⟨fun hsame => hdot (hsame ▸ hmem),hwaiting other (List.mem_cons_of_mem dot hmem)⟩
      refine Post.modifying (Post.bind (Post.mono (ih hrest _ hothers) (fun _ _ h => h)
        fun _ _ h => ⟨h.broken,fun hnone => absurd hnone (by simp)⟩) fun ready after h => ?_)
      have hsame : readyDot (L := L) (plan,command,intentToken) = dot :=
        hpromises.planned _ _ _ _ _ hplan
      exact ⟨herase.trans h.lets,by rw [List.map_cons,hsame,h.dots],h.whole⟩

theorem nodup_waiting (active : ActiveSession L) : active.awaitingReification.keys.Nodup := by
  refine active.awaitingReification.distinct_keys.imp fun {first second} h => ?_
  rintro rfl
  exact h Std.ReflCmp.compare_self

/-- These edits were waiting and are not any more; no dot is let go twice. -/
structure LetsOut (before : ActiveSession L) (ready : List (ReadyReification L))
    (after : ActiveSession L) : Prop where
  lets : LetsGo (ready.map readyDot) before after
  once : (ready.map readyDot).Nodup
  waiting : ∀ dot ∈ ready.map readyDot, dot ∈ before.awaitingReification

theorem retryReifications_ends (hpromises : L.EditPromises) (active : ActiveSession L) :
    Post (fun ready after => LetsOut active ready after ∧
        ready.map readyDot = active.plannable.1 ∧ active.plannable.2 = true)
      (fun _ after => Stalls active.plannable active after) (retryReifications active) := by
  refine Post.getting (Post.mono (retryDots_ends hpromises (nodup_waiting active) active
    fun dot hmem => Std.ExtTreeMap.mem_keys.mp hmem) (fun ready after h => ?_) fun _ _ h => h)
  have hamong := plannable_sublist active.kernel active.awaitingReification.keys active.planner
  have hdots : ready.map readyDot = active.plannable.1 := h.dots
  refine ⟨⟨hdots ▸ h.lets,hdots ▸ hamong.nodup (nodup_waiting active),fun dot hmem => ?_⟩,
    hdots,h.whole⟩
  exact Std.ExtTreeMap.mem_keys.mp (hamong.subset (hdots ▸ hmem))

theorem recordPlanned_stays (plan : L.ReificationPlan) (entry : L.Entry)
    (replica : L.SessionAdmission) : Stays (LetsGo []) (recordPlanned plan entry replica) :=
  letsGo_background.onPlanner _

theorem recordObserved_stays (entry : L.Entry) (replica : L.SessionAdmission) :
    Stays (LetsGo []) (recordObserved (L := L) entry replica) :=
  Stays.get fun _ => letsGo_background.onPlanner _

theorem recordAndConfirm_stays {record : L.SessionAdmission → ActiveM L L.SessionAdmission}
    (hrecord : ∀ replica, Stays (LetsGo []) (record replica)) (admitted : AdmittedEntry L) :
    Stays (LetsGo []) (recordAndConfirm record admitted) :=
  letsGo_background.bind (letsGo_background.orThrow _) fun replica =>
    letsGo_background.bind (hrecord replica) fun _ => letsGo_background.confirm _ _ _ _

/-- Unless the planner fails after it has planned a waiting edit, an admission that fails lets
none go. -/
theorem takeAdmission_ends (hpromises : L.EditPromises)
    {record : L.SessionAdmission → ActiveM L L.SessionAdmission}
    (hrecord : ∀ replica, Stays (LetsGo []) (record replica)) (admitted : AdmittedEntry L)
    (hwhole : ∀ kind taken, recordAndConfirm record admitted active = .ok kind taken →
      taken.plannable.1 ≠ [] → taken.plannable.2 = true) :
    Post (fun finished after => LetsOut active finished.1 after ∧ ∃ kind taken,
        recordAndConfirm record admitted active = .ok kind taken ∧
          finished.1.map readyDot = taken.plannable.1)
      (fun _ => LetsGo [] active) (takeAdmission record admitted active) := by
  have hstays := recordAndConfirm_stays hrecord admitted active
  cases hrun : recordAndConfirm record admitted active with
  | error message taken =>
    rw [hrun] at hstays
    rw [takeAdmission_of_error hrun]
    exact hstays
  | ok kind taken =>
    rw [hrun] at hstays
    have hretried := retryReifications_ends hpromises taken
    cases hretry : retryReifications taken with
    | error message after =>
      rw [hretry] at hretried
      rw [takeAdmission_of_retry_error hrun hretry]
      refine hstays.trans (hretried.still ?_)
      by_contra hsome
      exact absurd (hwhole kind taken hrun hsome) (Bool.eq_false_iff.mp hretried.broken)
    | ok ready after =>
      rw [hretry] at hretried
      obtain ⟨hout,hdots,-⟩ := hretried
      rw [takeAdmission_of_ok hrun hretry]
      refine ⟨⟨hstays.trans hout.lets,hout.once,fun dot hmem => ?_⟩,kind,taken,rfl,hdots⟩
      exact ((hstays.waiting dot).mp (hout.waiting dot hmem)).1

end Lets

section Mints

/-- A new edit of a session, with its plan or in its wait. -/
structure Edits (before : ActiveSession L) (event : LocalSessionEvent L)
    (after : ActiveSession L) : Prop where
  continues : Continues before after
  fresh : L.highestSealedCounter before.lanes < event.dot.counter
  sealed : event.dot.counter ≤ L.highestSealedCounter after.lanes
  planned : ∀ plan, event.plan = some plan →
    (L.planCorrelation plan).dot = event.dot ∧ LetsGo [] before after
  waits : event.plan = none → ∀ dot, dot ∈ after.awaitingReification ↔
    dot ∈ before.awaitingReification ∨ dot = event.dot

theorem saturatingSucc_of_budget (hpromises : L.EditPromises) {lanes : L.Lanes}
    (h : L.remainingCausalEvents lanes ≠ 0) :
    saturatingSucc 32 (L.highestSealedCounter lanes) = L.highestSealedCounter lanes+1 := by
  have hbudget := hpromises.budget lanes h
  unfold saturatingSucc
  omega

theorem preflightLocalEvent_ok (h : active.preflightLocalEvent = .ok ()) :
    L.remainingCausalEvents active.lanes ≠ 0 := by
  obtain ⟨_,hsaturated,-⟩ := bind_eq_ok.mp h
  have hopen := refuseIf_eq_ok.mp hsaturated
  simp only [ActiveSession.isSaturated,Bool.or_eq_true,decide_eq_true_eq,not_or] at hopen
  exact hopen.1

theorem onLanes_ends (program : EStateM String L.Lanes α) :
    Post (fun value after => ∃ lanes, program active.lanes = .ok value lanes ∧
        after = { active with lanes := lanes })
      (fun message after => ∃ lanes, program active.lanes = .error message lanes ∧
        after = { active with lanes := lanes }) (onLanes program active) := by
  refine Post.onPart ?_
  cases hrun : program active.lanes with
  | ok value lanes => exact ⟨lanes,rfl,rfl⟩
  | error message lanes => exact ⟨lanes,rfl,rfl⟩

theorem sealLocal_ends (command : MusicOp) :
    Post (fun sealed after => L.SealedUnder active.lanes
          (saturatingSucc 32 (L.highestSealedCounter active.lanes)) sealed.2 after.lanes ∧
        KeepsSession active after ∧ after.awaitingReification = active.awaitingReification)
      (fun _ _ => True) (sealLocal command active) := by
  refine Post.modifying (Post.getting (Post.checking (fun header hheader => ?_) fun _ _ => trivial))
  refine Post.checking (fun payload _ => ?_) fun _ _ => trivial
  refine Post.bind (Post.mono (onLanes_ends _) (fun _ _ h => h) fun _ _ _ => trivial)
    fun packet opened ⟨lanes,hpacket,hopened⟩ => ?_
  subst hopened
  refine Post.getting (Post.checking (fun frame hframe => ?_) fun _ _ => trivial)
  refine Post.checking (fun decoded hdecoded => ?_) fun _ _ => trivial
  refine Post.bind (Post.mono (onLanes_ends _) (fun _ _ h => h) fun _ _ _ => trivial)
    fun received echoed ⟨last,hreceived,hechoed⟩ => ?_
  subst hechoed
  exact ⟨⟨_,_,header,payload,packet,lanes,frame,decoded,hheader,hpacket,hframe,hdecoded,hreceived⟩,
    ⟨rfl,rfl,_,_,_,rfl⟩,rfl⟩

theorem permitLocal_ends (hpromises : L.EditPromises) (command : MusicOp) (ticks : Nat) :
    Post (fun sealed after => LetsGo [] active after ∧
        (L.permittedDot sealed.2).counter = L.highestSealedCounter active.lanes+1 ∧
        L.highestSealedCounter after.lanes = L.highestSealedCounter active.lanes+1)
      (fun _ _ => True) (permitLocal command ticks active) := by
  refine Post.getting (Post.checking (fun _ hopen => ?_) fun _ _ => trivial)
  have hbudget := preflightLocalEvent_ok hopen
  have hnext := saturatingSucc_of_budget hpromises hbudget
  refine Post.bind (sealLocal_ends command) fun sealed echoed ⟨hsealed,hkeeps,hwaiting⟩ => ?_
  rw [hnext] at hsealed
  have hcounted := hpromises.counted _ _ _ hbudget hsealed
  have hechoed : LetsGo [] active echoed := .of_same ⟨hkeeps,by omega⟩ hwaiting
  refine Post.bind (R := fun _ after => LetsGo [] active after ∧
      L.highestSealedCounter after.lanes = L.highestSealedCounter active.lanes+1) ?_
    fun receiverNow read ⟨hread,hhighest⟩ => ?_
  · refine Post.getting (Post.refuseIf (fun _ => trivial) fun _ => Post.modifying ⟨?_,?_⟩)
    · exact hechoed.trans (letsGo_background.clock ticks echoed)
    · exact hcounted
  · refine Post.checking (fun event hevent => Post.getting ?_) fun _ _ => trivial
    refine Post.checking (fun permitted hpermitted => ?_) fun _ _ => trivial
    exact ⟨hread,hpromises.numbered _ _ _ _ _ _ _ _ _ hbudget hsealed hevent hpermitted,hhighest⟩

theorem planDot_ends (hpromises : L.EditPromises) (dot : SessionDot) :
    Post (fun planned after => LetsGo [] active after ∧
        ∀ plan, planned = .ok plan → (L.planCorrelation plan).dot = dot)
      (fun _ _ => False) (planDot dot active) := by
  unfold planDot
  cases hplan : L.plan active.kernel dot active.planner with
  | ok plan planner =>
    refine ⟨letsGo_background.planner planner active,fun other hother => ?_⟩
    cases hother
    exact hpromises.planned _ _ _ _ _ hplan
  | error error planner =>
    exact ⟨letsGo_background.planner planner active,fun _ hother => by cases hother⟩

theorem localEvent_edits (hpromises : L.EditPromises) (command : MusicOp)
    (intentToken : PerformanceIntentToken) (ticks : Nat) :
    Post (fun event after => Edits active event after) (fun _ _ => True)
      (localEvent command intentToken ticks active) := by
  rw [localEvent_eq]
  refine Post.bind (permitLocal_ends hpromises command ticks)
    fun sealed permitted ⟨hpermitted,hcounter,hhighest⟩ => ?_
  refine Post.bind (Post.mono (letsGo_background.ingest sealed.2 permitted) (fun _ _ h => h)
    fun _ _ _ => trivial) fun _ ingested hingested => ?_
  have hstays := hpermitted.trans hingested
  have hsealed := hingested.continues.sealed
  refine Post.bind (R := fun plan after => Edits active
    ⟨command,sealed.1,plan,L.permittedDot sealed.2⟩ after) ?_ fun _ _ h => h
  refine Post.bind (Post.mono (planDot_ends hpromises _) (fun _ _ h => h) fun _ _ h => h.elim)
    fun planned asked ⟨hasked,hplan⟩ => ?_
  have hlast := hstays.trans hasked
  have hfresh : L.highestSealedCounter active.lanes < (L.permittedDot sealed.2).counter := by omega
  have hcounted : (L.permittedDot sealed.2).counter ≤ L.highestSealedCounter asked.lanes := by
    have hlater := hasked.continues.sealed
    omega
  match planned with
  | .ok plan =>
    refine ⟨hlast.continues,hfresh,hcounted,fun other hother => ?_,
      fun hnone => absurd hnone (by simp)⟩
    cases hother
    exact ⟨hplan plan rfl,hlast⟩
  | .error (.other message) => trivial
  | .error .unreifiedDependency =>
    refine Post.modifying ⟨⟨KeepsSession.trans _ _ _ hlast.continues.keeps ⟨rfl,rfl,_,_,_,rfl⟩,
      hlast.continues.sealed⟩,hfresh,hcounted,fun _ hsome => absurd hsome (by simp),
      fun _ dot => ?_⟩
    rw [Std.ExtTreeMap.mem_insert,Std.LawfulEqCmp.compare_eq_iff_eq,hlast.waiting,eq_comm,or_comm]
    simp

end Mints

end WalkieSongie.Session
