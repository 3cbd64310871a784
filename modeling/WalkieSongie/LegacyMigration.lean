import Mathlib.Data.List.Basic
set_option autoImplicit false

/-!
The one-way migration of a pre-sealed browser log: which transactions are still to be appended to
the new log, and that a plan cut short anywhere is taken up where it stopped.
-/

namespace WalkieSongie.Migration

/-- What the planner takes from the storage crate: a memory storage as a deterministic transition,
its recovery state, and the encoding of transactions. -/
structure StorageLibrary where
  Transaction : Type
  Storage : Type
  RecoveryState : Type
  Encoded : Type
  stateEq : DecidableEq RecoveryState
  encodedEq : DecidableEq Encoded
  new : Storage
  commit : Storage → Transaction → Except String Storage
  recoveryState : Storage → RecoveryState
  encode : Transaction → Encoded
  usizeMax : Nat

attribute [instance] StorageLibrary.stateEq StorageLibrary.encodedEq

variable {S : StorageLibrary}

inductive LegacyMigrationSource where
  | trustedRoot
  | legacy (physicalIndex : Nat)
  deriving DecidableEq

structure LegacyMigrationAppend (S : StorageLibrary) where
  source : LegacyMigrationSource
  expectedState : S.RecoveryState

def LegacyMigrationSource.transaction (trustedRoot : S.Transaction) (legacy : List S.Transaction) :
    LegacyMigrationSource → Option S.Transaction
  | .trustedRoot => some trustedRoot
  | .legacy physicalIndex => legacy[physicalIndex]?

section Plan

variable (total : Nat) (retained : List S.Transaction)

/-- A row with an effect is in the retained log already, or is appended. -/
def planRow (transaction : S.Transaction) (physicalIndex logicalIndex : Nat)
    (after : S.RecoveryState) (appends : List (LegacyMigrationAppend S)) :
    Except String (List (LegacyMigrationAppend S)) :=
  match retained[logicalIndex]? with
  | some existing =>
    if S.encode existing ≠ S.encode transaction then
      .error s!"sealed Room-v5 log diverges from legacy prefix at {logicalIndex}"
    else .ok appends
  | none => .ok (appends ++ [⟨.legacy physicalIndex,after⟩])

def planRows : List S.Transaction → Nat → Nat → S.Storage → List (LegacyMigrationAppend S) →
    Except String (List (LegacyMigrationAppend S))
  | [],_,_,_,appends => .ok appends
  | transaction :: rows,physicalIndex,logicalIndex,replay,appends =>
    match S.commit replay transaction with
    | .error error => .error s!"invalid legacy Room-v5 transaction: {error}"
    | .ok after =>
      if S.recoveryState after = S.recoveryState replay then
        if physicalIndex+1 ≠ total then
          .error s!"legacy Room-v5 log has a no-effect row before its tail at {physicalIndex}"
        else planRows rows (physicalIndex+1) logicalIndex after appends
      else
        match planRow retained transaction physicalIndex logicalIndex (S.recoveryState after)
            appends with
        | .error error => .error error
        | .ok appends =>
          if S.usizeMax < logicalIndex+1 then
            .error "legacy Room-v5 logical sequence overflow"
          else planRows rows (physicalIndex+1) (logicalIndex+1) after appends

end Plan

/-- Which suffix of the legacy placement, if any, is still to be appended to the new log. -/
def planMigration (trustedRoot : S.Transaction) (legacy retained : List S.Transaction) :
    Except String (List (LegacyMigrationAppend S)) :=
  match S.commit S.new trustedRoot with
  | .error error => .error s!"invalid trusted-root transaction: {error}"
  | .ok replay =>
    match retained with
    | existing :: _ =>
      if S.encode existing ≠ S.encode trustedRoot then
        .error "sealed Room-v5 log has the wrong trusted-root transaction"
      else planRows legacy.length retained legacy 0 1 replay []
    | [] =>
      planRows legacy.length [] legacy 0 1 replay [⟨.trustedRoot,S.recoveryState replay⟩]

section Log

/-- The storage that the transactions leave, one after the other. -/
def replayFrom (storage : S.Storage) : List S.Transaction → Except String S.Storage
  | [] => .ok storage
  | transaction :: rows =>
    match S.commit storage transaction with
    | .error error => .error error
    | .ok after => replayFrom after rows

/-- The rows without the last one, where that has no effect. -/
def withoutIdleTail (storage : S.Storage) : List S.Transaction → List S.Transaction
  | [] => []
  | transaction :: rows =>
    match S.commit storage transaction with
    | .error _ => transaction :: rows
    | .ok after =>
      if rows = [] ∧ S.recoveryState after = S.recoveryState storage then []
      else transaction :: withoutIdleTail after rows

/-- The root followed by the legacy rows, except a last one without effect. -/
def migratedLog (trustedRoot : S.Transaction) (legacy : List S.Transaction) :
    List S.Transaction :=
  match S.commit S.new trustedRoot with
  | .error _ => trustedRoot :: legacy
  | .ok replay => trustedRoot :: withoutIdleTail replay legacy

end Log

section Chart

/-- Every row of the placement with the append that would put it there, none retained. -/
def chartRows (total : Nat) : List S.Transaction → Nat → Nat → S.Storage →
    Except String (List (S.Transaction × LegacyMigrationAppend S))
  | [],_,_,_ => .ok []
  | transaction :: rows,physicalIndex,logicalIndex,replay =>
    match S.commit replay transaction with
    | .error error => .error error
    | .ok after =>
      if S.recoveryState after = S.recoveryState replay then
        if physicalIndex+1 ≠ total then .error "idle row"
        else chartRows total rows (physicalIndex+1) logicalIndex after
      else if S.usizeMax < logicalIndex+1 then .error "overflow"
      else (chartRows total rows (physicalIndex+1) (logicalIndex+1) after).map fun chart =>
        (transaction,⟨.legacy physicalIndex,S.recoveryState after⟩) :: chart

def chartMigration (trustedRoot : S.Transaction) (legacy : List S.Transaction) :
    Except String (List (S.Transaction × LegacyMigrationAppend S)) :=
  match S.commit S.new trustedRoot with
  | .error error => .error error
  | .ok replay => (chartRows legacy.length legacy 0 1 replay).map fun chart =>
      (trustedRoot,⟨.trustedRoot,S.recoveryState replay⟩) :: chart

/-- What is retained is encoded as the chart's rows are, as far as both go. -/
def Agrees (chart : List (S.Transaction × LegacyMigrationAppend S))
    (retained : List S.Transaction) : Prop :=
  ∀ (index : Nat) existing row, retained[index]? = some existing → chart[index]? = some row →
    S.encode existing = S.encode row.1

theorem map_ok {ε α β : Type} {f : α → β} {result : Except ε α} {value : β}
    (h : result.map f = .ok value) : ∃ found, result = .ok found ∧ f found = value := by
  cases result with
  | error error => cases h
  | ok found => exact ⟨found,rfl,Except.ok.inj h⟩

variable {total physicalIndex logicalIndex : Nat} {retained rows : List S.Transaction}
  {replay : S.Storage} {appends plan : List (LegacyMigrationAppend S)}
  {chart : List (S.Transaction × LegacyMigrationAppend S)}

theorem drop_drop_cons {α : Type} (row : α) (chart : List α) {length index : Nat}
    (h : index < length) : (row :: chart).drop (length-index) = chart.drop (length-(index+1)) := by
  obtain ⟨count,rfl⟩ := Nat.exists_eq_add_of_lt h
  have hhead : index+count+1-index = count+1 := by omega
  have htail : index+count+1-(index+1) = count := by omega
  rw [hhead,htail,List.drop_succ_cons]

theorem agrees_cons {row : S.Transaction × LegacyMigrationAppend S} :
    Agrees (row :: chart) (retained.drop logicalIndex) ↔
      (∀ existing, retained[logicalIndex]? = some existing →
        S.encode existing = S.encode row.1) ∧ Agrees chart (retained.drop (logicalIndex+1)) := by
  constructor
  · intro h
    refine ⟨fun existing hexisting => ?_,fun index existing other hexisting hother => ?_⟩
    · exact h 0 existing row (by simpa using hexisting) rfl
    · refine h (index+1) existing other ?_ (by simpa using hother)
      rw [List.getElem?_drop] at hexisting ⊢
      rwa [show logicalIndex+(index+1) = logicalIndex+1+index by omega]
  · rintro ⟨hfirst,hrest⟩ index existing other hexisting hother
    cases index with
    | zero =>
      simp only [List.getElem?_cons_zero,Option.some.injEq] at hother
      subst other
      exact hfirst existing (by simpa using hexisting)
    | succ index =>
      refine hrest index existing other ?_ (by simpa using hother)
      rw [List.getElem?_drop] at hexisting ⊢
      rwa [show logicalIndex+1+index = logicalIndex+(index+1) by omega]

/-- The plan for the rows is the rest of their chart, where what is retained agrees with it. -/
theorem planRows_eq_ok (appends : List (LegacyMigrationAppend S)) :
    planRows total retained rows physicalIndex logicalIndex replay appends = .ok plan ↔
      ∃ chart, chartRows total rows physicalIndex logicalIndex replay = .ok chart ∧
        Agrees chart (retained.drop logicalIndex) ∧
        plan = appends ++ (chart.drop (retained.length-logicalIndex)).map Prod.snd := by
  induction rows generalizing physicalIndex logicalIndex replay appends with
  | nil =>
    simp only [planRows,chartRows,Except.ok.injEq,exists_eq_left']
    constructor
    · rintro rfl
      exact ⟨fun index existing row _ hrow => by simp at hrow,by simp⟩
    · rintro ⟨-,rfl⟩
      simp
  | cons transaction rows ih =>
    simp only [planRows,chartRows]
    cases hcommit : S.commit replay transaction with
    | error error => simp
    | ok after =>
      dsimp only
      split
      · split
        · simp
        · exact ih appends
      by_cases hoverflow : S.usizeMax < logicalIndex+1
      · simp only [hoverflow,if_true]
        cases planRow retained transaction physicalIndex logicalIndex (S.recoveryState after)
          appends <;> simp
      simp only [hoverflow,if_false]
      have hcharted : ∀ {P : List (S.Transaction × LegacyMigrationAppend S) → Prop},
          (∃ chart, (chartRows total rows (physicalIndex+1) (logicalIndex+1) after).map
            (fun chart => (transaction,(⟨.legacy physicalIndex,S.recoveryState after⟩ :
              LegacyMigrationAppend S)) :: chart) = .ok chart ∧ P chart) ↔
          ∃ chart, chartRows total rows (physicalIndex+1) (logicalIndex+1) after = .ok chart ∧
            P ((transaction,⟨.legacy physicalIndex,S.recoveryState after⟩) :: chart) := by
        intro P
        cases chartRows total rows (physicalIndex+1) (logicalIndex+1) after <;>
          simp [Except.map]
      rw [hcharted]
      unfold planRow
      cases hretained : retained[logicalIndex]? with
      | none =>
        have hlength : retained.length ≤ logicalIndex := List.getElem?_eq_none_iff.mp hretained
        have hnone : retained.length-logicalIndex = 0 := by omega
        have hlater : retained.length-(logicalIndex+1) = 0 := by omega
        simp [ih,agrees_cons,hretained,hnone,hlater]
      | some existing =>
        have hlength := (List.getElem?_eq_some_iff.mp hretained).1
        by_cases hencoded : S.encode existing = S.encode transaction
        · simp only [hencoded,ne_eq,not_true,if_false,ih,agrees_cons,hretained,
            drop_drop_cons _ _ hlength]
          simp [hencoded]
        · simp [hencoded,agrees_cons,hretained]

variable {trustedRoot : S.Transaction} {legacy : List S.Transaction}

theorem planMigration_eq_ok :
    planMigration trustedRoot legacy retained = .ok plan ↔
      ∃ chart, chartMigration trustedRoot legacy = .ok chart ∧ Agrees chart retained ∧
        plan = (chart.drop retained.length).map Prod.snd := by
  unfold planMigration chartMigration
  cases S.commit S.new trustedRoot with
  | error error => simp
  | ok replay =>
    have hcharted : ∀ {P : List (S.Transaction × LegacyMigrationAppend S) → Prop},
        (∃ chart, (chartRows legacy.length legacy 0 1 replay).map (fun chart =>
          (trustedRoot,(⟨.trustedRoot,S.recoveryState replay⟩ :
            LegacyMigrationAppend S)) :: chart) = .ok chart ∧ P chart) ↔
        ∃ chart, chartRows legacy.length legacy 0 1 replay = .ok chart ∧
          P ((trustedRoot,⟨.trustedRoot,S.recoveryState replay⟩) :: chart) := by
      intro P
      cases chartRows legacy.length legacy 0 1 replay <;> simp [Except.map]
    dsimp only
    rw [hcharted]
    cases retained with
    | nil => simp [planRows_eq_ok,Agrees]
    | cons existing retained =>
      have hagrees : ∀ {chart : List (S.Transaction × LegacyMigrationAppend S)} {row},
          Agrees (row :: chart) (existing :: retained) ↔
            S.encode existing = S.encode row.1 ∧ Agrees chart retained := by
        intro chart row
        have hcons : Agrees (row :: chart) ((existing :: retained).drop 0) ↔ _ := agrees_cons
        simpa using hcons
      by_cases hencoded : S.encode existing = S.encode trustedRoot
      · simp [hencoded,planRows_eq_ok,hagrees]
      · simp [hencoded,hagrees]

theorem chartRows_source (hrows : legacy.drop physicalIndex = rows)
    (h : chartRows total rows physicalIndex logicalIndex replay = .ok chart) :
    ∀ row ∈ chart, row.2.source.transaction trustedRoot legacy = some row.1 := by
  induction rows generalizing physicalIndex logicalIndex replay chart with
  | nil =>
    cases h
    simp
  | cons transaction rows ih =>
    have hrest : legacy.drop (physicalIndex+1) = rows := by
      rw [← List.drop_drop,hrows]
      rfl
    simp only [chartRows] at h
    split at h
    · cases h
    split at h
    · split at h
      · cases h
      · exact ih hrest h
    split at h
    · cases h
    · obtain ⟨found,hfound,rfl⟩ := map_ok h
      intro row hmem
      cases List.mem_cons.mp hmem with
      | inl hfirst =>
        subst row
        have hhead : legacy[physicalIndex]? = some transaction := by
          rw [← List.head?_drop,hrows]
          rfl
        exact hhead
      | inr hlater => exact ih hrest hfound row hlater

theorem chartRows_log (htotal : physicalIndex+rows.length = total)
    (h : chartRows total rows physicalIndex logicalIndex replay = .ok chart) :
    chart.map Prod.fst = withoutIdleTail replay rows := by
  induction rows generalizing physicalIndex logicalIndex replay chart with
  | nil =>
    cases h
    rfl
  | cons transaction rows ih =>
    have hrest : physicalIndex+1+rows.length = total := by
      rw [← htotal,List.length_cons]
      omega
    simp only [chartRows] at h
    simp only [withoutIdleTail]
    split at h
    · cases h
    rename_i after hcommit
    split at h
    · rename_i hidle
      split at h
      · cases h
      · rename_i hlast
        have hnone : rows = [] := by
          rw [← List.length_eq_zero_iff]
          omega
        subst hnone
        cases h
        simp [hidle]
    · rename_i heffect
      split at h
      · cases h
      · obtain ⟨found,hfound,rfl⟩ := map_ok h
        simp [heffect,ih hrest hfound]

theorem chartRows_state (htotal : physicalIndex+rows.length = total)
    (h : chartRows total rows physicalIndex logicalIndex replay = .ok chart) {index : Nat}
    {row : S.Transaction × LegacyMigrationAppend S} (hrow : chart[index]? = some row) :
    (replayFrom replay ((chart.map Prod.fst).take (index+1))).map S.recoveryState =
      .ok row.2.expectedState := by
  induction rows generalizing physicalIndex logicalIndex replay chart index with
  | nil =>
    cases h
    simp at hrow
  | cons transaction rows ih =>
    have hrest : physicalIndex+1+rows.length = total := by
      rw [← htotal,List.length_cons]
      omega
    simp only [chartRows] at h
    split at h
    · cases h
    rename_i after hcommit
    split at h
    · split at h
      · cases h
      · rename_i hlast
        have hnone : rows = [] := by
          rw [← List.length_eq_zero_iff]
          omega
        subst hnone
        cases h
        simp at hrow
    split at h
    · cases h
    · obtain ⟨found,hfound,rfl⟩ := map_ok h
      cases index with
      | zero =>
        cases hrow
        simp [replayFrom,hcommit,Except.map]
      | succ index =>
        have hlater := ih hrest hfound (by simpa using hrow)
        simpa [replayFrom,hcommit] using hlater

/-- The chart of the whole placement: its log, where the appends come from, and the states. -/
structure Charts (trustedRoot : S.Transaction) (legacy : List S.Transaction)
    (chart : List (S.Transaction × LegacyMigrationAppend S)) : Prop where
  log : chart.map Prod.fst = migratedLog trustedRoot legacy
  source : ∀ row ∈ chart, row.2.source.transaction trustedRoot legacy = some row.1
  state : ∀ (index : Nat) row, chart[index]? = some row →
    (replayFrom S.new ((chart.map Prod.fst).take (index+1))).map S.recoveryState =
      .ok row.2.expectedState

theorem chartMigration_charts (h : chartMigration trustedRoot legacy = .ok chart) :
    Charts trustedRoot legacy chart := by
  unfold chartMigration at h
  split at h
  · cases h
  rename_i replay hcommit
  obtain ⟨found,hfound,rfl⟩ := map_ok h
  have htotal : 0+legacy.length = legacy.length := Nat.zero_add _
  constructor
  · simp [migratedLog,hcommit,chartRows_log htotal hfound]
  · intro row hmem
    cases List.mem_cons.mp hmem with
    | inl hfirst =>
      subst row
      rfl
    | inr hlater =>
      have hdrop : legacy.drop 0 = legacy := rfl
      exact chartRows_source hdrop hfound row hlater
  · intro index row hrow
    cases index with
    | zero =>
      cases hrow
      simp [replayFrom,hcommit,Except.map]
    | succ index =>
      have hlater := chartRows_state htotal hfound (by simpa using hrow)
      simpa [replayFrom,hcommit] using hlater

theorem Agrees.get (h : Agrees chart retained) (hencode : Function.Injective S.encode)
    {index : Nat} (hretained : index < retained.length) (hchart : index < chart.length) :
    retained[index]? = (chart.map Prod.fst)[index]? := by
  have hsame := h index _ _ (List.getElem?_eq_getElem hretained) (List.getElem?_eq_getElem hchart)
  simp [hretained,hchart,hencode hsame]

end Chart

section Migration

variable {trustedRoot : S.Transaction} {legacy retained : List S.Transaction}
  {appends : List (LegacyMigrationAppend S)}
  {chart : List (S.Transaction × LegacyMigrationAppend S)}

theorem Charts.sources (h : Charts trustedRoot legacy chart)
    {rows : List (S.Transaction × LegacyMigrationAppend S)} (hrows : ∀ row ∈ rows, row ∈ chart) :
    (rows.map Prod.snd).map (fun append => append.source.transaction trustedRoot legacy) =
      (rows.map Prod.fst).map some := by
  simp only [List.map_map]
  exact List.map_congr_left fun row hrow => h.source row (hrows row hrow)

/-- The log is retained already, or the appends complete it. -/
theorem Charts.completes (h : Charts trustedRoot legacy chart) (hagrees : Agrees chart retained)
    (hencode : Function.Injective S.encode) :
    (migratedLog trustedRoot legacy <+: retained ∧
        (chart.drop retained.length).map Prod.snd = []) ∨
      retained.map some ++ ((chart.drop retained.length).map Prod.snd).map
        (fun append => append.source.transaction trustedRoot legacy) =
          (migratedLog trustedRoot legacy).map some := by
  rw [← h.log]
  by_cases hlength : chart.length ≤ retained.length
  · refine .inl ⟨List.prefix_iff_eq_take.mpr (List.ext_getElem? fun index => ?_),?_⟩
    · rw [List.getElem?_take,List.length_map]
      split
      · rename_i hindex
        exact (hagrees.get hencode (by omega) hindex).symm
      · rename_i hindex
        simp only [List.getElem?_map,Option.map_eq_none_iff,List.getElem?_eq_none_iff]
        omega
    · rw [List.drop_eq_nil_of_le hlength]
      rfl
  · have htake : retained = (chart.map Prod.fst).take retained.length := by
      refine List.ext_getElem? fun index => ?_
      rw [List.getElem?_take]
      split
      · rename_i hindex
        exact hagrees.get hencode hindex (by omega)
      · rename_i hindex
        rw [List.getElem?_eq_none_iff]
        omega
    refine .inr ?_
    rw [h.sources fun row hrow => List.mem_of_mem_drop hrow,← List.map_append,List.map_drop]
    have hwhole := List.take_append_drop retained.length (chart.map Prod.fst)
    rw [← htake] at hwhole
    rw [hwhole]

/-- Planned over a log cut short, the rest is left. -/
theorem Charts.resumes (h : Charts trustedRoot legacy chart) (hagrees : Agrees chart retained)
    (count : Nat) :
    let taken := ((chart.drop retained.length).map Prod.snd).take count
    let resumed := retained ++ taken.filterMap fun append =>
      append.source.transaction trustedRoot legacy
    Agrees chart resumed ∧ (chart.drop resumed.length).map Prod.snd =
      ((chart.drop retained.length).map Prod.snd).drop count := by
  dsimp only
  have htaken : (((chart.drop retained.length).map Prod.snd).take count).filterMap
      (fun append => append.source.transaction trustedRoot legacy) =
        ((chart.drop retained.length).take count).map Prod.fst := by
    have hsources := h.sources fun row (hrow : row ∈ (chart.drop retained.length).take count) =>
      List.mem_of_mem_drop (List.mem_of_mem_take hrow)
    have hfound := congrArg (List.filterMap id) hsources
    rw [List.filterMap_map,List.filterMap_map] at hfound
    rw [← List.map_take,List.filterMap_map]
    simpa [-List.map_take,-List.map_drop,Function.comp_def] using hfound
  rw [htaken]
  constructor
  · intro index existing row hexisting hrow
    rw [List.getElem?_append] at hexisting
    split at hexisting
    · exact hagrees index existing row hexisting hrow
    · rename_i hindex
      rw [List.getElem?_map,List.getElem?_take] at hexisting
      split at hexisting
      · rw [List.getElem?_drop,show retained.length+(index-retained.length) = index by omega,
          hrow] at hexisting
        cases hexisting
        rfl
      · simp at hexisting
  · rw [List.length_append,List.length_map,List.length_take,List.length_drop,← List.map_drop,
      List.drop_drop]
    by_cases hcount : count ≤ chart.length-retained.length
    · rw [Nat.min_eq_left hcount]
    · rw [List.drop_eq_nil_of_le (by omega),List.drop_eq_nil_of_le (by omega)]

theorem migration_plan_exact (hencode : Function.Injective S.encode)
    (h : planMigration trustedRoot legacy retained = .ok appends) :
    let log := migratedLog trustedRoot legacy
    ((log <+: retained ∧ appends = []) ∨ retained.map some ++ appends.map
        (fun append => append.source.transaction trustedRoot legacy) = log.map some) ∧
      (∀ (index : Nat) append, appends[index]? = some append →
        (replayFrom S.new (log.take (retained.length+index+1))).map S.recoveryState =
          .ok append.expectedState) ∧
      ∀ count, planMigration trustedRoot legacy (retained ++ (appends.take count).filterMap
        fun append => append.source.transaction trustedRoot legacy) =
          .ok (appends.drop count) := by
  obtain ⟨chart,hchart,hagrees,rfl⟩ := planMigration_eq_ok.mp h
  have hcharts := chartMigration_charts hchart
  refine ⟨hcharts.completes hagrees hencode,fun index append happend => ?_,fun count => ?_⟩
  · rw [List.getElem?_map,List.getElem?_drop] at happend
    obtain ⟨row,hrow,rfl⟩ := Option.map_eq_some_iff.mp happend
    have hstate := hcharts.state _ row hrow
    rwa [hcharts.log] at hstate
  · obtain ⟨hresumed,hrest⟩ := hcharts.resumes hagrees count
    exact planMigration_eq_ok.mpr ⟨chart,hchart,hresumed,hrest.symm⟩

/-- A storage of distinct numbers, where zero has no effect. -/
def numberStorage : StorageLibrary where
  Transaction := Nat
  Storage := List Nat
  RecoveryState := List Nat
  Encoded := Nat
  stateEq := inferInstanceAs (DecidableEq (List Nat))
  encodedEq := inferInstanceAs (DecidableEq Nat)
  new := []
  commit storage value :=
    if value = 0 then .ok storage
    else if value ∈ storage then .error "sequence" else .ok (storage ++ [value])
  recoveryState := id
  encode := id
  usizeMax := 18446744073709551615

def numberPlan : List (LegacyMigrationAppend numberStorage) :=
  [⟨.legacy 1,([7,1,2] : List Nat)⟩]

theorem migration_plan_exact_numbers :
    planMigration (S := numberStorage) (7 : Nat) ([1,2,0] : List Nat) ([7,1] : List Nat) =
        .ok numberPlan ∧
      planMigration (S := numberStorage) (7 : Nat) ([1,2,0] : List Nat) ([7,1,2] : List Nat) =
        .ok [] := by
  have hplan : planMigration (S := numberStorage) (7 : Nat) ([1,2,0] : List Nat)
      ([7,1] : List Nat) = .ok numberPlan := rfl
  obtain ⟨-,-,hresumes⟩ := migration_plan_exact (S := numberStorage) Function.injective_id hplan
  exact ⟨hplan,hresumes 1⟩

end Migration

end WalkieSongie.Migration
