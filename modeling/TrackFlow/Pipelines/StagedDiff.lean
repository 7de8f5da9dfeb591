import TrackFlow.Pipelines.FailedRuns
import TrackFlow.Pipelines.WeeklyTotals

/-!
# The staged difference

`_stage_weekly_upsert` counts from the rows that it locked what the database decides row by row:
Python compares the KPI tuples, the UPSERT its columns. `upsertStored` is the statement with the
time of each row, `stageStored` the whole stage on a connection that works; without the times they
are `upsertAll` and `stageWeeklyUpsert` (`upsertStored_kpis`, `stageStored_refines`).

- `staged_diff_exact`: the counts are those of the new, the changed and the other keys, the rows
  become the batch, and a row that does not change keeps its time.
-/

namespace TrackFlow.Pipelines

open TrackFlow.Python TrackFlow.Python.Raising

/-! ## Rows with their times -/

/-- A row of the KPI table with its `computed_at`. -/
structure StoredRow where
  kpis : WeeklyAggregate
  computedAt : Int
  deriving DecidableEq

/-- The KPI table. -/
abbrev StoredTable : Type := List StoredRow

/-- The key of a row. -/
def StoredRow.key (row : StoredRow) : AggregateKey := row.kpis.key

/-- The `WHERE` of `_UPDATE_CLAUSE`: some KPI column `IS DISTINCT FROM` the proposed one. -/
def distinctKpis (old excluded : WeeklyAggregate) : Bool :=
  old.inboundUnitsCount ≠ excluded.inboundUnitsCount || old.outboundOrdersCount ≠
    excluded.outboundOrdersCount || old.stockoutEventsCount ≠ excluded.stockoutEventsCount ||
    old.discrepancyEventsCount ≠ excluded.discrepancyEventsCount || old.discrepancyRate ≠
    excluded.discrepancyRate

/-- The times of a statement: `now()`, which is the default of `computed_at`, and
`statement_timestamp()`. -/
structure StatementTimes where
  now : Int
  statement : Int

/-- One row of the UPSERT: the table it leaves, and whether `RETURNING` mentions the key. -/
def upsertStoredRow (times : StatementTimes) (table : StoredTable) (a : WeeklyAggregate) :
    StoredTable × Bool :=
  if a.key ∈ table.map StoredRow.key then
    (table.map fun row => if row.key = a.key ∧ distinctKpis row.kpis a then ⟨a, times.statement⟩ else row,
      table.any fun row => row.key = a.key && distinctKpis row.kpis a)
  else (table ++ [⟨a, times.now⟩], true)

/-- The UPSERT: the table it leaves and the keys it returns. -/
def upsertStored (times : StatementTimes) :
    StoredTable → List WeeklyAggregate → StoredTable × List AggregateKey
  | table, [] => (table, [])
  | table, a :: rest =>
    let (next, changed) := upsertStoredRow times table a
    let (final, keys) := upsertStored times next rest
    (final, if changed then a.key :: keys else keys)

/-- `PUBLISHED_KEYS_SQL`. -/
def publishedRows (weekStart : Int) (table : StoredTable) : KpiTable :=
  (table.filter fun row => row.kpis.weekStart = weekStart).map StoredRow.kpis

/-- `_stage_weekly_upsert` in an open transaction whose statements succeed: the outcome, and the table. -/
def stageStored (weekStart : Int) (aggregates : List WeeklyAggregate) (now : Int) (times : StatementTimes)
    (table : StoredTable) : PublicationOutcome × StoredTable :=
  let validationIssues := validateWeeklyPublicationBatch weekStart aggregates (.aware now)
  let weekInvalid := validationIssues.any fun i => i.code = "invalid_week_start"
  let onlyEmpty := validationIssues ≠ [] ∧ ∀ i ∈ validationIssues, i.code = "empty_batch_not_certified"
  if weekInvalid ∨ (validationIssues ≠ [] ∧ ¬onlyEmpty) then
      ({ status := .blocked, errors := validationIssues }, table)
  else
    let reconciliation := reconcileRows weekStart aggregates (publishedRows weekStart table)
    if ¬reconciliation.readCompleted then
      ({ status := statusForIssues (validationIssues ++ reconciliation.errors)
         errors := validationIssues ++ reconciliation.errors }, table)
    else
      let blockers := validationIssues ++
        (if reconciliation.disappearedKeys = [] then [] else [disappearedIssue])
      if blockers ≠ [] then ({ status := .blocked, errors := blockers }, table)
      else
        let ordered := sortedAggregates aggregates
        let (next, returned) := upsertStored times table ordered
        match countsFromSnapshot ordered reconciliation.published returned with
        | .ok (inserted, updated, unchanged) => ({ status := .staged, inserted, updated, unchanged }, next)
        | .error text =>
          -- The transaction is rolled back.
          ({ status := .rolledBack, errors := [{ code := "upsert_result_unreadable", message := text }]
             rollbackObserved := true }, table)

variable {weekStart : Int} {aggregates batch : List WeeklyAggregate} {table : StoredTable} {row : StoredRow}
  {a b : WeeklyAggregate} {times : StatementTimes} {key : AggregateKey}

/-! ## What is changed -/

/-- The row of a key. -/
def storedAt (table : StoredTable) (key : AggregateKey) : Option StoredRow :=
  table.find? fun row => row.key = key

/-- No two rows have the same key. -/
def UniqueKeys (table : StoredTable) : Prop := (table.map StoredRow.key).Nodup

instance : Decidable (UniqueKeys table) := inferInstanceAs (Decidable (List.Nodup _))

theorem storedAt_some (h : storedAt table key = some row) : row ∈ table ∧ row.key = key :=
  ⟨List.mem_of_find?_eq_some h, by simpa using List.find?_some h⟩

theorem storedAt_none : storedAt table key = none ↔ key ∉ table.map StoredRow.key := by
  simp [storedAt]

theorem storedAt_of_mem (hkeys : UniqueKeys table) (h : row ∈ table) :
    storedAt table row.key = some row := by
  cases hs : storedAt table row.key with
  | none => exact absurd (List.mem_map_of_mem h) (storedAt_none.1 hs)
  | some row' =>
    obtain ⟨hmem, hk⟩ := storedAt_some hs
    rw [List.inj_on_of_nodup_map hkeys hmem h hk]

/-- Rows of one key differ exactly in a KPI. -/
theorem distinctKpis_iff (h : a.key = b.key) : distinctKpis a b = true ↔ a ≠ b := by
  obtain ⟨w, c, s, i, o, t, d, r⟩ := a
  obtain ⟨w', c', s', i', o', t', d', r'⟩ := b
  simp only [WeeklyAggregate.key, AggregateKey.mk.injEq] at h
  simp only [distinctKpis, Bool.or_eq_true, decide_eq_true_eq, ne_eq, WeeklyAggregate.mk.injEq, h, true_and]
  tauto

/-- A row of the batch is written: its key is new, or a KPI differs. -/
def written (table : StoredTable) (a : WeeklyAggregate) : Bool :=
  match storedAt table a.key with
  | none => true
  | some row => distinctKpis row.kpis a

theorem upsertStoredRow_flag (hkeys : UniqueKeys table) :
    (upsertStoredRow times table a).2 = written table a := by
  unfold upsertStoredRow written
  cases hs : storedAt table a.key with
  | none => rw [if_neg (storedAt_none.1 hs)]
  | some row =>
    obtain ⟨hmem, hk⟩ := storedAt_some hs
    rw [if_pos (hk ▸ List.mem_map_of_mem hmem), Bool.eq_iff_iff, List.any_eq_true]
    simp only [Bool.and_eq_true, decide_eq_true_eq]
    constructor
    · rintro ⟨row', hmem', hk', hd⟩
      rw [List.inj_on_of_nodup_map hkeys hmem hmem' (hk.trans hk'.symm)]
      exact hd
    · exact fun hd => ⟨row, hmem, hk, hd⟩

/-- Another key is not touched. -/
theorem storedAt_upsertStoredRow (hne : key ≠ a.key) :
    storedAt (upsertStoredRow times table a).1 key = storedAt table key := by
  unfold upsertStoredRow
  split
  case isTrue h =>
    clear h
    induction table with
    | nil => rfl
    | cons row rest ih =>
      simp only [storedAt, List.map_cons, List.find?_cons] at ih ⊢
      by_cases hw : row.key = a.key ∧ distinctKpis row.kpis a = true
      · have hk : (StoredRow.mk a times.statement).key ≠ key := hne.symm
        have hk' : row.key ≠ key := fun h => hne (h.symm.trans hw.1)
        simp only [if_pos hw, hk, hk', decide_false]
        exact ih
      · simp only [if_neg hw]
        split
        · rfl
        · exact ih
  case isFalse =>
    have hk : (StoredRow.mk a times.now).key ≠ key := hne.symm
    simp [storedAt, List.find?_append, hk]

theorem upsertStoredRow_keys (hkeys : UniqueKeys table) : UniqueKeys (upsertStoredRow times table a).1 := by
  unfold upsertStoredRow UniqueKeys
  split
  case isTrue =>
    have hsame : (table.map fun row => if row.key = a.key ∧ distinctKpis row.kpis a = true then
        (⟨a, times.statement⟩ : StoredRow) else row).map StoredRow.key = table.map StoredRow.key := by
      rw [List.map_map]
      refine List.map_congr_left fun row _ => ?_
      rw [Function.comp_apply]
      split
      · next h => exact h.1.symm
      · rfl
    rw [hsame]
    exact hkeys
  case isFalse h =>
    rw [List.map_append, List.map_singleton, List.nodup_append_comm]
    exact List.nodup_cons.2 ⟨h, hkeys⟩

theorem upsertStored_cons : (upsertStored times table (a :: batch)).1 =
    (upsertStored times (upsertStoredRow times table a).1 batch).1 := rfl

/-- `RETURNING` names the keys of the rows that are written. -/
theorem upsertStored_returned : ∀ {batch : List WeeklyAggregate} {table : StoredTable}, UniqueKeys table →
    (batch.map WeeklyAggregate.key).Nodup →
      (upsertStored times table batch).2 = (batch.filter (written table)).map WeeklyAggregate.key
  | [], _, _, _ => rfl
  | a :: batch, table, hkeys, hbatch => by
    rw [List.map_cons, List.nodup_cons] at hbatch
    have hnext : UniqueKeys (upsertStoredRow times table a).1 := upsertStoredRow_keys hkeys
    have ih := upsertStored_returned hnext hbatch.2
    have hwritten : batch.filter (written (upsertStoredRow times table a).1) =
        batch.filter (written table) := by
      refine List.filter_congr fun b hb => ?_
      have hne : b.key ≠ a.key := fun h => hbatch.1 (h ▸ List.mem_map_of_mem hb)
      rw [written, written, storedAt_upsertStoredRow hne]
    simp only [upsertStored, upsertStoredRow_flag hkeys, ih, hwritten, List.filter_cons]
    split <;> rfl

/-! ## Without the times -/

/-- Without the times the UPSERT is `upsertAll`. -/
theorem upsertStoredRow_kpis (hkeys : UniqueKeys table) :
    ((upsertStoredRow times table a).1.map StoredRow.kpis, (upsertStoredRow times table a).2) =
      upsertRow (table.map StoredRow.kpis) a := by
  have hmap : (table.map StoredRow.kpis).map WeeklyAggregate.key = table.map StoredRow.key := by
    rw [List.map_map]
    rfl
  rw [upsertStoredRow_flag hkeys]
  unfold upsertRow
  rw [hmap]
  by_cases hmem : a.key ∈ table.map StoredRow.key
  · rw [if_pos hmem, Prod.mk.injEq]
    constructor
    · rw [upsertStoredRow, if_pos hmem, List.map_map, List.map_map]
      refine List.map_congr_left fun row _ => ?_
      simp only [Function.comp_apply]
      change (if row.key = a.key ∧ distinctKpis row.kpis a = true then
          (⟨a, times.statement⟩ : StoredRow) else row).kpis =
        if row.key = a.key then a else row.kpis
      by_cases hk : row.key = a.key
      · rw [if_pos hk]
        split
        · rfl
        · next hd =>
          by_contra hne
          exact hd ⟨hk, (distinctKpis_iff hk).2 hne⟩
      · rw [if_neg hk, if_neg fun h => hk h.1]
    · obtain ⟨row, hrow, hk⟩ := List.mem_map.1 hmem
      rw [written, ← hk, storedAt_of_mem hkeys hrow, Bool.eq_iff_iff, decide_eq_true_eq,
        distinctKpis_iff hk]
      constructor
      · intro hne hin
        obtain ⟨row', hrow', hr⟩ := List.mem_map.1 hin
        have hk' : row'.key = row.key := by rw [hk, ← hr]; rfl
        rw [List.inj_on_of_nodup_map hkeys hrow' hrow hk'] at hr
        exact hne hr
      · intro hnot heq
        exact hnot (heq ▸ List.mem_map_of_mem hrow)
  · rw [if_neg hmem, written, storedAt_none.2 hmem, upsertStoredRow, if_neg hmem]
    simp

theorem upsertStored_kpis : ∀ {batch : List WeeklyAggregate} {table : StoredTable}, UniqueKeys table →
    ((upsertStored times table batch).1.map StoredRow.kpis, (upsertStored times table batch).2) =
      upsertAll (table.map StoredRow.kpis) batch
  | [], _, _ => rfl
  | a :: batch, table, hkeys => by
    have hrow : ((upsertStoredRow times table a).1.map StoredRow.kpis, (upsertStoredRow times table a).2) =
        upsertRow (table.map StoredRow.kpis) a := upsertStoredRow_kpis hkeys
    have hnext : UniqueKeys (upsertStoredRow times table a).1 := upsertStoredRow_keys hkeys
    have ih : ((upsertStored times (upsertStoredRow times table a).1 batch).1.map StoredRow.kpis,
        (upsertStored times (upsertStoredRow times table a).1 batch).2) =
          upsertAll ((upsertStoredRow times table a).1.map StoredRow.kpis) batch := upsertStored_kpis hnext
    rw [Prod.ext_iff] at hrow ih
    simp only [upsertStored, upsertAll, ← hrow.1, ← hrow.2, ← ih.1, ← ih.2]

theorem upsertStored_keys : ∀ {batch : List WeeklyAggregate} {table : StoredTable}, UniqueKeys table →
    UniqueKeys (upsertStored times table batch).1
  | [], _, h => h
  | _ :: _, _, h => by
    rw [upsertStored_cons]
    exact upsertStored_keys (upsertStoredRow_keys h)

/-! ## The counts -/

/-- The rows of the batch whose keys are new. -/
def newRows (table : StoredTable) (batch : List WeeklyAggregate) : List WeeklyAggregate :=
  batch.filter fun a => (storedAt table a.key).isNone

/-- The rows of the batch that change a KPI of a published row. -/
def changedRows (table : StoredTable) (batch : List WeeklyAggregate) : List WeeklyAggregate :=
  batch.filter fun a => (storedAt table a.key).any fun row => distinctKpis row.kpis a

/-- The rows of the batch that are published as they are. -/
def sameRows (table : StoredTable) (batch : List WeeklyAggregate) : List WeeklyAggregate :=
  batch.filter fun a => (storedAt table a.key).any fun row => !distinctKpis row.kpis a

theorem keys_publishedRows : (publishedRows weekStart table).map WeeklyAggregate.key =
    (table.filter fun row => row.kpis.weekStart = weekStart).map StoredRow.key := by
  rw [publishedRows, List.map_map]
  rfl

/-- The row that Python finds for a key of the week is the stored one. -/
theorem publishedRow_eq (hkeys : UniqueKeys table) (hweek : key.weekStart = weekStart) :
    publishedRow (publishedRows weekStart table) key = (storedAt table key).map StoredRow.kpis := by
  cases hs : storedAt table key with
  | none =>
    refine List.find?_eq_none.2 fun r hr => ?_
    have hkey : r.key ∈ table.map StoredRow.key := by
      have hm : r.key ∈ (publishedRows weekStart table).map WeeklyAggregate.key := List.mem_map_of_mem hr
      rw [keys_publishedRows] at hm
      exact (List.filter_sublist.map _).subset hm
    simpa using fun heq : r.key = key => storedAt_none.1 hs (heq ▸ hkey)
  | some row =>
    obtain ⟨hmem, hk⟩ := storedAt_some hs
    have hin : row.kpis ∈ publishedRows weekStart table := by
      refine List.mem_map_of_mem (List.mem_filter.2 ⟨hmem, ?_⟩)
      have hw : row.kpis.weekStart = key.weekStart := congrArg AggregateKey.weekStart hk
      simpa [hweek] using hw
    have hnodup : ((publishedRows weekStart table).map WeeklyAggregate.key).Nodup := by
      rw [keys_publishedRows]
      exact (List.filter_sublist.map _).nodup hkeys
    rw [Option.map_some]
    cases hf : publishedRow (publishedRows weekStart table) key with
    | none =>
      have hne := List.find?_eq_none.1 hf _ hin
      have hk' : row.kpis.key = key := hk
      exact absurd hk' (by simpa using hne)
    | some r =>
      have hr : r.key = key := by simpa using List.find?_some hf
      rw [List.inj_on_of_nodup_map hnodup (List.mem_of_find?_eq_some hf) hin (hr.trans hk.symm)]

theorem filter_or_perm {α : Type} {p q : α → Bool} (l : List α) (h : ∀ a, p a = true → q a = false) :
    (l.filter p ++ l.filter q).Perm (l.filter fun a => p a || q a) := by
  induction l with
  | nil => exact List.Perm.nil
  | cons a l ih =>
    cases hp : p a with
    | true => simpa [hp, h a hp] using ih.cons a
    | false =>
      cases hq : q a with
      | true => simpa [hp, hq] using List.perm_middle.trans (ih.cons a)
      | false => simpa [hp, hq] using ih

/-- `_counts_from_snapshot` accepts what `RETURNING` gives. -/
theorem countsFromSnapshot_eq (hkeys : UniqueKeys table) (hbatch : (batch.map WeeklyAggregate.key).Nodup)
    (hweek : ∀ a ∈ batch, a.weekStart = weekStart) :
    countsFromSnapshot batch (publishedRows weekStart table) (upsertStored times table batch).2 =
      .ok ((newRows table batch).length, (changedRows table batch).length,
        (sameRows table batch).length) := by
  have hfound : ∀ a ∈ batch, publishedRow (publishedRows weekStart table) a.key =
      (storedAt table a.key).map StoredRow.kpis := fun a ha => publishedRow_eq hkeys (hweek a ha)
  have hdistinct : ∀ a row, storedAt table a.key = some row →
      (distinctKpis row.kpis a = true ↔ row.kpis ≠ a) :=
    fun a row hs => distinctKpis_iff (storedAt_some hs).2
  have hnew : batch.filter (fun a => (publishedRow (publishedRows weekStart table) a.key).isNone) =
      newRows table batch :=
    List.filter_congr fun a ha => by rw [hfound a ha, Option.isNone_map]
  have hchanged : batch.filter (fun a => (publishedRow (publishedRows weekStart table) a.key).any
      fun row => row ≠ a) =
      changedRows table batch := by
    refine List.filter_congr fun a ha => ?_
    rw [hfound a ha]
    cases hs : storedAt table a.key with
    | none => rfl
    | some row =>
      rw [Option.map_some, Option.any_some, Option.any_some, Bool.eq_iff_iff, decide_eq_true_eq]
      exact (hdistinct a row hs).symm
  have hsame : batch.filter (fun a => publishedRow (publishedRows weekStart table) a.key = some a) =
      sameRows table batch := by
    refine List.filter_congr fun a ha => ?_
    rw [hfound a ha]
    cases hs : storedAt table a.key with
    | none => rfl
    | some row =>
      rw [Option.map_some, Option.any_some, Bool.eq_iff_iff, decide_eq_true_eq, Option.some.injEq,
        Bool.not_eq_true', ← Bool.not_eq_true, hdistinct a row hs, not_not]
  have hreturned :
      (upsertStored times table batch).2 = (batch.filter (written table)).map WeeklyAggregate.key :=
    upsertStored_returned hkeys hbatch
  have hwritten : written table = fun a => (storedAt table a.key).isNone ||
      (storedAt table a.key).any fun row => distinctKpis row.kpis a := by
    funext a
    unfold written
    cases storedAt table a.key <;> simp
  have hperm : (newRows table batch ++ changedRows table batch).Perm (batch.filter (written table)) := by
    rw [hwritten]
    exact filter_or_perm batch fun a ha => by rw [Option.isNone_iff_eq_none.1 ha]; rfl
  unfold countsFromSnapshot
  dsimp only
  rw [hnew, hchanged, hsame, hreturned, if_neg, if_neg]
  · rw [not_not]
    exact linear_aggregateKey.sortedBy_congr (hperm.map _).symm
  · rw [not_not]
    exact (List.filter_sublist.map _).nodup hbatch

/-- The three kinds of rows make up the batch. -/
theorem counts_total (table : StoredTable) (batch : List WeeklyAggregate) :
    (newRows table batch).length + (changedRows table batch).length + (sameRows table batch).length =
      batch.length := by
  unfold newRows changedRows sameRows
  induction batch with
  | nil => rfl
  | cons a rest ih =>
    simp only [List.filter_cons, List.length_cons]
    cases storedAt table a.key with
    | none => simp; omega
    | some row => cases hd : distinctKpis row.kpis a <;> simp [hd] <;> omega

/-! ## What the table becomes -/

/-- A row whose KPIs the batch repeats stays as it is. -/
theorem upsertStoredRow_kept (h : row ∈ table) (hsame : row.key = a.key → row.kpis = a) :
    row ∈ (upsertStoredRow times table a).1 := by
  unfold upsertStoredRow
  split
  · refine List.mem_map.2 ⟨row, h, if_neg fun hw => ?_⟩
    have hd := (distinctKpis_iff hw.1).1 hw.2
    exact hd (hsame hw.1)
  · exact List.mem_append_left _ h

theorem upsertStored_kept : ∀ {batch : List WeeklyAggregate} {table : StoredTable}, row ∈ table →
    (∀ a ∈ batch, row.key = a.key → row.kpis = a) → row ∈ (upsertStored times table batch).1
  | [], _, h, _ => h
  | a :: batch, _, h, hsame => by
    rw [upsertStored_cons]
    exact upsertStored_kept (upsertStoredRow_kept h (hsame a List.mem_cons_self)) fun b hb =>
      hsame b (List.mem_cons_of_mem a hb)

/-- Other keys have the rows that they had. -/
theorem storedAt_upsertStored : ∀ {batch : List WeeklyAggregate} {table : StoredTable},
    key ∉ batch.map WeeklyAggregate.key → storedAt (upsertStored times table batch).1 key =
      storedAt table key
  | [], _, _ => rfl
  | a :: batch, _, h => by
    rw [List.map_cons, List.mem_cons, not_or] at h
    rw [upsertStored_cons, storedAt_upsertStored h.2, storedAt_upsertStoredRow h.1]

/-- A table that has the rows of a batch is not changed by it. -/
theorem upsertStored_same : ∀ {batch : List WeeklyAggregate} {table : StoredTable}, UniqueKeys table →
    (∀ a ∈ batch, a ∈ table.map StoredRow.kpis) → (upsertStored times table batch).1 = table
  | [], _, _, _ => rfl
  | a :: batch, table, hkeys, hin => by
    obtain ⟨row, hrow, hk⟩ := List.mem_map.1 (hin a List.mem_cons_self)
    have hmem : a.key ∈ table.map StoredRow.key :=
      List.mem_map.2 ⟨row, hrow, congrArg WeeklyAggregate.key hk⟩
    have hsame : (upsertStoredRow times table a).1 = table := by
      rw [upsertStoredRow, if_pos hmem]
      refine (List.map_congr_left fun row' hrow' => if_neg ?_).trans (List.map_id table)
      rintro ⟨hk', hd⟩
      have hrows : row' = row :=
        List.inj_on_of_nodup_map hkeys hrow' hrow (hk'.trans (congrArg WeeklyAggregate.key hk).symm)
      exact (distinctKpis_iff hk').1 hd (hrows ▸ hk)
    rw [upsertStored_cons, hsame]
    exact upsertStored_same hkeys fun b hb => hin b (List.mem_cons_of_mem a hb)

/-! ## The stage -/

/-- A published key of the week that the batch misses would block it. -/
def Covers (weekStart : Int) (batch : List WeeklyAggregate) (table : StoredTable) : Prop :=
  ∀ row ∈ table, row.kpis.weekStart = weekStart → row.key ∈ batch.map WeeklyAggregate.key

instance : Decidable (Covers weekStart batch table) :=
  inferInstanceAs (Decidable (∀ row ∈ table, row.kpis.weekStart = weekStart →
    row.key ∈ batch.map WeeklyAggregate.key))

/-- What the reconciliation of such a batch reads. -/
theorem reconcileRows_covered (hkeys : UniqueKeys table) (hbatch : ValidBatch weekStart batch)
    (hcovers : Covers weekStart batch table) :
    reconcileRows weekStart batch (publishedRows weekStart table) =
      { readCompleted := true, published := publishedRows weekStart table } := by
  have hnodup : ((publishedRows weekStart table).map WeeklyAggregate.key).Nodup := by
    rw [keys_publishedRows]
    exact (List.filter_sublist.map _).nodup hkeys
  have hnone : ((publishedRows weekStart table).map WeeklyAggregate.key).filter (fun k =>
      k ∉ (batch.filter fun a => a.weekStart = weekStart).map WeeklyAggregate.key) = [] := by
    refine List.filter_eq_nil_iff.2 fun k hk => ?_
    rw [keys_publishedRows] at hk
    obtain ⟨row, hrow, rfl⟩ := List.mem_map.1 hk
    obtain ⟨hmem, hw⟩ := List.mem_filter.1 hrow
    obtain ⟨a, ha, hkey⟩ := List.mem_map.1 (hcovers row hmem (by simpa using hw))
    have hin : row.key ∈ (batch.filter fun a => a.weekStart = weekStart).map WeeklyAggregate.key :=
      List.mem_map.2 ⟨a, List.mem_filter.2 ⟨ha, by simpa using hbatch.week a ha⟩, hkey⟩
    exact fun h => of_decide_eq_true h hin
  unfold reconcileRows
  simp only [hnodup, if_true, hnone]
  rfl

/-- The stage of a valid batch that covers the published keys. -/
theorem stageStored_eq {now : Int} (hkeys : UniqueKeys table)
    (hvalid : validateWeeklyPublicationBatch weekStart batch (.aware now) = [])
    (hcovers : Covers weekStart batch table) :
    stageStored weekStart batch now times table =
      ({ status := .staged, inserted := (newRows table batch).length, updated := (changedRows table batch).length
         unchanged := (sameRows table batch).length },
           (upsertStored times table (sortedAggregates batch)).1) := by
  have hbatch := validBatch_of_no_issues hvalid
  have hperm : (sortedAggregates batch).Perm batch := perm_sortedBy _ _
  have hsorted : ((sortedAggregates batch).map WeeklyAggregate.key).Nodup :=
    (hperm.map _).nodup_iff.2 hbatch.keys
  have hreconciled : reconcileRows weekStart batch (publishedRows weekStart table) = _ :=
    reconcileRows_covered hkeys hbatch hcovers
  have hcounts : countsFromSnapshot (sortedAggregates batch) (publishedRows weekStart table)
      (upsertStored times table (sortedAggregates batch)).2 = _ :=
    countsFromSnapshot_eq hkeys hsorted fun a ha => hbatch.week a (hperm.mem_iff.1 ha)
  have hlength : ∀ q : WeeklyAggregate → Bool, ((sortedAggregates batch).filter q).length =
      (batch.filter q).length :=
    fun q => (hperm.filter q).length_eq
  unfold stageStored
  simp only [hvalid, hreconciled, List.any_nil, Bool.false_eq_true, false_and, or_self, if_false, ne_eq,
    not_true_eq_false, if_true, List.append_nil, hcounts]
  simp only [newRows, changedRows, sameRows, hlength]

/-- The KPIs that the table has after the stage. -/
theorem staged_kpis (hkeys : UniqueKeys table) (hbatch : ValidBatch weekStart batch)
    (hcovers : Covers weekStart batch table) :
    a ∈ (upsertStored times table (sortedAggregates batch)).1.map StoredRow.kpis ↔
      a ∈ batch ∨ a ∈ table.map StoredRow.kpis ∧ a.weekStart ≠ weekStart := by
  have hall : (upsertStored times table (sortedAggregates batch)).1.map StoredRow.kpis =
      (upsertAll (table.map StoredRow.kpis) (sortedAggregates batch)).1 :=
        congrArg Prod.fst (upsertStored_kpis hkeys)
  rw [hall]
  refine upsert_week hbatch fun row hrow hweek => ?_
  obtain ⟨stored, hstored, rfl⟩ := List.mem_map.1 hrow
  exact hcovers stored hstored hweek

/-! ## The stage of the coordinator -/

/-- The business transaction is open, sees the KPIs of the table, and can be used. -/
def Sees (v : Reporting) (table : StoredTable) (w : World) : Prop :=
  w.business = some { v with kpis := table.map StoredRow.kpis } ∧ w.unusable = false

section Coordinator

variable {f : Faults} {v : Reporting} {w : World}

theorem rowsOf_publishedRows :
    Reporting.rowsOf { v with kpis := table.map StoredRow.kpis } weekStart =
      publishedRows weekStart table := by
  rw [Reporting.rowsOf, publishedRows, List.filter_map]
  rfl

theorem Sees.view (h : Sees v table w) :
    Post businessView (Gives { v with kpis := table.map StoredRow.kpis } (Sees v table)) w :=
  post_businessView h.1 ⟨rfl, h⟩

theorem Sees.issue (h : Sees v table w) : Post transactionIssue (Gives none (Sees v table)) w := by
  refine post_next (a := w) (P := fun w' => w' = w) ⟨rfl, rfl⟩ fun w₁ hw => ?_
  subst hw
  rw [h.2, h.1]
  exact ⟨rfl, h⟩

theorem Sees.reconcile (h : Sees v table w) (hweek : weekday weekStart = 0)
    (hs : f.raises .reconcile = none) :
    Post (reconcileDisappearedKeys f weekStart batch)
      (Gives (reconcileRows weekStart batch (publishedRows weekStart table)) (Sees v table)) w := by
  unfold reconcileDisappearedKeys
  rw [show weekIssue weekStart = none from if_pos hweek]
  refine post_next h.issue fun w₁ h₁ => ?_
  refine post_attempt_seq (P := Gives (publishedRows weekStart table) (Sees v table)) ?_ ?_
  · refine post_works hs (post_next (Sees.view h₁) fun w₂ h₂ => ?_)
    rw [← rowsOf_publishedRows (v := v)]
    exact ⟨rfl, h₂⟩
  · rintro r w₂ ⟨rfl, h₂⟩
    exact ⟨rfl, h₂⟩

/-- When the statements succeed, the stage of the coordinator is `stageStored` without the times. -/
theorem stageStored_refines {q : Request} (h : Sees v table w) (hreconcile : f.raises .reconcile = none)
    (hupsert : f.raises .upsert = none) (hkeys : UniqueKeys table)
    (hvalid : validateWeeklyPublicationBatch q.weekStart q.aggregates (.aware q.now) = [])
    (hcovers : Covers q.weekStart q.aggregates table) :
    Post (stageWeeklyUpsert f q.weekStart q.aggregates q.now)
      (Gives (stageStored q.weekStart q.aggregates q.now times table).1
        (Sees v (stageStored q.weekStart q.aggregates q.now times table).2)) w := by
  have hbatch := validBatch_of_no_issues hvalid
  have hperm : (sortedAggregates q.aggregates).Perm q.aggregates := perm_sortedBy _ _
  have hsorted : ((sortedAggregates q.aggregates).map WeeklyAggregate.key).Nodup :=
    (hperm.map _).nodup_iff.2 hbatch.keys
  have hall : ((upsertStored times table (sortedAggregates q.aggregates)).1.map StoredRow.kpis,
      (upsertStored times table (sortedAggregates q.aggregates)).2) =
        upsertAll (table.map StoredRow.kpis) (sortedAggregates q.aggregates) := upsertStored_kpis hkeys
  have hcounts : countsFromSnapshot (sortedAggregates q.aggregates) (publishedRows q.weekStart table)
      (upsertStored times table (sortedAggregates q.aggregates)).2 = _ :=
    countsFromSnapshot_eq hkeys hsorted fun a ha => hbatch.week a (hperm.mem_iff.1 ha)
  have hlength : ∀ q' : WeeklyAggregate → Bool,
      ((sortedAggregates q.aggregates).filter q').length = (q.aggregates.filter q').length :=
    fun q' => (hperm.filter q').length_eq
  rw [stage_eq hvalid, stageStored_eq hkeys hvalid hcovers]
  refine post_next h.issue fun w₁ h₁ => ?_
  refine post_next (h₁.reconcile hbatch.monday hreconcile) fun w₂ h₂ => ?_
  rw [reconcileRows_covered hkeys hbatch hcovers]
  dsimp only
  rw [if_pos rfl]
  unfold stageReconciled
  dsimp only
  rw [if_pos rfl, List.append_nil, if_neg (by simp)]
  refine post_attempt_seq (P := Gives (((newRows table q.aggregates).length : Int),
    ((changedRows table q.aggregates).length : Int), ((sameRows table q.aggregates).length : Int))
    (Sees v (upsertStored times table (sortedAggregates q.aggregates)).1)) ?_ ?_
  · refine post_next (a := (upsertStored times table (sortedAggregates q.aggregates)).2)
      (P := Sees v (upsertStored times table (sortedAggregates q.aggregates)).1) ?_ fun w₃ h₃ => ?_
    · refine post_works hupsert (post_next (Sees.view h₂) fun w₃ h₃ => ?_)
      dsimp only
      rw [← hall]
      exact ⟨rfl, rfl, h₃.2⟩
    · rw [hcounts]
      simp only [newRows, changedRows, sameRows, hlength]
      exact ⟨rfl, h₃⟩
  · rintro r w₃ ⟨rfl, h₃⟩
    exact ⟨rfl, h₃⟩

end Coordinator

theorem mem_publishedRows :
    a ∈ publishedRows weekStart table ↔ a ∈ table.map StoredRow.kpis ∧ a.weekStart = weekStart := by
  simp only [publishedRows, List.mem_map, List.mem_filter, decide_eq_true_eq]
  constructor
  · rintro ⟨row, ⟨hrow, hw⟩, rfl⟩
    exact ⟨⟨row, hrow, rfl⟩, hw⟩
  · rintro ⟨⟨row, hrow, rfl⟩, hw⟩
    exact ⟨row, ⟨hrow, hw⟩, rfl⟩

/-- Staging what the table has: nothing is new, nothing changes. -/
theorem stageStored_again {now : Int} (hkeys : UniqueKeys table)
    (hvalid : validateWeeklyPublicationBatch weekStart batch (.aware now) = [])
    (hcovers : Covers weekStart batch table)
    (hin : ∀ a ∈ batch, a ∈ table.map StoredRow.kpis) :
    stageStored weekStart batch now times table =
      ({ status := .staged, inserted := 0, updated := 0, unchanged := batch.length }, table) := by
  have hstored : ∀ a ∈ batch, ∃ row, storedAt table a.key = some row ∧ row.kpis = a := by
    intro a ha
    obtain ⟨row, hrow, rfl⟩ := List.mem_map.1 (hin a ha)
    exact ⟨row, storedAt_of_mem hkeys hrow, rfl⟩
  have hnew : newRows table batch = [] := by
    refine List.filter_eq_nil_iff.2 fun a ha => ?_
    obtain ⟨row, hs, -⟩ := hstored a ha
    simp [hs]
  have hchanged : changedRows table batch = [] := by
    refine List.filter_eq_nil_iff.2 fun a ha => ?_
    obtain ⟨row, hs, hk⟩ := hstored a ha
    have hnot : ¬distinctKpis row.kpis a = true := fun h => (distinctKpis_iff (congrArg _ hk)).1 h hk
    simpa [hs] using hnot
  have htotal := counts_total table batch
  rw [hnew, hchanged, List.length_nil, Nat.zero_add] at htotal
  have hsorted : ∀ a ∈ sortedAggregates batch, a ∈ table.map StoredRow.kpis :=
    fun a ha => hin a (mem_sortedBy.1 ha)
  rw [stageStored_eq hkeys hvalid hcovers, hnew, hchanged, htotal, upsertStored_same hkeys hsorted]
  rfl

/-- A week that is over stays over. -/
theorem valid_later {now later : Int} (h : validateWeeklyPublicationBatch weekStart batch (.aware now) = [])
    (hle : now ≤ later) : validateWeeklyPublicationBatch weekStart batch (.aware later) = [] := by
  unfold validateWeeklyPublicationBatch at h ⊢
  obtain ⟨hweek, hbatch⟩ := List.append_eq_nil_iff.1 h
  refine List.append_eq_nil_iff.2 ⟨?_, hbatch⟩
  cases hw : weekIssue weekStart with
  | some issue => rw [hw] at hweek; cases hweek
  | none =>
    rw [hw] at hweek
    dsimp only at hweek ⊢
    have hover : ¬now < midnight (weekStart + 7) := fun hbefore => by
      rw [completeWeekIssue, if_pos hbefore] at hweek
      cases hweek
    rw [completeWeekIssue, if_neg (by omega)]
    rfl

/-- **The staged difference**: for a valid batch that covers the published keys of its week, staging
succeeds; it counts the new keys, the keys with a changed KPI and the rest, which add up to the
batch; the rows of the week become the batch, the rows of other weeks stay, and so does, with its
time, every row whose KPIs the batch repeats; staging the batch again changes nothing. -/
theorem staged_diff_exact (weekStart now : Int) (times : StatementTimes) (table : StoredTable)
    (batch : List WeeklyAggregate)
    (hkeys : UniqueKeys table) (hvalid : validateWeeklyPublicationBatch weekStart batch (.aware now) = [])
    (hcovers : Covers weekStart batch table) :
    let (outcome, next) := stageStored weekStart batch now times table
    (outcome.status = .staged ∧ outcome.errors = []) ∧
    (outcome.inserted = (newRows table batch).length ∧ outcome.updated = (changedRows table batch).length ∧
      outcome.inserted + outcome.updated + outcome.unchanged = batch.length) ∧
    (∀ a, a ∈ publishedRows weekStart next ↔ a ∈ batch) ∧ UniqueKeys next ∧
    (∀ row ∈ table, row.kpis ∈ batch ∨ row.kpis.weekStart ≠ weekStart → row ∈ next) ∧
    (∀ row ∈ next, row.kpis.weekStart ≠ weekStart → row ∈ table) ∧
    ∀ later times', now ≤ later → stageStored weekStart batch later times' next =
      ({ status := .staged, inserted := 0, updated := 0, unchanged := batch.length }, next) := by
  have hbatch := validBatch_of_no_issues hvalid
  have hnext : UniqueKeys (upsertStored times table (sortedAggregates batch)).1 := upsertStored_keys hkeys
  have hkpis : ∀ a, a ∈ (upsertStored times table (sortedAggregates batch)).1.map StoredRow.kpis ↔
      a ∈ batch ∨ a ∈ table.map StoredRow.kpis ∧ a.weekStart ≠ weekStart :=
        fun a => staged_kpis hkeys hbatch hcovers
  rw [stageStored_eq hkeys hvalid hcovers]
  refine ⟨⟨rfl, rfl⟩, ⟨rfl, rfl, ?_⟩, fun a => ?_, hnext, fun row hrow hkept => ?_, fun row hrow hweek =>
    ?_, fun later times' hle => ?_⟩
  · have htotal := counts_total table batch
    change ((newRows table batch).length : Int) + (changedRows table batch).length +
      (sameRows table batch).length = _
    omega
  · rw [mem_publishedRows, hkpis]
    exact ⟨fun h => h.1.resolve_right fun hr => hr.2 h.2, fun ha => ⟨Or.inl ha, hbatch.week a ha⟩⟩
  · refine upsertStored_kept hrow fun a ha hk => ?_
    have ha := mem_sortedBy.1 ha
    rcases hkept with hin | hother
    · exact List.inj_on_of_nodup_map hbatch.keys hin ha hk
    · have hw : row.kpis.weekStart = a.weekStart := congrArg AggregateKey.weekStart hk
      exact absurd (hw.trans (hbatch.week a ha)) hother
  · -- The key of the row is in no row of the batch, so the row is the one that the table had.
    have hkey : row.key ∉ (sortedAggregates batch).map WeeklyAggregate.key := by
      intro hmem
      obtain ⟨a, ha, hk⟩ := List.mem_map.1 hmem
      have hw : a.weekStart = row.kpis.weekStart := congrArg AggregateKey.weekStart hk
      exact hweek (hw.symm.trans (hbatch.week a (mem_sortedBy.1 ha)))
    have hat := storedAt_of_mem hnext hrow
    rw [storedAt_upsertStored hkey] at hat
    exact (storedAt_some hat).1
  · refine stageStored_again hnext (valid_later hvalid hle) (fun row hrow hweek => ?_) fun a ha =>
      (hkpis a).2 (Or.inl ha)
    have hin := (hkpis row.kpis).1 (List.mem_map_of_mem hrow)
    exact List.mem_map_of_mem (hin.resolve_right fun h => h.2 hweek)

/-- A week of one client without discrepancies. -/
def clientWeek (clientId : String) (inboundUnitsCount : Int) : WeeklyAggregate where
  warehouse := "zaragoza"
  clientId := clientId
  weekStart := 4
  inboundUnitsCount := inboundUnitsCount
  outboundOrdersCount := 0
  stockoutEventsCount := 0
  discrepancyEventsCount := 0
  discrepancyRate := 0

/-- A new, a changed and an unchanged client. -/
theorem staged_diff_exact_clients :
    let table : StoredTable := [⟨clientWeek "acme" 5, 0⟩, ⟨clientWeek "beta" 5, 0⟩]
    let batch := [clientWeek "cero" 1, clientWeek "acme" 5, clientWeek "beta" 6]
    let (outcome, next) := stageStored 4 batch (midnight 11) ⟨1, 2⟩ table
    (outcome.inserted = 1 ∧ outcome.updated = 1 ∧ outcome.unchanged = 1) ∧
      ⟨clientWeek "acme" 5, 0⟩ ∈ next := by
  have h := staged_diff_exact 4 (midnight 11) ⟨1, 2⟩ [⟨clientWeek "acme" 5, 0⟩, ⟨clientWeek "beta" 5, 0⟩]
    [clientWeek "cero" 1, clientWeek "acme" 5, clientWeek "beta" 6] (by decide +kernel) (by decide +kernel)
    (by decide +kernel)
  exact ⟨by decide +kernel, h.2.2.2.2.1 _ (by decide) (Or.inl (by decide +kernel))⟩

end TrackFlow.Pipelines
