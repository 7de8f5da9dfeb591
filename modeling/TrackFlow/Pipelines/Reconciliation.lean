import TrackFlow.Pipelines.Publication

/-!
# What a staged batch leaves in the KPI table

- `upsert_week`: after the UPSERT of a valid batch from which no published key disappeared, the rows
  of the week are the batch, and the rows of the other weeks are what they were;
- `countsFromSnapshot_total`: the three counts add up to the batch;
- `upsertAll_keys`: the keys stay unique.
-/

namespace TrackFlow.Pipelines

open TrackFlow.Python

variable {weekStart : Int} {aggregates batch : List WeeklyAggregate} {table : KpiTable}
  {row a : WeeklyAggregate}

/-! ## Valid batches -/

theorem batchIssues_eq_nil : ∀ {seen : List AggregateKey} {as : List WeeklyAggregate},
    batchIssues weekStart seen as = [] →
      (∀ a ∈ as, aggregateIssues weekStart a = [] ∧ a.key ∉ seen) ∧ (as.map WeeklyAggregate.key).Nodup
  | _, [], _ => ⟨fun _ h => absurd h List.not_mem_nil, List.nodup_nil⟩
  | seen, a :: rest, h => by
    simp only [batchIssues, List.append_eq_nil_iff, ite_eq_right_iff, reduceCtorEq, imp_false] at h
    obtain ⟨⟨hissues, hseen⟩, hrest⟩ := h
    obtain ⟨hall, hnodup⟩ := batchIssues_eq_nil hrest
    refine ⟨fun b hb => ?_, ?_⟩
    · rcases List.mem_cons.1 hb with rfl | hb
      · exact ⟨hissues, hseen⟩
      · exact ⟨(hall b hb).1, fun hmem => (hall b hb).2 (List.mem_cons_of_mem _ hmem)⟩
    · rw [List.map_cons, List.nodup_cons]
      refine ⟨fun hmem => ?_, hnodup⟩
      obtain ⟨b, hb, hkey⟩ := List.mem_map.1 hmem
      exact (hall b hb).2 (hkey ▸ List.mem_cons_self ..)

/-- A batch that `validate_weekly_publication_batch` accepts. -/
structure ValidBatch (weekStart : Int) (aggregates : List WeeklyAggregate) : Prop where
  week : ∀ a ∈ aggregates, a.weekStart = weekStart
  keys : (aggregates.map WeeklyAggregate.key).Nodup
  monday : weekday weekStart = 0
  nonempty : aggregates ≠ []

theorem validBatch_of_no_issues {now : Datetime}
    (h : validateWeeklyPublicationBatch weekStart aggregates now = []) :
    ValidBatch weekStart aggregates := by
  unfold validateWeeklyPublicationBatch at h
  obtain ⟨hweek, hbatch⟩ := List.append_eq_nil_iff.1 h
  have hne : aggregates ≠ [] := by
    rintro rfl
    simp at hbatch
  rw [if_neg hne] at hbatch
  obtain ⟨hall, hnodup⟩ := batchIssues_eq_nil hbatch
  refine ⟨fun a ha => ?_, hnodup, ?_, hne⟩
  · have hissues := (hall a ha).1
    by_contra hw
    simp [aggregateIssues, hw] at hissues
  · by_contra hw
    simp [weekIssue, hw] at hweek

/-! ## The UPSERT -/

theorem mem_upsertRow : row ∈ (upsertRow table a).1 ↔ row = a ∨ row ∈ table ∧ row.key ≠ a.key := by
  unfold upsertRow
  split
  case isTrue h =>
    obtain ⟨old, hold, hkey⟩ := List.mem_map.1 h
    simp only [List.mem_map]
    refine ⟨?_, ?_⟩
    · rintro ⟨x, hx, rfl⟩
      split
      · exact Or.inl rfl
      · next hne => exact Or.inr ⟨hx, hne⟩
    · rintro (rfl | ⟨hmem, hne⟩)
      · exact ⟨old, hold, by rw [if_pos hkey]⟩
      · exact ⟨row, hmem, by rw [if_neg hne]⟩
  case isFalse h =>
    simp only [List.mem_append, List.mem_singleton]
    refine ⟨?_, ?_⟩
    · rintro (hmem | rfl)
      · exact Or.inr ⟨hmem, fun e => h (e ▸ List.mem_map_of_mem hmem)⟩
      · exact Or.inl rfl
    · rintro (rfl | ⟨hmem, -⟩)
      · exact Or.inr rfl
      · exact Or.inl hmem

/-- One row of the UPSERT keeps the keys unique. -/
theorem upsertRow_keys (h : (table.map WeeklyAggregate.key).Nodup) :
    ((upsertRow table a).1.map WeeklyAggregate.key).Nodup := by
  unfold upsertRow
  split
  case isTrue =>
    have hsame : (table.map fun row => if row.key = a.key then a else row).map WeeklyAggregate.key =
        table.map WeeklyAggregate.key := by
      rw [List.map_map]
      refine List.map_congr_left fun x _ => ?_
      show (if x.key = a.key then a else x).key = x.key
      split
      · next e => exact e.symm
      · rfl
    rw [hsame]
    exact h
  case isFalse hkey =>
    rw [List.map_append, List.map_singleton, List.nodup_append_comm]
    exact List.nodup_cons.2 ⟨hkey, h⟩

theorem upsertAll_cons : (upsertAll table (a :: batch)).1 = (upsertAll (upsertRow table a).1 batch).1 := rfl

/-- The UPSERT keeps the keys unique. -/
theorem upsertAll_keys : ∀ {batch : List WeeklyAggregate}
    {table : KpiTable}, (table.map WeeklyAggregate.key).Nodup →
    ((upsertAll table batch).1.map WeeklyAggregate.key).Nodup
  | [], _, h => h
  | _ :: _, _, h => by
    rw [upsertAll_cons]
    exact upsertAll_keys (upsertRow_keys h)

/-- A batch with distinct keys replaces the rows of these keys. -/
theorem mem_upsertAll : ∀ {batch : List WeeklyAggregate}
    {table : KpiTable}, (batch.map WeeklyAggregate.key).Nodup →
    (row ∈ (upsertAll table batch).1 ↔ row ∈ batch ∨ row ∈ table ∧ row.key ∉ batch.map WeeklyAggregate.key)
  | [], _, _ => by simp [upsertAll]
  | a :: batch, table, h => by
    rw [List.map_cons, List.nodup_cons] at h
    rw [upsertAll_cons, mem_upsertAll h.2, mem_upsertRow, List.map_cons, List.mem_cons,
      List.mem_cons, not_or]
    refine ⟨?_, ?_⟩
    · rintro (hmem | ⟨rfl | ⟨hmem, hne⟩, hbatch⟩)
      · exact Or.inl (Or.inr hmem)
      · exact Or.inl (Or.inl rfl)
      · exact Or.inr ⟨hmem, hne, hbatch⟩
    · rintro ((rfl | hmem) | ⟨hmem, hne, hbatch⟩)
      · exact Or.inr ⟨Or.inl rfl, h.1⟩
      · exact Or.inl hmem
      · exact Or.inr ⟨Or.inr ⟨hmem, hne⟩, hbatch⟩

/-! ## The whole stage -/

/-- The published rows of the week all have their key in the batch. -/
theorem reconcileRows_kept {rows : KpiTable}
    (hread : (reconcileRows weekStart aggregates rows).readCompleted = true)
    (hnone : (reconcileRows weekStart aggregates rows).disappearedKeys = []) :
    (rows.map WeeklyAggregate.key).Nodup ∧ ∀ row ∈ rows, row.key ∈ aggregates.map WeeklyAggregate.key := by
  unfold reconcileRows at hread hnone
  by_cases hnodup : (rows.map WeeklyAggregate.key).Nodup
  · refine ⟨hnodup, fun row hrow => ?_⟩
    simp only [hnodup, if_true, sortedBy_eq_nil, List.filter_eq_nil_iff, decide_eq_true_eq,
      not_not] at hnone
    obtain ⟨a, ha, hkey⟩ := List.mem_map.1 (hnone row.key (List.mem_map_of_mem hrow))
    exact hkey ▸ List.mem_map_of_mem (List.mem_of_mem_filter ha)
  · simp [hnodup] at hread

/-- After the UPSERT of a valid batch that has every published key of its week, the table has the
batch and the rows of the other weeks. -/
theorem upsert_week (hvalid : ValidBatch weekStart aggregates)
    (hkept : ∀ row ∈ table, row.weekStart = weekStart → row.key ∈ aggregates.map WeeklyAggregate.key) :
    row ∈ (upsertAll table (sortedAggregates aggregates)).1 ↔
      row ∈ aggregates ∨ row ∈ table ∧ row.weekStart ≠ weekStart := by
  have hperm : (sortedAggregates aggregates).Perm aggregates := perm_sortedBy _ _
  have hkeys := hperm.map WeeklyAggregate.key
  rw [mem_upsertAll (hkeys.nodup_iff.2 hvalid.keys), hperm.mem_iff, hkeys.mem_iff]
  refine or_congr_right (and_congr_right fun hrow => ⟨fun hnot hweek => hnot (hkept row hrow hweek),
    fun hweek hmem => ?_⟩)
  obtain ⟨a, ha, hkey⟩ := List.mem_map.1 hmem
  have hsame : a.weekStart = row.weekStart := congrArg AggregateKey.weekStart hkey
  exact hweek (hsame ▸ hvalid.week a ha)

/-- The counts add up to the batch. -/
theorem countsFromSnapshot_total {published : KpiTable} {returned : List AggregateKey}
    {inserted updated unchanged : Int}
    (h : countsFromSnapshot aggregates published returned = .ok (inserted, updated, unchanged)) :
    inserted + updated + unchanged = aggregates.length ∧ 0 ≤ inserted ∧ 0 ≤ updated ∧ 0 ≤ unchanged := by
  unfold countsFromSnapshot at h
  dsimp only at h
  split at h
  · cases h
  · split at h
    · cases h
    · cases h
      refine ⟨?_, by omega, by omega, by omega⟩
      clear * -
      simp only [ne_eq, decide_not]
      induction aggregates with
      | nil => rfl
      | cons a rest ih =>
        simp only [List.filter_cons]
        cases hrow : publishedRow published a.key with
        | none => simp; omega
        | some row =>
          by_cases hra : row = a
          · subst hra
            simp
            omega
          · simp [hra]
            omega

end TrackFlow.Pipelines
