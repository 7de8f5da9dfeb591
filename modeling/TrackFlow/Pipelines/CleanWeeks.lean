import TrackFlow.Pipelines.CountingEvents

/-!
# Weeks without a defect

A week whose rows all validate, with one row for each movement of the telemetry and the order of each
outbound event (`CleanWeek`), is reported as it is: no event is rejected and the aggregates are the totals of
its valid events (`CleanWeek.reported`).
-/

namespace TrackFlow.Pipelines

open TrackFlow.Python Extraction

variable {fromisoformat : String → Option PyValue} {jsonText : PyValue → String}
  {telemetry : List TelemetryRecord} {db : Inventory.Tables} {week : Int} {e : ValidatedEvent}

/-- Nothing is wrong with the rows of a week. -/
structure CleanWeek (fromisoformat : String → Option PyValue) (telemetry : List TelemetryRecord)
    (db : Inventory.Tables) (week : Int) : Prop where
  ids : (telemetry.map TelemetryRecord.id).Nodup
  /-- No two rows have one movement, in whatever weeks they are. -/
  once : ∀ row ∈ telemetry, ∀ row' ∈ telemetry, keyOf row ≠ none → keyOf row = keyOf row' → row = row'
  valid : ∀ row ∈ weeklyRows week telemetry, ∃ e, validateEvent fromisoformat (toEvent row) = .ok e
  ordered : ∀ e ∈ validEvents fromisoformat telemetry week, e.eventType = .outboundOrderCreated →
    ∃ record ∈ orderOf db e, identityConflicts record e = []

/-! ## What counts -/

/-- The row of a valid event. -/
theorem CleanWeek.row (he : e ∈ validEvents fromisoformat telemetry week) :
    ∃ row ∈ weeklyRows week telemetry, validateEvent fromisoformat (toEvent row) = .ok e ∧
      keyOf row = e.movementKey ∧ keyOf row ≠ none := by
  obtain ⟨row, hrow, hv⟩ := mem_validEvents.1 he
  obtain ⟨hkey, hsome⟩ := extraction_key (validateEvent_ok hv)
  exact ⟨row, hrow, hv, hkey, hkey ▸ hsome⟩

/-- Nothing speaks against a valid event. -/
theorem CleanWeek.uncontested (h : CleanWeek fromisoformat telemetry db week) (hweek : weekday week = 0)
    (he : e ∈ validEvents fromisoformat telemetry week) :
    Uncontested fromisoformat telemetry db week e := by
  obtain ⟨row, hrow, hv, hkey, hsome⟩ := CleanWeek.row he
  obtain ⟨hmem, -, hin⟩ := mem_weeklyRows.1 hrow
  refine ⟨fun e' he' hsame => ?_, fun key hk => ?_, h.ordered e he⟩
  · obtain ⟨row', hrow', hv', hkey', -⟩ := CleanWeek.row he'
    have heq := h.once row hmem row' (mem_weeklyRows.1 hrow').1 hsome (by rw [hkey, hkey', hsame])
    rw [← heq, hv] at hv'
    cases hv'
    rfl
  · rintro ⟨row', hmem', hkey', hne⟩
    have heq := h.once row hmem row' hmem' hsome (by rw [hkey, hkey', hk])
    exact hne (heq ▸ (mem_week_iff hweek _).1 hin)

/-- The movements of the valid events are distinct. -/
theorem CleanWeek.movements (h : CleanWeek fromisoformat telemetry db week) :
    ((validEvents fromisoformat telemetry week).map ValidatedEvent.movementKey).Nodup := by
  have hkeys : (validEvents fromisoformat telemetry week).map ValidatedEvent.movementKey =
      (weeklyRows week telemetry).map keyOf := by
    unfold validEvents
    rw [List.map_filterMap, ← List.filterMap_eq_map]
    refine List.filterMap_congr fun row hrow => ?_
    obtain ⟨e, hv⟩ := h.valid row hrow
    rw [hv, Function.comp_apply, (extraction_key (validateEvent_ok hv)).1]
    rfl
  have hrows : (weeklyRows week telemetry).Nodup := (weeklyRows_keys h.ids).of_map _
  rw [hkeys]
  refine hrows.map_on fun row hrow row' hrow' hsame => ?_
  obtain ⟨e, hv⟩ := h.valid row hrow
  obtain ⟨hkey, hsome⟩ := extraction_key (validateEvent_ok hv)
  exact h.once row (mem_weeklyRows.1 hrow).1 row' (mem_weeklyRows.1 hrow').1 (hkey ▸ hsome) hsame

/-- All valid events count. -/
theorem CleanWeek.counting (h : CleanWeek fromisoformat telemetry db week) (hweek : weekday week = 0) :
    countingEvents fromisoformat telemetry db week = validEvents fromisoformat telemetry week := by
  unfold countingEvents
  rw [List.filter_eq_self.2 fun e he => decide_eq_true (h.uncontested hweek he), firstBy_of_nodup h.movements]

/-! ## The report -/

theorem mem_uniqueRows {events : List TelemetryRow} {row : TelemetryRow}
    (h : row ∈ uniqueRows fromisoformat events) : row ∈ events := by
  obtain ⟨id, -, hid⟩ := List.mem_filterMap.1 h
  exact List.mem_of_mem_filter (List.mem_of_mem_head? hid)

/-- Preparation raises nothing. -/
theorem CleanWeek.prepared (h : CleanWeek fromisoformat telemetry db week) (hweek : weekday week = 0) :
    (∀ i ∈ (weekPrepared fromisoformat jsonText telemetry week).issues, i.code ∉ blockingQualityCodes) ∧
      (weekPrepared fromisoformat jsonText telemetry week).conflictMovementKeys = [] ∧
      (weekPrepared fromisoformat jsonText telemetry week).crossWeekVerificationPending = [] := by
  refine prepared_gate_iff.2 ⟨fun row hrow => ?_, fun id _ => consistentId_weekly h.ids id,
    fun row hrow => ?_, fun key hkey => ?_⟩
  · obtain ⟨record, -, rfl⟩ := List.mem_map.1 hrow
    exact ⟨_, rowId_toEvent record⟩
  · obtain ⟨record, hrecord, rfl⟩ := List.mem_map.1 (mem_uniqueRows hrow)
    exact h.valid record hrecord
  · obtain ⟨e, he, hk⟩ := mem_movementKeys.1 hkey
    have hvalid := (mem_validEvents_iff h.ids).2 he
    have hu := h.uncontested hweek hvalid
    refine ⟨(conflicting_week h.ids hweek hvalid hk).2 ⟨hu.agree, hu.alone key hk⟩, ?_⟩
    exact congrArg Prod.fst (evidence_week h.ids hweek hkey)

/-- The order of an outbound event is the one that the tables have. -/
theorem CleanWeek.record (h : CleanWeek fromisoformat telemetry db week)
    (he : e ∈ (weekPrepared fromisoformat jsonText telemetry week).ofType .outboundOrderCreated) :
    ∃ record, orderRecord (weekOrders db telemetry week) e = some record ∧
      identityConflicts record e = [] := by
  obtain ⟨hmem, htype⟩ := List.mem_filter.1 he
  have hvalid := (mem_validEvents_iff h.ids).2 (mem_representatives (prepared_events.mem_iff.1 hmem))
  obtain ⟨record, hrecord, hsame⟩ := h.ordered e hvalid (of_decide_eq_true htype)
  exact ⟨record, (orderRecord_week hvalid (of_decide_eq_true htype)).trans hrecord, hsame⟩

/-- No counter of the run overflows when the totals do not. -/
theorem CleanWeek.fits (h : CleanWeek fromisoformat telemetry db week) (hweek : weekday week = 0)
    (hfits : ¬Overflows (validEvents fromisoformat telemetry week)) (t : EventType) (key : AggregateKey) :
    overflows (counter (weekOrders db telemetry week)
      (weekPrepared fromisoformat jsonText telemetry week).events t key) = false := by
  have htotal : total (accepted (weekOrders db telemetry week)
      (weekPrepared fromisoformat jsonText telemetry week).events) t key =
      total (validEvents fromisoformat telemetry week) t key := by
    rw [← h.counting hweek]
    exact total_congr (accepted_counting h.ids hweek)
  have hle : total (validEvents fromisoformat telemetry week) t key ≤ 2147483647 := by
    by_contra hlt
    exact hfits (overflows_iff.2 ⟨t, key, not_le.1 hlt⟩)
  have hnonneg : 0 ≤ total (validEvents fromisoformat telemetry week) t key :=
    total_nonneg (positive_valid fun _ he => validEvents_valid he)
  rw [counter_eq_total, htotal]
  simp [overflows, hle, hnonneg]

/-- **A clean week is reported as it is.** -/
theorem CleanWeek.reported (h : CleanWeek fromisoformat telemetry db week) (hweek : weekday week = 0)
    (hfits : ¬Overflows (validEvents fromisoformat telemetry week)) :
    ∃ result, weeklyResult fromisoformat jsonText telemetry db week = .ok result ∧
      blockingQualityIssues result.quality.covered = [] ∧ result.quality.rejectedEventIds = [] ∧
      result.aggregates = weeklyTotals (validEvents fromisoformat telemetry week) := by
  have hprepared := @CleanWeek.prepared _ jsonText _ _ _ h hweek
  have hgate : blockingQualityIssues (composed (weekOrders db telemetry week)
      (weekPrepared fromisoformat jsonText telemetry week)).quality.covered = [] := by
    refine composed_gate_iff.2 ⟨hprepared, fun e he hcontradicted => ?_, h.fits hweek hfits⟩
    obtain ⟨record, hrecord, hsame⟩ := h.record he
    simp [contradicted, hrecord, hsame] at hcontradicted
  have hrejected : (composed (weekOrders db telemetry week)
      (weekPrepared fromisoformat jsonText telemetry week)).quality.rejectedEventIds = [] := by
    refine (composed_rejected_iff hgate (prepared_rejected hprepared) fun e he => ?_).2 fun e he => ?_
    · obtain ⟨_, hv⟩ := mem_prepared he
      obtain ⟨id, -, hk⟩ := hv.movementKey
      simp [hk]
    · obtain ⟨record, hrecord, -⟩ := h.record he
      simp [hrecord]
  refine ⟨_, weeklyResult_eq, hgate, hrejected, ?_⟩
  have haggregates := @weekly_aggregates fromisoformat jsonText telemetry db week h.ids hweek
  rw [weeklyResult_eq, h.counting hweek, if_neg hfits] at haggregates
  exact Except.ok.inj haggregates

end TrackFlow.Pipelines
