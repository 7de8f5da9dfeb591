import TrackFlow.Pipelines.Extraction
import TrackFlow.Pipelines.QualityGate

/-!
# One week for each movement

The evidence that the extraction of a week hands on makes a movement a conflict exactly when some
row has it in another week (`evidence_week`), and it never leaves the verification pending. So over
the weeks together no movement is counted twice (`movement_in_one_week`).
-/

namespace TrackFlow.Pipelines

open TrackFlow.Python

namespace Extraction

variable {fromisoformat : String → Option PyValue} {jsonText : PyValue → String}
  {telemetry : List TelemetryRecord} {week : Int} {e : ValidatedEvent} {key : MovementKey}

/-! ## Evidence for a week -/

/-- Some row has the movement in another week. -/
def FoundElsewhere (telemetry : List TelemetryRecord) (week : Int) (key : MovementKey) : Prop :=
  ∃ row ∈ telemetry, keyOf row = some key ∧ isoWeekStart row.timestamp ≠ week

instance : Decidable (FoundElsewhere telemetry week key) :=
  inferInstanceAs (Decidable (∃ row ∈ telemetry, keyOf row = some key ∧ isoWeekStart row.timestamp ≠ week))

/-- The evidence of a week. -/
def weekEvidence (jsonText : PyValue → String) (telemetry : List TelemetryRecord) (week : Int) :
    WeekEvidence :=
  movementEvidence jsonText (movementKeys (weeklyRows week telemetry)) telemetry

/-- A row of the week for a valid event of the week. -/
theorem row_of_event (hids : (telemetry.map TelemetryRecord.id).Nodup)
    (he : e ∈ weeklyEvents fromisoformat week telemetry)
    (hk : e.movementKey = some key) : ∃ row ∈ weeklyRows week telemetry,
      validateEvent fromisoformat (toEvent row) = .ok e ∧ keyOf row = some key := by
  obtain ⟨row, hrow, hv⟩ := (mem_weeklyEvents hids).1 he
  exact ⟨row, hrow, hv, by rw [(extraction_key (validateEvent_ok hv)).1, hk]⟩

theorem mem_movementKeys_rows {rows : List TelemetryRecord} :
    key ∈ movementKeys rows ↔ ∃ row ∈ rows, keyOf row = some key := by
  simp [movementKeys]

/-- A movement of the week is observed in the week alone. -/
theorem observed_in_week (hids : (telemetry.map TelemetryRecord.id).Nodup) (hweek : weekday week = 0)
    (hkey : key ∈ Pipelines.movementKeys (weeklyEvents fromisoformat week telemetry)) (w : Int) :
    w ∈ observedWeeks (weeklyEvents fromisoformat week telemetry) key ↔ w = week := by
  have hstart : ∀ e ∈ weeklyEvents fromisoformat week telemetry, e.weekStart = week := by
    intro e he
    obtain ⟨row, hrow, hv⟩ := (mem_weeklyEvents hids).1 he
    exact weekStart_eq hweek hrow hv
  rw [mem_observedWeeks]
  constructor
  · rintro ⟨e, he, -, rfl⟩
    exact hstart e he
  · rintro rfl
    obtain ⟨e, he, hk⟩ := mem_movementKeys.1 hkey
    exact ⟨e, he, hk, hstart e he⟩

/-- What the evidence says of a movement of the week: it is complete, and conflicts if some row has
it elsewhere. -/
theorem evidence_week (hids : (telemetry.map TelemetryRecord.id).Nodup) (hweek : weekday week = 0)
    (hkey : key ∈ Pipelines.movementKeys (weeklyEvents fromisoformat week telemetry)) :
    evidenceForKey (weekEvidence jsonText telemetry week) key
      (observedWeeks (weeklyEvents fromisoformat week telemetry) key) =
      (false, decide (FoundElsewhere telemetry week key)) := by
  obtain ⟨e, he, hk⟩ := mem_movementKeys.1 hkey
  obtain ⟨row, hrow, hv, hrowKey⟩ := row_of_event hids he hk
  have hfound :
      ∃ item, ((weekEvidence jsonText telemetry week).bind fun lookup => lookup key) = some item := by
    unfold weekEvidence movementEvidence
    rw [Option.bind_some]
    dsimp only
    rw [if_pos (mem_movementKeys_rows.2 ⟨row, hrow, hrowKey⟩)]
    exact ⟨_, rfl⟩
  obtain ⟨item, hitem⟩ := hfound
  have hcomplete : item.complete = true := (@mem_evidence _ _ _ _ _ week hitem).1
  have hmem : ∀ w, w ∈ item.weekStarts ↔ ∃ row ∈ telemetry, keyOf row = some key ∧
      isoWeekStart row.timestamp = w :=
    fun w => (mem_evidence hitem).2
  have hpending : (evidenceForKey (weekEvidence jsonText telemetry week) key
      (observedWeeks (weeklyEvents fromisoformat week telemetry) key)).1 = false := by
    unfold evidenceForKey
    rw [hitem]
    simp [hcomplete]
  have hclear : evidenceForKey (weekEvidence jsonText telemetry week) key
      (observedWeeks (weeklyEvents fromisoformat week telemetry) key) = (false, false) ↔
        ¬FoundElsewhere telemetry week key := by
    rw [evidenceForKey_clear]
    constructor
    · rintro ⟨item', hitem', -, -, hweeks⟩ ⟨other, hother, hotherKey, hne⟩
      rw [hitem] at hitem'
      cases hitem'
      exact hne ((observed_in_week hids hweek hkey _).1
        ((hweeks _).1 ((hmem _).2 ⟨other, hother, hotherKey, rfl⟩)))
    · intro hnot
      have honly : ∀ w, w ∈ item.weekStarts ↔ w = week := by
        intro w
        rw [hmem]
        constructor
        · rintro ⟨other, hother, hotherKey, rfl⟩
          by_contra hne
          exact hnot ⟨other, hother, hotherKey, hne⟩
        · rintro rfl
          obtain ⟨hmemRow, -, hin⟩ := mem_weeklyRows.1 hrow
          exact ⟨row, hmemRow, hrowKey, (mem_week_iff hweek _).1 hin⟩
      refine ⟨item, hitem, hcomplete, fun a ha b hb => ?_, fun w => ?_⟩
      · rw [(honly a).1 ha, (honly b).1 hb]
      · rw [honly, observed_in_week hids hweek hkey]
  refine Prod.ext hpending ?_
  by_cases hf : FoundElsewhere telemetry week key
  · rw [decide_eq_true hf]
    by_contra hne
    exact hclear.1 (Prod.ext hpending (by simpa using hne)) hf
  · rw [hclear.2 hf, decide_eq_false hf]

end Extraction

/-! ## All weeks together -/

open Extraction

/-- The events that the counters of a week are made of. -/
def countedEvents (fromisoformat : String → Option PyValue) (jsonText : PyValue → String)
    (telemetry : List TelemetryRecord) (db : Inventory.Tables) (week : Int) : List ValidatedEvent :=
  let extracted := extractWeeklyInputs jsonText telemetry db week
  let prepared := prepareWeeklyEvents fromisoformat extracted.events extracted.movementWeekEvidence
  EventType.all.flatMap fun t => counted extracted.commercialOrderEvidence prepared.events t

variable {fromisoformat : String → Option PyValue} {jsonText : PyValue → String}
  {telemetry : List TelemetryRecord} {db : Inventory.Tables} {week : Int} {e : ValidatedEvent}

/-- A counted event is one of the week, and its movement does not conflict. -/
theorem mem_countedEvents (h : e ∈ countedEvents fromisoformat jsonText telemetry db week) :
    e ∈ weeklyEvents fromisoformat week telemetry ∧ ∃ key, e.movementKey = some key ∧
      conflicting (weekEvidence jsonText telemetry week) (weeklyEvents fromisoformat week telemetry) key =
      false := by
  obtain ⟨t, -, hcounted⟩ := List.mem_flatMap.1 h
  have hprepared := List.mem_of_mem_filter hcounted
  have hrep : e ∈ representatives (weekEvidence jsonText telemetry week)
      (weeklyEvents fromisoformat week telemetry) :=
    prepared_events.mem_iff.1 hprepared
  obtain ⟨key, hkey, hhead⟩ := List.mem_filterMap.1 hrep
  refine ⟨mem_representatives hrep, key, (mem_movementGroup.1 (List.mem_of_mem_head? hhead)).2, ?_⟩
  simpa using (List.mem_filter.1 hkey).2

/-! What preparation rejects stays rejected. -/

section Rejected

variable {events : List TelemetryRow} {evidence : WeekEvidence} {orders : CommercialOrderEvidence}
  {p : PreparedWeeklyEvents} {key : MovementKey} {id : String}

theorem composed_conflict (h : key ∈ p.conflictMovementKeys) :
    key ∈ (composed orders p).quality.conflictMovementKeys := by
  simp only [composed, composeWeeklyPerformance, mem_sortedSet, List.mem_append]
  exact Or.inl h

theorem composed_rejected (h : id ∈ p.rejectedEventIds) :
    id ∈ (composed orders p).quality.rejectedEventIds := by
  simp only [composed, composeWeeklyPerformance, mem_sortedSet, List.mem_append]
  exact Or.inl (Or.inl h)

/-- A conflicting movement is rejected with all its events. -/
theorem prepared_conflict (he : e ∈ validated fromisoformat (uniqueRows fromisoformat events))
    (hk : e.movementKey = some key)
    (hc : conflicting evidence (validated fromisoformat (uniqueRows fromisoformat events)) key = true) :
    key ∈ (prepareWeeklyEvents fromisoformat events evidence).conflictMovementKeys ∧
      e.rowId ∈ (prepareWeeklyEvents fromisoformat events evidence).rejectedEventIds := by
  have hkey : key ∈ (Pipelines.movementKeys
      (validated fromisoformat (uniqueRows fromisoformat events))).filter
      (conflicting evidence (validated fromisoformat (uniqueRows fromisoformat events))) :=
    List.mem_filter.2 ⟨mem_movementKeys.2 ⟨e, he, hk⟩, hc⟩
  have hid : e.rowId ∈ (movementGroup (validated fromisoformat (uniqueRows fromisoformat events)) key).map
      ValidatedEvent.rowId := List.mem_map_of_mem (mem_movementGroup.2 ⟨he, hk⟩)
  simp only [prepareWeeklyEvents, mem_sortedSet, List.mem_append]
  exact ⟨hkey, Or.inr (List.mem_flatMap.2 ⟨key, hkey, hid⟩)⟩

end Rejected

/-- The transformation of a Monday, with the report that it gives. -/
theorem weeklyResult_eq : weeklyResult fromisoformat jsonText telemetry db week =
    .ok (composed (commercialOrderEvidence db (Extraction.movementKeys (weeklyRows week telemetry)))
      (prepareWeeklyEvents fromisoformat ((weeklyRows week telemetry).map toEvent)
        (weekEvidence jsonText telemetry week))) :=
  transform_eq

/-- The week of a row rejects its movement as a conflict, with the row, and counts no event of it. -/
def RejectsMovement (fromisoformat : String → Option PyValue) (jsonText : PyValue → String)
    (telemetry : List TelemetryRecord)
    (db : Inventory.Tables) (row : TelemetryRecord) (key : MovementKey) : Prop :=
  ∃ result, weeklyResult fromisoformat jsonText telemetry db (isoWeekStart row.timestamp) = .ok result ∧
    key ∈ result.quality.conflictMovementKeys ∧ row.id.str ∈ result.quality.rejectedEventIds ∧
    ∀ e ∈ countedEvents fromisoformat jsonText telemetry db (isoWeekStart row.timestamp),
      e.movementKey ≠ some key

/-- A valid row is among the events of its week. -/
theorem mem_own_week (hids : (telemetry.map TelemetryRecord.id).Nodup) {row : TelemetryRecord}
    (hrow : row ∈ telemetry) (hv : validateEvent fromisoformat (toEvent row) = .ok e) :
    e ∈ weeklyEvents fromisoformat (isoWeekStart row.timestamp) telemetry := by
  refine (mem_weeklyEvents hids).2 ⟨row, mem_weeklyRows.2 ⟨hrow, ?_, ?_⟩, hv⟩
  · have htype : row.eventType = e.eventType.text := by
      have := (validateEvent_ok hv).eventType
      exact PyValue.str.inj this
    rw [htype]
    cases e.eventType <;> simp [EventType.all]
  · exact (mem_week_iff (weekday_isoWeekStart _) _).2 rfl

theorem rejects_movement (hids : (telemetry.map TelemetryRecord.id).Nodup) {row : TelemetryRecord}
    {key : MovementKey} (hrow : row ∈ telemetry) (hv : validateEvent fromisoformat (toEvent row) = .ok e)
    (hk : e.movementKey = some key) (hfound : FoundElsewhere telemetry (isoWeekStart row.timestamp) key) :
    RejectsMovement fromisoformat jsonText telemetry db row key := by
  have hmem := mem_own_week hids hrow hv
  have hkey : key ∈ Pipelines.movementKeys (weeklyEvents fromisoformat (isoWeekStart row.timestamp)
      telemetry) :=
    mem_movementKeys.2 ⟨e, hmem, hk⟩
  have hconflict : conflicting (weekEvidence jsonText telemetry (isoWeekStart row.timestamp))
      (weeklyEvents fromisoformat (isoWeekStart row.timestamp) telemetry) key = true := by
    unfold conflicting
    rw [evidence_week hids (weekday_isoWeekStart _) hkey]
    simp [hfound]
  have hid : e.rowId = row.id.str := by
    have := (validateEvent_ok hv).id
    rw [rowId_toEvent] at this
    exact (Except.ok.inj this).symm
  obtain ⟨hkeyRejected, hidRejected⟩ := prepared_conflict hmem hk hconflict
  rw [hid] at hidRejected
  refine ⟨_, weeklyResult_eq, composed_conflict hkeyRejected, composed_rejected hidRejected, ?_⟩
  intro counted hcounted hsame
  obtain ⟨-, key', hkey', hclear⟩ := mem_countedEvents hcounted
  rw [hkey'] at hsame
  cases hsame
  rw [hconflict] at hclear
  cases hclear

/-- Over all Mondays together, on the same tables: no movement is counted in two weeks, one with
valid rows in two weeks is rejected in both, and no verification is left pending. -/
theorem movement_in_one_week (fromisoformat : String → Option PyValue) (jsonText : PyValue → String)
    (telemetry : List TelemetryRecord) (db : Inventory.Tables)
    (hids : (telemetry.map TelemetryRecord.id).Nodup) :
    (∀ week week', weekday week = 0 → weekday week' = 0 →
      ∀ e ∈ countedEvents fromisoformat jsonText telemetry db week,
      ∀ e' ∈ countedEvents fromisoformat jsonText telemetry db week',
        e.movementKey ≠ none ∧ (e.movementKey = e'.movementKey → week = week')) ∧
    (∀ row ∈ telemetry, ∀ row' ∈ telemetry, ∀ e e' key,
      validateEvent fromisoformat (toEvent row) = .ok e → validateEvent fromisoformat (toEvent row') = .ok e' →
      e.movementKey = some key → e'.movementKey = some key →
      isoWeekStart row.timestamp ≠ isoWeekStart row'.timestamp →
        RejectsMovement fromisoformat jsonText telemetry db row key ∧
        RejectsMovement fromisoformat jsonText telemetry db row' key) ∧
    ∀ week, weekday week = 0 → ∃ result,
      weeklyResult fromisoformat jsonText telemetry db week = .ok result ∧
      result.quality.crossWeekVerificationPending = [] := by
  refine ⟨?_, ?_, ?_⟩
  · intro week week' hweek hweek' e he e' he'
    obtain ⟨hmem, key, hk, hclear⟩ := mem_countedEvents he
    obtain ⟨hmem', key', hk', -⟩ := mem_countedEvents he'
    refine ⟨by simp [hk], fun hsame => ?_⟩
    rw [hk, hk'] at hsame
    cases hsame
    obtain ⟨row', hrow', -, hrowKey'⟩ := row_of_event hids hmem' hk'
    obtain ⟨hrow', -, hin'⟩ := mem_weeklyRows.1 hrow'
    by_contra hne
    have hfound : FoundElsewhere telemetry week key := by
      refine ⟨row', hrow', hrowKey', ?_⟩
      rw [(mem_week_iff hweek' _).1 hin']
      exact Ne.symm hne
    unfold conflicting at hclear
    rw [evidence_week hids hweek (mem_movementKeys.2 ⟨e, hmem, hk⟩)] at hclear
    simp [hfound] at hclear
  · intro row hrow row' hrow' e e' key hv hv' hk hk' hne
    have hrowKey : keyOf row = some key := by rw [(extraction_key (validateEvent_ok hv)).1, hk]
    have hrowKey' : keyOf row' = some key := by rw [(extraction_key (validateEvent_ok hv')).1, hk']
    constructor
    · exact rejects_movement hids hrow hv hk ⟨row', hrow', hrowKey', Ne.symm hne⟩
    · exact rejects_movement hids hrow' hv' hk' ⟨row, hrow, hrowKey, hne⟩
  · intro week hweek
    refine ⟨_, weeklyResult_eq, ?_⟩
    change (prepareWeeklyEvents fromisoformat ((weeklyRows week telemetry).map toEvent)
      (weekEvidence jsonText telemetry week)).crossWeekVerificationPending = []
    simp only [prepareWeeklyEvents, sortedSet_eq_nil]
    refine List.filter_eq_nil_iff.2 fun key hkey => ?_
    simp only [Bool.not_eq_true]
    exact congrArg Prod.fst (evidence_week hids hweek hkey)

/-- An inbound movement as a row of a service. -/
def inboundRow (id : Uuid) (timestamp : Int) (service : String) : TelemetryRecord where
  id := id
  timestamp := timestamp
  service := service
  eventType := "inbound_order_created"
  level := some "info"
  value := none
  message := none
  tags := .dict [("warehouse", .str "los_angeles"), ("client_id", .str "acme"), ("quantity", .int 5),
    ("movement_id", .str "7")]

/-- Its event, if it is authentic. -/
def inboundEvent (id : Uuid) (timestamp : Int) : ValidatedEvent where
  rowId := id.str
  eventType := .inboundOrderCreated
  timestamp := timestamp
  weekStart := isoWeekStart timestamp
  warehouse := "los_angeles"
  clientId := "acme"
  tags := .dict [("warehouse", .str "los_angeles"), ("client_id", .str "acme"), ("quantity", .int 5),
    ("movement_id", .str "7")]

theorem inboundRow_valid {id : Uuid} {t : Int} (ht : datetimeMin ≤ t ∧ t ≤ datetimeMax) :
    validateEvent fromisoformat (toEvent (inboundRow id t "api")) = .ok (inboundEvent id t) := by
  have hid : rowId (toEvent (inboundRow id t "api")).id = .ok id.str := rowId_toEvent _
  have htype : officialEventType (toEvent (inboundRow id t "api")).eventType =
      .ok .inboundOrderCreated := by
    change officialEventType (.str EventType.inboundOrderCreated.text) = _
    simp only [officialEventType, EventType.ofText_text]
  have htime : parseUtcTimestamp fromisoformat (toEvent (inboundRow id t "api")).timestamp =
      .ok t := if_pos ht
  unfold validateEvent
  rw [hid, htype, htime]
  rfl

/-- A movement with rows in two weeks. -/
theorem movement_in_one_week_twice :
    RejectsMovement (fun _ => none) (fun _ => "") [inboundRow (Uuid.ofNat 1) 0 "api",
        inboundRow (Uuid.ofNat 2) (8 * dayMicros) "api"] { skus := [] }
      (inboundRow (Uuid.ofNat 1) 0 "api") (.inboundOrderCreated, "7") := by
  have hall := movement_in_one_week (fun _ => none) (fun _ => "")
    [inboundRow (Uuid.ofNat 1) 0 "api", inboundRow (Uuid.ofNat 2) (8 * dayMicros) "api"]
      { skus := [] } (by decide)
  exact (hall.2.1 _ (List.mem_cons_self ..) _ (List.mem_cons_of_mem _ (List.mem_cons_self ..)) _ _ _
    (inboundRow_valid (by decide)) (inboundRow_valid (by decide)) rfl rfl (by decide)).1

end TrackFlow.Pipelines
