import TrackFlow.Python.Sorting
import TrackFlow.Inventory.Tables
import TrackFlow.Pipelines.WeeklyTransform

/-!
# The weekly extraction

`extractWeeklyInputs` reads the events of one week and, for the business identities that occur in
them, every occurrence in any week, and the commercial orders of the outbound events.

- `extraction_key`: the extraction and the transformation give a valid event the same movement key;
- `mem_weeklyEvents`, `mem_evidence`: which events a week has, and in which weeks a movement was found.
-/

namespace TrackFlow.Pipelines

open TrackFlow.Python

namespace Extraction

/-! ## Events -/

/-- `_movement_key` of the extraction. -/
def movementKey (eventType : String) (tags : PyValue) : Option MovementKey :=
  match EventType.ofText? eventType, tags with
  | some type, .dict kvs =>
    match (PyValue.dict kvs).get type.identityField with
    | .str identity => if isBlank identity then none else some (type, identity)
    | _ => none
  | _, _ => none

/-- The movement key of a row. -/
def keyOf (row : TelemetryRecord) : Option MovementKey := movementKey row.eventType row.tags

/-- `ORDER BY timestamp, id`. -/
def rowLe (a b : TelemetryRecord) : Bool :=
  pairLe (fun x y : Int => x ≤ y) (fun x y : List (Fin 16) => x ≤ y) (a.timestamp, a.id.digits)
    (b.timestamp, b.id.digits)

/-- `_EVENTS_SQL`. -/
def weeklyRows (week : Int) (telemetry : List TelemetryRecord) : List TelemetryRecord :=
  sortedBy rowLe (telemetry.filter fun row => row.eventType ∈ EventType.all.map EventType.text ∧
    InWeek week row.timestamp)

/-- The row as the transformation gets it. -/
def toEvent (row : TelemetryRecord) : TelemetryRow where
  id := .str row.id.str
  timestamp := .aware row.timestamp
  service := .str row.service
  eventType := .str row.eventType
  tags := row.tags

/-- `sorted_movement_keys`. -/
def movementKeys (rows : List TelemetryRecord) : List MovementKey :=
  sortedSet movementLe (rows.filterMap keyOf)

/-! ## Movements in all weeks -/

/-- The `CASE` of `_MOVEMENT_LOOKUP_SQL_TEMPLATE`. -/
def lookupField (eventType : String) : String :=
  if eventType = "outbound_order_created" then "order_id"
  else if eventType = "inventory_discrepancy_detected" then "count_id"
  else "movement_id"

/-- `tags->>field`: text as it is, NULL for `null` and for what is missing, and else the text that
`jsonText` gives. -/
def arrowText (jsonText : PyValue → String) (field : String) (tags : PyValue) : Option String :=
  match tags.get field with
  | .str s => some s
  | .none => none
  | value => some (jsonText value)

/-- `ORDER BY event_type, timestamp, id`. -/
def occurrenceLe (a b : TelemetryRecord) : Bool :=
  pairLe textLe (pairLe (fun x y : Int => x ≤ y) fun x y : List (Fin 16) => x ≤ y)
    (a.eventType, a.timestamp, a.id.digits) (b.eventType, b.timestamp, b.id.digits)

/-- The movement lookup, over rows of any week and any service. -/
def lookupRows (jsonText : PyValue → String) (keys : List MovementKey) (telemetry : List TelemetryRecord) :
    List TelemetryRecord :=
  sortedBy occurrenceLe (telemetry.filter fun row =>
    ∃ key ∈ keys, row.eventType = key.1.text ∧ arrowText jsonText (lookupField row.eventType)
      row.tags = some key.2)

/-- `MovementOccurrence`. -/
structure MovementOccurrence where
  key : MovementKey
  telemetryId : Uuid
  timestamp : Int
  weekStart : Int

/-- `occurrences`. -/
def occurrences (jsonText : PyValue → String) (keys : List MovementKey) (telemetry : List TelemetryRecord) :
    List MovementOccurrence :=
  (lookupRows jsonText keys telemetry).filterMap fun row =>
    match keyOf row with
    | some key => if key ∈ keys then some ⟨key, row.id, row.timestamp, isoWeekStart row.timestamp⟩ else none
    | none => none

/-- `movement_evidence`. -/
def movementEvidence (jsonText : PyValue → String) (keys : List MovementKey)
    (telemetry : List TelemetryRecord) : WeekEvidence :=
  some fun key =>
    if key ∈ keys then
      some ⟨(((occurrences jsonText keys telemetry).filter fun o => o.key = key).map
        MovementOccurrence.weekStart).dedup, true⟩
    else none

/-! ## Commercial orders -/

/-- `_commercial_order_id`. -/
def commercialOrderId (orderId : String) : Option String :=
  match Uuid.ofString? orderId with
  | some parsed => if parsed.version = some 4 ∧ parsed.str = orderId then some orderId else none
  | none => none

/-- The dispatches of an order. -/
def dispatchCount (db : Inventory.Tables) (order : Inventory.CommercialOrder) : Nat :=
  db.exits.countP fun e => e.commercialOrderId = some order.id && e.exitType = "dispatch"

/-- `_commercial_order_records`: an order with no dispatch has no row in the join. -/
def commercialOrderRecords (db : Inventory.Tables) (orderIds : List String) (orderId : String) :
    Option CommercialOrderRecord :=
  (db.orders.find? fun o => o.orderId.str = orderId && orderId ∈ orderIds && 0 <
      dispatchCount db o).map fun o =>
    { orderId := o.orderId.str, warehouse := o.warehouse, clientId := o.clientId, dispatchCount := dispatchCount db o }

/-- `outbound_ids`. -/
def outboundIds (keys : List MovementKey) : List String :=
  sortedSet textLe ((keys.filter fun key => key.1 = .outboundOrderCreated).map Prod.snd)

/-- `commercial_order_evidence`. -/
def commercialOrderEvidence (db : Inventory.Tables) (keys : List MovementKey) :
    CommercialOrderEvidence where
  records := commercialOrderRecords db ((outboundIds keys).filterMap commercialOrderId)
  lookupComplete := (outboundIds keys).all fun id => (commercialOrderId id).isSome

end Extraction

/-- `WeeklyExtractionResult`, without its metadata. -/
structure WeeklyExtractionResult where
  events : List TelemetryRow
  commercialOrderEvidence : CommercialOrderEvidence
  movementWeekEvidence : WeekEvidence
  movementOccurrences : List Extraction.MovementOccurrence

/-- `extract_weekly_inputs` of a Monday, on the snapshots of both databases. -/
def extractWeeklyInputs (jsonText : PyValue → String) (telemetry : List TelemetryRecord)
    (db : Inventory.Tables) (week : Int) : WeeklyExtractionResult :=
  let rows := Extraction.weeklyRows week telemetry
  let keys := Extraction.movementKeys rows
  { events := rows.map Extraction.toEvent
    commercialOrderEvidence := Extraction.commercialOrderEvidence db keys
    movementWeekEvidence := Extraction.movementEvidence jsonText keys telemetry
    movementOccurrences := Extraction.occurrences jsonText keys telemetry }

/-- The transformation of what is extracted. -/
def weeklyResult (fromisoformat : String → Option PyValue) (jsonText : PyValue → String)
    (telemetry : List TelemetryRecord)
    (db : Inventory.Tables) (week : Int) : Except String WeeklyTransformationResult :=
  let extracted := extractWeeklyInputs jsonText telemetry db week
  transformWeeklyPerformance fromisoformat extracted.events extracted.commercialOrderEvidence
    extracted.movementWeekEvidence

namespace Extraction

/-! ## One key for both -/

theorem lookupField_text (t : EventType) : lookupField t.text = t.identityField := by cases t <;> decide

/-- What a movement key says about its row. -/
theorem keyOf_some {row : TelemetryRecord} {key : MovementKey} (h : keyOf row = some key) :
    row.eventType = key.1.text ∧ row.tags.get key.1.identityField = .str key.2 := by
  unfold keyOf movementKey at h
  split at h
  · rename_i type kvs htype htags
    split at h
    · rename_i identity hget
      split at h
      · cases h
      · cases h
        exact ⟨EventType.ofText_eq_some htype, by rw [htags]; exact hget⟩
    · cases h
  · cases h

variable {fromisoformat : String → Option PyValue} {jsonText : PyValue → String} {row : TelemetryRecord}
  {e : ValidatedEvent}

theorem uuid4Text_not_blank {message s : String} (h : uuid4Text message (.str s) = .ok ()) :
    isBlank s = false := by
  unfold uuid4Text at h
  dsimp only at h
  split at h
  · exact Uuid.ofString_not_blank ‹_›
  · cases h

theorem nonBlank_not_blank {message s t : String} (h : nonBlank message (.str s) = .ok t) :
    isBlank s = false := by
  unfold nonBlank at h
  dsimp only at h
  split at h
  · cases h
  · simpa using ‹¬ isBlank s = true›

/-- The identity of a valid event is not blank. -/
theorem identity_not_blank {identity : String} (h : ValidEvent fromisoformat (toEvent row) e)
    (hget : row.tags.get e.eventType.identityField = .str identity) : isBlank identity = false := by
  have hident := h.identity
  change checkIdentity row.tags e.eventType = .ok () at hident
  cases ht : e.eventType
  all_goals
    rw [ht] at hident hget
    simp only [checkIdentity, EventType.identityField] at hident hget
    rw [hget] at hident
  · obtain ⟨s, hs, -⟩ := bind_ok hident
    exact nonBlank_not_blank hs
  · exact uuid4Text_not_blank hident
  · obtain ⟨s, hs, -⟩ := bind_ok hident
    exact nonBlank_not_blank hs
  · obtain ⟨_, hu, -⟩ := bind_ok hident
    exact uuid4Text_not_blank hu

/-- The extraction and the transformation give a valid event the same key. -/
theorem extraction_key (h : ValidEvent fromisoformat (toEvent row) e) :
    keyOf row = e.movementKey ∧ e.movementKey ≠ none := by
  obtain ⟨identity, hget, hkey⟩ := h.movementKey
  rw [h.tags] at hget
  change row.tags.get e.eventType.identityField = .str identity at hget
  obtain ⟨kvs, htags⟩ := h.dict
  change row.tags = .dict kvs at htags
  have htype : row.eventType = e.eventType.text := by
    have := h.eventType
    change PyValue.str row.eventType = .str e.eventType.text at this
    exact PyValue.str.inj this
  rw [hkey]
  refine ⟨?_, by simp⟩
  unfold keyOf movementKey
  rw [htype, EventType.ofText_text, htags]
  dsimp only
  rw [← htags, hget]
  dsimp only
  rw [identity_not_blank h hget]
  rfl

/-! ## The events of a week -/

variable {telemetry : List TelemetryRecord} {week : Int}

theorem mem_weeklyRows : row ∈ weeklyRows week telemetry ↔
    row ∈ telemetry ∧ row.eventType ∈ EventType.all.map EventType.text ∧ InWeek week row.timestamp := by
  simp [weeklyRows]

/-- The valid events that the transformation of a week starts from. -/
def weeklyEvents (fromisoformat : String → Option PyValue) (week : Int) (telemetry : List TelemetryRecord) :
    List ValidatedEvent :=
  validated fromisoformat (uniqueRows fromisoformat ((weeklyRows week telemetry).map toEvent))

theorem weeklyRows_keys (hids : (telemetry.map TelemetryRecord.id).Nodup) :
    ((weeklyRows week telemetry).map fun row => row.id.str).Nodup := by
  have hweek : ((weeklyRows week telemetry).map TelemetryRecord.id).Nodup := by
    refine (((perm_sortedBy _ _).map TelemetryRecord.id).nodup_iff).2 ?_
    exact hids.sublist (List.filter_sublist.map _)
  have hmap := hweek.map fun _ _ h => Uuid.str_injective h
  rwa [List.map_map] at hmap

theorem rowId_toEvent (row : TelemetryRecord) : rowId (toEvent row).id = .ok row.id.str := by
  simp only [toEvent, rowId, Uuid.ofString_str]

/-- The ids of the rows of a week. -/
theorem rowIds_weekly : rowIds ((weeklyRows week telemetry).map toEvent) =
    sortedSet textLe ((weeklyRows week telemetry).map fun row => row.id.str) := by
  have hid : (fun row => (rowId row.id).toOption) ∘ toEvent = some ∘ fun row :
      TelemetryRecord => row.id.str := by
    funext row
    simp only [Function.comp_apply, rowId_toEvent, Except.toOption]
  unfold rowIds
  rw [List.filterMap_map, hid, List.filterMap_eq_map]

theorem rowsWithId_weekly (id : String) : rowsWithId ((weeklyRows week telemetry).map toEvent) id =
    ((weeklyRows week telemetry).filter fun row => row.id.str = id).map toEvent := by
  unfold rowsWithId
  rw [List.filter_map]
  refine congrArg (List.map toEvent) (List.filter_congr fun row _ => ?_)
  simp only [Function.comp_apply, rowId_toEvent, Except.ok.injEq]

/-- Of each id there is one row at most. -/
theorem rowsWithId_cases (hids : (telemetry.map TelemetryRecord.id).Nodup) (id : String) :
    (rowsWithId ((weeklyRows week telemetry).map toEvent) id = [] ∧ ∀ row ∈ weeklyRows week telemetry,
      row.id.str ≠ id) ∨
    ∃ row ∈ weeklyRows week telemetry, row.id.str = id ∧
      rowsWithId ((weeklyRows week telemetry).map toEvent) id = [toEvent row] := by
  rw [rowsWithId_weekly]
  by_cases hthere : ∃ row ∈ weeklyRows week telemetry, row.id.str = id
  · obtain ⟨row, hrow, rfl⟩ := hthere
    right
    refine ⟨row, hrow, rfl, ?_⟩
    rw [filter_key_eq (weeklyRows_keys hids) hrow]
    rfl
  · left
    have hnone : ∀ row ∈ weeklyRows week telemetry, row.id.str ≠ id :=
      fun row hrow heq => hthere ⟨row, hrow, heq⟩
    refine ⟨?_, hnone⟩
    rw [List.map_eq_nil_iff, List.filter_eq_nil_iff]
    exact fun row hrow => by simpa using hnone row hrow

/-- The valid event with an id. -/
def eventWithId (fromisoformat : String → Option PyValue) (week : Int) (telemetry : List TelemetryRecord)
    (id : String) : Option ValidatedEvent :=
  (rowsWithId ((weeklyRows week telemetry).map toEvent) id).head?.bind fun row =>
    (validateEvent fromisoformat row).toOption

theorem eventWithId_eq_some (hids : (telemetry.map TelemetryRecord.id).Nodup) {id : String} :
    eventWithId fromisoformat week telemetry id = some e ↔ ∃ row ∈ weeklyRows week telemetry,
      row.id.str = id ∧ validateEvent fromisoformat (toEvent row) = .ok e := by
  have hvalid : ∀ row, (validateEvent fromisoformat row).toOption = some e ↔
      validateEvent fromisoformat row = .ok e := by
    intro row
    cases validateEvent fromisoformat row <;> simp [Except.toOption]
  unfold eventWithId
  rcases rowsWithId_cases hids id with ⟨hnil, hnone⟩ | ⟨row, hrow, hid, hone⟩
  · rw [hnil]
    constructor
    · intro h
      cases h
    · rintro ⟨row, hrow, hid, -⟩
      exact absurd hid (hnone row hrow)
  · rw [hone, List.head?_cons, Option.bind_some, hvalid]
    constructor
    · exact fun h => ⟨row, hrow, hid, h⟩
    · rintro ⟨row', hrow', hid', h⟩
      rwa [List.inj_on_of_nodup_map (weeklyRows_keys hids) hrow' hrow (hid'.trans hid.symm)] at h

/-- The only row of an id is its own copy. -/
theorem consistentId_weekly (hids : (telemetry.map TelemetryRecord.id).Nodup) (id : String) :
    consistentId fromisoformat ((weeklyRows week telemetry).map toEvent) id = true := by
  unfold consistentId
  have hcases := @rowsWithId_cases _ week hids id
  rcases hcases with ⟨hnil, -⟩ | ⟨row, -, -, hone⟩
  · rw [hnil]
  · rw [hone]
    rfl

/-- The valid events, by the ids of their rows. -/
theorem weeklyEvents_eq (hids : (telemetry.map TelemetryRecord.id).Nodup) :
    weeklyEvents fromisoformat week telemetry =
    (sortedSet textLe ((weeklyRows week telemetry).map fun row => row.id.str)).filterMap
      (eventWithId fromisoformat week telemetry) := by
  unfold weeklyEvents validated uniqueRows
  rw [List.filter_eq_self.2 fun id _ => consistentId_weekly hids id, List.filterMap_filterMap, rowIds_weekly]
  rfl

theorem mem_weeklyEvents (hids : (telemetry.map TelemetryRecord.id).Nodup) :
    e ∈ weeklyEvents fromisoformat week telemetry ↔
    ∃ row ∈ weeklyRows week telemetry, validateEvent fromisoformat (toEvent row) = .ok e := by
  rw [weeklyEvents_eq hids, List.mem_filterMap]
  simp only [eventWithId_eq_some hids, mem_sortedSet]
  constructor
  · rintro ⟨id, -, row, hrow, -, hv⟩
    exact ⟨row, hrow, hv⟩
  · rintro ⟨row, hrow, hv⟩
    exact ⟨row.id.str, List.mem_map_of_mem (f := fun row => row.id.str) hrow, row, hrow, rfl, hv⟩

/-- The week of a valid event. -/
theorem weekStart_eq (hweek : weekday week = 0) (hrow : row ∈ weeklyRows week telemetry)
    (hv : validateEvent fromisoformat (toEvent row) = .ok e) : e.weekStart = week := by
  have hvalid := validateEvent_ok hv
  have htime : e.timestamp = row.timestamp := by
    have hparse := hvalid.timestamp
    change utcInstant (.aware row.timestamp) = .ok e.timestamp at hparse
    unfold utcInstant at hparse
    dsimp only at hparse
    split at hparse
    · exact (Except.ok.inj hparse).symm
    · cases hparse
  rw [hvalid.weekStart, htime]
  exact (mem_week_iff hweek _).1 (mem_weeklyRows.1 hrow).2.2

/-! ## Evidence -/

/-- The weeks in which a movement that occurs in the week was found. -/
theorem mem_evidence {key : MovementKey} {item : MovementWeekEvidence} {keys : List MovementKey}
    {start : Int}
    (h : ((movementEvidence jsonText keys telemetry).bind fun lookup => lookup key) = some item) :
    item.complete = true ∧ (start ∈ item.weekStarts ↔
      ∃ row ∈ telemetry, keyOf row = some key ∧ isoWeekStart row.timestamp = start) := by
  unfold movementEvidence at h
  rw [Option.bind_some] at h
  dsimp only at h
  split at h
  case isFalse => cases h
  case isTrue hkey =>
    cases h
    refine ⟨rfl, ?_⟩
    simp only [List.mem_dedup, List.mem_map, List.mem_filter, decide_eq_true_eq]
    constructor
    · rintro ⟨o, ⟨ho, rfl⟩, rfl⟩
      obtain ⟨row, hrow, heq⟩ := List.mem_filterMap.1 ho
      split at heq
      · split at heq
        · cases heq
          rename_i key' hkey' _
          exact ⟨row, List.mem_of_mem_filter (mem_sortedBy.1 hrow), hkey', rfl⟩
        · cases heq
      · cases heq
    · rintro ⟨row, hrow, hkeyOf, rfl⟩
      obtain ⟨htype, hget⟩ := keyOf_some hkeyOf
      have hfound : row ∈ lookupRows jsonText keys telemetry := by
        refine mem_sortedBy.2 (List.mem_filter.2 ⟨hrow, ?_⟩)
        rw [decide_eq_true_eq]
        refine ⟨key, hkey, htype, ?_⟩
        unfold arrowText
        rw [htype, lookupField_text, hget]
      refine ⟨⟨key, row.id, row.timestamp, isoWeekStart row.timestamp⟩, ⟨?_, rfl⟩, rfl⟩
      refine List.mem_filterMap.2 ⟨row, hfound, ?_⟩
      rw [hkeyOf]
      exact if_pos hkey

end Extraction

end TrackFlow.Pipelines
