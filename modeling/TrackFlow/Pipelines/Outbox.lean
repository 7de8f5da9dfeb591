import TrackFlow.Python.Value
import TrackFlow.Python.Collections

/-!
# The outbox and its destination

The rows of `inventory_event_outbox`, the rows of `telemetry_events` that they become, and the
comparison with which a relay recognises a row that was delivered before.
-/

namespace TrackFlow.Pipelines

open TrackFlow.Python

/-! ## Rows -/

/-- A row of `inventory_event_outbox`. -/
structure OutboxRow where
  eventId : Uuid
  occurredAt : Int
  sourceTable : String
  sourcePk : Int
  eventType : String
  tags : PyValue
  publishedAt : Option Int := none
  attemptCount : Nat := 0
  lastAttemptAt : Option Int := none
  lastError : Option String := none

/-- A row of `telemetry_events`. -/
structure TelemetryRecord where
  id : Uuid
  timestamp : Int
  service : String
  eventType : String
  level : Option String
  value : Option Rat
  message : Option String
  tags : PyValue

/-- `EVENT_PROPERTY_ALLOWLISTS`. -/
def eventPropertyAllowlists : List (String × List String) :=
  [("inbound_order_created", ["warehouse", "client_id", "product_id", "product_category", "quantity",
      "movement_id"]), ("outbound_order_created", ["warehouse", "client_id", "order_id"]),
    ("stock_threshold_triggered", ["warehouse", "client_id", "product_id", "product_category", "quantity",
      "threshold_quantity", "movement_id"]),
    ("direct_stock_edit_rejected", ["warehouse", "client_id", "product_id", "product_category",
      "quantity"]), ("inventory_discrepancy_detected", ["warehouse", "client_id", "product_id",
      "product_category", "quantity", "system_quantity", "counted_quantity", "discrepancy_delta",
      "discrepancy_type", "count_id"]), ("auth_login_succeeded", ["role"]),
    ("auth_login_failed", ["failure_reason", "role_if_known"]),
    ("auth_password_reset_requested", ["request_outcome_class"]), ("auth_password_reset_completed", []),
    ("inventory_validation_failed", ["operation", "failure_reason", "warehouse", "product_id",
      "status_code"]), ("inventory_stock_insufficient", ["warehouse", "client_id", "product_id",
      "product_category", "requested_quantity", "available_quantity"]),
    ("api_request_slow", ["method", "path_template", "status_code", "duration_ms", "threshold_ms"]),
    ("api_request_failed", ["method", "path_template", "status_code", "duration_ms"]),
    ("backoffice_section_entered", ["section"]), ("inventory_workflow_started", ["workflow"]),
    ("inventory_workflow_abandoned", ["workflow", "abandonment_stage", "had_validation_error",
      "duration_ms"]), ("inventory_product_created", ["warehouse", "client_id", "product_id",
      "product_category"])]

/-- The truth value of a Python value. -/
def truthy : PyValue → Bool
  | .none => false
  | .bool b => b
  | .int z => z ≠ 0
  | .float q => q ≠ 0
  | .str s => !s.isEmpty
  | .list xs => !xs.isEmpty
  | .dict kvs => !kvs.isEmpty
  | .uuid _ | .aware _ | .naive _ => true

/-- `filter_tags`: `none` when the properties are no mapping. -/
def filterTags (eventType : String) (properties : PyValue) : Option PyValue :=
  let allowed := ((eventPropertyAllowlists.find? fun entry => entry.1 = eventType).map Prod.snd).getD []
  if allowed.isEmpty || !truthy properties then some (.dict [])
  else
    match properties with
    | .dict kvs => some (.dict (kvs.filter fun item => item.1 ∈ allowed))
    | _ => none

/-- `map_outbox_event_to_row`. -/
def mapOutboxEventToRow (e : OutboxRow) : Option TelemetryRecord :=
  (filterTags e.eventType e.tags).map fun tags =>
    { id := e.eventId, timestamp := e.occurredAt, service := "api", eventType := e.eventType, level := some "info"
      value := none, message := none, tags }

theorem mapOutboxEventToRow_id {e : OutboxRow} {row : TelemetryRecord}
    (h : mapOutboxEventToRow e = some row) : row.id = e.eventId := by
  obtain ⟨tags, -, rfl⟩ := Option.map_eq_some_iff.1 h
  rfl

/-- The tuple of `_canonical_destination`, up to the equality of Python. -/
structure Canonical where
  id : Uuid
  timestamp : Int
  service : String
  eventType : String
  level : Option String
  value : Option Rat
  message : Option String
  tags : Normal
  deriving DecidableEq

/-- `_canonical_destination`. -/
def canonicalDestination (row : TelemetryRecord) : Canonical where
  id := row.id
  timestamp := row.timestamp
  service := row.service
  eventType := row.eventType
  level := row.level
  value := row.value
  message := row.message
  tags := (if truthy row.tags then row.tags else .dict []).normal

/-! ## Pending rows -/

/-- Pairs of an instant and digits, compared lexicographically. -/
instance preorderRowKey : Preorder (ℤ ×ₗ List (Fin 16)) :=
  (Prod.Lex.instLinearOrder ℤ (List (Fin 16))).toPreorder

namespace OutboxRow

/-- `published_at IS NULL`. -/
def pending (e : OutboxRow) : Bool := e.publishedAt.isNone

/-- `ORDER BY occurred_at, event_id`. -/
def rank (e : OutboxRow) : ℤ ×ₗ List (Fin 16) := toLex (e.occurredAt, e.eventId.digits)

theorem eventId_of_rank {e e' : OutboxRow} (h : e.rank = e'.rank) : e.eventId = e'.eventId := by
  have hdigits : e.eventId.digits = e'.eventId.digits := congrArg Prod.snd (toLex.injective h)
  cases hid : e.eventId with
  | mk digits len =>
    cases hid' : e'.eventId with
    | mk digits' len' =>
      rw [hid, hid'] at hdigits
      cases hdigits
      rfl

/-- The acknowledgement of a delivery. -/
def acknowledge (e : OutboxRow) (now : Int) : OutboxRow :=
  { e with publishedAt := some now, attemptCount := e.attemptCount + 1, lastAttemptAt := some now, lastError := none }

/-- The record of a failure. -/
def fail (e : OutboxRow) (code : String) (now : Int) : OutboxRow :=
  { e with attemptCount := e.attemptCount + 1, lastAttemptAt := some now, lastError := some code }

end OutboxRow

/-- The first pending row that `free` lets through, as `ORDER BY … FOR UPDATE SKIP LOCKED LIMIT 1`
finds it. -/
def nextPending (free : Uuid → Bool) (rows : List OutboxRow) : Option OutboxRow :=
  (rows.filter fun e => e.pending && free e.eventId).argmin OutboxRow.rank

section Next

variable {free : Uuid → Bool} {rows : List OutboxRow} {e : OutboxRow}

theorem nextPending_mem (h : nextPending free rows = some e) :
    e ∈ rows ∧ e.pending = true ∧ free e.eventId = true := by
  have hmem := List.mem_filter.1 (List.argmin_mem h)
  exact ⟨hmem.1, by simpa using hmem.2⟩

theorem nextPending_le (h : nextPending free rows = some e) {e' : OutboxRow} (hmem : e' ∈ rows)
    (hpending : e'.pending = true) (hfree : free e'.eventId = true) : e.rank ≤ e'.rank :=
  List.le_of_mem_argmin (List.mem_filter.2 ⟨hmem, by simp [hpending, hfree]⟩) h

theorem nextPending_none (h : nextPending free rows = none) (hmem : e ∈ rows)
    (hfree : free e.eventId = true) : e.pending = false := by
  have hnil := List.argmin_eq_none.1 h
  rw [List.filter_eq_nil_iff] at hnil
  simpa [hfree] using hnil e hmem

end Next

/-- `UPDATE … WHERE event_id = …`. -/
def updateEvent (id : Uuid) (change : OutboxRow → OutboxRow) (rows : List OutboxRow) : List OutboxRow :=
  rows.map fun e => if e.eventId = id then change e else e

theorem mem_updateEvent {id : Uuid} {change : OutboxRow → OutboxRow} {rows : List OutboxRow}
    {e : OutboxRow} :
    e ∈ updateEvent id change rows ↔ ∃ e' ∈ rows, e = if e'.eventId = id then change e' else e' := by
  simp only [updateEvent, List.mem_map, eq_comm]

theorem updateEvent_keys {id : Uuid} {change : OutboxRow → OutboxRow} {rows : List OutboxRow}
    (hid : ∀ e, (change e).eventId = e.eventId) :
    (updateEvent id change rows).map OutboxRow.eventId = rows.map OutboxRow.eventId := by
  rw [updateEvent, List.map_map]
  refine List.map_congr_left fun e _ => ?_
  show (if e.eventId = id then change e else e).eventId = e.eventId
  split
  · exact hid e
  · rfl

/-! ## Deliveries -/

/-- `_persist_destination_event`: the rows of the destination after it, or `none` for a conflict. -/
def persistDestinationEvent (telemetry : List TelemetryRecord) (expected : TelemetryRecord) :
    Option (List TelemetryRecord) :=
  match telemetry.find? fun row => row.id = expected.id with
  | none => some (telemetry ++ [expected])
  | some actual => if canonicalDestination actual = canonicalDestination expected then some telemetry else none

end TrackFlow.Pipelines
