import TrackFlow.Python.Time
import TrackFlow.Python.Collections

/-!
# The weekly transformation

`transformWeeklyPerformance`: rows are validated once and reduced to one event for each movement
(`prepareWeeklyEvents`), four counters are calculated independently, and `composeWeeklyPerformance`
joins them. What is left out of the counters is reported by `QualityIssue`s.

`datetime.fromisoformat` is the parameter `fromisoformat` throughout.
-/

namespace TrackFlow.Pipelines

open TrackFlow.Python

/-! ## Data -/

/-- `OFFICIAL_EVENT_TYPES`. -/
inductive EventType
  | inboundOrderCreated
  | outboundOrderCreated
  | stockThresholdTriggered
  | inventoryDiscrepancyDetected
  deriving DecidableEq

namespace EventType

/-- The name of the type. -/
def text : EventType → String
  | inboundOrderCreated => "inbound_order_created"
  | outboundOrderCreated => "outbound_order_created"
  | stockThresholdTriggered => "stock_threshold_triggered"
  | inventoryDiscrepancyDetected => "inventory_discrepancy_detected"

def all : List EventType :=
  [inboundOrderCreated, outboundOrderCreated, stockThresholdTriggered, inventoryDiscrepancyDetected]

/-- The type of a name. -/
def ofText? (s : String) : Option EventType := all.find? fun e => e.text = s

@[simp] theorem ofText_text (e : EventType) : ofText? e.text = some e := by cases e <;> decide

theorem ofText_eq_some {s : String} {e : EventType} (h : ofText? s = some e) : s = e.text := by
  have hs : e.text = s := by simpa using List.find?_some h
  exact hs.symm

end EventType

/-- A telemetry row as the extraction reads it; a missing column is `None`. -/
structure TelemetryRow where
  id : PyValue
  timestamp : PyValue
  service : PyValue
  eventType : PyValue
  tags : PyValue

/-- `AggregateKey`. -/
structure AggregateKey where
  warehouse : String
  clientId : String
  weekStart : Int
  deriving DecidableEq

/-- The order of keys. -/
def AggregateKey.le (a b : AggregateKey) : Bool :=
  pairLe textLe (pairLe textLe fun x y => x ≤ y) (a.warehouse, a.clientId, a.weekStart)
    (b.warehouse, b.clientId, b.weekStart)

/-- `WeeklyAggregate`. -/
structure WeeklyAggregate where
  warehouse : String
  clientId : String
  weekStart : Int
  inboundUnitsCount : Int
  outboundOrdersCount : Int
  stockoutEventsCount : Int
  discrepancyEventsCount : Int
  discrepancyRate : Rat
  deriving DecidableEq

/-- The key of an aggregate. -/
def WeeklyAggregate.key (a : WeeklyAggregate) : AggregateKey := ⟨a.warehouse, a.clientId, a.weekStart⟩

/-- A movement: the event type and the identity in the tags. -/
abbrev MovementKey : Type := EventType × String

/-- The order of movement keys. -/
def movementLe : MovementKey → MovementKey → Bool := pairLe (fun a b => textLe a.text b.text) textLe

/-- `QualityIssue`. -/
structure QualityIssue where
  code : String
  message : String
  eventIds : List String := []
  movementKey : Option MovementKey := none
  deriving DecidableEq

/-- The order of issues. -/
def QualityIssue.le (a b : QualityIssue) : Bool :=
  pairLe textLe (pairLe (tupleLe textLe) textLe) (a.code, a.eventIds, a.message) (b.code,
    b.eventIds, b.message)

/-- `MovementWeekEvidence`. -/
structure MovementWeekEvidence where
  weekStarts : List Int
  complete : Bool

/-- `CommercialOrderRecord`. -/
structure CommercialOrderRecord where
  orderId : String
  warehouse : String
  clientId : String
  dispatchCount : Int

/-- `CommercialOrderEvidence`. -/
structure CommercialOrderEvidence where
  records : String → Option CommercialOrderRecord
  lookupComplete : Bool

/-- The evidence for movements: `None`, or a mapping. -/
abbrev WeekEvidence : Type := Option (MovementKey → Option MovementWeekEvidence)

/-- `QualityReport`. -/
structure QualityReport where
  acceptedEventIds : List String
  rejectedEventIds : List String
  duplicateEventIdsConsolidated : List String
  duplicateMovementKeysConsolidated : List MovementKey
  duplicateMovementEventIdsConsolidated : List String
  conflictMovementKeys : List MovementKey
  issues : List QualityIssue
  crossWeekVerificationPending : List MovementKey
  coveragePending : List String
  deriving DecidableEq

/-- `WeeklyTransformationResult`. -/
structure WeeklyTransformationResult where
  aggregates : List WeeklyAggregate
  quality : QualityReport

/-- `_ValidatedEvent`. -/
structure ValidatedEvent where
  rowId : String
  eventType : EventType
  timestamp : Int
  weekStart : Int
  warehouse : String
  clientId : String
  tags : PyValue

/-- The tag that identifies the movement. -/
def EventType.identityField : EventType → String
  | inboundOrderCreated => "movement_id"
  | outboundOrderCreated => "order_id"
  | stockThresholdTriggered => "movement_id"
  | inventoryDiscrepancyDetected => "count_id"

namespace ValidatedEvent

/-- `movement_key`. -/
def movementKey (e : ValidatedEvent) : Option MovementKey :=
  match e.tags.get e.eventType.identityField with
  | .str identity => some (e.eventType, identity)
  | _ => none

/-- The grain at which an event counts. -/
def key (e : ValidatedEvent) : AggregateKey := ⟨e.warehouse, e.clientId, e.weekStart⟩

end ValidatedEvent

/-! ## Validation -/

/-- `_row_id`. -/
def rowId : PyValue → Except String String
  | .uuid u => .ok u.str
  | .str s =>
    match Uuid.ofString? s with
    | some u => .ok u.str
    | none => .error "id must be a UUID"
  | _ => .error "id must be a UUID"

/-- The first and the last instant that a `datetime` in UTC can have. -/
def datetimeMin : Int := midnight (-719162)

def datetimeMax : Int := midnight 2932897 - 1

/-- The part of `_parse_utc_timestamp` after parsing. -/
def utcInstant : PyValue → Except String Int
  | .aware t =>
    if datetimeMin ≤ t ∧ t ≤ datetimeMax then .ok t else .error "timestamp cannot be normalized to UTC"
  | .naive _ => .error "timestamp is naive or ambiguous; an explicit UTC offset is required"
  | _ => .error "timestamp must be a timezone-aware datetime"

section Transform

variable (fromisoformat : String → Option PyValue)

/-- `_parse_utc_timestamp`; the text is read after `replace("Z", "+00:00")`. -/
def parseUtcTimestamp : PyValue → Except String Int
  | .str s =>
    match fromisoformat (String.ofList (s.toList.flatMap fun c => if c = 'Z' then
        "+00:00".toList else [c])) with
    | some value => utcInstant value
    | none => .error "timestamp is not a valid ISO 8601 datetime"
  | value => utcInstant value

/-- `canonical_telemetry_warehouse`. -/
def canonicalTelemetryWarehouse : String → Option String
  | "LA" => some "los_angeles"
  | "ZGZ" => some "zaragoza"
  | "Los Angeles" => some "los_angeles"
  | "Zaragoza" => some "zaragoza"
  | _ => none

/-- `_canonical_warehouse` of text. -/
def canonicalWarehouseText (value : String) : Except String String :=
  if value = "los_angeles" ∨ value = "zaragoza" then .ok value
  else
    match canonicalTelemetryWarehouse value with
    | some canonical => .ok canonical
    | none => .error "warehouse is not a documented alias or canonical value"

/-- `_canonical_warehouse`. -/
def canonicalWarehouse : PyValue → Except String String
  | .str value => canonicalWarehouseText value
  | _ => .error "warehouse must be a recognized string"

/-- Text that is not blank. -/
def nonBlank (message : String) : PyValue → Except String String
  | .str value => if isBlank value then .error message else .ok value
  | _ => .error message

/-- `_valid_client_id`. -/
def validClientId : PyValue → Except String String := nonBlank "client_id must be a non-empty string"

/-- `_integer_quantity`. -/
def integerQuantity (allowZero : Bool) : PyValue → Except String Int
  | .int value => if value < (if allowZero then 0 else 1) then .error (message allowZero) else .ok value
  | _ => .error (message allowZero)
where
  message (allowZero : Bool) : String :=
    "quantity must be a " ++ (if allowZero then "non-negative" else "positive") ++ " integer (not boolean)"

/-- Text that `UUID` reads as a UUID of version 4. -/
def uuid4Text (message : String) : PyValue → Except String Unit
  | .str value =>
    match Uuid.ofString? value with
    | some u => if u.version = some 4 then .ok () else .error message
    | none => .error message
  | _ => .error message

/-- The test for membership in `OFFICIAL_EVENT_TYPES`, which needs a hashable value. -/
def officialEventType : PyValue → Except String EventType
  | .str s =>
    match EventType.ofText? s with
    | some e => .ok e
    | none => .error "event_type is not one of the four official business event types"
  | .list _ => .error "unhashable type: 'list'"
  | .dict _ => .error "unhashable type: 'dict'"
  | _ => .error "event_type is not one of the four official business event types"

/-- The checks of the identity and the quantity, by event type. -/
def checkIdentity (tags : PyValue) : EventType → Except String Unit
  | .inboundOrderCreated => do
    let _ ← nonBlank "movement_id must be a non-empty string for inbound movements" (tags.get "movement_id")
    let _ ← integerQuantity false (tags.get "quantity")
  | .outboundOrderCreated =>
      uuid4Text "order_id must be a UUID v4 for outbound orders" (tags.get "order_id")
  | .stockThresholdTriggered => do
    let _ ← nonBlank "movement_id must be a non-empty string for threshold events" (tags.get "movement_id")
    let _ ← integerQuantity true (tags.get "quantity")
  | .inventoryDiscrepancyDetected => do
    uuid4Text "count_id must be a UUID v4 for discrepancy events" (tags.get "count_id")
    let _ ← integerQuantity false (tags.get "quantity")

/-- The check of `product_id`. -/
def checkProductId : PyValue → Except String Unit
  | .none | .int _ => .ok ()
  | value => do
    let _ ← nonBlank "product_id must be a non-empty string or integer when present" value

/-- `_validate_event`. -/
def validateEvent (row : TelemetryRow) : Except String ValidatedEvent := do
  let id ← rowId row.id
  let eventType ← officialEventType row.eventType
  if ¬row.service.Eq (.str "api") then throw "unexpected service provenance; expected api"
  let .dict _ := row.tags | throw "tags must be a JSON object"
  let timestamp ← parseUtcTimestamp fromisoformat row.timestamp
  let warehouse ← canonicalWarehouse (row.tags.get "warehouse")
  let clientId ← validClientId (row.tags.get "client_id")
  checkIdentity row.tags eventType
  checkProductId (row.tags.get "product_id")
  return { rowId := id, eventType, timestamp, weekStart := isoWeekStart timestamp, warehouse, clientId, tags := row.tags }

/-! ## Comparison of rows -/

mutual

/-- `_stable_value` up to `==`: a dictionary is the tuple of its items in the order of their keys. -/
def stableValue : PyValue → Normal
  | .list xs => .list (stableList xs)
  | .dict kvs => .list ((sortByKey (stableDict kvs)).map fun p => .list [.leaf (.str p.1), p.2])
  | value => value.normal

def stableList : List PyValue → List Normal
  | [] => []
  | x :: xs => stableValue x :: stableList xs

def stableDict : List (String × PyValue) → List (String × Normal)
  | [] => []
  | (k, x) :: xs => (k, stableValue x) :: stableDict xs

end

/-- The timestamps of two rows: as instants where both are valid, else as they are. -/
def sameTimestamp (left right : PyValue) : Bool :=
  match parseUtcTimestamp fromisoformat left, parseUtcTimestamp fromisoformat right with
  | .ok a, .ok b => a = b
  | _, _ => left.Eq right

/-- `_same_persisted_row`. -/
def samePersistedRow (left right : TelemetryRow) : Bool :=
  sameTimestamp fromisoformat left.timestamp right.timestamp && stableValue left.eventType =
    stableValue right.eventType && stableValue left.service = stableValue right.service &&
    stableValue left.tags = stableValue right.tags

/-- `_movement_signature`. -/
def movementSignature (e : ValidatedEvent) : String × String × Normal × Int :=
  (e.warehouse, e.clientId, stableValue e.tags, e.weekStart)

/-! ## Preparation -/

/-- `_evidence_for_key`: whether the verification is pending, and whether the weeks conflict. -/
def evidenceForKey (evidence : WeekEvidence) (key : MovementKey) (observedWeeks : List Int) : Bool × Bool :=
  match evidence.bind fun lookup => lookup key with
  | none => (true, false)
  | some item =>
    if !item.complete then (true, false)
    else (false, 1 < item.weekStarts.dedup.length || !(item.weekStarts ⊆ observedWeeks &&
      observedWeeks ⊆ item.weekStarts))

/-- `PreparedWeeklyEvents`. -/
structure PreparedWeeklyEvents where
  events : List ValidatedEvent
  rejectedEventIds : List String
  duplicateEventIdsConsolidated : List String
  duplicateMovementKeysConsolidated : List MovementKey
  duplicateMovementEventIdsConsolidated : List String
  conflictMovementKeys : List MovementKey
  issues : List QualityIssue
  crossWeekVerificationPending : List MovementKey

/-- The issue of a row without a usable id. -/
def invalidRowIdIssue (row : TelemetryRow) : Option QualityIssue :=
  match rowId row.id with
  | .ok _ => none
  | .error message => some ⟨"invalid_row_id", message, [], none⟩

/-- The rows that share an id, in their order. -/
def rowsWithId (events : List TelemetryRow) (id : String) : List TelemetryRow :=
  events.filter fun row => rowId row.id = .ok id

/-- The ids of the rows, sorted. -/
def rowIds (events : List TelemetryRow) : List String :=
  sortedSet textLe (events.filterMap fun row => (rowId row.id).toOption)

/-- Whether the rows of an id are all the same row. -/
def consistentId (events : List TelemetryRow) (id : String) : Bool :=
  match rowsWithId events id with
  | [] => true
  | first :: rest => rest.all (samePersistedRow fromisoformat first)

/-- The issue of an id whose rows differ. -/
def rowConflictIssue (id : String) : QualityIssue :=
  ⟨"telemetry_row_id_conflict",
    "Repeated telemetry_events.id values have different row contents.", [id], none⟩

/-- `unique_rows`. -/
def uniqueRows (events : List TelemetryRow) : List TelemetryRow :=
  ((rowIds events).filter (consistentId fromisoformat events)).filterMap fun id =>
    (rowsWithId events id).head?

/-- The issue of a row that does not validate. -/
def validationIssue (row : TelemetryRow) : Option QualityIssue :=
  match validateEvent fromisoformat row with
  | .ok _ => none
  | .error message => some ⟨"event_validation_failed", message, (rowId row.id).toOption.toList, none⟩

/-- `validated`. -/
def validated (rows : List TelemetryRow) : List ValidatedEvent :=
  rows.filterMap fun row => (validateEvent fromisoformat row).toOption

/-- The events of a movement, by row id. -/
def movementGroup (events : List ValidatedEvent) (key : MovementKey) : List ValidatedEvent :=
  sortedBy (fun a b => textLe a.rowId b.rowId) (events.filter fun e => e.movementKey = some key)

/-- The movements of the events, sorted. -/
def movementKeys (events : List ValidatedEvent) : List MovementKey :=
  sortedSet movementLe (events.filterMap ValidatedEvent.movementKey)

/-- The weeks in which a movement was observed. -/
def observedWeeks (events : List ValidatedEvent) (key : MovementKey) : List Int :=
  ((movementGroup events key).map ValidatedEvent.weekStart).dedup

/-- Whether a movement is rejected: its events differ, or the evidence has it in other weeks. -/
def conflicting (evidence : WeekEvidence) (events : List ValidatedEvent) (key : MovementKey) : Bool :=
  1 < ((movementGroup events key).map movementSignature).dedup.length ||
    (evidenceForKey evidence key (observedWeeks events key)).2

/-- The issue of a rejected movement. -/
def movementConflictIssue (evidence : WeekEvidence) (events : List ValidatedEvent)
    (key : MovementKey) : QualityIssue where
  code := "movement_conflict"
  message :=
    if (evidenceForKey evidence key (observedWeeks events key)).2 then
      "Complete movement evidence attributes this movement to conflicting ISO weeks."
    else "Repeated business identities conflict on event tags, warehouse, client, or week."
  eventIds := (movementGroup events key).map ValidatedEvent.rowId
  movementKey := some key

/-- The order of the prepared events. -/
def ValidatedEvent.le (a b : ValidatedEvent) : Bool :=
  pairLe (fun x y : Int => x ≤ y) (pairLe textLe (pairLe textLe textLe)) (a.weekStart, a.warehouse,
    a.clientId, a.rowId) (b.weekStart, b.warehouse, b.clientId, b.rowId)

/-- `prepare_weekly_events`. -/
def prepareWeeklyEvents (events : List TelemetryRow) (evidence : WeekEvidence) : PreparedWeeklyEvents :=
  let ids := rowIds events
  let conflictIds := ids.filter fun id => !consistentId fromisoformat events id
  let unique := uniqueRows fromisoformat events
  let invalid := unique.filterMap (validationIssue fromisoformat)
  let valid := validated fromisoformat unique
  let keys := movementKeys valid
  let conflicts := keys.filter (conflicting evidence valid)
  let kept := keys.filter fun key => !conflicting evidence valid key
  let repeated := kept.filter fun key => 1 < (movementGroup valid key).length
  { events := sortedBy ValidatedEvent.le
      (valid.filter (fun e => e.movementKey = none) ++ kept.filterMap fun key =>
          (movementGroup valid key).head?)
    rejectedEventIds := sortedSet textLe (conflictIds ++ invalid.flatMap QualityIssue.eventIds ++
      conflicts.flatMap fun key => (movementGroup valid key).map ValidatedEvent.rowId)
    duplicateEventIdsConsolidated := sortedSet textLe
      (ids.filter fun id => consistentId fromisoformat events id && 1 < (rowsWithId events id).length)
    duplicateMovementKeysConsolidated := sortedSet movementLe repeated
    duplicateMovementEventIdsConsolidated := sortedSet textLe
      (repeated.flatMap fun key => (movementGroup valid key).tail.map ValidatedEvent.rowId)
    conflictMovementKeys := sortedSet movementLe conflicts
    issues := events.filterMap invalidRowIdIssue ++ conflictIds.map rowConflictIssue ++ invalid ++
      conflicts.map (movementConflictIssue evidence valid)
    crossWeekVerificationPending := sortedSet movementLe
      (keys.filter fun key => (evidenceForKey evidence key (observedWeeks valid key)).1) }

/-! ## Counters -/

/-- `MetricContribution`. -/
structure MetricContribution where
  values : List (AggregateKey × Int × List String)
  acceptedEventIds : List String := []
  rejectedEventIds : List String := []
  conflictMovementKeys : List MovementKey := []
  issues : List QualityIssue := []

/-- The rows of a counter: what an event adds, and where. -/
abbrev MetricRow : Type := AggregateKey × Int × String

/-- The sum of the rows of a key. -/
def metricTotal (rows : List MetricRow) (key : AggregateKey) : Int :=
  ((rows.filter fun r => r.1 = key).map fun r => r.2.1).sum

/-- The keys of the rows, sorted. -/
def metricKeys (rows : List MetricRow) : List AggregateKey := sortedSet AggregateKey.le (rows.map Prod.fst)

/-- The values of a contribution: its keys with their sums and contributors. -/
def metricValues (rows : List MetricRow) : List (AggregateKey × Int × List String) :=
  (metricKeys rows).map fun key =>
    (key, metricTotal rows key, sortedSet textLe ((rows.filter fun r => r.1 = key).map fun r => r.2.2))

/-- `_group_metric_values`. -/
def groupMetricValues (rows : List MetricRow) (accepted : List String) (rejected : List String := [])
    (conflicts : List MovementKey := []) (issues : List QualityIssue := []) : MetricContribution where
  values := metricValues rows
  acceptedEventIds := sortedBy textLe accepted
  rejectedEventIds := sortedBy textLe rejected
  conflictMovementKeys := sortedBy movementLe conflicts
  issues := issues

/-- The prepared events of a type. -/
def PreparedWeeklyEvents.ofType (p : PreparedWeeklyEvents) (t : EventType) : List ValidatedEvent :=
  p.events.filter fun e => e.eventType = t

/-- `calculate_inbound_volume`; the quantities were validated, but are read again. -/
def calculateInboundVolume (p : PreparedWeeklyEvents) : Except String MetricContribution := do
  let events := p.ofType .inboundOrderCreated
  let rows ← events.mapM fun e => do
    let quantity ← integerQuantity false (e.tags.get "quantity")
    return ((e.key, quantity, e.rowId) : MetricRow)
  return groupMetricValues rows (events.map ValidatedEvent.rowId)

/-- One for each event. -/
def countRows (events : List ValidatedEvent) : List MetricRow := events.map fun e => (e.key, 1, e.rowId)

/-- `calculate_stockout_frequency`. -/
def calculateStockoutFrequency (p : PreparedWeeklyEvents) : MetricContribution :=
  groupMetricValues (countRows (p.ofType .stockThresholdTriggered))
    ((p.ofType .stockThresholdTriggered).map ValidatedEvent.rowId)

/-- `calculate_discrepancy_events`. -/
def calculateDiscrepancyEvents (p : PreparedWeeklyEvents) : MetricContribution :=
  groupMetricValues (countRows (p.ofType .inventoryDiscrepancyDetected))
    ((p.ofType .inventoryDiscrepancyDetected).map ValidatedEvent.rowId)

/-- The record of the order that an outbound event names; `event.tags["order_id"]` is text for
validated events. -/
def orderRecord (orders : CommercialOrderEvidence) (e : ValidatedEvent) : Option CommercialOrderRecord :=
  match e.tags.get "order_id" with
  | .str orderId => orders.records orderId
  | _ => none

/-- `identity_conflicts`: where a record contradicts the event. -/
def identityConflicts (record : CommercialOrderRecord) (e : ValidatedEvent) : List String :=
  (if e.tags.get "order_id" |>.Eq (.str record.orderId) then [] else ["order_id"]) ++
  (match canonicalWarehouseText record.warehouse with
    | .error _ => ["warehouse (invalid in order evidence)"]
    | .ok warehouse => if warehouse = e.warehouse then [] else ["warehouse"]) ++
  (if record.clientId = e.clientId then [] else ["client_id"]) ++
  (if record.dispatchCount < 1 then ["dispatch_count"] else [])

/-- The issue of an outbound event that is not counted, if it is not. -/
def outboundIssue (orders : CommercialOrderEvidence) (e : ValidatedEvent) : Option QualityIssue :=
  match orderRecord orders e with
  | none =>
    some (if orders.lookupComplete then
      ⟨"commercial_order_missing",
        "No matching commercial order with a dispatch was found by the complete auxiliary lookup.",
        [e.rowId], e.movementKey⟩
    else
      ⟨"outbound_order_verification_unavailable",
        "Commercial-order verification was unavailable; an order was not presumed.",
        [e.rowId], e.movementKey⟩)
  | some record =>
    if identityConflicts record e = [] then none
    else some ⟨"commercial_order_identity_conflict",
      "Commercial-order identity contradicts telemetry: " ++ ", ".intercalate
      (identityConflicts record e), [e.rowId], e.movementKey⟩

/-- Whether an outbound event contradicts the record of its order. -/
def contradicted (orders : CommercialOrderEvidence) (e : ValidatedEvent) : Bool :=
  (orderRecord orders e).any fun record => identityConflicts record e ≠ []

/-- `calculate_outbound_throughput`. -/
def calculateOutboundThroughput (p : PreparedWeeklyEvents) (orders : CommercialOrderEvidence) :
    MetricContribution :=
  let events := p.ofType .outboundOrderCreated
  let counted := events.filter fun e => (outboundIssue orders e).isNone
  groupMetricValues (countRows counted) (counted.map ValidatedEvent.rowId)
    ((events.filter fun e => (outboundIssue orders e).isSome).map ValidatedEvent.rowId)
    ((events.filter (contradicted orders)).filterMap ValidatedEvent.movementKey)
      (events.filterMap (outboundIssue orders))

/-! ## Composition -/

/-- `_INTEGER_COUNT_FIELDS`. -/
def integerCountFields : List String :=
  ["inbound_units_count", "outbound_orders_count", "stockout_events_count", "discrepancy_events_count"]

/-- The counter and the contributors of a key. -/
def MetricContribution.get (c : MetricContribution) (key : AggregateKey) : Int × List String :=
  match c.values.find? fun v => v.1 = key with
  | some v => v.2
  | none => (0, [])

/-- Whether PostgreSQL's `integer` cannot hold a counter. -/
def overflows (value : Int) : Bool := value < 0 || 2147483647 < value

/-- `discrepancy_rate` with 28 digits. -/
def discrepancyRate (discrepancies outbound : Int) : Rat :=
  if outbound = 0 then 0 else decimalDivide discrepancies.toNat outbound.toNat

/-- The issue of a counter that overflows. -/
def overflowIssue (key : AggregateKey) (field : String) (ids : List String) : QualityIssue where
  code := "aggregate_integer_overflow"
  message := field ++ " exceeds PostgreSQL integer range for warehouse=" ++ key.warehouse ++
    ", client_id=" ++ key.clientId ++ ", week_start=" ++ isoDate key.weekStart ++
    "; the complete weekly result is blocked."
  eventIds := ids

/-- The fields of a key that overflow, with their contributors. -/
def overflowing (contributions : List MetricContribution) (key : AggregateKey) :
    List (String × List String) :=
  ((integerCountFields.zip contributions).filter fun p => overflows (p.2.get key).1).map fun p =>
    (p.1, (p.2.get key).2)

/-- The aggregate of a key. -/
def aggregateOf (inbound outbound stockouts discrepancies : MetricContribution)
    (key : AggregateKey) : WeeklyAggregate where
  warehouse := key.warehouse
  clientId := key.clientId
  weekStart := key.weekStart
  inboundUnitsCount := (inbound.get key).1
  outboundOrdersCount := (outbound.get key).1
  stockoutEventsCount := (stockouts.get key).1
  discrepancyEventsCount := (discrepancies.get key).1
  discrepancyRate := discrepancyRate (discrepancies.get key).1 (outbound.get key).1

/-- `coverage_pending`. -/
def coveragePending : List String :=
  ["Coverage is unverified: stock_threshold_triggered has no confirmed producer/capture guarantee.",
    "Coverage is unverified: inventory_discrepancy_detected has no confirmed producer/capture guarantee.",
    "An outbound order lacks verified commercial-order identity and dispatch evidence."]

/-- The keys of the contributions, sorted. -/
def contributionKeys (contributions : List MetricContribution) : List AggregateKey :=
  sortedSet AggregateKey.le (contributions.flatMap fun c => c.values.map Prod.fst)

/-- Every counter that overflows, with its key and its contributors. -/
def overflowed (contributions : List MetricContribution) : List (AggregateKey × String × List String) :=
  (contributionKeys contributions).flatMap fun key => (overflowing contributions key).map fun f => (key, f)

/-- `compose_weekly_performance`, whose four contributions come in their canonical order. -/
def composeWeeklyPerformance (p : PreparedWeeklyEvents)
    (inbound outbound stockouts discrepancies : MetricContribution) : WeeklyTransformationResult :=
  let contributions := [inbound, outbound, stockouts, discrepancies]
  let overflow := overflowed contributions
  let lost := overflow.flatMap fun o => o.2.2
  { aggregates :=
      if overflow = [] then (contributionKeys contributions).map
        (aggregateOf inbound outbound stockouts discrepancies) else []
    quality :=
      { acceptedEventIds := sortedSet textLe
          ((contributions.flatMap MetricContribution.acceptedEventIds).filter fun id => id ∉ lost)
        rejectedEventIds := sortedSet textLe
          (p.rejectedEventIds ++ contributions.flatMap MetricContribution.rejectedEventIds ++ lost)
        duplicateEventIdsConsolidated := p.duplicateEventIdsConsolidated
        duplicateMovementKeysConsolidated := p.duplicateMovementKeysConsolidated
        duplicateMovementEventIdsConsolidated := p.duplicateMovementEventIdsConsolidated
        conflictMovementKeys := sortedSet movementLe
          (p.conflictMovementKeys ++ contributions.flatMap MetricContribution.conflictMovementKeys)
        issues := sortedBy QualityIssue.le (p.issues ++ contributions.flatMap MetricContribution.issues ++
          overflow.map fun o => overflowIssue o.1 o.2.1 o.2.2)
        crossWeekVerificationPending := p.crossWeekVerificationPending
        coveragePending := coveragePending } }

/-- `transform_weekly_performance`. -/
def transformWeeklyPerformance (events : List TelemetryRow) (orders : CommercialOrderEvidence)
    (evidence : WeekEvidence) :
    Except String WeeklyTransformationResult := do
  let p := prepareWeeklyEvents fromisoformat events evidence
  let inbound ← calculateInboundVolume p
  return composeWeeklyPerformance p inbound (calculateOutboundThroughput p orders)
    (calculateStockoutFrequency p) (calculateDiscrepancyEvents p)

end Transform

end TrackFlow.Pipelines
