import TrackFlow.Pipelines.Outbox
import TrackFlow.Pipelines.Coordinator

/-!
# The operational coverage audit

`auditOperationalSnapshot` compares the rows of the operational tables of one week with the outbox,
and the outbox with the official telemetry. It raises (`none`) when the tags of an outbox row are no
mapping.
-/

namespace TrackFlow.Pipelines

open TrackFlow.Python

/-! ## Snapshots -/

/-- A row of `stockentry` joined with its SKU. -/
structure EntryRow where
  id : Int
  skuId : Int
  quantity : Int
  warehouse : String
  clientId : Option String
  category : String

/-- A row of `commercial_order`. -/
structure OrderRow where
  id : Int
  orderId : Uuid
  clientId : String
  warehouse : String

/-- A row of `stockexit` that belongs to an order. -/
structure DispatchRow where
  dispatchId : Option Uuid
  orderPk : Int

/-- A row of `stockentry` or `stockexit` joined with its SKU. -/
structure MovementRow where
  sourceTable : String
  sourcePk : Int
  skuId : Int
  quantity : Int
  warehouse : String
  clientId : Option String
  category : String
  createdAt : Int

/-- A row of `inventory_threshold_evaluation`. -/
structure CheckpointRow where
  sourceTable : String
  sourcePk : Int
  skuId : Int
  clientId : Option String
  warehouse : String
  beforeQuantity : Int
  afterQuantity : Int
  thresholdQuantity : Option Int
  crossed : Bool
  eventId : Option Uuid
  evaluatedAt : Int

/-- A row of `inventory_physical_count` joined with its SKU. -/
structure CountRow where
  id : Int
  countId : Uuid
  skuId : Int
  clientId : String
  warehouse : String
  expectedQuantity : Int
  observedQuantity : Int
  category : String

/-- `OperationalSnapshot`. -/
structure OperationalSnapshot where
  entries : List EntryRow
  orders : List OrderRow
  dispatches : List DispatchRow
  movements : List MovementRow
  checkpoints : List CheckpointRow
  counts : List CountRow
  outbox : List OutboxRow
  telemetry : List TelemetryRecord

/-- `OperationalCoverageAudit`, without the events of a clean audit. -/
structure OperationalCoverageAudit where
  evidence : CoverageEvidence
  diagnostics : List String

/-- `complete`. -/
def OperationalCoverageAudit.complete (a : OperationalCoverageAudit) : Bool :=
  a.diagnostics.isEmpty && a.evidence.lookupComplete

/-! ## Expected content -/

/-- `_canonical_warehouse`. -/
def auditWarehouse (value : String) : Option String :=
  if value = "los_angeles" ∨ value = "zaragoza" then some value else canonicalTelemetryWarehouse value

/-- Text or `None`. -/
def optionText : Option String → PyValue
  | some s => .str s
  | none => .none

/-- An integer or `None`. -/
def optionInt : Option Int → PyValue
  | some z => .int z
  | none => .none

/-- The tags of the event of an entry. -/
def EntryRow.tags (entry : EntryRow) : PyValue :=
  .dict
    [("warehouse", optionText (auditWarehouse entry.warehouse)),
      ("client_id", optionText entry.clientId),
      ("product_id", .str (toString entry.skuId)),
      ("product_category", .str entry.category),
      ("quantity", .int entry.quantity),
      ("movement_id", .str (toString entry.id))]

/-- The tags of the event of an order. -/
def OrderRow.tags (order : OrderRow) : PyValue :=
  .dict
    [("order_id", .str order.orderId.str),
      ("warehouse", optionText (auditWarehouse order.warehouse)),
      ("client_id", .str order.clientId)]

/-- The tags of the threshold event of a movement. -/
def MovementRow.tags (movement : MovementRow) (checkpoint : CheckpointRow) : PyValue :=
  .dict
    [("warehouse", optionText (auditWarehouse movement.warehouse)),
      ("client_id", optionText movement.clientId),
      ("product_id", .str (toString movement.skuId)),
      ("product_category", .str movement.category),
      ("quantity", .int checkpoint.afterQuantity),
      ("threshold_quantity", optionInt checkpoint.thresholdQuantity),
      ("movement_id", .str (toString movement.sourcePk))]

/-- The tags of the event of a count. -/
def CountRow.tags (count : CountRow) : PyValue :=
  let delta := count.observedQuantity - count.expectedQuantity
  .dict
    [("warehouse", optionText (auditWarehouse count.warehouse)),
      ("client_id", .str count.clientId),
      ("product_id", .str (toString count.skuId)),
      ("product_category", .str count.category),
      ("quantity", .int delta.natAbs),
      ("system_quantity", .int count.expectedQuantity),
      ("counted_quantity", .int count.observedQuantity),
      ("discrepancy_delta", .int delta),
      ("discrepancy_type", .str (if delta > 0 then "surplus" else "shortage")),
      ("count_id", .str count.countId.str)]

/-! ## Source rows -/

/-- The unique key of the outbox: source table, source key and event type. -/
abbrev OutboxKey : Type := String × Int × String

/-- The key of a row. -/
def OutboxRow.key (e : OutboxRow) : OutboxKey := (e.sourceTable, e.sourcePk, e.eventType)

/-- `outbox.get(key, [])`. -/
def outboxRows (outbox : List OutboxRow) (key : OutboxKey) : List OutboxRow :=
  outbox.filter fun e => e.key = key

/-- `exact_outbox` and the comparison of the tags. -/
def exactOutbox (outbox : List OutboxRow) (key : OutboxKey) (expected : PyValue)
    (mismatch : String) : List String :=
  match outboxRows outbox key with
  | [row] => if row.tags.Eq expected then [] else [mismatch]
  | _ => [key.2.2 ++ "_outbox_count_mismatch"]

def EntryRow.outboxKey (entry : EntryRow) : OutboxKey := ("stockentry", entry.id, "inbound_order_created")

def OrderRow.outboxKey (order : OrderRow) : OutboxKey :=
  ("commercial_order", order.id, "outbound_order_created")

def MovementRow.outboxKey (movement : MovementRow) : OutboxKey :=
  (movement.sourceTable, movement.sourcePk, "stock_threshold_triggered")

def CountRow.outboxKey (count : CountRow) : OutboxKey :=
  ("inventory_physical_count", count.id, "inventory_discrepancy_detected")

/-- The diagnostics of an entry. -/
def auditEntry (outbox : List OutboxRow) (entry : EntryRow) : List String :=
  exactOutbox outbox entry.outboxKey entry.tags "inbound_outbox_content_mismatch"

/-- The diagnostics of an order. -/
def auditOrder (outbox : List OutboxRow) (dispatches : List DispatchRow) (order : OrderRow) : List String :=
  (if (dispatches.filter fun d => d.orderPk = order.id) = [] then
      ["commercial_order_without_dispatch"] else []) ++
    exactOutbox outbox order.outboxKey order.tags "outbound_outbox_content_mismatch"

/-- The checkpoints of a movement. -/
def MovementRow.checkpoints (movement : MovementRow) (checkpoints : List CheckpointRow) :
    List CheckpointRow :=
  checkpoints.filter fun c => c.sourceTable = movement.sourceTable ∧ c.sourcePk = movement.sourcePk

/-- `crossed`. -/
def MovementRow.crossed (movement : MovementRow) (checkpoint : CheckpointRow) : Bool :=
  movement.sourceTable = "stockexit" &&
    match checkpoint.thresholdQuantity with
    | some threshold => checkpoint.beforeQuantity > threshold && checkpoint.afterQuantity ≤ threshold
    | none => false

/-- `expected_after`. -/
def MovementRow.expectedAfter (movement : MovementRow) (checkpoint : CheckpointRow) : Int :=
  if movement.sourceTable = "stockentry" then checkpoint.beforeQuantity + movement.quantity
  else checkpoint.beforeQuantity - movement.quantity

/-- The diagnostics of the threshold event of a movement. -/
def auditThreshold (outbox : List OutboxRow) (movement : MovementRow) (checkpoint : CheckpointRow) :
    List String :=
  let rows := outboxRows outbox movement.outboxKey
  if movement.crossed checkpoint then
    match rows with
    | [row] =>
      if checkpoint.eventId ≠ some row.eventId then ["threshold_crossed_event_mismatch"]
      else if row.tags.Eq (movement.tags checkpoint) then [] else ["threshold_outbox_content_mismatch"]
    | _ => ["threshold_crossed_event_mismatch"]
  else if rows ≠ [] ∨ checkpoint.eventId ≠ none then ["threshold_not_crossed_has_event"] else []

/-- The diagnostics of a movement. -/
def auditMovement (outbox : List OutboxRow) (checkpoints : List CheckpointRow)
    (movement : MovementRow) : List String :=
  match movement.checkpoints checkpoints with
  | [checkpoint] =>
    (if checkpoint.skuId ≠ movement.skuId ∨ checkpoint.clientId ≠ movement.clientId ∨
        checkpoint.warehouse ≠ movement.warehouse ∨
        checkpoint.afterQuantity ≠ movement.expectedAfter checkpoint ∨
        checkpoint.crossed ≠ movement.crossed checkpoint
      then ["threshold_checkpoint_content_mismatch"] else []) ++
    (if checkpoint.evaluatedAt ≠ movement.createdAt
      then ["threshold_checkpoint_timestamp_mismatch"] else []) ++
    auditThreshold outbox movement checkpoint
  | _ => ["threshold_checkpoint_count_mismatch"]

/-- The diagnostics of a count. -/
def auditCount (outbox : List OutboxRow) (count : CountRow) : List String :=
  match outboxRows outbox count.outboxKey with
  | [] =>
    if count.expectedQuantity ≠ count.observedQuantity then ["discrepancy_outbox_count_mismatch"]
    else []
  | [row] =>
    if count.expectedQuantity = count.observedQuantity then ["matching_count_has_discrepancy_event"]
    else if row.tags.Eq count.tags then [] else ["discrepancy_outbox_content_mismatch"]
  | _ =>
    if count.expectedQuantity = count.observedQuantity then ["matching_count_has_discrepancy_event"]
    else ["discrepancy_outbox_count_mismatch"]

/-! ## The outbox and the telemetry -/

/-- `… >= :start AND … < :end`. -/
def InWindow (start stop t : Int) : Prop := start ≤ t ∧ t < stop

instance (start stop t : Int) : Decidable (InWindow start stop t) := inferInstanceAs (Decidable (_ ∧ _))

/-- The rows of the outbox that the audit loads. -/
def windowOutbox (start stop : Int) (outbox : List OutboxRow) : List OutboxRow :=
  outbox.filter fun e => InWindow start stop e.occurredAt

/-- `row.get("service") == "api" and row.get("event_type") in OFFICIAL_EVENT_TYPES`. -/
def TelemetryRecord.official (row : TelemetryRecord) : Bool :=
  row.service = "api" && row.eventType ∈ EventType.all.map EventType.text

/-- The rows of the telemetry that the audit loads. -/
def windowTelemetry (start stop : Int) (telemetry : List TelemetryRecord) : List TelemetryRecord :=
  telemetry.filter fun row => InWindow start stop row.timestamp ∧ row.official

/-- The comparison of a telemetry row with the row that its outbox event is mapped to. -/
def sameTarget (target expected : TelemetryRecord) : Bool :=
  target.id = expected.id && target.service = expected.service && target.eventType = expected.eventType &&
    target.level = expected.level && target.value = expected.value && target.message = expected.message &&
    decide (target.tags.Eq expected.tags) && target.timestamp = expected.timestamp

/-- The diagnostics of the telemetry of an outbox row. -/
def auditTarget (official : List TelemetryRecord) (row : OutboxRow) : Option (List String) :=
  match official.filter fun target => target.id = row.eventId with
  | [target] => (mapOutboxEventToRow row).map fun expected =>
      if sameTarget target expected then [] else ["telemetry_target_content_mismatch"]
  | _ => some ["telemetry_target_count_mismatch"]

/-- The diagnostics of an outbox row. -/
def auditOutboxRow (official : List TelemetryRecord) (row : OutboxRow) : Option (List String) :=
  (auditTarget official row).map fun diagnostics =>
    (if row.pending then ["outbox_pending"] else []) ++ diagnostics

/-! ## The audit -/

namespace OperationalSnapshot

/-- `movements`: the last row of each key. -/
def movementRows (s : OperationalSnapshot) : List MovementRow :=
  firstBy (fun m => (m.sourceTable, m.sourcePk)) s.movements.reverse

/-- A movement that is expected to have crossed, by its only checkpoint. -/
def crosses (s : OperationalSnapshot) (movement : MovementRow) : Bool :=
  match movement.checkpoints s.checkpoints with
  | [checkpoint] => movement.crossed checkpoint
  | _ => false

/-- `expected_outbox_keys`. -/
def expectedOutboxKeys (s : OperationalSnapshot) : List OutboxKey :=
  s.entries.map EntryRow.outboxKey ++ s.orders.map OrderRow.outboxKey ++
    (s.movementRows.filter s.crosses).map MovementRow.outboxKey ++
    (s.counts.filter fun c => c.expectedQuantity ≠ c.observedQuantity).map CountRow.outboxKey

/-- `official_telemetry`. -/
def officialTelemetry (s : OperationalSnapshot) : List TelemetryRecord :=
  s.telemetry.filter TelemetryRecord.official

/-- The diagnostics of the source rows. -/
def sourceDiagnostics (s : OperationalSnapshot) : List String :=
  (if (s.dispatches.map DispatchRow.dispatchId).Nodup then [] else ["dispatch_id_duplicate"]) ++
    s.entries.flatMap (auditEntry s.outbox) ++ s.orders.flatMap (auditOrder s.outbox s.dispatches) ++
    s.movementRows.flatMap (auditMovement s.outbox s.checkpoints) ++ s.counts.flatMap (auditCount s.outbox)

/-- The diagnostics of rows that nothing explains. -/
def unexpectedDiagnostics (s : OperationalSnapshot) : List String :=
  (if ∀ c ∈ s.checkpoints, ∃ m ∈ s.movements, m.sourceTable = c.sourceTable ∧ m.sourcePk = c.sourcePk
    then [] else ["unexpected_threshold_checkpoint"]) ++
  (if ∀ e ∈ s.outbox, e.key ∈ s.expectedOutboxKeys then [] else ["unexpected_outbox"]) ++
  (if ∀ key ∈ s.expectedOutboxKeys, ∃ e ∈ s.outbox, e.key = key
    then [] else ["expected_outbox_missing"]) ++
  (if ∀ row ∈ s.officialTelemetry, ∃ e ∈ s.outbox, e.eventId = row.id
    then [] else ["official_telemetry_without_outbox"])

/-- `dispatch_pairs`. -/
def dispatchPairs (s : OperationalSnapshot) : List (String × String) :=
  s.orders.flatMap fun order => (s.dispatches.filter fun d => d.orderPk = order.id).map fun d =>
    ((d.dispatchId.map Uuid.str).getD "None", order.orderId.str)

end OperationalSnapshot

/-- `audit_operational_snapshot`. -/
def auditOperationalSnapshot (s : OperationalSnapshot) : Option OperationalCoverageAudit :=
  (s.outbox.mapM (auditOutboxRow s.officialTelemetry)).map fun targets =>
    let diagnostics := sortedSet textLe (s.sourceDiagnostics ++ s.unexpectedDiagnostics ++ targets.flatten)
    { evidence :=
        { confirmedEventTypes := if diagnostics = [] then EventType.all.map EventType.text else []
          dispatchOrderIds := sortedBy (pairLe textLe textLe) s.dispatchPairs
          lookupComplete := diagnostics = []
          source := "operational_checkpoints" }
      diagnostics }

end TrackFlow.Pipelines
