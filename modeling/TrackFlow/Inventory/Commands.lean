import TrackFlow.Inventory.Service

/-!
# The other inventory commands

`create_stock_entry`, `update_sku_threshold`, `confirm_inventory_physical_count`, and the two order
commands, which look for what an earlier attempt has left before they lock SKUs and write. As with
`createStockExit`, each is a program up to its COMMIT, and what the sequences, `uuid4` and the clock
give it are its arguments.
-/

namespace TrackFlow.Inventory

open TrackFlow.Python TrackFlow.ReadCommitted
open TrackFlow.Pipelines (OutboxRow canonicalTelemetryWarehouse)
open CommandLocks (Lock)

/-! ## Payloads -/

/-- `StockEntryCreate`. -/
structure StockEntryCreate where
  skuId : Int
  quantity : Int
  reference : String
  warehouse : Warehouse

/-- `InventoryPhysicalCountCreate`. -/
structure PhysicalCountCreate where
  countId : Uuid
  skuId : Int
  observedQuantity : Int
  warehouse : Warehouse

/-- `CommercialOrderCreate`. -/
structure CommercialOrderCreate where
  orderId : Uuid
  clientId : String
  warehouse : Warehouse
  dispatches : List Dispatch

/-- `CommercialOrderDispatchAppend`. -/
structure DispatchAppend where
  orderId : Uuid
  dispatches : List Dispatch

/-! ## Locks -/

/-- Locks taken one after another. -/
def acquireAll : List Lock → Txn Unit
  | [] => return ()
  | l :: ls => do
    Prog.acquire l
    acquireAll ls

/-- `_lock_idempotency_keys`. -/
def lockIdempotencyKeys (values : List Uuid) : Txn Unit :=
  acquireAll (CommandLocks.lockIdempotencyKeys values)

/-! ## Entries -/

/-- The tags of an inbound event. -/
def inboundTags (sku : Sku) (warehouse clientId : String) (sourcePk quantity : Int) : PyValue :=
  .dict
    [("warehouse", .str warehouse),
      ("client_id", .str clientId),
      ("product_id", .str (toString sku.id)),
      ("product_category", .str sku.category),
      ("quantity", .int quantity),
      ("movement_id", .str (toString sourcePk))]

/-- The inbound event of an entry. -/
def inboundEvent (sku : Sku) (warehouse clientId : String) (s : Stamp) (quantity : Int) : OutboxRow where
  eventId := s.eventId.val
  occurredAt := s.now
  sourceTable := "stockentry"
  sourcePk := s.id
  eventType := "inbound_order_created"
  tags := inboundTags sku warehouse clientId s.id quantity

/-- The event of an entry: a SKU that has no client yet gets none. -/
def enqueueInbound (sku : Sku) (s : Stamp) (row : StockEntry) : Txn (Option OutboxRow) :=
  match sku.clientId, canonicalTelemetryWarehouse row.warehouse with
  | some clientId, some warehouse => do
    let event := inboundEvent sku warehouse clientId s row.quantity
    enqueueInventoryEvent event
    return some event
  | _, _ => return none

/-- `_record_threshold_evaluation` of an entry, which crosses no threshold. -/
def entryEvaluation (sku : Sku) (s : Stamp) (before after : Int) : ThresholdEvaluation where
  sourceTable := "stockentry"
  sourcePk := s.id
  skuId := sku.id
  clientId := sku.clientId
  warehouse := sku.warehouse
  beforeQuantity := before
  afterQuantity := after
  thresholdQuantity := sku.minimumStockThreshold
  crossed := false
  eventId := none
  evaluatedAt := s.now

/-- `create_stock_entry`, up to its COMMIT. -/
def createStockEntry (data : StockEntryCreate) (userUuid : String) (s : Stamp) :
    Txn (StockEntry × Option OutboxRow) := do
  match (← lockSkus [data.skuId]).find? fun sku => sku.id = data.skuId with
  | none => Prog.fail (.http 404 "SKU not found." (some "unknown_product"))
  | some sku =>
    if data.warehouse.value ≠ sku.warehouse then
      Prog.fail (.http 400
        ("Warehouse mismatch for SKU '" ++ sku.sku ++ "'. SKU warehouse: " ++ sku.warehouse ++
          ", movement warehouse: " ++ data.warehouse.value ++ ".")
        (some "warehouse_mismatch"))
    else
      let before ← getCurrentStock data.skuId data.warehouse.value
      let row : StockEntry :=
        { id := s.id, skuId := data.skuId, quantity := data.quantity, reference := data.reference
          warehouse := data.warehouse.value, createdAt := s.now, userUuid }
      Prog.put (.entry row)
      let event ← enqueueInbound sku s row
      Prog.put (.evaluation (entryEvaluation sku s before (before + row.quantity)))
      return (row, event)

/-! ## Thresholds -/

/-- `update_sku_threshold`, up to its COMMIT. -/
def updateSkuThreshold (skuId : Int) (minimumStockThreshold : Option Int) : Txn Unit := do
  match (← lockSkus [skuId]).find? fun sku => sku.id = skuId with
  | none => Prog.fail (.http 404 "SKU not found." none)
  | some _ => Prog.put (.threshold skuId minimumStockThreshold)

/-! ## Counts -/

/-- `_conflict`. -/
def conflict (detail : String) : ServiceError := .http 409 detail none

/-- The tags of a discrepancy event. -/
def discrepancyTags (sku : Sku) (warehouse clientId : String) (countId : Uuid) (expected observed : Int) :
    PyValue :=
  .dict
    [("warehouse", .str warehouse),
      ("client_id", .str clientId),
      ("product_id", .str (toString sku.id)),
      ("product_category", .str sku.category),
      ("quantity", .int |observed - expected|),
      ("system_quantity", .int expected),
      ("counted_quantity", .int observed),
      ("discrepancy_delta", .int (observed - expected)),
      ("discrepancy_type", .str (if observed - expected > 0 then "surplus" else "shortage")),
      ("count_id", .str countId.str)]

/-- The discrepancy event of a count. -/
def discrepancyEvent (sku : Sku) (warehouse clientId : String) (s : Stamp) (row : PhysicalCount) :
    OutboxRow where
  eventId := s.eventId.val
  occurredAt := s.now
  sourceTable := "inventory_physical_count"
  sourcePk := s.id
  eventType := "inventory_discrepancy_detected"
  tags := discrepancyTags sku warehouse clientId row.countId row.expectedQuantity row.observedQuantity

/-- The count that a request asks for. -/
def physicalCount (data : PhysicalCountCreate) (userUuid : String) (s : Stamp) (clientId : String)
    (expected : Int) : PhysicalCount where
  id := s.id
  countId := data.countId
  skuId := data.skuId
  clientId := clientId
  warehouse := data.warehouse.value
  expectedQuantity := expected
  observedQuantity := data.observedQuantity
  confirmedAt := s.now
  userUuid := userUuid

/-- A count that an earlier attempt has left says what the request says. -/
def countMatches (existing : PhysicalCount) (data : PhysicalCountCreate) (userUuid : String) : Bool :=
  existing.skuId = data.skuId && existing.warehouse = data.warehouse.value &&
    existing.observedQuantity = data.observedQuantity && existing.userUuid = userUuid

/-- The part of `confirm_inventory_physical_count` that counts for the first time. -/
def recordCount (data : PhysicalCountCreate) (userUuid : String) (s : Stamp) :
    Txn (PhysicalCount × Option OutboxRow) := do
  match (← lockSkus [data.skuId]).find? fun sku => sku.id = data.skuId with
  | none => Prog.fail (.http 404 "SKU not found." none)
  | some sku =>
    if sku.warehouse ≠ data.warehouse.value then
      Prog.fail (.http 400 "Warehouse mismatch for SKU." none)
    else
      match sku.clientId.filter (· ≠ "") with
      | none => Prog.fail (.integrity [data.skuId])
      | some clientId => do
        let expected ← getCurrentStock data.skuId data.warehouse.value
        let row := physicalCount data userUuid s clientId expected
        Prog.put (.count row)
        if data.observedQuantity - expected = 0 then return (row, none)
        else
          match canonicalTelemetryWarehouse data.warehouse.value with
          | none => Prog.fail (.integrity [data.skuId])
          | some warehouse => do
            let event := discrepancyEvent sku warehouse clientId s row
            enqueueInventoryEvent event
            return (row, some event)

/-- `confirm_inventory_physical_count`, up to its COMMIT. -/
def confirmInventoryPhysicalCount (data : PhysicalCountCreate) (userUuid : String) (s : Stamp) :
    Txn (PhysicalCount × Option OutboxRow) := do
  lockIdempotencyKeys [data.countId]
  match ← Prog.query fun db => db.counts.find? fun c => c.countId = data.countId with
  | some existing => do
    Prog.acquire (.count existing.id)
    if countMatches existing data userUuid then return (existing, none)
    else Prog.fail (conflict "count_id already exists with different content")
  | none => recordCount data userUuid s

/-! ## Orders -/

/-- `_dispatch_matches`. -/
def dispatchMatches (record : StockExit) (item : Dispatch) (orderPk : Int) : Bool :=
  record.commercialOrderId = some orderPk && record.skuId = item.skuId &&
    record.quantity = item.quantity && record.exitType = "dispatch" &&
    record.trackingNumber = some item.trackingNumber

/-- `ORDER BY dispatch_id`, NULLs last. -/
def dispatchLe (a b : StockExit) : Bool :=
  match a.dispatchId, b.dispatchId with
  | some x, some y => textLe x.str y.str
  | none, some _ => false
  | _, none => true

/-- `_order_dispatches`. -/
def orderDispatches (db : Tables) (orderPk : Int) : List StockExit :=
  sortedBy dispatchLe (db.exits.filter fun e => e.commercialOrderId = some orderPk)

/-- `persisted.get(dispatch_id)`; a `dispatch_id` is UNIQUE. -/
def findDispatch (persisted : List StockExit) (dispatchId : Uuid) : Option StockExit :=
  persisted.find? fun e => e.dispatchId = some dispatchId

/-- The dispatches of an order are those of the request, item for item. -/
def sameDispatches (persisted : List StockExit) (dispatches : List Dispatch) (orderPk : Int) : Bool :=
  (persisted.all fun e => dispatches.any fun item => e.dispatchId = some item.dispatchId) &&
    dispatches.all fun item => (findDispatch persisted item.dispatchId).any (dispatchMatches · item orderPk)

/-- The dispatch ids of a request repeat. -/
def repeated (dispatches : List Dispatch) : Bool := ¬(dispatches.map Dispatch.dispatchId).Nodup

/-- The tags of an outbound event. -/
def outboundTags (order : CommercialOrder) : PyValue :=
  .dict
    [("order_id", .str order.orderId.str),
      ("warehouse", ((canonicalTelemetryWarehouse order.warehouse).map PyValue.str).getD .none),
      ("client_id", .str order.clientId)]

/-- The outbound event of an order. -/
def outboundEvent (order : CommercialOrder) (s : Stamp) : OutboxRow where
  eventId := s.eventId.val
  occurredAt := s.now
  sourceTable := "commercial_order"
  sourcePk := order.id
  eventType := "outbound_order_created"
  tags := outboundTags order

/-- The order that a request asks for. -/
def commercialOrder (data : CommercialOrderCreate) (s : Stamp) : CommercialOrder where
  id := s.id
  orderId := data.orderId
  clientId := data.clientId
  warehouse := data.warehouse.value
  createdAt := s.now

/-- The part of `create_commercial_order` that writes. -/
def placeOrder (data : CommercialOrderCreate) (userUuid : String) (s : Stamp) (stamps : Stamps) :
    Txn (CommercialOrder × List StockExit) := do
  let skus ← validateOrderSkus data.dispatches data.clientId data.warehouse.value
  let order := commercialOrder data s
  Prog.put (.order order)
  let (created, _) ← addOrderDispatches order skus userUuid s.now stamps data.dispatches
  enqueueInventoryEvent (outboundEvent order s)
  return (order, created)

/-- The part of `create_commercial_order` that finds its order. -/
def repeatOrder (data : CommercialOrderCreate) (existing : CommercialOrder) :
    Txn (CommercialOrder × List StockExit) := do
  Prog.acquire (.order existing.id)
  let persisted ← Prog.query fun db => orderDispatches db existing.id
  if existing.clientId ≠ data.clientId ∨ existing.warehouse ≠ data.warehouse.value then
    Prog.fail (conflict "order_id already exists with different content")
  else if sameDispatches persisted data.dispatches existing.id then return (existing, persisted)
  else Prog.fail (conflict "order_id already exists with different dispatches")

/-- `create_commercial_order`, up to its COMMIT. -/
def createCommercialOrder (data : CommercialOrderCreate) (userUuid : String) (s : Stamp)
    (stamps : Stamps) : Txn (CommercialOrder × List StockExit) := do
  if repeated data.dispatches then
    Prog.fail (conflict "dispatch_id values must be unique within a command")
  else
    lockIdempotencyKeys (data.orderId :: data.dispatches.map Dispatch.dispatchId)
    match ← Prog.query fun db => db.orders.find? fun o => o.orderId = data.orderId with
    | some existing => repeatOrder data existing
    | none =>
      let taken ← Prog.query fun db =>
        db.exits.filter fun e => data.dispatches.any fun item => e.dispatchId = some item.dispatchId
      if taken ≠ [] then Prog.fail (conflict "dispatch_id already exists")
      else placeOrder data userUuid s stamps

/-- `new_items`: the dispatches that no earlier attempt has left. -/
def newItems (existing : List StockExit) (orderPk : Int) :
    List Dispatch → Except ServiceError (List Dispatch)
  | [] => .ok []
  | item :: rest =>
    match findDispatch existing item.dispatchId with
    | none => (newItems existing orderPk rest).map (item :: ·)
    | some record =>
      if dispatchMatches record item orderPk then newItems existing orderPk rest
      else .error (conflict "dispatch_id already exists with different content")

/-- The part of `append_commercial_order_dispatches` that writes. The dispatches of its answer are read
again after the COMMIT. -/
def appendDispatches (order : CommercialOrder) (items : List Dispatch) (userUuid : String) (now : Int)
    (stamps : Stamps) : Txn (CommercialOrder × List StockExit) := do
  let skus ← validateOrderSkus items order.clientId order.warehouse
  let (created, _) ← addOrderDispatches order skus userUuid now stamps items
  return (order, created)

/-- `append_commercial_order_dispatches`, up to its COMMIT. -/
def appendCommercialOrderDispatches (data : DispatchAppend) (userUuid : String) (now : Int)
    (stamps : Stamps) : Txn (CommercialOrder × List StockExit) := do
  if repeated data.dispatches then
    Prog.fail (conflict "dispatch_id values must be unique within a command")
  else
    lockIdempotencyKeys (data.orderId :: data.dispatches.map Dispatch.dispatchId)
    match ← Prog.query fun db => db.orders.find? fun o => o.orderId = data.orderId with
    | none => Prog.fail (.http 404 "Commercial order not found." none)
    | some order => do
      Prog.acquire (.order order.id)
      let existing ← Prog.query fun db =>
        db.exits.filter fun e => data.dispatches.any fun item => e.dispatchId = some item.dispatchId
      match newItems existing order.id data.dispatches with
      | .error e => Prog.fail e
      | .ok [] => do
        let dispatches ← Prog.query fun db => orderDispatches db order.id
        return (order, dispatches)
      | .ok items => appendDispatches order items userUuid now stamps

end TrackFlow.Inventory
