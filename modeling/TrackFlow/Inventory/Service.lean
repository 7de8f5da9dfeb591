import TrackFlow.Inventory.CommandLocks
import TrackFlow.Inventory.Tables
import TrackFlow.Pipelines.WeeklyPerformance

/-!
# The inventory commands that take stock out

`create_stock_exit`, and the two parts of an order command: `_validate_order_skus` looks at what an
order needs of each SKU, `_add_order_dispatches` writes its exits with a balance that it keeps
itself. Each is a program inside the transaction of its command; the ids that a flush assigns and
the event ids that `uuid4` makes are its arguments (`Stamps`).
-/

namespace TrackFlow.Inventory

open TrackFlow.Python TrackFlow.ReadCommitted
open TrackFlow.Pipelines (OutboxRow canonicalTelemetryWarehouse)
open CommandLocks (Lock)

/-! ## Commands -/

/-- `Warehouse`. -/
inductive Warehouse
  | la
  | zgz
  deriving DecidableEq

/-- `Warehouse.value`. -/
def Warehouse.value : Warehouse → String
  | .la => "LA"
  | .zgz => "ZGZ"

/-- `ExitType`. -/
inductive ExitType
  | dispatch
  | loss
  deriving DecidableEq

/-- `ExitType.value`. -/
def ExitType.value : ExitType → String
  | .dispatch => "dispatch"
  | .loss => "loss"

/-- `StockExitCreate`. -/
structure StockExitCreate where
  skuId : Int
  quantity : Int
  exitType : ExitType
  trackingNumber : Option String
  warehouse : Warehouse

/-- `CommercialOrderDispatchCreate`. -/
structure Dispatch where
  dispatchId : Uuid
  skuId : Int
  quantity : Int
  trackingNumber : String
  deriving DecidableEq

/-- What a command raises. -/
inductive ServiceError
  /-- `HTTPException`, with its error code header. -/
  | http (status : Nat) (detail : String) (code : Option String)
  /-- `InventoryDataIntegrityError`. -/
  | integrity (skuIds : List Int)
  /-- `ValueError`. -/
  | value (text : String)
  /-- `KeyError`. -/
  | key (skuId : Int)
  deriving DecidableEq

/-- A part of a command. -/
abbrev Txn (α : Type) : Type := Prog Tables Write Lock Unit ServiceError α

/-- What a movement gets from outside: the id of its row, the id of an event, and the time. -/
structure Stamp where
  id : Int
  eventId : Uuid4
  now : Int

/-- The stamps of the movements of a run, where a sequence gives positive ids. -/
structure Stamps where
  stamp : Nat → Stamp
  positive : ∀ k, 0 < (stamp k).id

/-! ## Rows and stock -/

/-- `_lock_skus`. -/
def lockSkus (skuIds : List Int) : Txn (List Sku) := do
  let ordered := sortedSet (fun a b => a ≤ b) skuIds
  lockRows ordered
  Prog.query fun db => ordered.filterMap db.sku
where
  /-- The row locks, in order. -/
  lockRows : List Int → Txn Unit
    | [] => return ()
    | id :: ids => do
      Prog.acquire (.sku id)
      lockRows ids

/-- `get_current_stock`. -/
def getCurrentStock (sku : Int) (warehouse : String) : Txn Int := do
  let entries ← Prog.query fun db => entrySum db sku warehouse
  let exits ← Prog.query fun db => exitSum db sku warehouse
  return entries - exits

/-- `enqueue_inventory_event`, for an event id that `uuid4` made, a UTC time and a pair that is
authorized. -/
def enqueueInventoryEvent (row : OutboxRow) : Txn Unit :=
  if row.sourcePk ≤ 0 then Prog.fail (.value "source_pk must be a positive integer")
  else Prog.put (.outbox row)

/-- The tags of a threshold event. -/
def thresholdTags (sku : Sku) (warehouse clientId : String) (sourcePk after threshold : Int) : PyValue :=
  .dict
    [("warehouse", .str warehouse),
      ("client_id", .str clientId),
      ("product_id", .str (toString sku.id)),
      ("product_category", .str sku.category),
      ("quantity", .int after),
      ("threshold_quantity", .int threshold),
      ("movement_id", .str (toString sourcePk))]

/-- `_threshold_event`. -/
def thresholdEvent (sku : Sku) (s : Stamp) (before after : Int) : Txn (Option OutboxRow) :=
  match sku.minimumStockThreshold with
  | none => return none
  | some threshold =>
    if ¬(before > threshold ∧ after ≤ threshold) then return none
    else
      match canonicalTelemetryWarehouse sku.warehouse, sku.clientId.filter (· ≠ "") with
      | some warehouse, some clientId => do
        let row : OutboxRow :=
          { eventId := s.eventId.val, occurredAt := s.now, sourceTable := "stockexit", sourcePk := s.id
            eventType := "stock_threshold_triggered"
            tags := thresholdTags sku warehouse clientId s.id after threshold }
        enqueueInventoryEvent row
        return some row
      | _, _ => Prog.fail (.integrity [sku.id])

/-- `_record_threshold_evaluation` of an exit. -/
def recordThresholdEvaluation (sku : Sku) (s : Stamp) (before after : Int)
    (event : Option OutboxRow) : Txn Unit :=
  Prog.put (.evaluation
    { sourceTable := "stockexit", sourcePk := s.id, skuId := sku.id, clientId := sku.clientId, warehouse := sku.warehouse
      beforeQuantity := before, afterQuantity := after, thresholdQuantity := sku.minimumStockThreshold
      crossed := event.isSome, eventId := event.map OutboxRow.eventId, evaluatedAt := s.now })

/-- What an exit and each dispatch of an order write: the exit, the event if the threshold is
crossed, and the evaluation. -/
def writeExit (sku : Sku) (s : Stamp) (before : Int) (row : StockExit) : Txn (Option OutboxRow) := do
  Prog.put (.exit row)
  let event ← thresholdEvent sku s before (before - row.quantity)
  recordThresholdEvaluation sku s before (before - row.quantity) event
  return event

/-! ## Single exits -/

/-- `create_stock_exit`, up to its COMMIT. -/
def createStockExit (data : StockExitCreate) (userUuid : String) (s : Stamp) :
    Txn (StockExit × Option OutboxRow) := do
  match (← lockSkus [data.skuId]).find? fun sku => sku.id = data.skuId with
  | none => Prog.fail (.http 404 "SKU not found." (some "unknown_product"))
  | some sku =>
    if data.warehouse.value ≠ sku.warehouse then
      Prog.fail (.http 400
        ("Warehouse mismatch for SKU '" ++ sku.sku ++ "'. SKU warehouse: " ++ sku.warehouse ++
          ", movement warehouse: " ++ data.warehouse.value ++ ".")
        (some "warehouse_mismatch"))
    else
      let available ← getCurrentStock sku.id data.warehouse.value
      if data.quantity > available then
        Prog.fail (.http 400
          ("Insufficient stock for SKU '" ++ sku.sku ++ "'. Available: " ++ toString available ++
            ", requested: " ++ toString data.quantity ++ ".")
          (some "insufficient_stock"))
      else
        let row : StockExit :=
          { id := s.id, skuId := data.skuId, quantity := data.quantity, exitType := data.exitType.value
            trackingNumber := data.trackingNumber, warehouse := data.warehouse.value, createdAt := s.now
            userUuid }
        let event ← writeExit sku s available row
        return (row, event)

/-! ## Orders -/

/-- `required`, in the order of its first keys. -/
def requiredQuantities (dispatches : List Dispatch) : List (Int × Int) :=
  (firstBy Dispatch.skuId dispatches).map fun item =>
    (item.skuId, ((dispatches.filter fun d => d.skuId = item.skuId).map Dispatch.quantity).sum)

/-- The last loop of `_validate_order_skus`. -/
def checkRequired (warehouse : String) : List (Int × Int) → Txn Unit
  | [] => return ()
  | (skuId, quantity) :: rest => do
    let available ← getCurrentStock skuId warehouse
    if quantity > available then Prog.fail (.http 400 "Insufficient stock for order." none)
    else checkRequired warehouse rest

/-- `_validate_order_skus`. -/
def validateOrderSkus (dispatches : List Dispatch) (clientId warehouse : String) : Txn (List Sku) := do
  let skus ← lockSkus (dispatches.map Dispatch.skuId)
  let missing := (sortedSet (fun a b => a ≤ b) (dispatches.map Dispatch.skuId)).filter fun id =>
    id ∉ skus.map Sku.id
  if missing ≠ [] then Prog.fail (.integrity missing)
  else if skus.any fun sku => sku.clientId ≠ some clientId ∨ sku.warehouse ≠ warehouse then
    Prog.fail (.http 400 "Order client or warehouse does not match its SKU." none)
  else
    checkRequired warehouse (requiredQuantities dispatches)
    return skus

/-- `running`: the balance of each SKU. -/
def runningStock (warehouse : String) : List Sku → Txn (List (Int × Int))
  | [] => return []
  | sku :: skus => do
    let available ← getCurrentStock sku.id warehouse
    let rest ← runningStock warehouse skus
    return (sku.id, available) :: rest

/-- `running[sku_id] = after`. -/
def setBalance (running : List (Int × Int)) (skuId after : Int) : List (Int × Int) :=
  running.map fun entry => if entry.1 = skuId then (skuId, after) else entry

/-- The exit of a dispatch. -/
def dispatchExit (order : CommercialOrder) (userUuid : String) (occurredAt id : Int)
    (item : Dispatch) : StockExit where
  id := id
  skuId := item.skuId
  quantity := item.quantity
  exitType := "dispatch"
  trackingNumber := some item.trackingNumber
  warehouse := order.warehouse
  createdAt := occurredAt
  userUuid := userUuid
  commercialOrderId := some order.id
  dispatchId := some item.dispatchId

section Dispatches

variable (order : CommercialOrder) (skus : List Sku) (userUuid : String) (occurredAt : Int)
  (stamps : Stamps)

/-- The loop of `_add_order_dispatches`, from dispatch `k` on. -/
def addDispatches (k : Nat) (running : List (Int × Int)) :
    List Dispatch → Txn (List StockExit × List OutboxRow)
  | [] => return ([], [])
  | item :: rest => do
    match (running.find? fun entry => entry.1 = item.skuId),
      (skus.find? fun sku => sku.id = item.skuId) with
    | some (_, before), some sku =>
      let s : Stamp := { stamps.stamp k with now := occurredAt }
      let row := dispatchExit order userUuid occurredAt s.id item
      let event ← writeExit sku s before row
      let (created, events) ← addDispatches (k + 1)
          (setBalance running item.skuId (before - item.quantity)) rest
      return (row :: created, event.toList ++ events)
    | _, _ => Prog.fail (.key item.skuId)

/-- `_add_order_dispatches`. -/
def addOrderDispatches (dispatches : List Dispatch) : Txn (List StockExit × List OutboxRow) := do
  let running ← runningStock order.warehouse skus
  addDispatches order skus userUuid occurredAt stamps 0 running
    (sortedBy (fun a b => textLe a.dispatchId.str b.dispatchId.str) dispatches)

end Dispatches

end TrackFlow.Inventory
