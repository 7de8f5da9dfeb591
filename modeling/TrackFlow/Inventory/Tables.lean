import TrackFlow.ReadCommitted.Program
import TrackFlow.Pipelines.Outbox

/-!
# The tables of the inventory

The rows that the inventory service reads and writes, what an INSERT or UPDATE of one row does to
them (`Write`), and what their constraints accept (`schema`). Stock is no column: it is what entered
less what left.
-/

namespace TrackFlow.Inventory

open TrackFlow.Python
open TrackFlow.Pipelines (OutboxRow)

/-! ## Rows -/

/-- `SKU`. -/
structure Sku where
  id : Int
  name : String
  sku : String
  clientName : String
  category : String
  warehouse : String
  clientId : Option String
  minimumStockThreshold : Option Int

/-- `StockEntry`. -/
structure StockEntry where
  id : Int
  skuId : Int
  quantity : Int
  reference : String
  warehouse : String
  createdAt : Int
  userUuid : String
  deriving DecidableEq

/-- `StockExit`. -/
structure StockExit where
  id : Int
  skuId : Int
  quantity : Int
  exitType : String
  trackingNumber : Option String
  warehouse : String
  createdAt : Int
  userUuid : String
  commercialOrderId : Option Int := none
  dispatchId : Option Uuid := none
  deriving DecidableEq

/-- `CommercialOrder`. -/
structure CommercialOrder where
  id : Int
  orderId : Uuid
  clientId : String
  warehouse : String
  createdAt : Int
  deriving DecidableEq

/-- `InventoryPhysicalCount`. -/
structure PhysicalCount where
  id : Int
  countId : Uuid
  skuId : Int
  clientId : String
  warehouse : String
  expectedQuantity : Int
  observedQuantity : Int
  confirmedAt : Int
  userUuid : String
  deriving DecidableEq

/-- `InventoryThresholdEvaluation`. -/
structure ThresholdEvaluation where
  sourceTable : String
  sourcePk : Int
  skuId : Int
  clientId : Option String
  warehouse : String
  beforeQuantity : Int
  afterQuantity : Int
  thresholdQuantity : Option Int
  crossed : Bool
  eventId : Option Uuid
  evaluatedAt : Int
  deriving DecidableEq

/-- The operational database. -/
structure Tables where
  skus : List Sku
  entries : List StockEntry := []
  exits : List StockExit := []
  orders : List CommercialOrder := []
  counts : List PhysicalCount := []
  evaluations : List ThresholdEvaluation := []
  outbox : List OutboxRow := []

/-! ## Stock -/

/-- `SUM(quantity)` of the entries of a SKU in a warehouse, or zero for NULL. -/
def entrySum (db : Tables) (sku : Int) (warehouse : String) : Int :=
  ((db.entries.filter fun e => e.skuId = sku ∧ e.warehouse = warehouse).map StockEntry.quantity).sum

/-- `SUM(quantity)` of the exits of a SKU in a warehouse, or zero for NULL. -/
def exitSum (db : Tables) (sku : Int) (warehouse : String) : Int :=
  ((db.exits.filter fun e => e.skuId = sku ∧ e.warehouse = warehouse).map StockExit.quantity).sum

/-- `get_current_stock`, on one state of the tables. -/
def stock (db : Tables) (sku : Int) (warehouse : String) : Int :=
  entrySum db sku warehouse - exitSum db sku warehouse

/-- A SKU by its key. -/
def Tables.sku (db : Tables) (id : Int) : Option Sku := db.skus.find? fun s => s.id = id

/-! ## Writes -/

/-- An INSERT or UPDATE of one row. -/
inductive Write
  | entry (row : StockEntry)
  | exit (row : StockExit)
  | order (row : CommercialOrder)
  | count (row : PhysicalCount)
  | evaluation (row : ThresholdEvaluation)
  | outbox (row : OutboxRow)
  | threshold (sku : Int) (value : Option Int)

/-- What a write does. -/
def applyWrite (db : Tables) : Write → Tables
  | .entry row => { db with entries := db.entries ++ [row] }
  | .exit row => { db with exits := db.exits ++ [row] }
  | .order row => { db with orders := db.orders ++ [row] }
  | .count row => { db with counts := db.counts ++ [row] }
  | .evaluation row => { db with evaluations := db.evaluations ++ [row] }
  | .outbox row => { db with outbox := db.outbox ++ [row] }
  | .threshold sku value =>
    { db with skus := db.skus.map fun s => if s.id = sku then { s with minimumStockThreshold := value } else s }

/-- `OUTBOX_SOURCE_EVENT_TYPES`. -/
def outboxSourceEventTypes : List (String × String) :=
  [("stockentry", "inbound_order_created"), ("commercial_order", "outbound_order_created"),
    ("stockexit", "stock_threshold_triggered"),
      ("inventory_physical_count", "inventory_discrepancy_detected")]

/-- The range of `integer`. -/
def fitsInteger (z : Int) : Bool := -2147483648 ≤ z ∧ z ≤ 2147483647

/-- Primary and foreign keys, UNIQUE and CHECK constraints, and the range of the columns. -/
def acceptsWrite (db : Tables) : Write → Bool
  | .entry row => (∀ e ∈ db.entries, e.id ≠ row.id) ∧ (∃ s ∈ db.skus, s.id = row.skuId) ∧ fitsInteger row.quantity
  | .exit row => (∀ e ∈ db.exits, e.id ≠ row.id) ∧ (∃ s ∈ db.skus, s.id = row.skuId) ∧ fitsInteger row.quantity ∧
      (∀ e ∈ db.exits, row.dispatchId.isSome → e.dispatchId ≠ row.dispatchId) ∧
      (row.commercialOrderId.isSome → row.exitType = "dispatch" ∧ row.dispatchId.isSome ∧
        ∃ o ∈ db.orders, some o.id = row.commercialOrderId)
  | .order row => ∀ o ∈ db.orders, o.id ≠ row.id ∧ o.orderId ≠ row.orderId
  | .count row => (∀ c ∈ db.counts, c.id ≠ row.id ∧ c.countId ≠ row.countId) ∧ (∃ s ∈ db.skus, s.id = row.skuId) ∧
      0 ≤ row.expectedQuantity ∧ 0 ≤ row.observedQuantity ∧ fitsInteger row.expectedQuantity ∧
        fitsInteger row.observedQuantity
  | .evaluation row =>
      (∀ c ∈ db.evaluations, ¬(c.sourceTable = row.sourceTable ∧ c.sourcePk = row.sourcePk)) ∧
      row.sourceTable ∈ ["stockentry", "stockexit"] ∧ (∃ s ∈ db.skus, s.id = row.skuId) ∧
      0 ≤ row.beforeQuantity ∧ 0 ≤ row.afterQuantity ∧ fitsInteger row.beforeQuantity ∧
        fitsInteger row.afterQuantity ∧
      (∀ t ∈ row.thresholdQuantity, 0 ≤ t) ∧ row.crossed = row.eventId.isSome
  | .outbox row => (∀ e ∈ db.outbox, e.eventId ≠ row.eventId ∧
      ¬(e.sourceTable = row.sourceTable ∧ e.sourcePk = row.sourcePk ∧ e.eventType = row.eventType)) ∧
    (row.sourceTable, row.eventType) ∈ outboxSourceEventTypes
  | .threshold _ value => ∀ t ∈ value, 0 ≤ t ∧ fitsInteger t

/-- The tables and their constraints. -/
def schema : ReadCommitted.Schema Tables Write := ⟨applyWrite, acceptsWrite⟩

end TrackFlow.Inventory
