import TrackFlow.Balances.Ledger
import TrackFlow.Inventory.Commands

/-!
# The books of the inventory

What the tables say of each other in every committed state: each movement has a threshold evaluation
with the balance before and after it, the evaluations of a SKU form a ledger that ends at its stock,
and each order, entry, crossing and discrepancy has its outbox row (`Kept`, `Inv`).

Every relation between two tables is between two lists that grow at their ends together, so that it
holds of a database after a transaction when it holds of the database and of what the transaction has
written (`Kept.append`). The ledgers need the locks of the SKUs.
-/

namespace TrackFlow.Inventory.Books

open TrackFlow.Python TrackFlow.ReadCommitted TrackFlow.Balances
open TrackFlow.Pipelines (OutboxRow canonicalTelemetryWarehouse)
open CommandLocks (Lock advisoryKey)

/-! ## What is written -/

section Written

/-- The rows that a write inserts, table by table. -/
def entryRows : Write → List StockEntry
  | .entry row => [row]
  | _ => []

def exitRows : Write → List StockExit
  | .exit row => [row]
  | _ => []

def orderRows : Write → List CommercialOrder
  | .order row => [row]
  | _ => []

def countRows : Write → List PhysicalCount
  | .count row => [row]
  | _ => []

def evaluationRows : Write → List ThresholdEvaluation
  | .evaluation row => [row]
  | _ => []

def outboxRows : Write → List OutboxRow
  | .outbox row => [row]
  | _ => []

/-- What a list of writes inserts. -/
def inserted (ws : List Write) : Tables where
  skus := []
  entries := ws.flatMap entryRows
  exits := ws.flatMap exitRows
  orders := ws.flatMap orderRows
  counts := ws.flatMap countRows
  evaluations := ws.flatMap evaluationRows
  outbox := ws.flatMap outboxRows

/-- The tables with the rows of others after theirs. -/
def append (db more : Tables) : Tables where
  skus := db.skus
  entries := db.entries ++ more.entries
  exits := db.exits ++ more.exits
  orders := db.orders ++ more.orders
  counts := db.counts ++ more.counts
  evaluations := db.evaluations ++ more.evaluations
  outbox := db.outbox ++ more.outbox

variable (db : Tables) (ws vs : List Write)

theorem inserted_append : inserted (ws ++ vs) = append (inserted ws) (inserted vs) := by
  simp [inserted, append]

/-- The tables after a write. -/
theorem applyWrite_tables (w : Write) :
    (applyWrite db w).entries = db.entries ++ entryRows w ∧
      (applyWrite db w).exits = db.exits ++ exitRows w ∧
      (applyWrite db w).orders = db.orders ++ orderRows w ∧
      (applyWrite db w).counts = db.counts ++ countRows w ∧
      (applyWrite db w).evaluations = db.evaluations ++ evaluationRows w ∧
      (applyWrite db w).outbox = db.outbox ++ outboxRows w := by
  cases w <;> simp [applyWrite, entryRows, exitRows, orderRows, countRows, evaluationRows, outboxRows]

/-- The tables after a list of writes, but for the thresholds. -/
theorem applyAll_tables :
    schema.applyAll db ws = { append db (inserted ws) with skus := (schema.applyAll db ws).skus } := by
  induction ws generalizing db with
  | nil => simp [append, inserted]
  | cons w ws ih =>
    obtain ⟨hentries, hexits, horders, hcounts, hevaluations, houtbox⟩ := applyWrite_tables db w
    rw [Schema.applyAll_cons, ih]
    simp [append, inserted, schema, hentries, hexits, horders, hcounts, hevaluations, houtbox]

end Written

/-! ## SKUs -/

/-- A SKU without its threshold, which commands change. -/
def fixed (sku : Sku) : Sku := { sku with minimumStockThreshold := none }

/-- What is known of a SKU for good. -/
def known (db : Tables) (id : Int) : Option Sku := (db.sku id).map fixed

theorem sku_id {db : Tables} {id : Int} {sku : Sku} (h : db.sku id = some sku) : sku.id = id := by
  simpa using List.find?_some h

theorem known_of_sku {db : Tables} {id : Int} {sku : Sku} (h : db.sku id = some sku) :
    known db id = some (fixed sku) := by rw [known, h]; rfl

theorem sku_of_known {db : Tables} {id : Int} {sku : Sku} (h : known db id = some sku) :
    ∃ s, db.sku id = some s ∧ fixed s = sku := Option.map_eq_some_iff.1 h

/-- The SKUs after a change of one threshold. -/
theorem sku_threshold (db : Tables) (sku id : Int) (value : Option Int) :
    (applyWrite db (.threshold sku value)).sku id =
      (db.sku id).map fun s => if s.id = sku then { s with minimumStockThreshold := value } else s := by
  simp only [Tables.sku, applyWrite, List.find?_map]
  congr 2
  funext s
  simp only [Function.comp_apply]
  split <;> rfl

theorem known_applyWrite (db : Tables) (w : Write) : known (applyWrite db w) = known db := by
  funext id
  cases w with
  | threshold sku value =>
    simp only [known, sku_threshold, Option.map_map]
    congr 1
    funext s
    simp only [Function.comp_apply, fixed]
    split <;> rfl
  | _ => rfl

theorem known_applyAll (db : Tables) (ws : List Write) : known (schema.applyAll db ws) = known db := by
  induction ws generalizing db with
  | nil => rfl
  | cons w ws ih =>
    rw [Schema.applyAll_cons, ih]
    exact known_applyWrite db w

/-! ## Rows that belong together -/

/-- What an outbox row says; the relay changes the other columns. -/
structure Message where
  eventId : Uuid
  occurredAt : Int
  sourceTable : String
  sourcePk : Int
  eventType : String
  tags : PyValue

/-- What an outbox row says. -/
def message (row : OutboxRow) : Message :=
  ⟨row.eventId, row.occurredAt, row.sourceTable, row.sourcePk, row.eventType, row.tags⟩

/-- A row of two lists that belong together has its partner. -/
theorem partner {ρ σ : Type} {R : ρ → σ → Prop} {as : List ρ} {bs : List σ} {a : ρ}
    (h : List.Forall₂ R as bs) (ha : a ∈ as) : ∃ b ∈ bs, R a b := by
  induction h with
  | nil => cases ha
  | cons hab _ ih =>
    rcases List.mem_cons.1 ha with rfl | ha
    · exact ⟨_, List.mem_cons_self, hab⟩
    · obtain ⟨b, hb, hR⟩ := ih ha
      exact ⟨b, List.mem_cons_of_mem _ hb, hR⟩

/-- The messages of a type. -/
def messages (eventType : String) (db : Tables) : List Message :=
  (db.outbox.map message).filter fun m => m.eventType = eventType

/-- The evaluations of a kind of movements. -/
def evaluationsOf (sourceTable : String) (db : Tables) : List ThresholdEvaluation :=
  db.evaluations.filter fun e => e.sourceTable = sourceTable

section Relations

variable (known : Int → Option Sku)

/-- An entry and its evaluation. -/
structure Entered (row : StockEntry) (e : ThresholdEvaluation) : Prop where
  source : e.sourcePk = row.id
  sku : e.skuId = row.skuId
  warehouse : e.warehouse = row.warehouse
  moved : e.afterQuantity = e.beforeQuantity + row.quantity
  positive : 0 < row.quantity
  time : e.evaluatedAt = row.createdAt

/-- An exit and its evaluation. -/
structure Left (row : StockExit) (e : ThresholdEvaluation) : Prop where
  source : e.sourcePk = row.id
  sku : e.skuId = row.skuId
  warehouse : e.warehouse = row.warehouse
  moved : e.afterQuantity = e.beforeQuantity - row.quantity
  positive : 0 < row.quantity
  time : e.evaluatedAt = row.createdAt

/-- An exit that goes from above its threshold to it or below. -/
def Crosses (e : ThresholdEvaluation) : Prop :=
  e.sourceTable = "stockexit" ∧
    ∃ t, e.thresholdQuantity = some t ∧ t < e.beforeQuantity ∧ e.afterQuantity ≤ t

/-- An evaluation is one of its SKU, and says whether it crosses its threshold. -/
structure Judged (e : ThresholdEvaluation) : Prop where
  sku : ∃ sku, known e.skuId = some sku ∧ e.clientId = sku.clientId ∧ e.warehouse = sku.warehouse
  source : e.sourceTable = "stockentry" ∨ e.sourceTable = "stockexit"
  before : 0 ≤ e.beforeQuantity
  after : 0 ≤ e.afterQuantity
  crossed : e.crossed = true ↔ Crosses e
  event : e.eventId.isSome = e.crossed

/-- A crossing and its message. -/
structure Crossing (e : ThresholdEvaluation) (m : Message) : Prop where
  event : e.eventId = some m.eventId
  source : m.sourceTable = "stockexit" ∧ m.sourcePk = e.sourcePk
  time : m.occurredAt = e.evaluatedAt
  tags : ∃ sku warehouse clientId t, known e.skuId = some sku ∧
    canonicalTelemetryWarehouse e.warehouse = some warehouse ∧ e.clientId = some clientId ∧
    e.thresholdQuantity = some t ∧
    m.tags = thresholdTags sku warehouse clientId e.sourcePk e.afterQuantity t

/-- The evaluation of an entry of a client and its message. -/
structure Inbound (e : ThresholdEvaluation) (m : Message) : Prop where
  source : m.sourceTable = "stockentry" ∧ m.sourcePk = e.sourcePk
  time : m.occurredAt = e.evaluatedAt
  tags : ∃ sku warehouse clientId, known e.skuId = some sku ∧
    canonicalTelemetryWarehouse e.warehouse = some warehouse ∧ e.clientId = some clientId ∧
    m.tags = inboundTags sku warehouse clientId e.sourcePk (e.afterQuantity - e.beforeQuantity)

/-- An order and its message. -/
structure Outbound (o : CommercialOrder) (m : Message) : Prop where
  source : m.sourceTable = "commercial_order" ∧ m.sourcePk = o.id
  time : m.occurredAt = o.createdAt
  tags : m.tags = outboundTags o

/-- A count that found another stock and its message. -/
structure Discrepancy (c : PhysicalCount) (m : Message) : Prop where
  source : m.sourceTable = "inventory_physical_count" ∧ m.sourcePk = c.id
  time : m.occurredAt = c.confirmedAt
  tags : ∃ sku warehouse, known c.skuId = some sku ∧
    canonicalTelemetryWarehouse c.warehouse = some warehouse ∧
    m.tags = discrepancyTags sku warehouse c.clientId c.countId c.expectedQuantity c.observedQuantity

/-- A count is one of its SKU. -/
def Counted (c : PhysicalCount) : Prop :=
  ∃ sku, known c.skuId = some sku ∧ sku.clientId = some c.clientId ∧ c.warehouse = sku.warehouse

/-- What the tables say of each other. -/
structure Kept (db : Tables) : Prop where
  entries : List.Forall₂ Entered db.entries (evaluationsOf "stockentry" db)
  exits : List.Forall₂ Left db.exits (evaluationsOf "stockexit" db)
  evaluations : ∀ e ∈ db.evaluations, Judged known e
  crossings : List.Forall₂ (Crossing known) (db.evaluations.filter fun e => e.crossed)
    (messages "stock_threshold_triggered" db)
  inbound : List.Forall₂ (Inbound known)
    ((evaluationsOf "stockentry" db).filter fun e => e.clientId.isSome)
    (messages "inbound_order_created" db)
  discrepancies : List.Forall₂ (Discrepancy known)
    (db.counts.filter fun c => c.observedQuantity ≠ c.expectedQuantity)
    (messages "inventory_discrepancy_detected" db)
  counts : ∀ c ∈ db.counts, Counted known c
  pairs : ∀ m ∈ db.outbox.map message, (m.sourceTable, m.eventType) ∈ outboxSourceEventTypes

end Relations

/-- Each order has its message, but for those in `pending`, which are the last ones. -/
def Announced (pending : List CommercialOrder) (db : Tables) : Prop :=
  ∃ placed, db.orders = placed ++ pending ∧
    List.Forall₂ Outbound placed (messages "outbound_order_created" db)

section Append

variable {f g : Int → Option Sku} {pending : List CommercialOrder} {a b db : Tables}

theorem messages_append (eventType : String) (a b : Tables) :
    messages eventType (append a b) = messages eventType a ++ messages eventType b := by
  simp [messages, append]

theorem evaluationsOf_append (sourceTable : String) (a b : Tables) :
    evaluationsOf sourceTable (append a b) =
      evaluationsOf sourceTable a ++ evaluationsOf sourceTable b := by
  simp [evaluationsOf, append]

/-- What is known of more SKUs. -/
theorem Kept.known (h : Kept f db) (hfg : ∀ id sku, f id = some sku → g id = some sku) : Kept g db where
  entries := h.entries
  exits := h.exits
  evaluations e he := by
    obtain ⟨sku, hsku, hrest⟩ := (h.evaluations e he).sku
    exact { (h.evaluations e he : Judged f e) with sku := ⟨sku, hfg _ _ hsku, hrest⟩ }
  crossings := h.crossings.imp fun e m hm => by
    obtain ⟨sku, warehouse, clientId, t, hsku, hrest⟩ := hm.tags
    exact { (hm : Crossing f e m) with tags := ⟨sku, warehouse, clientId, t, hfg _ _ hsku, hrest⟩ }
  inbound := h.inbound.imp fun e m hm => by
    obtain ⟨sku, warehouse, clientId, hsku, hrest⟩ := hm.tags
    exact { (hm : Inbound f e m) with tags := ⟨sku, warehouse, clientId, hfg _ _ hsku, hrest⟩ }
  discrepancies := h.discrepancies.imp fun c m hm => by
    obtain ⟨sku, warehouse, hsku, hrest⟩ := hm.tags
    exact { (hm : Discrepancy f c m) with tags := ⟨sku, warehouse, hfg _ _ hsku, hrest⟩ }
  counts c hc := by
    obtain ⟨sku, hsku, hrest⟩ := h.counts c hc
    exact ⟨sku, hfg _ _ hsku, hrest⟩
  pairs := h.pairs

/-- What holds of the tables and of the rows after theirs holds of all. -/
theorem Kept.append (ha : Kept f a) (hb : Kept f b) : Kept f (append a b) where
  entries := by
    rw [evaluationsOf_append]
    exact List.rel_append ha.entries hb.entries
  exits := by
    rw [evaluationsOf_append]
    exact List.rel_append ha.exits hb.exits
  evaluations e he := by
    rcases List.mem_append.1 he with he | he
    · exact ha.evaluations e he
    · exact hb.evaluations e he
  crossings := by
    rw [messages_append, show (Books.append a b).evaluations = a.evaluations ++ b.evaluations from rfl,
      List.filter_append]
    exact List.rel_append ha.crossings hb.crossings
  inbound := by
    rw [messages_append, evaluationsOf_append, List.filter_append]
    exact List.rel_append ha.inbound hb.inbound
  discrepancies := by
    rw [messages_append, show (Books.append a b).counts = a.counts ++ b.counts from rfl, List.filter_append]
    exact List.rel_append ha.discrepancies hb.discrepancies
  counts c hc := by
    rcases List.mem_append.1 hc with hc | hc
    · exact ha.counts c hc
    · exact hb.counts c hc
  pairs m hm := by
    rw [show (Books.append a b).outbox = a.outbox ++ b.outbox from rfl, List.map_append] at hm
    rcases List.mem_append.1 hm with hm | hm
    · exact ha.pairs m hm
    · exact hb.pairs m hm

/-- Orders after others that all have their messages. -/
theorem Announced.append (ha : Announced [] a) (hb : Announced pending b) :
    Announced pending (append a b) := by
  obtain ⟨placed, horders, hplaced⟩ := ha
  obtain ⟨placed', horders', hplaced'⟩ := hb
  refine ⟨placed ++ placed', ?_, ?_⟩
  · rw [List.append_nil] at horders
    rw [List.append_assoc, ← horders', ← horders]
    rfl
  · rw [messages_append]
    exact List.rel_append hplaced hplaced'

/-- Rows that are about no order. -/
theorem Announced.more (ha : Announced pending a) (horders : b.orders = [])
    (hmessages : messages "outbound_order_created" b = []) : Announced pending (Books.append a b) := by
  obtain ⟨placed, hplaced, hall⟩ := ha
  refine ⟨placed, ?_, ?_⟩
  · rw [← hplaced, show (Books.append a b).orders = a.orders ++ b.orders from rfl, horders, List.append_nil]
  · rw [messages_append, hmessages, List.append_nil]
    exact hall

end Append

/-! ## Keys -/

section Keys

variable {ρ : Type} {key : ρ → Option Uuid} {rows db db' : List ρ}

/-- The keys of new rows are new. -/
structure Fresh (key : ρ → Option Uuid) (rows db : List ρ) : Prop where
  nodup : (rows.filterMap key).Nodup
  new : ∀ u ∈ rows.filterMap key, u ∉ db.filterMap key

theorem Fresh.nil : Fresh key [] db := ⟨List.nodup_nil, by simp⟩

/-- The keys of all rows are distinct. -/
theorem Fresh.append (h : Fresh key rows db) (hdb : (db.filterMap key).Nodup) :
    ((db ++ rows).filterMap key).Nodup := by
  rw [List.filterMap_append, List.nodup_append]
  refine ⟨hdb, h.nodup, fun u hu v hv => ?_⟩
  rintro rfl
  exact h.new u hv hu

/-- A row with no key, or with one that is nowhere yet. -/
theorem Fresh.snoc {row : ρ} (h : Fresh key rows db)
    (hrow : ∀ u, key row = some u → u ∉ (db ++ rows).filterMap key) : Fresh key (rows ++ [row]) db := by
  cases hkey : key row with
  | none => exact ⟨by simpa [hkey] using h.nodup, by simpa [hkey] using h.new⟩
  | some u =>
    have hnew := hrow u hkey
    rw [List.filterMap_append, List.mem_append, not_or] at hnew
    constructor
    · rw [List.filterMap_append, List.nodup_append]
      refine ⟨h.nodup, by simp [hkey], fun v hv w hw => ?_⟩
      have hw' : w = u := by simpa [hkey] using hw
      rintro rfl
      exact hnew.2 (hw' ▸ hv)
    · intro v hv
      rw [List.filterMap_append, List.mem_append] at hv
      rcases hv with hv | hv
      · exact h.new v hv
      · have hv' : v = u := by simpa [hkey] using hv
        exact hv' ▸ hnew.1

/-- Keys that nobody else can take stay new. -/
theorem Fresh.mono (h : Fresh key rows db)
    (hnew : ∀ u ∈ rows.filterMap key, u ∉ db.filterMap key → u ∉ db'.filterMap key) : Fresh key rows db' :=
  ⟨h.nodup, fun u hu => hnew u hu (h.new u hu)⟩

end Keys

/-- The keys of orders and counts. -/
def orderKey (o : CommercialOrder) : Option Uuid := some o.orderId

def countKey (c : PhysicalCount) : Option Uuid := some c.countId

/-- An exit of an order is a dispatch with an id, from the warehouse of the order, and its SKU is one of
the client. -/
def OfClient (known : Int → Option Sku) (orders : List CommercialOrder) (e : StockExit) : Prop :=
  ∀ pk, e.commercialOrderId = some pk → e.dispatchId.isSome = true ∧
    ∃ o ∈ orders, o.id = pk ∧ o.warehouse = e.warehouse ∧
      ∃ sku, known e.skuId = some sku ∧ sku.clientId = some o.clientId

/-! ## The invariant -/

/-- The balances of a SKU, movement by movement. -/
def history (db : Tables) (sku : Int) : List (Int × Int) :=
  (db.evaluations.filter fun e => e.skuId = sku).map fun e => (e.beforeQuantity, e.afterQuantity)

/-- The evaluations of each SKU lead from nothing to its stock. -/
def Balanced (db : Tables) (known : Int → Option Sku) : Prop :=
  ∀ id sku, known id = some sku → Runs 0 (history db id) (stock db id sku.warehouse)

/-- What every committed state satisfies. -/
structure Inv (db : Tables) : Prop where
  ids : (db.skus.map Sku.id).Nodup
  kept : Kept (known db) db
  announced : Announced [] db
  balanced : Balanced db (known db)
  orders : (db.orders.filterMap orderKey).Nodup
  dispatches : (db.exits.filterMap StockExit.dispatchId).Nodup
  counts : (db.counts.filterMap countKey).Nodup
  clients : ∀ e ∈ db.exits, OfClient (known db) db.orders e
  dispatched : ∀ o ∈ db.orders, ∃ e ∈ db.exits, e.commercialOrderId = some o.id

end TrackFlow.Inventory.Books
