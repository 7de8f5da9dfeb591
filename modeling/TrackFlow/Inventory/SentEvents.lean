import TrackFlow.Inventory.HonestAudits
import TrackFlow.Inventory.CommandWrites
import TrackFlow.Pipelines.CleanWeeks

/-!
# Messages as events

What the tables say has happened (`facts`): each entry, each order, each crossing of a threshold and each
count that found another stock. The message of each is a row of telemetry that validates, whose event has the
movement, the key and the amount of its fact (`Proper.sent`), when the ids of requests are `UUID4`, as the
schemas have them (`SchemaCommand`), and the products have clients that are not blank.
-/

namespace TrackFlow.Inventory.Books

open TrackFlow.Python TrackFlow.ReadCommitted
open TrackFlow.Pipelines hiding outboxRows
open TrackFlow.Pipelines.Extraction (keyOf toEvent)
open CommandLocks (Lock)

/-! ## Requests -/

/-- The commands, of requests that the schemas accept: the ids of orders and counts are `UUID4`. -/
inductive SchemaCommand : Txn Unit → Prop
  | entry (data : StockEntryCreate) (userUuid : String) (s : Stamp) : 0 < data.quantity →
      SchemaCommand (createStockEntry data userUuid s >>= fun _ => pure ())
  | exit (data : StockExitCreate) (userUuid : String) (s : Stamp) : 0 < data.quantity →
      SchemaCommand (createStockExit data userUuid s >>= fun _ => pure ())
  | threshold (skuId : Int) (value : Option Int) :
      SchemaCommand (updateSkuThreshold skuId value >>= fun _ => pure ())
  | count (data : PhysicalCountCreate) (userUuid : String) (s : Stamp) : data.countId.version = some 4 →
      SchemaCommand (confirmInventoryPhysicalCount data userUuid s >>= fun _ => pure ())
  | order (data : CommercialOrderCreate) (userUuid : String) (s : Stamp) (stamps : Stamps) :
      data.orderId.version = some 4 → data.dispatches ≠ [] → (∀ item ∈ data.dispatches, 0 < item.quantity) →
      SchemaCommand (createCommercialOrder data userUuid s stamps >>= fun _ => pure ())
  | append (data : DispatchAppend) (userUuid : String) (now : Int) (stamps : Stamps) :
      (∀ item ∈ data.dispatches, 0 < item.quantity) →
      SchemaCommand (appendCommercialOrderDispatches data userUuid now stamps >>= fun _ => pure ())

theorem SchemaCommand.command {p : Txn Unit} (h : SchemaCommand p) : Command p := by
  cases h with
  | entry data userUuid s hpos => exact .entry data userUuid s hpos
  | exit data userUuid s hpos => exact .exit data userUuid s hpos
  | threshold skuId value => exact .threshold skuId value
  | count data userUuid s hid => exact .count data userUuid s
  | order data userUuid s stamps hid hne hpos => exact .order data userUuid s stamps hne hpos
  | append data userUuid now stamps hpos => exact .append data userUuid now stamps hpos

theorem SchemaCommand.writes {p : Txn Unit} (h : SchemaCommand p) : p.Writes Typed := by
  cases h with
  | entry data userUuid s hpos => exact (writes_createStockEntry data).bind fun _ => Prog.writes_pure _
  | exit data userUuid s hpos => exact (writes_createStockExit data).bind fun _ => Prog.writes_pure _
  | threshold skuId value => exact (writes_updateSkuThreshold skuId value).bind fun _ => Prog.writes_pure _
  | count data userUuid s hid =>
    exact (writes_confirmInventoryPhysicalCount data hid).bind fun _ => Prog.writes_pure _
  | order data userUuid s stamps hid hne hpos =>
    exact (writes_createCommercialOrder data hid).bind fun _ => Prog.writes_pure _
  | append data userUuid now stamps hpos =>
    exact (writes_appendCommercialOrderDispatches data).bind fun _ => Prog.writes_pure _

/-- The rows that requests leave. -/
structure TypedRows (db : Tables) : Prop where
  orders : ∀ o ∈ db.orders, o.orderId.version = some 4
  counts : ∀ c ∈ db.counts, c.countId.version = some 4
  exits : ∀ e ∈ db.exits, e.commercialOrderId.isSome = true → e.exitType = "dispatch"

theorem TypedRows.write {db : Tables} (h : TypedRows db) {w : Write} (hw : Typed w) :
    TypedRows (applyWrite db w) := by
  obtain ⟨horders, hcounts, hexits⟩ := h
  cases w with
  | order row =>
    refine ⟨fun o ho => ?_, hcounts, hexits⟩
    rcases List.mem_append.1 ho with ho | ho
    · exact horders o ho
    · exact List.mem_singleton.1 ho ▸ hw
  | count row =>
    refine ⟨horders, fun c hc => ?_, hexits⟩
    rcases List.mem_append.1 hc with hc | hc
    · exact hcounts c hc
    · exact List.mem_singleton.1 hc ▸ hw
  | exit row =>
    refine ⟨horders, hcounts, fun e he => ?_⟩
    rcases List.mem_append.1 he with he | he
    · exact hexits e he
    · exact List.mem_singleton.1 he ▸ hw
  | _ => exact ⟨horders, hcounts, hexits⟩

theorem World.typed {db db' : Tables} (h : World db db') (hdb : TypedRows db) : TypedRows db' where
  orders := by rw [h.orders]; exact hdb.orders
  counts := by rw [h.counts]; exact hdb.counts
  exits := by rw [h.exits]; exact hdb.exits

/-- Books of typed rows, of products whose clients are not blank. -/
structure Proper (db : Tables) : Prop where
  honest : Honest db
  typed : TypedRows db
  clients : ∀ sku ∈ db.skus, ∀ client ∈ sku.clientId, isBlank client = false

theorem Proper.reached {Cl : Type} [DecidableEq Cl] {skus : List Sku}
    {σ : System Cl Tables Write Lock Unit ServiceError Unit} (hids : (skus.map Sku.id).Nodup)
    (h : Reachable tables SchemaCommand (start skus) σ) (hproducts : ∀ sku ∈ σ.db.skus, Product sku)
    (hclients : ∀ sku ∈ σ.db.skus, ∀ client ∈ sku.clientId, isBlank client = false) : Proper σ.db where
  honest := Honest.reached hids (h.mono fun _ hp => hp.command) hproducts
  typed := by
    have hstart : TypedRows (start skus) :=
      ⟨fun o ho => (by cases ho), fun c hc => (by cases hc), fun e he => (by cases he)⟩
    exact h.written (fun db w hw hdb => hdb.write hw) (fun db db' hworld hdb => World.typed hworld hdb)
      (fun p hp => hp.writes) hstart
  clients := hclients

/-! ## Facts -/

/-- Something that has happened, and what it counts for. -/
structure Fact where
  eventType : EventType
  identity : String
  key : AggregateKey
  amount : Int

/-- What the counters see of a fact. -/
def Fact.measure (x : Fact) : EventType × AggregateKey × Int := (x.eventType, x.key, x.amount)

/-- A fact of a warehouse and a client at a time. -/
def fact (eventType : EventType) (identity warehouse : String) (clientId : Option String)
    (time amount : Int) : Option Fact := do
  let warehouse ← canonicalTelemetryWarehouse warehouse
  let clientId ← clientId
  return ⟨eventType, identity, ⟨warehouse, clientId, isoWeekStart time⟩, amount⟩

/-- The client of a SKU. -/
def clientOf (db : Tables) (skuId : Int) : Option String := (db.sku skuId).bind Sku.clientId

/-- A count found another stock. -/
def differs (c : PhysicalCount) : Bool := c.observedQuantity ≠ c.expectedQuantity

/-- What the tables say has happened. -/
def facts (db : Tables) : EventType → List Fact
  | .inboundOrderCreated => db.entries.filterMap fun row =>
      fact .inboundOrderCreated (toString row.id) row.warehouse (clientOf db row.skuId) row.createdAt
        row.quantity
  | .outboundOrderCreated => db.orders.filterMap fun o =>
      fact .outboundOrderCreated o.orderId.str o.warehouse (some o.clientId) o.createdAt 1
  | .stockThresholdTriggered => (db.evaluations.filter ThresholdEvaluation.crossed).filterMap fun e =>
      fact .stockThresholdTriggered (toString e.sourcePk) e.warehouse e.clientId e.evaluatedAt 1
  | .inventoryDiscrepancyDetected => (db.counts.filter differs).filterMap fun c =>
      fact .inventoryDiscrepancyDetected c.countId.str c.warehouse (some c.clientId) c.confirmedAt 1

/-- The telemetry row of a message. -/
def Message.record (m : Message) : TelemetryRecord where
  id := m.eventId
  timestamp := m.occurredAt
  service := "api"
  eventType := m.eventType
  level := some "info"
  value := none
  message := none
  tags := m.tags

/-- The event of a message. -/
def Fact.event (x : Fact) (m : Message) : ValidatedEvent where
  rowId := m.eventId.str
  eventType := x.eventType
  timestamp := m.occurredAt
  weekStart := x.key.weekStart
  warehouse := x.key.warehouse
  clientId := x.key.clientId
  tags := m.tags

/-- A message says a fact, to those who validate it. -/
structure Says (x : Fact) (m : Message) : Prop where
  type : m.eventType = x.eventType.text
  week : isoWeekStart m.occurredAt = x.key.weekStart
  key : keyOf m.record = some (x.eventType, x.identity)
  event : ∀ fromisoformat, datetimeMin ≤ m.occurredAt ∧ m.occurredAt ≤ datetimeMax →
    validateEvent fromisoformat (toEvent m.record) = .ok (x.event m)
  measure : (x.event m).measure = x.measure

/-! ## Messages that validate -/

section Valid

variable {x : Fact} {m : Message}

theorem says_of {kvs : List (String × PyValue)} (htype : m.eventType = x.eventType.text)
    (hweek : isoWeekStart m.occurredAt = x.key.weekStart) (htags : m.tags = .dict kvs)
    (hwarehouse : canonicalWarehouse (m.tags.get "warehouse") = .ok x.key.warehouse)
    (hclient : validClientId (m.tags.get "client_id") = .ok x.key.clientId)
    (hidentity : m.tags.get x.eventType.identityField = .str x.identity)
    (hblank : isBlank x.identity = false) (hcheck : checkIdentity m.tags x.eventType = .ok ())
    (hproduct : checkProductId (m.tags.get "product_id") = .ok ())
    (hamount : (x.event m).amount = x.amount) : Says x m where
  type := htype
  week := hweek
  key := by
    show Extraction.movementKey m.eventType m.tags = _
    unfold Extraction.movementKey
    rw [htype, EventType.ofText_text]
    rw [htags] at hidentity ⊢
    simp only [hidentity, hblank, Bool.false_eq_true, if_false]
  event fromisoformat htime := by
    have hid : rowId (toEvent m.record).id = .ok m.eventId.str := Extraction.rowId_toEvent m.record
    have hofficial : officialEventType (toEvent m.record).eventType = .ok x.eventType := by
      show officialEventType (.str m.eventType) = _
      rw [htype]
      simp only [officialEventType, EventType.ofText_text]
    have hparse : parseUtcTimestamp fromisoformat (toEvent m.record).timestamp = .ok m.occurredAt :=
      if_pos htime
    have hservice : (toEvent m.record).service.Eq (.str "api") := PyValue.Eq.refl _
    have htags' : (toEvent m.record).tags = .dict kvs := htags
    rw [htags] at hwarehouse hclient hcheck hproduct
    unfold validateEvent
    simp only [hid, hofficial, hservice, htags', hparse, hwarehouse, hclient, hproduct, bind, Except.bind,
      not_true_eq_false, if_false, hcheck]
    rw [Fact.event, htags, ← hweek]
    rfl
  measure := by
    show (x.eventType, _, (x.event m).amount) = _
    rw [hamount]
    rfl

/-- A canonical warehouse is accepted as it is. -/
theorem canonicalWarehouse_canonical {warehouse canonical : String}
    (h : canonicalTelemetryWarehouse warehouse = some canonical) :
    canonicalWarehouse (.str canonical) = .ok canonical := by
  unfold canonicalTelemetryWarehouse at h
  split at h
  all_goals cases h
  all_goals rfl

theorem nonBlank_of {message s : String} (h : isBlank s = false) : nonBlank message (.str s) = .ok s := by
  simp [nonBlank, h]

theorem checkProductId_of (id : Int) : checkProductId (.str (toString id)) = .ok () := by
  simp only [checkProductId, nonBlank_of (toString_not_blank id), bind, Except.bind]
  rfl

theorem integerQuantity_of {allowZero : Bool} {q : Int} (h : (if allowZero then 0 else 1) ≤ q) :
    integerQuantity allowZero (.int q) = .ok q := if_neg (not_lt.2 h)

theorem uuid4Text_of {message : String} {u : Uuid} (h : u.version = some 4) :
    uuid4Text message (.str u.str) = .ok () := by
  simp [uuid4Text, Uuid.ofString_str, h]

/-! The checks of the identities. -/

section Identities

variable {tags : PyValue} {s : String} {q : Int} {u : Uuid}

theorem checkIdentity_inbound (hid : tags.get "movement_id" = .str s) (hblank : isBlank s = false)
    (hquantity : tags.get "quantity" = .int q) (hpos : 0 < q) :
    checkIdentity tags .inboundOrderCreated = .ok () := by
  have hle : (if false then 0 else 1 : Int) ≤ q := hpos
  simp only [checkIdentity, hid, hquantity, nonBlank_of hblank, integerQuantity_of hle, bind, Except.bind]
  rfl

theorem checkIdentity_threshold (hid : tags.get "movement_id" = .str s) (hblank : isBlank s = false)
    (hquantity : tags.get "quantity" = .int q) (hnonneg : 0 ≤ q) :
    checkIdentity tags .stockThresholdTriggered = .ok () := by
  have hle : (if true then 0 else 1 : Int) ≤ q := hnonneg
  simp only [checkIdentity, hid, hquantity, nonBlank_of hblank, integerQuantity_of hle, bind, Except.bind]
  rfl

theorem checkIdentity_outbound (hid : tags.get "order_id" = .str u.str) (hversion : u.version = some 4) :
    checkIdentity tags .outboundOrderCreated = .ok () := by
  simp only [checkIdentity, hid, uuid4Text_of hversion]

theorem checkIdentity_discrepancy (hid : tags.get "count_id" = .str u.str) (hversion : u.version = some 4)
    (hquantity : tags.get "quantity" = .int q) (hpos : 0 < q) :
    checkIdentity tags .inventoryDiscrepancyDetected = .ok () := by
  have hle : (if false then 0 else 1 : Int) ≤ q := hpos
  simp only [checkIdentity, hid, hquantity, uuid4Text_of hversion, integerQuantity_of hle, bind, Except.bind]
  rfl

end Identities

theorem amount_inbound {q : Int} (htype : x.eventType = .inboundOrderCreated)
    (hquantity : m.tags.get "quantity" = .int q) : (x.event m).amount = q := by
  have htag : (x.event m).tags.get "quantity" = .int q := hquantity
  rw [ValidatedEvent.amount, if_pos (show (x.event m).eventType = _ from htype), ValidatedEvent.quantity,
    htag]

theorem amount_other {t : EventType} (htype : x.eventType = t) (hother : t ≠ .inboundOrderCreated) :
    (x.event m).amount = 1 := if_neg (show x.eventType ≠ _ from htype ▸ hother)

end Valid

section Kinds

variable {db : Tables}

theorem clientOf_known {skuId : Int} {sku : Sku} (h : known db skuId = some sku) :
    clientOf db skuId = sku.clientId := by
  obtain ⟨s, hs, rfl⟩ := sku_of_known h
  rw [clientOf, hs]
  rfl

theorem Proper.client (h : Proper db) {skuId : Int} {sku : Sku} {clientId : String}
    (hsku : known db skuId = some sku) (hclient : sku.clientId = some clientId) :
    isBlank clientId = false := by
  obtain ⟨s, hs, rfl⟩ := sku_of_known hsku
  exact h.clients s (List.mem_of_find?_eq_some hs) clientId hclient

/-- The message of an entry. -/
theorem Proper.entry (h : Proper db) {row : StockEntry} {m : Message} (hrow : row ∈ db.entries)
    (htype : m.eventType = "inbound_order_created") (harrived : Arrived (known db) row m) :
    ∃ x, fact .inboundOrderCreated (toString row.id) row.warehouse (clientOf db row.skuId) row.createdAt
      row.quantity = some x ∧ Says x m := by
  obtain ⟨sku, warehouse, clientId, hsku, hwarehouse, hclient, htags⟩ := harrived.tags
  obtain ⟨e, -, hentered⟩ := partner h.honest.inv.kept.entries hrow
  have hfact : fact .inboundOrderCreated (toString row.id) row.warehouse (clientOf db row.skuId) row.createdAt
      row.quantity = some ⟨.inboundOrderCreated, toString row.id,
        ⟨warehouse, clientId, isoWeekStart row.createdAt⟩, row.quantity⟩ := by
    rw [fact, hwarehouse, clientOf_known hsku, hclient]
    rfl
  have hquantity : m.tags.get "quantity" = .int row.quantity := by rw [htags]; rfl
  have hidentity : m.tags.get "movement_id" = .str (toString row.id) := by rw [htags]; rfl
  refine ⟨_, hfact, says_of htype (by rw [harrived.time]) htags ?_ ?_ hidentity (toString_not_blank _)
    (checkIdentity_inbound hidentity (toString_not_blank _) hquantity hentered.positive) ?_
    (amount_inbound rfl hquantity)⟩
  all_goals rw [htags]
  · exact canonicalWarehouse_canonical hwarehouse
  · exact nonBlank_of (h.client hsku hclient)
  · exact checkProductId_of _

/-- The message of an order. -/
theorem Proper.order (h : Proper db) {o : CommercialOrder} {m : Message} (ho : o ∈ db.orders)
    (htype : m.eventType = "outbound_order_created") (houtbound : Outbound o m) :
    ∃ x, fact .outboundOrderCreated o.orderId.str o.warehouse (some o.clientId) o.createdAt 1 = some x ∧
      Says x m := by
  obtain ⟨w, hw⟩ := h.honest.order_warehouse ho
  obtain ⟨warehouse, hwarehouse⟩ : ∃ warehouse, canonicalTelemetryWarehouse o.warehouse = some warehouse := by
    rw [hw]
    cases w <;> exact ⟨_, rfl⟩
  obtain ⟨e, he, hpk⟩ := h.honest.inv.dispatched o ho
  obtain ⟨-, o', ho', hid, -, sku, hsku, hclient⟩ := h.honest.inv.clients e he o.id hpk
  cases List.inj_on_of_nodup_map h.honest.unique.orders ho' ho hid
  have htags : m.tags = .dict [("order_id", .str o.orderId.str), ("warehouse", .str warehouse),
      ("client_id", .str o.clientId)] := by
    rw [houtbound.tags, outboundTags, hwarehouse]
    rfl
  have hfact : fact .outboundOrderCreated o.orderId.str o.warehouse (some o.clientId) o.createdAt 1 =
      some ⟨.outboundOrderCreated, o.orderId.str, ⟨warehouse, o.clientId, isoWeekStart o.createdAt⟩, 1⟩ := by
    rw [fact, hwarehouse]
    rfl
  have hidentity : m.tags.get "order_id" = .str o.orderId.str := by rw [htags]; rfl
  refine ⟨_, hfact, says_of htype (by rw [houtbound.time]) htags ?_ ?_ hidentity (Uuid.str_not_blank _)
    (checkIdentity_outbound hidentity (h.typed.orders o ho)) ?_
    (amount_other (t := .outboundOrderCreated) rfl (by decide))⟩
  all_goals rw [htags]
  · exact canonicalWarehouse_canonical hwarehouse
  · exact nonBlank_of (h.client hsku hclient)
  · rfl

/-- The message of a crossing. -/
theorem Proper.crossing (h : Proper db) {e : ThresholdEvaluation} {m : Message} (he : e ∈ db.evaluations)
    (htype : m.eventType = "stock_threshold_triggered") (hcrossing : Crossing (known db) e m) :
    ∃ x, fact .stockThresholdTriggered (toString e.sourcePk) e.warehouse e.clientId e.evaluatedAt 1 = some x ∧
      Says x m := by
  obtain ⟨sku, warehouse, clientId, t, hsku, hwarehouse, hclient, -, htags⟩ := hcrossing.tags
  have hjudged := h.honest.inv.kept.evaluations e he
  obtain ⟨sku', hsku', hclient', -⟩ := hjudged.sku
  cases hsku.symm.trans hsku'
  have hfact : fact .stockThresholdTriggered (toString e.sourcePk) e.warehouse e.clientId e.evaluatedAt 1 =
      some ⟨.stockThresholdTriggered, toString e.sourcePk,
        ⟨warehouse, clientId, isoWeekStart e.evaluatedAt⟩, 1⟩ := by
    rw [fact, hwarehouse, hclient]
    rfl
  have hquantity : m.tags.get "quantity" = .int e.afterQuantity := by rw [htags]; rfl
  have hidentity : m.tags.get "movement_id" = .str (toString e.sourcePk) := by rw [htags]; rfl
  refine ⟨_, hfact, says_of htype (by rw [hcrossing.time]) htags ?_ ?_ hidentity (toString_not_blank _)
    (checkIdentity_threshold hidentity (toString_not_blank _) hquantity hjudged.after) ?_
    (amount_other (t := .stockThresholdTriggered) rfl (by decide))⟩
  all_goals rw [htags]
  · exact canonicalWarehouse_canonical hwarehouse
  · exact nonBlank_of (h.client hsku (hclient'.symm.trans hclient))
  · exact checkProductId_of _

/-- The message of a count that found another stock. -/
theorem Proper.count (h : Proper db) {c : PhysicalCount} {m : Message} (hc : c ∈ db.counts)
    (hdiffers : c.observedQuantity ≠ c.expectedQuantity)
    (htype : m.eventType = "inventory_discrepancy_detected") (hdiscrepancy : Discrepancy (known db) c m) :
    ∃ x, fact .inventoryDiscrepancyDetected c.countId.str c.warehouse (some c.clientId) c.confirmedAt 1 =
      some x ∧ Says x m := by
  obtain ⟨sku, warehouse, hsku, hwarehouse, htags⟩ := hdiscrepancy.tags
  obtain ⟨sku', hsku', hclient, -⟩ := h.honest.inv.kept.counts c hc
  cases hsku.symm.trans hsku'
  have hfact : fact .inventoryDiscrepancyDetected c.countId.str c.warehouse (some c.clientId)
      c.confirmedAt 1 = some ⟨.inventoryDiscrepancyDetected, c.countId.str,
        ⟨warehouse, c.clientId, isoWeekStart c.confirmedAt⟩, 1⟩ := by
    rw [fact, hwarehouse]
    rfl
  have hquantity : m.tags.get "quantity" = .int |c.observedQuantity - c.expectedQuantity| := by
    rw [htags]
    rfl
  have hidentity : m.tags.get "count_id" = .str c.countId.str := by rw [htags]; rfl
  refine ⟨_, hfact, says_of htype (by rw [hdiscrepancy.time]) htags ?_ ?_ hidentity (Uuid.str_not_blank _)
    (checkIdentity_discrepancy hidentity (h.typed.counts c hc) hquantity
      (abs_pos.2 (sub_ne_zero.2 hdiffers))) ?_ (amount_other (t := .inventoryDiscrepancyDetected) rfl (by decide))⟩
  all_goals rw [htags]
  · exact canonicalWarehouse_canonical hwarehouse
  · exact nonBlank_of (h.client hsku hclient)
  · exact checkProductId_of _

/-- Rows that each give a fact. -/
theorem forall₂_filterMap {α β γ : Type} {R : α → β → Prop} {S : γ → β → Prop} {f : α → Option γ}
    {as : List α} {bs : List β} (h : List.Forall₂ R as bs)
    (hf : ∀ a ∈ as, ∀ b ∈ bs, R a b → ∃ x, f a = some x ∧ S x b) : List.Forall₂ S (as.filterMap f) bs := by
  induction h with
  | nil => exact .nil
  | cons hab _ ih =>
    obtain ⟨x, hx, hS⟩ := hf _ List.mem_cons_self _ List.mem_cons_self hab
    rw [List.filterMap_cons, hx]
    exact .cons hS (ih fun a ha b hb => hf a (List.mem_cons_of_mem _ ha) b (List.mem_cons_of_mem _ hb))

theorem messages_type {eventType : String} {m : Message} (h : m ∈ messages eventType db) :
    m.eventType = eventType := of_decide_eq_true (List.mem_filter.1 h).2

/-- **The messages of a type say the facts of the type**, one for one. -/
theorem Proper.sent (h : Proper db) (t : EventType) :
    List.Forall₂ Says (facts db t) (messages t.text db) := by
  cases t with
  | inboundOrderCreated =>
    have hall : db.entries.filter (hasClient (known db)) = db.entries := by
      refine List.filter_eq_self.2 fun row hrow => ?_
      obtain ⟨e, he, hentered⟩ := partner h.honest.inv.kept.entries hrow
      have hmem := (List.mem_filter.1 he).1
      obtain ⟨-, client, -, -, -, hclient, -⟩ := h.honest.judged hmem
      rw [(h.honest.inv.kept.evaluations e hmem).hasClient hentered, hclient]
      rfl
    have harrived := h.honest.inv.arrived
    rw [hall] at harrived
    exact forall₂_filterMap harrived fun row hrow m hm hR => h.entry hrow (messages_type hm) hR
  | outboundOrderCreated =>
    obtain ⟨placed, hplaced, hall⟩ := h.honest.inv.announced
    rw [List.append_nil] at hplaced
    rw [← hplaced] at hall
    exact forall₂_filterMap hall fun o ho m hm hR => h.order ho (messages_type hm) hR
  | stockThresholdTriggered =>
    refine forall₂_filterMap h.honest.inv.kept.crossings fun e he m hm hR => ?_
    exact h.crossing (List.mem_filter.1 he).1 (messages_type hm) hR
  | inventoryDiscrepancyDetected =>
    refine forall₂_filterMap h.honest.inv.kept.discrepancies fun c hc m hm hR => ?_
    obtain ⟨hc, hdiffers⟩ := List.mem_filter.1 hc
    exact h.count hc (of_decide_eq_true hdiffers) (messages_type hm) hR

end Kinds

end TrackFlow.Inventory.Books
