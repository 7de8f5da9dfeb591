import TrackFlow.Pipelines.CoverageSoundness
import TrackFlow.Inventory.UniqueKeys

/-!
# What the audit finds in honest books

`loadSnapshot` is what `audit_operational_coverage` reads of an interval. The audit derives the events of
the interval on its own, table by table and each with its own column of time. In the books of the commands
it finds nothing wrong with a row: the rows that belong together have the same instant
(`Honest.auditEntry`, `Honest.auditOrder`, `Honest.auditMovement`, `Honest.auditCount`).
-/

namespace TrackFlow.Inventory.Books

open TrackFlow.Python TrackFlow.ReadCommitted
open TrackFlow.Pipelines hiding outboxRows
open CommandLocks (Lock)

/-! ## The snapshot -/

section Snapshot

/-- An entry joined with its SKU. -/
def entrySnapshot (db : Tables) (e : StockEntry) : Option EntryRow :=
  (db.sku e.skuId).map fun sku => ⟨e.id, e.skuId, e.quantity, e.warehouse, sku.clientId, sku.category⟩

def orderSnapshot (o : CommercialOrder) : OrderRow := ⟨o.id, o.orderId, o.clientId, o.warehouse⟩

/-- An exit that belongs to an order. -/
def dispatchSnapshot (e : StockExit) : Option DispatchRow :=
  e.commercialOrderId.map fun pk => ⟨e.dispatchId, pk⟩

/-- Movements joined with their SKUs. -/
def entryMovement (db : Tables) (e : StockEntry) : Option MovementRow :=
  (db.sku e.skuId).map fun sku =>
    ⟨"stockentry", e.id, e.skuId, e.quantity, e.warehouse, sku.clientId, sku.category, e.createdAt⟩

def exitMovement (db : Tables) (e : StockExit) : Option MovementRow :=
  (db.sku e.skuId).map fun sku =>
    ⟨"stockexit", e.id, e.skuId, e.quantity, e.warehouse, sku.clientId, sku.category, e.createdAt⟩

def checkpoint (e : ThresholdEvaluation) : CheckpointRow :=
  ⟨e.sourceTable, e.sourcePk, e.skuId, e.clientId, e.warehouse, e.beforeQuantity, e.afterQuantity,
    e.thresholdQuantity, e.crossed, e.eventId, e.evaluatedAt⟩

/-- A count joined with its SKU. -/
def countSnapshot (db : Tables) (c : PhysicalCount) : Option CountRow :=
  (db.sku c.skuId).map fun sku =>
    ⟨c.id, c.countId, c.skuId, c.clientId, c.warehouse, c.expectedQuantity, c.observedQuantity,
      sku.category⟩

/-- The queries of `audit_operational_coverage`. -/
def loadSnapshot (start stop : Int) (db : Tables) (telemetry : List TelemetryRecord) :
    OperationalSnapshot where
  entries := (db.entries.filter fun e => InWindow start stop e.createdAt).filterMap (entrySnapshot db)
  orders := (db.orders.filter fun o => InWindow start stop o.createdAt).map orderSnapshot
  dispatches := db.exits.filterMap dispatchSnapshot
  movements := (db.entries.filter fun e => InWindow start stop e.createdAt).filterMap (entryMovement db) ++
    (db.exits.filter fun e => InWindow start stop e.createdAt).filterMap (exitMovement db)
  checkpoints := (db.evaluations.filter fun e => InWindow start stop e.evaluatedAt).map checkpoint
  counts := (db.counts.filter fun c => InWindow start stop c.confirmedAt).filterMap (countSnapshot db)
  outbox := windowOutbox start stop db.outbox
  telemetry := windowTelemetry start stop telemetry

end Snapshot

/-! ## Honest books -/

/-- A product as the service creates it: with a client, in one of the warehouses. -/
def Product (sku : Sku) : Prop := sku.clientId.isSome = true ∧ ∃ w : Warehouse, sku.warehouse = w.value

/-- Books in order, of products. -/
structure Honest (db : Tables) : Prop where
  inv : Inv db
  unique : Unique db
  products : ∀ sku ∈ db.skus, Product sku

section Lookups

variable {db : Tables} {start stop : Int} {telemetry : List TelemetryRecord}

theorem audit_warehouse (w : Warehouse) : auditWarehouse w.value = canonicalTelemetryWarehouse w.value := by
  cases w <;> decide

theorem eq_of_known {id : Int} {sku known' : Sku} (hsku : db.sku id = some sku)
    (hknown : known db id = some known') : known' = fixed sku :=
  Option.some.inj (hknown.symm.trans (known_of_sku hsku))

/-- A message is an outbox row. -/
theorem row_of_message {eventType : String} {m : Message} (h : m ∈ messages eventType db) :
    ∃ row ∈ db.outbox, message row = m ∧ row.eventType = eventType := by
  obtain ⟨hmem, htype⟩ := List.mem_filter.1 h
  obtain ⟨row, hrow, rfl⟩ := List.mem_map.1 hmem
  exact ⟨row, hrow, rfl, of_decide_eq_true htype⟩

theorem message_of_row {row : OutboxRow} (h : row ∈ db.outbox) : message row ∈ messages row.eventType db :=
  List.mem_filter.2 ⟨List.mem_map_of_mem h, decide_eq_true rfl⟩

/-- The audit finds the row of a message, and no other. -/
theorem Honest.found (h : Honest db) {eventType : String} {m : Message} (hm : m ∈ messages eventType db)
    (hwindow : InWindow start stop m.occurredAt) :
    ∃ row, Pipelines.outboxRows (windowOutbox start stop db.outbox) (m.sourceTable, m.sourcePk, eventType) =
      [row] ∧ row.eventId = m.eventId ∧ row.tags = m.tags := by
  obtain ⟨row, hrow, rfl, rfl⟩ := row_of_message hm
  have hkeys : ((windowOutbox start stop db.outbox).map OutboxRow.key).Nodup :=
    h.unique.messages.sublist (List.filter_sublist.map _)
  have hmem : row ∈ windowOutbox start stop db.outbox :=
    List.mem_filter.2 ⟨hrow, decide_eq_true hwindow⟩
  exact ⟨row, filter_key_eq hkeys hmem, rfl, rfl⟩

/-- The audit finds no row where there is no message. -/
theorem not_found {table : String} {pk : Int} {eventType : String}
    (h : ∀ m ∈ messages eventType db, m.sourceTable = table → m.sourcePk ≠ pk) :
    Pipelines.outboxRows (windowOutbox start stop db.outbox) (table, pk, eventType) = [] := by
  refine List.filter_eq_nil_iff.2 fun row hrow hkey => ?_
  obtain ⟨hrow, -⟩ := List.mem_filter.1 hrow
  have hkey : (row.sourceTable, row.sourcePk, row.eventType) = (table, pk, eventType) :=
    of_decide_eq_true hkey
  simp only [Prod.mk.injEq] at hkey
  obtain ⟨htable, hpk, rfl⟩ := hkey
  exact h (message row) (message_of_row hrow) htable hpk

/-- An evaluation is one of a product. -/
theorem Honest.judged (h : Honest db) {e : ThresholdEvaluation} (he : e ∈ db.evaluations) :
    ∃ sku client w, db.sku e.skuId = some sku ∧ sku.clientId = some client ∧ e.clientId = some client ∧
      sku.warehouse = Warehouse.value w ∧ e.warehouse = w.value := by
  obtain ⟨known, hknown, hclient, hwarehouse⟩ := (h.inv.kept.evaluations e he).sku
  obtain ⟨sku, hsku, rfl⟩ := sku_of_known hknown
  obtain ⟨hsome, w, hw⟩ := h.products sku (List.mem_of_find?_eq_some hsku)
  obtain ⟨client, hc⟩ := Option.isSome_iff_exists.1 hsome
  exact ⟨sku, client, w, hsku, hc, hclient.trans hc, hw, hwarehouse.trans hw⟩

end Lookups

/-! ## Movements -/

section Movements

variable {db : Tables} {start stop : Int} {telemetry : List TelemetryRecord} {m : MovementRow}
  {e : ThresholdEvaluation}

/-- A movement of the snapshot and its evaluation. -/
structure Describes (db : Tables) (m : MovementRow) (e : ThresholdEvaluation) : Prop where
  mem : e ∈ db.evaluations
  table : m.sourceTable = e.sourceTable
  pk : m.sourcePk = e.sourcePk
  sku : ∃ sku, db.sku e.skuId = some sku ∧ m.skuId = sku.id ∧ m.clientId = sku.clientId ∧
    m.category = sku.category
  warehouse : m.warehouse = e.warehouse
  after : m.expectedAfter (checkpoint e) = e.afterQuantity
  time : m.createdAt = e.evaluatedAt

/-- Each movement has its evaluation, of the same instant. -/
theorem Honest.described (h : Honest db) (hm : m ∈ (loadSnapshot start stop db telemetry).movements) :
    ∃ e, Describes db m e ∧ InWindow start stop e.evaluatedAt := by
  simp only [loadSnapshot, List.mem_append, List.mem_filterMap, List.mem_filter,
    decide_eq_true_eq] at hm
  rcases hm with ⟨row, ⟨hrow, hwindow⟩, hm⟩ | ⟨row, ⟨hrow, hwindow⟩, hm⟩
  · obtain ⟨sku, hsku, rfl⟩ := Option.map_eq_some_iff.1 hm
    obtain ⟨e, he, hentered⟩ := partner h.inv.kept.entries hrow
    obtain ⟨he, htable⟩ := List.mem_filter.1 he
    have htable : e.sourceTable = "stockentry" := of_decide_eq_true htable
    refine ⟨e, ⟨he, htable.symm, hentered.source.symm, ⟨sku, hentered.sku ▸ hsku, ?_, rfl, rfl⟩,
      hentered.warehouse.symm, ?_, hentered.time.symm⟩, hentered.time ▸ hwindow⟩
    · exact (sku_id hsku).symm
    · rw [hentered.moved]
      rfl
  · obtain ⟨sku, hsku, rfl⟩ := Option.map_eq_some_iff.1 hm
    obtain ⟨e, he, hleft⟩ := partner h.inv.kept.exits hrow
    obtain ⟨he, htable⟩ := List.mem_filter.1 he
    have htable : e.sourceTable = "stockexit" := of_decide_eq_true htable
    refine ⟨e, ⟨he, htable.symm, hleft.source.symm, ⟨sku, hleft.sku ▸ hsku, ?_, rfl, rfl⟩,
      hleft.warehouse.symm, ?_, hleft.time.symm⟩, hleft.time ▸ hwindow⟩
    · exact (sku_id hsku).symm
    · rw [hleft.moved]
      rfl

/-- The only checkpoint of a movement. -/
theorem Describes.checkpoints (hd : Describes db m e) (h : Honest db)
    (hwindow : InWindow start stop e.evaluatedAt) :
    m.checkpoints (loadSnapshot start stop db telemetry).checkpoints = [checkpoint e] := by
  have hkeys : (((db.evaluations.filter fun e => InWindow start stop e.evaluatedAt).map checkpoint).map
      fun c => (c.sourceTable, c.sourcePk)).Nodup := by
    rw [List.map_map]
    exact h.unique.evaluations.sublist (List.filter_sublist.map _)
  have hmem : checkpoint e ∈ (db.evaluations.filter fun e => InWindow start stop e.evaluatedAt).map
      checkpoint := List.mem_map_of_mem (List.mem_filter.2 ⟨hd.mem, decide_eq_true hwindow⟩)
  have hone := filter_key_eq hkeys hmem
  simp only [Prod.mk.injEq] at hone
  unfold MovementRow.checkpoints
  rw [hd.table, hd.pk]
  exact hone

/-- The audit and the service agree on what a crossing is. -/
theorem Describes.crossed (hd : Describes db m e) (h : Honest db) :
    m.crossed (checkpoint e) = e.crossed := by
  rw [Bool.eq_iff_iff, (h.inv.kept.evaluations e hd.mem).crossed]
  unfold MovementRow.crossed Crosses checkpoint
  rw [hd.table]
  cases e.thresholdQuantity <;> simp

/-- The audit finds the message of a crossing. -/
theorem Describes.crossing (hd : Describes db m e) (h : Honest db)
    (hwindow : InWindow start stop e.evaluatedAt) (hcrossed : e.crossed = true) :
    ∃ row, Pipelines.outboxRows (windowOutbox start stop db.outbox) m.outboxKey = [row] ∧
      e.eventId = some row.eventId ∧ row.tags = m.tags (checkpoint e) := by
  have htable : e.sourceTable = "stockexit" :=
    ((h.inv.kept.evaluations e hd.mem).crossed.1 hcrossed).1
  obtain ⟨msg, hmsg, hcrossing⟩ := partner h.inv.kept.crossings (List.mem_filter.2 ⟨hd.mem, hcrossed⟩)
  obtain ⟨row, hrows, hevent, htags⟩ := h.found hmsg (hcrossing.time ▸ hwindow)
  have hkey : m.outboxKey = (msg.sourceTable, msg.sourcePk, "stock_threshold_triggered") := by
    rw [MovementRow.outboxKey, hd.table, hd.pk, htable, hcrossing.source.1, hcrossing.source.2]
  refine ⟨row, hkey ▸ hrows, hevent ▸ hcrossing.event, ?_⟩
  obtain ⟨known, warehouse, client, t, hknown, hwarehouse, hclient, ht, hmsgTags⟩ := hcrossing.tags
  obtain ⟨sku, hsku, hid, hskuClient, hcategory⟩ := hd.sku
  obtain ⟨sku', client', w, hsku', hc, hclient', -, hw⟩ := h.judged hd.mem
  obtain rfl := eq_of_known hsku hknown
  cases hsku.symm.trans hsku'
  cases hclient.symm.trans hclient'
  rw [htags, hmsgTags, MovementRow.tags, thresholdTags, hd.warehouse, hw, audit_warehouse, ← hw, hwarehouse,
    hskuClient, hc, hid, hcategory, hd.pk]
  simp only [checkpoint, ht, optionText, optionInt, fixed]

/-- The audit finds no message where nothing is crossed. -/
theorem Describes.not_crossing (hd : Describes db m e) (h : Honest db) (hcrossed : e.crossed = false)
    (start stop : Int) :
    Pipelines.outboxRows (windowOutbox start stop db.outbox) m.outboxKey = [] ∧ e.eventId = none := by
  have hjudged := h.inv.kept.evaluations e hd.mem
  refine ⟨not_found fun msg hmsg htable hpk => ?_, by simpa [hcrossed] using hjudged.event⟩
  obtain ⟨e', he', hcrossing⟩ := partner h.inv.kept.crossings.flip hmsg
  obtain ⟨he', hcrossed'⟩ := List.mem_filter.1 he'
  have htable' := ((h.inv.kept.evaluations e' he').crossed.1 hcrossed').1
  have hsame : e' = e := by
    refine List.inj_on_of_nodup_map h.unique.evaluations he' hd.mem (Prod.ext ?_ ?_)
    · rw [htable', ← hcrossing.source.1, htable, hd.table]
    · rw [← hcrossing.source.2, hpk, hd.pk]
  rw [hsame, hcrossed] at hcrossed'
  cases hcrossed'

/-- Nothing is wrong with a movement. -/
theorem Honest.auditMovement (h : Honest db) (hm : m ∈ (loadSnapshot start stop db telemetry).movements) :
    auditMovement (loadSnapshot start stop db telemetry).outbox
      (loadSnapshot start stop db telemetry).checkpoints m = [] := by
  obtain ⟨e, hd, hwindow⟩ := h.described hm
  obtain ⟨sku, client, w, hsku, hc, hclient, -, -⟩ := h.judged hd.mem
  obtain ⟨sku', hsku', hid, hskuClient, -⟩ := hd.sku
  cases hsku.symm.trans hsku'
  have hskuId : e.skuId = m.skuId := (sku_id hsku).symm.trans hid.symm
  have hclients : e.clientId = m.clientId := by rw [hskuClient, hclient, hc]
  have hcontent : ¬((checkpoint e).skuId ≠ m.skuId ∨ (checkpoint e).clientId ≠ m.clientId ∨
      (checkpoint e).warehouse ≠ m.warehouse ∨
      (checkpoint e).afterQuantity ≠ m.expectedAfter (checkpoint e) ∨
      (checkpoint e).crossed ≠ m.crossed (checkpoint e)) := by
    rw [hd.after, hd.crossed h, hd.warehouse]
    simp [checkpoint, hskuId, hclients]
  have hthreshold : auditThreshold (windowOutbox start stop db.outbox) m (checkpoint e) = [] := by
    unfold auditThreshold
    cases hcrossed : e.crossed with
    | true =>
      obtain ⟨row, hrows, hevent, htags⟩ := hd.crossing h hwindow hcrossed
      simp only [hd.crossed h, hcrossed, if_true, hrows]
      have hsame : ¬(checkpoint e).eventId ≠ some row.eventId := not_not.2 hevent
      rw [if_neg hsame, htags, if_pos (PyValue.Eq.refl _)]
    | false =>
      obtain ⟨hrows, hevent⟩ := hd.not_crossing h hcrossed start stop
      simp only [hd.crossed h, hcrossed, Bool.false_eq_true, if_false, hrows]
      rw [if_neg]
      simp [checkpoint, hevent]
  have htime : ¬(checkpoint e).evaluatedAt ≠ m.createdAt := not_not.2 hd.time.symm
  unfold Pipelines.auditMovement
  rw [hd.checkpoints h hwindow]
  dsimp only
  rw [if_neg hcontent, if_neg htime, List.nil_append, List.nil_append]
  exact hthreshold

end Movements

/-! ## Entries, orders and counts -/

section Rows

variable {db : Tables} {start stop : Int} {telemetry : List TelemetryRecord}

theorem exactOutbox_of_row {outbox : List OutboxRow} {key : OutboxKey} {row : OutboxRow} {tags : PyValue}
    (mismatch : String) (hrows : Pipelines.outboxRows outbox key = [row]) (htags : row.tags = tags) :
    exactOutbox outbox key tags mismatch = [] := by
  unfold exactOutbox
  rw [hrows]
  dsimp only
  rw [htags, if_pos (PyValue.Eq.refl _)]

/-- Nothing is wrong with an entry. -/
theorem Honest.auditEntry (h : Honest db) {entry : EntryRow}
    (hentry : entry ∈ (loadSnapshot start stop db telemetry).entries) :
    auditEntry (loadSnapshot start stop db telemetry).outbox entry = [] := by
  obtain ⟨row, hrow, hsnapshot⟩ := List.mem_filterMap.1 hentry
  obtain ⟨hrow, hwindow⟩ := List.mem_filter.1 hrow
  obtain ⟨sku, hsku, rfl⟩ := Option.map_eq_some_iff.1 hsnapshot
  obtain ⟨e, he, hentered⟩ := partner h.inv.kept.entries hrow
  obtain ⟨hmem, -⟩ := List.mem_filter.1 he
  obtain ⟨sku', client, w, hsku', hc, hclient, -, hw⟩ := h.judged hmem
  rw [hentered.sku] at hsku'
  cases hsku.symm.trans hsku'
  obtain ⟨m, hm, hinbound⟩ := partner h.inv.kept.inbound
    (List.mem_filter.2 ⟨he, by rw [hclient]; rfl⟩)
  obtain ⟨known, warehouse, client', hknown, hwarehouse, hclient', hmTags⟩ := hinbound.tags
  rw [hentered.sku] at hknown
  obtain rfl := eq_of_known hsku hknown
  cases hclient.symm.trans hclient'
  have htime : m.occurredAt = row.createdAt := hinbound.time.trans hentered.time
  obtain ⟨found, hrows, -, htags⟩ := h.found hm (htime ▸ of_decide_eq_true hwindow)
  rw [hinbound.source.1, hinbound.source.2, hentered.source] at hrows
  have hquantity : e.afterQuantity - e.beforeQuantity = row.quantity := by
    have hmoved := hentered.moved
    omega
  have hcontent : found.tags = EntryRow.tags ⟨row.id, row.skuId, row.quantity, row.warehouse,
      sku.clientId, sku.category⟩ := by
    rw [htags, hmTags, inboundTags, EntryRow.tags, hquantity, ← hentered.warehouse, hw, audit_warehouse,
      ← hw, hwarehouse, hc, hentered.source]
    simp only [optionText, fixed, sku_id hsku]
  exact exactOutbox_of_row _ hrows hcontent

/-- The warehouse of an order is one of those of its SKUs. -/
theorem Honest.order_warehouse (h : Honest db) {o : CommercialOrder} (ho : o ∈ db.orders) :
    ∃ w, o.warehouse = Warehouse.value w := by
  obtain ⟨e, he, hpk⟩ := h.inv.dispatched o ho
  obtain ⟨-, o', ho', hid, hwarehouse, -⟩ := h.inv.clients e he o.id hpk
  cases List.inj_on_of_nodup_map h.unique.orders ho' ho hid
  obtain ⟨ev, hev, hleft⟩ := partner h.inv.kept.exits he
  obtain ⟨-, -, w, -, -, -, -, hw⟩ := h.judged (List.mem_filter.1 hev).1
  exact ⟨w, hwarehouse.trans (hleft.warehouse.symm.trans hw)⟩

/-- Nothing is wrong with an order. -/
theorem Honest.auditOrder (h : Honest db) {order : OrderRow}
    (horder : order ∈ (loadSnapshot start stop db telemetry).orders) :
    auditOrder (loadSnapshot start stop db telemetry).outbox
      (loadSnapshot start stop db telemetry).dispatches order = [] := by
  obtain ⟨o, ho, rfl⟩ := List.mem_map.1 horder
  obtain ⟨ho, hwindow⟩ := List.mem_filter.1 ho
  have hdispatched : ((loadSnapshot start stop db telemetry).dispatches.filter fun d =>
      d.orderPk = (orderSnapshot o).id) ≠ [] := by
    obtain ⟨e, he, hpk⟩ := h.inv.dispatched o ho
    refine List.ne_nil_of_mem (a := ⟨e.dispatchId, o.id⟩) (List.mem_filter.2 ⟨?_, decide_eq_true rfl⟩)
    exact List.mem_filterMap.2 ⟨e, he, by rw [dispatchSnapshot, hpk]; rfl⟩
  obtain ⟨placed, hplaced, hall⟩ := h.inv.announced
  rw [List.append_nil] at hplaced
  obtain ⟨m, hm, houtbound⟩ := partner hall (hplaced ▸ ho)
  obtain ⟨found, hrows, -, htags⟩ := h.found hm (houtbound.time ▸ of_decide_eq_true hwindow)
  rw [houtbound.source.1, houtbound.source.2] at hrows
  obtain ⟨w, hw⟩ := h.order_warehouse ho
  have hcontent : found.tags = (orderSnapshot o).tags := by
    rw [htags, houtbound.tags, outboundTags, OrderRow.tags, orderSnapshot, hw, audit_warehouse]
    cases w <;> rfl
  unfold Pipelines.auditOrder
  rw [if_neg hdispatched, List.nil_append]
  exact exactOutbox_of_row _ hrows hcontent

/-- Nothing is wrong with a count. -/
theorem Honest.auditCount (h : Honest db) {count : CountRow}
    (hcount : count ∈ (loadSnapshot start stop db telemetry).counts) :
    auditCount (loadSnapshot start stop db telemetry).outbox count = [] := by
  obtain ⟨c, hc, hsnapshot⟩ := List.mem_filterMap.1 hcount
  obtain ⟨hc, hwindow⟩ := List.mem_filter.1 hc
  obtain ⟨sku, hsku, rfl⟩ := Option.map_eq_some_iff.1 hsnapshot
  unfold Pipelines.auditCount CountRow.outboxKey
  rw [show (loadSnapshot start stop db telemetry).outbox = windowOutbox start stop db.outbox from rfl]
  by_cases hsame : c.expectedQuantity = c.observedQuantity
  · -- A message would be one of this count.
    rw [not_found]
    · simp only [hsame, ne_eq, not_true_eq_false, if_false]
    · intro m hm htable hpk
      obtain ⟨c', hc', hdiscrepancy⟩ := partner h.inv.kept.discrepancies.flip hm
      obtain ⟨hc', hdiffers⟩ := List.mem_filter.1 hc'
      have hid : c'.id = c.id := hdiscrepancy.source.2.symm.trans hpk
      cases List.inj_on_of_nodup_map h.unique.counts hc' hc hid
      exact (of_decide_eq_true hdiffers) hsame.symm
  · obtain ⟨m, hm, hdiscrepancy⟩ := partner h.inv.kept.discrepancies
      (List.mem_filter.2 ⟨hc, decide_eq_true (Ne.symm hsame)⟩)
    obtain ⟨found, hrows, -, htags⟩ := h.found hm (hdiscrepancy.time ▸ of_decide_eq_true hwindow)
    rw [hdiscrepancy.source.1, hdiscrepancy.source.2] at hrows
    obtain ⟨known, warehouse, hknown, hwarehouse, hmTags⟩ := hdiscrepancy.tags
    obtain rfl := eq_of_known hsku hknown
    obtain ⟨known', hknown', -, hw⟩ := h.inv.kept.counts c hc
    obtain rfl := eq_of_known hsku hknown'
    obtain ⟨-, w, hproduct⟩ := h.products sku (List.mem_of_find?_eq_some hsku)
    have hcw : c.warehouse = w.value := hw.trans hproduct
    have hcontent : found.tags = CountRow.tags ⟨c.id, c.countId, c.skuId, c.clientId, c.warehouse,
        c.expectedQuantity, c.observedQuantity, sku.category⟩ := by
      rw [htags, hmTags, discrepancyTags, CountRow.tags, hcw, audit_warehouse, ← hcw, hwarehouse]
      simp only [optionText, fixed, sku_id hsku, Int.natCast_natAbs]
    rw [hrows]
    dsimp only
    rw [if_neg hsame, hcontent, if_pos (PyValue.Eq.refl _)]

end Rows

end TrackFlow.Inventory.Books
