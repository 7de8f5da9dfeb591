import TrackFlow.Inventory.Bookkeeping

/-!
# Exits and entries in open transactions

A movement is a row, the message of its threshold or of its client if there is one, and its evaluation.
Together they keep what the transaction has written so far (`Written.exit`, `Written.entry`).
-/

namespace TrackFlow.Inventory.Books

open TrackFlow.Python TrackFlow.ReadCommitted TrackFlow.Balances
open TrackFlow.Pipelines (OutboxRow canonicalTelemetryWarehouse)
open CommandLocks (Lock advisoryKey)

variable {db db' : Tables} {own : List Write} {L M : Set Lock} {pending : List CommercialOrder} {id : Int}

/-! ## Exits -/

section Exits

variable {sku : Sku} {s : Stamp} {before : Int} {row : StockExit} {event : Option OutboxRow}

/-- The evaluation of an exit. -/
def exitEvaluation (sku : Sku) (s : Stamp) (before : Int) (row : StockExit) (event : Option OutboxRow) :
    ThresholdEvaluation where
  sourceTable := "stockexit"
  sourcePk := s.id
  skuId := sku.id
  clientId := sku.clientId
  warehouse := sku.warehouse
  beforeQuantity := before
  afterQuantity := before - row.quantity
  thresholdQuantity := sku.minimumStockThreshold
  crossed := event.isSome
  eventId := event.map OutboxRow.eventId
  evaluatedAt := s.now

/-- The event of a crossing. -/
def crossingEvent (sku : Sku) (s : Stamp) (warehouse clientId : String) (after t : Int) : OutboxRow where
  eventId := s.eventId.val
  occurredAt := s.now
  sourceTable := "stockexit"
  sourcePk := s.id
  eventType := "stock_threshold_triggered"
  tags := thresholdTags sku warehouse clientId s.id after t

/-- What `_threshold_event` makes of an exit. -/
inductive Decided (sku : Sku) (s : Stamp) (before after : Int) : Option OutboxRow → Prop
  | quiet : (∀ t, sku.minimumStockThreshold = some t → ¬(before > t ∧ after ≤ t)) →
      Decided sku s before after none
  | crossed {t : Int} {warehouse clientId : String} : sku.minimumStockThreshold = some t →
      before > t → after ≤ t → canonicalTelemetryWarehouse sku.warehouse = some warehouse →
      sku.clientId = some clientId →
      Decided sku s before after (some (crossingEvent sku s warehouse clientId after t))

/-- What an exit writes. -/
def exitWrites (sku : Sku) (s : Stamp) (before : Int) (row : StockExit) (event : Option OutboxRow) :
    List Write :=
  .exit row :: (event.toList.map .outbox ++ [.evaluation (exitEvaluation sku s before row event)])

/-- An exit of a SKU. -/
structure ExitOf (sku : Sku) (s : Stamp) (row : StockExit) : Prop where
  id : row.id = s.id
  skuId : row.skuId = sku.id
  warehouse : row.warehouse = sku.warehouse
  time : row.createdAt = s.now
  positive : 0 < row.quantity

theorem inserted_exitWrites : inserted (exitWrites sku s before row event) =
    { skus := [], exits := [row], evaluations := [exitEvaluation sku s before row event]
      outbox := event.toList } := by
  cases event <;> simp [inserted, exitWrites, entryRows, exitRows, orderRows, countRows, evaluationRows,
    outboxRows]

/-- The rows of an exit belong together. -/
theorem kept_exit {f : Int → Option Sku} (hexit : ExitOf sku s row) (hsku : f sku.id = some (fixed sku))
    (hdecided : Decided sku s before (before - row.quantity) event) (hbefore : 0 ≤ before)
    (hafter : 0 ≤ before - row.quantity) : Kept f (inserted (exitWrites sku s before row event)) := by
  have hleft : Left row (exitEvaluation sku s before row event) :=
    ⟨hexit.id.symm, hexit.skuId.symm, hexit.warehouse.symm, rfl, hexit.positive, hexit.time.symm⟩
  have hcrosses : event.isSome = true ↔ Crosses (exitEvaluation sku s before row event) := by
    cases hdecided with
    | quiet hno =>
      refine ⟨fun h => absurd h (by simp), ?_⟩
      rintro ⟨-, t, ht, hlt, hle⟩
      exact absurd ⟨hlt, hle⟩ (hno t ht)
    | crossed ht hlt hle => exact ⟨fun _ => ⟨rfl, _, ht, hlt, hle⟩, fun _ => rfl⟩
  have hjudged : Judged f (exitEvaluation sku s before row event) :=
    ⟨⟨fixed sku, hsku, rfl, rfl⟩, Or.inr rfl, hbefore, hafter, hcrosses, Option.isSome_map⟩
  rw [inserted_exitWrites]
  refine ⟨?_, ?_, ?_, ?_, ?_, ?_, by simp, ?_⟩
  · exact .nil
  · exact .cons hleft .nil
  · simpa using hjudged
  · cases hdecided with
    | quiet _ => exact .nil
    | @crossed t warehouse clientId ht hlt hle hwarehouse hclient =>
      refine .cons ⟨rfl, ⟨rfl, rfl⟩, rfl, ?_⟩ .nil
      exact ⟨fixed sku, warehouse, clientId, t, hsku, hwarehouse, hclient, ht, rfl⟩
  · cases hdecided <;> exact .nil
  · cases hdecided <;> exact .nil
  · cases hdecided <;> simp [message, crossingEvent, outboxSourceEventTypes]

theorem history_exit (id : Int) : history (inserted (exitWrites sku s before row event)) id =
    if id = sku.id then [(before, before - row.quantity)] else [] := by
  rw [inserted_exitWrites]
  by_cases hid : sku.id = id
  · simp [history, exitEvaluation, hid]
  · simp [history, exitEvaluation, hid, Ne.symm hid]

theorem stock_exit (hexit : ExitOf sku s row) (id : Int) (warehouse : String) :
    stock (inserted (exitWrites sku s before row event)) id warehouse =
      if id = sku.id ∧ warehouse = sku.warehouse then -row.quantity else 0 := by
  rw [inserted_exitWrites]
  by_cases hboth : sku.id = id ∧ sku.warehouse = warehouse
  · obtain ⟨rfl, rfl⟩ := hboth
    simp [stock, entrySum, exitSum, hexit.skuId, hexit.warehouse]
  · have hno : ¬(id = sku.id ∧ warehouse = sku.warehouse) := fun h => hboth ⟨h.1.symm, h.2.symm⟩
    rw [if_neg hno]
    simp only [stock, entrySum, exitSum, List.filter_nil, List.map_nil, List.sum_nil, List.filter_cons,
      hexit.skuId, hexit.warehouse, hboth, decide_false, Bool.false_eq_true, if_false, sub_self]

/-- What an open transaction needs for an exit: the lock of the SKU and its balance, and that the
dispatch is under its own lock and of the client of its order. -/
structure ExitReady (own : List Write) (sku : Sku) (before : Int) (row : StockExit) (L : Set Lock)
    (db : Tables) : Prop where
  lock : .sku sku.id ∈ L
  found : db.sku sku.id = some sku
  before : stock (schema.applyAll db own) sku.id sku.warehouse = before
  dispatch : ∀ u, row.dispatchId = some u → .advisory (advisoryKey u) ∈ L
  client : OfClient (known db) (db.orders ++ (inserted own).orders) row

/-- An exit and what comes with it. -/
theorem Written.exit (h : Written pending L own db) (hready : ExitReady own sku before row L db)
    (hexit : ExitOf sku s row) (hdecided : Decided sku s before (before - row.quantity) event)
    (hnew : ∀ u, row.dispatchId = some u →
      u ∉ (db.exits ++ (inserted own).exits).filterMap StockExit.dispatchId)
    (hbefore : 0 ≤ before) (hafter : 0 ≤ before - row.quantity) :
    Written pending L (own ++ exitWrites sku s before row event) db := by
  have hmessages :
      messages "outbound_order_created" (inserted (exitWrites sku s before row event)) = [] := by
    rw [inserted_exitWrites]
    cases hdecided <;> rfl
  refine h.more _ (fun w hw => ?_)
    (kept_exit hexit (known_of_sku hready.found) hdecided hbefore hafter)
    (by rw [inserted_exitWrites]) hmessages
    (h.balanced.step _ hready.found hready.before history_exit (fun id => ?_) fun id warehouse hid => ?_)
    ?_ ?_
    fun e he => ?_
  · rcases List.mem_cons.1 hw with rfl | hw
    · rintro l (rfl | ⟨u, hu, rfl⟩)
      · exact hexit.skuId ▸ hready.lock
      · exact hready.dispatch u hu
    · rcases List.mem_append.1 hw with hw | hw
      · obtain ⟨e, -, rfl⟩ := List.mem_map.1 hw
        exact Set.empty_subset _
      · rw [List.mem_singleton.1 hw]
        rintro l rfl
        exact hready.lock
  · rw [stock_exit hexit]
    by_cases hid : id = sku.id
    · rw [if_pos ⟨hid, rfl⟩, if_pos hid]
      omega
    · rw [if_neg fun h => hid h.1, if_neg hid]
  · rw [stock_exit hexit, if_neg fun h => hid h.1]
  · rw [inserted_append, inserted_exitWrites]
    exact h.dispatches.snoc hnew
  · rw [inserted_append, inserted_exitWrites]
    show Fresh countKey ((inserted own).counts ++ []) db.counts
    rw [List.append_nil]
    exact h.counts
  · rw [inserted_exitWrites, List.mem_singleton] at he
    exact he ▸ hready.client

end Exits

/-! ## Entries -/

section Entries

variable {sku : Sku} {s : Stamp} {before : Int} {row : StockEntry} {event : Option OutboxRow}

/-- The message of an entry, if its SKU has a client. -/
inductive Received (sku : Sku) (s : Stamp) (row : StockEntry) : Option OutboxRow → Prop
  | nobody : sku.clientId = none → Received sku s row none
  | client {warehouse clientId : String} : sku.clientId = some clientId →
      canonicalTelemetryWarehouse row.warehouse = some warehouse →
      Received sku s row (some (inboundEvent sku warehouse clientId s row.quantity))

/-- What an entry writes. -/
def entryWrites (sku : Sku) (s : Stamp) (before : Int) (row : StockEntry) (event : Option OutboxRow) :
    List Write :=
  .entry row :: (event.toList.map .outbox ++
    [.evaluation (entryEvaluation sku s before (before + row.quantity))])

/-- An entry of a SKU. -/
structure EntryOf (sku : Sku) (s : Stamp) (row : StockEntry) : Prop where
  id : row.id = s.id
  skuId : row.skuId = sku.id
  warehouse : row.warehouse = sku.warehouse
  time : row.createdAt = s.now
  positive : 0 < row.quantity

theorem inserted_entryWrites : inserted (entryWrites sku s before row event) =
    { skus := [], entries := [row], evaluations := [entryEvaluation sku s before (before + row.quantity)]
      outbox := event.toList } := by
  cases event <;> simp [inserted, entryWrites, entryRows, exitRows, orderRows, countRows, evaluationRows,
    outboxRows]

/-- The rows of an entry belong together. -/
theorem kept_entry {f : Int → Option Sku} (hentry : EntryOf sku s row)
    (hsku : f sku.id = some (fixed sku)) (hreceived : Received sku s row event) (hbefore : 0 ≤ before)
    (hafter : 0 ≤ before + row.quantity) : Kept f (inserted (entryWrites sku s before row event)) := by
  have hentered : Entered row (entryEvaluation sku s before (before + row.quantity)) :=
    ⟨hentry.id.symm, hentry.skuId.symm, hentry.warehouse.symm, rfl, hentry.positive, hentry.time.symm⟩
  have hjudged : Judged f (entryEvaluation sku s before (before + row.quantity)) := by
    refine ⟨⟨fixed sku, hsku, rfl, rfl⟩, Or.inl rfl, hbefore, hafter, ⟨fun h => (by cases h), ?_⟩, rfl⟩
    rintro ⟨hsource, -⟩
    have hexit : "stockentry" = "stockexit" := hsource
    exact absurd hexit (by decide)
  rw [inserted_entryWrites]
  refine ⟨?_, ?_, ?_, ?_, ?_, ?_, by simp, ?_⟩
  · exact .cons hentered .nil
  · exact .nil
  · simpa using hjudged
  · cases hreceived <;> exact .nil
  · cases hreceived with
    | nobody hclient => simp [evaluationsOf, messages, entryEvaluation, hclient]
    | @client warehouse clientId hclient hwarehouse =>
      have hsome : (entryEvaluation sku s before (before + row.quantity)).clientId = some clientId :=
        hclient
      simp only [evaluationsOf, List.filter_cons, List.filter_nil, hsome, Option.isSome_some, if_true,
        show (entryEvaluation sku s before (before + row.quantity)).sourceTable = "stockentry" from rfl,
        decide_true]
      refine .cons ⟨⟨rfl, rfl⟩, rfl, fixed sku, warehouse, clientId, hsku, ?_, hclient, ?_⟩ .nil
      · rw [← hwarehouse, hentry.warehouse]
        rfl
      · show inboundTags sku warehouse clientId s.id row.quantity =
          inboundTags (fixed sku) warehouse clientId s.id (before + row.quantity - before)
        rw [show before + row.quantity - before = row.quantity by omega]
        rfl
  · cases hreceived <;> exact .nil
  · cases hreceived <;> simp [message, inboundEvent, outboxSourceEventTypes]

theorem history_entry (id : Int) : history (inserted (entryWrites sku s before row event)) id =
    if id = sku.id then [(before, before + row.quantity)] else [] := by
  rw [inserted_entryWrites]
  by_cases hid : sku.id = id
  · simp [history, entryEvaluation, hid]
  · simp [history, entryEvaluation, hid, Ne.symm hid]

theorem stock_entry (hentry : EntryOf sku s row) (id : Int) (warehouse : String) :
    stock (inserted (entryWrites sku s before row event)) id warehouse =
      if id = sku.id ∧ warehouse = sku.warehouse then row.quantity else 0 := by
  rw [inserted_entryWrites]
  by_cases hboth : sku.id = id ∧ sku.warehouse = warehouse
  · obtain ⟨rfl, rfl⟩ := hboth
    simp [stock, entrySum, exitSum, hentry.skuId, hentry.warehouse]
  · have hno : ¬(id = sku.id ∧ warehouse = sku.warehouse) := fun h => hboth ⟨h.1.symm, h.2.symm⟩
    rw [if_neg hno]
    simp only [stock, entrySum, exitSum, List.filter_nil, List.map_nil, List.sum_nil, List.filter_cons,
      hentry.skuId, hentry.warehouse, hboth, decide_false, Bool.false_eq_true, if_false, sub_self]

/-- An entry and what comes with it. -/
theorem Written.entry (h : Written [] L [] db) (hlock : .sku sku.id ∈ L) (hsku : db.sku sku.id = some sku)
    (hbalance : stock (schema.applyAll db []) sku.id sku.warehouse = before) (hentry : EntryOf sku s row)
    (hreceived : Received sku s row event) (hbefore : 0 ≤ before) (hafter : 0 ≤ before + row.quantity) :
    Written [] L (entryWrites sku s before row event) db := by
  have hmessages :
      messages "outbound_order_created" (inserted (entryWrites sku s before row event)) = [] := by
    rw [inserted_entryWrites]
    cases hreceived <;> rfl
  refine h.more (entryWrites sku s before row event) (fun w hw => ?_)
    (kept_entry hentry (known_of_sku hsku) hreceived hbefore hafter) (by rw [inserted_entryWrites])
    hmessages
    (h.balanced.step _ hsku hbalance history_entry (fun id => ?_) fun id warehouse hid => ?_) ?_ ?_
    fun e he => ?_
  · rcases List.mem_cons.1 hw with rfl | hw
    · rintro l rfl
      exact hentry.skuId ▸ hlock
    · rcases List.mem_append.1 hw with hw | hw
      · obtain ⟨e, -, rfl⟩ := List.mem_map.1 hw
        exact Set.empty_subset _
      · rw [List.mem_singleton.1 hw]
        rintro l rfl
        exact hlock
  · rw [stock_entry hentry]
    by_cases hid : id = sku.id
    · rw [if_pos ⟨hid, rfl⟩, if_pos hid]
      omega
    · rw [if_neg fun h => hid h.1, if_neg hid]
  · rw [stock_entry hentry, if_neg fun h => hid h.1]
  · rw [List.nil_append, inserted_entryWrites]
    exact Fresh.nil
  · rw [List.nil_append, inserted_entryWrites]
    exact Fresh.nil
  · rw [inserted_entryWrites] at he
    cases he

end Entries

end TrackFlow.Inventory.Books
