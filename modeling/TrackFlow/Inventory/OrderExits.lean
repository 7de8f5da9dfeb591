import TrackFlow.Inventory.Service
import TrackFlow.Balances.Withdrawals
import TrackFlow.Python.Sorting

/-!
# An order command and single exits

`_validate_order_skus` compares the total that an order needs of each SKU with its stock, and
`_add_order_dispatches` keeps a balance of its own; `create_stock_exit` compares one quantity and
asks for the sums again. Both take the same steps (`Balances.Withdrawals`), in a database whose
statements succeed.

- `order_equals_exits`: the order is accepted exactly when its dispatches are as single exits, in
  any order, and it writes what they write in the order of their ids.
-/

namespace TrackFlow.Inventory

open TrackFlow.Python TrackFlow.ReadCommitted TrackFlow.Balances
open TrackFlow.Pipelines (OutboxRow canonicalTelemetryWarehouse)
open CommandLocks (Lock)

/-! ## Runs -/

/-- The tables, when every statement succeeds. -/
def succeeding : Schema Tables Write := ⟨applyWrite, fun _ _ => true⟩

/-- A dispatch as a request of its own. -/
def exitRequest (warehouse : Warehouse) (item : Dispatch) : StockExitCreate where
  skuId := item.skuId
  quantity := item.quantity
  exitType := .dispatch
  trackingNumber := some item.trackingNumber
  warehouse := warehouse

/-- `create_stock_exit` for the dispatches one after another, each in its own transaction. -/
def singleExits (warehouse : Warehouse) (userUuid : String) (stamps : Stamps) :
    Nat → List Dispatch → Tables → Except (Failure ServiceError) Tables
  | _, [], db => .ok db
  | k, item :: rest, db =>
    match eval succeeding (createStockExit (exitRequest warehouse item) userUuid (stamps.stamp k)) db with
    | .ok (_, next) => singleExits warehouse userUuid stamps (k + 1) rest next
    | .error e => .error e

/-- The dispatches as `_add_order_dispatches` takes them. -/
def inDispatchOrder (dispatches : List Dispatch) : List Dispatch :=
  sortedBy (fun a b => textLe a.dispatchId.str b.dispatchId.str) dispatches

/-- The evaluations of a SKU that a run adds: balance before and after, threshold, and whether it is
crossed. -/
def checkpoints (db db' : Tables) (sku : Int) : List (Int × Int × Option Int × Bool) :=
  ((db'.evaluations.drop db.evaluations.length).filter fun e => e.skuId = sku).map fun e =>
    (e.beforeQuantity, e.afterQuantity, e.thresholdQuantity, e.crossed)

/-- The events that a run adds, without their time. -/
def thresholdEvents (db db' : Tables) : List (Uuid × String × Int × String × PyValue) :=
  (db'.outbox.drop db.outbox.length).map fun e => (e.eventId, e.sourceTable, e.sourcePk,
    e.eventType, e.tags)

/-- How often a run crosses the threshold of a SKU. -/
def thresholdCrossings (db db' : Tables) (sku : Int) : Nat :=
  (checkpoints db db' sku).countP fun c => c.2.2.2

/-! ## What an exit writes -/

variable {db db' : Tables} {sku : Sku} {s : Stamp} {row : StockExit} {before left : Int}
  {warehouse : Warehouse}

/-- The threshold is crossed. -/
def Sku.crosses (sku : Sku) (before after : Int) : Bool :=
  sku.minimumStockThreshold.any fun threshold => before > threshold && after ≤ threshold

/-- A SKU whose threshold events can be written. -/
def Sku.Reports (sku : Sku) : Prop :=
  (canonicalTelemetryWarehouse sku.warehouse).isSome = true ∧ ∃ clientId ≠ "", sku.clientId = some clientId

/-- The event of a movement that crosses the threshold. -/
def crossingEvent (sku : Sku) (s : Stamp) (before after : Int) : Option OutboxRow :=
  if sku.crosses before after then
    some
      { eventId := s.eventId.val, occurredAt := s.now, sourceTable := "stockexit", sourcePk := s.id
        eventType := "stock_threshold_triggered"
        tags := thresholdTags sku ((canonicalTelemetryWarehouse sku.warehouse).getD "")
          (sku.clientId.getD "") s.id after (sku.minimumStockThreshold.getD 0) }
  else none

/-- The evaluation of a movement. -/
def evaluationOf (sku : Sku) (s : Stamp) (before after : Int) : ThresholdEvaluation where
  sourceTable := "stockexit"
  sourcePk := s.id
  skuId := sku.id
  clientId := sku.clientId
  warehouse := sku.warehouse
  beforeQuantity := before
  afterQuantity := after
  thresholdQuantity := sku.minimumStockThreshold
  crossed := sku.crosses before after
  eventId := (crossingEvent sku s before after).map OutboxRow.eventId
  evaluatedAt := s.now

/-- The tables after an exit. -/
def afterExit (db : Tables) (sku : Sku) (s : Stamp) (before : Int) (row : StockExit) : Tables :=
  { db with
    exits := db.exits ++ [row]
    evaluations := db.evaluations ++ [evaluationOf sku s before (before - row.quantity)]
    outbox := db.outbox ++ (crossingEvent sku s before (before - row.quantity)).toList }

/-- The tables with an event more, if there is one. -/
def afterEvent (db : Tables) (event : Option OutboxRow) : Tables :=
  { db with outbox := db.outbox ++ event.toList }

theorem thresholdEvent_eval (hreports : sku.Reports) (hid : 0 < s.id) :
    eval succeeding (thresholdEvent sku s before left) db =
    .ok (crossingEvent sku s before left, afterEvent db (crossingEvent sku s before left)) := by
  obtain ⟨hwarehouse, clientId, hne, hclient⟩ := hreports
  obtain ⟨canonical, hcanonical⟩ := Option.isSome_iff_exists.1 hwarehouse
  have hfilter : (some clientId).filter (· ≠ "") = some clientId := by simp [hne]
  have hpositive : ¬s.id ≤ 0 := by omega
  have hnone : afterEvent db none = db := by simp [afterEvent]
  unfold thresholdEvent crossingEvent Sku.crosses
  cases hthreshold : sku.minimumStockThreshold with
  | none =>
    rw [Option.any_none, if_neg Bool.false_ne_true, hnone]
    rfl
  | some threshold =>
    rw [Option.any_some]
    by_cases hcross : before > threshold ∧ left ≤ threshold
    · simp only [hcross, and_self, not_true_eq_false, if_false, decide_true, Bool.and_self, if_true,
          hcanonical, hclient,
        hfilter, Option.getD_some, enqueueInventoryEvent, hpositive]
      rfl
    · have hnot : (decide (before > threshold) && decide (left ≤ threshold)) = false :=
        by simpa using hcross
      simp only [hcross, not_false_eq_true, if_true, hnot, Bool.false_eq_true, if_false, hnone]
      rfl

theorem eval_put {α : Type} (w : Write) (p : Txn α) :
    eval succeeding (.write w p) db = eval succeeding p (applyWrite db w) :=
  eval_write w p db

theorem writeExit_eval (hreports : sku.Reports) (hid : 0 < s.id) :
    eval succeeding (writeExit sku s before row) db =
    .ok (crossingEvent sku s before (before - row.quantity), afterExit db sku s before row) := by
  have hisSome : (crossingEvent sku s before (before - row.quantity)).isSome = sku.crosses before
      (before - row.quantity) := by
    unfold crossingEvent
    split <;> simp_all
  unfold writeExit recordThresholdEvaluation
  have hevent : eval succeeding (thresholdEvent sku s before (before - row.quantity))
      (applyWrite db (.exit row)) = _ :=
    thresholdEvent_eval hreports hid
  rw [Prog.put_bind, eval_put, eval_bind_of_ok hevent, hisSome]
  rfl

/-! ## What is read -/

theorem eval_lockSkus (ids : List Int) :
    eval succeeding (lockSkus ids) db = .ok ((sortedSet (fun a b => a ≤ b) ids).filterMap db.sku, db) := by
  have hrows : ∀ ids : List Int, eval succeeding (lockSkus.lockRows ids) db = .ok ((), db) := by
    intro ids
    induction ids with
    | nil => rfl
    | cons id ids ih => exact ih
  exact eval_bind_of_ok (hrows _)

theorem eval_getCurrentStock (id : Int) (warehouse : String) :
    eval succeeding (getCurrentStock id warehouse) db = .ok (stock db id warehouse, db) := rfl

/-- A SKU that is found has the id that was looked for. -/
theorem sku_id {id : Int} (h : db.sku id = some sku) : sku.id = id := by
  simpa using List.find?_some h

/-- The exit of a request. -/
def requestExit (data : StockExitCreate) (userUuid : String) (s : Stamp) : StockExit where
  id := s.id
  skuId := data.skuId
  quantity := data.quantity
  exitType := data.exitType.value
  trackingNumber := data.trackingNumber
  warehouse := data.warehouse.value
  createdAt := s.now
  userUuid := userUuid

section SingleExit

variable {data : StockExitCreate} {userUuid : String}

theorem eval_lockSku (hsku : db.sku data.skuId = some sku) :
    eval succeeding (lockSkus [data.skuId]) db = .ok ([sku], db) := by
  have hone : sortedSet (fun a b : Int => a ≤ b) [data.skuId] = [data.skuId] := rfl
  rw [eval_lockSkus, hone, List.filterMap_cons, hsku]
  rfl

/-- `create_stock_exit` for a SKU of the warehouse, with enough stock. -/
theorem createStockExit_ok (hsku : db.sku data.skuId = some sku)
    (hwarehouse : sku.warehouse = data.warehouse.value)
    (hreports : sku.Reports) (hid : 0 < s.id)
    (hle : data.quantity ≤ stock db data.skuId data.warehouse.value) :
    ∃ event, eval succeeding (createStockExit data userUuid s) db =
      .ok ((requestExit data userUuid s, event),
        afterExit db sku s (stock db data.skuId data.warehouse.value) (requestExit data userUuid s)) := by
  have hfound : [sku].find? (fun sku => sku.id = data.skuId) = some sku := by simp [sku_id hsku]
  unfold createStockExit
  rw [eval_bind_of_ok (eval_lockSku hsku), hfound]
  dsimp only
  rw [if_neg (not_not.2 hwarehouse.symm), eval_bind_of_ok (eval_getCurrentStock _ _), sku_id hsku,
    if_neg (by omega), eval_bind_of_ok (writeExit_eval hreports hid)]
  exact ⟨_, rfl⟩

/-- `create_stock_exit` for a SKU of the warehouse, without enough stock. -/
theorem createStockExit_refuses (hsku : db.sku data.skuId = some sku)
    (hwarehouse : sku.warehouse = data.warehouse.value)
    (hnot : ¬data.quantity ≤ stock db data.skuId data.warehouse.value) :
    ∃ e, eval succeeding (createStockExit data userUuid s) db = .error e := by
  have hfound : [sku].find? (fun sku => sku.id = data.skuId) = some sku := by simp [sku_id hsku]
  unfold createStockExit
  rw [eval_bind_of_ok (eval_lockSku hsku), hfound]
  dsimp only
  rw [if_neg (not_not.2 hwarehouse.symm), eval_bind_of_ok (eval_getCurrentStock _ _), sku_id hsku,
    if_pos (by omega)]
  exact ⟨_, rfl⟩

end SingleExit

/-! ## A run of exits -/

/-- The SKUs of the dispatches are those of the client and the warehouse. -/
def OfOrder (db : Tables) (clientId warehouse : String) (dispatches : List Dispatch) : Prop :=
  ∀ d ∈ dispatches, ∃ sku, db.sku d.skuId = some sku ∧ sku.clientId = some clientId ∧
    sku.warehouse = warehouse

/-- The dispatches as withdrawals. -/
def withdrawals (dispatches : List Dispatch) : List (Int × Int) :=
  dispatches.map fun d => (d.skuId, d.quantity)

/-- The stock of a warehouse as balances. -/
def balances (db : Tables) (warehouse : String) : Int → Int := fun id => stock db id warehouse

/-- The tables after exits for the dispatches, whose rows and stamps are given. -/
def exitRun (warehouse : String) (rowOf : Nat → Dispatch → StockExit) (stampOf : Nat → Stamp) :
    Nat → List Dispatch → Tables → Tables
  | _, [], db => db
  | k, item :: rest, db =>
    match db.sku item.skuId with
    | none => db
    | some sku =>
      exitRun warehouse rowOf stampOf (k + 1) rest
        (afterExit db sku (stampOf k) (stock db item.skuId warehouse) (rowOf k item))

/-- The row is an exit of the dispatch from the warehouse. -/
def Records (warehouse : String) (item : Dispatch) (row : StockExit) : Prop :=
  row.skuId = item.skuId ∧ row.quantity = item.quantity ∧ row.warehouse = warehouse

variable {clientId wh userUuid : String} {item : Dispatch} {items more : List Dispatch} {stamps : Stamps}
  {rowOf : Nat → Dispatch → StockExit} {stampOf : Nat → Stamp} {k : Nat}

theorem withdrawals_perm {payload : List Dispatch} (h : payload.Perm items) :
    (withdrawals payload).Perm (withdrawals items) :=
  h.map _

theorem OfOrder.tail (h : OfOrder db clientId wh (item :: more)) : OfOrder db clientId wh more :=
  fun d hd => h d (List.mem_cons_of_mem item hd)

theorem OfOrder.afterExit (h : OfOrder db clientId wh items) :
    OfOrder (Inventory.afterExit db sku s before row) clientId wh items := h

/-- The stock after an exit. -/
theorem balances_after (h : Records wh item row) :
    balances (afterExit db sku s before row) wh =
      withdraw (balances db wh) (item.skuId, item.quantity) := by
  funext id
  obtain ⟨hsku, hquantity, hwarehouse⟩ := h
  simp only [balances, withdraw, stock, entrySum, exitSum, afterExit, List.filter_append, List.map_append,
    List.sum_append, List.filter_cons, List.filter_nil, hsku, hwarehouse, and_true]
  by_cases hid : id = item.skuId
  · simp [hid, hquantity]
    omega
  · have hid' : ¬item.skuId = id := fun h => hid h.symm
    simp [hid, hid']

theorem reports (hsku : sku.clientId = some clientId) (hwarehouse : sku.warehouse = warehouse.value)
    (hclient : clientId ≠ "") : sku.Reports := by
  refine ⟨?_, clientId, hclient, hsku⟩
  rw [hwarehouse]
  cases warehouse <;> rfl

/-- Single exits succeed exactly when each finds its quantity. -/
theorem singleExits_eval (hclient : clientId ≠ "") : ∀ {items : List Dispatch} {k : Nat} {db : Tables},
    OfOrder db clientId warehouse.value items →
      (Covered (balances db warehouse.value) (withdrawals items) →
        singleExits warehouse userUuid stamps k items db =
        .ok (exitRun warehouse.value (fun k item => requestExit (exitRequest warehouse item) userUuid
        (stamps.stamp k)) stamps.stamp k items db)) ∧
      (¬Covered (balances db warehouse.value) (withdrawals items) → ∃ e,
        singleExits warehouse userUuid stamps k items db = .error e)
  | [], _, _, _ => ⟨fun _ => rfl, fun h => absurd trivial h⟩
  | item :: rest, k, db, hskus => by
    obtain ⟨sku, hsku, hc, hw⟩ := hskus item List.mem_cons_self
    have hrecords :
        Records warehouse.value item (requestExit (exitRequest warehouse item) userUuid (stamps.stamp k)) :=
      ⟨rfl, rfl, rfl⟩
    rw [singleExits, exitRun, hsku, withdrawals, List.map_cons, Covered]
    by_cases hle : item.quantity ≤ stock db item.skuId warehouse.value
    · obtain ⟨event, hcreate⟩ :
          ∃ event, eval succeeding (createStockExit (exitRequest warehouse item) userUuid
          (stamps.stamp k)) db = .ok ((_, event), _) :=
        createStockExit_ok hsku hw (reports hc hw hclient) (stamps.positive k) hle
      have hcovered : item.quantity ≤ balances db warehouse.value item.skuId := hle
      rw [hcreate, and_iff_right hcovered]
      have hbalances : balances (afterExit db sku (stamps.stamp k) (stock db item.skuId warehouse.value) _)
          warehouse.value = _ := balances_after hrecords
      have hnext : OfOrder (afterExit db sku (stamps.stamp k) (stock db item.skuId warehouse.value)
        (requestExit (exitRequest warehouse item) userUuid (stamps.stamp k))) clientId
          warehouse.value rest := hskus.tail
      have ih := singleExits_eval hclient (k := k + 1) hnext
      rw [hbalances] at ih
      exact ih
    · obtain ⟨e, hrefused⟩ : ∃ e, eval succeeding (createStockExit (exitRequest warehouse item) userUuid
          (stamps.stamp k)) db = .error e := createStockExit_refuses hsku hw hle
      rw [hrefused]
      exact ⟨fun h => absurd h.1 hle, fun _ => ⟨e, rfl⟩⟩

/-! ## The order -/

/-- The last loop of `_validate_order_skus` compares each pair. -/
theorem checkRequired_eval : ∀ pairs : List (Int × Int),
    ((∀ p ∈ pairs, p.2 ≤ stock db p.1 wh) → eval succeeding (checkRequired wh pairs) db = .ok ((), db)) ∧
    (¬(∀ p ∈ pairs, p.2 ≤ stock db p.1 wh) → ∃ e, eval succeeding (checkRequired wh pairs) db = .error e)
  | [] => ⟨fun _ => rfl, fun h => absurd (fun _ hp => nomatch hp) h⟩
  | (id, quantity) :: pairs => by
    have ih := checkRequired_eval pairs
    rw [checkRequired, eval_bind_of_ok (eval_getCurrentStock id wh), List.forall_mem_cons]
    by_cases hle : quantity ≤ stock db id wh
    · rw [if_neg (by omega), and_iff_right hle]
      exact ih
    · rw [if_pos (by omega)]
      exact ⟨fun h => absurd h.1 hle, fun _ => ⟨_, rfl⟩⟩

/-- What is required of the SKUs: the total of each. -/
theorem requiredQuantities_iff : (∀ p ∈ requiredQuantities items, p.2 ≤ stock db p.1 wh) ↔
    ∀ w ∈ withdrawals items, total w.1 (withdrawals items) ≤ balances db wh w.1 := by
  have htotal : ∀ id, total id (withdrawals items) =
      ((items.filter fun d => d.skuId = id).map Dispatch.quantity).sum := by
    intro id
    rw [total, withdrawals, List.filter_map, List.map_map]
    rfl
  unfold requiredQuantities
  constructor
  · intro h w hw
    obtain ⟨d, hd, rfl⟩ := List.mem_map.1 hw
    obtain ⟨first, hfirst, hid⟩ := exists_mem_firstBy (f := Dispatch.skuId) hd
    have hp := h _ (List.mem_map_of_mem hfirst)
    dsimp only at hp ⊢
    rw [hid] at hp
    rw [htotal]
    exact hp
  · intro h p hp
    obtain ⟨d, hd, rfl⟩ := List.mem_map.1 hp
    have hw := h (d.skuId, d.quantity) (List.mem_map_of_mem (mem_firstBy hd))
    rw [htotal] at hw
    exact hw

/-- The SKUs that an order locks. -/
def orderSkus (db : Tables) (items : List Dispatch) : List Sku :=
  (sortedSet (fun a b => a ≤ b) (items.map Dispatch.skuId)).filterMap db.sku

theorem mem_orderSkus (hd : item ∈ items) (hsku : db.sku item.skuId = some sku) :
    sku ∈ orderSkus db items :=
  List.mem_filterMap.2 ⟨item.skuId, mem_sortedSet.2 (List.mem_map_of_mem hd), hsku⟩

theorem of_mem_orderSkus (h : sku ∈ orderSkus db items) : ∃ d ∈ items, db.sku d.skuId = some sku := by
  obtain ⟨id, hid, hsku⟩ := List.mem_filterMap.1 h
  obtain ⟨d, hd, rfl⟩ := List.mem_map.1 (mem_sortedSet.1 hid)
  exact ⟨d, hd, hsku⟩

/-- `_validate_order_skus` for SKUs of the order compares the totals. -/
theorem validateOrderSkus_eval (hskus : OfOrder db clientId wh items) :
    ((∀ w ∈ withdrawals items, total w.1 (withdrawals items) ≤ balances db wh w.1) →
      eval succeeding (validateOrderSkus items clientId wh) db = .ok (orderSkus db items, db)) ∧
    (¬(∀ w ∈ withdrawals items, total w.1 (withdrawals items) ≤ balances db wh w.1) →
      ∃ e, eval succeeding (validateOrderSkus items clientId wh) db = .error e) := by
  have hlocked : eval succeeding (lockSkus (items.map Dispatch.skuId)) db = .ok (orderSkus db items,
      db) := eval_lockSkus _
  have hmissing : (sortedSet (fun a b : Int => a ≤ b) (items.map Dispatch.skuId)).filter (fun id =>
      id ∉ (orderSkus db items).map Sku.id) = [] := by
    refine List.filter_eq_nil_iff.2 fun id hid => ?_
    obtain ⟨d, hd, rfl⟩ := List.mem_map.1 (mem_sortedSet.1 hid)
    obtain ⟨sku, hsku, -⟩ := hskus d hd
    have hin : d.skuId ∈ (orderSkus db items).map Sku.id :=
      List.mem_map.2 ⟨sku, mem_orderSkus hd hsku, sku_id hsku⟩
    simpa using hin
  have hall : (orderSkus db items).any (fun sku => sku.clientId ≠ some clientId ∨
      sku.warehouse ≠ wh) = false := by
    refine List.any_eq_false.2 fun sku hsku => ?_
    obtain ⟨d, hd, hfound⟩ := of_mem_orderSkus hsku
    obtain ⟨sku', hfound', hclient, hwarehouse⟩ := hskus d hd
    obtain rfl := Option.some.inj (hfound.symm.trans hfound')
    simp [hclient, hwarehouse]
  have hcheck : ((∀ p ∈ requiredQuantities items, p.2 ≤ stock db p.1 wh) → _) ∧ _ := checkRequired_eval _
  rw [requiredQuantities_iff] at hcheck
  unfold validateOrderSkus
  rw [eval_bind_of_ok hlocked]
  dsimp only
  rw [hmissing, hall, if_neg (by simp), if_neg Bool.false_ne_true]
  constructor
  · exact fun h => eval_bind_of_ok (hcheck.1 h)
  · intro h
    obtain ⟨e, he⟩ := hcheck.2 h
    exact ⟨e, eval_bind_of_error he⟩

/-! ## The exits of the order -/

/-- What `running` holds. -/
def Balanced (db : Tables) (wh : String) (skus : List Sku) (running : List (Int × Int)) : Prop :=
  ∀ sku ∈ skus, running.find? (fun entry => entry.1 = sku.id) = some (sku.id, stock db sku.id wh)

theorem runningStock_eval : ∀ skus :
    List Sku, ∃ running, eval succeeding (runningStock wh skus) db = .ok (running, db) ∧
    Balanced db wh skus running
  | [] => ⟨[], rfl, fun _ h => nomatch h⟩
  | sku :: skus => by
    obtain ⟨running, hrun, hbalanced⟩ := runningStock_eval skus
    refine ⟨(sku.id, stock db sku.id wh) :: running, ?_, ?_⟩
    · rw [runningStock, eval_bind_of_ok (eval_getCurrentStock _ _), eval_bind_of_ok hrun]
      rfl
    · intro sku' h'
      rw [List.find?_cons]
      by_cases hid : sku.id = sku'.id
      · simp [hid]
      · rcases List.mem_cons.1 h' with rfl | h'
        · exact absurd rfl hid
        · simp [hid, hbalanced sku' h']

theorem find_setBalance (id value id' : Int) : ∀ running : List (Int × Int),
    (setBalance running id value).find? (fun entry => entry.1 = id') =
      (running.find? fun entry => entry.1 = id').map fun entry => if id' = id then (id, value) else entry
  | [] => rfl
  | entry :: running => by
    have ih := find_setBalance id value id' running
    unfold setBalance at ih ⊢
    rw [List.map_cons, List.find?_cons, List.find?_cons, ih]
    by_cases hentry : entry.1 = id
    · rw [if_pos hentry]
      by_cases hid : id = id'
      · simp [hid, hentry]
      · simp [hid, hentry]
    · rw [if_neg hentry]
      by_cases hid : entry.1 = id'
      · have hne : ¬id' = id := fun h => hentry (hid.trans h)
        simp [hid, hne]
      · simp [hid]

/-- The balances after a dispatch are the stock after its exit. -/
theorem balanced_after {skus : List Sku} {running : List (Int × Int)} (h : Balanced db wh skus running)
    (hrecords : Records wh item row) : Balanced (afterExit db sku s before row) wh skus
      (setBalance running item.skuId (stock db item.skuId wh - item.quantity)) := by
  intro sku' h'
  have hstock : stock (afterExit db sku s before row) sku'.id wh = _ :=
    congrFun (balances_after hrecords) sku'.id
  rw [find_setBalance, h sku' h', hstock, Option.map_some, withdraw]
  by_cases hid : sku'.id = item.skuId
  · rw [if_pos hid, if_pos hid, hid]
    rfl
  · rw [if_neg hid, if_neg hid]
    rfl

/-- The rows and stamps of an order. -/
def orderExit (order : CommercialOrder) (userUuid : String) (occurredAt : Int) (stamps : Stamps) (k : Nat)
    (item : Dispatch) : StockExit :=
  dispatchExit order userUuid occurredAt (stamps.stamp k).id item

def orderStamp (occurredAt : Int) (stamps : Stamps) (k : Nat) : Stamp :=
  { stamps.stamp k with now := occurredAt }

/-- The loop of `_add_order_dispatches` writes the exits of the dispatches. -/
theorem addDispatches_eval (order : CommercialOrder) {skus : List Sku} (occurredAt : Int)
    (hclient : clientId ≠ "")
    (hwarehouse : order.warehouse = warehouse.value) : ∀ {items : List Dispatch} {k : Nat} {db : Tables}
    {running : List (Int × Int)}, OfOrder db clientId warehouse.value items →
      (∀ d ∈ items, ∀ sku, db.sku d.skuId = some sku → skus.find? (fun sku => sku.id = d.skuId) =
          some sku) →
        Balanced db warehouse.value skus running → ∃ created events,
          let final := exitRun warehouse.value (orderExit order userUuid occurredAt stamps)
            (orderStamp occurredAt stamps) k items db
          eval succeeding (addDispatches order skus userUuid occurredAt stamps k running items) db =
            .ok ((created, events), final) ∧ final.exits = db.exits ++ created ∧
            final.outbox = db.outbox ++ events
  | [], _, _, _, _, _, _ => ⟨[], [], rfl, (List.append_nil _).symm, (List.append_nil _).symm⟩
  | item :: rest, k, db, running, hskus, hfound, hbalanced => by
    obtain ⟨sku, hsku, hc, hw⟩ := hskus item List.mem_cons_self
    have hlookup := hfound item List.mem_cons_self sku hsku
    have hbalance : running.find? (fun entry => entry.1 = item.skuId) =
        some (item.skuId, stock db item.skuId warehouse.value) := by
      have h := hbalanced sku (List.mem_of_find?_eq_some hlookup)
      rwa [sku_id hsku] at h
    have hrecords : Records warehouse.value item (orderExit order userUuid occurredAt stamps k
        item) := ⟨rfl, rfl, hwarehouse⟩
    have hwrite : eval succeeding (writeExit sku (orderStamp occurredAt stamps k)
        (stock db item.skuId warehouse.value)
        (orderExit order userUuid occurredAt stamps k item)) db = .ok (_, _) :=
      writeExit_eval (reports hc hw hclient) (stamps.positive k)
    have hnext : OfOrder (afterExit db sku (orderStamp occurredAt stamps k)
        (stock db item.skuId warehouse.value) (orderExit order userUuid occurredAt stamps k item))
      clientId warehouse.value rest := hskus.tail
    obtain ⟨created, events, hrun, hexits, houtbox⟩ :=
      addDispatches_eval order occurredAt hclient hwarehouse (k := k + 1) hnext
      (fun d hd => hfound d (List.mem_cons_of_mem item hd)) (balanced_after hbalanced hrecords)
    refine ⟨orderExit order userUuid occurredAt stamps k item :: created,
      (crossingEvent sku (orderStamp occurredAt stamps k) (stock db item.skuId warehouse.value)
        (stock db item.skuId warehouse.value - item.quantity)).toList ++ events, ?_, ?_, ?_⟩
    · rw [addDispatches, hbalance, hlookup, exitRun, hsku]
      exact (eval_bind_of_ok hwrite).trans (eval_bind_of_ok hrun)
    · rw [exitRun, hsku]
      exact hexits.trans (List.append_assoc _ _ _)
    · rw [exitRun, hsku]
      exact houtbox.trans (List.append_assoc _ _ _)

/-! ## Two runs -/

/-- An evaluation without its time. -/
def ThresholdEvaluation.untimed (e : ThresholdEvaluation) : ThresholdEvaluation :=
  { e with evaluatedAt := 0 }

/-- An event without its time. -/
def eventContent (e : OutboxRow) : Uuid × String × Int × String × PyValue :=
  (e.eventId, e.sourceTable, e.sourcePk, e.eventType, e.tags)

/-- The same tables but for times, and for the rows of the exits: these have the same sums. -/
structure Alike (db₁ db₂ : Tables) : Prop where
  skus : db₁.skus = db₂.skus
  stock : ∀ id wh, stock db₁ id wh = stock db₂ id wh
  evaluations : db₁.evaluations.map ThresholdEvaluation.untimed = db₂.evaluations.map
    ThresholdEvaluation.untimed
  outbox : db₁.outbox.map eventContent = db₂.outbox.map eventContent

theorem Alike.refl (db : Tables) : Alike db db := ⟨rfl, fun _ _ => rfl, rfl, rfl⟩

theorem stock_afterExit (id : Int) (wh : String) : stock (afterExit db sku s before row) id wh =
    stock db id wh - if row.skuId = id ∧ row.warehouse = wh then row.quantity else 0 := by
  simp only [stock, entrySum, exitSum, afterExit, List.filter_append, List.map_append, List.sum_append,
    List.filter_cons, List.filter_nil]
  by_cases h : row.skuId = id ∧ row.warehouse = wh
  · simp [h]
    omega
  · simp [h]

/-- The same exit, but for its time. -/
theorem Alike.exit {db₁ db₂ : Tables} {s₁ s₂ : Stamp} {row₁ row₂ : StockExit} (h : Alike db₁ db₂)
    (hid : s₁.id = s₂.id)
    (hevent : s₁.eventId = s₂.eventId) (h₁ : Records wh item row₁) (h₂ : Records wh item row₂) :
    Alike (afterExit db₁ sku s₁ before row₁) (afterExit db₂ sku s₂ before row₂) := by
  obtain ⟨hsku₁, hquantity₁, hwarehouse₁⟩ := h₁
  obtain ⟨hsku₂, hquantity₂, hwarehouse₂⟩ := h₂
  have hcrossing : ∀ after, (crossingEvent sku s₁ before after).map eventContent =
      (crossingEvent sku s₂ before after).map eventContent := by
    intro after
    unfold crossingEvent
    split
    · simp [eventContent, hid, hevent]
    · rfl
  have hids : ∀ after, (crossingEvent sku s₁ before after).map OutboxRow.eventId =
      (crossingEvent sku s₂ before after).map OutboxRow.eventId := by
    intro after
    unfold crossingEvent
    split
    · simp [hevent]
    · rfl
  refine ⟨h.skus, fun id wh => ?_, ?_, ?_⟩
  · rw [stock_afterExit, stock_afterExit, h.stock, hsku₁, hsku₂, hquantity₁, hquantity₂,
        hwarehouse₁, hwarehouse₂]
  · simp only [afterExit, List.map_append, h.evaluations, List.map_cons, List.map_nil, evaluationOf,
      ThresholdEvaluation.untimed, hid, hquantity₁, hquantity₂, hids]
  · simp only [afterExit, List.map_append, h.outbox, hquantity₁, hquantity₂, ← Option.toList_map, hcrossing]

/-- Two runs over the same dispatches with the same ids. -/
theorem exitRun_alike {rowOf' : Nat → Dispatch → StockExit} {stampOf' : Nat → Stamp}
    (hrow : ∀ k item, Records wh item (rowOf k item)) (hrow' : ∀ k item, Records wh item (rowOf' k item))
    (hid : ∀ k, (stampOf k).id = (stampOf' k).id)
    (hevent : ∀ k, (stampOf k).eventId = (stampOf' k).eventId) :
    ∀ {items : List Dispatch} {k : Nat} {db₁ db₂ : Tables}, Alike db₁ db₂ →
      Alike (exitRun wh rowOf stampOf k items db₁) (exitRun wh rowOf' stampOf' k items db₂)
  | [], _, _, _, h => h
  | item :: rest, k, db₁, db₂, h => by
    have hsku : db₁.sku item.skuId = db₂.sku item.skuId := by rw [Tables.sku, Tables.sku, h.skus]
    rw [exitRun, exitRun, hsku, h.stock]
    cases db₂.sku item.skuId with
    | none => exact h
    | some sku => exact exitRun_alike hrow hrow' hid hevent (h.exit (hid k) (hevent k) (hrow k item) (hrow' k item))

/-! ## Crossings -/

/-- An evaluation of the threshold that the SKU has. -/
def Judged (db : Tables) (e : ThresholdEvaluation) : Prop :=
  ∃ sku, db.sku e.skuId = some sku ∧ e.thresholdQuantity = sku.minimumStockThreshold ∧
    e.crossed = sku.crosses e.beforeQuantity e.afterQuantity

/-- The evaluations of a run follow the steps of the balances. -/
theorem exitRun_evaluations (hrow : ∀ k item, Records wh item (rowOf k item)) :
    ∀ {items : List Dispatch} {k : Nat}
    {db : Tables}, OfOrder db clientId wh items → ∃ added,
      (exitRun wh rowOf stampOf k items db).evaluations = db.evaluations ++ added ∧
      added.map (fun e => (e.skuId, e.beforeQuantity, e.afterQuantity)) = steps (balances db wh)
      (withdrawals items) ∧ ∀ e ∈ added, Judged db e
  | [], _, _, _ => ⟨[], (List.append_nil _).symm, rfl, fun _ h => nomatch h⟩
  | item :: rest, k, db, hskus => by
    obtain ⟨sku, hsku, -, -⟩ := hskus item List.mem_cons_self
    have hnext : OfOrder (afterExit db sku (stampOf k) (stock db item.skuId wh) (rowOf k item))
        clientId wh rest := hskus.tail
    obtain ⟨added, hadded, hsteps, hjudged⟩ := exitRun_evaluations hrow (k := k + 1) hnext
    rw [balances_after (hrow k item)] at hsteps
    refine ⟨evaluationOf sku (stampOf k) (stock db item.skuId wh) (stock db item.skuId wh -
      (rowOf k item).quantity) :: added, ?_, ?_, ?_⟩
    · rw [exitRun, hsku]
      exact hadded.trans (List.append_assoc _ _ _)
    · rw [List.map_cons, hsteps]
      simp only [evaluationOf, sku_id hsku, (hrow k item).2.1]
      rfl
    · intro e he
      rcases List.mem_cons.1 he with rfl | he
      · exact ⟨sku, by rw [evaluationOf, sku_id hsku]; exact hsku, rfl, rfl⟩
      · exact hjudged e he

/-- How often a run crosses the threshold of a SKU: only the totals matter. -/
theorem thresholdCrossings_eq (hrow : ∀ k item, Records wh item (rowOf k item))
    (hskus : OfOrder db clientId wh items)
    (hpos : ∀ d ∈ items, 0 < d.quantity) (id : Int) :
    thresholdCrossings db (exitRun wh rowOf stampOf k items db) id =
      match (db.sku id).bind Sku.minimumStockThreshold with
      | none => 0
      | some threshold =>
        if threshold < stock db id wh ∧ stock db id wh - total id (withdrawals items) ≤
          threshold then 1 else 0 := by
  have hwithdrawals : ∀ w ∈ withdrawals items, 0 < w.2 := by
    intro w hw
    obtain ⟨d, hd, rfl⟩ := List.mem_map.1 hw
    exact hpos d hd
  obtain ⟨added, hadded, hsteps, hjudged⟩ : ∃ added, (exitRun wh rowOf stampOf k items db).evaluations =
      db.evaluations ++ added ∧ _ ∧ _ := exitRun_evaluations hrow hskus
  have hcount : thresholdCrossings db (exitRun wh rowOf stampOf k items db) id =
      added.countP fun e => e.crossed && decide (e.skuId = id) := by
    rw [thresholdCrossings, checkpoints, hadded, List.drop_left, List.countP_map, List.countP_filter]
    rfl
  rw [hcount]
  cases hsku : (db.sku id).bind Sku.minimumStockThreshold with
  | none =>
    refine List.countP_eq_zero.2 fun e he => ?_
    obtain ⟨sku, hfound, -, hcrossed⟩ := hjudged e he
    rw [Bool.and_eq_true, decide_eq_true_eq, hcrossed]
    rintro ⟨hcross, rfl⟩
    rw [hfound, Option.bind_some] at hsku
    rw [Sku.crosses, hsku] at hcross
    cases hcross
  | some threshold =>
    have hcrossings : added.countP (fun e => e.crossed && decide (e.skuId = id)) =
        crossings threshold id (added.map fun e => (e.skuId, e.beforeQuantity, e.afterQuantity)) := by
      rw [crossings, List.countP_map]
      refine List.countP_congr fun e he => ?_
      obtain ⟨sku, hfound, -, hcrossed⟩ := hjudged e he
      simp only [hcrossed, Bool.and_eq_true, decide_eq_true_eq, Function.comp_apply,
        and_comm (b := e.skuId = id)]
      refine and_congr_right fun hid => ?_
      rw [← hid, hfound, Option.bind_some] at hsku
      simp [Sku.crosses, hsku]
    rw [hcrossings, hsteps, crossings_eq threshold id hwithdrawals]
    rfl

/-! ## The order and the exits -/

theorem checkpoints_eq (h : db.evaluations.map ThresholdEvaluation.untimed = db'.evaluations.map
    ThresholdEvaluation.untimed)
    (start : Tables) (id : Int) : checkpoints start db id = checkpoints start db' id := by
  have huntimed : ∀ tables : Tables, checkpoints start tables id =
      (((tables.evaluations.map ThresholdEvaluation.untimed).drop start.evaluations.length).filter
        fun e => e.skuId = id).map fun e => (e.beforeQuantity, e.afterQuantity, e.thresholdQuantity,
        e.crossed) := by
    intro tables
    rw [← List.map_drop, List.filter_map, List.map_map]
    rfl
  rw [huntimed, huntimed, h]

/-- The dispatches of a payload in another order. -/
theorem inDispatchOrder_perm {payload : List Dispatch} (h : payload.Perm items)
    (hids : (items.map Dispatch.dispatchId).Nodup) : inDispatchOrder payload = inDispatchOrder items := by
  refine linear_textLe.sortedBy_key_congr (f := fun d : Dispatch => d.dispatchId.str)
    (fun a ha b hb hab => ?_) h
  exact List.inj_on_of_nodup_map hids (h.mem_iff.1 ha) (h.mem_iff.1 hb) (Uuid.str_injective hab)

/-- `_add_order_dispatches` after `_validate_order_skus`. -/
theorem addOrderDispatches_eval (order : CommercialOrder) (userUuid : String) (occurredAt : Int)
    (stamps : Stamps)
    (hclient : order.clientId ≠ "") (hwarehouse : order.warehouse = warehouse.value)
    (hskus : OfOrder db order.clientId order.warehouse items) : ∃ created events,
      let final := exitRun order.warehouse (orderExit order userUuid occurredAt stamps)
        (orderStamp occurredAt stamps) 0 (inDispatchOrder items) db
      eval succeeding (addOrderDispatches order (orderSkus db items) userUuid occurredAt stamps items) db =
        .ok ((created, events), final) ∧ final.outbox = db.outbox ++ events := by
  obtain ⟨running, hrunning, hbalanced⟩ :
      ∃ running, eval succeeding (runningStock order.warehouse (orderSkus db items)) db =
      .ok (running, db) ∧ Balanced db order.warehouse (orderSkus db items) running := runningStock_eval _
  have hperm : (inDispatchOrder items).Perm items := perm_sortedBy _ _
  have hsorted : OfOrder db order.clientId warehouse.value (inDispatchOrder items) := fun d hd =>
    hwarehouse ▸ hskus d (hperm.mem_iff.1 hd)
  have hfound : ∀ d ∈ inDispatchOrder items, ∀ sku, db.sku d.skuId = some sku →
      (orderSkus db items).find? (fun sku => sku.id = d.skuId) = some sku := by
    intro d hd sku hsku
    cases hf : (orderSkus db items).find? fun sku => sku.id = d.skuId with
    | none =>
      have hne := List.find?_eq_none.1 hf sku (mem_orderSkus (hperm.mem_iff.1 hd) hsku)
      exact absurd (sku_id hsku) (by simpa using hne)
    | some found =>
      obtain ⟨d', -, hfound⟩ := of_mem_orderSkus (List.mem_of_find?_eq_some hf)
      have hid : found.id = d.skuId := by simpa using List.find?_some hf
      rw [← hid, sku_id hfound, hfound] at hsku
      exact hsku
  rw [hwarehouse] at hrunning hbalanced ⊢
  obtain ⟨created, events, hrun, -, houtbox⟩ :=
    addDispatches_eval order occurredAt hclient hwarehouse (k := 0) hsorted
    hfound hbalanced
  refine ⟨created, events, ?_, houtbox⟩
  rw [addOrderDispatches, hwarehouse]
  exact (eval_bind_of_ok hrunning).trans hrun

/-- **An order equals its single exits**: for dispatches with distinct ids and positive quantities
of SKUs of the order, the order is accepted exactly when the single exits are, in any order; it then
writes the checkpoints, the events and the stock of the single exits in the order of the dispatch
ids; a threshold is crossed at most once, as often in every order. -/
theorem order_equals_exits (db : Tables) (order : CommercialOrder) (warehouse : Warehouse)
    (userUuid : String)
    (dispatches : List Dispatch) (hwarehouse : order.warehouse = warehouse.value)
    (hclient : order.clientId ≠ "")
    (hids : (dispatches.map Dispatch.dispatchId).Nodup) (hpos : ∀ d ∈ dispatches, 0 < d.quantity)
    (hskus : OfOrder db order.clientId order.warehouse dispatches) :
    (∀ payload, payload.Perm dispatches → ∀ stamps,
      (∃ skus, eval succeeding (validateOrderSkus dispatches order.clientId order.warehouse) db =
        .ok (skus, db)) ↔ ∃ byExits, singleExits warehouse userUuid stamps 0 payload db = .ok byExits) ∧
    ∀ skus, eval succeeding (validateOrderSkus dispatches order.clientId order.warehouse) db =
      .ok (skus, db) → ∀ stamps occurredAt, ∃ created events byOrder byExits,
      eval succeeding (addOrderDispatches order skus userUuid occurredAt stamps dispatches) db =
      .ok ((created, events), byOrder) ∧ singleExits warehouse userUuid stamps 0
      (inDispatchOrder dispatches) db = .ok byExits ∧
      (∀ sku, checkpoints db byOrder sku = checkpoints db byExits sku) ∧
      (thresholdEvents db byOrder = thresholdEvents db byExits ∧ events.map eventContent =
        thresholdEvents db byOrder) ∧ (∀ sku wh, stock byOrder sku wh = stock byExits sku wh) ∧
      (∀ sku, thresholdCrossings db byOrder sku ≤ 1) ∧ ∀ payload, payload.Perm dispatches →
      eval succeeding (addOrderDispatches order skus userUuid occurredAt stamps payload) db =
      .ok ((created, events), byOrder) ∧ ∀ stamps' byOther,
      singleExits warehouse userUuid stamps' 0 payload db = .ok byOther → ∀ sku,
      thresholdCrossings db byOther sku = thresholdCrossings db byOrder sku := by
  have hwithdrawals : ∀ {payload : List Dispatch}, payload.Perm dispatches →
      ∀ w ∈ withdrawals payload, 0 < w.2 := by
    intro payload hp w hw
    obtain ⟨d, hd, rfl⟩ := List.mem_map.1 hw
    exact hpos d (hp.mem_iff.1 hd)
  have hpayload : ∀ {payload : List Dispatch}, payload.Perm dispatches →
      OfOrder db order.clientId warehouse.value payload :=
        fun hp d hd => hwarehouse ▸ hskus d (hp.mem_iff.1 hd)
  have hvalidate := validateOrderSkus_eval hskus
  have hcovered : (∀ w ∈ withdrawals dispatches, total w.1 (withdrawals dispatches) ≤
      balances db order.warehouse w.1) ↔
      Covered (balances db order.warehouse) (withdrawals dispatches) :=
        (covered_iff (hwithdrawals .rfl)).symm
  rw [hcovered] at hvalidate
  have hexits : ∀ {payload : List Dispatch}, payload.Perm dispatches → ∀ stamps,
      ((Covered (balances db order.warehouse) (withdrawals dispatches) →
        singleExits warehouse userUuid stamps 0 payload db = .ok (exitRun warehouse.value
          (fun k item => requestExit (exitRequest warehouse item) userUuid (stamps.stamp k))
            stamps.stamp 0 payload db)) ∧
      (¬Covered (balances db order.warehouse) (withdrawals dispatches) →
        ∃ e, singleExits warehouse userUuid stamps 0 payload db = .error e)) := by
    intro payload hp stamps
    have hperm : Covered (balances db warehouse.value) (withdrawals payload) ↔ _ :=
      covered_perm (withdrawals_perm hp) (hwithdrawals hp)
    rw [hwarehouse, ← hperm]
    exact singleExits_eval hclient (hpayload hp)
  refine ⟨fun payload hp stamps => ?_, fun skus hskus' stamps occurredAt => ?_⟩
  · obtain ⟨hok, herror⟩ := hexits hp stamps
    by_cases hc : Covered (balances db order.warehouse) (withdrawals dispatches)
    · exact iff_of_true ⟨_, hvalidate.1 hc⟩ ⟨_, hok hc⟩
    · obtain ⟨e, he⟩ := hvalidate.2 hc
      obtain ⟨e', he'⟩ := herror hc
      exact iff_of_false (fun ⟨_, h⟩ => by cases he.symm.trans h) fun ⟨_, h⟩ => by cases he'.symm.trans h
  · have hc : Covered (balances db order.warehouse) (withdrawals dispatches) := by
      by_contra hc
      obtain ⟨e, he⟩ := hvalidate.2 hc
      cases he.symm.trans hskus'
    have heq := (hvalidate.1 hc).symm.trans hskus'
    obtain rfl : orderSkus db dispatches = skus := by
      cases heq
      rfl
    have hsorted : (inDispatchOrder dispatches).Perm dispatches := perm_sortedBy _ _
    obtain ⟨created, events, horder, houtbox⟩ :=
      addOrderDispatches_eval order userUuid occurredAt stamps hclient hwarehouse hskus
    have hsingle := (hexits hsorted stamps).1 hc
    rw [hwarehouse] at horder houtbox
    have horderRow :
        ∀ k item, Records warehouse.value item (orderExit order userUuid occurredAt stamps k item) :=
      fun _ _ => ⟨rfl, rfl, hwarehouse⟩
    have hexitRow : ∀ (stamps : Stamps) k item, Records warehouse.value item
        (requestExit (exitRequest warehouse item) userUuid (stamps.stamp k)) := fun _ _ _ => ⟨rfl, rfl, rfl⟩
    have halike : Alike (exitRun warehouse.value (orderExit order userUuid occurredAt stamps)
        (orderStamp occurredAt stamps) 0
        (inDispatchOrder dispatches) db) (exitRun warehouse.value
          (fun k item => requestExit (exitRequest warehouse item) userUuid (stamps.stamp k)) stamps.stamp
          0 (inDispatchOrder dispatches) db) :=
      exitRun_alike horderRow (hexitRow stamps) (fun k => show (orderStamp occurredAt stamps k).id =
        (stamps.stamp k).id from rfl) (fun k => show (orderStamp occurredAt stamps k).eventId =
        (stamps.stamp k).eventId from rfl) (.refl db)
    have hcrossings : ∀ sku, thresholdCrossings db
        (exitRun warehouse.value (orderExit order userUuid occurredAt stamps)
        (orderStamp occurredAt stamps) 0 (inDispatchOrder dispatches) db) sku = _ :=
      thresholdCrossings_eq horderRow (hpayload hsorted) fun d hd => hpos d (hsorted.mem_iff.1 hd)
    refine ⟨created, events, _, _, horder, hsingle, checkpoints_eq halike.evaluations db, ⟨?_, ?_⟩,
      halike.stock, fun sku => ?_, fun payload hp => ⟨?_, fun stamps' byOther hother sku => ?_⟩⟩
    · rw [thresholdEvents, thresholdEvents]
      have hdrop := congrArg (List.drop db.outbox.length) halike.outbox
      rw [← List.map_drop, ← List.map_drop] at hdrop
      exact hdrop
    · rw [thresholdEvents, houtbox, List.drop_left]
      rfl
    · rw [hcrossings sku]
      split
      · exact Nat.zero_le 1
      · split <;> decide
    · have hsame : addOrderDispatches order (orderSkus db dispatches) userUuid occurredAt stamps payload =
          addOrderDispatches order (orderSkus db dispatches) userUuid occurredAt stamps dispatches :=
        congrArg (fun items => runningStock order.warehouse (orderSkus db dispatches) >>= fun running =>
          addDispatches order (orderSkus db dispatches) userUuid occurredAt stamps 0 running items)
          (inDispatchOrder_perm hp hids)
      rw [hsame]
      exact horder
    · have hrun := (hexits hp stamps').1 hc
      obtain rfl : _ = byOther := Except.ok.inj (hrun.symm.trans hother)
      rw [hcrossings sku, thresholdCrossings_eq (hexitRow stamps') (hpayload hp) (fun d hd =>
          hpos d (hp.mem_iff.1 hd)),
        total_perm (withdrawals_perm hp) sku, total_perm (withdrawals_perm hsorted) sku]

/-- Ten pieces of a SKU with the threshold three. -/
def boxStock : Tables where
  skus := [⟨1, "Box", "BOX-1", "Urban Thread", "fashion", "LA", some "urban-thread", some 3⟩]
  entries := [⟨1, 1, 10, "PO-1", "LA", 0, "u"⟩]

/-- Two dispatches of it. -/
def boxDispatches : List Dispatch :=
  [⟨Uuid.ofNat 0x11111111111141118111111111111111, 1, 4, "T-1"⟩,
    ⟨Uuid.ofNat 0x22222222222242228222222222222222, 1, 5, "T-2"⟩]

/-- The ids from a sequence. -/
def boxStamps : Stamps where
  stamp k := ⟨k + 1, ⟨Uuid.ofNat 0x33333333333343338333333333333333, by decide +kernel⟩, k⟩
  positive k := by
    show (0 : Int) < k + 1
    omega

/-- Their order. -/
def boxOrder : CommercialOrder := ⟨1, Uuid.ofNat 0x44444444444444448444444444444444, "urban-thread", "LA", 0⟩

/-- Two dispatches, of which the second crosses the threshold: the order and the single exits leave the
same stock, and the exits in the other order cross as often. -/
theorem order_equals_exits_two : ∃ skus created events byOrder byExits byOther,
    eval succeeding (validateOrderSkus boxDispatches "urban-thread" "LA") boxStock = .ok (skus, boxStock) ∧
    eval succeeding (addOrderDispatches boxOrder skus "u" 0 boxStamps boxDispatches) boxStock =
      .ok ((created, events), byOrder) ∧
    singleExits .la "u" boxStamps 0 (inDispatchOrder boxDispatches) boxStock = .ok byExits ∧
    (∀ sku wh, stock byOrder sku wh = stock byExits sku wh) ∧
    events.map eventContent = thresholdEvents boxStock byExits ∧
    singleExits .la "u" boxStamps 0 boxDispatches.reverse boxStock = .ok byOther ∧
    thresholdCrossings boxStock byOther 1 = thresholdCrossings boxStock byOrder 1 := by
  have hskus : OfOrder boxStock "urban-thread" "LA" boxDispatches := by
    intro d hd
    have hid : d.skuId = 1 := by
      simp only [boxDispatches, List.mem_cons, List.not_mem_nil, or_false] at hd
      rcases hd with rfl | rfl <;> rfl
    rw [hid]
    exact ⟨⟨1, "Box", "BOX-1", "Urban Thread", "fashion", "LA", some "urban-thread", some 3⟩, rfl, rfl, rfl⟩
  have h := order_equals_exits boxStock boxOrder .la "u" boxDispatches rfl (by decide) (by decide +kernel)
    (by decide +kernel) hskus
  obtain ⟨skus, hskus⟩ : ∃ skus, eval succeeding (validateOrderSkus boxDispatches "urban-thread" "LA") boxStock =
      .ok (skus, boxStock) := ⟨_, (validateOrderSkus_eval hskus).1 (by decide +kernel)⟩
  obtain ⟨created, events, byOrder, byExits, horder, hexits, -, ⟨hthreshold, hevents⟩, hstock, -, hpayload⟩ :=
    h.2 skus hskus boxStamps 0
  obtain ⟨byOther, hother⟩ := (h.1 _ (List.reverse_perm _) boxStamps).1 ⟨skus, hskus⟩
  exact ⟨skus, created, events, byOrder, byExits, byOther, hskus, horder, hexits, hstock,
    hevents.trans hthreshold, hother, (hpayload _ (List.reverse_perm _)).2 boxStamps byOther hother 1⟩

end TrackFlow.Inventory
