import TrackFlow.Inventory.AcceptedRequests

/-!
# Retries of the keyed commands

Orders, dispatches and counts have ids that clients choose, so that a request can be sent again.

- `append_once`: a second request to append the same dispatches changes nothing;
- `order_once`: what a second request with the id of an order gets;
- `count_once`: what a second request with the id of a count gets.
-/

namespace TrackFlow.Inventory.Books

open TrackFlow.Python TrackFlow.ReadCommitted
open TrackFlow.Pipelines (OutboxRow)
open CommandLocks (Lock)

/-! ## Second requests -/

section Again

variable {db : Tables} {order : CommercialOrder} {userUuid : String} {s : Stamp} {now : Int}
  {stamps : Stamps}

/-- A request with the id of an order is answered by the order, if it says what the order says. -/
theorem order_again {data : CommercialOrderCreate} (hI : Inv db) (ho : order ∈ db.orders)
    (hid : order.orderId = data.orderId) (hrepeated : repeated data.dispatches = false) :
    eval schema (createCommercialOrder data userUuid s stamps) db =
      if order.clientId ≠ data.clientId ∨ order.warehouse ≠ data.warehouse.value then
        .error (.raised (conflict "order_id already exists with different content"))
      else if sameDispatches (orderDispatches db order.id) data.dispatches order.id then
        .ok ((order, orderDispatches db order.id), db)
      else .error (.raised (conflict "order_id already exists with different dispatches")) := by
  have hfind := hI.find_order ho
  rw [hid] at hfind
  unfold createCommercialOrder
  rw [if_neg (by simp [hrepeated]), eval_lockIdempotencyKeys, Prog.query_bind, eval_read, hfind]
  simp only [repeatOrder, Prog.acquire_bind, eval_lock, Prog.query_bind, eval_read]
  split
  · rfl
  · split <;> rfl

theorem newItems_recorded {existing : List StockExit} {pk : Int} {dispatches : List Dispatch}
    (h : ∀ item ∈ dispatches, ∃ e, findDispatch existing item.dispatchId = some e ∧
      dispatchMatches e item pk = true) : newItems existing pk dispatches = .ok [] := by
  induction dispatches with
  | nil => rfl
  | cons item rest ih =>
    obtain ⟨e, hfind, hmatch⟩ := h item List.mem_cons_self
    rw [newItems, hfind]
    simp only [hmatch, if_true]
    exact ih fun item' hitem' => h item' (List.mem_cons_of_mem _ hitem')

theorem newItems_other {existing : List StockExit} {pk : Int} {dispatches : List Dispatch} {item : Dispatch}
    {e : StockExit} (hitem : item ∈ dispatches) (hfind : findDispatch existing item.dispatchId = some e)
    (hmatch : dispatchMatches e item pk = false) :
    newItems existing pk dispatches =
      .error (conflict "dispatch_id already exists with different content") := by
  induction dispatches with
  | nil => cases hitem
  | cons d rest ih =>
    rw [newItems]
    rcases List.mem_cons.1 hitem with rfl | hitem
    · rw [hfind]
      simp only [hmatch]
      rfl
    · split
      · rw [ih hitem]
        rfl
      · split
        · exact ih hitem
        · rfl

/-- A request to append to an order goes by what is recorded of its dispatches. -/
theorem append_again {data : DispatchAppend} (hI : Inv db) (ho : order ∈ db.orders)
    (hid : order.orderId = data.orderId) (hrepeated : repeated data.dispatches = false) :
    let existing := db.exits.filter fun e => data.dispatches.any fun item =>
      e.dispatchId = some item.dispatchId
    (newItems existing order.id data.dispatches = .ok [] →
      eval schema (appendCommercialOrderDispatches data userUuid now stamps) db =
        .ok ((order, orderDispatches db order.id), db)) ∧
    ∀ e, newItems existing order.id data.dispatches = .error e →
      eval schema (appendCommercialOrderDispatches data userUuid now stamps) db = .error (.raised e) := by
  have hfind := hI.find_order ho
  rw [hid] at hfind
  unfold appendCommercialOrderDispatches
  rw [if_neg (by simp [hrepeated]), eval_lockIdempotencyKeys, Prog.query_bind, eval_read, hfind]
  simp only [Prog.acquire_bind, eval_lock, Prog.query_bind, eval_read]
  constructor
  · intro hitems
    rw [hitems]
    rfl
  · intro e hitems
    rw [hitems]
    rfl

/-- The rows of a dispatch among those that a request names. -/
theorem Inv.find_existing (hI : Inv db) {dispatches : List Dispatch} {item : Dispatch} {e : StockExit}
    (hitem : item ∈ dispatches) (he : e ∈ db.exits) (hu : e.dispatchId = some item.dispatchId) :
    findDispatch (db.exits.filter fun e => dispatches.any fun item => e.dispatchId = some item.dispatchId)
      item.dispatchId = some e := by
  refine hI.find_dispatch (fun e' he' => (List.mem_filter.1 he').1) ?_ hu
  refine List.mem_filter.2 ⟨he, List.any_eq_true.2 ⟨item, hitem, by simpa using hu⟩⟩

/-- A request with the id of a count is answered by the count, if it says what the count says. -/
theorem count_again {data : PhysicalCountCreate} {c : PhysicalCount} (hI : Inv db) (hc : c ∈ db.counts)
    (hid : c.countId = data.countId) :
    eval schema (confirmInventoryPhysicalCount data userUuid s) db =
      if countMatches c data userUuid then .ok ((c, none), db)
      else .error (.raised (conflict "count_id already exists with different content")) := by
  have hfind := hI.find_count hc
  rw [hid] at hfind
  unfold confirmInventoryPhysicalCount
  rw [eval_lockIdempotencyKeys, Prog.query_bind, eval_read, hfind]
  simp only [Prog.acquire_bind, eval_lock]
  split <;> rfl

end Again

/-! ## Once -/

section Once

variable {Cl : Type} [DecidableEq Cl] {skus : List Sku} {db' : Tables}
  {σ σ' : System Cl Tables Write Lock Unit ServiceError Unit}

theorem warehouse_value {w w' : Warehouse} (h : w.value = w'.value) : w = w' := by
  cases w <;> cases w' <;> first | rfl | exact absurd h (by decide)

/-- **Dispatches are appended once**: however commands went on after a request to append, the same request
changes nothing, each of its dispatches has one row, and no request can reuse their ids. The schemas refuse
a request that names a dispatch twice (`_unique_dispatch_ids`). -/
theorem append_once {data : DispatchAppend} {userUuid : String} {now : Int} {stamps : Stamps}
    {order : CommercialOrder} {created : List StockExit} (hids : (skus.map Sku.id).Nodup)
    (h : Reachable tables Command (start skus) σ) (hpos : ∀ item ∈ data.dispatches, 0 < item.quantity)
    (hrun : eval schema (appendCommercialOrderDispatches data userUuid now stamps) σ.db =
      .ok ((order, created), db'))
    (hlater : Reachable tables Command db' σ') :
    (∀ userUuid' now' stamps',
      eval schema (appendCommercialOrderDispatches data userUuid' now' stamps') σ'.db =
        .ok ((order, orderDispatches σ'.db order.id), σ'.db)) ∧
    (∀ item ∈ data.dispatches, ∃ e ∈ σ'.db.exits, Recorded order.id item e ∧
      ∀ e' ∈ σ'.db.exits, e'.dispatchId = some item.dispatchId → e' = e) ∧
    ∀ data' userUuid' now' stamps', data'.orderId = data.orderId → repeated data'.dispatches = false →
      ∀ item ∈ data.dispatches, ∀ item' ∈ data'.dispatches,
        item'.dispatchId = item.dispatchId → item' ≠ item →
        eval schema (appendCommercialOrderDispatches data' userUuid' now' stamps') σ'.db =
          .error (.raised (conflict "dispatch_id already exists with different content")) := by
  have hI := inv_reached (Inv.start hids) h
  have hI' := eval_inv (.append data userUuid now stamps hpos) hI hrun
  obtain ⟨ho, hid, hrepeated, hrecorded⟩ := appendCommercialOrderDispatches_ok hrun
  have hIσ := inv_reached hI' hlater
  have hgrown := reachable_grown hlater
  have hthere : ∀ item ∈ data.dispatches, ∃ e ∈ σ'.db.exits, Recorded order.id item e := by
    intro item hitem
    obtain ⟨e, he, hrec⟩ := hrecorded item hitem
    exact ⟨e, hgrown.exits e he, hrec⟩
  refine ⟨fun userUuid' now' stamps' => ?_, fun item hitem => ?_, ?_⟩
  · refine (append_again hIσ (hgrown.orders _ ho) hid hrepeated).1 (newItems_recorded fun item hitem => ?_)
    obtain ⟨e, he, hrec⟩ := hthere item hitem
    exact ⟨e, hIσ.find_existing hitem he hrec.1, hrec.2⟩
  · obtain ⟨e, he, hrec⟩ := hthere item hitem
    exact ⟨e, he, hrec, fun e' he' hu => unique_key hIσ.dispatches he' he hu hrec.1⟩
  · intro data' userUuid' now' stamps' hid' hrepeated' item hitem item' hitem' hsame hne
    obtain ⟨e, he, hrec⟩ := hthere item hitem
    refine (append_again hIσ (hgrown.orders _ ho) (hid.trans hid'.symm) hrepeated').2 _
      (newItems_other hitem' (hIσ.find_existing hitem' he (hsame ▸ hrec.1)) ?_)
    by_contra hmatch
    rw [Bool.not_eq_false] at hmatch
    have hrec' : Recorded order.id item' e := ⟨hsame ▸ hrec.1, hmatch⟩
    exact hne (hrec'.unique hrec)

/-- Ten shirts arrive, and four leave with an order. -/
def firstOrder : CommercialOrderCreate :=
  ⟨sameDigits 10, "urban-thread", .la, [⟨sameDigits 11, 1, 4, "T-1"⟩]⟩

def firstCommands : List (Txn Unit) :=
  [createStockEntry ⟨1, 10, "PO-1", .la⟩ "u" (stampOf 1 1) >>= fun _ => pure (),
    createCommercialOrder firstOrder "u" (stampOf 1 2) shirtStamps >>= fun _ => pure ()]

theorem firstCommands_command : ∀ p ∈ firstCommands, Command p := by
  intro p hp
  simp only [firstCommands, List.mem_cons, List.not_mem_nil, or_false] at hp
  rcases hp with rfl | rfl
  · exact .entry _ _ _ (by decide)
  · exact .order _ _ _ _ (by simp [firstOrder]) (by simp [firstOrder])

theorem firstCommands_reachable : Reachable tables Command (start shirts)
    (System.idle (serially (start shirts) firstCommands) :
      System Unit Tables Write Lock Unit ServiceError Unit) :=
  serially_reachable firstCommands_command .idle

/-- Five more arrive. -/
def fiveMoreShirts : List (Txn Unit) :=
  [createStockEntry ⟨1, 5, "PO-2", .la⟩ "u" (stampOf 2 5) >>= fun _ => pure ()]

theorem fiveMoreShirts_command : ∀ p ∈ fiveMoreShirts, Command p := by
  intro p hp
  rw [List.mem_singleton.1 hp]
  exact .entry _ _ _ (by decide)

theorem fiveMoreShirts_reachable (db : Tables) : Reachable tables Command db
    (System.idle (serially db fiveMoreShirts) : System Unit Tables Write Lock Unit ServiceError Unit) :=
  serially_reachable fiveMoreShirts_command .idle

/-- Two more shirts leave with the order. -/
def secondDispatch : DispatchAppend := ⟨sameDigits 10, [⟨sameDigits 12, 1, 2, "T-2"⟩]⟩

def secondStamps : Stamps where
  stamp k := stampOf (k + 11) (Fin.ofNat 16 (k + 8))
  positive k := stamp_positive k 10

def twoMoreShirts : Except (Failure ServiceError) (CommercialOrder × List StockExit) × Tables :=
  run schema (appendCommercialOrderDispatches secondDispatch "u" 5 secondStamps) none
    (serially (start shirts) firstCommands)

/-- The request is sent again after an entry. -/
theorem append_once_second : (serially twoMoreShirts.2 fiveMoreShirts).entries.length = 2 ∧ ∃ order created,
    twoMoreShirts.1 = .ok (order, created) ∧
    eval schema (appendCommercialOrderDispatches secondDispatch "u" 6 secondStamps)
      (serially twoMoreShirts.2 fiveMoreShirts) =
      .ok ((order, orderDispatches (serially twoMoreShirts.2 fiveMoreShirts) order.id),
        serially twoMoreShirts.2 fiveMoreShirts) := by
  obtain ⟨⟨order, created⟩, hok⟩ : ∃ r, twoMoreShirts.1 = .ok r := exists_ok (by decide +kernel)
  have hrun := run_ok (Prod.ext hok rfl : twoMoreShirts = (.ok (order, created), twoMoreShirts.2))
  have hagain := (append_once (by decide) firstCommands_reachable (by simp [secondDispatch]) hrun
    (fiveMoreShirts_reachable _)).1
  exact ⟨by decide +kernel, order, created, hok, hagain "u" 6 secondStamps⟩

/-- **An order is placed once**: however commands went on after a request to create an order, a request
with its id creates none. It is answered by the order when it has the client, the warehouse and the
dispatches that the order has by then, and is refused otherwise. The schemas refuse a request that names a
dispatch twice (`_unique_dispatch_ids`). -/
theorem order_once {data : CommercialOrderCreate} {userUuid : String} {s : Stamp} {stamps : Stamps}
    {order : CommercialOrder} {created : List StockExit} (hids : (skus.map Sku.id).Nodup)
    (h : Reachable tables Command (start skus) σ) (hne : data.dispatches ≠ [])
    (hpos : ∀ item ∈ data.dispatches, 0 < item.quantity)
    (hrun : eval schema (createCommercialOrder data userUuid s stamps) σ.db = .ok ((order, created), db'))
    (hlater : Reachable tables Command db' σ') :
    ((∀ e ∈ σ'.db.exits, e.commercialOrderId = some order.id → e ∈ db'.exits) →
      ∀ userUuid' s' stamps', eval schema (createCommercialOrder data userUuid' s' stamps') σ'.db =
        .ok ((order, orderDispatches σ'.db order.id), σ'.db)) ∧
    ∀ data' userUuid' s' stamps', data'.orderId = data.orderId → repeated data'.dispatches = false →
      (∀ answer, eval schema (createCommercialOrder data' userUuid' s' stamps') σ'.db = .ok answer ↔
        (data'.clientId = data.clientId ∧ data'.warehouse = data.warehouse ∧
          Lists σ'.db order.id data'.dispatches) ∧
        answer = ((order, orderDispatches σ'.db order.id), σ'.db)) ∧
      ∀ e, eval schema (createCommercialOrder data' userUuid' s' stamps') σ'.db = .error e →
        ∃ detail, e = .raised (conflict detail) := by
  have hI := inv_reached (Inv.start hids) h
  have hI' := eval_inv (.order data userUuid s stamps hne hpos) hI hrun
  obtain ⟨ho, hid, hclient, hwarehouse, hrepeated, hlists⟩ := createCommercialOrder_ok hI hrun
  have hIσ := inv_reached hI' hlater
  have hgrown := reachable_grown hlater
  have hoσ := hgrown.orders _ ho
  refine ⟨fun hsame userUuid' s' stamps' => ?_, ?_⟩
  · have hstill : Lists σ'.db order.id data.dispatches := by
      refine ⟨fun e he hpk => hlists.1 e (hsame e he hpk) hpk, fun item hitem => ?_⟩
      obtain ⟨e, he, hrec⟩ := hlists.2 item hitem
      exact ⟨e, hgrown.exits e he, hrec⟩
    rw [order_again hIσ hoσ hid hrepeated, if_neg (by simp [hclient, hwarehouse]),
      if_pos (hIσ.sameDispatches_iff.2 hstill)]
  · intro data' userUuid' s' stamps' hid' hrepeated'
    rw [order_again hIσ hoσ (hid.trans hid'.symm) hrepeated', ← hIσ.sameDispatches_iff]
    have hcontent : (order.clientId ≠ data'.clientId ∨ order.warehouse ≠ data'.warehouse.value) ↔
        ¬(data'.clientId = data.clientId ∧ data'.warehouse = data.warehouse) := by
      rw [hclient, hwarehouse, not_and_or]
      refine or_congr ⟨Ne.symm, Ne.symm⟩ (not_congr ⟨fun heq => ?_, fun heq => by rw [heq]⟩)
      exact (warehouse_value heq).symm
    by_cases hother : order.clientId ≠ data'.clientId ∨ order.warehouse ≠ data'.warehouse.value
    · rw [if_pos hother]
      refine ⟨fun answer => iff_of_false (by simp) fun hanswer => ?_, fun e he => ?_⟩
      · exact hcontent.1 hother ⟨hanswer.1.1, hanswer.1.2.1⟩
      · cases he
        exact ⟨_, rfl⟩
    · rw [if_neg hother]
      have hequal := not_not.1 ((not_congr hcontent).1 hother)
      split
      · rename_i hsame
        refine ⟨fun answer => ?_, fun e he => by cases he⟩
        rw [Except.ok.injEq, eq_comm]
        exact ⟨fun hanswer => ⟨⟨hequal.1, hequal.2, hsame⟩, hanswer⟩, fun hanswer => hanswer.2⟩
      · rename_i hsame
        refine ⟨fun answer => iff_of_false (by simp) fun hanswer => hsame hanswer.1.2.2, fun e he => ?_⟩
        cases he
        exact ⟨_, rfl⟩

def placedShirts : Except (Failure ServiceError) (CommercialOrder × List StockExit) × Tables :=
  run schema (createCommercialOrder firstOrder "u" (stampOf 1 2) shirtStamps) none
    (serially (start shirts) (firstCommands.take 1))

/-- The request is sent again after an entry. -/
theorem order_once_first : (serially placedShirts.2 fiveMoreShirts).entries.length = 2 ∧ ∃ order created,
    placedShirts.1 = .ok (order, created) ∧
    eval schema (createCommercialOrder firstOrder "u" (stampOf 2 3) secondStamps)
      (serially placedShirts.2 fiveMoreShirts) =
      .ok ((order, orderDispatches (serially placedShirts.2 fiveMoreShirts) order.id),
        serially placedShirts.2 fiveMoreShirts) := by
  obtain ⟨⟨order, created⟩, hok⟩ : ∃ r, placedShirts.1 = .ok r := exists_ok (by decide +kernel)
  have hrun := run_ok (Prod.ext hok rfl : placedShirts = (.ok (order, created), placedShirts.2))
  have hreached : Reachable tables Command (start shirts)
      (System.idle (serially (start shirts) (firstCommands.take 1)) :
        System Unit Tables Write Lock Unit ServiceError Unit) :=
    serially_reachable (fun p hp => firstCommands_command p (List.mem_of_mem_take hp)) .idle
  have hsame : ∀ e ∈ (serially placedShirts.2 fiveMoreShirts).exits, e ∈ placedShirts.2.exits := by
    decide +kernel
  have hagain := (order_once (by decide) hreached (by simp [firstOrder]) (by simp [firstOrder]) hrun
    (fiveMoreShirts_reachable _)).1
  exact ⟨by decide +kernel, order, created, hok,
    hagain (fun e he _ => hsame e he) "u" (stampOf 2 3) secondStamps⟩

/-- **A count is confirmed once**: however commands went on after a request to confirm a count, the same
request of the same user changes nothing, and any other with its id is refused. -/
theorem count_once {data : PhysicalCountCreate} {userUuid : String} {s : Stamp} {c : PhysicalCount}
    {event : Option OutboxRow} (hids : (skus.map Sku.id).Nodup)
    (h : Reachable tables Command (start skus) σ)
    (hrun : eval schema (confirmInventoryPhysicalCount data userUuid s) σ.db = .ok ((c, event), db'))
    (hlater : Reachable tables Command db' σ') :
    (∀ s', eval schema (confirmInventoryPhysicalCount data userUuid s') σ'.db = .ok ((c, none), σ'.db)) ∧
    ∀ data' userUuid' s', data'.countId = data.countId → (data', userUuid') ≠ (data, userUuid) →
      eval schema (confirmInventoryPhysicalCount data' userUuid' s') σ'.db =
        .error (.raised (conflict "count_id already exists with different content")) := by
  have hI := inv_reached (Inv.start hids) h
  have hI' := eval_inv (.count data userUuid s) hI hrun
  obtain ⟨hc, hid, hmatch⟩ := confirmInventoryPhysicalCount_ok hrun
  have hIσ := inv_reached hI' hlater
  have hcσ := (reachable_grown hlater).counts _ hc
  refine ⟨fun s' => ?_, fun data' userUuid' s' hid' hne => ?_⟩
  · rw [count_again hIσ hcσ hid, if_pos hmatch]
  · rw [count_again hIσ hcσ (hid.trans hid'.symm), if_neg]
    intro hmatch'
    simp only [countMatches, Bool.and_eq_true, decide_eq_true_eq] at hmatch hmatch'
    obtain ⟨⟨⟨hsku, hwarehouse⟩, hobserved⟩, huser⟩ := hmatch
    obtain ⟨⟨⟨hsku', hwarehouse'⟩, hobserved'⟩, huser'⟩ := hmatch'
    refine hne ?_
    have hw := warehouse_value (hwarehouse'.symm.trans hwarehouse)
    cases data
    cases data'
    simp only [Prod.mk.injEq, PhysicalCountCreate.mk.injEq]
    exact ⟨⟨hid', hsku'.symm.trans hsku, hobserved'.symm.trans hobserved, hw⟩, huser'.symm.trans huser⟩

def countedShirts : Except (Failure ServiceError) (PhysicalCount × Option OutboxRow) × Tables :=
  run schema (confirmInventoryPhysicalCount ⟨sameDigits 13, 1, 2, .la⟩ "u" (stampOf 1 7)) none (start shirts)

/-- The request is sent again after an entry. -/
theorem count_once_shirts : (serially countedShirts.2 fiveMoreShirts).entries.length = 1 ∧ ∃ c event,
    countedShirts.1 = .ok (c, event) ∧
    eval schema (confirmInventoryPhysicalCount ⟨sameDigits 13, 1, 2, .la⟩ "u" (stampOf 2 8))
      (serially countedShirts.2 fiveMoreShirts) =
      .ok ((c, none), serially countedShirts.2 fiveMoreShirts) := by
  obtain ⟨⟨c, event⟩, hok⟩ : ∃ r, countedShirts.1 = .ok r := exists_ok (by decide +kernel)
  have hrun := run_ok (Prod.ext hok rfl : countedShirts = (.ok (c, event), countedShirts.2))
  have hagain := (count_once (σ := System.idle (start shirts)) (by decide)
    (.idle : Reachable tables Command (start shirts) (System.idle (start shirts) :
      System Unit Tables Write Lock Unit ServiceError Unit)) hrun (fiveMoreShirts_reachable _)).1
  exact ⟨by decide +kernel, c, event, hok, hagain (stampOf 2 8)⟩

end Once

end TrackFlow.Inventory.Books
