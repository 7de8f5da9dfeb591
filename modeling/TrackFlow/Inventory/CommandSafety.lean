import TrackFlow.Inventory.CommandRules

/-!
# The commands keep the books

Every command of the service is safe between any others: its writes are made under their locks, an
evaluation is made with the threshold in force, and it leaves the books in order where it commits.
-/

namespace TrackFlow.Inventory.Books

open TrackFlow.Python TrackFlow.ReadCommitted TrackFlow.Balances
open TrackFlow.Pipelines (OutboxRow canonicalTelemetryWarehouse)
open CommandLocks (Lock advisoryKey)

variable {db db' : Tables} {own : List Write} {L M : Set Lock} {pending : List CommercialOrder} {id : Int}

/-! ## Commands -/

section Commands

/-- A transaction that has written all of it. -/
theorem written_done {α : Type} {a : α} (h : Written [] L own db) : rules.Safe (pure a : Txn α) L own db :=
  fun _ ha hI => ((written_stable []).others h ha hI).keeps

theorem start_stable : rules.Stable fun L _ db => Written [] L [] db :=
  ⟨fun h ha hI => (written_stable []).others h ha hI, fun hL h => (written_stable []).locks hL h⟩

/-- A SKU whose stock is read. -/
theorem running_one {sku : Sku} {warehouse : String} (hlock : .sku sku.id ∈ L) :
    Running own warehouse [(sku.id, stock (schema.applyAll db own) sku.id warehouse)] L db := by
  intro p hp
  rw [List.mem_singleton.1 hp]
  exact ⟨hlock, rfl⟩

theorem createStockExit_safe (data : StockExitCreate) (userUuid : String) (s : Stamp)
    (hpos : 0 < data.quantity) (hI : Inv db) :
    rules.Safe (createStockExit data userUuid s >>= fun _ => pure ()) ∅ [] db := by
  unfold createStockExit
  rw [Prog.bind_assoc]
  refine wp_lockSkus start_stable (Written.start hI) fun M db₁ skus _ h₁ => ?_
  split
  · exact Rules.wp_fail _
  · rename_i sku hfind
    have hmem := List.mem_of_find?_eq_some hfind
    have hid : sku.id = data.skuId := by simpa using List.find?_some hfind
    split
    · exact Rules.wp_fail _
    · rename_i hwarehouse
      rw [not_not] at hwarehouse
      rw [Prog.bind_assoc]
      have hfound := start_stable.and (found_stable skus)
      refine wp_getCurrentStock hfound h₁ (h₁.2 sku hmem).1 fun db₂ h₂ => ?_
      split
      · exact Rules.wp_fail _
      · rw [Prog.bind_assoc]
        have hB := hfound.and (running_stable [] data.warehouse.value
          [(sku.id, stock (schema.applyAll db₂ []) sku.id data.warehouse.value)])
        refine wp_writeExit hB ⟨h₂, running_one (h₂.2 sku hmem).1⟩
          ⟨rfl, hid.symm, hwarehouse, rfl, hpos⟩ (fun db₃ h₃ => ⟨h₃.1.1, ?_⟩)
          fun db₃ event _ hwritten => written_done hwritten
        refine ⟨(h₃.1.2 sku hmem).1, (h₃.1.2 sku hmem).2, ?_, fun u hu => (by cases hu),
          fun pk hpk => (by cases hpk)⟩
        rw [← hwarehouse]
        exact (h₃.2 _ List.mem_cons_self).2

theorem canonical_warehouse (w : Warehouse) :
    ∃ warehouse, canonicalTelemetryWarehouse w.value = some warehouse := by
  cases w
  · exact ⟨_, rfl⟩
  · exact ⟨_, rfl⟩

theorem wp_enqueueInbound {β : Type} {B : Set Lock → Tables → Prop}
    {Q : β → Set Lock → List Write → Tables → Prop} {own : List Write} {sku : Sku} {s : Stamp}
    {row : StockEntry}
    {warehouse : String} (hcanonical : canonicalTelemetryWarehouse row.warehouse = some warehouse)
    (hB : rules.Stable fun L _ db => B L db) (hp : B L db) {f : Option OutboxRow → Txn β}
    (h : ∀ db' event, B L db' → Received sku s row event →
      rules.wp (f event) Q L (own ++ event.toList.map .outbox) db') :
    rules.wp (enqueueInbound sku s row >>= f) Q L own db := by
  unfold enqueueInbound
  rw [hcanonical]
  cases hclient : sku.clientId with
  | none =>
    have hnone := h db none hp (.nobody hclient)
    rwa [Option.toList_none, List.map_nil, List.append_nil] at hnone
  | some clientId =>
    simp only
    rw [Prog.bind_assoc]
    exact wp_enqueue hB hp fun db₁ h₁ =>
      h db₁ (some (inboundEvent sku warehouse clientId s row.quantity)) h₁ (.client hclient hcanonical)

theorem createStockEntry_safe (data : StockEntryCreate) (userUuid : String) (s : Stamp)
    (hpos : 0 < data.quantity) (hI : Inv db) :
    rules.Safe (createStockEntry data userUuid s >>= fun _ => pure ()) ∅ [] db := by
  unfold createStockEntry
  rw [Prog.bind_assoc]
  refine wp_lockSkus start_stable (Written.start hI) fun M db₁ skus _ h₁ => ?_
  split
  · exact Rules.wp_fail _
  · rename_i sku hfind
    have hmem := List.mem_of_find?_eq_some hfind
    have hid : sku.id = data.skuId := by simpa using List.find?_some hfind
    split
    · exact Rules.wp_fail _
    · rename_i hwarehouse
      rw [not_not] at hwarehouse
      rw [Prog.bind_assoc]
      have hfound := start_stable.and (found_stable skus)
      have hlock := (h₁.2 sku hmem).1
      refine wp_getCurrentStock hfound h₁ (hid ▸ hlock) fun db₂ h₂ => ?_
      have hB := hfound.and (running_stable [] data.warehouse.value
        [(sku.id, stock (schema.applyAll db₂ []) sku.id data.warehouse.value)])
      obtain ⟨warehouse, hcanonical⟩ := canonical_warehouse data.warehouse
      rw [← hid]
      simp only
      rw [Prog.bind_assoc]
      refine wp_put hB ⟨h₂, running_one hlock⟩ fun db₃ h₃ _ _ => ⟨?_, trivial, fun db₄ h₄ _ _ => ?_⟩
      · rintro l rfl
        exact hlock
      · rw [Prog.bind_assoc]
        refine wp_enqueueInbound hcanonical hB h₄ fun db₅ event h₅ hreceived => ?_
        rw [Prog.bind_assoc]
        refine wp_put hB h₅ fun db₆ h₆ _ haccepts => ?_
        simp only [acceptsWrite, decide_eq_true_eq] at haccepts
        obtain ⟨-, -, -, hbefore, hafter, -⟩ := haccepts
        refine ⟨?_, ⟨sku, (h₆.1.2 sku hmem).2, rfl⟩, fun db₇ h₇ _ _ => ?_⟩
        · rintro l rfl
          exact hlock
        · refine written_done ?_
          have hbalance : stock (schema.applyAll db₇ []) sku.id sku.warehouse =
              stock (schema.applyAll db₂ []) sku.id data.warehouse.value := by
            rw [← hwarehouse]
            exact (h₇.2 _ List.mem_cons_self).2
          have hwritten := h₇.1.1.entry (h₇.1.2 sku hmem).1 (h₇.1.2 sku hmem).2 hbalance
            ⟨rfl, rfl, hwarehouse, rfl, hpos⟩ hreceived hbefore hafter
          simpa [entryWrites] using hwritten

theorem updateSkuThreshold_safe (skuId : Int) (value : Option Int) (hI : Inv db) :
    rules.Safe (updateSkuThreshold skuId value >>= fun _ => pure ()) ∅ [] db := by
  unfold updateSkuThreshold
  rw [Prog.bind_assoc]
  refine wp_lockSkus start_stable (Written.start hI) fun M db₁ skus _ h₁ => ?_
  split
  · exact Rules.wp_fail _
  · rename_i sku hfind
    have hid : sku.id = skuId := by simpa using List.find?_some hfind
    have hlock := (h₁.2 sku (List.mem_of_find?_eq_some hfind)).1
    rw [hid] at hlock
    refine wp_put start_stable h₁.1 fun db₂ h₂ _ _ => ⟨?_, trivial, fun db₃ h₃ _ _ => ?_⟩
    · rintro l rfl
      exact hlock
    · exact written_done (h₃.threshold hlock value)

theorem mem_lockIdempotencyKeys {values : List Uuid} {u : Uuid} (h : u ∈ values) :
    .advisory (advisoryKey u) ∈ CommandLocks.lockIdempotencyKeys values :=
  List.mem_map_of_mem (mem_sortedSet.2 h)

/-- A count id that is locked and new. -/
theorem new_count_stable (u : Uuid) :
    rules.Stable fun L _ db => .advisory (advisoryKey u) ∈ L ∧ u ∉ db.counts.filterMap countKey :=
  ⟨fun h ha _ => ⟨h.1, ha.counts u h.1 h.2⟩, fun hL h => ⟨hL h.1, h.2⟩⟩

/-- An order id that is locked and new. -/
theorem new_order_stable (u : Uuid) :
    rules.Stable fun L _ db => .advisory (advisoryKey u) ∈ L ∧ u ∉ db.orders.filterMap orderKey :=
  ⟨fun h ha _ => ⟨h.1, ha.orders u h.1 h.2⟩, fun hL h => ⟨hL h.1, h.2⟩⟩

theorem recordCount_safe (data : PhysicalCountCreate) (userUuid : String) (s : Stamp)
    (h : Written [] L [] db) (hlock : .advisory (advisoryKey data.countId) ∈ L)
    (hnew : data.countId ∉ db.counts.filterMap countKey) :
    rules.Safe (recordCount data userUuid s >>= fun _ => pure ()) L [] db := by
  unfold recordCount
  rw [Prog.bind_assoc]
  have hstart := start_stable.and (new_count_stable data.countId)
  refine wp_lockSkus hstart ⟨h, hlock, hnew⟩ fun M db₁ skus _ h₁ => ?_
  split
  · exact Rules.wp_fail _
  · rename_i sku hfind
    have hmem := List.mem_of_find?_eq_some hfind
    have hid : sku.id = data.skuId := by simpa using List.find?_some hfind
    split
    · exact Rules.wp_fail _
    · rename_i hwarehouse
      rw [not_not] at hwarehouse
      split
      · exact Rules.wp_fail _
      · rename_i clientId hfilter
        have hclient := (Option.filter_eq_some_iff.1 hfilter).1
        have hfound := hstart.and (found_stable skus)
        rw [Prog.bind_assoc]
        refine wp_anyStock hfound h₁ fun expected db₂ h₂ => ?_
        simp only
        rw [Prog.bind_assoc]
        refine wp_put hfound h₂ fun db₃ h₃ _ _ => ⟨?_, trivial, fun db₄ h₄ _ _ => ?_⟩
        · rintro l rfl
          exact h₃.1.2.1
        · have hwritten : ∀ {db' event}, (Written [] M [] db' ∧ .advisory (advisoryKey data.countId) ∈ M ∧
              data.countId ∉ db'.counts.filterMap countKey) ∧ Found skus M db' →
              Noticed sku s (physicalCount data userUuid s clientId expected) event →
              Written [] M (countWrites (physicalCount data userUuid s clientId expected) event) db' := by
            intro db' event h' hnoticed
            refine h'.1.1.count h'.1.2.1 h'.1.2.2 rfl rfl ?_ hclient hwarehouse.symm hnoticed
            show known db' data.skuId = some (fixed sku)
            rw [← hid]
            exact known_of_sku (h'.2 sku hmem).2
          split
          · rename_i hzero
            exact written_done (hwritten h₄ (.same (show data.observedQuantity = expected by omega)))
          · rename_i hdelta
            obtain ⟨warehouse, hcanonical⟩ := canonical_warehouse data.warehouse
            rw [hcanonical]
            simp only
            rw [Prog.bind_assoc]
            refine wp_enqueue hfound h₄ fun db₅ h₅ => ?_
            refine written_done (hwritten h₅ (.other (fun heq => hdelta ?_) hcanonical))
            have hsame : data.observedQuantity = expected := heq
            omega

theorem confirmInventoryPhysicalCount_safe (data : PhysicalCountCreate) (userUuid : String) (s : Stamp)
    (hI : Inv db) :
    rules.Safe (confirmInventoryPhysicalCount data userUuid s >>= fun _ => pure ()) ∅ [] db := by
  unfold confirmInventoryPhysicalCount lockIdempotencyKeys
  rw [Prog.bind_assoc]
  refine wp_acquireAll start_stable (Written.start hI) fun M db₁ _ hlocks h₁ => ?_
  have hlock := hlocks _ (mem_lockIdempotencyKeys (List.mem_singleton_self data.countId))
  rw [Prog.bind_assoc]
  refine wp_query start_stable h₁ fun db₂ db₃ _ h₃ ha₃ hI₃ => ?_
  split
  · rw [Prog.bind_assoc]
    refine wp_acquire start_stable h₃ fun db₄ h₄ => ?_
    split
    · exact written_done h₄
    · exact Rules.wp_fail _
  · rename_i hnone
    refine recordCount_safe data userUuid s h₃ hlock (ha₃.counts _ hlock fun hmem => ?_)
    obtain ⟨c, hc, hkey⟩ := List.mem_filterMap.1 hmem
    rw [countKey, Option.some.injEq] at hkey
    have hno := List.find?_eq_none.1 hnone c hc
    simp [hkey] at hno

theorem placeOrder_safe (data : CommercialOrderCreate) (userUuid : String) (s : Stamp) (stamps : Stamps)
    (hne : data.dispatches ≠ []) (hpos : ∀ item ∈ data.dispatches, 0 < item.quantity)
    (h : Written [] L [] db) (hlock : .advisory (advisoryKey data.orderId) ∈ L)
    (hlocks : ∀ item ∈ data.dispatches, .advisory (advisoryKey item.dispatchId) ∈ L)
    (hnew : data.orderId ∉ db.orders.filterMap orderKey) :
    rules.Safe (placeOrder data userUuid s stamps >>= fun _ => pure ()) L [] db := by
  unfold placeOrder
  rw [Prog.bind_assoc]
  have hstart := start_stable.and (new_order_stable data.orderId)
  refine wp_validateOrderSkus hstart ⟨h, hlock, hnew⟩ fun M db₁ skus hM h₁ hsuits => ?_
  have hfound := hstart.and (found_stable skus)
  simp only
  rw [Prog.bind_assoc]
  refine wp_put hfound h₁ fun db₂ h₂ _ _ => ⟨?_, trivial, fun db₃ h₃ _ _ => ?_⟩
  · rintro l rfl
    exact h₂.1.2.1
  · have hordered : ∀ {db'}, (Written [] M [] db' ∧ .advisory (advisoryKey data.orderId) ∈ M ∧
        data.orderId ∉ db'.orders.filterMap orderKey) ∧ Found skus M db' →
        Written [commercialOrder data s] M [.order (commercialOrder data s)] db' := fun h' =>
      h'.1.1.order h'.1.2.1 h'.1.2.2
    unfold addOrderDispatches
    rw [Prog.bind_assoc, Prog.bind_assoc]
    refine wp_runningStock hfound h₃ (fun sku hsku => (h₃.2 sku hsku).1) fun db₄ running h₄ => ?_
    refine wp_addDispatches hsuits (fun item hitem => hpos item (mem_sortedBy.1 hitem))
      ⟨hordered h₄.1, h₄.1.2, h₄.2, fun item hitem => hM (hlocks item (mem_sortedBy.1 hitem)), ?_⟩
      fun db₅ more result hwritten hsome => ?_
    · exact List.mem_append_right _ List.mem_cons_self
    · rw [Prog.bind_assoc]
      have hmore : rules.Stable fun L _ db => Written [commercialOrder data s] L
          ([.order (commercialOrder data s)] ++ more) db :=
        ⟨fun h ha hI => (written_stable _).others h ha hI, fun hL h => (written_stable _).locks hL h⟩
      obtain ⟨e, he, hpk⟩ := hsome (by simpa using hne)
      refine wp_enqueue hmore hwritten fun db₆ h₆ => written_done (h₆.announce rfl ⟨e, ?_, hpk⟩)
      rw [inserted_append]
      exact List.mem_append_right _ he

theorem createCommercialOrder_safe (data : CommercialOrderCreate) (userUuid : String) (s : Stamp)
    (stamps : Stamps) (hne : data.dispatches ≠ []) (hpos : ∀ item ∈ data.dispatches, 0 < item.quantity)
    (hI : Inv db) :
    rules.Safe (createCommercialOrder data userUuid s stamps >>= fun _ => pure ()) ∅ [] db := by
  unfold createCommercialOrder lockIdempotencyKeys
  split
  · exact Rules.wp_fail _
  · rw [Prog.bind_assoc]
    refine wp_acquireAll start_stable (Written.start hI) fun M db₁ _ hlocks h₁ => ?_
    have hlock := hlocks _ (mem_lockIdempotencyKeys List.mem_cons_self)
    rw [Prog.bind_assoc]
    have hstart := start_stable.and (new_order_stable data.orderId)
    refine wp_query start_stable h₁ fun db₂ db₃ _ h₃ ha₃ hI₃ => ?_
    split
    · rename_i existing _
      unfold repeatOrder
      rw [Prog.bind_assoc]
      refine wp_acquire start_stable h₃ fun db₄ h₄ => ?_
      rw [Prog.bind_assoc]
      refine wp_query start_stable h₄ fun db₅ db₆ _ h₆ _ _ => ?_
      split
      · exact Rules.wp_fail _
      · split
        · exact written_done h₆
        · exact Rules.wp_fail _
    · rename_i hnone
      have hnew : data.orderId ∉ db₃.orders.filterMap orderKey := by
        refine ha₃.orders _ hlock fun hmem => ?_
        obtain ⟨o, ho, hkey⟩ := List.mem_filterMap.1 hmem
        rw [orderKey, Option.some.injEq] at hkey
        have hno := List.find?_eq_none.1 hnone o ho
        simp [hkey] at hno
      rw [Prog.bind_assoc]
      refine wp_query hstart ⟨h₃, hlock, hnew⟩ fun db₄ db₅ _ h₅ _ _ => ?_
      split
      · exact Rules.wp_fail _
      · refine placeOrder_safe data userUuid s stamps hne hpos h₅.1 hlock (fun item hitem => ?_) h₅.2.2
        exact hlocks _ (mem_lockIdempotencyKeys (List.mem_cons_of_mem _ (List.mem_map_of_mem hitem)))

/-- What is new of a request is a part of it. -/
theorem mem_of_newItems {existing : List StockExit} {orderPk : Int} {item : Dispatch} :
    ∀ {dispatches items : List Dispatch}, newItems existing orderPk dispatches = .ok items →
      item ∈ items → item ∈ dispatches
  | [], items, h, hitem => by
    rw [newItems, Except.ok.injEq] at h
    subst h
    cases hitem
  | d :: rest, items, h, hitem => by
    rw [newItems] at h
    split at h
    · cases hrest : newItems existing orderPk rest with
      | error e =>
        rw [hrest] at h
        cases h
      | ok more =>
        rw [hrest] at h
        cases h
        rcases List.mem_cons.1 hitem with rfl | hitem
        · exact List.mem_cons_self
        · exact List.mem_cons_of_mem _ (mem_of_newItems hrest hitem)
    · split at h
      · exact List.mem_cons_of_mem _ (mem_of_newItems h hitem)
      · cases h

theorem appendDispatches_safe {order : CommercialOrder} {items : List Dispatch} (userUuid : String)
    (now : Int) (stamps : Stamps) (hpos : ∀ item ∈ items, 0 < item.quantity) (h : Written [] L [] db)
    (horder : order ∈ db.orders) (hlocks : ∀ item ∈ items, .advisory (advisoryKey item.dispatchId) ∈ L) :
    rules.Safe (appendDispatches order items userUuid now stamps >>= fun _ => pure ()) L [] db := by
  have hkept : rules.Stable fun (L : Set Lock) (_ : List Write) db => order ∈ db.orders :=
    ⟨fun h ha _ => ha.kept _ h, fun _ h => h⟩
  have hstart := start_stable.and hkept
  unfold appendDispatches
  rw [Prog.bind_assoc]
  refine wp_validateOrderSkus hstart ⟨h, horder⟩ fun M db₁ skus hM h₁ hsuits => ?_
  have hfound := hstart.and (found_stable skus)
  unfold addOrderDispatches
  rw [Prog.bind_assoc, Prog.bind_assoc]
  refine wp_runningStock hfound h₁ (fun sku hsku => (h₁.2 sku hsku).1) fun db₂ running h₂ => ?_
  refine wp_addDispatches hsuits (fun item hitem => hpos item (mem_sortedBy.1 hitem))
    ⟨h₂.1.1.1, h₂.1.2, h₂.2, fun item hitem => hM (hlocks item (mem_sortedBy.1 hitem)), ?_⟩
    fun db₃ more result hwritten _ => written_done hwritten
  exact List.mem_append_left _ h₂.1.1.2

theorem appendCommercialOrderDispatches_safe (data : DispatchAppend) (userUuid : String) (now : Int)
    (stamps : Stamps) (hpos : ∀ item ∈ data.dispatches, 0 < item.quantity) (hI : Inv db) :
    rules.Safe (appendCommercialOrderDispatches data userUuid now stamps >>= fun _ => pure ()) ∅ [] db := by
  unfold appendCommercialOrderDispatches lockIdempotencyKeys
  split
  · exact Rules.wp_fail _
  · rw [Prog.bind_assoc]
    refine wp_acquireAll start_stable (Written.start hI) fun M db₁ _ hlocks h₁ => ?_
    rw [Prog.bind_assoc]
    refine wp_query start_stable h₁ fun db₂ db₃ _ h₃ ha₃ hI₃ => ?_
    split
    · exact Rules.wp_fail _
    · rename_i order hfind
      have horder : order ∈ db₃.orders := ha₃.kept _ (List.mem_of_find?_eq_some hfind)
      have hkept : rules.Stable fun (L : Set Lock) (_ : List Write) db => order ∈ db.orders :=
        ⟨fun h ha _ => ha.kept _ h, fun _ h => h⟩
      have hstart := start_stable.and hkept
      rw [Prog.bind_assoc]
      refine wp_acquire hstart ⟨h₃, horder⟩ fun db₄ h₄ => ?_
      rw [Prog.bind_assoc]
      refine wp_query hstart h₄ fun db₅ db₆ _ h₆ _ _ => ?_
      split
      · exact Rules.wp_fail _
      · rw [Prog.bind_assoc]
        exact wp_query start_stable h₆.1 fun db₇ db₈ _ h₈ _ _ => written_done h₈
      · rename_i items _ hitems
        refine appendDispatches_safe userUuid now stamps
          (fun item hitem => hpos item (mem_of_newItems hitems hitem)) h₆.1 h₆.2 fun item hitem => ?_
        exact Set.mem_insert_of_mem _ (hlocks _ (mem_lockIdempotencyKeys
          (List.mem_cons_of_mem _ (List.mem_map_of_mem (mem_of_newItems hitems hitem)))))

end Commands

end TrackFlow.Inventory.Books
