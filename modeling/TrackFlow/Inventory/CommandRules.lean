import TrackFlow.Inventory.Movements

/-!
# Rules for the parts of commands

One rule for each function that the commands are made of: a statement, the writing of an exit, the locking
of SKUs and reading of their stock, and the loop over the dispatches of an order (`wp_addDispatches`).
-/

namespace TrackFlow.Inventory.Books

open TrackFlow.Python TrackFlow.ReadCommitted TrackFlow.Balances
open TrackFlow.Pipelines (OutboxRow canonicalTelemetryWarehouse)
open CommandLocks (Lock advisoryKey)

variable {db db' : Tables} {own : List Write} {L M : Set Lock} {pending : List CommercialOrder} {id : Int}

/-! ## Statements -/

section Statements

variable {sku : Sku} {s : Stamp} {before : Int} {row : StockExit} {event : Option OutboxRow}
variable {α β : Type} {B : Set Lock → Tables → Prop} {Q : β → Set Lock → List Write → Tables → Prop}

/-- What does not depend on what is written. -/
theorem still {P : Set Lock → List Write → Tables → Prop} (hs : rules.Stable P) (hp : P L [] db)
    (ha : Agree L db db') (hI : Inv db') : P L [] db' := hs.others hp ha hI

theorem still_locked {P : Set Lock → List Write → Tables → Prop} (hs : rules.Stable P) (hLM : L ⊆ M)
    (hp : P L [] db) : P M [] db := hs.locks hLM hp

/-- An assertion about what has been written, which only the transaction itself changes. -/
theorem stable_at (hB : rules.Stable fun L _ db => B L db) (own : List Write) :
    rules.Stable fun L ws db => ws = own ∧ B L db :=
  ⟨fun hp ha hI => ⟨hp.1, still hB hp.2 ha hI⟩, fun hL hp => ⟨hp.1, still_locked hB hL hp.2⟩⟩

/-- A SELECT. -/
theorem wp_query {own : List Write} (hB : rules.Stable fun L _ db => B L db) (hp : B L db)
    {g : Tables → α} {f : α → Txn β}
    (h : ∀ db₁ db₂, B L db₁ → B L db₂ → Agree L db₁ db₂ → Inv db₂ →
      rules.wp (f (g (schema.applyAll db₁ own))) Q L own db₂) :
    rules.wp (Prog.query g >>= f) Q L own db :=
  Rules.wp_bind (Rules.wp_query (stable_at hB own) ⟨rfl, hp⟩ fun db₁ db₂ h₁ h₂ ha hI =>
    h db₁ db₂ h₁.2 h₂.2 ha hI)

/-- A lock. -/
theorem wp_acquire {own : List Write} (hB : rules.Stable fun L _ db => B L db) (hp : B L db) {l : Lock}
    {f : Unit → Txn β} (h : ∀ db', B (insert l L) db' → rules.wp (f ()) Q (insert l L) own db') :
    rules.wp (Prog.acquire l >>= f) Q L own db :=
  Rules.wp_bind (Rules.wp_acquire (stable_at hB own) ⟨rfl, hp⟩ fun db' h' => h db' h'.2)

/-- A row. -/
theorem wp_put {own : List Write} (hB : rules.Stable fun L _ db => B L db) (hp : B L db) {w : Write}
    {f : Unit → Txn β}
    (h : ∀ db', B L db' → Inv db' → acceptsWrite (schema.applyAll db' own) w = true → guard w ⊆ L ∧
      InForce db' w ∧ ∀ db'', B L db'' → Agree L db' db'' → Inv db'' →
        rules.wp (f ()) Q L (own ++ [w]) db'') :
    rules.wp (Prog.put w >>= f) Q L own db := by
  refine Rules.wp_bind ?_
  intro db₁ ha₁ hI₁ haccepts
  have h₁ := still hB hp ha₁ hI₁
  obtain ⟨hguard, hforce, hrest⟩ := h db₁ h₁ hI₁ haccepts
  exact ⟨hguard, hforce, fun db₂ ha₂ hI₂ => hrest db₂ (still hB h₁ ha₂ hI₂) ha₂ hI₂⟩

/-- `enqueue_inventory_event`: it raises, or it writes the row. -/
theorem wp_enqueue {own : List Write} (hB : rules.Stable fun L _ db => B L db) (hp : B L db)
    {row : OutboxRow} {f : Unit → Txn β}
    (h : ∀ db', B L db' → rules.wp (f ()) Q L (own ++ [.outbox row]) db') :
    rules.wp (enqueueInventoryEvent row >>= f) Q L own db := by
  unfold enqueueInventoryEvent
  split
  · exact Rules.wp_fail _
  · exact wp_put hB hp fun db₁ _ _ _ => ⟨Set.empty_subset _, trivial, fun db₂ h₂ _ _ => h db₂ h₂⟩

theorem wp_thresholdEvent {own : List Write} {after : Int} (hB : rules.Stable fun L _ db => B L db)
    (hp : B L db) {f : Option OutboxRow → Txn β}
    (h : ∀ db' event, B L db' → Decided sku s before after event →
      rules.wp (f event) Q L (own ++ event.toList.map .outbox) db') :
    rules.wp (thresholdEvent sku s before after >>= f) Q L own db := by
  unfold thresholdEvent
  have hquiet : Decided sku s before after none → rules.wp (f none) Q L own db := fun hdecided => by
    have hnone := h db none hp hdecided
    rwa [Option.toList_none, List.map_nil, List.append_nil] at hnone
  cases ht : sku.minimumStockThreshold with
  | none =>
    refine Rules.wp_start fun db₁ ha hI => Rules.wp_others (hquiet ?_) ha
    exact .quiet fun t h => by rw [ht] at h; cases h
  | some t =>
    simp only
    split
    · rename_i hno
      refine Rules.wp_start fun db₁ ha hI => Rules.wp_others (hquiet ?_) ha
      exact .quiet fun t' h' => by
        rw [ht, Option.some.injEq] at h'
        exact h' ▸ hno
    · rename_i hcross
      rw [not_not] at hcross
      split
      · rename_i warehouse clientId hwarehouse hclient
        rw [Prog.bind_assoc]
        refine wp_enqueue hB hp fun db₁ h₁ => ?_
        refine h db₁ (some (crossingEvent sku s warehouse clientId after t)) h₁ ?_
        exact .crossed ht hcross.1 hcross.2 hwarehouse (Option.filter_eq_some_iff.1 hclient).1
      · exact Rules.wp_fail _

/-- An exit of an open transaction. -/
theorem wp_writeExit {own : List Write} (hB : rules.Stable fun L _ db => B L db) (hp : B L db)
    (hexit : ExitOf sku s row)
    (hready : ∀ db', B L db' → Written pending L own db' ∧ ExitReady own sku before row L db')
    {f : Option OutboxRow → Txn β}
    (h : ∀ db' event, B L db' → Written pending L (own ++ exitWrites sku s before row event) db' →
      rules.wp (f event) Q L (own ++ exitWrites sku s before row event) db') :
    rules.wp (writeExit sku s before row >>= f) Q L own db := by
  unfold writeExit
  rw [Prog.bind_assoc]
  refine wp_put hB hp fun db₁ h₁ hI₁ haccepts => ?_
  obtain ⟨hwritten₁, hready₁⟩ := hready db₁ h₁
  refine ⟨?_, trivial, fun db₂ h₂ ha₂ hI₂ => ?_⟩
  · rintro l (rfl | ⟨u, hu, rfl⟩)
    · exact hexit.skuId ▸ hready₁.lock
    · exact hready₁.dispatch u hu
  -- The dispatch id is new when the exit is written, and its lock keeps it so.
  let New : Set Lock → Tables → Prop := fun L db => ∀ u, row.dispatchId = some u →
    .advisory (advisoryKey u) ∈ L ∧ u ∉ (db.exits ++ (inserted own).exits).filterMap StockExit.dispatchId
  have hnew₁ : New L db₁ := by
    intro u hu
    refine ⟨hready₁.dispatch u hu, fun hmem => ?_⟩
    obtain ⟨e, he, hkey⟩ := List.mem_filterMap.1 hmem
    simp only [acceptsWrite, decide_eq_true_eq] at haccepts
    have hview : e ∈ (schema.applyAll db₁ own).exits := by
      rw [applyAll_tables]
      exact he
    exact haccepts.2.2.2.1 e hview (by rw [hu]; rfl) (hkey.trans hu.symm)
  have hnew : rules.Stable fun L _ db => New L db := by
    refine ⟨fun hp ha _ u hu => ⟨(hp u hu).1, ?_⟩, fun hL hp u hu => ⟨hL (hp u hu).1, (hp u hu).2⟩⟩
    obtain ⟨hlock, hu'⟩ := hp u hu
    rw [List.filterMap_append, List.mem_append, not_or] at hu' ⊢
    exact ⟨ha.dispatches u hlock hu'.1, hu'.2⟩
  have hBN := hB.and hnew
  rw [Prog.bind_assoc]
  refine wp_thresholdEvent hBN ⟨h₂, still hnew hnew₁ ha₂ hI₂⟩ fun db₃ event h₃ hdecided => ?_
  rw [Prog.bind_assoc]
  refine wp_put hBN h₃ fun db₄ h₄ hI₄ haccepts₄ => ?_
  obtain ⟨hwritten₄, hready₄⟩ := hready db₄ h₄.1
  simp only [acceptsWrite, decide_eq_true_eq] at haccepts₄
  obtain ⟨-, -, -, hbefore, hafter, -⟩ := haccepts₄
  refine ⟨?_, ⟨sku, hready₄.found, rfl⟩, fun db₅ h₅ _ _ => ?_⟩
  · rintro l rfl
    exact hready₄.lock
  · obtain ⟨hwritten₅, hready₅⟩ := hready db₅ h₅.1
    have hafter₅ := hwritten₅.exit hready₅ hexit hdecided (fun u hu => (h₅.2 u hu).2) hbefore hafter
    have hown : own ++ [.exit row] ++ event.toList.map .outbox ++
        [.evaluation (exitEvaluation sku s before row event)] =
          own ++ exitWrites sku s before row event := by
      simp [exitWrites]
    show rules.wp (f event) Q L (own ++ [.exit row] ++ event.toList.map .outbox ++
      [.evaluation (exitEvaluation sku s before row event)]) db₅
    rw [hown]
    exact h db₅ event h₅.1 hafter₅

end Statements

/-! ## SKUs and their stock -/

section Stock

variable {β : Type} {B : Set Lock → Tables → Prop} {Q : β → Set Lock → List Write → Tables → Prop}

/-- The SKUs that a command has found and locked. -/
def Found (skus : List Sku) (L : Set Lock) (db : Tables) : Prop :=
  ∀ sku ∈ skus, .sku sku.id ∈ L ∧ db.sku sku.id = some sku

theorem found_stable (skus : List Sku) : rules.Stable fun L _ db => Found skus L db :=
  ⟨fun hp ha _ sku hsku => ⟨(hp sku hsku).1, ha.sku _ _ (hp sku hsku).1 (hp sku hsku).2⟩,
    fun hL hp sku hsku => ⟨hL (hp sku hsku).1, (hp sku hsku).2⟩⟩

theorem wp_acquireAll {own : List Write} (hB : rules.Stable fun L _ db => B L db) {f : Unit → Txn β} :
    ∀ {ls : List Lock} {L : Set Lock} {db : Tables}, B L db →
      (∀ M db', L ⊆ M → (∀ l ∈ ls, l ∈ M) → B M db' → rules.wp (f ()) Q M own db') →
      rules.wp (acquireAll ls >>= f) Q L own db
  | [], L, db, hp, h => h L db subset_rfl (by simp) hp
  | l :: ls, L, db, hp, h => by
    unfold acquireAll
    rw [Prog.bind_assoc]
    refine wp_acquire hB hp fun db₁ h₁ => wp_acquireAll hB h₁ fun M db₂ hM hls h₂ => ?_
    refine h M db₂ ((Set.subset_insert _ _).trans hM) (fun l' hl' => ?_) h₂
    rcases List.mem_cons.1 hl' with rfl | hl'
    · exact hM (Set.mem_insert _ _)
    · exact hls l' hl'

theorem wp_lockRows {own : List Write} (hB : rules.Stable fun L _ db => B L db) {f : Unit → Txn β} :
    ∀ {ids : List Int} {L : Set Lock} {db : Tables}, B L db →
      (∀ M db', L ⊆ M → (∀ id ∈ ids, .sku id ∈ M) → B M db' → rules.wp (f ()) Q M own db') →
      rules.wp (lockSkus.lockRows ids >>= f) Q L own db
  | [], L, db, hp, h => h L db subset_rfl (by simp) hp
  | id :: ids, L, db, hp, h => by
    unfold lockSkus.lockRows
    rw [Prog.bind_assoc]
    refine wp_acquire hB hp fun db₁ h₁ => wp_lockRows hB h₁ fun M db₂ hM hids h₂ => ?_
    refine h M db₂ ((Set.subset_insert _ _).trans hM) (fun id' hid' => ?_) h₂
    rcases List.mem_cons.1 hid' with rfl | hid'
    · exact hM (Set.mem_insert _ _)
    · exact hids id' hid'

/-- `_lock_skus`, before anything is written. -/
theorem wp_lockSkus (hB : rules.Stable fun L _ db => B L db) (hp : B L db) {ids : List Int}
    {f : List Sku → Txn β}
    (h : ∀ M db' skus, L ⊆ M → B M db' ∧ Found skus M db' → rules.wp (f skus) Q M [] db') :
    rules.wp (lockSkus ids >>= f) Q L [] db := by
  unfold lockSkus
  rw [Prog.bind_assoc]
  refine wp_lockRows hB hp fun M db₁ hM hids h₁ => ?_
  refine wp_query hB h₁ fun db₂ db₃ _ h₃ ha hI₃ => ?_
  refine h M db₃ _ hM ⟨h₃, still (found_stable _) (fun sku hsku => ?_) ha hI₃⟩
  obtain ⟨id, hid, hsku⟩ := List.mem_filterMap.1 hsku
  have hsku' : db₂.sku id = some sku := hsku
  rw [sku_id hsku']
  exact ⟨hids id hid, hsku'⟩

/-- The stock of a locked SKU, as the transaction sees it. -/
theorem stock_agree {own : List Write} (ha : Agree L db db') (hid : .sku id ∈ L) (warehouse : String) :
    stock (schema.applyAll db' own) id warehouse = stock (schema.applyAll db own) id warehouse := by
  rw [stock_applyAll, stock_applyAll, (ha.rows id hid).stock]

/-- `get_current_stock` of a locked SKU, whose two sums are of one moment. -/
theorem wp_getCurrentStock {own : List Write} (hB : rules.Stable fun L _ db => B L db) (hp : B L db)
    (hid : .sku id ∈ L) {warehouse : String} {f : Int → Txn β}
    (h : ∀ db', B L db' → rules.wp (f (stock (schema.applyAll db' own) id warehouse)) Q L own db') :
    rules.wp (getCurrentStock id warehouse >>= f) Q L own db := by
  unfold getCurrentStock
  rw [Prog.bind_assoc]
  refine wp_query hB hp fun db₁ db₂ _ h₂ ha₂ hI₂ => ?_
  have hentries : rules.Stable fun L (_ : List Write) db => .sku id ∈ L ∧
      entrySum (schema.applyAll db own) id warehouse = entrySum (schema.applyAll db₁ own) id warehouse := by
    refine ⟨fun hp ha _ => ⟨hp.1, ?_⟩, fun hL hp => ⟨hL hp.1, hp.2⟩⟩
    rw [← hp.2, entrySum_applyAll, entrySum_applyAll, (ha.rows id hp.1).entrySum]
  rw [Prog.bind_assoc]
  have hboth := hB.and hentries
  refine wp_query hboth ⟨h₂, still hentries ⟨hid, rfl⟩ ha₂ hI₂⟩ fun db₃ db₄ _ h₄ ha₄ _ => ?_
  have hexits : exitSum (schema.applyAll db₄ own) id warehouse =
      exitSum (schema.applyAll db₃ own) id warehouse := by
    rw [exitSum_applyAll, exitSum_applyAll, (ha₄.rows id hid).exitSum]
  show rules.wp (f (entrySum (schema.applyAll db₁ own) id warehouse -
    exitSum (schema.applyAll db₃ own) id warehouse)) Q L own db₄
  rw [← hexits, ← h₄.2.2]
  exact h db₄ h₄.1

/-- `get_current_stock`, whatever it gives. -/
theorem wp_anyStock {own : List Write} (hB : rules.Stable fun L _ db => B L db) (hp : B L db)
    {warehouse : String} {f : Int → Txn β} (h : ∀ v db', B L db' → rules.wp (f v) Q L own db') :
    rules.wp (getCurrentStock id warehouse >>= f) Q L own db := by
  unfold getCurrentStock
  rw [Prog.bind_assoc]
  refine wp_query hB hp fun db₁ db₂ _ h₂ _ _ => ?_
  rw [Prog.bind_assoc]
  exact wp_query hB h₂ fun db₃ db₄ _ h₄ _ _ => h _ db₄ h₄

theorem wp_checkRequired {own : List Write} (hB : rules.Stable fun L _ db => B L db) {warehouse : String}
    {f : Unit → Txn β} : ∀ {pairs : List (Int × Int)} {db : Tables}, B L db →
      (∀ db', B L db' → rules.wp (f ()) Q L own db') →
      rules.wp (checkRequired warehouse pairs >>= f) Q L own db
  | [], db, hp, h => h db hp
  | (skuId, quantity) :: rest, db, hp, h => by
    unfold checkRequired
    rw [Prog.bind_assoc]
    refine wp_anyStock hB hp fun v db₁ h₁ => ?_
    split
    · exact Rules.wp_fail _
    · exact wp_checkRequired hB h₁ h

/-- The SKUs of an order are of its client and in its warehouse. -/
def Suits (clientId warehouse : String) (skus : List Sku) : Prop :=
  ∀ sku ∈ skus, sku.clientId = some clientId ∧ sku.warehouse = warehouse

/-- `_validate_order_skus`, before anything is written. -/
theorem wp_validateOrderSkus (hB : rules.Stable fun L _ db => B L db) (hp : B L db)
    {items : List Dispatch} {clientId warehouse : String} {f : List Sku → Txn β}
    (h : ∀ M db' skus, L ⊆ M → B M db' ∧ Found skus M db' → Suits clientId warehouse skus →
      rules.wp (f skus) Q M [] db') :
    rules.wp (validateOrderSkus items clientId warehouse >>= f) Q L [] db := by
  unfold validateOrderSkus
  rw [Prog.bind_assoc]
  refine wp_lockSkus hB hp fun M db₁ skus hM h₁ => ?_
  simp only
  split
  · exact Rules.wp_fail _
  · split
    · exact Rules.wp_fail _
    · rename_i hsuits
      rw [Prog.bind_assoc]
      have hboth := hB.and (found_stable skus)
      refine wp_checkRequired hboth h₁ fun db₂ h₂ => h M db₂ skus hM h₂ fun sku hsku => ?_
      simp only [List.any_eq_true, not_exists, not_and, decide_eq_true_eq, not_or, not_not] at hsuits
      exact hsuits sku hsku

/-- The balances that an order command keeps are those of its view. -/
def Running (own : List Write) (warehouse : String) (running : List (Int × Int)) (L : Set Lock)
    (db : Tables) : Prop :=
  ∀ p ∈ running, .sku p.1 ∈ L ∧ stock (schema.applyAll db own) p.1 warehouse = p.2

theorem running_stable (own : List Write) (warehouse : String) (running : List (Int × Int)) :
    rules.Stable fun L _ db => Running own warehouse running L db :=
  ⟨fun hp ha _ p hmem => ⟨(hp p hmem).1, (stock_agree ha (hp p hmem).1 _).trans (hp p hmem).2⟩,
    fun hL hp p hmem => ⟨hL (hp p hmem).1, (hp p hmem).2⟩⟩

theorem wp_runningStock {own : List Write} {warehouse : String} :
    ∀ {B : Set Lock → Tables → Prop} {skus : List Sku} {db : Tables} {f : List (Int × Int) → Txn β},
      rules.Stable (fun L _ db => B L db) → B L db → (∀ sku ∈ skus, .sku sku.id ∈ L) →
      (∀ db' running, B L db' ∧ Running own warehouse running L db' → rules.wp (f running) Q L own db') →
      rules.wp (runningStock warehouse skus >>= f) Q L own db
  | B, [], db, f, _, hp, _, h => h db [] ⟨hp, by simp [Running]⟩
  | B, sku :: skus, db, f, hB, hp, hL, h => by
    have hsku := hL sku List.mem_cons_self
    unfold runningStock
    rw [Prog.bind_assoc]
    refine wp_getCurrentStock hB hp hsku fun db₁ h₁ => ?_
    rw [Prog.bind_assoc]
    have hboth := hB.and (running_stable own warehouse
      [(sku.id, stock (schema.applyAll db₁ own) sku.id warehouse)])
    have hone :
        Running own warehouse [(sku.id, stock (schema.applyAll db₁ own) sku.id warehouse)] L db₁ := by
      intro p hp
      rw [List.mem_singleton.1 hp]
      exact ⟨hsku, rfl⟩
    refine wp_runningStock hboth ⟨h₁, hone⟩ (fun sku' h => hL sku' (List.mem_cons_of_mem _ h))
      fun db₂ rest h₂ => ?_
    refine h db₂ _ ⟨h₂.1.1, fun p hp => ?_⟩
    rcases List.mem_cons.1 hp with rfl | hp
    · exact h₂.1.2 _ List.mem_cons_self
    · exact h₂.2 p hp

end Stock

/-! ## Dispatches of an order -/

section Dispatches

variable {β : Type} {Q : β → Set Lock → List Write → Tables → Prop} {order : CommercialOrder}
  {skus : List Sku} {userUuid : String} {occurredAt : Int} {stamps : Stamps}

/-- What the loop over the dispatches relies on. -/
structure Dispatching (pending : List CommercialOrder) (order : CommercialOrder) (skus : List Sku)
    (items : List Dispatch) (running : List (Int × Int)) (own : List Write) (L : Set Lock) (db : Tables) :
    Prop where
  written : Written pending L own db
  found : Found skus L db
  running : Running own order.warehouse running L db
  dispatches : ∀ item ∈ items, .advisory (advisoryKey item.dispatchId) ∈ L
  order : order ∈ db.orders ++ (inserted own).orders

theorem dispatching_stable (pending : List CommercialOrder) (order : CommercialOrder) (skus : List Sku)
    (items : List Dispatch) (running : List (Int × Int)) (own : List Write) :
    rules.Stable fun L _ db => Dispatching pending order skus items running own L db where
  others h ha hI :=
    { written := (written_stable pending).others h.written ha hI
      found := still (found_stable skus) h.found ha hI
      running := still (running_stable own order.warehouse running) h.running ha hI
      dispatches := h.dispatches
      order := (List.mem_append.1 h.order).elim (fun ho => List.mem_append_left _ (ha.kept _ ho))
        fun ho => List.mem_append_right _ ho }
  locks hL h :=
    { written := (written_stable pending).locks hL h.written
      found := still_locked (found_stable skus) hL h.found
      running := still_locked (running_stable own order.warehouse running) hL h.running
      dispatches := fun item hitem => hL (h.dispatches item hitem)
      order := h.order }

/-- The balances after an exit. -/
theorem Running.exit {own : List Write} {running : List (Int × Int)} {sku : Sku} {s : Stamp} {before : Int}
    {row : StockExit} (event : Option OutboxRow) (h : Running own sku.warehouse running L db)
    (hexit : ExitOf sku s row) (hlock : .sku sku.id ∈ L)
    (hbefore : stock (schema.applyAll db own) sku.id sku.warehouse = before) :
    Running (own ++ exitWrites sku s before row event) sku.warehouse
      (setBalance running sku.id (before - row.quantity)) L db := by
  intro p hp
  obtain ⟨p', hp', hpair⟩ := List.mem_map.1 hp
  rw [Schema.applyAll_append, stock_applyAll, stock_exit hexit]
  by_cases hid : p'.1 = sku.id
  · rw [if_pos hid] at hpair
    subst hpair
    refine ⟨hlock, ?_⟩
    rw [if_pos ⟨rfl, rfl⟩, hbefore]
    rfl
  · rw [if_neg hid] at hpair
    subst hpair
    rw [if_neg fun h => hid h.1, add_zero]
    exact h p' hp'

/-- The loop of `_add_order_dispatches`. -/
theorem wp_addDispatches (hsuits : Suits order.clientId order.warehouse skus) :
    ∀ {items : List Dispatch} {k : Nat} {running : List (Int × Int)} {own : List Write} {db : Tables}
      {f : List StockExit × List OutboxRow → Txn β}, (∀ item ∈ items, 0 < item.quantity) →
      Dispatching pending order skus items running own L db →
      (∀ db' more result, Written pending L (own ++ more) db' →
        (items ≠ [] → ∃ e ∈ (inserted more).exits, e.commercialOrderId = some order.id) →
        rules.wp (f result) Q L (own ++ more) db') →
      rules.wp (addDispatches order skus userUuid occurredAt stamps k running items >>= f) Q L own db
  | [], k, running, own, db, f, _, hp, h => by
    have hnil := h db [] ([], []) (by rw [List.append_nil]; exact hp.written) fun hne => absurd rfl hne
    rwa [List.append_nil] at hnil
  | item :: items, k, running, own, db, f, hpos, hp, h => by
    unfold addDispatches
    have hB := dispatching_stable pending order skus (item :: items) running own
    split
    · rename_i skuId before sku hrunning hsku
      have hskuId : sku.id = item.skuId := by simpa using List.find?_some hsku
      have hp₁ : skuId = item.skuId := by simpa using List.find?_some hrunning
      have hmem := List.mem_of_find?_eq_some hsku
      have hwarehouse := (hsuits sku hmem).2
      subst hp₁
      have hbalance : ∀ {db'}, Dispatching pending order skus (item :: items) running own L db' →
          stock (schema.applyAll db' own) sku.id sku.warehouse = before := fun h => by
        rw [hskuId, hwarehouse]
        exact (h.running _ (List.mem_of_find?_eq_some hrunning)).2
      have hexit : ExitOf sku { stamps.stamp k with now := occurredAt }
          (dispatchExit order userUuid occurredAt (stamps.stamp k).id item) :=
        ⟨rfl, hskuId.symm, hwarehouse.symm, rfl, hpos item List.mem_cons_self⟩
      rw [Prog.bind_assoc]
      refine wp_writeExit hB hp hexit (fun db₁ h₁ => ⟨h₁.written, ?_⟩)
        fun db₁ event h₁ hwritten => ?_
      · refine ⟨(h₁.found sku hmem).1, (h₁.found sku hmem).2, hbalance h₁, fun u hu => ?_, fun pk hpk => ?_⟩
        · cases hu
          exact h₁.dispatches item List.mem_cons_self
        · cases hpk
          refine ⟨rfl, order, h₁.order, rfl, rfl, fixed sku, ?_, ?_⟩
          · show known db₁ item.skuId = some (fixed sku)
            rw [← hskuId]
            exact known_of_sku (h₁.found sku hmem).2
          · exact (hsuits sku hmem).1
      · rw [Prog.bind_assoc]
        have hrun : Running own sku.warehouse running L db₁ := hwarehouse ▸ h₁.running
        have hnext := hrun.exit event hexit (h₁.found sku hmem).1 (hbalance h₁)
        rw [hskuId, hwarehouse] at hnext
        refine wp_addDispatches hsuits (fun item' h' => hpos item' (List.mem_cons_of_mem _ h'))
          ⟨hwritten, h₁.found, hnext, fun item' h' => h₁.dispatches item' (List.mem_cons_of_mem _ h'), ?_⟩
          fun db₂ more result hwritten₂ _ => ?_
        · rw [inserted_append]
          rcases List.mem_append.1 h₁.order with ho | ho
          · exact List.mem_append_left _ ho
          · exact List.mem_append_right _ (List.mem_append_left _ ho)
        · rw [List.append_assoc] at hwritten₂ ⊢
          refine h db₂ _ _ hwritten₂ fun _ =>
            ⟨dispatchExit order userUuid occurredAt (stamps.stamp k).id item, ?_, rfl⟩
          rw [inserted_append, inserted_exitWrites]
          exact List.mem_append_left _ (List.mem_singleton_self _)
    · exact Rules.wp_fail _

end Dispatches

end TrackFlow.Inventory.Books
