import TrackFlow.Inventory.BookRules

/-!
# Open transactions

`Written` is what an open transaction has made of the books: its own rows belong together, and the
balances of its SKUs go on from those of the database. Others cannot break it (`written_stable`), and
when nothing is pending it gives the invariant at the COMMIT (`Written.keeps`).

Orders, counts and thresholds are written by `Written.order`, `.announce`, `.count` and `.threshold`.
-/

namespace TrackFlow.Inventory.Books

open TrackFlow.Python TrackFlow.ReadCommitted TrackFlow.Balances
open TrackFlow.Pipelines (OutboxRow canonicalTelemetryWarehouse)
open CommandLocks (Lock advisoryKey)

variable {db db' : Tables} {own : List Write} {L M : Set Lock} {pending : List CommercialOrder} {id : Int}

/-! ## Balances of open transactions -/

theorem history_append (a b : Tables) (id : Int) :
    history (append a b) id = history a id ++ history b id := by
  simp [history, append]

theorem history_applyAll (db : Tables) (ws : List Write) (id : Int) :
    history (schema.applyAll db ws) id = history db id ++ history (inserted ws) id := by
  rw [applyAll_tables, ← history_append]
  rfl

section Sums

variable (db : Tables) (ws : List Write) (id : Int) (warehouse : String)

theorem entrySum_applyAll : entrySum (schema.applyAll db ws) id warehouse =
    entrySum db id warehouse + entrySum (inserted ws) id warehouse := by
  rw [applyAll_tables]
  simp [entrySum, append]

theorem exitSum_applyAll : exitSum (schema.applyAll db ws) id warehouse =
    exitSum db id warehouse + exitSum (inserted ws) id warehouse := by
  rw [applyAll_tables]
  simp [exitSum, append]

theorem stock_applyAll : stock (schema.applyAll db ws) id warehouse =
    stock db id warehouse + stock (inserted ws) id warehouse := by
  simp only [stock, entrySum_applyAll, exitSum_applyAll]
  omega

end Sums

/-- The balances of a SKU depend on its rows. -/
theorem SameRows.history (h : SameRows id db db') : history db' id = history db id := by
  rw [Books.history, Books.history, h.evaluations]

theorem SameRows.entrySum (h : SameRows id db db') (warehouse : String) :
    entrySum db' id warehouse = entrySum db id warehouse := by
  have hrows : ∀ t : Tables, (t.entries.filter fun e => e.skuId = id ∧ e.warehouse = warehouse) =
      (t.entries.filter fun e => e.skuId = id).filter fun e => e.warehouse = warehouse := fun t => by
    rw [List.filter_filter]
    congr 1
    funext e
    simp [Bool.and_comm]
  rw [Inventory.entrySum, Inventory.entrySum, hrows, hrows, h.entries]

theorem SameRows.exitSum (h : SameRows id db db') (warehouse : String) :
    exitSum db' id warehouse = exitSum db id warehouse := by
  have hrows : ∀ t : Tables, (t.exits.filter fun e => e.skuId = id ∧ e.warehouse = warehouse) =
      (t.exits.filter fun e => e.skuId = id).filter fun e => e.warehouse = warehouse := fun t => by
    rw [List.filter_filter]
    congr 1
    funext e
    simp [Bool.and_comm]
  rw [Inventory.exitSum, Inventory.exitSum, hrows, hrows, h.exits]

theorem SameRows.stock (h : SameRows id db db') (warehouse : String) :
    stock db' id warehouse = stock db id warehouse := by
  rw [Inventory.stock, Inventory.stock, h.entrySum, h.exitSum]

/-- A transaction has no rows of a SKU that it has not locked. -/
theorem inserted_unlocked (h : ∀ w ∈ own, guard w ⊆ L) (hid : .sku id ∉ L) (warehouse : String) :
    history (inserted own) id = [] ∧ stock (inserted own) id warehouse = 0 := by
  have hentry : ∀ row ∈ (inserted own).entries, row.skuId ≠ id := by
    rintro row hrow rfl
    obtain ⟨w, hw, hmem⟩ := List.mem_flatMap.1 hrow
    cases w <;> simp only [entryRows, List.mem_singleton, List.not_mem_nil] at hmem
    subst hmem
    exact hid (h _ hw rfl)
  have hexit : ∀ row ∈ (inserted own).exits, row.skuId ≠ id := by
    rintro row hrow rfl
    obtain ⟨w, hw, hmem⟩ := List.mem_flatMap.1 hrow
    cases w <;> simp only [exitRows, List.mem_singleton, List.not_mem_nil] at hmem
    subst hmem
    exact hid (h _ hw (Or.inl rfl))
  have hevaluation : ∀ e ∈ (inserted own).evaluations, e.skuId ≠ id := by
    rintro e he rfl
    obtain ⟨w, hw, hmem⟩ := List.mem_flatMap.1 he
    cases w <;> simp only [evaluationRows, List.mem_singleton, List.not_mem_nil] at hmem
    subst hmem
    exact hid (h _ hw rfl)
  exact no_rows hentry hexit hevaluation warehouse

/-! ## What an open transaction has written -/

/-- The rows of an open transaction. The orders in `pending` have no message yet. -/
structure Written (pending : List CommercialOrder) (L : Set Lock) (own : List Write) (db : Tables) :
    Prop where
  inv : Inv db
  guarded : ∀ w ∈ own, guard w ⊆ L
  kept : Kept (known db) (inserted own)
  announced : Announced pending (inserted own)
  balanced : Balanced (schema.applyAll db own) (known db)
  orders : Fresh orderKey (inserted own).orders db.orders
  dispatches : Fresh StockExit.dispatchId (inserted own).exits db.exits
  counts : Fresh countKey (inserted own).counts db.counts
  clients : ∀ e ∈ (inserted own).exits, OfClient (known db) (db.orders ++ (inserted own).orders) e
  dispatched : ∀ o ∈ (inserted own).orders, o ∈ pending ∨
    ∃ e ∈ (inserted own).exits, e.commercialOrderId = some o.id

theorem Kept.empty (f : Int → Option Sku) (skus : List Sku) : Kept f { skus } where
  entries := .nil
  exits := .nil
  evaluations _ he := by cases he
  crossings := .nil
  inbound := .nil
  discrepancies := .nil
  counts _ hc := by cases hc
  pairs _ hm := by cases hm

/-- Nothing is written yet. -/
theorem Written.start (h : Inv db) : Written [] L [] db where
  inv := h
  guarded := by simp
  kept := Kept.empty _ _
  announced := ⟨[], rfl, .nil⟩
  balanced := h.balanced
  orders := Fresh.nil
  dispatches := Fresh.nil
  counts := Fresh.nil
  clients e he := by cases he
  dispatched o ho := by cases ho

theorem mem_inserted_orders {o : CommercialOrder} (h : o ∈ (inserted own).orders) : .order o ∈ own := by
  obtain ⟨w, hw, hmem⟩ := List.mem_flatMap.1 h
  cases w <;> simp only [orderRows, List.mem_singleton, List.not_mem_nil] at hmem
  exact hmem ▸ hw

theorem mem_inserted_exits {e : StockExit} (h : e ∈ (inserted own).exits) : .exit e ∈ own := by
  obtain ⟨w, hw, hmem⟩ := List.mem_flatMap.1 h
  cases w <;> simp only [exitRows, List.mem_singleton, List.not_mem_nil] at hmem
  exact hmem ▸ hw

theorem mem_inserted_counts {c : PhysicalCount} (h : c ∈ (inserted own).counts) : .count c ∈ own := by
  obtain ⟨w, hw, hmem⟩ := List.mem_flatMap.1 h
  cases w <;> simp only [countRows, List.mem_singleton, List.not_mem_nil] at hmem
  exact hmem ▸ hw

/-- Others cannot break what an open transaction has written. -/
theorem written_stable (pending : List CommercialOrder) : rules.Stable (Written pending) where
  others := by
    intro L own db db' h ha hI
    refine ⟨hI, h.guarded, h.kept.known ha.known, h.announced, fun id sku hsku => ?_, ?_, ?_, ?_, ?_,
      h.dispatched⟩
    · rw [history_applyAll, stock_applyAll]
      cases hold : known db id with
      | none =>
        obtain ⟨hhistory, hzero⟩ := h.kept.unmoved hold sku.warehouse
        rw [hhistory, hzero, List.append_nil, add_zero]
        exact hI.balanced id sku hsku
      | some sku' =>
        rw [ha.known id sku' hold, Option.some.injEq] at hsku
        subst hsku
        by_cases hL : Lock.sku id ∈ L
        · rw [(ha.rows id hL).history, (ha.rows id hL).stock, ← history_applyAll, ← stock_applyAll]
          exact h.balanced id sku' hold
        · obtain ⟨hhistory, hzero⟩ := inserted_unlocked h.guarded hL sku'.warehouse
          rw [hhistory, hzero, List.append_nil, add_zero]
          exact hI.balanced id sku' (ha.known id sku' hold)
    · refine h.orders.mono fun u hu => ?_
      obtain ⟨o, ho, hkey⟩ := List.mem_filterMap.1 hu
      have hlock := h.guarded _ (mem_inserted_orders ho) rfl
      rw [orderKey, Option.some.injEq] at hkey
      exact ha.orders u (hkey ▸ hlock)
    · refine h.dispatches.mono fun u hu => ?_
      obtain ⟨e, he, hkey⟩ := List.mem_filterMap.1 hu
      exact ha.dispatches u (h.guarded _ (mem_inserted_exits he) (Or.inr ⟨u, hkey, rfl⟩))
    · refine h.counts.mono fun u hu => ?_
      obtain ⟨c, hc, hkey⟩ := List.mem_filterMap.1 hu
      have hlock := h.guarded _ (mem_inserted_counts hc) rfl
      rw [countKey, Option.some.injEq] at hkey
      exact ha.counts u (hkey ▸ hlock)
    · intro e he pk hpk
      obtain ⟨hdispatch, o, ho, hid, hwarehouse, sku, hsku, hclient⟩ := h.clients e he pk hpk
      refine ⟨hdispatch, o, ?_, hid, hwarehouse, sku, ha.known _ _ hsku, hclient⟩
      rcases List.mem_append.1 ho with ho | ho
      · exact List.mem_append_left _ (ha.kept o ho)
      · exact List.mem_append_right _ ho
  locks hLM h := { (h : Written pending _ _ _) with guarded := fun w hw => (h.guarded w hw).trans hLM }

/-- The thresholds make no difference. -/
theorem Kept.thresholds {f : Int → Option Sku} (h : Kept f db) (skus : List Sku) :
    Kept f { db with skus } :=
  ⟨h.entries, h.exits, h.evaluations, h.crossings, h.inbound, h.discrepancies, h.counts, h.pairs⟩

theorem ids_applyAll (db : Tables) (ws : List Write) :
    (schema.applyAll db ws).skus.map Sku.id = db.skus.map Sku.id := by
  induction ws generalizing db with
  | nil => rfl
  | cons w ws ih =>
    rw [Schema.applyAll_cons, ih]
    cases w with
    | threshold sku value =>
      simp only [schema, applyWrite, List.map_map]
      congr 1
      funext s
      simp only [Function.comp_apply]
      split <;> rfl
    | _ => rfl

/-- The COMMIT of a transaction that leaves nothing pending. -/
theorem Written.keeps (h : Written [] L own db) : Inv (schema.applyAll db own) where
  ids := by
    rw [ids_applyAll]
    exact h.inv.ids
  kept := by
    rw [known_applyAll, applyAll_tables]
    exact (h.inv.kept.append h.kept).thresholds _
  announced := by
    rw [applyAll_tables]
    exact h.inv.announced.append h.announced
  balanced := by
    rw [known_applyAll]
    exact h.balanced
  orders := by
    rw [applyAll_tables]
    exact h.orders.append h.inv.orders
  dispatches := by
    rw [applyAll_tables]
    exact h.dispatches.append h.inv.dispatches
  counts := by
    rw [applyAll_tables]
    exact h.counts.append h.inv.counts
  clients e he := by
    rw [known_applyAll]
    rw [applyAll_tables] at he ⊢
    rcases List.mem_append.1 he with he | he
    · intro pk hpk
      obtain ⟨hdispatch, o, ho, hrest⟩ := h.inv.clients e he pk hpk
      exact ⟨hdispatch, o, List.mem_append_left _ ho, hrest⟩
    · exact h.clients e he
  dispatched o ho := by
    rw [applyAll_tables] at ho ⊢
    rcases List.mem_append.1 ho with ho | ho
    · obtain ⟨e, he, hpk⟩ := h.inv.dispatched o ho
      exact ⟨e, List.mem_append_left _ he, hpk⟩
    · obtain ⟨e, he, hpk⟩ := (h.dispatched o ho).resolve_left List.not_mem_nil
      exact ⟨e, List.mem_append_right _ he, hpk⟩

/-! ## Movements -/

/-- More rows, about no order. -/
theorem Written.more (ws : List Write) (h : Written pending L own db) (hguard : ∀ w ∈ ws, guard w ⊆ L)
    (hkept : Kept (known db) (inserted ws)) (horders : (inserted ws).orders = [])
    (hmessages : messages "outbound_order_created" (inserted ws) = [])
    (hbalanced : Balanced (schema.applyAll db (own ++ ws)) (known db))
    (hdispatches : Fresh StockExit.dispatchId (inserted (own ++ ws)).exits db.exits)
    (hcounts : Fresh countKey (inserted (own ++ ws)).counts db.counts)
    (hclients : ∀ e ∈ (inserted ws).exits, OfClient (known db) (db.orders ++ (inserted own).orders) e) :
    Written pending L (own ++ ws) db where
  inv := h.inv
  guarded w hw := by
    rcases List.mem_append.1 hw with hw | hw
    · exact h.guarded w hw
    · exact hguard w hw
  kept := by
    rw [inserted_append]
    exact h.kept.append hkept
  announced := by
    rw [inserted_append]
    exact h.announced.more horders hmessages
  balanced := hbalanced
  orders := by
    rw [inserted_append, append, horders, List.append_nil]
    exact h.orders
  dispatches := hdispatches
  counts := hcounts
  clients e he := by
    rw [inserted_append, append] at he ⊢
    rw [horders, List.append_nil]
    rcases List.mem_append.1 he with he | he
    · exact h.clients e he
    · exact hclients e he
  dispatched o ho := by
    rw [inserted_append, append, horders, List.append_nil] at ho
    rw [inserted_append]
    rcases h.dispatched o ho with hpending | ⟨e, he, hpk⟩
    · exact Or.inl hpending
    · exact Or.inr ⟨e, List.mem_append_left _ he, hpk⟩

/-- One more step of the balance of a SKU. -/
theorem Balanced.step (ws : List Write) {sku : Sku} {before after : Int}
    (h : Balanced (schema.applyAll db own) (known db)) (hsku : db.sku sku.id = some sku)
    (hbefore : stock (schema.applyAll db own) sku.id sku.warehouse = before)
    (hhistory : ∀ id, history (inserted ws) id = if id = sku.id then [(before, after)] else [])
    (hstock : ∀ id, stock (inserted ws) id sku.warehouse = if id = sku.id then after - before else 0)
    (hother : ∀ id warehouse, id ≠ sku.id → stock (inserted ws) id warehouse = 0) :
    Balanced (schema.applyAll db (own ++ ws)) (known db) := by
  intro id sku' hsku'
  have hrun := h id sku' hsku'
  rw [Schema.applyAll_append, history_applyAll, stock_applyAll, hhistory]
  by_cases hid : id = sku.id
  · subst hid
    rw [known_of_sku hsku, Option.some.injEq] at hsku'
    have hwarehouse : sku'.warehouse = sku.warehouse := by rw [← hsku']; rfl
    rw [hwarehouse, hbefore] at hrun ⊢
    rw [if_pos rfl, hstock, if_pos rfl, show before + (after - before) = after by omega]
    exact runs_snoc hrun
  · rw [if_neg hid, hother id _ hid, List.append_nil, add_zero]
    exact hrun

/-! ## Rows that move nothing -/

section Still

/-- Rows that move nothing leave the balances. -/
theorem Balanced.still (ws : List Write) (h : Balanced (schema.applyAll db own) (known db))
    (hentries : (inserted ws).entries = []) (hexits : (inserted ws).exits = [])
    (hevaluations : (inserted ws).evaluations = []) :
    Balanced (schema.applyAll db (own ++ ws)) (known db) := by
  intro id sku hsku
  obtain ⟨hhistory, hzero⟩ : history (inserted ws) id = [] ∧ stock (inserted ws) id sku.warehouse = 0 :=
    no_rows (by rw [hentries]; simp) (by rw [hexits]; simp) (by rw [hevaluations]; simp) _
  rw [Schema.applyAll_append, history_applyAll, stock_applyAll, hhistory, hzero, List.append_nil, add_zero]
  exact h id sku hsku

/-- A new threshold. -/
theorem Written.threshold (h : Written [] L [] db) {sku : Int} (hlock : .sku sku ∈ L) (value : Option Int) :
    Written [] L [.threshold sku value] db := by
  have hempty : inserted [.threshold sku value] = { skus := [] } := rfl
  refine h.more [.threshold sku value] (fun w hw => ?_) (hempty ▸ Kept.empty _ _) rfl rfl
    (h.balanced.still _ rfl rfl rfl) Fresh.nil Fresh.nil fun e he => by cases he
  rw [List.mem_singleton.1 hw]
  rintro l rfl
  exact hlock

/-- An order whose dispatches and message are still to come. -/
theorem Written.order (h : Written [] L [] db) {o : CommercialOrder}
    (hlock : .advisory (advisoryKey o.orderId) ∈ L) (hnew : o.orderId ∉ db.orders.filterMap orderKey) :
    Written [o] L [.order o] db where
  inv := h.inv
  guarded w hw := by
    rw [List.mem_singleton.1 hw]
    rintro l rfl
    exact hlock
  kept := ⟨.nil, .nil, fun _ he => (by cases he), .nil, .nil, .nil, fun _ hc => (by cases hc),
    fun _ hm => (by cases hm)⟩
  announced := ⟨[], rfl, .nil⟩
  balanced := h.balanced.still [.order o] rfl rfl rfl
  orders := by
    show Fresh orderKey ([] ++ [o]) db.orders
    refine Fresh.nil.snoc fun u hu => ?_
    rw [orderKey, Option.some.injEq] at hu
    rw [List.append_nil]
    exact hu ▸ hnew
  dispatches := Fresh.nil
  counts := Fresh.nil
  clients e he := by cases he
  dispatched o' ho' := Or.inl ho'

/-- The message of the order, once it has a dispatch. -/
theorem Written.announce {o : CommercialOrder} {s : Stamp} (h : Written [o] L own db)
    (htime : s.now = o.createdAt)
    (hdispatched : ∃ e ∈ (inserted own).exits, e.commercialOrderId = some o.id) :
    Written [] L (own ++ [.outbox (outboundEvent o s)]) db where
  inv := h.inv
  guarded w hw := by
    rcases List.mem_append.1 hw with hw | hw
    · exact h.guarded w hw
    · rw [List.mem_singleton.1 hw]
      exact Set.empty_subset _
  kept := by
    rw [inserted_append]
    refine h.kept.append ⟨.nil, .nil, fun _ he => (by cases he), .nil, .nil, .nil,
      fun _ hc => (by cases hc), fun m hm => ?_⟩
    rw [List.mem_singleton.1 hm]
    exact List.mem_cons_of_mem _ List.mem_cons_self
  announced := by
    obtain ⟨placed, horders, hplaced⟩ := h.announced
    refine ⟨placed ++ [o], ?_, ?_⟩
    · rw [inserted_append, List.append_nil, ← horders]
      exact List.append_nil _
    · rw [inserted_append, messages_append]
      refine List.rel_append hplaced ?_
      exact .cons ⟨⟨rfl, rfl⟩, htime, rfl⟩ .nil
  balanced := h.balanced.still _ rfl rfl rfl
  orders := by
    rw [inserted_append]
    show Fresh orderKey ((inserted own).orders ++ []) db.orders
    rw [List.append_nil]
    exact h.orders
  dispatches := by
    rw [inserted_append]
    show Fresh StockExit.dispatchId ((inserted own).exits ++ []) db.exits
    rw [List.append_nil]
    exact h.dispatches
  counts := by
    rw [inserted_append]
    show Fresh countKey ((inserted own).counts ++ []) db.counts
    rw [List.append_nil]
    exact h.counts
  clients e he := by
    rw [inserted_append] at he ⊢
    have he' : e ∈ (inserted own).exits ++ [] := he
    rw [List.append_nil] at he'
    show OfClient (known db) (db.orders ++ ((inserted own).orders ++ [])) e
    rw [List.append_nil]
    exact h.clients e he'
  dispatched o' ho' := by
    rw [inserted_append] at ho' ⊢
    have hown : o' ∈ (inserted own).orders ++ [] := ho'
    rw [List.append_nil] at hown
    have hexit : ∃ e ∈ (inserted own).exits, e.commercialOrderId = some o'.id := by
      rcases h.dispatched o' hown with hmem | hexit
      · exact List.mem_singleton.1 hmem ▸ hdispatched
      · exact hexit
    obtain ⟨e, he, hpk⟩ := hexit
    exact Or.inr ⟨e, List.mem_append_left _ he, hpk⟩

/-- What a count writes. -/
def countWrites (row : PhysicalCount) (event : Option OutboxRow) : List Write :=
  .count row :: event.toList.map .outbox

/-- A count of a SKU that finds another stock, or the same one. -/
inductive Noticed (sku : Sku) (s : Stamp) (row : PhysicalCount) : Option OutboxRow → Prop
  | same : row.observedQuantity = row.expectedQuantity → Noticed sku s row none
  | other {warehouse : String} : row.observedQuantity ≠ row.expectedQuantity →
      canonicalTelemetryWarehouse row.warehouse = some warehouse →
      Noticed sku s row (some (discrepancyEvent sku warehouse row.clientId s row))

/-- A count and its message. -/
theorem Written.count {sku : Sku} {s : Stamp} {row : PhysicalCount} {event : Option OutboxRow}
    (h : Written [] L [] db) (hlock : .advisory (advisoryKey row.countId) ∈ L)
    (hnew : row.countId ∉ db.counts.filterMap countKey) (hid : row.id = s.id)
    (htime : row.confirmedAt = s.now) (hsku : known db row.skuId = some (fixed sku))
    (hclient : sku.clientId = some row.clientId) (hwarehouse : row.warehouse = sku.warehouse)
    (hnoticed : Noticed sku s row event) : Written [] L (countWrites row event) db := by
  have hinserted : inserted (countWrites row event) =
      { skus := [], counts := [row], outbox := event.toList } := by
    cases event <;> simp [inserted, countWrites, entryRows, exitRows, orderRows, countRows, evaluationRows,
      outboxRows]
  have hcounted : Counted (known db) row := ⟨fixed sku, hsku, hclient, hwarehouse⟩
  have hkept : Kept (known db) (inserted (countWrites row event)) := by
    rw [hinserted]
    refine ⟨.nil, .nil, fun _ he => (by cases he), ?_, ?_, ?_, by simpa using hcounted, ?_⟩
    · cases hnoticed <;> exact .nil
    · cases hnoticed <;> exact .nil
    · cases hnoticed with
      | same heq => simp [heq, messages]
      | other hne hcanonical =>
        simp only [List.filter_cons, hne, ne_eq, not_false_eq_true, decide_true, if_true, List.filter_nil]
        exact .cons ⟨⟨rfl, hid.symm⟩, htime.symm, fixed sku, _, hsku, hcanonical, rfl⟩ .nil
    · cases hnoticed <;> simp [message, discrepancyEvent, outboxSourceEventTypes]
  have hmessages : messages "outbound_order_created" (inserted (countWrites row event)) = [] := by
    rw [hinserted]
    cases hnoticed <;> rfl
  refine h.more (countWrites row event) (fun w hw => ?_) hkept (by rw [hinserted]) hmessages
    (h.balanced.still _ (by rw [hinserted]) (by rw [hinserted]) (by rw [hinserted])) ?_ ?_ fun e he => ?_
  · rcases List.mem_cons.1 hw with rfl | hw
    · rintro l rfl
      exact hlock
    · obtain ⟨e, -, rfl⟩ := List.mem_map.1 hw
      exact Set.empty_subset _
  · rw [List.nil_append, hinserted]
    exact Fresh.nil
  · rw [List.nil_append, hinserted]
    show Fresh countKey ([] ++ [row]) db.counts
    refine Fresh.nil.snoc fun u hu => ?_
    rw [countKey, Option.some.injEq] at hu
    rw [List.append_nil]
    exact hu ▸ hnew
  · rw [hinserted] at he
    cases he

end Still

end TrackFlow.Inventory.Books
