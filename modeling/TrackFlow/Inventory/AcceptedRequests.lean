import TrackFlow.Inventory.BooksSafety
import TrackFlow.Inventory.CommandWrites

/-!
# What accepted requests leave

Rows are only added (`Grown`), so that what an accepted request has left is there whenever it is sent again.
What the keyed commands leave is said by `createCommercialOrder_ok`, `appendCommercialOrderDispatches_ok`
and `confirmInventoryPhysicalCount_ok`; whether a request lists the dispatches of an order, by
`Inv.sameDispatches_iff`.
-/

namespace TrackFlow.Inventory.Books

open TrackFlow.Python TrackFlow.ReadCommitted
open TrackFlow.Pipelines (OutboxRow)
open CommandLocks (Lock)

/-! ## Rows stay -/

/-- Rows are only added. -/
structure Grown (a b : Tables) : Prop where
  orders : ∀ o ∈ a.orders, o ∈ b.orders
  exits : ∀ e ∈ a.exits, e ∈ b.exits
  counts : ∀ c ∈ a.counts, c ∈ b.counts

theorem Grown.refl (a : Tables) : Grown a a := ⟨fun _ h => h, fun _ h => h, fun _ h => h⟩

theorem Grown.trans {a b c : Tables} (h : Grown a b) (h' : Grown b c) : Grown a c :=
  ⟨fun o ho => h'.orders o (h.orders o ho), fun e he => h'.exits e (h.exits e he),
    fun x hx => h'.counts x (h.counts x hx)⟩

theorem grown_applyAll (db : Tables) (ws : List Write) : Grown db (schema.applyAll db ws) := by
  rw [applyAll_tables]
  exact ⟨fun _ h => List.mem_append_left _ h, fun _ h => List.mem_append_left _ h,
    fun _ h => List.mem_append_left _ h⟩

theorem World.grown {db db' : Tables} (h : World db db') : Grown db db' :=
  ⟨fun o ho => by rwa [h.orders], fun e he => by rwa [h.exits], fun c hc => by rwa [h.counts]⟩

section Steps

variable {Cl α : Type} [DecidableEq Cl] {σ σ' : System Cl Tables Write Lock Unit ServiceError α}
  {Runs : Txn α → Prop} {l : ReadCommitted.Label Cl Write Unit α} {db : Tables}

theorem step_grown (h : ReadCommitted.Step tables Runs σ l σ') : Grown σ.db σ'.db := by
  cases h with
  | commit _ => exact grown_applyAll _ _
  | world hworld => exact World.grown hworld
  | _ => exact Grown.refl _

theorem reachable_grown (h : Reachable tables Runs db σ) : Grown db σ.db := by
  induction h with
  | idle => exact Grown.refl _
  | step _ hstep ih => exact ih.trans (step_grown hstep)

end Steps

section Alone

variable {α β : Type} {db db' : Tables} {a : α}

/-- A program that runs alone adds the rows that it writes. -/
theorem eval_applyAll {p : Txn α} (h : eval schema p db = .ok (a, db')) :
    ∃ ws, db' = schema.applyAll db ws := by
  induction p generalizing db with
  | done b =>
    simp only [eval, Except.ok.injEq, Prod.mk.injEq] at h
    exact ⟨[], h.2.symm⟩
  | raise e => cases h
  | lock k p ih => exact ih h
  | read p ih => exact ih _ h
  | write w p ih =>
    obtain ⟨ws, hws⟩ := ih (eval_write_ok h).2
    exact ⟨w :: ws, hws⟩
  | note o p ih => exact ih h

theorem eval_grown {p : Txn α} (h : eval schema p db = .ok (a, db')) : Grown db db' := by
  obtain ⟨ws, rfl⟩ := eval_applyAll h
  exact grown_applyAll db ws

/-- A command that runs alone keeps the books. -/
theorem eval_inv {p : Txn α} (hp : Command (p >>= fun _ => pure ())) (hI : Inv db)
    (h : eval schema p db = .ok (a, db')) : Inv db' := by
  have hrun : run tables.toSchema (p >>= fun _ => pure ()) none db = (.ok (), db') := by
    rw [run_none, show tables.toSchema = schema from rfl, eval_bind_of_ok h]
    rfl
  have hreached : Reachable tables Command db
      (System.idle db' : System Unit Tables Write Lock Unit ServiceError Unit) :=
    run_reachable () hp .idle hrun
  exact inv_reached hI hreached

/-- The advisory locks change nothing. -/
theorem eval_lockIdempotencyKeys (values : List Uuid) (f : Unit → Txn β) (db : Tables) :
    eval schema (lockIdempotencyKeys values >>= f) db = eval schema (f ()) db := by
  have hall : ∀ ls : List Lock, eval schema (acquireAll ls >>= f) db = eval schema (f ()) db := by
    intro ls
    induction ls with
    | nil => rfl
    | cons l ls ih => exact ih
  exact hall _

end Alone

/-! ## Dispatches of an order -/

/-- A row is the dispatch of a request. -/
def Recorded (orderPk : Int) (item : Dispatch) (e : StockExit) : Prop :=
  e.dispatchId = some item.dispatchId ∧ dispatchMatches e item orderPk = true

section Dispatches

variable {db db' : Tables} {order : CommercialOrder} {skus : List Sku} {userUuid : String} {now : Int}
  {stamps : Stamps}

theorem recorded_dispatchExit (order : CommercialOrder) (userUuid : String) (now id : Int)
    (item : Dispatch) : Recorded order.id item (dispatchExit order userUuid now id item) :=
  ⟨rfl, by simp [dispatchMatches, dispatchExit]⟩

/-- A row is the dispatch of one request only. -/
theorem Recorded.unique {pk pk' : Int} {item item' : Dispatch} {e : StockExit} (h : Recorded pk item e)
    (h' : Recorded pk' item' e) : item = item' := by
  obtain ⟨hid, hmatch⟩ := h
  obtain ⟨hid', hmatch'⟩ := h'
  simp only [dispatchMatches, Bool.and_eq_true, decide_eq_true_eq] at hmatch hmatch'
  obtain ⟨⟨⟨⟨-, hsku⟩, hquantity⟩, -⟩, htracking⟩ := hmatch
  obtain ⟨⟨⟨⟨-, hsku'⟩, hquantity'⟩, -⟩, htracking'⟩ := hmatch'
  have hdispatch := Option.some.inj (hid.symm.trans hid')
  have htrack := Option.some.inj (htracking.symm.trans htracking')
  cases item
  cases item'
  simp only [Dispatch.mk.injEq]
  exact ⟨hdispatch, hsku.symm.trans hsku', hquantity.symm.trans hquantity', htrack⟩

/-- An exit writes its row, and an event and an evaluation. -/
theorem writeExit_ok {sku : Sku} {s : Stamp} {before : Int} {row : StockExit} {event : Option OutboxRow}
    (h : eval schema (writeExit sku s before row) db = .ok (event, db')) :
    db'.orders = db.orders ∧ db'.exits = db.exits ++ [row] := by
  obtain ⟨_, db₁, hrow, h⟩ := eval_bind_ok h
  obtain ⟨event', db₂, hevent, h⟩ := eval_bind_ok h
  obtain ⟨_, db₃, hevaluation, h⟩ := eval_bind_ok h
  cases h
  have hrow' := (eval_write_ok hrow).2
  have hevaluation' := (eval_write_ok hevaluation).2
  cases hrow'
  cases hevaluation'
  have hsame : db₂.orders = db.orders ∧ db₂.exits = db.exits ++ [row] := by
    unfold thresholdEvent enqueueInventoryEvent at hevent
    split at hevent
    · cases hevent
      exact ⟨rfl, rfl⟩
    · split at hevent
      · cases hevent
        exact ⟨rfl, rfl⟩
      · split at hevent
        · simp only at hevent
          split at hevent
          · cases hevent
          · obtain ⟨_, db₃, hput, hevent⟩ := eval_bind_ok hevent
            have hput' := (eval_write_ok hput).2
            cases hput'
            cases hevent
            exact ⟨rfl, rfl⟩
        · cases hevent
  exact hsame

/-- What the loop over the dispatches writes besides events and evaluations. -/
theorem addDispatches_ok {k : Nat} {running : List (Int × Int)} {items : List Dispatch}
    {created : List StockExit} {events : List OutboxRow}
    (h : eval schema (addDispatches order skus userUuid now stamps k running items) db =
      .ok ((created, events), db')) :
    db'.orders = db.orders ∧ db'.exits = db.exits ++ created ∧
      List.Forall₂ (Recorded order.id) items created := by
  induction items generalizing k running created events db with
  | nil =>
    cases h
    simp
  | cons item rest ih =>
    rw [addDispatches] at h
    split at h
    · rename_i before sku _ _
      obtain ⟨event, db₁, hwrite, h⟩ := eval_bind_ok h
      obtain ⟨⟨more, events'⟩, db₂, hrest, h⟩ := eval_bind_ok h
      cases h
      obtain ⟨horders, hexits, hall⟩ := ih hrest
      have hone := writeExit_ok hwrite
      rw [horders, hexits, hone.1, hone.2]
      exact ⟨rfl, by simp, .cons (recorded_dispatchExit ..) hall⟩
    · cases h

end Dispatches

/-! ## Keys -/

section Keys

variable {ρ : Type} {rows : List ρ} {a b : ρ}

theorem unique_key {key : ρ → Option Uuid} {u : Uuid} (h : (rows.filterMap key).Nodup) (ha : a ∈ rows)
    (hb : b ∈ rows) (hka : key a = some u) (hkb : key b = some u) : a = b := by
  by_contra hne
  have hsymm : Std.Symm fun a b => ∀ v, key a = some v → ∀ w, key b = some w → v ≠ w :=
    ⟨fun x y hxy v hv w hw => (hxy w hw v hv).symm⟩
  exact (List.pairwise_filterMap.1 h).forall ha hb hne u hka u hkb rfl

theorem find_of_unique {p : ρ → Bool} (ha : a ∈ rows) (hp : p a = true)
    (hunique : ∀ b ∈ rows, p b = true → b = a) : rows.find? p = some a := by
  cases hfind : rows.find? p with
  | none => exact (List.find?_eq_none.1 hfind a ha hp).elim
  | some b => rw [hunique b (List.mem_of_find?_eq_some hfind) (List.find?_some hfind)]

end Keys

section Found

variable {db : Tables} {pk : Int} {item : Dispatch} {e e' : StockExit}

theorem mem_orderDispatches : e ∈ orderDispatches db pk ↔ e ∈ db.exits ∧ e.commercialOrderId = some pk := by
  simp [orderDispatches]

theorem Recorded.ofOrder (h : Recorded pk item e) : e.commercialOrderId = some pk := by
  have hmatch := h.2
  simp only [dispatchMatches, Bool.and_eq_true, decide_eq_true_eq] at hmatch
  exact hmatch.1.1.1.1

theorem Inv.find_order (hI : Inv db) {o : CommercialOrder} (ho : o ∈ db.orders) :
    db.orders.find? (fun o' => o'.orderId = o.orderId) = some o := by
  refine find_of_unique ho (by simp) fun o' ho' hkey => ?_
  exact unique_key hI.orders ho' ho (by simpa [orderKey] using hkey) rfl

theorem Inv.find_count (hI : Inv db) {c : PhysicalCount} (hc : c ∈ db.counts) :
    db.counts.find? (fun c' => c'.countId = c.countId) = some c := by
  refine find_of_unique hc (by simp) fun c' hc' hkey => ?_
  exact unique_key hI.counts hc' hc (by simpa [countKey] using hkey) rfl

/-- A dispatch is found among rows that have it. -/
theorem Inv.find_dispatch (hI : Inv db) {rows : List StockExit} (hrows : ∀ e ∈ rows, e ∈ db.exits)
    (he : e ∈ rows) {u : Uuid} (hu : e.dispatchId = some u) : findDispatch rows u = some e := by
  refine find_of_unique he (by simpa using hu) fun e' he' hkey => ?_
  exact unique_key hI.dispatches (hrows e' he') (hrows e he) (by simpa using hkey) hu

/-- The dispatches of an order are those of a request. -/
def Lists (db : Tables) (orderPk : Int) (dispatches : List Dispatch) : Prop :=
  (∀ e ∈ db.exits, e.commercialOrderId = some orderPk → ∃ item ∈ dispatches, Recorded orderPk item e) ∧
    ∀ item ∈ dispatches, ∃ e ∈ db.exits, Recorded orderPk item e

/-- `create_commercial_order` compares what an order has with what a request lists. -/
theorem Inv.sameDispatches_iff (hI : Inv db) {dispatches : List Dispatch} :
    sameDispatches (orderDispatches db pk) dispatches pk = true ↔ Lists db pk dispatches := by
  have hrows : ∀ e ∈ orderDispatches db pk, e ∈ db.exits := fun e he => (mem_orderDispatches.1 he).1
  simp only [sameDispatches, Bool.and_eq_true, List.all_eq_true, List.any_eq_true, decide_eq_true_eq]
  constructor
  · rintro ⟨hpersisted, hlisted⟩
    have hfound : ∀ item ∈ dispatches, ∃ e ∈ db.exits, Recorded pk item e := by
      intro item hitem
      have hmatch := hlisted item hitem
      cases hfind : findDispatch (orderDispatches db pk) item.dispatchId with
      | none => simp [hfind] at hmatch
      | some e =>
        rw [hfind, Option.any_some] at hmatch
        have hid : e.dispatchId = some item.dispatchId := by simpa using List.find?_some hfind
        exact ⟨e, hrows e (List.mem_of_find?_eq_some hfind), hid, hmatch⟩
    refine ⟨fun e he hpk => ?_, hfound⟩
    obtain ⟨item, hitem, hid⟩ := hpersisted e (mem_orderDispatches.2 ⟨he, hpk⟩)
    obtain ⟨e', he', hrecorded⟩ := hfound item hitem
    obtain rfl := unique_key hI.dispatches he he' hid hrecorded.1
    exact ⟨item, hitem, hrecorded⟩
  · rintro ⟨hall, hfound⟩
    refine ⟨fun e he => ?_, fun item hitem => ?_⟩
    · obtain ⟨hmem, hpk⟩ := mem_orderDispatches.1 he
      obtain ⟨item, hitem, hrecorded⟩ := hall e hmem hpk
      exact ⟨item, hitem, hrecorded.1⟩
    · obtain ⟨e, he, hrecorded⟩ := hfound item hitem
      rw [hI.find_dispatch hrows (mem_orderDispatches.2 ⟨he, hrecorded.ofOrder⟩) hrecorded.1]
      exact hrecorded.2

end Found

/-! ## Accepted requests -/

section Accepted

variable {db db' : Tables} {order : CommercialOrder} {created : List StockExit} {userUuid : String}
  {s : Stamp} {now : Int} {stamps : Stamps}

theorem enqueueInventoryEvent_ok {row : OutboxRow} {u : Unit}
    (h : eval schema (enqueueInventoryEvent row) db = .ok (u, db')) :
    db'.orders = db.orders ∧ db'.exits = db.exits ∧ db'.counts = db.counts := by
  unfold enqueueInventoryEvent at h
  split at h
  · cases h
  · have hput := (eval_write_ok h).2
    cases hput
    exact ⟨rfl, rfl, rfl⟩

/-- The dispatches of an order that are written in order of their ids. -/
theorem addOrderDispatches_ok {skus : List Sku} {items : List Dispatch} {events : List OutboxRow}
    (h : eval schema (addOrderDispatches order skus userUuid now stamps items) db =
      .ok ((created, events), db')) :
    db'.orders = db.orders ∧ db'.exits = db.exits ++ created ∧
      (∀ e ∈ created, ∃ item ∈ items, Recorded order.id item e) ∧
      ∀ item ∈ items, ∃ e ∈ created, Recorded order.id item e := by
  obtain ⟨running, db₁, hrunning, h⟩ := eval_bind_ok h
  rw [(writes_runningStock _ _).unchanged hrunning] at h
  obtain ⟨horders, hexits, hall⟩ := addDispatches_ok h
  refine ⟨horders, hexits, fun e he => ?_, fun item hitem => ?_⟩
  · obtain ⟨item, hitem, hrecorded⟩ := partner hall.flip he
    exact ⟨item, mem_sortedBy.1 hitem, hrecorded⟩
  · exact partner hall (mem_sortedBy.2 hitem)

theorem placeOrder_ok {data : CommercialOrderCreate} (hI : Inv db)
    (h : eval schema (placeOrder data userUuid s stamps) db = .ok ((order, created), db')) :
    order ∈ db'.orders ∧ order = commercialOrder data s ∧ Lists db' order.id data.dispatches := by
  obtain ⟨skus, db₁, hskus, h⟩ := eval_bind_ok h
  rw [(writes_validateOrderSkus _ _ _).unchanged hskus] at h
  obtain ⟨_, db₂, hput, h⟩ := eval_bind_ok h
  obtain ⟨haccepts, hput'⟩ := eval_write_ok hput
  cases hput'
  obtain ⟨⟨created', events⟩, db₃, hadd, h⟩ := eval_bind_ok h
  obtain ⟨_, db₄, henqueue, h⟩ := eval_bind_ok h
  cases h
  obtain ⟨horders, hexits, hcreated, hitems⟩ := addOrderDispatches_ok hadd
  obtain ⟨horders', hexits', -⟩ := enqueueInventoryEvent_ok henqueue
  rw [horders', horders]
  refine ⟨List.mem_append_right _ List.mem_cons_self, rfl, fun e he hpk => ?_, fun item hitem => ?_⟩
  · rw [hexits', hexits] at he
    rcases List.mem_append.1 he with he | he
    · -- the rows of an order name an order that is there, and the key of this one is new
      obtain ⟨-, o, ho, hid, -⟩ := hI.clients e he _ hpk
      simp only [schema, acceptsWrite, decide_eq_true_eq] at haccepts
      exact ((haccepts o ho).1 hid).elim
    · exact hcreated e he
  · obtain ⟨e, he, hrecorded⟩ := hitems item hitem
    rw [hexits', hexits]
    exact ⟨e, List.mem_append_right _ he, hrecorded⟩

/-- What an accepted request to create an order leaves. -/
theorem createCommercialOrder_ok {data : CommercialOrderCreate} (hI : Inv db)
    (h : eval schema (createCommercialOrder data userUuid s stamps) db = .ok ((order, created), db')) :
    order ∈ db'.orders ∧ order.orderId = data.orderId ∧ order.clientId = data.clientId ∧
      order.warehouse = data.warehouse.value ∧ repeated data.dispatches = false ∧
      Lists db' order.id data.dispatches := by
  unfold createCommercialOrder at h
  split at h
  · cases h
  · rename_i hrepeated
    rw [eval_lockIdempotencyKeys] at h
    obtain ⟨found, db₁, hquery, h⟩ := eval_bind_ok h
    cases hquery
    split at h
    · rename_i existing hfind
      have hmem := List.mem_of_find?_eq_some hfind
      have hid : existing.orderId = data.orderId := by simpa using List.find?_some hfind
      obtain ⟨_, db₂, hacquire, h⟩ := eval_bind_ok h
      cases hacquire
      obtain ⟨persisted, db₃, hpersisted, h⟩ := eval_bind_ok h
      cases hpersisted
      split at h
      · cases h
      · rename_i hcontent
        rw [not_or, not_not, not_not] at hcontent
        split at h
        · rename_i hsame
          cases h
          exact ⟨hmem, hid, hcontent.1, hcontent.2, by simpa using hrepeated, hI.sameDispatches_iff.1 hsame⟩
        · cases h
    · obtain ⟨taken, db₂, htaken, h⟩ := eval_bind_ok h
      cases htaken
      split at h
      · cases h
      · obtain ⟨hmem, rfl, hlists⟩ := placeOrder_ok hI h
        exact ⟨hmem, rfl, rfl, rfl, by simpa using hrepeated, hlists⟩

/-- The dispatches of a request that are new, or recorded already. -/
theorem newItems_ok {existing : List StockExit} {pk : Int} :
    ∀ {dispatches items : List Dispatch}, newItems existing pk dispatches = .ok items →
      ∀ item ∈ dispatches, item ∈ items ∨ ∃ e ∈ existing, Recorded pk item e
  | [], _, _, item, hitem => by cases hitem
  | d :: rest, items, h, item, hitem => by
    rw [newItems] at h
    split at h
    · cases hrest : newItems existing pk rest with
      | error e =>
        rw [hrest] at h
        cases h
      | ok more =>
        rw [hrest] at h
        cases h
        rcases List.mem_cons.1 hitem with rfl | hitem
        · exact Or.inl List.mem_cons_self
        · exact (newItems_ok hrest item hitem).imp_left (List.mem_cons_of_mem _)
    · rename_i record hfind
      split at h
      · rename_i hmatch
        rcases List.mem_cons.1 hitem with rfl | hitem
        · have hid : record.dispatchId = some item.dispatchId := by simpa using List.find?_some hfind
          exact Or.inr ⟨record, List.mem_of_find?_eq_some hfind, hid, hmatch⟩
        · exact newItems_ok h item hitem
      · cases h

/-- What an accepted request to append dispatches leaves. -/
theorem appendCommercialOrderDispatches_ok {data : DispatchAppend}
    (h : eval schema (appendCommercialOrderDispatches data userUuid now stamps) db =
      .ok ((order, created), db')) :
    order ∈ db'.orders ∧ order.orderId = data.orderId ∧ repeated data.dispatches = false ∧
      ∀ item ∈ data.dispatches, ∃ e ∈ db'.exits, Recorded order.id item e := by
  have hgrown := eval_grown h
  unfold appendCommercialOrderDispatches at h
  split at h
  · cases h
  · rename_i hrepeated
    rw [eval_lockIdempotencyKeys] at h
    obtain ⟨found, db₁, hquery, h⟩ := eval_bind_ok h
    cases hquery
    split at h
    · cases h
    · rename_i order' hfind
      have hmem := List.mem_of_find?_eq_some hfind
      have hid : order'.orderId = data.orderId := by simpa using List.find?_some hfind
      obtain ⟨_, db₂, hacquire, h⟩ := eval_bind_ok h
      cases hacquire
      obtain ⟨existing, db₃, hexisting, h⟩ := eval_bind_ok h
      cases hexisting
      -- a dispatch that is there already stays
      have hthere : ∀ {items}, newItems (db.exits.filter fun e => data.dispatches.any fun item =>
            e.dispatchId = some item.dispatchId) order'.id data.dispatches = .ok items →
          ∀ item ∈ data.dispatches, item ∈ items ∨ ∃ e ∈ db'.exits, Recorded order'.id item e := by
        intro items hitems item hitem
        refine (newItems_ok hitems item hitem).imp_right fun hrecorded => ?_
        obtain ⟨e, he, hrecorded⟩ := hrecorded
        exact ⟨e, hgrown.exits e (List.mem_filter.1 he).1, hrecorded⟩
      split at h
      · cases h
      · rename_i hitems
        obtain ⟨dispatches, db₄, hdispatches, h⟩ := eval_bind_ok h
        cases hdispatches
        cases h
        refine ⟨hmem, hid, by simpa using hrepeated, fun item hitem => ?_⟩
        exact (hthere hitems item hitem).resolve_left List.not_mem_nil
      · rename_i items _ hitems
        obtain ⟨skus, db₄, hskus, h⟩ := eval_bind_ok h
        rw [(writes_validateOrderSkus _ _ _).unchanged hskus] at h
        obtain ⟨⟨created', events⟩, db₅, hadd, h⟩ := eval_bind_ok h
        cases h
        obtain ⟨-, hexits, -, hnew⟩ := addOrderDispatches_ok hadd
        refine ⟨hgrown.orders _ hmem, hid, by simpa using hrepeated, fun item hitem => ?_⟩
        rcases hthere hitems item hitem with hitem' | hrecorded
        · obtain ⟨e, he, hrecorded⟩ := hnew item hitem'
          exact ⟨e, hexits ▸ List.mem_append_right _ he, hrecorded⟩
        · exact hrecorded

/-- What an accepted request to confirm a count leaves. -/
theorem confirmInventoryPhysicalCount_ok {data : PhysicalCountCreate} {c : PhysicalCount}
    {event : Option OutboxRow}
    (h : eval schema (confirmInventoryPhysicalCount data userUuid s) db = .ok ((c, event), db')) :
    c ∈ db'.counts ∧ c.countId = data.countId ∧ countMatches c data userUuid = true := by
  unfold confirmInventoryPhysicalCount at h
  rw [eval_lockIdempotencyKeys] at h
  obtain ⟨found, db₁, hquery, h⟩ := eval_bind_ok h
  cases hquery
  split at h
  · rename_i existing hfind
    obtain ⟨_, db₂, hacquire, h⟩ := eval_bind_ok h
    cases hacquire
    split at h
    · rename_i hmatch
      cases h
      exact ⟨List.mem_of_find?_eq_some hfind, by simpa using List.find?_some hfind, hmatch⟩
    · cases h
  · unfold recordCount at h
    obtain ⟨skus, db₂, hskus, h⟩ := eval_bind_ok h
    rw [(writes_lockSkus _).unchanged hskus] at h
    split at h
    · cases h
    · split at h
      · cases h
      · split at h
        · cases h
        · obtain ⟨expected, db₃, hexpected, h⟩ := eval_bind_ok h
          rw [(writes_getCurrentStock _ _).unchanged hexpected] at h
          obtain ⟨_, db₄, hput, h⟩ := eval_bind_ok h
          have hput' := (eval_write_ok hput).2
          cases hput'
          have hwritten : ∀ clientId, countMatches (physicalCount data userUuid s clientId expected) data
              userUuid = true := fun clientId => by simp [countMatches, physicalCount]
          split at h
          · cases h
            exact ⟨List.mem_append_right _ List.mem_cons_self, rfl, hwritten _⟩
          · split at h
            · cases h
            · obtain ⟨_, db₅, henqueue, h⟩ := eval_bind_ok h
              cases h
              rw [(enqueueInventoryEvent_ok henqueue).2.2]
              exact ⟨List.mem_append_right _ List.mem_cons_self, rfl, hwritten _⟩

end Accepted

end TrackFlow.Inventory.Books
