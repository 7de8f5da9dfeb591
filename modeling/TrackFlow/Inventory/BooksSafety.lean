import TrackFlow.Inventory.CommandSafety

/-!
# The books of the inventory in every state

The commands of any number of clients, interleaved as their locks allow and lost at any point, while
products are created and the relay marks the rows of the outbox.

- `stock_never_negative`: no stock is negative, and a SKU has none but in its own warehouse;
- `threshold_ledger`: the threshold evaluations are a ledger of the movements, and a SKU that crosses a
  threshold again has been restocked above it;
- `outbox_complete`: every order, entry and discrepancy has one message, and keys are not used twice.
-/

namespace TrackFlow.Inventory.Books

open TrackFlow.Python TrackFlow.ReadCommitted TrackFlow.Balances
open TrackFlow.Pipelines (OutboxRow canonicalTelemetryWarehouse)
open CommandLocks (Lock)

/-! ## Commands -/

/-- The commands of the inventory service; quantities are positive in every payload, and an order has a
dispatch. -/
inductive Command : Txn Unit → Prop
  | entry (data : StockEntryCreate) (userUuid : String) (s : Stamp) : 0 < data.quantity →
      Command (createStockEntry data userUuid s >>= fun _ => pure ())
  | exit (data : StockExitCreate) (userUuid : String) (s : Stamp) : 0 < data.quantity →
      Command (createStockExit data userUuid s >>= fun _ => pure ())
  | threshold (skuId : Int) (value : Option Int) :
      Command (updateSkuThreshold skuId value >>= fun _ => pure ())
  | count (data : PhysicalCountCreate) (userUuid : String) (s : Stamp) :
      Command (confirmInventoryPhysicalCount data userUuid s >>= fun _ => pure ())
  | order (data : CommercialOrderCreate) (userUuid : String) (s : Stamp) (stamps : Stamps) :
      data.dispatches ≠ [] → (∀ item ∈ data.dispatches, 0 < item.quantity) →
      Command (createCommercialOrder data userUuid s stamps >>= fun _ => pure ())
  | append (data : DispatchAppend) (userUuid : String) (now : Int) (stamps : Stamps) :
      (∀ item ∈ data.dispatches, 0 < item.quantity) →
      Command (appendCommercialOrderDispatches data userUuid now stamps >>= fun _ => pure ())

theorem command_safe {p : Txn Unit} (h : Command p) (db : Tables) : rules.Safe p ∅ [] db := by
  refine Rules.wp_start fun db' _ hI => ?_
  cases h with
  | entry data userUuid s hpos => exact createStockEntry_safe data userUuid s hpos hI
  | exit data userUuid s hpos => exact createStockExit_safe data userUuid s hpos hI
  | threshold skuId value => exact updateSkuThreshold_safe skuId value hI
  | count data userUuid s => exact confirmInventoryPhysicalCount_safe data userUuid s hI
  | order data userUuid s stamps hne hpos =>
    exact createCommercialOrder_safe data userUuid s stamps hne hpos hI
  | append data userUuid now stamps hpos =>
    exact appendCommercialOrderDispatches_safe data userUuid now stamps hpos hI

/-- Products without movements. -/
def start (skus : List Sku) : Tables := { skus }

theorem Inv.start {skus : List Sku} (h : (skus.map Sku.id).Nodup) : Inv (start skus) where
  ids := h
  kept := Kept.empty _ _
  announced := ⟨[], rfl, .nil⟩
  balanced id sku _ := rfl
  orders := List.nodup_nil
  dispatches := List.nodup_nil
  counts := List.nodup_nil
  clients e he := by cases he
  dispatched o ho := by cases ho

section Reached

variable {Cl : Type} [DecidableEq Cl] {db₀ : Tables} {skus : List Sku}
  {σ σ' : System Cl Tables Write Lock Unit ServiceError Unit}

/-- The books are in order in every state that commands reach. -/
theorem inv_reached (h₀ : Inv db₀) (h : Reachable tables Command db₀ σ) : Inv σ.db :=
  (Rules.sound (fun _ hp db => command_safe hp db) h₀ h).inv

end Reached

/-! ## Stock -/

section Stock

variable {db : Tables} {sku : Sku}

/-- A SKU is found under its id. -/
theorem Inv.sku_of_mem (hI : Inv db) (h : sku ∈ db.skus) : db.sku sku.id = some sku := by
  cases hfind : db.sku sku.id with
  | none =>
    have hno := List.find?_eq_none.1 hfind sku h
    simp at hno
  | some sku' =>
    have hmem : sku' ∈ db.skus := List.mem_of_find?_eq_some hfind
    rw [List.inj_on_of_nodup_map hI.ids hmem h (sku_id hfind)]

/-- The evaluations of a SKU are made in its warehouse. -/
theorem Inv.evaluation_warehouse (hI : Inv db) (hsku : db.sku sku.id = some sku) {e : ThresholdEvaluation}
    (he : e ∈ db.evaluations) (hid : e.skuId = sku.id) : e.warehouse = sku.warehouse := by
  obtain ⟨sku', hknown, -, hwarehouse⟩ := (hI.kept.evaluations e he).sku
  rw [hid, known_of_sku hsku, Option.some.injEq] at hknown
  rw [hwarehouse, ← hknown]
  rfl

/-- A SKU has no stock elsewhere. -/
theorem Inv.stock_elsewhere (hI : Inv db) (hsku : db.sku sku.id = some sku) {warehouse : String}
    (hne : warehouse ≠ sku.warehouse) : stock db sku.id warehouse = 0 := by
  have hentries : (db.entries.filter fun e => e.skuId = sku.id ∧ e.warehouse = warehouse) = [] := by
    refine List.filter_eq_nil_iff.2 fun row hrow hmatch => ?_
    simp only [decide_eq_true_eq] at hmatch
    obtain ⟨e, he, hentered⟩ := partner hI.kept.entries hrow
    have hown := hI.evaluation_warehouse hsku (List.mem_filter.1 he).1 (hentered.sku.trans hmatch.1)
    exact hne (hmatch.2.symm.trans (hentered.warehouse.symm.trans hown))
  have hexits : (db.exits.filter fun e => e.skuId = sku.id ∧ e.warehouse = warehouse) = [] := by
    refine List.filter_eq_nil_iff.2 fun row hrow hmatch => ?_
    simp only [decide_eq_true_eq] at hmatch
    obtain ⟨e, he, hleft⟩ := partner hI.kept.exits hrow
    have hown := hI.evaluation_warehouse hsku (List.mem_filter.1 he).1 (hleft.sku.trans hmatch.1)
    exact hne (hmatch.2.symm.trans (hleft.warehouse.symm.trans hown))
  rw [stock, entrySum, exitSum, hentries, hexits]
  rfl

/-- The steps of a ledger are evaluations. -/
theorem mem_history {id : Int} {step : Int × Int} (h : step ∈ history db id) :
    ∃ e ∈ db.evaluations, e.skuId = id ∧ (e.beforeQuantity, e.afterQuantity) = step := by
  obtain ⟨e, he, hstep⟩ := List.mem_map.1 h
  obtain ⟨hmem, hid⟩ := List.mem_filter.1 he
  exact ⟨e, hmem, by simpa using hid, hstep⟩

theorem Inv.stock_nonneg (hI : Inv db) (hsku : db.sku sku.id = some sku) :
    0 ≤ stock db sku.id sku.warehouse := by
  refine (hI.balanced sku.id (fixed sku) (known_of_sku hsku)).final (fun step hstep => ?_) (le_refl 0)
  obtain ⟨e, he, -, rfl⟩ := mem_history hstep
  exact (hI.kept.evaluations e he).after

end Stock

/-- **Stock is never negative**: whatever the commands do, in whatever order and wherever they are lost. -/
theorem stock_never_negative {Cl : Type} [DecidableEq Cl] {skus : List Sku}
    {σ : System Cl Tables Write Lock Unit ServiceError Unit} (hids : (skus.map Sku.id).Nodup)
    (h : Reachable tables Command (start skus) σ) :
    ∀ sku ∈ σ.db.skus, 0 ≤ stock σ.db sku.id sku.warehouse ∧
      ∀ warehouse, warehouse ≠ sku.warehouse → stock σ.db sku.id warehouse = 0 := by
  intro sku hmem
  have hI := inv_reached (Inv.start hids) h
  have hsku := hI.sku_of_mem hmem
  exact ⟨hI.stock_nonneg hsku, fun warehouse hne => hI.stock_elsewhere hsku hne⟩

/-! ### One command after another -/

/-- The tables after commands that run one after another. -/
def serially (db : Tables) (commands : List (Txn Unit)) : Tables :=
  commands.foldl (fun db p => (run tables.toSchema p none db).2) db

theorem serially_reachable {P : Txn Unit → Prop} {commands : List (Txn Unit)} (h : ∀ p ∈ commands, P p)
    {db₀ db : Tables} (hr : Reachable tables P db₀
      (System.idle db : System Unit Tables Write Lock Unit ServiceError Unit)) :
    Reachable tables P db₀
      (System.idle (serially db commands) : System Unit Tables Write Lock Unit ServiceError Unit) := by
  induction commands generalizing db with
  | nil => exact hr
  | cons p commands ih =>
    refine ih (fun q hq => h q (List.mem_cons_of_mem p hq)) ?_
    exact run_reachable () (h p List.mem_cons_self) hr (Prod.eta _).symm

theorem exists_ok {ε α : Type} {e : Except ε α} (h : e.toBool = true) : ∃ a, e = .ok a := by
  cases e with
  | error e => cases h
  | ok a => exact ⟨a, rfl⟩

theorem digits_length (d : Fin 16) : (List.replicate 32 d).length = 32 := List.length_replicate

/-- An id of one digit. -/
def sameDigits (d : Fin 16) : Uuid := ⟨List.replicate 32 d, digits_length d⟩

/-- A random one of one digit. -/
def randomDigits (d : Fin 16) : Uuid4 :=
  ⟨⟨List.replicate 12 d ++ 4 :: (List.replicate 3 d ++ 8 :: List.replicate 15 d), rfl⟩, rfl⟩

/-- What the sequences, `uuid4` and the clock give. -/
def stampOf (k : Nat) (d : Fin 16) : Stamp := ⟨k, randomDigits d, k⟩

theorem stamp_positive (k n : Nat) : (0 : Int) < (k + (n + 1) : Nat) := by omega

def shirtStamps : Stamps where
  stamp k := stampOf (k + 1) (Fin.ofNat 16 (k + 3))
  positive k := stamp_positive k 0

/-- Shirts with the threshold three. -/
def shirts : List Sku :=
  [⟨1, "Shirt", "SHIRT", "Urban Thread", "fashion", "LA", some "urban-thread", some 3⟩]

/-- Ten shirts arrive, eight leave with an order, five arrive, four leave, and one of the rest is
missing. -/
def shirtCommands : List (Txn Unit) :=
  [createStockEntry ⟨1, 10, "PO-1", .la⟩ "u" (stampOf 1 1) >>= fun _ => pure (),
    createCommercialOrder ⟨sameDigits 10, "urban-thread", .la,
      [⟨sameDigits 11, 1, 4, "T-1"⟩, ⟨sameDigits 12, 1, 4, "T-2"⟩]⟩ "u" (stampOf 1 2) shirtStamps >>=
        fun _ => pure (),
    createStockEntry ⟨1, 5, "PO-2", .la⟩ "u" (stampOf 2 5) >>= fun _ => pure (),
    createStockExit ⟨1, 4, .dispatch, some "T-3", .la⟩ "u" (stampOf 3 6) >>= fun _ => pure (),
    confirmInventoryPhysicalCount ⟨sameDigits 13, 1, 2, .la⟩ "u" (stampOf 1 7) >>= fun _ => pure ()]

theorem shirtCommands_command : ∀ p ∈ shirtCommands, Command p := by
  intro p hp
  simp only [shirtCommands, List.mem_cons, List.not_mem_nil, or_false] at hp
  rcases hp with rfl | rfl | rfl | rfl | rfl
  · exact .entry _ _ _ (by decide)
  · exact .order _ _ _ _ (by simp) (by simp)
  · exact .entry _ _ _ (by decide)
  · exact .exit _ _ _ (by decide)
  · exact .count _ _ _

theorem shirtCommands_reachable : Reachable tables Command (start shirts)
    (System.idle (serially (start shirts) shirtCommands) :
      System Unit Tables Write Lock Unit ServiceError Unit) :=
  serially_reachable shirtCommands_command .idle

/-- Three shirts are left. -/
theorem stock_never_negative_shirts :
    stock (serially (start shirts) shirtCommands) 1 "LA" = 3 ∧
      ∀ sku ∈ (serially (start shirts) shirtCommands).skus,
        0 ≤ stock (serially (start shirts) shirtCommands) sku.id sku.warehouse := by
  refine ⟨by decide +kernel, fun sku hsku => ?_⟩
  exact (stock_never_negative (by decide) shirtCommands_reachable sku hsku).1

/-! ## The threshold ledger -/

section Ledger

variable {db : Tables}

/-- The evaluations of a SKU. -/
def evaluationsFor (db : Tables) (id : Int) : List ThresholdEvaluation :=
  db.evaluations.filter fun e => e.skuId = id

/-- What the threshold evaluations say of the movements. -/
structure LedgerOk (db : Tables) : Prop where
  /-- Each movement has one evaluation, of its SKU and quantity. -/
  entries : List.Forall₂ Entered db.entries (evaluationsOf "stockentry" db)
  exits : List.Forall₂ Left db.exits (evaluationsOf "stockexit" db)
  /-- Each evaluation of a SKU starts where the one before it has ended, and the last one is its stock. -/
  chain : ∀ sku ∈ db.skus, Runs 0 (history db sku.id) (stock db sku.id sku.warehouse)
  /-- An evaluation is marked when it crosses the threshold that it was made with. -/
  crossed : ∀ e ∈ db.evaluations, e.crossed = true ↔ Crosses e
  /-- Each crossing has one message, with its quantities and the event id it has noted. -/
  events : List.Forall₂ (Crossing (known db)) (db.evaluations.filter fun e => e.crossed)
    (messages "stock_threshold_triggered" db)
  /-- Between two crossings of one threshold the SKU is restocked above it. -/
  again : ∀ id t before first mid last after,
    evaluationsFor db id = before ++ first :: (mid ++ last :: after) →
    first.crossed = true → first.thresholdQuantity = some t →
    last.crossed = true → last.thresholdQuantity = some t →
    ∃ e ∈ mid, e.sourceTable = "stockentry" ∧ e.beforeQuantity ≤ t ∧ t < e.afterQuantity

/-- A rise is an entry. -/
theorem Inv.rise (hI : Inv db) {e : ThresholdEvaluation} (he : e ∈ db.evaluations)
    (hrise : e.beforeQuantity < e.afterQuantity) : e.sourceTable = "stockentry" := by
  rcases (hI.kept.evaluations e he).source with hsource | hsource
  · exact hsource
  · have hmem : e ∈ evaluationsOf "stockexit" db := List.mem_filter.2 ⟨he, by simpa using hsource⟩
    obtain ⟨row, -, hleft⟩ := partner hI.kept.exits.flip hmem
    have hmoved := hleft.moved
    have hpositive := hleft.positive
    omega

theorem Inv.again (hI : Inv db) {id t : Int} {before mid after : List ThresholdEvaluation}
    {first last : ThresholdEvaluation}
    (h : evaluationsFor db id = before ++ first :: (mid ++ last :: after))
    (hfirst : first.crossed = true) (hthreshold : first.thresholdQuantity = some t)
    (hlast : last.crossed = true) (hthreshold' : last.thresholdQuantity = some t) :
    ∃ e ∈ mid, e.sourceTable = "stockentry" ∧ e.beforeQuantity ≤ t ∧ t < e.afterQuantity := by
  have hmem : ∀ e ∈ before ++ first :: (mid ++ last :: after), e ∈ db.evaluations ∧ e.skuId = id := by
    intro e he
    rw [← h, evaluationsFor, List.mem_filter] at he
    exact ⟨he.1, by simpa using he.2⟩
  obtain ⟨hfirstIn, hid⟩ := hmem first (by simp)
  have hlastIn := (hmem last (by simp)).1
  -- the crossings end at the threshold or below, and start above it
  obtain ⟨-, t₁, ht₁, -, hlow⟩ := ((hI.kept.evaluations first hfirstIn).crossed).1 hfirst
  obtain ⟨-, t₂, ht₂, hhigh, -⟩ := ((hI.kept.evaluations last hlastIn).crossed).1 hlast
  obtain rfl : t = t₁ := Option.some.inj (hthreshold.symm.trans ht₁)
  obtain rfl : t = t₂ := Option.some.inj (hthreshold'.symm.trans ht₂)
  obtain ⟨sku, hsku, -⟩ := (hI.kept.evaluations first hfirstIn).sku
  rw [hid] at hsku
  have hrun := hI.balanced id sku hsku
  rw [history, show (db.evaluations.filter fun e => e.skuId = id) = _ from h] at hrun
  simp only [List.map_append, List.map_cons] at hrun
  obtain ⟨step, hstep, hbelow, habove⟩ := hrun.between hlow hhigh
  obtain ⟨e, he, rfl⟩ := List.mem_map.1 hstep
  have heIn := (hmem e (by simp [he])).1
  exact ⟨e, he, hI.rise heIn (lt_of_le_of_lt hbelow habove), hbelow, habove⟩

theorem Inv.ledger (hI : Inv db) : LedgerOk db where
  entries := hI.kept.entries
  exits := hI.kept.exits
  chain sku hmem := hI.balanced sku.id (fixed sku) (known_of_sku (hI.sku_of_mem hmem))
  crossed e he := (hI.kept.evaluations e he).crossed
  events := hI.kept.crossings
  again _ _ _ _ _ _ _ h hfirst hthreshold hlast hthreshold' :=
    hI.again h hfirst hthreshold hlast hthreshold'

end Ledger

/-- **The threshold ledger**: in every state, and every evaluation that a command writes is made with the
threshold that its SKU has then. -/
theorem threshold_ledger {Cl : Type} [DecidableEq Cl] {skus : List Sku}
    {σ : System Cl Tables Write Lock Unit ServiceError Unit} (hids : (skus.map Sku.id).Nodup)
    (h : Reachable tables Command (start skus) σ) :
    LedgerOk σ.db ∧ ∀ i row σ', ReadCommitted.Step tables Command σ (.write i (.evaluation row)) σ' →
      ∃ sku, σ.db.sku row.skuId = some sku ∧ row.thresholdQuantity = sku.minimumStockThreshold :=
  ⟨(inv_reached (Inv.start hids) h).ledger, fun _ _ _ hstep =>
    Rules.write_sound (R := rules) (fun _ hp db => command_safe hp db) (Inv.start hids) h hstep⟩

/-- The threshold is crossed twice. -/
theorem threshold_ledger_shirts :
    (evaluationsFor (serially (start shirts) shirtCommands) 1).map
      (fun e => (e.afterQuantity, e.crossed)) = [(10, false), (6, false), (2, true), (7, false),
        (3, true)] ∧ LedgerOk (serially (start shirts) shirtCommands) :=
  ⟨by decide +kernel, (threshold_ledger (by decide) shirtCommands_reachable).1⟩

/-! ## The outbox -/

/-- An entry of a client and its message. -/
structure Arrived (known : Int → Option Sku) (row : StockEntry) (m : Message) : Prop where
  source : m.sourceTable = "stockentry" ∧ m.sourcePk = row.id
  time : m.occurredAt = row.createdAt
  tags : ∃ sku warehouse clientId, known row.skuId = some sku ∧
    canonicalTelemetryWarehouse row.warehouse = some warehouse ∧ sku.clientId = some clientId ∧
    m.tags = inboundTags sku warehouse clientId row.id row.quantity

/-- The SKU of an entry has a client. -/
def hasClient (known : Int → Option Sku) (row : StockEntry) : Bool :=
  ((known row.skuId).bind Sku.clientId).isSome

/-- What the outbox says of the tables, and what keys and rows say of each other. -/
structure OutboxOk (db : Tables) : Prop where
  /-- Each order has one message, and each message of an order one order. -/
  outbound : List.Forall₂ Outbound db.orders (messages "outbound_order_created" db)
  /-- The same of the entries of SKUs with a client. -/
  inbound : List.Forall₂ (Arrived (known db)) (db.entries.filter (hasClient (known db)))
    (messages "inbound_order_created" db)
  /-- And of the counts that found another stock than the books. -/
  discrepancies : List.Forall₂ (Discrepancy (known db))
    (db.counts.filter fun c => c.observedQuantity ≠ c.expectedQuantity)
    (messages "inventory_discrepancy_detected" db)
  /-- No key of a command is used twice. -/
  orderIds : (db.orders.map CommercialOrder.orderId).Nodup
  countIds : (db.counts.map PhysicalCount.countId).Nodup
  dispatchIds : (db.exits.filterMap StockExit.dispatchId).Nodup
  /-- A dispatch leaves from the warehouse of its order, and its SKU is one of the client. -/
  clients : ∀ e ∈ db.exits, OfClient (known db) db.orders e

theorem forall₂_trans {α β γ : Type} {R : α → β → Prop} {S : β → γ → Prop} {T : α → γ → Prop}
    (hT : ∀ a b c, R a b → S b c → T a c) {as : List α} {bs : List β} {cs : List γ}
    (hR : List.Forall₂ R as bs) (hS : List.Forall₂ S bs cs) : List.Forall₂ T as cs := by
  induction hR generalizing cs with
  | nil =>
    cases hS
    exact .nil
  | cons hab _ ih =>
    obtain _ | ⟨hbc, hrest⟩ := hS
    exact .cons (hT _ _ _ hab hbc) (ih hrest)

/-- The client of an evaluation is the one of its SKU. -/
theorem Judged.hasClient {known : Int → Option Sku} {row : StockEntry} {e : ThresholdEvaluation}
    (hjudged : Judged known e) (hentered : Entered row e) : hasClient known row = e.clientId.isSome := by
  obtain ⟨sku, hsku, hclient, -⟩ := hjudged.sku
  rw [Books.hasClient, ← hentered.sku, hsku, hclient]
  rfl

theorem Inv.arrived {db : Tables} (hI : Inv db) : List.Forall₂ (Arrived (known db))
    (db.entries.filter (hasClient (known db))) (messages "inbound_order_created" db) := by
  have hentered : List.Forall₂ (fun row e => Judged (known db) e ∧ Entered row e) db.entries
      (evaluationsOf "stockentry" db) := by
    refine List.Forall₂.flip ((List.forall₂_and_left _ _).2 ⟨fun e he => ?_, hI.kept.entries.flip⟩)
    exact hI.kept.evaluations e (List.mem_filter.1 he).1
  have hclients := List.rel_filter (p := hasClient (known db)) (q := fun e => e.clientId.isSome)
    (fun _ _ h => Bool.eq_iff_iff.1 (h.1.hasClient h.2)) hentered
  refine forall₂_trans (fun row e m h hinbound => ?_) hclients hI.kept.inbound
  obtain ⟨sku, warehouse, clientId, hsku, hwarehouse, hclient, htags⟩ := hinbound.tags
  obtain ⟨sku', hsku', hclient', -⟩ := h.1.sku
  obtain rfl : sku = sku' := Option.some.inj (hsku.symm.trans hsku')
  have hquantity : e.afterQuantity - e.beforeQuantity = row.quantity := by
    have hmoved := h.2.moved
    omega
  rw [h.2.source, hquantity] at htags
  exact ⟨⟨hinbound.source.1, hinbound.source.2.trans h.2.source⟩, hinbound.time.trans h.2.time,
    sku, warehouse, clientId, h.2.sku ▸ hsku, h.2.warehouse ▸ hwarehouse, hclient' ▸ hclient, htags⟩

theorem Inv.outbox {db : Tables} (hI : Inv db) : OutboxOk db where
  outbound := by
    obtain ⟨placed, horders, hall⟩ := hI.announced
    rw [horders, List.append_nil]
    exact hall
  inbound := hI.arrived
  discrepancies := hI.kept.discrepancies
  orderIds := by
    rw [← List.filterMap_eq_map]
    exact hI.orders
  countIds := by
    rw [← List.filterMap_eq_map]
    exact hI.counts
  dispatchIds := hI.dispatches
  clients := hI.clients

/-- **The outbox is complete**: no command commits without its messages, and none leaves a message of
something that is not there. -/
theorem outbox_complete {Cl : Type} [DecidableEq Cl] {skus : List Sku}
    {σ : System Cl Tables Write Lock Unit ServiceError Unit} (hids : (skus.map Sku.id).Nodup)
    (h : Reachable tables Command (start skus) σ) : OutboxOk σ.db :=
  (inv_reached (Inv.start hids) h).outbox

/-- Six messages. -/
theorem outbox_complete_shirts :
    (serially (start shirts) shirtCommands).outbox.map OutboxRow.eventType = ["inbound_order_created",
        "stock_threshold_triggered", "outbound_order_created", "inbound_order_created",
        "stock_threshold_triggered", "inventory_discrepancy_detected"] ∧
      OutboxOk (serially (start shirts) shirtCommands) :=
  ⟨by decide +kernel, outbox_complete (by decide) shirtCommands_reachable⟩

end TrackFlow.Inventory.Books
