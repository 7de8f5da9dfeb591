import TrackFlow.ReadCommitted.System
import TrackFlow.Inventory.Books

/-!
# The rules of the inventory

What the locks of a transaction protect (`guard`, `Agree`), and what changes without any transaction
(`World`): products are created, and the relay marks the rows of the outbox. Neither breaks the books of
others (`Agree.frame`, `World.agree`, `World.inv`).
-/

namespace TrackFlow.Inventory.Books

open TrackFlow.Python TrackFlow.ReadCommitted TrackFlow.Balances
open TrackFlow.Pipelines (OutboxRow canonicalTelemetryWarehouse)
open CommandLocks (Lock advisoryKey)

/-! ## What locks protect -/

/-- The row locks and the advisory locks that a write is made under. -/
def guard : Write → Set Lock
  | .entry row => {.sku row.skuId}
  | .exit row => {l | l = .sku row.skuId ∨ ∃ u, row.dispatchId = some u ∧ l = .advisory (advisoryKey u)}
  | .order row => {.advisory (advisoryKey row.orderId)}
  | .count row => {.advisory (advisoryKey row.countId)}
  | .evaluation row => {.sku row.skuId}
  | .outbox _ => ∅
  | .threshold sku _ => {.sku sku}

/-- The rows of a SKU. -/
structure SameRows (sku : Int) (a b : Tables) : Prop where
  entries : (b.entries.filter fun e => e.skuId = sku) = a.entries.filter fun e => e.skuId = sku
  exits : (b.exits.filter fun e => e.skuId = sku) = a.exits.filter fun e => e.skuId = sku
  evaluations : (b.evaluations.filter fun e => e.skuId = sku) = a.evaluations.filter fun e => e.skuId = sku

/-- What the holder of the locks `L` can rely on. -/
structure Agree (L : Set Lock) (a b : Tables) : Prop where
  known : ∀ id sku, known a id = some sku → known b id = some sku
  sku : ∀ id sku, .sku id ∈ L → a.sku id = some sku → b.sku id = some sku
  rows : ∀ id, .sku id ∈ L → SameRows id a b
  orders : ∀ u, .advisory (advisoryKey u) ∈ L →
    u ∉ a.orders.filterMap orderKey → u ∉ b.orders.filterMap orderKey
  dispatches : ∀ u, .advisory (advisoryKey u) ∈ L →
    u ∉ a.exits.filterMap StockExit.dispatchId → u ∉ b.exits.filterMap StockExit.dispatchId
  counts : ∀ u, .advisory (advisoryKey u) ∈ L →
    u ∉ a.counts.filterMap countKey → u ∉ b.counts.filterMap countKey
  kept : ∀ o ∈ a.orders, o ∈ b.orders

theorem SameRows.refl (sku : Int) (a : Tables) : SameRows sku a a := ⟨rfl, rfl, rfl⟩

theorem Agree.refl (L : Set Lock) (a : Tables) : Agree L a a :=
  ⟨fun _ _ h => h, fun _ _ _ h => h, fun _ _ => .refl _ _, fun _ _ h => h, fun _ _ h => h, fun _ _ h => h,
    fun _ h => h⟩

theorem Agree.trans {L : Set Lock} {a b c : Tables} (h : Agree L a b) (h' : Agree L b c) : Agree L a c where
  known id sku hk := h'.known id sku (h.known id sku hk)
  sku id sku hL hs := h'.sku id sku hL (h.sku id sku hL hs)
  rows id hL := ⟨(h'.rows id hL).entries.trans (h.rows id hL).entries,
    (h'.rows id hL).exits.trans (h.rows id hL).exits,
    (h'.rows id hL).evaluations.trans (h.rows id hL).evaluations⟩
  orders u hL hu := h'.orders u hL (h.orders u hL hu)
  dispatches u hL hu := h'.dispatches u hL (h.dispatches u hL hu)
  counts u hL hu := h'.counts u hL (h.counts u hL hu)
  kept o ho := h'.kept o (h.kept o ho)

theorem Agree.mono {L M : Set Lock} {a b : Tables} (hLM : L ⊆ M) (h : Agree M a b) : Agree L a b where
  known := h.known
  sku id sku hL := h.sku id sku (hLM hL)
  rows id hL := h.rows id (hLM hL)
  orders u hL := h.orders u (hLM hL)
  dispatches u hL := h.dispatches u (hLM hL)
  counts u hL := h.counts u (hLM hL)
  kept := h.kept

/-- **Frame**: a write leaves what the locks of others protect. -/
theorem Agree.frame {L : Set Lock} {db : Tables} {w : Write} (h : Disjoint (guard w) L) :
    Agree L db (applyWrite db w) := by
  have hout : ∀ l ∈ guard w, l ∉ L := fun l hl => Set.disjoint_left.1 h hl
  have hknown : ∀ id sku, Books.known db id = some sku → Books.known (applyWrite db w) id = some sku := by
    rw [known_applyWrite]
    exact fun _ _ hk => hk
  cases w with
  | entry row =>
    refine { (Agree.refl L db : Agree L db db) with rows := fun id hL => ⟨?_, rfl, rfl⟩ }
    have hne : row.skuId ≠ id := by
      rintro rfl
      exact hout _ rfl hL
    simp [applyWrite, hne]
  | exit row =>
    refine { (Agree.refl L db : Agree L db db) with
      rows := fun id hL => ⟨rfl, ?_, rfl⟩
      dispatches := fun u hL hu => ?_ }
    · have hne : row.skuId ≠ id := by
        rintro rfl
        exact hout _ (Or.inl rfl) hL
      simp [applyWrite, hne]
    · have hne : row.dispatchId ≠ some u := fun hd => hout _ (Or.inr ⟨u, hd, rfl⟩) hL
      rw [applyWrite, List.filterMap_append, List.mem_append, not_or]
      refine ⟨hu, ?_⟩
      simpa using hne
  | order row =>
    refine { (Agree.refl L db : Agree L db db) with
      rows := fun _ _ => ⟨rfl, rfl, rfl⟩
      orders := fun u hL hu => ?_
      kept := fun o ho => List.mem_append_left _ ho }
    have hne : row.orderId ≠ u := by
      rintro rfl
      exact hout _ rfl hL
    rw [applyWrite, List.filterMap_append, List.mem_append, not_or]
    exact ⟨hu, by simpa [orderKey] using fun he => hne he.symm⟩
  | count row =>
    refine { (Agree.refl L db : Agree L db db) with
      rows := fun _ _ => ⟨rfl, rfl, rfl⟩
      counts := fun u hL hu => ?_ }
    have hne : row.countId ≠ u := by
      rintro rfl
      exact hout _ rfl hL
    rw [applyWrite, List.filterMap_append, List.mem_append, not_or]
    exact ⟨hu, by simpa [countKey] using fun he => hne he.symm⟩
  | evaluation row =>
    refine { (Agree.refl L db : Agree L db db) with rows := fun id hL => ⟨rfl, rfl, ?_⟩ }
    have hne : row.skuId ≠ id := by
      rintro rfl
      exact hout _ rfl hL
    simp [applyWrite, hne]
  | outbox row => exact { (Agree.refl L db : Agree L db db) with rows := fun _ _ => ⟨rfl, rfl, rfl⟩ }
  | threshold sku value =>
    refine { (Agree.refl L db : Agree L db db) with
      known := hknown
      rows := fun _ _ => ⟨rfl, rfl, rfl⟩
      sku := fun id s hL hs => ?_ }
    have hne : s.id ≠ sku := by
      rintro rfl
      exact hout _ rfl (sku_id hs ▸ hL)
    rw [sku_threshold, hs, Option.map_some, if_neg hne]

/-! ## The world -/

/-- What changes between statements: products are created, and the relay marks the rows of the outbox. -/
structure World (db db' : Tables) : Prop where
  skus : ∃ new, db'.skus = db.skus ++ new
  ids : (db'.skus.map Sku.id).Nodup
  entries : db'.entries = db.entries
  exits : db'.exits = db.exits
  orders : db'.orders = db.orders
  counts : db'.counts = db.counts
  evaluations : db'.evaluations = db.evaluations
  outbox : db'.outbox.map message = db.outbox.map message

section World

variable {db db' : Tables}

theorem World.sku (h : World db db') {id : Int} {sku : Sku} (hs : db.sku id = some sku) :
    db'.sku id = some sku := by
  obtain ⟨new, hnew⟩ := h.skus
  rw [Tables.sku, hnew, List.find?_append, show db.skus.find? _ = some sku from hs]
  rfl

theorem World.known (h : World db db') {id : Int} {sku : Sku} (hk : known db id = some sku) :
    known db' id = some sku := by
  obtain ⟨s, hs, rfl⟩ := sku_of_known hk
  exact known_of_sku (h.sku hs)

theorem World.agree {L : Set Lock} (h : World db db') : Agree L db db' where
  known _ _ := h.known
  sku _ _ _ := h.sku
  rows id _ := ⟨by rw [h.entries], by rw [h.exits], by rw [h.evaluations]⟩
  orders u _ hu := by rwa [h.orders]
  dispatches u _ hu := by rwa [h.exits]
  counts u _ hu := by rwa [h.counts]
  kept o ho := by rwa [h.orders]

/-- A SKU without movements. -/
theorem no_rows {id : Int} (hentry : ∀ row ∈ db.entries, row.skuId ≠ id)
    (hexit : ∀ row ∈ db.exits, row.skuId ≠ id) (hevaluation : ∀ e ∈ db.evaluations, e.skuId ≠ id)
    (warehouse : String) : history db id = [] ∧ stock db id warehouse = 0 := by
  constructor
  · rw [history, List.map_eq_nil_iff, List.filter_eq_nil_iff]
    exact fun e he => by simpa using hevaluation e he
  · have hentries : (db.entries.filter fun e => e.skuId = id ∧ e.warehouse = warehouse) = [] :=
      List.filter_eq_nil_iff.2 fun row hrow => by simp [hentry row hrow]
    have hexits : (db.exits.filter fun e => e.skuId = id ∧ e.warehouse = warehouse) = [] :=
      List.filter_eq_nil_iff.2 fun row hrow => by simp [hexit row hrow]
    rw [stock, entrySum, exitSum, hentries, hexits]
    rfl

/-- A SKU that is not there has no rows. -/
theorem Kept.unmoved {f : Int → Option Sku} (h : Kept f db) {id : Int} (hid : f id = none)
    (warehouse : String) : history db id = [] ∧ stock db id warehouse = 0 := by
  have hevaluation : ∀ e ∈ db.evaluations, e.skuId ≠ id := by
    rintro e he rfl
    obtain ⟨sku, hsku, -⟩ := (h.evaluations e he).sku
    rw [hid] at hsku
    cases hsku
  have hentry : ∀ row ∈ db.entries, row.skuId ≠ id := by
    intro row hrow
    obtain ⟨e, he, hentered⟩ := partner h.entries hrow
    exact hentered.sku ▸ hevaluation e (List.mem_filter.1 he).1
  have hexit : ∀ row ∈ db.exits, row.skuId ≠ id := by
    intro row hrow
    obtain ⟨e, he, hleft⟩ := partner h.exits hrow
    exact hleft.sku ▸ hevaluation e (List.mem_filter.1 he).1
  exact no_rows hentry hexit hevaluation warehouse

theorem messages_congr (h : db'.outbox.map message = db.outbox.map message) (eventType : String) :
    messages eventType db' = messages eventType db := by rw [messages, messages, h]

/-- The world leaves the books as they are. -/
theorem Kept.world {f : Int → Option Sku} (hk : Kept f db) (h : World db db') : Kept f db' where
  entries := by
    rw [h.entries, evaluationsOf, h.evaluations]
    exact hk.entries
  exits := by
    rw [h.exits, evaluationsOf, h.evaluations]
    exact hk.exits
  evaluations := by
    rw [h.evaluations]
    exact hk.evaluations
  crossings := by
    rw [h.evaluations, messages_congr h.outbox]
    exact hk.crossings
  inbound := by
    rw [evaluationsOf, h.evaluations, messages_congr h.outbox]
    exact hk.inbound
  discrepancies := by
    rw [h.counts, messages_congr h.outbox]
    exact hk.discrepancies
  counts := by
    rw [h.counts]
    exact hk.counts
  pairs := by
    rw [h.outbox]
    exact hk.pairs

theorem World.inv (h : World db db') (hI : Inv db) : Inv db' where
  ids := h.ids
  kept := (hI.kept.world h).known fun _ _ => h.known
  announced := by
    rw [Announced, h.orders, messages_congr h.outbox]
    exact hI.announced
  balanced id sku hsku := by
    have hstock : history db' id = history db id ∧
        stock db' id sku.warehouse = stock db id sku.warehouse := by
      simp only [history, stock, entrySum, exitSum, h.entries, h.exits, h.evaluations, and_self]
    rw [hstock.1, hstock.2]
    cases hold : Books.known db id with
    | none =>
      obtain ⟨hhistory, hzero⟩ := hI.kept.unmoved hold sku.warehouse
      rw [hhistory, hzero]
      rfl
    | some sku' =>
      rw [h.known hold, Option.some.injEq] at hsku
      exact hsku ▸ hI.balanced id sku' hold
  orders := by rw [h.orders]; exact hI.orders
  dispatches := by rw [h.exits]; exact hI.dispatches
  counts := by rw [h.counts]; exact hI.counts
  clients e he pk hpk := by
    rw [h.exits] at he
    obtain ⟨hdispatch, o, ho, hid, hwarehouse, sku, hsku, hclient⟩ := hI.clients e he pk hpk
    rw [h.orders]
    exact ⟨hdispatch, o, ho, hid, hwarehouse, sku, h.known hsku, hclient⟩
  dispatched := by rw [h.orders, h.exits]; exact hI.dispatched

end World

/-- The primary keys and the UNIQUE columns of the tables. -/
inductive Key
  | row (table : String) (id : Int)
  | uuid (table : String) (id : Uuid)
  | evaluation (sourceTable : String) (sourcePk : Int)
  | message (sourceTable : String) (sourcePk : Int) (eventType : String)

/-- The keys of what a write inserts. -/
def keysOf : Write → List Key
  | .entry row => [.row "stockentry" row.id]
  | .exit row => .row "stockexit" row.id :: row.dispatchId.toList.map (.uuid "stockexit")
  | .order row => [.row "commercial_order" row.id, .uuid "commercial_order" row.orderId]
  | .count row => [.row "inventory_physical_count" row.id, .uuid "inventory_physical_count" row.countId]
  | .evaluation row => [.evaluation row.sourceTable row.sourcePk]
  | .outbox row => [.uuid "inventory_event_outbox" row.eventId,
      .message row.sourceTable row.sourcePk row.eventType]
  | .threshold _ _ => []

/-- The tables of the inventory. An INSERT waits for a transaction that has used one of its keys. -/
def tables : Shared Tables Write where
  apply := applyWrite
  accepts := acceptsWrite
  clash v w := ¬(keysOf v).Disjoint (keysOf w)
  world := World

/-- What a write promises: an evaluation is made with the threshold that its SKU has. -/
def InForce (db : Tables) : Write → Prop
  | .evaluation row => ∃ sku, db.sku row.skuId = some sku ∧ row.thresholdQuantity =
    sku.minimumStockThreshold
  | _ => True

/-- The rules of the inventory. -/
def rules : Rules tables Lock Unit where
  Inv := Inv
  made := InForce
  told _ _ := True
  agree := Agree
  guard := guard
  refl := Agree.refl
  trans := Agree.trans
  mono := Agree.mono
  frame := Agree.frame
  world_agree := World.agree
  world_inv := World.inv

end TrackFlow.Inventory.Books
