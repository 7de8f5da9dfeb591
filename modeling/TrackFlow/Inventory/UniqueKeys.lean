import TrackFlow.ReadCommitted.Keys
import TrackFlow.Pipelines.OperationalCoverage
import TrackFlow.Inventory.BooksSafety

/-!
# The keys of the inventory

No two rows of a table have one key, in every state that commands reach (`Unique.reached`): the constraints
compare a row with those that its transaction sees, and INSERTs of one key wait for each other.
-/

namespace TrackFlow.Inventory.Books

open TrackFlow.Python TrackFlow.ReadCommitted
open TrackFlow.Pipelines (OutboxRow)
open CommandLocks (Lock)

/-- The INSERTs of all rows. -/
def insertsOf (db : Tables) : List Write :=
  db.entries.map .entry ++ (db.exits.map .exit ++ (db.orders.map .order ++ (db.counts.map .count ++
    (db.evaluations.map .evaluation ++ db.outbox.map .outbox))))

/-- The keys of all rows. -/
def keyRows (db : Tables) : List Key := (insertsOf db).flatMap keysOf

section Keys

variable {db db' : Tables} {w : Write}

/-- A row comes to the end of its table. -/
theorem insertsOf_applyWrite (h : ∀ sku value, w ≠ .threshold sku value) :
    (insertsOf (applyWrite db w)).Perm (insertsOf db ++ [w]) := by
  rw [← Multiset.coe_eq_coe]
  cases w with
  | threshold sku value => exact absurd rfl (h sku value)
  | _ =>
    simp only [insertsOf, applyWrite, List.map_append, List.map_cons, List.map_nil, ← Multiset.coe_add]
    abel

theorem keyRows_applyWrite (db : Tables) (w : Write) :
    (keyRows (applyWrite db w)).Perm (keyRows db ++ keysOf w) := by
  by_cases hw : ∃ sku value, w = .threshold sku value
  · obtain ⟨sku, value, rfl⟩ := hw
    simp [keyRows, keysOf, insertsOf, applyWrite]
  · have hperm : (insertsOf (applyWrite db w)).Perm (insertsOf db ++ [w]) :=
      insertsOf_applyWrite fun sku value h => hw ⟨sku, value, h⟩
    refine (hperm.flatMap_right keysOf).trans ?_
    simp [keyRows]

/-- A key that a row has. -/
def Taken (db : Tables) : Key → Prop
  | .row table id =>
    (∃ e ∈ db.entries, table = "stockentry" ∧ e.id = id) ∨
      (∃ e ∈ db.exits, table = "stockexit" ∧ e.id = id) ∨
      (∃ o ∈ db.orders, table = "commercial_order" ∧ o.id = id) ∨
      ∃ c ∈ db.counts, table = "inventory_physical_count" ∧ c.id = id
  | .uuid table u =>
    (∃ e ∈ db.exits, table = "stockexit" ∧ e.dispatchId = some u) ∨
      (∃ o ∈ db.orders, table = "commercial_order" ∧ o.orderId = u) ∨
      (∃ c ∈ db.counts, table = "inventory_physical_count" ∧ c.countId = u) ∨
      ∃ e ∈ db.outbox, table = "inventory_event_outbox" ∧ e.eventId = u
  | .evaluation sourceTable sourcePk =>
    ∃ e ∈ db.evaluations, e.sourceTable = sourceTable ∧ e.sourcePk = sourcePk
  | .message sourceTable sourcePk eventType =>
    ∃ e ∈ db.outbox, e.sourceTable = sourceTable ∧ e.sourcePk = sourcePk ∧ e.eventType = eventType

theorem mem_keyRows {k : Key} : k ∈ keyRows db ↔ Taken db k := by
  cases k <;>
    simp [keyRows, insertsOf, keysOf, Taken, List.mem_flatMap, eq_comm, and_comm, and_left_comm]

/-- The constraints compare the keys of a row with those of all rows. -/
theorem keysOf_new (h : acceptsWrite db w = true) {k : Key} (hk : k ∈ keysOf w) : k ∉ keyRows db := by
  rw [mem_keyRows]
  cases w with
  | entry row =>
    simp only [acceptsWrite, decide_eq_true_eq] at h
    simp only [keysOf, List.mem_singleton] at hk
    subst hk
    simpa [Taken] using h.1
  | exit row =>
    simp only [acceptsWrite, decide_eq_true_eq] at h
    obtain ⟨hids, -, -, hdispatches, -⟩ := h
    simp only [keysOf, List.mem_cons, List.mem_map, Option.mem_toList] at hk
    rcases hk with rfl | ⟨u, hu, rfl⟩
    · simpa [Taken] using hids
    · simpa [Taken, hu] using hdispatches
  | order row =>
    simp only [acceptsWrite, decide_eq_true_eq] at h
    simp only [keysOf, List.mem_cons, List.not_mem_nil, or_false] at hk
    rcases hk with rfl | rfl
    · simpa [Taken] using fun o ho => (h o ho).1
    · simpa [Taken] using fun o ho => (h o ho).2
  | count row =>
    simp only [acceptsWrite, decide_eq_true_eq] at h
    simp only [keysOf, List.mem_cons, List.not_mem_nil, or_false] at hk
    rcases hk with rfl | rfl
    · simpa [Taken] using fun c hc => (h.1 c hc).1
    · simpa [Taken] using fun c hc => (h.1 c hc).2
  | evaluation row =>
    simp only [acceptsWrite, decide_eq_true_eq] at h
    simp only [keysOf, List.mem_singleton] at hk
    subst hk
    rintro ⟨e, he, hkey⟩
    exact h.1 e he hkey
  | outbox row =>
    simp only [acceptsWrite, decide_eq_true_eq] at h
    simp only [keysOf, List.mem_cons, List.not_mem_nil, or_false] at hk
    rcases hk with rfl | rfl
    · simpa [Taken] using fun e he => (h.1 e he).1
    · rintro ⟨e, he, hkey⟩
      exact (h.1 e he).2 hkey
  | threshold sku value => cases hk

theorem keysOf_nodup (w : Write) : (keysOf w).Nodup := by
  cases w with
  | exit row => cases hd : row.dispatchId <;> simp [keysOf, hd]
  | _ => simp [keysOf]

/-- What the world changes has no keys. -/
theorem keyRows_world (h : World db db') : keyRows db' = keyRows db := by
  have hmessages : ∀ rows : List OutboxRow, (rows.map Write.outbox).flatMap keysOf =
      (rows.map message).flatMap fun m =>
        [.uuid "inventory_event_outbox" m.eventId, .message m.sourceTable m.sourcePk m.eventType] := by
    intro rows
    rw [List.flatMap_map, List.flatMap_map]
    rfl
  simp only [keyRows, insertsOf, h.entries, h.exits, h.orders, h.counts, h.evaluations,
    List.flatMap_append, hmessages, h.outbox]

/-- The keys of the inventory. -/
def keyed : Keyed tables Key where
  rows := keyRows
  inserts := keysOf
  apply := keyRows_applyWrite
  accepts := by
    intro db w h hrows
    refine List.nodup_append'.2 ⟨hrows, keysOf_nodup w, fun k hk hk' => ?_⟩
    exact keysOf_new h hk' hk
  clash := not_not.1
  world h := by rw [keyRows_world h]

end Keys

/-- No two rows have one key. -/
structure Unique (db : Tables) : Prop where
  entries : (db.entries.map StockEntry.id).Nodup
  exits : (db.exits.map StockExit.id).Nodup
  orders : (db.orders.map CommercialOrder.id).Nodup
  counts : (db.counts.map PhysicalCount.id).Nodup
  evaluations : (db.evaluations.map fun e => (e.sourceTable, e.sourcePk)).Nodup
  messages : (db.outbox.map OutboxRow.key).Nodup
  events : (db.outbox.map OutboxRow.eventId).Nodup

/-- The keys of one of the tables are distinct. -/
theorem nodup_of_keys {ρ κ : Type} {rows : List ρ} {insert : ρ → Write} {key : ρ → κ} (name : κ → Key)
    (h : ((rows.map insert).flatMap keysOf).Nodup) (hkey : ∀ row, name (key row) ∈ keysOf (insert row)) :
    (rows.map key).Nodup := by
  rw [List.flatMap_map, List.nodup_flatMap] at h
  refine List.pairwise_map.2 (h.2.imp fun {a b} hdisjoint heq => ?_)
  exact hdisjoint (hkey a) (heq ▸ hkey b)

theorem Unique.of_keyRows {db : Tables} (h : (keyRows db).Nodup) : Unique db := by
  simp only [keyRows, insertsOf, List.flatMap_append] at h
  have hexits := h.of_append_right
  have horders := hexits.of_append_right
  have hcounts := horders.of_append_right
  have hevaluations := hcounts.of_append_right
  have houtbox := hevaluations.of_append_right
  exact {
    entries := nodup_of_keys (Key.row "stockentry") h.of_append_left fun row => by simp [keysOf]
    exits := nodup_of_keys (Key.row "stockexit") hexits.of_append_left fun row => by simp [keysOf]
    orders := nodup_of_keys (Key.row "commercial_order") horders.of_append_left fun row => by
      simp [keysOf]
    counts := nodup_of_keys (Key.row "inventory_physical_count") hcounts.of_append_left fun row => by
      simp [keysOf]
    evaluations := nodup_of_keys (fun k => Key.evaluation k.1 k.2) hevaluations.of_append_left
      fun row => by simp [keysOf]
    messages := nodup_of_keys (fun k => Key.message k.1 k.2.1 k.2.2) houtbox fun row => by
      simp [keysOf, OutboxRow.key]
    events := nodup_of_keys (Key.uuid "inventory_event_outbox") houtbox fun row => by
      simp [keysOf] }

/-- No two rows have one key in any state that commands reach. -/
theorem unique_reached {Cl α : Type} [DecidableEq Cl] {db₀ : Tables}
    {σ : System Cl Tables Write Lock Unit ServiceError α} {Runs : Txn α → Prop}
    (h₀ : (keyRows db₀).Nodup) (h : Reachable tables Runs db₀ σ) : Unique σ.db :=
  .of_keyRows (keyed.unique h₀ h)

end TrackFlow.Inventory.Books
