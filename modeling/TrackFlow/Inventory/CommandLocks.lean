import TrackFlow.ReadCommitted.LockOrder
import TrackFlow.Python.UuidOrder
import TrackFlow.Python.Sorting

/-!
# The locks of the inventory commands

Each command takes the advisory locks of its UUIDs, then the row of its order or count, then the
rows of its SKUs, and holds them to the end of its transaction. What it finds in the database
decides how far it gets (`Found`).

- `ordered_locks`: the locks of a command follow `Lock.rank`, whatever the UUIDs and SKUs are and
  whatever it finds;
- `no_deadlock`: so no commands wait in a circle, and one of them can go on (`some_command_ready`).
-/

namespace TrackFlow.Inventory.CommandLocks

open TrackFlow.Python
open TrackFlow.ReadCommitted

/-! ## Locks -/

/-- What is locked: a key of `pg_advisory_xact_lock`, or a row. -/
inductive Lock
  | advisory (key : Int)
  | order (id : Int)
  | count (id : Int)
  | sku (id : Int)
  deriving DecidableEq

/-- `int.from_bytes(value.bytes[:8], "big", signed=True)`. -/
def advisoryKey (value : Uuid) : Int :=
  if value.first8 < 2 ^ 63 then value.first8 else value.first8 - 2 ^ 64

/-- `_lock_idempotency_keys`. -/
def lockIdempotencyKeys (values : List Uuid) : List Lock :=
  (sortedSet (fun a b => textLe a.str b.str) values).map fun value => .advisory (advisoryKey value)

/-- `_lock_skus`, which locks the rows that it finds. -/
def lockSkus (exists_ : Int → Bool) (skuIds : List Int) : List Lock :=
  ((sortedSet (fun a b => a ≤ b) skuIds).filter exists_).map .sku

/-! ## Commands -/

/-- What the queries of a command find: the row of an order or a count, the SKUs, and the dispatches
that are there already, with the content of the command or with another one. -/
structure Found where
  order : Uuid → Option Int
  count : Uuid → Option Int
  sku : Int → Bool
  dispatch : Uuid → Option Bool

/-- `CommercialOrderDispatch`: the dispatch and its SKU. -/
structure Dispatch where
  dispatchId : Uuid
  skuId : Int

/-- A command with the ids that it locks by. -/
inductive Command
  | createStockEntry (skuId : Int)
  | createStockExit (skuId : Int)
  | updateSkuThreshold (skuId : Int)
  | createCommercialOrder (orderId : Uuid) (dispatches : List Dispatch)
  | appendCommercialOrderDispatches (orderId : Uuid) (dispatches : List Dispatch)
  | confirmInventoryPhysicalCount (countId : Uuid) (skuId : Int)

/-- `create_commercial_order`, after the advisory locks. -/
def orderRows (found : Found) (orderId : Uuid) (dispatches : List Dispatch) : List Lock :=
  match found.order orderId with
  | some row => [.order row]
  | none =>
    if dispatches.any fun d => (found.dispatch d.dispatchId).isSome then []
    else lockSkus found.sku (dispatches.map Dispatch.skuId)

/-- `append_commercial_order_dispatches`, after the advisory locks. -/
def appendRows (found : Found) (orderId : Uuid) (dispatches : List Dispatch) : List Lock :=
  match found.order orderId with
  | none => []
  | some row =>
    let newItems := dispatches.filter fun d => (found.dispatch d.dispatchId).isNone
    if dispatches.any fun d => found.dispatch d.dispatchId = some false then [.order row]
    else .order row :: lockSkus found.sku (newItems.map Dispatch.skuId)

/-- `confirm_inventory_physical_count`, after the advisory lock. -/
def countRows (found : Found) (countId : Uuid) (skuId : Int) : List Lock :=
  match found.count countId with
  | some row => [.count row]
  | none => lockSkus found.sku [skuId]

/-- The locks of a command, in the order in which it takes them. -/
def locks (found : Found) : Command → List Lock
  | .createStockEntry skuId => lockSkus found.sku [skuId]
  | .createStockExit skuId => lockSkus found.sku [skuId]
  | .updateSkuThreshold skuId => lockSkus found.sku [skuId]
  | .createCommercialOrder orderId dispatches =>
    if (dispatches.map Dispatch.dispatchId).Nodup then
      lockIdempotencyKeys (orderId :: dispatches.map Dispatch.dispatchId) ++
        orderRows found orderId dispatches
    else []
  | .appendCommercialOrderDispatches orderId dispatches =>
    if (dispatches.map Dispatch.dispatchId).Nodup then
      lockIdempotencyKeys (orderId :: dispatches.map Dispatch.dispatchId) ++
        appendRows found orderId dispatches
    else []
  | .confirmInventoryPhysicalCount countId skuId =>
      lockIdempotencyKeys [countId] ++ countRows found countId skuId

/-! ## The order -/

/-- Advisory locks by the unsigned reading of their key, then order and count rows, then SKUs by id. -/
def Lock.rank : Lock → Nat ×ₗ Int
  | .advisory key => toLex (0, key % 2 ^ 64)
  | .order id => toLex (1, id)
  | .count id => toLex (1, id)
  | .sku id => toLex (2, id)

/-- The kinds of locks, in their order. -/
def Lock.level : Lock → Nat
  | .advisory _ => 0
  | .order _ => 1
  | .count _ => 1
  | .sku _ => 2

/-- A lock of a lower kind ranks lower. -/
theorem rank_lt_of_level {a b : Lock} (h : a.level < b.level) : a.rank < b.rank := by
  rw [Prod.Lex.lt_iff]
  cases a <;> cases b <;> simp_all [Lock.level, Lock.rank]

/-- Signed keys taken as unsigned are the first eight bytes again. -/
theorem advisoryKey_emod (value : Uuid) : advisoryKey value % 2 ^ 64 = value.first8 := by
  have hlt := value.first8_lt
  unfold advisoryKey
  split <;> omega

/-- The advisory locks are taken in order, and two UUIDs with the same first eight bytes are the
same lock. -/
theorem ordered_keys (values : List Uuid) : LockOrder.Ordered Lock.rank (lockIdempotencyKeys values) := by
  have hlinear : LinearLe fun a b : Uuid => textLe a.str b.str :=
    linear_textLe.comap fun _ _ => Uuid.str_injective
  refine List.pairwise_map.2 ((hlinear.pairwise_sortedBy _).imp fun {a b} hab => ?_)
  have hle : a.first8 ≤ b.first8 := Uuid.first8_le_of_str_le (by simpa [textLe] using hab)
  rcases Nat.eq_or_lt_of_le hle with heq | hlt
  · left
    unfold advisoryKey
    rw [heq]
  · right
    rw [Lock.rank, Lock.rank, advisoryKey_emod, advisoryKey_emod, Prod.Lex.lt_iff]
    exact Or.inr ⟨rfl, Int.ofNat_lt.2 hlt⟩

/-- The SKUs are locked in order. -/
theorem ordered_skus (exists_ : Int → Bool) (skuIds : List Int) :
    LockOrder.Ordered Lock.rank (lockSkus exists_ skuIds) := by
  have hsorted := (LinearLe.ofOrder (α := Int)).pairwise_sortedBy skuIds.dedup
  refine List.pairwise_map.2 ((hsorted.filter _).imp fun {a b} hab => ?_)
  rcases Int.lt_or_eq_of_le (of_decide_eq_true hab) with hlt | heq
  · right
    rw [Prod.Lex.lt_iff]
    exact Or.inr ⟨rfl, hlt⟩
  · exact Or.inl (by rw [heq])

theorem level_of_mem_keys {values : List Uuid} {l : Lock} (h : l ∈ lockIdempotencyKeys values) :
    l.level = 0 := by
  obtain ⟨value, -, rfl⟩ := List.mem_map.1 h
  rfl

theorem level_of_mem_skus {exists_ : Int → Bool} {skuIds : List Int} {l : Lock}
    (h : l ∈ lockSkus exists_ skuIds) : l.level = 2 := by
  obtain ⟨id, -, rfl⟩ := List.mem_map.1 h
  rfl

/-- A list of rows is in order and stands above the advisory locks. -/
structure Rows (rows : List Lock) : Prop where
  ordered : LockOrder.Ordered Lock.rank rows
  level : ∀ l ∈ rows, 0 < l.level

/-- SKU rows are. -/
theorem rows_skus (exists_ : Int → Bool) (skuIds : List Int) : Rows (lockSkus exists_ skuIds) :=
  ⟨ordered_skus exists_ skuIds, fun l hl => by rw [level_of_mem_skus hl]; decide⟩

/-- So is one row. -/
theorem rows_single {l : Lock} (h : 0 < l.level) : Rows [l] :=
  ⟨List.pairwise_singleton _ _, fun l' hl' => by rwa [List.mem_singleton.1 hl']⟩

theorem rows_nil : Rows [] := ⟨List.Pairwise.nil, nofun⟩

theorem rows_order (found : Found) (orderId : Uuid) (dispatches : List Dispatch) :
    Rows (orderRows found orderId dispatches) := by
  unfold orderRows
  split
  · exact rows_single Nat.one_pos
  · split
    · exact rows_nil
    · exact rows_skus _ _

theorem rows_append (found : Found) (orderId : Uuid) (dispatches : List Dispatch) :
    Rows (appendRows found orderId dispatches) := by
  unfold appendRows
  split
  · exact rows_nil
  · rename_i row _
    dsimp only
    split
    · exact rows_single Nat.one_pos
    · have hskus := rows_skus found.sku
        ((dispatches.filter fun d => (found.dispatch d.dispatchId).isNone).map Dispatch.skuId)
      refine ⟨List.pairwise_cons.2 ⟨fun l hl => Or.inr (rank_lt_of_level ?_), hskus.ordered⟩,
        fun l hl => ?_⟩
      · rw [level_of_mem_skus hl]
        exact Nat.lt_succ_self 1
      · rcases List.mem_cons.1 hl with rfl | hl
        · exact Nat.one_pos
        · exact hskus.level l hl

theorem rows_count (found : Found) (countId : Uuid) (skuId : Int) :
    Rows (countRows found countId skuId) := by
  unfold countRows
  split
  · exact rows_single Nat.one_pos
  · exact rows_skus _ _

/-- Rows may follow advisory locks. -/
theorem ordered_append_rows (values : List Uuid) {rows : List Lock} (h : Rows rows) :
    LockOrder.Ordered Lock.rank (lockIdempotencyKeys values ++ rows) :=
  (ordered_keys values).append h.ordered fun a ha b hb =>
    rank_lt_of_level (by rw [level_of_mem_keys ha]; exact h.level b hb)

/-- A command whose dispatch ids are not distinct takes no locks. -/
theorem ordered_unique {ids values : List Uuid} {rows : List Lock} (h : Rows rows) :
    LockOrder.Ordered Lock.rank (if ids.Nodup then lockIdempotencyKeys values ++ rows else []) := by
  split
  · exact ordered_append_rows _ h
  · exact List.Pairwise.nil

/-- Every command takes its locks in the order of their ranks, whatever it finds. -/
theorem ordered_locks (found : Found) (command : Command) :
    LockOrder.Ordered Lock.rank (locks found command) := by
  cases command with
  | createStockEntry skuId => exact ordered_skus _ _
  | createStockExit skuId => exact ordered_skus _ _
  | updateSkuThreshold skuId => exact ordered_skus _ _
  | createCommercialOrder orderId dispatches => exact ordered_unique (rows_order found orderId dispatches)
  | appendCommercialOrderDispatches orderId dispatches =>
    exact ordered_unique (rows_append found orderId dispatches)
  | confirmInventoryPhysicalCount countId skuId =>
      exact ordered_append_rows _ (rows_count found countId skuId)

/-! ## Commands side by side -/

variable {Cl : Type} [DecidableEq Cl]

/-- What a transaction of a command locks. -/
def Takes (taken : List Lock) : Prop := ∃ found command, taken = locks found command

theorem ordered_takes (taken : List Lock) (h : Takes taken) : LockOrder.Ordered Lock.rank taken := by
  obtain ⟨found, command, rfl⟩ := h
  exact ordered_locks found command

/-- **No deadlock**: whatever commands run side by side, they never wait for one another in a circle. -/
theorem no_deadlock {s : LockOrder.Transactions Cl Lock} (h : LockOrder.Reachable Takes s) (i : Cl) :
    ¬Relation.TransGen (LockOrder.Waits s) i i :=
  LockOrder.acyclic ordered_takes h i

/-- Two counts whose UUIDs share their first eight bytes: the second waits for the first, which
waits for nobody. -/
theorem no_deadlock_collision : ∃ s : LockOrder.Transactions Nat Lock,
    LockOrder.Waits s 1 0 ∧ ∀ i, ¬Relation.TransGen (LockOrder.Waits s) i i := by
  have htakes : ∀ value : Uuid, advisoryKey value = 0 → Takes [.advisory 0, .sku 7] := by
    intro value hkey
    refine ⟨⟨fun _ => none, fun _ => none, fun _ => true, fun _ => none⟩,
      .confirmInventoryPhysicalCount value 7, ?_⟩
    have hsingle : lockIdempotencyKeys [value] = [.advisory (advisoryKey value)] := rfl
    rw [locks, hsingle, hkey]
    rfl
  have h₁ : LockOrder.Reachable Takes _ :=
    .step .idle (.start (i := (0 : Nat)) rfl (htakes (Uuid.ofNat 1) (by decide)))
  have h₂ := LockOrder.Reachable.step h₁ (.start (i := 1) rfl (htakes (Uuid.ofNat 2) (by decide)))
  have h₃ := LockOrder.Reachable.step h₂ (.take (i := 0) (k := .advisory 0) rfl ?_)
  · exact ⟨_, ⟨by decide, .advisory 0, [], [.sku 7], _, rfl, rfl, List.mem_cons_self⟩, no_deadlock h₃⟩
  · intro j t hj ht
    by_cases h1 : j = 1
    · subst h1
      cases ht
      exact List.not_mem_nil
    · simp [Function.update_of_ne h1, Function.update_of_ne hj] at ht

/-- While a command is at work, one is that waits for nobody. -/
theorem some_command_ready [Finite Cl] {s : LockOrder.Transactions Cl Lock}
    (h : LockOrder.Reachable Takes s)
    {i : Cl} (hi : (s i).isSome) : ∃ j, (s j).isSome ∧ ∀ j', ¬LockOrder.Waits s j j' :=
  LockOrder.exists_ready ordered_takes h hi

end TrackFlow.Inventory.CommandLocks
