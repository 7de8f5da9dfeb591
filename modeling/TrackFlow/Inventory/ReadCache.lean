import TrackFlow.Inventory.Tables

/-!
# The caches of the inventory reads

What `GET /products` and `GET /orders` answer from the states that their queries see, and the
`TTLCache` they keep the answers in: what a lookup finds was stored before (`get_some`,
`get_entries`), and has not been deleted since (`delete_entries`).
-/

namespace TrackFlow.Inventory

open TrackFlow.Python

/-! ## Responses -/

/-- `SKUResponse`. -/
structure SkuResponse where
  sku : Sku
  currentStock : Int

/-- `InventoryOrderListItem`. -/
structure OrderListItem where
  id : Int
  movementType : String
  quantity : Int
  warehouse : String
  createdAt : Int
  userUuid : String
  skuName : String
  skuCode : String
  reference : Option String
  exitType : Option String
  trackingNumber : Option String

/-- `get_current_stocks`, from the states that its two queries see. -/
def currentStocks (entries exits : Tables) (sku : Int) (warehouse : String) : Int :=
  entrySum entries sku warehouse - exitSum exits sku warehouse

/-- The response of `list_products`, from the states that its queries see. -/
def listProducts (skus entries exits : Tables) : List SkuResponse :=
  skus.skus.map fun s => ⟨s, currentStocks entries exits s.id s.warehouse⟩

/-- An entry in the list of movements. -/
def StockEntry.item (e : StockEntry) (s : Sku) : OrderListItem :=
  ⟨e.id, "inbound", e.quantity, e.warehouse, e.createdAt, e.userUuid, s.name, s.sku, some e.reference, none,
    none⟩

/-- An exit in the list of movements. -/
def StockExit.item (e : StockExit) (s : Sku) : OrderListItem :=
  ⟨e.id, "outbound", e.quantity, e.warehouse, e.createdAt, e.userUuid, s.name, s.sku, none, some e.exitType,
    e.trackingNumber⟩

/-- The sort key of `list_orders`. -/
def OrderListItem.le (a b : OrderListItem) : Bool :=
  pairLe (fun x y : Int => x ≤ y) (pairLe textLe fun x y : Int => x ≤ y) (a.createdAt, a.movementType, a.id)
    (b.createdAt, b.movementType, b.id)

/-- `sku_ids`. -/
def movementSkus (entries exits : Tables) : List Int :=
  entries.entries.map StockEntry.skuId ++ exits.exits.map StockExit.skuId

/-- `list_orders`, from the states that its queries see; `none` for an `InventoryDataIntegrityError`. -/
def listOrders (entries exits skus : Tables) : Option (List OrderListItem) :=
  if ∀ id ∈ movementSkus entries exits, (skus.sku id).isSome then
    some (sortedBy OrderListItem.le
      ((entries.entries.filterMap fun e => (skus.sku e.skuId).map e.item) ++
        exits.exits.filterMap fun e => (skus.sku e.skuId).map e.item))
  else none

/-- A cached response. -/
inductive Response
  | products (items : List SkuResponse)
  | orders (items : List OrderListItem)

/-- The namespaces of the cache. -/
inductive Kind
  | products
  | orders
  deriving DecidableEq

/-- What a request does after some of its queries. -/
inductive Progress
  | more
  | result (response : Response)
  | error

/-- A request of a kind, from the states that its queries have seen. The SKUs of the movements are
looked up only if there are any. -/
def Kind.progress : Kind → List Tables → Progress
  | .products, [skus, entries, exits] => .result (.products (listProducts skus entries exits))
  | .orders, [entries, exits] => if movementSkus entries exits = [] then .result (.orders []) else .more
  | .orders, [entries, exits, skus] =>
    match listOrders entries exits skus with
    | some items => .result (.orders items)
    | none => .error
  | _, _ => .more

/-- The products are listed after three queries. -/
theorem products_result {seen : List Tables} {response : Response}
    (h : Kind.products.progress seen = .result response) :
    ∃ skus entries exits, seen = [skus, entries, exits] ∧
      response = .products (listProducts skus entries exits) := by
  unfold Kind.progress at h
  split at h
  · cases h
    exact ⟨_, _, _, rfl, rfl⟩
  · contradiction
  · contradiction
  · cases h

/-! ## The cache -/

/-- `_Entry`. -/
structure CacheEntry (α : Type) where
  value : α
  expiresAt : Int

/-- `TTLCache`, which the constructor gives a positive TTL. -/
structure TTLCache (κ α : Type) where
  ttlSeconds : Int
  ttl_pos : 0 < ttlSeconds
  entries : κ → Option (CacheEntry α) := fun _ => none

namespace TTLCache

variable {κ α : Type} [DecidableEq κ] (c : TTLCache κ α) (now : Int) (key : κ)

/-- `delete`. -/
def delete : TTLCache κ α := { c with entries := Function.update c.entries key none }

/-- `get`: the value, and the cache without the entry if it has expired. -/
def get : Option α × TTLCache κ α :=
  match c.entries key with
  | none => (none, c)
  | some entry => if entry.expiresAt ≤ now then (none, c.delete key) else (some entry.value, c)

/-- `set`. -/
def set (value : α) : TTLCache κ α :=
  { c with entries := Function.update c.entries key (some ⟨value, now + c.ttlSeconds⟩) }

variable {c now key}

/-- A value that is found is in an entry. -/
theorem get_some {value : α} (h : (c.get now key).1 = some value) :
    ∃ entry, c.entries key = some entry ∧ entry.value = value ∧ (c.get now key).2 = c := by
  unfold get at h ⊢
  split at h
  · cases h
  · rename_i entry hentry
    split at h
    · cases h
    · rename_i hlive
      rw [hentry]
      simp only [if_neg hlive]
      exact ⟨entry, rfl, Option.some.inj h, trivial⟩

/-- A deleted key is gone, the others stay. -/
theorem delete_entries {key' : κ} {entry : CacheEntry α} (h : (c.delete key).entries key' = some entry) :
    key' ≠ key ∧ c.entries key' = some entry := by
  unfold delete at h
  by_cases hk : key' = key
  · subst hk
    simp at h
  · exact ⟨hk, by simpa [Function.update_of_ne hk] using h⟩

/-- What is in the cache after a lookup was there before. -/
theorem get_entries {key' : κ} {entry : CacheEntry α} (h : (c.get now key).2.entries key' = some entry) :
    c.entries key' = some entry := by
  unfold get at h
  split at h
  · exact h
  · split at h
    · exact (delete_entries h).2
    · exact h

/-- What is in the cache after a store was there before, or is what was stored. -/
theorem set_entries {key' : κ} {value : α} {entry : CacheEntry α}
    (h : (c.set now key value).entries key' = some entry) :
    (key' = key ∧ entry.value = value) ∨ c.entries key' = some entry := by
  unfold set at h
  by_cases hk : key' = key
  · subst hk
    simp only [Function.update_self, Option.some.injEq] at h
    exact Or.inl ⟨rfl, by rw [← h]⟩
  · exact Or.inr (by simpa [Function.update_of_ne hk] using h)

end TTLCache

end TrackFlow.Inventory
