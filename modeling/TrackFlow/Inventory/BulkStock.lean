import TrackFlow.Inventory.Tables
import TrackFlow.Python.Dict

/-!
# Stock in bulk and for one SKU

`get_current_stocks` reads two grouped sums and puts them together; `get_current_stock` reads two
filtered sums. `SUM` over no rows is NULL, and Python raises a `TypeError` when NULL is subtracted.

- `bulk_stock_eq`: both give the same stock for every pair, so the product list shows what the
  movements check.
-/

namespace TrackFlow.Inventory.Bulk

open TrackFlow.Python

/-! ## Queries -/

/-- `SUM` of some rows: NULL over no rows. -/
def sqlSum : List Int → Option Int
  | [] => none
  | q :: qs => some (q + qs.sum)

/-- `SELECT key, SUM(quantity) … GROUP BY key`. -/
def groupedSums {κ : Type} [DecidableEq κ] (rows : List (κ × Int)) : List (κ × Option Int) :=
  (rows.map Prod.fst).dedup.map fun k => (k, sqlSum ((rows.filter fun row => row.1 = k).map Prod.snd))

/-- `(sku_id, warehouse)`. -/
abbrev StockKey : Type := Int × String

/-- The keys and quantities of the entries. -/
def entryQuantities (db : Tables) : List (StockKey × Int) :=
  db.entries.map fun e => ((e.skuId, e.warehouse), e.quantity)

/-- The keys and quantities of the exits. -/
def exitQuantities (db : Tables) : List (StockKey × Int) :=
  db.exits.map fun e => ((e.skuId, e.warehouse), e.quantity)

/-! ## Stock -/

/-- `entries - exits`, a `TypeError` if one of them is `None`. -/
def subtract (entries exits : Option Int) : Except String Int :=
  match entries, exits with
  | some entries, some exits => .ok (entries - exits)
  | _, _ => .error "TypeError"

/-- The loop over the keys. -/
def combine (entryMap exitMap : Dict StockKey (Option Int)) : List StockKey → Dict StockKey Int →
    Except String (Dict StockKey Int)
  | [], result => .ok result
  | key :: keys, result => do
    let stock ← subtract (entryMap.getD key (some 0)) (exitMap.getD key (some 0))
    combine entryMap exitMap keys (result.set key stock)

/-- `get_current_stocks`. -/
def getCurrentStocks (db : Tables) : Except String (Dict StockKey Int) :=
  let entryMap := Dict.ofRows (groupedSums (entryQuantities db))
  let exitMap := Dict.ofRows (groupedSums (exitQuantities db))
  combine entryMap exitMap (entryMap.keys ∪ exitMap.keys) .empty

/-- `get_current_stock`. -/
def getCurrentStock (db : Tables) (skuId : Int) (warehouse : String) : Int :=
  let entrySum := sqlSum ((db.entries.filter fun e => e.skuId = skuId ∧ e.warehouse = warehouse).map
      StockEntry.quantity)
  let exitSum := sqlSum ((db.exits.filter fun e => e.skuId = skuId ∧ e.warehouse = warehouse).map
      StockExit.quantity)
  entrySum.getD 0 - exitSum.getD 0

/-- The stocks of `GET /inventory/products`, in the order of the SKUs. -/
def productStocks (db : Tables) : Except String (List Int) := do
  let stockMap ← getCurrentStocks db
  return db.skus.map fun sku => stockMap.getD (sku.id, sku.warehouse) 0

/-! ## Agreement -/

theorem sqlSum_getD (qs : List Int) : (sqlSum qs).getD 0 = qs.sum := by
  cases qs <;> simp [sqlSum]

theorem getCurrentStock_eq (db : Tables) (skuId : Int) (warehouse : String) :
    getCurrentStock db skuId warehouse = stock db skuId warehouse := by
  simp only [getCurrentStock, sqlSum_getD, stock, entrySum, exitSum]

section Groups

variable {κ : Type} [DecidableEq κ] {rows : List (κ × Int)} {k : κ}

/-- The sum of the quantities of a key. -/
def sumOf (rows : List (κ × Int)) (k : κ) : Int := ((rows.filter fun row => row.1 = k).map Prod.snd).sum

theorem keys_groupedSums (rows : List (κ × Int)) :
    (groupedSums rows).map Prod.fst = (rows.map Prod.fst).dedup := by
  rw [groupedSums, List.map_map]
  exact List.map_id _

theorem nodup_groupedSums (rows : List (κ × Int)) : ((groupedSums rows).map Prod.fst).Nodup := by
  rw [keys_groupedSums]
  exact List.nodup_dedup _

/-- A group is never empty, so its sum is not NULL. -/
theorem getItem_groupedSums (h : k ∈ rows.map Prod.fst) :
    getItem (groupedSums rows) k = some (some (sumOf rows k)) := by
  have hsum : sqlSum ((rows.filter fun row => row.1 = k).map Prod.snd) = some (sumOf rows k) := by
    obtain ⟨row, hrow, hkey⟩ := List.mem_map.1 h
    have hmem : row.2 ∈ (rows.filter fun row => row.1 = k).map Prod.snd :=
      List.mem_map_of_mem (List.mem_filter.2 ⟨hrow, by simpa using hkey⟩)
    unfold sumOf
    cases hqs : (rows.filter fun row => row.1 = k).map Prod.snd with
    | nil =>
      rw [hqs] at hmem
      cases hmem
    | cons q qs => rfl
  refine getItem_of_mem (nodup_groupedSums rows) (List.mem_map.2 ⟨k, List.mem_dedup.2 h, ?_⟩)
  rw [hsum]

/-- A key without rows counts nothing. -/
theorem sumOf_of_notMem (h : k ∉ rows.map Prod.fst) : sumOf rows k = 0 := by
  have hnil : rows.filter (fun row => row.1 = k) = [] := by
    refine List.filter_eq_nil_iff.2 fun row hrow hkey => h (List.mem_map.2 ⟨row, hrow, ?_⟩)
    simpa using hkey
  rw [sumOf, hnil]
  rfl

/-- The map of a grouped query gives the sum of every key. -/
theorem getD_groupedSums (rows : List (κ × Int)) (k : κ) :
    (Dict.ofRows (groupedSums rows)).getD k (some 0) = some (sumOf rows k) := by
  rw [Dict.getD, Dict.get?_ofRows (nodup_groupedSums rows)]
  by_cases h : k ∈ rows.map Prod.fst
  · rw [getItem_groupedSums h]
    rfl
  · rw [getItem_eq_none.2 (by rwa [keys_groupedSums, List.mem_dedup]), sumOf_of_notMem h]
    rfl

/-- The map of a grouped query has the keys of the rows. -/
theorem mem_keys_groupedSums : k ∈ (Dict.ofRows (groupedSums rows)).keys ↔ k ∈ rows.map Prod.fst := by
  rw [← not_iff_not, ← Dict.get?_eq_none, Dict.get?_ofRows (nodup_groupedSums rows),
    getItem_eq_none, keys_groupedSums, List.mem_dedup]

end Groups

theorem sumOf_entries (db : Tables) (skuId : Int) (warehouse : String) :
    sumOf (entryQuantities db) (skuId, warehouse) = entrySum db skuId warehouse := by
  rw [sumOf, entryQuantities, List.filter_map, List.map_map, entrySum]
  simp only [Function.comp_def, Prod.mk.injEq]

theorem sumOf_exits (db : Tables) (skuId : Int) (warehouse : String) :
    sumOf (exitQuantities db) (skuId, warehouse) = exitSum db skuId warehouse := by
  rw [sumOf, exitQuantities, List.filter_map, List.map_map, exitSum]
  simp only [Function.comp_def, Prod.mk.injEq]

/-- The loop sets each of its keys, and never meets NULL. -/
theorem combine_spec {entryMap exitMap : Dict StockKey (Option Int)} {entries exits : StockKey → Int}
    (hentries : ∀ k, entryMap.getD k (some 0) = some (entries k))
    (hexits : ∀ k, exitMap.getD k (some 0) = some (exits k)) :
    ∀ (keys : List StockKey) (result : Dict StockKey Int), ∃ stocks,
      combine entryMap exitMap keys result = .ok stocks ∧ ∀ k, stocks.getD k 0 = if k ∈
      keys then entries k - exits k else result.getD k 0
  | [], result => ⟨result, rfl, fun k => by simp⟩
  | key :: keys, result => by
    obtain ⟨stocks, hloop, hstocks⟩ :=
      combine_spec hentries hexits keys (result.set key (entries key - exits key))
    refine ⟨stocks, ?_, fun k => ?_⟩
    · rw [combine, hentries, hexits]
      exact hloop
    · rw [hstocks, Dict.getD_set]
      by_cases hk : k ∈ keys
      · rw [if_pos hk, if_pos (List.mem_cons_of_mem _ hk)]
      · by_cases he : key = k
        · subst he
          rw [if_neg hk, if_pos rfl, if_pos List.mem_cons_self]
        · rw [if_neg hk, if_neg he, if_neg fun hmem => (List.mem_cons.1 hmem).elim (fun e => he e.symm) hk]

theorem getCurrentStocks_spec (db : Tables) : ∃ stocks, getCurrentStocks db = .ok stocks ∧
    ∀ skuId warehouse, stocks.getD (skuId, warehouse) 0 = stock db skuId warehouse := by
  obtain ⟨stocks, hloop, hstocks⟩ :=
    combine_spec (getD_groupedSums (entryQuantities db)) (getD_groupedSums (exitQuantities db))
    ((Dict.ofRows (groupedSums (entryQuantities db))).keys ∪
      (Dict.ofRows (groupedSums (exitQuantities db))).keys) .empty
  refine ⟨stocks, hloop, fun skuId warehouse => ?_⟩
  rw [hstocks, stock, ← sumOf_entries, ← sumOf_exits]
  split
  · rfl
  · next h =>
    rw [List.mem_union_iff, not_or, mem_keys_groupedSums, mem_keys_groupedSums] at h
    rw [sumOf_of_notMem h.1, sumOf_of_notMem h.2]
    rfl

/-- The stock of every pair is the same in bulk and on its own, and so it is for every SKU of the
product list. -/
theorem bulk_stock_eq (db : Tables) :
    (∃ stocks, getCurrentStocks db = .ok stocks ∧
      ∀ skuId warehouse, stocks.getD (skuId, warehouse) 0 = getCurrentStock db skuId warehouse) ∧
    productStocks db = .ok (db.skus.map fun sku => getCurrentStock db sku.id sku.warehouse) := by
  obtain ⟨stocks, hstocks, hget⟩ := getCurrentStocks_spec db
  have hpair :
      ∀ skuId warehouse, stocks.getD (skuId, warehouse) 0 = getCurrentStock db skuId warehouse := by
    intro skuId warehouse
    rw [hget, getCurrentStock_eq]
  refine ⟨⟨stocks, hstocks, hpair⟩, ?_⟩
  rw [productStocks, hstocks]
  refine congrArg Except.ok (List.map_congr_left fun sku _ => ?_)
  exact hpair sku.id sku.warehouse

end TrackFlow.Inventory.Bulk
