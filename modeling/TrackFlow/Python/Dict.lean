import Mathlib

/-!
# Dictionaries

`Dict κ β` has its items in the order in which their keys came, each key once. `set` is `d[k] = v`
and `getD` is `d.get(k, v)`; `increment` adds one to a count.

- `getD_tally`: counting a list gives each key the number of times it occurs;
- `sum_tally`: the counts of a dictionary grow together by the number of elements that are keys.
-/

namespace TrackFlow.Python

/-! ## Items -/

section Items

variable {κ β : Type} [DecidableEq κ]

/-- The value of a key. -/
def getItem : List (κ × β) → κ → Option β
  | [], _ => none
  | (k', v) :: items, k => if k' = k then some v else getItem items k

/-- The items after `d[k] = v`: a key that is there keeps its place. -/
def putItem : List (κ × β) → κ → β → List (κ × β)
  | [], k, v => [(k, v)]
  | (k', v') :: items, k, v => if k' = k then (k', v) :: items else (k', v') :: putItem items k v

theorem getItem_eq_none {k : κ} : ∀ {items : List (κ × β)}, getItem items k = none ↔ k ∉ items.map Prod.fst
  | [] => by simp [getItem]
  | (k', v) :: items => by
    by_cases h : k' = k
    · simp [getItem, h]
    · simp [getItem, h, getItem_eq_none, Ne.symm h]

theorem getItem_of_mem {k : κ} {v : β} : ∀ {items : List (κ × β)}, (items.map Prod.fst).Nodup →
    (k, v) ∈ items →
    getItem items k = some v
  | (k', v') :: items, hnodup, h => by
    rw [List.map_cons, List.nodup_cons] at hnodup
    rcases List.mem_cons.1 h with heq | h
    · obtain ⟨rfl, rfl⟩ := Prod.mk.inj heq
      exact if_pos rfl
    · have hne : k' ≠ k := by
        rintro rfl
        exact hnodup.1 (List.mem_map.2 ⟨(k', v), h, rfl⟩)
      rw [getItem, if_neg hne]
      exact getItem_of_mem hnodup.2 h

theorem mem_of_getItem {k : κ} {v : β} : ∀ {items : List (κ × β)}, getItem items k = some v → (k, v) ∈ items
  | (k', v') :: items, h => by
    rw [getItem] at h
    split at h
    · next hk =>
      obtain rfl := Option.some.inj h
      exact hk ▸ List.mem_cons_self
    · exact List.mem_cons_of_mem _ (mem_of_getItem h)

theorem getItem_putItem (k k' : κ) (v : β) : ∀ items : List (κ × β),
    getItem (putItem items k v) k' = if k = k' then some v else getItem items k'
  | [] => rfl
  | (k₀, v₀) :: items => by
    by_cases h : k₀ = k
    · subst h
      by_cases h' : k₀ = k'
      · simp [putItem, getItem, h']
      · simp [putItem, getItem, h']
    · by_cases h' : k₀ = k'
      · subst h'
        simp [putItem, getItem, h, Ne.symm h]
      · simp [putItem, getItem, h, h', getItem_putItem k k' v items]

theorem mem_putItem {p : κ × β} {k : κ} {v : β} : ∀ {items : List (κ × β)}, p ∈ putItem items k v →
    p.2 = v ∨ p ∈ items
  | [], h => by
    obtain rfl := List.mem_singleton.1 h
    exact .inl rfl
  | (k', v') :: items, h => by
    rw [putItem] at h
    split at h
    · rcases List.mem_cons.1 h with rfl | h
      · exact .inl rfl
      · exact .inr (List.mem_cons_of_mem _ h)
    · rcases List.mem_cons.1 h with rfl | h
      · exact .inr List.mem_cons_self
      · exact (mem_putItem h).imp_right (List.mem_cons_of_mem _)

theorem keys_putItem (k : κ) (v : β) : ∀ items : List (κ × β),
    (putItem items k v).map Prod.fst = if k ∈ items.map Prod.fst then items.map Prod.fst else
        items.map Prod.fst ++ [k]
  | [] => by simp [putItem]
  | (k', v') :: items => by
    by_cases h : k' = k
    · simp [putItem, h]
    · rw [putItem, if_neg h, List.map_cons, keys_putItem k v items, List.map_cons]
      by_cases hk : k ∈ items.map Prod.fst
      · rw [if_pos hk, if_pos (List.mem_cons_of_mem _ hk)]
      · rw [if_neg hk, if_neg fun hmem => (List.mem_cons.1 hmem).elim (fun he => h he.symm) hk]
        rfl

end Items

/-! ## Dictionaries -/

/-- A `dict`. -/
structure Dict (κ β : Type) where
  items : List (κ × β)
  nodup : (items.map Prod.fst).Nodup

namespace Dict

variable {κ β : Type} [DecidableEq κ]

/-- The keys in their order. -/
def keys (d : Dict κ β) : List κ := d.items.map Prod.fst

/-- `{}`. -/
def empty : Dict κ β := ⟨[], List.nodup_nil⟩

/-- `d.get(k)`. -/
def get? (d : Dict κ β) (k : κ) : Option β := getItem d.items k

/-- `d.get(k, v)`. -/
def getD (d : Dict κ β) (k : κ) (v : β) : β := (d.get? k).getD v

/-- `d[k] = v`. -/
def set (d : Dict κ β) (k : κ) (v : β) : Dict κ β where
  items := putItem d.items k v
  nodup := by
    rw [keys_putItem]
    split
    · exact d.nodup
    · next h => exact d.nodup.append (List.nodup_singleton k) (by simpa using h)

/-- `{k: v for k in ks}`. -/
def ofKeys (ks : List κ) (v : β) : Dict κ β := ks.foldl (fun d k => d.set k v) empty

/-- `d[k] = v` for each of the rows. -/
def ofRows (rows : List (κ × β)) : Dict κ β := rows.foldl (fun d row => d.set row.1 row.2) empty

@[simp] theorem get?_empty (k : κ) : (empty : Dict κ β).get? k = none := rfl

theorem get?_set (d : Dict κ β) (k k' : κ) (v : β) :
    (d.set k v).get? k' = if k = k' then some v else d.get? k' :=
  getItem_putItem k k' v d.items

theorem keys_set (d : Dict κ β) (k : κ) (v : β) :
    (d.set k v).keys = if k ∈ d.keys then d.keys else d.keys ++ [k] :=
  keys_putItem k v d.items

theorem mem_keys_set {d : Dict κ β} {k k' : κ} {v : β} : k' ∈ (d.set k v).keys ↔ k' = k ∨ k' ∈ d.keys := by
  rw [keys_set]
  split
  · next h => exact ⟨Or.inr, fun h' => h'.elim (fun e => e ▸ h) id⟩
  · rw [List.mem_append, List.mem_singleton, or_comm]

theorem get?_eq_none {d : Dict κ β} {k : κ} : d.get? k = none ↔ k ∉ d.keys := getItem_eq_none

theorem get?_eq_some {d : Dict κ β} {k : κ} {v : β} : d.get? k = some v ↔ (k, v) ∈ d.items :=
  ⟨mem_of_getItem, getItem_of_mem d.nodup⟩

/-- The items, by their keys. -/
theorem items_eq (d : Dict κ β) (v : β) : d.items = d.keys.map fun k => (k, d.getD k v) := by
  rw [keys, List.map_map]
  refine (List.map_id _).symm.trans (List.map_congr_left fun p hp => ?_)
  have hget : d.get? p.1 = some p.2 := get?_eq_some.2 hp
  simp [Dict.getD, hget]

theorem getD_set (d : Dict κ β) (k k' : κ) (v w : β) :
    (d.set k v).getD k' w = if k = k' then v else d.getD k' w := by
  rw [getD, get?_set]
  split <;> rfl

/-- Each row that comes sets its key. -/
theorem get?_foldl_set (k : κ) : ∀ (rows : List (κ × β)) (d : Dict κ β),
    (rows.map Prod.fst).Nodup → (rows.foldl (fun d row => d.set row.1 row.2) d).get? k =
      (getItem rows k).or (d.get? k)
  | [], d, _ => rfl
  | (k', v) :: rows, d, h => by
    rw [List.map_cons, List.nodup_cons] at h
    rw [List.foldl_cons, get?_foldl_set k rows _ h.2, get?_set, getItem]
    by_cases hk : k' = k
    · subst hk
      rw [if_pos rfl, if_pos rfl, getItem_eq_none.2 h.1]
      rfl
    · rw [if_neg hk, if_neg hk]

theorem get?_ofRows {rows : List (κ × β)} (h : (rows.map Prod.fst).Nodup) (k : κ) :
    (ofRows rows).get? k = getItem rows k := by
  rw [ofRows, get?_foldl_set k rows empty h, get?_empty, Option.or_none]

theorem get?_foldl_keys (v : β) (k : κ) : ∀ (ks : List κ) (d : Dict κ β),
    (ks.foldl (fun d k => d.set k v) d).get? k = if k ∈ ks then some v else d.get? k
  | [], d => rfl
  | k' :: ks, d => by
    rw [List.foldl_cons, get?_foldl_keys v k ks, get?_set]
    by_cases h : k' = k
    · simp [h]
    · simp [h, Ne.symm h]

theorem get?_ofKeys (ks : List κ) (v : β) (k : κ) :
    (ofKeys ks v).get? k = if k ∈ ks then some v else none :=
  get?_foldl_keys v k ks empty

theorem keys_foldl_keys (v : β) : ∀ (ks : List κ) (d : Dict κ β), (d.keys ++ ks).Nodup →
    (ks.foldl (fun d k => d.set k v) d).keys = d.keys ++ ks
  | [], d, _ => by simp
  | k :: ks, d, h => by
    have hk : k ∉ d.keys := fun hmem => (List.nodup_append.1 h).2.2 k hmem k List.mem_cons_self rfl
    have hset : (d.set k v).keys = d.keys ++ [k] := by rw [keys_set, if_neg hk]
    rw [List.foldl_cons, keys_foldl_keys v ks _ (by rw [hset, List.append_assoc]; exact h), hset,
      List.append_assoc]
    rfl

theorem keys_ofKeys {ks : List κ} (h : ks.Nodup) (v : β) : (ofKeys ks v).keys = ks :=
  keys_foldl_keys v ks empty h

/-! ## Counting -/

/-- `d[k] = d.get(k, 0) + 1`. -/
def increment (d : Dict κ Nat) (k : κ) : Dict κ Nat := d.set k (d.getD k 0 + 1)

/-- Every element is counted. -/
def tally (d : Dict κ Nat) (ks : List κ) : Dict κ Nat := ks.foldl increment d

/-- `if k in d: d[k] += 1`. -/
def incrementKey (d : Dict κ Nat) (k : κ) : Dict κ Nat := if k ∈ d.keys then d.increment k else d

/-- The sum of the counts. -/
def total (d : Dict κ Nat) : Nat := (d.items.map Prod.snd).sum

theorem getD_increment (d : Dict κ Nat) (k k' : κ) :
    (d.increment k).getD k' 0 = d.getD k' 0 + if k = k' then 1 else 0 := by
  rw [increment, getD_set]
  split
  · next h => rw [h]
  · rfl

/-- Counting gives each key the number of times it occurs. -/
theorem getD_tally (k : κ) : ∀ (ks : List κ) (d : Dict κ Nat), (d.tally ks).getD k 0 = d.getD k 0 +
    ks.count k
  | [], d => rfl
  | k' :: ks, d => by
    rw [tally, List.foldl_cons]
    refine (getD_tally k ks (d.increment k')).trans ?_
    rw [getD_increment, List.count_cons]
    by_cases h : k' = k
    · simp [h]
      omega
    · simp [h]

theorem mem_keys_tally {k : κ} : ∀ {ks : List κ} {d : Dict κ Nat}, k ∈ (d.tally ks).keys ↔
    k ∈ d.keys ∨ k ∈ ks
  | [], d => by simp [tally]
  | k' :: ks, d => by
    rw [tally, List.foldl_cons]
    refine (@mem_keys_tally k ks (d.increment k')).trans ?_
    rw [increment, mem_keys_set, List.mem_cons]
    tauto

theorem sum_putItem : ∀ {items : List (κ × Nat)} {k : κ} (v : Nat),
    ((putItem items k (((getItem items k).getD 0) + v)).map Prod.snd).sum = (items.map Prod.snd).sum + v
  | [], k, v => by simp [putItem, getItem]
  | (k', v') :: items, k, v => by
    by_cases h : k' = k
    · simp [putItem, getItem, h]
      omega
    · have ih := @sum_putItem items k v
      simp only [putItem, getItem, if_neg h, List.map_cons, List.sum_cons, ih]
      omega

/-- Keys that were set to zero count nothing. -/
theorem total_ofKeys (ks : List κ) : (ofKeys ks 0).total = 0 := by
  have hzero : ∀ (ks : List κ) (d : Dict κ Nat), (∀ p ∈ d.items, p.2 = 0) →
      ∀ p ∈ (ks.foldl (fun d k => d.set k 0) d).items, p.2 = 0 := by
    intro ks
    induction ks with
    | nil => exact fun d h => h
    | cons k ks ih => exact fun d h => ih (d.set k 0) fun p hp => (mem_putItem hp).elim id (h p)
  refine List.sum_eq_zero fun n hn => ?_
  obtain ⟨p, hp, rfl⟩ := List.mem_map.1 hn
  exact hzero ks empty (fun p hp => by cases hp) p hp

theorem total_increment (d : Dict κ Nat) (k : κ) : (d.increment k).total = d.total + 1 := sum_putItem 1

theorem total_tally : ∀ (ks : List κ) (d : Dict κ Nat), (d.tally ks).total = d.total + ks.length
  | [], _ => rfl
  | k :: ks, d => by
    rw [tally, List.foldl_cons]
    refine (total_tally ks (d.increment k)).trans ?_
    rw [total_increment, List.length_cons]
    omega

theorem keys_incrementKey (d : Dict κ Nat) (k : κ) : (d.incrementKey k).keys = d.keys := by
  unfold incrementKey
  split
  · next h => rw [increment, keys_set, if_pos h]
  · rfl

theorem keys_foldl_incrementKey : ∀ (ks : List κ) (d : Dict κ Nat), (ks.foldl incrementKey d).keys = d.keys
  | [], _ => rfl
  | k :: ks, d => (keys_foldl_incrementKey ks _).trans (keys_incrementKey d k)

/-- A key counts its occurrences. -/
theorem getD_foldl_incrementKey (k : κ) : ∀ (ks : List κ) (d : Dict κ Nat),
    (ks.foldl incrementKey d).getD k 0 = d.getD k 0 + if k ∈ d.keys then ks.count k else 0
  | [], d => by simp
  | k' :: ks, d => by
    rw [List.foldl_cons, getD_foldl_incrementKey k ks, keys_incrementKey, List.count_cons]
    unfold incrementKey
    by_cases hk' : k' ∈ d.keys
    · rw [if_pos hk', getD_increment]
      by_cases h : k' = k
      · subst h
        simp [hk']
        omega
      · simp [h]
    · rw [if_neg hk']
      by_cases h : k' = k
      · subst h
        simp [hk']
      · simp [h]

/-- The counts grow together by the number of elements that are keys. -/
theorem total_foldl_incrementKey : ∀ (ks : List κ) (d : Dict κ Nat),
    (ks.foldl incrementKey d).total = d.total + ks.countP fun k => k ∈ d.keys
  | [], d => by simp
  | k :: ks, d => by
    rw [List.foldl_cons, total_foldl_incrementKey ks, keys_incrementKey, List.countP_cons]
    unfold incrementKey
    by_cases h : k ∈ d.keys
    · rw [if_pos h, total_increment]
      simp [h]
      omega
    · rw [if_neg h]
      simp [h]

end Dict

end TrackFlow.Python
