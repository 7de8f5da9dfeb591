import Mathlib

/-!
# Tables with a primary key

The rows of a table in the order of their insertion, no two with the same key. Inserting a key that
is there already changes nothing, since the database refuses it.

- `get_insert`, `get_modify`: what the row of each key is after a write;
- `mem_rows`, `mem_select`: what a scan of the table finds;
- `count_keys`: a key has one row or none.
-/

namespace TrackFlow.ReadCommitted

/-- A table: its rows with their keys. -/
structure Table (κ ρ : Type) where
  rows : List (κ × ρ) := []
  unique : (rows.map Prod.fst).Nodup := by simp

namespace Table

variable {κ ρ σ : Type}

/-- The keys, in the order of insertion. -/
def keys (t : Table κ ρ) : List κ := t.rows.map Prod.fst

section Lookup

variable [DecidableEq κ] (t : Table κ ρ) (k l : κ) (r : ρ)

/-- The row of a key. -/
def get : Option ρ := (t.rows.find? fun e => e.1 = k).map Prod.snd

/-- `INSERT` of one row. -/
def insert : Table κ ρ :=
  if h : k ∈ t.keys then t
  else
    { rows := t.rows ++ [(k, r)]
      unique := by
        rw [List.map_append, List.nodup_append]
        refine ⟨t.unique, by simp, fun a ha b hb => ?_⟩
        rw [List.map_singleton, List.mem_singleton] at hb
        subst hb
        rintro rfl
        exact h ha }

/-- `UPDATE` of the row with a key. -/
def modify (f : ρ → ρ) : Table κ ρ where
  rows := t.rows.map fun e => if e.1 = k then (e.1, f e.2) else e
  unique := by
    have hkeys : (t.rows.map fun e => if e.1 = k then (e.1, f e.2) else e).map Prod.fst =
        t.rows.map Prod.fst := by
      rw [List.map_map]
      refine List.map_congr_left fun e _ => ?_
      simp only [Function.comp_apply]
      split <;> rfl
    rw [hkeys]
    exact t.unique

/-- The keys of the rows that match, in the order of the table. -/
def select (matching : κ → ρ → Bool) : List κ :=
  (t.rows.filter fun e => matching e.1 e.2).map Prod.fst

theorem mem_rows : (k, r) ∈ t.rows ↔ t.get k = some r := by
  unfold get
  constructor
  · intro hmem
    cases hfind : t.rows.find? (fun e => e.1 = k) with
    | none =>
      have hne := List.find?_eq_none.1 hfind (k, r) hmem
      simp at hne
    | some e =>
      have hk : e.1 = k := by simpa using List.find?_some hfind
      have he : e = (k, r) :=
        List.inj_on_of_nodup_map t.unique (List.mem_of_find?_eq_some hfind) hmem hk
      rw [he]
      rfl
  · intro hget
    obtain ⟨e, hfind, rfl⟩ := Option.map_eq_some_iff.1 hget
    have hk : e.1 = k := by simpa using List.find?_some hfind
    subst hk
    exact List.mem_of_find?_eq_some hfind

theorem mem_keys : k ∈ t.keys ↔ ∃ r, t.get k = some r := by
  simp only [keys, List.mem_map, Prod.exists, exists_and_right, exists_eq_right, mem_rows]

/-- A scan finds the keys whose rows match. -/
theorem mem_select {matching : κ → ρ → Bool} :
    k ∈ t.select matching ↔ ∃ r, t.get k = some r ∧ matching k r = true := by
  simp only [select, List.mem_map, List.mem_filter, Prod.exists, exists_and_right, exists_eq_right,
    mem_rows]

/-- A key has exactly one row, if it has any. -/
theorem count_keys {t : Table κ ρ} {k : κ} {r : ρ} (h : t.get k = some r) : t.keys.count k = 1 :=
  List.count_eq_one_of_mem t.unique ((t.mem_keys k).2 ⟨r, h⟩)

theorem get_insert :
    (t.insert k r).get l = (t.get l).or (if l = k then some r else none) := by
  unfold insert
  split
  · rename_i hmem
    by_cases hl : l = k
    · subst hl
      obtain ⟨r', hr'⟩ := (t.mem_keys l).1 hmem
      rw [hr']
      rfl
    · simp [hl]
  · unfold get
    rw [List.find?_append]
    by_cases hl : l = k
    · subst hl
      cases t.rows.find? (fun e => e.1 = l) <;> simp
    · have hkl : ¬k = l := fun h => hl h.symm
      cases t.rows.find? (fun e => e.1 = l) <;> simp [hl, hkl]

/-- The row of a new key. -/
theorem get_insert_self {t : Table κ ρ} {k : κ} {r : ρ} (h : t.get k = none) :
    (t.insert k r).get k = some r := by
  simp [get_insert, h]

/-- The rows of the other keys. -/
theorem get_insert_of_ne {t : Table κ ρ} {k l : κ} {r : ρ} (h : l ≠ k) :
    (t.insert k r).get l = t.get l := by
  simp [get_insert, h]

/-- The rows that are there. -/
theorem get_insert_of_some {t : Table κ ρ} {k l : κ} {r s : ρ} (h : t.get l = some s) :
    (t.insert k r).get l = some s := by
  simp [get_insert, h]

theorem get_modify (f : ρ → ρ) :
    (t.modify k f).get l = if l = k then (t.get l).map f else t.get l := by
  have hfind : ∀ rows : List (κ × ρ),
      ((rows.map fun e => if e.1 = k then (e.1, f e.2) else e).find? fun e => e.1 = l) =
        (rows.find? fun e => e.1 = l).map fun e => if e.1 = k then (e.1, f e.2) else e := by
    intro rows
    rw [List.find?_map]
    congr 2
    funext e
    simp only [Function.comp_apply]
    split <;> rfl
  unfold get modify
  simp only [hfind, Option.map_map]
  cases hrow : t.rows.find? (fun e => e.1 = l) with
  | none => simp
  | some e =>
    have hk : e.1 = l := by simpa using List.find?_some hrow
    by_cases hl : l = k
    · simp [hl ▸ hk, hl]
    · have hek : ¬e.1 = k := fun h => hl (hk.symm.trans h)
      simp [hl, hek]

end Lookup

/-- Two tables with the same keys whose rows are related. -/
def Pointwise [DecidableEq κ] (R : ρ → σ → Prop) (a : Table κ ρ) (b : Table κ σ) : Prop :=
  ∀ k, Option.Rel R (a.get k) (b.get k)

section Pointwise

variable [DecidableEq κ] {R : ρ → σ → Prop} {a : Table κ ρ} {b : Table κ σ} {k : κ}

theorem Pointwise.some {r : ρ} (h : Pointwise R a b) (hr : a.get k = .some r) :
    ∃ s, b.get k = .some s ∧ R r s := by
  have hk := h k
  rw [hr] at hk
  cases hs : b.get k with
  | none =>
    rw [hs] at hk
    cases hk
  | some s =>
    rw [hs] at hk
    cases hk with
    | some hR => exact ⟨s, rfl, hR⟩

theorem Pointwise.none (h : Pointwise R a b) (hr : a.get k = .none) : b.get k = .none := by
  have hk := h k
  rw [hr] at hk
  cases hs : b.get k with
  | none => rfl
  | some s =>
    rw [hs] at hk
    cases hk

theorem Pointwise.of_some {s : σ} (h : Pointwise R a b) (hs : b.get k = .some s) :
    ∃ r, a.get k = .some r ∧ R r s := by
  cases hr : a.get k with
  | none =>
    rw [h.none hr] at hs
    cases hs
  | some r =>
    obtain ⟨s', hs', hR⟩ := h.some hr
    rw [hs] at hs'
    cases hs'
    exact ⟨r, rfl, hR⟩

end Pointwise

end Table

end TrackFlow.ReadCommitted
