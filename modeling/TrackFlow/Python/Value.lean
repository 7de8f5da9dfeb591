import TrackFlow.Python.Uuid

/-!
# Python values

`PyValue` is what a database row or a decoded JSON document holds. Equality of values (`==`) looks
through the number types (`True == 1 == 1.0`) and does not see the order of a dictionary: `normal`
forgets both, and two values are equal when their normal forms are. `get` is `dict.get` with one
argument.
-/

namespace TrackFlow.Python

/-- What a row holds. A dictionary is a list of pairs with distinct keys; an aware `datetime` is its
instant in microseconds since 1970-01-01T00:00:00 UTC, a naive one its local reading. -/
inductive PyValue
  | none
  | bool (b : Bool)
  | int (z : Int)
  | float (q : Rat)
  | str (s : String)
  | list (xs : List PyValue)
  | dict (kvs : List (String × PyValue))
  | uuid (u : Uuid)
  | aware (t : Int)
  | naive (t : Int)

/-- A value that is no container, up to equality. -/
inductive Leaf
  | none
  | num (q : Rat)
  | str (s : String)
  | uuid (u : Uuid)
  | aware (t : Int)
  | naive (t : Int)
  deriving DecidableEq

/-- A value up to equality: dictionaries are sorted by key. -/
inductive Normal
  | leaf (l : Leaf)
  | list (xs : List Normal)
  | dict (kvs : List (String × Normal))

mutual

/-- Normal forms can be compared. -/
def Normal.decEq : (a b : Normal) → Decidable (a = b)
  | .leaf p, .leaf q => decidable_of_iff (p = q) (by simp)
  | .list p, .list q => @decidable_of_iff _ (p = q) (by simp) (Normal.decEqList p q)
  | .dict p, .dict q => @decidable_of_iff _ (p = q) (by simp) (Normal.decEqDict p q)
  | .leaf _, .list _ | .leaf _, .dict _ | .list _, .leaf _ | .list _, .dict _ | .dict _,
      .leaf _ | .dict _, .list _ =>
    isFalse (by simp)

def Normal.decEqList : (a b : List Normal) → Decidable (a = b)
  | [], [] => isTrue rfl
  | a :: as, b :: bs =>
    @decidable_of_iff _ (a = b ∧ as = bs) (by simp)
      (@instDecidableAnd _ _ (a.decEq b) (Normal.decEqList as bs))
  | [], _ :: _ | _ :: _, [] => isFalse (by simp)

def Normal.decEqDict : (a b : List (String × Normal)) → Decidable (a = b)
  | [], [] => isTrue rfl
  | (k, a) :: as, (l, b) :: bs =>
    @decidable_of_iff _ (k = l ∧ a = b ∧ as = bs) (by simp [and_assoc])
      (@instDecidableAnd _ _ inferInstance (@instDecidableAnd _ _ (a.decEq b) (Normal.decEqDict as bs)))
  | [], _ :: _ | _ :: _, [] => isFalse (by simp)

end

instance : DecidableEq Normal := Normal.decEq

/-- The items of a dictionary in the order of their keys. -/
def sortByKey {α : Type} (kvs : List (String × α)) : List (String × α) :=
  kvs.insertionSort fun a b => a.1 ≤ b.1

/-- The value of a key in a list of items, if there is one. -/
def findKey {α : Type} (key : String) : List (String × α) → Option α
  | [] => none
  | (k, x) :: l => if k = key then some x else findKey key l

theorem findKey_orderedInsert {α : Type} (key : String) (a : String × α) :
    ∀ l : List (String × α), findKey key (l.orderedInsert (fun a b => a.1 ≤ b.1) a) = findKey key (a :: l)
  | [] => rfl
  | b :: l => by
    by_cases h : a.1 ≤ b.1
    · simp only [List.orderedInsert, h, if_true]
    · have hne : a.1 ≠ b.1 := fun e => h (le_of_eq e)
      simp only [List.orderedInsert, h, if_false, findKey, findKey_orderedInsert key a l]
      by_cases hk : b.1 = key
      · have hka : a.1 ≠ key := fun e => hne (by rw [e, hk])
        simp [hk, hka]
      · simp [hk]

/-- Sorting by key does not change what is found. -/
theorem findKey_sortByKey {α : Type} (key : String) : ∀ l :
    List (String × α), findKey key (sortByKey l) = findKey key l
  | [] => rfl
  | a :: l => by
    have ih := findKey_sortByKey key l
    have h := findKey_orderedInsert key a (sortByKey l)
    rw [sortByKey, List.insertionSort_cons]
    refine h.trans ?_
    simp only [findKey, ih]

namespace PyValue

mutual

/-- The value up to `==`. -/
def normal : PyValue → Normal
  | none => .leaf .none
  | bool b => .leaf (.num (if b then 1 else 0))
  | int z => .leaf (.num z)
  | float q => .leaf (.num q)
  | str s => .leaf (.str s)
  | list xs => .list (normalList xs)
  | dict kvs => .dict (sortByKey (normalDict kvs))
  | uuid u => .leaf (.uuid u)
  | aware t => .leaf (.aware t)
  | naive t => .leaf (.naive t)

def normalList : List PyValue → List Normal
  | [] => []
  | x :: xs => normal x :: normalList xs

def normalDict : List (String × PyValue) → List (String × Normal)
  | [] => []
  | (k, x) :: xs => (k, normal x) :: normalDict xs

end

/-- `a == b`. -/
def Eq (a b : PyValue) : Prop := a.normal = b.normal

instance (a b : PyValue) : Decidable (Eq a b) := inferInstanceAs (Decidable (a.normal = b.normal))

theorem normalDict_eq_map : ∀ kvs : List (String × PyValue), normalDict kvs = kvs.map fun p =>
    (p.1, p.2.normal)
  | [] => rfl
  | (k, x) :: xs => by simp [normalDict, normalDict_eq_map xs]

/-- The value of a key in a list of items. -/
def lookup (key : String) : List (String × PyValue) → PyValue
  | [] => none
  | (k, x) :: xs => if k = key then x else lookup key xs

/-- `d.get(key)`; other values have no items. -/
def get (key : String) : PyValue → PyValue
  | dict kvs => lookup key kvs
  | _ => none

theorem lookup_eq_findKey (key : String) : ∀ kvs : List (String × PyValue),
    lookup key kvs = (findKey key kvs).getD .none
  | [] => rfl
  | (k, x) :: kvs => by
    simp only [lookup, findKey, lookup_eq_findKey key kvs]
    split <;> rfl

/-! ## Equal values -/

variable {a b c : PyValue} {kvs : List (String × PyValue)}

theorem Eq.refl (a : PyValue) : a.Eq a := rfl

theorem Eq.symm (h : a.Eq b) : b.Eq a := (show a.normal = b.normal from h).symm

theorem Eq.trans (h : a.Eq b) (h' : b.Eq c) : a.Eq c := (show a.normal = b.normal from h).trans h'

/-- Only a dictionary is equal to one. -/
theorem dict_of_eq (h : a.Eq (.dict kvs)) : ∃ kvs', a = .dict kvs' := by
  unfold Eq at h
  cases a <;> simp [normal] at h
  exact ⟨_, rfl⟩

/-- Equal dictionaries have the same keys. -/
theorem Eq.keys {kvs' : List (String × PyValue)} (h : (dict kvs).Eq (.dict kvs')) :
    (kvs.map Prod.fst).Perm (kvs'.map Prod.fst) := by
  have hsorted : sortByKey (normalDict kvs) = sortByKey (normalDict kvs') := by
    simpa only [Eq, normal, Normal.dict.injEq] using h
  have hperm : (normalDict kvs).Perm (normalDict kvs') :=
    ((List.perm_insertionSort _ _).symm.trans (List.Perm.of_eq hsorted)).trans (List.perm_insertionSort _ _)
  have hkeys := hperm.map Prod.fst
  simpa only [normalDict_eq_map, List.map_map, Function.comp_def] using hkeys

/-- Equal values have equal items. -/
theorem Eq.get (h : a.Eq b) (key : String) : (a.get key).Eq (b.get key) := by
  by_cases hb : ∃ kvs, b = .dict kvs
  · obtain ⟨kvs', rfl⟩ := hb
    obtain ⟨kvs, rfl⟩ := dict_of_eq h
    have hsorted : sortByKey (normalDict kvs) = sortByKey (normalDict kvs') := by
      simpa only [Eq, normal, Normal.dict.injEq] using h
    have hnormal : ∀ l : List (String × PyValue), findKey key (normalDict l) =
        (findKey key l).map normal := by
      intro l
      induction l with
      | nil => rfl
      | cons p l ih =>
        simp only [normalDict, findKey, ih]
        split <;> rfl
    have hfind : (findKey key kvs).map normal = (findKey key kvs').map normal := by
      rw [← hnormal, ← hnormal, ← findKey_sortByKey, hsorted, findKey_sortByKey]
    simp only [PyValue.get, lookup_eq_findKey, Eq]
    cases hk : findKey key kvs <;> cases hk' : findKey key kvs' <;> rw [hk, hk'] at hfind <;> simp_all
  · have ha : ¬∃ kvs, a = .dict kvs := by
      rintro ⟨kvs, rfl⟩
      exact hb (dict_of_eq h.symm)
    have hnone : ∀ v : PyValue, (¬∃ kvs, v = .dict kvs) → v.get key = none := by
      intro v hv
      cases v
      case dict kvs => exact absurd ⟨kvs, rfl⟩ hv
      all_goals rfl
    rw [hnone a ha, hnone b hb]
    exact Eq.refl _

end PyValue

end TrackFlow.Python
