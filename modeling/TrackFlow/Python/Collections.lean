import Mathlib

/-!
# Collections and decimals

`sorted` and `sorted(set(…))` of Python, sums by key, the first element of each key (`firstBy`), and
division of decimals with 28 digits.

- `perm_map_of_keys`: two lists that have one element for each of the same keys agree up to order on
  everything that the key determines;
- `firstBy_keys`, `mem_firstBy`, `exists_mem_firstBy`: what is left after `firstBy`.
-/

namespace TrackFlow.Python

variable {α β κ : Type}

/-! ## Sorting -/

/-- `sorted(xs)` with the comparison `le`; it is stable. -/
def sortedBy (le : α → α → Bool) (xs : List α) : List α := xs.insertionSort fun a b => le a b = true

theorem perm_sortedBy (le : α → α → Bool) (xs : List α) : (sortedBy le xs).Perm xs :=
  List.perm_insertionSort _ xs

@[simp] theorem mem_sortedBy {le : α → α → Bool} {xs : List α} {a : α} : a ∈ sortedBy le xs ↔ a ∈ xs :=
  (perm_sortedBy le xs).mem_iff

@[simp] theorem sortedBy_eq_nil {le : α → α → Bool} {xs : List α} : sortedBy le xs = [] ↔ xs = [] := by
  rw [← List.length_eq_zero_iff, (perm_sortedBy le xs).length_eq, List.length_eq_zero_iff]

/-- `sorted(set(xs))`. -/
def sortedSet [DecidableEq α] (le : α → α → Bool) (xs : List α) : List α := sortedBy le xs.dedup

section Sets

variable [DecidableEq α]

@[simp] theorem mem_sortedSet {le : α → α → Bool} {xs : List α} {a : α} : a ∈ sortedSet le xs ↔ a ∈ xs := by
  simp [sortedSet]

theorem nodup_sortedSet (le : α → α → Bool) (xs : List α) : (sortedSet le xs).Nodup :=
  (perm_sortedBy le _).nodup_iff.2 (List.nodup_dedup xs)

@[simp] theorem sortedSet_eq_nil {le : α → α → Bool} {xs : List α} : sortedSet le xs = [] ↔ xs = [] := by
  rw [sortedSet, sortedBy_eq_nil, List.dedup_eq_nil]

end Sets

/-- Comparison of texts. -/
def textLe (a b : String) : Bool := a ≤ b

/-- Comparison of pairs, component by component. -/
def pairLe [DecidableEq α] (le : α → α → Bool) (le' : β → β → Bool) (a b : α × β) : Bool :=
  if a.1 = b.1 then le' a.2 b.2 else le a.1 b.1

/-- Comparison of tuples of any length. -/
def tupleLe [DecidableEq α] (le : α → α → Bool) : List α → List α → Bool
  | [], _ => true
  | _ :: _, [] => false
  | a :: as, b :: bs => if a = b then tupleLe le as bs else le a b

/-! ## Keys -/

section Keys

variable [DecidableEq κ]

/-- The elements whose key did not occur before. -/
def firstBy (f : α → κ) : List α → List α
  | [] => []
  | a :: as => a :: (firstBy f as).filter fun b => f b ≠ f a

theorem mem_firstBy {f : α → κ} {a : α} : ∀ {as : List α}, a ∈ firstBy f as → a ∈ as
  | [], h => h
  | b :: as, h => by
    simp only [firstBy, List.mem_cons, List.mem_filter] at h ⊢
    exact h.imp id fun h => mem_firstBy h.1

/-- Every key is left. -/
theorem exists_mem_firstBy {f : α → κ} {a : α} : ∀ {as : List α}, a ∈ as → ∃ b ∈ firstBy f as, f b = f a
  | b :: as, h => by
    by_cases hb : f b = f a
    · exact ⟨b, by simp [firstBy], hb⟩
    · have ha : a ∈ as := (List.mem_cons.1 h).resolve_left fun e => hb (by rw [e])
      obtain ⟨c, hc, hca⟩ := exists_mem_firstBy ha
      refine ⟨c, ?_, hca⟩
      simp only [firstBy, List.mem_cons, List.mem_filter, decide_eq_true_eq]
      exact Or.inr ⟨hc, by rw [hca]; exact fun e => hb e.symm⟩

/-- No key is left twice. -/
theorem firstBy_keys {f : α → κ} : ∀ as : List α, ((firstBy f as).map f).Nodup
  | [] => List.nodup_nil
  | a :: as => by
    simp only [firstBy, List.map_cons, List.nodup_cons]
    refine ⟨?_, ?_⟩
    · rintro h
      obtain ⟨b, hb, he⟩ := List.mem_map.1 h
      simp only [List.mem_filter, decide_eq_true_eq] at hb
      exact hb.2 he
    · exact ((List.filter_sublist).map f).nodup (firstBy_keys as)

/-- Elements with different keys are all first. -/
theorem firstBy_of_nodup {f : α → κ} : ∀ {as : List α}, (as.map f).Nodup → firstBy f as = as
  | [], _ => rfl
  | a :: as, h => by
    simp only [List.map_cons, List.nodup_cons] at h
    rw [firstBy, firstBy_of_nodup h.2, List.filter_eq_self.2]
    intro b hb
    simp only [decide_eq_true_eq]
    exact fun e => h.1 (e ▸ List.mem_map_of_mem hb)

omit [DecidableEq κ] in
theorem nodup_of_keys {f : α → κ} {as : List α} (h : (as.map f).Nodup) : as.Nodup := List.Nodup.of_map f h

/-- The only element with its key. -/
theorem filter_key_eq {f : α → κ} {as : List α} {a : α} (h : (as.map f).Nodup) (ha : a ∈ as) :
    (as.filter fun b => f b = f a) = [a] := by
  have hnodup : (as.filter fun b => f b = f a).Nodup := (nodup_of_keys h).filter _
  refine List.perm_singleton.1 ((List.perm_ext_iff_of_nodup hnodup (List.nodup_singleton a)).2 fun b => ?_)
  rw [List.mem_filter, List.mem_singleton, decide_eq_true_eq]
  constructor
  · rintro ⟨hb, heq⟩
    exact List.inj_on_of_nodup_map h hb ha heq
  · rintro rfl
    exact ⟨ha, rfl⟩

/-- A list with one element for each of distinct keys, and no others, has these keys. -/
theorem perm_of_single {f : α → κ} {as : List α} {ks : List κ} (hks : ks.Nodup)
    (hone : ∀ k ∈ ks, (as.filter fun a => f a = k).length = 1)
    (hmem : ∀ a ∈ as, f a ∈ ks) : (as.map f).Perm ks := by
  have hcount : ∀ k ∈ ks, (as.map f).count k = 1 := by
    intro k hk
    rw [List.count_eq_countP, List.countP_map, List.countP_eq_length_filter, ← hone k hk]
    refine congrArg List.length (List.filter_congr fun a _ => ?_)
    rw [Function.comp_apply, beq_eq_decide]
  refine (List.perm_ext_iff_of_nodup (List.nodup_iff_count_le_one.2 fun k => ?_) hks).2 fun k => ?_
  · by_cases hk : k ∈ as.map f
    · obtain ⟨a, ha, rfl⟩ := List.mem_map.1 hk
      exact le_of_eq (hcount _ (hmem a ha))
    · rw [List.count_eq_zero_of_not_mem hk]
      omega
  · constructor
    · rintro hk
      obtain ⟨a, ha, rfl⟩ := List.mem_map.1 hk
      exact hmem a ha
    · intro hk
      exact List.count_pos_iff.1 (by rw [hcount k hk]; omega)

/-- A count, with the only element of one key counted apart. -/
theorem countP_key {f : α → κ} {as : List α} {a : α} (h : (as.map f).Nodup) (ha : a ∈ as) (p : α → Bool) :
    as.countP p = (as.countP fun b => p b && !decide (f b = f a)) + if p a then 1 else 0 := by
  rw [List.countP_eq_countP_filter_add as p fun b => decide (f b = f a), filter_key_eq h ha,
    List.countP_singleton, List.countP_filter, Nat.add_comm]

/-- A filter that drops one more element leaves fewer. -/
theorem filter_length_lt {p q : α → Bool} {as : List α} {a : α} (hle : ∀ b, q b = true → p b = true)
    (ha : a ∈ as) (hp : p a = true) (hq : q a = false) : (as.filter q).length < (as.filter p).length := by
  have hcomp : as.filter q = (as.filter p).filter q := by
    rw [List.filter_filter]
    congr 1
    funext b
    cases hb : q b with
    | false => rfl
    | true => simp [hle b hb]
  rw [hcomp]
  exact List.length_filter_lt_length_iff_exists.2 ⟨a, List.mem_filter.2 ⟨ha, hp⟩, by simp [hq]⟩

omit [DecidableEq κ] in
/-- Two lists with one element for each of the same keys agree, up to order, on what the keys determine. -/
theorem perm_map_of_keys {l₁ l₂ : List α} {k : α → κ} {g : α → β} (h₁ : (l₁.map k).Nodup)
    (h₂ : (l₂.map k).Nodup) (hk : ∀ x, x ∈ l₁.map k ↔ x ∈ l₂.map k)
    (hg : ∀ a ∈ l₁, ∀ b ∈ l₂, k a = k b → g a = g b) : (l₁.map g).Perm (l₂.map g) := by
  induction l₁ generalizing l₂ with
  | nil =>
    have : l₂ = [] := by
      rw [List.eq_nil_iff_forall_not_mem]
      intro b hb
      simpa using (hk (k b)).2 (List.mem_map_of_mem hb)
    rw [this]
  | cons a as ih =>
    obtain ⟨b, hb, hba⟩ := List.mem_map.1 ((hk (k a)).1 (by simp))
    obtain ⟨pre, suf, rfl⟩ := List.append_of_mem hb
    have hperm : (pre ++ b :: suf).Perm (b :: (pre ++ suf)) := List.perm_middle
    rw [(hperm.map k).nodup_iff, List.map_cons, List.nodup_cons] at h₂
    simp only [List.map_cons, List.nodup_cons] at h₁
    have hk' : ∀ x, x ∈ as.map k ↔ x ∈ (pre ++ suf).map k := by
      intro x
      have hx := hk x
      rw [(hperm.map k).mem_iff] at hx
      simp only [List.map_cons, List.mem_cons, hba] at hx
      by_cases hxa : x = k a
      · subst hxa
        exact ⟨fun h => absurd h h₁.1, fun h => absurd (hba ▸ h) h₂.1⟩
      · simpa [hxa] using hx
    have ih' := ih h₁.2 h₂.2 hk' fun x hx y hy =>
        hg x (by simp [hx]) y (hperm.mem_iff.2 (by simp [List.mem_append.1 hy]))
    have hgab := hg a (by simp) b hb hba.symm
    rw [List.map_cons]
    refine List.Perm.trans ?_ (hperm.map g).symm
    rw [List.map_cons, hgab]
    exact ih'.cons _

/-- A sum, taken key by key. -/
theorem sum_by_keys {f : α → κ} (g : α → Int) : ∀ {ks : List κ} {as : List α}, ks.Nodup →
    (∀ a ∈ as, f a ∈ ks) →
    (ks.map fun k => ((as.filter fun a => f a = k).map g).sum).sum = (as.map g).sum
  | [], as, _, hmem => by
    have hnil : as = [] := List.eq_nil_iff_forall_not_mem.2 fun a ha => by simpa using hmem a ha
    simp [hnil]
  | k :: ks, as, hks, hmem => by
    obtain ⟨hk, hks⟩ := List.nodup_cons.1 hks
    have hrest : ∀ a ∈ as.filter fun a => !decide (f a = k), f a ∈ ks := by
      intro a ha
      obtain ⟨ha, hne⟩ := List.mem_filter.1 ha
      exact (List.mem_cons.1 (hmem a ha)).resolve_left (by simpa using hne)
    have ih := sum_by_keys g hks hrest
    have hsame : ∀ k' ∈ ks, (as.filter fun a => !decide (f a = k)).filter (fun a => f a = k') =
        as.filter fun a => f a = k' := by
      intro k' hk'
      rw [List.filter_filter]
      refine List.filter_congr fun a _ => ?_
      have hne : k' ≠ k := fun e => hk (e ▸ hk')
      by_cases ha : f a = k'
      · simp [ha, hne]
      · simp [ha]
    have hsplit := (((List.filter_append_perm (fun a => decide (f a = k)) as).map g).sum_eq).symm
    rw [List.map_append, List.sum_append] at hsplit
    rw [hsplit, List.map_cons, List.sum_cons, ← ih]
    congr 2
    exact List.map_congr_left fun k' hk' => by rw [hsame k' hk']

end Keys

/-! ## Decimals -/

/-- The coefficient to 28 digits, half to even, and how many digits went. -/
def roundHalfEven (coefficient : Nat) : Nat × Nat :=
  let extra := coefficient.repr.length - 28
  let kept := coefficient / 10 ^ extra
  let rest := coefficient % 10 ^ extra
  (if 10 ^ extra < 2 * rest || (2 * rest = 10 ^ extra && kept % 2 = 1) then kept + 1 else kept, extra)

/-- `Decimal(n) / Decimal(d)` with a precision of 28 digits and `ROUND_HALF_EVEN`: two guard digits
and a sticky one are computed, then rounded. -/
def decimalDivide (n d : Nat) : Rat :=
  let shift : Int := d.repr.length - n.repr.length + 29
  let top := if 0 ≤ shift then n * 10 ^ shift.toNat else n
  let bottom := if 0 ≤ shift then d else d * 10 ^ (-shift).toNat
  let coefficient := if top % bottom ≠ 0 ∧ top / bottom % 5 = 0 then top / bottom + 1 else top / bottom
  let (kept, extra) := roundHalfEven coefficient
  let exponent : Int := extra - shift
  if 0 ≤ exponent then (kept * 10 ^ exponent.toNat : Nat) else mkRat kept (10 ^ (-exponent).toNat)

example : decimalDivide 1 8 = 1 / 8 := by decide +kernel

example : decimalDivide 2 3 = 6666666666666666666666666667 / 10000000000000000000000000000 :=
  by decide +kernel

end TrackFlow.Python
