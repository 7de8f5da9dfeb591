import Mathlib

/-!
# Sums of prefix sums

`cumsum` gives the sums of the prefixes of a list. Together they weigh each element by the number of
prefixes it is in (`sum_cumsum`), so they are largest when the elements do not increase
(`weighted_le`), and the reversed list has what is missing to the sum of both (`weighted_reverse`).
-/

namespace TrackFlow.Python

variable {K : Type} [CommRing K]

/-- The sums of the prefixes, which begin with `acc`. -/
def cumsumFrom (acc : K) : List K → List K
  | [] => []
  | x :: xs => (acc + x) :: cumsumFrom (acc + x) xs

/-- `np.cumsum`. -/
def cumsum (xs : List K) : List K := cumsumFrom 0 xs

/-- The elements, each as often as there are elements from it on. -/
def weighted : List K → K
  | [] => 0
  | x :: xs => (xs.length + 1) * x + weighted xs

theorem sum_cumsumFrom : ∀ (xs : List K) (acc : K), (cumsumFrom acc xs).sum = xs.length * acc + weighted xs
  | [], acc => by simp [cumsumFrom, weighted]
  | x :: xs, acc => by
    rw [cumsumFrom, List.sum_cons, sum_cumsumFrom xs, weighted, List.length_cons]
    push_cast
    ring

theorem sum_cumsum (xs : List K) : (cumsum xs).sum = weighted xs := by
  rw [cumsum, sum_cumsumFrom, mul_zero, zero_add]

theorem weighted_append : ∀ xs ys : List K, weighted (xs ++ ys) = weighted xs + ys.length * xs.sum +
    weighted ys
  | [], ys => by simp [weighted]
  | x :: xs, ys => by
    rw [List.cons_append, weighted, weighted_append xs ys, weighted, List.length_append, List.sum_cons]
    push_cast
    ring

/-- A list and its reverse weigh each element once more than there are elements. -/
theorem weighted_reverse (xs : List K) : weighted xs.reverse = (xs.length + 1) * xs.sum - weighted xs := by
  induction xs with
  | nil => simp [weighted]
  | cons x xs ih =>
    rw [List.reverse_cons, weighted_append, ih, weighted, weighted, weighted, List.sum_reverse,
      List.sum_cons]
    simp only [List.length_nil, List.length_cons]
    push_cast
    ring

variable [LinearOrder K] [IsStrictOrderedRing K]

/-- An element that is not less than those before it weighs more at the front. -/
theorem weighted_front {x : K} (bs : List K) : ∀ {as : List K}, (∀ a ∈ as, a ≤ x) →
    weighted (as ++ x :: bs) ≤ weighted (x :: (as ++ bs))
  | [], _ => le_refl _
  | a :: as, h => by
    have ih := @weighted_front x bs as fun b hb => h b (List.mem_cons_of_mem a hb)
    have hax := h a List.mem_cons_self
    simp only [List.cons_append, weighted, List.length_append, List.length_cons] at ih ⊢
    push_cast at ih ⊢
    linarith

/-- Of the orders of a list, one that does not increase weighs most. -/
theorem weighted_le {ys : List K} (hys : ys.Pairwise (· ≥ ·)) :
    ∀ {xs : List K}, xs.Perm ys → weighted xs ≤ weighted ys := by
  induction ys with
  | nil =>
    intro xs h
    rw [h.eq_nil]
  | cons y ys ih =>
    intro xs h
    obtain ⟨hy, hrest⟩ := List.pairwise_cons.1 hys
    obtain ⟨as, bs, rfl⟩ := List.append_of_mem (h.mem_iff.2 List.mem_cons_self)
    have hperm : (as ++ bs).Perm ys := (List.perm_middle.symm.trans h).cons_inv
    have hle : ∀ a ∈ as, a ≤ y := fun a ha => hy a (hperm.mem_iff.1 (List.mem_append_left bs ha))
    have hfront := weighted_front bs hle
    have hrec := ih hrest hperm
    rw [weighted, hperm.length_eq] at hfront
    rw [weighted]
    linarith

/-- Of the orders of a list, one that does not decrease weighs least. -/
theorem le_weighted {xs ys : List K} (hys : ys.Pairwise (· ≥ ·)) (h : xs.Perm ys) :
    (ys.length + 1) * ys.sum - weighted ys ≤ weighted xs := by
  have hle := weighted_le hys ((List.reverse_perm xs).trans h)
  rw [weighted_reverse, h.length_eq, h.sum_eq] at hle
  linarith

end TrackFlow.Python
