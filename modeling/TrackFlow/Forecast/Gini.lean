import TrackFlow.Python.PrefixSums
import TrackFlow.Python.Sorting

/-!
# The normalized Gini of a forecast

`normalized_gini` compares the order that the predictions give to the actual values with their best
order. Numbers are exact rationals.

- `normalizedGini_bounds`: where the Gini of the best order is not within the tolerance of zero, the
  normalized one lies between -1 and 1, is 1 if the predictions do not increase the values, and
  depends on the order of the predictions only.
-/

namespace TrackFlow.Forecast

open TrackFlow.Python

/-! ## Definitions -/

def ratLe (a b : Rat) : Bool := a ≤ b

def natLe (a b : Nat) : Bool := a ≤ b

/-- The keys of two places, the last of them first. -/
def placeLe (ranking : List Rat) (i j : Nat) : Bool :=
  pairLe ratLe natLe (-ranking.getD i 0, i) (-ranking.getD j 0, j)

/-- `np.lexsort((np.arange(len(ranking)), -ranking))`. -/
def lexsort (ranking : List Rat) : List Nat := sortedBy (placeLe ranking) (List.range ranking.length)

/-- `actual[order]`. -/
def ordered (actual ranking : List Rat) : List Rat := (lexsort ranking).map fun i => actual.getD i 0

/-- `_gini`. -/
def gini (actual ranking : List Rat) : Except String Rat :=
  let total := (ordered actual ranking).sum
  if total ≤ 0 then .error "Gini requires positive aggregate actual revenue"
  else
    let n : Rat := (ordered actual ranking).length
    let cumulative := (cumsum (ordered actual ranking)).map (· / total)
    .ok (cumulative.sum / n - (n + 1) / (2 * n))

/-- `np.isclose`, with its default tolerances. -/
def isclose (a b : Rat) : Bool := |a - b| ≤ 1 / 100000000 + 1 / 100000 * |b|

/-- `normalized_gini`. -/
def normalizedGini (actual predicted : List Rat) : Except String Rat := do
  if actual.length ≠ predicted.length ∨ actual.length < 2 then
    .error "Gini requires equal samples with at least two values"
  else
    let perfect ← gini actual actual
    if isclose perfect 0 then .error "Normalized Gini is undefined for a degenerate target"
    else
      let ranked ← gini actual predicted
      .ok (ranked / perfect)

/-! ## The order -/

theorem linearLe_ratLe : LinearLe ratLe where
  total a b := by simpa [ratLe] using le_total a b
  trans a b c := by simpa [ratLe] using le_trans
  antisymm a b := by simpa [ratLe] using le_antisymm

theorem linearLe_natLe : LinearLe natLe where
  total a b := by simpa [natLe] using le_total a b
  trans a b c := by simpa [natLe] using le_trans
  antisymm a b := by simpa [natLe] using le_antisymm

variable {actual predicted ranking : List Rat}

theorem perm_lexsort (ranking : List Rat) : (lexsort ranking).Perm (List.range ranking.length) :=
  perm_sortedBy _ _

theorem pairwise_lexsort (ranking : List Rat) :
    (lexsort ranking).Pairwise fun i j => placeLe ranking i j = true := by
  have hlinear := linearLe_ratLe.pair linearLe_natLe
  have : Std.Total fun i j => placeLe ranking i j = true := ⟨fun _ _ => hlinear.total _ _⟩
  have : IsTrans Nat fun i j => placeLe ranking i j = true := ⟨fun _ _ _ => hlinear.trans _ _ _⟩
  exact List.pairwise_insertionSort _ _

theorem placeLe_antisymm {i j : Nat} (h : placeLe ranking i j = true)
    (h' : placeLe ranking j i = true) : i = j :=
  congrArg Prod.snd ((linearLe_ratLe.pair linearLe_natLe).antisymm _ _ h h')

/-- An earlier place has no smaller value. -/
theorem le_of_placeLe {i j : Nat} (h : placeLe ranking i j = true) :
    ranking.getD j 0 ≤ ranking.getD i 0 := by
  unfold placeLe pairLe at h
  dsimp only at h
  split at h
  · next heq => exact (neg_inj.1 heq).ge
  · rwa [ratLe, decide_eq_true_eq, neg_le_neg_iff] at h

/-- The values in any order are the values. -/
theorem perm_ordered (h : ranking.length = actual.length) : (ordered actual ranking).Perm actual := by
  have hall : (List.range ranking.length).map (fun i => actual.getD i 0) = actual := by
    refine List.ext_getElem (by simp [h]) fun i _ hi => ?_
    simp [hi]
  have hperm := (perm_lexsort ranking).map fun i => actual.getD i 0
  rw [hall] at hperm
  exact hperm

/-- In their own order the values do not increase. -/
theorem pairwise_ordered_self (actual : List Rat) : (ordered actual actual).Pairwise (· ≥ ·) :=
  List.Pairwise.map _ (fun _ _ h => le_of_placeLe h) (pairwise_lexsort actual)

/-- Predictions that do not increase the values give their best order. -/
theorem ordered_eq_of_pairwise (h : predicted.length = actual.length)
    (hdesc : (ordered actual predicted).Pairwise (· ≥ ·)) :
    ordered actual predicted = ordered actual actual :=
  ((perm_ordered h).trans (perm_ordered rfl).symm).eq_of_pairwise (fun _ _ _ _ hab hba =>
      le_antisymm hba hab) hdesc
    (pairwise_ordered_self actual)

/-- A strictly increasing function does not change how two places compare. -/
theorem placeLe_map {f : Rat → Rat} (hf : StrictMono f) {i j : Nat} (hi : i < ranking.length)
    (hj : j < ranking.length) : placeLe (ranking.map f) i j = placeLe ranking i j := by
  have hget : ∀ k, k < ranking.length → (ranking.map f).getD k 0 = f (ranking.getD k 0) :=
    fun k hk => by simp [hk]
  unfold placeLe pairLe ratLe
  rw [hget i hi, hget j hj]
  simp only [neg_inj, neg_le_neg_iff, hf.injective.eq_iff, hf.le_iff_le]

/-- A strictly increasing function keeps the order. -/
theorem lexsort_map {f : Rat → Rat} (hf : StrictMono f) (ranking : List Rat) :
    lexsort (ranking.map f) = lexsort ranking := by
  have hperm : (lexsort (ranking.map f)).Perm (lexsort ranking) := by
    refine (perm_lexsort _).trans ?_
    rw [List.length_map]
    exact (perm_lexsort ranking).symm
  have hlt : ∀ i ∈ lexsort ranking, i < ranking.length :=
    fun i hi => List.mem_range.1 ((perm_lexsort ranking).mem_iff.1 hi)
  refine hperm.eq_of_pairwise (fun i j _ _ h h' => placeLe_antisymm h h') ?_ (pairwise_lexsort ranking)
  refine (pairwise_lexsort (ranking.map f)).imp_of_mem fun {i j} hi hj h => ?_
  rwa [placeLe_map hf (hlt i (hperm.mem_iff.1 hi)) (hlt j (hperm.mem_iff.1 hj))] at h

/-! ## The Gini of an order -/

theorem sum_map_div (xs : List Rat) (c : Rat) : (xs.map (· / c)).sum = xs.sum / c := by
  induction xs with
  | nil => simp
  | cons x xs ih => rw [List.map_cons, List.sum_cons, List.sum_cons, ih, add_div]

/-- The Gini of values that weigh `w` in their order, with the total `t` and the number `n`. -/
def giniOf (w t n : Rat) : Rat := w / t / n - (n + 1) / (2 * n)

theorem gini_eq (h : ranking.length = actual.length) : gini actual ranking =
    if actual.sum ≤ 0 then .error "Gini requires positive aggregate actual revenue"
    else .ok (giniOf (weighted (ordered actual ranking)) actual.sum actual.length) := by
  have hperm := perm_ordered h
  unfold gini giniOf
  dsimp only
  rw [hperm.sum_eq, hperm.length_eq, sum_map_div, sum_cumsum]

/-- What the best order and the reversed one weigh bounds every other order. -/
theorem giniOf_bounds {t n w p : Rat} (ht : 0 < t) (hn : 0 < n) (hle : w ≤ p) (hge : (n + 1) * t - p ≤ w) :
    -giniOf p t n ≤ giniOf w t n ∧ giniOf w t n ≤ giniOf p t n := by
  have heq : ∀ w, giniOf w t n = (2 * w - (n + 1) * t) / (2 * n * t) := fun w => by
    unfold giniOf
    field_simp
  have hpos : 0 < 2 * n * t := by positivity
  rw [heq, heq, ← neg_div, div_le_div_iff_of_pos_right hpos, div_le_div_iff_of_pos_right hpos]
  constructor <;> linarith

/-- The Gini of predictions is at most that of the best order, and at least its opposite. -/
theorem gini_bounds (h : predicted.length = actual.length) (hsum : 0 < actual.sum)
    (hlen : 2 ≤ actual.length) :
    ∃ ranked perfect, gini actual predicted = .ok ranked ∧ gini actual actual = .ok perfect ∧
      -perfect ≤ ranked ∧ ranked ≤ perfect := by
  have hbest := pairwise_ordered_self actual
  have hperm : (ordered actual predicted).Perm (ordered actual actual) :=
    (perm_ordered h).trans (perm_ordered rfl).symm
  have hge := le_weighted hbest hperm
  have hself : (ordered actual actual).Perm actual := perm_ordered rfl
  rw [hself.length_eq, hself.sum_eq] at hge
  refine ⟨_, _, (gini_eq h).trans (if_neg hsum.not_ge), (gini_eq rfl).trans (if_neg hsum.not_ge), ?_⟩
  refine giniOf_bounds hsum ?_ (weighted_le hbest hperm) hge
  exact_mod_cast (by omega : 0 < actual.length)

/-! ## The normalized Gini -/

theorem isclose_zero {p : Rat} : isclose p 0 = true ↔ |p| ≤ 1 / 100000000 := by
  simp [isclose]

theorem normalizedGini_eq {ranked perfect : Rat} (h : predicted.length = actual.length)
    (hlen : 2 ≤ actual.length)
    (hranked : gini actual predicted = .ok ranked) (hperfect : gini actual actual = .ok perfect)
    (hne : 1 / 100000000 < |perfect|) : normalizedGini actual predicted = .ok (ranked / perfect) := by
  unfold normalizedGini
  rw [if_neg (by omega), hperfect, hranked]
  have hclose : ¬ isclose perfect 0 = true := fun hc => hne.not_ge (isclose_zero.1 hc)
  exact if_neg hclose

/-- The normalized Gini lies between -1 and 1, is 1 if the predictions do not increase the values,
and does not change under strictly increasing functions of the predictions. -/
theorem normalizedGini_bounds (actual predicted : List Rat) (h : predicted.length = actual.length)
    (hlen : 2 ≤ actual.length)
    (hsum : 0 < actual.sum)
    (hne : ∀ perfect, gini actual actual = .ok perfect → 1 / 100000000 < |perfect|) :
    ∃ v, normalizedGini actual predicted = .ok v ∧ -1 ≤ v ∧ v ≤ 1 ∧
      ((ordered actual predicted).Pairwise (· ≥ ·) → v = 1) ∧
      ∀ f : Rat → Rat, StrictMono f → normalizedGini actual (predicted.map f) = .ok v := by
  obtain ⟨ranked, perfect, hranked, hperfect, hlower, hupper⟩ := gini_bounds h hsum hlen
  have hclose := hne perfect hperfect
  have hpos : 0 < perfect := by
    rcases abs_cases perfect with ⟨habs, _⟩ | ⟨habs, hneg⟩
    · rw [habs] at hclose
      linarith
    · linarith
  refine ⟨ranked / perfect, normalizedGini_eq h hlen hranked hperfect hclose, ?_, ?_, fun hdesc =>
      ?_, fun f hf => ?_⟩
  · rw [le_div_iff₀ hpos]
    linarith
  · rw [div_le_one hpos]
    exact hupper
  · have hsame : gini actual predicted = gini actual actual := by
      rw [gini, gini, ordered_eq_of_pairwise h hdesc]
    rw [hranked, hperfect] at hsame
    rw [Except.ok.inj hsame]
    exact div_self hpos.ne'
  · have hsame : gini actual (predicted.map f) = .ok ranked := by
      rw [← hranked, gini, gini, ordered, ordered, lexsort_map hf]
    exact normalizedGini_eq (by rw [List.length_map, h]) hlen hsame hperfect hclose

theorem normalizedGini_bounds_three : ∃ v, normalizedGini [5, -1, 2] [1, 1, 7] = .ok v ∧ -1 ≤ v ∧ v ≤ 1 ∧
    ((ordered [5, -1, 2] [1, 1, 7]).Pairwise (· ≥ ·) → v = 1) ∧
    ∀ f : Rat → Rat, StrictMono f → normalizedGini [5, -1, 2] (([1, 1, 7] : List Rat).map f) = .ok v :=
  normalizedGini_bounds [5, -1, 2] [1, 1, 7] rfl (by decide) (by decide +kernel) fun perfect h => by
    have hvalue : gini [5, -1, 2] [5, -1, 2] = .ok (1 / 3) := by decide +kernel
    rw [hvalue] at h
    rw [← Except.ok.inj h]
    decide +kernel

/-- A Gini of the best order that is not zero, but within the tolerance. -/
theorem normalizedGini_tolerance : 0 < ([100000001 / 100000000, 1] : List Rat).sum ∧
    (∃ perfect, gini [100000001 / 100000000, 1] [100000001 / 100000000, 1] = .ok perfect ∧ perfect ≠ 0) ∧
    normalizedGini [100000001 / 100000000, 1] [2, 1] =
      .error "Normalized Gini is undefined for a degenerate target" := by
  have hvalue : gini [100000001 / 100000000, 1] [100000001 / 100000000, 1] = .ok (1 / 800000004) :=
    by decide +kernel
  exact ⟨by decide +kernel, ⟨_, hvalue, by decide +kernel⟩, by decide +kernel⟩

end TrackFlow.Forecast
