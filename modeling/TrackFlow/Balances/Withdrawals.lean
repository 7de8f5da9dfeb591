import Mathlib

/-!
# Withdrawals from balances

A list of withdrawals, each of an amount from one account, taken one after another from balances.

- `covered_iff`: for positive amounts, each withdrawal finds its amount exactly when the total of
  each account does;
- `crossings_eq`: an account goes through a level at most once, and whether it does is decided by its total;
- the totals, and so both, are the same for every order of the withdrawals (`total_perm`, `covered_perm`).
-/

namespace TrackFlow.Balances

variable {κ : Type} [DecidableEq κ] {balance : κ → Int} {ws ws' : List (κ × Int)} {k : κ}

/-- The balances after a withdrawal. -/
def withdraw (balance : κ → Int) (w : κ × Int) : κ → Int :=
  fun k => if k = w.1 then balance k - w.2 else balance k

/-- Each withdrawal finds its amount. -/
def Covered (balance : κ → Int) : List (κ × Int) → Prop
  | [] => True
  | w :: ws => w.2 ≤ balance w.1 ∧ Covered (withdraw balance w) ws

/-- What is withdrawn from an account. -/
def total (k : κ) (ws : List (κ × Int)) : Int := ((ws.filter fun w => w.1 = k).map Prod.snd).sum

/-- The steps of the balances: the account, its balance before and after. -/
def steps (balance : κ → Int) : List (κ × Int) → List (κ × Int × Int)
  | [] => []
  | w :: ws => (w.1, balance w.1, balance w.1 - w.2) :: steps (withdraw balance w) ws

/-- How often an account goes from above a level to it or below. -/
def crossings (level : Int) (k : κ) (ss : List (κ × Int × Int)) : Nat :=
  ss.countP fun s => s.1 = k ∧ level < s.2.1 ∧ s.2.2 ≤ level

theorem total_cons (k : κ) (w : κ × Int) (ws : List (κ × Int)) :
    total k (w :: ws) = (if w.1 = k then w.2 else 0) + total k ws := by
  unfold total
  rw [List.filter_cons]
  by_cases h : w.1 = k <;> simp [h]

theorem total_perm (h : ws.Perm ws') (k : κ) : total k ws = total k ws' := ((h.filter _).map _).sum_eq

theorem total_nonneg (hpos : ∀ w ∈ ws, 0 < w.2) (k : κ) : 0 ≤ total k ws := by
  refine List.sum_nonneg fun q hq => ?_
  obtain ⟨w, hw, rfl⟩ := List.mem_map.1 hq
  exact Int.le_of_lt (hpos w (List.mem_filter.1 hw).1)

/-- For positive amounts only the totals matter. -/
theorem covered_iff : ∀ {ws : List (κ × Int)} {balance : κ → Int}, (∀ w ∈ ws, 0 < w.2) →
    (Covered balance ws ↔ ∀ w ∈ ws, total w.1 ws ≤ balance w.1)
  | [], _, _ => by simp [Covered]
  | w :: ws, balance, hpos => by
    have hrest : ∀ v ∈ ws, 0 < v.2 := fun v hv => hpos v (List.mem_cons_of_mem w hv)
    have hnonneg := total_nonneg hrest
    rw [Covered, covered_iff hrest]
    constructor
    · rintro ⟨hw, hall⟩ v hv
      rw [total_cons]
      by_cases hin : ∃ u ∈ ws, u.1 = v.1
      · obtain ⟨u, hu, huv⟩ := hin
        have h := hall u hu
        simp only [withdraw, huv] at h
        by_cases hvw : v.1 = w.1
        · rw [if_pos hvw.symm]
          rw [if_pos hvw] at h
          omega
        · rw [if_neg fun he => hvw he.symm]
          rw [if_neg hvw] at h
          omega
      · -- No other withdrawal from the account of `v`, so `v` is the first one.
        have hzero : total v.1 ws = 0 := by
          unfold total
          rw [List.filter_eq_nil_iff.2 fun u hu => by simpa using fun he => hin ⟨u, hu, he⟩]
          rfl
        rcases List.mem_cons.1 hv with rfl | hv
        · rw [if_pos rfl, hzero]
          omega
        · exact absurd ⟨v, hv, rfl⟩ hin
    · intro hall
      refine ⟨?_, fun v hv => ?_⟩
      · have h := hall w List.mem_cons_self
        rw [total_cons, if_pos rfl] at h
        have := hnonneg w.1
        omega
      · have h := hall v (List.mem_cons_of_mem w hv)
        rw [total_cons] at h
        unfold withdraw
        by_cases hvw : v.1 = w.1
        · rw [if_pos hvw]
          rw [if_pos hvw.symm] at h
          omega
        · rw [if_neg hvw]
          rw [if_neg fun he => hvw he.symm] at h
          omega

/-- A level is crossed at most once, and only the totals matter. -/
theorem crossings_eq (level : Int) (k : κ) :
    ∀ {ws : List (κ × Int)} {balance : κ → Int}, (∀ w ∈ ws, 0 < w.2) →
    crossings level k (steps balance ws) = if level < balance k ∧ balance k - total k ws ≤
      level then 1 else 0
  | [], balance, _ => by
    rw [if_neg]
    · rfl
    · rintro ⟨hlt, hle⟩
      simp only [total, List.filter_nil, List.map_nil, List.sum_nil] at hle
      omega
  | w :: ws, balance, hpos => by
    have hrest : ∀ v ∈ ws, 0 < v.2 := fun v hv => hpos v (List.mem_cons_of_mem w hv)
    have hw := hpos w List.mem_cons_self
    have hnonneg := total_nonneg hrest k
    have ih : crossings level k (steps (withdraw balance w) ws) = _ := crossings_eq level k hrest
    unfold crossings at ih ⊢
    rw [steps, List.countP_cons, ih, total_cons]
    unfold withdraw
    by_cases hk : w.1 = k
    · subst hk
      simp only [if_true, decide_eq_true_eq, true_and]
      split <;> split <;> split <;> omega
    · have hk' : ¬k = w.1 := fun he => hk he.symm
      simp [hk, hk']

/-- The order of the withdrawals does not matter. -/
theorem covered_perm (h : ws.Perm ws') (hpos : ∀ w ∈ ws, 0 < w.2) :
    Covered balance ws ↔ Covered balance ws' := by
  have hpos' : ∀ w ∈ ws', 0 < w.2 := fun w hw => hpos w (h.mem_iff.2 hw)
  rw [covered_iff hpos, covered_iff hpos']
  simp only [h.mem_iff, total_perm h]

end TrackFlow.Balances
