import Mathlib

/-!
# Ledgers of a balance

A ledger is a list of steps, each with the balance before and after it. `Runs b steps a`: the steps
lead from the balance `b` to `a`, each from where the one before it has ended.

- `runs_append`, `runs_snoc`: ledgers go on where others end;
- `Runs.total`: the last balance is the first one and the sum of the changes;
- `Runs.lifted`: a balance that gets above a level does so in one step;
- `Runs.between`: so between two falls through a level there is a rise through it.
-/

namespace TrackFlow.Balances

/-- The steps lead from one balance to another. -/
def Runs : Int → List (Int × Int) → Int → Prop
  | b, [], a => a = b
  | b, s :: steps, a => s.1 = b ∧ Runs s.2 steps a

variable {b m a level : Int} {steps rest : List (Int × Int)}

@[simp] theorem runs_nil : Runs b [] a ↔ a = b := Iff.rfl

@[simp] theorem runs_cons {s : Int × Int} : Runs b (s :: steps) a ↔ s.1 = b ∧ Runs s.2 steps a := Iff.rfl

theorem runs_append : Runs b (steps ++ rest) a ↔ ∃ m, Runs b steps m ∧ Runs m rest a := by
  induction steps generalizing b with
  | nil => simp
  | cons s steps ih => simp only [List.cons_append, runs_cons, ih, and_assoc, exists_and_left]

/-- One more step. -/
theorem runs_snoc (h : Runs b steps m) : Runs b (steps ++ [(m, a)]) a :=
  runs_append.2 ⟨m, h, rfl, rfl⟩

theorem Runs.total (h : Runs b steps a) : a = b + (steps.map fun s => s.2 - s.1).sum := by
  induction steps generalizing b with
  | nil => simpa using h
  | cons s steps ih =>
    obtain ⟨rfl, hrest⟩ := h
    have hsum := ih hrest
    simp only [List.map_cons, List.sum_cons]
    omega

/-- A ledger ends where no other can. -/
theorem Runs.unique (h : Runs b steps a) (h' : Runs b steps m) : a = m := h.total.trans h'.total.symm

/-- What holds of the first balance and after every step holds of the last balance. -/
theorem Runs.final {P : Int → Prop} (h : Runs b steps a) (hsteps : ∀ s ∈ steps, P s.2) (hb : P b) : P a := by
  induction steps generalizing b with
  | nil => exact runs_nil.1 h ▸ hb
  | cons s steps ih =>
    exact ih h.2 (fun s' hs' => hsteps s' (List.mem_cons_of_mem s hs')) (hsteps s List.mem_cons_self)

/-- A balance that is above a level in the end was lifted above it, or was there from the start. -/
theorem Runs.lifted (h : Runs b steps a) (hb : b ≤ level) (ha : level < a) :
    ∃ s ∈ steps, s.1 ≤ level ∧ level < s.2 := by
  induction steps generalizing b with
  | nil =>
    rw [runs_nil] at h
    omega
  | cons s steps ih =>
    obtain ⟨rfl, hrest⟩ := h
    by_cases hs : level < s.2
    · exact ⟨s, List.mem_cons_self, hb, hs⟩
    · obtain ⟨s', hs', hlift⟩ := ih hrest (by omega)
      exact ⟨s', List.mem_cons_of_mem s hs', hlift⟩

/-- Between a step that ends at a level or below and one that starts above it, the balance is lifted
above the level. -/
theorem Runs.between {first last : Int × Int} {mid : List (Int × Int)}
    (h : Runs b (steps ++ first :: (mid ++ last :: rest)) a) (hfirst : first.2 ≤ level)
    (hlast : level < last.1) : ∃ s ∈ mid, s.1 ≤ level ∧ level < s.2 := by
  obtain ⟨_, -, -, hmid⟩ := runs_append.1 h
  obtain ⟨m, hrun, rfl, -⟩ := runs_append.1 hmid
  exact hrun.lifted hfirst hlast

end TrackFlow.Balances
