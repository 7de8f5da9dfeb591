import TrackFlow.Python.Collections

/-!
# Sorting in one way only

A comparison that is total, transitive and antisymmetric sorts a list in one way: what `sorted` and
`sorted(set(…))` return does not depend on the order of their argument.
-/

namespace TrackFlow.Python

variable {α β : Type}

/-- A comparison that can sort a list in one way only. -/
structure LinearLe (le : α → α → Bool) : Prop where
  total : ∀ a b, le a b = true ∨ le b a = true
  trans : ∀ a b c, le a b = true → le b c = true → le a c = true
  antisymm : ∀ a b, le a b = true → le b a = true → a = b

namespace LinearLe

variable {le : α → α → Bool} {xs ys : List α}

theorem pairwise_sortedBy (h : LinearLe le) (xs : List α) :
    (sortedBy le xs).Pairwise fun a b => le a b = true := by
  have : Std.Total fun a b => le a b = true := ⟨h.total⟩
  have : IsTrans α fun a b => le a b = true := ⟨h.trans⟩
  exact List.pairwise_insertionSort _ xs

theorem sortedBy_congr (h : LinearLe le) (hp : xs.Perm ys) : sortedBy le xs = sortedBy le ys :=
  (((perm_sortedBy le xs).trans hp).trans (perm_sortedBy le ys).symm).eq_of_pairwise
    (fun a b _ _ => h.antisymm a b) (h.pairwise_sortedBy xs) (h.pairwise_sortedBy ys)

/-- Sorting by a key that tells the elements of the list apart. -/
theorem sortedBy_key_congr (h : LinearLe le) {f : β → α} {as bs : List β}
    (hf : ∀ a ∈ as, ∀ b ∈ as, f a = f b → a = b) (hp : as.Perm bs) :
    sortedBy (fun a b => le (f a) (f b)) as = sortedBy (fun a b => le (f a) (f b)) bs := by
  have : Std.Total fun a b => le (f a) (f b) = true := ⟨fun _ _ => h.total _ _⟩
  have : IsTrans β fun a b => le (f a) (f b) = true := ⟨fun _ _ _ => h.trans _ _ _⟩
  refine (((perm_sortedBy _ as).trans hp).trans (perm_sortedBy _ bs).symm).eq_of_pairwise
    (fun a b ha hb hab hba => ?_) (List.pairwise_insertionSort _ as) (List.pairwise_insertionSort _ bs)
  exact hf a (mem_sortedBy.1 ha) b (hp.mem_iff.2 (mem_sortedBy.1 hb)) (h.antisymm _ _ hab hba)

theorem sortedSet_congr [DecidableEq α] (h : LinearLe le) (hm : ∀ a, a ∈ xs ↔ a ∈ ys) :
    sortedSet le xs = sortedSet le ys :=
  h.sortedBy_congr ((List.perm_ext_iff_of_nodup (List.nodup_dedup xs) (List.nodup_dedup ys)).2 fun a => by
    rw [List.mem_dedup, List.mem_dedup]
    exact hm a)

theorem pair [DecidableEq α] {le' : β → β → Bool} (h : LinearLe le) (h' : LinearLe le') :
    LinearLe (pairLe le le') where
  total a b := by
    unfold pairLe
    by_cases heq : a.1 = b.1
    · rw [if_pos heq, if_pos heq.symm]
      exact h'.total a.2 b.2
    · rw [if_neg heq, if_neg (Ne.symm heq)]
      exact h.total a.1 b.1
  trans a b c := by
    unfold pairLe
    intro hab hbc
    by_cases hab₁ : a.1 = b.1
    · rw [if_pos hab₁] at hab
      by_cases hbc₁ : b.1 = c.1
      · rw [if_pos hbc₁] at hbc
        rw [if_pos (hab₁.trans hbc₁)]
        exact h'.trans _ _ _ hab hbc
      · rw [if_neg hbc₁] at hbc
        rw [if_neg (hab₁ ▸ hbc₁), hab₁]
        exact hbc
    · rw [if_neg hab₁] at hab
      by_cases hbc₁ : b.1 = c.1
      · rw [← hbc₁, if_neg hab₁]
        exact hab
      · rw [if_neg hbc₁] at hbc
        have hac : a.1 ≠ c.1 := fun hac => hab₁ (h.antisymm _ _ hab (hac ▸ hbc))
        rw [if_neg hac]
        exact h.trans _ _ _ hab hbc
  antisymm a b hab hba := by
    unfold pairLe at hab hba
    by_cases heq : a.1 = b.1
    · rw [if_pos heq] at hab
      rw [if_pos heq.symm] at hba
      exact Prod.ext heq (h'.antisymm _ _ hab hba)
    · rw [if_neg heq] at hab
      rw [if_neg (Ne.symm heq)] at hba
      exact absurd (h.antisymm _ _ hab hba) heq

/-- Comparison by a key that tells the elements apart. -/
theorem comap {f : β → α} (h : LinearLe le) (hf : Function.Injective f) :
    LinearLe fun a b => le (f a) (f b) where
  total _ _ := h.total _ _
  trans _ _ _ := h.trans _ _ _
  antisymm _ _ hab hba := hf (h.antisymm _ _ hab hba)

/-- The comparison of a linear order. -/
theorem ofOrder [LinearOrder α] : LinearLe fun a b : α => decide (a ≤ b) where
  total a b := by simpa using le_total a b
  trans a b c := by simpa using le_trans
  antisymm a b := by simpa using le_antisymm

end LinearLe

/-- Tuples compare as their components do. -/
theorem linear_tupleLe [DecidableEq α] {le : α → α → Bool} (h : LinearLe le) : LinearLe (tupleLe le) where
  total a b := by
    induction a generalizing b with
    | nil => exact Or.inl rfl
    | cons x xs ih =>
      cases b with
      | nil => exact Or.inr rfl
      | cons y ys =>
        by_cases hxy : x = y
        · simpa [tupleLe, hxy] using ih ys
        · simpa [tupleLe, hxy, Ne.symm hxy] using h.total x y
  trans a b c hab hbc := by
    induction a generalizing b c with
    | nil => rfl
    | cons x xs ih =>
      match b, c with
      | [], _ => cases hab
      | y :: ys, [] => cases hbc
      | y :: ys, z :: zs =>
        simp only [tupleLe] at hab hbc ⊢
        by_cases hxy : x = y
        · subst hxy
          by_cases hxz : x = z
          · simp only [hxz, if_true] at hab hbc ⊢
            exact ih ys zs hab hbc
          · simpa [hxz] using hbc
        · by_cases hyz : y = z
          · subst hyz
            simpa [hxy] using hab
          · simp only [hxy, hyz, if_false] at hab hbc
            have hxz : x ≠ z := by
              rintro rfl
              exact hxy (h.antisymm _ _ hab hbc)
            simpa [hxz] using h.trans _ _ _ hab hbc
  antisymm a b hab hba := by
    induction a generalizing b with
    | nil =>
      cases b with
      | nil => rfl
      | cons y ys => cases hba
    | cons x xs ih =>
      cases b with
      | nil => cases hab
      | cons y ys =>
        by_cases hxy : x = y
        · subst hxy
          simp only [tupleLe, if_true] at hab hba
          rw [ih ys hab hba]
        · simp only [tupleLe, hxy, Ne.symm hxy, if_false] at hab hba
          exact absurd (h.antisymm _ _ hab hba) hxy

theorem linear_textLe : LinearLe textLe where
  total a b := by simpa [textLe] using String.le_total a b
  trans a b c := by simpa [textLe] using String.le_trans
  antisymm a b := by simpa [textLe] using String.le_antisymm

end TrackFlow.Python
