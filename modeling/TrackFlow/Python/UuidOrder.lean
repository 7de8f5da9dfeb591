import TrackFlow.Python.Uuid

/-!
# The order of UUID texts

UUIDs sorted by `str` are sorted by the number that their first eight bytes spell
(`first8_le_of_str_le`): the dashes stand at the same places in every text, and the digits are
ordered as their characters are.
-/

namespace TrackFlow.Python

/-! ## Lists of one length -/

/-- What follows does not matter once two lists of one length differ. -/
theorem append_lt_of_lt {α : Type} [LT α] [Std.Irrefl (α := α) (· < ·)] {xs xs' : List α}
    (hlen : xs.length = xs'.length)
    (h : xs < xs') (ys ys' : List α) : xs ++ ys < xs' ++ ys' := by
  induction xs generalizing xs' with
  | nil =>
    rw [List.length_nil, eq_comm, List.length_eq_zero_iff] at hlen
    subst hlen
    exact absurd h (List.not_lt_nil _)
  | cons x xs ih =>
    cases xs' with
    | nil => cases hlen
    | cons x' xs' =>
      rw [List.cons_append, List.cons_append, List.cons_lt_cons_iff]
      rcases List.cons_lt_cons_iff.1 h with hlt | ⟨heq, hlt⟩
      · exact Or.inl hlt
      · exact Or.inr ⟨heq, ih (Nat.succ.inj hlen) hlt⟩

/-- Nor does an element that both have at the same place. -/
theorem insert_lt {α : Type} [LT α] (c : α) (xs xs' : List α) {ys ys' : List α}
    (hlen : xs.length = xs'.length) (h : xs ++ ys < xs' ++ ys') : xs ++ c :: ys < xs' ++ c :: ys' := by
  induction xs generalizing xs' with
  | nil =>
    rw [List.length_nil, eq_comm, List.length_eq_zero_iff] at hlen
    subst hlen
    exact List.cons_lt_cons_iff.2 (Or.inr ⟨rfl, h⟩)
  | cons x xs ih =>
    cases xs' with
    | nil => cases hlen
    | cons x' xs' =>
      rw [List.cons_append, List.cons_append, List.cons_lt_cons_iff] at h ⊢
      rcases h with hlt | ⟨heq, hlt⟩
      · exact Or.inl hlt
      · exact Or.inr ⟨heq, ih xs' (Nat.succ.inj hlen) hlt⟩

/-! ## Digits as a number -/

/-- The number that hexadecimal digits spell, the first one being the highest. -/
def number : List (Fin 16) → Nat
  | [] => 0
  | d :: ds => d.val * 16 ^ ds.length + number ds

theorem number_lt (ds : List (Fin 16)) : number ds < 16 ^ ds.length := by
  induction ds with
  | nil => exact Nat.one_pos
  | cons d ds ih =>
    have hd := d.isLt
    have hmul : d.val * 16 ^ ds.length ≤ 15 * 16 ^ ds.length := Nat.mul_le_mul_right _ (by omega)
    rw [number, List.length_cons, pow_succ]
    omega

/-- Digits that spell a smaller number come first. -/
theorem lt_of_number_lt {ds es : List (Fin 16)} (hlen : ds.length = es.length)
    (h : number ds < number es) : ds < es := by
  induction ds generalizing es with
  | nil =>
    rw [List.length_nil, eq_comm, List.length_eq_zero_iff] at hlen
    subst hlen
    exact absurd h (lt_irrefl _)
  | cons d ds ih =>
    cases es with
    | nil => cases hlen
    | cons e es =>
      have hlen' : ds.length = es.length := Nat.succ.inj hlen
      rw [number, number, hlen'] at h
      have hds := number_lt ds
      have hes := number_lt es
      rw [hlen'] at hds
      rw [List.cons_lt_cons_iff]
      rcases Nat.lt_trichotomy d.val e.val with hlt | heq | hgt
      · exact Or.inl hlt
      · obtain rfl := Fin.ext heq
        exact Or.inr ⟨rfl, ih hlen' (by omega)⟩
      · have hmul : (e.val + 1) * 16 ^ es.length ≤ d.val * 16 ^ es.length := Nat.mul_le_mul_right _ hgt
        rw [Nat.add_mul, Nat.one_mul] at hmul
        omega

namespace Uuid

/-- `int.from_bytes(uuid.bytes[:8], "big")`. -/
def first8 (u : Uuid) : Nat := number (u.digits.take 16)

theorem first8_lt (u : Uuid) : u.first8 < 2 ^ 64 := by
  have h := number_lt (u.digits.take 16)
  rw [List.length_take, u.len] at h
  exact h

theorem hexDigit_lt : ∀ a b : Fin 16, a < b → hexDigit a.val < hexDigit b.val := by decide

/-- Smaller digits give a smaller text. -/
theorem chars_lt {u v : Uuid} (h : u.digits < v.digits) : u.chars < v.chars := by
  have hhex : u.hex < v.hex := List.map_lt (fun {a b} hab => hexDigit_lt a b hab) h
  have hlen : ∀ k n, ((u.hex.drop k).take n).length = ((v.hex.drop k).take n).length := by
    intro k n
    rw [List.length_take, List.length_take, List.length_drop, List.length_drop, length_hex, length_hex]
  have hlen8 : (u.hex.take 8).length = (v.hex.take 8).length := by
    rw [List.length_take, List.length_take, length_hex, length_hex]
  rw [hex_groups u, hex_groups v] at hhex
  have h₄ := insert_lt '-' (u.hex.take 8 ++ (u.hex.drop 8).take 4 ++ (u.hex.drop 12).take 4 ++
      (u.hex.drop 16).take 4) (v.hex.take 8 ++ (v.hex.drop 8).take 4 ++ (v.hex.drop 12).take 4 ++
      (v.hex.drop 16).take 4) (by simp only [List.length_append, hlen, hlen8])
    (by simpa only [List.append_assoc] using hhex)
  have h₃ := insert_lt '-' (u.hex.take 8 ++ (u.hex.drop 8).take 4 ++ (u.hex.drop 12).take 4)
    (v.hex.take 8 ++ (v.hex.drop 8).take 4 ++ (v.hex.drop 12).take 4)
    (by simp only [List.length_append, hlen, hlen8]) (by simpa only [List.append_assoc] using h₄)
  have h₂ := insert_lt '-' (u.hex.take 8 ++ (u.hex.drop 8).take 4) (v.hex.take 8 ++ (v.hex.drop 8).take 4)
    (by simp only [List.length_append, hlen, hlen8]) (by simpa only [List.append_assoc] using h₃)
  exact insert_lt '-' _ _ hlen8 (by simpa only [List.append_assoc] using h₂)

/-- UUIDs in the order of their texts are in the order of their first eight bytes. -/
theorem first8_le_of_str_le {u v : Uuid} (h : u.str ≤ v.str) : u.first8 ≤ v.first8 := by
  by_contra hlt
  have hdigits : v.digits < u.digits := by
    have htake := append_lt_of_lt (by simp [u.len, v.len]) (lt_of_number_lt (by simp [u.len, v.len])
      (not_le.1 hlt)) (v.digits.drop 16) (u.digits.drop 16)
    rwa [List.take_append_drop, List.take_append_drop] at htake
  have hstr : v.str < u.str := by
    rw [String.lt_iff, str, str, String.toList_ofList, String.toList_ofList]
    exact chars_lt hdigits
  exact absurd hstr (String.not_lt.2 h)

end Uuid

end TrackFlow.Python
