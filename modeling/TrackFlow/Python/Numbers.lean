import TrackFlow.Python.Uuid
import TrackFlow.Python.Time

/-!
# Numbers

`int(text)`, and the floats that `/` and `round` give for positive numbers. A float is the rational
number that it stands for; those here are neither subnormal nor too large.

- `int_of_blank`: blank text is no integer;
- `toDouble_bounds`, `roundTwo_bounds`: rounding stays between the integers that its argument is between.
-/

namespace TrackFlow.Python

/-! ## Integers -/

/-- The limit of `int` for the digits of a text. -/
def maxStrDigits : Nat := 4300

/-- A sign and what follows it. -/
def splitSign : List Char → Bool × List Char
  | '+' :: cs => (false, cs)
  | '-' :: cs => (true, cs)
  | cs => (false, cs)

/-- The number that decimal digits spell. -/
def ofDecimals (ds : List Nat) : Nat := ds.foldl (fun n d => n * 10 + d) 0

/-- `int(text)`; `none` for a `ValueError`. -/
def int? (s : String) : Option Int := do
  let (negative, cs) := splitSign (Uuid.stripSpaces s.toList)
  let ds ← digitsWithin 10 false cs
  if maxStrDigits < ds.length then none
  else return if negative then -(ofDecimals ds : Int) else (ofDecimals ds : Int)

example : (int? " +1_0\n", int? "-٣", int? "1__0", int? "1 0") = (some 10, some (-3), none, none) :=
  by decide

/-- Blank text is no integer. -/
theorem int_of_blank {s : String} (h : isBlank s = true) : int? s = none := by
  have hspace : ∀ c ∈ Uuid.stripSpaces s.toList, isSpace c = true := by
    intro c hc
    have hmem : c ∈ s.toList := by
      unfold Uuid.stripSpaces at hc
      rw [List.mem_reverse] at hc
      exact List.dropWhile_subset _ (List.mem_reverse.1 (List.dropWhile_subset _ hc))
    exact List.all_eq_true.1 h c hmem
  unfold int?
  cases hcs : Uuid.stripSpaces s.toList with
  | nil => rfl
  | cons c cs =>
    have hc : isSpace c = true := hspace c (by rw [hcs]; exact List.mem_cons_self)
    have hsign : splitSign (c :: cs) = (false, c :: cs) := by
      unfold splitSign
      split
      · next heq =>
        obtain ⟨rfl, -⟩ := List.cons.inj heq
        exact absurd hc (by decide)
      · next heq =>
        obtain ⟨rfl, -⟩ := List.cons.inj heq
        exact absurd hc (by decide)
      · rfl
    have hdigits : digitsWithin 10 false (c :: cs) = none := by
      rw [digitsWithin, Uuid.digitValue_of_isSpace hc]
      split <;> rfl
    simp only [hsign, hdigits, Option.bind_eq_bind, Option.bind_none]

/-! ## Rounding -/

/-- The nearest integer, of two the even one. -/
def nearestEven (q : Rat) : Int :=
  let n := ⌊q⌋
  if q - n < 1 / 2 then n else if 1 / 2 < q - n then n + 1 else if n % 2 = 0 then n else n + 1

/-- The float nearest to a number, with 53 bits. -/
def toDouble (q : Rat) : Rat :=
  if q = 0 then 0
  else
    let scale : Rat := 2 ^ (52 - Int.log 2 |q|)
    nearestEven (q * scale) / scale

/-- `a / b`. -/
def divide (a b : Int) : Rat := toDouble (a / b)

/-- `round(x, 2)`. -/
def roundTwo (x : Rat) : Rat := toDouble (nearestEven (x * 100) / 100)

/-- `str(x)` of a float that is nearest to a number with two decimals, and not negative. -/
def floatText (x : Rat) : String :=
  let hundredths := (nearestEven (x * 100)).toNat
  toString (hundredths / 100) ++ "." ++
    (if hundredths % 10 = 0 then toString (hundredths % 100 / 10) else zeroPadded 2 (hundredths % 100))

example : (floatText (roundTwo (divide 8 3)), floatText (roundTwo (divide 107 40)), floatText 0) =
    ("2.67", "2.67", "0.0") := by
  decide +kernel

variable {q : Rat} {n : Int}

theorem le_nearestEven (h : (n : Rat) ≤ q) : n ≤ nearestEven q := by
  have hfloor := Int.le_floor.2 h
  unfold nearestEven
  dsimp only
  split_ifs <;> omega

theorem nearestEven_le (h : q ≤ (n : Rat)) : nearestEven q ≤ n := by
  have hle : ⌊q⌋ ≤ n := by exact_mod_cast (Int.floor_le q).trans h
  unfold nearestEven
  dsimp only
  rcases hle.lt_or_eq with hlt | heq
  · split_ifs <;> omega
  · -- The integer itself is not rounded.
    have hzero : q - ((⌊q⌋ : Int) : Rat) < 1 / 2 := by
      rw [heq]
      linarith
    rw [if_pos hzero]
    exact hle

/-- A number between two integers whose scale is a power of two that is no fraction stays between them. -/
theorem toDouble_bounds {m k : Nat} (hm : 0 < m) (hk : k < 2 ^ 52) (h : (m : Rat) ≤ q)
    (h' : q ≤ (k : Rat)) : (m : Rat) ≤ toDouble q ∧ toDouble q ≤ (k : Rat) := by
  have hmpos : (0 : Rat) < m := by exact_mod_cast hm
  have hpos : 0 < q := hmpos.trans_le h
  have hlog : Int.log 2 |q| ≤ 52 := by
    rw [abs_of_pos hpos]
    by_contra hlt
    have hpow : (2 : Rat) ^ (52 : Int) ≤ 2 ^ Int.log 2 q := zpow_le_zpow_right₀ (by norm_num) (by omega)
    have hself : ((2 : Nat) : Rat) ^ Int.log 2 q ≤ q := Int.zpow_log_le_self (by decide) hpos
    have hklt : (k : Rat) < 2 ^ (52 : Int) := by exact_mod_cast hk
    push_cast at hself
    linarith
  obtain ⟨e, he⟩ := Int.eq_ofNat_of_zero_le (a := 52 - Int.log 2 |q|) (by omega)
  have hscale : (0 : Rat) < 2 ^ e := by positivity
  unfold toDouble
  rw [if_neg hpos.ne', he, zpow_natCast]
  have hlow : ((m * 2 ^ e : Nat) : Int) ≤ nearestEven (q * 2 ^ e) := le_nearestEven (by push_cast; gcongr)
  have hhigh : nearestEven (q * 2 ^ e) ≤ ((k * 2 ^ e : Nat) : Int) := nearestEven_le (by push_cast; gcongr)
  constructor
  · rw [le_div_iff₀ hscale]
    exact_mod_cast hlow
  · rw [div_le_iff₀ hscale]
    exact_mod_cast hhigh

theorem roundTwo_bounds {m k : Nat} (hm : 0 < m) (hk : k < 2 ^ 52) (h : (m : Rat) ≤ q)
    (h' : q ≤ (k : Rat)) : (m : Rat) ≤ roundTwo q ∧ roundTwo q ≤ (k : Rat) := by
  have hlow : ((m * 100 : Nat) : Int) ≤ nearestEven (q * 100) := le_nearestEven (by push_cast; linarith)
  have hhigh : nearestEven (q * 100) ≤ ((k * 100 : Nat) : Int) := nearestEven_le (by push_cast; linarith)
  have hlow' : ((m * 100 : Nat) : Rat) ≤ nearestEven (q * 100) := by exact_mod_cast hlow
  have hhigh' : (nearestEven (q * 100) : Rat) ≤ ((k * 100 : Nat) : Rat) := by exact_mod_cast hhigh
  push_cast at hlow' hhigh'
  refine toDouble_bounds hm hk ?_ ?_
  · rw [le_div_iff₀ (by norm_num)]
    exact hlow'
  · rw [div_le_iff₀ (by norm_num)]
    exact hhigh'

end TrackFlow.Python
