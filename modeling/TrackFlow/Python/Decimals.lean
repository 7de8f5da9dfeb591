import TrackFlow.Python.Text

/-!
# Decimals as text

`Decimal.format` is `format(value, "f")`, which writes no exponent, and `Decimal.ofText?` is
`Decimal(text)`, without the limits of the exponent. What was written is read as the same number
(`ofText_format`, `number_rescaled`).
-/

namespace TrackFlow.Python

/-- A `decimal.Decimal`. -/
inductive Decimal
  | finite (negative : Bool) (coefficient : Nat) (exponent : Int)
  | infinity (negative : Bool)
  | nan (negative signaling : Bool) (payload : Nat)
  deriving DecidableEq

namespace Decimal

/-- What a decimal stands for. -/
inductive Number
  | finite (q : Rat)
  | infinity (negative : Bool)
  | nan
  deriving DecidableEq

/-- The number of a decimal. -/
def number : Decimal → Number
  | finite negative coefficient exponent =>
    let size : Rat :=
      if 0 ≤ exponent then (coefficient * 10 ^ exponent.toNat : Nat)
      else mkRat coefficient (10 ^ (-exponent).toNat)
    .finite (if negative then -size else size)
  | infinity negative => .infinity negative
  | nan _ _ _ => .nan

/-- The same number without a positive exponent. -/
def rescaled : Decimal → Decimal
  | finite negative coefficient exponent =>
    if 0 < exponent then .finite negative (coefficient * 10 ^ exponent.toNat) 0
    else .finite negative coefficient exponent
  | d => d

theorem number_rescaled (d : Decimal) : d.rescaled.number = d.number := by
  cases d with
  | finite negative coefficient exponent =>
    by_cases h : 0 < exponent
    · simp [rescaled, h, number, Int.le_of_lt h]
    · simp [rescaled, h]
  | infinity negative => rfl
  | nan negative signaling payload => rfl

/-! ## Writing -/

def signText (negative : Bool) : List Char := if negative then ['-'] else []

/-- The digits of a finite decimal. -/
def digitsText (coefficient : Nat) (exponent : Int) : List Char :=
  let digits := Nat.toDigits 10 coefficient
  let places := (-exponent).toNat
  if 0 ≤ exponent then (if coefficient = 0 then digits else digits ++ List.replicate exponent.toNat '0')
  else if places < digits.length then
    digits.take (digits.length - places) ++ '.' :: digits.drop (digits.length - places)
  else '0' :: '.' :: (List.replicate (places - digits.length) '0' ++ digits)

/-- `format(value, "f")`. -/
def format : Decimal → List Char
  | finite negative coefficient exponent => signText negative ++ digitsText coefficient exponent
  | infinity negative => signText negative ++ ['I', 'n', 'f', 'i', 'n', 'i', 't', 'y']
  | nan negative signaling payload =>
    signText negative ++ ((if signaling then ['s'] else []) ++ ('N' :: 'a' :: 'N' ::
      (if payload = 0 then [] else Nat.toDigits 10 payload)))

/-! ## Reading -/

/-- A decimal digit of Unicode as an ASCII digit. -/
def asciiDigit (c : Char) : Char :=
  match decimalZeros.find? fun z => z ≤ c.toNat && c.toNat < z + 10 with
  | some z => Nat.digitChar (c.toNat - z)
  | none => c

/-- The sign of a text, and the rest. -/
def scanSign : List Char → Bool × List Char
  | '-' :: cs => (true, cs)
  | '+' :: cs => (false, cs)
  | cs => (false, cs)

/-- The exponent at the end of a number. -/
def ofExponent? : List Char → Option Int
  | [] => some 0
  | e :: cs =>
    let (negative, digits) := scanSign cs
    if (e = 'e' ∨ e = 'E') ∧ digits ≠ [] ∧ digits.all Char.isDigit then
      some (if negative then -Nat.ofDigitChars 10 digits 0 else Nat.ofDigitChars 10 digits 0)
    else none

/-- The digits after the point, and the rest. -/
def scanFraction : List Char → List Char × List Char
  | '.' :: cs => (cs.takeWhile Char.isDigit, cs.dropWhile Char.isDigit)
  | cs => ([], cs)

/-- A finite number. -/
def ofNumber? (negative : Bool) (cs : List Char) : Option Decimal := do
  let whole := cs.takeWhile Char.isDigit
  let (fraction, cs) := scanFraction (cs.dropWhile Char.isDigit)
  if whole ++ fraction = [] then none
  else
    let exponent ← ofExponent? cs
    return .finite negative (Nat.ofDigitChars 10 (whole ++ fraction) 0) (exponent - fraction.length)

/-- A NaN, with digits after it. -/
def ofNan? (negative signaling : Bool) (cs : List Char) : Option Decimal :=
  if cs.all Char.isDigit then some (.nan negative signaling (Nat.ofDigitChars 10 cs 0)) else none

/-- A decimal without its sign. -/
def ofUnsigned? (negative : Bool) (cs : List Char) : Option Decimal :=
  match cs.map Char.toLower with
  | ['i', 'n', 'f'] => some (.infinity negative)
  | ['i', 'n', 'f', 'i', 'n', 'i', 't', 'y'] => some (.infinity negative)
  | 'n' :: 'a' :: 'n' :: ds => ofNan? negative false ds
  | 's' :: 'n' :: 'a' :: 'n' :: ds => ofNan? negative true ds
  | _ => ofNumber? negative cs

/-- The characters of a text that count: blanks around it and underscores do not. -/
def plainText (cs : List Char) : List Char :=
  ((((cs.dropWhile isSpace).reverse.dropWhile isSpace).reverse).filter fun c => c != '_').map asciiDigit

/-- `Decimal(text)`; `none` for an `InvalidOperation`. An exponent that `decimal` has no room for is read as any
other. -/
def ofText? (cs : List Char) : Option Decimal :=
  let (negative, cs) := scanSign (plainText cs)
  ofUnsigned? negative cs

/-! ## Reading what was written -/

variable {negative : Bool} {c : Char} {cs : List Char}

/-- A character that `Decimal` takes as it is. -/
def Plain (c : Char) : Prop := isSpace c = false ∧ c ≠ '_' ∧ asciiDigit c = c

theorem plainText_eq (h : ∀ c ∈ cs, Plain c) : plainText cs = cs := by
  have hdrop : ∀ {l : List Char}, (∀ c ∈ l, Plain c) → l.dropWhile isSpace = l := by
    intro l hl
    cases l with
    | nil => rfl
    | cons d ds => rw [List.dropWhile_cons_of_neg (by rw [(hl d List.mem_cons_self).1]; exact Bool.false_ne_true)]
  have hreverse : ∀ c ∈ cs.reverse, Plain c := fun c hc => h c (List.mem_reverse.1 hc)
  have hfilter : cs.filter (fun c => c != '_') = cs :=
    List.filter_eq_self.2 fun c hc => bne_iff_ne.2 (h c hc).2.1
  unfold plainText
  rw [hdrop h, hdrop hreverse, List.reverse_reverse, hfilter]
  exact (List.map_congr_left fun c hc => (h c hc).2.2).trans (List.map_id cs)

/-- An ASCII digit is the digit of a number below ten. -/
theorem exists_digitChar (h : c.isDigit = true) : ∃ n < 10, c = Nat.digitChar n := by
  obtain ⟨hlow, hhigh⟩ := toNat_of_isDigit h
  have hc : c = Char.ofNat c.toNat := (Char.ofNat_toNat c).symm
  have hall : ∀ n < 10, Char.ofNat (n + 48) = Nat.digitChar n := by decide
  refine ⟨c.toNat - 48, by omega, ?_⟩
  rw [← hall _ (by omega), Nat.sub_add_cancel hlow]
  exact hc

theorem plain_digit (h : c.isDigit = true) : Plain c := by
  obtain ⟨n, hn, rfl⟩ := exists_digitChar h
  have hall : ∀ n < 10, isSpace (Nat.digitChar n) = false ∧ Nat.digitChar n ≠ '_' ∧
      asciiDigit (Nat.digitChar n) = Nat.digitChar n := by decide
  exact hall n hn

theorem toLower_digit (h : c.isDigit = true) : c.toLower = c := by
  obtain ⟨n, hn, rfl⟩ := exists_digitChar h
  have hall : ∀ n < 10, (Nat.digitChar n).toLower = Nat.digitChar n := by decide
  exact hall n hn

theorem isDigit_toDigits {n : Nat} (h : c ∈ Nat.toDigits 10 n) : c.isDigit = true :=
  Nat.isDigit_of_mem_toDigits (by decide) (by decide) h

/-- Digits before the point and after it. -/
theorem digitsText_parts (coefficient : Nat) (exponent : Int) : ∃ whole fraction, whole ≠ [] ∧
    (∀ c ∈ whole, c.isDigit = true) ∧ (∀ c ∈ fraction, c.isDigit = true) ∧
    digitsText coefficient exponent = whole ++ (if fraction = [] then [] else '.' :: fraction) ∧
    finite negative (Nat.ofDigitChars 10 (whole ++ fraction) 0) (0 - fraction.length) =
      rescaled (finite negative coefficient exponent) := by
  have hdigits := Nat.ofDigitChars_ten_toDigits (n := coefficient)
  have hne := Nat.toDigits_ne_nil (n := coefficient) (b := 10)
  unfold digitsText rescaled
  dsimp only
  generalize hds : Nat.toDigits 10 coefficient = ds at hdigits hne
  have hall : ∀ c ∈ ds, c.isDigit = true := fun c hc => isDigit_toDigits (hds ▸ hc)
  by_cases he : 0 ≤ exponent
  · by_cases hzero : coefficient = 0
    · refine ⟨ds, [], hne, hall, by simp, ?_, ?_⟩
      · rw [if_pos he, if_pos hzero]
        simp
      · rw [List.append_nil, hdigits, hzero]
        split
        · simp
        · simp
          omega
    · refine ⟨ds ++ List.replicate exponent.toNat '0', [], by simp [hne], ?_, by simp, ?_, ?_⟩
      · intro c hc
        obtain hc | hc := List.mem_append.1 hc
        · exact hall c hc
        · rw [List.eq_of_mem_replicate hc]
          rfl
      · rw [if_pos he, if_neg hzero]
        simp
      · rw [List.append_nil, Nat.ofDigitChars_append, hdigits, Nat.ofDigitChars_replicate_zero,
            Nat.mul_comm]
        split
        · simp
        · have h0 : exponent = 0 := by omega
          simp [h0]
  · have hplaces : (0 : Int) - ((-exponent).toNat : Nat) = exponent := by omega
    have hpositive : 0 < (-exponent).toNat := by omega
    have hneg : ¬ 0 < exponent := by omega
    rw [if_neg hneg, if_neg he]
    generalize (-exponent).toNat = places at hplaces hpositive
    by_cases hsmall : places < ds.length
    · refine ⟨ds.take (ds.length - places), ds.drop (ds.length - places), ?_, ?_, ?_, ?_, ?_⟩
      · intro h
        have hlen := congrArg List.length h
        rw [List.length_take, List.length_nil] at hlen
        omega
      · exact fun c hc => hall c (List.mem_of_mem_take hc)
      · exact fun c hc => hall c (List.mem_of_mem_drop hc)
      · have hfraction : ds.drop (ds.length - places) ≠ [] := by
          intro h
          have hlen := congrArg List.length h
          rw [List.length_drop, List.length_nil] at hlen
          omega
        rw [if_pos hsmall, if_neg hfraction]
      · rw [List.take_append_drop, hdigits, List.length_drop,
            Nat.sub_sub_self (Nat.le_of_lt hsmall), hplaces]
    · refine ⟨['0'], List.replicate (places - ds.length) '0' ++ ds, by simp, by simp, ?_, ?_, ?_⟩
      · intro c hc
        obtain hc | hc := List.mem_append.1 hc
        · rw [List.eq_of_mem_replicate hc]
          rfl
        · exact hall c hc
      · rw [if_neg hsmall, if_neg (by simp [hne])]
        rfl
      · have hlen : (List.replicate (places - ds.length) '0' ++ ds).length = places := by
          rw [List.length_append, List.length_replicate]
          omega
        have hzeros : Nat.ofDigitChars 10 ('0' :: (List.replicate (places - ds.length) '0' ++ ds))
            0 = coefficient := by
          rw [Nat.ofDigitChars_cons, Nat.ofDigitChars_append, Nat.ofDigitChars_replicate_zero]
          simpa using hdigits
        rw [hlen, hplaces, List.cons_append, List.nil_append, hzeros]

/-- The digits of a finite decimal are read back. -/
theorem ofNumber_digitsText (negative : Bool) (coefficient : Nat) (exponent : Int) :
    ofNumber? negative (digitsText coefficient exponent) =
      some (rescaled (finite negative coefficient exponent)) := by
  obtain ⟨whole, fraction, hne, hwhole, hfraction, htext, hvalue⟩ :=
    @digitsText_parts negative coefficient exponent
  rw [htext, ← hvalue]
  have hrest : NoDigit (if fraction = [] then [] else '.' :: fraction) := by
    intro c cs h
    split at h
    · cases h
    · obtain ⟨rfl, -⟩ := List.cons.inj h
      rfl
  obtain ⟨htake, hdrop⟩ := span_digits hwhole hrest
  have hscan : scanFraction (if fraction = [] then [] else '.' :: fraction) = (fraction, []) := by
    split
    · next h => rw [h]; rfl
    · obtain ⟨htake, hdrop⟩ := span_digits hfraction (show NoDigit [] from fun _ _ h => by cases h)
      rw [List.append_nil] at htake hdrop
      rw [scanFraction, htake, hdrop]
  unfold ofNumber?
  rw [htake, hdrop, hscan]
  dsimp only
  rw [if_neg (by simp [hne])]
  rfl

/-- What the text of a finite decimal begins with. -/
theorem digitsText_head (coefficient : Nat) (exponent : Int) :
    ∃ d ds, digitsText coefficient exponent = d :: ds ∧ d.isDigit = true := by
  obtain ⟨whole, fraction, hne, hwhole, -, htext, -⟩ := @digitsText_parts false coefficient exponent
  cases whole with
  | nil => exact absurd rfl hne
  | cons d ds => exact ⟨d, ds ++ _, htext, hwhole d List.mem_cons_self⟩

theorem scanSign_signText {d : Char} (hplus : d ≠ '+') (hminus : d ≠ '-') (negative : Bool)
    (ds : List Char) : scanSign (signText negative ++ d :: ds) = (negative, d :: ds) := by
  cases negative with
  | true => rfl
  | false =>
    rw [signText, if_neg Bool.false_ne_true, List.nil_append, scanSign]
    · intro _ h
      exact hminus (List.cons.inj h).1
    · intro _ h
      exact hplus (List.cons.inj h).1

/-- A digit begins a finite number. -/
theorem ofUnsigned_digit {d : Char} (hd : d.isDigit = true) (negative : Bool) (ds : List Char) :
    ofUnsigned? negative (d :: ds) = ofNumber? negative (d :: ds) := by
  have hlower := toLower_digit hd
  unfold ofUnsigned?
  rw [List.map_cons, hlower]
  split
  all_goals first | rfl | skip
  all_goals
    next h =>
      rw [(List.cons.inj h).1] at hd
      exact absurd hd (by decide)

/-- The digits after `NaN`. -/
def payloadText (payload : Nat) : List Char := if payload = 0 then [] else Nat.toDigits 10 payload

theorem isDigit_payloadText {payload : Nat} (h : c ∈ payloadText payload) : c.isDigit = true := by
  unfold payloadText at h
  split at h
  · cases h
  · exact isDigit_toDigits h

theorem ofNan_payloadText (negative signaling : Bool) (payload : Nat) :
    ofNan? negative signaling ((payloadText payload).map Char.toLower) =
      some (.nan negative signaling payload) := by
  have hlower : (payloadText payload).map Char.toLower = payloadText payload :=
    (List.map_congr_left fun c hc => toLower_digit (isDigit_payloadText hc)).trans (List.map_id _)
  have hvalue : Nat.ofDigitChars 10 (payloadText payload) 0 = payload := by
    unfold payloadText
    split
    · next h => rw [h, Nat.ofDigitChars_nil]
    · exact Nat.ofDigitChars_ten_toDigits
  unfold ofNan?
  rw [hlower, if_pos (List.all_eq_true.2 fun c hc => isDigit_payloadText hc), hvalue]

theorem plain_format (d : Decimal) : ∀ c ∈ d.format, Plain c := by
  have hsign : ∀ negative, ∀ c ∈ signText negative, Plain c := by
    intro negative c hc
    cases negative with
    | false => cases hc
    | true =>
      rw [List.mem_singleton.1 hc]
      exact ⟨by decide, by decide, by decide⟩
  have hletters : ∀ c ∈ ['I', 'n', 'f', 'i', 'n', 'i', 't', 'y', 's', 'N', 'a', '.'], Plain c := by
    have hall : ['I', 'n', 'f', 'i', 'n', 'i', 't', 'y', 's', 'N', 'a', '.'].all
        (fun c => decide (isSpace c = false ∧ c ≠ '_' ∧ asciiDigit c = c)) = true := by decide
    intro c hc
    have hplain : isSpace c = false ∧ c ≠ '_' ∧ asciiDigit c = c :=
      of_decide_eq_true (List.all_eq_true.1 hall c hc)
    exact hplain
  intro c hc
  cases d with
  | finite negative coefficient exponent =>
    obtain ⟨whole, fraction, -, hwhole, hfraction, htext, -⟩ :=
      @digitsText_parts negative coefficient exponent
    rw [format, htext, List.mem_append, List.mem_append] at hc
    obtain hc | hc | hc := hc
    · exact hsign _ c hc
    · exact plain_digit (hwhole c hc)
    · split at hc
      · cases hc
      · obtain rfl | hc := List.mem_cons.1 hc
        · exact hletters _ (by decide)
        · exact plain_digit (hfraction c hc)
  | infinity negative =>
    obtain hc | hc := List.mem_append.1 hc
    · exact hsign _ c hc
    · exact hletters c (List.mem_append_left ['s', 'N', 'a', '.'] hc)
  | nan negative signaling payload =>
    obtain hc | hc := List.mem_append.1 hc
    · exact hsign _ c hc
    · obtain hc | hc := List.mem_append.1 hc
      · cases signaling with
        | false => cases hc
        | true =>
          rw [List.mem_singleton.1 hc]
          exact hletters _ (by decide)
      · simp only [List.mem_cons] at hc
        obtain rfl | rfl | rfl | hc := hc
        · exact hletters _ (by decide)
        · exact hletters _ (by decide)
        · exact hletters _ (by decide)
        · exact plain_digit (@isDigit_payloadText _ payload hc)

/-- What `format` wrote is read as the same number. -/
theorem ofText_format (d : Decimal) : ofText? d.format = some d.rescaled := by
  unfold ofText?
  rw [plainText_eq (plain_format d)]
  cases d with
  | finite negative coefficient exponent =>
    obtain ⟨d, ds, htext, hd⟩ := digitsText_head coefficient exponent
    have hne : ∀ {c : Char}, c.isDigit = false → d ≠ c := by
      rintro c hc rfl
      rw [hd] at hc
      cases hc
    rw [format, htext, scanSign_signText (hne (by decide)) (hne (by decide))]
    dsimp only
    rw [ofUnsigned_digit hd, ← htext, ofNumber_digitsText]
  | infinity negative => cases negative <;> rfl
  | nan negative signaling payload =>
    have hnan := ofNan_payloadText negative signaling payload
    cases signaling with
    | false =>
      have htext : format (nan negative false payload) = signText negative ++ 'N' :: 'a' :: 'N' ::
          payloadText payload := rfl
      rw [htext, scanSign_signText (by decide) (by decide)]
      exact hnan
    | true =>
      have htext : format (nan negative true payload) = signText negative ++ 's' :: 'N' :: 'a' ::
          'N' :: payloadText payload :=
        rfl
      rw [htext, scanSign_signText (by decide) (by decide)]
      exact hnan

end Decimal

end TrackFlow.Python
