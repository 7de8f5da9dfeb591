import TrackFlow.Python.Value

/-!
# The `json` module

`Json` is what `json.loads` makes of a text, and `dumps` is `json.dumps` with sorted keys, without
blanks and with `ensure_ascii=False`. A float is taken with its `repr` and with what `float` makes
of a text (`Floats`).

- `loads_dumps`: a value that was written is read back, up to the order of the items of its dictionaries.
-/

namespace TrackFlow.Python

/-! ## Numbers in text -/

/-- `-` or nothing. -/
def IsSign (cs : List Char) : Prop := cs = [] ∨ cs = ['-']

/-- Digits without leading zeros. -/
def IsWhole (cs : List Char) : Prop :=
  cs = ['0'] ∨ ∃ d ds, cs = d :: ds ∧ d.isDigit = true ∧ d ≠ '0' ∧ ∀ c ∈ ds, c.isDigit = true

/-- A point and digits, or nothing. -/
def IsFraction (cs : List Char) : Prop :=
  cs = [] ∨ ∃ ds, cs = '.' :: ds ∧ ds ≠ [] ∧ ∀ c ∈ ds, c.isDigit = true

/-- `e` with an exponent, or nothing. -/
def IsExponent (cs : List Char) : Prop :=
  cs = [] ∨ ∃ e sign ds, cs = e :: (sign ++ ds) ∧ (e = 'e' ∨ e = 'E') ∧
    (sign = [] ∨ sign = ['+'] ∨ sign = ['-']) ∧ ds ≠ [] ∧ ∀ c ∈ ds, c.isDigit = true

/-- The text of a number that is no integer. -/
def IsFloatText (cs : List Char) : Prop :=
  ∃ sign whole fraction exponent, cs = sign ++ whole ++ (fraction ++ exponent) ∧ IsSign sign ∧
    IsWhole whole ∧ IsFraction fraction ∧ IsExponent exponent ∧ fraction ++ exponent ≠ []

/-- The finite floats. `ofText` is `float(text)`, with `none` for a text that is too large;
`float(repr(x))` is `x`. -/
structure Floats where
  Finite : Type
  repr : Finite → List Char
  ofText : List Char → Option Finite
  repr_isFloatText : ∀ x, IsFloatText (repr x)
  ofText_repr : ∀ x, ofText (repr x) = some x

/-! ## Values -/

/-- What `json.loads` returns. -/
inductive Json (F : Floats)
  | null
  | bool (b : Bool)
  | int (z : Int)
  | float (x : F.Finite)
  | infinity (negative : Bool)
  | nan
  | str (s : String)
  | list (xs : List (Json F))
  | dict (kvs : List (String × Json F))

namespace Json

variable {F : Floats}

/-- The limit of `str` and `int` for the digits of an integer. -/
def maxStrDigits : Nat := 4300

/-- The characters of an escaped character. -/
def escapeChar (c : Char) : List Char :=
  if c = '"' then ['\\', '"']
  else if c = '\\' then ['\\', '\\']
  else if c = '\n' then ['\\', 'n']
  else if c = '\r' then ['\\', 'r']
  else if c = '\t' then ['\\', 't']
  else if c = Char.ofNat 12 then ['\\', 'f']
  else if c = Char.ofNat 8 then ['\\', 'b']
  else if c.toNat < 32 then ['\\', 'u', '0', '0', Uuid.hexDigit (c.toNat / 16),
    Uuid.hexDigit (c.toNat % 16)]
  else [c]

/-- A string in quotes. -/
def stringText (s : String) : List Char := '"' :: (s.toList.flatMap escapeChar ++ ['"'])

/-- Texts with commas between them. -/
def commaSeparated : List (List Char) → List Char
  | [] => []
  | [x] => x
  | x :: xs => x ++ ',' :: commaSeparated xs

/-- The text of an integer. -/
def intText (z : Int) : List Char :=
  if z < 0 then '-' :: Nat.toDigits 10 z.natAbs else Nat.toDigits 10 z.natAbs

mutual

/-- The text of a value. -/
def text : Json F → List Char
  | null => ['n', 'u', 'l', 'l']
  | bool true => ['t', 'r', 'u', 'e']
  | bool false => ['f', 'a', 'l', 's', 'e']
  | int z => intText z
  | float x => F.repr x
  | infinity false => ['I', 'n', 'f', 'i', 'n', 'i', 't', 'y']
  | infinity true => ['-', 'I', 'n', 'f', 'i', 'n', 'i', 't', 'y']
  | nan => ['N', 'a', 'N']
  | str s => stringText s
  | list xs => '[' :: (commaSeparated (textList xs) ++ [']'])
  | dict kvs => '{' :: (commaSeparated ((sortByKey (textDict kvs)).map fun p => stringText p.1 ++ ':' :: p.2) ++ ['}'])

def textList : List (Json F) → List (List Char)
  | [] => []
  | x :: xs => text x :: textList xs

def textDict : List (String × Json F) → List (String × List Char)
  | [] => []
  | (k, x) :: xs => (k, text x) :: textDict xs

end

mutual

/-- Whether all the integers of a value are within the limit of `str`. -/
def fits : Json F → Bool
  | int z => (Nat.toDigits 10 z.natAbs).length ≤ maxStrDigits
  | list xs => fitsList xs
  | dict kvs => fitsDict kvs
  | _ => true

def fitsList : List (Json F) → Bool
  | [] => true
  | x :: xs => fits x && fitsList xs

def fitsDict : List (String × Json F) → Bool
  | [] => true
  | (_, x) :: xs => fits x && fitsDict xs

end

/-- `json.dumps(value, sort_keys=True, separators=(",", ":"), ensure_ascii=False)`; `none` for a
`ValueError`. -/
def dumps (j : Json F) : Option (List Char) := if j.fits then some j.text else none

/-! ## Reading -/

/-- `WHITESPACE`. -/
def isBlank (c : Char) : Bool := c == ' ' || c == '\t' || c == '\n' || c == '\r'

def skip (cs : List Char) : List Char := cs.dropWhile isBlank

/-- The value of a hexadecimal digit. -/
def hexValue (c : Char) : Option Nat :=
  if c.isDigit then some (c.toNat - 48)
  else if 'a' ≤ c ∧ c ≤ 'f' then some (c.toNat - 87)
  else if 'A' ≤ c ∧ c ≤ 'F' then some (c.toNat - 55)
  else none

def hexValue4 (a b c d : Char) : Option Nat := do
  let a ← hexValue a
  let b ← hexValue b
  let c ← hexValue c
  let d ← hexValue d
  return ((a * 16 + b) * 16 + c) * 16 + d

/-- `BACKSLASH`. -/
def unescape (c : Char) : Option Nat :=
  if c = '"' ∨ c = '\\' ∨ c = '/' then some c.toNat
  else if c = 'b' then some 8
  else if c = 'f' then some 12
  else if c = 'n' then some 10
  else if c = 'r' then some 13
  else if c = 't' then some 9
  else none

/-- The characters of a string up to its closing quote, and the rest; an escape may be half of a
surrogate pair. -/
def scanUnits : List Char → Option (List Nat × List Char)
  | [] => none
  | '"' :: cs => some ([], cs)
  | '\\' :: 'u' :: a :: b :: c :: d :: cs => do
    let unit ← hexValue4 a b c d
    let (units, cs) ← scanUnits cs
    return (unit :: units, cs)
  | '\\' :: c :: cs => do
    let unit ← unescape c
    let (units, cs) ← scanUnits cs
    return (unit :: units, cs)
  | c :: cs =>
    if c.toNat < 32 then none
    else do
      let (units, cs) ← scanUnits cs
      return (c.toNat :: units, cs)

def isHighSurrogate (n : Nat) : Bool := 0xd800 ≤ n && n ≤ 0xdbff

def isLowSurrogate (n : Nat) : Bool := 0xdc00 ≤ n && n ≤ 0xdfff

/-- Surrogate pairs are put together; a lone surrogate, which is no character, becomes the
replacement character. -/
def ofUnits : List Nat → List Char
  | [] => []
  | [n] => [if isHighSurrogate n || isLowSurrogate n then Char.ofNat 0xfffd else Char.ofNat n]
  | m :: n :: ns =>
    if isHighSurrogate m && isLowSurrogate n then
      Char.ofNat (0x10000 + (m - 0xd800) * 0x400 + (n - 0xdc00)) :: ofUnits ns
    else (if isHighSurrogate m || isLowSurrogate m then Char.ofNat 0xfffd else Char.ofNat m) ::
      ofUnits (n :: ns)

/-- `scanstring`, after the opening quote. -/
def scanString (cs : List Char) : Option (String × List Char) :=
  (scanUnits cs).map fun (units, rest) => (String.ofList (ofUnits units), rest)

/-- The digits of a number without leading zeros, and the rest. -/
def scanWhole : List Char → Option (List Char × List Char)
  | [] => none
  | '0' :: cs => some (['0'], cs)
  | c :: cs => if c.isDigit then some (c :: cs.takeWhile Char.isDigit, cs.dropWhile Char.isDigit) else none

/-- The fraction of a number, and the rest. -/
def scanFraction : List Char → List Char × List Char
  | '.' :: cs =>
    if cs.takeWhile Char.isDigit = [] then ([], '.' :: cs)
    else ('.' :: cs.takeWhile Char.isDigit, cs.dropWhile Char.isDigit)
  | cs => ([], cs)

/-- The sign of an exponent, and the rest. -/
def scanSign : List Char → List Char × List Char
  | '+' :: cs => (['+'], cs)
  | '-' :: cs => (['-'], cs)
  | cs => ([], cs)

/-- The exponent of a number, and the rest. -/
def scanExponent : List Char → List Char × List Char
  | [] => ([], [])
  | e :: cs =>
    let (sign, digits) := scanSign cs
    if (e = 'e' ∨ e = 'E') ∧ digits.takeWhile Char.isDigit ≠ [] then
      (e :: (sign ++ digits.takeWhile Char.isDigit), digits.dropWhile Char.isDigit)
    else ([], e :: cs)

/-- The number whose digits, and whose fraction and exponent, are these. -/
def number (negative : Bool) (whole fraction : List Char) : Option (Json F) :=
  if fraction = [] then
    if maxStrDigits < whole.length then none
    else some (.int (if negative then -Nat.ofDigitChars 10 whole 0 else Nat.ofDigitChars 10 whole 0))
  else
    match F.ofText ((if negative then ['-'] else []) ++ whole ++ fraction) with
    | some x => some (.float x)
    | none => some (.infinity negative)

/-- `_match_number`, after the sign. -/
def scanNumber (negative : Bool) (cs : List Char) : Option (Json F × List Char) := do
  let (whole, cs) ← scanWhole cs
  let (fraction, cs) := scanFraction cs
  let (exponent, cs) := scanExponent cs
  let j ← number negative whole (fraction ++ exponent)
  return (j, cs)

/-- A value that is a constant or a number. -/
def scanScalar : List Char → Option (Json F × List Char)
  | 'n' :: 'u' :: 'l' :: 'l' :: cs => some (.null, cs)
  | 't' :: 'r' :: 'u' :: 'e' :: cs => some (.bool true, cs)
  | 'f' :: 'a' :: 'l' :: 's' :: 'e' :: cs => some (.bool false, cs)
  | 'N' :: 'a' :: 'N' :: cs => some (.nan, cs)
  | 'I' :: 'n' :: 'f' :: 'i' :: 'n' :: 'i' :: 't' :: 'y' :: cs => some (.infinity false, cs)
  | '-' :: 'I' :: 'n' :: 'f' :: 'i' :: 'n' :: 'i' :: 't' :: 'y' :: cs => some (.infinity true, cs)
  | '-' :: cs => scanNumber true cs
  | cs => scanNumber false cs

/-- An item of a dictionary; the last one of a key stays. -/
def setItem (kvs : List (String × Json F)) (k : String) (x : Json F) : List (String × Json F) :=
  if k ∈ kvs.map Prod.fst then kvs.map fun p => if p.1 = k then (k, x) else p else kvs ++ [(k, x)]

mutual

/-- `scan_once`. -/
def scanOnce : Nat → List Char → Option (Json F × List Char)
  | 0, _ => none
  | n + 1, cs =>
    match cs with
    | '"' :: cs => (scanString cs).map fun (s, cs) => (.str s, cs)
    | '{' :: cs =>
      match skip cs with
      | '}' :: cs => some (.dict [], cs)
      | cs => scanItems n [] cs
    | '[' :: cs =>
      match skip cs with
      | ']' :: cs => some (.list [], cs)
      | cs => scanElements n [] cs
    | cs => scanScalar cs

/-- The elements of a list that are left. -/
def scanElements : Nat → List (Json F) → List Char → Option (Json F × List Char)
  | 0, _, _ => none
  | n + 1, xs, cs => do
    let (x, cs) ← scanOnce n cs
    match skip cs with
    | ',' :: cs => scanElements n (xs ++ [x]) (skip cs)
    | ']' :: cs => return (.list (xs ++ [x]), cs)
    | _ => none

/-- The items of a dictionary that are left. -/
def scanItems : Nat → List (String × Json F) → List Char → Option (Json F × List Char)
  | 0, _, _ => none
  | n + 1, kvs, cs =>
    match cs with
    | '"' :: cs => do
      let (k, cs) ← scanString cs
      match skip cs with
      | ':' :: cs =>
        let (x, cs) ← scanOnce n (skip cs)
        match skip cs with
        | ',' :: cs => scanItems n (setItem kvs k x) (skip cs)
        | '}' :: cs => return (.dict (setItem kvs k x), cs)
        | _ => none
      | _ => none
    | _ => none

end

/-- `json.loads`; `none` for a `ValueError`. Twice the length of a text is enough for its nesting. -/
def loads (cs : List Char) : Option (Json F) := do
  if cs.head? = some (Char.ofNat 0xfeff) then none
  else
    let (j, rest) ← scanOnce (2 * cs.length) (skip cs)
    if skip rest = [] then return j else none

/-! ## Reading what was written -/

/-! ### Strings -/

theorem hexValue_hexDigit : ∀ n < 16, hexValue (Uuid.hexDigit n) = some n := by decide

/-- A character that stands for itself. -/
theorem scanUnits_plain {c : Char} (hq : c ≠ '"') (hb : c ≠ '\\') (hc : ¬ c.toNat < 32) (cs : List Char) :
    scanUnits (c :: cs) = (scanUnits cs).map fun p => (c.toNat :: p.1, p.2) := by
  rw [scanUnits]
  · rw [if_neg hc]
    cases scanUnits cs <;> rfl
  · exact hq
  · intro _ _ _ _ _ h
    exact absurd h hb
  · intro _ _ h
    exact absurd h hb

theorem scanUnits_escaped {c : Char} {n : Nat} (hu : c ≠ 'u') (hc : unescape c = some n) (cs : List Char) :
    scanUnits ('\\' :: c :: cs) = (scanUnits cs).map fun p => (n :: p.1, p.2) := by
  rw [scanUnits]
  · rw [hc]
    cases scanUnits cs <;> rfl
  · intro _ _ _ _ _ h
    exact absurd h hu

theorem scanUnits_escapeChar (c : Char) (cs : List Char) :
    scanUnits (escapeChar c ++ cs) = (scanUnits cs).map fun p => (c.toNat :: p.1, p.2) := by
  unfold escapeChar
  by_cases hq : c = '"'
  · subst hq
    exact scanUnits_escaped (by decide) rfl cs
  by_cases hb : c = '\\'
  · subst hb
    exact scanUnits_escaped (by decide) rfl cs
  by_cases hn : c = '\n'
  · subst hn
    exact scanUnits_escaped (by decide) rfl cs
  by_cases hr : c = '\r'
  · subst hr
    exact scanUnits_escaped (by decide) rfl cs
  by_cases ht : c = '\t'
  · subst ht
    exact scanUnits_escaped (by decide) rfl cs
  by_cases hf : c = Char.ofNat 12
  · subst hf
    exact scanUnits_escaped (by decide) rfl cs
  by_cases h8 : c = Char.ofNat 8
  · subst h8
    exact scanUnits_escaped (by decide) rfl cs
  rw [if_neg hq, if_neg hb, if_neg hn, if_neg hr, if_neg ht, if_neg hf, if_neg h8]
  by_cases hc : c.toNat < 32
  · have hhigh := hexValue_hexDigit (c.toNat / 16) (by omega)
    have hlow := hexValue_hexDigit (c.toNat % 16) (by omega)
    have hzero : hexValue '0' = some 0 := rfl
    have hunit :
        hexValue4 '0' '0' (Uuid.hexDigit (c.toNat / 16)) (Uuid.hexDigit (c.toNat % 16)) = some c.toNat := by
      simp only [hexValue4, hhigh, hlow, hzero, Option.bind_eq_bind, Option.bind_some]
      exact congrArg some (by omega)
    rw [if_pos hc]
    simp only [List.cons_append, List.nil_append]
    rw [scanUnits, hunit]
    cases scanUnits cs <;> rfl
  · rw [if_neg hc]
    exact scanUnits_plain hq hb hc cs

theorem scanUnits_stringText (cs rest : List Char) :
    scanUnits (cs.flatMap escapeChar ++ '"' :: rest) = some (cs.map Char.toNat, rest) := by
  induction cs with
  | nil => rfl
  | cons c cs ih =>
    rw [List.flatMap_cons, List.append_assoc, scanUnits_escapeChar, ih]
    rfl

/-- A character is no surrogate. -/
theorem not_surrogate (c : Char) : isHighSurrogate c.toNat = false ∧ isLowSurrogate c.toNat = false := by
  have hvalid : c.toNat < 0xd800 ∨ 0xdfff < c.toNat ∧ c.toNat < 0x110000 := c.valid
  simp only [isHighSurrogate, isLowSurrogate, Bool.and_eq_false_iff, decide_eq_false_iff_not]
  omega

theorem ofUnits_toNat : ∀ cs : List Char, ofUnits (cs.map Char.toNat) = cs
  | [] => rfl
  | [c] => by simp [ofUnits, not_surrogate c, Char.ofNat_toNat]
  | c :: d :: cs => by
    have ih := ofUnits_toNat (d :: cs)
    rw [List.map_cons] at ih
    rw [List.map_cons, List.map_cons, ofUnits, (not_surrogate c).1, (not_surrogate c).2, ih]
    simp [Char.ofNat_toNat]

/-- A string is read back. -/
theorem scanString_stringText (s : String) (rest : List Char) :
    scanString (s.toList.flatMap escapeChar ++ '"' :: rest) = some (s, rest) := by
  simp only [scanString, scanUnits_stringText, Option.map_some, ofUnits_toNat, String.ofList_toList]

/-! ### Numbers -/

/-- A number does not go on here. -/
def NumberEnds (rest : List Char) : Prop :=
  ∀ c cs, rest = c :: cs → c.isDigit = false ∧ c ≠ '.' ∧ c ≠ 'e' ∧ c ≠ 'E'

theorem NumberEnds.noDigit {rest : List Char} (h : NumberEnds rest) : NoDigit rest :=
  fun c cs hc => (h c cs hc).1

theorem scanWhole_append {whole rest : List Char} (h : IsWhole whole) (hrest : NoDigit rest) :
    scanWhole (whole ++ rest) = some (whole, rest) := by
  obtain rfl | ⟨d, ds, rfl, hd, hzero, hds⟩ := h
  · rfl
  · obtain ⟨htake, hdrop⟩ := span_digits hds hrest
    rw [List.cons_append, scanWhole]
    · rw [if_pos hd, htake, hdrop]
    · intro h
      exact hzero h

theorem scanFraction_append {fraction rest : List Char} (h : IsFraction fraction) (hrest : NoDigit rest)
    (hpoint : rest.head? ≠ some '.') : scanFraction (fraction ++ rest) = (fraction, rest) := by
  obtain rfl | ⟨ds, rfl, hne, hds⟩ := h
  · rw [List.nil_append, scanFraction]
    rintro cs rfl
    exact hpoint rfl
  · obtain ⟨htake, hdrop⟩ := span_digits hds hrest
    rw [List.cons_append, scanFraction, htake, hdrop, if_neg hne]

theorem scanSign_append {sign ds : List Char} (h : sign = [] ∨ sign = ['+'] ∨ sign = ['-']) {d : Char}
    (hd : d.isDigit = true) : scanSign (sign ++ d :: ds) = (sign, d :: ds) := by
  obtain rfl | rfl | rfl := h
  · rw [List.nil_append, scanSign]
    · intro _ h
      rw [(List.cons.inj h).1] at hd
      exact absurd hd (by decide)
    · intro _ h
      rw [(List.cons.inj h).1] at hd
      exact absurd hd (by decide)
  · rfl
  · rfl

theorem scanExponent_append {exponent rest : List Char} (h : IsExponent exponent)
    (hrest : NumberEnds rest) : scanExponent (exponent ++ rest) = (exponent, rest) := by
  obtain rfl | ⟨e, sign, ds, rfl, he, hsign, hne, hds⟩ := h
  · cases rest with
    | nil => rfl
    | cons c cs =>
      obtain ⟨_, _, hc, hc'⟩ := hrest c cs rfl
      simp [scanExponent, hc, hc']
  · obtain ⟨htake, hdrop⟩ := span_digits hds hrest.noDigit
    cases ds with
    | nil => exact absurd rfl hne
    | cons d ds =>
      rw [List.cons_append, List.append_assoc, List.cons_append, scanExponent,
        scanSign_append hsign (hds d List.mem_cons_self)]
      rw [List.cons_append] at htake hdrop
      dsimp only
      rw [htake, hdrop, if_pos ⟨he, hne⟩]

/-- The parts of a number are read one after the other. -/
theorem scan_parts {whole fraction exponent rest : List Char} (hw : IsWhole whole)
    (hf : IsFraction fraction)
    (he : IsExponent exponent) (hrest : NumberEnds rest) :
    scanWhole (whole ++ (fraction ++ exponent) ++ rest) = some (whole, fraction ++ (exponent ++ rest)) ∧
      scanFraction (fraction ++ (exponent ++ rest)) = (fraction, exponent ++ rest) ∧
      scanExponent (exponent ++ rest) = (exponent, rest) := by
  have hexponent : NoDigit (exponent ++ rest) ∧ (exponent ++ rest).head? ≠ some '.' := by
    obtain rfl | ⟨e, sign, ds, rfl, he, _⟩ := he
    · refine ⟨hrest.noDigit, fun h => ?_⟩
      rw [List.nil_append] at h
      cases rest with
      | nil => cases h
      | cons c cs => exact (hrest c cs rfl).2.1 (Option.some.inj h)
    · refine ⟨fun c cs h => ?_, fun h => ?_⟩
      · obtain ⟨rfl, -⟩ := List.cons.inj h
        obtain rfl | rfl := he <;> rfl
      · obtain rfl | rfl := he <;> exact absurd h (by simp)
  have hfraction : NoDigit (fraction ++ (exponent ++ rest)) := by
    obtain rfl | ⟨ds, rfl, _⟩ := hf
    · exact hexponent.1
    · intro c cs h
      obtain ⟨rfl, -⟩ := List.cons.inj h
      rfl
  refine ⟨?_, scanFraction_append hf hexponent.1 hexponent.2, scanExponent_append he hrest⟩
  rw [List.append_assoc, List.append_assoc]
  exact scanWhole_append hw hfraction

/-- The text of a number is read to its end. -/
theorem scanNumber_append {negative : Bool} {whole fraction exponent rest : List Char} (hw : IsWhole whole)
    (hf : IsFraction fraction) (he : IsExponent exponent) (hrest : NumberEnds rest) :
    scanNumber (F := F) negative (whole ++ (fraction ++ exponent) ++ rest) =
      (number negative whole (fraction ++ exponent)).map fun j => (j, rest) := by
  obtain ⟨hwhole, hfraction, hexponent⟩ := scan_parts hw hf he hrest
  unfold scanNumber
  rw [hwhole]
  simp only [Option.bind_eq_bind, Option.bind_some, hfraction, hexponent]
  cases number (F := F) negative whole (fraction ++ exponent) <;> rfl

theorem isWhole_cons {whole : List Char} (h : IsWhole whole) :
    ∃ d ds, whole = d :: ds ∧ d.isDigit = true := by
  obtain rfl | ⟨d, ds, rfl, hd, _⟩ := h
  · exact ⟨'0', [], rfl, rfl⟩
  · exact ⟨d, ds, rfl, hd⟩

/-- A digit begins a number. -/
theorem scanScalar_digit {d : Char} (hd : d.isDigit = true) (cs : List Char) :
    scanScalar (F := F) (d :: cs) = scanNumber false (d :: cs) := by
  rw [scanScalar]
  all_goals
    intro _ h
    rw [(List.cons.inj h).1] at hd
    exact absurd hd (by decide)

theorem scanScalar_minus {d : Char} (hd : d.isDigit = true) (cs : List Char) :
    scanScalar (F := F) ('-' :: d :: cs) = scanNumber true (d :: cs) := by
  rw [scanScalar]
  intro _ h
  rw [(List.cons.inj h).1] at hd
  exact absurd hd (by decide)

theorem scanScalar_number {sign whole fraction exponent rest : List Char} (hs : IsSign sign)
    (hw : IsWhole whole)
    (hf : IsFraction fraction) (he : IsExponent exponent) (hrest : NumberEnds rest) :
    scanScalar (F := F) (sign ++ whole ++ (fraction ++ exponent) ++ rest) =
      (number (decide (sign = ['-'])) whole (fraction ++ exponent)).map fun j => (j, rest) := by
  obtain ⟨d, ds, hds, hd⟩ := isWhole_cons hw
  rw [← scanNumber_append hw hf he hrest]
  obtain rfl | rfl := hs
  · rw [hds]
    exact scanScalar_digit hd (ds ++ (fraction ++ exponent) ++ rest)
  · rw [hds]
    exact scanScalar_minus hd (ds ++ (fraction ++ exponent) ++ rest)

/-- The digits of a number have no leading zeros. -/
theorem isWhole_toDigits (n : Nat) : IsWhole (Nat.toDigits 10 n) := by
  induction n using Nat.strongRecOn with
  | ind n ih =>
    rw [Nat.toDigits_eq_if (by decide)]
    split
    · next h =>
      have hdigit : ∀ n < 10, n.digitChar = '0' ∨ n.digitChar.isDigit = true ∧ n.digitChar ≠ '0' :=
        by decide
      obtain h0 | ⟨hd, hne⟩ := hdigit n h
      · exact .inl (by rw [h0])
      · exact .inr ⟨_, [], rfl, hd, hne, by simp⟩
    · next h =>
      have hlast : (n % 10).digitChar.isDigit = true := by
        have hdigit : ∀ n < 10, n.digitChar.isDigit = true := by decide
        exact hdigit _ (Nat.mod_lt _ (by decide))
      obtain h0 | ⟨d, ds, hds, hd, hne, hall⟩ := ih (n / 10) (by omega)
      · have hzero := congrArg (fun cs => Nat.ofDigitChars 10 cs 0) h0
        simp only [Nat.ofDigitChars_ten_toDigits] at hzero
        have h10 : n / 10 = 0 := hzero
        omega
      · refine .inr ⟨d, ds ++ [(n % 10).digitChar], by rw [hds, List.cons_append], hd, hne, fun c hc => ?_⟩
        obtain hc | hc := List.mem_append.1 hc
        · exact hall c hc
        · rw [List.mem_singleton.1 hc]
          exact hlast

/-- An integer is read back, if it is within the limit. -/
theorem scanScalar_intText {z : Int} (h : (Nat.toDigits 10 z.natAbs).length ≤ maxStrDigits)
    {rest : List Char}
    (hrest : NumberEnds rest) : scanScalar (F := F) (intText z ++ rest) = some (.int z, rest) := by
  have hw := isWhole_toDigits z.natAbs
  have hnumber : ∀ negative, number (F := F) negative (Nat.toDigits 10 z.natAbs) ([] ++ []) =
      some (.int (if negative then -z.natAbs else z.natAbs)) := by
    intro negative
    unfold number
    rw [List.append_nil, if_pos rfl, if_neg (Nat.not_lt.2 h), Nat.ofDigitChars_ten_toDigits]
  unfold intText
  by_cases hz : z < 0
  · have hs := scanScalar_number (F := F) (show IsSign ['-'] from .inr rfl) hw (.inl rfl) (.inl rfl) hrest
    have hvalue : (if decide (['-'] = ['-']) = true then -(z.natAbs : Int) else z.natAbs) = z := by
      rw [if_pos (by decide)]
      omega
    rw [hnumber, hvalue] at hs
    rw [if_pos hz]
    simp only [List.append_nil, List.cons_append, List.nil_append] at hs ⊢
    rw [hs]
    rfl
  · have hs := scanScalar_number (F := F) (show IsSign [] from .inl rfl) hw (.inl rfl) (.inl rfl) hrest
    have hvalue :
        (if decide (([] : List Char) = ['-']) = true then -(z.natAbs : Int) else z.natAbs) = z := by
      rw [if_neg (by decide)]
      omega
    rw [hnumber, hvalue] at hs
    rw [if_neg hz]
    simp only [List.append_nil, List.nil_append] at hs ⊢
    rw [hs]
    rfl

/-- A float is read back. -/
theorem scanScalar_repr (x : F.Finite) {rest : List Char} (hrest : NumberEnds rest) :
    scanScalar (F.repr x ++ rest) = some (.float x, rest) := by
  obtain ⟨sign, whole, fraction, exponent, htext, hs, hw, hf, he, hne⟩ := F.repr_isFloatText x
  have hx := F.ofText_repr x
  rw [htext] at hx ⊢
  rw [scanScalar_number hs hw hf he hrest]
  have hsign : (if decide (sign = ['-']) = true then ['-'] else []) = sign := by
    obtain rfl | rfl := hs <;> rfl
  unfold number
  rw [if_neg hne, hsign, hx]
  rfl

/-! ### Values -/

mutual

/-- The keys of each dictionary are different. -/
def distinct : Json F → Bool
  | list xs => distinctList xs
  | dict kvs => decide (kvs.map Prod.fst).Nodup && distinctDict kvs
  | _ => true

def distinctList : List (Json F) → Bool
  | [] => true
  | x :: xs => distinct x && distinctList xs

def distinctDict : List (String × Json F) → Bool
  | [] => true
  | (_, x) :: xs => distinct x && distinctDict xs

end

mutual

/-- The value with its dictionaries sorted by key. -/
def sorted : Json F → Json F
  | list xs => list (sortedList xs)
  | dict kvs => dict (sortByKey (sortedDict kvs))
  | j => j

def sortedList : List (Json F) → List (Json F)
  | [] => []
  | x :: xs => sorted x :: sortedList xs

def sortedDict : List (String × Json F) → List (String × Json F)
  | [] => []
  | (k, x) :: xs => (k, sorted x) :: sortedDict xs

end

/-- `a == b`, which does not see the order of the items of a dictionary. -/
def Eq (a b : Json F) : Prop := a.sorted = b.sorted

theorem textList_eq : ∀ xs : List (Json F), textList xs = xs.map text
  | [] => rfl
  | x :: xs => by rw [textList, textList_eq xs, List.map_cons]

theorem textDict_eq : ∀ kvs : List (String × Json F), textDict kvs = kvs.map fun p => (p.1, p.2.text)
  | [] => rfl
  | (k, x) :: xs => by rw [textDict, textDict_eq xs, List.map_cons]

theorem sortedList_eq : ∀ xs : List (Json F), sortedList xs = xs.map sorted
  | [] => rfl
  | x :: xs => by rw [sortedList, sortedList_eq xs, List.map_cons]

theorem sortedDict_eq : ∀ kvs : List (String × Json F), sortedDict kvs = kvs.map fun p => (p.1, p.2.sorted)
  | [] => rfl
  | (k, x) :: xs => by rw [sortedDict, sortedDict_eq xs, List.map_cons]

theorem fitsList_iff : ∀ {xs : List (Json F)}, fitsList xs = true ↔ ∀ x ∈ xs, x.fits = true
  | [] => by simp [fitsList]
  | x :: xs => by simp [fitsList, @fitsList_iff xs]

theorem fitsDict_iff : ∀ {kvs : List (String × Json F)}, fitsDict kvs = true ↔ ∀ p ∈ kvs, p.2.fits = true
  | [] => by simp [fitsDict]
  | (k, x) :: xs => by simp [fitsDict, @fitsDict_iff xs]

theorem distinctList_iff : ∀ {xs : List (Json F)}, distinctList xs = true ↔ ∀ x ∈ xs, x.distinct = true
  | [] => by simp [distinctList]
  | x :: xs => by simp [distinctList, @distinctList_iff xs]

theorem distinctDict_iff : ∀ {kvs : List (String × Json F)}, distinctDict kvs = true ↔
    ∀ p ∈ kvs, p.2.distinct = true
  | [] => by simp [distinctDict]
  | (k, x) :: xs => by simp [distinctDict, @distinctDict_iff xs]

/-- Sorting by key leaves the values alone. -/
theorem sortByKey_map {α β : Type} (f : α → β) (kvs : List (String × α)) :
    sortByKey (kvs.map fun p => (p.1, f p.2)) = (sortByKey kvs).map fun p => (p.1, f p.2) :=
  (List.map_insertionSort (fun a b : String × α => a.1 ≤ b.1) (fun a b : String × β => a.1 ≤ b.1)
    (fun p => (p.1, f p.2)) kvs fun _ _ _ _ => Iff.rfl).symm

/-- Sorting by key twice is sorting by key once. -/
theorem sortByKey_sortByKey {α : Type} (kvs : List (String × α)) :
    sortByKey (sortByKey kvs) = sortByKey kvs := by
  have : Std.Total fun a b : String × α => a.1 ≤ b.1 := ⟨fun a b => le_total a.1 b.1⟩
  have : IsTrans (String × α) fun a b => a.1 ≤ b.1 := ⟨fun _ _ _ => le_trans⟩
  exact (List.pairwise_insertionSort _ kvs).insertionSort_eq

theorem perm_sortByKey {α : Type} (kvs : List (String × α)) : (sortByKey kvs).Perm kvs :=
  List.perm_insertionSort _ _

theorem text_list (xs : List (Json F)) :
    (list xs).text = '[' :: (commaSeparated (xs.map text) ++ [']']) := by
  rw [text, textList_eq]

theorem text_dict (kvs : List (String × Json F)) : (dict kvs).text =
    '{' :: (commaSeparated ((sortByKey kvs).map fun p => stringText p.1 ++ ':' :: p.2.text) ++ ['}']) := by
  rw [text, textDict_eq, sortByKey_map, List.map_map]
  rfl

/-- What a text of a value begins with. -/
theorem text_head (j : Json F) :
    ∃ c cs, j.text = c :: cs ∧ isBlank c = false ∧ c ≠ ']' ∧ c ≠ Char.ofNat 0xfeff := by
  have hdigit : ∀ {d : Char}, d.isDigit = true → isBlank d = false ∧ d ≠ ']' ∧ d ≠ Char.ofNat 0xfeff := by
    intro d hd
    have hn := toNat_of_isDigit hd
    refine ⟨?_, ?_, ?_⟩
    · simp only [isBlank, Bool.or_eq_false_iff, beq_eq_false_iff_ne]
      refine ⟨⟨⟨?_, ?_⟩, ?_⟩, ?_⟩ <;> rintro rfl <;> revert hn <;> decide
    · rintro rfl
      revert hn
      decide
    · rintro rfl
      revert hn
      decide
  have hminus : isBlank '-' = false ∧ '-' ≠ ']' ∧ '-' ≠ Char.ofNat 0xfeff := by decide
  cases j with
  | null => exact ⟨_, _, rfl, by decide⟩
  | bool b => cases b <;> exact ⟨_, _, rfl, by decide⟩
  | int z =>
    obtain ⟨d, ds, hds, hd⟩ := isWhole_cons (isWhole_toDigits z.natAbs)
    by_cases hz : z < 0
    · have htext : (int z : Json F).text = '-' :: Nat.toDigits 10 z.natAbs :=
        by rw [text, intText, if_pos hz]
      exact ⟨'-', _, htext, hminus⟩
    · have htext : (int z : Json F).text = d :: ds := by rw [text, intText, if_neg hz, hds]
      exact ⟨d, ds, htext, hdigit hd⟩
  | float x =>
    obtain ⟨sign, whole, fraction, exponent, htext, hs, hw, -⟩ := F.repr_isFloatText x
    obtain ⟨d, ds, rfl, hd⟩ := isWhole_cons hw
    obtain rfl | rfl := hs
    · exact ⟨d, _, htext, hdigit hd⟩
    · exact ⟨'-', _, htext, hminus⟩
  | infinity b => cases b <;> exact ⟨_, _, rfl, by decide⟩
  | nan => exact ⟨_, _, rfl, by decide⟩
  | str s => exact ⟨'"', _, rfl, by decide⟩
  | list xs => exact ⟨'[', _, text_list xs, by decide⟩
  | dict kvs => exact ⟨'{', _, text_dict kvs, by decide⟩

theorem skip_text (j : Json F) (rest : List Char) : skip (j.text ++ rest) = j.text ++ rest := by
  obtain ⟨c, cs, htext, hc, -⟩ := text_head j
  rw [htext, List.cons_append, skip, List.dropWhile_cons_of_neg (by rw [hc]; exact Bool.false_ne_true)]

/-- What must be read back of a value. -/
def ReadsBack (j : Json F) : Prop :=
  ∀ n rest, 2 * j.text.length ≤ n → NumberEnds rest → scanOnce n (j.text ++ rest) = some (j.sorted, rest)

theorem numberEnds_of {c : Char} (hc : c.isDigit = false ∧ c ≠ '.' ∧ c ≠ 'e' ∧ c ≠ 'E') (rest : List Char) :
    NumberEnds (c :: rest) := by
  intro d ds h
  obtain ⟨rfl, -⟩ := List.cons.inj h
  exact hc

/-- The elements of a list are read back. -/
theorem scanElements_text : ∀ (xs acc : List (Json F)) (n : Nat) (rest : List Char), xs ≠ [] →
    (∀ x ∈ xs, x.ReadsBack) →
    2 * (commaSeparated (xs.map text)).length + 1 ≤ n →
    scanElements n acc (commaSeparated (xs.map text) ++ ']' :: rest) = some (.list (acc ++ xs.map sorted),
      rest)
  | [], _, _, _, h, _, _ => absurd rfl h
  | _, _, 0, _, _, _, hn => by omega
  | [x], acc, n + 1, rest, _, hx, hn => by
    have hread := hx x List.mem_cons_self n (']' :: rest) (by simp [commaSeparated] at hn; omega)
        (numberEnds_of (by decide) _)
    have htext : commaSeparated ([x].map text) = x.text := rfl
    have hskip : skip (']' :: rest) = ']' :: rest := rfl
    rw [htext, scanElements, hread]
    simp only [Option.bind_eq_bind, Option.bind_some, hskip]
    rfl
  | x :: y :: ys, acc, n + 1, rest, _, hx, hn => by
    have htext : commaSeparated ((x :: y :: ys).map text) = x.text ++ ',' ::
        commaSeparated ((y :: ys).map text) := rfl
    rw [htext] at hn ⊢
    rw [List.length_append, List.length_cons] at hn
    have hread := hx x List.mem_cons_self n (',' :: (commaSeparated ((y :: ys).map text) ++ ']' :: rest))
      (by omega) (numberEnds_of (by decide) _)
    have hskip : skip (',' :: (commaSeparated ((y :: ys).map text) ++ ']' :: rest)) =
        ',' :: (commaSeparated ((y :: ys).map text) ++ ']' :: rest) := rfl
    have hnext : skip (commaSeparated ((y :: ys).map text) ++ ']' :: rest) =
        commaSeparated ((y :: ys).map text) ++ ']' :: rest := by
      cases ys with
      | nil => exact skip_text y _
      | cons z zs =>
        rw [show commaSeparated ((y :: z :: zs).map text) = y.text ++ ',' :: commaSeparated
          ((z :: zs).map text) from rfl, List.append_assoc]
        exact skip_text y _
    have ih := scanElements_text (y :: ys) (acc ++ [x.sorted]) n rest (List.cons_ne_nil _ _)
      (fun z hz => hx z (List.mem_cons_of_mem x hz)) (by omega)
    rw [List.append_assoc, List.cons_append, scanElements, hread]
    simp only [Option.bind_eq_bind, Option.bind_some]
    rw [hskip]
    simp only [hnext, ih, List.append_assoc]
    rfl

theorem setItem_new {kvs : List (String × Json F)} {k : String} (h : k ∉ kvs.map Prod.fst) (x : Json F) :
    setItem kvs k x = kvs ++ [(k, x)] := if_neg h

/-- The text of an item. -/
def itemText (p : String × Json F) : List Char := stringText p.1 ++ ':' :: p.2.text

theorem itemText_append (p : String × Json F) (rest : List Char) :
    itemText p ++ rest = '"' :: (p.1.toList.flatMap escapeChar ++ '"' :: ':' :: (p.2.text ++ rest)) := by
  simp [itemText, stringText]

theorem length_itemText (p : String × Json F) : p.2.text.length + 3 ≤ (itemText p).length := by
  simp only [itemText, stringText, List.length_append, List.length_cons, List.length_nil]
  omega

/-- The items of a dictionary are read back. -/
theorem scanItems_text : ∀ (ps acc : List (String × Json F)) (n : Nat) (rest : List Char), ps ≠ [] →
    (∀ p ∈ ps, p.2.ReadsBack) → (acc.map Prod.fst ++ ps.map Prod.fst).Nodup →
    2 * (commaSeparated (ps.map itemText)).length + 1 ≤ n →
    scanItems n acc (commaSeparated (ps.map itemText) ++ '}' :: rest) =
      some (.dict (acc ++ ps.map fun p => (p.1, p.2.sorted)), rest)
  | [], _, _, _, h, _, _, _ => absurd rfl h
  | _, _, 0, _, _, _, _, hn => by omega
  | [p], acc, n + 1, rest, _, hp, hkeys, hn => by
    have htext : commaSeparated ([p].map itemText) = itemText p := rfl
    rw [htext] at hn ⊢
    have hlen := length_itemText p
    have hread := hp p List.mem_cons_self n ('}' :: rest) (by omega) (numberEnds_of (by decide) _)
    have hskip : skip ('}' :: rest) = '}' :: rest := rfl
    have hcolon : skip (':' :: (p.2.text ++ '}' :: rest)) = ':' :: (p.2.text ++ '}' :: rest) := rfl
    have hnew : p.1 ∉ acc.map Prod.fst :=
      fun h => (List.nodup_append.1 hkeys).2.2 _ h _ List.mem_cons_self rfl
    rw [itemText_append, scanItems, scanString_stringText]
    simp only [Option.bind_eq_bind, Option.bind_some, hcolon, skip_text, hread, hskip, setItem_new hnew]
    rfl
  | p :: q :: ps, acc, n + 1, rest, _, hp, hkeys, hn => by
    have htext : commaSeparated ((p :: q :: ps).map itemText) = itemText p ++ ',' ::
        commaSeparated ((q :: ps).map itemText) :=
      rfl
    rw [htext] at hn ⊢
    rw [List.length_append, List.length_cons] at hn
    have hlen := length_itemText p
    have hnext : ∃ cs, commaSeparated ((q :: ps).map itemText) ++ '}' :: rest = '"' :: cs := by
      cases ps with
      | nil => exact ⟨_, itemText_append q _⟩
      | cons r rs =>
        rw [show commaSeparated ((q :: r :: rs).map itemText) =
          itemText q ++ ',' :: commaSeparated ((r :: rs).map itemText) from rfl, List.append_assoc]
        exact ⟨_, itemText_append q _⟩
    have hkeys' : ((acc ++ [(p.1, p.2.sorted)]).map Prod.fst ++ (q :: ps).map Prod.fst).Nodup := by
      simpa only [List.map_append, List.map_cons, List.map_nil, List.append_assoc, List.cons_append,
        List.nil_append] using hkeys
    have ih := scanItems_text (q :: ps) (acc ++ [(p.1, p.2.sorted)]) n rest (List.cons_ne_nil _ _)
      (fun r hr => hp r (List.mem_cons_of_mem p hr)) hkeys' (by omega)
    rw [List.append_assoc, List.cons_append]
    obtain ⟨cs, hcs⟩ := hnext
    generalize commaSeparated ((q :: ps).map itemText) ++ '}' :: rest = tail at hcs ih
    have hread := hp p List.mem_cons_self n (',' :: tail) (by omega) (numberEnds_of (by decide) _)
    have hskip : skip (',' :: tail) = ',' :: tail := rfl
    have hquote : skip tail = tail := by
      rw [hcs]
      rfl
    have hcolon : skip (':' :: (p.2.text ++ ',' :: tail)) = ':' :: (p.2.text ++ ',' :: tail) := rfl
    have hnew : p.1 ∉ acc.map Prod.fst :=
      fun h => (List.nodup_append.1 hkeys).2.2 _ h _ List.mem_cons_self rfl
    rw [itemText_append, scanItems, scanString_stringText]
    simp only [Option.bind_eq_bind, Option.bind_some, hcolon, skip_text, hread, hskip,
      setItem_new hnew, hquote, ih]
    rw [List.append_assoc]
    rfl

/-- A digit or a sign begins no string and no container. -/
theorem scanOnce_number {sign whole : List Char} (hs : IsSign sign) (hw : IsWhole whole) (n : Nat)
    (rest : List Char) :
    scanOnce (F := F) (n + 1) (sign ++ whole ++ rest) = scanScalar (sign ++ whole ++ rest) := by
  obtain ⟨d, ds, rfl, hd⟩ := isWhole_cons hw
  obtain rfl | rfl := hs
  · rw [List.nil_append, List.cons_append, scanOnce]
    all_goals
      intro _ h
      rw [(List.cons.inj h).1] at hd
      exact absurd hd (by decide)
  · rfl

theorem intText_parts (z : Int) : ∃ sign, IsSign sign ∧ intText z = sign ++ Nat.toDigits 10 z.natAbs := by
  unfold intText
  split
  · exact ⟨['-'], .inr rfl, rfl⟩
  · exact ⟨[], .inl rfl, rfl⟩

/-- Values are made from lists and dictionaries of values. -/
theorem containers {P : Json F → Prop} (hscalar : ∀ j, (∀ xs, j ≠ list xs) → (∀ kvs, j ≠ dict kvs) → P j)
    (hlist : ∀ xs, (∀ x ∈ xs, P x) → P (list xs)) (hdict : ∀ kvs, (∀ p ∈ kvs, P p.2) → P (dict kvs)) :
      ∀ j, P j
  | list xs => hlist xs fun x _ => containers hscalar hlist hdict x
  | dict kvs => hdict kvs fun p _ => containers hscalar hlist hdict p.2
  | null => hscalar _ nofun nofun
  | bool _ => hscalar _ nofun nofun
  | int _ => hscalar _ nofun nofun
  | float _ => hscalar _ nofun nofun
  | infinity _ => hscalar _ nofun nofun
  | nan => hscalar _ nofun nofun
  | str _ => hscalar _ nofun nofun
termination_by j => sizeOf j
decreasing_by
  · have hsize := List.sizeOf_lt_of_mem ‹x ∈ xs›
    rw [list.sizeOf_spec]
    omega
  · have hsize := List.sizeOf_lt_of_mem ‹p ∈ kvs›
    obtain ⟨k, x⟩ := p
    rw [dict.sizeOf_spec]
    rw [Prod.mk.sizeOf_spec] at hsize
    change sizeOf x < _
    omega

theorem scanOnce_scalar {j : Json F} (hl : ∀ xs, j ≠ list xs) (hd : ∀ kvs, j ≠ dict kvs)
    (hfits : j.fits = true) (n : Nat) {rest : List Char} (hrest : NumberEnds rest) :
    scanOnce (n + 1) (j.text ++ rest) = some (j.sorted, rest) := by
  cases j with
  | null => rfl
  | bool b => cases b <;> rfl
  | infinity negative => cases negative <;> rfl
  | nan => rfl
  | int z =>
    obtain ⟨sign, hs, htext⟩ := intText_parts z
    have hscalar := scanScalar_intText (F := F) (of_decide_eq_true hfits) hrest
    rw [htext] at hscalar
    rw [text, htext, scanOnce_number hs (isWhole_toDigits _), hscalar]
    rfl
  | float x =>
    obtain ⟨sign, whole, fraction, exponent, htext, hs, hw, -⟩ := F.repr_isFloatText x
    have hscalar := scanScalar_repr x hrest
    rw [htext, List.append_assoc] at hscalar
    rw [text, htext, List.append_assoc, scanOnce_number hs hw, hscalar]
    rfl
  | str s =>
    have htext : (str s : Json F).text ++ rest = '"' :: (s.toList.flatMap escapeChar ++ '"' :: rest) := by
      simp [text, stringText]
    rw [htext, scanOnce, scanString_stringText]
    rfl
  | list xs => exact absurd rfl (hl xs)
  | dict kvs => exact absurd rfl (hd kvs)

theorem skip_elements {x : Json F} {xs : List (Json F)} (rest : List Char) :
    ∃ c cs, commaSeparated ((x :: xs).map text) ++ rest = c :: cs ∧ isBlank c = false ∧ c ≠ ']' := by
  obtain ⟨c, cs, htext, hblank, hclose, -⟩ := text_head x
  cases xs with
  | nil => exact ⟨c, cs ++ rest, congrArg (· ++ rest) htext, hblank, hclose⟩
  | cons y ys =>
    refine ⟨c, cs ++ ',' :: commaSeparated ((y :: ys).map text) ++ rest, ?_, hblank, hclose⟩
    exact congrArg (· ++ ',' :: commaSeparated ((y :: ys).map text) ++ rest) htext

theorem scanOnce_list {xs : List (Json F)} (hx : ∀ x ∈ xs, x.ReadsBack) : (list xs).ReadsBack := by
  intro n rest hn _
  cases n with
  | zero =>
    rw [text_list, List.length_cons] at hn
    omega
  | succ n =>
    rw [text_list] at hn ⊢
    rw [sorted, sortedList_eq]
    cases xs with
    | nil => rfl
    | cons x xs =>
      have helements := scanElements_text (x :: xs) [] n rest (List.cons_ne_nil _ _) hx (by
        simp only [List.length_cons, List.length_append, List.length_nil] at hn
        omega)
      obtain ⟨c, cs, hcs, hblank, hclose⟩ := @skip_elements F x xs (']' :: rest)
      have hskip : skip (c :: cs) = c :: cs :=
        List.dropWhile_cons_of_neg (by rw [hblank]; exact Bool.false_ne_true)
      rw [List.cons_append, List.append_assoc, List.cons_append, List.nil_append, hcs, scanOnce, hskip]
      split
      · next h => exact absurd (List.cons.inj h).1 hclose
      · rw [← hcs, helements, List.nil_append]

theorem skip_items {p : String × Json F} {ps : List (String × Json F)} (rest : List Char) :
    ∃ cs, commaSeparated ((p :: ps).map itemText) ++ rest = '"' :: cs := by
  cases ps with
  | nil => exact ⟨_, itemText_append p _⟩
  | cons q qs =>
    rw [show commaSeparated ((p :: q :: qs).map itemText) =
      itemText p ++ ',' :: commaSeparated ((q :: qs).map itemText) from rfl, List.append_assoc]
    exact ⟨_, itemText_append p _⟩

theorem scanOnce_dict {kvs : List (String × Json F)} (hp : ∀ p ∈ kvs, p.2.ReadsBack)
    (hkeys : (kvs.map Prod.fst).Nodup) : (dict kvs).ReadsBack := by
  intro n rest hn _
  cases n with
  | zero =>
    rw [text_dict, List.length_cons] at hn
    omega
  | succ n =>
    have hperm := perm_sortByKey kvs
    have hp' : ∀ p ∈ sortByKey kvs, p.2.ReadsBack := fun p h => hp p (hperm.mem_iff.1 h)
    have hkeys' : ((sortByKey kvs).map Prod.fst).Nodup := (hperm.map Prod.fst).nodup_iff.2 hkeys
    have htext : (dict kvs).text = '{' :: (commaSeparated ((sortByKey kvs).map itemText) ++
        ['}']) := text_dict kvs
    rw [htext] at hn ⊢
    rw [sorted, sortedDict_eq, sortByKey_map]
    generalize sortByKey kvs = ps at hn hp' hkeys'
    cases ps with
    | nil => rfl
    | cons p ps =>
      have hitems := scanItems_text (p :: ps) [] n rest (List.cons_ne_nil _ _) hp' hkeys' (by
        simp only [List.length_cons, List.length_append, List.length_nil] at hn
        omega)
      obtain ⟨cs, hcs⟩ := @skip_items F p ps ('}' :: rest)
      have hskip : skip ('"' :: cs) = '"' :: cs := rfl
      rw [List.cons_append, List.append_assoc, List.cons_append, List.nil_append, hcs, scanOnce, hskip]
      refine Eq.trans ?_ (hitems.trans (by rw [List.nil_append]))
      rw [hcs]
      rfl

/-- A value is read back. -/
theorem readsBack (j : Json F) (hfits : j.fits = true) (hdistinct : j.distinct = true) : j.ReadsBack := by
  induction j using containers with
  | hscalar j hl hd =>
    intro n rest hn hrest
    cases n with
    | zero =>
      obtain ⟨c, cs, htext, -⟩ := text_head j
      rw [htext, List.length_cons] at hn
      omega
    | succ n => exact scanOnce_scalar hl hd hfits n hrest
  | hlist xs ih =>
    exact scanOnce_list fun x hx => ih x hx (fitsList_iff.1 hfits x hx) (distinctList_iff.1 hdistinct x hx)
  | hdict kvs ih =>
    obtain ⟨hkeys, hvalues⟩ := Bool.and_eq_true_iff.1 hdistinct
    exact scanOnce_dict (fun p hp => ih p hp (fitsDict_iff.1 hfits p hp) (distinctDict_iff.1 hvalues p hp))
      (of_decide_eq_true hkeys)

/-- `json.loads` of what `json.dumps` wrote. -/
theorem loads_dumps {j : Json F} {cs : List Char} (hdistinct : j.distinct = true) (h : dumps j = some cs) :
    loads cs = some j.sorted := by
  unfold dumps at h
  split at h
  · next hfits =>
    obtain rfl := Option.some.inj h
    obtain ⟨c, cs, htext, hblank, _, hbom⟩ := text_head j
    have hread := readsBack j hfits hdistinct (2 * j.text.length) [] (Nat.le_refl _) (fun _ _ h =>
        by cases h)
    rw [List.append_nil] at hread
    have hskip : skip j.text = j.text := by
      rw [← List.append_nil j.text, skip_text]
    unfold loads
    rw [if_neg (by rw [htext]; exact fun h => hbom (Option.some.inj h)), hskip, hread]
    rfl
  · cases h

/-- Sorting twice is sorting once. -/
theorem sorted_eq (j : Json F) : j.sorted.Eq j := by
  unfold Eq
  induction j using containers with
  | hscalar j hl hd =>
    cases j with
    | list xs => exact absurd rfl (hl xs)
    | dict kvs => exact absurd rfl (hd kvs)
    | _ => rfl
  | hlist xs ih =>
    have hmap : (xs.map sorted).map sorted = xs.map sorted := by
      rw [List.map_map]
      exact List.map_congr_left ih
    rw [sorted, sortedList_eq, sorted, sortedList_eq, hmap]
  | hdict kvs ih =>
    have hmap : (kvs.map fun p => (p.1, p.2.sorted)).map (fun p => (p.1, p.2.sorted)) =
        kvs.map fun p => (p.1, p.2.sorted) := by
      rw [List.map_map]
      exact List.map_congr_left fun p hp => Prod.ext rfl (ih p hp)
    rw [sorted, sortedDict_eq, sorted, sortedDict_eq, ← sortByKey_map, hmap, sortByKey_sortByKey]

end Json

end TrackFlow.Python
