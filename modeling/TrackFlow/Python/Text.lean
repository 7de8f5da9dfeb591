import Mathlib

/-!
# Python text

The string operations that the program's checks rest on, on lists of code points: `str.isspace` and
`str.strip`, `str.lower`, the `in` test for substrings, `str.replace`, `str` of integers, and the
characters that `int(text, base)` accepts.
-/

namespace TrackFlow.Python

/-! ## Blank text -/

/-- The white space that `int()` skips among the ASCII characters. -/
def isAsciiSpace (c : Char) : Bool := c == ' ' || (9 ≤ c.toNat && c.toNat ≤ 13)

/-- The white space beyond ASCII. -/
def isWideSpace (c : Char) : Bool :=
  let n := c.toNat
  n == 0x85 || n == 0xa0 || n == 0x1680 || (0x2000 ≤ n && n ≤ 0x200a) || n == 0x2028 || n == 0x2029 ||
    n == 0x202f || n == 0x205f || n == 0x3000

/-- `str.isspace` of one character. -/
def isSpace (c : Char) : Bool := isAsciiSpace c || (0x1c ≤ c.toNat && c.toNat ≤ 0x1f) || isWideSpace c

/-- Whether `strip` leaves nothing: `not text.strip()`. -/
def isBlank (s : String) : Bool := s.toList.all isSpace

/-- Text with a character that is not white space is not blank. -/
theorem not_isBlank_of_mem {s : String} {c : Char} (hc : c ∈ s.toList) (h : isSpace c = false) :
    isBlank s = false := by
  rw [isBlank, List.all_eq_false]
  exact ⟨c, hc, by simp [h]⟩

/-- `text.strip()`. -/
def strip (s : String) : String :=
  String.ofList ((s.toList.dropWhile isSpace).reverse.dropWhile isSpace).reverse

/-- Stripping twice strips once. -/
theorem strip_strip (s : String) : strip (strip s) = strip s := by
  unfold strip
  rw [String.toList_ofList]
  have hr : ∀ l : List Char, (l.reverse.dropWhile isSpace).reverse = l.rdropWhile isSpace := fun l => rfl
  rw [hr, hr]
  have hd : ((s.toList.dropWhile isSpace).rdropWhile isSpace).dropWhile isSpace =
      (s.toList.dropWhile isSpace).rdropWhile isSpace := by
    rw [List.dropWhile_eq_self_iff]
    intro hl
    have hprefix := List.rdropWhile_prefix isSpace (s.toList.dropWhile isSpace)
    have hget := hprefix.getElem hl
    rw [hget]
    exact List.dropWhile_get_zero_not isSpace s.toList (Nat.lt_of_lt_of_le hl hprefix.length_le)
  rw [hd, List.rdropWhile_idempotent]

/-! ## Substrings and case -/

/-- `text.startswith(head)`. -/
def startsWith (head s : String) : Bool := head.toList.isPrefixOf s.toList

/-- The `in` test: `pat` occurs in the text. -/
def occurs (pat : List Char) : List Char → Bool
  | [] => pat.isEmpty
  | c :: cs => pat.isPrefixOf (c :: cs) || occurs pat cs

theorem occurs_iff {pat : List Char} : ∀ {text : List Char}, occurs pat text = true ↔ pat <:+: text
  | [] => by simp [occurs]
  | c :: cs => by simp [occurs, occurs_iff, List.infix_cons_iff]

/-- `str.lower` of one character. Beyond ASCII only `İ` and the Kelvin sign have ASCII letters in
their lower case; the others are left alone, which no search for ASCII text can tell. -/
def lowerChar (c : Char) : List Char :=
  if 65 ≤ c.toNat ∧ c.toNat ≤ 90 then [Char.ofNat (c.toNat + 32)]
  else if c.toNat = 0x130 then ['i', Char.ofNat 0x307]
  else if c.toNat = 0x212a then ['k']
  else [c]

/-- `str.lower`. -/
def lower (s : String) : List Char := s.toList.flatMap lowerChar

/-- `str.lower`, whose tables are those of Unicode, with what the program relies on: it changes
nothing twice, and white space neither comes nor goes at the ends. -/
structure CaseMap where
  lower : String → String
  lower_lower : ∀ s, lower (lower s) = lower s
  strip_lower : ∀ s, strip s = s → strip (lower s) = lower s

/-- `text.strip().lower()`. -/
def CaseMap.normalize (u : CaseMap) (s : String) : String := u.lower (strip s)

theorem CaseMap.normalize_normalize (u : CaseMap) (s : String) :
    u.normalize (u.normalize s) = u.normalize s := by
  unfold normalize
  rw [u.strip_lower _ (strip_strip s), u.lower_lower]

/-- Whether one of the markers occurs in the lower-cased text. -/
def hasMarker (markers : List String) (s : String) : Bool := markers.any fun m => occurs m.toList (lower s)

/-- `text[:n]`. -/
def takeText (n : Nat) (s : String) : String := String.ofList (s.toList.take n)

theorem length_takeText (n : Nat) (s : String) : (takeText n s).length ≤ n := by
  simp [takeText]

/-- `text.replace(pat, "")`, where `skip` characters of an occurrence are still to be dropped. -/
def removeFrom (pat : List Char) : Nat → List Char → List Char
  | _, [] => []
  | skip + 1, _ :: cs => removeFrom pat skip cs
  | 0, c :: cs => if pat.isPrefixOf (c :: cs) then removeFrom pat (pat.length - 1) cs else c :: removeFrom pat 0 cs

/-- Text without the first character of `pat` keeps everything. -/
theorem removeFrom_of_notMem {p : Char} {ps : List Char} :
    ∀ {cs : List Char}, p ∉ cs → removeFrom (p :: ps) 0 cs = cs
  | [], _ => rfl
  | c :: cs, h => by
    simp only [List.mem_cons, not_or] at h
    have hne : (p == c) = false := by simpa using h.1
    simp [removeFrom, List.isPrefixOf, hne, removeFrom_of_notMem h.2]

/-- `text.replace(pat, new)` for a non-empty `pat`, after `skip` characters of an occurrence. -/
def replaceFrom (pat new : List Char) : Nat → List Char → List Char
  | _, [] => []
  | skip + 1, _ :: cs => replaceFrom pat new skip cs
  | 0, c :: cs =>
    if pat.isPrefixOf (c :: cs) then new ++ replaceFrom pat new (pat.length - 1) cs else c ::
      replaceFrom pat new 0 cs

theorem replaceFrom_skip (pat new : List Char) : ∀ cs : List Char, replaceFrom pat new cs.length cs = []
  | [] => rfl
  | _ :: cs => replaceFrom_skip pat new cs

/-- The only occurrence is at the end. -/
theorem replaceFrom_last {p : Char} {ps new : List Char} : ∀ {cs : List Char}, p ∉ cs →
    replaceFrom (p :: ps) new 0 (cs ++ p :: ps) = cs ++ new
  | [], _ => by
    have h : (p :: ps).isPrefixOf (p :: ps) = true := by simp
    rw [List.nil_append, replaceFrom, if_pos h, List.length_cons, Nat.add_sub_cancel,
      replaceFrom_skip, List.append_nil]
    rfl
  | c :: cs, h => by
    rw [List.mem_cons, not_or] at h
    have hne : (p :: ps).isPrefixOf (c :: (cs ++ p :: ps)) = false := by
      rw [List.isPrefixOf, beq_eq_false_iff_ne.2 h.1, Bool.false_and]
    rw [List.cons_append, replaceFrom, hne, if_neg Bool.false_ne_true, replaceFrom_last h.2]
    rfl

/-! ## Integers in text -/

/-- The zeros of the decimal digits of Unicode 15. -/
def decimalZeros : List Nat :=
  [0x30, 0x660, 0x6f0, 0x7c0, 0x966, 0x9e6, 0xa66, 0xae6, 0xb66, 0xbe6, 0xc66, 0xce6, 0xd66, 0xde6,
    0xe50, 0xed0, 0xf20, 0x1040, 0x1090, 0x17e0, 0x1810, 0x1946, 0x19d0, 0x1a80, 0x1a90, 0x1b50,
    0x1bb0, 0x1c40, 0x1c50, 0xa620, 0xa8d0, 0xa900, 0xa9d0, 0xa9f0, 0xaa50, 0xabf0, 0xff10, 0x104a0,
    0x10d30, 0x11066, 0x110f0, 0x11136, 0x111d0, 0x112f0, 0x11450, 0x114d0, 0x11650, 0x116c0, 0x11730,
    0x118e0, 0x11950, 0x11c50, 0x11d50, 0x11da0, 0x11f50, 0x16a60, 0x16ac0, 0x16b50, 0x1d7ce, 0x1d7d8,
    0x1d7e2, 0x1d7ec, 0x1d7f6, 0x1e140, 0x1e2f0, 0x1e4f0, 0x1e950, 0x1fbf0]

/-- The value of a digit: ASCII digits and letters, and the decimal digits of Unicode. -/
def digitValue (c : Char) : Option Nat :=
  let n := c.toNat
  if 48 ≤ n ∧ n ≤ 57 then some (n - 48)
  else if 97 ≤ n ∧ n ≤ 122 then some (n - 87)
  else if 65 ≤ n ∧ n ≤ 90 then some (n - 55)
  else (decimalZeros.find? fun z => z ≤ n && n < z + 10).map fun z => n - z

/-- The white space that `int()` strips. -/
def isIntSpace (c : Char) : Bool := isAsciiSpace c || isWideSpace c

/-- Digits below `base`, with single underscores between them; `prev` says that a digit came just before. -/
def digitsWithin (base : Nat) : Bool → List Char → Option (List Nat)
  | prev, [] => if prev then some [] else none
  | prev, c :: cs =>
    if c = '_' then (if prev then digitsWithin base false cs else none)
    else
      match digitValue c with
      | some d => if d < base then (digitsWithin base true cs).map (d :: ·) else none
      | none => none

theorem digitsWithin_map {base : Nat} {f : Nat → Char} (hf : ∀ d < base, digitValue (f d) = some d)
    (hu : ∀ d < base, f d ≠ '_') : ∀ (prev : Bool) (ds : List Nat), (∀ d ∈ ds, d < base) →
      (prev = true ∨ ds ≠ []) → digitsWithin base prev (ds.map f) = some ds
  | prev, [], _, h => by
    have : prev = true := h.resolve_right (by simp)
    simp [digitsWithin, this]
  | prev, d :: ds, hd, _ => by
    have hlt := hd d (by simp)
    have ih := digitsWithin_map hf hu true ds (fun e he => hd e (List.mem_cons_of_mem d he)) (Or.inl rfl)
    simp [digitsWithin, hu d hlt, hf d hlt, hlt, ih]

/-! ## Digits -/

/-- There is no digit here. -/
def NoDigit (rest : List Char) : Prop := ∀ c cs, rest = c :: cs → c.isDigit = false

/-- Digits before something else. -/
theorem span_digits {ds rest : List Char} (hds : ∀ c ∈ ds, c.isDigit = true) (hrest : NoDigit rest) :
    (ds ++ rest).takeWhile Char.isDigit = ds ∧ (ds ++ rest).dropWhile Char.isDigit = rest := by
  rw [List.takeWhile_append_of_pos hds, List.dropWhile_append_of_pos hds]
  cases rest with
  | nil => simp
  | cons c cs => simp [hrest c cs rfl]

/-! ## Integers as text -/

theorem toNat_of_isDigit {c : Char} (h : c.isDigit = true) : 48 ≤ c.toNat ∧ c.toNat ≤ 57 := by
  have hv : 48 ≤ c.val ∧ c.val ≤ 57 := by simpa [Char.isDigit] using h
  exact ⟨UInt32.le_iff_toNat_le.1 hv.1, UInt32.le_iff_toNat_le.1 hv.2⟩

/-- The decimal text of a natural number has a digit and no sign. -/
theorem repr_digits (n : Nat) : (∃ c ∈ n.repr.toList, isSpace c = false) ∧ '-' ∉ n.repr.toList := by
  rw [Nat.toList_repr]
  have hd : ∀ c ∈ Nat.toDigits 10 n, 48 ≤ c.toNat ∧ c.toNat ≤ 57 := fun c hc =>
    toNat_of_isDigit (Nat.isDigit_of_mem_toDigits (by omega) (by omega) hc)
  refine ⟨?_, fun h => absurd (hd _ h) (by decide)⟩
  obtain ⟨c, hc⟩ := List.exists_mem_of_ne_nil _ (Nat.toDigits_ne_nil (n := n) (b := 10))
  refine ⟨c, hc, ?_⟩
  have hn := hd c hc
  have hsp : (c == ' ') = false := by
    rw [beq_eq_false_iff_ne]
    rintro rfl
    exact absurd hn (by decide)
  simp only [isSpace, isAsciiSpace, isWideSpace, hsp, Bool.or_eq_false_iff, Bool.and_eq_false_iff,
      decide_eq_false_iff_not,
    beq_eq_false_iff_ne, true_and]
  omega

/-- `str` of an integer is never blank. -/
theorem toString_not_blank (z : Int) : isBlank (toString z) = false := by
  rw [Int.toString_eq_repr, Int.repr_eq_if]
  split
  · obtain ⟨c, hc, h⟩ := (repr_digits z.toNat).1
    exact not_isBlank_of_mem hc h
  · obtain ⟨c, hc, h⟩ := (repr_digits (-z).toNat).1
    exact not_isBlank_of_mem (by rw [String.toList_append]; exact List.mem_append_right _ hc) h

theorem repr_injective {m n : Nat} (h : m.repr = n.repr) : m = n := by
  have h' := congrArg String.toList h
  rw [Nat.toList_repr, Nat.toList_repr] at h'
  have hm := Nat.ofDigitChars_ten_toDigits (n := m)
  rw [h', Nat.ofDigitChars_ten_toDigits] at hm
  exact hm.symm

/-- `str` of an integer determines it. -/
theorem toString_injective {a b : Int} (h : toString a = toString b) : a = b := by
  have hminus : ∀ m n : Nat, m.repr ≠ "-" ++ n.repr := by
    intro m n e
    apply (repr_digits m).2
    rw [e, String.toList_append]
    exact List.mem_append_left _ (by decide)
  rw [Int.toString_eq_repr, Int.toString_eq_repr, Int.repr_eq_if, Int.repr_eq_if] at h
  split at h <;> split at h
  · have := repr_injective h
    omega
  · exact absurd h (hminus _ _)
  · exact absurd h.symm (hminus _ _)
  · have h' := congrArg String.toList h
    rw [String.toList_append, String.toList_append, List.append_cancel_left_eq] at h'
    have := repr_injective (String.toList_inj.1 h')
    omega

end TrackFlow.Python
