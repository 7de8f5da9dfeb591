import TrackFlow.Python.Text

/-!
# UUIDs

A `Uuid` is its 32 hexadecimal digits. `str` writes the canonical text, `ofString?` reads what the
constructor `UUID(text)` reads (any case, braces, a URN prefix, dashes anywhere, and what
`int(text, 16)` makes of the rest), and `version` is defined for the RFC variant only. Reading the
canonical text gives the UUID back (`ofString_str`), so `str` is injective.
-/

namespace TrackFlow.Python

/-- There are hexadecimal digits. -/
instance neZero_sixteen : NeZero 16 := ⟨by decide⟩

/-- A 128-bit identifier, as its hexadecimal digits. -/
structure Uuid where
  digits : List (Fin 16)
  len : digits.length = 32
  deriving DecidableEq

namespace Uuid

/-- The last 32 of the digits, with zeros in front. -/
def ofDigits (ds : List (Fin 16)) : Uuid :=
  ⟨(List.replicate 32 0 ++ ds).drop ds.length, by
    rw [List.length_drop, List.length_append, List.length_replicate]; omega⟩

/-- The UUID of a number, for examples. -/
def ofNat (n : Nat) : Uuid := ofDigits ((List.range 32).map fun i => Fin.ofNat 16 (n / 16 ^ (31 - i)))

theorem ofDigits_digits (u : Uuid) : ofDigits u.digits = u := by
  obtain ⟨ds, h⟩ := u
  unfold ofDigits
  congr 1
  rw [h, List.drop_left' List.length_replicate]

/-! ## Text -/

/-- A lower-case hexadecimal digit. -/
def hexDigit (n : Nat) : Char := if n < 10 then Char.ofNat (48 + n) else Char.ofNat (87 + n)

theorem hexDigit_spec : ∀ n < 16, digitValue (hexDigit n) = some n ∧
    hexDigit n ∉ ['_', '-', 'u', '{', '}', '+', 'x', 'X'] ∧
    isIntSpace (hexDigit n) = false ∧ isSpace (hexDigit n) = false := by decide

/-- The hexadecimal text without dashes. -/
def hex (u : Uuid) : List Char := u.digits.map fun d => hexDigit d.val

theorem length_hex (u : Uuid) : u.hex.length = 32 := by simp [hex, u.len]

/-- The text in its five groups. -/
def chars (u : Uuid) : List Char :=
  u.hex.take 8 ++ '-' :: ((u.hex.drop 8).take 4 ++ '-' :: ((u.hex.drop 12).take 4 ++ '-' ::
    ((u.hex.drop 16).take 4 ++ '-' :: u.hex.drop 20)))

/-- The five groups, put together. -/
theorem hex_groups (u : Uuid) : u.hex = u.hex.take 8 ++ ((u.hex.drop 8).take 4 ++ ((u.hex.drop 12).take 4 ++
    ((u.hex.drop 16).take 4 ++ u.hex.drop 20))) := by
  have hd : ∀ k n, u.hex.drop k = (u.hex.drop k).take n ++ u.hex.drop (k + n) := by
    intro k n
    rw [← List.drop_drop, List.take_append_drop]
  rw [← hd 16 4, ← hd 12 4, ← hd 8 4, List.take_append_drop]

/-- `str(uuid)`. -/
def str (u : Uuid) : String := String.ofList u.chars

/-- What may occur in the text of a UUID. -/
theorem mem_chars {u : Uuid} {c : Char} (h : c ∈ u.chars) : c = '-' ∨ ∃ n < 16, c = hexDigit n := by
  have hx : c = '-' ∨ c ∈ u.hex := by
    simp only [chars, List.mem_append, List.mem_cons] at h
    rcases h with h | h | h | h | h | h | h | h | h
    · exact Or.inr (List.mem_of_mem_take h)
    · exact Or.inl h
    · exact Or.inr (List.mem_of_mem_drop (List.mem_of_mem_take h))
    · exact Or.inl h
    · exact Or.inr (List.mem_of_mem_drop (List.mem_of_mem_take h))
    · exact Or.inl h
    · exact Or.inr (List.mem_of_mem_drop (List.mem_of_mem_take h))
    · exact Or.inl h
    · exact Or.inr (List.mem_of_mem_drop h)
  rcases hx with hx | hx
  · exact Or.inl hx
  · obtain ⟨d, -, rfl⟩ := List.mem_map.1 hx
    exact Or.inr ⟨d.val, d.isLt, rfl⟩

theorem notMem_hex {u : Uuid} {c : Char} (h : c ∈ ['_', '-', 'u', '{', '}', '+', 'x', 'X']) :
    c ∉ u.hex := by
  intro hc
  obtain ⟨d, -, rfl⟩ := List.mem_map.1 hc
  exact (hexDigit_spec d.val d.isLt).2.1 h

theorem notMem_chars {u : Uuid} {c : Char} (h : c ∈ ['u', '{', '}']) : c ∉ u.chars := by
  intro hc
  rcases mem_chars hc with rfl | ⟨n, hn, rfl⟩
  · revert h; decide
  · refine (hexDigit_spec n hn).2.1 ?_
    simp only [List.mem_cons, List.not_mem_nil, or_false] at h ⊢
    tauto

/-- The text of a UUID is not blank. -/
theorem str_not_blank (u : Uuid) : isBlank u.str = false := by
  refine not_isBlank_of_mem (c := '-') ?_ (by decide)
  simp [str, chars]

/-! ## Reading -/

/-- `text.strip("{}")`. -/
def stripBraces (cs : List Char) : List Char :=
  let front := cs.dropWhile fun c => c == '{' || c == '}'
  (front.reverse.dropWhile fun c => c == '{' || c == '}').reverse

/-- `text.strip()` as `int()` does it. -/
def stripSpaces (cs : List Char) : List Char :=
  ((cs.dropWhile isIntSpace).reverse.dropWhile isIntSpace).reverse

/-- The optional `0x`, after which one underscore may stand. -/
def dropPrefix : List Char → List Char
  | '0' :: 'x' :: '_' :: cs | '0' :: 'X' :: '_' :: cs => cs
  | '0' :: 'x' :: cs | '0' :: 'X' :: cs => cs
  | cs => cs

/-- `int(text, 16)` of text without minus signs, as digits. -/
def int16? (cs : List Char) : Option (List Nat) :=
  match stripSpaces cs with
  | '+' :: cs => digitsWithin 16 false (dropPrefix cs)
  | cs => digitsWithin 16 false (dropPrefix cs)

/-- `UUID(text)`; `none` for a `ValueError`. -/
def ofString? (s : String) : Option Uuid :=
  let bare := removeFrom "uuid:".toList 0 (removeFrom "urn:".toList 0 s.toList)
  let hex := (stripBraces bare).filter fun c => c != '-'
  if hex.length = 32 then (int16? hex).map fun ds => ofDigits (ds.map (Fin.ofNat 16)) else none

theorem dropWhile_of_none {p : Char → Bool} {cs : List Char} (h : ∀ c ∈ cs, p c = false) :
    cs.dropWhile p = cs := by
  cases cs with
  | nil => rfl
  | cons c cs => simp [List.dropWhile, h c (by simp)]

theorem stripBraces_of_none {cs : List Char} (h : ∀ c ∈ cs, (c == '{' || c == '}') = false) :
    stripBraces cs = cs := by
  simp only [stripBraces, dropWhile_of_none h]
  rw [dropWhile_of_none fun c hc => h c (List.mem_reverse.1 hc), List.reverse_reverse]

theorem stripSpaces_of_none {cs : List Char} (h : ∀ c ∈ cs, isIntSpace c = false) :
    stripSpaces cs = cs := by
  simp only [stripSpaces, dropWhile_of_none h]
  rw [dropWhile_of_none fun c hc => h c (List.mem_reverse.1 hc), List.reverse_reverse]

theorem dropPrefix_of_none {cs : List Char} (h : 'x' ∉ cs ∧ 'X' ∉ cs) : dropPrefix cs = cs := by
  unfold dropPrefix
  split <;> simp_all

/-- The digits of hexadecimal text. -/
theorem int16_hex (u : Uuid) : int16? u.hex = some (u.digits.map Fin.val) := by
  have hsp : ∀ c ∈ u.hex, isIntSpace c = false := by
    intro c hc
    obtain ⟨d, -, rfl⟩ := List.mem_map.1 hc
    exact (hexDigit_spec d.val d.isLt).2.2.1
  have hdig : digitsWithin 16 false (u.digits.map fun d => hexDigit d.val) =
      some (u.digits.map Fin.val) := by
    have h := digitsWithin_map (fun d hd => (hexDigit_spec d hd).1)
      (fun d hd e => (hexDigit_spec d hd).2.1 (by simp [e])) false (u.digits.map Fin.val) (by simp)
      (Or.inr fun e => by have := congrArg List.length e; simp [u.len] at this)
    rwa [List.map_map] at h
  unfold int16?
  rw [stripSpaces_of_none hsp]
  have hpre : dropPrefix u.hex = u.hex := dropPrefix_of_none ⟨notMem_hex (by simp), notMem_hex (by simp)⟩
  split
  · rename_i cs he
    exact absurd (by rw [he]; simp) (notMem_hex (u := u) (c := '+') (by simp))
  · rw [hpre]; exact hdig

/-- **Round trip**: the canonical text of a UUID reads back as it. -/
theorem ofString_str (u : Uuid) : ofString? u.str = some u := by
  have hbare : removeFrom "uuid:".toList 0 (removeFrom "urn:".toList 0 u.str.toList) = u.chars := by
    have hu : 'u' ∉ u.chars := notMem_chars (by simp)
    have hs : u.str.toList = u.chars := String.toList_ofList
    have h₁ : "urn:".toList = ['u', 'r', 'n', ':'] := rfl
    have h₂ : "uuid:".toList = ['u', 'u', 'i', 'd', ':'] := rfl
    rw [hs, h₁, h₂, removeFrom_of_notMem hu, removeFrom_of_notMem hu]
  have hbr : ∀ c ∈ u.chars, (c == '{' || c == '}') = false := by
    intro c hc
    rw [Bool.or_eq_false_iff, beq_eq_false_iff_ne, beq_eq_false_iff_ne]
    exact ⟨fun e => notMem_chars (by simp [e]) hc, fun e => notMem_chars (by simp [e]) hc⟩
  have hdash : ∀ {cs : List Char}, (∀ c ∈ cs, c ∈ u.hex) → cs.filter (fun c => c != '-') = cs := by
    intro cs h
    rw [List.filter_eq_self]
    intro c hc
    have : c ≠ '-' := fun e => notMem_hex (u := u) (c := '-') (by simp) (e ▸ h c hc)
    simpa using this
  have hfilter : u.chars.filter (fun c => c != '-') = u.hex := by
    have h8 : ∀ k n, ∀ c ∈ (u.hex.drop k).take n, c ∈ u.hex := fun k n c hc =>
      List.mem_of_mem_drop (List.mem_of_mem_take hc)
    simp only [chars, List.filter_append, List.filter_cons, bne_self_eq_false, Bool.false_eq_true, if_false]
    rw [hdash (fun c hc => List.mem_of_mem_take hc), hdash (h8 8 4), hdash (h8 12 4), hdash (h8 16 4),
      hdash (fun c hc => List.mem_of_mem_drop hc), ← hex_groups]
  unfold ofString?
  simp only [hbare, stripBraces_of_none hbr, hfilter, length_hex, if_true, int16_hex,
    Option.map_some, List.map_map]
  have hid : u.digits.map (Fin.ofNat 16 ∘ Fin.val) = u.digits := by
    conv_rhs => rw [← List.map_id u.digits]
    exact List.map_congr_left fun d _ => Fin.ext (by simp)
  rw [hid, ofDigits_digits]

theorem digitValue_of_isSpace {c : Char} (h : isSpace c = true) : digitValue c = none := by
  have hcode : c.toNat ∈ [9, 10, 11, 12, 13, 28, 29, 30, 31, 32, 0x85, 0xa0, 0x1680, 0x2000, 0x2001,
      0x2002, 0x2003, 0x2004,
      0x2005, 0x2006, 0x2007, 0x2008, 0x2009, 0x200a, 0x2028, 0x2029, 0x202f, 0x205f, 0x3000] := by
    by_cases hc : c = ' '
    · rw [hc]
      decide
    · simp only [isSpace, isAsciiSpace, isWideSpace, Bool.or_eq_true, Bool.and_eq_true,
          decide_eq_true_eq, beq_iff_eq, hc,
        false_or] at h
      simp only [List.mem_cons, List.not_mem_nil, or_false]
      omega
  unfold digitValue
  revert hcode
  generalize c.toNat = n
  revert n
  decide

/-- `UUID` refuses text that is blank. -/
theorem ofString_not_blank {s : String} {u : Uuid} (h : ofString? s = some u) : isBlank s = false := by
  by_contra hblank
  have hspace : ∀ c ∈ s.toList, isSpace c = true := by simpa [isBlank] using hblank
  have hne : ∀ d, isSpace d = false → ∀ cs : List Char, (∀ c ∈ cs, isSpace c = true) → d ∉ cs := by
    intro d hd cs hcs hmem
    rw [hcs d hmem] at hd
    cases hd
  have hbare : removeFrom "uuid:".toList 0 (removeFrom "urn:".toList 0 s.toList) = s.toList := by
    have hu : 'u' ∉ s.toList := hne 'u' (by decide) _ hspace
    have h₁ : "urn:".toList = ['u', 'r', 'n', ':'] := rfl
    have h₂ : "uuid:".toList = ['u', 'u', 'i', 'd', ':'] := rfl
    rw [h₁, h₂, removeFrom_of_notMem hu, removeFrom_of_notMem hu]
  have hbr : ∀ c ∈ s.toList, (c == '{' || c == '}') = false := by
    intro c hc
    rw [Bool.or_eq_false_iff, beq_eq_false_iff_ne, beq_eq_false_iff_ne]
    exact ⟨fun e => hne '{' (by decide) _ hspace (e ▸ hc), fun e => hne '}' (by decide) _ hspace (e ▸ hc)⟩
  unfold ofString? at h
  simp only [hbare, stripBraces_of_none hbr] at h
  split at h
  · -- Nothing that is left is a digit.
    obtain ⟨ds, hds, -⟩ := Option.map_eq_some_iff.1 h
    have hstrip : ∀ c ∈ stripSpaces (s.toList.filter fun c => c != '-'), isSpace c = true := by
      intro c hc
      unfold stripSpaces at hc
      rw [List.mem_reverse] at hc
      have hc' := List.mem_reverse.1 (List.dropWhile_subset _ hc)
      exact hspace c (List.mem_of_mem_filter (List.dropWhile_subset _ hc'))
    unfold int16? at hds
    revert hds hstrip
    generalize stripSpaces (s.toList.filter fun c => c != '-') = cs
    intro hds hstrip
    have hnone : ∀ cs : List Char, (∀ c ∈ cs, isSpace c = true) → digitsWithin 16 false cs = none := by
      intro cs hcs
      cases cs with
      | nil => rfl
      | cons c cs =>
        have hc : isSpace c = true := hcs c List.mem_cons_self
        have hlow : c ≠ '_' := fun e => hne '_' (by decide) _ hcs (e ▸ List.mem_cons_self)
        simp [digitsWithin, hlow, digitValue_of_isSpace hc]
    split at hds
    · exact hne '+' (by decide) _ hstrip List.mem_cons_self
    · rw [dropPrefix_of_none ⟨hne 'x' (by decide) _ hstrip, hne 'X' (by decide) _ hstrip⟩,
          hnone _ hstrip] at hds
      cases hds
  · cases h

theorem str_injective {u v : Uuid} (h : u.str = v.str) : u = v := by
  have := ofString_str u
  rw [h, ofString_str] at this
  exact (Option.some.inj this).symm

/-! ## Versions -/

/-- `uuid.version`: the version digit, for the RFC 4122 variant only. -/
def version (u : Uuid) : Option Nat :=
  let variant := (u.digits.getD 16 0).val
  if 8 ≤ variant ∧ variant ≤ 11 then some (u.digits.getD 12 0).val else none

end Uuid

/-- A UUID of version 4: what `uuid4()` makes and what a `UUID4` field accepts. -/
structure Uuid4 where
  val : Uuid
  version4 : val.version = some 4
  deriving DecidableEq

end TrackFlow.Python
