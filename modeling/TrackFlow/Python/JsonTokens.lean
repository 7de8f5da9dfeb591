import TrackFlow.Python.Json

/-!
# JSON with its number tokens

A `Document` is what a text says by the grammar of JSON, with each number as its token: a reader may
take a token as exactly as it likes. Its texts are written without blanks and with
`ensure_ascii=True`.

- `scanString_asciiText`: a string is read back, with characters beyond the basic plane as surrogate pairs;
- `loadsTokens_text`: a document is read back.
-/

namespace TrackFlow.Python

/-- The text of a number. -/
def IsNumberText (cs : List Char) : Prop :=
  ∃ sign whole fraction exponent, cs = sign ++ whole ++ (fraction ++ exponent) ∧ IsSign sign ∧
    IsWhole whole ∧ IsFraction fraction ∧ IsExponent exponent

/-- A JSON document. -/
inductive Document
  | null
  | bool (b : Bool)
  | number (token : List Char)
  | str (s : String)
  | list (xs : List Document)
  | dict (kvs : List (String × Document))

namespace Document

open Json (skip scanString scanUnits ofUnits scanWhole scanFraction scanExponent escapeChar
    commaSeparated hexValue
  hexValue4 isHighSurrogate isLowSurrogate NumberEnds)

/-! ## Writing -/

/-- The UTF-16 units of a character. -/
def unitsOf (c : Char) : List Nat :=
  if c.toNat < 0x10000 then [c.toNat]
  else [0xd800 + (c.toNat - 0x10000) / 0x400, 0xdc00 + (c.toNat - 0x10000) % 0x400]

/-- `\uXXXX`. -/
def unicodeEscape (unit : Nat) : List Char :=
  ['\\', 'u', Uuid.hexDigit (unit / 4096), Uuid.hexDigit (unit / 256 % 16), Uuid.hexDigit (unit / 16 % 16),
    Uuid.hexDigit (unit % 16)]

/-- The characters of an escaped character with `ensure_ascii=True`. -/
def asciiChar (c : Char) : List Char :=
  if c.toNat ≤ 126 then escapeChar c else (unitsOf c).flatMap unicodeEscape

/-- `json.dumps(s)` of a string. -/
def asciiText (s : String) : List Char := '"' :: (s.toList.flatMap asciiChar ++ ['"'])

mutual

/-- The text of a document. -/
def text : Document → List Char
  | null => ['n', 'u', 'l', 'l']
  | bool true => ['t', 'r', 'u', 'e']
  | bool false => ['f', 'a', 'l', 's', 'e']
  | number token => token
  | str s => asciiText s
  | list xs => '[' :: (commaSeparated (textList xs) ++ [']'])
  | dict kvs => '{' :: (commaSeparated (textDict kvs) ++ ['}'])

def textList : List Document → List (List Char)
  | [] => []
  | x :: xs => text x :: textList xs

def textDict : List (String × Document) → List (List Char)
  | [] => []
  | (k, x) :: kvs => (asciiText k ++ ':' :: text x) :: textDict kvs

end

/-! ## Reading -/

/-- Items up to a closing character. -/
def scanSeparated {α : Type} (item : List Char → Option (α × List Char)) (close : Char) :
    Nat → List Char → Option (List α × List Char)
  | 0, _ => none
  | n + 1, cs => do
    let (x, cs) ← item cs
    match skip cs with
    | [] => none
    | c :: cs =>
      if c = ',' then do
        let (xs, cs) ← scanSeparated item close n (skip cs)
        return (x :: xs, cs)
      else if c = close then return ([x], cs)
      else none

/-- The token of a number, after its sign. -/
def scanNumber (sign cs : List Char) : Option (Document × List Char) := do
  let (whole, cs) ← scanWhole cs
  let (fraction, cs) := scanFraction cs
  let (exponent, cs) := scanExponent cs
  return (.number (sign ++ whole ++ (fraction ++ exponent)), cs)

/-- A constant or a number. -/
def scanScalar : List Char → Option (Document × List Char)
  | 'n' :: 'u' :: 'l' :: 'l' :: cs => some (.null, cs)
  | 't' :: 'r' :: 'u' :: 'e' :: cs => some (.bool true, cs)
  | 'f' :: 'a' :: 'l' :: 's' :: 'e' :: cs => some (.bool false, cs)
  | '-' :: cs => scanNumber ['-'] cs
  | cs => scanNumber [] cs

/-- A key with its value. -/
def scanPair (value : List Char → Option (Document × List Char)) :
    List Char → Option ((String × Document) × List Char)
  | '"' :: cs => do
    let (k, cs) ← scanString cs
    match skip cs with
    | ':' :: cs => do
      let (x, cs) ← value (skip cs)
      return ((k, x), cs)
    | _ => none
  | _ => none

/-- A document, and the rest. -/
def scanDocument : Nat → List Char → Option (Document × List Char)
  | 0, _ => none
  | n + 1, cs =>
    match cs with
    | '"' :: cs => (scanString cs).map fun (s, cs) => (.str s, cs)
    | '{' :: cs =>
      match skip cs with
      | '}' :: cs => some (.dict [], cs)
      | cs => (scanSeparated (scanPair (scanDocument n)) '}' n cs).map fun (kvs, cs) => (.dict kvs, cs)
    | '[' :: cs =>
      match skip cs with
      | ']' :: cs => some (.list [], cs)
      | cs => (scanSeparated (scanDocument n) ']' n cs).map fun (xs, cs) => (.list xs, cs)
    | cs => scanScalar cs

/-- The document of a text, if there is one. The length of a text is enough for its nesting. -/
def loadsTokens (cs : List Char) : Option Document := do
  let (d, rest) ← scanDocument cs.length (skip cs)
  if skip rest = [] then return d else none

/-! ## Strings are read back -/

theorem scanUnits_unicodeEscape {unit : Nat} (h : unit < 0x10000) (cs : List Char) :
    scanUnits (unicodeEscape unit ++ cs) = (scanUnits cs).map fun p => (unit :: p.1, p.2) := by
  have h1 := Json.hexValue_hexDigit (unit / 4096) (by omega)
  have h2 := Json.hexValue_hexDigit (unit / 256 % 16) (by omega)
  have h3 := Json.hexValue_hexDigit (unit / 16 % 16) (by omega)
  have h4 := Json.hexValue_hexDigit (unit % 16) (by omega)
  have hunit : hexValue4 (Uuid.hexDigit (unit / 4096)) (Uuid.hexDigit (unit / 256 % 16))
      (Uuid.hexDigit (unit / 16 % 16))
      (Uuid.hexDigit (unit % 16)) = some unit := by
    simp only [hexValue4, h1, h2, h3, h4, Option.bind_eq_bind, Option.bind_some]
    exact congrArg some (by omega)
  unfold unicodeEscape
  simp only [List.cons_append, List.nil_append]
  rw [scanUnits, hunit]
  cases scanUnits cs <;> rfl

theorem scanUnits_asciiChar (c : Char) (cs : List Char) :
    scanUnits (asciiChar c ++ cs) = (scanUnits cs).map fun p => (unitsOf c ++ p.1, p.2) := by
  have hvalid : c.toNat < 0x110000 := by
    have h : c.toNat < 0xd800 ∨ 0xdfff < c.toNat ∧ c.toNat < 0x110000 := c.valid
    omega
  unfold asciiChar
  by_cases hascii : c.toNat ≤ 126
  · rw [if_pos hascii, Json.scanUnits_escapeChar, unitsOf, if_pos (by omega)]
    rfl
  · rw [if_neg hascii]
    unfold unitsOf
    by_cases hplane : c.toNat < 0x10000
    · rw [if_pos hplane, List.flatMap_singleton, scanUnits_unicodeEscape hplane]
      rfl
    · rw [if_neg hplane, List.flatMap_cons, List.flatMap_singleton, List.append_assoc,
          scanUnits_unicodeEscape (by omega),
        scanUnits_unicodeEscape (by omega), Option.map_map]
      rfl

theorem scanUnits_asciiText (cs rest : List Char) :
    scanUnits (cs.flatMap asciiChar ++ '"' :: rest) = some (cs.flatMap unitsOf, rest) := by
  induction cs with
  | nil => rfl
  | cons c cs ih =>
    rw [List.flatMap_cons, List.append_assoc, scanUnits_asciiChar, ih]
    rfl

theorem ofUnits_cons {n : Nat} (hhigh : isHighSurrogate n = false) (hlow : isLowSurrogate n = false)
    (ns : List Nat) : ofUnits (n :: ns) = Char.ofNat n :: ofUnits ns := by
  cases ns with
  | nil => simp [ofUnits, hhigh, hlow]
  | cons m ms => simp [ofUnits, hhigh, hlow]

theorem ofUnits_unitsOf (cs : List Char) : ofUnits (cs.flatMap unitsOf) = cs := by
  induction cs with
  | nil => rfl
  | cons c cs ih =>
    have hvalid : c.toNat < 0x110000 := by
      have h : c.toNat < 0xd800 ∨ 0xdfff < c.toNat ∧ c.toNat < 0x110000 := c.valid
      omega
    rw [List.flatMap_cons, unitsOf]
    by_cases hplane : c.toNat < 0x10000
    · rw [if_pos hplane, List.singleton_append, ofUnits_cons (Json.not_surrogate c).1
        (Json.not_surrogate c).2, ih, Char.ofNat_toNat]
    · have hpair : isHighSurrogate (0xd800 + (c.toNat - 0x10000) / 0x400) = true ∧
          isLowSurrogate (0xdc00 + (c.toNat - 0x10000) % 0x400) = true := by
        simp only [isHighSurrogate, isLowSurrogate, Bool.and_eq_true, decide_eq_true_eq]
        omega
      have hcode : 0x10000 + (0xd800 + (c.toNat - 0x10000) / 0x400 - 0xd800) * 0x400 +
          (0xdc00 + (c.toNat - 0x10000) % 0x400 - 0xdc00) = c.toNat := by omega
      rw [if_neg hplane, List.cons_append, List.singleton_append, ofUnits, hpair.1, hpair.2, ih,
        hcode, Char.ofNat_toNat]
      rfl

/-- A string is read back. -/
theorem scanString_asciiText (s : String) (rest : List Char) :
    scanString (s.toList.flatMap asciiChar ++ '"' :: rest) = some (s, rest) := by
  simp only [scanString, scanUnits_asciiText, Option.map_some, ofUnits_unitsOf, String.ofList_toList]

/-! ## Documents are read back -/

/-- A separator follows, or the end of a container. -/
def Closes (close : Char) (rest : List Char) : Prop := ∃ c cs, rest = c :: cs ∧ (c = ',' ∨ c = close)

section Separated

variable {α : Type} {item : List Char → Option (α × List Char)} {f : α → List Char} {close : Char}

/-- An item is read back before a separator. -/
def ItemReadsBack (item : List Char → Option (α × List Char)) (f : α → List Char) (close : Char)
    (p : α) : Prop :=
  ∀ rest, skip (f p ++ rest) = f p ++ rest ∧ (Closes close rest → item (f p ++ rest) = some (p, rest))

/-- Items that are read back one by one are read back with commas between them. -/
theorem scanSeparated_text (hblank : Json.isBlank close = false) (hcomma : close ≠ ',') :
    ∀ (ps : List α) (n : Nat) (rest : List Char), ps ≠ [] → ps.length ≤ n →
      (∀ p ∈ ps, ItemReadsBack item f close p) → scanSeparated item close n (commaSeparated (ps.map f) ++
        close :: rest) = some (ps, rest)
  | [], _, _, h, _, _ => absurd rfl h
  | _ :: _, 0, _, _, hn, _ => by simp at hn
  | [p], n + 1, rest, _, _, hitem => by
    have hread := (hitem p List.mem_cons_self (close :: rest)).2 ⟨close, rest, rfl, .inr rfl⟩
    have hclose : skip (close :: rest) = close :: rest :=
      List.dropWhile_cons_of_neg (by rw [hblank]; exact Bool.false_ne_true)
    have htext : commaSeparated ([p].map f) = f p := rfl
    rw [htext, scanSeparated, hread]
    simp only [Option.bind_eq_bind, Option.bind_some, hclose, if_neg hcomma, if_true]
    rfl
  | p :: q :: ps, n + 1, rest, _, hn, hitem => by
    have htext : commaSeparated ((p :: q :: ps).map f) ++ close :: rest =
        f p ++ ',' :: (commaSeparated ((q :: ps).map f) ++ close :: rest) := by
      simp [commaSeparated]
    have hhead : ∃ tail, commaSeparated ((q :: ps).map f) ++ close :: rest = f q ++ tail := by
      cases ps with
      | nil => exact ⟨close :: rest, rfl⟩
      | cons r rs => exact ⟨',' :: commaSeparated ((r :: rs).map f) ++ close :: rest, List.append_assoc _ _ _⟩
    have hnext : skip (commaSeparated ((q :: ps).map f) ++ close :: rest) =
        commaSeparated ((q :: ps).map f) ++ close :: rest := by
      obtain ⟨tail, htail⟩ := hhead
      rw [htail, (hitem q (List.mem_cons_of_mem p List.mem_cons_self) tail).1]
    have hread := (hitem p List.mem_cons_self
        (',' :: (commaSeparated ((q :: ps).map f) ++ close :: rest))).2 ⟨_, _, rfl, .inl rfl⟩
    have hseparator : skip (',' :: (commaSeparated ((q :: ps).map f) ++ close :: rest)) =
        ',' :: (commaSeparated ((q :: ps).map f) ++ close :: rest) := rfl
    have ih := scanSeparated_text hblank hcomma (q :: ps) n rest (List.cons_ne_nil _ _) (by simpa using hn)
      fun r hr => hitem r (List.mem_cons_of_mem p hr)
    rw [htext, scanSeparated, hread]
    simp only [Option.bind_eq_bind, Option.bind_some, hseparator, if_true, hnext, ih]
    rfl

end Separated

mutual

/-- The tokens of a document are numbers. -/
def Valid : Document → Prop
  | number token => IsNumberText token
  | list xs => ValidList xs
  | dict kvs => ValidDict kvs
  | _ => True

def ValidList : List Document → Prop
  | [] => True
  | x :: xs => Valid x ∧ ValidList xs

def ValidDict : List (String × Document) → Prop
  | [] => True
  | (_, x) :: kvs => Valid x ∧ ValidDict kvs

end

theorem textList_eq : ∀ xs : List Document, textList xs = xs.map text
  | [] => rfl
  | x :: xs => congrArg (text x :: ·) (textList_eq xs)

/-- The text of a key with its value. -/
def pairText (p : String × Document) : List Char := asciiText p.1 ++ ':' :: p.2.text

theorem textDict_eq : ∀ kvs : List (String × Document), textDict kvs = kvs.map pairText
  | [] => rfl
  | p :: kvs => congrArg (pairText p :: ·) (textDict_eq kvs)

/-- A number begins with a digit or a sign. -/
theorem number_head {token : List Char} (h : IsNumberText token) :
    ∃ c cs, token = c :: cs ∧ (c = '-' ∨ c.isDigit = true) := by
  obtain ⟨sign, whole, fraction, exponent, rfl, hs, hw, -, -⟩ := h
  obtain ⟨d, ds, rfl, hd⟩ := Json.isWhole_cons hw
  obtain rfl | rfl := hs
  · exact ⟨d, _, rfl, .inr hd⟩
  · exact ⟨'-', _, rfl, .inl rfl⟩

theorem text_head {d : Document} (h : d.Valid) :
    ∃ c cs, d.text = c :: cs ∧ Json.isBlank c = false ∧ c ≠ ']' := by
  cases d with
  | null => exact ⟨_, _, rfl, rfl, by decide⟩
  | bool b => cases b <;> exact ⟨_, _, rfl, rfl, by decide⟩
  | number token =>
    obtain ⟨c, cs, htoken, hc⟩ := number_head h
    refine ⟨c, cs, htoken, ?_, ?_⟩
    · obtain rfl | hd := hc
      · rfl
      · have hne : ∀ b : Char, b.isDigit = false → c ≠ b := by
          rintro b hb rfl
          rw [hd] at hb
          cases hb
        simp [Json.isBlank, hne ' ' rfl, hne '\t' rfl, hne '\n' rfl, hne '\r' rfl]
    · rintro rfl
      obtain hc | hc := hc
      · exact absurd hc (by decide)
      · exact absurd hc (by decide)
  | str s => exact ⟨_, _, rfl, rfl, by decide⟩
  | list xs => exact ⟨_, _, rfl, rfl, by decide⟩
  | dict kvs => exact ⟨_, _, rfl, rfl, by decide⟩

theorem skip_text {d : Document} (h : d.Valid) (rest : List Char) :
    skip (d.text ++ rest) = d.text ++ rest := by
  obtain ⟨c, cs, htext, hc, -⟩ := text_head h
  rw [htext, List.cons_append, skip, List.dropWhile_cons_of_neg (by rw [hc]; exact Bool.false_ne_true)]

/-- What must be read back of a document. -/
def ReadsBack (d : Document) : Prop :=
  ∀ n rest, d.text.length ≤ n → NumberEnds rest → scanDocument n (d.text ++ rest) = some (d, rest)

theorem Closes.numberEnds {close : Char} {rest : List Char} (h : Closes close rest)
    (hclose : close = ']' ∨ close = '}') :
    NumberEnds rest := by
  obtain ⟨c, cs, rfl, hc⟩ := h
  refine Json.numberEnds_of ?_ cs
  rcases hc with rfl | rfl
  · decide
  · rcases hclose with rfl | rfl <;> decide

theorem scanNumber_append {sign whole fraction exponent rest : List Char} (hw : IsWhole whole)
    (hf : IsFraction fraction)
    (he : IsExponent exponent)
    (hrest : NumberEnds rest) : scanNumber sign (whole ++ (fraction ++ exponent) ++ rest) =
      some (.number (sign ++ whole ++ (fraction ++ exponent)), rest) := by
  obtain ⟨hwhole, hfraction, hexponent⟩ := Json.scan_parts hw hf he hrest
  unfold scanNumber
  rw [hwhole]
  simp only [Option.bind_eq_bind, Option.bind_some, hfraction, hexponent]
  rfl

/-- A number is read back. -/
theorem readsBack_number {token : List Char} (h : IsNumberText token) : (number token).ReadsBack := by
  intro n rest hn hrest
  obtain ⟨sign, whole, fraction, exponent, rfl, hs, hw, hf, he⟩ := h
  obtain ⟨d, ds, hds, hd⟩ := Json.isWhole_cons hw
  have hread := @scanNumber_append sign whole fraction exponent rest hw hf he hrest
  have hne : ∀ c : Char, c.isDigit = false → d ≠ c := by
    rintro c hc rfl
    rw [hd] at hc
    cases hc
  cases n with
  | zero =>
    rw [text, hds] at hn
    simp at hn
  | succ n =>
    have hscalar : scanDocument (n + 1) (sign ++ whole ++ (fraction ++ exponent) ++ rest) =
        scanNumber sign (whole ++ (fraction ++ exponent) ++ rest) := by
      subst hds
      obtain rfl | rfl := hs
      · rw [List.nil_append, List.cons_append, List.cons_append, scanDocument, scanScalar]
        all_goals
          intro _ h
          exact hne _ rfl (List.cons.inj h).1
      · rfl
    rw [text, hscalar, hread]

/-- Texts are no longer than their list, and neither are they more. -/
theorem length_commaSeparated : ∀ {xs : List (List Char)}, (∀ x ∈ xs, x ≠ []) →
    xs.length ≤ (commaSeparated xs).length ∧ ∀ x ∈ xs, x.length ≤ (commaSeparated xs).length
  | [], _ => by simp
  | [x], h => by
    have hx := List.length_pos_iff.2 (h x List.mem_cons_self)
    simp only [commaSeparated, List.length_cons, List.length_nil, List.mem_singleton, forall_eq,
      Nat.le_refl, and_true]
    omega
  | x :: y :: ys, h => by
    obtain ⟨hcount, hsize⟩ := length_commaSeparated fun z hz => h z (List.mem_cons_of_mem x hz)
    have htext : commaSeparated (x :: y :: ys) = x ++ ',' :: commaSeparated (y :: ys) := rfl
    rw [htext]
    simp only [List.length_append, List.length_cons] at hcount hsize ⊢
    refine ⟨by omega, fun z hz => ?_⟩
    rcases List.mem_cons.1 hz with rfl | hz
    · omega
    · have := hsize z hz
      omega

/-- A container that is not empty is read by its items. -/
theorem skip_head {close : Char} {cs : List Char}
    (h : ∃ c tail, cs = c :: tail ∧ Json.isBlank c = false ∧ c ≠ close) :
    skip cs = cs ∧ ∀ tail, cs ≠ close :: tail := by
  obtain ⟨c, tail, rfl, hblank, hclose⟩ := h
  refine ⟨List.dropWhile_cons_of_neg (by rw [hblank]; exact Bool.false_ne_true), fun rest heq =>
      hclose (List.cons.inj heq).1⟩

theorem commaSeparated_head {α : Type} {P : Char → Prop} {f : α → List Char} {p : α}
    (h : ∃ c tail, f p = c :: tail ∧ P c) (ps : List α)
    (rest : List Char) : ∃ c tail, commaSeparated ((p :: ps).map f) ++ rest = c :: tail ∧ P c := by
  obtain ⟨c, tail, hp, hc⟩ := h
  cases ps with
  | nil => exact ⟨c, tail ++ rest, congrArg (· ++ rest) hp, hc⟩
  | cons q qs =>
    refine ⟨c, tail ++ ',' :: commaSeparated ((q :: qs).map f) ++ rest, ?_, hc⟩
    exact congrArg (· ++ ',' :: commaSeparated ((q :: qs).map f) ++ rest) hp

theorem readsBack_list {xs : List Document} (hvalid : ∀ x ∈ xs, x.Valid)
    (hx : ∀ x ∈ xs, x.ReadsBack) : (list xs).ReadsBack := by
  intro n rest hn _
  rw [text, textList_eq] at hn ⊢
  cases n with
  | zero => simp at hn
  | succ n =>
    cases xs with
    | nil => rfl
    | cons x xs =>
      have hnonempty : ∀ t ∈ (x :: xs).map text, t ≠ [] := by
        intro t ht
        obtain ⟨y, hy, rfl⟩ := List.mem_map.1 ht
        obtain ⟨c, cs, htext, -⟩ := text_head (hvalid y hy)
        rw [htext]
        exact List.cons_ne_nil _ _
      obtain ⟨hcount, hsize⟩ := length_commaSeparated hnonempty
      simp only [List.length_cons, List.length_append, List.length_map, List.length_nil] at hn hcount
      have hitems := @scanSeparated_text _ (scanDocument n) text ']' rfl (by decide) (x :: xs) n rest
        (List.cons_ne_nil _ _) (by simp only [List.length_cons]; omega) fun y hy tail =>
          ⟨skip_text (hvalid y hy) tail, fun hcloses =>
            hx y hy n tail (by have := hsize _ (List.mem_map_of_mem hy); omega)
              (hcloses.numberEnds (.inl rfl))⟩
      obtain ⟨hskip, hopen⟩ :=
        @skip_head ']' _ (commaSeparated_head (f := text) (text_head (hvalid x List.mem_cons_self)) xs
          (']' :: rest))
      rw [List.cons_append, List.append_assoc, List.singleton_append, scanDocument, hskip]
      split
      · next h => exact absurd h (hopen _)
      · rw [hitems]
        rfl

theorem pairText_append (p : String × Document) (rest : List Char) :
    pairText p ++ rest = '"' :: (p.1.toList.flatMap asciiChar ++ '"' :: ':' :: (p.2.text ++ rest)) := by
  simp [pairText, asciiText]

/-- A key with its value is read back. -/
theorem readsBack_pair {p : String × Document} {n : Nat} (hvalid : p.2.Valid) (hp : p.2.ReadsBack)
    (hn : p.2.text.length ≤ n) : ItemReadsBack (scanPair (scanDocument n)) pairText '}' p := by
  intro tail
  rw [pairText_append]
  refine ⟨rfl, fun hcloses => ?_⟩
  have hcolon : skip (':' :: (p.2.text ++ tail)) = ':' :: (p.2.text ++ tail) := rfl
  have hread := hp n tail hn (hcloses.numberEnds (.inr rfl))
  rw [scanPair, scanString_asciiText]
  simp only [Option.bind_eq_bind, Option.bind_some, hcolon, skip_text hvalid, hread]
  rfl

theorem readsBack_dict {kvs : List (String × Document)} (hvalid : ∀ p ∈ kvs, p.2.Valid)
    (hp : ∀ p ∈ kvs, p.2.ReadsBack) : (dict kvs).ReadsBack := by
  intro n rest hn _
  rw [text, textDict_eq] at hn ⊢
  cases n with
  | zero => simp at hn
  | succ n =>
    cases kvs with
    | nil => rfl
    | cons p ps =>
      have hquote : ∀ q, ∃ c cs, pairText q = c :: cs ∧ Json.isBlank c = false ∧ c ≠ '}' :=
        fun q => ⟨'"', _, by rw [← List.append_nil (pairText q), pairText_append], rfl, by decide⟩
      have hnonempty : ∀ t ∈ (p :: ps).map pairText, t ≠ [] := by
        intro t ht
        obtain ⟨q, -, rfl⟩ := List.mem_map.1 ht
        obtain ⟨c, cs, htext, -⟩ := hquote q
        rw [htext]
        exact List.cons_ne_nil _ _
      obtain ⟨hcount, hsize⟩ := length_commaSeparated hnonempty
      simp only [List.length_cons, List.length_append, List.length_map, List.length_nil] at hn hcount
      have hitems := @scanSeparated_text _ (scanPair (scanDocument n)) pairText '}' rfl (by decide)
          (p :: ps) n
        rest (List.cons_ne_nil _ _) (by simp only [List.length_cons]; omega) fun q hq => by
          have hle := hsize _ (List.mem_map_of_mem hq)
          have hvalue : q.2.text.length ≤ (pairText q).length := by
            simp only [pairText, List.length_append, List.length_cons]
            omega
          exact readsBack_pair (hvalid q hq) (hp q hq) (by omega)
      obtain ⟨hskip, hopen⟩ := @skip_head '}' _ (commaSeparated_head (hquote p) ps ('}' :: rest))
      rw [List.cons_append, List.append_assoc, List.singleton_append, scanDocument, hskip]
      split
      · next h => exact absurd h (hopen _)
      · rw [hitems]
        rfl

theorem validList_iff : ∀ {xs : List Document}, ValidList xs ↔ ∀ x ∈ xs, x.Valid
  | [] => by simp [ValidList]
  | x :: xs => by rw [ValidList, validList_iff, List.forall_mem_cons]

theorem validDict_iff : ∀ {kvs : List (String × Document)}, ValidDict kvs ↔ ∀ p ∈ kvs, p.2.Valid
  | [] => by simp [ValidDict]
  | (k, x) :: kvs => by rw [ValidDict, validDict_iff, List.forall_mem_cons]

mutual

/-- A document is read back. -/
theorem readsBack : ∀ {d : Document}, d.Valid → d.ReadsBack
  | null, _ => fun n rest hn _ => by
    obtain ⟨m, rfl⟩ : ∃ m, n = m + 1 := ⟨n - 1, by simp [text] at hn; omega⟩
    rfl
  | bool b, _ => fun n rest hn _ => by
    obtain ⟨m, rfl⟩ : ∃ m, n = m + 1 := ⟨n - 1, by cases b <;> simp [text] at hn <;> omega⟩
    cases b <;> rfl
  | number _, h => readsBack_number h
  | str s, _ => fun n rest hn _ => by
    obtain ⟨m, rfl⟩ : ∃ m, n = m + 1 := ⟨n - 1, by simp [text, asciiText] at hn; omega⟩
    have htext : (str s).text ++ rest = '"' :: (s.toList.flatMap asciiChar ++ '"' :: rest) := by
      simp [text, asciiText]
    rw [htext, scanDocument, scanString_asciiText]
    rfl
  | list xs, h => readsBack_list (validList_iff.1 h) (readsBackList h)
  | dict kvs, h => readsBack_dict (validDict_iff.1 h) (readsBackDict h)

theorem readsBackList : ∀ {xs : List Document}, ValidList xs → ∀ x ∈ xs, x.ReadsBack
  | [], _, _, hx => absurd hx List.not_mem_nil
  | x :: xs, h, y, hy => by
    rcases List.mem_cons.1 hy with heq | hy
    · rw [heq]
      exact readsBack h.1
    · exact readsBackList h.2 y hy

theorem readsBackDict : ∀ {kvs : List (String × Document)}, ValidDict kvs → ∀ p ∈ kvs, p.2.ReadsBack
  | [], _, _, hp => absurd hp List.not_mem_nil
  | (k, x) :: kvs, h, q, hq => by
    rcases List.mem_cons.1 hq with heq | hq
    · rw [heq]
      exact readsBack h.1
    · exact readsBackDict h.2 q hq

end

/-- The text of a document says that document. -/
theorem loadsTokens_text {d : Document} (h : d.Valid) : loadsTokens d.text = some d := by
  have hread := readsBack h d.text.length [] (Nat.le_refl _) fun _ _ h => by cases h
  have hskip := skip_text h []
  rw [List.append_nil] at hread hskip
  unfold loadsTokens
  rw [hskip, hread]
  rfl

end Document

end TrackFlow.Python
