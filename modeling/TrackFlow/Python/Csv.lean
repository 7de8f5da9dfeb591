import Mathlib

/-!
# The default dialect of the `csv` module

Fields are separated by commas and rows end with `\r\n`; a field with a comma, a quote or a line
break is quoted, and its quotes are doubled. The reader takes the lines of a file opened with
`newline=""`, which keep their ends; a field may go over several of them, and no field may be longer
than the limit.

- `reader_rowsText`: what was written is read back, if no field is longer than the limit;
- `reader_rowsText_long`: a field that is longer is an error.
-/

namespace TrackFlow.Python.Csv

/-! ## Writing -/

/-- The text of a field. -/
abbrev Field : Type := List Char

/-- The characters that must be quoted. -/
def special (c : Char) : Bool := c == ',' || c == '"' || c == '\r' || c == '\n'

/-- Quotes are doubled. -/
def doubled : Field → List Char
  | [] => []
  | c :: cs => if c = '"' then '"' :: '"' :: doubled cs else c :: doubled cs

/-- A field, in quotes where they are needed (`QUOTE_MINIMAL`). -/
def fieldText (f : Field) : List Char := if f.any special then '"' :: (doubled f ++ ['"']) else f

/-- The fields of a row. -/
def fieldTexts : List Field → List Char
  | [] => []
  | [f] => fieldText f
  | f :: fs => fieldText f ++ ',' :: fieldTexts fs

/-- A row; a single empty field is quoted. -/
def rowText (fs : List Field) : List Char :=
  (if fs = [[]] then ['"', '"'] else fieldTexts fs) ++ ['\r', '\n']

/-- The rows of a file. -/
def rowsText (rows : List (List Field)) : List Char := rows.flatMap rowText

/-! ## Reading -/

/-- The lines of a text with their ends, `\n`, `\r` or `\r\n`. -/
def splitLines : List Char → List (List Char)
  | [] => []
  | c :: cs =>
    if c = '\n' ∨ c = '\r' ∧ cs.head? ≠ some '\n' then [c] :: splitLines cs
    else
      match splitLines cs with
      | [] => [[c]]
      | l :: ls => (c :: l) :: ls

/-- The states of the reader. -/
inductive State
  | startRecord
  | startField
  | inField
  | inQuotedField
  | quoteInQuotedField
  | eatCrnl
  deriving DecidableEq

/-- `csv.Error`. -/
inductive Error
  | fieldLimit
  | newLineInUnquotedField
  deriving DecidableEq

/-- The reader within a record. -/
structure Reader where
  state : State := .startRecord
  field : Field := []
  fields : List Field := []

namespace Reader

/-- `parse_save_field`. -/
def saveField (r : Reader) (state : State) : Reader := ⟨state, [], r.fields ++ [r.field]⟩

/-- `parse_add_char`. -/
def addChar (limit : Nat) (r : Reader) (c : Char) (state : State) : Except Error Reader :=
  if limit ≤ r.field.length then .error .fieldLimit else .ok { r with field := r.field ++ [c], state }

/-- A character at the start of a field. -/
def beginField (limit : Nat) (r : Reader) (c : Char) : Except Error Reader :=
  if c = '\n' ∨ c = '\r' then .ok (r.saveField .eatCrnl)
  else if c = '"' then .ok { r with state := .inQuotedField }
  else if c = ',' then .ok (r.saveField .startField)
  else r.addChar limit c .inField

/-- `parse_process_char`, for a character. -/
def process (limit : Nat) (r : Reader) (c : Char) : Except Error Reader :=
  match r.state with
  | .startRecord => if c = '\n' ∨ c = '\r' then .ok { r with state := .eatCrnl } else r.beginField limit c
  | .startField => r.beginField limit c
  | .inField =>
    if c = '\n' ∨ c = '\r' then .ok (r.saveField .eatCrnl)
    else if c = ',' then .ok (r.saveField .startField)
    else r.addChar limit c .inField
  | .inQuotedField => if c = '"' then .ok { r with state := .quoteInQuotedField } else r.addChar limit c .inQuotedField
  | .quoteInQuotedField =>
    if c = '"' then r.addChar limit c .inQuotedField
    else if c = ',' then .ok (r.saveField .startField)
    else if c = '\n' ∨ c = '\r' then .ok (r.saveField .eatCrnl)
    else r.addChar limit c .inField
  | .eatCrnl => if c = '\n' ∨ c = '\r' then .ok r else .error .newLineInUnquotedField

/-- `parse_process_char`, for the end of a line. -/
def endLine (r : Reader) : Reader :=
  match r.state with
  | .startRecord => r
  | .startField => r.saveField .startRecord
  | .inField => r.saveField .startRecord
  | .inQuotedField => r
  | .quoteInQuotedField => r.saveField .startRecord
  | .eatCrnl => { r with state := .startRecord }

/-- The characters of a line, and its end. -/
def feed (limit : Nat) (r : Reader) : List Char → Except Error Reader
  | [] => .ok r.endLine
  | c :: cs => do
    let r ← r.process limit c
    feed limit r cs

end Reader

/-- `csv.field_size_limit()`. -/
def fieldSizeLimit : Nat := 131072

/-- What the reader gives: rows, and the error that ended it. -/
abbrev Rows : Type := List (List Field) × Option Error

/-- The rows of some lines; at the end of the lines an open field is saved. -/
def readRows (limit : Nat) : Reader → List (List Char) → Rows
  | r, [] => (if r.field ≠ [] ∨ r.state = .inQuotedField then [(r.saveField .startRecord).fields] else [], none)
  | r, l :: ls =>
    match r.feed limit l with
    | .error e => ([], some e)
    | .ok r' =>
      if r'.state = .startRecord then
        let (rows, e) := readRows limit {} ls
        (r'.fields :: rows, e)
      else readRows limit r' ls

/-- The rows of a text. -/
def reader (limit : Nat) (text : List Char) : Rows := readRows limit {} (splitLines text)

example : reader 9 (rowsText [["a,b".toList, "".toList], ["\"\r\n".toList]]) =
  ([["a,b".toList, "".toList], ["\"\r\n".toList]], none) := by decide

/-! ## Reading what was written -/

variable {limit : Nat} {r r' : Reader} {c : Char} {cs rest : List Char} {f : Field} {fs : List Field}

/-- What the reader gives after a line. -/
def afterLine (limit : Nat) (r : Reader) (ls : List (List Char)) : Rows :=
  if r.state = .startRecord then (r.fields :: (readRows limit {} ls).1, (readRows limit {} ls).2)
      else readRows limit r ls

theorem readRows_cons (l : List Char) (ls : List (List Char)) :
    readRows limit r (l :: ls) = match r.feed limit l with
    | .error e => ([], some e)
    | .ok r' => afterLine limit r' ls := rfl

/-- What the reader gives within a line, of which `cs` is left with what comes after it. -/
def midLine (limit : Nat) (r : Reader) (cs : List Char) : Rows :=
  match splitLines cs with
  | [] => afterLine limit r.endLine []
  | l :: ls => readRows limit r (l :: ls)

/-- A line ends with this character. -/
def EndsLine (c : Char) (cs : List Char) : Prop := c = '\n' ∨ c = '\r' ∧ cs.head? ≠ some '\n'

theorem splitLines_end (h : EndsLine c cs) : splitLines (c :: cs) = [c] :: splitLines cs := by
  rw [splitLines]
  exact if_pos h

theorem splitLines_mid (h : ¬ EndsLine c cs) : splitLines (c :: cs) = match splitLines cs with
    | [] => [[c]]
    | l :: ls => (c :: l) :: ls := by
  rw [splitLines]
  exact if_neg h

/-- A line begins where the line before it ended. -/
theorem midLine_begin (h : cs ≠ []) : readRows limit r (splitLines cs) = midLine limit r cs := by
  unfold midLine
  cases cs with
  | nil => exact absurd rfl h
  | cons c cs =>
    by_cases he : EndsLine c cs
    · rw [splitLines_end he]
    · rw [splitLines_mid he]
      cases splitLines cs <;> rfl

theorem feed_cons (hp : r.process limit c = .ok r') (l : List Char) :
    r.feed limit (c :: l) = r'.feed limit l := by
  rw [Reader.feed, hp]
  rfl

theorem feed_error {e : Error} (hp : r.process limit c = .error e) (l : List Char) :
    r.feed limit (c :: l) = .error e := by
  rw [Reader.feed, hp]
  rfl

/-- A character that does not end its line. -/
theorem midLine_mid (h : ¬ EndsLine c cs) (hp : r.process limit c = .ok r') :
    midLine limit r (c :: cs) = midLine limit r' cs := by
  unfold midLine
  rw [splitLines_mid h]
  cases splitLines cs with
  | nil =>
    simp only [readRows_cons, feed_cons hp]
    rfl
  | cons l ls => simp only [readRows_cons, feed_cons hp]

/-- A character that ends its line. -/
theorem midLine_end (h : EndsLine c cs) (hp : r.process limit c = .ok r') :
    midLine limit r (c :: cs) = afterLine limit r'.endLine (splitLines cs) := by
  unfold midLine
  rw [splitLines_end h]
  simp only [readRows_cons, feed_cons hp]
  rfl

theorem midLine_error {e : Error} (hp : r.process limit c = .error e) :
    midLine limit r (c :: cs) = ([], some e) := by
  unfold midLine
  by_cases h : EndsLine c cs
  · rw [splitLines_end h]
    simp only [readRows_cons, feed_error hp]
  · rw [splitLines_mid h]
    cases splitLines cs <;> simp only [readRows_cons, feed_error hp]

/-- In a quoted field a line may end anywhere before the closing quote. -/
theorem midLine_quoted (hs : r'.state = .inQuotedField) (hcs : cs ≠ []) (hp : r.process limit c = .ok r') :
    midLine limit r (c :: cs) = midLine limit r' cs := by
  by_cases h : EndsLine c cs
  · have hend : r'.endLine = r' := by simp [Reader.endLine, hs]
    rw [midLine_end h hp, hend, afterLine, if_neg (by rw [hs]; decide), midLine_begin hcs]
  · exact midLine_mid h hp

/-! ### Fields -/

/-- The inside of a quoted field. -/
theorem midLine_doubled (hrest : rest ≠ []) : ∀ (cs : List Char) (f : Field), f.length + cs.length ≤ limit →
    midLine limit ⟨.inQuotedField, f, fs⟩ (doubled cs ++ rest) = midLine limit ⟨.inQuotedField, f ++ cs,
      fs⟩ rest
  | [], f, _ => by simp [doubled]
  | c :: cs, f, h => by
    have hlen : ¬ limit ≤ f.length := by
      rw [List.length_cons] at h
      omega
    have ih := midLine_doubled hrest cs (f ++ [c]) (by simp at h ⊢; omega)
    have hne : doubled cs ++ rest ≠ [] := List.append_ne_nil_of_right_ne_nil _ hrest
    rw [List.append_assoc] at ih
    by_cases hq : c = '"'
    · subst hq
      have hquote : Reader.process limit ⟨.quoteInQuotedField, f, fs⟩ '"' =
          .ok ⟨.inQuotedField, f ++ ['"'], fs⟩ := by
        simp [Reader.process, Reader.addChar, hlen]
      rw [doubled, if_pos rfl, List.cons_append, List.cons_append, midLine_mid (by simp [EndsLine]) rfl,
        midLine_mid (by simp [EndsLine]) hquote, ih]
      rfl
    · have hchar : Reader.process limit ⟨.inQuotedField, f, fs⟩ c = .ok ⟨.inQuotedField, f ++ [c], fs⟩ := by
        simp [Reader.process, Reader.addChar, hlen, hq]
      rw [doubled, if_neg hq, List.cons_append, midLine_quoted rfl hne hchar, ih]
      rfl

/-- A quoted field that is too long. -/
theorem midLine_doubled_long : ∀ (cs : List Char) (f : Field), f.length ≤ limit → limit < f.length +
    cs.length →
    rest ≠ [] → midLine limit ⟨.inQuotedField, f, fs⟩ (doubled cs ++ rest) = ([], some .fieldLimit)
  | [], f, hf, h, _ => absurd h (by simpa using hf)
  | c :: cs, f, hf, h, hrest => by
    have hne : doubled cs ++ rest ≠ [] := List.append_ne_nil_of_right_ne_nil _ hrest
    by_cases hlen : limit ≤ f.length
    · by_cases hq : c = '"'
      · subst hq
        have hquote : Reader.process limit ⟨.quoteInQuotedField, f, fs⟩ '"' = .error .fieldLimit := by
          simp [Reader.process, Reader.addChar, hlen]
        rw [doubled, if_pos rfl, List.cons_append, List.cons_append, midLine_mid (by simp [EndsLine]) rfl]
        exact midLine_error hquote
      · rw [doubled, if_neg hq, List.cons_append]
        exact midLine_error (by simp [Reader.process, Reader.addChar, hlen, hq])
    · have ih := midLine_doubled_long cs (f ++ [c]) (by simp; omega) (by simp at h ⊢; omega) hrest
      by_cases hq : c = '"'
      · subst hq
        have hquote : Reader.process limit ⟨.quoteInQuotedField, f, fs⟩ '"' =
            .ok ⟨.inQuotedField, f ++ ['"'], fs⟩ := by
          simp [Reader.process, Reader.addChar, hlen]
        rw [doubled, if_pos rfl, List.cons_append, List.cons_append, midLine_mid (by simp [EndsLine]) rfl,
          midLine_mid (by simp [EndsLine]) hquote, ih]
      · have hchar :
            Reader.process limit ⟨.inQuotedField, f, fs⟩ c = .ok ⟨.inQuotedField, f ++ [c], fs⟩ := by
          simp [Reader.process, Reader.addChar, hlen, hq]
        rw [doubled, if_neg hq, List.cons_append, midLine_quoted rfl hne hchar, ih]

theorem special_iff : special c = false ↔ c ≠ ',' ∧ c ≠ '"' ∧ c ≠ '\r' ∧ c ≠ '\n' := by
  simp [special, and_assoc]

theorem not_endsLine (h : special c = false) : ¬ EndsLine c cs := by
  obtain ⟨_, _, hr, hn⟩ := special_iff.1 h
  simp [EndsLine, hr, hn]

theorem process_inField (h : special c = false) (hlen : f.length < limit) :
    Reader.process limit ⟨.inField, f, fs⟩ c = .ok ⟨.inField, f ++ [c], fs⟩ := by
  obtain ⟨hc, _, hr, hn⟩ := special_iff.1 h
  simp [Reader.process, Reader.addChar, hc, hr, hn, Nat.not_le.2 hlen]

theorem process_inField_long (h : special c = false) (hlen : limit ≤ f.length) :
    Reader.process limit ⟨.inField, f, fs⟩ c = .error .fieldLimit := by
  obtain ⟨hc, _, hr, hn⟩ := special_iff.1 h
  simp [Reader.process, Reader.addChar, hc, hr, hn, hlen]

/-- The rest of a field without quotes. -/
theorem midLine_plain : ∀ (cs : List Char) (f : Field), cs.any special = false →
    f.length + cs.length ≤ limit →
    midLine limit ⟨.inField, f, fs⟩ (cs ++ rest) = midLine limit ⟨.inField, f ++ cs, fs⟩ rest
  | [], f, _, _ => by simp
  | c :: cs, f, hs, h => by
    rw [List.any_cons, Bool.or_eq_false_iff] at hs
    rw [List.length_cons] at h
    have ih := midLine_plain cs (f ++ [c]) hs.2 (by simp; omega)
    rw [List.cons_append, midLine_mid (not_endsLine hs.1) (process_inField hs.1 (by omega)), ih,
      List.append_assoc]
    rfl

/-- A field without quotes that is too long. -/
theorem midLine_plain_long : ∀ (cs : List Char) (f : Field), cs.any special = false → f.length ≤ limit →
    limit < f.length + cs.length → midLine limit ⟨.inField, f, fs⟩ (cs ++ rest) = ([], some .fieldLimit)
  | [], f, _, hf, h => absurd h (by simpa using hf)
  | c :: cs, f, hs, hf, h => by
    rw [List.any_cons, Bool.or_eq_false_iff] at hs
    rw [List.length_cons] at h
    rw [List.cons_append]
    by_cases hlen : limit ≤ f.length
    · exact midLine_error (process_inField_long hs.1 hlen)
    · rw [midLine_mid (not_endsLine hs.1) (process_inField hs.1 (by omega))]
      exact midLine_plain_long cs (f ++ [c]) hs.2 (by simp; omega) (by simp; omega)

/-- A field may end here. -/
def Closable (s : State) : Prop := s = .startField ∨ s = .inField ∨ s = .quoteInQuotedField

/-- A field of a row. -/
theorem midLine_fieldText (f : Field) (hlen : f.length ≤ limit) :
    ∃ s, Closable s ∧
      midLine limit ⟨.startField, [], fs⟩ (fieldText f ++ rest) = midLine limit ⟨s, f, fs⟩ rest := by
  unfold fieldText
  split
  · refine ⟨.quoteInQuotedField, .inr (.inr rfl), ?_⟩
    have hd := @midLine_doubled limit ('"' :: rest) fs (List.cons_ne_nil _ _) f [] (by simpa using hlen)
    rw [List.cons_append, List.append_assoc, midLine_mid (by simp [EndsLine]) rfl]
    refine Eq.trans hd ?_
    rw [midLine_mid (by simp [EndsLine]) rfl]
    rfl
  · next hs =>
    rw [Bool.not_eq_true] at hs
    cases f with
    | nil => exact ⟨.startField, .inl rfl, rfl⟩
    | cons c cs =>
      refine ⟨.inField, .inr (.inl rfl), ?_⟩
      rw [List.any_cons, Bool.or_eq_false_iff] at hs
      rw [List.length_cons] at hlen
      obtain ⟨hc, hq, hr, hn⟩ := special_iff.1 hs.1
      have hfirst : Reader.process limit ⟨.startField, [], fs⟩ c = .ok ⟨.inField, [c], fs⟩ := by
        simp only [Reader.process, Reader.beginField, Reader.addChar, hc, hq, hr, hn, or_self,
          if_false, List.length_nil]
        rw [if_neg (by omega)]
        rfl
      rw [List.cons_append, midLine_mid (not_endsLine hs.1) hfirst]
      exact midLine_plain cs [c] hs.2 (by simp; omega)

theorem midLine_fieldText_long (f : Field) (hlen : limit < f.length) :
    midLine limit ⟨.startField, [], fs⟩ (fieldText f ++ rest) = ([], some .fieldLimit) := by
  unfold fieldText
  split
  · rw [List.cons_append, List.append_assoc, midLine_mid (by simp [EndsLine]) rfl]
    exact midLine_doubled_long f [] (Nat.zero_le _) (by simpa using hlen) (List.cons_ne_nil _ _)
  · next hs =>
    rw [Bool.not_eq_true] at hs
    cases f with
    | nil => exact absurd hlen (Nat.not_lt_zero _)
    | cons c cs =>
      rw [List.any_cons, Bool.or_eq_false_iff] at hs
      rw [List.length_cons] at hlen
      obtain ⟨hc, hq, hr, hn⟩ := special_iff.1 hs.1
      rw [List.cons_append]
      by_cases hzero : limit = 0
      · refine midLine_error ?_
        simp [Reader.process, Reader.beginField, Reader.addChar, hc, hq, hr, hn, hzero]
      · have hfirst : Reader.process limit ⟨.startField, [], fs⟩ c = .ok ⟨.inField, [c], fs⟩ := by
          simp [Reader.process, Reader.beginField, Reader.addChar, hc, hq, hr, hn, hzero]
        rw [midLine_mid (not_endsLine hs.1) hfirst]
        exact midLine_plain_long cs [c] hs.2 (by simp; omega) (by simp; omega)

/-! ### Rows -/

theorem process_comma {s : State} (h : Closable s) :
    Reader.process limit ⟨s, f, fs⟩ ',' = .ok ⟨.startField, [], fs ++ [f]⟩ := by
  obtain rfl | rfl | rfl := h <;> rfl

theorem process_return {s : State} (h : Closable s) :
    Reader.process limit ⟨s, f, fs⟩ '\r' = .ok ⟨.eatCrnl, [], fs ++ [f]⟩ := by
  obtain rfl | rfl | rfl := h <;> rfl

/-- One more row. -/
def cons (row : List Field) (rows : Rows) : Rows := (row :: rows.1, rows.2)

/-- The end of a row. -/
theorem midLine_newLine {s : State} (h : Closable s) (rest : List Char) :
    midLine limit ⟨s, f, fs⟩ ('\r' :: '\n' :: rest) = cons (fs ++ [f]) (reader limit rest) := by
  rw [midLine_mid (by simp [EndsLine]) (process_return h), midLine_end (Or.inl rfl) rfl]
  rfl

/-- The fields of a row, at the start of one of them. -/
theorem midLine_fieldTexts : ∀ (fs acc : List Field), fs ≠ [] → (∀ f ∈ fs, f.length ≤ limit) →
    midLine limit ⟨.startField, [], acc⟩ (fieldTexts fs ++ '\r' :: '\n' :: rest) = cons (acc ++ fs)
      (reader limit rest)
  | [], _, h, _ => absurd rfl h
  | [f], acc, _, hlen => by
    obtain ⟨s, hs, hf⟩ := @midLine_fieldText limit ('\r' :: '\n' :: rest) acc f (hlen f List.mem_cons_self)
    rw [fieldTexts, hf, midLine_newLine hs]
  | f :: g :: fs, acc, _, hlen => by
    have hrest := fun h hh => hlen h (List.mem_cons_of_mem f hh)
    obtain ⟨s, hs, hf⟩ := @midLine_fieldText limit (',' :: (fieldTexts (g :: fs) ++ '\r' :: '\n' :: rest))
      acc f (hlen f List.mem_cons_self)
    rw [fieldTexts, List.append_assoc, List.cons_append, hf, midLine_mid (by simp [EndsLine])
      (process_comma hs), midLine_fieldTexts (g :: fs) (acc ++ [f]) (List.cons_ne_nil _ _) hrest,
      List.append_assoc]
    · rfl
    · exact List.cons_ne_nil _ _

theorem midLine_fieldTexts_long : ∀ (fs acc : List Field), (∃ f ∈ fs, limit < f.length) →
    midLine limit ⟨.startField, [], acc⟩ (fieldTexts fs ++ '\r' :: '\n' :: rest) = ([], some .fieldLimit)
  | [], _, h => by simp at h
  | [f], acc, h => by
    obtain ⟨g, hg, hlen⟩ := h
    obtain rfl := List.mem_singleton.1 hg
    exact midLine_fieldText_long g hlen
  | f :: g :: fs, acc, h => by
    rw [fieldTexts, List.append_assoc, List.cons_append]
    · by_cases hlen : f.length ≤ limit
      · obtain ⟨s, hs, hf⟩ := @midLine_fieldText limit
            (',' :: (fieldTexts (g :: fs) ++ '\r' :: '\n' :: rest)) acc f hlen
        rw [hf, midLine_mid (by simp [EndsLine]) (process_comma hs)]
        refine midLine_fieldTexts_long (g :: fs) (acc ++ [f]) ?_
        obtain ⟨x, hx, hlong⟩ := h
        obtain rfl | hx := List.mem_cons.1 hx
        · omega
        · exact ⟨x, hx, hlong⟩
      · exact midLine_fieldText_long f (by omega)
    · exact List.cons_ne_nil _ _

theorem midLine_congr (hp : r.process limit c = r'.process limit c) :
    midLine limit r (c :: cs) = midLine limit r' (c :: cs) := by
  cases h : r.process limit c with
  | error e => rw [midLine_error h, midLine_error (hp ▸ h)]
  | ok x =>
    by_cases he : EndsLine c cs
    · rw [midLine_end he h, midLine_end he (hp ▸ h)]
    · rw [midLine_mid he h, midLine_mid he (hp ▸ h)]

/-- A row begins with its first field. -/
theorem midLine_startRecord (hn : c ≠ '\n') (hr : c ≠ '\r') :
    midLine limit {} (c :: cs) = midLine limit ⟨.startField, [], []⟩ (c :: cs) := by
  refine midLine_congr ?_
  simp [Reader.process, Reader.beginField, Reader.addChar, Reader.saveField, hn, hr]

/-- A row does not begin with a line break, unless it has no fields. -/
theorem fieldTexts_head : ∀ {fs : List Field}, fs ≠ [] → fs ≠ [[]] →
    ∃ c cs, fieldTexts fs = c :: cs ∧ c ≠ '\n' ∧ c ≠ '\r'
  | [], h, _ => absurd rfl h
  | [] :: g :: fs, _, _ => ⟨',', fieldTexts (g :: fs), rfl, by decide, by decide⟩
  | [[]], _, h => absurd rfl h
  | (c :: cs) :: fs, _, _ => by
    have htext : ∃ d ds, fieldText (c :: cs) = d :: ds ∧ d ≠ '\n' ∧ d ≠ '\r' := by
      unfold fieldText
      split
      · exact ⟨'"', _, rfl, by decide, by decide⟩
      · next hs =>
        rw [Bool.not_eq_true, List.any_cons, Bool.or_eq_false_iff] at hs
        obtain ⟨_, _, hr, hn⟩ := special_iff.1 hs.1
        exact ⟨c, cs, rfl, hn, hr⟩
    obtain ⟨d, ds, hd, hn, hr⟩ := htext
    cases fs with
    | nil => exact ⟨d, ds, hd, hn, hr⟩
    | cons g fs => exact ⟨d, ds ++ ',' :: fieldTexts (g :: fs), by rw [fieldTexts, hd, List.cons_append]; simp, hn, hr⟩

theorem reader_eq_midLine (h : cs ≠ []) : reader limit cs = midLine limit {} cs := midLine_begin h

/-- A row is read back. -/
theorem reader_rowText (h : ∀ f ∈ fs, f.length ≤ limit) (rest : List Char) :
    reader limit (rowText fs ++ rest) = cons fs (reader limit rest) := by
  unfold rowText
  by_cases hsingle : fs = [[]]
  · subst hsingle
    rw [if_pos rfl, reader_eq_midLine (by simp)]
    simp only [List.cons_append, List.nil_append]
    rw [midLine_mid (by simp [EndsLine]) rfl, midLine_mid (by simp [EndsLine]) rfl]
    exact midLine_newLine (.inr (.inr rfl)) rest
  · rw [if_neg hsingle, reader_eq_midLine (by simp)]
    simp only [List.append_assoc, List.cons_append, List.nil_append]
    by_cases hnil : fs = []
    · subst hnil
      rw [fieldTexts, List.nil_append, midLine_mid (by simp [EndsLine]) rfl, midLine_end (Or.inl rfl) rfl]
      rfl
    · obtain ⟨c, cs, htexts, hn, hr⟩ := fieldTexts_head hnil hsingle
      have hrow := @midLine_fieldTexts limit rest fs [] hnil h
      rw [htexts, List.cons_append] at hrow ⊢
      rw [midLine_startRecord hn hr, hrow, List.nil_append]

/-- A row with a field that is too long ends the reading. -/
theorem reader_rowText_long (h : ∃ f ∈ fs, limit < f.length) (rest : List Char) :
    reader limit (rowText fs ++ rest) = ([], some .fieldLimit) := by
  obtain ⟨f, hf, hlen⟩ := h
  have hsingle : fs ≠ [[]] := by
    rintro rfl
    obtain rfl := List.mem_singleton.1 hf
    exact absurd hlen (Nat.not_lt_zero _)
  unfold rowText
  rw [if_neg hsingle, reader_eq_midLine (by simp)]
  simp only [List.append_assoc, List.cons_append, List.nil_append]
  obtain ⟨c, cs, htexts, hn, hr⟩ := fieldTexts_head (List.ne_nil_of_mem hf) hsingle
  have hrow := @midLine_fieldTexts_long limit rest fs [] ⟨f, hf, hlen⟩
  rw [htexts, List.cons_append] at hrow ⊢
  rw [midLine_startRecord hn hr, hrow]

/-- What was written is read back. -/
theorem reader_rowsText {rows : List (List Field)} (h : ∀ fs ∈ rows, ∀ f ∈ fs, f.length ≤ limit) :
    reader limit (rowsText rows) = (rows, none) := by
  induction rows with
  | nil => rfl
  | cons fs rows ih =>
    have hrest := ih fun gs hgs => h gs (List.mem_cons_of_mem fs hgs)
    rw [rowsText, List.flatMap_cons, reader_rowText (h fs List.mem_cons_self)]
    exact congrArg (cons fs) hrest

/-- A field that is longer than the limit is an error. -/
theorem reader_rowsText_long {rows : List (List Field)} (h : ∃ fs ∈ rows, ∃ f ∈ fs, limit < f.length) :
    (reader limit (rowsText rows)).2 = some .fieldLimit := by
  induction rows with
  | nil => simp at h
  | cons fs rows ih =>
    rw [rowsText, List.flatMap_cons]
    by_cases hlong : ∃ f ∈ fs, limit < f.length
    · rw [reader_rowText_long hlong]
    · have hshort : ∀ f ∈ fs, f.length ≤ limit := fun f hf => Nat.not_lt.1 fun hlt => hlong ⟨f, hf, hlt⟩
      rw [reader_rowText hshort]
      refine ih ?_
      obtain ⟨gs, hgs, hg⟩ := h
      obtain rfl | hgs := List.mem_cons.1 hgs
      · exact absurd hg hlong
      · exact ⟨gs, hgs, hg⟩

end TrackFlow.Python.Csv
