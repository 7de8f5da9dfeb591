import TrackFlow.Jobs.NightlyCsv

/-!
# Reusing the daily CSV

A file that `publish_csv_rows` wrote is meant to be reused when the job is tried again. The rows are
read back as they were (`validateRow_fieldsOf`, `decodeRow_fieldsOf`) unless a text is longer than
the reader's limit, and on the last date there is no end of the day.

- `reusable_artifact`: a file that was accepted is reusable exactly for a date before the last one
  and rows without long texts, and a refused row leaves the final file as it was.
-/

namespace TrackFlow.Jobs.NightlyCsv

open TrackFlow.Python TrackFlow.Python.Raising
open TrackFlow.Python.Csv (Field)

variable {F : Floats} {t targetDate : Int} {row : Row F} {tags : List Char} {rows : List (Row F)}
  {fields : List Field} {fieldRows : List (List Field)}

/-! ## Timestamps -/

/-- The text of an instant before its offset. -/
def stamp (t : Int) : List Char := dateChars (dateOf t) ++ 'T' :: timeChars (t % dayMicros).toNat

theorem mem_stamp {c : Char} (h : c ∈ stamp t) : c ≠ '+' ∧ c ≠ 'Z' := by
  have hdigit : ∀ w n, c ∈ padded w n → c ≠ '+' ∧ c ≠ 'Z' := fun w n hc => by
    have hd := isDigit_padded hc
    refine ⟨?_, ?_⟩ <;> rintro rfl <;> revert hd <;> decide
  simp only [stamp, dateChars, List.mem_append, List.mem_cons] at h
  obtain (h | rfl | h | rfl | h) | rfl | h := h
  · exact hdigit _ _ h
  · decide
  · exact hdigit _ _ h
  · decide
  · exact hdigit _ _ h
  · decide
  · have hz := not_isZone_timeChars h
    refine ⟨?_, ?_⟩ <;> rintro rfl <;> cases hz

theorem toList_isoFormat_stamp (t : Int) :
    (isoFormat t).toList = stamp t ++ ['+', '0', '0', ':', '0', '0'] := by
  rw [toList_isoFormat, stamp, List.append_assoc]
  rfl

theorem formatUtc_eq (t : Int) : formatUtc t = stamp t ++ ['Z'] := by
  rw [formatUtc, toList_isoFormat_stamp]
  exact replaceFrom_last fun h => (mem_stamp h).1 rfl

theorem length_formatUtc (h : minDate ≤ dateOf t) (h' : dateOf t ≤ maxDate) :
    (formatUtc t).length = 27 := by
  have hmicros : (t % dayMicros).toNat < 86400000000 := by
    unfold dayMicros
    omega
  have h2 : ∀ {n}, n < 10 ^ 2 → (padded 2 n).length = 2 := length_padded (by decide)
  have h6 : ∀ {n}, n < 10 ^ 6 → (padded 6 n).length = 6 := length_padded (by decide)
  rw [formatUtc_eq, stamp]
  simp only [List.length_append, List.length_cons, List.length_nil, length_dateChars h h', timeChars]
  rw [h2 (by omega), h2 (by omega), h2 (by omega), h6 (by omega)]

/-- A timestamp is read back. -/
theorem parseCsvTimestamp_formatUtc (h : minDate ≤ dateOf t) (h' : dateOf t ≤ maxDate) :
    parseCsvTimestamp (formatUtc t) = .ok t := by
  have hiso : replaceFrom ['Z'] ['+', '0', '0', ':', '0', '0'] 0 (formatUtc t) = (isoFormat t).toList := by
    rw [formatUtc_eq, toList_isoFormat_stamp]
    exact replaceFrom_last fun h => (mem_stamp h).2 rfl
  unfold parseCsvTimestamp
  rw [hiso, String.ofList_toList, fromIsoFormat_isoFormat h h']
  exact if_pos ⟨h, h'⟩

/-! ## Rows -/

/-- The fields of a row at an instant with its tags as text. -/
def fieldsOf (row : Row F) (t : Int) (tags : List Char) : List Field :=
  [row.id.str.toList, formatUtc t, row.service.toList, row.eventType.toList, textOrEmpty row.level,
    valueText row.value, textOrEmpty row.message, tags]

/-- The row can be written for a date: its instant is one of the day, and its tags have a text. -/
structure Writable (row : Row F) (targetDate t : Int) (tags : List Char) : Prop where
  timestamp : row.timestamp = .aware t
  lower : minDate ≤ dateOf t
  upper : dateOf t ≤ maxDate
  day : dateOf t = targetDate
  tags : row.tags.dumps = some tags

theorem utcTimestamp_ok {v : PyValue} (h : utcTimestamp v = .ok t) :
    v = .aware t ∧ minDate ≤ dateOf t ∧ dateOf t ≤ maxDate := by
  cases v with
  | aware u =>
    by_cases hrange : minDate ≤ dateOf u ∧ dateOf u ≤ maxDate
    · rw [utcTimestamp, if_pos hrange] at h
      cases h
      exact ⟨rfl, hrange⟩
    · rw [utcTimestamp, if_neg hrange] at h
      cases h
  | _ => cases h

theorem serializeRow_of_writable (h : Writable row targetDate t tags) :
    serializeTelemetryRow row targetDate = .ok (fieldsOf row t tags) := by
  have hstamp : utcTimestamp row.timestamp = .ok t := by
    rw [h.timestamp]
    exact if_pos ⟨h.lower, h.upper⟩
  unfold serializeTelemetryRow serializeRow
  rw [Uuid.ofString_str, hstamp, h.tags]
  simp only [bind, Except.bind, h.day, ne_eq, not_true_eq_false, if_false]
  rfl

/-- A row is serialized exactly if it can be written. -/
theorem serialize_ok (h : serializeTelemetryRow row targetDate = .ok fields) :
    ∃ t tags, Writable row targetDate t tags ∧ fields = fieldsOf row t tags := by
  unfold serializeTelemetryRow at h
  cases hrow : serializeRow row targetDate with
  | error e =>
    rw [hrow] at h
    cases h
  | ok fs =>
    rw [hrow] at h
    cases h
    unfold serializeRow at hrow
    rw [Uuid.ofString_str] at hrow
    obtain ⟨_, hid, hrow⟩ := bind_ok hrow
    cases hid
    obtain ⟨t, hstamp, hrow⟩ := bind_ok hrow
    obtain ⟨hts, hlower, hupper⟩ := utcTimestamp_ok hstamp
    split at hrow
    · cases hrow
    · next hday =>
      cases htags : row.tags.dumps with
      | none =>
        rw [htags] at hrow
        cases hrow
      | some tags =>
        rw [htags] at hrow
        cases hrow
        exact ⟨t, tags, ⟨hts, hlower, hupper, not_not.1 hday, htags⟩, rfl⟩

/-! ## Validating what was written -/

/-- The key of a row. -/
def rowKey (row : Row F) : Option Key :=
  match row.timestamp with
  | .aware t => some (t, idNumber row.id)
  | _ => none

/-- `(timestamp, id)` order. -/
def Ordered (rows : List (Row F)) : Prop :=
  rows.Pairwise fun a b => ∀ k ∈ rowKey a, ∀ l ∈ rowKey b, k.1 < l.1 ∨ k.1 = l.1 ∧ k.2 ≤ l.2

theorem Key.lt_eq_false {k l : Key} (h : k.1 < l.1 ∨ k.1 = l.1 ∧ k.2 ≤ l.2) : Key.lt l k = false := by
  simp only [Key.lt, Bool.or_eq_false_iff, Bool.and_eq_false_iff, decide_eq_false_iff_not,
    beq_eq_false_iff_ne]
  omega

/-- The value of a row is read as a decimal, or is empty. -/
theorem valueText_cases (v : Option Decimal) : v = none ∧ valueText v = [] ∨
    ∃ d c cs, v = some d ∧ valueText v = c :: cs ∧ Decimal.ofText? (c :: cs) = some d.rescaled := by
  cases v with
  | none => exact .inl ⟨rfl, rfl⟩
  | some d =>
    refine .inr ?_
    have hread := Decimal.ofText_format d
    cases htext : d.format with
    | nil =>
      rw [htext] at hread
      cases hread
    | cons c cs => exact ⟨d, c, cs, rfl, htext, htext ▸ hread⟩

theorem Writable.loads (h : Writable row targetDate t tags) : Json.loads tags = some row.tags.sorted :=
  Json.loads_dumps row.distinct h.tags

theorem Writable.inDay (h : Writable row targetDate t tags) :
    midnight targetDate ≤ t ∧ t < midnight (targetDate + 1) := by
  have hday := h.day
  unfold dateOf dayMicros at hday
  unfold midnight dayMicros
  omega

/-- A row that was written passes the checks after a row that is not later. -/
theorem validateRow_fieldsOf (h : Writable row targetDate t tags) {previous : Option Key}
    (hprev : previous.any (Key.lt (t, idNumber row.id)) = false) :
    validateRow F targetDate previous (fieldsOf row t tags) = .ok (t, idNumber row.id) := by
  have hstamp := parseCsvTimestamp_formatUtc h.lower h.upper
  unfold validateRow fieldsOf
  rw [if_neg (by simp [csvColumns]), List.headD_cons, String.ofList_toList, Uuid.ofString_str]
  simp only [List.getElem?_cons_succ, List.getElem?_cons_zero, hstamp, Option.getD_some, h.loads]
  obtain ⟨_, hv⟩ | ⟨d, c, cs, _, hv, hread⟩ := valueText_cases row.value
  · rw [hv]
    simp [bind, Except.bind, h.inDay, hprev]
  · rw [hv]
    simp [bind, Except.bind, h.inDay, hprev, hread]

/-- The rows that were written, one after the other. -/
abbrev Written (targetDate : Int) : List (Row F) → List (List Field) → Prop :=
  List.Forall₂ fun row fields => serializeTelemetryRow row targetDate = .ok fields

theorem validateRows_cons {previous : Option Key} {count : Nat} {failure : Option Csv.Error}
    {key : Key} (hne : fields ≠ [])
    (hrow : validateRow F targetDate previous fields = .ok key) :
    validateRows F targetDate failure previous count (fields :: fieldRows) =
      validateRows F targetDate failure (some key) (count + 1) fieldRows := by
  cases fields with
  | nil => exact absurd rfl hne
  | cons f fs =>
    rw [validateRows, hrow]
    · rfl
    · exact List.cons_ne_nil f fs

/-- Rows that were written in order pass the checks, all of them counted. -/
theorem validateRows_written (h : Written targetDate rows fieldRows) (hrows : Ordered rows)
    {previous : Option Key} (count : Nat)
    (hprev : ∀ k ∈ previous, ∀ row ∈ rows, ∀ l ∈ rowKey row, k.1 < l.1 ∨ k.1 = l.1 ∧ k.2 ≤ l.2) :
    validateRows F targetDate none previous count fieldRows = .ok (count + rows.length) := by
  induction h generalizing previous count with
  | nil => rfl
  | @cons row fields rows fieldRows hrow _ ih =>
    obtain ⟨t, tags, hw, rfl⟩ := serialize_ok hrow
    obtain ⟨hfirst, hrest⟩ := List.pairwise_cons.1 hrows
    have hkey : rowKey row = some (t, idNumber row.id) := by rw [rowKey, hw.timestamp]
    have hcheck : previous.any (Key.lt (t, idNumber row.id)) = false := by
      cases previous with
      | none => rfl
      | some k => exact Key.lt_eq_false (hprev k rfl row List.mem_cons_self _ hkey)
    have hlater : ∀ k ∈ some (t, idNumber row.id), ∀ later ∈ rows, ∀ l ∈ rowKey later, k.1 < l.1 ∨
        k.1 = l.1 ∧ k.2 ≤ l.2 := by
      intro k hk later hl
      obtain rfl := Option.some.inj hk
      exact hfirst later hl _ hkey
    have hnext := ih hrest (count + 1) hlater
    have hne : fieldsOf row t tags ≠ [] := List.cons_ne_nil _ _
    rw [validateRows_cons hne (validateRow_fieldsOf hw hcheck), hnext, List.length_cons, Nat.add_right_comm]
    rfl

/-- An error of the reader is never passed over. -/
theorem validateRows_failure (e : Csv.Error) : ∀ (rows : List (List Field)) (previous : Option Key)
    (count n : Nat),
    validateRows F targetDate (some e) previous count rows ≠ .ok n
  | [], _, _, _ => nofun
  | [] :: rows, previous, count, n => validateRows_failure e rows previous count n
  | (f :: fs) :: rows, previous, count, n => fun h => by
    obtain ⟨key, _, hrest⟩ := bind_ok h
    exact validateRows_failure e rows (some key) (count + 1) n hrest

/-! ## Decoding what was written -/

/-- A decoded row tells what the row of the table does. -/
structure Recovers (row : Row F) (event : Event F) : Prop where
  id : event.id = row.id
  timestamp : row.timestamp = .aware event.timestamp
  service : event.service = row.service
  eventType : event.eventType = row.eventType
  level : event.level = row.level.getD ""
  value : event.value.map Decimal.number = row.value.map Decimal.number
  message : event.message = row.message.getD ""
  tags : event.tags.Eq row.tags

theorem decodeRow_fieldsOf (h : Writable row targetDate t tags) :
    ∃ event, decodeRow F (fieldsOf row t tags) = some event ∧ Recovers row event := by
  have hstamp := parseCsvTimestamp_formatUtc h.lower h.upper
  have hvalue : ∃ v, decodeValue (valueText row.value) = some v ∧ v.map Decimal.number =
      row.value.map Decimal.number := by
    obtain ⟨hnone, hv⟩ | ⟨d, c, cs, hsome, hv, hread⟩ := valueText_cases row.value
    · exact ⟨none, by rw [hv]; rfl, by rw [hnone]⟩
    · refine ⟨some d.rescaled, by rw [hv]; simp [decodeValue, hread], ?_⟩
      rw [hsome, Option.map_some, Option.map_some, Decimal.number_rescaled]
  obtain ⟨v, hv, hnumber⟩ := hvalue
  refine ⟨⟨row.id, t, row.service, row.eventType, row.level.getD "", v, row.message.getD "",
    row.tags.sorted⟩, ?_, ?_⟩
  · unfold decodeRow fieldsOf
    simp [Uuid.ofString_str, hstamp, hv, h.loads, Except.toOption, textOrEmpty]
  · exact ⟨rfl, h.timestamp, rfl, rfl, rfl, hnumber, rfl, Json.sorted_eq _⟩

theorem mapM_decodeRow (h : Written targetDate rows fieldRows) :
    ∃ events, fieldRows.mapM (decodeRow F) = some events ∧ List.Forall₂ Recovers rows events := by
  induction h with
  | nil => exact ⟨[], rfl, .nil⟩
  | cons hrow _ ih =>
    obtain ⟨t, tags, hw, rfl⟩ := serialize_ok hrow
    obtain ⟨event, hevent, hrecovers⟩ := decodeRow_fieldsOf hw
    obtain ⟨events, hevents, hall⟩ := ih
    exact ⟨event :: events, by simp [hevent, hevents], .cons hrecovers hall⟩

/-! ## Texts within the reader's limit -/

/-- The texts of a row that may be of any length. -/
def texts (row : Row F) : List Field :=
  [row.service.toList, row.eventType.toList, textOrEmpty row.level, valueText row.value,
    textOrEmpty row.message, row.tags.text]

/-- No text of the row is longer than the reader's limit. -/
def Short (row : Row F) : Prop := ∀ f ∈ texts row, f.length ≤ Csv.fieldSizeLimit

instance (row : Row F) : Decidable (Short row) :=
  inferInstanceAs (Decidable (∀ f ∈ texts row, f.length ≤ Csv.fieldSizeLimit))

theorem Writable.tags_eq (h : Writable row targetDate t tags) : tags = row.tags.text := by
  have htags := h.tags
  unfold Json.dumps at htags
  split at htags
  · exact (Option.some.inj htags).symm
  · cases htags

theorem length_str (u : Uuid) : u.str.toList.length = 36 := by
  simp [Uuid.str, Uuid.chars, Uuid.length_hex]

/-- The other texts of a row are short. -/
theorem short_iff (h : Writable row targetDate t tags) :
    Short row ↔ ∀ f ∈ fieldsOf row t tags, f.length ≤ Csv.fieldSizeLimit := by
  have hid : row.id.str.toList.length ≤ Csv.fieldSizeLimit := by
    rw [length_str]
    decide
  have hstamp : (formatUtc t).length ≤ Csv.fieldSizeLimit := by
    rw [length_formatUtc h.lower h.upper]
    decide
  unfold Short texts fieldsOf
  rw [h.tags_eq, List.forall_mem_cons (a := row.id.str.toList), List.forall_mem_cons (a := formatUtc t)]
  exact ⟨fun hs => ⟨hid, hstamp, hs⟩, fun hs => hs.2.2⟩

theorem short_written (h : Written targetDate rows fieldRows) :
    (∀ row ∈ rows, Short row) ↔ ∀ fields ∈ fieldRows, ∀ f ∈ fields, f.length ≤ Csv.fieldSizeLimit := by
  induction h with
  | nil => simp
  | cons hrow _ ih =>
    obtain ⟨t, tags, hw, rfl⟩ := serialize_ok hrow
    rw [List.forall_mem_cons, List.forall_mem_cons, short_iff hw, ih]

/-! ## Publishing -/

/-- A row is refused. -/
def Refused (row : Row F) (targetDate : Int) : Prop := ∃ e, serializeTelemetryRow row targetDate = .error e

/-- Either all rows are written, or one is refused. -/
theorem written_or_refused (targetDate : Int) (rows : List (Row F)) :
    (∃ fieldRows, Written targetDate rows fieldRows) ∨ ∃ row ∈ rows, Refused row targetDate := by
  induction rows with
  | nil => exact .inl ⟨[], .nil⟩
  | cons row rows ih =>
    cases hrow : serializeTelemetryRow row targetDate with
    | error e => exact .inr ⟨row, List.mem_cons_self, e, hrow⟩
    | ok fields =>
      obtain ⟨fieldRows, h⟩ | ⟨r, hr, hrefused⟩ := ih
      · exact .inl ⟨fields :: fieldRows, .cons hrow h⟩
      · exact .inr ⟨r, List.mem_cons_of_mem row hr, hrefused⟩

theorem writeRows_ok (hrow : serializeTelemetryRow row targetDate = .ok fields) (files : Files) :
    writeRows targetDate (row :: rows) files = writeRows targetDate rows
      { files with temporary := files.temporary.map (· ++ Csv.rowText fields) } := by
  rw [writeRows, hrow]
  rfl

theorem writeRows_error {e : Raised} (hrow : serializeTelemetryRow row targetDate = .error e)
    (files : Files) : writeRows targetDate (row :: rows) files = (.error e, files) := by
  rw [writeRows, hrow]
  rfl

/-- The rows go to the temporary file. -/
theorem writeRows_written (h : Written targetDate rows fieldRows) (final : Option Content)
    (cs : List Char) :
    writeRows targetDate rows ⟨final, some cs⟩ =
      (.ok (), ⟨final, some (cs ++ Csv.rowsText fieldRows)⟩) := by
  induction h generalizing cs with
  | nil =>
    rw [Csv.rowsText, List.flatMap_nil, List.append_nil]
    rfl
  | cons hrow _ ih =>
    rw [writeRows_ok hrow]
    refine (ih _).trans ?_
    rw [Csv.rowsText, Csv.rowsText, List.flatMap_cons, List.append_assoc]

/-- A refused row ends the loop. -/
theorem writeRows_refused (h : ∃ row ∈ rows, Refused row targetDate) (files : Files) :
    ∃ e files', writeRows targetDate rows files = (.error e, files') ∧ files'.final = files.final := by
  induction rows generalizing files with
  | nil => simp at h
  | cons row rows ih =>
    cases hrow : serializeTelemetryRow row targetDate with
    | error e => exact ⟨e, files, writeRows_error hrow files, rfl⟩
    | ok fields =>
      obtain ⟨r, hr, e, he⟩ := h
      obtain rfl | hr := List.mem_cons.1 hr
      · rw [hrow] at he
        cases he
      · rw [writeRows_ok hrow]
        exact ih ⟨r, hr, e, he⟩ _

/-- The file of some rows. -/
def written (fieldRows : List (List Field)) : Content := .text (Csv.rowsText (csvColumns :: fieldRows))

/-- The end of the `try`: the temporary file is removed. -/
def endTry (result : Except Raised Unit) : Step Unit := do
  modify fun files => { files with temporary := none }
  match result with
  | .ok _ => return ()
  | .error e => raise (asArtifactError ["OSError", "TypeError", "ValueError", "Error"] "daily CSV creation failed" e)

/-- Without a final file, the outcome is that of the `try`. -/
theorem publish_unpublished (o : Outside) (targetDate : Int) (rows : List (Row F))
    (temporary : Option (List Char)) :
    publishCsvRows o targetDate rows ⟨none, temporary⟩ =
      ((publishBody o targetDate rows ⟨none, some []⟩).1.mapError
        (asArtifactError ["OSError", "TypeError", "ValueError", "Error"] "daily CSV creation failed"),
      ⟨(publishBody o targetDate rows ⟨none, some []⟩).2.final, none⟩) := by
  have hbody : publishCsvRows o targetDate rows ⟨none, temporary⟩ =
      (attempt (publishBody o targetDate rows) >>= endTry) ⟨none, some []⟩ := rfl
  have hattempt : attempt (publishBody o targetDate rows) ⟨none, some []⟩ =
      (.ok (publishBody o targetDate rows ⟨none, some []⟩).1,
        (publishBody o targetDate rows ⟨none, some []⟩).2) := rfl
  rw [hbody]
  refine (bind_of_ok hattempt).trans ?_
  cases publishBody o targetDate rows ⟨none, some []⟩ with
  | mk r files => cases r <;> rfl

/-- With a final file, nothing changes. -/
theorem publish_published (o : Outside) (targetDate : Int) (rows : List (Row F)) (content : Content)
    (temporary : Option (List Char)) :
    publishCsvRows o targetDate rows ⟨some content, temporary⟩ =
      ((validateExistingCsv F content targetDate).map fun _ => (), ⟨some content, temporary⟩) := by
  have hbody : publishCsvRows o targetDate rows ⟨some content, temporary⟩ =
      (Raising.ofExcept (validateExistingCsv F content targetDate) >>= fun _ => pure ())
        ⟨some content, temporary⟩ := rfl
  rw [hbody]
  cases validateExistingCsv F content targetDate with
  | error e => rfl
  | ok n => rfl

/-- The `try` after the rows were written. -/
theorem publishBody_written (h : Written targetDate rows fieldRows) (o : Outside) :
    publishBody o targetDate rows ⟨none, some []⟩ =
      (mayRaise o.fetched >>= fun _ => mayRaise o.stored >>= fun _ => link F o targetDate)
        ⟨none, some (Csv.rowsText (csvColumns :: fieldRows))⟩ := by
  have hloop := writeRows_written h none (Csv.rowText csvColumns)
  have hbody : publishBody o targetDate rows ⟨none, some []⟩ =
    (writeRows targetDate rows >>= fun _ => mayRaise o.fetched >>= fun _ => mayRaise o.stored >>= fun _ =>
      link F o targetDate) ⟨none, some (Csv.rowText csvColumns)⟩ := rfl
  rw [hbody]
  refine (bind_of_ok hloop).trans ?_
  rw [Csv.rowsText, Csv.rowsText, List.flatMap_cons]

/-- A refused row ends the `try` before the link. -/
theorem publishBody_refused (h : ∃ row ∈ rows, Refused row targetDate) (o : Outside) :
    ∃ e files, publishBody o targetDate rows ⟨none, some []⟩ = (.error e, files) ∧ files.final = none := by
  obtain ⟨e, files, hloop, hfinal⟩ := writeRows_refused h ⟨none, some (Csv.rowText csvColumns)⟩
  have hbody : publishBody o targetDate rows ⟨none, some []⟩ =
    (writeRows targetDate rows >>= fun _ => mayRaise o.fetched >>= fun _ => mayRaise o.stored >>= fun _ =>
      link F o targetDate) ⟨none, some (Csv.rowText csvColumns)⟩ := rfl
  exact ⟨e, files, hbody.trans (bind_of_error hloop), hfinal⟩

/-- A refused row leaves the final file as it was. -/
theorem publish_refused (h : ∃ row ∈ rows, Refused row targetDate) (o : Outside) (files : Files) :
    (publishCsvRows o targetDate rows files).2.final = files.final := by
  obtain ⟨final, temporary⟩ := files
  cases final with
  | none =>
    obtain ⟨e, files', hbody, hfinal⟩ := publishBody_refused h o
    rw [publish_unpublished, hbody]
    exact hfinal
  | some content => rw [publish_published]

/-- What was accepted was written and, unless another process was faster, linked. -/
theorem publish_accepted {o : Outside} (ho : o.published = none)
    (h : (publishCsvRows o targetDate rows { final := none }).1 = .ok ()) :
    ∃ fieldRows, Written targetDate rows fieldRows ∧
      (publishCsvRows o targetDate rows { final := none }).2 = { final := some (written fieldRows) } := by
  rw [publish_unpublished] at h
  obtain ⟨fieldRows, hrows⟩ | hrefused := written_or_refused targetDate rows
  · refine ⟨fieldRows, hrows, ?_⟩
    rw [publish_unpublished]
    rw [publishBody_written hrows] at h ⊢
    obtain ⟨fetched, stored, published, refused⟩ := o
    obtain rfl : published = none := ho
    cases fetched with
    | some e => cases h
    | none =>
      cases stored with
      | some e => cases h
      | none =>
        cases refused with
        | true => cases h
        | false => rfl
  · obtain ⟨e, files, hbody, _⟩ := publishBody_refused hrefused o
    rw [hbody] at h
    cases h

/-- The file of another process that was faster is validated. -/
theorem link_published {o : Outside} {content : Content} (ho : o.published = some content) (files : Files) :
    link F o targetDate files = ((validateExistingCsv F content targetDate).map fun _ => (),
      { files with final := some content }) := by
  have hbody : link F o targetDate files =
      (Raising.ofExcept (validateExistingCsv F content targetDate) >>= fun _ => pure ())
      { files with final := some content } := by
    unfold link
    rw [ho]
    rfl
  rw [hbody]
  cases validateExistingCsv F content targetDate with
  | error e => rfl
  | ok n => rfl

/-- A file that was there, or that another process published first, was validated. -/
theorem publish_validated {o : Outside} {files : Files} (hother : files.final.isSome ∨ o.published.isSome)
    (h : (publishCsvRows o targetDate rows files).1 = .ok ()) :
    ∃ content n, (publishCsvRows o targetDate rows files).2.final = some content ∧
      validateExistingCsv F content targetDate = .ok n := by
  obtain ⟨final, temporary⟩ := files
  cases final with
  | some content =>
    rw [publish_published] at h ⊢
    cases hvalid : validateExistingCsv F content targetDate with
    | error e =>
      rw [hvalid] at h
      cases h
    | ok n => exact ⟨content, n, rfl, hvalid⟩
  | none =>
    obtain ⟨content, hcontent⟩ := Option.isSome_iff_exists.1 (hother.resolve_left Bool.false_ne_true)
    rw [publish_unpublished] at h ⊢
    obtain ⟨fieldRows, hrows⟩ | hrefused := written_or_refused targetDate rows
    · have hbody := publishBody_written hrows o
      cases hfetched : o.fetched with
      | some e =>
        rw [hbody, hfetched] at h
        cases h
      | none =>
        cases hstored : o.stored with
        | some e =>
          rw [hbody, hfetched, hstored] at h
          cases h
        | none =>
          have hlinked : publishBody o targetDate rows ⟨none, some []⟩ =
              link F o targetDate ⟨none, some (Csv.rowsText (csvColumns :: fieldRows))⟩ := by
            rw [hbody, hfetched, hstored]
            rfl
          rw [hlinked, link_published hcontent] at h ⊢
          cases hvalid : validateExistingCsv F content targetDate with
          | error e =>
            rw [hvalid] at h
            cases h
          | ok n => exact ⟨content, n, rfl, hvalid⟩
    · obtain ⟨e, files, hbody, _⟩ := publishBody_refused hrefused o
      rw [hbody] at h
      cases h

/-! ## Reuse -/

/-- A final file that a later run of the date may take for the rows of the date. -/
structure Reusable (rows : List (Row F)) (targetDate : Int) (content : Content) : Prop where
  validated : validateExistingCsv F content targetDate = .ok rows.length
  decoded : ∃ events, decode F content = some events ∧ List.Forall₂ Recovers rows events
  reused : ∀ (o : Outside) (later : List (Row F)),
    publishCsvRows o targetDate later { final := some content } = (.ok (), { final := some content })

theorem reader_written (h : ∀ fields ∈ fieldRows, ∀ f ∈ fields, f.length ≤ Csv.fieldSizeLimit) :
    Csv.reader Csv.fieldSizeLimit (Csv.rowsText (csvColumns :: fieldRows)) =
      (csvColumns :: fieldRows, none) := by
  refine Csv.reader_rowsText fun fields hfields => ?_
  obtain rfl | hfields := List.mem_cons.1 hfields
  · decide
  · exact h fields hfields

/-- Rows that were written in order, without long texts, make a reusable file. -/
theorem reusable_written (hdate : targetDate < maxDate) (hrows : Ordered rows)
    (h : Written targetDate rows fieldRows)
    (hshort : ∀ row ∈ rows, Short row) : Reusable rows targetDate (written fieldRows) := by
  have hread := reader_written ((short_written h).1 hshort)
  have hvalid : validateExistingCsv F (written fieldRows) targetDate = .ok rows.length := by
    have hcount : validateRows F targetDate none none 0 fieldRows = .ok (0 + rows.length) :=
      validateRows_written h hrows 0 (by simp)
    unfold validateExistingCsv validateContent written
    dsimp only
    rw [if_neg (by omega), hread]
    simp [hcount, Except.mapError]
  obtain ⟨events, hdecode, hall⟩ := mapM_decodeRow h
  refine ⟨hvalid, ⟨events, ?_, hall⟩, fun o later => ?_⟩
  · unfold decode written
    dsimp only
    rw [hread]
    exact (if_pos rfl).trans hdecode
  · rw [publish_published, hvalid]
    rfl

/-- A file with a text that is too long is refused. -/
theorem not_valid_long (h : ∃ fields ∈ fieldRows, ∃ f ∈ fields, Csv.fieldSizeLimit < f.length) (n : Nat) :
    validateExistingCsv F (written fieldRows) targetDate ≠ .ok n := by
  obtain ⟨fields, hfields, hlong⟩ := h
  have hread :
      (Csv.reader Csv.fieldSizeLimit (Csv.rowsText (csvColumns :: fieldRows))).2 = some .fieldLimit :=
    Csv.reader_rowsText_long ⟨fields, List.mem_cons_of_mem _ hfields, hlong⟩
  have hcontent : ∀ n, validateContent F targetDate (written fieldRows) ≠ .ok n := by
    intro n hn
    unfold validateContent written at hn
    dsimp only at hn
    generalize Csv.reader Csv.fieldSizeLimit (Csv.rowsText (csvColumns :: fieldRows)) = read at hread hn
    obtain ⟨readRows, failure⟩ := read
    obtain rfl : failure = some .fieldLimit := hread
    cases readRows with
    | nil => cases hn
    | cons header rows =>
      dsimp only at hn
      split at hn
      · cases hn
      · exact validateRows_failure _ _ _ _ _ hn
  intro hn
  unfold validateExistingCsv at hn
  split at hn
  · cases hn
  · cases hresult : validateContent F targetDate (written fieldRows) with
    | error e =>
      rw [hresult] at hn
      cases hn
    | ok m => exact hcontent m hresult

/-- On the last date there is no end of the day. -/
theorem not_valid_maxDate (content : Content) (n : Nat) :
    validateExistingCsv F content maxDate ≠ .ok n := by
  intro hn
  unfold validateExistingCsv at hn
  rw [if_pos (by omega)] at hn
  cases hn

/-- A file that was accepted is reusable exactly for a date before the last one and rows without
long texts; a refused row leaves the final file as it was, and a file of another process was
validated. -/
theorem reusable_artifact (targetDate : Int) (rows : List (Row F)) (hdate : targetDate ≤ maxDate)
    (hrows : Ordered rows) :
    (∀ (o : Outside) (files : Files), (∃ row ∈ rows, Refused row targetDate) →
      (publishCsvRows o targetDate rows files).2.final = files.final) ∧
    (∀ o : Outside, o.published = none → (publishCsvRows o targetDate rows { final := none }).1 = .ok () →
      ((∃ content, (publishCsvRows o targetDate rows { final := none }).2.final = some content ∧
        Reusable rows targetDate content) ↔ targetDate ≠ maxDate ∧ ∀ row ∈ rows, Short row)) ∧
    (∀ (o : Outside) (files : Files), files.final.isSome ∨ o.published.isSome →
      (publishCsvRows o targetDate rows files).1 = .ok () →
      ∃ content n, (publishCsvRows o targetDate rows files).2.final = some content ∧
        validateExistingCsv F content targetDate = .ok n) := by
  refine ⟨fun o files h => publish_refused h o files, fun o ho haccepted => ?_, fun o files =>
      publish_validated⟩
  obtain ⟨fieldRows, hwritten, hfiles⟩ := publish_accepted ho haccepted
  rw [hfiles]
  constructor
  · rintro ⟨content, hcontent, hreuse⟩
    obtain rfl := Option.some.inj hcontent
    refine ⟨?_, (short_written hwritten).2 fun fields hfields f hf => ?_⟩
    · rintro rfl
      exact not_valid_maxDate _ _ hreuse.validated
    · by_contra hlong
      exact not_valid_long ⟨fields, hfields, f, hf, Nat.not_le.1 hlong⟩ _ hreuse.validated
  · rintro ⟨hne, hshort⟩
    exact ⟨_, rfl, reusable_written (by omega) hrows hwritten hshort⟩

/-- One float. -/
def half : Floats where
  Finite := Unit
  repr _ := ['0', '.', '5']
  ofText cs := if cs = ['0', '.', '5'] then some () else none
  repr_isFloatText _ :=
    ⟨[], ['0'], ['.', '5'], [], rfl, .inl rfl, .inl rfl, .inr ⟨['5'], rfl, by decide, by simp⟩,
      .inl rfl, by decide⟩
  ofText_repr _ := rfl

/-- A row of 2024-10-04 with a message. -/
def noonRow (message : String) : Row half where
  id := Uuid.ofNat 7
  timestamp := .aware (midnight 20000 + 43200000000)
  service := "inventory"
  eventType := "stock, \"low\""
  level := none
  value := some (.finite true 1230 (-3))
  message := some message
  tags := .dict [("z", .float ()), ("a", .list [.null, .bool true])]
  distinct := by decide

theorem writable_noonRow (message : String) :
    Writable (noonRow message) 20000 (midnight 20000 + 43200000000) (noonRow message).tags.text :=
  ⟨rfl, by decide, by decide, by decide, if_pos rfl⟩

theorem message_mem_fieldsOf (message : String) (t : Int) (tags : List Char) :
    message.toList ∈ fieldsOf (noonRow message) t tags := by
  simp [fieldsOf, textOrEmpty, noonRow]

theorem not_valid_message {message : String} (h : Csv.fieldSizeLimit < message.toList.length)
    (t : Int) (tags : List Char)
    (n : Nat) : validateExistingCsv half (written [fieldsOf (noonRow message) t tags]) 20000 ≠ .ok n :=
  not_valid_long ⟨_, List.mem_singleton_self _, _, message_mem_fieldsOf message t tags, h⟩ n

theorem written_noonRow (message : String) : Written 20000 [noonRow message]
    [fieldsOf (noonRow message) (midnight 20000 + 43200000000) (noonRow message).tags.text] :=
  .cons (serializeRow_of_writable (writable_noonRow message)) .nil

theorem ordered_noonRow (message : String) : Ordered [noonRow message] := List.pairwise_singleton _ _

/-- Nothing happens outside. -/
theorem publish_quiet (h : Written targetDate rows fieldRows) :
    publishCsvRows {} targetDate rows { final := none } =
      (.ok (), { final := some (written fieldRows) }) := by
  rw [publish_unpublished, publishBody_written h]
  rfl

theorem reusable_artifact_noon : ∃ content,
    (publishCsvRows {} 20000 [noonRow "two\r\nlines"] { final := none }).2.final = some content ∧
      Reusable [noonRow "two\r\nlines"] 20000 content := by
  have haccepted := congrArg Prod.fst (publish_quiet (written_noonRow "two\r\nlines"))
  refine ((reusable_artifact 20000 _ (by decide) (ordered_noonRow _)).2.1 {} rfl haccepted).2
    ⟨by decide, ?_⟩
  rw [List.forall_mem_singleton]
  decide +kernel

/-- A message of 131073 characters is accepted, and so is the last date; neither file can be reused. -/
theorem not_reusable_long : (∃ rows : List (Row half), Ordered rows ∧
      (publishCsvRows {} 20000 rows { final := none }).1 = .ok () ∧
      ∀ content, (publishCsvRows {} 20000 rows { final := none }).2.final = some content →
        ¬ Reusable rows 20000 content ∧ ∀ n, validateExistingCsv half content 20000 ≠ .ok n) ∧
    (publishCsvRows {} maxDate ([] : List (Row half)) { final := none }).1 = .ok () ∧
    ∀ content, (publishCsvRows {} maxDate ([] : List (Row half)) { final := none }).2.final = some content →
      ∀ n, validateExistingCsv half content maxDate ≠ .ok n := by
  refine ⟨⟨[noonRow (String.ofList (List.replicate 131073 'x'))], ordered_noonRow _, ?_,
    fun content hcontent => ?_⟩, ?_, fun content _ n => not_valid_maxDate content n⟩
  · rw [publish_quiet (written_noonRow _)]
  · rw [publish_quiet (written_noonRow _)] at hcontent
    obtain rfl := Option.some.inj hcontent
    have hlong : Csv.fieldSizeLimit < (String.ofList (List.replicate 131073 'x')).toList.length := by
      rw [String.toList_ofList, List.length_replicate]
      decide
    have hinvalid := not_valid_message hlong (midnight 20000 + 43200000000)
      (noonRow (String.ofList (List.replicate 131073 'x'))).tags.text
    exact ⟨fun hreuse => hinvalid _ hreuse.validated, hinvalid⟩
  · have hwritten : Written maxDate ([] : List (Row half)) [] := .nil
    rw [publish_quiet hwritten]

end TrackFlow.Jobs.NightlyCsv
