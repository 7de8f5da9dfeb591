import TrackFlow.Python.JsonTokens
import TrackFlow.Python.Decimals
import TrackFlow.Python.IsoFormat

/-!
# The weekly report as JSON

`_weekly_json_response` writes each entry with `json.dumps`, cuts off the closing brace and appends
the discrepancy rate as `format(rate, "f")`, so that the rate is a number token and not a string.

- `isNumberText_format`: what `format` writes of a finite decimal is a number of JSON;
- `weeklyJson_eq`: the body is the text of a document;
- `weekly_json_faithful`: the body says the week and the entries of the report.
-/

namespace TrackFlow.Reporting

open TrackFlow.Python
open Json (commaSeparated intText)
open Document (asciiText)

/-! ## Definitions -/

/-- A decimal that is a number. -/
def IsFinite (d : Decimal) : Prop :=
  ∃ negative coefficient exponent, d = .finite negative coefficient exponent

/-- `WeeklyPerformanceEntry`. -/
structure Entry where
  warehouse : String
  clientId : String
  inboundUnitsCount : Int
  outboundOrdersCount : Int
  stockoutEventsCount : Int
  discrepancyEventsCount : Int
  discrepancyRate : Decimal

/-- `WeeklyPerformanceResponse`. The week is a `date`, and the model takes no rate that is infinite
or NaN. -/
structure Response where
  weekStart : Int
  entries : List Entry
  inRange : minDate ≤ weekStart ∧ weekStart ≤ maxDate
  finite : ∀ entry ∈ entries, IsFinite entry.discrepancyRate

/-- A value of `model_dump`. -/
inductive Plain
  | str (s : String)
  | int (z : Int)

/-- The text of a value. -/
def Plain.text : Plain → List Char
  | str s => asciiText s
  | int z => intText z

/-- Whether `str` writes the value. -/
def Plain.fits : Plain → Bool
  | str _ => true
  | int z => (Nat.toDigits 10 z.natAbs).length ≤ Json.maxStrDigits

/-- `entry.model_dump(exclude={"discrepancy_rate"})`. -/
def Entry.modelDump (entry : Entry) : List (String × Plain) :=
  [("warehouse", .str entry.warehouse), ("client_id", .str entry.clientId),
    ("inbound_units_count", .int entry.inboundUnitsCount),
    ("outbound_orders_count", .int entry.outboundOrdersCount),
    ("stockout_events_count", .int entry.stockoutEventsCount),
    ("discrepancy_events_count", .int entry.discrepancyEventsCount)]

/-- `json.dumps(data, separators=(",", ":"), sort_keys=True)`; `none` for a `ValueError`. -/
def dumps (data : List (String × Plain)) : Option (List Char) :=
  if data.all fun p => p.2.fits then
    some ('{' :: (commaSeparated ((sortByKey data).map fun p => asciiText p.1 ++ ':' :: p.2.text) ++ ['}']))
  else none

/-- An entry of the body. -/
def encodeEntry (entry : Entry) : Option (List Char) := do
  let encoded ← dumps entry.modelDump
  return encoded.dropLast ++ ",\"discrepancy_rate\":".toList ++ entry.discrepancyRate.format ++ ['}']

/-- The body of `_weekly_json_response`. -/
def weeklyJsonResponse (model : Response) : Option (List Char) := do
  let encodedEntries ← model.entries.mapM encodeEntry
  return "\x7b\"week_start\":".toList ++ asciiText (isoDate model.weekStart) ++ ",\"entries\":[".toList ++
    commaSeparated encodedEntries ++ "]\x7d".toList

/-! ## Reading a body -/

/-- An integer of its token. -/
def tokenInt (token : List Char) : Option Int :=
  match token with
  | '-' :: ds => if ds ≠ [] ∧ ds.all Char.isDigit then some (-Nat.ofDigitChars 10 ds 0) else none
  | ds => if ds ≠ [] ∧ ds.all Char.isDigit then some (Nat.ofDigitChars 10 ds 0) else none

def asString : Document → Option String
  | .str s => some s
  | _ => none

def asInt : Document → Option Int
  | .number token => tokenInt token
  | _ => none

/-- The exact decimal of a number token. -/
def asDecimal : Document → Option Decimal
  | .number token => Decimal.ofText? token
  | _ => none

def readEntry : Document → Option Entry
  | .dict kvs => do
    return {
      warehouse := ← (findKey "warehouse" kvs).bind asString
      clientId := ← (findKey "client_id" kvs).bind asString
      inboundUnitsCount := ← (findKey "inbound_units_count" kvs).bind asInt
      outboundOrdersCount := ← (findKey "outbound_orders_count" kvs).bind asInt
      stockoutEventsCount := ← (findKey "stockout_events_count" kvs).bind asInt
      discrepancyEventsCount := ← (findKey "discrepancy_events_count" kvs).bind asInt
      discrepancyRate := ← (findKey "discrepancy_rate" kvs).bind asDecimal }
  | _ => none

/-- The week and the entries of a document. -/
def readResponse : Document → Option (Int × List Entry)
  | .dict kvs => do
    let week ← (findKey "week_start" kvs).bind asString
    let weekStart ← parseDate week.toList
    match findKey "entries" kvs with
    | some (.list xs) => do
      let entries ← xs.mapM readEntry
      return (weekStart, entries)
    | _ => none
  | _ => none

/-- The entries agree, and their rates are the same number. -/
structure SameEntry (read entry : Entry) : Prop where
  warehouse : read.warehouse = entry.warehouse
  clientId : read.clientId = entry.clientId
  inboundUnitsCount : read.inboundUnitsCount = entry.inboundUnitsCount
  outboundOrdersCount : read.outboundOrdersCount = entry.outboundOrdersCount
  stockoutEventsCount : read.stockoutEventsCount = entry.stockoutEventsCount
  discrepancyEventsCount : read.discrepancyEventsCount = entry.discrepancyEventsCount
  discrepancyRate : read.discrepancyRate.number = entry.discrepancyRate.number

/-! ## Number tokens -/

variable {ds : List Char} {n k : Nat}

theorem isWhole_digits (h : IsWhole ds) : ∀ c ∈ ds, c.isDigit = true := by
  obtain rfl | ⟨d, ds, rfl, hd, -, hds⟩ := h
  · simp
  · exact List.forall_mem_cons.2 ⟨hd, hds⟩

theorem isWhole_zeros (h : IsWhole ds) (hzero : ds ≠ ['0']) : IsWhole (ds ++ List.replicate k '0') := by
  obtain rfl | ⟨d, ds, rfl, hd, hne, hds⟩ := h
  · exact absurd rfl hzero
  · refine .inr ⟨d, ds ++ List.replicate k '0', rfl, hd, hne, fun c hc => ?_⟩
    rcases List.mem_append.1 hc with hc | hc
    · exact hds c hc
    · rw [List.eq_of_mem_replicate hc]
      rfl

theorem isWhole_take (h : IsWhole ds) (hk : 0 < k) : IsWhole (ds.take k) := by
  obtain ⟨k, rfl⟩ : ∃ m, k = m + 1 := ⟨k - 1, by omega⟩
  obtain rfl | ⟨d, ds, rfl, hd, hne, hds⟩ := h
  · exact .inl (by simp)
  · exact .inr ⟨d, ds.take k, rfl, hd, hne, fun c hc => hds c (List.mem_of_mem_take hc)⟩

theorem toDigits_ne_zero (h : n ≠ 0) : Nat.toDigits 10 n ≠ ['0'] := by
  intro heq
  have hvalue := congrArg (fun cs => Nat.ofDigitChars 10 cs 0) heq
  simp only [Nat.ofDigitChars_ten_toDigits] at hvalue
  exact h hvalue

theorem digitsText_token (coefficient : Nat) (exponent : Int) : ∃ whole fraction,
    Decimal.digitsText coefficient exponent = whole ++ fraction ∧ IsWhole whole ∧ IsFraction fraction := by
  have hwhole := Json.isWhole_toDigits coefficient
  unfold Decimal.digitsText
  dsimp only
  by_cases he : 0 ≤ exponent
  · rw [if_pos he]
    by_cases hzero : coefficient = 0
    · exact ⟨Nat.toDigits 10 coefficient, [], by rw [if_pos hzero, List.append_nil], hwhole, .inl rfl⟩
    · exact ⟨_, [], by rw [if_neg hzero, List.append_nil], isWhole_zeros hwhole (toDigits_ne_zero hzero), .inl rfl⟩
  · rw [if_neg he]
    have hplaces : 0 < (-exponent).toNat := by omega
    by_cases hsmall : (-exponent).toNat < (Nat.toDigits 10 coefficient).length
    · rw [if_pos hsmall]
      refine ⟨_, _, rfl, isWhole_take hwhole (by omega), .inr ⟨_, rfl, fun hnil => ?_, fun c hc => ?_⟩⟩
      · have hlen := congrArg List.length hnil
        rw [List.length_drop, List.length_nil] at hlen
        omega
      · exact isWhole_digits hwhole c (List.mem_of_mem_drop hc)
    · rw [if_neg hsmall]
      refine ⟨['0'], _, rfl, .inl rfl, .inr ⟨_, rfl, fun hnil => ?_, fun c hc => ?_⟩⟩
      · exact Nat.toDigits_ne_nil (List.append_eq_nil_iff.1 hnil).2
      · rcases List.mem_append.1 hc with hc | hc
        · rw [List.eq_of_mem_replicate hc]
          rfl
        · exact isWhole_digits hwhole c hc

/-- A finite decimal is written as a number. -/
theorem isNumberText_format {d : Decimal} (h : IsFinite d) : IsNumberText d.format := by
  obtain ⟨negative, coefficient, exponent, rfl⟩ := h
  obtain ⟨whole, fraction, htext, hwhole, hfraction⟩ := digitsText_token coefficient exponent
  refine ⟨Decimal.signText negative, whole, fraction, [], ?_, ?_, hwhole, hfraction, .inl rfl⟩
  · rw [Decimal.format, htext, List.append_nil, List.append_assoc]
  · cases negative
    · exact .inl rfl
    · exact .inr rfl

theorem isNumberText_intText (z : Int) : IsNumberText (intText z) := by
  obtain ⟨sign, hsign, htext⟩ := Json.intText_parts z
  exact ⟨sign, _, [], [], by rw [htext, List.append_nil, List.append_nil], hsign, Json.isWhole_toDigits _, .inl rfl, .inl rfl⟩

theorem tokenInt_intText (z : Int) : tokenInt (intText z) = some z := by
  have hne : Nat.toDigits 10 z.natAbs ≠ [] := Nat.toDigits_ne_nil
  have hall : (Nat.toDigits 10 z.natAbs).all Char.isDigit = true :=
    List.all_eq_true.2 fun c hc => Decimal.isDigit_toDigits hc
  have hvalue : Nat.ofDigitChars 10 (Nat.toDigits 10 z.natAbs) 0 = z.natAbs := Nat.ofDigitChars_ten_toDigits
  unfold intText
  split
  · next hz =>
    rw [tokenInt, if_pos ⟨hne, hall⟩, hvalue]
    exact congrArg some (by omega)
  · next hz =>
    unfold tokenInt
    split
    · next ds hds =>
      rw [hds] at hall
      exact absurd (List.all_eq_true.1 hall '-' List.mem_cons_self) (by decide)
    · rw [if_pos ⟨hne, hall⟩, hvalue]
      exact congrArg some (by omega)

/-! ## The body as a document -/

/-- `json.dumps` writes exactly the integers within the limit of `str`. -/
theorem exists_dumps_iff {data : List (String × Plain)} :
    (∃ cs, dumps data = some cs) ↔ data.all (fun p => p.2.fits) = true := by
  unfold dumps
  split
  · next h => exact ⟨fun _ => h, fun _ => ⟨_, rfl⟩⟩
  · next h => exact ⟨nofun, fun h' => absurd h' h⟩

/-- The document of a value. -/
def Plain.document : Plain → Document
  | .str s => .str s
  | .int z => .number (intText z)

theorem text_document (value : Plain) : value.document.text = value.text := by
  cases value <;> rfl

/-- The items of an entry in the order of their keys, and the rate. -/
def entryItems (entry : Entry) : List (String × Document) :=
  (sortByKey entry.modelDump).map (fun p => (p.1, p.2.document)) ++
    [("discrepancy_rate", .number entry.discrepancyRate.format)]

/-- The document of an entry. -/
def entryDocument (entry : Entry) : Document := .dict (entryItems entry)

/-- The document of a report. -/
def responseDocument (model : Response) : Document :=
  .dict [("week_start", .str (isoDate model.weekStart)),
    ("entries", .list (model.entries.map entryDocument))]

theorem commaSeparated_append {xs : List (List Char)} (h : xs ≠ []) (y : List Char) :
    commaSeparated (xs ++ [y]) = commaSeparated xs ++ ',' :: y := by
  induction xs with
  | nil => exact absurd rfl h
  | cons x xs ih =>
    cases xs with
    | nil => rfl
    | cons z zs =>
      have htext : commaSeparated (x :: z :: zs ++ [y]) = x ++ ',' :: commaSeparated (z :: zs ++ [y]) := rfl
      have htext' : commaSeparated (x :: z :: zs) = x ++ ',' :: commaSeparated (z :: zs) := rfl
      rw [htext, htext', ih (List.cons_ne_nil z zs), List.append_assoc]
      rfl

theorem asciiText_rate : asciiText "discrepancy_rate" = "\"discrepancy_rate\"".toList := by decide

/-- Without its closing brace the text of a dictionary goes on with the rate. -/
theorem encodeEntry_eq {entry : Entry} (h : ∃ cs, dumps entry.modelDump = some cs) :
    encodeEntry entry = some (entryDocument entry).text := by
  obtain ⟨cs, hcs⟩ := h
  have htext : cs = '{' :: (commaSeparated ((sortByKey entry.modelDump).map fun p =>
      asciiText p.1 ++ ':' :: p.2.text) ++ ['}']) := by
    unfold dumps at hcs
    split at hcs
    · exact (Option.some.inj hcs).symm
    · cases hcs
  have hitems : ((sortByKey entry.modelDump).map fun p => (p.1, p.2.document)).map Document.pairText =
      (sortByKey entry.modelDump).map fun p => asciiText p.1 ++ ':' :: p.2.text := by
    rw [List.map_map]
    refine List.map_congr_left fun p _ => ?_
    rw [Function.comp_apply, Document.pairText, text_document]
  have hne : ((sortByKey entry.modelDump).map fun p => asciiText p.1 ++ ':' :: p.2.text) ≠ [] := by
    intro hnil
    have hlen := congrArg List.length hnil
    rw [List.length_map, (Json.perm_sortByKey _).length_eq] at hlen
    cases hlen
  have hdropped : ∀ xs : List Char, ('{' :: (xs ++ ['}'])).dropLast = '{' :: xs := fun xs => by
    rw [← List.cons_append, List.dropLast_concat]
  unfold encodeEntry
  rw [hcs, htext]
  simp only [Option.bind_eq_bind, Option.bind_some, hdropped]
  rw [entryDocument, Document.text, Document.textDict_eq, entryItems, List.map_append, hitems,
    List.map_singleton, commaSeparated_append hne, Document.pairText, asciiText_rate, Document.text]
  simp

theorem mapM_encodeEntry :
    ∀ {entries : List Entry}, (∀ entry ∈ entries, ∃ cs, dumps entry.modelDump = some cs) →
    entries.mapM encodeEntry = some (entries.map fun entry => (entryDocument entry).text)
  | [], _ => rfl
  | entry :: entries, h => by
    rw [List.mapM_cons, encodeEntry_eq (h entry List.mem_cons_self),
      mapM_encodeEntry fun e he => h e (List.mem_cons_of_mem entry he)]
    rfl

/-- The body is the text of a document. -/
theorem weeklyJson_eq {model : Response}
    (h : ∀ entry ∈ model.entries, ∃ cs, dumps entry.modelDump = some cs) :
    weeklyJsonResponse model = some (responseDocument model).text := by
  have hweek : asciiText "week_start" = "\"week_start\"".toList := by decide
  have hentries : asciiText "entries" = "\"entries\"".toList := by decide
  unfold weeklyJsonResponse
  rw [mapM_encodeEntry h]
  simp only [Option.bind_eq_bind, Option.bind_some]
  rw [responseDocument, Document.text, Document.textDict_eq, List.map_cons, List.map_singleton,
    Document.pairText, Document.pairText, hweek, hentries, Document.text, Document.text,
    Document.textList_eq, List.map_map]
  simp [commaSeparated, Function.comp_def]

/-! ## The report from the body -/

theorem valid_entryDocument {entry : Entry} (h : IsFinite entry.discrepancyRate) :
    (entryDocument entry).Valid := by
  refine Document.validDict_iff.2 fun p hp => ?_
  rcases List.mem_append.1 hp with hp | hp
  · obtain ⟨q, -, rfl⟩ := List.mem_map.1 hp
    dsimp only
    cases q.2 with
    | str s => trivial
    | int z => exact isNumberText_intText z
  · rw [List.mem_singleton.1 hp]
    exact isNumberText_format h

theorem valid_responseDocument (model : Response) : (responseDocument model).Valid := by
  refine Document.validDict_iff.2 fun p hp => ?_
  rcases List.mem_pair.1 hp with rfl | rfl
  · trivial
  · refine Document.validList_iff.2 fun d hd => ?_
    obtain ⟨entry, hentry, rfl⟩ := List.mem_map.1 hd
    exact valid_entryDocument (model.finite entry hentry)

/-- The keys in order. -/
theorem entryItems_eq (entry : Entry) : entryItems entry =
    [("client_id", .str entry.clientId),
      ("discrepancy_events_count", .number (intText entry.discrepancyEventsCount)),
      ("inbound_units_count", .number (intText entry.inboundUnitsCount)),
      ("outbound_orders_count", .number (intText entry.outboundOrdersCount)),
      ("stockout_events_count", .number (intText entry.stockoutEventsCount)),
      ("warehouse", .str entry.warehouse),
      ("discrepancy_rate", .number entry.discrepancyRate.format)] := by
  simp [entryItems, Entry.modelDump, sortByKey, List.insertionSort, List.orderedInsert, Plain.document]

theorem readEntry_eq (entry : Entry) :
    readEntry (entryDocument entry) =
      some { entry with discrepancyRate := entry.discrepancyRate.rescaled } := by
  have hwarehouse : findKey "warehouse" (entryItems entry) = some (.str entry.warehouse) :=
    by rw [entryItems_eq]; rfl
  have hclient : findKey "client_id" (entryItems entry) = some (.str entry.clientId) :=
    by rw [entryItems_eq]; rfl
  have hinbound : findKey "inbound_units_count" (entryItems entry) =
      some (.number (intText entry.inboundUnitsCount)) := by
    rw [entryItems_eq]; rfl
  have houtbound : findKey "outbound_orders_count" (entryItems entry) =
      some (.number (intText entry.outboundOrdersCount)) := by
    rw [entryItems_eq]; rfl
  have hstockout : findKey "stockout_events_count" (entryItems entry) =
      some (.number (intText entry.stockoutEventsCount)) := by
    rw [entryItems_eq]; rfl
  have hdiscrepancy : findKey "discrepancy_events_count" (entryItems entry) =
      some (.number (intText entry.discrepancyEventsCount)) := by
    rw [entryItems_eq]; rfl
  have hrate : findKey "discrepancy_rate" (entryItems entry) =
      some (.number entry.discrepancyRate.format) := by
    rw [entryItems_eq]; rfl
  unfold entryDocument readEntry
  simp only [hwarehouse, hclient, hinbound, houtbound, hstockout, hdiscrepancy, hrate,
    Option.bind_eq_bind, Option.bind_some, asString, asInt, asDecimal, tokenInt_intText,
    Decimal.ofText_format]
  rfl

theorem readEntries_eq : ∀ entries : List Entry, (entries.map entryDocument).mapM readEntry =
    some (entries.map fun entry => { entry with discrepancyRate := entry.discrepancyRate.rescaled })
  | [] => rfl
  | entry :: entries => by
    rw [List.map_cons, List.mapM_cons, readEntry_eq, readEntries_eq entries]
    rfl

theorem readResponse_eq (model : Response) : readResponse (responseDocument model) =
    some (model.weekStart, model.entries.map fun entry =>
        { entry with discrepancyRate := entry.discrepancyRate.rescaled }) := by
  have hdate : parseDate (isoDate model.weekStart).toList = some model.weekStart := by
    have hchars : (isoDate model.weekStart).toList = dateChars model.weekStart := by
      simp [isoDate_eq, dateChars, padded]
    rw [hchars]
    exact parseDate_dateChars model.inRange.1 model.inRange.2
  have hentries := readEntries_eq model.entries
  have hweek : ∀ x y : Document, findKey "week_start" [("week_start", x), ("entries", y)] =
      some x := fun _ _ => rfl
  have hlist : ∀ x y : Document, findKey "entries" [("week_start", x), ("entries", y)] = some y :=
    fun _ _ => rfl
  unfold readResponse responseDocument
  simp only [hweek, Option.bind_some, asString, Option.bind_eq_bind, hdate, hlist, hentries]
  rfl

theorem sameEntry_rescaled (entry : Entry) :
    SameEntry { entry with discrepancyRate := entry.discrepancyRate.rescaled } entry where
  warehouse := rfl
  clientId := rfl
  inboundUnitsCount := rfl
  outboundOrdersCount := rfl
  stockoutEventsCount := rfl
  discrepancyEventsCount := rfl
  discrepancyRate := Decimal.number_rescaled entry.discrepancyRate

/-- Where `json.dumps` writes the entries, the body is a document that says the week and the entries
of the report in their order, with each rate as a number token of the same number. -/
theorem weekly_json_faithful (model : Response)
    (hdumps : ∀ entry ∈ model.entries, ∃ cs, dumps entry.modelDump = some cs) :
    ∃ body, weeklyJsonResponse model = some body ∧ ∃ document, Document.loadsTokens body = some document ∧
      ∃ entries, readResponse document = some (model.weekStart, entries) ∧
      List.Forall₂ SameEntry entries model.entries := by
  refine ⟨_, weeklyJson_eq hdumps, _, Document.loadsTokens_text (valid_responseDocument model), _,
    readResponse_eq model, ?_⟩
  rw [List.forall₂_map_left_iff, List.forall₂_same]
  exact fun entry _ => sameEntry_rescaled entry

/-- A report with strings to escape and rates with exponents. -/
def sampleResponse : Response where
  weekStart := 20458
  entries := [⟨"Zaragoza \"Ñ\" 😀", "c\n1", 10, 0, 3, 3, .finite true 5 (-8)⟩,
    ⟨"", "", 0, 0, 0, 0, .finite false 1 2⟩]
  inRange := by decide
  finite := by
    intro entry hentry
    rcases List.mem_pair.1 hentry with rfl | rfl
    · exact ⟨_, _, _, rfl⟩
    · exact ⟨_, _, _, rfl⟩

theorem weekly_json_faithful_sample : (weeklyJsonResponse sampleResponse).isSome ∧
    ∃ body, weeklyJsonResponse sampleResponse = some body ∧ ∃ document, Document.loadsTokens body =
      some document ∧ ∃ entries, readResponse document = some (20458, entries) ∧
      List.Forall₂ SameEntry entries sampleResponse.entries := by
  refine ⟨by decide +kernel, weekly_json_faithful sampleResponse fun entry hentry => exists_dumps_iff.2 ?_⟩
  rcases List.mem_pair.1 hentry with rfl | rfl
  · decide
  · decide

end TrackFlow.Reporting
