import TrackFlow.Jobs.NightlyRun
import TrackFlow.Python.Csv
import TrackFlow.Python.Decimals
import TrackFlow.Python.IsoFormat
import TrackFlow.Python.Json
import TrackFlow.Python.UuidOrder

/-!
# The daily CSV

`publish_csv_rows` writes the telemetry of a UTC day to a temporary file and links it to its final name, and
`validate_existing_csv` decides whether a final file may be reused. Dates are days and instants
microseconds since 1970-01-01. What happens outside of the script while a file is published is an
argument (`Outside`).
-/

namespace TrackFlow.Jobs.NightlyCsv

open TrackFlow.Python TrackFlow.Python.Raising
open TrackFlow.Python.Csv (Field)

variable {F : Floats}

/-! ## Exceptions -/

/-- `CsvArtifactError`. -/
def artifactError (message : String) : Raised := .nightly .csvArtifactError message

def valueError : Raised := .exception "ValueError"

def overflowError : Raised := .exception "OverflowError"

def invalidOperation : Raised := .exception "InvalidOperation"

/-- What an operation on `None` raises. -/
def attributeError : Raised := .exception "AttributeError"

def typeError : Raised := .exception "TypeError"

def csvError : Raised := .exception "Error"

/-- An exception of one of these classes is raised again as a `CsvArtifactError`. -/
def asArtifactError (classes : List String) (message : String) : Raised → Raised
  | .exception name => if name ∈ classes then artifactError message else .exception name
  | e => e

/-! ## Timestamps -/

/-- `_utc_timestamp`. -/
def utcTimestamp : PyValue → Except Raised Int
  | .aware t => if minDate ≤ dateOf t ∧ dateOf t ≤ maxDate then .ok t else .error overflowError
  | _ => .error valueError

/-- `_format_utc`. -/
def formatUtc (t : Int) : List Char :=
  replaceFrom ['+', '0', '0', ':', '0', '0'] ['Z'] 0 (isoFormat t).toList

/-- `_parse_csv_timestamp`. -/
def parseCsvTimestamp (value : Field) : Except Raised Int :=
  match fromIsoFormat (String.ofList (replaceFrom ['Z'] ['+', '0', '0', ':', '0', '0'] 0 value)) with
  | some parsed => utcTimestamp parsed
  | none => .error valueError

/-! ## Rows -/

/-- `CSV_COLUMNS`. -/
def csvColumns : List Field :=
  [['i', 'd'], ['t', 'i', 'm', 'e', 's', 't', 'a', 'm', 'p'], ['s', 'e', 'r', 'v', 'i', 'c', 'e'],
    ['e', 'v', 'e', 'n', 't', '_', 't', 'y', 'p', 'e'], ['l', 'e', 'v', 'e', 'l'],
    ['v', 'a', 'l', 'u', 'e'], ['m', 'e', 's', 's', 'a', 'g', 'e'], ['t', 'a', 'g', 's']]

/-- A row of `telemetry_events`; the keys of a dictionary are different. -/
structure Row (F : Floats) where
  id : Uuid
  timestamp : PyValue
  service : String
  eventType : String
  level : Option String
  value : Option Decimal
  message : Option String
  tags : Json F
  distinct : tags.distinct = true

/-- The text of a text column. -/
def textOrEmpty (s : Option String) : Field := (s.getD "").toList

/-- The text of a value. -/
def valueText : Option Decimal → Field
  | none => []
  | some d => d.format

/-- The `try` of `serialize_telemetry_row`. -/
def serializeRow (row : Row F) (targetDate : Int) : Except Raised (List Field) := do
  let eventId ← match Uuid.ofString? row.id.str with
    | some id => .ok id.str
    | none => .error valueError
  let timestamp ← utcTimestamp row.timestamp
  if dateOf timestamp ≠ targetDate then .error valueError
  else
    match row.tags.dumps with
    | none => .error valueError
    | some tags =>
      .ok [eventId.toList, formatUtc timestamp, row.service.toList, row.eventType.toList,
        textOrEmpty row.level, valueText row.value, textOrEmpty row.message, tags]

/-- `serialize_telemetry_row`, with the values in the order of the columns. -/
def serializeTelemetryRow (row : Row F) (targetDate : Int) : Except Raised (List Field) :=
  (serializeRow row targetDate).mapError
    (asArtifactError ["KeyError", "TypeError", "ValueError", "InvalidOperation"]
      "telemetry row could not be serialized")

/-! ## Validation -/

/-- `event_id.int`. -/
def idNumber (u : Uuid) : Nat := number u.digits

/-- `(timestamp, event_id.int)`. -/
abbrev Key : Type := Int × Nat

/-- `a < b` of two keys. -/
def Key.lt (a b : Key) : Bool := a.1 < b.1 || (a.1 == b.1 && a.2 < b.2)

/-- The checks of a row, whose missing fields are `None`: its key. -/
def validateRow (F : Floats) (targetDate : Int) (previous : Option Key) (row : List Field) :
    Except Raised Key := do
  if csvColumns.length < row.length then
      .error (artifactError "existing daily CSV has an invalid row shape")
  else
    let eventId ← match Uuid.ofString? (String.ofList (row.headD [])) with
      | some id => .ok id
      | none => .error valueError
    let timestamp ← match row[1]? with
      | some value => parseCsvTimestamp value
      | none => .error attributeError
    if ¬(midnight targetDate ≤ timestamp ∧ timestamp < midnight (targetDate + 1)) then
      .error (artifactError "existing daily CSV contains an out-of-range row")
    else
      let key : Key := (timestamp, idNumber eventId)
      if previous.any (Key.lt key) then .error (artifactError "existing daily CSV rows are not ordered")
      else
        match row[5]?.getD [] with
        | [] => .ok ()
        | value => match Decimal.ofText? value with
          | some _ => .ok ()
          | none => .error invalidOperation
        match row[7]? with
        | some tags => match (Json.loads tags : Option (Json F)) with
          | some _ => .ok key
          | none => .error valueError
        | none => .error typeError

/-- The loop over the rows, and the error of the reader after them; `DictReader` passes over empty rows. -/
def validateRows (F : Floats) (targetDate : Int) (failure : Option Csv.Error) :
    Option Key → Nat → List (List Field) → Except Raised Nat
  | _, count, [] => match failure with
    | some _ => .error csvError
    | none => .ok count
  | previous, count, [] :: rows => validateRows F targetDate failure previous count rows
  | previous, count, row :: rows => do
    let key ← validateRow F targetDate previous row
    validateRows F targetDate failure (some key) (count + 1) rows

/-- A file: UTF-8 text, or bytes that are none. -/
inductive Content
  | text (cs : List Char)
  | undecodable

/-- The `try` of `validate_existing_csv`. -/
def validateContent (F : Floats) (targetDate : Int) : Content → Except Raised Nat
  | .undecodable => .error (.exception "UnicodeDecodeError")
  | .text cs =>
    match Csv.reader Csv.fieldSizeLimit cs with
    | ([], some _) => .error csvError
    | ([], none) => .error (artifactError "existing daily CSV has an invalid header")
    | (header :: rows, failure) =>
      if header ≠ csvColumns then .error (artifactError "existing daily CSV has an invalid header")
      else validateRows F targetDate failure none 0 rows

/-- `validate_existing_csv`: the number of rows. The end of the day is computed first. -/
def validateExistingCsv (F : Floats) (content : Content) (targetDate : Int) : Except Raised Nat :=
  if maxDate < targetDate + 1 then .error overflowError
  else
    (validateContent F targetDate content).mapError
      (asArtifactError ["OSError", "UnicodeDecodeError", "ValueError", "InvalidOperation", "Error"]
        "existing daily CSV is corrupt")

/-! ## Publication -/

/-- The final file of a day, and the temporary file. -/
structure Files where
  final : Option Content
  temporary : Option (List Char) := none

/-- What happens outside: what reading the rows raises after the last of them, what the file system
raises before the link, what another process linked to the final name in the meantime, and whether
the file system refuses the link. -/
structure Outside where
  fetched : Option Raised := none
  stored : Option Raised := none
  published : Option Content := none
  refused : Bool := false

/-- A program on the files. -/
abbrev Step (α : Type) : Type := Raising Files Raised α

/-- Text is written to the temporary file. -/
def write (cs : List Char) : Step Unit :=
  modify fun files => { files with temporary := files.temporary.map (· ++ cs) }

/-- The loop over the rows. -/
def writeRows (targetDate : Int) : List (Row F) → Step Unit
  | [] => pure ()
  | row :: rows => do
    let fields ← ofExcept (serializeTelemetryRow row targetDate)
    write (Csv.rowText fields)
    writeRows targetDate rows

/-- What the file system or the database raises, if anything. -/
def mayRaise : Option Raised → Step Unit
  | some e => raise e
  | none => pure ()

/-- `os.link`. -/
def link (F : Floats) (o : Outside) (targetDate : Int) : Step Unit := do
  match o.published with
  | some content =>
    modify fun files => { files with final := some content }
    let _ ← ofExcept (validateExistingCsv F content targetDate)
    return ()
  | none =>
    if o.refused then raise (artifactError "atomic hard-link publication failed")
    else modify fun files => { files with final := files.temporary.map .text }

/-- The `try` of `publish_csv_rows`. -/
def publishBody (o : Outside) (targetDate : Int) (rows : List (Row F)) : Step Unit := do
  write (Csv.rowText csvColumns)
  writeRows targetDate rows
  mayRaise o.fetched
  mayRaise o.stored
  link F o targetDate

/-- `publish_csv_rows`. -/
def publishCsvRows (o : Outside) (targetDate : Int) (rows : List (Row F)) : Step Unit := do
  let files ← get
  match files.final with
  | some content =>
    let _ ← ofExcept (validateExistingCsv F content targetDate)
    return ()
  | none =>
    modify fun files => { files with temporary := some [] }
    let result ← attempt (publishBody o targetDate rows)
    modify fun files => { files with temporary := none }
    match result with
    | .ok _ => return ()
    | .error e => raise (asArtifactError ["OSError", "TypeError", "ValueError", "Error"] "daily CSV creation failed" e)

/-! ## Decoding -/

/-- A row of a file. -/
structure Event (F : Floats) where
  id : Uuid
  timestamp : Int
  service : String
  eventType : String
  level : String
  value : Option Decimal
  message : String
  tags : Json F

/-- The value of a field, `None` when it is empty. -/
def decodeValue : Field → Option (Option Decimal)
  | [] => some none
  | cs => (Decimal.ofText? cs).map some

/-- A row is decoded by the functions that read its columns. -/
def decodeRow (F : Floats) : List Field → Option (Event F)
  | [id, timestamp, service, eventType, level, value, message, tags] => do
    let id ← Uuid.ofString? (String.ofList id)
    let timestamp ← (parseCsvTimestamp timestamp).toOption
    let value ← decodeValue value
    let tags ← Json.loads tags
    return ⟨id, timestamp, String.ofList service, String.ofList eventType, String.ofList level, value,
      String.ofList message, tags⟩
  | _ => none

/-- A file is decoded. -/
def decode (F : Floats) : Content → Option (List (Event F))
  | .undecodable => none
  | .text cs =>
    match Csv.reader Csv.fieldSizeLimit cs with
    | (header :: rows, none) => if header = csvColumns then rows.mapM (decodeRow F) else none
    | _ => none

end TrackFlow.Jobs.NightlyCsv
