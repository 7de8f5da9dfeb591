import TrackFlow.Python.Numbers

/-!
# Incident records

The rules for a record of the incident CSV, field by field, as `validate_record` checks them. A
record gives each field a text or nothing (`Record`); a check appends at most one error code.
-/

namespace TrackFlow.Incidents

open TrackFlow.Python

/-! ## Fields and error codes -/

/-- `ALL_FIELDS`. -/
inductive Field
  | incidentId
  | date
  | country
  | customerType
  | trackingNumber
  | carrier
  | category
  | description
  | status
  | customerEmail
  | satisfactionScore
  deriving DecidableEq

/-- A record; `record.get(field)` may be `None`. -/
abbrev Record : Type := Field → Option String

/-- The error codes. -/
inductive Code
  | missingIncidentId
  | invalidIncidentId
  | missingDate
  | invalidDate
  | missingCountry
  | invalidCountry
  | missingCustomerType
  | invalidCustomerType
  | missingTrackingNumber
  | shortTrackingNumber
  | missingCarrier
  | invalidCarrierForCountry
  | missingCategory
  | invalidCategory
  | missingDescription
  | shortDescription
  | missingStatus
  | invalidStatus
  | missingCustomerEmail
  | invalidCustomerEmail
  | missingSatisfactionScoreForClosed
  | invalidSatisfactionScore
  deriving DecidableEq

/-- The text of an error code. -/
def Code.text : Code → String
  | .missingIncidentId => "MISSING_INCIDENT_ID"
  | .invalidIncidentId => "INVALID_INCIDENT_ID"
  | .missingDate => "MISSING_DATE"
  | .invalidDate => "INVALID_DATE"
  | .missingCountry => "MISSING_COUNTRY"
  | .invalidCountry => "INVALID_COUNTRY"
  | .missingCustomerType => "MISSING_CUSTOMER_TYPE"
  | .invalidCustomerType => "INVALID_CUSTOMER_TYPE"
  | .missingTrackingNumber => "MISSING_TRACKING_NUMBER"
  | .shortTrackingNumber => "SHORT_TRACKING_NUMBER"
  | .missingCarrier => "MISSING_CARRIER"
  | .invalidCarrierForCountry => "INVALID_CARRIER_FOR_COUNTRY"
  | .missingCategory => "MISSING_CATEGORY"
  | .invalidCategory => "INVALID_CATEGORY"
  | .missingDescription => "MISSING_DESCRIPTION"
  | .shortDescription => "SHORT_DESCRIPTION"
  | .missingStatus => "MISSING_STATUS"
  | .invalidStatus => "INVALID_STATUS"
  | .missingCustomerEmail => "MISSING_CUSTOMER_EMAIL"
  | .invalidCustomerEmail => "INVALID_CUSTOMER_EMAIL"
  | .missingSatisfactionScoreForClosed => "MISSING_SATISFACTION_SCORE_FOR_CLOSED"
  | .invalidSatisfactionScore => "INVALID_SATISFACTION_SCORE"

/-! ## Patterns -/

/-- `\d`: a decimal digit of any script. -/
def isDecimal (c : Char) : Bool := decimalZeros.any fun z => z ≤ c.toNat && c.toNat < z + 10

/-- A part of a pattern. -/
inductive Atom
  | literal (c : Char)
  | digit
  deriving DecidableEq

/-- `pattern.match` of `^…$`; `$` also stands before a line feed that ends the text. -/
def matchPattern : List Atom → List Char → Bool
  | [], cs => cs == [] || cs == ['\n']
  | .literal a :: ps, c :: cs => a == c && matchPattern ps cs
  | .digit :: ps, c :: cs => isDecimal c && matchPattern ps cs
  | _ :: _, [] => false

/-- `n` digits. -/
def digits (n : Nat) : List Atom := List.replicate n .digit

/-- `INCIDENT_ID_PATTERN`. -/
def incidentIdPattern : List Atom :=
  .literal 'T' :: .literal 'R' :: .literal 'F' :: .literal '-' :: digits 6

/-- `DATE_PATTERN`. -/
def datePattern : List Atom := digits 4 ++ .literal '-' :: (digits 2 ++ .literal '-' :: digits 2)

/-! ## Valid values -/

def validCountries : List String := ["US", "ES"]

def validCustomerTypes : List String := ["B2B", "B2C"]

def validCategories : List String :=
  ["LOST_PARCEL", "DELAYED_DELIVERY", "WRONG_ADDRESS", "RETURN_REQUEST", "DAMAGE"]

def validStatuses : List String := ["OPEN", "CLOSED", "DISCARDED"]

/-- `CARRIERS_BY_COUNTRY`. -/
def carriersByCountry : String → Option (List String)
  | "US" => some ["UPS", "FEDEX", "DHL_US"]
  | "ES" => some ["MRW", "SEUR", "DHL_ES", "LOCAL_ES"]
  | _ => none

def allCarriers : List String := ["UPS", "FEDEX", "DHL_US", "MRW", "SEUR", "DHL_ES", "LOCAL_ES"]

def minTrackingLength : Nat := 8

def minDescriptionLength : Nat := 5

def minSatisfactionScore : Int := 1

def maxSatisfactionScore : Int := 5

/-- `is_missing`. -/
def isMissing : Option String → Bool
  | none => true
  | some s => isBlank s

/-! ## Checks -/

/-- A field that must not be missing, and whose text must be accepted. -/
def check (field : Field) (missing invalid : Code) (accepts : String → Bool) (record : Record) :
    List Code :=
  match record field with
  | none => [missing]
  | some value => if isBlank value then [missing] else if accepts value then [] else [invalid]

/-- `_validate_incident_id`. -/
def validateIncidentId : Record → List Code :=
  check .incidentId .missingIncidentId .invalidIncidentId fun value =>
      matchPattern incidentIdPattern value.toList

/-- `_validate_date`. -/
def validateDate : Record → List Code :=
  check .date .missingDate .invalidDate fun value => matchPattern datePattern value.toList

/-- `_validate_country`. -/
def validateCountry : Record → List Code :=
  check .country .missingCountry .invalidCountry fun value => value ∈ validCountries

/-- `_validate_customer_type`. -/
def validateCustomerType : Record → List Code :=
  check .customerType .missingCustomerType .invalidCustomerType fun value => value ∈ validCustomerTypes

/-- `_validate_tracking_number`. -/
def validateTrackingNumber : Record → List Code :=
  check .trackingNumber .missingTrackingNumber .shortTrackingNumber fun value =>
    minTrackingLength ≤ value.length

/-- The carriers that are accepted with a country: all of them if the country is missing or unknown. -/
def carriersFor (country : Option String) : List String := (country.bind carriersByCountry).getD allCarriers

/-- `_validate_carrier`. -/
def validateCarrier (record : Record) : List Code :=
  check .carrier .missingCarrier .invalidCarrierForCountry (fun value => value ∈
    carriersFor (record .country)) record

/-- `_validate_category`. -/
def validateCategory : Record → List Code :=
  check .category .missingCategory .invalidCategory fun value => value ∈ validCategories

/-- `_validate_description`. -/
def validateDescription : Record → List Code :=
  check .description .missingDescription .shortDescription fun value => minDescriptionLength ≤ value.length

/-- `_validate_status`. -/
def validateStatus : Record → List Code :=
  check .status .missingStatus .invalidStatus fun value => value ∈ validStatuses

/-- `_validate_customer_email`. -/
def validateCustomerEmail : Record → List Code :=
  check .customerEmail .missingCustomerEmail .invalidCustomerEmail fun value => '@' ∈ value.toList

/-- A text that `int` reads as a score. -/
def isScore (value : String) : Bool := (int? value).any fun score => minSatisfactionScore ≤ score ∧
    score ≤ maxSatisfactionScore

/-- `_validate_satisfaction_score`: a closed incident needs a score. -/
def validateSatisfactionScore (record : Record) : List Code :=
  if record .status = some "CLOSED" ∧ isMissing (record .satisfactionScore) then
      [.missingSatisfactionScoreForClosed]
  else
    match record .satisfactionScore with
    | none => []
    | some value => if isBlank value ∨ isScore value then [] else [.invalidSatisfactionScore]

/-- `validate_record`. -/
def validateRecord (record : Record) : Bool × List Code :=
  let errors := validateIncidentId record ++ validateDate record ++ validateCountry record ++
    validateCustomerType record ++ validateTrackingNumber record ++ validateCarrier record ++
    validateCategory record ++ validateDescription record ++ validateStatus record ++
    validateCustomerEmail record ++ validateSatisfactionScore record
  (errors.length == 0, errors)

/-! ## What the checks say -/

variable {field : Field} {missing invalid : Code} {accepts : String → Bool} {record : Record} {code : Code}

/-- A check passes exactly for a text that is not blank and is accepted. -/
theorem check_eq_nil : check field missing invalid accepts record = [] ↔
    ∃ value, record field = some value ∧ isBlank value = false ∧ accepts value = true := by
  unfold check
  cases record field with
  | none => simp
  | some value =>
    by_cases hblank : isBlank value = true
    · simp [hblank]
    · by_cases haccepts : accepts value = true
      · simp [hblank, haccepts]
      · simp [hblank, haccepts]

/-- A check reports one of its two codes, once. -/
theorem check_cases : check field missing invalid accepts record = [] ∨
    check field missing invalid accepts record = [missing] ∨
      check field missing invalid accepts record = [invalid] := by
  unfold check
  cases record field with
  | none => exact .inr (.inl rfl)
  | some value =>
    dsimp only
    split
    · exact .inr (.inl rfl)
    · split
      · exact .inl rfl
      · exact .inr (.inr rfl)

/-- The score passes exactly if it is a score, or missing of an incident that is not closed. -/
theorem validateSatisfactionScore_eq_nil : validateSatisfactionScore record = [] ↔
    (∃ value, record .satisfactionScore = some value ∧ isScore value = true) ∨
      isMissing (record .satisfactionScore) = true ∧ record .status ≠ some "CLOSED" := by
  unfold validateSatisfactionScore
  cases hscore : record .satisfactionScore with
  | none =>
    by_cases hclosed : record .status = some "CLOSED"
    · simp [hclosed, isMissing]
    · simp [hclosed, isMissing]
  | some value =>
    have hblank : isBlank value = true → isScore value = false :=
      fun h => by rw [isScore, int_of_blank h]; rfl
    by_cases hb : isBlank value = true
    · by_cases hclosed : record .status = some "CLOSED"
      · simp [hclosed, isMissing, hb, hblank hb]
      · simp [hclosed, isMissing, hb, hblank hb]
    · by_cases hs : isScore value = true
      · simp [isMissing, hb, hs]
      · simp [isMissing, hb, hs]

/-- No error means that every check passed. -/
theorem validateRecord_valid : (validateRecord record).1 = true ↔
    validateIncidentId record = [] ∧ validateDate record = [] ∧ validateCountry record = [] ∧
      validateCustomerType record = [] ∧ validateTrackingNumber record = [] ∧ validateCarrier record =
      [] ∧ validateCategory record = [] ∧ validateDescription record = [] ∧ validateStatus record = [] ∧
      validateCustomerEmail record = [] ∧ validateSatisfactionScore record = [] := by
  simp only [validateRecord, beq_iff_eq, List.length_eq_zero_iff, List.append_eq_nil_iff, and_assoc]

end TrackFlow.Incidents
