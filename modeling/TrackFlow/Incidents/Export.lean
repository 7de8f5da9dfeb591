import TrackFlow.Incidents.Analysis
import TrackFlow.Python.Csv
import TrackFlow.Python.Sorting

/-!
# The exported analysis

`export_results_csv` writes the counts of an analysis as rows of a section, a metric and a value.
The metric of an error code is its label, and two pairs of codes share a label: the codes of a
category and those of an e-mail address.

- `sortedItems_eq`: the sorted items of a dictionary, by its sorted keys;
- `exportRows_eq`: the rows of an analysis, section by section.
-/

namespace TrackFlow.Incidents

open TrackFlow.Python

/-! ## Definitions -/

/-- `ERROR_LABELS`. -/
def Code.label : Code → String
  | .missingIncidentId => "Missing incident ID"
  | .invalidIncidentId => "Invalid incident ID format"
  | .missingDate => "Missing date"
  | .invalidDate => "Invalid date format"
  | .missingCountry => "Missing country"
  | .invalidCountry => "Invalid country"
  | .missingCustomerType => "Missing customer type"
  | .invalidCustomerType => "Invalid customer type"
  | .missingTrackingNumber => "Missing tracking number"
  | .shortTrackingNumber => "Invalid tracking number"
  | .missingCarrier => "Missing carrier"
  | .invalidCarrierForCountry => "Carrier/country mismatch"
  | .missingCategory => "Invalid or missing category"
  | .invalidCategory => "Invalid or missing category"
  | .missingDescription => "Missing description"
  | .shortDescription => "Description too short"
  | .missingStatus => "Missing status"
  | .invalidStatus => "Invalid status"
  | .missingCustomerEmail => "Invalid or missing email"
  | .invalidCustomerEmail => "Invalid or missing email"
  | .missingSatisfactionScoreForClosed => "Closed incident, no score"
  | .invalidSatisfactionScore => "Invalid satisfaction score"

/-- A row of the file. -/
abbrev Row : Type := String × String × String

/-- `sorted(d.items())`, with the keys compared by their texts. -/
def sortedItems {κ : Type} (f : κ → String) (items : List (κ × Nat)) : List (κ × Nat) :=
  sortedBy (fun p q => pairLe textLe (fun m n : Nat => decide (m ≤ n)) (f p.1, p.2) (f q.1, q.2)) items

/-- The rows of a breakdown by value. -/
def breakdownRows (sectionName : String) (breakdown : Dict String Nat) : List Row :=
  (sortedItems id breakdown.items).map fun p => (sectionName, p.1, p.2.repr)

/-- The rows of the error codes. -/
def invalidRows (breakdown : Dict Code Nat) : List Row :=
  (sortedItems Code.text breakdown.items).map fun p => ("invalid", p.1.label, p.2.repr)

/-- The rows of the totals. -/
def generalRows (a : Analysis) : List Row :=
  [("general", "total_records", a.totalRecords.repr), ("general", "valid_records", a.validRecords.repr),
    ("general", "invalid_records", a.invalidRecords.repr)]

/-- The rows of the satisfaction. -/
def satisfactionRows (a : Analysis) : List Row :=
  ("satisfaction", "closed_scored", a.closedScored.repr) ::
    ([1, 2, 3, 4, 5].map fun score : Int =>
      ("satisfaction", "score_" ++ toString score, (a.scoreDistribution.getD score 0).repr)) ++
    [("satisfaction", "average_satisfaction", floatText a.averageSatisfaction)]

/-- The rows that `export_results_csv` collects. -/
def exportRows (a : Analysis) : List Row :=
  generalRows a ++ invalidRows a.invalidBreakdown ++ breakdownRows "category" a.categoryBreakdown ++
    breakdownRows "status" a.statusBreakdown ++ breakdownRows "country" a.countryBreakdown ++
      satisfactionRows a

/-- The fields of a row. -/
def Row.fields (row : Row) : List Csv.Field := [row.1.toList, row.2.1.toList, row.2.2.toList]

/-- The text that `export_results_csv` writes. -/
def exportResultsCsv (a : Analysis) : List Char :=
  Csv.rowsText (Row.fields ("section", "metric", "value") :: (exportRows a).map Row.fields)

/-! ## Sorted items -/

section Sorted

variable {κ : Type} [DecidableEq κ]

/-- The sorted items of a dictionary, by its sorted keys. -/
theorem sortedItems_eq (d : Dict κ Nat) {f : κ → String} {keys : List κ} (hperm : d.keys.Perm keys)
    (hsorted : keys.Pairwise fun k l => f k < f l) :
    sortedItems f d.items = keys.map fun k => (k, d.getD k 0) := by
  have hlinear := linear_textLe.pair (LinearLe.ofOrder (α := Nat))
  have hnodup : (keys.map f).Nodup := List.pairwise_map.2 (hsorted.imp fun h => ne_of_lt h)
  have hitems : d.items.Perm (keys.map fun k => (k, d.getD k 0)) := by
    rw [d.items_eq 0]
    exact hperm.map _
  have : Std.Total fun p q : κ × Nat =>
      pairLe textLe (fun m n : Nat => decide (m ≤ n)) (f p.1, p.2) (f q.1, q.2) = true :=
    ⟨fun _ _ => hlinear.total _ _⟩
  have : IsTrans (κ × Nat) fun p q =>
      pairLe textLe (fun m n : Nat => decide (m ≤ n)) (f p.1, p.2) (f q.1, q.2) = true :=
    ⟨fun _ _ _ => hlinear.trans _ _ _⟩
  refine ((perm_sortedBy _ _).trans hitems).eq_of_pairwise (fun p q hp hq hpq hqp => ?_)
    (List.pairwise_insertionSort _ _) ?_
  · -- The texts tell the keys apart.
    have hkeys : ∀ p ∈ d.items, p.1 ∈ keys := fun p hp => hperm.mem_iff.1 (List.mem_map_of_mem hp)
    obtain ⟨htext, hcount⟩ := Prod.mk.inj (hlinear.antisymm _ _ hpq hqp)
    have hp' := hkeys p ((perm_sortedBy _ _).mem_iff.1 hp)
    have hq' := hkeys q (hitems.mem_iff.2 hq)
    exact Prod.ext (List.inj_on_of_nodup_map hnodup hp' hq' htext) hcount
  · refine List.pairwise_map.2 (hsorted.imp fun {k l} h => ?_)
    show (if f k = f l then decide (d.getD k 0 ≤ d.getD l 0) else textLe (f k) (f l)) = true
    rw [if_neg (ne_of_lt h)]
    exact decide_eq_true h.le

end Sorted

/-! ## The rows of an analysis -/

/-- The error codes in the order of their texts. -/
def sortedCodes : List Code :=
  [.invalidCarrierForCountry, .invalidCategory, .invalidCountry, .invalidCustomerEmail,
    .invalidCustomerType, .invalidDate, .invalidIncidentId, .invalidSatisfactionScore, .invalidStatus,
    .missingCarrier, .missingCategory, .missingCountry, .missingCustomerEmail, .missingCustomerType,
    .missingDate, .missingDescription, .missingIncidentId, .missingSatisfactionScoreForClosed,
    .missingStatus, .missingTrackingNumber, .shortDescription, .shortTrackingNumber]

theorem sortedCodes_pairwise : sortedCodes.Pairwise fun c d => c.text < d.text := by decide +kernel

theorem mem_sortedCodes (code : Code) : code ∈ sortedCodes := by
  cases code <;> decide

variable {records records' : List Record} {code : Code}

/-- A code is reported for one of the records. -/
def Reported (records : List Record) (code : Code) : Prop :=
  ∃ record ∈ records, code ∈ (validateRecord record).2

theorem mem_errorsOf : code ∈ errorsOf records ↔ Reported records code := List.mem_flatMap

/-- The reported codes in order. -/
def reportedCodes (records : List Record) : List Code :=
  sortedCodes.filter fun code => code ∈ errorsOf records

theorem mem_reportedCodes : code ∈ reportedCodes records ↔ Reported records code := by
  rw [reportedCodes, List.mem_filter, decide_eq_true_eq, mem_errorsOf]
  exact and_iff_right (mem_sortedCodes code)

theorem reportedCodes_pairwise (records : List Record) :
    (reportedCodes records).Pairwise fun c d => c.text < d.text :=
  sortedCodes_pairwise.filter _

theorem nodup_reportedCodes (records : List Record) : (reportedCodes records).Nodup :=
  (reportedCodes_pairwise records).imp fun {c d} h => by
    rintro rfl
    exact lt_irrefl _ h

/-- The row of an error code. -/
def invalidRow (records : List Record) (code : Code) : Row :=
  ("invalid", code.label, ((errorsOf records).count code).repr)

theorem invalidRows_eq (records : List Record) :
    invalidRows (Dict.empty.tally (errorsOf records)) = (reportedCodes records).map
      (invalidRow records) := by
  have hperm : (Dict.empty.tally (errorsOf records)).keys.Perm (reportedCodes records) := by
    refine (List.perm_ext_iff_of_nodup (Dict.nodup _) (nodup_reportedCodes records)).2 fun code => ?_
    rw [mem_reportedCodes, ← mem_errorsOf]
    exact Dict.mem_keys_tally.trans (or_iff_right (List.not_mem_nil))
  rw [invalidRows, sortedItems_eq _ hperm (reportedCodes_pairwise records), List.map_map]
  refine List.map_congr_left fun code _ => ?_
  have hcount : (Dict.empty.tally (errorsOf records)).getD code 0 = (errorsOf records).count code :=
    (Dict.getD_tally code (errorsOf records) Dict.empty).trans (Nat.zero_add _)
  show ("invalid", code.label, ((Dict.empty.tally (errorsOf records)).getD code 0).repr) = _
  rw [hcount]
  rfl

theorem breakdownRows_eq (sectionName : String) (records : List Record) (field : Field)
    {values sorted : List String}
    (hperm : values.Perm sorted) (hsorted : sorted.Pairwise (· < ·)) :
    breakdownRows sectionName (buildBreakdown records field values) = sorted.map fun value =>
      (sectionName, value, ((buildBreakdown records field values).getD value 0).repr) := by
  have hnodup : values.Nodup := hperm.nodup_iff.2 (hsorted.imp fun h => ne_of_lt h)
  have hkeys : (buildBreakdown records field values).keys = values := by
    rw [buildBreakdown_eq, Dict.keys_foldl_incrementKey, Dict.keys_ofKeys hnodup]
  rw [breakdownRows, sortedItems_eq _ (hkeys ▸ hperm) (by simpa using hsorted), List.map_map]
  rfl

/-- The categories in the order of their texts. -/
def categories : List String :=
  ["DAMAGE", "DELAYED_DELIVERY", "LOST_PARCEL", "RETURN_REQUEST", "WRONG_ADDRESS"]

/-- The statuses in the order of their texts. -/
def statuses : List String := ["CLOSED", "DISCARDED", "OPEN"]

/-- The countries in the order of their texts. -/
def countries : List String := ["ES", "US"]

/-- The rows after those of the error codes. -/
def tailRows (records : List Record) : List Row :=
  (categories.map fun value =>
      ("category", value, ((analysisOf records).categoryBreakdown.getD value 0).repr)) ++
    (statuses.map fun value =>
        ("status", value, ((analysisOf records).statusBreakdown.getD value 0).repr)) ++
    (countries.map fun value =>
        ("country", value, ((analysisOf records).countryBreakdown.getD value 0).repr)) ++
    satisfactionRows (analysisOf records)

/-- The rows of an analysis: of these only the rows of the error codes vary in their sections and
metrics. -/
theorem exportRows_eq (records : List Record) : exportRows (analysisOf records) =
    generalRows (analysisOf records) ++ ((reportedCodes records).map (invalidRow records) ++
      tailRows records) := by
  have hcodes : invalidRows (analysisOf records).invalidBreakdown =
      (reportedCodes records).map (invalidRow records) := invalidRows_eq records
  have hcategory : breakdownRows "category" (analysisOf records).categoryBreakdown =
      categories.map fun value =>
        ("category", value, ((analysisOf records).categoryBreakdown.getD value 0).repr) :=
    breakdownRows_eq "category" (validOf records) .category (by decide) (by decide)
  have hstatus : breakdownRows "status" (analysisOf records).statusBreakdown =
      statuses.map fun value =>
        ("status", value, ((analysisOf records).statusBreakdown.getD value 0).repr) :=
    breakdownRows_eq "status" (validOf records) .status (by decide) (by decide)
  have hcountry : breakdownRows "country" (analysisOf records).countryBreakdown =
      countries.map fun value =>
        ("country", value, ((analysisOf records).countryBreakdown.getD value 0).repr) :=
    breakdownRows_eq "country" (validOf records) .country (by decide) (by decide)
  rw [exportRows, hcodes, hcategory, hstatus, hcountry, tailRows]
  simp only [List.append_assoc]

end TrackFlow.Incidents
