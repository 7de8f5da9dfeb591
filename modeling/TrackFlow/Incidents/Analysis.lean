import TrackFlow.Incidents.Grammar
import TrackFlow.Python.Dict

/-!
# The analysis of incident records

`analyze_records` counts the records that are valid, the errors of those that are not, and the
values and scores of the valid ones. Its parts read the same fields again (`buildBreakdown`,
`buildScoreDistribution`).

- `analyzeRecords_eq`: what the loop and the parts compute;
- `analysis_conserves`: no record is lost between the counts.
-/

namespace TrackFlow.Incidents

open TrackFlow.Python

/-! ## Definitions -/

/-- What `analyze_records` returns. -/
structure Analysis where
  totalRecords : Nat
  validRecords : Nat
  invalidRecords : Nat
  invalidBreakdown : Dict Code Nat
  categoryBreakdown : Dict String Nat
  statusBreakdown : Dict String Nat
  countryBreakdown : Dict String Nat
  closedScored : Nat
  scoreDistribution : Dict Int Nat
  averageSatisfaction : Rat

/-- `_build_breakdown`. -/
def buildBreakdown (records : List Record) (field : Field) (validValues : List String) : Dict String Nat :=
  records.foldl (fun breakdown record =>
    match record field with
    | some value => breakdown.incrementKey value
    | none => breakdown) (.ofKeys validValues 0)

/-- The score of a record is counted if it is one. -/
def countScore (dist : Dict Int Nat) : Option String → Dict Int Nat
  | none => dist
  | some raw =>
    if isBlank raw then dist
    else
      match int? raw with
      | some score => if 1 ≤ score ∧ score ≤ 5 then dist.increment score else dist
      | none => dist

/-- `_build_score_distribution`. -/
def buildScoreDistribution (records : List Record) : Dict Int Nat :=
  records.foldl (fun dist record => countScore dist (record .satisfactionScore)) (.ofKeys [1, 2, 3, 4, 5] 0)

/-- `sum(int(rec[FIELD_SATISFACTION_SCORE]) …)`. -/
def sumScores : List Record → Except String Int
  | [] => .ok 0
  | record :: records =>
    match record .satisfactionScore with
    | none => .error "TypeError"
    | some raw =>
      match int? raw with
      | none => .error "ValueError"
      | some score => do
        let rest ← sumScores records
        return score + rest

/-- The variables of the loop. -/
structure Loop where
  valid : List Record := []
  invalidCount : Nat := 0
  invalidBreakdown : Dict Code Nat := .empty

/-- The body of the loop. -/
def Loop.step (s : Loop) (record : Record) : Loop :=
  let (isValid, errors) := validateRecord record
  if isValid then { s with valid := s.valid ++ [record] }
  else { s with invalidCount := s.invalidCount + 1, invalidBreakdown := s.invalidBreakdown.tally errors }

/-- The records of the satisfaction statistics. -/
def closedScoredRecords (valid : List Record) : List Record :=
  valid.filter fun record => record .status = some "CLOSED" ∧ isMissing (record .satisfactionScore) = false

/-- The average of some records. -/
def averageOf (records : List Record) : Except String Rat :=
  if 0 < records.length then do
    let totalScore ← sumScores records
    return roundTwo (divide totalScore records.length)
  else .ok 0

/-- `analyze_records`. -/
def analyzeRecords (records : List Record) : Except String Analysis := do
  let loop := records.foldl Loop.step {}
  let closed := closedScoredRecords loop.valid
  let averageSatisfaction ← averageOf closed
  return {
    totalRecords := records.length
    validRecords := loop.valid.length
    invalidRecords := loop.invalidCount
    invalidBreakdown := loop.invalidBreakdown
    categoryBreakdown := buildBreakdown loop.valid .category validCategories
    statusBreakdown := buildBreakdown loop.valid .status validStatuses
    countryBreakdown := buildBreakdown loop.valid .country validCountries
    closedScored := closed.length
    scoreDistribution := buildScoreDistribution closed
    averageSatisfaction }

/-! ## Error codes -/

/-- The field that an error code is about. -/
def Code.field : Code → Field
  | .missingIncidentId | .invalidIncidentId => .incidentId
  | .missingDate | .invalidDate => .date
  | .missingCountry | .invalidCountry => .country
  | .missingCustomerType | .invalidCustomerType => .customerType
  | .missingTrackingNumber | .shortTrackingNumber => .trackingNumber
  | .missingCarrier | .invalidCarrierForCountry => .carrier
  | .missingCategory | .invalidCategory => .category
  | .missingDescription | .shortDescription => .description
  | .missingStatus | .invalidStatus => .status
  | .missingCustomerEmail | .invalidCustomerEmail => .customerEmail
  | .missingSatisfactionScoreForClosed | .invalidSatisfactionScore => .satisfactionScore

/-- The check of a field. -/
def validateField : Field → Record → List Code
  | .incidentId => validateIncidentId
  | .date => validateDate
  | .country => validateCountry
  | .customerType => validateCustomerType
  | .trackingNumber => validateTrackingNumber
  | .carrier => validateCarrier
  | .category => validateCategory
  | .description => validateDescription
  | .status => validateStatus
  | .customerEmail => validateCustomerEmail
  | .satisfactionScore => validateSatisfactionScore

/-- `ALL_FIELDS`, in the order of the checks. -/
def checkedFields : List Field :=
  [.incidentId, .date, .country, .customerType, .trackingNumber, .carrier, .category, .description,
    .status, .customerEmail, .satisfactionScore]

variable {record : Record} {records : List Record} {code : Code}

theorem validateRecord_errors (record : Record) :
    (validateRecord record).2 = checkedFields.flatMap fun field => validateField field record := by
  simp [validateRecord, checkedFields, validateField, List.flatMap_cons]

theorem validateSatisfactionScore_cases (record : Record) : validateSatisfactionScore record = [] ∨
    validateSatisfactionScore record = [.missingSatisfactionScoreForClosed] ∨
      validateSatisfactionScore record = [.invalidSatisfactionScore] := by
  unfold validateSatisfactionScore
  split
  · exact .inr (.inl rfl)
  · split
    · exact .inl rfl
    · split
      · exact .inl rfl
      · exact .inr (.inr rfl)

/-- A check reports nothing or one code, which is about its field. -/
theorem validateField_cases (field : Field) (record : Record) :
    validateField field record = [] ∨ ∃ code, validateField field record = [code] ∧ code.field = field := by
  have hcheck : ∀ {f missing invalid accepts}, missing.field = f → invalid.field = f →
      check f missing invalid accepts record = [] ∨ ∃ code, check f missing invalid accepts record =
        [code] ∧ code.field = f := by
    intro f missing invalid accepts hm hi
    rcases @check_cases f missing invalid accepts record with h | h | h
    · exact .inl h
    · exact .inr ⟨missing, h, hm⟩
    · exact .inr ⟨invalid, h, hi⟩
  cases field with
  | satisfactionScore =>
    rcases validateSatisfactionScore_cases record with h | h | h
    · exact .inl h
    · exact .inr ⟨_, h, rfl⟩
    · exact .inr ⟨_, h, rfl⟩
  | _ => exact hcheck rfl rfl

/-- No code is reported twice for a record. -/
theorem nodup_errors (record : Record) : (validateRecord record).2.Nodup := by
  rw [validateRecord_errors, List.nodup_flatMap]
  refine ⟨fun field _ => ?_, ?_⟩
  · rcases validateField_cases field record with h | ⟨code, h, -⟩
    · rw [h]
      exact List.nodup_nil
    · rw [h]
      exact List.nodup_singleton code
  · have hne : checkedFields.Pairwise (· ≠ ·) := by decide
    refine hne.imp fun {f g} hfg => ?_
    rcases validateField_cases f record with h | ⟨code, h, hcode⟩
    · simp [Function.onFun, h]
    · rcases validateField_cases g record with h' | ⟨code', h', hcode'⟩
      · simp [Function.onFun, h']
      · have hcodes : code' ≠ code := by
          rintro rfl
          exact hfg (hcode.symm.trans hcode')
        simp [Function.onFun, h, h', hcodes]

theorem valid_iff_no_errors (record : Record) :
    (validateRecord record).1 = true ↔ (validateRecord record).2 = [] := by
  simp [validateRecord]

/-! ## The loop -/

/-- The valid records. -/
def validOf (records : List Record) : List Record := records.filter fun record => (validateRecord record).1

/-- All the errors. -/
def errorsOf (records : List Record) : List Code := records.flatMap fun record => (validateRecord record).2

theorem loop_eq (records : List Record) : ∀ s : Loop, records.foldl Loop.step s =
    ⟨s.valid ++ validOf records, s.invalidCount + (records.length - (validOf records).length),
      s.invalidBreakdown.tally (errorsOf records)⟩ := by
  induction records with
  | nil => simp [validOf, errorsOf, Dict.tally]
  | cons record records ih =>
    intro s
    have hle : (validOf records).length ≤ records.length := List.length_filter_le _ _
    rw [List.foldl_cons, ih]
    unfold Loop.step
    by_cases hvalid : (validateRecord record).1 = true
    · have hnil := (valid_iff_no_errors record).1 hvalid
      simp only [hvalid, if_true, validOf, errorsOf, List.filter_cons, List.flatMap_cons, hnil,
        List.nil_append, List.length_cons, List.append_assoc, List.singleton_append,
        Nat.add_sub_add_right]
    · simp only [hvalid, Bool.false_eq_true, if_false, validOf, errorsOf, List.filter_cons,
          List.flatMap_cons, Dict.tally,
        List.foldl_append, List.length_cons] at hle ⊢
      congr 1
      omega

theorem mem_validOf : record ∈ validOf records ↔ record ∈ records ∧ (validateRecord record).1 =
    true := List.mem_filter

/-! ## Counts of the errors -/

/-- A code is counted once for each record that it is reported for. -/
theorem count_errorsOf (code : Code) (records : List Record) :
    (errorsOf records).count code = records.countP fun record => code ∈ (validateRecord record).2 := by
  induction records with
  | nil => rfl
  | cons record records ih =>
    rw [errorsOf, List.flatMap_cons, List.count_append, List.countP_cons]
    change _ + (errorsOf records).count code = _
    rw [ih, (nodup_errors record).count]
    by_cases h : code ∈ (validateRecord record).2
    · simp [h]
      omega
    · simp [h]

/-- The invalid records are those with an error. -/
theorem invalid_eq (records : List Record) :
    records.length - (validOf records).length = records.countP fun record =>
        (validateRecord record).2 ≠ [] := by
  have hsplit := List.length_eq_countP_add_countP (l := records) fun record => (validateRecord record).1
  have hvalid : (validOf records).length = records.countP fun record => (validateRecord record).1 :=
    List.countP_eq_length_filter.symm
  have hinvalid : (records.countP fun record => decide ¬(validateRecord record).1 = true) =
      records.countP fun record => (validateRecord record).2 ≠ [] := by
    refine List.countP_congr fun record _ => ?_
    simp [valid_iff_no_errors]
  omega

theorem count_le_invalid (code : Code) (records : List Record) :
    (errorsOf records).count code ≤ records.length - (validOf records).length := by
  rw [count_errorsOf, invalid_eq]
  refine List.countP_mono_left fun record _ h => ?_
  rw [decide_eq_true_eq] at h ⊢
  exact List.ne_nil_of_mem h

theorem exists_code_of_invalid (h : 0 < records.length - (validOf records).length) :
    ∃ code, 0 < (errorsOf records).count code := by
  rw [invalid_eq, List.countP_pos_iff] at h
  obtain ⟨record, hrecord, hne⟩ := h
  obtain ⟨code, hcode⟩ := List.exists_mem_of_ne_nil _ (of_decide_eq_true hne)
  exact ⟨code, List.count_pos_iff.2 (List.mem_flatMap.2 ⟨record, hrecord, hcode⟩)⟩

/-! ## Counts of the values -/

theorem buildBreakdown_eq (records : List Record) (field : Field) (values : List String) :
    buildBreakdown records field values =
      (records.filterMap fun record => record field).foldl Dict.incrementKey (.ofKeys values 0) := by
  unfold buildBreakdown
  rw [List.foldl_filterMap]
  congr 1
  funext breakdown record
  cases record field <;> rfl

/-- A value is counted once for each record that has it. -/
theorem getD_buildBreakdown {values : List String} (hnodup : values.Nodup) (records : List Record)
    (field : Field) {value : String}
    (hvalue : value ∈ values) :
    (buildBreakdown records field values).getD value 0 =
      records.countP fun record => record field = some value := by
  have hzero : (Dict.ofKeys values 0).getD value 0 = 0 := by
    rw [Dict.getD, Dict.get?_ofKeys, if_pos hvalue]
    rfl
  rw [buildBreakdown_eq, Dict.getD_foldl_incrementKey, hzero, Dict.keys_ofKeys hnodup, if_pos hvalue,
    zero_add, List.count, List.countP_filterMap]
  refine List.countP_congr fun record _ => ?_
  cases record field <;> simp

/-- Every record has one of the values: each is counted. -/
theorem total_buildBreakdown {field : Field} {values : List String} (hnodup : values.Nodup)
    (h : ∀ record ∈ records, ∃ s ∈ record field, s ∈ values) :
    (buildBreakdown records field values).total = records.length := by
  rw [buildBreakdown_eq, Dict.total_foldl_incrementKey, Dict.total_ofKeys, Dict.keys_ofKeys hnodup,
    zero_add, List.countP_filterMap, List.countP_eq_length]
  intro record hrecord
  obtain ⟨s, hs, hmem⟩ := h record hrecord
  rw [Option.mem_def.1 hs]
  simpa using hmem

/-! ## Scores -/

/-- The score of a record. -/
def scoreOf (record : Record) : Int := ((record .satisfactionScore).bind int?).getD 0

/-- The record has a score. -/
def Scored (record : Record) : Prop := ∃ raw ∈ record .satisfactionScore, ∃ n ∈ int? raw, 1 ≤ n ∧ n ≤ 5

theorem Scored.bounds (h : Scored record) : 1 ≤ scoreOf record ∧ scoreOf record ≤ 5 := by
  obtain ⟨raw, hraw, n, hn, hrange⟩ := h
  rw [scoreOf, Option.mem_def.1 hraw, Option.bind_some, Option.mem_def.1 hn]
  exact hrange

theorem countScore_scored (h : Scored record) (dist : Dict Int Nat) :
    countScore dist (record .satisfactionScore) = dist.increment (scoreOf record) := by
  obtain ⟨raw, hraw, n, hn, hrange⟩ := h
  have hblank : ¬ isBlank raw = true := fun hb => by
    rw [int_of_blank hb] at hn
    cases hn
  rw [scoreOf, Option.mem_def.1 hraw, countScore, if_neg hblank, Option.bind_some, Option.mem_def.1 hn]
  exact if_pos hrange

/-- Scores of records that have one are all counted. -/
theorem buildScoreDistribution_eq (h : ∀ record ∈ records, Scored record) :
    buildScoreDistribution records = (Dict.ofKeys [1, 2, 3, 4, 5] 0).tally (records.map scoreOf) := by
  unfold buildScoreDistribution
  generalize (Dict.ofKeys [1, 2, 3, 4, 5] 0 : Dict Int Nat) = dist
  induction records generalizing dist with
  | nil => rfl
  | cons record records ih =>
    rw [List.foldl_cons, countScore_scored (h record List.mem_cons_self), ih fun r hr =>
        h r (List.mem_cons_of_mem _ hr)]
    rfl

theorem sumScores_eq (h : ∀ record ∈ records, Scored record) :
    sumScores records = .ok (records.map scoreOf).sum := by
  induction records with
  | nil => rfl
  | cons record records ih =>
    obtain ⟨raw, hraw, n, hn, -⟩ := h record List.mem_cons_self
    have hscore : scoreOf record = n := by
      rw [scoreOf, Option.mem_def.1 hraw, Option.bind_some, Option.mem_def.1 hn]
      rfl
    rw [sumScores, Option.mem_def.1 hraw, List.map_cons, List.sum_cons, hscore]
    dsimp only
    rw [Option.mem_def.1 hn, ih fun r hr => h r (List.mem_cons_of_mem _ hr)]
    rfl

/-- The sum of the scores of a distribution. -/
def scoreSum (dist : Dict Int Nat) : Int :=
  ([1, 2, 3, 4, 5].map fun score => score * (dist.getD score 0 : Int)).sum

theorem getD_scores (scores : List Int) {score : Int} (h : score ∈ [1, 2, 3, 4, 5]) :
    ((Dict.ofKeys [1, 2, 3, 4, 5] 0).tally scores).getD score 0 = scores.count score := by
  have hzero : (Dict.ofKeys [1, 2, 3, 4, 5] (0 : Nat)).getD score 0 = 0 := by
    rw [Dict.getD, Dict.get?_ofKeys, if_pos h]
    rfl
  rw [Dict.getD_tally, hzero, zero_add]

/-- The distribution of scores has their sum. -/
theorem scoreSum_tally (scores : List Int) (h : ∀ score ∈ scores, 1 ≤ score ∧ score ≤ 5) :
    scoreSum ((Dict.ofKeys [1, 2, 3, 4, 5] 0).tally scores) = scores.sum := by
  have hcount : scoreSum ((Dict.ofKeys [1, 2, 3, 4, 5] 0).tally scores) =
      ([1, 2, 3, 4, 5].map fun score => score * (scores.count score : Int)).sum := by
    refine congrArg List.sum (List.map_congr_left fun score hscore => ?_)
    rw [getD_scores scores hscore]
  rw [hcount]
  induction scores with
  | nil => simp
  | cons score scores ih =>
    obtain ⟨⟨hlow, hhigh⟩, hrest⟩ := List.forall_mem_cons.1 h
    have hsum := ih hrest (by
      refine congrArg List.sum (List.map_congr_left fun s hs => ?_)
      rw [getD_scores scores hs])
    simp only [List.map_cons, List.map_nil, List.sum_cons, List.sum_nil, List.count_cons,
      beq_iff_eq] at hsum ⊢
    rw [← hsum]
    obtain rfl | rfl | rfl | rfl | rfl : score = 1 ∨ score = 2 ∨ score = 3 ∨ score = 4 ∨
        score = 5 := by omega
    all_goals
      push_cast
      simp
      omega

/-- The mean of scores lies between the scores. -/
theorem average_bounds {scores : List Int} (hne : scores ≠ [])
    (h : ∀ score ∈ scores, 1 ≤ score ∧ score ≤ 5) :
    1 ≤ roundTwo (divide scores.sum scores.length) ∧ roundTwo (divide scores.sum scores.length) ≤ 5 := by
  have hsum : (scores.length : Int) ≤ scores.sum ∧ scores.sum ≤ 5 * scores.length := by
    clear hne
    induction scores with
    | nil => simp
    | cons score scores ih =>
      obtain ⟨hscore, hrest⟩ := List.forall_mem_cons.1 h
      have hsum := ih hrest
      rw [List.sum_cons, List.length_cons]
      omega
  have hlen : (0 : Rat) < (scores.length : Rat) := by exact_mod_cast List.length_pos_iff.2 hne
  have hlow : ((1 : Nat) : Rat) ≤ (scores.sum : Rat) / ((scores.length : Int) : Rat) := by
    rw [Int.cast_natCast, le_div_iff₀ hlen]
    exact_mod_cast (by omega : ((1 : Nat) : Int) * scores.length ≤ scores.sum)
  have hhigh : (scores.sum : Rat) / ((scores.length : Int) : Rat) ≤ ((5 : Nat) : Rat) := by
    rw [Int.cast_natCast, div_le_iff₀ hlen]
    exact_mod_cast hsum.2
  obtain ⟨hdlow, hdhigh⟩ := toDouble_bounds (by decide) (by decide) hlow hhigh
  have hround := roundTwo_bounds (q := divide scores.sum scores.length) (by decide) (by decide) hdlow hdhigh
  exact_mod_cast hround

/-! ## Conservation -/

theorem others_of_mem (h : record ∈ validOf records) : OtherFields record :=
  ((valid_iff record).1 (mem_validOf.1 h).2).2.2

theorem mem_closedScored : record ∈ closedScoredRecords (validOf records) ↔
    record ∈ validOf records ∧ record .status = some "CLOSED" ∧ isMissing (record .satisfactionScore) =
      false := by
  simp [closedScoredRecords]

/-- A closed record that is valid has a score. -/
theorem scored_of_closed (h : record ∈ validOf records) (hclosed : record .status = some "CLOSED") :
    Scored record :=
  (others_of_mem h).satisfactionScore.resolve_right fun hmissing => hmissing.2 hclosed

theorem Scored.not_missing (h : Scored record) : isMissing (record .satisfactionScore) = false := by
  obtain ⟨raw, hraw, n, hn, -⟩ := h
  rw [Option.mem_def.1 hraw, isMissing]
  by_contra hblank
  rw [Bool.not_eq_false] at hblank
  rw [int_of_blank hblank] at hn
  cases hn

/-- Every closed record that is valid is scored. -/
theorem closedScored_eq (records : List Record) :
    (closedScoredRecords (validOf records)).length = (validOf records).countP fun record =>
      record .status = some "CLOSED" := by
  rw [closedScoredRecords, ← List.countP_eq_length_filter]
  refine List.countP_congr fun record hrecord => ?_
  simp only [decide_eq_true_eq]
  exact ⟨fun h => h.1, fun h => ⟨h, (scored_of_closed hrecord h).not_missing⟩⟩

/-- What the loop and the parts of the analysis compute. -/
def analysisOf (records : List Record) : Analysis where
  totalRecords := records.length
  validRecords := (validOf records).length
  invalidRecords := records.length - (validOf records).length
  invalidBreakdown := Dict.empty.tally (errorsOf records)
  categoryBreakdown := buildBreakdown (validOf records) .category validCategories
  statusBreakdown := buildBreakdown (validOf records) .status validStatuses
  countryBreakdown := buildBreakdown (validOf records) .country validCountries
  closedScored := (closedScoredRecords (validOf records)).length
  scoreDistribution := buildScoreDistribution (closedScoredRecords (validOf records))
  averageSatisfaction :=
    if closedScoredRecords (validOf records) = [] then 0
    else roundTwo (divide ((closedScoredRecords (validOf records)).map scoreOf).sum
      (closedScoredRecords (validOf records)).length)

theorem averageOf_eq (h : ∀ record ∈ records, Scored record) :
    averageOf records =
      .ok (if records = [] then 0 else roundTwo (divide (records.map scoreOf).sum records.length)) := by
  unfold averageOf
  by_cases hnil : records = []
  · rw [if_neg (by simp [hnil]), if_pos hnil]
  · rw [if_pos (List.length_pos_iff.2 hnil), if_neg hnil, sumScores_eq h]
    rfl

theorem scored_of_mem (h : record ∈ closedScoredRecords (validOf records)) : Scored record :=
  scored_of_closed (mem_closedScored.1 h).1 (mem_closedScored.1 h).2.1

theorem analyzeRecords_eq (records : List Record) : analyzeRecords records = .ok (analysisOf records) := by
  have hloop := loop_eq records {}
  simp only [List.nil_append, Nat.zero_add] at hloop
  unfold analyzeRecords
  rw [hloop]
  dsimp only
  rw [averageOf_eq fun record => scored_of_mem]
  rfl

/-- The counts of an analysis agree with each other. -/
structure Conserves (a : Analysis) : Prop where
  total : a.validRecords + a.invalidRecords = a.totalRecords
  category : a.categoryBreakdown.total = a.validRecords
  status : a.statusBreakdown.total = a.validRecords
  country : a.countryBreakdown.total = a.validRecords
  closed : a.closedScored = a.statusBreakdown.getD "CLOSED" 0
  scores : a.closedScored = a.scoreDistribution.total
  bounded : ∀ code, a.invalidBreakdown.getD code 0 ≤ a.invalidRecords
  positive : 0 < a.invalidRecords → ∃ code, 0 < a.invalidBreakdown.getD code 0
  average : a.averageSatisfaction =
    if a.closedScored = 0 then 0
    else roundTwo (divide (scoreSum a.scoreDistribution) a.scoreDistribution.total)
  range : 0 < a.closedScored → 1 ≤ a.averageSatisfaction ∧ a.averageSatisfaction ≤ 5

/-- Every list of records is analyzed, and no record is lost between the counts. -/
theorem analysis_conserves (records : List Record) :
    ∃ a, analyzeRecords records = .ok a ∧ a.totalRecords = records.length ∧ Conserves a := by
  refine ⟨analysisOf records, analyzeRecords_eq records, rfl, ?_⟩
  have hcodes : ∀ code, (analysisOf records).invalidBreakdown.getD code 0 = (errorsOf records).count
      code := fun code => by
    rw [analysisOf, Dict.getD_tally]
    exact Nat.zero_add _
  have hscored : ∀ record ∈ closedScoredRecords (validOf records), Scored record :=
    fun record => scored_of_mem
  have hdist : (analysisOf records).scoreDistribution =
      (Dict.ofKeys [1, 2, 3, 4, 5] 0).tally ((closedScoredRecords (validOf records)).map scoreOf) :=
    buildScoreDistribution_eq hscored
  have hbounds : ∀ score ∈ (closedScoredRecords (validOf records)).map scoreOf, 1 ≤ score ∧ score ≤ 5 := by
    intro score hscore
    obtain ⟨record, hrecord, rfl⟩ := List.mem_map.1 hscore
    exact (hscored record hrecord).bounds
  have htotal : (analysisOf records).scoreDistribution.total = (analysisOf records).closedScored := by
    rw [hdist, Dict.total_tally, Dict.total_ofKeys, List.length_map]
    exact Nat.zero_add _
  exact {
    total := Nat.add_sub_of_le (List.length_filter_le _ _)
    category := total_buildBreakdown (by decide) fun record hrecord => (others_of_mem hrecord).category
    status := total_buildBreakdown (by decide) fun record hrecord => (others_of_mem hrecord).status
    country := total_buildBreakdown (by decide) fun record hrecord => (others_of_mem hrecord).country
    closed := (closedScored_eq records).trans (getD_buildBreakdown (by decide) _ _ (by decide)).symm
    scores := htotal.symm
    bounded := fun code => by
      rw [hcodes]
      exact count_le_invalid code records
    positive := fun h => by
      obtain ⟨code, hcode⟩ := exists_code_of_invalid h
      exact ⟨code, by rwa [hcodes]⟩
    average := by
      rw [htotal, hdist, scoreSum_tally _ hbounds]
      simp only [analysisOf, List.length_eq_zero_iff]
    range := fun h => by
      have hne : closedScoredRecords (validOf records) ≠ [] := List.ne_nil_of_length_pos h
      have hrange := average_bounds (by simpa using hne) hbounds
      rw [List.length_map] at hrange
      simp only [analysisOf, if_neg hne]
      exact hrange }

end TrackFlow.Incidents
