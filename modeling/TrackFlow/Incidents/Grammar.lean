import TrackFlow.Incidents.Records

/-!
# The grammar of an incident record

What a record must look like (`WellFormed`), in terms of its texts alone. The patterns of the
incident id and of the date accept more than that: a line feed at the end, and decimal digits of
other scripts.

- `matchPattern_iff`: without those, a pattern matches exactly the texts that it spells;
- `valid_iff_wellFormed`: a record is accepted exactly if it is well-formed, unless its incident id
  or its date slips through a pattern.
-/

namespace TrackFlow.Incidents

open TrackFlow.Python

/-! ## Well-formed records -/

/-- `n` ASCII digits. -/
def AsciiDigits (n : Nat) (cs : List Char) : Prop := cs.length = n ∧ ∀ c ∈ cs, c.isDigit = true

/-- `TRF-` followed by exactly six digits. -/
def IsIncidentId (s : String) : Prop := ∃ ds, s.toList = 'T' :: 'R' :: 'F' :: '-' :: ds ∧ AsciiDigits 6 ds

/-- `YYYY-MM-DD`. -/
def IsDate (s : String) : Prop :=
  ∃ y m d, s.toList = y ++ '-' :: (m ++ '-' :: d) ∧ AsciiDigits 4 y ∧ AsciiDigits 2 m ∧ AsciiDigits 2 d

/-- The rules for the fields without patterns. -/
structure OtherFields (record : Record) : Prop where
  country : ∃ s ∈ record .country, s ∈ validCountries
  customerType : ∃ s ∈ record .customerType, s ∈ validCustomerTypes
  trackingNumber : ∃ s ∈ record .trackingNumber, isBlank s = false ∧ minTrackingLength ≤ s.length
  carrier : ∃ country ∈ record .country, ∃ carriers ∈ carriersByCountry country, ∃ s ∈
    record .carrier, s ∈ carriers
  category : ∃ s ∈ record .category, s ∈ validCategories
  description : ∃ s ∈ record .description, isBlank s = false ∧ minDescriptionLength ≤ s.length
  status : ∃ s ∈ record .status, s ∈ validStatuses
  customerEmail : ∃ s ∈ record .customerEmail, isBlank s = false ∧ '@' ∈ s.toList
  satisfactionScore : (∃ s ∈ record .satisfactionScore, ∃ n ∈ int? s, minSatisfactionScore ≤ n ∧
      n ≤ maxSatisfactionScore) ∨ isMissing (record .satisfactionScore) = true ∧ record .status ≠
    some "CLOSED"

/-- The documented form of a record. -/
structure WellFormed (record : Record) : Prop where
  incidentId : ∃ s ∈ record .incidentId, IsIncidentId s
  date : ∃ s ∈ record .date, IsDate s
  others : OtherFields record

/-! ## Patterns -/

/-- The text that a pattern spells, with ASCII digits and nothing after it. -/
def spells : List Atom → List Char → Bool
  | [], cs => cs == []
  | .literal a :: ps, c :: cs => a == c && spells ps cs
  | .digit :: ps, c :: cs => c.isDigit && spells ps cs
  | _ :: _, [] => false

/-- Text without line feeds and without decimal digits of other scripts. -/
def Plain (cs : List Char) : Prop := ∀ c ∈ cs, c ≠ '\n' ∧ (isDecimal c = true → c.isDigit = true)

/-- The literals of the pattern are plain. -/
def PlainPattern (ps : List Atom) : Prop := ∀ a, .literal a ∈ ps → a ≠ '\n' ∧ isDecimal a = false

theorem isDecimal_of_isDigit {c : Char} (h : c.isDigit = true) : isDecimal c = true := by
  have hrange := toNat_of_isDigit h
  refine List.any_eq_true.2 ⟨0x30, List.mem_cons_self, ?_⟩
  simp only [Bool.and_eq_true, decide_eq_true_eq]
  omega

theorem ne_newLine_of_isDigit {c : Char} (h : c.isDigit = true) : c ≠ '\n' := by
  rintro rfl
  exact absurd h (by decide)

theorem plain_cons {c : Char} {cs : List Char} :
    Plain (c :: cs) ↔ (c ≠ '\n' ∧ (isDecimal c = true → c.isDigit = true)) ∧ Plain cs :=
      List.forall_mem_cons

/-- A plain pattern spells the plain texts that it matches. -/
theorem matchPattern_iff : ∀ {ps : List Atom} {cs : List Char}, PlainPattern ps →
    (spells ps cs = true ↔ matchPattern ps cs = true ∧ Plain cs)
  | [], cs, _ => by
    simp only [spells, matchPattern, beq_iff_eq, Bool.or_eq_true]
    constructor
    · rintro rfl
      exact ⟨.inl rfl, fun c hc => by cases hc⟩
    · rintro ⟨rfl | rfl, hplain⟩
      · rfl
      · exact absurd rfl (hplain '\n' List.mem_cons_self).1
  | .literal a :: ps, [], _ => by simp [spells, matchPattern]
  | .digit :: ps, [], _ => by simp [spells, matchPattern]
  | .literal a :: ps, c :: cs, h => by
    have ih := @matchPattern_iff ps cs fun b hb => h b (List.mem_cons_of_mem _ hb)
    obtain ⟨hline, hdecimal⟩ := h a List.mem_cons_self
    simp only [spells, matchPattern, Bool.and_eq_true, beq_iff_eq, ih, plain_cons]
    constructor
    · rintro ⟨rfl, hmatch, hplain⟩
      exact ⟨⟨rfl, hmatch⟩, ⟨hline, fun hd => by rw [hdecimal] at hd; cases hd⟩, hplain⟩
    · rintro ⟨⟨rfl, hmatch⟩, -, hplain⟩
      exact ⟨rfl, hmatch, hplain⟩
  | .digit :: ps, c :: cs, h => by
    have ih := @matchPattern_iff ps cs fun b hb => h b (List.mem_cons_of_mem _ hb)
    simp only [spells, matchPattern, Bool.and_eq_true, ih, plain_cons]
    constructor
    · rintro ⟨hd, hmatch, hplain⟩
      exact ⟨⟨isDecimal_of_isDigit hd, hmatch⟩, ⟨ne_newLine_of_isDigit hd, fun _ => hd⟩, hplain⟩
    · rintro ⟨⟨hd, hmatch⟩, ⟨-, hascii⟩, hplain⟩
      exact ⟨hascii hd, hmatch, hplain⟩

/-- Digits and the rest of a pattern. -/
theorem spells_digits (ps : List Atom) : ∀ {n : Nat} {cs : List Char}, spells (digits n ++ ps) cs = true ↔
    ∃ ds rest, cs = ds ++ rest ∧ AsciiDigits n ds ∧ spells ps rest = true
  | 0, cs => by
    constructor
    · intro h
      exact ⟨[], cs, rfl, ⟨rfl, fun c hc => by cases hc⟩, h⟩
    · rintro ⟨ds, rest, rfl, ⟨hlen, -⟩, h⟩
      rw [List.length_eq_zero_iff.1 hlen]
      exact h
  | n + 1, [] => by
    constructor
    · intro h
      cases h
    · rintro ⟨ds, rest, hnil, ⟨hlen, -⟩, -⟩
      rw [(List.append_eq_nil_iff.1 hnil.symm).1] at hlen
      cases hlen
  | n + 1, c :: cs => by
    have hstep : spells (digits (n + 1) ++ ps) (c :: cs) = (c.isDigit && spells (digits n ++ ps) cs) := rfl
    rw [hstep, Bool.and_eq_true, spells_digits ps]
    constructor
    · rintro ⟨hc, ds, rest, rfl, ⟨hlen, hall⟩, h⟩
      exact ⟨c :: ds, rest, rfl, ⟨by rw [List.length_cons, hlen], List.forall_mem_cons.2 ⟨hc, hall⟩⟩, h⟩
    · rintro ⟨ds, rest, heq, ⟨hlen, hall⟩, h⟩
      cases ds with
      | nil => cases hlen
      | cons d ds =>
        obtain ⟨rfl, rfl⟩ := List.cons.inj heq
        obtain ⟨hd, hrest⟩ := List.forall_mem_cons.1 hall
        exact ⟨hd, ds, rest, rfl, ⟨Nat.succ.inj hlen, hrest⟩, h⟩

theorem spells_last {n : Nat} {cs : List Char} : spells (digits n) cs = true ↔ AsciiDigits n cs := by
  have h := @spells_digits [] n cs
  rw [List.append_nil] at h
  rw [h]
  constructor
  · rintro ⟨ds, rest, rfl, hds, hrest⟩
    obtain rfl : rest = [] := by simpa [spells] using hrest
    rwa [List.append_nil]
  · intro hcs
    exact ⟨cs, [], (List.append_nil cs).symm, hcs, rfl⟩

theorem spells_literal {a : Char} {ps : List Atom} {cs : List Char} :
    spells (.literal a :: ps) cs = true ↔ ∃ rest, cs = a :: rest ∧ spells ps rest = true := by
  cases cs with
  | nil => simp [spells]
  | cons c cs =>
    simp only [spells, Bool.and_eq_true, beq_iff_eq]
    constructor
    · rintro ⟨rfl, h⟩
      exact ⟨cs, rfl, h⟩
    · rintro ⟨rest, heq, h⟩
      obtain ⟨rfl, rfl⟩ := List.cons.inj heq
      exact ⟨rfl, h⟩

theorem spells_incidentId {s : String} : spells incidentIdPattern s.toList = true ↔ IsIncidentId s := by
  unfold incidentIdPattern IsIncidentId
  simp only [spells_literal, spells_last]
  constructor
  · rintro ⟨_, h, _, rfl, _, rfl, ds, rfl, hds⟩
    exact ⟨ds, h, hds⟩
  · rintro ⟨ds, h, hds⟩
    exact ⟨_, h, _, rfl, _, rfl, ds, rfl, hds⟩

theorem spells_date {s : String} : spells datePattern s.toList = true ↔ IsDate s := by
  unfold datePattern IsDate
  simp only [spells_digits, spells_literal, spells_last]
  constructor
  · rintro ⟨y, _, h, hy, _, rfl, m, _, rfl, hm, d, rfl, hd⟩
    exact ⟨y, m, d, h, hy, hm, hd⟩
  · rintro ⟨y, m, d, h, hy, hm, hd⟩
    exact ⟨y, _, h, hy, _, rfl, m, _, rfl, hm, d, rfl, hd⟩

theorem plainPattern_incidentId : PlainPattern incidentIdPattern := by
  intro a ha
  obtain rfl | rfl | rfl | rfl : a = 'T' ∨ a = 'R' ∨ a = 'F' ∨ a = '-' := by
    simpa [incidentIdPattern, digits, List.replicate] using ha
  all_goals decide

theorem plainPattern_date : PlainPattern datePattern := by
  intro a ha
  obtain rfl : a = '-' := by simpa [datePattern, digits, List.replicate] using ha
  decide

/-! ## The checks and the grammar -/

variable {record : Record} {field : Field} {missing invalid : Code}

/-- The values of a list are not blank, so a check with the list passes exactly for its values. -/
theorem check_list {values : List String} (h : ∀ s ∈ values, isBlank s = false) :
    check field missing invalid (fun value => value ∈ values) record = [] ↔
      ∃ s ∈ record field, s ∈ values := by
  rw [check_eq_nil]
  constructor
  · rintro ⟨s, hs, -, hmem⟩
    exact ⟨s, hs, of_decide_eq_true hmem⟩
  · rintro ⟨s, hs, hmem⟩
    exact ⟨s, hs, h s hmem, decide_eq_true hmem⟩

/-- A check with a property of the text. -/
theorem check_decide {P : String → Prop} [DecidablePred P] :
    check field missing invalid (fun value => decide (P value)) record = [] ↔
      ∃ s ∈ record field, isBlank s = false ∧ P s := by
  rw [check_eq_nil]
  constructor
  · rintro ⟨s, hs, hblank, h⟩
    exact ⟨s, hs, hblank, of_decide_eq_true h⟩
  · rintro ⟨s, hs, hblank, h⟩
    exact ⟨s, hs, hblank, decide_eq_true h⟩

/-- A decimal digit is no white space. -/
theorem isSpace_of_isDecimal {c : Char} (h : isDecimal c = true) : isSpace c = false := by
  have hvalue : digitValue c ≠ none := by
    unfold digitValue
    dsimp only
    split_ifs
    · exact nofun
    · exact nofun
    · exact nofun
    · rw [ne_eq, Option.map_eq_none_iff, List.find?_eq_none]
      intro hnone
      obtain ⟨z, hz, hin⟩ := List.any_eq_true.1 h
      exact hnone z hz hin
  by_contra hspace
  exact hvalue (Uuid.digitValue_of_isSpace (Bool.not_eq_false _ ▸ hspace))

/-- What begins a pattern is no white space. -/
def Visible : Atom → Prop
  | .literal a => isSpace a = false
  | .digit => True

/-- A check with a pattern, which no blank text matches. -/
theorem check_pattern {p : Atom} {ps : List Atom} (hp : Visible p) :
    check field missing invalid (fun value => matchPattern (p :: ps) value.toList) record = [] ↔
      ∃ s ∈ record field, matchPattern (p :: ps) s.toList = true := by
  have hvisible : ∀ cs, matchPattern (p :: ps) cs = true → ∃ c ∈ cs, isSpace c = false := by
    intro cs h
    cases cs with
    | nil => cases p <;> cases h
    | cons c cs =>
      refine ⟨c, List.mem_cons_self, ?_⟩
      cases p with
      | literal a =>
        rw [matchPattern, Bool.and_eq_true, beq_iff_eq] at h
        exact h.1 ▸ hp
      | digit =>
        rw [matchPattern, Bool.and_eq_true] at h
        exact isSpace_of_isDecimal h.1
  rw [check_eq_nil]
  constructor
  · rintro ⟨s, hs, -, h⟩
    exact ⟨s, hs, h⟩
  · rintro ⟨s, hs, h⟩
    obtain ⟨c, hc, hspace⟩ := hvisible s.toList h
    exact ⟨s, hs, not_isBlank_of_mem hc hspace, h⟩

/-- The carriers of a valid country are those of the country. -/
theorem validateCarrier_eq_nil (h : ∃ s ∈ record .country, s ∈ validCountries) :
    validateCarrier record = [] ↔
    ∃ country ∈ record .country, ∃ carriers ∈ carriersByCountry country, ∃ s ∈ record .carrier, s ∈
        carriers := by
  obtain ⟨country, hcountry, hvalid⟩ := h
  have hcarriers : ∃ carriers, carriersByCountry country = some carriers ∧
      ∀ s ∈ carriers, isBlank s = false := by
    clear hcountry
    revert hvalid
    revert country
    decide
  obtain ⟨carriers, hsome, hblank⟩ := hcarriers
  have hfor : carriersFor (record .country) = carriers := by
    rw [Option.mem_def.1 hcountry, carriersFor, Option.bind_some, hsome]
    rfl
  unfold validateCarrier
  rw [hfor, check_list hblank]
  constructor
  · intro hcarrier
    exact ⟨country, hcountry, carriers, hsome, hcarrier⟩
  · rintro ⟨country', hcountry', carriers', hcarriers', hcarrier⟩
    obtain rfl := Option.mem_unique hcountry' hcountry
    obtain rfl := Option.mem_unique hcarriers' hsome
    exact hcarrier

theorem isScore_iff {s : String} :
    isScore s = true ↔ ∃ n ∈ int? s, minSatisfactionScore ≤ n ∧ n ≤ maxSatisfactionScore := by
  simp [isScore, Option.any_eq_true]

/-- A record is accepted exactly if its patterns match and the other fields follow their rules. -/
theorem valid_iff (record : Record) : (validateRecord record).1 = true ↔
    (∃ s ∈ record .incidentId, matchPattern incidentIdPattern s.toList = true) ∧
      (∃ s ∈ record .date, matchPattern datePattern s.toList = true) ∧ OtherFields record := by
  have hid : validateIncidentId record = [] ↔ ∃ s ∈ record .incidentId, matchPattern
      incidentIdPattern s.toList = true :=
    check_pattern (p := .literal 'T') (by show isSpace 'T' = false; decide)
  have hdate : validateDate record = [] ↔ ∃ s ∈ record .date, matchPattern datePattern s.toList = true :=
    check_pattern (p := .digit) trivial
  have hcountry : validateCountry record = [] ↔ ∃ s ∈ record .country, s ∈ validCountries :=
    check_list (by decide)
  have htype : validateCustomerType record = [] ↔ ∃ s ∈ record .customerType, s ∈
      validCustomerTypes := check_list (by decide)
  have hcategory : validateCategory record = [] ↔ ∃ s ∈ record .category, s ∈ validCategories :=
    check_list (by decide)
  have hstatus : validateStatus record = [] ↔ ∃ s ∈ record .status, s ∈ validStatuses :=
    check_list (by decide)
  have htracking : validateTrackingNumber record = [] ↔ _ := check_decide
  have hdescription : validateDescription record = [] ↔ _ := check_decide
  have hemail : validateCustomerEmail record = [] ↔ _ := check_decide
  have hscore : validateSatisfactionScore record = [] ↔ _ := validateSatisfactionScore_eq_nil
  rw [validateRecord_valid, hid, hdate, hcountry, htype, hcategory, hstatus, htracking,
    hdescription, hemail, hscore]
  constructor
  · rintro ⟨hid, hdate, hcountry, htype, htracking, hcarrier, hcategory, hdescription, hstatus,
        hemail, hscore⟩
    refine ⟨hid, hdate, ⟨hcountry, htype, htracking, (validateCarrier_eq_nil hcountry).1 hcarrier,
      hcategory, hdescription, hstatus, hemail, hscore.imp_left ?_⟩⟩
    rintro ⟨s, hs, h⟩
    exact ⟨s, hs, isScore_iff.1 h⟩
  · rintro ⟨hid, hdate, h⟩
    refine ⟨hid, hdate, h.country, h.customerType, h.trackingNumber,
      (validateCarrier_eq_nil h.country).2 h.carrier, h.category, h.description, h.status,
      h.customerEmail, h.satisfactionScore.imp_left ?_⟩
    rintro ⟨s, hs, hn⟩
    exact ⟨s, hs, isScore_iff.2 hn⟩

/-- A record slips through: its other fields are fine, its incident id and its date match their
patterns, and one of them has a line feed or a decimal digit of another script. -/
structure Slips (record : Record) : Prop where
  others : OtherFields record
  incidentId : ∃ s ∈ record .incidentId, matchPattern incidentIdPattern s.toList = true
  date : ∃ s ∈ record .date, matchPattern datePattern s.toList = true
  odd : (∃ s ∈ record .incidentId, ¬ Plain s.toList) ∨ ∃ s ∈ record .date, ¬ Plain s.toList

theorem isIncidentId_iff {s : String} :
    IsIncidentId s ↔ matchPattern incidentIdPattern s.toList = true ∧ Plain s.toList := by
  rw [← spells_incidentId, matchPattern_iff plainPattern_incidentId]

theorem isDate_iff {s : String} : IsDate s ↔ matchPattern datePattern s.toList = true ∧ Plain s.toList := by
  rw [← spells_date, matchPattern_iff plainPattern_date]

/-- A well-formed record is accepted. -/
theorem valid_of_wellFormed {record : Record} (h : WellFormed record) :
    (validateRecord record).1 = true := by
  obtain ⟨s, hs, hid⟩ := h.incidentId
  obtain ⟨u, hu, hdate⟩ := h.date
  exact (valid_iff record).2 ⟨⟨s, hs, (isIncidentId_iff.1 hid).1⟩, ⟨u, hu, (isDate_iff.1 hdate).1⟩,
    h.others⟩

/-- A record is accepted exactly if it is well-formed, unless it slips through. -/
theorem valid_iff_wellFormed (record : Record) :
    ((validateRecord record).1 = true ↔ WellFormed record) ↔ ¬ Slips record := by
  constructor
  · intro hiff hslips
    have hwell := hiff.1 ((valid_iff record).2 ⟨hslips.incidentId, hslips.date, hslips.others⟩)
    rcases hslips.odd with ⟨s, hs, hodd⟩ | ⟨s, hs, hodd⟩
    · obtain ⟨u, hu, hid⟩ := hwell.incidentId
      obtain rfl := Option.mem_unique hs hu
      exact hodd (isIncidentId_iff.1 hid).2
    · obtain ⟨u, hu, hdate⟩ := hwell.date
      obtain rfl := Option.mem_unique hs hu
      exact hodd (isDate_iff.1 hdate).2
  · intro hslips
    refine ⟨fun hvalid => ?_, valid_of_wellFormed⟩
    obtain ⟨hid, hdate, hothers⟩ := (valid_iff record).1 hvalid
    obtain ⟨s, hs, hmatch⟩ := id hid
    obtain ⟨u, hu, hmatch'⟩ := id hdate
    have hplain : Plain s.toList := by
      by_contra hodd
      exact hslips ⟨hothers, hid, hdate, .inl ⟨s, hs, hodd⟩⟩
    have hplain' : Plain u.toList := by
      by_contra hodd
      exact hslips ⟨hothers, hid, hdate, .inr ⟨u, hu, hodd⟩⟩
    exact ⟨⟨s, hs, isIncidentId_iff.2 ⟨hmatch, hplain⟩⟩, ⟨u, hu, isDate_iff.2 ⟨hmatch', hplain'⟩⟩, hothers⟩

/-- A record with an incident id. -/
def parcel (incidentId : String) : Record
  | .incidentId => some incidentId
  | .date => some "2026-01-02"
  | .country => some "ES"
  | .customerType => some "B2C"
  | .trackingNumber => some "ZX-12345"
  | .carrier => some "SEUR"
  | .category => some "DAMAGE"
  | .description => some "Broken box"
  | .status => some "CLOSED"
  | .customerEmail => some "a@b.es"
  | .satisfactionScore => some " ٤ "

/-- A line feed after an incident id is accepted. -/
theorem valid_lineFeed :
    (validateRecord (parcel "TRF-123456\n")).1 = true ∧ ¬ WellFormed (parcel "TRF-123456\n") := by
  refine ⟨by decide +kernel, fun h => ?_⟩
  obtain ⟨s, hs, ds, hds, -, hdigit⟩ := h.incidentId
  obtain rfl := Option.some.inj hs
  have hchars : "TRF-123456\n".toList = 'T' :: 'R' :: 'F' :: '-' :: ['1', '2', '3', '4', '5', '6',
      '\n'] := rfl
  rw [hchars] at hds
  obtain rfl : ['1', '2', '3', '4', '5', '6', '\n'] = ds := by simpa using hds
  exact absurd (hdigit '\n' (by decide)) (by decide)

end TrackFlow.Incidents
