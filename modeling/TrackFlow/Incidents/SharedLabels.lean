import TrackFlow.Incidents.Export

/-!
# Labels that two error codes share

The codes of a missing and of an invalid category have one label, and so have those of an e-mail
address (`twins`). The exported rows then do not always tell the counts of the codes.

- `codes_eq`: where the rows do tell them, by the order of the codes between the two of a pair;
- `swapped_file`: where they do not, by other records with the same file;
- `export_faithful`: the file is faithful exactly in the first case.
-/

namespace TrackFlow.Incidents

open TrackFlow.Python

/-! ## Statements -/

/-- The codes that share a label, the one with the lower text first. -/
def twins : List (Code × Code) :=
  [(.invalidCategory, .missingCategory), (.invalidCustomerEmail, .missingCustomerEmail)]

/-- Of two codes that share a label at most one is reported, and then together with a code whose
text is between theirs. -/
def Legible (records : List Record) : Prop :=
  ∀ p ∈ twins, ¬ (Reported records p.1 ∧ Reported records p.2) ∧
    (Reported records p.1 ∨ Reported records p.2 → ∃ c, Reported records c ∧ p.1.text < c.text ∧
      c.text < p.2.text)

/-- The counts of two analyses agree. -/
structure SameCounts (a b : Analysis) : Prop where
  totalRecords : a.totalRecords = b.totalRecords
  validRecords : a.validRecords = b.validRecords
  invalidRecords : a.invalidRecords = b.invalidRecords
  codes : ∀ code, a.invalidBreakdown.getD code 0 = b.invalidBreakdown.getD code 0
  categories : ∀ value, a.categoryBreakdown.getD value 0 = b.categoryBreakdown.getD value 0
  statuses : ∀ value, a.statusBreakdown.getD value 0 = b.statusBreakdown.getD value 0
  countries : ∀ value, a.countryBreakdown.getD value 0 = b.countryBreakdown.getD value 0
  closedScored : a.closedScored = b.closedScored
  scores : ∀ score, a.scoreDistribution.getD score 0 = b.scoreDistribution.getD score 0

/-- The section and the metric of each row. -/
def metrics (a : Analysis) : List (String × String) := (exportRows a).map fun row => (row.1, row.2.1)

/-- The file has one row per metric, and the counts of the analysis can be told from it. -/
structure Faithful (a : Analysis) : Prop where
  distinct : (metrics a).Nodup
  determines : ∀ records b, analyzeRecords records = .ok b → exportResultsCsv b =
    exportResultsCsv a → SameCounts b a

/-! ## Labels -/

variable {c d c' d' : Code} {xs ys : List Code} {records records' : List Record} {record : Record}

theorem label_cases (h : c.label = d.label) : c = d ∨ (c, d) ∈ twins ∨ (d, c) ∈ twins := by
  have hall : ∀ c ∈ sortedCodes, ∀ d ∈ sortedCodes, c.label = d.label →
      c = d ∨ (c, d) ∈ twins ∨ (d, c) ∈ twins := by
    decide +kernel
  exact hall c (mem_sortedCodes c) d (mem_sortedCodes d) h

theorem twins_label {p : Code × Code} (hp : p ∈ twins) : p.1.label = p.2.label ∧ p.1.text < p.2.text := by
  have hall : ∀ p ∈ twins, p.1.label = p.2.label ∧ p.1.text < p.2.text := by decide +kernel
  exact hall p hp

/-- There are no three pairs one after the other. -/
theorem twins_short {p q r : Code × Code} (hp : p ∈ twins) (hq : q ∈ twins) (hr : r ∈ twins)
    (hpq : p.1.text < q.1.text) : ¬ q.1.text < r.1.text := by
  have hall : ∀ p ∈ twins, ∀ q ∈ twins, ∀ r ∈ twins, p.1.text < q.1.text → ¬ q.1.text < r.1.text :=
    by decide +kernel
  exact hall p hp q hq r hr hpq

theorem text_injective : Function.Injective Code.text := by
  have hall : ∀ c ∈ sortedCodes, ∀ d ∈ sortedCodes, c.text = d.text → c = d := by decide +kernel
  exact fun c d h => hall c (mem_sortedCodes c) d (mem_sortedCodes d) h

/-- Lists of codes in order with the same members are equal. -/
theorem codes_ext (hx : xs.Pairwise fun c d => c.text < d.text)
    (hy : ys.Pairwise fun c d => c.text < d.text) (h : ∀ c, c ∈ xs ↔ c ∈ ys) : xs = ys := by
  have hnodup : ∀ {zs : List Code}, (zs.Pairwise fun c d => c.text < d.text) → zs.Nodup := fun hz =>
    hz.imp fun {c d} hlt => by
      rintro rfl
      exact lt_irrefl _ hlt
  exact ((List.perm_ext_iff_of_nodup (hnodup hx) (hnodup hy)).2 h).eq_of_pairwise
    (fun c d _ _ hcd hdc => absurd hdc hcd.asymm) hx hy

/-! ## Codes that the labels tell -/

/-- Two codes at one place of two lists. -/
def Matched (xs ys : List Code) (c d : Code) : Prop := ∃ i : Nat, xs[i]? = some c ∧ ys[i]? = some d

section Matched

variable (hx : xs.Pairwise fun c d => c.text < d.text) (hy : ys.Pairwise fun c d => c.text < d.text)
  (hlabels : xs.map Code.label = ys.map Code.label)

include hlabels

theorem matched_label (h : Matched xs ys c d) : c.label = d.label := by
  obtain ⟨i, hc, hd⟩ := h
  have hi := congrArg (fun labels : List String => labels[i]?) hlabels
  simpa [List.getElem?_map, hc, hd] using hi

theorem matched_of_mem (h : c ∈ xs) : ∃ d, Matched xs ys c d := by
  obtain ⟨i, hi, rfl⟩ := List.mem_iff_getElem.1 h
  have hlen : xs.length = ys.length := by simpa using congrArg List.length hlabels
  exact ⟨ys[i], i, List.getElem?_eq_getElem hi, List.getElem?_eq_getElem (hlen ▸ hi)⟩

omit hlabels in
include hx hy in
/-- Places are in the order of the codes. -/
theorem matched_lt (h : Matched xs ys c d) (h' : Matched xs ys c' d') (hlt : c.text < c'.text) :
    d.text < d'.text := by
  obtain ⟨i, hc, hd⟩ := h
  obtain ⟨j, hc', hd'⟩ := h'
  obtain ⟨hi, rfl⟩ := List.getElem?_eq_some_iff.1 hc
  obtain ⟨hj, rfl⟩ := List.getElem?_eq_some_iff.1 hc'
  obtain ⟨hi', rfl⟩ := List.getElem?_eq_some_iff.1 hd
  obtain ⟨hj', rfl⟩ := List.getElem?_eq_some_iff.1 hd'
  rcases lt_trichotomy i j with hij | rfl | hji
  · exact List.pairwise_iff_getElem.1 hy i j hi' hj' hij
  · exact absurd hlt (lt_irrefl _)
  · exact absurd hlt (List.pairwise_iff_getElem.1 hx j i hj hi hji).asymm

variable (htold : ∀ p ∈ twins, p.1 ∈ xs ∨ p.2 ∈ xs → ∃ c ∈ xs, p.1.text < c.text ∧ c.text < p.2.text)

include hx hy htold

/-- The code between the two of a pair stands against a code on the other side, so they are another pair. -/
theorem matched_up {p : Code × Code} (hp : p ∈ twins) (h : Matched xs ys p.1 p.2) :
    ∃ q ∈ twins, p.1.text < q.1.text ∧ Matched xs ys q.1 q.2 := by
  obtain ⟨i, hi, -⟩ := id h
  obtain ⟨c, hc, hlow, hhigh⟩ := htold p hp (.inl (List.mem_of_getElem? hi))
  obtain ⟨d, hcd⟩ := matched_of_mem hlabels hc
  have hd : p.2.text < d.text := matched_lt hx hy h hcd hlow
  rcases label_cases (matched_label hlabels hcd) with rfl | hq | hq
  · exact absurd hd hhigh.asymm
  · exact ⟨(c, d), hq, hlow, hcd⟩
  · exact absurd ((hhigh.trans hd).trans (twins_label hq).2) (lt_irrefl _)

theorem matched_down {p : Code × Code} (hp : p ∈ twins) (h : Matched xs ys p.2 p.1) :
    ∃ q ∈ twins, q.1.text < p.1.text ∧ Matched xs ys q.2 q.1 := by
  obtain ⟨i, hi, -⟩ := id h
  obtain ⟨c, hc, hlow, hhigh⟩ := htold p hp (.inr (List.mem_of_getElem? hi))
  obtain ⟨d, hcd⟩ := matched_of_mem hlabels hc
  have hd : d.text < p.1.text := matched_lt hx hy hcd h hhigh
  rcases label_cases (matched_label hlabels hcd) with rfl | hq | hq
  · exact absurd hd hlow.asymm
  · exact absurd ((hd.trans hlow).trans (twins_label hq).2) (lt_irrefl _)
  · exact ⟨(d, c), hq, hd, hcd⟩

theorem matched_eq (h : Matched xs ys c d) : c = d := by
  rcases label_cases (matched_label hlabels h) with heq | hp | hp
  · exact heq
  · obtain ⟨q, hq, hpq, h'⟩ := matched_up hx hy hlabels htold hp h
    obtain ⟨r, hr, hqr, -⟩ := matched_up hx hy hlabels htold hq h'
    exact absurd hqr (twins_short hp hq hr hpq)
  · obtain ⟨q, hq, hqp, h'⟩ := matched_down hx hy hlabels htold hp h
    obtain ⟨r, hr, hrq, -⟩ := matched_down hx hy hlabels htold hq h'
    exact absurd hqp (twins_short hr hq hp hrq)

/-- The labels tell the codes. -/
theorem codes_eq : xs = ys := by
  have hlen : xs.length = ys.length := by simpa using congrArg List.length hlabels
  refine List.ext_getElem hlen fun i hi hi' => ?_
  exact matched_eq hx hy hlabels htold ⟨i, List.getElem?_eq_getElem hi, List.getElem?_eq_getElem hi'⟩

end Matched

/-! ## One row per metric -/

/-- The metrics of the rows before those of the error codes. -/
def generalMetrics : List (String × String) :=
  [("general", "total_records"), ("general", "valid_records"), ("general", "invalid_records")]

/-- The metrics of the rows after those of the error codes. -/
def tailMetrics : List (String × String) :=
  categories.map ("category", ·) ++ statuses.map ("status", ·) ++ countries.map ("country", ·) ++
    (("satisfaction", "closed_scored") :: [1, 2, 3, 4, 5].map fun score : Int =>
        ("satisfaction", "score_" ++ toString score)) ++
    [("satisfaction", "average_satisfaction")]

theorem tailRows_metrics (records : List Record) :
    (tailRows records).map (fun row => (row.1, row.2.1)) = tailMetrics := by
  simp only [tailRows, satisfactionRows, List.map_append, List.map_map]
  rfl

theorem metrics_eq (records : List Record) : metrics (analysisOf records) =
    generalMetrics ++ ((reportedCodes records).map (fun code => ("invalid", code.label)) ++
      tailMetrics) := by
  rw [metrics, exportRows_eq, List.map_append, List.map_append, tailRows_metrics, List.map_map]
  rfl

/-- The rows are one per metric exactly if no label stands twice. -/
theorem nodup_metrics_iff (records : List Record) :
    (metrics (analysisOf records)).Nodup ↔ ∀ p ∈ twins,
      ¬ (Reported records p.1 ∧ Reported records p.2) := by
  have hfixed : (generalMetrics ++ tailMetrics).Nodup := by decide +kernel
  have hother : ∀ m ∈ generalMetrics ++ tailMetrics, m.1 ≠ "invalid" := by decide +kernel
  rw [metrics_eq]
  constructor
  · intro hnodup p hp hboth
    have hlabels := (List.nodup_append.1 (List.nodup_append.1 hnodup).2.1).1
    have heq := List.inj_on_of_nodup_map hlabels (mem_reportedCodes.2 hboth.1) (mem_reportedCodes.2 hboth.2)
      (congrArg (Prod.mk "invalid") (twins_label hp).1)
    exact absurd (twins_label hp).2 (heq ▸ lt_irrefl _)
  · intro hnone
    obtain ⟨hgeneral, htail, hdisjoint⟩ := List.nodup_append.1 hfixed
    have hcodes : ((reportedCodes records).map fun code => ("invalid", code.label)).Nodup := by
      refine (nodup_reportedCodes records).map_on fun c hc d hd heq => ?_
      have hc := mem_reportedCodes.1 hc
      have hd := mem_reportedCodes.1 hd
      rcases label_cases (Prod.mk.inj heq).2 with h | h | h
      · exact h
      · exact absurd ⟨hc, hd⟩ (hnone _ h)
      · exact absurd ⟨hd, hc⟩ (hnone _ h)
    refine List.nodup_append.2 ⟨hgeneral, List.nodup_append.2 ⟨hcodes, htail, fun m hm n hn heq =>
        ?_⟩, fun m hm n hn => ?_⟩
    · obtain ⟨code, -, rfl⟩ := List.mem_map.1 hm
      exact hother n (List.mem_append_right _ hn) (congrArg Prod.fst heq.symm)
    · rcases List.mem_append.1 hn with hn | hn
      · rintro rfl
        obtain ⟨code, -, rfl⟩ := List.mem_map.1 hn
        exact hother _ (List.mem_append_left _ hm) rfl
      · exact hdisjoint m hm n hn

/-! ## Counts from the file -/

theorem row_fields_injective : Function.Injective Row.fields := by
  rintro ⟨r, m, v⟩ ⟨r', m', v'⟩ h
  simpa [Row.fields, String.toList_inj] using h

/-- The file has the rows. -/
theorem exportResultsCsv_injective {a b : Analysis} (h : exportResultsCsv a = exportResultsCsv b) :
    exportRows a = exportRows b := by
  have hread : ∀ rows : List (List Csv.Field), ∃ n, ∀ limit, n ≤ limit →
      Csv.reader limit (Csv.rowsText rows) = (rows, none) := by
    intro rows
    refine ⟨(rows.map fun fs => (fs.map List.length).sum).sum, fun limit hlimit =>
        Csv.reader_rowsText fun fs hfs f hf => ?_⟩
    have hrow : (fs.map List.length).sum ≤ (rows.map fun fs => (fs.map List.length).sum).sum :=
      List.single_le_sum (by simp) _ (List.mem_map_of_mem hfs)
    have hfield : f.length ≤ (fs.map List.length).sum :=
      List.single_le_sum (by simp) _ (List.mem_map_of_mem hf)
    omega
  obtain ⟨m, hm⟩ := hread (Row.fields ("section", "metric", "value") :: (exportRows a).map Row.fields)
  obtain ⟨n, hn⟩ := hread (Row.fields ("section", "metric", "value") :: (exportRows b).map Row.fields)
  have ha := hm (m + n) (by omega)
  have hb := hn (m + n) (by omega)
  have hrows : (exportRows a).map Row.fields = (exportRows b).map Row.fields := by
    unfold exportResultsCsv at h
    rw [h, hb] at ha
    exact (List.cons.inj (congrArg Prod.fst ha).symm).2
  exact row_fields_injective.list_map hrows

/-- The counts of a column that lists the keys of two dictionaries tell them apart. -/
theorem counts_of_rows {κ : Type} [DecidableEq κ] {d e : Dict κ Nat} {keys : List κ}
    {f : κ → String × String}
    (hrows : (keys.map fun k => ((f k).1, (f k).2, (d.getD k 0).repr)) = keys.map fun k =>
        ((f k).1, (f k).2, (e.getD k 0).repr))
    (hd : ∀ k, k ∉ keys → d.getD k 0 = 0) (he : ∀ k, k ∉ keys → e.getD k 0 = 0)
    (k : κ) : d.getD k 0 = e.getD k 0 := by
  by_cases hk : k ∈ keys
  · have hrow := List.map_inj_left.1 hrows k hk
    exact repr_injective (Prod.mk.inj (Prod.mk.inj hrow).2).2
  · rw [hd k hk, he k hk]

theorem getD_buildBreakdown_other {values keys : List String} (hnodup : values.Nodup)
    (hmem : ∀ v ∈ values, v ∈ keys) (records : List Record) (field : Field) (value : String)
    (h : value ∉ keys) : (buildBreakdown records field values).getD value 0 = 0 := by
  have hvalue : value ∉ values := fun hv => h (hmem value hv)
  have hzero : (Dict.ofKeys values 0).getD value 0 = 0 := by
    rw [Dict.getD, Dict.get?_ofKeys, if_neg hvalue]
    rfl
  rw [buildBreakdown_eq, Dict.getD_foldl_incrementKey, hzero, Dict.keys_ofKeys hnodup, if_neg hvalue]

theorem getD_scores_other (records : List Record) (score : Int) (h : score ∉ [1, 2, 3, 4, 5]) :
    (analysisOf records).scoreDistribution.getD score 0 = 0 := by
  have hzero : (Dict.ofKeys [1, 2, 3, 4, 5] (0 : Nat)).getD score 0 = 0 := by
    rw [Dict.getD, Dict.get?_ofKeys, if_neg h]
    rfl
  have hcount : ((closedScoredRecords (validOf records)).map scoreOf).count score = 0 := by
    refine List.count_eq_zero.2 fun hmem => ?_
    obtain ⟨record, hrecord, rfl⟩ := List.mem_map.1 hmem
    have hbounds := (scored_of_mem hrecord).bounds
    simp only [List.mem_cons, List.not_mem_nil] at h
    omega
  show (buildScoreDistribution (closedScoredRecords (validOf records))).getD score 0 = 0
  rw [buildScoreDistribution_eq fun record => scored_of_mem, Dict.getD_tally, hzero, hcount]

theorem getD_codes (records : List Record) (code : Code) :
    (analysisOf records).invalidBreakdown.getD code 0 = (errorsOf records).count code :=
  (Dict.getD_tally code (errorsOf records) Dict.empty).trans (Nat.zero_add _)

theorem getD_codes_other (records : List Record) (code : Code) (h : code ∉ reportedCodes records) :
    (analysisOf records).invalidBreakdown.getD code 0 = 0 := by
  rw [getD_codes, List.count_eq_zero, mem_errorsOf]
  exact mt mem_reportedCodes.2 h

/-- Where the labels tell the codes, the rows tell the counts. -/
theorem sameCounts_of_rows (hrows : exportRows (analysisOf records') = exportRows (analysisOf records))
    (htold : ∀ p ∈ twins, Reported records p.1 ∨ Reported records p.2 →
      ∃ c, Reported records c ∧ p.1.text < c.text ∧ c.text < p.2.text) :
    SameCounts (analysisOf records') (analysisOf records) := by
  rw [exportRows_eq, exportRows_eq] at hrows
  have htails : (tailRows records').length = (tailRows records).length := by
    have h := (tailRows_metrics records').trans (tailRows_metrics records).symm
    simpa using congrArg List.length h
  obtain ⟨hgeneral, hrest⟩ := List.append_inj hrows rfl
  obtain ⟨hinvalid, htail⟩ := List.append_inj' hrest htails
  obtain ⟨hbreakdowns, hsatisfaction⟩ := List.append_inj htail (by simp)
  obtain ⟨hbreakdowns, hcountry⟩ := List.append_inj hbreakdowns (by simp)
  obtain ⟨hcategory, hstatus⟩ := List.append_inj hbreakdowns (by simp)
  obtain ⟨hscores, -⟩ := List.append_inj hsatisfaction (by simp)
  obtain ⟨hclosed, hscores⟩ := List.cons.inj hscores
  -- The codes are equal, and so are the rows of each.
  have hcodes : reportedCodes records = reportedCodes records' := by
    refine codes_eq (reportedCodes_pairwise _) (reportedCodes_pairwise _) ?_ fun p hp h => ?_
    · have h := congrArg (List.map fun row : Row => row.2.1) hinvalid.symm
      rw [List.map_map, List.map_map] at h
      exact h
    · obtain ⟨c, hc, hlt⟩ := htold p hp (h.imp mem_reportedCodes.1 mem_reportedCodes.1)
      exact ⟨c, mem_reportedCodes.2 hc, hlt⟩
  rw [← hcodes] at hinvalid
  simp only [generalRows, List.cons.injEq, Prod.mk.injEq, true_and, and_true] at hgeneral
  obtain ⟨htotal, hvalid, hnot⟩ := hgeneral
  exact {
    totalRecords := repr_injective htotal
    validRecords := repr_injective hvalid
    invalidRecords := repr_injective hnot
    codes := fun code => by
      by_cases h : code ∈ reportedCodes records
      · have hrow := List.map_inj_left.1 hinvalid code h
        rw [getD_codes, getD_codes]
        exact repr_injective (Prod.mk.inj (Prod.mk.inj hrow).2).2
      · rw [getD_codes_other _ _ h, getD_codes_other _ _ (hcodes ▸ h)]
    categories := counts_of_rows (f := ("category", ·)) hcategory (getD_buildBreakdown_other (by decide)
      (by decide) _ _) (getD_buildBreakdown_other (by decide) (by decide) _ _)
    statuses := counts_of_rows (f := ("status", ·)) hstatus (getD_buildBreakdown_other (by decide)
      (by decide) _ _) (getD_buildBreakdown_other (by decide) (by decide) _ _)
    countries := counts_of_rows (f := ("country", ·)) hcountry (getD_buildBreakdown_other (by decide)
      (by decide) _ _) (getD_buildBreakdown_other (by decide) (by decide) _ _)
    closedScored := repr_injective (Prod.mk.inj (Prod.mk.inj hclosed).2).2
    scores := counts_of_rows (f := fun score => ("satisfaction", "score_" ++ toString score)) hscores
      (getD_scores_other _) (getD_scores_other _) }

/-! ## Records with the codes of a field swapped -/

/-- The record reports the other code of the field. -/
def swapRecord (field : Field) (p : Code × Code) (record : Record) : Record :=
  if validateField field record = [p.1] then Function.update record field none
  else if validateField field record = [p.2] then Function.update record field (some "?")
  else record

/-- The codes of a pair are those of a field whose text is checked against nothing else, and "?" is
not accepted. -/
theorem twins_field {p : Code × Code} (hp : p ∈ twins) : ∃ accepts, accepts "?" = false ∧
    validateField p.1.field = check p.1.field p.2 p.1 accepts ∧ p.2.field = p.1.field ∧ p.1 ≠ p.2 ∧
      ∀ (f : Field) (record : Record) (value : Option String), f ≠ p.1.field →
        validateField f (Function.update record p.1.field value) = validateField f record := by
  rcases List.mem_pair.1 hp with rfl | rfl
  · refine ⟨fun value => value ∈ validCategories,
        by decide, rfl, rfl, by decide, fun f record value hf => ?_⟩
    cases f <;> first | rfl | exact absurd rfl hf
  · refine ⟨fun value => '@' ∈ value.toList, by decide, rfl, rfl, by decide, fun f record value hf => ?_⟩
    cases f <;> first | rfl | exact absurd rfl hf

theorem swapRecord_field {p : Code × Code} (hp : p ∈ twins) (f : Field) (record : Record) :
    validateField f (swapRecord p.1.field p record) = (validateField f record).map
      (Equiv.swap p.1 p.2) := by
  obtain ⟨accepts, hquery, hcheck, hfield, hne, hother⟩ := twins_field hp
  by_cases hf : f = p.1.field
  · subst hf
    have hnone : validateField p.1.field (Function.update record p.1.field none) = [p.2] := by
      rw [hcheck, check, Function.update_self]
    have hblank : isBlank "?" = false := by decide
    have hsome : validateField p.1.field (Function.update record p.1.field (some "?")) = [p.1] := by
      rw [hcheck, check, Function.update_self]
      simp [hblank, hquery]
    rcases @check_cases p.1.field p.2 p.1 accepts record with h | h | h
    · rw [← hcheck] at h
      simp [swapRecord, h]
    · rw [← hcheck] at h
      simp [swapRecord, h, hne.symm, hsome]
    · rw [← hcheck] at h
      simp [swapRecord, h, hnone]
  · have hsame : validateField f (swapRecord p.1.field p record) = validateField f record := by
      unfold swapRecord
      split_ifs
      · exact hother f record none hf
      · exact hother f record (some "?") hf
      · rfl
    rw [hsame]
    rcases validateField_cases f record with h | ⟨code, h, hcode⟩
    · rw [h]
      rfl
    · have hlow : code ≠ p.1 := fun heq => hf (hcode ▸ heq ▸ rfl)
      have hhigh : code ≠ p.2 := fun heq => hf (hcode ▸ heq ▸ hfield)
      rw [h, List.map_singleton, Equiv.swap_apply_of_ne_of_ne hlow hhigh]

theorem swapRecord_errors {p : Code × Code} (hp : p ∈ twins) (record : Record) :
    (validateRecord (swapRecord p.1.field p record)).2 = (validateRecord record).2.map
      (Equiv.swap p.1 p.2) := by
  rw [validateRecord_errors, validateRecord_errors, List.map_flatMap]
  exact congrArg (fun f => checkedFields.flatMap f) (funext fun f => swapRecord_field hp f record)

theorem swapRecord_valid {p : Code × Code} (hp : p ∈ twins) (record : Record) :
    (validateRecord (swapRecord p.1.field p record)).1 = (validateRecord record).1 := by
  rw [Bool.eq_iff_iff, valid_iff_no_errors, valid_iff_no_errors, swapRecord_errors hp, List.map_eq_nil_iff]

theorem swapRecord_of_valid {p : Code × Code} (h : (validateRecord record).1 = true) :
    swapRecord p.1.field p record = record := by
  have hnil : validateField p.1.field record = [] := by
    have herrors := (valid_iff_no_errors record).1 h
    rw [validateRecord_errors, List.flatMap_eq_nil_iff] at herrors
    exact herrors _ (by cases p.1.field <;> decide)
  rw [swapRecord, hnil, if_neg (by simp), if_neg (by simp)]

section Swapped

variable {p : Code × Code} (hp : p ∈ twins)

include hp

theorem swapped_errors (records : List Record) :
    errorsOf (records.map (swapRecord p.1.field p)) = (errorsOf records).map (Equiv.swap p.1 p.2) := by
  rw [errorsOf, errorsOf, List.flatMap_map, List.map_flatMap]
  exact congrArg (fun f => records.flatMap f) (funext fun record => swapRecord_errors hp record)

theorem swapped_valid (records : List Record) :
    validOf (records.map (swapRecord p.1.field p)) = validOf records := by
  rw [validOf, List.filter_map]
  have hvalid : ((fun record => (validateRecord record).1) ∘ swapRecord p.1.field p) = fun record =>
    (validateRecord record).1 :=
    funext fun record => swapRecord_valid hp record
  rw [hvalid]
  refine (List.map_congr_left fun record hrecord => ?_).trans (List.map_id _)
  exact swapRecord_of_valid (List.mem_filter.1 hrecord).2

theorem swapped_count (records : List Record) (code : Code) :
    (errorsOf (records.map (swapRecord p.1.field p))).count (Equiv.swap p.1 p.2 code) =
      (errorsOf records).count code := by
  rw [swapped_errors hp, List.count_map_of_injective _ _ (Equiv.injective _)]

theorem swapped_reported (records : List Record) (code : Code) :
    Reported (records.map (swapRecord p.1.field p)) (Equiv.swap p.1 p.2 code) ↔ Reported records code := by
  rw [← mem_errorsOf, ← mem_errorsOf, swapped_errors hp, List.mem_map_of_injective (Equiv.injective _)]

theorem swap_label (code : Code) : (Equiv.swap p.1 p.2 code).label = code.label := by
  by_cases hlow : code = p.1
  · rw [hlow, Equiv.swap_apply_left, (twins_label hp).1]
  · by_cases hhigh : code = p.2
    · rw [hhigh, Equiv.swap_apply_right, (twins_label hp).1]
    · rw [Equiv.swap_apply_of_ne_of_ne hlow hhigh]

variable (hone : ¬ (Reported records p.1 ∧ Reported records p.2))
  (hnone : ¬ ∃ c, Reported records c ∧ p.1.text < c.text ∧ c.text < p.2.text)

include hone hnone

/-- With no code between the two the swap keeps the order. -/
theorem swapped_codes : reportedCodes (records.map (swapRecord p.1.field p)) =
    (reportedCodes records).map (Equiv.swap p.1 p.2) := by
  have hlt := (twins_label hp).2
  refine codes_ext (reportedCodes_pairwise _) (List.pairwise_map.2 ?_) fun code => ?_
  · refine (reportedCodes_pairwise records).imp_of_mem fun {c d} hc hd hcd => ?_
    have hc := mem_reportedCodes.1 hc
    have hd := mem_reportedCodes.1 hd
    have hne : c ≠ d := fun heq => lt_irrefl _ (heq ▸ hcd)
    by_cases hclow : c = p.1
    · subst hclow
      have hdhigh : d ≠ p.2 := fun heq => hone ⟨hc, heq ▸ hd⟩
      rw [Equiv.swap_apply_left, Equiv.swap_apply_of_ne_of_ne hne.symm hdhigh]
      refine lt_of_not_ge fun hge => ?_
      exact hnone ⟨d, hd, hcd, lt_of_le_of_ne hge fun heq => hdhigh (text_injective heq)⟩
    · by_cases hchigh : c = p.2
      · subst hchigh
        have hdlow : d ≠ p.1 := fun heq => lt_irrefl _ ((heq ▸ hcd).trans hlt)
        rw [Equiv.swap_apply_right, Equiv.swap_apply_of_ne_of_ne hdlow hne.symm]
        exact hlt.trans hcd
      · rw [Equiv.swap_apply_of_ne_of_ne hclow hchigh]
        by_cases hdlow : d = p.1
        · rw [hdlow, Equiv.swap_apply_left]
          exact (hdlow ▸ hcd).trans hlt
        · by_cases hdhigh : d = p.2
          · rw [hdhigh, Equiv.swap_apply_right]
            refine lt_of_not_ge fun hge => ?_
            exact hnone ⟨c, hc, lt_of_le_of_ne hge fun heq => hclow (text_injective heq.symm), hdhigh ▸ hcd⟩
          · rwa [Equiv.swap_apply_of_ne_of_ne hdlow hdhigh]
  · have hswap := swapped_reported hp records (Equiv.swap p.1 p.2 code)
    rw [Equiv.swap_apply_self] at hswap
    rw [mem_reportedCodes, hswap, ← mem_reportedCodes]
    constructor
    · exact fun h => List.mem_map.2 ⟨_, h, Equiv.swap_apply_self _ _ _⟩
    · intro h
      obtain ⟨c, hc, rfl⟩ := List.mem_map.1 h
      rwa [Equiv.swap_apply_self]

/-- The records with the codes swapped have the same file. -/
theorem swapped_file : exportResultsCsv (analysisOf (records.map (swapRecord p.1.field p))) =
    exportResultsCsv (analysisOf records) := by
  have hgeneral : generalRows (analysisOf (records.map (swapRecord p.1.field p))) =
      generalRows (analysisOf records) := by
    simp only [generalRows, analysisOf, swapped_valid hp, List.length_map]
  have htail : tailRows (records.map (swapRecord p.1.field p)) = tailRows records := by
    simp only [tailRows, satisfactionRows, analysisOf, swapped_valid hp]
  have hinvalid : (reportedCodes (records.map (swapRecord p.1.field p))).map
      (invalidRow (records.map (swapRecord p.1.field p))) =
      (reportedCodes records).map (invalidRow records) := by
    rw [swapped_codes hp hone hnone, List.map_map]
    refine List.map_congr_left fun code _ => ?_
    rw [Function.comp_apply, invalidRow, swap_label hp, swapped_count hp]
    rfl
  rw [exportResultsCsv, exportResultsCsv, exportRows_eq, exportRows_eq, hgeneral, htail, hinvalid]

end Swapped

/-! ## Faithful files -/

/-- The file of every list of records is faithful exactly if of two codes with one label at most one
is reported, and then together with a code between the two. -/
theorem export_faithful (records : List Record) :
    ∃ a, analyzeRecords records = .ok a ∧ (Faithful a ↔ Legible records) := by
  refine ⟨analysisOf records, analyzeRecords_eq records, fun hfaithful p hp => ?_, fun hlegible => ⟨?_, ?_⟩⟩
  · have hone := (nodup_metrics_iff records).1 hfaithful.distinct p hp
    refine ⟨hone, fun hreported => ?_⟩
    by_contra hnone
    have hsame := (hfaithful.determines _ _ (analyzeRecords_eq _) (swapped_file hp hone hnone)).codes p.1
    have hcount := swapped_count hp records p.2
    rw [getD_codes, getD_codes] at hsame
    rw [Equiv.swap_apply_right, hsame] at hcount
    have hiff : Reported records p.1 ↔ Reported records p.2 := by
      rw [← mem_errorsOf, ← mem_errorsOf, ← List.count_pos_iff, ← List.count_pos_iff, hcount]
    rcases hreported with h | h
    · exact hone ⟨h, hiff.1 h⟩
    · exact hone ⟨hiff.2 h, h⟩
  · exact (nodup_metrics_iff records).2 fun p hp => (hlegible p hp).1
  · intro records' b hb hfile
    obtain rfl := Except.ok.inj ((analyzeRecords_eq records').symm.trans hb)
    exact sameCounts_of_rows (exportResultsCsv_injective hfile) fun p hp => (hlegible p hp).2

/-- A missing and an invalid category have two rows of one metric. -/
theorem export_twoRows : ∃ a, analyzeRecords [Function.update (parcel "TRF-000001") .category none,
      Function.update (parcel "TRF-000002") .category (some "OTHER")] = .ok a ∧
    (metrics a).count ("invalid", "Invalid or missing category") = 2 ∧ ¬ Faithful a := by
  refine ⟨_, analyzeRecords_eq _, by decide +kernel, fun h => ?_⟩
  exact absurd h.distinct (by decide +kernel)

end TrackFlow.Incidents
