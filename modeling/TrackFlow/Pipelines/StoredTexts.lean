import TrackFlow.Pipelines.Coordinator

/-!
# The texts that the coordinator stores

The codes and messages that it makes itself all pass the validators of the run store; the messages
that repeat the text of an exception are the others.
-/

namespace TrackFlow.Pipelines

open TrackFlow.Python

variable {q : Request}

/-! ## Codes -/

/-- The codes that the checks before a write can give. -/
def issueCodes : List String :=
  ["invalid_week_start", "incomplete_week", "invalid_clock", "empty_batch_not_certified", "week_mismatch",
    "noncanonical_warehouse", "invalid_client_id", "negative_counter", "counter_overflow",
    "discrepancy_rate_mismatch", "duplicate_aggregate_key", "quality_required", "quality_blocked",
    "coverage_insufficient", "identity_conflict", "classification_incomplete",
    "coverage_evidence_required", "dispatch_order_not_unique", "fingerprint_incomplete",
    "rules_version_required"]

theorem issueCodes_storable : ∀ c ∈ issueCodes, Storable 128 c := by decide +kernel

theorem Storable.mono {m n : Nat} {s : String} (h : Storable m s) (hmn : m ≤ n) : Storable n s :=
  ⟨h.1, le_trans h.2.1 hmn, h.2.2⟩

theorem isEmpty_of_storable {n : Nat} {s : String} (h : Storable n s) : s.isEmpty = false := by
  rw [Bool.eq_false_iff]
  intro he
  rw [String.isEmpty_iff] at he
  subst he
  exact absurd h.1 (by decide)

theorem mem_singleton_code {i : PublicationIssue} {c message : String} {o : Option String}
    (h : i ∈ [({ code := c, message := message, sqlstate := o } : PublicationIssue)]) : i.code = c := by
  rw [List.mem_singleton.1 h]

theorem counterIssue_code {field : String × Int} {i : PublicationIssue} (h : counterIssue field = some i) :
    i.code ∈ issueCodes := by
  unfold counterIssue at h
  split at h
  · cases h
    show "negative_counter" ∈ issueCodes
    decide
  · split at h
    · cases h
      show "counter_overflow" ∈ issueCodes
      decide
    · cases h

theorem aggregateIssues_code {weekStart : Int} {a : WeeklyAggregate} {i : PublicationIssue}
    (h : i ∈ aggregateIssues weekStart a) : i.code ∈ issueCodes := by
  unfold aggregateIssues at h
  simp only [List.mem_append] at h
  rcases h with (((h | h) | h) | h) | h
  · split at h
    · cases h
    · rw [mem_singleton_code h]
      decide
  · split at h
    · cases h
    · rw [mem_singleton_code h]
      decide
  · split at h
    · cases h
    · rw [mem_singleton_code h]
      decide
  · obtain ⟨field, -, hi⟩ := List.mem_filterMap.1 h
    exact counterIssue_code hi
  · split at h
    · rw [mem_singleton_code h]
      decide
    · cases h

theorem batchIssues_code {weekStart : Int} {i : PublicationIssue} : ∀ {seen : List AggregateKey}
    {as : List WeeklyAggregate}, i ∈ batchIssues weekStart seen as → i.code ∈ issueCodes
  | _, [], h => by cases h
  | seen, a :: as, h => by
    simp only [batchIssues, List.mem_append] at h
    rcases h with (h | h) | h
    · exact aggregateIssues_code h
    · split at h
      · rw [List.mem_singleton.1 h]
        show "duplicate_aggregate_key" ∈ issueCodes
        decide
      · cases h
    · exact batchIssues_code h

theorem validate_code {weekStart now : Int} {as : List WeeklyAggregate} {i : PublicationIssue}
    (h : i ∈ validateWeeklyPublicationBatch weekStart as (.aware now)) : i.code ∈ issueCodes := by
  unfold validateWeeklyPublicationBatch at h
  rcases List.mem_append.1 h with h | h
  · unfold weekIssue completeWeekIssue at h
    by_cases hw : weekday weekStart = 0
    · simp only [hw, if_true] at h
      split at h
      · rw [mem_singleton_code h]
        decide
      · cases h
    · simp only [hw, if_false] at h
      rw [mem_singleton_code h]
      decide
  · split at h
    · rw [mem_singleton_code h]
      decide
    · exact batchIssues_code h

theorem quality_code {quality : QualityReport} {i : PublicationIssue}
    (h : i ∈ blockingQualityIssues quality) : i.code ∈ issueCodes := by
  unfold blockingQualityIssues at h
  simp only [List.mem_append] at h
  rcases h with ((h | h) | h) | h
  · obtain ⟨item, -, rfl⟩ := List.mem_map.1 h
    show "quality_blocked" ∈ issueCodes
    decide
  all_goals
    split at h
    · cases h
    · rw [mem_singleton_code h]
      decide

theorem coverage_code {coverage : Option CoverageEvidence} {c : String} (h : c ∈ coverageIssues coverage) :
    c ∈ issueCodes := by
  unfold coverageIssues at h
  split at h
  · rw [List.mem_singleton.1 h]
    decide
  · split at h
    · rw [List.mem_singleton.1 h]
      decide
    · split at h
      · rw [List.mem_singleton.1 h]
        decide
      · split at h
        · rw [List.mem_singleton.1 h]
          decide
        · split at h
          · rw [List.mem_singleton.1 h]
            decide
          · cases h

/-- The codes of the checks before a write can be stored. -/
theorem preWriteIssues_code {c : String} (h : c ∈ preWriteIssues q) : c ∈ issueCodes := by
  have h' := mem_firstBy h
  simp only [List.mem_append] at h'
  rcases h' with (((h' | h') | h') | h') | h'
  · obtain ⟨i, hi, rfl⟩ := List.mem_map.1 h'
    exact validate_code hi
  · split at h'
    · rw [List.mem_singleton.1 h']
      decide
    · obtain ⟨i, hi, rfl⟩ := List.mem_map.1 h'
      exact quality_code hi
  · exact coverage_code h'
  · split at h'
    · rw [List.mem_singleton.1 h']
      decide
    · cases h'
  · split at h'
    · rw [List.mem_singleton.1 h']
      decide
    · cases h'

/-- Without issues the batch passed its validation. -/
theorem validate_of_no_issues (h : preWriteIssues q = []) :
    validateWeeklyPublicationBatch q.weekStart q.aggregates (.aware q.now) = [] := by
  have hnil {l : List String} (hl : firstBy id l = []) : l = [] := by
    cases l with
    | nil => rfl
    | cons c cs => cases hl
  have h' := hnil h
  simp only [List.append_eq_nil_iff, List.map_eq_nil_iff] at h'
  exact h'.1.1.1.1

/-- A text that can be stored, cut or not. -/
def CutStorable (s : String) : Prop := Storable 500 s ∧ Storable 500 (takeText 500 s)

instance (s : String) : Decidable (CutStorable s) := inferInstanceAs (Decidable (_ ∧ _))

/-- The lease module does not repeat the text of an exception. -/
theorem leaseError_database {e : Failure} (h : e.cls.database = true) :
    ∃ c, leaseError e = .concurrency c ∧ Storable 128 c.code ∧ CutStorable c.message := by
  unfold leaseError
  split
  · exact ⟨_, rfl, by decide +kernel, by decide +kernel⟩
  · split
    · exact ⟨_, rfl, by decide +kernel, by decide +kernel⟩
    · exact ⟨_, rfl, by decide +kernel, by decide +kernel⟩

/-- What `record_valid_publication` says of arguments that it refuses. -/
theorem check_error {p : Publication} {e : CodedError} (h : p.check = .error e) :
    CutStorable e.message := by
  have hmessages : ∀ m ∈ ["published_row_count must be a non-negative PostgreSQL integer",
      "dependency_fingerprint must be short descriptive text",
      "dependency_fingerprint must not contain credentials",
      "rules_version must be a short non-empty string", "rules_version must not contain credentials"],
    CutStorable m := by decide +kernel
  rcases bind_error h with h | ⟨_, -, h⟩
  · rw [count_message h]
    exact hmessages _ (by decide)
  · rcases bind_error h with h | ⟨_, -, h⟩
    · rcases optionalText_message h with hm | hm <;> rw [hm] <;> exact hmessages _ (by decide)
    · rcases bind_error h with h | ⟨_, -, h⟩
      · rcases optionalLabel_message h with hm | hm <;> rw [hm] <;> exact hmessages _ (by decide)
      · cases h

theorem databaseIssue_code (e : Failure) (phase : String) : Storable 128 (databaseIssue e phase).code := by
  have h : (databaseIssue e phase).code ∈ ["connection_error", "integrity_error", "write_error",
      "database_error"] := by
    show (if _ then _ else if _ then _ else if _ then _ else if _ then _ else _) ∈ _
    split
    · decide
    · split
      · decide
      · split
        · decide
        · split <;> decide
  have hall : ∀ c ∈ ["connection_error", "integrity_error", "write_error", "database_error"],
      Storable 128 c := by
    decide +kernel
  exact hall _ h

end TrackFlow.Pipelines
