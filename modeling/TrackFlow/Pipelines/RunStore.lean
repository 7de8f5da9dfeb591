import TrackFlow.Python.Raising
import TrackFlow.Python.Uuid
import TrackFlow.Python.Time

/-!
# The run store

The rows of `reporting.pipeline_publication_runs` and `reporting.pipeline_publication_control`, the
validators that stand before every write of them, and what the statements of the store do to a row.

- `RunUpdate.apply` is `update_run` on the stored row; an accepted update is a transition of
  `RunStatus.next` (`RunUpdate.apply_ok`), and whether one is accepted comes down to its texts
  (`RunUpdate.Wellformed.apply_isOk_iff`);
- `WeekControl.record` is what `record_valid_publication` sets.
-/

namespace TrackFlow.Pipelines

open TrackFlow.Python

/-- `RunStoreError` and `ConcurrencyError`: a code and a message. -/
structure CodedError where
  code : String
  message : String
  deriving DecidableEq

/-! ## Validators -/

/-- `_SECRET_MARKERS`. -/
def secretMarkers : List String := ["postgres://", "postgresql://", "bearer ", "password=", "api_key="]

/-- `_reject_secret`. -/
def rejectSecret (value field : String) : Except CodedError Unit :=
  if hasMarker secretMarkers value then
      .error ⟨"secret_rejected", field ++ " must not contain credentials"⟩ else .ok ()

/-- Text of at most `limit` characters that is neither blank nor a secret. -/
def shortText (limit : Nat) (complaint value field : String) : Except CodedError String := do
  if isBlank value || limit < value.length then throw ⟨"invalid_text", field ++ complaint⟩
  rejectSecret value field
  return value

/-- `_label`. -/
def label (value field : String) : Except CodedError String :=
  shortText 128 " must be a short non-empty string" value field

/-- `_optional_label`. -/
def optionalLabel : Option String → String → Except CodedError (Option String)
  | none, _ => .ok none
  | some value, field => some <$> label value field

/-- `_optional_text`. -/
def optionalText : Option String → String → Except CodedError (Option String)
  | none, _ => .ok none
  | some value, field => some <$> shortText 500 " must be short descriptive text" value field

/-- `POSTGRES_INTEGER_MAX`. -/
def postgresIntegerMax : Int := 2147483647

/-- `_count`. -/
def count : Option Int → String → Except CodedError (Option Int)
  | none, _ => .ok none
  | some value, field =>
    if value < 0 || postgresIntegerMax < value then
      .error ⟨"invalid_count", field ++ " must be a non-negative PostgreSQL integer"⟩
    else .ok (some value)

theorem count_eq_ok {n : Int} {field : String} (h₀ : 0 ≤ n) (h₁ : n ≤ postgresIntegerMax) :
    count (some n) field = .ok (some n) := by
  have hlo : ¬n < 0 := by omega
  have hhi : ¬postgresIntegerMax < n := by omega
  simp [count, hlo, hhi]

theorem count_message {n : Int} {field : String} {e : CodedError} (h : count (some n) field = .error e) :
    e.message = field ++ " must be a non-negative PostgreSQL integer" := by
  by_cases hbad : (decide (n < 0) || decide (postgresIntegerMax < n)) = true
  · simp only [count, hbad, if_true] at h
    cases h
    rfl
  · simp only [count, hbad] at h
    cases h

theorem count_ok {n : Int} {field : String} {r : Option Int} (h : count (some n) field = .ok r) :
    0 ≤ n ∧ n ≤ postgresIntegerMax := by
  by_contra hn
  have hbad : (decide (n < 0) || decide (postgresIntegerMax < n)) = true := by
    simp only [Bool.or_eq_true, decide_eq_true_eq]
    omega
  simp only [count, hbad, if_true] at h
  cases h

/-- `_week`: an ISO Monday. -/
def week (value : Int) : Except CodedError Int :=
  if weekday value = 0 then .ok value else .error ⟨"invalid_week_start", "week_start must be a Monday"⟩

/-- What `_optional_text` lets through. -/
def Storable (limit : Nat) (value : String) : Prop :=
  isBlank value = false ∧ value.length ≤ limit ∧ hasMarker secretMarkers value = false

instance (limit : Nat) (value : String) : Decidable (Storable limit value) :=
  inferInstanceAs (Decidable (_ ∧ _ ∧ _))

theorem shortText_eq_ok {limit : Nat} {complaint value field : String} (h : Storable limit value) :
    shortText limit complaint value field = .ok value := by
  obtain ⟨hb, hl, hm⟩ := h
  have hlen : ¬limit < value.length := by omega
  simp [shortText, rejectSecret, hb, hm, hlen, bind, Except.bind, pure, Except.pure]

theorem shortText_error {limit : Nat} (complaint : String) {value : String} (field : String)
    (h : ¬Storable limit value) : ∃ e, shortText limit complaint value field = .error e := by
  by_cases hb : (isBlank value || decide (limit < value.length)) = true
  · exact ⟨⟨"invalid_text", field ++ complaint⟩, by simp only [shortText, hb, if_true]; rfl⟩
  · have hm : hasMarker secretMarkers value = true := by
      simp only [Bool.or_eq_true, decide_eq_true_eq, not_or, Bool.not_eq_true, not_lt] at hb
      simpa [Storable, hb.1, hb.2] using h
    exact ⟨⟨"secret_rejected", field ++ " must not contain credentials"⟩,
      by simp only [shortText, hb, rejectSecret, hm, if_true]; rfl⟩

/-- What `_optional_text` and the labels say of text that they refuse. -/
theorem shortText_message {limit : Nat} {complaint value field : String} {e : CodedError}
    (h : shortText limit complaint value field = .error e) :
    e.message = field ++ complaint ∨ e.message = field ++ " must not contain credentials" := by
  by_cases hbad : (isBlank value || decide (limit < value.length)) = true
  · simp only [shortText, hbad, if_true] at h
    cases h
    exact Or.inl rfl
  · by_cases hmarker : hasMarker secretMarkers value = true
    · simp only [shortText, hbad, rejectSecret, hmarker, if_true] at h
      cases h
      exact Or.inr rfl
    · simp only [shortText, hbad, rejectSecret, hmarker] at h
      cases h

theorem optionalText_message {value : Option String} {field : String} {e : CodedError}
    (h : optionalText value field = .error e) :
    e.message = field ++ " must be short descriptive text" ∨ e.message = field ++
      " must not contain credentials" := by
  cases value with
  | none => cases h
  | some v =>
    cases hs : shortText 500 " must be short descriptive text" v field with
    | ok t =>
      simp only [optionalText, hs] at h
      cases h
    | error x =>
      simp only [optionalText, hs] at h
      cases h
      exact shortText_message hs

theorem optionalLabel_message {value : Option String} {field : String} {e : CodedError}
    (h : optionalLabel value field = .error e) :
    e.message = field ++ " must be a short non-empty string" ∨ e.message = field ++
      " must not contain credentials" := by
  cases value with
  | none => cases h
  | some v =>
    cases hs : label v field with
    | ok t =>
      simp only [optionalLabel, hs] at h
      cases h
    | error x =>
      simp only [optionalLabel, hs] at h
      cases h
      exact shortText_message hs

/-- A label or text that is absent, or that the validator with `limit` lets through. -/
def OptStorable (limit : Nat) (value : Option String) : Prop := ∀ v, value = some v → Storable limit v

theorem optionalLabel_eq_ok {value : Option String} {field : String} (h : OptStorable 128 value) :
    optionalLabel value field = .ok value := by
  cases value with
  | none => rfl
  | some v => simp only [optionalLabel, label, shortText_eq_ok (h v rfl)]; rfl

theorem optionalText_eq_ok {value : Option String} {field : String} (h : OptStorable 500 value) :
    optionalText value field = .ok value := by
  cases value with
  | none => rfl
  | some v => simp only [optionalText, shortText_eq_ok (h v rfl)]; rfl

theorem optionalText_error {value : Option String} (field : String) (h : ¬OptStorable 500 value) :
    ∃ e, optionalText value field = .error e := by
  cases value with
  | none => exact absurd (fun v hv => by cases hv) h
  | some v =>
    have hv : ¬Storable 500 v := fun hs => h fun w hw => by cases hw; exact hs
    obtain ⟨e, he⟩ := shortText_error " must be short descriptive text" field hv
    exact ⟨e, by simp only [optionalText, he]; rfl⟩

/-! ## Runs -/

/-- `RUN_STATUSES`. -/
inductive RunStatus
  | pending
  | running
  | succeeded
  | succeededNoop
  | failedRetryable
  | blockedQuality
  | superseded
  | skippedInProgress
  deriving DecidableEq

namespace RunStatus

/-- The stored text. -/
def text : RunStatus → String
  | pending => "pending"
  | running => "running"
  | succeeded => "succeeded"
  | succeededNoop => "succeeded_noop"
  | failedRetryable => "failed_retryable"
  | blockedQuality => "blocked_quality"
  | superseded => "superseded"
  | skippedInProgress => "skipped_in_progress"

/-- `RUN_TRANSITIONS`. -/
def next : RunStatus → List RunStatus
  | pending => [running, skippedInProgress, superseded, blockedQuality, failedRetryable]
  | running => [succeeded, succeededNoop, failedRetryable, blockedQuality, superseded]
  | _ => []

/-- `TERMINAL_STATUSES`: the statuses without transitions. -/
def terminal (s : RunStatus) : Bool := s.next.isEmpty

/-- `_SUCCESS_STATUSES`. -/
def success (s : RunStatus) : Bool := s = succeeded || s = succeededNoop

/-- No transition leads back to `pending`. -/
theorem ne_pending_of_next {s t : RunStatus} (h : t ∈ s.next) : t ≠ pending := by
  cases s <;> simp only [next, List.mem_cons, List.not_mem_nil, or_false] at h <;> rintro rfl <;> simp at h

end RunStatus

/-- `COMMIT_RESULTS`. -/
inductive CommitResult
  | notAttempted
  | uncommitted
  | uncertain
  | rolledBack
  | technicallyObserved
  deriving DecidableEq

/-- One row of the run history. -/
structure RunRecord where
  runId : Uuid
  targetWeekStart : Int
  startedAt : Int
  status : RunStatus
  finishedAt : Option Int
  stageReached : Option String
  recordsProcessed : Option Int
  aggregatesCalculated : Option Int
  rowsInserted : Option Int
  rowsUpdated : Option Int
  rowsUnchanged : Option Int
  errorCode : Option String
  errorMessage : Option String
  blockReason : Option String
  commitResult : CommitResult
  deriving DecidableEq

/-- The arguments of `update_run`. -/
structure RunUpdate where
  expectedStatus : RunStatus
  status : RunStatus
  finishedAt : Option Int := none
  stageReached : Option String := none
  recordsProcessed : Option Int := none
  aggregatesCalculated : Option Int := none
  rowsInserted : Option Int := none
  rowsUpdated : Option Int := none
  rowsUnchanged : Option Int := none
  errorCode : Option String := none
  errorMessage : Option String := none
  blockReason : Option String := none
  commitResult : Option CommitResult := none

/-- `_transition`. -/
def transition (current proposed : RunStatus) : Except CodedError Unit :=
  if proposed ∈ current.next then .ok ()
  else .error ⟨"invalid_transition", current.text ++ " cannot transition to " ++ proposed.text⟩

namespace RunUpdate

/-- Whether an optional text is missing or empty: `not value`. -/
def falsy : Option String → Bool
  | none => true
  | some s => s.isEmpty

/-- The checks of `update_run` before it builds the parameters. -/
def check (u : RunUpdate) (current : RunRecord) : Except CodedError Unit := do
  if current.status ≠ u.expectedStatus then
    throw ⟨"status_conflict", "run status no longer matches expected_status"⟩
  transition u.expectedStatus u.status
  if u.status.terminal && u.finishedAt.isNone then
    throw ⟨"finished_at_required", "a terminal run requires finished_at"⟩
  if u.status = .running && u.finishedAt.isSome then
    throw ⟨"finished_at_forbidden", "running runs cannot be finished"⟩
  if u.finishedAt.any (· < current.startedAt) then
    throw ⟨"invalid_timestamp", "finished_at cannot precede started_at"⟩
  if u.status = .blockedQuality && falsy u.blockReason then
    throw ⟨"block_reason_required", "blocked_quality requires block_reason"⟩
  if u.status = .failedRetryable && falsy u.errorCode then
    throw ⟨"error_code_required", "failed_retryable requires error_code"⟩

theorem check_ok {u : RunUpdate} {current : RunRecord} (h : u.check current = .ok ()) :
    current.status = u.expectedStatus ∧ u.status ∈ u.expectedStatus.next := by
  by_cases hs : current.status = u.expectedStatus
  · refine ⟨hs, ?_⟩
    by_contra ht
    simp [check, hs, transition, ht, bind, Except.bind] at h
  · simp [check, hs, bind, Except.bind, throw, throwThe, MonadExceptOf.throw] at h

/-- `update_run` on the stored row: the row that the `UPDATE` leaves, or why it is refused. -/
def apply (u : RunUpdate) (current : RunRecord) : Except CodedError RunRecord := do
  u.check current
  let stageReached ← optionalLabel u.stageReached "stage_reached"
  let recordsProcessed ← count u.recordsProcessed "records_processed"
  let aggregatesCalculated ← count u.aggregatesCalculated "aggregates_calculated"
  let rowsInserted ← count u.rowsInserted "rows_inserted"
  let rowsUpdated ← count u.rowsUpdated "rows_updated"
  let rowsUnchanged ← count u.rowsUnchanged "rows_unchanged"
  let errorCode ← optionalLabel u.errorCode "error_code"
  let errorMessage ← optionalText u.errorMessage "error_message"
  let blockReason ← optionalText u.blockReason "block_reason"
  return { current with
    status := u.status
    stageReached := stageReached <|> current.stageReached
    finishedAt := u.finishedAt
    recordsProcessed, aggregatesCalculated, rowsInserted, rowsUpdated, rowsUnchanged
    errorCode, errorMessage, blockReason
    commitResult := u.commitResult.getD current.commitResult }

/-- What an accepted update does to the status and to the commit result. -/
theorem apply_ends {u : RunUpdate} {current row : RunRecord} (h : u.apply current = .ok row) :
    (current.status = u.expectedStatus ∧ u.status ∈ u.expectedStatus.next) ∧ row.status = u.status ∧
      row.commitResult = u.commitResult.getD current.commitResult := by
  obtain ⟨_, hcheck, h⟩ := bind_ok h
  obtain ⟨_, -, h⟩ := bind_ok h
  obtain ⟨_, -, h⟩ := bind_ok h
  obtain ⟨_, -, h⟩ := bind_ok h
  obtain ⟨_, -, h⟩ := bind_ok h
  obtain ⟨_, -, h⟩ := bind_ok h
  obtain ⟨_, -, h⟩ := bind_ok h
  obtain ⟨_, -, h⟩ := bind_ok h
  obtain ⟨_, -, h⟩ := bind_ok h
  obtain ⟨_, -, h⟩ := bind_ok h
  cases h
  exact ⟨check_ok hcheck, rfl, rfl⟩

theorem apply_ok {u : RunUpdate} {current row : RunRecord} (h : u.apply current = .ok row) :
    current.status = u.expectedStatus ∧ u.status ∈ u.expectedStatus.next ∧ row.status = u.status :=
  have hends := apply_ends h
  ⟨hends.1.1, hends.1.2, hends.2.1⟩

/-- An update of `current` to another status whose arguments, but for the error message, are in order. -/
structure Wellformed (u : RunUpdate) (current : RunRecord) : Prop where
  expected : current.status = u.expectedStatus
  step : u.status ∈ u.expectedStatus.next
  notRunning : u.status ≠ .running
  finished : ∃ t, u.finishedAt = some t ∧ current.startedAt ≤ t
  blocked : u.status = .blockedQuality → falsy u.blockReason = false
  failed : u.status = .failedRetryable → falsy u.errorCode = false
  stage : OptStorable 128 u.stageReached
  code : OptStorable 128 u.errorCode
  reason : OptStorable 500 u.blockReason
  aggregates : ∀ field, count u.aggregatesCalculated field = .ok u.aggregatesCalculated
  inserted : ∀ field, count u.rowsInserted field = .ok u.rowsInserted
  updated : ∀ field, count u.rowsUpdated field = .ok u.rowsUpdated
  unchanged : ∀ field, count u.rowsUnchanged field = .ok u.rowsUnchanged

theorem Wellformed.check_eq {u : RunUpdate} {current : RunRecord} (h : u.Wellformed current) :
    u.check current = .ok () := by
  obtain ⟨t, ht, hle⟩ := h.finished
  have hlt : ¬t < current.startedAt := by omega
  have hb : (decide (u.status = .blockedQuality) && falsy u.blockReason) = false := by
    rw [Bool.and_eq_false_iff, decide_eq_false_iff_not]
    exact (Classical.em _).symm.imp id h.blocked
  have hf : (decide (u.status = .failedRetryable) && falsy u.errorCode) = false := by
    rw [Bool.and_eq_false_iff, decide_eq_false_iff_not]
    exact (Classical.em _).symm.imp id h.failed
  simp [check, transition, h.expected, h.step, h.notRunning, ht, hlt, hb, hf, bind, Except.bind,
    pure, Except.pure]

/-- Such an update is accepted if and only if its count of records is one and the error message can
be stored. -/
theorem Wellformed.apply_isOk_iff {u : RunUpdate} {current : RunRecord} (h : u.Wellformed current) :
    (∃ row, u.apply current = .ok row) ↔ (∀ n, u.recordsProcessed = some n → 0 ≤ n ∧
      n ≤ postgresIntegerMax) ∧ OptStorable 500 u.errorMessage := by
  have hc : ∀ field, (∀ n, u.recordsProcessed = some n → 0 ≤ n ∧ n ≤ postgresIntegerMax) →
      count u.recordsProcessed field = .ok u.recordsProcessed := by
    intro field hn
    cases hr : u.recordsProcessed with
    | none => rfl
    | some n => exact count_eq_ok (hn n hr).1 (hn n hr).2
  refine ⟨fun ⟨row, hrow⟩ => ?_, fun ⟨hn, hm⟩ => ?_⟩
  · obtain ⟨_, -, hrow⟩ := bind_ok hrow
    obtain ⟨_, -, hrow⟩ := bind_ok hrow
    obtain ⟨_, hcount, hrow⟩ := bind_ok hrow
    obtain ⟨_, -, hrow⟩ := bind_ok hrow
    obtain ⟨_, -, hrow⟩ := bind_ok hrow
    obtain ⟨_, -, hrow⟩ := bind_ok hrow
    obtain ⟨_, -, hrow⟩ := bind_ok hrow
    obtain ⟨_, -, hrow⟩ := bind_ok hrow
    obtain ⟨_, hmessage, -⟩ := bind_ok hrow
    refine ⟨fun n hn => ?_, ?_⟩
    · rw [hn] at hcount
      exact count_ok hcount
    · by_contra hbad
      obtain ⟨e, he⟩ := optionalText_error "error_message" hbad
      rw [he] at hmessage
      cases hmessage
  · unfold apply
    rw [h.check_eq, optionalLabel_eq_ok h.stage, hc _ hn, h.aggregates, h.inserted, h.updated, h.unchanged,
      optionalLabel_eq_ok h.code, optionalText_eq_ok hm, optionalText_eq_ok h.reason]
    exact ⟨_, rfl⟩

end RunUpdate

/-! ## Week control -/

/-- One row of the week control table: the lease of the week and its last valid publication. -/
structure WeekControl where
  weekStart : Int
  ownerRunId : Option Uuid := none
  leaseAcquiredAt : Option Int := none
  leaseExpiresAt : Option Int := none
  fencingToken : Int := 0
  lastValidPublicationRunId : Option Uuid := none
  lastValidPublishedAt : Option Int := none
  dependencyFingerprint : Option String := none
  publishedRowCount : Option Int := none
  rulesVersion : Option String := none
  deriving DecidableEq

/-- The largest `bigint`. -/
def bigintMax : Int := 2 ^ 63 - 1

/-- The arguments of `record_valid_publication` besides the week and the run, after validation. -/
structure Publication where
  publishedAt : Int
  publishedRowCount : Int
  dependencyFingerprint : Option String
  rulesVersion : Option String
  deriving DecidableEq

/-- The validators of `record_valid_publication`, in their order. -/
def Publication.check (p : Publication) : Except CodedError Unit := do
  let _ ← count (some p.publishedRowCount) "published_row_count"
  let _ ← optionalText p.dependencyFingerprint "dependency_fingerprint"
  let _ ← optionalLabel p.rulesVersion "rules_version"

namespace WeekControl

/-- `CHECK` constraints of the lease columns. -/
def check (c : WeekControl) : Bool :=
  0 ≤ c.fencingToken && c.fencingToken ≤ bigintMax &&
    c.ownerRunId.isSome = c.leaseAcquiredAt.isSome && c.ownerRunId.isSome = c.leaseExpiresAt.isSome &&
    (c.leaseAcquiredAt.all fun a => c.leaseExpiresAt.all fun e => a < e)

/-- `SET` of `RECORD_VALID_PUBLICATION_SQL`. -/
def record (c : WeekControl) (run : Uuid) (p : Publication) : WeekControl :=
  { c with
    lastValidPublicationRunId := some run
    lastValidPublishedAt := some p.publishedAt
    publishedRowCount := some p.publishedRowCount
    dependencyFingerprint := p.dependencyFingerprint
    rulesVersion := p.rulesVersion }

/-! The lease statements of `concurrency.py`. -/

/-- `lease_expires_at IS NOT NULL AND lease_expires_at <= clock_timestamp()`. -/
def expired (c : WeekControl) (now : Int) : Bool := c.leaseExpiresAt.any fun e => e ≤ now

/-- `lease_expires_at IS NOT NULL AND lease_expires_at > clock_timestamp()`. -/
def unexpired (c : WeekControl) (now : Int) : Bool := c.leaseExpiresAt.any fun e => now < e

/-- `owner_run_id = :run_id`. -/
def owned (c : WeekControl) (run : Uuid) : Bool := c.ownerRunId = some run

/-- The row that `VERIFY_LEASE_SQL` finds verifies. -/
def verifies (c : WeekControl) (run : Uuid) (token now : Int) : Bool :=
  c.owned run && c.fencingToken = token && c.unexpired now

/-- `SET` of `GRANT_LEASE_SQL`. -/
def grant (c : WeekControl) (run : Uuid) (acquired expires : Int) : WeekControl :=
  { c with
    ownerRunId := some run
    leaseAcquiredAt := some acquired
    leaseExpiresAt := some expires
    fencingToken := c.fencingToken + 1 }

/-- `SET` of `RENEW_LEASE_SQL`. -/
def renew (c : WeekControl) (expires : Int) : WeekControl := { c with leaseExpiresAt := some expires }

/-- `SET` of `RELEASE_LEASE_SQL`. -/
def release (c : WeekControl) : WeekControl :=
  { c with ownerRunId := none, leaseAcquiredAt := none, leaseExpiresAt := none }

end WeekControl

end TrackFlow.Pipelines
