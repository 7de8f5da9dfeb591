import TrackFlow.Pipelines.WeeklyPerformance

/-!
# Publication checks

What stands between a transformed week and the KPI table: the checks of the batch, the gate on
quality diagnostics, the reconciliation with the published keys, and the UPSERT with its counts.
`Upsert` on the rows of the table is `upsertAll`; the statements around it are in the coordinator's
modules.
-/

namespace TrackFlow.Pipelines

open TrackFlow.Python

/-- `PublicationIssue`. -/
structure PublicationIssue where
  code : String
  message : String
  sqlstate : Option String := none
  deriving DecidableEq

/-- `BLOCKING_QUALITY_CODES`. -/
def blockingQualityCodes : List String :=
  ["aggregate_integer_overflow", "stockexit_identity_conflict", "stockexit_identity_unverified",
    "stockexit_movement_missing", "stockexit_type_unknown", "outbound_classification_unavailable",
    "invalid_row_id", "event_validation_failed", "telemetry_row_id_conflict"]

/-! ## The batch -/

/-- A `datetime`, with or without an offset. -/
inductive Datetime
  | aware (t : Int)
  | naive (t : Int)

/-- `official_discrepancy_rate`. -/
def officialDiscrepancyRate (outboundOrdersCount discrepancyEventsCount : Int) : Rat :=
  discrepancyRate discrepancyEventsCount outboundOrdersCount

/-- `_week_issue`. -/
def weekIssue (weekStart : Int) : Option PublicationIssue :=
  if weekday weekStart = 0 then none
  else some { code := "invalid_week_start", message := "week_start must be a Monday" }

/-- `_complete_week_issue`. -/
def completeWeekIssue (weekStart : Int) : Datetime → Option PublicationIssue
  | .naive _ => some { code := "invalid_clock", message := "now must be a timezone-aware datetime" }
  | .aware now =>
    if now < midnight (weekStart + 7) then
      some { code := "incomplete_week", message := "week_start is not a fully elapsed ISO UTC week" }
    else none

/-- The counters of an aggregate, by their fields. -/
def WeeklyAggregate.counts (a : WeeklyAggregate) : List (String × Int) :=
  integerCountFields.zip
    [a.inboundUnitsCount, a.outboundOrdersCount, a.stockoutEventsCount, a.discrepancyEventsCount]

/-- The issue of a counter. -/
def counterIssue (field : String × Int) : Option PublicationIssue :=
  if field.2 < 0 then some { code := "negative_counter", message := field.1 ++ " must be non-negative" }
  else if 2147483647 < field.2 then
    some { code := "counter_overflow", message := field.1 ++ " exceeds PostgreSQL integer 2147483647" }
  else none

/-- `_aggregate_issues`. The message of a wrong rate is without the two rates, whose digits are those of the
`Decimal` that was passed. -/
def aggregateIssues (weekStart : Int) (a : WeeklyAggregate) : List PublicationIssue :=
  (if a.weekStart = weekStart then [] else
    [{ code := "week_mismatch"
       message := "aggregate week_start does not match the requested publication week" }]) ++
  (if a.warehouse = "los_angeles" ∨ a.warehouse = "zaragoza" then [] else
    [{ code := "noncanonical_warehouse"
       message := "warehouse must already be los_angeles or zaragoza; aliases are not rewritten" }]) ++
  (match validClientId (.str a.clientId) with
    | .ok _ => []
    | .error message => [{ code := "invalid_client_id", message := message }]) ++
  a.counts.filterMap counterIssue ++
  (if a.counts.filterMap counterIssue = [] ∧
      a.discrepancyRate ≠ officialDiscrepancyRate a.outboundOrdersCount a.discrepancyEventsCount then
    [{ code := "discrepancy_rate_mismatch"
       message := "discrepancy_rate does not match the official value" }] else [])

/-- The issue of a key that occurs again. -/
def duplicateKeyIssue (a : WeeklyAggregate) : PublicationIssue where
  code := "duplicate_aggregate_key"
  message := "duplicate publication key warehouse=" ++ a.warehouse ++ ", client_id=" ++ a.clientId ++
    ", week_start=" ++ isoDate a.weekStart

/-- The issues of the aggregates, where `seen` are the keys that came before. -/
def batchIssues (weekStart : Int) : List AggregateKey → List WeeklyAggregate → List PublicationIssue
  | _, [] => []
  | seen, a :: rest =>
    aggregateIssues weekStart a ++ (if a.key ∈ seen then [duplicateKeyIssue a] else []) ++
      batchIssues weekStart (a.key :: seen) rest

/-- `validate_weekly_publication_batch`. -/
def validateWeeklyPublicationBatch (weekStart : Int) (aggregates : List WeeklyAggregate) (now : Datetime) :
    List PublicationIssue :=
  (match weekIssue weekStart with
    | some issue => [issue]
    | none => (completeWeekIssue weekStart now).toList) ++
  if aggregates = [] then
    [{ code := "empty_batch_not_certified", message := "An empty batch is not a certified week without activity" }]
  else batchIssues weekStart [] aggregates

/-! ## The quality gate -/

/-- `blocking_quality_issues`. -/
def blockingQualityIssues (quality : QualityReport) : List PublicationIssue :=
  ((quality.issues.filter fun item => item.code ∈ blockingQualityCodes).map fun item =>
    { code := "quality_blocked", message := item.code ++ ": " ++ item.message }) ++
  (if quality.coveragePending = [] then [] else
    [{ code := "coverage_insufficient"
       message := "Coverage diagnostics are unresolved; the batch cannot be certified" }]) ++
  (if quality.conflictMovementKeys = [] then [] else
    [{ code := "identity_conflict"
       message := "Conflicting identities are unresolved; the batch cannot be written" }]) ++
  (if quality.crossWeekVerificationPending = [] then [] else
    [{ code := "classification_incomplete"
       message := "Cross-week classification is incomplete; the batch cannot be written" }])

/-! ## Reconciliation and UPSERT -/

/-- The rows of the KPI table; `id` and `computed_at` are the database's. -/
abbrev KpiTable : Type := List WeeklyAggregate

/-- `ReconciliationResult`. -/
structure ReconciliationResult where
  disappearedKeys : List AggregateKey := []
  errors : List PublicationIssue := []
  readCompleted : Bool := false
  published : KpiTable := []

/-- The part of `reconcile_disappeared_keys` after its `SELECT`, which returned `rows`. -/
def reconcileRows (weekStart : Int) (aggregates : List WeeklyAggregate) (rows : KpiTable) :
    ReconciliationResult :=
  let calculated := (aggregates.filter fun a => a.weekStart = weekStart).map WeeklyAggregate.key
  if (rows.map WeeklyAggregate.key).Nodup then
    { disappearedKeys :=
        sortedBy AggregateKey.le ((rows.map WeeklyAggregate.key).filter fun k => k ∉ calculated)
      readCompleted := true
      published := rows }
  else
    { errors := [
        { code := "published_key_duplicate"
          message := "Destination returned a duplicate logical key for the week" }] }

/-- One row of the UPSERT: the table it leaves, and whether `RETURNING` mentions the key. -/
def upsertRow (table : KpiTable) (a : WeeklyAggregate) : KpiTable × Bool :=
  if a.key ∈ table.map WeeklyAggregate.key then
    (table.map fun row => if row.key = a.key then a else row, a ∉ table)
  else (table ++ [a], true)

/-- The statement of `build_weekly_upsert_statement`: the table it leaves and the keys it returns. -/
def upsertAll : KpiTable → List WeeklyAggregate → KpiTable × List AggregateKey
  | table, [] => (table, [])
  | table, a :: rest =>
    let (next, changed) := upsertRow table a
    let (final, keys) := upsertAll next rest
    (final, if changed then a.key :: keys else keys)

/-- `_aggregate_sort_key`. -/
def sortedAggregates (aggregates : List WeeklyAggregate) : List WeeklyAggregate :=
  sortedBy (fun a b => a.key.le b.key) aggregates

/-- The row of a key in the snapshot. -/
def publishedRow (published : KpiTable) (key : AggregateKey) : Option WeeklyAggregate :=
  published.find? fun row => row.key = key

/-- `_counts_from_snapshot`: inserted, updated and unchanged rows, or why `RETURNING` does not match
them. -/
def countsFromSnapshot (aggregates : List WeeklyAggregate) (published : KpiTable)
    (returned : List AggregateKey) : Except String (Int × Int × Int) :=
  let inserted := aggregates.filter fun a => (publishedRow published a.key).isNone
  let updated := aggregates.filter fun a => (publishedRow published a.key).any fun row => row ≠ a
  let unchanged := aggregates.filter fun a => publishedRow published a.key = some a
  if ¬returned.Nodup then .error "RETURNING contained a duplicate logical key"
  else if sortedBy AggregateKey.le returned ≠ sortedBy AggregateKey.le
      ((inserted ++ updated).map WeeklyAggregate.key) then
    .error "RETURNING keys do not match the locked snapshot classification"
  else .ok (inserted.length, updated.length, unchanged.length)

end TrackFlow.Pipelines
