import TrackFlow.Pipelines.Coordinator

/-!
# The weekly flow

`weeklyPerformanceFlow`: a run is created or taken over, the week is extracted and calculated, and
the result is checked and published. Each task of the flow that writes runs or leases does so in one
transaction of its own.

`Execution` holds what an execution of the flow does not decide itself: the settings of its runtime,
the clock, how the tasks that only read end, and which transactions fail. A task that fails ends
with the `str` of its exception.
-/

namespace TrackFlow.Pipelines

open TrackFlow.Python TrackFlow.Python.Raising

/-! ## Executions -/

/-- The tasks that write in a transaction of their own. -/
inductive FlowTask
  | createRun
  | failRun
  | qualityGate
  | acquireLease

/-- One execution of the flow. `broken` says with which exception the transaction of a task ends, if
it does, and whether its COMMIT took effect all the same. -/
structure Execution where
  weekStart : Int
  acceptedRunId : Option Uuid
  drawnRunId : Uuid
  sourced : Bool
  coverage : CoverageEvidence
  dependencyFingerprint : String
  rulesVersion : String
  leaseSeconds : Int
  createdAt : Int
  failedAt : Int
  gateAt : Int
  leaseAt : Int
  publishedAt : Int
  extraction : Option String
  relay : Except String Unit
  audit : Except String CoverageEvidence
  extract : Except String Nat
  calculation : Except String WeeklyTransformationResult
  gateCoverage : Except Failure WeeklyTransformationResult
  technicalCoverage : Except Failure WeeklyTransformationResult
  broken : FlowTask → Option (Failure × Bool)
  faults : Faults

/-- `WeeklyExtractionStage`. -/
structure WeeklyExtractionStage where
  coverage : CoverageEvidence
  extracted : Option Nat := none
  failedStage : Option String := none
  error : Option String := none

/-- `PreparedRun`. -/
structure PreparedRun where
  runId : Uuid
  lease : Option ConfirmedLeaseRight
  terminalResult : Option CoordinatorResult := none

/-- One transaction: what `body` makes of the rows is committed, or an exception leaves them. -/
def transaction {α : Type} (broken : Option (Failure × Bool))
    (body : World → Except Exc (α × World)) : Call α := fun w =>
  match broken, body w with
  | none, .ok (a, w') => (.ok a, w')
  | none, .error e => (.error e, w)
  | some (e, effect), .ok (_, w') => (.error (.raised e), if effect then w' else w)
  | some (e, _), .error _ => (.error (.raised e), w)

/-- `update_run` on the committed rows. -/
def updateStored (run : Uuid) (u : RunUpdate) (runs : Runs) : Except CodedError Runs :=
  match runs run with
  | none => .error ⟨"run_not_found", "run_id was not found"⟩
  | some current => (u.apply current).map fun row => Function.update runs run (some row)

/-! ## Tasks -/

section Tasks

variable (x : Execution)

/-- The row that `create_run_task` inserts. -/
def Execution.createdRun : RunRecord where
  runId := x.drawnRunId
  targetWeekStart := x.weekStart
  startedAt := x.createdAt
  status := .pending
  finishedAt := none
  stageReached := some "prefect"
  recordsProcessed := none
  aggregatesCalculated := none
  rowsInserted := none
  rowsUpdated := none
  rowsUnchanged := none
  errorCode := none
  errorMessage := none
  blockReason := none
  commitResult := .notAttempted

/-- `create_run_task`. An accepted run is only correlated. -/
def createRunTask : Call Uuid := transaction (x.broken .createRun) fun w =>
  match x.acceptedRunId with
  | some run =>
    match (w.runs run).filter fun existing =>
        existing.targetWeekStart = x.weekStart ∧ existing.status = .pending with
    | some existing =>
      .ok (run, { w with
        runs := Function.update w.runs run (some { existing with stageReached := some "prefect" }) })
    | none => .error (.raised
        { cls := .otherException, text := "accepted run is missing, mismatched, or no longer pending" })
  | none =>
    if (w.runs x.drawnRunId).isSome then
        .error (.raised { cls := .integrity, text := "run_id already exists" })
    else .ok (x.drawnRunId, { w with runs := Function.update w.runs x.drawnRunId (some x.createdRun) })

/-- What `fail_run_task` makes of the run. -/
def failUpdate (stage error : String) (records : Option Nat) : RunUpdate where
  expectedStatus := .pending
  status := .failedRetryable
  finishedAt := some x.failedAt
  stageReached := some stage
  recordsProcessed := records.map Nat.cast
  errorCode := some (stage ++ "_failed")
  errorMessage := some (takeText 500 error)

/-- `fail_run_task`. -/
def failRunTask (run : Uuid) (stage error : String) (records : Option Nat := none) :
    Call CoordinatorResult :=
  transaction (x.broken .failRun) fun w => do
    let runs ← (updateStored run (failUpdate x stage error records) w.runs).mapError .runStore
    return ({ weekStart := x.weekStart, runId := run, status := .run .failedRetryable,
              errors := [stage ++ "_failed"] }, { w with runs })

/-- What the coordinator is asked. -/
def Execution.request (run : Uuid) (coverage : CoverageEvidence) (t : WeeklyTransformationResult)
    (events : Nat) (lease : Option ConfirmedLeaseRight) (now : Int) : Request where
  weekStart := x.weekStart
  runId := run
  aggregates := t.aggregates
  quality := some t.quality
  coverage := some coverage
  dependencyFingerprint := some x.dependencyFingerprint
  rulesVersion := some x.rulesVersion
  lease := lease
  now := now
  recordsProcessed := some events

/-- The issues of `quality_gate_task`, and the number of aggregates; a coverage attestation that is
refused is one. -/
def gateIssues (run : Uuid) (coverage : CoverageEvidence) (t : WeeklyTransformationResult) (events : Nat) :
    Except Failure (List String × Nat) :=
  match x.gateCoverage with
  | .ok t => .ok (preWriteIssues (x.request run coverage t events none x.gateAt), t.aggregates.length)
  | .error e => if e.cls = .valueError then .ok (["technical_coverage_invalid"], t.aggregates.length) else .error e

/-- What `quality_gate_task` makes of a run that it blocks. -/
def blockUpdate (issues : List String) (aggregates events : Nat) : RunUpdate where
  expectedStatus := .pending
  status := .blockedQuality
  finishedAt := some x.gateAt
  stageReached := some "quality"
  recordsProcessed := some events
  aggregatesCalculated := some aggregates
  blockReason := issues.head?
  errorMessage := some (takeText 500 (",".intercalate issues))

/-- `quality_gate_task`. -/
def qualityGateTask (run : Uuid) (coverage : CoverageEvidence) (t : WeeklyTransformationResult)
    (events : Nat) :
    Call (Option CoordinatorResult) := do
  let (issues, aggregates) ← Raising.ofExcept ((gateIssues x run coverage t events).mapError Exc.raised)
  if issues = [] then return none
  else
    transaction (x.broken .qualityGate) fun w => do
      let runs ← (updateStored run (blockUpdate x issues aggregates events) w.runs).mapError .runStore
      return (some { weekStart := x.weekStart, runId := run, status := .run .blockedQuality,
                     errors := issues }, { w with runs })

/-- `acquire_week_lease` on the committed rows. -/
def acquireLeaseNow (run : Uuid) (w : World) : Except Exc (LeaseDecision × World) := do
  let _ ← (week x.weekStart).mapError .runStore
  let seconds ← (checkLeaseSeconds x.leaseSeconds).mapError .concurrency
  match w.runs run with
  | none => throw (.concurrency ⟨"run_not_found", "run_id was not found"⟩)
  | some row =>
    if row.targetWeekStart ≠ x.weekStart then
      throw (.concurrency ⟨"week_mismatch", "run target week does not match the lease week"⟩)
    let clock := x.faults.clock
    let control := (w.reporting.control x.weekStart).getD { weekStart := x.weekStart }
    let store (c : WeekControl) : World :=
      { w with reporting := { w.reporting with control := Function.update w.reporting.control x.weekStart (some c) } }
    if !control.ownerRunId.isNone && !control.expired clock then
      return (decision x.weekStart (if control.owned run then .alreadyHeld else .occupied) run
        control true, store control)
    let granted := control.grant run clock (clock + seconds * 1000000)
    if !granted.check then throw (.concurrency ⟨"integrity_error", "lease write violated a constraint"⟩)
    return (decision x.weekStart (if control.ownerRunId.isNone then .acquired else .recovered) run granted
      true, store granted)

/-- The text of a status of a lease decision. -/
def LeaseStatus.text : LeaseStatus → String
  | acquired => "acquired"
  | recovered => "recovered"
  | occupied => "occupied"
  | alreadyHeld => "already_held"
  | verified => "verified"
  | renewed => "renewed"
  | released => "released"
  | rejected => "rejected"

/-- `record_lease_run_status`, as `acquire_lease_task` calls it. -/
def recordLeaseRunStatus (run : Uuid) (status : RunStatus) (reason : String) (runs : Runs) :
    Except Exc Runs :=
  match runs run with
  | none => .error (.concurrency ⟨"run_not_found", "run_id was not found"⟩)
  | some current =>
    (updateStored run
      { expectedStatus := current.status, status, finishedAt := some x.leaseAt, blockReason := some reason
        stageReached := some "lease" } runs).mapError .concurrency

/-- The transaction of `acquire_lease_task`: a lease that is refused ends the run. -/
def leaseOrEnd (run : Uuid) (w : World) : Except Exc (PreparedRun × World) := do
  let (d, w) ← acquireLeaseNow x run w
  if d.granted then
    return (⟨run, some ⟨x.weekStart, run, d.fencingToken.getD 0, true⟩, none⟩, w)
  else
    let status := if d.status ∈ [.occupied, .alreadyHeld] then RunStatus.skippedInProgress else .superseded
    let runs ← recordLeaseRunStatus x run status d.status.text w.runs
    return (⟨run, none, some { weekStart := x.weekStart, runId := run, status := .run status,
                               errors := [d.status.text] }⟩, { w with runs })

/-- `acquire_lease_task`. -/
def acquireLeaseTask (run : Uuid) : Call PreparedRun :=
  transaction (x.broken .acquireLease) (leaseOrEnd x run)

/-- `publish_week_task`: the connections are closed however it ends. -/
def publishWeekTask (prepared : PreparedRun) (coverage : CoverageEvidence)
    (t : WeeklyTransformationResult) (events : Nat) :
    Call CoordinatorResult := fun w =>
  let (r, w') := publishWeeklyBusinessReport x.faults
    (x.request prepared.runId coverage t events prepared.lease x.publishedAt) w.begin
  (r, { w' with operational := none, business := none, unusable := false })

/-! ## Flows -/

/-- `extract_weekly_warehouse_events_flow`; it may also fail outside its tasks. -/
def extractWeeklyWarehouseEvents : Except String WeeklyExtractionStage :=
  match x.extraction with
  | some error => .error error
  | none =>
    let extracted (coverage : CoverageEvidence) : WeeklyExtractionStage :=
      match x.extract with
      | .error error => { coverage, failedStage := some "extract", error := some error }
      | .ok events => { coverage, extracted := some events }
    if x.sourced then
      match x.relay with
      | .error error => .ok { coverage := x.coverage, failedStage := some "relay", error := some error }
      | .ok () =>
        match x.audit with
        | .error error => .ok { coverage := x.coverage, failedStage := some "coverage_audit", error := some error }
        | .ok evidence => .ok (extracted evidence)
    else .ok (extracted x.coverage)

/-- `publish_weekly_business_report_flow`. -/
def publishWeeklyBusinessReportFlow (run : Uuid) (coverage : CoverageEvidence)
    (t : WeeklyTransformationResult)
    (events : Nat) : Call CoordinatorResult := do
  match ← qualityGateTask x run coverage t events with
  | some blocked => return blocked
  | none =>
    let t ← Raising.ofExcept (x.technicalCoverage.mapError Exc.raised)
    let prepared ← acquireLeaseTask x run
    match prepared.terminalResult with
    | some r => return r
    | none => publishWeekTask x prepared coverage t events

/-- The text of an exception or, without it, what the flow says instead. -/
def errorOr (error : Option String) : String :=
  if RunUpdate.falsy error then "weekly extraction did not return data" else error.getD ""

/-- `weekly_performance_flow`. -/
def weeklyPerformanceFlow : Call CoordinatorResult := do
  let run ← createRunTask x
  match extractWeeklyWarehouseEvents x with
  | .error error => failRunTask x run "extract" error
  | .ok stage =>
    match stage.failedStage, stage.extracted with
    | none, some events =>
      match x.calculation with
      | .error error => failRunTask x run "transform" error (some events)
      | .ok t =>
        match ← attempt (publishWeeklyBusinessReportFlow x run stage.coverage t events) with
        | .ok r => return r
        | .error e => raise (.raised { cls := .otherException, text := e.text })
    | failedStage, _ => failRunTask x run (failedStage.getD "extract") (errorOr stage.error)

end Tasks

/-! ## Leases -/

/-- A lease is sought without a look at the run history, and refused for one of two reasons. -/
theorem acquireLeaseNow_ok {x : Execution} {run : Uuid} {w w₁ : World} {d : LeaseDecision}
    (h : acquireLeaseNow x run w = .ok (d, w₁)) :
    w₁.runs = w.runs ∧ (d.granted = false → d.status = .occupied ∨ d.status = .alreadyHeld) := by
  obtain ⟨_, -, h⟩ := bind_ok h
  obtain ⟨seconds, -, h⟩ := bind_ok h
  split at h
  · cases h
  · dsimp only at h
    split at h
    · cases h
    · split at h
      · cases h
        refine ⟨rfl, fun _ => ?_⟩
        show (if _ then LeaseStatus.alreadyHeld else .occupied) = _ ∨ _
        split
        · exact Or.inr rfl
        · exact Or.inl rfl
      · split at h
        · cases h
        · cases h
          refine ⟨rfl, fun hg => ?_⟩
          revert hg
          show (LeaseDecision.granted (decision _ (if _ then _ else _) _ _ _)) = false → _
          split <;> exact fun hg => (nomatch hg)

end TrackFlow.Pipelines
