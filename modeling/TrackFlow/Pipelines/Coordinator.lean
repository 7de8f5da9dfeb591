import TrackFlow.Python.Raising
import TrackFlow.Pipelines.Concurrency
import TrackFlow.Pipelines.Publication

/-!
# The publication coordinator

`publishWeeklyBusinessReport`: one week is verified, reconciled, upserted, pointed at and released
in one business transaction, and the history of the run is written on an operational connection that
is committed separately.

Every statement, COMMIT and ROLLBACK is a `Site`. `Faults` says which sites raise, and which failed
COMMITs took effect all the same; a statement that raises changes nothing. Besides the rows, `World`
keeps two records that no statement reads: `trace`, the sites that ran, and `attempts`, the business
COMMITs.

Both connections are PostgreSQL connections that do not autocommit, and they are not the same one.
-/

namespace TrackFlow.Pipelines

open TrackFlow.Python TrackFlow.Python.Raising

/-! ## Exceptions -/

/-- The classes that the handlers tell apart; those up to `otherDatabase` are subclasses of
`SQLAlchemyError`. -/
inductive ExcClass
  | integrity
  | data
  | programming
  | operational
  | interface
  | disconnection
  | pendingRollback
  | otherDatabase
  | valueError
  | keyError
  | typeError
  | otherException
  | interrupt
  deriving DecidableEq

/-- `isinstance(exc, SQLAlchemyError)`. -/
def ExcClass.database : ExcClass → Bool
  | valueError | keyError | typeError | otherException | interrupt => false
  | _ => true

/-- An exception that a connection raises: its class, `_sqlstate` and `str`. -/
structure Failure where
  cls : ExcClass
  sqlstate : Option String := none
  text : String

/-- The exceptions of the coordinator and of what it calls. -/
inductive Exc
  | raised (e : Failure)
  | runStore (e : CodedError)
  | concurrency (e : CodedError)
  | coordinator (e : CodedError)

namespace Exc

/-- `str(exc)`. -/
def text : Exc → String
  | raised e => e.text
  | runStore e | concurrency e | coordinator e => e.message

/-- Whether `except Exception` catches it. -/
def ordinary : Exc → Bool
  | raised e => e.cls ≠ .interrupt
  | _ => true

end Exc

/-- `_UNCERTAIN_SQLSTATES`. -/
def uncertainSqlstates : List String :=
  ["08000", "08001", "08003", "08004", "08006", "08007", "57P01", "57P02", "57P03"]

/-- `_CONNECTION_MARKERS`. -/
def connectionMarkers : List String :=
  ["could not connect", "connection refused", "server closed the connection", "connection already closed",
    "consuming input failed", "could not receive data", "ssl syscall error", "connection reset",
    "broken pipe"]

/-- `_is_connection_failure`. -/
def isConnectionFailure (e : Failure) : Bool :=
  e.cls = .disconnection || e.cls = .interface ||
    e.sqlstate.any (fun s => startsWith "08" s || s ∈ uncertainSqlstates) ||
      hasMarker connectionMarkers e.text

/-- What the SQLSTATE alone says about a failed COMMIT. -/
def sqlstateUncertain (s : String) : Option Bool :=
  if s ∈ uncertainSqlstates ∨ startsWith "08" s then some true
  else if takeText 2 s ∈ ["22", "23", "40", "42"] then some false
  else none

/-- `_commit_failure_is_uncertain`. -/
def commitFailureIsUncertain (e : Failure) : Bool :=
  if e.cls ∈ [.integrity, .data, .programming, .pendingRollback] then false
  else
    match e.sqlstate.bind sqlstateUncertain with
    | some verdict => verdict
    | none =>
      e.cls = .disconnection || e.cls = .interface || hasMarker connectionMarkers e.text ||
        hasMarker ["timed out", "timeout"] e.text || e.cls = .operational || !e.cls.database

/-- `_rows` of the run store: integrity errors pass. -/
def storeError (e : Failure) : Exc :=
  if e.cls.database && e.cls ≠ .integrity then .runStore ⟨"write_error", e.text⟩ else .raised e

/-- `_rows` of the lease module. -/
def leaseError (e : Failure) : Exc :=
  if e.cls ∈ [.disconnection, .interface, .pendingRollback, .operational] then
    .concurrency ⟨"transaction_uncertain", "lease statement outcome is uncertain; the week is not free"⟩
  else if e.cls = .integrity then .concurrency ⟨"integrity_error", "lease write violated a constraint"⟩
  else if e.cls.database then .concurrency ⟨"query_failed", "lease statement failed"⟩
  else .raised e

/-! ## The two connections -/

/-- The places where a connection can raise; each is passed at most once in a call. -/
inductive Site
  | identify
  | verify
  | markSelect
  | markUpdate
  | markCommit
  | reconcile
  | upsert
  | stageRollback
  | recordSelectRun
  | recordEnsure
  | recordSelectControl
  | recordUpdate
  | release
  | commit
  | rollback
  | finishBegin
  | finishSelect
  | finishUpdate
  | finishCommit
  | observeBegin
  | observeSelect
  | observeUpdate
  | observeCommit
  deriving DecidableEq

/-- The run history. -/
abbrev Runs : Type := Uuid → Option RunRecord

/-- The rows of the business transaction: the week controls and the KPI table. -/
structure Reporting where
  control : Int → Option WeekControl
  kpis : KpiTable

/-- An attempt to COMMIT the business transaction: what it would commit, whether it took effect, and
what ran before. -/
structure Attempt where
  view : Reporting
  effect : Bool
  before : List (Site × Bool)

/-- The committed rows, the open transactions with what they see, and what was done. -/
structure World where
  runs : Runs
  reporting : Reporting
  operational : Option Runs := none
  business : Option Reporting := none
  unusable : Bool := false
  trace : List (Site × Bool) := []
  attempts : List Attempt := []

/-- What goes wrong in a call, and the clock of the database. -/
structure Faults where
  raises : Site → Option Failure := fun _ => none
  takesEffect : Site → Bool := fun _ => false
  clock : Int

namespace World

/-- Two connections with a transaction just begun, as the callers of the coordinator pass them. -/
def begin (w : World) : World :=
  { w with operational := some w.runs, business := some w.reporting, trace := [], attempts := [] }

/-- A site is passed. -/
def note (w : World) (site : Site) (raised : Bool) : World :=
  { w with trace := w.trace ++ [(site, raised)] }

/-- The end of the operational transaction. -/
def endOperational (w : World) (effect : Bool) : World :=
  { w with
    runs := if effect then w.operational.getD w.runs else w.runs
    operational := none }

/-- The end of the business transaction by a COMMIT. -/
def endBusiness (w : World) (effect : Bool) : World :=
  { w with
    reporting := if effect then w.business.getD w.reporting else w.reporting
    business := none
    attempts := w.attempts ++ (w.business.map fun view => ⟨view, effect, w.trace⟩).toList }

end World

/-- A program on the two connections. -/
abbrev Call (α : Type) : Type := Raising World Exc α

section Statements

variable {α : Type} (f : Faults)

/-- A statement at `site`. What it raises is wrapped by the module that executes it. -/
def statement (wrap : Failure → Exc) (site : Site) (effect : Call α) : Call α := fun w =>
  match f.raises site with
  | some e => (.error (wrap e), w.note site true)
  | none => effect (w.note site false)

/-- A COMMIT at `site`. When it raises it may have taken effect. -/
def commitAt (site : Site) (close : World → Bool → World) : Call Unit := fun w =>
  match f.raises site with
  | some e => (.error (.raised e), (close w (f.takesEffect site)).note site true)
  | none => (.ok (), (close w true).note site false)

/-- Raise what a validator refuses. -/
def checked (wrap : CodedError → Exc) (x : Except CodedError α) : Call α :=
  Raising.ofExcept (x.mapError wrap)

/-- The rows that the operational transaction sees; `_require_transaction` raises when there is none. -/
def operationalView : Call Runs := fun w =>
  match w.operational with
  | some view => (.ok view, w)
  | none => (.error (.runStore ⟨"transaction_required", "an open transaction is required"⟩), w)

/-- The rows that the business transaction sees, with the same check. -/
def businessView : Call Reporting := fun w =>
  match w.business with
  | some view => (.ok view, w)
  | none => (.error (.runStore ⟨"transaction_required", "an open transaction is required"⟩), w)

/-- What the business transaction sees after its own write. -/
def setBusiness (view : Reporting) : Call Unit := modify fun w => { w with business := some view }

/-! ## The run store -/

/-- `SELECT_RUN_SQL` on the operational connection. -/
def selectRun (site : Site) (run : Uuid) : Call (Option RunRecord) := do
  let _ ← operationalView
  statement f storeError site do
    let view ← operationalView
    return view run

/-- `_require_run`. -/
def requireRun (site : Site) (run : Uuid) : Call RunRecord := do
  match ← selectRun f site run with
  | none => raise (.runStore ⟨"run_not_found", "run_id was not found"⟩)
  | some record => return record

/-- `UPDATE … WHERE run_id = … AND status = …`. -/
def replaceRun (run : Uuid) (expected : RunStatus) (record : RunRecord) (missing : CodedError) :
    Call Unit := do
  let view ← operationalView
  if (view run).any fun current => current.status = expected then
    modify fun w => { w with operational := some (Function.update view run (some record)) }
  else raise (.runStore missing)

/-- `update_run`. -/
def updateRun (select update : Site) (run : Uuid) (u : RunUpdate) : Call Unit := do
  let current ← requireRun f select run
  let record ← checked .runStore (u.apply current)
  statement f storeError update
    (replaceRun run u.expectedStatus record ⟨"status_conflict", "run status changed before the update"⟩)

/-- The row that `record_commit_observation` leaves, after its checks. -/
def commitObservation (current : RunRecord) (commitResult : CommitResult)
    (stageReached errorCode errorMessage : String) :
    Except CodedError RunRecord := do
  if current.status ≠ .running then
    throw ⟨"status_conflict", "only a running run can record an unresolved commit"⟩
  let stage ← label stageReached "stage_reached"
  let code ← label errorCode "error_code"
  let message ← optionalText (some errorMessage) "error_message"
  return { current with commitResult, stageReached := some stage, errorCode := some code, errorMessage := message }

/-- `record_commit_observation`. -/
def recordCommitObservation (run : Uuid) (commitResult : CommitResult)
    (stageReached errorCode errorMessage : String) :
    Call Unit := do
  let _ ← operationalView
  if commitResult ∉ [.uncertain, .uncommitted, .rolledBack] then
    raise (.runStore
      ⟨"invalid_commit_result", "an unresolved observation cannot be recorded as a successful commit"⟩)
  let current ← requireRun f .observeSelect run
  let record ← checked .runStore
    (commitObservation current commitResult stageReached errorCode errorMessage)
  statement f storeError .observeUpdate
    (replaceRun run .running record ⟨"status_conflict", "run status changed before the commit observation"⟩)

/-- `record_valid_publication` on the business connection, whose `SELECT` finds the committed runs. -/
def recordPublication (weekStart : Int) (run : Uuid) (p : Publication) : Call Unit := do
  let _ ← businessView
  let _ ← checked .runStore (week weekStart)
  let found ← statement f storeError .recordSelectRun do
    let w ← get
    return w.runs run
  match found with
  | none => raise (.runStore ⟨"run_not_found", "run_id was not found"⟩)
  | some record =>
    if record.targetWeekStart ≠ weekStart then
      raise (.runStore ⟨"week_mismatch", "run target week does not match the control week"⟩)
    statement f storeError .recordEnsure do
      let view ← businessView
      if (view.control weekStart).isNone then
        setBusiness { view with control := Function.update view.control weekStart (some { weekStart := weekStart }) }
    let control ← statement f storeError .recordSelectControl do
      let view ← businessView
      return view.control weekStart
    if control.isNone then
      raise (.runStore ⟨"control_not_found", "week control could not be read after insert"⟩)
    checked .runStore p.check
    let updated ← statement f storeError .recordUpdate do
      let view ← businessView
      setBusiness { view with
        control := Function.update view.control weekStart ((view.control weekStart).map (·.record run p)) }
      return view.control weekStart
    if updated.isNone then raise (.runStore ⟨"control_not_found", "week control was not updated"⟩)

/-! ## The lease -/

/-- `verify_week_lease` on the business connection. -/
def verifyLeaseNow (weekStart : Int) (run : Uuid) (fencingToken : Int) : Call LeaseDecision := do
  let _ ← businessView
  let _ ← checked .runStore (week weekStart)
  let token ← checked .concurrency (checkToken fencingToken)
  let locked ← statement f leaseError .verify do
    let view ← businessView
    return view.control weekStart
  match locked with
  | none => return refusal weekStart run
  | some row =>
    return decision weekStart (if row.verifies run token f.clock then .verified else .rejected) run row true

/-- `release_week_lease` on the business connection. -/
def releaseLeaseNow (weekStart : Int) (run : Uuid) (fencingToken : Int) : Call LeaseDecision := do
  let _ ← businessView
  let _ ← checked .runStore (week weekStart)
  let token ← checked .concurrency (checkToken fencingToken)
  statement f leaseError .release do
    let view ← businessView
    match view.control weekStart with
    | none => return refusal weekStart run
    | some row =>
      if row.owned run && row.fencingToken = token then
        setBusiness { view with control := Function.update view.control weekStart (some row.release) }
        return { refusal weekStart run with
          status := .released, fencingToken := some row.release.fencingToken, lockHeld := true }
      else return refusal weekStart run

/-! ## Staging -/

/-- `_mark_unusable`. -/
def markUnusable : Call Unit := modify fun w => { w with unusable := true }

/-- `connection.rollback()` on the business connection. -/
def rollbackBusiness (site : Site) : Call Unit :=
  statement f .raised site (modify fun w => { w with business := none })

/-- `_release_business_lock`: `rollback_publication_transaction`, whose observation is not used. -/
def releaseBusinessLock : Call Unit :=
  tryCatch (rollbackBusiness f .rollback) fun e => if e.ordinary then markUnusable else raise e

/-- `_rollback_quietly`. -/
def rollbackQuietly : Call Bool :=
  tryCatch (do rollbackBusiness f .stageRollback; return true) fun e => if e.ordinary then
      return false else raise e

/-- The statuses of `PublicationOutcome` that staging uses. -/
inductive StageStatus
  | blocked
  | staged
  | rolledBack
  | connectionError
  | rollbackFailed
  deriving DecidableEq

/-- The stored text. -/
def StageStatus.text : StageStatus → String
  | blocked => "blocked"
  | staged => "staged"
  | rolledBack => "rolled_back"
  | connectionError => "connection_error"
  | rollbackFailed => "rollback_failed"

/-- `PublicationOutcome`. -/
structure PublicationOutcome where
  status : StageStatus
  inserted : Int := 0
  updated : Int := 0
  unchanged : Int := 0
  errors : List PublicationIssue := []
  rollbackObserved : Bool := false

/-- `_close_failed_transaction`. -/
def closeFailedTransaction (connectionFailure rollbackObserved : Bool) : Call StageStatus := do
  if connectionFailure then
    markUnusable
    return .connectionError
  else if rollbackObserved then return .rolledBack
  else
    markUnusable
    return .rollbackFailed

/-- `_database_issue`. -/
def databaseIssue (e : Failure) (phase : String) : PublicationIssue where
  code :=
    if isConnectionFailure e then "connection_error"
    else if e.cls = .integrity then "integrity_error"
    else if e.cls = .data ∨ e.cls = .programming then "write_error"
    else if phase = "upsert" then "write_error"
    else "database_error"
  message := phase ++ ": " ++ e.text
  sqlstate := e.sqlstate

/-- `_status_for_issues`. -/
def statusForIssues (issues : List PublicationIssue) : StageStatus :=
  if issues.any fun i => i.code = "connection_error" then .connectionError else .blocked

/-- `_transaction_issue`. -/
def transactionIssue : Call (Option PublicationIssue) := do
  let w ← get
  if w.unusable then
    return some
      { code := "transaction_aborted"
        message := "The transaction is aborted or unusable and cannot accept more statements" }
  else if w.business.isNone then
    return some
      { code := "transaction_required"
        message := "An open transaction is required; this module will not begin or commit one" }
  else return none

/-- `reconcile_disappeared_keys`. -/
def reconcileDisappearedKeys (weekStart : Int) (aggregates : List WeeklyAggregate) :
    Call ReconciliationResult := do
  match weekIssue weekStart with
  | some issue => return { errors := [issue] }
  | none =>
  match ← transactionIssue with
  | some issue => return { errors := [issue] }
  | none =>
  let rows ← attempt <| statement f .raised .reconcile do
    let view ← businessView
    return view.kpis.filter fun row => row.weekStart = weekStart
  match rows with
  | .ok rows => return reconcileRows weekStart aggregates rows
  | .error (.raised e) =>
    if e.cls.database then return { errors := [databaseIssue e "reconcile"] } else raise (.raised e)
  | .error e => raise e

/-- The UPSERT of `_stage_weekly_upsert`, with the counts that `RETURNING` must match. -/
def upsertBatch (ordered : List WeeklyAggregate) (published : KpiTable) : Call (Int × Int × Int) := do
  let returned ← statement f .raised .upsert do
    let view ← businessView
    setBusiness { view with kpis := (upsertAll view.kpis ordered).1 }
    return (upsertAll view.kpis ordered).2
  Raising.ofExcept <|
    (countsFromSnapshot ordered published returned).mapError fun text =>
        .raised { cls := .valueError, text }

/-- The handler of the UPSERT. -/
def upsertFailed : Exc → Call PublicationOutcome
  | .raised e => do
    if e.cls.database ∨ e.cls ∈ [.valueError, .keyError, .typeError] then
      let issue := if e.cls.database then databaseIssue e "upsert"
        else { code := "upsert_result_unreadable", message := e.text }
      let rollbackObserved ← rollbackQuietly f
      let status ← closeFailedTransaction (e.cls.database && isConnectionFailure e) rollbackObserved
      return { status, errors := [issue], rollbackObserved }
    else raise (.raised e)
  | e => raise e

/-- The issue of published keys that the batch does not contain. -/
def disappearedIssue : PublicationIssue where
  code := "reconciliation_conflict"
  message := "Published keys are absent from the calculated batch; automatic deletion is not allowed"

/-- `_stage_weekly_upsert` once the reconciliation has read the published rows. -/
def stageReconciled (aggregates : List WeeklyAggregate) (validationIssues : List PublicationIssue)
    (reconciliation : ReconciliationResult) : Call PublicationOutcome := do
  let blockers := validationIssues ++
    (if reconciliation.disappearedKeys = [] then [] else [disappearedIssue])
  if blockers ≠ [] then return { status := .blocked, errors := blockers }
  else
    let ordered := sortedAggregates aggregates
    match ← attempt (upsertBatch f ordered reconciliation.published) with
    | .ok (inserted, updated, unchanged) => return { status := .staged, inserted, updated, unchanged }
    | .error e => upsertFailed f e

/-- The codes of a reconciliation that failed in the database. -/
def databaseFailureCodes : List String :=
  ["connection_error", "database_error", "integrity_error", "write_error"]

/-- `_stage_weekly_upsert`. -/
def stageWeeklyUpsert (weekStart : Int) (aggregates : List WeeklyAggregate) (now : Int) :
    Call PublicationOutcome := do
  let validationIssues := validateWeeklyPublicationBatch weekStart aggregates (.aware now)
  let weekInvalid := validationIssues.any fun i => i.code = "invalid_week_start"
  let onlyEmpty := validationIssues ≠ [] ∧ ∀ i ∈ validationIssues, i.code = "empty_batch_not_certified"
  if weekInvalid ∨ (validationIssues ≠ [] ∧ ¬onlyEmpty) then
      return { status := .blocked, errors := validationIssues }
  else
  match ← transactionIssue with
  | some issue => return { status := statusForIssues [issue], errors := validationIssues ++ [issue] }
  | none =>
    let reconciliation ← reconcileDisappearedKeys f weekStart aggregates
    if reconciliation.readCompleted then stageReconciled f aggregates validationIssues reconciliation
    else
      let errors := validationIssues ++ reconciliation.errors
      if reconciliation.errors.any fun i => i.code ∈ databaseFailureCodes then
        let rollbackObserved ← rollbackQuietly f
        let _ ← closeFailedTransaction (errors.any fun i => i.code = "connection_error") rollbackObserved
        return { status := statusForIssues errors, errors, rollbackObserved }
      else return { status := statusForIssues errors, errors }

end Statements

/-! ## Requests and results -/

/-- `CoverageEvidence`. -/
structure CoverageEvidence where
  confirmedEventTypes : List String
  dispatchOrderIds : List (String × String)
  lookupComplete : Bool
  source : String

/-- `ConfirmedLeaseRight`. -/
structure ConfirmedLeaseRight where
  weekStart : Int
  runId : Uuid
  fencingToken : Int
  acquisitionCommitted : Bool

/-- The arguments of `publish_weekly_business_report` besides the connections. -/
structure Request where
  weekStart : Int
  runId : Uuid
  aggregates : List WeeklyAggregate
  quality : Option QualityReport
  coverage : Option CoverageEvidence
  dependencyFingerprint : Option String
  rulesVersion : Option String
  lease : Option ConfirmedLeaseRight
  now : Int
  recordsProcessed : Option Int := none

/-- The statuses of a `CoordinatorResult`: those of the run, and `STATUS_COMMIT_UNCERTAIN`. -/
inductive ResultStatus
  | run (status : RunStatus)
  | commitUncertain
  deriving DecidableEq

/-- `CoordinatorResult`. -/
structure CoordinatorResult where
  weekStart : Int
  runId : Uuid
  status : ResultStatus
  errors : List String := []
  inserted : Int := 0
  updated : Int := 0
  unchanged : Int := 0
  commitResult : CommitResult := .notAttempted
  publicationRecorded : Bool := false
  recovered : Bool := false
  evidenceInconclusive : Bool := false
  coverageSource : Option String := none

/-- `CoordinatorResult.business_publication_valid`. -/
def CoordinatorResult.businessPublicationValid (r : CoordinatorResult) : Bool :=
  r.publicationRecorded && (r.status = .run .succeeded || r.status = .run .succeededNoop) &&
    r.commitResult = .technicallyObserved && !r.evidenceInconclusive

/-! ## Checks before any write -/

/-- `REQUIRED_COVERAGE_EVENTS`. -/
def requiredCoverageEvents : List String := ["stock_threshold_triggered", "inventory_discrepancy_detected"]

/-- `FINGERPRINT_PARTS`. -/
def fingerprintParts : List String := ["telemetry=", "movements=", "stockexit=", "rules="]

/-- `_coverage_issues`. -/
def coverageIssues : Option CoverageEvidence → List String
  | none => ["coverage_evidence_required"]
  | some c =>
    if c.source ∉ ["synthetic_fixture", "operational_checkpoints"] ∨ ¬c.lookupComplete then
        ["coverage_insufficient"]
    else if ¬∀ e ∈ requiredCoverageEvents, e ∈ c.confirmedEventTypes then ["coverage_insufficient"]
    else if c.dispatchOrderIds.any fun pair => pair.1.isEmpty || pair.2.isEmpty then
        ["dispatch_order_not_unique"]
    else if ¬(c.dispatchOrderIds.map (·.1)).Nodup then ["dispatch_order_not_unique"]
    else []

/-- `_fingerprint_issue`. -/
def fingerprintIssue (value : Option String) (weekStart : Int) : Bool :=
  match value with
  | none => true
  | some value =>
    let compact := strip value
    compact.length < 32 || compact = isoDate weekStart || startsWith "MAX(" compact ||
      fingerprintParts.any fun part => !occurs part.toList compact.toList

/-- `_pre_write_issues`. -/
def preWriteIssues (q : Request) : List String :=
  let issues :=
    (validateWeeklyPublicationBatch q.weekStart q.aggregates (.aware q.now)).map PublicationIssue.code ++
    (match q.quality with
      | none => ["quality_required"]
      | some quality => (blockingQualityIssues quality).map PublicationIssue.code) ++
    coverageIssues q.coverage ++
    (if fingerprintIssue q.dependencyFingerprint q.weekStart then ["fingerprint_incomplete"] else []) ++
    (if q.rulesVersion.all isBlank then ["rules_version_required"] else [])
  firstBy id issues

/-- `_durable_claim`. -/
def durableClaim (q : Request) : Option ConfirmedLeaseRight :=
  q.lease.filter fun lease =>
    lease.acquisitionCommitted && lease.weekStart = q.weekStart && lease.runId = q.runId && 0 ≤
      lease.fencingToken

/-- `_lease_rejection_status`. -/
def leaseRejectionStatus (d : LeaseDecision) : RunStatus :=
  if d.ownerRunId.isSome && d.ownerRunId ≠ d.runId then .skippedInProgress else .superseded

/-! ## The coordinator -/

section Coordinator

variable (f : Faults) (q : Request)

/-- `_result`. -/
def result (status : ResultStatus) (errors : List String) (commitResult : CommitResult := .notAttempted) :
    CoordinatorResult where
  weekStart := q.weekStart
  runId := q.runId
  status := status
  errors := errors
  commitResult := commitResult

/-- `_require_separated_transactions`: both connections have an open transaction. -/
def requireSeparatedTransactions : Call Unit := do
  let w ← get
  if w.business.isNone then
    raise (.coordinator ⟨"transaction_required", "business connection has no open transaction"⟩)
  if w.operational.isNone then
    raise (.coordinator ⟨"transaction_required", "operational connection has no open transaction"⟩)

/-- `_commit_operational`. -/
def commitOperational (site : Site) : Call Unit :=
  tryCatch (commitAt f site World.endOperational) fun e =>
    if e.ordinary then raise (.coordinator ⟨"operational_commit_failed",
      "run history could not be committed"⟩)
    else raise e

/-- `_begin_operational_transaction`. -/
def beginOperationalTransaction (site : Site) : Call Unit := do
  let w ← get
  if w.operational.isNone then
    statement f .raised site (modify fun w => { w with operational := some w.runs })

/-- `_identified_run`. -/
def identifiedRun : Call RunRecord := do
  let found ← tryCatch (selectRun f .identify q.runId) fun e =>
    match e with
    | .runStore e => raise (.coordinator e)
    | e => raise e
  match found with
  | none => raise (.coordinator ⟨"run_not_found", "publication requires an existing run"⟩)
  | some run =>
    if run.targetWeekStart ≠ q.weekStart then
      raise (.coordinator ⟨"week_mismatch", "run target week does not match the publication week"⟩)
    if run.status ≠ .pending then
        raise (.coordinator ⟨"status_conflict", "publication requires a pending run"⟩)
    return run

/-- `_mark_running`. -/
def markRunning : Call Unit := do
  updateRun f .markSelect .markUpdate q.runId
    { expectedStatus := .pending, status := .running, stageReached := some "publish", commitResult := some .uncommitted }
  commitOperational f .markCommit

/-- The arguments of `_finish_run` besides the connection and the run. -/
structure Finish where
  expectedStatus : RunStatus
  status : RunStatus
  stageReached : String
  errors : List String
  commitResult : CommitResult
  blockReason : Option String := none
  errorCode : Option String := none
  errorMessage : Option String := none
  inserted : Int := 0
  updated : Int := 0
  unchanged : Int := 0
  aggregates : Option Int := none
  recordsProcessed : Option Int := none

/-- The update that `_finish_run` makes. -/
def Finish.update (a : Finish) (now : Int) : RunUpdate where
  expectedStatus := a.expectedStatus
  status := a.status
  finishedAt := some now
  stageReached := some a.stageReached
  recordsProcessed := a.recordsProcessed
  aggregatesCalculated := a.aggregates
  rowsInserted := some a.inserted
  rowsUpdated := some a.updated
  rowsUnchanged := some a.unchanged
  errorCode := if RunUpdate.falsy a.errorCode then (if a.status = .failedRetryable then
      a.errors.head? else none)
    else a.errorCode
  errorMessage := a.errorMessage
  blockReason := a.blockReason
  commitResult := some a.commitResult

/-- `_finish_run`. -/
def finishRun (a : Finish) : Call Unit := do
  beginOperationalTransaction f .finishBegin
  updateRun f .finishSelect .finishUpdate q.runId (a.update q.now)
  commitOperational f .finishCommit

/-- `_observe_uncertain`. -/
def observeUncertain (commitResult : CommitResult) : Call Unit := do
  beginOperationalTransaction f .observeBegin
  recordCommitObservation f q.runId commitResult "commit" "commit_uncertain"
    "business commit was not confirmed; writes were not retried"
  commitOperational f .observeCommit

/-- `_commit_business`. -/
def commitBusiness : Call CommitResult :=
  tryCatch (do commitAt f .commit World.endBusiness; return .technicallyObserved) fun e =>
    match e with
    | .raised e =>
      if e.cls = .interrupt then raise (.raised e)
      else return if commitFailureIsUncertain e then .uncertain else .rolledBack
    | e => raise e

/-- The codes of a batch that was not staged. -/
def abortCodes (staged : PublicationOutcome) : List String :=
  if staged.errors = [] then [staged.status.text] else staged.errors.map PublicationIssue.code

/-- Whether it is blocked for its quality. -/
def abortBlocked (staged : PublicationOutcome) : Bool :=
  staged.status = .blocked ||
    (abortCodes staged).any fun c => c ∈ ["reconciliation_conflict", "empty_batch_not_certified",
      "quality_blocked"]

/-- The run that `_abort_staged` records for it. -/
def abortFinish (staged : PublicationOutcome) : Finish where
  expectedStatus := .running
  status := if abortBlocked staged then .blockedQuality else .failedRetryable
  stageReached := "publish"
  errors := abortCodes staged
  commitResult := if staged.rollbackObserved || abortBlocked staged then .rolledBack else .uncertain
  blockReason := if abortBlocked staged then (abortCodes staged).head? else none
  errorCode := if abortBlocked staged then none else (abortCodes staged).head?
  errorMessage := some ((staged.errors.head?.map PublicationIssue.message).getD staged.status.text)

/-- `_abort_staged`. -/
def abortStaged (staged : PublicationOutcome) : Call CoordinatorResult := do
  if ¬staged.rollbackObserved then releaseBusinessLock f
  let a := abortFinish staged
  finishRun f q a
  return result q (.run a.status) a.errors a.commitResult

/-- The run after a failure of the publication metadata or of the release. -/
def publishFailure (stageReached code message : String) : Finish where
  expectedStatus := .running
  status := .failedRetryable
  stageReached := stageReached
  errors := [code]
  commitResult := .rolledBack
  errorCode := some code
  errorMessage := some message

/-- The success of a run, after the COMMIT. -/
def successFinish (staged : PublicationOutcome) : Finish where
  expectedStatus := .running
  status := if staged.inserted = 0 ∧ staged.updated = 0 then .succeededNoop else .succeeded
  stageReached := "committed"
  errors := []
  commitResult := .technicallyObserved
  inserted := staged.inserted
  updated := staged.updated
  unchanged := staged.unchanged
  aggregates := some q.aggregates.length
  recordsProcessed := q.recordsProcessed

/-- From the COMMIT on. -/
def publishReleased (staged : PublicationOutcome) : Call CoordinatorResult := do
  let commitResult ← commitBusiness f
  let counted (r : CoordinatorResult) : CoordinatorResult :=
    { r with
      inserted := staged.inserted, updated := staged.updated, unchanged := staged.unchanged
      coverageSource := q.coverage.map CoverageEvidence.source }
  if commitResult ≠ .technicallyObserved then
    observeUncertain f q commitResult
    return counted (result q .commitUncertain ["commit_uncertain"] commitResult)
  else
    finishRun f q (successFinish q staged)
    return { counted (result q (.run (successFinish q staged).status) [] .technicallyObserved) with
      publicationRecorded := true }

/-- The pointer of the publication. -/
def publicationOf (staged : PublicationOutcome) : Publication where
  publishedAt := q.now
  publishedRowCount := staged.inserted + staged.updated + staged.unchanged
  dependencyFingerprint := q.dependencyFingerprint
  rulesVersion := q.rulesVersion

/-- From the publication metadata on. -/
def publishStaged (lease : ConfirmedLeaseRight) (staged : PublicationOutcome) : Call CoordinatorResult := do
  let released ← attempt do
    recordPublication f q.weekStart q.runId (publicationOf q staged)
    releaseLeaseNow f q.weekStart q.runId lease.fencingToken
  match released with
  | .error e =>
    if e.ordinary then
      releaseBusinessLock f
      finishRun f q (publishFailure "publish" "publication_metadata_failed" (takeText 500 e.text))
      return result q (.run .failedRetryable) ["publication_metadata_failed"] .rolledBack
    else raise e
  | .ok released =>
    if released.status ≠ .released then
      releaseBusinessLock f
      finishRun f q (publishFailure "lease" "lease_release_rejected"
        "owner or fencing token no longer matches")
      return result q (.run .failedRetryable) ["lease_release_rejected"] .rolledBack
    else publishReleased f q staged

/-- From the mark that the run is running on. -/
def publishVerified (lease : ConfirmedLeaseRight) : Call CoordinatorResult := do
  tryCatch (markRunning f q) fun e =>
    match e with
    | .coordinator e => do
      releaseBusinessLock f
      raise (.coordinator e)
    | e => raise e
  let staged ← stageWeeklyUpsert f q.weekStart q.aggregates q.now
  if staged.status ≠ .staged then abortStaged f q staged
  else publishStaged f q lease staged

/-- The run whose lease could not be verified. -/
def verifyFailure (e : CodedError) : Finish where
  expectedStatus := .pending
  status := .failedRetryable
  stageReached := "lease"
  errors := [e.code]
  commitResult := .uncertain
  errorCode := some e.code
  errorMessage := some e.message

/-- A run that ends before the protected sequence. -/
def unstartedFinish (status : RunStatus) (stageReached : String) (errors : List String)
    (blockReason : String) : Finish where
  expectedStatus := .pending
  status := status
  stageReached := stageReached
  errors := errors
  commitResult := .notAttempted
  blockReason := some blockReason

/-- From the verification of the lease on. -/
def publishClaimed (lease : ConfirmedLeaseRight) : Call CoordinatorResult := do
  match ← attempt (verifyLeaseNow f q.weekStart q.runId lease.fencingToken) with
  | .error (.concurrency e) =>
    releaseBusinessLock f
    finishRun f q (verifyFailure e)
    return result q (.run .failedRetryable) [e.code]
  | .error e => raise e
  | .ok decision =>
    if !decision.leaseVerified then
      releaseBusinessLock f
      let status := leaseRejectionStatus decision
      finishRun f q (unstartedFinish status "lease" ["lease_rejected"]
        "lease verification rejected: rejected")
      return result q (.run status) ["lease_rejected"]
    else publishVerified f q lease

/-- `publish_weekly_business_report`. -/
def publishWeeklyBusinessReport : Call CoordinatorResult := do
  requireSeparatedTransactions
  let _ ← identifiedRun f q
  match preWriteIssues q with
  | first :: rest =>
    finishRun f q (unstartedFinish .blockedQuality "quality" (first :: rest) first)
    return { result q (.run .blockedQuality) (first :: rest) with
      coverageSource := q.coverage.map CoverageEvidence.source }
  | [] =>
    match durableClaim q with
    | none =>
      finishRun f q (unstartedFinish .superseded "lease" ["lease_not_durable"]
        "lease acquisition was not confirmed before publication")
      return result q (.run .superseded) ["lease_not_durable"]
    | some lease => publishClaimed f q lease

end Coordinator

/-! ## An example -/

/-- A request for the week that begins on 1970-01-05, made after it. -/
def exampleRequest : Request where
  weekStart := 4
  runId := Uuid.ofNat 7
  aggregates := [⟨"los_angeles", "client", 4, 3, 0, 0, 0, 0⟩]
  quality := some ⟨[], [], [], [], [], [], [], [], []⟩
  coverage := some ⟨requiredCoverageEvents, [], true, "synthetic_fixture"⟩
  dependencyFingerprint := some "telemetry=1;movements=1;stockexit=1;rules=1"
  rulesVersion := some "1"
  lease := some ⟨4, Uuid.ofNat 7, 1, true⟩
  now := midnight 11

/-- Its run, pending. -/
def exampleRun : RunRecord where
  runId := Uuid.ofNat 7
  targetWeekStart := 4
  startedAt := 0
  status := .pending
  finishedAt := none
  stageReached := none
  recordsProcessed := none
  aggregatesCalculated := none
  rowsInserted := none
  rowsUpdated := none
  rowsUnchanged := none
  errorCode := none
  errorMessage := none
  blockReason := none
  commitResult := .notAttempted

end TrackFlow.Pipelines
