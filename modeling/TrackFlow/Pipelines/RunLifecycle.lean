import TrackFlow.Pipelines.RunStore

/-!
# The life of a publication run

`create_run`, `update_run`, `correlate_pending_run`, `record_commit_observation` and
`record_lease_run_status`, each in a transaction of its own and between one another at every
statement: a call reads the row, checks its arguments against what it read, and only then updates
whatever the row has become (`Statement.result`), which nobody else may change until the transaction
ends.

- `Change` is what a statement may do to a row, `RowOk` what holds of every row;
- `run_lifecycle`: every committed state meets `RowOk`, every committed change is a `Change`, and a
  call that raises changes nothing.
-/

namespace TrackFlow.Pipelines.Lifecycle

open TrackFlow.Python

/-! ## Rows -/

/-- A row of `reporting.pipeline_publication_runs`. -/
structure StoredRun extends RunRecord where
  pipelineName : String
  triggerType : String
  prefectFlowRunId : Option String
  prefectTaskRunId : Option String
  updatedAt : Int
  deriving DecidableEq

/-- `RUN_STATUSES`, by their texts. -/
def statusOf? (text : String) : Option RunStatus :=
  [RunStatus.pending, .running, .succeeded, .succeededNoop, .failedRetryable, .blockedQuality, .superseded,
    .skippedInProgress].find? fun s => s.text = text

/-- The stored text of a commit result. -/
def commitText : CommitResult → String
  | .notAttempted => "not_attempted"
  | .uncommitted => "uncommitted"
  | .uncertain => "uncertain"
  | .rolledBack => "rolled_back"
  | .technicallyObserved => "technically_observed"

/-- `COMMIT_RESULTS`, by their texts. -/
def commitOf? (text : String) : Option CommitResult :=
  [CommitResult.notAttempted, .uncommitted, .uncertain, .rolledBack, .technicallyObserved].find?
    fun r => commitText r = text

/-! ## Arguments -/

/-- The arguments of `create_run`. -/
structure CreateArgs where
  targetWeekStart : Int
  triggerType : String
  pipelineName : String
  runId : Uuid
  startedAt : Option Int
  stageReached : Option String
  prefectFlowRunId : Option String
  prefectTaskRunId : Option String

/-- The arguments of `update_run`. -/
structure UpdateArgs where
  expectedStatus : String
  status : String
  finishedAt : Option Int := none
  stageReached : Option String := none
  recordsProcessed : Option Int := none
  aggregatesCalculated : Option Int := none
  rowsInserted : Option Int := none
  rowsUpdated : Option Int := none
  rowsUnchanged : Option Int := none
  errorCode : Option String := none
  errorMessage : Option String := none
  blockReason : Option String := none
  commitResult : Option String := none
  prefectFlowRunId : Option String := none
  prefectTaskRunId : Option String := none

/-- The arguments of `record_commit_observation`. -/
structure ObservationArgs where
  commitResult : String
  stageReached : String
  errorCode : String
  errorMessage : Option String

/-- The arguments of `record_lease_run_status`. -/
structure LeaseArgs where
  status : String
  finishedAt : Int
  reason : String

/-! ## Statements -/

/-- The statement that a call executes, with its parameters. -/
inductive Statement
  | insert (row : StoredRun) (startedAt : Option Int)
  | update (run : Uuid) (expected : RunStatus) (set : StoredRun)
  | correlate (run : Uuid) (flow task : String)
  | observe (run : Uuid) (commitResult : CommitResult) (stage code : String) (message : Option String)

namespace Statement

/-- The row that a statement is about. -/
def run : Statement → Uuid
  | insert row _ => row.runId
  | update run _ _ => run
  | correlate run _ _ => run
  | observe run _ _ _ _ => run

/-- What `UPDATE_RUN_SQL` sets of a row. -/
def overwrite (row set : StoredRun) (now : Int) : StoredRun :=
  { row with
    status := set.status, stageReached := set.stageReached, finishedAt := set.finishedAt
    recordsProcessed := set.recordsProcessed, aggregatesCalculated := set.aggregatesCalculated
    rowsInserted := set.rowsInserted, rowsUpdated := set.rowsUpdated, rowsUnchanged := set.rowsUnchanged
    errorCode := set.errorCode, errorMessage := set.errorMessage, blockReason := set.blockReason
    commitResult := set.commitResult, prefectFlowRunId := set.prefectFlowRunId
    prefectTaskRunId := set.prefectTaskRunId, updatedAt := now }

/-- The row that a statement returns, given the row it finds; `none` when it inserts or updates nothing. -/
def result (now : Int) : Statement → Option StoredRun → Option StoredRun
  | insert row startedAt, none => some { row with startedAt := startedAt.getD now, updatedAt := now }
  | update _ expected set, some row => if row.status = expected then some (overwrite row set now) else none
  | correlate _ flow task, some row =>
    if row.status = .pending then
      some { row with
        prefectFlowRunId := some flow, prefectTaskRunId := some task
        stageReached := some "prefect", updatedAt := now }
    else none
  | observe _ commitResult stage code message, some row =>
    if row.status = .running then
      some { row with
        commitResult := commitResult, stageReached := some stage
        errorCode := some code, errorMessage := message
        updatedAt := now }
    else none
  | _, _ => none

/-- What a call raises when its statement returned nothing. -/
def missing : Statement → CodedError
  | insert _ _ => ⟨"duplicate_run_id", "run_id already exists"⟩
  | update _ _ _ => ⟨"status_conflict", "run status changed before the update"⟩
  | correlate _ _ _ => ⟨"status_conflict", "accepted run is no longer pending"⟩
  | observe _ _ _ _ _ => ⟨"status_conflict", "run status changed before the commit observation"⟩

end Statement

/-! ## Calls -/

/-- `create_run`, as far as its statement. -/
def CreateArgs.statement (a : CreateArgs) : Except CodedError Statement := do
  let weekStart ← week a.targetWeekStart
  let pipelineName ← label a.pipelineName "pipeline_name"
  let triggerType ← label a.triggerType "trigger_type"
  let stageReached ← optionalLabel a.stageReached "stage_reached"
  let flow ← optionalLabel a.prefectFlowRunId "prefect_flow_run_id"
  let task ← optionalLabel a.prefectTaskRunId "prefect_task_run_id"
  return .insert
    { runId := a.runId, targetWeekStart := weekStart, startedAt := 0, status := .pending, finishedAt := none
      stageReached := stageReached, recordsProcessed := none
      aggregatesCalculated := none, rowsInserted := none
      rowsUpdated := none, rowsUnchanged := none, errorCode := none
      errorMessage := none, blockReason := none
      commitResult := .notAttempted, pipelineName := pipelineName
      triggerType := triggerType, prefectFlowRunId := flow
      prefectTaskRunId := task, updatedAt := 0 } a.startedAt

/-- `update_run` on the row that it has read: what it is going to set. -/
def UpdateArgs.row (a : UpdateArgs) (current : StoredRun) : Except CodedError StoredRun := do
  if current.status.text ≠ a.expectedStatus then
    throw ⟨"status_conflict", "run status no longer matches expected_status"⟩
  match statusOf? a.status with
  | none => throw ⟨"invalid_status", "status is not a publication-run status"⟩
  | some status =>
    let u : RunUpdate :=
      { expectedStatus := current.status, status := status, finishedAt := a.finishedAt, stageReached := a.stageReached
        recordsProcessed := a.recordsProcessed, aggregatesCalculated := a.aggregatesCalculated
        rowsInserted := a.rowsInserted, rowsUpdated := a.rowsUpdated, rowsUnchanged := a.rowsUnchanged
        errorCode := a.errorCode, errorMessage := a.errorMessage, blockReason := a.blockReason }
    u.check current.toRunRecord
    match commitOf? (a.commitResult.getD (commitText current.commitResult)) with
    | none => throw ⟨"invalid_commit_result", "commit_result is not an operational result"⟩
    | some commitResult =>
      let record ← u.apply current.toRunRecord
      let flow ← optionalLabel a.prefectFlowRunId "prefect_flow_run_id"
      let task ← optionalLabel a.prefectTaskRunId "prefect_task_run_id"
      return { current with
        toRunRecord := { record with commitResult := commitResult }
        prefectFlowRunId := flow <|> current.prefectFlowRunId
        prefectTaskRunId := task <|> current.prefectTaskRunId }

/-- A call that is being made. `leaseUpdate` is the call of `update_run` inside
`record_lease_run_status`. -/
inductive Call
  | createRun (a : CreateArgs)
  | updateRun (run : Uuid) (a : UpdateArgs)
  | correlatePendingRun (run : Uuid) (flow task : String)
  | recordCommitObservation (run : Uuid) (a : ObservationArgs)
  | recordLeaseRunStatus (run : Uuid) (a : LeaseArgs)
  | leaseUpdate (run : Uuid) (a : UpdateArgs)

/-- Whether a call is made from outside. -/
def Call.entry : Call → Bool
  | .leaseUpdate _ _ => false
  | _ => true

/-- What a call goes on with after its `SELECT`. -/
inductive Next
  | call (c : Call)
  | execute (s : Statement)

/-- `_require_run`. -/
def requireRun : Option StoredRun → Except CodedError StoredRun
  | some row => .ok row
  | none => .error ⟨"run_not_found", "run_id was not found"⟩

namespace Call

/-- The run that a call is about. -/
def run : Call → Uuid
  | createRun a => a.runId
  | updateRun run _ => run
  | correlatePendingRun run _ _ => run
  | recordCommitObservation run _ => run
  | recordLeaseRunStatus run _ => run
  | leaseUpdate run _ => run

/-- A call up to its statement, on the row that a `SELECT` finds. -/
def next : Call → Option StoredRun → Except CodedError Next
  | createRun a, _ => do return .execute (← a.statement)
  | updateRun run a, found => do
    let current ← requireRun found
    return .execute (.update run current.status (← a.row current))
  | correlatePendingRun run flow task, _ => do
    let flow ← label flow "prefect_flow_run_id"
    let task ← label task "prefect_task_run_id"
    return .execute (.correlate run flow task)
  | recordCommitObservation run a, found => do
    match commitOf? a.commitResult with
    | some commitResult =>
      if commitResult ∉ [.uncertain, .uncommitted, .rolledBack] then
        throw ⟨"invalid_commit_result",
          "an unresolved observation cannot be recorded as a successful commit"⟩
      let current ← requireRun found
      if current.status ≠ .running then
        throw ⟨"status_conflict", "only a running run can record an unresolved commit"⟩
      let stage ← label a.stageReached "stage_reached"
      let code ← label a.errorCode "error_code"
      let message ← optionalText a.errorMessage "error_message"
      return .execute (.observe run commitResult stage code message)
    | none => throw ⟨"invalid_commit_result", "an unresolved observation cannot be recorded as a successful commit"⟩
  | recordLeaseRunStatus run a, found => do
    if a.status ≠ RunStatus.skippedInProgress.text ∧ a.status ≠ RunStatus.superseded.text then
      throw ⟨"success_forbidden", "a lease conflict is not a successful publication"⟩
    let current ← requireRun found
    return .call (.leaseUpdate run
      { expectedStatus := current.status.text, status := a.status, finishedAt := some a.finishedAt
        blockReason := some a.reason, stageReached := some "lease" })
  | leaseUpdate run a, found => do
    let current ← requireRun found
    return .execute (.update run current.status (← a.row current))

/-- What a call checks of the row that its statement returned. -/
def confirm : Call → StoredRun → Except CodedError StoredRun
  | recordCommitObservation _ a, row =>
    if row.status ≠ .running ∨ commitText row.commitResult ≠ a.commitResult then
      .error ⟨"write_error", "commit observation changed the run outcome"⟩
    else .ok row
  | leaseUpdate _ _, row =>
    if row.status.success then
        .error ⟨"success_forbidden", "lease handling must not mark a run succeeded"⟩ else .ok row
  | _, row => .ok row

end Call

/-! ## Transactions -/

/-- How far the call of a transaction is. -/
inductive Phase
  | calling (c : Call)
  | executing (c : Call) (s : Statement)
  | checking (c : Call) (row : StoredRun)
  | returned (row : StoredRun)
  | raised (e : CodedError)

/-- A transaction: its call, and the row that it has written and holds. -/
structure Transaction where
  phase : Phase
  own : Option (Uuid × StoredRun) := none

variable {Cl : Type}

/-- The committed rows, the open transactions and the clock of the database. -/
structure System (Cl : Type) where
  rows : Uuid → Option StoredRun := fun _ => none
  open_ : Cl → Option Transaction := fun _ => none
  clock : Int := 0

/-- The committed rows after a transaction. -/
def written (rows : Uuid → Option StoredRun) : Option (Uuid × StoredRun) → Uuid → Option StoredRun
  | none => rows
  | some (run, row) => Function.update rows run (some row)

theorem written_some (rows : Uuid → Option StoredRun) (run : Uuid) (row : StoredRun) (k : Uuid) :
    written rows (some (run, row)) k = if k = run then some row else rows k := Function.update_apply _ _ _ _

/-- Nobody else has written this row without having ended. -/
def System.Free (σ : System Cl) (i : Cl) (run : Uuid) : Prop :=
  ∀ j t, j ≠ i → σ.open_ j = some t → ∀ row, t.own ≠ some (run, row)

/-- What a step was. -/
inductive Label (Cl : Type)
  | tick
  | move (i : Cl)
  | commit (i : Cl)
  | rollback (i : Cl)

section Steps

variable [DecidableEq Cl]

/-- The system with another phase of a transaction. -/
def System.set (σ : System Cl) (i : Cl) (t : Option Transaction) : System Cl :=
  { σ with open_ := Function.update σ.open_ i t }

/-- A step: of the clock, of a call, or the end of a transaction, which may be lost at any point. -/
inductive Step : System Cl → Label Cl → System Cl → Prop
  | tick {σ : System Cl} {now : Int} : σ.clock ≤ now → Step σ .tick { σ with clock := now }
  | begin {σ : System Cl} {i : Cl} {c : Call} : σ.open_ i = none → c.entry = true →
      Step σ (.move i) (σ.set i (some ⟨.calling c, none⟩))
  | read {σ : System Cl} {i : Cl} {c c' : Call} {own : Option (Uuid × StoredRun)} :
      σ.open_ i = some ⟨.calling c, own⟩ → c.next (σ.rows c.run) = .ok (.call c') →
      Step σ (.move i) (σ.set i (some ⟨.calling c', own⟩))
  | check {σ : System Cl} {i : Cl} {c : Call} {s : Statement} {own : Option (Uuid × StoredRun)} :
      σ.open_ i = some ⟨.calling c, own⟩ → c.next (σ.rows c.run) = .ok (.execute s) →
      Step σ (.move i) (σ.set i (some ⟨.executing c s, own⟩))
  | refuse {σ : System Cl} {i : Cl} {c : Call} {e : CodedError} {own : Option (Uuid × StoredRun)} :
      σ.open_ i = some ⟨.calling c, own⟩ → c.next (σ.rows c.run) = .error e →
      Step σ (.move i) (σ.set i (some ⟨.raised e, own⟩))
  | execute {σ : System Cl} {i : Cl} {c : Call} {s : Statement} {own : Option (Uuid × StoredRun)}
      {row : StoredRun} :
      σ.open_ i = some ⟨.executing c s, own⟩ → σ.Free i s.run → s.result σ.clock (σ.rows s.run) = some row →
      Step σ (.move i) (σ.set i (some ⟨.checking c row, some (s.run, row)⟩))
  | miss {σ : System Cl} {i : Cl} {c : Call} {s : Statement} {own : Option (Uuid × StoredRun)} :
      σ.open_ i = some ⟨.executing c s, own⟩ → σ.Free i s.run → s.result σ.clock (σ.rows s.run) = none →
      Step σ (.move i) (σ.set i (some ⟨.raised s.missing, own⟩))
  | confirm {σ : System Cl} {i : Cl} {c : Call} {row row' : StoredRun} {own : Option (Uuid × StoredRun)} :
      σ.open_ i = some ⟨.checking c row, own⟩ → c.confirm row = .ok row' →
      Step σ (.move i) (σ.set i (some ⟨.returned row', own⟩))
  | reject {σ : System Cl} {i : Cl} {c : Call} {row : StoredRun} {e : CodedError}
      {own : Option (Uuid × StoredRun)} :
      σ.open_ i = some ⟨.checking c row, own⟩ → c.confirm row = .error e →
      Step σ (.move i) (σ.set i (some ⟨.raised e, own⟩))
  | commitReturned {σ : System Cl} {i : Cl} {row : StoredRun} {own : Option (Uuid × StoredRun)} :
      σ.open_ i = some ⟨.returned row, own⟩ →
        Step σ (.commit i) { σ.set i none with rows := written σ.rows own }
  | commitRaised {σ : System Cl} {i : Cl} {e : CodedError} {own : Option (Uuid × StoredRun)} :
      σ.open_ i = some ⟨.raised e, own⟩ →
        Step σ (.commit i) { σ.set i none with rows := written σ.rows own }
  | rollback {σ : System Cl} {i : Cl} {t : Transaction} :
      σ.open_ i = some t → Step σ (.rollback i) (σ.set i none)

/-- The states that interleavings of calls reach from an empty table. -/
inductive Reachable : System Cl → Prop
  | empty : Reachable {}
  | step {σ σ' : System Cl} {l : Label Cl} : Reachable σ → Step σ l σ' → Reachable σ'

end Steps

/-! ## Rows and changes -/

/-- What holds of every row. -/
structure RowOk (row : StoredRun) : Prop where
  finished : row.status.terminal = true → row.finishedAt.isSome
  running : row.status = .running → row.finishedAt = none
  ordered : ∀ t, row.finishedAt = some t → row.startedAt ≤ t
  blocked : row.status = .blockedQuality → ∃ reason, row.blockReason = some reason ∧ reason ≠ ""
  failed : row.status = .failedRetryable → ∃ code, row.errorCode = some code ∧ code ≠ ""

/-- A committed change of a row: it was not terminal, its status stays or takes an edge of
`RUN_TRANSITIONS`, and it started when it did. -/
structure Change (old new : StoredRun) : Prop where
  open_ : old.status.terminal = false
  edge : new.status = old.status ∨ new.status ∈ old.status.next
  started : new.startedAt = old.startedAt

/-- What may be written where this row is, or none. -/
structure Writes (found : Option StoredRun) (row : StoredRun) : Prop where
  ok : RowOk row
  change : ∀ old, found = some old → Change old row

/-- A statement that will do no harm, whatever the row becomes until it is executed. -/
def Statement.Valid (rows : Uuid → Option StoredRun) : Statement → Prop
  | insert row _ => row.status = .pending ∧ row.finishedAt = none
  | update run expected set =>
    set.status ∈ expected.next ∧ RowOk set ∧ ∃ row, rows run = some row ∧ row.startedAt = set.startedAt
  | _ => True

theorem terminal_of_next {s t : RunStatus} (h : t ∈ s.next) : s.terminal = false := by
  cases s <;> simp_all [RunStatus.next, RunStatus.terminal]

/-- A pending row that has not finished is in order. -/
theorem rowOk_pending {row : StoredRun} (hs : row.status = .pending) (hf : row.finishedAt = none) :
    RowOk row where
  finished h := by
    rw [hs] at h
    cases h
  running _ := hf
  ordered t ht := by
    rw [hf] at ht
    cases ht
  blocked h := by
    rw [hs] at h
    cases h
  failed h := by
    rw [hs] at h
    cases h

/-- What an executed statement writes is in order and changes the row as it may. -/
theorem Statement.Valid.writes {rows : Uuid → Option StoredRun} {s : Statement} {now : Int}
    {row : StoredRun} (hv : s.Valid rows) (hrows : ∀ old, rows s.run = some old → RowOk old)
    (h : s.result now (rows s.run) = some row) : Writes (rows s.run) row := by
  generalize hfound : rows s.run = found at h hrows ⊢
  cases s with
  | insert new startedAt =>
    cases found with
    | none =>
      obtain rfl := Option.some.inj h
      exact ⟨rowOk_pending hv.1 hv.2, fun old hold => by cases hold⟩
    | some old => simp [result] at h
  | update run expected set =>
    cases found with
    | none => simp [result] at h
    | some old =>
      simp only [result] at h
      split at h
      · rename_i hstatus
        obtain rfl := Option.some.inj h
        obtain ⟨hnext, hset, old', hold, hstarted⟩ := hv
        have hsame : rows run = some old := hfound
        rw [hsame] at hold
        obtain rfl := Option.some.inj hold
        refine ⟨⟨hset.finished, hset.running, fun t ht => ?_, hset.blocked, hset.failed⟩,
          fun old' hold => ?_⟩
        · rw [overwrite, hstarted]
          exact hset.ordered t ht
        · cases hold
          rw [← hstatus] at hnext
          exact ⟨terminal_of_next hnext, Or.inr hnext, rfl⟩
      · cases h
  | correlate run flow task =>
    cases found with
    | none => simp [result] at h
    | some old =>
      simp only [result] at h
      split at h
      · rename_i hstatus
        obtain rfl := Option.some.inj h
        have hold := hrows old rfl
        refine ⟨⟨hold.finished, hold.running, hold.ordered, hold.blocked, hold.failed⟩,
          fun old' hold' => ?_⟩
        cases hold'
        exact ⟨by rw [hstatus]; rfl, Or.inl rfl, rfl⟩
      · cases h
  | observe run commitResult stage code message =>
    cases found with
    | none => simp [result] at h
    | some old =>
      simp only [result] at h
      split at h
      · rename_i hstatus
        obtain rfl := Option.some.inj h
        have hold := hrows old rfl
        refine ⟨⟨hold.finished, hold.running, hold.ordered, hold.blocked, fun hf => ?_⟩,
          fun old' hold' => ?_⟩
        · rw [hstatus] at hf
          cases hf
        · cases hold'
          exact ⟨by rw [hstatus]; rfl, Or.inl rfl, rfl⟩
      · cases h

/-! ## What a call asks for -/

/-- What the checks of `update_run` say of its arguments. -/
structure Checked (u : RunUpdate) (current : RunRecord) : Prop where
  edge : u.status ∈ u.expectedStatus.next
  finished : u.status.terminal = true → u.finishedAt.isSome
  running : u.status = .running → u.finishedAt = none
  ordered : ∀ t, u.finishedAt = some t → current.startedAt ≤ t
  blocked : u.status = .blockedQuality → RunUpdate.falsy u.blockReason = false
  failed : u.status = .failedRetryable → RunUpdate.falsy u.errorCode = false

theorem checked_of_ok {u : RunUpdate} {current : RunRecord} (h : u.check current = .ok ()) :
    Checked u current := by
  have hedge := (RunUpdate.check_ok h).2
  have hstatus := (RunUpdate.check_ok h).1
  simp only [RunUpdate.check, transition, hstatus, hedge, ne_eq, not_true_eq_false, if_false, if_true,
    bind, Except.bind, pure, Except.pure, throw, throwThe, MonadExceptOf.throw] at h
  split at h
  · cases h
  rename_i hfinished
  split at h
  · cases h
  rename_i hrunning
  split at h
  · cases h
  rename_i hordered
  split at h
  · cases h
  rename_i hblocked
  split at h
  · cases h
  rename_i hfailed
  refine ⟨hedge, fun ht => ?_, fun hr => ?_, fun t ht => ?_, fun hb => ?_, fun hf => ?_⟩
  · simpa [ht, Option.isSome_iff_ne_none] using hfinished
  · simpa [hr] using hrunning
  · simpa [ht] using hordered
  · simpa [hb] using hblocked
  · simpa [hf] using hfailed

/-- A text that passes is stored as it is. -/
theorem shortText_stored {limit : Nat} {complaint value field r : String}
    (h : shortText limit complaint value field = .ok r) : r = value := by
  unfold shortText at h
  simp only [bind, Except.bind, pure, Except.pure, throw, throwThe, MonadExceptOf.throw] at h
  split at h
  · cases h
  · split at h
    · cases h
    · cases h
      rfl

theorem optionalLabel_stored {value r : Option String} {field : String}
    (h : optionalLabel value field = .ok r) : r = value := by
  cases value with
  | none =>
    cases h
    rfl
  | some v =>
    cases hs : shortText 128 " must be a short non-empty string" v field with
    | error e =>
      simp only [optionalLabel, label, hs] at h
      cases h
    | ok r' =>
      simp only [optionalLabel, label, hs] at h
      cases h
      rw [shortText_stored hs]

theorem optionalText_stored {value r : Option String} {field : String}
    (h : optionalText value field = .ok r) : r = value := by
  cases value with
  | none =>
    cases h
    rfl
  | some v =>
    cases hs : shortText 500 " must be short descriptive text" v field with
    | error e =>
      simp only [optionalText, hs] at h
      cases h
    | ok r' =>
      simp only [optionalText, hs] at h
      cases h
      rw [shortText_stored hs]

/-- What an accepted update leaves in the columns that the invariants speak of. -/
structure Applied (u : RunUpdate) (current record : RunRecord) : Prop where
  status : record.status = u.status
  finished : record.finishedAt = u.finishedAt
  started : record.startedAt = current.startedAt
  block : record.blockReason = u.blockReason
  code : record.errorCode = u.errorCode

theorem applied_of_ok {u : RunUpdate} {current record : RunRecord} (h : u.apply current = .ok record) :
    Applied u current record := by
  obtain ⟨_, -, h⟩ := bind_ok h
  obtain ⟨_, -, h⟩ := bind_ok h
  obtain ⟨_, -, h⟩ := bind_ok h
  obtain ⟨_, -, h⟩ := bind_ok h
  obtain ⟨_, -, h⟩ := bind_ok h
  obtain ⟨_, -, h⟩ := bind_ok h
  obtain ⟨_, -, h⟩ := bind_ok h
  obtain ⟨code, hcode, h⟩ := bind_ok h
  obtain ⟨_, -, h⟩ := bind_ok h
  obtain ⟨reason, hreason, h⟩ := bind_ok h
  obtain rfl := Except.ok.inj h
  exact ⟨rfl, rfl, rfl, optionalText_stored hreason, optionalLabel_stored hcode⟩

/-- A text that is not falsy is not empty. -/
theorem of_not_falsy {value : Option String} (h : RunUpdate.falsy value = false) :
    ∃ text, value = some text ∧ text ≠ "" := by
  cases value with
  | none => cases h
  | some text =>
    refine ⟨text, rfl, ?_⟩
    rintro rfl
    cases h

/-- Checked arguments make a row in order. -/
theorem Checked.rowOk {u : RunUpdate} {current record : RunRecord} (h : Checked u current)
    (ha : Applied u current record) {row : StoredRun} (hs : row.status = record.status)
    (hf : row.finishedAt = record.finishedAt) (ht : row.startedAt = record.startedAt)
    (hb : row.blockReason = record.blockReason) (hc : row.errorCode = record.errorCode) : RowOk row where
  finished hterminal := by
    rw [hf, ha.finished]
    exact h.finished (by rw [← ha.status, ← hs]; exact hterminal)
  running hrunning := by
    rw [hf, ha.finished]
    exact h.running (by rw [← ha.status, ← hs]; exact hrunning)
  ordered t hfinished := by
    rw [ht, ha.started]
    exact h.ordered t (by rw [← ha.finished, ← hf]; exact hfinished)
  blocked hblocked := by
    rw [hb, ha.block]
    exact of_not_falsy (h.blocked (by rw [← ha.status, ← hs]; exact hblocked))
  failed hfailed := by
    rw [hc, ha.code]
    exact of_not_falsy (h.failed (by rw [← ha.status, ← hs]; exact hfailed))

/-- What `update_run` is going to set is in order, and the status one that may follow. -/
theorem UpdateArgs.row_ok {a : UpdateArgs} {current set : StoredRun} (h : a.row current = .ok set) :
    set.status ∈ current.status.next ∧ RowOk set ∧ set.startedAt = current.startedAt ∧
      statusOf? a.status = some set.status := by
  unfold UpdateArgs.row at h
  simp only [bind, Except.bind, pure, Except.pure, throw, throwThe, MonadExceptOf.throw] at h
  split at h
  · cases h
  split at h
  · cases h
  rename_i status hstatus
  split at h
  · cases h
  rename_i hcheck
  split at h
  · cases h
  split at h
  · cases h
  rename_i record hrecord
  split at h
  · cases h
  split at h
  · cases h
  obtain rfl := Except.ok.inj h
  have hchecked := checked_of_ok hcheck
  have happlied := applied_of_ok hrecord
  have hrecord' : record.status = status := happlied.status
  refine ⟨?_, hchecked.rowOk happlied rfl rfl rfl rfl rfl, happlied.started, ?_⟩
  · rw [hrecord']
    exact hchecked.edge
  · rw [hstatus, hrecord']

/-- A lease conflict is recorded as one of two statuses. -/
def Call.Ok : Call → Prop
  | .leaseUpdate _ a => a.status = RunStatus.skippedInProgress.text ∨ a.status = RunStatus.superseded.text
  | _ => True

theorem Call.ok_of_entry {c : Call} (h : c.entry = true) : c.Ok := by
  cases c with
  | leaseUpdate run a => cases h
  | _ => trivial

/-- A call goes on with calls about the same run. -/
theorem Call.next_call {c c' : Call} {found : Option StoredRun}
    (h : c.next found = .ok (.call c')) : c'.Ok := by
  cases c with
  | createRun a =>
    obtain ⟨_, -, h⟩ := bind_ok h
    cases h
  | updateRun run a =>
    obtain ⟨_, -, h⟩ := bind_ok h
    obtain ⟨_, -, h⟩ := bind_ok h
    cases h
  | correlatePendingRun run flow task =>
    obtain ⟨_, -, h⟩ := bind_ok h
    obtain ⟨_, -, h⟩ := bind_ok h
    cases h
  | recordCommitObservation run a =>
    simp only [Call.next] at h
    split at h
    · split at h
      · cases h
      · obtain ⟨_, -, h⟩ := bind_ok h
        split at h
        · cases h
        · obtain ⟨_, -, h⟩ := bind_ok h
          obtain ⟨_, -, h⟩ := bind_ok h
          obtain ⟨_, -, h⟩ := bind_ok h
          cases h
    · cases h
  | recordLeaseRunStatus run a =>
    simp only [Call.next] at h
    split at h
    · cases h
    · rename_i hstatus
      obtain ⟨_, -, h⟩ := bind_ok h
      cases h
      by_contra hne
      exact hstatus ⟨fun e => hne (Or.inl e), fun e => hne (Or.inr e)⟩
  | leaseUpdate run a =>
    obtain ⟨_, -, h⟩ := bind_ok h
    obtain ⟨_, -, h⟩ := bind_ok h
    cases h

theorem requireRun_ok {found : Option StoredRun} {row : StoredRun}
    (h : requireRun found = .ok row) : found = some row := by
  cases found with
  | none => cases h
  | some row' =>
    cases h
    rfl

theorem commitOf_text {text : String} {r : CommitResult} (h : commitOf? text = some r) :
    commitText r = text := by
  have hfound := List.find?_some h
  simpa using hfound

theorem statusOf_text {text : String} {s : RunStatus} (h : statusOf? text = some s) : s.text = text := by
  have hfound := List.find?_some h
  simpa using hfound

/-- A lease conflict is not a success. -/
theorem not_success {s : RunStatus} (h : s.text = RunStatus.skippedInProgress.text ∨
    s.text = RunStatus.superseded.text) :
    s.success = false := by
  cases s <;> simp_all [RunStatus.text, RunStatus.success]

/-- The update of `update_run` will do no harm. -/
theorem UpdateArgs.valid {a : UpdateArgs} {run : Uuid} {rows : Uuid → Option StoredRun}
    {current set : StoredRun} (hcurrent : rows run = some current) (h : a.row current = .ok set) :
    (Statement.update run current.status set).Valid rows :=
  ⟨(UpdateArgs.row_ok h).1, (UpdateArgs.row_ok h).2.1, current, hcurrent, (UpdateArgs.row_ok h).2.2.1.symm⟩

/-- The statement of a call will do no harm, and the call accepts what it returns. -/
theorem Call.next_execute {c : Call} (hc : c.Ok) {rows : Uuid → Option StoredRun} {s : Statement}
    (h : c.next (rows c.run) = .ok (.execute s)) :
    s.Valid rows ∧ ∀ now found row, s.result now found = some row → c.confirm row = .ok row := by
  cases c with
  | createRun a =>
    obtain ⟨s', hs, h⟩ := bind_ok h
    cases h
    obtain ⟨_, -, hs⟩ := bind_ok hs
    obtain ⟨_, -, hs⟩ := bind_ok hs
    obtain ⟨_, -, hs⟩ := bind_ok hs
    obtain ⟨_, -, hs⟩ := bind_ok hs
    obtain ⟨_, -, hs⟩ := bind_ok hs
    obtain ⟨_, -, hs⟩ := bind_ok hs
    cases hs
    exact ⟨⟨rfl, rfl⟩, fun _ _ _ _ => rfl⟩
  | updateRun run a =>
    obtain ⟨current, hcurrent, h⟩ := bind_ok h
    obtain ⟨set, hset, h⟩ := bind_ok h
    cases h
    exact ⟨UpdateArgs.valid (requireRun_ok hcurrent) hset, fun _ _ _ _ => rfl⟩
  | correlatePendingRun run flow task =>
    obtain ⟨_, -, h⟩ := bind_ok h
    obtain ⟨_, -, h⟩ := bind_ok h
    cases h
    exact ⟨trivial, fun _ _ _ _ => rfl⟩
  | recordCommitObservation run a =>
    simp only [next] at h
    split at h
    · rename_i commitResult hresult
      split at h
      · cases h
      · obtain ⟨current, -, h⟩ := bind_ok h
        split at h
        · cases h
        · obtain ⟨stage, -, h⟩ := bind_ok h
          obtain ⟨code, -, h⟩ := bind_ok h
          obtain ⟨message, -, h⟩ := bind_ok h
          cases h
          refine ⟨trivial, fun now found row hrow => ?_⟩
          cases found with
          | none => simp [Statement.result] at hrow
          | some old =>
            simp only [Statement.result] at hrow
            split at hrow
            · rename_i hrunning
              obtain rfl := Option.some.inj hrow
              simp [confirm, hrunning, commitOf_text hresult]
            · cases hrow
    · cases h
  | recordLeaseRunStatus run a =>
    simp only [next] at h
    split at h
    · cases h
    · obtain ⟨_, -, h⟩ := bind_ok h
      cases h
  | leaseUpdate run a =>
    obtain ⟨current, hcurrent, h⟩ := bind_ok h
    obtain ⟨set, hset, h⟩ := bind_ok h
    cases h
    refine ⟨UpdateArgs.valid (requireRun_ok hcurrent) hset, fun now found row hrow => ?_⟩
    have htext := statusOf_text (UpdateArgs.row_ok hset).2.2.2
    cases found with
    | none => simp [Statement.result] at hrow
    | some old =>
      simp only [Statement.result] at hrow
      split at hrow
      · obtain rfl := Option.some.inj hrow
        have hnot : set.status.success = false := not_success (by rw [htext]; exact hc)
        simp [confirm, Statement.overwrite, hnot]
      · cases hrow

/-! ## Interleavings -/

/-- A transaction that will do no harm: until its statement is executed it has written nothing, and
a call that has raised never executed one. -/
inductive Harmless (rows : Uuid → Option StoredRun) : Transaction → Prop
  | calling {c : Call} : c.Ok → Harmless rows ⟨.calling c, none⟩
  | executing {c : Call} {s : Statement} : s.Valid rows →
      (∀ now found row, s.result now found = some row → c.confirm row = .ok row) →
        Harmless rows ⟨.executing c s, none⟩
  | checking {c : Call} {run : Uuid} {row : StoredRun} : Writes (rows run) row → c.confirm row = .ok row →
      Harmless rows ⟨.checking c row, some (run, row)⟩
  | returned {run : Uuid} {row : StoredRun} :
      Writes (rows run) row → Harmless rows ⟨.returned row, some (run, row)⟩
  | raised {e : CodedError} : Harmless rows ⟨.raised e, none⟩

/-- Rows that are the same, or changed since, for what has still to be executed. -/
def Later (rows rows' : Uuid → Option StoredRun) : Prop :=
  ∀ run old, rows run = some old → ∃ new, rows' run = some new ∧ new.startedAt = old.startedAt

theorem Statement.Valid.later {rows rows' : Uuid → Option StoredRun} (hl : Later rows rows') {s : Statement}
    (h : s.Valid rows) : s.Valid rows' := by
  cases s with
  | insert row startedAt => exact h
  | update run expected set =>
    obtain ⟨hnext, hset, row, hrow, hstarted⟩ := h
    obtain ⟨new, hnew, hsame⟩ := hl run row hrow
    exact ⟨hnext, hset, new, hnew, hsame.trans hstarted⟩
  | correlate run flow task => trivial
  | observe run commitResult stage code message => trivial

/-- A transaction stays harmless while others change rows that it has not written. -/
theorem Harmless.later {rows rows' : Uuid → Option StoredRun} (hl : Later rows rows') {t : Transaction}
    (h : Harmless rows t) (hown : ∀ run row, t.own = some (run, row) → rows' run = rows run) :
    Harmless rows' t := by
  cases h with
  | calling hc => exact .calling hc
  | executing hs hc => exact .executing (hs.later hl) hc
  | @checking c run row hw hc => exact .checking (by rw [hown run row rfl]; exact hw) hc
  | @returned run row hw => exact .returned (by rw [hown run row rfl]; exact hw)
  | raised => exact .raised

/-- Every row is in order, every transaction harmless, and no row is written by two. -/
structure Inv (σ : System Cl) : Prop where
  rows : ∀ run row, σ.rows run = some row → RowOk row
  open_ : ∀ i t, σ.open_ i = some t → Harmless σ.rows t
  exclusive : ∀ i t run row, σ.open_ i = some t → t.own = some (run, row) → σ.Free i run

section Runs

variable [DecidableEq Cl] {σ σ' : System Cl} {l : Label Cl} {i : Cl} {t : Transaction}

theorem System.set_open (σ : System Cl) (i : Cl) (t : Option Transaction) (j : Cl) :
    (σ.set i t).open_ j = if j = i then t else σ.open_ j := by
  unfold System.set
  exact Function.update_apply _ _ _ _

/-- A transaction moves on to a harmless phase. -/
theorem Inv.move (h : Inv σ) (ht : Harmless σ.rows t)
    (hfree : ∀ run row, t.own = some (run, row) → σ.Free i run) : Inv (σ.set i (some t)) where
  rows := h.rows
  open_ j u hu := by
    rw [System.set_open] at hu
    split at hu
    · obtain rfl := Option.some.inj hu
      exact ht
    · exact h.open_ j u hu
  exclusive j u run row hu hown k v hkj hv row' hown' := by
    rw [System.set_open] at hu hv
    split at hu
    · obtain rfl := Option.some.inj hu
      rename_i hji
      rw [if_neg (by rw [← hji]; exact hkj)] at hv
      exact hfree run row hown k v (by rw [← hji]; exact hkj) hv row' hown'
    · rename_i hji
      split at hv
      · obtain rfl := Option.some.inj hv
        exact hfree run row' hown' j u hji hu row hown
      · exact h.exclusive j u run row hu hown k v hkj hv row' hown'

/-- A transaction that ends leaves the others as they were, if the rows it leaves are in order. -/
theorem Inv.leave (h : Inv σ) {rows : Uuid → Option StoredRun}
    (hrows : ∀ run row, rows run = some row → RowOk row)
    (hl : Later σ.rows rows) (hown : ∀ j u run row, j ≠ i → σ.open_ j = some u → u.own = some (run, row) →
      rows run = σ.rows run) : Inv { σ.set i none with rows := rows } where
  rows := hrows
  open_ j u hu := by
    have hu' : (σ.set i none).open_ j = some u := hu
    rw [System.set_open] at hu'
    split at hu'
    · cases hu'
    · rename_i hji
      exact (h.open_ j u hu').later hl fun run row => hown j u run row hji hu'
  exclusive j u run row hu hown' k v hkj hv row' hown'' := by
    have hu' : (σ.set i none).open_ j = some u := hu
    have hv' : (σ.set i none).open_ k = some v := hv
    rw [System.set_open] at hu' hv'
    split at hu'
    · cases hu'
    · split at hv'
      · cases hv'
      · exact h.exclusive j u run row hu' hown' k v hkj hv' row' hown''

theorem later_refl (rows : Uuid → Option StoredRun) : Later rows rows := fun _ old h => ⟨old, h, rfl⟩

/-- What a write that is allowed does to the rows. -/
theorem written_rows {rows : Uuid → Option StoredRun} {run : Uuid} {row : StoredRun}
    (hw : Writes (rows run) row) {k : Uuid} {old : StoredRun} (h : rows k = some old) :
    ∃ new, written rows (some (run, row)) k = some new ∧ (new = old ∨ Change old new) := by
  by_cases hk : k = run
  · subst hk
    exact ⟨row, by rw [written_some, if_pos rfl], Or.inr (hw.change old h)⟩
  · exact ⟨old, by rw [written_some, if_neg hk, h], Or.inl rfl⟩

theorem later_written {rows : Uuid → Option StoredRun} {run : Uuid} {row : StoredRun}
    (hw : Writes (rows run) row) : Later rows (written rows (some (run, row))) := by
  intro k old hold
  obtain ⟨new, hnew, hsame | hchange⟩ := written_rows hw hold
  · exact ⟨new, hnew, by rw [hsame]⟩
  · exact ⟨new, hnew, hchange.started⟩

/-- A call that has returned commits. -/
theorem Inv.commit (h : Inv σ) {run : Uuid} {row : StoredRun} (ht : σ.open_ i = some t)
    (hown : t.own = some (run, row)) (hw : Writes (σ.rows run) row) :
    Inv { σ.set i none with rows := written σ.rows (some (run, row)) } := by
  refine h.leave (fun k new hnew => ?_) (later_written hw) fun j u k row' hji hu hu' => ?_
  · by_cases hk : k = run
    · subst hk
      rw [written_some, if_pos rfl] at hnew
      obtain rfl := Option.some.inj hnew
      exact hw.ok
    · rw [written_some, if_neg hk] at hnew
      exact h.rows k new hnew
  · rw [written_some, if_neg]
    rintro rfl
    exact h.exclusive i t k row ht hown j u hji hu row' hu'

/-- A step keeps the invariant. -/
theorem Inv.step (h : Inv σ) (hstep : Step σ l σ') : Inv σ' := by
  cases hstep with
  | tick hle => exact ⟨h.rows, h.open_, h.exclusive⟩
  | begin hnone hentry => exact h.move (.calling (Call.ok_of_entry hentry)) fun _ _ hown => by cases hown
  | @read i c c' own hi hnext =>
    cases h.open_ i _ hi with
    | calling hc => exact h.move (.calling (Call.next_call hnext)) fun _ _ hown => by cases hown
  | @check i c s own hi hnext =>
    cases h.open_ i _ hi with
    | calling hc =>
      obtain ⟨hvalid, hconfirm⟩ := Call.next_execute hc hnext
      exact h.move (.executing hvalid hconfirm) fun _ _ hown => by cases hown
  | @refuse i c e own hi hnext =>
    cases h.open_ i _ hi with
    | calling hc => exact h.move .raised fun _ _ hown => by cases hown
  | @execute i c s own row hi hfree hresult =>
    cases h.open_ i _ hi with
    | executing hvalid hconfirm =>
      refine h.move (.checking (hvalid.writes (h.rows s.run) hresult) (hconfirm _ _ row hresult))
        fun run row' hown => ?_
      obtain ⟨rfl, -⟩ := Prod.mk.inj (Option.some.inj hown)
      exact hfree
  | @miss i c s own hi hfree hresult =>
    cases h.open_ i _ hi with
    | executing hvalid hconfirm => exact h.move .raised fun _ _ hown => by cases hown
  | @confirm i c row row' own hi hconfirm =>
    have hharmless := h.open_ i _ hi
    have hexclusive := fun run row => h.exclusive i _ run row hi
    cases hharmless with
    | checking hw hok =>
      rw [hok] at hconfirm
      obtain rfl := Except.ok.inj hconfirm
      exact h.move (.returned hw) hexclusive
  | @reject i c row e own hi hconfirm =>
    cases h.open_ i _ hi with
    | checking hw hok =>
      rw [hok] at hconfirm
      cases hconfirm
  | @commitReturned i row own hi =>
    have hharmless := h.open_ i _ hi
    cases hharmless with
    | returned hw => exact h.commit hi rfl hw
  | @commitRaised i e own hi =>
    have hharmless := h.open_ i _ hi
    cases hharmless with
    | raised => exact h.leave h.rows (later_refl _) fun _ _ _ _ _ _ _ => rfl
  | @rollback i t hi => exact h.leave h.rows (later_refl _) fun _ _ _ _ _ _ _ => rfl

theorem Reachable.inv (h : Reachable σ) : Inv σ := by
  induction h with
  | empty =>
    refine ⟨fun run row hrow => ?_, fun i t ht => ?_, fun i t run row ht => ?_⟩
    · cases hrow
    · cases ht
    · cases ht
  | step _ hstep ih => exact ih.step hstep

/-- Rows change when a transaction commits whose call has returned, and only as `Change` says. -/
theorem Inv.changes (h : Inv σ) (hstep : Step σ l σ') :
    (∀ run old, σ.rows run = some old → ∃ new, σ'.rows run = some new ∧ (new = old ∨ Change old new)) ∧
      (σ'.rows = σ.rows ∨ ∃ i row own, l = .commit i ∧ σ.open_ i = some ⟨.returned row, own⟩) := by
  have hsame : σ'.rows = σ.rows →
      (∀ run old, σ.rows run = some old → ∃ new, σ'.rows run = some new ∧ (new = old ∨ Change old new)) ∧
        (σ'.rows = σ.rows ∨ ∃ i row own, l = .commit i ∧ σ.open_ i = some ⟨.returned row, own⟩) :=
    fun heq => ⟨fun run old hold => ⟨old, by rw [heq]; exact hold, Or.inl rfl⟩, Or.inl heq⟩
  cases hstep with
  | @commitReturned i row own hi =>
    have hharmless := h.open_ i _ hi
    cases hharmless with
    | returned hw => exact ⟨fun run old hold => written_rows hw hold, Or.inr ⟨i, row, _, rfl, hi⟩⟩
  | @commitRaised i e own hi =>
    have hharmless := h.open_ i _ hi
    cases hharmless with
    | raised => exact hsame rfl
  | _ => exact hsame rfl

/-- **The life of a run**: in every committed state the rows are in order; a step changes a row that
is not terminal, along `RUN_TRANSITIONS`, or not at all; and only the commit of a call that has
returned changes any. -/
theorem run_lifecycle (h : Reachable σ) :
    (∀ run row, σ.rows run = some row → RowOk row) ∧
      ∀ l σ', Step σ l σ' →
        (∀ run old, σ.rows run = some old → ∃ new, σ'.rows run = some new ∧ (new = old ∨ Change old new)) ∧
          (σ'.rows = σ.rows ∨ ∃ i row own, l = .commit i ∧ σ.open_ i = some ⟨.returned row, own⟩) :=
  ⟨h.inv.rows, fun _ _ hstep => h.inv.changes hstep⟩

end Runs

/-- The arguments of a run that is created. -/
def exampleArgs : CreateArgs := ⟨4, "manual", "weekly", Uuid.ofNat 7, some 10, none, none, none⟩

/-- The row that they make, started at a moment. -/
def exampleRow (startedAt : Int) : StoredRun where
  runId := Uuid.ofNat 7
  targetWeekStart := 4
  startedAt := startedAt
  status := .pending
  finishedAt := none
  stageReached := none
  recordsProcessed := none
  aggregatesCalculated := none
  rowsInserted := none
  rowsUpdated := none
  rowsUnchanged := none
  errorCode := none
  errorMessage := none
  blockReason := none
  commitResult := .notAttempted
  pipelineName := "weekly"
  triggerType := "manual"
  prefectFlowRunId := none
  prefectTaskRunId := none
  updatedAt := 0

theorem exampleArgs_next :
    (Call.createRun exampleArgs).next none = .ok (.execute (.insert (exampleRow 0) (some 10))) := by
  have hweek : week 4 = .ok 4 := by decide
  have hpipeline : label "weekly" "pipeline_name" = .ok "weekly" := shortText_eq_ok (by decide)
  have htrigger : label "manual" "trigger_type" = .ok "manual" := shortText_eq_ok (by decide)
  unfold Call.next CreateArgs.statement exampleArgs
  simp only [hweek, hpipeline, htrigger, optionalLabel, bind, Except.bind, pure, Except.pure]
  rfl

/-- A run is created and committed: it is there, and from now on changes as it may. -/
theorem run_lifecycle_created : ∃ σ : System Nat, ∃ row, σ.rows (Uuid.ofNat 7) = some row ∧ RowOk row ∧
    ∀ l σ', Step σ l σ' → ∃ new, σ'.rows (Uuid.ofNat 7) = some new ∧ (new = row ∨ Change row new) := by
  have h₁ : Reachable (_ : System Nat) :=
    .step .empty (.begin (i := 0) (c := .createRun exampleArgs) rfl rfl)
  have h₂ := h₁.step (.check (i := 0) rfl exampleArgs_next)
  have h₃ := h₂.step (@Step.execute _ _ _ 0 _ _ _ (exampleRow 10) rfl (fun j t hj ht => ?_) rfl)
  · have h₄ := h₃.step (.confirm (i := 0) rfl rfl)
    have h₅ := h₄.step (.commitReturned (i := 0) rfl)
    have hall := run_lifecycle h₅
    have hrow : written (fun _ => none) (some (Uuid.ofNat 7, exampleRow 10)) (Uuid.ofNat 7) =
        some (exampleRow 10) := by
      rw [written_some, if_pos rfl]
    exact ⟨_, exampleRow 10, hrow, hall.1 (Uuid.ofNat 7) _ hrow,
      fun l σ' hstep => (hall.2 l σ' hstep).1 (Uuid.ofNat 7) _ hrow⟩
  · rw [System.set_open, if_neg hj, System.set_open, if_neg hj] at ht
    cases ht

end TrackFlow.Pipelines.Lifecycle
