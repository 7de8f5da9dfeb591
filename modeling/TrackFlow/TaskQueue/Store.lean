import TrackFlow.TaskQueue.Sanitization
import TrackFlow.Pipelines.RunStore

/-!
# The rows of the task queue

The row of a task in `reporting.async_tasks` and the statements that change it, the dead letters,
and what the reconciler makes of a row. A statement whose `WHERE` does not match gives `none` and
changes nothing; each reads the clock of the database once.

- `Steady` is what a statement other than a claim makes of a row;
- `Task.checked` is the `CHECK` constraints of the table, which PostgreSQL holds each new row against.
-/

namespace TrackFlow.TaskQueue

open TrackFlow.Python TrackFlow.Pipelines

/-! ## Rows -/

/-- `execution_state`. -/
inductive ExecutionState
  | accepted
  | queued
  | claimed
  | running
  | retryWait
  | succeeded
  | failed
  | deadLettered
  | failurePendingDlq
  | reconciliationRequired
  deriving DecidableEq

/-- The states before Prefect is started: a claim and what leads to one. -/
def ExecutionState.unstarted (s : ExecutionState) : Bool := s ∈ [.accepted, .queued, .claimed, .retryWait]

/-- `execution_phase`, as far as a statement sets it. -/
inductive ExecutionPhase
  | none
  | preflight
  | prefectStarted
  | terminal
  deriving DecidableEq

/-- `dispatch_status`, as far as a statement sets it. -/
inductive DispatchStatus
  | pending
  | published
  | reconciliationRequired
  deriving DecidableEq

/-- `celery_state`, as far as a statement sets it. -/
inductive CeleryState
  | started
  | retry
  | success
  | failure
  deriving DecidableEq

/-- A row of `reporting.async_tasks`. -/
structure Task where
  runId : Uuid
  weekStart : Int
  executionState : ExecutionState
  dispatchStatus : DispatchStatus
  celeryState : Option CeleryState
  attemptCount : Nat
  attemptNumber : Option Nat
  attemptId : Option Uuid
  claimToken : Option Uuid
  executionEpoch : Nat
  executionPhase : ExecutionPhase
  claimExpiresAt : Option Int
  heartbeatAt : Option Int
  nextAttemptAt : Option Int
  pipelineStatus : Option String
  published : Option Bool
  errorCode : Option String
  errorMessage : Option String
  createdAt : Int
  finishedAt : Option Int

/-- `MAX_FAILED_EXECUTIONS`. -/
def maxFailedExecutions : Nat := 3

/-- `_INSERT_TASK`. -/
def acceptedTask (runId : Uuid) (weekStart now : Int) : Task where
  runId := runId
  weekStart := weekStart
  executionState := .accepted
  dispatchStatus := .pending
  celeryState := none
  attemptCount := 0
  attemptNumber := none
  attemptId := none
  claimToken := none
  executionEpoch := 0
  executionPhase := .none
  claimExpiresAt := none
  heartbeatAt := none
  nextAttemptAt := none
  pipelineStatus := none
  published := none
  errorCode := none
  errorMessage := none
  createdAt := now
  finishedAt := none

/-- A row of `reporting.task_dead_letters`. -/
structure DeadLetter where
  taskId : Uuid
  runId : Uuid
  attemptNumber : Nat
  terminalReason : String
  errorCode : String
  errorMessage : String

/-! ## Claims and retries -/

namespace Task

/-- The `CHECK` constraints of `reporting.async_tasks` that the types leave open. -/
def checked (t : Task) : Bool :=
  t.attemptCount ≤ 3 && t.attemptNumber.all (fun n => 1 ≤ n && n ≤ 3) &&
    (t.executionPhase ≠ .preflight || (t.executionState = .claimed && t.attemptId.isSome &&
      t.claimToken.isSome && t.claimExpiresAt.isSome && t.heartbeatAt.isSome)) &&
    (t.executionPhase ≠ .prefectStarted || (t.executionState = .running && t.attemptId.isSome &&
      t.claimToken.isSome && t.claimExpiresAt.isSome && t.heartbeatAt.isSome)) && t.errorCode.all
    (·.length ≤ 128) && t.errorMessage.all (·.length ≤ 512) && t.finishedAt.all (t.createdAt ≤ ·)

/-- The `WHERE` of `_CLAIM`. -/
def claimable (t : Task) (now : Int) : Bool :=
  t.attemptCount < maxFailedExecutions &&
    (t.executionState ∈ [.accepted, .queued] ||
      (t.executionState = .retryWait && t.nextAttemptAt.any (· ≤ now)) ||
      (t.executionState = .claimed && t.executionPhase = .preflight && t.claimExpiresAt.any (· ≤ now)))

/-- `claim_execution`, with the token and the attempt that it draws. -/
def claimExecution (t : Task) (token attempt : Uuid) (leaseSeconds now : Int) : Option Task :=
  if t.claimable now then some
    { t with
      executionState := .claimed, attemptCount := t.attemptCount + 1
      attemptNumber := some (t.attemptCount + 1)
      attemptId := some attempt, celeryState := some .started, claimToken := some token
      executionEpoch := t.executionEpoch + 1, executionPhase := .preflight
      claimExpiresAt := some (now + leaseSeconds * 1000000), heartbeatAt := some now }
  else none

/-- The task is claimed and not started, under this token and epoch. -/
def claimedBy (t : Task) (token : Uuid) (epoch : Nat) : Bool :=
  t.executionState = .claimed && t.executionPhase = .preflight && t.claimToken = some token &&
    t.executionEpoch = epoch

/-- The task is running, under this token and epoch. -/
def runningBy (t : Task) (token : Uuid) (epoch : Nat) : Bool :=
  t.executionState = .running && t.executionPhase = .prefectStarted && t.claimToken = some token &&
    t.executionEpoch = epoch

/-- `start_prefect`. -/
def startPrefect (t : Task) (token : Uuid) (epoch : Nat) (leaseSeconds now : Int) : Option Task :=
  if t.claimedBy token epoch && t.claimExpiresAt.any (now < ·) then some
    { t with
      executionState := .running, executionPhase := .prefectStarted, heartbeatAt := some now
      claimExpiresAt := some (now + leaseSeconds * 1000000) }
  else none

/-- `heartbeat_execution`. -/
def heartbeatExecution (t : Task) (token : Uuid) (epoch : Nat) (leaseSeconds now : Int) : Option Task :=
  if t.runningBy token epoch then some
    { t with heartbeatAt := some now, claimExpiresAt := some (now + leaseSeconds * 1000000) }
  else none

/-- The arguments of `finish_execution` besides the claim. -/
structure Finish where
  state : ExecutionState
  pipelineStatus : String
  published : Option Bool
  errorCode : Option String := none
  errorMessage : Option String := none

variable (alnum : Char → Bool)

/-- `finish_execution`. -/
def finishExecution (t : Task) (token : Uuid) (epoch : Nat) (a : Finish) (now : Int) : Option Task :=
  if t.runningBy token epoch then some
    { t with
      executionState := a.state, executionPhase := .terminal
      celeryState := some <|
        if a.state = .succeeded ∨
          (a.state = .reconciliationRequired ∧ a.pipelineStatus = "commit_uncertain") then .success
        else .failure
      pipelineStatus := some a.pipelineStatus, published := a.published
      errorCode := a.errorCode.map safeCode
      errorMessage := a.errorMessage.map (sanitizeMessage alnum)
      finishedAt := some now, heartbeatAt := some now
      claimExpiresAt := none }
  else none

/-- `schedule_retry`. -/
def scheduleRetry (t : Task) (token : Uuid) (epoch : Nat) (nextAttemptAt : Int)
    (errorCode errorMessage : String) : Option Task :=
  if t.claimedBy token epoch then some
    { t with
      executionState := .retryWait, executionPhase := .none, celeryState := some .retry
      errorCode := some (safeCode errorCode), errorMessage := some (sanitizeMessage alnum errorMessage)
      nextAttemptAt := some nextAttemptAt, claimToken := none, claimExpiresAt := none }
  else none

/-- `fail_claim`. -/
def failClaim (t : Task) (token : Uuid) (epoch : Nat) (state : ExecutionState)
    (errorCode errorMessage : String) (now : Int) : Option Task :=
  if t.claimedBy token epoch then some
    { t with
      executionState := state, executionPhase := .terminal
      celeryState := some .failure, published := some false
      errorCode := some (safeCode errorCode), errorMessage := some (sanitizeMessage alnum errorMessage)
      claimExpiresAt := none, finishedAt := some now }
  else none

/-! ## The relay -/

/-- What the relay sets after a publication. -/
def dispatched (t : Task) : Task :=
  { t with
    dispatchStatus := .published
    executionState := if t.executionState = .accepted then .queued else t.executionState }

/-- What the relay sets when its attempts are exhausted. -/
def undispatched (t : Task) : Task := { t with dispatchStatus := .reconciliationRequired }

end Task

/-! ## Dead letters -/

/-- The `CHECK` constraints of `reporting.task_dead_letters`. -/
def DeadLetter.checked (d : DeadLetter) : Bool :=
  1 ≤ d.attemptNumber && d.attemptNumber ≤ 3 &&
    d.terminalReason ∈ ["retries_exhausted", "non_retryable", "pipeline_terminal"] &&
    1 ≤ d.errorCode.length && d.errorCode.length ≤ 128 && 1 ≤ d.errorMessage.length &&
      d.errorMessage.length ≤ 512

/-- The row that `insert_dead_letter` inserts. -/
def deadLetter (alnum : Char → Bool) (taskId runId : Uuid) (attemptNumber : Nat)
    (reason errorCode errorMessage : String) : DeadLetter where
  taskId := taskId
  runId := runId
  attemptNumber := attemptNumber
  terminalReason := safeCode reason
  errorCode := safeCode errorCode
  errorMessage := sanitizeMessage alnum errorMessage

/-- `insert_dead_letter`: `none` when a constraint refuses the row. A row of the task stays, and
counts if it is of the same run. -/
def insertDeadLetter (letters : List DeadLetter) (d : DeadLetter) : Option (Bool × List DeadLetter) :=
  if !d.checked then none
  else
    match letters.find? fun old => old.taskId = d.taskId with
    | some old => some (old.runId = d.runId, letters)
    | none => if letters.any fun old => old.runId = d.runId then none else some (true, letters ++ [d])

/-- `_try_dead_letter`: whether the task has its dead letter; `fault` says that the database failed. -/
def tryDeadLetter (letters : List DeadLetter) (d : DeadLetter) (fault : Bool) : Bool × List DeadLetter :=
  if fault then (false, letters) else (insertDeadLetter letters d).getD (false, letters)

/-! ## The reconciler -/

/-- The outcome that the row of a run decides: the state and `published`. -/
def runOutcome (status : RunStatus) (commitResult : CommitResult) : Option (ExecutionState × Option Bool) :=
  if commitResult = .uncertain then some (.reconciliationRequired, none)
  else if status ∈ [.succeeded, .succeededNoop] ∧ commitResult = .technicallyObserved then
      some (.succeeded, some true)
  else if status = .blockedQuality then some (.succeeded, some false)
  else if status ∈ [.superseded, .skippedInProgress, .failedRetryable] then some (.failed, some false)
  else none

namespace Task

/-- Whether the claim has expired. -/
def claimExpired (t : Task) (now : Int) : Bool := t.claimExpiresAt.any (· ≤ now)

/-- The dead letter that `reconcile_task` inserts for a failure that waits for one. -/
def pendingLetter (alnum : Char → Bool) (taskId : Uuid) (t : Task) : DeadLetter :=
  let given (value : Option String) (default : String) : String :=
    if RunUpdate.falsy value then default else value.getD default
  deadLetter alnum taskId t.runId (max 1 t.attemptCount)
    (if 3 ≤ t.attemptCount then "retries_exhausted" else "non_retryable")
    (given t.errorCode "terminal_failure") (given t.errorMessage "terminal task failure")

/-- `reconcile_task` on a task and its run: the answer, the task and the dead letters. -/
def reconcile (alnum : Char → Bool) (taskId : Uuid) (t : Task) (run : RunRecord)
    (letters : List DeadLetter) (fault : Bool) (now : Int) : String × Task × List DeadLetter :=
  if t.executionState = .failurePendingDlq then
    match tryDeadLetter letters (t.pendingLetter alnum taskId) fault with
    | (true, letters') => ("dead_lettered", { t with executionState := .deadLettered, celeryState := some .failure }, letters')
    | (false, letters') => ("failure_pending_dlq", t, letters')
  else if t.executionState ∈ [.succeeded, .deadLettered, .failed, .reconciliationRequired] then
      ("unchanged", t, letters)
  else
    match runOutcome run.status run.commitResult with
    | some (state, published) =>
      let t' := { t with
        executionState := state, executionPhase := .terminal, pipelineStatus := some run.status.text
        published := published, claimToken := none, claimExpiresAt := none, finishedAt := some now }
      (if state = .reconciliationRequired then "reconciliation_required" else if state =
          .succeeded then "succeeded"
        else "failed", t', letters)
    | none =>
      if t.executionState = .running ∧ t.executionPhase = .prefectStarted ∧ t.claimExpired now then
        ("reconciliation_required",
          { t with
            executionState := .reconciliationRequired, executionPhase := .terminal
            pipelineStatus := some "execution_abandoned", published := none
            errorCode := some "execution_abandoned"
            errorMessage := some "worker heartbeat expired after Prefect started", claimExpiresAt := none
            finishedAt := some now }, letters)
      else ("ambiguous", t, letters)

/-- The `WHERE` of `reconcile_one`. -/
def reconcilable (t : Task) (run : RunRecord) (now : Int) : Bool :=
  t.executionState = .failurePendingDlq ||
    (t.executionState = .running && t.executionPhase = .prefectStarted && t.claimExpired now) ||
    (t.executionState ∈ [.claimed, .running] && t.claimExpired now &&
      run.status ∈ [.succeeded, .succeededNoop, .blockedQuality, .failedRetryable, .superseded,
        .skippedInProgress])

end Task

/-! ## Changes -/

variable {alnum : Char → Bool} {now : Int} {t u : Task}

/-- What a statement other than a claim makes of a row: the counters stay, and a task that was
started stays so. -/
structure Steady (t u : Task) : Prop where
  epoch : u.executionEpoch = t.executionEpoch
  attempts : u.attemptCount = t.attemptCount
  run : u.runId = t.runId
  unstarted : u.executionState.unstarted = true → t.executionState.unstarted = true

theorem Steady.refl (t : Task) : Steady t t := ⟨rfl, rfl, rfl, id⟩

theorem claimExecution_eq {token attempt : Uuid} {leaseSeconds : Int}
    (h : t.claimExecution token attempt leaseSeconds now = some u) :
    t.claimable now = true ∧ u.executionState = .claimed ∧ u.attemptCount = t.attemptCount + 1 ∧
      u.executionEpoch = t.executionEpoch + 1 ∧ u.runId = t.runId := by
  unfold Task.claimExecution at h
  split at h
  case isTrue hc =>
    cases h
    exact ⟨hc, rfl, rfl, rfl, rfl⟩
  · cases h

/-- A claim is granted below the bound, to a task that was not started. -/
theorem claimable_spec (h : t.claimable now = true) :
    t.attemptCount < maxFailedExecutions ∧ t.executionState.unstarted = true := by
  simp only [Task.claimable, Bool.and_eq_true, Bool.or_eq_true, decide_eq_true_eq] at h
  refine ⟨h.1, ?_⟩
  unfold ExecutionState.unstarted
  rcases h.2 with (h | h) | h
  · simp only [List.mem_cons, List.not_mem_nil, or_false] at h
    rcases h with h | h <;> simp [h]
  · simp [h.1]
  · simp [h.1.1]

theorem claimedBy_spec {token : Uuid} {epoch : Nat} (h : t.claimedBy token epoch = true) :
    t.executionState = .claimed ∧ t.executionPhase = .preflight ∧ t.claimToken = some token ∧
      t.executionEpoch = epoch := by
  simpa [Task.claimedBy, and_assoc] using h

theorem runningBy_spec {token : Uuid} {epoch : Nat} (h : t.runningBy token epoch = true) :
    t.executionState = .running ∧ t.executionPhase = .prefectStarted ∧ t.claimToken = some token ∧
      t.executionEpoch = epoch := by
  simpa [Task.runningBy, and_assoc] using h

theorem startPrefect_steady {token : Uuid} {epoch : Nat} {leaseSeconds : Int}
    (h : t.startPrefect token epoch leaseSeconds now = some u) :
    Steady t u ∧ t.executionState = .claimed ∧ u.executionState = .running := by
  unfold Task.startPrefect at h
  split at h
  case isTrue hc =>
    simp only [Bool.and_eq_true] at hc
    cases h
    exact ⟨⟨rfl, rfl, rfl, fun hu => by cases hu⟩, (claimedBy_spec hc.1).1, rfl⟩
  · cases h

theorem heartbeatExecution_steady {token : Uuid} {epoch : Nat} {leaseSeconds : Int}
    (h : t.heartbeatExecution token epoch leaseSeconds now = some u) : Steady t u := by
  unfold Task.heartbeatExecution at h
  split at h
  · cases h
    exact ⟨rfl, rfl, rfl, id⟩
  · cases h

theorem finishExecution_steady {token : Uuid} {epoch : Nat} {a : Task.Finish}
    (ha : a.state.unstarted = false)
    (h : t.finishExecution alnum token epoch a now = some u) : Steady t u := by
  unfold Task.finishExecution at h
  split at h
  · cases h
    refine ⟨rfl, rfl, rfl, fun hu => ?_⟩
    cases ha.symm.trans hu
  · cases h

theorem scheduleRetry_steady {token : Uuid} {epoch : Nat} {nextAttemptAt : Int} {code message : String}
    (h : t.scheduleRetry alnum token epoch nextAttemptAt code message = some u) : Steady t u := by
  unfold Task.scheduleRetry at h
  split at h
  case isTrue hc =>
    cases h
    refine ⟨rfl, rfl, rfl, fun _ => ?_⟩
    rw [(claimedBy_spec hc).1]
    rfl
  · cases h

theorem failClaim_steady {token : Uuid} {epoch : Nat} {state : ExecutionState}
    (hs : state.unstarted = false) {code message : String}
    (h : t.failClaim alnum token epoch state code message now = some u) : Steady t u := by
  unfold Task.failClaim at h
  split at h
  · cases h
    refine ⟨rfl, rfl, rfl, fun hu => ?_⟩
    cases hs.symm.trans hu
  · cases h

theorem dispatched_steady (t : Task) : Steady t t.dispatched := by
  refine ⟨rfl, rfl, rfl, fun h => ?_⟩
  unfold Task.dispatched at h
  dsimp only at h
  split at h
  case isTrue ha =>
    rw [ha]
    rfl
  · exact h

theorem undispatched_steady (t : Task) : Steady t t.undispatched := ⟨rfl, rfl, rfl, id⟩

theorem runOutcome_started {status : RunStatus} {commitResult : CommitResult} {state : ExecutionState}
    {published : Option Bool} (h : runOutcome status commitResult = some (state, published)) :
    state.unstarted = false := by
  unfold runOutcome at h
  split at h
  · cases h
    rfl
  · split at h
    · cases h
      rfl
    · split at h
      · cases h
        rfl
      · split at h
        · cases h
          rfl
        · cases h

theorem reconcile_steady (taskId : Uuid) (t : Task) (run : RunRecord) (letters : List DeadLetter)
    (fault : Bool) (now : Int) : Steady t (t.reconcile alnum taskId run letters fault now).2.1 := by
  unfold Task.reconcile
  split
  case isTrue hpending =>
    split
    · exact ⟨rfl, rfl, rfl, fun hu => by cases hu⟩
    · exact .refl t
  · split
    · exact .refl t
    · split
      · rename_i state published hout
        refine ⟨rfl, rfl, rfl, fun hu => ?_⟩
        cases (runOutcome_started hout).symm.trans hu
      · split
        · exact ⟨rfl, rfl, rfl, fun hu => by cases hu⟩
        · exact .refl t

end TrackFlow.TaskQueue
