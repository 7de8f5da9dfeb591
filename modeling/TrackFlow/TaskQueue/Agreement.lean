import TrackFlow.TaskQueue.DeadLetters
import TrackFlow.Pipelines.LeftRows
import TrackFlow.Pipelines.StoppedFlows

/-!
# Workers and reconcilers

What a flow returned can be recorded twice over: by the worker, from the result, or, when the worker
died before it could, by the reconciler, from the row of the run. Both know the same outcomes but
for the failures: the worker writes a dead letter for them, the reconciler does not.

- `classifications_agree`: both record the same exactly when the result is no failure, or leaves its
  COMMIT uncertain;
- `failure_without_letter`: a failed extraction, which the worker dead-letters.
-/

namespace TrackFlow.TaskQueue

open TrackFlow.Python TrackFlow.Pipelines

/-! ## What is recorded -/

/-- What is recorded of a task: its state, `published`, and whether it has a dead letter. -/
structure Classification where
  state : ExecutionState
  published : Option Bool
  letter : Bool
  deriving DecidableEq

/-- The classification that the rows of a task show. -/
def classify (taskId : Uuid) (rows : Task × List DeadLetter) : Classification :=
  ⟨rows.1.executionState, rows.1.published, rows.2.any fun d => d.taskId = taskId⟩

/-- What a worker records of a result, in one transaction: the task and the dead letters. -/
def recordResult (alnum : Char → Bool) (c : Claim) (r : CoordinatorResult) (t : Task)
    (letters : List DeadLetter) (fault : Bool) (now : Int) : Task × List DeadLetter :=
  if (resultOutcome r).1 = .failed then
    let (inserted, letters) := tryDeadLetter letters
      (deadLetter alnum c.taskId c.runId c.attempt "pipeline_terminal" (resultText r.status)
        "pipeline returned a terminal failure") fault
    (((Closing.finish r.status).apply alnum c inserted t now).getD t, letters)
  else
    ((t.finishExecution alnum c.token c.epoch
      { state := (resultOutcome r).1, pipelineStatus := resultText r.status, published := (resultOutcome r).2 } now).getD t,
      letters)

variable {alnum : Char → Bool} {c : Claim} {r : CoordinatorResult} {t : Task} {letters : List DeadLetter}
  {fault : Bool} {now : Int}

section Steps

variable {Wk : Type} [DecidableEq Wk] {σ : System Wk} {w : Wk}

/-- The letter that commits is the one that the open transaction inserted. -/
theorem commitLetter_try (d : DeadLetter) :
    commitLetter letters (if (tryDeadLetter letters d fault).1 then some d else none) =
    (tryDeadLetter letters d fault).2 := by
  unfold tryDeadLetter insertDeadLetter
  split
  · rfl
  · split
    · rfl
    · cases hfind : letters.find? fun old => decide (old.taskId = d.taskId) with
      | some old =>
        have hany : (letters.any fun old => decide (old.taskId = d.taskId)) = true :=
          List.any_eq_true.2 ⟨old, List.mem_of_find?_eq_some hfind, by simpa using List.find?_some hfind⟩
        by_cases hrun : old.runId = d.runId <;> simp [hrun, commitLetter, hany]
      | none =>
        have hany : (letters.any fun old => decide (old.taskId = d.taskId)) = false := by
          rw [List.any_eq_false]
          exact List.find?_eq_none.1 hfind
        by_cases hrun : (letters.any fun old => decide (old.runId = d.runId)) = true
        · simp [hrun, commitLetter]
        · simp [hrun, commitLetter, hany]

/-- It is what the steps of the worker make of the rows. -/
theorem recordResult_reachable (hσ : Reachable alnum σ) (hw : σ.workers w = some (.returned c r))
    (ht : σ.tasks c.taskId = some t) (fault : Bool) : ∃ σ' : System Wk, Reachable alnum σ' ∧
      σ'.tasks c.taskId = some (recordResult alnum c r t σ.letters fault σ.clock).1 ∧
      σ'.letters = (recordResult alnum c r t σ.letters fault σ.clock).2 := by
  unfold recordResult
  split
  case isTrue hfailed =>
    have hletter : (Worker.returned c r).letter alnum = some (c, deadLetter alnum c.taskId c.runId c.attempt
        "pipeline_terminal" (resultText r.status) "pipeline returned a terminal failure",
          .finish r.status) := if_pos hfailed
    have hopen := hσ.step (.letter fault hw hletter)
    have hclosed := hopen.step (.close (System.move_workers .. |>.trans (if_pos rfl)))
    refine ⟨_, hclosed, ?_, commitLetter_try _⟩
    rw [System.move_tasks]
    refine System.update_row ht ?_
    generalize tryDeadLetter σ.letters (deadLetter alnum c.taskId c.runId c.attempt "pipeline_terminal"
      (resultText r.status) "pipeline returned a terminal failure") fault = tried
    obtain ⟨inserted, letters'⟩ := tried
    cases inserted <;> rfl
  case isFalse hfailed =>
    exact ⟨_, hσ.step (.finishReturned hw hfailed), System.update_row ht rfl, System.update_letters ..⟩

end Steps

/-! ## Both classifications -/

/-- What the reconciler takes from the row of a run, when the claim of its task has expired. -/
def rowOutcome (row : RunRecord) : ExecutionState × Option Bool :=
  (runOutcome row.status row.commitResult).getD (.reconciliationRequired, none)

theorem recordResult_state (howned : t.runningBy c.token c.epoch = true) :
    if (resultOutcome r).1 = .failed then
        (recordResult alnum c r t letters fault now).1.executionState.lettered = true
    else classify c.taskId (recordResult alnum c r t letters fault now) =
      ⟨(resultOutcome r).1, (resultOutcome r).2, letters.any fun d => d.taskId = c.taskId⟩ := by
  unfold recordResult
  split
  · simp only [Closing.apply, Task.finishExecution, howned, if_true, Option.getD_some]
    unfold letteredState
    split <;> rfl
  · simp only [Task.finishExecution, howned, if_true, Option.getD_some]
    rfl

theorem reconcile_classify {taskId : Uuid} {row : RunRecord} (hstate : t.executionState = .running)
    (hphase : t.executionPhase = .prefectStarted) (hexpired : t.claimExpired now = true) :
    classify taskId (t.reconcile alnum taskId row letters fault now).2 =
      ⟨(rowOutcome row).1, (rowOutcome row).2, letters.any fun d => d.taskId = taskId⟩ := by
  unfold Task.reconcile rowOutcome
  rw [if_neg (by rw [hstate]; decide), if_neg (by rw [hstate]; decide)]
  cases runOutcome row.status row.commitResult with
  | some outcome => rfl
  | none =>
    rw [if_pos ⟨hstate, hphase, hexpired⟩]
    rfl

theorem rowOutcome_not_lettered (row : RunRecord) : (rowOutcome row).1.lettered = false := by
  unfold rowOutcome runOutcome
  repeat' split
  all_goals rfl

theorem ended_cases {s : RunStatus} (hterminal : s.terminal = true) (hsuccess : s.success = false) :
    s = .blockedQuality ∨ s ∈ [.failedRetryable, .superseded, .skippedInProgress] := by
  revert hterminal hsuccess
  cases s <;> decide

/-- The statuses of a failure. -/
def failures : List ResultStatus := [.run .failedRetryable, .run .superseded, .run .skippedInProgress]

/-- When a worker records a failure. -/
theorem resultOutcome_failed {row : RunRecord} (h : Leaves r row) :
    (resultOutcome r).1 = .failed ↔ r.status ∈ failures ∧ r.commitResult ≠ .uncertain := by
  by_cases hu : r.commitResult = .uncertain
  · simp [resultOutcome, hu]
  · cases h with
    | ended hstatus hterminal hsuccess hcommit =>
      rcases ended_cases hterminal hsuccess with hs | hs
      · simp [resultOutcome, hstatus, hs, hu, failures]
      · simp only [List.mem_cons, List.not_mem_nil, or_false] at hs
        rcases hs with hs | hs | hs <;> simp [resultOutcome, hstatus, hs, hu, failures]
    | published hstatus hsuccess hcommit hobserved hrecorded =>
      cases hs : row.status <;> simp [hs, RunStatus.success] at hsuccess <;>
        simp [resultOutcome, hstatus, hs, hu, failures]
    | unverified hstatus hfailed hcommit hunattempted => simp [resultOutcome, hstatus, hu, failures]
    | unobserved hstatus hrunning => simp [resultOutcome, hstatus, failures]

/-- A result that is no failure has the outcome of its row. -/
theorem outcome_agrees {row : RunRecord} (h : Leaves r row) (hr : (resultOutcome r).1 ≠ .failed) :
    resultOutcome r = rowOutcome row := by
  have hnot : r.status ∈ failures → r.commitResult = .uncertain := fun hs =>
    by_contra fun hu => hr ((resultOutcome_failed h).2 ⟨hs, hu⟩)
  cases h with
  | ended hstatus hterminal hsuccess hcommit =>
    by_cases hu : r.commitResult = .uncertain
    · simp [resultOutcome, rowOutcome, runOutcome, hcommit, hu]
    · rcases ended_cases hterminal hsuccess with hs | hs
      · simp [resultOutcome, rowOutcome, runOutcome, hstatus, hs, hcommit, hu]
      · refine absurd (hnot ?_) hu
        rw [hstatus]
        exact List.mem_map_of_mem (f := ResultStatus.run) hs
  | published hstatus hsuccess hcommit hobserved hrecorded =>
    cases hs : row.status <;> simp [hs, RunStatus.success] at hsuccess <;>
      simp [resultOutcome, rowOutcome, runOutcome, hstatus, hs, hcommit, hobserved, hrecorded]
  | unverified hstatus hfailed hcommit hunattempted =>
    have hu := hnot (by rw [hstatus]; exact List.mem_cons_self)
    cases hunattempted.symm.trans hu
  | unobserved hstatus hrunning =>
    have hrow : runOutcome .running row.commitResult = some (.reconciliationRequired, none) ∨
        runOutcome .running row.commitResult = none := by
      cases row.commitResult <;> decide
    rcases hrow with hrow | hrow <;> simp [resultOutcome, rowOutcome, hstatus, hrunning, hrow]

/-- **The worker and the reconciler record the same exactly when the result is no failure**, or
leaves its COMMIT uncertain. -/
theorem classifications_agree {x : Execution} {w₀ w : World} {run : Uuid} {row : RunRecord}
    {fault' : Bool} {later : Int}
    (hcreated : createRunTask x w₀ = (.ok run, w)) (hrow : w.runs run = some row)
    (hnew : row.commitResult = .notAttempted)
    (hreturned : (weeklyPerformanceFlow x w₀).1 = .ok r) (howned : t.runningBy c.token c.epoch = true)
    (hexpired : t.claimExpired later = true) : ∃ row', (weeklyPerformanceFlow x w₀).2.runs run = some row' ∧
      (classify c.taskId (recordResult alnum c r t letters fault now) =
        classify c.taskId (t.reconcile alnum c.taskId row' letters fault' later).2 ↔
      (r.status ∈ failures → r.commitResult = .uncertain)) := by
  obtain ⟨row', hrow', hleaves⟩ := flow_leaves hcreated hrow hnew hreturned
  obtain ⟨hstate, hphase, -⟩ := runningBy_spec howned
  refine ⟨row', hrow', ?_⟩
  rw [reconcile_classify hstate hphase hexpired]
  have hrecorded := @recordResult_state alnum c r t letters fault now howned
  by_cases hfailed : (resultOutcome r).1 = .failed
  · rw [if_pos hfailed] at hrecorded
    obtain ⟨hs, hu⟩ := (resultOutcome_failed hleaves).1 hfailed
    refine iff_of_false (fun heq => ?_) fun h => hu (h hs)
    have hstates : (recordResult alnum c r t letters fault now).1.executionState = (rowOutcome row').1 :=
      congrArg Classification.state heq
    rw [hstates, rowOutcome_not_lettered] at hrecorded
    cases hrecorded
  · rw [if_neg hfailed] at hrecorded
    rw [hrecorded, outcome_agrees hleaves hfailed]
    exact iff_of_true rfl fun hs => by_contra fun hu => hfailed ((resultOutcome_failed hleaves).2 ⟨hs, hu⟩)

/-- The task whose flow is the example, started. -/
def exampleFlowTask : Task := { exampleRunning 1 0 with runId := Uuid.ofNat 7 }

theorem exampleFlowTask_owned :
    exampleFlowTask.runningBy (exampleClaim 1).token (exampleClaim 1).epoch = true := rfl

theorem exampleFlowTask_expired : exampleFlowTask.claimExpired 9000000000 = true := by decide

/-- A flow that the gate blocks: both record a success without a publication. -/
theorem classifications_agree_example :
    let x : Execution := { exampleExecution "" with
      sourced := false, extract := .ok 1, calculation := .ok ⟨[], ⟨[], [], [], [], [], [], [], [], []⟩⟩ }
    let r : CoordinatorResult :=
      { weekStart := 4, runId := Uuid.ofNat 7, status := .run .blockedQuality, errors := ["technical_coverage_invalid"] }
    (weeklyPerformanceFlow x exampleWorld).1 = .ok r ∧ ∃ row',
      (weeklyPerformanceFlow x exampleWorld).2.runs (Uuid.ofNat 7) = some row' ∧
      classify (Uuid.ofNat 1) (recordResult (fun _ => false) (exampleClaim 1) r exampleFlowTask
        [] false 0) = classify (Uuid.ofNat 1) (exampleFlowTask.reconcile (fun _ => false)
        (Uuid.ofNat 1) row' [] false 9000000000).2 := by
  intro x r
  have hreturned : (weeklyPerformanceFlow x exampleWorld).1 = .ok r := rfl
  refine ⟨hreturned, ?_⟩
  exact (classifications_agree (w := correlatedWorld) rfl rfl rfl hreturned exampleFlowTask_owned
    exampleFlowTask_expired).imp fun row' h => ⟨h.1, h.2.2 (by decide)⟩

/-- A relay that fails: the worker writes a dead letter of the run that failed, the reconciler does not. -/
theorem failure_without_letter : ∃ (x : Execution) (w₀ w : World) (run : Uuid) (row row' : RunRecord)
    (r : CoordinatorResult) (c : Claim) (t : Task) (later : Int), createRunTask x w₀ = (.ok run, w) ∧
    w.runs run = some row ∧ row.commitResult = .notAttempted ∧ (weeklyPerformanceFlow x w₀).1 = .ok r ∧
    (weeklyPerformanceFlow x w₀).2.runs run = some row' ∧ t.runId = run ∧
    t.runningBy c.token c.epoch = true ∧ t.claimExpired later = true ∧
    classify c.taskId (recordResult (fun _ => false) c r t [] false 0) ≠
      classify c.taskId (t.reconcile (fun _ => false) c.taskId row' [] false later).2 := by
  let r : CoordinatorResult :=
    { weekStart := 4, runId := Uuid.ofNat 7, status := .run .failedRetryable, errors := ["relay_failed"] }
  have hreturned : (weeklyPerformanceFlow (exampleExecution "down") exampleWorld).1 = .ok r := rfl
  obtain ⟨row', hrow', hleaves⟩ :=
    flow_leaves (w := correlatedWorld) (x := exampleExecution "down") rfl rfl rfl hreturned
  refine ⟨_, exampleWorld, correlatedWorld, _, _, row', r, exampleClaim 1, exampleFlowTask, 9000000000, rfl, rfl, rfl, hreturned,
    hrow', rfl, exampleFlowTask_owned, exampleFlowTask_expired, fun heq => ?_⟩
  have hrecorded := @recordResult_state (fun _ => false) (exampleClaim 1) r exampleFlowTask [] false
      0 exampleFlowTask_owned
  have hstates : (recordResult (fun _ => false) (exampleClaim 1) r exampleFlowTask [] false
      0).1.executionState =
      (exampleFlowTask.reconcile (fun _ => false) (Uuid.ofNat 1) row' [] false
        9000000000).2.1.executionState :=
    congrArg Classification.state heq
  have hreconciled := congrArg Classification.state (@reconcile_classify (fun _ => false) exampleFlowTask
    [] false 9000000000 (Uuid.ofNat 1) row' rfl rfl exampleFlowTask_expired)
  rw [if_pos (by rfl), hstates, show Task.executionState _ = _ from hreconciled,
    rowOutcome_not_lettered] at hrecorded
  cases hrecorded

end TrackFlow.TaskQueue
