import TrackFlow.TaskQueue.Store
import TrackFlow.Pipelines.Coordinator

/-!
# Workers, relays and reconcilers

Any number of workers run `run_weekly_pipeline_task` on the messages that the broker delivers, as
often as it likes, while relays and reconcilers work on the same rows. A step is one transaction,
except that a worker inserts a dead letter and changes the task in two statements of one
transaction: the letter is then in the worker until it commits.

The runs belong to the pipeline, which may change them at any time (`Step.pipeline`). A worker may
be lost at any point (`Step.leave`). `history` is a record that no step reads.
-/

namespace TrackFlow.TaskQueue

open TrackFlow.Python TrackFlow.Pipelines

variable {Wk : Type}

/-! ## Workers -/

/-- What a successful claim gives its worker. -/
structure Claim where
  taskId : Uuid
  runId : Uuid
  token : Uuid
  epoch : Nat
  attempt : Nat

/-- The result that a worker records for what the pipeline returned: the state and `published`. -/
def resultOutcome (r : CoordinatorResult) : ExecutionState × Option Bool :=
  if r.status = .commitUncertain ∨ r.commitResult = .uncertain then (.reconciliationRequired, none)
  else if r.status = .run .blockedQuality then (.succeeded, some false)
  else if r.status = .run .succeeded ∨ r.status = .run .succeededNoop then
      (.succeeded, some r.publicationRecorded)
  else (.failed, some false)

/-- The stored text of a result status. -/
def resultText : ResultStatus → String
  | .run status => status.text
  | .commitUncertain => "commit_uncertain"

/-- The update with which a worker closes its task after a dead letter. -/
inductive Closing
  | failClaim (code message : String)
  | finish (status : ResultStatus)

/-- Where a worker is. -/
inductive Worker
  | delivered (taskId runId : Uuid) (weekStart : Int)
  | refused (taskId : Uuid)
  | claimed (c : Claim)
  | unreachable (c : Claim) (code message : String)
  | unbuildable (c : Claim) (code message : String)
  | ready (c : Claim)
  | started (c : Claim)
  | running (c : Claim)
  | raised (c : Claim) (code message : String)
  | returned (c : Claim) (r : CoordinatorResult)
  | closing (c : Claim) (inserted : Option DeadLetter) (update : Closing)

/-- The dead letter that a worker is about to insert, and the update that follows it. -/
def Worker.letter (alnum : Char → Bool) : Worker → Option (Claim × DeadLetter × Closing)
  | .unreachable c code message =>
    if c.attempt < maxFailedExecutions then none
    else some (c, deadLetter alnum c.taskId c.runId c.attempt "retries_exhausted" code message,
      .failClaim code message)
  | .unbuildable c code message =>
    some (c, deadLetter alnum c.taskId c.runId c.attempt "non_retryable" code message,
      .failClaim code message)
  | .returned c r =>
    if (resultOutcome r).1 = .failed then
      some (c, deadLetter alnum c.taskId c.runId c.attempt "pipeline_terminal" (resultText r.status)
        "pipeline returned a terminal failure", .finish r.status)
    else none
  | _ => none

/-- The state that a worker records with or without its dead letter. -/
def letteredState (inserted : Bool) : ExecutionState :=
  if inserted then .deadLettered else .failurePendingDlq

/-- The fenced update of `Closing`. -/
def Closing.apply (alnum : Char → Bool) (c : Claim) (inserted : Bool) (t : Task) (now : Int) :
    Closing → Option Task
  | .failClaim code message => t.failClaim alnum c.token c.epoch (letteredState inserted) code message now
  | .finish status => t.finishExecution alnum c.token c.epoch
      { state := letteredState inserted, pipelineStatus := resultText status, published := some false
        errorCode := some (resultText status)
        errorMessage := some "pipeline returned a terminal failure" } now

/-! ## Systems -/

/-- What is remembered of the claims, of the starts, and of the pipelines that ran. -/
inductive Event
  | claimed (c : Claim)
  | started (c : Claim)
  | launched (c : Claim)

/-- The tables, the workers and the clock. -/
structure System (Wk : Type) where
  tasks : Uuid → Option Task
  letters : List DeadLetter
  runs : Runs
  workers : Wk → Option Worker
  clock : Int
  history : List Event

namespace System

/-- No tasks and no workers. -/
def empty (runs : Runs) (clock : Int) : System Wk where
  tasks _ := none
  letters := []
  runs := runs
  workers _ := none
  clock := clock
  history := []

/-- A row is replaced. -/
def setTask (σ : System Wk) (task : Uuid) (t : Task) : System Wk :=
  { σ with tasks := Function.update σ.tasks task (some t) }

/-- A row is replaced by what a statement makes of it, if it matches. -/
def update (σ : System Wk) (task : Uuid) (statement : Task → Option Task) : System Wk :=
  match (σ.tasks task).bind statement with
  | some t' => σ.setTask task t'
  | none => σ

/-- A worker moves on. -/
def move [DecidableEq Wk] (σ : System Wk) (w : Wk) (next : Option Worker) : System Wk :=
  { σ with workers := Function.update σ.workers w next }

/-- Something is remembered. -/
def record (σ : System Wk) (e : Event) : System Wk := { σ with history := σ.history ++ [e] }

section Fields

variable (σ : System Wk) (task : Uuid) (t : Task) (statement : Task → Option Task) (e : Event)

theorem setTask_tasks (k : Uuid) : (σ.setTask task t).tasks k = if k = task then some t else σ.tasks k :=
  Function.update_apply ..

@[simp] theorem setTask_history : (σ.setTask task t).history = σ.history := rfl

@[simp] theorem setTask_workers : (σ.setTask task t).workers = σ.workers := rfl

@[simp] theorem update_history : (σ.update task statement).history = σ.history := by
  unfold update
  split <;> rfl

@[simp] theorem update_workers : (σ.update task statement).workers = σ.workers := by
  unfold update
  split <;> rfl

@[simp] theorem update_letters : (σ.update task statement).letters = σ.letters := by
  unfold update
  split <;> rfl

@[simp] theorem update_clock : (σ.update task statement).clock = σ.clock := by
  unfold update
  split <;> rfl

@[simp] theorem update_runs : (σ.update task statement).runs = σ.runs := by
  unfold update
  split <;> rfl

theorem update_tasks (k : Uuid) : (σ.update task statement).tasks k =
    if k = task then ((σ.tasks task).bind statement).or (σ.tasks task) else σ.tasks k := by
  unfold update
  cases h : (σ.tasks task).bind statement with
  | none =>
    by_cases hk : k = task
    · simp [hk]
    · simp [hk]
  | some u => exact setTask_tasks σ task u k

theorem update_row {σ : System Wk} {task : Uuid} {t u : Task} {statement : Task → Option Task}
    (ht : σ.tasks task = some t) (hs : (statement t).getD t = u) :
    (σ.update task statement).tasks task = some u := by
  rw [update_tasks, if_pos rfl, ht, Option.bind_some, ← hs]
  cases statement t <;> rfl

@[simp] theorem record_tasks : (σ.record e).tasks = σ.tasks := rfl

@[simp] theorem record_workers : (σ.record e).workers = σ.workers := rfl

variable [DecidableEq Wk] (w : Wk) (next : Option Worker)

theorem move_workers (v : Wk) : (σ.move w next).workers v = if v = w then next else σ.workers v :=
  Function.update_apply ..

@[simp] theorem move_tasks : (σ.move w next).tasks = σ.tasks := rfl

@[simp] theorem move_history : (σ.move w next).history = σ.history := rfl

end Fields

end System

/-- A row stays, and changes as `R` says. -/
def Follows (R : Task → Task → Prop) (o o' : Option Task) : Prop :=
  match o with
  | none => o' = none
  | some t => ∃ u, o' = some u ∧ R t u

section Rows

variable {R : Task → Task → Prop} (hrefl : ∀ t, R t t)

include hrefl

theorem Follows.refl (o : Option Task) : Follows R o o := by
  cases o with
  | none => rfl
  | some t => exact ⟨t, rfl, hrefl t⟩

theorem follows_setTask {σ : System Wk} {task : Uuid} {t u : Task} (ht : σ.tasks task = some t)
    (hs : R t u) (k : Uuid) : Follows R (σ.tasks k) ((σ.setTask task u).tasks k) := by
  rw [System.setTask_tasks]
  by_cases hk : k = task
  · rw [if_pos hk, hk, ht]
    exact ⟨u, rfl, hs⟩
  · rw [if_neg hk]
    exact .refl hrefl _

theorem follows_update {σ : System Wk} {task : Uuid} {statement : Task → Option Task}
    (hs : ∀ t u, σ.tasks task = some t → statement t = some u → R t u) (k : Uuid) :
    Follows R (σ.tasks k) ((σ.update task statement).tasks k) := by
  unfold System.update
  cases ht : σ.tasks task with
  | none => exact .refl hrefl _
  | some t =>
    rw [Option.bind_some]
    cases hu : statement t with
    | none => exact .refl hrefl _
    | some u => exact follows_setTask hrefl ht (hs t u ht hu) k

end Rows

/-- The row of a run that `create_run` inserts for a task. -/
def createdRun (run : Uuid) (weekStart now : Int) : RunRecord where
  runId := run
  targetWeekStart := weekStart
  startedAt := now
  status := .pending
  finishedAt := none
  stageReached := some "accepted"
  recordsProcessed := none
  aggregatesCalculated := none
  rowsInserted := none
  rowsUpdated := none
  rowsUnchanged := none
  errorCode := none
  errorMessage := none
  blockReason := none
  commitResult := .notAttempted

/-- A letter of a worker that commits; a letter of the task that is there stays. -/
def commitLetter (letters : List DeadLetter) : Option DeadLetter → List DeadLetter
  | none => letters
  | some d => if letters.any fun old => old.taskId = d.taskId then letters else letters ++ [d]

/-- What a step is, as far as a statement about it asks. -/
inductive Label (Wk : Type)
  | close (w : Wk)
  | other

section Steps

variable [DecidableEq Wk] (alnum : Char → Bool)

/-- One step. -/
inductive Step : System Wk → Label Wk → System Wk → Prop
  /-- `accept_async_task` that creates a task. -/
  | accept {σ} (task run : Uuid) (weekStart : Int) : σ.tasks task = none → σ.runs run = none →
      Step σ .other { σ with
        tasks := Function.update σ.tasks task (some (acceptedTask run weekStart σ.clock))
        runs := Function.update σ.runs run (some (createdRun run weekStart σ.clock)) }
  /-- The pipeline, and whoever else writes runs. -/
  | pipeline {σ} (runs : Runs) : (∀ run, (σ.runs run).isSome → (runs run).isSome) →
      Step σ .other { σ with runs }
  | tick {σ} (now : Int) : σ.clock ≤ now → Step σ .other { σ with clock := now }
  | relayPublished {σ} (task : Uuid) : Step σ .other (σ.update task fun t => some t.dispatched)
  | relayExhausted {σ} (task : Uuid) : Step σ .other (σ.update task fun t => some t.undispatched)
  /-- `reconcile_one` and the call of `reconcile_task` by a worker whose claim was refused. -/
  | reconcile {σ task t run} (fault : Bool) : σ.tasks task = some t → σ.runs t.runId = some run →
      Step σ .other { σ.setTask task (t.reconcile alnum task run σ.letters fault σ.clock).2.1 with
        letters := (t.reconcile alnum task run σ.letters fault σ.clock).2.2 }
  | deliver {σ w} (task run : Uuid) (weekStart : Int) : σ.workers w = none →
      Step σ .other (σ.move w (some (.delivered task run weekStart)))
  /-- The end of a worker, by return, by exception or by crash. -/
  | leave {σ} (w : Wk) : Step σ .other (σ.move w none)
  | refuse {σ w task run weekStart} : σ.workers w = some (.delivered task run weekStart) →
      ((σ.tasks task).bind fun t => if t.claimable σ.clock then some t else none) = none →
      Step σ .other (σ.move w (some (.refused task)))
  /-- A claim; a payload that is not of the task ends the worker afterwards. -/
  | claim {σ w task run weekStart t t'} (token attempt : Uuid) (leaseSeconds : Int) :
      σ.workers w = some (.delivered task run weekStart) → σ.tasks task = some t → 1 ≤ leaseSeconds →
      t.claimExecution token attempt leaseSeconds σ.clock = some t' →
      Step σ .other (((σ.setTask task t').record (.claimed ⟨task, t.runId, token, t'.executionEpoch,
          t'.attemptCount⟩)).move w
        (if t.runId = run ∧ t.weekStart = weekStart then
          some (.claimed ⟨task, t.runId, token, t'.executionEpoch, t'.attemptCount⟩) else none))
  /-- What building the runtime and probing its database end with. -/
  | probe {σ w c} (next : Worker) : σ.workers w = some (.claimed c) →
      (next = .ready c ∨ ∃ code message, next = .unreachable c code message ∨
          next = .unbuildable c code message) →
      Step σ .other (σ.move w (some next))
  | retry {σ w c code message} (nextAttemptAt : Int) : σ.workers w = some (.unreachable c code message) →
      c.attempt < maxFailedExecutions →
      Step σ .other ((σ.update c.taskId fun t =>
        t.scheduleRetry alnum c.token c.epoch nextAttemptAt code message).move w none)
  | start {σ w c t t'} (leaseSeconds : Int) : σ.workers w = some (.ready c) → σ.tasks c.taskId = some t →
      t.startPrefect c.token c.epoch leaseSeconds σ.clock = some t' →
      Step σ .other (((σ.setTask c.taskId t').record (.started c)).move w (some (.started c)))
  | launch {σ w c} : σ.workers w = some (.started c) →
      Step σ .other ((σ.record (.launched c)).move w (some (.running c)))
  /-- A heartbeat; its thread can outlive the call that started it. -/
  | heartbeat {σ} (c : Claim) (leaseSeconds : Int) : .started c ∈ σ.history →
      Step σ .other (σ.update c.taskId fun t => t.heartbeatExecution c.token c.epoch leaseSeconds σ.clock)
  | end_ {σ w c} (next : Worker) : σ.workers w = some (.running c) →
      ((∃ code message, next = .raised c code message) ∨ ∃ r, next = .returned c r) →
      Step σ .other (σ.move w (some next))
  | finishRaised {σ w c code message} : σ.workers w = some (.raised c code message) →
      Step σ .other ((σ.update c.taskId fun t => t.finishExecution alnum c.token c.epoch
        { state := .reconciliationRequired, pipelineStatus := "execution_uncertain", published := none
          errorCode := some code, errorMessage := some message } σ.clock).move w none)
  | finishReturned {σ w c r} : σ.workers w = some (.returned c r) → (resultOutcome r).1 ≠ .failed →
      Step σ .other ((σ.update c.taskId fun t => t.finishExecution alnum c.token c.epoch
        { state := (resultOutcome r).1, pipelineStatus := resultText r.status, published := (resultOutcome r).2 }
        σ.clock).move w none)
  /-- The dead letter of a worker, in its open transaction. -/
  | letter {σ w x c d update} (fault : Bool) : σ.workers w = some x → x.letter alnum = some (c, d, update) →
      Step σ .other (σ.move w (some (.closing c (if (tryDeadLetter σ.letters d fault).1 then
          some d else none) update)))
  /-- The rest of that transaction; nobody looks at what the update matched. -/
  | close {σ w c inserted update} : σ.workers w = some (.closing c inserted update) →
      Step σ (.close w) ({ σ.update c.taskId (fun t => update.apply alnum c inserted.isSome t σ.clock) with
        letters := commitLetter σ.letters inserted }.move w none)

/-- The states that any order of steps reaches. -/
inductive Reachable : System Wk → Prop
  | empty (runs : Runs) (clock : Int) : Reachable (.empty runs clock)
  | step {σ l σ'} : Reachable σ → Step alnum σ l σ' → Reachable σ'

end Steps

/-! ## An example -/

/-- A task that was claimed for the `n`th time, at `now`. -/
def exampleTask (n : Nat) (now : Int) : Task :=
  { acceptedTask (Uuid.ofNat 2) 4 0 with
    executionState := .claimed, attemptCount := n, attemptNumber := some n, attemptId := some (Uuid.ofNat 4)
    celeryState := some .started, claimToken := some (Uuid.ofNat 3)
    executionEpoch := n, executionPhase := .preflight
    claimExpiresAt := some (now + 30000000), heartbeatAt := some now }

/-- What its worker holds. -/
def exampleClaim (n : Nat) : Claim := ⟨Uuid.ofNat 1, Uuid.ofNat 2, Uuid.ofNat 3, n, n⟩

/-- Its state, as far as it matters: worker `w` holds the last of `n` claims. -/
structure ExampleClaimed (n : Nat) (w : Nat) (σ : System Nat) : Prop where
  task : σ.tasks (Uuid.ofNat 1) = some (exampleTask n σ.clock)
  worker : σ.workers w = some (.claimed (exampleClaim n))
  later : ∀ v, w < v → σ.workers v = none
  letters : σ.letters = []
  history : σ.history = (List.range n).map fun i => .claimed (exampleClaim (i + 1))
  runs : σ.runs (Uuid.ofNat 2) = some (createdRun (Uuid.ofNat 2) 4 0)

theorem exampleClaimed (alnum : Char → Bool) : ∃ σ, Reachable alnum σ ∧ ExampleClaimed 1 0 σ := by
  have h₀ : Reachable alnum (System.empty (fun _ => none) 0 : System Nat) := .empty _ _
  have h₁ := h₀.step (.accept (Uuid.ofNat 1) (Uuid.ofNat 2) 4 rfl rfl)
  have h₂ := h₁.step (.deliver (w := 0) (Uuid.ofNat 1) (Uuid.ofNat 2) 4 rfl)
  have h₃ := h₂.step (.claim (w := 0) (Uuid.ofNat 3) (Uuid.ofNat 4) 30
    (show _ = some (Worker.delivered (Uuid.ofNat 1) (Uuid.ofNat 2) 4) from rfl)
    (show _ = some (acceptedTask (Uuid.ofNat 2) 4 0) from rfl) (by decide) rfl)
  refine ⟨_, h₃, rfl, rfl, fun v hv => ?_, rfl, rfl, rfl⟩
  have hne : v ≠ 0 := by omega
  rw [System.move_workers, if_neg hne]
  exact Function.update_of_ne hne ..

/-- The lease is over and the next worker claims the task again. -/
theorem ExampleClaimed.again {alnum : Char → Bool} {σ : System Nat} {n w : Nat} (hσ : Reachable alnum σ)
    (h : ExampleClaimed n w σ) (hn : n < maxFailedExecutions) :
    ∃ σ', Reachable alnum σ' ∧ ExampleClaimed (n + 1) (w + 1) σ' ∧ ∀ v, v ≤ w →
      σ'.workers v = σ.workers v := by
  have h₁ := hσ.step (.tick (σ.clock + 30000000) (by omega))
  have h₂ := h₁.step (.deliver (w := w + 1) (Uuid.ofNat 1) (Uuid.ofNat 2) 4
      (h.later _ (Nat.lt_succ_self w)))
  have hclaimable : (exampleTask n σ.clock).claimable (σ.clock + 30000000) = true := by
    simp [Task.claimable, exampleTask, hn]
  have hclaim : (exampleTask n σ.clock).claimExecution (Uuid.ofNat 3) (Uuid.ofNat 4) 30
      (σ.clock + 30000000) =
      some (exampleTask (n + 1) (σ.clock + 30000000)) := by
    rw [Task.claimExecution, if_pos hclaimable]
    rfl
  have h₃ := h₂.step (.claim (w := w + 1) (Uuid.ofNat 3) (Uuid.ofNat 4) 30
    (show _ = some (Worker.delivered (Uuid.ofNat 1) (Uuid.ofNat 2) 4) from Function.update_self ..)
      h.task (by decide) hclaim)
  refine ⟨_, h₃, ⟨?_, ?_, fun v hv => ?_, h.letters, ?_, h.runs⟩, fun v hv => ?_⟩
  · rw [System.move_tasks, System.record_tasks, System.setTask_tasks, if_pos rfl]
    rfl
  · rw [System.move_workers, if_pos rfl]
    exact if_pos ⟨rfl, rfl⟩
  · have hne : v ≠ w + 1 := by omega
    rw [System.move_workers, if_neg hne]
    exact (Function.update_of_ne hne ..).trans (h.later v (by omega))
  · show σ.history ++ [_] = _
    rw [h.history, List.range_succ, List.map_append]
    rfl
  · have hne : v ≠ w + 1 := by omega
    rw [System.move_workers, if_neg hne]
    exact Function.update_of_ne hne ..

end TrackFlow.TaskQueue
