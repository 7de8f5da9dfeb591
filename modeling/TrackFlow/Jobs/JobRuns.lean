import TrackFlow.Python.Uuid
import TrackFlow.Python.Collections

/-!
# The runs of background jobs

The table `job_runs` with its checks and its two partial unique indexes (`Clash`), and the
statements of the job runner on it. Two rows of which one was processing clash no more when it ends
(`Clash.of_ended`).
-/

namespace TrackFlow.Jobs

open TrackFlow.Python

/-! ## Rows -/

/-- `JOB_RUN_STATUSES`. -/
inductive JobStatus
  | pending
  | processing
  | completed
  | failed
  deriving DecidableEq

/-- `TERMINAL_STATUSES`. -/
def JobStatus.terminal (s : JobStatus) : Bool := s = .completed || s = .failed

/-- A row of `job_runs`. -/
structure JobRun where
  id : Uuid
  jobName : String
  targetDate : Int
  status : JobStatus
  startedAt : Option Int := none
  finishedAt : Option Int := none
  errorMessage : Option String := none
  createdAt : Int
  deriving DecidableEq

/-- `JobRunValidationError` and `JobRunPersistenceError`. -/
inductive JobRunError
  | validation (message : String)
  | persistence (message : String)

/-- `_job_name`. -/
def jobName (value : String) : Except JobRunError String :=
  if strip value ≠ value ∨ value = "" then .error (.validation "job_name must be non-empty and trimmed")
  else if 100 < value.length then .error (.validation "job_name is too long")
  else .ok value

/-- `_record`: the row of a result, whose name is checked again. -/
def record (row : JobRun) : Except JobRunError JobRun := do
  let _ ← jobName row.jobName
  return row

theorem record_ok {row : JobRun} (h : jobName row.jobName = .ok row.jobName) : record row = .ok row := by
  unfold record
  rw [h]
  rfl

theorem record_eq {row row' : JobRun} (h : record row = .ok row') : row' = row := by
  unfold record at h
  cases hn : jobName row.jobName with
  | error e =>
    rw [hn] at h
    cases h
  | ok name =>
    rw [hn] at h
    exact (Except.ok.inj h).symm

namespace JobRun

/-- `job_runs_state_shape_valid`. -/
def shaped (r : JobRun) : Bool :=
  match r.status with
  | .pending => r.startedAt.isNone && r.finishedAt.isNone && r.errorMessage.isNone
  | .processing => r.startedAt.isSome && r.finishedAt.isNone && r.errorMessage.isNone
  | .completed => r.startedAt.isSome && r.finishedAt.isSome && r.errorMessage.isNone
  | .failed => r.startedAt.isSome && r.finishedAt.isSome && r.errorMessage.isSome

/-- The `CHECK` constraints. -/
def checked (r : JobRun) : Bool :=
  1 ≤ r.jobName.length && r.jobName.length ≤ 100 && r.jobName.toList.head? != some ' ' &&
    r.jobName.toList.getLast? != some ' ' && r.shaped &&
    r.finishedAt.all (fun f => r.startedAt.all (· ≤ f)) && r.startedAt.all (r.createdAt ≤ ·)

/-- `_INSERT_PENDING`. -/
def pendingRun (id : Uuid) (name : String) (target createdAt : Int) : JobRun where
  id := id
  jobName := name
  targetDate := target
  status := .pending
  createdAt := createdAt

/-- What `_START_PROCESSING` sets. -/
def start (r : JobRun) (startedAt : Int) : JobRun :=
  { r with status := .processing, startedAt := some startedAt }

/-- `GREATEST(:finished_at, started_at)`. -/
def finishTime (r : JobRun) (finishedAt : Int) : Int := max finishedAt (r.startedAt.getD finishedAt)

/-- What `_COMPLETE_RUN` sets. -/
def complete (r : JobRun) (finishedAt : Int) : JobRun :=
  { r with status := .completed, finishedAt := some (r.finishTime finishedAt), errorMessage := none }

/-- What `_FAIL_RUN` sets. -/
def fail (r : JobRun) (finishedAt : Int) (message : String) : JobRun :=
  { r with status := .failed, finishedAt := some (r.finishTime finishedAt), errorMessage := some message }

/-- Whether a row is in the index `job_runs_target_claim_idx`. -/
def claims (r : JobRun) : Bool := r.status = .processing || r.status = .completed

end JobRun

/-! ## Unique indexes -/

/-- Two rows of which one of the partial unique indexes admits only one. -/
structure Clash (a b : JobRun) : Prop where
  job : a.jobName = b.jobName
  index : (a.status = .processing ∧ b.status = .processing) ∨
    (a.claims = true ∧ b.claims = true ∧ a.targetDate = b.targetDate)

instance (a b : JobRun) : Decidable (Clash a b) :=
  decidable_of_iff (a.jobName = b.jobName ∧ ((a.status = .processing ∧ b.status = .processing) ∨
    (a.claims = true ∧ b.claims = true ∧ a.targetDate = b.targetDate))) ⟨fun h => ⟨h.1, h.2⟩,
      fun h => ⟨h.job, h.index⟩⟩

theorem Clash.symm {a b : JobRun} (h : Clash a b) : Clash b a :=
  ⟨h.job.symm, h.index.imp And.symm fun ⟨ha, hb, ht⟩ => ⟨hb, ha, ht.symm⟩⟩

/-- A run has ended: a processing row has become a terminal one of the same job and date. -/
structure Ended (old new : JobRun) : Prop where
  id : new.id = old.id
  job : new.jobName = old.jobName
  target : new.targetDate = old.targetDate
  was : old.status = .processing
  terminal : new.status.terminal = true

/-- A run that has ended clashes with nothing that it did not clash with before. -/
theorem Clash.of_ended {old new r : JobRun} (he : Ended old new) (h : Clash r new) : Clash r old := by
  have hnot : new.status ≠ .processing := by
    intro hs
    have hterminal := he.terminal
    rw [hs] at hterminal
    cases hterminal
  refine ⟨h.job.trans he.job, ?_⟩
  rcases h.index with ⟨-, hs⟩ | ⟨hr, -, ht⟩
  · exact absurd hs hnot
  · exact Or.inr ⟨hr, by rw [JobRun.claims, he.was]; rfl, ht.trans he.target⟩

theorem ended_complete {r : JobRun} (h : r.status = .processing) (finishedAt : Int) :
    Ended r (r.complete finishedAt) :=
  ⟨rfl, rfl, rfl, h, rfl⟩

theorem ended_fail {r : JobRun} (h : r.status = .processing) (finishedAt : Int) (message : String) :
    Ended r (r.fail finishedAt message) :=
  ⟨rfl, rfl, rfl, h, rfl⟩

/-! ## Queries -/

/-- `ORDER BY created_at DESC, id DESC`. -/
def newestFirst (a b : JobRun) : Bool :=
  pairLe (fun x y : Int => y ≤ x) (fun x y => textLe y x) (a.createdAt, a.id.str) (b.createdAt, b.id.str)

/-- `ORDER BY created_at, id`. -/
def oldestFirst (a b : JobRun) : Bool := newestFirst b a

/-- `_SELECT_BY_ID`. -/
def selectById (rows : List JobRun) (id : Uuid) : Option JobRun := rows.find? fun r => r.id = id

/-- `_SELECT_COMPLETED_BY_KEY`. -/
def selectCompletedByKey (rows : List JobRun) (name : String) (target : Int) : Option JobRun :=
  (sortedBy newestFirst
    (rows.filter fun r => r.jobName = name ∧ r.targetDate = target ∧ r.status = .completed)).head?

/-- `_SELECT_PROCESSING_BY_JOB`. -/
def selectProcessingByJob (rows : List JobRun) (name : String) : Option JobRun :=
  (sortedBy oldestFirst (rows.filter fun r => r.jobName = name ∧ r.status = .processing)).head?

/-- `_SELECT_LATEST_BY_KEY`. -/
def selectLatestByKey (rows : List JobRun) (name : String) (target : Int) : Option JobRun :=
  (sortedBy newestFirst (rows.filter fun r => r.jobName = name ∧ r.targetDate = target)).head?

/-- The table with one row replaced. -/
def replaceRow (rows : List JobRun) (row : JobRun) : List JobRun :=
  rows.map fun r => if r.id = row.id then row else r

theorem mem_replaceRow {rows : List JobRun} {row r : JobRun} (h : r ∈ replaceRow rows row) :
    r = row ∨ (r ∈ rows ∧ r.id ≠ row.id) := by
  obtain ⟨old, hold, rfl⟩ := List.mem_map.1 h
  split
  · exact Or.inl rfl
  · exact Or.inr ⟨hold, by assumption⟩

/-- Rows with another id stay. -/
theorem mem_replaceRow_of_ne {rows : List JobRun} {row r : JobRun} (h : r ∈ rows) (hne : r.id ≠ row.id) :
    r ∈ replaceRow rows row :=
  List.mem_map.2 ⟨r, h, if_neg hne⟩

theorem replaceRow_ids (rows : List JobRun) (row : JobRun) :
    (replaceRow rows row).map JobRun.id = rows.map JobRun.id := by
  unfold replaceRow
  rw [List.map_map]
  refine List.map_congr_left fun r hr => ?_
  simp only [Function.comp_apply]
  split
  · rename_i h
    exact h.symm
  · rfl

theorem selectById_some {rows : List JobRun} {id : Uuid} {row : JobRun}
    (h : selectById rows id = some row) : row ∈ rows ∧ row.id = id :=
  ⟨List.mem_of_find?_eq_some h, by simpa using List.find?_some h⟩

end TrackFlow.Jobs
