import TrackFlow.Jobs.JobRuns

/-!
# One run at a time

Any number of schedulers call `acquire_job_run`, `complete_job_run` and `fail_job_run`. Each
statement is a step of its own; a statement waits while an open transaction has written the row that
it changes or a row of its job that the unique indexes may compare with (`FreeId`, `FreeJob`), and a
lost race is told by the name of an index, after which the call rolls back and reads, on another
connection, what the winner has left.

- `Inv` is the invariant, kept by every step (`Inv.step`);
- `job_exclusivity`: the rows stay exclusive, terminal rows stay as they are, and a call changes the
  table exactly when it says so.
-/

namespace TrackFlow.Jobs

open TrackFlow.Python

/-! ## Calls -/

/-- A call, with the identifier that `acquire_job_run` draws and the message that `fail_job_run` has
sanitized. -/
inductive Call
  | acquire (name : String) (target now : Int) (id : Uuid)
  | complete (id : Uuid) (now : Int)
  | fail (id : Uuid) (now : Int) (message : String)

/-- What a call returns. -/
inductive Report
  | acquired (row : JobRun)
  | skippedCompleted (row : JobRun)
  | skippedProcessing (row : JobRun)
  | skippedConflict (row : JobRun)
  | changed (row : JobRun)
  | unchanged (row : JobRun)

/-- How far a call is. -/
inductive Phase
  | called
  | inserting (name : String) (target now : Int) (id : Uuid)
  | inserted (row : JobRun)
  | started (row : JobRun)
  | confirmed (row : JobRun)
  | readCompleted (name : String) (target : Int)
  | readProcessing (name : String) (target : Int)
  | readLatest (name : String) (target : Int)
  | finishing (id : Uuid) (now : Int) (message : Option String)
  | closing (row : JobRun)
  | looking (id : Uuid)
  | kept (row : JobRun)
  | ended (result : Except JobRunError Report)

namespace Phase

/-- The row that an open transaction has written. -/
def own : Phase → Option JobRun
  | inserted row => some row
  | started row => some row
  | closing row => some row
  | _ => none

/-- What a call raises when the database fails it, which rolls back. -/
def lost : Phase → Option JobRunError
  | inserting _ _ _ _ => some (.persistence "job-run acquisition failed")
  | inserted _ => some (.persistence "job-run acquisition failed")
  | started _ => some (.persistence "job-run acquisition failed")
  | readCompleted _ _ => some (.persistence "job-run conflict occurred but the winning state could not be read")
  | readProcessing _ _ => some (.persistence "job-run conflict occurred but the winning state could not be read")
  | readLatest _ _ => some (.persistence "job-run conflict occurred but the winning state could not be read")
  | finishing _ _ _ => some (.persistence "terminal transition failed")
  | closing _ => some (.persistence "terminal transition failed")
  | looking _ => some (.persistence "terminal transition failed")
  | kept _ => some (.persistence "terminal transition failed")
  | _ => none

/-- A phase, or the end with an exception. -/
def ofExcept : Except JobRunError Phase → Phase
  | .ok phase => phase
  | .error e => ended (.error e)

end Phase

/-- A constraint that no acquisition expects. -/
def unexpected : Phase :=
  .ended (.error (.persistence "job-run acquisition violated an unexpected constraint"))

/-- The checks of the arguments. -/
def Call.check : Call → Except JobRunError Phase
  | .acquire name target now id => do
    let name ← jobName name
    return .inserting name target now id
  | .complete id now => .ok (.finishing id now none)
  | .fail id now message => .ok (.finishing id now (some message))

variable (rows : List JobRun)

/-- `_INSERT_PENDING`. -/
def insertPending (name : String) (target now : Int) (id : Uuid) : Phase :=
  let row := JobRun.pendingRun id name target now
  if (selectById rows id).isSome ∨ row.checked = false then unexpected else .inserted row

/-- `_START_PROCESSING`. -/
def startProcessing (row : JobRun) : Phase :=
  let started := row.start row.createdAt
  if started.checked = false then unexpected
  else if ∃ r ∈ rows, Clash r started then .readCompleted row.jobName row.targetDate
  else .started started

/-- The three queries of `_read_conflict`. -/
def readConflict : Phase → Phase
  | .readCompleted name target =>
    match selectCompletedByKey rows name target with
    | some row => .ended (Report.skippedCompleted <$> record row)
    | none => .readProcessing name target
  | .readProcessing name target =>
    match selectProcessingByJob rows name with
    | some row => .ended (Report.skippedProcessing <$> record row)
    | none => .readLatest name target
  | .readLatest name target =>
    match selectLatestByKey rows name target with
    | some row => .ended (Report.skippedConflict <$> record row)
    | none => .ended (.error (.persistence
        "job-run conflict cleared before its owner could be identified; retry acquisition"))
  | phase => phase

/-- `_COMPLETE_RUN` and `_FAIL_RUN`. -/
def finishRun (id : Uuid) (now : Int) (message : Option String) : Phase :=
  match selectById rows id with
  | some row =>
    if row.status = .processing then
      let ended := match message with
        | none => row.complete now
        | some message => row.fail now message
      if ended.checked = false ∨ ∃ r ∈ rows, r.id ≠ id ∧ Clash r ended then
        .ended (.error (.persistence "terminal transition violated job-run integrity"))
      else .closing ended
    else .looking id
  | none => .looking id

/-- `_SELECT_BY_ID` after a terminal update that matched nothing. -/
def lookAgain (id : Uuid) : Phase :=
  match selectById rows id with
  | some row => Phase.ofExcept (Phase.kept <$> record row)
  | none => .ended (.error (.validation "job run was not found"))

/-! ## Interleavings -/

variable {Cl : Type}

/-- A scheduler: its call, and the row that the call has committed. -/
structure Client where
  call : Call
  phase : Phase
  wrote : Option JobRun := none

/-- The committed rows and the calls that are being made. -/
structure System (Cl : Type) where
  rows : List JobRun := []
  open_ : Cl → Option Client := fun _ => none

/-- Nobody else has written a row with this identifier. -/
def System.FreeId (σ : System Cl) (i : Cl) (id : Uuid) : Prop :=
  ∀ j c r, j ≠ i → σ.open_ j = some c → c.phase.own = some r → r.id ≠ id

/-- Nobody else has written a row of this job that a unique index compares. -/
def System.FreeJob (σ : System Cl) (i : Cl) (name : String) : Prop :=
  ∀ j c r, j ≠ i → σ.open_ j = some c → c.phase.own = some r → r.status ≠ .pending → r.jobName ≠ name

/-- What a step was. -/
inductive Label (Cl : Type)
  | quiet (i : Cl)
  | acquire (i : Cl) (row : JobRun)
  | finish (i : Cl) (row : JobRun)

section Steps

variable [DecidableEq Cl]

/-- The system with another state of a scheduler. -/
def System.set (σ : System Cl) (i : Cl) (c : Option Client) : System Cl :=
  { σ with open_ := Function.update σ.open_ i c }

/-- A step of a scheduler. The database may fail any statement and any commit, which rolls back. -/
inductive Step : System Cl → Label Cl → System Cl → Prop
  | begin {σ : System Cl} {i : Cl} {call : Call} : σ.open_ i = none →
      Step σ (.quiet i) (σ.set i (some ⟨call, .called, none⟩))
  | check {σ : System Cl} {i : Cl} {call : Call} {w : Option JobRun} : σ.open_ i = some ⟨call, .called, w⟩ →
      Step σ (.quiet i) (σ.set i (some ⟨call, .ofExcept call.check, w⟩))
  | insert {σ : System Cl} {i : Cl} {call : Call} {name : String} {target now : Int} {id : Uuid}
      {w : Option JobRun} :
      σ.open_ i = some ⟨call, .inserting name target now id, w⟩ → σ.FreeId i id →
      Step σ (.quiet i) (σ.set i (some ⟨call, insertPending σ.rows name target now id, w⟩))
  | start {σ : System Cl} {i : Cl} {call : Call} {row : JobRun} {w : Option JobRun} :
      σ.open_ i = some ⟨call, .inserted row, w⟩ → σ.FreeJob i row.jobName →
      Step σ (.quiet i) (σ.set i (some ⟨call, startProcessing σ.rows row, w⟩))
  | commit {σ : System Cl} {i : Cl} {call : Call} {row : JobRun} {w : Option JobRun} :
      σ.open_ i = some ⟨call, .started row, w⟩ →
      Step σ (.acquire i row) { σ.set i (some ⟨call, .confirmed row, some row⟩) with rows := σ.rows ++ [row] }
  | refused {σ : System Cl} {i : Cl} {call : Call} {row : JobRun} {w : Option JobRun} :
      σ.open_ i = some ⟨call, .started row, w⟩ →
      Step σ (.quiet i) (σ.set i (some ⟨call, .readCompleted row.jobName row.targetDate, w⟩))
  | report {σ : System Cl} {i : Cl} {call : Call} {row : JobRun} {w : Option JobRun} :
      σ.open_ i = some ⟨call, .confirmed row, w⟩ →
      Step σ (.quiet i) (σ.set i (some ⟨call, .ended (Report.acquired <$> record row), w⟩))
  | readConflict {σ : System Cl} {i : Cl} {call : Call} {phase : Phase} {w : Option JobRun} :
      σ.open_ i = some ⟨call, phase, w⟩ →
        Step σ (.quiet i) (σ.set i (some ⟨call, readConflict σ.rows phase, w⟩))
  | finishRun {σ : System Cl} {i : Cl} {call : Call} {id : Uuid} {now : Int}
      {message : Option String} {w : Option JobRun} :
      σ.open_ i = some ⟨call, .finishing id now message, w⟩ → σ.FreeId i id →
      Step σ (.quiet i) (σ.set i (some ⟨call, finishRun σ.rows id now message, w⟩))
  | close {σ : System Cl} {i : Cl} {call : Call} {row row' : JobRun} {w : Option JobRun} :
      σ.open_ i = some ⟨call, .closing row, w⟩ → record row = .ok row' →
      Step σ (.finish i row)
        { σ.set i (some ⟨call, .ended (.ok (.changed row')), some row⟩) with rows := replaceRow σ.rows row }
  | reject {σ : System Cl} {i : Cl} {call : Call} {row : JobRun} {e : JobRunError} {w : Option JobRun} :
      σ.open_ i = some ⟨call, .closing row, w⟩ → record row = .error e →
      Step σ (.quiet i) (σ.set i (some ⟨call, .ended (.error e), w⟩))
  | look {σ : System Cl} {i : Cl} {call : Call} {id : Uuid} {w : Option JobRun} :
      σ.open_ i = some ⟨call, .looking id, w⟩ →
        Step σ (.quiet i) (σ.set i (some ⟨call, lookAgain σ.rows id, w⟩))
  | keep {σ : System Cl} {i : Cl} {call : Call} {row : JobRun} {w : Option JobRun} :
      σ.open_ i = some ⟨call, .kept row, w⟩ →
      Step σ (.quiet i) (σ.set i (some ⟨call, .ended (.ok (.unchanged row)), w⟩))
  | lost {σ : System Cl} {i : Cl} {call : Call} {phase : Phase} {e : JobRunError} {w : Option JobRun} :
      σ.open_ i = some ⟨call, phase, w⟩ → phase.lost = some e →
      Step σ (.quiet i) (σ.set i (some ⟨call, .ended (.error e), w⟩))
  | leave {σ : System Cl} {i : Cl} {call : Call} {result : Except JobRunError Report} {w : Option JobRun} :
      σ.open_ i = some ⟨call, .ended result, w⟩ → Step σ (.quiet i) (σ.set i none)

/-- The states that interleavings reach from an empty table. -/
inductive Reachable : System Cl → Prop
  | empty : Reachable {}
  | step {σ σ' : System Cl} {l : Label Cl} : Reachable σ → Step σ l σ' → Reachable σ'

end Steps

/-! ## The invariant -/

/-- The row that a call may commit. -/
def Call.makes : Call → JobRun → Prop
  | .acquire name target _ id, row =>
    row.id = id ∧ row.jobName = name ∧ row.targetDate = target ∧ row.status = .processing
  | .complete id _, row => row.id = id ∧ row.status = .completed
  | .fail id _ _, row => row.id = id ∧ row.status = .failed

/-- The row that a result says the call has acquired, completed or failed. -/
def Report.committed : Except JobRunError Report → Option JobRun
  | .ok (.acquired row) => some row
  | .ok (.changed row) => some row
  | _ => none

/-- What holds of a call in each phase. -/
def PhaseOk (rows : List JobRun) (call : Call) : Phase → Option JobRun → Prop
  | .inserting name target now id, w =>
      w = none ∧ call = .acquire name target now id ∧ jobName name = .ok name
  | .inserted row, w => w = none ∧ call.makes (row.start row.createdAt) ∧ jobName row.jobName = .ok row.jobName ∧
      row.status = .pending ∧ row.id ∉ rows.map JobRun.id
  | .started row, w => w = none ∧ call.makes row ∧ jobName row.jobName = .ok row.jobName ∧
      row.status = .processing ∧ row.id ∉ rows.map JobRun.id ∧ ∀ r ∈ rows, ¬ Clash r row
  | .confirmed row, w => w = some row ∧ call.makes row ∧ jobName row.jobName = .ok row.jobName ∧
      row.status = .processing
  | .finishing id now message, w => w = none ∧
      ((message = none ∧ call = .complete id now) ∨ ∃ m, message = some m ∧ call = .fail id now m)
  | .closing row, w => w = none ∧ call.makes row ∧ ∃ old ∈ rows, Ended old row
  | .ended result, w => w = Report.committed result ∧ ∀ row, w = some row → call.makes row
  | _, w => w = none

/-- The unique indexes admit both of two rows that are not committed. -/
structure Apart (a b : JobRun) : Prop where
  id : a.id ≠ b.id
  job : a.status ≠ .pending → b.status ≠ .pending → a.jobName ≠ b.jobName

theorem Apart.symm {a b : JobRun} (h : Apart a b) : Apart b a :=
  ⟨h.id.symm, fun hb ha => (h.job ha hb).symm⟩

/-- The invariant. -/
structure Inv (σ : System Cl) : Prop where
  ids : (σ.rows.map JobRun.id).Nodup
  unique : ∀ a ∈ σ.rows, ∀ b ∈ σ.rows, Clash a b → a.id = b.id
  client : ∀ i c, σ.open_ i = some c → PhaseOk σ.rows c.call c.phase c.wrote
  apart : ∀ i j c d a b, i ≠ j → σ.open_ i = some c → σ.open_ j = some d → c.phase.own = some a →
    d.phase.own = some b → Apart a b

/-- Rows with one identifier are one row. -/
theorem eq_of_id {rows : List JobRun} (h : (rows.map JobRun.id).Nodup) {a b : JobRun} (ha : a ∈ rows)
    (hb : b ∈ rows) (hid : a.id = b.id) : a = b :=
  List.inj_on_of_nodup_map h ha hb hid

theorem Inv.init : Inv ({} : System Cl) where
  ids := List.nodup_nil
  unique a ha := absurd ha List.not_mem_nil
  client i c h := by cases h
  apart i j c d a b _ h := by cases h

/-! ## Checks -/

theorem jobName_ok {value name : String} (h : jobName value = .ok name) : name = value := by
  unfold jobName at h
  split at h
  · cases h
  · split at h
    · cases h
    · exact (Except.ok.inj h).symm

/-- A result that no row is written for. -/
theorem committed_record {f : JobRun → Report} (hf : ∀ row, Report.committed (.ok (f row)) = none)
    (row : JobRun) : Report.committed (f <$> record row) = none := by
  cases record row with
  | error e => rfl
  | ok row' => exact hf row'

section Spec

variable {rows : List JobRun} {call : Call} {w : Option JobRun}

/-- A call that has written nothing may end with nothing said. -/
theorem phaseOk_quiet {result : Except JobRunError Report} (h : Report.committed result = none) :
    PhaseOk rows call (.ended result) none :=
  ⟨h.symm, fun _ h => by cases h⟩

theorem phaseOk_error (e : JobRunError) : PhaseOk rows call (.ended (.error e)) none := phaseOk_quiet rfl

theorem check_spec (call : Call) :
    PhaseOk rows call (.ofExcept call.check) none ∧ (Phase.ofExcept call.check).own = none := by
  cases call with
  | acquire name target now id =>
    cases hn : jobName name with
    | error e =>
      have hcheck : (Call.acquire name target now id).check = .error e := by rw [Call.check, hn]; rfl
      rw [hcheck]
      exact ⟨phaseOk_error e, rfl⟩
    | ok name' =>
      obtain rfl := jobName_ok hn
      have hcheck : (Call.acquire name' target now id).check = .ok (.inserting name' target now id) := by
        rw [Call.check, hn]
        rfl
      rw [hcheck]
      exact ⟨⟨rfl, rfl, hn⟩, rfl⟩
  | complete id now => exact ⟨⟨rfl, Or.inl ⟨rfl, rfl⟩⟩, rfl⟩
  | fail id now message => exact ⟨⟨rfl, Or.inr ⟨message, rfl, rfl⟩⟩, rfl⟩

/-- The insertion fails, or writes a pending row with a fresh identifier. -/
theorem insertPending_spec {name : String} {target now : Int} {id : Uuid}
    (h : PhaseOk rows call (.inserting name target now id) w) :
    PhaseOk rows call (insertPending rows name target now id) w ∧
      ∀ r, (insertPending rows name target now id).own = some r → r.id = id ∧ r.status = .pending := by
  obtain ⟨rfl, rfl, hn⟩ := h
  unfold insertPending
  dsimp only
  split
  · exact ⟨phaseOk_error _, fun _ hr => by cases hr⟩
  · rename_i hfree
    rw [not_or] at hfree
    refine ⟨⟨rfl, ⟨rfl, rfl, rfl, rfl⟩, hn, rfl, fun hmem => ?_⟩, fun r hr => ?_⟩
    · obtain ⟨r, hr, hid⟩ := List.mem_map.1 hmem
      refine hfree.1 ?_
      rw [selectById, List.find?_isSome]
      exact ⟨r, hr, decide_eq_true hid⟩
    · obtain rfl := Option.some.inj hr
      exact ⟨rfl, rfl⟩

/-- The start fails, finds the index taken, or writes the same row as processing. -/
theorem startProcessing_spec {row : JobRun} (h : PhaseOk rows call (.inserted row) w) :
    PhaseOk rows call (startProcessing rows row) w ∧
      ∀ r, (startProcessing rows row).own = some r → r.id = row.id ∧ r.jobName = row.jobName := by
  obtain ⟨rfl, hmakes, hn, -, hid⟩ := h
  unfold startProcessing
  dsimp only
  split
  · exact ⟨phaseOk_error _, fun _ hr => by cases hr⟩
  · split
    · exact ⟨rfl, fun _ hr => by cases hr⟩
    · rename_i hfree
      refine ⟨⟨rfl, hmakes, hn, rfl, hid, fun r hr hclash => hfree ⟨r, hr, hclash⟩⟩, fun r hr => ?_⟩
      obtain rfl := Option.some.inj hr
      exact ⟨rfl, rfl⟩

theorem readConflict_spec {phase : Phase} (h : PhaseOk rows call phase w) :
    PhaseOk rows call (readConflict rows phase) w ∧
      ∀ r, (readConflict rows phase).own = some r → phase.own = some r := by
  cases phase with
  | readCompleted name target =>
    obtain rfl := h
    unfold readConflict
    dsimp only
    split
    · exact ⟨phaseOk_quiet (committed_record (fun _ => rfl) _), fun _ hr => by cases hr⟩
    · exact ⟨rfl, fun _ hr => by cases hr⟩
  | readProcessing name target =>
    obtain rfl := h
    unfold readConflict
    dsimp only
    split
    · exact ⟨phaseOk_quiet (committed_record (fun _ => rfl) _), fun _ hr => by cases hr⟩
    · exact ⟨rfl, fun _ hr => by cases hr⟩
  | readLatest name target =>
    obtain rfl := h
    unfold readConflict
    dsimp only
    split
    · exact ⟨phaseOk_quiet (committed_record (fun _ => rfl) _), fun _ hr => by cases hr⟩
    · exact ⟨phaseOk_error _, fun _ hr => by cases hr⟩
  | _ => exact ⟨h, fun _ hr => hr⟩

/-- A terminal update writes the end of a processing row, or nothing. -/
theorem finishRun_spec {id : Uuid} {now : Int} {message : Option String}
    (h : PhaseOk rows call (.finishing id now message) w) :
    PhaseOk rows call (finishRun rows id now message) w ∧
      ∀ r, (finishRun rows id now message).own = some r → r.id = id ∧ ∃ old ∈ rows, Ended old r := by
  obtain ⟨rfl, hcall⟩ := h
  unfold finishRun
  cases hrow : selectById rows id with
  | none => exact ⟨rfl, fun _ hr => by cases hr⟩
  | some row =>
    obtain ⟨hmem, rfl⟩ := selectById_some hrow
    dsimp only
    split
    · rename_i hs
      have hspec : ∀ new : JobRun, Ended row new → call.makes new →
          PhaseOk rows call (if new.checked = false ∨ ∃ r ∈ rows, r.id ≠ row.id ∧ Clash r new then
            .ended (.error (.persistence "terminal transition violated job-run integrity")) else
                .closing new) none ∧
          ∀ r, (if new.checked = false ∨ ∃ r ∈ rows, r.id ≠ row.id ∧ Clash r new then
            .ended (.error (.persistence "terminal transition violated job-run integrity"))
            else Phase.closing new).own = some r → r.id = row.id ∧ ∃ old ∈ rows, Ended old r := by
        intro new hended hmakes
        split
        · exact ⟨phaseOk_error _, fun _ hr => by cases hr⟩
        · refine ⟨⟨rfl, hmakes, row, hmem, hended⟩, fun r hr => ?_⟩
          obtain rfl := Option.some.inj hr
          exact ⟨hended.id, row, hmem, hended⟩
      rcases hcall with ⟨rfl, rfl⟩ | ⟨m, rfl, rfl⟩
      · exact hspec _ (ended_complete hs now) ⟨rfl, rfl⟩
      · exact hspec _ (ended_fail hs now m) ⟨rfl, rfl⟩
    · exact ⟨rfl, fun _ hr => by cases hr⟩

theorem lookAgain_spec (id : Uuid) :
    PhaseOk rows call (lookAgain rows id) none ∧ (lookAgain rows id).own = none := by
  unfold lookAgain
  split
  · rename_i row _
    cases record row with
    | error e => exact ⟨phaseOk_error e, rfl⟩
    | ok row' => exact ⟨rfl, rfl⟩
  · exact ⟨phaseOk_error _, rfl⟩

/-- A call that the database may fail has written nothing. -/
theorem wrote_of_lost {phase : Phase} {e : JobRunError} (h : PhaseOk rows call phase w)
    (hl : phase.lost = some e) : w = none := by
  cases phase with
  | inserting name target now id => exact h.1
  | inserted row => exact h.1
  | started row => exact h.1
  | readCompleted name target => exact h
  | readProcessing name target => exact h
  | readLatest name target => exact h
  | finishing id now message => exact h.1
  | closing row => exact h.1
  | looking id => exact h
  | kept row => exact h
  | _ => cases hl

end Spec

/-! ## Commits -/

section Commits

variable {σ : System Cl}

/-- A row that an open transaction has written and that is not pending. -/
theorem own_cases {rows : List JobRun} {call : Call} {phase : Phase} {w : Option JobRun} {r : JobRun}
    (h : PhaseOk rows call phase w) (hown : phase.own = some r) :
    (phase = .inserted r ∧ r.status = .pending) ∨ phase = .started r ∨ phase = .closing r := by
  cases phase with
  | inserted row =>
    obtain rfl := Option.some.inj hown
    exact Or.inl ⟨rfl, h.2.2.2.1⟩
  | started row =>
    obtain rfl := Option.some.inj hown
    exact Or.inr (Or.inl rfl)
  | closing row =>
    obtain rfl := Option.some.inj hown
    exact Or.inr (Or.inr rfl)
  | _ => cases hown

/-- An acquisition commits its row. -/
theorem Inv.commit (h : Inv σ) {row : JobRun} (hid : row.id ∉ σ.rows.map JobRun.id)
    (hfree : ∀ r ∈ σ.rows, ¬ Clash r row) (hs : row.status = .processing)
    (hothers : ∀ j d b, σ.open_ j = some d → d.phase.own = some b → Apart row b) :
    Inv { σ with rows := σ.rows ++ [row] } where
  ids := by
    rw [List.map_append]
    exact List.nodup_append.2 ⟨h.ids, List.nodup_singleton _, fun a ha b hb hab => by
      rw [List.map_singleton, List.mem_singleton] at hb
      exact hid (by rw [← hb, ← hab]; exact ha)⟩
  unique a ha b hb hclash := by
    rcases List.mem_append.1 ha with hx | hx <;> rcases List.mem_append.1 hb with hy | hy
    · exact h.unique a hx b hy hclash
    · obtain rfl := List.mem_singleton.1 hy
      exact absurd hclash (hfree a hx)
    · obtain rfl := List.mem_singleton.1 hx
      exact absurd hclash.symm (hfree b hy)
    · obtain rfl := List.mem_singleton.1 hx
      obtain rfl := List.mem_singleton.1 hy
      rfl
  client j d hd := by
    have hok := h.client j d hd
    obtain ⟨call, phase, w⟩ := d
    have hnew : ∀ r : JobRun, phase.own = some r → r.id ∉ σ.rows.map JobRun.id →
        r.id ∉ (σ.rows ++ [row]).map JobRun.id := by
      intro r hr hnot hmem
      rw [List.map_append, List.mem_append, List.map_singleton, List.mem_singleton] at hmem
      rcases hmem with hmem | hmem
      · exact hnot hmem
      · exact (hothers j _ r hd hr).id hmem.symm
    cases phase with
    | inserted r =>
      obtain ⟨hw, hm, hn, hp, hi⟩ := hok
      exact ⟨hw, hm, hn, hp, hnew r rfl hi⟩
    | started r =>
      obtain ⟨hw, hm, hn, hp, hi, hno⟩ := hok
      refine ⟨hw, hm, hn, hp, hnew r rfl hi, fun a ha hclash => ?_⟩
      rcases List.mem_append.1 ha with ha | ha
      · exact hno a ha hclash
      · obtain rfl := List.mem_singleton.1 ha
        exact (hothers j _ r hd rfl).job (by rw [hs]; nofun) (by rw [hp]; nofun) hclash.job
    | closing r =>
      obtain ⟨hw, hm, old, hold, he⟩ := hok
      exact ⟨hw, hm, old, List.mem_append_left _ hold, he⟩
    | _ => exact hok
  apart := h.apart

/-- A terminal transition commits its row. -/
theorem Inv.close (h : Inv σ) {row old : JobRun} (hold : old ∈ σ.rows) (he : Ended old row)
    (hothers : ∀ j d b, σ.open_ j = some d → d.phase.own = some b → Apart row b) :
    Inv { σ with rows := replaceRow σ.rows row } where
  ids := by rw [replaceRow_ids]; exact h.ids
  unique a ha b hb hclash := by
    rcases mem_replaceRow ha with rfl | ⟨hx, -⟩ <;> rcases mem_replaceRow hb with rfl | ⟨hy, -⟩
    · rfl
    · exact he.id.trans (h.unique b hy old hold (hclash.symm.of_ended he)).symm
    · exact (h.unique a hx old hold (hclash.of_ended he)).trans he.id.symm
    · exact h.unique a hx b hy hclash
  client j d hd := by
    have hok := h.client j d hd
    obtain ⟨call, phase, w⟩ := d
    cases phase with
    | inserted r =>
      obtain ⟨hw, hm, hn, hp, hi⟩ := hok
      exact ⟨hw, hm, hn, hp, by rw [replaceRow_ids]; exact hi⟩
    | started r =>
      obtain ⟨hw, hm, hn, hp, hi, hno⟩ := hok
      refine ⟨hw, hm, hn, hp, by rw [replaceRow_ids]; exact hi, fun a ha hclash => ?_⟩
      rcases mem_replaceRow ha with rfl | ⟨ha, -⟩
      · exact hno old hold (hclash.symm.of_ended he).symm
      · exact hno a ha hclash
    | closing r =>
      obtain ⟨hw, hm, old', hold', he'⟩ := hok
      refine ⟨hw, hm, old', mem_replaceRow_of_ne hold' fun hid => ?_, he'⟩
      exact (hothers j _ r hd rfl).id (hid.symm.trans he'.id.symm)
    | _ => exact hok
  apart := h.apart

/-- A row that a terminal transition writes is apart from the rows that others have written. -/
theorem Inv.apart_ended (h : Inv σ) {i : Cl} {old row : JobRun} (hold : old ∈ σ.rows) (he : Ended old row)
    (hfree : σ.FreeId i row.id) {j : Cl} {d : Client} {b : JobRun} (hj : j ≠ i) (hd : σ.open_ j = some d)
    (hb : d.phase.own = some b) : Apart row b := by
  have hid : b.id ≠ row.id := hfree j d b hj hd hb
  refine ⟨hid.symm, fun _ hpending hname => ?_⟩
  have hok := h.client j d hd
  obtain ⟨call, phase, w⟩ := d
  rcases own_cases hok hb with ⟨-, hp⟩ | hphase | hphase
  · exact hpending hp
  · obtain rfl : phase = .started b := hphase
    obtain ⟨-, -, -, hp, -, hno⟩ := hok
    exact hno old hold ⟨he.job.symm.trans hname, Or.inl ⟨he.was, hp⟩⟩
  · obtain rfl : phase = .closing b := hphase
    obtain ⟨-, -, old', hold', he'⟩ := hok
    have hclash : Clash old old' := ⟨he.job.symm.trans (hname.trans he'.job), Or.inl ⟨he.was, he'.was⟩⟩
    exact hid (he'.id.trans ((h.unique old hold old' hold' hclash).symm.trans he.id.symm))

end Commits

/-! ## Steps -/

section Kept

variable [DecidableEq Cl] {σ : System Cl} {i : Cl}

theorem System.set_open_self (σ : System Cl) (i : Cl) (o : Option Client) : (σ.set i o).open_ i = o :=
  Function.update_self ..

theorem System.set_open_of_ne (σ : System Cl) {i j : Cl} (o : Option Client) (h : j ≠ i) :
    (σ.set i o).open_ j = σ.open_ j :=
  Function.update_of_ne h ..

/-- One scheduler goes on, and keeps what the others have written apart from what it has. -/
theorem Inv.set (h : Inv σ) {o : Option Client}
    (hok : ∀ c, o = some c → PhaseOk σ.rows c.call c.phase c.wrote)
    (hapart : ∀ c r, o = some c → c.phase.own = some r →
      ∀ j d b, j ≠ i → σ.open_ j = some d → d.phase.own = some b → Apart r b) : Inv (σ.set i o) where
  ids := h.ids
  unique := h.unique
  client j c hc := by
    by_cases hj : j = i
    · subst hj
      rw [System.set_open_self] at hc
      exact hok c hc
    · rw [System.set_open_of_ne σ o hj] at hc
      exact h.client j c hc
  apart j k c d a b hjk hc hd ha hb := by
    by_cases hj : j = i
    · subst hj
      rw [System.set_open_self] at hc
      rw [System.set_open_of_ne σ o hjk.symm] at hd
      exact hapart c a hc ha k d b hjk.symm hd hb
    · rw [System.set_open_of_ne σ o hj] at hc
      by_cases hk : k = i
      · subst hk
        rw [System.set_open_self] at hd
        exact (hapart d b hd hb j c a hj hc ha).symm
      · rw [System.set_open_of_ne σ o hk] at hd
        exact h.apart j k c d a b hjk hc hd ha hb

/-- One scheduler goes on to a phase that holds no row of its own. -/
theorem Inv.set_plain (h : Inv σ) {call : Call} {phase : Phase} {w : Option JobRun}
    (hok : PhaseOk σ.rows call phase w)
    (hown : phase.own = none) : Inv (σ.set i (some ⟨call, phase, w⟩)) := by
  refine h.set (fun c hc => ?_) (fun c r hc hr => ?_)
  · obtain rfl := Option.some.inj hc
    exact hok
  · obtain rfl := Option.some.inj hc
    rw [hown] at hr
    cases hr

end Kept

section Run

variable [DecidableEq Cl] {σ σ' : System Cl} {l : Label Cl}

/-- The others keep apart from the row that a scheduler commits. -/
theorem Inv.others (h : Inv σ) {i : Cl} {c : Client} {row : JobRun} (hc : σ.open_ i = some c)
    (hrow : c.phase.own = some row) {c' : Client} (hown : c'.phase.own = none) :
    ∀ j d b, (σ.set i (some c')).open_ j = some d → d.phase.own = some b → Apart row b := by
  intro j d b hd hb
  by_cases hj : j = i
  · subst hj
    rw [System.set_open_self] at hd
    obtain rfl := Option.some.inj hd
    rw [hown] at hb
    cases hb
  · rw [System.set_open_of_ne σ _ hj] at hd
    exact h.apart i j c d row b (Ne.symm hj) hc hd hrow hb

/-- Every step keeps the invariant. -/
theorem Inv.step (h : Inv σ) (hs : Step σ l σ') : Inv σ' := by
  cases hs with
  | begin hfree => exact h.set_plain rfl rfl
  | check hc =>
    obtain rfl := h.client _ _ hc
    obtain ⟨hok, hown⟩ := @check_spec σ.rows _
    exact h.set_plain hok hown
  | insert hc hfree =>
    obtain ⟨hok, hown⟩ := insertPending_spec (h.client _ _ hc)
    refine h.set (fun c hn => ?_) (fun c r hn hr j d b hj hd hb => ?_)
    · obtain rfl := Option.some.inj hn
      exact hok
    · obtain rfl := Option.some.inj hn
      obtain ⟨hid, hp⟩ := hown r hr
      exact ⟨by rw [hid]; exact (hfree j d b hj hd hb).symm, fun hnot => absurd hp hnot⟩
  | start hc hfree =>
    obtain ⟨hok, hown⟩ := startProcessing_spec (h.client _ _ hc)
    refine h.set (fun c hn => ?_) (fun c r hn hr j d b hj hd hb => ?_)
    · obtain rfl := Option.some.inj hn
      exact hok
    · obtain rfl := Option.some.inj hn
      obtain ⟨hid, hjob⟩ := hown r hr
      have hapart := h.apart _ j _ d _ b (Ne.symm hj) hc hd rfl hb
      exact ⟨by rw [hid]; exact hapart.id, fun _ hp => by rw [hjob]; exact (hfree j d b hj hd hb hp).symm⟩
  | @commit i call row w hc =>
    obtain ⟨-, hm, hn, hp, hid, hno⟩ := h.client _ _ hc
    have hset : Inv (σ.set i (some ⟨call, .confirmed row, some row⟩)) := h.set_plain ⟨rfl, hm, hn, hp⟩ rfl
    exact hset.commit hid hno hp (h.others hc rfl rfl)
  | refused hc =>
    obtain ⟨rfl, -⟩ := h.client _ _ hc
    exact h.set_plain rfl rfl
  | report hc =>
    obtain ⟨rfl, hm, hn, -⟩ := h.client _ _ hc
    rw [record_ok hn]
    exact h.set_plain ⟨rfl, fun r hr => by obtain rfl := Option.some.inj hr; exact hm⟩ rfl
  | readConflict hc =>
    obtain ⟨hok, hown⟩ := readConflict_spec (h.client _ _ hc)
    refine h.set (fun c hn => ?_) (fun c r hn hr j d b hj hd hb => ?_)
    · obtain rfl := Option.some.inj hn
      exact hok
    · obtain rfl := Option.some.inj hn
      exact h.apart _ j _ d r b (Ne.symm hj) hc hd (hown r hr) hb
  | finishRun hc hfree =>
    obtain ⟨hok, hown⟩ := finishRun_spec (h.client _ _ hc)
    refine h.set (fun c hn => ?_) (fun c r hn hr j d b hj hd hb => ?_)
    · obtain rfl := Option.some.inj hn
      exact hok
    · obtain rfl := Option.some.inj hn
      obtain ⟨rfl, old, hold, he⟩ := hown r hr
      exact h.apart_ended hold he hfree hj hd hb
  | @close i call row row' w hc hrec =>
    obtain ⟨-, hm, old, hold, he⟩ := h.client _ _ hc
    obtain rfl := record_eq hrec
    have hset : Inv (σ.set i (some ⟨call, .ended (.ok (.changed row')), some row'⟩)) :=
      h.set_plain ⟨rfl, fun r hr => by obtain rfl := Option.some.inj hr; exact hm⟩ rfl
    exact hset.close hold he (h.others hc rfl rfl)
  | reject hc hrec =>
    obtain ⟨rfl, -⟩ := h.client _ _ hc
    exact h.set_plain (phaseOk_error _) rfl
  | look hc =>
    obtain rfl := h.client _ _ hc
    obtain ⟨hok, hown⟩ := @lookAgain_spec σ.rows _ _
    exact h.set_plain hok hown
  | keep hc =>
    obtain rfl := h.client _ _ hc
    exact h.set_plain (phaseOk_quiet rfl) rfl
  | lost hc hl =>
    obtain rfl := wrote_of_lost (h.client _ _ hc) hl
    exact h.set_plain (phaseOk_error _) rfl
  | leave hc =>
    exact h.set (fun c hn => by cases hn) (fun c r hn => by cases hn)

theorem Reachable.inv (h : Reachable σ) : Inv σ := by
  induction h with
  | empty => exact Inv.init
  | step _ hs ih => exact ih.step hs

/-! ## What a step does -/

/-- The row that a scheduler's call has committed. -/
def System.wrote (σ : System Cl) (i : Cl) : Option JobRun := (σ.open_ i).bind Client.wrote

/-- What a step does to the table and to what its call has written. -/
def Effect (σ σ' : System Cl) : Label Cl → Prop
  | .quiet i => σ'.rows = σ.rows ∧ ((σ'.open_ i).isSome → σ'.wrote i = σ.wrote i)
  | .acquire i row => row.status = .processing ∧ σ'.rows = σ.rows ++ [row] ∧ σ'.wrote i = some row ∧
      ∀ r ∈ σ.rows, r.status = .completed → r.jobName = row.jobName → r.targetDate ≠ row.targetDate
  | .finish i row => σ'.rows = replaceRow σ.rows row ∧ σ'.wrote i = some row ∧ ∃ old ∈ σ.rows, Ended old row

/-- A call goes on without having written anything new. -/
theorem effect_quiet {i : Cl} {c c' : Client} (hc : σ.open_ i = some c) (hw : c'.wrote = c.wrote) :
    Effect σ (σ.set i (some c')) (.quiet i) := by
  refine ⟨rfl, fun _ => ?_⟩
  rw [System.wrote, System.wrote, System.set_open_self, hc]
  exact hw

theorem Inv.effect (h : Inv σ) (hs : Step σ l σ') : Effect σ σ' l := by
  cases hs with
  | begin hfree =>
    refine ⟨rfl, fun _ => ?_⟩
    rw [System.wrote, System.wrote, System.set_open_self, hfree]
    rfl
  | check hc => exact effect_quiet hc rfl
  | insert hc hfree => exact effect_quiet hc rfl
  | start hc hfree => exact effect_quiet hc rfl
  | commit hc =>
    obtain ⟨-, -, -, hp, -, hno⟩ := h.client _ _ hc
    refine ⟨hp, rfl, by rw [System.wrote]; simp [System.set], fun r hr hcompleted hjob htarget => ?_⟩
    exact hno r hr ⟨hjob, Or.inr
      ⟨by simp [JobRun.claims, hcompleted], by simp [JobRun.claims, hp], htarget⟩⟩
  | refused hc => exact effect_quiet hc rfl
  | report hc => exact effect_quiet hc rfl
  | readConflict hc => exact effect_quiet hc rfl
  | finishRun hc hfree => exact effect_quiet hc rfl
  | close hc hrec =>
    obtain ⟨-, -, hold⟩ := h.client _ _ hc
    exact ⟨rfl, by rw [System.wrote]; simp [System.set], hold⟩
  | reject hc hrec => exact effect_quiet hc rfl
  | look hc => exact effect_quiet hc rfl
  | keep hc => exact effect_quiet hc rfl
  | lost hc hl => exact effect_quiet hc rfl
  | leave hc =>
    refine ⟨rfl, fun hopen => ?_⟩
    rw [System.set_open_self] at hopen
    cases hopen

/-- Terminal rows stay. -/
theorem Inv.terminal_stays (h : Inv σ) (hs : Step σ l σ') {r : JobRun} (hr : r ∈ σ.rows)
    (hterminal : r.status.terminal = true) : r ∈ σ'.rows := by
  have heffect := h.effect hs
  cases l with
  | quiet i =>
    rw [heffect.1]
    exact hr
  | acquire i row =>
    rw [heffect.2.1]
    exact List.mem_append_left _ hr
  | finish i row =>
    obtain ⟨hrows, -, old, hold, he⟩ := heffect
    rw [hrows]
    refine mem_replaceRow_of_ne hr fun hid => ?_
    obtain rfl := eq_of_id h.ids hr hold (hid.trans he.id)
    rw [he.was] at hterminal
    cases hterminal

/-- A state that comes after another. -/
inductive Later : System Cl → System Cl → Prop
  | refl (σ : System Cl) : Later σ σ
  | step {σ τ τ' : System Cl} {l : Label Cl} : Later σ τ → Step τ l τ' → Later σ τ'

theorem Inv.later (h : Inv σ) (hl : Later σ σ') {r : JobRun} (hr : r ∈ σ.rows)
    (hterminal : r.status.terminal = true) : Inv σ' ∧ r ∈ σ'.rows := by
  induction hl with
  | refl => exact ⟨h, hr⟩
  | step _ hs ih =>
    obtain ⟨hinv, hmem⟩ := ih
    exact ⟨hinv.step hs, hinv.terminal_stays hs hmem hterminal⟩

/-! ## Exclusivity -/

/-- In every interleaving the table has at most one processing row for each job and at most one
processing or completed row for each job and date. A call that has ended has committed the row that
it reports as acquired, completed or failed, and nothing when it reports none; only the commit of an
acquisition adds a row, never for a date that has a completed one, and only a terminal transition
changes one, which was processing; what is completed or failed stays as it is. -/
theorem job_exclusivity (h : Reachable σ) :
    (∀ a ∈ σ.rows, ∀ b ∈ σ.rows, a.status = .processing → b.status = .processing → a.jobName = b.jobName →
        a = b) ∧ (∀ a ∈ σ.rows, ∀ b ∈ σ.rows, a.claims = true → b.claims = true → a.jobName = b.jobName →
        a.targetDate = b.targetDate → a = b) ∧
      (∀ i call result w, σ.open_ i = some ⟨call, .ended result, w⟩ → Report.committed result =
        σ.wrote i ∧ ∀ row, σ.wrote i = some row → call.makes row) ∧
      (∀ l σ', Step σ l σ' → Effect σ σ' l) ∧ ∀ σ', Later σ σ' → ∀ r ∈ σ.rows, r.status.terminal = true →
      r ∈ σ'.rows ∧ ∀ r' ∈ σ'.rows, r'.id = r.id → r' = r := by
  have hinv := h.inv
  refine ⟨fun a ha b hb hpa hpb hjob => ?_, fun a ha b hb hca hcb hjob htarget => ?_,
    fun i call result w hc => ?_, fun l σ' hs => hinv.effect hs, fun σ' hl r hr hterminal => ?_⟩
  · exact eq_of_id hinv.ids ha hb (hinv.unique a ha b hb ⟨hjob, Or.inl ⟨hpa, hpb⟩⟩)
  · exact eq_of_id hinv.ids ha hb (hinv.unique a ha b hb ⟨hjob, Or.inr ⟨hca, hcb, htarget⟩⟩)
  · obtain ⟨hcommitted, hmakes⟩ := hinv.client i _ hc
    have hwrote : σ.wrote i = w := by rw [System.wrote, hc]; rfl
    rw [hwrote]
    exact ⟨hcommitted.symm, hmakes⟩
  · obtain ⟨hinv', hmem⟩ := hinv.later hl hr hterminal
    exact ⟨hmem, fun r' hr' hid => eq_of_id hinv'.ids hr' hmem hid⟩

end Run

/-- The nightly export, acquired for a date. -/
def exampleRow (id : Uuid) : JobRun := (JobRun.pendingRun id "nightly-export" 20600 0).start 0

theorem length_nightly : "nightly-export".length = 14 := by decide

theorem exampleRow_inserted (id : Uuid) {rows : List JobRun} (h : rows = []) :
    insertPending rows "nightly-export" 20600 0 id =
      .inserted (JobRun.pendingRun id "nightly-export" 20600 0) := by
  have hchecked : (JobRun.pendingRun id "nightly-export" 20600 0).checked = true := by
    simp [JobRun.checked, JobRun.pendingRun, JobRun.shaped, length_nightly]
  simp [insertPending, selectById, hchecked, h]

theorem exampleRow_started (id : Uuid) {rows : List JobRun} (h : rows = []) :
    startProcessing rows (JobRun.pendingRun id "nightly-export" 20600 0) = .started (exampleRow id) := by
  have hchecked : ((JobRun.pendingRun id "nightly-export" 20600 0).start 0).checked = true := by
    simp [JobRun.checked, JobRun.pendingRun, JobRun.start, JobRun.shaped, length_nightly]
  have hcreated : (JobRun.pendingRun id "nightly-export" 20600 0).createdAt = 0 := rfl
  simp [startProcessing, hcreated, hchecked, exampleRow, h]

theorem exampleRow_lost (id id' : Uuid) {rows : List JobRun} (h : rows = [exampleRow id']) :
    startProcessing rows (JobRun.pendingRun id "nightly-export" 20600 0) =
      .readCompleted "nightly-export" 20600 := by
  have hchecked : ((JobRun.pendingRun id "nightly-export" 20600 0).start 0).checked = true := by
    simp [JobRun.checked, JobRun.pendingRun, JobRun.start, JobRun.shaped, length_nightly]
  have hcreated : (JobRun.pendingRun id "nightly-export" 20600 0).createdAt = 0 := rfl
  have hclash : Clash (exampleRow id') ((JobRun.pendingRun id "nightly-export" 20600 0).start 0) :=
    ⟨rfl, Or.inl ⟨rfl, rfl⟩⟩
  simp [startProcessing, hcreated, hchecked, h, hclash]
  exact ⟨rfl, rfl⟩

/-- Two schedulers insert a row for the nightly export; the first one starts it, and the second one loses the
race and finds the run of the first. -/
theorem job_exclusivity_acquired : ∃ σ : System Bool, ∃ call call', σ.rows = [exampleRow (Uuid.ofNat 7)] ∧
    σ.open_ true = some ⟨call, .ended (.ok (.acquired (exampleRow (Uuid.ofNat 7)))),
      some (exampleRow (Uuid.ofNat 7))⟩ ∧
    σ.open_ false = some ⟨call', .ended (.ok (.skippedProcessing (exampleRow (Uuid.ofNat 7)))), none⟩ ∧
    σ.wrote false = none ∧ ∀ l σ', Step σ l σ' → Effect σ σ' l := by
  have hcheck : ∀ id, Phase.ofExcept (Call.acquire "nightly-export" 20600 0 id).check =
      .inserting "nightly-export" 20600 0 id := fun id => rfl
  have hother : ∀ {i j : Bool}, j ≠ i → j = !i := by decide
  have h₁ := Reachable.empty.step
    (@Step.begin Bool _ {} true (.acquire "nightly-export" 20600 0 (Uuid.ofNat 7)) rfl)
  have h₂ := h₁.step (@Step.begin Bool _ _ false (.acquire "nightly-export" 20600 0 (Uuid.ofNat 8)) rfl)
  have h₃ := h₂.step (@Step.check Bool _ _ true (.acquire "nightly-export" 20600 0 (Uuid.ofNat 7)) none rfl)
  rw [hcheck] at h₃
  have h₄ := h₃.step (@Step.check Bool _ _ false (.acquire "nightly-export" 20600 0 (Uuid.ofNat 8)) none rfl)
  rw [hcheck] at h₄
  have h₅ := h₄.step (@Step.insert Bool _ _ true _ _ _ _ _ _ rfl fun j c r hj hc hr => by
    cases hother hj
    cases hc
    cases hr)
  rw [exampleRow_inserted] at h₅; swap
  · rfl
  have h₆ := h₅.step (@Step.insert Bool _ _ false _ _ _ _ _ _ rfl fun j c r hj hc hr => by
    cases hother hj
    cases hc
    cases hr
    decide +kernel)
  rw [exampleRow_inserted] at h₆; swap
  · rfl
  -- The row of the second scheduler is pending, so that the first one does not wait.
  have h₇ := h₆.step (@Step.start Bool _ _ true _ _ _ rfl fun j c r hj hc hr hpending => by
    cases hother hj
    cases hc
    cases hr
    exact absurd rfl hpending)
  rw [exampleRow_started] at h₇; swap
  · rfl
  have h₈ := h₇.step (@Step.commit Bool _ _ true _ (exampleRow (Uuid.ofNat 7)) none rfl)
  have h₉ := h₈.step (@Step.report Bool _ _ true _ (exampleRow (Uuid.ofNat 7)) _ rfl)
  have h₁₀ := h₉.step (@Step.start Bool _ _ false _ _ _ rfl fun j c r hj hc hr => by
    cases hother hj
    cases hc
    cases hr)
  rw [exampleRow_lost (Uuid.ofNat 8) (Uuid.ofNat 7)] at h₁₀; swap
  · rfl
  have h₁₁ := h₁₀.step (@Step.readConflict Bool _ _ false _ _ _ rfl)
  have h₁₂ := h₁₁.step (@Step.readConflict Bool _ _ false _ _ _ rfl)
  obtain ⟨-, -, hreports, heffects, -⟩ := job_exclusivity h₁₂
  exact ⟨_, _, _, rfl, rfl, rfl, (hreports false _ _ _ rfl).1.symm, heffects⟩

end TrackFlow.Jobs
