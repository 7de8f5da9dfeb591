import TrackFlow.ReadCommitted.System
import TrackFlow.ReadCommitted.Table
import TrackFlow.Python.Collections
import TrackFlow.Pipelines.RunLifecycle
import TrackFlow.TaskQueue.Store

/-!
# The dispatch outbox

`accept_async_task` inserts a run, its task and the outbox row of the task; relays claim the row,
call the publisher, and record in another transaction what came of it; pipelines create runs of their
own. Each transaction is a program of interleaved READ COMMITTED transactions (`Transaction`). Between
statements the clock moves, publishers answer, workers change their tasks and pipelines their runs
(`World`).

The database also remembers the runs that were accepted and the publications that were recorded,
which no statement reads, and what a relay keeps in memory between its two transactions: its claim
and the answer of its publisher.
-/

namespace TrackFlow.TaskQueue.Dispatch

open TrackFlow.Python TrackFlow.Pipelines TrackFlow.ReadCommitted
open TrackFlow.Pipelines.Lifecycle (StoredRun CreateArgs Statement)

/-! ## Rows -/

/-- `dispatch_status` of `reporting.task_dispatch_outbox`. -/
inductive Status
  | pending
  | publishing
  | retryWait
  | published
  | publicationUncertain
  | reconciliationRequired
  deriving DecidableEq

/-- The payload of a message. -/
structure Payload where
  contractVersion : Nat
  taskId : Uuid
  runId : Uuid
  weekStart : Int
  deriving DecidableEq

/-- `relay_owner`, `relay_token` and `relay_lease_expires_at`, which are set together. -/
structure RelayLease where
  owner : String
  token : Uuid
  expiresAt : Int
  deriving DecidableEq

/-- A row of `reporting.task_dispatch_outbox`. -/
structure Row where
  payload : Payload
  status : Status
  publishAttempts : Nat
  nextAttemptAt : Int
  relay : Option RelayLease
  lastErrorCode : Option String
  createdAt : Int
  publishedAt : Option Int
  deriving DecidableEq

namespace Row

/-- A claim whose lease has expired. -/
def expired (r : Row) (now : Int) : Bool := r.status = .publishing && r.relay.any (·.expiresAt ≤ now)

/-- Nobody is publishing the row, and nobody has given it up. -/
def waiting (r : Row) : Bool := r.status ∈ [.pending, .retryWait, .publicationUncertain]

/-- No attempts are left. -/
def exhausted (maxAttempts : Nat) (r : Row) : Bool := r.waiting && maxAttempts ≤ r.publishAttempts

/-- The row may be claimed. -/
def ready (maxAttempts : Nat) (r : Row) (now : Int) : Bool :=
  r.waiting && r.publishAttempts < maxAttempts && r.nextAttemptAt ≤ now &&
    r.relay.all (·.expiresAt ≤ now)

/-- The row is being published under the token. -/
def heldBy (r : Row) (token : Uuid) : Bool := r.status = .publishing && r.relay.any (·.token = token)

/-- The row after the expiry of its lease. -/
def abandoned (r : Row) : Row :=
  { r with status := .publicationUncertain, lastErrorCode := some "publication_uncertain" }

/-- The row that is given up. -/
def givenUp (r : Row) : Row :=
  { r with status := .reconciliationRequired, lastErrorCode := some "publish_attempts_exhausted" }

/-- The row after a claim. -/
def claimed (r : Row) (lease : RelayLease) : Row :=
  { r with status := .publishing, relay := some lease, publishAttempts := r.publishAttempts + 1 }

/-- The row after its publication. -/
def acknowledged (r : Row) (now : Int) : Row :=
  { r with status := .published, publishedAt := some now, relay := none, lastErrorCode := none }

/-- The row after a publisher that raised. -/
def refused (maxAttempts : Nat) (retryAt : Int) (code : String) (r : Row) : Row :=
  { r with
    status := if maxAttempts ≤ r.publishAttempts then .reconciliationRequired else .retryWait
    nextAttemptAt := retryAt, relay := none, lastErrorCode := some code }

end Row

/-! ## The database -/

/-- What a relay keeps of its claim: the row that the `UPDATE` returns. -/
structure Claimed where
  taskId : Uuid
  payload : Payload
  publishAttempts : Nat
  deriving DecidableEq

/-- What came of a call of the publisher. -/
inductive Answer
  | returned
  | raised (code : String)
  deriving DecidableEq

/-- A row that became published: the token that it had then, and what the publisher had answered the
holder of that token by then. -/
structure Publication where
  taskId : Uuid
  token : Option Uuid
  answer : Option Answer
  deriving DecidableEq

/-- The tables, the clock and what is remembered. -/
structure Db where
  clock : Int
  runs : Table Uuid StoredRun
  tasks : Table Uuid Task := {}
  outbox : Table Uuid Row := {}
  claims : Table Uuid Claimed := {}
  answers : Table Uuid Answer := {}
  accepted : List Uuid := []
  publications : List Publication := []

/-- One row written. -/
inductive Write
  | run (row : StoredRun)
  | create (row : StoredRun)
  | task (id : Uuid) (t : Task)
  | outbox (id : Uuid) (r : Row)
  | abandon (id : Uuid) (now : Int)
  | giveUp (id : Uuid) (maxAttempts : Nat)
  | claim (id : Uuid) (maxAttempts : Nat) (now : Int) (lease : RelayLease)
  | acknowledge (id token : Uuid) (now : Int)
  | refuse (id token : Uuid) (maxAttempts : Nat) (retryAt : Int) (code : String)
  | dispatched (id : Uuid)
  | undispatched (id : Uuid)

namespace Db

/-- `UPDATE` of an outbox row, if it matches. -/
def setRow (db : Db) (id : Uuid) (matching : Row → Bool) (f : Row → Row) : Db :=
  { db with outbox := db.outbox.modify id fun r => if matching r then f r else r }

/-- What is remembered of a publication. -/
def publication (db : Db) (id : Uuid) (r : Row) : Publication :=
  ⟨id, r.relay.map RelayLease.token, r.relay.bind fun lease => db.answers.get lease.token⟩

/-- What a write does. The row of a claim is locked since it was selected, so that it still matches
what the `SELECT` asked for. -/
def apply (db : Db) : Write → Db
  | .run row =>
    if (db.runs.get row.runId).isSome then db
    else { db with runs := db.runs.insert row.runId row, accepted := db.accepted ++ [row.runId] }
  | .create row =>
    -- The runs that were accepted are there.
    if (db.runs.get row.runId).isSome || row.runId ∈ db.accepted then db
    else { db with runs := db.runs.insert row.runId row }
  | .task id t => { db with tasks := db.tasks.insert id t }
  | .outbox id r => { db with outbox := db.outbox.insert id r }
  | .abandon id now => db.setRow id (·.expired now) Row.abandoned
  | .giveUp id maxAttempts => db.setRow id (Row.exhausted maxAttempts) Row.givenUp
  | .claim id maxAttempts now lease =>
    match db.outbox.get id with
    | none => db
    | some r =>
      if r.ready maxAttempts now then
        { db.setRow id (fun _ => true) (·.claimed lease) with
          claims := db.claims.insert lease.token ⟨id, r.payload, r.publishAttempts + 1⟩ }
      else db
  | .acknowledge id token now =>
    match db.outbox.get id with
    | none => db
    | some r =>
      if r.heldBy token then
        { db.setRow id (fun _ => true) (·.acknowledged now) with
          publications := db.publications ++ [db.publication id r] }
      else db
  | .refuse id token maxAttempts retryAt code =>
    db.setRow id (·.heldBy token) (Row.refused maxAttempts retryAt code)
  | .dispatched id => { db with tasks := db.tasks.modify id Task.dispatched }
  | .undispatched id => { db with tasks := db.tasks.modify id Task.undispatched }

/-- Primary and foreign keys, UNIQUE and CHECK constraints. No token is drawn twice. -/
def accepts (db : Db) : Write → Bool
  | .run row | .create row => (db.runs.get row.runId).isNone
  | .task id t => (db.tasks.get id).isNone && (db.runs.get t.runId).isSome && t.checked &&
      db.tasks.rows.all fun e => e.2.runId ≠ t.runId
  | .outbox id _ => (db.outbox.get id).isNone && (db.tasks.get id).isSome
  | .claim _ _ _ lease => (db.claims.get lease.token).isNone
  | .refuse _ _ _ _ code => code.length ≤ 128
  | _ => true

end Db

/-- What changes between statements: the clock, the answers of publishers to those who have claimed
a row, the tasks, whose workers leave their dispatch alone, and the runs (`Lifecycle.Change`). -/
structure World (db db' : Db) : Prop where
  clock : db.clock ≤ db'.clock
  answered : ∀ token a, db.answers.get token = some a → db'.answers.get token = some a
  asked : ∀ token a, db'.answers.get token = some a →
    db.answers.get token = some a ∨ (db.claims.get token).isSome
  tasks : Table.Pointwise (fun t t' : Task => t'.runId = t.runId ∧ t'.weekStart = t.weekStart ∧
    t'.dispatchStatus = t.dispatchStatus) db.tasks db'.tasks
  runs : Table.Pointwise (fun r r' : StoredRun => r'.targetWeekStart = r.targetWeekStart ∧
    (r'.status = r.status ∨ Lifecycle.Change r r')) db.runs db'.runs
  outbox : db'.outbox = db.outbox
  claims : db'.claims = db.claims
  accepted : db'.accepted = db.accepted
  publications : db'.publications = db.publications

/-- The tables. -/
def tables : Shared Db Write where
  apply := Db.apply
  accepts := Db.accepts
  clash _ _ := False
  world := World

/-! ## Statements -/

/-- The advisory lock of a week, row locks, and what the insertion of a key waits for. -/
inductive Lock
  | week (key : Int)
  | run (id : Uuid)
  | task (id : Uuid)
  | row (id : Uuid)
  | token (token : Uuid)
  deriving DecidableEq

/-- A part of a transaction. -/
abbrev Txn (α : Type) : Type := Prog Db Write Lock Unit CodedError α

/-- The visits of an `UPDATE` of the outbox: each row is locked and looked at again. -/
def updateRows (matching : Row → Int → Bool) (set : Uuid → Int → Write) : List Uuid → Txn Unit
  | [] => return ()
  | id :: rest => do
    Prog.acquire (.row id)
    let row ← Prog.query fun db => db.outbox.get id
    let now ← Prog.query (·.clock)
    if row.any (matching · now) then Prog.put (set id now)
    updateRows matching set rest

/-- `UPDATE reporting.task_dispatch_outbox … WHERE`. -/
def updateOutbox (matching : Row → Int → Bool) (set : Uuid → Int → Write) : Txn Unit := do
  let ids ← Prog.query fun db => db.outbox.select fun _ r => matching r db.clock
  updateRows matching set ids

/-- `UPDATE reporting.task_dispatch_outbox … WHERE task_id=:task_id AND …`. -/
def updateRow (id : Uuid) (matching : Row → Bool) (set : Int → Write) : Txn Bool := do
  if (← Prog.query fun db => db.outbox.get id).any matching then
    Prog.acquire (.row id)
    let row ← Prog.query fun db => db.outbox.get id
    let now ← Prog.query (·.clock)
    if row.any matching then
      Prog.put (set now)
      return true
    else return false
  else return false

/-- `UPDATE reporting.async_tasks … WHERE task_id=:task_id AND …`. -/
def updateTask (id : Uuid) (matching : Task → Bool) (set : Write) : Txn Unit := do
  if (← Prog.query fun db => db.tasks.get id).any matching then
    Prog.acquire (.task id)
    if (← Prog.query fun db => db.tasks.get id).any matching then Prog.put set

/-- `UPDATE reporting.async_tasks … WHERE task_id IN (…) AND …`, on the tasks that it has found. -/
def updateTasks (matching : Task → Bool) (set : Uuid → Write) : List Uuid → Txn Unit
  | [] => return ()
  | id :: rest => do
    updateTask id matching (set id)
    updateTasks matching set rest

/-! ## The relay -/

/-- `SELECT … ORDER BY next_attempt_at, created_at`. -/
def readyRows (maxAttempts : Nat) (db : Db) : List Uuid :=
  (sortedBy (fun a b => a.2.nextAttemptAt < b.2.nextAttemptAt || (a.2.nextAttemptAt = b.2.nextAttemptAt &&
      a.2.createdAt ≤ b.2.createdAt)) (db.outbox.rows.filter fun e => e.2.ready maxAttempts db.clock)).map
    Prod.fst

/-- `FOR UPDATE SKIP LOCKED LIMIT 1`: the first row that still matches when it is locked, with the
time at which it matched. -/
def lockFirst (maxAttempts : Nat) : List Uuid → Txn (Option (Uuid × Int))
  | [] => return none
  | id :: rest => do
    Prog.acquire (.row id)
    let row ← Prog.query fun db => db.outbox.get id
    let now ← Prog.query (·.clock)
    if row.any (·.ready maxAttempts now) then return some (id, now)
    else lockFirst maxAttempts rest

/-- A task whose dispatch is not given up yet. -/
def unreconciled (t : Task) : Bool := t.dispatchStatus ≠ .reconciliationRequired

/-- The tasks of the rows that were given up. -/
def unreconciledTasks (db : Db) : List Uuid :=
  db.tasks.select fun id t => unreconciled t &&
    (db.outbox.get id).any fun r => r.status = .reconciliationRequired

section Relay

variable (maxAttempts : Nat)

/-- `_claim_one`. The rows in `locked` are those that `SKIP LOCKED` passes over. -/
def claimOne (owner : String) (token : Uuid) (leaseSeconds : Int) (locked : List Uuid) : Txn Unit := do
  updateOutbox (fun r now => r.expired now) .abandon
  updateOutbox (fun r _ => r.exhausted maxAttempts) fun id _ => .giveUp id maxAttempts
  let given ← Prog.query unreconciledTasks
  updateTasks unreconciled .undispatched given
  let ready ← Prog.query (readyRows maxAttempts)
  match ← lockFirst maxAttempts (ready.filter (· ∉ locked)) with
  | none => return ()
  | some (id, selectedAt) =>
    -- `uuid4` gives the token to nobody else.
    Prog.acquire (.token token)
    let now ← Prog.query (·.clock)
    Prog.put (.claim id maxAttempts selectedAt ⟨owner, token, now + leaseSeconds * 1000000⟩)

/-- The transaction of `relay_once` after a publisher that returned. -/
def recordPublished (token : Uuid) (c : Claimed) : Txn Unit := do
  if ← updateRow c.taskId (·.heldBy token) (.acknowledge c.taskId token ·) then
    updateTask c.taskId (fun _ => true) (.dispatched c.taskId)

/-- `delay`: seconds until the next attempt. -/
def backoff (maxBackoffSeconds : Int) (c : Claimed) : Int :=
  min maxBackoffSeconds (2 ^ min c.publishAttempts 8)

/-- The transaction of `relay_once` after a publisher that raised. -/
def recordRefused (maxBackoffSeconds : Int) (token : Uuid) (c : Claimed) (code : String) : Txn Unit := do
  let _ ← updateRow c.taskId (·.heldBy token) fun now =>
    .refuse c.taskId token maxAttempts (now + backoff maxBackoffSeconds c * 1000000) code
  if maxAttempts ≤ c.publishAttempts then
    updateTask c.taskId (fun _ => true) (.undispatched c.taskId)

/-- `relay_once` after the call of its publisher: a relay that was lost before or during the call, or
that had no claim, does nothing. -/
def closeClaim (maxBackoffSeconds : Int) (token : Uuid) : Txn Unit := do
  match ← Prog.query fun db => db.claims.get token, ← Prog.query fun db => db.answers.get token with
  | some c, some .returned => recordPublished token c
  | some c, some (.raised code) => recordRefused maxAttempts maxBackoffSeconds token c code
  | _, _ => return ()

end Relay

/-! ## Acceptance -/

/-- `create_run` with the arguments of `accept_async_task`. -/
def acceptedRun (runId : Uuid) (weekStart : Int) : CreateArgs where
  targetWeekStart := weekStart
  triggerType := "http"
  pipelineName := "weekly_warehouse_client_performance"
  runId := runId
  startedAt := none
  stageReached := some "accepted"
  prefectFlowRunId := none
  prefectTaskRunId := none

/-- `create_run`: the insertion of the row waits for another insertion of its key. -/
def createRun (args : CreateArgs) (insert : StoredRun → Write) : Txn Unit := do
  match args.statement with
  | .error e => Prog.fail e
  | .ok s =>
    let now ← Prog.query (·.clock)
    match s.result now none with
    | none => Prog.fail s.missing
    | some row => do
      Prog.acquire (.run row.runId)
      Prog.put (insert row)

/-- A run that is pending or running. -/
def active (r : StoredRun) : Bool := r.status = .pending || r.status = .running

/-- `_ACTIVE_RUN`. -/
def activeRun (weekStart : Int) (db : Db) : Option Uuid :=
  ((sortedBy (fun a b => b.2.startedAt ≤ a.2.startedAt)
    (db.runs.rows.filter fun e =>
      e.2.targetWeekStart = weekStart ∧ active e.2 = true)).map Prod.fst).head?

/-- `_INSERT_OUTBOX`. -/
def outboxRow (id runId : Uuid) (weekStart now : Int) : Row where
  payload := ⟨1, id, runId, weekStart⟩
  status := .pending
  publishAttempts := 0
  nextAttemptAt := now
  relay := none
  lastErrorCode := none
  createdAt := now
  publishedAt := none

/-- `accept_async_task`, with the ids that `uuid4` draws; `weekKey` is the hash of the name of the
week's lock. -/
def acceptAsyncTask (weekKey : Int → Int) (weekStart : Int) (runId taskId : Uuid) :
    Txn (Uuid × Uuid × Bool) := do
  Prog.acquire (.week (weekKey weekStart))
  match ← Prog.query (activeRun weekStart) with
  | some existing =>
    let task ← Prog.query fun db => (db.tasks.select fun _ t => t.runId = existing).head?
    return (existing, task.getD taskId, false)
  | none =>
    createRun (acceptedRun runId weekStart) .run
    let now ← Prog.query (·.clock)
    Prog.acquire (.task taskId)
    Prog.put (.task taskId (acceptedTask runId weekStart now))
    let now ← Prog.query (·.clock)
    Prog.acquire (.row taskId)
    Prog.put (.outbox taskId (outboxRow taskId runId weekStart now))
    return (runId, taskId, true)

/-- The transactions: `create` is the one of a pipeline that was started in another way. -/
inductive Transaction (weekKey : Int → Int) (maxAttempts : Nat) : Txn Unit → Prop
  | accept (weekStart : Int) (runId taskId : Uuid) :
      Transaction weekKey maxAttempts (acceptAsyncTask weekKey weekStart runId taskId >>= fun _ => pure ())
  | claim (owner : String) (token : Uuid) (leaseSeconds : Int) (locked : List Uuid) :
      Transaction weekKey maxAttempts (claimOne maxAttempts owner token leaseSeconds locked)
  | close (maxBackoffSeconds : Int) (token : Uuid) :
      Transaction weekKey maxAttempts (closeClaim maxAttempts maxBackoffSeconds token)
  | create (args : CreateArgs) : Transaction weekKey maxAttempts (createRun args .create)

end TrackFlow.TaskQueue.Dispatch
