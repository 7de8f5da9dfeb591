import TrackFlow.ReadCommitted.System
import TrackFlow.Pipelines.RunStore

/-!
# Week leases

The control row of one week under concurrent transactions: `acquireWeekLease`, `verifyWeekLease`,
`renewWeekLease`, `releaseWeekLease`, and the protected sequence `publishProtected` of the
coordinator, as programs of interleaved READ COMMITTED transactions. The clock moves between any two
readings of it. The database also remembers the grants and the publications made (`grants`,
`publications`), which no statement reads.

A transaction is any adaptive sequence of these calls (`Transaction`).
-/

namespace TrackFlow.Pipelines

open TrackFlow.Python TrackFlow.ReadCommitted

/-! ## The database -/

/-- What the lease statements see: the clock, the target weeks of the stored runs, the control row
of the week, and its KPI rows. -/
structure LeaseDb (κ : Type) where
  clock : Int
  runs : Uuid → Option Int
  control : Option WeekControl
  kpis : κ
  grants : List (Int × Uuid)
  publications : List (Int × Uuid)

/-- One row written. -/
inductive LeaseWrite (κ : Type)
  | ensure (week : Int)
  | grant (run : Uuid) (acquired expires : Int)
  | renew (run : Uuid) (token expires : Int)
  | release (run : Uuid) (token : Int)
  | stage (kpis : κ)
  | record (run : Uuid) (p : Publication)

section Database

variable {κ : Type}

namespace LeaseDb

/-- The control row after its `UPDATE`. -/
def update (db : LeaseDb κ) (f : WeekControl → WeekControl) : LeaseDb κ :=
  { db with control := db.control.map f }

/-- The effect of a write. -/
def apply (db : LeaseDb κ) : LeaseWrite κ → LeaseDb κ
  | .ensure week => { db with control := some { weekStart := week } }
  | .grant run acquired expires =>
    { db.update (·.grant run acquired expires) with
      grants := db.grants ++ (db.control.map fun c => (c.fencingToken + 1, run)).toList }
  | .renew _ _ expires => db.update (·.renew expires)
  | .release _ _ => db.update WeekControl.release
  | .stage kpis => { db with kpis := kpis }
  | .record run p =>
    { db.update (·.record run p) with
      publications := db.publications ++ (db.control.map fun c => (c.fencingToken, run)).toList }

/-- `CHECK` constraints and foreign keys of the row that a write leaves. -/
def accepts (db : LeaseDb κ) : LeaseWrite κ → Bool
  | .ensure _ => db.control.isNone
  | .grant run acquired expires =>
      (db.runs run).isSome && db.control.any fun c => (c.grant run acquired expires).check
  | .renew _ _ expires => db.control.any fun c => (c.renew expires).check
  | .record run p => (db.runs run).isSome && 0 ≤ p.publishedRowCount
  | .release _ _ | .stage _ => true

end LeaseDb

/-- The tables. Between statements the clock advances and other transactions store runs. -/
def leaseTables (κ : Type) : Shared (LeaseDb κ) (LeaseWrite κ) where
  apply := LeaseDb.apply
  accepts := LeaseDb.accepts
  clash _ _ := False
  world db db' := ∃ clock runs, db.clock ≤ clock ∧ (∀ r w, db.runs r = some w → runs r = some w) ∧
    db' = { db with clock := clock, runs := runs }

end Database

/-! ## Results -/

/-- `LEASE_STATUSES`. -/
inductive LeaseStatus
  | acquired
  | recovered
  | occupied
  | alreadyHeld
  | verified
  | renewed
  | released
  | rejected
  deriving DecidableEq

/-- `LeaseDecision`: an observation inside the transaction. -/
structure LeaseDecision where
  weekStart : Int
  status : LeaseStatus
  runId : Option Uuid := none
  ownerRunId : Option Uuid := none
  fencingToken : Option Int := none
  leaseExpiresAt : Option Int := none
  lockHeld : Bool := false
  deriving DecidableEq

/-- `LeaseDecision.granted`. -/
def LeaseDecision.granted (d : LeaseDecision) : Bool := d.status = .acquired || d.status = .recovered

/-- `LeaseDecision.lease_verified`; a decision is never durable. -/
def LeaseDecision.leaseVerified (d : LeaseDecision) : Bool := d.status = .verified && d.lockHeld

/-- `_decision`. -/
def decision (week : Int) (status : LeaseStatus) (run : Uuid) (row : WeekControl)
    (lockHeld : Bool) : LeaseDecision where
  weekStart := week
  status := status
  runId := some run
  ownerRunId := row.ownerRunId
  fencingToken := some row.fencingToken
  leaseExpiresAt := row.leaseExpiresAt
  lockHeld := lockHeld

/-- The answer of the `UPDATE` statements that find no row. -/
def refusal (week : Int) (run : Uuid) : LeaseDecision where
  weekStart := week
  status := .rejected
  runId := some run

/-- What a call told its caller: the decision, and the token that was presented (none for
`acquire_week_lease`). -/
structure LeaseNote where
  runId : Uuid
  presented : Option Int
  decision : LeaseDecision

/-! ## Statements -/

/-- A program of the lease module. -/
abbrev Lease (κ α : Type) := Prog (LeaseDb κ) (LeaseWrite κ) Unit LeaseNote CodedError α

section Statements

variable {κ : Type}

/-- Raise what a validator refuses. -/
def ofExcept {α : Type} : Except CodedError α → Lease κ α
  | .ok a => pure a
  | .error e => Prog.fail e

/-- `SELECT … FOR UPDATE`: a row that the statement sees is locked and read again. -/
def selectForUpdate : Lease κ (Option WeekControl) := do
  match ← Prog.query (·.control) with
  | none => pure none
  | some _ =>
    Prog.acquire ()
    Prog.query (·.control)

/-- `UPDATE … WHERE … RETURNING`: a row that does not match is passed over without waiting, a
matching one is locked and checked again. PostgreSQL checks it again only if the row was changed in between;
here the check is repeated with the clock of the moment in any case. -/
def updateWhere (matching : WeekControl → Int → Bool) (set : Lease κ (LeaseWrite κ)) :
    Lease κ (Option WeekControl) := do
  let seen ← Prog.query (·.control)
  let now ← Prog.query (·.clock)
  if seen.any (matching · now) then
    Prog.acquire ()
    let locked ← Prog.query (·.control)
    let now ← Prog.query (·.clock)
    if locked.any (matching · now) then
      let w ← set
      Prog.put w
      Prog.query (·.control)
    else pure none
  else pure none

/-- `clock_timestamp() + (:lease_seconds * INTERVAL '1 second')`. -/
def expiry (leaseSeconds : Int) : Lease κ Int := do
  let now ← Prog.query (·.clock)
  return now + leaseSeconds * 1000000

/-- `LOCK_CONTROL_SQL`: the locked row and `is_expired`. -/
def lockControl : Lease κ (Option (WeekControl × Bool)) := do
  match ← selectForUpdate with
  | none => pure none
  | some row =>
    let now ← Prog.query (·.clock)
    return some (row, row.expired now)

/-- `GRANT_LEASE_SQL`. -/
def grantLease (run : Uuid) (leaseSeconds expectedFencingToken : Int) : Lease κ (Option WeekControl) :=
  updateWhere (fun c now => c.fencingToken = expectedFencingToken &&
      (c.ownerRunId.isNone || c.expired now)) do
    let acquired ← Prog.query (·.clock)
    let expires ← expiry leaseSeconds
    return .grant run acquired expires

/-- `VERIFY_LEASE_SQL`: the locked row and whether it verifies. -/
def verifyLease (run : Uuid) (token : Int) : Lease κ (Option (WeekControl × Bool)) := do
  match ← selectForUpdate with
  | none => pure none
  | some row =>
    let now ← Prog.query (·.clock)
    return some (row, row.verifies run token now)

/-- `RENEW_LEASE_SQL`. -/
def renewLease (run : Uuid) (token leaseSeconds : Int) : Lease κ (Option WeekControl) :=
  updateWhere (fun c now => c.owned run && c.fencingToken = token && c.unexpired now) do
    let expires ← expiry leaseSeconds
    return .renew run token expires

/-- `RELEASE_LEASE_SQL`. -/
def releaseLease (run : Uuid) (token : Int) : Lease κ (Option WeekControl) :=
  updateWhere (fun c _ => c.owned run && c.fencingToken = token) (pure (.release run token))

/-! ## Calls -/

/-- `_lease_seconds`. -/
def checkLeaseSeconds (value : Int) : Except CodedError Int :=
  if value < 1 || 86400 < value then
      .error ⟨"invalid_lease_ttl", "lease_seconds is outside the allowed window"⟩
  else .ok value

/-- `_token`. -/
def checkToken (value : Int) : Except CodedError Int :=
  if value < 0 then .error ⟨"invalid_fencing_token", "fencing_token must be a non-negative integer"⟩
      else .ok value

/-- `_run_for_week`. -/
def runForWeek (run : Uuid) (weekStart : Int) : Lease κ Unit := do
  match ← Prog.query fun db => db.runs run with
  | none => Prog.fail ⟨"run_not_found", "run_id was not found"⟩
  | some target =>
    if target ≠ weekStart then Prog.fail ⟨"week_mismatch", "run target week does not match the lease week"⟩

/-- `ensure_week_control`: `INSERT … ON CONFLICT DO NOTHING`, which waits for another insertion of
the row, and the row read back. -/
def ensureWeekControl (weekStart : Int) : Lease κ Unit := do
  let _ ← ofExcept (week weekStart)
  if (← Prog.query (·.control)).isNone then
    Prog.acquire ()
    if (← Prog.query (·.control)).isNone then Prog.put (.ensure weekStart)
  if (← Prog.query (·.control)).isNone then
    Prog.fail ⟨"control_not_found", "week control could not be read after insert"⟩

/-- A call, with its decision reported. -/
def reported (run : Uuid) (presented : Option Int) (call : Lease κ LeaseDecision) :
    Lease κ LeaseDecision := do
  let d ← call
  Prog.report ⟨run, presented, d⟩
  return d

/-- `acquire_week_lease`. -/
def acquireWeekLease (weekStart : Int) (run : Uuid) (leaseSeconds : Int) : Lease κ LeaseDecision :=
  reported run none do
    let _ ← ofExcept (week weekStart)
    let seconds ← ofExcept (checkLeaseSeconds leaseSeconds)
    runForWeek run weekStart
    ensureWeekControl weekStart
    match ← lockControl with
    | none => Prog.fail ⟨"query_failed", "week control disappeared after ensure"⟩
    | some (locked, expired) =>
      if !locked.ownerRunId.isNone && !expired then
        return decision weekStart (if locked.owned run then .alreadyHeld else .occupied) run locked true
      match ← grantLease run seconds locked.fencingToken with
      | none =>
        Prog.fail ⟨"transaction_uncertain",
          "locked lease row was not updated; not treating the week as free"⟩
      | some granted =>
        return decision weekStart
          (if locked.ownerRunId.isNone then .acquired else .recovered) run granted true

/-- `verify_week_lease`. -/
def verifyWeekLease (weekStart : Int) (run : Uuid) (fencingToken : Int) : Lease κ LeaseDecision :=
  reported run (some fencingToken) do
    let _ ← ofExcept (week weekStart)
    let token ← ofExcept (checkToken fencingToken)
    match ← verifyLease run token with
    | none => return refusal weekStart run
    | some (locked, verified) =>
        return decision weekStart (if verified then .verified else .rejected) run locked true

/-- `renew_week_lease`. -/
def renewWeekLease (weekStart : Int) (run : Uuid) (fencingToken leaseSeconds : Int) :
    Lease κ LeaseDecision :=
  reported run (some fencingToken) do
    let _ ← ofExcept (week weekStart)
    let seconds ← ofExcept (checkLeaseSeconds leaseSeconds)
    let token ← ofExcept (checkToken fencingToken)
    match ← renewLease run token seconds with
    | none => return refusal weekStart run
    | some row => return decision weekStart .renewed run row true

/-- `release_week_lease`. -/
def releaseWeekLease (weekStart : Int) (run : Uuid) (fencingToken : Int) : Lease κ LeaseDecision :=
  reported run (some fencingToken) do
    let _ ← ofExcept (week weekStart)
    let token ← ofExcept (checkToken fencingToken)
    match ← releaseLease run token with
    | none => return refusal weekStart run
    | some row =>
      return { refusal weekStart run with
        status := .released, fencingToken := some row.fencingToken, lockHeld := true }

/-- `record_valid_publication`. -/
def recordValidPublication (weekStart : Int) (run : Uuid) (p : Publication) : Lease κ Unit := do
  let _ ← ofExcept (week weekStart)
  match ← Prog.query fun db => db.runs run with
  | none => Prog.fail ⟨"run_not_found", "run_id was not found"⟩
  | some target =>
    if target ≠ weekStart then
        Prog.fail ⟨"week_mismatch", "run target week does not match the control week"⟩
  ensureWeekControl weekStart
  ofExcept p.check
  match ← updateWhere (fun _ _ => true) (pure (.record run p)) with
  | none => Prog.fail ⟨"control_not_found", "week control was not updated"⟩
  | some _ => return

/-- The protected sequence of `publish_weekly_business_report` on the business connection; every way
out but the last ends in `_release_business_lock`, a rollback. `stage` is `_stage_weekly_upsert` on
the rows that the transaction sees: the rows it leaves and their number, or nothing when it blocks
or fails. -/
def publishProtected (weekStart : Int) (run : Uuid) (fencingToken publishedAt : Int)
    (stage : κ → Option (κ × Int))
    (fingerprint rulesVersion : Option String) : Lease κ Unit := do
  let verified ← verifyWeekLease weekStart run fencingToken
  if !verified.leaseVerified then Prog.fail ⟨"lease_rejected", "lease verification rejected"⟩
  match stage (← Prog.query (·.kpis)) with
  | none => Prog.fail ⟨"not_staged", "the batch was not staged"⟩
  | some (kpis, rows) =>
    Prog.put (.stage kpis)
    recordValidPublication weekStart run ⟨publishedAt, rows, fingerprint, rulesVersion⟩
    let released ← releaseWeekLease weekStart run fencingToken
    if released.status ≠ .released then
      Prog.fail ⟨"lease_release_rejected", "owner or fencing token no longer matches"⟩

/-- What a transaction on the control row of `weekStart` may do: calls in any order, each chosen
after the results of the earlier ones, by any runs and with any presented tokens. It may be rolled
back at any point. -/
inductive Transaction (weekStart : Int) : Lease κ Unit → Prop
  | stop : Transaction weekStart (pure ())
  | acquire (run : Uuid) (leaseSeconds : Int) (next : LeaseDecision → Lease κ Unit) :
      (∀ d, Transaction weekStart (next d)) →
        Transaction weekStart (acquireWeekLease weekStart run leaseSeconds >>= next)
  | verify (run : Uuid) (token : Int) (next : LeaseDecision → Lease κ Unit) :
      (∀ d, Transaction weekStart (next d)) →
      Transaction weekStart (verifyWeekLease weekStart run token >>= next)
  | renew (run : Uuid) (token leaseSeconds : Int) (next : LeaseDecision → Lease κ Unit) :
      (∀ d, Transaction weekStart (next d)) →
        Transaction weekStart (renewWeekLease weekStart run token leaseSeconds >>= next)
  | release (run : Uuid) (token : Int) (next : LeaseDecision → Lease κ Unit) :
      (∀ d, Transaction weekStart (next d)) →
        Transaction weekStart (releaseWeekLease weekStart run token >>= next)
  | publish (run : Uuid) (token publishedAt : Int) (stage : κ → Option (κ × Int))
    (fingerprint rulesVersion : Option String) (next : Unit → Lease κ Unit) :
    (∀ u, Transaction weekStart (next u)) →
    Transaction weekStart (publishProtected weekStart run token publishedAt stage fingerprint
      rulesVersion >>= next)

end Statements

end TrackFlow.Pipelines
