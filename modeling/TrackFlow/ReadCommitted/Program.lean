import Mathlib

/-!
# Transactional programs

A client of a database works inside one transaction: it takes row locks, reads, writes, and either ends (the
transaction commits) or raises (the transaction rolls back). `Prog` is the tree of what it does
next; a read hands the whole visible database to the continuation, so that two reads of one program
are two statements.

- `Prog` is a monad (`Prog.bind`, with `bind_assoc` for rewriting);
- `eval` runs a program alone, without crashes: the writes it leaves and its value, or the reason it failed;
- `run` runs it alone with a crash injected at any point; a run that does not end normally leaves
  the database as it was (`run_error`), and a run that does is the crash-free one (`run_ok`).
-/

namespace TrackFlow.ReadCommitted

variable {Db W K O E α β γ : Type}

/-- What a client does next inside its transaction. `note` reports a statement's result to the client. -/
inductive Prog (Db W K O E α : Type) : Type
  | done (a : α)
  | raise (e : E)
  | lock (k : K) (next : Prog Db W K O E α)
  | read (next : Db → Prog Db W K O E α)
  | write (w : W) (next : Prog Db W K O E α)
  | note (o : O) (next : Prog Db W K O E α)

namespace Prog

/-- Sequencing. -/
def bind : Prog Db W K O E α → (α → Prog Db W K O E β) → Prog Db W K O E β
  | done a, f => f a
  | raise e, _ => raise e
  | lock k p, f => lock k (bind p f)
  | read p, f => read fun db => bind (p db) f
  | write w p, f => write w (bind p f)
  | note o p, f => note o (bind p f)

instance : Monad (Prog Db W K O E) where
  pure := done
  bind := bind

/-- Raise an error: the transaction rolls back. -/
def fail (e : E) : Prog Db W K O E α := raise e

/-- Wait for the row lock of `k`; it is held to the end of the transaction. -/
def acquire (k : K) : Prog Db W K O E Unit := lock k (done ())

/-- One `SELECT`: a function of the database visible to the statement. -/
def query (f : Db → α) : Prog Db W K O E α := read fun db => done (f db)

/-- One `INSERT` or `UPDATE` of one row. -/
def put (w : W) : Prog Db W K O E Unit := write w (done ())

/-- Report a result to the client. -/
def report (o : O) : Prog Db W K O E Unit := note o (done ())

@[simp] theorem pure_eq (a : α) : (pure a : Prog Db W K O E α) = done a := rfl

@[simp] theorem done_bind (a : α) (f : α → Prog Db W K O E β) : (done a >>= f) = f a := rfl

@[simp] theorem fail_bind (e : E) (f : α → Prog Db W K O E β) : (fail e >>= f) = fail e := rfl

@[simp] theorem acquire_bind (k : K) (f : Unit → Prog Db W K O E β) :
    (acquire k >>= f) = lock k (f ()) := rfl

@[simp] theorem query_bind (g : Db → α) (f : α → Prog Db W K O E β) :
    (query g >>= f) = read fun db => f (g db) := rfl

@[simp] theorem put_bind (w : W) (f : Unit → Prog Db W K O E β) : (put w >>= f) = write w (f ()) := rfl

@[simp] theorem report_bind (o : O) (f : Unit → Prog Db W K O E β) : (report o >>= f) = note o (f ()) := rfl

theorem bind_assoc (p : Prog Db W K O E α) (f : α → Prog Db W K O E β) (g : β → Prog Db W K O E γ) :
    (p >>= f) >>= g = p >>= fun a => f a >>= g := by
  show bind (bind p f) g = bind p fun a => bind (f a) g
  induction p with
  | done a => rfl
  | raise e => rfl
  | lock k p ih => simp only [bind, ih]
  | read p ih => simp only [bind, ih]
  | write w p ih => simp only [bind, ih]
  | note o p ih => simp only [bind, ih]

theorem bind_done (p : Prog Db W K O E α) : p >>= done = p := by
  show bind p done = p
  induction p with
  | done a => rfl
  | raise e => rfl
  | lock k p ih => simp only [bind, ih]
  | read p ih => simp only [bind, ih]
  | write w p ih => simp only [bind, ih]
  | note o p ih => simp only [bind, ih]

instance : LawfulMonad (Prog Db W K O E) :=
  LawfulMonad.mk' _ bind_done (fun _ _ => rfl) bind_assoc

end Prog

/-- The tables: how a write changes them, and which writes their constraints accept. -/
structure Schema (Db W : Type) where
  apply : Db → W → Db
  accepts : Db → W → Bool

/-- The database after a list of writes. -/
def Schema.applyAll (S : Schema Db W) (db : Db) (ws : List W) : Db := ws.foldl S.apply db

@[simp] theorem Schema.applyAll_nil (S : Schema Db W) (db : Db) : S.applyAll db [] = db := rfl

@[simp] theorem Schema.applyAll_cons (S : Schema Db W) (db : Db) (w : W) (ws : List W) :
    S.applyAll db (w :: ws) = S.applyAll (S.apply db w) ws := rfl

theorem Schema.applyAll_append (S : Schema Db W) (db : Db) (v w : List W) :
    S.applyAll db (v ++ w) = S.applyAll (S.applyAll db v) w := by
  simp [applyAll, List.foldl_append]

/-- Why a transaction rolled back. -/
inductive Failure (E : Type)
  | raised (e : E)
  | constraint
  | crash
  deriving DecidableEq

/-! ## A program alone -/

section Alone

variable (S : Schema Db W)

/-- The program alone and without crashes: its value and the database with its writes. -/
def eval : Prog Db W K O E α → Db → Except (Failure E) (α × Db)
  | .done a, db => .ok (a, db)
  | .raise e, _ => .error (.raised e)
  | .lock _ p, db => eval p db
  | .read p, db => eval (p db) db
  | .write w p, db => if S.accepts db w then eval p (S.apply db w) else .error .constraint
  | .note _ p, db => eval p db

/-- The program alone, losing its connection before step `n` when `crash = some n`; `start` is what
a rollback restores. -/
def runFrom (start : Db) : Prog Db W K O E α → Option Nat → Db → Except (Failure E) α × Db
  | _, some 0, _ => (.error .crash, start)
  | .done a, _, db => (.ok a, db)
  | .raise e, _, _ => (.error (.raised e), start)
  | .lock _ p, c, db => runFrom start p (c.map Nat.pred) db
  | .read p, c, db => runFrom start (p db) (c.map Nat.pred) db
  | .write w p, c, db =>
    if S.accepts db w then runFrom start p (c.map Nat.pred) (S.apply db w) else (.error .constraint, start)
  | .note _ p, c, db => runFrom start p (c.map Nat.pred) db

/-- One transaction on a database that nobody else uses. -/
def run (p : Prog Db W K O E α) (crash : Option Nat) (db : Db) : Except (Failure E) α × Db :=
  runFrom S db p crash db

variable {S}

@[simp] theorem eval_done (a : α) (db : Db) : eval S (.done a : Prog Db W K O E α) db = .ok (a, db) := rfl

@[simp] theorem eval_fail (e : E) (db : Db) :
    eval S (Prog.fail e : Prog Db W K O E α) db = .error (.raised e) := rfl

@[simp] theorem eval_lock (k : K) (p : Prog Db W K O E α) (db : Db) :
    eval S (.lock k p) db = eval S p db := rfl

@[simp] theorem eval_read (p : Db → Prog Db W K O E α) (db : Db) :
    eval S (.read p) db = eval S (p db) db := rfl

theorem eval_write (w : W) (p : Prog Db W K O E α) (db : Db) :
    eval S (.write w p) db = if S.accepts db w then eval S p (S.apply db w) else .error .constraint := rfl

/-- A program that went on past a write had it accepted. -/
theorem eval_write_ok {w : W} {p : Prog Db W K O E α} {db db' : Db} {a : α}
    (h : eval S (.write w p) db = .ok (a, db')) :
    S.accepts db w = true ∧ eval S p (S.apply db w) = .ok (a, db') := by
  rw [eval_write] at h
  split at h
  · exact ⟨by assumption, h⟩
  · cases h

theorem eval_bind (p : Prog Db W K O E α) (f : α → Prog Db W K O E β) (db : Db) :
    eval S (p >>= f) db = eval S p db >>= fun r => eval S (f r.1) r.2 := by
  show eval S (Prog.bind p f) db = _
  induction p generalizing db with
  | done a => rfl
  | raise e => rfl
  | lock k p ih => exact ih db
  | read p ih => exact ih db db
  | write w p ih =>
    simp only [Prog.bind, eval]
    split
    · exact ih _
    · rfl
  | note o p ih => exact ih db

/-- A sequence whose first part ends normally. -/
theorem eval_bind_of_ok {p : Prog Db W K O E α} {f : α → Prog Db W K O E β} {db db₁ : Db} {a : α}
    (h : eval S p db = .ok (a, db₁)) : eval S (p >>= f) db = eval S (f a) db₁ := by
  rw [eval_bind, h]
  rfl

/-- A sequence whose first part fails. -/
theorem eval_bind_of_error {p : Prog Db W K O E α} {f : α → Prog Db W K O E β} {db : Db} {e : Failure E}
    (h : eval S p db = .error e) : eval S (p >>= f) db = .error e := by
  rw [eval_bind, h]
  rfl

/-- From a sequence that ends normally, its two parts. -/
theorem eval_bind_ok {p : Prog Db W K O E α} {f : α → Prog Db W K O E β} {db db' : Db} {b : β}
    (h : eval S (p >>= f) db = .ok (b, db')) :
    ∃ a db₁, eval S p db = .ok (a, db₁) ∧ eval S (f a) db₁ = .ok (b, db') := by
  rw [eval_bind] at h
  cases hp : eval S p db with
  | error e => rw [hp] at h; cases h
  | ok r => rw [hp] at h; exact ⟨r.1, r.2, rfl, h⟩

/-- The result a crash-free run hands to `run`. -/
def settle (start : Db) : Except (Failure E) (α × Db) → Except (Failure E) α × Db
  | .ok (a, db) => (.ok a, db)
  | .error e => (.error e, start)

theorem runFrom_none (start : Db) (p : Prog Db W K O E α) (db : Db) :
    runFrom S start p none db = settle start (eval S p db) := by
  induction p generalizing db with
  | done a => rfl
  | raise e => rfl
  | lock k p ih => simpa only [runFrom, Option.map_none, eval] using ih db
  | read p ih => simpa only [runFrom, Option.map_none, eval] using ih db db
  | write w p ih =>
    simp only [runFrom, Option.map_none, eval]
    split
    · exact ih _
    · rfl
  | note o p ih => simpa only [runFrom, Option.map_none, eval] using ih db

/-- A crash either strikes, and rolls back, or comes too late to matter. -/
theorem runFrom_crash (start : Db) (p : Prog Db W K O E α) (n : Nat) (db : Db) :
    runFrom S start p (some n) db = (.error .crash, start) ∨
      runFrom S start p (some n) db = runFrom S start p none db := by
  induction p generalizing n db with
  | done a => cases n <;> simp [runFrom]
  | raise e => cases n <;> simp [runFrom]
  | lock k p ih =>
    cases n with
    | zero => exact Or.inl rfl
    | succ n => exact ih n db
  | read p ih =>
    cases n with
    | zero => exact Or.inl rfl
    | succ n => exact ih db n db
  | write w p ih =>
    cases n with
    | zero => exact Or.inl rfl
    | succ n =>
      simp only [runFrom, Option.map_some, Option.map_none]
      split
      · exact ih n _
      · exact Or.inr rfl
  | note o p ih =>
    cases n with
    | zero => exact Or.inl rfl
    | succ n => exact ih n db

/-- A transaction that did not end normally left the database as it was. -/
theorem run_error {p : Prog Db W K O E α} {c : Option Nat} {db db' : Db} {e : Failure E}
    (h : run S p c db = (.error e, db')) : db' = db := by
  have hn : ∀ {e' db'}, runFrom S db p none db = (.error e', db') → db' = db := by
    intro e' db' h'
    rw [runFrom_none] at h'
    cases hev : eval S p db with
    | ok r => rw [hev] at h'; cases h'
    | error e'' => rw [hev] at h'; cases h'; rfl
  unfold run at h
  cases c with
  | none => exact hn h
  | some n =>
    rcases runFrom_crash (S := S) db p n db with h' | h'
    · rw [h'] at h; cases h; rfl
    · rw [h'] at h; exact hn h

/-- A transaction that ended normally is the crash-free one. -/
theorem run_ok {p : Prog Db W K O E α} {c : Option Nat} {db db' : Db} {a : α}
    (h : run S p c db = (.ok a, db')) : eval S p db = .ok (a, db') := by
  have hn : runFrom S db p none db = (.ok a, db') → eval S p db = .ok (a, db') := by
    intro h'
    rw [runFrom_none] at h'
    cases hev : eval S p db with
    | ok r => rw [hev] at h'; cases h'; rfl
    | error e => rw [hev] at h'; cases h'
  unfold run at h
  cases c with
  | none => exact hn h
  | some n =>
    rcases runFrom_crash (S := S) db p n db with h' | h'
    · rw [h'] at h; cases h
    · rw [h'] at h; exact hn h

/-- Without a crash, `run` is `eval` with the rollback. -/
theorem run_none (p : Prog Db W K O E α) (db : Db) : run S p none db = settle db (eval S p db) :=
  runFrom_none db p db

end Alone

end TrackFlow.ReadCommitted
