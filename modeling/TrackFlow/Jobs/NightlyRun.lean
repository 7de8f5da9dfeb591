import TrackFlow.Jobs.JobRuns
import TrackFlow.Python.Raising

/-!
# The nightly run

`execute_nightly_run` acquires a job run, exports a day, runs the pipeline and writes the end of the
run. Whatever the export, the pipeline, the database and a termination signal do (`Nightly`):

- `terminalTransition_spec`: what a terminal transition leaves of the row, whether it returns or raises;
- `work_spec`: the row is completed only after the export and the pipeline have succeeded;
- `nightly_outcome`: what the outcome of a run says about its row, for every exception that the run handles;
- `exit_left_processing`: a `SystemExit` of the pipeline goes past the handler, and the row stays
  processing.
-/

namespace TrackFlow.Jobs

open TrackFlow.Python

/-! ## Exceptions -/

/-- The classes of the script's own exceptions. -/
inductive NightlyKind
  | nightlyExportError
  | nightlyConfigurationError
  | csvArtifactError
  | pipelineProcessError
  | controlledInterruption
  | manualReconciliationRequired
  | terminalStateError
  deriving DecidableEq

/-- What Python may raise: an exception of the script, another `Exception`, a `KeyboardInterrupt`,
or another `BaseException` such as `SystemExit`. -/
inductive Raised
  | nightly (kind : NightlyKind) (message : String)
  | exception (name : String)
  | keyboardInterrupt
  | base (name : String)

namespace Raised

/-- An `Exception`. -/
def isException : Raised → Bool
  | nightly _ _ => true
  | exception _ => true
  | _ => false

/-- `except (Exception, KeyboardInterrupt)`. -/
def caught : Raised → Bool
  | keyboardInterrupt => true
  | e => e.isException

/-- `isinstance(primary_error, ManualReconciliationRequired)`. -/
def isManual : Raised → Bool
  | nightly .manualReconciliationRequired _ => true
  | _ => false

/-- `isinstance(error, TerminalStateError)`. -/
def isTerminal : Raised → Bool
  | nightly .terminalStateError _ => true
  | _ => false

/-- `type(e).__name__` of an exception that is not the script's own. -/
def typeName : Raised → String
  | nightly _ _ => "NightlyExportError"
  | exception name => name
  | keyboardInterrupt => "KeyboardInterrupt"
  | base name => name

end Raised

/-- `_safe_diagnostic`. -/
def safeDiagnostic : Raised → String
  | .nightly _ message => takeText 500 message
  | e => takeText 500 (e.typeName ++ " during nightly execution")

/-- `_WHITESPACE.sub(" ", message)`. -/
def collapseSpaces : Bool → List Char → List Char
  | _, [] => []
  | inside, c :: cs => if isSpace c then if inside then collapseSpaces true cs else ' ' :: collapseSpaces true cs
    else c :: collapseSpaces false cs

/-- `sanitize_error_message` of a text; `sensitive` is `_SENSITIVE_ERROR_HINT.search`. -/
def sanitizeErrorMessage (sensitive : String → Bool) (message : String) : String :=
  if sensitive message then "job failed; sensitive details redacted"
  else
    let message := strip (String.ofList (collapseSpaces false message.toList))
    takeText 500 (if message = "" then "background job failed" else message)

/-- The classes of `JobRunError`. -/
def JobRunError.raised : JobRunError → Raised
  | .validation _ => .exception "JobRunValidationError"
  | .persistence _ => .exception "JobRunPersistenceError"

/-! ## The environment -/

/-- What the database, or a signal, raises inside a terminal transition. -/
inductive Fault
  | integrityError
  | sqlAlchemyError
  | interruption (signal : String)
  | exception (name : String)
  | keyboardInterrupt
  | base (name : String)

/-- What the handler of a signal raises. -/
def interruption (signal : String) : Raised :=
  .nightly .controlledInterruption ("nightly execution interrupted by " ++ signal)

/-- The `except` clauses of `_terminal_transition`. -/
def Fault.raised : Fault → Raised
  | integrityError => (JobRunError.persistence "terminal transition violated job-run integrity").raised
  | sqlAlchemyError => (JobRunError.persistence "terminal transition failed").raised
  | interruption signal => Jobs.interruption signal
  | exception name => .exception name
  | keyboardInterrupt => .keyboardInterrupt
  | base name => .base name

/-- The stages of a terminal transition; what is raised at `close` comes after the commit. -/
inductive Stage
  | connect
  | update
  | select
  | commit
  | close

/-- What somebody else may do to the row of a run; nobody else completes it. -/
inductive Meanwhile
  | nothing
  | deleted
  | failed (finishedAt : Int) (message : String)

/-- `AcquisitionStatus`. -/
inductive AcquisitionStatus
  | acquired
  | skippedProcessing
  | skippedCompleted
  | skippedConflict
  deriving DecidableEq

/-- The text of an acquisition status. -/
def AcquisitionStatus.text : AcquisitionStatus → String
  | acquired => "acquired"
  | skippedProcessing => "skipped_processing"
  | skippedCompleted => "skipped_completed"
  | skippedConflict => "skipped_conflict"

/-- Where a signal may arrive outside of the export, the pipeline and the completion write. -/
inductive Point
  | entering
  | exported
  | piped
  | restoring

/-- The environment of a run. -/
structure Nightly where
  acquisition : Except Raised (AcquisitionStatus × JobRun)
  exportRaises : Option Raised := none
  pipelineRaises : Option Raised := none
  interrupted : Point → Option String := fun _ => none
  beforeCompletion : Meanwhile := .nothing
  completion : Stage → Option Fault := fun _ => none
  completedAt : Int
  beforeFailure : Meanwhile := .nothing
  failure : Stage → Option Fault := fun _ => none
  failedAt : Int
  sensitive : String → Bool

/-! ## The run -/

/-- A program on the row of the run. -/
abbrev Run (α : Type) : Type := Raising (Option JobRun) Raised α

open Raising

/-- A call that raises, or does nothing to the row. -/
def mayRaise : Option Raised → Run Unit
  | some e => raise e
  | none => pure ()

/-- What somebody else does. -/
def Meanwhile.apply : Meanwhile → Option JobRun → Option JobRun
  | nothing, row => row
  | deleted, _ => none
  | failed finishedAt message, row =>
      row.map fun r => if r.status = .processing then r.fail finishedAt message else r

/-- `_SELECT_BY_ID` of `_terminal_transition`, and the end of its transaction. -/
def unchangedRun (faults : Stage → Option Fault) : Run (Bool × JobRun) := do
  mayRaise ((faults .select).map Fault.raised)
  match ← get with
  | none => raise (JobRunError.validation "job run was not found").raised
  | some row =>
    let row ← Raising.ofExcept ((record row).mapError JobRunError.raised)
    mayRaise ((faults .commit).map Fault.raised)
    mayRaise ((faults .close).map Fault.raised)
    return (false, row)

/-- `_terminal_transition`: the compare-and-set of a processing row. -/
def terminalTransition (faults : Stage → Option Fault) (finish : JobRun → JobRun) :
    Run (Bool × JobRun) := do
  mayRaise ((faults .connect).map Fault.raised)
  mayRaise ((faults .update).map Fault.raised)
  match ← get with
  | none => unchangedRun faults
  | some row =>
    if row.status ≠ .processing then unchangedRun faults
    else if (finish row).checked = false then raise Fault.integrityError.raised
    else
      let ended ← Raising.ofExcept ((record (finish row)).mapError JobRunError.raised)
      mayRaise ((faults .commit).map Fault.raised)
      modify fun _ => some (finish row)
      mayRaise ((faults .close).map Fault.raised)
      return (true, ended)

variable (x : Nightly)

/-- The body of the `try`, under the signal handlers. -/
def work : Run Unit := do
  mayRaise ((x.interrupted .entering).map interruption)
  mayRaise x.exportRaises
  mayRaise ((x.interrupted .exported).map interruption)
  mayRaise x.pipelineRaises
  mayRaise ((x.interrupted .piped).map interruption)
  modify x.beforeCompletion.apply
  let (changed, run) ← terminalTransition x.completion fun r => r.complete x.completedAt
  if changed = false ∨ run.status ≠ .completed then
    raise (.nightly .terminalStateError "completed state was not confirmed")

/-- `_controlled_signal_handlers`: a signal may arrive while the handlers are taken down after an
exception. -/
def controlled : Run Unit := tryCatch (work x) fun e => do
  mayRaise ((x.interrupted .restoring).map interruption)
  raise e

/-- The failure write. -/
def writeFailure (diagnostic : String) : Run Unit := do
  modify x.beforeFailure.apply
  let (changed, run) ← terminalTransition x.failure fun r =>
    r.fail x.failedAt (sanitizeErrorMessage x.sensitive diagnostic)
  if changed = false ∨ run.status ≠ .failed then
    raise (.nightly .terminalStateError "failed state was not confirmed")

/-- The handler of the primary error. -/
def handle (e : Raised) : Run Unit :=
  if e.caught = false then raise e
  else if e.isManual then raise e
  else do
    match ← attempt (writeFailure x (safeDiagnostic e)) with
    | .ok () => raise e
    | .error terminal =>
      if terminal.isException then
        raise (.nightly .terminalStateError
          "nightly work failed and the failed state could not be confirmed")
      else raise terminal

/-- `execute_nightly_run`. -/
def executeNightlyRun : Run String := do
  let (status, _) ← Raising.ofExcept x.acquisition
  if status ≠ .acquired then return status.text
  tryCatch (controlled x) (handle x)
  return "completed"

/-! ## What each part leaves -/

section Spec

variable {s : Option JobRun}

/-- A call that may raise leaves the row, and what it raises is what it may raise. -/
theorem post_mayRaise {α : Type} {o : Option Raised} {k : Unit → Run α}
    {Q : Except Raised α → Option JobRun → Prop} (hok : o = none → Post (k ()) Q s)
    (herr : ∀ e, o = some e → Q (.error e) s) : Post (mayRaise o >>= k) Q s := by
  cases o with
  | none => exact post_bind (hok rfl)
  | some e => exact post_bind (herr e rfl)

/-- The check of a returned row hands the row on, or raises. -/
theorem post_record {α : Type} {row : JobRun} {k : JobRun → Run α}
    {Q : Except Raised α → Option JobRun → Prop}
    (hok : Post (k row) Q s) (herr : ∀ e : JobRunError, Q (.error e.raised) s) :
    Post (Raising.ofExcept ((record row).mapError JobRunError.raised) >>= k) Q s := by
  refine post_bind (post_ofExcept ?_)
  cases hrec : record row with
  | error e => exact herr e
  | ok row' =>
    obtain rfl := record_eq hrec
    exact hok

theorem raised_not_manual (f : Fault) : f.raised.isManual = false := by cases f <;> rfl

/-- What a terminal transition may raise. -/
def WriteError (faults : Stage → Option Fault) (e : Raised) : Prop :=
  (e.isException = true ∧ e.isManual = false) ∨ ∃ st f, faults st = some f ∧ f.raised = e

theorem WriteError.of_fault {faults : Stage → Option Fault} {st : Stage} {e : Raised}
    (h : (faults st).map Fault.raised = some e) : WriteError faults e := by
  obtain ⟨f, hf, he⟩ := Option.map_eq_some_iff.1 h
  exact Or.inr ⟨st, f, hf, he⟩

theorem WriteError.of_jobRun (faults : Stage → Option Fault) (e : JobRunError) :
    WriteError faults e.raised := by
  cases e <;> exact Or.inl ⟨rfl, rfl⟩

theorem WriteError.not_manual {faults : Stage → Option Fault} {e : Raised} (h : WriteError faults e) :
    e.isManual = false := by
  rcases h with ⟨-, h⟩ | ⟨st, f, -, rfl⟩
  · exact h
  · exact raised_not_manual f

/-- What a terminal transition leaves of a row, and what it returns or raises. -/
def Written (faults : Stage → Option Fault) (finish : JobRun → JobRun) (s : Option JobRun) :
    Except Raised (Bool × JobRun) → Option JobRun → Prop
  | .ok (true, run), s' => ∃ row, s = some row ∧ row.status = .processing ∧ run = finish row ∧ s' = some (finish row)
  | .ok (false, run), s' => s' = s ∧ s = some run
  | .error e, s' => WriteError faults e ∧
      (s' = s ∨ ∃ row, s = some row ∧ row.status = .processing ∧ s' = some (finish row))

theorem unchangedRun_spec (faults : Stage → Option Fault) (finish : JobRun → JobRun) :
    Post (unchangedRun faults) (Written faults finish s) s := by
  unfold unchangedRun
  refine post_mayRaise (fun _ => ?_) fun e he => ⟨.of_fault he, Or.inl rfl⟩
  refine post_bind (post_get ?_)
  cases s with
  | none => exact ⟨.of_jobRun faults (.validation "job run was not found"), Or.inl rfl⟩
  | some row =>
    unfold andThen
    dsimp only
    refine post_record ?_ fun e => ⟨.of_jobRun faults e, Or.inl rfl⟩
    refine post_mayRaise (fun _ => ?_) fun e he => ⟨.of_fault he, Or.inl rfl⟩
    refine post_mayRaise (fun _ => ?_) fun e he => ⟨.of_fault he, Or.inl rfl⟩
    exact ⟨rfl, rfl⟩

theorem terminalTransition_spec (faults : Stage → Option Fault) (finish : JobRun → JobRun) :
    Post (terminalTransition faults finish) (Written faults finish s) s := by
  unfold terminalTransition
  refine post_mayRaise (fun _ => ?_) fun e he => ⟨.of_fault he, Or.inl rfl⟩
  refine post_mayRaise (fun _ => ?_) fun e he => ⟨.of_fault he, Or.inl rfl⟩
  refine post_bind (post_get ?_)
  cases s with
  | none => exact unchangedRun_spec faults finish
  | some row =>
    unfold andThen
    dsimp only
    split
    · exact unchangedRun_spec faults finish
    · rename_i hs
      have hprocessing : row.status = .processing := not_not.1 hs
      split
      · exact ⟨.of_jobRun faults (.persistence "terminal transition violated job-run integrity"),
            Or.inl rfl⟩
      · refine post_record ?_ fun e => ⟨.of_jobRun faults e, Or.inl rfl⟩
        refine post_mayRaise (fun _ => ?_) fun e he => ⟨.of_fault he, Or.inl rfl⟩
        refine post_bind (post_modify ?_)
        -- From here on the transaction has committed.
        unfold andThen
        dsimp only
        refine post_mayRaise (fun _ => ?_) fun e he => ⟨.of_fault he, Or.inr ⟨row, rfl, hprocessing, rfl⟩⟩
        exact ⟨row, rfl, hprocessing, rfl, rfl⟩

variable {row : JobRun}

/-- Where an exception of the work comes from. -/
def Origin (x : Nightly) (e : Raised) : Prop :=
  e.isException = true ∨ x.exportRaises = some e ∨ x.pipelineRaises = some e ∨
    ∃ st f, x.completion st = some f ∧ f.raised = e

/-- What the work leaves: a completed row, or an exception. Unless the export and the pipeline have
succeeded, the row is what it was. -/
def Worked (x : Nightly) (row : JobRun) : Except Raised Unit → Option JobRun → Prop
  | .ok (), s' => x.exportRaises = none ∧ x.pipelineRaises = none ∧ ∃ row', s' = some row' ∧
    row'.id = row.id ∧ row'.status = .completed
  | .error e, s' => Origin x e ∧ (s' = some row ∨
      (x.exportRaises = none ∧ x.pipelineRaises = none ∧ e.isManual = false ∧ ∀ r, s' = some r →
        r.id = row.id))

theorem interruption_exception {o : Option String} {e : Raised} (h : o.map interruption = some e) :
    e.isException = true ∧ e.isManual = false := by
  obtain ⟨signal, -, rfl⟩ := Option.map_eq_some_iff.1 h
  exact ⟨rfl, rfl⟩

/-- What somebody else does keeps the identifier and completes nothing. -/
theorem Meanwhile.apply_some {m : Meanwhile} {old new : JobRun} (h : m.apply (some old) = some new) :
    new.id = old.id ∧ (old.status ≠ .completed → new.status ≠ .completed) ∧
      (new.status = .processing → new = old) := by
  cases m with
  | nothing =>
    obtain rfl := Option.some.inj h
    exact ⟨rfl, id, fun _ => rfl⟩
  | deleted => cases h
  | failed finishedAt message =>
    obtain rfl := Option.some.inj h
    dsimp only
    split
    · exact ⟨rfl, fun _ => by simp [JobRun.fail], fun hp => by cases hp⟩
    · exact ⟨rfl, id, fun _ => rfl⟩

theorem Meanwhile.apply_none (m : Meanwhile) : m.apply none = none := by cases m <;> rfl

theorem work_spec (x : Nightly) (row : JobRun) : Post (work x) (Worked x row) (some row) := by
  unfold work
  refine post_mayRaise (fun _ => ?_) fun e he => ⟨Or.inl (interruption_exception he).1, Or.inl rfl⟩
  refine post_mayRaise (fun hexport => ?_) fun e he => ⟨Or.inr (Or.inl he), Or.inl rfl⟩
  refine post_mayRaise (fun _ => ?_) fun e he => ⟨Or.inl (interruption_exception he).1, Or.inl rfl⟩
  refine post_mayRaise (fun hpipeline => ?_) fun e he => ⟨Or.inr (Or.inr (Or.inl he)), Or.inl rfl⟩
  refine post_mayRaise (fun _ => ?_) fun e he => ⟨Or.inl (interruption_exception he).1, Or.inl rfl⟩
  refine post_bind (post_modify ?_)
  unfold andThen
  dsimp only
  have hid : ∀ r, x.beforeCompletion.apply (some row) = some r → r.id = row.id :=
    fun r hr => (Meanwhile.apply_some hr).1
  refine post_seq (terminalTransition_spec _ _) (fun ⟨changed, run⟩ s' h => ?_) (fun e s' h => ?_)
  · dsimp only
    split
    · refine post_raise ⟨Or.inl rfl, Or.inr ⟨hexport, hpipeline, rfl, fun r hr => ?_⟩⟩
      cases changed with
      | false => exact hid r (h.1 ▸ hr)
      | true =>
        obtain ⟨old, hold, -, -, rfl⟩ := h
        obtain rfl := Option.some.inj hr
        exact hid old hold
    · rename_i hno
      rw [not_or, not_not] at hno
      cases changed with
      | false => exact absurd rfl hno.1
      | true =>
        obtain ⟨old, hold, -, rfl, rfl⟩ := h
        exact ⟨hexport, hpipeline, _, rfl, hid old hold, rfl⟩
  · obtain ⟨herr, hs'⟩ := h
    refine ⟨?_, Or.inr ⟨hexport, hpipeline, herr.not_manual, fun r hr => ?_⟩⟩
    · rcases herr with ⟨hexc, -⟩ | hfault
      · exact Or.inl hexc
      · exact Or.inr (Or.inr (Or.inr hfault))
    · rcases hs' with rfl | ⟨old, hold, -, rfl⟩
      · exact hid r hr
      · obtain rfl := Option.some.inj hr
        exact hid old hold

theorem controlled_spec (x : Nightly) (row : JobRun) : Post (controlled x) (Worked x row) (some row) := by
  refine post_tryCatch (work_spec x row) (fun _ s' h => h) (fun e s' h => ?_)
  refine post_mayRaise (fun _ => post_raise h) fun e' he' => ?_
  obtain ⟨hexc, hmanual⟩ := interruption_exception he'
  refine ⟨Or.inl hexc, h.2.imp id fun ⟨hexport, hpipeline, _, hid⟩ => ⟨hexport, hpipeline, hmanual, hid⟩⟩

/-- What the failure write leaves of a row: one that is failed, or an exception. -/
def FailureWritten (x : Nightly) (row : JobRun) (s : Option JobRun) :
    Except Raised Unit → Option JobRun → Prop :=
  fun r s' => (r = .ok () → ∃ row', s' = some row' ∧ row'.id = row.id ∧ row'.status = .failed) ∧
    (∀ e, r = .error e → e.isException = true ∨ ∃ st f, x.failure st = some f ∧ f.raised = e) ∧
    ((∀ r, s = some r → r.status ≠ .completed) → ∀ r, s' = some r → r.status ≠ .completed)

theorem writeFailure_spec (x : Nightly) (diagnostic : String) (hid : ∀ r, s = some r → r.id = row.id) :
    Post (writeFailure x diagnostic) (FailureWritten x row s) s := by
  unfold writeFailure
  refine post_bind (post_modify ?_)
  unfold andThen
  dsimp only
  have happly : ∀ r, x.beforeFailure.apply s = some r →
      r.id = row.id ∧ ((∀ r, s = some r → r.status ≠ .completed) → r.status ≠ .completed) := by
    intro r hr
    cases s with
    | none =>
      rw [Meanwhile.apply_none] at hr
      cases hr
    | some old =>
      obtain ⟨hid', hstatus, -⟩ := Meanwhile.apply_some hr
      exact ⟨hid'.trans (hid old rfl), fun h => hstatus (h old rfl)⟩
  refine post_seq (terminalTransition_spec _ _) (fun ⟨changed, run⟩ s' h => ?_) (fun e s' h => ?_)
  · cases changed with
    | false =>
      obtain ⟨rfl, -⟩ := h
      rw [if_pos (Or.inl rfl)]
      refine post_raise ⟨fun h => ?_, fun e h => ?_, fun h r hr => (happly r hr).2 h⟩
      · cases h
      · obtain rfl := Except.error.inj h
        exact Or.inl rfl
    | true =>
      obtain ⟨old, hold, -, rfl, rfl⟩ := h
      rw [if_neg (by simp [JobRun.fail])]
      refine post_pure ⟨fun _ => ⟨_, rfl, (happly old hold).1, rfl⟩, fun e h => ?_, fun _ r hr => ?_⟩
      · cases h
      · obtain rfl := Option.some.inj hr
        intro hc
        cases hc
  · obtain ⟨herr, hs'⟩ := h
    refine ⟨fun h => ?_, fun e' he' => ?_, fun h r hr => ?_⟩
    · cases h
    · obtain rfl := Except.error.inj he'
      exact herr.imp And.left id
    · rcases hs' with rfl | ⟨old, -, -, rfl⟩
      · exact (happly r hr).2 h
      · obtain rfl := Option.some.inj hr
        intro hc
        cases hc

end Spec

/-! ## The outcome -/

/-- What the outcome of a run says about its row. -/
structure Outcome (x : Nightly) (row : JobRun) (r : Except Raised String) (s : Option JobRun) : Prop where
  completed : ∀ t, r = .ok t → t = "completed" ∧ x.exportRaises = none ∧ x.pipelineRaises = none ∧
    ∃ row', s = some row' ∧ row'.id = row.id ∧ row'.status = .completed
  manual : ∀ e, r = .error e → e.isManual = true → s = some row
  handled : ∀ e, r = .error e → e.caught = true → e.isManual = false →
    e.isTerminal = true ∨ ∃ row', s = some row' ∧ row'.id = row.id ∧ row'.status = .failed
  escaped : ∀ e, r = .error e → e.caught = false →
    x.exportRaises = some e ∨ x.pipelineRaises = some e ∨ ∃ st f, x.completion st = some f ∧ f.raised = e
  never : (x.exportRaises ≠ none ∨ x.pipelineRaises ≠ none) → ∀ row', s = some row' →
    row'.status ≠ .completed

/-- The outcome of a run that raises. -/
theorem Outcome.of_error {x : Nightly} {row : JobRun} {e : Raised} {s : Option JobRun}
    (hmanual : e.isManual = true → s = some row)
    (hhandled : e.caught = true → e.isManual = false →
      e.isTerminal = true ∨ ∃ row', s = some row' ∧ row'.id = row.id ∧ row'.status = .failed)
    (hescaped : e.caught = false →
      x.exportRaises = some e ∨ x.pipelineRaises = some e ∨ ∃ st f, x.completion st = some f ∧ f.raised = e)
    (hnever : (x.exportRaises ≠ none ∨ x.pipelineRaises ≠ none) → ∀ row', s = some row' →
      row'.status ≠ .completed) :
    Outcome x row (.error e) s where
  completed t ht := by cases ht
  manual e' he' := by
    obtain rfl := Except.error.inj he'
    exact hmanual
  handled e' he' := by
    obtain rfl := Except.error.inj he'
    exact hhandled
  escaped e' he' := by
    obtain rfl := Except.error.inj he'
    exact hescaped
  never := hnever

theorem caught_of_exception {e : Raised} (h : e.isException = true) : e.caught = true := by
  cases e with
  | keyboardInterrupt => rfl
  | nightly kind message => rfl
  | exception name => rfl
  | base name => cases h

theorem not_manual_of_uncaught {e : Raised} (h : e.caught = false) : e.isManual = false := by
  cases e with
  | nightly kind message => cases h
  | _ => rfl

/-- The handler writes the failure, and raises what tells how that ended. -/
theorem handle_spec {x : Nightly} {row : JobRun} (hrow : row.status = .processing)
    (hfailure : ∀ st f, x.failure st = some f → f.raised.isException = true) {e : Raised}
    {s : Option JobRun} (h : Worked x row (.error e) s) :
    Post (handle x e) (fun r s' => Outcome x row (r.map fun _ => "completed") s') s := by
  obtain ⟨horigin, hs⟩ := h
  have hnever : (x.exportRaises ≠ none ∨ x.pipelineRaises ≠ none) → ∀ r, s = some r →
      r.status ≠ .completed := by
    intro hfailed r hr
    rcases hs with rfl | ⟨hexport, hpipeline, -⟩
    · obtain rfl := Option.some.inj hr
      simp [hrow]
    · exact absurd hfailed (by simp [hexport, hpipeline])
  have hid : ∀ r, s = some r → r.id = row.id := by
    intro r hr
    rcases hs with rfl | ⟨-, -, -, hid⟩
    · obtain rfl := Option.some.inj hr
      rfl
    · exact hid r hr
  unfold handle
  split
  case isTrue huncaught =>
    -- The exception goes past the handler.
    have hmanual := not_manual_of_uncaught huncaught
    refine post_raise (Outcome.of_error (by simp [hmanual]) (by simp [huncaught]) (fun _ => ?_) hnever)
    rcases horigin with hexc | horigin
    · rw [caught_of_exception hexc] at huncaught
      cases huncaught
    · exact horigin
  case isFalse hcaught =>
    split
    case isTrue hmanual =>
      refine post_raise (Outcome.of_error (fun _ => ?_) (by simp [hmanual])
        (fun hc => absurd hc hcaught) hnever)
      rcases hs with hs | ⟨-, -, hno, -⟩
      · exact hs
      · rw [hmanual] at hno
        cases hno
    case isFalse hmanual =>
      refine post_attempt_seq (writeFailure_spec x _ hid) fun r s' hw => ?_
      obtain ⟨hok, herr, hcompleted⟩ := hw
      have hnever' : (x.exportRaises ≠ none ∨ x.pipelineRaises ≠ none) → ∀ r, s' = some r →
          r.status ≠ .completed :=
        fun hfailed => hcompleted (hnever hfailed)
      cases r with
      | ok _ =>
        exact post_raise (Outcome.of_error (fun hm => absurd hm hmanual) (fun _ _ => Or.inr (hok rfl))
          (fun hc => absurd hc hcaught) hnever')
      | error terminal =>
        have hexc : terminal.isException = true := by
          rcases herr terminal rfl with hexc | ⟨st, f, hf, rfl⟩
          · exact hexc
          · exact hfailure st f hf
        dsimp only
        rw [if_pos hexc]
        exact post_raise (Outcome.of_error (fun hm => by cases hm) (fun _ _ => Or.inl rfl)
          (fun hc => by cases hc) hnever')

/-- After an acquisition, whatever the export, the pipeline and the completion write do, and if the
failure write raises nothing but ordinary exceptions: the run returns completed only with a
completed row after an export and a pipeline that have succeeded; it raises
`ManualReconciliationRequired` only with the row as it was acquired; another exception that it
handles leaves a failed row or is a `TerminalStateError`; one that it does not handle is raised as
it came; and the row is never completed when the export or the pipeline has raised. -/
theorem nightly_outcome (x : Nightly) {row : JobRun} (hrow : row.status = .processing)
    (hacquired : x.acquisition = .ok (.acquired, row))
    (hfailure : ∀ st f, x.failure st = some f → f.raised.isException = true) :
    Outcome x row (executeNightlyRun x (some row)).1 (executeNightlyRun x (some row)).2 := by
  suffices h : Post (executeNightlyRun x) (Outcome x row) (some row) from h
  unfold executeNightlyRun
  rw [hacquired]
  refine post_bind (post_ofExcept ?_)
  unfold andThen
  dsimp only
  rw [if_neg (by simp)]
  refine post_seq (P := fun r s' => Outcome x row (r.map fun _ => "completed") s') ?_ (fun _ s' h =>
      h) (fun e s' h => h)
  refine post_tryCatch (controlled_spec x row) (fun _ s' h => ?_) fun e s' h => handle_spec hrow hfailure h
  obtain ⟨hexport, hpipeline, hrow'⟩ := h
  exact {
    completed := fun t ht => by
      obtain rfl := Except.ok.inj ht
      exact ⟨rfl, hexport, hpipeline, hrow'⟩
    manual := fun e he => by cases he
    handled := fun e he => by cases he
    escaped := fun e he => by cases he
    never := fun hfailed => absurd hfailed (by simp [hexport, hpipeline]) }

/-- The nightly export of a date, which has started. -/
def exampleProcessing : JobRun := (JobRun.pendingRun (Uuid.ofNat 7) "nightly_export" 20600 0).start 0

/-- An environment in which everything succeeds, but for the pipeline. -/
def exampleNightly (pipelineRaises : Option Raised) : Nightly where
  acquisition := .ok (.acquired, exampleProcessing)
  pipelineRaises := pipelineRaises
  completedAt := 5
  failedAt := 5
  sensitive := fun _ => false

/-- A pipeline that fails leaves a failed row, or the exception says that this is not confirmed. -/
theorem nightly_outcome_pipeline : Outcome
    (exampleNightly (some (.nightly .pipelineProcessError "pipeline execution failed (exit code 1)")))
      exampleProcessing
    (executeNightlyRun (exampleNightly
        (some (.nightly .pipelineProcessError "pipeline execution failed (exit code 1)")))
      (some exampleProcessing)).1
    (executeNightlyRun (exampleNightly
        (some (.nightly .pipelineProcessError "pipeline execution failed (exit code 1)")))
      (some exampleProcessing)).2 :=
  nightly_outcome _ rfl rfl (fun _ _ h => by cases h)

theorem exit_run : executeNightlyRun (exampleNightly (some (.base "SystemExit"))) (some exampleProcessing) =
    (.error (.base "SystemExit"), some exampleProcessing) := rfl

/-- A `SystemExit` of the pipeline: neither is the row failed, nor the exception a `TerminalStateError`. -/
theorem exit_left_processing : ¬ ∀ (x : Nightly) (row : JobRun), row.status = .processing →
    x.acquisition = .ok (.acquired, row) → (∀ st f, x.failure st = some f → f.raised.isException = true) →
    ∀ e, (executeNightlyRun x (some row)).1 = .error e → e.isManual = false → e.isTerminal = true ∨
      ∃ row', (executeNightlyRun x (some row)).2 = some row' ∧ row'.status = .failed := by
  intro h
  have hexit := h (exampleNightly (some (.base "SystemExit"))) exampleProcessing rfl rfl
    (fun _ _ h => by cases h) (.base "SystemExit")
  rw [exit_run] at hexit
  rcases hexit rfl rfl with hterminal | ⟨row', hrow', hfailed⟩
  · cases hterminal
  · obtain rfl := Option.some.inj hrow'
    cases hfailed

end TrackFlow.Jobs
