import TrackFlow.Jobs.NightlyRun

/-!
# The pipeline child

`run_pipeline` on POSIX with the handlers of `_controlled_signal_handlers`. The parent goes on by
steps; before each one something may have happened (`Tick`): a signal arrived, the child exited, its
group changed, time passed. A run is what the parent does under a list of ticks; when they are used
up it is unfinished.

A signal that is not blocked raises at the next step of the parent. What the theorems about runs
look at is kept in the state and read by nothing in the program: the signals that were delivered or
consumed (`Notice`), whether an exception is being handled, and whether the group of the child was
found empty.
-/

namespace TrackFlow.Jobs.ChildProcess

open TrackFlow.Python TrackFlow.Python.Raising

/-! ## The environment -/

/-- The signals that are watched. -/
inductive Signal
  | sigint
  | sigterm
  deriving DecidableEq

/-- `signal.Signals(signum).name`. -/
def Signal.name : Signal → String
  | sigint => "SIGINT"
  | sigterm => "SIGTERM"

/-- What happens before a step of the parent: a signal, the exit of the child, the number of its
descendants in the group, and some time; `denied` says that `killpg` may not signal any of the
group. -/
structure Tick where
  signal : Option Signal := none
  exit : Option Int := none
  others : Nat := 0
  elapsed : Nat := 0
  denied : Bool := false

/-- The child, which leads a session and a group of its own. -/
inductive Child
  | absent
  | running
  | exited (code : Int)
  | reaped (code : Int)
  deriving DecidableEq

/-- What became of a signal: it raised, or the end of a block consumed it. -/
inductive Notice
  /-- It raised in this state: whether an exception was being handled, and whether the child was
  gone or had not been made. -/
  | delivered (handling : Bool) (gone : Bool)
  /-- It was consumed at the end of a block, which may be inside another one. -/
  | consumed (inner : Bool)
  deriving DecidableEq

/-- The parent and what surrounds it. -/
structure World where
  ticks : List Tick
  now : Int := 0
  blocked : Bool := false
  pending : List Signal := []
  child : Child := .absent
  others : Nat := 0
  denied : Bool := false
  cleanupConfirmed : Bool := false
  handling : Bool := false
  groupSeenEmpty : Bool := false
  notices : List Notice := []

/-- What ends a part of the program: an exception, or the end of the ticks. -/
inductive Stop
  | raised (e : Raised)
  | unfinished

/-- A part of the program. -/
abbrev Act (α : Type) : Type := Raising World Stop α

/-- `raise`. -/
def raised {α : Type} (e : Raised) : Act α := raise (.raised e)

/-- Members of the group: the child until it is reaped, and its descendants. -/
def World.groupExists (w : World) : Bool :=
  w.others ≠ 0 || (match w.child with
    | .running => true
    | .exited _ => true
    | _ => false)

/-- The child is reaped, and its group was found empty; or there is no child. -/
def World.gone (w : World) : Bool :=
  match w.child with
  | .absent => true
  | .reaped _ => w.groupSeenEmpty
  | _ => false

/-- A tick happens: the child may exit, and a group that has members may change. -/
def World.happen (w : World) (t : Tick) : World :=
  { w with
    now := w.now + t.elapsed
    child := match w.child, t.exit with
      | .running, some code => .exited code
      | child, _ => child
    others := if w.child = .running ∨ w.others ≠ 0 then t.others else 0
    denied := t.denied
    pending := match t.signal with
      | some s => if s ∈ w.pending then w.pending else w.pending ++ [s]
      | none => w.pending }

/-- A signal that is not blocked raises. -/
def deliver : Act Unit := fun w =>
  match w.blocked, w.pending with
  | false, s :: rest =>
    (.error (.raised (interruption s.name)),
      { w with pending := rest, notices := w.notices ++ [.delivered w.handling w.gone] })
  | _, _ => (.ok (), w)

/-- What may happen before the next step. -/
def step : Act Unit := fun w =>
  match w.ticks with
  | [] => (.error .unfinished, w)
  | t :: rest => deliver ({ w with ticks := rest }.happen t)

/-! ## Blocked signals -/

/-- `signal.pthread_sigmask(SIG_BLOCK, watched)`, which returns the mask it replaces. -/
def block : Act Bool := do
  step
  let w ← get
  modify fun w => { w with blocked := true }
  return w.blocked

/-- The `finally` of `_blocked_termination_signals`: whether there were pending signals. -/
def consume (previous : Bool) : Act Bool := do
  step
  let w ← get
  if w.pending = [] then return false
  else
    modify fun w => { w with notices := w.notices ++ [.consumed previous] }
    step
    modify fun v => { v with pending := v.pending.filter fun s => s ∉ w.pending }
    return true

/-- `with _blocked_termination_signals()`: the value of the body, and `interrupted`. Signals raise
again at its end. -/
def withBlocked {α : Type} (body : Act α) : Act (α × Bool) := do
  let previous ← block
  let result ← attempt body
  match result with
  | .error .unfinished => raise .unfinished
  | _ =>
    let interrupted ← consume previous
    modify fun w => { w with blocked := previous }
    step
    match result with
    | .ok a => return (a, interrupted)
    | .error e => raise e

/-! ## The child -/

/-- `Popen`, which succeeds. -/
def popen : Act Unit := do
  step
  modify fun w => { w with child := .running }

/-- What `poll` finds: the exit code, once the child has been reaped. -/
def poll : Act (Option Int) := do
  step
  let w ← get
  match w.child with
  | .exited code =>
    modify fun w => { w with child := .reaped code }
    return some code
  | .reaped code => return some code
  | _ => return none

/-- What `killpg` answers. -/
inductive Killed
  | done
  | lookup
  | permission
  deriving DecidableEq

/-- `os.killpg`; what the signal does to the group is in the ticks. -/
def killpg : Act Killed := do
  step
  let w ← get
  if w.groupExists then return (if w.denied then .permission else .done) else return .lookup

/-- The exceptions of the standard library. -/
def timeoutExpired : Raised := .exception "TimeoutExpired"
def permissionError : Raised := .exception "PermissionError"

/-- `process.wait()`. -/
def wait : Nat → Act Int
  | 0 => raise .unfinished
  | n + 1 => do
    match ← poll with
    | some code => return code
    | none => wait n

/-- `process.wait(timeout=remaining)`. -/
def waitUntil (deadline : Int) : Nat → Act Int
  | 0 => raise .unfinished
  | n + 1 => do
    match ← poll with
    | some code => return code
    | none =>
      let w ← get
      if deadline ≤ w.now then raised timeoutExpired else waitUntil deadline n

/-- A loop does not go on for more steps than there are ticks. -/
def bound : Act Nat := do
  let w ← get
  return w.ticks.length + 1

/-! ## The cleanup -/

/-- `ManualReconciliationRequired`. -/
def manual (message : String) : Raised := .nightly .manualReconciliationRequired message

def cleanupUnconfirmed : Raised :=
  manual "child cleanup could not be confirmed; manual reconciliation required"

def cleanupInterrupted : Raised := manual "child cleanup was interrupted; manual reconciliation required"

def groupActive : Raised := manual "pipeline process group is still active; manual reconciliation required"

/-- `ControlledInterruption`, or a `KeyboardInterrupt`. -/
def isInterruption : Raised → Bool
  | .nightly .controlledInterruption _ => true
  | .keyboardInterrupt => true
  | _ => false

/-- `_signal_child`, for a child with a group. -/
def signalChild : Act Unit := do
  match ← killpg with
  | .permission => raised permissionError
  | _ => return ()

/-- `_process_group_exists`. -/
def processGroupExists : Act Bool := do
  match ← killpg with
  | .lookup =>
    modify fun w => { w with groupSeenEmpty := true }
    return false
  | _ => return true

/-- The loop of `_wait_ignoring_interruptions`. -/
def waitIgnoring (deadline : Int) : Nat → Act Int
  | 0 => raise .unfinished
  | n + 1 => do
    step
    let w ← get
    if deadline - w.now ≤ 0 then raised timeoutExpired
    else
      match ← attempt (bound >>= waitUntil deadline) with
      | .ok code => return code
      | .error (.raised e) => if isInterruption e then waitIgnoring deadline n else raised e
      | .error e => raise e

/-- `_wait_ignoring_interruptions`. -/
def waitIgnoringInterruptions (timeout : Int) : Act Int := do
  step
  let w ← get
  let n ← bound
  waitIgnoring (w.now + timeout) n

/-- The loop of `_wait_for_process_group_exit`. -/
def waitForGroup (deadline : Int) : Nat → Act Unit
  | 0 => raise .unfinished
  | n + 1 => do
    if ← processGroupExists then
      step
      let w ← get
      if deadline ≤ w.now then raised groupActive else waitForGroup deadline n
    else return ()

/-- `_wait_for_process_group_exit`. -/
def waitForProcessGroupExit (timeout : Int) : Act Unit := do
  step
  let w ← get
  let n ← bound
  waitForGroup (w.now + timeout) n

/-- SIGTERM and, when the child does not exit in time, SIGKILL. -/
def terminate (timeout : Int) : Act Int := do
  signalChild
  Raising.tryCatch (waitIgnoringInterruptions timeout) fun
    | .raised (.exception "TimeoutExpired") => do
      signalChild
      waitIgnoringInterruptions timeout
    | stop => raise stop

/-- The first `if` of `_stop_child`. -/
def stopProcess (timeout : Int) : Act Int := do
  match ← poll with
  | none => terminate timeout
  | some _ => waitIgnoringInterruptions timeout

/-- The body of `_stop_child`. -/
def stopBody (timeout : Int) : Act Unit := do
  let _ ← stopProcess timeout
  match ← poll with
  | none => raised cleanupUnconfirmed
  | some _ =>
    if ← processGroupExists then
      signalChild
      waitForProcessGroupExit timeout
    else return ()

/-- The `except` clauses of `_stop_child`. -/
def stopHandler : Stop → Act Unit
  | .unfinished => raise .unfinished
  | .raised e =>
    if e.isManual then raised e
    else if isInterruption e then raised cleanupInterrupted
    else raised cleanupUnconfirmed

/-- `_stop_child`. -/
def stopChild (timeout : Int) : Act Unit := do
  step
  if timeout ≤ 0 then raised cleanupUnconfirmed
  else
    let _ ← withBlocked (Raising.tryCatch (stopBody timeout) stopHandler)
    return ()

/-! ## The run -/

/-- `PIPELINE_EXIT_MESSAGES`. -/
def exitMessage (code : Int) : String :=
  if code = 1 then "pipeline execution failed"
  else if code = 2 then "pipeline configuration or quality blocked execution"
  else if code = 3 then "pipeline was superseded or already in progress"
  else if code = 4 then "pipeline result is uncertain"
  else "pipeline exited unsuccessfully"

/-- `ControlledInterruption`. -/
def controlled (message : String) : Raised := .nightly .controlledInterruption message

/-- The group is gone, or it is stopped. -/
def confirmGone (timeout : Int) : Act Unit := do
  if ← processGroupExists then stopChild timeout else return ()

/-- The `try` of `run_pipeline`: the return code. -/
def runBody (timeout : Int) : Act Int := do
  let (_, creation) ← withBlocked popen
  step
  if creation then raised (controlled "pipeline execution was interrupted during child creation")
  else
    let code ← bound >>= wait
    let (_, completion) ← withBlocked do
      confirmGone timeout
      step
      modify fun w => { w with cleanupConfirmed := true }
    step
    if completion then raised (controlled "pipeline execution was interrupted after child completion") else return code

/-- `process is not None and not cleanup_confirmed`. -/
def World.mustStop (w : World) : Bool := w.child ≠ .absent && !w.cleanupConfirmed

/-- `_stop_child` from the `except` clause for interruptions. -/
def stopInterrupted (timeout : Int) : Act Unit := do
  let w ← get
  if w.mustStop then
    Raising.tryCatch (stopChild timeout) fun
      | .raised cleanup => do
        if cleanup.isManual then
          step
          raised cleanup
        else raised cleanup
      | stop => raise stop
  else return ()

/-- The message of the `ControlledInterruption` that an interruption becomes. -/
def interruptionMessage : Raised → String
  | .nightly _ message => if message = "" then "pipeline execution was interrupted" else message
  | _ => "pipeline execution was interrupted"

/-- The `except` clauses of `run_pipeline`. -/
def runHandler (timeout : Int) : Stop → Act Int
  | .unfinished => raise .unfinished
  | .raised e => do
    modify fun w => { w with handling := true }
    step
    if e.isManual then raised e
    else if isInterruption e then
      stopInterrupted timeout
      step
      raised (controlled (interruptionMessage e))
    else raised e

/-- `run_pipeline`. -/
def runPipeline (timeout : Int) : Act Unit := do
  let code ← Raising.tryCatch (runBody timeout) (runHandler timeout)
  step
  if code ≠ 0 then
    raised (.nightly .pipelineProcessError (exitMessage code ++ " (exit code " ++ toString code ++ ")"))
  else return ()

/-! ## Runs that do not end

The loops have rounds enough: a run is unfinished only when its ticks are used up. -/

section Spent

variable {α β : Type} {w w' v : World} {timeout deadline : Int} {j k n : Nat} {m : Act α} {f : α → Act β}

/-- At least `k` ticks were used; what is unfinished used them all. -/
def Spent (k : Nat) (w : World) : Except Stop α → World → Prop
  | .ok _, w' => w'.ticks.length + k ≤ w.ticks.length
  | .error (.raised _), w' => w'.ticks.length + k ≤ w.ticks.length
  | .error .unfinished, w' => w'.ticks = []

/-- What `m` does with the ticks. -/
def Spends (k : Nat) (m : Act α) (w : World) : Prop := Post m (Spent k w) w

theorem Spent.after {r : Except Stop α} (h : Spent k w' r v) (hw : w'.ticks.length + j ≤ w.ticks.length) :
    Spent j w r v := by
  cases r with
  | ok a =>
    unfold Spent at *
    omega
  | error stop =>
    cases stop with
    | raised e =>
      unfold Spent at *
      omega
    | unfinished => exact h

theorem Spends.weaken (h : Spends k m w) : Spends 0 m w :=
  post_mono (fun _ _ hr => hr.after (Nat.le_refl _)) h

theorem Spends.seq (hm : Spends j m w)
    (hf : ∀ a w', w'.ticks.length + j ≤ w.ticks.length → Spends 0 (f a) w') : Spends j (m >>= f) w := by
  refine post_seq hm (fun a w' h => ?_) fun stop w' h => ?_
  · exact post_mono (fun _ _ hr => Spent.after hr h) (hf a w' h)
  · cases stop <;> exact h

theorem spends_get {f : World → Act β} (h : Spends k (f w) w) : Spends k (Raising.get >>= f) w :=
  post_get_seq h

theorem spends_modify {g : World → World} {f : Unit → Act β} (hg : (g w).ticks = w.ticks)
    (h : Spends 0 (f ()) (g w)) : Spends 0 (modify g >>= f) w :=
  post_modify_seq (post_mono (fun _ _ hr => Spent.after hr (le_of_eq (congrArg List.length hg))) h)

theorem spends_pure {a : α} : Spends 0 (pure a) w := Nat.le_refl _

theorem spends_raised {e : Raised} : Spends 0 (raised e : Act α) w := Nat.le_refl _

/-- A `try`. -/
theorem Spends.tryCatch {f : Stop → Act α} (hm : Spends 0 m w)
    (hf : ∀ e w', w'.ticks.length ≤ w.ticks.length → Spends 0 (f (.raised e)) w')
    (hu : f .unfinished = raise .unfinished) : Spends 0 (Raising.tryCatch m f) w := by
  refine post_tryCatch hm (fun _ _ h => h) fun stop w' h => ?_
  cases stop with
  | raised e => exact post_mono (fun _ _ hr => Spent.after hr h) (hf e w' h)
  | unfinished =>
    rw [hu]
    exact h

theorem deliver_spends : Spends 0 deliver w := by
  unfold Spends Post deliver
  split <;> exact Nat.le_refl _

theorem step_spends : Spends 1 step w := by
  unfold Spends Post step
  cases ht : w.ticks with
  | nil => exact ht
  | cons t rest =>
    have hspent : ({ w with ticks := rest }.happen t).ticks.length + 1 ≤ w.ticks.length :=
      le_of_eq (by rw [ht]; rfl)
    have hdeliver := deliver_spends (w := { w with ticks := rest }.happen t)
    unfold Spends Post at hdeliver
    exact Spent.after hdeliver hspent

theorem killpg_spends : Spends 1 killpg w := by
  refine step_spends.seq fun _ v _ => spends_get ?_
  split <;> exact spends_pure

theorem poll_spends : Spends 1 poll w := by
  refine step_spends.seq fun _ v _ => spends_get ?_
  split
  · exact spends_modify rfl spends_pure
  · exact spends_pure
  · exact spends_pure

theorem processGroupExists_spends : Spends 1 processGroupExists w := by
  refine killpg_spends.seq fun k v _ => ?_
  cases k with
  | lookup => exact spends_modify rfl spends_pure
  | done => exact spends_pure
  | permission => exact spends_pure

theorem signalChild_spends : Spends 1 signalChild w := by
  refine killpg_spends.seq fun k v _ => ?_
  cases k with
  | permission => exact spends_raised
  | done => exact spends_pure
  | lookup => exact spends_pure

theorem wait_spends (hn : w.ticks.length < n) : Spends 0 (wait n) w := by
  induction n generalizing w with
  | zero => omega
  | succ n ih =>
    refine (poll_spends.seq fun c v hv => ?_).weaken
    cases c with
    | some code => exact spends_pure
    | none => exact ih (by omega)

theorem waitUntil_spends (hn : w.ticks.length < n) : Spends 0 (waitUntil deadline n) w := by
  induction n generalizing w with
  | zero => omega
  | succ n ih =>
    refine (poll_spends.seq fun c v hv => ?_).weaken
    cases c with
    | some code => exact spends_pure
    | none =>
      refine spends_get ?_
      split
      · exact spends_raised
      · exact ih (by omega)

theorem waitIgnoring_spends (hn : w.ticks.length < n) : Spends 0 (waitIgnoring deadline n) w := by
  induction n generalizing w with
  | zero => omega
  | succ n ih =>
    refine (step_spends.seq fun _ v hv => spends_get ?_).weaken
    split
    · exact spends_raised
    · have hwait : Spends 0 (bound >>= waitUntil deadline) v :=
        spends_get (waitUntil_spends (Nat.lt_succ_self _))
      refine post_attempt_seq hwait fun r x hr => ?_
      cases r with
      | ok code => exact hr
      | error stop =>
        cases stop with
        | unfinished => exact hr
        | raised e =>
          have hx : x.ticks.length + 0 ≤ v.ticks.length := hr
          dsimp only
          split
          · exact post_mono (fun _ _ h => Spent.after h hx) (ih (by omega))
          · exact hr

theorem waitIgnoringInterruptions_spends : Spends 0 (waitIgnoringInterruptions timeout) w :=
  (step_spends.seq fun _ _ _ => spends_get (spends_get (waitIgnoring_spends (Nat.lt_succ_self _)))).weaken

theorem waitForGroup_spends (hn : w.ticks.length < n) : Spends 0 (waitForGroup deadline n) w := by
  induction n generalizing w with
  | zero => omega
  | succ n ih =>
    refine (processGroupExists_spends.seq fun b v hv => ?_).weaken
    cases b with
    | false => exact spends_pure
    | true =>
      refine (step_spends.seq fun _ x hx => spends_get ?_).weaken
      split
      · exact spends_raised
      · exact ih (by omega)

theorem waitForProcessGroupExit_spends : Spends 0 (waitForProcessGroupExit timeout) w :=
  (step_spends.seq fun _ _ _ => spends_get (spends_get (waitForGroup_spends (Nat.lt_succ_self _)))).weaken

theorem terminate_spends : Spends 0 (terminate timeout) w := by
  refine (signalChild_spends.seq fun _ v _ => ?_).weaken
  refine waitIgnoringInterruptions_spends.tryCatch (fun e x _ => ?_) rfl
  split
  · exact (signalChild_spends.seq fun _ _ _ => waitIgnoringInterruptions_spends).weaken
  · exact spends_raised

theorem stopProcess_spends : Spends 0 (stopProcess timeout) w := by
  refine (poll_spends.seq fun c v _ => ?_).weaken
  cases c with
  | none => exact terminate_spends
  | some code => exact waitIgnoringInterruptions_spends

theorem stopBody_spends : Spends 0 (stopBody timeout) w := by
  refine stopProcess_spends.seq fun _ v _ => (poll_spends.seq fun c x _ => ?_).weaken
  cases c with
  | none => exact spends_raised
  | some code =>
    refine (processGroupExists_spends.seq fun b y _ => ?_).weaken
    cases b with
    | false => exact spends_pure
    | true => exact (signalChild_spends.seq fun _ _ _ => waitForProcessGroupExit_spends).weaken

theorem consume_spends {previous : Bool} : Spends 0 (consume previous) w := by
  refine (step_spends.seq fun _ v _ => spends_get ?_).weaken
  split
  · exact spends_pure
  · refine spends_modify rfl (step_spends.seq fun _ x _ => ?_).weaken
    exact spends_modify rfl spends_pure

theorem withBlocked_spends {body : Act α} (hbody : ∀ v, Spends 0 body v) :
    Spends 0 (withBlocked body) w := by
  have hblock : Spends 1 block w := step_spends.seq fun _ _ _ => spends_get (spends_modify rfl spends_pure)
  refine (hblock.seq fun previous v _ => ?_).weaken
  refine post_attempt_seq (hbody v) fun r x hr => ?_
  cases r with
  | ok a =>
    refine post_mono (fun _ _ h => Spent.after h hr) (Spends.seq consume_spends fun i y _ =>
        spends_modify rfl ?_)
    exact (step_spends.seq fun _ _ _ => spends_pure).weaken
  | error stop =>
    cases stop with
    | unfinished => exact hr
    | raised e =>
      refine post_mono (fun _ _ h => Spent.after h hr) (Spends.seq consume_spends fun i y _ =>
          spends_modify rfl ?_)
      exact (step_spends.seq fun _ _ _ => spends_raised).weaken

theorem stopHandler_spends {e : Raised} : Spends 0 (stopHandler (.raised e)) w := by
  unfold stopHandler
  dsimp only
  split
  · exact spends_raised
  · split <;> exact spends_raised

theorem stopChild_spends : Spends 0 (stopChild timeout) w := by
  refine (step_spends.seq fun _ v _ => ?_).weaken
  split
  · exact spends_raised
  · have hbody : ∀ x, Spends 0 (Raising.tryCatch (stopBody timeout) stopHandler) x := fun x =>
      stopBody_spends.tryCatch (fun _ _ _ => stopHandler_spends) rfl
    exact (withBlocked_spends hbody).seq fun _ _ _ => spends_pure

theorem confirmGone_spends : Spends 0 (confirmGone timeout) w := by
  refine (processGroupExists_spends.seq fun b v _ => ?_).weaken
  cases b with
  | true => exact stopChild_spends
  | false => exact spends_pure

theorem runBody_spends : Spends 0 (runBody timeout) w := by
  have hpopen : ∀ v, Spends 0 popen v := fun v => (step_spends.seq fun _ _ _ => Nat.le_refl _).weaken
  refine (withBlocked_spends hpopen).seq fun x v _ => (step_spends.seq fun _ y _ => ?_).weaken
  split
  · exact spends_raised
  · have hwait : Spends 0 (bound >>= wait) y := spends_get (wait_spends (Nat.lt_succ_self _))
    refine hwait.seq fun code z _ => ?_
    have hcompletion : ∀ v, Spends 0 (do
        confirmGone timeout
        step
        modify fun w => { w with cleanupConfirmed := true }) v :=
      fun v => confirmGone_spends.seq fun _ _ _ => (step_spends.seq fun _ _ _ => Nat.le_refl _).weaken
    refine (withBlocked_spends hcompletion).seq fun c u _ => (step_spends.seq fun _ u' _ => ?_).weaken
    split
    · exact spends_raised
    · exact spends_pure

theorem stopInterrupted_spends : Spends 0 (stopInterrupted timeout) w := by
  refine spends_get ?_
  split
  · refine stopChild_spends.tryCatch (fun e v _ => ?_) rfl
    dsimp only
    split
    · exact (step_spends.seq fun _ _ _ => spends_raised).weaken
    · exact spends_raised
  · exact spends_pure

theorem runHandler_spends {e : Raised} : Spends 0 (runHandler timeout (.raised e)) w := by
  refine spends_modify rfl (step_spends.seq fun _ v _ => ?_).weaken
  split
  · exact spends_raised
  · split
    · exact stopInterrupted_spends.seq fun _ _ _ => (step_spends.seq fun _ _ _ => spends_raised).weaken
    · exact spends_raised

theorem runPipeline_spends : Spends 0 (runPipeline timeout) w := by
  refine (runBody_spends.tryCatch (fun _ _ _ => runHandler_spends) rfl).seq fun code v _ => ?_
  refine (step_spends.seq fun _ x _ => ?_).weaken
  split
  · exact spends_raised
  · exact spends_pure

/-- `run_pipeline` ends, unless nothing more happens. -/
theorem unfinished_runs (h : (runPipeline timeout w).1 = .error .unfinished) :
    (runPipeline timeout w).2.ticks = [] := by
  have hs : Spends 0 (runPipeline timeout) w := runPipeline_spends
  unfold Spends Post at hs
  rw [h] at hs
  exact hs

end Spent

end TrackFlow.Jobs.ChildProcess
