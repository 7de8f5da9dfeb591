import TrackFlow.TaskQueue.System

/-!
# At most one execution of a task

Whatever the broker, the workers, the relay and the reconciler do, a task is started at most once,
and its pipeline runs at most once (`starts_once`). The claims of a task count up: the epoch of each
is its attempt, and a claim that was superseded can change nothing (`Fenced`).
-/

namespace TrackFlow.TaskQueue

open TrackFlow.Python TrackFlow.Pipelines

variable {Wk : Type}

/-! ## The history of a task -/

/-- The claim that an event grants to a task. -/
def Event.claimOf (task : Uuid) : Event → Option Claim
  | .claimed c => if c.taskId = task then some c else none
  | _ => none

/-- The claim under which an event starts a task. -/
def Event.startOf (task : Uuid) : Event → Option Claim
  | .started c => if c.taskId = task then some c else none
  | _ => none

/-- The claim under which an event runs the pipeline of a task. -/
def Event.launchOf (task : Uuid) : Event → Option Claim
  | .launched c => if c.taskId = task then some c else none
  | _ => none

namespace System

variable (σ : System Wk) (task : Uuid)

/-- The claims of a task, in their order. -/
def claims : List Claim := σ.history.filterMap (Event.claimOf task)

/-- The starts of a task. -/
def starts : List Claim := σ.history.filterMap (Event.startOf task)

/-- The runs of the pipeline for a task. -/
def launches : List Claim := σ.history.filterMap (Event.launchOf task)

end System

/-- A claim after which the task was claimed again. -/
def Superseded (σ : System Wk) (c : Claim) : Prop := ∃ c', [c, c'].Sublist (σ.claims c.taskId)

/-- No statement under this token and epoch changes the row. -/
structure Fenced (alnum : Char → Bool) (t : Task) (token : Uuid) (epoch : Nat) : Prop where
  start : ∀ leaseSeconds now, t.startPrefect token epoch leaseSeconds now = none
  heartbeat : ∀ leaseSeconds now, t.heartbeatExecution token epoch leaseSeconds now = none
  retry : ∀ nextAttemptAt code message, t.scheduleRetry alnum token epoch nextAttemptAt code message = none
  fail : ∀ state code message now, t.failClaim alnum token epoch state code message now = none
  finish : ∀ a now, t.finishExecution alnum token epoch a now = none

theorem fenced_of_epoch_ne {alnum : Char → Bool} {t : Task} {token : Uuid} {epoch : Nat}
    (h : t.executionEpoch ≠ epoch) : Fenced alnum t token epoch := by
  have hclaimed : t.claimedBy token epoch = false := by simp [Task.claimedBy, h]
  have hrunning : t.runningBy token epoch = false := by simp [Task.runningBy, h]
  refine ⟨fun _ _ => ?_, fun _ _ => ?_, fun _ _ _ => ?_, fun _ _ _ _ => ?_, fun _ _ => ?_⟩
  · simp [Task.startPrefect, hclaimed]
  · simp [Task.heartbeatExecution, hrunning]
  · simp [Task.scheduleRetry, hclaimed]
  · simp [Task.failClaim, hclaimed]
  · simp [Task.finishExecution, hrunning]

/-! ## The invariant -/

/-- A row and its history: the claims have the epochs 1, 2, … up to that of the row, at most three,
and a task that is yet to be started has no start. -/
structure Counted (t : Task) (claims starts : List Claim) : Prop where
  epoch : t.executionEpoch = t.attemptCount
  bound : t.attemptCount ≤ maxFailedExecutions
  epochs : claims.map Claim.epoch = List.range' 1 t.attemptCount
  attempts : ∀ c ∈ claims, c.attempt = c.epoch
  once : starts.length ≤ 1
  unstarted : t.executionState.unstarted = true → starts = []

/-- What every order of steps keeps. -/
structure Inv (σ : System Wk) : Prop where
  row : ∀ task t, σ.tasks task = some t → Counted t (σ.claims task) (σ.starts task)
  absent : ∀ task, σ.tasks task = none → σ.claims task = [] ∧ σ.starts task = []
  launched : ∀ task, (σ.launches task).length ≤ 1 ∧ (σ.starts task = [] → σ.launches task = [])
  waiting : ∀ w c, σ.workers w = some (.started c) → σ.starts c.taskId ≠ [] ∧ σ.launches c.taskId = []
  alone : ∀ w w' c c', σ.workers w = some (.started c) → σ.workers w' = some (.started c') →
    c.taskId = c'.taskId → w = w'

theorem Inv.empty (runs : Runs) (clock : Int) : Inv (System.empty runs clock : System Wk) where
  row _ _ h := by cases h
  absent _ _ := ⟨rfl, rfl⟩
  launched _ := ⟨Nat.zero_le _, fun _ => rfl⟩
  waiting _ _ h := by cases h
  alone _ _ _ _ h := by cases h

theorem Counted.steady {t u : Task} {claims starts : List Claim} (h : Counted t claims starts)
    (hs : Steady t u) : Counted u claims starts := by
  refine ⟨?_, ?_, ?_, h.attempts, h.once, fun hu => h.unstarted (hs.unstarted hu)⟩
  · rw [hs.epoch, hs.attempts]
    exact h.epoch
  · rw [hs.attempts]
    exact h.bound
  · rw [hs.attempts]
    exact h.epochs

/-! ## Steps -/

section Histories

variable {σ σ' : System Wk}

theorem toList_ite {α : Type} (p : Prop) [Decidable p] (a : α) :
    (if p then some a else none).toList = if p then [a] else [] := by
  split <;> rfl

@[simp] theorem claims_record (e : Event) (k : Uuid) :
    (σ.record e).claims k = σ.claims k ++ (e.claimOf k).toList := by
  simp only [System.claims, System.record, List.filterMap_append]
  cases h : e.claimOf k <;> simp [h]

@[simp] theorem starts_record (e : Event) (k : Uuid) :
    (σ.record e).starts k = σ.starts k ++ (e.startOf k).toList := by
  simp only [System.starts, System.record, List.filterMap_append]
  cases h : e.startOf k <;> simp [h]

@[simp] theorem launches_record (e : Event) (k : Uuid) :
    (σ.record e).launches k = σ.launches k ++ (e.launchOf k).toList := by
  simp only [System.launches, System.record, List.filterMap_append]
  cases h : e.launchOf k <;> simp [h]

/-- A step that is not a claim, a start or a launch. -/
theorem Inv.quiet (h : Inv σ) (hhistory : σ'.history = σ.history)
    (htasks : ∀ k, Follows Steady (σ.tasks k) (σ'.tasks k))
    (hworkers : ∀ w c, σ'.workers w = some (.started c) → σ.workers w = some (.started c)) : Inv σ' := by
  have hclaims (k : Uuid) : σ'.claims k = σ.claims k := by rw [System.claims, hhistory, System.claims]
  have hstarts (k : Uuid) : σ'.starts k = σ.starts k := by rw [System.starts, hhistory, System.starts]
  have hlaunches (k : Uuid) : σ'.launches k = σ.launches k :=
    by rw [System.launches, hhistory, System.launches]
  refine ⟨fun k u hu => ?_, fun k hk => ?_, fun k => ?_, fun w c hw => ?_, fun w w' c c' hw hw' => ?_⟩
  · have hf := htasks k
    rw [hclaims, hstarts]
    cases ht : σ.tasks k with
    | none =>
      rw [ht] at hf
      cases hf.symm.trans hu
    | some t =>
      rw [ht] at hf
      obtain ⟨u', hu', hs⟩ := hf
      cases hu'.symm.trans hu
      exact (h.row k t ht).steady hs
  · have hf := htasks k
    rw [hclaims, hstarts]
    cases ht : σ.tasks k with
    | none => exact h.absent k ht
    | some t =>
      rw [ht] at hf
      obtain ⟨u', hu', -⟩ := hf
      cases hk.symm.trans hu'
  · rw [hlaunches, hstarts]
    exact h.launched k
  · rw [hstarts, hlaunches]
    exact h.waiting w c (hworkers w c hw)
  · exact h.alone w w' c c' (hworkers w c hw) (hworkers w' c' hw')

/-- A statement that changes a row steadily. -/
theorem Inv.update (h : Inv σ) {task : Uuid} {statement : Task → Option Task}
    (hs : ∀ t u, σ.tasks task = some t → statement t = some u → Steady t u) :
    Inv (σ.update task statement) :=
  h.quiet (σ.update_history ..) (follows_update .refl hs) fun w c hw => by rwa [System.update_workers] at hw

/-- The row of a task that is accepted. -/
theorem Inv.accept (h : Inv σ) {task run : Uuid} {weekStart : Int} {runs : Runs}
    (ht : σ.tasks task = none) :
    Inv { σ with tasks := Function.update σ.tasks task (some (acceptedTask run weekStart σ.clock)), runs } := by
  refine ⟨fun k t hk => ?_, fun k hk => ?_, h.launched, h.waiting, h.alone⟩
  · by_cases hkt : k = task
    · subst hkt
      simp only [Function.update_self, Option.some_inj] at hk
      subst hk
      obtain ⟨hclaims, hstarts⟩ := h.absent k ht
      show Counted _ (σ.claims k) (σ.starts k)
      rw [hclaims, hstarts]
      exact ⟨rfl, Nat.zero_le _, rfl, fun _ hc => (nomatch hc), Nat.zero_le _, fun _ => rfl⟩
    · simp only [Function.update_of_ne hkt] at hk
      exact h.row k t hk
  · by_cases hkt : k = task
    · subst hkt
      simp at hk
    · simp only [Function.update_of_ne hkt] at hk
      exact h.absent k hk

/-- The row of a claim that is granted. -/
theorem Counted.claim {t u : Task} {claims starts : List Claim} (h : Counted t claims starts)
    {task run token attempt : Uuid} {leaseSeconds now : Int}
    (hc : t.claimExecution token attempt leaseSeconds now = some u) :
    Counted u (claims ++ [⟨task, run, token, u.executionEpoch, u.attemptCount⟩]) starts := by
  obtain ⟨hclaimable, hstate, hcount, hepoch, -⟩ := claimExecution_eq hc
  obtain ⟨hbound, hunstarted⟩ := claimable_spec hclaimable
  have he := h.epoch
  refine ⟨by omega, by omega, ?_, fun c hmem => ?_, h.once, fun _ => h.unstarted hunstarted⟩
  · rw [List.map_append, h.epochs, hcount, List.range'_concat]
    simp only [List.map_cons, List.map_nil]
    congr 2
    omega
  · rcases List.mem_append.1 hmem with hold | hnew
    · exact h.attempts c hold
    · rw [List.mem_singleton.1 hnew]
      show u.attemptCount = u.executionEpoch
      omega

theorem Inv.claim (h : Inv σ) {task token attempt : Uuid} {t u : Task} {leaseSeconds : Int}
    (ht : σ.tasks task = some t)
    (hc : t.claimExecution token attempt leaseSeconds σ.clock = some u) :
    Inv ((σ.setTask task u).record (.claimed ⟨task, t.runId, token, u.executionEpoch,
      u.attemptCount⟩)) := by
  have hstarts (k : Uuid) : ((σ.setTask task u).record
      (.claimed ⟨task, t.runId, token, u.executionEpoch, u.attemptCount⟩)).starts k = σ.starts k :=
    (starts_record _ k).trans (List.append_nil _)
  have hlaunches (k : Uuid) : ((σ.setTask task u).record
      (.claimed ⟨task, t.runId, token, u.executionEpoch, u.attemptCount⟩)).launches k = σ.launches k :=
    (launches_record _ k).trans (List.append_nil _)
  have hclaims (k : Uuid) : ((σ.setTask task u).record
      (.claimed ⟨task, t.runId, token, u.executionEpoch, u.attemptCount⟩)).claims k =
      σ.claims k ++ if task = k then [⟨task, t.runId, token, u.executionEpoch, u.attemptCount⟩] else
          [] := by
    rw [claims_record]
    exact congrArg _ (toList_ite ..)
  refine ⟨fun k v hv => ?_, fun k hk => ?_, fun k => ?_, fun w c hw => ?_, h.alone⟩
  · rw [hclaims, hstarts]
    rw [System.record_tasks, System.setTask_tasks] at hv
    by_cases hk : k = task
    · subst hk
      rw [if_pos rfl, Option.some_inj] at hv
      subst hv
      rw [if_pos rfl]
      exact (h.row k t ht).claim hc
    · rw [if_neg hk] at hv
      rw [if_neg (Ne.symm hk), List.append_nil]
      exact h.row k v hv
  · rw [System.record_tasks, System.setTask_tasks] at hk
    by_cases hkt : k = task
    · rw [if_pos hkt] at hk
      cases hk
    · rw [if_neg hkt] at hk
      rw [hclaims, hstarts, if_neg (Ne.symm hkt), List.append_nil]
      exact h.absent k hk
  · rw [hlaunches, hstarts]
    exact h.launched k
  · rw [hlaunches, hstarts]
    exact h.waiting w c hw

end Histories

section Workers

variable [DecidableEq Wk] {σ σ' : System Wk}

theorem started_of_move {w v : Wk} {next : Option Worker} {c : Claim} (hn : ∀ c, next ≠ some (.started c))
    (h : (σ.move w next).workers v = some (.started c)) : v ≠ w ∧ σ.workers v = some (.started c) := by
  rw [System.move_workers] at h
  by_cases hv : v = w
  · rw [if_pos hv] at h
    exact absurd h (hn c)
  · rw [if_neg hv] at h
    exact ⟨hv, h⟩

/-- A worker that moves on, not to a start. -/
theorem Inv.move (h : Inv σ) {w : Wk} {next : Option Worker} (hn : ∀ c, next ≠ some (.started c)) :
    Inv (σ.move w next) :=
  h.quiet rfl (fun _ => .refl .refl _) fun _ _ hw => (started_of_move hn hw).2

theorem Inv.start (h : Inv σ) {w : Wk} {c : Claim} {t u : Task} {leaseSeconds : Int}
    (ht : σ.tasks c.taskId = some t) (hs : t.startPrefect c.token c.epoch leaseSeconds σ.clock = some u) :
    Inv (((σ.setTask c.taskId u).record (.started c)).move w (some (.started c))) := by
  obtain ⟨hsteady, hclaimed, hrunning⟩ := startPrefect_steady hs
  have hnone : σ.starts c.taskId = [] := (h.row _ t ht).unstarted (by rw [hclaimed]; rfl)
  have hidle : ∀ v d, σ.workers v = some (.started d) → d.taskId ≠ c.taskId := fun v d hv hd =>
    (h.waiting v d hv).1 (hd ▸ hnone)
  have hstarts (k : Uuid) :
      (((σ.setTask c.taskId u).record (.started c)).move w (some (.started c))).starts k =
      σ.starts k ++ if c.taskId = k then [c] else [] := by
    show ((σ.setTask c.taskId u).record (.started c)).starts k = _
    rw [starts_record]
    exact congrArg _ (toList_ite ..)
  have hclaims (k : Uuid) :
      (((σ.setTask c.taskId u).record (.started c)).move w (some (.started c))).claims k =
      σ.claims k := (claims_record _ k).trans (List.append_nil _)
  have hlaunches (k : Uuid) :
      (((σ.setTask c.taskId u).record (.started c)).move w (some (.started c))).launches k =
      σ.launches k := (launches_record _ k).trans (List.append_nil _)
  have hworker : ∀ v d, (((σ.setTask c.taskId u).record (.started c)).move w
      (some (.started c))).workers v =
      some (.started d) → (v = w ∧ d = c) ∨ σ.workers v = some (.started d) := by
    intro v d hv
    rw [System.move_workers] at hv
    by_cases hvw : v = w
    · rw [if_pos hvw] at hv
      cases hv
      exact Or.inl ⟨hvw, rfl⟩
    · rw [if_neg hvw] at hv
      exact Or.inr hv
  refine ⟨fun k v hv => ?_, fun k hk => ?_, fun k => ?_, fun v d hv => ?_, fun v v' d d' hv hv' hd => ?_⟩
  · rw [hclaims, hstarts]
    rw [System.move_tasks, System.record_tasks, System.setTask_tasks] at hv
    by_cases hk : k = c.taskId
    · subst hk
      rw [if_pos rfl, Option.some_inj] at hv
      subst hv
      rw [if_pos rfl, hnone]
      have hcounted := (h.row _ t ht).steady hsteady
      refine ⟨hcounted.epoch, hcounted.bound, hcounted.epochs, hcounted.attempts, le_refl 1, fun hu => ?_⟩
      rw [hrunning] at hu
      cases hu
    · rw [if_neg hk] at hv
      rw [if_neg (Ne.symm hk), List.append_nil]
      exact h.row k v hv
  · rw [System.move_tasks, System.record_tasks, System.setTask_tasks] at hk
    by_cases hkc : k = c.taskId
    · rw [if_pos hkc] at hk
      cases hk
    · rw [if_neg hkc] at hk
      rw [hclaims, hstarts, if_neg (Ne.symm hkc), List.append_nil]
      exact h.absent k hk
  · rw [hlaunches, hstarts]
    exact ⟨(h.launched k).1, fun hk => (h.launched k).2 (List.append_eq_nil_iff.1 hk).1⟩
  · rw [hlaunches, hstarts]
    rcases hworker v d hv with ⟨-, rfl⟩ | hold
    · exact ⟨by simp, (h.launched _).2 hnone⟩
    · obtain ⟨hstarted, hlaunched⟩ := h.waiting v d hold
      exact ⟨fun hnil => hstarted (List.append_eq_nil_iff.1 hnil).1, hlaunched⟩
  · rcases hworker v d hv with ⟨rfl, rfl⟩ | hold
    · rcases hworker v' d' hv' with ⟨rfl, rfl⟩ | hold'
      · rfl
      · exact absurd hd.symm (hidle v' d' hold')
    · rcases hworker v' d' hv' with ⟨rfl, rfl⟩ | hold'
      · exact absurd hd (hidle v d hold)
      · exact h.alone v v' d d' hold hold' hd

theorem Inv.launch (h : Inv σ) {w : Wk} {c : Claim} (hw : σ.workers w = some (.started c)) :
    Inv ((σ.record (.launched c)).move w (some (.running c))) := by
  obtain ⟨hstarted, hnone⟩ := h.waiting w c hw
  have hlaunches (k : Uuid) : ((σ.record (.launched c)).move w (some (.running c))).launches k =
      σ.launches k ++ if c.taskId = k then [c] else [] := by
    show (σ.record (.launched c)).launches k = _
    rw [launches_record]
    exact congrArg _ (toList_ite ..)
  have hclaims (k : Uuid) : ((σ.record (.launched c)).move w (some (.running c))).claims k = σ.claims k :=
    (claims_record _ k).trans (List.append_nil _)
  have hstarts (k : Uuid) : ((σ.record (.launched c)).move w (some (.running c))).starts k = σ.starts k :=
    (starts_record _ k).trans (List.append_nil _)
  have hworker : ∀ v d, ((σ.record (.launched c)).move w (some (.running c))).workers v =
      some (.started d) →
      v ≠ w ∧ σ.workers v = some (.started d) := fun v d hv => started_of_move (fun _ he => by cases he) hv
  refine ⟨fun k t ht => ?_, fun k hk => ?_, fun k => ?_, fun v d hv => ?_, fun v v' d d' hv hv' hd => ?_⟩
  · rw [hclaims, hstarts]
    exact h.row k t ht
  · rw [hclaims, hstarts]
    exact h.absent k hk
  · rw [hlaunches, hstarts]
    by_cases hk : c.taskId = k
    · subst hk
      rw [if_pos rfl, hnone]
      exact ⟨le_refl 1, fun hs => absurd hs hstarted⟩
    · rw [if_neg hk, List.append_nil]
      exact h.launched k
  · obtain ⟨hne, hold⟩ := hworker v d hv
    have hk : c.taskId ≠ d.taskId := fun hk => hne (h.alone v w d c hold hw hk.symm)
    rw [hstarts, hlaunches, if_neg hk, List.append_nil]
    exact h.waiting v d hold
  · exact h.alone v v' d d' (hworker v d hv).2 (hworker v' d' hv').2 hd

end Workers

/-! ## Runs -/

section Runs

variable [DecidableEq Wk] {alnum : Char → Bool} {σ σ' : System Wk} {l : Label Wk}

theorem resultOutcome_started (r : CoordinatorResult) : (resultOutcome r).1.unstarted = false := by
  unfold resultOutcome
  split
  · rfl
  · split
    · rfl
    · split <;> rfl

theorem letteredState_started (inserted : Bool) : (letteredState inserted).unstarted = false := by
  cases inserted <;> rfl

theorem closing_steady {c : Claim} {inserted : Bool} {t u : Task} {now : Int} {update : Closing}
    (h : update.apply alnum c inserted t now = some u) : Steady t u := by
  cases update with
  | failClaim code message => exact failClaim_steady (letteredState_started inserted) h
  | finish status => exact finishExecution_steady (letteredState_started inserted) h

theorem Inv.step (h : Inv σ) (hs : Step alnum σ l σ') : Inv σ' := by
  cases hs with
  | accept task run weekStart htask hrun => exact h.accept htask
  | pipeline runs hruns => exact h.quiet rfl (fun _ => .refl .refl _) fun _ _ hw => hw
  | tick now hnow => exact h.quiet rfl (fun _ => .refl .refl _) fun _ _ hw => hw
  | relayPublished task => exact h.update fun t u _ hu => by cases hu; exact dispatched_steady t
  | relayExhausted task => exact h.update fun t u _ hu => by cases hu; exact undispatched_steady t
  | reconcile fault ht hrun =>
    exact h.quiet rfl (follows_setTask .refl ht (reconcile_steady ..)) fun _ _ hw => hw
  | deliver task run weekStart hw => exact h.move fun _ he => by cases he
  | leave w => exact h.move fun _ he => by cases he
  | refuse hw hnone => exact h.move fun _ he => by cases he
  | claim token attempt leaseSeconds hw ht hlease hc =>
    refine (h.claim ht hc).move fun c he => ?_
    split at he <;> cases he
  | probe next hw hnext =>
    refine h.move fun c he => ?_
    rcases hnext with rfl | ⟨code, message, rfl | rfl⟩ <;> cases he
  | retry nextAttemptAt hw hattempt =>
    exact (h.update fun t u _ hu => scheduleRetry_steady hu).move fun _ he => by cases he
  | start leaseSeconds hw ht hstart => exact h.start ht hstart
  | launch hw => exact h.launch hw
  | heartbeat c leaseSeconds hc => exact h.update fun t u _ hu => heartbeatExecution_steady hu
  | end_ next hw hnext =>
    refine h.move fun c he => ?_
    rcases hnext with ⟨code, message, rfl⟩ | ⟨r, rfl⟩ <;> cases he
  | finishRaised hw => exact (h.update fun t u _ hu => finishExecution_steady rfl hu).move fun _ he => by cases he
  | finishReturned hw hr =>
    exact (h.update fun t u _ hu => finishExecution_steady (resultOutcome_started _) hu).move fun _
      he => by cases he
  | letter fault hw hletter => exact h.move fun _ he => by cases he
  | close hw =>
    refine Inv.move (σ := { σ.update _ _ with letters := _ }) ?_ fun _ he => by cases he
    exact (h.update fun t u _ hu => closing_steady hu).quiet rfl (fun _ => .refl .refl _) fun _ _ hw => hw

theorem Reachable.inv (h : Reachable alnum σ) : Inv σ := by
  induction h with
  | empty runs clock => exact .empty runs clock
  | step _ hs ih => exact ih.step hs

theorem Counted.sorted {t : Task} {claims starts : List Claim} (h : Counted t claims starts) :
    claims.Pairwise fun c c' => c.epoch < c'.epoch := by
  have hmap : (claims.map Claim.epoch).Pairwise (· < ·) := by
    rw [h.epochs]
    exact List.pairwise_lt_range'
  exact List.pairwise_map.1 hmap

theorem Counted.epoch_le {t : Task} {claims starts : List Claim} (h : Counted t claims starts) {c : Claim}
    (hc : c ∈ claims) : c.epoch ≤ t.executionEpoch := by
  have hmem : c.epoch ∈ List.range' 1 t.attemptCount := h.epochs ▸ List.mem_map_of_mem hc
  have hbound := List.mem_range'_1.1 hmem
  have he := h.epoch
  omega

/-- In every reachable state, for every task: it was started at most once and its pipeline ran at
most once; its claims have increasing epochs, each its attempt, at most three; and a claim that was
superseded changes nothing. -/
theorem starts_once (h : Reachable alnum σ) (task : Uuid) :
    (σ.starts task).length ≤ 1 ∧ (σ.launches task).length ≤ 1 ∧
      (σ.claims task).Pairwise (fun c c' => c.epoch < c'.epoch) ∧
      (∀ c ∈ σ.claims task, c.epoch = c.attempt ∧ c.attempt ≤ maxFailedExecutions) ∧ ∀ t,
      σ.tasks task = some t → t.executionEpoch = t.attemptCount ∧ t.attemptCount ≤ maxFailedExecutions ∧
      ∀ c, c.taskId = task → Superseded σ c → Fenced alnum t c.token c.epoch := by
  have hinv := h.inv
  refine ⟨?_, (hinv.launched task).1, ?_, fun c hc => ?_, fun t ht => ?_⟩
  · cases ht : σ.tasks task with
    | none => simp [(hinv.absent task ht).2]
    | some t => exact (hinv.row task t ht).once
  · cases ht : σ.tasks task with
    | none => simp [(hinv.absent task ht).1]
    | some t => exact (hinv.row task t ht).sorted
  · cases ht : σ.tasks task with
    | none =>
      rw [(hinv.absent task ht).1] at hc
      cases hc
    | some t =>
      have hcounted := hinv.row task t ht
      have hattempt := hcounted.attempts c hc
      have hle := hcounted.epoch_le hc
      have he := hcounted.epoch
      have hb := hcounted.bound
      exact ⟨hattempt.symm, by omega⟩
  · have hcounted := hinv.row task t ht
    refine ⟨hcounted.epoch, hcounted.bound, fun c hc hsuper => ?_⟩
    subst hc
    obtain ⟨c', hsub⟩ := hsuper
    have hpair := hcounted.sorted.sublist hsub
    have hlt : c.epoch < c'.epoch := List.rel_of_pairwise_cons hpair List.mem_cons_self
    have hle := hcounted.epoch_le (hsub.subset (List.mem_cons_of_mem _ List.mem_cons_self))
    exact fenced_of_epoch_ne (by omega)

end Runs

/-- A task that two workers claimed: the first claim can change nothing. -/
theorem starts_once_example : ∃ σ : System Nat, Reachable Char.isAlphanum σ ∧
    (σ.claims (Uuid.ofNat 1)).length = 2 ∧ ∃ t, σ.tasks (Uuid.ofNat 1) = some t ∧ t.attemptCount = 2 ∧
    Fenced Char.isAlphanum t (exampleClaim 1).token (exampleClaim 1).epoch := by
  obtain ⟨σ, hσ, h⟩ := exampleClaimed Char.isAlphanum
  obtain ⟨σ', hσ', h', -⟩ := h.again hσ (by decide)
  have hclaims : σ'.claims (Uuid.ofNat 1) = [exampleClaim 1, exampleClaim 2] := by
    rw [System.claims, h'.history]
    rfl
  refine ⟨σ', hσ', by rw [hclaims]; rfl, _, h'.task, rfl, ?_⟩
  refine ((starts_once hσ' (Uuid.ofNat 1)).2.2.2.2 _ h'.task).2.2 (exampleClaim 1) rfl ⟨exampleClaim 2, ?_⟩
  show [exampleClaim 1, exampleClaim 2].Sublist (σ'.claims (Uuid.ofNat 1))
  rw [hclaims]

end TrackFlow.TaskQueue
