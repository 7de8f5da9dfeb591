import TrackFlow.TaskQueue.AtMostOnce
import TrackFlow.TaskQueue.DeadLetters

/-!
# Tasks that nothing moves

Once its lease and its delay are over, a task that is not closed can be claimed again, or the
reconciler closes it. One kind of task is left out (`Stranded`): its third claim was granted, its
worker was lost before it started Prefect, and its run decides nothing.

- `open_task_moves`: in every reachable state, a task that waits for nothing moves exactly when it
  is not stranded;
- `third_claim_strands`: three claims whose workers are lost leave a task that nothing ever moves.

Every row passes the constraints of its table (`Sound.checked`), so that no statement is refused.
-/

namespace TrackFlow.TaskQueue

open TrackFlow.Python TrackFlow.Pipelines

variable {Wk : Type}

/-! ## What must hold -/

/-- The states in which a task is closed. -/
def ExecutionState.closed (s : ExecutionState) : Bool :=
  s ∈ [.succeeded, .failed, .deadLettered, .reconciliationRequired]

/-- The lease of the task and its delay are over. -/
structure Task.Elapsed (t : Task) (now : Int) : Prop where
  lease : ∀ e, t.claimExpiresAt = some e → e ≤ now
  delay : ∀ e, t.nextAttemptAt = some e → e ≤ now

/-- The last claim was granted, Prefect was not started, and the run decides nothing. -/
structure Stranded (σ : System Wk) (t : Task) : Prop where
  claimed : t.executionState = .claimed
  last : t.attemptCount = maxFailedExecutions
  undecided : ∀ run, σ.runs t.runId = some run → runOutcome run.status run.commitResult = none

/-- A message that is delivered now gets a claim. -/
def Claims (t : Task) (now : Int) : Prop :=
  ∀ token attempt leaseSeconds, t.claimExecution token attempt leaseSeconds now ≠ none

/-- `reconcile_task` changes the state of the task, if the database does not fail. -/
def Reconciles (alnum : Char → Bool) (σ : System Wk) (task : Uuid) (t : Task) : Prop :=
  ∃ run, σ.runs t.runId = some run ∧
    (t.reconcile alnum task run σ.letters false σ.clock).2.1.executionState ≠ t.executionState

/-! ## Rows -/

/-- What the row of a task always satisfies. -/
structure Sound (t : Task) (now : Int) : Prop where
  fresh : t.executionState = .accepted ∨ t.executionState = .queued → t.attemptCount = 0
  waiting : t.executionState = .retryWait → t.attemptCount < maxFailedExecutions ∧ t.nextAttemptAt.isSome
  claimed : t.executionState = .claimed ↔ t.executionPhase = .preflight
  running : t.executionState = .running ↔ t.executionPhase = .prefectStarted
  held : t.executionState = .claimed ∨ t.executionState = .running →
    t.attemptId.isSome ∧ t.claimToken.isSome ∧ t.claimExpiresAt.isSome ∧ t.heartbeatAt.isSome
  attempts : t.attemptCount ≤ maxFailedExecutions
  number : ∀ n, t.attemptNumber = some n → 1 ≤ n ∧ n ≤ maxFailedExecutions
  code : ∀ s, t.errorCode = some s → s.length ≤ 128
  message : ∀ s, t.errorMessage = some s → s.length ≤ 512
  finished : ∀ f, t.finishedAt = some f → t.createdAt ≤ f
  created : t.createdAt ≤ now

/-- A change that keeps rows sound. -/
def Keeps (now : Int) (t u : Task) : Prop := Sound t now → Sound u now

theorem Keeps.refl {now : Int} (t : Task) : Keeps now t t := id

variable {alnum : Char → Bool} {now : Int} {t u : Task}

/-- A sound row passes the constraints of its table. -/
theorem Sound.checked (h : Sound t now) : t.checked = true := by
  have hattempts := h.attempts
  have hnumber := h.number
  have hclaimed := h.claimed
  have hrunning := h.running
  have hheld := h.held
  simp only [maxFailedExecutions] at hattempts hnumber
  simp only [Task.checked, Bool.and_eq_true, Bool.or_eq_true, decide_eq_true_eq, Option.all_eq_true]
  refine ⟨⟨⟨⟨⟨⟨hattempts, fun n hn => hnumber n hn⟩, ?_⟩, ?_⟩, h.code⟩, h.message⟩, h.finished⟩
  · by_cases hp : t.executionPhase = .preflight
    · obtain ⟨hid, htoken, hexpires, hbeat⟩ := hheld (Or.inl (hclaimed.2 hp))
      exact Or.inr ⟨⟨⟨⟨hclaimed.2 hp, hid⟩, htoken⟩, hexpires⟩, hbeat⟩
    · exact Or.inl hp
  · by_cases hp : t.executionPhase = .prefectStarted
    · obtain ⟨hid, htoken, hexpires, hbeat⟩ := hheld (Or.inr (hrunning.2 hp))
      exact Or.inr ⟨⟨⟨⟨hrunning.2 hp, hid⟩, htoken⟩, hexpires⟩, hbeat⟩
    · exact Or.inl hp

theorem Sound.later (h : Sound t now) {later : Int} (hle : now ≤ later) : Sound t later :=
  { h with created := le_trans h.created hle }

theorem acceptedTask_sound (run : Uuid) (weekStart now : Int) :
    Sound (acceptedTask run weekStart now) now := by
  constructor
  all_goals simp [acceptedTask, maxFailedExecutions]

/-- A row that a statement closes, or that it lets wait. -/
structure Shut (t u : Task) (now : Int) : Prop where
  state : u.executionState.unstarted = false ∧ u.executionState ≠ .running
  phase : u.executionPhase = .terminal
  attempts : u.attemptCount = t.attemptCount ∧ u.attemptNumber = t.attemptNumber
  code : ∀ s, u.errorCode = some s → t.errorCode = some s ∨ s.length ≤ 128
  message : ∀ s, u.errorMessage = some s → t.errorMessage = some s ∨ s.length ≤ 512
  created : u.createdAt = t.createdAt
  finished : u.finishedAt = some now

theorem Shut.keeps (hu : Shut t u now) : Keeps now t u := by
  intro h
  obtain ⟨hunstarted, hrunning⟩ := hu.state
  have hstates : u.executionState ≠ .accepted ∧ u.executionState ≠ .queued ∧ u.executionState ≠ .claimed ∧
      u.executionState ≠ .retryWait := by
    refine ⟨?_, ?_, ?_, ?_⟩
    all_goals
      intro he
      rw [he] at hunstarted
      cases hunstarted
  constructor
  case fresh => exact fun hs => hs.elim (absurd · hstates.1) (absurd · hstates.2.1)
  case waiting => exact fun hs => absurd hs hstates.2.2.2
  case claimed => simp [hstates.2.2.1, hu.phase]
  case running => simp [hrunning, hu.phase]
  case held => exact fun hs => hs.elim (absurd · hstates.2.2.1) (absurd · hrunning)
  case attempts => exact hu.attempts.1 ▸ h.attempts
  case number => exact hu.attempts.2 ▸ h.number
  case code => exact fun s hs => (hu.code s hs).elim (h.code s) id
  case message => exact fun s hs => (hu.message s hs).elim (h.message s) id
  case finished =>
    intro f hf
    rw [hu.finished, Option.some_inj] at hf
    rw [hu.created, ← hf]
    exact h.created
  case created => exact hu.created ▸ h.created

theorem claimExecution_keeps {token attempt : Uuid} {leaseSeconds : Int}
    (h : t.claimExecution token attempt leaseSeconds now = some u) : Keeps now t u := by
  intro hs
  have hbound := (claimable_spec (claimExecution_eq h).1).1
  unfold Task.claimExecution at h
  split at h
  · cases h
    refine ⟨by simp, by simp, by simp, by simp, by simp, hbound, fun n hn => ?_, hs.code, hs.message, hs.finished,
      hs.created⟩
    cases hn
    exact ⟨Nat.succ_pos _, hbound⟩
  · cases h

theorem startPrefect_keeps {token : Uuid} {epoch : Nat} {leaseSeconds : Int}
    (h : t.startPrefect token epoch leaseSeconds now = some u) : Keeps now t u := by
  intro hs
  unfold Task.startPrefect at h
  split at h
  case isTrue hc =>
    obtain ⟨hclaimed, -⟩ := claimedBy_spec (Bool.and_eq_true_iff.1 hc).1
    obtain ⟨hid, htoken, -, -⟩ := hs.held (Or.inl hclaimed)
    cases h
    exact ⟨by simp, by simp, by simp, by simp, fun _ => ⟨hid, htoken, rfl, rfl⟩, hs.attempts, hs.number, hs.code, hs.message,
      hs.finished, hs.created⟩
  · cases h

theorem heartbeatExecution_keeps {token : Uuid} {epoch : Nat} {leaseSeconds : Int}
    (h : t.heartbeatExecution token epoch leaseSeconds now = some u) : Keeps now t u := by
  intro hs
  unfold Task.heartbeatExecution at h
  split at h
  · cases h
    refine ⟨hs.fresh, hs.waiting, hs.claimed, hs.running, fun hh => ?_, hs.attempts, hs.number, hs.code,
      hs.message, hs.finished, hs.created⟩
    obtain ⟨hid, htoken, -, -⟩ := hs.held hh
    exact ⟨hid, htoken, rfl, rfl⟩
  · cases h

theorem finishExecution_keeps {token : Uuid} {epoch : Nat} {a : Task.Finish}
    (ha : a.state.unstarted = false ∧ a.state ≠ .running)
    (h : t.finishExecution alnum token epoch a now = some u) : Keeps now t u := by
  unfold Task.finishExecution at h
  split at h
  · cases h
    refine Shut.keeps ⟨ha, rfl, ⟨rfl, rfl⟩, fun s hs => ?_, fun s hs => ?_, rfl, rfl⟩
    · obtain ⟨code, -, rfl⟩ := Option.map_eq_some_iff.1 hs
      exact Or.inr (safeCode_length code).2
    · obtain ⟨message, -, rfl⟩ := Option.map_eq_some_iff.1 hs
      exact Or.inr ((sanitizeMessage_length alnum message).trans (by omega))
  · cases h

theorem failClaim_keeps {token : Uuid} {epoch : Nat} {state : ExecutionState}
    (ha : state.unstarted = false ∧ state ≠ .running) {code message : String}
    (h : t.failClaim alnum token epoch state code message now = some u) : Keeps now t u := by
  unfold Task.failClaim at h
  split at h
  · cases h
    refine Shut.keeps ⟨ha, rfl, ⟨rfl, rfl⟩, fun s hs => ?_, fun s hs => ?_, rfl, rfl⟩
    · cases hs
      exact Or.inr (safeCode_length code).2
    · cases hs
      exact Or.inr ((sanitizeMessage_length alnum message).trans (by omega))
  · cases h

theorem scheduleRetry_keeps {token : Uuid} {epoch : Nat} {nextAttemptAt : Int} {code message : String}
    (hbound : t.attemptCount < maxFailedExecutions)
    (h : t.scheduleRetry alnum token epoch nextAttemptAt code message = some u) : Keeps now t u := by
  intro hs
  unfold Task.scheduleRetry at h
  split at h
  · cases h
    refine ⟨by simp, fun _ => ⟨hbound, rfl⟩, by simp, by simp, by simp, hs.attempts, hs.number, fun s hcode => ?_,
      fun s hmessage => ?_, hs.finished, hs.created⟩
    · cases hcode
      exact (safeCode_length code).2
    · cases hmessage
      exact (sanitizeMessage_length alnum message).trans (by omega)
  · cases h

theorem dispatched_keeps (t : Task) : Keeps now t t.dispatched := by
  intro hs
  unfold Task.dispatched
  by_cases ha : t.executionState = .accepted
  · have hclaimed := hs.claimed
    have hrunning := hs.running
    rw [ha] at hclaimed hrunning
    rw [if_pos ha]
    exact ⟨fun _ => hs.fresh (Or.inl ha),
        by simp, by simpa using hclaimed, by simpa using hrunning, by simp, hs.attempts,
      hs.number, hs.code, hs.message, hs.finished, hs.created⟩
  · rw [if_neg ha]
    exact ⟨hs.fresh, hs.waiting, hs.claimed, hs.running, hs.held, hs.attempts, hs.number, hs.code,
      hs.message, hs.finished, hs.created⟩

theorem undispatched_keeps (t : Task) : Keeps now t t.undispatched := fun hs =>
  ⟨hs.fresh, hs.waiting, hs.claimed, hs.running, hs.held, hs.attempts, hs.number, hs.code, hs.message,
    hs.finished, hs.created⟩

theorem closing_keeps {c : Claim} {inserted : Bool} {update : Closing}
    (h : update.apply alnum c inserted t now = some u) : Keeps now t u := by
  have hstate : (letteredState inserted).unstarted = false ∧ letteredState inserted ≠ .running := by
    cases inserted <;> decide
  cases update with
  | failClaim code message => exact failClaim_keeps hstate h
  | finish status => exact finishExecution_keeps hstate h

theorem resultOutcome_ended (r : CoordinatorResult) :
    (resultOutcome r).1.unstarted = false ∧ (resultOutcome r).1 ≠ .running := by
  unfold resultOutcome
  repeat' split
  all_goals exact ⟨rfl, fun h => by cases h⟩

theorem runOutcome_ended {status : RunStatus} {commitResult : CommitResult} {state : ExecutionState}
    {published : Option Bool} (h : runOutcome status commitResult = some (state, published)) :
    state.closed = true := by
  unfold runOutcome at h
  repeat' split at h
  all_goals cases h <;> rfl

theorem reconcile_keeps (task : Uuid) (t : Task) (run : RunRecord) (letters : List DeadLetter)
    (fault : Bool) : Keeps now t (t.reconcile alnum task run letters fault now).2.1 := by
  unfold Task.reconcile
  split
  case isTrue hpending =>
    split
    · intro hs
      have hclaimed := hs.claimed
      have hrunning := hs.running
      rw [hpending] at hclaimed hrunning
      exact ⟨by simp, by simp, by simpa using hclaimed, by simpa using hrunning, by simp, hs.attempts, hs.number, hs.code,
        hs.message, hs.finished, hs.created⟩
    · exact .refl t
  · split
    · exact .refl t
    · split
      · rename_i state published hout
        have hclosed := runOutcome_ended hout
        refine Shut.keeps ⟨?_, rfl, ⟨rfl, rfl⟩, fun s hs => Or.inl hs, fun s hs => Or.inl hs, rfl, rfl⟩
        show state.unstarted = false ∧ state ≠ .running
        revert hclosed
        cases state <;> decide
      · split
        · refine Shut.keeps ⟨⟨rfl, fun h => by cases h⟩, rfl, ⟨rfl, rfl⟩, fun s hs => Or.inr ?_,
              fun s hs => Or.inr ?_, rfl, rfl⟩
          · cases hs
            decide
          · cases hs
            decide
        · exact .refl t

/-! ## Tasks, runs and letters -/

/-- The run of a task stays. -/
def SameRun (t u : Task) : Prop := u.runId = t.runId

theorem SameRun.refl (t : Task) : SameRun t t := rfl

/-- A worker whose claim was granted, and whose letter is of its task. -/
structure Bound (σ : System Wk) (x : Worker) : Prop where
  claim : ∀ c, x.claim = some c → c ∈ σ.claims c.taskId
  letter : ∀ c d update, x = .closing c (some d) update → d.taskId = c.taskId ∧ d.runId = c.runId

/-- Each task has its run, each run at most one task, and claims and letters go with both. -/
structure Linked (σ : System Wk) : Prop where
  runs : ∀ k t, σ.tasks k = some t → (σ.runs t.runId).isSome
  unique : ∀ k k' t t', σ.tasks k = some t → σ.tasks k' = some t' → t.runId = t'.runId → k = k'
  claims : ∀ k c, c ∈ σ.claims k → ∃ t, σ.tasks k = some t ∧ t.runId = c.runId
  letters : ∀ d ∈ σ.letters, ∃ t, σ.tasks d.taskId = some t ∧ t.runId = d.runId
  workers : ∀ w x, σ.workers w = some x → Bound σ x

theorem tryDeadLetter_mem {letters : List DeadLetter} {d d' : DeadLetter} {fault : Bool}
    (h : d' ∈ (tryDeadLetter letters d fault).2) : d' ∈ letters ∨ d' = d := by
  unfold tryDeadLetter insertDeadLetter at h
  split at h
  · exact Or.inl h
  · split at h
    · exact Or.inl h
    · split at h
      · exact Or.inl h
      · split at h
        · exact Or.inl h
        · simpa using h

theorem commitLetter_mem {letters : List DeadLetter} {d d' : DeadLetter}
    (h : d' ∈ commitLetter letters (some d)) : d' ∈ letters ∨ d' = d := by
  unfold commitLetter at h
  dsimp only at h
  split at h
  · exact Or.inl h
  · simpa using h

theorem reconcile_letters {task : Uuid} {run : RunRecord} {letters : List DeadLetter} {fault : Bool}
    {d : DeadLetter} (h : d ∈ (t.reconcile alnum task run letters fault now).2.2) :
    d ∈ letters ∨ d.taskId = task ∧ d.runId = t.runId := by
  unfold Task.reconcile at h
  split at h
  · have hmem : d ∈ (tryDeadLetter letters (t.pendingLetter alnum task) fault).2 → _ := tryDeadLetter_mem
    cases htry : tryDeadLetter letters (t.pendingLetter alnum task) fault with
    | mk inserted letters' =>
      rw [htry] at h hmem
      have hd : d ∈ letters' := by cases inserted <;> exact h
      rcases hmem hd with hold | rfl
      · exact Or.inl hold
      · exact Or.inr ⟨rfl, rfl⟩
  · split at h
    · exact Or.inl h
    · split at h
      · exact Or.inl h
      · split at h
        · exact Or.inl h
        · exact Or.inl h

section Links

variable {σ σ' : System Wk}

theorem Follows.eq_some {R : Task → Task → Prop} {o o' : Option Task} (h : Follows R o o') {u : Task}
    (hu : o' = some u) : ∃ t, o = some t ∧ R t u := by
  cases o with
  | none => cases h.symm.trans hu
  | some t =>
    obtain ⟨u', hu', hr⟩ := h
    cases hu'.symm.trans hu
    exact ⟨t, rfl, hr⟩

theorem Follows.of_some {R : Task → Task → Prop} {o o' : Option Task} (h : Follows R o o') {t : Task}
    (ht : o = some t) : ∃ u, o' = some u ∧ R t u := by
  subst ht
  exact h

/-- A step that grants no claim and accepts no task. -/
theorem Linked.keep {τ : System Wk} (h : Linked σ)
    (hruns : ∀ run, (σ.runs run).isSome → (τ.runs run).isSome)
    (htasks : ∀ k, Follows SameRun (σ.tasks k) (τ.tasks k)) (hclaims : ∀ k, τ.claims k = σ.claims k)
    (hletters : ∀ d ∈ τ.letters, d ∈ σ.letters ∨ ∃ t, σ.tasks d.taskId = some t ∧ t.runId = d.runId)
    (hworkers : ∀ w x, τ.workers w = some x → Bound σ x) : Linked τ := by
  have hfound : ∀ k r, (∃ t, σ.tasks k = some t ∧ t.runId = r) → ∃ u, τ.tasks k = some u ∧ u.runId = r := by
    rintro k r ⟨t, ht, hr⟩
    obtain ⟨u, hu, hsame⟩ := (htasks k).of_some ht
    exact ⟨u, hu, hsame.trans hr⟩
  refine ⟨fun k u hu => ?_, fun k k' u u' hu hu' hr => ?_, fun k c hc => ?_, fun d hd => ?_,
    fun w x hw => ?_⟩
  · obtain ⟨t, ht, hsame⟩ := (htasks k).eq_some hu
    rw [show u.runId = t.runId from hsame]
    exact hruns _ (h.runs k t ht)
  · obtain ⟨t, ht, hsame⟩ := (htasks k).eq_some hu
    obtain ⟨t', ht', hsame'⟩ := (htasks k').eq_some hu'
    exact h.unique k k' t t' ht ht' (hsame.symm.trans (hr.trans hsame'))
  · exact hfound _ _ (h.claims k c (hclaims k ▸ hc))
  · rcases hletters d hd with hold | hnew
    · exact hfound _ _ (h.letters d hold)
    · exact hfound _ _ hnew
  · exact ⟨fun c hc => hclaims c.taskId ▸ (hworkers w x hw).claim c hc, (hworkers w x hw).letter⟩

theorem Linked.accept (h : Linked σ) {task run : Uuid} {weekStart : Int} (htask : σ.tasks task = none)
    (hrun : σ.runs run = none) : Linked { σ with
      tasks := Function.update σ.tasks task (some (acceptedTask run weekStart σ.clock))
      runs := Function.update σ.runs run (some (createdRun run weekStart σ.clock)) } := by
  have hrow : ∀ k t, (Function.update σ.tasks task (some (acceptedTask run weekStart σ.clock))) k = some t →
      (k = task ∧ t.runId = run) ∨ (k ≠ task ∧ σ.tasks k = some t) := by
    intro k t hk
    rw [Function.update_apply] at hk
    split at hk
    case isTrue hkt =>
      cases hk
      exact Or.inl ⟨hkt, rfl⟩
    case isFalse hkt => exact Or.inr ⟨hkt, hk⟩
  have hold : ∀ k t, σ.tasks k = some t →
      (Function.update σ.tasks task (some (acceptedTask run weekStart σ.clock))) k = some t := by
    intro k t hk
    have hkt : k ≠ task := by
      rintro rfl
      cases htask.symm.trans hk
    rw [Function.update_of_ne hkt, hk]
  have hother : ∀ k t, σ.tasks k = some t → t.runId ≠ run := by
    intro k t hk hr
    have hsome := h.runs k t hk
    rw [hr, hrun] at hsome
    cases hsome
  refine ⟨fun k t hk => ?_, fun k k' t t' hk hk' hr => ?_, fun k c hc => ?_, fun d hd => ?_,
    fun w x hw => ?_⟩
  · show (Function.update σ.runs run _ t.runId).isSome
    rw [Function.update_apply]
    split
    · rfl
    case isFalse hne => exact h.runs k t ((hrow k t hk).resolve_left fun hnew => hne hnew.2).2
  · rcases hrow k t hk with ⟨rfl, ht⟩ | ⟨-, ht⟩
    · rcases hrow k' t' hk' with ⟨rfl, -⟩ | ⟨-, ht'⟩
      · rfl
      · exact absurd (hr.symm.trans ‹t.runId = run›) (hother k' t' ht')
    · rcases hrow k' t' hk' with ⟨rfl, ht'⟩ | ⟨-, ht'⟩
      · exact absurd (hr.trans ht') (hother k t ht)
      · exact h.unique k k' t t' ht ht' hr
  · obtain ⟨t, ht, hr⟩ := h.claims k c hc
    exact ⟨t, hold k t ht, hr⟩
  · obtain ⟨t, ht, hr⟩ := h.letters d hd
    exact ⟨t, hold _ t ht, hr⟩
  · exact ⟨(h.workers w x hw).claim, (h.workers w x hw).letter⟩

/-- The claim is remembered with the run of its task. -/
theorem Linked.claim (h : Linked σ) {task token attempt : Uuid} {t u : Task} {leaseSeconds : Int}
    (ht : σ.tasks task = some t) (hc : t.claimExecution token attempt leaseSeconds σ.clock = some u) :
    Linked ((σ.setTask task u).record (.claimed ⟨task, t.runId, token, u.executionEpoch,
      u.attemptCount⟩)) := by
  have hset : Linked (σ.setTask task u) := by
    refine h.keep (fun _ hr => hr) (follows_setTask SameRun.refl ht (claimExecution_eq hc).2.2.2.2)
      (fun _ => rfl) (fun d hd => Or.inl hd) fun w x hw => h.workers w x hw
  have hclaims : ∀ k c, c ∈ ((σ.setTask task u).record
      (.claimed ⟨task, t.runId, token, u.executionEpoch, u.attemptCount⟩)).claims k →
      c ∈ σ.claims k ∨ (k = task ∧ c.runId = t.runId) := by
    intro k c hmem
    rw [claims_record] at hmem
    rcases List.mem_append.1 hmem with hold | hnew
    · exact Or.inl hold
    · simp only [Event.claimOf] at hnew
      split at hnew
      case isTrue hk =>
        rw [Option.toList_some, List.mem_singleton] at hnew
        exact Or.inr ⟨hk.symm, by rw [hnew]⟩
      · cases hnew
  refine ⟨hset.runs, hset.unique, fun k c hmem => ?_, hset.letters, fun w x hw => ?_⟩
  · rcases hclaims k c hmem with hold | ⟨rfl, hr⟩
    · exact hset.claims k c hold
    · refine ⟨u, ?_, (claimExecution_eq hc).2.2.2.2.trans hr.symm⟩
      rw [System.record_tasks, System.setTask_tasks, if_pos rfl]
  · refine ⟨fun c hclaim => ?_, (hset.workers w x hw).letter⟩
    rw [claims_record]
    exact List.mem_append_left _ ((hset.workers w x hw).claim c hclaim)

end Links

section Steps

variable [DecidableEq Wk] {σ σ' : System Wk} {l : Label Wk}

theorem Linked.move (h : Linked σ) {w : Wk} {next : Option Worker} (hn : ∀ x, next = some x → Bound σ x) :
    Linked (σ.move w next) := by
  refine h.keep (fun _ hr => hr) (fun _ => .refl SameRun.refl _) (fun _ => rfl) (fun d hd =>
      Or.inl hd) fun v x hv => ?_
  rw [System.move_workers] at hv
  split at hv
  · exact hn x hv
  · exact h.workers v x hv

/-- The next phase of a worker with the same claim, in which it holds no letter. -/
theorem Linked.next (h : Linked σ) {w : Wk} {x y : Worker} (hw : σ.workers w = some x)
    (hclaim : y.claim = x.claim)
    (hy : ∀ c d update, y ≠ .closing c (some d) update) : Linked (σ.move w (some y)) := by
  refine h.move fun z hz => ?_
  cases hz
  exact ⟨fun c hc => (h.workers w x hw).claim c (hclaim ▸ hc), fun c d update he =>
      absurd he (hy c d update)⟩

theorem Linked.leave (h : Linked σ) (w : Wk) : Linked (σ.move w none) := h.move fun _ hx => by cases hx

omit [DecidableEq Wk] in
theorem Linked.update (h : Linked σ) {task : Uuid} {statement : Task → Option Task}
    (hs : ∀ t u, σ.tasks task = some t → statement t = some u → SameRun t u) :
    Linked (σ.update task statement) :=
  h.keep (fun _ hr => by rwa [System.update_runs]) (follows_update SameRun.refl hs)
    (fun k => by rw [System.claims, System.update_history, System.claims])
    (fun d hd => by rw [System.update_letters] at hd; exact Or.inl hd)
    fun w x hw => h.workers w x (by rwa [System.update_workers] at hw)

theorem Linked.step (h : Linked σ) (hs : Step alnum σ l σ') : Linked σ' := by
  cases hs with
  | accept task run weekStart htask hrun => exact h.accept htask hrun
  | pipeline runs hruns =>
    exact h.keep hruns (fun _ => .refl SameRun.refl _) (fun _ => rfl) (fun d hd => Or.inl hd) h.workers
  | tick now hnow =>
    exact h.keep (fun _ hr => hr) (fun _ => .refl SameRun.refl _) (fun _ => rfl) (fun d hd =>
        Or.inl hd) h.workers
  | relayPublished task => exact h.update fun t u _ hu => by cases hu; rfl
  | relayExhausted task => exact h.update fun t u _ hu => by cases hu; rfl
  | reconcile fault ht hrun =>
    refine h.keep (fun _ hr => hr) (follows_setTask SameRun.refl ht (reconcile_steady ..).run)
      (fun _ => rfl) (fun d hd => ?_) h.workers
    rcases reconcile_letters hd with hold | ⟨hid, hr⟩
    · exact Or.inl hold
    · exact Or.inr ⟨_, hid ▸ ht, hr.symm⟩
  | deliver task run weekStart hw =>
    refine h.move fun x hx => ?_
    cases hx
    exact ⟨fun _ hc => (nomatch hc), fun _ _ _ he => (nomatch he)⟩
  | leave w => exact h.leave w
  | refuse hw hnone => exact h.next hw rfl fun _ _ _ he => by cases he
  | claim token attempt leaseSeconds hw ht hlease hc =>
    refine (h.claim ht hc).move fun x hx => ?_
    split at hx
    · cases hx
      refine ⟨fun c hc => ?_, fun _ _ _ he => by cases he⟩
      cases hc
      rw [claims_record]
      simp [Event.claimOf]
    · cases hx
  | probe next hw hnext =>
    rcases hnext with rfl | ⟨code, message, rfl | rfl⟩
    all_goals exact h.next hw rfl fun _ _ _ he => by cases he
  | retry nextAttemptAt hw hattempt =>
      exact (h.update fun t u _ hu => (scheduleRetry_steady hu).run).leave _
  | @start w c t t' leaseSeconds hw ht hstart =>
    have hset := h.keep (τ := (σ.setTask c.taskId t').record (.started c)) (fun _ hr => hr)
      (follows_setTask SameRun.refl ht (startPrefect_steady hstart).1.run)
      (fun k => (claims_record _ k).trans (List.append_nil _)) (fun d hd => Or.inl hd) h.workers
    exact hset.next hw rfl fun _ _ _ he => by cases he
  | @launch w c hw =>
    have hrecord := h.keep (τ := σ.record (.launched c)) (fun _ hr => hr) (fun _ => .refl SameRun.refl _)
      (fun k => (claims_record _ k).trans (List.append_nil _)) (fun d hd => Or.inl hd) h.workers
    exact hrecord.next hw rfl fun _ _ _ he => by cases he
  | heartbeat c leaseSeconds hc => exact h.update fun t u _ hu => (heartbeatExecution_steady hu).run
  | end_ next hw hnext =>
    rcases hnext with ⟨code, message, rfl⟩ | ⟨r, rfl⟩
    all_goals exact h.next hw rfl fun _ _ _ he => by cases he
  | finishRaised hw => exact (h.update fun t u _ hu => (finishExecution_steady rfl hu).run).leave _
  | finishReturned hw hr =>
    exact (h.update fun t u _ hu => (finishExecution_steady (resultOutcome_started _) hu).run).leave _
  | letter fault hw hletter =>
    obtain ⟨hclaim, hid, hrun⟩ := letter_spec hletter
    refine h.move fun x hx => ?_
    cases hx
    refine ⟨fun c hc => ?_, fun c d update he => ?_⟩
    · cases hc
      exact (h.workers _ _ hw).claim _ hclaim
    · split at he
      · cases he
        exact ⟨hid, hrun⟩
      · cases he
  | @close w c inserted update hw =>
    refine Linked.leave ?_ _
    refine h.keep (fun _ hr => by rwa [System.update_runs]) (follows_update SameRun.refl fun t u _ hu =>
        (closing_steady hu).run) (fun k => ?_) (fun d hd => ?_) fun v x hv => h.workers v x
      (by rwa [System.update_workers] at hv)
    · show (System.update ..).claims k = σ.claims k
      rw [System.claims, System.update_history, System.claims]
    · cases inserted with
      | none => exact Or.inl hd
      | some d' =>
        rcases commitLetter_mem hd with hold | rfl
        · exact Or.inl hold
        · obtain ⟨hid, hr⟩ := (h.workers w _ hw).letter c d update rfl
          obtain ⟨t, ht, hrun⟩ := h.claims _ c ((h.workers w _ hw).claim c rfl)
          exact Or.inr ⟨t, hid ▸ ht, hrun.trans hr.symm⟩

omit [DecidableEq Wk] in
/-- A step that keeps rows sound. -/
theorem sound_keep (h : ∀ k t, σ.tasks k = some t → Sound t σ.clock)
    (htasks : ∀ k, Follows (Keeps σ.clock) (σ.tasks k) (σ'.tasks k)) (hclock : σ.clock ≤ σ'.clock) :
    ∀ k t, σ'.tasks k = some t → Sound t σ'.clock := by
  intro k u hu
  obtain ⟨t, ht, hkeeps⟩ := (htasks k).eq_some hu
  exact (hkeeps (h k t ht)).later hclock

omit [DecidableEq Wk] in
/-- Under the fence of a claim the row counts the attempt of the claim. -/
theorem attempt_of_fence (hinv : Inv σ) {task : Uuid} {t : Task} (ht : σ.tasks task = some t) {c : Claim}
    (hc : c ∈ σ.claims task) (hfence : t.claimedBy c.token c.epoch = true) :
    t.attemptCount = c.attempt := by
  have hrow := hinv.row task t ht
  have hepoch := (claimedBy_spec hfence).2.2.2
  have hattempt := hrow.attempts c hc
  have he := hrow.epoch
  omega

theorem sound_step (hinv : Inv σ) (hlinked : Linked σ) (h : ∀ k t, σ.tasks k = some t → Sound t σ.clock)
    (hs : Step alnum σ l σ') : ∀ k t, σ'.tasks k = some t → Sound t σ'.clock := by
  have hquiet : ∀ k, Follows (Keeps σ.clock) (σ.tasks k) (σ.tasks k) := fun _ => .refl Keeps.refl _
  have hupdate : ∀ {task : Uuid} {statement : Task → Option Task},
      (∀ t u, σ.tasks task = some t → statement t = some u → Keeps σ.clock t u) →
      ∀ k, Follows (Keeps σ.clock) (σ.tasks k) ((σ.update task statement).tasks k) :=
        fun hk => follows_update Keeps.refl hk
  cases hs with
  | accept task run weekStart htask hrun =>
    intro k t hk
    have hk : Function.update σ.tasks task (some (acceptedTask run weekStart σ.clock)) k = some t := hk
    rw [Function.update_apply] at hk
    split at hk
    · cases hk
      exact acceptedTask_sound run weekStart σ.clock
    · exact h k t hk
  | pipeline runs hruns => exact h
  | tick now hnow => exact sound_keep h hquiet hnow
  | relayPublished task =>
    exact sound_keep h (hupdate fun t u _ hu => by cases hu; exact dispatched_keeps t)
      (le_of_eq (System.update_clock ..).symm)
  | relayExhausted task =>
    exact sound_keep h (hupdate fun t u _ hu => by cases hu; exact undispatched_keeps t)
      (le_of_eq (System.update_clock ..).symm)
  | reconcile fault ht hrun =>
    exact sound_keep h (follows_setTask Keeps.refl ht (reconcile_keeps _ _ _ _ _)) (le_refl _)
  | deliver task run weekStart hw => exact h
  | leave w => exact h
  | refuse hw hnone => exact h
  | claim token attempt leaseSeconds hw ht hlease hc =>
    exact sound_keep h (follows_setTask Keeps.refl ht (claimExecution_keeps hc)) (le_refl _)
  | probe next hw hnext => exact h
  | @retry w c code message nextAttemptAt hw hattempt =>
    refine sound_keep h (hupdate fun t u ht hu => scheduleRetry_keeps ?_ hu)
      (le_of_eq (System.update_clock ..).symm)
    have hfence : t.claimedBy c.token c.epoch = true := by
      by_contra hf
      rw [Task.scheduleRetry, if_neg hf] at hu
      cases hu
    rwa [attempt_of_fence hinv ht ((hlinked.workers w _ hw).claim c rfl) hfence]
  | start leaseSeconds hw ht hstart =>
    exact sound_keep h (follows_setTask Keeps.refl ht (startPrefect_keeps hstart)) (le_refl _)
  | launch hw => exact h
  | heartbeat c leaseSeconds hc =>
    exact sound_keep h (hupdate fun t u _ hu => heartbeatExecution_keeps hu)
      (le_of_eq (System.update_clock ..).symm)
  | end_ next hw hnext => exact h
  | finishRaised hw =>
    exact sound_keep h (hupdate fun t u _ hu => finishExecution_keeps ⟨rfl, fun he => by cases he⟩ hu)
      (le_of_eq (System.update_clock ..).symm)
  | finishReturned hw hr =>
    exact sound_keep h (hupdate fun t u _ hu => finishExecution_keeps (resultOutcome_ended _) hu)
      (le_of_eq (System.update_clock ..).symm)
  | letter fault hw hletter => exact h
  | close hw =>
    exact sound_keep h (hupdate fun t u _ hu => closing_keeps hu) (le_of_eq (System.update_clock ..).symm)

theorem Reachable.linked (h : Reachable alnum σ) : Linked σ := by
  induction h with
  | empty runs clock =>
    exact ⟨fun _ _ h => (nomatch h), fun _ _ _ _ h => (nomatch h), fun _ _ h => (nomatch h),
      fun _ h => (nomatch h), fun _ _ h => (nomatch h)⟩
  | step _ hs ih => exact ih.step hs

theorem Reachable.sound (h : Reachable alnum σ) : ∀ k t, σ.tasks k = some t → Sound t σ.clock := by
  induction h with
  | empty runs clock => exact fun _ _ h => (nomatch h)
  | step hr hs ih => exact sound_step hr.inv hr.linked ih hs

end Steps

/-! ## Open tasks -/

theorem claims_iff : Claims t now ↔ t.claimable now = true := by
  unfold Claims Task.claimExecution
  constructor
  · intro h
    by_contra hc
    exact h (Uuid.ofNat 0) (Uuid.ofNat 0) 0 (if_neg hc)
  · intro hc token attempt leaseSeconds
    rw [if_pos hc]
    exact Option.some_ne_none _

theorem elapsed_any {o : Option Int} (hsome : o.isSome) (h : ∀ e, o = some e → e ≤ now) :
    o.any (· ≤ now) = true := by
  cases o with
  | none => cases hsome
  | some e => simpa using h e rfl

/-- Until its last claim a task that was not started can be claimed. -/
theorem Sound.claims (h : Sound t now) (helapsed : t.Elapsed now)
    (hunstarted : t.executionState.unstarted = true)
    (hlast : t.executionState = .claimed → t.attemptCount ≠ maxFailedExecutions) : Claims t now := by
  rw [claims_iff, Task.claimable]
  have hattempts := h.attempts
  cases hs : t.executionState with
  | accepted =>
    have hfresh := h.fresh (Or.inl hs)
    simp [hfresh, maxFailedExecutions]
  | queued =>
    have hfresh := h.fresh (Or.inr hs)
    simp [hfresh, maxFailedExecutions]
  | claimed =>
    have hne := hlast hs
    have hlt : t.attemptCount < maxFailedExecutions := by omega
    have hexpired := elapsed_any (h.held (Or.inl hs)).2.2.1 helapsed.lease
    simp [hlt, h.claimed.1 hs, hexpired]
  | retryWait =>
    obtain ⟨hlt, hnext⟩ := h.waiting hs
    have hdue := elapsed_any hnext helapsed.delay
    simp [hlt, hdue]
  | running | succeeded | failed | deadLettered | failurePendingDlq | reconciliationRequired =>
    rw [hs] at hunstarted
    cases hunstarted

/-- The dead letter of a failure that waits for one passes the constraints of its table. -/
theorem Sound.pendingLetter_checked (h : Sound t now) (task : Uuid) :
    (t.pendingLetter alnum task).checked = true := by
  have hgiven : ∀ (value : Option String) (default : String), default ≠ "" →
      (if RunUpdate.falsy value then default else value.getD default) ≠ "" := by
    intro value default hdefault
    split
    · exact hdefault
    case isFalse hf =>
      cases value with
      | none => exact absurd rfl hf
      | some s =>
        rintro (rfl : s = "")
        exact hf rfl
  have hreason : ∀ p : Prop, ∀ [Decidable p], safeCode (if p then "retries_exhausted" else
      "non_retryable") ∈
      ["retries_exhausted", "non_retryable", "pipeline_terminal"] := by
    intro p _
    split <;> decide
  have hattempts : t.attemptCount ≤ 3 := h.attempts
  have hmessage := sanitizeMessage_ne_empty alnum (hgiven t.errorMessage "terminal task failure"
      (by decide))
  have hlength : ∀ s : String, s ≠ "" → 1 ≤ s.length := by
    intro s hs
    rw [Nat.one_le_iff_ne_zero, ← String.length_toList, Ne, List.length_eq_zero_iff]
    simpa using hs
  simp only [DeadLetter.checked, Task.pendingLetter, deadLetter, Bool.and_eq_true]
  refine ⟨⟨⟨⟨⟨⟨decide_eq_true (le_max_left _ _), decide_eq_true (by omega)⟩, decide_eq_true (hreason _)⟩,
    decide_eq_true (safeCode_length _).1⟩, decide_eq_true (safeCode_length _).2⟩,
        decide_eq_true (hlength _ hmessage)⟩, ?_⟩
  exact decide_eq_true ((sanitizeMessage_length ..).trans (by omega))

/-- A letter of a task and its run is inserted, or is there. -/
theorem Linked.inserted {σ : System Wk} (h : Linked σ) {t : Task} {d : DeadLetter}
    (ht : σ.tasks d.taskId = some t) (hr : d.runId = t.runId) (hchecked : d.checked = true) :
    (tryDeadLetter σ.letters d false).1 = true := by
  have hsame : ∀ old ∈ σ.letters, old.taskId = d.taskId ↔ old.runId = d.runId := by
    intro old hold
    obtain ⟨t', ht', hr'⟩ := h.letters old hold
    constructor
    · intro he
      rw [he, ht] at ht'
      cases ht'
      rw [← hr', hr]
    · exact fun he => h.unique _ _ t' t ht' ht (hr'.trans (he.trans hr))
  unfold tryDeadLetter insertDeadLetter
  rw [if_neg (by decide), hchecked]
  simp only [Bool.not_true, Bool.false_eq_true, if_false]
  cases hfind : σ.letters.find? fun old => old.taskId = d.taskId with
  | some old =>
    have hid : old.taskId = d.taskId := by simpa using List.find?_some hfind
    simpa using (hsame old (List.mem_of_find?_eq_some hfind)).1 hid
  | none =>
    have hnone : ¬ σ.letters.any fun old => old.runId = d.runId := by
      simp only [List.any_eq_true, decide_eq_true_eq, not_exists, not_and]
      intro old hold he
      have hfresh : old.taskId ≠ d.taskId := by simpa using List.find?_eq_none.1 hfind old hold
      exact hfresh ((hsame old hold).2 he)
    dsimp only
    rw [if_neg hnone]
    rfl

theorem runOutcome_ne {status : RunStatus} {commitResult : CommitResult}
    {outcome : ExecutionState × Option Bool} (h : runOutcome status commitResult = some outcome)
    {s : ExecutionState} (hs : s.closed = false) : outcome.1 ≠ s := by
  rintro rfl
  cases (runOutcome_ended h).symm.trans hs

/-- The reconciler closes a task whose failure waits for its letter, and one whose pipeline was
abandoned. -/
theorem started_reconciles {σ : System Wk} (hlinked : Linked σ) {task : Uuid} (ht : σ.tasks task = some t)
    (h : Sound t σ.clock) (helapsed : t.Elapsed σ.clock)
    (hs : t.executionState = .failurePendingDlq ∨ t.executionState = .running) :
    Reconciles alnum σ task t := by
  obtain ⟨run, hrun⟩ := Option.isSome_iff_exists.1 (hlinked.runs task t ht)
  refine ⟨run, hrun, ?_⟩
  unfold Task.reconcile
  rcases hs with hs | hs
  · have hinserted := hlinked.inserted (d := t.pendingLetter alnum task) ht rfl
        (h.pendingLetter_checked task)
    rw [if_pos hs]
    cases htry : tryDeadLetter σ.letters (t.pendingLetter alnum task) false with
    | mk inserted letters =>
      rw [htry] at hinserted
      cases (show inserted = true from hinserted)
      rw [hs]
      intro he
      cases he
  · have hclosed : t.executionState ∉ [.succeeded, .deadLettered, .failed, .reconciliationRequired] := by
      rw [hs]
      decide
    rw [if_neg (by rw [hs]; decide), if_neg hclosed]
    cases hout : runOutcome run.status run.commitResult with
    | some outcome => exact runOutcome_ne hout (by rw [hs]; rfl)
    | none =>
      have hexpired : t.claimExpired σ.clock = true := elapsed_any (h.held (Or.inr hs)).2.2.1 helapsed.lease
      dsimp only
      rw [if_pos ⟨hs, h.running.1 hs, hexpired⟩, hs]
      intro he
      cases he

/-- `reconcile_one` finds these tasks by itself, whatever their runs. -/
theorem Sound.reconcilable (h : Sound t now) (helapsed : t.Elapsed now)
    (hs : t.executionState = .failurePendingDlq ∨ t.executionState = .running) (run : RunRecord) :
    t.reconcilable run now = true := by
  unfold Task.reconcilable
  rcases hs with hs | hs
  · simp [hs]
  · have hexpired : t.claimExpired now = true := elapsed_any (h.held (Or.inr hs)).2.2.1 helapsed.lease
    simp [hs, h.running.1 hs, hexpired]

/-- A task whose last claim is not used stays as it is. -/
theorem Stranded.not_reconciles {σ : System Wk} {task : Uuid} (h : Stranded σ t) :
    ¬ Reconciles alnum σ task t := by
  rintro ⟨run, hrun, hchange⟩
  refine hchange ?_
  unfold Task.reconcile
  rw [if_neg (by rw [h.claimed]; decide), if_neg (by rw [h.claimed]; decide), h.undecided run hrun]
  dsimp only
  rw [if_neg (by rw [h.claimed]; simp)]

/-- In every reachable state, an open task whose lease and delay are over can be claimed again or is
closed by the reconciler if and only if it is not stranded. -/
theorem open_task_moves [DecidableEq Wk] {σ : System Wk} (h : Reachable alnum σ) {task : Uuid} {t : Task}
    (ht : σ.tasks task = some t) (hopen : t.executionState.closed = false) (helapsed : t.Elapsed σ.clock) :
    Claims t σ.clock ∨ Reconciles alnum σ task t ↔ ¬ Stranded σ t := by
  have hsound := h.sound task t ht
  constructor
  · rintro (hclaims | hreconciles) hstranded
    · have hlt := (claimable_spec (claims_iff.1 hclaims)).1
      have hlast := hstranded.last
      omega
    · exact hstranded.not_reconciles hreconciles
  · intro hstranded
    cases hs : t.executionState with
    | accepted => exact Or.inl (hsound.claims helapsed (by rw [hs]; rfl) (by rw [hs]; intro he; cases he))
    | queued => exact Or.inl (hsound.claims helapsed (by rw [hs]; rfl) (by rw [hs]; intro he; cases he))
    | retryWait => exact Or.inl (hsound.claims helapsed (by rw [hs]; rfl) (by rw [hs]; intro he; cases he))
    | running => exact Or.inr (started_reconciles h.linked ht hsound helapsed (Or.inr hs))
    | failurePendingDlq => exact Or.inr (started_reconciles h.linked ht hsound helapsed (Or.inl hs))
    | claimed =>
      by_cases hlast : t.attemptCount = maxFailedExecutions
      · obtain ⟨run, hrun⟩ := Option.isSome_iff_exists.1 (h.linked.runs task t ht)
        refine Or.inr ⟨run, hrun, ?_⟩
        cases hout : runOutcome run.status run.commitResult with
        | none =>
          refine absurd ⟨hs, hlast, fun run' hrun' => ?_⟩ hstranded
          cases hrun.symm.trans hrun'
          exact hout
        | some outcome =>
          unfold Task.reconcile
          rw [if_neg (by rw [hs]; decide), if_neg (by rw [hs]; decide), hout]
          exact runOutcome_ne hout (by rw [hs]; rfl)
      · exact Or.inl (hsound.claims helapsed (by rw [hs]; rfl) fun _ => hlast)
    | succeeded | failed | deadLettered | reconciliationRequired =>
      rw [hs] at hopen
      cases hopen

/-- The task of the example, long after its first claim. -/
theorem open_task_moves_example : ∃ (σ : System Nat) (t : Task), Reachable Char.isAlphanum σ ∧
    σ.tasks (Uuid.ofNat 1) = some t ∧ t.executionState = .claimed ∧ Claims t σ.clock := by
  obtain ⟨σ, hσ, h⟩ := exampleClaimed Char.isAlphanum
  have hσ' := hσ.step (.tick (σ.clock + 30000000) (by omega))
  refine ⟨_, exampleTask 1 σ.clock, hσ', h.task, rfl, ?_⟩
  refine ((open_task_moves hσ' h.task rfl ⟨fun e he => ?_, fun e he => by cases he⟩).2
    fun hstranded => ?_).resolve_right ?_
  · cases he
    exact le_refl _
  · cases hstranded.last
  · rintro ⟨run, hrun, hchange⟩
    cases h.runs.symm.trans hrun
    exact hchange rfl

/-- Three workers are lost with their claims, before they start Prefect, and then nothing moves the
task, ever. -/
theorem third_claim_strands : ∃ (σ : System Nat) (t : Task), Reachable Char.isAlphanum σ ∧
    (∀ w, σ.workers w = none) ∧
    σ.tasks (Uuid.ofNat 1) = some t ∧ t.executionState.closed = false ∧ t.Elapsed σ.clock ∧
    ∀ now token attempt leaseSeconds fault, t.claimExecution token attempt leaseSeconds now = none ∧
      ∀ run, σ.runs t.runId = some run →
        (t.reconcile Char.isAlphanum (Uuid.ofNat 1) run σ.letters fault now).2.1 = t := by
  obtain ⟨σ₁, hσ₁, h₁⟩ := exampleClaimed Char.isAlphanum
  obtain ⟨σ₂, hσ₂, h₂, -⟩ := h₁.again hσ₁ (by decide)
  obtain ⟨σ, hσ, h, -⟩ := h₂.again hσ₂ (by decide)
  have hlost := (((hσ.step (.leave 0)).step (.leave 1)).step (.leave 2)).step
      (.tick (σ.clock + 30000000) (by
    show σ.clock ≤ _
    omega))
  refine ⟨_, exampleTask 3 σ.clock, hlost, fun w => ?_, h.task, rfl,
    ⟨fun e he => ?_, fun e he => by cases he⟩, fun now token attempt leaseSeconds fault =>
    ⟨rfl, fun run hrun => ?_⟩⟩
  · show (((σ.move 0 none).move 1 none).move 2 none).workers w = none
    by_cases hw : 2 < w
    · simp only [System.move_workers, h.later w hw, ite_self]
    · have hcases : w = 0 ∨ w = 1 ∨ w = 2 := by omega
      rcases hcases with rfl | rfl | rfl <;> rfl
  · cases he
    exact le_refl _
  · cases h.runs.symm.trans hrun
    rfl

end TrackFlow.TaskQueue
