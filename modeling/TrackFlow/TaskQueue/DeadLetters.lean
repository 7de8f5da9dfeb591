import TrackFlow.TaskQueue.System

/-!
# Dead letters and the states of their tasks

A dead letter belongs to a task that is dead-lettered, or that waits for its letter, and a task that
is dead-lettered has one (`LettersAgree`). A worker inserts its letter whether or not its claim
still holds, and does not look at what its fenced update matched.

- `dead_letters_agree`: the states of a run all agree exactly when each worker that commits a letter
  still owns its task, or the task has failed anyway (`Owned`);
- `stale_worker_letters_success`: a worker that lost its claim leaves a dead letter of a task that
  succeeded.
-/

namespace TrackFlow.TaskQueue

open TrackFlow.Python TrackFlow.Pipelines

variable {Wk : Type}

/-! ## What must hold -/

/-- The states of a task that may have a dead letter. -/
def ExecutionState.lettered (s : ExecutionState) : Bool := s ∈ [.deadLettered, .failurePendingDlq]

/-- The tasks of the dead letters. -/
def lettersOf (letters : List DeadLetter) : List Uuid := letters.map DeadLetter.taskId

/-- Letters are of tasks that failed, and tasks that are dead-lettered have exactly one. -/
structure LettersAgree (σ : System Wk) : Prop where
  only : ∀ d ∈ σ.letters, ∃ t, σ.tasks d.taskId = some t ∧ t.executionState.lettered = true
  exactly : ∀ task t, σ.tasks task = some t → t.executionState = .deadLettered →
    (lettersOf σ.letters).count task = 1

/-- Whether the fenced update matches the row. -/
def Closing.matches (c : Claim) (t : Task) : Closing → Bool
  | .failClaim _ _ => t.claimedBy c.token c.epoch
  | .finish _ => t.runningBy c.token c.epoch

/-- A worker that commits a dead letter owns its task, by its fence, or the task has failed anyway. -/
def Owned (σ : System Wk) : Label Wk → Prop
  | .other => True
  | .close w => ∀ c d update t, σ.workers w = some (.closing c (some d) update) → σ.tasks c.taskId = some t →
      update.matches c t = true ∨ t.executionState.lettered = true

/-- The steps of a run, each with the state before it, and the state that it reaches. -/
inductive Run [DecidableEq Wk] (alnum : Char → Bool) : List (System Wk × Label Wk) → System Wk → Prop
  | empty (runs : Runs) (clock : Int) : Run alnum [] (.empty runs clock)
  | step {steps σ l σ'} : Run alnum steps σ → Step alnum σ l σ' → Run alnum (steps ++ [(σ, l)]) σ'

theorem reachable_iff_run [DecidableEq Wk] {alnum : Char → Bool} {σ : System Wk} :
    Reachable alnum σ ↔ ∃ steps, Run alnum steps σ := by
  constructor
  · intro h
    induction h with
    | empty runs clock => exact ⟨[], .empty runs clock⟩
    | step _ hs ih =>
      obtain ⟨steps, hrun⟩ := ih
      exact ⟨_, hrun.step hs⟩
  · rintro ⟨steps, h⟩
    induction h with
    | empty runs clock => exact .empty runs clock
    | step _ hs ih => exact ih.step hs

/-! ## The statements -/

/-- What a statement that inserts no letter makes of a row. -/
structure Apart (t u : Task) : Prop where
  kept : t.executionState.lettered = true → u.executionState = t.executionState
  lettered : u.executionState = .deadLettered → t.executionState = .deadLettered

theorem Apart.refl (t : Task) : Apart t t := ⟨fun _ => rfl, id⟩

theorem Apart.of_states {t u : Task} (ht : t.executionState.lettered = false)
    (hu : u.executionState ≠ .deadLettered) :
    Apart t u := ⟨fun h => (nomatch ht.symm.trans h), fun h => absurd h hu⟩

variable {alnum : Char → Bool} {now : Int} {t u : Task}

theorem unlettered_of_unstarted {s : ExecutionState} (h : s.unstarted = true) : s.lettered = false := by
  cases s <;> first | rfl | cases h

theorem claimExecution_apart {token attempt : Uuid} {leaseSeconds : Int}
    (h : t.claimExecution token attempt leaseSeconds now = some u) : Apart t u := by
  obtain ⟨hclaimable, hstate, -⟩ := claimExecution_eq h
  exact .of_states (unlettered_of_unstarted (claimable_spec hclaimable).2) (by rw [hstate]; decide)

theorem startPrefect_apart {token : Uuid} {epoch : Nat} {leaseSeconds : Int}
    (h : t.startPrefect token epoch leaseSeconds now = some u) : Apart t u := by
  obtain ⟨-, hclaimed, hrunning⟩ := startPrefect_steady h
  exact .of_states (by rw [hclaimed]; rfl) (by rw [hrunning]; decide)

theorem heartbeatExecution_apart {token : Uuid} {epoch : Nat} {leaseSeconds : Int}
    (h : t.heartbeatExecution token epoch leaseSeconds now = some u) : Apart t u := by
  unfold Task.heartbeatExecution at h
  split at h
  · cases h
    exact ⟨fun _ => rfl, id⟩
  · cases h

theorem finishExecution_apart {token : Uuid} {epoch : Nat} {a : Task.Finish} (ha : a.state ≠ .deadLettered)
    (h : t.finishExecution alnum token epoch a now = some u) : Apart t u := by
  unfold Task.finishExecution at h
  split at h
  case isTrue hc =>
    cases h
    exact .of_states (by rw [(runningBy_spec hc).1]; rfl) ha
  · cases h

theorem scheduleRetry_apart {token : Uuid} {epoch : Nat} {nextAttemptAt : Int} {code message : String}
    (h : t.scheduleRetry alnum token epoch nextAttemptAt code message = some u) : Apart t u := by
  unfold Task.scheduleRetry at h
  split at h
  case isTrue hc =>
    cases h
    exact .of_states (by rw [(claimedBy_spec hc).1]; rfl) (by intro h; cases h)
  · cases h

theorem dispatched_apart (t : Task) : Apart t t.dispatched := by
  unfold Task.dispatched
  by_cases ha : t.executionState = .accepted
  · exact .of_states (by rw [ha]; rfl) (by simp [ha])
  · exact ⟨fun _ => if_neg ha, fun h => by simpa [ha] using h⟩

theorem resultOutcome_ne_deadLettered (r : CoordinatorResult) : (resultOutcome r).1 ≠ .deadLettered := by
  unfold resultOutcome
  repeat' split
  all_goals
    intro h
    cases h

/-- The update of a worker matches by its fence, and then sets the state that goes with the letter. -/
theorem closing_apply (alnum : Char → Bool) (now : Int) (t : Task) (c : Claim) (inserted : Bool)
    (update : Closing) :
    (update.matches c t = false ∧ update.apply alnum c inserted t now = none) ∨
      (update.matches c t = true ∧ t.executionState.lettered = false ∧
        ∃ u, update.apply alnum c inserted t now = some u ∧ u.executionState = letteredState inserted) := by
  cases update with
  | failClaim code message =>
    cases hm : t.claimedBy c.token c.epoch with
    | false => exact Or.inl ⟨hm, if_neg (by rw [hm]; decide)⟩
    | true => exact Or.inr ⟨hm, by rw [(claimedBy_spec hm).1]; rfl, _, if_pos hm, rfl⟩
  | finish status =>
    cases hm : t.runningBy c.token c.epoch with
    | false => exact Or.inl ⟨hm, if_neg (by rw [hm]; decide)⟩
    | true => exact Or.inr ⟨hm, by rw [(runningBy_spec hm).1]; rfl, _, if_pos hm, rfl⟩

/-! ## Letters -/

theorem lettersOf_append (letters : List DeadLetter) (d : DeadLetter) :
    lettersOf (letters ++ [d]) = lettersOf letters ++ [d.taskId] := by simp [lettersOf]

/-- What an insertion does to the letters, if it is told to have worked. -/
structure Inserted (letters : List DeadLetter) (task : Uuid) (letters' : List DeadLetter) : Prop where
  nodup : (lettersOf letters').Nodup
  mem : task ∈ lettersOf letters'
  others : ∀ d ∈ letters', d ∈ letters ∨ d.taskId = task
  kept : ∀ d ∈ letters, d ∈ letters'

theorem Inserted.count_self {letters letters' : List DeadLetter} {task : Uuid}
    (h : Inserted letters task letters') :
    (lettersOf letters').count task = 1 := List.count_eq_one_of_mem h.nodup h.mem

theorem Inserted.count_ne {letters letters' : List DeadLetter} {task k : Uuid}
    (hn : (lettersOf letters).Nodup) (h : Inserted letters task letters') (hk : k ≠ task) :
    (lettersOf letters').count k = (lettersOf letters).count k := by
  have hmem : k ∈ lettersOf letters' ↔ k ∈ lettersOf letters := by
    simp only [lettersOf, List.mem_map]
    constructor
    · rintro ⟨d, hd, rfl⟩
      rcases h.others d hd with hold | hnew
      · exact ⟨d, hold, rfl⟩
      · exact absurd hnew hk
    · rintro ⟨d, hd, rfl⟩
      exact ⟨d, h.kept d hd, rfl⟩
  by_cases hin : k ∈ lettersOf letters
  · rw [List.count_eq_one_of_mem hn hin, List.count_eq_one_of_mem h.nodup (hmem.2 hin)]
  · rw [List.count_eq_zero_of_not_mem hin, List.count_eq_zero_of_not_mem fun h' => hin (hmem.1 h')]

theorem inserted_of_mem {letters : List DeadLetter} {d old : DeadLetter} (hn : (lettersOf letters).Nodup)
    (hold : old ∈ letters) (hid : old.taskId = d.taskId) : Inserted letters d.taskId letters :=
  ⟨hn, hid ▸ List.mem_map_of_mem hold, fun _ h => Or.inl h, fun _ h => h⟩

theorem inserted_append {letters : List DeadLetter} {d : DeadLetter} (hn : (lettersOf letters).Nodup)
    (hnew : ∀ old ∈ letters, old.taskId ≠ d.taskId) : Inserted letters d.taskId (letters ++ [d]) := by
  refine ⟨?_, ?_, fun x hx => ?_, fun x hx => List.mem_append_left _ hx⟩
  · rw [lettersOf_append, List.nodup_append]
    refine ⟨hn, List.nodup_singleton _, fun a ha b hb => ?_⟩
    obtain ⟨old, hold, rfl⟩ := List.mem_map.1 ha
    rw [List.mem_singleton.1 hb]
    exact hnew old hold
  · rw [lettersOf_append]
    simp
  · rcases List.mem_append.1 hx with hx | hx
    · exact Or.inl hx
    · exact Or.inr (List.mem_singleton.1 hx ▸ rfl)

/-- An insertion that works, or that leaves the letters. -/
theorem tryDeadLetter_spec {letters : List DeadLetter} (hn : (lettersOf letters).Nodup)
    (d : DeadLetter) (fault : Bool) :
    ((tryDeadLetter letters d fault).1 = true ∧
        Inserted letters d.taskId (tryDeadLetter letters d fault).2) ∨
      ((tryDeadLetter letters d fault).1 = false ∧ (tryDeadLetter letters d fault).2 = letters) := by
  unfold tryDeadLetter
  split
  · exact Or.inr ⟨rfl, rfl⟩
  · unfold insertDeadLetter
    split
    · exact Or.inr ⟨rfl, rfl⟩
    · split
      · rename_i old hfind
        have hid : old.taskId = d.taskId := by simpa using List.find?_some hfind
        by_cases hr : old.runId = d.runId
        · exact Or.inl ⟨by simpa using hr, inserted_of_mem hn (List.mem_of_find?_eq_some hfind) hid⟩
        · exact Or.inr ⟨by simpa using hr, rfl⟩
      · rename_i hfind
        have hnew : ∀ old ∈ letters, old.taskId ≠ d.taskId := by simpa using hfind
        split
        · exact Or.inr ⟨rfl, rfl⟩
        · exact Or.inl ⟨rfl, inserted_append hn hnew⟩

theorem commitLetter_inserted {letters : List DeadLetter} (hn : (lettersOf letters).Nodup)
    (d : DeadLetter) : Inserted letters d.taskId (commitLetter letters (some d)) := by
  unfold commitLetter
  dsimp only
  split
  case isTrue hany =>
    obtain ⟨old, hold, hid⟩ := List.any_eq_true.1 hany
    exact inserted_of_mem hn hold (by simpa using hid)
  case isFalse hany =>
    refine inserted_append hn fun old hold hid => hany ?_
    exact List.any_eq_true.2 ⟨old, hold, by simpa using hid⟩

/-! ## What every run keeps -/

/-- The claim of a worker. -/
def Worker.claim : Worker → Option Claim
  | .delivered .. | .refused _ => none
  | .claimed c | .unreachable c _ _ | .unbuildable c _ _ | .ready c | .started c | .running
      c | .raised c _ _
  | .returned c _ | .closing c _ _ => some c

/-- A worker whose task exists and whose letter is of that task. -/
structure WellPlaced (σ : System Wk) (x : Worker) : Prop where
  task : ∀ c, x.claim = some c → σ.tasks c.taskId ≠ none
  letter : ∀ c d update, x = .closing c (some d) update → d.taskId = c.taskId

/-- The letters have different tasks, and the workers are well placed. -/
structure Placed (σ : System Wk) : Prop where
  nodup : (lettersOf σ.letters).Nodup
  workers : ∀ w x, σ.workers w = some x → WellPlaced σ x

theorem letter_spec {x : Worker} {c : Claim} {d : DeadLetter} {update : Closing}
    (h : x.letter alnum = some (c, d, update)) :
    x.claim = some c ∧ d.taskId = c.taskId ∧ d.runId = c.runId := by
  cases x <;> simp only [Worker.letter] at h
  case unreachable =>
    split at h
    · cases h
    · cases h
      exact ⟨rfl, rfl, rfl⟩
  case unbuildable =>
    cases h
    exact ⟨rfl, rfl, rfl⟩
  case returned =>
    split at h
    · cases h
      exact ⟨rfl, rfl, rfl⟩
    · cases h
  all_goals cases h

theorem Follows.ne_none {R : Task → Task → Prop} {o o' : Option Task} (h : Follows R o o')
    (ho : o ≠ none) : o' ≠ none := by
  cases o with
  | none => exact absurd rfl ho
  | some t =>
    obtain ⟨u, rfl, -⟩ := h
    exact Option.some_ne_none u

section Invariants

variable {σ σ' : System Wk}

theorem WellPlaced.mono {x : Worker} (h : WellPlaced σ x) (ht : ∀ k, σ.tasks k ≠ none → σ'.tasks k ≠ none) :
    WellPlaced σ' x := ⟨fun c hc => ht _ (h.task c hc), h.letter⟩

/-- A step without letters of which rows change apart. -/
theorem Placed.quiet {τ : System Wk} (h : Placed σ) (hletters : τ.letters = σ.letters)
    (hworkers : τ.workers = σ.workers) (htasks : ∀ k, σ.tasks k ≠ none → τ.tasks k ≠ none) : Placed τ :=
  ⟨hletters ▸ h.nodup, fun w x hw => (h.workers w x (hworkers ▸ hw)).mono htasks⟩

theorem LettersAgree.quiet (h : LettersAgree σ) (hletters : σ'.letters = σ.letters)
    (htasks : ∀ k, Follows Apart (σ.tasks k) (σ'.tasks k)) : LettersAgree σ' := by
  refine ⟨fun d hd => ?_, fun k u hu hstate => ?_⟩
  · obtain ⟨t, ht, hlettered⟩ := h.only d (hletters ▸ hd)
    have hf := htasks d.taskId
    rw [ht] at hf
    obtain ⟨u, hu, hapart⟩ := hf
    exact ⟨u, hu, by rw [hapart.kept hlettered]; exact hlettered⟩
  · have hf := htasks k
    rw [hletters]
    cases ht : σ.tasks k with
    | none =>
      rw [ht] at hf
      cases hf.symm.trans hu
    | some t =>
      rw [ht] at hf
      obtain ⟨u', hu', hapart⟩ := hf
      cases hu'.symm.trans hu
      exact h.exactly k t ht (hapart.lettered hstate)

/-- The task of a letter fails with it. -/
theorem LettersAgree.inserted {τ : System Wk} (h : LettersAgree σ) (hn : (lettersOf σ.letters).Nodup)
    {task : Uuid} {u : Task} (hl : Inserted σ.letters task τ.letters) (hu : τ.tasks task = some u)
    (hstate : u.executionState.lettered = true) (hothers : ∀ k, k ≠ task → τ.tasks k = σ.tasks k) :
    LettersAgree τ := by
  refine ⟨fun d hd => ?_, fun k v hv hv' => ?_⟩
  · by_cases hk : d.taskId = task
    · exact ⟨u, hk ▸ hu, hstate⟩
    · rw [hothers _ hk]
      exact h.only d ((hl.others d hd).resolve_right hk)
  · by_cases hk : k = task
    · subst hk
      exact hl.count_self
    · rw [hl.count_ne hn hk]
      exact h.exactly k v (hothers k hk ▸ hv) hv'

theorem LettersAgree.update (h : LettersAgree σ) {task : Uuid} {statement : Task → Option Task}
    (hs : ∀ t u, σ.tasks task = some t → statement t = some u → Apart t u) :
    LettersAgree (σ.update task statement) :=
  h.quiet (σ.update_letters ..) (follows_update .refl hs)

theorem update_ne_none (task : Uuid) (statement : Task → Option Task) (k : Uuid) (hk : σ.tasks k ≠ none) :
    (σ.update task statement).tasks k ≠ none :=
  (follows_update (R := fun _ _ => True) (fun _ => trivial) (fun _ _ _ _ => trivial) k).ne_none hk

theorem Placed.update (h : Placed σ) (task : Uuid) (statement : Task → Option Task) :
    Placed (σ.update task statement) :=
  h.quiet (σ.update_letters ..) (σ.update_workers ..) (update_ne_none task statement)

theorem setTask_ne_none (task : Uuid) (t : Task) (k : Uuid) (hk : σ.tasks k ≠ none) :
    (σ.setTask task t).tasks k ≠ none := by
  rw [System.setTask_tasks]
  split
  · exact Option.some_ne_none t
  · exact hk

/-- `reconcile_task` keeps letters and states together. -/
theorem reconcile_agree (hp : Placed σ) (h : LettersAgree σ) {task : Uuid} {t : Task}
    (ht : σ.tasks task = some t)
    (run : RunRecord) (fault : Bool) :
    Placed { σ.setTask task (t.reconcile alnum task run σ.letters fault σ.clock).2.1 with
      letters := (t.reconcile alnum task run σ.letters fault σ.clock).2.2 } ∧
    LettersAgree { σ.setTask task (t.reconcile alnum task run σ.letters fault σ.clock).2.1 with
      letters := (t.reconcile alnum task run σ.letters fault σ.clock).2.2 } := by
  have hplaced : ∀ u letters, (lettersOf letters).Nodup →
      Placed { σ.setTask task u with letters } := fun u letters hn =>
    ⟨hn, fun w x hw => (hp.workers w x hw).mono (setTask_ne_none task u)⟩
  have hquiet : ∀ u, Apart t u → LettersAgree { σ.setTask task u with letters := σ.letters } := fun u hu =>
    h.quiet rfl (follows_setTask .refl ht hu)
  unfold Task.reconcile
  split
  case isTrue hpending =>
    rcases tryDeadLetter_spec hp.nodup (t.pendingLetter alnum task) fault with ⟨htrue,
      hins⟩ | ⟨hfalse, hsame⟩
    · cases htry : tryDeadLetter σ.letters (t.pendingLetter alnum task) fault with
      | mk inserted letters =>
        rw [htry] at htrue hins
        cases (show inserted = true from htrue)
        refine ⟨hplaced _ _ hins.nodup, h.inserted hp.nodup hins (Function.update_self ..) rfl fun k
          hk => ?_⟩
        exact Function.update_of_ne hk ..
    · cases htry : tryDeadLetter σ.letters (t.pendingLetter alnum task) fault with
      | mk inserted letters =>
        rw [htry] at hfalse hsame
        cases (show inserted = false from hfalse)
        cases (show letters = σ.letters from hsame)
        exact ⟨hplaced _ _ hp.nodup, hquiet _ (.refl t)⟩
  · split
    · exact ⟨hplaced _ _ hp.nodup, hquiet _ (.refl t)⟩
    case isFalse hpending hfinal =>
      have hstate : t.executionState.lettered = false := by
        revert hpending hfinal
        cases t.executionState <;> simp [ExecutionState.lettered]
      split
      · rename_i state published hout
        refine ⟨hplaced _ _ hp.nodup, hquiet _ (.of_states hstate fun hd => ?_)⟩
        cases (show state = .deadLettered from hd)
        unfold runOutcome at hout
        split at hout
        · cases hout
        · split at hout
          · cases hout
          · split at hout
            · cases hout
            · split at hout <;> cases hout
      · split
        · exact ⟨hplaced _ _ hp.nodup, hquiet _ (.of_states hstate fun hd => by cases hd)⟩
        · exact ⟨hplaced _ _ hp.nodup, hquiet _ (.refl t)⟩

end Invariants

/-! ## Steps -/

section Steps

variable [DecidableEq Wk] {σ σ' : System Wk} {l : Label Wk}

/-- A worker moves on. -/
theorem Placed.move (h : Placed σ) {w : Wk} {next : Option Worker}
    (hn : ∀ x, next = some x → WellPlaced σ x) : Placed (σ.move w next) := by
  refine ⟨h.nodup, fun v x hv => ?_⟩
  rw [System.move_workers] at hv
  by_cases hvw : v = w
  · rw [if_pos hvw] at hv
    exact ⟨(hn x hv).task, (hn x hv).letter⟩
  · rw [if_neg hvw] at hv
    exact ⟨(h.workers v x hv).task, (h.workers v x hv).letter⟩

theorem LettersAgree.move (h : LettersAgree σ) (w : Wk) (next : Option Worker) :
    LettersAgree (σ.move w next) :=
  ⟨h.only, h.exactly⟩

/-- The next phase of a worker with the same claim, in which it holds no letter. -/
theorem Placed.next (h : Placed σ) {w : Wk} {x y : Worker} (hw : σ.workers w = some x)
    (hclaim : y.claim = x.claim)
    (hy : ∀ c d update, y ≠ .closing c (some d) update) : Placed (σ.move w (some y)) := by
  refine h.move fun z hz => ?_
  cases hz
  exact ⟨fun c hc => (h.workers w x hw).task c (hclaim ▸ hc), fun c d update he =>
      absurd he (hy c d update)⟩

theorem Placed.leave (h : Placed σ) (w : Wk) : Placed (σ.move w none) := h.move fun _ hx => by cases hx

theorem Placed.step (h : Placed σ) (ha : LettersAgree σ) (hs : Step alnum σ l σ') : Placed σ' := by
  cases hs with
  | accept task run weekStart htask hrun =>
    refine h.quiet rfl rfl fun k hk => ?_
    by_cases hkt : k = task
    · exact absurd (hkt ▸ htask) hk
    · show Function.update σ.tasks task _ k ≠ none
      rwa [Function.update_of_ne hkt]
  | pipeline runs hruns => exact h.quiet rfl rfl fun _ hk => hk
  | tick now hnow => exact h.quiet rfl rfl fun _ hk => hk
  | relayPublished task => exact h.update ..
  | relayExhausted task => exact h.update ..
  | reconcile fault ht hrun => exact (reconcile_agree h ha ht _ fault).1
  | deliver task run weekStart hw =>
    refine h.move fun x hx => ?_
    cases hx
    exact ⟨fun _ hc => (nomatch hc), fun _ _ _ he => (nomatch he)⟩
  | leave w => exact h.leave w
  | refuse hw hnone => exact h.next hw rfl fun _ _ _ he => by cases he
  | claim token attempt leaseSeconds hw ht hlease hc =>
    refine Placed.move (h.quiet (τ := (σ.setTask _ _).record _) rfl rfl (setTask_ne_none _ _)) fun x
      hx => ?_
    split at hx
    · cases hx
      refine ⟨fun c hc => ?_, fun _ _ _ he => by cases he⟩
      cases hc
      show (System.setTask ..).tasks _ ≠ none
      rw [System.setTask_tasks, if_pos rfl]
      exact Option.some_ne_none _
    · cases hx
  | probe next hw hnext =>
    rcases hnext with rfl | ⟨code, message, rfl | rfl⟩
    all_goals exact h.next hw rfl fun _ _ _ he => by cases he
  | retry nextAttemptAt hw hattempt => exact (h.update ..).leave _
  | start leaseSeconds hw ht hstart =>
    exact (h.quiet (τ := (σ.setTask _ _).record _) rfl rfl (setTask_ne_none _ _)).next hw rfl fun _
        _ _ he => by cases he
  | launch hw => exact (h.quiet (τ := σ.record _) rfl rfl fun _ hk => hk).next hw rfl fun _ _ _ he => by cases he
  | heartbeat c leaseSeconds hc => exact h.update ..
  | end_ next hw hnext =>
    rcases hnext with ⟨code, message, rfl⟩ | ⟨r, rfl⟩
    all_goals exact h.next hw rfl fun _ _ _ he => by cases he
  | finishRaised hw => exact (h.update ..).leave _
  | finishReturned hw hr => exact (h.update ..).leave _
  | letter fault hw hletter =>
    obtain ⟨hclaim, hid, -⟩ := letter_spec hletter
    refine h.move fun x hx => ?_
    cases hx
    refine ⟨fun c hc => ?_, fun c d update he => ?_⟩
    · cases hc
      exact (h.workers _ _ hw).task _ hclaim
    · split at he
      · cases he
        exact hid
      · cases he
  | close hw =>
    refine Placed.leave ⟨?_, fun v x hv => ?_⟩ _
    · cases hinserted : ‹Option DeadLetter› with
      | none => exact h.nodup
      | some d => exact (commitLetter_inserted h.nodup d).nodup
    · rw [System.update_workers] at hv
      exact (h.workers v x hv).mono (update_ne_none _ _)

/-- The transaction of a worker with a letter keeps the states together exactly when the worker owns
its task. -/
theorem close_agree (hp : Placed σ) (h : LettersAgree σ) {w : Wk} {c : Claim} {inserted : Option DeadLetter}
    {update : Closing} (hw : σ.workers w = some (.closing c inserted update)) :
    LettersAgree ({ σ.update c.taskId (fun t => update.apply alnum c inserted.isSome t σ.clock) with
      letters := commitLetter σ.letters inserted }.move w none) ↔ Owned σ (.close w) := by
  cases inserted with
  | none =>
    refine iff_of_true (LettersAgree.move ?_ _ _) fun c' d update' t hw' ht => ?_
    · refine h.quiet rfl (follows_update .refl fun t u ht hu => ?_)
      rcases closing_apply alnum σ.clock t c false update with ⟨-, hnone⟩ | ⟨-, hstate, u', hu', hfailed⟩
      · cases hnone.symm.trans hu
      · cases hu'.symm.trans hu
        exact .of_states hstate (by rw [hfailed]; decide)
    · cases hw.symm.trans hw'
  | some d =>
    have hid : d.taskId = c.taskId := (hp.workers w _ hw).letter c d update rfl
    have hins : Inserted σ.letters c.taskId (commitLetter σ.letters (some d)) :=
      hid ▸ commitLetter_inserted hp.nodup d
    obtain ⟨t, ht⟩ := Option.ne_none_iff_exists'.1 ((hp.workers w _ hw).task c rfl)
    have hothers : ∀ k, k ≠ c.taskId →
        (σ.update c.taskId fun t => update.apply alnum c true t σ.clock).tasks k = σ.tasks k :=
          fun k hk => by
      rw [System.update_tasks, if_neg hk]
    have howned : Owned σ (.close w) ↔ update.matches c t = true ∨ t.executionState.lettered = true := by
      refine ⟨fun ho => ho c d update t hw ht, fun ho c' d' update' t' hw' ht' => ?_⟩
      cases hw.symm.trans hw'
      cases ht.symm.trans ht'
      exact ho
    rw [howned]
    rcases closing_apply alnum σ.clock t c true update with ⟨hunmatched, hnone⟩ | ⟨hmatched, -, u,
      hu, hfailed⟩
    · -- The fence does not match: the row stays, and only a task that has failed anyway may get the letter.
      have hrow : (σ.update c.taskId fun t => update.apply alnum c true t σ.clock).tasks c.taskId =
          some t := by
        rw [System.update_tasks, if_pos rfl, ht, Option.bind_some, hnone, Option.none_or]
      constructor
      · intro hafter
        obtain ⟨d', hd', hid'⟩ := List.mem_map.1 hins.mem
        obtain ⟨t', ht', hlettered⟩ := hafter.only d' hd'
        rw [hid'] at ht'
        cases hrow.symm.trans ht'
        exact Or.inr hlettered
      · intro ho
        have hlettered := ho.resolve_left (by rw [hunmatched]; decide)
        exact (h.inserted (τ := { σ.update c.taskId (fun t => update.apply alnum c true t σ.clock) with
          letters := commitLetter σ.letters (some d) }) hp.nodup hins hrow hlettered hothers).move _ _
    · have hrow :
          (σ.update c.taskId fun t => update.apply alnum c true t σ.clock).tasks c.taskId = some u := by
        rw [System.update_tasks, if_pos rfl, ht, Option.bind_some, hu, Option.some_or]
      refine iff_of_true ?_ (Or.inl hmatched)
      exact (h.inserted (τ := { σ.update c.taskId (fun t => update.apply alnum c true t σ.clock) with
        letters := commitLetter σ.letters (some d) }) hp.nodup hins hrow (by rw [hfailed]; rfl)
          hothers).move _ _

theorem agree_step (hp : Placed σ) (h : LettersAgree σ) (hs : Step alnum σ l σ') :
    LettersAgree σ' ↔ Owned σ l := by
  cases hs with
  | accept task run weekStart htask hrun =>
    refine iff_of_true ⟨fun d hd => ?_, fun k t hk hstate => ?_⟩ trivial
    · obtain ⟨t, ht, hlettered⟩ := h.only d hd
      have hne : d.taskId ≠ task := by
        rintro he
        rw [he, htask] at ht
        cases ht
      exact ⟨t, by simpa only [Function.update_of_ne hne] using ht, hlettered⟩
    · by_cases hkt : k = task
      · subst hkt
        simp only [Function.update_self, Option.some_inj] at hk
        subst hk
        cases hstate
      · simp only [Function.update_of_ne hkt] at hk
        exact h.exactly k t hk hstate
  | pipeline runs hruns => exact iff_of_true ⟨h.only, h.exactly⟩ trivial
  | tick now hnow => exact iff_of_true ⟨h.only, h.exactly⟩ trivial
  | relayPublished task =>
    exact iff_of_true (h.update fun t u _ hu => by cases hu; exact dispatched_apart t) trivial
  | relayExhausted task =>
    exact iff_of_true (h.update fun t u _ hu => by cases hu; exact ⟨fun _ => rfl, id⟩) trivial
  | reconcile fault ht hrun => exact iff_of_true (reconcile_agree hp h ht _ fault).2 trivial
  | deliver task run weekStart hw => exact iff_of_true (h.move ..) trivial
  | leave w => exact iff_of_true (h.move ..) trivial
  | refuse hw hnone => exact iff_of_true (h.move ..) trivial
  | claim token attempt leaseSeconds hw ht hlease hc =>
    refine iff_of_true (LettersAgree.move ?_ _ _) trivial
    exact h.quiet rfl (follows_setTask .refl ht (claimExecution_apart hc))
  | probe next hw hnext => exact iff_of_true (h.move ..) trivial
  | retry nextAttemptAt hw hattempt =>
    exact iff_of_true ((h.update fun t u _ hu => scheduleRetry_apart hu).move ..) trivial
  | start leaseSeconds hw ht hstart =>
    refine iff_of_true (LettersAgree.move ?_ _ _) trivial
    exact h.quiet rfl (follows_setTask .refl ht (startPrefect_apart hstart))
  | launch hw => exact iff_of_true (LettersAgree.move (σ := σ.record _) ⟨h.only, h.exactly⟩ _ _) trivial
  | heartbeat c leaseSeconds hc =>
    exact iff_of_true (h.update fun t u _ hu => heartbeatExecution_apart hu) trivial
  | end_ next hw hnext => exact iff_of_true (h.move ..) trivial
  | finishRaised hw =>
    exact iff_of_true ((h.update fun t u _ hu => finishExecution_apart (by intro he; cases he)
      hu).move ..) trivial
  | finishReturned hw hr =>
    exact iff_of_true ((h.update fun t u _ hu =>
        finishExecution_apart (resultOutcome_ne_deadLettered _) hu).move ..) trivial
  | letter fault hw hletter => exact iff_of_true (h.move ..) trivial
  | close hw => exact close_agree hp h hw

/-! ## Runs -/

variable {steps : List (System Wk × Label Wk)}

omit [DecidableEq Wk] in
theorem agree_empty (runs : Runs) (clock : Int) :
    Placed (.empty runs clock : System Wk) ∧ LettersAgree (.empty runs clock : System Wk) :=
  ⟨⟨List.nodup_nil, fun _ _ h => (nomatch h)⟩, ⟨fun _ h => (nomatch h), fun _ _ h => (nomatch h)⟩⟩

/-- In every run: dead letters and states agree in each state that it reaches if and only if each
worker that commits a letter still owns its task. -/
theorem dead_letters_agree (h : Run alnum steps σ) :
    (∀ s ∈ steps.map Prod.fst ++ [σ], LettersAgree s) ↔ ∀ s ∈ steps, Owned s.1 s.2 := by
  have hboth : ((∀ s ∈ steps.map Prod.fst ++ [σ], LettersAgree s) ↔ ∀ s ∈ steps, Owned s.1 s.2) ∧
      ((∀ s ∈ steps, Owned s.1 s.2) → Placed σ ∧ LettersAgree σ) := by
    induction h with
    | empty runs clock =>
      refine ⟨iff_of_true (fun s hs => ?_) fun _ hs => (nomatch hs), fun _ => agree_empty runs clock⟩
      rw [List.map_nil, List.nil_append, List.mem_singleton] at hs
      exact hs ▸ (agree_empty runs clock).2
    | @step steps σ l σ' hrun hs ih =>
      obtain ⟨ihiff, ihplaced⟩ := ih
      have hsplit :
          (∀ s ∈ steps ++ [(σ, l)], Owned s.1 s.2) ↔ (∀ s ∈ steps, Owned s.1 s.2) ∧ Owned σ l := by
        simp only [List.mem_append, List.mem_singleton, or_imp, forall_and, forall_eq]
      have hstates : (∀ s ∈ (steps ++ [(σ, l)]).map Prod.fst ++ [σ'], LettersAgree s) ↔
          (∀ s ∈ steps.map Prod.fst ++ [σ], LettersAgree s) ∧ LettersAgree σ' := by
        simp only [List.map_append, List.map_cons, List.map_nil, List.mem_append, List.mem_singleton,
          or_imp, forall_and, forall_eq]
      rw [hsplit, hstates]
      refine ⟨⟨fun ⟨hpast, hlast⟩ => ?_, fun ⟨hpast, hlast⟩ => ?_⟩, fun ⟨hpast, hlast⟩ => ?_⟩
      · obtain ⟨hp, ha⟩ := ihplaced (ihiff.1 hpast)
        exact ⟨ihiff.1 hpast, (agree_step hp ha hs).1 hlast⟩
      · obtain ⟨hp, ha⟩ := ihplaced hpast
        exact ⟨ihiff.2 hpast, (agree_step hp ha hs).2 hlast⟩
      · obtain ⟨hp, ha⟩ := ihplaced hpast
        exact ⟨hp.step ha hs, (agree_step hp ha hs).2 hlast⟩
  exact hboth.1

end Steps

/-! ## Examples -/

/-- What a worker that cannot build its runtime inserts. -/
def exampleLetter (n : Nat) : DeadLetter :=
  deadLetter Char.isAlphanum (Uuid.ofNat 1) (Uuid.ofNat 2) n "non_retryable" "KeyError" "no runtime"

theorem exampleLetter_inserted : (tryDeadLetter [] (exampleLetter 1) false).1 = true := by decide +kernel

/-- The worker after its letter is inserted. -/
theorem closing_worker [DecidableEq Wk] {σ : System Wk} {letters : List DeadLetter} {c : Claim}
    {d : DeadLetter}
    {fault : Bool} {update : Closing} (w : Wk) (h : (tryDeadLetter letters d fault).1 = true) :
    (σ.move w (some (.closing c (if (tryDeadLetter letters d fault).1 then some d else none)
      update))).workers w = some (.closing c (some d) update) := by
  rw [System.move_workers, if_pos rfl, if_pos h]

theorem dead_letters_agree_example : ∃ (steps : List (System Nat × Label Nat)) (σ : System Nat),
    Run Char.isAlphanum steps σ ∧ lettersOf σ.letters = [Uuid.ofNat 1] ∧
      (∀ s ∈ steps.map Prod.fst ++ [σ], LettersAgree s) := by
  have h₀ : Run Char.isAlphanum [] (System.empty (fun _ => none) 0 : System Nat) := .empty _ _
  have h₁ := h₀.step (.accept (Uuid.ofNat 1) (Uuid.ofNat 2) 4 rfl rfl)
  have h₂ := h₁.step (.deliver (w := 0) (Uuid.ofNat 1) (Uuid.ofNat 2) 4 rfl)
  have h₃ := h₂.step (.claim (w := 0) (Uuid.ofNat 3) (Uuid.ofNat 4) 30
    (show _ = some (Worker.delivered (Uuid.ofNat 1) (Uuid.ofNat 2) 4) from rfl)
    (show _ = some (acceptedTask (Uuid.ofNat 2) 4 0) from rfl) (by decide) rfl)
  have h₄ := h₃.step (.probe (w := 0) (.unbuildable (exampleClaim 1) "KeyError" "no runtime")
    (show _ = some (Worker.claimed (exampleClaim 1)) from rfl) (Or.inr ⟨_, _, Or.inr rfl⟩))
  have h₅ := h₄.step (.letter (w := 0) false
    (show _ = some (Worker.unbuildable (exampleClaim 1) "KeyError" "no runtime") from rfl) rfl)
  have h₆ := h₅.step (.close (closing_worker 0 exampleLetter_inserted))
  refine ⟨_, _, h₆, rfl, (dead_letters_agree h₆).2 ?_⟩
  simp only [List.nil_append, List.cons_append, List.forall_mem_cons]
  refine ⟨trivial, trivial, trivial, trivial, trivial, fun c d update t hw ht => ?_, fun _ h => (nomatch h)⟩
  cases (closing_worker 0 exampleLetter_inserted).symm.trans hw
  cases (show some (exampleTask 1 0) = some t from ht)
  exact Or.inl rfl

/-- The run of the example, published. -/
def exampleRun : RunRecord :=
  { createdRun (Uuid.ofNat 2) 4 0 with status := .succeeded, commitResult := .technicallyObserved }

/-- What its coordinator returns. -/
def exampleResult : CoordinatorResult where
  weekStart := 4
  runId := Uuid.ofNat 2
  status := .run .succeeded
  commitResult := .technicallyObserved
  publicationRecorded := true

/-- The task of the example, started. -/
def exampleRunning (n : Nat) (now : Int) : Task :=
  { exampleTask n now with executionState := .running, executionPhase := .prefectStarted }

/-- The worker with the claim runs the task to success. -/
theorem ExampleClaimed.succeeds {alnum : Char → Bool} {σ : System Nat} {n w : Nat} (hσ : Reachable alnum σ)
    (h : ExampleClaimed n w σ) : ∃ σ' t, Reachable alnum σ' ∧ σ'.tasks (Uuid.ofNat 1) = some t ∧
      t.executionState = .succeeded ∧ σ'.letters = [] ∧ ∀ v, v < w → σ'.workers v = σ.workers v := by
  have hstart : (exampleTask n σ.clock).startPrefect (exampleClaim n).token (exampleClaim n).epoch
      30 σ.clock =
      some (exampleRunning n σ.clock) := by
    rw [Task.startPrefect, if_pos (by simp [Task.claimedBy, exampleTask, exampleClaim])]
    rfl
  have h₁ := hσ.step (.probe (w := w) (.ready (exampleClaim n)) h.worker (Or.inl rfl))
  have h₂ := h₁.step (.start (w := w) 30 (System.move_workers .. |>.trans (if_pos rfl)) h.task hstart)
  have h₃ := h₂.step (.launch (w := w) (System.move_workers .. |>.trans (if_pos rfl)))
  have h₄ := h₃.step (.end_ (w := w) (.returned (exampleClaim n) exampleResult)
    (System.move_workers .. |>.trans (if_pos rfl)) (Or.inr ⟨_, rfl⟩))
  have h₅ := h₄.step (.pipeline (Function.update σ.runs (Uuid.ofNat 2) (some exampleRun)) fun run hrun => by
    rw [Function.update_apply]
    split
    · rfl
    · exact hrun)
  have h₆ := h₅.step (.finishReturned (w := w) (show _ = some (Worker.returned _ exampleResult) from
    System.move_workers .. |>.trans (if_pos rfl)) (by decide))
  obtain ⟨u, hu, hstate⟩ : ∃ u, (exampleRunning n σ.clock).finishExecution alnum (exampleClaim n).token
      (exampleClaim n).epoch { state := .succeeded, pipelineStatus := "succeeded", published := some true } σ.clock =
        some u ∧ u.executionState = .succeeded :=
    ⟨_, if_pos (by simp [Task.runningBy, exampleRunning, exampleTask, exampleClaim]), rfl⟩
  refine ⟨_, u, h₆, ?_, hstate, ?_, fun v hv => ?_⟩
  · have hrow : (σ.setTask (Uuid.ofNat 1) (exampleRunning n σ.clock)).tasks (Uuid.ofNat 1) =
        some (exampleRunning n σ.clock) := System.setTask_tasks .. |>.trans (if_pos rfl)
    exact System.update_row hrow (congrArg (Option.getD · _) hu)
  · exact (System.update_letters ..).trans h.letters
  · have hne : v ≠ w := by omega
    simp [System.move_workers, hne]

/-- Letters and states do not agree: the claim of worker 0 is over, worker 1 runs the task to
success, and then worker 0 reports that it could not build its runtime. -/
theorem stale_worker_letters_success : ∃ σ : System Nat, Reachable Char.isAlphanum σ ∧ ¬ LettersAgree σ ∧
    ∃ d ∈ σ.letters, ∃ t, σ.tasks d.taskId = some t ∧ t.executionState = .succeeded := by
  obtain ⟨σ₁, hσ₁, h₁⟩ := exampleClaimed Char.isAlphanum
  obtain ⟨σ₂, hσ₂, h₂, hothers₂⟩ := h₁.again hσ₁ (by decide)
  obtain ⟨σ, t, hσ, ht, hstate, hletters, hothers⟩ := h₂.succeeds hσ₂
  have hworker : σ.workers 0 = some (.claimed (exampleClaim 1)) := by
    rw [hothers 0 (by decide), hothers₂ 0 (le_refl 0)]
    exact h₁.worker
  have h₃ := hσ.step (.probe (w := 0) (.unbuildable (exampleClaim 1) "KeyError" "no runtime") hworker
    (Or.inr ⟨_, _, Or.inr rfl⟩))
  have h₄ := h₃.step (.letter (w := 0) (x := .unbuildable (exampleClaim 1) "KeyError" "no runtime") false
    (System.move_workers .. |>.trans (if_pos rfl)) rfl)
  have hinserted : (tryDeadLetter σ.letters (exampleLetter 1) false).1 = true := by
    rw [hletters]
    exact exampleLetter_inserted
  have h₅ := h₄.step (.close (closing_worker 0 hinserted))
  have hunmatched : (Closing.failClaim "KeyError" "no runtime").apply Char.isAlphanum
      (exampleClaim 1) true t σ.clock = none :=
    if_neg fun hm => by rw [(claimedBy_spec hm).1] at hstate; cases hstate
  obtain ⟨σ', hσ', hrow, hmem⟩ : ∃ σ', Reachable Char.isAlphanum σ' ∧ σ'.tasks (Uuid.ofNat 1) = some t ∧
      exampleLetter 1 ∈ σ'.letters :=
    ⟨_, h₅, System.update_row ht (congrArg (Option.getD · t) hunmatched), by
      show exampleLetter 1 ∈ commitLetter σ.letters (some (exampleLetter 1))
      rw [hletters]
      exact List.mem_singleton_self _⟩
  refine ⟨σ', hσ', fun hagree => ?_, exampleLetter 1, hmem, t, hrow, hstate⟩
  obtain ⟨t', ht', hlettered⟩ := hagree.only _ hmem
  cases hrow.symm.trans ht'
  rw [hstate] at hlettered
  cases hlettered

end TrackFlow.TaskQueue
