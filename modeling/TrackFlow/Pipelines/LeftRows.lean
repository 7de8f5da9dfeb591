import TrackFlow.Pipelines.WeeklyFlow
import TrackFlow.Pipelines.Truthfulness

/-!
# The rows that results leave behind

Every way in which a flow can return a result ends with a COMMIT of the run history that worked, so
the row of the run is known from the last update. What only works on the business connection leaves
the row as it is (`Spares`), however it ends.

- `Leaves`: what the row of a run says beside the result;
- `flow_leaves`: it holds of every result of the flow.
-/

namespace TrackFlow.Pipelines

open TrackFlow.Python TrackFlow.Python.Raising

variable {α β : Type} {f : Faults} {q : Request} {w : World} {run : Uuid} {row : RunRecord}

/-! ## Programs that spare the runs -/

/-- The committed history has `row` for the run, and so has the operational transaction if it is open. -/
structure Shows (run : Uuid) (row : RunRecord) (w : World) : Prop where
  committed : w.runs run = some row
  seen : ∀ view, w.operational = some view → view run = some row

theorem Shows.same {w' : World} (h : Shows run row w) (hr : w'.runs = w.runs)
    (ho : w'.operational = w.operational) : Shows run row w' :=
  ⟨hr ▸ h.committed, fun view hview => h.seen view (ho ▸ hview)⟩

theorem Shows.endOperational (h : Shows run row w) (effect : Bool) :
    Shows run row (w.endOperational effect) := by
  refine ⟨?_, fun _ hview => by cases hview⟩
  show (if effect then w.operational.getD w.runs else w.runs) run = some row
  split
  · cases ho : w.operational with
    | none => exact h.committed
    | some view => exact h.seen view ho
  · exact h.committed

/-- The programs that leave the row of every run as it is. -/
structure Spares (m : Call α) : Prop where
  shows : ∀ run row, Preserves (Shows run row) m

theorem Spares.bind {m : Call α} {k : α → Call β} (hm : Spares m) (hk : ∀ a, Spares (k a)) :
    Spares (m >>= k) :=
  ⟨fun run row => (hm.shows run row).bind fun a => (hk a).shows run row⟩

theorem Spares.attempt {m : Call α} (hm : Spares m) : Spares (attempt m) :=
  ⟨fun run row => (hm.shows run row).attempt⟩

theorem Spares.tryCatch {m : Call α} {k : Exc → Call α} (hm : Spares m) (hk : ∀ e, Spares (k e)) :
    Spares (tryCatch m k) :=
  ⟨fun run row => (hm.shows run row).tryCatch fun e => (hk e).shows run row⟩

theorem spares_ite {c : Prop} [Decidable c] {m m' : Call α} (h : Spares m) (h' : Spares m') :
    Spares (if c then m else m') := by
  split
  · exact h
  · exact h'

theorem spares_pure (a : α) : Spares (pure a : Call α) := ⟨fun _ _ => .pure a⟩

theorem spares_raise (e : Exc) : Spares (raise e : Call α) := ⟨fun _ _ => .raise e⟩

/-- A check that raises, and what follows it. -/
theorem spares_guard {c : Prop} [Decidable c] {e : Exc} {k : PUnit → Call α} (h : ∀ u, Spares (k u)) :
    Spares (if c then raise e >>= k else k ()) :=
  spares_ite ((spares_raise e).bind h) (h ())

theorem spares_get : Spares (get : Call World) := ⟨fun _ _ => .get⟩

theorem spares_ofExcept (x : Except Exc α) : Spares (Raising.ofExcept x : Call α) :=
  ⟨fun _ _ => .ofExcept x⟩

theorem spares_checked (wrap : CodedError → Exc) (x : Except CodedError α) :
    Spares (checked wrap x) := spares_ofExcept _

theorem spares_modify {g : World → World} (hr : ∀ w, (g w).runs = w.runs)
    (ho : ∀ w, (g w).operational = w.operational) :
    Spares (modify g : Call Unit) := ⟨fun _ _ => .modify fun w h => h.same (hr w) (ho w)⟩

theorem spares_statement {wrap : Failure → Exc} {site : Site} {effect : Call α} (h : Spares effect) :
    Spares (statement f wrap site effect) :=
  ⟨fun run row w hw =>
    post_statement (fun _ _ => hw.same rfl rfl) fun _ => h.shows run row (w.note site false)
      (hw.same rfl rfl)⟩

theorem spares_operationalView : Spares operationalView := by
  refine ⟨fun run row w hw => ?_⟩
  show Shows run row (operationalView w).2
  unfold operationalView
  cases w.operational <;> exact hw

theorem spares_businessView : Spares businessView := by
  refine ⟨fun run row w hw => ?_⟩
  show Shows run row (businessView w).2
  unfold businessView
  cases w.business <;> exact hw

theorem spares_setBusiness (view : Reporting) : Spares (setBusiness view) :=
  spares_modify (fun _ => rfl) fun _ => rfl

theorem spares_markUnusable : Spares markUnusable := spares_modify (fun _ => rfl) fun _ => rfl

theorem spares_rollbackBusiness (site : Site) : Spares (rollbackBusiness f site) :=
  spares_statement (spares_modify (fun _ => rfl) fun _ => rfl)

theorem spares_releaseBusinessLock : Spares (releaseBusinessLock f) := by
  refine (spares_rollbackBusiness .rollback).tryCatch fun e => ?_
  split
  · exact spares_markUnusable
  · exact spares_raise e

theorem spares_rollbackQuietly : Spares (rollbackQuietly f) := by
  refine ((spares_rollbackBusiness .stageRollback).bind fun _ => spares_pure true).tryCatch fun e => ?_
  split
  · exact spares_pure false
  · exact spares_raise e

theorem spares_closeFailedTransaction (a b : Bool) : Spares (closeFailedTransaction a b) := by
  unfold closeFailedTransaction
  split
  · exact spares_markUnusable.bind fun _ => spares_pure _
  · split
    · exact spares_pure _
    · exact spares_markUnusable.bind fun _ => spares_pure _

theorem spares_selectRun (site : Site) (run : Uuid) : Spares (selectRun f site run) :=
  spares_operationalView.bind fun _ => spares_statement (spares_operationalView.bind fun view =>
      spares_pure (view run))

theorem spares_beginOperationalTransaction (site : Site) : Spares (beginOperationalTransaction f site) := by
  refine spares_get.bind fun v => ?_
  split
  · refine spares_statement ⟨fun run row => .modify fun w hw => ⟨hw.committed, fun view hview => ?_⟩⟩
    cases hview
    exact hw.committed
  · exact spares_pure ()

theorem spares_transactionIssue : Spares transactionIssue := by
  exact spares_get.bind fun w => spares_ite (spares_pure _) (spares_ite (spares_pure _) (spares_pure _))

theorem spares_separated : Spares requireSeparatedTransactions :=
  spares_get.bind fun _ => spares_guard fun _ => spares_ite (spares_raise _) (spares_pure _)

theorem spares_identifiedRun : Spares (identifiedRun f q) := by
  refine Spares.bind (.tryCatch (spares_selectRun .identify q.runId) fun e => ?_) fun found => ?_
  · cases e <;> exact spares_raise _
  · cases found with
    | none => exact spares_raise _
    | some found => exact spares_guard fun _ => spares_guard fun _ => spares_pure _

/-! The business connection. -/

theorem spares_verify (weekStart token : Int) (run : Uuid) :
    Spares (verifyLeaseNow f weekStart run token) := by
  refine spares_businessView.bind fun _ => (spares_checked ..).bind fun _ =>
      (spares_checked ..).bind fun token => ?_
  refine (spares_statement (spares_businessView.bind fun view => spares_pure _)).bind fun locked => ?_
  cases locked <;> exact spares_pure _

theorem spares_release (weekStart token : Int) (run : Uuid) :
    Spares (releaseLeaseNow f weekStart run token) := by
  refine spares_businessView.bind fun _ => (spares_checked ..).bind fun _ =>
      (spares_checked ..).bind fun token => ?_
  refine spares_statement (spares_businessView.bind fun view => ?_)
  split
  · exact spares_pure _
  · exact spares_ite ((spares_setBusiness _).bind fun _ => spares_pure _) (spares_pure _)

theorem spares_record (weekStart : Int) (run : Uuid) (p : Publication) :
    Spares (recordPublication f weekStart run p) := by
  refine spares_businessView.bind fun _ => (spares_checked ..).bind fun _ => ?_
  refine (spares_statement (spares_get.bind fun _ => spares_pure _)).bind fun found => ?_
  cases found with
  | none => exact spares_raise _
  | some record =>
    refine spares_guard fun _ => Spares.bind (spares_statement ?_) fun _ => ?_
    · exact spares_businessView.bind fun view => spares_ite (spares_setBusiness _) (spares_pure _)
    · refine (spares_statement (spares_businessView.bind fun _ => spares_pure _)).bind fun control => ?_
      refine spares_guard fun _ => (spares_checked ..).bind fun _ =>
          Spares.bind (spares_statement ?_) fun updated => ?_
      · exact spares_businessView.bind fun view => (spares_setBusiness _).bind fun _ => spares_pure _
      · exact spares_ite (spares_raise _) (spares_pure _)

theorem spares_reconcile (weekStart : Int) (aggregates : List WeeklyAggregate) :
    Spares (reconcileDisappearedKeys f weekStart aggregates) := by
  unfold reconcileDisappearedKeys
  split
  · exact spares_pure _
  · refine spares_transactionIssue.bind fun issue => ?_
    split
    · exact spares_pure _
    · have hread : Spares (statement f .raised .reconcile do
          let view ← businessView
          return view.kpis.filter fun row => row.weekStart = weekStart) :=
        spares_statement (spares_businessView.bind fun _ => spares_pure _)
      refine hread.attempt.bind fun rows => ?_
      split
      · exact spares_pure _
      · exact spares_ite (spares_pure _) (spares_raise _)
      · exact spares_raise _

theorem spares_upsertBatch (ordered : List WeeklyAggregate) (published : KpiTable) :
    Spares (upsertBatch f ordered published) := by
  refine Spares.bind (spares_statement ?_) fun returned => spares_ofExcept _
  exact spares_businessView.bind fun view => (spares_setBusiness _).bind fun _ => spares_pure _

theorem spares_upsertFailed (e : Exc) : Spares (upsertFailed f e) := by
  cases e with
  | raised e =>
    refine spares_ite ?_ (spares_raise _)
    exact spares_rollbackQuietly.bind fun _ => (spares_closeFailedTransaction ..).bind fun _ =>
      spares_pure _
  | _ => exact spares_raise _

theorem spares_stageReconciled (aggregates : List WeeklyAggregate) (issues : List PublicationIssue)
    (reconciliation : ReconciliationResult) :
    Spares (stageReconciled f aggregates issues reconciliation) := by
  refine spares_ite (spares_pure _) ((spares_upsertBatch ..).attempt.bind fun staged => ?_)
  split
  · exact spares_pure _
  · exact spares_upsertFailed _

theorem spares_stage (weekStart : Int) (aggregates : List WeeklyAggregate) (now : Int) :
    Spares (stageWeeklyUpsert f weekStart aggregates now) := by
  refine spares_ite (spares_pure _) (spares_transactionIssue.bind fun issue => ?_)
  cases issue with
  | some issue => exact spares_pure _
  | none =>
    refine (spares_reconcile ..).bind fun reconciliation => spares_ite (spares_stageReconciled ..) ?_
    refine spares_ite ?_ (spares_pure _)
    exact spares_rollbackQuietly.bind fun _ => (spares_closeFailedTransaction ..).bind fun _ =>
      spares_pure _

theorem spares_commitBusiness : Spares (commitBusiness f) := by
  refine Spares.tryCatch (Spares.bind ⟨fun run row w hw => ?_⟩ fun _ => spares_pure _) fun e => ?_
  · exact post_commitAt (fun _ _ => hw.same rfl rfl) fun _ => hw.same rfl rfl
  · cases e with
    | raised e => exact spares_ite (spares_raise _) (spares_pure _)
    | _ => exact spares_raise _

/-! ## Programs that write the run -/

/-- When `m` returns, it leads to `P`. -/
def Returns (m : Call α) (w : World) (P : α → World → Prop) : Prop :=
  Post m (fun r w' => ∀ a, r = .ok a → P a w') w

section Returning

variable {m : Call α} {k : α → Call β} {P : α → World → Prop} {R : β → World → Prop}

theorem returns_pure {a : α} (h : P a w) : Returns (pure a) w P := fun _ he => by cases he; exact h

theorem returns_raise (e : Exc) : Returns (raise e) w P := fun _ he => by cases he

theorem Returns.bind (hm : Returns m w P) (hk : ∀ a w', P a w' → Returns (k a) w' R) :
    Returns (m >>= k) w R :=
  post_seq hm (fun a w' h => hk a w' (h a rfl)) fun _ _ _ _ he => by cases he

theorem Returns.mono {P' : α → World → Prop} (hm : Returns m w P) (h : ∀ a w', P a w' → P' a w') :
    Returns m w P' :=
  post_mono (fun _ w' hr a he => h a w' (hr a he)) hm

theorem returns_statement {wrap : Failure → Exc} {site : Site} {effect : Call α}
    (h : Returns effect (w.note site false) P) : Returns (statement f wrap site effect) w P :=
  post_statement (fun _ _ _ he => by cases he) fun _ => h

theorem returns_checked {wrap : CodedError → Exc} {x : Except CodedError α} :
    Returns (checked wrap x) w fun a w' => x = .ok a ∧ w' = w :=
  post_checked (fun a ha b he => by cases he; exact ⟨ha, rfl⟩) fun _ _ _ he => by cases he

theorem returns_operationalView :
    Returns operationalView w fun view w' => w.operational = some view ∧ w' = w :=
  post_operationalView (fun view hview v he => by cases he; exact ⟨hview, rfl⟩) fun _ _ _ he => by cases he

theorem Spares.returns (hm : Spares m) (h : Shows run row w) : Returns m w fun _ w' => Shows run row w' :=
  post_mono (fun _ _ hr _ _ => hr) (hm.shows run row w h)

theorem Spares.attempts {k : Except Exc α → Call β} (hm : Spares m) (h : Shows run row w)
    (hk : ∀ r w', Shows run row w' → Returns (k r) w' R) : Returns (Raising.attempt m >>= k) w R :=
  post_attempt_seq (hm.shows run row w h) hk

end Returning

/-- The operational transaction has written `row` for the run. -/
def Wrote (run : Uuid) (row : RunRecord) (w : World) : Prop := ∃ view, w.operational = some view ∧
    view run = some row

theorem requireRun_returns {site : Site} (h : Shows run row w) :
    Returns (requireRun f site run) w fun found w' => found = row ∧ Shows run row w' := by
  refine Returns.bind (P := fun found w' => found = some row ∧ Shows run row w') ?_ fun found w'
    hfound => ?_
  · refine (spares_operationalView.returns h).bind fun _ w₁ h₁ => returns_statement ?_
    refine returns_operationalView.bind fun view w₂ hview => ?_
    have hw₂ : w₂ = w₁.note site false := hview.2
    subst hw₂
    exact returns_pure ⟨h₁.seen view hview.1, h₁.same rfl rfl⟩
  · obtain ⟨rfl, h'⟩ := hfound
    exact returns_pure ⟨rfl, h'⟩

theorem replaceRun_returns {expected : RunStatus} {missing : CodedError} :
    Returns (replaceRun run expected row missing) w fun _ w' => Wrote run row w' := by
  refine returns_operationalView.bind fun view w' _ => ?_
  show Returns (if _ then _ else _) w' _
  split
  · exact fun _ _ => ⟨_, rfl, Function.update_self ..⟩
  · exact returns_raise _

theorem updateRun_returns {select update : Site} {u : RunUpdate} (h : Shows run row w) :
    Returns (updateRun f select update run u) w fun _ w' => ∃ row', u.apply row = .ok row' ∧
      Wrote run row' w' := by
  refine (requireRun_returns h).bind fun current w₁ hcurrent => ?_
  obtain ⟨rfl, -⟩ := hcurrent
  refine returns_checked.bind fun row' w₂ hrow' => ?_
  exact returns_statement (replaceRun_returns.mono fun _ _ hwrote => ⟨row', hrow'.1, hwrote⟩)

theorem commitOperational_returns {site : Site} (h : Wrote run row w) :
    Returns (commitOperational f site) w fun _ w' => Shows run row w' := by
  refine post_tryCatch (P := fun r w' => ∀ a, r = .ok a → Shows run row w') ?_ (fun a _ hr _ _ =>
      hr a rfl) fun e w' _ => ?_
  · refine post_commitAt (fun _ _ _ he => by cases he) fun _ _ _ => ?_
    obtain ⟨view, hview, hrow⟩ := h
    refine ⟨?_, fun _ hv => by cases hv⟩
    show (w.operational.getD w.runs) run = some row
    rw [hview]
    exact hrow
  · split <;> exact returns_raise _

/-- A run that is finished shows what the update made of it. -/
theorem finishRun_returns {a : Finish} (h : Shows q.runId row w) :
    Returns (finishRun f q a) w fun _ w' => ∃ row', Shows q.runId row' w' ∧ row'.status = a.status ∧
      row'.commitResult = a.commitResult := by
  refine ((spares_beginOperationalTransaction .finishBegin).returns h).bind fun _ w₁ h₁ => ?_
  refine (updateRun_returns h₁).bind fun _ w₂ hwrote => ?_
  obtain ⟨row', happly, hwrote⟩ := hwrote
  obtain ⟨-, hstatus, hcommit⟩ := RunUpdate.apply_ends happly
  exact (commitOperational_returns hwrote).mono fun _ _ h' => ⟨row', h', hstatus, hcommit⟩

/-- A COMMIT that was not observed leaves a running run. -/
theorem observeUncertain_returns {commitResult : CommitResult} (h : Shows q.runId row w) :
    Returns (observeUncertain f q commitResult) w fun _ w' => ∃ row', Shows q.runId row' w' ∧
      row'.status = .running ∧ row'.commitResult = commitResult := by
  refine ((spares_beginOperationalTransaction .observeBegin).returns h).bind fun _ w₁ h₁ => ?_
  refine Returns.bind (P := fun _ w' => ∃ row', Wrote q.runId row' w' ∧ row'.status = .running ∧
    row'.commitResult = commitResult) ?_ fun _ w₂ hwrote => ?_
  · refine (spares_operationalView.returns h₁).bind fun _ w₂ h₂ => ?_
    have hrest : Returns (do
        let current ← requireRun f .observeSelect q.runId
        let record ← checked .runStore (commitObservation current commitResult "commit" "commit_uncertain"
          "business commit was not confirmed; writes were not retried")
        statement f storeError .observeUpdate (replaceRun q.runId .running record
          ⟨"status_conflict", "run status changed before the commit observation"⟩)) w₂ fun _ w' =>
          ∃ row', Wrote q.runId row' w' ∧ row'.status = .running ∧ row'.commitResult = commitResult := by
      refine (requireRun_returns h₂).bind fun current w₃ _ => returns_checked.bind fun row' w₄ hrow' => ?_
      exact returns_statement (replaceRun_returns.mono fun _ _ hwrote =>
          ⟨row', hwrote, commitObservation_ok hrow'.1⟩)
    dsimp only
    split
    · exact (returns_raise _).bind (P := fun _ _ => False) fun _ _ hf => hf.elim
    · exact hrest
  · obtain ⟨row', hwrote, hrow'⟩ := hwrote
    exact (commitOperational_returns hwrote).mono fun _ _ h' => ⟨row', h', hrow'⟩

theorem markRunning_returns (h : Shows q.runId row w) :
    Returns (markRunning f q) w fun _ w' => ∃ row', Shows q.runId row' w' := by
  refine (updateRun_returns h).bind fun _ w₁ hwrote => ?_
  obtain ⟨row', -, hwrote⟩ := hwrote
  exact (commitOperational_returns hwrote).mono fun _ _ h' => ⟨row', h'⟩

/-! ## What the coordinator leaves -/

/-- What the row of a run says beside the result of its flow. -/
inductive Leaves (r : CoordinatorResult) (row : RunRecord) : Prop
  | ended (status : r.status = .run row.status) (terminal : row.status.terminal = true)
      (unpublished : row.status.success = false) (commit : row.commitResult = r.commitResult)
  | published (status : r.status = .run row.status) (success : row.status.success = true)
      (commit : row.commitResult = .technicallyObserved) (observed : r.commitResult = .technicallyObserved)
      (recorded : r.publicationRecorded = true)
  /-- The lease could not be verified: only the row calls the COMMIT uncertain. -/
  | unverified (status : r.status = .run .failedRetryable) (failed : row.status = .failedRetryable)
      (commit : row.commitResult = .uncertain) (unattempted : r.commitResult = .notAttempted)
  | unobserved (status : r.status = .commitUncertain) (running : row.status = .running)

/-- A program that returns with such a row. -/
def LeavesRow (run : Uuid) (m : Call CoordinatorResult) (w : World) : Prop :=
  Returns m w fun r w' => ∃ row, Shows run row w' ∧ Leaves r row

/-- A run that is finished without a success, and its result. -/
theorem ended_leaves {a : Finish} {r : CoordinatorResult} (h : Shows q.runId row w)
    (hr : r.status = .run a.status)
    (hc : r.commitResult = a.commitResult) (hterminal : a.status.terminal = true)
    (hsuccess : a.status.success = false) :
    LeavesRow q.runId (do finishRun f q a; return r) w := by
  refine (finishRun_returns h).bind fun _ w₁ hfinished => ?_
  obtain ⟨row', h', hstatus, hcommit⟩ := hfinished
  refine returns_pure ⟨row', h', .ended ?_ ?_ ?_ ?_⟩
  · rw [hr, hstatus]
  · rw [hstatus, hterminal]
  · rw [hstatus, hsuccess]
  · rw [hcommit, hc]

/-- The same after the lock of the business was released. -/
theorem released_leaves {a : Finish} {r : CoordinatorResult} (h : Shows q.runId row w)
    (hr : r.status = .run a.status)
    (hc : r.commitResult = a.commitResult) (hterminal : a.status.terminal = true)
    (hsuccess : a.status.success = false) :
    LeavesRow q.runId (do releaseBusinessLock f; finishRun f q a; return r) w :=
  (spares_releaseBusinessLock.returns h).bind fun _ _ h₁ => ended_leaves h₁ hr hc hterminal hsuccess

theorem abort_leaves {staged : PublicationOutcome} (h : Shows q.runId row w) :
    LeavesRow q.runId (abortStaged f q staged) w := by
  have hstatus :
      (abortFinish staged).status.terminal = true ∧ (abortFinish staged).status.success = false := by
    show (if abortBlocked staged then RunStatus.blockedQuality else .failedRetryable).terminal = true ∧
      (if abortBlocked staged then RunStatus.blockedQuality else .failedRetryable).success = false
    split <;> exact ⟨rfl, rfl⟩
  unfold abortStaged
  dsimp only
  split
  · exact released_leaves h rfl rfl hstatus.1 hstatus.2
  · exact ended_leaves h rfl rfl hstatus.1 hstatus.2

theorem released_publication_leaves {staged : PublicationOutcome} (h : Shows q.runId row w) :
    LeavesRow q.runId (publishReleased f q staged) w := by
  refine (spares_commitBusiness.returns h).bind fun commitResult w₁ h₁ => ?_
  dsimp only
  split
  · refine (observeUncertain_returns h₁).bind fun _ w₂ hobserved => ?_
    obtain ⟨row', h', hrunning, -⟩ := hobserved
    exact returns_pure ⟨row', h', .unobserved rfl hrunning⟩
  · refine (finishRun_returns h₁).bind fun _ w₂ hfinished => ?_
    obtain ⟨row', h', hstatus, hcommit⟩ := hfinished
    have hsuccess : (successFinish q staged).status.success = true := by
      show (if _ then RunStatus.succeededNoop else .succeeded).success = true
      split <;> rfl
    exact returns_pure ⟨row', h', .published (by rw [hstatus]; rfl) (by rw [hstatus, hsuccess])
      hcommit rfl rfl⟩

theorem staged_leaves {lease : ConfirmedLeaseRight} {staged : PublicationOutcome}
    (h : Shows q.runId row w) : LeavesRow q.runId (publishStaged f q lease staged) w := by
  refine Spares.attempts ((spares_record ..).bind fun _ => spares_release ..) h fun released w₁ h₁ => ?_
  cases released with
  | error e =>
    dsimp only
    split
    · exact released_leaves h₁ rfl rfl rfl rfl
    · exact returns_raise _
  | ok released =>
    dsimp only
    split
    · exact released_leaves h₁ rfl rfl rfl rfl
    · exact released_publication_leaves h₁

theorem verified_leaves {lease : ConfirmedLeaseRight} (h : Shows q.runId row w) :
    LeavesRow q.runId (publishVerified f q lease) w := by
  refine Returns.bind (P := fun _ w' => ∃ row', Shows q.runId row' w') ?_ fun _ w₁ hmarked => ?_
  · refine post_tryCatch (markRunning_returns h) (fun a _ hr _ _ => hr a rfl) fun e w' _ => ?_
    split
    · exact Returns.bind (P := fun _ _ => True) (fun _ _ => trivial) fun _ _ _ => returns_raise _
    · exact returns_raise _
  · obtain ⟨row', h₁⟩ := hmarked
    refine ((spares_stage ..).returns h₁).bind fun staged w₂ h₂ => ?_
    split
    · exact abort_leaves h₂
    · exact staged_leaves h₂

theorem leaseRejectionStatus_cases (d : LeaseDecision) :
    leaseRejectionStatus d = .skippedInProgress ∨ leaseRejectionStatus d = .superseded := by
  unfold leaseRejectionStatus
  split
  · exact Or.inl rfl
  · exact Or.inr rfl

theorem claimed_leaves {lease : ConfirmedLeaseRight} (h : Shows q.runId row w) :
    LeavesRow q.runId (publishClaimed f q lease) w := by
  refine Spares.attempts (spares_verify ..) h fun decision w₁ h₁ => ?_
  cases decision with
  | error e =>
    cases e with
    | concurrency e =>
      refine (spares_releaseBusinessLock.returns h₁).bind fun _ w₂ h₂ => (finishRun_returns h₂).bind
        fun _ w₃ hfinished => ?_
      obtain ⟨row', h', hstatus, hcommit⟩ := hfinished
      exact returns_pure ⟨row', h', .unverified rfl hstatus hcommit rfl⟩
    | _ => exact returns_raise _
  | ok decision =>
    dsimp only
    split
    · rcases leaseRejectionStatus_cases decision with hs | hs <;> rw [hs]
          <;> exact released_leaves h₁ rfl rfl rfl rfl
    · exact verified_leaves h₁

/-- Every result of `publish_weekly_business_report`. -/
theorem publication_leaves (h : Shows q.runId row w) :
    LeavesRow q.runId (publishWeeklyBusinessReport f q) w := by
  refine (spares_separated.returns h).bind fun _ w₁ h₁ => (spares_identifiedRun.returns h₁).bind
    fun _ w₂ h₂ => ?_
  split
  · exact ended_leaves h₂ rfl rfl rfl rfl
  · split
    · exact ended_leaves h₂ rfl rfl rfl rfl
    · exact claimed_leaves h₂

/-! ## What the flow leaves -/

section Flow

variable {x : Execution}

theorem mapError_ok {ε ε' : Type} {g : ε → ε'} {e : Except ε α} {a : α} (h : e.mapError g = .ok a) :
    e = .ok a := by
  cases e with
  | error _ => cases h
  | ok _ =>
    cases h
    rfl

/-- The committed row of the run, beside a result. -/
def Committed (run : Uuid) (r : CoordinatorResult) (w : World) : Prop :=
  ∃ row, w.runs run = some row ∧ Leaves r row

theorem transaction_returns {broken : Option (Failure × Bool)} {body : World → Except Exc (α × World)} :
    Returns (transaction broken body) w fun a w' => body w = .ok (a, w') := by
  unfold Returns Post transaction
  split
  case h_1 hbody => exact fun a he => by cases he; exact hbody
  all_goals exact fun a he => by cases he

/-- The update of a task that ends its run before the publication. -/
theorem updateStored_leaves {u : RunUpdate} {runs runs' : Runs} {r : CoordinatorResult}
    (hrow : runs run = some row) (hnew : row.commitResult = .notAttempted)
    (h : updateStored run u runs = .ok runs') (hu : u.commitResult = none) (hr : r.status = .run u.status)
    (hc : r.commitResult = .notAttempted) (hterminal : u.status.terminal = true)
    (hsuccess : u.status.success = false) : ∃ row', runs' run = some row' ∧ Leaves r row' := by
  unfold updateStored at h
  rw [hrow] at h
  cases happly : u.apply row with
  | error e => simp [happly, Except.map] at h
  | ok row' =>
    simp only [happly, Except.map, Except.ok.injEq] at h
    obtain ⟨-, hstatus, hcommit⟩ := RunUpdate.apply_ends happly
    rw [hu, Option.getD_none, hnew] at hcommit
    refine ⟨row', by rw [← h, Function.update_self], .ended ?_ ?_ ?_ ?_⟩
    · rw [hr, hstatus]
    · rw [hstatus, hterminal]
    · rw [hstatus, hsuccess]
    · rw [hcommit, hc]

theorem failRun_leaves {stage error : String} {records : Option Nat} (hrow : w.runs run = some row)
    (hnew : row.commitResult = .notAttempted) :
    Returns (failRunTask x run stage error records) w fun r w' => Committed run r w' := by
  refine transaction_returns.mono fun r w' h => ?_
  obtain ⟨runs, hruns, h⟩ := bind_ok h
  cases h
  exact updateStored_leaves hrow hnew (mapError_ok hruns) rfl rfl rfl rfl rfl

theorem gate_leaves {coverage : CoverageEvidence} {t : WeeklyTransformationResult} {events : Nat}
    (hrow : w.runs run = some row) (hnew : row.commitResult = .notAttempted) :
    Returns (qualityGateTask x run coverage t events) w fun blocked w' =>
      match blocked with
      | none => w' = w
      | some r => Committed run r w' := by
  refine Returns.bind (P := fun _ w' => w' = w) (fun _ _ => rfl) fun found w₁ hw₁ => ?_
  subst hw₁
  dsimp only
  split
  · exact returns_pure rfl
  · refine transaction_returns.mono fun blocked w' h => ?_
    obtain ⟨runs, hruns, h⟩ := bind_ok h
    cases h
    exact updateStored_leaves hrow hnew (mapError_ok hruns) rfl rfl rfl rfl rfl

theorem lease_leaves (hrow : w.runs run = some row) (hnew : row.commitResult = .notAttempted) :
    Returns (acquireLeaseTask x run) w fun prepared w' => prepared.runId = run ∧
      match prepared.terminalResult with
      | none => w'.runs = w.runs
      | some r => Committed run r w' := by
  refine transaction_returns.mono fun prepared w' h => ?_
  obtain ⟨⟨d, w₁⟩, hlease, h⟩ := bind_ok h
  have hruns := (acquireLeaseNow_ok hlease).1
  dsimp only at h
  split at h
  · cases h
    exact ⟨rfl, hruns⟩
  · obtain ⟨runs, hrecord, h⟩ := bind_ok h
    cases h
    refine ⟨rfl, ?_⟩
    rw [hruns] at hrecord
    unfold recordLeaseRunStatus at hrecord
    rw [hrow] at hrecord
    refine updateStored_leaves hrow hnew (mapError_ok hrecord) rfl rfl rfl ?_ ?_
    all_goals
      dsimp only
      split <;> rfl

theorem publishWeek_leaves {prepared : PreparedRun} {coverage : CoverageEvidence}
    {t : WeeklyTransformationResult} {events : Nat} (hrow : w.runs prepared.runId = some row) :
    Returns (publishWeekTask x prepared coverage t events) w fun r w' => Committed prepared.runId r w' := by
  have hbegin : Shows prepared.runId row w.begin := ⟨hrow, fun view hview => by cases hview; exact hrow⟩
  intro r hr
  obtain ⟨row', hshows, hleaves⟩ := publication_leaves (f := x.faults)
    (q := x.request prepared.runId coverage t events prepared.lease x.publishedAt) hbegin r hr
  exact ⟨row', hshows.committed, hleaves⟩

theorem publicationFlow_leaves {coverage : CoverageEvidence} {t : WeeklyTransformationResult} {events : Nat}
    (hrow : w.runs run = some row) (hnew : row.commitResult = .notAttempted) :
    Returns (publishWeeklyBusinessReportFlow x run coverage t events) w fun r w' => Committed run r w' := by
  refine (gate_leaves hrow hnew).bind fun blocked w₁ hblocked => ?_
  cases blocked with
  | some r => exact returns_pure hblocked
  | none =>
    cases hblocked
    refine Returns.bind (P := fun _ w' => w' = w) (fun _ _ => rfl) fun _ w' hw' => ?_
    subst hw'
    refine (lease_leaves hrow hnew).bind fun prepared w₂ hprepared => ?_
    obtain ⟨hid, hend⟩ := hprepared
    cases hterminal : prepared.terminalResult with
    | some r =>
      rw [hterminal] at hend
      exact returns_pure hend
    | none =>
      rw [hterminal] at hend
      rw [← hid]
      exact publishWeek_leaves (by rw [hend, hid]; exact hrow)

/-- **The row of a run beside the result of its flow**, whatever way the flow took to it. -/
theorem flow_leaves {w₀ : World} {r : CoordinatorResult} (hcreated : createRunTask x w₀ = (.ok run, w))
    (hrow : w.runs run = some row) (hnew : row.commitResult = .notAttempted)
    (hreturned : (weeklyPerformanceFlow x w₀).1 = .ok r) :
    Committed run r (weeklyPerformanceFlow x w₀).2 := by
  refine (show Returns (weeklyPerformanceFlow x) w₀ fun r w' => Committed run r w' from ?_) r hreturned
  refine post_bind ?_
  rw [Post, hcreated]
  show Returns _ w _
  cases hextraction : extractWeeklyWarehouseEvents x with
  | error e => exact failRun_leaves hrow hnew
  | ok stage =>
    obtain ⟨coverage, extracted, failedStage, error⟩ := stage
    cases failedStage with
    | some failed => exact failRun_leaves hrow hnew
    | none =>
      cases extracted with
      | none => exact failRun_leaves hrow hnew
      | some events =>
        dsimp only
        cases hcalculation : x.calculation with
        | error e => exact failRun_leaves hrow hnew
        | ok t =>
          refine post_attempt_seq (publicationFlow_leaves hrow hnew) fun r w' h => ?_
          cases r with
          | ok r => exact returns_pure (h r rfl)
          | error e => exact returns_raise _

end Flow

end TrackFlow.Pipelines
