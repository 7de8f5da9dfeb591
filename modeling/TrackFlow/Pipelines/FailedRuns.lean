import TrackFlow.Pipelines.HealthySteps
import TrackFlow.Pipelines.PublishedRows
import TrackFlow.Pipelines.StoredTexts

/-!
# Failed publications and their runs

A publication that fails must leave a terminal run and a business transaction that is rolled back;
only a COMMIT whose failure is uncertain excuses it (`EndsWell`). The failure is recorded by the run
store, whose validators can refuse the record, and a COMMIT that failed for sure is observed, not
finished.

- `failed_runs_terminal`: on healthy operational connections a call ends well exactly when what it
  reaches is `Recordable`;
- `secret_text_leaves_running`: an UPSERT whose error text names a credential leaves its run running.
-/

namespace TrackFlow.Pipelines

open TrackFlow.Python TrackFlow.Python.Raising

variable {f : Faults} {q : Request} {w : World} {row : RunRecord} {view : Option Reporting}
  {away : List Site}

/-! ## What is asked of a call -/

/-- The call ended as it must: its run is terminal, and unless the publication is committed the
business transaction is rolled back, or nothing was executed in it. -/
structure Terminated (q : Request) (w₀ w : World) : Prop where
  run : ∃ row, w.runs q.runId = some row ∧ row.status.terminal = true
  business : (∀ attempt ∈ w.attempts, attempt.effect = false) → w.reporting = w₀.reporting ∧
    (w.business = none ∨ ∀ step ∈ w.trace, step.1 ∉ businessSites)

/-- The COMMIT raised what `_commit_failure_is_uncertain` calls uncertain. -/
def CommitUncertain (f : Faults) (w : World) : Prop :=
  ∃ e, f.raises .commit = some e ∧ commitFailureIsUncertain e = true ∧ (.commit, true) ∈ w.trace

/-- Only an uncertain COMMIT excuses a run that is not terminal. -/
def EndsWell (f : Faults) (q : Request) (w₀ w : World) : Prop := CommitUncertain f w ∨ Terminated q w₀ w

/-- The lease of the request verifies, after checks that passed. -/
def Admitted (f : Faults) (q : Request) (w : World) : Prop :=
  preWriteIssues q = [] ∧ f.raises .verify = none ∧ ∃ lease c, durableClaim q = some lease ∧
    w.reporting.control q.weekStart = some c ∧ c.verifies q.runId lease.fencingToken f.clock = true

/-- The reconciliation finds the published keys in the batch. -/
def Reconciled (f : Faults) (q : Request) (w : World) : Prop :=
  Admitted f q w ∧ w.unusable = false ∧ f.raises .reconcile = none ∧
    (reconcileRows q.weekStart q.aggregates (w.reporting.rowsOf q.weekStart)).readCompleted = true ∧
    (reconcileRows q.weekStart q.aggregates (w.reporting.rowsOf q.weekStart)).disappearedKeys = []

/-- The UPSERT works. -/
def Staged (f : Faults) (q : Request) (w : World) : Prop :=
  Reconciled f q w ∧ f.raises .upsert = none ∧ ∃ counts, countsFromSnapshot (sortedAggregates q.aggregates)
    (w.reporting.rowsOf q.weekStart)
      (upsertAll w.reporting.kpis (sortedAggregates q.aggregates)).2 = .ok counts

/-- The pointer of a whole batch. -/
def pointerOf (q : Request) : Publication where
  publishedAt := q.now
  publishedRowCount := q.aggregates.length
  dependencyFingerprint := q.dependencyFingerprint
  rulesVersion := q.rulesVersion

/-- The protected sequence works. -/
def Protected (f : Faults) (q : Request) (w : World) : Prop :=
  Staged f q w ∧ recordFailure f (pointerOf q) = none ∧ (pointerOf q).check = .ok () ∧
    f.raises .release = none

/-- The failures of a call can be recorded: the text of a failure that is reached is one that the
run store takes, a COMMIT that is reached does not fail for sure, and the number of records is one
that the run store takes. -/
structure Recordable (f : Faults) (q : Request) (w : World) : Prop where
  reconcile : Admitted f q w → w.unusable = false → ∀ e, f.raises .reconcile = some e →
    Storable 500 ("reconcile: " ++ e.text)
  upsert : Reconciled f q w → ∀ e, f.raises .upsert = some e → Storable 500 ("upsert: " ++ e.text)
  record : Staged f q w → ∀ e, recordFailure f (pointerOf q) = some e → Storable 500 (takeText 500 e.text)
  commit : Protected f q w → ∀ e, f.raises .commit = some e → commitFailureIsUncertain e = true
  records : Protected f q w → f.raises .commit = none →
    ∀ n, q.recordsProcessed = some n → 0 ≤ n ∧ n ≤ postgresIntegerMax

theorem recordable_of_not_admitted (h : ¬Admitted f q w) : Recordable f q w where
  reconcile hv := absurd hv h
  upsert hr := absurd hr.1 h
  record hs := absurd hs.1.1 h
  commit hp := absurd hp.1.1.1 h
  records hp := absurd hp.1.1.1 h

theorem recordable_iff_reconcile (hv : Admitted f q w) (hu : w.unusable = false) {e : Failure}
    (he : f.raises .reconcile = some e) : Recordable f q w ↔ Storable 500 ("reconcile: " ++ e.text) := by
  have hnot : ¬Reconciled f q w := fun h => by cases h.2.2.1.symm.trans he
  refine ⟨fun h => h.reconcile hv hu e he, fun hs =>
    { reconcile := fun _ _ e' he' => ?_
      upsert := fun h => absurd h hnot
      record := fun h => absurd h.1 hnot
      commit := fun h => absurd h.1.1 hnot
      records := fun h => absurd h.1.1 hnot }⟩
  cases he.symm.trans he'
  exact hs

theorem recordable_of_not_reconciled (hnone : w.unusable = true ∨ f.raises .reconcile = none)
    (h : ¬Reconciled f q w) : Recordable f q w where
  reconcile _ hu e he := by
    rcases hnone with hn | hn
    · cases hn.symm.trans hu
    · cases hn.symm.trans he
  upsert hr := absurd hr h
  record hs := absurd hs.1 h
  commit hp := absurd hp.1.1 h
  records hp := absurd hp.1.1 h

theorem recordable_iff_upsert (hr : Reconciled f q w) {e : Failure} (he : f.raises .upsert = some e) :
    Recordable f q w ↔ Storable 500 ("upsert: " ++ e.text) := by
  have hnot : ¬Staged f q w := fun h => by cases h.2.1.symm.trans he
  refine ⟨fun h => h.upsert hr e he, fun hs =>
    { reconcile := fun _ _ e' he' => by cases hr.2.2.1.symm.trans he'
      upsert := fun _ e' he' => ?_
      record := fun h => absurd h hnot
      commit := fun h => absurd h.1 hnot
      records := fun h => absurd h.1 hnot }⟩
  cases he.symm.trans he'
  exact hs

theorem recordable_of_not_staged (hr : Reconciled f q w) (hnone : f.raises .upsert = none)
    (h : ¬Staged f q w) : Recordable f q w where
  reconcile _ _ e he := by cases hr.2.2.1.symm.trans he
  upsert _ e he := by cases hnone.symm.trans he
  record hs := absurd hs h
  commit hp := absurd hp.1 h
  records hp := absurd hp.1 h

theorem recordable_iff_record (hs : Staged f q w) {e : Failure}
    (he : recordFailure f (pointerOf q) = some e) :
    Recordable f q w ↔ Storable 500 (takeText 500 e.text) := by
  have hnot : ¬Protected f q w := fun h => by cases h.2.1.symm.trans he
  refine ⟨fun h => h.record hs e he, fun hst =>
    { reconcile := fun _ _ e' he' => by cases hs.1.2.2.1.symm.trans he'
      upsert := fun _ e' he' => by cases hs.2.1.symm.trans he'
      record := fun _ e' he' => ?_
      commit := fun h => absurd h hnot
      records := fun h => absurd h hnot }⟩
  cases he.symm.trans he'
  exact hst

theorem recordable_of_not_protected (hs : Staged f q w) (hnone : recordFailure f (pointerOf q) = none)
    (h : ¬Protected f q w) : Recordable f q w where
  reconcile _ _ e he := by cases hs.1.2.2.1.symm.trans he
  upsert _ e he := by cases hs.2.1.symm.trans he
  record _ e he := by cases hnone.symm.trans he
  commit hp := absurd hp h
  records hp := absurd hp h

theorem recordable_iff_commit (hp : Protected f q w) : Recordable f q w ↔
    (∀ e, f.raises .commit = some e → commitFailureIsUncertain e = true) ∧
      (f.raises .commit = none → ∀ n, q.recordsProcessed = some n → 0 ≤ n ∧ n ≤ postgresIntegerMax) :=
  ⟨fun h => ⟨h.commit hp, h.records hp⟩, fun h =>
    { reconcile := fun _ _ e he => by cases hp.1.1.2.2.1.symm.trans he
      upsert := fun _ e he => by cases hp.1.2.1.symm.trans he
      record := fun _ e he => by cases hp.2.1.symm.trans he
      commit := fun _ => h.1
      records := fun _ => h.2 }⟩

/-! ## Ends -/

/-- What the arguments of `_finish_run` must be for a run that is not recorded with counts. -/
structure Finish.Sound (a : Finish) (row : RunRecord) (now : Int) : Prop where
  expected : row.status = a.expectedStatus
  step : a.status ∈ a.expectedStatus.next
  terminal : a.status.terminal = true
  start : row.startedAt ≤ now
  stage : Storable 128 a.stageReached
  failed : a.status = .failedRetryable → ∃ code, a.errorCode = some code ∧ Storable 128 code
  others : a.status ≠ .failedRetryable → a.errorCode = none
  blocked : a.status = .blockedQuality → a.blockReason.isSome
  reason : OptStorable 500 a.blockReason
  counts : a.inserted = 0 ∧ a.updated = 0 ∧ a.unchanged = 0 ∧ a.aggregates = none ∧
    a.recordsProcessed = none

theorem Finish.Sound.wellformed {a : Finish} {now : Int} (h : a.Sound row now) :
    (a.update now).Wellformed row := by
  obtain ⟨hi, hu, hn, ha, -⟩ := h.counts
  have hzero (field : String) : count (some 0) field = .ok (some 0) := count_eq_ok (by decide) (by decide)
  have hcode : (a.status = .failedRetryable → ∃ code, (a.update now).errorCode = some code ∧
      Storable 128 code) ∧
      (a.status ≠ .failedRetryable → (a.update now).errorCode = none) := by
    refine ⟨fun hs => ?_, fun hs => ?_⟩
    · obtain ⟨code, hcode, hst⟩ := h.failed hs
      refine ⟨code, ?_, hst⟩
      simp [Finish.update, hcode, RunUpdate.falsy, isEmpty_of_storable hst]
    · simp [Finish.update, h.others hs, hs, RunUpdate.falsy]
  refine
    { expected := h.expected, step := h.step, finished := ⟨now, rfl, h.start⟩, reason := h.reason
      notRunning := fun hs => ?_, blocked := fun hs => ?_, failed := fun hs => ?_
      stage := fun v hv => ?_, code := fun v hv => ?_, aggregates := fun field => ?_
      inserted := fun field => ?_, updated := fun field => ?_, unchanged := fun field => ?_ }
  · have hterminal := h.terminal
    rw [show a.status = .running from hs] at hterminal
    cases hterminal
  · obtain ⟨reason, hreason⟩ := Option.isSome_iff_exists.1 (h.blocked hs)
    have hst := h.reason reason hreason
    simp [Finish.update, hreason, RunUpdate.falsy, isEmpty_of_storable hst]
  · obtain ⟨code, hcode, hst⟩ := hcode.1 hs
    simp [hcode, RunUpdate.falsy, isEmpty_of_storable hst]
  · cases hv
    exact h.stage
  · by_cases hs : a.status = .failedRetryable
    · obtain ⟨code, hcode, hst⟩ := hcode.1 hs
      rw [hcode, Option.some_inj] at hv
      exact hv ▸ hst
    · rw [hcode.2 hs] at hv
      cases hv
  · simp only [Finish.update, ha]
    rfl
  · simp only [Finish.update, hi]
    exact hzero field
  · simp only [Finish.update, hu]
    exact hzero field
  · simp only [Finish.update, hn]
    exact hzero field

theorem not_terminal_of_next {s t : RunStatus} (h : t ∈ s.next) : s.terminal = false := by
  cases s <;> first | rfl | simp [RunStatus.next] at h

section Ends

variable {w₁ : World} {X : Prop}

theorem At.endsWell (h : At w.begin q row row view away w₁) (hb : view = none ∨ away = businessSites)
    (hterminal : row.status.terminal = true) : EndsWell f q w w₁ := by
  refine Or.inr ⟨⟨row, h.run, hterminal⟩, fun _ => ⟨h.reporting, ?_⟩⟩
  rcases hb with hb | hb
  · exact Or.inl (h.business.trans hb)
  · exact Or.inr fun step hstep => hb ▸ h.trace step hstep

theorem not_endsWell_of_at (h : At w.begin q row row view away w₁) (hc : .commit ∈ away)
    (hterminal : row.status.terminal = false) : ¬EndsWell f q w w₁ := by
  rintro (⟨e, -, -, hmem⟩ | hend)
  · exact h.trace _ hmem hc
  · obtain ⟨row', hrow', ht⟩ := hend.run
    rw [h.run, Option.some_inj] at hrow'
    rw [← hrow', hterminal] at ht
    cases ht

/-- A call that ends by finishing its run ends well if and only if the error message can be stored. -/
theorem finish_iff (hf : Healthy f) (h : At w.begin q row row view away w₁) (ha : away ⊆ businessSites)
    (hc : .commit ∈ away) (hb : view = none ∨ away = businessSites) {a : Finish} (hs : a.Sound row q.now)
    {res : CoordinatorResult} (hX : OptStorable 500 a.errorMessage ↔ X) :
    Post (do finishRun f q a; return res) (fun _ w' => EndsWell f q w w' ↔ X) w₁ := by
  have hiff := hs.wellformed.apply_isOk_iff
  have hnone : (a.update q.now).recordsProcessed = none := hs.counts.2.2.2.2
  cases happly : (a.update q.now).apply row with
  | ok row' =>
    have hX' : X := hX.1 (hiff.1 ⟨row', happly⟩).2
    refine post_next (finishRun_gives hf ha h happly) fun w₂ h₂ => ?_
    refine iff_of_true (h₂.endsWell hb ?_) hX'
    rw [(RunUpdate.apply_ok happly).2.2]
    exact hs.terminal
  | error e =>
    have hX' : ¬X := fun hx => by
      obtain ⟨row', hrow'⟩ := hiff.2 ⟨by rw [hnone]; rintro n ⟨⟩, hX.2 hx⟩
      cases happly.symm.trans hrow'
    refine post_stop (finishRun_fails hf ha h happly) fun w₂ h₂ => ?_
    refine iff_of_false (not_endsWell_of_at h₂ hc ?_) hX'
    rw [hs.expected]
    exact not_terminal_of_next hs.step

/-! ## The failures of the protected sequence -/

theorem abort_sound {staged : PublicationOutcome} {issue : PublicationIssue} (hrow : row.status = .running)
    (hstart : row.startedAt ≤ q.now) (he : staged.errors = [issue]) (hcode : Storable 128 issue.code) :
    (abortFinish staged).Sound row q.now ∧ (abortFinish staged).errorMessage = some issue.message := by
  have hcodes : abortCodes staged = [issue.code] := by simp [abortCodes, he]
  have hreason : OptStorable 500 (some issue.code) := by
    intro v hv
    cases hv
    exact hcode.mono (by omega)
  unfold abortFinish
  rw [hcodes, he]
  refine ⟨?_, rfl⟩
  have hstage : Storable 128 "publish" := by decide
  cases abortBlocked staged with
  | true =>
    exact
      { expected := hrow, terminal := rfl, start := hstart, stage := hstage, reason := hreason
        step := by simp [RunStatus.next], failed := fun h => (by cases h), others := fun _ => rfl
        blocked := fun _ => rfl, counts := ⟨rfl, rfl, rfl, rfl, rfl⟩ }
  | false =>
    exact
      { expected := hrow, terminal := rfl, start := hstart, stage := hstage, reason := fun _ hv => (by cases hv)
        step := by simp [RunStatus.next], failed := fun _ => ⟨issue.code, rfl, hcode⟩
        others := fun h => absurd rfl h, blocked := fun h => (by cases h)
        counts := ⟨rfl, rfl, rfl, rfl, rfl⟩ }

/-- A batch that was not staged for one issue. -/
theorem abort_iff (hf : Healthy f) (h : At w.begin q row row view [.commit] w₁)
    {staged : PublicationOutcome} {issue : PublicationIssue} (hrow : row.status = .running)
    (hstart : row.startedAt ≤ q.now) (he : staged.errors = [issue]) (hcode : Storable 128 issue.code)
    (hb : staged.rollbackObserved = true → view = none) (hX : Storable 500 issue.message ↔ X) :
    Post (abortStaged f q staged) (fun _ w' => EndsWell f q w w' ↔ X) w₁ := by
  obtain ⟨hsound, hmessage⟩ := abort_sound hrow hstart he hcode
  have hX' : OptStorable 500 (abortFinish staged).errorMessage ↔ X := by
    rw [hmessage, ← hX]
    exact ⟨fun h => h _ rfl, fun h v hv => by cases hv; exact h⟩
  unfold abortStaged
  by_cases hobserved : staged.rollbackObserved = true
  · rw [if_neg (not_not.2 hobserved)]
    exact finish_iff hf h (by decide) (by decide) (Or.inl (hb hobserved)) hsound hX'
  · rw [if_pos hobserved]
    exact post_next (releaseBusinessLock_gives hf h) fun w₂ h₂ =>
      finish_iff hf h₂ (by decide) (by decide) (Or.inl rfl) hsound hX'

/-- A failure of the publication metadata or of the release. -/
theorem failure_iff (hf : Healthy f) (h : At w.begin q row row view [.commit] w₁)
    (hrow : row.status = .running)
    (hstart : row.startedAt ≤ q.now) {stage code message : String} (hstage : Storable 128 stage)
    (hcode : Storable 128 code) (hX : Storable 500 message ↔ X) {res : CoordinatorResult} :
    Post (do
      releaseBusinessLock f
      finishRun f q (publishFailure stage code message)
      return res) (fun _ w' => EndsWell f q w w' ↔ X) w₁ := by
  refine post_next (releaseBusinessLock_gives hf h) fun w₂ h₂ =>
    finish_iff hf h₂ (by decide) (by decide) (Or.inl rfl) ?_ ?_
  · exact
      { expected := hrow, terminal := rfl, start := hstart, stage := hstage, reason := fun _ hv => (nomatch hv)
        step := by simp [publishFailure, RunStatus.next], failed := fun _ => ⟨code, rfl, hcode⟩
        others := fun h => absurd rfl h, blocked := fun h => (nomatch h)
        counts := ⟨rfl, rfl, rfl, rfl, rfl⟩ }
  · rw [← hX]
    exact ⟨fun h => h _ rfl, fun h v hv => by cases hv; exact h⟩

/-- A run that ends before the protected sequence ends well. -/
theorem unstarted_endsWell (hf : Healthy f) (h : At w.begin q row row view away w₁)
    (ha : away ⊆ businessSites)
    (hc : .commit ∈ away) (hb : view = none ∨ away = businessSites) (hrow : row.status = .pending)
    (hstart : row.startedAt ≤ q.now) {status : RunStatus} {stage reason : String} {errors : List String}
    (hstatus : status ∈ [RunStatus.skippedInProgress, .superseded, .blockedQuality])
    (hstage : Storable 128 stage)
    (hreason : Storable 500 reason) {res : CoordinatorResult} (hX : X) :
    Post (do
      finishRun f q (unstartedFinish status stage errors reason)
      return res) (fun _ w' => EndsWell f q w w' ↔ X) w₁ := by
  refine finish_iff hf h ha hc hb ?_ (iff_of_true (fun v hv => by cases hv) hX)
  have hne : status ≠ .failedRetryable := by
    rintro rfl
    simp at hstatus
  simp only [List.mem_cons, List.not_mem_nil, or_false] at hstatus
  refine ⟨hrow, ?_, ?_, hstart, hstage, fun h => absurd h hne, fun _ => rfl, fun _ => rfl,
    fun v hv => by cases hv; exact hreason, rfl, rfl, rfl, rfl, rfl⟩
  · rcases hstatus with rfl | rfl | rfl <;> simp [unstartedFinish, RunStatus.next]
  · rcases hstatus with rfl | rfl | rfl <;> rfl

/-! ## The COMMIT -/

theorem successFinish_status (q : Request) (staged : PublicationOutcome) :
    (successFinish q staged).status = .succeededNoop ∨ (successFinish q staged).status = .succeeded := by
  unfold successFinish
  dsimp only
  split
  · exact Or.inl rfl
  · exact Or.inr rfl

theorem success_wellformed {staged : PublicationOutcome} (hrow : row.status = .running)
    (hstart : row.startedAt ≤ q.now)
    (htotal : staged.inserted + staged.updated + staged.unchanged = q.aggregates.length)
    (hpos : 0 ≤ staged.inserted ∧ 0 ≤ staged.updated ∧ 0 ≤ staged.unchanged)
    (hmax : (q.aggregates.length : Int) ≤ postgresIntegerMax) :
    ((successFinish q staged).update q.now).Wellformed row := by
  have hcounts (n : Int) (h₀ : 0 ≤ n) (h₁ : n ≤ q.aggregates.length) (field : String) :
      count (some n) field = .ok (some n) := count_eq_ok h₀ (h₁.trans hmax)
  have hinserted := hcounts staged.inserted (by omega) (by omega)
  have hupdated := hcounts staged.updated (by omega) (by omega)
  have hunchanged := hcounts staged.unchanged (by omega) (by omega)
  have hcode : ((successFinish q staged).update q.now).errorCode = none := by
    show (if RunUpdate.falsy none then (if _ then [].head? else none) else none) = none
    split
    · split <;> rfl
    · rfl
  have hstatus : ((successFinish q staged).update q.now).status = .succeededNoop ∨
      ((successFinish q staged).update q.now).status = .succeeded := successFinish_status q staged
  refine
    { expected := hrow, finished := ⟨q.now, rfl, hstart⟩, reason := fun _ hv => (nomatch hv)
      step := ?_, notRunning := ?_, blocked := ?_, failed := ?_, stage := ?_
      code := fun _ hv => by rw [hcode] at hv; cases hv
      aggregates := hcounts _ (by omega) le_rfl
      inserted := hinserted, updated := hupdated, unchanged := hunchanged }
  · show _ ∈ RunStatus.running.next
    rcases hstatus with h | h <;> rw [h] <;> decide
  · rcases hstatus with h | h <;> rw [h] <;> decide
  · rcases hstatus with h | h <;> rw [h] <;> rintro ⟨⟩
  · rcases hstatus with h | h <;> rw [h] <;> rintro ⟨⟩
  · rintro v hv
    cases hv
    show Storable 128 "committed"
    decide

/-- The success of a run is recorded if and only if its number of records can be. -/
theorem success_iff (hf : Healthy f) {w₂ : World} (h : At w₂ q row row view [] w₁)
    (hrow : row.status = .running)
    {staged : PublicationOutcome} (hwell : ((successFinish q staged).update q.now).Wellformed row)
    (hcommitted : ∃ attempt ∈ w₂.attempts, attempt.effect = true) (hcertain : f.raises .commit = none)
    {res : CoordinatorResult} :
    Post (do
      finishRun f q (successFinish q staged)
      return res) (fun _ w' => EndsWell f q w w' ↔
        ∀ n, q.recordsProcessed = some n → 0 ≤ n ∧ n ≤ postgresIntegerMax) w₁ := by
  have hiff := hwell.apply_isOk_iff
  have hmessage : OptStorable 500 ((successFinish q staged).update q.now).errorMessage :=
    fun _ hv => nomatch hv
  cases happly : ((successFinish q staged).update q.now).apply row with
  | ok row' =>
    refine post_next (finishRun_gives hf (by simp) h happly) fun w₃ h₃ => ?_
    refine iff_of_true (Or.inr ⟨⟨row', h₃.run, ?_⟩, fun hnone => ?_⟩) (hiff.1 ⟨row', happly⟩).1
    · rw [(RunUpdate.apply_ok happly).2.2]
      show (successFinish q staged).status.terminal = true
      rcases successFinish_status q staged with hs | hs <;> rw [hs] <;> rfl
    · obtain ⟨attempt, hmem, heffect⟩ := hcommitted
      rw [hnone attempt (h₃.attempts ▸ hmem)] at heffect
      cases heffect
  | error e =>
    refine post_stop (finishRun_fails hf (by simp) h happly) fun w₃ h₃ => ?_
    refine iff_of_false ?_ fun hrecords => ?_
    · rintro (⟨e', he', -⟩ | hend)
      · cases he'.symm.trans hcertain
      · obtain ⟨row', hrow', hterminal⟩ := hend.run
        rw [h₃.run, Option.some_inj] at hrow'
        rw [← hrow', hrow] at hterminal
        cases hterminal
    · obtain ⟨row', hrow'⟩ := hiff.2 ⟨hrecords, hmessage⟩
      cases happly.symm.trans hrow'

/-- The COMMIT and what is recorded of it: a failure that is definite leaves the run running. -/
theorem released_iff (hf : Healthy f) {v : Reporting} (h : At w.begin q row row (some v) [.commit] w₁)
    (hrow : row.status = .running) {staged : PublicationOutcome}
    (hwell : ((successFinish q staged).update q.now).Wellformed row) :
    Post (publishReleased f q staged) (fun _ w' => EndsWell f q w w' ↔
        (∀ e, f.raises .commit = some e → commitFailureIsUncertain e = true) ∧
        (f.raises .commit = none → ∀ n, q.recordsProcessed = some n → 0 ≤ n ∧ n ≤ postgresIntegerMax))
      w₁ := by
  have hclosed : ∀ effect raised, At ((w₁.endBusiness effect).note .commit raised) q row row none []
      ((w₁.endBusiness effect).note .commit raised) := fun effect raised =>
    ⟨rfl, rfl, rfl, fun _ => rfl, fun _ hstep => hstep, fun _ _ => List.not_mem_nil, h.run, h.seen⟩
  cases hcommit : f.raises .commit with
  | none =>
    refine post_next (a := .technicallyObserved) (P := fun w' => w' = (w₁.endBusiness true).note
      .commit false) ?_ ?_
    · refine post_tryCatch (P := Gives .technicallyObserved fun w' =>
          w' = (w₁.endBusiness true).note .commit false) ?_
        (fun _ _ h => h) fun _ _ h => by cases h.1
      exact post_next (a := ()) (P := fun w' => w' = (w₁.endBusiness true).note .commit false)
        (post_commitAt (fun e he => by cases he.symm.trans hcommit) fun _ => ⟨rfl, rfl⟩) fun w₂
          hw => ⟨rfl, hw⟩
    · rintro w₂ rfl
      rw [if_neg (by decide)]
      have hattempt : ∃ attempt ∈ ((w₁.endBusiness true).note .commit false).attempts,
          attempt.effect = true :=
        ⟨⟨v, true, w₁.trace⟩, by simp [World.note, World.endBusiness, h.business], rfl⟩
      refine post_mono (fun _ _ hiff => hiff.trans ?_) (success_iff hf (hclosed true false) hrow
        hwell hattempt hcommit)
      exact ⟨fun hr => ⟨fun e he => (by cases he), fun _ => hr⟩, fun hr => hr.2 rfl⟩
  | some e =>
    have hfail : Post (commitBusiness f) (Gives (if commitFailureIsUncertain e then .uncertain else
        .rolledBack)
        fun w' => w' = (w₁.endBusiness (f.takesEffect .commit)).note .commit true) w₁ := by
      have hne : e.cls ≠ .interrupt := by
        intro hi
        have hd := hf.database _ _ hcommit
        rw [hi] at hd
        cases hd
      refine post_tryCatch (P := Fails (.raised e)
        fun w' => w' = (w₁.endBusiness (f.takesEffect .commit)).note .commit true) ?_ (fun _ _ h =>
          by cases h.1) ?_
      · exact post_stop (P := fun w' => w' = (w₁.endBusiness (f.takesEffect .commit)).note .commit true)
          (post_commitAt (fun e' he' => by cases hcommit.symm.trans he'; exact ⟨rfl, rfl⟩)
            fun hn => by cases hcommit.symm.trans hn) fun w₂ hw => ⟨rfl, hw⟩
      · rintro e' w₂ ⟨he', rfl⟩
        cases he'
        dsimp only
        rw [if_neg hne]
        exact ⟨rfl, rfl⟩
    refine post_next hfail ?_
    rintro w₂ rfl
    have hallowed : (if commitFailureIsUncertain e then CommitResult.uncertain else .rolledBack) =
        .uncertain ∨
        (if commitFailureIsUncertain e then CommitResult.uncertain else .rolledBack) = .rolledBack := by
      split
      · exact Or.inl rfl
      · exact Or.inr rfl
    have hnot : (if commitFailureIsUncertain e then CommitResult.uncertain else .rolledBack) ≠
        .technicallyObserved := by
      split <;> decide
    rw [if_pos hnot]
    refine post_next (observeUncertain_gives hf (by simp) (hclosed (f.takesEffect .commit) true)
      hrow hallowed) ?_
    rintro w₃ ⟨row', hrunning, h₃⟩
    by_cases hu : commitFailureIsUncertain e = true
    · refine iff_of_true (Or.inl ⟨e, hcommit, hu, h₃.past _ (by simp [World.note])⟩) ⟨fun e' he' =>
          ?_, fun hn => (by cases hn)⟩
      cases he'
      exact hu
    · refine iff_of_false ?_ fun hr => hu (hr.1 e rfl)
      rintro (⟨e', he', hu', -⟩ | hend)
      · cases hcommit.symm.trans he'
        exact hu hu'
      · obtain ⟨row'', hrow'', hterminal⟩ := hend.run
        have hsame := h₃.run.symm.trans hrow''
        rw [Option.some_inj] at hsame
        rw [← hsame, hrunning] at hterminal
        cases hterminal

/-! ## The walk -/

variable {lease : ConfirmedLeaseRight} {c : WeekControl}

theorem publicationOf_eq_pointerOf {staged : PublicationOutcome}
    (htotal : staged.inserted + staged.updated + staged.unchanged = q.aggregates.length) :
    publicationOf q staged = pointerOf q := by
  rw [publicationOf, pointerOf, htotal]

theorem length_of_check (h : (pointerOf q).check = .ok ()) :
    (q.aggregates.length : Int) ≤ postgresIntegerMax := by
  obtain ⟨_, hcount, -⟩ := bind_ok h
  exact (count_ok hcount).2

theorem verifies_parts {run : Uuid} {token clock : Int} (h : c.verifies run token clock = true) :
    c.owned run = true ∧ c.fencingToken = token := by
  simp only [WeekControl.verifies, Bool.and_eq_true, decide_eq_true_eq] at h
  exact h.1

/-- From the publication metadata on. -/
theorem staged_iff (hf : Healthy f) (hst : Staged f q w) (hweek : weekday q.weekStart = 0)
    (htoken : 0 ≤ lease.fencingToken) (hc : w.reporting.control q.weekStart = some c)
    (hv : c.verifies q.runId lease.fencingToken f.clock = true)
    (h : At w.begin q row row (some (w.reporting.withBatch q)) [.commit] w₁)
    (hrow : row.status = .running) (htarget : row.targetWeekStart = q.weekStart)
    (hstart : row.startedAt ≤ q.now) {staged : PublicationOutcome}
    (htotal : staged.inserted + staged.updated + staged.unchanged = q.aggregates.length)
    (hpos : 0 ≤ staged.inserted ∧ 0 ≤ staged.updated ∧ 0 ≤ staged.unchanged) :
    Post (publishStaged f q lease staged) (fun _ w' => EndsWell f q w w' ↔ Recordable f q w) w₁ := by
  unfold publishStaged
  rw [publicationOf_eq_pointerOf htotal]
  have hc' : (w.reporting.withBatch q).control q.weekStart = some c := hc
  have hmetadata : Storable 128 "publication_metadata_failed" := by decide
  have hpublish : Storable 128 "publish" := by decide
  cases hfailure : recordFailure f (pointerOf q) with
  | some e =>
    refine post_attempt_seq (P := fun r w' => (∃ x, r = .error x ∧ x.text = e.text ∧ x.ordinary = true) ∧
      At w.begin q row row (some (w.reporting.withBatch q)) [.commit] w') ?_ ?_
    · refine post_seq (record_fails hf h hweek htarget hc' hfailure) (fun _ _ hr => ?_) fun x w₂ hr => ?_
      · obtain ⟨⟨x, hx, -⟩, -⟩ := hr
        cases hx
      · obtain ⟨⟨x', hx, htext⟩, h₂⟩ := hr
        cases hx
        exact ⟨⟨x, rfl, htext⟩, h₂⟩
    · rintro r w₂ ⟨⟨x, rfl, htext, hordinary⟩, h₂⟩
      dsimp only
      rw [if_pos hordinary, htext]
      exact failure_iff hf h₂ hrow hstart hpublish hmetadata (recordable_iff_record hst hfailure).symm
  | none =>
    cases hcheck : (pointerOf q).check with
    | error x =>
      refine post_attempt_seq
        (P := Fails (.runStore x) (At w.begin q row row (some (w.reporting.withBatch q)) [.commit]))
        (post_stop (record_refuses h hweek htarget hc' hfailure hcheck) fun w₂ h₂ => ⟨rfl, h₂⟩) ?_
      rintro r w₂ ⟨rfl, h₂⟩
      dsimp only
      rw [if_pos (show (Exc.runStore x).ordinary = true from rfl)]
      have hrec : Recordable f q w := recordable_of_not_protected hst hfailure fun hp => by
        cases hp.2.2.1.symm.trans hcheck
      exact failure_iff hf h₂ hrow hstart hpublish hmetadata (iff_of_true (check_error hcheck).2 hrec)
    | ok u =>
      have hrecorded := record_gives h hweek htarget hc' hfailure hcheck
      have hc'' : (Function.update (w.reporting.withBatch q).control q.weekStart
          (some (c.record q.runId (pointerOf q)))) q.weekStart = some (c.record q.runId (pointerOf q)) :=
        Function.update_self ..
      cases hrelease : f.raises .release with
      | some e =>
        obtain ⟨x, hx, -, htext⟩ := leaseError_database (hf.database _ _ hrelease)
        refine post_attempt_seq (P := fun r w' => r = .error (leaseError e) ∧
          ∃ view, At w.begin q row row view [.commit] w')
          (post_next hrecorded fun w₂ h₂ => post_mono (fun _ _ hr => ⟨hr.1, _, hr.2⟩)
            (release_fails h₂ (by decide) hweek htoken hrelease)) ?_
        rintro r w₂ ⟨rfl, view, h₂⟩
        rw [hx]
        dsimp only
        rw [if_pos (show (Exc.concurrency x).ordinary = true from rfl)]
        have hrec : Recordable f q w := recordable_of_not_protected hst hfailure fun hp => by
          cases hp.2.2.2.symm.trans hrelease
        exact failure_iff hf h₂ hrow hstart hpublish hmetadata (iff_of_true htext.2 hrec)
      | none =>
        obtain ⟨howned, hfenced⟩ := verifies_parts hv
        refine post_attempt_seq (P := fun r w' => (∃ d, r = .ok d ∧ d.status = .released) ∧
          ∃ v', At w.begin q row row (some v') [.commit] w')
          (post_next hrecorded fun w₂ h₂ => post_mono (fun _ _ hr => ⟨hr.1, hr.2.imp fun _ h => h.1⟩)
            (release_gives h₂ (by decide) hweek htoken hrelease hc'' howned hfenced)) ?_
        rintro r w₂ ⟨⟨d, rfl, hd⟩, v', h₂⟩
        dsimp only
        rw [if_neg (not_not.2 hd)]
        have hp : Protected f q w := ⟨hst, hfailure, hcheck, hrelease⟩
        exact post_mono (fun _ _ hiff => hiff.trans (recordable_iff_commit hp).symm)
          (released_iff hf h₂ hrow (success_wellformed hrow hstart htotal hpos (length_of_check hcheck)))

/-- What staging does when the batch is valid. -/
theorem stage_eq (hvalid : validateWeeklyPublicationBatch q.weekStart q.aggregates (.aware q.now) = []) :
    stageWeeklyUpsert f q.weekStart q.aggregates q.now = (do
      match ← transactionIssue with
      | some issue => return { status := statusForIssues [issue], errors := [issue] }
      | none =>
        let reconciliation ← reconcileDisappearedKeys f q.weekStart q.aggregates
        if reconciliation.readCompleted then stageReconciled f q.aggregates [] reconciliation
        else if reconciliation.errors.any fun i => i.code ∈ databaseFailureCodes then
          let rollbackObserved ← rollbackQuietly f
          let _ ← closeFailedTransaction (reconciliation.errors.any fun i => i.code =
              "connection_error") rollbackObserved
          return { status := statusForIssues reconciliation.errors, errors := reconciliation.errors, rollbackObserved }
        else return { status := statusForIssues reconciliation.errors, errors := reconciliation.errors }) := by
  unfold stageWeeklyUpsert
  rw [hvalid]
  rfl

/-- A batch that is staged, or why not. -/
inductive StageEnd (f : Faults) (q : Request) (w : World) (row : RunRecord)
    (staged : PublicationOutcome) (w₁ : World) :
    Prop
  | stopped (issue : PublicationIssue) (view : Option Reporting) : staged.status ≠ .staged →
    staged.errors = [issue] → Storable 128 issue.code → (staged.rollbackObserved = true → view = none) →
    At w.begin q row row view [.commit] w₁ → (Storable 500 issue.message ↔ Recordable f q w) →
    StageEnd f q w row staged w₁
  | staged : staged.status = .staged → Staged f q w →
      staged.inserted + staged.updated + staged.unchanged = q.aggregates.length →
      (0 ≤ staged.inserted ∧ 0 ≤ staged.updated ∧ 0 ≤ staged.unchanged) →
      At w.begin q row row (some (w.reporting.withBatch q)) [.commit] w₁ → StageEnd f q w row staged w₁

/-- The UPSERT, once the published keys are found in the batch. -/
theorem stage_reconciled (hf : Healthy f) (hr : Reconciled f q w)
    (h : At w.begin q row row (some w.reporting) [.commit] w₁) :
    Post (stageReconciled f q.aggregates [] (reconcileRows q.weekStart q.aggregates
        (w.reporting.rowsOf q.weekStart))) (fun r w' => ∃ staged, r = .ok staged ∧
      StageEnd f q w row staged w') w₁ := by
  have hcompleted := hr.2.2.2.1
  have hnone := hr.2.2.2.2
  have hpublished : (reconcileRows q.weekStart q.aggregates (w.reporting.rowsOf q.weekStart)).published =
      w.reporting.rowsOf q.weekStart := by
    unfold reconcileRows at hcompleted ⊢
    dsimp only at hcompleted ⊢
    split
    · rfl
    case isFalse hdup => simp [hdup] at hcompleted
  unfold stageReconciled
  rw [hnone, if_pos rfl, hpublished]
  rw [if_neg (by simp)]
  cases hupsert : f.raises .upsert with
  | some e =>
    have hd := hf.database _ _ hupsert
    refine post_attempt_seq (P := Fails (.raised e) (At w.begin q row row (some w.reporting) [.commit]))
      (post_stop (P := At w.begin q row row (some w.reporting) [.commit])
        (post_fails hupsert ⟨rfl, h.note (by decide) true⟩) fun w₂ h₂ => ⟨rfl, h₂⟩) ?_
    rintro r w₂ ⟨rfl, h₂⟩
    refine post_mono ?_ (upsertFailed_gives hf h₂ (Or.inl hd))
    rintro r w₃ ⟨status, hstatus, rfl, h₃⟩
    refine ⟨_, rfl, .stopped (databaseIssue e "upsert") none ?_ ?_ (databaseIssue_code e _)
      (fun _ => rfl) h₃ ?_⟩
    · rcases hstatus with rfl | rfl <;> exact fun h => (nomatch h)
    · simp [hd]
    · exact (recordable_iff_upsert hr hupsert).symm
  | none =>
    refine post_attempt_seq (upsert_gives h hupsert) ?_
    rintro r w₂ ⟨rfl, h₂⟩
    cases hcounts : countsFromSnapshot (sortedAggregates q.aggregates) (w.reporting.rowsOf q.weekStart)
      (upsertAll w.reporting.kpis (sortedAggregates q.aggregates)).2 with
    | error text =>
      have hnot : ¬Staged f q w := by
        rintro ⟨-, -, counts, hok⟩
        cases hcounts.symm.trans hok
      have htext : Storable 500 text := by
        have hall : ∀ t ∈ ["RETURNING contained a duplicate logical key",
            "RETURNING keys do not match the locked snapshot classification"],
              Storable 500 t := by decide +kernel
        unfold countsFromSnapshot at hcounts
        dsimp only at hcounts
        split at hcounts
        · cases hcounts
          exact hall _ (by decide)
        · split at hcounts
          · cases hcounts
            exact hall _ (by decide)
          · cases hcounts
      refine post_mono ?_ (upsertFailed_gives (e := { cls := .valueError, text := text }) hf h₂
        (Or.inr rfl))
      rintro r w₃ ⟨status, hstatus, rfl, h₃⟩
      refine ⟨_, rfl, .stopped { code := "upsert_result_unreadable", message := text } none ?_ rfl
        ?_ (fun _ => rfl) h₃ ?_⟩
      · rcases hstatus with rfl | rfl <;> exact fun h => (nomatch h)
      · show Storable 128 "upsert_result_unreadable"
        decide
      · exact iff_of_true htext (recordable_of_not_staged hr hupsert hnot)
    | ok counts =>
      obtain ⟨inserted, updated, unchanged⟩ := counts
      obtain ⟨htotal, hpos⟩ := countsFromSnapshot_total hcounts
      rw [sortedAggregates, (perm_sortedBy _ _).length_eq] at htotal
      exact ⟨_, rfl, .staged rfl ⟨hr, hupsert, _, hcounts⟩ htotal hpos h₂⟩

/-- How staging ends. -/
theorem stage_ends (hf : Healthy f) (hadmitted : Admitted f q w)
    (h : At w.begin q row row (some w.reporting) [.commit] w₁) :
    Post (stageWeeklyUpsert f q.weekStart q.aggregates q.now)
      (fun r w' => ∃ staged, r = .ok staged ∧ StageEnd f q w row staged w') w₁ := by
  have hvalid := validate_of_no_issues hadmitted.1
  have hweek := (validBatch_of_no_issues hvalid).monday
  rw [stage_eq hvalid]
  refine post_next (transactionIssue_gives h) ?_
  rintro w₂ rfl
  show Post _ _ w₂
  cases hu : w.unusable with
  | true =>
    have hnot : ¬Reconciled f q w := fun hr => by cases hr.2.1.symm.trans hu
    have hub : w.begin.unusable = true := hu
    simp only [hub, if_true]
    refine ⟨_, rfl, .stopped _ (some w.reporting) ?_ rfl ?_ (fun ho => by cases ho) h ?_⟩
    · dsimp only
      exact statusForIssues_ne_staged _
    · show Storable 128 "transaction_aborted"
      decide
    · exact iff_of_true (show Storable 500 _ by decide +kernel)
          (recordable_of_not_reconciled (Or.inl hu) hnot)
  | false =>
    have hub : w.begin.unusable = false := hu
    simp only [hub, Bool.false_eq_true, if_false]
    cases hreconcile : f.raises .reconcile with
    | some e =>
      refine post_next (reconcile_fails h hub hweek hreconcile (hf.database _ _ hreconcile)) fun w₃ h₃ => ?_
      have hcode : (databaseIssue e "reconcile").code ∈ databaseFailureCodes := by
        show (if _ then _ else if _ then _ else if _ then _ else if _ then _ else _) ∈ _
        split
        · decide
        · split
          · decide
          · split
            · decide
            · split <;> decide
      rw [if_neg (by simp)]
      simp only [List.any_cons, List.any_nil, Bool.or_false, hcode, decide_true, if_true]
      refine post_next (rollbackQuietly_gives hf h₃) fun w₄ h₄ => ?_
      have hclose : Post (closeFailedTransaction
          (decide ((databaseIssue e "reconcile").code = "connection_error")) true)
          (fun r w' => (∃ s, r = .ok s) ∧ At w.begin q row row none [.commit] w') w₄ := by
        unfold closeFailedTransaction
        split
        · exact ⟨⟨_, rfl⟩, h₄.reporting, h₄.attempts, h₄.business, fun hv => absurd rfl hv, h₄.past,
            h₄.trace, h₄.run, h₄.seen⟩
        · exact ⟨⟨_, rfl⟩, h₄⟩
      refine post_seq hclose (fun _ w₅ hr => ?_) fun _ _ hr => by
        obtain ⟨⟨s, hs⟩, -⟩ := hr
        cases hs
      refine ⟨_, rfl, .stopped (databaseIssue e "reconcile") none ?_ rfl (databaseIssue_code e _)
        (fun _ => rfl) hr.2 ?_⟩
      · exact statusForIssues_ne_staged _
      · exact (recordable_iff_reconcile hadmitted hu hreconcile).symm
    | none =>
      refine post_next (reconcile_gives h hub hweek hreconcile) fun w₃ h₃ => ?_
      by_cases hcompleted : (reconcileRows q.weekStart q.aggregates
        (w.reporting.rowsOf q.weekStart)).readCompleted = true
      · rw [if_pos hcompleted]
        by_cases hnone : (reconcileRows q.weekStart q.aggregates
          (w.reporting.rowsOf q.weekStart)).disappearedKeys = []
        · exact stage_reconciled hf ⟨hadmitted, hu, hreconcile, hcompleted, hnone⟩ h₃
        · have hnot : ¬Reconciled f q w := fun hr => hnone hr.2.2.2.2
          unfold stageReconciled
          rw [if_neg hnone, if_pos (by simp)]
          refine ⟨_, rfl, .stopped disappearedIssue (some w.reporting) (by decide) rfl (by decide)
            (fun ho => by cases ho) h₃ ?_⟩
          exact iff_of_true (by decide +kernel) (recordable_of_not_reconciled (Or.inr hreconcile) hnot)
      · have hnot : ¬Reconciled f q w := fun hr => hcompleted hr.2.2.2.1
        have herrors : (reconcileRows q.weekStart q.aggregates (w.reporting.rowsOf q.weekStart)).errors =
            [{ code := "published_key_duplicate"
               message := "Destination returned a duplicate logical key for the week" }] := by
          unfold reconcileRows at hcompleted ⊢
          dsimp only at hcompleted ⊢
          split
          case isTrue hdup => simp [hdup] at hcompleted
          · rfl
        rw [if_neg hcompleted, herrors]
        rw [if_neg (by decide)]
        refine ⟨_, rfl, .stopped _ (some w.reporting) ?_ rfl ?_ (fun ho => by cases ho) h₃ ?_⟩
        · dsimp only
          exact statusForIssues_ne_staged _
        · show Storable 128 "published_key_duplicate"
          decide
        · exact iff_of_true (show Storable 500 _ by decide +kernel)
            (recordable_of_not_reconciled (Or.inr hreconcile) hnot)

theorem durableClaim_token (h : durableClaim q = some lease) : 0 ≤ lease.fencingToken := by
  unfold durableClaim at h
  have hclaim := (Option.filter_eq_some_iff.1 h).2
  simp only [Bool.and_eq_true, decide_eq_true_eq] at hclaim
  exact hclaim.2

/-- From the mark that the run is running on. -/
theorem verified_iff (hf : Healthy f) (hadmitted : Admitted f q w) (hlease : durableClaim q = some lease)
    (h : At w.begin q row row (some w.reporting) [.commit] w₁) (ho : w₁.operational.isSome = true)
    (hrow : row.status = .pending) (htarget : row.targetWeekStart = q.weekStart)
    (hstart : row.startedAt ≤ q.now) :
    Post (publishVerified f q lease) (fun _ w' => EndsWell f q w w' ↔ Recordable f q w) w₁ := by
  have hweek := (validBatch_of_no_issues (validate_of_no_issues hadmitted.1)).monday
  obtain ⟨-, -, lease', c, hlease', hc, hv⟩ := id hadmitted
  have hsame := hlease.symm.trans hlease'
  cases hsame
  have hmark := markRunning_gives hf h ho hrow
  refine post_next (post_tryCatch hmark (fun _ _ hr => hr) fun _ _ hr => by cases hr.1) ?_
  rintro w₂ ⟨row', ⟨hrunning, hstarted, htarget'⟩, h₂⟩
  refine post_seq (stage_ends hf hadmitted h₂) ?_ fun _ _ ⟨_, hr, _⟩ => by cases hr
  rintro staged w₃ ⟨staged', hr, hend⟩
  cases hr
  have hstart' : row'.startedAt ≤ q.now := hstarted ▸ hstart
  cases hend with
  | stopped issue view hne herrors hcode hb h₃ hX =>
    rw [if_pos hne]
    exact abort_iff hf h₃ hrunning hstart' herrors hcode hb hX
  | staged hstatus hst htotal hpos h₃ =>
    rw [if_neg (not_not.2 hstatus)]
    exact staged_iff hf hst hweek (durableClaim_token hlease) hc hv h₃ hrunning (htarget'.trans htarget)
      hstart' htotal hpos

theorem leaseRejectionStatus_mem (d : LeaseDecision) :
    leaseRejectionStatus d ∈ [RunStatus.skippedInProgress, .superseded, .blockedQuality] := by
  unfold leaseRejectionStatus
  split <;> decide

/-- A lease that could not be verified. -/
theorem verifyFailure_iff (hf : Healthy f) (h : At w.begin q row row view [.commit] w₁)
    (hrow : row.status = .pending)
    (hstart : row.startedAt ≤ q.now) {e : CodedError} (hcode : Storable 128 e.code)
    (hmessage : Storable 500 e.message)
    {res : CoordinatorResult} (hX : X) :
    Post (do
      releaseBusinessLock f
      finishRun f q (verifyFailure e)
      return res) (fun _ w' => EndsWell f q w w' ↔ X) w₁ := by
  refine post_next (releaseBusinessLock_gives hf h) fun w₂ h₂ =>
    finish_iff hf h₂ (by decide) (by decide) (Or.inl rfl) ?_
      (iff_of_true (fun v hv => by cases hv; exact hmessage) hX)
  have hstage : Storable 128 "lease" := by decide
  exact
    { expected := hrow, terminal := rfl, start := hstart, stage := hstage, reason := fun _ hv => (nomatch hv)
      step := by simp [verifyFailure, RunStatus.next], failed := fun _ => ⟨e.code, rfl, hcode⟩
      others := fun h => absurd rfl h, blocked := fun h => (nomatch h)
      counts := ⟨rfl, rfl, rfl, rfl, rfl⟩ }

/-- From the verification of the lease on. -/
theorem claimed_iff (hf : Healthy f) (hissues : preWriteIssues q = [])
    (hlease : durableClaim q = some lease) (h : At w.begin q row row (some w.reporting) [.commit] w₁)
    (ho : w₁.operational.isSome = true) (hrow : row.status = .pending)
    (htarget : row.targetWeekStart = q.weekStart) (hstart : row.startedAt ≤ q.now) :
    Post (publishClaimed f q lease) (fun _ w' => EndsWell f q w w' ↔ Recordable f q w) w₁ := by
  have hweek := (validBatch_of_no_issues (validate_of_no_issues hissues)).monday
  have htoken := durableClaim_token hlease
  unfold publishClaimed
  cases hverify : f.raises .verify with
  | some e =>
    obtain ⟨x, hx, hcode, hmessage⟩ := leaseError_database (hf.database _ _ hverify)
    refine post_attempt_seq (verify_fails h (by decide) hweek htoken hverify) ?_
    rintro r w₂ ⟨rfl, h₂⟩
    rw [hx]
    exact verifyFailure_iff hf h₂ hrow hstart hcode hmessage.1
      (recordable_of_not_admitted fun ha => by cases ha.2.1.symm.trans hverify)
  | none =>
    refine post_attempt_seq (verify_gives h (by decide) hweek htoken hverify) ?_
    rintro r w₂ ⟨rfl, h₂, ho₂⟩
    dsimp only
    cases hverified : (verification f q.weekStart q.runId lease.fencingToken w.reporting).leaseVerified with
    | true =>
      obtain ⟨c, hc, hv⟩ := verification_leaseVerified.1 hverified
      exact verified_iff hf ⟨hissues, hverify, lease, c, hlease, hc, hv⟩ hlease h₂ (ho₂ ▸ ho) hrow
        htarget hstart
    | false =>
      have hnot : ¬Admitted f q w := by
        rintro ⟨-, -, lease', c, hlease', hc, hv⟩
        cases hlease.symm.trans hlease'
        cases hverified.symm.trans (verification_leaseVerified.2 ⟨c, hc, hv⟩)
      rw [if_pos (show (!false) = true from rfl)]
      refine post_next (releaseBusinessLock_gives hf h₂) fun w₃ h₃ => ?_
      exact unstarted_endsWell hf h₃ (by decide) (by decide) (Or.inl rfl) hrow hstart
        (leaseRejectionStatus_mem _) (by decide) (by decide +kernel) (recordable_of_not_admitted hnot)

/-- The run is the one that the coordinator asks for. -/
theorem identifiedRun_gives (hf : Healthy f) (hrow : w.runs q.runId = some row)
    (hpending : row.status = .pending)
    (htarget : row.targetWeekStart = q.weekStart) :
    Post (identifiedRun f q) (Gives row fun w' =>
      At w.begin q row row (some w.reporting) businessSites w' ∧ w'.operational.isSome = true) w.begin := by
  have h : At w.begin q row row (some w.reporting) businessSites w.begin :=
    ⟨rfl, rfl, rfl, fun _ => rfl, fun _ hs => hs, fun _ hs => (nomatch hs), hrow, fun v hv =>
        by cases hv; exact hrow⟩
  refine post_next (a := some row) (P := fun w' => At w.begin q row row (some w.reporting) businessSites
    w' ∧ w'.operational.isSome = true) ?_ fun w₂ h₂ => ?_
  · refine post_tryCatch (P := Gives (some row) fun w' => At w.begin q row row (some w.reporting)
        businessSites w' ∧
      w'.operational.isSome = true) ?_ (fun _ _ hr => hr) fun _ _ hr => by cases hr.1
    refine post_next (operationalView_gives (v := w.runs) rfl) fun w₂ hw => ?_
    subst hw
    refine post_works (hf.sites .identify (by decide))
      (post_next (operationalView_gives (v := w.runs) rfl) fun w₃ hw => ?_)
    subst hw
    exact ⟨congrArg Except.ok hrow, h.note (by decide) false, rfl⟩
  · dsimp only
    rw [if_neg (not_not.2 htarget), if_neg (not_not.2 hpending)]
    exact ⟨rfl, h₂⟩

end Ends

/-- For every pending run and every failure of the business connection: the call ends well if and
only if what it reaches can be recorded. -/
theorem failed_runs_terminal (hf : Healthy f) (hrow : w.runs q.runId = some row)
    (hpending : row.status = .pending)
    (htarget : row.targetWeekStart = q.weekStart) (hstart : row.startedAt ≤ q.now) :
    EndsWell f q w (publishWeeklyBusinessReport f q w.begin).2 ↔ Recordable f q w := by
  show Post (publishWeeklyBusinessReport f q) (fun _ w' => EndsWell f q w w' ↔ Recordable f q w) w.begin
  refine post_next (a := ()) (P := fun w' => w' = w.begin) ⟨rfl, rfl⟩ fun w₁ hw => ?_
  subst hw
  refine post_next (identifiedRun_gives hf hrow hpending htarget) fun w₂ ⟨h₂, ho₂⟩ => ?_
  cases hissues : preWriteIssues q with
  | cons first rest =>
    have hmem : first ∈ preWriteIssues q := hissues ▸ List.mem_cons_self
    have hfirst : Storable 500 first := (issueCodes_storable _ (preWriteIssues_code hmem)).mono (by omega)
    refine unstarted_endsWell hf h₂ (List.Subset.refl _) (by decide) (Or.inr rfl) hpending hstart
      (by decide) (by decide) hfirst (recordable_of_not_admitted fun ha => ?_)
    cases hissues.symm.trans ha.1
  | nil =>
    cases hclaim : durableClaim q with
    | none =>
      refine unstarted_endsWell hf h₂ (List.Subset.refl _) (by decide) (Or.inr rfl) hpending hstart
        (by decide) (by decide) (by decide +kernel) (recordable_of_not_admitted fun ha => ?_)
      obtain ⟨-, -, lease, c, hlease, -⟩ := ha
      cases hclaim.symm.trans hlease
    | some lease => exact claimed_iff hf hissues hclaim (h₂.weaken (by decide)) ho₂ hpending htarget hstart

/-- The UPSERT fails with a text. -/
def upsertFault (text : String) : Faults where
  raises site := if site = .upsert then some { cls := .operational, text } else none
  clock := 50

theorem upsertFault_healthy (text : String) : Healthy (upsertFault text) where
  sites site hsite := if_neg (by rintro rfl; exact absurd hsite (by decide))
  database site e he := by
    have h : (if site = .upsert then some { cls := .operational, text } else none) = some e := he
    split at h
    · cases h
      rfl
    · cases h
  definite e he := by cases he

theorem failed_runs_terminal_upsert : EndsWell (upsertFault "disk full") exampleRequest exampleStore.world
    (publishWeeklyBusinessReport (upsertFault "disk full") exampleRequest exampleStore.world.begin).2 :=
  (failed_runs_terminal (upsertFault_healthy _) (show _ = some exampleRun from rfl) rfl rfl (by decide)).2
    { reconcile := fun _ _ e he => by cases he
      upsert := fun _ e he => by
        cases he
        show Storable 500 "upsert: disk full"
        decide +kernel
      record := fun hs => by cases hs.2.1
      commit := fun hp => by cases hp.1.2.1
      records := fun hp => by cases hp.1.2.1 }

theorem not_endsWell_of_running {w' : World} (hcommit : f.raises .commit = none)
    (hrunning : (w'.runs q.runId).map (·.status) = some .running) : ¬EndsWell f q w w' := by
  rintro (⟨e, he, -⟩ | hend)
  · cases he.symm.trans hcommit
  · obtain ⟨row, hrow, hterminal⟩ := hend.run
    rw [hrow, Option.map_some, Option.some_inj] at hrunning
    rw [hrunning] at hterminal
    cases hterminal

/-- An UPSERT whose text names a credential: the record of the failure is refused and the run stays
running. -/
theorem secret_text_leaves_running : ∃ f, Healthy f ∧ exampleStore.world.runs exampleRequest.runId =
    some exampleRun ∧
    exampleRun.status = .pending ∧ exampleRun.targetWeekStart = exampleRequest.weekStart ∧
    exampleRun.startedAt ≤ exampleRequest.now ∧ ¬EndsWell f exampleRequest exampleStore.world
      (publishWeeklyBusinessReport f exampleRequest exampleStore.world.begin).2 :=
  ⟨upsertFault "could not connect to postgres://primary", upsertFault_healthy _, rfl, rfl, rfl, by decide,
    not_endsWell_of_running rfl (by decide +kernel)⟩

end TrackFlow.Pipelines
