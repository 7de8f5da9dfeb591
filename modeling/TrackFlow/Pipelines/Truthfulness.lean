import TrackFlow.Pipelines.Coordinator
import TrackFlow.Pipelines.Reconciliation

/-!
# What the coordinator says is true

`Idle` is what every call keeps as long as it does not COMMIT the business transaction: nothing of
it is committed and no run becomes a success. `Underway` adds that nothing has raised and what the
business transaction sees. Each step of the protected sequence leads from `Underway` to `Underway`
when it succeeds and to `Idle` however it ends; the handlers keep `Idle`.

- `publish_outcome`: either no COMMIT was attempted, or one was, after a protected sequence in which
  nothing raised, for exactly the rows of the publication (`Publishes`);
- `coordinator_truthful`: the result and the status of the run claim a publication only if it is
  committed whole.
-/

namespace TrackFlow.Pipelines

open TrackFlow.Python TrackFlow.Python.Raising

variable {α : Type} {f : Faults} {q : Request} {w₀ w : World} {Q : Except Exc α → World → Prop}

/-! ## Statements -/

theorem post_statement {wrap : Failure → Exc} {site : Site} {effect : Call α}
    (herr : ∀ e, f.raises site = some e → Q (.error (wrap e)) (w.note site true))
    (hok : f.raises site = none → Post effect Q (w.note site false)) :
    Post (statement f wrap site effect) Q w := by
  unfold Post statement
  cases h : f.raises site with
  | some e => exact herr e h
  | none => exact hok h

theorem post_commitAt {site : Site} {close : World → Bool → World} {Q : Except Exc Unit → World → Prop}
    (herr : ∀ e, f.raises site = some e →
      Q (.error (.raised e)) ((close w (f.takesEffect site)).note site true))
    (hok : f.raises site = none → Q (.ok ()) ((close w true).note site false)) :
    Post (commitAt f site close) Q w := by
  unfold Post commitAt
  cases h : f.raises site with
  | some e => exact herr e h
  | none => exact hok h

theorem post_operationalView {Q : Except Exc Runs → World → Prop}
    (hok : ∀ view, w.operational = some view → Q (.ok view) w)
    (herr : w.operational = none → ∀ e, Q (.error e) w) : Post operationalView Q w := by
  unfold Post operationalView
  cases h : w.operational with
  | some view => exact hok view h
  | none => exact herr h _

theorem post_businessView {view : Reporting} {Q : Except Exc Reporting → World → Prop}
    (hview : w.business = some view) (hok : Q (.ok view) w) : Post businessView Q w := by
  unfold Post businessView
  rw [hview]
  exact hok

theorem post_checked {wrap : CodedError → Exc} {x : Except CodedError α}
    (hok : ∀ a, x = .ok a → Q (.ok a) w)
    (herr : ∀ e, x = .error e → Q (.error (wrap e)) w) : Post (checked wrap x) Q w := by
  cases x with
  | ok a => exact hok a rfl
  | error e => exact herr e rfl

/-! ## What is kept without a COMMIT -/

/-- How the run history may change: a run that is not pending stays so, and without `certified` none
becomes a success. -/
structure Grows (certified : Prop) (old new : Runs) : Prop where
  settled : ∀ run row, old run = some row → row.status ≠ .pending → ∃ row', new run = some row' ∧
    row'.status ≠ .pending
  success : ∀ run row, new run = some row → row.status.success = true →
    certified ∨ ∃ row', old run = some row' ∧ row'.status.success = true

theorem Grows.refl (certified : Prop) (old : Runs) : Grows certified old old where
  settled _ row h hs := ⟨row, h, hs⟩
  success _ row h hs := Or.inr ⟨row, h, hs⟩

/-- A row is replaced by one that is not pending, and that is a success only with `certified`. -/
theorem Grows.update {certified : Prop} {old new : Runs} (h : Grows certified old new) {run : Uuid}
    {row : RunRecord} (hs : row.status ≠ .pending) (hc : row.status.success = true → certified) :
    Grows certified old (Function.update new run (some row)) := by
  refine ⟨fun r old' ho hold => ?_, fun r row' hr hsuccess => ?_⟩
  · by_cases hrun : r = run
    · subst hrun
      exact ⟨row, Function.update_self .., hs⟩
    · rw [Function.update_of_ne hrun]
      exact h.settled r old' ho hold
  · by_cases hrun : r = run
    · subst hrun
      rw [Function.update_self, Option.some_inj] at hr
      subst hr
      exact Or.inl (hc hsuccess)
    · rw [Function.update_of_ne hrun] at hr
      exact h.success r row' hr hsuccess

/-- The run histories that somebody can see: the committed one and that of the operational transaction. -/
def World.views (w : World) : List Runs := w.runs :: w.operational.toList

section Viewed

variable {P : Runs → Prop} {reporting : Reporting} {attempts : List Attempt}

/-- The committed rows of the business and the COMMITs are `reporting` and `attempts`, and every run
history that somebody can see satisfies `P`. -/
structure Viewed (P : Runs → Prop) (reporting : Reporting) (attempts : List Attempt) (w : World) :
    Prop where
  reporting : w.reporting = reporting
  attempts : w.attempts = attempts
  each : ∀ view ∈ w.views, P view

/-- `Viewed` does not look at the rest of the world. -/
theorem Viewed.same {w' : World} (h : Viewed P reporting attempts w) (hr : w'.reporting = w.reporting)
    (ha : w'.attempts = w.attempts) (hv : ∀ view ∈ w'.views, view ∈ w.views) :
    Viewed P reporting attempts w' :=
  ⟨hr.trans h.reporting, ha.trans h.attempts, fun view hview => h.each view (hv view hview)⟩

theorem Viewed.note (h : Viewed P reporting attempts w) (site : Site) (raised : Bool) :
    Viewed P reporting attempts (w.note site raised) := h.same rfl rfl fun _ hv => hv

theorem Viewed.setOperational {view : Runs} (h : Viewed P reporting attempts w) (hv : P view) :
    Viewed P reporting attempts { w with operational := some view } := by
  refine ⟨h.reporting, h.attempts, fun v hmem => ?_⟩
  simp only [World.views, Option.toList_some, List.mem_cons, List.not_mem_nil, or_false] at hmem
  rcases hmem with rfl | rfl
  · exact h.each _ (List.mem_cons_self ..)
  · exact hv

theorem Viewed.endOperational (h : Viewed P reporting attempts w) (effect : Bool) :
    Viewed P reporting attempts (w.endOperational effect) := by
  refine h.same rfl rfl fun view hview => ?_
  simp only [World.views, World.endOperational, Option.toList_none, List.mem_cons, List.not_mem_nil,
    or_false] at hview
  subst hview
  cases effect with
  | false => exact List.mem_cons_self ..
  | true =>
    cases ho : w.operational with
    | none => simp [World.views]
    | some view => simp [World.views, ho]

/-- The programs that keep `Viewed P`, whatever the committed rows are. -/
def Maintains (P : Runs → Prop) (m : Call α) : Prop :=
  ∀ reporting attempts, Preserves (Viewed P reporting attempts) m

theorem Maintains.bind {β : Type} {m : Call α} {k : α → Call β} (hm : Maintains P m)
    (hk : ∀ a, Maintains P (k a)) :
    Maintains P (m >>= k) := fun reporting attempts => (hm reporting attempts).bind fun a =>
      hk a reporting attempts

theorem maintains_pure (a : α) : Maintains P (pure a : Call α) := fun _ _ => .pure a

theorem maintains_raise (e : Exc) : Maintains P (raise e : Call α) := fun _ _ => .raise e

theorem Maintains.tryCatch {m : Call α} {k : Exc → Call α} (hm : Maintains P m)
    (hk : ∀ e, Maintains P (k e)) :
    Maintains P (tryCatch m k) := fun reporting attempts =>
  (hm reporting attempts).tryCatch fun e => hk e reporting attempts

theorem maintains_checked (wrap : CodedError → Exc) (x : Except CodedError α) :
    Maintains P (checked wrap x) :=
  fun _ _ => .ofExcept _

theorem maintains_statement {wrap : Failure → Exc} {site : Site} {effect : Call α}
    (h : Maintains P effect) :
    Maintains P (statement f wrap site effect) := fun reporting attempts _ hw =>
  post_statement (fun _ _ => hw.note site true) fun _ => h reporting attempts _ (hw.note site false)

theorem maintains_operationalView : Maintains P operationalView := fun _ _ _ hw =>
  post_operationalView (fun _ _ => hw) fun _ _ => hw

theorem maintains_businessView : Maintains P businessView := by
  intro reporting attempts w hw
  show Viewed P reporting attempts (businessView w).2
  unfold businessView
  cases w.business <;> exact hw

theorem maintains_selectRun (site : Site) (run : Uuid) : Maintains P (selectRun f site run) :=
  maintains_operationalView.bind fun _ =>
    maintains_statement (maintains_operationalView.bind fun view => maintains_pure (view run))

theorem maintains_requireRun (site : Site) (run : Uuid) : Maintains P (requireRun f site run) := by
  refine (maintains_selectRun site run).bind fun r => ?_
  cases r with
  | none => exact maintains_raise _
  | some row => exact maintains_pure row

/-- `P` survives a write of `row` over a row of `run` with the status `expected`. -/
def Replaces (P : Runs → Prop) (run : Uuid) (expected : RunStatus) (row : RunRecord) : Prop :=
  ∀ view current, P view → view run = some current → current.status = expected →
    P (Function.update view run (some row))

theorem maintains_replaceRun {run : Uuid} {expected : RunStatus} {row : RunRecord} {missing : CodedError}
    (hP : Replaces P run expected row) : Maintains P (replaceRun run expected row missing) := by
  intro reporting attempts w hw
  refine post_seq (P := fun r s => s = w ∧ ∀ view, r = .ok view → w.operational = some view)
    (post_operationalView (fun view hview => ⟨rfl, ?_⟩) fun _ e => ⟨rfl, fun _ h => by cases h⟩) ?_ ?_
  · rintro v h
    cases h
    exact hview
  · rintro view s ⟨rfl, hview⟩
    have hmem : P view := hw.each view (by simp [World.views, hview view rfl])
    cases hcurrent : view run with
    | none => exact post_raise hw
    | some current =>
      by_cases hstatus : current.status = expected
      · simp only [Option.any_some, hstatus, decide_true, if_true]
        exact post_modify (hw.setOperational (hP view current hmem hcurrent hstatus))
      · simp only [Option.any_some, hstatus, decide_false, Bool.false_eq_true, if_false]
        exact post_raise hw
  · rintro e s ⟨rfl, -⟩
    exact hw

theorem maintains_updateRun {select update : Site} {run : Uuid} {u : RunUpdate}
    (hP : u.status ∈ u.expectedStatus.next → ∀ row, row.status = u.status →
      Replaces P run u.expectedStatus row) :
    Maintains P (updateRun f select update run u) := by
  intro reporting attempts w hw
  refine post_seq ((maintains_requireRun select run) reporting attempts w hw) (fun current s hs =>
      ?_) fun _ _ hs => hs
  refine post_seq (P := fun r s' => s' = s ∧ ∀ row, r = .ok row → u.apply current = .ok row)
    (post_checked (fun row h => ⟨rfl, ?_⟩) fun e _ => ⟨rfl, fun _ h => by cases h⟩) ?_ ?_
  · rintro row' h'
    cases h'
    exact h
  · rintro row s' ⟨rfl, hrow⟩
    obtain ⟨-, hnext, hstatus⟩ := RunUpdate.apply_ok (hrow row rfl)
    exact maintains_statement (maintains_replaceRun (hP hnext row hstatus)) reporting attempts s' hs
  · rintro e s' ⟨rfl, -⟩
    exact hs

theorem maintains_commitOperational (site : Site) : Maintains P (commitOperational f site) := by
  refine Maintains.tryCatch (fun reporting attempts w hw => ?_) fun e => ?_
  · exact post_commitAt (fun _ _ => (hw.endOperational _).note site true) fun _ =>
      (hw.endOperational _).note site false
  · split
    · exact maintains_raise _
    · exact maintains_raise _

theorem maintains_beginOperationalTransaction (site : Site) :
    Maintains P (beginOperationalTransaction f site) := by
  intro reporting attempts w hw
  refine post_seq (P := fun r s => s = w ∧ ∀ v, r = .ok v → v = w)
    (post_get ⟨rfl, fun v h => by cases h; rfl⟩) ?_ ?_
  · rintro v s ⟨rfl, hv⟩
    split
    · refine maintains_statement ?_ reporting attempts s hw
      exact fun _ _ w' hw' => hw'.setOperational (hw'.each _ (List.mem_cons_self ..))
    · exact hw
  · rintro e s ⟨rfl, -⟩
    exact hw

theorem maintains_finishRun {a : Finish}
    (hP : a.status ∈ a.expectedStatus.next → ∀ row, row.status = a.status →
      Replaces P q.runId a.expectedStatus row) :
    Maintains P (finishRun f q a) :=
  (maintains_beginOperationalTransaction .finishBegin).bind fun _ =>
    (maintains_updateRun (u := a.update q.now) hP).bind fun _ => maintains_commitOperational .finishCommit

theorem commitObservation_ok {current row : RunRecord} {r : CommitResult} {stage code message : String}
    (h : commitObservation current r stage code message = .ok row) :
    row.status = .running ∧ row.commitResult = r := by
  by_cases hs : current.status = .running
  · simp only [commitObservation, hs, ne_eq, not_true_eq_false, if_false] at h
    obtain ⟨_, -, h⟩ := bind_ok h
    obtain ⟨_, -, h⟩ := bind_ok h
    obtain ⟨_, -, h⟩ := bind_ok h
    cases h
    exact ⟨rfl, rfl⟩
  · simp only [commitObservation, hs, ne_eq, not_false_eq_true, if_true] at h
    cases h

theorem maintains_recordCommitObservation {run : Uuid} (r : CommitResult) (stage code message : String)
    (hP : ∀ row, row.status = .running → Replaces P run .running row) :
    Maintains P (recordCommitObservation f run r stage code message) := by
  refine maintains_operationalView.bind fun _ => ?_
  have hrest : Maintains P (do
      let current ← requireRun f .observeSelect run
      let record ← checked Exc.runStore (commitObservation current r stage code message)
      statement f storeError .observeUpdate
        (replaceRun run .running record ⟨"status_conflict",
          "run status changed before the commit observation"⟩)) := by
    intro reporting attempts w hw
    refine post_seq ((maintains_requireRun _ run) reporting attempts w hw) (fun current s hs => ?_)
      fun _ _ hs => hs
    refine post_seq (P := fun x s' => s' = s ∧ ∀ row, x = .ok row → row.status = .running)
      (post_checked (fun row h => ⟨rfl, ?_⟩) fun e _ => ⟨rfl, fun _ h => by cases h⟩) ?_ ?_
    · rintro row' h'
      cases h'
      exact (commitObservation_ok h).1
    · rintro row s' ⟨rfl, hrow⟩
      exact maintains_statement (maintains_replaceRun (hP row (hrow row rfl))) reporting attempts s' hs
    · rintro e s' ⟨rfl, -⟩
      exact hs
  dsimp only
  split
  · exact (maintains_raise _).bind fun _ => hrest
  · exact hrest

theorem maintains_observeUncertain (r : CommitResult)
    (hP : ∀ row, row.status = .running → Replaces P q.runId .running row) :
    Maintains P (observeUncertain f q r) :=
  (maintains_beginOperationalTransaction .observeBegin).bind fun _ =>
    (maintains_recordCommitObservation r _ _ _ hP).bind fun _ => maintains_commitOperational .observeCommit

end Viewed

/-- The committed rows of the business and the COMMITs are `reporting` and `attempts`, and the run
history grew. -/
structure Idle (certified : Prop) (runs : Runs) (reporting : Reporting) (attempts : List Attempt)
    (w : World) : Prop where
  reporting : w.reporting = reporting
  attempts : w.attempts = attempts
  grows : ∀ view ∈ w.views, Grows certified runs view

section Kept

variable {certified : Prop} {runs : Runs} {reporting : Reporting} {attempts : List Attempt}

/-- `Idle` says of what can be seen that it grew. -/
theorem idle_iff :
    Idle certified runs reporting attempts w ↔ Viewed (Grows certified runs) reporting attempts w :=
  ⟨fun h => ⟨h.reporting, h.attempts, h.grows⟩, fun h => ⟨h.reporting, h.attempts, h.each⟩⟩

/-- `Idle` does not look at the rest of the world. -/
theorem Idle.same {w' : World} (h : Idle certified runs reporting attempts w)
    (hr : w'.reporting = w.reporting)
    (ha : w'.attempts = w.attempts) (hv : ∀ view ∈ w'.views, view ∈ w.views) :
    Idle certified runs reporting attempts w' := idle_iff.2 ((idle_iff.1 h).same hr ha hv)

theorem Idle.note (h : Idle certified runs reporting attempts w) (site : Site) (raised : Bool) :
    Idle certified runs reporting attempts (w.note site raised) := h.same rfl rfl fun _ hv => hv

theorem Idle.setOperational {view : Runs} (h : Idle certified runs reporting attempts w)
    (hv : Grows certified runs view) :
    Idle certified runs reporting attempts { w with operational := some view } :=
  idle_iff.2 ((idle_iff.1 h).setOperational hv)

theorem Idle.endOperational (h : Idle certified runs reporting attempts w) (effect : Bool) :
    Idle certified runs reporting attempts (w.endOperational effect) :=
  idle_iff.2 ((idle_iff.1 h).endOperational effect)

/-- The programs that keep `Idle`, whatever the committed rows are. -/
def Keeps (certified : Prop) (m : Call α) : Prop :=
  ∀ runs reporting attempts, Preserves (Idle certified runs reporting attempts) m

theorem Maintains.keeps {m : Call α} (h : ∀ runs, Maintains (Grows certified runs) m) : Keeps certified m :=
  fun runs reporting attempts w hw => idle_iff.2 (h runs reporting attempts w (idle_iff.1 hw))

theorem Keeps.bind {β : Type} {m : Call α} {k : α → Call β} (hm : Keeps certified m)
    (hk : ∀ a, Keeps certified (k a)) :
    Keeps certified (m >>= k) := fun runs reporting attempts =>
  (hm runs reporting attempts).bind fun a => hk a runs reporting attempts

theorem keeps_pure (a : α) : Keeps certified (pure a : Call α) := fun _ _ _ => .pure a

theorem keeps_raise (e : Exc) : Keeps certified (raise e : Call α) := fun _ _ _ => .raise e

theorem Keeps.tryCatch {m : Call α} {k : Exc → Call α} (hm : Keeps certified m)
    (hk : ∀ e, Keeps certified (k e)) :
    Keeps certified (tryCatch m k) := fun runs reporting attempts =>
  (hm runs reporting attempts).tryCatch fun e => hk e runs reporting attempts

theorem keeps_statement {wrap : Failure → Exc} {site : Site} {effect : Call α}
    (h : Keeps certified effect) :
    Keeps certified (statement f wrap site effect) := fun runs reporting attempts _ hw =>
  post_statement (fun _ _ => hw.note site true) fun _ => h runs reporting attempts _ (hw.note site false)

theorem keeps_markUnusable : Keeps certified markUnusable :=
  fun _ _ _ _ hw => hw.same rfl rfl fun _ hv => hv

theorem keeps_rollbackBusiness (site : Site) : Keeps certified (rollbackBusiness f site) :=
  keeps_statement fun _ _ _ _ hw => hw.same rfl rfl fun _ hv => hv

theorem keeps_releaseBusinessLock : Keeps certified (releaseBusinessLock f) := by
  refine (keeps_rollbackBusiness .rollback).tryCatch fun e => ?_
  split
  · exact keeps_markUnusable
  · exact keeps_raise e

theorem keeps_rollbackQuietly : Keeps certified (rollbackQuietly f) := by
  refine ((keeps_rollbackBusiness .stageRollback).bind fun _ => keeps_pure true).tryCatch fun e => ?_
  split
  · exact keeps_pure false
  · exact keeps_raise e

/-- A row may be replaced by one that is not pending, and that is a success only with `certified`. -/
theorem replaces_grows {run : Uuid} {expected : RunStatus} {row : RunRecord} (hs : row.status ≠ .pending)
    (hc : row.status.success = true → certified) : Replaces (Grows certified runs) run expected row :=
  fun _ _ hview _ _ => hview.update hs hc

/-- The end of a run keeps `Idle`, unless it is a success that is not certified. -/
theorem keeps_finishRun {a : Finish} (hc : a.status.success = true → certified) :
    Keeps certified (finishRun f q a) := by
  refine Maintains.keeps fun _ => maintains_finishRun fun hnext row hrow => ?_
  exact replaces_grows (by rw [hrow]; exact RunStatus.ne_pending_of_next hnext) (hrow ▸ hc)

theorem keeps_observeUncertain (r : CommitResult) : Keeps certified (observeUncertain f q r) := by
  refine Maintains.keeps fun _ => maintains_observeUncertain r fun row hrow => ?_
  exact replaces_grows (by rw [hrow]; decide) (by rw [hrow]; intro h; cases h)

end Kept

/-! ## The protected sequence -/

/-- No COMMIT of the business was attempted. -/
def Untried (w₀ w : World) : Prop := Idle False w₀.runs w₀.reporting [] w

/-- So far nothing raised, the run histories are `views`, and the business transaction sees `view`. -/
structure Underway (w₀ : World) (views : List Runs) (view : Reporting) (w : World) : Prop where
  untried : Untried w₀ w
  views : w.views = views
  business : w.business = some view
  clean : ∀ step ∈ w.trace, step.2 = false

/-- Without an exception `m` leads to `ok`, and however it ends there was no COMMIT. -/
def Leads (w₀ : World) (m : Call α) (w : World) (ok : α → World → Prop) : Prop :=
  Post m (fun r w' => Untried w₀ w' ∧ ∀ a, r = .ok a → ok a w') w

section Leading

variable {β : Type} {m : Call α} {k : α → Call β} {P : α → World → Prop} {P' : β → World → Prop}
  {views : List Runs} {view : Reporting}

theorem leads_raise (h : Untried w₀ w) (e : Exc) : Leads w₀ (raise e) w P := ⟨h, fun _ he => by cases he⟩

theorem leads_pure {a : α} (h : Untried w₀ w) (ha : P a w) : Leads w₀ (pure a) w P :=
  ⟨h, fun _ he => by cases he; exact ha⟩

theorem Keeps.leads (hm : Keeps False m) (h : Untried w₀ w) : Leads w₀ m w fun _ _ => True :=
  ⟨hm _ _ _ w h, fun _ _ => trivial⟩

theorem Leads.bind (hm : Leads w₀ m w P) (hk : ∀ a w', Untried w₀ w' → P a w' → Leads w₀ (k a) w' P') :
    Leads w₀ (m >>= k) w P' :=
  post_seq hm (fun a w' h => hk a w' h.1 (h.2 a rfl)) fun _ _ h => ⟨h.1, fun _ he => by cases he⟩

theorem Leads.attempt {k : Except Exc α → Call β} (hm : Leads w₀ m w P)
    (hok : ∀ a w', Untried w₀ w' → P a w' → Leads w₀ (k (.ok a)) w' P')
    (herr : ∀ e w', Untried w₀ w' → Leads w₀ (k (.error e)) w' P') : Leads w₀ (attempt m >>= k) w P' := by
  refine post_attempt_seq hm fun r w' h => ?_
  cases r with
  | ok a => exact hok a w' h.1 (h.2 a rfl)
  | error e => exact herr e w' h.1

theorem Leads.tryCatch {k : Exc → Call α} (hm : Leads w₀ m w P)
    (hk : ∀ e w', Untried w₀ w' → Leads w₀ (k e) w' P) : Leads w₀ (tryCatch m k) w P :=
  hm.attempt (fun _ _ h ha => leads_pure h ha) hk

theorem Leads.mono {P₁ : α → World → Prop} (hm : Leads w₀ m w P) (h : ∀ a w', P a w' → P₁ a w') :
    Leads w₀ m w P₁ := post_mono (fun _ _ hr => ⟨hr.1, fun a he => h a _ (hr.2 a he)⟩) hm

theorem Underway.note (h : Underway w₀ views view w) (site : Site) :
    Underway w₀ views view (w.note site false) := by
  refine ⟨h.untried.note site false, h.views, h.business, fun step hstep => ?_⟩
  rcases List.mem_append.1 hstep with hstep | hstep
  · exact h.clean step hstep
  · rw [List.mem_singleton.1 hstep]

theorem Underway.setBusiness (h : Underway w₀ views view w) (view' : Reporting) :
    Underway w₀ views view' { w with business := some view' } :=
  ⟨h.untried.same rfl rfl fun _ hv => hv, h.views, rfl, h.clean⟩

theorem leads_statement {wrap : Failure → Exc} {site : Site} {effect : Call α}
    (h : Underway w₀ views view w)
    (hok : Underway w₀ views view (w.note site false) → Leads w₀ effect (w.note site false) ok) :
    Leads w₀ (statement f wrap site effect) w ok :=
  post_statement (fun _ _ => ⟨h.untried.note site true, fun _ he => by cases he⟩) fun _ => hok (h.note site)

theorem leads_businessView (h : Underway w₀ views view w) :
    Leads w₀ businessView w fun v w' => v = view ∧ Underway w₀ views view w' :=
  post_businessView h.business ⟨h.untried, fun v he => by cases he; exact ⟨rfl, h⟩⟩

theorem leads_setBusiness (h : Underway w₀ views view w) (view' : Reporting) :
    Leads w₀ (setBusiness view') w fun _ w' => Underway w₀ views view' w' :=
  ⟨(h.setBusiness view').untried, fun _ _ => h.setBusiness view'⟩

theorem leads_checked {wrap : CodedError → Exc} {x : Except CodedError α} (h : Underway w₀ views view w) :
    Leads w₀ (checked wrap x) w fun a w' => x = .ok a ∧ Underway w₀ views view w' :=
  post_checked (fun a ha => ⟨h.untried, fun b he => by cases he; exact ⟨ha, h⟩⟩) fun _ _ =>
    ⟨h.untried, fun _ he => by cases he⟩

end Leading

section Sequence

variable {views : List Runs} {view : Reporting} {lease : ConfirmedLeaseRight}

/-- `verify_week_lease` changes nothing, and what it verified is so. -/
theorem leads_verify {weekStart token : Int} {run : Uuid} (h : Underway w₀ views view w) :
    Leads w₀ (verifyLeaseNow f weekStart run token) w fun d w' => Underway w₀ views view w' ∧
      (d.leaseVerified = true → ∃ row, view.control weekStart = some row ∧
        row.verifies run token f.clock = true) := by
  refine (leads_businessView h).bind fun _ w₁ _ ⟨_, h₁⟩ => ?_
  refine (leads_checked h₁).bind fun _ w₂ _ ⟨_, h₂⟩ => ?_
  refine (leads_checked h₂).bind fun t w₃ _ ⟨htoken, h₃⟩ => ?_
  have ht : t = token := by
    unfold checkToken at htoken
    split at htoken
    · cases htoken
    · cases htoken
      rfl
  subst ht
  refine Leads.bind (P := fun r w' => r = view.control weekStart ∧ Underway w₀ views view w') ?_ ?_
  · refine leads_statement h₃ fun h₃ => (leads_businessView h₃).bind fun v w₄ hu ⟨hv, h₄⟩ => ?_
    exact leads_pure hu ⟨by rw [hv], h₄⟩
  · rintro locked w₄ hu ⟨rfl, h₄⟩
    cases hrow : view.control weekStart with
    | none => exact leads_pure hu ⟨h₄, fun hd => by simp [refusal, LeaseDecision.leaseVerified] at hd⟩
    | some row =>
      refine leads_pure hu ⟨h₄, fun hd => ⟨row, rfl, ?_⟩⟩
      by_contra hnot
      simp [decision, LeaseDecision.leaseVerified, hnot] at hd

theorem leads_operationalView (h : Underway w₀ views view w) :
    Leads w₀ operationalView w fun v w' => w.operational = some v ∧ Underway w₀ views view w' ∧ w' = w :=
  post_operationalView (fun v hv => ⟨h.untried, fun v' he => by cases he; exact ⟨hv, h, rfl⟩⟩)
    fun _ _ => ⟨h.untried, fun _ he => by cases he⟩

theorem leads_selectRun (h : Underway w₀ views view w) (site : Site) (run : Uuid) :
    Leads w₀ (selectRun f site run) w fun r w' => Underway w₀ views view w' ∧
      ∃ v, w.operational = some v ∧ r = v run := by
  refine (leads_operationalView h).bind fun _ w₁ _ ⟨_, h₁, hw⟩ => ?_
  subst hw
  refine leads_statement h₁ fun h₁ => (leads_operationalView h₁).bind fun v w₂ hu ⟨hv, h₂, _⟩ => ?_
  exact leads_pure hu ⟨h₂, v, hv, rfl⟩

theorem leads_requireRun (h : Underway w₀ views view w) (site : Site) (run : Uuid) :
    Leads w₀ (requireRun f site run) w fun _ w' => Underway w₀ views view w' := by
  refine (leads_selectRun h site run).bind fun r w₁ hu ⟨h₁, _⟩ => ?_
  cases r with
  | none => exact leads_raise hu _
  | some row => exact leads_pure hu h₁

theorem leads_replaceRun {run : Uuid} {expected : RunStatus} {row : RunRecord} {missing : CodedError}
    (hs : row.status ≠ .pending) (hc : row.status.success = false) (h : Underway w₀ views view w) :
    Leads w₀ (replaceRun run expected row missing) w fun _ w' => ∃ views', Underway w₀ views' view w' ∧
      ∃ v, w'.operational = some v ∧ v run = some row := by
  refine (leads_operationalView h).bind fun v w₁ hu ⟨hv, h₁, hw⟩ => ?_
  subst hw
  have hgrows : Grows False w₀.runs (Function.update v run (some row)) :=
    (h₁.untried.grows v (by simp [World.views, hv])).update hs (by rw [hc]; rintro ⟨⟩)
  by_cases hm : ((v run).any fun current => current.status = expected) = true
  · simp only [hm, if_true]
    have hu' := h₁.untried.setOperational hgrows
    exact ⟨hu', fun _ _ => ⟨_, ⟨hu', rfl, h₁.business, h₁.clean⟩, _, rfl, Function.update_self ..⟩⟩
  · simp only [hm, Bool.false_eq_true, if_false]
    exact leads_raise hu _

/-- The run is committed as running before anything is staged. -/
theorem leads_markRunning (h : Underway w₀ views view w) :
    Leads w₀ (markRunning f q) w fun _ w' => ∃ runs, Underway w₀ [runs] view w' ∧
      ∃ row, runs q.runId = some row ∧ row.status ≠ .pending := by
  refine Leads.bind (P := fun _ w' => ∃ views', Underway w₀ views' view w' ∧ ∃ v, w'.operational = some v ∧
    ∃ row, v q.runId = some row ∧ row.status ≠ .pending) ?_ ?_
  · refine (leads_requireRun h _ _).bind fun current w₁ _ h₁ => ?_
    refine (leads_checked h₁).bind fun row w₂ _ ⟨hrow, h₂⟩ => ?_
    obtain ⟨-, -, hstatus⟩ := RunUpdate.apply_ok hrow
    refine leads_statement h₂ fun h₂ => (leads_replaceRun ?_ ?_ h₂).mono ?_
    · rw [hstatus]
      decide
    · rw [hstatus]
      rfl
    · rintro _ w' ⟨views', h', v, hv, hvrow⟩
      exact ⟨views', h', v, hv, row, hvrow, by rw [hstatus]; decide⟩
  · rintro _ w₁ _ ⟨_, h₁, v, hv, hvrow⟩
    refine Leads.tryCatch (post_commitAt (fun e _ => ⟨?_, fun _ he => by cases he⟩) fun _ => ?_)
      fun e w' hu => ?_
    · exact (h₁.untried.endOperational _).note _ true
    · have hu := (h₁.untried.endOperational true).note .markCommit false
      refine ⟨hu, fun _ _ => ⟨v, ⟨hu, ?_, h₁.business, (h₁.note .markCommit).clean⟩, hvrow⟩⟩
      simp [World.views, World.note, World.endOperational, hv]
    · split
      · exact leads_raise hu _
      · exact leads_raise hu _

theorem leads_transactionIssue (h : Underway w₀ views view w) :
    Leads w₀ transactionIssue w fun _ w' => Underway w₀ views view w' := by
  refine Leads.bind (P := fun _ w' => Underway w₀ views view w') (post_get ⟨h.untried, fun _ _ => h⟩) ?_
  intro _ w' hu h'
  split
  · exact leads_pure hu h'
  · split
    · exact leads_pure hu h'
    · exact leads_pure hu h'

/-- A reconciliation that was read is about the rows that the transaction sees. -/
theorem leads_reconcile {weekStart : Int} {aggregates : List WeeklyAggregate}
    (h : Underway w₀ views view w) :
    Leads w₀ (reconcileDisappearedKeys f weekStart aggregates) w fun r w' => r.readCompleted = true →
      Underway w₀ views view w' ∧
        r = reconcileRows weekStart aggregates (view.kpis.filter fun row => row.weekStart = weekStart) := by
  unfold reconcileDisappearedKeys
  split
  · exact leads_pure h.untried fun hr => by cases hr
  · refine (leads_transactionIssue h).bind fun issue w₁ hu h₁ => ?_
    cases issue with
    | some issue => exact leads_pure hu fun hr => by cases hr
    | none =>
      refine Leads.attempt (P := fun rows w' => Underway w₀ views view w' ∧
        rows = view.kpis.filter fun row => row.weekStart = weekStart) ?_ ?_ ?_
      · refine leads_statement h₁ fun h₁ => (leads_businessView h₁).bind fun v w₂ hu ⟨hv, h₂⟩ => ?_
        exact leads_pure hu ⟨h₂, by rw [hv]⟩
      · rintro rows w₂ hu ⟨h₂, rfl⟩
        exact leads_pure hu fun _ => ⟨h₂, rfl⟩
      · intro e w₂ hu
        cases e with
        | raised e =>
          dsimp only
          split
          · exact leads_pure hu fun hr => by cases hr
          · exact leads_raise hu _
        | runStore e => exact leads_raise hu _
        | concurrency e => exact leads_raise hu _
        | coordinator e => exact leads_raise hu _

theorem leads_upsertBatch {ordered : List WeeklyAggregate} {published : KpiTable}
    (h : Underway w₀ views view w) :
    Leads w₀ (upsertBatch f ordered published) w fun counts w' =>
      Underway w₀ views { view with kpis := (upsertAll view.kpis ordered).1 } w' ∧
        countsFromSnapshot ordered published (upsertAll view.kpis ordered).2 = .ok counts := by
  refine Leads.bind (P := fun returned w' =>
    Underway w₀ views { view with kpis := (upsertAll view.kpis ordered).1 } w' ∧
      returned = (upsertAll view.kpis ordered).2) ?_ ?_
  · refine leads_statement h fun h => (leads_businessView h).bind fun v w₁ _ ⟨hv, h₁⟩ => ?_
    subst hv
    exact (leads_setBusiness h₁ _).bind fun _ w₂ hu h₂ => leads_pure hu ⟨h₂, rfl⟩
  · rintro returned w₁ hu ⟨h₁, rfl⟩
    cases hc : countsFromSnapshot ordered published (upsertAll view.kpis ordered).2 with
    | error e => exact ⟨hu, fun _ he => by cases he⟩
    | ok counts => exact ⟨hu, fun c he => by cases he; exact ⟨h₁, rfl⟩⟩

/-- What a staged batch is. -/
structure StagedBatch (q : Request) (base : Reporting) (staged : PublicationOutcome) : Prop where
  batch : ValidBatch q.weekStart q.aggregates
  kept : ∀ row ∈ base.kpis, row.weekStart = q.weekStart → row.key ∈ q.aggregates.map WeeklyAggregate.key
  total : staged.inserted + staged.updated + staged.unchanged = q.aggregates.length

/-- The rows with the batch of the request. -/
def Reporting.withBatch (base : Reporting) (q : Request) : Reporting :=
  { base with kpis := (upsertAll base.kpis (sortedAggregates q.aggregates)).1 }

theorem leads_closeFailedTransaction (hu : Untried w₀ w) (a b : Bool) :
    Leads w₀ (closeFailedTransaction a b) w fun status _ => status ≠ .staged := by
  have hm := keeps_markUnusable _ _ _ w hu
  unfold closeFailedTransaction
  split
  · exact ⟨hm, fun _ he => by cases he; decide⟩
  · split
    · exact leads_pure hu (by decide)
    · exact ⟨hm, fun _ he => by cases he; decide⟩

theorem leads_upsertFailed (hu : Untried w₀ w) (e : Exc) :
    Leads w₀ (upsertFailed f e) w fun staged _ => staged.status ≠ .staged := by
  cases e with
  | raised e =>
    unfold upsertFailed
    dsimp only
    by_cases hc : e.cls.database = true ∨ e.cls ∈ [.valueError, .keyError, .typeError]
    · rw [if_pos hc]
      refine (keeps_rollbackQuietly.leads hu).bind fun r w₁ hu _ => ?_
      exact (leads_closeFailedTransaction hu _ r).bind fun status w₂ hu hs => leads_pure hu hs
    · rw [if_neg hc]
      exact leads_raise hu _
  | runStore e => exact leads_raise hu _
  | concurrency e => exact leads_raise hu _
  | coordinator e => exact leads_raise hu _

theorem statusForIssues_ne_staged (issues : List PublicationIssue) : statusForIssues issues ≠ .staged := by
  unfold statusForIssues
  split <;> decide

/-- A batch that `_stage_weekly_upsert` calls staged is in the transaction, and nothing disappeared. -/
theorem leads_stage (h : Underway w₀ views view w) :
    Leads w₀ (stageWeeklyUpsert f q.weekStart q.aggregates q.now) w fun staged w' => staged.status =
      .staged → Underway w₀ views (view.withBatch q) w' ∧ StagedBatch q view staged := by
  unfold stageWeeklyUpsert
  dsimp only
  split
  · exact leads_pure h.untried fun hs => by cases hs
  · refine (leads_transactionIssue h).bind fun issue w₁ hu h₁ => ?_
    cases issue with
    | some issue => exact leads_pure hu fun hs => absurd hs (statusForIssues_ne_staged _)
    | none =>
      refine (leads_reconcile h₁).bind fun r w₂ hu hread => ?_
      split
      case isFalse =>
        split
        · refine (keeps_rollbackQuietly.leads hu).bind fun b w₃ hu _ => ?_
          refine (leads_closeFailedTransaction hu _ b).bind fun _ w₄ hu _ => ?_
          exact leads_pure hu fun hs => absurd hs (statusForIssues_ne_staged _)
        · exact leads_pure hu fun hs => absurd hs (statusForIssues_ne_staged _)
      case isTrue hcompleted =>
        obtain ⟨h₂, hr⟩ := hread hcompleted
        unfold stageReconciled
        by_cases hblockers : validateWeeklyPublicationBatch q.weekStart q.aggregates (.aware q.now) ++
          (if r.disappearedKeys = [] then [] else [disappearedIssue]) = []
        case neg =>
          rw [if_pos hblockers]
          exact leads_pure hu fun hs => by cases hs
        case pos =>
          rw [if_neg (not_not.2 hblockers)]
          obtain ⟨hvalid, hnone⟩ := List.append_eq_nil_iff.1 hblockers
          have hdisappeared : r.disappearedKeys = [] := by
            by_contra hne
            simp [hne] at hnone
          rw [hr] at hcompleted hdisappeared
          have hkept := (reconcileRows_kept hcompleted hdisappeared).2
          refine (leads_upsertBatch h₂).attempt (fun counts w₃ hu ⟨h₃, hcounts⟩ => ?_) fun e w₃ hu => ?_
          · obtain ⟨inserted, updated, unchanged⟩ := counts
            refine leads_pure hu fun _ => ⟨h₃, validBatch_of_no_issues hvalid, fun row hrow hweek => ?_, ?_⟩
            · exact hkept row (List.mem_filter.2 ⟨hrow, by simpa using hweek⟩)
            · rw [(countsFromSnapshot_total hcounts).1, sortedAggregates, (perm_sortedBy _ _).length_eq]
          · exact (leads_upsertFailed hu e).mono fun staged _ hs => fun hstaged => absurd hstaged hs

/-- `record_valid_publication` sets the pointer of the week, whose control row exists. -/
theorem leads_record {weekStart : Int} {run : Uuid} {p : Publication} {c : WeekControl}
    (h : Underway w₀ views view w)
    (hc : view.control weekStart = some c) :
    Leads w₀ (recordPublication f weekStart run p) w fun _ w' =>
      Underway w₀ views { view with control := Function.update view.control weekStart (some (c.record run p)) } w' := by
  refine (leads_businessView h).bind fun _ w₁ _ ⟨_, h₁⟩ => ?_
  refine (leads_checked h₁).bind fun _ w₂ _ ⟨_, h₂⟩ => ?_
  refine Leads.bind (P := fun _ w' => Underway w₀ views view w') ?_ fun found w₃ hu h₃ => ?_
  · refine leads_statement h₂ fun h₂ => Leads.bind (P := fun _ w' => Underway w₀ views view w')
      (post_get ⟨h₂.untried, fun _ _ => h₂⟩) fun _ w₃ hu h₃ => leads_pure hu h₃
  · cases found with
    | none => exact leads_raise hu _
    | some record =>
      dsimp only
      split
      · exact Leads.bind (P := fun _ _ => False) (leads_raise hu _) fun _ _ _ hf => hf.elim
      · refine Leads.bind (P := fun _ w' => Underway w₀ views view w') ?_ fun _ w₄ hu h₄ => ?_
        · refine leads_statement h₃ fun h₃ => (leads_businessView h₃).bind fun v w₄ hu ⟨hv, h₄⟩ => ?_
          subst hv
          rw [hc]
          exact leads_pure hu h₄
        · refine Leads.bind (P := fun r w' => r = some c ∧ Underway w₀ views view w') ?_ ?_
          · refine leads_statement h₄ fun h₄ => (leads_businessView h₄).bind fun v w₅ hu ⟨hv, h₅⟩ => ?_
            subst hv
            exact leads_pure hu ⟨hc, h₅⟩
          · rintro _ w₅ hu ⟨rfl, h₅⟩
            refine (leads_checked h₅).bind fun _ w₆ _ ⟨_, h₆⟩ => ?_
            refine Leads.bind (P := fun r w' => r = some c ∧
              Underway w₀ views { view with control := Function.update view.control weekStart (some (c.record run p)) } w')
              ?_ ?_
            · refine leads_statement h₆ fun h₆ => (leads_businessView h₆).bind fun v w₇ hu ⟨hv, h₇⟩ => ?_
              subst hv
              rw [hc]
              exact (leads_setBusiness h₇ _).bind fun _ w₈ hu h₈ => leads_pure hu ⟨rfl, h₈⟩
            · rintro _ w₇ hu ⟨rfl, h₇⟩
              exact leads_pure hu h₇

/-- A release that says so cleared the lease of the run. -/
theorem leads_release {weekStart token : Int} {run : Uuid} {c : WeekControl} (h : Underway w₀ views view w)
    (hc : view.control weekStart = some c) :
    Leads w₀ (releaseLeaseNow f weekStart run token) w fun d w' => d.status = .released →
      Underway w₀ views { view with control := Function.update view.control weekStart (some c.release) } w' := by
  refine (leads_businessView h).bind fun _ w₁ _ ⟨_, h₁⟩ => ?_
  refine (leads_checked h₁).bind fun _ w₂ _ ⟨_, h₂⟩ => ?_
  refine (leads_checked h₂).bind fun t w₃ _ ⟨_, h₃⟩ => ?_
  refine leads_statement h₃ fun h₃ => (leads_businessView h₃).bind fun v w₄ hu ⟨hv, h₄⟩ => ?_
  subst hv
  rw [hc]
  dsimp only
  split
  · exact (leads_setBusiness h₄ _).bind fun _ w₅ hu h₅ => leads_pure hu fun _ => h₅
  · exact leads_pure hu fun hd => by cases hd

end Sequence

/-! ## The outcome of a call -/

/-- `view` is `base` with the publication of `q`: the batch, the pointer to its run, and the lease
released that verified. -/
structure Publishes (q : Request) (clock : Int) (base view : Reporting) : Prop where
  batch : ValidBatch q.weekStart q.aggregates
  kept : ∀ row ∈ base.kpis, row.weekStart = q.weekStart → row.key ∈ q.aggregates.map WeeklyAggregate.key
  kpis : view.kpis = (upsertAll base.kpis (sortedAggregates q.aggregates)).1
  control : ∃ lease c, q.lease = some lease ∧ base.control q.weekStart = some c ∧
    c.verifies q.runId lease.fencingToken clock = true ∧
    view.control = Function.update base.control q.weekStart (some (c.record q.runId
      ⟨q.now, q.aggregates.length, q.dependencyFingerprint, q.rulesVersion⟩).release)

/-- What is left when the COMMIT was attempted: of the rows of a publication, once, after steps that
did not raise. -/
structure Tried (q : Request) (clock : Int) (w₀ w : World) (attempt : Attempt) : Prop where
  publishes : Publishes q clock w₀.reporting attempt.view
  before : ∀ step ∈ attempt.before, step.2 = false
  marked : ∃ runs row, runs q.runId = some row ∧ row.status ≠ .pending ∧
    ∀ view ∈ w.views, Grows (attempt.effect = true) runs view
  idle : Idle (attempt.effect = true) w₀.runs
    (if attempt.effect then attempt.view else w₀.reporting) [attempt] w

/-- How a call ends. -/
def Outcome (q : Request) (clock : Int) (w₀ : World) (r : Except Exc CoordinatorResult)
    (w : World) : Prop :=
  (Untried w₀ w ∧ ∀ res, r = .ok res → res.publicationRecorded = false) ∨
    ∃ attempt, Tried q clock w₀ w attempt ∧ ∀ res, r = .ok res → res.publicationRecorded = true →
      attempt.effect = true

theorem Grows.trans {certified : Prop} {a b c : Runs} (hab : Grows False a b) (hbc : Grows certified b c) :
    Grows certified a c where
  settled run row ha hs := by
    obtain ⟨row', hb, hs'⟩ := hab.settled run row ha hs
    exact hbc.settled run row' hb hs'
  success run row hc hs := by
    rcases hbc.success run row hc hs with h | ⟨row', hb, hs'⟩
    · exact Or.inl h
    · exact (hab.success run row' hb hs').imp False.elim id

section Ends

variable {views : List Runs} {view : Reporting} {lease : ConfirmedLeaseRight}

/-- A call that ended without a COMMIT and does not report a publication. -/
theorem Leads.outcome {m : Call CoordinatorResult}
    (h : Leads w₀ m w fun res _ => res.publicationRecorded = false) : Post m (Outcome q f.clock w₀) w :=
  post_mono (fun _ _ hr => Or.inl hr) h

/-- A run is finished after a failure. -/
theorem leads_finish {a : Finish} (hu : Untried w₀ w) (ha : a.status.success = false)
    {res : CoordinatorResult}
    (hres : res.publicationRecorded = false) :
    Leads w₀ (do finishRun f q a; return res) w fun res _ => res.publicationRecorded = false :=
  ((keeps_finishRun (by rw [ha]; rintro ⟨⟩)).leads hu).bind fun _ _ hu _ => leads_pure hu hres

theorem leads_release_finish {a : Finish} (hu : Untried w₀ w) (ha : a.status.success = false)
    {res : CoordinatorResult}
    (hres : res.publicationRecorded = false) :
    Leads w₀ (do releaseBusinessLock f; finishRun f q a; return res) w fun res _ =>
      res.publicationRecorded = false :=
  (keeps_releaseBusinessLock.leads hu).bind fun _ _ hu _ => leads_finish hu ha hres

theorem durableClaim_eq_some (h : durableClaim q = some lease) : q.lease = some lease := by
  unfold durableClaim at h
  exact (Option.filter_eq_some_iff.1 h).1

/-- What `_commit_business` does with the rows of a publication. -/
theorem post_commitBusiness {clock : Int} {runs : Runs} (h : Underway w₀ [runs] view w)
    (hp : Publishes q clock w₀.reporting view)
    (hrun : ∃ row, runs q.runId = some row ∧ row.status ≠ .pending) :
    Post (commitBusiness f) (fun r w' => ∃ attempt, Tried q clock w₀ w' attempt ∧
      (r = .ok .technicallyObserved → attempt.effect = true)) w := by
  have hclose : ∀ effect raised, Tried q clock w₀ ((w.endBusiness effect).note .commit raised)
      ⟨view, effect, w.trace⟩ := by
    intro effect raised
    obtain ⟨row, hrow, hpending⟩ := hrun
    have hviews : ((w.endBusiness effect).note .commit raised).views = [runs] := h.views
    refine ⟨hp, h.clean, ⟨runs, row, hrow, hpending, fun v hv => ?_⟩, ⟨?_, ?_, fun v hv => ?_⟩⟩
    · rw [hviews, List.mem_singleton] at hv
      exact hv ▸ .refl _ _
    · simp only [World.note, World.endBusiness, h.business, Option.getD_some]
      cases effect with
      | false => exact h.untried.reporting
      | true => rfl
    · simp [World.note, World.endBusiness, h.business, h.untried.attempts]
    · have hgrows := h.untried.grows v hv
      exact ⟨hgrows.settled, fun run row hrow hs => (hgrows.success run row hrow hs).imp False.elim id⟩
  refine post_tryCatch (P := fun r w' => ∃ attempt, Tried q clock w₀ w' attempt ∧
    (r = .ok .technicallyObserved → attempt.effect = true)) ?_ (fun _ _ h => h) ?_
  · refine post_seq (P := fun r w' => ∃ attempt, Tried q clock w₀ w' attempt ∧
        (r = .ok () → attempt.effect = true))
      (post_commitAt (fun e _ => ?_) fun _ => ?_) ?_ ?_
    · exact ⟨_, hclose (f.takesEffect .commit) true, fun he => by cases he⟩
    · exact ⟨_, hclose true false, fun _ => rfl⟩
    · rintro _ w' ⟨attempt, htried, heffect⟩
      exact ⟨attempt, htried, fun _ => heffect rfl⟩
    · rintro e w' ⟨attempt, htried, -⟩
      exact ⟨attempt, htried, fun he => by cases he⟩
  · rintro e w' ⟨attempt, htried, -⟩
    cases e with
    | raised e =>
      dsimp only
      split
      · exact ⟨attempt, htried, fun he => by cases he⟩
      · refine ⟨attempt, htried, fun he => ?_⟩
        split at he <;> cases he
    | runStore e => exact ⟨attempt, htried, fun he => by cases he⟩
    | concurrency e => exact ⟨attempt, htried, fun he => by cases he⟩
    | coordinator e => exact ⟨attempt, htried, fun he => by cases he⟩

/-- The run stays out of `pending`. -/
theorem Tried.running {clock : Int} {attempt : Attempt} (h : Tried q clock w₀ w attempt) :
    ∃ row, w.runs q.runId = some row ∧ row.status ≠ .pending := by
  obtain ⟨runs, row, hrow, hpending, hgrows⟩ := h.marked
  exact (hgrows w.runs (List.mem_cons_self ..)).settled q.runId row hrow hpending

/-- What keeps `Idle` after the COMMIT keeps what was tried. -/
theorem Keeps.tried {clock : Int} {attempt : Attempt} {m : Call α} (hm : Keeps (attempt.effect = true) m)
    (h : Tried q clock w₀ w attempt) : Post m (fun _ w' => Tried q clock w₀ w' attempt) w := by
  obtain ⟨runs, row, hrow, hpending, hgrows⟩ := h.marked
  have hmarked := hm runs w.reporting w.attempts w ⟨rfl, rfl, hgrows⟩
  exact ⟨h.publishes, h.before, ⟨runs, row, hrow, hpending, hmarked.grows⟩, hm _ _ _ w h.idle⟩

/-- The COMMIT of a publication and what is recorded of it. -/
theorem outcome_publishReleased {staged : PublicationOutcome} {runs : Runs} (h : Underway w₀ [runs] view w)
    (hp : Publishes q f.clock w₀.reporting view)
    (hrun : ∃ row, runs q.runId = some row ∧ row.status ≠ .pending) :
    Post (publishReleased f q staged) (Outcome q f.clock w₀) w := by
  refine post_seq (post_commitBusiness h hp hrun) ?_ ?_
  · rintro commitResult w₁ ⟨attempt, htried, heffect⟩
    dsimp only
    split
    · refine post_seq ((keeps_observeUncertain _).tried htried) (fun _ w₂ htried => ?_) fun e w₂
          htried => ?_
      · exact Or.inr ⟨attempt, htried, fun res he => by cases he; rintro ⟨⟩⟩
      · exact Or.inr ⟨attempt, htried, fun res he => by cases he⟩
    case isFalse hobserved =>
      have hcommitted := heffect (congrArg _ (not_not.1 hobserved))
      refine post_seq ((keeps_finishRun fun _ => hcommitted).tried htried) (fun _ w₂ htried => ?_)
        fun e w₂ htried => ?_
      · exact Or.inr ⟨attempt, htried, fun _ _ _ => hcommitted⟩
      · exact Or.inr ⟨attempt, htried, fun res he => by cases he⟩
  · rintro e w₁ ⟨attempt, htried, -⟩
    exact Or.inr ⟨attempt, htried, fun res he => by cases he⟩

/-- The pointer and the release complete what was staged. -/
theorem publishes_of_staged {clock : Int} {staged : PublicationOutcome} {c : WeekControl} {view : Reporting}
    (hlease : q.lease = some lease) (hc : w₀.reporting.control q.weekStart = some c)
    (hverified : c.verifies q.runId lease.fencingToken clock = true)
    (hstaged : StagedBatch q w₀.reporting staged)
    (hkpis : view.kpis = (w₀.reporting.withBatch q).kpis)
    (hcontrol : view.control = Function.update w₀.reporting.control q.weekStart
      (some (c.record q.runId (publicationOf q staged)).release)) :
    Publishes q clock w₀.reporting view := by
  refine ⟨hstaged.batch, hstaged.kept, hkpis, lease, c, hlease, hc, hverified, ?_⟩
  rw [hcontrol, publicationOf, hstaged.total]

/-- From the publication metadata on. -/
theorem outcome_publishStaged {staged : PublicationOutcome} {runs : Runs} {c : WeekControl}
    (h : Underway w₀ [runs] (w₀.reporting.withBatch q) w)
    (hrun : ∃ row, runs q.runId = some row ∧ row.status ≠ .pending)
    (hlease : q.lease = some lease) (hc : w₀.reporting.control q.weekStart = some c)
    (hverified : c.verifies q.runId lease.fencingToken f.clock = true)
    (hstaged : StagedBatch q w₀.reporting staged) :
    Post (publishStaged f q lease staged) (Outcome q f.clock w₀) w := by
  have hmeta : Leads w₀ (do
      recordPublication f q.weekStart q.runId (publicationOf q staged)
      releaseLeaseNow f q.weekStart q.runId lease.fencingToken) w fun d w' => d.status = .released →
        ∃ view, Underway w₀ [runs] view w' ∧ Publishes q f.clock w₀.reporting view := by
    refine (leads_record h hc).bind fun _ w₁ _ h₁ => (leads_release h₁ (Function.update_self ..)).mono ?_
    refine fun d w₂ hreleased hd => ⟨_, hreleased hd, ?_⟩
    exact publishes_of_staged hlease hc hverified hstaged rfl (Function.update_idem ..)
  refine post_attempt_seq hmeta fun r w₁ hr => ?_
  obtain ⟨hu, hok⟩ := hr
  cases r with
  | error e =>
    dsimp only
    split
    · exact (leads_release_finish hu rfl rfl).outcome
    · exact (leads_raise hu e).outcome
  | ok d =>
    dsimp only
    split
    · exact (leads_release_finish hu rfl rfl).outcome
    case isFalse hd =>
      obtain ⟨view, h₁, hp⟩ := hok d rfl (not_not.1 hd)
      exact outcome_publishReleased h₁ hp hrun

theorem abortFinish_success (staged : PublicationOutcome) :
    (abortFinish staged).status.success = false := by
  unfold abortFinish
  dsimp only
  split <;> rfl

theorem leads_abortStaged {staged : PublicationOutcome} (hu : Untried w₀ w) :
    Leads w₀ (abortStaged f q staged) w fun res _ => res.publicationRecorded = false := by
  unfold abortStaged
  split
  · exact (keeps_releaseBusinessLock.leads hu).bind fun _ _ hu _ =>
        leads_finish hu (abortFinish_success staged) rfl
  · exact leads_finish hu (abortFinish_success staged) rfl

/-- From the mark that the run is running on. -/
theorem outcome_publishVerified {c : WeekControl} (h : Underway w₀ views w₀.reporting w)
    (hlease : q.lease = some lease) (hc : w₀.reporting.control q.weekStart = some c)
    (hverified : c.verifies q.runId lease.fencingToken f.clock = true) :
    Post (publishVerified f q lease) (Outcome q f.clock w₀) w := by
  refine post_seq ((leads_markRunning h).tryCatch fun e w₁ hu => ?_) (fun _ w₁ hr => ?_)
    fun e w₁ hr => Or.inl ⟨hr.1, fun _ he => by cases he⟩
  · cases e with
    | raised e => exact leads_raise hu _
    | runStore e => exact leads_raise hu _
    | concurrency e => exact leads_raise hu _
    | coordinator e => exact (keeps_releaseBusinessLock.leads hu).bind fun _ _ hu _ => leads_raise hu _
  obtain ⟨runs, h₁, hrun⟩ := hr.2 _ rfl
  refine post_seq (leads_stage h₁) (fun staged w₂ hr => ?_) fun e w₂ hr =>
      Or.inl ⟨hr.1, fun _ he => by cases he⟩
  split
  · exact (leads_abortStaged hr.1).outcome
  case isFalse hs =>
    obtain ⟨h₂, hstaged⟩ := hr.2 staged rfl (not_not.1 hs)
    exact outcome_publishStaged h₂ hrun hlease hc hverified hstaged

/-- From the verification of the lease on. -/
theorem outcome_publishClaimed (h : Underway w₀ views w₀.reporting w) (hlease : q.lease = some lease) :
    Post (publishClaimed f q lease) (Outcome q f.clock w₀) w := by
  refine post_attempt_seq (leads_verify h) fun r w₁ hr => ?_
  obtain ⟨hu, hok⟩ := hr
  cases r with
  | error e =>
    cases e with
    | concurrency e => exact (leads_release_finish hu rfl rfl).outcome
    | raised e => exact (leads_raise hu _).outcome
    | runStore e => exact (leads_raise hu _).outcome
    | coordinator e => exact (leads_raise hu _).outcome
  | ok d =>
    obtain ⟨h₁, hd⟩ := hok d rfl
    dsimp only
    split
    · refine (leads_release_finish hu ?_ rfl).outcome
      simp only [unstartedFinish, leaseRejectionStatus]
      split <;> rfl
    case isFalse hverified =>
      obtain ⟨c, hc, hv⟩ := hd (by simpa using hverified)
      exact outcome_publishVerified h₁ hlease hc hv

end Ends

theorem underway_begin (w : World) : Underway w [w.runs, w.runs] w.reporting w.begin := by
  have hviews : w.begin.views = [w.runs, w.runs] := rfl
  refine ⟨⟨rfl, rfl, fun view hview => ?_⟩, hviews, rfl, fun step hstep => absurd hstep List.not_mem_nil⟩
  rw [hviews, List.mem_cons, List.mem_singleton, or_self] at hview
  exact hview ▸ .refl _ _

/-- The run that a call identified is pending. -/
theorem leads_identified (f : Faults) (q : Request) (w : World) :
    Leads w (identifiedRun f q) w.begin fun run w' => Underway w [w.runs, w.runs] w.reporting w' ∧
      w.runs q.runId = some run ∧ run.status = .pending := by
  refine Leads.bind (P := fun r w' => Underway w [w.runs, w.runs] w.reporting w' ∧ r = w.runs q.runId)
    (Leads.tryCatch ((leads_selectRun (underway_begin w) _ _).mono ?_) fun e w' hu => ?_) ?_
  · rintro r w' ⟨h', v, hv, rfl⟩
    cases hv
    exact ⟨h', rfl⟩
  · cases e <;> exact leads_raise hu _
  · rintro found w' hu ⟨h', hfound⟩
    cases found with
    | none => exact leads_raise hu _
    | some run =>
      dsimp only
      split
      · exact Leads.bind (P := fun _ _ => False) (leads_raise hu _) fun _ _ _ hf => hf.elim
      · split
        · exact Leads.bind (P := fun _ _ => False) (leads_raise hu _) fun _ _ _ hf => hf.elim
        case isFalse hs => exact leads_pure hu ⟨h', hfound.symm, not_not.1 hs⟩

theorem leads_separated (w : World) :
    Leads w requireSeparatedTransactions w.begin fun _ w' => w' = w.begin :=
  ⟨(underway_begin w).untried, fun _ _ => rfl⟩

/-- Every call ends in an `Outcome`. -/
theorem publish_outcome (f : Faults) (q : Request) (w : World) :
    Post (publishWeeklyBusinessReport f q) (Outcome q f.clock w) w.begin := by
  refine post_seq (leads_separated w) (fun _ w₁ hr => ?_) fun e w₁ hr =>
      Or.inl ⟨hr.1, fun _ he => by cases he⟩
  obtain rfl := hr.2 _ rfl
  refine post_seq (leads_identified f q w) (fun _ w₁ hr => ?_) fun e w₁ hr =>
    Or.inl ⟨hr.1, fun _ he => by cases he⟩
  have h₁ := (hr.2 _ rfl).1
  split
  · exact (leads_finish hr.1 rfl rfl).outcome
  · split
    · exact (leads_finish hr.1 rfl rfl).outcome
    case h_2 lease hclaim => exact outcome_publishClaimed h₁ (durableClaim_eq_some hclaim)

/-- Only a call for a pending run gets to a COMMIT. -/
theorem publish_pending (f : Faults) (q : Request) (w : World)
    (h : ¬∃ run, w.runs q.runId = some run ∧ run.status = .pending) :
    (publishWeeklyBusinessReport f q w.begin).2.attempts = [] := by
  have hpost : Leads w (publishWeeklyBusinessReport f q) w.begin fun _ _ => True := by
    refine (leads_separated w).bind fun _ w₁ _ hw => ?_
    subst hw
    exact (leads_identified f q w).bind fun run _ _ hrun => absurd ⟨run, hrun.2⟩ h
  exact hpost.1.attempts

/-! ## Truthfulness -/

/-- The business transaction of the call is committed, and with it the whole batch, the pointer to
the run, and the release of the lease that the run held. -/
structure Certified (q : Request) (w w' : World) : Prop where
  committed : ∃ attempt, w'.attempts = [attempt] ∧ attempt.effect = true ∧ w'.reporting = attempt.view
  batch : ∀ row, row ∈ w'.reporting.kpis ↔
    row ∈ q.aggregates ∨ row ∈ w.reporting.kpis ∧ row.weekStart ≠ q.weekStart
  control : ∃ held free, w.reporting.control q.weekStart = some held ∧ held.ownerRunId = some q.runId ∧
    w'.reporting.control = Function.update w.reporting.control q.weekStart (some free) ∧
    free.lastValidPublicationRunId = some q.runId ∧ free.publishedRowCount =
    some (q.aggregates.length : Int) ∧ free.ownerRunId = none ∧ free.leaseAcquiredAt = none ∧
    free.leaseExpiresAt = none

/-- A call from `w` that ended in `r` and `w'` said and did nothing that is not so. -/
structure Truthful (q : Request) (w : World) (r : Except Exc CoordinatorResult) (w' : World) : Prop where
  valid : ∀ res, r = .ok res → res.businessPublicationValid = true → Certified q w w'
  success : ∀ view ∈ w'.views, ∀ row, view q.runId = some row → row.status.success = true →
    (∀ row', w.runs q.runId = some row' → row'.status.success = false) → Certified q w w'
  once : w'.attempts.length ≤ 1
  complete : ∀ attempt ∈ w'.attempts,
    (∀ step ∈ attempt.before, step.2 = false) ∧ ∃ clock, Publishes q clock w.reporting attempt.view
  unchanged : (∀ attempt ∈ w'.attempts, attempt.effect = false) → w'.reporting = w.reporting

theorem Tried.certified {clock : Int} {attempt : Attempt} (h : Tried q clock w₀ w attempt)
    (he : attempt.effect = true) : Certified q w₀ w := by
  have hreporting : w.reporting = attempt.view := by
    rw [h.idle.reporting, if_pos he]
  obtain ⟨lease, c, -, hc, hverified, hcontrol⟩ := h.publishes.control
  refine ⟨⟨attempt, h.idle.attempts, he, hreporting⟩, fun row => ?_, c, _, hc, ?_,
      by rw [hreporting, hcontrol],
    rfl, rfl, rfl, rfl, rfl⟩
  · rw [hreporting, h.publishes.kpis]
    exact upsert_week h.publishes.batch h.publishes.kept
  · simp only [WeekControl.verifies, WeekControl.owned, Bool.and_eq_true, decide_eq_true_eq] at hverified
    exact hverified.1.1

/-- The coordinator is truthful, whatever raises wherever. -/
theorem coordinator_truthful (f : Faults) (q : Request) (w : World) :
    Truthful q w (publishWeeklyBusinessReport f q w.begin).1
      (publishWeeklyBusinessReport f q w.begin).2 := by
  rcases publish_outcome f q w with ⟨hu, hres⟩ | ⟨attempt, htried, hres⟩
  · refine ⟨fun res hr hv => ?_, fun view hview row hrow hs hbefore => ?_, ?_, fun a ha => ?_,
        fun _ => hu.reporting⟩
    · simp [CoordinatorResult.businessPublicationValid, hres res hr] at hv
    · rcases (hu.grows view hview).success _ row hrow hs with hf | ⟨row', hrow', hs'⟩
      · exact hf.elim
      · simp [hbefore row' hrow'] at hs'
    · simp [hu.attempts]
    · rw [hu.attempts] at ha
      exact absurd ha List.not_mem_nil
  · have hattempts := htried.idle.attempts
    refine ⟨fun res hr hv => ?_, fun view hview row hrow hs hbefore => ?_, ?_, fun a ha => ?_,
      fun hnone => ?_⟩
    · refine htried.certified (hres res hr ?_)
      simp only [CoordinatorResult.businessPublicationValid, Bool.and_eq_true] at hv
      exact hv.1.1.1
    · rcases (htried.idle.grows view hview).success _ row hrow hs with he | ⟨row', hrow', hs'⟩
      · exact htried.certified he
      · simp [hbefore row' hrow'] at hs'
    · simp [hattempts]
    · rw [hattempts, List.mem_singleton] at ha
      exact ha ▸ ⟨htried.before, f.clock, htried.publishes⟩
    · have he := hnone attempt (by simp [hattempts])
      rw [htried.idle.reporting, he]
      rfl

end TrackFlow.Pipelines
