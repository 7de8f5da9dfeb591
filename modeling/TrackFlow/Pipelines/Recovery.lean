import TrackFlow.Pipelines.FailedRuns

/-!
# The recovery of an uncertain commit

`resolveUncertainPublication` reads the pointer of the week and takes it for the evidence that the
COMMIT of a run took effect. A `Ledger` is a store with the requests whose COMMIT did, in their
order, however the COMMIT was reported.

- `Ledger.Points`: what the control row of a week says is what the last such request of the week said
  (`LedgerStep.points`);
- `uncertain_recovery_exact`: the verdict, what a recovery does to the run history, and what it
  leaves alone.
-/

namespace TrackFlow.Pipelines

open TrackFlow.Python TrackFlow.Python.Raising

/-! ## The stored pointer -/

/-- `ValidPublication`. -/
structure ValidPublication where
  weekStart : Int
  runId : Uuid
  publishedAt : Int
  publishedRowCount : Int
  dependencyFingerprint : Option String
  rulesVersion : Option String
  fencingToken : Int

/-- `_token` of the run store. -/
def storedToken (value : Int) : Except CodedError Int :=
  if value < 0 ∨ bigintMax < value then .error ⟨"invalid_fencing_token",
    "fencing_token must be a non-negative bigint"⟩
  else .ok value

/-- `_required_time`; the columns hold times with a zone, or nothing. -/
def requiredTime (value : Option Int) (field : String) : Except CodedError Int :=
  match value with
  | some time => .ok time
  | none => .error ⟨"invalid_timestamp", field ++ " must be timezone-aware"⟩

/-- The `ValidPublication` of a row that points to `run`. -/
def WeekControl.validPublication (c : WeekControl) (run : Uuid) : Except CodedError ValidPublication := do
  let publishedAt ← requiredTime c.lastValidPublishedAt "published_at"
  let publishedRowCount ← count c.publishedRowCount "published_row_count"
  let fencingToken ← storedToken c.fencingToken
  return {
    weekStart := c.weekStart
    runId := run
    publishedAt
    publishedRowCount := publishedRowCount.getD 0
    dependencyFingerprint := c.dependencyFingerprint
    rulesVersion := c.rulesVersion
    fencingToken }

/-- `LATEST_VALID_PUBLICATION_SQL`: the control row of the week, if it points to a run. -/
def Reporting.latestValid (v : Reporting) (weekStart : Int) : Option (WeekControl × Uuid) :=
  (v.control weekStart).bind fun c => c.lastValidPublicationRunId.map fun run => (c, run)

section Program

variable (f : Faults)

/-- `latest_valid_publication`. -/
def latestValidPublication (weekStart : Int) : Call (Option ValidPublication) := do
  let _ ← businessView
  let _ ← checked .runStore (week weekStart)
  let found ← statement f storeError .recordSelectControl do
    let view ← businessView
    return view.latestValid weekStart
  match found with
  | none => return none
  | some (c, run) => some <$> checked .runStore (c.validPublication run)

/-! ## The recovery -/

/-- The arguments of `resolve_uncertain_publication`; whether an operational connection is one of them. -/
structure Recovery where
  weekStart : Int
  runId : Uuid
  dependencyFingerprint : String
  rulesVersion : String
  publishedRowCount : Option Int := none
  operational : Bool := false
  now : Option Int := none
  persist : Bool := false

/-- Whether the pointer is the evidence. -/
def Recovery.recognizes (r : Recovery) (p : ValidPublication) : Bool :=
  p.runId = r.runId && p.dependencyFingerprint = some r.dependencyFingerprint && p.rulesVersion =
    some r.rulesVersion && r.publishedRowCount.all fun n => p.publishedRowCount = n

/-- The request that `_finish_run` and `_observe_uncertain` act on. -/
def Recovery.request (r : Recovery) (now : Int) : Request where
  weekStart := r.weekStart
  runId := r.runId
  aggregates := []
  quality := none
  coverage := none
  dependencyFingerprint := some r.dependencyFingerprint
  rulesVersion := some r.rulesVersion
  lease := none
  now := now

/-- The success of a recovered run. -/
def recoveredFinish : Finish where
  expectedStatus := .running
  status := .succeeded
  stageReached := "recovered"
  errors := []
  commitResult := .technicallyObserved

/-- The result without evidence. -/
def Recovery.inconclusive (r : Recovery) : CoordinatorResult where
  weekStart := r.weekStart
  runId := r.runId
  status := .commitUncertain
  errors := ["evidence_inconclusive"]
  commitResult := .uncertain
  evidenceInconclusive := true

/-- The result with evidence. -/
def Recovery.recognized (r : Recovery) : CoordinatorResult where
  weekStart := r.weekStart
  runId := r.runId
  status := .run .succeeded
  commitResult := .technicallyObserved
  publicationRecorded := true
  recovered := true

/-- What `persist` does without evidence. -/
def observeInconclusive (r : Recovery) : Call Unit := do
  match r.now with
  | some now => if r.persist = true ∧ r.operational = true then observeUncertain f (r.request now) .uncertain
  | none => return ()

/-- What `persist` does with evidence. -/
def persistRecovery (r : Recovery) : Call Unit := do
  if r.persist = true then
    match r.operational, r.now with
    | true, some now =>
      let current ← selectRun f .identify r.runId
      if (current.any fun row => row.status = .running) = true then finishRun f (r.request now) recoveredFinish
    | _, _ =>
      raise (.coordinator
        ⟨"operational_required", "persisting recovery needs an operational transaction and now"⟩)

/-- `resolve_uncertain_publication`. Its two reads are at the sites `recordSelectControl` and `identify`. -/
def resolveUncertainPublication (r : Recovery) : Call CoordinatorResult := do
  let publication ← latestValidPublication f r.weekStart
  if publication.any r.recognizes = true then
    persistRecovery f r
    return r.recognized
  else
    observeInconclusive f r
    return r.inconclusive

end Program

/-! ## Ledgers -/

/-- The connections that a recovery is given: either may have a transaction open. -/
def World.resume (w : World) (reading operational : Bool) : World :=
  { w with
    business := if reading then some w.reporting else none
    operational := if operational then some w.runs else none
    trace := []
    attempts := [] }

/-- A store with the requests whose COMMIT took effect. -/
structure Ledger where
  store : Store
  commits : List Request

/-- The commits of a call for `q`. -/
def commitsOf (q : Request) (w : World) : List Request := (w.attempts.filter Attempt.effect).map fun _ => q

/-- The ledger after a call. -/
def Ledger.publish (s : Ledger) (f : Faults) (q : Request) : Ledger where
  store := s.store.publish f q
  commits := s.commits ++ commitsOf q (publishWeeklyBusinessReport f q s.store.world.begin).2

/-- The ledger after a recovery. -/
def Ledger.resolve (s : Ledger) (f : Faults) (r : Recovery) (reading operational : Bool) : Ledger :=
  { s with store := { s.store with
      world := (resolveUncertainPublication f r (s.store.world.resume reading operational)).2 } }

/-- The constraints of the control table; the count of rows is an `integer`. -/
def Reporting.Constrained (v : Reporting) : Prop :=
  ∀ weekStart c, v.control weekStart = some c → c.check = true ∧
    ∀ n, c.publishedRowCount = some n → 0 ≤ n ∧ n ≤ postgresIntegerMax

/-- One transaction: a call of the coordinator, a recovery, or one that commits no publication. -/
inductive LedgerStep : Ledger → Ledger → Prop
  | publish (s : Ledger) (f : Faults) (q : Request) : (s.publish f q).store.world.reporting.Constrained →
      LedgerStep s (s.publish f q)
  | resolve (s : Ledger) (f : Faults) (r : Recovery) (reading operational : Bool) :
      LedgerStep s (s.resolve f r reading operational)
  | other {s : Ledger} {store : Store} : Step s.store store → store.history = s.store.history →
      store.world.reporting.Constrained → LedgerStep s { s with store }

/-- The ledgers that transactions reach from the empty tables. -/
inductive Ledger.Reachable : Ledger → Prop
  | empty : Ledger.Reachable ⟨.empty, []⟩
  | step {s s' : Ledger} : Ledger.Reachable s → LedgerStep s s' → Ledger.Reachable s'

/-! ## What a recovery changes -/

section Changes

variable {f : Faults} {r : Recovery} {w : World} {P : Runs → Prop}

theorem maintains_latest (weekStart : Int) : Maintains P (latestValidPublication f weekStart) := by
  refine maintains_businessView.bind fun _ => (maintains_checked _ _).bind fun _ => ?_
  refine (maintains_statement (maintains_businessView.bind fun v => maintains_pure _)).bind fun found => ?_
  split
  · exact maintains_pure _
  · exact (maintains_checked _ _).bind fun p => maintains_pure (some p)

/-- The writes of a recovery keep what survives them. -/
theorem maintains_observeInconclusive
    (hP : r.persist = true → ∀ row, row.status = .running → Replaces P r.runId .running row) :
    Maintains P (observeInconclusive f r) := by
  unfold observeInconclusive
  split
  · split
    · rename_i hpersist
      exact maintains_observeUncertain _ (hP hpersist.1)
    · exact maintains_pure _
  · exact maintains_pure _

theorem maintains_persistRecovery
    (hP : r.persist = true → ∀ row, row.status = .succeeded → Replaces P r.runId .running row) :
    Maintains P (persistRecovery f r) := by
  unfold persistRecovery
  split
  · rename_i hpersist
    split
    · refine (maintains_selectRun _ _).bind fun current => ?_
      split
      · exact maintains_finishRun fun _ => hP hpersist
      · exact maintains_pure _
    · exact maintains_raise _
  · exact maintains_pure _

theorem maintains_resolve (f : Faults) (r : Recovery) (hP : ∀ row, Replaces P r.runId .running row) :
    Maintains P (resolveUncertainPublication f r) := by
  refine (maintains_latest _).bind fun publication => ?_
  split
  · exact (maintains_persistRecovery fun _ row _ => hP row).bind fun _ => maintains_pure _
  · exact (maintains_observeInconclusive fun _ row _ => hP row).bind fun _ => maintains_pure _

/-- How a recovery may change the run history: with `persist` a running run stays so, and with
`certified` it may succeed. -/
def Moves (r : Recovery) (certified : Prop) (old new : Runs) : Prop :=
  ∀ run, new run = old run ∨ r.persist = true ∧ run = r.runId ∧ ∃ row row', old run = some row ∧
    new run = some row' ∧ row.status = .running ∧ (row'.status = .running ∨ row'.status = .succeeded ∧
      certified)

theorem replaces_moves {old : Runs} {certified : Prop} {row : RunRecord} (hpersist : r.persist = true)
    (hrow : row.status = .running ∨ row.status = .succeeded ∧ certified) :
    Replaces (Moves r certified old) r.runId .running row := by
  intro view current hview hcurrent hstatus run
  by_cases hrun : run = r.runId
  · subst hrun
    right
    rcases hview r.runId with hsame | ⟨-, -, row₀, row₁, hold, -, hrunning, -⟩
    · exact ⟨hpersist, rfl, current, row, hsame ▸ hcurrent, Function.update_self .., hstatus, hrow⟩
    · exact ⟨hpersist, rfl, row₀, row, hold, Function.update_self .., hrunning, hrow⟩
  · rw [Function.update_of_ne hrun]
    exact hview run

/-! ## What the verdict rests on -/

/-- The control row of the week is the evidence. -/
def Evidence (r : Recovery) (v : Reporting) : Prop :=
  ∃ c run p, v.latestValid r.weekStart = some (c, run) ∧ c.validPublication run = .ok p ∧
    r.recognizes p = true

/-- `latest_valid_publication` reads what it finds, and changes nothing. -/
theorem latest_reads {weekStart : Int} : Post (latestValidPublication f weekStart) (fun res w' =>
    (∃ trace, w' = { w with trace }) ∧ ∀ o, res = .ok o → ∃ v, w.business = some v ∧
        match v.latestValid weekStart with
      | none => o = none
      | some (c, run) => ∃ p, o = some p ∧ c.validPublication run = .ok p) w := by
  have hsame : ∃ trace, w = { w with trace } := ⟨w.trace, rfl⟩
  obtain hb | ⟨v, hb⟩ : w.business = none ∨ ∃ v, w.business = some v := by
    cases w.business with
    | none => exact Or.inl rfl
    | some v => exact Or.inr ⟨v, rfl⟩
  · refine post_stop (e := .runStore ⟨"transaction_required", "an open transaction is required"⟩)
        (P := fun w' => w' = w)
      ?_ fun w' hw => ?_
    · unfold Post businessView
      rw [hb]
      exact ⟨rfl, rfl⟩
    · subst hw
      exact ⟨hsame, fun _ ho => by cases ho⟩
  · have hview : ∀ w' : World, w'.business = some v → Post businessView (Gives v fun w'' => w'' = w') w' :=
      fun w' hw => post_businessView hw ⟨rfl, rfl⟩
    refine post_next (hview w hb) fun w₁ hw => ?_
    subst hw
    refine post_ofExcept_seq (fun _ _ => ?_) fun e _ => ⟨hsame, fun _ ho => by cases ho⟩
    refine post_seq (P := fun res w' => (∃ trace, w' = { w₁ with trace }) ∧ ∀ found, res = .ok found →
      found = v.latestValid weekStart) ?_ (fun found w₂ ⟨hw, hfound⟩ => ?_) fun e w₂ ⟨hw, _⟩ =>
        ⟨hw, fun _ ho => by cases ho⟩
    · refine post_statement (fun e _ => ⟨⟨_, rfl⟩, fun _ ho => by cases ho⟩) fun _ => ?_
      refine post_next (hview (w₁.note .recordSelectControl false) hb) fun w₂ hw => ?_
      subst hw
      exact ⟨⟨_, rfl⟩, fun found hf => by cases hf; rfl⟩
    · obtain rfl := hfound _ rfl
      cases hl : v.latestValid weekStart with
      | none => exact ⟨hw, fun o ho => ⟨v, hb, by rw [hl]; cases ho; rfl⟩⟩
      | some found =>
        obtain ⟨c, run⟩ := found
        refine post_ofExcept_seq (fun p hp => ⟨hw, fun o ho => ⟨v, hb, ?_⟩⟩) fun e _ =>
          ⟨hw, fun _ ho => by cases ho⟩
        rw [hl]
        cases ho
        refine ⟨p, rfl, ?_⟩
        cases hv : c.validPublication run with
        | ok p' =>
          rw [hv] at hp
          cases hp
          rfl
        | error e =>
          rw [hv] at hp
          cases hp

/-- The verdict is that of the evidence, and only with evidence may the run succeed. -/
theorem resolve_rests {reporting : Reporting} {runs : Runs} (hr : w.reporting = reporting)
    (hv : ∀ view ∈ w.views, view = runs) (hb : ∀ v, w.business = some v → v = reporting) :
    Post (resolveUncertainPublication f r) (fun res w' =>
      w'.reporting = reporting ∧ (∀ view ∈ w'.views, Moves r (Evidence r reporting) runs view) ∧ ∀ a,
        res = .ok a → (a = r.recognized ∧ Evidence r reporting) ∨
        (a = r.inconclusive ∧ ¬Evidence r reporting)) w := by
  have hviewed : Viewed (Moves r (Evidence r reporting) runs) reporting w.attempts w :=
    ⟨hr, rfl, fun view hview run => Or.inl (by rw [hv view hview])⟩
  refine post_seq latest_reads (fun o w₁ ⟨⟨trace, hw⟩, ho⟩ => ?_) fun e w₁ ⟨⟨trace, hw⟩, _⟩ => ?_
  · subst hw
    have hviewed₁ : Viewed (Moves r (Evidence r reporting) runs) reporting w.attempts { w with trace } :=
      hviewed.same rfl rfl fun _ h => h
    obtain ⟨v, hwv, hmatch⟩ := ho o rfl
    obtain rfl := hb v hwv
    have hiff : o.any r.recognizes = true ↔ Evidence r v := by
      unfold Evidence
      cases hl : v.latestValid r.weekStart with
      | none =>
        rw [hl] at hmatch
        simp [show o = none from hmatch]
      | some found =>
        obtain ⟨c, run⟩ := found
        rw [hl] at hmatch
        obtain ⟨p, rfl, hp⟩ := hmatch
        rw [Option.any_some]
        refine ⟨fun h => ⟨c, run, p, rfl, hp, h⟩, ?_⟩
        rintro ⟨c', run', p', hfound, hp', hrec⟩
        cases hfound
        rw [hp] at hp'
        cases hp'
        exact hrec
    split
    · rename_i hany
      have hevidence := hiff.1 hany
      refine post_seq (maintains_persistRecovery (fun hpersist row hrow =>
        replaces_moves hpersist (Or.inr ⟨hrow, hevidence⟩)) _ _ _ hviewed₁) (fun _ w₂ h₂ => ?_)
          fun e w₂ h₂ => ?_
      · exact ⟨h₂.reporting, h₂.each, fun a ha => Or.inl ⟨by cases ha; rfl, hevidence⟩⟩
      · exact ⟨h₂.reporting, h₂.each, fun _ ha => by cases ha⟩
    · rename_i hany
      have hnone : ¬Evidence r v := fun h => hany (hiff.2 h)
      refine post_seq (maintains_observeInconclusive (fun hpersist row hrow =>
        replaces_moves hpersist (Or.inl hrow)) _ _ _ hviewed₁) (fun _ w₂ h₂ => ?_) fun e w₂ h₂ => ?_
      · exact ⟨h₂.reporting, h₂.each, fun a ha => Or.inr ⟨by cases ha; rfl, hnone⟩⟩
      · exact ⟨h₂.reporting, h₂.each, fun _ ha => by cases ha⟩
  · subst hw
    exact ⟨hr, fun view hview run => Or.inl (by rw [hv view hview]), fun _ ha => by cases ha⟩

end Changes

/-! ## What the pointer says -/

/-- The last committed publication of a week. -/
def Ledger.last (s : Ledger) (weekStart : Int) : Option Request :=
  s.commits.reverse.find? fun q => q.weekStart = weekStart

/-- The row says what `q` published. -/
structure WeekControl.PointsTo (c : WeekControl) (q : Request) : Prop where
  run : c.lastValidPublicationRunId = some q.runId
  time : c.lastValidPublishedAt = some q.now
  rows : c.publishedRowCount = some (q.aggregates.length : Int)
  fingerprint : c.dependencyFingerprint = q.dependencyFingerprint
  rules : c.rulesVersion = q.rulesVersion

/-- The control row of a week whose last publication is `last`. -/
def PointsAt (v : Reporting) (weekStart : Int) : Option Request → Prop
  | none => v.pointer weekStart = none
  | some q => weekday weekStart = 0 ∧ ∃ c, v.control weekStart = some c ∧ c.PointsTo q

/-- Every week points to its last publication, in rows that the table allows. -/
structure Ledger.Points (s : Ledger) : Prop where
  at_last : ∀ weekStart, PointsAt s.store.world.reporting weekStart (s.last weekStart)
  constrained : s.store.world.reporting.Constrained

theorem Ledger.Points.empty : Ledger.Points ⟨.empty, []⟩ where
  at_last _ := rfl
  constrained _ _ h := by cases h

/-- Neither the rows of the business nor the commits changed. -/
theorem Ledger.Points.same {s s' : Ledger} (h : s.Points)
    (hr : s'.store.world.reporting = s.store.world.reporting)
    (hc : s'.commits = s.commits) : s'.Points := by
  refine ⟨fun weekStart => ?_, hr ▸ h.constrained⟩
  have hlast : s'.last weekStart = s.last weekStart := by rw [Ledger.last, Ledger.last, hc]
  rw [hlast, hr]
  exact h.at_last weekStart

theorem last_append (s : Ledger) (store : Store) (q : Request) (weekStart : Int) :
    Ledger.last ⟨store, s.commits ++ [q]⟩ weekStart =
      if q.weekStart = weekStart then some q else s.last weekStart := by
  unfold Ledger.last
  rw [List.reverse_append, List.reverse_singleton, List.singleton_append, List.find?_cons]
  by_cases hweek : q.weekStart = weekStart <;> simp [hweek]

/-- The lease writes leave what the row says of a publication alone. -/
theorem LeaseChange.pointsTo {weekStart : Int} {before : WeekControl} {after : WeekControl} {q : Request}
    (h : LeaseChange weekStart (some before) after) (hb : before.PointsTo q) : after.PointsTo q := by
  cases h <;> exact ⟨hb.run, hb.time, hb.rows, hb.fingerprint, hb.rules⟩

theorem PointsAt.lease {v : Reporting} {weekStart : Int} {row : WeekControl} {last : Option Request}
    (w : Int) (h : PointsAt v w last) (hl : LeaseChange weekStart (v.control weekStart) row) :
    PointsAt { v with control := Function.update v.control weekStart (some row) } w last := by
  by_cases hw : w = weekStart
  · subst hw
    cases last with
    | none =>
      have hp : row.lastValidPublicationRunId = v.pointer w := hl.pointer.1
      unfold PointsAt Reporting.pointer
      dsimp only
      rw [Function.update_self, Option.bind_some, hp]
      exact h
    | some q =>
      obtain ⟨hmonday, c, hc, hpoints⟩ := h
      rw [hc] at hl
      exact ⟨hmonday, row, Function.update_self .., hl.pointsTo hpoints⟩
  · have hsame : Function.update v.control weekStart (some row) w = v.control w :=
      Function.update_of_ne hw ..
    cases last with
    | none =>
      unfold PointsAt Reporting.pointer
      dsimp only
      rw [hsame]
      exact h
    | some q =>
      obtain ⟨hmonday, c, hc, hpoints⟩ := h
      exact ⟨hmonday, c, hsame.trans hc, hpoints⟩

/-- A call that committed nothing changed neither the rows of the business nor the commits. -/
theorem publish_uncommitted {s : Store} {f : Faults} {q : Request}
    (h : publications q (publishWeeklyBusinessReport f q s.world.begin).2 = []) :
    (s.publish f q).world.reporting = s.world.reporting := by
  rcases publish_outcome f q s.world with ⟨hu, -⟩ | ⟨attempt, ht, -⟩
  · exact hu.reporting
  · have hreporting := ht.idle.reporting
    cases he : attempt.effect with
    | true => simp [publications, ht.idle.attempts, he] at h
    | false =>
      rw [he] at hreporting
      exact hreporting

/-- A transaction that commits no publication. -/
theorem Ledger.Points.other {s : Ledger} {store : Store} (h : s.Points) (hs : Step s.store store)
    (hh : store.history = s.store.history) (hc : store.world.reporting.Constrained) :
    Ledger.Points { s with store } := by
  cases hs with
  | publish f q =>
    refine h.same (publish_uncommitted ?_) rfl
    have hh : s.store.history ++ publications q (publishWeeklyBusinessReport f q s.store.world.begin).2 =
        s.store.history := hh
    exact List.append_right_eq_self.1 hh
  | createRun run row hnone => exact h.same rfl rfl
  | updateRun run u row row' hrow happly => exact h.same rfl rfl
  | observeRun run r stage code message row row' hrow hobserved => exact h.same rfl rfl
  | lease weekStart row hl => exact ⟨fun w => PointsAt.lease w (h.at_last w) hl, hc⟩
  | connect unusable => exact h.same rfl rfl

/-- A row is replaced by one that the table allows. -/
theorem Reporting.Constrained.update {v v' : Reporting} (h : v.Constrained) {weekStart : Int}
    {row : WeekControl}
    (hv : v'.control = Function.update v.control weekStart (some row)) (hcheck : row.check = true)
    (hcount : ∀ n, row.publishedRowCount = some n → 0 ≤ n ∧ n ≤ postgresIntegerMax) : v'.Constrained := by
  intro w c hc
  rw [hv] at hc
  by_cases hw : w = weekStart
  · rw [hw, Function.update_self] at hc
    cases hc
    exact ⟨hcheck, hcount⟩
  · rw [Function.update_of_ne hw] at hc
    exact h w c hc

/-- A publication with a number of rows that the column can hold leaves rows that the table allows. -/
theorem Reporting.Constrained.publish {s : Ledger} {f : Faults} {q : Request}
    (h : s.store.world.reporting.Constrained) (hrows : (q.aggregates.length : Int) ≤ postgresIntegerMax) :
    (s.publish f q).store.world.reporting.Constrained := by
  rcases publish_outcome f q s.store.world with ⟨hu, -⟩ | ⟨attempt, ht, -⟩
  · rw [show (s.publish f q).store.world.reporting = s.store.world.reporting from hu.reporting]
    exact h
  · rw [show (s.publish f q).store.world.reporting = _ from ht.idle.reporting]
    split
    · obtain ⟨lease, c, -, hc, -, hcontrol⟩ := ht.publishes.control
      have hcheck := (h _ _ hc).1
      refine h.update hcontrol ?_ ?_
      · simp only [WeekControl.check, Bool.and_eq_true, decide_eq_true_eq] at hcheck
        simp [WeekControl.check, WeekControl.release, WeekControl.record, hcheck.1.1.1.1, hcheck.1.1.1.2]
      · intro n hn
        obtain rfl : (q.aggregates.length : Int) = n := Option.some.inj hn
        omega
    · exact h

theorem Ledger.Points.publish {s : Ledger} (h : s.Points) (f : Faults) (q : Request)
    (hc : (s.publish f q).store.world.reporting.Constrained) : (s.publish f q).Points := by
  rcases publish_outcome f q s.store.world with ⟨hu, -⟩ | ⟨attempt, ht, -⟩
  · refine h.same hu.reporting ?_
    simp [Ledger.publish, commitsOf, hu.attempts]
  · have hattempts := ht.idle.attempts
    cases he : attempt.effect with
    | false =>
      have hreporting := ht.idle.reporting
      rw [he] at hreporting
      refine h.same hreporting ?_
      simp [Ledger.publish, commitsOf, hattempts, he]
    | true =>
      have hone : (s.publish f q).commits = s.commits ++ [q] :=
        by simp [Ledger.publish, commitsOf, hattempts, he]
      have hview : (s.publish f q).store.world.reporting = attempt.view := by
        have hreporting := ht.idle.reporting
        rw [he] at hreporting
        exact hreporting
      obtain ⟨lease, c, -, -, -, hcontrol⟩ := ht.publishes.control
      refine ⟨fun w => ?_, hc⟩
      have hlast : (s.publish f q).last w = if q.weekStart = w then some q else s.last w := by
        have happend := last_append s (s.publish f q).store q w
        rw [← hone] at happend
        exact happend
      rw [hlast, hview]
      by_cases hw : q.weekStart = w
      · subst hw
        rw [if_pos rfl]
        refine ⟨ht.publishes.batch.monday,
          (c.record q.runId ⟨q.now, q.aggregates.length, q.dependencyFingerprint,
            q.rulesVersion⟩).release, ?_, ⟨rfl, rfl, rfl, rfl, rfl⟩⟩
        rw [hcontrol]
        exact Function.update_self ..
      · rw [if_neg hw]
        have hsame : attempt.view.control w = s.store.world.reporting.control w := by
          rw [hcontrol]
          exact Function.update_of_ne (Ne.symm hw) ..
        have hat := h.at_last w
        cases hl : s.last w with
        | none =>
          rw [hl] at hat
          unfold PointsAt Reporting.pointer at hat ⊢
          rw [hsame]
          exact hat
        | some last =>
          rw [hl] at hat
          obtain ⟨hmonday, c', hc', hpoints⟩ := hat
          exact ⟨hmonday, c', hsame.trans hc', hpoints⟩

theorem Ledger.Points.resolve {s : Ledger} (h : s.Points) (f : Faults) (r : Recovery)
    (reading operational : Bool) : (s.resolve f r reading operational).Points := by
  refine h.same ?_ rfl
  have hviewed : Viewed (fun _ => True) s.store.world.reporting []
      (s.store.world.resume reading operational) :=
    ⟨rfl, rfl, fun _ _ => trivial⟩
  exact (maintains_resolve f r (fun _ _ _ _ _ _ => trivial) _ _ _ hviewed).reporting

theorem LedgerStep.points {s s' : Ledger} (h : s.Points) (hs : LedgerStep s s') : s'.Points := by
  cases hs with
  | publish f q hc => exact h.publish f q hc
  | resolve f r reading operational => exact h.resolve f r reading operational
  | other hs hh hc => exact h.other hs hh hc

theorem Ledger.Reachable.points {s : Ledger} (h : s.Reachable) : s.Points := by
  induction h with
  | empty => exact .empty
  | step _ hs ih => exact hs.points ih

/-! ## The verdict -/

/-- The recovery asks for the publication of `q`: by its week, its run, its fingerprint and its
rules version. -/
structure Recovery.Asks (r : Recovery) (q : Request) : Prop where
  week : q.weekStart = r.weekStart
  run : q.runId = r.runId
  fingerprint : q.dependencyFingerprint = some r.dependencyFingerprint
  rules : q.rulesVersion = some r.rulesVersion
  rows : ∀ n, r.publishedRowCount = some n → n = (q.aggregates.length : Int)

/-- The publication that the recovery asks for was committed, and no later one of the week. -/
def Ledger.Stands (s : Ledger) (r : Recovery) (q : Request) : Prop :=
  r.Asks q ∧ ∃ before after, s.commits = before ++ q :: after ∧ ∀ q' ∈ after, q'.weekStart ≠ q.weekStart

theorem last_eq_some {s : Ledger} {weekStart : Int} {q : Request} : s.last weekStart = some q ↔
    q.weekStart = weekStart ∧ ∃ before after, s.commits = before ++ q :: after ∧ ∀ q' ∈ after,
      q'.weekStart ≠ weekStart := by
  unfold Ledger.last
  rw [List.find?_eq_some_iff_append]
  simp only [decide_eq_true_eq, Bool.not_eq_true', decide_eq_false_iff_not]
  refine and_congr_right fun _ => ⟨?_, ?_⟩
  · rintro ⟨newer, older, hsplit, hnewer⟩
    refine ⟨older.reverse, newer.reverse, ?_, fun q' hq' => hnewer q' (List.mem_reverse.1 hq')⟩
    rw [← List.reverse_inj, hsplit]
    simp
  · rintro ⟨before, after, hsplit, hafter⟩
    refine ⟨after.reverse, before.reverse,
      by simp [hsplit], fun q' hq' => hafter q' (List.mem_reverse.1 hq')⟩

/-- A row that the table allows and that says what `q` published can be read. -/
theorem WeekControl.PointsTo.valid {c : WeekControl} {q : Request} (h : c.PointsTo q)
    (hcheck : c.check = true)
    (hcount : ∀ n, c.publishedRowCount = some n → 0 ≤ n ∧ n ≤ postgresIntegerMax) :
    c.validPublication q.runId = .ok ⟨c.weekStart, q.runId, q.now, q.aggregates.length,
      q.dependencyFingerprint, q.rulesVersion, c.fencingToken⟩ := by
  have hbounds := hcount _ h.rows
  have htoken : storedToken c.fencingToken = .ok c.fencingToken := by
    simp only [WeekControl.check, Bool.and_eq_true, decide_eq_true_eq] at hcheck
    refine if_neg ?_
    omega
  unfold WeekControl.validPublication
  rw [h.time, h.rows, h.fingerprint, h.rules, count_eq_ok hbounds.1 hbounds.2, htoken]
  rfl

/-- The evidence is there if and only if the publication stands. -/
theorem Ledger.Points.evidence_iff {s : Ledger} (h : s.Points) {r : Recovery} :
    Evidence r s.store.world.reporting ↔ ∃ q, s.Stands r q := by
  have hat := h.at_last r.weekStart
  constructor
  · rintro ⟨c, run, p, hlatest, hvalid, hrec⟩
    obtain ⟨c', hc, hrun⟩ := Option.bind_eq_some_iff.1 hlatest
    obtain ⟨run', hrun', hpair⟩ := Option.map_eq_some_iff.1 hrun
    cases hpair
    cases hl : s.last r.weekStart with
    | none =>
      rw [hl] at hat
      unfold PointsAt Reporting.pointer at hat
      rw [hc, Option.bind_some, hrun'] at hat
      cases hat
    | some q =>
      rw [hl] at hat
      obtain ⟨-, c', hc', hpoints⟩ := hat
      obtain rfl : c = c' := Option.some.inj (hc.symm.trans hc')
      obtain rfl : run = q.runId := Option.some.inj (hrun'.symm.trans hpoints.run)
      obtain ⟨hcheck, hcount⟩ := h.constrained _ _ hc
      rw [hpoints.valid hcheck hcount] at hvalid
      cases hvalid
      simp only [Recovery.recognizes, Bool.and_eq_true, decide_eq_true_eq, Option.all_eq_true] at hrec
      obtain ⟨hweek, before, after, hsplit, hafter⟩ := last_eq_some.1 hl
      refine ⟨q, ⟨hweek, hrec.1.1.1, hrec.1.1.2, hrec.1.2, fun n hn => ?_⟩, before, after, hsplit,
        hweek ▸ hafter⟩
      have hrows := hrec.2 n hn
      exact hrows.symm
  · rintro ⟨q, hasks, before, after, hsplit, hafter⟩
    have hl : s.last r.weekStart = some q :=
      last_eq_some.2 ⟨hasks.week, before, after, hsplit, hasks.week ▸ hafter⟩
    rw [hl] at hat
    obtain ⟨-, c, hc, hpoints⟩ := hat
    obtain ⟨hcheck, hcount⟩ := h.constrained _ _ hc
    refine ⟨c, q.runId, _, ?_, hpoints.valid hcheck hcount, ?_⟩
    · rw [Reporting.latestValid, hc, Option.bind_some, hpoints.run]
      rfl
    · simp only [Recovery.recognizes, Bool.and_eq_true, decide_eq_true_eq, Option.all_eq_true]
      exact ⟨⟨⟨hasks.run, hasks.fingerprint⟩, hasks.rules⟩, fun n hn => (hasks.rows n hn).symm⟩

/-! ## A recovery that returns -/

section Returns

variable {f : Faults} {r : Recovery} {w : World}

/-- What a recovery needs to record what it found: nothing, or an operational connection that works,
with an open transaction, and a time that is not before the run. -/
def Recordable.recovery (f : Faults) (r : Recovery) (w : World) : Prop :=
  r.persist = false ∨ Healthy f ∧ r.operational = true ∧ w.operational = some w.runs ∧
    ∃ now, r.now = some now ∧ ∀ row, w.runs r.runId = some row → row.startedAt ≤ now

/-- `latest_valid_publication` returns the pointer that it reads. -/
theorem latest_gives {v : Reporting} {c : WeekControl} {run : Uuid} {p : ValidPublication}
    (hb : w.business = some v)
    (hs : f.raises .recordSelectControl = none) (hweek : weekday r.weekStart = 0)
    (hl : v.latestValid r.weekStart = some (c, run)) (hp : c.validPublication run = .ok p) :
    Post (latestValidPublication f r.weekStart) (Gives (some p) fun w' =>
        w' = w.note .recordSelectControl false) w := by
  have hview : ∀ w' : World, w'.business = some v → Post businessView (Gives v fun w'' => w'' = w') w' :=
    fun w' hw => post_businessView hw ⟨rfl, rfl⟩
  refine post_next (hview w hb) fun w₁ hw => ?_
  subst hw
  refine post_next (a := r.weekStart) (P := fun w' => w' = w₁) ⟨?_, rfl⟩ fun w₂ hw => ?_
  · show ((week r.weekStart).mapError Exc.runStore) = _
    unfold week
    rw [if_pos hweek]
    rfl
  · subst hw
    refine post_next (a := v.latestValid r.weekStart) (P := fun w' =>
        w' = w₂.note .recordSelectControl false) ?_ ?_
    · refine post_works hs (post_next (hview (w₂.note .recordSelectControl false) hb) fun w₃ hw => ?_)
      exact ⟨rfl, hw⟩
    · intro w₃ hw
      rw [hl]
      refine post_next (a := p) (P := fun w' => w' = w₃) ⟨?_, rfl⟩ fun w₄ hw' => ⟨rfl, hw'.trans hw⟩
      show (c.validPublication run).mapError Exc.runStore = _
      rw [hp]
      rfl

theorem recovered_apply {row : RunRecord} {now : Int} (hrunning : row.status = .running)
    (hstart : row.startedAt ≤ now) : ∃ row', (recoveredFinish.update now).apply row = .ok row' := by
  have hsound : recoveredFinish.Sound row now :=
    { expected := hrunning, step := by decide, terminal := rfl, start := hstart, stage := by decide
      failed := fun h => by cases h
      others := fun _ => rfl
      blocked := fun h => by cases h
      reason := fun v hv => by cases hv
      counts := ⟨rfl, rfl, rfl, rfl, rfl⟩ }
  exact hsound.wellformed.apply_isOk_iff.2 ⟨fun n hn => (by cases hn), fun v hv => (by cases hv)⟩

theorem persist_returns (h : Recordable.recovery f r w) :
    Post (persistRecovery f r) (fun res _ => ∃ u, res = .ok u) w := by
  unfold persistRecovery
  rcases h with hpersist | ⟨hf, hoperational, ho, now, hnow, hstart⟩
  · rw [hpersist]
    exact ⟨(), rfl⟩
  · split
    · rw [hoperational, hnow]
      dsimp only
      refine post_next (a := w.runs r.runId) (P := fun w' => w' = w.note .identify false) ?_ fun w₁ hw => ?_
      · refine post_next (operationalView_gives ho) fun w₂ hw => ?_
        subst hw
        refine post_works (hf.sites .identify (by decide)) (post_next (operationalView_gives ho)
          fun w₃ hw => ?_)
        exact ⟨rfl, hw⟩
      · subst hw
        split
        · rename_i hrunning
          obtain ⟨row, hrow, hstatus⟩ : ∃ row, w.runs r.runId = some row ∧ row.status = .running := by
            simpa [Option.any_eq_true] using hrunning
          obtain ⟨row', hrow'⟩ := recovered_apply hstatus (hstart row hrow)
          have hat : At (w.note .identify false) (r.request now) row row w.business [] (w.note .identify false) :=
            { reporting := rfl, attempts := rfl, business := rfl, unusable := fun _ => rfl, past := fun _ hstep => hstep
              trace := fun _ _ => List.not_mem_nil, run := hrow
              seen := fun v hv => by cases ho.symm.trans hv; exact hrow }
          exact post_mono (fun _ _ hr => ⟨(), hr.1⟩) (finishRun_gives hf (List.nil_subset _) hat hrow')
        · exact ⟨(), rfl⟩
    · exact ⟨(), rfl⟩

theorem resolve_returns {v : Reporting} (hb : w.business = some v)
    (hs : f.raises .recordSelectControl = none)
    (hweek : weekday r.weekStart = 0) (he : Evidence r v) (hr : Recordable.recovery f r w) :
    Post (resolveUncertainPublication f r) (fun res _ => res = .ok r.recognized) w := by
  obtain ⟨c, run, p, hl, hp, hrec⟩ := he
  refine post_next (latest_gives hb hs hweek hl hp) fun w₁ hw => ?_
  subst hw
  rw [if_pos (by rw [Option.any_some]; exact hrec)]
  refine post_seq (persist_returns hr) (fun _ _ _ => rfl) fun e _ h => ?_
  obtain ⟨u, hu⟩ := h
  cases hu

end Returns

/-- In every reachable ledger and for every recovery, whatever raises: the result tells of a
publication only if the one that was asked for was committed and still stands; then every result
does, and there is one when the reads work. The run history changes only as `Moves` allows, and the
rows of the business, the control row with its lease among them, do not. -/
theorem uncertain_recovery_exact {s : Ledger} (h : s.Reachable) (f : Faults) (r : Recovery)
    (reading operational : Bool) :
    let w := s.store.world.resume reading operational
    let out := resolveUncertainPublication f r w
    (∀ res, out.1 = .ok res → res.publicationRecorded = true → ∃ q, s.Stands r q) ∧
      (∀ q, s.Stands r q → (∀ res, out.1 = .ok res → res.businessPublicationValid = true) ∧
        (reading = true → f.raises .recordSelectControl = none → Recordable.recovery f r w →
        out.1 = .ok r.recognized)) ∧
      (∀ view ∈ out.2.views, Moves r (∃ q, s.Stands r q) s.store.world.runs view) ∧ out.2.reporting =
      s.store.world.reporting := by
  intro w out
  have hpoints := h.points
  have hviews : ∀ view ∈ w.views, view = s.store.world.runs := by
    intro view hview
    simp only [w, World.views, World.resume, List.mem_cons, Option.mem_toList] at hview
    rcases hview with hview | hview
    · exact hview
    · split at hview
      · exact (Option.some.inj hview).symm
      · cases hview
  have hbusiness : ∀ v, w.business = some v → v = s.store.world.reporting := by
    intro v hv
    simp only [w, World.resume] at hv
    split at hv
    · exact (Option.some.inj hv).symm
    · cases hv
  have hrests := @resolve_rests f r w s.store.world.reporting s.store.world.runs rfl hviews hbusiness
  rw [hpoints.evidence_iff] at hrests
  obtain ⟨hreporting, hmoves, hverdict⟩ := hrests
  refine ⟨fun res hres hrecorded => ?_, fun q hq => ⟨fun res hres => ?_, fun hreading hs hrecord =>
      ?_⟩, hmoves, hreporting⟩
  · rcases hverdict res hres with ⟨-, hq⟩ | ⟨rfl, -⟩
    · exact hq
    · cases hrecorded
  · rcases hverdict res hres with ⟨rfl, -⟩ | ⟨-, hnone⟩
    · rfl
    · exact absurd ⟨q, hq⟩ hnone
  · have hevidence := hpoints.evidence_iff.2 ⟨q, hq⟩
    have hweek : weekday r.weekStart = 0 := by
      obtain ⟨hasks, before, after, hsplit, hafter⟩ := hq
      have hat := hpoints.at_last r.weekStart
      rw [last_eq_some.2 ⟨hasks.week, before, after, hsplit, hasks.week ▸ hafter⟩] at hat
      exact hat.1
    refine resolve_returns ?_ hs hweek hevidence hrecord
    simp [w, World.resume, hreading]

/-! ## An example -/

/-- The connection is lost during the COMMIT, which takes effect. -/
def lostCommit : Faults where
  raises site := if site = .commit then some { cls := .operational, text := "connection reset" } else none
  takesEffect _ := true
  clock := 50

/-- The ledger in which the run of `exampleRequest` is pending and holds the lease of its week. -/
def exampleLedger : Ledger := ⟨exampleStore, []⟩

theorem exampleLedger_reachable : exampleLedger.Reachable := by
  have hempty : Store.empty.world.reporting.Constrained := fun _ _ h => by cases h
  have hcreated := Ledger.Reachable.empty.step (.other (.createRun _ (Uuid.ofNat 7) exampleRun rfl)
      rfl hempty)
  have hensured := hcreated.step
      (.other (.lease _ 4 _ .ensure) rfl (hempty.update rfl rfl fun n hn => by cases hn))
  refine hensured.step (.other (.lease _ 4 _ (.grant { weekStart := 4 } (Uuid.ofNat 7) 0 100)) rfl ?_)
  exact hensured.points.constrained.update rfl (by decide) fun n hn => by cases hn

/-- The recovery of the run of `exampleRequest`. -/
def exampleRecovery : Recovery where
  weekStart := 4
  runId := Uuid.ofNat 7
  dependencyFingerprint := "telemetry=1;movements=1;stockexit=1;rules=1"
  rulesVersion := "1"

/-- The COMMIT was lost but took effect, and the recovery finds out. -/
theorem uncertain_recovery_exact_lost : ∃ s : Ledger, s.Reachable ∧
    (resolveUncertainPublication { clock := 60 } exampleRecovery (s.store.world.resume true false)).1 =
      .ok exampleRecovery.recognized := by
  have hreach : (exampleLedger.publish lostCommit exampleRequest).Reachable :=
    exampleLedger_reachable.step
      (.publish _ _ _ (exampleLedger_reachable.points.constrained.publish (by decide)))
  have hone : ((publishWeeklyBusinessReport lostCommit exampleRequest
      exampleStore.world.begin).2.attempts.filter
      Attempt.effect).length = 1 := by decide +kernel
  have hcommits : (exampleLedger.publish lostCommit exampleRequest).commits = [] ++
      exampleRequest :: [] := by
    show [] ++ commitsOf exampleRequest (publishWeeklyBusinessReport lostCommit exampleRequest
      exampleStore.world.begin).2 = _
    rw [commitsOf, List.map_const', hone]
    rfl
  have hstands : (exampleLedger.publish lostCommit exampleRequest).Stands exampleRecovery exampleRequest :=
    ⟨⟨rfl, rfl, rfl, rfl, fun n hn => (by cases hn)⟩, [], [], hcommits, fun _ hq =>
        absurd hq List.not_mem_nil⟩
  exact ⟨_, hreach, ((uncertain_recovery_exact hreach _ _ true false).2.1 _ hstands).2 rfl rfl (Or.inl rfl)⟩

end TrackFlow.Pipelines
