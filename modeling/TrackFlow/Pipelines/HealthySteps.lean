import TrackFlow.Pipelines.Truthfulness

/-!
# The coordinator on healthy connections

The steps of a call when the operational connection and the rollbacks work (`Healthy`): `At` is the
state of the call between two steps, and each step is described exactly, with its result (`Gives`)
or with the exception that it raises (`Fails`).
-/

namespace TrackFlow.Pipelines

open TrackFlow.Python TrackFlow.Python.Raising

variable {α : Type} {f : Faults} {q : Request} {w₀ w : World} {row seen : RunRecord}
  {view : Option Reporting} {away : List Site}

/-! ## Healthy connections -/

/-- The sites of the operational connection, and the rollbacks of the business connection. -/
def healthySites : List Site :=
  [.identify, .markSelect, .markUpdate, .markCommit, .stageRollback, .rollback, .finishBegin,
    .finishSelect, .finishUpdate, .finishCommit, .observeBegin, .observeSelect, .observeUpdate,
    .observeCommit]

/-- The operational connection and the rollbacks work, what raises are database exceptions, and a
COMMIT whose failure is definite has not taken effect. -/
structure Healthy (f : Faults) : Prop where
  sites : ∀ site ∈ healthySites, f.raises site = none
  database : ∀ site e, f.raises site = some e → e.cls.database = true
  definite : ∀ e, f.raises .commit = some e → commitFailureIsUncertain e = false →
    f.takesEffect .commit = false

/-- The sites of the business connection. -/
def businessSites : List Site :=
  [.verify, .reconcile, .upsert, .stageRollback, .recordSelectRun, .recordEnsure, .recordSelectControl,
    .recordUpdate, .release, .commit, .rollback]

/-- Between two steps: the committed rows and the COMMITs are those of `w₀`, the business
transaction sees `view`, the run is `row`, the operational transaction, if there is one, sees it as
`seen`, and no site of `away` was passed. -/
structure At (w₀ : World) (q : Request) (row seen : RunRecord) (view : Option Reporting)
    (away : List Site) (w : World) :
    Prop where
  reporting : w.reporting = w₀.reporting
  attempts : w.attempts = w₀.attempts
  business : w.business = view
  unusable : view ≠ none → w.unusable = w₀.unusable
  past : ∀ step ∈ w₀.trace, step ∈ w.trace
  trace : ∀ step ∈ w.trace, step.1 ∉ away
  run : w.runs q.runId = some row
  seen : ∀ v, w.operational = some v → v q.runId = some seen

theorem At.note (h : At w₀ q row seen view away w) {site : Site} (hs : site ∉ away) (raised : Bool) :
    At w₀ q row seen view away (w.note site raised) := by
  refine ⟨h.reporting, h.attempts, h.business, h.unusable, fun step hstep => ?_, fun step hstep =>
      ?_, h.run, h.seen⟩
  · exact List.mem_append_left _ (h.past step hstep)
  · rcases List.mem_append.1 hstep with hstep | hstep
    · exact h.trace step hstep
    · rw [List.mem_singleton.1 hstep]
      exact hs

theorem At.setBusiness (h : At w₀ q row seen view away w) {v v' : Reporting} (hv : view = some v) :
    At w₀ q row seen (some v') away { w with business := some v' } :=
  ⟨h.reporting, h.attempts, rfl, fun _ => h.unusable (by simp [hv]), h.past, h.trace, h.run, h.seen⟩

section Steps

variable {Q : Except Exc α → World → Prop}

theorem post_works {wrap : Failure → Exc} {site : Site} {effect : Call α} (hs : f.raises site = none)
    (h : Post effect Q (w.note site false)) : Post (statement f wrap site effect) Q w :=
  post_statement (fun e he => by rw [hs] at he; cases he) fun _ => h

theorem post_fails {wrap : Failure → Exc} {site : Site} {effect : Call α} {e : Failure}
    (hs : f.raises site = some e)
    (h : Q (.error (wrap e)) (w.note site true)) : Post (statement f wrap site effect) Q w :=
  post_statement (fun e' he => by rw [hs] at he; cases he; exact h) fun he => by rw [hs] at he; cases he

/-- What is known after a step without an exception. -/
def Gives (a : α) (P : World → Prop) : Except Exc α → World → Prop := fun r w => r = .ok a ∧ P w

theorem post_next {β : Type} {m : Call α} {k : α → Call β} {a : α} {P : World → Prop}
    {Q : Except Exc β → World → Prop}
    (hm : Post m (Gives a P) w) (hk : ∀ w', P w' → Post (k a) Q w') : Post (m >>= k) Q w :=
  post_seq hm (fun _ w' h => by cases h.1; exact hk w' h.2) fun _ _ h => by cases h.1

/-- `m` raises. -/
def Fails (e : Exc) (P : World → Prop) : Except Exc α → World → Prop := fun r w => r = .error e ∧ P w

theorem post_stop {β : Type} {m : Call α} {k : α → Call β} {e : Exc} {P : World → Prop}
    {Q : Except Exc β → World → Prop}
    (hm : Post m (Fails e P) w) (hQ : ∀ w', P w' → Q (.error e) w') : Post (m >>= k) Q w :=
  post_seq hm (fun _ _ h => by cases h.1) fun _ w' h => by cases h.1; exact hQ w' h.2

theorem view_gives (h : At w₀ q row seen view away w) {v : Reporting} (hv : view = some v) :
    Post businessView (Gives v (At w₀ q row seen view away)) w :=
  post_businessView (h.business.trans hv) ⟨rfl, h⟩

/-! ## The operational connection -/

theorem operationalView_gives {v : Runs} (ho : w.operational = some v) :
    Post operationalView (Gives v fun w' => w' = w) w :=
  post_operationalView (fun v' hv' => by rw [ho] at hv'; cases hv'; exact ⟨rfl, rfl⟩) fun hn => by
    rw [ho] at hn; cases hn

theorem requireRun_gives (h : At w₀ q row seen view away w) {site : Site}
    (hs : f.raises site = none) (hc : site ∉ away)
    {v : Runs} (ho : w.operational = some v) :
    Post (requireRun f site q.runId) (Gives seen fun w' => At w₀ q row seen view away w' ∧
      w'.operational = some v) w := by
  refine post_next (a := some seen) (P := fun w' => At w₀ q row seen view away w' ∧
    w'.operational = some v) ?_ ?_
  · refine post_next (operationalView_gives ho) fun w₁ hw => ?_
    subst hw
    refine post_works hs (post_next (operationalView_gives ho) fun w₂ hw => ?_)
    subst hw
    exact ⟨congrArg Except.ok (h.seen v ho), h.note hc false, ho⟩
  · exact fun w₁ h₁ => ⟨rfl, h₁⟩

/-- `update_run` with an update that is refused. -/
theorem updateRun_fails (h : At w₀ q row seen view away w) {select update : Site}
    (hs : f.raises select = none) (hc : select ∉ away) {v : Runs} (ho : w.operational = some v)
    {u : RunUpdate} {e : CodedError} (hu : u.apply seen = .error e) :
    Post (updateRun f select update q.runId u) (Fails (.runStore e) (At w₀ q row seen view away)) w := by
  refine post_next (requireRun_gives h hs hc ho) fun w₁ h₁ => ?_
  refine post_stop (e := .runStore e) (P := At w₀ q row seen view away) ?_ fun w₂ h₂ => ⟨rfl, h₂⟩
  rw [hu]
  exact ⟨rfl, h₁.1⟩

theorem replaceRun_gives (h : At w₀ q row seen view away w) {v : Runs} (ho : w.operational = some v)
    {expected : RunStatus} (hs : seen.status = expected) {row' : RunRecord} {missing : CodedError} :
    Post (replaceRun q.runId expected row' missing)
      (Gives () fun w' => At w₀ q row row' view away w' ∧ w'.operational.isSome = true) w := by
  refine post_next (operationalView_gives ho) fun w₁ hw => ?_
  subst hw
  have hmatch : ((v q.runId).any fun current => decide (current.status = expected)) = true := by
    rw [h.seen v ho]
    simpa using hs
  rw [if_pos hmatch]
  refine post_modify ⟨rfl, ⟨h.reporting, h.attempts, h.business, h.unusable, h.past, h.trace, h.run,
    fun v' hv' => ?_⟩, rfl⟩
  cases hv'
  exact Function.update_self ..

/-- `update_run` with an update that is accepted. -/
theorem updateRun_gives (h : At w₀ q row seen view away w) {select update : Site}
    (hs : f.raises select = none)
    (hc : select ∉ away) (hs' : f.raises update = none) (hc' : update ∉ away) {v : Runs}
    (ho : w.operational = some v) {u : RunUpdate} {row' : RunRecord} (hu : u.apply seen = .ok row') :
    Post (updateRun f select update q.runId u)
      (Gives () fun w' => At w₀ q row row' view away w' ∧ w'.operational.isSome = true) w := by
  refine post_next (requireRun_gives h hs hc ho) fun w₁ ⟨h₁, ho₁⟩ => ?_
  refine post_next (a := row') (P := fun w' => w' = w₁) (by rw [hu]; exact ⟨rfl, rfl⟩) fun w₂ hw => ?_
  subst hw
  exact post_works hs' (replaceRun_gives (h₁.note hc' false) ho₁ (RunUpdate.apply_ok hu).1)

theorem commitOperational_gives (h : At w₀ q row seen view away w) {site : Site} (hs : f.raises site = none)
    (hc : site ∉ away) (ho : w.operational.isSome = true) :
    Post (commitOperational f site)
      (Gives () fun w' => At w₀ q seen seen view away w' ∧ w'.operational = none) w := by
  obtain ⟨v, hv⟩ := Option.isSome_iff_exists.1 ho
  refine post_tryCatch (P := Gives () fun w' => At w₀ q seen seen view away w' ∧ w'.operational = none)
    (post_commitAt (fun e he => by rw [hs] at he; cases he) fun _ => ⟨rfl, ?_, rfl⟩) (fun _ _ h =>
        h) fun _ _ h => by cases h.1
  have hruns : (w.endOperational true).runs q.runId = some seen := by
    simp only [World.endOperational, if_true, hv, Option.getD_some]
    exact h.seen v hv
  have h' : At w₀ q seen seen view away (w.endOperational true) :=
    ⟨h.reporting, h.attempts, h.business, h.unusable, h.past, h.trace, hruns, fun v' hv' => by cases hv'⟩
  exact h'.note hc false

/-- `_begin_operational_transaction`, when the run is as committed. -/
theorem beginOperational_gives (h : At w₀ q row row view away w) {site : Site} (hs : f.raises site = none)
    (hc : site ∉ away) :
    Post (beginOperationalTransaction f site)
      (Gives () fun w' => At w₀ q row row view away w' ∧ w'.operational.isSome = true) w := by
  refine post_next (a := w) (P := fun w' => w' = w) ⟨rfl, rfl⟩ fun w₁ hw => ?_
  subst hw
  split
  · refine post_works hs (post_modify ⟨rfl, ?_, rfl⟩)
    have h' := h.note hc false
    exact ⟨h'.reporting, h'.attempts, h'.business, h'.unusable, h'.past, h'.trace, h'.run,
      fun v hv => by cases hv; exact h'.run⟩
  case isFalse hsome =>
    have ho : w₁.operational.isSome = true := by simpa [Option.isSome_iff_ne_none] using hsome
    exact ⟨rfl, h, ho⟩

/-- The sites of the operational connection are not among those of the business connection. -/
theorem notMem_away (ha : away ⊆ businessSites) {site : Site} (hs : site ∉ businessSites) : site ∉ away :=
  fun hmem => hs (ha hmem)

/-- A run is finished by an update that is accepted. -/
theorem finishRun_gives (hf : Healthy f) (ha : away ⊆ businessSites) (h : At w₀ q row row view away w)
    {a : Finish} {row' : RunRecord} (hu : (a.update q.now).apply row = .ok row') :
    Post (finishRun f q a) (Gives () (At w₀ q row' row' view away)) w := by
  refine post_next (beginOperational_gives h (hf.sites .finishBegin (by decide))
    (notMem_away ha (by decide))) fun w₁ ⟨h₁, ho⟩ => ?_
  obtain ⟨v, hv⟩ := Option.isSome_iff_exists.1 ho
  refine post_next (updateRun_gives h₁ (hf.sites .finishSelect (by decide)) (notMem_away ha (by decide))
    (hf.sites .finishUpdate (by decide)) (notMem_away ha (by decide)) hv hu) fun w₂ ⟨h₂, ho⟩ => ?_
  exact post_mono (fun _ _ hr => ⟨hr.1, hr.2.1⟩)
    (commitOperational_gives h₂ (hf.sites .finishCommit (by decide)) (notMem_away ha (by decide)) ho)

/-- An update that is refused leaves the run as it was. -/
theorem finishRun_fails (hf : Healthy f) (ha : away ⊆ businessSites) (h : At w₀ q row row view away w)
    {a : Finish} {e : CodedError} (hu : (a.update q.now).apply row = .error e) :
    Post (finishRun f q a) (Fails (.runStore e) (At w₀ q row row view away)) w := by
  refine post_next (beginOperational_gives h (hf.sites .finishBegin (by decide))
    (notMem_away ha (by decide))) fun w₁ ⟨h₁, ho⟩ => ?_
  obtain ⟨v, hv⟩ := Option.isSome_iff_exists.1 ho
  exact post_stop (updateRun_fails h₁ (hf.sites .finishSelect (by decide)) (notMem_away ha (by decide)) hv
    hu) fun w₂ h₂ => ⟨rfl, h₂⟩

/-- The observation of a failed COMMIT leaves the run running. -/
theorem observeUncertain_gives (hf : Healthy f) (ha : away ⊆ businessSites)
    (h : At w₀ q row row view away w)
    (hrunning : row.status = .running) {r : CommitResult} (hr : r = .uncertain ∨ r = .rolledBack) :
    Post (observeUncertain f q r)
      (Gives () fun w' => ∃ row', row'.status = .running ∧ At w₀ q row' row' view away w') w := by
  refine post_next (beginOperational_gives h (hf.sites .observeBegin (by decide))
    (notMem_away ha (by decide))) fun w₁ ⟨h₁, ho⟩ => ?_
  obtain ⟨v, hv⟩ := Option.isSome_iff_exists.1 ho
  obtain ⟨row', hrow'⟩ : ∃ row', commitObservation row r "commit" "commit_uncertain"
      "business commit was not confirmed; writes were not retried" = .ok row' := by
    have hstage : label "commit" "stage_reached" = .ok "commit" := shortText_eq_ok (by decide)
    have hcode : label "commit_uncertain" "error_code" = .ok "commit_uncertain" :=
      shortText_eq_ok (by decide)
    have hmessage : optionalText (some "business commit was not confirmed; writes were not retried")
        "error_message" =
        .ok (some "business commit was not confirmed; writes were not retried") :=
      optionalText_eq_ok (by intro v hv; cases hv; decide)
    unfold commitObservation
    rw [hrunning, hstage, hcode, hmessage]
    exact ⟨_, rfl⟩
  have hrecord : Post (recordCommitObservation f q.runId r "commit" "commit_uncertain"
      "business commit was not confirmed; writes were not retried")
      (Gives () fun w' => At w₀ q row row' view away w' ∧ w'.operational.isSome = true) w₁ := by
    refine post_next (operationalView_gives hv) fun w₂ hw => ?_
    subst hw
    have hallowed : ¬r ∉ [CommitResult.uncertain, .uncommitted, .rolledBack] := by
      rcases hr with rfl | rfl <;> decide
    dsimp only
    rw [if_neg hallowed]
    refine post_next (requireRun_gives h₁ (hf.sites .observeSelect (by decide))
      (notMem_away ha (by decide)) hv) fun w₃ ⟨h₃, ho₃⟩ => ?_
    refine post_next (a := row') (P := fun w' => w' = w₃) (by rw [hrow']; exact ⟨rfl, rfl⟩) fun w₄ hw => ?_
    subst hw
    exact post_works (hf.sites .observeUpdate (by decide))
      (replaceRun_gives (h₃.note (notMem_away ha (by decide)) false) ho₃ hrunning)
  refine post_next hrecord fun w₂ ⟨h₂, ho₂⟩ => ?_
  exact post_mono (fun _ _ hr => ⟨hr.1, row', (commitObservation_ok hrow').1, hr.2.1⟩)
    (commitOperational_gives h₂ (hf.sites .observeCommit (by decide)) (notMem_away ha (by decide)) ho₂)

/-! ## Rollbacks -/

theorem rollbackBusiness_gives {site : Site} (hs : f.raises site = none) (hc : site ∉ away)
    (h : At w₀ q row seen view away w) :
    Post (rollbackBusiness f site) (Gives () fun w' => At w₀ q row seen none away w' ∧
      w'.operational = w.operational) w := by
  have h' := h.note hc false
  refine post_works hs (post_modify ⟨rfl, ?_, rfl⟩)
  exact ⟨h'.reporting, h'.attempts, rfl, fun hv => absurd rfl hv, h'.past, h'.trace, h'.run, h'.seen⟩

theorem releaseBusinessLock_gives (hf : Healthy f) (h : At w₀ q row seen view [.commit] w) :
    Post (releaseBusinessLock f) (Gives () (At w₀ q row seen none [.commit])) w :=
  post_tryCatch (rollbackBusiness_gives (hf.sites .rollback (by decide)) (by decide) h)
    (fun _ _ h => ⟨congrArg Except.ok rfl, h.2.1⟩) fun _ _ h => by cases h.1

theorem rollbackQuietly_gives (hf : Healthy f) (h : At w₀ q row seen view [.commit] w) :
    Post (rollbackQuietly f) (Gives true (At w₀ q row seen none [.commit])) w := by
  refine post_tryCatch (P := Gives true (At w₀ q row seen none [.commit])) ?_ (fun _ _ h => h) fun _
      _ h => by cases h.1
  exact post_next (rollbackBusiness_gives (hf.sites .stageRollback (by decide)) (by decide) h)
    fun w₁ h₁ => ⟨rfl, h₁.1⟩

/-! ## The lease -/

theorem At.weaken (h : At w₀ q row seen view away w) {away' : List Site} (ha : away' ⊆ away) :
    At w₀ q row seen view away' w :=
  ⟨h.reporting, h.attempts, h.business, h.unusable, h.past, fun step hstep hmem =>
      h.trace step hstep (ha hmem), h.run,
    h.seen⟩

theorem checked_gives {wrap : CodedError → Exc} {x : Except CodedError α} {a : α} {P : World → Prop}
    (hx : x = .ok a) (h : P w) : Post (checked wrap x) (Gives a P) w := by
  subst hx
  exact ⟨rfl, h⟩

/-- What `verify_week_lease` answers for the rows that the transaction sees. -/
def verification (f : Faults) (weekStart : Int) (run : Uuid) (token : Int) (v : Reporting) :
    LeaseDecision :=
  match v.control weekStart with
  | none => refusal weekStart run
  | some row => decision weekStart (if row.verifies run token f.clock then .verified else .rejected) run row true

/-- It is verified if and only if the row verifies. -/
theorem verification_leaseVerified {weekStart token : Int} {run : Uuid} {v : Reporting} :
    (verification f weekStart run token v).leaseVerified = true ↔
      ∃ c, v.control weekStart = some c ∧ c.verifies run token f.clock = true := by
  unfold verification
  cases v.control weekStart with
  | none => simp [refusal, LeaseDecision.leaseVerified]
  | some c =>
    by_cases hv : c.verifies run token f.clock = true
    · simp [decision, LeaseDecision.leaseVerified, hv]
    · simp [decision, LeaseDecision.leaseVerified, hv]

variable {v : Reporting} {weekStart token : Int} {run : Uuid}

/-- The checks before the statement of a lease call pass. -/
theorem lease_checks {β : Type} {k : Int → Call β} {Q : Except Exc β → World → Prop}
    (h : At w₀ q row seen (some v) away w)
    (hweek : weekday weekStart = 0) (htoken : 0 ≤ token) (hk : Post (k token) Q w) :
    Post (do
      let _ ← businessView
      let _ ← checked .runStore (week weekStart)
      let token ← checked .concurrency (checkToken token)
      k token) Q w := by
  refine post_next (a := v) (P := fun w' => w' = w) (post_businessView h.business ⟨rfl, rfl⟩) fun w₁
    hw => ?_
  subst hw
  refine post_next (checked_gives (P := fun w' => w' = w₁) (if_pos hweek) rfl) fun w₂ hw => ?_
  subst hw
  have hnot : ¬token < 0 := by omega
  refine post_next (checked_gives (P := fun w' => w' = w₂) (if_neg hnot) rfl) fun w₃ hw => ?_
  subst hw
  exact hk

theorem verify_gives (h : At w₀ q row seen (some v) away w) (hc : .verify ∉ away)
    (hweek : weekday weekStart = 0)
    (htoken : 0 ≤ token) (hs : f.raises .verify = none) :
    Post (verifyLeaseNow f weekStart run token) (Gives (verification f weekStart run token v) fun w' =>
      At w₀ q row seen (some v) away w' ∧ w'.operational = w.operational) w := by
  refine lease_checks h hweek htoken (post_next (a := v.control weekStart)
    (P := fun w' => At w₀ q row seen (some v) away w' ∧ w'.operational = w.operational) ?_ ?_)
  · have h' := h.note hc false
    exact post_works hs (post_next (a := v) (P := fun w' => w' = w.note .verify false)
      (post_businessView h'.business ⟨rfl, rfl⟩) fun w₁ hw => hw ▸ ⟨rfl, h', rfl⟩)
  · intro w₁ h₁
    unfold verification
    cases v.control weekStart with
    | none => exact ⟨rfl, h₁⟩
    | some c => exact ⟨rfl, h₁⟩

theorem verify_fails (h : At w₀ q row seen (some v) away w) (hc : .verify ∉ away)
    (hweek : weekday weekStart = 0) (htoken : 0 ≤ token) {e : Failure} (hs : f.raises .verify = some e) :
    Post (verifyLeaseNow f weekStart run token) (Fails (leaseError e) (At w₀ q row seen (some v) away)) w :=
  lease_checks h hweek htoken (post_stop (P := At w₀ q row seen (some v) away)
    (post_fails hs ⟨rfl, h.note hc true⟩) fun _ h₁ => ⟨rfl, h₁⟩)

/-- The release of the lease that the run holds. -/
theorem release_gives (h : At w₀ q row seen (some v) away w) (hc : .release ∉ away)
    (hweek : weekday weekStart = 0)
    (htoken : 0 ≤ token) (hs : f.raises .release = none) {c : WeekControl}
    (hrow : v.control weekStart = some c)
    (howned : c.owned run = true) (hfenced : c.fencingToken = token) :
    Post (releaseLeaseNow f weekStart run token) (fun r w' => (∃ d, r = .ok d ∧ d.status = .released) ∧
      ∃ v', At w₀ q row seen (some v') away w' ∧ v' =
        { v with control := Function.update v.control weekStart (some c.release) }) w := by
  refine lease_checks h hweek htoken ?_
  have h' := h.note hc false
  refine post_works hs (post_next (a := v) (P := fun w' => w' = w.note .release false)
    (post_businessView h'.business ⟨rfl, rfl⟩) fun w₁ hw => ?_)
  subst hw
  rw [hrow]
  dsimp only
  rw [if_pos (by simp [howned, hfenced])]
  exact ⟨⟨_, rfl, rfl⟩, _, h'.setBusiness rfl, rfl⟩

theorem release_fails (h : At w₀ q row seen (some v) away w) (hc : .release ∉ away)
    (hweek : weekday weekStart = 0)
    (htoken : 0 ≤ token) {e : Failure} (hs : f.raises .release = some e) :
    Post (releaseLeaseNow f weekStart run token) (Fails (leaseError e) (At w₀ q row seen (some v) away))
      w :=
  lease_checks h hweek htoken (post_fails hs ⟨rfl, h.note hc true⟩)

/-! ## The mark and the stage -/

/-- The update of `_mark_running` is accepted for a pending run. -/
theorem mark_apply (hs : row.status = .pending) :
    ∃ row', ({ expectedStatus := .pending, status := .running, stageReached := some "publish"
               commitResult := some .uncommitted } : RunUpdate).apply row = .ok row' ∧
      row'.status = .running ∧ row'.startedAt = row.startedAt ∧ row'.targetWeekStart =
        row.targetWeekStart := by
  have hstage : optionalLabel (some "publish") "stage_reached" = .ok (some "publish") :=
    optionalLabel_eq_ok (by intro v hv; cases hv; decide)
  refine ⟨{ row with
    status := .running, stageReached := some "publish", finishedAt := none, recordsProcessed := none
    aggregatesCalculated := none, rowsInserted := none, rowsUpdated := none
    rowsUnchanged := none, errorCode := none
    errorMessage := none, blockReason := none, commitResult := .uncommitted }, ?_, rfl, rfl, rfl⟩
  unfold RunUpdate.apply RunUpdate.check
  rw [hs, hstage]
  rfl

theorem markRunning_gives (hf : Healthy f) (h : At w₀ q row row view [.commit] w)
    (ho : w.operational.isSome = true)
    (hs : row.status = .pending) :
    Post (markRunning f q) (Gives () fun w' => ∃ row',
      (row'.status = .running ∧ row'.startedAt = row.startedAt ∧ row'.targetWeekStart =
        row.targetWeekStart) ∧ At w₀ q row' row' view [.commit] w') w := by
  obtain ⟨row', happly, hrow'⟩ := mark_apply hs
  obtain ⟨v, hv⟩ := Option.isSome_iff_exists.1 ho
  refine post_next (updateRun_gives h (hf.sites .markSelect (by decide)) (by decide)
    (hf.sites .markUpdate (by decide)) (by decide) hv happly) fun w₁ ⟨h₁, ho₁⟩ => ?_
  exact post_mono (fun _ _ hr => ⟨hr.1, row', hrow', hr.2.1⟩)
    (commitOperational_gives h₁ (hf.sites .markCommit (by decide)) (by decide) ho₁)

/-- A transaction is usable unless its connection was marked. -/
theorem transactionIssue_gives (h : At w₀ q row seen (some v) away w) :
    Post transactionIssue (Gives (if w₀.unusable then some
      { code := "transaction_aborted"
        message := "The transaction is aborted or unusable and cannot accept more statements" } else none)
      fun w' => w' = w) w := by
  refine post_next (a := w) (P := fun w' => w' = w) ⟨rfl, rfl⟩ fun w₁ hw => ?_
  subst hw
  rw [h.unusable (by simp), h.business]
  cases w₀.unusable with
  | true => exact ⟨rfl, rfl⟩
  | false => exact ⟨rfl, rfl⟩

/-- The rows of the week that the transaction sees. -/
def Reporting.rowsOf (v : Reporting) (weekStart : Int) : KpiTable :=
  v.kpis.filter fun row => row.weekStart = weekStart

variable {aggregates : List WeeklyAggregate}

theorem reconcile_gives (h : At w₀ q row seen (some v) [.commit] w) (hu : w₀.unusable = false)
    (hweek : weekday weekStart = 0) (hs : f.raises .reconcile = none) :
    Post (reconcileDisappearedKeys f weekStart aggregates)
      (Gives (reconcileRows weekStart aggregates (v.rowsOf weekStart))
        (At w₀ q row seen (some v) [.commit])) w := by
  unfold reconcileDisappearedKeys
  rw [show weekIssue weekStart = none from if_pos hweek]
  refine post_next (transactionIssue_gives h) fun w₁ hw => ?_
  subst hw
  rw [hu]
  refine post_attempt_seq (P := Gives (v.rowsOf weekStart) (At w₀ q row seen (some v) [.commit])) ?_ ?_
  · have h' := h.note (show .reconcile ∉ [Site.commit] by decide) false
    exact post_works hs (post_next (view_gives h' rfl) fun w₂ h₂ => ⟨rfl, h₂⟩)
  · rintro r w₂ ⟨rfl, h₂⟩
    exact ⟨rfl, h₂⟩

theorem reconcile_fails (h : At w₀ q row seen (some v) [.commit] w) (hu : w₀.unusable = false)
    (hweek : weekday weekStart = 0) {e : Failure} (hs : f.raises .reconcile = some e)
    (he : e.cls.database = true) :
    Post (reconcileDisappearedKeys f weekStart aggregates)
      (Gives { errors := [databaseIssue e "reconcile"] } (At w₀ q row seen (some v) [.commit])) w := by
  unfold reconcileDisappearedKeys
  rw [show weekIssue weekStart = none from if_pos hweek]
  refine post_next (transactionIssue_gives h) fun w₁ hw => ?_
  subst hw
  rw [hu]
  refine post_attempt_seq (P := Fails (.raised e) (At w₀ q row seen (some v) [.commit])) ?_ ?_
  · exact post_fails hs ⟨rfl, h.note (by decide) true⟩
  · rintro r w₂ ⟨rfl, h₂⟩
    simp only [he, if_true]
    exact ⟨rfl, h₂⟩

theorem upsert_gives (h : At w₀ q row seen (some v) [.commit] w) (hs : f.raises .upsert = none)
    {ordered : List WeeklyAggregate} {published : KpiTable} :
    Post (upsertBatch f ordered published) (fun r w' =>
      r = ((countsFromSnapshot ordered published (upsertAll v.kpis ordered).2).mapError fun text =>
        Exc.raised { cls := .valueError, text }) ∧
      At w₀ q row seen (some { v with kpis := (upsertAll v.kpis ordered).1 }) [.commit] w') w := by
  refine post_next (a := (upsertAll v.kpis ordered).2)
    (P := At w₀ q row seen (some { v with kpis := (upsertAll v.kpis ordered).1 }) [.commit]) ?_
      fun w₁ h₁ => ⟨rfl, h₁⟩
  have h' := h.note (show .upsert ∉ [Site.commit] by decide) false
  refine post_works hs (post_next (view_gives h' rfl) fun w₁ h₁ => ?_)
  exact post_next (a := ()) (P := At w₀ q row seen (some { v with kpis := (upsertAll v.kpis ordered).1 })
    [.commit]) ⟨rfl, h₁.setBusiness rfl⟩ fun w₂ h₂ => ⟨rfl, h₂⟩

/-- The handler of the UPSERT ends with one issue, and the transaction is rolled back. -/
theorem upsertFailed_gives (hf : Healthy f) (h : At w₀ q row seen view [.commit] w) {e : Failure}
    (he : e.cls.database = true ∨ e.cls = .valueError) :
    Post (upsertFailed f (.raised e)) (fun r w' => ∃ status, (status = .connectionError ∨
        status = .rolledBack) ∧
      r = .ok { status
                errors := [if e.cls.database then databaseIssue e "upsert"
                  else { code := "upsert_result_unreadable", message := e.text }]
                rollbackObserved := true } ∧ At w₀ q row seen none [.commit] w') w := by
  unfold upsertFailed
  dsimp only
  rw [if_pos (by
    rcases he with he | he
    · exact Or.inl he
    · exact Or.inr (by rw [he]; decide))]
  refine post_next (rollbackQuietly_gives hf h) fun w₁ h₁ => ?_
  unfold closeFailedTransaction
  split
  · exact ⟨.connectionError, Or.inl rfl, rfl, ⟨h₁.reporting, h₁.attempts, h₁.business, fun hv =>
        absurd rfl hv, h₁.past,
      h₁.trace, h₁.run, h₁.seen⟩⟩
  · exact ⟨.rolledBack, Or.inr rfl, rfl, h₁⟩

/-! ## The publication metadata -/

/-- The first failure of `record_valid_publication`; its arguments are validated before its last
statement. -/
def recordFailure (f : Faults) (p : Publication) : Option Failure :=
  match f.raises .recordSelectRun, f.raises .recordEnsure, f.raises .recordSelectControl, p.check with
  | some e, _, _, _ | none, some e, _, _ | none, none, some e, _ => some e
  | none, none, none, .ok _ => f.raises .recordUpdate
  | none, none, none, .error _ => none

theorem storeError_text {e : Failure} (he : e.cls.database = true) :
    (storeError e).text = e.text ∧ (storeError e).ordinary = true := by
  have hne : e.cls ≠ .interrupt := by
    intro h
    rw [h] at he
    cases he
  unfold storeError
  split
  · exact ⟨rfl, rfl⟩
  · exact ⟨rfl, by simpa [Exc.ordinary] using hne⟩

variable {p : Publication} {c : WeekControl}

/-- The failures of the statements before the arguments are validated. -/
def FailsEarly (f : Faults) (e : Failure) : Prop :=
  f.raises .recordSelectRun = some e ∨ f.raises .recordSelectRun = none ∧ f.raises .recordEnsure = some e ∨
    f.raises .recordSelectRun = none ∧ f.raises .recordEnsure = none ∧
      f.raises .recordSelectControl = some e

theorem FailsEarly.recordFailure {e : Failure} (h : FailsEarly f e) (p : Publication) :
    recordFailure f p = some e := by
  unfold Pipelines.recordFailure
  rcases h with h₁ | ⟨h₁, h₂⟩ | ⟨h₁, h₂, h₃⟩
  · rw [h₁]
  · rw [h₁, h₂]
  · rw [h₁, h₂, h₃]

theorem FailsEarly.database {e : Failure} (hf : Healthy f) (h : FailsEarly f e) :
    e.cls.database = true := by
  rcases h with h₁ | ⟨-, h₂⟩ | ⟨-, -, h₃⟩
  · exact hf.database _ _ h₁
  · exact hf.database _ _ h₂
  · exact hf.database _ _ h₃

/-- Where the arguments are validated. -/
theorem record_validated (h : At w₀ q row seen (some v) [.commit] w) (hweek : weekday weekStart = 0)
    (htarget : row.targetWeekStart = weekStart) (hc : v.control weekStart = some c)
    {Q : Except Exc Unit → World → Prop}
    (hfail : ∀ e w', FailsEarly f e → At w₀ q row seen (some v) [.commit] w' → Q (.error (storeError e)) w')
    (hok : f.raises .recordSelectRun = none → f.raises .recordEnsure = none → f.raises .recordSelectControl = none →
      ∀ w', At w₀ q row seen (some v) [.commit] w' → Post (do
        checked .runStore p.check
        let updated ← statement f storeError .recordUpdate do
          let view ← businessView
          setBusiness { view with
            control := Function.update view.control weekStart ((view.control weekStart).map (·.record q.runId p)) }
          return view.control weekStart
        if updated.isNone then raise (.runStore ⟨"control_not_found", "week control was not updated"⟩)) Q w') :
    Post (recordPublication f weekStart q.runId p) Q w := by
  refine post_next (view_gives h rfl) fun w₁ h₁ => ?_
  refine post_next (checked_gives (P := At w₀ q row seen (some v) [.commit]) (if_pos hweek) h₁)
    fun w₂ h₂ => ?_
  cases hselect : f.raises .recordSelectRun with
  | some e =>
    exact post_stop (P := At w₀ q row seen (some v) [.commit])
      (post_fails hselect ⟨rfl, h₂.note (by decide) true⟩) fun w₃ h₃ => hfail e w₃ (Or.inl hselect) h₃
  | none =>
    have h₂' := h₂.note (show .recordSelectRun ∉ [Site.commit] by decide) false
    refine post_next (a := some row) (P := At w₀ q row seen (some v) [.commit])
      (post_works hselect (post_next (a := w₂.note .recordSelectRun false)
        (P := fun w' => w' = w₂.note .recordSelectRun false) ⟨rfl, rfl⟩ fun w₃ hw => by subst hw; exact
        ⟨congrArg Except.ok h₂'.run, h₂'⟩)) fun w₃ h₃ => ?_
    dsimp only
    rw [if_neg (not_not.2 htarget)]
    cases hensure : f.raises .recordEnsure with
    | some e =>
      exact post_stop (P := At w₀ q row seen (some v) [.commit])
        (post_fails hensure ⟨rfl, h₃.note (by decide) true⟩) fun w₄ h₄ => hfail e w₄
        (Or.inr (Or.inl ⟨hselect, hensure⟩)) h₄
    | none =>
      refine post_next (a := ()) (P := At w₀ q row seen (some v) [.commit]) (post_works hensure
        (post_next (view_gives (h₃.note (by decide) false) rfl) fun w₄ h₄ => ?_)) fun w₄ h₄ => ?_
      · rw [hc]
        exact ⟨rfl, h₄⟩
      · cases hcontrol : f.raises .recordSelectControl with
        | some e =>
          exact post_stop (P := At w₀ q row seen (some v) [.commit])
            (post_fails hcontrol ⟨rfl, h₄.note (by decide) true⟩)
            fun w₅ h₅ => hfail e w₅ (Or.inr (Or.inr ⟨hselect, hensure, hcontrol⟩)) h₅
        | none =>
          refine post_next (a := some c) (P := At w₀ q row seen (some v) [.commit]) (post_works hcontrol
            (post_next (view_gives (h₄.note (by decide) false) rfl) fun w₅ h₅ =>
                ⟨congrArg Except.ok hc, h₅⟩))
            fun w₅ h₅ => ?_
          exact hok hselect hensure hcontrol w₅ h₅

/-- `record_valid_publication` fails where `recordFailure` says so. -/
theorem record_fails (hf : Healthy f) (h : At w₀ q row seen (some v) [.commit] w)
    (hweek : weekday weekStart = 0)
    (htarget : row.targetWeekStart = weekStart) (hc : v.control weekStart = some c) {e : Failure}
    (he : recordFailure f p = some e) :
    Post (recordPublication f weekStart q.runId p) (fun r w' => (∃ x, r = .error x ∧ x.text = e.text ∧ x.ordinary = true) ∧
      At w₀ q row seen (some v) [.commit] w') w := by
  refine record_validated h hweek htarget hc (fun e' w' hcases h' => ⟨⟨_, rfl, ?_⟩, h'⟩) fun h₁ h₂ h₃ w' h' => ?_
  · have hsame : e' = e := Option.some_inj.1 ((hcases.recordFailure p).symm.trans he)
    exact hsame ▸ storeError_text (hcases.database hf)
  · unfold recordFailure at he
    rw [h₁, h₂, h₃] at he
    cases hcheck : p.check with
    | error x =>
      rw [hcheck] at he
      cases he
    | ok u =>
      rw [hcheck] at he
      refine post_next (a := u) (P := At w₀ q row seen (some v) [.commit]) ⟨rfl, h'⟩ fun w₁ h₁ => ?_
      refine post_seq (P := fun r w' => r = .error (storeError e) ∧ At w₀ q row seen (some v) [.commit] w')
        (post_fails he ⟨rfl, h₁.note (by decide) true⟩) (fun _ _ hr => by cases hr.1) fun x w₂ hr => ?_
      cases hr.1
      exact ⟨⟨_, rfl, storeError_text (hf.database _ _ he)⟩, hr.2⟩

/-- It refuses arguments that do not pass their validators. -/
theorem record_refuses (h : At w₀ q row seen (some v) [.commit] w) (hweek : weekday weekStart = 0)
    (htarget : row.targetWeekStart = weekStart) (hc : v.control weekStart = some c)
    (hnone : recordFailure f p = none)
    {x : CodedError} (hx : p.check = .error x) :
    Post (recordPublication f weekStart q.runId p) (Fails (.runStore x) (At w₀ q row seen (some v) [.commit])) w := by
  refine record_validated h hweek htarget hc (fun e' w' hcases h' => ?_) fun _ _ _ w' h' => ?_
  · cases (hcases.recordFailure p).symm.trans hnone
  · rw [hx]
    exact post_stop (P := At w₀ q row seen (some v) [.commit]) ⟨rfl, h'⟩ fun w₁ h₁ => ⟨rfl, h₁⟩

/-- Otherwise it sets the pointer. -/
theorem record_gives (h : At w₀ q row seen (some v) [.commit] w) (hweek : weekday weekStart = 0)
    (htarget : row.targetWeekStart = weekStart) (hc : v.control weekStart = some c)
    (hnone : recordFailure f p = none)
    (hcheck : p.check = .ok ()) :
    Post (recordPublication f weekStart q.runId p)
      (Gives () (At w₀ q row seen
        (some { v with control := Function.update v.control weekStart (some (c.record q.runId p)) })
        [.commit])) w := by
  refine record_validated h hweek htarget hc (fun e' w' hcases h' => ?_) fun h₁ h₂ h₃ w' h' => ?_
  · cases (hcases.recordFailure p).symm.trans hnone
  · unfold recordFailure at hnone
    rw [h₁, h₂, h₃, hcheck] at hnone
    refine post_next (checked_gives (P := At w₀ q row seen (some v) [.commit]) hcheck h') fun w₁ h₁ => ?_
    refine post_next (a := some c)
      (P := At w₀ q row seen
        (some { v with control := Function.update v.control weekStart (some (c.record q.runId p)) })
        [.commit]) ?_ fun w₂ h₂ => ⟨rfl, h₂⟩
    refine post_works hnone (post_next (view_gives (h₁.note (by decide) false) rfl) fun w₂ h₂ => ?_)
    rw [hc]
    exact post_next (a := ())
      (P := At w₀ q row seen
        (some { v with control := Function.update v.control weekStart (some (c.record q.runId p)) })
        [.commit]) ⟨rfl, h₂.setBusiness rfl⟩ fun w₃ h₃ => ⟨rfl, h₃⟩

end Steps

end TrackFlow.Pipelines
