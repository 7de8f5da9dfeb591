import TrackFlow.TaskQueue.DispatchInvariant

/-!
# The transactions of the dispatch outbox

Each transaction keeps the invariant between any others: an acceptance writes three new rows, a relay
that closes its claim changes the row that it holds and then the task (`recordPublished_safe`,
`recordRefused_safe`), and a relay that claims first sweeps the rows that were abandoned or are
exhausted (`Swept`, `Swept.keeps`) and then takes one.

- `transaction_safe`: every transaction is safe between any others;
- `dispatch_outbox`: what holds in every committed state.
-/

namespace TrackFlow.TaskQueue.Dispatch

open TrackFlow.Python TrackFlow.Pipelines TrackFlow.ReadCommitted
open TrackFlow.Pipelines.Lifecycle (StoredRun)

variable {weekKey : Int → Int} {maxAttempts : Nat} {db db' : Db}

/-! ## Acceptance -/

section Acceptance

variable {runId : Uuid} {weekStart : Int}

/-- What `create_run` inserts. -/
theorem acceptedRun_statement {s : Lifecycle.Statement}
    (h : (acceptedRun runId weekStart).statement = .ok s) :
    ∃ row, s = .insert row none ∧ row.runId = runId ∧ row.targetWeekStart = weekStart := by
  unfold Lifecycle.CreateArgs.statement at h
  cases hweek : week (acceptedRun runId weekStart).targetWeekStart with
  | error e =>
    rw [hweek] at h
    cases h
  | ok w =>
    have hw : w = weekStart := by
      unfold week at hweek
      split at hweek
      · cases hweek
        rfl
      · cases hweek
    have hpipeline : label (acceptedRun runId weekStart).pipelineName "pipeline_name" =
        .ok "weekly_warehouse_client_performance" :=
      shortText_eq_ok (show Storable 128 "weekly_warehouse_client_performance" by decide)
    have htrigger : label (acceptedRun runId weekStart).triggerType "trigger_type" = .ok "http" :=
      shortText_eq_ok (show Storable 128 "http" by decide)
    have hstage : optionalLabel (acceptedRun runId weekStart).stageReached "stage_reached" =
        .ok (some "accepted") := optionalLabel_eq_ok fun v hv => by cases hv; decide
    rw [hweek, hpipeline, htrigger, hstage] at h
    cases h
    exact ⟨_, rfl, rfl, hw⟩

/-- No run is active in a week whose runs the statement did not find. -/
theorem idle_of_activeRun (h : activeRun weekStart db = none) (run : Uuid) : ¬Active db run weekStart := by
  rintro ⟨-, r, hr, hweek, hact⟩
  have hmem := (db.runs.mem_rows run r).2 hr
  simp only [activeRun, List.head?_eq_none_iff, List.map_eq_nil_iff, sortedBy_eq_nil,
    List.filter_eq_nil_iff] at h
  have := h (run, r) hmem
  simp [hweek, hact] at this

theorem stable_unused (runId : Uuid) :
    (rules weekKey maxAttempts).Stable fun L _ db => Lock.run runId ∈ L ∧ db.runs.get runId = none :=
  stable_locked _ _ fun _ _ _ hL ha h => ha.runs runId hL h

theorem wp_createRun {P : Set Lock → List Write → Db → Prop} {L : Set Lock}
    (hs : (rules weekKey maxAttempts).Stable P) (hp : P L [] db)
    (hweek : ∀ M own db', P M own db' → Lock.week (weekKey weekStart) ∈ M)
    {Q : Unit → Set Lock → List Write → Db → Prop}
    (h : ∀ M row db', P M [] db' → Lock.run row.runId ∈ M ∧ db'.runs.get row.runId = none →
      row.runId = runId → row.targetWeekStart = weekStart → Q () M [.run row] db') :
    (rules weekKey maxAttempts).wp (createRun (acceptedRun runId weekStart) .run) Q L [] db := by
  unfold createRun
  cases hstatement : (acceptedRun runId weekStart).statement with
  | error e => exact Rules.wp_fail e
  | ok s =>
    obtain ⟨row, rfl, hrun, hrow⟩ := acceptedRun_statement hstatement
    refine Rules.wp_bind (Rules.wp_query hs hp fun db₁ db₂ _ h₂ _ _ => ?_)
    refine Rules.wp_bind (Rules.wp_acquire hs h₂ fun db₃ h₃ => ?_)
    have hmem : Lock.run row.runId ∈ insert (Lock.run row.runId) L := Set.mem_insert _ _
    refine Rules.wp_put hs h₃ fun db₄ h₄ hI₄ hnew => ⟨?_, trivial, fun db₅ h₅ ha hI₅ => ?_⟩
    · rintro k (rfl | rfl)
      · exact hmem
      · exact hrow ▸ hweek _ _ _ h₄
    · have hnone : db₄.runs.get row.runId = none := by
        have hget : (db₄.runs.get row.runId).isNone = true := hnew
        rwa [Option.isNone_iff_eq_none] at hget
      exact h _ _ db₅ h₅ (unwritten (stable_unused row.runId) ⟨hmem, hnone⟩ ha hI₅) hrun hrow

theorem apply_run_tasks (row : StoredRun) : (db.apply (.run row)).tasks = db.tasks := by
  simp only [Db.apply]
  split <;> rfl

theorem apply_run_outbox (row : StoredRun) : (db.apply (.run row)).outbox = db.outbox := by
  simp only [Db.apply]
  split <;> rfl

theorem create_safe (args : Lifecycle.CreateArgs) (db : Db) :
    (rules weekKey maxAttempts).Safe (createRun args .create) ∅ [] db := by
  have hs := stable_own weekKey maxAttempts []
  unfold createRun
  cases args.statement with
  | error e => exact Rules.wp_fail e
  | ok s =>
    refine Rules.wp_bind (Rules.wp_query hs rfl fun db₁ db₂ _ h₂ _ _ => ?_)
    cases s.result _ none with
    | none => exact Rules.wp_fail _
    | some row =>
      refine Rules.wp_bind (Rules.wp_acquire hs h₂ fun db₃ h₃ => ?_)
      refine Rules.wp_put hs h₃ fun db₄ h₄ hI₄ _ => ⟨?_, trivial, fun db₅ h₅ _ hI₅ => ?_⟩
      · rintro k rfl
        exact Set.mem_insert _ _
      · exact h₄ ▸ hI₅.create row

variable (weekKey maxAttempts)

theorem accept_safe (weekStart : Int) (runId taskId : Uuid) (db : Db) :
    (rules weekKey maxAttempts).Safe
      (acceptAsyncTask weekKey weekStart runId taskId >>= fun _ => pure ()) ∅ [] db := by
  have hidle : (rules weekKey maxAttempts).Stable fun L _ db =>
      Lock.week (weekKey weekStart) ∈ L ∧ ∀ run, ¬Active db run weekStart :=
    stable_locked _ _ fun L a b hL ha h run hrun => h run (ha.weeks run weekStart hL hrun)
  have hnotask : (rules weekKey maxAttempts).Stable fun L _ db =>
      Lock.task taskId ∈ L ∧ db.tasks.get taskId = none :=
    stable_locked _ _ fun L a b hL ha h => ha.tasks taskId hL h
  have hnorow : (rules weekKey maxAttempts).Stable fun L _ db =>
      Lock.row taskId ∈ L ∧ db.outbox.get taskId = none :=
    stable_locked _ _ fun L a b hL ha h => (ha.rows taskId hL).trans h
  refine Rules.wp_bind (Rules.wp_bind (Rules.wp_acquire (stable_own _ _ []) rfl fun db₁ h₁ => ?_))
  have hweek : (rules weekKey maxAttempts).Stable fun L _ _ => Lock.week (weekKey weekStart) ∈ L :=
    ⟨fun h _ _ => h, fun hL h => hL h⟩
  have hmem : Lock.week (weekKey weekStart) ∈ insert (Lock.week (weekKey weekStart)) (∅ : Set Lock) :=
    Set.mem_insert _ _
  refine Rules.wp_bind (Rules.wp_query hweek hmem fun db₂ db₃ _ _ ha hI₃ => ?_)
  cases hrun : activeRun weekStart (tables.applyAll db₂ []) with
  | some existing =>
    refine Rules.wp_bind (Rules.wp_query (stable_own _ _ []) rfl fun db₄ db₅ _ h₅ _ _ => ?_)
    exact fun db₆ _ _ db₇ _ hI₇ => hI₇
  | none =>
    have hidle₃ := unwritten hidle ⟨hmem, fun run => idle_of_activeRun hrun run⟩ ha hI₃
    refine Rules.wp_bind (wp_createRun hidle hidle₃ (fun _ _ _ h => h.1) ?_)
    intro M row db₄ h₄ hunused hrowRun hrowWeek
    have hs₄ := hidle.and (stable_unused row.runId)
    refine Rules.wp_bind (Rules.wp_query hs₄ ⟨h₄, hunused⟩ fun db₅ db₆ _ h₆ _ _ => ?_)
    refine Rules.wp_bind (Rules.wp_acquire hs₄ h₆ fun db₇ h₇ => ?_)
    refine Rules.wp_bind (Rules.wp_put hs₄ h₇ fun db₈ h₈ hI₈ hnew =>
      ⟨by simp [rules, guard], trivial, fun db₉ h₉ ha₉ hI₉ => ?_⟩)
    have htask : db₈.tasks.get taskId = none := by
      simp only [tables, Schema.applyAll_cons, Schema.applyAll_nil, Db.accepts, apply_run_tasks,
        Bool.and_eq_true, Option.isNone_iff_eq_none] at hnew
      exact hnew.1.1.1
    have htask₉ := unwritten hnotask ⟨Set.mem_insert _ _, htask⟩ ha₉ hI₉
    have hs₉ := hs₄.and hnotask
    refine Rules.wp_bind (Rules.wp_query hs₉ ⟨h₉, htask₉⟩ fun db₁₀ db₁₁ _ h₁₁ _ _ => ?_)
    refine Rules.wp_bind (Rules.wp_acquire hs₉ h₁₁ fun db₁₂ h₁₂ => ?_)
    refine Rules.wp_bind (Rules.wp_put hs₉ h₁₂ fun db₁₃ h₁₃ hI₁₃ hnew =>
      ⟨by simp [rules, guard], trivial, fun db₁₄ h₁₄ ha₁₄ hI₁₄ => ?_⟩)
    have hrow : db₁₃.outbox.get taskId = none := by
      simp only [tables, Schema.applyAll_append, Schema.applyAll_cons, Schema.applyAll_nil, Db.accepts,
        Bool.and_eq_true, Option.isNone_iff_eq_none] at hnew
      rw [← apply_run_outbox row]
      exact hnew.1
    have hrow₁₄ := unwritten hnorow ⟨Set.mem_insert _ _, hrow⟩ ha₁₄ hI₁₄
    -- The three ids are still new, and the week is still idle, when the transaction commits.
    intro db₁₅ ha₁₅ hI₁₅ db' ha' hI'
    obtain ⟨⟨⟨⟨-, hidle'⟩, -, hrun'⟩, -, htask'⟩, -, hrow'⟩ :=
      unwritten (hs₉.and hnorow) ⟨h₁₄, hrow₁₄⟩ (ha₁₅.trans ha') hI'
    subst hrowWeek
    subst hrowRun
    show Inv maxAttempts (tables.applyAll db' [_, _, _])
    rw [apply_accept hrun']
    exact hI'.accept hrun' htask' hrow' hidle'

end Acceptance

/-! ## Statements on one row -/

section Statements

variable {α : Type} {P : Set Lock → List Write → Db → Prop} {Q : α → Set Lock → List Write → Db → Prop}
  {L : Set Lock} {own : List Write} {id : Uuid}

theorem stable_row (id : Uuid) (r : Row) :
    (rules weekKey maxAttempts).Stable fun L _ db => Lock.row id ∈ L ∧ db.outbox.get id = some r :=
  stable_locked _ _ fun _ _ _ hL ha h => (ha.rows id hL).trans h

/-- An `UPDATE` of one outbox row, as the first of its transaction: it matches nothing, or it writes
the row that it holds. -/
theorem wp_updateRow {matching : Row → Bool} {set : Int → Write} {f : Bool → Txn α}
    (hs : (rules weekKey maxAttempts).Stable P) (hp : P L [] db)
    (hguard : ∀ now, guard weekKey (set now) = {.row id})
    (hno : ∀ M db', P M [] db' → (∀ r, db'.outbox.get id = some r → matching r = false) →
      (rules weekKey maxAttempts).wp (f false) Q M [] db')
    (hyes : ∀ M db' r now, P M [] db' → Lock.row id ∈ M ∧ db'.outbox.get id = some r →
      matching r = true → (rules weekKey maxAttempts).wp (f true) Q M [set now] db') :
    (rules weekKey maxAttempts).wp (updateRow id matching set >>= f) Q L [] db := by
  have hunmatched : ∀ {o : Option Row}, ¬o.any matching = true →
      ∀ r, o = some r → matching r = false := by
    rintro o h r rfl
    simpa using h
  refine Rules.wp_bind (Rules.wp_bind (Rules.wp_query hs hp fun db₁ db₂ h₁ h₂ ha₂ hI₂ => ?_))
  split
  · refine Rules.wp_bind (Rules.wp_acquire hs h₂ fun db₃ h₃ => ?_)
    have hmem : Lock.row id ∈ insert (Lock.row id) L := Set.mem_insert _ _
    refine Rules.wp_bind (Rules.wp_query hs h₃ fun db₄ db₅ h₄ h₅ ha₅ hI₅ => ?_)
    have hsame : db₅.outbox.get id = db₄.outbox.get id := ha₅.rows id hmem
    refine Rules.wp_bind (Rules.wp_query (hs.and (stable_locked _ _
      (f := fun db => db.outbox.get id = db₄.outbox.get id)
      fun _ _ _ hL ha h => (ha.rows id hL).trans h)) ⟨h₅, hmem, hsame⟩ fun db₆ db₇ _ h₇ _ _ => ?_)
    split
    · rename_i hmatch
      obtain ⟨r, hr, hmatch⟩ := (Option.any_eq_true _ _).1 hmatch
      have hr₇ : db₇.outbox.get id = some r := h₇.2.2.trans hr
      refine Rules.wp_bind (Rules.wp_put (hs.and (stable_row id r)) ⟨h₇.1, hmem, hr₇⟩
        fun db₈ h₈ hI₈ _ => ⟨?_, trivial, fun db₉ h₉ _ _ => ?_⟩)
      · show guard weekKey (set _) ⊆ _
        rw [hguard]
        exact Set.singleton_subset_iff.2 hmem
      · exact fun db' ha' _ => Rules.wp_others (hyes _ db₉ r _ h₉.1 h₉.2 hmatch) ha'
    · rename_i hmatch
      refine fun db' ha' _ => Rules.wp_others (hno _ db₇ h₇.1 fun r hr => ?_) ha'
      exact hunmatched hmatch r (h₇.2.2.symm.trans hr)
  · rename_i hmatch
    exact fun db' ha' _ => Rules.wp_others (hno _ db₁ h₁ (hunmatched hmatch)) (ha₂.trans ha')

/-- An `UPDATE` of one task: it matches nothing, or it writes the task under its lock. -/
theorem wp_updateTask {matching : Task → Bool} {set : Write} {f : Unit → Txn α}
    (hs : (rules weekKey maxAttempts).Stable P) (hp : P L own db) (hguard : guard weekKey set = {.task id})
    (hno : ∀ M db', P M own db' →
      (∀ t, (tables.applyAll db' own).tasks.get id = some t → matching t = false) →
      (rules weekKey maxAttempts).wp (f ()) Q M own db')
    (hyes : ∀ M db', P M own db' → Lock.task id ∈ M →
      (rules weekKey maxAttempts).wp (f ()) Q M (own ++ [set]) db') :
    (rules weekKey maxAttempts).wp (updateTask id matching set >>= f) Q L own db := by
  have hunmatched : ∀ {o : Option Task}, ¬o.any matching = true →
      ∀ t, o = some t → matching t = false := by
    rintro o h t rfl
    simpa using h
  refine Rules.wp_bind (Rules.wp_bind (Rules.wp_query hs hp fun db₁ db₂ h₁ h₂ ha₂ hI₂ => ?_))
  split
  · refine Rules.wp_bind (Rules.wp_acquire hs h₂ fun db₃ h₃ => ?_)
    have hmem : Lock.task id ∈ insert (Lock.task id) L := Set.mem_insert _ _
    refine Rules.wp_bind (Rules.wp_query hs h₃ fun db₄ db₅ h₄ h₅ ha₅ hI₅ => ?_)
    split
    · refine Rules.wp_put hs h₅ fun db₆ h₆ hI₆ _ => ⟨?_, trivial, fun db₇ h₇ _ _ => hyes _ db₇ h₇ hmem⟩
      show guard weekKey set ⊆ _
      rw [hguard]
      exact Set.singleton_subset_iff.2 hmem
    · rename_i hmatch
      exact fun db' ha' _ => Rules.wp_others (hno _ db₄ h₄ (hunmatched hmatch)) (ha₅.trans ha')
  · rename_i hmatch
    exact fun db' ha' _ => Rules.wp_others (hno _ db₁ h₁ (hunmatched hmatch)) (ha₂.trans ha')

/-- An `UPDATE` of one task that is there, as the last of its transaction. -/
theorem safe_updateTask {set : Write} (hs : (rules weekKey maxAttempts).Stable P) (hp : P L own db)
    (hguard : guard weekKey set = {.task id})
    (hfound : ∀ M db', P M own db' → ∃ t, (tables.applyAll db' own).tasks.get id = some t)
    (hkeeps : ∀ M db', P M own db' → Inv maxAttempts db' →
      Inv maxAttempts (tables.applyAll db' (own ++ [set]))) :
    (rules weekKey maxAttempts).Safe (updateTask id (fun _ => true) set) L own db := by
  have hupdate :
      (rules weekKey maxAttempts).Safe (updateTask id (fun _ => true) set >>= pure) L own db := by
    refine wp_updateTask hs hp hguard (fun M db₁ h₁ hnone => ?_) fun M db₁ h₁ _ db' ha hI => ?_
    · obtain ⟨t, ht⟩ := hfound M db₁ h₁
      cases hnone t ht
    · exact hkeeps M db' (hs.others h₁ ha hI) hI
  rwa [bind_pure] at hupdate

end Statements

/-! ## The end of a claim -/

section Close

variable {L : Set Lock} {token : Uuid} {c : Claimed}

/-- A relay that has claimed a row and whose publisher has answered. -/
structure Closing (maxAttempts : Nat) (token : Uuid) (c : Claimed) (answer : Answer) (db : Db) : Prop where
  inv : Inv maxAttempts db
  claimed : db.claims.get token = some c
  answered : db.answers.get token = some answer

theorem closing_stable (answer : Answer) :
    (rules weekKey maxAttempts).Stable fun _ _ db => Closing maxAttempts token c answer db :=
  ⟨fun h ha hI => ⟨hI, ha.claims _ _ h.claimed, ha.answers _ _ h.answered⟩, fun _ h => h⟩

theorem closing_row_stable (answer : Answer) (r : Row) : (rules weekKey maxAttempts).Stable fun L _ db =>
    Closing maxAttempts token c answer db ∧ Lock.row c.taskId ∈ L ∧ db.outbox.get c.taskId = some r :=
  (closing_stable answer).and (stable_row c.taskId r)

theorem recordPublished_safe (h : Closing maxAttempts token c .returned db) :
    (rules weekKey maxAttempts).Safe (recordPublished token c) L [] db := by
  refine wp_updateRow (closing_stable .returned) h (fun _ => rfl) (fun M db₁ h₁ _ db' _ hI => hI)
    fun M db₁ r now h₁ hrow hheld => ?_
  refine safe_updateTask (closing_row_stable .returned r) ⟨h₁, hrow⟩ rfl (fun M db₂ h₂ => ?_)
    fun M db₂ h₂ hI => hI.acknowledge h₂.2.2 hheld h₂.1.answered
  obtain ⟨t, ht, -⟩ := h₂.1.inv.row h₂.2.2
  refine ⟨t, ?_⟩
  show (db₂.apply (.acknowledge c.taskId token now)).tasks.get c.taskId = some t
  rw [apply_acknowledge h₂.2.2 hheld]
  exact ht

/-- A claim at the last attempt that has lost its row: the row was given up. -/
theorem Closing.lost {code : String} {r : Row} (h : Closing maxAttempts token c (.raised code) db)
    (hr : db.outbox.get c.taskId = some r) (hlost : r.heldBy token = false)
    (hlast : maxAttempts ≤ c.publishAttempts) : r.status = .reconciliationRequired := by
  obtain ⟨t, ht, hok⟩ := h.inv.row hr
  rcases (hok.claims token c h.claimed rfl).2 hlast with hheld | hrec | ⟨-, hans⟩
  · rw [hlost] at hheld
    cases hheld
  · exact hrec
  · rw [h.answered] at hans
    cases hans

/-- A claim that has its row knows how often it was tried. -/
theorem Closing.attempts {answer : Answer} {r : Row} (h : Closing maxAttempts token c answer db)
    (hr : db.outbox.get c.taskId = some r) (hheld : r.heldBy token = true) :
    c.publishAttempts = r.publishAttempts := by
  obtain ⟨t, -, hok⟩ := h.inv.row hr
  obtain ⟨hstatus, lease, hlease, rfl⟩ := heldBy_iff.1 hheld
  obtain ⟨lease', c', hlease', hc', -, hatt⟩ := hok.held hstatus
  rw [hlease, Option.some.injEq] at hlease'
  subst hlease'
  rw [h.claimed, Option.some.injEq] at hc'
  exact hc' ▸ hatt

theorem recordRefused_safe {maxBackoffSeconds : Int} {code : String}
    (h : Closing maxAttempts token c (.raised code) db) :
    (rules weekKey maxAttempts).Safe (recordRefused maxAttempts maxBackoffSeconds token c code)
      L [] db := by
  refine wp_updateRow (closing_stable (.raised code)) h (fun _ => rfl) (fun M db₁ h₁ hno => ?_)
    fun M db₁ r now h₁ hrow hheld => ?_
  · -- The row is lost: what is left to write is what the task says already.
    split
    · rename_i hlast
      obtain ⟨r, hr⟩ := h₁.inv.claimed token c h₁.claimed
      have hgiven := h₁.lost hr (hno r hr) hlast
      have hkept := stable_kept weekKey maxAttempts (f := fun db => db.outbox.get c.taskId = some r)
        fun _ _ _ ha h => ha.closed _ _ h (Or.inr hgiven)
      refine safe_updateTask ((closing_stable (.raised code)).and hkept) ⟨h₁, hr⟩ rfl (fun M db₂ h₂ => ?_)
        fun M db₂ h₂ hI => hI.undispatch h₂.2 hgiven
      obtain ⟨t, ht, -⟩ := h₂.1.inv.row h₂.2
      exact ⟨t, ht⟩
    · exact fun db' _ hI => hI
  · rw [h₁.attempts hrow.2 hheld]
    have hs := @closing_row_stable weekKey maxAttempts token c (.raised code) r
    split
    · rename_i hlast
      refine safe_updateTask hs ⟨h₁, hrow⟩ rfl (fun M db₂ h₂ => ?_)
        fun M db₂ h₂ hI => hI.refuse_last h₂.2.2 hheld hlast
      obtain ⟨t, ht, -⟩ := h₂.1.inv.row h₂.2.2
      exact ⟨t, ht⟩
    · rename_i hleft
      intro db' ha hI
      have h' := unwritten hs ⟨h₁, hrow⟩ ha hI
      exact hI.refuse h'.2.2 hheld hleft

theorem closeClaim_safe (maxBackoffSeconds : Int) (token : Uuid) (hI : Inv maxAttempts db) :
    (rules weekKey maxAttempts).Safe (closeClaim maxAttempts maxBackoffSeconds token) L [] db := by
  have hs : (rules weekKey maxAttempts).Stable fun _ own db => own = [] ∧ Inv maxAttempts db :=
    ⟨fun h _ hI => ⟨h.1, hI⟩, fun _ h => h⟩
  have hidle : ∀ db, (rules weekKey maxAttempts).Safe (pure () : Txn Unit) L [] db := fun db db' _ hI => hI
  refine Rules.wp_bind (Rules.wp_query hs ⟨rfl, hI⟩ fun db₁ db₂ h₁ h₂ ha₂ hI₂ => ?_)
  cases hc : (tables.applyAll db₁ []).claims.get token with
  | none =>
    refine Rules.wp_bind (Rules.wp_query hs h₂ fun db₃ db₄ h₃ h₄ ha₄ hI₄ => ?_)
    exact hidle db₄
  | some c =>
    have hkept := hs.and (stable_kept weekKey maxAttempts (f := fun db => db.claims.get token = some c)
      fun _ _ _ ha h => ha.claims _ _ h)
    have hc₂ : db₂.claims.get token = some c := ha₂.claims _ _ hc
    refine Rules.wp_bind (Rules.wp_query hkept ⟨h₂, hc₂⟩ fun db₃ db₄ h₃ h₄ ha₄ hI₄ => ?_)
    cases hans : (tables.applyAll db₃ []).answers.get token with
    | none => exact hidle db₄
    | some answer =>
      have hclosing : Closing maxAttempts token c answer db₄ := ⟨hI₄, h₄.2, ha₄.answers _ _ hans⟩
      cases answer with
      | returned => exact recordPublished_safe hclosing
      | raised code => exact recordRefused_safe hclosing

end Close

/-! ## The sweep before a claim -/

/-- A write of the sweep, on a row that is locked. -/
inductive Sweeps (L : Set Lock) : Write → Prop
  | abandon {id : Uuid} {now : Int} : .row id ∈ L → Sweeps L (.abandon id now)
  | giveUp {id : Uuid} {m : Nat} : .row id ∈ L → Sweeps L (.giveUp id m)
  | undispatched {id : Uuid} : .row id ∈ L → Sweeps L (.undispatched id)

/-- What a write of the sweep makes of the row `id`. -/
def onRow (id : Uuid) (r : Row) : Write → Row
  | .abandon k now => if k = id ∧ r.expired now = true then r.abandoned else r
  | .giveUp k m => if k = id ∧ r.exhausted m = true then r.givenUp else r
  | _ => r

/-- The row `id` after the writes of the transaction. -/
def rowAfter (own : List Write) (id : Uuid) (r : Row) : Row := own.foldl (onRow id) r

/-- Whether the write gives the task up. -/
def Write.gives (id : Uuid) : Write → Bool
  | .undispatched k => k = id
  | _ => false

/-- Whether the transaction has given the task up. -/
def gives (own : List Write) (id : Uuid) : Bool := own.any (Write.gives id)

section Sweep

variable {L M : Set Lock} {own : List Write} {id : Uuid} {r r₀ : Row} {t : Task} {now : Int} {w : Write}

theorem Sweeps.mono (h : Sweeps L w) (hLM : L ⊆ M) : Sweeps M w := by
  cases h with
  | abandon h => exact .abandon (hLM h)
  | giveUp h => exact .giveUp (hLM h)
  | undispatched h => exact .undispatched (hLM h)

theorem rowAfter_append (own : List Write) (w : Write) (id : Uuid) (r : Row) :
    rowAfter (own ++ [w]) id r = onRow id (rowAfter own id r) w := by
  simp [rowAfter]

theorem gives_append (own : List Write) (w : Write) (id : Uuid) :
    gives (own ++ [w]) id = (gives own id || w.gives id) := by
  simp [gives]

/-- Rows that are not locked are as they were. -/
theorem rowAfter_unlocked (h : ∀ w ∈ own, Sweeps L w) (hL : .row id ∉ L) (r : Row) :
    rowAfter own id r = r := by
  induction own generalizing r with
  | nil => rfl
  | cons w own ih =>
    have hw : onRow id r w = r := by
      cases h w List.mem_cons_self with
      | @abandon k now hk =>
        have hne : ¬k = id := fun e => hL (e ▸ hk)
        simp [onRow, hne]
      | @giveUp k m hk =>
        have hne : ¬k = id := fun e => hL (e ▸ hk)
        simp [onRow, hne]
      | undispatched _ => rfl
    show rowAfter own id (onRow id r w) = r
    rw [hw]
    exact ih (fun v hv => h v (List.mem_cons_of_mem _ hv)) r

theorem gives_locked (h : ∀ w ∈ own, Sweeps L w) (hgives : gives own id = true) : .row id ∈ L := by
  obtain ⟨w, hw, hid⟩ := List.any_eq_true.1 hgives
  cases h w hw with
  | abandon _ => cases hid
  | giveUp _ => cases hid
  | @undispatched k hk =>
    have : k = id := by simpa [Write.gives] using hid
    exact this ▸ hk

/-- What the transaction sees after its sweep. -/
theorem sweep_outbox (h : ∀ w ∈ own, Sweeps L w) (id : Uuid) :
    (tables.applyAll db own).outbox.get id = (db.outbox.get id).map (rowAfter own id) := by
  induction own generalizing db with
  | nil => cases hr : db.outbox.get id <;> simp [hr, rowAfter]
  | cons w own ih =>
    have hw : (db.apply w).outbox.get id = (db.outbox.get id).map fun r => onRow id r w := by
      cases h w List.mem_cons_self with
      | @abandon k now _ =>
        rw [show (db.apply (.abandon k now)) = db.setRow k (·.expired now) Row.abandoned from rfl,
          get_setRow]
        by_cases hk : id = k
        · subst hk
          simp [onRow]
        · simp [onRow, hk, Ne.symm hk]
      | @giveUp k m _ =>
        rw [show (db.apply (.giveUp k m)) = db.setRow k (Row.exhausted m) Row.givenUp from rfl, get_setRow]
        by_cases hk : id = k
        · subst hk
          simp [onRow]
        · simp [onRow, hk, Ne.symm hk]
      | undispatched _ => simp [Db.apply, onRow]
    show (tables.applyAll (db.apply w) own).outbox.get id = _
    rw [ih fun v hv => h v (List.mem_cons_of_mem _ hv), hw, Option.map_map]
    rfl

theorem undispatched_twice (t : Task) : t.undispatched.undispatched = t.undispatched := rfl

theorem sweep_tasks (h : ∀ w ∈ own, Sweeps L w) (id : Uuid) :
    (tables.applyAll db own).tasks.get id =
      (db.tasks.get id).map fun t => if gives own id then t.undispatched else t := by
  induction own generalizing db with
  | nil => simp [gives]
  | cons w own ih =>
    have hw : (db.apply w).tasks.get id =
        (db.tasks.get id).map fun t => if w.gives id then t.undispatched else t := by
      cases h w List.mem_cons_self with
      | abandon _ => simp [Db.apply, Db.setRow, Write.gives]
      | giveUp _ => simp [Db.apply, Db.setRow, Write.gives]
      | @undispatched k _ =>
        show (db.tasks.modify k Task.undispatched).get id = _
        rw [Table.get_modify]
        by_cases hk : id = k
        · subst hk
          simp [Write.gives]
        · simp [Write.gives, hk, Ne.symm hk]
    show (tables.applyAll (db.apply w) own).tasks.get id = _
    rw [ih fun v hv => h v (List.mem_cons_of_mem _ hv), hw, Option.map_map]
    congr 1
    funext t
    simp only [Function.comp_apply, gives, List.any_cons]
    by_cases hone : w.gives id = true <;> by_cases hrest : own.any (Write.gives id) = true <;>
      simp [hone, hrest, undispatched_twice]

/-- The sweep leaves everything but the rows and the tasks. -/
theorem sweep_rest (h : ∀ w ∈ own, Sweeps L w) :
    (tables.applyAll db own).runs = db.runs ∧ (tables.applyAll db own).accepted = db.accepted ∧
      (tables.applyAll db own).claims = db.claims ∧ (tables.applyAll db own).answers = db.answers ∧
      (tables.applyAll db own).publications = db.publications := by
  induction own generalizing db with
  | nil => exact ⟨rfl, rfl, rfl, rfl, rfl⟩
  | cons w own ih =>
    have hrest := @ih (db.apply w) fun v hv => h v (List.mem_cons_of_mem _ hv)
    cases h w List.mem_cons_self with
    | abandon _ => exact hrest
    | giveUp _ => exact hrest
    | undispatched _ => exact hrest

/-- What the sweep may make of a row. -/
structure Moved (maxAttempts : Nat) (r₀ r : Row) : Prop where
  payload : r.payload = r₀.payload
  attempts : r.publishAttempts = r₀.publishAttempts
  relay : r.relay = r₀.relay
  status : r.status = r₀.status ∨
    (r₀.status = .publishing ∧ r.status = .publicationUncertain) ∨
    (r₀.status.dispatch = .pending ∧ r.status = .reconciliationRequired)

theorem Moved.refl (r : Row) : Moved maxAttempts r r := ⟨rfl, rfl, rfl, Or.inl rfl⟩

theorem Moved.abandon (h : Moved maxAttempts r₀ r) (hexp : r.expired now = true) :
    Moved maxAttempts r₀ r.abandoned := by
  have hs : r.status = .publishing := by
    simp only [Row.expired, Bool.and_eq_true, decide_eq_true_eq] at hexp
    exact hexp.1
  refine ⟨h.payload, h.attempts, h.relay, Or.inr (Or.inl ⟨?_, rfl⟩)⟩
  rcases h.status with hsame | ⟨-, hunc⟩ | ⟨-, hrec⟩
  · exact hsame.symm.trans hs
  · rw [hs] at hunc
    cases hunc
  · rw [hs] at hrec
    cases hrec

theorem Moved.giveUp {m : Nat} (h : Moved maxAttempts r₀ r) (hexh : r.exhausted m = true) :
    Moved maxAttempts r₀ r.givenUp := by
  have hwaiting : r.status.dispatch = .pending := by
    simp only [Row.exhausted, Row.waiting, List.mem_cons, List.not_mem_nil, or_false, Bool.and_eq_true,
      decide_eq_true_eq] at hexh
    rcases hexh.1 with hs | hs | hs <;> rw [hs] <;> rfl
  refine ⟨h.payload, h.attempts, h.relay, Or.inr (Or.inr ⟨?_, rfl⟩)⟩
  rcases h.status with hsame | ⟨hpub, -⟩ | ⟨hpend, -⟩
  · exact hsame ▸ hwaiting
  · rw [hpub]
    rfl
  · exact hpend

/-- The sweep so far. `uncertain` and `given` are the rows and the tasks that it has still to visit. -/
structure Swept (maxAttempts : Nat) (uncertain given : Uuid → Prop) (L : Set Lock) (own : List Write)
    (db : Db) : Prop where
  inv : Inv maxAttempts db
  sweeps : ∀ w ∈ own, Sweeps L w
  moved : ∀ id r, db.outbox.get id = some r → Moved maxAttempts r (rowAfter own id r)
  gave : ∀ id r, gives own id = true → db.outbox.get id = some r →
    (rowAfter own id r).status = .reconciliationRequired
  exhausted : ∀ id r, db.outbox.get id = some r → (rowAfter own id r).status = .publicationUncertain →
    maxAttempts ≤ r.publishAttempts → uncertain id
  reconciled : ∀ id r, db.outbox.get id = some r → r.status ≠ .reconciliationRequired →
    (rowAfter own id r).status = .reconciliationRequired → gives own id = true ∨ given id

variable {uncertain given : Uuid → Prop}

theorem Swept.start (hI : Inv maxAttempts db) : Swept maxAttempts uncertain given L [] db := by
  refine ⟨hI, by simp, fun id r _ => Moved.refl r, fun id r h => (by cases h), fun id r hr hunc hmax => ?_,
    fun id r _ hne hrec => absurd hrec hne⟩
  obtain ⟨t, -, hok⟩ := hI.row hr
  have hlt := hok.uncertain hunc
  omega

theorem swept_stable : (rules weekKey maxAttempts).Stable (Swept maxAttempts uncertain given) := by
  refine ⟨?_, fun hL h => ⟨h.inv, fun w hw => (h.sweeps w hw).mono hL, h.moved, h.gave, h.exhausted,
    h.reconciled⟩⟩
  intro L own db db' h ha hI
  -- Rows that are locked are the same; of the others the transaction has changed nothing.
  have hsame : ∀ id r, db'.outbox.get id = some r → db.outbox.get id = some r ∨ rowAfter own id r = r := by
    intro id r hr
    by_cases hL : Lock.row id ∈ L
    · exact Or.inl ((ha.rows id hL).symm.trans hr)
    · exact Or.inr (rowAfter_unlocked h.sweeps hL r)
  refine ⟨hI, h.sweeps, fun id r hr => ?_, fun id r hgives hr => ?_, fun id r hr hunc hmax => ?_,
    fun id r hr hne hrec => ?_⟩
  · rcases hsame id r hr with hold | hid
    · exact h.moved id r hold
    · rw [hid]
      exact Moved.refl r
  · exact h.gave id r hgives ((ha.rows id (gives_locked h.sweeps hgives)).symm.trans hr)
  · rcases hsame id r hr with hold | hid
    · exact h.exhausted id r hold hunc hmax
    · obtain ⟨t, -, hok⟩ := Inv.row hI hr
      have hlt := hok.uncertain (hid ▸ hunc)
      omega
  · rcases hsame id r hr with hold | hid
    · exact h.reconciled id r hold hne hrec
    · exact absurd (hid ▸ hrec) hne

/-- A sweep that is complete keeps the invariant. -/
theorem Swept.keeps (h : Swept maxAttempts (fun _ => False) (fun _ => False) L own db) :
    Inv maxAttempts (tables.applyAll db own) := by
  obtain ⟨hruns, haccepted, hclaims, hanswers, hpublications⟩ :
      (tables.applyAll db own).runs = db.runs ∧ (tables.applyAll db own).accepted = db.accepted ∧
        (tables.applyAll db own).claims = db.claims ∧ (tables.applyAll db own).answers = db.answers ∧
        (tables.applyAll db own).publications = db.publications := sweep_rest h.sweeps
  refine ⟨h.inv.base.congr hruns haccepted fun id => ?_, fun id => ?_, fun p hp => ?_, fun token c hc => ?_,
    h.inv.numbered.congr hclaims⟩
  · rw [sweep_tasks h.sweeps, Option.map_map]
    congr 1
    funext t
    simp only [Function.comp_apply]
    split <;> rfl
  · rw [sweep_outbox h.sweeps, sweep_tasks h.sweeps]
    cases hr : db.outbox.get id with
    | none =>
      rw [h.inv.no_task hr]
      exact .none
    | some r =>
      obtain ⟨t, ht, hok⟩ := h.inv.row hr
      rw [ht]
      have hm := h.moved id r hr
      have hopen : (rowAfter own id r).status = .publicationUncertain →
          r.publishAttempts < maxAttempts := by
        intro hunc
        by_contra hmax
        exact h.exhausted id r hr hunc (by omega)
      have hdispatch : (if gives own id then t.undispatched else t).dispatchStatus =
          (rowAfter own id r).status.dispatch := by
        by_cases hgives : gives own id = true
        · rw [if_pos hgives, h.gave id r hgives hr]
          rfl
        · rw [if_neg hgives, hok.dispatch]
          rcases hm.status with hs | ⟨hs₀, hs⟩ | ⟨hs₀, hs⟩
          · rw [hs]
          · rw [hs₀, hs]
            rfl
          · refine absurd (h.reconciled id r hr (fun hrec => ?_) hs) (by simpa using hgives)
            rw [hrec] at hs₀
            cases hs₀
      have hsame : (rowAfter own id r).status = .publishing ∨ (rowAfter own id r).status = .published →
          (rowAfter own id r).status = r.status := by
        intro hor
        rcases hm.status with hs | ⟨-, hs⟩ | ⟨-, hs⟩
        · exact hs
        · rcases hor with hor | hor <;> rw [hs] at hor <;> cases hor
        · rcases hor with hor | hor <;> rw [hs] at hor <;> cases hor
      refine .some ⟨hdispatch, ?_, hm.attempts ▸ hok.attempts, fun hs => ?_, fun hunc => ?_,
        fun token c hc hid => ?_, fun hs => ?_⟩
      · rw [hm.payload, hok.payload]
        split <;> rfl
      · obtain ⟨lease, c, hlease, hc, hid, hatt⟩ := hok.held ((hsame (Or.inl hs)).symm.trans hs)
        exact ⟨lease, c, hm.relay.trans hlease, by rw [hclaims]; exact hc, hid, hatt.trans hm.attempts.symm⟩
      · rw [hm.attempts]
        exact hopen hunc
      · rw [hclaims] at hc
        obtain ⟨hle, hlast⟩ := hok.claims token c hc hid
        refine ⟨hm.attempts ▸ hle, fun hmax => ?_⟩
        rw [hanswers]
        rcases hm.status with hs | ⟨-, hs⟩ | ⟨-, hs⟩
        · have hheld : (rowAfter own id r).heldBy token = r.heldBy token := by
            simp [Row.heldBy, hs, hm.relay]
          rw [hs, hheld]
          exact hlast hmax
        · have hlt := hopen hs
          omega
        · exact Or.inr (Or.inl hs)
      · rw [hpublications]
        exact hok.published ((hsame (Or.inr hs)).symm.trans hs)
  · rw [hpublications] at hp
    exact (h.inv.publications p hp).congr fun token c hc => by rw [hclaims]; exact hc
  · rw [hclaims] at hc
    obtain ⟨r, hr⟩ := h.inv.claimed token c hc
    exact ⟨rowAfter own c.taskId r, by rw [sweep_outbox h.sweeps, hr]; rfl⟩

end Sweep

/-! ## Claims -/

section Claims

variable {L M : Set Lock} {own : List Write} {id : Uuid} {r : Row} {now : Int}
  {uncertain given : Uuid → Prop}

theorem Swept.expire (h : Swept maxAttempts uncertain given L own db) (hL : .row id ∈ L)
    (huncertain : ∀ r, db.outbox.get id = some r → (rowAfter own id r).expired now = true → uncertain id) :
    Swept maxAttempts uncertain given L (own ++ [.abandon id now]) db := by
  have hrow : ∀ k r, onRow k (rowAfter own k r) (.abandon id now) =
      if id = k ∧ (rowAfter own k r).expired now = true then (rowAfter own k r).abandoned
      else rowAfter own k r := fun _ _ => rfl
  have hrec : ∀ k r, (onRow k (rowAfter own k r) (.abandon id now)).status = .reconciliationRequired ↔
      (rowAfter own k r).status = .reconciliationRequired := by
    intro k r
    rw [hrow]
    split
    · rename_i hexp
      simp only [Row.expired, Bool.and_eq_true, decide_eq_true_eq] at hexp
      rw [hexp.2.1]
      simp [Row.abandoned]
    · exact Iff.rfl
  refine ⟨h.inv, fun w hw => ?_, fun k r hr => ?_, fun k r hgives hr => ?_, fun k r hr hunc hmax => ?_,
    fun k r hr hne hgiven => ?_⟩
  · rcases List.mem_append.1 hw with hw | hw
    · exact h.sweeps w hw
    · rw [List.mem_singleton.1 hw]
      exact .abandon hL
  · rw [rowAfter_append, hrow]
    split
    · rename_i hexp
      exact (h.moved k r hr).abandon hexp.2
    · exact h.moved k r hr
  · rw [gives_append] at hgives
    rw [rowAfter_append, hrec]
    exact h.gave k r (by simpa [Write.gives] using hgives) hr
  · rw [rowAfter_append, hrow] at hunc
    split at hunc
    · rename_i hexp
      obtain ⟨rfl, hexp⟩ := hexp
      exact huncertain r hr hexp
    · exact h.exhausted k r hr hunc hmax
  · rw [rowAfter_append, hrec] at hgiven
    rw [gives_append]
    simpa [Write.gives] using h.reconciled k r hr hne hgiven

theorem Swept.exhaust {ids : List Uuid}
    (h : Swept maxAttempts (· ∈ id :: ids) (fun _ => True) L own db) (hL : .row id ∈ L)
    (hr : db.outbox.get id = some r) (hexh : (rowAfter own id r).exhausted maxAttempts = true) :
    Swept maxAttempts (· ∈ ids) (fun _ => True) L (own ++ [.giveUp id maxAttempts]) db := by
  have hrow : ∀ k r, onRow k (rowAfter own k r) (.giveUp id maxAttempts) =
      if id = k ∧ (rowAfter own k r).exhausted maxAttempts = true then (rowAfter own k r).givenUp
      else rowAfter own k r := fun _ _ => rfl
  refine ⟨h.inv, fun w hw => ?_, fun k r hr => ?_, fun k r hgives hr => ?_, fun k s hs hunc hmax => ?_,
    fun k r hr hne hgiven => Or.inr trivial⟩
  · rcases List.mem_append.1 hw with hw | hw
    · exact h.sweeps w hw
    · rw [List.mem_singleton.1 hw]
      exact .giveUp hL
  · rw [rowAfter_append, hrow]
    split
    · rename_i hexp
      exact (h.moved k r hr).giveUp hexp.2
    · exact h.moved k r hr
  · rw [gives_append] at hgives
    rw [rowAfter_append, hrow]
    split
    · rfl
    · exact h.gave k r (by simpa [Write.gives] using hgives) hr
  · rw [rowAfter_append, hrow] at hunc
    split at hunc
    · cases hunc
    · rename_i hnot
      rcases List.mem_cons.1 (h.exhausted k s hs hunc hmax) with rfl | hmem
      · rw [hr, Option.some.injEq] at hs
        exact absurd ⟨rfl, hs ▸ hexh⟩ hnot
      · exact hmem

theorem Swept.undispatch {ids : List Uuid}
    (h : Swept maxAttempts uncertain (· ∈ id :: ids) L own db) (hL : .row id ∈ L)
    (hrec : ∀ r, db.outbox.get id = some r → (rowAfter own id r).status = .reconciliationRequired) :
    Swept maxAttempts uncertain (· ∈ ids) L (own ++ [.undispatched id]) db := by
  have hrow : ∀ k r, rowAfter (own ++ [.undispatched id]) k r = rowAfter own k r :=
    fun k r => rowAfter_append ..
  have hgives : ∀ k, gives (own ++ [.undispatched id]) k = true ↔ gives own k = true ∨ id = k := by
    intro k
    rw [gives_append]
    simp [Write.gives]
  refine ⟨h.inv, fun w hw => ?_, fun k r hr => ?_, fun k r hk hr => ?_, fun k s hs hunc hmax => ?_,
    fun k r hr hne hgiven => ?_⟩
  · rcases List.mem_append.1 hw with hw | hw
    · exact h.sweeps w hw
    · rw [List.mem_singleton.1 hw]
      exact .undispatched hL
  · rw [hrow]
    exact h.moved k r hr
  · rw [hrow]
    rcases (hgives k).1 hk with hold | rfl
    · exact h.gave k r hold hr
    · exact hrec r hr
  · rw [hrow] at hunc
    exact h.exhausted k s hs hunc hmax
  · rw [hrow] at hgiven
    rw [hgives]
    rcases h.reconciled k r hr hne hgiven with hold | hmem
    · exact Or.inl (Or.inl hold)
    · rcases List.mem_cons.1 hmem with rfl | hmem
      · exact Or.inl (Or.inr rfl)
      · exact Or.inr hmem

/-- The visits of an `UPDATE` of the outbox within the sweep: `P ids` holds before the rows `ids` are
visited. -/
theorem wp_updateRows {P : List Uuid → Set Lock → List Write → Db → Prop}
    {matching : Row → Int → Bool} {set : Uuid → Int → Write}
    (hs : ∀ ids, (rules weekKey maxAttempts).Stable (P ids))
    (hsweeps : ∀ ids M own db, P ids M own db → ∀ w ∈ own, Sweeps M w)
    (hguard : ∀ id now, guard weekKey (set id now) = {.row id})
    (hskip : ∀ id ids M own db now, P (id :: ids) M own db →
      (∀ r, db.outbox.get id = some r → matching (rowAfter own id r) now = false) → P ids M own db)
    (hput : ∀ id ids M own db r now, P (id :: ids) M own db → .row id ∈ M → db.outbox.get id = some r →
      matching (rowAfter own id r) now = true → P ids M (own ++ [set id now]) db) :
    ∀ {ids : List Uuid} {L : Set Lock} {own : List Write} {db : Db}, P ids L own db →
      (rules weekKey maxAttempts).wp (updateRows matching set ids) (fun _ => P []) L own db
  | [], L, own, db, hp => Rules.wp_done (hs []) hp fun _ h => h
  | id :: ids, L, own, db, hp => by
    have hlocked : ∀ row, (rules weekKey maxAttempts).Stable fun L _ db =>
        Lock.row id ∈ L ∧ db.outbox.get id = row :=
      fun row => stable_locked _ _ fun _ _ _ hL ha h => (ha.rows id hL).trans h
    refine Rules.wp_bind (Rules.wp_acquire (hs _) hp fun db₁ h₁ => ?_)
    have hmem : Lock.row id ∈ insert (Lock.row id) L := Set.mem_insert _ _
    refine Rules.wp_bind (Rules.wp_query (hs _) h₁ fun db₂ db₃ h₂ h₃ ha₃ hI₃ => ?_)
    have hview : (tables.applyAll db₂ own).outbox.get id = (db₂.outbox.get id).map (rowAfter own id) :=
      sweep_outbox (hsweeps _ _ _ _ h₂) id
    have hs₃ := (hs (id :: ids)).and (hlocked (db₂.outbox.get id))
    refine Rules.wp_bind (Rules.wp_query hs₃ ⟨h₃, hmem, ha₃.rows id hmem⟩ fun db₄ db₅ _ h₅ _ _ => ?_)
    rw [hview, Option.any_map]
    split
    · rename_i hmatch
      obtain ⟨r, hr, hmatch⟩ := (Option.any_eq_true _ _).1 hmatch
      refine Rules.wp_bind (Rules.wp_put hs₃ h₅ fun db₆ h₆ hI₆ _ => ⟨?_, trivial, fun db₇ h₇ _ _ => ?_⟩)
      · show guard weekKey (set id _) ⊆ _
        rw [hguard]
        exact Set.singleton_subset_iff.2 hmem
      · exact wp_updateRows hs hsweeps hguard hskip hput
          (hput id ids _ _ db₇ r _ h₇.1 hmem (h₇.2.2.trans hr) hmatch)
    · rename_i hmatch
      have hskipped := hskip id ids _ _ db₅ _ h₅.1 fun r hr => by
        rw [h₅.2.2.symm.trans hr] at hmatch
        simpa using hmatch
      refine Rules.wp_bind (Rules.wp_done (hs ids) hskipped fun db₆ h₆ => ?_)
      exact wp_updateRows hs hsweeps hguard hskip hput h₆

/-- The first statement: the rows whose leases have expired. -/
theorem wp_abandon (hI : Inv maxAttempts db) :
    (rules weekKey maxAttempts).wp (updateOutbox (fun r now => r.expired now) .abandon)
      (fun _ => Swept maxAttempts (fun _ => True) (fun _ => False)) L [] db := by
  have hs := @swept_stable weekKey maxAttempts (fun _ => True) (fun _ => False)
  refine Rules.wp_bind (Rules.wp_query hs (Swept.start hI) fun db₁ db₂ _ h₂ _ _ => ?_)
  exact wp_updateRows (P := fun _ => Swept maxAttempts (fun _ => True) fun _ => False)
    (fun _ => swept_stable) (fun _ _ _ _ h => h.sweeps) (fun _ _ => rfl) (fun _ _ _ _ _ _ h _ => h)
    (fun id _ _ _ _ r now h hL hr hexp => h.expire hL fun _ _ _ => trivial) h₂

/-- The second statement: the rows without attempts left. -/
theorem wp_giveUp (h : Swept maxAttempts (fun _ => True) (fun _ => False) L own db) :
    (rules weekKey maxAttempts).wp
      (updateOutbox (fun r _ => r.exhausted maxAttempts) fun id _ => .giveUp id maxAttempts)
      (fun _ => Swept maxAttempts (fun _ => False) (fun _ => True)) L own db := by
  refine Rules.wp_bind (Rules.wp_query swept_stable h fun db₁ db₂ h₁ _ ha hI₂ => ?_)
  have hexhausted : ∀ {M : Set Lock} {own : List Write} {db : Db} {u g : Uuid → Prop} {id : Uuid} {r : Row},
      Swept maxAttempts u g M own db → db.outbox.get id = some r →
      (rowAfter own id r).status = .publicationUncertain → maxAttempts ≤ r.publishAttempts →
      (rowAfter own id r).exhausted maxAttempts = true := by
    intro M own db u g id r h hr hunc hmax
    simp [Row.exhausted, Row.waiting, hunc, (h.moved id r hr).attempts, hmax]
  have hstart : Swept maxAttempts
      (· ∈ (tables.applyAll db₁ own).outbox.select fun _ r => r.exhausted maxAttempts) (fun _ => True) L own
      db₁ := by
    refine ⟨h₁.inv, h₁.sweeps, h₁.moved, h₁.gave, fun id r hr hunc hmax => ?_,
      fun _ _ _ _ _ => Or.inr trivial⟩
    rw [Table.mem_select, sweep_outbox h₁.sweeps, hr]
    exact ⟨_, rfl, hexhausted h₁ hr hunc hmax⟩
  refine Rules.wp_mono ?_ (wp_updateRows (P := fun ids => Swept maxAttempts (· ∈ ids) fun _ => True)
    (fun _ => swept_stable) (fun _ _ _ _ h => h.sweeps) (fun _ _ => rfl) ?_
    (fun id ids _ _ _ r now h hL hr hexh => h.exhaust hL hr hexh) (swept_stable.others hstart ha hI₂))
  · intro _ M own db h
    exact { h with exhausted := fun id r hr hunc hmax => by simpa using h.exhausted id r hr hunc hmax }
  · intro id ids M own db now h hno
    refine { h with exhausted := fun k r hr hunc hmax => ?_ }
    rcases List.mem_cons.1 (h.exhausted k r hr hunc hmax) with rfl | hmem
    · have hyes := hexhausted h hr hunc hmax
      rw [hno r hr] at hyes
      cases hyes
    · exact hmem

/-- The tasks that the sweep has still to give up: their rows are locked and given up. -/
def Targets (ids : List Uuid) (L : Set Lock) (own : List Write) (db : Db) : Prop :=
  ∀ id ∈ ids, .row id ∈ L ∧
    ∀ r, db.outbox.get id = some r → (rowAfter own id r).status = .reconciliationRequired

theorem targets_stable (ids : List Uuid) : (rules weekKey maxAttempts).Stable (Targets ids) where
  others h ha _ id hid := ⟨(h id hid).1, fun r hr =>
    (h id hid).2 r ((ha.rows id (h id hid).1).symm.trans hr)⟩
  locks hL h id hid := ⟨hL (h id hid).1, (h id hid).2⟩

theorem wp_updateTasks : ∀ {ids : List Uuid} {L : Set Lock} {own : List Write} {db : Db},
    Swept maxAttempts (fun _ => False) (· ∈ ids) L own db → Targets ids L own db →
    (rules weekKey maxAttempts).wp (updateTasks unreconciled .undispatched ids)
      (fun _ => Swept maxAttempts (fun _ => False) (fun _ => False)) L own db
  | [], L, own, db, h, _ => by
    refine Rules.wp_done swept_stable
      (P := Swept maxAttempts (fun _ => False) fun _ => False) ?_ fun _ h => h
    exact { h with reconciled := fun id r hr hne hrec => by simpa using h.reconciled id r hr hne hrec }
  | id :: ids, L, own, db, h, ht => by
    have hs := (@swept_stable weekKey maxAttempts (fun _ => False) (· ∈ id :: ids)).and
      (targets_stable (id :: ids))
    refine wp_updateTask hs ⟨h, ht⟩ rfl (fun M db₁ h₁ hno => ?_) fun M db₁ h₁ _ => ?_
    · refine wp_updateTasks { h₁.1 with reconciled := fun k r hr hne hrec => ?_ }
        fun k hk => h₁.2 k (List.mem_cons_of_mem _ hk)
      rcases h₁.1.reconciled k r hr hne hrec with hgives | hmem
      · exact Or.inl hgives
      · rcases List.mem_cons.1 hmem with rfl | hmem
        · -- Its task would still have been open, and matched.
          by_contra hnot
          obtain ⟨t, ht, hok⟩ := h₁.1.inv.row hr
          have hgives : gives own k = false := by
            by_contra hyes
            exact hnot (Or.inl (by simpa using hyes))
          have hview : (tables.applyAll db₁ own).tasks.get k =
              (db₁.tasks.get k).map fun t => if gives own k then t.undispatched else t :=
            sweep_tasks h₁.1.sweeps k
          rw [ht, hgives] at hview
          have hclosed := hno t hview
          simp only [unreconciled, decide_eq_false_iff_not, not_not, hok.dispatch] at hclosed
          exact hne (Status.dispatch_given.1 hclosed)
        · exact Or.inr hmem
    · have hid := h₁.2 id List.mem_cons_self
      refine wp_updateTasks (h₁.1.undispatch hid.1 hid.2) fun k hk => ?_
      have hk' := h₁.2 k (List.mem_cons_of_mem _ hk)
      exact ⟨hk'.1, fun r hr => (congrArg Row.status (rowAfter_append ..)).trans (hk'.2 r hr)⟩

/-- The third statement: the tasks of the rows that were given up. -/
theorem wp_unreconciledTasks (h : Swept maxAttempts (fun _ => False) (fun _ => True) L own db) :
    (rules weekKey maxAttempts).wp (Prog.query unreconciledTasks : Txn (List Uuid))
      (fun ids M own db => Swept maxAttempts (fun _ => False) (· ∈ ids) M own db ∧ Targets ids M own db)
      L own db := by
  refine Rules.wp_query swept_stable h fun db₁ db₂ h₁ _ ha hI₂ => ?_
  have hmem : ∀ id, id ∈ unreconciledTasks (tables.applyAll db₁ own) ↔ ∃ t r,
      db₁.tasks.get id = some t ∧ db₁.outbox.get id = some r ∧
      unreconciled (if gives own id then t.undispatched else t) = true ∧
      (rowAfter own id r).status = .reconciliationRequired := by
    intro id
    rw [unreconciledTasks, Table.mem_select, sweep_tasks h₁.sweeps, sweep_outbox h₁.sweeps]
    cases db₁.tasks.get id <;> cases db₁.outbox.get id <;> simp
  have hstart :
      Swept maxAttempts (fun _ => False) (· ∈ unreconciledTasks (tables.applyAll db₁ own)) L own db₁ := by
    refine { h₁ with reconciled := fun id r hr hne hrec => ?_ }
    by_cases hgives : gives own id = true
    · exact Or.inl hgives
    · obtain ⟨t, ht, hok⟩ := h₁.inv.row hr
      refine Or.inr ((hmem id).2 ⟨t, r, ht, hr, ?_, hrec⟩)
      rw [if_neg hgives]
      simp only [unreconciled, hok.dispatch, decide_eq_true_eq]
      exact fun hs => hne (Status.dispatch_given.1 hs)
  have htargets : Targets (unreconciledTasks (tables.applyAll db₁ own)) L own db₁ := by
    intro id hid
    obtain ⟨t, r, ht, hr, hopen, hrec⟩ := (hmem id).1 hid
    refine ⟨?_, fun s hs => ?_⟩
    · -- A row that is not locked is as it was, and its task says so already.
      by_contra hL
      rw [rowAfter_unlocked h₁.sweeps hL] at hrec
      obtain ⟨t', ht', hok⟩ := h₁.inv.row hr
      rw [ht, Option.some.injEq] at ht'
      subst ht'
      have hgives : ¬gives own id = true := fun hg => hL (gives_locked h₁.sweeps hg)
      rw [if_neg hgives] at hopen
      simp [unreconciled, hok.dispatch, hrec, Status.dispatch] at hopen
    · rw [hr, Option.some.injEq] at hs
      exact hs ▸ hrec
  exact ⟨swept_stable.others hstart ha hI₂, (targets_stable _).others htargets ha hI₂⟩

/-- The choice of a row: it is locked. -/
theorem wp_lockFirst {P : Set Lock → List Write → Db → Prop} (hs : (rules weekKey maxAttempts).Stable P) :
    ∀ {ids : List Uuid} {L : Set Lock} {own : List Write} {db : Db}, P L own db →
      (rules weekKey maxAttempts).wp (lockFirst maxAttempts ids)
        (fun found M own db => P M own db ∧ ∀ e, found = some e → Lock.row e.1 ∈ M) L own db
  | [], L, own, db, hp => Rules.wp_done hs hp fun _ h => ⟨h, fun e he => by cases he⟩
  | id :: ids, L, own, db, hp => by
    refine Rules.wp_bind (Rules.wp_acquire hs hp fun db₁ h₁ => ?_)
    refine Rules.wp_bind (Rules.wp_query hs h₁ fun db₂ db₃ _ h₃ _ _ => ?_)
    refine Rules.wp_bind (Rules.wp_query hs h₃ fun db₄ db₅ _ h₅ _ _ => ?_)
    split
    · refine Rules.wp_done hs h₅ fun db₆ h₆ => ⟨h₆, fun e he => ?_⟩
      cases he
      exact Set.mem_insert _ _
    · exact wp_lockFirst hs h₅

theorem claimOne_safe (owner : String) (token : Uuid) (leaseSeconds : Int) (locked : List Uuid)
    (hI : Inv maxAttempts db) :
    (rules weekKey maxAttempts).Safe (claimOne maxAttempts owner token leaseSeconds locked) L [] db := by
  refine Rules.wp_bind (Rules.wp_mono (fun _ M own db h => ?_) (wp_abandon hI))
  refine Rules.wp_bind (Rules.wp_mono (fun _ M own db h => ?_) (wp_giveUp h))
  refine Rules.wp_bind (Rules.wp_mono (fun ids M own db h => ?_) (wp_unreconciledTasks h))
  refine Rules.wp_bind (Rules.wp_mono (fun _ M own db h => ?_) (wp_updateTasks h.1 h.2))
  have hs := @swept_stable weekKey maxAttempts (fun _ => False) (fun _ => False)
  refine Rules.wp_bind (Rules.wp_query hs h fun db₁ db₂ _ h₂ _ _ => ?_)
  refine Rules.wp_bind (Rules.wp_mono (fun found M own db h => ?_) (wp_lockFirst hs h₂))
  cases found with
  | none =>
    intro db' ha hI'
    exact (hs.others h.1 ha hI').keeps
  | some e =>
    have hrow : Lock.row e.1 ∈ insert (Lock.token token) M := Set.mem_insert_of_mem _ (h.2 e rfl)
    have htoken : Lock.token token ∈ insert (Lock.token token) M := Set.mem_insert _ _
    refine Rules.wp_bind (Rules.wp_acquire hs h.1 fun db₃ h₃ => ?_)
    refine Rules.wp_bind (Rules.wp_query hs h₃ fun db₄ db₅ _ h₅ _ _ => ?_)
    refine Rules.wp_put hs h₅ fun db₆ h₆ hI₆ hnew => ⟨?_, trivial, fun db₇ h₇ ha₇ hI₇ => ?_⟩
    · rintro k (rfl | rfl)
      · exact hrow
      · exact htoken
    · have hfresh : db₆.claims.get token = none := by
        have hget : ((tables.applyAll db₆ own).claims.get token).isNone = true := hnew
        rwa [(sweep_rest h₆.sweeps).2.2.1, Option.isNone_iff_eq_none] at hget
      have hunclaimed : (rules weekKey maxAttempts).Stable fun L _ db =>
          Lock.token token ∈ L ∧ db.claims.get token = none :=
        stable_locked _ _ fun _ _ _ hL ha h => ha.unclaimed token hL h
      have h₇' := (hs.and hunclaimed).others ⟨h₆, htoken, hfresh⟩ ha₇ hI₇
      show Inv maxAttempts (tables.applyAll db₇ (own ++ [_]))
      rw [Schema.applyAll_append]
      refine h₇'.1.keeps.claim ?_
      rw [(sweep_rest h₇'.1.sweeps).2.2.1]
      exact h₇'.2.2

end Claims

/-! ## Runs -/

theorem transaction_safe {p : Txn Unit} (h : Transaction weekKey maxAttempts p) (db : Db) :
    (rules weekKey maxAttempts).Safe p ∅ [] db := by
  cases h with
  | accept weekStart runId taskId => exact accept_safe _ _ weekStart runId taskId db
  | claim owner token leaseSeconds locked =>
    exact Rules.wp_start fun _ _ hI => claimOne_safe owner token leaseSeconds locked hI
  | close maxBackoffSeconds token =>
    exact Rules.wp_start fun _ _ hI => closeClaim_safe maxBackoffSeconds token hI
  | create args => exact create_safe args db

/-- The claims of a task are at most as many as its attempts. -/
theorem Inv.claims_le (hI : Inv maxAttempts db) (id : Uuid) :
    (db.claims.rows.filter fun e => e.2.taskId = id).length ≤ maxAttempts := by
  have hget : ∀ e ∈ db.claims.rows.filter fun e => e.2.taskId = id,
      db.claims.get e.1 = some e.2 ∧ e.2.taskId = id := fun e he => by
    rw [List.mem_filter, decide_eq_true_eq] at he
    exact ⟨(db.claims.mem_rows e.1 e.2).1 he.1, he.2⟩
  have hrows : (db.claims.rows.filter fun e => e.2.taskId = id).Nodup :=
    (List.Nodup.of_map _ db.claims.unique).filter _
  have hnumbers : ((db.claims.rows.filter fun e => e.2.taskId = id).map fun e =>
      e.2.publishAttempts).Nodup := by
    refine hrows.map_on fun e he e' he' hnumber => ?_
    obtain ⟨hc, hid⟩ := hget e he
    obtain ⟨hc', hid'⟩ := hget e' he'
    have htoken := hI.numbered.distinct _ _ _ _ hc hc' (hid.trans hid'.symm) hnumber
    rw [htoken, hc', Option.some.injEq] at hc
    exact Prod.ext htoken hc.symm
  have hrange : ((db.claims.rows.filter fun e => e.2.taskId = id).map fun e =>
      e.2.publishAttempts).toFinset ⊆ Finset.Ioc 0 maxAttempts := by
    intro n hn
    obtain ⟨e, he, rfl⟩ := List.mem_map.1 (List.mem_toFinset.1 hn)
    obtain ⟨hc, rfl⟩ := hget e he
    obtain ⟨r, hr⟩ := hI.claimed _ _ hc
    obtain ⟨t, -, hok⟩ := hI.row hr
    have hle := (hok.claims _ _ hc rfl).1
    have hpos := hI.numbered.positive _ _ hc
    have hmax := hok.attempts
    rw [Finset.mem_Ioc]
    omega
  have hcard := Finset.card_le_card hrange
  rw [List.toFinset_card_of_nodup hnumbers, List.length_map, Nat.card_Ioc] at hcard
  omega

/-- What a reader of the tables may rely on. -/
structure DispatchOk (maxAttempts : Nat) (db : Db) : Prop where
  /-- A task has an outbox row, and an outbox row has a task. -/
  paired : ∀ id, id ∈ db.tasks.keys ↔ id ∈ db.outbox.keys
  /-- The message of a task names it, its run and its week. -/
  message : ∀ id t r, db.tasks.get id = some t → db.outbox.get id = some r →
    r.payload = ⟨1, id, t.runId, t.weekStart⟩
  /-- The two tables tell the same of a dispatch that is over. -/
  published_iff : ∀ id t r, db.tasks.get id = some t → db.outbox.get id = some r →
    (t.dispatchStatus = .published ↔ r.status = .published)
  reconciliation_iff : ∀ id t r, db.tasks.get id = some t → db.outbox.get id = some r →
    (t.dispatchStatus = .reconciliationRequired ↔ r.status = .reconciliationRequired)
  /-- A published row was published under a claim of it whose publisher had returned by then. -/
  published : ∀ id r, db.outbox.get id = some r → r.status = .published →
    ∃ token c, ⟨id, some token, some .returned⟩ ∈ db.publications ∧
      db.claims.get token = some c ∧ c.taskId = id
  publications : ∀ p ∈ db.publications, PublicationOk db p
  /-- A row is claimed as often as its attempts allow at most. -/
  attempts : ∀ id r, db.outbox.get id = some r → r.publishAttempts ≤ maxAttempts
  claims : ∀ id, (db.claims.rows.filter fun e => e.2.taskId = id).length ≤ maxAttempts
  /-- An accepted run is stored with its task and the row, and a task is the one of such a run. -/
  accepted : ∀ run ∈ db.accepted, ∃ s id t r, db.runs.get run = some s ∧ db.tasks.get id = some t ∧
    db.outbox.get id = some r ∧ t.runId = run ∧ t.weekStart = s.targetWeekStart
  tasks : ∀ id t, db.tasks.get id = some t → t.runId ∈ db.accepted
  /-- A week has one accepted run that is active at most. -/
  one : ∀ run run' week, Active db run week → Active db run' week → run = run'

theorem Inv.ok (hI : Inv maxAttempts db) : DispatchOk maxAttempts db where
  paired id := by
    rw [Table.mem_keys, Table.mem_keys]
    constructor
    · rintro ⟨t, ht⟩
      obtain ⟨r, hr, -⟩ := hI.task ht
      exact ⟨r, hr⟩
    · rintro ⟨r, hr⟩
      obtain ⟨t, ht, -⟩ := hI.row hr
      exact ⟨t, ht⟩
  message id t r ht hr := (hI.rowOk ht hr).payload
  published_iff id t r ht hr := by
    rw [(hI.rowOk ht hr).dispatch]
    exact Status.dispatch_published
  reconciliation_iff id t r ht hr := by
    rw [(hI.rowOk ht hr).dispatch]
    exact Status.dispatch_given
  published id r hr hs := by
    obtain ⟨t, -, hok⟩ := hI.row hr
    obtain ⟨⟨_, _, _⟩, hp, rfl⟩ := hok.published hs
    obtain ⟨token, c, rfl, rfl, hc, hid⟩ := hI.publications _ hp
    exact ⟨token, c, hp, hc, hid⟩
  publications := hI.publications
  attempts id r hr := by
    obtain ⟨t, -, hok⟩ := hI.row hr
    exact hok.attempts
  claims := hI.claims_le
  accepted run hrun := by
    obtain ⟨id, t, ht, rfl⟩ := hI.base.run_task run hrun
    obtain ⟨r, hr, -⟩ := hI.task ht
    obtain ⟨-, s, hs, hweek⟩ := hI.base.task_run id t ht
    exact ⟨s, id, t, r, hs, ht, hr, rfl, hweek.symm⟩
  tasks id t ht := (hI.base.task_run id t ht).1
  one := hI.base.one

/-- Nothing was accepted yet: there may be runs that pipelines created. -/
def start (clock : Int) (runs : Table Uuid StoredRun) : Db where
  clock := clock
  runs := runs

theorem Inv.start (clock : Int) (runs : Table Uuid StoredRun) : Inv maxAttempts (start clock runs) where
  base := ⟨fun id t ht => (by cases ht), fun run hrun => (by cases hrun), fun run _ _ hrun _ =>
    (by cases hrun.1)⟩
  paired id := .none
  publications p hp := by cases hp
  claimed token c hc := by cases hc
  numbered := ⟨fun token c hc => (by cases hc), fun token _ c _ hc => (by cases hc)⟩

/-- What every reachable state satisfies. -/
theorem inv_reached {Cl : Type} [DecidableEq Cl] {clock : Int} {runs : Table Uuid StoredRun}
    {σ : System Cl Db Write Lock Unit CodedError Unit}
    (h : Reachable tables (Transaction weekKey maxAttempts) (start clock runs) σ) : Inv maxAttempts σ.db :=
  (Rules.sound (fun _ hp db => transaction_safe hp db) (Inv.start clock runs) h).inv

/-- **The dispatch outbox**: whatever requests, relays and pipelines do, in whatever order and
wherever they are lost. -/
theorem dispatch_outbox {Cl : Type} [DecidableEq Cl] {clock : Int} {runs : Table Uuid StoredRun}
    {σ : System Cl Db Write Lock Unit CodedError Unit}
    (h : Reachable tables (Transaction weekKey maxAttempts) (start clock runs) σ) :
    DispatchOk maxAttempts σ.db := (inv_reached h).ok

/-- The publisher of a claim returns. -/
def answeredDb (db : Db) (token : Uuid) : Db := { db with answers := db.answers.insert token .returned }

theorem world_answered {token : Uuid} (h : (db.claims.get token).isSome) :
    World db (answeredDb db token) := by
  refine ⟨le_refl _, fun _ _ ha => Table.get_insert_of_some ha, fun t a ha => ?_, fun k => ?_, fun k => ?_,
    rfl, rfl, rfl, rfl⟩
  · by_cases hne : t = token
    · exact Or.inr (hne ▸ h)
    · exact Or.inl ((Table.get_insert_of_ne hne).symm.trans ha)
  · show Option.Rel _ (db.tasks.get k) (db.tasks.get k)
    cases db.tasks.get k
    · exact .none
    · exact .some ⟨rfl, rfl, rfl⟩
  · show Option.Rel _ (db.runs.get k) (db.runs.get k)
    cases db.runs.get k
    · exact .none
    · exact .some ⟨rfl, Or.inl rfl⟩

/-- A transaction that nothing interleaves with. -/
theorem alone_reachable {db₀ : Db} {p : Txn Unit} (hp : Transaction weekKey maxAttempts p)
    (hr : Reachable tables (Transaction weekKey maxAttempts) db₀
      (System.idle db : System Unit Db Write Lock Unit CodedError Unit)) :
    Reachable tables (Transaction weekKey maxAttempts) db₀
      (System.idle (run tables.toSchema p none db).2 : System Unit Db Write Lock Unit CodedError Unit) :=
  run_reachable () hp hr (Prod.eta _).symm

theorem answered_reachable {db₀ : Db} {token : Uuid}
    (hr : Reachable tables (Transaction weekKey maxAttempts) db₀
      (System.idle db : System Unit Db Write Lock Unit CodedError Unit))
    (h : (db.claims.get token).isSome) :
    Reachable tables (Transaction weekKey maxAttempts) db₀
      (System.idle (answeredDb db token) : System Unit Db Write Lock Unit CodedError Unit) :=
  hr.step (.world (world_answered h))

/-- A run whose task is accepted and claimed. -/
def claimedDb (runId taskId token : Uuid) : Db :=
  (run tables.toSchema (claimOne 8 "relay" token 30 []) none
    (run tables.toSchema (acceptAsyncTask id 4 runId taskId >>= fun _ => pure ()) none (start 0 {})).2).2

theorem answeredDb_reachable (runId taskId token : Uuid)
    (h : ((claimedDb runId taskId token).claims.get token).isSome) :
    Reachable tables (Transaction id 8) (start 0 {})
      (System.idle (answeredDb (claimedDb runId taskId token) token) :
        System Unit Db Write Lock Unit CodedError Unit) := by
  have hclaimed : Reachable tables (Transaction id 8) (start 0 {})
      (System.idle (claimedDb runId taskId token) : System Unit Db Write Lock Unit CodedError Unit) := by
    unfold claimedDb
    exact alone_reachable (.claim "relay" token 30 []) (alone_reachable (.accept 4 runId taskId) .idle)
  exact answered_reachable hclaimed h

/-- Its publisher returns, and its relay closes the claim. -/
def publishedDb (runId taskId token : Uuid) : Db :=
  (run tables.toSchema (closeClaim 8 300 token) none (answeredDb (claimedDb runId taskId token) token)).2

theorem publishedDb_reachable (runId taskId token : Uuid)
    (h : ((claimedDb runId taskId token).claims.get token).isSome) :
    Reachable tables (Transaction id 8) (start 0 {})
      (System.idle (publishedDb runId taskId token) : System Unit Db Write Lock Unit CodedError Unit) := by
  unfold publishedDb
  exact alone_reachable (.close 300 token) (answeredDb_reachable runId taskId token h)

/-- An id of one digit. -/
def sameDigits (d : Fin 16) : Uuid := ⟨List.replicate 32 d, List.length_replicate⟩

/-- The row is published in the end. -/
theorem publishedDb_ok :
    ((publishedDb (sameDigits 1) (sameDigits 2) (sameDigits 3)).outbox.get (sameDigits 2)).map
      Row.status = some .published ∧
      DispatchOk 8 (publishedDb (sameDigits 1) (sameDigits 2) (sameDigits 3)) := by
  refine ⟨by decide +kernel, ?_⟩
  have hreachable := publishedDb_reachable (sameDigits 1) (sameDigits 2) (sameDigits 3) (by decide +kernel)
  exact dispatch_outbox hreachable

end TrackFlow.TaskQueue.Dispatch
