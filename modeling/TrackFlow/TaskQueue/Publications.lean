import TrackFlow.TaskQueue.DispatchSafety

/-!
# Publications, commit by commit

A row of the dispatch outbox becomes published by the COMMIT of the relay that holds its token, after its
publisher has returned (`Publishes.acknowledged`).

- `acceptances_dispatched`: what becomes of accepted tasks, over all interleavings.
-/

namespace TrackFlow.TaskQueue.Dispatch

open TrackFlow.Python TrackFlow.Pipelines TrackFlow.ReadCommitted
open TrackFlow.Pipelines.Lifecycle (StoredRun)

variable {weekKey : Int → Int} {maxAttempts : Nat} {db db' : Db}

/-! ## Writes -/

/-- The rows that become published are those of the publications that are recorded. -/
structure Publishes (db db' : Db) (more : List Publication) : Prop where
  publications : db'.publications = db.publications ++ more
  rows : ∀ id r, db.outbox.get id = some r → ∃ r', db'.outbox.get id = some r' ∧
    (r'.status = .published → r.status = .published ∨ ∃ p ∈ more, p.taskId = id)

/-- Rows stay as they are. -/
theorem Publishes.same (hpublications : db'.publications = db.publications)
    (houtbox : db'.outbox = db.outbox) : Publishes db db' [] where
  publications := by rw [hpublications, List.append_nil]
  rows id r hr := ⟨r, houtbox ▸ hr, Or.inl⟩

/-- Publications after others. -/
theorem Publishes.trans {db'' : Db} {more more' : List Publication} (h : Publishes db db' more)
    (h' : Publishes db' db'' more') : Publishes db db'' (more ++ more') where
  publications := by rw [h'.publications, h.publications, List.append_assoc]
  rows id r hr := by
    obtain ⟨r', hr', hp⟩ := h.rows id r hr
    obtain ⟨r'', hr'', hp'⟩ := h'.rows id r' hr'
    refine ⟨r'', hr'', fun hs => ?_⟩
    rcases hp' hs with hs' | ⟨p, hmem, hid⟩
    · exact (hp hs').imp_right fun hmore => hmore.imp fun p hp => ⟨List.mem_append_left _ hp.1, hp.2⟩
    · exact Or.inr ⟨p, List.mem_append_right _ hmem, hid⟩

/-- An update that publishes nothing. -/
theorem Publishes.setRow {id : Uuid} {matching : Row → Bool} {f : Row → Row}
    (hf : ∀ r, (f r).status ≠ .published) : Publishes db (db.setRow id matching f) [] where
  publications := (List.append_nil _).symm
  rows k r hr := by
    rw [get_setRow]
    by_cases hk : k = id
    · rw [if_pos hk, hr, Option.map_some]
      refine ⟨_, rfl, fun hs => Or.inl ?_⟩
      split at hs
      · exact absurd hs (hf r)
      · exact hs
    · rw [if_neg hk]
      exact ⟨r, hr, Or.inl⟩

theorem apply_publishes (db : Db) (w : Write) : ∃ more, Publishes db (db.apply w) more := by
  cases w with
  | run row =>
    refine ⟨[], .same ?_ (apply_run_outbox row)⟩
    simp only [Db.apply]
    split <;> rfl
  | create row =>
    rcases create_cases db row with h | ⟨-, -, h⟩
    · exact ⟨[], .same (by rw [h]) (by rw [h])⟩
    · exact ⟨[], .same (by rw [h]) (by rw [h])⟩
  | task id t => exact ⟨[], .same rfl rfl⟩
  | outbox id r =>
    refine ⟨[], (List.append_nil _).symm, fun k r' hr' => ⟨r', ?_, Or.inl⟩⟩
    exact Table.get_insert_of_some hr'
  | abandon id now => exact ⟨[], .setRow fun r => by simp [Row.abandoned]⟩
  | giveUp id maxAttempts => exact ⟨[], .setRow fun r => by simp [Row.givenUp]⟩
  | claim id maxAttempts now lease =>
    rcases (claim_cases id now lease : db.apply (.claim id maxAttempts now lease) = db ∨ _) with
      h | ⟨r, hr, -, h⟩
    · exact ⟨[], .same (by rw [h]) (by rw [h])⟩
    · have hset : Publishes db (db.setRow id (fun _ => true) (·.claimed lease)) [] :=
        .setRow fun r => by simp [Row.claimed]
      rw [h]
      exact ⟨[], hset.publications, hset.rows⟩
  | acknowledge id token now =>
    rcases (acknowledge_cases id token now : db.apply (.acknowledge id token now) = db ∨ _) with
      h | ⟨r, hr, -, h⟩
    · exact ⟨[], .same (by rw [h]) (by rw [h])⟩
    · rw [h]
      refine ⟨[db.publication id r], rfl, fun k r' hr' => ?_⟩
      show ∃ r'', (db.setRow id (fun _ => true) (·.acknowledged now)).outbox.get k = some r'' ∧ _
      rw [get_setRow_of hr rfl]
      by_cases hk : k = id
      · rw [if_pos hk]
        exact ⟨_, rfl, fun _ => Or.inr ⟨_, List.mem_singleton_self _, hk.symm⟩⟩
      · rw [if_neg hk]
        exact ⟨r', hr', Or.inl⟩
  | refuse id token maxAttempts retryAt code =>
    refine ⟨[], .setRow fun r => ?_⟩
    simp only [Row.refused]
    split <;> simp
  | dispatched id => exact ⟨[], .same rfl rfl⟩
  | undispatched id => exact ⟨[], .same rfl rfl⟩

theorem applyAll_publishes (db : Db) (ws : List Write) :
    ∃ more, Publishes db (tables.applyAll db ws) more := by
  induction ws generalizing db with
  | nil => exact ⟨[], .same rfl rfl⟩
  | cons w ws ih =>
    obtain ⟨more, hw⟩ := apply_publishes db w
    obtain ⟨more', hws⟩ := ih (db.apply w)
    exact ⟨more ++ more', hw.trans hws⟩

/-! ## Steps -/

/-- The row was published under a token that its holder had, and whose publisher had returned. -/
def Acknowledged (db db' : Db) (id : Uuid) : Prop :=
  ∃ token c, ⟨id, some token, some .returned⟩ ∈ db'.publications.drop db.publications.length ∧
    db'.claims.get token = some c ∧ c.taskId = id

/-- A publication that is recorded is one of a holder of the row. -/
theorem Publishes.acknowledged {id : Uuid} {more : List Publication} {r' : Row} (h : Publishes db db' more)
    (hI : Inv maxAttempts db) (hI' : Inv maxAttempts db') (hr' : db'.outbox.get id = some r')
    (hs' : r'.status = .published) :
    (∃ r, db.outbox.get id = some r ∧ r.status = .published) ∨ Acknowledged db db' id := by
  have hmore : ∀ p ∈ more, p.taskId = id → Acknowledged db db' id := by
    rintro ⟨_, _, _⟩ hp rfl
    have hmem := h.publications ▸ List.mem_append_right _ hp
    obtain ⟨token, c, rfl, rfl, hc, hid⟩ := hI'.publications _ hmem
    refine ⟨token, c, ?_, hc, hid⟩
    rw [h.publications, List.drop_left]
    exact hp
  cases hr : db.outbox.get id with
  | some r =>
    obtain ⟨r'', hr'', hpublished⟩ := h.rows id r hr
    obtain rfl : r'' = r' := Option.some.inj (hr''.symm.trans hr')
    rcases hpublished hs' with hs | ⟨p, hp, hid⟩
    · exact Or.inl ⟨r, rfl, hs⟩
    · exact Or.inr (hmore p hp hid)
  | none =>
    -- a publication of a row that was not there is new
    obtain ⟨t, -, hok⟩ := hI'.row hr'
    obtain ⟨p, hp, hid⟩ := hok.published hs'
    rw [h.publications] at hp
    rcases List.mem_append.1 hp with hp | hp
    · obtain ⟨token, c, -, -, hc, hc'⟩ := hI.publications p hp
      obtain ⟨r, hr₀⟩ := hI.claimed token c hc
      rw [hc', hid, hr] at hr₀
      cases hr₀
    · exact Or.inr (hmore p hp hid)

/-- **Acceptances are dispatched**: an accepted task has one outbox row, which becomes published only by the
holder of its token after its publisher has returned, and is not claimed more often than allowed; task and
row agree on a dispatch that is over; run, task and row are stored together or not at all, and a week has
one accepted run that is active at most. -/
theorem acceptances_dispatched {Cl : Type} [DecidableEq Cl] {clock : Int} {runs : Table Uuid StoredRun}
    {σ : System Cl Db Write Lock Unit CodedError Unit}
    (h : Reachable tables (Transaction weekKey maxAttempts) (start clock runs) σ) :
    (∀ id ∈ σ.db.tasks.keys, σ.db.outbox.keys.count id = 1) ∧
      (∀ l σ', ReadCommitted.Step tables (Transaction weekKey maxAttempts) σ l σ' →
        ∀ id r', σ'.db.outbox.get id = some r' → r'.status = .published →
          (∃ r, σ.db.outbox.get id = some r ∧ r.status = .published) ∨ Acknowledged σ.db σ'.db id) ∧
      (∀ id r, σ.db.outbox.get id = some r → r.publishAttempts ≤ maxAttempts) ∧
      (∀ id t r, σ.db.tasks.get id = some t → σ.db.outbox.get id = some r →
        (t.dispatchStatus = .published ↔ r.status = .published) ∧
        (t.dispatchStatus = .reconciliationRequired ↔ r.status = .reconciliationRequired)) ∧
      (∀ run ∈ σ.db.accepted, ∃ s id t r, σ.db.runs.get run = some s ∧ σ.db.tasks.get id = some t ∧
        σ.db.outbox.get id = some r ∧ t.runId = run ∧ t.weekStart = s.targetWeekStart) ∧
      (∀ id t, σ.db.tasks.get id = some t → t.runId ∈ σ.db.accepted) ∧
      ∀ run run' week, Active σ.db run week → Active σ.db run' week → run = run' := by
  have hI : Inv maxAttempts σ.db := inv_reached h
  refine ⟨fun id hid => ?_, fun l σ' hstep id r' hr' hs' => ?_, hI.ok.attempts, fun id t r ht hr =>
    ⟨hI.ok.published_iff id t r ht hr, hI.ok.reconciliation_iff id t r ht hr⟩, hI.ok.accepted,
    hI.ok.tasks, hI.ok.one⟩
  · obtain ⟨r, hr⟩ := (Table.mem_keys _ _).1 ((hI.ok.paired id).1 hid)
    exact Table.count_keys hr
  · have hI' : Inv maxAttempts σ'.db := inv_reached (h.step hstep)
    obtain ⟨more, hmore⟩ : ∃ more, Publishes σ.db σ'.db more := by
      cases hstep with
      | commit hi => exact applyAll_publishes _ _
      | world hworld => exact ⟨[], .same hworld.publications hworld.outbox⟩
      | _ => exact ⟨[], .same rfl rfl⟩
    exact hmore.acknowledged hI hI' hr' hs'

/-- The relay that holds the row commits. -/
theorem closeClaim_commits (runId taskId token : Uuid)
    (h : ((claimedDb runId taskId token).claims.get token).isSome)
    (hok : (eval tables.toSchema (closeClaim 8 300 token)
      (answeredDb (claimedDb runId taskId token) token)).isOk = true) :
    ∃ (σ σ' : System Unit Db Write Lock Unit CodedError Unit) (own : List Write),
      Reachable tables (Transaction id 8) (start 0 {}) σ ∧
      σ.db = answeredDb (claimedDb runId taskId token) token ∧
      ReadCommitted.Step tables (Transaction id 8) σ (.commit () () own) σ' ∧
      σ'.db = publishedDb runId taskId token := by
  cases hrun : eval tables.toSchema (closeClaim 8 300 token)
      (answeredDb (claimedDb runId taskId token) token) with
  | error e =>
    rw [hrun] at hok
    cases hok
  | ok result =>
    obtain ⟨⟨⟩, db'⟩ := result
    obtain ⟨σ, own, hσ, hdb, hstep⟩ :=
      eval_commits () (.close 300 token) (answeredDb_reachable runId taskId token h) hrun
    refine ⟨σ, _, own, hσ, hdb, hstep, ?_⟩
    rw [publishedDb, run_none, hrun]
    rfl

theorem acceptances_dispatched_once :
    ∃ (σ σ' : System Unit Db Write Lock Unit CodedError Unit) (own : List Write),
      ReadCommitted.Step tables (Transaction id 8) σ (.commit () () own) σ' ∧
      (σ.db.outbox.get (sameDigits 2)).map Row.status = some .publishing ∧
      (σ'.db.outbox.get (sameDigits 2)).map Row.status = some .published ∧
      Acknowledged σ.db σ'.db (sameDigits 2) := by
  obtain ⟨σ, σ', own, hσ, hdb, hstep, hdb'⟩ := closeClaim_commits (sameDigits 1) (sameDigits 2) (sameDigits 3)
    (by decide +kernel) (by decide +kernel)
  have hbefore : (σ.db.outbox.get (sameDigits 2)).map Row.status = some .publishing := by
    rw [hdb]
    decide +kernel
  have hafter : (σ'.db.outbox.get (sameDigits 2)).map Row.status = some .published := by
    rw [hdb']
    decide +kernel
  refine ⟨σ, σ', own, hstep, hbefore, hafter, ?_⟩
  obtain ⟨r', hr', hs'⟩ := Option.map_eq_some_iff.1 hafter
  rcases (acceptances_dispatched hσ).2.1 _ σ' hstep _ r' hr' hs' with ⟨r, hr, hs⟩ | hacknowledged
  · rw [hr, Option.map_some, hs] at hbefore
    cases hbefore
  · exact hacknowledged

end TrackFlow.TaskQueue.Dispatch
