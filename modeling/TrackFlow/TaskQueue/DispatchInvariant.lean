import TrackFlow.TaskQueue.Dispatch

/-!
# Tasks and their dispatch rows move together

`Inv` relates each task to its outbox row, the row to the claims and publications made of it, and the
accepted runs to their tasks. `Agree` is what the holder of some locks may rely on, and `rules` are the
proof rules of the two.

- `Inv.claim`, `Inv.acknowledge`, `Inv.refuse`, `Inv.refuse_last`, `Inv.accept`, `Inv.create`: what the
  writes of a transaction do to the invariant;
- `Agree.frame`: a write leaves what the locks of others protect.
-/

namespace TrackFlow.TaskQueue.Dispatch

open TrackFlow.Python TrackFlow.Pipelines TrackFlow.ReadCommitted
open TrackFlow.Pipelines.Lifecycle (StoredRun)

variable {weekKey : Int → Int} {maxAttempts : Nat} {db db' : Db}

/-! ## The invariant -/

/-- What a task says of a row with this status. -/
def Status.dispatch : Status → DispatchStatus
  | .published => .published
  | .reconciliationRequired => .reconciliationRequired
  | _ => .pending

theorem Status.dispatch_given {s : Status} :
    s.dispatch = .reconciliationRequired ↔ s = .reconciliationRequired := by
  cases s <;> simp [Status.dispatch]

theorem Status.dispatch_published {s : Status} : s.dispatch = .published ↔ s = .published := by
  cases s <;> simp [Status.dispatch]

/-- A run that `accept_async_task` created is active in the week. -/
def Active (db : Db) (run : Uuid) (week : Int) : Prop :=
  run ∈ db.accepted ∧ ∃ r, db.runs.get run = some r ∧ r.targetWeekStart = week ∧ active r = true

/-- An outbox row and its task. -/
structure RowOk (maxAttempts : Nat) (db : Db) (id : Uuid) (r : Row) (t : Task) : Prop where
  dispatch : t.dispatchStatus = r.status.dispatch
  payload : r.payload = ⟨1, id, t.runId, t.weekStart⟩
  attempts : r.publishAttempts ≤ maxAttempts
  held : r.status = .publishing → ∃ lease c, r.relay = some lease ∧
    db.claims.get lease.token = some c ∧ c.taskId = id ∧ c.publishAttempts = r.publishAttempts
  uncertain : r.status = .publicationUncertain → r.publishAttempts < maxAttempts
  claims : ∀ token c, db.claims.get token = some c → c.taskId = id →
    c.publishAttempts ≤ r.publishAttempts ∧ (maxAttempts ≤ c.publishAttempts →
      r.heldBy token = true ∨ r.status = .reconciliationRequired ∨
        (r.status = .published ∧ db.answers.get token = some .returned))
  published : r.status = .published → ∃ p ∈ db.publications, p.taskId = id

/-- A task and its row come together. -/
inductive Paired (maxAttempts : Nat) (db : Db) (id : Uuid) : Option Row → Option Task → Prop
  | none : Paired maxAttempts db id none none
  | some {r : Row} {t : Task} : RowOk maxAttempts db id r t → Paired maxAttempts db id (some r) (some t)

/-- A publication was recorded for a claim whose publisher had returned. -/
def PublicationOk (db : Db) (p : Publication) : Prop :=
  ∃ token c, p.token = some token ∧ p.answer = some .returned ∧
    db.claims.get token = some c ∧ c.taskId = p.taskId

/-- The accepted runs, their tasks, and that a week has one active run at most. -/
structure Base (db : Db) : Prop where
  task_run : ∀ id t, db.tasks.get id = some t → t.runId ∈ db.accepted ∧
    ∃ r, db.runs.get t.runId = some r ∧ r.targetWeekStart = t.weekStart
  run_task : ∀ run ∈ db.accepted, ∃ id t, db.tasks.get id = some t ∧ t.runId = run
  one : ∀ run run' week, Active db run week → Active db run' week → run = run'

/-- The claims of a task have different numbers. -/
structure Numbered (db : Db) : Prop where
  positive : ∀ token c, db.claims.get token = some c → 0 < c.publishAttempts
  distinct : ∀ token token' c c', db.claims.get token = some c → db.claims.get token' = some c' →
    c.taskId = c'.taskId → c.publishAttempts = c'.publishAttempts → token = token'

theorem Numbered.congr (h : Numbered db) (hclaims : db'.claims = db.claims) : Numbered db' :=
  ⟨hclaims ▸ h.positive, hclaims ▸ h.distinct⟩

/-- What every committed state satisfies. -/
structure Inv (maxAttempts : Nat) (db : Db) : Prop where
  base : Base db
  paired : ∀ id, Paired maxAttempts db id (db.outbox.get id) (db.tasks.get id)
  publications : ∀ p ∈ db.publications, PublicationOk db p
  claimed : ∀ token c, db.claims.get token = some c → ∃ r, db.outbox.get c.taskId = some r
  numbered : Numbered db

theorem Inv.row {id : Uuid} {r : Row} (hI : Inv maxAttempts db) (h : db.outbox.get id = some r) :
    ∃ t, db.tasks.get id = some t ∧ RowOk maxAttempts db id r t := by
  have hp := hI.paired id
  rw [h] at hp
  cases ht : db.tasks.get id with
  | none =>
    rw [ht] at hp
    cases hp
  | some t =>
    rw [ht] at hp
    cases hp with
    | some hok => exact ⟨t, rfl, hok⟩

theorem Inv.task {id : Uuid} {t : Task} (hI : Inv maxAttempts db) (h : db.tasks.get id = some t) :
    ∃ r, db.outbox.get id = some r ∧ RowOk maxAttempts db id r t := by
  have hp := hI.paired id
  rw [h] at hp
  cases hr : db.outbox.get id with
  | none =>
    rw [hr] at hp
    cases hp
  | some r =>
    rw [hr] at hp
    cases hp with
    | some hok => exact ⟨r, rfl, hok⟩

theorem Inv.rowOk {id : Uuid} {r : Row} {t : Task} (hI : Inv maxAttempts db)
    (ht : db.tasks.get id = some t) (hr : db.outbox.get id = some r) : RowOk maxAttempts db id r t := by
  obtain ⟨t', ht', hok⟩ := hI.row hr
  rw [ht, Option.some.injEq] at ht'
  exact ht' ▸ hok

theorem Inv.no_task {id : Uuid} (hI : Inv maxAttempts db) (h : db.outbox.get id = none) :
    db.tasks.get id = none := by
  cases ht : db.tasks.get id with
  | none => rfl
  | some t =>
    obtain ⟨r, hr, -⟩ := hI.task ht
    rw [h] at hr
    cases hr

/-- The parts of a task that its run and its payload depend on. -/
def skeleton (t : Task) : Uuid × Int := (t.runId, t.weekStart)

theorem skeleton_some {a b : Table Uuid Task} {id : Uuid} {t : Task}
    (h : (b.get id).map skeleton = (a.get id).map skeleton) (ht : b.get id = some t) :
    ∃ t₀, a.get id = some t₀ ∧ t.runId = t₀.runId ∧ t.weekStart = t₀.weekStart := by
  rw [ht] at h
  obtain ⟨t₀, ht₀, hskel⟩ := Option.map_eq_some_iff.1 h.symm
  simp only [skeleton, Prod.mk.injEq] at hskel
  exact ⟨t₀, ht₀, hskel.1.symm, hskel.2.symm⟩

/-- Changes of tasks that keep their runs and weeks. -/
theorem Base.congr (h : Base db) (hruns : db'.runs = db.runs) (haccepted : db'.accepted = db.accepted)
    (htasks : ∀ id, (db'.tasks.get id).map skeleton = (db.tasks.get id).map skeleton) : Base db' := by
  constructor
  · intro id t ht
    obtain ⟨t₀, ht₀, hrun, hweek⟩ := skeleton_some (htasks id) ht
    rw [haccepted, hruns, hrun, hweek]
    exact h.task_run id t₀ ht₀
  · intro run hrun
    rw [haccepted] at hrun
    obtain ⟨id, t₀, ht₀, rfl⟩ := h.run_task run hrun
    obtain ⟨t, ht, hid, -⟩ := skeleton_some (htasks id).symm ht₀
    exact ⟨id, t, ht, hid.symm⟩
  · intro run run' week hrun hrun'
    simp only [Active, haccepted, hruns] at hrun hrun'
    exact h.one run run' week hrun hrun'

/-! ## What writes change -/

section Writes

variable {id : Uuid} {r : Row}

theorem get_setRow (matching : Row → Bool) (f : Row → Row) (k : Uuid) :
    (db.setRow id matching f).outbox.get k =
      if k = id then (db.outbox.get k).map fun r => if matching r then f r else r
      else db.outbox.get k := Table.get_modify ..

theorem apply_claim {now : Int} {lease : RelayLease} (h : db.outbox.get id = some r)
    (hready : r.ready maxAttempts now = true) :
    db.apply (.claim id maxAttempts now lease) =
      { db.setRow id (fun _ => true) (·.claimed lease) with
        claims := db.claims.insert lease.token ⟨id, r.payload, r.publishAttempts + 1⟩ } := by
  simp only [Db.apply, h, hready, if_true]

/-- A claim that takes no row. -/
theorem apply_claim_idle {now : Int} {lease : RelayLease}
    (h : ∀ r, db.outbox.get id = some r → r.ready maxAttempts now = false) :
    db.apply (.claim id maxAttempts now lease) = db := by
  cases hr : db.outbox.get id with
  | none => simp only [Db.apply, hr]
  | some r => simp [Db.apply, hr, h r hr]

theorem apply_acknowledge {token : Uuid} {now : Int} (h : db.outbox.get id = some r)
    (hheld : r.heldBy token = true) :
    db.apply (.acknowledge id token now) =
      { db.setRow id (fun _ => true) (·.acknowledged now) with
        publications := db.publications ++ [db.publication id r] } := by
  simp only [Db.apply, h, hheld, if_true]

/-- An acknowledgement that comes too late. -/
theorem apply_acknowledge_idle {token : Uuid} {now : Int}
    (h : ∀ r, db.outbox.get id = some r → r.heldBy token = false) :
    db.apply (.acknowledge id token now) = db := by
  cases hr : db.outbox.get id with
  | none => simp only [Db.apply, hr]
  | some r => simp [Db.apply, hr, h r hr]

/-- A claim either takes a row or does nothing. -/
theorem claim_cases (id : Uuid) (now : Int) (lease : RelayLease) :
    db.apply (.claim id maxAttempts now lease) = db ∨ ∃ r, db.outbox.get id = some r ∧
      r.ready maxAttempts now = true ∧ db.apply (.claim id maxAttempts now lease) =
      { db.setRow id (fun _ => true) (·.claimed lease) with
        claims := db.claims.insert lease.token ⟨id, r.payload, r.publishAttempts + 1⟩ } := by
  by_cases h : ∃ r, db.outbox.get id = some r ∧ r.ready maxAttempts now = true
  · obtain ⟨r, hr, hready⟩ := h
    exact Or.inr ⟨r, hr, hready, apply_claim hr hready⟩
  · simp only [not_exists, not_and, Bool.not_eq_true] at h
    exact Or.inl (apply_claim_idle h)

/-- An acknowledgement either publishes a row or does nothing. -/
theorem acknowledge_cases (id token : Uuid) (now : Int) :
    db.apply (.acknowledge id token now) = db ∨ ∃ r, db.outbox.get id = some r ∧
      r.heldBy token = true ∧ db.apply (.acknowledge id token now) =
      { db.setRow id (fun _ => true) (·.acknowledged now) with
        publications := db.publications ++ [db.publication id r] } := by
  by_cases h : ∃ r, db.outbox.get id = some r ∧ r.heldBy token = true
  · obtain ⟨r, hr, hheld⟩ := h
    exact Or.inr ⟨r, hr, hheld, apply_acknowledge hr hheld⟩
  · simp only [not_exists, not_and, Bool.not_eq_true] at h
    exact Or.inl (apply_acknowledge_idle h)

/-- A run that no request asked for is new, or nothing happens. -/
theorem create_cases (db : Db) (row : StoredRun) :
    db.apply (.create row) = db ∨ (db.runs.get row.runId = none ∧ row.runId ∉ db.accepted ∧
      db.apply (.create row) = { db with runs := db.runs.insert row.runId row }) := by
  by_cases h : (db.runs.get row.runId).isSome || row.runId ∈ db.accepted
  · exact Or.inl (by simp only [Db.apply, h, if_true])
  · simp only [Bool.or_eq_true, decide_eq_true_eq, not_or, Bool.not_eq_true, Option.isSome_eq_false_iff,
      Option.isNone_iff_eq_none] at h
    exact Or.inr ⟨h.1, h.2, by simp [Db.apply, h.1, h.2]⟩

/-- It is none of those that were accepted. -/
theorem active_of_create {row : StoredRun} {run : Uuid} {week : Int} (hnew : row.runId ∉ db.accepted)
    (h : Active { db with runs := db.runs.insert row.runId row } run week) : Active db run week := by
  obtain ⟨hmem, r, hr, hweek, hact⟩ := h
  have hne : run ≠ row.runId := by
    rintro rfl
    exact hnew hmem
  exact ⟨hmem, r, (Table.get_insert_of_ne hne).symm.trans hr, hweek, hact⟩

end Writes

/-- The locks that a write is made under. -/
def guard (weekKey : Int → Int) : Write → Set Lock
  | .run row => {.run row.runId, .week (weekKey row.targetWeekStart)}
  | .create row => {.run row.runId}
  | .task id _ | .dispatched id | .undispatched id => {.task id}
  | .outbox id _ | .abandon id _ | .giveUp id _ | .acknowledge id _ _ | .refuse id _ _ _ _ => {.row id}
  | .claim id _ _ lease => {.row id, .token lease.token}

/-- A row that no relay changes any more. -/
def Row.closed (r : Row) : Prop := r.status = .published ∨ r.status = .reconciliationRequired

/-- What the holder of the locks `L` can rely on. -/
structure Agree (weekKey : Int → Int) (L : Set Lock) (a b : Db) : Prop where
  rows : ∀ id, .row id ∈ L → b.outbox.get id = a.outbox.get id
  closed : ∀ id r, a.outbox.get id = some r → r.closed → b.outbox.get id = some r
  claims : ∀ token c, a.claims.get token = some c → b.claims.get token = some c
  unclaimed : ∀ token, .token token ∈ L → a.claims.get token = none → b.claims.get token = none
  answers : ∀ token answer, a.answers.get token = some answer → b.answers.get token = some answer
  tasks : ∀ id, .task id ∈ L → a.tasks.get id = none → b.tasks.get id = none
  runs : ∀ run, .run run ∈ L → a.runs.get run = none → b.runs.get run = none
  weeks : ∀ run week, .week (weekKey week) ∈ L → Active b run week → Active a run week

theorem Agree.refl (L : Set Lock) (db : Db) : Agree weekKey L db db :=
  ⟨fun _ _ => rfl, fun _ _ h _ => h, fun _ _ h => h, fun _ _ h => h, fun _ _ h => h, fun _ _ h => h,
    fun _ _ h => h, fun _ _ _ h => h⟩

theorem Agree.trans {L : Set Lock} {a b c : Db} (h : Agree weekKey L a b) (h' : Agree weekKey L b c) :
    Agree weekKey L a c where
  rows id hL := (h'.rows id hL).trans (h.rows id hL)
  closed id r hr hc := h'.closed id r (h.closed id r hr hc) hc
  claims token x hx := h'.claims token x (h.claims token x hx)
  unclaimed token hL hx := h'.unclaimed token hL (h.unclaimed token hL hx)
  answers token x hx := h'.answers token x (h.answers token x hx)
  tasks id hL hx := h'.tasks id hL (h.tasks id hL hx)
  runs run hL hx := h'.runs run hL (h.runs run hL hx)
  weeks run week hL hx := h.weeks run week hL (h'.weeks run week hL hx)

theorem Agree.mono {L M : Set Lock} {a b : Db} (hLM : L ⊆ M) (h : Agree weekKey M a b) :
    Agree weekKey L a b where
  rows id hL := h.rows id (hLM hL)
  closed := h.closed
  claims := h.claims
  unclaimed token hL := h.unclaimed token (hLM hL)
  answers := h.answers
  tasks id hL := h.tasks id (hLM hL)
  runs run hL := h.runs run (hLM hL)
  weeks run week hL := h.weeks run week (hLM hL)

section Frame

variable {L : Set Lock}

/-- A change of one row that is not in `L`, and of no closed row. -/
theorem Agree.setRow {id : Uuid} {matching : Row → Bool} {f : Row → Row} (hL : .row id ∉ L)
    (hopen : ∀ r, db.outbox.get id = some r → r.closed → matching r = false) :
    Agree weekKey L db (db.setRow id matching f) where
  rows k hk := by
    have hne : k ≠ id := by
      rintro rfl
      exact hL hk
    rw [get_setRow, if_neg hne]
  closed k r hr hc := by
    rw [get_setRow]
    by_cases hk : k = id
    · subst hk
      simp [hr, hopen r hr hc]
    · rw [if_neg hk, hr]
  claims _ _ h := h
  unclaimed _ _ h := h
  answers _ _ h := h
  tasks _ _ h := h
  runs _ _ h := h
  weeks _ _ _ h := h

theorem Agree.modifyTask {id : Uuid} {f : Task → Task} :
    Agree weekKey L db { db with tasks := db.tasks.modify id f } where
  rows _ _ := rfl
  closed _ _ h _ := h
  claims _ _ h := h
  unclaimed _ _ h := h
  answers _ _ h := h
  tasks k _ h := by
    show (db.tasks.modify id f).get k = none
    rw [Table.get_modify, h]
    simp
  runs _ _ h := h
  weeks _ _ _ h := h

theorem ready_open {r : Row} {now : Int} (h : r.closed) : r.ready maxAttempts now = false := by
  rcases h with h | h <;> simp [Row.ready, Row.waiting, h]

theorem heldBy_open {r : Row} {token : Uuid} (h : r.closed) : r.heldBy token = false := by
  rcases h with h | h <;> simp [Row.heldBy, h]

/-- **Frame**: a write leaves what the locks of others protect. -/
theorem Agree.frame {w : Write} (h : Disjoint (guard weekKey w) L) : Agree weekKey L db (db.apply w) := by
  have hout : ∀ k ∈ guard weekKey w, k ∉ L := fun k hk => Set.disjoint_left.1 h hk
  cases w with
  | run row =>
    simp only [Db.apply]
    split
    · exact Agree.refl L db
    · rename_i hnew
      have hnone : db.runs.get row.runId = none := by simpa using hnew
      refine { (Agree.refl L db : Agree weekKey L db db) with
        runs := fun run hL hrun => ?_
        weeks := fun run week hL hactive => ?_ }
      · have hne : run ≠ row.runId := by
          rintro rfl
          exact hout _ (Or.inl rfl) hL
        exact (Table.get_insert_of_ne hne).trans hrun
      · obtain ⟨hmem, r, hr, hweek, hact⟩ := hactive
        by_cases hrun : run = row.runId
        · subst hrun
          rw [show _ = some row from Table.get_insert_self hnone, Option.some.injEq] at hr
          subst hr
          subst hweek
          exact absurd hL (hout _ (Or.inr rfl))
        · rw [show _ = db.runs.get run from Table.get_insert_of_ne hrun] at hr
          refine ⟨?_, r, hr, hweek, hact⟩
          simpa [hrun] using hmem
  | create row =>
    rcases create_cases db row with hidle | ⟨hnone, hnew, happly⟩
    · rw [hidle]
      exact Agree.refl L db
    · rw [happly]
      refine { (Agree.refl L db : Agree weekKey L db db) with
        runs := fun run hL hrun => ?_
        weeks := fun run week _ hactive => ?_ }
      · have hne : run ≠ row.runId := by
          rintro rfl
          exact hout _ rfl hL
        exact (Table.get_insert_of_ne hne).trans hrun
      · exact active_of_create hnew hactive
  | task id t =>
    refine { (Agree.refl L db : Agree weekKey L db db) with tasks := fun k hL hk => ?_ }
    have hne : k ≠ id := by
      rintro rfl
      exact hout _ rfl hL
    exact (Table.get_insert_of_ne hne).trans hk
  | outbox id r =>
    refine { (Agree.refl L db : Agree weekKey L db db) with
      rows := fun k hL => ?_
      closed := fun k s hs _ => ?_ }
    · have hne : k ≠ id := by
        rintro rfl
        exact hout _ rfl hL
      exact Table.get_insert_of_ne hne
    · exact Table.get_insert_of_some hs
  | abandon id now =>
    refine Agree.setRow (hout _ rfl) fun r _ hc => ?_
    rcases hc with hc | hc <;> simp [Row.expired, hc]
  | giveUp id m =>
    refine Agree.setRow (hout _ rfl) fun r _ hc => ?_
    rcases hc with hc | hc <;> simp [Row.exhausted, Row.waiting, hc]
  | claim id m now lease =>
    rcases @claim_cases m db id now lease with hidle | ⟨r, hr, hready, happly⟩
    · rw [hidle]
      exact Agree.refl L db
    · have hrow : Agree weekKey L db (db.setRow id (fun _ => true) (·.claimed lease)) := by
        refine Agree.setRow (hout _ (Or.inl rfl)) fun s hs hc => ?_
        rw [hr, Option.some.injEq] at hs
        subst hs
        rw [ready_open hc] at hready
        cases hready
      rw [happly]
      refine { hrow with claims := fun token c hc => ?_, unclaimed := fun token hL hnone => ?_ }
      · exact Table.get_insert_of_some hc
      · have hne : token ≠ lease.token := by
          rintro rfl
          exact hout _ (Or.inr rfl) hL
        exact (Table.get_insert_of_ne hne).trans hnone
  | acknowledge id token now =>
    rcases @acknowledge_cases db id token now with hidle | ⟨r, hr, hheld, happly⟩
    · rw [hidle]
      exact Agree.refl L db
    · have hrow : Agree weekKey L db (db.setRow id (fun _ => true) (·.acknowledged now)) := by
        refine Agree.setRow (hout _ rfl) fun s hs hc => ?_
        rw [hr, Option.some.injEq] at hs
        subst hs
        rw [heldBy_open hc] at hheld
        cases hheld
      rw [happly]
      exact { hrow with }
  | refuse id token m retryAt code => exact Agree.setRow (hout _ rfl) fun r _ hc => heldBy_open hc
  | dispatched id => exact Agree.modifyTask
  | undispatched id => exact Agree.modifyTask

end Frame

/-! ## The rules -/

theorem active_of_change {r r' : StoredRun} (h : r'.status = r.status ∨ Lifecycle.Change r r')
    (hactive : active r' = true) : active r = true := by
  rcases h with h | h
  · simpa [active, h] using hactive
  · have hopen := h.open_
    revert hopen
    cases hs : r.status <;> simp [active, hs, RunStatus.terminal, RunStatus.next]

theorem World.active {run : Uuid} {week : Int} (h : World db db') (hactive : Active db' run week) :
    Active db run week := by
  obtain ⟨hmem, r', hr', hweek, hact⟩ := hactive
  obtain ⟨r, hr, hsame, hchange⟩ := h.runs.of_some hr'
  exact ⟨h.accepted ▸ hmem, r, hr, hsame ▸ hweek, active_of_change hchange hact⟩

theorem World.agree {L : Set Lock} (h : World db db') : Agree weekKey L db db' where
  rows id _ := by rw [h.outbox]
  closed id r hr _ := by rw [h.outbox, hr]
  claims token c hc := by rw [h.claims, hc]
  unclaimed token _ hc := by rw [h.claims, hc]
  answers := h.answered
  tasks id _ hid := h.tasks.none hid
  runs run _ hrun := h.runs.none hrun
  weeks _ _ _ := h.active

theorem RowOk.world {id : Uuid} {r : Row} {t t' : Task} (hok : RowOk maxAttempts db id r t)
    (h : World db db')
    (ht : t'.runId = t.runId ∧ t'.weekStart = t.weekStart ∧ t'.dispatchStatus = t.dispatchStatus) :
    RowOk maxAttempts db' id r t' := by
  obtain ⟨hrun, hweek, hdispatch⟩ := ht
  refine ⟨hdispatch.trans hok.dispatch, by rw [hrun, hweek]; exact hok.payload, hok.attempts, ?_,
    hok.uncertain, fun token c hc hid => ?_, ?_⟩
  · rw [h.claims]
    exact hok.held
  · rw [h.claims] at hc
    obtain ⟨hle, hlast⟩ := hok.claims token c hc hid
    refine ⟨hle, fun hmax => ?_⟩
    rcases hlast hmax with hheld | hrec | ⟨hpub, hans⟩
    · exact Or.inl hheld
    · exact Or.inr (Or.inl hrec)
    · exact Or.inr (Or.inr ⟨hpub, h.answered token _ hans⟩)
  · rw [h.publications]
    exact hok.published

theorem World.inv (h : World db db') (hI : Inv maxAttempts db) : Inv maxAttempts db' := by
  refine ⟨⟨fun id t' ht' => ?_, fun run hrun => ?_, fun run run' week hrun hrun' => ?_⟩, fun id => ?_,
    fun p hp => ?_, fun token c hc => ?_, hI.numbered.congr h.claims⟩
  · obtain ⟨t, ht, hid, hweek, -⟩ := h.tasks.of_some ht'
    obtain ⟨hmem, r, hr, hr_week⟩ := hI.base.task_run id t ht
    obtain ⟨r', hr', hsame, -⟩ := h.runs.some hr
    rw [h.accepted, hid, hweek]
    exact ⟨hmem, r', hr', hsame.trans hr_week⟩
  · rw [h.accepted] at hrun
    obtain ⟨id, t, ht, rfl⟩ := hI.base.run_task run hrun
    obtain ⟨t', ht', hid, -⟩ := h.tasks.some ht
    exact ⟨id, t', ht', hid⟩
  · exact hI.base.one run run' week (h.active hrun) (h.active hrun')
  · have hp := hI.paired id
    rw [h.outbox]
    cases ht : db.tasks.get id with
    | none =>
      rw [ht] at hp
      rw [h.tasks.none ht]
      cases hr : db.outbox.get id with
      | none => exact .none
      | some r =>
        rw [hr] at hp
        cases hp
    | some t =>
      obtain ⟨t', ht', hsame⟩ := h.tasks.some ht
      obtain ⟨r, hr, hok⟩ := hI.task ht
      rw [ht', hr]
      exact .some (hok.world h hsame)
  · rw [h.publications] at hp
    obtain ⟨token, c, htoken, hans, hc, hid⟩ := hI.publications p hp
    exact ⟨token, c, htoken, hans, by rw [h.claims]; exact hc, hid⟩
  · rw [h.claims] at hc
    rw [h.outbox]
    exact hI.claimed token c hc

/-- The rules of the dispatch outbox. -/
def rules (weekKey : Int → Int) (maxAttempts : Nat) : Rules tables Lock Unit where
  Inv := Inv maxAttempts
  made _ _ := True
  told _ _ := True
  agree := Agree weekKey
  guard := guard weekKey
  refl := Agree.refl
  trans := Agree.trans
  mono := Agree.mono
  frame := Agree.frame
  world_agree := World.agree
  world_inv := World.inv

section Stable

variable (weekKey maxAttempts)

/-- What a lock protects. -/
theorem stable_locked {k : Lock} {f : Db → Prop} (h : ∀ L a b, k ∈ L → Agree weekKey L a b → f a → f b) :
    (rules weekKey maxAttempts).Stable fun L _ db => k ∈ L ∧ f db :=
  ⟨fun hp ha _ => ⟨hp.1, h _ _ _ hp.1 ha hp.2⟩, fun hL hp => ⟨hL hp.1, hp.2⟩⟩

/-- What nobody takes back. -/
theorem stable_kept {f : Db → Prop} (h : ∀ L a b, Agree weekKey L a b → f a → f b) :
    (rules weekKey maxAttempts).Stable fun _ _ db => f db :=
  ⟨fun hp ha _ => h _ _ _ ha hp, fun _ hp => hp⟩

theorem stable_own (ws : List Write) : (rules weekKey maxAttempts).Stable fun _ own _ => own = ws :=
  ⟨fun hp _ _ => hp, fun _ hp => hp⟩

variable {weekKey maxAttempts}

/-- What holds before the first write goes on to hold. -/
theorem unwritten {P : Set Lock → List Write → Db → Prop} {L : Set Lock}
    (hs : (rules weekKey maxAttempts).Stable P) (hp : P L [] db) (ha : Agree weekKey L db db')
    (hI : Inv maxAttempts db') : P L [] db' := hs.others hp ha hI

end Stable

/-! ## One row at a time -/

section Change

variable {id : Uuid} {r r' : Row} {t t' : Task} {token : Uuid} {c : Claimed} {now : Int}

/-- Rows look at the claims, the answers and the publications only. -/
theorem RowOk.congr (h : RowOk maxAttempts db id r t)
    (hclaims : ∀ token c, db.claims.get token = some c → db'.claims.get token = some c)
    (hback : ∀ token c, db'.claims.get token = some c → c.taskId = id → db.claims.get token = some c)
    (hanswers : db'.answers = db.answers)
    (hpublications : ∀ p ∈ db.publications, p ∈ db'.publications) : RowOk maxAttempts db' id r t := by
  refine ⟨h.dispatch, h.payload, h.attempts, fun hs => ?_, h.uncertain, fun token c hc hid => ?_,
    fun hs => ?_⟩
  · obtain ⟨lease, c, hlease, hc, hrest⟩ := h.held hs
    exact ⟨lease, c, hlease, hclaims _ _ hc, hrest⟩
  · rw [hanswers]
    exact h.claims token c (hback token c hc hid) hid
  · obtain ⟨p, hp, hid⟩ := h.published hs
    exact ⟨p, hpublications p hp, hid⟩

theorem PublicationOk.congr {p : Publication} (h : PublicationOk db p)
    (hclaims : ∀ token c, db.claims.get token = some c → db'.claims.get token = some c) :
    PublicationOk db' p := by
  obtain ⟨token, c, htoken, hanswer, hc, hid⟩ := h
  exact ⟨token, c, htoken, hanswer, hclaims token c hc, hid⟩

/-- A change of one row and its task, and what is remembered with it. -/
structure Changes (db db' : Db) (id : Uuid) (r' : Row) (t' : Task) : Prop where
  runs : db'.runs = db.runs
  accepted : db'.accepted = db.accepted
  answers : db'.answers = db.answers
  row : ∀ k, db'.outbox.get k = if k = id then some r' else db.outbox.get k
  task : ∀ k, db'.tasks.get k = if k = id then some t' else db.tasks.get k
  claims : ∀ token c, db.claims.get token = some c → db'.claims.get token = some c
  claimed : ∀ token c, db'.claims.get token = some c → db.claims.get token = some c ∨ c.taskId = id
  publications : ∀ p ∈ db.publications, p ∈ db'.publications
  published : ∀ p ∈ db'.publications, p ∈ db.publications ∨ PublicationOk db' p
  numbered : Numbered db'

theorem Inv.change (hI : Inv maxAttempts db) (db' : Db) (r' : Row) (t' : Task)
    (h : Changes db db' id r' t') (ht : db.tasks.get id = some t)
    (hskel : skeleton t' = skeleton t) (hok : RowOk maxAttempts db' id r' t') : Inv maxAttempts db' := by
  refine ⟨hI.base.congr h.runs h.accepted fun k => ?_, fun k => ?_, fun p hp => ?_, fun token c hc => ?_,
    h.numbered⟩
  · rw [h.task]
    split
    · rename_i hk
      subst hk
      simp [ht, hskel]
    · rfl
  · rw [h.row, h.task]
    split
    · rename_i hk
      subst hk
      exact .some hok
    · rename_i hk
      have hp := hI.paired k
      revert hp
      cases db.outbox.get k <;> cases db.tasks.get k <;> intro hp
      · exact .none
      · cases hp
      · cases hp
      · cases hp with
        | some hold =>
          refine .some (hold.congr h.claims (fun token c hc hck => ?_) h.answers h.publications)
          rcases h.claimed token c hc with hc | hc
          · exact hc
          · exact absurd (hck.symm.trans hc) hk
  · rcases h.published p hp with hp | hp
    · exact (hI.publications p hp).congr h.claims
    · exact hp
  · rw [h.row]
    split
    · exact ⟨r', rfl⟩
    · rename_i hk
      rcases h.claimed token c hc with hc | hc
      · exact hI.claimed token c hc
      · exact absurd hc hk

theorem get_modifyTask (f : Task → Task) (ht : db.tasks.get id = some t) (k : Uuid) :
    (db.tasks.modify id f).get k = if k = id then some (f t) else db.tasks.get k := by
  rw [Table.get_modify]
  split
  · rename_i hk
    subst hk
    rw [ht]
    rfl
  · rfl

theorem get_setRow_of {matching : Row → Bool} {f : Row → Row} (hr : db.outbox.get id = some r)
    (hmatch : matching r = true) (k : Uuid) :
    (db.setRow id matching f).outbox.get k = if k = id then some (f r) else db.outbox.get k := by
  rw [get_setRow]
  split
  · rename_i hk
    subst hk
    simp [hr, hmatch]
  · rfl

theorem heldBy_iff : r.heldBy token = true ↔
    r.status = .publishing ∧ ∃ lease, r.relay = some lease ∧ lease.token = token := by
  simp only [Row.heldBy, Bool.and_eq_true, decide_eq_true_eq, Option.any_eq_true]

theorem get_self (k : Uuid) (hr : db.outbox.get id = some r) :
    db.outbox.get k = if k = id then some r else db.outbox.get k := by
  split
  · rename_i hk
    rw [hk, hr]
  · rfl

theorem get_task_self (k : Uuid) (ht : db.tasks.get id = some t) :
    db.tasks.get k = if k = id then some t else db.tasks.get k := by
  split
  · rename_i hk
    rw [hk, ht]
  · rfl

/-- A new claim has a number of its own. -/
theorem Numbered.claim {lease : RelayLease} {f : Row → Row} (h : Numbered db)
    (hok : RowOk maxAttempts db id r t) (hfresh : db.claims.get lease.token = none) :
    Numbered { db.setRow id (fun _ => true) f with
      claims := db.claims.insert lease.token ⟨id, r.payload, r.publishAttempts + 1⟩ } := by
  have hget : ∀ token c, (db.claims.insert lease.token ⟨id, r.payload, r.publishAttempts + 1⟩).get token =
      some c → db.claims.get token = some c ∨
      (token = lease.token ∧ c = ⟨id, r.payload, r.publishAttempts + 1⟩) := by
    intro token c hc
    rw [Table.get_insert] at hc
    by_cases htoken : token = lease.token
    · rw [htoken, hfresh, if_pos rfl, Option.none_or, Option.some.injEq] at hc
      exact Or.inr ⟨htoken, hc.symm⟩
    · rw [if_neg htoken, Option.or_none] at hc
      exact Or.inl hc
  have hless : ∀ token c, db.claims.get token = some c → c.taskId = id →
      c.publishAttempts ≠ r.publishAttempts + 1 := fun token c hc hid => by
    have hle := (hok.claims token c hc hid).1
    omega
  constructor
  · intro token c hc
    rcases hget token c hc with hc | ⟨-, rfl⟩
    · exact h.positive token c hc
    · exact Nat.succ_pos _
  · intro token token' c c' hc hc' hid hnumber
    rcases hget token c hc with hc | ⟨rfl, rfl⟩
    · rcases hget token' c' hc' with hc' | ⟨rfl, rfl⟩
      · exact h.distinct token token' c c' hc hc' hid hnumber
      · exact absurd hnumber (hless token c hc hid)
    · rcases hget token' c' hc' with hc' | ⟨rfl, rfl⟩
      · exact absurd hnumber.symm (hless token' c' hc' hid.symm)
      · rfl

/-- A row that is claimed under a new token. -/
theorem Inv.claim {lease : RelayLease} (hI : Inv maxAttempts db)
    (hfresh : db.claims.get lease.token = none) :
    Inv maxAttempts (db.apply (.claim id maxAttempts now lease)) := by
  rcases @claim_cases maxAttempts db id now lease with hidle | ⟨r, hr, hready, happly⟩
  · rw [hidle]
    exact hI
  · obtain ⟨t, ht, hok⟩ := hI.row hr
    simp only [Row.ready, Bool.and_eq_true, decide_eq_true_eq] at hready
    obtain ⟨⟨⟨hwaiting, hlt⟩, -⟩, -⟩ := hready
    rw [happly]
    refine hI.change _ (r.claimed lease) t ⟨rfl, rfl, rfl, fun k => get_setRow_of hr rfl k,
      fun k => get_task_self k ht, fun token c hc => Table.get_insert_of_some hc, fun token c hc => ?_,
      fun p hp => hp, fun p hp => Or.inl hp, hI.numbered.claim hok hfresh⟩ ht rfl ⟨?_, hok.payload, hlt,
      fun _ => ?_, fun h => (by cases h), fun token c hc hid => ?_, fun h => (by cases h)⟩
    · rw [Table.get_insert] at hc
      by_cases htoken : token = lease.token
      · subst htoken
        rw [hfresh, if_pos rfl, Option.none_or, Option.some.injEq] at hc
        exact Or.inr (hc ▸ rfl)
      · rw [if_neg htoken, Option.or_none] at hc
        exact Or.inl hc
    · rw [hok.dispatch]
      simp only [Row.waiting, List.mem_cons, List.not_mem_nil, or_false, decide_eq_true_eq] at hwaiting
      rcases hwaiting with h | h | h <;> rw [h] <;> rfl
    · exact ⟨lease, _, rfl, Table.get_insert_self hfresh, rfl, rfl⟩
    · rw [Table.get_insert] at hc
      by_cases htoken : token = lease.token
      · subst htoken
        rw [hfresh, if_pos rfl, Option.none_or, Option.some.injEq] at hc
        subst hc
        exact ⟨le_refl _, fun _ => Or.inl (heldBy_iff.2 ⟨rfl, lease, rfl, rfl⟩)⟩
      · rw [if_neg htoken, Option.or_none] at hc
        have hle := (hok.claims token c hc hid).1
        refine ⟨?_, fun hmax => ?_⟩
        · show c.publishAttempts ≤ r.publishAttempts + 1
          omega
        · omega

/-- A row whose publisher returned, and its task. -/
theorem Inv.acknowledge (hI : Inv maxAttempts db) (hr : db.outbox.get id = some r)
    (hheld : r.heldBy token = true) (hanswer : db.answers.get token = some .returned) :
    Inv maxAttempts (tables.applyAll db [.acknowledge id token now, .dispatched id]) := by
  obtain ⟨t, ht, hok⟩ := hI.row hr
  obtain ⟨hs, lease, hlease, rfl⟩ := heldBy_iff.1 hheld
  obtain ⟨lease', c, hlease', hc, hid, hatt⟩ := hok.held hs
  rw [hlease, Option.some.injEq] at hlease'
  subst hlease'
  have happly : tables.applyAll db [.acknowledge id lease.token now, .dispatched id] =
      { db.setRow id (fun _ => true) (·.acknowledged now) with
        tasks := db.tasks.modify id Task.dispatched
        publications := db.publications ++ [db.publication id r] } := by
    simp only [tables, Schema.applyAll_cons, Schema.applyAll_nil, apply_acknowledge hr hheld]
    rfl
  rw [happly]
  have hpub : db.publication id r = ⟨id, some lease.token, some .returned⟩ := by
    simp [Db.publication, hlease, hanswer]
  refine hI.change _ (r.acknowledged now) t.dispatched
    ⟨rfl, rfl, rfl, fun k => get_setRow_of hr rfl k, fun k => get_modifyTask _ ht k, fun _ _ h => h,
      fun _ _ h => Or.inl h, fun p hp => List.mem_append_left _ hp, fun p hp => ?_,
      hI.numbered.congr rfl⟩ ht rfl
    ⟨rfl, hok.payload, hok.attempts, fun h => (by cases h), fun h => (by cases h),
      fun token' c' hc' hid' => ?_, fun _ => ⟨db.publication id r, by simp, rfl⟩⟩
  · rcases List.mem_append.1 hp with hp | hp
    · exact Or.inl hp
    · rw [List.mem_singleton.1 hp, hpub]
      exact Or.inr ⟨lease.token, c, rfl, rfl, hc, hid⟩
  · obtain ⟨hle, hlast⟩ := hok.claims token' c' hc' hid'
    refine ⟨hle, fun hmax => Or.inr (Or.inr ⟨rfl, ?_⟩)⟩
    rcases hlast hmax with hheld' | hrec | ⟨hpublished, -⟩
    · obtain ⟨-, lease', hlease', rfl⟩ := heldBy_iff.1 hheld'
      rw [hlease, Option.some.injEq] at hlease'
      exact hlease' ▸ hanswer
    · rw [hs] at hrec
      cases hrec
    · rw [hs] at hpublished
      cases hpublished

/-- A row whose publisher raised and that will be tried again. -/
theorem Inv.refuse {retryAt : Int} {code : String} (hI : Inv maxAttempts db)
    (hr : db.outbox.get id = some r) (hheld : r.heldBy token = true)
    (hleft : ¬maxAttempts ≤ r.publishAttempts) :
    Inv maxAttempts (tables.applyAll db [.refuse id token maxAttempts retryAt code]) := by
  obtain ⟨t, ht, hok⟩ := hI.row hr
  obtain ⟨hs, -⟩ := heldBy_iff.1 hheld
  have hrow : Row.refused maxAttempts retryAt code r =
      { r with
        status := .retryWait, nextAttemptAt := retryAt, relay := none, lastErrorCode := some code } := by
    simp [Row.refused, hleft]
  refine hI.change (db.setRow id (·.heldBy token) (Row.refused maxAttempts retryAt code))
    (Row.refused maxAttempts retryAt code r) t
    ⟨rfl, rfl, rfl, fun k => get_setRow_of hr hheld k, fun k => get_task_self k ht, fun _ _ h => h,
      fun _ _ h => Or.inl h, fun p hp => hp, fun p hp => Or.inl hp,
      hI.numbered.congr rfl⟩ ht rfl ?_
  rw [hrow]
  refine ⟨hok.dispatch.trans (by rw [hs]; rfl), hok.payload, hok.attempts, fun h => (by cases h),
    fun h => (by cases h), fun token' c' hc' hid' => ?_, fun h => (by cases h)⟩
  have hle := (hok.claims token' c' hc' hid').1
  exact ⟨hle, fun hmax => absurd (hmax.trans hle) hleft⟩

/-- A row whose publisher raised at the last attempt, and its task. -/
theorem Inv.refuse_last {retryAt : Int} {code : String} (hI : Inv maxAttempts db)
    (hr : db.outbox.get id = some r) (hheld : r.heldBy token = true)
    (hlast : maxAttempts ≤ r.publishAttempts) :
    Inv maxAttempts (tables.applyAll db [.refuse id token maxAttempts retryAt code, .undispatched id]) := by
  obtain ⟨t, ht, hok⟩ := hI.row hr
  have hrow : Row.refused maxAttempts retryAt code r =
      { r with
        status := .reconciliationRequired, nextAttemptAt := retryAt, relay := none
        lastErrorCode := some code } := by
    simp [Row.refused, hlast]
  refine hI.change
    { db.setRow id (·.heldBy token) (Row.refused maxAttempts retryAt code) with
      tasks := db.tasks.modify id Task.undispatched }
    (Row.refused maxAttempts retryAt code r) t.undispatched
    ⟨rfl, rfl, rfl, fun k => get_setRow_of hr hheld k, fun k => get_modifyTask _ ht k, fun _ _ h => h,
      fun _ _ h => Or.inl h, fun p hp => hp, fun p hp => Or.inl hp,
      hI.numbered.congr rfl⟩ ht rfl ?_
  rw [hrow]
  exact ⟨rfl, hok.payload, hok.attempts, fun h => (by cases h), fun h => (by cases h),
    fun token' c' hc' hid' => ⟨(hok.claims token' c' hc' hid').1, fun _ => Or.inr (Or.inl rfl)⟩,
    fun h => (by cases h)⟩

/-- A task of a row that was given up is given up already. -/
theorem Inv.undispatch (hI : Inv maxAttempts db) (hr : db.outbox.get id = some r)
    (hs : r.status = .reconciliationRequired) :
    Inv maxAttempts (tables.applyAll db [.undispatched id]) := by
  obtain ⟨t, ht, hok⟩ := hI.row hr
  refine hI.change { db with tasks := db.tasks.modify id Task.undispatched } r t.undispatched
    ⟨rfl, rfl, rfl, fun k => get_self k hr, fun k => get_modifyTask _ ht k,
      fun _ _ h => h, fun _ _ h => Or.inl h, fun p hp => hp, fun p hp => Or.inl hp,
      hI.numbered.congr rfl⟩ ht rfl ?_
  exact ⟨by rw [hs]; rfl, hok.payload, hok.attempts, hok.held, hok.uncertain, hok.claims, hok.published⟩

end Change

/-! ## Acceptance -/

section Acceptance

variable {run : StoredRun} {id runId : Uuid} {weekStart now now' : Int}

/-- The database after an acceptance. -/
def acceptedDb (db : Db) (run : StoredRun) (id : Uuid) (now now' : Int) : Db :=
  { db with
    runs := db.runs.insert run.runId run
    accepted := db.accepted ++ [run.runId]
    tasks := db.tasks.insert id (acceptedTask run.runId run.targetWeekStart now)
    outbox := db.outbox.insert id (outboxRow id run.runId run.targetWeekStart now') }

theorem apply_accept (hrun : db.runs.get run.runId = none) :
    tables.applyAll db [.run run, .task id (acceptedTask run.runId run.targetWeekStart now),
      .outbox id (outboxRow id run.runId run.targetWeekStart now')] = acceptedDb db run id now now' := by
  simp only [Schema.applyAll_cons, Schema.applyAll_nil, tables, Db.apply, hrun, Option.isSome_none,
    Bool.false_eq_true, if_false, acceptedDb]

section Lookup

variable (db run id now now') (k : Uuid)

theorem acceptedDb_runs : (acceptedDb db run id now now').runs.get k =
    (db.runs.get k).or (if k = run.runId then some run else none) := Table.get_insert ..

theorem acceptedDb_tasks : (acceptedDb db run id now now').tasks.get k =
    (db.tasks.get k).or
      (if k = id then some (acceptedTask run.runId run.targetWeekStart now) else none) :=
  Table.get_insert ..

theorem acceptedDb_outbox : (acceptedDb db run id now now').outbox.get k =
    (db.outbox.get k).or
      (if k = id then some (outboxRow id run.runId run.targetWeekStart now') else none) :=
  Table.get_insert ..

end Lookup

/-- An acceptance keeps the invariant, if the ids are new and no accepted run is active in the week. -/
theorem Inv.accept (hI : Inv maxAttempts db) (hrun : db.runs.get run.runId = none)
    (htask : db.tasks.get id = none) (hrow : db.outbox.get id = none)
    (hidle : ∀ r, ¬Active db r run.targetWeekStart) : Inv maxAttempts (acceptedDb db run id now now') := by
  have hruns : ∀ k r, db.runs.get k = some r → (acceptedDb db run id now now').runs.get k = some r :=
    fun k r h => Table.get_insert_of_some h
  have hactive : ∀ k week, Active (acceptedDb db run id now now') k week →
      Active db k week ∨ (k = run.runId ∧ week = run.targetWeekStart) := by
    rintro k week ⟨hmem, r, hr, hweek, hact⟩
    by_cases hk : k = run.runId
    · subst hk
      rw [acceptedDb_runs, hrun, if_pos rfl, Option.none_or, Option.some.injEq] at hr
      exact Or.inr ⟨rfl, by rw [← hweek, hr]⟩
    · rw [acceptedDb_runs, if_neg hk, Option.or_none] at hr
      refine Or.inl ⟨?_, r, hr, hweek, hact⟩
      simpa [acceptedDb, hk] using hmem
  refine ⟨⟨fun k t ht => ?_, fun k hk => ?_, fun k k' week hk hk' => ?_⟩, fun k => ?_, fun p hp => ?_,
    fun token c hc => ?_, hI.numbered.congr rfl⟩
  · by_cases hid : k = id
    · subst hid
      rw [acceptedDb_tasks, htask, if_pos rfl, Option.none_or, Option.some.injEq] at ht
      subst ht
      exact ⟨by simp [acceptedDb, acceptedTask], run, Table.get_insert_self hrun, rfl⟩
    · rw [acceptedDb_tasks, if_neg hid, Option.or_none] at ht
      obtain ⟨hmem, r, hr, hweek⟩ := hI.base.task_run k t ht
      exact ⟨List.mem_append_left _ hmem, r, hruns _ _ hr, hweek⟩
  · rcases List.mem_append.1 hk with hk | hk
    · obtain ⟨k', t, ht, hid⟩ := hI.base.run_task k hk
      exact ⟨k', t, Table.get_insert_of_some ht, hid⟩
    · rw [List.mem_singleton] at hk
      subst hk
      exact ⟨id, _, Table.get_insert_self htask, rfl⟩
  · rcases hactive k week hk with hold | ⟨rfl, rfl⟩
    · rcases hactive k' week hk' with hold' | ⟨rfl, rfl⟩
      · exact hI.base.one k k' week hold hold'
      · exact absurd hold (hidle k)
    · rcases hactive k' _ hk' with hold' | ⟨rfl, -⟩
      · exact absurd hold' (hidle k')
      · rfl
  · by_cases hid : k = id
    · subst hid
      rw [acceptedDb_outbox, acceptedDb_tasks, hrow, htask, if_pos rfl, if_pos rfl, Option.none_or,
        Option.none_or]
      refine .some ⟨rfl, rfl, Nat.zero_le _, fun h => (by cases h), fun h => (by cases h),
        fun token c hc hck => ?_, fun h => (by cases h)⟩
      obtain ⟨r, hr⟩ := hI.claimed token c hc
      rw [hck, hrow] at hr
      cases hr
    · rw [acceptedDb_outbox, acceptedDb_tasks, if_neg hid, if_neg hid, Option.or_none, Option.or_none]
      have hp := hI.paired k
      revert hp
      cases db.outbox.get k <;> cases db.tasks.get k <;> intro hp
      · exact .none
      · cases hp
      · cases hp
      · cases hp with
        | some hok => exact .some (hok.congr (fun _ _ h => h) (fun _ _ h _ => h) rfl fun _ h => h)
  · exact hI.publications p hp
  · obtain ⟨r, hr⟩ := hI.claimed token c hc
    exact ⟨r, Table.get_insert_of_some hr⟩

/-- A run that no request asked for. -/
theorem Inv.create (hI : Inv maxAttempts db) (row : StoredRun) :
    Inv maxAttempts (db.apply (.create row)) := by
  rcases create_cases db row with hidle | ⟨hnone, hnew, happly⟩
  · rw [hidle]
    exact hI
  · rw [happly]
    refine ⟨⟨fun id t ht => ?_, hI.base.run_task, fun k k' week hk hk' => ?_⟩, fun id => ?_,
      hI.publications, hI.claimed, hI.numbered.congr rfl⟩
    · obtain ⟨hmem, r, hr, hweek⟩ := hI.base.task_run id t ht
      exact ⟨hmem, r, Table.get_insert_of_some hr, hweek⟩
    · exact hI.base.one k k' week (active_of_create hnew hk) (active_of_create hnew hk')
    · have hp := hI.paired id
      revert hp
      cases db.outbox.get id <;> cases db.tasks.get id <;> intro hp
      · exact .none
      · cases hp
      · cases hp
      · cases hp with
        | some hok => exact .some (hok.congr (fun _ _ h => h) (fun _ _ h _ => h) rfl fun _ h => h)

end Acceptance

end TrackFlow.TaskQueue.Dispatch
