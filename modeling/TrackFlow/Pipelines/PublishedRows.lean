import TrackFlow.Pipelines.Truthfulness

/-!
# The committed rows are the last valid publication

`Store` is the committed reporting database with the history of the publications: one entry for each
business transaction that a call committed. `Step` is one call of the coordinator, with anything
going wrong in it, or one of the writes that others make around it: runs are created, updated and
observed, and leases are granted, renewed and released. A call is given new connections, or those of
the call before it.

- `StoreInv.step`: every step keeps the invariant `StoreInv`;
- `committed_rows_published`: in every reachable store the rows of a week are the batch of the run
  that its control row points to.
-/

namespace TrackFlow.Pipelines

open TrackFlow.Python

/-! ## The store -/

/-- A committed publication: the week, the run and the batch. -/
structure Published where
  weekStart : Int
  runId : Uuid
  batch : List WeeklyAggregate

/-- The committed rows and what was published. -/
structure Store where
  world : World
  history : List Published := []

/-- The empty reporting tables. -/
def Store.empty : Store where
  world :=
    { runs := fun _ => none
      reporting := { control := fun _ => none, kpis := [] } }

/-- The entries of a call for `q`: one for each of its COMMITs that took effect. -/
def publications (q : Request) (w : World) : List Published :=
  (w.attempts.filter Attempt.effect).map fun _ => ⟨q.weekStart, q.runId, q.aggregates⟩

/-- What the store is after a call. -/
def Store.publish (s : Store) (f : Faults) (q : Request) : Store where
  world := (publishWeeklyBusinessReport f q s.world.begin).2
  history := s.history ++ publications q (publishWeeklyBusinessReport f q s.world.begin).2

/-- The store with another run history. -/
def Store.setRuns (s : Store) (runs : Runs) : Store := { s with world := { s.world with runs := runs } }

/-- The store with another control row of a week. -/
def Store.setControl (s : Store) (weekStart : Int) (row : WeekControl) : Store :=
  { s with world := { s.world with
      reporting := { s.world.reporting with
        control := Function.update s.world.reporting.control weekStart (some row) } } }

/-- What a lease transaction may do to the control row of a week. -/
inductive LeaseChange (weekStart : Int) : Option WeekControl → WeekControl → Prop
  | ensure : LeaseChange weekStart none { weekStart := weekStart }
  | grant (c : WeekControl) (run : Uuid) (acquired expires : Int) :
      LeaseChange weekStart (some c) (c.grant run acquired expires)
  | renew (c : WeekControl) (expires : Int) : LeaseChange weekStart (some c) (c.renew expires)
  | release (c : WeekControl) : LeaseChange weekStart (some c) c.release

/-- One transaction on the store. -/
inductive Step : Store → Store → Prop
  | publish (s : Store) (f : Faults) (q : Request) : Step s (s.publish f q)
  | createRun (s : Store) (run : Uuid) (row : RunRecord) : s.world.runs run = none →
      Step s (s.setRuns (Function.update s.world.runs run (some row)))
  | updateRun (s : Store) (run : Uuid) (u : RunUpdate) (row row' : RunRecord) :
      s.world.runs run = some row →
      u.apply row = .ok row' → Step s (s.setRuns (Function.update s.world.runs run (some row')))
  | observeRun (s : Store) (run : Uuid) (r : CommitResult) (stage code message : String)
      (row row' : RunRecord) :
      s.world.runs run = some row → commitObservation row r stage code message = .ok row' →
        Step s (s.setRuns (Function.update s.world.runs run (some row')))
  | lease (s : Store) (weekStart : Int) (row : WeekControl) :
      LeaseChange weekStart (s.world.reporting.control weekStart) row → Step s (s.setControl weekStart row)
  | connect (s : Store) (unusable : Bool) : Step s { s with world := { s.world with unusable } }

/-- The stores that transactions reach from the empty tables. -/
inductive Reachable : Store → Prop
  | empty : Reachable .empty
  | step {s s' : Store} : Reachable s → Step s s' → Reachable s'

/-! ## The invariant -/

/-- The last valid publication of a week. -/
def Reporting.pointer (r : Reporting) (weekStart : Int) : Option Uuid :=
  (r.control weekStart).bind WeekControl.lastValidPublicationRunId

/-- The number of rows that the control row states. -/
def Reporting.rowCount (r : Reporting) (weekStart : Int) : Option Int :=
  (r.control weekStart).bind WeekControl.publishedRowCount

/-- The rows of a week. -/
def Reporting.weekRows (r : Reporting) (weekStart : Int) : KpiTable :=
  r.kpis.filter fun row => row.weekStart = weekStart

@[simp] theorem Reporting.mem_weekRows {r : Reporting} {weekStart : Int} {row : WeeklyAggregate} :
    row ∈ r.weekRows weekStart ↔ row ∈ r.kpis ∧ row.weekStart = weekStart := by simp [weekRows]

/-- What holds of a week: it has no rows and no publication, or the rows of one in the history. -/
def WeekStands (s : Store) (weekStart : Int) : Prop :=
  match s.world.reporting.pointer weekStart with
  | none => s.world.reporting.weekRows weekStart = []
  | some run => ∃ entry ∈ s.history, entry.weekStart = weekStart ∧ entry.runId = run ∧ entry.batch.Nodup ∧
      (∀ row, row ∈ s.world.reporting.weekRows weekStart ↔ row ∈ entry.batch) ∧
      s.world.reporting.rowCount weekStart = some (entry.batch.length : Int)

/-- The invariant of the store. -/
structure StoreInv (s : Store) : Prop where
  keys : (s.world.reporting.kpis.map WeeklyAggregate.key).Nodup
  weeks : ∀ weekStart, WeekStands s weekStart
  settled : ∀ entry ∈ s.history, ∃ row, s.world.runs entry.runId = some row ∧ row.status ≠ .pending
  once : (s.history.map Published.runId).Nodup

theorem StoreInv.empty : StoreInv .empty :=
  ⟨List.nodup_nil, fun _ => rfl, fun _ h => absurd h List.not_mem_nil, List.nodup_nil⟩

/-! ## The steps of others -/

theorem WeekStands.congr {s s' : Store} {weekStart : Int} (h : WeekStands s weekStart)
    (hh : ∀ e ∈ s.history, e ∈ s'.history)
    (hp : s'.world.reporting.pointer weekStart = s.world.reporting.pointer weekStart)
    (hc : s'.world.reporting.rowCount weekStart = s.world.reporting.rowCount weekStart)
    (hr : ∀ row, row ∈ s'.world.reporting.weekRows weekStart ↔ row ∈ s.world.reporting.weekRows weekStart) :
    WeekStands s' weekStart := by
  unfold WeekStands at h ⊢
  rw [hp]
  cases hrun : s.world.reporting.pointer weekStart with
  | none =>
    rw [hrun] at h
    rw [List.eq_nil_iff_forall_not_mem]
    intro row hrow
    have hrow' := (hr row).1 hrow
    rw [h] at hrow'
    exact absurd hrow' List.not_mem_nil
  | some run =>
    rw [hrun] at h
    obtain ⟨entry, hmem, hweek, hid, hnodup, hrows, hcount⟩ := h
    exact ⟨entry, hh entry hmem, hweek, hid, hnodup, fun row => (hr row).trans (hrows row), hc.trans hcount⟩

/-- Runs may change as long as none goes back to `pending`. -/
theorem StoreInv.setRuns {s : Store} {runs : Runs} (h : StoreInv s) (hg : Grows True s.world.runs runs) :
    StoreInv (s.setRuns runs) := by
  refine ⟨h.keys, fun w => (h.weeks w).congr (fun _ he => he) rfl rfl fun _ => Iff.rfl, fun e he =>
      ?_, h.once⟩
  obtain ⟨row, hrow, hs⟩ := h.settled e he
  exact hg.settled e.runId row hrow hs

/-- The lease writes leave the pointer of the week and its count alone. -/
theorem LeaseChange.pointer {weekStart : Int} {before : Option WeekControl} {after : WeekControl}
    (h : LeaseChange weekStart before after) :
    after.lastValidPublicationRunId = before.bind WeekControl.lastValidPublicationRunId ∧
      after.publishedRowCount = before.bind WeekControl.publishedRowCount := by
  cases h <;> exact ⟨rfl, rfl⟩

theorem StoreInv.lease {s : Store} {weekStart : Int} {row : WeekControl} (h : StoreInv s)
    (hl : LeaseChange weekStart (s.world.reporting.control weekStart) row) :
    StoreInv (s.setControl weekStart row) := by
  obtain ⟨hp, hc⟩ := hl.pointer
  refine ⟨h.keys, fun w => (h.weeks w).congr (fun _ he => he) ?_ ?_ fun _ => Iff.rfl, h.settled, h.once⟩
  · by_cases hw : w = weekStart
    · subst hw
      simp [Store.setControl, Reporting.pointer, hp]
    · simp [Store.setControl, Reporting.pointer, hw]
  · by_cases hw : w = weekStart
    · subst hw
      simp [Store.setControl, Reporting.rowCount, hc]
    · simp [Store.setControl, Reporting.rowCount, hw]

/-! ## The step of the coordinator -/

variable {q : Request} {s : Store} {w : World} {clock : Int} {attempt : Attempt}

/-- A call that committed nothing. -/
theorem StoreInv.uncommitted (h : StoreInv s) (hr : w.reporting = s.world.reporting)
    (hsettled : ∀ run row, s.world.runs run = some row → row.status ≠ .pending →
      ∃ row', w.runs run = some row' ∧ row'.status ≠ .pending) : StoreInv ⟨w, s.history⟩ := by
  refine ⟨hr ▸ h.keys, fun week => (h.weeks week).congr (fun _ he => he) (by rw [hr]) (by rw [hr])
    (by simp [hr]), fun e he => ?_, h.once⟩
  obtain ⟨row, hrow, hs⟩ := h.settled e he
  exact hsettled e.runId row hrow hs

/-- After a publication the week of the request has its batch, and its control row says so. -/
theorem Tried.week (h : Tried q clock s.world w attempt) (he : attempt.effect = true) :
    WeekStands ⟨w, s.history ++ [⟨q.weekStart, q.runId, q.aggregates⟩]⟩ q.weekStart := by
  have hc := h.certified he
  obtain ⟨held, free, -, -, hcontrol, hpointer, hcount, -⟩ := hc.control
  have hp : w.reporting.pointer q.weekStart = some q.runId := by
    rw [Reporting.pointer, hcontrol, Function.update_self]
    exact hpointer
  have hbatch := h.publishes.batch
  unfold WeekStands
  dsimp only
  rw [hp]
  refine ⟨_, List.mem_append_right _ (List.mem_singleton_self _), rfl, rfl,
    nodup_of_keys hbatch.keys, fun row => ?_, ?_⟩
  · rw [Reporting.mem_weekRows, hc.batch]
    refine ⟨?_, fun hrow => ⟨Or.inl hrow, hbatch.week row hrow⟩⟩
    rintro ⟨hrow | ⟨-, hne⟩, hweek⟩
    · exact hrow
    · exact absurd hweek hne
  · rw [Reporting.rowCount, hcontrol, Function.update_self]
    exact hcount

/-- The other weeks keep theirs. -/
theorem Tried.otherWeek (h : Tried q clock s.world w attempt) (he : attempt.effect = true) {week : Int}
    (hne : week ≠ q.weekStart) (hs : WeekStands s week) {history : List Published}
    (hh : ∀ e ∈ s.history, e ∈ history) : WeekStands ⟨w, history⟩ week := by
  have hc := h.certified he
  obtain ⟨held, free, -, -, hcontrol, -⟩ := hc.control
  refine hs.congr hh ?_ ?_ fun row => ?_
  · simp only [Reporting.pointer, hcontrol, Function.update_of_ne hne]
  · simp only [Reporting.rowCount, hcontrol, Function.update_of_ne hne]
  · rw [Reporting.mem_weekRows, Reporting.mem_weekRows, hc.batch]
    refine ⟨?_, fun ⟨hrow, hweek⟩ => ⟨Or.inr ⟨hrow, hweek ▸ hne⟩, hweek⟩⟩
    rintro ⟨hrow | ⟨hrow, -⟩, hweek⟩
    · exact absurd (hweek ▸ h.publishes.batch.week row hrow) hne
    · exact ⟨hrow, hweek⟩

/-- A publication that was committed. -/
theorem StoreInv.committed (h : StoreInv s) (ht : Tried q clock s.world w attempt)
    (he : attempt.effect = true)
    (hpending : ∃ run, s.world.runs q.runId = some run ∧ run.status = .pending) :
    StoreInv ⟨w, s.history ++ [⟨q.weekStart, q.runId, q.aggregates⟩]⟩ := by
  obtain ⟨run, hrun, hstatus⟩ := hpending
  have hnew : q.runId ∉ s.history.map Published.runId := by
    intro hmem
    obtain ⟨entry, hentry, hid⟩ := List.mem_map.1 hmem
    obtain ⟨row, hrow, hs⟩ := h.settled entry hentry
    rw [hid, hrun, Option.some_inj] at hrow
    exact hs (hrow ▸ hstatus)
  refine ⟨?_, fun week => ?_, fun entry hentry => ?_, ?_⟩
  · have hkpis : w.reporting.kpis =
        (upsertAll s.world.reporting.kpis (sortedAggregates q.aggregates)).1 := by
      rw [ht.idle.reporting, if_pos he, ht.publishes.kpis]
    show (w.reporting.kpis.map _).Nodup
    rw [hkpis]
    exact upsertAll_keys h.keys
  · by_cases hweek : week = q.weekStart
    · subst hweek
      exact ht.week he
    · exact ht.otherWeek he hweek (h.weeks week) fun e he => List.mem_append_left _ he
  · rcases List.mem_append.1 hentry with hentry | hentry
    · obtain ⟨row, hrow, hs⟩ := h.settled entry hentry
      exact (ht.idle.grows w.runs (List.mem_cons_self ..)).settled entry.runId row hrow hs
    · rw [List.mem_singleton.1 hentry]
      exact ht.running
  · rw [List.map_append, List.map_singleton, List.nodup_append_comm]
    exact List.nodup_cons.2 ⟨hnew, h.once⟩

theorem StoreInv.publish (h : StoreInv s) (f : Faults) (q : Request) : StoreInv (s.publish f q) := by
  rcases publish_outcome f q s.world with ⟨hu, -⟩ | ⟨attempt, ht, -⟩
  · have hnone : publications q (publishWeeklyBusinessReport f q s.world.begin).2 = [] := by
      simp [publications, hu.attempts]
    rw [Store.publish, hnone, List.append_nil]
    exact h.uncommitted hu.reporting (hu.grows _ (List.mem_cons_self ..)).settled
  · have hpending : ∃ run, s.world.runs q.runId = some run ∧ run.status = .pending := by
      by_contra hnot
      have hattempts := publish_pending f q s.world hnot
      rw [ht.idle.attempts] at hattempts
      cases hattempts
    cases he : attempt.effect with
    | true =>
      have hone : publications q (publishWeeklyBusinessReport f q s.world.begin).2 =
          [⟨q.weekStart, q.runId, q.aggregates⟩] := by simp [publications, ht.idle.attempts, he]
      rw [Store.publish, hone]
      exact h.committed ht he hpending
    | false =>
      have hnone : publications q (publishWeeklyBusinessReport f q s.world.begin).2 = [] := by
        simp [publications, ht.idle.attempts, he]
      have hreporting := ht.idle.reporting
      rw [he] at hreporting
      rw [Store.publish, hnone, List.append_nil]
      exact h.uncommitted hreporting (ht.idle.grows _ (List.mem_cons_self ..)).settled

/-! ## Runs -/

/-- Every transaction keeps the invariant. -/
theorem StoreInv.step {s s' : Store} (h : StoreInv s) (hs : Step s s') : StoreInv s' := by
  cases hs with
  | publish f q => exact h.publish f q
  | createRun run row hnone =>
    refine h.setRuns ⟨fun r old hold hstatus => ⟨old, ?_, hstatus⟩, fun _ _ _ _ => Or.inl trivial⟩
    rw [Function.update_of_ne, hold]
    rintro rfl
    rw [hnone] at hold
    cases hold
  | updateRun run u row row' hrow happly =>
    obtain ⟨-, hnext, hstatus⟩ := RunUpdate.apply_ok happly
    exact h.setRuns ((Grows.refl True _).update (hstatus ▸ RunStatus.ne_pending_of_next hnext)
      fun _ => trivial)
  | observeRun run r stage code message row row' hrow hobserved =>
    exact h.setRuns ((Grows.refl True _).update (by rw [(commitObservation_ok hobserved).1]; decide)
      fun _ => trivial)
  | lease weekStart row hl => exact h.lease hl
  | connect unusable => exact h.uncommitted rfl fun _ row hrow hs => ⟨row, hrow, hs⟩

theorem Reachable.inv {s : Store} (h : Reachable s) : StoreInv s := by
  induction h with
  | empty => exact .empty
  | step _ hs ih => exact ih.step hs

/-- In every reachable store and for every week: without a last valid publication there are no rows;
with one, its run published exactly one batch, which the rows of the week are, and the count is
their number. -/
theorem committed_rows_published {s : Store} (h : Reachable s) (weekStart : Int) :
    match s.world.reporting.pointer weekStart with
    | none => s.world.reporting.weekRows weekStart = []
    | some run => (∃ batch, ⟨weekStart, run, batch⟩ ∈ s.history) ∧ ∀ entry ∈ s.history, entry.runId = run →
        entry.weekStart = weekStart ∧ (s.world.reporting.weekRows weekStart).Perm entry.batch ∧
        s.world.reporting.rowCount weekStart =
          some ((s.world.reporting.weekRows weekStart).length : Int) := by
  have hinv := h.inv
  have hweek := hinv.weeks weekStart
  unfold WeekStands at hweek
  cases hrun : s.world.reporting.pointer weekStart with
  | none =>
    rw [hrun] at hweek
    exact hweek
  | some run =>
    rw [hrun] at hweek
    obtain ⟨entry, hentry, hw, hid, hnodup, hrows, hcount⟩ := hweek
    have hkpis : (s.world.reporting.weekRows weekStart).Nodup := (nodup_of_keys hinv.keys).filter _
    have hperm : (s.world.reporting.weekRows weekStart).Perm entry.batch :=
      (List.perm_ext_iff_of_nodup hkpis hnodup).2 hrows
    dsimp only
    refine ⟨⟨entry.batch, ?_⟩, fun e he hide => ?_⟩
    · rw [← hw, ← hid]
      exact hentry
    · have hsame : e = entry := List.inj_on_of_nodup_map hinv.once he hentry (hide.trans hid.symm)
      subst hsame
      exact ⟨hw, hperm, by rw [hcount, hperm.length_eq]⟩

/-- The store in which the run of `exampleRequest` is pending and holds the lease of its week. -/
def exampleStore : Store :=
  ((Store.empty.setRuns (Function.update Store.empty.world.runs (Uuid.ofNat 7)
      (some exampleRun))).setControl 4 { weekStart := 4 }).setControl 4
    (WeekControl.grant { weekStart := 4 } (Uuid.ofNat 7) 0 100)

theorem exampleStore_reachable : Reachable exampleStore := by
  refine ((Reachable.empty.step (.createRun _ (Uuid.ofNat 7) exampleRun rfl)).step
    (.lease _ 4 _ .ensure)).step (.lease _ 4 _ ?_)
  exact .grant { weekStart := 4 } (Uuid.ofNat 7) 0 100

/-- The store after the call, whose run the week then points to. -/
theorem committed_rows_published_example :
    ∃ s, Reachable s ∧ s.world.reporting.pointer 4 = some (Uuid.ofNat 7) ∧
    s.history ≠ [] ∧ ∀ entry ∈ s.history, entry.runId = Uuid.ofNat 7 →
      (s.world.reporting.weekRows 4).Perm entry.batch := by
  have hs : Reachable (exampleStore.publish { clock := 50 } exampleRequest) :=
    exampleStore_reachable.step (.publish _ _ _)
  have hp : (exampleStore.publish { clock := 50 } exampleRequest).world.reporting.pointer 4 =
      some (Uuid.ofNat 7) := by
    decide +kernel
  have hrows := committed_rows_published hs 4
  rw [hp] at hrows
  obtain ⟨⟨batch, hbatch⟩, hrows⟩ := hrows
  exact ⟨_, hs, hp, List.ne_nil_of_mem hbatch, fun entry he hid => (hrows entry he hid).2.1⟩

end TrackFlow.Pipelines
