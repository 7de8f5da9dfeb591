import TrackFlow.Pipelines.WeeklyFlow
import TrackFlow.Pipelines.StoredTexts

/-!
# Flows that stop before the publication

A flow that stops before `publish_week_task` settles its run exactly when the stage that stopped it
is one that records its failure, and the run store takes what it records (`Ending.Recorded`). The
stages of the publication subflow record no exception.

- `stopped_flow_settles`: then the run is terminal and the week is free for a new run, and otherwise
  neither;
- `refused_text_keeps_week`: an extraction that fails with a text that looks like a credential.
-/

namespace TrackFlow.Pipelines

open TrackFlow.Python TrackFlow.Python.Raising

/-! ## Where a flow stops -/

/-- How far a flow comes: what it hands to `fail_run_task`, a quality block, a lease that is taken,
an exception of the publication subflow, or `publish_week_task`. -/
inductive Ending
  | failed (error : String) (events : Option Nat)
  | blocked (events aggregates : Nat)
  | conflict
  | raised
  | published

/-- The run store takes what the flow records of it, if it records anything. -/
def Ending.Recorded : Ending → Prop
  | .failed error events =>
      Storable 500 (takeText 500 error) ∧ ∀ n, events = some n → n ≤ postgresIntegerMax
  | .blocked events aggregates => events ≤ postgresIntegerMax ∧ aggregates ≤ postgresIntegerMax
  | .conflict => True
  | .raised | .published => False

/-- How far the flow comes from the lease on. -/
def Execution.leaseEnding (x : Execution) (run : Uuid) (w : World) : Ending :=
  match acquireLeaseNow x run w with
  | .error _ => .raised
  | .ok (d, _) =>
    match x.broken .acquireLease with
    | none => if d.granted then .published else .conflict
    | some (_, effect) => if effect && !d.granted then .conflict else .raised

/-- How far the publication subflow comes. -/
def Execution.publicationEnding (x : Execution) (run : Uuid) (coverage : CoverageEvidence)
    (t : WeeklyTransformationResult) (events : Nat) (w : World) : Ending :=
  match gateIssues x run coverage t events with
  | .error _ => .raised
  | .ok (_ :: _, aggregates) => .blocked events aggregates
  | .ok ([], _) =>
    match x.technicalCoverage with
    | .error _ => .raised
    | .ok _ => x.leaseEnding run w

/-- How far the flow comes with its run. -/
def Execution.ending (x : Execution) (run : Uuid) (w : World) : Ending :=
  match extractWeeklyWarehouseEvents x with
  | .error error => .failed error none
  | .ok stage =>
    match stage.failedStage, stage.extracted with
    | none, some events =>
      match x.calculation with
      | .error error => .failed error (some events)
      | .ok t => x.publicationEnding run stage.coverage t events w
    | _, _ => .failed (errorOr stage.error) none

/-- `accept_async_task` creates a run: it finds none of the week that is pending or running. -/
def WeekFree (runs : Runs) (weekStart : Int) : Prop :=
  ∀ run row, runs run = some row → row.targetWeekStart = weekStart → row.status ∉ [.pending, .running]

/-- The run gets a terminal row if `recorded`, and nothing else changes. -/
def Settles (runs : Runs) (run : Uuid) (recorded : Prop) (runs' : Runs) : Prop :=
  (recorded ∧ ∃ row, row.status.terminal = true ∧ runs' = Function.update runs run (some row)) ∨
    (¬ recorded ∧ runs' = runs)

variable {x : Execution} {w : World} {run : Uuid} {row : RunRecord}

section Settled

variable {runs runs' : Runs} {recorded : Prop}

theorem terminal_iff_not_active {s : RunStatus} : s.terminal = true ↔ s ∉ [.pending, .running] := by
  cases s <;> decide

theorem Settles.terminal_iff (h : Settles runs run recorded runs') (hrow : runs run = some row)
    (hpending : row.status = .pending) :
    (∃ row', runs' run = some row' ∧ row'.status.terminal = true) ↔ recorded := by
  rcases h with ⟨hr, row', hterminal, rfl⟩ | ⟨hr, rfl⟩
  · exact iff_of_true ⟨row', Function.update_self .., hterminal⟩ hr
  · refine iff_of_false ?_ hr
    rintro ⟨row', hrow', hterminal⟩
    cases hrow.symm.trans hrow'
    rw [hpending] at hterminal
    cases hterminal

theorem Settles.weekFree_iff (h : Settles runs run recorded runs') (hrow : runs run = some row)
    (hpending : row.status = .pending)
    (hothers : ∀ r row', r ≠ run → runs r = some row' → row'.targetWeekStart = row.targetWeekStart →
      row'.status.terminal = true) : WeekFree runs' row.targetWeekStart ↔ recorded := by
  rcases h with ⟨hr, settled, hterminal, rfl⟩ | ⟨hr, rfl⟩
  · refine iff_of_true (fun r row' hr' hweek => terminal_iff_not_active.1 ?_) hr
    rw [Function.update_apply] at hr'
    split at hr'
    · cases hr'
      exact hterminal
    case isFalse hne => exact hothers r row' hne hr' hweek
  · refine iff_of_false (fun hfree => hfree run row hrow rfl ?_) hr
    rw [hpending]
    decide

theorem Settles.congr {recorded' : Prop} (h : Settles runs run recorded runs')
    (hiff : recorded ↔ recorded') : Settles runs run recorded' runs' := by
  rw [← propext hiff]
  exact h

end Settled

/-! ## The updates of the tasks -/

/-- A task that records its result settles the run exactly when the run store accepts the update. -/
theorem post_transaction {α : Type} {u : RunUpdate} {wrap : CodedError → Exc} {res : α}
    (hrow : w.runs run = some row)
    (hterminal : u.status.terminal = true) :
    Post (transaction none fun w => do
        let runs ← (updateStored run u w.runs).mapError wrap
        return (res, { w with runs }))
      (fun r w' => (∀ a, r = .ok a → a = res) ∧
        Settles w.runs run (∃ row', u.apply row = .ok row') w'.runs) w := by
  have hstored :
      updateStored run u w.runs = (u.apply row).map fun row => Function.update w.runs run (some row) := by
    unfold updateStored
    rw [hrow]
  simp only [Post, transaction, hstored]
  cases happly : u.apply row with
  | ok row' =>
    refine ⟨fun a ha => by cases ha; rfl, Or.inl ⟨⟨row', rfl⟩, row', ?_, rfl⟩⟩
    rw [(RunUpdate.apply_ok happly).2.2]
    exact hterminal
  | error e => exact ⟨fun a ha => (nomatch ha), Or.inr ⟨fun ⟨_, h⟩ => (nomatch h), rfl⟩⟩

/-- The run store takes the number of aggregates of an update that it accepts. -/
theorem apply_aggregates {u : RunUpdate} {row' : RunRecord} (h : u.apply row = .ok row') :
    ∃ r, count u.aggregatesCalculated "aggregates_calculated" = .ok r := by
  obtain ⟨_, -, h⟩ := bind_ok h
  obtain ⟨_, -, h⟩ := bind_ok h
  obtain ⟨_, -, h⟩ := bind_ok h
  obtain ⟨r, hr, -⟩ := bind_ok h
  exact ⟨r, hr⟩

/-- The stages that `fail_run_task` records. -/
def failedStages : List String := ["extract", "relay", "coverage_audit", "transform"]

theorem failedStages_storable :
    ∀ stage ∈ failedStages, Storable 128 stage ∧ Storable 128 (stage ++ "_failed") := by
  decide +kernel

theorem optStorable_some {n : Nat} {s : String} : OptStorable n (some s) ↔ Storable n s :=
  ⟨fun h => h s rfl, fun h v hv => by cases hv; exact h⟩

theorem failUpdate_apply {stage error : String} {records : Option Nat} (hpending : row.status = .pending)
    (hclock : row.startedAt ≤ x.failedAt) (hstage : stage ∈ failedStages) :
    (∃ row', (failUpdate x stage error records).apply row = .ok row') ↔
      (Ending.failed error records).Recorded := by
  obtain ⟨hlabel, hcode⟩ := failedStages_storable stage hstage
  have hw : (failUpdate x stage error records).Wellformed row :=
    { expected := hpending, step := (by decide : RunStatus.failedRetryable ∈ RunStatus.pending.next)
      finished := ⟨x.failedAt, rfl, hclock⟩
      notRunning := fun h => (nomatch h), blocked := fun h => (nomatch h)
      failed := fun _ => isEmpty_of_storable hcode
      stage := optStorable_some.2 hlabel, code := optStorable_some.2 hcode, reason := fun _ h => (nomatch h)
      aggregates := fun _ => rfl, inserted := fun _ => rfl, updated := fun _ => rfl
      unchanged := fun _ => rfl }
  rw [hw.apply_isOk_iff]
  show (∀ n : Int, records.map Nat.cast = some n → 0 ≤ n ∧ n ≤ postgresIntegerMax) ∧
    OptStorable 500 (some (takeText 500 error)) ↔ Storable 500 (takeText 500 error) ∧
      ∀ n : Nat, records = some n → (n : Int) ≤ postgresIntegerMax
  rw [optStorable_some, and_comm]
  refine and_congr_right fun _ => ⟨fun h n hn => (h n (by rw [hn]; rfl)).2, fun h n hn => ?_⟩
  obtain ⟨m, hm, rfl⟩ := Option.map_eq_some_iff.1 hn
  exact ⟨Int.natCast_nonneg m, h m hm⟩

/-! ## The codes of a block -/

/-- The characters of the codes, and the comma between them. -/
def plainChars : List Char := (List.range 26).map (fun i => Char.ofNat (97 + i)) ++ ['_', ',']

theorem plainChars_kept : plainChars.all fun c => lowerChar c = [c] && !isSpace c := by decide +kernel

theorem secretMarkers_not_plain : ∀ m ∈ secretMarkers, m.toList.any fun c => c ∉ plainChars :=
  by decide +kernel

theorem kept_of_plain {c : Char} (h : c ∈ plainChars) : lowerChar c = [c] ∧ isSpace c = false := by
  simpa using List.all_eq_true.1 plainChars_kept c h

/-- Text of these characters is no secret. -/
theorem storable_of_plain {n : Nat} {s : String} (hne : s.toList ≠ []) (hlength : s.length ≤ n)
    (h : ∀ c ∈ s.toList, c ∈ plainChars) : Storable n s := by
  refine ⟨?_, hlength, ?_⟩
  · obtain ⟨c, hc⟩ := List.exists_mem_of_ne_nil _ hne
    exact not_isBlank_of_mem hc (kept_of_plain (h c hc)).2
  · have hlower : lower s = s.toList := by
      unfold lower
      rw [List.flatMap_congr fun c hc => (kept_of_plain (h c hc)).1]
      exact List.flatMap_singleton' _
    rw [hasMarker, List.any_eq_false]
    intro m hm hoccurs
    obtain ⟨c, hc, hnot⟩ := List.any_eq_true.1 (secretMarkers_not_plain m hm)
    rw [hlower, occurs_iff] at hoccurs
    exact of_decide_eq_true hnot (h c (hoccurs.subset hc))

theorem mem_intersperse {α : Type} {sep a : α} : ∀ {ls : List α}, a ∈ ls.intersperse sep → a = sep ∨ a ∈ ls
  | [], h => by cases h
  | [b], h => Or.inr h
  | b :: c :: ls, h => by
    simp only [List.intersperse, List.mem_cons] at h
    rcases h with rfl | rfl | h
    · exact Or.inr (List.mem_cons_self ..)
    · exact Or.inl rfl
    · exact (mem_intersperse h).imp id (List.mem_cons_of_mem _)

theorem issueCodes_plain : ∀ code ∈ "technical_coverage_invalid" :: issueCodes,
    code.toList ≠ [] ∧ code.toList.all (· ∈ plainChars) = true := by decide +kernel

/-- The codes of a block can be stored together. -/
theorem joined_storable {issues : List String} (hne : issues ≠ [])
    (h : ∀ code ∈ issues, code ∈ "technical_coverage_invalid" :: issueCodes) :
    Storable 500 (takeText 500 (",".intercalate issues)) := by
  have htext : (takeText 500 (",".intercalate issues)).toList =
      (((issues.map String.toList).intersperse [',']).flatten).take 500 := by
    rw [takeText, String.toList_ofList, String.toList_intercalate]
    rfl
  refine storable_of_plain ?_ (length_takeText ..) fun c hc => ?_
  · rw [htext]
    cases issues with
    | nil => exact absurd rfl hne
    | cons code rest =>
      have hcode := (issueCodes_plain code (h code List.mem_cons_self)).1
      cases hs : code.toList with
      | nil => exact absurd hs hcode
      | cons d ds => cases rest <;> simp [hs]
  · rw [htext] at hc
    obtain ⟨l, hl, hcl⟩ := List.mem_flatten.1 (List.mem_of_mem_take hc)
    rcases mem_intersperse hl with rfl | hl
    · rw [List.mem_singleton.1 hcl]
      decide
    · obtain ⟨code, hcode, rfl⟩ := List.mem_map.1 hl
      exact of_decide_eq_true (List.all_eq_true.1 (issueCodes_plain code (h code hcode)).2 c hcl)

theorem gateIssues_code {coverage : CoverageEvidence} {t : WeeklyTransformationResult}
    {events aggregates : Nat}
    {issues : List String} (h : gateIssues x run coverage t events = .ok (issues, aggregates)) :
    ∀ code ∈ issues, code ∈ "technical_coverage_invalid" :: issueCodes := by
  unfold gateIssues at h
  split at h
  · cases h
    exact fun code hcode => List.mem_cons_of_mem _ (preWriteIssues_code hcode)
  · split at h
    · cases h
      exact fun code hcode => by
        rw [List.mem_singleton.1 hcode]
        exact List.mem_cons_self
    · cases h

theorem blockUpdate_apply {issues : List String} {aggregates events : Nat}
    (hpending : row.status = .pending)
    (hclock : row.startedAt ≤ x.gateAt) (hne : issues ≠ [])
    (h : ∀ code ∈ issues, code ∈ "technical_coverage_invalid" :: issueCodes) :
    (∃ row', (blockUpdate x issues aggregates events).apply row = .ok row') ↔
      (Ending.blocked events aggregates).Recorded := by
  have hjoined := joined_storable hne h
  obtain ⟨first, rest, rfl⟩ := List.exists_cons_of_ne_nil hne
  have hfirst : Storable 128 first := by
    rcases List.mem_cons.1 (h first List.mem_cons_self) with rfl | hcode
    · decide +kernel
    · exact issueCodes_storable first hcode
  by_cases ha : (aggregates : Int) ≤ postgresIntegerMax
  · have hw : (blockUpdate x (first :: rest) aggregates events).Wellformed row :=
      { expected := hpending, step := (by decide : RunStatus.blockedQuality ∈ RunStatus.pending.next)
        finished := ⟨x.gateAt, rfl, hclock⟩, notRunning := fun h => (nomatch h)
        blocked := fun _ => isEmpty_of_storable hfirst, failed := fun h => (nomatch h)
        stage := optStorable_some.2 (by decide +kernel), code := fun _ h => (nomatch h)
        reason := optStorable_some.2 (hfirst.mono (by decide))
        aggregates := fun _ => count_eq_ok (Int.natCast_nonneg _) ha
        inserted := fun _ => rfl, updated := fun _ => rfl, unchanged := fun _ => rfl }
    rw [hw.apply_isOk_iff]
    show (∀ n : Int, some (events : Int) = some n → 0 ≤ n ∧ n ≤ postgresIntegerMax) ∧
      OptStorable 500 (some _) ↔ _ ∧ _
    rw [optStorable_some]
    refine ⟨fun hn => ⟨(hn.1 events rfl).2, ha⟩, fun hn => ⟨fun n he => ?_, hjoined⟩⟩
    cases he
    exact ⟨Int.natCast_nonneg _, hn.1⟩
  · refine iff_of_false ?_ fun hn => ha hn.2
    rintro ⟨row', happly⟩
    obtain ⟨r, hr⟩ := apply_aggregates happly
    exact ha (count_ok hr).2

/-! ## The flow -/

/-- The update of a run whose lease is refused. -/
theorem leaseUpdate_apply {d : LeaseDecision} (hpending : row.status = .pending)
    (hclock : row.startedAt ≤ x.leaseAt)
    (hstatus : d.status = .occupied ∨ d.status = .alreadyHeld) (hrow : w.runs run = some row) :
    ∃ row', row'.status.terminal = true ∧ recordLeaseRunStatus x run .skippedInProgress d.status.text
      w.runs = .ok (Function.update w.runs run (some row')) := by
  have hreason : Storable 500 d.status.text := by
    rcases hstatus with hs | hs <;> rw [hs] <;> decide +kernel
  have hw : RunUpdate.Wellformed
      { expectedStatus := row.status, status := .skippedInProgress, finishedAt := some x.leaseAt,
        blockReason := some d.status.text, stageReached := some "lease" } row :=
    { expected := rfl, step := hpending ▸ (by decide : RunStatus.skippedInProgress ∈ RunStatus.pending.next)
      finished := ⟨x.leaseAt, rfl, hclock⟩, notRunning := fun h => (nomatch h)
      blocked := fun h => (nomatch h)
      failed := fun h => (nomatch h), stage := optStorable_some.2 (by decide +kernel)
      code := fun _ h => (nomatch h)
      reason := optStorable_some.2 hreason, aggregates := fun _ => rfl
      inserted := fun _ => rfl, updated := fun _ => rfl
      unchanged := fun _ => rfl }
  obtain ⟨row', happly⟩ := hw.apply_isOk_iff.2 ⟨fun _ h => (nomatch h), fun _ h => (nomatch h)⟩
  refine ⟨row', by rw [(RunUpdate.apply_ok happly).2.2]; rfl, ?_⟩
  simp only [recordLeaseRunStatus, updateStored, hrow, happly]
  rfl

/-- The lease task, when no lease is handed on. -/
theorem lease_settles (hrow : w.runs run = some row) (hpending : row.status = .pending)
    (hclock : row.startedAt ≤ x.leaseAt) (hstopped : x.leaseEnding run w ≠ .published) :
    Post (acquireLeaseTask x run) (fun r w' => (∀ prepared, r = .ok prepared → prepared.terminalResult ≠
      none) ∧ Settles w.runs run (x.leaseEnding run w).Recorded w'.runs) w := by
  unfold Execution.leaseEnding at hstopped ⊢
  cases hlease : acquireLeaseNow x run w with
  | error e =>
    have hbody : leaseOrEnd x run w = .error e := by rw [leaseOrEnd, hlease]; rfl
    simp only [Post, acquireLeaseTask, transaction, hbody]
    cases x.broken .acquireLease <;> exact ⟨fun _ h => (nomatch h), Or.inr ⟨id, rfl⟩⟩
  | ok dw =>
    obtain ⟨d, w₁⟩ := dw
    obtain ⟨hruns, hrefused⟩ := acquireLeaseNow_ok hlease
    simp only [hlease] at hstopped
    rcases Bool.eq_false_or_eq_true d.granted with hg | hg
    · have hbody : leaseOrEnd x run w =
          .ok (⟨run, some ⟨x.weekStart, run, d.fencingToken.getD 0, true⟩, none⟩, w₁) := by
        simp [leaseOrEnd, hlease, hg, bind, Except.bind, pure, Except.pure]
      simp only [Post, acquireLeaseTask, transaction, hbody]
      cases hbroken : x.broken .acquireLease with
      | none => simp [hbroken, hg] at hstopped
      | some fault =>
        refine ⟨fun _ h => (nomatch h), Or.inr ⟨by simp [hg, Ending.Recorded], ?_⟩⟩
        show (if fault.2 then w₁ else w).runs = w.runs
        split
        · exact hruns
        · rfl
    · let res : CoordinatorResult :=
        { weekStart := x.weekStart, runId := run, status := .run .skippedInProgress, errors := [d.status.text] }
      have hstatus := hrefused hg
      obtain ⟨row', hterminal, hrecord⟩ :=
        leaseUpdate_apply (w := w₁) hpending hclock hstatus (hruns ▸ hrow)
      have hbody : leaseOrEnd x run w =
          .ok (⟨run, none, some res⟩, { w₁ with runs := Function.update w₁.runs run (some row') }) := by
        have hskipped : (if d.status ∈ [LeaseStatus.occupied, .alreadyHeld] then RunStatus.skippedInProgress
            else .superseded) = .skippedInProgress := if_pos (by simpa using hstatus)
        rw [leaseOrEnd, hlease]
        simp only [bind, Except.bind, pure, Except.pure, hg, hskipped, hrecord, Bool.false_eq_true,
          if_false]
        rfl
      simp only [Post, acquireLeaseTask, transaction, hbody]
      cases x.broken .acquireLease with
      | none => exact ⟨fun _ h => by cases h; simp, Or.inl ⟨by simp [hg, Ending.Recorded], row', hterminal, by rw [hruns]⟩⟩
      | some fault =>
        obtain ⟨e, effect⟩ := fault
        refine ⟨fun _ h => (nomatch h), ?_⟩
        cases effect with
        | true => exact Or.inl ⟨by simp [hg, Ending.Recorded], row', hterminal, by simp [hruns]⟩
        | false => exact Or.inr ⟨by simp [Ending.Recorded], by simp⟩

/-- The gate: a block is recorded, and without issues nothing changes. -/
theorem gate_settles {coverage : CoverageEvidence} {t : WeeklyTransformationResult}
    {events aggregates : Nat}
    {issues : List String} (hstore : x.broken .qualityGate = none) (hrow : w.runs run = some row)
    (hpending : row.status = .pending) (hclock : row.startedAt ≤ x.gateAt)
    (hissues : gateIssues x run coverage t events = .ok (issues, aggregates)) :
    Post (qualityGateTask x run coverage t events) (fun r w' =>
      if issues = [] then r = .ok none ∧ w' = w
      else r ≠ .ok none ∧ Settles w.runs run (Ending.blocked events aggregates).Recorded w'.runs) w := by
  refine post_bind (post_ofExcept ?_)
  simp only [hissues, Except.mapError, andThen]
  by_cases hnil : issues = []
  · simp only [hnil, if_true]
    exact ⟨rfl, rfl⟩
  · simp only [hnil, if_false, hstore]
    refine post_mono (fun r w' h => ?_)
      (post_transaction (u := blockUpdate x issues aggregates events) hrow rfl)
    refine ⟨fun hr => (nomatch h.1 none hr), h.2.congr ?_⟩
    exact blockUpdate_apply hpending hclock hnil (gateIssues_code hissues)

/-- The subflow, when it stops before the publication. -/
theorem publication_settles {coverage : CoverageEvidence} {t : WeeklyTransformationResult} {events : Nat}
    (hstore : x.broken .qualityGate = none) (hrow : w.runs run = some row)
    (hpending : row.status = .pending)
    (hgate : row.startedAt ≤ x.gateAt) (hlease : row.startedAt ≤ x.leaseAt)
    (hstopped : x.publicationEnding run coverage t events w ≠ .published) :
    Post (publishWeeklyBusinessReportFlow x run coverage t events)
      (fun _ w' => Settles w.runs run (x.publicationEnding run coverage t events w).Recorded w'.runs)
      w := by
  unfold Execution.publicationEnding at hstopped ⊢
  cases hissues : gateIssues x run coverage t events with
  | error e =>
    refine post_bind (post_bind (post_ofExcept ?_))
    rw [hissues]
    exact Or.inr ⟨id, rfl⟩
  | ok found =>
    obtain ⟨issues, aggregates⟩ := found
    have hpost := gate_settles hstore hrow hpending hgate hissues
    cases issues with
    | cons code rest =>
      refine post_seq hpost (fun r w' h => ?_) fun e w' h => ?_
      · rw [if_neg (List.cons_ne_nil code rest)] at h
        cases r with
        | none => exact absurd rfl h.1
        | some res => exact h.2
      · rw [if_neg (List.cons_ne_nil code rest)] at h
        exact h.2
    | nil =>
      refine post_seq hpost (fun r w' h => ?_) fun e w' h => ?_
      · rw [if_pos rfl] at h
        obtain ⟨hr, rfl⟩ := h
        cases hr
        refine post_bind (post_ofExcept ?_)
        simp only [hissues] at hstopped
        cases htechnical : x.technicalCoverage with
        | error e => exact Or.inr ⟨id, rfl⟩
        | ok t' =>
          simp only [htechnical] at hstopped
          simp only [Except.mapError, andThen]
          refine post_seq (lease_settles hrow hpending hlease hstopped) (fun prepared w' h => ?_)
            fun e w' h => ?_
          · cases hterminal : prepared.terminalResult with
            | none => exact absurd hterminal (h.1 prepared rfl)
            | some r => exact h.2
          · exact h.2
      · rw [if_pos rfl] at h
        cases h.1

theorem failRun_settles {stage error : String} {records : Option Nat} (hstore : x.broken .failRun = none)
    (hrow : w.runs run = some row) (hpending : row.status = .pending) (hclock : row.startedAt ≤ x.failedAt)
    (hstage : stage ∈ failedStages) :
    Post (failRunTask x run stage error records)
      (fun _ w' => Settles w.runs run (Ending.failed error records).Recorded w'.runs) w := by
  unfold failRunTask
  rw [hstore]
  refine post_mono (fun r w' h => h.2.congr ?_)
    (post_transaction (u := failUpdate x stage error records) hrow rfl)
  exact failUpdate_apply hpending hclock hstage

/-- The stage that a failed extraction names is one that `fail_run_task` records. -/
theorem failedStage_mem {stage : WeeklyExtractionStage} (h : extractWeeklyWarehouseEvents x = .ok stage) :
    stage.failedStage.getD "extract" ∈ failedStages := by
  have hextract : "extract" ∈ failedStages := by decide
  unfold extractWeeklyWarehouseEvents at h
  split at h
  · cases h
  · dsimp only at h
    split at h
    · split at h
      · cases h
        show "relay" ∈ failedStages
        decide
      · split at h
        · cases h
          show "coverage_audit" ∈ failedStages
          decide
        · cases h
          cases x.extract <;> exact hextract
    · cases h
      cases x.extract <;> exact hextract

/-- A run that the flow takes on is pending and of its week. -/
theorem createRunTask_ok {w₀ : World} (h : createRunTask x w₀ = (.ok run, w)) :
    ∃ row, w.runs run = some row ∧ row.status = .pending ∧ row.targetWeekStart = x.weekStart := by
  unfold createRunTask transaction at h
  split at h
  case h_1 hbroken hbody =>
    cases h
    dsimp only at hbody
    split at hbody
    case h_1 r _ =>
      split at hbody
      case h_1 row hfound =>
        cases hbody
        obtain ⟨hweek, hpending⟩ := of_decide_eq_true (Option.filter_eq_some_iff.1 hfound).2
        exact ⟨_, Function.update_self .., hpending, hweek⟩
      case h_2 => cases hbody
    case h_2 =>
      split at hbody
      · cases hbody
      · cases hbody
        exact ⟨x.createdRun, Function.update_self .., rfl, rfl⟩
  all_goals cases h

/-- **A flow that stops before the publication settles its run exactly when what it records of the
failure is taken.** Then the run is terminal and the week is free, and otherwise neither. -/
theorem stopped_flow_settles {w₀ : World} (hcreated : createRunTask x w₀ = (.ok run, w))
    (hrow : w.runs run = some row)
    (hstore : x.broken .failRun = none ∧ x.broken .qualityGate = none)
    (hclock : ∀ t ∈ [x.failedAt, x.gateAt, x.leaseAt], row.startedAt ≤ t)
    (hstopped : x.ending run w ≠ .published) :
    ((∃ row', (weeklyPerformanceFlow x w₀).2.runs run = some row' ∧ row'.status.terminal = true) ↔
      (x.ending run w).Recorded) ∧
    ((∀ r row', r ≠ run → w.runs r = some row' → row'.targetWeekStart = x.weekStart →
      row'.status.terminal = true) → (WeekFree (weeklyPerformanceFlow x w₀).2.runs x.weekStart ↔
      (x.ending run w).Recorded)) := by
  obtain ⟨_, hrow', hpending, hweek⟩ := createRunTask_ok hcreated
  cases hrow.symm.trans hrow'
  have hfailed := hclock x.failedAt (by simp)
  have hsettles : Settles w.runs run (x.ending run w).Recorded (weeklyPerformanceFlow x w₀).2.runs := by
    show Post (weeklyPerformanceFlow x) (fun _ w' => Settles w.runs run (x.ending run w).Recorded
      w'.runs) w₀
    refine post_bind ?_
    rw [Post, hcreated]
    unfold Execution.ending at hstopped ⊢
    cases hextraction : extractWeeklyWarehouseEvents x with
    | error e => exact failRun_settles hstore.1 hrow hpending hfailed (by decide)
    | ok stage =>
      have hstage := failedStage_mem hextraction
      simp only [hextraction] at hstopped ⊢
      obtain ⟨coverage, extracted, failedStage, error⟩ := stage
      cases failedStage with
      | some failed => exact failRun_settles hstore.1 hrow hpending hfailed hstage
      | none =>
        cases extracted with
        | none => exact failRun_settles hstore.1 hrow hpending hfailed hstage
        | some events =>
          dsimp only at hstopped ⊢
          cases hcalculation : x.calculation with
          | error e =>
            simp only [andThen]
            exact failRun_settles hstore.1 hrow hpending hfailed (by decide)
          | ok t =>
            simp only [hcalculation] at hstopped
            simp only [andThen]
            refine post_attempt_seq (publication_settles hstore.2 hrow hpending (hclock x.gateAt (by simp))
              (hclock x.leaseAt (by simp)) hstopped) fun r w' h => ?_
            cases r <;> exact h
  refine ⟨hsettles.terminal_iff hrow hpending, fun hothers => ?_⟩
  rw [← hweek] at hothers ⊢
  exact hsettles.weekFree_iff hrow hpending hothers

/-- A pending run whose flow stops at the relay with a text. -/
def exampleExecution (text : String) : Execution where
  weekStart := 4
  acceptedRunId := some (Uuid.ofNat 7)
  drawnRunId := Uuid.ofNat 8
  sourced := true
  coverage := ⟨requiredCoverageEvents, [], true, "synthetic_fixture"⟩
  dependencyFingerprint := "rules=1"
  rulesVersion := "1"
  leaseSeconds := 900
  createdAt := 0
  failedAt := 1
  gateAt := 1
  leaseAt := 1
  publishedAt := 1
  extraction := none
  relay := .error text
  audit := .error ""
  extract := .error ""
  calculation := .error ""
  gateCoverage := .error ⟨.valueError, none, ""⟩
  technicalCoverage := .error ⟨.valueError, none, ""⟩
  broken _ := none
  faults := { clock := 1 }

def exampleWorld : World where
  runs := Function.update (fun _ => none) (Uuid.ofNat 7) (some exampleRun)
  reporting := { control := fun _ => none, kpis := [] }

/-- The run once the flow has taken it on. -/
def correlatedRun : RunRecord := { exampleRun with stageReached := some "prefect" }

def correlatedWorld : World :=
  { exampleWorld with runs := Function.update exampleWorld.runs (Uuid.ofNat 7) (some correlatedRun) }

/-- The relay fails as it should: the run is terminal and the week is free. -/
theorem stopped_flow_settles_example :
    (∃ row', (weeklyPerformanceFlow (exampleExecution "down") exampleWorld).2.runs (Uuid.ofNat 7) =
      some row' ∧ row'.status.terminal = true) ∧
    WeekFree (weeklyPerformanceFlow (exampleExecution "down") exampleWorld).2.runs 4 := by
  have hrecorded : ((exampleExecution "down").ending (Uuid.ofNat 7) correlatedWorld).Recorded :=
    ⟨by decide +kernel, fun _ h => (nomatch h)⟩
  have hcreated : createRunTask (exampleExecution "down") exampleWorld =
      (.ok (Uuid.ofNat 7), correlatedWorld) := rfl
  have hsettles := stopped_flow_settles hcreated rfl ⟨rfl, rfl⟩ (by decide) (fun h => (nomatch h))
  refine ⟨hsettles.1.2 hrecorded, (hsettles.2 fun r row' hne hrow => ?_).2 hrecorded⟩
  have hnone : correlatedWorld.runs r = none := by
    simp [correlatedWorld, exampleWorld, Function.update_of_ne hne]
  cases hnone.symm.trans hrow

/-- The text of the relay names a password: the record is refused, and the run stays pending and
keeps its week. -/
theorem refused_text_keeps_week : ∃ (x : Execution) (w₀ w : World) (run : Uuid) (row : RunRecord),
    createRunTask x w₀ = (.ok run, w) ∧ w.runs run = some row ∧ (∀ task, x.broken task = none) ∧
    (∀ t ∈ [x.failedAt, x.gateAt, x.leaseAt], row.startedAt ≤ t) ∧ (∃ text, x.relay = .error text) ∧
    ¬ (∃ row', (weeklyPerformanceFlow x w₀).2.runs run = some row' ∧ row'.status.terminal = true) ∧
    ¬ WeekFree (weeklyPerformanceFlow x w₀).2.runs x.weekStart := by
  have hruns : (weeklyPerformanceFlow (exampleExecution "password=x") exampleWorld).2.runs (Uuid.ofNat 7) =
      some correlatedRun := by decide +kernel
  refine ⟨exampleExecution "password=x", exampleWorld, correlatedWorld, Uuid.ofNat 7, correlatedRun, rfl,
    rfl, fun _ => rfl, by decide, ⟨_, rfl⟩, ?_, fun hfree => hfree _ _ hruns rfl (by decide)⟩
  rintro ⟨row', hrow', hterminal⟩
  cases hruns.symm.trans hrow'
  exact absurd hterminal (by decide)

end TrackFlow.Pipelines
