import TrackFlow.Pipelines.OutboxRelay
import TrackFlow.Pipelines.OperationalCoverage

/-!
# Telemetry that only relays write

When nobody but the relays writes official events, each official row of the telemetry is what a row of the
outbox is mapped to (`GenuineSteps.mapped`), whatever the relays do and wherever they are lost.
`deliver_all` is the run in which each event is relayed as soon as it is there.
-/

namespace TrackFlow.Pipelines

open TrackFlow.Python

namespace Relay

/-! ## Runs -/

/-- No official row comes to the telemetry but those that a relay has inserted. -/
def Genuine (σ τ : System) : Prop :=
  ∀ row ∈ τ.telemetry, row.official = true → row ∈ σ.telemetry ∨ ∃ r, σ.sessions r = some row

/-- Steps that are all genuine. -/
inductive GenuineSteps : System → System → Prop
  | refl (σ : System) : GenuineSteps σ σ
  | step {σ τ υ : System} : GenuineSteps σ τ → Step τ υ → Genuine τ υ → GenuineSteps σ υ

section Mapped

variable {σ τ υ : System}

theorem GenuineSteps.steps (h : GenuineSteps σ τ) : Steps σ τ := by
  induction h with
  | refl => exact .refl _
  | step _ hs _ ih => exact ih.step hs

/-- A row is what an event is mapped to. -/
def Mapped (outbox : List OutboxRow) (row : TelemetryRecord) : Prop :=
  ∃ e ∈ outbox, mapOutboxEventToRow e = some row

theorem Mapped.step {row : TelemetryRecord} (h : Mapped σ.outbox row) (hs : Step σ τ) :
    Mapped τ.outbox row := by
  obtain ⟨e, he, hmap⟩ := h
  obtain ⟨e', he', -, hmap'⟩ := hs.outbox_mono he
  exact ⟨e', he', hmap'.trans hmap⟩

/-- The official rows, and those that are not committed yet. -/
structure AllMapped (σ : System) : Prop where
  sessions : ∀ r row, σ.sessions r = some row → Mapped σ.outbox row
  telemetry : ∀ row ∈ σ.telemetry, row.official = true → Mapped σ.outbox row

/-- What a relay has inserted is what its event is mapped to. -/
theorem Step.session (hs : Step σ τ) (hsound : Sound σ) {r : Nat} {row : TelemetryRecord}
    (hrow : τ.sessions r = some row) : σ.sessions r = some row ∨ Mapped σ.outbox row := by
  have hended : ∀ (r' : Nat) (effect : Bool), (σ.endSession r' effect).sessions r = some row →
      σ.sessions r = some row := by
    intro r' effect hrow
    rw [endSession_sessions] at hrow
    split at hrow
    · cases hrow
    · exact hrow
  cases hs with
  | @insert r' left e row' hr hmap =>
    have hinserted : (σ.insertRow r' row').sessions r = some row := hrow
    rw [insertRow_sessions] at hinserted
    split at hinserted
    · cases hinserted
      exact Or.inr ⟨e, (hsound.held r' e ⟨_, hr, rfl⟩).1, hmap⟩
    · exact Or.inl hinserted
  | @conflict r' => exact Or.inl (hended r' false hrow)
  | @commit r' => exact Or.inl (hended r' true hrow)
  | @fail r' _ _ _ effect => exact Or.inl (hended r' effect hrow)
  | @settle r' effect => exact Or.inl (hended r' effect hrow)
  | _ => exact Or.inl hrow

theorem AllMapped.step (h : AllMapped σ) (hsound : Sound σ) (hs : Step σ τ) (hgenuine : Genuine σ τ) :
    AllMapped τ where
  sessions r row hrow := by
    rcases hs.session hsound hrow with hsession | hmapped
    · exact (h.sessions r row hsession).step hs
    · exact hmapped.step hs
  telemetry row hrow hofficial := by
    rcases hgenuine row hrow hofficial with hmem | ⟨r, hsession⟩
    · exact (h.telemetry row hmem hofficial).step hs
    · exact (h.sessions r row hsession).step hs

/-- Each official row is what an event is mapped to. -/
theorem GenuineSteps.mapped (h : GenuineSteps .empty τ) : AllMapped τ := by
  have hrun : ∀ {σ τ}, GenuineSteps σ τ → Sound σ → AllMapped σ → AllMapped τ := by
    intro σ τ h hsound hmapped
    induction h with
    | refl => exact hmapped
    | step hsteps hs hgenuine ih => exact ih.step (hsound.steps hsteps.steps) hs hgenuine
  refine hrun h Sound.empty ⟨fun r row hrow => ?_, fun row hrow => ?_⟩
  · cases hrow
  · cases hrow

end Mapped

/-! ## One event after another -/

section Deliveries

/-- These are the rows, and no relay is at work. -/
structure Settled (σ : System) (outbox : List OutboxRow) (telemetry : List TelemetryRecord) : Prop where
  outbox : σ.outbox = outbox
  telemetry : σ.telemetry = telemetry
  relays : ∀ r, σ.relays r = none
  sessions : ∀ r, σ.sessions r = none

variable {σ τ : System} {outbox : List OutboxRow} {telemetry : List TelemetryRecord}

theorem updateEvent_append (id : Uuid) (change : OutboxRow → OutboxRow) (rows rows' : List OutboxRow) :
    updateEvent id change (rows ++ rows') = updateEvent id change rows ++ updateEvent id change rows' :=
  List.map_append

theorem GenuineSteps.same (h : GenuineSteps .empty σ) (hs : Step σ τ) (hsame : τ.telemetry = σ.telemetry) :
    GenuineSteps .empty τ :=
  h.step hs fun _ hrow _ => Or.inl (hsame ▸ hrow)

/-- The only pending row is the next one. -/
theorem next_last {e : OutboxRow} (hrelays : ∀ r p, σ.relays r = some p → p.item = none)
    (hout : σ.outbox = outbox ++ [e]) (hall : ∀ e' ∈ outbox, e'.pending = false)
    (hpending : e.pending = true) : σ.Next (some e) := by
  refine ⟨fun _ => true, fun id => ⟨fun _ r e' hholds => ?_, fun _ => rfl⟩, ?_⟩
  · obtain ⟨p, hp, hitem⟩ := hholds
    cases (hrelays r p hp).symm.trans hitem
  · have hfilter : (outbox.filter fun e' => e'.pending && true) = [] :=
      List.filter_eq_nil_iff.2 fun e' he' => by simp [hall e' he']
    rw [nextPending, hout, List.filter_append, hfilter]
    simp [hpending]

/-- An event is enqueued and relayed. -/
theorem deliver_one {e : OutboxRow} {row : TelemetryRecord} (h : GenuineSteps .empty σ)
    (hσ : Settled σ outbox telemetry) (hnew : ∀ e' ∈ outbox, e'.eventId ≠ e.eventId)
    (hpending : e.pending = true) (hmap : mapOutboxEventToRow e = some row)
    (hall : ∀ e' ∈ outbox, e'.pending = false) (hfresh : ∀ row' ∈ telemetry, row'.id ≠ row.id) (now : Int) :
    ∃ τ, GenuineSteps .empty τ ∧ Settled τ (outbox ++ [e.acknowledge now]) (telemetry ++ [row]) := by
  obtain ⟨rfl, rfl, hrelays, hsessions⟩ := hσ
  have hqueued := h.same (.enqueue e hnew hpending) rfl
  have hbegun := hqueued.same (.begin 1 (r := 0) (hrelays 0) (hsessions 0) Nat.one_pos) rfl
  have hidle : ∀ r p, (σ.move 0 (some (.ready 1))).relays r = some p → p.item = none := by
    intro r p hp
    rw [move_relays] at hp
    split at hp
    · cases hp
      rfl
    · cases (hrelays r).symm.trans hp
  have hlocked := hbegun.same (.select (r := 0) rfl (next_last hidle rfl hall hpending)) rfl
  have hnone : ∀ r row', σ.sessions r = some row' → row'.id ≠ row.id := by
    intro r row' hrow
    cases (hsessions r).symm.trans hrow
  have hinserted := hlocked.same (.insert (r := 0) rfl hmap hfresh hnone) rfl
  have hcommitted := hinserted.step (.commit (r := 0) rfl) fun row' hrow _ =>
    (List.mem_append.1 hrow).imp id fun hmem => ⟨0, congrArg some (List.mem_singleton.1 hmem).symm⟩
  have hacknowledged := hcommitted.same (.acknowledge (r := 0) now rfl) rfl
  have hfinished := hacknowledged.same (.finish (r := 0) rfl (Or.inl rfl)) rfl
  refine ⟨_, hfinished, ?_, rfl, fun r => ?_, fun r => ?_⟩
  · show updateEvent e.eventId _ (σ.outbox ++ [e]) = _
    have hkept :
        updateEvent e.eventId (fun e => if e.pending then e.acknowledge now else e) σ.outbox = σ.outbox :=
      (List.map_congr_left fun e' he' => if_neg (hnew e' he')).trans (List.map_id _)
    rw [updateEvent_append, hkept]
    simp [updateEvent, hpending]
  · by_cases hr : r = 0
    · simp [hr, System.move]
    · simp [hr, System.move, System.endSession, System.insertRow, hrelays]
  · by_cases hr : r = 0
    · simp [hr, System.move, System.endSession]
    · simp [hr, System.move, System.endSession, System.insertRow, hsessions]

/-- Each event is relayed as soon as it is there. -/
theorem deliver_all (now : Int) {rows : List OutboxRow} (hpending : ∀ e ∈ rows, e.pending = true)
    (hmap : ∀ e ∈ rows, (mapOutboxEventToRow e).isSome = true) :
    ∀ {σ : System} {outbox : List OutboxRow} {telemetry : List TelemetryRecord}, GenuineSteps .empty σ →
      Settled σ outbox telemetry → (∀ e ∈ outbox, e.pending = false) →
      ((outbox ++ rows).map OutboxRow.eventId).Nodup →
      telemetry.map TelemetryRecord.id = outbox.map OutboxRow.eventId →
      ∃ τ, GenuineSteps .empty τ ∧ Settled τ (outbox ++ rows.map (OutboxRow.acknowledge · now))
        (telemetry ++ rows.filterMap mapOutboxEventToRow) := by
  induction rows with
  | nil =>
    intro σ outbox telemetry h hσ _ _ _
    exact ⟨σ, h, by simpa using hσ⟩
  | cons e rows ih =>
    intro σ outbox telemetry h hσ hall hkeys hids
    obtain ⟨row, hrow⟩ := Option.isSome_iff_exists.1 (hmap e List.mem_cons_self)
    have hnew : ∀ e' ∈ outbox, e'.eventId ≠ e.eventId := by
      intro e' he' heq
      rw [List.map_append] at hkeys
      exact List.disjoint_of_nodup_append hkeys (List.mem_map_of_mem he') (heq ▸ List.mem_cons_self)
    have hfresh : ∀ row' ∈ telemetry, row'.id ≠ row.id := by
      intro row' hrow' heq
      have hid : row'.id ∈ outbox.map OutboxRow.eventId := hids ▸ List.mem_map_of_mem hrow'
      obtain ⟨e', he', heq'⟩ := List.mem_map.1 hid
      exact hnew e' he' (heq'.trans (heq.trans (mapOutboxEventToRow_id hrow)))
    obtain ⟨τ, hτ, hsettled⟩ :=
      deliver_one h hσ hnew (hpending e List.mem_cons_self) hrow hall hfresh now
    have hall' : ∀ e' ∈ outbox ++ [e.acknowledge now], e'.pending = false := by
      intro e' he'
      rcases List.mem_append.1 he' with he' | he'
      · exact hall e' he'
      · rw [List.mem_singleton.1 he']
        rfl
    have hkeys' : ((outbox ++ [e.acknowledge now] ++ rows).map OutboxRow.eventId).Nodup := by
      simpa [OutboxRow.acknowledge] using hkeys
    have hids' : (telemetry ++ [row]).map TelemetryRecord.id =
        (outbox ++ [e.acknowledge now]).map OutboxRow.eventId := by
      simp [hids, mapOutboxEventToRow_id hrow, OutboxRow.acknowledge]
    obtain ⟨υ, hυ, hsettled'⟩ := ih (fun e' he' => hpending e' (List.mem_cons_of_mem e he'))
      (fun e' he' => hmap e' (List.mem_cons_of_mem e he')) hτ hsettled hall' hkeys' hids'
    rw [List.append_assoc, List.append_assoc, List.singleton_append, List.singleton_append] at hsettled'
    rw [List.filterMap_cons_some hrow]
    exact ⟨υ, hυ, hsettled'⟩

/-- All rows are relayed. -/
theorem relay_all (now : Int) {rows : List OutboxRow} (hkeys : (rows.map OutboxRow.eventId).Nodup)
    (hpending : ∀ e ∈ rows, e.pending = true) (hmap : ∀ e ∈ rows, (mapOutboxEventToRow e).isSome = true) :
    ∃ τ, GenuineSteps .empty τ ∧ τ.outbox = rows.map (OutboxRow.acknowledge · now) ∧
      τ.telemetry = rows.filterMap mapOutboxEventToRow := by
  have hempty : Settled .empty [] [] := ⟨rfl, rfl, fun _ => rfl, fun _ => rfl⟩
  obtain ⟨τ, h, hτ⟩ := deliver_all now hpending hmap (.refl .empty) hempty (by simp) hkeys rfl
  exact ⟨τ, h, hτ.outbox, hτ.telemetry⟩

end Deliveries

end Relay

end TrackFlow.Pipelines
