import TrackFlow.Pipelines.WeeklyTotals

/-!
# What becomes of an event

`eventOf` is the event that an id of the input stands for, if its rows are copies and validate. An
id that stands for no event is rejected, and one that does is rejected with its movement, stands for
it, or is a duplicate (`mem_rejected`, `mem_prepared_iff`, `mem_duplicates`).

- `events_partitioned`: every id of the input is accepted, rejected or a duplicate, and only one of
  these, and the counters of all aggregates add up to what the accepted events bring.
-/

namespace TrackFlow.Pipelines

open TrackFlow.Python

variable {fromisoformat : String → Option PyValue} {events : List TelemetryRow} {evidence : WeekEvidence}
  {orders : CommercialOrderEvidence} {p : PreparedWeeklyEvents} {es : List ValidatedEvent}
  {e e' : ValidatedEvent} {id : String} {key : MovementKey}

/-! ## The events of the ids -/

/-- The row that stands for an id, if its rows are copies. -/
def survivor (fromisoformat : String → Option PyValue) (events : List TelemetryRow) (id : String) :
    Option TelemetryRow :=
  if consistentId fromisoformat events id then (rowsWithId events id).head? else none

/-- The event that an id stands for. -/
def eventOf (fromisoformat : String → Option PyValue) (events : List TelemetryRow) (id : String) :
    Option ValidatedEvent :=
  (survivor fromisoformat events id).bind fun row => (validateEvent fromisoformat row).toOption

/-- The events that are grouped by movement. -/
abbrev survivingEvents (fromisoformat : String → Option PyValue) (events : List TelemetryRow) :
    List ValidatedEvent :=
  validated fromisoformat (uniqueRows fromisoformat events)

theorem uniqueRows_eq :
    uniqueRows fromisoformat events = (rowIds events).filterMap (survivor fromisoformat events) := by
  rw [uniqueRows, List.filterMap_filter]
  rfl

theorem survivingEvents_eq :
    survivingEvents fromisoformat events = (rowIds events).filterMap (eventOf fromisoformat events) := by
  rw [survivingEvents, validated, uniqueRows_eq, List.filterMap_filterMap]
  rfl

theorem mem_rowsWithId {row : TelemetryRow} :
    row ∈ rowsWithId events id ↔ row ∈ events ∧ rowId row.id = .ok id := by
  simp [rowsWithId]

/-- A row that stands for an id has it. -/
theorem survivor_row {row : TelemetryRow} (h : survivor fromisoformat events id = some row) :
    row ∈ events ∧ rowId row.id = .ok id ∧ consistentId fromisoformat events id = true := by
  unfold survivor at h
  split at h
  · obtain ⟨hrow, hid⟩ := mem_rowsWithId.1 (List.mem_of_mem_head? h)
    exact ⟨hrow, hid, ‹_›⟩
  · cases h

/-- An id whose rows are copies is stood for. -/
theorem survivor_isSome (hid : id ∈ rowIds events) (hc : consistentId fromisoformat events id = true) :
    ∃ row, survivor fromisoformat events id = some row := by
  obtain ⟨row, hrow, hr⟩ := mem_rowIds.1 hid
  have hmem : row ∈ rowsWithId events id := mem_rowsWithId.2 ⟨hrow, hr⟩
  cases hg : rowsWithId events id with
  | nil => rw [hg] at hmem; cases hmem
  | cons first rest => exact ⟨first, by simp [survivor, hc, hg]⟩

theorem eventOf_eq_some : eventOf fromisoformat events id = some e ↔
    ∃ row, survivor fromisoformat events id = some row ∧ validateEvent fromisoformat row = .ok e := by
  simp only [eventOf, Option.bind_eq_some_iff, toOption_eq_some]

theorem eventOf_valid (h : eventOf fromisoformat events id = some e) :
    ∃ row ∈ events, ValidEvent fromisoformat row e := by
  obtain ⟨row, hs, hv⟩ := eventOf_eq_some.1 h
  exact ⟨row, (survivor_row hs).1, validateEvent_ok hv⟩

/-- The event of an id has it. -/
theorem eventOf_rowId (h : eventOf fromisoformat events id = some e) : e.rowId = id := by
  obtain ⟨row, hs, hv⟩ := eventOf_eq_some.1 h
  have hid := (validateEvent_ok hv).id
  rw [(survivor_row hs).2.1] at hid
  exact (Except.ok.inj hid).symm

theorem eventOf_mem (h : eventOf fromisoformat events id = some e) : id ∈ rowIds events := by
  obtain ⟨row, hs, -⟩ := eventOf_eq_some.1 h
  obtain ⟨hrow, hid, -⟩ := survivor_row hs
  exact mem_rowIds.2 ⟨row, hrow, hid⟩

theorem mem_surviving :
    e ∈ survivingEvents fromisoformat events ↔ eventOf fromisoformat events e.rowId = some e := by
  rw [survivingEvents_eq, List.mem_filterMap]
  constructor
  · rintro ⟨id, -, h⟩
    rw [eventOf_rowId h]
    exact h
  · exact fun h => ⟨e.rowId, eventOf_mem h, h⟩

theorem surviving_valid (h : e ∈ survivingEvents fromisoformat events) :
    ∃ row ∈ events, ValidEvent fromisoformat row e :=
  eventOf_valid (mem_surviving.1 h)

/-- No two events have an id in common. -/
theorem surviving_nodup : ((survivingEvents fromisoformat events).map ValidatedEvent.rowId).Nodup := by
  have hids : (survivingEvents fromisoformat events).map ValidatedEvent.rowId =
      (rowIds events).filter fun id => (eventOf fromisoformat events id).isSome := by
    rw [survivingEvents_eq, List.map_filterMap, ← List.filterMap_eq_filter]
    refine List.filterMap_congr fun id _ => ?_
    cases h : eventOf fromisoformat events id with
    | none => simp [Option.guard, h]
    | some e => simp [eventOf_rowId h, Option.guard, h]
  rw [hids]
  exact (nodup_sortedSet textLe _).filter _

theorem surviving_inj (h : e ∈ survivingEvents fromisoformat events)
    (h' : e' ∈ survivingEvents fromisoformat events) (hid : e.rowId = e'.rowId) : e = e' := by
  have hsome := (mem_surviving.1 h).symm.trans ((congrArg _ hid).trans (mem_surviving.1 h'))
  exact Option.some.inj hsome

/-! ## Movements -/

/-- The movement of the event does not conflict. -/
def Clear (evidence : WeekEvidence) (es : List ValidatedEvent) (e : ValidatedEvent) : Prop :=
  ∃ key, e.movementKey = some key ∧ conflicting evidence es key = false

/-- The event stands for its movement. -/
def Foremost (es : List ValidatedEvent) (e : ValidatedEvent) : Prop :=
  ∃ key, e.movementKey = some key ∧ (movementGroup es key).head? = some e

theorem nodup_movementGroup (h : (es.map ValidatedEvent.rowId).Nodup) :
    ((movementGroup es key).map ValidatedEvent.rowId).Nodup :=
  ((perm_sortedBy _ _).map _).nodup_iff.2 ((List.filter_sublist.map _).nodup h)

/-- The events that preparation hands on stand for a movement without conflict. -/
theorem mem_representatives_iff :
    e ∈ representatives evidence es ↔ Clear evidence es e ∧ Foremost es e := by
  constructor
  · intro h
    obtain ⟨key, hkey, hhead⟩ := List.mem_filterMap.1 h
    have hk := (mem_movementGroup.1 (List.mem_of_mem_head? hhead)).2
    exact ⟨⟨key, hk, by simpa using (List.mem_filter.1 hkey).2⟩, key, hk, hhead⟩
  · rintro ⟨⟨key, hk, hclear⟩, key', hk', hhead⟩
    rw [hk] at hk'
    cases hk'
    have hmem := (mem_movementGroup.1 (List.mem_of_mem_head? hhead)).1
    exact List.mem_filterMap.2 ⟨key, List.mem_filter.2 ⟨mem_movementKeys.2 ⟨e, hmem, hk⟩,
      by simp [hclear]⟩, hhead⟩

theorem mem_prepared_iff : e ∈ (prepareWeeklyEvents fromisoformat events evidence).events ↔
    Clear evidence (survivingEvents fromisoformat events) e ∧
      Foremost (survivingEvents fromisoformat events) e := by
  rw [prepared_events.mem_iff, mem_representatives_iff]

theorem Foremost.mem (h : Foremost es e) : e ∈ es := by
  obtain ⟨key, -, hhead⟩ := h
  exact (mem_movementGroup.1 (List.mem_of_mem_head? hhead)).1

/-- The ids that preparation rejects stand for no event, or their movement conflicts. -/
theorem mem_rejected : id ∈ (prepareWeeklyEvents fromisoformat events evidence).rejectedEventIds ↔
    id ∈ rowIds events ∧ ∀ e, eventOf fromisoformat events id = some e →
      ¬Clear evidence (survivingEvents fromisoformat events) e := by
  have hinvalid : ∀ row i, validationIssue fromisoformat row = some i → rowId row.id = .ok id →
      (id ∈ i.eventIds ∧ ∀ e, validateEvent fromisoformat row ≠ .ok e) := by
    intro row i hi hid
    unfold validationIssue at hi
    split at hi
    · cases hi
    · rename_i message hv
      cases hi
      exact ⟨by simp [hid, Except.toOption], by simp [hv]⟩
  simp only [prepareWeeklyEvents, mem_sortedSet, List.mem_append, List.mem_flatMap]
  constructor
  · rintro ((hconf | ⟨i, hi, hid⟩) | ⟨key, hkey, hgroup⟩)
    · obtain ⟨hid, hc⟩ := List.mem_filter.1 hconf
      refine ⟨hid, fun e he => ?_⟩
      obtain ⟨row, hs, -⟩ := eventOf_eq_some.1 he
      rw [(survivor_row hs).2.2] at hc
      cases hc
    · obtain ⟨row, hrow, hissue⟩ := List.mem_filterMap.1 hi
      rw [uniqueRows_eq] at hrow
      obtain ⟨id', hid', hs⟩ := List.mem_filterMap.1 hrow
      have hrowId := (survivor_row hs).2.1
      have hsame : id = id' := by
        unfold validationIssue at hissue
        split at hissue
        · cases hissue
        · cases hissue
          simpa [hrowId, Except.toOption] using hid
      subst hsame
      refine ⟨hid', fun e he => ?_⟩
      obtain ⟨row', hs', hv⟩ := eventOf_eq_some.1 he
      rw [hs] at hs'
      cases hs'
      exact absurd hv ((hinvalid row i hissue hrowId).2 e)
    · obtain ⟨hkeys, hc⟩ := List.mem_filter.1 hkey
      obtain ⟨e, he, rfl⟩ := List.mem_map.1 hgroup
      obtain ⟨hmem, hk⟩ := mem_movementGroup.1 he
      have hof := mem_surviving.1 hmem
      refine ⟨eventOf_mem hof, fun e' he' => ?_⟩
      rw [hof] at he'
      cases he'
      rintro ⟨key', hk', hclear⟩
      rw [hk] at hk'
      cases hk'
      rw [hclear] at hc
      cases hc
  · rintro ⟨hid, hnot⟩
    cases hc : consistentId fromisoformat events id with
    | false => exact Or.inl (Or.inl (List.mem_filter.2 ⟨hid, by simp [hc]⟩))
    | true =>
      obtain ⟨row, hs⟩ := survivor_isSome hid hc
      cases hv : validateEvent fromisoformat row with
      | error message =>
        have hissue : validationIssue fromisoformat row =
            some ⟨"event_validation_failed", message, (rowId row.id).toOption.toList, none⟩ := by
          simp only [validationIssue, hv]
        refine Or.inl (Or.inr ⟨_, List.mem_filterMap.2 ⟨row, ?_, hissue⟩,
          (hinvalid row _ hissue (survivor_row hs).2.1).1⟩)
        rw [uniqueRows_eq]
        exact List.mem_filterMap.2 ⟨id, hid, hs⟩
      | ok e =>
        have hof : eventOf fromisoformat events id = some e := eventOf_eq_some.2 ⟨row, hs, hv⟩
        have hrowId := eventOf_rowId hof
        have hmem : e ∈ survivingEvents fromisoformat events := mem_surviving.2 (by rw [hrowId]; exact hof)
        obtain ⟨identity, -, hk⟩ := (validateEvent_ok hv).movementKey
        refine Or.inr ⟨_, List.mem_filter.2 ⟨mem_movementKeys.2 ⟨e, hmem, hk⟩, ?_⟩,
          List.mem_map.2 ⟨e, mem_movementGroup.2 ⟨hmem, hk⟩, hrowId⟩⟩
        by_contra hclear
        exact hnot e hof ⟨_, hk, by simpa using hclear⟩

/-- The duplicates are in a movement without conflict, and another event stands for it. -/
theorem mem_duplicates : id ∈
    (prepareWeeklyEvents fromisoformat events evidence).duplicateMovementEventIdsConsolidated ↔
    ∃ e, eventOf fromisoformat events id = some e ∧ Clear evidence (survivingEvents fromisoformat events)
      e ∧ ¬Foremost (survivingEvents fromisoformat events) e := by
  simp only [prepareWeeklyEvents, mem_sortedSet, List.mem_flatMap, List.mem_filter, List.mem_map,
      decide_eq_true_eq,
    Bool.not_eq_true', and_assoc]
  constructor
  · rintro ⟨key, hkey, hclear, -, e, he, rfl⟩
    obtain ⟨hmem, hk⟩ := mem_movementGroup.1 (List.mem_of_mem_tail he)
    refine ⟨e, mem_surviving.1 hmem, ⟨key, hk, hclear⟩, ?_⟩
    rintro ⟨key', hk', hhead⟩
    rw [hk] at hk'
    cases hk'
    have hids : ((movementGroup (survivingEvents fromisoformat events) key).map
        ValidatedEvent.rowId).Nodup :=
      nodup_movementGroup surviving_nodup
    have hnodup := nodup_of_keys hids
    rw [← List.cons_head?_tail hhead, List.nodup_cons] at hnodup
    exact hnodup.1 he
  · rintro ⟨e, hof, ⟨key, hk, hclear⟩, hlead⟩
    have hrowId := eventOf_rowId hof
    have hmem : e ∈ survivingEvents fromisoformat events := mem_surviving.2 (by rw [hrowId]; exact hof)
    have hgroup := mem_movementGroup.2 ⟨hmem, hk⟩
    refine ⟨key, mem_movementKeys.2 ⟨e, hmem, hk⟩, hclear, ?_⟩
    cases hg : movementGroup (survivingEvents fromisoformat events) key with
    | nil => rw [hg] at hgroup; cases hgroup
    | cons first rest =>
      have hne : e ≠ first := by
        rintro rfl
        exact hlead ⟨key, hk, by rw [hg]; rfl⟩
      rw [hg] at hgroup
      have hrest : e ∈ rest := (List.mem_cons.1 hgroup).resolve_left hne
      have hpos := List.length_pos_of_mem hrest
      exact ⟨by simp only [List.length_cons]; omega, e, hrest, hrowId⟩

/-! ## Counted events -/

/-- The event is not turned away for want of an order. -/
def verified (orders : CommercialOrderEvidence) (e : ValidatedEvent) : Bool :=
  e.eventType ≠ .outboundOrderCreated || (outboundIssue orders e).isNone

theorem mem_accepted : e ∈ accepted orders es ↔ e ∈ es ∧ verified orders e = true := List.mem_filter

/-- The ids whose counters overflow. -/
def lost (orders : CommercialOrderEvidence) (p : PreparedWeeklyEvents) : List String :=
  (overflowed (contributions orders p)).flatMap fun o => o.2.2

theorem contribution_ids {t : EventType} {key : AggregateKey}
    (h : id ∈ ((contribution orders p t).get key).2) : ∃ e ∈ accepted orders p.events, e.rowId = id := by
  unfold MetricContribution.get at h
  rw [contribution_values] at h
  cases hf : (metricValues (rowsOf (counted orders p.events t))).find? fun v => v.1 = key with
  | none => rw [hf] at h; cases h
  | some v =>
    rw [hf] at h
    obtain ⟨key', -, rfl⟩ := List.mem_map.1 (List.mem_of_find?_eq_some hf)
    simp only [mem_sortedSet, rowsOf, List.mem_map, List.mem_filter] at h
    obtain ⟨_, ⟨⟨e, he, rfl⟩, -⟩, rfl⟩ := h
    rw [counted_eq] at he
    exact ⟨e, List.mem_of_mem_filter he, rfl⟩

/-- Only what was accepted is lost. -/
theorem mem_lost (h : id ∈ lost orders p) : ∃ e ∈ accepted orders p.events, e.rowId = id := by
  obtain ⟨⟨key, field, ids⟩, ho, hid⟩ := List.mem_flatMap.1 h
  obtain ⟨key', -, hfield⟩ := List.mem_flatMap.1 ho
  obtain ⟨_, hf, heq⟩ := List.mem_map.1 hfield
  cases heq
  obtain ⟨⟨name, c⟩, hc, heq⟩ := List.mem_map.1 hf
  cases heq
  have hmem := (List.of_mem_zip (List.mem_of_mem_filter hc)).2
  simp only [contributions, List.mem_cons, List.not_mem_nil, or_false] at hmem
  rcases hmem with rfl | rfl | rfl | rfl <;> exact contribution_ids hid

theorem contribution_accepted (t : EventType) : (contribution orders p t).acceptedEventIds =
    sortedBy textLe ((counted orders p.events t).map ValidatedEvent.rowId) := by
  have hplain : ∀ t', t' ≠ EventType.outboundOrderCreated → p.ofType t' = counted orders p.events t' := by
    intro t' ht'
    simp [PreparedWeeklyEvents.ofType, counted, ht']
  cases t with
  | inboundOrderCreated => rfl
  | outboundOrderCreated =>
    have hc : (p.ofType .outboundOrderCreated).filter (fun e => (outboundIssue orders e).isNone) =
        counted orders p.events .outboundOrderCreated := by
      simp [PreparedWeeklyEvents.ofType, counted, List.filter_filter, Bool.and_comm]
    rw [← hc]
    rfl
  | stockThresholdTriggered => rw [← hplain _ (by decide)]; rfl
  | inventoryDiscrepancyDetected => rw [← hplain _ (by decide)]; rfl

/-- An id is accepted when its event is prepared, verified and not lost. -/
theorem mem_composed_accepted : id ∈ (composed orders p).quality.acceptedEventIds ↔
    (∃ e ∈ p.events, verified orders e = true ∧ e.rowId = id) ∧ id ∉ lost orders p := by
  have hids : id ∈ (contributions orders p).flatMap MetricContribution.acceptedEventIds ↔
      ∃ e ∈ p.events, verified orders e = true ∧ e.rowId = id := by
    simp only [contributions, List.flatMap_cons, List.flatMap_nil, List.append_nil, List.mem_append,
      contribution_accepted, mem_sortedBy, List.mem_map, counted_eq, List.mem_filter, decide_eq_true_eq,
      mem_accepted, and_assoc]
    constructor
    · rintro (⟨e, he, hv, -, rfl⟩ | ⟨e, he, hv, -, rfl⟩ | ⟨e, he, hv, -, rfl⟩ | ⟨e, he, hv, -, rfl⟩) <;>
        exact ⟨e, he, hv, rfl⟩
    · rintro ⟨e, he, hv, rfl⟩
      cases ht : e.eventType
      · exact Or.inl ⟨e, he, hv, ht, rfl⟩
      · exact Or.inr (Or.inl ⟨e, he, hv, ht, rfl⟩)
      · exact Or.inr (Or.inr (Or.inl ⟨e, he, hv, ht, rfl⟩))
      · exact Or.inr (Or.inr (Or.inr ⟨e, he, hv, ht, rfl⟩))
  rw [← hids]
  simp only [composed, composeWeeklyPerformance, mem_sortedSet, List.mem_filter, decide_eq_true_eq]
  rfl

/-- An id is rejected by preparation, for want of an order, or because its counter overflows. -/
theorem mem_composed_rejected : id ∈ (composed orders p).quality.rejectedEventIds ↔
    id ∈ p.rejectedEventIds ∨ (∃ e ∈ p.events, verified orders e = false ∧ e.rowId = id) ∨
      id ∈ lost orders p := by
  have hids : id ∈ (contributions orders p).flatMap MetricContribution.rejectedEventIds ↔
      ∃ e ∈ p.events, verified orders e = false ∧ e.rowId = id := by
    have hcontr : ∀ t, (contribution orders p t).rejectedEventIds = if t = .outboundOrderCreated then
        sortedBy textLe (((p.ofType .outboundOrderCreated).filter fun e =>
            (outboundIssue orders e).isSome).map
          ValidatedEvent.rowId) else [] := by
      intro t
      cases t <;> rfl
    simp only [contributions, List.flatMap_cons, List.flatMap_nil, hcontr, reduceCtorEq, if_true,
        if_false, List.nil_append,
      List.append_nil, mem_sortedBy, List.mem_map, List.mem_filter, PreparedWeeklyEvents.ofType,
          decide_eq_true_eq, and_assoc]
    refine exists_congr fun e => and_congr_right fun _ => ?_
    rw [← and_assoc]
    refine and_congr_left fun _ => ?_
    cases hi : outboundIssue orders e <;> simp [verified, hi]
  rw [← hids]
  simp only [composed, composeWeeklyPerformance, mem_sortedSet, List.mem_append, or_assoc]
  rfl

/-! ## Conservation -/

/-- The events that a report accepts. -/
def acceptedEvents (fromisoformat : String → Option PyValue) (events : List TelemetryRow)
    (report : QualityReport) (t : EventType) : List ValidatedEvent :=
  (survivingEvents fromisoformat events).filter fun e => e.eventType = t && e.rowId ∈
    report.acceptedEventIds

/-- The ids of the input are what the report accepts, rejects and takes for duplicates. -/
theorem composed_partition :
    let r := (composed orders (prepareWeeklyEvents fromisoformat events evidence)).quality
    (r.acceptedEventIds ++ r.rejectedEventIds ++ r.duplicateMovementEventIdsConsolidated).Perm
      (rowIds events) := by
  intro r
  let p := prepareWeeklyEvents fromisoformat events evidence
  let es := survivingEvents fromisoformat events
  have hprepared : ∀ e, e ∈ p.events ↔ Clear evidence es e ∧ Foremost es e := fun e => mem_prepared_iff
  have hof : ∀ e ∈ p.events, eventOf fromisoformat events e.rowId = some e :=
    fun e he => mem_surviving.1 ((hprepared e).1 he).2.mem
  have hone : ∀ e e', eventOf fromisoformat events e.rowId = some e →
      eventOf fromisoformat events e.rowId = some e' → e' = e := by
    intro e e' h h'
    rw [h] at h'
    exact (Option.some.inj h').symm
  have hacc : ∀ id, id ∈ r.acceptedEventIds ↔ (∃ e ∈ p.events, verified orders e = true ∧
      e.rowId = id) ∧ id ∉ lost orders p :=
    fun id => mem_composed_accepted
  have hrej : ∀ id, id ∈ r.rejectedEventIds ↔ id ∈ p.rejectedEventIds ∨
      (∃ e ∈ p.events, verified orders e = false ∧ e.rowId = id) ∨ id ∈ lost orders p :=
        fun id => mem_composed_rejected
  have hdup : ∀ id, id ∈ r.duplicateMovementEventIdsConsolidated ↔
      ∃ e, eventOf fromisoformat events id = some e ∧
      Clear evidence es e ∧ ¬Foremost es e := fun id => mem_duplicates
  have hprej : ∀ id, id ∈ p.rejectedEventIds ↔ id ∈ rowIds events ∧
      ∀ e, eventOf fromisoformat events id = some e →
      ¬Clear evidence es e := fun id => mem_rejected
  have hlost : ∀ id, id ∈ lost orders p → ∃ e ∈ p.events, verified orders e = true ∧ e.rowId = id := by
    intro id h
    obtain ⟨e, he, hid⟩ := mem_lost h
    exact ⟨e, (mem_accepted.1 he).1, (mem_accepted.1 he).2, hid⟩
  have hnodup : (r.acceptedEventIds ++ r.rejectedEventIds ++
      r.duplicateMovementEventIdsConsolidated).Nodup := by
    refine List.nodup_append'.2 ⟨List.nodup_append'.2 ⟨nodup_sortedSet _ _, nodup_sortedSet _ _,
      ?_⟩, nodup_sortedSet _ _, ?_⟩
    · intro id ha hr
      obtain ⟨⟨e, he, hv, rfl⟩, hnotLost⟩ := (hacc id).1 ha
      rcases (hrej _).1 hr with hp | ⟨e', he', hv', hid⟩ | hl
      · exact ((hprej _).1 hp).2 e (hof e he) ((hprepared e).1 he).1
      · rw [hone e e' (hof e he) (hid ▸ hof e' he'), hv] at hv'
        cases hv'
      · exact hnotLost hl
    · intro id h hd
      obtain ⟨e, he, hclear, hnot⟩ := (hdup id).1 hd
      have hlead : ∀ e' ∈ p.events, e'.rowId = id → False := by
        rintro e' he' rfl
        rw [hone e' e (hof e' he') he] at hnot
        exact hnot ((hprepared e').1 he').2
      rcases List.mem_append.1 h with ha | hr
      · obtain ⟨⟨e', he', -, hid⟩, -⟩ := (hacc id).1 ha
        exact hlead e' he' hid
      · rcases (hrej id).1 hr with hp | ⟨e', he', -, hid⟩ | hl
        · exact ((hprej _).1 hp).2 e he hclear
        · exact hlead e' he' hid
        · obtain ⟨e', he', -, hid⟩ := hlost id hl
          exact hlead e' he' hid
  refine (List.perm_ext_iff_of_nodup hnodup (nodup_sortedSet _ _)).2 fun id => ?_
  rw [List.mem_append, List.mem_append]
  constructor
  · have hin : ∀ e ∈ p.events, e.rowId = id → id ∈ rowIds events := by
      rintro e he rfl
      exact eventOf_mem (hof e he)
    rintro ((ha | hr) | hd)
    · obtain ⟨⟨e, he, -, hid⟩, -⟩ := (hacc id).1 ha
      exact hin e he hid
    · rcases (hrej id).1 hr with hp | ⟨e, he, -, hid⟩ | hl
      · exact ((hprej _).1 hp).1
      · exact hin e he hid
      · obtain ⟨e, he, -, hid⟩ := hlost id hl
        exact hin e he hid
    · obtain ⟨e, he, -⟩ := (hdup id).1 hd
      exact eventOf_mem he
  · intro hid
    by_cases hclear : ∃ e, eventOf fromisoformat events id = some e ∧ Clear evidence es e
    · obtain ⟨e, he, hc⟩ := hclear
      by_cases hl : Foremost es e
      · have hmem : e ∈ p.events := (hprepared e).2 ⟨hc, hl⟩
        have hrow := eventOf_rowId he
        cases hv : verified orders e with
        | false => exact Or.inl (Or.inr ((hrej id).2 (Or.inr (Or.inl ⟨e, hmem, hv, hrow⟩))))
        | true =>
          by_cases hlo : id ∈ lost orders p
          · exact Or.inl (Or.inr ((hrej id).2 (Or.inr (Or.inr hlo))))
          · exact Or.inl (Or.inl ((hacc id).2 ⟨⟨e, hmem, hv, hrow⟩, hlo⟩))
      · exact Or.inr ((hdup id).2 ⟨e, he, hc, hl⟩)
    · exact Or.inl (Or.inr ((hrej id).2 (Or.inl ((hprej id).2 ⟨hid, fun e he hc => hclear ⟨e, he, hc⟩⟩))))

theorem lost_eq_nil (h : ∀ t key, overflows (counter orders p.events t key) = false) :
    lost orders p = [] := by
  rw [lost, overflowed_eq_nil_iff.2 h, List.flatMap_nil]

/-- Counters that all fit do not overflow. -/
theorem overflows_accepted (hp : Positive p.events) :
    Overflows (accepted orders p.events) ↔ ∃ t key, overflows (counter orders p.events t key) = true := by
  rw [overflows_iff]
  refine exists_congr fun t => exists_congr fun key => ?_
  have hle : 0 ≤ total (accepted orders p.events) t key := total_nonneg hp.accepted
  simp [overflows, counter_eq_total, hle]

/-- A counter over all aggregates is what the events of its type bring. -/
theorem sum_totals (es : List ValidatedEvent) (t : EventType) :
    ((sortedSet AggregateKey.le (es.map ValidatedEvent.key)).map (total es t)).sum =
      ((es.filter fun e => e.eventType = t).map ValidatedEvent.amount).sum := by
  rw [← sum_by_keys (f := ValidatedEvent.key) ValidatedEvent.amount
      (nodup_sortedSet AggregateKey.le _) fun e he =>
    mem_sortedSet.2 (List.mem_map_of_mem (List.mem_of_mem_filter he))]
  congr 1
  refine List.map_congr_left fun key _ => ?_
  rw [total, List.filter_filter]
  simp only [Bool.and_comm]

theorem sum_amount_of_ne {t : EventType} (ht : t ≠ .inboundOrderCreated) (h : ∀ e ∈ es, e.eventType = t) :
    (es.map ValidatedEvent.amount).sum = es.length := by
  have hone : es.map ValidatedEvent.amount = es.map fun _ => 1 :=
    List.map_congr_left fun e he => by rw [ValidatedEvent.amount, if_neg (by rw [h e he]; exact ht)]
  rw [hone, List.map_const', List.sum_replicate]
  simp

/-- When nothing is lost, the accepted events are the verified ones. -/
theorem acceptedEvents_perm
    (hlost : lost orders (prepareWeeklyEvents fromisoformat events evidence) = []) (t : EventType) :
    (acceptedEvents fromisoformat events
        (composed orders (prepareWeeklyEvents fromisoformat events evidence)).quality t).Perm
      ((accepted orders (prepareWeeklyEvents fromisoformat events evidence).events).filter fun e =>
          e.eventType = t) := by
  have hprepared : (prepareWeeklyEvents fromisoformat events evidence).events.Nodup :=
    prepared_events.nodup_iff.2 (nodup_of_keys representatives_nodup)
  refine (List.perm_ext_iff_of_nodup ((nodup_of_keys surviving_nodup).filter _)
    ((hprepared.filter _).filter _)).2 fun e => ?_
  simp only [List.mem_filter, Bool.and_eq_true, decide_eq_true_eq, mem_composed_accepted, hlost,
    List.not_mem_nil, not_false_eq_true, and_true]
  constructor
  · rintro ⟨he, ht, e', he', hv, hid⟩
    have hsame := surviving_inj he ((mem_prepared_iff.1 he').2.mem) hid.symm
    rw [hsame]
    exact ⟨⟨he', hv⟩, hsame ▸ ht⟩
  · rintro ⟨⟨he, hv⟩, ht⟩
    exact ⟨(mem_prepared_iff.1 he).2.mem, ht, e, he, hv, rfl⟩

/-- The sum of a counter over the aggregates of a result. -/
def WeeklyTransformationResult.sum (r : WeeklyTransformationResult)
    (counter : WeeklyAggregate → Int) : Int :=
  (r.aggregates.map counter).sum

theorem acceptedEvents_type {report : QualityReport} {t : EventType}
    (h : e ∈ acceptedEvents fromisoformat events report t) : e.eventType = t := by
  have hm := (List.mem_filter.1 h).2
  simp only [Bool.and_eq_true, decide_eq_true_eq] at hm
  exact hm.1

/-- A counter of the result is what the accepted events of its type bring. -/
theorem composed_sum {t : EventType} {f : WeeklyAggregate → Int}
    (hfits : ∀ t key, overflows (counter orders (prepareWeeklyEvents fromisoformat events evidence).events
      t key) = false)
    (hf : ∀ es key, f (totalsOf es key) = total es t key) :
    (composed orders (prepareWeeklyEvents fromisoformat events evidence)).sum f =
      ((acceptedEvents fromisoformat events
        (composed orders (prepareWeeklyEvents fromisoformat events evidence)).quality t).map
        ValidatedEvent.amount).sum := by
  have hpos : Positive (prepareWeeklyEvents fromisoformat events evidence).events :=
    positive_valid fun e he => mem_prepared he
  have hnot : ¬Overflows (accepted orders (prepareWeeklyEvents fromisoformat events evidence).events) := by
    rw [overflows_accepted hpos]
    rintro ⟨t, key, h⟩
    rw [hfits t key] at h
    cases h
  rw [WeeklyTransformationResult.sum, composed_aggregates hpos, if_neg hnot, weeklyTotals, List.map_map,
    ((acceptedEvents_perm (lost_eq_nil hfits) t).map ValidatedEvent.amount).sum_eq, ← sum_totals]
  congr 1
  exact List.map_congr_left fun key _ => hf _ key

/-- Of the types that count one for each event, it is their number. -/
theorem composed_count {t : EventType} {f : WeeklyAggregate → Int} (ht : t ≠ .inboundOrderCreated)
    (hfits : ∀ t key, overflows (counter orders (prepareWeeklyEvents fromisoformat events evidence).events
      t key) = false)
    (hf : ∀ es key, f (totalsOf es key) = total es t key) :
    (composed orders (prepareWeeklyEvents fromisoformat events evidence)).sum f =
      (acceptedEvents fromisoformat events
        (composed orders (prepareWeeklyEvents fromisoformat events evidence)).quality t).length := by
  rw [composed_sum hfits hf]
  exact sum_amount_of_ne ht fun e he => acceptedEvents_type he

/-- **Partition and conservation**: the transformation returns; every well-formed id of the input is
accepted, rejected or a consolidated duplicate, once and in one way only; when no counter overflows,
the inbound units of all aggregates are the quantities of the accepted inbound events and the other
counters are the numbers of accepted events of their types; when one does, there are no aggregates. -/
theorem events_partitioned (fromisoformat : String → Option PyValue) (events : List TelemetryRow)
    (orders : CommercialOrderEvidence) (evidence : WeekEvidence) :
    ∃ r, transformWeeklyPerformance fromisoformat events orders evidence = .ok r ∧
      (r.quality.acceptedEventIds ++ r.quality.rejectedEventIds ++
        r.quality.duplicateMovementEventIdsConsolidated).Perm (rowIds events) ∧
      ((∀ t key, overflows (counter orders (prepareWeeklyEvents fromisoformat events evidence).events t
        key) = false) → r.sum WeeklyAggregate.inboundUnitsCount =
        ((acceptedEvents fromisoformat events r.quality .inboundOrderCreated).map
        ValidatedEvent.quantity).sum ∧ r.sum WeeklyAggregate.outboundOrdersCount =
        (acceptedEvents fromisoformat events r.quality .outboundOrderCreated).length ∧
        r.sum WeeklyAggregate.stockoutEventsCount =
        (acceptedEvents fromisoformat events r.quality .stockThresholdTriggered).length ∧
        r.sum WeeklyAggregate.discrepancyEventsCount =
        (acceptedEvents fromisoformat events r.quality .inventoryDiscrepancyDetected).length) ∧
      ((∃ t key, overflows (counter orders (prepareWeeklyEvents fromisoformat events evidence).events t
        key) = true) → r.aggregates = []) := by
  refine ⟨_, transform_eq, composed_partition, fun hfits => ⟨?_, ?_, ?_, ?_⟩, fun hover => ?_⟩
  · refine (composed_sum hfits fun _ _ => rfl).trans ?_
    congr 1
    exact List.map_congr_left fun e he => by rw [ValidatedEvent.amount, if_pos (acceptedEvents_type he)]
  · exact composed_count (by decide) hfits fun _ _ => rfl
  · exact composed_count (by decide) hfits fun _ _ => rfl
  · exact composed_count (by decide) hfits fun _ _ => rfl
  · have hpos : Positive (prepareWeeklyEvents fromisoformat events evidence).events :=
      positive_valid fun e he => mem_prepared he
    exact (composed_aggregates hpos).trans (if_pos ((overflows_accepted hpos).2 hover))

end TrackFlow.Pipelines
