import TrackFlow.Pipelines.EventFates

/-!
# Weeks in two parts

Rows that have neither an id nor a movement in common do not meet in the transformation: preparation
hands on the events of both parts (`prepared_append`) and rejects the ids of both.

- `transform_additive`: the aggregates of both parts together are their sums, key by key.
-/

namespace TrackFlow.Pipelines

open TrackFlow.Python

variable {fromisoformat : String → Option PyValue} {events events' : List TelemetryRow}
  {evidence : WeekEvidence} {orders : CommercialOrderEvidence} {es es' : List ValidatedEvent}
  {e : ValidatedEvent} {id : String} {key : MovementKey}

/-! ## Sums of aggregates -/

/-- The aggregate of a key, or one whose counters are zero. -/
def aggregateAt (aggregates : List WeeklyAggregate) (key : AggregateKey) : WeeklyAggregate :=
  (aggregates.find? fun a => a.key = key).getD (totalsOf [] key)

/-- The sum of two aggregates, with the rate of the sums. -/
def WeeklyAggregate.plus (a b : WeeklyAggregate) : WeeklyAggregate where
  warehouse := a.warehouse
  clientId := a.clientId
  weekStart := a.weekStart
  inboundUnitsCount := a.inboundUnitsCount + b.inboundUnitsCount
  outboundOrdersCount := a.outboundOrdersCount + b.outboundOrdersCount
  stockoutEventsCount := a.stockoutEventsCount + b.stockoutEventsCount
  discrepancyEventsCount := a.discrepancyEventsCount + b.discrepancyEventsCount
  discrepancyRate := Pipelines.discrepancyRate (a.discrepancyEventsCount + b.discrepancyEventsCount)
    (a.outboundOrdersCount + b.outboundOrdersCount)

/-- Two lists of aggregates, added key by key. -/
def addAggregates (as bs : List WeeklyAggregate) : List WeeklyAggregate :=
  (sortedSet AggregateKey.le ((as ++ bs).map WeeklyAggregate.key)).map fun key =>
    (aggregateAt as key).plus (aggregateAt bs key)

theorem total_append (es es' : List ValidatedEvent) (t : EventType) (key : AggregateKey) :
    total (es ++ es') t key = total es t key + total es' t key := by
  simp [total]

theorem totalsOf_append (es es' : List ValidatedEvent) (key : AggregateKey) :
    totalsOf (es ++ es') key = (totalsOf es key).plus (totalsOf es' key) := by
  simp only [totalsOf, WeeklyAggregate.plus, total_append]

theorem totalsOf_key (es : List ValidatedEvent) (key : AggregateKey) : (totalsOf es key).key = key := rfl

theorem keys_weeklyTotals (es : List ValidatedEvent) :
    (weeklyTotals es).map WeeklyAggregate.key = sortedSet AggregateKey.le (es.map ValidatedEvent.key) := by
  rw [weeklyTotals, List.map_map]
  exact List.map_id'' (fun key => totalsOf_key es key) _

/-- A key without events has no counters. -/
theorem totalsOf_absent {key : AggregateKey} (h : key ∉ es.map ValidatedEvent.key) :
    totalsOf es key = totalsOf [] key := by
  have hzero : ∀ t, total es t key = total [] t key := by
    intro t
    have hnil : (es.filter fun e => e.eventType = t && e.key = key) = [] := by
      refine List.filter_eq_nil_iff.2 fun e he hmatch => h ?_
      simp only [Bool.and_eq_true, decide_eq_true_eq] at hmatch
      exact hmatch.2 ▸ List.mem_map_of_mem he
    rw [total, hnil]
    rfl
  simp only [totalsOf, hzero]

theorem aggregateAt_weeklyTotals (es : List ValidatedEvent) (key : AggregateKey) :
    aggregateAt (weeklyTotals es) key = totalsOf es key := by
  unfold aggregateAt
  cases hf : (weeklyTotals es).find? fun a => a.key = key with
  | some a =>
    have hkey : a.key = key := by simpa using List.find?_some hf
    obtain ⟨key', -, rfl⟩ := List.mem_map.1 (List.mem_of_find?_eq_some hf)
    rw [totalsOf_key] at hkey
    rw [hkey, Option.getD_some]
  | none =>
    have habsent : key ∉ es.map ValidatedEvent.key := by
      intro hmem
      have hin : totalsOf es key ∈ weeklyTotals es := List.mem_map_of_mem (mem_sortedSet.2 hmem)
      simpa [totalsOf_key] using List.find?_eq_none.1 hf _ hin
    rw [Option.getD_none, totalsOf_absent habsent]

theorem weeklyTotals_append (es es' : List ValidatedEvent) :
    weeklyTotals (es ++ es') = addAggregates (weeklyTotals es) (weeklyTotals es') := by
  unfold addAggregates
  have hkeys : sortedSet AggregateKey.le ((weeklyTotals es ++ weeklyTotals es').map WeeklyAggregate.key) =
      sortedSet AggregateKey.le ((es ++ es').map ValidatedEvent.key) := by
    refine linear_aggregateKey.sortedSet_congr fun key => ?_
    simp only [List.map_append, keys_weeklyTotals, List.mem_append, mem_sortedSet]
  rw [hkeys, weeklyTotals]
  refine List.map_congr_left fun key _ => ?_
  rw [totalsOf_append, aggregateAt_weeklyTotals, aggregateAt_weeklyTotals]

/-! ## Rows without a common id -/

theorem rowsWithId_append (events events' : List TelemetryRow) (id : String) :
    rowsWithId (events ++ events') id = rowsWithId events id ++ rowsWithId events' id :=
  List.filter_append ..

theorem rowsWithId_eq_nil : rowsWithId events id = [] ↔ id ∉ rowIds events := by
  rw [List.eq_nil_iff_forall_not_mem]
  simp only [mem_rowsWithId, mem_rowIds, not_exists]

theorem mem_rowIds_append : id ∈ rowIds (events ++ events') ↔ id ∈ rowIds events ∨ id ∈ rowIds events' := by
  simp only [rowIds, mem_sortedSet, List.filterMap_append, List.mem_append]

/-- An id stands for the same event among other rows that do not have it. -/
theorem eventOf_congr (h : rowsWithId events id = rowsWithId events' id) :
    eventOf fromisoformat events id = eventOf fromisoformat events' id := by
  unfold eventOf survivor consistentId
  rw [h]

/-- The parts have no id in common. -/
def IdsApart (events events' : List TelemetryRow) : Prop := ∀ id ∈ rowIds events, id ∉ rowIds events'

theorem eventOf_append (hids : IdsApart events events') :
    eventOf fromisoformat (events ++ events') id = some e ↔
    eventOf fromisoformat events id = some e ∨ eventOf fromisoformat events' id = some e := by
  by_cases hleft : id ∈ rowIds events
  · have hright : rowsWithId events' id = [] := rowsWithId_eq_nil.2 (hids id hleft)
    rw [@eventOf_congr fromisoformat (events ++ events') events id
      (by rw [rowsWithId_append, hright, List.append_nil])]
    exact ⟨Or.inl, fun h => h.resolve_right fun h' => hids id hleft (eventOf_mem h')⟩
  · have hnil : rowsWithId events id = [] := rowsWithId_eq_nil.2 hleft
    rw [@eventOf_congr fromisoformat (events ++ events') events' id
      (by rw [rowsWithId_append, hnil, List.nil_append])]
    exact ⟨Or.inr, fun h => h.resolve_left fun h' => hleft (eventOf_mem h')⟩

theorem mem_surviving_append (hids : IdsApart events events') :
    e ∈ survivingEvents fromisoformat (events ++ events') ↔
    e ∈ survivingEvents fromisoformat events ∨ e ∈ survivingEvents fromisoformat events' := by
  rw [mem_surviving, eventOf_append hids, mem_surviving, mem_surviving]

/-! ## Movements of one part -/

/-- The parts have no movement in common. -/
def MovementsApart (es es' : List ValidatedEvent) : Prop := ∀ key ∈ movementKeys es, key ∉ movementKeys es'

/-- A movement looks the same among events of other movements. -/
structure SameMovement (all part : List ValidatedEvent) (key : MovementKey) : Prop where
  group : movementGroup all key = movementGroup part key

theorem SameMovement.conflicting {all part : List ValidatedEvent} (h : SameMovement all part key) :
    conflicting evidence all key = conflicting evidence part key := by
  simp only [Pipelines.conflicting, observedWeeks, h.group]

/-- The events of a movement are those of the part that has it. -/
theorem sameMovement {all part other : List ValidatedEvent} (hall : (all.map ValidatedEvent.rowId).Nodup)
    (hpart : (part.map ValidatedEvent.rowId).Nodup) (hmem : ∀ e, e ∈ all ↔ e ∈ part ∨ e ∈ other)
    (hkey : key ∉ movementKeys other) : SameMovement all part key := by
  refine ⟨linear_textLe.sortedBy_key_congr (fun a ha b hb hab => ?_) ?_⟩
  · exact List.inj_on_of_nodup_map hall (List.mem_of_mem_filter ha) (List.mem_of_mem_filter hb) hab
  · refine (List.perm_ext_iff_of_nodup ((nodup_of_keys hall).filter _)
        ((nodup_of_keys hpart).filter _)).2 fun e => ?_
    simp only [List.mem_filter, decide_eq_true_eq, hmem]
    refine and_congr_left fun hk => ⟨fun h => h.resolve_right fun ho =>
        hkey (mem_movementKeys.2 ⟨e, ho, hk⟩), Or.inl⟩

theorem SameMovement.clear_iff {all part : List ValidatedEvent} (h : SameMovement all part key)
    (hk : e.movementKey = some key) :
    (Clear evidence all e ↔ Clear evidence part e) ∧ (Foremost all e ↔ Foremost part e) := by
  simp only [Clear, Foremost, hk, Option.some.injEq, exists_eq_left', h.conflicting, h.group, and_self]

/-- What an event meets in both parts together it meets in its own part. -/
theorem parts_iff (evidence : WeekEvidence) (hids : IdsApart events events')
    (hkeys : MovementsApart (survivingEvents fromisoformat events) (survivingEvents fromisoformat events'))
    (he : e ∈ survivingEvents fromisoformat events) :
    (Clear evidence (survivingEvents fromisoformat (events ++ events')) e ↔
      Clear evidence (survivingEvents fromisoformat events) e) ∧
    (Foremost (survivingEvents fromisoformat (events ++ events')) e ↔
      Foremost (survivingEvents fromisoformat events) e) := by
  obtain ⟨row, -, hv⟩ := surviving_valid he
  obtain ⟨identity, -, hk⟩ := hv.movementKey
  exact (sameMovement surviving_nodup surviving_nodup (fun e => mem_surviving_append hids)
    (hkeys _ (mem_movementKeys.2 ⟨e, he, hk⟩))).clear_iff hk

theorem parts_iff' (evidence : WeekEvidence) (hids : IdsApart events events')
    (hkeys : MovementsApart (survivingEvents fromisoformat events) (survivingEvents fromisoformat events'))
    (he : e ∈ survivingEvents fromisoformat events') :
    (Clear evidence (survivingEvents fromisoformat (events ++ events')) e ↔
      Clear evidence (survivingEvents fromisoformat events') e) ∧
    (Foremost (survivingEvents fromisoformat (events ++ events')) e ↔
      Foremost (survivingEvents fromisoformat events') e) := by
  obtain ⟨row, -, hv⟩ := surviving_valid he
  obtain ⟨identity, -, hk⟩ := hv.movementKey
  exact (sameMovement surviving_nodup surviving_nodup (fun e => (mem_surviving_append hids).trans or_comm)
    (fun h => hkeys _ h (mem_movementKeys.2 ⟨e, he, hk⟩))).clear_iff hk

/-! ## Both parts -/

section Parts

variable (hids : IdsApart events events')
  (hkeys : MovementsApart (survivingEvents fromisoformat events) (survivingEvents fromisoformat events'))

include hids hkeys

/-- Preparation hands on the events of both parts. -/
theorem prepared_append : (prepareWeeklyEvents fromisoformat (events ++ events') evidence).events.Perm
    ((prepareWeeklyEvents fromisoformat events evidence).events ++
      (prepareWeeklyEvents fromisoformat events' evidence).events) := by
  have hnodup : ∀ rows, (prepareWeeklyEvents fromisoformat rows evidence).events.Nodup :=
    fun rows => prepared_events.nodup_iff.2 (nodup_of_keys representatives_nodup)
  refine (List.perm_ext_iff_of_nodup (hnodup _) (List.nodup_append'.2 ⟨hnodup _, hnodup _, ?_⟩)).2
    fun e => ?_
  · intro e he he'
    have hof := mem_surviving.1 (mem_prepared_iff.1 he).2.mem
    have hof' := mem_surviving.1 (mem_prepared_iff.1 he').2.mem
    exact hids _ (eventOf_mem hof) (eventOf_mem hof')
  · rw [List.mem_append, mem_prepared_iff, mem_prepared_iff, mem_prepared_iff]
    constructor
    · rintro ⟨hc, hl⟩
      rcases (mem_surviving_append hids).1 hl.mem with he | he
      · have hparts := parts_iff evidence hids hkeys he
        exact Or.inl ⟨hparts.1.1 hc, hparts.2.1 hl⟩
      · have hparts := parts_iff' evidence hids hkeys he
        exact Or.inr ⟨hparts.1.1 hc, hparts.2.1 hl⟩
    · rintro (⟨hc, hl⟩ | ⟨hc, hl⟩)
      · have hparts := parts_iff evidence hids hkeys hl.mem
        exact ⟨hparts.1.2 hc, hparts.2.2 hl⟩
      · have hparts := parts_iff' evidence hids hkeys hl.mem
        exact ⟨hparts.1.2 hc, hparts.2.2 hl⟩

/-- It rejects the ids of both parts. -/
theorem rejected_append :
    id ∈ (prepareWeeklyEvents fromisoformat (events ++ events') evidence).rejectedEventIds ↔
    id ∈ (prepareWeeklyEvents fromisoformat events evidence).rejectedEventIds ∨
      id ∈ (prepareWeeklyEvents fromisoformat events' evidence).rejectedEventIds := by
  have hown : ∀ e, eventOf fromisoformat events id = some e → e ∈ survivingEvents fromisoformat events :=
    fun e he => mem_surviving.2 (by rw [eventOf_rowId he]; exact he)
  have hown' : ∀ e, eventOf fromisoformat events' id = some e → e ∈ survivingEvents fromisoformat events' :=
    fun e he => mem_surviving.2 (by rw [eventOf_rowId he]; exact he)
  rw [mem_rejected, mem_rejected, mem_rejected, mem_rowIds_append]
  constructor
  · rintro ⟨hid | hid, hnot⟩
    · refine Or.inl ⟨hid, fun e he hc => ?_⟩
      exact hnot e ((eventOf_append hids).2 (Or.inl he))
        ((parts_iff evidence hids hkeys (hown e he)).1.2 hc)
    · refine Or.inr ⟨hid, fun e he hc => ?_⟩
      exact hnot e ((eventOf_append hids).2 (Or.inr he))
        ((parts_iff' evidence hids hkeys (hown' e he)).1.2 hc)
  · rintro (⟨hid, hnot⟩ | ⟨hid, hnot⟩)
    · refine ⟨Or.inl hid, fun e he hc => ?_⟩
      have hof := ((eventOf_append hids).1 he).resolve_right fun h => hids id hid (eventOf_mem h)
      exact hnot e hof ((parts_iff evidence hids hkeys (hown e hof)).1.1 hc)
    · refine ⟨Or.inr hid, fun e he hc => ?_⟩
      have hof := ((eventOf_append hids).1 he).resolve_left fun h => hids id (eventOf_mem h) hid
      exact hnot e hof ((parts_iff' evidence hids hkeys (hown' e hof)).1.1 hc)

end Parts

theorem accepted_append (es es' : List ValidatedEvent) :
    accepted orders (es ++ es') = accepted orders es ++ accepted orders es' := List.filter_append ..

/-- Without overflow, the ids of a report are those of verified and unverified events. -/
theorem mem_quality {p : PreparedWeeklyEvents}
    (hfits : ∀ t key, overflows (counter orders p.events t key) = false) :
    (id ∈ (composed orders p).quality.acceptedEventIds ↔ ∃ e ∈ p.events, verified orders e = true ∧
      e.rowId = id) ∧
    (id ∈ (composed orders p).quality.rejectedEventIds ↔
      id ∈ p.rejectedEventIds ∨ ∃ e ∈ p.events, verified orders e = false ∧ e.rowId = id) := by
  rw [mem_composed_accepted, mem_composed_rejected, lost_eq_nil hfits]
  simp

theorem fits_of_sum {a b c : Int} (h : overflows c = false) (hs : c = a + b) (ha : 0 ≤ a) (hb : 0 ≤ b) :
    overflows a = false ∧ overflows b = false := by
  simp only [overflows, Bool.or_eq_false_iff, decide_eq_false_iff_not] at h ⊢
  omega

theorem aggregates_of_fits {p : PreparedWeeklyEvents} (hp : Positive p.events)
    (hfits : ∀ t key, overflows (counter orders p.events t key) = false) :
    (composed orders p).aggregates = weeklyTotals (accepted orders p.events) := by
  rw [composed_aggregates hp, if_neg]
  rw [overflows_accepted hp]
  rintro ⟨t, key, ho⟩
  rw [hfits t key] at ho
  cases ho

theorem counter_nonneg_of_positive {p : PreparedWeeklyEvents} (hp : Positive p.events) (t : EventType)
    (key : AggregateKey) : 0 ≤ counter orders p.events t key := by
  rw [counter_eq_total]
  exact total_nonneg hp.accepted

/-- What is composed from the events of two parts is the sum of what is composed from each. -/
theorem composed_append {p p' both : PreparedWeeklyEvents}
    (hperm : both.events.Perm (p.events ++ p'.events))
    (hrejected : ∀ id, id ∈ both.rejectedEventIds ↔ id ∈ p.rejectedEventIds ∨ id ∈ p'.rejectedEventIds)
    (hp : Positive p.events) (hp' : Positive p'.events)
    (hfits : ∀ t key, overflows (counter orders both.events t key) = false) :
    (composed orders both).aggregates = addAggregates (composed orders p).aggregates
      (composed orders p').aggregates ∧
    (∀ id, id ∈ (composed orders both).quality.acceptedEventIds ↔
      id ∈ (composed orders p).quality.acceptedEventIds ∨
      id ∈ (composed orders p').quality.acceptedEventIds) ∧
    ∀ id, id ∈ (composed orders both).quality.rejectedEventIds ↔
      id ∈ (composed orders p).quality.rejectedEventIds ∨
      id ∈ (composed orders p').quality.rejectedEventIds := by
  have hboth : Positive both.events :=
    fun e he => (List.mem_append.1 (hperm.mem_iff.1 he)).elim (hp e) (hp' e)
  have hmeasure : ((accepted orders both.events).map ValidatedEvent.measure).Perm
      ((accepted orders p.events ++ accepted orders p'.events).map ValidatedEvent.measure) := by
    rw [← accepted_append]
    exact (hperm.filter _).map _
  -- A counter of both parts is the sum of two that are not negative, so both fit with it.
  have hsum : ∀ t key, counter orders both.events t key = counter orders p.events t key +
      counter orders p'.events t key := by
    intro t key
    rw [counter_eq_total, counter_eq_total, counter_eq_total, total_congr hmeasure, total_append]
  have hparts : ∀ t key, overflows (counter orders p.events t key) = false ∧
      overflows (counter orders p'.events t key) = false := fun t key =>
    fits_of_sum (hfits t key) (hsum t key) (counter_nonneg_of_positive hp t key)
      (counter_nonneg_of_positive hp' t key)
  refine ⟨?_, fun id => ?_, fun id => ?_⟩
  · rw [aggregates_of_fits hboth hfits, aggregates_of_fits hp fun t key => (hparts t key).1,
      aggregates_of_fits hp' fun t key => (hparts t key).2, weeklyTotals_congr hmeasure,
        weeklyTotals_append]
  · rw [(mem_quality hfits).1, (mem_quality fun t key => (hparts t key).1).1,
        (mem_quality fun t key => (hparts t key).2).1]
    simp only [hperm.mem_iff, List.mem_append, or_and_right, exists_or]
  · rw [(mem_quality hfits).2, (mem_quality fun t key => (hparts t key).1).2,
        (mem_quality fun t key => (hparts t key).2).2,
      hrejected]
    simp only [hperm.mem_iff, List.mem_append, or_and_right, exists_or]
    exact or_or_or_comm

/-- **Additivity**: where two lists of rows have no id and no movement in common and no counter of
both together overflows, the aggregates of both together are the sums of theirs, key by key, and the
accepted and rejected ids are theirs. -/
theorem transform_additive (fromisoformat : String → Option PyValue) (events events' : List TelemetryRow)
    (orders : CommercialOrderEvidence) (evidence : WeekEvidence) (hids : IdsApart events events')
    (hkeys : MovementsApart (survivingEvents fromisoformat events) (survivingEvents fromisoformat events'))
    (hfits : ∀ t key, overflows (counter orders
      (prepareWeeklyEvents fromisoformat (events ++ events') evidence).events t key) = false) :
    ∃ r r' both, transformWeeklyPerformance fromisoformat events orders evidence = .ok r ∧
      transformWeeklyPerformance fromisoformat events' orders evidence = .ok r' ∧
      transformWeeklyPerformance fromisoformat (events ++ events') orders evidence = .ok both ∧
      both.aggregates = addAggregates r.aggregates r'.aggregates ∧
      (∀ id, id ∈ both.quality.acceptedEventIds ↔ id ∈ r.quality.acceptedEventIds ∨
        id ∈ r'.quality.acceptedEventIds) ∧ ∀ id, id ∈ both.quality.rejectedEventIds ↔
      id ∈ r.quality.rejectedEventIds ∨ id ∈ r'.quality.rejectedEventIds := by
  exact ⟨_, _, _, transform_eq, transform_eq, transform_eq,
    composed_append (prepared_append hids hkeys) (fun id => rejected_append hids hkeys)
      (positive_valid fun e he => mem_prepared he) (positive_valid fun e he => mem_prepared he) hfits⟩

/-- An inbound movement of five units. -/
def inboundOf (id movement : String) : TelemetryRow where
  id := .str id
  timestamp := .aware (midnight 4)
  service := .str "api"
  eventType := .str "inbound_order_created"
  tags := .dict [("warehouse", .str "LA"), ("client_id", .str "acme"), ("movement_id", .str movement),
    ("quantity", .int 5)]

/-- Two movements, one in each part, count ten units together. -/
theorem transform_additive_movements :
    ∃ r r' both, transformWeeklyPerformance (fun _ => none)
      [inboundOf "00000000-0000-4000-8000-000000000001" "7"] ⟨fun _ => none, true⟩ none = .ok r ∧
      transformWeeklyPerformance (fun _ => none) [inboundOf "00000000-0000-4000-8000-000000000002" "8"]
      ⟨fun _ => none, true⟩ none = .ok r' ∧ transformWeeklyPerformance (fun _ => none)
      ([inboundOf "00000000-0000-4000-8000-000000000001" "7"] ++
        [inboundOf "00000000-0000-4000-8000-000000000002" "8"]) ⟨fun _ => none, true⟩ none = .ok both ∧
      both.aggregates = addAggregates r.aggregates r'.aggregates ∧
      (∀ id, id ∈ both.quality.acceptedEventIds ↔ id ∈ r.quality.acceptedEventIds ∨
        id ∈ r'.quality.acceptedEventIds) ∧ ∀ id, id ∈ both.quality.rejectedEventIds ↔
      id ∈ r.quality.rejectedEventIds ∨ id ∈ r'.quality.rejectedEventIds := by
  refine transform_additive _ _ _ _ _ ?_ ?_ (overflowed_eq_nil_iff.1 ?_)
  · unfold IdsApart
    decide +kernel
  · unfold MovementsApart
    decide +kernel
  · decide +kernel

end TrackFlow.Pipelines
