import TrackFlow.Python.Raising
import TrackFlow.Pipelines.Publication

/-!
# What the weekly transformation computes

- `validateEvent_ok`: what is known of a validated event;
- `transform_eq`: the transformation returns on every input, with four contributions of the same shape
  (`contribution`), whose counters are sums of the amounts of the counted events (`contribution_get`);
- `composed_gate_iff`: the gate is open on its report exactly when preparation raised nothing that
  blocks, no order is contradicted and no counter overflows;
- `composed_rejected_iff`: with the gate open, an event is rejected exactly for want of an order record.
-/

namespace TrackFlow.Pipelines

open TrackFlow.Python

variable {fromisoformat : String → Option PyValue} {events : List TelemetryRow} {row : TelemetryRow}
  {e : ValidatedEvent}

/-! ## Validated events -/

/-- What `_validate_event` established about the event it built from a row. -/
structure ValidEvent (fromisoformat : String → Option PyValue) (row : TelemetryRow)
    (e : ValidatedEvent) : Prop where
  id : rowId row.id = .ok e.rowId
  eventType : row.eventType = .str e.eventType.text
  tags : e.tags = row.tags
  dict : ∃ kvs, row.tags = .dict kvs
  timestamp : parseUtcTimestamp fromisoformat row.timestamp = .ok e.timestamp
  weekStart : e.weekStart = isoWeekStart e.timestamp
  warehouse : canonicalWarehouse (row.tags.get "warehouse") = .ok e.warehouse
  clientId : row.tags.get "client_id" = .str e.clientId
  identity : checkIdentity row.tags e.eventType = .ok ()

theorem nonBlank_ok {message s : String} {v : PyValue} (h : nonBlank message v = .ok s) : v = .str s := by
  unfold nonBlank at h
  split at h
  · split at h
    · cases h
    · rw [Except.ok.inj h]
  · cases h

theorem officialEventType_ok {v : PyValue} {t : EventType} (h : officialEventType v = .ok t) :
    v = .str t.text := by
  unfold officialEventType at h
  split at h
  · split at h
    · rename_i he
      cases h
      rw [EventType.ofText_eq_some he]
    · cases h
  all_goals cases h

theorem validateEvent_ok (h : validateEvent fromisoformat row = .ok e) :
    ValidEvent fromisoformat row e := by
  unfold validateEvent at h
  obtain ⟨id, hid, h⟩ := bind_ok h
  obtain ⟨t, ht, h⟩ := bind_ok h
  by_cases hs : row.service.Eq (.str "api")
  · simp only [hs, not_true_eq_false, if_false] at h
    split at h
    · rename_i kvs htags
      obtain ⟨ts, hts, h⟩ := bind_ok h
      obtain ⟨wh, hwh, h⟩ := bind_ok h
      obtain ⟨cl, hcl, h⟩ := bind_ok h
      obtain ⟨_, hident, h⟩ := bind_ok h
      obtain ⟨-, -, h⟩ := bind_ok h
      cases h
      exact ⟨hid, officialEventType_ok ht, rfl, ⟨kvs, htags⟩, hts, rfl, hwh, nonBlank_ok hcl, hident⟩
    · cases h
  · simp only [hs, not_false_eq_true, if_true] at h
    cases h

/-- A validated event has the identity that its type needs. -/
theorem ValidEvent.movementKey (h : ValidEvent fromisoformat row e) :
    ∃ identity, e.tags.get e.eventType.identityField = .str identity ∧
      e.movementKey = some (e.eventType, identity) := by
  have hget : ∃ identity, e.tags.get e.eventType.identityField = .str identity := by
    have hident := h.identity
    rw [h.tags]
    cases ht : e.eventType <;> rw [ht] at hident <;> simp only [checkIdentity] at hident
    · obtain ⟨s, hs, -⟩ := bind_ok hident
      exact ⟨s, nonBlank_ok hs⟩
    · unfold uuid4Text at hident
      split at hident
      · rename_i s hs
        exact ⟨s, hs⟩
      · cases hident
    · obtain ⟨s, hs, -⟩ := bind_ok hident
      exact ⟨s, nonBlank_ok hs⟩
    · obtain ⟨_, hu, -⟩ := bind_ok hident
      unfold uuid4Text at hu
      split at hu
      · rename_i s hs
        exact ⟨s, hs⟩
      · cases hu
  obtain ⟨i, hi⟩ := hget
  exact ⟨i, hi, by simp only [ValidatedEvent.movementKey, hi]⟩

/-- The quantity of an inbound event. -/
def ValidatedEvent.quantity (e : ValidatedEvent) : Int :=
  match e.tags.get "quantity" with
  | .int z => z
  | _ => 0

theorem integerQuantity_ok {allowZero : Bool} {v : PyValue} {q : Int}
    (h : integerQuantity allowZero v = .ok q) :
    v = .int q ∧ (if allowZero then 0 else 1) ≤ q := by
  unfold integerQuantity at h
  split at h
  · rename_i z
    by_cases hz : z < if allowZero then 0 else 1
    · rw [if_pos hz] at h
      cases h
    · rw [if_neg hz] at h
      cases h
      exact ⟨rfl, not_lt.1 hz⟩
  · cases h

theorem ValidEvent.quantity (h : ValidEvent fromisoformat row e) (ht : e.eventType = .inboundOrderCreated) :
    integerQuantity false (e.tags.get "quantity") = .ok e.quantity ∧ 0 < e.quantity := by
  have hident := h.identity
  rw [ht] at hident
  obtain ⟨_, -, hident⟩ := bind_ok hident
  obtain ⟨q, hq, -⟩ := bind_ok hident
  rw [← h.tags] at hq
  obtain ⟨hv, hle⟩ := integerQuantity_ok hq
  have hqe : e.quantity = q := by simp only [ValidatedEvent.quantity, hv]
  simp only [Bool.false_eq_true, if_false] at hle
  exact ⟨by rw [hqe]; exact hq, by omega⟩

/-! ## Preparation -/

variable {evidence : WeekEvidence}

theorem mem_validated {rows : List TelemetryRow} (h : e ∈ validated fromisoformat rows) :
    ∃ row ∈ rows, ValidEvent fromisoformat row e := by
  obtain ⟨row, hrow, he⟩ := List.mem_filterMap.1 h
  cases hv : validateEvent fromisoformat row with
  | error m => rw [hv] at he; cases he
  | ok e' =>
    rw [hv] at he
    cases he
    exact ⟨row, hrow, validateEvent_ok hv⟩

/-- The prepared events are validated events, at most one for each movement. -/
theorem mem_movementGroup {key : MovementKey} {es : List ValidatedEvent} :
    e ∈ movementGroup es key ↔ e ∈ es ∧ e.movementKey = some key := by
  simp [movementGroup]

theorem mem_movementKeys {key : MovementKey} {es : List ValidatedEvent} :
    key ∈ movementKeys es ↔ ∃ e ∈ es, e.movementKey = some key := by
  simp [movementKeys]

/-- The events that preparation hands on, before they are sorted, when every event has a movement. -/
def representatives (evidence : WeekEvidence) (es : List ValidatedEvent) : List ValidatedEvent :=
  ((movementKeys es).filter fun key => !conflicting evidence es key).filterMap fun key =>
    (movementGroup es key).head?

theorem prepared_events : (prepareWeeklyEvents fromisoformat events evidence).events.Perm
    (representatives evidence (validated fromisoformat (uniqueRows fromisoformat events))) := by
  have hnone : (validated fromisoformat (uniqueRows fromisoformat events)).filter
      (fun e => e.movementKey = none) = [] := by
    rw [List.filter_eq_nil_iff]
    intro e he
    obtain ⟨row, -, hv⟩ := mem_validated he
    obtain ⟨i, -, hk⟩ := hv.movementKey
    simp [hk]
  unfold prepareWeeklyEvents
  refine (perm_sortedBy _ _).trans ?_
  rw [hnone]
  rfl

theorem mem_representatives {es : List ValidatedEvent} (h : e ∈ representatives evidence es) : e ∈ es := by
  obtain ⟨key, -, hk⟩ := List.mem_filterMap.1 h
  exact (mem_movementGroup.1 (List.mem_of_mem_head? hk)).1

theorem mem_prepared (h : e ∈ (prepareWeeklyEvents fromisoformat events evidence).events) :
    ∃ row, ValidEvent fromisoformat row e := by
  obtain ⟨row, -, hv⟩ := mem_validated (mem_representatives (prepared_events.mem_iff.1 h))
  exact ⟨row, hv⟩

/-! ## Counters -/

variable {p : PreparedWeeklyEvents} {orders : CommercialOrderEvidence}

/-- What an event adds to its counter. -/
def ValidatedEvent.amount (e : ValidatedEvent) : Int :=
  if e.eventType = .inboundOrderCreated then e.quantity else 1

/-- The rows of the counter of a list of events. -/
def rowsOf (es : List ValidatedEvent) : List MetricRow := es.map fun e => (e.key, e.amount, e.rowId)

/-- The events of a type that are counted. -/
def counted (orders : CommercialOrderEvidence) (es : List ValidatedEvent) (t : EventType) :
    List ValidatedEvent :=
  es.filter fun e => e.eventType = t && (t ≠ .outboundOrderCreated || (outboundIssue orders e).isNone)

/-- The counter of a type for a key. -/
def counter (orders : CommercialOrderEvidence) (es : List ValidatedEvent) (t : EventType)
    (key : AggregateKey) : Int :=
  (((counted orders es t).filter fun e => e.key = key).map ValidatedEvent.amount).sum

theorem mapM_ok {ε α β : Type} {f : α → Except ε β} {g : α → β} :
    ∀ {l : List α}, (∀ a ∈ l, f a = .ok (g a)) →
    l.mapM f = .ok (l.map g)
  | [], _ => rfl
  | a :: l, h => by
    have ih := mapM_ok fun b hb => h b (List.mem_cons_of_mem a hb)
    rw [List.mapM_cons, h a (by simp), ih]
    rfl

theorem inbound_eq (orders : CommercialOrderEvidence)
    (hp : ∀ e ∈ p.events, ∃ row, ValidEvent fromisoformat row e) :
    calculateInboundVolume p =
      .ok (groupMetricValues (rowsOf (counted orders p.events .inboundOrderCreated))
        ((counted orders p.events .inboundOrderCreated).map ValidatedEvent.rowId)) := by
  have hof : p.ofType .inboundOrderCreated = counted orders p.events .inboundOrderCreated := by
    simp [PreparedWeeklyEvents.ofType, counted]
  unfold calculateInboundVolume
  rw [hof]
  have hrows : ∀ e ∈ counted orders p.events .inboundOrderCreated,
      (do
        let quantity ← integerQuantity false (e.tags.get "quantity")
        return ((e.key, quantity, e.rowId) : MetricRow)) = Except.ok (e.key, e.amount, e.rowId) := by
    intro e he
    simp only [counted, List.mem_filter, Bool.and_eq_true, decide_eq_true_eq] at he
    obtain ⟨row, hv⟩ := hp e he.1
    rw [(hv.quantity he.2.1).1, ValidatedEvent.amount, if_pos he.2.1]
    rfl
  dsimp only
  rw [mapM_ok hrows]
  rfl

theorem countRows_eq {es : List ValidatedEvent} {t : EventType} (ht : t ≠ .inboundOrderCreated) :
    countRows (counted orders es t) = rowsOf (counted orders es t) := by
  refine List.map_congr_left fun e he => ?_
  simp only [counted, List.mem_filter, Bool.and_eq_true, decide_eq_true_eq] at he
  rw [ValidatedEvent.amount, if_neg (by rw [he.2.1]; exact ht)]

theorem metricTotal_rowsOf (es : List ValidatedEvent) (key : AggregateKey) :
    metricTotal (rowsOf es) key = ((es.filter fun e => e.key = key).map ValidatedEvent.amount).sum := by
  simp only [metricTotal, rowsOf, List.filter_map, List.map_map]
  rfl

theorem metricTotal_eq_zero {rows : List MetricRow} {key : AggregateKey} (h : key ∉ rows.map Prod.fst) :
    metricTotal rows key = 0 := by
  have hnil : rows.filter (fun r => decide (r.1 = key)) = [] := by
    rw [List.filter_eq_nil_iff]
    intro row hrow
    have : row.1 ≠ key := fun e => h (e ▸ List.mem_map_of_mem hrow)
    simpa using this
  simp only [metricTotal, hnil, List.map_nil, List.sum_nil]

/-- A counter is the sum of its rows. -/
theorem get_of_values {c : MetricContribution} {rows : List MetricRow} (h : c.values = metricValues rows)
    (key : AggregateKey) : (c.get key).1 = metricTotal rows key := by
  unfold MetricContribution.get
  rw [h]
  cases hf : (metricValues rows).find? fun v => v.1 = key with
  | some v =>
    have hv := List.find?_some hf
    obtain ⟨key', -, rfl⟩ := List.mem_map.1 (List.mem_of_find?_eq_some hf)
    have hk : key' = key := by simpa using hv
    subst hk
    rfl
  | none =>
    have hnone := List.find?_eq_none.1 hf
    have hkey : key ∉ rows.map Prod.fst := by
      intro hmem
      have hk : key ∈ metricKeys rows := by simpa [metricKeys] using hmem
      simpa using hnone _ (List.mem_map_of_mem hk)
    exact (metricTotal_eq_zero hkey).symm

/-- The contribution of a type. -/
def contribution (orders : CommercialOrderEvidence) (p : PreparedWeeklyEvents) :
    EventType → MetricContribution
  | .inboundOrderCreated => groupMetricValues (rowsOf (counted orders p.events .inboundOrderCreated))
      ((counted orders p.events .inboundOrderCreated).map ValidatedEvent.rowId)
  | .outboundOrderCreated => calculateOutboundThroughput p orders
  | .stockThresholdTriggered => calculateStockoutFrequency p
  | .inventoryDiscrepancyDetected => calculateDiscrepancyEvents p

/-- The transformation returns on every input. -/
theorem transform_eq : transformWeeklyPerformance fromisoformat events orders evidence =
    .ok (composeWeeklyPerformance (prepareWeeklyEvents fromisoformat events evidence)
      (contribution orders (prepareWeeklyEvents fromisoformat events evidence) .inboundOrderCreated)
      (contribution orders (prepareWeeklyEvents fromisoformat events evidence) .outboundOrderCreated)
      (contribution orders (prepareWeeklyEvents fromisoformat events evidence) .stockThresholdTriggered)
      (contribution orders (prepareWeeklyEvents fromisoformat events evidence)
        .inventoryDiscrepancyDetected)) := by
  unfold transformWeeklyPerformance
  dsimp only
  rw [inbound_eq orders fun e he => mem_prepared he]
  rfl

theorem contribution_values (t : EventType) :
    (contribution orders p t).values = metricValues (rowsOf (counted orders p.events t)) := by
  have hsplit : ∀ t' : EventType, t' ≠ .outboundOrderCreated →
      p.ofType t' = counted orders p.events t' := by
    intro t' ht'
    simp [PreparedWeeklyEvents.ofType, counted, ht']
  cases t with
  | inboundOrderCreated => rfl
  | outboundOrderCreated =>
    have hc : (p.ofType .outboundOrderCreated).filter (fun e => (outboundIssue orders e).isNone) =
        counted orders p.events .outboundOrderCreated := by
      simp [PreparedWeeklyEvents.ofType, counted, List.filter_filter, Bool.and_comm]
    rw [← countRows_eq (by decide), ← hc]
    rfl
  | stockThresholdTriggered =>
    rw [← countRows_eq (by decide), ← hsplit _ (by decide)]
    rfl
  | inventoryDiscrepancyDetected =>
    rw [← countRows_eq (by decide), ← hsplit _ (by decide)]
    rfl

theorem contribution_get (t : EventType) (key : AggregateKey) :
    ((contribution orders p t).get key).1 = counter orders p.events t key := by
  rw [get_of_values (contribution_values t), metricTotal_rowsOf]
  rfl

theorem contribution_keys (t : EventType) (key : AggregateKey) :
    key ∈ (contribution orders p t).values.map Prod.fst ↔ ∃ e ∈ counted orders p.events t, e.key = key := by
  rw [contribution_values]
  simp [metricValues, metricKeys, rowsOf]

/-- The four contributions in their order. -/
def contributions (orders : CommercialOrderEvidence) (p : PreparedWeeklyEvents) : List MetricContribution :=
  [contribution orders p .inboundOrderCreated, contribution orders p .outboundOrderCreated,
    contribution orders p .stockThresholdTriggered, contribution orders p .inventoryDiscrepancyDetected]

theorem mem_contributionKeys {key : AggregateKey} :
    key ∈ contributionKeys (contributions orders p) ↔
      ∃ t, ∃ e ∈ counted orders p.events t, e.key = key := by
  simp only [contributionKeys, mem_sortedSet, List.mem_flatMap]
  constructor
  · rintro ⟨c, hc, hk⟩
    simp only [contributions, List.mem_cons, List.not_mem_nil, or_false] at hc
    rcases hc with rfl | rfl | rfl | rfl <;> exact ⟨_, (contribution_keys _ _).1 hk⟩
  · rintro ⟨t, ht⟩
    refine ⟨contribution orders p t, ?_, (contribution_keys t key).2 ht⟩
    cases t <;> simp [contributions]

theorem counter_eq_zero {es : List ValidatedEvent} {t : EventType} {key : AggregateKey}
    (h : ∀ e ∈ counted orders es t, e.key ≠ key) : counter orders es t key = 0 := by
  have hnil : (counted orders es t).filter (fun e => decide (e.key = key)) = [] := by
    rw [List.filter_eq_nil_iff]
    intro e he
    simpa using h e he
  simp only [counter, hnil, List.map_nil, List.sum_nil]

/-- Nothing overflows when every counter fits. -/
theorem overflowed_eq_nil_iff :
    overflowed (contributions orders p) = [] ↔
      ∀ t key, overflows (counter orders p.events t key) = false := by
  have hkey : ∀ key, overflowing (contributions orders p) key = [] ↔
      ∀ t, overflows (counter orders p.events t key) = false := by
    intro key
    simp only [overflowing, contributions, integerCountFields, List.zip_cons_cons, List.zip_nil_right,
      List.map_eq_nil_iff, List.filter_eq_nil_iff, List.forall_mem_cons, contribution_get, Bool.not_eq_true]
    constructor
    · rintro ⟨h₁, h₂, h₃, h₄, -⟩ t
      cases t <;> assumption
    · exact fun h => ⟨h _, h _, h _, h _, by simp⟩
  simp only [overflowed, List.flatMap_eq_nil_iff, List.map_eq_nil_iff, hkey]
  constructor
  · intro h t key
    by_cases hk : key ∈ contributionKeys (contributions orders p)
    · exact h key hk t
    · rw [counter_eq_zero fun e he hek => hk (mem_contributionKeys.2 ⟨t, e, he, hek⟩)]
      decide
  · exact fun h key _ t => h t key

/-! ## The gate -/

/-- The report once the coverage diagnostics are resolved. -/
def QualityReport.covered (q : QualityReport) : QualityReport := { q with coveragePending := [] }

theorem guard_eq_nil {α β : Type} [DecidableEq α] {l : List α} {x : β} :
    (if l = [] then [] else [x]) = [] ↔ l = [] := by
  by_cases h : l = [] <;> simp [h]

theorem gate_open_iff (q : QualityReport) : blockingQualityIssues q.covered = [] ↔
    (∀ i ∈ q.issues, i.code ∉ blockingQualityCodes) ∧ q.conflictMovementKeys = [] ∧
      q.crossWeekVerificationPending = [] := by
  have hcov : q.covered.coveragePending = [] := rfl
  simp only [blockingQualityIssues, List.append_eq_nil_iff, guard_eq_nil, List.map_eq_nil_iff,
      List.filter_eq_nil_iff,
    decide_eq_true_eq, hcov, if_true, true_and, and_assoc]
  rfl

/-- The result of the composition, with its parts named. -/
def composed (orders : CommercialOrderEvidence) (p : PreparedWeeklyEvents) : WeeklyTransformationResult :=
  composeWeeklyPerformance p (contribution orders p .inboundOrderCreated)
    (contribution orders p .outboundOrderCreated) (contribution orders p .stockThresholdTriggered)
    (contribution orders p .inventoryDiscrepancyDetected)

/-- The gate knows none of the codes of outbound issues. -/
theorem outbound_codes : "commercial_order_missing" ∉ blockingQualityCodes ∧
    "outbound_order_verification_unavailable" ∉ blockingQualityCodes ∧
    "commercial_order_identity_conflict" ∉ blockingQualityCodes := by decide

/-- What an outbound issue says: the order is not verified, or it is contradicted. -/
theorem outboundIssue_cases {i : QualityIssue} (h : outboundIssue orders e = some i) :
    i.code ∉ blockingQualityCodes ∧ (orderRecord orders e = none ∨ contradicted orders e = true) := by
  unfold outboundIssue at h
  split at h
  · rename_i hr
    cases h
    refine ⟨?_, Or.inl hr⟩
    split
    · exact outbound_codes.1
    · exact outbound_codes.2.1
  · rename_i record hr
    by_cases hi : identityConflicts record e = []
    · rw [if_pos hi] at h
      cases h
    · rw [if_neg hi] at h
      cases h
      exact ⟨outbound_codes.2.2, Or.inr (by simp [contradicted, hr, hi])⟩

theorem contribution_issues (t : EventType) : (contribution orders p t).issues =
    if t = .outboundOrderCreated then (p.ofType .outboundOrderCreated).filterMap (outboundIssue orders)
      else [] := by
  cases t <;> rfl

theorem contribution_conflicts (t : EventType) : (contribution orders p t).conflictMovementKeys =
    if t = .outboundOrderCreated then
      sortedBy movementLe (((p.ofType .outboundOrderCreated).filter (contradicted orders)).filterMap
        ValidatedEvent.movementKey) else [] := by
  cases t <;> rfl

/-- The gate is open exactly when preparation raised nothing that blocks, no order is contradicted,
and no counter overflows. -/
theorem composed_gate_iff : blockingQualityIssues (composed orders p).quality.covered = [] ↔
    ((∀ i ∈ p.issues, i.code ∉ blockingQualityCodes) ∧ p.conflictMovementKeys = [] ∧
      p.crossWeekVerificationPending = []) ∧
    (∀ e ∈ p.ofType .outboundOrderCreated, contradicted orders e = true → e.movementKey = none) ∧
    ∀ t key, overflows (counter orders p.events t key) = false := by
  rw [gate_open_iff, ← overflowed_eq_nil_iff]
  have hissues : (∀ i ∈ (composed orders p).quality.issues, i.code ∉ blockingQualityCodes) ↔
      (∀ i ∈ p.issues, i.code ∉ blockingQualityCodes) ∧ overflowed (contributions orders p) = [] := by
    have hmem : ∀ i, i ∈ (composed orders p).quality.issues ↔ i ∈ p.issues ∨
        (i ∈ (p.ofType .outboundOrderCreated).filterMap (outboundIssue orders)) ∨
        i ∈ (overflowed (contributions orders p)).map fun o => overflowIssue o.1 o.2.1 o.2.2 := by
      intro i
      simp [composed, composeWeeklyPerformance, contribution_issues, contributions]
    constructor
    · intro h
      refine ⟨fun i hi => h i ((hmem i).2 (Or.inl hi)), ?_⟩
      rw [List.eq_nil_iff_forall_not_mem]
      intro o ho
      have hcode : "aggregate_integer_overflow" ∈ blockingQualityCodes := by decide
      exact h _ ((hmem _).2 (Or.inr (Or.inr (List.mem_map_of_mem ho)))) hcode
    · rintro ⟨hp, ho⟩ i hi
      rcases (hmem i).1 hi with hi | hi | hi
      · exact hp i hi
      · obtain ⟨e, -, he⟩ := List.mem_filterMap.1 hi
        exact (outboundIssue_cases he).1
      · rw [ho] at hi
        simp at hi
  have hconf : (composed orders p).quality.conflictMovementKeys = [] ↔ p.conflictMovementKeys = [] ∧
      ∀ e ∈ p.ofType .outboundOrderCreated, contradicted orders e = true → e.movementKey = none := by
    simp [composed, composeWeeklyPerformance, contribution_conflicts]
  have hpend : (composed orders p).quality.crossWeekVerificationPending =
      p.crossWeekVerificationPending := rfl
  rw [hissues, hconf, hpend]
  constructor
  · rintro ⟨⟨hi, ho⟩, ⟨hk, hc⟩, hw⟩
    exact ⟨⟨hi, hk, hw⟩, hc, ho⟩
  · rintro ⟨⟨hi, hk, hw⟩, hc, ho⟩
    exact ⟨⟨hi, ho⟩, ⟨hk, hc⟩, hw⟩

/-- What the gate does not see: with the gate open, an event is rejected exactly for want of an
order record. -/
theorem composed_rejected_iff (hopen : blockingQualityIssues (composed orders p).quality.covered = [])
    (hp : p.rejectedEventIds = []) (hk : ∀ e ∈ p.events, e.movementKey ≠ none) :
    (composed orders p).quality.rejectedEventIds = [] ↔
      ∀ e ∈ p.ofType .outboundOrderCreated, orderRecord orders e ≠ none := by
  obtain ⟨-, hcon, hover⟩ := composed_gate_iff.1 hopen
  rw [← overflowed_eq_nil_iff] at hover
  have hrej : (composed orders p).quality.rejectedEventIds = [] ↔
      ∀ e ∈ p.ofType .outboundOrderCreated, outboundIssue orders e = none := by
    have hcontr : ∀ t, (contribution orders p t).rejectedEventIds = if t = .outboundOrderCreated then
        sortedBy textLe (((p.ofType .outboundOrderCreated).filter fun e =>
            (outboundIssue orders e).isSome).map
          ValidatedEvent.rowId) else [] := by
      intro t
      cases t <;> rfl
    have hover' : overflowed [contribution orders p .inboundOrderCreated,
        contribution orders p .outboundOrderCreated,
        contribution orders p .stockThresholdTriggered,
          contribution orders p .inventoryDiscrepancyDetected] = [] := hover
    simp [composed, composeWeeklyPerformance, hcontr, hp, hover']
  rw [hrej]
  refine forall₂_congr fun e he => ?_
  have hnc : contradicted orders e ≠ true := by
    intro hc
    exact hk e (List.mem_of_mem_filter he) (hcon e he hc)
  constructor
  · intro hi hr
    simp [outboundIssue, hr] at hi
  · intro hr
    by_contra hi
    obtain ⟨i, hi⟩ := Option.ne_none_iff_exists'.1 hi
    rcases (outboundIssue_cases hi).2 with h | h
    · exact hr h
    · exact hnc h

end TrackFlow.Pipelines
