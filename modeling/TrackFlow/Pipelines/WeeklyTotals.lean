import TrackFlow.Python.Sorting
import TrackFlow.Pipelines.QualityGate

/-!
# Weekly totals

The aggregates of a week as a function of the events that count (`weeklyTotals`).

- `composed_aggregates`: what the transformation composes are the totals of the accepted events, or
  nothing when a counter overflows;
- `weeklyTotals_congr`: only the measures of the events matter;
- `weeklyTotals_filter`, `reported_filter`: an event that is left out is missed.
-/

namespace TrackFlow.Pipelines

open TrackFlow.Python

variable {fromisoformat : String → Option PyValue} {es es' : List ValidatedEvent}
  {orders : CommercialOrderEvidence} {p : PreparedWeeklyEvents} {t : EventType} {key : AggregateKey}
  {e : ValidatedEvent}

/-! ## Totals -/

/-- What the counters see of an event. -/
def ValidatedEvent.measure (e : ValidatedEvent) : EventType × AggregateKey × Int :=
  (e.eventType, e.key, e.amount)

/-- What the events of a type add up to for a key. -/
def total (es : List ValidatedEvent) (t : EventType) (key : AggregateKey) : Int :=
  ((es.filter fun e => e.eventType = t && e.key = key).map ValidatedEvent.amount).sum

/-- The totals of a key. -/
def totalsOf (es : List ValidatedEvent) (key : AggregateKey) : WeeklyAggregate where
  warehouse := key.warehouse
  clientId := key.clientId
  weekStart := key.weekStart
  inboundUnitsCount := total es .inboundOrderCreated key
  outboundOrdersCount := total es .outboundOrderCreated key
  stockoutEventsCount := total es .stockThresholdTriggered key
  discrepancyEventsCount := total es .inventoryDiscrepancyDetected key
  discrepancyRate := discrepancyRate (total es .inventoryDiscrepancyDetected key)
    (total es .outboundOrderCreated key)

/-- The totals of all keys that occur. -/
def weeklyTotals (es : List ValidatedEvent) : List WeeklyAggregate :=
  (sortedSet AggregateKey.le (es.map ValidatedEvent.key)).map (totalsOf es)

/-- Some counter is too large for `integer`. -/
def Overflows (es : List ValidatedEvent) : Prop := ∃ e ∈ es, 2147483647 < total es e.eventType e.key

instance : Decidable (Overflows es) :=
  inferInstanceAs (Decidable (∃ e ∈ es, 2147483647 < total es e.eventType e.key))

/-- Every event adds something to its counter. -/
def Positive (es : List ValidatedEvent) : Prop := ∀ e ∈ es, 0 < e.amount

/-- The events that are not turned away for want of an order. -/
def accepted (orders : CommercialOrderEvidence) (es : List ValidatedEvent) : List ValidatedEvent :=
  es.filter fun e => e.eventType ≠ .outboundOrderCreated || (outboundIssue orders e).isNone

theorem linear_aggregateKey : LinearLe AggregateKey.le := by
  have hpair : LinearLe (pairLe textLe (pairLe textLe fun x y : Int => decide (x ≤ y))) :=
    linear_textLe.pair (linear_textLe.pair LinearLe.ofOrder)
  refine hpair.comap (f := fun k : AggregateKey => (k.warehouse, k.clientId, k.weekStart)) ?_
  rintro ⟨w, c, s⟩ ⟨w', c', s'⟩ h
  simpa using h

theorem overflows_iff : Overflows es ↔ ∃ t key, 2147483647 < total es t key := by
  constructor
  · rintro ⟨e, -, hlt⟩
    exact ⟨_, _, hlt⟩
  · rintro ⟨t, key, hlt⟩
    by_contra hnone
    have hnil : (es.filter fun e => e.eventType = t && e.key = key) = [] := by
      refine List.filter_eq_nil_iff.2 fun e he hmatch => hnone ⟨e, he, ?_⟩
      simp only [Bool.and_eq_true, decide_eq_true_eq] at hmatch
      rw [hmatch.1, hmatch.2]
      exact hlt
    unfold total at hlt
    rw [hnil] at hlt
    simp at hlt

/-! ## What is composed -/

theorem counted_eq : counted orders es t = (accepted orders es).filter fun e => e.eventType = t := by
  unfold counted accepted
  rw [List.filter_filter]
  refine List.filter_congr fun e _ => ?_
  by_cases ht : e.eventType = t
  · subst ht
    simp
  · simp [ht]

theorem counter_eq_total : counter orders es t key = total (accepted orders es) t key := by
  unfold counter total
  rw [counted_eq, List.filter_filter]
  simp only [Bool.and_comm]

theorem positive_valid (h : ∀ e ∈ es, ∃ row, ValidEvent fromisoformat row e) : Positive es := by
  intro e he
  obtain ⟨row, hv⟩ := h e he
  unfold ValidatedEvent.amount
  split
  · exact (hv.quantity ‹_›).2
  · decide

theorem Positive.accepted (h : Positive es) : Positive (accepted orders es) :=
  fun e he => h e (List.mem_of_mem_filter he)

theorem total_nonneg (h : Positive es) : 0 ≤ total es t key := by
  refine List.sum_nonneg fun x hx => ?_
  obtain ⟨e, he, rfl⟩ := List.mem_map.1 hx
  exact le_of_lt (h e (List.mem_of_mem_filter he))

/-- The aggregates are the totals of the accepted events, unless a counter overflows. -/
theorem composed_aggregates (h : Positive p.events) :
    (composed orders p).aggregates =
      if Overflows (accepted orders p.events) then [] else weeklyTotals (accepted orders p.events) := by
  have hover : overflowed (contributions orders p) = [] ↔ ¬Overflows (accepted orders p.events) := by
    rw [overflowed_eq_nil_iff]
    simp only [counter_eq_total, overflows_iff, not_exists, not_lt]
    refine forall₂_congr fun t key => ?_
    have hle : 0 ≤ total (accepted orders p.events) t key := total_nonneg h.accepted
    simp [overflows, hle]
  have hkeys : contributionKeys (contributions orders p) =
      sortedSet AggregateKey.le ((accepted orders p.events).map ValidatedEvent.key) := by
    refine linear_aggregateKey.sortedSet_congr fun key => ?_
    have hmem : key ∈ contributionKeys (contributions orders p) ↔
        ∃ t, ∃ e ∈ counted orders p.events t, e.key = key :=
      mem_contributionKeys
    simp only [contributionKeys, mem_sortedSet] at hmem
    rw [hmem, List.mem_map]
    simp only [counted_eq, List.mem_filter, decide_eq_true_eq]
    constructor
    · rintro ⟨t, e, ⟨he, -⟩, hk⟩
      exact ⟨e, he, hk⟩
    · rintro ⟨e, he, hk⟩
      exact ⟨e.eventType, e, ⟨he, rfl⟩, hk⟩
  have hagg : ∀ key, aggregateOf (contribution orders p .inboundOrderCreated)
      (contribution orders p .outboundOrderCreated)
      (contribution orders p .stockThresholdTriggered)
        (contribution orders p .inventoryDiscrepancyDetected) key =
        totalsOf (accepted orders p.events) key := by
    intro key
    simp only [aggregateOf, totalsOf, contribution_get, counter_eq_total]
  change (if overflowed (contributions orders p) = [] then
      (contributionKeys (contributions orders p)).map (aggregateOf
    (contribution orders p .inboundOrderCreated) (contribution orders p .outboundOrderCreated)
    (contribution orders p .stockThresholdTriggered)
      (contribution orders p .inventoryDiscrepancyDetected)) else []) = _
  by_cases hno : Overflows (accepted orders p.events)
  · rw [if_pos hno, if_neg fun hnil => hover.1 hnil hno]
  · rw [if_neg hno, if_pos (hover.2 hno), hkeys, weeklyTotals]
    exact List.map_congr_left fun key _ => hagg key

/-! ## What the totals depend on -/

theorem total_measure (es : List ValidatedEvent) (t : EventType) (key : AggregateKey) : total es t key =
    (((es.map ValidatedEvent.measure).filter fun m => m.1 = t && m.2.1 = key).map fun m => m.2.2).sum := by
  unfold total
  rw [List.filter_map, List.map_map]
  rfl

/-- Only the measures of the events matter, in any order. -/
theorem total_congr (h : (es.map ValidatedEvent.measure).Perm (es'.map ValidatedEvent.measure)) :
    total es t key = total es' t key := by
  rw [total_measure, total_measure]
  exact ((h.filter _).map _).sum_eq

theorem keys_congr (h : (es.map ValidatedEvent.measure).Perm (es'.map ValidatedEvent.measure)) :
    (es.map ValidatedEvent.key).Perm (es'.map ValidatedEvent.key) := by
  have hkeys := h.map fun m => m.2.1
  rw [List.map_map, List.map_map] at hkeys
  exact hkeys

theorem weeklyTotals_congr (h : (es.map ValidatedEvent.measure).Perm (es'.map ValidatedEvent.measure)) :
    weeklyTotals es = weeklyTotals es' := by
  have htotals : totalsOf es = totalsOf es' := by
    funext key
    simp only [totalsOf, total_congr h]
  unfold weeklyTotals
  rw [htotals, linear_aggregateKey.sortedSet_congr fun key => (keys_congr h).mem_iff]

theorem overflows_congr (h : (es.map ValidatedEvent.measure).Perm (es'.map ValidatedEvent.measure)) :
    Overflows es ↔ Overflows es' := by
  rw [overflows_iff, overflows_iff]
  simp only [total_congr h]

/-! ## Fewer events -/

/-- A total, with what is left out counted apart. -/
theorem total_filter (q : ValidatedEvent → Bool) (es : List ValidatedEvent) (t : EventType)
    (key : AggregateKey) :
    total es t key = total (es.filter q) t key + total (es.filter fun e => !q e) t key := by
  have hperm := (List.filter_append_perm q es).map ValidatedEvent.measure
  have happend : ∀ l l' : List ValidatedEvent, total (l ++ l') t key = total l t key + total l' t key := by
    intro l l'
    simp [total]
  rw [← happend]
  exact (total_congr hperm).symm

theorem Positive.filter (h : Positive es) (q : ValidatedEvent → Bool) : Positive (es.filter q) :=
  fun e he => h e (List.mem_of_mem_filter he)

theorem overflows_of_filter (h : Positive es) {q : ValidatedEvent → Bool}
    (hf : Overflows (es.filter q)) : Overflows es := by
  obtain ⟨t, key, hlt⟩ := overflows_iff.1 hf
  have hrest : 0 ≤ total (es.filter fun e => !q e) t key := total_nonneg (h.filter _)
  exact overflows_iff.2 ⟨t, key, by rw [total_filter q]; omega⟩

theorem weeklyTotals_eq_nil : weeklyTotals es = [] ↔ es = [] := by
  simp [weeklyTotals]

/-- An event that is left out is missed in the totals. -/
theorem weeklyTotals_filter (h : Positive es) (q : ValidatedEvent → Bool) :
    weeklyTotals (es.filter q) = weeklyTotals es ↔ ∀ e ∈ es, q e = true := by
  constructor
  · intro heq e he
    by_contra hq
    -- The totals of the key of `e` stand in both lists, so its counters agree.
    have hmem : totalsOf es e.key ∈ weeklyTotals (es.filter q) := by
      rw [heq]
      exact List.mem_map_of_mem (mem_sortedSet.2 (List.mem_map_of_mem he))
    obtain ⟨key, -, hkey⟩ := List.mem_map.1 hmem
    have hsame : key = e.key := by
      have hw := congrArg WeeklyAggregate.key hkey
      exact hw
    subst hsame
    have htotal : total (es.filter q) e.eventType e.key = total es e.eventType e.key := by
      cases ht : e.eventType
      · exact congrArg WeeklyAggregate.inboundUnitsCount hkey
      · exact congrArg WeeklyAggregate.outboundOrdersCount hkey
      · exact congrArg WeeklyAggregate.stockoutEventsCount hkey
      · exact congrArg WeeklyAggregate.discrepancyEventsCount hkey
    have hsplit := total_filter q es e.eventType e.key
    have hout : e ∈ es.filter fun e => !q e := List.mem_filter.2 ⟨he, by simpa using hq⟩
    have hpos : 0 < total (es.filter fun e => !q e) e.eventType e.key := by
      unfold total
      have hin : e ∈ (es.filter fun e => !q e).filter fun e' => e'.eventType = e.eventType &&
          e'.key = e.key :=
        List.mem_filter.2 ⟨hout, by simp⟩
      have hle := List.single_le_sum (l := ((es.filter fun e => !q e).filter fun e' =>
          e'.eventType = e.eventType &&
        e'.key = e.key).map ValidatedEvent.amount) (fun x hx => by
          obtain ⟨e', he', rfl⟩ := List.mem_map.1 hx
          exact le_of_lt (h e' (List.mem_of_mem_filter (List.mem_of_mem_filter he')))) _
            (List.mem_map_of_mem hin)
      have hamount := h e he
      omega
    omega
  · intro hall
    rw [List.filter_eq_self.2 hall]

/-- The totals of some of the events, which are the totals of all only if nothing is left out, or if
it does not show. -/
theorem reported_filter (h : Positive es) (q : ValidatedEvent → Bool) :
    ((if Overflows (es.filter q) then [] else weeklyTotals (es.filter q)) = if Overflows es then
        [] else weeklyTotals es) ↔
      (∀ e ∈ es, q e = true) ∨ Overflows es ∧ (Overflows (es.filter q) ∨ ∀ e ∈ es, q e = false) := by
  by_cases hall : Overflows es
  · rw [if_pos hall]
    by_cases hsome : Overflows (es.filter q)
    · rw [if_pos hsome]
      exact iff_of_true rfl (Or.inr ⟨hall, Or.inl hsome⟩)
    · rw [if_neg hsome, weeklyTotals_eq_nil, List.filter_eq_nil_iff]
      constructor
      · intro hnone
        exact Or.inr ⟨hall, Or.inr fun e he => by simpa using hnone e he⟩
      · rintro (hkept | ⟨-, hsome' | hnone⟩)
        · rw [List.filter_eq_self.2 hkept] at hsome
          exact absurd hall hsome
        · exact absurd hsome' hsome
        · exact fun e he => by simp [hnone e he]
  · rw [if_neg hall, if_neg fun hsome => hall (overflows_of_filter h hsome), weeklyTotals_filter h]
    simp [hall]

end TrackFlow.Pipelines
