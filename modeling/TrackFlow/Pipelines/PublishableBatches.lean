import TrackFlow.Pipelines.EventFates
import TrackFlow.Pipelines.Reconciliation

/-!
# The transformation and the validator of batches

What the transformation puts into an aggregate is what `validate_weekly_publication_batch` asks of
one: the warehouse is canonical and the client is named (`event_publishable`), the counters fit, and
the rate is computed alike.

- `transform_publishable`: the aggregates of a complete week raise no issue.
-/

namespace TrackFlow.Pipelines

open TrackFlow.Python

variable {fromisoformat : String → Option PyValue} {events : List TelemetryRow} {evidence : WeekEvidence}
  {orders : CommercialOrderEvidence} {es : List ValidatedEvent} {e : ValidatedEvent} {row : TelemetryRow}
  {week : Int}

/-! ## What an event brings into its key -/

/-- A key that the validator accepts. -/
structure PublishableKey (key : AggregateKey) : Prop where
  warehouse : key.warehouse = "los_angeles" ∨ key.warehouse = "zaragoza"
  client : validClientId (.str key.clientId) = .ok key.clientId
  monday : weekday key.weekStart = 0

theorem canonicalWarehouse_ok {v : PyValue} {w : String} (h : canonicalWarehouse v = .ok w) :
    w = "los_angeles" ∨ w = "zaragoza" := by
  unfold canonicalWarehouse at h
  split at h
  · unfold canonicalWarehouseText at h
    split at h
    · cases h
      assumption
    · split at h
      · rename_i hc
        cases h
        unfold canonicalTelemetryWarehouse at hc
        split at hc <;> simp_all
      · cases h
  · cases h

theorem nonBlank_idem {message s : String} {v : PyValue} (h : nonBlank message v = .ok s) :
    nonBlank message (.str s) = .ok s := by
  rw [nonBlank_ok h] at h
  exact h

/-- The client of an event was checked. -/
theorem validateEvent_client (h : validateEvent fromisoformat row = .ok e) :
    validClientId (.str e.clientId) = .ok e.clientId := by
  unfold validateEvent at h
  obtain ⟨id, -, h⟩ := bind_ok h
  obtain ⟨t, -, h⟩ := bind_ok h
  by_cases hs : row.service.Eq (.str "api")
  · simp only [hs, not_true_eq_false, if_false] at h
    split at h
    · obtain ⟨ts, -, h⟩ := bind_ok h
      obtain ⟨wh, -, h⟩ := bind_ok h
      obtain ⟨cl, hcl, h⟩ := bind_ok h
      obtain ⟨_, -, h⟩ := bind_ok h
      obtain ⟨-, -, h⟩ := bind_ok h
      cases h
      exact nonBlank_idem hcl
    · cases h
  · simp only [hs, not_false_eq_true, if_true] at h
    cases h

theorem event_publishable (he : e ∈ survivingEvents fromisoformat events) : PublishableKey e.key := by
  obtain ⟨row, -, hv⟩ := eventOf_eq_some.1 (mem_surviving.1 he)
  have hvalid := validateEvent_ok hv
  refine ⟨canonicalWarehouse_ok hvalid.warehouse, validateEvent_client hv, ?_⟩
  change weekday e.weekStart = 0
  rw [hvalid.weekStart]
  exact weekday_isoWeekStart _

/-! ## What the validator asks -/

theorem counterIssue_eq_none {field : String × Int} (h : 0 ≤ field.2) (h' : field.2 ≤ 2147483647) :
    counterIssue field = none := by
  rw [counterIssue, if_neg (by omega), if_neg (by omega)]

/-- The totals of a publishable key raise no issue, when they fit. -/
theorem aggregateIssues_totalsOf {key : AggregateKey} (hes : Positive es) (hfits : ¬Overflows es)
    (hkey : PublishableKey key) : aggregateIssues key.weekStart (totalsOf es key) = [] := by
  have hcounts : (totalsOf es key).counts.filterMap counterIssue = [] := by
    have hle : ∀ t, 0 ≤ total es t key ∧ total es t key ≤ 2147483647 := fun t =>
      ⟨total_nonneg hes, not_lt.1 fun h => hfits (overflows_iff.2 ⟨t, key, h⟩)⟩
    refine List.filterMap_eq_nil_iff.2 fun field hfield => ?_
    simp only [WeeklyAggregate.counts, totalsOf, integerCountFields, List.zip_cons_cons,
      List.zip_nil_right, List.mem_cons, List.not_mem_nil, or_false] at hfield
    rcases hfield with rfl | rfl | rfl | rfl <;> exact counterIssue_eq_none (hle _).1 (hle _).2
  have hwarehouse : (totalsOf es key).warehouse = "los_angeles" ∨ (totalsOf es key).warehouse =
      "zaragoza" := hkey.warehouse
  have hclient : validClientId (.str (totalsOf es key).clientId) = .ok key.clientId := hkey.client
  have hrate : (totalsOf es key).discrepancyRate = officialDiscrepancyRate
      (totalsOf es key).outboundOrdersCount
      (totalsOf es key).discrepancyEventsCount := rfl
  simp only [aggregateIssues, hcounts, if_pos hwarehouse, hclient, ← hrate, ne_eq, not_true_eq_false,
    and_false, if_false, List.append_nil]
  exact if_pos rfl

/-- A batch without issues in its aggregates and without repeated keys has none. -/
theorem batchIssues_of_clean : ∀ {seen : List AggregateKey} {as : List WeeklyAggregate},
    (∀ a ∈ as, aggregateIssues week a = [] ∧ a.key ∉ seen) → (as.map WeeklyAggregate.key).Nodup →
      batchIssues week seen as = []
  | _, [], _, _ => rfl
  | seen, a :: rest, hall, hkeys => by
    rw [List.map_cons, List.nodup_cons] at hkeys
    obtain ⟨hissues, hseen⟩ := hall a List.mem_cons_self
    have hrest : batchIssues week (a.key :: seen) rest = [] := by
      refine batchIssues_of_clean (fun b hb => ⟨(hall b (List.mem_cons_of_mem a hb)).1, ?_⟩) hkeys.2
      rw [List.mem_cons, not_or]
      exact ⟨fun hsame => hkeys.1 (hsame ▸ List.mem_map_of_mem hb), (hall b (List.mem_cons_of_mem a hb)).2⟩
    simp only [batchIssues, hissues, if_neg hseen, hrest, List.append_nil]

/-- **The transformation and the validator**: aggregates that all belong to one week raise no issue
of the publication batch, once the week is over. -/
theorem transform_publishable (fromisoformat : String → Option PyValue) (events : List TelemetryRow)
    (orders : CommercialOrderEvidence) (evidence : WeekEvidence) (r : WeeklyTransformationResult)
    (week now : Int)
    (hr : transformWeeklyPerformance fromisoformat events orders evidence = .ok r) (hne : r.aggregates ≠ [])
    (hweek : ∀ a ∈ r.aggregates, a.weekStart = week) (hnow : midnight (week + 7) ≤ now) :
    validateWeeklyPublicationBatch week r.aggregates (.aware now) = [] := by
  let p := prepareWeeklyEvents fromisoformat events evidence
  have hpos : Positive p.events := positive_valid fun e he => mem_prepared he
  have hrp : r = composed orders p := (Except.ok.inj (transform_eq.symm.trans hr)).symm
  have hagg : r.aggregates =
      if Overflows (accepted orders p.events) then [] else weeklyTotals (accepted orders p.events) := by
    rw [hrp]
    exact composed_aggregates hpos
  have hfits : ¬Overflows (accepted orders p.events) := fun ho => hne (by rw [hagg, if_pos ho])
  rw [if_neg hfits] at hagg
  -- Every aggregate is the totals of the key of an event.
  have hkeys :
      ∀ a ∈ r.aggregates, PublishableKey a.key ∧ a = totalsOf (accepted orders p.events) a.key := by
    intro a ha
    rw [hagg] at ha
    obtain ⟨key, hkey, rfl⟩ := List.mem_map.1 ha
    obtain ⟨e, he, rfl⟩ := List.mem_map.1 (mem_sortedSet.1 hkey)
    exact ⟨event_publishable (mem_prepared_iff.1 (mem_accepted.1 he).1).2.mem, rfl⟩
  have hnodup : (r.aggregates.map WeeklyAggregate.key).Nodup := by
    rw [hagg, weeklyTotals, List.map_map]
    exact (List.map_id'' (fun key => (rfl : (totalsOf (accepted orders p.events) key).key = key)) _).symm ▸
      nodup_sortedSet AggregateKey.le _
  have hissues : batchIssues week [] r.aggregates = [] := by
    refine batchIssues_of_clean (fun a ha => ⟨?_, List.not_mem_nil⟩) hnodup
    obtain ⟨hkey, htotals⟩ := hkeys a ha
    rw [← hweek a ha, htotals]
    exact aggregateIssues_totalsOf hpos.accepted hfits hkey
  have hmonday : weekIssue week = none := by
    obtain ⟨a, ha⟩ := List.exists_mem_of_ne_nil _ hne
    have hm := (hkeys a ha).1.monday
    change weekday a.weekStart = 0 at hm
    rw [hweek a ha] at hm
    rw [weekIssue, if_pos hm]
  have hcomplete : completeWeekIssue week (.aware now) = none := if_neg (by omega)
  rw [validateWeeklyPublicationBatch, hmonday, if_neg hne, hissues, List.append_nil]
  dsimp only
  rw [hcomplete, Option.toList_none]

/-- A movement of the week of 1970-01-05, published when the week is over. -/
def firstWeekMovement : TelemetryRow where
  id := .str "00000000-0000-4000-8000-000000000001"
  timestamp := .aware (midnight 4)
  service := .str "api"
  eventType := .str "inbound_order_created"
  tags := .dict [("warehouse", .str "ZGZ"), ("client_id", .str "acme"), ("movement_id", .str "7"),
    ("quantity", .int 5)]

theorem transform_publishable_first_week : ∃ r,
    transformWeeklyPerformance (fun _ => none) [firstWeekMovement] ⟨fun _ => none, true⟩ none = .ok r ∧
      validateWeeklyPublicationBatch 4 r.aggregates (.aware (midnight 11)) = [] := by
  refine ⟨_, transform_eq, transform_publishable _ _ _ _ _ _ _ transform_eq ?_ ?_ (by decide)⟩
  · decide +kernel
  · decide +kernel

end TrackFlow.Pipelines
