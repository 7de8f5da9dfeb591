import TrackFlow.Pipelines.CountingEvents

/-!
# Rows of other services

Rows whose service is not `api` never validate, but the movement lookup of the extraction reads them
as it reads all others. A row of another week that names the movement of an authentic event makes it
a conflict, so that the event no longer counts: `untrusted_rows_iff` says when the aggregates stay
the same, `untrusted_row_displaces` that they need not.
-/

namespace TrackFlow.Pipelines

open TrackFlow.Python Extraction

variable {fromisoformat : String → Option PyValue} {jsonText : PyValue → String}
  {telemetry added : List TelemetryRecord} {db : Inventory.Tables} {week : Int} {e : ValidatedEvent}

/-- Rows in other weeks have the movement of the event. -/
def Displaced (added : List TelemetryRecord) (week : Int) (e : ValidatedEvent) : Prop :=
  ∃ key ∈ e.movementKey, FoundElsewhere added week key

instance : Decidable (Displaced added week e) :=
  inferInstanceAs (Decidable (∃ key ∈ e.movementKey, FoundElsewhere added week key))

/-- Only rows of the service `api` validate. -/
theorem validateEvent_service {row : TelemetryRecord}
    (h : validateEvent fromisoformat (toEvent row) = .ok e) : row.service = "api" := by
  unfold validateEvent at h
  obtain ⟨_, -, h⟩ := bind_ok h
  obtain ⟨_, -, h⟩ := bind_ok h
  by_cases hs : (toEvent row).service.Eq (.str "api")
  · simpa [toEvent, PyValue.Eq, PyValue.normal] using hs
  · simp only [hs, not_false_eq_true, if_true] at h
    cases h

theorem validEvents_append (hservice : ∀ row ∈ added, row.service ≠ "api") :
    e ∈ validEvents fromisoformat (telemetry ++ added) week ↔
      e ∈ validEvents fromisoformat telemetry week := by
  simp only [mem_validEvents, mem_weeklyRows, List.mem_append]
  constructor
  · rintro ⟨row, ⟨hrow | hrow, hin⟩, hv⟩
    · exact ⟨row, ⟨hrow, hin⟩, hv⟩
    · exact absurd (validateEvent_service hv) (hservice row hrow)
  · rintro ⟨row, ⟨hrow, hin⟩, hv⟩
    exact ⟨row, ⟨Or.inl hrow, hin⟩, hv⟩

theorem foundElsewhere_append {key : MovementKey} :
    FoundElsewhere (telemetry ++ added) week key ↔ FoundElsewhere telemetry week key ∨
      FoundElsewhere added week key := by
  simp only [FoundElsewhere, List.mem_append, or_and_right, exists_or]

/-- What the added rows say against an event. -/
theorem uncontested_append (hservice : ∀ row ∈ added, row.service ≠ "api") :
    Uncontested fromisoformat (telemetry ++ added) db week e ↔
      Uncontested fromisoformat telemetry db week e ∧ ¬Displaced added week e := by
  constructor
  · rintro ⟨hagree, halone, hordered⟩
    refine ⟨⟨fun e' he' => hagree e' ((validEvents_append hservice).2 he'), fun key hkey hfound =>
        ?_, hordered⟩, ?_⟩
    · exact halone key hkey (foundElsewhere_append.2 (Or.inl hfound))
    · rintro ⟨key, hkey, hfound⟩
      exact halone key hkey (foundElsewhere_append.2 (Or.inr hfound))
  · rintro ⟨⟨hagree, halone, hordered⟩, hdisplaced⟩
    refine ⟨fun e' he' => hagree e' ((validEvents_append hservice).1 he'), fun key hkey hfound =>
        ?_, hordered⟩
    rcases foundElsewhere_append.1 hfound with hfound | hfound
    · exact halone key hkey hfound
    · exact hdisplaced ⟨key, hkey, hfound⟩

/-- With the added rows, what counts is what counted and is not displaced. -/
theorem counting_append (hservice : ∀ row ∈ added, row.service ≠ "api") :
    ((countingEvents fromisoformat (telemetry ++ added) db week).map ValidatedEvent.measure).Perm
      (((countingEvents fromisoformat telemetry db week).filter fun e =>
          !decide (Displaced added week e)).map
        ValidatedEvent.measure) := by
  have hright : ∀ e, e ∈ (countingEvents fromisoformat telemetry db week).filter
      (fun e => !decide (Displaced added week e)) →
      e ∈ validEvents fromisoformat (telemetry ++ added) week ∧
        Uncontested fromisoformat (telemetry ++ added) db week e := by
    intro e he
    obtain ⟨hcounting, hkept⟩ := List.mem_filter.1 he
    obtain ⟨hvalid, hu⟩ := mem_countingEvents hcounting
    exact ⟨(validEvents_append hservice).2 hvalid, (uncontested_append hservice).2
      ⟨hu, by simpa using hkept⟩⟩
  refine perm_map_of_keys (firstBy_keys _) ((firstBy_keys _).sublist (List.filter_sublist.map _))
    (fun k => ?_) fun a ha b hb hab => ?_
  · constructor
    · intro hk
      obtain ⟨a, ha, rfl⟩ := List.mem_map.1 hk
      obtain ⟨hvalid, hu⟩ := mem_countingEvents ha
      obtain ⟨hu, hkept⟩ := (uncontested_append hservice).1 hu
      obtain ⟨b, hb, hba⟩ := exists_countingEvent ((validEvents_append hservice).1 hvalid) hu
      refine List.mem_map.2 ⟨b, List.mem_filter.2 ⟨hb, ?_⟩, hba⟩
      have hsame : Displaced added week b ↔ Displaced added week a := by
        unfold Displaced
        rw [hba]
      simp [hsame, hkept]
    · intro hk
      obtain ⟨b, hb, rfl⟩ := List.mem_map.1 hk
      obtain ⟨hvalid, hu⟩ := hright b hb
      obtain ⟨a, ha, hab⟩ := exists_countingEvent hvalid hu
      exact List.mem_map.2 ⟨a, ha, hab⟩
  · obtain ⟨hva, -⟩ := mem_countingEvents ha
    obtain ⟨hvb, hub⟩ := hright b hb
    obtain ⟨_, hrowA⟩ := validEvents_valid hva
    obtain ⟨_, hrowB⟩ := validEvents_valid hvb
    have hshare : a.share (weekOrders db telemetry week) = b.share (weekOrders db telemetry week) :=
      (share_eq hrowA hrowB hab (hub.agree a hva hab)).1
    simp only [ValidatedEvent.share, Prod.mk.injEq] at hshare
    obtain ⟨ht, hk, hamount, -⟩ := hshare
    simp only [ValidatedEvent.measure, ht, hk, hamount]

/-- The aggregates with the added rows. -/
theorem weekly_append (hids : ((telemetry ++ added).map TelemetryRecord.id).Nodup)
    (hservice : ∀ row ∈ added, row.service ≠ "api") (hweek : weekday week = 0) :
    (weeklyResult fromisoformat jsonText (telemetry ++ added) db week).map
        WeeklyTransformationResult.aggregates =
      .ok (if Overflows ((countingEvents fromisoformat telemetry db week).filter fun e =>
          !decide (Displaced added week e)) then []
        else weeklyTotals ((countingEvents fromisoformat telemetry db week).filter fun e =>
            !decide (Displaced added week e))) := by
  rw [weekly_aggregates hids hweek]
  simp only [overflows_congr (counting_append hservice), weeklyTotals_congr (counting_append hservice)]

theorem countingEvents_positive : Positive (countingEvents fromisoformat telemetry db week) :=
  positive_valid fun _ he => validEvents_valid (mem_countingEvents he).1

/-- Rows of other services leave the aggregates of a week as they are exactly when they have the
movement of no event that counts in another week, or when the counters overflow with these events
and then overflow without them or have none left. -/
theorem untrusted_rows_iff (fromisoformat : String → Option PyValue) (jsonText : PyValue → String)
    (telemetry added : List TelemetryRecord) (db : Inventory.Tables) (week : Int) (hweek : weekday week = 0)
    (hids : ((telemetry ++ added).map TelemetryRecord.id).Nodup)
    (hservice : ∀ row ∈ added, row.service ≠ "api") :
    ((weeklyResult fromisoformat jsonText (telemetry ++ added) db week).map
        WeeklyTransformationResult.aggregates =
      (weeklyResult fromisoformat jsonText telemetry db week).map WeeklyTransformationResult.aggregates) ↔
    (∀ e ∈ countingEvents fromisoformat telemetry db week, ¬Displaced added week e) ∨
      Overflows (countingEvents fromisoformat telemetry db week) ∧
        (Overflows ((countingEvents fromisoformat telemetry db week).filter fun e =>
            !decide (Displaced added week e)) ∨
          ∀ e ∈ countingEvents fromisoformat telemetry db week, Displaced added week e) := by
  have htelemetry : (telemetry.map TelemetryRecord.id).Nodup := by
    rw [List.map_append] at hids
    exact hids.of_append_left
  rw [weekly_append hids hservice hweek, weekly_aggregates htelemetry hweek, Except.ok.injEq,
    reported_filter countingEvents_positive]
  simp

theorem untrusted_rows_iff_same_week :
    ((weeklyResult (fun _ => none) (fun _ => "")
        ([inboundRow (Uuid.ofNat 1) 0 "api"] ++ [inboundRow (Uuid.ofNat 2) 5 "backoffice"])
        { skus := [] } (-3)).map WeeklyTransformationResult.aggregates =
      (weeklyResult (fun _ => none) (fun _ => "")
        [inboundRow (Uuid.ofNat 1) 0 "api"]
        { skus := [] } (-3)).map WeeklyTransformationResult.aggregates) := by
  refine (untrusted_rows_iff (fun _ => none) (fun _ => "") [inboundRow (Uuid.ofNat 1) 0 "api"]
    [inboundRow (Uuid.ofNat 2) 5 "backoffice"] { skus := [] } (-3) (by decide) (by decide)
      (by simp [inboundRow])).2 (Or.inl ?_)
  rintro e - ⟨key, -, row, hrow, -, hne⟩
  rw [List.mem_singleton.1 hrow] at hne
  exact hne (by decide)

/-- The event of one authentic row counts. -/
theorem countingEvents_single :
    countingEvents (fun _ => none) [inboundRow (Uuid.ofNat 1) 0 "api"] { skus := [] } (-3) =
    [inboundEvent (Uuid.ofNat 1) 0] := by
  have hvalid : validEvents (fun _ => none) [inboundRow (Uuid.ofNat 1) 0 "api"] (-3) =
      [inboundEvent (Uuid.ofNat 1) 0] := by
    have hrows : weeklyRows (-3) [inboundRow (Uuid.ofNat 1) 0 "api"] =
        [inboundRow (Uuid.ofNat 1) 0 "api"] := by
      have hin : InWeek (-3) (inboundRow (Uuid.ofNat 1) 0 "api").timestamp := by decide
      have htype : (inboundRow (Uuid.ofNat 1) 0 "api").eventType ∈ EventType.all.map
          EventType.text := by decide
      unfold weeklyRows
      rw [List.filter_eq_self.2 fun row hrow =>
          by rw [List.mem_singleton.1 hrow]; exact decide_eq_true ⟨htype, hin⟩]
      rfl
    unfold validEvents
    rw [hrows, List.filterMap_cons, inboundRow_valid (by decide)]
    rfl
  have huncontested : Uncontested (fun _ => none) [inboundRow (Uuid.ofNat 1) 0 "api"] { skus := [] } (-3)
      (inboundEvent (Uuid.ofNat 1) 0) := by
    refine ⟨fun e' he' _ => ?_, fun key _ hfound => ?_, fun h => by cases h⟩
    · rw [hvalid, List.mem_singleton] at he'
      rw [he']
    · obtain ⟨row, hrow, -, hne⟩ := hfound
      rw [List.mem_singleton.1 hrow] at hne
      exact hne (by decide)
  unfold countingEvents
  rw [hvalid, List.filter_eq_self.2 fun e he =>
      by rw [List.mem_singleton.1 he]; exact decide_eq_true huncontested]
  rfl

/-- A row of another service and another week takes an authentic event out of the counters. -/
theorem untrusted_row_displaces : ¬∀ (fromisoformat : String → Option PyValue) (jsonText : PyValue → String)
    (telemetry added : List TelemetryRecord) (db : Inventory.Tables) (week : Int), weekday week = 0 →
    ((telemetry ++ added).map TelemetryRecord.id).Nodup → (∀ row ∈ added, row.service ≠ "api") →
    (weeklyResult fromisoformat jsonText (telemetry ++ added) db week).map
      WeeklyTransformationResult.aggregates = (weeklyResult fromisoformat jsonText telemetry db week).map
      WeeklyTransformationResult.aggregates := by
  intro hall
  have hsame := hall (fun _ => none) (fun _ => "") [inboundRow (Uuid.ofNat 1) 0 "api"]
    [inboundRow (Uuid.ofNat 2) (8 * dayMicros) "backoffice"] { skus := [] } (-3) (by decide)
      (by decide) (by simp [inboundRow])
  rw [weekly_append (by decide) (by simp [inboundRow]) (by decide),
    weekly_aggregates (by decide) (by decide), Except.ok.injEq, reported_filter countingEvents_positive,
    countingEvents_single] at hsame
  rcases hsame with hkept | ⟨hover, -⟩
  · have hdisplaced : Displaced [inboundRow (Uuid.ofNat 2) (8 * dayMicros) "backoffice"] (-3)
        (inboundEvent (Uuid.ofNat 1) 0) :=
      ⟨(.inboundOrderCreated, "7"), rfl, _, List.mem_singleton_self _, rfl, by decide⟩
    simpa [hdisplaced] using hkept _ (List.mem_singleton_self _)
  · revert hover
    decide

end TrackFlow.Pipelines
