import TrackFlow.Pipelines.CrossWeek
import TrackFlow.Pipelines.WeeklyTotals

/-!
# What a week counts

`countingEvents` says, of the rows of a telemetry table and of the orders, which events count in a
week: the valid ones whose movement is not contradicted, has no row in another week, and has its
order. `weekly_aggregates` is that extraction and transformation together give the totals of these
events.
-/

namespace TrackFlow.Pipelines

open TrackFlow.Python Extraction

/-! ## Conditions on the tables -/

section Tables

variable (fromisoformat : String → Option PyValue) (telemetry : List TelemetryRecord)
  (db : Inventory.Tables) (week : Int)

/-- The valid events of a week. -/
def validEvents : List ValidatedEvent :=
  (weeklyRows week telemetry).filterMap fun row => (validateEvent fromisoformat (toEvent row)).toOption

/-- The order that an outbound event names, if it has dispatches. -/
def orderOf (e : ValidatedEvent) : Option CommercialOrderRecord :=
  match e.tags.get "order_id" with
  | .str orderId => commercialOrderRecords db (commercialOrderId orderId).toList orderId
  | _ => none

/-- Nothing in the tables speaks against a valid event. -/
structure Uncontested (e : ValidatedEvent) : Prop where
  /-- The valid events of its movement say the same. -/
  agree : ∀ e' ∈ validEvents fromisoformat telemetry week, e'.movementKey = e.movementKey →
    movementSignature e' = movementSignature e
  /-- No row has its movement in another week. -/
  alone : ∀ key ∈ e.movementKey, ¬FoundElsewhere telemetry week key
  /-- Its order is there, and is the same. -/
  ordered : e.eventType = .outboundOrderCreated → ∃ record ∈ orderOf db e, identityConflicts record e = []

instance (e : ValidatedEvent) : Decidable (Uncontested fromisoformat telemetry db week e) :=
  decidable_of_iff ((∀ e' ∈ validEvents fromisoformat telemetry week, e'.movementKey = e.movementKey →
      movementSignature e' = movementSignature e) ∧
    (∀ key ∈ e.movementKey, ¬FoundElsewhere telemetry week key) ∧ (e.eventType = .outboundOrderCreated →
      ∃ record ∈ orderOf db e, identityConflicts record e = [])) ⟨fun h => ⟨h.1, h.2.1, h.2.2⟩,
    fun h => ⟨h.agree, h.alone, h.ordered⟩⟩

/-- The events that count in a week, one for each movement. -/
def countingEvents : List ValidatedEvent :=
  firstBy ValidatedEvent.movementKey
    ((validEvents fromisoformat telemetry week).filter fun e =>
      Uncontested fromisoformat telemetry db week e)

end Tables

variable {fromisoformat : String → Option PyValue} {jsonText : PyValue → String}
  {telemetry : List TelemetryRecord} {db : Inventory.Tables} {week : Int} {e e' : ValidatedEvent}

theorem mem_validEvents : e ∈ validEvents fromisoformat telemetry week ↔
    ∃ row ∈ weeklyRows week telemetry, validateEvent fromisoformat (toEvent row) = .ok e := by
  simp only [validEvents, List.mem_filterMap, toOption_eq_some]

theorem mem_validEvents_iff (hids : (telemetry.map TelemetryRecord.id).Nodup) :
    e ∈ validEvents fromisoformat telemetry week ↔ e ∈ weeklyEvents fromisoformat week telemetry := by
  rw [mem_validEvents, mem_weeklyEvents hids]

theorem validEvents_valid (h : e ∈ validEvents fromisoformat telemetry week) :
    ∃ row, ValidEvent fromisoformat row e := by
  obtain ⟨row, -, hv⟩ := mem_validEvents.1 h
  exact ⟨_, validateEvent_ok hv⟩

theorem mem_countingEvents (h : e ∈ countingEvents fromisoformat telemetry db week) :
    e ∈ validEvents fromisoformat telemetry week ∧ Uncontested fromisoformat telemetry db week e := by
  obtain ⟨he, hu⟩ := List.mem_filter.1 (mem_firstBy h)
  exact ⟨he, of_decide_eq_true hu⟩

/-- An uncontested valid event is counted, itself or another of its movement. -/
theorem exists_countingEvent (he : e ∈ validEvents fromisoformat telemetry week)
    (hu : Uncontested fromisoformat telemetry db week e) :
    ∃ e' ∈ countingEvents fromisoformat telemetry db week, e'.movementKey = e.movementKey :=
  exists_mem_firstBy (List.mem_filter.2 ⟨he, decide_eq_true hu⟩)

/-! ## Orders -/

theorem commercialOrderId_eq {id id' : String} (h : commercialOrderId id = some id') : id = id' := by
  unfold commercialOrderId at h
  split at h
  · split at h
    · exact Option.some.inj h
    · cases h
  · cases h

/-- The evidence has the order of every valid event of the week. -/
theorem orderRecord_week (he : e ∈ validEvents fromisoformat telemetry week)
    (ht : e.eventType = .outboundOrderCreated) :
    orderRecord (commercialOrderEvidence db (Extraction.movementKeys (weeklyRows week telemetry))) e =
      orderOf db e := by
  obtain ⟨row, hrow, hv⟩ := mem_validEvents.1 he
  have hvalid := validateEvent_ok hv
  obtain ⟨id, hget, hkey⟩ := hvalid.movementKey
  have hrowKey : keyOf row = some (.outboundOrderCreated, id) := by rw [(extraction_key hvalid).1, hkey, ht]
  rw [ht] at hget
  change e.tags.get "order_id" = .str id at hget
  have hid : id ∈ outboundIds (Extraction.movementKeys (weeklyRows week telemetry)) := by
    refine mem_sortedSet.2 (List.mem_map.2 ⟨(.outboundOrderCreated, id),
      List.mem_filter.2 ⟨?_, by simp⟩, rfl⟩)
    exact mem_movementKeys_rows.2 ⟨row, hrow, hrowKey⟩
  have hsame : id ∈ (outboundIds (Extraction.movementKeys (weeklyRows week telemetry))).filterMap
      commercialOrderId ↔
      id ∈ (commercialOrderId id).toList := by
    rw [List.mem_filterMap, Option.mem_toList]
    constructor
    · rintro ⟨id', -, hcanonical⟩
      rwa [commercialOrderId_eq hcanonical] at hcanonical
    · exact fun hcanonical => ⟨id, hid, hcanonical⟩
  unfold orderRecord orderOf commercialOrderEvidence commercialOrderRecords
  rw [hget]
  simp only [hsame]

theorem outboundIssue_isNone {orders : CommercialOrderEvidence} : (outboundIssue orders e).isNone = true ↔
    ∃ record, orderRecord orders e = some record ∧ identityConflicts record e = [] := by
  unfold outboundIssue
  cases orderRecord orders e with
  | none => simp
  | some record =>
    by_cases hi : identityConflicts record e = [] <;> simp [hi]

/-! ## The run counts them -/

/-- The orders that the run of a week goes by. -/
def weekOrders (db : Inventory.Tables) (telemetry : List TelemetryRecord) (week : Int) :
    CommercialOrderEvidence :=
  commercialOrderEvidence db (Extraction.movementKeys (weeklyRows week telemetry))

/-- The events that the run of a week prepares. -/
def weekPrepared (fromisoformat : String → Option PyValue) (jsonText : PyValue → String)
    (telemetry : List TelemetryRecord) (week : Int) : PreparedWeeklyEvents :=
  prepareWeeklyEvents fromisoformat ((weeklyRows week telemetry).map toEvent)
    (weekEvidence jsonText telemetry week)

/-- Whether a movement conflicts, by the tables. -/
theorem conflicting_week (hids : (telemetry.map TelemetryRecord.id).Nodup)
    (hweek : weekday week = 0) {key : MovementKey}
    (he : e ∈ validEvents fromisoformat telemetry week) (hk : e.movementKey = some key) :
    conflicting (weekEvidence jsonText telemetry week) (weeklyEvents fromisoformat week telemetry) key =
      false ↔ (∀ e' ∈ validEvents fromisoformat telemetry week, e'.movementKey = e.movementKey →
        movementSignature e' = movementSignature e) ∧ ¬FoundElsewhere telemetry week key := by
  have hmem := (mem_validEvents_iff hids).1 he
  have hsignatures : ((movementGroup (weeklyEvents fromisoformat week telemetry) key).map
      movementSignature).dedup.length ≤ 1 ↔
      ∀ e' ∈ validEvents fromisoformat telemetry week, e'.movementKey = e.movementKey →
        movementSignature e' = movementSignature e := by
    rw [dedup_length_le_one]
    constructor
    · intro hall e' he' hk'
      refine hall _ (List.mem_map_of_mem (mem_movementGroup.2 ⟨(mem_validEvents_iff hids).1 he',
        hk'.trans hk⟩)) _ (List.mem_map_of_mem (mem_movementGroup.2 ⟨hmem, hk⟩))
    · intro hall a ha b hb
      obtain ⟨ea, hea, rfl⟩ := List.mem_map.1 ha
      obtain ⟨eb, heb, rfl⟩ := List.mem_map.1 hb
      obtain ⟨hea, hka⟩ := mem_movementGroup.1 hea
      obtain ⟨heb, hkb⟩ := mem_movementGroup.1 heb
      rw [hall ea ((mem_validEvents_iff hids).2 hea) (hka.trans hk.symm),
        hall eb ((mem_validEvents_iff hids).2 heb) (hkb.trans hk.symm)]
  unfold conflicting
  rw [evidence_week hids hweek (mem_movementKeys.2 ⟨e, hmem, hk⟩), Bool.or_eq_false_iff,
      decide_eq_false_iff_not,
    decide_eq_false_iff_not, not_lt, hsignatures]

/-- The events that a run accepts are, to the counters, the counting ones. -/
theorem accepted_counting (hids : (telemetry.map TelemetryRecord.id).Nodup) (hweek : weekday week = 0) :
    ((accepted (weekOrders db telemetry week)
        (weekPrepared fromisoformat jsonText telemetry week).events).map ValidatedEvent.measure).Perm
      ((countingEvents fromisoformat telemetry db week).map ValidatedEvent.measure) := by
  have hreps : (weekPrepared fromisoformat jsonText telemetry week).events.Perm
      (representatives (weekEvidence jsonText telemetry week)
        (weeklyEvents fromisoformat week telemetry)) := prepared_events
  have hrep : ∀ e, e ∈ accepted (weekOrders db telemetry week) (weekPrepared fromisoformat jsonText
      telemetry week).events →
      e ∈ validEvents fromisoformat telemetry week ∧ Uncontested fromisoformat telemetry db week e := by
    intro e he
    obtain ⟨hprepared, haccept⟩ := List.mem_filter.1 he
    have hmem := hreps.mem_iff.1 hprepared
    have hvalid := (mem_validEvents_iff hids).2 (mem_representatives hmem)
    obtain ⟨key, hkey, hhead⟩ := List.mem_filterMap.1 hmem
    have hk := (mem_movementGroup.1 (List.mem_of_mem_head? hhead)).2
    have hclear : conflicting (weekEvidence jsonText telemetry week)
        (weeklyEvents fromisoformat week telemetry) key = false := by
      simpa using (List.mem_filter.1 hkey).2
    obtain ⟨hagree, halone⟩ := (conflicting_week hids hweek hvalid hk).1 hclear
    refine ⟨hvalid, hagree, fun key' hk' => ?_, fun ht => ?_⟩
    · rw [hk] at hk'
      cases hk'
      exact halone
    · have hnone : (outboundIssue (weekOrders db telemetry week) e).isNone = true :=
        by simpa [ht] using haccept
      obtain ⟨record, hrecord, hsame⟩ := outboundIssue_isNone.1 hnone
      rw [weekOrders, orderRecord_week hvalid ht] at hrecord
      exact ⟨record, hrecord, hsame⟩
  have hmeasure : ∀ a ∈ validEvents fromisoformat telemetry week, Uncontested fromisoformat
      telemetry db week a →
      ∀ b ∈ validEvents fromisoformat telemetry week, b.movementKey = a.movementKey →
        b.share (weekOrders db telemetry week) = a.share (weekOrders db telemetry week) := by
    intro a ha hua b hb hba
    obtain ⟨_, hva⟩ := validEvents_valid ha
    obtain ⟨_, hvb⟩ := validEvents_valid hb
    exact (share_eq hvb hva hba (hua.agree b hb hba)).1
  refine perm_map_of_keys ?_ (firstBy_keys _) (fun k => ?_) fun a ha b hb hab => ?_
  · exact ((hreps.map _).nodup_iff.2 representatives_nodup).sublist (List.filter_sublist.map _)
  · constructor
    · intro hk
      obtain ⟨a, ha, rfl⟩ := List.mem_map.1 hk
      obtain ⟨hvalid, hu⟩ := hrep a ha
      obtain ⟨b, hb, hba⟩ := exists_countingEvent hvalid hu
      exact List.mem_map.2 ⟨b, hb, hba⟩
    · intro hk
      obtain ⟨b, hb, rfl⟩ := List.mem_map.1 hk
      obtain ⟨hvalid, hu⟩ := mem_countingEvents hb
      have hmem := (mem_validEvents_iff hids).1 hvalid
      obtain ⟨_, hv⟩ := validEvents_valid hvalid
      obtain ⟨id, -, hkey⟩ := hv.movementKey
      have hclear : conflicting (weekEvidence jsonText telemetry week)
          (weeklyEvents fromisoformat week telemetry)
          (b.eventType, id) = false :=
            (conflicting_week hids hweek hvalid hkey).2 ⟨hu.agree, hu.alone _ hkey⟩
      obtain ⟨a, ha, haKey, hhead⟩ := head_movementGroup (mem_movementKeys.2 ⟨b, hmem, hkey⟩)
      have haRep : a ∈ representatives (weekEvidence jsonText telemetry week)
          (weeklyEvents fromisoformat week telemetry) :=
        List.mem_filterMap.2 ⟨_, List.mem_filter.2 ⟨mem_movementKeys.2 ⟨b, hmem, hkey⟩,
          by simp [hclear]⟩, hhead⟩
      have hshare := hmeasure b hvalid hu a ((mem_validEvents_iff hids).2 ha) (haKey.trans hkey.symm)
      refine List.mem_map.2 ⟨a, List.mem_filter.2 ⟨hreps.mem_iff.2 haRep, ?_⟩, haKey.trans hkey.symm⟩
      have hb : (b.share (weekOrders db telemetry week)).2.2.2 = true := by
        by_cases ht : b.eventType = .outboundOrderCreated
        · obtain ⟨record, hrecord, hsame⟩ := hu.ordered ht
          rw [Option.mem_def, ← orderRecord_week hvalid ht] at hrecord
          have hnone : (outboundIssue (weekOrders db telemetry week) b).isNone = true :=
            outboundIssue_isNone.2 ⟨record, hrecord, hsame⟩
          simp only [ValidatedEvent.share, hnone, Bool.or_true]
        · simp [ValidatedEvent.share, ht]
      rw [← hshare] at hb
      exact hb
  · obtain ⟨hva, hua⟩ := hrep a ha
    have hshare := hmeasure a hva hua b (mem_countingEvents hb).1 hab.symm
    simp only [ValidatedEvent.share, Prod.mk.injEq] at hshare
    obtain ⟨ht, hk, hamount, -⟩ := hshare
    simp only [ValidatedEvent.measure, ht, hk, hamount]

/-- Extraction and transformation together give the totals of the counting events, or nothing when
these overflow. -/
theorem weekly_aggregates (hids : (telemetry.map TelemetryRecord.id).Nodup) (hweek : weekday week = 0) :
    (weeklyResult fromisoformat jsonText telemetry db week).map WeeklyTransformationResult.aggregates =
      .ok (if Overflows (countingEvents fromisoformat telemetry db week) then []
        else weeklyTotals (countingEvents fromisoformat telemetry db week)) := by
  have hperm : ((accepted (weekOrders db telemetry week) (weekPrepared fromisoformat jsonText
      telemetry week).events).map
      ValidatedEvent.measure).Perm ((countingEvents fromisoformat telemetry db week).map
        ValidatedEvent.measure) :=
    accepted_counting hids hweek
  have hpositive : Positive (weekPrepared fromisoformat jsonText telemetry week).events :=
    positive_valid fun e he => mem_prepared he
  rw [weeklyResult_eq, Except.map]
  change Except.ok (composed (weekOrders db telemetry week) (weekPrepared fromisoformat jsonText
    telemetry week)).aggregates = _
  rw [composed_aggregates hpositive]
  simp only [overflows_congr hperm, weeklyTotals_congr hperm]

end TrackFlow.Pipelines
