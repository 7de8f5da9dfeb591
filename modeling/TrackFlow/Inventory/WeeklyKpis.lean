import TrackFlow.Inventory.SentEvents
import TrackFlow.Inventory.AcceptedRequests
import TrackFlow.Pipelines.WeekAttribution

/-!
# Weekly KPIs

The report of a week, made of the telemetry to which the outbox is relayed, is what the tables themselves
say of the week (`weekly_kpis`): the units that entered, the commercial orders, the crossings of a threshold
and the counts that found another stock, of each warehouse and client (`kpis`).
-/

namespace TrackFlow.Inventory.Books

open TrackFlow.Python TrackFlow.ReadCommitted
open TrackFlow.Pipelines hiding outboxRows
open TrackFlow.Pipelines.Extraction (keyOf toEvent weeklyRows mem_weeklyRows)
open CommandLocks (Lock)

/-! ## Distinct facts -/

section Distinct

variable {db : Tables}

/-- What a fact consists of. -/
theorem fact_eq_some {t : EventType} {identity warehouse : String} {clientId : Option String}
    {time amount : Int} {x : Fact} (h : fact t identity warehouse clientId time amount = some x) :
    canonicalTelemetryWarehouse warehouse = some x.key.warehouse ∧ clientId = some x.key.clientId ∧
      x = ⟨t, identity, ⟨x.key.warehouse, x.key.clientId, isoWeekStart time⟩, amount⟩ := by
  obtain ⟨canonical, hwarehouse, h⟩ := Option.bind_eq_some_iff.1 h
  obtain ⟨client, hclient, h⟩ := Option.bind_eq_some_iff.1 h
  cases h
  exact ⟨hwarehouse, hclient, rfl⟩

theorem facts_type {t : EventType} {x : Fact} (hx : x ∈ facts db t) : x.eventType = t := by
  cases t
  all_goals
    obtain ⟨row, -, hfact⟩ := List.mem_filterMap.1 hx
    rw [(fact_eq_some hfact).2.2]

theorem nodup_identities {ρ : Type} {rows : List ρ} {f : ρ → Option Fact} {identity : ρ → String}
    (h : (rows.map identity).Nodup) (hf : ∀ row x, f row = some x → x.identity = identity row) :
    ((rows.filterMap f).map Fact.identity).Nodup := by
  rw [List.map_filterMap]
  refine List.pairwise_filterMap.2 ((List.pairwise_map.1 h).imp fun {a b} hne i hi j hj hij => ?_)
  obtain ⟨x, hx, rfl⟩ := Option.map_eq_some_iff.1 hi
  obtain ⟨y, hy, rfl⟩ := Option.map_eq_some_iff.1 hj
  exact hne (by rw [← hf a x hx, ← hf b y hy, hij])

/-- The facts of a type have distinct identities. -/
theorem Proper.identities (h : Proper db) (t : EventType) : ((facts db t).map Fact.identity).Nodup := by
  cases t with
  | inboundOrderCreated =>
    refine nodup_identities ?_ fun row x hfact => by rw [(fact_eq_some hfact).2.2]
    have hids := h.honest.unique.entries.map fun _ _ => toString_injective
    rwa [List.map_map] at hids
  | outboundOrderCreated =>
    refine nodup_identities ?_ fun o x hfact => by rw [(fact_eq_some hfact).2.2]
    have hids := h.honest.inv.outbox.orderIds.map fun _ _ => Uuid.str_injective
    rwa [List.map_map] at hids
  | stockThresholdTriggered =>
    refine nodup_identities ?_ fun e x hfact => by rw [(fact_eq_some hfact).2.2]
    refine List.Nodup.map_on (fun e he e' he' hsame => ?_)
      ((h.honest.unique.evaluations.of_map _).filter _)
    obtain ⟨he, hcrossed⟩ := List.mem_filter.1 he
    obtain ⟨he', hcrossed'⟩ := List.mem_filter.1 he'
    refine List.inj_on_of_nodup_map h.honest.unique.evaluations he he'
      (Prod.ext ?_ (toString_injective hsame))
    rw [((h.honest.inv.kept.evaluations e he).crossed.1 hcrossed).1,
      ((h.honest.inv.kept.evaluations e' he').crossed.1 hcrossed').1]
  | inventoryDiscrepancyDetected =>
    refine nodup_identities ?_ fun c x hfact => by rw [(fact_eq_some hfact).2.2]
    have hids := h.honest.inv.outbox.countIds.map fun _ _ => Uuid.str_injective
    rw [List.map_map] at hids
    exact hids.sublist (List.filter_sublist.map _)

/-- The messages of a type have distinct movements. -/
theorem Proper.movements (h : Proper db) (t : EventType) :
    ((messages t.text db).map fun m => keyOf m.record).Nodup := by
  have hkeys : (facts db t).map (fun x => some (x.eventType, x.identity)) =
      (messages t.text db).map fun m => keyOf m.record := by
    rw [← List.forall₂_eq_eq_eq, List.forall₂_map_left_iff, List.forall₂_map_right_iff]
    exact (h.sent t).imp fun x m hsaid => hsaid.key.symm
  rw [← hkeys]
  refine List.Nodup.of_map (Option.map Prod.snd) ?_
  have hidentities := (h.identities t).map (Option.some_injective _)
  rwa [List.map_map] at hidentities ⊢

/-- Each message says a fact. -/
theorem Proper.said (h : Proper db) {m : Message} (hm : m ∈ db.outbox.map message) :
    ∃ t, m ∈ messages t.text db ∧ ∃ x ∈ facts db t, Says x m := by
  have hmem : ∀ t : EventType, m.eventType = t.text → ∃ t : EventType, m ∈ messages t.text db ∧
      ∃ x ∈ facts db t, Says x m := by
    intro t htype
    have hmessage : m ∈ messages t.text db := List.mem_filter.2 ⟨hm, decide_eq_true htype⟩
    obtain ⟨x, hx, hsaid⟩ := partner (h.sent t).flip hmessage
    exact ⟨t, hmessage, x, hx, hsaid⟩
  have hpair := h.honest.inv.kept.pairs m hm
  simp only [outboxSourceEventTypes, List.mem_cons, Prod.mk.injEq, List.not_mem_nil, or_false] at hpair
  rcases hpair with ⟨-, htype⟩ | ⟨-, htype⟩ | ⟨-, htype⟩ | ⟨-, htype⟩
  · exact hmem .inboundOrderCreated htype
  · exact hmem .outboundOrderCreated htype
  · exact hmem .stockThresholdTriggered htype
  · exact hmem .inventoryDiscrepancyDetected htype

end Distinct

/-! ## Relayed telemetry -/

section Relayed

variable {db : Tables} {telemetry : List TelemetryRecord} {week : Int} {bounds : Int × Int}
  {fromisoformat : String → Option PyValue} {e : ValidatedEvent}

/-- The telemetry holds what each row of the outbox is mapped to, in any order, and nothing else. -/
def Relayed (db : Tables) (telemetry : List TelemetryRecord) : Prop :=
  (telemetry.map some).Perm (db.outbox.map mapOutboxEventToRow)

theorem Honest.mapped (h : Honest db) {row : OutboxRow} (hrow : row ∈ db.outbox) :
    mapOutboxEventToRow row = some (message row).record := by
  have hwindow : row ∈ windowOutbox row.occurredAt (row.occurredAt + 1) db.outbox :=
    List.mem_filter.2 ⟨hrow, decide_eq_true ⟨le_refl _, by omega⟩⟩
  obtain ⟨-, -, -, hfilter⟩ := h.tags hwindow
  rw [mapOutboxEventToRow, hfilter]
  rfl

/-- The rows of the outbox, mapped in any order. -/
theorem Honest.relayed (h : Honest db) {rows : List OutboxRow} (hperm : rows.Perm db.outbox) :
    Relayed db (rows.filterMap mapOutboxEventToRow) := by
  have hmapped : (rows.filterMap mapOutboxEventToRow).map some = rows.map mapOutboxEventToRow := by
    rw [List.map_filterMap, ← List.filterMap_eq_map]
    refine List.filterMap_congr fun row hrow => ?_
    rw [Function.comp_apply, h.mapped (hperm.mem_iff.1 hrow)]
    rfl
  rw [Relayed, hmapped]
  exact hperm.map _

/-- The telemetry is that of the messages. -/
theorem Relayed.records (hrelayed : Relayed db telemetry) (h : Honest db) :
    telemetry.Perm ((db.outbox.map message).map Message.record) := by
  have hmapped : db.outbox.map mapOutboxEventToRow =
      ((db.outbox.map message).map Message.record).map some := by
    rw [List.map_map, List.map_map]
    exact List.map_congr_left fun row hrow => h.mapped hrow
  rw [Relayed, hmapped] at hrelayed
  exact (List.map_perm_map_iff (Option.some_injective _)).1 hrelayed

theorem Relayed.mem (hrelayed : Relayed db telemetry) (h : Honest db) {row : TelemetryRecord}
    (hrow : row ∈ telemetry) : ∃ m ∈ db.outbox.map message, m.record = row :=
  List.mem_map.1 ((hrelayed.records h).mem_iff.1 hrow)

/-- A row of the week has an instant that validation accepts. -/
theorem inWeek_datetime {t : Int} (hbounds : isoWeekBounds week = .ok bounds) (hweek : minDate ≤ week)
    (hin : InWeek week t) : datetimeMin ≤ t ∧ t ≤ datetimeMax := by
  have hnext : week + 7 ≤ maxDate := by
    unfold isoWeekBounds at hbounds
    split at hbounds
    · cases hbounds
    · unfold date at hbounds
      split at hbounds
      · omega
      · cases hbounds
  unfold InWeek midnight dayMicros at hin
  unfold datetimeMin datetimeMax midnight dayMicros
  unfold minDate at hweek
  unfold maxDate at hnext
  omega

/-- Each row of the week is a message of a fact, and its event is that of the fact. -/
theorem Proper.row (h : Proper db) (hrelayed : Relayed db telemetry)
    (hbounds : isoWeekBounds week = .ok bounds) (hweek : minDate ≤ week) {row : TelemetryRecord}
    (hrow : row ∈ weeklyRows week telemetry) :
    ∃ t, ∃ m ∈ messages t.text db, ∃ x ∈ facts db t, m.record = row ∧ Says x m ∧
      ∀ fromisoformat, validateEvent fromisoformat (toEvent row) = .ok (x.event m) := by
  obtain ⟨hmem, -, hin⟩ := mem_weeklyRows.1 hrow
  obtain ⟨m, hm, rfl⟩ := hrelayed.mem h.honest hmem
  obtain ⟨t, hmessage, x, hx, hsaid⟩ := h.said hm
  exact ⟨t, m, hmessage, x, hx, rfl, hsaid, fun _ => hsaid.event _ (inWeek_datetime hbounds hweek hin)⟩

/-- An alias of a warehouse is read as the warehouse. -/
theorem canonicalWarehouseText_alias {warehouse canonical : String}
    (h : canonicalTelemetryWarehouse warehouse = some canonical) :
    canonicalWarehouseText warehouse = .ok canonical := by
  unfold canonicalTelemetryWarehouse at h
  split at h
  all_goals cases h
  all_goals rfl

/-- The evidence has the order of a fact, as the fact has it. -/
theorem Proper.ordered (h : Proper db) {x : Fact} {m : Message} (hx : x ∈ facts db .outboundOrderCreated)
    (hsaid : Says x m) :
    ∃ record ∈ Pipelines.orderOf db (x.event m), identityConflicts record (x.event m) = [] := by
  obtain ⟨o, ho, hfact⟩ := List.mem_filterMap.1 hx
  obtain ⟨hwarehouse, hclient, hparts⟩ := fact_eq_some hfact
  have htype : x.eventType = .outboundOrderCreated := facts_type hx
  have hidentity : x.identity = o.orderId.str := by rw [hparts]
  have htag : (x.event m).tags.get "order_id" = .str o.orderId.str := by
    have hget := (Extraction.keyOf_some hsaid.key).2
    rw [htype, hidentity] at hget
    exact hget
  have hcanonical : Extraction.commercialOrderId o.orderId.str = some o.orderId.str := by
    unfold Extraction.commercialOrderId
    rw [Uuid.ofString_str]
    exact if_pos ⟨h.typed.orders o ho, rfl⟩
  have hcount : 0 < Extraction.dispatchCount db o := by
    obtain ⟨e, he, hpk⟩ := h.honest.inv.dispatched o ho
    refine List.countP_pos_iff.2 ⟨e, he, ?_⟩
    simp [hpk, h.typed.exits e he (by rw [hpk]; rfl)]
  have hfind : db.orders.find? (fun o' => o'.orderId.str = o.orderId.str &&
      o.orderId.str ∈ [o.orderId.str] && 0 < Extraction.dispatchCount db o') = some o := by
    refine find_of_unique ho (by simp [hcount]) fun o' ho' hp => ?_
    simp only [Bool.and_eq_true, decide_eq_true_eq] at hp
    exact List.inj_on_of_nodup_map h.honest.inv.outbox.orderIds ho' ho (Uuid.str_injective hp.1.1)
  refine ⟨⟨o.orderId.str, o.warehouse, o.clientId, Extraction.dispatchCount db o⟩, ?_, ?_⟩
  · rw [Option.mem_def]
    unfold Pipelines.orderOf
    rw [htag]
    simp only [hcanonical, Option.toList_some, Extraction.commercialOrderRecords]
    rw [hfind]
    rfl
  · have hsame : o.clientId = x.key.clientId := Option.some.inj hclient
    have hsome : ¬(Extraction.dispatchCount db o : Int) < 1 := by omega
    unfold identityConflicts
    rw [htag]
    simp only [canonicalWarehouseText_alias hwarehouse, hsame, hsome, Fact.event, if_true, if_false,
      List.append_nil]
    exact if_pos (PyValue.Eq.refl _)

/-- Nothing is wrong with the rows of any week. -/
theorem Proper.clean (h : Proper db) (hrelayed : Relayed db telemetry)
    (hbounds : isoWeekBounds week = .ok bounds) (hweek : minDate ≤ week) :
    CleanWeek fromisoformat telemetry db week where
  ids := by
    have hids : (((db.outbox.map message).map Message.record).map TelemetryRecord.id).Nodup := by
      rw [List.map_map, List.map_map]
      exact h.honest.unique.events
    exact (((hrelayed.records h.honest).map _).nodup_iff).2 hids
  once row hrow row' hrow' _ hsame := by
    obtain ⟨m, hm, rfl⟩ := hrelayed.mem h.honest hrow
    obtain ⟨m', hm', rfl⟩ := hrelayed.mem h.honest hrow'
    obtain ⟨t, hmessage, x, hx, hsaid⟩ := h.said hm
    obtain ⟨t', hmessage', x', hx', hsaid'⟩ := h.said hm'
    have htype : t = t' := by
      rw [hsaid.key, hsaid'.key, Option.some.injEq, Prod.mk.injEq, facts_type hx, facts_type hx'] at hsame
      exact hsame.1
    subst htype
    rw [List.inj_on_of_nodup_map (h.movements t) hmessage hmessage' hsame]
  valid row hrow := by
    obtain ⟨t, m, -, x, -, -, -, hvalid⟩ := h.row hrelayed hbounds hweek hrow
    exact ⟨_, hvalid fromisoformat⟩
  ordered e he htype := by
    obtain ⟨row, hrow, hv⟩ := mem_validEvents.1 he
    obtain ⟨t, m, -, x, hx, -, hsaid, hvalid⟩ := h.row hrelayed hbounds hweek hrow
    rw [hvalid fromisoformat] at hv
    cases hv
    have ht : t = .outboundOrderCreated := (facts_type hx).symm.trans htype
    subst ht
    exact h.ordered hx hsaid

end Relayed

/-! ## Totals -/

section Totals

variable {db : Tables} {telemetry : List TelemetryRecord} {week : Int} {bounds : Int × Int}
  {fromisoformat : String → Option PyValue} {t : EventType} {key : AggregateKey}

/-- What the counters see of the event of a row. -/
def measured (fromisoformat : String → Option PyValue) (row : TelemetryRecord) :
    Option (EventType × AggregateKey × Int) :=
  (validateEvent fromisoformat (toEvent row)).toOption.map ValidatedEvent.measure

/-- The messages of a week. -/
def messagesIn (week : Int) (ms : List Message) : List Message :=
  ms.filter fun m => InWeek week m.occurredAt

/-- The events of a week are those of the messages of the week. -/
theorem Proper.measures (h : Proper db) (hrelayed : Relayed db telemetry) :
    ((validEvents fromisoformat telemetry week).map ValidatedEvent.measure).Perm
      (((messagesIn week (db.outbox.map message)).map Message.record).filterMap
        (measured fromisoformat)) := by
  have hrows : (weeklyRows week telemetry).Perm
      ((messagesIn week (db.outbox.map message)).map Message.record) := by
    refine (perm_sortedBy _ _).trans (((hrelayed.records h.honest).filter _).trans (List.Perm.of_eq ?_))
    rw [List.filter_map]
    refine congrArg (List.map Message.record) (List.filter_congr fun m hm => ?_)
    obtain ⟨t, hmessage, -⟩ := h.said hm
    have hofficial : m.eventType ∈ EventType.all.map EventType.text := by
      rw [messages_type hmessage]
      cases t <;> simp [EventType.all]
    simp only [Function.comp_apply, Message.record, hofficial, true_and]
  unfold validEvents
  rw [List.map_filterMap]
  exact hrows.filterMap (measured fromisoformat)

theorem text_injective {t t' : EventType} (h : t.text = t'.text) : t = t' := by
  have hsome := EventType.ofText_text t
  rw [h, EventType.ofText_text] at hsome
  exact (Option.some.inj hsome).symm

/-- The messages of a type are those whose events are of the type. -/
theorem measured_type (ms : List Message) (t : EventType) :
    ((ms.map Message.record).filterMap (measured fromisoformat)).filter (fun m => m.1 = t) =
      ((ms.filter fun m => m.eventType = t.text).map Message.record).filterMap (measured fromisoformat) := by
  rw [List.filterMap_map, List.filterMap_map, List.filter_filterMap, List.filterMap_filter]
  refine List.filterMap_congr fun m _ => ?_
  rw [Function.comp_apply]
  cases hmeasured : measured fromisoformat m.record with
  | none => simp
  | some y =>
    obtain ⟨e, hv, rfl⟩ := Option.map_eq_some_iff.1 hmeasured
    have htype : m.eventType = e.eventType.text :=
      PyValue.str.inj (validateEvent_ok (toOption_eq_some.1 hv)).eventType
    have hiff : m.eventType = t.text ↔ e.measure.1 = t := by
      rw [htype]
      exact ⟨text_injective, congrArg EventType.text⟩
    by_cases ht : e.measure.1 = t <;> simp [hiff, ht]

theorem filterMap_of_forall₂ {α β γ : Type} {R : α → β → Prop} {f : α → γ} {g : β → Option γ} {as : List α}
    {bs : List β} (h : List.Forall₂ R as bs) (hg : ∀ a, ∀ b ∈ bs, R a b → g b = some (f a)) :
    bs.filterMap g = as.map f := by
  induction h with
  | nil => rfl
  | cons hab _ ih =>
    rw [List.filterMap_cons, hg _ _ List.mem_cons_self hab, List.map_cons,
      ih fun a b hb => hg a b (List.mem_cons_of_mem _ hb)]

/-- The facts of a week are what the counters see of their messages. -/
theorem Proper.measured_facts (h : Proper db) (hbounds : isoWeekBounds week = .ok bounds)
    (hweek : minDate ≤ week) (t : EventType) :
    ((messagesIn week (messages t.text db)).map Message.record).filterMap (measured fromisoformat) =
      ((facts db t).filter fun x => x.key.weekStart = week).map Fact.measure := by
  have hmonday := (isoWeekBounds_ok hbounds).1
  have hin : List.Forall₂ Says ((facts db t).filter fun x => x.key.weekStart = week)
      (messagesIn week (messages t.text db)) := by
    refine List.rel_filter (fun x m hsaid => ?_) (h.sent t)
    simp only [decide_eq_true_eq]
    rw [mem_week_iff hmonday, hsaid.week]
  rw [List.filterMap_map]
  refine filterMap_of_forall₂ hin fun x m hm hsaid => ?_
  have hdatetime := inWeek_datetime hbounds hweek (of_decide_eq_true (List.mem_filter.1 hm).2)
  rw [Function.comp_apply, measured, hsaid.event fromisoformat hdatetime, ← hsaid.measure]
  rfl

theorem messagesIn_messages (week : Int) (db : Tables) (t : EventType) :
    (messagesIn week (db.outbox.map message)).filter (fun m => m.eventType = t.text) =
      messagesIn week (messages t.text db) := List.filter_comm _ _ _

/-- The total of a type for a key is what its facts add up to. -/
theorem Proper.total (h : Proper db) (hrelayed : Relayed db telemetry)
    (hbounds : isoWeekBounds week = .ok bounds) (hweek : minDate ≤ week) (hkey : key.weekStart = week) :
    total (validEvents fromisoformat telemetry week) t key =
      (((facts db t).filter fun x => x.key = key).map Fact.amount).sum := by
  have hperm : (((validEvents fromisoformat telemetry week).map ValidatedEvent.measure).filter
      fun m => m.1 = t).Perm (((facts db t).filter fun x => x.key.weekStart = week).map Fact.measure) := by
    have hmeasures := (@Proper.measures db telemetry week fromisoformat h hrelayed).filter fun m => m.1 = t
    rw [measured_type, messagesIn_messages] at hmeasures
    rwa [h.measured_facts hbounds hweek t] at hmeasures
  have hsame : (((facts db t).filter fun x => x.key.weekStart = week).map Fact.measure).filter
      (fun m => m.2.1 = key) = ((facts db t).filter fun x => x.key = key).map Fact.measure := by
    rw [List.filter_map, List.filter_filter]
    refine congrArg (List.map Fact.measure) (List.filter_congr fun x _ => ?_)
    by_cases hx : x.key = key
    · simp [Fact.measure, hx, hkey]
    · simp [Fact.measure, hx]
  have hsplit : (fun m : EventType × AggregateKey × Int => m.1 = t && m.2.1 = key) =
      fun m => (m.2.1 = key : Bool) && (m.1 = t : Bool) := funext fun m => Bool.and_comm _ _
  rw [total_measure, hsplit, ← List.filter_filter, ((hperm.filter _).map _).sum_eq, hsame, List.map_map]
  rfl

/-- The keys of a week are those of its facts. -/
theorem Proper.keys (h : Proper db) (hrelayed : Relayed db telemetry)
    (hbounds : isoWeekBounds week = .ok bounds) (hweek : minDate ≤ week) :
    (∃ e ∈ validEvents fromisoformat telemetry week, e.key = key) ↔
      key.weekStart = week ∧ ∃ t, ∃ x ∈ facts db t, x.key = key := by
  constructor
  · rintro ⟨e, he, rfl⟩
    obtain ⟨row, hrow, hv⟩ := mem_validEvents.1 he
    obtain ⟨t, m, -, x, hx, rfl, hsaid, hvalid⟩ := h.row hrelayed hbounds hweek hrow
    rw [hvalid fromisoformat] at hv
    cases hv
    have hin := (mem_weeklyRows.1 hrow).2.2
    rw [mem_week_iff (isoWeekBounds_ok hbounds).1] at hin
    exact ⟨hsaid.week.symm.trans hin, t, x, hx, rfl⟩
  · rintro ⟨hkey, t, x, hx, rfl⟩
    obtain ⟨m, hm, hsaid⟩ := partner (h.sent t) hx
    have hin : InWeek week m.occurredAt := by
      rw [mem_week_iff (isoWeekBounds_ok hbounds).1, hsaid.week, hkey]
    have hofficial : m.record.eventType ∈ EventType.all.map EventType.text := by
      rw [show m.record.eventType = _ from messages_type hm]
      cases t <;> simp [EventType.all]
    have hrow : m.record ∈ weeklyRows week telemetry :=
      mem_weeklyRows.2 ⟨(hrelayed.records h.honest).mem_iff.2 (List.mem_map_of_mem (List.mem_filter.1 hm).1),
        hofficial, hin⟩
    exact ⟨x.event m, mem_validEvents.2 ⟨_, hrow, hsaid.event _ (inWeek_datetime hbounds hweek hin)⟩, rfl⟩

end Totals

/-! ## Weekly KPIs -/

section Kpis

variable {db : Tables} {key : AggregateKey}

/-- A row of a warehouse and a client at a time counts for a key. -/
def Counts (key : AggregateKey) (warehouse : String) (clientId : Option String) (time : Int) : Prop :=
  canonicalTelemetryWarehouse warehouse = some key.warehouse ∧ clientId = some key.clientId ∧
    InWeek key.weekStart time

instance (key : AggregateKey) (warehouse : String) (clientId : Option String) (time : Int) :
    Decidable (Counts key warehouse clientId time) := inferInstanceAs (Decidable (_ ∧ _ ∧ _))

/-- The entries of a warehouse, a client and a week. -/
def entriesOf (db : Tables) (key : AggregateKey) : List StockEntry :=
  db.entries.filter fun row => Counts key row.warehouse (clientOf db row.skuId) row.createdAt

/-- The commercial orders of a warehouse, a client and a week. -/
def ordersOf (db : Tables) (key : AggregateKey) : List CommercialOrder :=
  db.orders.filter fun o => Counts key o.warehouse (some o.clientId) o.createdAt

/-- The exits of a warehouse, a client and a week that took the stock to the threshold, as evaluated. -/
def stockoutsOf (db : Tables) (key : AggregateKey) : List ThresholdEvaluation :=
  (db.evaluations.filter ThresholdEvaluation.crossed).filter fun e =>
    Counts key e.warehouse e.clientId e.evaluatedAt

/-- The counts of a warehouse, a client and a week that found another stock. -/
def discrepanciesOf (db : Tables) (key : AggregateKey) : List PhysicalCount :=
  (db.counts.filter differs).filter fun c => Counts key c.warehouse (some c.clientId) c.confirmedAt

/-- What the tables have for the counter of a type. -/
def kpi (db : Tables) (key : AggregateKey) : EventType → Int
  | .inboundOrderCreated => ((entriesOf db key).map StockEntry.quantity).sum
  | .outboundOrderCreated => (ordersOf db key).length
  | .stockThresholdTriggered => (stockoutsOf db key).length
  | .inventoryDiscrepancyDetected => (discrepanciesOf db key).length

/-- What the tables have for a warehouse, a client and a week. -/
def kpis (db : Tables) (key : AggregateKey) : WeeklyAggregate where
  warehouse := key.warehouse
  clientId := key.clientId
  weekStart := key.weekStart
  inboundUnitsCount := kpi db key .inboundOrderCreated
  outboundOrdersCount := kpi db key .outboundOrderCreated
  stockoutEventsCount := kpi db key .stockThresholdTriggered
  discrepancyEventsCount := kpi db key .inventoryDiscrepancyDetected
  discrepancyRate := discrepancyRate (kpi db key .inventoryDiscrepancyDetected)
    (kpi db key .outboundOrderCreated)

/-- Something has happened for a key. -/
def Occurs (db : Tables) (key : AggregateKey) : Prop :=
  entriesOf db key ≠ [] ∨ ordersOf db key ≠ [] ∨ stockoutsOf db key ≠ [] ∨ discrepanciesOf db key ≠ []

instance (db : Tables) (key : AggregateKey) : Decidable (Occurs db key) :=
  inferInstanceAs (Decidable (_ ∨ _ ∨ _ ∨ _))

section Rows

variable {t : EventType} {identity warehouse : String} {clientId : Option String} {time amount : Int}

/-- A row that counts for a key gives a fact of the key. -/
theorem fact_of_counts (hmonday : weekday key.weekStart = 0) (h : Counts key warehouse clientId time) :
    fact t identity warehouse clientId time amount = some ⟨t, identity, key, amount⟩ := by
  obtain ⟨hwarehouse, hclient, hin⟩ := h
  simp only [fact, hwarehouse, hclient, Option.bind_eq_bind, Option.bind_some,
    (mem_week_iff hmonday time).1 hin]
  rfl

/-- The row of a fact counts for its key. -/
theorem counts_of_fact {x : Fact} (h : fact t identity warehouse clientId time amount = some x) :
    Counts x.key warehouse clientId time := by
  obtain ⟨hwarehouse, hclient, hx⟩ := fact_eq_some h
  refine ⟨hwarehouse, hclient, ?_⟩
  rw [hx]
  exact (mem_week_iff (weekday_isoWeekStart time) time).2 rfl

end Rows

/-- The facts of a key are those of the rows that count for it. -/
theorem facts_of_key {ρ : Type} (hmonday : weekday key.weekStart = 0) (t : EventType) (rows : List ρ)
    (identity warehouse : ρ → String) (clientId : ρ → Option String) (time amount : ρ → Int) :
    (rows.filterMap fun row => fact t (identity row) (warehouse row) (clientId row) (time row)
      (amount row)).filter (fun x => x.key = key) =
      (rows.filter fun row => Counts key (warehouse row) (clientId row) (time row)).map fun row =>
        ⟨t, identity row, key, amount row⟩ := by
  induction rows with
  | nil => rfl
  | cons row rows ih =>
    by_cases hcounts : Counts key (warehouse row) (clientId row) (time row)
    · rw [List.filterMap_cons, fact_of_counts hmonday hcounts, List.filter_cons, if_pos (by simp), ih,
        List.filter_cons, if_pos (by simpa using hcounts), List.map_cons]
    · rw [List.filter_cons (p := fun row => decide (Counts key _ _ _)), if_neg (by simpa using hcounts), ← ih,
        List.filterMap_cons]
      cases hfact : fact t (identity row) (warehouse row) (clientId row) (time row) (amount row) with
      | none => rfl
      | some x =>
        have hne : x.key ≠ key := fun hkey => hcounts (hkey ▸ counts_of_fact hfact)
        rw [List.filter_cons, if_neg (by simpa using hne)]

theorem exists_fact {ρ : Type} (hmonday : weekday key.weekStart = 0) (t : EventType) (rows : List ρ)
    (identity warehouse : ρ → String) (clientId : ρ → Option String) (time amount : ρ → Int) :
    (∃ x ∈ rows.filterMap fun row => fact t (identity row) (warehouse row) (clientId row) (time row)
      (amount row), x.key = key) ↔
      (rows.filter fun row => Counts key (warehouse row) (clientId row) (time row)) ≠ [] := by
  have hkey := facts_of_key hmonday t rows identity warehouse clientId time amount
  rw [Ne, ← List.map_eq_nil_iff, ← hkey, List.filter_eq_nil_iff]
  simp only [decide_eq_true_eq, not_forall, not_not, exists_prop]

/-- What the facts of a type add up to for a key. -/
theorem facts_total (hmonday : weekday key.weekStart = 0) (t : EventType) :
    (((facts db t).filter fun x => x.key = key).map Fact.amount).sum = kpi db key t := by
  cases t
  all_goals
    rw [facts, facts_of_key hmonday, List.map_map]
    simp [kpi, entriesOf, ordersOf, stockoutsOf, discrepanciesOf, Function.comp_def]

/-- Something has happened for a key when a fact of the key has. -/
theorem occurs_iff (hmonday : weekday key.weekStart = 0) :
    Occurs db key ↔ ∃ t, ∃ x ∈ facts db t, x.key = key := by
  have hentries : (∃ x ∈ facts db .inboundOrderCreated, x.key = key) ↔ entriesOf db key ≠ [] :=
    exists_fact hmonday _ _ _ _ _ _ _
  have horders : (∃ x ∈ facts db .outboundOrderCreated, x.key = key) ↔ ordersOf db key ≠ [] :=
    exists_fact hmonday _ _ _ _ _ _ _
  have hstockouts : (∃ x ∈ facts db .stockThresholdTriggered, x.key = key) ↔ stockoutsOf db key ≠ [] :=
    exists_fact hmonday _ _ _ _ _ _ _
  have hdiscrepancies : (∃ x ∈ facts db .inventoryDiscrepancyDetected, x.key = key) ↔
      discrepanciesOf db key ≠ [] := exists_fact hmonday _ _ _ _ _ _ _
  constructor
  · rintro (hoccurs | hoccurs | hoccurs | hoccurs)
    · exact ⟨_, hentries.2 hoccurs⟩
    · exact ⟨_, horders.2 hoccurs⟩
    · exact ⟨_, hstockouts.2 hoccurs⟩
    · exact ⟨_, hdiscrepancies.2 hoccurs⟩
  · rintro ⟨t, hoccurs⟩
    cases t with
    | inboundOrderCreated => exact .inl (hentries.1 hoccurs)
    | outboundOrderCreated => exact .inr (.inl (horders.1 hoccurs))
    | stockThresholdTriggered => exact .inr (.inr (.inl (hstockouts.1 hoccurs)))
    | inventoryDiscrepancyDetected => exact .inr (.inr (.inr (hdiscrepancies.1 hoccurs)))

end Kpis

/-- **The weekly report is what the tables say has happened**: whatever the commands do, in whatever order
and wherever they are lost, once each message has been relayed, every Monday that has the bounds of a week is
reported without a rejected event, with one aggregate for each warehouse and client for which something has
happened in the week, and its counters are the units that entered, the orders that were created, the exits
that crossed a threshold and the counts that found another stock, if each fits in `integer`. -/
theorem weekly_kpis {Cl : Type} [DecidableEq Cl] {skus : List Sku}
    {σ : System Cl Tables Write Lock Unit ServiceError Unit} {telemetry : List TelemetryRecord} {week : Int}
    {bounds : Int × Int} (fromisoformat : String → Option PyValue) (jsonText : PyValue → String)
    (hids : (skus.map Sku.id).Nodup) (h : Reachable tables SchemaCommand (start skus) σ)
    (hproducts : ∀ sku ∈ σ.db.skus, Product sku)
    (hclients : ∀ sku ∈ σ.db.skus, ∀ client ∈ sku.clientId, isBlank client = false)
    (hrelayed : Relayed σ.db telemetry) (hbounds : isoWeekBounds week = .ok bounds) (hweek : minDate ≤ week)
    (hfits : ∀ key, key.weekStart = week → ∀ t, kpi σ.db key t ≤ 2147483647) :
    ∃ result, weeklyResult fromisoformat jsonText telemetry σ.db week = .ok result ∧
      result.quality.rejectedEventIds = [] ∧ (result.aggregates.map WeeklyAggregate.key).Nodup ∧
      ∀ a, a ∈ result.aggregates ↔ ∃ key, key.weekStart = week ∧ Occurs σ.db key ∧ a = kpis σ.db key := by
  have hproper := Proper.reached hids h hproducts hclients
  have hmonday := (isoWeekBounds_ok hbounds).1
  have htotal : ∀ t key, key.weekStart = week →
      total (validEvents fromisoformat telemetry week) t key = kpi σ.db key t := by
    intro t key hkey
    rw [hproper.total hrelayed hbounds hweek hkey, facts_total (hkey ▸ hmonday)]
  have hover : ¬Overflows (validEvents fromisoformat telemetry week) := by
    rintro ⟨e, he, hlt⟩
    have hkey := ((hproper.keys hrelayed hbounds hweek).1 ⟨e, he, rfl⟩).1
    rw [htotal _ _ hkey] at hlt
    exact absurd (hfits e.key hkey e.eventType) (not_le.2 hlt)
  obtain ⟨result, hresult, -, hrejected, haggregates⟩ :=
    @CleanWeek.reported fromisoformat jsonText telemetry σ.db week (hproper.clean hrelayed hbounds hweek)
      hmonday hover
  have htotals : ∀ key, key.weekStart = week →
      totalsOf (validEvents fromisoformat telemetry week) key = kpis σ.db key := by
    intro key hkey
    simp only [totalsOf, kpis, htotal _ _ hkey]
  refine ⟨result, hresult, hrejected, ?_, fun a => ?_⟩
  · rw [haggregates, weeklyTotals, List.map_map]
    exact (nodup_sortedSet AggregateKey.le _).map_on fun key _ key' _ hsame => hsame
  · rw [haggregates, weeklyTotals, List.mem_map]
    refine exists_congr fun key => ?_
    have hkeys : key ∈ sortedSet AggregateKey.le
        ((validEvents fromisoformat telemetry week).map ValidatedEvent.key) ↔
        key.weekStart = week ∧ Occurs σ.db key := by
      rw [mem_sortedSet, List.mem_map, hproper.keys hrelayed hbounds hweek]
      exact and_congr_right fun hkey => (occurs_iff (hkey ▸ hmonday)).symm
    rw [hkeys, and_assoc]
    refine and_congr_right fun hkey => and_congr_right fun _ => ?_
    rw [htotals key hkey]
    exact eq_comm

/-! ### The weeks of the shirts -/

/-- Ids of a day of the second week. -/
def tuesdayStamps : Stamps where
  stamp k := ⟨k + 31, randomDigits (Fin.ofNat 16 (k + 9)), midnight 5 + k⟩
  positive k := stamp_positive k 30

/-- Ten shirts arrive, five leave with an order, more than are left are refused, and one is missing; a week
later two more leave with the order, and seven arrive. -/
def twoWeeks : List (Txn Unit) :=
  [createStockEntry ⟨1, 10, "PO-1", .la⟩ "u" (stampOf 1 1) >>= fun _ => pure (),
    createCommercialOrder ⟨(randomDigits 10).val, "urban-thread", .la,
      [⟨(randomDigits 11).val, 1, 4, "T-1"⟩, ⟨(randomDigits 12).val, 1, 1, "T-2"⟩]⟩ "u" (stampOf 1 2)
        shirtStamps >>= fun _ => pure (),
    createStockExit ⟨1, 6, .dispatch, some "T-3", .la⟩ "u" (stampOf 9 6) >>= fun _ => pure (),
    confirmInventoryPhysicalCount ⟨(randomDigits 13).val, 1, 4, .la⟩ "u" (stampOf 1 7) >>= fun _ => pure (),
    appendCommercialOrderDispatches ⟨(randomDigits 10).val, [⟨(randomDigits 14).val, 1, 2, "T-4"⟩]⟩ "u"
      (midnight 5) tuesdayStamps >>= fun _ => pure (),
    updateSkuThreshold 1 (some 5) >>= fun _ => pure (),
    createStockEntry ⟨1, 7, "PO-2", .la⟩ "u" ⟨2, randomDigits 8, midnight 6⟩ >>= fun _ => pure ()]

theorem twoWeeks_command : ∀ p ∈ twoWeeks, SchemaCommand p := by
  intro p hp
  simp only [twoWeeks, List.mem_cons, List.not_mem_nil, or_false] at hp
  rcases hp with rfl | rfl | rfl | rfl | rfl | rfl | rfl
  · exact .entry _ _ _ (by decide)
  · exact .order _ _ _ _ (by decide) (by simp) (by simp)
  · exact .exit _ _ _ (by decide)
  · exact .count _ _ _ (by decide)
  · exact .append _ _ _ _ (by simp)
  · exact .threshold _ _
  · exact .entry _ _ _ (by decide)

/-- No counter of few rows is too large. -/
theorem kpi_le {db : Tables} {n : Int} (hpos : ∀ row ∈ db.entries, 0 ≤ row.quantity)
    (hentries : (db.entries.map StockEntry.quantity).sum ≤ n) (horders : db.orders.length ≤ n)
    (hevaluations : db.evaluations.length ≤ n) (hcounts : db.counts.length ≤ n) (key : AggregateKey)
    (t : EventType) : kpi db key t ≤ n := by
  cases t with
  | inboundOrderCreated =>
    refine le_trans (List.Sublist.sum_le_sum (List.filter_sublist.map _) fun q hq => ?_) hentries
    obtain ⟨row, hrow, rfl⟩ := List.mem_map.1 hq
    exact hpos row hrow
  | outboundOrderCreated => exact le_trans (Int.ofNat_le.2 (List.length_filter_le _ _)) horders
  | stockThresholdTriggered =>
    have hcrossed := List.length_filter_le ThresholdEvaluation.crossed db.evaluations
    exact le_trans (Int.ofNat_le.2 ((List.length_filter_le _ _).trans hcrossed)) hevaluations
  | inventoryDiscrepancyDetected =>
    have hdiffers := List.length_filter_le differs db.counts
    exact le_trans (Int.ofNat_le.2 ((List.length_filter_le _ _).trans hdiffers)) hcounts

/-- The rows of both weeks, the last first. -/
def twoWeeksTelemetry : List TelemetryRecord :=
  (serially (start shirts) twoWeeks).outbox.reverse.filterMap mapOutboxEventToRow

/-- Ten arrive in the first week, with an order and a discrepancy, and seven in the second, with a
crossing. -/
theorem weekly_kpis_shirts :
    (∃ result, weeklyResult (fun _ => none) (fun _ => "") twoWeeksTelemetry
        (serially (start shirts) twoWeeks) (-3) = .ok result ∧
      ⟨"los_angeles", "urban-thread", -3, 10, 1, 0, 1, 1⟩ ∈ result.aggregates) ∧
      ∃ result, weeklyResult (fun _ => none) (fun _ => "") twoWeeksTelemetry
        (serially (start shirts) twoWeeks) 4 = .ok result ∧
      ⟨"los_angeles", "urban-thread", 4, 7, 0, 1, 0, 0⟩ ∈ result.aggregates := by
  have hreach : Reachable tables SchemaCommand (start shirts)
      (System.idle (serially (start shirts) twoWeeks) :
        System Unit Tables Write Lock Unit ServiceError Unit) := serially_reachable twoWeeks_command .idle
  have hshirt : ∀ sku ∈ (serially (start shirts) twoWeeks).skus,
      sku.clientId = some "urban-thread" ∧ sku.warehouse = Warehouse.value .la := by decide +kernel
  have hproducts : ∀ sku ∈ (serially (start shirts) twoWeeks).skus, Product sku := by
    intro sku hsku
    refine ⟨?_, .la, (hshirt sku hsku).2⟩
    rw [(hshirt sku hsku).1]
    rfl
  have hclients : ∀ sku ∈ (serially (start shirts) twoWeeks).skus, ∀ client ∈ sku.clientId,
      isBlank client = false := by
    intro sku hsku client hclient
    rw [(hshirt sku hsku).1] at hclient
    cases hclient
    decide
  have hrelayed : Relayed (serially (start shirts) twoWeeks) twoWeeksTelemetry :=
    (Honest.reached (by decide) (hreach.mono fun _ hp => hp.command) hproducts).relayed
      (List.reverse_perm _)
  have hfits := @kpi_le (serially (start shirts) twoWeeks) 2147483647 (by decide +kernel)
    (by decide +kernel) (by decide +kernel) (by decide +kernel) (by decide +kernel)
  have hfirst : isoWeekBounds (-3) = .ok (midnight (-3), midnight 4) := rfl
  have hsecond : isoWeekBounds 4 = .ok (midnight 4, midnight 11) := rfl
  constructor
  · obtain ⟨result, hresult, -, -, haggregates⟩ := weekly_kpis (fun _ => none) (fun _ => "")
      (by decide) hreach hproducts hclients hrelayed hfirst (by decide) fun key _ => hfits key
    exact ⟨result, hresult, (haggregates _).2 ⟨⟨"los_angeles", "urban-thread", -3⟩, rfl, by decide +kernel,
      by decide +kernel⟩⟩
  · obtain ⟨result, hresult, -, -, haggregates⟩ := weekly_kpis (fun _ => none) (fun _ => "")
      (by decide) hreach hproducts hclients hrelayed hsecond (by decide) fun key _ => hfits key
    exact ⟨result, hresult, (haggregates _).2 ⟨⟨"los_angeles", "urban-thread", 4⟩, rfl, by decide +kernel,
      by decide +kernel⟩⟩

end TrackFlow.Inventory.Books
