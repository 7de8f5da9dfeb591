import TrackFlow.Pipelines.DrainedOutbox
import TrackFlow.Inventory.AuditedRows

/-!
# The audit of honest books

The audit of the books of the commands is complete exactly when the messages of the interval are relayed and
nothing else is in the official telemetry (`honest_audit_clean`), whatever the interval is.
-/

namespace TrackFlow.Inventory.Books

open TrackFlow.Python TrackFlow.ReadCommitted
open TrackFlow.Pipelines hiding outboxRows
open CommandLocks (Lock)

/-! ## The snapshot as a whole -/

section Whole

variable {db : Tables} {start stop : Int} {telemetry : List TelemetryRecord}

theorem mem_of_mapM {α β : Type} {f : α → Option β} : ∀ {l : List α} {r : List β}, l.mapM f = some r →
    ∀ {b : β}, b ∈ r → ∃ a ∈ l, f a = some b
  | [], r, h, b, hb => by
    cases h
    cases hb
  | x :: l, r, h, b, hb => by
    rw [List.mapM_cons] at h
    obtain ⟨y, hy, h⟩ := Option.bind_eq_some_iff.1 h
    obtain ⟨ys, hys, h⟩ := Option.bind_eq_some_iff.1 h
    cases h
    rcases List.mem_cons.1 hb with rfl | hb
    · exact ⟨x, List.mem_cons_self, hy⟩
    · obtain ⟨a, ha, hab⟩ := mem_of_mapM hys hb
      exact ⟨a, List.mem_cons_of_mem x ha, hab⟩

theorem nodup_of_filterMap {α β : Type} {f : α → Option β} {xs : List α} (h : (xs.filterMap f).Nodup)
    (hsome : ∀ x ∈ xs, (f x).isSome = true) : (xs.map f).Nodup := by
  have hmap : xs.map f = (xs.filterMap f).map some := by
    clear h
    induction xs with
    | nil => rfl
    | cons x xs ih =>
      obtain ⟨y, hy⟩ := Option.isSome_iff_exists.1 (hsome x List.mem_cons_self)
      rw [List.map_cons, List.filterMap_cons, hy, ih fun x' hx' => hsome x' (List.mem_cons_of_mem _ hx')]
      rfl
  rw [hmap]
  exact h.map (Option.some_injective β)

/-- A row of the interval, joined. -/
theorem mem_joined {α β : Type} {rows : List α} {f : α → Option β} {a : α} {b : β} (time : α → Int)
    (hmem : a ∈ rows) (htime : InWindow start stop (time a)) (hjoin : f a = some b) :
    b ∈ (rows.filter fun a => InWindow start stop (time a)).filterMap f :=
  List.mem_filterMap.2 ⟨a, List.mem_filter.2 ⟨hmem, decide_eq_true htime⟩, hjoin⟩

theorem dispatchSnapshot_ids (exits : List StockExit) :
    (exits.filterMap dispatchSnapshot).map DispatchRow.dispatchId =
      (exits.filter fun e => e.commercialOrderId.isSome).map StockExit.dispatchId := by
  induction exits with
  | nil => rfl
  | cons e exits ih =>
    cases hpk : e.commercialOrderId with
    | none => simpa [dispatchSnapshot, hpk] using ih
    | some pk => simpa [dispatchSnapshot, hpk] using ih

/-- No dispatch id comes twice. -/
theorem Honest.dispatches (h : Honest db) :
    ((loadSnapshot start stop db telemetry).dispatches.map DispatchRow.dispatchId).Nodup := by
  rw [show (loadSnapshot start stop db telemetry).dispatches = db.exits.filterMap dispatchSnapshot from rfl,
    dispatchSnapshot_ids]
  refine nodup_of_filterMap (h.inv.dispatches.sublist (List.filter_sublist.filterMap _)) fun e he => ?_
  obtain ⟨he, hpk⟩ := List.mem_filter.1 he
  obtain ⟨pk, hpk⟩ := Option.isSome_iff_exists.1 hpk
  exact (h.inv.clients e he pk hpk).1

/-- Each checkpoint has its movement. -/
theorem Honest.movement (h : Honest db) {e : ThresholdEvaluation} (he : e ∈ db.evaluations)
    (hwindow : InWindow start stop e.evaluatedAt) (telemetry : List TelemetryRecord) :
    ∃ m ∈ (loadSnapshot start stop db telemetry).movements,
      m.sourceTable = e.sourceTable ∧ m.sourcePk = e.sourcePk := by
  obtain ⟨sku, -, -, hsku, -⟩ := h.judged he
  rcases (h.inv.kept.evaluations e he).source with htable | htable
  · obtain ⟨row, hrow, hentered⟩ := partner h.inv.kept.entries.flip
      (List.mem_filter.2 ⟨he, decide_eq_true htable⟩)
    have htime : InWindow start stop row.createdAt := by rwa [← hentered.time]
    rw [hentered.sku] at hsku
    have hjoin : entryMovement db row = some _ := Option.map_eq_some_iff.2 ⟨sku, hsku, rfl⟩
    exact ⟨_, List.mem_append_left _ (mem_joined StockEntry.createdAt hrow htime hjoin), htable.symm,
      hentered.source.symm⟩
  · obtain ⟨row, hrow, hleft⟩ := partner h.inv.kept.exits.flip
      (List.mem_filter.2 ⟨he, decide_eq_true htable⟩)
    have htime : InWindow start stop row.createdAt := by rwa [← hleft.time]
    rw [hleft.sku] at hsku
    have hjoin : exitMovement db row = some _ := Option.map_eq_some_iff.2 ⟨sku, hsku, rfl⟩
    exact ⟨_, List.mem_append_right _ (mem_joined StockExit.createdAt hrow htime hjoin), htable.symm,
      hleft.source.symm⟩

/-- No diagnostic is about the source rows. -/
theorem Honest.sourceDiagnostics (h : Honest db) :
    (loadSnapshot start stop db telemetry).sourceDiagnostics = [] := by
  unfold OperationalSnapshot.sourceDiagnostics
  rw [if_pos h.dispatches, List.flatMap_eq_nil_iff.2 fun entry he => h.auditEntry he,
    List.flatMap_eq_nil_iff.2 fun order ho => h.auditOrder ho,
    List.flatMap_eq_nil_iff.2 fun m hm => h.auditMovement (OperationalSnapshot.mem_movementRows hm),
    List.flatMap_eq_nil_iff.2 fun c hc => h.auditCount hc]
  rfl

/-- Each implied event has its row. -/
theorem Honest.implied (h : Honest db) {event : ImpliedEvent}
    (hevent : event ∈ (loadSnapshot start stop db telemetry).impliedEvents) :
    RowFor (windowOutbox start stop db.outbox) event := by
  simp only [OperationalSnapshot.impliedEvents, List.mem_append] at hevent
  rcases hevent with ((hevent | hevent) | hevent) | hevent
  · obtain ⟨entry, hentry, rfl⟩ := List.mem_map.1 hevent
    exact exactOutbox_nil (h.auditEntry hentry)
  · obtain ⟨order, horder, rfl⟩ := List.mem_map.1 hevent
    exact exactOutbox_nil (List.append_eq_nil_iff.1 (h.auditOrder horder)).2
  · obtain ⟨m, hm, hi⟩ := List.mem_filterMap.1 hevent
    exact auditMovement_nil (h.auditMovement (OperationalSnapshot.mem_movementRows hm)) hi
  · obtain ⟨c, hc, rfl⟩ := List.mem_map.1 hevent
    obtain ⟨hc, hd⟩ := List.mem_filter.1 hc
    exact auditCount_nil (h.auditCount hc) (of_decide_eq_true hd)

/-- The movement of a crossing is one of those whose event is expected. -/
theorem Honest.crosses (h : Honest db) {e : ThresholdEvaluation} (he : e ∈ db.evaluations)
    (hwindow : InWindow start stop e.evaluatedAt) (hcrossed : e.crossed = true) :
    ∃ m ∈ (loadSnapshot start stop db telemetry).movementRows,
      (loadSnapshot start stop db telemetry).crosses m = true ∧
      m.outboxKey = (e.sourceTable, e.sourcePk, "stock_threshold_triggered") := by
  obtain ⟨m, hm, htable, hpk⟩ := h.movement he hwindow telemetry
  obtain ⟨m', hm', hkey⟩ := exists_mem_firstBy (f := fun m : MovementRow => (m.sourceTable, m.sourcePk))
    (List.mem_reverse.2 hm)
  simp only [Prod.mk.injEq] at hkey
  obtain ⟨e', hd, hwindow'⟩ := h.described (OperationalSnapshot.mem_movementRows hm')
  have hsame : e' = e := by
    refine List.inj_on_of_nodup_map h.unique.evaluations hd.mem he (Prod.ext ?_ ?_)
    · rw [← hd.table, hkey.1, htable]
    · rw [← hd.pk, hkey.2, hpk]
  subst hsame
  refine ⟨m', hm', ?_, by rw [MovementRow.outboxKey, hd.table, hd.pk]⟩
  unfold OperationalSnapshot.crosses
  rw [hd.checkpoints h hwindow']
  dsimp only
  rw [hd.crossed h, hcrossed]

/-- Each message of the interval is expected. -/
theorem Honest.expected (h : Honest db) {row : OutboxRow} (hrow : row ∈ windowOutbox start stop db.outbox)
    (telemetry : List TelemetryRecord) :
    row.key ∈ (loadSnapshot start stop db telemetry).expectedOutboxKeys := by
  obtain ⟨hrow, hwindow⟩ := List.mem_filter.1 hrow
  have hwindow : InWindow start stop (message row).occurredAt := of_decide_eq_true hwindow
  have hmessage := message_of_row hrow
  have hpair : (row.sourceTable, row.eventType) ∈ outboxSourceEventTypes :=
    h.inv.kept.pairs _ (List.mem_map_of_mem hrow)
  have hkey : row.key = ((message row).sourceTable, (message row).sourcePk, row.eventType) := rfl
  rw [hkey]
  simp only [OperationalSnapshot.expectedOutboxKeys, List.mem_append]
  simp only [outboxSourceEventTypes, List.mem_cons, Prod.mk.injEq, List.not_mem_nil, or_false] at hpair
  rcases hpair with ⟨-, htype⟩ | ⟨-, htype⟩ | ⟨-, htype⟩ | ⟨-, htype⟩
  · -- The event of an entry.
    rw [htype] at hmessage ⊢
    obtain ⟨e, he, hinbound⟩ := partner h.inv.kept.inbound.flip hmessage
    obtain ⟨he, -⟩ := List.mem_filter.1 he
    obtain ⟨entry, hentry, hentered⟩ := partner h.inv.kept.entries.flip he
    obtain ⟨sku, -, -, hsku, -⟩ := h.judged (List.mem_filter.1 he).1
    have htime : InWindow start stop entry.createdAt := by rwa [← hentered.time, ← hinbound.time]
    rw [hentered.sku] at hsku
    have hjoin : entrySnapshot db entry = some _ := Option.map_eq_some_iff.2 ⟨sku, hsku, rfl⟩
    refine Or.inl (Or.inl (Or.inl (List.mem_map.2
      ⟨_, mem_joined StockEntry.createdAt hentry htime hjoin, ?_⟩)))
    rw [EntryRow.outboxKey, hinbound.source.1, hinbound.source.2, hentered.source]
  · -- The event of an order.
    rw [htype] at hmessage ⊢
    obtain ⟨placed, hplaced, hall⟩ := h.inv.announced
    rw [List.append_nil] at hplaced
    obtain ⟨o, ho, houtbound⟩ := partner hall.flip hmessage
    have htime : InWindow start stop o.createdAt := by rwa [← houtbound.time]
    refine Or.inl (Or.inl (Or.inr (List.mem_map.2 ⟨orderSnapshot o, List.mem_map_of_mem
      (List.mem_filter.2 ⟨hplaced ▸ ho, decide_eq_true htime⟩), ?_⟩)))
    rw [OrderRow.outboxKey, houtbound.source.1, houtbound.source.2]
    rfl
  · -- The event of a crossing.
    rw [htype] at hmessage ⊢
    obtain ⟨e, he, hcrossing⟩ := partner h.inv.kept.crossings.flip hmessage
    obtain ⟨he, hcrossed⟩ := List.mem_filter.1 he
    have htable := ((h.inv.kept.evaluations e he).crossed.1 hcrossed).1
    obtain ⟨m, hm, hcrosses, hmKey⟩ := h.crosses he (hcrossing.time ▸ hwindow) hcrossed
    refine Or.inl (Or.inr (List.mem_map.2 ⟨m, List.mem_filter.2 ⟨hm, hcrosses⟩, ?_⟩))
    rw [hmKey, htable, hcrossing.source.1, hcrossing.source.2]
  · -- The event of a count.
    rw [htype] at hmessage ⊢
    obtain ⟨c, hc, hdiscrepancy⟩ := partner h.inv.kept.discrepancies.flip hmessage
    obtain ⟨hc, hdiffers⟩ := List.mem_filter.1 hc
    obtain ⟨known, hknown, -⟩ := h.inv.kept.counts c hc
    obtain ⟨sku, hsku, -⟩ := sku_of_known hknown
    have htime : InWindow start stop c.confirmedAt := by rwa [← hdiscrepancy.time]
    have hjoin : countSnapshot db c = some _ := Option.map_eq_some_iff.2 ⟨sku, hsku, rfl⟩
    have hcount := mem_joined PhysicalCount.confirmedAt hc htime hjoin
    refine Or.inr (List.mem_map.2 ⟨_, List.mem_filter.2
      ⟨hcount, decide_eq_true (Ne.symm (of_decide_eq_true hdiffers))⟩, ?_⟩)
    rw [CountRow.outboxKey, hdiscrepancy.source.1, hdiscrepancy.source.2]

end Whole

/-! ## The destination -/

section Destination

variable {db : Tables} {start stop : Int} {τ : Relay.System}

/-- The tags of a message of the interval, which the telemetry keeps as they are. -/
theorem Honest.tags (h : Honest db) {row : OutboxRow} (hrow : row ∈ windowOutbox start stop db.outbox) :
    ∃ kvs, row.tags = .dict kvs ∧ kvs ≠ [] ∧ filterTags row.eventType row.tags = some row.tags := by
  have hkey := h.expected hrow []
  rw [← OperationalSnapshot.impliedEvents_keys] at hkey
  obtain ⟨event, hevent, heq⟩ := List.mem_map.1 hkey
  obtain ⟨row', hone, htags⟩ := h.implied hevent
  have hmem : row ∈ Pipelines.outboxRows (windowOutbox start stop db.outbox) event.key :=
    List.mem_filter.2 ⟨hrow, decide_eq_true heq.symm⟩
  rw [hone, List.mem_singleton] at hmem
  subst hmem
  obtain ⟨kvs, hdict, hne, hallowed⟩ := impliedEvents_tags hevent
  have htype : event.key.2.2 = row.eventType := by rw [heq]; rfl
  rw [hdict] at htags
  rw [htype] at hallowed
  obtain ⟨kvs', hdict'⟩ := PyValue.dict_of_eq htags
  refine ⟨kvs', hdict', ?_, filterTags_self htags hne hallowed⟩
  rintro rfl
  rw [hdict'] at htags
  exact hne (List.map_eq_nil_iff.1 (List.nil_perm.1 htags.keys))

/-- Tags that are the same once nothing is a mapping are the same. -/
theorem tags_of_canonical {tags : PyValue} {kvs : List (String × PyValue)} (hne : kvs ≠ [])
    (h : (if truthy tags then tags else .dict []).normal =
      (if truthy (.dict kvs) then .dict kvs else .dict [] : PyValue).normal) : tags.Eq (.dict kvs) := by
  have htruthy : truthy (.dict kvs) = true := by simpa [truthy] using hne
  rw [if_pos htruthy] at h
  by_cases ht : truthy tags = true
  · rwa [if_pos ht] at h
  · rw [if_neg ht] at h
    have hkeys := PyValue.Eq.keys h
    exact absurd (List.map_eq_nil_iff.1 (List.nil_perm.1 hkeys)) hne

/-- The messages of the tables are of official types. -/
theorem official_type : ∀ pair ∈ outboxSourceEventTypes, pair.2 ∈ EventType.all.map EventType.text := by
  decide

/-- The audit finds the telemetry of an acknowledged row. -/
theorem Honest.auditOutboxRow (h : Honest db) (hτ : Relay.Sound τ) (houtbox : τ.outbox = db.outbox)
    {row : OutboxRow} (hrow : row ∈ windowOutbox start stop db.outbox) (hp : row.pending = false) :
    auditOutboxRow (loadSnapshot start stop db τ.telemetry).officialTelemetry row = some [] := by
  obtain ⟨hmem, hwindow⟩ := List.mem_filter.1 hrow
  have hwindow : InWindow start stop row.occurredAt := of_decide_eq_true hwindow
  obtain ⟨kvs, hdict, hne, hfilter⟩ := h.tags hrow
  have hofficialType : row.eventType ∈ EventType.all.map EventType.text :=
    official_type _ (h.inv.kept.pairs _ (List.mem_map_of_mem hmem))
  obtain ⟨expected, target, hmap, htarget, hsame⟩ := hτ.published row (houtbox ▸ hmem) hp
  rw [mapOutboxEventToRow, hfilter] at hmap
  cases hmap
  simp only [canonicalDestination, Canonical.mk.injEq] at hsame
  obtain ⟨hid, htime, hservice, htype, hlevel, hvalue, hmessage, htags⟩ := hsame
  rw [hdict] at htags
  have htagsEq := tags_of_canonical hne htags
  have hofficial : target.official = true := by
    rw [TelemetryRecord.official, hservice, htype]
    exact decide_eq_true hofficialType
  have hmemTarget : target ∈ (loadSnapshot start stop db τ.telemetry).officialTelemetry := by
    refine List.mem_filter.2 ⟨List.mem_filter.2 ⟨htarget, ?_⟩, hofficial⟩
    exact decide_eq_true ⟨by rwa [htime], hofficial⟩
  have hkeys : ((loadSnapshot start stop db τ.telemetry).officialTelemetry.map TelemetryRecord.id).Nodup :=
    hτ.telemetryKeys.sublist ((List.filter_sublist.trans List.filter_sublist).map _)
  have hone := filter_key_eq hkeys hmemTarget
  rw [hid] at hone
  unfold Pipelines.auditOutboxRow auditTarget mapOutboxEventToRow
  rw [hone, hfilter, hp]
  simp only [Option.map_some, Bool.false_eq_true, if_false, List.nil_append]
  rw [if_pos]
  simp only [sameTarget, hid, hservice, htype, hlevel, hvalue, hmessage, htime, hdict, htagsEq, decide_true,
    Bool.and_self]

/-- The audit returns. -/
theorem Honest.returns (h : Honest db) (start stop : Int) (telemetry : List TelemetryRecord) :
    ∃ audit, auditOperationalSnapshot (loadSnapshot start stop db telemetry) = some audit := by
  refine audit_returns fun row hrow => ?_
  obtain ⟨-, -, -, hfilter⟩ := h.tags hrow
  rw [hfilter]
  rfl

/-- Of rows that nothing explains, only telemetry may be found. -/
theorem Honest.unexpectedDiagnostics (h : Honest db) (telemetry : List TelemetryRecord) :
    (loadSnapshot start stop db telemetry).unexpectedDiagnostics =
      if ∀ row ∈ (loadSnapshot start stop db telemetry).officialTelemetry,
        ∃ e ∈ windowOutbox start stop db.outbox, e.eventId = row.id then []
      else ["official_telemetry_without_outbox"] := by
  unfold OperationalSnapshot.unexpectedDiagnostics
  rw [if_pos, if_pos, if_pos]
  · rfl
  · intro key hkey
    rw [← OperationalSnapshot.impliedEvents_keys] at hkey
    obtain ⟨event, hevent, rfl⟩ := List.mem_map.1 hkey
    obtain ⟨row, hone, -⟩ := h.implied hevent
    have hmem : row ∈ Pipelines.outboxRows (windowOutbox start stop db.outbox) event.key := by
      rw [hone]
      exact List.mem_singleton_self row
    obtain ⟨hmem, hkey⟩ := List.mem_filter.1 hmem
    exact ⟨row, hmem, of_decide_eq_true hkey⟩
  · exact fun row hrow => h.expected hrow _
  · intro c hc
    obtain ⟨e, he, rfl⟩ := List.mem_map.1 hc
    obtain ⟨he, hwindow⟩ := List.mem_filter.1 he
    exact h.movement he (of_decide_eq_true hwindow) _

/-- What the audit may say of the relay and of the telemetry. -/
def relayDiagnostics : List String :=
  ["outbox_pending", "telemetry_target_count_mismatch", "telemetry_target_content_mismatch",
    "official_telemetry_without_outbox"]

theorem auditTarget_relay {official : List TelemetryRecord} {row : OutboxRow} {diagnostics : List String}
    (h : auditTarget official row = some diagnostics) : ∀ d ∈ diagnostics, d ∈ relayDiagnostics := by
  unfold auditTarget at h
  split at h
  · obtain ⟨expected, -, rfl⟩ := Option.map_eq_some_iff.1 h
    split <;> simp [relayDiagnostics]
  · cases h
    simp [relayDiagnostics]

theorem auditOutboxRow_relay {official : List TelemetryRecord} {row : OutboxRow}
    {diagnostics : List String} (h : Pipelines.auditOutboxRow official row = some diagnostics) :
    ∀ d ∈ diagnostics, d ∈ relayDiagnostics := by
  obtain ⟨target, htarget, rfl⟩ := Option.map_eq_some_iff.1 h
  intro d hd
  rcases List.mem_append.1 hd with hd | hd
  · split at hd
    · rw [List.mem_singleton.1 hd]
      simp [relayDiagnostics]
    · cases hd
  · exact auditTarget_relay htarget d hd

/-- What the audit of honest books finds is about the relay and the telemetry. -/
theorem Honest.diagnostics (h : Honest db) {telemetry : List TelemetryRecord}
    {audit : OperationalCoverageAudit}
    (haudit : auditOperationalSnapshot (loadSnapshot start stop db telemetry) = some audit) :
    ∀ d ∈ audit.diagnostics, d ∈ relayDiagnostics := by
  obtain ⟨targets, htargets, rfl⟩ := Option.map_eq_some_iff.1 haudit
  intro d hd
  rw [mem_sortedSet, h.sourceDiagnostics, List.nil_append, h.unexpectedDiagnostics] at hd
  rcases List.mem_append.1 hd with hd | hd
  · split at hd
    · cases hd
    · rw [List.mem_singleton.1 hd]
      simp [relayDiagnostics]
  · obtain ⟨diagnostics, hmem, hd⟩ := List.mem_flatten.1 hd
    obtain ⟨row, -, hrow⟩ := mem_of_mapM htargets hmem
    exact auditOutboxRow_relay hrow d hd

/-- The audit of honest books is clean when it has the telemetry of each message, and no other. -/
theorem Honest.clean (h : Honest db) (hτ : Relay.Sound τ) (houtbox : τ.outbox = db.outbox)
    (hpublished : ∀ e ∈ windowOutbox start stop db.outbox, e.pending = false)
    (hofficial : ∀ row ∈ windowTelemetry start stop τ.telemetry,
      ∃ e ∈ windowOutbox start stop db.outbox, e.eventId = row.id) {audit : OperationalCoverageAudit}
    (haudit : auditOperationalSnapshot (loadSnapshot start stop db τ.telemetry) = some audit) :
    audit.diagnostics = [] := by
  have hrows : ∀ row ∈ windowOutbox start stop db.outbox,
      Pipelines.auditOutboxRow (loadSnapshot start stop db τ.telemetry).officialTelemetry row = some [] :=
    fun row hrow => h.auditOutboxRow hτ houtbox hrow (hpublished row hrow)
  have hunexpected : (loadSnapshot start stop db τ.telemetry).unexpectedDiagnostics = [] := by
    rw [h.unexpectedDiagnostics, if_pos]
    exact fun row hrow => hofficial row (List.mem_filter.1 hrow).1
  unfold auditOperationalSnapshot at haudit
  obtain ⟨targets, htargets, rfl⟩ := Option.map_eq_some_iff.1 haudit
  have hflat : targets.flatten = [] := by
    refine List.flatten_eq_nil_iff.2 fun diagnostics hmem => ?_
    obtain ⟨row, hrow, heq⟩ := mem_of_mapM htargets hmem
    exact Option.some.inj (heq.symm.trans (hrows row hrow))
  dsimp only
  rw [h.sourceDiagnostics, hunexpected, hflat]
  rfl

/-- A clean audit has found each message acknowledged. -/
theorem published_of_clean {s : OperationalSnapshot} {audit : OperationalCoverageAudit}
    (haudit : auditOperationalSnapshot s = some audit) (hclean : audit.diagnostics = []) :
    ∀ e ∈ s.outbox, e.pending = false := by
  intro e he
  unfold auditOperationalSnapshot at haudit
  obtain ⟨targets, htargets, rfl⟩ := Option.map_eq_some_iff.1 haudit
  rw [sortedSet_eq_nil, List.append_eq_nil_iff] at hclean
  obtain ⟨diagnostics, hmem, heq⟩ := mapM_some_mem htargets he
  rw [List.flatten_eq_nil_iff.1 hclean.2 diagnostics hmem, Pipelines.auditOutboxRow] at heq
  obtain ⟨_, -, hnil⟩ := Option.map_eq_some_iff.1 heq
  by_contra hp
  rw [if_pos (by simpa using hp)] at hnil
  cases (List.append_eq_nil_iff.1 hnil).1

end Destination

/-- The books that the commands reach are honest. -/
theorem Honest.reached {Cl : Type} [DecidableEq Cl] {skus : List Sku}
    {σ : System Cl Tables Write Lock Unit ServiceError Unit} (hids : (skus.map Sku.id).Nodup)
    (h : Reachable tables Command (start skus) σ) (hproducts : ∀ sku ∈ σ.db.skus, Product sku) :
    Honest σ.db :=
  ⟨inv_reached (Inv.start hids) h, unique_reached (by simp [keyRows, insertsOf, start]) h, hproducts⟩

/-- **The audit finds nothing wrong in the books of the commands**: over any interval, in every state that
the commands and the relays reach, all it may find is about the relay and the telemetry, and it is complete
exactly when each message of the interval has been relayed, and the official telemetry of the interval is
theirs. -/
theorem honest_audit_clean {Cl : Type} [DecidableEq Cl] {skus : List Sku}
    {σ : System Cl Tables Write Lock Unit ServiceError Unit} {τ : Relay.System}
    (hids : (skus.map Sku.id).Nodup) (h : Reachable tables Command (start skus) σ)
    (hproducts : ∀ sku ∈ σ.db.skus, Product sku) (hτ : Relay.Reachable τ)
    (houtbox : τ.outbox = σ.db.outbox) (lower upper : Int) :
    ∃ audit, auditOperationalSnapshot (loadSnapshot lower upper σ.db τ.telemetry) = some audit ∧
      (∀ d ∈ audit.diagnostics, d ∈ relayDiagnostics) ∧
      (audit.complete = true ↔ (∀ e ∈ windowOutbox lower upper τ.outbox, e.pending = false) ∧
        ∀ row ∈ windowTelemetry lower upper τ.telemetry,
          ∃ e ∈ windowOutbox lower upper τ.outbox, e.eventId = row.id) := by
  have hhonest := Honest.reached hids h hproducts
  obtain ⟨audit, haudit⟩ := hhonest.returns lower upper τ.telemetry
  have hcomplete : audit.complete = true ↔ audit.diagnostics = [] := by
    obtain ⟨targets, -, rfl⟩ := Option.map_eq_some_iff.1 haudit
    simp [OperationalCoverageAudit.complete]
  refine ⟨audit, haudit, hhonest.diagnostics haudit,
    hcomplete.trans ⟨fun hclean => ?_, fun hrelayed => ?_⟩⟩
  · rw [houtbox]
    refine ⟨published_of_clean haudit hclean, fun row hrow => ?_⟩
    refine (accounted_of_clean haudit hclean).telemetry row (List.mem_filter.2 ⟨hrow, ?_⟩)
    exact (of_decide_eq_true (List.mem_filter.1 hrow).2).2
  · rw [houtbox] at hrelayed
    exact hhonest.clean hτ.sound houtbox hrelayed.1 hrelayed.2 haudit

/-! ### Shirts -/

/-- Relays leave the messages as they are. -/
theorem relay_messages {σ τ : Relay.System} (h : Relay.Steps σ τ) :
    ∃ new, τ.outbox.map message = σ.outbox.map message ++ new := by
  have hupdate : ∀ (id : Uuid) (change : OutboxRow → OutboxRow) (rows : List OutboxRow),
      (∀ e, message (change e) = message e) →
      (updateEvent id change rows).map message = rows.map message := by
    intro id change rows hchange
    rw [updateEvent, List.map_map]
    refine List.map_congr_left fun e _ => ?_
    simp only [Function.comp_apply]
    split
    · exact hchange e
    · rfl
  induction h with
  | refl => exact ⟨[], by simp⟩
  | step hsteps hstep ih =>
    obtain ⟨new, hnew⟩ := ih
    cases hstep with
    | enqueue e => exact ⟨new ++ [message e], by simp [hnew]⟩
    | acknowledge now hphase =>
      have hsame : ∀ e : OutboxRow, message (if e.pending then e.acknowledge now else e) = message e := by
        intro e
        split <;> rfl
      exact ⟨new, (hupdate _ _ _ hsame).trans hnew⟩
    | record now hphase => exact ⟨new, (hupdate _ (fun e => e.fail _ now) _ fun e => rfl).trans hnew⟩
    | _ => exact ⟨new, hnew⟩

theorem World.relayed {db : Tables} {rows : List OutboxRow} (hids : (db.skus.map Sku.id).Nodup)
    (hmessages : rows.map message = db.outbox.map message) : World db { db with outbox := rows } :=
  ⟨⟨[], (List.append_nil _).symm⟩, hids, rfl, rfl, rfl, rfl, rfl, hmessages⟩

/-- Rows that nobody relays yet. -/
def queued (rows : List OutboxRow) : Relay.System := { Relay.System.empty with outbox := rows }

/-- A task that is alone is a run of relays. -/
theorem relay_task_reachable {rows : List OutboxRow} {result : RelayResult} {after : Databases}
    (hkeys : (rows.map OutboxRow.eventId).Nodup) (hpending : ∀ e ∈ rows, e.pending = true)
    (hrun : relayOutboxTask (fun _ => {}) ⟨rows, []⟩ = (.ok result, after)) :
    ∃ τ new, Relay.Reachable τ ∧ after = ⟨τ.outbox, τ.telemetry⟩ ∧
      τ.outbox.map message = rows.map message ++ new := by
  have hqueued : Relay.Reachable (queued rows) := enqueue_steps (σ := .empty) hkeys hpending
  have hbegin : Relay.Step (queued rows) ((queued rows).move 0 (some (.ready 100))) :=
    .begin 100 rfl rfl (by decide)
  have hready : ((queued rows).move 0 (some (.ready 100))).relays 0 = some (.ready 100) := by
    rw [Relay.move_relays, if_pos rfl]
  have halone : Alone (queued rows) 0 := ⟨fun _ _ => rfl, fun _ _ => rfl⟩
  have hwriters : Writers (fun _ => {}) rows := by
    refine ⟨fun n => ?_, fun i a ha => by cases ha⟩
    rwa [committed, List.flatMap_eq_nil_iff.2 fun i _ => rfl, List.append_nil]
  obtain ⟨τ, hsteps, hafter⟩ :=
    relayLoop_steps hready (halone.move _) rfl hwriters (relayOutboxTask_ok hrun).1
  have hall := ((Relay.Steps.refl _).step hbegin).trans hsteps
  obtain ⟨new, hnew⟩ := relay_messages hall
  exact ⟨τ, new, hqueued.trans hall, hafter, hnew⟩

/-- A relay task with nothing else going on. -/
def relayedShirts : Except String RelayResult × Databases :=
  relayOutboxTask (fun _ => {}) ⟨(serially (start shirts) shirtCommands).outbox, []⟩

/-- The week of the shirts, relayed. -/
theorem honest_audit_clean_shirts :
    ∃ audit, auditOperationalSnapshot
      (loadSnapshot 0 100 { serially (start shirts) shirtCommands with outbox := relayedShirts.2.outbox }
        relayedShirts.2.telemetry) = some audit ∧ audit.complete = true := by
  obtain ⟨result, hresult⟩ : ∃ result, relayedShirts.1 = .ok result := exists_ok (by decide +kernel)
  obtain ⟨τ, new, hτ, hafter, hnew⟩ := relay_task_reachable (by decide +kernel) (by decide +kernel)
    (Prod.ext hresult rfl)
  have hout : relayedShirts.2.outbox = τ.outbox := congrArg Databases.outbox hafter
  have htelemetry : relayedShirts.2.telemetry = τ.telemetry := congrArg Databases.telemetry hafter
  have hnil : new = [] := by
    have hlength := congrArg List.length hnew
    rw [← hout, List.length_map, List.length_append, List.length_map,
      show relayedShirts.2.outbox.length = (serially (start shirts) shirtCommands).outbox.length by
        decide +kernel] at hlength
    exact List.eq_nil_of_length_eq_zero (by omega)
  have hmessages : relayedShirts.2.outbox.map message =
      (serially (start shirts) shirtCommands).outbox.map message := by
    rw [hout, hnew, hnil, List.append_nil]
  have hproducts : ∀ sku ∈ (serially (start shirts) shirtCommands).skus, Product sku := by
    intro sku hsku
    have hshirt : ∀ sku ∈ (serially (start shirts) shirtCommands).skus,
        sku.clientId.isSome = true ∧ sku.warehouse = Warehouse.value .la := by decide +kernel
    exact ⟨(hshirt sku hsku).1, .la, (hshirt sku hsku).2⟩
  obtain ⟨audit, haudit, -, hcomplete⟩ := honest_audit_clean (by decide)
    (shirtCommands_reachable.step (.world (World.relayed (by decide +kernel) hmessages))) hproducts hτ
    hout.symm 0 100
  rw [← htelemetry] at haudit hcomplete
  rw [← hout] at hcomplete
  exact ⟨audit, haudit, hcomplete.2 (by decide +kernel)⟩

end TrackFlow.Inventory.Books
