import TrackFlow.Pipelines.OperationalCoverage

/-!
# What a clean audit certifies

The source rows imply events (`impliedEvents`). A clean audit means that the outbox has exactly the
rows of these events and the telemetry exactly the rows of the outbox (`Accounted`).

- `Accounted.correspondence`: the official telemetry and the implied events correspond one to one,
  with equal tags;
- `Accounted.counters`: so the counters of the telemetry are those of the source rows;
- `outbox_length`, `outbox_change`, `telemetry_length`, `telemetry_change`: no single row of the
  outbox or of the official telemetry can be taken away, repeated or changed without a diagnostic;
- `clean_audit_sound`: all this together.
-/

namespace TrackFlow.Pipelines

open TrackFlow.Python

variable {s : OperationalSnapshot} {audit : OperationalCoverageAudit}

/-! ## Implied events -/

/-- An event that a source row implies: the key of its outbox row, and its tags. -/
structure ImpliedEvent where
  key : OutboxKey
  tags : PyValue

/-- The threshold event of a movement, if its only checkpoint crosses. -/
def MovementRow.implied (movement : MovementRow) (checkpoints : List CheckpointRow) : Option ImpliedEvent :=
  match movement.checkpoints checkpoints with
  | [checkpoint] => if movement.crossed checkpoint then some ⟨movement.outboxKey, movement.tags checkpoint⟩ else none
  | _ => none

namespace OperationalSnapshot

/-- The events that the source rows imply. -/
def impliedEvents (s : OperationalSnapshot) : List ImpliedEvent :=
  (s.entries.map fun e => ⟨e.outboxKey, e.tags⟩) ++ (s.orders.map fun o => ⟨o.outboxKey, o.tags⟩) ++
    (s.movementRows.filterMap fun m => m.implied s.checkpoints) ++
    ((s.counts.filter fun c => c.expectedQuantity ≠ c.observedQuantity).map fun c => ⟨c.outboxKey, c.tags⟩)

theorem impliedEvents_keys (s : OperationalSnapshot) :
    s.impliedEvents.map ImpliedEvent.key = s.expectedOutboxKeys := by
  have hmovement : ∀ m : MovementRow, (m.implied s.checkpoints).map ImpliedEvent.key =
      if s.crosses m then some m.outboxKey else none := by
    intro m
    unfold MovementRow.implied crosses
    rcases m.checkpoints s.checkpoints with _ | ⟨c, _ | ⟨c', cs⟩⟩
    · rfl
    · dsimp only
      split <;> rfl
    · rfl
  have hmovements : ∀ ms : List MovementRow, (ms.filterMap fun m => m.implied s.checkpoints).map
      ImpliedEvent.key =
      (ms.filter s.crosses).map MovementRow.outboxKey := by
    intro ms
    rw [List.map_filterMap]
    simp only [hmovement]
    rw [← List.filterMap_eq_filter, List.map_filterMap]
    refine List.filterMap_congr fun m _ => ?_
    by_cases hc : s.crosses m = true <;> simp [hc, Option.guard]
  simp only [impliedEvents, expectedOutboxKeys, List.map_append, List.map_map, hmovements]
  rfl

/-- The keys of the source rows are unique in each table, and so are the ids of the outbox. -/
structure UniqueRows (s : OperationalSnapshot) : Prop where
  entries : (s.entries.map EntryRow.id).Nodup
  orders : (s.orders.map OrderRow.id).Nodup
  movements : (s.movements.map fun m => (m.sourceTable, m.sourcePk)).Nodup
  counts : (s.counts.map CountRow.id).Nodup
  outbox : (s.outbox.map OutboxRow.eventId).Nodup

theorem movementRows_keys (s : OperationalSnapshot) :
    (s.movementRows.map fun m => (m.sourceTable, m.sourcePk)).Nodup :=
  firstBy_keys _

theorem mem_movementRows {m : MovementRow} (h : m ∈ s.movementRows) : m ∈ s.movements :=
  List.mem_reverse.1 (mem_firstBy h)

theorem nodup_append_of_types {l l' : List OutboxKey} (hl : l.Nodup) (hl' : l'.Nodup) (types : List String)
    (ht : ∀ k ∈ l, k.2.2 ∈ types) (ht' : ∀ k ∈ l', k.2.2 ∉ types) : (l ++ l').Nodup :=
  hl.append hl' fun k hk hk' => ht' k hk' (ht k hk)

/-- No two implied events have one key. -/
theorem expected_nodup (h : s.UniqueRows) : s.expectedOutboxKeys.Nodup := by
  have hentries : (s.entries.map EntryRow.outboxKey).Nodup := by
    have hmap := h.entries.map (f := fun id : Int =>
        (("stockentry", id, "inbound_order_created") : OutboxKey))
      fun _ _ heq => by simpa using heq
    rw [List.map_map] at hmap
    exact hmap
  have horders : (s.orders.map OrderRow.outboxKey).Nodup := by
    have hmap := h.orders.map (f := fun id : Int =>
        (("commercial_order", id, "outbound_order_created") : OutboxKey))
      fun _ _ heq => by simpa using heq
    rw [List.map_map] at hmap
    exact hmap
  have hmovements : ((s.movementRows.filter s.crosses).map MovementRow.outboxKey).Nodup := by
    have hkeys := (movementRows_keys s).sublist ((List.filter_sublist (p := s.crosses)).map _)
    have hmap := hkeys.map (f := fun k : String × Int =>
        ((k.1, k.2, "stock_threshold_triggered") : OutboxKey))
      fun a b heq => by
        simp only [Prod.mk.injEq, and_true] at heq
        exact Prod.ext heq.1 heq.2
    rw [List.map_map] at hmap
    exact hmap
  have hcounts : ((s.counts.filter fun c => c.expectedQuantity ≠ c.observedQuantity).map
      CountRow.outboxKey).Nodup := by
    have hkeys := h.counts.sublist
        ((List.filter_sublist (p := fun c => decide (c.expectedQuantity ≠ c.observedQuantity))).map _)
    have hmap := hkeys.map
      (f := fun id : Int =>
        (("inventory_physical_count", id, "inventory_discrepancy_detected") : OutboxKey)) fun _ _ heq =>
      by simpa using heq
    rw [List.map_map] at hmap
    exact hmap
  -- The kinds are told apart by the event type.
  have htype : ∀ {α : Type} {l : List α} {f : α → OutboxKey} {t : String}, (∀ a, (f a).2.2 = t) →
      ∀ k ∈ l.map f, k.2.2 = t := by
    intro α l f t hf k hk
    obtain ⟨a, -, rfl⟩ := List.mem_map.1 hk
    exact hf a
  have hE : ∀ k ∈ s.entries.map EntryRow.outboxKey, k.2.2 = "inbound_order_created" := htype fun _ => rfl
  have hO : ∀ k ∈ s.orders.map OrderRow.outboxKey, k.2.2 = "outbound_order_created" := htype fun _ => rfl
  have hM : ∀ k ∈ (s.movementRows.filter s.crosses).map MovementRow.outboxKey, k.2.2 =
      "stock_threshold_triggered" :=
    htype fun _ => rfl
  have hC : ∀ k ∈ (s.counts.filter fun c => c.expectedQuantity ≠ c.observedQuantity).map CountRow.outboxKey,
      k.2.2 = "inventory_discrepancy_detected" := htype fun _ => rfl
  have hEO := nodup_append_of_types hentries horders ["inbound_order_created"] (fun k hk =>
      by simp [hE k hk])
    fun k hk => by simp [hO k hk]
  have hEOM := nodup_append_of_types hEO hmovements ["inbound_order_created", "outbound_order_created"]
    (fun k hk => by rcases List.mem_append.1 hk with hk | hk <;> simp [hE, hO, hk]) fun k hk => by
      simp [hM k hk]
  refine nodup_append_of_types hEOM hcounts
    ["inbound_order_created", "outbound_order_created", "stock_threshold_triggered"] (fun k hk =>
        ?_) fun k hk => by simp [hC k hk]
  rcases List.mem_append.1 hk with hk | hk
  · rcases List.mem_append.1 hk with hk | hk <;> simp [hE, hO, hk]
  · simp [hM k hk]

end OperationalSnapshot

open OperationalSnapshot

/-! ## A clean audit -/

/-- Exactly one outbox row for an event, with its tags. -/
def RowFor (outbox : List OutboxRow) (event : ImpliedEvent) : Prop :=
  ∃ row, outboxRows outbox event.key = [row] ∧ row.tags.Eq event.tags

/-- Exactly one official telemetry row for an outbox row, with its content. -/
def TargetFor (official : List TelemetryRecord) (row : OutboxRow) : Prop :=
  ∃ target expected, (official.filter fun t => t.id = row.eventId) = [target] ∧ mapOutboxEventToRow row =
    some expected ∧ sameTarget target expected = true

/-- What a clean audit certifies. -/
structure Accounted (s : OperationalSnapshot) : Prop where
  implied : ∀ event ∈ s.impliedEvents, RowFor s.outbox event
  expected : ∀ row ∈ s.outbox, row.key ∈ s.expectedOutboxKeys
  targets : ∀ row ∈ s.outbox, TargetFor s.officialTelemetry row
  telemetry : ∀ target ∈ s.officialTelemetry, ∃ row ∈ s.outbox, row.eventId = target.id

theorem exactOutbox_nil {outbox : List OutboxRow} {key : OutboxKey} {expected : PyValue} {mismatch : String}
    (h : exactOutbox outbox key expected mismatch = []) : RowFor outbox ⟨key, expected⟩ := by
  unfold exactOutbox at h
  split at h
  · split at h
    · exact ⟨_, ‹_›, ‹_›⟩
    · cases h
  · cases h

theorem auditMovement_nil {outbox : List OutboxRow} {checkpoints : List CheckpointRow} {m : MovementRow}
    (h : auditMovement outbox checkpoints m = []) {event : ImpliedEvent}
    (hi : m.implied checkpoints = some event) : RowFor outbox event := by
  unfold auditMovement at h
  unfold MovementRow.implied at hi
  split at h
  · rename_i checkpoint hone
    rw [hone] at hi
    dsimp only at hi
    split at hi
    · rename_i hcrossed
      cases hi
      have hthreshold := (List.append_eq_nil_iff.1 h).2
      unfold auditThreshold at hthreshold
      rw [if_pos hcrossed] at hthreshold
      split at hthreshold
      · split at hthreshold
        · cases hthreshold
        · split at hthreshold
          · exact ⟨_, ‹_›, ‹_›⟩
          · cases hthreshold
      · cases hthreshold
    · cases hi
  · cases h

theorem auditCount_nil {outbox : List OutboxRow} {c : CountRow} (h : auditCount outbox c = [])
    (hd : c.expectedQuantity ≠ c.observedQuantity) : RowFor outbox ⟨c.outboxKey, c.tags⟩ := by
  unfold auditCount at h
  split at h
  · simp [hd] at h
  · rename_i row hone
    rw [if_neg hd] at h
    split at h
    · exact ⟨row, hone, ‹_›⟩
    · cases h
  · simp [hd] at h

theorem auditOutboxRow_nil {official : List TelemetryRecord} {row : OutboxRow}
    (h : auditOutboxRow official row = some []) : TargetFor official row := by
  unfold auditOutboxRow at h
  obtain ⟨diagnostics, htarget, hnil⟩ := Option.map_eq_some_iff.1 h
  obtain rfl := (List.append_eq_nil_iff.1 hnil).2
  unfold auditTarget at htarget
  split at htarget
  · obtain ⟨expected, hmap, hsame⟩ := Option.map_eq_some_iff.1 htarget
    split at hsame
    · exact ⟨_, expected, ‹_›, hmap, ‹_›⟩
    · cases hsame
  · cases htarget

theorem guarded_nil {p : Prop} [Decidable p] {x : String} (h : (if p then [] else [x]) = []) : p := by
  by_contra hp
  rw [if_neg hp] at h
  cases h

theorem mapM_some_mem {α β : Type} {f : α → Option β} : ∀ {l : List α} {r : List β}, l.mapM f = some r →
    ∀ {a : α}, a ∈ l → ∃ b ∈ r, f a = some b
  | [], _, _, _, ha => by cases ha
  | x :: l, r, h, a, ha => by
    rw [List.mapM_cons] at h
    obtain ⟨b, hb, h⟩ := Option.bind_eq_some_iff.1 h
    obtain ⟨bs, hbs, h⟩ := Option.bind_eq_some_iff.1 h
    cases h
    rcases List.mem_cons.1 ha with rfl | ha
    · exact ⟨b, List.mem_cons_self .., hb⟩
    · obtain ⟨c, hc, hac⟩ := mapM_some_mem hbs ha
      exact ⟨c, List.mem_cons_of_mem _ hc, hac⟩

/-- A clean audit certifies the snapshot. -/
theorem accounted_of_clean (haudit : auditOperationalSnapshot s = some audit)
    (hclean : audit.diagnostics = []) : Accounted s := by
  unfold auditOperationalSnapshot at haudit
  obtain ⟨targets, htargets, rfl⟩ := Option.map_eq_some_iff.1 haudit
  rw [sortedSet_eq_nil, List.append_eq_nil_iff, List.append_eq_nil_iff] at hclean
  obtain ⟨⟨hsource, hunexpected⟩, hflat⟩ := hclean
  simp only [sourceDiagnostics, List.append_eq_nil_iff, List.flatMap_eq_nil_iff] at hsource
  obtain ⟨⟨⟨⟨-, hentries⟩, horders⟩, hmovements⟩, hcounts⟩ := hsource
  simp only [unexpectedDiagnostics, List.append_eq_nil_iff] at hunexpected
  obtain ⟨⟨⟨-, hexpected⟩, -⟩, htelemetry⟩ := hunexpected
  refine ⟨fun event hevent => ?_, guarded_nil hexpected, fun row hrow => ?_, guarded_nil htelemetry⟩
  · simp only [impliedEvents, List.mem_append] at hevent
    rcases hevent with ((hevent | hevent) | hevent) | hevent
    · obtain ⟨entry, hentry, rfl⟩ := List.mem_map.1 hevent
      exact exactOutbox_nil (hentries entry hentry)
    · obtain ⟨order, horder, rfl⟩ := List.mem_map.1 hevent
      exact exactOutbox_nil (List.append_eq_nil_iff.1 (horders order horder)).2
    · obtain ⟨m, hm, hi⟩ := List.mem_filterMap.1 hevent
      exact auditMovement_nil (hmovements m hm) hi
    · obtain ⟨c, hc, rfl⟩ := List.mem_map.1 hevent
      obtain ⟨hc, hd⟩ := List.mem_filter.1 hc
      exact auditCount_nil (hcounts c hc) (of_decide_eq_true hd)
  · have hresult : ∃ diagnostics ∈ targets, auditOutboxRow s.officialTelemetry row = some diagnostics :=
      mapM_some_mem htargets hrow
    obtain ⟨diagnostics, hmem, heq⟩ := hresult
    have hnil : diagnostics = [] := List.flatten_eq_nil_iff.1 hflat diagnostics hmem
    rw [hnil] at heq
    exact auditOutboxRow_nil heq

/-! ## One to one -/

/-- The outbox has the expected keys. -/
theorem Accounted.keys (h : Accounted s) (hkeys : s.expectedOutboxKeys.Nodup) :
    (s.outbox.map OutboxRow.key).Perm s.expectedOutboxKeys := by
  refine perm_of_single hkeys (fun key hkey => ?_) h.expected
  rw [← impliedEvents_keys] at hkey
  obtain ⟨event, hevent, rfl⟩ := List.mem_map.1 hkey
  obtain ⟨row, hrow, -⟩ := h.implied event hevent
  exact congrArg List.length hrow

/-- The official telemetry has the ids of the outbox. -/
theorem Accounted.ids (h : Accounted s) (hids : (s.outbox.map OutboxRow.eventId).Nodup) :
    (s.officialTelemetry.map TelemetryRecord.id).Perm (s.outbox.map OutboxRow.eventId) := by
  refine perm_of_single hids (fun id hid => ?_) fun target htarget => ?_
  · obtain ⟨row, hrow, rfl⟩ := List.mem_map.1 hid
    obtain ⟨target, -, hone, -, -⟩ := h.targets row hrow
    exact congrArg List.length hone
  · obtain ⟨row, hrow, heq⟩ := h.telemetry target htarget
    rw [← heq]
    exact List.mem_map_of_mem hrow

/-- An outbox row is the row of some event. -/
theorem Accounted.event (h : Accounted s) {row : OutboxRow} (hrow : row ∈ s.outbox) :
    ∃ event ∈ s.impliedEvents, event.key = row.key ∧ row.tags.Eq event.tags := by
  have hkey := h.expected row hrow
  rw [← impliedEvents_keys] at hkey
  obtain ⟨event, hevent, heq⟩ := List.mem_map.1 hkey
  obtain ⟨row', hone, htags⟩ := h.implied event hevent
  have hmem : row ∈ outboxRows s.outbox event.key := List.mem_filter.2 ⟨hrow, decide_eq_true heq.symm⟩
  rw [hone, List.mem_singleton] at hmem
  exact ⟨event, hevent, heq, hmem ▸ htags⟩

/-- The properties that the telemetry keeps of an event type. -/
def allowedTags (eventType : String) : List String :=
  ((eventPropertyAllowlists.find? fun entry => entry.1 = eventType).map Prod.snd).getD []

/-- The tags of an implied event are a mapping, all of which the telemetry keeps. -/
theorem impliedEvents_tags {event : ImpliedEvent} (h : event ∈ s.impliedEvents) :
    ∃ kvs, event.tags = .dict kvs ∧ kvs ≠ [] ∧ ∀ k ∈ kvs.map Prod.fst, k ∈ allowedTags event.key.2.2 := by
  simp only [impliedEvents, List.mem_append] at h
  rcases h with ((h | h) | h) | h
  · obtain ⟨entry, -, rfl⟩ := List.mem_map.1 h
    exact ⟨_, rfl, by simp, by simp only [List.map_cons, List.map_nil, EntryRow.outboxKey]; decide⟩
  · obtain ⟨order, -, rfl⟩ := List.mem_map.1 h
    exact ⟨_, rfl, by simp, by simp only [List.map_cons, List.map_nil, OrderRow.outboxKey]; decide⟩
  · obtain ⟨m, -, hi⟩ := List.mem_filterMap.1 h
    unfold MovementRow.implied at hi
    split at hi
    · split at hi
      · cases hi
        exact ⟨_, rfl, by simp, by simp only [List.map_cons, List.map_nil, MovementRow.outboxKey]; decide⟩
      · cases hi
    · cases hi
  · obtain ⟨c, -, rfl⟩ := List.mem_map.1 h
    exact ⟨_, rfl, by simp, by simp only [List.map_cons, List.map_nil, CountRow.outboxKey]; decide⟩

/-- Nothing is filtered from tags that are all kept. -/
theorem filterTags_self {eventType : String} {tags : PyValue} {kvs : List (String × PyValue)}
    (h : tags.Eq (.dict kvs))
    (hne : kvs ≠ []) (hallowed : ∀ k ∈ kvs.map Prod.fst, k ∈ allowedTags eventType) :
    filterTags eventType tags = some tags := by
  obtain ⟨kvs', rfl⟩ := PyValue.dict_of_eq h
  have hkeys := h.keys
  have hne' : kvs' ≠ [] := by
    rintro rfl
    exact hne (List.map_eq_nil_iff.1 (List.nil_perm.1 hkeys))
  have hall : ∀ item ∈ kvs', item.1 ∈ allowedTags eventType := fun item hitem =>
    hallowed _ (hkeys.mem_iff.1 (List.mem_map_of_mem hitem))
  have hsome : (allowedTags eventType).isEmpty = false := by
    obtain ⟨item, hitem⟩ := List.exists_mem_of_ne_nil _ hne'
    rw [List.isEmpty_eq_false_iff]
    exact List.ne_nil_of_mem (hall item hitem)
  have htruthy : truthy (.dict kvs') = true := by simpa [truthy] using hne'
  unfold filterTags
  change (if (allowedTags eventType).isEmpty || !truthy (.dict kvs') then some (PyValue.dict [])
    else some (.dict (kvs'.filter fun item => item.1 ∈ allowedTags eventType))) = some (.dict kvs')
  rw [hsome, htruthy]
  simp only [Bool.not_true, Bool.or_self, Bool.false_eq_true, if_false]
  rw [List.filter_eq_self.2 fun item hitem => decide_eq_true (hall item hitem)]

theorem sameTarget_spec {target expected : TelemetryRecord} (h : sameTarget target expected = true) :
    target.id = expected.id ∧ target.service = expected.service ∧ target.eventType = expected.eventType ∧
      target.tags.Eq expected.tags ∧ target.timestamp = expected.timestamp := by
  simp only [sameTarget, Bool.and_eq_true, decide_eq_true_eq] at h
  obtain ⟨⟨⟨⟨⟨⟨⟨hid, hservice⟩, htype⟩, -⟩, -⟩, -⟩, htags⟩, htime⟩ := h
  exact ⟨hid, hservice, htype, htags, htime⟩

/-- What the official row of an outbox row says. -/
theorem Accounted.target (h : Accounted s) {row : OutboxRow} (hrow : row ∈ s.outbox) :
    ∃ target, (s.officialTelemetry.filter fun t => t.id = row.eventId) = [target] ∧
      target.id = row.eventId ∧ target.service = "api" ∧ target.eventType = row.eventType ∧
      target.timestamp = row.occurredAt ∧ target.tags.Eq row.tags := by
  obtain ⟨target, expected, hone, hmap, hsame⟩ := h.targets row hrow
  obtain ⟨event, hevent, hkey, htags⟩ := h.event hrow
  obtain ⟨kvs, hdict, hne, hallowed⟩ := impliedEvents_tags hevent
  have htype : event.key.2.2 = row.eventType := by rw [hkey]; rfl
  rw [hdict] at htags
  rw [htype] at hallowed
  rw [mapOutboxEventToRow, filterTags_self htags hne hallowed] at hmap
  cases hmap
  obtain ⟨hid, hservice, heventType, htargetTags, htime⟩ := sameTarget_spec hsame
  exact ⟨target, hone, hid, hservice, heventType, htime, htargetTags⟩

/-- A telemetry row carries an implied event. -/
def Carries (target : TelemetryRecord) (event : ImpliedEvent) : Prop :=
  target.eventType = event.key.2.2 ∧ target.tags.Eq event.tags

/-- The official telemetry and the implied events correspond one to one. -/
theorem Accounted.correspondence (h : Accounted s) (hu : s.UniqueRows) :
    ∃ rows, rows.Perm s.officialTelemetry ∧ List.Forall₂ Carries rows s.impliedEvents := by
  have hkeys := expected_nodup hu
  have hexists : ∀ event ∈ s.impliedEvents, ∃ target ∈ s.officialTelemetry, Carries target event ∧
      ∃ row ∈ s.outbox, row.eventId = target.id ∧ row.key = event.key := by
    intro event hevent
    obtain ⟨row, hone, htags⟩ := h.implied event hevent
    have hrow : row ∈ outboxRows s.outbox event.key := by simp [hone]
    obtain ⟨hrow, hkey⟩ := List.mem_filter.1 hrow
    have hkey : row.key = event.key := of_decide_eq_true hkey
    obtain ⟨target, htarget, hid, -, htype, -, htargetTags⟩ := h.target hrow
    have hmem : target ∈ s.officialTelemetry :=
      List.mem_of_mem_filter (by rw [htarget]; exact List.mem_singleton_self _)
    refine ⟨target, hmem, ⟨?_, htargetTags.trans htags⟩, row, hrow, hid.symm, hkey⟩
    rw [htype, ← hkey]
    rfl
  have hnodup : (s.impliedEvents.map ImpliedEvent.key).Nodup := by rwa [impliedEvents_keys]
  have : Nonempty TelemetryRecord := ⟨⟨Uuid.ofNat 0, 0, "", "", none, none, none, .none⟩⟩
  choose! target htarget using hexists
  refine ⟨s.impliedEvents.map target, ?_, ?_⟩
  · have hinj : ∀ a ∈ s.impliedEvents, ∀ b ∈ s.impliedEvents, target a = target b → a = b := by
      intro a ha b hb hab
      obtain ⟨-, -, row, hrow, hid, hkey⟩ := htarget a ha
      obtain ⟨-, -, row', hrow', hid', hkey'⟩ := htarget b hb
      have hsame : row = row' := List.inj_on_of_nodup_map hu.outbox hrow hrow' (by rw [hid, hid', hab])
      exact List.inj_on_of_nodup_map hnodup ha hb (by rw [← hkey, ← hkey', hsame])
    have hsub : (s.impliedEvents.map target).Subperm s.officialTelemetry := by
      refine List.subperm_of_subset (List.Nodup.map_on hinj (nodup_of_keys hnodup)) fun t ht => ?_
      obtain ⟨event, hevent, rfl⟩ := List.mem_map.1 ht
      exact (htarget event hevent).1
    refine hsub.perm_of_length_le (le_of_eq ?_)
    have hlength := (h.ids hu.outbox).length_eq.trans (by simpa using (h.keys hkeys).length_eq)
    rw [List.length_map] at hlength ⊢
    rw [hlength, ← impliedEvents_keys, List.length_map]
  · rw [List.forall₂_map_left_iff, List.forall₂_same]
    exact fun event hevent => (htarget event hevent).2.1

/-! ## Counters -/

/-- A tag as a number. -/
def tagNumber (v : PyValue) : Rat :=
  match v.normal with
  | .leaf (.num q) => q
  | _ => 0

theorem tagNumber_congr {a b : PyValue} (h : a.Eq b) : tagNumber a = tagNumber b := by
  unfold tagNumber
  rw [show a.normal = b.normal from h]

/-- Whether tags belong to a warehouse and a client. -/
def tagsOf (warehouse clientId : Option String) (tags : PyValue) : Bool :=
  decide ((tags.get "warehouse").Eq (optionText warehouse)) &&
      decide ((tags.get "client_id").Eq (optionText clientId))

theorem tagsOf_congr {a b : PyValue} (h : a.Eq b) (warehouse clientId : Option String) :
    tagsOf warehouse clientId a = tagsOf warehouse clientId b := by
  have hiff : ∀ (key : String) (v : PyValue), (a.get key).Eq v ↔ (b.get key).Eq v := fun key v =>
    ⟨fun hv => (h.get key).symm.trans hv, fun hv => (h.get key).trans hv⟩
  simp only [tagsOf, hiff]

/-- The counter of a type for a warehouse and a client, over events given by their type and tags:
the units of inbound events, the number of others. -/
def counterOf (items : List (String × PyValue)) (t : EventType)
    (warehouse clientId : Option String) : Rat :=
  ((items.filter fun item => item.1 = t.text && tagsOf warehouse clientId item.2).map fun item =>
    if t = .inboundOrderCreated then tagNumber (item.2.get "quantity") else 1).sum

/-- The counter of telemetry rows. -/
def telemetryCounter (rows : List TelemetryRecord) (t : EventType)
    (warehouse clientId : Option String) : Rat :=
  counterOf (rows.map fun row => (row.eventType, row.tags)) t warehouse clientId

/-- The counter of the source rows. -/
def sourceCounter (s : OperationalSnapshot) (t : EventType) (warehouse clientId : Option String) : Rat :=
  match t with
  | .inboundOrderCreated =>
    ((s.entries.filter fun e => auditWarehouse e.warehouse = warehouse ∧ e.clientId = clientId).map fun e =>
      (e.quantity : Rat)).sum
  | .outboundOrderCreated =>
      s.orders.countP fun o => auditWarehouse o.warehouse = warehouse ∧ some o.clientId = clientId
  | .stockThresholdTriggered => s.movements.countP fun m =>
      s.crosses m ∧ auditWarehouse m.warehouse = warehouse ∧ m.clientId = clientId
  | .inventoryDiscrepancyDetected => s.counts.countP fun c => c.expectedQuantity ≠ c.observedQuantity ∧
      auditWarehouse c.warehouse = warehouse ∧ some c.clientId = clientId

theorem counterOf_append (l l' : List (String × PyValue)) (t : EventType)
    (warehouse clientId : Option String) :
    counterOf (l ++ l') t warehouse clientId = counterOf l t warehouse clientId +
      counterOf l' t warehouse clientId := by
  simp [counterOf]

theorem counterOf_perm {l l' : List (String × PyValue)} (h : l.Perm l') (t : EventType)
    (warehouse clientId : Option String) :
    counterOf l t warehouse clientId = counterOf l' t warehouse clientId :=
  ((h.filter _).map _).sum_eq

theorem counterOf_cons (item : String × PyValue) (l : List (String × PyValue)) (t : EventType)
    (warehouse clientId : Option String) : counterOf (item :: l) t warehouse clientId =
      (if item.1 = t.text ∧ tagsOf warehouse clientId item.2 then
        if t = .inboundOrderCreated then tagNumber (item.2.get "quantity") else 1 else 0) +
        counterOf l t warehouse clientId := by
  unfold counterOf
  by_cases h : item.1 = t.text ∧ tagsOf warehouse clientId item.2 = true
  · rw [List.filter_cons_of_pos (by simpa using h), if_pos h, List.map_cons, List.sum_cons]
  · rw [List.filter_cons_of_neg (by simpa using h), if_neg h, zero_add]

/-- Rows count like the events that they carry. -/
theorem counterOf_carries {rows : List TelemetryRecord} {events : List ImpliedEvent}
    (h : List.Forall₂ Carries rows events)
    (t : EventType) (warehouse clientId : Option String) : telemetryCounter rows t warehouse clientId =
      counterOf (events.map fun e => (e.key.2.2, e.tags)) t warehouse clientId := by
  unfold telemetryCounter
  induction h with
  | nil => rfl
  | cons hcarries _ ih =>
    obtain ⟨htype, htags⟩ := hcarries
    rw [List.map_cons, List.map_cons, counterOf_cons, counterOf_cons, ih]
    simp only [htype, tagsOf_congr htags, tagNumber_congr (htags.get "quantity")]

theorem optionText_eq {a b : Option String} : (optionText a).Eq (optionText b) ↔ a = b := by
  cases a <;> cases b <;> simp [optionText, PyValue.Eq, PyValue.normal]

theorem tagsOf_iff {warehouse clientId w c : Option String} {tags : PyValue}
    (hw : tags.get "warehouse" = optionText w) (hc : tags.get "client_id" = optionText c) :
    tagsOf warehouse clientId tags = true ↔ w = warehouse ∧ c = clientId := by
  unfold tagsOf
  rw [hw, hc, Bool.and_eq_true, decide_eq_true_eq, decide_eq_true_eq, optionText_eq, optionText_eq]

/-- The counter of events of one type, one for each source row. -/
theorem counterOf_map {α : Type} (l : List α) (type : EventType) (tags : α → PyValue)
    (w c : α → Option String)
    (hw : ∀ a, (tags a).get "warehouse" = optionText (w a))
    (hc : ∀ a, (tags a).get "client_id" = optionText (c a))
    (t : EventType) (warehouse clientId : Option String) :
    counterOf (l.map fun a => (type.text, tags a)) t warehouse clientId =
      if type = t then ((l.filter fun a => w a = warehouse ∧ c a = clientId).map fun a =>
        if t = .inboundOrderCreated then tagNumber ((tags a).get "quantity") else 1).sum else 0 := by
  have htext : type.text = t.text ↔ type = t := by
    constructor
    · intro h
      have hof := EventType.ofText_text type
      rw [h, EventType.ofText_text, Option.some.injEq] at hof
      exact hof.symm
    · rintro rfl
      rfl
  unfold counterOf
  by_cases ht : type = t
  · rw [if_pos ht, List.filter_map, List.map_map]
    have hfilter : (fun item : String × PyValue => decide (item.1 = t.text) &&
        tagsOf warehouse clientId item.2) ∘
        (fun a => (type.text, tags a)) = fun a => decide (w a = warehouse ∧ c a = clientId) := by
      funext a
      rw [Bool.eq_iff_iff]
      simp only [Function.comp_apply, Bool.and_eq_true, decide_eq_true_eq, ht, true_and,
        tagsOf_iff (hw a) (hc a)]
    rw [hfilter]
    rfl
  · rw [if_neg ht, List.filter_eq_nil_iff.2]
    · rfl
    · intro item hitem
      obtain ⟨a, -, rfl⟩ := List.mem_map.1 hitem
      simp [htext, ht]

theorem sum_map_one {α : Type} (l : List α) (p : α → Prop) [DecidablePred p] :
    ((l.filter fun a => p a).map fun _ => (1 : Rat)).sum = l.countP fun a => p a := by
  rw [List.countP_eq_length_filter]
  induction l.filter fun a => decide (p a) with
  | nil => rfl
  | cons a l ih => rw [List.map_cons, List.sum_cons, ih, List.length_cons, Nat.cast_succ, add_comm]

/-- The counter of the threshold events. -/
theorem counterOf_movements (checkpoints : List CheckpointRow) (t : EventType)
    (warehouse clientId : Option String) :
    ∀ ms : List MovementRow, counterOf ((ms.filterMap fun m => m.implied checkpoints).map fun e =>
        (e.key.2.2, e.tags)) t
        warehouse clientId =
      if .stockThresholdTriggered = t then ((ms.countP fun m => (m.implied checkpoints).isSome ∧
        auditWarehouse m.warehouse = warehouse ∧ m.clientId = clientId : Nat) : Rat) else 0
  | [] => by simp [counterOf]
  | m :: ms => by
    have ih := counterOf_movements checkpoints t warehouse clientId ms
    cases hi : m.implied checkpoints with
    | none => rw [List.filterMap_cons, hi, ih, List.countP_cons_of_neg (by simp [hi])]
    | some event =>
      have hevent : event.key.2.2 = EventType.stockThresholdTriggered.text ∧
          event.tags.get "warehouse" = optionText (auditWarehouse m.warehouse) ∧
          event.tags.get "client_id" = optionText m.clientId := by
        unfold MovementRow.implied at hi
        split at hi
        · split at hi
          · cases hi
            exact ⟨rfl, rfl, rfl⟩
          · cases hi
        · cases hi
      obtain ⟨htype, hw, hc⟩ := hevent
      rw [List.filterMap_cons, hi, List.map_cons, counterOf_cons, ih, htype]
      by_cases ht : EventType.stockThresholdTriggered = t
      · subst ht
        by_cases hmatch : auditWarehouse m.warehouse = warehouse ∧ m.clientId = clientId
        · rw [List.countP_cons_of_pos (by simp [hi, hmatch]), if_pos ⟨rfl, (tagsOf_iff hw hc).2 hmatch⟩]
          simp [add_comm]
        · rw [List.countP_cons_of_neg (by simpa only [hi, Option.isSome_some, true_and, decide_eq_true_eq]),
            if_neg fun h => hmatch ((tagsOf_iff hw hc).1 h.2), zero_add]
      · have htext : ¬EventType.stockThresholdTriggered.text = t.text := by
          intro heq
          have hof := EventType.ofText_text EventType.stockThresholdTriggered
          rw [heq, EventType.ofText_text, Option.some.injEq] at hof
          exact ht hof.symm
        rw [if_neg ht, if_neg fun h => htext h.1, if_neg ht, zero_add]

theorem implied_isSome (m : MovementRow) : (m.implied s.checkpoints).isSome = s.crosses m := by
  unfold MovementRow.implied crosses
  rcases m.checkpoints s.checkpoints with _ | ⟨c, _ | ⟨c', cs⟩⟩
  · rfl
  · dsimp only
    split <;> simp_all
  · rfl

/-- The implied events count like the source rows. -/
theorem counterOf_implied (hu : s.UniqueRows) (t : EventType) (warehouse clientId : Option String) :
    counterOf (s.impliedEvents.map fun e => (e.key.2.2, e.tags)) t warehouse clientId =
      sourceCounter s t warehouse clientId := by
  have hmovements : s.movementRows = s.movements.reverse := by
    refine firstBy_of_nodup ?_
    rw [List.map_reverse, List.nodup_reverse]
    exact hu.movements
  have hentries := counterOf_map s.entries .inboundOrderCreated EntryRow.tags
    (fun e => auditWarehouse e.warehouse) EntryRow.clientId (fun _ => rfl) (fun _ => rfl) t
      warehouse clientId
  have horders := counterOf_map s.orders .outboundOrderCreated OrderRow.tags
    (fun o => auditWarehouse o.warehouse) (fun o => some o.clientId) (fun _ => rfl) (fun _ => rfl) t
      warehouse clientId
  have hcounts := counterOf_map (s.counts.filter fun c => c.expectedQuantity ≠ c.observedQuantity)
    .inventoryDiscrepancyDetected CountRow.tags (fun c => auditWarehouse c.warehouse)
      (fun c => some c.clientId) (fun _ => rfl) (fun _ => rfl) t warehouse clientId
  have hthresholds := counterOf_movements s.checkpoints t warehouse clientId s.movements.reverse
  simp only [impliedEvents, List.map_append, List.map_map, hmovements, counterOf_append]
  change counterOf (s.entries.map fun e => (EventType.inboundOrderCreated.text, e.tags)) t warehouse
      clientId +
    counterOf (s.orders.map fun o => (EventType.outboundOrderCreated.text, o.tags)) t warehouse clientId +
    counterOf ((s.movements.reverse.filterMap fun m => m.implied s.checkpoints).map fun e =>
        (e.key.2.2, e.tags)) t
      warehouse clientId +
    counterOf ((s.counts.filter fun c => c.expectedQuantity ≠ c.observedQuantity).map fun c =>
      (EventType.inventoryDiscrepancyDetected.text, c.tags)) t warehouse clientId = _
  rw [hentries, horders, hcounts, hthresholds]
  simp only [implied_isSome]
  cases t
  · simp only [if_true, reduceCtorEq, if_false, add_zero]
    rfl
  · simp only [if_true, reduceCtorEq, if_false, add_zero, zero_add, sum_map_one]
    rfl
  · simp only [if_true, reduceCtorEq, if_false, add_zero, zero_add]
    rw [List.countP_reverse]
    rfl
  · simp only [if_true, reduceCtorEq, if_false, zero_add, sum_map_one, List.countP_filter]
    refine congrArg _ (List.countP_congr fun c _ => ?_)
    simp only [Bool.and_eq_true, decide_eq_true_eq]
    exact and_comm

theorem Accounted.counters (h : Accounted s) (hu : s.UniqueRows) (t : EventType)
    (warehouse clientId : Option String) :
    telemetryCounter s.officialTelemetry t warehouse clientId = sourceCounter s t warehouse clientId := by
  obtain ⟨rows, hperm, hcarries⟩ := h.correspondence hu
  rw [← counterOf_implied hu, ← counterOf_carries hcarries]
  exact (counterOf_perm (hperm.map _) t warehouse clientId).symm

/-! ## Tampering -/

/-- The audit returns, with a diagnostic. -/
def Diagnosed (s : OperationalSnapshot) : Prop :=
  ∃ audit, auditOperationalSnapshot s = some audit ∧ audit.diagnostics ≠ []

/-- `filter_tags` takes every mapping. -/
theorem filterTags_dict (eventType : String) (kvs : List (String × PyValue)) :
    (filterTags eventType (.dict kvs)).isSome = true := by
  unfold filterTags
  dsimp only
  split <;> rfl

/-- The audit returns when `filter_tags` does. -/
theorem audit_returns (h : ∀ row ∈ s.outbox, (filterTags row.eventType row.tags).isSome = true) :
    ∃ audit, auditOperationalSnapshot s = some audit := by
  have hrow : ∀ row ∈ s.outbox, ∃ diagnostics, auditOutboxRow s.officialTelemetry row =
      some diagnostics := by
    intro row hrow
    obtain ⟨tags, htags⟩ := Option.isSome_iff_exists.1 (h row hrow)
    have htarget : ∃ diagnostics, auditTarget s.officialTelemetry row = some diagnostics := by
      unfold auditTarget mapOutboxEventToRow
      rw [htags]
      split <;> exact ⟨_, rfl⟩
    obtain ⟨diagnostics, htarget⟩ := htarget
    unfold auditOutboxRow
    rw [htarget]
    exact ⟨_, rfl⟩
  have hall : ∃ targets, s.outbox.mapM (auditOutboxRow s.officialTelemetry) = some targets := by
    generalize s.outbox = rows at hrow
    induction rows with
    | nil => exact ⟨[], rfl⟩
    | cons row rows ih =>
      obtain ⟨b, hb⟩ := hrow row (List.mem_cons_self ..)
      obtain ⟨bs, hbs⟩ := ih fun row' hrow' => hrow row' (List.mem_cons_of_mem _ hrow')
      rw [List.mapM_cons, hb, hbs]
      exact ⟨_, rfl⟩
  obtain ⟨targets, htargets⟩ := hall
  unfold auditOperationalSnapshot
  rw [htargets]
  exact ⟨_, rfl⟩

/-- What is not certified is diagnosed. -/
theorem diagnosed_of_not (hfilter : ∀ row ∈ s.outbox, (filterTags row.eventType row.tags).isSome = true)
    (h : ¬Accounted s) : Diagnosed s := by
  obtain ⟨audit, haudit⟩ := audit_returns hfilter
  exact ⟨audit, haudit, fun hclean => h (accounted_of_clean haudit hclean)⟩

theorem Accounted.filtered (h : Accounted s) {row : OutboxRow} (hrow : row ∈ s.outbox) :
    (filterTags row.eventType row.tags).isSome = true := by
  obtain ⟨event, hevent, -, htags⟩ := h.event hrow
  obtain ⟨kvs, hdict, -⟩ := impliedEvents_tags hevent
  rw [hdict] at htags
  obtain ⟨kvs', hdict'⟩ := PyValue.dict_of_eq htags
  rw [hdict']
  exact filterTags_dict row.eventType kvs'

/-- Two outbox rows that the audit does not tell apart. -/
structure OutboxRow.SameContent (a b : OutboxRow) : Prop where
  eventId : b.eventId = a.eventId
  occurredAt : b.occurredAt = a.occurredAt
  sourceTable : b.sourceTable = a.sourceTable
  sourcePk : b.sourcePk = a.sourcePk
  eventType : b.eventType = a.eventType
  tags : b.tags.Eq a.tags

/-- Two telemetry rows that the audit does not tell apart. -/
structure TelemetryRecord.SameContent (a b : TelemetryRecord) : Prop where
  id : b.id = a.id
  timestamp : b.timestamp = a.timestamp
  service : b.service = a.service
  eventType : b.eventType = a.eventType
  tags : b.tags.Eq a.tags

variable {outbox rest : List OutboxRow} {row row' : OutboxRow} {telemetry others : List TelemetryRecord}
  {target target' : TelemetryRecord}

theorem head_of_perm {α : Type} {a b : α} {l : List α} (h : (a :: l).Perm (b :: l)) : a = b := by
  have hsingle : [a].Perm [b] := (List.perm_append_right_iff l).1 h
  simpa using List.perm_singleton.1 hsingle

/-- A certified outbox has as many rows as there are implied events. -/
theorem outbox_length (hu : s.UniqueRows) (h : Accounted s) (h' : Accounted { s with outbox }) :
    outbox.length = s.outbox.length := by
  have hnodup := expected_nodup hu
  have hkeys := (h.keys hnodup).length_eq
  have hkeys' := (h'.keys hnodup).length_eq
  rw [List.length_map] at hkeys hkeys'
  exact hkeys'.trans hkeys.symm

/-- A row of the outbox can be exchanged for none but its like. -/
theorem outbox_change (hu : s.UniqueRows) (h : Accounted s) (hrest : s.outbox.Perm (row :: rest))
    (houtbox : outbox.Perm (row' :: rest)) (h' : Accounted { s with outbox }) : row.SameContent row' := by
  have hrow : row ∈ s.outbox := hrest.mem_iff.2 (List.mem_cons_self ..)
  have hrow' : row' ∈ outbox := houtbox.mem_iff.2 (List.mem_cons_self ..)
  have hexpected := expected_nodup hu
  have hkey : row'.key = row.key := by
    have hkeys : ((row' :: rest).map OutboxRow.key).Perm ((row :: rest).map OutboxRow.key) :=
      (((houtbox.map _).symm.trans (h'.keys hexpected)).trans (h.keys hexpected).symm).trans (hrest.map _)
    exact head_of_perm hkeys
  obtain ⟨target, hone, hid, -, -, htime, -⟩ := h.target hrow
  have hmem : target ∈ s.officialTelemetry :=
    List.mem_of_mem_filter (by rw [hone]; exact List.mem_singleton_self _)
  have heventId : row'.eventId = row.eventId := by
    obtain ⟨other, hother, hsame⟩ := h'.telemetry target hmem
    rcases List.mem_cons.1 (houtbox.mem_iff.1 hother) with rfl | hother
    · rw [hsame, hid]
    · have hnodup := (hrest.map OutboxRow.eventId).nodup_iff.1 hu.outbox
      rw [List.map_cons, List.nodup_cons] at hnodup
      refine absurd ?_ hnodup.1
      rw [← hid, ← hsame]
      exact List.mem_map_of_mem hother
  obtain ⟨target', hone', -, -, -, htime', -⟩ := h'.target hrow'
  have htargets : target' = target := by
    have hboth : [target'] = [target] := by
      rw [← hone, ← hone', heventId]
      rfl
    exact List.cons.inj hboth |>.1
  obtain ⟨event, hevent, heventKey, htags⟩ := h.event hrow
  obtain ⟨event', hevent', heventKey', htags'⟩ := h'.event hrow'
  have hnodup : (s.impliedEvents.map ImpliedEvent.key).Nodup := by
    rw [impliedEvents_keys]
    exact hexpected
  have hevents : event' = event :=
    List.inj_on_of_nodup_map hnodup hevent' hevent (by rw [heventKey', heventKey, hkey])
  rw [hevents] at htags'
  simp only [OutboxRow.key, Prod.mk.injEq] at hkey
  exact ⟨heventId, by rw [← htime', ← htime, htargets], hkey.1, hkey.2.1, hkey.2.2, htags'.trans htags.symm⟩

/-- A certified telemetry has as many official rows as the outbox has rows. -/
theorem telemetry_length (hu : s.UniqueRows) (h : Accounted s) (h' : Accounted { s with telemetry }) :
    (telemetry.filter TelemetryRecord.official).length =
      (s.telemetry.filter TelemetryRecord.official).length := by
  have hids := (h.ids hu.outbox).length_eq
  have hids' := (h'.ids hu.outbox).length_eq
  rw [List.length_map] at hids hids'
  exact hids'.trans hids.symm

/-- An official row can be exchanged for none but its like. -/
theorem telemetry_change (hu : s.UniqueRows) (h : Accounted s) (hofficial : target.official = true)
    (hothers : s.telemetry.Perm (target :: others)) (htelemetry : telemetry.Perm (target' :: others))
    (h' : Accounted { s with telemetry }) : target.SameContent target' := by
  have hfilter : s.officialTelemetry.Perm (target :: others.filter TelemetryRecord.official) := by
    have hperm := hothers.filter TelemetryRecord.official
    rwa [List.filter_cons_of_pos hofficial] at hperm
  have hofficial' : target'.official = true := by
    by_contra hnot
    have hlength := telemetry_length hu h h'
    have hperm := htelemetry.filter TelemetryRecord.official
    rw [List.filter_cons_of_neg hnot] at hperm
    have hleft := hperm.length_eq
    have hright := hfilter.length_eq
    rw [OperationalSnapshot.officialTelemetry, List.length_cons] at hright
    omega
  have hfilter' : (telemetry.filter TelemetryRecord.official).Perm
      (target' :: others.filter TelemetryRecord.official) := by
    have hperm := htelemetry.filter TelemetryRecord.official
    rwa [List.filter_cons_of_pos hofficial'] at hperm
  have hid : target'.id = target.id := by
    have hids : ((target' :: others.filter TelemetryRecord.official).map TelemetryRecord.id).Perm
        ((target :: others.filter TelemetryRecord.official).map TelemetryRecord.id) :=
      (((hfilter'.map _).symm.trans (h'.ids hu.outbox)).trans (h.ids hu.outbox).symm).trans (hfilter.map _)
    exact head_of_perm hids
  have hmem : target ∈ s.officialTelemetry := hfilter.mem_iff.2 (List.mem_cons_self ..)
  have hmem' : target' ∈ telemetry.filter TelemetryRecord.official :=
    hfilter'.mem_iff.2 (List.mem_cons_self ..)
  obtain ⟨row, hrow, hrowId⟩ := h.telemetry target hmem
  obtain ⟨found, hone, -, hservice, htype, htime, htags⟩ := h.target hrow
  obtain ⟨found', hone', -, hservice', htype', htime', htags'⟩ := h'.target hrow
  have hfound : target = found := by
    have hin : target ∈ s.officialTelemetry.filter fun t => t.id = row.eventId :=
      List.mem_filter.2 ⟨hmem, decide_eq_true hrowId.symm⟩
    rwa [hone, List.mem_singleton] at hin
  have hfound' : target' = found' := by
    have hin : target' ∈ (telemetry.filter TelemetryRecord.official).filter fun t => t.id = row.eventId :=
      List.mem_filter.2 ⟨hmem', decide_eq_true (hid.trans hrowId.symm)⟩
    have hone' : ((telemetry.filter TelemetryRecord.official).filter fun t => t.id = row.eventId) =
        [found'] := hone'
    rwa [hone', List.mem_singleton] at hin
  subst hfound hfound'
  exact ⟨hid, by rw [htime', htime], by rw [hservice', hservice], by rw [htype', htype], htags'.trans htags.symm⟩

/-- Without a diagnostic, the official telemetry and the events that the source rows imply
correspond one to one with equal tags, and their counters are the same. And then no row of the
outbox or of the official telemetry can be taken away, repeated or changed without a diagnostic; only where
`filter_tags` raises on the tags of the changed row, which are then no mapping, may the audit raise too. -/
theorem clean_audit_sound (s : OperationalSnapshot) (audit : OperationalCoverageAudit) (hu : s.UniqueRows)
    (haudit : auditOperationalSnapshot s = some audit) (hclean : audit.diagnostics = []) :
    (∃ rows, rows.Perm s.officialTelemetry ∧ List.Forall₂ Carries rows s.impliedEvents) ∧
    (∀ t warehouse clientId,
      telemetryCounter s.officialTelemetry t warehouse clientId = sourceCounter s t warehouse clientId) ∧
    (∀ row rest, s.outbox.Perm (row :: rest) →
      (∀ outbox, outbox.Perm rest ∨ outbox.Perm (row :: s.outbox) → Diagnosed { s with outbox }) ∧
      ∀ row' outbox, ¬row.SameContent row' → outbox.Perm (row' :: rest) →
        (∀ audit', auditOperationalSnapshot { s with outbox } = some audit' → audit'.diagnostics ≠ []) ∧
          ((filterTags row'.eventType row'.tags).isSome = true → Diagnosed { s with outbox })) ∧
    ∀ target others, target.official = true → s.telemetry.Perm (target :: others) →
      (∀ telemetry, telemetry.Perm others ∨ telemetry.Perm (target :: s.telemetry) →
        Diagnosed { s with telemetry }) ∧ ∀ target' telemetry, ¬target.SameContent target' →
      telemetry.Perm (target' :: others) → Diagnosed { s with telemetry } := by
  have h := accounted_of_clean haudit hclean
  refine ⟨h.correspondence hu, h.counters hu, fun row rest hrest => ⟨?_, ?_⟩,
    fun target others hofficial hothers => ⟨?_, ?_⟩⟩
  · intro outbox houtbox
    refine diagnosed_of_not (fun row' hrow' => ?_) fun h' => ?_
    · refine h.filtered ?_
      rcases houtbox with hperm | hperm
      · exact hrest.mem_iff.2 (List.mem_cons_of_mem _ (hperm.mem_iff.1 hrow'))
      · rcases List.mem_cons.1 (hperm.mem_iff.1 hrow') with rfl | hin
        · exact hrest.mem_iff.2 (List.mem_cons_self ..)
        · exact hin
    · have hlength := outbox_length hu h h'
      have hrestLength := hrest.length_eq
      rw [List.length_cons] at hrestLength
      rcases houtbox with hperm | hperm
      · have := hperm.length_eq
        omega
      · have := hperm.length_eq
        rw [List.length_cons] at this
        omega
  · intro row' outbox hdiffers houtbox
    have hnot : ¬Accounted { s with outbox } := fun h' => hdiffers (outbox_change hu h hrest houtbox h')
    refine ⟨fun audit' haudit' hclean' => hnot (accounted_of_clean haudit' hclean'), fun hfilter => ?_⟩
    refine diagnosed_of_not (fun other hother => ?_) hnot
    rcases List.mem_cons.1 (houtbox.mem_iff.1 hother) with rfl | hin
    · exact hfilter
    · exact h.filtered (hrest.mem_iff.2 (List.mem_cons_of_mem _ hin))
  · intro telemetry htelemetry
    refine diagnosed_of_not (fun row hrow => h.filtered hrow) fun h' => ?_
    have hlength := telemetry_length hu h h'
    have hothersLength := (hothers.filter TelemetryRecord.official).length_eq
    rw [List.filter_cons_of_pos hofficial, List.length_cons] at hothersLength
    rcases htelemetry with hperm | hperm
    · have := (hperm.filter TelemetryRecord.official).length_eq
      omega
    · have := (hperm.filter TelemetryRecord.official).length_eq
      rw [List.filter_cons_of_pos hofficial, List.length_cons] at this
      omega
  · intro target' telemetry hdiffers htelemetry
    exact diagnosed_of_not (fun row hrow => h.filtered hrow) fun h' =>
      hdiffers (telemetry_change hu h hofficial hothers htelemetry h')

/-- Ten pieces arrive and eight leave with an order, which crosses the threshold three; one of the rest is
missing. -/
def recordedWeek : OperationalSnapshot where
  entries := [entry]
  orders := [order]
  dispatches := [⟨some (Uuid.ofNat 21), 3⟩]
  movements := [⟨"stockentry", 7, 1, 10, "LA", some "acme", "shoes", 100⟩, movement]
  checkpoints := [⟨"stockentry", 7, 1, some "acme", "LA", 0, 10, some 3, false, none, 100⟩, crossing]
  counts := [count]
  outbox := relayed
  telemetry := relayed.filterMap mapOutboxEventToRow
where
  entry : EntryRow := ⟨7, 1, 10, "LA", some "acme", "shoes"⟩
  order : OrderRow := ⟨3, Uuid.ofNat 20, "acme", "LA"⟩
  movement : MovementRow := ⟨"stockexit", 5, 1, 8, "LA", some "acme", "shoes", 110⟩
  crossing : CheckpointRow :=
    ⟨"stockexit", 5, 1, some "acme", "LA", 10, 2, some 3, true, some (Uuid.ofNat 3), 110⟩
  count : CountRow := ⟨4, Uuid.ofNat 22, 1, "acme", "LA", 2, 1, "shoes"⟩
  relayed : List OutboxRow :=
    [⟨Uuid.ofNat 1, 100, "stockentry", 7, "inbound_order_created", entry.tags, some 200, 1, some 200, none⟩,
      ⟨Uuid.ofNat 2, 110, "commercial_order", 3, "outbound_order_created", order.tags, some 200, 1, some 200, none⟩,
      ⟨Uuid.ofNat 3, 110, "stockexit", 5, "stock_threshold_triggered", movement.tags crossing, some 200, 1,
        some 200, none⟩,
      ⟨Uuid.ofNat 4, 120, "inventory_physical_count", 4, "inventory_discrepancy_detected", count.tags, some 200,
        1, some 200, none⟩]

/-- The counters of the week are those of its rows, and the row of its order cannot be taken away. -/
theorem clean_audit_sound_week :
    recordedWeek.impliedEvents.length = 4 ∧
    (∀ t, telemetryCounter recordedWeek.officialTelemetry t (some "los_angeles") (some "acme") =
      sourceCounter recordedWeek t (some "los_angeles") (some "acme")) ∧
    Diagnosed { recordedWeek with outbox := recordedWeek.outbox.take 1 ++ recordedWeek.outbox.drop 2 } := by
  have hclean : (auditOperationalSnapshot recordedWeek).any (fun audit => audit.diagnostics = []) = true := by
    decide +kernel
  obtain ⟨audit, haudit, hdiagnostics⟩ := (Option.any_eq_true _ _).1 hclean
  have hu : recordedWeek.UniqueRows :=
    ⟨by decide, by decide, by decide +kernel, by decide, by decide +kernel⟩
  obtain ⟨-, hcounters, houtbox, -⟩ :=
    clean_audit_sound recordedWeek audit hu haudit (of_decide_eq_true hdiagnostics)
  refine ⟨by decide +kernel, fun t => hcounters t _ _, ?_⟩
  exact (houtbox _ _ (List.Perm.swap _ _ _)).1 _ (Or.inl (List.Perm.refl _))

end TrackFlow.Pipelines
