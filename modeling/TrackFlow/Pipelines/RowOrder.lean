import TrackFlow.Pipelines.EventFates

/-!
# The order of the rows

Of rows that are copies of one another the first stands for its id. Copies have the same content
(`samePersistedRow_iff`), so which rows are copies does not depend on their order, and valid copies
give events that nothing behind them can tell apart (`view_eq`). But a copy of a valid row need not
be valid: `True`, `1` and `1.0` are the same content.

- `row_order`: the transformation does not see the order of the rows exactly when copies validate alike.
-/

namespace TrackFlow.Pipelines

open TrackFlow.Python

variable {fromisoformat : String → Option PyValue} {events events' : List TelemetryRow}
  {evidence : WeekEvidence} {orders : CommercialOrderEvidence} {p p' : PreparedWeeklyEvents}
  {es es' : List ValidatedEvent} {e e' : ValidatedEvent} {row row' : TelemetryRow} {id : String}
  {key : MovementKey}

/-! ## The content of a row -/

/-- A timestamp as an instant if it is valid, else as it is. -/
def timestampContent (fromisoformat : String → Option PyValue) (v : PyValue) : Int ⊕ Normal :=
  match parseUtcTimestamp fromisoformat v with
  | .ok t => .inl t
  | .error _ => .inr v.normal

/-- What copies of a row share. -/
def rowContent (fromisoformat : String → Option PyValue) (row : TelemetryRow) :
    (Int ⊕ Normal) × Normal × Normal × Normal :=
  (timestampContent fromisoformat row.timestamp, stableValue row.eventType, stableValue row.service,
    stableValue row.tags)

/-- Equal timestamps are read alike. -/
theorem parseUtcTimestamp_congr {a b : PyValue} (h : a.Eq b) :
    parseUtcTimestamp fromisoformat a = parseUtcTimestamp fromisoformat b := by
  unfold PyValue.Eq at h
  cases a <;> cases b <;> simp [PyValue.normal] at h <;> first | rfl | subst h; rfl

theorem sameTimestamp_iff {a b : PyValue} : sameTimestamp fromisoformat a b = true ↔
    timestampContent fromisoformat a = timestampContent fromisoformat b := by
  unfold sameTimestamp timestampContent
  cases ha : parseUtcTimestamp fromisoformat a with
  | ok s =>
    cases hb : parseUtcTimestamp fromisoformat b with
    | ok t => simp
    | error m =>
      have hne : ¬a.Eq b := fun heq => by
        rw [parseUtcTimestamp_congr heq, hb] at ha
        cases ha
      simpa using hne
  | error m =>
    cases hb : parseUtcTimestamp fromisoformat b with
    | ok t =>
      have hne : ¬a.Eq b := fun heq => by
        rw [parseUtcTimestamp_congr heq, hb] at ha
        cases ha
      simpa using hne
    | error m' => exact ⟨fun h => congrArg Sum.inr (of_decide_eq_true h), fun h => decide_eq_true (Sum.inr.inj h)⟩

/-- Copies are rows of the same content. -/
theorem samePersistedRow_iff : samePersistedRow fromisoformat row row' = true ↔
    rowContent fromisoformat row = rowContent fromisoformat row' := by
  simp only [samePersistedRow, rowContent, Bool.and_eq_true, decide_eq_true_eq, sameTimestamp_iff,
    Prod.mk.injEq, and_assoc]

/-- The rows of a consistent id all have the same content. -/
theorem consistentId_content : consistentId fromisoformat events id = true ↔ ∀ row ∈ rowsWithId events id,
    ∀ row' ∈ rowsWithId events id, rowContent fromisoformat row = rowContent fromisoformat row' := by
  unfold consistentId
  cases rowsWithId events id with
  | nil => simp
  | cons first rest =>
    simp only [List.all_eq_true, samePersistedRow_iff]
    constructor
    · intro h
      have hfirst : ∀ row ∈ first :: rest, rowContent fromisoformat first = rowContent fromisoformat row :=
        fun row hrow => (List.mem_cons.1 hrow).elim (fun heq => heq ▸ rfl) (h row)
      exact fun row hrow row' hrow' => (hfirst row hrow).symm.trans (hfirst row' hrow')
    · exact fun h row hrow => h first List.mem_cons_self row (List.mem_cons_of_mem first hrow)

/-! ## Other orders -/

theorem rowsWithId_perm (h : events.Perm events') (id : String) :
    (rowsWithId events id).Perm (rowsWithId events' id) :=
  h.filter _

theorem rowIds_perm (h : events.Perm events') : rowIds events = rowIds events' :=
  linear_textLe.sortedSet_congr fun _ => (h.filterMap _).mem_iff

theorem consistentId_perm (h : events.Perm events') (id : String) :
    consistentId fromisoformat events id = consistentId fromisoformat events' id := by
  rw [Bool.eq_iff_iff, consistentId_content, consistentId_content]
  simp only [(rowsWithId_perm h id).mem_iff]

/-- How the validation of a row ends. -/
def outcome (fromisoformat : String → Option PyValue) (row : TelemetryRow) : Except String Unit :=
  (validateEvent fromisoformat row).map fun _ => ()

theorem outcome_error {m : String} :
    outcome fromisoformat row = .error m ↔ validateEvent fromisoformat row = .error m := by
  unfold outcome
  cases validateEvent fromisoformat row <;> simp [Except.map]

/-- Copies of one row are all valid, or all invalid for the same reason. -/
def CopiesAlike (fromisoformat : String → Option PyValue) (events : List TelemetryRow) : Prop :=
  ∀ id ∈ rowIds events, consistentId fromisoformat events id = true → ∀ row ∈ rowsWithId events id,
    ∀ row' ∈ rowsWithId events id, outcome fromisoformat row = outcome fromisoformat row'

/-- What stands for an id in another order is a copy of what stood for it. -/
theorem survivor_perm (h : events.Perm events') (hs : survivor fromisoformat events id = some row) :
    ∃ row', survivor fromisoformat events' id = some row' ∧ row ∈ rowsWithId events id ∧
      row' ∈ rowsWithId events id := by
  obtain ⟨hrow, hid, hc⟩ := survivor_row hs
  have hmem' : id ∈ rowIds events' := rowIds_perm h ▸ mem_rowIds.2 ⟨row, hrow, hid⟩
  rw [consistentId_perm h] at hc
  obtain ⟨row', hs'⟩ := survivor_isSome hmem' hc
  obtain ⟨hrow', hid', -⟩ := survivor_row hs'
  exact ⟨row', hs', mem_rowsWithId.2 ⟨hrow, hid⟩, mem_rowsWithId.2 ⟨h.mem_iff.2 hrow', hid'⟩⟩

theorem survivor_none_perm (h : events.Perm events') :
    survivor fromisoformat events id = none ↔ survivor fromisoformat events' id = none := by
  constructor
  · intro hs
    by_contra hne
    obtain ⟨row', hs'⟩ := Option.ne_none_iff_exists'.1 hne
    obtain ⟨row, hrow, -⟩ := survivor_perm h.symm hs'
    rw [hs] at hrow
    cases hrow
  · intro hs
    by_contra hne
    obtain ⟨row, hrow⟩ := Option.ne_none_iff_exists'.1 hne
    obtain ⟨row', hrow', -⟩ := survivor_perm h hrow
    rw [hs] at hrow'
    cases hrow'

/-! ## What is seen of an event -/

/-- What the grouping, the counters and the report see of an event. -/
structure EventView where
  rowId : String
  eventType : EventType
  key : AggregateKey
  amount : Int
  movementKey : Option MovementKey
  signature : String × String × Normal × Int
  issue : Option QualityIssue
  contradicted : Bool

/-- The view of an event, with what the orders say of it. -/
def ValidatedEvent.view (orders : CommercialOrderEvidence) (e : ValidatedEvent) : EventView :=
  let isOrder := decide (e.eventType = .outboundOrderCreated)
  { rowId := e.rowId
    eventType := e.eventType
    key := e.key
    amount := e.amount
    movementKey := e.movementKey
    signature := movementSignature e
    issue := if isOrder then outboundIssue orders e else none
    contradicted := isOrder && contradicted orders e }

theorem stableValue_str {v : PyValue} {s : String} (h : stableValue v = stableValue (.str s)) :
    v = .str s := by
  cases v <;> simp [stableValue, PyValue.normal] at h
  rw [h]

/-- Events of copies look the same. -/
theorem view_eq (h : ValidEvent fromisoformat row e) (h' : ValidEvent fromisoformat row' e')
    (hid : rowId row.id = rowId row'.id)
    (hc : rowContent fromisoformat row = rowContent fromisoformat row') :
    e.view orders = e'.view orders := by
  simp only [rowContent, Prod.mk.injEq] at hc
  obtain ⟨htime, htype, -, htags⟩ := hc
  have hrowId : e.rowId = e'.rowId := by
    rw [h.id, h'.id, Except.ok.injEq] at hid
    exact hid
  have htimestamp : e.timestamp = e'.timestamp := by
    simpa only [timestampContent, h.timestamp, h'.timestamp, Sum.inl.injEq] using htime
  have hweek : e.weekStart = e'.weekStart := by rw [h.weekStart, h'.weekStart, htimestamp]
  have htypes : e.eventType = e'.eventType := by
    rw [h.eventType, h'.eventType] at htype
    have htext := PyValue.str.inj (stableValue_str htype)
    have hof := congrArg EventType.ofText? htext
    rw [EventType.ofText_text, EventType.ofText_text] at hof
    exact Option.some.inj hof
  have hstable : stableValue e.tags = stableValue e'.tags := by rw [h.tags, h'.tags, htags]
  -- A tag that is text in one copy is the same text in the other.
  have htext : ∀ (field s : String), e'.tags.get field = .str s → e.tags.get field = .str s := by
    intro field s hs
    have hget := h.stable_get h' hstable field
    rw [hs] at hget
    exact stableValue_str hget
  have hwarehouse : e.warehouse = e'.warehouse := by
    have hw := h.warehouse
    have hw' := h'.warehouse
    rw [← h.tags] at hw
    rw [← h'.tags] at hw'
    cases hv : e'.tags.get "warehouse" with
    | str s =>
      rw [htext _ _ hv] at hw
      rw [hv, hw] at hw'
      exact Except.ok.inj hw'
    | _ => rw [hv] at hw'; cases hw'
  have hclient : e.clientId = e'.clientId := by
    have hcl := h.clientId
    have hcl' := h'.clientId
    rw [← h.tags] at hcl
    rw [← h'.tags] at hcl'
    rw [htext _ _ hcl', PyValue.str.injEq] at hcl
    exact hcl.symm
  have hmovement : e.movementKey = e'.movementKey := by
    obtain ⟨identity, hget, hk⟩ := h'.movementKey
    rw [hk, ← htypes]
    unfold ValidatedEvent.movementKey
    rw [htext _ _ (htypes ▸ hget)]
  have hsignature : movementSignature e = movementSignature e' := by
    simp only [movementSignature, hwarehouse, hclient, hstable, hweek]
  have hshare : e.share orders = e'.share orders := (share_eq h h' hmovement hsignature).1
  have horder : e.eventType = .outboundOrderCreated → contradicted orders e = contradicted orders e' ∧
      orderRecord orders e = orderRecord orders e' := (share_eq h h' hmovement hsignature).2
  simp only [ValidatedEvent.share, Prod.mk.injEq] at hshare
  simp only [ValidatedEvent.view, hrowId, htypes, hshare.2.1, hshare.2.2.1, hmovement, hsignature,
    EventView.mk.injEq, true_and]
  by_cases hout : e.eventType = .outboundOrderCreated
  · obtain ⟨hcon, hrecord⟩ := horder hout
    have hissue : outboundIssue orders e = outboundIssue orders e' := by
      have hconflicts : ∀ record, identityConflicts record e = identityConflicts record e' :=
        fun record => by
        simp only [identityConflicts, (orderId_eq h h' hmovement).2 hout, hwarehouse, hclient]
      simp only [outboundIssue, hrecord, hrowId, hmovement, hconflicts]
    rw [hissue, hcon]
    exact ⟨rfl, rfl⟩
  · rw [htypes] at hout
    simp [hout]

/-! ## What depends on the views alone -/

/-- Lists of events that look the same. -/
def Alike (orders : CommercialOrderEvidence) (es es' : List ValidatedEvent) : Prop :=
  es.map (ValidatedEvent.view orders) = es'.map (ValidatedEvent.view orders)

namespace Alike

variable {β : Type}

/-- What is read off the views is the same. -/
theorem map (h : Alike orders es es') {f : ValidatedEvent → β} (g : EventView → β)
    (hf : ∀ e, f e = g (e.view orders)) : es.map f = es'.map f := by
  have hmap : ∀ l : List ValidatedEvent, l.map f = (l.map (ValidatedEvent.view orders)).map g := by
    intro l
    rw [List.map_map]
    exact List.map_congr_left fun e _ => hf e
  rw [hmap, hmap, h]

theorem filterMap (h : Alike orders es es') {f : ValidatedEvent → Option β} (g : EventView → Option β)
    (hf : ∀ e, f e = g (e.view orders)) : es.filterMap f = es'.filterMap f := by
  have hmap : ∀ l : List ValidatedEvent, l.filterMap f =
      (l.map (ValidatedEvent.view orders)).filterMap g := by
    intro l
    rw [List.filterMap_map]
    exact List.filterMap_congr fun e _ => hf e
  rw [hmap, hmap, h]

theorem filter (h : Alike orders es es') {q : ValidatedEvent → Bool} (g : EventView → Bool)
    (hq : ∀ e, q e = g (e.view orders)) : Alike orders (es.filter q) (es'.filter q) := by
  have hmap : ∀ l : List ValidatedEvent, (l.filter q).map (ValidatedEvent.view orders) =
      (l.map (ValidatedEvent.view orders)).filter g := by
    intro l
    rw [List.filter_map]
    exact congrArg _ (List.filter_congr fun e _ => hq e)
  unfold Alike
  rw [hmap, hmap, h]

theorem sortedBy (h : Alike orders es es') {le : ValidatedEvent → ValidatedEvent → Bool}
    (g : EventView → EventView → Bool) (hle : ∀ a b, le a b = g (a.view orders) (b.view orders)) :
    Alike orders (Python.sortedBy le es) (Python.sortedBy le es') := by
  have hmap : ∀ l : List ValidatedEvent, (Python.sortedBy le l).map (ValidatedEvent.view orders) =
      Python.sortedBy g (l.map (ValidatedEvent.view orders)) := fun l =>
    List.map_insertionSort _ _ _ _ fun a _ b _ => by rw [hle]
  unfold Alike
  rw [hmap, hmap, h]

theorem head (h : Alike orders es es') :
    es.head?.map (ValidatedEvent.view orders) = es'.head?.map (ValidatedEvent.view orders) := by
  rw [← List.head?_map, ← List.head?_map, h]

theorem tail (h : Alike orders es es') : Alike orders es.tail es'.tail := by
  unfold Alike
  rw [List.map_tail, List.map_tail, h]

theorem rowIds (h : Alike orders es es') : es.map ValidatedEvent.rowId = es'.map ValidatedEvent.rowId :=
  h.map EventView.rowId fun _ => rfl

theorem length (h : Alike orders es es') : es.length = es'.length := by
  simpa using congrArg List.length h

theorem movementKeys (h : Alike orders es es') :
    Pipelines.movementKeys es = Pipelines.movementKeys es' := by
  unfold Pipelines.movementKeys
  rw [h.filterMap (f := ValidatedEvent.movementKey) EventView.movementKey fun _ => rfl]

theorem movementGroup (h : Alike orders es es') (key : MovementKey) :
    Alike orders (Pipelines.movementGroup es key) (Pipelines.movementGroup es' key) :=
  (h.filter (fun v => v.movementKey = some key) fun _ => rfl).sortedBy
    (fun a b => textLe a.rowId b.rowId) fun _ _ => rfl

theorem observedWeeks (h : Alike orders es es') (key : MovementKey) :
    Pipelines.observedWeeks es key = Pipelines.observedWeeks es' key := by
  unfold Pipelines.observedWeeks
  rw [(h.movementGroup key).map (f := ValidatedEvent.weekStart) (fun v => v.key.weekStart) fun _ => rfl]

theorem conflicting (h : Alike orders es es') (key : MovementKey) :
    Pipelines.conflicting evidence es key = Pipelines.conflicting evidence es' key := by
  unfold Pipelines.conflicting
  rw [(h.movementGroup key).map (f := movementSignature) EventView.signature fun _ => rfl, h.observedWeeks]

theorem movementConflictIssue (h : Alike orders es es') (key : MovementKey) :
    Pipelines.movementConflictIssue evidence es key = Pipelines.movementConflictIssue evidence es' key := by
  unfold Pipelines.movementConflictIssue
  rw [h.observedWeeks, (h.movementGroup key).rowIds]

theorem append {fs fs' : List ValidatedEvent} (h : Alike orders es es') (hf : Alike orders fs fs') :
    Alike orders (es ++ fs) (es' ++ fs') := by
  unfold Alike
  rw [List.map_append, List.map_append, h, hf]

/-- The first events of the movements look the same. -/
theorem heads (h : Alike orders es es') (keys : List MovementKey) :
    Alike orders (keys.filterMap fun key => (Pipelines.movementGroup es key).head?)
      (keys.filterMap fun key => (Pipelines.movementGroup es' key).head?) := by
  unfold Alike
  rw [List.map_filterMap, List.map_filterMap]
  exact List.filterMap_congr fun key _ => (h.movementGroup key).head

/-- The counters read the views alone. -/
theorem counted (h : Alike orders es es') (t : EventType) :
    Alike orders (Pipelines.counted orders es t) (Pipelines.counted orders es' t) := by
  refine h.filter (fun v => v.eventType = t && (t ≠ .outboundOrderCreated || v.issue.isNone)) fun e => ?_
  by_cases hout : e.eventType = .outboundOrderCreated
  · simp [ValidatedEvent.view, hout]
  · by_cases ht : e.eventType = t
    · subst ht
      simp [ValidatedEvent.view, hout]
    · simp [ValidatedEvent.view, ht]

theorem rowsOf (h : Alike orders es es') : Pipelines.rowsOf es = Pipelines.rowsOf es' :=
  h.map (fun v => (v.key, v.amount, v.rowId)) fun _ => rfl

/-- The view of an order has what is read of it. -/
theorem ofOrder {f : ValidatedEvent → Option β} (h : Alike orders es es') (g : EventView → Option β)
    (hf : ∀ e, e.eventType = .outboundOrderCreated → f e = g (e.view orders)) :
    (es.filter fun e => e.eventType = .outboundOrderCreated).filterMap f =
      (es'.filter fun e => e.eventType = .outboundOrderCreated).filterMap f := by
  rw [List.filterMap_filter, List.filterMap_filter]
  refine h.filterMap (fun v => if v.eventType = .outboundOrderCreated then g v else none) fun e => ?_
  by_cases hout : e.eventType = .outboundOrderCreated
  · simp only [hout, decide_true, if_true, hf e hout]
    exact (if_pos hout).symm
  · simp only [hout, decide_false, Bool.false_eq_true, if_false]
    exact (if_neg hout).symm

end Alike

/-- Events that look the same contribute the same. -/
theorem contribution_congr (h : Alike orders p.events p'.events) (t : EventType) :
    contribution orders p t = contribution orders p' t := by
  have hvalues : (contribution orders p t).values = (contribution orders p' t).values := by
    rw [contribution_values, contribution_values, (h.counted t).rowsOf]
  have haccepted : (contribution orders p t).acceptedEventIds =
      (contribution orders p' t).acceptedEventIds := by
    rw [contribution_accepted, contribution_accepted, (h.counted t).rowIds]
  have hissues : (contribution orders p t).issues = (contribution orders p' t).issues := by
    rw [contribution_issues, contribution_issues, PreparedWeeklyEvents.ofType, PreparedWeeklyEvents.ofType,
      h.ofOrder (f := outboundIssue orders) EventView.issue fun e hout => by
        simp [ValidatedEvent.view, hout]]
  have hconflicts : (contribution orders p t).conflictMovementKeys =
      (contribution orders p' t).conflictMovementKeys := by
    have hone : ∀ l : List ValidatedEvent, (l.filter (contradicted orders)).filterMap
        ValidatedEvent.movementKey =
        l.filterMap fun e => if contradicted orders e then e.movementKey else none :=
          fun l => List.filterMap_filter
    rw [contribution_conflicts, contribution_conflicts, hone, hone, PreparedWeeklyEvents.ofType,
      PreparedWeeklyEvents.ofType, h.ofOrder (fun v => if v.contradicted then v.movementKey else none)
      fun e hout => by simp [ValidatedEvent.view, hout]]
  have hrejected : (contribution orders p t).rejectedEventIds =
      (contribution orders p' t).rejectedEventIds := by
    have hone : ∀ q : PreparedWeeklyEvents, (contribution orders q t).rejectedEventIds = if t =
        .outboundOrderCreated then
        sortedBy textLe ((q.events.filter fun e => e.eventType = .outboundOrderCreated).filterMap fun e =>
          if (outboundIssue orders e).isSome then some e.rowId else none) else [] := by
      intro q
      have hmap : ∀ l : List ValidatedEvent,
          ((l.filter fun e => (outboundIssue orders e).isSome).map ValidatedEvent.rowId) =
          l.filterMap fun e => if (outboundIssue orders e).isSome then some e.rowId else none := by
        intro l
        rw [← List.filterMap_eq_map, List.filterMap_filter]
        rfl
      cases t with
      | outboundOrderCreated =>
        rw [if_pos rfl, ← hmap]
        rfl
      | _ => rfl
    rw [hone, hone, h.ofOrder (fun v => if v.issue.isSome then some v.rowId else none)
      fun e hout => by simp [ValidatedEvent.view, hout]]
  cases hc : contribution orders p t
  cases hc' : contribution orders p' t
  simp_all

/-! ## Preparation -/

/-- What preparation makes of the same rows in another order. -/
structure SamePrepared (orders : CommercialOrderEvidence) (p p' : PreparedWeeklyEvents) : Prop where
  events : Alike orders p.events p'.events
  rejected : p.rejectedEventIds = p'.rejectedEventIds
  duplicates : p.duplicateEventIdsConsolidated = p'.duplicateEventIdsConsolidated
  duplicateKeys : p.duplicateMovementKeysConsolidated = p'.duplicateMovementKeysConsolidated
  duplicateEvents : p.duplicateMovementEventIdsConsolidated = p'.duplicateMovementEventIdsConsolidated
  conflicts : p.conflictMovementKeys = p'.conflictMovementKeys
  issues : p.issues.Perm p'.issues
  pending : p.crossWeekVerificationPending = p'.crossWeekVerificationPending

section Reordered

variable (h : events.Perm events') (halike : CopiesAlike fromisoformat events)

include h halike

theorem outcome_perm (hs : survivor fromisoformat events id = some row)
    (hs' : survivor fromisoformat events' id = some row') :
    outcome fromisoformat row = outcome fromisoformat row' ∧ rowId row.id = rowId row'.id ∧
      rowContent fromisoformat row = rowContent fromisoformat row' := by
  obtain ⟨hrow, hid, hc⟩ := survivor_row hs
  obtain ⟨row'', hs'', hm, hm'⟩ := survivor_perm h hs
  rw [hs'] at hs''
  cases hs''
  have hin : id ∈ rowIds events := mem_rowIds.2 ⟨row, hrow, hid⟩
  exact ⟨halike id hin hc row hm row' hm', hid.trans (mem_rowsWithId.1 hm').2.symm,
    consistentId_content.1 hc row hm row' hm'⟩

/-- The events look the same. -/
theorem surviving_alike :
    Alike orders (survivingEvents fromisoformat events) (survivingEvents fromisoformat events') := by
  unfold Alike
  rw [survivingEvents_eq, survivingEvents_eq, ← rowIds_perm h, List.map_filterMap, List.map_filterMap]
  refine List.filterMap_congr fun id _ => ?_
  unfold eventOf
  cases hs : survivor fromisoformat events id with
  | none => rw [(survivor_none_perm h).1 hs]
  | some row =>
    obtain ⟨row', hs', -⟩ := survivor_perm h hs
    obtain ⟨hout, hid, hcontent⟩ := outcome_perm h halike hs hs'
    rw [hs', Option.bind_some, Option.bind_some]
    unfold outcome at hout
    cases hv : validateEvent fromisoformat row with
    | error m => cases hv' : validateEvent fromisoformat row' with
      | error m' => rfl
      | ok e' => rw [hv, hv'] at hout; cases hout
    | ok e => cases hv' : validateEvent fromisoformat row' with
      | error m' => rw [hv, hv'] at hout; cases hout
      | ok e' => exact congrArg some (view_eq (validateEvent_ok hv) (validateEvent_ok hv') hid hcontent)

/-- The same rows fail validation, for the same reasons. -/
theorem validationIssues_perm :
    (uniqueRows fromisoformat events).filterMap (validationIssue fromisoformat) =
    (uniqueRows fromisoformat events').filterMap (validationIssue fromisoformat) := by
  rw [uniqueRows_eq, uniqueRows_eq, ← rowIds_perm h, List.filterMap_filterMap, List.filterMap_filterMap]
  refine List.filterMap_congr fun id _ => ?_
  cases hs : survivor fromisoformat events id with
  | none => rw [(survivor_none_perm h).1 hs]
  | some row =>
    obtain ⟨row', hs', -⟩ := survivor_perm h hs
    obtain ⟨hout, hid, -⟩ := outcome_perm h halike hs hs'
    rw [hs', Option.bind_some, Option.bind_some, validationIssue, validationIssue, hid]
    unfold outcome at hout
    cases hv : validateEvent fromisoformat row with
    | error m => cases hv' : validateEvent fromisoformat row' with
      | error m' => rw [hv, hv'] at hout; cases hout; rfl
      | ok e' => rw [hv, hv'] at hout; cases hout
    | ok e => cases hv' : validateEvent fromisoformat row' with
      | error m' => rw [hv, hv'] at hout; cases hout
      | ok e' => rfl

theorem prepared_perm : SamePrepared orders (prepareWeeklyEvents fromisoformat events evidence)
    (prepareWeeklyEvents fromisoformat events' evidence) := by
  have hes : Alike orders (survivingEvents fromisoformat events) (survivingEvents fromisoformat events') :=
    surviving_alike h halike
  have hids := rowIds_perm h
  have hcons : consistentId fromisoformat events = consistentId fromisoformat events' :=
    funext (consistentId_perm h)
  have hlength : ∀ id, (rowsWithId events id).length = (rowsWithId events' id).length :=
    fun id => (rowsWithId_perm h id).length_eq
  have hconf : conflicting evidence (survivingEvents fromisoformat events) =
      conflicting evidence (survivingEvents fromisoformat events') := funext hes.conflicting
  have hgroups : ∀ key, (movementGroup (survivingEvents fromisoformat events) key).length =
      (movementGroup (survivingEvents fromisoformat events') key).length :=
        fun key => (hes.movementGroup key).length
  have hgroupIds : ∀ key, (movementGroup (survivingEvents fromisoformat events) key).map
      ValidatedEvent.rowId =
      (movementGroup (survivingEvents fromisoformat events') key).map ValidatedEvent.rowId :=
    fun key => (hes.movementGroup key).rowIds
  have htails : ∀ key, (movementGroup (survivingEvents fromisoformat events) key).tail.map
      ValidatedEvent.rowId =
      (movementGroup (survivingEvents fromisoformat events') key).tail.map ValidatedEvent.rowId :=
    fun key => (hes.movementGroup key).tail.rowIds
  have hissues : movementConflictIssue evidence (survivingEvents fromisoformat events) =
      movementConflictIssue evidence (survivingEvents fromisoformat events') :=
        funext hes.movementConflictIssue
  constructor
  · refine Alike.sortedBy ?_ (fun a b => pairLe (fun x y : Int => x ≤ y)
        (pairLe textLe (pairLe textLe textLe))
      (a.key.weekStart, a.key.warehouse, a.key.clientId, a.rowId)
      (b.key.weekStart, b.key.warehouse, b.key.clientId, b.rowId)) fun _ _ => rfl
    refine (hes.filter (fun v => v.movementKey = none) fun _ => rfl).append ?_
    simp only [hconf, hes.movementKeys]
    exact hes.heads _
  · simp only [prepareWeeklyEvents, hids, hcons, hconf, hes.movementKeys, hgroupIds,
        validationIssues_perm h halike]
  · simp only [prepareWeeklyEvents, hids, hcons, hlength]
  · simp only [prepareWeeklyEvents, hconf, hes.movementKeys, hgroups]
  · simp only [prepareWeeklyEvents, hconf, hes.movementKeys, hgroups, htails]
  · simp only [prepareWeeklyEvents, hconf, hes.movementKeys]
  · simp only [prepareWeeklyEvents, hids, hcons, hconf, hes.movementKeys, hissues,
        validationIssues_perm h halike]
    exact (((h.filterMap _).append_right _).append_right _).append_right _
  · simp only [prepareWeeklyEvents, hes.movementKeys, hes.observedWeeks]

end Reordered

/-! ## The report -/

/-- The codes of issues that name a movement. -/
def keyedCodes : List String :=
  ["movement_conflict", "commercial_order_missing", "outbound_order_verification_unavailable",
    "commercial_order_identity_conflict"]

/-- The movement that an issue names, by its code and its events. -/
def namedMovement (fromisoformat : String → Option PyValue) (events : List TelemetryRow) (code : String)
    (eventIds : List String) : Option MovementKey :=
  if code ∈ keyedCodes then
    eventIds.head?.bind fun id => (eventOf fromisoformat events id).bind ValidatedEvent.movementKey
  else none

/-- The issues of a composition, before they are sorted. -/
def composedIssues (orders : CommercialOrderEvidence) (p : PreparedWeeklyEvents) : List QualityIssue :=
  p.issues ++ (contributions orders p).flatMap MetricContribution.issues ++
    (overflowed (contributions orders p)).map fun o => overflowIssue o.1 o.2.1 o.2.2

theorem composed_issues :
    (composed orders p).quality.issues = sortedBy QualityIssue.le (composedIssues orders p) := rfl

theorem mem_contribution_issues {i : QualityIssue}
    (h : i ∈ (contributions orders p).flatMap MetricContribution.issues) :
    ∃ e ∈ p.events, outboundIssue orders e = some i := by
  simp only [contributions, List.flatMap_cons, List.flatMap_nil, contribution_issues, reduceCtorEq,
    if_true, if_false, List.nil_append, List.append_nil, List.mem_filterMap] at h
  obtain ⟨e, he, hi⟩ := h
  exact ⟨e, List.mem_of_mem_filter he, hi⟩

/-- The issues that preparation raises. -/
theorem mem_prepared_issues {i : QualityIssue} :
    i ∈ (prepareWeeklyEvents fromisoformat events evidence).issues ↔
    (∃ row ∈ events, invalidRowIdIssue row = some i) ∨
    (∃ id ∈ rowIds events, consistentId fromisoformat events id = false ∧ rowConflictIssue id = i) ∨
    (∃ row ∈ uniqueRows fromisoformat events, validationIssue fromisoformat row = some i) ∨
    ∃ key ∈ movementKeys (survivingEvents fromisoformat events),
      conflicting evidence (survivingEvents fromisoformat events) key = true ∧
        movementConflictIssue evidence (survivingEvents fromisoformat events) key = i := by
  simp [prepareWeeklyEvents, and_assoc]

/-- The movement of an issue follows from its code and its events. -/
theorem issue_movement {i : QualityIssue}
    (h : i ∈ composedIssues orders (prepareWeeklyEvents fromisoformat events evidence)) :
    i.movementKey = namedMovement fromisoformat events i.code i.eventIds := by
  have hplain : "invalid_row_id" ∉ keyedCodes ∧ "telemetry_row_id_conflict" ∉ keyedCodes ∧
      "event_validation_failed" ∉ keyedCodes ∧ "aggregate_integer_overflow" ∉ keyedCodes := by decide
  have hkeyed : "movement_conflict" ∈ keyedCodes ∧ "commercial_order_missing" ∈ keyedCodes ∧
      "outbound_order_verification_unavailable" ∈ keyedCodes ∧
        "commercial_order_identity_conflict" ∈ keyedCodes := by decide
  unfold namedMovement
  simp only [composedIssues, List.mem_append] at h
  rcases h with (hp | hc) | ho
  · rcases mem_prepared_issues.1 hp with ⟨row, -, hi⟩ | ⟨id, -, -, rfl⟩ | ⟨row, -, hi⟩ | ⟨key, hkey, -, rfl⟩
    · unfold invalidRowIdIssue at hi
      split at hi
      · cases hi
      · cases hi
        exact (if_neg hplain.1).symm
    · exact (if_neg hplain.2.1).symm
    · unfold validationIssue at hi
      split at hi
      · cases hi
      · cases hi
        exact (if_neg hplain.2.2.1).symm
    · obtain ⟨e, he, hk, hhead⟩ := head_movementGroup hkey
      have hfirst : (movementConflictIssue evidence (survivingEvents fromisoformat events)
          key).eventIds.head? =
          some e.rowId := by
        rw [movementConflictIssue, List.head?_map, hhead, Option.map_some]
      have hcode : (movementConflictIssue evidence (survivingEvents fromisoformat events)
          key).code ∈ keyedCodes := hkeyed.1
      rw [if_pos hcode, hfirst, Option.bind_some, mem_surviving.1 he, Option.bind_some, hk]
      rfl
  · obtain ⟨e, he, hi⟩ := mem_contribution_issues hc
    have hof := mem_surviving.1 (mem_prepared_iff.1 he).2.mem
    unfold outboundIssue at hi
    split at hi
    · cases hi
      split
      · rw [if_pos hkeyed.2.1, List.head?_cons, Option.bind_some, hof, Option.bind_some]
      · rw [if_pos hkeyed.2.2.1, List.head?_cons, Option.bind_some, hof, Option.bind_some]
    · split at hi
      · cases hi
      · cases hi
        rw [if_pos hkeyed.2.2.2, List.head?_cons, Option.bind_some, hof, Option.bind_some]
  · obtain ⟨o, -, rfl⟩ := List.mem_map.1 ho
    exact (if_neg hplain.2.2.2).symm

/-- What the issues are sorted by. -/
def QualityIssue.sortKey (i : QualityIssue) : String × List String × String :=
  (i.code, i.eventIds, i.message)

theorem sortKey_inj {i j : QualityIssue}
    (hi : i ∈ composedIssues orders (prepareWeeklyEvents fromisoformat events evidence))
    (hj : j ∈ composedIssues orders (prepareWeeklyEvents fromisoformat events evidence))
    (h : i.sortKey = j.sortKey) : i = j := by
  have hki := issue_movement hi
  have hkj := issue_movement hj
  simp only [QualityIssue.sortKey, Prod.mk.injEq] at h
  rw [h.1, h.2.1, ← hkj] at hki
  cases i
  cases j
  simp_all

/-- Issues sort in one way only. -/
theorem composed_issues_congr
    (hp : (composedIssues orders (prepareWeeklyEvents fromisoformat events evidence)).Perm
      (composedIssues orders p')) :
    (composed orders (prepareWeeklyEvents fromisoformat events evidence)).quality.issues =
      (composed orders p').quality.issues := by
  rw [composed_issues, composed_issues]
  exact (linear_textLe.pair ((linear_tupleLe linear_textLe).pair linear_textLe)).sortedBy_key_congr
    (f := QualityIssue.sortKey) (fun a ha b hb => sortKey_inj ha hb) hp

/-- The same rows in another order give the same result, when copies validate alike. -/
theorem composed_perm (h : events.Perm events') (halike : CopiesAlike fromisoformat events) :
    composed orders (prepareWeeklyEvents fromisoformat events evidence) =
      composed orders (prepareWeeklyEvents fromisoformat events' evidence) := by
  have hp : SamePrepared orders (prepareWeeklyEvents fromisoformat events evidence)
    (prepareWeeklyEvents fromisoformat events' evidence) := prepared_perm h halike
  have hcontr : contributions orders (prepareWeeklyEvents fromisoformat events evidence) =
      contributions orders (prepareWeeklyEvents fromisoformat events' evidence) := by
    simp only [contributions, contribution_congr hp.events]
  have hraw : (composedIssues orders (prepareWeeklyEvents fromisoformat events evidence)).Perm
      (composedIssues orders (prepareWeeklyEvents fromisoformat events' evidence)) := by
    unfold composedIssues
    rw [hcontr]
    exact (hp.issues.append_right _).append_right _
  have hissues := composed_issues_congr hraw
  generalize prepareWeeklyEvents fromisoformat events evidence = p at hp hcontr hissues ⊢
  generalize prepareWeeklyEvents fromisoformat events' evidence = p' at hp hcontr hissues ⊢
  have haggregates : (composed orders p).aggregates = (composed orders p').aggregates := by
    simp only [composed, composeWeeklyPerformance, contribution_congr hp.events]
  have hquality : (composed orders p).quality = { (composed orders p').quality with
      issues := (composed orders p).quality.issues } := by
    simp only [composed, composeWeeklyPerformance, contribution_congr hp.events, hp.rejected, hp.duplicates,
      hp.duplicateKeys, hp.duplicateEvents, hp.conflicts, hp.pending]
  rw [hissues] at hquality
  calc composed orders p = ⟨(composed orders p).aggregates, (composed orders p).quality⟩ := rfl
    _ = ⟨(composed orders p').aggregates, (composed orders p').quality⟩ := by rw [haggregates, hquality]
    _ = composed orders p' := rfl

/-! ## What the report shows of a row -/

/-- A report has the reason for which the row that stands for an id is invalid. -/
theorem mem_report_validation {m : String} :
    (⟨"event_validation_failed", m, [id], none⟩ : QualityIssue) ∈
      (composed orders (prepareWeeklyEvents fromisoformat events evidence)).quality.issues ↔ ∃ row,
      survivor fromisoformat events id = some row ∧ outcome fromisoformat row = .error m := by
  have hcodes : "event_validation_failed" ≠ "invalid_row_id" ∧ "event_validation_failed" ≠
    "telemetry_row_id_conflict" ∧ "event_validation_failed" ≠ "movement_conflict" ∧
    "event_validation_failed" ≠ "aggregate_integer_overflow" ∧ "event_validation_failed" ∈
    blockingQualityCodes := by decide
  rw [composed_issues, mem_sortedBy]
  simp only [composedIssues, List.mem_append]
  constructor
  · rintro ((hp | hc) | ho)
    · rcases mem_prepared_issues.1 hp with ⟨row, -, hi⟩ | ⟨id', -, -, hi⟩ | ⟨row, hrow, hi⟩ | ⟨key,
          -, -, hi⟩
      · unfold invalidRowIdIssue at hi
        split at hi
        · cases hi
        · exact absurd (congrArg QualityIssue.code (Option.some.inj hi)).symm hcodes.1
      · exact absurd (congrArg QualityIssue.code hi).symm hcodes.2.1
      · unfold validationIssue at hi
        split at hi
        · cases hi
        · rename_i message hv
          rw [uniqueRows_eq] at hrow
          obtain ⟨id', -, hs⟩ := List.mem_filterMap.1 hrow
          simp only [(survivor_row hs).2.1, Except.toOption, Option.toList_some, Option.some.injEq,
            QualityIssue.mk.injEq, List.cons.injEq, and_true, true_and] at hi
          obtain ⟨rfl, rfl⟩ := hi
          exact ⟨row, hs, outcome_error.2 hv⟩
      · exact absurd (congrArg QualityIssue.code hi).symm hcodes.2.2.1
    · obtain ⟨e, -, hi⟩ := mem_contribution_issues hc
      exact absurd hcodes.2.2.2.2 (outboundIssue_cases hi).1
    · obtain ⟨o, -, hi⟩ := List.mem_map.1 ho
      exact absurd (congrArg QualityIssue.code hi).symm hcodes.2.2.2.1
  · rintro ⟨row, hs, hout⟩
    have hrow : row ∈ uniqueRows fromisoformat events := by
      obtain ⟨hmem, hid, -⟩ := survivor_row hs
      rw [uniqueRows_eq]
      exact List.mem_filterMap.2 ⟨id, mem_rowIds.2 ⟨row, hmem, hid⟩, hs⟩
    refine Or.inl (Or.inl (mem_prepared_issues.2 (Or.inr (Or.inr (Or.inl ⟨row, hrow, ?_⟩)))))
    simp only [validationIssue, outcome_error.1 hout, (survivor_row hs).2.1, Except.toOption,
      Option.toList_some]

/-- Any copy can be put first. -/
theorem exists_first (hrow : row ∈ rowsWithId events id)
    (hc : consistentId fromisoformat events id = true) :
    ∃ events', events.Perm events' ∧ survivor fromisoformat events' id = some row := by
  obtain ⟨hmem, hid⟩ := mem_rowsWithId.1 hrow
  obtain ⟨pre, suf, rfl⟩ := List.append_of_mem hmem
  have hperm : (pre ++ row :: suf).Perm (row :: (pre ++ suf)) := List.perm_middle
  refine ⟨row :: (pre ++ suf), hperm, ?_⟩
  rw [consistentId_perm hperm] at hc
  have hhead : (rowsWithId (row :: (pre ++ suf)) id).head? = some row := by
    simp [rowsWithId, hid]
  rw [survivor, if_pos hc, hhead]

/-- **The order of the rows**: every order of the rows gives the same aggregates and the same report
exactly when the copies of each row are all valid, or all invalid for the same reason. -/
theorem row_order (fromisoformat : String → Option PyValue) (events : List TelemetryRow)
    (orders : CommercialOrderEvidence)
    (evidence : WeekEvidence) :
    (∀ events', events.Perm events' → transformWeeklyPerformance fromisoformat events' orders evidence =
        transformWeeklyPerformance fromisoformat events orders evidence) ↔
      CopiesAlike fromisoformat events := by
  constructor
  · intro hsame id _ hc row hrow row' hrow'
    -- With a copy in front, the report has the reason for which that copy is invalid.
    have hreport : ∀ row ∈ rowsWithId events id, ∀ m, outcome fromisoformat row = .error m ↔
        (⟨"event_validation_failed", m, [id], none⟩ : QualityIssue) ∈
          (composed orders (prepareWeeklyEvents fromisoformat events evidence)).quality.issues := by
      intro row hrow m
      obtain ⟨events', hperm, hs⟩ := exists_first hrow hc
      have hresult := hsame events' hperm
      rw [transform_eq, transform_eq, Except.ok.injEq] at hresult
      change composed orders (prepareWeeklyEvents fromisoformat events' evidence) =
        composed orders (prepareWeeklyEvents fromisoformat events evidence) at hresult
      rw [← hresult, mem_report_validation]
      exact ⟨fun h => ⟨row, hs, h⟩, fun ⟨row', hs', h⟩ => by rw [hs] at hs'; cases hs'; exact h⟩
    cases hout : outcome fromisoformat row with
    | error m => exact ((hreport row' hrow' m).2 ((hreport row hrow m).1 hout)).symm
    | ok u =>
      cases hout' : outcome fromisoformat row' with
      | error m' => rw [(hreport row hrow m').2 ((hreport row' hrow' m').1 hout')] at hout; cases hout
      | ok u' => rfl
  · intro halike events' hperm
    rw [transform_eq, transform_eq]
    exact congrArg Except.ok (composed_perm hperm halike).symm

/-- A movement whose quantity is written in a given way. -/
def quantityOf (quantity : PyValue) : TelemetryRow where
  id := .str "00000000-0000-4000-8000-000000000001"
  timestamp := .aware (midnight 4)
  service := .str "api"
  eventType := .str "inbound_order_created"
  tags := .dict [("warehouse", .str "LA"), ("client_id", .str "acme"), ("movement_id", .str "7"),
    ("quantity", quantity)]

/-- Of the copies with `1` and with `True` the first decides. -/
theorem copies_in_two_orders : ¬∀ (fromisoformat : String → Option PyValue)
    (events events' : List TelemetryRow)
    (orders : CommercialOrderEvidence) (evidence : WeekEvidence), events.Perm events' →
      transformWeeklyPerformance fromisoformat events' orders evidence =
        transformWeeklyPerformance fromisoformat events orders evidence := by
  intro h
  have hsame := h (fun _ => none) [quantityOf (.int 1), quantityOf (.bool true)] [quantityOf (.bool true),
    quantityOf (.int 1)] ⟨fun _ => none, true⟩ none (List.Perm.swap _ _ _)
  rw [transform_eq, transform_eq, Except.ok.injEq] at hsame
  exact absurd (congrArg (fun r => r.quality.rejectedEventIds) hsame) (by decide +kernel)

end TrackFlow.Pipelines
