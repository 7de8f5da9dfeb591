import TrackFlow.Pipelines.WeeklyTransform

/-!
# The quality gate, on inputs

`Unblocked` says, of the rows and the evidence alone, that nothing in them is a defect on which the
publication gate blocks; `gate_open_iff_unblocked` is that the gate is open on the report of the
transformation exactly then. Its parts:

- rows: what is validated are the first rows of the ids (`uniqueRows_perm`);
- movements: the prepared events are one of each movement and stand for the others (`Stands`),
  because what a counter sees of an event is the same for the events of a movement (`share_eq`);
- `gate_rejections`: when the gate lets rejected events through.
-/

namespace TrackFlow.Pipelines

open TrackFlow.Python

variable {fromisoformat : String → Option PyValue} {events : List TelemetryRow} {row : TelemetryRow}
  {e : ValidatedEvent} {evidence : WeekEvidence} {p : PreparedWeeklyEvents}
  {orders : CommercialOrderEvidence}

/-! ## Conditions on the input -/

section Input

variable (fromisoformat : String → Option PyValue) (orders : CommercialOrderEvidence)
  (evidence : WeekEvidence) (events : List TelemetryRow)

/-- The first row of each id. -/
def firstRows (events : List TelemetryRow) : List TelemetryRow :=
  firstBy (fun row => (rowId row.id).toOption) events

/-- The events of the first rows. -/
def observedEvents : List ValidatedEvent := validated fromisoformat (firstRows events)

/-- One event for each movement. -/
def movements : List ValidatedEvent :=
  firstBy ValidatedEvent.movementKey (observedEvents fromisoformat events)

/-- Nothing in the input is a defect on which the gate blocks. -/
structure Unblocked : Prop where
  /-- Every row has an id. -/
  ids : ∀ row ∈ events, ∃ id, rowId row.id = .ok id
  /-- The rows of an id are copies of the first. -/
  copies : ∀ first ∈ firstRows events, ∀ row ∈ events, rowId row.id = rowId first.id →
    samePersistedRow fromisoformat first row = true
  /-- Every first row validates. -/
  valid : ∀ row ∈ firstRows events, ∃ e, validateEvent fromisoformat row = .ok e
  /-- The events of a movement agree. -/
  agree : ∀ e ∈ observedEvents fromisoformat events, ∀ e' ∈ observedEvents fromisoformat events,
    e.movementKey = e'.movementKey → movementSignature e = movementSignature e'
  /-- Complete evidence has each movement in the week in which it was observed, and in no other. -/
  weeks : ∀ e ∈ observedEvents fromisoformat events, ∀ key, e.movementKey = some key →
    ∃ item, (evidence.bind fun lookup => lookup key) = some item ∧ item.complete = true ∧
      ∀ w, w ∈ item.weekStarts ↔ w = e.weekStart
  /-- No outbound event contradicts the record of its order. -/
  uncontradicted : ∀ e ∈ observedEvents fromisoformat events, e.eventType = .outboundOrderCreated →
    contradicted orders e = false
  /-- No counter overflows. -/
  fits : ∀ t key, counter orders (movements fromisoformat events) t key ≤ 2147483647

end Input

/-! ## Rows -/

theorem find_of_mem_firstBy {α κ : Type} [DecidableEq κ] {f : α → κ} {b : α} :
    ∀ {as : List α}, b ∈ firstBy f as →
    as.find? (fun a => f a = f b) = some b
  | a :: as, h => by
    simp only [firstBy, List.mem_cons, List.mem_filter, decide_eq_true_eq] at h
    rcases h with rfl | ⟨h, hne⟩
    · simp
    · have hne' : f a ≠ f b := fun e => hne e.symm
      simpa [List.find?_cons, hne'] using find_of_mem_firstBy h

theorem samePersistedRow_refl (row : TelemetryRow) : samePersistedRow fromisoformat row row = true := by
  have hts : sameTimestamp fromisoformat row.timestamp row.timestamp = true := by
    unfold sameTimestamp
    split
    · rename_i a b ha hb
      rw [ha, Except.ok.injEq] at hb
      simpa using hb
    · exact decide_eq_true rfl
  simp [samePersistedRow, hts]

theorem toOption_eq_some {ε α : Type} {x : Except ε α} {a : α} : x.toOption = some a ↔ x = .ok a := by
  cases x <;> simp [Except.toOption]

theorem mem_rowIds {id : String} : id ∈ rowIds events ↔ ∃ row ∈ events, rowId row.id = .ok id := by
  simp [rowIds, toOption_eq_some]

/-- The row that stands for an id. -/
theorem head_rowsWithId (id : String) :
    (rowsWithId events id).head? = events.find? fun row => (rowId row.id).toOption = some id := by
  rw [rowsWithId, List.head?_filter]
  congr 1
  funext row
  simp [toOption_eq_some]

/-- The rows of an id are copies of the first. -/
theorem consistentId_iff {id : String} {first : TelemetryRow}
    (h : (rowsWithId events id).head? = some first) :
    consistentId fromisoformat events id = true ↔
      ∀ row ∈ events, rowId row.id = .ok id → samePersistedRow fromisoformat first row = true := by
  unfold consistentId
  cases hr : rowsWithId events id with
  | nil => rw [hr] at h; cases h
  | cons a rest =>
    rw [hr] at h
    cases h
    have hmem : ∀ row, row ∈ first :: rest ↔ row ∈ events ∧ rowId row.id = .ok id := by
      intro row
      rw [← hr]
      simp [rowsWithId]
    constructor
    · intro hall row hrow hid
      rcases List.mem_cons.1 ((hmem row).2 ⟨hrow, hid⟩) with rfl | hm
      · exact samePersistedRow_refl _
      · exact List.all_eq_true.1 hall row hm
    · intro hall
      rw [List.all_eq_true]
      intro row hrow
      obtain ⟨he, hid⟩ := (hmem row).1 (List.mem_cons_of_mem _ hrow)
      exact hall row he hid

/-- When every row has an id, an id is consistent as its first row is. -/
theorem consistent_iff (hids : ∀ row ∈ events, ∃ id, rowId row.id = .ok id) :
    (∀ id ∈ rowIds events, consistentId fromisoformat events id = true) ↔
      ∀ first ∈ firstRows events, ∀ row ∈ events, rowId row.id = rowId first.id →
        samePersistedRow fromisoformat first row = true := by
  have hhead : ∀ first ∈ firstRows events, ∀ id, rowId first.id = .ok id →
      (rowsWithId events id).head? = some first := by
    intro first hf id hid
    rw [head_rowsWithId, ← find_of_mem_firstBy hf, toOption_eq_some.2 hid]
  constructor
  · intro h first hf row hrow heq
    obtain ⟨id, hid⟩ := hids first (mem_firstBy hf)
    have hcons := h id (mem_rowIds.2 ⟨first, mem_firstBy hf, hid⟩)
    exact (consistentId_iff (hhead first hf id hid)).1 hcons row hrow (by rw [heq, hid])
  · intro h id hid
    obtain ⟨row, hrow, hr⟩ := mem_rowIds.1 hid
    obtain ⟨first, hf, hfr⟩ :=
      exists_mem_firstBy (f := fun row : TelemetryRow => (rowId row.id).toOption) hrow
    have hfid : rowId first.id = .ok id := toOption_eq_some.1 (by rw [hfr]; exact toOption_eq_some.2 hr)
    exact (consistentId_iff (hhead first hf id hfid)).2 fun r hr' hrid =>
        h first hf r hr' (by rw [hrid, hfid])

/-- The rows that are validated are the first rows. -/
theorem uniqueRows_perm (hids : ∀ row ∈ events, ∃ id, rowId row.id = .ok id)
    (hc : ∀ id ∈ rowIds events, consistentId fromisoformat events id = true) :
    (uniqueRows fromisoformat events).Perm (firstRows events) := by
  have hhead : ∀ id ∈ rowIds events, ∃ row ∈ events, rowId row.id = .ok id ∧
      (rowsWithId events id).head? = some row := by
    intro id hid
    obtain ⟨row, hrow, hr⟩ := mem_rowIds.1 hid
    cases hh : (rowsWithId events id).head? with
    | none =>
      rw [head_rowsWithId, List.find?_eq_none] at hh
      exact absurd (toOption_eq_some.2 hr) (by simpa using hh row hrow)
    | some first =>
      have hf : first ∈ rowsWithId events id := List.mem_of_mem_head? hh
      simp only [rowsWithId, List.mem_filter, decide_eq_true_eq] at hf
      exact ⟨first, hf.1, hf.2, rfl⟩
  have hunique : uniqueRows fromisoformat events = (rowIds events).filterMap fun id =>
    (rowsWithId events id).head? := by
    rw [uniqueRows, List.filter_eq_self.2 hc]
  have hkeys : (uniqueRows fromisoformat events).map (fun row => (rowId row.id).toOption) =
      (rowIds events).map some := by
    rw [hunique, List.map_filterMap, ← List.filterMap_eq_map]
    refine List.filterMap_congr fun id hid => ?_
    obtain ⟨row, -, hr, hh⟩ := hhead id hid
    simp [hh, toOption_eq_some.2 hr]
  have hperm : ((uniqueRows fromisoformat events).map id).Perm ((firstRows events).map id) :=
    perm_map_of_keys (k := fun row => (rowId row.id).toOption) ?_ (firstBy_keys events) ?_ ?_
  · simpa using hperm
  · rw [hkeys]
    exact (nodup_sortedSet textLe _).map (Option.some_injective _)
  · intro x
    rw [hkeys]
    constructor
    · intro hx
      obtain ⟨id, hid, rfl⟩ := List.mem_map.1 hx
      obtain ⟨row, hrow, hr, -⟩ := hhead id hid
      obtain ⟨first, hf, hfr⟩ :=
        exists_mem_firstBy (f := fun row : TelemetryRow => (rowId row.id).toOption) hrow
      exact List.mem_map.2 ⟨first, hf, hfr.trans (toOption_eq_some.2 hr)⟩
    · intro hx
      obtain ⟨first, hf, rfl⟩ := List.mem_map.1 hx
      obtain ⟨id, hid⟩ := hids first (mem_firstBy hf)
      rw [toOption_eq_some.2 hid]
      exact List.mem_map_of_mem (mem_rowIds.2 ⟨first, mem_firstBy hf, hid⟩)
  · intro a ha b hb hab
    rw [hunique] at ha
    obtain ⟨id, hid, hh⟩ := List.mem_filterMap.1 ha
    obtain ⟨row, hrow, hr, hh'⟩ := hhead id hid
    rw [hh', Option.some.injEq] at hh
    subst hh
    have hfind := find_of_mem_firstBy hb
    rw [← hab, toOption_eq_some.2 hr, ← head_rowsWithId, hh'] at hfind
    exact Option.some.inj hfind

/-! ## Movements -/

theorem dedup_length_le_one {α : Type} [DecidableEq α] {l : List α} :
    l.dedup.length ≤ 1 ↔ ∀ a ∈ l, ∀ b ∈ l, a = b := by
  constructor
  · intro h a ha b hb
    have ha' := List.mem_dedup.2 ha
    have hb' := List.mem_dedup.2 hb
    cases hd : l.dedup with
    | nil => rw [hd] at ha'; cases ha'
    | cons x xs =>
      have hxs : xs = [] := by
        rw [hd, List.length_cons] at h
        exact List.length_eq_zero_iff.1 (by omega)
      rw [hd, hxs, List.mem_singleton] at ha' hb'
      rw [ha', hb']
  · intro h
    by_contra hlt
    have hnd := List.nodup_dedup l
    match hd : l.dedup, hlt with
    | [], hlt => simp at hlt
    | [x], hlt => simp at hlt
    | x :: y :: rest, _ =>
      rw [hd] at hnd
      have hx : x ∈ l := List.mem_dedup.1 (by simp [hd])
      have hy : y ∈ l := List.mem_dedup.1 (by simp [hd])
      exact (List.nodup_cons.1 hnd).1 (by simp [h x hx y hy])

theorem signature_week {e e' : ValidatedEvent} (h : movementSignature e = movementSignature e') :
    e.warehouse = e'.warehouse ∧ e.clientId = e'.clientId ∧ stableValue e.tags = stableValue e'.tags ∧
      e.weekStart = e'.weekStart := by
  simpa [movementSignature] using h

/-- Evidence that neither waits nor conflicts is complete, with the observed weeks, of which there
is one at most. -/
theorem evidenceForKey_clear {key : MovementKey} {weeks : List Int} :
    evidenceForKey evidence key weeks = (false, false) ↔
    ∃ item, (evidence.bind fun lookup => lookup key) = some item ∧ item.complete = true ∧
      (∀ a ∈ item.weekStarts, ∀ b ∈ item.weekStarts, a = b) ∧ ∀ w, w ∈ item.weekStarts ↔ w ∈ weeks := by
  unfold evidenceForKey
  cases evidence.bind fun lookup => lookup key with
  | none => simp
  | some item =>
    cases hc : item.complete with
    | false => simp [hc]
    | true =>
      simp only [hc, Bool.not_true, Bool.false_eq_true, if_false, Prod.mk.injEq, true_and,
          Bool.or_eq_false_iff,
        decide_eq_false_iff_not, not_lt, Bool.not_eq_false', Bool.and_eq_true, decide_eq_true_eq,
          Option.some.injEq,
        exists_eq_left', List.subset_def]
      rw [← dedup_length_le_one]
      exact and_congr_right fun _ => ⟨fun h w => ⟨fun hw => h.1 hw, fun hw => h.2 hw⟩,
        fun h => ⟨fun hw => (h _).1 hw, fun hw => (h _).2 hw⟩⟩

theorem mem_observedWeeks {es : List ValidatedEvent} {key : MovementKey} {w : Int} :
    w ∈ observedWeeks es key ↔ ∃ e ∈ es, e.movementKey = some key ∧ e.weekStart = w := by
  simp [observedWeeks, mem_movementGroup, and_assoc]

/-- No movement conflicts or waits for verification exactly when its events agree and the evidence
has it in their week. -/
theorem movements_clear_iff {es : List ValidatedEvent} (hk : ∀ e ∈ es, e.movementKey ≠ none) :
    (∀ key ∈ movementKeys es, conflicting evidence es key = false ∧
      (evidenceForKey evidence key (observedWeeks es key)).1 = false) ↔
    (∀ e ∈ es, ∀ e' ∈ es, e.movementKey = e'.movementKey → movementSignature e = movementSignature e') ∧
      ∀ e ∈ es, ∀ key, e.movementKey = some key → ∃ item, (evidence.bind fun lookup => lookup key) =
      some item ∧ item.complete = true ∧ ∀ w, w ∈ item.weekStarts ↔ w = e.weekStart := by
  have hkey : ∀ key, (conflicting evidence es key = false ∧
      (evidenceForKey evidence key (observedWeeks es key)).1 = false) ↔
      (∀ e ∈ movementGroup es key, ∀ e' ∈ movementGroup es key, movementSignature e =
        movementSignature e') ∧ evidenceForKey evidence key (observedWeeks es key) = (false, false) := by
    intro key
    have hd := dedup_length_le_one (l := (movementGroup es key).map movementSignature)
    simp only [List.forall_mem_map] at hd
    rw [← hd, conflicting, Bool.or_eq_false_iff, decide_eq_false_iff_not, not_lt, Prod.ext_iff]
    tauto
  constructor
  · intro h
    have hagree : ∀ e ∈ es, ∀ e' ∈ es, e.movementKey = e'.movementKey → movementSignature e =
        movementSignature e' := by
      intro e he e' he' heq
      obtain ⟨key, hke⟩ := Option.ne_none_iff_exists'.1 (hk e he)
      have hc := ((hkey key).1 (h key (mem_movementKeys.2 ⟨e, he, hke⟩))).1
      exact hc e (mem_movementGroup.2 ⟨he, hke⟩) e' (mem_movementGroup.2 ⟨he', by rw [← heq, hke]⟩)
    refine ⟨hagree, fun e he key hke => ?_⟩
    have hc := ((hkey key).1 (h key (mem_movementKeys.2 ⟨e, he, hke⟩))).2
    obtain ⟨item, hi, hcomp, -, hw⟩ := evidenceForKey_clear.1 hc
    refine ⟨item, hi, hcomp, fun w => ?_⟩
    rw [hw, mem_observedWeeks]
    constructor
    · rintro ⟨e', he', hke', rfl⟩
      exact (signature_week (hagree e' he' e he (by rw [hke, hke']))).2.2.2
    · rintro rfl
      exact ⟨e, he, hke, rfl⟩
  · rintro ⟨hagree, hweeks⟩ key hkm
    obtain ⟨e, he, hke⟩ := mem_movementKeys.1 hkm
    refine (hkey key).2 ⟨fun a ha b hb => ?_, ?_⟩
    · obtain ⟨ha, hka⟩ := mem_movementGroup.1 ha
      obtain ⟨hb, hkb⟩ := mem_movementGroup.1 hb
      exact hagree a ha b hb (by rw [hka, hkb])
    · obtain ⟨item, hi, hcomp, hw⟩ := hweeks e he key hke
      refine evidenceForKey_clear.2 ⟨item, hi, hcomp, fun a ha b hb => ?_, fun w => ?_⟩
      · rw [(hw a).1 ha, (hw b).1 hb]
      · rw [hw, mem_observedWeeks]
        constructor
        · rintro rfl
          exact ⟨e, he, hke, rfl⟩
        · rintro ⟨e', he', hke', rfl⟩
          exact (signature_week (hagree e' he' e he (by rw [hke, hke']))).2.2.2

/-- Preparation raises nothing that blocks exactly when the rows have ids, are copies where ids
repeat, validate, and are clear as movements. -/
theorem prepared_gate_iff : ((∀ i ∈ (prepareWeeklyEvents fromisoformat events evidence).issues,
      i.code ∉ blockingQualityCodes) ∧
        (prepareWeeklyEvents fromisoformat events evidence).conflictMovementKeys = [] ∧
      (prepareWeeklyEvents fromisoformat events evidence).crossWeekVerificationPending = []) ↔
    (∀ row ∈ events, ∃ id, rowId row.id = .ok id) ∧
    (∀ id ∈ rowIds events, consistentId fromisoformat events id = true) ∧
    (∀ row ∈ uniqueRows fromisoformat events, ∃ e, validateEvent fromisoformat row = .ok e) ∧
    ∀ key ∈ movementKeys (validated fromisoformat (uniqueRows fromisoformat events)),
      conflicting evidence (validated fromisoformat (uniqueRows fromisoformat events)) key = false ∧
        (evidenceForKey evidence key
            (observedWeeks (validated fromisoformat (uniqueRows fromisoformat events)) key)).1 =
          false := by
  have hcodes : "invalid_row_id" ∈ blockingQualityCodes ∧ "telemetry_row_id_conflict" ∈
      blockingQualityCodes ∧
      "event_validation_failed" ∈ blockingQualityCodes := by decide
  have hid : ∀ row : TelemetryRow, (∃ id, rowId row.id = .ok id) ↔ invalidRowIdIssue row = none := by
    intro row
    unfold invalidRowIdIssue
    cases rowId row.id <;> simp
  have hval : ∀ row, (∃ e, validateEvent fromisoformat row = .ok e) ↔
      validationIssue fromisoformat row = none := by
    intro row
    unfold validationIssue
    cases validateEvent fromisoformat row <;> simp
  have hidcode : ∀ row i, invalidRowIdIssue row = some i → i.code ∈ blockingQualityCodes := by
    intro row i h
    unfold invalidRowIdIssue at h
    split at h
    · cases h
    · cases h; exact hcodes.1
  have hvalcode : ∀ row i, validationIssue fromisoformat row = some i → i.code ∈ blockingQualityCodes := by
    intro row i h
    unfold validationIssue at h
    split at h
    · cases h
    · cases h; exact hcodes.2.2
  have hissues : ∀ i, i ∈ (prepareWeeklyEvents fromisoformat events evidence).issues ↔
      (∃ row ∈ events, invalidRowIdIssue row = some i) ∨
      (∃ id ∈ rowIds events, consistentId fromisoformat events id = false ∧ rowConflictIssue id = i) ∨
      (∃ row ∈ uniqueRows fromisoformat events, validationIssue fromisoformat row = some i) ∨
      ∃ key ∈ movementKeys (validated fromisoformat (uniqueRows fromisoformat events)),
        conflicting evidence (validated fromisoformat (uniqueRows fromisoformat events)) key = true ∧
          movementConflictIssue evidence (validated fromisoformat (uniqueRows fromisoformat events))
            key = i := by
    intro i
    simp [prepareWeeklyEvents, and_assoc]
  have hconf : (prepareWeeklyEvents fromisoformat events evidence).conflictMovementKeys = [] ↔
      ∀ key ∈ movementKeys (validated fromisoformat (uniqueRows fromisoformat events)),
        conflicting evidence (validated fromisoformat (uniqueRows fromisoformat events)) key = false := by
    simp [prepareWeeklyEvents, List.filter_eq_nil_iff]
  have hpend : (prepareWeeklyEvents fromisoformat events evidence).crossWeekVerificationPending = [] ↔
      ∀ key ∈ movementKeys (validated fromisoformat (uniqueRows fromisoformat events)),
        (evidenceForKey evidence key
            (observedWeeks (validated fromisoformat (uniqueRows fromisoformat events)) key)).1 =
          false := by
    simp [prepareWeeklyEvents, List.filter_eq_nil_iff]
  rw [hconf, hpend]
  constructor
  · rintro ⟨hi, hc, hp⟩
    refine ⟨fun row hrow => (hid row).2 ?_, fun id hmem => ?_, fun row hrow => (hval row).2 ?_,
      fun key hkey => ⟨hc key hkey, hp key hkey⟩⟩
    · by_contra hne
      obtain ⟨i, hrow'⟩ := Option.ne_none_iff_exists'.1 hne
      exact hi i ((hissues i).2 (Or.inl ⟨row, hrow, hrow'⟩)) (hidcode row i hrow')
    · by_contra hne
      rw [Bool.not_eq_true] at hne
      exact hi _ ((hissues _).2 (Or.inr (Or.inl ⟨id, hmem, hne, rfl⟩))) hcodes.2.1
    · by_contra hne
      obtain ⟨i, hrow'⟩ := Option.ne_none_iff_exists'.1 hne
      exact hi i ((hissues i).2 (Or.inr (Or.inr (Or.inl ⟨row, hrow, hrow'⟩)))) (hvalcode row i hrow')
  · rintro ⟨hids, hcons, hvalid, hclear⟩
    refine ⟨fun i him => ?_, fun key hkey => (hclear key hkey).1, fun key hkey => (hclear key hkey).2⟩
    rcases (hissues i).1 him with ⟨row, hrow, h⟩ | ⟨id, hmem, h, -⟩ | ⟨row, hrow, h⟩ | ⟨key, hkey, h, -⟩
    · rw [(hid row).1 (hids row hrow)] at h
      cases h
    · rw [hcons id hmem] at h
      cases h
    · rw [(hval row).1 (hvalid row hrow)] at h
      cases h
    · rw [(hclear key hkey).1] at h
      cases h

theorem prepared_rejected (h : (∀ i ∈ (prepareWeeklyEvents fromisoformat events evidence).issues,
      i.code ∉ blockingQualityCodes) ∧
        (prepareWeeklyEvents fromisoformat events evidence).conflictMovementKeys = [] ∧
      (prepareWeeklyEvents fromisoformat events evidence).crossWeekVerificationPending = []) :
    (prepareWeeklyEvents fromisoformat events evidence).rejectedEventIds = [] := by
  obtain ⟨-, hcons, hvalid, hclear⟩ := prepared_gate_iff.1 h
  have hinvalid : (uniqueRows fromisoformat events).filterMap (validationIssue fromisoformat) = [] := by
    rw [List.filterMap_eq_nil_iff]
    intro row hrow
    obtain ⟨e, he⟩ := hvalid row hrow
    simp only [validationIssue, he]
  simp only [prepareWeeklyEvents, sortedSet_eq_nil, List.append_eq_nil_iff, hinvalid, List.flatMap_nil,
    and_true, List.filter_eq_nil_iff, List.flatMap_eq_nil_iff, List.mem_filter]
  refine ⟨fun id hid => by simp [hcons id hid], fun key hkey => ?_⟩
  rw [(hclear key hkey.1).1] at hkey
  simp at hkey

/-! ## What events of one movement share -/

theorem findKey_stableDict (key : String) : ∀ kvs : List (String × PyValue),
    findKey key (stableDict kvs) = (findKey key kvs).map stableValue
  | [] => rfl
  | (k, x) :: kvs => by
    simp only [stableDict, findKey, findKey_stableDict key kvs]
    split <;> rfl

/-- Dictionaries with the same stable value have the same items, up to stable values. -/
theorem stableValue_get {a b : List (String × PyValue)}
    (h : stableValue (.dict a) = stableValue (.dict b)) (key : String) :
    stableValue ((PyValue.dict a).get key) = stableValue ((PyValue.dict b).get key) := by
  have hinj : Function.Injective fun p : String × Normal => Normal.list [.leaf (.str p.1), p.2] := by
    intro p q hpq
    simp only [Normal.list.injEq, List.cons.injEq, Normal.leaf.injEq, Leaf.str.injEq, and_true] at hpq
    exact Prod.ext hpq.1 hpq.2
  have hsort : sortByKey (stableDict a) = sortByKey (stableDict b) := by
    simp only [stableValue, Normal.list.injEq] at h
    exact hinj.list_map h
  have hfind : (findKey key a).map stableValue = (findKey key b).map stableValue := by
    rw [← findKey_stableDict, ← findKey_stableDict, ← findKey_sortByKey, hsort, findKey_sortByKey]
  simp only [PyValue.get, PyValue.lookup_eq_findKey]
  cases ha : findKey key a <;> cases hb : findKey key b <;> rw [ha, hb] at hfind <;> simp_all

/-- Events with the same stable tags agree on every tag, up to stable values. -/
theorem ValidEvent.stable_get {row' : TelemetryRow} {e' : ValidatedEvent}
    (h : ValidEvent fromisoformat row e)
    (h' : ValidEvent fromisoformat row' e') (ht : stableValue e.tags = stableValue e'.tags) (key : String) :
    stableValue (e.tags.get key) = stableValue (e'.tags.get key) := by
  obtain ⟨kvs, hd⟩ := h.dict
  obtain ⟨kvs', hd'⟩ := h'.dict
  rw [h.tags, hd, h'.tags, hd'] at ht ⊢
  exact stableValue_get ht key

/-- What a counter sees of an event. -/
def ValidatedEvent.share (orders : CommercialOrderEvidence) (e : ValidatedEvent) :
    EventType × AggregateKey × Int × Bool :=
  (e.eventType, e.key, e.amount, e.eventType ≠ .outboundOrderCreated || (outboundIssue orders e).isNone)

theorem orderId_eq {row' : TelemetryRow} {e' : ValidatedEvent} (h : ValidEvent fromisoformat row e)
    (h' : ValidEvent fromisoformat row' e') (hk : e.movementKey = e'.movementKey) :
    e.eventType = e'.eventType ∧ (e.eventType = .outboundOrderCreated → e.tags.get "order_id" =
      e'.tags.get "order_id") := by
  obtain ⟨i, hi, hm⟩ := h.movementKey
  obtain ⟨i', hi', hm'⟩ := h'.movementKey
  rw [hm, hm', Option.some.injEq, Prod.mk.injEq] at hk
  obtain ⟨ht, rfl⟩ := hk
  refine ⟨ht, fun ho => ?_⟩
  rw [← ht] at hi'
  rw [ho] at hi hi'
  exact hi.trans hi'.symm

/-- The counters cannot tell the events of one movement apart, when these have the same signature. -/
theorem share_eq {row' : TelemetryRow} {e' : ValidatedEvent} (h : ValidEvent fromisoformat row e)
    (h' : ValidEvent fromisoformat row' e') (hk : e.movementKey = e'.movementKey)
    (hs : movementSignature e = movementSignature e') :
    e.share orders = e'.share orders ∧ (e.eventType = .outboundOrderCreated → contradicted orders e =
      contradicted orders e' ∧ orderRecord orders e = orderRecord orders e') := by
  obtain ⟨hw, hc, htags, hweek⟩ := signature_week hs
  obtain ⟨ht, ho⟩ := orderId_eq h h' hk
  have hrec : e.eventType = .outboundOrderCreated → orderRecord orders e = orderRecord orders e' ∧
      ∀ record, identityConflicts record e = identityConflicts record e' := by
    intro hout
    refine ⟨by simp only [orderRecord, ho hout], fun record => by simp only [identityConflicts, ho hout, hw, hc]⟩
  have hiss : e.eventType = .outboundOrderCreated → (outboundIssue orders e).isNone =
      (outboundIssue orders e').isNone := by
    intro hout
    obtain ⟨hr, hi⟩ := hrec hout
    simp only [outboundIssue, hr]
    cases orderRecord orders e' with
    | none => rfl
    | some record =>
      simp only [hi]
      split <;> rfl
  have hamount : e.amount = e'.amount := by
    simp only [ValidatedEvent.amount, ht]
    split
    · rename_i hin
      have hq := (integerQuantity_ok (h.quantity (ht.trans hin)).1).1
      have hq' := (integerQuantity_ok (h'.quantity hin).1).1
      have hst := h.stable_get h' htags "quantity"
      rw [hq, hq'] at hst
      simpa [stableValue, PyValue.normal] using hst
    · rfl
  refine ⟨?_, fun hout => ⟨?_, (hrec hout).1⟩⟩
  · simp only [ValidatedEvent.share, ValidatedEvent.key, hw, hc, hweek, hamount, ← ht,
        Prod.mk.injEq, true_and]
    by_cases hout : e.eventType = .outboundOrderCreated
    · rw [hiss hout]
    · simp [hout]
  · simp only [contradicted, (hrec hout).1]
    congr 1
    funext record
    rw [(hrec hout).2 record]

/-- Counters depend on the shares only. -/
theorem counter_share (es : List ValidatedEvent) (t : EventType) (key : AggregateKey) :
    counter orders es t key =
    (((es.map (ValidatedEvent.share orders)).filter fun s => (s.1 = t && s.2.2.2) && s.2.1 = key).map
      fun s => s.2.2.1).sum := by
  have hf : (counted orders es t).filter (fun e => decide (e.key = key)) = es.filter fun e =>
      (decide ((e.share orders).1 = t) && (e.share orders).2.2.2) &&
          decide ((e.share orders).2.1 = key) := by
    rw [counted, List.filter_filter]
    refine List.filter_congr fun e _ => ?_
    by_cases ht : e.eventType = t
    · subst ht
      simp [ValidatedEvent.share, Bool.and_comm]
    · simp [ValidatedEvent.share, ht]
  rw [counter, hf, List.filter_map, List.map_map]
  rfl

theorem counter_perm {es es' : List ValidatedEvent}
    (h : (es.map (ValidatedEvent.share orders)).Perm (es'.map (ValidatedEvent.share orders)))
    (t : EventType) (key : AggregateKey) : counter orders es t key = counter orders es' t key := by
  rw [counter_share, counter_share]
  exact ((h.filter _).map _).sum_eq

/-! ## One event for each movement -/

/-- A movement that occurs has a first event. -/
theorem head_movementGroup {es : List ValidatedEvent} {key : MovementKey} (hkey : key ∈ movementKeys es) :
    ∃ e ∈ es, e.movementKey = some key ∧ (movementGroup es key).head? = some e := by
  obtain ⟨e, he, hke⟩ := mem_movementKeys.1 hkey
  have hmem := mem_movementGroup.2 ⟨he, hke⟩
  cases hg : movementGroup es key with
  | nil => rw [hg] at hmem; cases hmem
  | cons a rest =>
    have ha : a ∈ movementGroup es key := by simp [hg]
    obtain ⟨ha, hka⟩ := mem_movementGroup.1 ha
    exact ⟨a, ha, hka, rfl⟩

/-- There is one representative of each movement that does not conflict. -/
theorem representatives_keys {es : List ValidatedEvent} :
    (representatives evidence es).map ValidatedEvent.movementKey =
    ((movementKeys es).filter fun key => !conflicting evidence es key).map some := by
  unfold representatives
  rw [List.map_filterMap, ← List.filterMap_eq_map]
  refine List.filterMap_congr fun key hkey => ?_
  obtain ⟨e, -, hk, hh⟩ := head_movementGroup (List.mem_of_mem_filter hkey)
  simp [hh, hk]

theorem representatives_nodup {es : List ValidatedEvent} :
    ((representatives evidence es).map ValidatedEvent.movementKey).Nodup := by
  rw [representatives_keys]
  exact ((nodup_sortedSet movementLe _).filter _).map (Option.some_injective _)

/-- When the movements are clear, preparation hands on one event of each. -/
theorem prepared_of_clear
    (h : ∀ key ∈ movementKeys (validated fromisoformat (uniqueRows fromisoformat events)),
      conflicting evidence (validated fromisoformat (uniqueRows fromisoformat events)) key = false) :
    ((prepareWeeklyEvents fromisoformat events evidence).events.map ValidatedEvent.movementKey).Nodup ∧
    (∀ e ∈ (prepareWeeklyEvents fromisoformat events evidence).events,
      e ∈ validated fromisoformat (uniqueRows fromisoformat events)) ∧
    ∀ e ∈ validated fromisoformat (uniqueRows fromisoformat events),
      ∃ e' ∈ (prepareWeeklyEvents fromisoformat events evidence).events, e'.movementKey =
      e.movementKey := by
  let es := validated fromisoformat (uniqueRows fromisoformat events)
  have hperm : (prepareWeeklyEvents fromisoformat events evidence).events.Perm
      (representatives evidence es) :=
    prepared_events
  have hkeys :
      (representatives evidence es).map ValidatedEvent.movementKey = (movementKeys es).map some := by
    rw [representatives_keys, List.filter_eq_self.2 fun key hkey => by simp [es, h key hkey]]
  refine ⟨?_, fun e he => mem_representatives (hperm.mem_iff.1 he), fun e he => ?_⟩
  · exact (hperm.map _).nodup_iff.2 representatives_nodup
  · obtain ⟨row, -, hv⟩ := mem_validated he
    obtain ⟨i, -, hk⟩ := hv.movementKey
    have hkey : some (e.eventType, i) ∈ (representatives evidence es).map ValidatedEvent.movementKey := by
      rw [hkeys]
      exact List.mem_map_of_mem (mem_movementKeys.2 ⟨e, he, hk⟩)
    obtain ⟨e', he', hk'⟩ := List.mem_map.1 hkey
    exact ⟨e', hperm.mem_iff.2 he', by rw [hk', hk]⟩

theorem observed_perm (hids : ∀ row ∈ events, ∃ id, rowId row.id = .ok id)
    (hc : ∀ id ∈ rowIds events, consistentId fromisoformat events id = true) :
    (validated fromisoformat (uniqueRows fromisoformat events)).Perm
      (observedEvents fromisoformat events) :=
  (uniqueRows_perm hids hc).filterMap _

/-- Where preparation is clear, the prepared events are one of each movement, and stand for the others. -/
structure Stands (fromisoformat : String → Option PyValue) (events : List TelemetryRow)
    (p : PreparedWeeklyEvents) : Prop where
  once : (p.events.map ValidatedEvent.movementKey).Nodup
  observed : ∀ e ∈ p.events, e ∈ observedEvents fromisoformat events
  stands : ∀ e ∈ observedEvents fromisoformat events, ∃ e' ∈ p.events, e'.movementKey = e.movementKey
  agree : ∀ e ∈ observedEvents fromisoformat events, ∀ e' ∈ observedEvents fromisoformat events,
    e.movementKey = e'.movementKey → movementSignature e = movementSignature e'

theorem Stands.share (h : Stands fromisoformat events p) :
    (p.events.map (ValidatedEvent.share orders)).Perm ((movements fromisoformat events).map
      (ValidatedEvent.share orders)) := by
  refine perm_map_of_keys h.once (firstBy_keys _) (fun k => ?_) fun a ha b hb hab => ?_
  · constructor
    · intro hk
      obtain ⟨e, he, rfl⟩ := List.mem_map.1 hk
      obtain ⟨b, hb, hbe⟩ := exists_mem_firstBy (f := ValidatedEvent.movementKey) (h.observed e he)
      exact List.mem_map.2 ⟨b, hb, hbe⟩
    · intro hk
      obtain ⟨b, hb, rfl⟩ := List.mem_map.1 hk
      obtain ⟨e', he', hk'⟩ := h.stands b (mem_firstBy hb)
      exact List.mem_map.2 ⟨e', he', hk'⟩
  · have ha' := h.observed a ha
    have hb' := mem_firstBy hb
    obtain ⟨_, -, hva⟩ := mem_validated ha'
    obtain ⟨_, -, hvb⟩ := mem_validated hb'
    exact (share_eq hva hvb hab (h.agree a ha' b hb' hab)).1

/-- A fact about outbound events that the movement determines holds of the prepared ones as of all. -/
theorem Stands.outbound {P : ValidatedEvent → Prop} (h : Stands fromisoformat events p)
    (hP : ∀ e e', contradicted orders e = contradicted orders e' → orderRecord orders e =
      orderRecord orders e' → P e → P e') :
    (∀ e ∈ p.ofType .outboundOrderCreated, P e) ↔
      ∀ e ∈ observedEvents fromisoformat events, e.eventType = .outboundOrderCreated → P e := by
  constructor
  · intro hall e he hout
    obtain ⟨e', he', hk⟩ := h.stands e he
    obtain ⟨_, -, hv⟩ := mem_validated he
    obtain ⟨_, -, hv'⟩ := mem_validated (h.observed e' he')
    have ht := (orderId_eq hv' hv hk).1
    have hsame : contradicted orders e' = contradicted orders e ∧ orderRecord orders e' =
        orderRecord orders e :=
      (share_eq hv' hv hk (h.agree e' (h.observed e' he') e he hk)).2 (ht.trans hout)
    refine hP e' e hsame.1 hsame.2 (hall e' ?_)
    simp [PreparedWeeklyEvents.ofType, he', ht.trans hout]
  · intro hall e he
    simp only [PreparedWeeklyEvents.ofType, List.mem_filter, decide_eq_true_eq] at he
    exact hall e (h.observed e he.1) he.2

theorem counter_nonneg {es : List ValidatedEvent} (hes : ∀ e ∈ es, ∃ row, ValidEvent fromisoformat row e)
    (t : EventType) (key : AggregateKey) : 0 ≤ counter orders es t key := by
  refine List.sum_nonneg fun x hx => ?_
  obtain ⟨e, he, rfl⟩ := List.mem_map.1 hx
  simp only [counted, List.mem_filter] at he
  obtain ⟨row, hv⟩ := hes e he.1.1
  unfold ValidatedEvent.amount
  split
  · rename_i hin
    exact le_of_lt (hv.quantity hin).2
  · decide

/-- When the movements of the valid events are clear, the prepared events stand for the observed ones. -/
theorem stands_of_clear (hids : ∀ row ∈ events, ∃ id, rowId row.id = .ok id)
    (hcons : ∀ id ∈ rowIds events, consistentId fromisoformat events id = true)
    (hagree : ∀ e ∈ observedEvents fromisoformat events, ∀ e' ∈ observedEvents fromisoformat events,
      e.movementKey = e'.movementKey → movementSignature e = movementSignature e')
    (hclear : ∀ key ∈ movementKeys (validated fromisoformat (uniqueRows fromisoformat events)),
      conflicting evidence (validated fromisoformat (uniqueRows fromisoformat events)) key = false) :
    Stands fromisoformat events (prepareWeeklyEvents fromisoformat events evidence) := by
  have hperm := observed_perm hids hcons
  obtain ⟨honce, hmem, hstands⟩ := prepared_of_clear hclear
  exact ⟨honce, fun e he => hperm.mem_iff.1 (hmem e he), fun e he => hstands e (hperm.mem_iff.2 he), hagree⟩

theorem observed_movementKey (h : e ∈ observedEvents fromisoformat events) : e.movementKey ≠ none := by
  obtain ⟨row, -, hv⟩ := mem_validated h
  obtain ⟨i, -, hk⟩ := hv.movementKey
  simp [hk]

/-- No counter of the prepared events overflows exactly when those of the movements fit. -/
theorem Stands.fits (h : Stands fromisoformat events p) :
    (∀ t key, overflows (counter orders p.events t key) = false) ↔
    ∀ t key, counter orders (movements fromisoformat events) t key ≤ 2147483647 := by
  refine forall₂_congr fun t key => ?_
  rw [counter_perm h.share]
  have hnn : 0 ≤ counter orders (movements fromisoformat events) t key := counter_nonneg (fun e he => by
    obtain ⟨row, -, hv⟩ := mem_validated (mem_firstBy he)
    exact ⟨row, hv⟩) t key
  simp only [overflows, Bool.or_eq_false_iff, decide_eq_false_iff_not, not_lt]
  exact ⟨fun h => h.2, fun h => ⟨hnn, h⟩⟩

/-- The gate is open exactly on inputs without blocking defects. -/
theorem gate_open_iff_unblocked :
    blockingQualityIssues
      (composed orders (prepareWeeklyEvents fromisoformat events evidence)).quality.covered = [] ↔
      Unblocked fromisoformat orders evidence events := by
  rw [composed_gate_iff, prepared_gate_iff]
  have hkeys : ∀ e ∈ validated fromisoformat (uniqueRows fromisoformat events), e.movementKey ≠ none := by
    intro e he
    obtain ⟨row, -, hv⟩ := mem_validated he
    obtain ⟨i, -, hk⟩ := hv.movementKey
    simp [hk]
  rw [movements_clear_iff hkeys]
  constructor
  · rintro ⟨⟨hids, hcons, hvalid, hmov⟩, hcon, hfit⟩
    have hperm := observed_perm hids hcons
    have hrows := uniqueRows_perm hids hcons
    have hagree : ∀ e ∈ observedEvents fromisoformat events, ∀ e' ∈ observedEvents fromisoformat events,
        e.movementKey = e'.movementKey → movementSignature e = movementSignature e' :=
      fun e he e' he' => hmov.1 e (hperm.mem_iff.2 he) e' (hperm.mem_iff.2 he')
    have hst := stands_of_clear hids hcons hagree fun key hkey =>
        ((movements_clear_iff hkeys).2 hmov key hkey).1
    refine ⟨hids, (consistent_iff hids).1 hcons, fun row hrow => hvalid row (hrows.mem_iff.2 hrow), hagree,
      fun e he => hmov.2 e (hperm.mem_iff.2 he), ?_, hst.fits.1 hfit⟩
    refine (hst.outbound (P := fun e => contradicted orders e = false)
      fun e e' (hc : contradicted orders e = contradicted orders e') _ he => hc ▸ he).1 fun e he => ?_
    by_contra hne
    exact observed_movementKey (hst.observed e (List.mem_of_mem_filter he)) (hcon e he (by simpa using hne))
  · rintro ⟨hids, hcopies, hvalid, hagree, hweeks, huncon, hfits⟩
    have hcons := (consistent_iff hids).2 hcopies
    have hperm := observed_perm hids hcons
    have hrows := uniqueRows_perm hids hcons
    have hmov : (∀ e ∈ validated fromisoformat (uniqueRows fromisoformat events),
        ∀ e' ∈ validated fromisoformat (uniqueRows fromisoformat events),
          e.movementKey = e'.movementKey → movementSignature e = movementSignature e') ∧ _ :=
      ⟨fun e he e' he' => hagree e (hperm.mem_iff.1 he) e' (hperm.mem_iff.1 he'),
        fun e he => hweeks e (hperm.mem_iff.1 he)⟩
    have hst := stands_of_clear hids hcons hagree fun key hkey =>
        ((movements_clear_iff hkeys).2 hmov key hkey).1
    refine ⟨⟨hids, hcons, fun row hrow => hvalid row (hrows.mem_iff.1 hrow), hmov⟩, fun e he hc => ?_,
      hst.fits.2 hfits⟩
    have huc := (hst.outbound (P := fun e => contradicted orders e = false)
      fun e e' (hc : contradicted orders e = contradicted orders e') _ he => hc ▸ he).2 huncon e he
    rw [huc] at hc
    cases hc

/-! ## Undercounted weeks -/

/-- **The gate and undercounted weeks**: the report of a week with rejected events is blocked,
unless the only reason for the rejections is that the order of an outbound event has no record. -/
theorem gate_rejections (fromisoformat : String → Option PyValue) (events : List TelemetryRow)
    (orders : CommercialOrderEvidence) (evidence : WeekEvidence) :
    ∃ r, transformWeeklyPerformance fromisoformat events orders evidence = .ok r ∧
      ((r.quality.rejectedEventIds ≠ [] → blockingQualityIssues r.quality.covered ≠ []) ↔
        (Unblocked fromisoformat orders evidence events → ∀ e ∈ observedEvents fromisoformat events,
          e.eventType = .outboundOrderCreated → orderRecord orders e ≠ none)) := by
  refine ⟨_, transform_eq, ?_⟩
  let p := prepareWeeklyEvents fromisoformat events evidence
  have hgate : blockingQualityIssues (composed orders p).quality.covered = [] ↔
      Unblocked fromisoformat orders evidence events := gate_open_iff_unblocked
  change ((composed orders p).quality.rejectedEventIds ≠ [] →
    blockingQualityIssues (composed orders p).quality.covered ≠ []) ↔ _
  by_cases hu : Unblocked fromisoformat orders evidence events
  · have hopen := hgate.2 hu
    have hprep := (composed_gate_iff.1 hopen).1
    obtain ⟨hids, hcons, -, hclear⟩ := prepared_gate_iff.1 hprep
    have hst : Stands fromisoformat events p :=
      stands_of_clear hids hcons hu.agree fun key hkey => (hclear key hkey).1
    have hrej := composed_rejected_iff hopen (prepared_rejected hprep)
      fun e he => observed_movementKey (hst.observed e he)
    have hout := hst.outbound (P := fun e => orderRecord orders e ≠ none) fun e e'
      (_ : contradicted orders e = contradicted orders e') hr he => hr ▸ he
    rw [← hout, ← hrej]
    constructor
    · intro h _
      by_contra hne
      exact h hne hopen
    · intro h hne
      exact absurd (h hu) hne
  · exact ⟨fun _ h => absurd h hu, fun _ _ h => hu (hgate.1 h)⟩

/-- A week with one outbound event whose order the complete lookup does not have. -/
def unrecordedOrder : TelemetryRow where
  id := .str "00000000-0000-4000-8000-000000000001"
  timestamp := .aware (midnight 4)
  service := .str "api"
  eventType := .str "outbound_order_created"
  tags := .dict [("warehouse", .str "LA"), ("client_id", .str "client"),
    ("order_id", .str "00000000-0000-4000-8000-000000000002")]

/-- The gate does not block it, although its only event is rejected. -/
theorem unrecorded_order_passes : ¬ ∀ (fromisoformat : String → Option PyValue) (events : List TelemetryRow)
    (orders : CommercialOrderEvidence) (evidence : WeekEvidence) (r : WeeklyTransformationResult),
    transformWeeklyPerformance fromisoformat events orders evidence = .ok r → r.quality.rejectedEventIds ≠
      [] → blockingQualityIssues r.quality.covered ≠ [] := by
  intro h
  have hr := h (fun _ => none) [unrecordedOrder] ⟨fun _ => none, true⟩ (some fun _ =>
      some ⟨[4], true⟩) _ transform_eq
  revert hr
  decide +kernel

end TrackFlow.Pipelines
