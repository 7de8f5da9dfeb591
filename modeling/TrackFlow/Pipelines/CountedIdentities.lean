import TrackFlow.Pipelines.EventFates

/-!
# What an identity counts

Movements are told apart by the text of their identity, orders and counts are UUIDs, and a UUID can
be written in several ways. So an order or a count that is spelled in two ways counts twice, if both
spellings get through.

- `identity_counted_once`: every identity counts once exactly when no two spellings of a UUID get through.
-/

namespace TrackFlow.Pipelines

open TrackFlow.Python

variable {fromisoformat : String → Option PyValue} {events : List TelemetryRow} {evidence : WeekEvidence}
  {orders : CommercialOrderEvidence} {es : List ValidatedEvent} {e e' : ValidatedEvent} {key : MovementKey}

/-! ## Identities -/

/-- What an event is about: a movement by its name, an order or a count by the UUID that its text
denotes. -/
inductive BusinessIdentity
  | movement (name : String)
  | denoted (u : Uuid)
  deriving DecidableEq

/-- The identity that a text gives to an event of a type. -/
def EventType.identify (t : EventType) (text : String) : Option BusinessIdentity :=
  if t = .inboundOrderCreated ∨ t = .stockThresholdTriggered then some (.movement text)
  else (Uuid.ofString? text).map .denoted

/-- The identity of an event. -/
def ValidatedEvent.identity (e : ValidatedEvent) : Option BusinessIdentity :=
  e.movementKey.bind fun key => key.1.identify key.2

/-- Of the events that a counter adds up, no two have the same identity. -/
def CountedOnce (fromisoformat : String → Option PyValue) (events : List TelemetryRow)
    (orders : CommercialOrderEvidence) (evidence : WeekEvidence) : Prop :=
  ∀ t, ∀ e ∈ counted orders (prepareWeeklyEvents fromisoformat events evidence).events t,
    ∀ e' ∈ counted orders (prepareWeeklyEvents fromisoformat events evidence).events t, e.identity =
      e'.identity → e = e'

/-- The movement of an event does not conflict and, if it is an order, its record bears it out. -/
def GetsThrough (orders : CommercialOrderEvidence) (evidence : WeekEvidence) (es : List ValidatedEvent)
    (e : ValidatedEvent) : Prop :=
  Clear evidence es e ∧ verified orders e = true

/-- No UUID is spelled in two ways that both get through. -/
def SpelledOnce (fromisoformat : String → Option PyValue) (events : List TelemetryRow)
    (orders : CommercialOrderEvidence) (evidence : WeekEvidence) : Prop :=
  ∀ e ∈ survivingEvents fromisoformat events, ∀ e' ∈ survivingEvents fromisoformat events,
    e.eventType = e'.eventType → e.identity = e'.identity → e.movementKey ≠ e'.movementKey →
    ¬(GetsThrough orders evidence (survivingEvents fromisoformat events) e ∧
      GetsThrough orders evidence (survivingEvents fromisoformat events) e')

/-! ## One event for each spelling -/

theorem identity_congr (h : e.movementKey = e'.movementKey) : e.identity = e'.identity := by
  rw [ValidatedEvent.identity, ValidatedEvent.identity, h]

/-- The events of a movement without conflict have one signature. -/
theorem signature_of_clear (hclear : conflicting evidence es key = false) (he : e ∈ es) (he' : e' ∈ es)
    (hk : e.movementKey = some key) (hk' : e'.movementKey = some key) :
    movementSignature e = movementSignature e' := by
  simp only [conflicting, Bool.or_eq_false_iff, decide_eq_false_iff_not, not_lt] at hclear
  exact dedup_length_le_one.1 hclear.1 _ (List.mem_map_of_mem (mem_movementGroup.2 ⟨he, hk⟩)) _
    (List.mem_map_of_mem (mem_movementGroup.2 ⟨he', hk'⟩))

/-- For an event that gets through, one of its movement is counted. -/
theorem counted_of_getsThrough (he : e ∈ survivingEvents fromisoformat events)
    (h : GetsThrough orders evidence (survivingEvents fromisoformat events) e) :
    ∃ first ∈ counted orders (prepareWeeklyEvents fromisoformat events evidence).events e.eventType,
      first.movementKey = e.movementKey := by
  obtain ⟨⟨key, hk, hclear⟩, hverified⟩ := h
  obtain ⟨first, hfirst, hkFirst, hhead⟩ := head_movementGroup (mem_movementKeys.2 ⟨e, he, hk⟩)
  have hsame : first.movementKey = e.movementKey := hkFirst.trans hk.symm
  obtain ⟨row, -, hv⟩ := surviving_valid he
  obtain ⟨row', -, hv'⟩ := surviving_valid hfirst
  have hshare : first.share orders = e.share orders :=
    (share_eq hv' hv hsame (signature_of_clear hclear hfirst he hkFirst hk)).1
  simp only [ValidatedEvent.share, Prod.mk.injEq] at hshare
  have hprepared : first ∈ (prepareWeeklyEvents fromisoformat events evidence).events :=
    mem_prepared_iff.2 ⟨⟨key, hkFirst, hclear⟩, key, hkFirst, hhead⟩
  refine ⟨first, ?_, hsame⟩
  rw [counted_eq]
  exact List.mem_filter.2 ⟨mem_accepted.2 ⟨hprepared, hshare.2.2.2.trans hverified⟩,
    by simpa using hshare.1⟩

theorem getsThrough_of_counted {t : EventType}
    (h : e ∈ counted orders (prepareWeeklyEvents fromisoformat events evidence).events t) :
    e ∈ survivingEvents fromisoformat events ∧ e.eventType = t ∧
      GetsThrough orders evidence (survivingEvents fromisoformat events) e := by
  rw [counted_eq] at h
  obtain ⟨haccepted, htype⟩ := List.mem_filter.1 h
  obtain ⟨hprepared, hverified⟩ := mem_accepted.1 haccepted
  obtain ⟨hclear, hlead⟩ := mem_prepared_iff.1 hprepared
  exact ⟨hlead.mem, by simpa using htype, hclear, hverified⟩

/-- A movement is counted at most once. -/
theorem counted_inj {t : EventType}
    (he : e ∈ counted orders (prepareWeeklyEvents fromisoformat events evidence).events t)
    (he' : e' ∈ counted orders (prepareWeeklyEvents fromisoformat events evidence).events t)
    (hk : e.movementKey = e'.movementKey) : e = e' := by
  have hnodup : ((prepareWeeklyEvents fromisoformat events evidence).events.map
      ValidatedEvent.movementKey).Nodup :=
    (prepared_events.map _).nodup_iff.2 representatives_nodup
  exact List.inj_on_of_nodup_map hnodup (List.mem_of_mem_filter he) (List.mem_of_mem_filter he') hk

/-- **Identities**: each business identity is counted at most once exactly when no two valid events
spell the UUID of an order or of a count differently, both in movements without conflict and, for
orders, both borne out by their records. -/
theorem identity_counted_once (fromisoformat : String → Option PyValue) (events : List TelemetryRow)
    (orders : CommercialOrderEvidence) (evidence : WeekEvidence) :
    CountedOnce fromisoformat events orders evidence ↔
      SpelledOnce fromisoformat events orders evidence := by
  constructor
  · intro hone e he e' he' htype hidentity hspelled ⟨hthrough, hthrough'⟩
    obtain ⟨first, hfirst, hk⟩ := counted_of_getsThrough he hthrough
    obtain ⟨first', hfirst', hk'⟩ := counted_of_getsThrough he' hthrough'
    rw [← htype] at hfirst'
    have hsame := hone _ first hfirst first' hfirst'
      ((identity_congr hk).trans (hidentity.trans (identity_congr hk').symm))
    exact hspelled (hk.symm.trans ((congrArg ValidatedEvent.movementKey hsame).trans hk'))
  · intro hspelled t e he e' he' hidentity
    obtain ⟨hmem, htype, hthrough⟩ := getsThrough_of_counted he
    obtain ⟨hmem', htype', hthrough'⟩ := getsThrough_of_counted he'
    by_cases hk : e.movementKey = e'.movementKey
    · exact counted_inj he he' hk
    · exact absurd ⟨hthrough, hthrough'⟩ (hspelled e hmem e' hmem' (htype.trans htype'.symm) hidentity hk)

/-- Names of movements are their identity: only UUIDs can be spelled in two ways. -/
theorem spelling_of_name
    (htype : e.eventType = .inboundOrderCreated ∨ e.eventType = .stockThresholdTriggered)
    (hsame : e.eventType = e'.eventType) (hk : e.movementKey ≠ none)
    (hidentity : e.identity = e'.identity) : e.movementKey = e'.movementKey := by
  have hfirst : ∀ (e : ValidatedEvent) (key : MovementKey), e.movementKey = some key →
      key.1 = e.eventType := by
    intro e key h
    unfold ValidatedEvent.movementKey at h
    split at h
    · cases h
      rfl
    · cases h
  obtain ⟨⟨t, name⟩, hkey⟩ := Option.ne_none_iff_exists'.1 hk
  have ht : t = e.eventType := hfirst e _ hkey
  subst ht
  cases hkey' : e'.movementKey with
  | none => simp [ValidatedEvent.identity, hkey, hkey', EventType.identify, htype] at hidentity
  | some key' =>
    obtain ⟨t', name'⟩ := key'
    have ht' : t' = e'.eventType := hfirst e' _ hkey'
    subst ht'
    rw [hsame] at htype hkey
    simp only [ValidatedEvent.identity, hkey, hkey', Option.bind_some, EventType.identify, if_pos htype,
      Option.some.injEq, BusinessIdentity.movement.injEq] at hidentity
    rw [hkey, hidentity]

/-- A stock count with its identity in a given spelling. -/
def countOf (id spelling : String) : TelemetryRow where
  id := .str id
  timestamp := .aware (midnight 4)
  service := .str "api"
  eventType := .str "inventory_discrepancy_detected"
  tags := .dict [("warehouse", .str "LA"), ("client_id", .str "acme"), ("count_id", .str spelling),
    ("quantity", .int 1)]

/-- One count in two spellings is counted twice. -/
theorem count_spelled_twice : ¬∀ (fromisoformat : String → Option PyValue) (events : List TelemetryRow)
    (orders : CommercialOrderEvidence) (evidence : WeekEvidence),
      CountedOnce fromisoformat events orders evidence := by
  intro h
  have hone := h (fun _ => none)
    [countOf "00000000-0000-4000-8000-000000000001" "0000000a-0000-4000-8000-00000000000a",
      countOf "00000000-0000-4000-8000-000000000002" "0000000A-0000-4000-8000-00000000000A"]
    ⟨fun _ => none, true⟩ none .inventoryDiscrepancyDetected
  have hids : ((counted ⟨fun _ => none, true⟩ (prepareWeeklyEvents (fun _ => none)
      [countOf "00000000-0000-4000-8000-000000000001" "0000000a-0000-4000-8000-00000000000a",
        countOf "00000000-0000-4000-8000-000000000002" "0000000A-0000-4000-8000-00000000000A"] none).events
      .inventoryDiscrepancyDetected).map fun e => (e.rowId, e.identity)) =
      [("00000000-0000-4000-8000-000000000001",
          some (.denoted (.ofNat 0x0000000a00004000800000000000000a))),
        ("00000000-0000-4000-8000-000000000002",
          some (.denoted (.ofNat 0x0000000a00004000800000000000000a)))] := by
    decide +kernel
  obtain ⟨a, rest, hes, ha, hrest⟩ := List.map_eq_cons_iff.1 hids
  obtain ⟨b, rest', hes', hb, -⟩ := List.map_eq_cons_iff.1 hrest
  rw [Prod.mk.injEq] at ha hb
  have hsame := hone a (by rw [hes]; simp) b (by rw [hes, hes']; simp) (ha.2.trans hb.2.symm)
  exact absurd (ha.1.symm.trans ((congrArg ValidatedEvent.rowId hsame).trans hb.1)) (by decide)

end TrackFlow.Pipelines
