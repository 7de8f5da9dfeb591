import TrackFlow.Python.Raising
import TrackFlow.Pipelines.OutboxRelay
import TrackFlow.Pipelines.OperationalCoverage

/-!
# What a relay stage drains

One call of `relay_inventory_outbox` while no other relay runs, and the task that the extraction
flow waits for.

- `relayLoop_steps`: the call is a run of the system of relays, so that it keeps what those runs keep;
- `relayLoop_healthy`: with healthy databases it delivers;
- `relay_task_drains_iff`: when the task returns, the rows that were pending before it are
  published, and the audit finds their telemetry, exactly when each of them had its turn within the
  limit of one call.
-/

namespace TrackFlow.Pipelines

open TrackFlow.Python
open Relay

/-! ## The call -/

/-- The committed rows of both databases. -/
structure Databases where
  outbox : List OutboxRow
  telemetry : List TelemetryRecord

/-- What happens around one iteration: the rows that writers commit before its SELECT, the clock,
and the exceptions of the SELECT, of the destination and of the COMMIT at the source. A COMMIT that
raises may have taken effect. -/
structure Conditions where
  arrivals : List OutboxRow := []
  now : Int := 0
  select : Option String := none
  destination : Option (String × Bool) := none
  commit : Option (String × Bool) := none

/-- `RelayResult`. -/
structure RelayResult where
  delivered : Nat := 0
  failed : Nat := 0
  errorCodes : List String := []
  deriving DecidableEq

/-- `_safe_error_code`, of the name of the class. -/
def safeErrorCode (cls : String) : String := takeText 120 ("destination_" ++ String.ofList (lower cls))

/-- The destination's part of an iteration: its rows afterwards, and the code of a failure. -/
def deliver (m : Conditions) (telemetry : List TelemetryRecord) (item : OutboxRow) :
    List TelemetryRecord × Option String :=
  match mapOutboxEventToRow item with
  | none => (telemetry, some (safeErrorCode "AttributeError"))
  | some expected =>
    match m.destination, persistDestinationEvent telemetry expected with
    | none, some rows => (rows, none)
    | none, none => (telemetry, some "destination_event_conflict")
    | some (cls, effect), rows =>
        (if effect then rows.getD telemetry else telemetry, some (safeErrorCode cls))

/-- How an iteration ends that does not raise. -/
inductive Turn
  | drained
  | delivered
  | failed (code : String)

/-- The UPDATE of the source row. -/
def sourceUpdate (now : Int) : Option String → OutboxRow → OutboxRow
  | none, e => if e.pending then e.acknowledge now else e
  | some code, e => e.fail code now

/-- An iteration once a row is found and locked. -/
def relayItem (m : Conditions) (item : OutboxRow) : Raising Databases String Turn := do
  let db ← Raising.get
  let (telemetry, code) := deliver m db.telemetry item
  Raising.modify fun db => { db with telemetry }
  let update := Raising.modify fun db =>
    { db with outbox := updateEvent item.eventId (sourceUpdate m.now code) db.outbox }
  match m.commit with
  | some (error, effect) =>
    if effect then update
    Raising.raise error
  | none =>
    update
    return (code.map Turn.failed).getD .delivered

/-- One iteration of the loop. -/
def relayTurn (m : Conditions) : Raising Databases String Turn := do
  Raising.modify fun db => { db with outbox := db.outbox ++ m.arrivals }
  match m.select with
  | some error => Raising.raise error
  | none =>
    let db ← Raising.get
    match nextPending (fun _ => true) db.outbox, m.commit with
    | some item, _ => relayItem m item
    | none, some (error, _) => Raising.raise error
    | none, none => return .drained

/-- The loop of `relay_inventory_outbox`. -/
def relayLoop : Nat → (Nat → Conditions) → RelayResult → Raising Databases String RelayResult
  | 0, _, r => return r
  | left + 1, m, r => do
    match ← relayTurn (m 0) with
    | .drained => return r
    | .delivered => relayLoop left (fun i => m (i + 1)) { r with delivered := r.delivered + 1 }
    | .failed code => return { r with failed := r.failed + 1, errorCodes := r.errorCodes ++ [code] }

/-- `relay_inventory_outbox`. -/
def relayInventoryOutbox (m : Nat → Conditions) (limit : Nat := 100) :
    Raising Databases String RelayResult :=
  if limit = 0 then Raising.raise "relay limit must be a positive integer" else relayLoop limit m {}

/-- `relay_outbox_task`. -/
def relayOutboxTask (m : Nat → Conditions) : Raising Databases String RelayResult := do
  let result ← relayInventoryOutbox m
  if result.failed ≠ 0 then
    let codes := String.intercalate "," result.errorCodes
    Raising.raise ("outbox_relay_incomplete:" ++ if codes = "" then "destination_failure" else codes)
  return result

/-! ## Iterations -/

variable {m : Conditions} {db db' : Databases}

theorem relayTurn_eq {found : Option OutboxRow} (hm : m.select = none)
    (hfound : nextPending (fun _ => true) (db.outbox ++ m.arrivals) = found) :
    relayTurn m db = (match found, m.commit with
      | some item, _ => relayItem m item
      | none, some (error, _) => Raising.raise error
      | none, none => (return .drained : Raising Databases String Turn)) ⟨db.outbox ++ m.arrivals, db.telemetry⟩ := by
  obtain ⟨arrivals, now, select, destination, commit⟩ := m
  cases hm
  cases hfound
  rfl

/-- What an iteration does that does not raise. -/
theorem relayTurn_ok {turn : Turn} (h : relayTurn m db = (.ok turn, db')) :
    (turn = .drained ∧ nextPending (fun _ => true) (db.outbox ++ m.arrivals) = none ∧
      db' = ⟨db.outbox ++ m.arrivals, db.telemetry⟩) ∨
    ∃ item telemetry code, nextPending (fun _ => true) (db.outbox ++ m.arrivals) = some item ∧
      deliver m db.telemetry item = (telemetry, code) ∧ turn = (code.map Turn.failed).getD .delivered ∧
      db' = ⟨updateEvent item.eventId (sourceUpdate m.now code) (db.outbox ++ m.arrivals), telemetry⟩ := by
  obtain ⟨arrivals, now, select, destination, commit⟩ := m
  cases select with
  | some error => cases h
  | none =>
    cases hnext : nextPending (fun _ => true) (db.outbox ++ arrivals) with
    | none =>
      rw [relayTurn_eq rfl hnext] at h
      cases commit with
      | some fault => cases h
      | none =>
        cases h
        exact Or.inl ⟨rfl, rfl, rfl⟩
    | some item =>
      rw [relayTurn_eq rfl hnext] at h
      cases commit with
      | some fault =>
        obtain ⟨error, effect⟩ := fault
        cases effect <;> cases h
      | none =>
        cases h
        exact Or.inr ⟨item, _, _, rfl, rfl, rfl, rfl⟩

/-! ## Calls are runs of relays -/

variable {σ τ : System} {r left : Nat} {e : OutboxRow}

/-- No other relay runs, and none has left a transaction open. -/
structure Alone (σ : System) (r : Nat) : Prop where
  relays : ∀ r', r' ≠ r → σ.relays r' = none
  sessions : ∀ r', r' ≠ r → σ.sessions r' = none

theorem Alone.move (h : Alone σ r) (phase : Option Phase) : Alone (σ.move r phase) r where
  relays r' hne := by rw [move_relays, if_neg hne]; exact h.relays r' hne
  sessions := h.sessions

theorem Alone.endSession (h : Alone σ r) (effect : Bool) : Alone (σ.endSession r effect) r where
  relays := h.relays
  sessions r' hne := by rw [endSession_sessions, if_neg hne]; exact h.sessions r' hne

theorem Alone.insertRow (h : Alone σ r) (row : TelemetryRecord) : Alone (σ.insertRow r row) r where
  relays := h.relays
  sessions r' hne := by rw [insertRow_sessions, if_neg hne]; exact h.sessions r' hne

/-- New rows are enqueued one after another. -/
theorem enqueue_steps {arrivals : List OutboxRow} : ∀ {σ : System},
    ((σ.outbox ++ arrivals).map OutboxRow.eventId).Nodup → (∀ a ∈ arrivals, a.pending = true) →
    Steps σ { σ with outbox := σ.outbox ++ arrivals } := by
  induction arrivals with
  | nil =>
    intro σ _ _
    rw [List.append_nil]
    exact .refl σ
  | cons a arrivals ih =>
    intro σ hkeys hpending
    rw [List.append_cons] at hkeys ⊢
    have hkeys' : ((σ.outbox ++ [a]).map OutboxRow.eventId).Nodup := by
      rw [List.map_append] at hkeys
      exact hkeys.of_append_left
    have hnew : ∀ e' ∈ σ.outbox, e'.eventId ≠ a.eventId := by
      intro e' he' heq
      rw [List.map_append, List.nodup_append] at hkeys'
      exact hkeys'.2.2 _ (List.mem_map_of_mem he') _ (List.mem_map_of_mem (List.mem_singleton_self a)) heq
    have hfirst : Step σ { σ with outbox := σ.outbox ++ [a] } :=
      .enqueue a hnew (hpending a List.mem_cons_self)
    exact ((Steps.refl σ).step hfirst).trans
      (ih (σ := { σ with outbox := σ.outbox ++ [a] }) hkeys fun b hb =>
          hpending b (List.mem_cons_of_mem a hb))

/-- A delivery that the destination accepts. -/
theorem persist_steps {expected : TelemetryRecord} {rows : List TelemetryRecord}
    (hr : σ.relays r = some (.selected left e)) (ha : Alone σ r) (hs : σ.sessions r = none)
    (hmap : mapOutboxEventToRow e = some expected)
    (h : persistDestinationEvent σ.telemetry expected = some rows) :
    ∃ τ, Steps σ τ ∧ Alone τ r ∧ τ.outbox = σ.outbox ∧ τ.telemetry = σ.telemetry ∧
      τ.telemetry ++ (τ.sessions r).toList = rows ∧ τ.relays r = some (.confirmed left e) := by
  unfold persistDestinationEvent at h
  cases hfound : σ.telemetry.find? fun row => row.id = expected.id with
  | none =>
    rw [hfound] at h
    cases h
    have hnew : ∀ row' ∈ σ.telemetry, row'.id ≠ expected.id := by
      intro row' hrow'
      simpa using List.find?_eq_none.1 hfound row' hrow'
    have hsessions : ∀ r' row', σ.sessions r' = some row' → row'.id ≠ expected.id := by
      intro r' row' hrow'
      by_cases hne : r' = r
      · rw [hne, hs] at hrow'
        cases hrow'
      · rw [ha.sessions r' hne] at hrow'
        cases hrow'
    refine ⟨_, (Steps.refl σ).step (.insert hr hmap hnew hsessions), (ha.insertRow expected).move _,
      rfl, rfl, ?_, ?_⟩
    · show σ.telemetry ++ ((σ.insertRow r expected).sessions r).toList = _
      rw [insertRow_sessions, if_pos rfl]
      rfl
    · rw [move_relays, if_pos rfl]
  | some actual =>
    rw [hfound] at h
    dsimp only at h
    split at h
    case isFalse => cases h
    case isTrue heq =>
      cases h
      have hthere : ∃ row' ∈ σ.telemetry, row'.id = expected.id :=
        ⟨actual, List.mem_of_find?_eq_some hfound, by simpa using List.find?_some hfound⟩
      have hskip : Step σ (σ.move r (some (.skipped left e expected))) := .skip hr hmap hthere
      have hskipped : (σ.move r (some (.skipped left e expected))).relays r =
          some (.skipped left e expected) := by
        rw [move_relays, if_pos rfl]
      refine ⟨_, ((Steps.refl σ).step hskip).step (.compare hskipped hfound heq),
        (ha.move _).move _, rfl, rfl, ?_, ?_⟩
      · show σ.telemetry ++ (σ.sessions r).toList = _
        rw [hs]
        exact List.append_nil _
      · rw [move_relays, if_pos rfl]

theorem persist_none {telemetry : List TelemetryRecord} {expected : TelemetryRecord}
    (h : persistDestinationEvent telemetry expected = none) :
    ∃ actual, (telemetry.find? fun row => row.id = expected.id) = some actual ∧
      canonicalDestination actual ≠ canonicalDestination expected := by
  unfold persistDestinationEvent at h
  cases hfound : telemetry.find? fun row => row.id = expected.id with
  | none =>
    rw [hfound] at h
    cases h
  | some actual =>
    rw [hfound] at h
    dsimp only at h
    split at h
    case isTrue => cases h
    case isFalse hne => exact ⟨actual, rfl, hne⟩

/-- The destination's part of an iteration. -/
theorem deliver_steps {telemetry : List TelemetryRecord} {code : Option String}
    (hr : σ.relays r = some (.selected left e)) (ha : Alone σ r) (hs : σ.sessions r = none)
    (h : deliver m σ.telemetry e = (telemetry, code)) :
    ∃ τ, Steps σ τ ∧ Alone τ r ∧ τ.sessions r = none ∧ τ.outbox = σ.outbox ∧ τ.telemetry = telemetry ∧
      τ.relays r = some (match code with | none => .delivered left e | some code => .refused e code) := by
  have hfail : ∀ {τ : System} {phase : Phase} (code : String) (effect : Bool), Alone τ r →
      τ.relays r = some phase →
      phase.item = some e → (∀ left, phase ≠ .delivered left e) → (∀ code, phase ≠ .refused e code) →
      (effect = true → ∃ left, phase = .confirmed left e) →
      ∃ υ, Steps τ υ ∧ Alone υ r ∧ υ.sessions r = none ∧ υ.outbox = τ.outbox ∧
        υ.telemetry = (if effect then τ.telemetry ++ (τ.sessions r).toList else τ.telemetry) ∧
        υ.relays r = some (.refused e code) := by
    intro τ phase code effect hτ hphase hitem hd hrefused heffect
    exact ⟨_, (Steps.refl τ).step (.fail code effect hphase hitem hd hrefused heffect),
        (hτ.endSession effect).move _, by
      show (τ.endSession r effect).sessions r = none
      rw [endSession_sessions, if_pos rfl], rfl, rfl, by rw [move_relays, if_pos rfl]⟩
  unfold deliver at h
  cases hmap : mapOutboxEventToRow e with
  | none =>
    rw [hmap] at h
    cases h
    exact hfail _ false ha hr rfl (fun _ hp => by cases hp) (fun _ hp => by cases hp) fun hp => by cases hp
  | some expected =>
    rw [hmap] at h
    cases hpersist : persistDestinationEvent σ.telemetry expected with
    | none =>
      dsimp only at h
      rw [hpersist] at h
      cases hdest : m.destination with
      | some fault =>
        obtain ⟨cls, effect⟩ := fault
        rw [hdest] at h
        cases h
        obtain ⟨τ, hsteps, hτ, hsession, hout, htel, hphase⟩ := hfail (safeErrorCode cls) false ha hr rfl
          (fun _ hp => by cases hp) (fun _ hp => by cases hp) fun hp => by cases hp
        exact ⟨τ, hsteps, hτ, hsession, hout, htel.trans (by cases effect <;> rfl), hphase⟩
      | none =>
        rw [hdest] at h
        cases h
        obtain ⟨actual, hfound, hne⟩ := persist_none hpersist
        have hthere : ∃ row' ∈ σ.telemetry, row'.id = expected.id :=
          ⟨actual, List.mem_of_find?_eq_some hfound, by simpa using List.find?_some hfound⟩
        have hskip : Step σ (σ.move r (some (.skipped left e expected))) := .skip hr hmap hthere
        have hskipped : (σ.move r (some (.skipped left e expected))).relays r =
            some (.skipped left e expected) := by
          rw [move_relays, if_pos rfl]
        refine ⟨_, ((Steps.refl σ).step hskip).step (.conflict hskipped fun actual' hfound' => ?_),
          ((ha.move _).endSession false).move _, ?_, rfl, rfl, by rw [move_relays, if_pos rfl]⟩
        · rw [Option.some.inj (hfound'.symm.trans hfound)]
          exact hne
        · show ((σ.move r (some (.skipped left e expected))).endSession r false).sessions r = none
          rw [endSession_sessions, if_pos rfl]
    | some rows =>
      dsimp only at h
      rw [hpersist] at h
      obtain ⟨τ, hsteps, hτ, hout, hsame, htel, hphase⟩ := persist_steps hr ha hs hmap hpersist
      cases hdest : m.destination with
      | some fault =>
        obtain ⟨cls, effect⟩ := fault
        rw [hdest] at h
        cases h
        obtain ⟨υ, hsteps', hυ, hsession, hout', htel', hphase'⟩ :=
          hfail (safeErrorCode cls) effect hτ hphase rfl
          (fun _ hp => by cases hp) (fun _ hp => by cases hp) fun _ => ⟨left, rfl⟩
        rw [htel, hsame] at htel'
        exact ⟨υ, hsteps.trans hsteps', hυ, hsession, hout'.trans hout, htel', hphase'⟩
      | none =>
        rw [hdest] at h
        cases h
        refine ⟨_, hsteps.step (.commit hphase), (hτ.endSession true).move _, ?_, hout, htel, by
          rw [move_relays, if_pos rfl]⟩
        show (τ.endSession r true).sessions r = none
        rw [endSession_sessions, if_pos rfl]

/-- An iteration. -/
theorem relayTurn_steps {turn : Turn} (hr : σ.relays r = some (.ready (left + 1))) (ha : Alone σ r)
    (hs : σ.sessions r = none) (hkeys : ((σ.outbox ++ m.arrivals).map OutboxRow.eventId).Nodup)
    (hpending : ∀ a ∈ m.arrivals, a.pending = true)
    (h : relayTurn m ⟨σ.outbox, σ.telemetry⟩ = (.ok turn, db')) :
    ∃ τ, Steps σ τ ∧ Alone τ r ∧ τ.sessions r = none ∧ db' = ⟨τ.outbox, τ.telemetry⟩ ∧
      (turn = .delivered → τ.relays r = some (.ready left)) := by
  have hqueued := enqueue_steps hkeys hpending
  have hnext : ∀ {found}, nextPending (fun _ => true) (σ.outbox ++ m.arrivals) = found →
      System.Next { σ with outbox := σ.outbox ++ m.arrivals } found := by
    intro found hfound
    refine ⟨fun _ => true, fun id => ⟨fun _ r' e' hholds => ?_, fun _ => rfl⟩, hfound⟩
    obtain ⟨p, hp, hitem⟩ := hholds
    by_cases hne : r' = r
    · cases (hne ▸ hr : σ.relays r' = _).symm.trans hp
      cases hitem
    · cases (ha.relays r' hne).symm.trans hp
  rcases relayTurn_ok h with ⟨rfl, -, rfl⟩ | ⟨item, telemetry, code, hfound, hdeliver, rfl, rfl⟩
  · exact ⟨_, hqueued, ⟨ha.relays, ha.sessions⟩, hs, rfl, fun hturn => by cases hturn⟩
  · let queued : System := { σ with outbox := σ.outbox ++ m.arrivals }
    have hselect : Step queued (queued.move r (some (.selected left item))) := .select hr (hnext hfound)
    have hqueuedAlone : Alone queued r := ⟨ha.relays, ha.sessions⟩
    obtain ⟨τ, hsteps, hτ, hsession, hout, htel, hphase⟩ :=
      deliver_steps (σ := queued.move r (some (.selected left item)))
      (by rw [move_relays, if_pos rfl]) (hqueuedAlone.move _) hs hdeliver
    have hrun := (hqueued.step hselect).trans hsteps
    cases code with
    | none =>
      refine ⟨_, hrun.step (.acknowledge m.now hphase), ⟨(hτ.move _).relays, hτ.sessions⟩, hsession,
        ?_, fun _ => ?_⟩
      · rw [← htel]
        show Databases.mk (updateEvent item.eventId _ (σ.outbox ++ m.arrivals)) _ =
          ⟨updateEvent item.eventId _ τ.outbox, _⟩
        rw [hout]
        rfl
      · show (τ.move r (some (.ready left))).relays r = _
        rw [move_relays, if_pos rfl]
    | some code =>
      refine ⟨_, hrun.step (.record m.now hphase), ⟨(hτ.move _).relays, hτ.sessions⟩, hsession, ?_,
        fun hturn => by cases hturn⟩
      rw [← htel]
      show Databases.mk (updateEvent item.eventId _ (σ.outbox ++ m.arrivals)) _ =
        ⟨updateEvent item.eventId _ τ.outbox, _⟩
      rw [hout]
      rfl

/-! ## The loop -/

theorem sourceUpdate_id (now : Int) (code : Option String) (e : OutboxRow) :
    (sourceUpdate now code e).eventId = e.eventId := by
  cases code with
  | none =>
    show (if e.pending then e.acknowledge now else e).eventId = e.eventId
    split <;> rfl
  | some code => rfl

/-- An update never takes an acknowledgement back. -/
theorem sourceUpdate_published (now : Int) (code : Option String) {e : OutboxRow} (h : e.pending = false) :
    (sourceUpdate now code e).pending = false := by
  cases code with
  | none =>
    show (if e.pending then e.acknowledge now else e).pending = false
    rw [h]
    exact h
  | some code => exact h

/-- An acknowledged row is not pending. -/
theorem sourceUpdate_none_pending (now : Int) (e : OutboxRow) :
    (sourceUpdate now none e).pending = false := by
  show (if e.pending then e.acknowledge now else e).pending = false
  split
  · rfl
  · simpa using ‹¬ e.pending = true›

/-- The rows that are committed before the `n`-th SELECT. -/
def committed (m : Nat → Conditions) (outbox : List OutboxRow) (n : Nat) : List OutboxRow :=
  outbox ++ (List.range n).flatMap fun i => (m i).arrivals

/-- What the table and its only writer make sure of: the primary key, and that new rows are not
acknowledged. -/
structure Writers (m : Nat → Conditions) (outbox : List OutboxRow) : Prop where
  keys : ∀ n, ((committed m outbox n).map OutboxRow.eventId).Nodup
  pending : ∀ i, ∀ a ∈ (m i).arrivals, a.pending = true

section Loop

variable {m : Nat → Conditions} {outbox : List OutboxRow} {turn : Turn}

theorem committed_succ (m : Nat → Conditions) (outbox : List OutboxRow) (n : Nat) :
    committed m outbox (n + 1) = committed (fun i => m (i + 1)) (outbox ++ (m 0).arrivals) n := by
  unfold committed
  rw [List.range_succ_eq_map, List.flatMap_cons, List.flatMap_map, List.append_assoc]

/-- An iteration leaves the rows with their keys. -/
theorem relayTurn_keys (h : relayTurn (m 0) db = (.ok turn, db')) :
    db'.outbox.map OutboxRow.eventId = (db.outbox ++ (m 0).arrivals).map OutboxRow.eventId := by
  rcases relayTurn_ok h with ⟨-, -, rfl⟩ | ⟨item, telemetry, code, -, -, -, rfl⟩
  · rfl
  · exact updateEvent_keys (sourceUpdate_id _ code)

theorem Writers.next (h : Writers m db.outbox) (hturn : relayTurn (m 0) db = (.ok turn, db')) :
    Writers (fun i => m (i + 1)) db'.outbox where
  keys n := by
    have hkeys := h.keys (n + 1)
    rw [committed_succ] at hkeys
    unfold committed at hkeys ⊢
    rwa [List.map_append, relayTurn_keys hturn, ← List.map_append]
  pending i := h.pending (i + 1)

theorem Writers.arrived (h : Writers m outbox) :
    ((outbox ++ (m 0).arrivals).map OutboxRow.eventId).Nodup := by
  have hkeys := h.keys 1
  unfold committed at hkeys
  simpa using hkeys

/-- The call is a run of the system of relays. -/
theorem relayLoop_steps {limit : Nat} {result' : RelayResult} : ∀ {m : Nat → Conditions}
    {σ : System} {result : RelayResult},
    σ.relays r = some (.ready limit) → Alone σ r → σ.sessions r = none → Writers m σ.outbox →
    relayLoop limit m result ⟨σ.outbox, σ.telemetry⟩ = (.ok result', db') →
    ∃ τ, Steps σ τ ∧ db' = ⟨τ.outbox, τ.telemetry⟩ := by
  induction limit with
  | zero =>
    intro m σ result _ _ _ _ h
    cases h
    exact ⟨σ, .refl σ, rfl⟩
  | succ limit ih =>
    intro m σ result hr ha hs hw h
    obtain ⟨turn, db₁, hturn, hrest⟩ := Raising.bind_eq_ok h
    obtain ⟨τ, hsteps, hτ, hsession, rfl, hready⟩ :=
      relayTurn_steps hr ha hs hw.arrived (hw.pending 0) hturn
    cases turn with
    | drained =>
      cases hrest
      exact ⟨τ, hsteps, rfl⟩
    | failed code =>
      cases hrest
      exact ⟨τ, hsteps, rfl⟩
    | delivered =>
      obtain ⟨υ, hsteps', hυ⟩ := ih (hready rfl) hτ hsession (hw.next hturn) hrest
      exact ⟨υ, hsteps.trans hsteps', hυ⟩

/-! ## Turns -/

/-- No row of the event is pending. -/
def Acknowledged (id : Uuid) (outbox : List OutboxRow) : Prop :=
  ∀ e ∈ outbox, e.eventId = id → e.pending = false

theorem Acknowledged.update {id id' : Uuid} (h : Acknowledged id outbox) (now : Int)
    (code : Option String) : Acknowledged id (updateEvent id' (sourceUpdate now code) outbox) := by
  intro e' he' hid
  obtain ⟨e, he, rfl⟩ := mem_updateEvent.1 he'
  by_cases heq : e.eventId = id'
  · rw [if_pos heq] at hid ⊢
    exact sourceUpdate_published now code (h e he ((sourceUpdate_id now code e).symm.trans hid))
  · rw [if_neg heq] at hid ⊢
    exact h e he hid

/-- What is published stays published. -/
theorem relayLoop_published {limit : Nat} {id : Uuid} {result' : RelayResult} :
    ∀ {m : Nat → Conditions} {db : Databases} {result : RelayResult},
    relayLoop limit m result db = (.ok result', db') → Writers m db.outbox →
      id ∈ db.outbox.map OutboxRow.eventId →
    Acknowledged id db.outbox → Acknowledged id db'.outbox := by
  induction limit with
  | zero =>
    intro m db result h _ _ hp
    cases h
    exact hp
  | succ limit ih =>
    intro m db result h hw hid hp
    obtain ⟨turn, db₁, hturn, hrest⟩ := Raising.bind_eq_ok h
    -- The rows that arrive are of other events.
    have harrived : Acknowledged id (db.outbox ++ (m 0).arrivals) := by
      intro e he heq
      rcases List.mem_append.1 he with he | he
      · exact hp e he heq
      · have hkeys := hw.arrived
        rw [List.map_append, List.nodup_append] at hkeys
        exact absurd heq.symm (hkeys.2.2 id hid _ (List.mem_map_of_mem he))
    have hnext : Acknowledged id db₁.outbox := by
      rcases relayTurn_ok hturn with ⟨-, -, rfl⟩ | ⟨item, telemetry, code, -, -, -, rfl⟩
      · exact harrived
      · exact harrived.update _ code
    cases turn with
    | drained =>
      cases hrest
      exact hnext
    | failed code =>
      cases hrest
      exact hnext
    | delivered =>
      refine ih hrest (hw.next hturn) ?_ hnext
      rw [relayTurn_keys hturn, List.map_append]
      exact List.mem_append_left _ hid

/-- How many pending rows come before `e`. -/
def aheadOf (e : OutboxRow) (rows : List OutboxRow) : Nat :=
  rows.countP fun e' => e'.pending && decide (e'.rank < e.rank)

theorem aheadOf_append (e : OutboxRow) (rows rows' : List OutboxRow) :
    aheadOf e (rows ++ rows') = aheadOf e rows + aheadOf e rows' := List.countP_append

/-- A delivery of a row before `e` leaves one row less ahead. -/
theorem aheadOf_update {item : OutboxRow} (hkeys : (outbox.map OutboxRow.eventId).Nodup)
    (hitem : item ∈ outbox) (hpending : item.pending = true) (hlt : item.rank < e.rank) (now : Int) :
    aheadOf e (updateEvent item.eventId (sourceUpdate now none) outbox) + 1 = aheadOf e outbox := by
  have hother : aheadOf e (updateEvent item.eventId (sourceUpdate now none) outbox) =
      outbox.countP fun e' => (e'.pending && decide (e'.rank < e.rank)) &&
        !decide (e'.eventId = item.eventId) := by
    unfold aheadOf updateEvent
    rw [List.countP_map]
    refine List.countP_congr fun e' _ => ?_
    by_cases heq : e'.eventId = item.eventId
    · simp [heq, sourceUpdate_none_pending]
    · simp [heq]
  have hcount := countP_key hkeys hitem fun e' => e'.pending && decide (e'.rank < e.rank)
  rw [if_pos (by simp [hpending, hlt])] at hcount
  rw [hother]
  exact hcount.symm

/-- The row has its turn: at some SELECT of the call, no more pending rows have come before it than
SELECTs. -/
def Served (limit : Nat) (m : Nat → Conditions) (outbox : List OutboxRow) (e : OutboxRow) : Prop :=
  ∃ t < limit, aheadOf e (committed m outbox (t + 1)) ≤ t

/-- A call without failures publishes exactly the pending rows that have their turn. -/
theorem relayLoop_published_iff {limit : Nat} {result' : RelayResult} :
    ∀ {m : Nat → Conditions} {db : Databases} {result : RelayResult},
    relayLoop limit m result db = (.ok result', db') → result'.failed = result.failed →
      Writers m db.outbox →
    e ∈ db.outbox → e.pending = true → (Acknowledged e.eventId db'.outbox ↔
      Served limit m db.outbox e) := by
  induction limit with
  | zero =>
    intro m db result h _ _ he hp
    cases h
    constructor
    · intro hpublished
      exact absurd (hp.symm.trans (hpublished e he rfl)) (by decide)
    · rintro ⟨t, ht, -⟩
      exact absurd ht (Nat.not_lt_zero t)
  | succ limit ih =>
    intro m db result h hf hw he hp
    obtain ⟨turn, db₁, hturn, hrest⟩ := Raising.bind_eq_ok h
    have he₁ : e ∈ db.outbox ++ (m 0).arrivals := List.mem_append_left _ he
    have hahead : ∀ n, aheadOf e (committed m db.outbox (n + 1)) = aheadOf e (db.outbox ++ (m 0).arrivals) +
        aheadOf e ((List.range n).flatMap fun i => (m (i + 1)).arrivals) := by
      intro n
      rw [committed_succ]
      exact aheadOf_append ..
    rcases relayTurn_ok hturn with ⟨rfl, hnone, rfl⟩ | ⟨item, telemetry, code, hnext, -, rfl, rfl⟩
    · exact absurd (hp.symm.trans (nextPending_none hnone he₁ rfl)) (by decide)
    · cases code with
      | some code =>
        cases hrest
        exact absurd hf (Nat.succ_ne_self _)
      | none =>
        obtain ⟨hmem, hpending, -⟩ := nextPending_mem hnext
        by_cases heq : item.eventId = e.eventId
        · -- The row itself is found: nothing is ahead of it.
          have hsame : item = e := List.inj_on_of_nodup_map hw.arrived hmem he₁ heq
          subst hsame
          have hpublished : Acknowledged item.eventId
              (updateEvent item.eventId (sourceUpdate (m 0).now none) (db.outbox ++ (m 0).arrivals)) := by
            intro e' he' hid
            obtain ⟨e, -, rfl⟩ := mem_updateEvent.1 he'
            by_cases heq' : e.eventId = item.eventId
            · rw [if_pos heq']
              exact sourceUpdate_none_pending (m 0).now e
            · rw [if_neg heq'] at hid
              exact absurd hid heq'
          constructor
          · intro _
            refine ⟨0, Nat.succ_pos limit, ?_⟩
            rw [hahead 0]
            refine Nat.le_of_eq (List.countP_eq_zero.2 fun e' he' => ?_)
            intro hcount
            rw [Bool.and_eq_true, decide_eq_true_eq] at hcount
            exact absurd hcount.2 (not_lt.2 (nextPending_le hnext (by simpa using he') hcount.1 rfl))
          · intro _
            refine relayLoop_published hrest (hw.next hturn) ?_ hpublished
            rw [relayTurn_keys hturn]
            exact List.mem_map_of_mem he₁
        · -- Another row is found: it was ahead, and one less is.
          have hlt : item.rank < e.rank :=
            lt_of_le_of_ne (nextPending_le hnext he₁ hp rfl) fun hrank =>
                heq (OutboxRow.eventId_of_rank hrank)
          have hless := aheadOf_update hw.arrived hmem hpending hlt (m 0).now
          have hstill : e ∈ updateEvent item.eventId (sourceUpdate (m 0).now none)
              (db.outbox ++ (m 0).arrivals) :=
            mem_updateEvent.2 ⟨e, he₁, by rw [if_neg fun h => heq h.symm]⟩
          rw [ih hrest hf (hw.next hturn) hstill hp]
          have hshift : ∀ n, aheadOf e (committed (fun i => m (i + 1))
              (updateEvent item.eventId (sourceUpdate (m 0).now none) (db.outbox ++ (m 0).arrivals))
                n) + 1 =
              aheadOf e (committed m db.outbox (n + 1)) := by
            intro n
            rw [hahead n, committed, aheadOf_append]
            omega
          constructor
          · rintro ⟨t, ht, hle⟩
            refine ⟨t + 1, Nat.succ_lt_succ ht, ?_⟩
            rw [← hshift (t + 1)]
            exact Nat.succ_le_succ hle
          · rintro ⟨t, ht, hle⟩
            rw [← hshift t] at hle
            cases t with
            | zero => exact absurd hle (Nat.not_succ_le_zero _)
            | succ t => exact ⟨t, Nat.lt_of_succ_lt_succ ht, Nat.le_of_succ_le_succ hle⟩

/-- Without new rows, every pending row has its turn exactly when there are no more of them than turns. -/
theorem served_iff {limit : Nat} (hkeys : (outbox.map OutboxRow.eventId).Nodup)
    (hm : ∀ i, (m i).arrivals = []) :
    (∀ e ∈ outbox, e.pending = true → Served limit m outbox e) ↔
      outbox.countP OutboxRow.pending ≤ limit := by
  have hcommitted : ∀ n, committed m outbox n = outbox := by
    intro n
    unfold committed
    simp [hm]
  -- One pending row is not ahead of itself.
  have hself : ∀ e ∈ outbox, e.pending = true →
      outbox.countP OutboxRow.pending = (outbox.countP fun e' => e'.pending &&
        !decide (e'.eventId = e.eventId)) + 1 := by
    intro e he hp
    rw [countP_key hkeys he OutboxRow.pending, if_pos hp]
  constructor
  · intro h
    by_cases hnone : ∃ e ∈ outbox, e.pending = true
    · -- The last pending row: all the others are ahead of it.
      obtain ⟨e, hlast⟩ : ∃ e, (outbox.filter OutboxRow.pending).argmax OutboxRow.rank = some e := by
        refine Option.ne_none_iff_exists'.1 fun hnil => ?_
        obtain ⟨e, he, hp⟩ := hnone
        rw [List.argmax_eq_none, List.filter_eq_nil_iff] at hnil
        exact hnil e he hp
      obtain ⟨he, hp⟩ := List.mem_filter.1 (List.argmax_mem hlast)
      obtain ⟨t, ht, hle⟩ := h e he hp
      rw [hcommitted] at hle
      have hahead : aheadOf e outbox = outbox.countP fun e' => e'.pending &&
          !decide (e'.eventId = e.eventId) := by
        refine List.countP_congr fun e' he' => ?_
        rw [Bool.and_eq_true, Bool.and_eq_true]
        refine and_congr_right fun hp' => ?_
        have hmax : e'.rank ≤ e.rank := List.le_of_mem_argmax (List.mem_filter.2 ⟨he', hp'⟩) hlast
        rw [decide_eq_true_eq, Bool.not_eq_true', decide_eq_false_iff_not]
        constructor
        · rintro hlt heq
          rw [List.inj_on_of_nodup_map hkeys he' he heq] at hlt
          exact lt_irrefl _ hlt
        · exact fun hne => lt_of_le_of_ne hmax fun hrank => hne (OutboxRow.eventId_of_rank hrank)
      have := hself e he hp
      omega
    · have hzero : outbox.countP OutboxRow.pending = 0 := by
        rw [List.countP_eq_zero]
        exact fun e he hp => hnone ⟨e, he, hp⟩
      omega
  · intro h e he hp
    have hle : aheadOf e outbox ≤ outbox.countP fun e' => e'.pending &&
        !decide (e'.eventId = e.eventId) := by
      refine List.countP_mono_left fun e' he' hcount => ?_
      rw [Bool.and_eq_true, decide_eq_true_eq] at hcount
      rw [Bool.and_eq_true, Bool.not_eq_true', decide_eq_false_iff_not]
      refine ⟨hcount.1, fun heq => ?_⟩
      rw [List.inj_on_of_nodup_map hkeys he' he heq] at hcount
      exact lt_irrefl _ hcount.2
    have := hself e he hp
    exact ⟨aheadOf e outbox, by omega, by rw [hcommitted]⟩

end Loop

/-! ## The audit afterwards -/

/-- What a successful stage is taken to mean for the rows that were there before it: they are
published, and the audit of any week finds nothing pending and no telemetry missing among them. -/
structure Drained (outbox : List OutboxRow) (db : Databases) : Prop where
  published : ∀ e ∈ outbox, ∃ e' ∈ db.outbox, e'.eventId = e.eventId ∧ e'.pending = false
  audited : ∀ (s : OperationalSnapshot) (start stop : Int), s.outbox = windowOutbox start stop db.outbox →
    s.telemetry = windowTelemetry start stop db.telemetry → ∀ e ∈ outbox, ∀ e' ∈ s.outbox,
    e'.eventId = e.eventId → ∃ diagnostics, auditOutboxRow s.officialTelemetry e' = some diagnostics ∧
    "outbox_pending" ∉ diagnostics ∧ "telemetry_target_count_mismatch" ∉ diagnostics

/-- The audit of a row that is published. -/
theorem audit_published {s : OperationalSnapshot} {start stop : Int} (h : Sound τ)
    (he : e ∈ windowOutbox start stop τ.outbox)
    (hp : e.pending = false) (htype : e.eventType ∈ EventType.all.map EventType.text)
    (ht : s.telemetry = windowTelemetry start stop τ.telemetry) :
    ∃ diagnostics, auditOutboxRow s.officialTelemetry e = some diagnostics ∧ "outbox_pending" ∉
      diagnostics ∧ "telemetry_target_count_mismatch" ∉ diagnostics := by
  obtain ⟨hmem, hwindow⟩ := List.mem_filter.1 he
  obtain ⟨expected, row, hmap, hrow, heq⟩ := h.published e hmem hp
  have hexpected : expected.id = e.eventId ∧ expected.timestamp = e.occurredAt ∧ expected.service = "api" ∧
      expected.eventType = e.eventType := by
    obtain ⟨tags, -, rfl⟩ := Option.map_eq_some_iff.1 hmap
    exact ⟨rfl, rfl, rfl, rfl⟩
  have hid : row.id = e.eventId := (congrArg Canonical.id heq).trans hexpected.1
  have hofficial : row.official = true := by
    have hservice : row.service = "api" := (congrArg Canonical.service heq).trans hexpected.2.2.1
    have hrowType : row.eventType = e.eventType := (congrArg Canonical.eventType heq).trans hexpected.2.2.2
    simp only [TelemetryRecord.official, hservice, hrowType, htype, decide_true, Bool.and_self]
  have hrowWindow : row ∈ s.officialTelemetry := by
    have htime : row.timestamp = e.occurredAt := (congrArg Canonical.timestamp heq).trans hexpected.2.1
    refine List.mem_filter.2 ⟨?_, hofficial⟩
    rw [ht]
    refine List.mem_filter.2 ⟨hrow, ?_⟩
    rw [htime, decide_eq_true_eq]
    exact ⟨by simpa using hwindow, hofficial⟩
  have hkeys : (s.officialTelemetry.map TelemetryRecord.id).Nodup := by
    unfold OperationalSnapshot.officialTelemetry windowTelemetry at *
    rw [ht]
    exact h.telemetryKeys.sublist ((List.filter_sublist.trans List.filter_sublist).map _)
  have htarget : auditTarget s.officialTelemetry e =
      some (if sameTarget row expected then [] else ["telemetry_target_content_mismatch"]) := by
    unfold auditTarget
    rw [← hid, filter_key_eq hkeys hrowWindow, hmap]
    rfl
  unfold auditOutboxRow
  rw [htarget, hp]
  refine ⟨_, rfl, ?_, ?_⟩
  all_goals
    split
    · exact List.not_mem_nil
    · decide

/-! ## The task -/

variable {m : Nat → Conditions} {result : RelayResult}

theorem relayOutboxTask_ok (h : relayOutboxTask m db = (.ok result, db')) :
    relayLoop 100 m {} db = (.ok result, db') ∧ result.failed = 0 := by
  obtain ⟨result', db₁, hrun, hrest⟩ := Raising.bind_eq_ok h
  dsimp only at hrest
  split at hrest
  · obtain ⟨_, _, hraise, -⟩ := Raising.bind_eq_ok hrest
    cases hraise
  case isFalse hf =>
    cases hrest
    exact ⟨hrun, not_not.1 hf⟩

/-- A task that returns has drained the rows that were there before it exactly when each pending one
had its turn. -/
theorem drained_iff (h : Sound σ) (hidle : ∀ r, σ.relays r = none ∧ σ.sessions r = none)
    (hw : Writers m σ.outbox) (htypes : ∀ e ∈ σ.outbox, e.eventType ∈ EventType.all.map EventType.text)
    (hrun : relayOutboxTask m ⟨σ.outbox, σ.telemetry⟩ = (.ok result, db')) :
    Drained σ.outbox db' ↔ ∀ e ∈ σ.outbox, e.pending = true → Served 100 m σ.outbox e := by
  obtain ⟨hloop, hf⟩ := relayOutboxTask_ok hrun
  have hbegin : Step σ (σ.move 0 (some (.ready 100))) := .begin 100 (hidle 0).1 (hidle 0).2 (by decide)
  have halone : Alone σ 0 := ⟨fun r _ => (hidle r).1, fun r _ => (hidle r).2⟩
  obtain ⟨τ, hsteps, rfl⟩ :=
    relayLoop_steps (σ := σ.move 0 (some (.ready 100))) (by rw [move_relays, if_pos rfl])
    (halone.move _) (hidle 0).2 hw hloop
  have hrunSteps : Steps σ τ := ((Steps.refl σ).step hbegin).trans hsteps
  have hτ : Sound τ := h.steps hrunSteps
  constructor
  · intro hdrained e he hp
    rw [← relayLoop_published_iff hloop hf hw he hp]
    obtain ⟨e₁, he₁, hid₁, hp₁⟩ := hdrained.published e he
    intro e' he' hid'
    rwa [List.inj_on_of_nodup_map hτ.outboxKeys he' he₁ (hid'.trans hid₁.symm)]
  · intro hserved
    have hpublished : ∀ e ∈ σ.outbox, Acknowledged e.eventId τ.outbox := by
      intro e he
      cases hp : e.pending with
      | true => exact (relayLoop_published_iff hloop hf hw he hp).2 (hserved e he hp)
      | false =>
        refine relayLoop_published hloop hw (List.mem_map_of_mem he) fun e' he' hid => ?_
        rwa [List.inj_on_of_nodup_map h.outboxKeys he' he hid]
    refine ⟨fun e he => ?_, fun s start stop hs ht e he e' he' hid => ?_⟩
    · obtain ⟨e', he', hid, -⟩ := hrunSteps.mono.2 e he
      exact ⟨e', he', hid, hpublished e he e' he' hid⟩
    · rw [hs] at he'
      have hmem : e' ∈ τ.outbox := List.mem_of_mem_filter he'
      obtain ⟨e₁, he₁, hid₁, hmap⟩ := hrunSteps.mono.2 e he
      rw [List.inj_on_of_nodup_map hτ.outboxKeys he₁ hmem (hid₁.trans hid.symm)] at hmap
      obtain ⟨expected, -, hexpected, -⟩ := hτ.published e' hmem (hpublished e he e' hmem hid)
      have htype : e'.eventType = e.eventType := by
        obtain ⟨tags, -, rfl⟩ := Option.map_eq_some_iff.1 hexpected
        obtain ⟨tags', -, heq⟩ := Option.map_eq_some_iff.1 (hmap.symm.trans hexpected)
        exact (congrArg TelemetryRecord.eventType heq).symm
      exact audit_published hτ he' (hpublished e he e' hmem hid) (htype ▸ htypes e he) ht

/-- A relay task that returns, while no other relay runs, has drained the outbox exactly when each
row that was pending before it came, at one of the 100 SELECTs, after no more pending rows than
SELECTs. If nothing is enqueued meanwhile, this is when no more than 100 rows were pending. -/
theorem relay_task_drains_iff (h : Sound σ) (hidle : ∀ r, σ.relays r = none ∧ σ.sessions r = none)
    (hw : Writers m σ.outbox)
    (htypes : ∀ e ∈ σ.outbox, e.eventType ∈ EventType.all.map EventType.text)
    (hrun : relayOutboxTask m ⟨σ.outbox, σ.telemetry⟩ = (.ok result, db')) :
    (Drained σ.outbox db' ↔ ∀ e ∈ σ.outbox, e.pending = true → Served 100 m σ.outbox e) ∧
    ((∀ i, (m i).arrivals = []) → (Drained σ.outbox db' ↔ σ.outbox.countP OutboxRow.pending ≤ 100)) :=
  ⟨drained_iff h hidle hw htypes hrun, fun hm => (drained_iff h hidle hw htypes hrun).trans
    (served_iff h.outboxKeys hm)⟩

/-! ### Healthy databases -/

/-- Neither database raises. -/
def HealthyDatabases (m : Nat → Conditions) : Prop :=
  ∀ i, (m i).select = none ∧ (m i).destination = none ∧ (m i).commit = none

/-- The destination accepts the row. -/
def Accepted (telemetry : List TelemetryRecord) (e : OutboxRow) : Prop :=
  ∃ expected, mapOutboxEventToRow e = some expected ∧ ∀ row ∈ telemetry, row.id = e.eventId →
    canonicalDestination row = canonicalDestination expected

theorem persist_accepted {telemetry : List TelemetryRecord} (h : Accepted telemetry e) :
    ∃ expected rows, mapOutboxEventToRow e = some expected ∧ persistDestinationEvent telemetry expected =
      some rows ∧ ∀ row ∈ rows, row ∈ telemetry ∨ row = expected := by
  obtain ⟨expected, hmap, hsame⟩ := h
  unfold persistDestinationEvent
  cases hfound : telemetry.find? fun row => row.id = expected.id with
  | none =>
    refine ⟨expected, telemetry ++ [expected], hmap, by rw [hfound], fun row hrow => ?_⟩
    simpa using hrow
  | some actual =>
    have hid : actual.id = expected.id := by simpa using List.find?_some hfound
    have heq := hsame actual (List.mem_of_find?_eq_some hfound) (hid.trans (mapOutboxEventToRow_id hmap))
    exact ⟨expected, telemetry, hmap, by rw [hfound]; exact if_pos heq, fun row hrow => Or.inl hrow⟩

theorem relayItem_delivers {m : Conditions} {item : OutboxRow} {rows : List TelemetryRecord}
    (hm : m.commit = none)
    (h : deliver m db.telemetry item = (rows, none)) :
    relayItem m item db =
      (.ok .delivered, ⟨updateEvent item.eventId (sourceUpdate m.now none) db.outbox, rows⟩) := by
  unfold relayItem
  simp only [bind, Raising.bind, Raising.get, Raising.modify, h, hm]
  rfl

/-- A row that is still pending after a delivery was pending before it, and is of another event. -/
theorem pending_of_update {item : OutboxRow} {now : Int} {rows : List OutboxRow}
    (he : e ∈ updateEvent item.eventId (sourceUpdate now none) rows) (hp : e.pending = true) :
    e ∈ rows ∧ e.eventId ≠ item.eventId := by
  obtain ⟨e', he', rfl⟩ := mem_updateEvent.1 he
  by_cases hid : e'.eventId = item.eventId
  · rw [if_pos hid] at hp
    exact absurd hp (by rw [sourceUpdate_none_pending]; decide)
  · rw [if_neg hid]
    exact ⟨he', hid⟩

/-- With healthy databases a call delivers, and returns. -/
theorem relayLoop_healthy {limit : Nat} : ∀ {m : Nat → Conditions} {db : Databases} {result : RelayResult},
    HealthyDatabases m → Writers m db.outbox → (∀ n, ∀ e ∈ committed m db.outbox n, e.pending = true →
      Accepted db.telemetry e) →
    ∃ result' db', relayLoop limit m result db = (.ok result', db') ∧ result'.failed = result.failed := by
  induction limit with
  | zero => exact fun _ _ _ => ⟨_, _, rfl, rfl⟩
  | succ limit ih =>
    intro m db result hm hw haccepted
    cases hnext : nextPending (fun _ => true) (db.outbox ++ (m 0).arrivals) with
    | none =>
      have hturn : relayTurn (m 0) db = (.ok .drained, ⟨db.outbox ++ (m 0).arrivals, db.telemetry⟩) := by
        rw [relayTurn_eq (hm 0).1 hnext, (hm 0).2.2]
        rfl
      exact ⟨_, _, Raising.bind_of_ok hturn, rfl⟩
    | some item =>
      obtain ⟨hitem, hpending, -⟩ := nextPending_mem hnext
      have hcommitted : ∀ n, committed m db.outbox (n + 1) =
          (db.outbox ++ (m 0).arrivals) ++ (List.range n).flatMap fun i => (m (i + 1)).arrivals :=
        fun n => committed_succ m db.outbox n
      obtain ⟨expected, rows, hmap, hpersist, hrows⟩ := persist_accepted
        (haccepted 1 item (hcommitted 0 ▸ List.mem_append_left _ hitem) hpending)
      have hdeliver : deliver (m 0) db.telemetry item = (rows, none) := by
        unfold deliver
        rw [hmap, (hm 0).2.1]
        dsimp only
        rw [hpersist]
      have hturn : relayTurn (m 0) db = (.ok .delivered,
          ⟨updateEvent item.eventId (sourceUpdate (m 0).now none) (db.outbox ++ (m 0).arrivals),
            rows⟩) := by
        rw [relayTurn_eq (hm 0).1 hnext]
        exact relayItem_delivers (hm 0).2.2 hdeliver
      obtain ⟨result', db', hrun, hf⟩ := @ih _ _ { result with delivered := result.delivered + 1 }
        (fun i => hm (i + 1)) (hw.next hturn) fun n e he hp => by
          -- A row that is still pending is of another event than the one that the destination now has.
          have hbefore : e ∈ committed m db.outbox (n + 1) ∧ e.eventId ≠ item.eventId := by
            rw [hcommitted]
            rcases List.mem_append.1 he with he | he
            · obtain ⟨he', hne⟩ := pending_of_update he hp
              exact ⟨List.mem_append_left _ he', hne⟩
            · have hkeys := hw.keys (n + 1)
              rw [hcommitted, List.map_append, List.nodup_append] at hkeys
              exact ⟨List.mem_append_right _ he, fun heq =>
                hkeys.2.2 _ (List.mem_map_of_mem hitem) _ (List.mem_map_of_mem he) heq.symm⟩
          obtain ⟨expected', hmap', hsame⟩ := haccepted (n + 1) e hbefore.1 hp
          refine ⟨expected', hmap', fun row hrow hid => ?_⟩
          rcases hrows row hrow with hrow | rfl
          · exact hsame row hrow hid
          · exact absurd (hid.symm.trans (mapOutboxEventToRow_id hmap)) hbefore.2
      exact ⟨result', db', (Raising.bind_of_ok hturn).trans hrun, hf⟩

/-! ### A backlog -/

/-- The event of the `i`-th entry. -/
def backlogRow (i : Nat) : OutboxRow where
  eventId := ⟨List.replicate 30 0 ++ [Fin.ofNat 16 (i / 16), Fin.ofNat 16 i], rfl⟩
  occurredAt := i
  sourceTable := "stockentry"
  sourcePk := i
  eventType := "inbound_order_created"
  tags := .dict []

/-- `n` rows that nothing has relayed yet. -/
def backlog (n : Nat) : List OutboxRow := (List.range n).map backlogRow

theorem backlog_keys {n : Nat} (hn : n ≤ 256) : ((backlog n).map OutboxRow.eventId).Nodup := by
  rw [backlog, List.map_map]
  refine List.Nodup.map_on (fun i hi j hj heq => ?_) List.nodup_range
  have hi' : i < n := List.mem_range.1 hi
  have hj' : j < n := List.mem_range.1 hj
  have hdigits := List.append_cancel_left (congrArg Uuid.digits heq)
  injection hdigits with hhigh hrest
  injection hrest with hlow
  have hhigh' : i / 16 % 16 = j / 16 % 16 := congrArg Fin.val hhigh
  have hlow' : i % 16 = j % 16 := congrArg Fin.val hlow
  omega

theorem backlog_pending {n : Nat} {e : OutboxRow} (h : e ∈ backlog n) : e.pending = true := by
  obtain ⟨i, -, rfl⟩ := List.mem_map.1 h
  rfl

theorem backlog_count (n : Nat) : (backlog n).countP OutboxRow.pending = n := by
  rw [List.countP_eq_length.2 fun e he => backlog_pending he, backlog, List.length_map, List.length_range]

/-- The state with the backlog, and nothing else. -/
def backlogState (n : Nat) : System := { System.empty with outbox := backlog n }

theorem backlog_reachable {n : Nat} (hn : n ≤ 256) : Reachable (backlogState n) :=
  enqueue_steps (σ := .empty) (backlog_keys hn) fun _ he => backlog_pending he

theorem backlog_committed (n k : Nat) : committed (fun _ => {}) (backlog n) k = backlog n := by
  unfold committed
  simp

theorem backlog_writers {n : Nat} (hn : n ≤ 256) : Writers (fun _ => {}) (backlog n) where
  keys k := by
    rw [backlog_committed]
    exact backlog_keys hn
  pending _ _ h := by cases h

theorem backlog_accepted {n : Nat} {e : OutboxRow} (h : e ∈ backlog n) : Accepted [] e := by
  obtain ⟨i, -, rfl⟩ := List.mem_map.1 h
  exact ⟨_, rfl, fun _ hrow => by cases hrow⟩

theorem backlog_official {n : Nat} {e : OutboxRow} (h : e ∈ backlog n) :
    e.eventType ∈ EventType.all.map EventType.text := by
  obtain ⟨i, -, rfl⟩ := List.mem_map.1 h
  exact List.mem_map.2 ⟨.inboundOrderCreated, by decide, rfl⟩

theorem backlog_relayed {n : Nat} (hn : n ≤ 256) :
    ∃ result db', relayOutboxTask (fun _ => {}) ⟨backlog n, []⟩ = (.ok result, db') := by
  obtain ⟨result, db', hrun, hf⟩ := @relayLoop_healthy 100 (fun _ => {}) ⟨backlog n, []⟩ {}
    (fun _ => ⟨rfl, rfl, rfl⟩) (backlog_writers hn) fun k e he _ => by
      rw [backlog_committed] at he
      exact backlog_accepted he
  refine ⟨result, db', (Raising.bind_of_ok hrun).trans ?_⟩
  dsimp only
  rw [if_neg (not_not.2 hf)]
  rfl

/-- A hundred rows are drained. -/
theorem relay_task_drains_iff_hundred :
    ∃ result db', relayOutboxTask (fun _ => {}) ⟨backlog 100, []⟩ = (.ok result, db') ∧
      Drained (backlog 100) db' := by
  obtain ⟨result, db', hrun⟩ := backlog_relayed (n := 100) (by decide)
  exact ⟨result, db', hrun,
    ((relay_task_drains_iff (σ := backlogState 100) (backlog_reachable (by decide)).sound
      (fun _ => ⟨rfl, rfl⟩) (backlog_writers (by decide)) (fun _ he => backlog_official he) hrun).2
      fun _ => rfl).2 (backlog_count 100).le⟩

/-- Of a hundred and one rows one is left pending, although the databases are healthy and the task
returns. -/
theorem backlog_left : ∃ σ m result db', Reachable σ ∧ (∀ r, σ.relays r = none ∧ σ.sessions r = none) ∧
    Writers m σ.outbox ∧ HealthyDatabases m ∧
    (∀ n, ∀ e ∈ committed m σ.outbox n, e.pending = true → Accepted σ.telemetry e) ∧
    relayOutboxTask m ⟨σ.outbox, σ.telemetry⟩ = (.ok result, db') ∧
    ∃ e ∈ σ.outbox, ∃ e' ∈ db'.outbox, e'.eventId = e.eventId ∧ e'.pending = true := by
  obtain ⟨result, db', hrun⟩ := backlog_relayed (n := 101) (by decide)
  refine ⟨backlogState 101, fun _ => {}, result, db', backlog_reachable (by decide), fun _ => ⟨rfl, rfl⟩,
    backlog_writers (by decide), fun _ => ⟨rfl, rfl, rfl⟩, fun n e he _ => ?_, hrun, ?_⟩
  · have he' : e ∈ backlog 101 := backlog_committed 101 n ▸ he
    exact backlog_accepted he'
  · by_contra hnone
    have hserved : ∀ e ∈ backlog 101, e.pending = true → Served 100 (fun _ => {}) (backlog 101) e := by
      intro e he hp
      obtain ⟨hloop, hf⟩ := relayOutboxTask_ok hrun
      refine (relayLoop_published_iff hloop hf (backlog_writers (by decide)) he hp).1 fun e' he' hid => ?_
      by_contra hp'
      exact hnone ⟨e, he, e', he', hid, by simpa using hp'⟩
    have hle := (served_iff (backlog_keys (by decide)) fun _ => rfl).1 hserved
    rw [backlog_count] at hle
    omega

end TrackFlow.Pipelines
