import TrackFlow.Pipelines.Outbox

/-!
# Relays of the outbox

Any number of calls of `relay_inventory_outbox` move rows of the outbox of one database into the
telemetry of another. A relay locks a row at the source, inserts at the destination, commits there
and only then acknowledges at the source. No transaction spans both databases, and a relay may end
at any point: its lock is then gone, while the transaction that it left at the destination still
ends either way.

- `Step`: one step of a relay, of a writer of the outbox, or of another writer of the telemetry;
- `Sound`: what holds of both tables in every state that is reached (`Reachable.sound`);
- `delivered_once_in_effect`: acknowledged rows are at the destination, once and with their content;
  a row whose place is taken stays pending, and every pending row can still be selected.
-/

namespace TrackFlow.Pipelines

open TrackFlow.Python

namespace Relay

/-! ## Systems -/

/-- Where a call of `relay_inventory_outbox` is; `left` iterations of its loop remain. -/
inductive Phase
  | ready (left : Nat)
  | selected (left : Nat) (item : OutboxRow)
  /-- The INSERT did nothing. -/
  | skipped (left : Nat) (item : OutboxRow) (expected : TelemetryRecord)
  /-- The row at the destination is the expected one. -/
  | confirmed (left : Nat) (item : OutboxRow)
  | delivered (left : Nat) (item : OutboxRow)
  | refused (item : OutboxRow) (code : String)

/-- The source row that is locked. -/
def Phase.item : Phase → Option OutboxRow
  | .ready _ => none
  | .selected _ e | .skipped _ e _ | .confirmed _ e | .delivered _ e | .refused e _ => some e

/-- The committed rows of both databases, the relays, and what their transactions at the destination
have inserted. -/
structure System where
  outbox : List OutboxRow
  telemetry : List TelemetryRecord
  relays : Nat → Option Phase
  sessions : Nat → Option TelemetryRecord

namespace System

/-- Empty tables. -/
def empty : System := ⟨[], [], fun _ => none, fun _ => none⟩

/-- A relay moves on. -/
def move (σ : System) (r : Nat) (phase : Option Phase) : System :=
  { σ with relays := Function.update σ.relays r phase }

/-- The transaction of a relay at the destination ends. -/
def endSession (σ : System) (r : Nat) (effect : Bool) : System :=
  { σ with
    telemetry := if effect then σ.telemetry ++ (σ.sessions r).toList else σ.telemetry
    sessions := Function.update σ.sessions r none }

/-- The transaction of a relay at the destination inserts a row. -/
def insertRow (σ : System) (r : Nat) (row : TelemetryRecord) : System :=
  { σ with sessions := Function.update σ.sessions r (some row) }

/-- The relay has the row locked. -/
def Holds (σ : System) (r : Nat) (e : OutboxRow) : Prop :=
  ∃ phase, σ.relays r = some phase ∧ phase.item = some e

/-- No relay has a row of this event locked. -/
def Free (σ : System) (id : Uuid) : Prop := ∀ r e, σ.Holds r e → e.eventId ≠ id

/-- The row that `SELECT … FOR UPDATE SKIP LOCKED LIMIT 1` finds. -/
def Next (σ : System) (found : Option OutboxRow) : Prop :=
  ∃ free : Uuid → Bool, (∀ id, free id = true ↔ σ.Free id) ∧ nextPending free σ.outbox = found

end System

/-- One step. -/
inductive Step : System → System → Prop
  /-- `enqueue_inventory_event`, once it is committed. -/
  | enqueue {σ} (e : OutboxRow) : (∀ e' ∈ σ.outbox, e'.eventId ≠ e.eventId) → e.pending = true →
      Step σ { σ with outbox := σ.outbox ++ [e] }
  /-- Another writer of the telemetry; the primary key makes it wait for open transactions. -/
  | post {σ} (row : TelemetryRecord) : (∀ row' ∈ σ.telemetry, row'.id ≠ row.id) →
      (∀ r row', σ.sessions r = some row' → row'.id ≠ row.id) →
        Step σ { σ with telemetry := σ.telemetry ++ [row] }
  | begin {σ r} (limit : Nat) : σ.relays r = none → σ.sessions r = none → 0 < limit →
      Step σ (σ.move r (some (.ready limit)))
  | select {σ r left e} : σ.relays r = some (.ready (left + 1)) → σ.Next (some e) →
      Step σ (σ.move r (some (.selected left e)))
  /-- The call returns: no row was found, or its iterations are used up. -/
  | finish {σ r left} : σ.relays r = some (.ready left) → (left = 0 ∨ σ.Next none) → Step σ (σ.move r none)
  | insert {σ r left e row} : σ.relays r = some (.selected left e) → mapOutboxEventToRow e = some row →
      (∀ row' ∈ σ.telemetry, row'.id ≠ row.id) → (∀ r' row', σ.sessions r' = some row' → row'.id ≠ row.id) →
      Step σ ((σ.insertRow r row).move r (some (.confirmed left e)))
  | skip {σ r left e row} : σ.relays r = some (.selected left e) → mapOutboxEventToRow e = some row →
      (∃ row' ∈ σ.telemetry, row'.id = row.id) → Step σ (σ.move r (some (.skipped left e row)))
  | compare {σ r left e row actual} : σ.relays r = some (.skipped left e row) →
      (σ.telemetry.find? fun row' => row'.id = row.id) = some actual →
      canonicalDestination actual = canonicalDestination row → Step σ (σ.move r (some (.confirmed left e)))
  /-- `_DestinationEventConflict`. -/
  | conflict {σ r left e row} : σ.relays r = some (.skipped left e row) →
      (∀ actual, (σ.telemetry.find? fun row' => row'.id = row.id) = some actual →
        canonicalDestination actual ≠ canonicalDestination row) →
      Step σ ((σ.endSession r false).move r (some (.refused e "destination_event_conflict")))
  | commit {σ r left e} : σ.relays r = some (.confirmed left e) →
      Step σ ((σ.endSession r true).move r (some (.delivered left e)))
  /-- An exception at the destination; a COMMIT that raises may have taken effect. -/
  | fail {σ r phase e} (code : String) (effect : Bool) : σ.relays r = some phase → phase.item = some e →
      (∀ left, phase ≠ .delivered left e) → (∀ code, phase ≠ .refused e code) →
      (effect = true → ∃ left, phase = .confirmed left e) →
      Step σ ((σ.endSession r effect).move r (some (.refused e code)))
  | acknowledge {σ r left e} (now : Int) : σ.relays r = some (.delivered left e) →
      Step σ { σ.move r (some (.ready left)) with
        outbox := updateEvent e.eventId (fun e => if e.pending then e.acknowledge now else e) σ.outbox }
  /-- The failure is recorded, and the call returns. -/
  | record {σ r e code} (now : Int) : σ.relays r = some (.refused e code) →
      Step σ { σ.move r none with outbox := updateEvent e.eventId (fun e => e.fail code now) σ.outbox }
  /-- The end of a relay at any point. -/
  | crash {σ} (r : Nat) : Step σ (σ.move r none)
  /-- The end of what a relay left at the destination. -/
  | settle {σ r} (effect : Bool) : σ.relays r = none → Step σ (σ.endSession r effect)

/-- Any number of steps. -/
inductive Steps : System → System → Prop
  | refl (σ : System) : Steps σ σ
  | step {σ τ υ : System} : Steps σ τ → Step τ υ → Steps σ υ

/-- The states that steps reach from empty tables. -/
def Reachable (σ : System) : Prop := Steps .empty σ

theorem Steps.trans {σ τ υ : System} (h : Steps σ τ) (h' : Steps τ υ) : Steps σ υ := by
  induction h' with
  | refl => exact h
  | step _ hs ih => exact ih.step hs

/-! ## The invariant -/

/-- The destination has the row that the event is mapped to. -/
def Delivered (telemetry : List TelemetryRecord) (e : OutboxRow) : Prop :=
  ∃ expected row, mapOutboxEventToRow e = some expected ∧ row ∈ telemetry ∧
    canonicalDestination row = canonicalDestination expected

theorem Delivered.mono {ts ts' : List TelemetryRecord} {e : OutboxRow} (h : Delivered ts e)
    (hts : ∀ row ∈ ts, row ∈ ts') : Delivered ts' e := by
  obtain ⟨expected, row, hmap, hrow, heq⟩ := h
  exact ⟨expected, row, hmap, hts row hrow, heq⟩

/-- What holds of both tables, and of what the relays know. -/
structure Sound (σ : System) : Prop where
  outboxKeys : (σ.outbox.map OutboxRow.eventId).Nodup
  telemetryKeys : (σ.telemetry.map TelemetryRecord.id).Nodup
  sessionKeys : ∀ r row, σ.sessions r = some row → ∀ row' ∈ σ.telemetry, row'.id ≠ row.id
  sessionsApart : ∀ r r' row row', σ.sessions r = some row → σ.sessions r' = some row' →
    row.id = row'.id → r = r'
  published : ∀ e ∈ σ.outbox, e.pending = false → Delivered σ.telemetry e
  held : ∀ r e, σ.Holds r e → e ∈ σ.outbox ∧ e.pending = true
  heldApart : ∀ r r' e e', σ.Holds r e → σ.Holds r' e' → e.eventId = e'.eventId → r = r'
  skipped : ∀ r left e row, σ.relays r = some (.skipped left e row) → mapOutboxEventToRow e = some row
  confirmed : ∀ r left e, σ.relays r = some (.confirmed left e) →
    Delivered (σ.telemetry ++ (σ.sessions r).toList) e
  delivered : ∀ r left e, σ.relays r = some (.delivered left e) → Delivered σ.telemetry e

variable {σ τ υ : System} {r : Nat}

theorem move_relays (phase : Option Phase) (r' : Nat) :
    (σ.move r phase).relays r' = if r' = r then phase else σ.relays r' := Function.update_apply ..

theorem endSession_sessions (effect : Bool) (r' : Nat) :
    (σ.endSession r effect).sessions r' = if r' = r then none else σ.sessions r' := Function.update_apply ..

theorem insertRow_sessions (row : TelemetryRecord) (r' : Nat) :
    (σ.insertRow r row).sessions r' = if r' = r then some row else σ.sessions r' := Function.update_apply ..

theorem holds_move {phase : Option Phase} {r' : Nat} {e : OutboxRow} :
    (σ.move r phase).Holds r' e ↔
      if r' = r then ∃ p, phase = some p ∧ p.item = some e else σ.Holds r' e := by
  unfold System.Holds
  rw [move_relays]
  split <;> rfl

/-- A relay that moves on, with the tables as they are. -/
theorem Sound.move {phase : Option Phase} (h : Sound σ) (hitem : ∀ p e, phase = some p → p.item = some e →
      e ∈ σ.outbox ∧ e.pending = true ∧ ∀ r' e', r' ≠ r → σ.Holds r' e' → e'.eventId ≠ e.eventId)
    (hskipped : ∀ left e row, phase = some (.skipped left e row) → mapOutboxEventToRow e = some row)
    (hconfirmed : ∀ left e, phase = some (.confirmed left e) →
      Delivered (σ.telemetry ++ (σ.sessions r).toList) e)
    (hdelivered : ∀ left e, phase = some (.delivered left e) → Delivered σ.telemetry e) :
    Sound (σ.move r phase) where
  outboxKeys := h.outboxKeys
  telemetryKeys := h.telemetryKeys
  sessionKeys := h.sessionKeys
  sessionsApart := h.sessionsApart
  published := h.published
  held r' e hholds := by
    rw [holds_move] at hholds
    split at hholds
    · obtain ⟨p, hp, he⟩ := hholds
      have hmem := hitem p e hp he
      exact ⟨hmem.1, hmem.2.1⟩
    · exact h.held r' e hholds
  heldApart r₁ r₂ e₁ e₂ h₁ h₂ heq := by
    rw [holds_move] at h₁ h₂
    split at h₁
    case isTrue hr₁ =>
      split at h₂
      case isTrue hr₂ => rw [hr₁, hr₂]
      case isFalse hr₂ =>
        obtain ⟨p, hp, he⟩ := h₁
        exact absurd heq.symm ((hitem p e₁ hp he).2.2 r₂ e₂ hr₂ h₂)
    case isFalse hr₁ =>
      split at h₂
      case isTrue hr₂ =>
        obtain ⟨p, hp, he⟩ := h₂
        exact absurd heq ((hitem p e₂ hp he).2.2 r₁ e₁ hr₁ h₁)
      case isFalse hr₂ => exact h.heldApart r₁ r₂ e₁ e₂ h₁ h₂ heq
  skipped r' left e row hphase := by
    rw [move_relays] at hphase
    split at hphase
    · exact hskipped left e row hphase
    · exact h.skipped r' left e row hphase
  confirmed r' left e hphase := by
    rw [move_relays] at hphase
    split at hphase
    case isTrue hr =>
      subst hr
      exact hconfirmed left e hphase
    case isFalse => exact h.confirmed r' left e hphase
  delivered r' left e hphase := by
    rw [move_relays] at hphase
    split at hphase
    · exact hdelivered left e hphase
    · exact h.delivered r' left e hphase

/-- A relay that lets its row go. -/
theorem Sound.leave (h : Sound σ) (r : Nat) {phase : Option Phase}
    (hphase : ∀ p, phase = some p → p.item = none) : Sound (σ.move r phase) := by
  refine h.move (fun p e hp he => ?_) (fun left e row hp => ?_) (fun left e hp => ?_) fun left e hp => ?_
  · cases (hphase p hp).symm.trans he
  · cases hphase _ hp
  · cases hphase _ hp
  · cases hphase _ hp

/-- A relay that keeps its row. -/
theorem Sound.next {p p' : Phase} (h : Sound σ) (hr : σ.relays r = some p) (hitem : p'.item = p.item)
    (hskipped : ∀ left e row, p' = .skipped left e row → mapOutboxEventToRow e = some row)
    (hconfirmed : ∀ left e, p' = .confirmed left e → Delivered (σ.telemetry ++ (σ.sessions r).toList) e)
    (hdelivered : ∀ left e, p' = .delivered left e → Delivered σ.telemetry e) :
    Sound (σ.move r (some p')) := by
  refine h.move (fun q e hq he => ?_) (fun left e row hq => hskipped left e row (Option.some.inj hq))
    (fun left e hq => hconfirmed left e (Option.some.inj hq)) fun left e hq =>
      hdelivered left e (Option.some.inj hq)
  cases hq
  have hholds : σ.Holds r e := ⟨p, hr, hitem ▸ he⟩
  exact ⟨(h.held r e hholds).1, (h.held r e hholds).2, fun r' e' hne hholds' heq =>
    hne (h.heldApart r' r e' e hholds' hholds heq)⟩

theorem endSession_telemetry {effect : Bool} {row : TelemetryRecord} (hrow : row ∈ σ.telemetry) :
    row ∈ (σ.endSession r effect).telemetry := by
  unfold System.endSession
  dsimp only
  split
  · exact List.mem_append_left _ hrow
  · exact hrow

/-- The end of a transaction at the destination. -/
theorem Sound.endSession {effect : Bool} (h : Sound σ)
    (hr : ∀ left e, σ.relays r = some (.confirmed left e) → effect = true) :
    Sound (σ.endSession r effect) where
  outboxKeys := h.outboxKeys
  telemetryKeys := by
    unfold System.endSession
    dsimp only
    split
    · cases hrow : σ.sessions r with
      | none => simpa using h.telemetryKeys
      | some row =>
        rw [Option.toList_some, List.map_append, List.map_singleton]
        refine List.nodup_append.2 ⟨h.telemetryKeys, List.nodup_singleton _, fun id hid id' hid' => ?_⟩
        obtain ⟨row', hrow', rfl⟩ := List.mem_map.1 hid
        rw [List.mem_singleton.1 hid']
        exact h.sessionKeys r row hrow row' hrow'
    · exact h.telemetryKeys
  sessionKeys r' row hrow row' hrow' := by
    rw [endSession_sessions] at hrow
    split at hrow
    · cases hrow
    · have hrow'' : row' ∈ σ.telemetry ∨ σ.sessions r = some row' := by
        unfold System.endSession at hrow'
        dsimp only at hrow'
        split at hrow'
        · exact (List.mem_append.1 hrow').imp id fun hmem => by simpa using hmem
        · exact Or.inl hrow'
      rcases hrow'' with hmem | hsession
      · exact h.sessionKeys r' row hrow row' hmem
      · exact fun heq => absurd (h.sessionsApart r r' row' row hsession hrow heq).symm ‹_›
  sessionsApart r₁ r₂ row₁ row₂ h₁ h₂ heq := by
    rw [endSession_sessions] at h₁ h₂
    split at h₁
    · cases h₁
    · split at h₂
      · cases h₂
      · exact h.sessionsApart r₁ r₂ row₁ row₂ h₁ h₂ heq
  published e he hp := (h.published e he hp).mono fun _ => endSession_telemetry
  held := h.held
  heldApart := h.heldApart
  skipped := h.skipped
  confirmed r' left e hphase := by
    have hbefore := h.confirmed r' left e hphase
    rw [endSession_sessions]
    split
    case isTrue heq =>
      subst heq
      cases hr left e hphase
      simpa [System.endSession] using hbefore
    case isFalse hne =>
      refine hbefore.mono fun row hrow => ?_
      exact List.mem_append.2 ((List.mem_append.1 hrow).imp endSession_telemetry id)
  delivered r' left e hphase := (h.delivered r' left e hphase).mono fun _ => endSession_telemetry

/-- A new row of the outbox. -/
theorem Sound.enqueue {e : OutboxRow} (h : Sound σ) (hnew : ∀ e' ∈ σ.outbox, e'.eventId ≠ e.eventId)
    (hpending : e.pending = true) : Sound { σ with outbox := σ.outbox ++ [e] } :=
  { h with
    outboxKeys := by
      rw [List.map_append, List.map_singleton]
      refine List.nodup_append.2 ⟨h.outboxKeys, List.nodup_singleton _, fun id hid id' hid' => ?_⟩
      obtain ⟨e', he', rfl⟩ := List.mem_map.1 hid
      rw [List.mem_singleton.1 hid']
      exact hnew e' he'
    published := fun e' he' hp => by
      rcases List.mem_append.1 he' with he' | he'
      · exact h.published e' he' hp
      · rw [List.mem_singleton.1 he', hpending] at hp
        cases hp
    held := fun r e' hholds => ⟨List.mem_append_left _ (h.held r e' hholds).1, (h.held r e' hholds).2⟩ }

/-- A new row of the telemetry. -/
theorem Sound.post {row : TelemetryRecord} (h : Sound σ) (hnew : ∀ row' ∈ σ.telemetry, row'.id ≠ row.id)
    (hsessions : ∀ r row', σ.sessions r = some row' → row'.id ≠ row.id) :
    Sound { σ with telemetry := σ.telemetry ++ [row] } :=
  { h with
    telemetryKeys := by
      rw [List.map_append, List.map_singleton]
      refine List.nodup_append.2 ⟨h.telemetryKeys, List.nodup_singleton _, fun id hid id' hid' => ?_⟩
      obtain ⟨row', hrow', rfl⟩ := List.mem_map.1 hid
      rw [List.mem_singleton.1 hid']
      exact hnew row' hrow'
    sessionKeys := fun r row' hrow' row'' hrow'' => by
      rcases List.mem_append.1 hrow'' with hrow'' | hrow''
      · exact h.sessionKeys r row' hrow' row'' hrow''
      · rw [List.mem_singleton.1 hrow'']
        exact (hsessions r row' hrow').symm
    published := fun e he hp => (h.published e he hp).mono fun _ hmem => List.mem_append_left _ hmem
    confirmed := fun r left e hr => (h.confirmed r left e hr).mono fun row' hmem => by
      rcases List.mem_append.1 hmem with hmem | hmem
      · exact List.mem_append_left _ (List.mem_append_left _ hmem)
      · exact List.mem_append_right _ hmem
    delivered := fun r left e hr => (h.delivered r left e hr).mono fun _ hmem =>
      List.mem_append_left _ hmem }

/-- An update of a row that no relay has locked. -/
theorem Sound.update {id : Uuid} {change : OutboxRow → OutboxRow} (h : Sound σ) (hfree : σ.Free id)
    (hid : ∀ e, (change e).eventId = e.eventId)
    (hchange : ∀ e ∈ σ.outbox, e.eventId = id → (change e).pending = false →
      Delivered σ.telemetry (change e)) :
    Sound { σ with outbox := updateEvent id change σ.outbox } :=
  { h with
    outboxKeys := by
      rw [updateEvent_keys hid]
      exact h.outboxKeys
    published := fun e he hp => by
      obtain ⟨e', he', rfl⟩ := mem_updateEvent.1 he
      by_cases heq : e'.eventId = id
      · rw [if_pos heq] at hp ⊢
        exact hchange e' he' heq hp
      · rw [if_neg heq] at hp ⊢
        exact h.published e' he' hp
    held := fun r e hholds => by
      refine ⟨mem_updateEvent.2 ⟨e, (h.held r e hholds).1, ?_⟩, (h.held r e hholds).2⟩
      rw [if_neg (hfree r e hholds)] }

/-- A row that is inserted at the destination, but not committed. -/
theorem Sound.insert {left : Nat} {e : OutboxRow} {row : TelemetryRecord} (h : Sound σ)
    (hr : σ.relays r = some (.selected left e)) (hmap : mapOutboxEventToRow e = some row)
    (hnew : ∀ row' ∈ σ.telemetry, row'.id ≠ row.id)
    (hsessions : ∀ r' row', σ.sessions r' = some row' → row'.id ≠ row.id) :
    Sound ((σ.insertRow r row).move r (some (.confirmed left e))) := by
  have hset : Sound (σ.insertRow r row) := by
    refine { h with
      sessionKeys := fun r' row' hrow' => ?_, sessionsApart := fun r₁ r₂ row₁ row₂ h₁ h₂ heq => ?_
      confirmed := fun r' left' e' hr' => ?_ }
    · rw [insertRow_sessions] at hrow'
      split at hrow'
      · cases hrow'
        exact hnew
      · exact h.sessionKeys r' row' hrow'
    · rw [insertRow_sessions] at h₁ h₂
      split at h₁
      case isTrue hr₁ =>
        split at h₂
        case isTrue hr₂ => rw [hr₁, hr₂]
        case isFalse =>
          cases h₁
          exact absurd heq.symm (hsessions r₂ row₂ h₂)
      case isFalse =>
        split at h₂
        · cases h₂
          exact absurd heq (hsessions r₁ row₁ h₁)
        · exact h.sessionsApart r₁ r₂ row₁ row₂ h₁ h₂ heq
    · have hne : r' ≠ r := by
        rintro rfl
        cases hr.symm.trans hr'
      rw [insertRow_sessions, if_neg hne]
      exact h.confirmed r' left' e' hr'
  refine hset.next hr rfl (fun _ _ _ hp => by cases hp) (fun left' e' he' => ?_) fun left' e' he' =>
    by cases he'
  cases he'
  refine ⟨row, row, hmap, List.mem_append_right _ ?_, rfl⟩
  rw [insertRow_sessions, if_pos rfl]
  exact List.mem_singleton_self row

theorem Sound.delivered_of_mem {e : OutboxRow} {left : Nat} (h : Sound σ)
    (hr : σ.relays r = some (.delivered left e))
    {e' : OutboxRow} (he' : e' ∈ σ.outbox) (hid : e'.eventId = e.eventId) : e' = e :=
  List.inj_on_of_nodup_map h.outboxKeys he' (h.held r e ⟨_, hr, rfl⟩).1 hid

theorem Sound.free_of_leave {p : Phase} {e : OutboxRow} (h : Sound σ) (hr : σ.relays r = some p)
    (he : p.item = some e) {phase : Option Phase} (hphase : ∀ q, phase = some q → q.item = none) :
    (σ.move r phase).Free e.eventId := by
  intro r' e' hholds heq
  rw [holds_move] at hholds
  split at hholds
  · obtain ⟨q, hq, hitem⟩ := hholds
    cases (hphase q hq).symm.trans hitem
  case isFalse hne => exact hne (h.heldApart r' r e' e hholds ⟨p, hr, he⟩ heq)

theorem Sound.step (h : Sound σ) (hs : Step σ τ) : Sound τ := by
  cases hs with
  | enqueue e hnew hpending => exact h.enqueue hnew hpending
  | post row hnew hsessions => exact h.post hnew hsessions
  | begin limit hr hsession hlimit => exact h.leave _ fun p hp => by cases hp; rfl
  | select hr hnext =>
    obtain ⟨free, hfree, hfound⟩ := hnext
    obtain ⟨hmem, hpending, hisfree⟩ := nextPending_mem hfound
    refine h.move (fun p e hp he => ?_) (fun _ _ _ hp => by cases hp) (fun _ _ hp => by cases hp)
      fun _ _ hp => by cases hp
    cases hp
    cases he
    exact ⟨hmem, hpending, fun r' e' _ hholds => (hfree _).1 hisfree r' e' hholds⟩
  | finish hr hend => exact h.leave _ fun _ hp => by cases hp
  | insert hr hmap hnew hsessions => exact h.insert hr hmap hnew hsessions
  | skip hr hmap hthere =>
    exact h.next hr rfl (fun _ _ _ he => by cases he; exact hmap) (fun _ _ he => by cases he) fun _
        _ he => by cases he
  | @compare r left e row actual hr hfound heq =>
    refine h.next hr rfl (fun _ _ _ he => by cases he) (fun left e he => ?_) fun _ _ he => by cases he
    cases he
    exact ⟨row, actual, h.skipped r left e row hr,
      List.mem_append_left _ (List.mem_of_find?_eq_some hfound), heq⟩
  | @conflict r left e row hr hconflict =>
    have hmoved : Sound (σ.move r (some (.refused e "destination_event_conflict"))) :=
      h.next hr rfl (fun _ _ _ he => by cases he) (fun _ _ he => by cases he) fun _ _ he => by cases he
    have hended : Sound ((σ.move r (some (.refused e "destination_event_conflict"))).endSession r false) :=
      hmoved.endSession fun left e hr' => by rw [move_relays, if_pos rfl] at hr'; cases hr'
    exact hended
  | @commit r left e hr =>
    have hended : Sound (σ.endSession r true) := h.endSession fun _ _ _ => rfl
    refine hended.next hr rfl (fun _ _ _ he => by cases he) (fun _ _ he => by cases he) fun left' e'
      he' => ?_
    cases he'
    simpa [System.endSession] using h.confirmed r left e hr
  | @fail r phase e code effect hr he hdelivered hrefused heffect =>
    have hmoved : Sound (σ.move r (some (.refused e code))) :=
      h.next hr he.symm (fun _ _ _ he => by cases he) (fun _ _ he => by cases he) fun _ _ he => by cases he
    have hended : Sound ((σ.move r (some (.refused e code))).endSession r effect) :=
      hmoved.endSession fun left e hr' => by rw [move_relays, if_pos rfl] at hr'; cases hr'
    exact hended
  | @acknowledge r left e now hr =>
    have hmoved : Sound (σ.move r (some (.ready left))) := h.leave r fun p hp => by cases hp; rfl
    refine hmoved.update (h.free_of_leave hr rfl fun p hp => by cases hp; rfl) (fun e => ?_) fun e'
      he' hid _ => ?_
    · split <;> rfl
    · rw [h.delivered_of_mem hr he' hid]
      obtain ⟨expected, row, hmap, hrow, heq⟩ := h.delivered r left e hr
      refine ⟨expected, row, ?_, hrow, heq⟩
      split <;> exact hmap
  | @record r e code now hr =>
    have hmoved : Sound (σ.move r none) := h.leave r fun _ hp => by cases hp
    refine hmoved.update (h.free_of_leave hr rfl fun _ hp => by cases hp) (fun e => rfl) fun e' he'
      hid hp => ?_
    exact hmoved.published e' he' hp
  | crash r => exact h.leave r fun _ hp => by cases hp
  | settle effect hr => exact h.endSession fun left e hr' => by cases hr.symm.trans hr'

theorem Sound.steps (h : Sound σ) (hs : Steps σ τ) : Sound τ := by
  induction hs with
  | refl => exact h
  | step _ hstep ih => exact ih.step hstep

theorem Sound.empty : Sound .empty where
  outboxKeys := List.nodup_nil
  telemetryKeys := List.nodup_nil
  sessionKeys _ _ h := by cases h
  sessionsApart _ _ _ _ h := by cases h
  published _ h := by cases h
  held r e h := by
    obtain ⟨p, hp, -⟩ := h
    cases hp
  heldApart r _ e _ h := by
    obtain ⟨p, hp, -⟩ := h
    cases hp
  skipped _ _ _ _ h := by cases h
  confirmed _ _ _ h := by cases h
  delivered _ _ _ h := by cases h

theorem Reachable.sound (h : Reachable σ) : Sound σ := Sound.empty.steps h

/-! ## What steps leave -/

/-- No step removes or changes a row of the destination. -/
theorem Step.telemetry_mono (hs : Step σ τ) {row : TelemetryRecord} (hrow : row ∈ σ.telemetry) :
    row ∈ τ.telemetry := by
  cases hs with
  | post => exact List.mem_append_left _ hrow
  | @conflict r => exact @endSession_telemetry σ r false row hrow
  | @commit r => exact @endSession_telemetry σ r true row hrow
  | @fail r _ _ _ effect => exact @endSession_telemetry σ r effect row hrow
  | @settle r effect => exact @endSession_telemetry σ r effect row hrow
  | _ => exact hrow

/-- A row of the outbox keeps its event and what it is mapped to. -/
theorem Step.outbox_mono (hs : Step σ τ) {e : OutboxRow} (he : e ∈ σ.outbox) :
    ∃ e' ∈ τ.outbox, e'.eventId = e.eventId ∧ mapOutboxEventToRow e' = mapOutboxEventToRow e := by
  cases hs with
  | enqueue => exact ⟨e, List.mem_append_left _ he, rfl, rfl⟩
  | acknowledge =>
    refine ⟨_, mem_updateEvent.2 ⟨e, he, rfl⟩, ?_, ?_⟩
    all_goals
      split
      · split <;> rfl
      · rfl
  | record =>
    refine ⟨_, mem_updateEvent.2 ⟨e, he, rfl⟩, ?_, ?_⟩
    all_goals split <;> rfl
  | _ => exact ⟨e, he, rfl, rfl⟩

theorem Steps.mono (hs : Steps σ τ) :
    (∀ row ∈ σ.telemetry, row ∈ τ.telemetry) ∧ ∀ e ∈ σ.outbox, ∃ e' ∈ τ.outbox,
    e'.eventId = e.eventId ∧ mapOutboxEventToRow e' = mapOutboxEventToRow e := by
  induction hs with
  | refl => exact ⟨fun _ h => h, fun e he => ⟨e, he, rfl, rfl⟩⟩
  | step _ hstep ih =>
    refine ⟨fun row hrow => hstep.telemetry_mono (ih.1 row hrow), fun e he => ?_⟩
    obtain ⟨e', he', hid, hmap⟩ := ih.2 e he
    obtain ⟨e'', he'', hid', hmap'⟩ := hstep.outbox_mono he'
    exact ⟨e'', he'', hid'.trans hid, hmap'.trans hmap⟩

/-! ## Selection -/

/-- A relay is at the top of its loop, and its SELECT finds the row. -/
def Selectable (σ : System) (e : OutboxRow) : Prop :=
  ∃ r left, σ.relays r = some (.ready (left + 1)) ∧ σ.Next (some e)

/-- The relays that are not idle. -/
def System.busy (σ : System) : Set Nat := {r | σ.relays r ≠ none ∨ σ.sessions r ≠ none}

/-- A step is one of a single relay, if of any. -/
theorem Step.others (hs : Step σ τ) :
    ∃ r, ∀ r', r' ≠ r → τ.relays r' = σ.relays r' ∧ τ.sessions r' = σ.sessions r' := by
  have hmove : ∀ (υ : System) (r : Nat) (phase : Option Phase) (r' : Nat), r' ≠ r →
      (υ.move r phase).relays r' = υ.relays r' := fun υ r phase r' hne => by rw [move_relays, if_neg hne]
  have hend : ∀ (effect : Bool) (r r' : Nat), r' ≠ r →
      (σ.endSession r effect).sessions r' = σ.sessions r' :=
    fun effect r r' hne => by rw [endSession_sessions, if_neg hne]
  cases hs with
  | enqueue | post => exact ⟨0, fun _ _ => ⟨rfl, rfl⟩⟩
  | @begin r | @select r | @finish r | @skip r | @compare r | @acknowledge r | @record r | crash r =>
    exact ⟨r, fun r' hne => ⟨hmove σ r _ r' hne, rfl⟩⟩
  | @insert r _ _ row =>
    exact ⟨r, fun r' hne => ⟨hmove (σ.insertRow r row) r _ r' hne, by
      show (σ.insertRow r row).sessions r' = _
      rw [insertRow_sessions, if_neg hne]⟩⟩
  | @conflict r => exact ⟨r, fun r' hne => ⟨hmove (σ.endSession r false) r _ r' hne, hend false r r' hne⟩⟩
  | @commit r => exact ⟨r, fun r' hne => ⟨hmove (σ.endSession r true) r _ r' hne, hend true r r' hne⟩⟩
  | @fail r _ _ _ effect =>
      exact ⟨r, fun r' hne => ⟨hmove (σ.endSession r effect) r _ r' hne, hend effect r r' hne⟩⟩
  | @settle r effect => exact ⟨r, fun r' hne => ⟨rfl, hend effect r r' hne⟩⟩

theorem Step.busy_finite (hs : Step σ τ) (h : σ.busy.Finite) : τ.busy.Finite := by
  obtain ⟨r, hr⟩ := hs.others
  refine (h.insert r).subset fun r' hr' => ?_
  by_cases hne : r' = r
  · exact Set.mem_insert_iff.2 (Or.inl hne)
  · refine Set.mem_insert_of_mem r ?_
    unfold System.busy at hr' ⊢
    rw [Set.mem_ofPred_eq] at hr' ⊢
    rwa [(hr r' hne).1, (hr r' hne).2] at hr'

theorem Steps.busy_finite (hs : Steps σ τ) (h : σ.busy.Finite) : τ.busy.Finite := by
  induction hs with
  | refl => exact h
  | step _ hstep ih => exact hstep.busy_finite ih

theorem Reachable.busy_finite (h : Reachable σ) : σ.busy.Finite := by
  refine Steps.busy_finite h (Set.Finite.subset Set.finite_empty fun r hr => ?_)
  rcases hr with hr | hr
  · exact hr rfl
  · exact hr rfl

/-- There is always another relay. -/
theorem exists_idle (h : σ.busy.Finite) : ∃ r, σ.relays r = none ∧ σ.sessions r = none := by
  obtain ⟨r, hr⟩ := h.exists_notMem
  refine ⟨r, ?_⟩
  unfold System.busy at hr
  simpa only [Set.mem_ofPred_eq, not_or, not_not] using hr

/-- The SELECT of a relay always has an outcome. -/
theorem exists_next (σ : System) : ∃ found, σ.Next found := by
  classical
  exact ⟨_, fun id => decide (σ.Free id), fun id => decide_eq_true_iff, rfl⟩

open Classical in
/-- The rows before `e` that are pending and that no relay has locked. -/
noncomputable def System.ahead (σ : System) (e : OutboxRow) : List OutboxRow :=
  σ.outbox.filter fun e' => e'.pending ∧ σ.Free e'.eventId ∧ e'.rank < e.rank

theorem mem_ahead {e e' : OutboxRow} :
    e' ∈ σ.ahead e ↔ e' ∈ σ.outbox ∧ e'.pending = true ∧ σ.Free e'.eventId ∧ e'.rank < e.rank := by
  simp [System.ahead]

/-- A lock leaves fewer rows ahead. -/
theorem ahead_lt {e e₁ : OutboxRow} (hle : ∀ id, τ.Free id → σ.Free id) (ho : τ.outbox = σ.outbox)
    (h₁ : e₁ ∈ σ.ahead e) (hlocked : ¬ τ.Free e₁.eventId) : (τ.ahead e).length < (σ.ahead e).length := by
  obtain ⟨hmem, hpending, hfree, hlt⟩ := mem_ahead.1 h₁
  unfold System.ahead
  rw [ho]
  refine filter_length_lt (fun e' he' => ?_) hmem ?_ ?_
  · simp only [decide_eq_true_eq] at he' ⊢
    exact ⟨he'.1, hle _ he'.2.1, he'.2.2⟩
  · simp [hpending, hfree, hlt]
  · simp [hlocked]

/-- A row that nobody has locked is found once the rows before it are locked. -/
theorem select_free {e : OutboxRow} (n : Nat) : ∀ {σ : System}, Sound σ → σ.busy.Finite →
    e ∈ σ.outbox → e.pending = true →
    σ.Free e.eventId → (σ.ahead e).length = n → ∃ τ, Steps σ τ ∧ Selectable τ e := by
  induction n using Nat.strong_induction_on with
  | _ n ih =>
    intro σ h hbusy he hpending hfree hahead
    obtain ⟨r, hr, hsession⟩ := exists_idle hbusy
    have hbegin : Step σ (σ.move r (some (.ready 1))) := .begin 1 hr hsession Nat.one_pos
    have hholds : ∀ r' e', (σ.move r (some (.ready 1))).Holds r' e' → σ.Holds r' e' := by
      intro r' e' hh
      rw [holds_move] at hh
      split at hh
      · obtain ⟨p, hp, hitem⟩ := hh
        cases hp
        cases hitem
      · exact hh
    have hready : (σ.move r (some (.ready 1))).relays r = some (.ready 1) := by rw [move_relays, if_pos rfl]
    obtain ⟨found, hnext⟩ := exists_next (σ.move r (some (.ready 1)))
    obtain ⟨free, hfreeIff, hfound⟩ := id hnext
    have hfree' : free e.eventId = true := (hfreeIff _).2 fun r' e' hh => hfree r' e' (hholds r' e' hh)
    cases found with
    | none => simp [nextPending_none hfound he hfree'] at hpending
    | some e₁ =>
      obtain ⟨h₁mem, h₁pending, h₁free⟩ := nextPending_mem hfound
      by_cases heq : e₁.eventId = e.eventId
      · have hsame : e₁ = e := List.inj_on_of_nodup_map h.outboxKeys h₁mem he heq
        subst hsame
        exact ⟨_, (Steps.refl σ).step hbegin, r, 0, hready, hnext⟩
      · -- The row found is one of those ahead; the relay locks it and the next one looks again.
        have hselect := Step.select hready hnext
        have hlt : e₁.rank < e.rank :=
          lt_of_le_of_ne (nextPending_le hfound he hpending hfree') fun hrank =>
            heq (OutboxRow.eventId_of_rank hrank)
        have h₁σ : σ.Free e₁.eventId := fun r' e' hh => by
          have hne : r' ≠ r := by
            rintro rfl
            obtain ⟨p, hp, -⟩ := hh
            cases hr.symm.trans hp
          exact (hfreeIff _).1 h₁free r' e' (by rwa [holds_move, if_neg hne])
        have hmoved :
            ∀ id, ((σ.move r (some (.ready 1))).move r (some (.selected 0 e₁))).Free id → σ.Free id := by
          intro id hid r' e' hh
          have hne : r' ≠ r := by
            rintro rfl
            obtain ⟨p, hp, -⟩ := hh
            cases hr.symm.trans hp
          exact hid r' e' (by rwa [holds_move, if_neg hne, holds_move, if_neg hne])
        have hlocked : ¬ ((σ.move r (some (.ready 1))).move r (some (.selected 0 e₁))).Free e₁.eventId :=
          fun hid => hid r e₁ (by rw [holds_move, if_pos rfl]; exact ⟨_, rfl, rfl⟩) rfl
        have hstill : ((σ.move r (some (.ready 1))).move r (some (.selected 0 e₁))).Free e.eventId := by
          intro r' e' hh
          rw [holds_move] at hh
          split at hh
          · obtain ⟨p, hp, hitem⟩ := hh
            cases hp
            cases hitem
            exact heq
          · exact hfree r' e' (hholds r' e' hh)
        have hfewer := ahead_lt hmoved rfl (mem_ahead.2 ⟨h₁mem, h₁pending, h₁σ, hlt⟩) hlocked
        obtain ⟨τ, hsteps, hτ⟩ := ih _ (hahead ▸ hfewer) ((h.step hbegin).step hselect)
          (hselect.busy_finite (hbegin.busy_finite hbusy)) he hpending hstill rfl
        exact ⟨τ, (((Steps.refl σ).step hbegin).step hselect).trans hsteps, hτ⟩

/-- Every pending row can still be selected. -/
theorem pending_selectable {e : OutboxRow} (h : Sound σ) (hbusy : σ.busy.Finite) (he : e ∈ σ.outbox)
    (hpending : e.pending = true) : ∃ τ, Steps σ τ ∧ Selectable τ e := by
  by_cases hfree : σ.Free e.eventId
  · exact select_free _ h hbusy he hpending hfree rfl
  · -- The relay that has the row ends, whatever it was doing.
    unfold System.Free at hfree
    push Not at hfree
    obtain ⟨r, e', hholds, hid⟩ := hfree
    obtain ⟨p, hp, hitem⟩ := hholds
    have hcrash : Step σ (σ.move r none) := .crash r
    have hfreed : (σ.move r none).Free e.eventId := hid ▸ h.free_of_leave hp hitem fun _ hq => by cases hq
    obtain ⟨τ, hsteps, hτ⟩ :=
      select_free _ (h.step hcrash) (hcrash.busy_finite hbusy) he hpending hfreed rfl
    exact ⟨τ, ((Steps.refl σ).step hcrash).trans hsteps, hτ⟩

/-! ## Delivery -/

theorem Delivered.row {e : OutboxRow} (h : Sound σ) (hd : Delivered σ.telemetry e) : ∃ expected row,
    mapOutboxEventToRow e = some expected ∧ (σ.telemetry.filter fun row' => row'.id = e.eventId) = [row] ∧
      canonicalDestination row = canonicalDestination expected := by
  obtain ⟨expected, row, hmap, hrow, heq⟩ := hd
  have hid : row.id = e.eventId := (congrArg Canonical.id heq).trans (mapOutboxEventToRow_id hmap)
  exact ⟨expected, row, hmap, hid ▸ filter_key_eq h.telemetryKeys hrow, heq⟩

/-- A row whose place is taken is not acknowledged. -/
theorem pending_of_conflict {e : OutboxRow} {row : TelemetryRecord} (h : Sound σ)
    (he : e ∈ σ.outbox) (hrow : row ∈ σ.telemetry)
    (hid : row.id = e.eventId) (hconflict : ∀ expected, mapOutboxEventToRow e = some expected →
      canonicalDestination row ≠ canonicalDestination expected) : e.pending = true := by
  cases hp : e.pending with
  | true => rfl
  | false =>
    obtain ⟨expected, row', hmap, hrow', heq⟩ := h.published e he hp
    have hid' : row'.id = e.eventId := (congrArg Canonical.id heq).trans (mapOutboxEventToRow_id hmap)
    have hsame : row' = row := List.inj_on_of_nodup_map h.telemetryKeys hrow' hrow (hid'.trans hid.symm)
    exact absurd (hsame ▸ heq) (hconflict expected hmap)

/-- In every state that relays reach: an acknowledged row is at the destination once and with its
content; no event has two rows there; a row whose place is taken by another content stays pending in
every run that follows, and the other content stays; and each pending row is selected in some run
that follows. -/
theorem delivered_once_in_effect (h : Reachable σ) :
    (∀ e ∈ σ.outbox, e.pending = false → ∃ expected row, mapOutboxEventToRow e = some expected ∧
      (σ.telemetry.filter fun row' => row'.id = e.eventId) = [row] ∧
        canonicalDestination row = canonicalDestination expected) ∧
    (σ.telemetry.map TelemetryRecord.id).Nodup ∧
    (∀ e ∈ σ.outbox, ∀ row ∈ σ.telemetry, row.id = e.eventId →
      (∀ expected, mapOutboxEventToRow e = some expected → canonicalDestination row ≠
        canonicalDestination expected) → ∀ τ, Steps σ τ → row ∈ τ.telemetry ∧ ∀ e' ∈ τ.outbox,
      e'.eventId = e.eventId → e'.pending = true) ∧
    ∀ e ∈ σ.outbox, e.pending = true → ∃ τ, Steps σ τ ∧ Selectable τ e := by
  have hsound := h.sound
  refine ⟨fun e he hp => Delivered.row hsound (hsound.published e he hp), hsound.telemetryKeys, ?_, ?_⟩
  · intro e he row hrow hid hconflict τ hsteps
    have hrowτ : row ∈ τ.telemetry := hsteps.mono.1 row hrow
    refine ⟨hrowτ, fun e' he' hid' => ?_⟩
    obtain ⟨e'', he'', hid'', hmap⟩ := hsteps.mono.2 e he
    have hτ : Sound τ := hsound.steps hsteps
    have hsame : e'' = e' := List.inj_on_of_nodup_map hτ.outboxKeys he'' he' (hid''.trans hid'.symm)
    refine pending_of_conflict hτ he' hrowτ (hid.trans hid'.symm) fun expected hexpected =>
      hconflict expected ?_
    rw [← hmap, hsame, hexpected]
  · exact fun e he hp => pending_selectable hsound h.busy_finite he hp

/-! ### A redelivery -/

/-- The zero UUID. -/
def zeroId : Uuid := ⟨List.replicate 32 0, rfl⟩

/-- The event of a stock exit. -/
def exitEvent : OutboxRow where
  eventId := zeroId
  occurredAt := 0
  sourceTable := "stockexit"
  sourcePk := 1
  eventType := "outbound_order_created"
  tags := .dict [("order_id", .str "7")]

/-- Its row at the destination. -/
def exitRow : TelemetryRecord where
  id := zeroId
  timestamp := 0
  service := "api"
  eventType := "outbound_order_created"
  level := some "info"
  value := none
  message := none
  tags := .dict [("order_id", .str "7")]

/-- A relay that ends between the COMMIT at the destination and the acknowledgement, and another one
after it. -/
theorem redelivery : ∃ σ, Reachable σ ∧ σ.outbox = [exitEvent.acknowledge 5] ∧ σ.telemetry = [exitRow] := by
  have hnext : ∀ {σ : System}, σ.outbox = [exitEvent] → (∀ r p, σ.relays r = some p → p.item = none) →
      σ.Next (some exitEvent) := by
    intro σ hout hready
    refine ⟨fun _ => true, fun id => ⟨fun _ r e hholds => ?_, fun _ => rfl⟩, by rw [hout]; rfl⟩
    obtain ⟨p, hp, hitem⟩ := hholds
    cases (hready r p hp).symm.trans hitem
  have hmap : mapOutboxEventToRow exitEvent = some exitRow := rfl
  have hqueued : Reachable ⟨[exitEvent], [], fun _ => none, fun _ => none⟩ :=
    (Steps.refl .empty).step (.enqueue exitEvent (fun _ he => by cases he) rfl)
  have hfirst := hqueued.step (.begin 1 (r := 0) rfl rfl Nat.one_pos)
  have hlocked := hfirst.step (.select (r := 0) rfl (hnext rfl fun r p hp => by
    cases r with
    | zero => cases hp; rfl
    | succ r => cases hp))
  have hinserted := hlocked.step (.insert (r := 0) rfl hmap (fun _ he => by cases he) fun _ _ hs =>
      by cases hs)
  have hcommitted := hinserted.step (.commit (r := 0) rfl)
  have hcrashed := hcommitted.step (.crash 0)
  -- The lock is gone and the row is at the destination.
  have hsecond := hcrashed.step (.begin 1 (r := 1) rfl rfl Nat.one_pos)
  have hrelocked := hsecond.step (.select (r := 1) rfl (hnext rfl fun r p hp => by
    match r with
    | 0 => cases hp
    | 1 => cases hp; rfl
    | r + 2 => cases hp))
  have hskipped := hrelocked.step (.skip (r := 1) rfl hmap ⟨exitRow, List.mem_singleton_self exitRow, rfl⟩)
  have hconfirmed := hskipped.step (@Step.compare _ 1 _ _ _ exitRow rfl rfl rfl)
  have hagain := hconfirmed.step (.commit (r := 1) rfl)
  exact ⟨_, hagain.step (.acknowledge (r := 1) 5 rfl), rfl, rfl⟩

/-- The crash changes nothing in effect: one row at the destination, and the event is acknowledged. -/
theorem delivered_once_in_effect_redelivery : ∃ σ, Reachable σ ∧ (∀ e ∈ σ.outbox, e.pending = false) ∧
    ∃ row, (σ.telemetry.filter fun row' => row'.id = zeroId) = [row] ∧
      canonicalDestination row = canonicalDestination exitRow := by
  obtain ⟨σ, hreach, hout, -⟩ := redelivery
  refine ⟨σ, hreach, fun e he => ?_, ?_⟩
  · rw [hout, List.mem_singleton] at he
    rw [he]
    rfl
  · have hmem : exitEvent.acknowledge 5 ∈ σ.outbox := by simp [hout]
    obtain ⟨expected, row, hmap, honly, heq⟩ := (delivered_once_in_effect hreach).1 _ hmem rfl
    cases (rfl : mapOutboxEventToRow (exitEvent.acknowledge 5) = some exitRow).symm.trans hmap
    exact ⟨row, honly, heq⟩

end Relay

end TrackFlow.Pipelines
