import TrackFlow.Inventory.HonestAudits
import TrackFlow.Pipelines.RelayedTelemetry
import TrackFlow.Pipelines.WeekAttribution

/-!
# The audit of relayed weeks

When each message of the commands has been relayed, and only relays write official telemetry, the audit of
every week is without diagnostics (`relayed_weeks_clean`).
-/

namespace TrackFlow.Inventory.Books

open TrackFlow.Python TrackFlow.ReadCommitted
open TrackFlow.Pipelines hiding outboxRows
open CommandLocks (Lock)

/-- `audit_operational_coverage`. -/
def auditOperationalCoverage (db : Tables) (telemetry : List TelemetryRecord) (weekStart : Int) :
    Except WeekError (Option OperationalCoverageAudit) := do
  let (start, stop) ← isoWeekBounds weekStart
  return auditOperationalSnapshot (loadSnapshot start stop db telemetry)

/-- The official telemetry of an interval is that of its messages. -/
theorem official_of_mapped {τ : Relay.System} {start stop : Int} (h : Relay.AllMapped τ) :
    ∀ row ∈ windowTelemetry start stop τ.telemetry,
      ∃ e ∈ windowOutbox start stop τ.outbox, e.eventId = row.id := by
  intro row hrow
  obtain ⟨hmem, hwindow⟩ := List.mem_filter.1 hrow
  obtain ⟨hwindow, hofficial⟩ := of_decide_eq_true hwindow
  obtain ⟨e, he, hmap⟩ := h.telemetry row hmem hofficial
  obtain ⟨tags, -, rfl⟩ := Option.map_eq_some_iff.1 hmap
  exact ⟨e, List.mem_filter.2 ⟨he, decide_eq_true hwindow⟩, rfl⟩

/-- **The audit of relayed weeks is clean**: in every state that the commands reach, once each message has
been relayed and acknowledged, the audit of no week has a diagnostic. -/
theorem relayed_weeks_clean {Cl : Type} [DecidableEq Cl] {skus : List Sku}
    {σ : System Cl Tables Write Lock Unit ServiceError Unit} {τ : Relay.System}
    (hids : (skus.map Sku.id).Nodup) (h : Reachable tables Command (start skus) σ)
    (hproducts : ∀ sku ∈ σ.db.skus, Product sku) (hτ : Relay.GenuineSteps .empty τ)
    (houtbox : τ.outbox = σ.db.outbox) (hrelayed : ∀ e ∈ τ.outbox, e.pending = false) {week : Int}
    {bounds : Int × Int} (hweek : isoWeekBounds week = .ok bounds) :
    ∃ audit, auditOperationalCoverage σ.db τ.telemetry week = .ok (some audit) ∧ audit.diagnostics = [] := by
  have hhonest := Honest.reached hids h hproducts
  obtain ⟨audit, haudit⟩ := hhonest.returns bounds.1 bounds.2 τ.telemetry
  have hloaded : auditOperationalCoverage σ.db τ.telemetry week = .ok (some audit) := by
    unfold auditOperationalCoverage
    rw [hweek, ← haudit]
    rfl
  refine ⟨audit, hloaded, hhonest.clean (Relay.Reachable.sound hτ.steps) houtbox ?_ ?_ haudit⟩
  · exact fun e he => hrelayed e (houtbox ▸ (List.mem_filter.1 he).1)
  · exact houtbox ▸ official_of_mapped hτ.mapped

/-! ### The weeks of the shirts -/

/-- Ids after those of `shirtCommands`, on a day of the week that follows. -/
def nextWeekStamps : Stamps where
  stamp k := ⟨k + 21, randomDigits (Fin.ofNat 16 (k + 10)), midnight 5 + k⟩
  positive k := stamp_positive k 20

/-- One more shirt leaves with the order, a week later. -/
def nextWeekCommands : List (Txn Unit) :=
  shirtCommands ++ [appendCommercialOrderDispatches ⟨sameDigits 10, [⟨sameDigits 14, 1, 1, "T-4"⟩]⟩ "u"
    (midnight 5) nextWeekStamps >>= fun _ => pure ()]

theorem nextWeekCommands_command : ∀ p ∈ nextWeekCommands, Command p := by
  intro p hp
  rcases List.mem_append.1 hp with hp | hp
  · exact shirtCommands_command p hp
  · rw [List.mem_singleton.1 hp]
    exact .append _ _ _ _ (by simp)

/-- The tables once each message is acknowledged. -/
def acknowledged (db : Tables) (now : Int) : Tables :=
  { db with outbox := db.outbox.map (OutboxRow.acknowledge · now) }

theorem acknowledged_reachable {db : Tables} {skus : List Sku} (now : Int)
    (hids : (db.skus.map Sku.id).Nodup) (h : Reachable tables Command (start skus)
      (System.idle db : System Unit Tables Write Lock Unit ServiceError Unit)) :
    Reachable tables Command (start skus)
      (System.idle (acknowledged db now) : System Unit Tables Write Lock Unit ServiceError Unit) := by
  have hmessages : (db.outbox.map (OutboxRow.acknowledge · now)).map message = db.outbox.map message :=
    List.map_map
  exact h.step (.world (World.relayed hids hmessages))

theorem acknowledged_pending {rows : List OutboxRow} {now : Int} :
    ∀ e ∈ rows.map (OutboxRow.acknowledge · now), e.pending = false := by
  intro e he
  obtain ⟨e', -, rfl⟩ := List.mem_map.1 he
  rfl

/-- The shirt that leaves a week later is a movement of that week, and its order is one of the week before;
the audits of both weeks are clean. -/
theorem relayed_weeks_clean_shirts :
    (serially (start shirts) nextWeekCommands).exits.map (fun e => isoWeekStart e.createdAt) =
        [-3, -3, -3, 4] ∧
      ∃ telemetry, ∀ week ∈ [-3, 4], ∃ audit,
        auditOperationalCoverage (acknowledged (serially (start shirts) nextWeekCommands) (midnight 6))
          telemetry week = .ok (some audit) ∧ audit.diagnostics = [] := by
  refine ⟨by decide +kernel, ?_⟩
  have hkeys : ((serially (start shirts) nextWeekCommands).outbox.map OutboxRow.eventId).Nodup := by
    decide +kernel
  obtain ⟨τ, hτ, houtbox, -⟩ := Relay.relay_all (midnight 6) hkeys (by decide +kernel) (by decide +kernel)
  have hserially : Reachable tables Command (start shirts)
      (System.idle (serially (start shirts) nextWeekCommands) :
        System Unit Tables Write Lock Unit ServiceError Unit) :=
    serially_reachable nextWeekCommands_command .idle
  have hreach := acknowledged_reachable (midnight 6) (by decide +kernel) hserially
  have hshirt : ∀ sku ∈ (serially (start shirts) nextWeekCommands).skus,
      sku.clientId.isSome = true ∧ sku.warehouse = Warehouse.value .la := by decide +kernel
  have hbounds : ∀ week ∈ [-3, 4], ∃ bounds, isoWeekBounds week = .ok bounds := by
    intro week hweek
    simp only [List.mem_cons, List.not_mem_nil, or_false] at hweek
    rcases hweek with rfl | rfl
    · exact ⟨_, rfl⟩
    · exact ⟨_, rfl⟩
  have hrelayed : ∀ e ∈ τ.outbox, e.pending = false := by
    rw [houtbox]
    exact acknowledged_pending
  refine ⟨τ.telemetry, fun week hweek => ?_⟩
  obtain ⟨bounds, hbounds⟩ := hbounds week hweek
  exact relayed_weeks_clean (by decide) hreach
    (fun sku hsku => ⟨(hshirt sku hsku).1, .la, (hshirt sku hsku).2⟩) hτ houtbox hrelayed hbounds

end TrackFlow.Inventory.Books
