import TrackFlow.Inventory.UniqueKeys

/-!
# Commits of the inventory

Only a COMMIT adds rows, and it adds those that its transaction has written (`step_added`).

- `stock_follows_movements`: stock is never negative, and changes by the movements of a COMMIT;
- `checkpoints_follow_movements`: each movement has one checkpoint, and the checkpoints of a SKU are a ledger
  that is kept with the thresholds in force.
-/

namespace TrackFlow.Inventory.Books

open TrackFlow.Python TrackFlow.ReadCommitted TrackFlow.Balances
open TrackFlow.Pipelines (OutboxRow)
open CommandLocks (Lock)

/-! ## Steps -/

/-- The rows of `more` came to the ends of their tables. -/
structure Added (more db db' : Tables) : Prop where
  entries : db'.entries = db.entries ++ more.entries
  exits : db'.exits = db.exits ++ more.exits
  orders : db'.orders = db.orders ++ more.orders
  counts : db'.counts = db.counts ++ more.counts
  evaluations : db'.evaluations = db.evaluations ++ more.evaluations
  outbox : db'.outbox.map message = db.outbox.map message ++ more.outbox.map message

section Steps

variable {Cl : Type} [DecidableEq Cl] {σ σ' : System Cl Tables Write Lock Unit ServiceError Unit}
  {Runs : Txn Unit → Prop} {l : ReadCommitted.Label Cl Write Unit Unit} {db db' more : Tables}

/-- What a step adds to the tables: a transaction that does not commit leaves no row. -/
def rowsOf : ReadCommitted.Label Cl Write Unit Unit → Tables
  | .commit _ _ own => inserted own
  | _ => inserted []

theorem Added.nothing (db : Tables) : Added (inserted []) db db := by
  constructor <;> exact (List.append_nil _).symm

theorem added_applyAll (db : Tables) (ws : List Write) : Added (inserted ws) db (schema.applyAll db ws) := by
  rw [applyAll_tables]
  exact ⟨rfl, rfl, rfl, rfl, rfl, List.map_append⟩

theorem World.added (h : World db db') : Added (inserted []) db db' where
  entries := h.entries.trans (List.append_nil _).symm
  exits := h.exits.trans (List.append_nil _).symm
  orders := h.orders.trans (List.append_nil _).symm
  counts := h.counts.trans (List.append_nil _).symm
  evaluations := h.evaluations.trans (List.append_nil _).symm
  outbox := h.outbox.trans (List.append_nil _).symm

theorem step_added (h : ReadCommitted.Step tables Runs σ l σ') : Added (rowsOf l) σ.db σ'.db := by
  cases h with
  | commit _ => exact added_applyAll _ _
  | world hworld => exact World.added hworld
  | _ => exact Added.nothing _

/-- The stock of more rows. -/
theorem Added.stock (h : Added more db db') (id : Int) (warehouse : String) :
    stock db' id warehouse = stock db id warehouse + stock more id warehouse := by
  simp only [Inventory.stock, entrySum, exitSum, h.entries, h.exits, List.filter_append, List.map_append,
    List.sum_append]
  omega

end Steps

/-! ## Stock -/

/-- **Stock follows the movements**: it is never negative, and each step of the interleavings changes it by
the movements that it commits. -/
theorem stock_follows_movements {Cl : Type} [DecidableEq Cl] {skus : List Sku}
    {σ : System Cl Tables Write Lock Unit ServiceError Unit} (hids : (skus.map Sku.id).Nodup)
    (h : Reachable tables Command (start skus) σ) :
    (∀ sku ∈ σ.db.skus, 0 ≤ stock σ.db sku.id sku.warehouse) ∧
      ∀ l σ', ReadCommitted.Step tables Command σ l σ' → Added (rowsOf l) σ.db σ'.db ∧
        ∀ id warehouse,
          stock σ'.db id warehouse = stock σ.db id warehouse + stock (rowsOf l) id warehouse := by
  have hI := inv_reached (Inv.start hids) h
  refine ⟨fun sku hmem => hI.stock_nonneg (hI.sku_of_mem hmem), fun l σ' hstep => ?_⟩
  exact ⟨step_added hstep, (step_added hstep).stock⟩

/-- The last of a few commands commits. -/
theorem last_commits {skus : List Sku} (commands : List (Txn Unit)) (h : ∀ p ∈ commands, Command p)
    (p : Txn Unit) (hp : Command p)
    (hok : (eval schema p (serially (start skus) commands)).toBool = true) :
    ∃ (σ σ' : System Unit Tables Write Lock Unit ServiceError Unit) (own : List Write),
      Reachable tables Command (start skus) σ ∧ σ.db = serially (start skus) commands ∧
      ReadCommitted.Step tables Command σ (.commit () () own) σ' ∧
      σ'.db = serially (start skus) (commands ++ [p]) := by
  obtain ⟨⟨⟨⟩, db'⟩, hrun⟩ := exists_ok hok
  obtain ⟨σ, own, hσ, hdb, hstep⟩ := eval_commits () hp (serially_reachable h .idle) hrun
  refine ⟨σ, _, own, hσ, hdb, hstep, ?_⟩
  rw [serially, List.foldl_append, List.foldl_cons, List.foldl_nil, ← serially, run_none,
    show tables.toSchema = schema from rfl, hrun]
  rfl

/-- Four of seven shirts leave. -/
theorem four_leave : ∃ (σ σ' : System Unit Tables Write Lock Unit ServiceError Unit) (own : List Write),
    Reachable tables Command (start shirts) σ ∧ σ.db = serially (start shirts) (shirtCommands.take 3) ∧
    ReadCommitted.Step tables Command σ (.commit () () own) σ' ∧
    σ'.db = serially (start shirts) (shirtCommands.take 4) :=
  last_commits (shirtCommands.take 3) (fun p hp => shirtCommands_command p (List.mem_of_mem_take hp)) _
    (.exit ⟨1, 4, .dispatch, some "T-3", .la⟩ "u" (stampOf 3 6) (by decide)) (by decide +kernel)

theorem stock_follows_movements_shirts :
    ∃ (σ σ' : System Unit Tables Write Lock Unit ServiceError Unit) (own : List Write),
      ReadCommitted.Step tables Command σ (.commit () () own) σ' ∧ stock σ.db 1 "LA" = 7 ∧
      stock (inserted own) 1 "LA" = -4 ∧ stock σ'.db 1 "LA" = 3 := by
  obtain ⟨σ, σ', own, hσ, hdb, hstep, hdb'⟩ := four_leave
  have hmoved := ((stock_follows_movements (by decide) hσ).2 _ _ hstep).2 1 "LA"
  have hbefore : stock σ.db 1 "LA" = 7 := by
    rw [hdb]
    decide +kernel
  have hafter : stock σ'.db 1 "LA" = 3 := by
    rw [hdb']
    decide +kernel
  refine ⟨σ, σ', own, hstep, hbefore, ?_, hafter⟩
  rw [hbefore, hafter] at hmoved
  simp only [rowsOf] at hmoved
  omega

/-! ## Checkpoints -/

section Checkpoints

variable {db : Tables}

/-- The movement has one checkpoint. -/
def OneCheckpoint (db : Tables) (sourceTable : String) (sourcePk : Int) : Prop :=
  ∃ e, (e ∈ db.evaluations ∧ e.sourceTable = sourceTable ∧ e.sourcePk = sourcePk) ∧
    ∀ e' ∈ db.evaluations, e'.sourceTable = sourceTable → e'.sourcePk = sourcePk → e' = e

theorem Unique.one_checkpoint (h : Unique db) {e : ThresholdEvaluation} (he : e ∈ db.evaluations) :
    OneCheckpoint db e.sourceTable e.sourcePk := by
  refine ⟨e, ⟨he, rfl, rfl⟩, fun e' he' htable hpk => ?_⟩
  exact List.inj_on_of_nodup_map h.evaluations he' he (Prod.ext htable hpk)

theorem Inv.entry_checkpoint (hI : Inv db) (hunique : Unique db) {row : StockEntry}
    (hrow : row ∈ db.entries) : OneCheckpoint db "stockentry" row.id := by
  obtain ⟨e, he, hentered⟩ := partner hI.kept.entries hrow
  obtain ⟨he, htable⟩ := List.mem_filter.1 he
  have hone := hunique.one_checkpoint he
  rwa [show e.sourceTable = "stockentry" from of_decide_eq_true htable, hentered.source] at hone

theorem Inv.exit_checkpoint (hI : Inv db) (hunique : Unique db) {row : StockExit} (hrow : row ∈ db.exits) :
    OneCheckpoint db "stockexit" row.id := by
  obtain ⟨e, he, hleft⟩ := partner hI.kept.exits hrow
  obtain ⟨he, htable⟩ := List.mem_filter.1 he
  have hone := hunique.one_checkpoint he
  rwa [show e.sourceTable = "stockexit" from of_decide_eq_true htable, hleft.source] at hone

/-- The lock of the SKU keeps the threshold of an evaluation in force. -/
theorem InForce.agree {w : Write} {db' : Tables} (ha : Agree (guard w) db db') (h : InForce db w) :
    InForce db' w := by
  cases w with
  | evaluation row =>
    obtain ⟨sku, hsku, hthreshold⟩ := h
    exact ⟨sku, ha.sku _ _ rfl hsku, hthreshold⟩
  | _ => trivial

theorem mem_inserted_evaluations {own : List Write} {e : ThresholdEvaluation}
    (h : e ∈ (inserted own).evaluations) : .evaluation e ∈ own := by
  obtain ⟨w, hw, hmem⟩ := List.mem_flatMap.1 h
  cases w <;> simp only [evaluationRows, List.mem_singleton, List.not_mem_nil] at hmem
  exact hmem ▸ hw

end Checkpoints

/-- **Checkpoints follow the movements**: each movement has one, those of a SKU lead from nothing to its
stock, they are crossed at the thresholds that their SKUs have when they are committed, and what does not
commit leaves none. -/
theorem checkpoints_follow_movements {Cl : Type} [DecidableEq Cl] {skus : List Sku}
    {σ : System Cl Tables Write Lock Unit ServiceError Unit} (hids : (skus.map Sku.id).Nodup)
    (h : Reachable tables Command (start skus) σ) :
    (∀ row ∈ σ.db.entries, OneCheckpoint σ.db "stockentry" row.id) ∧
      (∀ row ∈ σ.db.exits, OneCheckpoint σ.db "stockexit" row.id) ∧ LedgerOk σ.db ∧
      ∀ l σ', ReadCommitted.Step tables Command σ l σ' → Added (rowsOf l) σ.db σ'.db ∧
        ∀ e ∈ (rowsOf l).evaluations, ∃ sku, σ.db.sku e.skuId = some sku ∧
          e.thresholdQuantity = sku.minimumStockThreshold := by
  have hI := inv_reached (Inv.start hids) h
  have hunique : Unique σ.db := unique_reached (by simp [keyRows, insertsOf, start]) h
  refine ⟨fun row => hI.entry_checkpoint hunique, fun row => hI.exit_checkpoint hunique, hI.ledger,
    fun l σ' hstep => ⟨step_added hstep, fun e he => ?_⟩⟩
  have hforce := Rules.own_sound (R := rules) (fun _ hp db => command_safe hp db) (Inv.start hids)
    (fun _ _ _ => InForce.agree) h
  cases hstep with
  | commit hi => exact hforce _ _ hi _ (mem_inserted_evaluations he)
  | _ => cases he

/-- The four shirts cross the threshold three, which is in force. -/
theorem checkpoints_follow_movements_shirts :
    ∃ (σ σ' : System Unit Tables Write Lock Unit ServiceError Unit) (own : List Write),
      ReadCommitted.Step tables Command σ (.commit () () own) σ' ∧ LedgerOk σ.db ∧
      (evaluationsFor σ'.db 1).map (fun e => (e.beforeQuantity, e.afterQuantity, e.crossed)) =
        [(0, 10, false), (10, 6, false), (6, 2, true), (2, 7, false), (7, 3, true)] ∧
      ∀ e ∈ (inserted own).evaluations, ∃ sku, σ.db.sku e.skuId = some sku ∧
        e.thresholdQuantity = sku.minimumStockThreshold := by
  obtain ⟨σ, σ', own, hσ, -, hstep, hdb'⟩ := four_leave
  obtain ⟨-, -, hledger, hsteps⟩ := checkpoints_follow_movements (by decide) hσ
  refine ⟨σ, σ', own, hstep, hledger, ?_, (hsteps _ _ hstep).2⟩
  rw [hdb']
  decide +kernel

end TrackFlow.Inventory.Books
