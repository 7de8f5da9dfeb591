import TrackFlow.ReadCommitted.Writes
import TrackFlow.Inventory.Commands

/-!
# What the commands write

The parts of the commands that only read make no writes of any kind. The commands themselves insert orders
and counts with the ids of their requests, so that these are of version 4 when the requests' ids are, and the
exits of an order as dispatches (`Typed`).
-/

namespace TrackFlow.Inventory.Books

open TrackFlow.Python TrackFlow.ReadCommitted
open TrackFlow.Pipelines (OutboxRow)
open CommandLocks (Lock)

/-! ## Parts that read -/

section Reading

variable {P : Write → Prop}

theorem writes_acquireAll (ls : List Lock) : (acquireAll ls).Writes P := by
  induction ls with
  | nil => exact Prog.writes_pure _
  | cons l ls ih => exact (Prog.writes_acquire l).bind fun _ => ih

theorem writes_lockSkus (ids : List Int) : (lockSkus ids).Writes P := by
  have hrows : ∀ ids : List Int, (lockSkus.lockRows ids).Writes P := by
    intro ids
    induction ids with
    | nil => exact Prog.writes_pure _
    | cons id ids ih => exact (Prog.writes_acquire _).bind fun _ => ih
  exact (hrows _).bind fun _ => Prog.writes_query _

theorem writes_getCurrentStock (sku : Int) (warehouse : String) : (getCurrentStock sku warehouse).Writes P :=
  (Prog.writes_query _).bind fun _ => (Prog.writes_query _).bind fun _ => Prog.writes_pure _

theorem writes_checkRequired (warehouse : String) (required : List (Int × Int)) :
    (checkRequired warehouse required).Writes P := by
  induction required with
  | nil => exact Prog.writes_pure _
  | cons entry rest ih =>
    refine (writes_getCurrentStock _ _).bind fun available => ?_
    split
    · exact Prog.writes_fail _
    · exact ih

theorem writes_validateOrderSkus (dispatches : List Dispatch) (clientId warehouse : String) :
    (validateOrderSkus dispatches clientId warehouse).Writes P := by
  refine (writes_lockSkus _).bind fun skus => ?_
  simp only
  split
  · exact Prog.writes_fail _
  · split
    · exact Prog.writes_fail _
    · exact (writes_checkRequired _ _).bind fun _ => Prog.writes_pure _

theorem writes_runningStock (warehouse : String) (skus : List Sku) :
    (runningStock warehouse skus).Writes P := by
  induction skus with
  | nil => exact Prog.writes_pure _
  | cons sku skus ih =>
    exact (writes_getCurrentStock _ _).bind fun _ => ih.bind fun _ => Prog.writes_pure _

end Reading

/-! ## The rows of requests -/

/-- An order or a count is inserted with an id of version 4, and an exit of an order as a dispatch. -/
def Typed : Write → Prop
  | .order row => row.orderId.version = some 4
  | .count row => row.countId.version = some 4
  | .exit row => row.commercialOrderId.isSome = true → row.exitType = "dispatch"
  | _ => True

section Requests

variable {userUuid : String} {s : Stamp} {stamps : Stamps} {now : Int}

theorem writes_enqueue (row : OutboxRow) : (enqueueInventoryEvent row).Writes Typed := by
  unfold enqueueInventoryEvent
  split
  · exact Prog.writes_fail _
  · exact Prog.writes_put trivial

theorem writes_writeExit (sku : Sku) (before : Int) {row : StockExit} (hrow : Typed (.exit row)) :
    (writeExit sku s before row).Writes Typed := by
  have hevent : ∀ after, (thresholdEvent sku s before after).Writes Typed := by
    intro after
    unfold thresholdEvent
    split
    · exact Prog.writes_pure _
    · split
      · exact Prog.writes_pure _
      · split
        · exact (writes_enqueue _).bind fun _ => Prog.writes_pure _
        · exact Prog.writes_fail _
  refine (Prog.writes_put hrow).bind fun _ => (hevent _).bind fun event => ?_
  exact (Prog.writes_put trivial).bind fun _ => Prog.writes_pure _

theorem writes_addOrderDispatches (order : CommercialOrder) (skus : List Sku) (dispatches : List Dispatch) :
    (addOrderDispatches order skus userUuid now stamps dispatches).Writes Typed := by
  have hloop : ∀ (items : List Dispatch) (k : Nat) (running : List (Int × Int)),
      (addDispatches order skus userUuid now stamps k running items).Writes Typed := by
    intro items
    induction items with
    | nil => exact fun _ _ => Prog.writes_pure _
    | cons item rest ih =>
      intro k running
      rw [addDispatches]
      split
      · refine (writes_writeExit _ _ fun _ => rfl).bind fun event => ?_
        exact (ih _ _).bind fun r => Prog.writes_pure _
      · exact Prog.writes_fail _
  exact (writes_runningStock _ _).bind fun running => hloop _ _ _

theorem writes_createStockEntry (data : StockEntryCreate) :
    (createStockEntry data userUuid s).Writes Typed := by
  have hinbound : ∀ sku row, (enqueueInbound sku s row).Writes Typed := by
    intro sku row
    unfold enqueueInbound
    split
    · exact (writes_enqueue _).bind fun _ => Prog.writes_pure _
    · exact Prog.writes_pure _
  refine (writes_lockSkus _).bind fun skus => ?_
  split
  · exact Prog.writes_fail _
  · split
    · exact Prog.writes_fail _
    · refine (writes_getCurrentStock _ _).bind fun before => (Prog.writes_put trivial).bind fun _ => ?_
      exact (hinbound _ _).bind fun event => (Prog.writes_put trivial).bind fun _ => Prog.writes_pure _

theorem writes_createStockExit (data : StockExitCreate) :
    (createStockExit data userUuid s).Writes Typed := by
  refine (writes_lockSkus _).bind fun skus => ?_
  split
  · exact Prog.writes_fail _
  · split
    · exact Prog.writes_fail _
    · refine (writes_getCurrentStock _ _).bind fun available => ?_
      split
      · exact Prog.writes_fail _
      · exact (writes_writeExit _ _ fun h => by cases h).bind fun event => Prog.writes_pure _

theorem writes_updateSkuThreshold (skuId : Int) (value : Option Int) :
    (updateSkuThreshold skuId value).Writes Typed := by
  refine (writes_lockSkus _).bind fun skus => ?_
  split
  · exact Prog.writes_fail _
  · exact Prog.writes_put trivial

theorem writes_confirmInventoryPhysicalCount (data : PhysicalCountCreate)
    (hid : data.countId.version = some 4) :
    (confirmInventoryPhysicalCount data userUuid s).Writes Typed := by
  refine (writes_acquireAll _).bind fun _ => (Prog.writes_query _).bind fun found => ?_
  split
  · refine (Prog.writes_acquire _).bind fun _ => ?_
    split
    · exact Prog.writes_pure _
    · exact Prog.writes_fail _
  · refine (writes_lockSkus _).bind fun skus => ?_
    split
    · exact Prog.writes_fail _
    · split
      · exact Prog.writes_fail _
      · split
        · exact Prog.writes_fail _
        · refine (writes_getCurrentStock _ _).bind fun expected => ?_
          have hcount : ∀ clientId, Typed (.count (physicalCount data userUuid s clientId expected)) :=
            fun _ => hid
          refine (Prog.writes_put (hcount _)).bind fun _ => ?_
          split
          · exact Prog.writes_pure _
          · split
            · exact Prog.writes_fail _
            · exact (writes_enqueue _).bind fun _ => Prog.writes_pure _

theorem writes_createCommercialOrder (data : CommercialOrderCreate) (hid : data.orderId.version = some 4) :
    (createCommercialOrder data userUuid s stamps).Writes Typed := by
  unfold createCommercialOrder
  split
  · exact Prog.writes_fail _
  · refine (writes_acquireAll _).bind fun _ => (Prog.writes_query _).bind fun found => ?_
    split
    · refine (Prog.writes_acquire _).bind fun _ => (Prog.writes_query _).bind fun persisted => ?_
      split
      · exact Prog.writes_fail _
      · split
        · exact Prog.writes_pure _
        · exact Prog.writes_fail _
    · refine (Prog.writes_query _).bind fun taken => ?_
      split
      · exact Prog.writes_fail _
      · refine (writes_validateOrderSkus _ _ _).bind fun skus => ?_
        have horder : Typed (.order (commercialOrder data s)) := hid
        refine (Prog.writes_put horder).bind fun _ => ?_
        refine (writes_addOrderDispatches _ _ _).bind fun r => ?_
        exact (writes_enqueue _).bind fun _ => Prog.writes_pure _

theorem writes_appendCommercialOrderDispatches (data : DispatchAppend) :
    (appendCommercialOrderDispatches data userUuid now stamps).Writes Typed := by
  unfold appendCommercialOrderDispatches
  split
  · exact Prog.writes_fail _
  · refine (writes_acquireAll _).bind fun _ => (Prog.writes_query _).bind fun found => ?_
    split
    · exact Prog.writes_fail _
    · refine (Prog.writes_acquire _).bind fun _ => (Prog.writes_query _).bind fun existing => ?_
      split
      · exact Prog.writes_fail _
      · exact (Prog.writes_query _).bind fun dispatches => Prog.writes_pure _
      · refine (writes_validateOrderSkus _ _ _).bind fun skus => ?_
        exact (writes_addOrderDispatches _ _ _).bind fun r => Prog.writes_pure _

end Requests

end TrackFlow.Inventory.Books
