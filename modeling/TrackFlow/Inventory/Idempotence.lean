import TrackFlow.Inventory.CommittedReplies
import TrackFlow.Inventory.Retries

/-!
# Idempotence of the keyed commands

Requests whose transactions are interleaved with any others, and what the same request, or another one with
its ids, gets in a later state.

- `keyed_commands_idempotent`: what was accepted is answered again without a change, and other content under
  the same ids is refused without a change.
-/

namespace TrackFlow.Inventory.Books

open TrackFlow.Python TrackFlow.ReadCommitted
open TrackFlow.Pipelines (OutboxRow OutboxKey)
open CommandLocks (Lock)

/-! ## Requests -/

/-- What a request that was accepted was, and its answer. -/
inductive Reply
  | appended (data : DispatchAppend) (order : CommercialOrder)
  | counted (data : PhysicalCountCreate) (userUuid : String) (count : PhysicalCount)
  | other

/-- The commands, with their replies. -/
inductive Request : Txn Reply → Prop
  | append (data : DispatchAppend) (userUuid : String) (now : Int) (stamps : Stamps) :
      (∀ item ∈ data.dispatches, 0 < item.quantity) →
      Request (appendCommercialOrderDispatches data userUuid now stamps >>= fun r =>
        pure (.appended data r.1))
  | count (data : PhysicalCountCreate) (userUuid : String) (s : Stamp) :
      Request (confirmInventoryPhysicalCount data userUuid s >>= fun r => pure (.counted data userUuid r.1))
  | other {p : Txn Unit} : Command p → Request (p >>= fun _ => pure .other)

theorem request_safe {p : Txn Reply} (h : Request p) (db : Tables) : rules.Safe p ∅ [] db := by
  cases h with
  | append data userUuid now stamps hpos =>
    exact (command_safe (.append data userUuid now stamps hpos) db).answer
  | count data userUuid s => exact (command_safe (.count data userUuid s) db).answer
  | @other p hp =>
    have hsafe := command_safe hp db
    rw [← Prog.bind_done p] at hsafe
    exact hsafe.answer

/-- What the rows say of a request that was accepted. -/
def Holds : Reply → Tables → Prop
  | .appended data order, db => Appended data order db
  | .counted data userUuid count, db => Confirmed data userUuid count db
  | .other, _ => True

theorem Holds.grown {reply : Reply} {a b : Tables} (h : Holds reply a) (hg : Grown a b) : Holds reply b := by
  cases reply with
  | appended data order => exact Appended.grown h hg
  | counted data userUuid count => exact Confirmed.grown h hg
  | other => trivial

theorem request_holds {p : Txn Reply} (h : Request p) (db : Tables) :
    growth.wp p (fun reply _ own db => Holds reply (schema.applyAll db own)) ∅ [] db := by
  cases h with
  | append data userUuid now stamps hpos => exact append_written data _ fun _ _ _ _ _ h => h
  | count data userUuid s => exact count_written data _ fun _ _ _ _ _ h => h
  | other hp => exact wp_anyBind fun _ _ _ _ _ => fun _ _ _ => trivial

section Runs

variable {Cl : Type} [DecidableEq Cl] {skus : List Sku}
  {σ σ₀ σ₁ : System Cl Tables Write Lock Unit ServiceError Reply}

theorem requests_inv (hids : (skus.map Sku.id).Nodup) (h : Reachable tables Request (start skus) σ) :
    Inv σ.db :=
  (Rules.sound (R := rules) (fun _ hp db => request_safe hp db) (Inv.start hids) h).inv

theorem later_grown (h : Later tables Request σ₁ σ) : Grown σ₁.db σ.db := by
  induction h with
  | refl => exact Grown.refl _
  | tail _ hs ih =>
    obtain ⟨l, hs⟩ := hs
    exact ih.trans (step_grown hs)

/-- What was accepted is there in every later state. -/
theorem accepted_holds {i : Cl} {reply : Reply} {own : List Write}
    (h : Reachable tables Request (start skus) σ₀)
    (hs : ReadCommitted.Step tables Request σ₀ (.commit i reply own) σ₁)
    (hlater : Later tables Request σ₁ σ) : Holds reply σ.db := by
  obtain ⟨hholds, hdb⟩ := Rules.commit_sound (R := growth)
    (Q := fun reply _ own db => Holds reply (schema.applyAll db own)) (fun _ _ _ _ _ _ h => h)
    (fun _ _ _ _ _ => trivial) (fun _ hp db => request_holds hp db) trivial h hs
  rw [show schema.applyAll σ₀.db own = σ₁.db from hdb.symm] at hholds
  exact hholds.grown (later_grown hlater)

end Runs

/-! ## Second requests -/

section Again

variable {α : Type} {db : Tables} {order : CommercialOrder} {userUuid : String} {s : Stamp} {now : Int}
  {stamps : Stamps}

/-- The command raises, and the tables stay as they are. -/
def Refused (p : Txn α) (db : Tables) : Prop := ∃ e, run schema p none db = (.error (.raised e), db)

/-- The command returns the answer, and the tables stay as they are. -/
def Answered (p : Txn α) (a : α) (db : Tables) : Prop := run schema p none db = (.ok a, db)

theorem refused_of_eval {p : Txn α} {e : ServiceError} (h : eval schema p db = .error (.raised e)) :
    Refused p db := ⟨e, by rw [run_none, h]; rfl⟩

theorem answered_of_eval {p : Txn α} {a : α} (h : eval schema p db = .ok (a, db)) : Answered p a db := by
  rw [Answered, run_none, h]
  rfl

/-- Requests that name a dispatch twice. -/
theorem create_repeated {data : CommercialOrderCreate} (h : repeated data.dispatches = true) :
    Refused (createCommercialOrder data userUuid s stamps) db := by
  refine refused_of_eval (e := conflict "dispatch_id values must be unique within a command") ?_
  unfold createCommercialOrder
  rw [if_pos h]
  rfl

theorem append_repeated {data : DispatchAppend} (h : repeated data.dispatches = true) :
    Refused (appendCommercialOrderDispatches data userUuid now stamps) db := by
  refine refused_of_eval (e := conflict "dispatch_id values must be unique within a command") ?_
  unfold appendCommercialOrderDispatches
  rw [if_pos h]
  rfl

/-- A dispatch of a request that is recorded for something else. -/
def TakenElsewhere (db : Tables) (orderId : Uuid) (item : Dispatch) : Prop :=
  ∃ e ∈ db.exits, e.dispatchId = some item.dispatchId ∧
    ∀ order ∈ db.orders, order.orderId = orderId → ¬Recorded order.id item e

theorem Inv.create_same (hI : Inv db) {data : CommercialOrderCreate} (ho : order ∈ db.orders)
    (hid : order.orderId = data.orderId) (hclient : order.clientId = data.clientId)
    (hwarehouse : order.warehouse = data.warehouse.value) (hrepeated : repeated data.dispatches = false)
    (hlists : Lists db order.id data.dispatches) :
    Answered (createCommercialOrder data userUuid s stamps) (order, orderDispatches db order.id) db := by
  refine answered_of_eval ?_
  rw [order_again hI ho hid hrepeated, if_neg (by simp [hclient, hwarehouse]),
    if_pos (hI.sameDispatches_iff.2 hlists)]

theorem Inv.create_other (hI : Inv db) {data : CommercialOrderCreate} (ho : order ∈ db.orders)
    (hid : order.orderId = data.orderId) (hother : order.clientId ≠ data.clientId ∨
      order.warehouse ≠ data.warehouse.value ∨ ¬Lists db order.id data.dispatches) :
    Refused (createCommercialOrder data userUuid s stamps) db := by
  cases hrepeated : repeated data.dispatches with
  | true => exact create_repeated hrepeated
  | false =>
    have hagain : eval schema (createCommercialOrder data userUuid s stamps) db = _ :=
      order_again hI ho hid hrepeated
    by_cases hcontent : order.clientId ≠ data.clientId ∨ order.warehouse ≠ data.warehouse.value
    · rw [if_pos hcontent] at hagain
      exact refused_of_eval hagain
    · have hlists : ¬Lists db order.id data.dispatches :=
        (or_assoc.2 hother).resolve_left hcontent
      rw [if_neg hcontent, if_neg fun hsame => hlists (hI.sameDispatches_iff.1 hsame)] at hagain
      exact refused_of_eval hagain

theorem Inv.create_taken (hI : Inv db) {data : CommercialOrderCreate} {item : Dispatch}
    (hitem : item ∈ data.dispatches) (htaken : TakenElsewhere db data.orderId item) :
    Refused (createCommercialOrder data userUuid s stamps) db := by
  obtain ⟨e, he, hu, hother⟩ := htaken
  cases hfind : db.orders.find? (fun o => o.orderId = data.orderId) with
  | some order =>
    have ho := List.mem_of_find?_eq_some hfind
    have hid : order.orderId = data.orderId := by simpa using List.find?_some hfind
    refine hI.create_other ho hid (Or.inr (Or.inr fun hlists => ?_))
    obtain ⟨e', he', hrecorded⟩ := hlists.2 item hitem
    obtain rfl := unique_key hI.dispatches he he' hu hrecorded.1
    exact hother order ho hid hrecorded
  | none =>
    cases hrepeated : repeated data.dispatches with
    | true => exact create_repeated hrepeated
    | false =>
      refine refused_of_eval (e := conflict "dispatch_id already exists") ?_
      unfold createCommercialOrder
      rw [if_neg (by simp [hrepeated]), eval_lockIdempotencyKeys, Prog.query_bind, eval_read, hfind]
      simp only [Prog.query_bind, eval_read]
      rw [if_pos]
      · rfl
      · refine List.ne_nil_of_mem (List.mem_filter.2 ⟨he, List.any_eq_true.2 ⟨item, hitem, ?_⟩⟩)
        simpa using hu

theorem Inv.append_taken (hI : Inv db) {data : DispatchAppend} {item : Dispatch}
    (hitem : item ∈ data.dispatches) (htaken : TakenElsewhere db data.orderId item) :
    Refused (appendCommercialOrderDispatches data userUuid now stamps) db := by
  obtain ⟨e, he, hu, hother⟩ := htaken
  cases hrepeated : repeated data.dispatches with
  | true => exact append_repeated hrepeated
  | false =>
    cases hfind : db.orders.find? (fun o => o.orderId = data.orderId) with
    | some order =>
      have ho := List.mem_of_find?_eq_some hfind
      have hid : order.orderId = data.orderId := by simpa using List.find?_some hfind
      refine refused_of_eval ((append_again hI ho hid hrepeated).2 _
        (newItems_other hitem (hI.find_existing hitem he hu) ?_))
      by_contra hmatch
      rw [Bool.not_eq_false] at hmatch
      exact hother order ho hid ⟨hu, hmatch⟩
    | none =>
      refine refused_of_eval (e := .http 404 "Commercial order not found." none) ?_
      unfold appendCommercialOrderDispatches
      rw [if_neg (by simp [hrepeated]), eval_lockIdempotencyKeys, Prog.query_bind, eval_read, hfind]
      rfl

theorem Inv.count_other (hI : Inv db) {data : PhysicalCountCreate} {count : PhysicalCount}
    (hc : count ∈ db.counts) (hid : count.countId = data.countId)
    (hother : countMatches count data userUuid = false) :
    Refused (confirmInventoryPhysicalCount data userUuid s) db := by
  have hagain : eval schema (confirmInventoryPhysicalCount data userUuid s) db = _ :=
    count_again hI hc hid
  rw [if_neg (by simp [hother])] at hagain
  exact refused_of_eval hagain

/-- The outbox has one row of a key. -/
def OneRow (db : Tables) (key : OutboxKey) : Prop :=
  ∃ row ∈ db.outbox, row.key = key ∧ ∀ row' ∈ db.outbox, row'.key = key → row' = row

theorem Inv.one_announcement (hI : Inv db) (hunique : Unique db) (ho : order ∈ db.orders) :
    OneRow db ("commercial_order", order.id, "outbound_order_created") := by
  obtain ⟨m, hm, houtbound⟩ := partner hI.outbox.outbound ho
  obtain ⟨hm, htype⟩ := List.mem_filter.1 hm
  obtain ⟨row, hrow, rfl⟩ := List.mem_map.1 hm
  have hkey : row.key = ("commercial_order", order.id, "outbound_order_created") :=
    Prod.ext houtbound.source.1 (Prod.ext houtbound.source.2 (of_decide_eq_true htype))
  refine ⟨row, hrow, hkey, fun row' hrow' hkey' => ?_⟩
  exact List.inj_on_of_nodup_map hunique.messages hrow' hrow (hkey'.trans hkey.symm)

end Again

/-! ## Every later state -/

/-- What the keyed commands get in a state. -/
structure KeyedOk (db : Tables) : Prop where
  /-- A request to create an order whose dispatches are those that the order has by now. -/
  create : ∀ data order, order ∈ db.orders → order.orderId = data.orderId → order.clientId = data.clientId →
    order.warehouse = data.warehouse.value → repeated data.dispatches = false →
    Lists db order.id data.dispatches → ∀ userUuid s stamps,
      Answered (createCommercialOrder data userUuid s stamps) (order, orderDispatches db order.id) db
  /-- One with another client, another warehouse or other dispatches. -/
  create_other : ∀ data, ∀ order ∈ db.orders, order.orderId = data.orderId →
    (order.clientId ≠ data.clientId ∨ order.warehouse ≠ data.warehouse.value ∨
      ¬Lists db order.id data.dispatches) →
    ∀ userUuid s stamps, Refused (createCommercialOrder data userUuid s stamps) db
  /-- Requests that name a dispatch with other content, or one of another order. -/
  create_taken : ∀ data, ∀ item ∈ data.dispatches, TakenElsewhere db data.orderId item →
    ∀ userUuid s stamps, Refused (createCommercialOrder data userUuid s stamps) db
  append_taken : ∀ data, ∀ item ∈ data.dispatches, TakenElsewhere db data.orderId item →
    ∀ userUuid now stamps, Refused (appendCommercialOrderDispatches data userUuid now stamps) db
  /-- A count with other content, or of another user. -/
  count_other : ∀ data userUuid, ∀ count ∈ db.counts, count.countId = data.countId →
    countMatches count data userUuid = false →
    ∀ s, Refused (confirmInventoryPhysicalCount data userUuid s) db
  /-- No key of an order, a dispatch or a count has two rows. -/
  orders : (db.orders.map CommercialOrder.orderId).Nodup
  dispatches : (db.exits.filterMap StockExit.dispatchId).Nodup
  counts : (db.counts.map PhysicalCount.countId).Nodup
  /-- An order has one event, and the counts that found another stock have one each, and no others. -/
  announced : ∀ order ∈ db.orders, OneRow db ("commercial_order", order.id, "outbound_order_created")
  discrepancies : List.Forall₂ (Discrepancy (known db))
    (db.counts.filter fun c => c.observedQuantity ≠ c.expectedQuantity)
    (messages "inventory_discrepancy_detected" db)
  events : (db.outbox.map OutboxRow.key).Nodup

/-- The request that was accepted, sent again. -/
def SentAgain : Reply → Tables → Prop
  | .appended data order, db => ∀ userUuid now stamps,
    Answered (appendCommercialOrderDispatches data userUuid now stamps)
      (order, orderDispatches db order.id) db
  | .counted data userUuid count, db => ∀ s,
    Answered (confirmInventoryPhysicalCount data userUuid s) (count, none) db
  | .other, _ => True

theorem Holds.again {reply : Reply} {db : Tables} (h : Holds reply db) (hI : Inv db) :
    SentAgain reply db := by
  cases reply with
  | appended data order =>
    obtain ⟨ho, hid, hrepeated, hrecorded⟩ := h
    intro userUuid now stamps
    refine answered_of_eval ((append_again hI ho hid hrepeated).1 (newItems_recorded fun item hitem => ?_))
    obtain ⟨e, he, hrec⟩ := hrecorded item hitem
    exact ⟨e, hI.find_existing hitem he hrec.1, hrec.2⟩
  | counted data userUuid count =>
    obtain ⟨hc, hid, hmatch⟩ := h
    intro s
    refine answered_of_eval ?_
    rw [count_again hI hc hid, if_pos hmatch]
  | other => trivial

theorem Inv.keyed {db : Tables} (hI : Inv db) (hunique : Unique db) : KeyedOk db where
  create _ _ ho hid hclient hwarehouse hrepeated hlists _ _ _ :=
    hI.create_same ho hid hclient hwarehouse hrepeated hlists
  create_other _ _ ho hid hother _ _ _ := hI.create_other ho hid hother
  create_taken _ _ hitem htaken _ _ _ := hI.create_taken hitem htaken
  append_taken _ _ hitem htaken _ _ _ := hI.append_taken hitem htaken
  count_other _ _ _ hc hid hother _ := hI.count_other hc hid hother
  orders := hI.outbox.orderIds
  dispatches := hI.dispatches
  counts := hI.outbox.countIds
  announced _ ho := hI.one_announcement hunique ho
  discrepancies := hI.kept.discrepancies
  events := hunique.messages

/-- **The keyed commands are idempotent**: in every state that interleaved requests reach, an append or a
count that was accepted earlier is answered again and changes nothing, a request to create an order is
answered when it lists what the order has, and other content under the keys of an order, a dispatch or a
count is refused and changes nothing. -/
theorem keyed_commands_idempotent {Cl : Type} [DecidableEq Cl] {skus : List Sku}
    {σ : System Cl Tables Write Lock Unit ServiceError Reply} (hids : (skus.map Sku.id).Nodup)
    (h : Reachable tables Request (start skus) σ) :
    (∀ σ₀ σ₁ i reply own, Reachable tables Request (start skus) σ₀ →
      ReadCommitted.Step tables Request σ₀ (.commit i reply own) σ₁ → Later tables Request σ₁ σ →
      SentAgain reply σ.db) ∧ KeyedOk σ.db := by
  have hI := requests_inv hids h
  refine ⟨fun σ₀ σ₁ i reply own hσ₀ hstep hlater => (accepted_holds hσ₀ hstep hlater).again hI, ?_⟩
  exact hI.keyed (unique_reached (by simp [keyRows, insertsOf, start]) h)

/-- Commands that run one after another. -/
theorem others_reachable {commands : List (Txn Unit)} (h : ∀ p ∈ commands, Command p) {db₀ db : Tables}
    (hr : Reachable tables Request db₀
      (System.idle db : System Unit Tables Write Lock Unit ServiceError Reply)) :
    Reachable tables Request db₀
      (System.idle (serially db commands) : System Unit Tables Write Lock Unit ServiceError Reply) := by
  induction commands generalizing db with
  | nil => exact hr
  | cons p commands ih =>
    refine ih (fun q hq => h q (List.mem_cons_of_mem p hq)) ?_
    show Reachable tables Request db₀ (System.idle (run tables.toSchema p none db).2)
    have hsame : (run tables.toSchema (p >>= fun _ => pure Reply.other) none db).2 =
        (run tables.toSchema p none db).2 := by
      rw [run_none, run_none, eval_bind]
      cases eval tables.toSchema p db <;> rfl
    rw [← hsame]
    exact run_reachable () (.other (h p List.mem_cons_self)) hr (Prod.eta _).symm

/-- The append is answered again after the entry, and no other order can have its dispatch. -/
theorem keyed_commands_idempotent_shirts : (serially twoMoreShirts.2 fiveMoreShirts).entries.length = 2 ∧
    (∃ order, SentAgain (.appended secondDispatch order) (serially twoMoreShirts.2 fiveMoreShirts)) ∧
    Refused (createCommercialOrder ⟨sameDigits 14, "urban-thread", .la, secondDispatch.dispatches⟩ "u"
      (stampOf 9 9) shirtStamps) (serially twoMoreShirts.2 fiveMoreShirts) := by
  obtain ⟨⟨order, created⟩, hok⟩ : ∃ r, twoMoreShirts.1 = .ok r := exists_ok (by decide +kernel)
  have hrun := run_ok (Prod.ext hok rfl : twoMoreShirts = (.ok (order, created), twoMoreShirts.2))
  have hfirst : Reachable tables Request (start shirts) (System.idle (serially (start shirts) firstCommands) :
      System Unit Tables Write Lock Unit ServiceError Reply) := others_reachable firstCommands_command .idle
  have hreply : eval tables.toSchema (appendCommercialOrderDispatches secondDispatch "u" 5 secondStamps >>=
      fun r => pure (Reply.appended secondDispatch r.1)) (serially (start shirts) firstCommands) =
      .ok (.appended secondDispatch order, twoMoreShirts.2) := eval_bind_of_ok hrun
  obtain ⟨σ₀, own, hσ₀, -, hstep⟩ :=
    eval_commits () (.append secondDispatch "u" 5 secondStamps (by simp [secondDispatch])) hfirst hreply
  have hlater := Reachable.from_idle (others_reachable fiveMoreShirts_command
    (.idle : Reachable tables Request twoMoreShirts.2 (System.idle twoMoreShirts.2)))
  obtain ⟨hagain, hkeyed⟩ := keyed_commands_idempotent (by decide) ((hσ₀.step hstep).later hlater)
  refine ⟨by decide +kernel, ⟨order, hagain _ _ _ _ _ hσ₀ hstep hlater⟩, ?_⟩
  refine hkeyed.create_taken _ _ (List.mem_singleton_self _) ?_ _ _ _
  have hexit : ∃ e ∈ (serially twoMoreShirts.2 fiveMoreShirts).exits,
      e.dispatchId = some (sameDigits 12) := by
    decide +kernel
  have horders : ∀ o ∈ (serially twoMoreShirts.2 fiveMoreShirts).orders, o.orderId ≠ sameDigits 14 := by
    decide +kernel
  obtain ⟨e, he, hu⟩ := hexit
  exact ⟨e, he, hu, fun o ho hid => absurd hid (horders o ho)⟩

end TrackFlow.Inventory.Books
