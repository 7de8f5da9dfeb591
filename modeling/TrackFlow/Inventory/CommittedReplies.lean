import TrackFlow.Inventory.AcceptedRequests
import TrackFlow.Inventory.UniqueKeys

/-!
# Accepted requests among others

What an append of dispatches or a count has left when it commits, whatever the transactions of others did
in between, and that it is still there in every later state (`accepted_holds`). Rows are only added, and the
rules `growth` go by no more than that.
-/

namespace TrackFlow.Inventory.Books

open TrackFlow.Python TrackFlow.ReadCommitted
open TrackFlow.Pipelines (OutboxRow)
open CommandLocks (Lock)

/-! ## Rules -/

section Growth

variable {α β : Type} {L : Set Lock} {own : List Write} {db : Tables}
  {Q : β → Set Lock → List Write → Tables → Prop}

/-- What a transaction sees grows. -/
theorem Grown.applyAll {a b : Tables} (h : Grown a b) (own more : List Write) :
    Grown (schema.applyAll a own) (schema.applyAll b (own ++ more)) := by
  rw [Schema.applyAll_append, applyAll_tables a, applyAll_tables b]
  refine Grown.trans ?_ (grown_applyAll _ more)
  constructor
  · exact fun o ho => List.mem_append.2 ((List.mem_append.1 ho).imp_left (h.orders o))
  · exact fun e he => List.mem_append.2 ((List.mem_append.1 he).imp_left (h.exits e))
  · exact fun c hc => List.mem_append.2 ((List.mem_append.1 hc).imp_left (h.counts c))

theorem Grown.seen {a b : Tables} (h : Grown a b) (own : List Write) :
    Grown (schema.applyAll a own) (schema.applyAll b own) := by
  simpa using h.applyAll own []

/-- Rows are only added, whoever adds them. -/
def growth : Rules tables Lock Unit where
  Inv _ := True
  made _ _ := True
  told _ _ := True
  agree _ := Grown
  guard _ := ∅
  refl _ := Grown.refl
  trans := Grown.trans
  mono _ h := h
  frame _ := grown_applyAll _ [_]
  world_agree := World.grown
  world_inv _ _ := trivial

/-- Any program: what was seen is there when it ends. -/
theorem wp_any {p : Txn α} {Q : α → Set Lock → List Write → Tables → Prop}
    (h : ∀ a M own' db', Grown (schema.applyAll db own) (schema.applyAll db' own') → Q a M own' db') :
    growth.wp p Q L own db := by
  induction p generalizing L own db with
  | done a => exact fun db' ha _ => h a L own db' (Grown.seen ha own)
  | raise e => trivial
  | lock k p ih =>
    intro db' ha _
    exact ih fun a M own' db'' hg => h a M own' db'' ((Grown.seen ha own).trans hg)
  | read p ih =>
    intro db' ha _
    exact ih _ fun a M own' db'' hg => h a M own' db'' ((Grown.seen ha own).trans hg)
  | write w p ih =>
    intro db' ha _ _
    refine ⟨Set.empty_subset _, trivial, ih fun a M own' db'' hg => h a M own' db'' ?_⟩
    exact (Grown.applyAll ha own [w]).trans hg
  | note o p ih =>
    intro db' ha _
    exact ⟨trivial, ih fun a M own' db'' hg => h a M own' db'' ((Grown.seen ha own).trans hg)⟩

theorem wp_anyBind {p : Txn α} {f : α → Txn β} (h : ∀ a M own' db',
      Grown (schema.applyAll db own) (schema.applyAll db' own') → growth.wp (f a) Q M own' db') :
    growth.wp (p >>= f) Q L own db := Rules.wp_bind (wp_any h)

/-- A SELECT, of what the transaction sees. -/
theorem wp_select {g : Tables → α} {f : α → Txn β}
    (h : ∀ db', Grown (schema.applyAll db own) (schema.applyAll db' own) →
      growth.wp (f (g (schema.applyAll db' own))) Q L own db') :
    growth.wp (Prog.query g >>= f) Q L own db :=
  fun db' ha _ => h db' (Grown.seen ha own)

/-- An INSERT. -/
theorem wp_insert {w : Write} {f : Unit → Txn β}
    (h : ∀ db', Grown (schema.applyAll db own) (schema.applyAll db' own) →
      growth.wp (f ()) Q L (own ++ [w]) db') :
    growth.wp (Prog.put w >>= f) Q L own db :=
  fun db' ha _ _ => ⟨Set.empty_subset _, trivial, h db' (Grown.seen ha own)⟩

end Growth

/-! ## Commands -/

section Commands

variable {β : Type} {L : Set Lock} {own : List Write} {db : Tables}
  {Q : β → Set Lock → List Write → Tables → Prop} {order : CommercialOrder} {skus : List Sku}
  {userUuid : String} {now : Int} {stamps : Stamps}

/-- The exit of a dispatch. -/
theorem wp_exitWritten {sku : Sku} {s : Stamp} {before : Int} {row : StockExit}
    {f : Option OutboxRow → Txn β} (h : ∀ event M own' db',
      Grown (schema.applyAll db own) (schema.applyAll db' own') → row ∈ (schema.applyAll db' own').exits →
      growth.wp (f event) Q M own' db') :
    growth.wp (writeExit sku s before row >>= f) Q L own db := by
  unfold writeExit
  rw [Prog.bind_assoc]
  refine wp_insert fun db₁ h₁ => ?_
  have hrow : row ∈ (schema.applyAll db₁ (own ++ [.exit row])).exits := by
    rw [Schema.applyAll_append]
    exact List.mem_append_right _ (List.mem_singleton_self row)
  rw [Prog.bind_assoc]
  refine wp_anyBind fun event M own₂ db₂ h₂ => ?_
  rw [Prog.bind_assoc]
  refine wp_anyBind fun _ M₃ own₃ db₃ h₃ => ?_
  refine h event M₃ own₃ db₃ (h₁.trans (Grown.trans ?_ (h₂.trans h₃))) (h₃.exits _ (h₂.exits _ hrow))
  rw [Schema.applyAll_append]
  exact grown_applyAll _ _

/-- The loop over the dispatches leaves a row of each. -/
theorem wp_dispatchesWritten {items : List Dispatch} {k : Nat} {running : List (Int × Int)}
    {f : List StockExit × List OutboxRow → Txn β} (h : ∀ r M own' db',
      Grown (schema.applyAll db own) (schema.applyAll db' own') →
      (∀ item ∈ items, ∃ e ∈ (schema.applyAll db' own').exits, Recorded order.id item e) →
      growth.wp (f r) Q M own' db') :
    growth.wp (addDispatches order skus userUuid now stamps k running items >>= f) Q L own db := by
  induction items generalizing k running f L own db with
  | nil => exact h _ L own db (Grown.refl _) fun item hitem => by cases hitem
  | cons item rest ih =>
    rw [addDispatches]
    split
    · rw [Prog.bind_assoc]
      refine wp_exitWritten fun event M own₁ db₁ h₁ hrow => ?_
      rw [Prog.bind_assoc]
      refine ih fun r M₂ own₂ db₂ h₂ hrest => ?_
      refine h _ M₂ own₂ db₂ (h₁.trans h₂) fun item' hitem' => ?_
      rcases List.mem_cons.1 hitem' with rfl | hitem'
      · exact ⟨_, h₂.exits _ hrow, recorded_dispatchExit ..⟩
      · exact hrest item' hitem'
    · exact Rules.wp_fail _

theorem wp_orderDispatchesWritten {items : List Dispatch} {f : List StockExit × List OutboxRow → Txn β}
    (h : ∀ r M own' db', Grown (schema.applyAll db own) (schema.applyAll db' own') →
      (∀ item ∈ items, ∃ e ∈ (schema.applyAll db' own').exits, Recorded order.id item e) →
      growth.wp (f r) Q M own' db') :
    growth.wp (addOrderDispatches order skus userUuid now stamps items >>= f) Q L own db := by
  unfold addOrderDispatches
  rw [Prog.bind_assoc]
  refine wp_anyBind fun running M own₁ db₁ h₁ => ?_
  refine wp_dispatchesWritten fun r M₂ own₂ db₂ h₂ hitems => ?_
  exact h r M₂ own₂ db₂ (h₁.trans h₂) fun item hitem => hitems item (mem_sortedBy.2 hitem)

/-- What the rows say of an append that was accepted. -/
def Appended (data : DispatchAppend) (order : CommercialOrder) (db : Tables) : Prop :=
  order ∈ db.orders ∧ order.orderId = data.orderId ∧ repeated data.dispatches = false ∧
    ∀ item ∈ data.dispatches, ∃ e ∈ db.exits, Recorded order.id item e

/-- What they say of a count. -/
def Confirmed (data : PhysicalCountCreate) (userUuid : String) (count : PhysicalCount) (db : Tables) : Prop :=
  count ∈ db.counts ∧ count.countId = data.countId ∧ countMatches count data userUuid = true

theorem Appended.grown {data : DispatchAppend} {a b : Tables} (h : Appended data order a) (hg : Grown a b) :
    Appended data order b := by
  obtain ⟨ho, hid, hrepeated, hitems⟩ := h
  refine ⟨hg.orders _ ho, hid, hrepeated, fun item hitem => ?_⟩
  obtain ⟨e, he, hrecorded⟩ := hitems item hitem
  exact ⟨e, hg.exits e he, hrecorded⟩

theorem Confirmed.grown {data : PhysicalCountCreate} {count : PhysicalCount} {a b : Tables}
    (h : Confirmed data userUuid count a) (hg : Grown a b) : Confirmed data userUuid count b :=
  ⟨hg.counts _ h.1, h.2⟩

/-- An append, whatever others do in between. -/
theorem append_written (data : DispatchAppend) (f : CommercialOrder × List StockExit → β)
    (hQ : ∀ order created M own' db', Appended data order (schema.applyAll db' own') →
      Q (f (order, created)) M own' db') :
    growth.wp (appendCommercialOrderDispatches data userUuid now stamps >>= fun r => pure (f r))
      Q L own db := by
  have hdone : ∀ (r : CommercialOrder × List StockExit) (M : Set Lock) (own' : List Write) (db' : Tables),
      Appended data r.1 (schema.applyAll db' own') → growth.wp (pure (f r) : Txn β) Q M own' db' :=
    fun r M own' db' h db'' ha _ => hQ r.1 r.2 M own' db'' (h.grown (Grown.seen ha own'))
  unfold appendCommercialOrderDispatches
  split
  · exact Rules.wp_fail _
  · rename_i hrepeated
    rw [Prog.bind_assoc]
    refine wp_anyBind fun _ M₁ own₁ db₁ _ => ?_
    rw [Prog.bind_assoc]
    refine wp_select fun db₂ _ => ?_
    split
    · exact Rules.wp_fail _
    · rename_i order hfind
      have horder := List.mem_of_find?_eq_some hfind
      have hid : order.orderId = data.orderId := by simpa using List.find?_some hfind
      rw [Prog.bind_assoc]
      refine wp_anyBind fun _ M₃ own₃ db₃ h₃ => ?_
      rw [Prog.bind_assoc]
      refine wp_select fun db₄ h₄ => ?_
      have hfound := (h₃.trans h₄).orders _ horder
      -- a dispatch is new, or its row is there already
      have hthere : ∀ {items}, newItems ((schema.applyAll db₄ own₃).exits.filter fun e =>
            data.dispatches.any fun item => e.dispatchId = some item.dispatchId) order.id data.dispatches =
              .ok items → ∀ item ∈ data.dispatches, item ∈ items ∨
                ∃ e ∈ (schema.applyAll db₄ own₃).exits, Recorded order.id item e := by
        intro items hitems item hitem
        refine (newItems_ok hitems item hitem).imp_right fun hrecorded => ?_
        obtain ⟨e, he, hrecorded⟩ := hrecorded
        exact ⟨e, (List.mem_filter.1 he).1, hrecorded⟩
      split
      · exact Rules.wp_fail _
      · rename_i hitems
        rw [Prog.bind_assoc]
        refine wp_select fun db₅ h₅ => hdone _ _ _ _
          (Appended.grown ⟨hfound, hid, ?_, fun item hitem => ?_⟩ h₅)
        · simpa using hrepeated
        · exact (hthere hitems item hitem).resolve_left List.not_mem_nil
      · rename_i items _ hitems
        unfold appendDispatches
        rw [Prog.bind_assoc]
        refine wp_anyBind fun skus M₅ own₅ db₅ h₅ => ?_
        rw [Prog.bind_assoc]
        refine wp_orderDispatchesWritten fun r M₆ own₆ db₆ h₆ hnew => ?_
        have hgrown := h₅.trans h₆
        refine hdone _ _ _ _ ⟨hgrown.orders _ hfound, hid, by simpa using hrepeated, fun item hitem => ?_⟩
        rcases hthere hitems item hitem with hitem' | ⟨e, he, hrecorded⟩
        · exact hnew item hitem'
        · exact ⟨e, hgrown.exits e he, hrecorded⟩

/-- A count, whatever others do in between. -/
theorem count_written {s : Stamp} (data : PhysicalCountCreate) (f : PhysicalCount × Option OutboxRow → β)
    (hQ : ∀ count event M own' db', Confirmed data userUuid count (schema.applyAll db' own') →
      Q (f (count, event)) M own' db') :
    growth.wp (confirmInventoryPhysicalCount data userUuid s >>= fun r => pure (f r)) Q L own db := by
  have hdone : ∀ (r : PhysicalCount × Option OutboxRow) (M : Set Lock) (own' : List Write) (db' : Tables),
      Confirmed data userUuid r.1 (schema.applyAll db' own') → growth.wp (pure (f r) : Txn β) Q M own' db' :=
    fun r M own' db' h db'' ha _ => hQ r.1 r.2 M own' db'' (h.grown (Grown.seen ha own'))
  unfold confirmInventoryPhysicalCount
  rw [Prog.bind_assoc]
  refine wp_anyBind fun _ M₁ own₁ db₁ _ => ?_
  rw [Prog.bind_assoc]
  refine wp_select fun db₂ _ => ?_
  split
  · rename_i existing hfind
    rw [Prog.bind_assoc]
    refine wp_anyBind fun _ M₃ own₃ db₃ h₃ => ?_
    split
    · rename_i hmatch
      refine hdone _ _ _ _ ⟨h₃.counts _ (List.mem_of_find?_eq_some hfind), ?_, hmatch⟩
      simpa using List.find?_some hfind
    · exact Rules.wp_fail _
  · unfold recordCount
    rw [Prog.bind_assoc]
    refine wp_anyBind fun skus M₃ own₃ db₃ _ => ?_
    split
    · exact Rules.wp_fail _
    · split
      · exact Rules.wp_fail _
      · split
        · exact Rules.wp_fail _
        · rename_i clientId _
          rw [Prog.bind_assoc]
          refine wp_anyBind fun expected M₄ own₄ db₄ _ => ?_
          rw [Prog.bind_assoc]
          refine wp_insert fun db₅ _ => ?_
          have hwritten : Confirmed data userUuid (physicalCount data userUuid s clientId expected)
              (schema.applyAll db₅ (own₄ ++ [.count (physicalCount data userUuid s clientId expected)])) := by
            rw [Schema.applyAll_append]
            refine ⟨List.mem_append_right _ (List.mem_singleton_self _), rfl, ?_⟩
            simp [countMatches, physicalCount]
          split
          · exact hdone _ _ _ _ hwritten
          · split
            · exact Rules.wp_fail _
            · rw [Prog.bind_assoc]
              refine wp_anyBind fun _ M₆ own₆ db₆ h₆ => ?_
              exact hdone _ _ _ _ (hwritten.grown h₆)

end Commands

end TrackFlow.Inventory.Books
