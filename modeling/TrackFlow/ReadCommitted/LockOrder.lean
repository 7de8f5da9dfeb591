import Mathlib

/-!
# Locks taken in an order

Transactions take the locks of a list one after another and hold them to their end. If every list
follows a rank of the locks (`Ordered`), then nobody waits in a circle (`acyclic`), and of finitely
many transactions one can go on (`exists_ready`).
-/

namespace TrackFlow.ReadCommitted.LockOrder

variable {Cl K R : Type} [LinearOrder R]

/-- A transaction: the locks it holds, the last one first, and those it is still to take. -/
structure Taking (K : Type) where
  held : List K
  left : List K

/-- The open transactions. -/
abbrev Transactions (Cl K : Type) := Cl → Option (Taking K)

section Steps

variable [DecidableEq Cl]

/-- A step: a transaction begins with one of the lists, takes a lock that nobody else holds, or
ends, which it may do at any point. -/
inductive Step (Lists : List K → Prop) : Transactions Cl K → Transactions Cl K → Prop
  | start {s : Transactions Cl K} {i : Cl} {locks : List K} : s i = none → Lists locks →
      Step Lists s (Function.update s i (some ⟨[], locks⟩))
  | take {s : Transactions Cl K} {i : Cl} {k : K} {held left : List K} : s i = some ⟨held, k :: left⟩ →
      (∀ j t, j ≠ i → s j = some t → k ∉ t.held) →
        Step Lists s (Function.update s i (some ⟨k :: held, left⟩))
  | stop {s : Transactions Cl K} {i : Cl} {t : Taking K} :
      s i = some t → Step Lists s (Function.update s i none)

/-- The states that interleavings reach. -/
inductive Reachable (Lists : List K → Prop) : Transactions Cl K → Prop
  | idle : Reachable Lists fun _ => none
  | step {s s' : Transactions Cl K} : Reachable Lists s → Step Lists s s' → Reachable Lists s'

end Steps

/-- A transaction waits for another: the next lock it is to take is held by that one. -/
def Waits (s : Transactions Cl K) (i j : Cl) : Prop :=
  i ≠ j ∧ ∃ k held left t, s i = some ⟨held, k :: left⟩ ∧ s j = some t ∧ k ∈ t.held

/-- Each lock is the same as those before it or ranks above them. -/
def Ordered (rank : K → R) (locks : List K) : Prop := locks.Pairwise fun a b => a = b ∨ rank a < rank b

/-- Lists follow one another if every lock of the second ranks above those of the first. -/
theorem Ordered.append {rank : K → R} {locks locks' : List K} (h : Ordered rank locks)
    (h' : Ordered rank locks')
    (hlt : ∀ a ∈ locks, ∀ b ∈ locks', rank a < rank b) : Ordered rank (locks ++ locks') :=
  List.pairwise_append.2 ⟨h, h', fun a ha b hb => Or.inr (hlt a ha b hb)⟩

/-- A lock is held by one transaction, and what a transaction has taken and will take is ordered. -/
structure Invariant (rank : K → R) (s : Transactions Cl K) : Prop where
  exclusive : ∀ i j t u k, s i = some t → s j = some u → k ∈ t.held → k ∈ u.held → i = j
  ordered : ∀ i t, s i = some t → Ordered rank (t.held.reverse ++ t.left)

variable [DecidableEq Cl] {rank : K → R} {Lists : List K → Prop} {s s' : Transactions Cl K}

/-- A transaction that changes keeps the invariant if what it now holds is new or was its own. -/
theorem Invariant.update (hi : Invariant rank s) {i : Cl} {t : Taking K}
    (ht : Ordered rank (t.held.reverse ++ t.left))
    (hfree : ∀ k ∈ t.held, ∀ j u, j ≠ i → s j = some u → k ∉ u.held) :
    Invariant rank (Function.update s i (some t)) where
  exclusive j j' u u' k hu hu' hk hk' := by
    by_cases hj : j = i
    · subst hj
      rw [Function.update_self] at hu
      cases hu
      by_contra hne
      rw [Function.update_of_ne (Ne.symm hne)] at hu'
      exact hfree k hk j' u' (Ne.symm hne) hu' hk'
    · rw [Function.update_of_ne hj] at hu
      by_cases hj' : j' = i
      · subst hj'
        rw [Function.update_self] at hu'
        cases hu'
        exact absurd hk (hfree k hk' j u hj hu)
      · rw [Function.update_of_ne hj'] at hu'
        exact hi.exclusive j j' u u' k hu hu' hk hk'
  ordered j u hu := by
    by_cases hj : j = i
    · subst hj
      rw [Function.update_self] at hu
      cases hu
      exact ht
    · rw [Function.update_of_ne hj] at hu
      exact hi.ordered j u hu

/-- One step keeps the invariant. -/
theorem Invariant.step (hlists : ∀ locks, Lists locks → Ordered rank locks) (hi : Invariant rank s)
    (h : Step Lists s s') : Invariant rank s' := by
  cases h with
  | start _ hl => exact hi.update (hlists _ hl) fun k hk => absurd hk List.not_mem_nil
  | @take i k held left ht hfree =>
    refine hi.update ?_ fun k' hk' j u hj hu => ?_
    · have hord := hi.ordered i _ ht
      simpa using hord
    · rcases List.mem_cons.1 hk' with rfl | hk'
      · exact hfree j u hj hu
      · exact fun hmem => hj (hi.exclusive j i u _ k' hu ht hmem hk')
  | @stop i t ht =>
    have hold : ∀ {j u}, Function.update s i none j = some u → s j = some u := by
      intro j u hu
      by_cases hj : j = i
      · subst hj
        simp at hu
      · rwa [Function.update_of_ne hj] at hu
    exact ⟨fun j j' u u' k hu hu' => hi.exclusive j j' u u' k (hold hu) (hold hu'), fun j u hu =>
        hi.ordered j u (hold hu)⟩

/-- Every reachable state meets the invariant. -/
theorem Reachable.invariant (hlists : ∀ locks, Lists locks → Ordered rank locks) (h : Reachable Lists s) :
    Invariant rank s := by
  induction h with
  | idle => exact ⟨nofun, nofun⟩
  | step _ hstep ih => exact ih.step hlists hstep

omit [DecidableEq Cl] in
/-- Who waits for one that waits is at a lock of a lower rank. -/
theorem Invariant.rank_lt (hi : Invariant rank s) {i j : Cl} (hij : Waits s i j)
    {held left held' left' : List K} {k k' : K} (hk : s i = some ⟨held, k :: left⟩)
    (hk' : s j = some ⟨held', k' :: left'⟩) {j' : Cl} (hjj : Waits s j j') : rank k < rank k' := by
  obtain ⟨-, k₁, held₁, left₁, t, hi₁, hj₁, hmem⟩ := hij
  obtain ⟨hne, k₂, held₂, left₂, u, hj₂, hu, hmem'⟩ := hjj
  rw [hk] at hi₁
  cases hi₁
  rw [hk'] at hj₁ hj₂
  cases hj₁
  cases hj₂
  have hord := (List.pairwise_append.1 (hi.ordered j _ hk')).2.2 k (List.mem_reverse.2 hmem) k'
      List.mem_cons_self
  rcases hord with heq | hlt
  · -- the lock it is to take is its own, so nobody else holds it
    subst heq
    exact absurd (hi.exclusive j j' _ u k hk' hu hmem hmem') hne
  · exact hlt

omit [DecidableEq Cl] in
/-- Along a chain of waiting transactions the ranks of the next locks rise. -/
theorem Invariant.chain (hi : Invariant rank s) {i j : Cl} (h : Relation.TransGen (Waits s) i j) {j' : Cl}
    (hj : Waits s j j') : ∀ held left k held' left' k', s i = some ⟨held, k :: left⟩ →
    s j = some ⟨held', k' :: left'⟩ → rank k < rank k' := by
  induction h generalizing j' with
  | single hij => exact fun held left k held' left' k' hk hk' => hi.rank_lt hij hk hk' hj
  | tail _ hlast ih =>
    intro held left k held' left' k' hk hk'
    obtain ⟨-, k₁, held₁, left₁, t, hb, -, -⟩ := id hlast
    exact lt_trans (ih hlast held left k held₁ left₁ k₁ hk hb) (hi.rank_lt hlast hb hk' hj)

/-- **No deadlock**: if every list follows the rank, no transaction waits in a circle. -/
theorem acyclic (hlists : ∀ locks, Lists locks → Ordered rank locks) (h : Reachable Lists s) (i : Cl) :
    ¬Relation.TransGen (Waits s) i i := by
  intro hcycle
  have hi := h.invariant hlists
  obtain ⟨j, hij, -⟩ := Relation.TransGen.head'_iff.1 hcycle
  obtain ⟨-, k, held, left, t, hk, -, -⟩ := id hij
  exact absurd (hi.chain hcycle hij held left k held left k hk hk) (lt_irrefl _)

/-- Of finitely many transactions one waits for nobody. -/
theorem exists_ready [Finite Cl] (hlists : ∀ locks, Lists locks → Ordered rank locks)
    (h : Reachable Lists s) {i : Cl} (hi : (s i).isSome) : ∃ j, (s j).isSome ∧ ∀ j', ¬Waits s j j' := by
  have hirr : Std.Irrefl (Relation.TransGen fun a b => Waits s b a) :=
    ⟨fun j hj => acyclic hlists h j (Relation.transGen_swap.1 hj)⟩
  have hwf : WellFounded (Relation.TransGen fun a b => Waits s b a) :=
    Finite.wellFounded_of_trans_of_irrefl _
  obtain ⟨j, hj, hmin⟩ := hwf.has_min {j | (s j).isSome} ⟨i, hi⟩
  refine ⟨j, hj, fun j' hwaits => ?_⟩
  obtain ⟨-, k, held, left, t, -, ht, -⟩ := id hwaits
  have hj' : (s j').isSome := by rw [ht]; rfl
  exact hmin j' hj' (Relation.TransGen.single hwaits)

end TrackFlow.ReadCommitted.LockOrder
