import TrackFlow.ReadCommitted.System

/-!
# Unique keys

The rows of a database have keys, and so has what a write inserts. A constraint compares the keys of a
write with those that the transaction sees; the keys of other open transactions are what `clash` is for:
a write whose key an open transaction has used waits. Together they keep every key unique
(`Keyed.unique`), whatever the programs are.
-/

namespace TrackFlow.ReadCommitted

variable {Cl Db W K O E α Key : Type}

/-- The keys of the rows, and what the constraints make of them. -/
structure Keyed (S : Shared Db W) (Key : Type) where
  rows : Db → List Key
  inserts : W → List Key
  apply : ∀ db w, (rows (S.apply db w)).Perm (rows db ++ inserts w)
  accepts : ∀ {db w}, S.accepts db w = true → (rows db).Nodup → (rows db ++ inserts w).Nodup
  clash : ∀ {v w}, ¬S.clash v w → (inserts v).Disjoint (inserts w)
  world : ∀ {db db'}, S.world db db' → (rows db').Perm (rows db)

namespace Keyed

variable {S : Shared Db W} (T : Keyed S Key)

/-- The keys of a list of writes. -/
def all (own : List W) : List Key := own.flatMap T.inserts

theorem rows_applyAll (own : List W) (db : Db) :
    (T.rows (S.applyAll db own)).Perm (T.rows db ++ T.all own) := by
  induction own generalizing db with
  | nil => simp [all]
  | cons w own ih =>
    have hnext : T.all (w :: own) = T.inserts w ++ T.all own := List.flatMap_cons
    rw [hnext, ← List.append_assoc]
    exact (ih (S.apply db w)).trans ((T.apply db w).append_right _)

theorem all_append (own : List W) (w : W) : T.all (own ++ [w]) = T.all own ++ T.inserts w := by
  simp [all]

/-- The keys of what is committed are unique, and so they are together with those of each open
transaction; those of two open transactions are distinct. -/
structure Apart (σ : System Cl Db W K O E α) : Prop where
  rows : (T.rows σ.db).Nodup
  own : ∀ i s, σ.open_ i = some s → (T.rows σ.db ++ T.all s.own).Nodup
  others : ∀ i j s t, i ≠ j → σ.open_ i = some s → σ.open_ j = some t →
    (T.all s.own).Disjoint (T.all t.own)

variable {T} [DecidableEq Cl]

/-- A step in which client `i` goes on. -/
theorem Apart.advance {σ : System Cl Db W K O E α} (h : T.Apart σ) {i : Cl} {s : Session Db W K O E α}
    {locks : K → Option Cl} (hown : (T.rows σ.db ++ T.all s.own).Nodup)
    (hothers : ∀ j t, j ≠ i → σ.open_ j = some t → (T.all t.own).Disjoint (T.all s.own)) :
    T.Apart { db := σ.db, locks := locks, open_ := Function.update σ.open_ i (some s) } := by
  have hopen : ∀ j t, Function.update σ.open_ i (some s) j = some t →
      j = i ∧ t = s ∨ j ≠ i ∧ σ.open_ j = some t := by
    intro j t hj
    by_cases hji : j = i
    · subst hji
      rw [Function.update_self, Option.some.injEq] at hj
      exact Or.inl ⟨rfl, hj.symm⟩
    · rw [Function.update_of_ne hji] at hj
      exact Or.inr ⟨hji, hj⟩
  refine ⟨h.rows, fun j t hj => ?_, fun j k t u hjk hj hk => ?_⟩
  · rcases hopen j t hj with ⟨-, rfl⟩ | ⟨-, hj⟩
    · exact hown
    · exact h.own j t hj
  · rcases hopen j t hj with ⟨rfl, rfl⟩ | ⟨hji, hj⟩
    · rcases hopen k u hk with ⟨rfl, -⟩ | ⟨hki, hk⟩
      · exact absurd rfl hjk
      · exact (hothers k u hki hk).symm
    · rcases hopen k u hk with ⟨-, hu⟩ | ⟨-, hk⟩
      · exact hu ▸ hothers j t hji hj
      · exact h.others j k t u hjk hj hk

/-- The transaction of client `i` ends. -/
theorem Apart.leave {σ : System Cl Db W K O E α} (h : T.Apart σ) {i : Cl} {db' : Db} {locks : K → Option Cl}
    (hrows : (T.rows db').Nodup)
    (hown : ∀ j t, j ≠ i → σ.open_ j = some t → (T.rows db' ++ T.all t.own).Nodup) :
    T.Apart { db := db', locks := locks, open_ := Function.update σ.open_ i none } := by
  have hopen : ∀ j t, Function.update σ.open_ i none j = some t → j ≠ i ∧ σ.open_ j = some t := by
    intro j t hj
    by_cases hji : j = i
    · subst hji
      simp at hj
    · rw [Function.update_of_ne hji] at hj
      exact ⟨hji, hj⟩
  refine ⟨hrows, fun j t hj => ?_, fun j k t u hjk hj hk => ?_⟩
  · exact hown j t (hopen j t hj).1 (hopen j t hj).2
  · exact h.others j k t u hjk (hopen j t hj).2 (hopen k u hk).2

variable [DecidableEq K] {Runs : Prog Db W K O E α → Prop} {σ σ' : System Cl Db W K O E α}
  {l : Label Cl W O α} {db₀ : Db}

theorem Apart.step (h : T.Apart σ) (hs : Step S Runs σ l σ') : T.Apart σ' := by
  have hown : ∀ {i own} {p : Prog Db W K O E α}, σ.open_ i = some ⟨own, p⟩ →
      (T.rows σ.db ++ T.all own).Nodup := fun hi => h.own _ _ hi
  have hothers : ∀ {i own} {p : Prog Db W K O E α}, σ.open_ i = some ⟨own, p⟩ →
      ∀ j t, j ≠ i → σ.open_ j = some t → (T.all t.own).Disjoint (T.all own) :=
    fun hi j t hj ht => h.others j _ t _ hj ht hi
  cases hs with
  | @start i p hi _ =>
    exact h.advance (by simpa [all] using h.rows) fun j t _ _ => by simp [all]
  | @lock i own k p hi _ => exact h.advance (hown hi) (hothers hi)
  | @read i own p hi => exact h.advance (hown hi) (hothers hi)
  | @note i own o p hi => exact h.advance (hown hi) (hothers hi)
  | @write i own w p hi haccepts hclash =>
    refine h.advance ?_ fun j t hj ht => ?_
    · have hseen : (T.rows (S.applyAll σ.db own)).Nodup :=
        (T.rows_applyAll own σ.db).nodup_iff.2 (hown hi)
      rw [T.all_append, ← List.append_assoc]
      exact ((T.rows_applyAll own σ.db).append_right _).nodup_iff.1 (T.accepts haccepts hseen)
    · rw [T.all_append, List.disjoint_append_right]
      refine ⟨hothers hi j t hj ht, ?_⟩
      intro k hk
      obtain ⟨v, hv, hk⟩ := List.mem_flatMap.1 hk
      exact T.clash (hclash j t hj ht v hv) hk
  | @commit i own a hi =>
    have hrows := (T.rows_applyAll own σ.db).nodup_iff.2 (hown hi)
    refine h.leave hrows fun j t hj ht => ?_
    have hboth : ((T.rows σ.db ++ T.all own) ++ T.all t.own).Nodup := by
      have hdb := h.own j t ht
      rw [List.nodup_append'] at hdb ⊢
      refine ⟨hown hi, hdb.2.1, ?_⟩
      rw [List.disjoint_append_left]
      exact ⟨hdb.2.2, (hothers hi j t hj ht).symm⟩
    exact ((T.rows_applyAll own σ.db).append_right _).nodup_iff.2 hboth
  | @rollback i s hi => exact h.leave h.rows fun j t _ ht => h.own j t ht
  | @world db' hdb =>
    refine ⟨(T.world hdb).nodup_iff.2 h.rows, fun j t ht => ?_, h.others⟩
    exact ((T.world hdb).append_right _).nodup_iff.2 (h.own j t ht)

/-- **Keys are unique** in every reachable state. -/
theorem unique (h₀ : (T.rows db₀).Nodup) (h : Reachable S Runs db₀ σ) : (T.rows σ.db).Nodup := by
  have hapart : T.Apart σ := by
    induction h with
    | idle => exact ⟨h₀, by simp [System.idle], by simp [System.idle]⟩
    | step _ hs ih => exact ih.step hs
  exact hapart.rows

end Keyed

end TrackFlow.ReadCommitted
