import TrackFlow.Pipelines.Concurrency

/-!
# Mutual exclusion and fencing of week leases

`LeaseInv` relates the control row to the history of grants and publications; each write keeps it
(`LeaseInv.grant`, `LeaseInv.renew`, `LeaseInv.release`), but for the recording of a publication,
which needs the release that follows in the same transaction (`LeaseInv.record_release`). Each
statement and each call has its rule (`wp_updateWhere`, `wp_verifyWeekLease`, …,
`wp_publishProtected`), so every transaction is safe (`transaction_safe`), and every reachable state
is exclusive (`week_lease_exclusive`).
-/

namespace TrackFlow.Pipelines

open TrackFlow.Python TrackFlow.ReadCommitted

section Fencing

variable {κ : Type}

/-! ## The invariant -/

/-- The same control row, KPI rows and history. -/
structure SameLease (a b : LeaseDb κ) : Prop where
  control : b.control = a.control
  kpis : b.kpis = a.kpis
  grants : b.grants = a.grants
  publications : b.publications = a.publications

theorem SameLease.refl (a : LeaseDb κ) : SameLease a a := ⟨rfl, rfl, rfl, rfl⟩

theorem SameLease.trans {a b c : LeaseDb κ} (h : SameLease a b) (h' : SameLease b c) : SameLease a c :=
  ⟨h'.1.trans h.1, h'.2.trans h.2, h'.3.trans h.3, h'.4.trans h.4⟩

theorem SameLease.apply {a b : LeaseDb κ} (h : SameLease a b) (w : LeaseWrite κ) :
    SameLease (a.apply w) (b.apply w) := by
  obtain ⟨hc, hk, hg, hp⟩ := h
  cases w <;> constructor <;> simp [LeaseDb.apply, LeaseDb.update, hc, hk, hg, hp]

theorem SameLease.applyAll {a b : LeaseDb κ} (h : SameLease a b) (ws : List (LeaseWrite κ)) :
    SameLease ((leaseTables κ).applyAll a ws) ((leaseTables κ).applyAll b ws) := by
  induction ws generalizing a b with
  | nil => exact h
  | cons w ws ih => exact ih (h.apply w)

/-- Tokens were granted in increasing order and none above the current one; the owner holds the
current token, under which nothing was published yet; publications were made under grants, at most
one under each. -/
structure LeaseInv (db : LeaseDb κ) : Prop where
  increasing : db.grants.Pairwise fun g h => g.1 < h.1
  bounded : ∀ g ∈ db.grants, ∃ c, db.control = some c ∧ g.1 ≤ c.fencingToken
  owner : ∀ c r, db.control = some c → c.ownerRunId = some r →
    (c.fencingToken, r) ∈ db.grants ∧ ∀ p ∈ db.publications, p.1 ≠ c.fencingToken
  published : ∀ p ∈ db.publications, p ∈ db.grants
  once : (db.publications.map Prod.fst).Nodup

theorem LeaseInv.same {a b : LeaseDb κ} (hI : LeaseInv a) (h : SameLease a b) : LeaseInv b := by
  obtain ⟨hc, -, hg, hp⟩ := h
  obtain ⟨h₁, h₂, h₃, h₄, h₅⟩ := hI
  constructor <;> simp only [hc, hg, hp] <;> assumption

/-! What each write does to the invariant. -/

theorem LeaseInv.ensure {db : LeaseDb κ} (hI : LeaseInv db) (h : db.control = none) (week : Int) :
    LeaseInv (db.apply (.ensure week)) := by
  have hg : db.grants = [] := by
    rw [List.eq_nil_iff_forall_not_mem]
    intro g hg
    obtain ⟨c, hc, -⟩ := hI.bounded g hg
    rw [h] at hc
    cases hc
  refine ⟨hI.increasing, fun g hm => ?_, fun c r hc hr => ?_, hI.published, hI.once⟩
  · simp only [LeaseDb.apply, hg, List.not_mem_nil] at hm
  · simp only [LeaseDb.apply, Option.some.injEq] at hc
    subst hc
    cases hr

theorem LeaseInv.grant {db : LeaseDb κ} {c : WeekControl} (hI : LeaseInv db) (h : db.control = some c)
    (run : Uuid) (acquired expires : Int) : LeaseInv (db.apply (.grant run acquired expires)) := by
  have hle : ∀ g ∈ db.grants, g.1 ≤ c.fencingToken := by
    intro g hg
    obtain ⟨c', hc', hle⟩ := hI.bounded g hg
    rw [h, Option.some.injEq] at hc'
    exact hc' ▸ hle
  have hgr : (db.apply (.grant run acquired expires)).grants = db.grants ++
      [(c.fencingToken + 1, run)] := by
    simp [LeaseDb.apply, h]
  have hct : (db.apply (.grant run acquired expires)).control = some (c.grant run acquired expires) := by
    simp [LeaseDb.apply, LeaseDb.update, h]
  refine ⟨?_, fun g hg => ⟨_, hct, ?_⟩, fun c' r hc' hr => ?_, fun p hp => ?_, hI.once⟩
  · rw [hgr, List.pairwise_append]
    refine ⟨hI.increasing, by simp, fun g hg g' hg' => ?_⟩
    rw [List.mem_singleton] at hg'
    have := hle g hg
    subst hg'
    show g.1 < c.fencingToken + 1
    omega
  · rw [hgr, List.mem_append, List.mem_singleton] at hg
    show g.1 ≤ c.fencingToken + 1
    rcases hg with hg | rfl
    · have := hle g hg
      omega
    · exact le_refl _
  · rw [hct, Option.some.injEq] at hc'
    subst hc'
    simp only [WeekControl.grant, Option.some.injEq] at hr ⊢
    subst hr
    rw [hgr]
    refine ⟨by simp, fun p hp => ?_⟩
    have := hle p (hI.published p hp)
    omega
  · rw [hgr]
    exact List.mem_append_left _ (hI.published p hp)

theorem LeaseInv.renew {db : LeaseDb κ} (hI : LeaseInv db) (run : Uuid) (token expires : Int) :
    LeaseInv (db.apply (.renew run token expires)) := by
  refine ⟨hI.increasing, fun g hg => ?_, fun c r hc hr => ?_, hI.published, hI.once⟩
  · obtain ⟨c, hc, hle⟩ := hI.bounded g hg
    exact ⟨c.renew expires, by simp [LeaseDb.apply, LeaseDb.update, hc], hle⟩
  · simp only [LeaseDb.apply, LeaseDb.update, Option.map_eq_some_iff] at hc
    obtain ⟨c, hc, rfl⟩ := hc
    exact hI.owner c r hc hr

theorem LeaseInv.release {db : LeaseDb κ} (hI : LeaseInv db) (run : Uuid) (token : Int) :
    LeaseInv (db.apply (.release run token)) := by
  refine ⟨hI.increasing, fun g hg => ?_, fun c r hc hr => ?_, hI.published, hI.once⟩
  · obtain ⟨c, hc, hle⟩ := hI.bounded g hg
    exact ⟨c.release, by simp [LeaseDb.apply, LeaseDb.update, hc], hle⟩
  · simp only [LeaseDb.apply, LeaseDb.update, Option.map_eq_some_iff] at hc
    obtain ⟨c, hc, rfl⟩ := hc
    cases hr

theorem LeaseInv.stage {db : LeaseDb κ} (hI : LeaseInv db) (kpis : κ) : LeaseInv (db.apply (.stage kpis)) :=
  ⟨hI.increasing, hI.bounded, hI.owner, hI.published, hI.once⟩

/-- A publication by the owner and the release of its lease, in one transaction. -/
theorem LeaseInv.record_release {db : LeaseDb κ} {c : WeekControl} {run : Uuid} (hI : LeaseInv db)
    (h : db.control = some c) (ho : c.ownerRunId = some run) (p : Publication) (token : Int) :
    LeaseInv ((db.apply (.record run p)).apply (.release run token)) := by
  obtain ⟨hmem, hfresh⟩ := hI.owner c run h ho
  have hpub : ((db.apply (.record run p)).apply (.release run token)).publications =
      db.publications ++ [(c.fencingToken, run)] := by simp [LeaseDb.apply, LeaseDb.update, h]
  have hct : ((db.apply (.record run p)).apply (.release run token)).control =
      some (c.record run p).release := by
    simp [LeaseDb.apply, LeaseDb.update, h]
  refine ⟨hI.increasing, fun g hg => ?_, fun c' r hc' hr => ?_, fun q hq => ?_, ?_⟩
  · obtain ⟨c', hc', hle⟩ := hI.bounded g hg
    rw [h, Option.some.injEq] at hc'
    exact ⟨_, hct, hc' ▸ hle⟩
  · rw [hct, Option.some.injEq] at hc'
    subst hc'
    cases hr
  · rw [hpub, List.mem_append, List.mem_singleton] at hq
    rcases hq with hq | rfl
    · exact hI.published q hq
    · exact hmem
  · rw [hpub, List.map_append, List.nodup_append]
    refine ⟨hI.once, by simp, fun t ht t' ht' => ?_⟩
    obtain ⟨q, hq, rfl⟩ := List.mem_map.1 ht
    simp only [List.map_cons, List.map_nil, List.mem_singleton] at ht'
    subst ht'
    exact hfresh q hq

/-! ## The rules -/

/-- A call that was answered other than by a rejection presented a token not below any granted one,
and a granted lease carries a token above all of them. -/
def LeaseNote.Truthful (db : LeaseDb κ) (n : LeaseNote) : Prop :=
  (∀ s, n.presented = some s → n.decision.status ≠ .rejected → ∀ g ∈ db.grants, g.1 ≤ s) ∧
  (n.decision.granted = true → ∃ t, n.decision.fencingToken = some t ∧ ∀ g ∈ db.grants, g.1 < t)

/-- A renewal or release is written for a token not below any granted one only. -/
def LeaseWrite.Fenced (db : LeaseDb κ) : LeaseWrite κ → Prop
  | .renew _ s _ | .release _ s => ∀ g ∈ db.grants, g.1 ≤ s
  | _ => True

/-- Everything is written under the lock of the control row, which protects all but the clock and
the runs. -/
def leaseRules (κ : Type) : Rules (leaseTables κ) Unit LeaseNote where
  Inv := LeaseInv
  made := LeaseWrite.Fenced
  told := LeaseNote.Truthful
  agree L a b := () ∈ L → SameLease a b
  guard _ := {()}
  refl _ db _ := SameLease.refl db
  trans h₁ h₂ hL := (h₁ hL).trans (h₂ hL)
  mono hLM h hL := h (hLM hL)
  frame hw hL := absurd hL (Set.disjoint_singleton_left.1 hw)
  world_agree := by
    rintro L db db' ⟨clock, runs, -, -, rfl⟩ -
    exact ⟨rfl, rfl, rfl, rfl⟩
  world_inv := by
    rintro db db' ⟨clock, runs, -, -, rfl⟩ hI
    exact hI.same ⟨rfl, rfl, rfl, rfl⟩

theorem guard_subset {L : Set Unit} (hL : () ∈ L) (w : LeaseWrite κ) : (leaseRules κ).guard w ⊆ L :=
  Set.singleton_subset_iff.2 hL

/-! ## Statements -/

section Statements

variable {L M : Set Unit} {own : List (LeaseWrite κ)} {db db' : LeaseDb κ}
  {P : Set Unit → List (LeaseWrite κ) → LeaseDb κ → Prop}

/-- What the transaction sees. -/
def view (own : List (LeaseWrite κ)) (db : LeaseDb κ) : LeaseDb κ := (leaseTables κ).applyAll db own

theorem view_append (own : List (LeaseWrite κ)) (w : LeaseWrite κ) (db : LeaseDb κ) :
    view (own ++ [w]) db = (view own db).apply w := (leaseTables κ).applyAll_append db own [w]

/-- Between two calls: what was written was written under the lock, and committing keeps the invariant. -/
structure Ready (L : Set Unit) (own : List (LeaseWrite κ)) (db : LeaseDb κ) : Prop where
  locked : own ≠ [] → () ∈ L
  keeps : LeaseInv (view own db)

/-- The control row is locked, and it is `row`. -/
structure Locked (row : Option WeekControl) (L : Set Unit) (own : List (LeaseWrite κ))
    (db : LeaseDb κ) : Prop where
  mem : () ∈ L
  row : (view own db).control = row

theorem ready_stable : (leaseRules κ).Stable Ready where
  others := by
    intro L own db db' hr ha hI
    refine ⟨hr.locked, ?_⟩
    by_cases ho : own = []
    · subst ho; exact hI
    · exact hr.keeps.same ((ha (hr.locked ho)).applyAll own)
  locks := fun hL hr => ⟨fun ho => hL (hr.locked ho), hr.keeps⟩

theorem locked_stable (row : Option WeekControl) : (leaseRules κ).Stable (Locked row) where
  others := fun hl ha _ => ⟨hl.mem, ((ha hl.mem).applyAll _).control.trans hl.row⟩
  locks := fun hL hl => ⟨hL hl.mem, hl.row⟩

section Queries

variable {α : Type} {Q : α → Set Unit → List (LeaseWrite κ) → LeaseDb κ → Prop}

theorem wp_ofExcept (hs : (leaseRules κ).Stable P) (hp : P L own db) {x : Except CodedError α}
    (h : ∀ a db', x = .ok a → P L own db' → Q a L own db') : (leaseRules κ).wp (ofExcept x) Q L own db := by
  cases x with
  | ok a => exact Rules.wp_done hs hp fun db' => h a db' rfl
  | error e => trivial

end Queries

/-- The `SET` of a statement only reads the clock, and yields a write of some shape. -/
def Sets (set : Lease κ (LeaseWrite κ)) (Shape : LeaseWrite κ → Prop) : Prop :=
  ∀ (P : Set Unit → List (LeaseWrite κ) → LeaseDb κ → Prop) (M : Set Unit) own db,
    (leaseRules κ).Stable P → P M own db → (leaseRules κ).wp set (fun w M' own' db' => Shape w ∧ M' = M ∧
      own' = own ∧ P M own db') M own db

theorem sets_pure (w : LeaseWrite κ) : Sets (pure w) (· = w) := fun _ _ _ _ hs hp =>
  Rules.wp_done hs hp fun _ hp' => ⟨rfl, rfl, rfl, hp'⟩

theorem sets_clock {set : Int → Lease κ (LeaseWrite κ)} {Shape : LeaseWrite κ → Prop}
    (h : ∀ t, Sets (set t) Shape) :
    Sets (Prog.query (·.clock) >>= set) Shape := fun P M own _ hs hp =>
  Rules.wp_bind (Rules.wp_query hs hp fun _ db₂ _ hp₂ _ _ => h _ P M own db₂ hs hp₂)

theorem Sets.weaken {set : Lease κ (LeaseWrite κ)} {Shape Shape' : LeaseWrite κ → Prop} (h : Sets set Shape)
    (hw : ∀ w, Shape w → Shape' w) : Sets set Shape' := fun P M own db hs hp =>
  Rules.wp_mono (fun w _ _ _ hq => ⟨hw w hq.1, hq.2⟩) (h P M own db hs hp)

section Rows

variable {Q : Option WeekControl → Set Unit → List (LeaseWrite κ) → LeaseDb κ → Prop}

/-- A statement that locks the row it sees. -/
theorem wp_selectForUpdate (hs : (leaseRules κ).Stable P) (hp : P L own db)
    (hnone : ∀ M db', P M own db' → Q none M own db')
    (hsome : ∀ M c db', P M own db' → Locked (some c) M own db' → Q (some c) M own db') :
    (leaseRules κ).wp selectForUpdate Q L own db := by
  refine Rules.wp_bind (Rules.wp_query hs hp fun db₁ db₂ _ hp₂ _ _ => ?_)
  split
  · exact Rules.wp_done hs hp₂ fun db' => hnone L db'
  · refine Rules.wp_bind (Rules.wp_acquire hs hp₂ fun db₃ hp₃ => ?_)
    refine Rules.wp_query hs hp₃ fun db₄ db₅ _ hp₅ ha hI₅ => ?_
    have hM : () ∈ insert () L := Set.mem_insert _ _
    have hl : Locked _ _ own db₅ := (locked_stable _).others ⟨hM, rfl⟩ ha hI₅
    cases hc : (view own db₄).control with
    | none => exact hc ▸ hnone _ db₅ hp₅
    | some c => exact hc ▸ hsome _ c db₅ hp₅ (hc ▸ hl)

/-- An `UPDATE … WHERE` whose `SET` reads the clock and yields a write of some shape: it finds no
row, or it writes under the lock a row that matched. -/
theorem wp_updateWhere (hs : (leaseRules κ).Stable P) (hp : P L own db)
    {matching : WeekControl → Int → Bool}
    {set : Lease κ (LeaseWrite κ)} {Shape : LeaseWrite κ → Prop} (hset : Sets set Shape)
    (hnone : ∀ M db', P M own db' → Q none M own db')
    (hsome : ∀ M c w now db', P M own db' → Locked (some c) M own db' → LeaseInv db' → matching c now =
      true → Shape w → LeaseWrite.Fenced db' w ∧ ∀ db'', P M own db'' → Locked (some c) M own db'' →
      SameLease db' db'' → Q ((view own db'').apply w).control M (own ++ [w]) db'') :
    (leaseRules κ).wp (updateWhere matching set) Q L own db := by
  refine Rules.wp_bind (Rules.wp_query hs hp fun db₁ db₂ _ hp₂ _ _ => ?_)
  refine Rules.wp_bind (Rules.wp_query hs hp₂ fun db₃ db₄ _ hp₄ _ _ => ?_)
  split
  · refine Rules.wp_bind (Rules.wp_acquire hs hp₄ fun db₅ hp₅ => ?_)
    have hM : () ∈ insert () L := Set.mem_insert _ _
    refine Rules.wp_bind (Rules.wp_query hs hp₅ fun db₆ db₇ _ hp₇ h₇ hI₇ => ?_)
    have hs' := hs.and (locked_stable (view own db₆).control)
    have hp₇' : P _ own db₇ ∧ Locked _ _ own db₇ := ⟨hp₇, (locked_stable _).others ⟨hM, rfl⟩ h₇ hI₇⟩
    refine Rules.wp_bind (Rules.wp_query hs' hp₇' fun db₈ db₉ _ hp₉ _ _ => ?_)
    split
    · rename_i hmatch
      obtain ⟨c, hc, hmatch⟩ := (Option.any_eq_true _ _).1 hmatch
      change (view own db₆).control = some c at hc
      rw [hc] at hs' hp₉
      refine Rules.wp_bind (Rules.wp_mono ?_ (hset _ _ _ _ hs' hp₉))
      rintro w M own' db' ⟨hw, rfl, rfl, hp'⟩
      refine Rules.wp_bind (Rules.wp_put hs' hp' fun db'' hp'' hI'' _ => ?_)
      obtain ⟨hf, hq⟩ := hsome _ c w _ db'' hp''.1 hp''.2 hI'' hmatch hw
      refine ⟨guard_subset hM w, hf, fun a ha hsa hIa b hb hIb d hd hId => ?_⟩
      have hpd := hs'.others (hs'.others ha hb hIb) hd hId
      have hbd : SameLease b d := hd hM
      have hctl : (view (own' ++ [w]) b).control = ((view own' d).apply w).control := by
        rw [view_append]
        exact ((hbd.applyAll own').apply w).control.symm
      have hqd := hq d hpd.1 hpd.2 (((hsa hM).trans (hb hM)).trans hbd)
      rw [← hctl] at hqd
      exact hqd
    · exact Rules.wp_done hs hp₉.1 fun db' => hnone _ db'
  · exact Rules.wp_done hs hp₄ fun db' => hnone L db'

end Rows

/-! ## Calls -/

/-- Grants are never taken back. -/
theorem grants_view (own : List (LeaseWrite κ)) (db : LeaseDb κ) : db.grants <+: (view own db).grants := by
  induction own generalizing db with
  | nil => exact List.prefix_rfl
  | cons w own ih =>
    refine List.IsPrefix.trans ?_ (ih (db.apply w))
    cases w <;> simp [LeaseDb.apply, LeaseDb.update]

/-- The note is truthful now, and nothing that others can do changes that. -/
def Told (n : LeaseNote) (L : Set Unit) (_ : List (LeaseWrite κ)) (db : LeaseDb κ) : Prop :=
  ∀ db', (() ∈ L → SameLease db db') → n.Truthful db'

theorem told_stable (n : LeaseNote) : (leaseRules κ).Stable (Told n) where
  others := fun hn ha _ db' h => hn db' fun hL => (ha hL).trans (h hL)
  locks := fun hL hn db' h => hn db' fun hM => h (hL hM)

theorem told_locked {n : LeaseNote} (hL : () ∈ L) (h : n.Truthful db) : Told n L own db := by
  intro db' ha
  obtain ⟨-, -, hg, -⟩ := ha hL
  simpa only [LeaseNote.Truthful, hg] using h

theorem told_refusal {n : LeaseNote} (h : n.decision.status = .rejected) : Told n L own db :=
  fun _ _ => ⟨fun _ _ hne => absurd h hne, fun hgr => by simp [LeaseDecision.granted, h] at hgr⟩

theorem wp_reported {run : Uuid} {presented : Option Int} {call : Lease κ LeaseDecision}
    {Q : LeaseDecision → Set Unit → List (LeaseWrite κ) → LeaseDb κ → Prop}
    (hQ : ∀ d, (leaseRules κ).Stable (Q d))
    (h : (leaseRules κ).wp call (fun d M own db => Q d M own db ∧ Told ⟨run, presented, d⟩ M own db) L own
      db) :
    (leaseRules κ).wp (reported run presented call) Q L own db := by
  refine Rules.wp_bind (Rules.wp_mono (fun d M own db hq => ?_) h)
  have hs := (hQ d).and (told_stable ⟨run, presented, d⟩)
  refine Rules.wp_bind (Rules.wp_report hs hq fun db₁ h₁ hI₁ => ⟨h₁.2 db₁ fun _ => SameLease.refl db₁, ?_⟩)
  exact fun db₂ h₂ => Rules.wp_done hs h₂ fun db₃ h₃ => h₃.1

/-- A locked row whose token is not below any grant. -/
structure Current (c : WeekControl) (L : Set Unit) (own : List (LeaseWrite κ)) (db : LeaseDb κ) : Prop where
  locked : Locked (some c) L own db
  bound : ∀ g ∈ (view own db).grants, g.1 ≤ c.fencingToken

theorem Ready.current {c : WeekControl} (hr : Ready L own db) (hl : Locked (some c) L own db) :
    Current c L own db := by
  refine ⟨hl, fun g hg => ?_⟩
  obtain ⟨c', hc', hle⟩ := hr.keeps.bounded g hg
  rw [hl.row, Option.some.injEq] at hc'
  exact hc' ▸ hle

theorem Current.fenced {c : WeekControl} (h : Current c L own db) : ∀ g ∈ db.grants, g.1 ≤ c.fencingToken :=
  fun g hg => h.bound g ((grants_view own db).subset hg)

/-- A call that presented the current token and was not refused told the truth. -/
theorem Current.told {c : WeekControl} (h : Current c L own db) {run : Uuid} {d : LeaseDecision}
    (hd : d.granted = false)
    (own' : List (LeaseWrite κ)) : Told ⟨run, some c.fencingToken, d⟩ L own' db := by
  refine told_locked h.locked.mem ⟨fun s hs _ g hg => ?_, fun hgr => by simp [hd] at hgr⟩
  cases hs
  exact h.fenced g hg

theorem wp_checkToken (hs : (leaseRules κ).Stable P) (hp : P L own db) (token : Int)
    {Q : Int → Set Unit → List (LeaseWrite κ) → LeaseDb κ → Prop}
    (h : ∀ db', P L own db' → Q token L own db') :
    (leaseRules κ).wp (ofExcept (checkToken token)) Q L own db := by
  refine wp_ofExcept hs hp fun t db' ht h' => ?_
  unfold checkToken at ht
  split at ht
  · cases ht
  · cases ht; exact h db' h'

/-! ### Verification -/

/-- A verified lease is held by the run, under the lock. -/
def Verified (run : Uuid) (token : Int) (d : LeaseDecision) (L : Set Unit) (own : List (LeaseWrite κ))
    (db : LeaseDb κ) : Prop :=
  d.leaseVerified = true → ∃ c, Locked (some c) L own db ∧ c.ownerRunId = some run ∧ c.fencingToken = token

theorem verified_stable (run : Uuid) (token : Int) (d : LeaseDecision) :
    (leaseRules κ).Stable (Verified run token d) := by
  constructor
  · intro L own db db' hv ha hI hd
    obtain ⟨c, hc, hrest⟩ := hv hd
    exact ⟨c, (locked_stable _).others hc ha hI, hrest⟩
  · intro L M own db hL hv hd
    obtain ⟨c, hc, hrest⟩ := hv hd
    exact ⟨c, (locked_stable _).locks hL hc, hrest⟩

theorem wp_verifyLease {run : Uuid} {token : Int}
    {Q : Option (WeekControl × Bool) → Set Unit → List (LeaseWrite κ) → LeaseDb κ → Prop}
    (hr : Ready L own db)
    (hnone : ∀ M db', Ready M own db' → Q none M own db')
    (hsome : ∀ M c now db', Ready M own db' → Locked (some c) M own db' →
      Q (some (c, c.verifies run token now)) M own db') :
    (leaseRules κ).wp (verifyLease run token) Q L own db := by
  refine Rules.wp_bind (wp_selectForUpdate ready_stable hr (fun M db' h' => ?_) fun M c db' h' hl => ?_)
  · exact Rules.wp_done ready_stable h' fun db'' h'' => hnone M db'' h''
  · have hs := ready_stable.and (locked_stable (κ := κ) (some c))
    refine Rules.wp_bind (Rules.wp_query hs ⟨h', hl⟩ fun db₃ db₄ _ h₄ _ _ => ?_)
    exact Rules.wp_done hs h₄ fun db'' h'' => hsome M c _ db'' h''.1 h''.2

theorem wp_verifyWeekLease (weekStart : Int) (run : Uuid) (token : Int) (hr : Ready L own db) :
    (leaseRules κ).wp (verifyWeekLease weekStart run token)
      (fun d M own db => Ready M own db ∧ Verified run token d M own db) L own db := by
  have hs := ready_stable (κ := κ)
  refine wp_reported (fun d => hs.and (verified_stable run token d)) ?_
  refine Rules.wp_bind (wp_ofExcept hs hr fun _ db₁ _ h₁ => ?_)
  refine Rules.wp_bind (wp_checkToken hs h₁ token fun db₂ h₂ => ?_)
  refine Rules.wp_bind (wp_verifyLease h₂ (fun M db₃ h₃ => ?_) fun M c now db₃ h₃ hl₃ => ?_)
  · refine Rules.wp_done hs h₃ fun db₄ h₄ => ⟨⟨h₄, fun hd => ?_⟩, told_refusal rfl⟩
    simp [LeaseDecision.leaseVerified, refusal] at hd
  · refine Rules.wp_done (hs.and (locked_stable (some c))) ⟨h₃, hl₃⟩ fun db₄ h₄ => ?_
    cases hv : c.verifies run token now with
    | false =>
      refine ⟨⟨h₄.1, fun hd => ?_⟩, told_refusal rfl⟩
      simp [LeaseDecision.leaseVerified, decision] at hd
    | true =>
      simp only [WeekControl.verifies, WeekControl.owned, Bool.and_eq_true, decide_eq_true_eq] at hv
      obtain ⟨⟨ho, rfl⟩, -⟩ := hv
      exact ⟨⟨h₄.1, fun _ => ⟨c, h₄.2, ho, rfl⟩⟩, (h₄.1.current h₄.2).told rfl _⟩

/-! ### Renewal, release and acquisition -/

theorem wp_renewWeekLease (weekStart : Int) (run : Uuid) (token leaseSeconds : Int) (hr : Ready L own db) :
    (leaseRules κ).wp (renewWeekLease weekStart run token leaseSeconds) (fun _ => Ready) L own db := by
  have hs := ready_stable (κ := κ)
  have hset : ∀ seconds, Sets (κ := κ) (expiry seconds >>= fun e => pure (.renew run token e))
      fun w => ∃ e, w = .renew run token e := by
    intro seconds
    rw [expiry, Prog.bind_assoc]
    exact sets_clock fun t => (sets_pure _).weaken fun w hw => ⟨_, hw⟩
  refine wp_reported (fun _ => hs) ?_
  refine Rules.wp_bind (wp_ofExcept hs hr fun _ db₁ _ h₁ => ?_)
  refine Rules.wp_bind (wp_ofExcept hs h₁ fun seconds db₂ _ h₂ => ?_)
  refine Rules.wp_bind (wp_checkToken hs h₂ token fun db₃ h₃ => ?_)
  refine Rules.wp_bind (wp_updateWhere hs h₃ (hset seconds) (fun M db₄ h₄ => ?_) fun M c w now db₄
    h₄ hl₄ _ hm hw => ?_)
  · exact Rules.wp_done hs h₄ fun db₅ h₅ => ⟨h₅, told_refusal rfl⟩
  · obtain ⟨e, rfl⟩ := hw
    simp only [WeekControl.owned, Bool.and_eq_true, decide_eq_true_eq] at hm
    obtain ⟨⟨-, rfl⟩, -⟩ := hm
    refine ⟨(h₄.current hl₄).fenced, fun db₅ h₅ hl₅ _ => ?_⟩
    have hrow : ((view own db₅).apply (.renew run c.fencingToken e)).control = some (c.renew e) := by
      simp [LeaseDb.apply, LeaseDb.update, hl₅.row]
    have hr₅ : Ready M (own ++ [.renew run c.fencingToken e]) db₅ :=
      ⟨fun _ => hl₅.mem, by rw [view_append]; exact h₅.keeps.renew _ _ _⟩
    rw [hrow]
    refine Rules.wp_done (hs.and (told_stable _)) ⟨hr₅, ?_⟩ fun db₆ h₆ => h₆
    exact (h₅.current hl₅).told rfl _

/-- A release, from any state in which the token of the locked row is not below any grant. -/
theorem wp_releaseWeekLease_of (weekStart : Int) {run : Uuid} {token : Int} (hs : (leaseRules κ).Stable P)
    (hp : P L own db) {Q : LeaseDecision → Set Unit → List (LeaseWrite κ) → LeaseDb κ → Prop}
    (hQ : ∀ d, (leaseRules κ).Stable (Q d))
    (hcur : ∀ M c db', P M own db' → Locked (some c) M own db' → Current c M own db')
    (hnone : ∀ M db', P M own db' → Q (refusal weekStart run) M own db')
    (hsome : ∀ M c d db', P M own db' → Locked (some c) M own db' → c.ownerRunId = some run →
      c.fencingToken = token → Q d M (own ++ [.release run token]) db') :
    (leaseRules κ).wp (releaseWeekLease weekStart run token) Q L own db := by
  refine wp_reported hQ ?_
  refine Rules.wp_bind (wp_ofExcept hs hp fun _ db₁ _ h₁ => ?_)
  refine Rules.wp_bind (wp_checkToken hs h₁ token fun db₂ h₂ => ?_)
  refine Rules.wp_bind (wp_updateWhere hs h₂ (sets_pure _) (fun M db₃ h₃ => ?_) fun M c w now db₃ h₃
    hl₃ _ hm hw => ?_)
  · exact Rules.wp_done hs h₃ fun db₄ h₄ => ⟨hnone M db₄ h₄, told_refusal rfl⟩
  · subst hw
    simp only [WeekControl.owned, Bool.and_eq_true, decide_eq_true_eq] at hm
    obtain ⟨ho, rfl⟩ := hm
    refine ⟨(hcur M c db₃ h₃ hl₃).fenced, fun db₄ h₄ hl₄ _ => ?_⟩
    have hrow : ((view own db₄).apply (.release run c.fencingToken)).control = some c.release := by
      simp [LeaseDb.apply, LeaseDb.update, hl₄.row]
    rw [hrow]
    refine Rules.wp_done ((hQ _).and (told_stable _)) ⟨hsome M c _ db₄ h₄ hl₄ ho rfl, ?_⟩ fun db₅ h₅ => h₅
    exact (hcur M c db₄ h₄ hl₄).told rfl _

theorem wp_releaseWeekLease (weekStart : Int) (run : Uuid) (token : Int) (hr : Ready L own db) :
    (leaseRules κ).wp (releaseWeekLease weekStart run token) (fun _ => Ready) L own db := by
  refine wp_releaseWeekLease_of weekStart ready_stable hr (fun _ => ready_stable)
    (fun M c db' h hl => h.current hl) (fun M db' h => h) fun M c d db' h hl _ _ => ⟨fun _ => hl.mem, ?_⟩
  rw [view_append]
  exact h.keeps.release _ _

theorem wp_ensureWeekControl (weekStart : Int) (hr : Ready L own db) :
    (leaseRules κ).wp (ensureWeekControl weekStart) (fun _ => Ready) L own db := by
  have hs := ready_stable (κ := κ)
  have hlast : ∀ (M : Set Unit) (own : List (LeaseWrite κ)) db', Ready M own db' →
      (leaseRules κ).wp (do
        if (← Prog.query (·.control)).isNone then
          Prog.fail ⟨"control_not_found", "week control could not be read after insert"⟩ : Lease κ Unit)
        (fun _ => Ready) M own db' := by
    intro M own db' h'
    refine Rules.wp_bind (Rules.wp_query hs h' fun db₁ db₂ _ h₂ _ _ => ?_)
    split
    · trivial
    · exact Rules.wp_done hs h₂ fun _ h => h
  refine Rules.wp_bind (wp_ofExcept hs hr fun _ db₁ _ h₁ => ?_)
  refine Rules.wp_bind (Rules.wp_query hs h₁ fun db₂ db₃ _ h₃ _ _ => ?_)
  split
  · refine Rules.wp_bind (Rules.wp_acquire hs h₃ fun db₄ h₄ => ?_)
    have hM : () ∈ insert () L := Set.mem_insert _ _
    refine Rules.wp_bind (Rules.wp_query hs h₄ fun db₅ db₆ _ h₆ ha hI₆ => ?_)
    split
    · rename_i hc
      have hl₆ : Locked none (insert () L) own db₆ :=
        (locked_stable none).others ⟨hM, Option.isNone_iff_eq_none.1 hc⟩ ha hI₆
      refine Rules.wp_bind (Rules.wp_put (hs.and (locked_stable none)) ⟨h₆, hl₆⟩ fun db₇ h₇ hI₇ _ => ?_)
      refine ⟨guard_subset hM _, trivial, fun db₈ h₈ _ _ => hlast _ _ db₈ ⟨fun _ => hM, ?_⟩⟩
      rw [view_append]
      exact h₈.1.keeps.ensure h₈.2.row weekStart
    · exact hlast _ _ db₆ h₆
  · exact hlast _ _ db₃ h₃

theorem wp_runForWeek (hs : (leaseRules κ).Stable P) (hp : P L own db) (run : Uuid) (weekStart : Int) :
    (leaseRules κ).wp (runForWeek run weekStart) (fun _ => P) L own db := by
  refine Rules.wp_bind (Rules.wp_query hs hp fun db₁ db₂ _ h₂ _ _ => ?_)
  split
  · trivial
  · split
    · trivial
    · exact Rules.wp_done hs h₂ fun _ h => h

theorem wp_acquireWeekLease (weekStart : Int) (run : Uuid) (leaseSeconds : Int) (hr : Ready L own db) :
    (leaseRules κ).wp (acquireWeekLease weekStart run leaseSeconds) (fun _ => Ready) L own db := by
  have hs := ready_stable (κ := κ)
  have hset : ∀ seconds, Sets (κ := κ) (do
      let acquired ← Prog.query (·.clock)
      let expires ← expiry seconds
      return .grant run acquired expires) fun w => ∃ a e, w = .grant run a e := by
    intro seconds
    refine sets_clock fun a => ?_
    rw [expiry, Prog.bind_assoc]
    exact sets_clock fun t => (sets_pure _).weaken fun w hw => ⟨_, _, hw⟩
  refine wp_reported (fun _ => hs) ?_
  refine Rules.wp_bind (wp_ofExcept hs hr fun _ db₁ _ h₁ => ?_)
  refine Rules.wp_bind (wp_ofExcept hs h₁ fun seconds db₂ _ h₂ => ?_)
  refine Rules.wp_bind (Rules.wp_mono (fun _ M own db₃ h₃ => ?_) (wp_runForWeek hs h₂ run weekStart))
  refine Rules.wp_bind (Rules.wp_mono (fun _ M own db₄ h₄ => ?_) (wp_ensureWeekControl weekStart h₃))
  refine Rules.wp_bind (Rules.wp_bind (wp_selectForUpdate hs h₄ (fun M db₅ h₅ => ?_) fun M c db₅ h₅
    hl₅ => ?_))
  · exact Rules.wp_done hs h₅ fun _ _ => trivial
  have hsl := hs.and (locked_stable (κ := κ) (some c))
  refine Rules.wp_bind (Rules.wp_query hsl ⟨h₅, hl₅⟩ fun db₆ db₇ _ h₇ _ _ => ?_)
  refine Rules.wp_done hsl h₇ fun db₈ h₈ => ?_
  dsimp only
  split
  · refine Rules.wp_done hs h₈.1 fun db₉ h₉ => ⟨h₉, fun db' _ => ⟨fun s hs => by simp at hs, fun hg => ?_⟩⟩
    revert hg
    cases c.owned run <;> simp [LeaseDecision.granted, decision]
  · refine Rules.wp_bind (wp_updateWhere hs h₈.1 (hset seconds) (fun M db₉ h₉ => trivial) ?_)
    rintro M c' w now db₉ h₉ hl₉ hI₉ hm ⟨a, e, rfl⟩
    refine ⟨trivial, fun db' h' hl' _ => ?_⟩
    have hrow : ((view own db').apply (.grant run a e)).control = some (c'.grant run a e) := by
      simp [LeaseDb.apply, LeaseDb.update, hl'.row]
    have hr' : Ready M (own ++ [.grant run a e]) db' :=
      ⟨fun _ => hl'.mem, by rw [view_append]; exact h'.keeps.grant hl'.row _ _ _⟩
    rw [hrow]
    refine Rules.wp_done (hs.and (told_stable _)) ⟨hr', told_locked hl'.mem ⟨fun s hs => by simp at hs,
      fun _ => ?_⟩⟩ fun _ h => h
    refine ⟨c'.fencingToken + 1, rfl, fun g hg => ?_⟩
    have := (h'.current hl').fenced g hg
    omega

/-! ### The protected sequence -/

/-- After `record_valid_publication` and before the release: the release is what the invariant waits for. -/
structure Recorded (c : WeekControl) (run : Uuid) (L : Set Unit) (own : List (LeaseWrite κ))
    (db : LeaseDb κ) :
    Prop where
  locked : Locked (some c) L own db
  keeps : LeaseInv ((view own db).apply (.release run c.fencingToken))

theorem recorded_stable (c : WeekControl) (run : Uuid) : (leaseRules κ).Stable (Recorded c run) where
  others := fun hp ha hI => ⟨(locked_stable _).others hp.locked ha hI,
    hp.keeps.same (((ha hp.locked.mem).applyAll _).apply _)⟩
  locks := fun hL hp => ⟨(locked_stable _).locks hL hp.locked, hp.keeps⟩

theorem Recorded.current {c c' : WeekControl} {run : Uuid} (hp : Recorded c run L own db)
    (hl : Locked (some c') L own db) : Current c' L own db := by
  have hcc : c' = c := by
    have := hl.row.symm.trans hp.locked.row
    exact Option.some.inj this
  refine ⟨hl, fun g hg => ?_⟩
  obtain ⟨d, hd, hle⟩ := hp.keeps.bounded g hg
  simp only [LeaseDb.apply, LeaseDb.update, hp.locked.row, Option.map_some, Option.some.injEq] at hd
  subst hd
  exact hcc ▸ hle

/-- A locked row is there already. -/
theorem wp_ensureWeekControl_locked (weekStart : Int) {c : WeekControl} (hs : (leaseRules κ).Stable P)
    (hp : P L own db) (hl : Locked (some c) L own db) :
    (leaseRules κ).wp (ensureWeekControl weekStart) (fun _ M own' db' =>
        (P M own' db' ∧ Locked (some c) M own' db') ∧
      own' = own) L own db := by
  have hsl := hs.and (locked_stable (κ := κ) (some c))
  have hthere : ∀ {db' : LeaseDb κ}, Locked (some c) L own db' →
      ((leaseTables κ).applyAll db' own).control.isNone = false := by
    intro db' h
    have hrow : ((leaseTables κ).applyAll db' own).control = some c := h.row
    rw [hrow]
    rfl
  refine Rules.wp_bind (wp_ofExcept hsl ⟨hp, hl⟩ fun _ db₁ _ h₁ => ?_)
  refine Rules.wp_bind (Rules.wp_query hsl h₁ fun db₂ db₃ h₂ h₃ _ _ => ?_)
  rw [hthere h₂.2]
  refine Rules.wp_bind (Rules.wp_query hsl h₃ fun db₄ db₅ h₄ h₅ _ _ => ?_)
  rw [hthere h₄.2]
  exact Rules.wp_done hsl h₅ fun _ h => ⟨h, rfl⟩

theorem wp_recordValidPublication (weekStart : Int) {run : Uuid} (p : Publication) {c : WeekControl}
    (ho : c.ownerRunId = some run) (hr : Ready L own db) (hl : Locked (some c) L own db) :
    (leaseRules κ).wp (recordValidPublication weekStart run p) (fun _ => Recorded (c.record run p) run) L
      own db := by
  have hs := ready_stable.and (locked_stable (κ := κ) (some c))
  refine Rules.wp_bind (wp_ofExcept hs ⟨hr, hl⟩ fun _ db₁ _ h₁ => ?_)
  refine Rules.wp_bind (Rules.wp_query hs h₁ fun _ db₂ _ h₂ _ _ => ?_)
  split
  · trivial
  split
  · trivial
  refine Rules.wp_bind (Rules.wp_mono ?_ (wp_ensureWeekControl_locked weekStart hs h₂ h₂.2))
  rintro _ M own' db₃ ⟨⟨h₃, -⟩, rfl⟩
  refine Rules.wp_bind (wp_ofExcept hs h₃ fun _ db₄ _ h₄ => ?_)
  refine Rules.wp_bind (wp_updateWhere hs h₄ (sets_pure _) (fun _ _ _ => trivial) fun M c' w now db₅
    h₅ hl₅ _ _ hw => ?_)
  subst hw
  refine ⟨trivial, fun db₆ h₆ hl₆ _ => ?_⟩
  have hrow : ((view own' db₆).apply (.record run p)).control = some (c.record run p) := by
    simp [LeaseDb.apply, LeaseDb.update, h₆.2.row]
  rw [hrow]
  refine Rules.wp_done (recorded_stable _ _) ⟨⟨h₆.2.mem, by rw [view_append]; exact hrow⟩, ?_⟩ fun _ h => h
  rw [view_append]
  exact h₆.1.keeps.record_release h₆.2.row ho p _

theorem wp_publishProtected (weekStart : Int) (run : Uuid) (token publishedAt : Int)
    (stage : κ → Option (κ × Int))
    (fingerprint rulesVersion : Option String) (hr : Ready L own db) :
    (leaseRules κ).wp (publishProtected weekStart run token publishedAt stage fingerprint rulesVersion)
      (fun _ => Ready) L own db := by
  refine Rules.wp_bind (Rules.wp_mono ?_ (wp_verifyWeekLease weekStart run token hr))
  rintro d M own₁ db₁ ⟨h₁, hv⟩
  split
  · trivial
  rename_i hd
  obtain ⟨c, hl₁, ho, htok⟩ := hv (by simpa using hd)
  have hs := ready_stable.and (locked_stable (κ := κ) (some c))
  refine Rules.wp_bind (Rules.wp_query hs ⟨h₁, hl₁⟩ fun _ db₂ _ h₂ _ _ => ?_)
  split
  · trivial
  · rename_i kpis rows _
    refine Rules.wp_bind (Rules.wp_put hs h₂ fun db₃ h₃ _ _ =>
      ⟨guard_subset h₃.2.mem _, trivial, fun db₄ h₄ _ _ => ?_⟩)
    have hr₄ : Ready M (own₁ ++ [.stage kpis]) db₄ :=
      ⟨fun _ => h₄.2.mem, by rw [view_append]; exact h₄.1.keeps.stage kpis⟩
    have hl₄ : Locked (some c) M (own₁ ++ [.stage kpis]) db₄ :=
      ⟨h₄.2.mem, by rw [view_append]; exact h₄.2.row⟩
    refine Rules.wp_bind (Rules.wp_mono (fun _ M own₅ db₅ h₅ => ?_)
      (wp_recordValidPublication weekStart ⟨publishedAt, rows, fingerprint, rulesVersion⟩ ho hr₄ hl₄))
    have hQ : ∀ d : LeaseDecision, (leaseRules κ).Stable fun M own db => d.status = .released →
        Ready M own db :=
      fun _ => ⟨fun hp ha hI hd => ready_stable.others (hp hd) ha hI, fun hL hp hd =>
          ready_stable.locks hL (hp hd)⟩
    refine Rules.wp_bind (Rules.wp_mono ?_ (wp_releaseWeekLease_of weekStart (recorded_stable _ _) h₅ hQ
      (fun _ _ _ h hl => h.current hl) (fun _ _ _ hd => by cases hd) fun M c' d db₆ h₆ hl₆ _ _ _ => ?_))
    · intro d M own₆ db₆ h₆
      split
      · trivial
      · rename_i hd
        exact Rules.wp_done ready_stable (h₆ (by simpa using hd)) fun _ h => h
    · refine ⟨fun _ => hl₆.mem, ?_⟩
      rw [view_append]
      exact h₆.keeps

/-- Every transaction is safe. -/
theorem transaction_safe {weekStart : Int} {p : Lease κ Unit} (hp : Transaction weekStart p) :
    ∀ {L : Set Unit} {own : List (LeaseWrite κ)} {db : LeaseDb κ}, Ready L own db →
      (leaseRules κ).Safe p L own db := by
  induction hp with
  | stop => exact fun hr => Rules.wp_done ready_stable hr fun _ h => h.keeps
  | acquire run seconds next _ ih =>
    exact fun hr => Rules.wp_bind (Rules.wp_mono (fun d _ _ _ h => ih d h)
      (wp_acquireWeekLease weekStart run seconds hr))
  | verify run token next _ ih =>
    exact fun hr => Rules.wp_bind (Rules.wp_mono (fun d _ _ _ h => ih d h.1)
      (wp_verifyWeekLease weekStart run token hr))
  | renew run token seconds next _ ih =>
    exact fun hr => Rules.wp_bind
      (Rules.wp_mono (fun d _ _ _ h => ih d h) (wp_renewWeekLease weekStart run token seconds hr))
  | release run token next _ ih =>
    exact fun hr => Rules.wp_bind (Rules.wp_mono (fun d _ _ _ h => ih d h)
      (wp_releaseWeekLease weekStart run token hr))
  | publish run token publishedAt stage fingerprint rulesVersion next _ ih =>
    exact fun hr => Rules.wp_bind (Rules.wp_mono (fun u _ _ _ h => ih u h)
      (wp_publishProtected weekStart run token publishedAt stage fingerprint rulesVersion hr))

end Statements

/-! ## Every reachable state -/

section Reached

variable {Cl : Type} [DecidableEq Cl]

/-- Nothing was granted or published yet. -/
structure LeaseDb.Fresh (db : LeaseDb κ) : Prop where
  grants : db.grants = []
  publications : db.publications = []
  free : ∀ c, db.control = some c → c.ownerRunId = none

theorem LeaseDb.Fresh.inv {db : LeaseDb κ} (h : db.Fresh) : LeaseInv db := by
  obtain ⟨hg, hp, hf⟩ := h
  refine ⟨by simp [hg], by simp [hg], fun c r hc hr => ?_, by simp [hp], by simp [hp]⟩
  rw [hf c hc] at hr
  cases hr

/-- The states of the control row of one week under interleaved transactions. -/
abbrev LeaseSystem (Cl κ : Type) : Type :=
  System Cl (LeaseDb κ) (LeaseWrite κ) Unit LeaseNote CodedError Unit

/-- One step of some transaction, or of the clock. -/
abbrev LeaseStep (weekStart : Int) (σ : LeaseSystem Cl κ) (l : Label Cl (LeaseWrite κ) LeaseNote Unit)
    (σ' : LeaseSystem Cl κ) : Prop := Step (leaseTables κ) (Transaction weekStart) σ l σ'

/-- What mutual exclusion and fencing say of a state: of its history, and of all that can happen from it. -/
structure Exclusive (weekStart : Int) (σ : LeaseSystem Cl κ) : Prop where
  /-- The tokens of the committed grants strictly increase. -/
  increasing : σ.db.grants.Pairwise fun g h => g.1 < h.1
  /-- A token was granted to one run. -/
  one_run : ∀ t r r', (t, r) ∈ σ.db.grants → (t, r') ∈ σ.db.grants → r = r'
  /-- At most one run and token can verify, and they are those of the last grant. -/
  one_holder : ∀ c r t now, σ.db.control = some c → c.verifies r t now = true →
    ((t, r) ∈ σ.db.grants ∧ ∀ g ∈ σ.db.grants, g.1 ≤ t) ∧ ∀ r' t' now', c.verifies r' t' now' =
      true → r' = r ∧ t' = t
  /-- Whatever happens, a committed grant stays, no call that presents a smaller token is answered
  but by a rejection, and no renewal or release is written for one. -/
  fenced : ∀ σ' : LeaseSystem Cl κ, Relation.ReflTransGen (fun a b => ∃ l, LeaseStep weekStart a l b) σ σ' →
    σ.db.grants <+: σ'.db.grants ∧ ∀ g ∈ σ.db.grants, ∀ l σ'', LeaseStep weekStart σ' l σ'' →
      (∀ i n s, l = .note i n → n.presented = some s → s < g.1 → n.decision.status = .rejected) ∧
      (∀ i run s e, s < g.1 → l ≠ .write i (.renew run s e) ∧ l ≠ .write i (.release run s))
  /-- At most one publication committed under a grant, and none without one. -/
  one_publication : (σ.db.publications.map Prod.fst).Nodup ∧ ∀ p ∈ σ.db.publications, p ∈ σ.db.grants

theorem verifies_iff {c : WeekControl} {r : Uuid} {t now : Int} :
    c.verifies r t now = true ↔ c.ownerRunId = some r ∧ c.fencingToken = t ∧ c.unexpired now = true := by
  simp [WeekControl.verifies, WeekControl.owned, and_assoc]

theorem grants_step {weekStart : Int} {σ σ' : LeaseSystem Cl κ} {l : Label Cl (LeaseWrite κ) LeaseNote Unit}
    (h : LeaseStep weekStart σ l σ') : σ.db.grants <+: σ'.db.grants := by
  cases h with
  | start => exact List.prefix_rfl
  | lock => exact List.prefix_rfl
  | read => exact List.prefix_rfl
  | write => exact List.prefix_rfl
  | note => exact List.prefix_rfl
  | @commit i own a hi => exact grants_view own _
  | rollback => exact List.prefix_rfl
  | world hw =>
    obtain ⟨clock, runs, -, -, rfl⟩ := hw
    exact List.prefix_rfl

theorem LeaseInv.one_run {db : LeaseDb κ} (hI : LeaseInv db) {t : Int} {r r' : Uuid}
    (h : (t, r) ∈ db.grants) (h' : (t, r') ∈ db.grants) : r = r' := by
  have hnodup : (db.grants.map Prod.fst).Nodup := by
    rw [List.Nodup, List.pairwise_map]
    exact hI.increasing.imp fun h => ne_of_lt h
  exact congrArg Prod.snd (List.inj_on_of_nodup_map hnodup h h' rfl)

/-- **Mutual exclusion and fencing** of the week lease, under any interleaving of transactions. -/
theorem week_lease_exclusive {weekStart : Int} {db₀ : LeaseDb κ} (h₀ : db₀.Fresh) {σ : LeaseSystem Cl κ}
    (h : Reachable (leaseTables κ) (Transaction weekStart) db₀ σ) : Exclusive weekStart σ := by
  have hRuns : ∀ p : Lease κ Unit, Transaction weekStart p → ∀ db, (leaseRules κ).Safe p ∅ [] db := by
    intro p hp db
    refine Rules.wp_start fun db' _ hI => transaction_safe hp ⟨fun h => absurd rfl h, hI⟩
  have hI := (Rules.sound hRuns h₀.inv h).inv
  refine ⟨hI.increasing, fun t r r' => hI.one_run, fun c r t now hc hv => ?_, fun σ' hσ' => ?_,
    hI.once, hI.published⟩
  · obtain ⟨ho, rfl, -⟩ := verifies_iff.1 hv
    refine ⟨⟨(hI.owner c r hc ho).1, fun g hg => ?_⟩, fun r' t' now' hv' => ?_⟩
    · obtain ⟨c', hc', hle⟩ := hI.bounded g hg
      rw [hc, Option.some.injEq] at hc'
      exact hc' ▸ hle
    · obtain ⟨ho', rfl, -⟩ := verifies_iff.1 hv'
      rw [ho, Option.some.injEq] at ho'
      exact ⟨ho'.symm, rfl⟩
  · have hreach : Reachable (leaseTables κ) (Transaction weekStart) db₀ σ' ∧
        σ.db.grants <+: σ'.db.grants := by
      induction hσ' with
      | refl => exact ⟨h, List.prefix_rfl⟩
      | tail _ hstep ih =>
        obtain ⟨l, hstep⟩ := hstep
        exact ⟨ih.1.step hstep, ih.2.trans (grants_step hstep)⟩
    refine ⟨hreach.2, fun g hg l σ'' hl => ⟨?_, ?_⟩⟩
    · rintro i n s rfl hs hlt
      have ht := (Rules.note_sound hRuns h₀.inv hreach.1 hl).1 s hs
      by_contra hne
      have := ht hne g (hreach.2.subset hg)
      omega
    · intro i run s e hlt
      constructor
      · rintro rfl
        have := Rules.write_sound hRuns h₀.inv hreach.1 hl g (hreach.2.subset hg)
        omega
      · rintro rfl
        have := Rules.write_sound hRuns h₀.inv hreach.1 hl g (hreach.2.subset hg)
        omega

end Reached

end Fencing

/-- A grant that committed, in the life of the week that begins on 1970-01-05. -/
theorem week_lease_exclusive_granted :
    ∃ σ : LeaseSystem Bool Unit, σ.db.grants = [(1, Uuid.ofNat 7)] ∧ Exclusive 4 σ := by
  let db₀ : LeaseDb Unit := ⟨0, fun _ => some 4, none, (), [], []⟩
  let p : Lease Unit Unit := acquireWeekLease 4 (Uuid.ofNat 7) 60 >>= fun _ => pure ()
  have hp : Transaction 4 p := .acquire _ _ _ fun _ => .stop
  obtain ⟨db, hdb⟩ : ∃ db, run (leaseTables Unit).toSchema p none db₀ = (.ok (), db) ∧
      db.grants = [(1, Uuid.ofNat 7)] :=
    ⟨_, rfl, rfl⟩
  have h₀ : db₀.Fresh := ⟨rfl, rfl, fun c hc => by cases hc⟩
  exact ⟨System.idle db, hdb.2, week_lease_exclusive h₀ (run_reachable true hp .idle hdb.1)⟩

end TrackFlow.Pipelines
