import TrackFlow.ReadCommitted.Program

/-!
# Interleaved transactions under READ COMMITTED

Any number of clients run programs on one database. Each statement sees the rows committed when it
starts and its own writes; row locks are held to the end of the transaction; a write whose unique
key an open transaction has used waits; a transaction can be lost at any point, which rolls it back.

`Rules` names what a proof about the interleavings needs: an invariant of the committed database,
the part of it that a set of held locks protects (`agree`), and the locks each write is made under.
`wp` is the proof obligation of one program, over a database that others may change outside the
protected part, with the rules `wp_bind` and `wp_mono`; `Safe` is that obligation for a whole
transaction, and `Rules.sound` turns it into an invariant of every reachable state, and
`note_sound`, `write_sound`, `own_sound`, `commit_sound` into facts about every result a client is
given, every write it makes and every COMMIT. `run_reachable` places the transactions of one client after another among the
interleavings.
-/

namespace TrackFlow.ReadCommitted

variable {Cl Db W K O E α β : Type}

/-- An open transaction: the writes made so far and what comes next. -/
structure Session (Db W K O E α : Type) where
  own : List W
  prog : Prog Db W K O E α

/-- The committed database, the holders of the row locks, and the open transactions. -/
structure System (Cl Db W K O E α : Type) where
  db : Db
  locks : K → Option Cl
  open_ : Cl → Option (Session Db W K O E α)

/-- What a step of the system was. -/
inductive Label (Cl W O α : Type)
  | start (i : Cl)
  | lock (i : Cl)
  | read (i : Cl)
  | write (i : Cl) (w : W)
  | note (i : Cl) (o : O)
  | commit (i : Cl) (a : α) (own : List W)
  | rollback (i : Cl)
  | world

/-- The tables of a shared database: unique keys on which two open transactions collide, and what
changes without any transaction (the clock). -/
structure Shared (Db W : Type) extends Schema Db W where
  clash : W → W → Prop
  world : Db → Db → Prop

/-! ## Locks -/

/-- The locks of client `i`. -/
def System.held (σ : System Cl Db W K O E α) (i : Cl) : Set K := {k | σ.locks k = some i}

theorem held_disjoint (σ : System Cl Db W K O E α) {i j : Cl} (h : i ≠ j) :
    Disjoint (σ.held i) (σ.held j) := by
  rw [Set.disjoint_left]
  intro k hi hj
  simp only [System.held, Set.mem_ofPred_eq] at hi hj
  rw [hi] at hj
  exact h (Option.some.inj hj)

section Locks

variable [DecidableEq Cl]

/-- Releasing every lock of `i`. -/
def release (i : Cl) (locks : K → Option Cl) : K → Option Cl :=
  fun k => if locks k = some i then none else locks k

theorem held_release (locks : K → Option Cl) (i j : Cl) :
    {k | release i locks k = some j} = if j = i then ∅ else {k | locks k = some j} := by
  ext k
  by_cases hji : j = i
  · subst hji
    simp only [release, Set.mem_ofPred_eq, if_pos, Set.mem_empty_iff_false, iff_false]
    split
    · simp
    · assumption
  · simp only [release, Set.mem_ofPred_eq, if_neg hji]
    split
    · rename_i h
      simp [h, Ne.symm hji]
    · rfl

end Locks

/-! ## Steps -/

section Steps

variable [DecidableEq Cl] [DecidableEq K]

/-- One step; `Runs` says which programs clients start. -/
inductive Step (S : Shared Db W) (Runs : Prog Db W K O E α → Prop) :
    System Cl Db W K O E α → Label Cl W O α → System Cl Db W K O E α → Prop
  | start {σ i p} : σ.open_ i = none → Runs p →
      Step S Runs σ (.start i) { σ with open_ := Function.update σ.open_ i (some ⟨[], p⟩) }
  | lock {σ i own k p} : σ.open_ i = some ⟨own, .lock k p⟩ → (σ.locks k = none ∨ σ.locks k = some i) →
      Step S Runs σ (.lock i)
        { σ with locks := Function.update σ.locks k (some i), open_ := Function.update σ.open_ i (some ⟨own, p⟩) }
  | read {σ i own p} : σ.open_ i = some ⟨own, .read p⟩ →
      Step S Runs σ (.read i)
        { σ with open_ := Function.update σ.open_ i (some ⟨own, p (S.applyAll σ.db own)⟩) }
  | write {σ i own w p} : σ.open_ i = some ⟨own, .write w p⟩ → S.accepts (S.applyAll σ.db own) w = true →
      (∀ j s, j ≠ i → σ.open_ j = some s → ∀ v ∈ s.own, ¬S.clash v w) →
      Step S Runs σ (.write i w) { σ with open_ := Function.update σ.open_ i (some ⟨own ++ [w], p⟩) }
  | note {σ i own o p} : σ.open_ i = some ⟨own, .note o p⟩ →
      Step S Runs σ (.note i o) { σ with open_ := Function.update σ.open_ i (some ⟨own, p⟩) }
  | commit {σ i own a} : σ.open_ i = some ⟨own, .done a⟩ →
      Step S Runs σ (.commit i a own)
        { db := S.applyAll σ.db own, locks := release i σ.locks, open_ := Function.update σ.open_ i none }
  | rollback {σ i s} : σ.open_ i = some s →
      Step S Runs σ (.rollback i)
        { σ with locks := release i σ.locks, open_ := Function.update σ.open_ i none }
  | world {σ db'} : S.world σ.db db' → Step S Runs σ .world { σ with db := db' }

/-- Nobody holds a lock and no transaction is open. -/
def System.idle (db : Db) : System Cl Db W K O E α := ⟨db, fun _ => none, fun _ => none⟩

/-- The states that interleavings reach from an idle system on `db₀`. -/
inductive Reachable (S : Shared Db W) (Runs : Prog Db W K O E α → Prop) (db₀ : Db) :
    System Cl Db W K O E α → Prop
  | idle : Reachable S Runs db₀ (System.idle db₀)
  | step {σ l σ'} : Reachable S Runs db₀ σ → Step S Runs σ l σ' → Reachable S Runs db₀ σ'

/-- Some steps later. -/
def Later (S : Shared Db W) (Runs : Prog Db W K O E α → Prop) :
    System Cl Db W K O E α → System Cl Db W K O E α → Prop :=
  Relation.ReflTransGen fun σ σ' => ∃ l, Step S Runs σ l σ'

theorem Reachable.later {S : Shared Db W} {Runs : Prog Db W K O E α → Prop} {db₀ : Db}
    {σ σ' : System Cl Db W K O E α} (h : Reachable S Runs db₀ σ) (hlater : Later S Runs σ σ') :
    Reachable S Runs db₀ σ' := by
  induction hlater with
  | refl => exact h
  | tail _ hs ih =>
    obtain ⟨l, hs⟩ := hs
    exact ih.step hs

/-- What an idle system reaches comes later. -/
theorem Reachable.from_idle {S : Shared Db W} {Runs : Prog Db W K O E α → Prop} {db₀ : Db}
    {σ : System Cl Db W K O E α} (h : Reachable S Runs db₀ σ) : Later S Runs (System.idle db₀) σ := by
  induction h with
  | idle => exact Relation.ReflTransGen.refl
  | step _ hs ih => exact ih.tail ⟨_, hs⟩

end Steps

/-! ## One transaction after another -/

section Serial

variable [DecidableEq Cl] [DecidableEq K] {S : Shared Db W} {Runs : Prog Db W K O E α → Prop} {db₀ : Db}

/-- A system in which only client `i` is at work. -/
def System.only (i : Cl) (db : Db) (locks : K → Option Cl) (s : Session Db W K O E α) :
    System Cl Db W K O E α :=
  ⟨db, locks, Function.update (fun _ => none) i (some s)⟩

omit [DecidableEq K] in
theorem release_own {i : Cl} {locks : K → Option Cl} (h : ∀ k, locks k = none ∨ locks k = some i) :
    release i locks = fun _ => none := by
  funext k
  rcases h k with h | h <;> simp [release, h]

/-- The only client at work can bring a program that ends normally to its COMMIT. -/
theorem commits (i : Cl) (p : Prog Db W K O E α) {db db' : Db} {a : α} : ∀ (locks : K → Option Cl)
    (own : List W),
    (∀ k, locks k = none ∨ locks k = some i) → Reachable S Runs db₀ (System.only i db locks ⟨own, p⟩) →
    eval S.toSchema p (S.applyAll db own) = .ok (a, db') →
    ∃ σ own', Reachable S Runs db₀ σ ∧ σ.db = db ∧
      Step S Runs σ (.commit i a own') (System.idle db' : System Cl Db W K O E α) := by
  have hself : ∀ {locks : K → Option Cl} {s : Session Db W K O E α},
      (System.only i db locks s).open_ i = some s := by simp [System.only]
  have hmove : ∀ {s t : Session Db W K O E α}, Function.update
      (Function.update (fun _ => none) i (some s)) i (some t) =
      Function.update (fun _ => none) i (some t) := by simp
  induction p with
  | done b =>
    intro locks own hl hr he
    simp only [eval, Except.ok.injEq, Prod.mk.injEq] at he
    obtain ⟨rfl, rfl⟩ := he
    have hs : Step S Runs (System.only i db locks ⟨own, .done b⟩) (.commit i b own) _ := Step.commit hself
    refine ⟨_, own, hr, rfl, ?_⟩
    simpa [System.only, System.idle, release_own hl] using hs
  | raise e => intro locks own _ _ he; cases he
  | lock k p ih =>
    intro locks own hl hr he
    have hs := hr.step (Step.lock hself (hl k))
    refine ih (Function.update locks k (some i)) own (fun k' => ?_) ?_ he
    · by_cases hk : k' = k
      · simp [hk]
      · simpa [hk] using hl k'
    · simpa only [System.only, hmove] using hs
  | read p ih =>
    intro locks own hl hr he
    exact ih _ locks own hl (by simpa only [System.only, hmove] using hr.step (Step.read hself)) he
  | write w p ih =>
    intro locks own hl hr he
    obtain ⟨hacc, he⟩ := eval_write_ok he
    have hs := hr.step (Step.write hself hacc fun j s hj hs => by simp [System.only, hj] at hs)
    refine ih locks (own ++ [w]) hl (by simpa only [System.only, hmove] using hs) ?_
    rw [S.applyAll_append]
    exact he
  | note o p ih =>
    intro locks own hl hr he
    exact ih locks own hl (by simpa only [System.only, hmove] using hr.step (Step.note hself)) he

/-- The last step of a transaction that runs alone. -/
theorem eval_commits (i : Cl) {p : Prog Db W K O E α} (hp : Runs p) {db db' : Db} {a : α}
    (hr : Reachable S Runs db₀ (System.idle db : System Cl Db W K O E α))
    (h : eval S.toSchema p db = .ok (a, db')) :
    ∃ σ own, Reachable S Runs db₀ σ ∧ σ.db = db ∧
      Step S Runs σ (.commit i a own) (System.idle db' : System Cl Db W K O E α) :=
  commits i p (fun _ => none) [] (fun _ => Or.inl rfl) (hr.step (Step.start (i := i) rfl hp)) h

/-- A transaction that runs alone, from beginning to end, is a way to move the idle system. -/
theorem run_reachable (i : Cl) {p : Prog Db W K O E α} (hp : Runs p) {c : Option Nat} {db db' : Db}
    {r : Except (Failure E) α} (hr : Reachable S Runs db₀ (System.idle db : System Cl Db W K O E α))
    (h : run S.toSchema p c db = (r, db')) :
    Reachable S Runs db₀ (System.idle db' : System Cl Db W K O E α) := by
  cases r with
  | error e => rw [run_error h]; exact hr
  | ok a =>
    obtain ⟨σ, own, hσ, -, hs⟩ := eval_commits i hp hr (run_ok h)
    exact hσ.step hs

end Serial

/-! ## Proof rules -/

/-- An invariant of the committed database, what writes and reported results promise about it, and
what the holder of a set of locks can rely on. -/
structure Rules (S : Shared Db W) (K O : Type) where
  Inv : Db → Prop
  made : Db → W → Prop
  told : Db → O → Prop
  agree : Set K → Db → Db → Prop
  guard : W → Set K
  refl : ∀ L db, agree L db db
  trans : ∀ {L a b c}, agree L a b → agree L b c → agree L a c
  mono : ∀ {L M a b}, L ⊆ M → agree M a b → agree L a b
  /-- A write made under locks that are not in `L` leaves what `L` protects. -/
  frame : ∀ {L db w}, Disjoint (guard w) L → agree L db (S.apply db w)
  world_agree : ∀ {L db db'}, S.world db db' → agree L db db'
  world_inv : ∀ {db db'}, S.world db db' → Inv db → Inv db'

namespace Rules

variable {S : Shared Db W} (R : Rules S K O)

/-- Writes made under locks of `M` leave what a disjoint `L` protects. -/
theorem frame_all {L M : Set K} (h : Disjoint M L) :
    ∀ {ws : List W} {db : Db}, (∀ w ∈ ws, R.guard w ⊆ M) → R.agree L db (S.applyAll db ws)
  | [], db, _ => R.refl L db
  | w :: ws, db, hw => by
    exact R.trans (R.frame (h.mono_left (hw w (by simp)))) (frame_all h fun v hv => hw v (by simp [hv]))

/-- `p` runs with the locks `L` and the writes `own` on a database that is `db` as far as `L`
protects it: its writes are made under their locks, its writes and reports are as promised, and `Q`
holds where it ends normally. -/
def wp : Prog Db W K O E α → (α → Set K → List W → Db → Prop) → Set K → List W → Db → Prop
  | .done a, Q, L, own, db => ∀ db', R.agree L db db' → R.Inv db' → Q a L own db'
  | .raise _, _, _, _, _ => True
  | .lock k p, Q, L, own, db => ∀ db', R.agree L db db' → R.Inv db' → wp p Q (insert k L) own db'
  | .read p, Q, L, own, db => ∀ db', R.agree L db db' → R.Inv db' → wp (p (S.applyAll db' own)) Q L own db'
  | .write w p, Q, L, own, db =>
      ∀ db', R.agree L db db' → R.Inv db' → S.accepts (S.applyAll db' own) w = true →
      R.guard w ⊆ L ∧ R.made db' w ∧ wp p Q L (own ++ [w]) db'
  | .note o p, Q, L, own, db => ∀ db', R.agree L db db' → R.Inv db' → R.told db' o ∧ wp p Q L own db'

/-- The writes of the transaction, if it commits now, keep the invariant. -/
def Keeps (own : List W) (db : Db) : Prop := R.Inv (S.applyAll db own)

/-- `p` keeps its promises, and the invariant when it commits. -/
def Safe (p : Prog Db W K O E α) (L : Set K) (own : List W) (db : Db) : Prop :=
  R.wp p (fun _ _ own db => R.Keeps own db) L own db

section Wp

variable {R} {Q Q' : α → Set K → List W → Db → Prop} {L M : Set K} {own : List W} {db db' : Db}

theorem wp_fail (e : E) : R.wp (Prog.fail e : Prog Db W K O E α) Q L own db := trivial

/-- What others do outside the protected part does not matter. -/
theorem wp_others {p : Prog Db W K O E α} (h : R.wp p Q L own db) (ha : R.agree L db db') :
    R.wp p Q L own db' := by
  cases p with
  | raise e => trivial
  | done a => exact fun db'' h' => h db'' (R.trans ha h')
  | lock k p => exact fun db'' h' => h db'' (R.trans ha h')
  | read p => exact fun db'' h' => h db'' (R.trans ha h')
  | write w p => exact fun db'' h' => h db'' (R.trans ha h')
  | note o p => exact fun db'' h' => h db'' (R.trans ha h')

/-- A program may be examined on every database that it can start on. -/
theorem wp_start {p : Prog Db W K O E α} (h : ∀ db', R.agree L db db' → R.Inv db' → R.wp p Q L own db') :
    R.wp p Q L own db := by
  cases p with
  | raise e => trivial
  | done a => exact fun db' ha hI => h db' ha hI db' (R.refl _ _) hI
  | lock k p => exact fun db' ha hI => h db' ha hI db' (R.refl _ _) hI
  | read p => exact fun db' ha hI => h db' ha hI db' (R.refl _ _) hI
  | write w p => exact fun db' ha hI => h db' ha hI db' (R.refl _ _) hI
  | note o p => exact fun db' ha hI => h db' ha hI db' (R.refl _ _) hI

/-- Sequencing. -/
theorem wp_bind {p : Prog Db W K O E α} {f : α → Prog Db W K O E β} {Q : β → Set K → List W → Db → Prop}
    (h : R.wp p (fun a => R.wp (f a) Q) L own db) : R.wp (p >>= f) Q L own db := by
  show R.wp (Prog.bind p f) Q L own db
  induction p generalizing L own db with
  | done a => exact wp_start h
  | raise e => trivial
  | lock k p ih => exact fun db' ha hI => ih (h db' ha hI)
  | read p ih => exact fun db' ha hI => ih _ (h db' ha hI)
  | write w p ih =>
    intro db' ha hI hw
    obtain ⟨hg, hm, hp⟩ := h db' ha hI hw
    exact ⟨hg, hm, ih hp⟩
  | note o p ih => exact fun db' ha hI => ⟨(h db' ha hI).1, ih (h db' ha hI).2⟩

/-- Consequence. -/
theorem wp_mono {p : Prog Db W K O E α} (hQ : ∀ a L own db, Q a L own db → Q' a L own db)
    (h : R.wp p Q L own db) : R.wp p Q' L own db := by
  induction p generalizing L own db with
  | done a => exact fun db' ha hI => hQ _ _ _ _ (h db' ha hI)
  | raise e => trivial
  | lock k p ih => exact fun db' ha hI => ih (h db' ha hI)
  | read p ih => exact fun db' ha hI => ih _ (h db' ha hI)
  | write w p ih =>
    intro db' ha hI hw
    obtain ⟨hg, hm, hp⟩ := h db' ha hI hw
    exact ⟨hg, hm, ih hp⟩
  | note o p ih => exact fun db' ha hI => ⟨(h db' ha hI).1, ih (h db' ha hI).2⟩

variable (R) in
/-- An assertion that others cannot break and that survives the taking of locks. -/
structure Stable (P : Set K → List W → Db → Prop) : Prop where
  others : ∀ {L own db db'}, P L own db → R.agree L db db' → R.Inv db' → P L own db'
  locks : ∀ {L M own db}, L ⊆ M → P L own db → P M own db

variable {P P' : Set K → List W → Db → Prop}

theorem Stable.and (h : Stable R P) (h' : Stable R P') :
    Stable R fun L own db => P L own db ∧ P' L own db :=
  ⟨fun hp ha hI => ⟨h.others hp.1 ha hI, h'.others hp.2 ha hI⟩, fun hL hp =>
      ⟨h.locks hL hp.1, h'.locks hL hp.2⟩⟩

theorem wp_done (hs : Stable R P) (hp : P L own db) {a : α} (h : ∀ db', P L own db' → Q a L own db') :
    R.wp (pure a : Prog Db W K O E α) Q L own db := fun db' ha hI => h db' (hs.others hp ha hI)

/-- A `SELECT`: its value belongs to an earlier moment than what follows. -/
theorem wp_query (hs : Stable R P) (hp : P L own db) {f : Db → α}
    (h : ∀ db₁ db₂, P L own db₁ → P L own db₂ → R.agree L db₁ db₂ → R.Inv db₂ →
      Q (f (S.applyAll db₁ own)) L own db₂) :
    R.wp (Prog.query f : Prog Db W K O E α) Q L own db := fun db₁ h₁ hI₁ db₂ h₂ hI₂ =>
  h db₁ db₂ (hs.others hp h₁ hI₁) (hs.others (hs.others hp h₁ hI₁) h₂ hI₂) h₂ hI₂

theorem wp_acquire (hs : Stable R P) (hp : P L own db) {k : K} {Q : Unit → Set K → List W → Db → Prop}
    (h : ∀ db', P (insert k L) own db' → Q () (insert k L) own db') :
    R.wp (Prog.acquire k : Prog Db W K O E Unit) Q L own db := by
  intro db₁ h₁ hI₁ db₂ h₂ hI₂
  exact h db₂ (hs.others (hs.locks (Set.subset_insert k L) (hs.others hp h₁ hI₁)) h₂ hI₂)

theorem wp_put (hs : Stable R P) (hp : P L own db) {w : W} {Q : Unit → Set K → List W → Db → Prop}
    (h : ∀ db', P L own db' → R.Inv db' → S.accepts (S.applyAll db' own) w = true → R.guard w ⊆ L ∧
      R.made db' w ∧ ∀ db'', P L own db'' → R.agree L db' db'' → R.Inv db'' → Q () L (own ++ [w]) db'') :
    R.wp (Prog.put w : Prog Db W K O E Unit) Q L own db := by
  intro db₁ h₁ hI₁ hw
  have hp₁ := hs.others hp h₁ hI₁
  obtain ⟨hg, hm, hq⟩ := h db₁ hp₁ hI₁ hw
  exact ⟨hg, hm, fun db₂ h₂ hI₂ => hq db₂ (hs.others hp₁ h₂ hI₂) h₂ hI₂⟩

theorem wp_report (hs : Stable R P) (hp : P L own db) {o : O} {Q : Unit → Set K → List W → Db → Prop}
    (h : ∀ db', P L own db' → R.Inv db' → R.told db' o ∧ ∀ db'', P L own db'' → Q () L own db'') :
    R.wp (Prog.report o : Prog Db W K O E Unit) Q L own db := by
  intro db₁ h₁ hI₁
  have hp₁ := hs.others hp h₁ hI₁
  exact ⟨(h db₁ hp₁ hI₁).1, fun db₂ h₂ hI₂ => (h db₁ hp₁ hI₁).2 db₂ (hs.others hp₁ h₂ hI₂)⟩

/-- More locks protect more. -/
theorem wp_locks {p : Prog Db W K O E α} (hQ : ∀ a L M own db, L ⊆ M → Q a L own db → Q a M own db)
    (hLM : L ⊆ M) (h : R.wp p Q L own db) : R.wp p Q M own db := by
  induction p generalizing L M own db with
  | done a => exact fun db' ha hI => hQ a L M own db' hLM (h db' (R.mono hLM ha) hI)
  | raise e => trivial
  | lock k p ih => exact fun db' ha hI => ih (Set.insert_subset_insert hLM) (h db' (R.mono hLM ha) hI)
  | read p ih => exact fun db' ha hI => ih _ hLM (h db' (R.mono hLM ha) hI)
  | write w p ih =>
    intro db' ha hI hw
    obtain ⟨hg, hm, hp⟩ := h db' (R.mono hLM ha) hI hw
    exact ⟨hg.trans hLM, hm, ih hLM hp⟩
  | note o p ih =>
    exact fun db' ha hI => ⟨(h db' (R.mono hLM ha) hI).1, ih hLM (h db' (R.mono hLM ha) hI).2⟩

end Wp

/-- What a program answers makes no difference to its safety. -/
theorem Safe.answer {γ : Type} {p : Prog Db W K O E α} {f : α → β} {g : α → γ} {L : Set K} {own : List W}
    {db : Db} (h : R.Safe (p >>= fun a => pure (f a)) L own db) :
    R.Safe (p >>= fun a => pure (g a)) L own db := by
  induction p generalizing L own db with
  | done a => exact h
  | raise e => trivial
  | lock k p ih => exact fun db' ha hI => ih (h db' ha hI)
  | read p ih => exact fun db' ha hI => ih _ (h db' ha hI)
  | write w p ih =>
    intro db' ha hI hw
    obtain ⟨hg, hm, hp⟩ := h db' ha hI hw
    exact ⟨hg, hm, ih hp⟩
  | note o p ih => exact fun db' ha hI => ⟨(h db' ha hI).1, ih (h db' ha hI).2⟩

variable {R}

variable (R) in
/-- What every reachable state satisfies, when `Q` holds at the end of each transaction. -/
structure Good (Q : α → Set K → List W → Db → Prop) (σ : System Cl Db W K O E α) : Prop where
  inv : R.Inv σ.db
  safe : ∀ i s, σ.open_ i = some s → R.wp s.prog Q (σ.held i) s.own σ.db
  guarded : ∀ i s, σ.open_ i = some s → ∀ w ∈ s.own, R.guard w ⊆ σ.held i

section Sound

variable [DecidableEq Cl] [DecidableEq K] {Runs : Prog Db W K O E α → Prop}
  {Q : α → Set K → List W → Db → Prop}

omit [DecidableEq K] in
/-- A step that only moves client `i` along its program. -/
theorem Good.advance {σ : System Cl Db W K O E α} (hg : Good R Q σ) {i : Cl} {s : Session Db W K O E α}
    (hs : R.wp s.prog Q (σ.held i) s.own σ.db) (hw : ∀ w ∈ s.own, R.guard w ⊆ σ.held i) :
    Good R Q { σ with open_ := Function.update σ.open_ i (some s) } := by
  refine ⟨hg.inv, fun j t hj => ?_, fun j t hj => ?_⟩
  all_goals
    by_cases hji : j = i
    · subst hji
      simp only [Function.update_self, Option.some.injEq] at hj
      subst hj
      assumption
    · simp only [Function.update_of_ne hji] at hj
      first | exact hg.safe j t hj | exact hg.guarded j t hj

omit [DecidableEq K] in
/-- The transaction of `i` ends and the database is now `db'`, which the others cannot tell from the
old one. -/
theorem Good.leave {σ : System Cl Db W K O E α} (hg : Good R Q σ) {i : Cl} {db' : Db} (hI : R.Inv db')
    (ha : ∀ j, j ≠ i → R.agree (σ.held j) σ.db db') :
    Good R Q { db := db', locks := release i σ.locks, open_ := Function.update σ.open_ i none } := by
  refine ⟨hI, fun j t hj => ?_, fun j t hj => ?_⟩
  all_goals
    by_cases hji : j = i
    · subst hji
      simp at hj
    · simp only [Function.update_of_ne hji] at hj
      simp only [System.held, held_release, if_neg hji]
      first | exact wp_others (hg.safe j t hj) (ha j hji) | exact hg.guarded j t hj

theorem Good.step (hQ : ∀ a L M own db, L ⊆ M → Q a L own db → Q a M own db)
    (hkeeps : ∀ a L own db, Q a L own db → R.Keeps own db) (hRuns : ∀ p, Runs p → ∀ db, R.wp p Q ∅ [] db)
    {σ σ' : System Cl Db W K O E α} {l : Label Cl W O α} (hg : Good R Q σ) (h : Step S Runs σ l σ') : Good R Q σ' := by
  cases h with
  | @start i p hi hp =>
    exact hg.advance (wp_locks hQ (Set.empty_subset _) (hRuns p hp σ.db)) (by simp)
  | @lock i own k p hi hk =>
    have hsafe := hg.safe i _ hi
    have hheld : ∀ j, {k' | Function.update σ.locks k (some i) k' = some j} =
        if j = i then insert k (σ.held i) else σ.held j := by
      intro j
      ext k'
      by_cases hk' : k' = k
      · subst hk'
        by_cases hji : j = i
        · simp [hji]
        · have hij : i ≠ j := fun e => hji e.symm
          rcases hk with hk | hk <;> simp [System.held, hji, hij, hk]
      · by_cases hji : j = i <;> simp [System.held, hk', hji]
    refine ⟨hg.inv, fun j t hj => ?_, fun j t hj => ?_⟩
    all_goals
      simp only [System.held, hheld]
      by_cases hji : j = i
      · subst hji
        simp only [Function.update_self, Option.some.injEq] at hj
        subst hj
        simp only [if_true]
        first
          | exact hsafe σ.db (R.refl _ _) hg.inv
          | exact fun w hw => (hg.guarded j _ hi w hw).trans (Set.subset_insert _ _)
      · simp only [Function.update_of_ne hji] at hj
        simp only [if_neg hji]
        first | exact hg.safe j t hj | exact hg.guarded j t hj
  | @read i own p hi =>
    exact hg.advance (hg.safe i _ hi σ.db (R.refl _ _) hg.inv) fun w hw => hg.guarded i _ hi w hw
  | @write i own w p hi hacc hclash =>
    obtain ⟨hgw, -, hs⟩ := hg.safe i _ hi σ.db (R.refl _ _) hg.inv hacc
    refine hg.advance hs fun v hv => ?_
    rcases List.mem_append.1 hv with hv | hv
    · exact hg.guarded i _ hi v hv
    · rw [List.mem_singleton.1 hv]; exact hgw
  | @note i own o p hi =>
    exact hg.advance (hg.safe i _ hi σ.db (R.refl _ _) hg.inv).2 fun w hw => hg.guarded i _ hi w hw
  | @commit i own a hi =>
    refine hg.leave (hkeeps _ _ _ _ (hg.safe i _ hi σ.db (R.refl _ _) hg.inv)) fun j hj => ?_
    exact R.frame_all (held_disjoint σ hj.symm) (hg.guarded i _ hi)
  | @rollback i s hi => exact hg.leave hg.inv fun j _ => R.refl _ _
  | @world db' hdb =>
    exact ⟨R.world_inv hdb hg.inv, fun i s hi => wp_others (hg.safe i s hi) (R.world_agree hdb), hg.guarded⟩

/-- Whatever holds at the end of each transaction alone holds at the end of each among others. -/
theorem sound_of (hQ : ∀ a L M own db, L ⊆ M → Q a L own db → Q a M own db)
    (hkeeps : ∀ a L own db, Q a L own db → R.Keeps own db) (hRuns : ∀ p, Runs p → ∀ db, R.wp p Q ∅ [] db)
    {db₀ : Db} (h₀ : R.Inv db₀) {σ : System Cl Db W K O E α} (h : Reachable S Runs db₀ σ) : Good R Q σ := by
  induction h with
  | idle => exact ⟨h₀, by simp [System.idle], by simp [System.idle]⟩
  | step _ hs ih => exact ih.step hQ hkeeps hRuns hs

/-- **Soundness of the rules**: programs that are safe alone keep every reachable state good. -/
theorem sound (hRuns : ∀ p, Runs p → ∀ db, R.Safe p ∅ [] db) {db₀ : Db} (h₀ : R.Inv db₀)
    {σ : System Cl Db W K O E α} (h : Reachable S Runs db₀ σ) :
    Good R (fun _ _ own db => R.Keeps own db) σ :=
  sound_of (fun _ _ _ _ _ _ h => h) (fun _ _ _ _ h => h) hRuns h₀ h

/-- What holds when a transaction commits. -/
theorem commit_sound (hQ : ∀ a L M own db, L ⊆ M → Q a L own db → Q a M own db)
    (hkeeps : ∀ a L own db, Q a L own db → R.Keeps own db) (hRuns : ∀ p, Runs p → ∀ db, R.wp p Q ∅ [] db)
    {db₀ : Db} (h₀ : R.Inv db₀) {σ σ' : System Cl Db W K O E α} {i : Cl} {a : α} {own : List W}
    (h : Reachable S Runs db₀ σ) (hs : Step S Runs σ (.commit i a own) σ') :
    Q a (σ.held i) own σ.db ∧ σ'.db = S.applyAll σ.db own := by
  have hg := sound_of hQ hkeeps hRuns h₀ h
  cases hs with
  | commit hi => exact ⟨hg.safe i _ hi σ.db (R.refl _ _) hg.inv, rfl⟩

/-- Every result that a client is given is as the programs promise. -/
theorem note_sound (hRuns : ∀ p, Runs p → ∀ db, R.Safe p ∅ [] db) {db₀ : Db} (h₀ : R.Inv db₀)
    {σ σ' : System Cl Db W K O E α} {i : Cl} {o : O} (h : Reachable S Runs db₀ σ)
    (hs : Step S Runs σ (.note i o) σ') : R.told σ.db o := by
  have hg := sound hRuns h₀ h
  cases hs with
  | note hi => exact (hg.safe i _ hi σ.db (R.refl _ _) hg.inv).1

/-- Every write is made as the programs promise. -/
theorem write_sound (hRuns : ∀ p, Runs p → ∀ db, R.Safe p ∅ [] db) {db₀ : Db} (h₀ : R.Inv db₀)
    {σ σ' : System Cl Db W K O E α} {i : Cl} {w : W} (h : Reachable S Runs db₀ σ)
    (hs : Step S Runs σ (.write i w) σ') : R.made σ.db w := by
  have hg := sound hRuns h₀ h
  cases hs with
  | write hi hacc => exact (hg.safe i _ hi σ.db (R.refl _ _) hg.inv hacc).2.1

/-- What a write promises about the rows that its locks protect is still so while its transaction is
open. -/
theorem own_sound (hRuns : ∀ p, Runs p → ∀ db, R.Safe p ∅ [] db) {db₀ : Db} (h₀ : R.Inv db₀)
    (hmade : ∀ w db db', R.agree (R.guard w) db db' → R.made db w → R.made db' w)
    {σ : System Cl Db W K O E α} (h : Reachable S Runs db₀ σ) :
    ∀ i s, σ.open_ i = some s → ∀ w ∈ s.own, R.made σ.db w := by
  induction h with
  | idle => simp [System.idle]
  | @step σ l σ' hr hs ih =>
    have hg := sound hRuns h₀ hr
    -- a step of one client that leaves the database
    have hstay : ∀ (i : Cl) (t : Session Db W K O E α), (∀ w ∈ t.own, R.made σ.db w) →
        ∀ j s, Function.update σ.open_ i (some t) j = some s → ∀ w ∈ s.own, R.made σ.db w := by
      intro i t ht j s hj
      by_cases hji : j = i
      · subst hji
        rw [Function.update_self, Option.some.injEq] at hj
        exact hj ▸ ht
      · rw [Function.update_of_ne hji] at hj
        exact ih j s hj
    have hleave : ∀ (i : Cl) j s, Function.update σ.open_ i none j = some s →
        j ≠ i ∧ σ.open_ j = some s := by
      intro i j s hj
      have hji : j ≠ i := by
        rintro rfl
        rw [Function.update_self] at hj
        cases hj
      rw [Function.update_of_ne hji] at hj
      exact ⟨hji, hj⟩
    cases hs with
    | start hi hp => exact hstay _ _ (by simp)
    | lock hi hk => exact hstay _ _ fun v hv => ih _ _ hi v hv
    | read hi => exact hstay _ _ fun v hv => ih _ _ hi v hv
    | note hi => exact hstay _ _ fun v hv => ih _ _ hi v hv
    | @write i own w p hi hacc hclash =>
      refine hstay i _ fun v hv => ?_
      rcases List.mem_append.1 hv with hv | hv
      · exact ih _ _ hi v hv
      · rw [List.mem_singleton.1 hv]
        exact (hg.safe i _ hi σ.db (R.refl _ _) hg.inv hacc).2.1
    | @commit i own a hi =>
      intro j s hj w hw
      obtain ⟨hji, hj⟩ := hleave i j s hj
      have hagree : R.agree (σ.held j) σ.db (S.applyAll σ.db own) :=
        R.frame_all (held_disjoint σ hji.symm) (hg.guarded i _ hi)
      exact hmade w _ _ (R.mono (hg.guarded j s hj w hw) hagree) (ih j s hj w hw)
    | @rollback i t hi =>
      intro j s hj
      exact ih j s (hleave i j s hj).2
    | world hdb => exact fun j s hj w hw => hmade w _ _ (R.world_agree hdb) (ih j s hj w hw)

end Sound

end Rules

end TrackFlow.ReadCommitted
