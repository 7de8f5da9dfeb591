import TrackFlow.ReadCommitted.System

/-!
# What programs write

`Prog.Writes P` says that a program makes no writes but those in `P`, whatever it reads. A program all of whose
parts make such writes makes such writes (`Writes.bind`), one that makes none leaves the tables as they are
(`Writes.unchanged`), and what all of these writes keep holds in every state that such programs reach
(`Reachable.written`).
-/

namespace TrackFlow.ReadCommitted

variable {Cl Db W K O E α β : Type} {P P' : W → Prop}

namespace Prog

/-- The writes of a program are all in `P`. -/
def Writes (P : W → Prop) : Prog Db W K O E α → Prop
  | done _ => True
  | raise _ => True
  | lock _ p => Writes P p
  | read p => ∀ db, Writes P (p db)
  | write w p => P w ∧ Writes P p
  | note _ p => Writes P p

theorem writes_pure (a : α) : (pure a : Prog Db W K O E α).Writes P := trivial

theorem writes_fail (e : E) : (fail e : Prog Db W K O E α).Writes P := trivial

theorem writes_acquire (k : K) : (acquire k : Prog Db W K O E Unit).Writes P := trivial

theorem writes_query (f : Db → α) : (query f : Prog Db W K O E α).Writes P := fun _ => trivial

theorem writes_put {w : W} (h : P w) : (put w : Prog Db W K O E Unit).Writes P := ⟨h, trivial⟩

/-- A sequence writes what its parts write. -/
theorem Writes.bind {p : Prog Db W K O E α} {f : α → Prog Db W K O E β} (hp : p.Writes P)
    (hf : ∀ a, (f a).Writes P) : (p >>= f).Writes P := by
  show (Prog.bind p f).Writes P
  induction p with
  | done a => exact hf a
  | raise e => trivial
  | lock k p ih => exact ih hp
  | read p ih => exact fun db => ih db (hp db)
  | write w p ih => exact ⟨hp.1, ih hp.2⟩
  | note o p ih => exact ih hp

/-- A program that writes nothing leaves the tables as they are. -/
theorem Writes.unchanged {S : Schema Db W} {p : Prog Db W K O E α} (hp : p.Writes fun _ => False)
    {db db' : Db} {a : α} (h : eval S p db = .ok (a, db')) : db' = db := by
  induction p generalizing db with
  | done b =>
    simp only [eval, Except.ok.injEq, Prod.mk.injEq] at h
    exact h.2.symm
  | raise e => cases h
  | lock k p ih => exact ih hp h
  | read p ih => exact ih db (hp db) h
  | write w p ih => exact hp.1.elim
  | note o p ih => exact ih hp h

end Prog

section Reached

variable [DecidableEq Cl] [DecidableEq K] {S : Shared Db W} {Runs Runs' : Prog Db W K O E α → Prop} {db₀ : Db}
  {σ σ' : System Cl Db W K O E α} {l : Label Cl W O α}

/-- More programs may do what these do. -/
theorem Step.mono (hRuns : ∀ p, Runs p → Runs' p) (h : Step S Runs σ l σ') : Step S Runs' σ l σ' := by
  cases h with
  | start hi hp => exact .start hi (hRuns _ hp)
  | lock hi hk => exact .lock hi hk
  | read hi => exact .read hi
  | write hi hacc hclash => exact .write hi hacc hclash
  | note hi => exact .note hi
  | commit hi => exact .commit hi
  | rollback hi => exact .rollback hi
  | world hdb => exact .world hdb

theorem Reachable.mono (hRuns : ∀ p, Runs p → Runs' p) (h : Reachable S Runs db₀ σ) :
    Reachable S Runs' db₀ σ := by
  induction h with
  | idle => exact .idle
  | step _ hs ih => exact ih.step (hs.mono hRuns)

/-- A transaction has made writes in `P`, and will make no others. -/
def Session.Writing (P : W → Prop) (s : Session Db W K O E α) : Prop := (∀ w ∈ s.own, P w) ∧ s.prog.Writes P

/-- The tables are as they should be, and so are the open transactions. -/
structure Written (P : W → Prop) (Inv : Db → Prop) (σ : System Cl Db W K O E α) : Prop where
  inv : Inv σ.db
  writing : ∀ i s, σ.open_ i = some s → s.Writing P

variable {Inv : Db → Prop}

theorem keeps_applyAll (happly : ∀ db w, P w → Inv db → Inv (S.apply db w)) {ws : List W} {db : Db}
    (hws : ∀ w ∈ ws, P w) (h : Inv db) : Inv (S.applyAll db ws) := by
  induction ws generalizing db with
  | nil => exact h
  | cons w ws ih =>
    rw [Schema.applyAll_cons]
    exact ih (fun v hv => hws v (List.mem_cons_of_mem w hv)) (happly db w (hws w List.mem_cons_self) h)

omit [DecidableEq K] in
/-- A step of one client. -/
theorem Written.moved (h : Written P Inv σ) {i : Cl} {db' : Db} {locks : K → Option Cl}
    {s : Option (Session Db W K O E α)} (hI : Inv db') (hs : ∀ t ∈ s, t.Writing P) :
    Written P Inv ⟨db', locks, Function.update σ.open_ i s⟩ := by
  refine ⟨hI, fun j t hj => ?_⟩
  by_cases hji : j = i
  · subst hji
    exact hs t (by simpa using hj)
  · exact h.writing j t (by simpa [hji] using hj)

/-- One step. -/
theorem Written.step (happly : ∀ db w, P w → Inv db → Inv (S.apply db w))
    (hworld : ∀ db db', S.world db db' → Inv db → Inv db') (hRuns : ∀ p, Runs p → p.Writes P)
    (h : Written P Inv σ) (hs : Step S Runs σ l σ') : Written P Inv σ' := by
  cases hs with
  | start hi hp =>
    refine h.moved h.inv fun t ht => ?_
    cases ht
    exact ⟨by simp, hRuns _ hp⟩
  | lock hi hk =>
    obtain ⟨hown, hp⟩ := h.writing _ _ hi
    refine h.moved h.inv fun t ht => ?_
    cases ht
    exact ⟨hown, hp⟩
  | read hi =>
    obtain ⟨hown, hp⟩ := h.writing _ _ hi
    refine h.moved h.inv fun t ht => ?_
    cases ht
    exact ⟨hown, hp _⟩
  | write hi hacc hclash =>
    obtain ⟨hown, hw, hp⟩ := h.writing _ _ hi
    refine h.moved h.inv fun t ht => ?_
    cases ht
    refine ⟨fun v hv => ?_, hp⟩
    rcases List.mem_append.1 hv with hv | hv
    · exact hown v hv
    · exact List.mem_singleton.1 hv ▸ hw
  | note hi =>
    obtain ⟨hown, hp⟩ := h.writing _ _ hi
    refine h.moved h.inv fun t ht => ?_
    cases ht
    exact ⟨hown, hp⟩
  | commit hi => exact h.moved (keeps_applyAll happly (h.writing _ _ hi).1 h.inv) (by simp)
  | rollback hi => exact h.moved h.inv (by simp)
  | world hdb => exact ⟨hworld _ _ hdb h.inv, h.writing⟩

/-- **What the writes of all programs keep** holds of the tables in every reachable state. -/
theorem Reachable.written (happly : ∀ db w, P w → Inv db → Inv (S.apply db w))
    (hworld : ∀ db db', S.world db db' → Inv db → Inv db') (hRuns : ∀ p, Runs p → p.Writes P) (h₀ : Inv db₀)
    (h : Reachable S Runs db₀ σ) : Inv σ.db := by
  have hwritten : Written P Inv σ := by
    induction h with
    | idle => exact ⟨h₀, fun i s hi => by cases hi⟩
    | step _ hs ih => exact ih.step happly hworld hRuns hs
  exact hwritten.inv

end Reached

end TrackFlow.ReadCommitted
