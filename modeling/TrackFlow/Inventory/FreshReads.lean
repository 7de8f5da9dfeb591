import TrackFlow.Inventory.ReadCache

/-!
# What a read after a write returns

`GET /products` and `GET /orders` look into the cache, query the database on a miss and store the
response; a write command commits and then deletes the entries. Each of these is a step (`Step`),
and other requests and commands come between them.

- `fresh_run`: a request that starts after a command has returned answers from states committed no
  earlier than it, as long as no response is stored that was read before a commit whose deletion has
  already been made (`Fresh`);
- `stale_read`: without that, a request starts after a command and misses it.
-/

namespace TrackFlow.Inventory

/-! ## Requests and commands -/

/-- How far a request is, with the committed states that its queries saw and their versions. -/
inductive GetPhase
  | started
  | reading (seen : List (Nat × Tables))
  | storing (seen : List (Nat × Tables)) (response : Response)
  | answered (response : Response)
  | failed

/-- `GET /products` or `GET /orders`, on a session of some engine. -/
structure Get where
  kind : Kind
  engine : Nat
  phase : GetPhase

/-- The commands that write inventory rows. -/
inductive Command
  | createProduct
  | createStockEntry
  | createStockExit
  | updateSkuThreshold
  | createCommercialOrder
  | appendCommercialOrderDispatches
  | confirmInventoryPhysicalCount
  deriving DecidableEq

/-- The entries that a command deletes after its commit, in order. -/
def Command.invalidates : Command → List Kind
  | .createProduct => [.products]
  | .confirmInventoryPhysicalCount => []
  | _ => [.products, .orders]

/-- How far a command is: what it committed, and the entries that are still to be deleted. -/
inductive CommandPhase
  | working
  | committed (version : Nat) (left : List Kind)
  | returned (version : Nat)
  | raised

/-- The version that a command has committed. -/
def CommandPhase.version : CommandPhase → Option Nat
  | .committed n _ => some n
  | .returned n => some n
  | _ => none

/-- The entries that a command has still to delete. -/
def CommandPhase.left : CommandPhase → List Kind
  | .committed _ left => left
  | _ => []

/-- A command on a session of some engine. -/
structure WriteCommand where
  engine : Nat
  command : Command
  phase : CommandPhase

/-- The process: its caches, and for each engine the states of the database committed so far. -/
structure State where
  clock : Int
  caches : Kind → TTLCache Nat Response
  history : Nat → List Tables
  gets : Nat → Option Get
  writes : Nat → Option WriteCommand

namespace State

/-- The same process with another cache of a kind. -/
def setCache (s : State) (kind : Kind) (cache : TTLCache Nat Response) : State :=
  { s with caches := Function.update s.caches kind cache }

/-- The same process with another phase of a request. -/
def setGet (s : State) (g : Nat) (x : Get) : State := { s with gets := Function.update s.gets g (some x) }

/-- The same process with another phase of a command. -/
def setWrite (s : State) (w : Nat) (x : WriteCommand) : State :=
  { s with writes := Function.update s.writes w (some x) }

/-- A commit on an engine. -/
def addCommit (s : State) (engine : Nat) (db : Tables) : State :=
  { s with history := Function.update s.history engine (s.history engine ++ [db]) }

/-- A process in which nothing has been requested. -/
structure Initial (s : State) : Prop where
  caches : ∀ kind, (s.caches kind).entries = fun _ => none
  gets : ∀ g, s.gets g = none
  writes : ∀ w, s.writes w = none

section Fields

variable (s : State) (g w e : Nat) (x : Get) (y : WriteCommand) (kind : Kind)
  (cache : TTLCache Nat Response) (db : Tables)

@[simp] theorem setGet_caches : (s.setGet g x).caches = s.caches := rfl
@[simp] theorem setGet_history : (s.setGet g x).history = s.history := rfl
@[simp] theorem setGet_writes : (s.setGet g x).writes = s.writes := rfl
@[simp] theorem setWrite_caches : (s.setWrite w y).caches = s.caches := rfl
@[simp] theorem setWrite_history : (s.setWrite w y).history = s.history := rfl
@[simp] theorem setWrite_gets : (s.setWrite w y).gets = s.gets := rfl
@[simp] theorem setCache_history : (s.setCache kind cache).history = s.history := rfl
@[simp] theorem setCache_gets : (s.setCache kind cache).gets = s.gets := rfl
@[simp] theorem setCache_writes : (s.setCache kind cache).writes = s.writes := rfl
@[simp] theorem addCommit_caches : (s.addCommit e db).caches = s.caches := rfl
@[simp] theorem addCommit_gets : (s.addCommit e db).gets = s.gets := rfl
@[simp] theorem addCommit_writes : (s.addCommit e db).writes = s.writes := rfl

/-- A request after a change of one. -/
theorem setGet_gets (g' : Nat) : (s.setGet g x).gets g' = if g' = g then some x else s.gets g' := by
  unfold setGet
  exact Function.update_apply _ _ _ _

/-- A command after a change of one. -/
theorem setWrite_writes (w' : Nat) :
    (s.setWrite w y).writes w' = if w' = w then some y else s.writes w' := by
  unfold setWrite
  exact Function.update_apply _ _ _ _

/-- A cache after a change of one. -/
theorem setCache_caches (kind' : Kind) :
    (s.setCache kind cache).caches kind' = if kind' = kind then cache else s.caches kind' := by
  unfold setCache
  exact Function.update_apply _ _ _ _

/-- The versions of an engine after a commit. -/
theorem addCommit_history (e' : Nat) :
    (s.addCommit e db).history e' = if e' = e then s.history e ++ [db] else s.history e' := by
  unfold addCommit
  exact Function.update_apply _ _ _ _

end Fields

end State

/-! ## Steps -/

/-- What a step was. -/
inductive Label
  | tick
  | start (g : Nat)
  | lookup (g : Nat)
  | query (g : Nat)
  | fail (g : Nat)
  | store (g : Nat)
  | begin (w : Nat)
  | commit (w : Nat)
  | raise (w : Nat)
  | invalidate (w : Nat)
  | finish (w : Nat)

/-- Where a request is after a query. -/
def Progress.phase (seen : List (Nat × Tables)) : Progress → GetPhase
  | .more => .reading seen
  | .result response => .storing seen response
  | .error => .failed

/-- A step. A query sees the last committed state; a commit may raise although it took effect. -/
inductive Step : State → Label → State → Prop
  | tick {s : State} {t : Int} : s.clock ≤ t → Step s .tick { s with clock := t }
  | start {s : State} {g : Nat} {kind : Kind} {e : Nat} : s.gets g = none →
      Step s (.start g) (s.setGet g ⟨kind, e, .started⟩)
  | hit {s : State} {g : Nat} {kind : Kind} {e : Nat} {response : Response} :
      s.gets g = some ⟨kind, e, .started⟩ →
      ((s.caches kind).get s.clock e).1 = some response →
      Step s (.lookup g)
        ((s.setCache kind ((s.caches kind).get s.clock e).2).setGet g ⟨kind, e, .answered response⟩)
  | miss {s : State} {g : Nat} {kind : Kind} {e : Nat} : s.gets g = some ⟨kind, e, .started⟩ →
      ((s.caches kind).get s.clock e).1 = none →
      Step s (.lookup g)
        ((s.setCache kind ((s.caches kind).get s.clock e).2).setGet g ⟨kind, e, .reading []⟩)
  | query {s : State} {g : Nat} {kind : Kind} {e : Nat} {seen : List (Nat × Tables)} {v : Nat}
    {db : Tables} : s.gets g = some ⟨kind, e, .reading seen⟩ → v + 1 = (s.history e).length →
    (s.history e)[v]? = some db →
    Step s (.query g)
      (s.setGet g ⟨kind, e, (kind.progress ((seen ++ [(v, db)]).map Prod.snd)).phase (seen ++ [(v, db)])⟩)
  | fail {s : State} {g : Nat} {kind : Kind} {e : Nat} {seen : List (Nat × Tables)} :
      s.gets g = some ⟨kind, e, .reading seen⟩ → Step s (.fail g) (s.setGet g ⟨kind, e, .failed⟩)
  | store {s : State} {g : Nat} {kind : Kind} {e : Nat} {seen : List (Nat × Tables)} {response : Response} :
      s.gets g = some ⟨kind, e, .storing seen response⟩ →
      Step s (.store g)
        ((s.setCache kind ((s.caches kind).set s.clock e response)).setGet g ⟨kind, e, .answered response⟩)
  | begin {s : State} {w e : Nat} {c : Command} :
      s.writes w = none → Step s (.begin w) (s.setWrite w ⟨e, c, .working⟩)
  | commit {s : State} {w e : Nat} {c : Command} {db : Tables} : s.writes w = some ⟨e, c, .working⟩ →
      Step s (.commit w)
        ((s.addCommit e db).setWrite w ⟨e, c, .committed (s.history e).length c.invalidates⟩)
  | lost {s : State} {w e : Nat} {c : Command} {db : Tables} : s.writes w = some ⟨e, c, .working⟩ →
      Step s (.commit w) ((s.addCommit e db).setWrite w ⟨e, c, .raised⟩)
  | raise {s : State} {w e : Nat} {c : Command} {phase : CommandPhase} : s.writes w = some ⟨e, c, phase⟩ →
      (∀ n, phase ≠ .returned n) → Step s (.raise w) (s.setWrite w ⟨e, c, .raised⟩)
  | invalidate {s : State} {w e : Nat} {c : Command} {n : Nat} {kind : Kind} {left : List Kind} :
      s.writes w = some ⟨e, c, .committed n (kind :: left)⟩ →
      Step s (.invalidate w)
        ((s.setCache kind ((s.caches kind).delete e)).setWrite w ⟨e, c, .committed n left⟩)
  | finish {s : State} {w e : Nat} {c : Command} {n : Nat} : s.writes w = some ⟨e, c, .committed n []⟩ →
      Step s (.finish w) (s.setWrite w ⟨e, c, .returned n⟩)

/-- A run whose steps all meet a condition on what was there before. -/
inductive Run (P : State → Label → Prop) (s₀ : State) : State → Prop
  | refl : Run P s₀ s₀
  | step {s s' : State} {l : Label} : Run P s₀ s → P s l → Step s l s' → Run P s₀ s'

/-! ## What a response reflects -/

/-- A response is what these queries give, each on the committed state it saw. -/
structure Reading (kind : Kind) (history : List Tables) (seen : List (Nat × Tables))
    (response : Response) : Prop where
  committed : ∀ p ∈ seen, history[p.1]? = some p.2
  result : kind.progress (seen.map Prod.snd) = .result response

/-- A response is read from states committed at a version or later. -/
def Reflects (kind : Kind) (history : List Tables) (n : Nat) (response : Response) : Prop :=
  ∃ seen, Reading kind history seen response ∧ ∀ p ∈ seen, n ≤ p.1

/-- A command has committed a version and deleted the entry of a kind. -/
def State.Deleted (s : State) (kind : Kind) (e n : Nat) : Prop :=
  ∃ w x, s.writes w = some x ∧ x.engine = e ∧ x.phase.version = some n ∧ kind ∈ x.command.invalidates ∧
    kind ∉ x.phase.left

/-- A response that is stored was read after every commit whose deletion has been made. -/
def Fresh (s : State) (l : Label) : Prop :=
  ∀ g kind e seen response, l = .store g → s.gets g = some ⟨kind, e, .storing seen response⟩ →
    ∀ n, s.Deleted kind e n → ∀ p ∈ seen, n ≤ p.1

/-! ## What a step does -/

variable {s s' : State} {l : Label}

/-- Versions are only added. -/
theorem Step.history (h : Step s l s') (e : Nat) : s.history e <+: s'.history e := by
  have hadd : ∀ e' db, s.history e <+: (s.addCommit e' db).history e := by
    intro e' db
    rw [State.addCommit_history]
    split
    · rename_i heq
      rw [heq]
      exact List.prefix_append _ _
    · exact List.prefix_refl _
  cases h with
  | commit hw => exact hadd _ _
  | lost hw => exact hadd _ _
  | _ => exact List.prefix_refl _

/-- Every entry was there before, or is the response that a request stores. -/
theorem Step.entries (h : Step s l s') {kind : Kind} {e : Nat} {entry : CacheEntry Response}
    (hentry : (s'.caches kind).entries e = some entry) :
    (s.caches kind).entries e = some entry ∨
      ∃ g seen, l = .store g ∧ s.gets g = some ⟨kind, e, .storing seen entry.value⟩ := by
  cases h with
  | @hit g kind' e' response hg hr =>
    rw [State.setGet_caches, State.setCache_caches] at hentry
    split at hentry
    · rename_i hk
      subst hk
      exact Or.inl (TTLCache.get_entries hentry)
    · exact Or.inl hentry
  | @miss g kind' e' hg hr =>
    rw [State.setGet_caches, State.setCache_caches] at hentry
    split at hentry
    · rename_i hk
      subst hk
      exact Or.inl (TTLCache.get_entries hentry)
    · exact Or.inl hentry
  | @store g kind' e' seen response hg =>
    rw [State.setGet_caches, State.setCache_caches] at hentry
    split at hentry
    · rename_i hk
      subst hk
      rcases TTLCache.set_entries hentry with ⟨rfl, hvalue⟩ | hold
      · exact Or.inr ⟨g, seen, rfl, by rw [hvalue]; exact hg⟩
      · exact Or.inl hold
    · exact Or.inl hentry
  | @invalidate w e' c n kind' left hw =>
    rw [State.setWrite_caches, State.setCache_caches] at hentry
    split at hentry
    · rename_i hk
      subst hk
      exact Or.inl (TTLCache.delete_entries hentry).2
    · exact Or.inl hentry
  | _ => exact Or.inl hentry

/-- A command that has committed had done so before, with the same entries left or one more, or has
just committed. -/
def Advances (s s' : State) (w : Nat) (x : WriteCommand) (n : Nat) : Prop :=
  (∃ y, s.writes w = some y ∧ y.engine = x.engine ∧ y.command = x.command ∧ y.phase.version = some n ∧
    (y.phase.left = x.phase.left ∨
      ∃ kind, y.phase.left = kind :: x.phase.left ∧ (s'.caches kind).entries x.engine = none)) ∨
  (n < (s'.history x.engine).length ∧ x.phase.left = x.command.invalidates)

/-- What a step does to the commands that have committed. -/
theorem Step.writes (h : Step s l s') {w : Nat} {x : WriteCommand} {n : Nat} (hx : s'.writes w = some x)
    (hn : x.phase.version = some n) : Advances s s' w x n := by
  have hkeep : ∀ {w' : Nat} {y z : WriteCommand}, s.writes w' = some y →
      (s.setWrite w' z).writes w = some x →
      (x = z ∧ s.writes w = some y) ∨ s.writes w = some x := by
    intro w' y z hy hz
    rw [State.setWrite_writes] at hz
    split at hz
    · rename_i heq
      exact Or.inl ⟨(Option.some.inj hz).symm, by rw [heq]; exact hy⟩
    · exact Or.inr hz
  have hsame : s.writes w = some x → Advances s s' w x n :=
    fun hold => Or.inl ⟨x, hold, rfl, rfl, hn, Or.inl rfl⟩
  cases h with
  | @begin w' e c hw =>
    rw [State.setWrite_writes] at hx
    split at hx
    · cases hx
      cases hn
    · exact hsame hx
  | @commit w' e c db hw =>
    rcases hkeep hw hx with ⟨rfl, -⟩ | hold
    · refine Or.inr ⟨?_, rfl⟩
      cases hn
      rw [State.setWrite_history, State.addCommit_history, if_pos rfl]
      simp
    · exact hsame hold
  | @lost w' e c db hw =>
    rcases hkeep hw hx with ⟨rfl, -⟩ | hold
    · cases hn
    · exact hsame hold
  | @raise w' e c phase hw hphase =>
    rcases hkeep hw hx with ⟨rfl, -⟩ | hold
    · cases hn
    · exact hsame hold
  | @invalidate w' e c n' kind left hw =>
    rcases hkeep hw hx with ⟨rfl, hold⟩ | hold
    · refine Or.inl ⟨_, hold, rfl, rfl, hn, Or.inr ⟨kind, rfl, ?_⟩⟩
      rw [State.setWrite_caches, State.setCache_caches, if_pos rfl]
      simp [TTLCache.delete]
    · exact hsame hold
  | @finish w' e c n' hw =>
    rcases hkeep hw hx with ⟨rfl, hold⟩ | hold
    · exact Or.inl ⟨_, hold, rfl, rfl, hn, Or.inl rfl⟩
    · exact hsame hold
  | _ => exact hsame hx

/-- What is deleted was deleted before, or has no entry. -/
theorem Step.deleted (h : Step s l s') {kind : Kind} {e n : Nat} (hd : s'.Deleted kind e n) :
    s.Deleted kind e n ∨ (s'.caches kind).entries e = none := by
  obtain ⟨w, x, hx, rfl, hn, hk, hleft⟩ := hd
  rcases h.writes hx hn with ⟨y, hy, he, hc, hv, hl⟩ | ⟨-, hl⟩
  · rw [← hc] at hk
    rcases hl with hl | ⟨kind', hl, hnone⟩
    · exact Or.inl ⟨w, y, hy, he, hv, hk, by rw [hl]; exact hleft⟩
    · by_cases hkind : kind = kind'
      · exact Or.inr (hkind ▸ hnone)
      · refine Or.inl ⟨w, y, hy, he, hv, hk, ?_⟩
        rw [hl, List.mem_cons, not_or]
        exact ⟨hkind, hleft⟩
  · exact absurd (hl ▸ hk) hleft

/-- A command that has returned stays so. -/
theorem Step.returned (h : Step s l s') {w e n : Nat} {c : Command}
    (hw : s.writes w = some ⟨e, c, .returned n⟩) : s'.writes w = some ⟨e, c, .returned n⟩ := by
  have hother : ∀ {w' : Nat} {y z : WriteCommand}, s.writes w' = some y → (∀ m, y.phase ≠ .returned m) →
      (s.setWrite w' z).writes w = some ⟨e, c, .returned n⟩ := by
    intro w' y z hy hphase
    rw [State.setWrite_writes, if_neg, hw]
    rintro rfl
    rw [hw] at hy
    cases hy
    exact hphase n rfl
  cases h with
  | @begin w' e' c' hnone =>
    rw [State.setWrite_writes, if_neg, hw]
    rintro rfl
    rw [hw] at hnone
    cases hnone
  | commit hy => exact hother hy nofun
  | lost hy => exact hother hy nofun
  | raise hy hphase => exact hother hy hphase
  | invalidate hy => exact hother hy nofun
  | finish hy => exact hother hy nofun
  | _ => exact hw

/-- How a request moves: from nothing, from the lookup, by a query, or by the store. -/
inductive Moves (s : State) (g : Nat) (kind : Kind) (e : Nat) : GetPhase → Prop
  | start : s.gets g = none → Moves s g kind e .started
  | hit {entry : CacheEntry Response} : s.gets g = some ⟨kind, e, .started⟩ →
      (s.caches kind).entries e = some entry → Moves s g kind e (.answered entry.value)
  | miss : s.gets g = some ⟨kind, e, .started⟩ → Moves s g kind e (.reading [])
  | query {seen : List (Nat × Tables)} {v : Nat} {db : Tables} : s.gets g = some ⟨kind, e, .reading seen⟩ →
      v + 1 = (s.history e).length → (s.history e)[v]? = some db →
      Moves s g kind e ((kind.progress ((seen ++ [(v, db)]).map Prod.snd)).phase (seen ++ [(v, db)]))
  | fail : Moves s g kind e .failed
  | store {seen : List (Nat × Tables)} {response : Response} :
      s.gets g = some ⟨kind, e, .storing seen response⟩ →
      Moves s g kind e (.answered response)

/-- A request stays as it was or moves. -/
theorem Step.gets (h : Step s l s') {g : Nat} {kind : Kind} {e : Nat} {phase : GetPhase}
    (hg : s'.gets g = some ⟨kind, e, phase⟩) :
    s.gets g = some ⟨kind, e, phase⟩ ∨ Moves s g kind e phase := by
  have hset : ∀ {g' : Nat} {y : Get}, (s.setGet g' y).gets g = some ⟨kind, e, phase⟩ →
      (g = g' ∧ y = ⟨kind, e, phase⟩) ∨ s.gets g = some ⟨kind, e, phase⟩ := by
    intro g' y hy
    rw [State.setGet_gets] at hy
    split at hy
    · rename_i heq
      exact Or.inl ⟨heq, Option.some.inj hy⟩
    · exact Or.inr hy
  cases h with
  | start hnone =>
    rcases hset hg with ⟨rfl, heq⟩ | hold
    · cases heq
      exact Or.inr (.start hnone)
    · exact Or.inl hold
  | hit hstart hfound =>
    rcases hset hg with ⟨rfl, heq⟩ | hold
    · cases heq
      obtain ⟨entry, hentry, rfl, -⟩ := TTLCache.get_some hfound
      exact Or.inr (.hit hstart hentry)
    · exact Or.inl hold
  | miss hstart hnone =>
    rcases hset hg with ⟨rfl, heq⟩ | hold
    · cases heq
      exact Or.inr (.miss hstart)
    · exact Or.inl hold
  | query hread hv hdb =>
    rcases hset hg with ⟨rfl, heq⟩ | hold
    · cases heq
      exact Or.inr (.query hread hv hdb)
    · exact Or.inl hold
  | fail hread =>
    rcases hset hg with ⟨rfl, heq⟩ | hold
    · cases heq
      exact Or.inr .fail
    · exact Or.inl hold
  | store hstore =>
    rcases hset hg with ⟨rfl, heq⟩ | hold
    · cases heq
      exact Or.inr (.store hstore)
    · exact Or.inl hold
  | _ => exact Or.inl hg

/-! ## The cache is coherent -/

/-- A version stays what it is when others are added. -/
theorem committed_mono {history history' : List Tables} (hpre : history <+: history') {v : Nat}
    {db : Tables} (h : history[v]? = some db) : history'[v]? = some db := by
  obtain ⟨added, rfl⟩ := hpre
  rw [List.getElem?_append_left (List.getElem?_eq_some_iff.1 h).1]
  exact h

/-- More versions read the same. -/
theorem Reading.mono {kind : Kind} {history history' : List Tables} {seen : List (Nat × Tables)}
    {response : Response} (h : Reading kind history seen response) (hpre : history <+: history') :
    Reading kind history' seen response :=
  ⟨fun p hp => committed_mono hpre (h.committed p hp), h.result⟩

/-- What is in the cache or about to be is what queries gave, and an entry was read after every
commit that deleted it. -/
structure Coherent (s : State) : Prop where
  cached : ∀ kind e entry, (s.caches kind).entries e = some entry →
    ∃ seen, Reading kind (s.history e) seen entry.value ∧ ∀ n, s.Deleted kind e n → ∀ p ∈ seen, n ≤ p.1
  reading : ∀ g kind e seen, s.gets g = some ⟨kind, e, .reading seen⟩ →
    ∀ p ∈ seen, (s.history e)[p.1]? = some p.2
  storing : ∀ g kind e seen response, s.gets g = some ⟨kind, e, .storing seen response⟩ →
    Reading kind (s.history e) seen response
  versions : ∀ w x n, s.writes w = some x → x.phase.version = some n → n < (s.history x.engine).length

/-- Nothing has been read yet. -/
theorem State.Initial.coherent (h : s.Initial) : Coherent s where
  cached kind e entry hentry := by
    rw [h.caches kind] at hentry
    cases hentry
  reading g kind e seen hg := by
    rw [h.gets g] at hg
    cases hg
  storing g kind e seen response hg := by
    rw [h.gets g] at hg
    cases hg
  versions w x n hx := by
    rw [h.writes w] at hx
    cases hx

/-- The phase after a query says which response it gives. -/
theorem storing_of_progress {kind : Kind} {seen seen' : List (Nat × Tables)} {response : Response}
    (h : .storing seen' response = (kind.progress (seen.map Prod.snd)).phase seen) :
    seen' = seen ∧ kind.progress (seen.map Prod.snd) = .result response := by
  cases hp : kind.progress (seen.map Prod.snd) with
  | result r =>
    rw [hp] at h
    cases h
    exact ⟨rfl, rfl⟩
  | more =>
    rw [hp] at h
    cases h
  | error =>
    rw [hp] at h
    cases h

/-- The phase after a query that is not the last says what was seen. -/
theorem reading_of_progress {kind : Kind} {seen seen' : List (Nat × Tables)}
    (h : .reading seen' = (kind.progress (seen.map Prod.snd)).phase seen) : seen' = seen := by
  cases hp : kind.progress (seen.map Prod.snd) with
  | more =>
    rw [hp] at h
    cases h
    rfl
  | result r =>
    rw [hp] at h
    cases h
  | error =>
    rw [hp] at h
    cases h

/-- A query adds a committed state to those seen. -/
theorem seen_append {history : List Tables} {seen : List (Nat × Tables)} {v : Nat} {db : Tables}
    (hseen : ∀ p ∈ seen, history[p.1]? = some p.2) (hdb : history[v]? = some db) :
    ∀ p ∈ seen ++ [(v, db)], history[p.1]? = some p.2 := by
  intro p hp
  rcases List.mem_append.1 hp with hp | hp
  · exact hseen p hp
  · rw [List.mem_singleton.1 hp]
    exact hdb

/-- Every step that stores no stale response keeps the cache coherent. -/
theorem Coherent.step (hc : Coherent s) (hfresh : Fresh s l) (h : Step s l s') : Coherent s' where
  cached kind e entry hentry := by
    rcases h.entries hentry with hold | ⟨g, seen, hl, hg⟩
    · obtain ⟨seen, hread, hafter⟩ := hc.cached kind e entry hold
      refine ⟨seen, hread.mono (h.history e), fun n hd => ?_⟩
      rcases h.deleted hd with hd | hnone
      · exact hafter n hd
      · rw [hentry] at hnone
        cases hnone
    · refine ⟨seen, (hc.storing g kind e seen entry.value hg).mono (h.history e), fun n hd => ?_⟩
      rcases h.deleted hd with hd | hnone
      · exact hfresh g kind e seen entry.value hl hg n hd
      · rw [hentry] at hnone
        cases hnone
  reading g kind e seen hg p hp := by
    refine committed_mono (h.history e) ?_
    rcases h.gets hg with hold | hmoves
    · exact hc.reading g kind e seen hold p hp
    · generalize hphase : GetPhase.reading seen = phase at hmoves
      cases hmoves with
      | miss =>
        cases hphase
        cases hp
      | query hread hv hdb =>
        rw [reading_of_progress hphase] at hp
        exact seen_append (hc.reading g kind e _ hread) hdb p hp
      | _ => cases hphase
  storing g kind e seen response hg := by
    rcases h.gets hg with hold | hmoves
    · exact (hc.storing g kind e seen response hold).mono (h.history e)
    · generalize hphase : GetPhase.storing seen response = phase at hmoves
      cases hmoves with
      | query hread hv hdb =>
        obtain ⟨rfl, hresult⟩ := storing_of_progress hphase
        exact Reading.mono ⟨seen_append (hc.reading g kind e _ hread) hdb, hresult⟩ (h.history e)
      | _ => cases hphase
  versions w x n hx hn := by
    rcases h.writes hx hn with ⟨y, hy, he, -, hv, -⟩ | ⟨hlt, -⟩
    · have hlt := hc.versions w y n hy hv
      rw [he] at hlt
      exact lt_of_lt_of_le hlt (h.history x.engine).length_le
    · exact hlt

/-- So does a run of such steps. -/
theorem Run.coherent {s₀ : State} (h : Run Fresh s₀ s) (hc : Coherent s₀) : Coherent s := by
  induction h with
  | refl => exact hc
  | step _ hfresh hstep ih => exact ih.step hfresh hstep

/-- A run keeps a command that has returned. -/
theorem Run.returned {P : State → Label → Prop} {s₀ : State} (h : Run P s₀ s) {w e n : Nat} {c : Command}
    (hw : s₀.writes w = some ⟨e, c, .returned n⟩) : s.writes w = some ⟨e, c, .returned n⟩ := by
  induction h with
  | refl => exact hw
  | step _ _ hstep ih => exact hstep.returned ih

/-! ## Requests after a write -/

/-- What a request has seen, or answers, is of a version or later. -/
def GetPhase.After (kind : Kind) (history : List Tables) (n : Nat) : GetPhase → Prop
  | .started => True
  | .reading seen => ∀ p ∈ seen, n ≤ p.1
  | .storing seen _ => ∀ p ∈ seen, n ≤ p.1
  | .answered response => Reflects kind history n response
  | .failed => True

/-- A request that is after a version stays after it. -/
theorem Step.after (hc : Coherent s) (h : Step s l s') {kind : Kind} {e n w g : Nat} {c : Command}
    (hw : s.writes w = some ⟨e, c, .returned n⟩) (hk : kind ∈ c.invalidates)
    (hbefore : ∀ phase, s.gets g = some ⟨kind, e, phase⟩ → phase.After kind (s.history e) n)
    {phase : GetPhase} (hg : s'.gets g = some ⟨kind, e, phase⟩) : phase.After kind (s'.history e) n := by
  have hlater : ∀ response, Reflects kind (s.history e) n response →
      Reflects kind (s'.history e) n response :=
    fun response ⟨seen, hread, hn⟩ => ⟨seen, hread.mono (h.history e), hn⟩
  rcases h.gets hg with hold | hmoves
  · have hafter := hbefore phase hold
    cases phase with
    | answered response => exact hlater response hafter
    | _ => exact hafter
  · cases hmoves with
    | start => trivial
    | @hit entry _ hentry =>
      obtain ⟨seen, hread, hafter⟩ := hc.cached kind e entry hentry
      have hdeleted : s.Deleted kind e n := ⟨w, _, hw, rfl, rfl, hk, List.not_mem_nil⟩
      exact hlater _ ⟨seen, hread, hafter n hdeleted⟩
    | miss => exact fun p hp => absurd hp List.not_mem_nil
    | @query seen v db hread hv hdb =>
      have hlt : n < (s.history e).length := hc.versions w _ n hw rfl
      have hseen : ∀ p ∈ seen ++ [(v, db)], n ≤ p.1 := by
        intro p hp
        rcases List.mem_append.1 hp with hp | hp
        · exact hbefore _ hread p hp
        · rw [List.mem_singleton.1 hp]
          omega
      unfold Progress.phase
      split
      · exact hseen
      · exact hseen
      · trivial
    | fail => trivial
    | @store seen response hstore =>
      exact hlater response ⟨seen, hc.storing g kind e seen response hstore, hbefore _ hstore⟩

/-- A run after a command has returned leaves the requests that start in it after its commit. -/
theorem Run.after {s₁ : State} (hc : Coherent s₁) (h : Run Fresh s₁ s) {kind : Kind} {e n w g : Nat}
    {c : Command}
    (hw : s₁.writes w = some ⟨e, c, .returned n⟩) (hk : kind ∈ c.invalidates) (hg : s₁.gets g = none) :
    ∀ phase, s.gets g = some ⟨kind, e, phase⟩ → phase.After kind (s.history e) n := by
  induction h with
  | refl =>
    intro phase hphase
    rw [hg] at hphase
    cases hphase
  | step hrun _ hstep ih =>
    intro phase hphase
    exact hstep.after (hrun.coherent hc) (hrun.returned hw) hk ih hphase

/-- While no stale response is stored, every request that starts after a command has returned
answers from states committed no earlier than what the command committed. -/
theorem fresh_run {s₀ s₁ s₂ : State} {kind : Kind} {e n w g : Nat} {c : Command} {response : Response}
    (hinit : s₀.Initial) (hbefore : Run Fresh s₀ s₁) (hw : s₁.writes w = some ⟨e, c, .returned n⟩)
    (hk : kind ∈ c.invalidates) (hg : s₁.gets g = none) (hafter : Run Fresh s₁ s₂)
    (hanswer : s₂.gets g = some ⟨kind, e, .answered response⟩) : Reflects kind (s₂.history e) n response :=
  hafter.after (hbefore.coherent hinit.coherent) hw hk hg _ hanswer

/-- A SKU without movements. -/
def emptyStock : Tables := { skus := [⟨1, "Robot", "SKU-1", "Toys Inc.", "toys", "latam", none, none⟩] }

/-- The same SKU after an entry of five. -/
def filledStock : Tables := { emptyStock with entries := [⟨1, 1, 5, "PO-1", "latam", 0, "u"⟩] }

/-- A process that has just been started. -/
def startedProcess : State :=
  ⟨0, fun _ => { ttlSeconds := 30, ttl_pos := by decide }, fun _ => [emptyStock], fun _ => none,
  fun _ => none⟩

theorem startedProcess_initial : startedProcess.Initial := ⟨fun _ => rfl, fun _ => rfl, fun _ => rfl⟩

/-- A run may stop where it is. -/
theorem Run.rest {P : State → Label → Prop} {s₀ : State} (_ : Run P s₀ s) : Run P s s := .refl

/-- Only stores can be stale. -/
theorem Run.quiet {s₀ : State} (h : Run Fresh s₀ s) (hstep : Step s l s') (hl : ∀ g, l ≠ .store g) :
    Run Fresh s₀ s' :=
  h.step (fun g _ _ _ _ hstore => absurd hstore (hl g)) hstep

/-- A request for the products and the creation of a stock entry go on at the same time: the request reads the
entries before the commit and the exits after it, and its response is stored before the cache is cleared. The
next request is answered from what was committed. -/
theorem fresh_run_entry : ∃ s₂ : State, ∃ response, s₂.writes 0 = some ⟨0, .createStockEntry, .returned 1⟩ ∧
    s₂.gets 1 = some ⟨.products, 0, .answered (.products (listProducts emptyStock emptyStock filledStock))⟩ ∧
    s₂.gets 0 = some ⟨.products, 0, .answered response⟩ ∧ Reflects .products (s₂.history 0) 1 response := by
  have p₁ := Run.quiet .refl (@Step.start startedProcess 1 .products 0 rfl) nofun
  have p₂ := p₁.quiet (@Step.miss _ 1 .products 0 rfl rfl) nofun
  have p₃ := p₂.quiet (@Step.query _ 1 .products 0 [] 0 emptyStock rfl rfl rfl) nofun
  have r₁ := p₃.quiet (@Step.begin _ 0 0 .createStockEntry rfl) nofun
  have p₄ := r₁.quiet (@Step.query _ 1 .products 0 [(0, emptyStock)] 0 emptyStock rfl rfl rfl) nofun
  have r₂ := p₄.quiet (@Step.commit _ 0 0 .createStockEntry filledStock rfl) nofun
  have p₅ := r₂.quiet (@Step.query _ 1 .products 0 [(0, emptyStock), (0, emptyStock)] 1 filledStock rfl rfl
    rfl) nofun
  have p₆ := p₅.step ?_ (@Step.store _ 1 .products 0 [(0, emptyStock), (0, emptyStock), (1, filledStock)] _
    rfl)
  · have r₃ := p₆.quiet (@Step.invalidate _ 0 0 .createStockEntry 1 .products [.orders] rfl) nofun
    have r₄ := r₃.quiet (@Step.invalidate _ 0 0 .createStockEntry 1 .orders [] rfl) nofun
    have before := r₄.quiet (@Step.finish _ 0 0 .createStockEntry 1 rfl) nofun
    have q₁ := before.rest.quiet (@Step.start _ 0 .products 0 rfl) nofun
    have q₂ := q₁.quiet (@Step.miss _ 0 .products 0 rfl rfl) nofun
    have q₃ := q₂.quiet (@Step.query _ 0 .products 0 [] 1 filledStock rfl rfl rfl) nofun
    have q₄ := q₃.quiet (@Step.query _ 0 .products 0 [(1, filledStock)] 1 filledStock rfl rfl rfl) nofun
    have q₅ := q₄.quiet (@Step.query _ 0 .products 0 [(1, filledStock), (1, filledStock)] 1
      filledStock rfl rfl rfl) nofun
    have after := q₅.step ?_ (@Step.store _ 0 .products 0 [(1, filledStock), (1, filledStock),
      (1, filledStock)] _ rfl)
    · have hreflects := @fresh_run _ _ _ .products 0 1 0 0 .createStockEntry
        (.products (listProducts filledStock filledStock filledStock)) startedProcess_initial before
          rfl List.mem_cons_self rfl after rfl
      exact ⟨_, _, after.returned rfl, rfl, rfl, hreflects⟩
    · -- What the next request stores was read after the only commit.
      intro g kind e seen response hl hg n hd p hp
      obtain ⟨w, x, hx, -, hn, -, -⟩ := hd
      cases hl
      have hseen : (1, filledStock) = p := by
        cases hg
        simpa [eq_comm] using hp
      have hw : some x = some ⟨0, .createStockEntry, .returned 1⟩ := by
        rw [← hx]
        by_cases h0 : w = 0
        · rw [h0]
          rfl
        · simp [State.setWrite_writes, h0, startedProcess] at hx
      cases hw
      cases hn
      rw [← hseen]
  · -- The entry of the products is not deleted yet.
    intro g kind e seen response hl hg n hd p hp
    obtain ⟨w, x, hx, -, -, -, hleft⟩ := hd
    cases hl
    cases hg
    have hw : some x = some ⟨0, .createStockEntry, .committed 1 [.products, .orders]⟩ := by
      rw [← hx]
      by_cases h0 : w = 0
      · rw [h0]
        rfl
      · simp [State.setWrite_writes, h0, startedProcess] at hx
    cases hw
    exact absurd List.mem_cons_self hleft

/-- Any step. -/
def Any (_ : State) (_ : Label) : Prop := True

/-- Runs of any steps. -/
theorem Run.any {s₀ : State} (h : Run Any s₀ s) (hstep : Step s l s') : Run Any s₀ s' :=
  h.step trivial hstep

/-- A request that looked before an entry was created stores what it saw after the cache was
cleared, and the next one is given it. -/
theorem stale_read : ∃ s₀ s₁ s₂ : State, s₀.Initial ∧ Run Any s₀ s₁ ∧ Run Any s₁ s₂ ∧
    s₁.writes 0 = some ⟨0, .createStockEntry, .returned 1⟩ ∧ s₁.gets 1 = none ∧
    ∃ response, s₂.gets 1 = some ⟨.products, 0, .answered response⟩ ∧
      ¬Reflects .products (s₂.history 0) 1 response := by
  have q₁ := Run.any .refl (@Step.start startedProcess 0 .products 0 rfl)
  have q₂ := q₁.any (@Step.miss _ 0 .products 0 rfl rfl)
  have q₃ := q₂.any (@Step.query _ 0 .products 0 [] 0 emptyStock rfl rfl rfl)
  have q₄ := q₃.any (@Step.query _ 0 .products 0 [(0, emptyStock)] 0 emptyStock rfl rfl rfl)
  have q₅ := q₄.any (@Step.query _ 0 .products 0 [(0, emptyStock), (0, emptyStock)] 0 emptyStock rfl
      rfl rfl)
  have r₁ := q₅.any (@Step.begin _ 0 0 .createStockEntry rfl)
  have r₂ := r₁.any (@Step.commit _ 0 0 .createStockEntry filledStock rfl)
  have r₃ := r₂.any (@Step.invalidate _ 0 0 .createStockEntry 1 .products [.orders] rfl)
  have r₄ := r₃.any (@Step.invalidate _ 0 0 .createStockEntry 1 .orders [] rfl)
  have before := r₄.any (@Step.finish _ 0 0 .createStockEntry 1 rfl)
  have p₁ := before.rest.any
    (@Step.store _ 0 .products 0 [(0, emptyStock), (0, emptyStock), (0, emptyStock)] _ rfl)
  have p₂ := p₁.any (@Step.start _ 1 .products 0 rfl)
  have after := p₂.any (@Step.hit _ 1 .products 0 _ rfl rfl)
  refine ⟨startedProcess, _, _, startedProcess_initial, before, after, rfl, rfl,
    .products (listProducts emptyStock emptyStock emptyStock), rfl, ?_⟩
  rintro ⟨seen, hread, hn⟩
  have hfilled : ∀ p ∈ seen, p.2 = filledStock := by
    intro p hp
    have hcommitted : [emptyStock, filledStock][p.1]? = some p.2 := hread.committed p hp
    have hlt : p.1 < 2 := (List.getElem?_eq_some_iff.1 hcommitted).1
    have hone : p.1 = 1 := by have := hn p hp; omega
    rw [hone] at hcommitted
    exact (Option.some.inj hcommitted).symm
  obtain ⟨skus, entries, exits, hseen, hresponse⟩ := products_result hread.result
  have hall : ∀ db ∈ [skus, entries, exits], db = filledStock := by
    rw [← hseen]
    intro db hdb
    obtain ⟨p, hp, rfl⟩ := List.mem_map.1 hdb
    exact hfilled p hp
  rw [hall skus (by simp), hall entries (by simp), hall exits (by simp)] at hresponse
  simp [listProducts, currentStocks, entrySum, exitSum, emptyStock, filledStock] at hresponse

end TrackFlow.Inventory
