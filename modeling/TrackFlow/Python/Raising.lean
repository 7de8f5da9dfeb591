import Mathlib

/-!
# Programs that raise

`Raising σ ε α`: a program changes a state and may raise; what it changed before raising stays
changed. `attempt` is `try` with the exception handed on as a value. `Post` is the weakest
precondition of a postcondition on the result and the state; a sequence is examined by `post_bind`,
a `try` by `post_attempt`.
-/

namespace TrackFlow.Python

variable {σ ε α β : Type}

/-- From a sequence of checks that passed, its two parts. -/
theorem bind_ok {ε : Type} {x : Except ε α} {f : α → Except ε β} {b : β} (h : (x >>= f) = .ok b) :
    ∃ a, x = .ok a ∧ f a = .ok b := by
  cases x with
  | error e => cases h
  | ok a => exact ⟨a, rfl, h⟩

/-- A sequence of checks fails in its first part or in the rest. -/
theorem bind_error {ε α β : Type} {x : Except ε α} {f : α → Except ε β} {e : ε} (h : (x >>= f) = .error e) :
    x = .error e ∨ ∃ a, x = .ok a ∧ f a = .error e := by
  cases x with
  | error e' => exact Or.inl (by cases h; rfl)
  | ok a => exact Or.inr ⟨a, rfl, h⟩

/-- A program on a state that may raise. -/
def Raising (σ ε α : Type) : Type := σ → Except ε α × σ

namespace Raising

/-- Sequencing: an exception ends it. -/
protected def bind (m : Raising σ ε α) (f : α → Raising σ ε β) : Raising σ ε β := fun s =>
  match m s with
  | (.ok a, s') => f a s'
  | (.error e, s') => (.error e, s')

instance : Monad (Raising σ ε) where
  pure a := fun s => (.ok a, s)
  bind := Raising.bind

/-- `raise`. -/
def raise (e : ε) : Raising σ ε α := fun s => (.error e, s)

/-- `if c: raise e`. -/
def raiseIf (c : Prop) [Decidable c] (e : ε) : Raising σ ε Unit :=
  fun s => (if c then .error e else .ok (), s)

/-- What a program that cannot change the state returns. -/
def ofExcept (x : Except ε α) : Raising σ ε α := fun s => (x, s)

/-- `try`: the outcome as a value. -/
def attempt (m : Raising σ ε α) : Raising σ ε (Except ε α) := fun s => (.ok (m s).1, (m s).2)

/-- Read the state. -/
def get : Raising σ ε σ := fun s => (.ok s, s)

/-- Change the state. -/
def modify (f : σ → σ) : Raising σ ε Unit := fun s => (.ok (), f s)

/-- A sequence that returns: both parts do. -/
theorem bind_eq_ok {m : Raising σ ε α} {f : α → Raising σ ε β} {b : β} {s s'' : σ}
    (h : (m >>= f) s = (.ok b, s'')) : ∃ a s', m s = (.ok a, s') ∧ f a s' = (.ok b, s'') := by
  change Raising.bind m f s = _ at h
  unfold Raising.bind at h
  cases hm : m s with
  | mk r s' =>
    rw [hm] at h
    cases r with
    | ok a => exact ⟨a, s', rfl, h⟩
    | error e => cases h

/-- A sequence whose first part returns. -/
theorem bind_of_ok {m : Raising σ ε α} {f : α → Raising σ ε β} {a : α} {s s' : σ} (h : m s = (.ok a, s')) :
    (m >>= f) s = f a s' := by
  change Raising.bind m f s = _
  unfold Raising.bind
  rw [h]

/-- A sequence whose first part raises. -/
theorem bind_of_error {m : Raising σ ε α} {f : α → Raising σ ε β} {e : ε} {s s' : σ}
    (h : m s = (.error e, s')) : (m >>= f) s = (.error e, s') := by
  change Raising.bind m f s = _
  unfold Raising.bind
  rw [h]

/-- `Q` holds of the outcome and the state that `m` leaves. -/
def Post (m : Raising σ ε α) (Q : Except ε α → σ → Prop) (s : σ) : Prop := Q (m s).1 (m s).2

variable {m : Raising σ ε α} {f : α → Raising σ ε β} {Q Q' : Except ε α → σ → Prop} {s : σ}

/-- What follows `m` in a sequence: the rest, or the exception. -/
def andThen (f : α → Raising σ ε β) (Q : Except ε β → σ → Prop) : Except ε α → σ → Prop
  | .ok a, s => Post (f a) Q s
  | .error e, s => Q (.error e) s

theorem post_bind {Q : Except ε β → σ → Prop} (h : Post m (andThen f Q) s) : Post (m >>= f) Q s := by
  show Q (Raising.bind m f s).1 (Raising.bind m f s).2
  unfold Post at h
  unfold Raising.bind
  cases hm : m s with
  | mk r s' =>
    rw [hm] at h
    cases r <;> exact h

theorem post_pure {a : α} (h : Q (.ok a) s) : Post (pure a) Q s := h

theorem post_raise {e : ε} (h : Q (.error e) s) : Post (raise e) Q s := h

theorem post_attempt {Q : Except ε (Except ε α) → σ → Prop} (h : Post m (fun r => Q (.ok r)) s) :
    Post (attempt m) Q s := h

theorem post_get {Q : Except ε σ → σ → Prop} (h : Q (.ok s) s) : Post get Q s := h

theorem post_modify {g : σ → σ} {Q : Except ε Unit → σ → Prop} (h : Q (.ok ()) (g s)) :
    Post (modify g) Q s := h

theorem post_ofExcept {x : Except ε α} (h : Q x s) : Post (ofExcept x) Q s := h

section Sequences

variable {k : α → Raising σ ε β} {Q : Except ε β → σ → Prop}

theorem post_get_seq {k : σ → Raising σ ε β} (h : Post (k s) Q s) : Post (get >>= k) Q s := post_bind h

theorem post_raise_seq {e : ε} (h : Q (.error e) s) : Post (raise e >>= k) Q s := post_bind h

theorem post_modify_seq {g : σ → σ} {k : Unit → Raising σ ε β} (h : Post (k ()) Q (g s)) :
    Post (modify g >>= k) Q s :=
  post_bind h

/-- A sequence that begins with what cannot change the state. -/
theorem post_ofExcept_seq {x : Except ε α} (hok : ∀ a, x = .ok a → Post (k a) Q s)
    (herr : ∀ e, x = .error e → Q (.error e) s) : Post (ofExcept x >>= k) Q s := by
  cases x with
  | ok a => exact post_bind (hok a rfl)
  | error e => exact post_bind (herr e rfl)

theorem post_raiseIf_seq {c : Prop} [Decidable c] {e : ε} {k : Unit → Raising σ ε β}
    (hraise : c → Q (.error e) s) (hok : ¬ c → Post (k ()) Q s) : Post (raiseIf c e >>= k) Q s := by
  refine post_bind ?_
  unfold Post raiseIf
  by_cases h : c
  · rw [if_pos h]
    exact hraise h
  · rw [if_neg h]
    exact hok h

end Sequences

/-- An exception is handled by `f`; `f` may raise it again. -/
def tryCatch (m : Raising σ ε α) (f : ε → Raising σ ε α) : Raising σ ε α := do
  match ← attempt m with
  | .ok a => pure a
  | .error e => f e

theorem post_mono (hQ : ∀ r s', Q r s' → Q' r s') (h : Post m Q s) : Post m Q' s := hQ _ _ h

/-- A sequence whose first part has the postcondition `P`. -/
theorem post_seq {P : Except ε α → σ → Prop} {Q : Except ε β → σ → Prop} (hm : Post m P s)
    (hok : ∀ a s', P (.ok a) s' → Post (f a) Q s') (herr : ∀ e s', P (.error e) s' → Q (.error e) s') :
    Post (m >>= f) Q s := by
  refine post_bind (post_mono (fun r s' h => ?_) hm)
  cases r with
  | ok a => exact hok a s' h
  | error e => exact herr e s' h

/-- A sequence that takes the outcome of its first part as a value. -/
theorem post_attempt_seq {P : Except ε α → σ → Prop} {k : Except ε α → Raising σ ε β}
    {Q : Except ε β → σ → Prop}
    (hm : Post m P s) (h : ∀ r s', P r s' → Post (k r) Q s') : Post (attempt m >>= k) Q s :=
  post_bind (post_attempt (post_mono h hm))

/-- A `try` whose body has the postcondition `P`. -/
theorem post_tryCatch {P : Except ε α → σ → Prop} {f : ε → Raising σ ε α} (hm : Post m P s)
    (hok : ∀ a s', P (.ok a) s' → Q (.ok a) s') (herr : ∀ e s', P (.error e) s' → Post (f e) Q s') :
    Post (tryCatch m f) Q s := by
  refine post_bind (post_attempt (post_mono (fun r s' h => ?_) hm))
  cases r with
  | ok a => exact hok a s' h
  | error e => exact herr e s' h

/-! ## Invariants -/

/-- `m` keeps the invariant `I`, however it ends. -/
def Preserves (I : σ → Prop) (m : Raising σ ε α) : Prop := ∀ s, I s → Post m (fun _ s' => I s') s

namespace Preserves

variable {I : σ → Prop}

theorem post (h : Preserves I m) (hs : I s) (hQ : ∀ r s', I s' → Q r s') : Post m Q s := hQ _ _ (h s hs)

theorem bind (hm : Preserves I m) (hf : ∀ a, Preserves I (f a)) : Preserves I (m >>= f) := by
  intro s hs
  refine post_bind (hm.post hs ?_)
  intro r s' hs'
  cases r with
  | ok a => exact hf a s' hs'
  | error e => exact hs'

theorem pure (a : α) : Preserves I (Pure.pure a : Raising σ ε α) := fun _ hs => hs

theorem raise (e : ε) : Preserves I (raise e : Raising σ ε α) := fun _ hs => hs

theorem ofExcept (x : Except ε α) : Preserves I (ofExcept x : Raising σ ε α) := fun _ hs => hs

theorem get : Preserves I (get : Raising σ ε σ) := fun _ hs => hs

theorem raiseIf (c : Prop) [Decidable c] (e : ε) : Preserves I (raiseIf c e : Raising σ ε Unit) :=
  fun _ hs => hs

theorem modify {g : σ → σ} (h : ∀ s, I s → I (g s)) : Preserves I (modify g : Raising σ ε Unit) := h

theorem attempt (hm : Preserves I m) : Preserves I (attempt m) := hm

theorem tryCatch {f : ε → Raising σ ε α} (hm : Preserves I m) (hf : ∀ e, Preserves I (f e)) :
    Preserves I (tryCatch m f) := by
  refine hm.attempt.bind fun r => ?_
  cases r with
  | ok a => exact pure a
  | error e => exact hf e

end Preserves

end Raising

end TrackFlow.Python
