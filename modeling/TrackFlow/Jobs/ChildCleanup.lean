import TrackFlow.Jobs.ChildProcess

/-!
# When `run_pipeline` lets go of the child

`execute_nightly_run` ends its claim whenever `run_pipeline` ends otherwise than by
`ManualReconciliationRequired`, so the child must be gone by then. The state only goes on (`Later`);
inside a block no signal raises, and what a block inside it consumes is not harmless (`Quiet`,
`Held`).

- `stopChild_held`, `stopChild_open`: what `_stop_child` leaves, inside the block at the end of the
  child and from a handler;
- `released_after_child`: in every run in which no signal raises while an exception is handled and
  the child is not gone, and no block inside another one consumes a signal, the child is gone when
  the run ends without asking for a reconciliation.
-/

namespace TrackFlow.Jobs.ChildProcess

open TrackFlow.Python TrackFlow.Python.Raising

variable {α β : Type} {w w' w'' : World} {timeout deadline : Int} {n : Nat} {e : Raised}

/-! ## Going on -/

/-- A signal that `run_pipeline` can afford: it does not raise in a handler before the child is
gone, and it is not consumed where nobody asks for it. -/
def Harmless : Notice → Prop
  | .delivered handling gone => handling = true → gone = true
  | .consumed inner => inner = false

instance : DecidablePred Harmless
  | .delivered handling gone => inferInstanceAs (Decidable (handling = true → gone = true))
  | .consumed inner => inferInstanceAs (Decidable (inner = false))

/-- All the signals so far were harmless. -/
def Clean (w : World) : Prop := ∀ n ∈ w.notices, Harmless n

instance : DecidablePred Clean := fun w => inferInstanceAs (Decidable (∀ n ∈ w.notices, Harmless n))

/-- A group that was found empty has lost its leader, and the cleanup is confirmed when the group
was found empty. -/
structure Sound (w : World) : Prop where
  seen : w.groupSeenEmpty = true → w.others = 0 ∧ ∃ code, w.child = .reaped code
  confirmed : w.cleanupConfirmed = true → w.groupSeenEmpty = true

/-- How a state goes on. -/
structure Later (w w' : World) : Prop where
  notices : w.notices <+: w'.notices
  seen : w.groupSeenEmpty = true → w'.groupSeenEmpty = true
  reaped : ∀ code, w.child = .reaped code → w'.child = .reaped code
  made : w.child ≠ .absent → w'.child ≠ .absent
  handling : w'.handling = w.handling
  sound : Sound w → Sound w'

theorem Later.refl (w : World) : Later w w := ⟨List.prefix_rfl, id, fun _ => id, id, rfl, id⟩

theorem Later.trans (h : Later w w') (h' : Later w' w'') : Later w w'' where
  notices := h.notices.trans h'.notices
  seen := h'.seen ∘ h.seen
  reaped code := h'.reaped code ∘ h.reaped code
  made := h'.made ∘ h.made
  handling := h'.handling.trans h.handling
  sound := h'.sound ∘ h.sound

theorem Later.clean (h : Later w w') (hc : Clean w') : Clean w := fun n hn => hc n (h.notices.subset hn)

/-- A group that was found empty belongs to a child that is gone. -/
theorem Sound.gone (h : Sound w) (hs : w.groupSeenEmpty = true) : w.gone = true := by
  obtain ⟨_, code, hc⟩ := h.seen hs
  simp [World.gone, hc, hs]

/-- Going on inside a block. -/
structure Quiet (w w' : World) : Prop extends Later w w' where
  blocked : w'.blocked = true
  same : Clean w' → w'.notices = w.notices

theorem Quiet.refl (h : w.blocked = true) : Quiet w w := ⟨Later.refl w, h, fun _ => rfl⟩

theorem Quiet.trans (h : Quiet w w') (h' : Quiet w' w'') : Quiet w w'' where
  toLater := h.toLater.trans h'.toLater
  blocked := h'.blocked
  same hc := (h'.same hc).trans (h.same (h'.clean hc))

/-- How a part of the program ends inside a block: it returns with `P`, or it raises one of `E`. -/
def Held (E : Raised → Prop) (P : α → World → Prop) (w : World) : Except Stop α → World → Prop
  | .ok a, w' => Quiet w w' ∧ P a w'
  | .error (.raised e), w' => Quiet w w' ∧ E e
  | .error .unfinished, _ => True

section Held

variable {E E' : Raised → Prop} {P P' : α → World → Prop} {R : β → World → Prop} {m : Act α} {f : α → Act β}
  {r : Except Stop α}

theorem Held.after (hq : Quiet w w') (h : Held E P w' r w'') : Held E P w r w'' := by
  cases r with
  | ok a => exact ⟨hq.trans h.1, h.2⟩
  | error stop =>
    cases stop with
    | raised e => exact ⟨hq.trans h.1, h.2⟩
    | unfinished => trivial

theorem Held.mono (hP : ∀ a w', P a w' → P' a w') (h : Held E P w r w') : Held E P' w r w' := by
  cases r with
  | ok a => exact ⟨h.1, hP a w' h.2⟩
  | error stop => cases stop <;> exact h

/-- A sequence inside a block. -/
theorem held_seq (hm : Post m (Held E P w) w)
    (hf : ∀ a w', Quiet w w' → P a w' → Post (f a) (Held E R w') w') : Post (m >>= f) (Held E R w) w := by
  refine post_seq hm (fun a w' h => ?_) fun stop w' h => ?_
  · exact post_mono (fun _ _ => Held.after h.1) (hf a w' h.1 h.2)
  · cases stop <;> exact h

theorem held_pure {a : α} (hb : w.blocked = true) (h : P a w) : Post (pure a) (Held E P w) w :=
  ⟨.refl hb, h⟩

theorem held_raised (hb : w.blocked = true) (h : E e) : Post (raised e) (Held E P w) w := ⟨.refl hb, h⟩

theorem held_unfinished : Post (raise .unfinished) (Held E P w) w := trivial

/-- A `try` inside a block. -/
theorem held_tryCatch {f : Stop → Act α} (hm : Post m (Held E' P w) w)
    (hf : ∀ e w', Quiet w w' → E' e → Post (f (.raised e)) (Held E P w') w')
    (hu : ∀ w', Post (f .unfinished) (Held E P w) w') : Post (Raising.tryCatch m f) (Held E P w) w := by
  refine post_tryCatch hm (fun _ _ => id) fun stop w' h => ?_
  cases stop with
  | raised e => exact post_mono (fun _ _ => Held.after h.1) (hf e w' h.1 h.2)
  | unfinished => exact hu w'

end Held

/-! ## Steps -/

theorem happen_later (w : World) (t : Tick) (rest : List Tick) :
    Later w ({ w with ticks := rest }.happen t) where
  notices := List.prefix_rfl
  seen := id
  reaped code h := by simp [World.happen, h]
  made h := by
    unfold World.happen
    cases hc : w.child with
    | absent => exact absurd hc h
    | running => cases t.exit <;> simp
    | exited code => simp
    | reaped code => simp
  handling := rfl
  sound h := by
    refine ⟨fun hs => ?_, h.confirmed⟩
    obtain ⟨ho, code, hc⟩ := h.seen hs
    exact ⟨by simp [World.happen, ho, hc], code, by simp [World.happen, hc]⟩

theorem happen_absent (w : World) (t : Tick) (rest : List Tick) (h : w.child = .absent) :
    ({ w with ticks := rest }.happen t).child = .absent := by
  simp [World.happen, h]

/-- A child that is gone stays gone. -/
theorem Later.gone (h : Later w w') (hmade : w.child ≠ .absent) (hg : w.gone = true) : w'.gone = true := by
  unfold World.gone at hg ⊢
  cases hc : w.child with
  | absent => exact absurd hc hmade
  | running => simp [hc] at hg
  | exited code => simp [hc] at hg
  | reaped code =>
    rw [h.reaped code hc]
    rw [hc] at hg
    exact h.seen hg

/-- How a step ends: nothing is delivered, or a signal raises. -/
structure Stepped (w : World) (r : Except Stop Unit) (w' : World) : Prop where
  later : Later w w'
  blocked : w'.blocked = w.blocked
  absent : w.child = .absent → w'.child = .absent
  same : (∀ e, r ≠ .error (.raised e)) → w'.notices = w.notices
  raises : ∀ e, r = .error (.raised e) → w.blocked = false ∧ isInterruption e = true ∧ e.isManual = false ∧
    .delivered w'.handling w'.gone ∈ w'.notices

theorem deliver_post (w : World) : Post deliver (Stepped w) w := by
  unfold Post deliver
  split
  · next s pending hb hp =>
    exact {
      later := ⟨List.prefix_append _ _, id, fun _ => id, id, rfl, fun h => ⟨h.seen, h.confirmed⟩⟩
      blocked := rfl
      absent := id
      same := fun h => absurd rfl (h _)
      raises := fun e he => by
        obtain rfl : interruption s.name = e := by injection he with he; injection he
        exact ⟨hb, rfl, rfl, List.mem_append_right _ List.mem_cons_self⟩ }
  · exact ⟨.refl w, rfl, id, fun _ => rfl, fun _ he => by cases he⟩

theorem step_post (w : World) : Post step (Stepped w) w := by
  unfold step
  cases ht : w.ticks with
  | nil =>
    simp only [Post, ht]
    exact ⟨.refl w, rfl, id, fun _ => rfl, fun _ he => by cases he⟩
  | cons t rest =>
    simp only [Post, ht]
    have h := deliver_post ({ w with ticks := rest }.happen t)
    exact ⟨(happen_later w t rest).trans h.later, h.blocked, h.absent ∘ happen_absent w t rest,
      h.same, h.raises⟩

/-- Outside of a block a step may raise. -/
theorem step_seq {f : Unit → Act β} {Q : Except Stop β → World → Prop}
    (hok : ∀ w', Stepped w (.ok ()) w' → Post (f ()) Q w')
    (herr : ∀ e w', Stepped w (.error (.raised e)) w' → Q (.error (.raised e)) w')
    (hu : ∀ w', Q (.error .unfinished) w') : Post (step >>= f) Q w := by
  refine post_seq (step_post w) (fun _ w' h => hok w' h) fun stop w' h => ?_
  cases stop with
  | raised e => exact herr e w' h
  | unfinished => exact hu w'

theorem Stepped.notices (h : Stepped w (.ok ()) w') : w'.notices = w.notices :=
  h.same fun _ he => by cases he

theorem Stepped.gone {r : Except Stop Unit} (h : Stepped w r w') (hg : w.gone = true) : w'.gone = true := by
  by_cases hc : w.child = .absent
  · simp [World.gone, h.absent hc]
  · exact h.later.gone hc hg

theorem Stepped.quiet (h : Stepped w (.ok ()) w') (hb : w.blocked = true) : Quiet w w' :=
  ⟨h.later, h.blocked.trans hb, fun _ => h.notices⟩

/-- Inside a block a step does not raise. -/
theorem step_held {E : Raised → Prop} (hb : w.blocked = true) :
    Post step (Held E (fun _ _ => True) w) w := by
  refine post_mono (fun r w' h => ?_) (step_post w)
  cases r with
  | ok _ => exact ⟨h.quiet hb, trivial⟩
  | error stop =>
    cases stop with
    | unfinished => trivial
    | raised e => cases hb.symm.trans (h.raises e rfl).1

/-! ## The child and its group -/

/-- The exceptions of the calls that a block makes. -/
def Plain (e : Raised) : Prop := isInterruption e = false

/-- An empty group, of a child that was made. -/
theorem groupExists_false (hmade : w.child ≠ .absent) (h : w.groupExists = false) :
    w.others = 0 ∧ ∃ code, w.child = .reaped code := by
  unfold World.groupExists at h
  cases hc : w.child with
  | absent => exact absurd hc hmade
  | running => simp [hc] at h
  | exited code => simp [hc] at h
  | reaped code => exact ⟨by simpa [hc] using h, code, rfl⟩

theorem killpg_held {E : Raised → Prop} (hb : w.blocked = true) :
    Post killpg (Held E (fun k w' => k = .lookup → w'.groupExists = false) w) w := by
  refine held_seq (step_held hb) fun _ w' hq _ => post_get_seq ?_
  cases hg : w'.groupExists with
  | true =>
    rw [if_pos rfl]
    refine held_pure hq.blocked fun hk => ?_
    split at hk <;> cases hk
  | false => exact held_pure hq.blocked fun _ => hg

/-- The group was found empty. -/
theorem seen_quiet (hb : w.blocked = true) (hmade : w.child ≠ .absent) (hg : w.groupExists = false) :
    Quiet w { w with groupSeenEmpty := true } where
  notices := List.prefix_rfl
  seen _ := rfl
  reaped _ := id
  made := id
  handling := rfl
  sound _ := ⟨fun _ => groupExists_false hmade hg, fun _ => rfl⟩
  blocked := hb
  same _ := rfl

theorem processGroupExists_held {E : Raised → Prop} (hb : w.blocked = true) (hmade : w.child ≠ .absent) :
    Post processGroupExists (Held E (fun b w' => b = false → w'.groupSeenEmpty = true) w) w := by
  refine held_seq (killpg_held hb) fun k w' hq hk => ?_
  cases k with
  | lookup =>
    have hseen := seen_quiet hq.blocked (hq.made hmade) (hk rfl)
    exact post_modify_seq (post_mono (fun _ _ => Held.after hseen) (held_pure hseen.blocked fun _ => rfl))
  | done => exact held_pure hq.blocked fun h => by cases h
  | permission => exact held_pure hq.blocked fun h => by cases h

/-- The exit of the child is collected. -/
theorem reap_later {code : Int} (hc : w.child = .exited code) :
    Later w { w with child := .reaped code } where
  notices := List.prefix_rfl
  seen := id
  reaped _ h := by rw [hc] at h; cases h
  made _ h := by cases h
  handling := rfl
  sound h := by
    refine ⟨fun hs => ?_, h.confirmed⟩
    obtain ⟨_, _, hr⟩ := h.seen hs
    rw [hc] at hr
    cases hr

theorem poll_held {E : Raised → Prop} (hb : w.blocked = true) :
    Post poll (Held E (fun _ _ => True) w) w := by
  refine held_seq (step_held hb) fun _ w' hq _ => post_get_seq ?_
  cases hc : w'.child with
  | absent => exact held_pure hq.blocked trivial
  | running => exact held_pure hq.blocked trivial
  | reaped code => exact held_pure hq.blocked trivial
  | exited code =>
    have hreap : Quiet w' { w' with child := .reaped code } := ⟨reap_later hc, hq.blocked, fun _ => rfl⟩
    exact post_modify_seq (post_mono (fun _ _ => Held.after hreap) (held_pure hreap.blocked trivial))

theorem signalChild_held (hb : w.blocked = true) : Post signalChild (Held Plain (fun _ _ => True) w) w := by
  refine held_seq (killpg_held hb) fun k w' hq _ => ?_
  cases k with
  | permission => exact held_raised hq.blocked rfl
  | done => exact held_pure hq.blocked trivial
  | lookup => exact held_pure hq.blocked trivial

theorem bound_held {E : Raised → Prop} (hb : w.blocked = true) :
    Post bound (Held E (fun _ _ => True) w) w :=
  post_get_seq (held_pure hb trivial)

theorem waitUntil_held (hb : w.blocked = true) :
    Post (waitUntil deadline n) (Held Plain (fun _ _ => True) w) w := by
  induction n generalizing w with
  | zero => exact held_unfinished
  | succ n ih =>
    refine held_seq (poll_held hb) fun c w' hq _ => ?_
    cases c with
    | some code => exact held_pure hq.blocked trivial
    | none =>
      refine post_get_seq ?_
      split
      · exact held_raised hq.blocked rfl
      · exact ih hq.blocked

theorem waitIgnoring_held (hb : w.blocked = true) :
    Post (waitIgnoring deadline n) (Held Plain (fun _ _ => True) w) w := by
  induction n generalizing w with
  | zero => exact held_unfinished
  | succ n ih =>
    refine held_seq (step_held hb) fun _ v hq _ => post_get_seq ?_
    split
    · exact held_raised hq.blocked rfl
    · have hwait : Post (bound >>= waitUntil deadline) (Held Plain (fun _ _ => True) v) v :=
        held_seq (bound_held hq.blocked) fun _ _ h _ => waitUntil_held h.blocked
      refine post_attempt_seq hwait fun r v' hr => ?_
      cases r with
      | ok code => exact ⟨hr.1, trivial⟩
      | error stop =>
        cases stop with
        | unfinished => trivial
        | raised e =>
          -- Nothing raises an interruption here.
          dsimp only
          rw [if_neg (by rw [hr.2]; exact Bool.false_ne_true)]
          exact hr

theorem waitIgnoringInterruptions_held (hb : w.blocked = true) :
    Post (waitIgnoringInterruptions timeout) (Held Plain (fun _ _ => True) w) w := by
  refine held_seq (step_held hb) fun _ v hq _ => post_get_seq ?_
  exact held_seq (bound_held hq.blocked) fun _ _ h _ => waitIgnoring_held h.blocked

theorem waitForGroup_held (hb : w.blocked = true) (hmade : w.child ≠ .absent) :
    Post (waitForGroup deadline n) (Held Plain (fun _ w' => w'.groupSeenEmpty = true) w) w := by
  induction n generalizing w with
  | zero => exact held_unfinished
  | succ n ih =>
    refine held_seq (processGroupExists_held hb hmade) fun b w' hq hb' => ?_
    cases b with
    | false => exact held_pure hq.blocked (hb' rfl)
    | true =>
      refine held_seq (step_held hq.blocked) fun _ v hv _ => post_get_seq ?_
      split
      · exact held_raised hv.blocked rfl
      · exact ih hv.blocked (hv.made (hq.made hmade))

theorem waitForProcessGroupExit_held (hb : w.blocked = true) (hmade : w.child ≠ .absent) :
    Post (waitForProcessGroupExit timeout) (Held Plain (fun _ w' => w'.groupSeenEmpty = true) w) w := by
  refine held_seq (step_held hb) fun _ v hv _ => post_get_seq ?_
  exact held_seq (bound_held hv.blocked) fun _ _ h _ => waitForGroup_held h.blocked (h.made (hv.made hmade))

/-! ## The cleanup -/

theorem terminate_held (hb : w.blocked = true) :
    Post (terminate timeout) (Held Plain (fun _ _ => True) w) w := by
  refine held_seq (signalChild_held hb) fun _ v hv _ => ?_
  refine held_tryCatch (waitIgnoringInterruptions_held hv.blocked) (fun e v' hv' he => ?_) fun _ => trivial
  split
  · exact held_seq (signalChild_held hv'.blocked) fun _ _ h _ => waitIgnoringInterruptions_held h.blocked
  · exact held_raised hv'.blocked he

theorem stopProcess_held (hb : w.blocked = true) :
    Post (stopProcess timeout) (Held Plain (fun _ _ => True) w) w := by
  refine held_seq (poll_held hb) fun c v hv _ => ?_
  cases c with
  | none => exact terminate_held hv.blocked
  | some code => exact waitIgnoringInterruptions_held hv.blocked

theorem stopBody_held (hb : w.blocked = true) (hmade : w.child ≠ .absent) :
    Post (stopBody timeout) (Held Plain (fun _ w' => w'.groupSeenEmpty = true) w) w := by
  refine held_seq (stopProcess_held hb) fun _ x hx _ => held_seq (poll_held hx.blocked) fun c y hy _ => ?_
  cases c with
  | none => exact held_raised hy.blocked rfl
  | some code =>
    have hmade' := hy.made (hx.made hmade)
    refine held_seq (processGroupExists_held hy.blocked hmade') fun b z hz hb' => ?_
    cases b with
    | false => exact held_pure hz.blocked (hb' rfl)
    | true =>
      refine held_seq (signalChild_held hz.blocked) fun _ u hu _ => ?_
      exact waitForProcessGroupExit_held hu.blocked (hu.made (hz.made hmade'))

/-- The `try` of `_stop_child`: it finds the group empty, or asks for a reconciliation. -/
theorem stop_held (hb : w.blocked = true) (hmade : w.child ≠ .absent) :
    Post (Raising.tryCatch (stopBody timeout) stopHandler)
      (Held (fun e => e.isManual = true) (fun _ w' => w'.groupSeenEmpty = true) w) w := by
  refine held_tryCatch (stopBody_held hb hmade) (fun e v hv he => ?_) fun _ => trivial
  unfold stopHandler
  dsimp only
  split
  · next hm => exact held_raised hv.blocked hm
  · rw [if_neg (by rw [he]; exact Bool.false_ne_true)]
    exact held_raised hv.blocked rfl

/-! ## Blocks -/

/-- The end of a block that consumed something is told by its `interrupted`. -/
structure Consumed (w w' : World) (interrupted : Bool) : Prop where
  nothing : interrupted = false → Clean w' → w'.notices = w.notices
  something : interrupted = true → .consumed w.blocked ∈ w'.notices

theorem Consumed.step {interrupted : Bool} (h : Consumed w w' interrupted) (hs : Stepped w' (.ok ()) w'') :
    Consumed w w'' interrupted where
  nothing hi hc := hs.notices.trans (h.nothing hi (hs.later.clean hc))
  something hi := hs.later.notices.subset (h.something hi)

/-- How a block ends: as its body does, or a signal raises before it or after it. -/
def BlockEnds (E : Raised → Prop) (P : α → World → Prop) (w : World) : Except Stop (α × Bool) → World → Prop
  | .ok (a, interrupted), w' => Later w w' ∧ w'.blocked = w.blocked ∧ P a w' ∧ Consumed w w' interrupted
  | .error (.raised e), w' => Later w w' ∧ w'.blocked = w.blocked ∧
    (E e ∧ (∃ interrupted, Consumed w w' interrupted) ∨ w.blocked = false ∧ isInterruption e = true ∧
      e.isManual = false ∧ .delivered w'.handling w'.gone ∈ w'.notices)
  | .error .unfinished, _ => True

/-- How the `finally` of a block ends. -/
def ConsumeEnds (previous : Bool) (w : World) : Except Stop Bool → World → Prop
  | .ok interrupted, w' => Later w w' ∧ w'.blocked = true ∧ (interrupted = false → w'.notices = w.notices) ∧
    (interrupted = true → .consumed previous ∈ w'.notices)
  | .error (.raised _), _ => False
  | .error .unfinished, _ => True

theorem consume_post {previous : Bool} (hb : w.blocked = true) :
    Post (consume previous) (ConsumeEnds previous w) w := by
  refine step_seq (fun v hv => post_get_seq ?_) (fun e v hv => ?_) fun _ => trivial
  · split
    · exact post_pure ⟨hv.later, hv.blocked.trans hb, fun _ => hv.notices, fun h => by cases h⟩
    · have hmark : Later v { v with notices := v.notices ++ [.consumed previous] } :=
        ⟨List.prefix_append _ _, id, fun _ => id, id, rfl, fun h => ⟨h.seen, h.confirmed⟩⟩
      refine post_modify_seq (step_seq (fun x hx => post_modify_seq (post_pure ?_)) (fun e x hx =>
          ?_) fun _ => trivial)
      · have hx' := hv.later.trans (hmark.trans hx.later)
        have hlater : Later w { x with pending := x.pending.filter fun s => s ∉ v.pending } :=
          ⟨hx'.notices, hx'.seen, hx'.reaped, hx'.made, hx'.handling, fun h =>
              ⟨(hx'.sound h).seen, (hx'.sound h).confirmed⟩⟩
        refine ⟨hlater, hx.blocked.trans (hv.blocked.trans hb), ⟨nofun, fun _ => ?_⟩⟩
        exact hx.later.notices.subset (List.mem_append_right _ List.mem_cons_self)
      · exact absurd ((hv.blocked.trans hb).symm.trans (hx.raises e rfl).1) (by decide)
  · exact absurd (hb.symm.trans (hv.raises e rfl).1) (by decide)

/-- The mask of a block is put on and taken off. -/
theorem mask_later (w : World) (b : Bool) : Later w { w with blocked := b } :=
  ⟨List.prefix_rfl, id, fun _ => id, id, rfl, fun h => ⟨h.seen, h.confirmed⟩⟩

/-- How the start of a block ends. -/
def BlockBegins (w : World) : Except Stop Bool → World → Prop
  | .ok previous, w' => previous = w.blocked ∧ ∃ v, Stepped w (.ok ()) v ∧ w' = { v with blocked := true }
  | .error stop, w' => Stepped w (.error stop) w'

theorem block_post (w : World) : Post block (BlockBegins w) w := by
  refine post_seq (step_post w) (fun _ v hv => ?_) fun stop v hv => hv
  exact post_get_seq (post_modify_seq (post_pure ⟨hv.blocked, v, hv, rfl⟩))

/-- The end of a block, whose body left `v`: the pending signals are consumed, and the old mask is back. -/
theorem leave_post {Q : Except Stop (α × Bool) → World → Prop} {v : World} {k : Bool → Act (α × Bool)}
    (hb : v.blocked = true) (hn : Clean v → v.notices = w.notices)
    (hok : ∀ interrupted x, Later v x → x.blocked = w.blocked → Consumed w x interrupted →
      Post (k interrupted) Q x)
    (herr : ∀ e x, Later v x → x.blocked = w.blocked → w.blocked = false → isInterruption e = true →
      e.isManual = false → .delivered x.handling x.gone ∈ x.notices → Q (.error (.raised e)) x)
    (hu : ∀ x, Q (.error .unfinished) x) :
    Post (do
      let interrupted ← consume w.blocked
      modify fun v => { v with blocked := w.blocked }
      step
      k interrupted) Q v := by
  refine post_seq (consume_post hb) (fun interrupted x hx => ?_) fun stop x hx => ?_
  · obtain ⟨hx, _, hnothing, hsomething⟩ := hx
    have hmask := hx.trans (mask_later x w.blocked)
    have hconsumed : Consumed w { x with blocked := w.blocked } interrupted :=
      ⟨fun hi hc => (hnothing hi).trans (hn (hx.clean hc)), hsomething⟩
    refine post_modify_seq (step_seq (fun y hy => ?_) (fun e y hy => ?_) hu)
    · exact hok interrupted y (hmask.trans hy.later) hy.blocked (hconsumed.step hy)
    · obtain ⟨hopen, hint, hman, hd⟩ := hy.raises e rfl
      exact herr e y (hmask.trans hy.later) hy.blocked hopen hint hman hd
  · cases stop with
    | unfinished => exact hu x
    | raised e => exact hx.elim

theorem withBlocked_post {E : Raised → Prop} {P : α → World → Prop} {body : Act α}
    (hP : ∀ a v v', Later v v' → P a v → P a v')
    (hbody : ∀ v, Stepped w (.ok ()) v → Post body (Held E P { v with blocked := true })
      { v with blocked := true }) :
    Post (withBlocked body) (BlockEnds E P w) w := by
  refine post_seq (block_post w) (fun previous v hv => ?_) fun stop v hv => ?_
  · obtain ⟨rfl, v, hstep, rfl⟩ := hv
    have hv := hstep.later.trans (mask_later v true)
    refine post_attempt_seq (hbody v hstep) fun r x hx => ?_
    cases r with
    | ok a =>
      refine leave_post hx.1.blocked (fun hc => (hx.1.same hc).trans hstep.notices) (fun i y hy hm hc => ?_)
        (fun e y hy hm ho hi hman hd => ?_) fun _ => trivial
      · exact post_pure ⟨hv.trans (hx.1.toLater.trans hy), hm, hP a _ _ hy hx.2, hc⟩
      · exact ⟨hv.trans (hx.1.toLater.trans hy), hm, .inr ⟨ho, hi, hman, hd⟩⟩
    | error stop =>
      cases stop with
      | unfinished => trivial
      | raised e =>
        refine leave_post hx.1.blocked (fun hc => (hx.1.same hc).trans hstep.notices)
          (fun i y hy hm hc => ?_) (fun e y hy hm ho hi hman hd => ?_) fun _ => trivial
        · exact ⟨hv.trans (hx.1.toLater.trans hy), hm, .inl ⟨hx.2, i, hc⟩⟩
        · exact ⟨hv.trans (hx.1.toLater.trans hy), hm, .inr ⟨ho, hi, hman, hd⟩⟩
  · cases stop with
    | unfinished => trivial
    | raised e => exact ⟨hv.later, hv.blocked, .inr (hv.raises e rfl)⟩

/-- Inside another block, what a block consumes is not harmless. -/
theorem Consumed.same {interrupted : Bool} (h : Consumed w w' interrupted) (hb : w.blocked = true)
    (hc : Clean w') : w'.notices = w.notices := by
  cases interrupted with
  | false => exact h.nothing rfl hc
  | true =>
    have hinner := hc _ (h.something rfl)
    rw [hb] at hinner
    cases hinner

/-- A block inside another one. -/
theorem withBlocked_held {E : Raised → Prop} {P : α → World → Prop} {body : Act α}
    (hP : ∀ a v v', Later v v' → P a v → P a v') (hb : w.blocked = true)
    (hbody : ∀ v, Stepped w (.ok ()) v → Post body (Held E P { v with blocked := true })
      { v with blocked := true }) :
    Post (withBlocked body) (Held E (fun x => P x.1) w) w := by
  refine post_mono (fun r w' h => ?_) (withBlocked_post hP hbody)
  cases r with
  | ok x =>
    obtain ⟨hlater, hm, hp, hc⟩ := h
    exact ⟨⟨hlater, hm.trans hb, hc.same hb⟩, hp⟩
  | error stop =>
    cases stop with
    | unfinished => trivial
    | raised e =>
      obtain ⟨hlater, hm, ⟨he, i, hc⟩ | ⟨ho, -⟩⟩ := h
      · exact ⟨⟨hlater, hm.trans hb, hc.same hb⟩, he⟩
      · rw [hb] at ho
        cases ho

/-! ## `_stop_child` -/

theorem stopped_later :
    ∀ (_ : Unit) v v', Later v v' → v.groupSeenEmpty = true → v'.groupSeenEmpty = true :=
  fun _ _ _ h => h.seen

theorem stopBlock_held (hmade : w.child ≠ .absent) (v : World) (hv : Stepped w (.ok ()) v) :
    Post (Raising.tryCatch (stopBody timeout) stopHandler)
      (Held (fun e => e.isManual = true) (fun _ w' => w'.groupSeenEmpty = true) { v with blocked := true })
      { v with blocked := true } :=
  stop_held rfl (hv.later.made hmade)

/-- `_stop_child` in the block at the end of the child. -/
theorem stopChild_held (hb : w.blocked = true) (hmade : w.child ≠ .absent) :
    Post (stopChild timeout) (Held (fun e => e.isManual = true) (fun _ w' => w'.groupSeenEmpty = true) w)
      w := by
  refine held_seq (step_held hb) fun _ v hv _ => ?_
  split
  · exact held_raised hv.blocked rfl
  · refine held_seq (withBlocked_held stopped_later hv.blocked (stopBlock_held (hv.made hmade)))
        fun _ x hx hs => ?_
    exact held_pure hx.blocked hs

/-- How `_stop_child` ends in a handler: a signal that raises there is not harmless, unless the
child is gone. -/
def StopEnds (w : World) : Except Stop Unit → World → Prop
  | .ok _, w' => Later w w' ∧ w'.gone = true
  | .error (.raised e), w' => Later w w' ∧ (e.isManual = true ∨ (Clean w' → w'.gone = true))
  | .error .unfinished, _ => True

/-- A harmless signal that raises in a handler finds the child gone. -/
theorem gone_of_delivered (hd : .delivered w.handling w.gone ∈ w.notices) (hh : w.handling = true)
    (hc : Clean w) :
    w.gone = true := hc _ hd hh

theorem Stepped.handled {r : Except Stop Unit} (h : Stepped w r w') (he : r = .error (.raised e))
    (hh : w.handling = true) (hc : Clean w') : w'.gone = true :=
  gone_of_delivered (h.raises e he).2.2.2 (h.later.handling.trans hh) hc

/-- `_stop_child` in a handler. -/
theorem stopChild_open (hmade : w.child ≠ .absent) (hh : w.handling = true) (hs : Sound w) :
    Post (stopChild timeout) (StopEnds w) w := by
  refine step_seq (fun v hv => ?_) (fun e v hv => ⟨hv.later, .inr (hv.handled rfl hh)⟩) fun _ => trivial
  split
  · exact ⟨hv.later, .inl rfl⟩
  · refine post_seq (withBlocked_post stopped_later (stopBlock_held (hv.later.made hmade)))
        (fun _ x hx => ?_) fun stop x hx => ?_
    · obtain ⟨hx, _, hseen, _⟩ := hx
      have hlater := hv.later.trans hx
      exact ⟨hlater, (hlater.sound hs).gone hseen⟩
    · cases stop with
      | unfinished => trivial
      | raised e =>
        obtain ⟨hx, _, ⟨he, -⟩ | ⟨_, _, _, hd⟩⟩ := hx
        · exact ⟨hv.later.trans hx, .inl he⟩
        · exact ⟨hv.later.trans hx,
              .inr (gone_of_delivered hd (hx.handling.trans (hv.later.handling.trans hh)))⟩

/-! ## The run -/

/-- The child is made in a block. -/
theorem popen_held {E : Raised → Prop} (hb : w.blocked = true) (ha : w.child = .absent) :
    Post popen (Held E (fun _ w' => w'.child ≠ .absent) w) w := by
  refine step_seq (fun v hv => ?_) (fun e v hv => ?_) fun _ => trivial
  · have habsent := hv.absent ha
    have hmake : Later v { v with child := .running } := {
      notices := List.prefix_rfl
      seen := id
      reaped := fun code hc => by rw [habsent] at hc; cases hc
      made := fun h => absurd habsent h
      handling := rfl
      sound := fun h => by
        refine ⟨fun hs => ?_, h.confirmed⟩
        obtain ⟨_, code, hc⟩ := h.seen hs
        rw [habsent] at hc
        cases hc }
    exact post_modify ⟨⟨hv.later.trans hmake, hv.blocked.trans hb, fun _ => hv.notices⟩, nofun⟩
  · exact absurd (hb.symm.trans (hv.raises e rfl).1) (by decide)

/-- How `process.wait()` ends outside of a block. -/
def WaitEnds (w : World) : Except Stop Int → World → Prop
  | .ok code, w' => Later w w' ∧ w'.notices = w.notices ∧ w'.child = .reaped code
  | .error (.raised e), w' => Later w w' ∧ isInterruption e = true
  | .error .unfinished, _ => True

/-- How `poll` ends outside of a block. -/
def PollEnds (w : World) : Except Stop (Option Int) → World → Prop
  | .ok c, w' => Later w w' ∧ w'.notices = w.notices ∧ ∀ code, c = some code → w'.child = .reaped code
  | .error (.raised e), w' => Later w w' ∧ isInterruption e = true
  | .error .unfinished, _ => True

theorem poll_post (w : World) : Post poll (PollEnds w) w := by
  refine step_seq (fun v hv => post_get_seq ?_) (fun e v hv => ⟨hv.later, (hv.raises e rfl).2.1⟩)
    fun _ => trivial
  cases hc : v.child with
  | absent => exact post_pure ⟨hv.later, hv.notices, nofun⟩
  | running => exact post_pure ⟨hv.later, hv.notices, nofun⟩
  | exited code =>
    refine post_modify_seq (post_pure ⟨hv.later.trans (reap_later hc), hv.notices, fun _ h => ?_⟩)
    obtain rfl := Option.some.inj h
    rfl
  | reaped code =>
    refine post_pure ⟨hv.later, hv.notices, fun _ h => ?_⟩
    obtain rfl := Option.some.inj h
    exact hc

theorem wait_post : Post (wait n) (WaitEnds w) w := by
  induction n generalizing w with
  | zero => trivial
  | succ n ih =>
    refine post_seq (poll_post w) (fun c v hv => ?_) fun stop v hv => ?_
    · obtain ⟨hlater, hn, hcode⟩ := hv
      cases c with
      | some code => exact post_pure ⟨hlater, hn, hcode code rfl⟩
      | none =>
        refine post_mono (fun r x hx => ?_) (ih (w := v))
        cases r with
        | ok code => exact ⟨hlater.trans hx.1, hx.2.1.trans hn, hx.2.2⟩
        | error stop =>
          cases stop with
          | raised e => exact ⟨hlater.trans hx.1, hx.2⟩
          | unfinished => trivial
    · cases stop <;> exact hv

/-- The block at the end of the child: the group is empty when it returns. -/
theorem completion_held (hb : w.blocked = true) (hmade : w.child ≠ .absent) :
    Post (do
      confirmGone timeout
      step
      modify fun w => { w with cleanupConfirmed := true })
      (Held (fun e => e.isManual = true) (fun _ w' => w'.groupSeenEmpty = true) w) w := by
  have hconfirm : Post (confirmGone timeout)
      (Held (fun e => e.isManual = true) (fun _ w' => w'.groupSeenEmpty = true) w) w := by
    refine held_seq (processGroupExists_held hb hmade) fun b v hv hseen => ?_
    cases b with
    | true => exact stopChild_held hv.blocked (hv.made hmade)
    | false => exact held_pure hv.blocked (hseen rfl)
  refine held_seq hconfirm fun _ v hv hseen => held_seq (step_held hv.blocked) fun _ x hx _ => ?_
  have hseen' := hx.seen hseen
  exact post_modify ⟨⟨⟨List.prefix_rfl, id, fun _ => id, id, rfl, fun h =>
      ⟨h.seen, fun _ => hseen'⟩⟩, hx.blocked, fun _ => rfl⟩,
    hseen'⟩

/-- How the `try` of `run_pipeline` ends. -/
def BodyEnds : Except Stop Int → World → Prop
  | .ok code, w' => Sound w' ∧ w'.child = .reaped code ∧ w'.groupSeenEmpty = true ∧ (Clean w' → w'.notices = [])
  | .error (.raised e), w' => Sound w' ∧ (e.isManual = true ∨ isInterruption e = true)
  | .error .unfinished, _ => True

/-- The state before `run_pipeline`. -/
structure Fresh (w : World) : Prop where
  blocked : w.blocked = false
  child : w.child = .absent
  others : w.others = 0
  confirmed : w.cleanupConfirmed = false
  seen : w.groupSeenEmpty = false
  notices : w.notices = []

theorem Fresh.sound (h : Fresh w) : Sound w :=
  ⟨fun hs => by simp [h.seen] at hs, fun hc => by simp [h.confirmed] at hc⟩

/-- A block that returns and says that nothing was consumed. -/
theorem Consumed.empty {interrupted : Bool} (h : Consumed w w' interrupted) (hn : w.notices = [])
    (hi : ¬ interrupted = true) (hc : Clean w') : w'.notices = [] :=
  (h.nothing (Bool.eq_false_of_not_eq_true hi) hc).trans hn

/-- After the child was made: it is waited for, and its group is confirmed to be empty. -/
theorem afterCreation_post (hs : Sound w) (hmade : w.child ≠ .absent) (hn : Clean w → w.notices = []) :
    Post (do
      let code ← bound >>= wait
      let (_, completion) ← withBlocked do
        confirmGone timeout
        step
        modify fun w => { w with cleanupConfirmed := true }
      step
      if completion then raised (controlled "pipeline execution was interrupted after child completion") else return code)
      BodyEnds w := by
  have hwait : Post (bound >>= wait) (WaitEnds w) w := post_get_seq wait_post
  refine post_seq hwait (fun code v hv => ?_) fun stop v hv => ?_
  · obtain ⟨hv, hvn, hcode⟩ := hv
    have hblock := withBlocked_post (w := v) (E := fun e => e.isManual = true) (P := fun _ w' =>
        w'.groupSeenEmpty = true)
      stopped_later fun u hu => @completion_held _ timeout rfl (hu.later.made (hv.made hmade))
    refine post_seq hblock (fun x y hy => ?_) fun stop y hy => ?_
    · obtain ⟨hy, _, hseen, hcons⟩ := hy
      refine step_seq (fun z hz => ?_) (fun e z hz => ?_) fun _ => trivial
      · have hz' := hv.trans (hy.trans hz.later)
        split
        · exact ⟨hz'.sound hs, .inr rfl⟩
        · next hi =>
          refine ⟨hz'.sound hs, (hy.trans hz.later).reaped _ hcode, hz.later.seen hseen, fun hc => ?_⟩
          have hcv := hy.clean (hz.later.clean hc)
          exact hz.notices.trans (hcons.empty (hvn.trans (hn (hv.clean hcv))) hi (hz.later.clean hc))
      · exact ⟨(hv.trans (hy.trans hz.later)).sound hs, .inr (hz.raises e rfl).2.1⟩
    · cases stop with
      | unfinished => trivial
      | raised e =>
        obtain ⟨hy, _, ⟨he, -⟩ | ⟨_, he, -⟩⟩ := hy
        · exact ⟨(hv.trans hy).sound hs, .inl he⟩
        · exact ⟨(hv.trans hy).sound hs, .inr he⟩
  · cases stop with
    | unfinished => trivial
    | raised e => exact ⟨hv.1.sound hs, .inr hv.2⟩

theorem runBody_post (h : Fresh w) : Post (runBody timeout) BodyEnds w := by
  have hblock := withBlocked_post (w := w) (E := fun e => e.isManual = true) (P := fun _ w' => w'.child ≠ .absent)
    (fun _ _ _ h => h.made) fun u hu => popen_held rfl (hu.absent h.child)
  refine post_seq hblock (fun x v hv => ?_) fun stop v hv => ?_
  · obtain ⟨hv, _, hmade, hcons⟩ := hv
    refine step_seq (fun y hy => ?_) (fun e y hy => ?_) fun _ => trivial
    · have hy' := hv.trans hy.later
      split
      · exact ⟨hy'.sound h.sound, .inr rfl⟩
      · next hi =>
        refine afterCreation_post (hy'.sound h.sound) (hy.later.made hmade) fun hc => ?_
        exact hy.notices.trans (hcons.empty h.notices hi (hy.later.clean hc))
    · exact ⟨(hv.trans hy.later).sound h.sound, .inr (hy.raises e rfl).2.1⟩
  · cases stop with
    | unfinished => trivial
    | raised e =>
      obtain ⟨hv, _, ⟨he, -⟩ | ⟨_, he, -⟩⟩ := hv
      · exact ⟨hv.sound h.sound, .inl he⟩
      · exact ⟨hv.sound h.sound, .inr he⟩

/-- How an `except` clause of `run_pipeline` ends: it raises. -/
def HandlerEnds {α : Type} : Except Stop α → World → Prop
  | .ok _, _ => False
  | .error (.raised e), w' => Sound w' ∧ (e.isManual = true ∨ (Clean w' → w'.gone = true))
  | .error .unfinished, _ => True

/-- How the cleanup after an interruption ends: without an exception the child is gone. -/
def CleanedUp (w : World) : Except Stop Unit → World → Prop
  | .ok _, w' => Later w w' ∧ w'.gone = true
  | .error stop, w' => HandlerEnds (α := Unit) (.error stop) w'

theorem stopInterrupted_post (hh : w.handling = true) (hs : Sound w) :
    Post (stopInterrupted timeout) (CleanedUp w) w := by
  refine post_get_seq ?_
  split
  · next hstop =>
    have hmade : w.child ≠ .absent := by
      simp only [World.mustStop, Bool.and_eq_true, decide_eq_true_eq] at hstop
      exact hstop.1
    refine post_tryCatch (stopChild_open hmade hh hs) (fun _ v hv => hv) fun stop v hv => ?_
    cases stop with
    | unfinished => trivial
    | raised e =>
      obtain ⟨hv, he⟩ := hv
      dsimp only
      split
      · next hm =>
        refine step_seq (fun x hx => ?_) (fun e x hx => ?_) fun _ => trivial
        · exact ⟨hx.later.sound (hv.sound hs), .inl hm⟩
        · exact ⟨hx.later.sound (hv.sound hs), .inr (hx.handled rfl (hv.handling.trans hh))⟩
      · next hm => exact ⟨hv.sound hs, .inr (he.resolve_left hm)⟩
  · next hstop =>
    refine post_pure ⟨.refl w, ?_⟩
    by_cases ha : w.child = .absent
    · simp [World.gone, ha]
    · have hconfirmed : w.cleanupConfirmed = true := by simpa [World.mustStop, ha] using hstop
      exact hs.gone (hs.confirmed hconfirmed)

theorem runHandler_post (hs : Sound w) (he : e.isManual = true ∨ isInterruption e = true) :
    Post (runHandler timeout (.raised e)) HandlerEnds w := by
  have hmark : Sound { w with handling := true } := ⟨hs.seen, hs.confirmed⟩
  refine post_modify_seq (step_seq (fun v hv => ?_) (fun e v hv => ?_) fun _ => trivial)
  · have hsv := hv.later.sound hmark
    split
    · next hm => exact ⟨hsv, .inl hm⟩
    · next hm =>
      rw [if_pos (he.resolve_left hm)]
      refine post_seq (stopInterrupted_post hv.later.handling hsv) (fun _ x hx => ?_) fun stop x hx => ?_
      · have hsx := hx.1.sound hsv
        refine step_seq (fun y hy => ?_) (fun e y hy => ?_) fun _ => trivial
        · exact ⟨hy.later.sound hsx, .inr fun _ => hy.gone hx.2⟩
        · exact ⟨hy.later.sound hsx, .inr fun _ => hy.gone hx.2⟩
      · cases stop <;> exact hx
  · exact ⟨hv.later.sound hmark, .inr (hv.handled rfl rfl)⟩

/-- The child was reaped, and then its group was found empty, which has no members now. -/
def World.Released (w : World) : Prop :=
  w.child ≠ .absent → (∃ code, w.child = .reaped code) ∧ w.groupSeenEmpty = true ∧ w.others = 0

theorem Sound.released (h : Sound w) (hg : w.gone = true) : w.Released := by
  intro hmade
  unfold World.gone at hg
  cases hc : w.child with
  | absent => exact absurd hc hmade
  | running => simp [hc] at hg
  | exited code => simp [hc] at hg
  | reaped code =>
    rw [hc] at hg
    exact ⟨⟨code, rfl⟩, hg, (h.seen hg).1⟩

/-- What may be relied upon when `run_pipeline` has ended. -/
structure RunEnds (r : Except Stop Unit) (w : World) : Prop where
  raised : ∀ e, r = .error (.raised e) → e.isManual = false → w.Released
  returned : r = .ok () → w.Released ∧ w.child = .reaped 0 ∧ w.notices = []

theorem runPipeline_post (h : Fresh w) :
    Post (runPipeline timeout) (fun r w' => Clean w' → RunEnds r w') w := by
  have htry : Post (Raising.tryCatch (runBody timeout) (runHandler timeout)) (fun r w' => match r with
      | .ok code => BodyEnds (.ok code) w'
      | .error stop => HandlerEnds (α := Int) (.error stop) w') w := by
    refine post_tryCatch (runBody_post h) (fun code v hv => hv) fun stop v hv => ?_
    cases stop with
    | unfinished => trivial
    | raised e =>
      refine post_mono (fun r x hx => ?_) (runHandler_post hv.1 hv.2)
      cases r with
      | ok code => exact hx.elim
      | error stop => exact hx
  refine post_seq htry (fun code v hv => ?_) fun stop v hv hc => ?_
  · obtain ⟨hs, hcode, hseen, hn⟩ := hv
    refine step_seq (fun x hx => ?_) (fun e x hx hc => ?_) fun _ _ => ⟨nofun, nofun⟩
    · have hreleased := (hx.later.sound hs).released ((hx.later.sound hs).gone (hx.later.seen hseen))
      split
      · exact fun _ => ⟨fun _ _ _ => hreleased, nofun⟩
      · next hzero =>
        intro hc
        obtain rfl : code = 0 := not_not.mp hzero
        refine ⟨nofun, fun _ => ⟨hreleased, hx.later.reaped 0 hcode, ?_⟩⟩
        exact hx.notices.trans (hn (hx.later.clean hc))
    · refine ⟨fun _ _ _ => ?_, nofun⟩
      exact (hx.later.sound hs).released ((hx.later.sound hs).gone (hx.later.seen hseen))
  · cases stop with
    | unfinished => exact ⟨nofun, nofun⟩
    | raised e =>
      obtain ⟨hs, hv⟩ := hv
      refine ⟨fun e' he hm => ?_, nofun⟩
      obtain rfl : e = e' := by injection he with he; injection he
      exact hs.released (hv.resolve_left (by simp [hm]) hc)

/-- `run_pipeline` from its start, with the ticks to come. -/
def World.start (ticks : List Tick) (now : Int) : World := { ticks, now }

theorem start_fresh (ticks : List Tick) (now : Int) : Fresh (.start ticks now) :=
  ⟨rfl, rfl, rfl, rfl, rfl, rfl⟩

/-- The child is gone when `run_pipeline` ends without asking for a reconciliation, and
`run_pipeline` returns only for exit code zero and without a signal, if all the signals of the run
were harmless. -/
theorem released_after_child (timeout now : Int) (ticks : List Tick)
    (hclean : Clean (runPipeline timeout (.start ticks now)).2) :
    RunEnds (runPipeline timeout (.start ticks now)).1 (runPipeline timeout (.start ticks now)).2 :=
  runPipeline_post (start_fresh ticks now) hclean

/-- Nothing happens. -/
def Tick.calm : Tick := { }

/-- A signal while the child runs: it exits with the first signal of the cleanup, and its
descendants with the second. -/
def interruptedOnce : List Tick :=
  List.replicate 5 .calm ++ [{ signal := some .sigterm }] ++ List.replicate 6 .calm ++
    [{ exit := some (-15), others := 1 }] ++ List.replicate 20 .calm

theorem released_after_child_once :
    (runPipeline 30 (.start interruptedOnce 0)).2.child = .reaped (-15) ∧
      RunEnds (runPipeline 30 (.start interruptedOnce 0)).1
      (runPipeline 30 (.start interruptedOnce 0)).2 := by
  have hchild : (runPipeline 30 (.start interruptedOnce 0)).2.child = .reaped (-15) := by decide +kernel
  have hclean : Clean (runPipeline 30 (.start interruptedOnce 0)).2 := by decide +kernel
  exact And.intro hchild (released_after_child 30 0 interruptedOnce hclean)

/-- How `run_pipeline` ended. -/
inductive Ending
  | returned
  | manual
  | other
  | none
  deriving DecidableEq

/-- The ending of a run. -/
def ending : Except Stop Unit → Ending
  | .ok _ => .returned
  | .error (.raised e) => if e.isManual then .manual else .other
  | .error .unfinished => .none

theorem RunEnds.of_returned {r : Except Stop Unit} (h : RunEnds r w) (hr : ending r = .returned) :
    w.notices = [] := by
  cases r with
  | ok _ => exact (h.returned rfl).2.2
  | error stop =>
    cases stop with
    | raised e => cases hm : e.isManual <;> simp [ending, hm] at hr
    | unfinished => cases hr

theorem RunEnds.of_other {r : Except Stop Unit} (h : RunEnds r w) (hr : ending r = .other) :
    w.Released := by
  cases r with
  | ok _ => cases hr
  | error stop =>
    cases stop with
    | raised e =>
      refine h.raised e rfl ?_
      cases hm : e.isManual with
      | true => simp [ending, hm] at hr
      | false => rfl
    | unfinished => cases hr

/-- A second signal before `_stop_child` blocks. -/
def interruptedTwice : List Tick := List.replicate 5 .calm ++ List.replicate 2 { signal := some .sigterm }

/-- A signal while the descendants of a child that has exited are stopped. -/
def interruptedInside : List Tick :=
  List.replicate 4 .calm ++ [{ exit := some 0, others := 1 }] ++ List.replicate 4 { others := 1 } ++
    [{ others := 1, signal := some .sigterm }] ++ List.replicate 4 { others := 1 } ++
      List.replicate 20 .calm

/-- The second signal leaves the child running, and the block inside the other one swallows a signal. -/
theorem not_released_interrupted :
    ¬ RunEnds (runPipeline 30 (.start interruptedTwice 0)).1
      (runPipeline 30 (.start interruptedTwice 0)).2 ∧
    ¬ RunEnds (runPipeline 30 (.start interruptedInside 0)).1
      (runPipeline 30 (.start interruptedInside 0)).2 := by
  have hchild : (runPipeline 30 (.start interruptedTwice 0)).2.child = .running := by decide +kernel
  have hnotices : (runPipeline 30 (.start interruptedInside 0)).2.notices = [.consumed true] :=
    by decide +kernel
  constructor
  · intro h
    obtain ⟨⟨code, hcode⟩, -⟩ := h.of_other (by decide +kernel) (by rw [hchild]; decide)
    rw [hchild] at hcode
    cases hcode
  · intro h
    have hnone := h.of_returned (by decide +kernel)
    rw [hnotices] at hnone
    cases hnone

end TrackFlow.Jobs.ChildProcess
