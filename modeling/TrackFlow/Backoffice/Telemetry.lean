import Mathlib

/-!
# The telemetry service of the backoffice

`TelemetryService` as an event loop: what its entry points do to its fields, to the timers of the
runtime and to the calls of `flushBatch` that are suspended. Batches are numbered in the order in
which they leave the queue, and a log tells what was sent.

- `Core` is kept by every step (`Step.core`), and a queue that is not empty is `Armed` after every
  step (`Step.armed`);
- `telemetry_keeps_events`: no event is lost or stranded, whatever the interleaving.
-/

namespace TrackFlow.Backoffice

/-- `MAX_BATCH_SIZE`. -/
def maxBatchSize : Nat := 20

/-- `MAX_SEND_ATTEMPTS`. -/
def maxSendAttempts : Nat := 3

variable {α : Type}

/-! ## State -/

/-- A batch, with its number in the order of leaving the queue. -/
structure Batch (α : Type) where
  number : Nat
  events : List α

/-- Where a call of `flushBatch` is: waiting for a response, for the delay before the next attempt,
or done. -/
inductive Phase
  | fetching
  | delaying
  | returned (delivered : Bool)

/-- A call of `flushBatch`. -/
structure Flush (α : Type) where
  batch : Batch α
  attempt : Nat
  phase : Phase

/-- What became of a batch. -/
inductive Fate
  | delivered
  | beaconed
  | dropped
  deriving DecidableEq

/-- What happened to the batch with a number: a request was sent, a response was a success, or a
beacon was accepted. -/
inductive Entry
  | fetch (number : Nat)
  | success (number : Nat)
  | beacon (number : Nat)
  deriving DecidableEq

/-- The number of the batch. -/
def Entry.number : Entry → Nat
  | fetch n => n
  | success n => n
  | beacon n => n

/-- The fields of the service, the runtime and the history. -/
structure Telemetry (α : Type) where
  queue : List α := []
  flushTimer : Option Nat := none
  flushInProgress : Bool := false
  activeBatch : Option (Batch α) := none
  activeBatchBeaconQueued : Bool := false
  timers : List Nat := []
  nextTimer : Nat := 0
  running : List (Flush α) := []
  tracked : List α := []
  left : List (Batch α) := []
  finished : List (Batch α × Fate) := []
  log : List Entry := []

namespace Telemetry

variable (σ : Telemetry α)

/-! ## Timers and flushes -/

/-- `scheduleFlush`. -/
def scheduleFlush : Telemetry α :=
  if σ.flushInProgress = true ∨ σ.flushTimer.isSome = true ∨ σ.queue = [] then σ
  else { σ with flushTimer := some σ.nextTimer, timers := σ.timers ++ [σ.nextTimer], nextTimer := σ.nextTimer + 1 }

/-- `clearTimeout(this.flushTimer)`, if there is a timer. -/
def clearFlushTimer : Telemetry α :=
  match σ.flushTimer with
  | some t => { σ with flushTimer := none, timers := σ.timers.filter (· ≠ t) }
  | none => σ

/-- The batch at the head of the queue. -/
def nextBatch : Batch α := ⟨σ.left.length, σ.queue.take maxBatchSize⟩

/-- The loop of `flushBatch` from the head of its body: a request, unless a beacon has taken the batch. -/
def attempt (before : List (Flush α)) (f : Flush α) (after : List (Flush α)) : Telemetry α :=
  if σ.activeBatchBeaconQueued = true then
      { σ with running := before ++ { f with phase := .returned false } :: after }
  else { σ with
    running := before ++ { f with phase := .fetching } :: after
    log := σ.log ++ [.fetch f.batch.number] }

/-- `startFlush`; `flushBatch` runs up to its first request. -/
def startFlush : Telemetry α :=
  if σ.flushInProgress = true ∨ σ.queue = [] then σ
  else
    let σ := σ.clearFlushTimer
    let batch := σ.nextBatch
    let σ := { σ with
      queue := σ.queue.drop maxBatchSize
      left := σ.left ++ [batch]
      activeBatch := some batch
      activeBatchBeaconQueued := false
      flushInProgress := true }
    σ.attempt σ.running ⟨batch, 1, .fetching⟩ []

/-- `track`; there is no event when the envelope cannot be made. -/
def track : Option α → Telemetry α
  | none => σ
  | some event =>
    let σ := { σ with queue := σ.queue ++ [event], tracked := σ.tracked ++ [event] }
    let σ := σ.scheduleFlush
    if maxBatchSize ≤ σ.queue.length then σ.startFlush else σ

/-- The callback of the flush timer. -/
def timerFired (t : Nat) : Telemetry α :=
  startFlush { σ with flushTimer := none, timers := σ.timers.filter (· ≠ t) }

/-- Whether a response is one: `none` is a rejection. -/
def isSuccess (response : Option Nat) : Bool := response.any fun status => 200 ≤ status && status < 300

/-- `flushBatch` after `await fetch(...)`. -/
def fetched (before : List (Flush α)) (f : Flush α) (after : List (Flush α))
    (response : Option Nat) : Telemetry α :=
  if isSuccess response = true then { σ with
    running := before ++ { f with phase := .returned true } :: after
    log := σ.log ++ [.success f.batch.number] }
  else if σ.activeBatchBeaconQueued = true then
      { σ with running := before ++ { f with phase := .returned false } :: after }
  else if f.attempt < maxSendAttempts then
      { σ with running := before ++ { f with phase := .delaying } :: after }
  else { σ with running := before ++ { f with phase := .returned false } :: after }

/-- `flushBatch` after `await this.delay(...)`. -/
def delayed (before : List (Flush α)) (f : Flush α) (after : List (Flush α)) : Telemetry α :=
  if σ.activeBatchBeaconQueued = true then
      { σ with running := before ++ { f with phase := .returned false } :: after }
  else σ.attempt before { f with attempt := f.attempt + 1 } after

/-- What became of the batch of a flush that is done. -/
def fate (delivered : Bool) : Fate :=
  if delivered = true then .delivered else if σ.activeBatchBeaconQueued = true then .beaconed else .dropped

/-- The callback of `.then` in `startFlush`. -/
def completed (before : List (Flush α)) (f : Flush α) (after : List (Flush α)) (delivered : Bool) :
    Telemetry α :=
  let σ := { σ with
    running := before ++ after
    flushInProgress := false
    activeBatch := none
    activeBatchBeaconQueued := false
    finished := σ.finished ++ [(f.batch, σ.fate delivered)] }
  if maxBatchSize ≤ σ.queue.length then σ.startFlush else if σ.queue ≠ [] then σ.scheduleFlush else σ

/-! ## Beacons -/

/-- The active batch is offered to a beacon, once; `accepts` tells of each batch whether its beacon
is accepted. -/
def beaconActive (accepts : Nat → Bool) : Telemetry α :=
  match σ.activeBatch with
  | some batch =>
    if σ.activeBatchBeaconQueued = false ∧ accepts batch.number = true then
      { σ with activeBatchBeaconQueued := true, log := σ.log ++ [.beacon batch.number] }
    else σ
  | none => σ

/-- The queue without its first batch, which a beacon has taken. -/
def handOver : Telemetry α := { σ with
  queue := σ.queue.drop maxBatchSize
  left := σ.left ++ [σ.nextBatch]
  finished := σ.finished ++ [(σ.nextBatch, .beaconed)]
  log := σ.log ++ [.beacon σ.left.length] }

/-- The queue is offered batch by batch, up to the first refusal. -/
def beaconQueue (accepts : Nat → Bool) (σ : Telemetry α) : Telemetry α :=
  if σ.queue = [] then σ
  else if accepts σ.left.length = true then beaconQueue accepts σ.handOver
  else σ
  termination_by σ.queue.length
  decreasing_by
    have hpos : 0 < σ.queue.length := List.length_pos_iff.2 (by assumption)
    simp only [handOver, List.length_drop, maxBatchSize]
    omega

/-- The end of `flushWithBeacon`. -/
def rearm : Telemetry α := if σ.flushInProgress = false ∧ σ.queue ≠ [] then σ.scheduleFlush else σ

/-- `flushWithBeacon`: there may be no `sendBeacon`. -/
def flushWithBeacon (accepts : Option (Nat → Bool)) : Telemetry α :=
  match accepts with
  | none => σ.clearFlushTimer.rearm
  | some accepts => (beaconQueue accepts (σ.clearFlushTimer.beaconActive accepts)).rearm

end Telemetry

/-! ## Interleavings -/

/-- A step of the event loop. A page that hides or goes away calls `flushWithBeacon`; one that
becomes visible again calls nothing. -/
inductive Step : Telemetry α → Telemetry α → Prop
  | track {σ : Telemetry α} (event : Option α) : Step σ (σ.track event)
  | timer {σ : Telemetry α} {t : Nat} : t ∈ σ.timers → Step σ (σ.timerFired t)
  | fetched {σ : Telemetry α} {before after : List (Flush α)} {f : Flush α} (response : Option Nat) :
      σ.running = before ++ f :: after → f.phase = .fetching → Step σ (σ.fetched before f after response)
  | delayed {σ : Telemetry α} {before after : List (Flush α)} {f : Flush α} :
      σ.running = before ++ f :: after → f.phase = .delaying → Step σ (σ.delayed before f after)
  | completed {σ : Telemetry α} {before after : List (Flush α)} {f : Flush α} {delivered : Bool} :
      σ.running = before ++ f :: after → f.phase = .returned delivered →
        Step σ (σ.completed before f after delivered)
  | visibilityChange {σ : Telemetry α} (hidden : Bool) (accepts : Option (Nat → Bool)) :
      Step σ (if hidden = true then σ.flushWithBeacon accepts else σ)
  | pageHide {σ : Telemetry α} (accepts : Option (Nat → Bool)) : Step σ (σ.flushWithBeacon accepts)

/-- What interleavings reach from a new service. -/
inductive Reachable : Telemetry α → Prop
  | new : Reachable {}
  | step {σ σ' : Telemetry α} : Reachable σ → Step σ σ' → Reachable σ'

/-! ## The invariant -/

/-- Nothing is sent of a batch after a beacon has taken it. -/
def After (a b : Entry) : Prop := ∀ n, a = .beacon n → b = .fetch n ∨ b = .beacon n → False

/-- The flush of the active batch. -/
structure FlushOk (log : List Entry) (beaconed : Bool) (b : Batch α) (f : Flush α) : Prop where
  batch : f.batch = b
  attempts : log.count (.fetch b.number) = f.attempt
  bound : f.attempt ≤ maxSendAttempts
  beacon : beaconed = true ↔ .beacon b.number ∈ log
  success : f.phase = .returned true ↔ .success b.number ∈ log
  retry : f.phase = .delaying → f.attempt < maxSendAttempts
  ended : f.phase = .returned false → beaconed = true ∨ f.attempt = maxSendAttempts

/-- What the log says of a batch that is finished. -/
def FateOk (log : List Entry) (b : Batch α) : Fate → Prop
  | .delivered => .success b.number ∈ log
  | .beaconed => .beacon b.number ∈ log
  | .dropped => log.count (.fetch b.number) = maxSendAttempts ∧ .success b.number ∉ log ∧ .beacon b.number ∉ log

/-- The active batch and the flush that is in progress. -/
def ActiveOk (σ : Telemetry α) : Prop :=
  match σ.activeBatch with
  | none => σ.running = [] ∧ σ.flushInProgress = false ∧ σ.activeBatchBeaconQueued = false
  | some b => σ.flushInProgress = true ∧ ∃ f, σ.running = [f] ∧ FlushOk σ.log σ.activeBatchBeaconQueued b f

/-- What every step keeps. -/
structure Core (σ : Telemetry α) : Prop where
  order : σ.left.flatMap Batch.events ++ σ.queue = σ.tracked
  sizes : ∀ b ∈ σ.left, 1 ≤ b.events.length ∧ b.events.length ≤ maxBatchSize
  numbers : σ.left.map Batch.number = List.range σ.left.length
  parts : σ.left.Perm (σ.finished.map Prod.fst ++ σ.activeBatch.toList)
  timers : σ.timers = σ.flushTimer.toList
  active : ActiveOk σ
  logged : ∀ e ∈ σ.log, e.number < σ.left.length
  once : σ.log.Pairwise After
  fates : ∀ p ∈ σ.finished, FateOk σ.log p.1 p.2

/-- Events that wait have somebody to send them: a flush in progress, or a timer that the runtime
will fire. -/
def Armed (σ : Telemetry α) : Prop :=
  σ.queue ≠ [] → σ.flushInProgress = true ∨ ∃ t, σ.flushTimer = some t ∧ t ∈ σ.timers

namespace Core

variable {σ : Telemetry α}

theorem new : Core ({} : Telemetry α) where
  order := rfl
  sizes _ h := absurd h List.not_mem_nil
  numbers := rfl
  parts := List.Perm.nil
  timers := rfl
  active := ⟨rfl, rfl, rfl⟩
  logged _ h := absurd h List.not_mem_nil
  once := List.Pairwise.nil
  fates _ h := absurd h List.not_mem_nil

/-- No flush is in progress: there is no active batch. -/
theorem idle (h : Core σ) (hidle : σ.flushInProgress = false) : σ.activeBatch = none ∧ σ.running = [] := by
  have hactive := h.active
  unfold ActiveOk at hactive
  cases hb : σ.activeBatch with
  | none =>
    rw [hb] at hactive
    exact ⟨rfl, hactive.1⟩
  | some b =>
    rw [hb] at hactive
    rw [hactive.1] at hidle
    cases hidle

/-- The flush of a suspended call is that of the active batch. -/
theorem flush (h : Core σ) {before after : List (Flush α)} {f : Flush α}
    (hf : σ.running = before ++ f :: after) :
    before = [] ∧ after = [] ∧ σ.flushInProgress = true ∧ σ.activeBatch = some f.batch ∧
      FlushOk σ.log σ.activeBatchBeaconQueued f.batch f := by
  have hactive := h.active
  unfold ActiveOk at hactive
  cases hb : σ.activeBatch with
  | none =>
    rw [hb, hf] at hactive
    simp at hactive
  | some b =>
    rw [hb] at hactive
    obtain ⟨hprogress, f', hrunning, hok⟩ := hactive
    rw [hf] at hrunning
    obtain ⟨rfl, hrest⟩ : before = [] ∧ f :: after = [f'] := by
      cases before with
      | nil => exact ⟨rfl, hrunning⟩
      | cons g before => simp at hrunning
    injection hrest with hf' hafter
    subst hf' hafter
    obtain rfl := hok.batch
    exact ⟨rfl, rfl, hprogress, rfl, hok⟩

/-- A finished batch and the active one have different numbers, below that of the next batch. -/
theorem number_ne (h : Core σ) {b : Batch α} (hb : σ.activeBatch = some b) {p : Batch α × Fate}
    (hp : p ∈ σ.finished) : p.1.number ≠ b.number := by
  have hnodup : (σ.left.map Batch.number).Nodup := by
    rw [h.numbers]
    exact List.nodup_range
  have hperm := (h.parts.map Batch.number).nodup_iff.1 hnodup
  rw [hb, List.map_append] at hperm
  intro hne
  refine List.disjoint_of_nodup_append hperm (List.mem_map_of_mem (List.mem_map_of_mem hp)) ?_
  rw [hne]
  simp

theorem left_lt (h : Core σ) {b : Batch α} (hb : b ∈ σ.left) : b.number < σ.left.length := by
  have hmem : b.number ∈ σ.left.map Batch.number := List.mem_map_of_mem hb
  rw [h.numbers] at hmem
  exact List.mem_range.1 hmem

theorem active_mem (h : Core σ) {b : Batch α} (hb : σ.activeBatch = some b) : b ∈ σ.left :=
  h.parts.mem_iff.2 (List.mem_append_right _ (by rw [hb]; simp))

theorem finished_mem (h : Core σ) {p : Batch α × Fate} (hp : p ∈ σ.finished) : p.1 ∈ σ.left :=
  h.parts.mem_iff.2 (List.mem_append_left _ (List.mem_map_of_mem hp))

end Core

/-- An entry about another batch changes nothing for a batch that is finished. -/
theorem FateOk.append {log : List Entry} {b : Batch α} {fate : Fate} (h : FateOk log b fate) {e : Entry}
    (he : b.number ≠ e.number) : FateOk (log ++ [e]) b fate := by
  cases fate with
  | delivered => exact List.mem_append_left _ h
  | beaconed => exact List.mem_append_left _ h
  | dropped =>
    obtain ⟨hcount, hsuccess, hbeacon⟩ := h
    have hne : ∀ e' : Entry, e'.number = b.number → e' ≠ e := fun e' hn h => he (by rw [← hn, h])
    refine ⟨?_, ?_, ?_⟩
    · rw [List.count_append, List.count_singleton, hcount]
      simp [(hne (.fetch b.number) rfl).symm]
    · simp [hsuccess, hne (.success b.number) rfl]
    · simp [hbeacon, hne (.beacon b.number) rfl]

/-- A new entry follows none that forbids it. -/
theorem once_append {log : List Entry} {e : Entry} (h : log.Pairwise After)
    (hno : ∀ n, e = .fetch n ∨ e = .beacon n → .beacon n ∉ log) : (log ++ [e]).Pairwise After := by
  rw [List.pairwise_append]
  refine ⟨h, List.pairwise_singleton _ _, fun a ha b hb n han hbn => ?_⟩
  obtain rfl := List.mem_singleton.1 hb
  subst han
  exact hno n hbn ha

/-! ## Steps -/

namespace Core

variable {σ : Telemetry α} {before after : List (Flush α)} {f f' : Flush α}

theorem push (h : Core σ) (event : α) :
    Core { σ with queue := σ.queue ++ [event], tracked := σ.tracked ++ [event] } where
  order := by
    dsimp only
    rw [← List.append_assoc, h.order]
  sizes := h.sizes
  numbers := h.numbers
  parts := h.parts
  timers := h.timers
  active := h.active
  logged := h.logged
  once := h.once
  fates := h.fates

theorem schedule (h : Core σ) : Core σ.scheduleFlush := by
  unfold Telemetry.scheduleFlush
  split
  · exact h
  · rename_i hno
    have htimers : σ.timers = [] := by
      rw [h.timers]
      cases hft : σ.flushTimer with
      | none => rfl
      | some t => simp [hft] at hno
    exact ⟨h.order, h.sizes, h.numbers, h.parts, by simp [htimers], h.active, h.logged, h.once, h.fates⟩

/-- The timer is gone: cleared, or fired. -/
theorem untimed (h : Core σ) {timers : List Nat} (htimers : timers = []) :
    Core { σ with flushTimer := none, timers := timers } :=
  ⟨h.order, h.sizes, h.numbers, h.parts, htimers, h.active, h.logged, h.once, h.fates⟩

theorem clear (h : Core σ) : Core σ.clearFlushTimer := by
  unfold Telemetry.clearFlushTimer
  split
  · rename_i t ht
    refine h.untimed ?_
    rw [h.timers, ht]
    simp
  · exact h

/-- The suspended call goes on without an entry in the log. -/
theorem resume (h : Core σ) (hf : σ.running = before ++ f :: after)
    (hok : FlushOk σ.log σ.activeBatchBeaconQueued f.batch f') :
    Core { σ with running := before ++ f' :: after } := by
  obtain ⟨rfl, rfl, hprogress, hb, -⟩ := h.flush hf
  refine ⟨h.order, h.sizes, h.numbers, h.parts, h.timers, ?_, h.logged, h.once, h.fates⟩
  unfold ActiveOk
  dsimp only
  rw [hb]
  exact ⟨hprogress, f', rfl, hok⟩

/-- The suspended call goes on with an entry about its batch. -/
theorem resume_log (h : Core σ) (hf : σ.running = before ++ f :: after) {e : Entry}
    (he : e.number = f.batch.number) (hno : ∀ n, e = .fetch n ∨ e = .beacon n → .beacon n ∉ σ.log)
    (hok : FlushOk (σ.log ++ [e]) σ.activeBatchBeaconQueued f.batch f') :
    Core { σ with running := before ++ f' :: after, log := σ.log ++ [e] } := by
  obtain ⟨rfl, rfl, hprogress, hb, -⟩ := h.flush hf
  refine ⟨h.order, h.sizes, h.numbers, h.parts, h.timers, ?_, fun e' he' => ?_,
    once_append h.once hno, fun p hp => ?_⟩
  · unfold ActiveOk
    dsimp only
    rw [hb]
    exact ⟨hprogress, f', rfl, hok⟩
  · rcases List.mem_append.1 he' with he' | he'
    · exact h.logged e' he'
    · obtain rfl := List.mem_singleton.1 he'
      rw [he]
      exact h.left_lt (h.active_mem hb)
  · exact (h.fates p hp).append (by rw [he]; exact h.number_ne hb hp)

/-- A beacon has taken the batch: the call returns. -/
theorem stop (h : Core σ) (hf : σ.running = before ++ f :: after) (hphase : f.phase ≠ .returned true)
    (hend : σ.activeBatchBeaconQueued = true ∨ f.attempt = maxSendAttempts) :
    Core { σ with running := before ++ { f with phase := .returned false } :: after } := by
  obtain ⟨-, -, -, -, hok⟩ := h.flush hf
  refine h.resume hf ⟨rfl, hok.attempts, hok.bound, hok.beacon, ?_, fun hp => (by cases hp), fun _ => hend⟩
  exact ⟨fun hp => (by cases hp), fun hmem => absurd (hok.success.2 hmem) hphase⟩

theorem fetched (h : Core σ) (hf : σ.running = before ++ f :: after) (hphase : f.phase = .fetching)
    (response : Option Nat) : Core (σ.fetched before f after response) := by
  obtain ⟨-, -, -, -, hok⟩ := h.flush hf
  have hne : f.phase ≠ .returned true := by
    rw [hphase]
    intro hp
    cases hp
  unfold Telemetry.fetched
  split
  · refine h.resume_log hf rfl (fun n hn => ?_) ⟨rfl, ?_, hok.bound, ?_, ?_, fun hp =>
        (by cases hp), fun hp => (by cases hp)⟩
    · rcases hn with hn | hn <;> cases hn
    · rw [List.count_append, hok.attempts]
      simp
    · rw [hok.beacon]
      simp
    · simp
  · split
    · rename_i hbeaconed
      exact h.stop hf hne (Or.inl hbeaconed)
    · split
      · rename_i hattempt
        refine h.resume hf ⟨rfl, hok.attempts, hok.bound, hok.beacon, ?_, fun _ => hattempt,
          fun hp => (by cases hp)⟩
        exact ⟨fun hp => (by cases hp), fun hmem => absurd (hok.success.2 hmem) hne⟩
      · rename_i hattempt
        have hbound := hok.bound
        exact h.stop hf hne (Or.inr (by omega))

theorem delayed (h : Core σ) (hf : σ.running = before ++ f :: after) (hphase : f.phase = .delaying) :
    Core (σ.delayed before f after) := by
  obtain ⟨-, -, -, -, hok⟩ := h.flush hf
  have hne : f.phase ≠ .returned true := by
    rw [hphase]
    intro hp
    cases hp
  unfold Telemetry.delayed Telemetry.attempt
  split
  · rename_i hbeaconed
    exact h.stop hf hne (Or.inl hbeaconed)
  · rename_i hbeaconed
    have hnot : .beacon f.batch.number ∉ σ.log := fun hmem => hbeaconed (hok.beacon.2 hmem)
    refine h.resume_log hf rfl (fun n hn => ?_) ⟨rfl, ?_, ?_, ?_, ?_, fun hp => (by cases hp),
      fun hp => (by cases hp)⟩
    · rcases hn with hn | hn
      · injection hn with hn
        rw [← hn]
        exact hnot
      · cases hn
    · rw [List.count_append, hok.attempts]
      simp
    · have hretry := hok.retry hphase
      dsimp only
      omega
    · rw [hok.beacon]
      simp
    · constructor
      · intro hp
        cases hp
      · intro hmem
        refine absurd (hok.success.2 ?_) hne
        simpa using hmem

/-- The first batch of the queue. -/
theorem nextBatch_events (σ : Telemetry α) : σ.nextBatch.events ++ σ.queue.drop maxBatchSize = σ.queue :=
  List.take_append_drop _ _

theorem nextBatch_size (hq : σ.queue ≠ []) :
    1 ≤ σ.nextBatch.events.length ∧ σ.nextBatch.events.length ≤ maxBatchSize := by
  have hpos : 0 < σ.queue.length := List.length_pos_iff.2 hq
  unfold Telemetry.nextBatch maxBatchSize
  rw [List.length_take]
  omega

/-- A batch leaves the queue: what the order, the sizes and the numbers are then. -/
theorem leave (h : Core σ) (hq : σ.queue ≠ []) :
    (σ.left ++ [σ.nextBatch]).flatMap Batch.events ++ σ.queue.drop maxBatchSize = σ.tracked ∧
      (∀ b ∈ σ.left ++ [σ.nextBatch], 1 ≤ b.events.length ∧ b.events.length ≤ maxBatchSize) ∧
      (σ.left ++ [σ.nextBatch]).map Batch.number = List.range (σ.left ++ [σ.nextBatch]).length := by
  refine ⟨?_, fun b hb => ?_, ?_⟩
  · rw [List.flatMap_append, List.append_assoc]
    simp only [List.flatMap_cons, List.flatMap_nil, List.append_nil]
    rw [nextBatch_events, h.order]
  · rcases List.mem_append.1 hb with hb | hb
    · exact h.sizes b hb
    · obtain rfl := List.mem_singleton.1 hb
      exact nextBatch_size hq
  · rw [List.map_append, h.numbers, List.length_append, List.length_singleton, List.range_succ]
    rfl

/-- No entry is about a batch that has not left the queue. -/
theorem notMem_log (h : Core σ) {e : Entry} (he : e.number = σ.left.length) : e ∉ σ.log := by
  intro hmem
  have hlt := h.logged e hmem
  omega

theorem start (h : Core σ) : Core σ.startFlush := by
  unfold Telemetry.startFlush
  split
  · exact h
  · rename_i hno
    rw [not_or] at hno
    have hidle : σ.flushInProgress = false := by simpa using hno.1
    obtain ⟨hactive, hrunning⟩ := h.idle hidle
    have hclear := h.clear
    have hsame : σ.clearFlushTimer.queue = σ.queue ∧ σ.clearFlushTimer.running = [] ∧
        σ.clearFlushTimer.activeBatch = none := by
      unfold Telemetry.clearFlushTimer
      split <;> exact ⟨rfl, hrunning, hactive⟩
    generalize σ.clearFlushTimer = τ at hclear hsame
    obtain ⟨hqueue, hrunning', hactive'⟩ := hsame
    have hq : τ.queue ≠ [] := by
      rw [hqueue]
      exact hno.2
    obtain ⟨horder, hsizes, hnumbers⟩ := hclear.leave hq
    have hparts := hclear.parts
    rw [hactive'] at hparts
    unfold Telemetry.attempt
    dsimp only
    rw [if_neg (by simp), hrunning']
    refine ⟨horder, hsizes, hnumbers, ?_, hclear.timers,
      ⟨rfl, _, rfl, rfl, ?_, ?_, ?_, ?_, fun hp => (by cases hp), fun hp => (by cases hp)⟩,
      fun e he => ?_, once_append hclear.once fun n hn => ?_, fun p hp => ?_⟩
    · simpa using hparts.append_right [τ.nextBatch]
    · rw [List.count_append, List.count_eq_zero.2 (hclear.notMem_log rfl)]
      simp
    · simp [maxSendAttempts]
    · have hbeacon := hclear.notMem_log (e := .beacon τ.nextBatch.number) rfl
      simp [hbeacon]
    · have hsuccess := hclear.notMem_log (e := .success τ.nextBatch.number) rfl
      simp [hsuccess]
    · rw [List.length_append, List.length_singleton]
      rcases List.mem_append.1 he with he | he
      · have hlt := hclear.logged e he
        omega
      · obtain rfl := List.mem_singleton.1 he
        exact Nat.lt_succ_self _
    · rcases hn with hn | hn
      · injection hn with hn
        exact hclear.notMem_log hn.symm
      · cases hn
    · refine (hclear.fates p hp).append ?_
      have hlt := hclear.left_lt (hclear.finished_mem hp)
      exact Nat.ne_of_lt hlt

theorem track (h : Core σ) (event : Option α) : Core (σ.track event) := by
  cases event with
  | none => exact h
  | some event =>
    unfold Telemetry.track
    dsimp only
    split
    · exact (h.push event).schedule.start
    · exact (h.push event).schedule

theorem timerFired (h : Core σ) {t : Nat} (ht : t ∈ σ.timers) : Core (σ.timerFired t) := by
  refine (h.untimed ?_).start
  rw [h.timers] at ht ⊢
  cases hft : σ.flushTimer with
  | none =>
    rw [hft] at ht
    exact absurd ht List.not_mem_nil
  | some t' =>
    rw [hft] at ht
    obtain rfl : t = t' := by simpa using ht
    simp

/-- A flush that is done puts its batch among the finished ones. -/
theorem finish (h : Core σ) (hf : σ.running = before ++ f :: after) {delivered : Bool}
    (hphase : f.phase = .returned delivered) :
    Core { σ with
      running := before ++ after
      flushInProgress := false
      activeBatch := none
      activeBatchBeaconQueued := false
      finished := σ.finished ++ [(f.batch, σ.fate delivered)] } := by
  obtain ⟨rfl, rfl, hprogress, hb, hok⟩ := h.flush hf
  have hparts := h.parts
  rw [hb] at hparts
  have hfate : FateOk σ.log f.batch (σ.fate delivered) := by
    unfold Telemetry.fate
    split
    · rename_i hdelivered
      exact hok.success.1 (by rw [hphase, hdelivered])
    · rename_i hdelivered
      have hnot : .success f.batch.number ∉ σ.log := by
        intro hmem
        have hp := hok.success.2 hmem
        rw [hphase] at hp
        injection hp with hp
        exact hdelivered hp
      split
      · rename_i hbeaconed
        exact hok.beacon.1 hbeaconed
      · rename_i hbeaconed
        have hended := (hok.ended (by rw [hphase]; simpa using hdelivered)).resolve_left hbeaconed
        exact ⟨hok.attempts.trans hended, hnot, fun hmem => hbeaconed (hok.beacon.2 hmem)⟩
  refine ⟨h.order, h.sizes, h.numbers, ?_, h.timers, ⟨rfl, rfl, rfl⟩, h.logged, h.once, fun p hp => ?_⟩
  · simpa using hparts
  · rcases List.mem_append.1 hp with hp | hp
    · exact h.fates p hp
    · obtain rfl := List.mem_singleton.1 hp
      exact hfate

theorem completed (h : Core σ) (hf : σ.running = before ++ f :: after) {delivered : Bool}
    (hphase : f.phase = .returned delivered) : Core (σ.completed before f after delivered) := by
  have hcore := h.finish hf hphase
  unfold Telemetry.completed
  dsimp only
  split
  · exact hcore.start
  · split
    · exact hcore.schedule
    · exact hcore

theorem beaconActive (h : Core σ) (accepts : Nat → Bool) : Core (σ.beaconActive accepts) := by
  unfold Telemetry.beaconActive
  split
  · rename_i b hb
    split
    · rename_i haccepted
      have hactive := h.active
      unfold ActiveOk at hactive
      rw [hb] at hactive
      obtain ⟨hprogress, f, hrunning, hok⟩ := hactive
      have hnot : .beacon b.number ∉ σ.log := by
        intro hmem
        have hq := hok.beacon.2 hmem
        rw [haccepted.1] at hq
        cases hq
      refine ⟨h.order, h.sizes, h.numbers, h.parts, h.timers, ?_, fun e he => ?_,
        once_append h.once fun n hn => ?_, fun p hp => (h.fates p hp).append (h.number_ne hb hp)⟩
      · unfold ActiveOk
        dsimp only
        rw [hb]
        refine ⟨hprogress, f, hrunning, hok.batch, ?_, hok.bound, ?_, ?_, hok.retry, fun _ => Or.inl rfl⟩
        · rw [List.count_append, hok.attempts]
          simp
        · simp
        · rw [hok.success]
          simp
      · rcases List.mem_append.1 he with he | he
        · exact h.logged e he
        · obtain rfl := List.mem_singleton.1 he
          exact h.left_lt (h.active_mem hb)
      · rcases hn with hn | hn
        · cases hn
        · injection hn with hn
          rw [← hn]
          exact hnot
    · exact h
  · exact h

theorem handOver (h : Core σ) (hq : σ.queue ≠ []) : Core σ.handOver := by
  obtain ⟨horder, hsizes, hnumbers⟩ := h.leave hq
  have hactive := h.active
  refine ⟨horder, hsizes, hnumbers, ?_, h.timers, ?_, fun e he => ?_, once_append h.once fun n hn =>
      ?_, fun p hp => ?_⟩
  · have hperm := h.parts.append_right [σ.nextBatch]
    refine hperm.trans ?_
    unfold Telemetry.handOver
    simp only [List.map_append, List.map_cons, List.map_nil, List.append_assoc]
    exact List.Perm.append_left _ List.perm_append_comm
  · unfold ActiveOk at hactive ⊢
    unfold Telemetry.handOver
    dsimp only
    cases hb : σ.activeBatch with
    | none =>
      rw [hb] at hactive
      exact hactive
    | some b =>
      rw [hb] at hactive
      obtain ⟨hprogress, f, hrunning, hok⟩ := hactive
      have hne : b.number ≠ σ.left.length := Nat.ne_of_lt (h.left_lt (h.active_mem hb))
      refine ⟨hprogress, f, hrunning, hok.batch, ?_, hok.bound, ?_, ?_, hok.retry, hok.ended⟩
      · rw [List.count_append, hok.attempts]
        simp
      · rw [hok.beacon]
        simp [hne]
      · rw [hok.success]
        simp
  · unfold Telemetry.handOver at he ⊢
    simp only [List.length_append, List.length_singleton]
    rcases List.mem_append.1 he with he | he
    · have hlt := h.logged e he
      omega
    · obtain rfl := List.mem_singleton.1 he
      exact Nat.lt_succ_self _
  · rcases hn with hn | hn
    · cases hn
    · injection hn with hn
      exact h.notMem_log hn.symm
  · rcases List.mem_append.1 hp with hp | hp
    · refine (h.fates p hp).append ?_
      exact Nat.ne_of_lt (h.left_lt (h.finished_mem hp))
    · obtain rfl := List.mem_singleton.1 hp
      exact List.mem_append_right _ (List.mem_singleton.2 rfl)

theorem beaconQueue (h : Core σ) (accepts : Nat → Bool) : Core (Telemetry.beaconQueue accepts σ) := by
  induction σ using Telemetry.beaconQueue.induct accepts with
  | case1 σ hq =>
    rw [Telemetry.beaconQueue, if_pos hq]
    exact h
  | case2 σ hq haccepts ih =>
    rw [Telemetry.beaconQueue, if_neg hq, if_pos haccepts]
    exact ih (h.handOver hq)
  | case3 σ hq haccepts =>
    rw [Telemetry.beaconQueue, if_neg hq, if_neg haccepts]
    exact h

theorem flushWithBeacon (h : Core σ) (accepts : Option (Nat → Bool)) :
    Core (σ.flushWithBeacon accepts) := by
  have hrearm : ∀ {τ : Telemetry α}, Core τ → Core τ.rearm := by
    intro τ hτ
    unfold Telemetry.rearm
    split
    · exact hτ.schedule
    · exact hτ
  cases accepts with
  | none => exact hrearm h.clear
  | some accepts => exact hrearm ((h.clear.beaconActive accepts).beaconQueue accepts)

end Core

theorem Step.core {σ σ' : Telemetry α} (h : Core σ) (hstep : Step σ σ') : Core σ' := by
  cases hstep with
  | track event => exact h.track event
  | timer ht => exact h.timerFired ht
  | fetched response hf hphase => exact h.fetched hf hphase response
  | delayed hf hphase => exact h.delayed hf hphase
  | completed hf hphase => exact h.completed hf hphase
  | visibilityChange hidden accepts =>
    split
    · exact h.flushWithBeacon accepts
    · exact h
  | pageHide accepts => exact h.flushWithBeacon accepts

/-! ## Nothing is stranded -/

namespace Armed

variable {σ : Telemetry α} {before after : List (Flush α)} {f : Flush α}

/-- `scheduleFlush` arms the timer unless there is no need. -/
theorem schedule (h : Core σ) : Armed σ.scheduleFlush := by
  intro hq
  unfold Telemetry.scheduleFlush at hq ⊢
  split at hq
  · rename_i hno
    rw [if_pos hno]
    rcases hno with hprogress | htimer | hempty
    · exact Or.inl hprogress
    · obtain ⟨t, ht⟩ := Option.isSome_iff_exists.1 htimer
      refine Or.inr ⟨t, ht, ?_⟩
      rw [h.timers, ht]
      simp
    · exact absurd hempty hq
  · rename_i hno
    rw [if_neg hno]
    exact Or.inr ⟨σ.nextTimer, rfl, by simp⟩

theorem attempt (hprogress : σ.flushInProgress = true) : Armed (σ.attempt before f after) := by
  intro _
  unfold Telemetry.attempt
  split <;> exact Or.inl hprogress

/-- `startFlush` leaves a flush in progress, or nothing to send. -/
theorem start (σ : Telemetry α) : Armed σ.startFlush := by
  unfold Telemetry.startFlush
  split
  · rename_i hno
    intro hq
    exact Or.inl (hno.resolve_right hq)
  · exact attempt rfl

theorem track (h : Core σ) (harmed : Armed σ) (event : Option α) : Armed (σ.track event) := by
  cases event with
  | none => exact harmed
  | some event =>
    unfold Telemetry.track
    dsimp only
    split
    · exact start _
    · exact schedule (h.push event)

/-- A suspended call leaves the flush in progress. -/
theorem fetched (h : Core σ) (hf : σ.running = before ++ f :: after) (response : Option Nat) :
    Armed (σ.fetched before f after response) := by
  intro _
  have hprogress : σ.flushInProgress = true := (h.flush hf).2.2.1
  unfold Telemetry.fetched
  split
  · exact Or.inl hprogress
  · split
    · exact Or.inl hprogress
    · split <;> exact Or.inl hprogress

theorem delayed (h : Core σ) (hf : σ.running = before ++ f :: after) :
    Armed (σ.delayed before f after) := by
  have hprogress : σ.flushInProgress = true := (h.flush hf).2.2.1
  unfold Telemetry.delayed
  split
  · exact fun _ => Or.inl hprogress
  · exact attempt hprogress

theorem completed (h : Core σ) (hf : σ.running = before ++ f :: after) {delivered : Bool}
    (hphase : f.phase = .returned delivered) : Armed (σ.completed before f after delivered) := by
  have hcore := h.finish hf hphase
  unfold Telemetry.completed
  dsimp only
  split
  · exact start _
  · split
    · exact schedule hcore
    · rename_i hempty
      exact fun hq => absurd hq hempty

/-- `flushWithBeacon` ends with the timer armed again, if no flush is in progress and something is left. -/
theorem rearm (h : Core σ) : Armed σ.rearm := by
  unfold Telemetry.rearm
  split
  · exact schedule h
  · rename_i hno
    intro hq
    refine Or.inl ?_
    by_contra hidle
    exact hno ⟨by simpa using hidle, hq⟩

theorem flushWithBeacon (h : Core σ) (accepts : Option (Nat → Bool)) :
    Armed (σ.flushWithBeacon accepts) := by
  cases accepts with
  | none => exact rearm h.clear
  | some accepts => exact rearm ((h.clear.beaconActive accepts).beaconQueue accepts)

end Armed

theorem Step.armed {σ σ' : Telemetry α} (h : Core σ) (harmed : Armed σ) (hstep : Step σ σ') : Armed σ' := by
  cases hstep with
  | track event => exact Armed.track h harmed event
  | timer ht => exact Armed.start _
  | fetched response hf hphase => exact Armed.fetched h hf response
  | delayed hf hphase => exact Armed.delayed h hf
  | completed hf hphase => exact Armed.completed h hf hphase
  | visibilityChange hidden accepts =>
    split
    · exact Armed.flushWithBeacon h accepts
    · exact harmed
  | pageHide accepts => exact Armed.flushWithBeacon h accepts

/-! ## Runs -/

theorem Reachable.core {σ : Telemetry α} (h : Reachable σ) : Core σ := by
  induction h with
  | new => exact Core.new
  | step _ hstep ih => exact hstep.core ih

theorem Reachable.armed {σ : Telemetry α} (h : Reachable σ) : Armed σ := by
  induction h with
  | new => exact fun hq => absurd rfl hq
  | step hreach hstep ih => exact hstep.armed hreach.core ih

/-- In whatever interleaving: a tracked event is in exactly one of the queue, the active batch and
the finished batches, whose fates the log bears out; events leave in the order tracked, in batches
that are not too large; one flush is in progress at most, that of the active batch; nothing is sent
of a batch after a beacon has taken it; and events that wait are not stranded. -/
theorem telemetry_keeps_events {σ : Telemetry α} (h : Reachable σ) :
    σ.tracked.Perm (σ.finished.flatMap (·.1.events) ++ σ.activeBatch.toList.flatMap Batch.events ++
        σ.queue) ∧ σ.left.Perm (σ.finished.map Prod.fst ++ σ.activeBatch.toList) ∧
      (∀ p ∈ σ.finished, FateOk σ.log p.1 p.2) ∧ σ.tracked = σ.left.flatMap Batch.events ++ σ.queue ∧
      (∀ b ∈ σ.left, 1 ≤ b.events.length ∧ b.events.length ≤ maxBatchSize) ∧ σ.left.map Batch.number =
      List.range σ.left.length ∧ (σ.flushInProgress = false → σ.running = [] ∧ σ.activeBatch = none) ∧
      (σ.flushInProgress = true → ∃ f, σ.running = [f] ∧ σ.activeBatch = some f.batch) ∧
      σ.log.Pairwise After ∧ Armed σ := by
  have hcore := h.core
  refine ⟨?_, hcore.parts, hcore.fates, hcore.order.symm, hcore.sizes, hcore.numbers, fun hidle =>
      ?_, fun hprogress => ?_,
    hcore.once, h.armed⟩
  · have hperm := (hcore.parts.flatMap_right Batch.events).append_right σ.queue
    rw [hcore.order, List.flatMap_append, List.flatMap_map] at hperm
    exact hperm
  · exact (hcore.idle hidle).symm
  · have hactive := hcore.active
    unfold ActiveOk at hactive
    cases hb : σ.activeBatch with
    | none =>
      rw [hb] at hactive
      rw [hactive.2.1] at hprogress
      cases hprogress
    | some b =>
      rw [hb] at hactive
      obtain ⟨-, f, hrunning, hok⟩ := hactive
      exact ⟨f, hrunning, by rw [hok.batch]⟩

/-- The page goes away while the first request is on its way: the batch is handed to a beacon and is
not sent again. -/
theorem telemetry_keeps_events_beaconed :
    let batch : Batch Nat := ⟨0, [7]⟩
    let σ : Telemetry Nat :=
      { nextTimer := 1, tracked := [7], left := [batch], finished := [(batch, .beaconed)], log := [.fetch 0, .beacon 0] }
    Reachable σ ∧ σ.log.Pairwise After := by
  intro batch σ
  have htrack : Reachable (({} : Telemetry Nat).track (some 7)) := .step .new (.track _)
  have hfired : Reachable ((({} : Telemetry Nat).track (some 7)).timerFired 0) :=
    .step htrack (.timer (by decide))
  have hbeacon := Reachable.step hfired (.pageHide (some fun _ => true))
  unfold Telemetry.flushWithBeacon at hbeacon
  dsimp only at hbeacon
  rw [Telemetry.beaconQueue, if_pos rfl] at hbeacon
  have hrejected := Reachable.step hbeacon
    (@Step.fetched _ _ [] [] ⟨batch, 1, .fetching⟩ none rfl rfl)
  have hcompleted := Reachable.step hrejected
    (@Step.completed _ _ [] [] ⟨batch, 1, .returned false⟩ false rfl rfl)
  have hreach : Reachable σ := hcompleted
  exact ⟨hreach, (telemetry_keeps_events hreach).2.2.2.2.2.2.2.2.1⟩

end TrackFlow.Backoffice
