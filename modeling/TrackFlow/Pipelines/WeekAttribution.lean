import TrackFlow.Pipelines.Publication
import TrackFlow.Pipelines.WeeklyTransform
import TrackFlow.Python.IsoFormat

/-!
# The week of a timestamp and closed weeks

Four computations speak about weeks: the bounds of a week, the Monday of a timestamp, the comparison
with the current Monday, and the comparison with the end of the week. A `datetime` with an offset is
its local reading and the offset (`AwareDatetime`); a result that is no date or no `datetime`
raises.

- `attributed`: a timestamp is in the bounds of exactly one Monday, which is the one it is attributed to;
- `closedWeeks`: a Monday is accepted as closed exactly if the checks of a publication report
  nothing for it, and the latest one is the greatest of these;
- `week_checks_agree`: both.
-/

namespace TrackFlow.Pipelines

open TrackFlow.Python

/-! ## Timestamps with an offset -/

/-- An aware `datetime`: what its clock reads, and the offset, which is shorter than a day. -/
structure AwareDatetime where
  reading : Int
  offset : Int
  lower : minDate ≤ dateOf reading
  upper : dateOf reading ≤ maxDate
  short : -dayMicros < offset ∧ offset < dayMicros

namespace AwareDatetime

/-- The instant. -/
def instant (t : AwareDatetime) : Int := t.reading - t.offset

/-- The value in a row. -/
def value (t : AwareDatetime) : PyValue := .aware t.instant

end AwareDatetime

/-- What the computations raise. -/
inductive WeekError
  | valueError (message : String)
  | overflowError
  deriving DecidableEq

/-- A result that must be a date. -/
def date (d : Int) : Except WeekError Int :=
  if minDate ≤ d ∧ d ≤ maxDate then .ok d else .error .overflowError

/-- `t.astimezone(timezone.utc)`, an instant. -/
def astimezone (t : AwareDatetime) : Except WeekError Int :=
  if minDate ≤ dateOf t.instant ∧ dateOf t.instant ≤ maxDate then .ok t.instant else .error .overflowError

/-! ## Weeks -/

/-- `iso_week_start`, of a `datetime` or a text. -/
def isoWeekStartOf (timestamp : PyValue) : Except WeekError Int := do
  let t ← (parseUtcTimestamp fromIsoFormat timestamp).mapError WeekError.valueError
  date (dateOf t - weekday (dateOf t))

/-- `iso_week_bounds`. -/
def isoWeekBounds (weekStart : Int) : Except WeekError (Int × Int) := do
  if weekday weekStart ≠ 0 then .error (.valueError "week_start must be a Monday")
  else
    let next ← date (weekStart + 7)
    return (midnight weekStart, midnight next)

/-- `latest_closed_iso_week`. -/
def latestClosedIsoWeek (now : AwareDatetime) : Except WeekError Int := do
  let t ← astimezone now
  let today := dateOf t
  let currentMonday ← date (today - weekday today)
  date (currentMonday - 7)

/-- `date.fromisoformat`. -/
def dateFromIsoFormat (s : String) : Option Int :=
  if s.toList.length = 7 ∨ s.toList.length = 8 ∨ s.toList.length = 10 then parseDate s.toList else none

/-- The checks of `parse_closed_week` on a text. -/
def selectWeek (currentMonday : Int) (text : String) : Except WeekError Int :=
  match dateFromIsoFormat text with
  | none => .error (.valueError "week_start must use YYYY-MM-DD")
  | some selected =>
    if weekday selected ≠ 0 then .error (.valueError "week_start must be an ISO Monday")
    else if currentMonday ≤ selected then
        .error (.valueError "week_start must identify a fully closed ISO UTC week")
    else .ok selected

/-- `parse_closed_week`. -/
def parseClosedWeek (value : Option String) (now : AwareDatetime) : Except WeekError Int := do
  let latest ← latestClosedIsoWeek now
  let currentMonday ← date (latest + 7)
  match value with
  | none => date (currentMonday - 7)
  | some text => selectWeek currentMonday text

/-- `_week_issue`, for a date. -/
def weekIssueOf (weekStart : Int) : Except WeekError (Option PublicationIssue) :=
  match isoWeekBounds weekStart with
  | .ok _ => .ok none
  | .error (.valueError message) => .ok (some { code := "invalid_week_start", message })
  | .error .overflowError => .error .overflowError

/-- `_complete_week_issue`, for an aware `now`. -/
def completeWeekIssueOf (weekStart : Int) (now : AwareDatetime) :
    Except WeekError (Option PublicationIssue) := do
  let (_, nextStart) ← isoWeekBounds weekStart
  let t ← astimezone now
  return if t < nextStart then
    some { code := "incomplete_week", message := "week_start is not a fully elapsed ISO UTC week" }
        else none

/-! ## In range -/

/-- The Mondays before and after are dates. -/
structure InRange (monday : Int) : Prop where
  previous : minDate ≤ monday - 7
  next : monday + 7 ≤ maxDate

variable {t now : AwareDatetime} {w d : Int}

theorem date_ok (h : minDate ≤ d) (h' : d ≤ maxDate) : date d = .ok d := if_pos ⟨h, h'⟩

/-- The Monday of an instant is at most six days before it. -/
theorem isoWeekStart_bounds (t : Int) : isoWeekStart t ≤ dateOf t ∧ dateOf t ≤ isoWeekStart t + 6 := by
  unfold isoWeekStart weekday
  omega

theorem astimezone_ok (h : InRange (isoWeekStart t.instant)) : astimezone t = .ok t.instant := by
  have hprevious := h.previous
  have hnext := h.next
  have hbounds := isoWeekStart_bounds t.instant
  exact if_pos (by omega)

theorem utcInstant_ok {t : Int} (h : InRange (isoWeekStart t)) : utcInstant (.aware t) = .ok t := by
  have hprevious := h.previous
  have hnext := h.next
  have hbounds := isoWeekStart_bounds t
  refine if_pos ?_
  unfold datetimeMin datetimeMax
  unfold minDate at hprevious
  unfold maxDate at hnext
  unfold dateOf at hbounds
  unfold midnight
  unfold dayMicros at hbounds ⊢
  omega

/-- The bounds of a Monday. -/
theorem isoWeekBounds_monday (hw : weekday w = 0) (hlower : minDate ≤ w) (hnext : w + 7 ≤ maxDate) :
    isoWeekBounds w = .ok (midnight w, midnight (w + 7)) := by
  unfold isoWeekBounds
  rw [if_neg (not_not.2 hw), date_ok (by omega) hnext]
  rfl

theorem isoWeekBounds_ok {b : Int × Int} (h : isoWeekBounds w = .ok b) :
    weekday w = 0 ∧ b = (midnight w, midnight (w + 7)) := by
  unfold isoWeekBounds at h
  split at h
  · cases h
  · next hw =>
    refine ⟨not_not.1 hw, ?_⟩
    unfold date at h
    split at h
    · cases h
      rfl
    · cases h

/-- In range the checks are those of the publication. -/
theorem weekIssueOf_eq (hlower : minDate ≤ w) (hnext : w + 7 ≤ maxDate) :
    weekIssueOf w = .ok (weekIssue w) := by
  unfold weekIssueOf weekIssue
  by_cases hw : weekday w = 0
  · rw [isoWeekBounds_monday hw hlower hnext, if_pos hw]
  · rw [isoWeekBounds, if_pos hw, if_neg hw]

theorem completeWeekIssueOf_eq (hw : weekday w = 0) (hlower : minDate ≤ w) (hnext : w + 7 ≤ maxDate)
    (h : InRange (isoWeekStart now.instant)) :
    completeWeekIssueOf w now = .ok (completeWeekIssue w (.aware now.instant)) := by
  unfold completeWeekIssueOf completeWeekIssue
  rw [isoWeekBounds_monday hw hlower hnext, astimezone_ok h]
  rfl

theorem latestClosedIsoWeek_eq (h : InRange (isoWeekStart now.instant)) :
    latestClosedIsoWeek now = .ok (isoWeekStart now.instant - 7) := by
  have hprevious := h.previous
  have hnext := h.next
  unfold latestClosedIsoWeek
  rw [astimezone_ok h]
  show (do
    let currentMonday ← date (isoWeekStart now.instant)
    date (currentMonday - 7)) = _
  rw [date_ok (by omega) (by omega)]
  exact date_ok hprevious (by omega)

theorem parseClosedWeek_eq (h : InRange (isoWeekStart now.instant)) (value : Option String) :
    parseClosedWeek value now = match value with
      | none => .ok (isoWeekStart now.instant - 7)
      | some text => selectWeek (isoWeekStart now.instant) text := by
  have hprevious := h.previous
  have hnext := h.next
  have hcurrent : date (isoWeekStart now.instant - 7 + 7) = .ok (isoWeekStart now.instant) := by
    rw [sub_add_cancel]
    exact date_ok (by omega) (by omega)
  unfold parseClosedWeek
  rw [latestClosedIsoWeek_eq h]
  cases value with
  | none =>
    refine (congrArg (fun x => x >>= fun m => date (m - 7)) hcurrent).trans ?_
    exact date_ok hprevious (by omega)
  | some text => exact congrArg (fun x => x >>= fun m => selectWeek m text) hcurrent

/-- A Monday that a text names is accepted if it is before the current one. -/
theorem selectWeek_ok {text : String} {monday : Int} (htext : dateFromIsoFormat text = some d)
    (hd : weekday d = 0) : selectWeek monday text = .ok d ↔ d < monday := by
  unfold selectWeek
  simp only [htext, hd, ne_eq, not_true_eq_false, if_false]
  by_cases hle : monday ≤ d
  · simp [hle]
  · simp [hle, not_le.1 hle]

/-! ## The days of a week -/

/-- A week has elapsed exactly if its Monday is before the current one. -/
theorem elapsed_iff (hd : weekday d = 0) (t : Int) : ¬ t < midnight (d + 7) ↔ d < isoWeekStart t := by
  have hday : t < midnight (d + 7) ↔ t / 86400000000 < d + 7 := by
    rw [← not_le, midnight, dayMicros, ← Int.le_ediv_iff_mul_le (by decide), not_le]
  rw [hday]
  unfold weekday at hd
  unfold isoWeekStart weekday dateOf dayMicros
  omega

/-- `date.isoformat` is read back. -/
theorem dateFromIsoFormat_isoDate (h : minDate ≤ d) (h' : d ≤ maxDate) :
    dateFromIsoFormat (isoDate d) = some d := by
  have hchars : (isoDate d).toList = dateChars d := by
    rw [isoDate_eq]
    simp [dateChars, padded]
  unfold dateFromIsoFormat
  rw [hchars, length_dateChars h h', if_pos (by decide), parseDate_dateChars h h']

/-! ## Agreement -/

/-- The checks of a publication report nothing. -/
def Publishable (d : Int) (now : AwareDatetime) : Prop :=
  weekIssueOf d = .ok none ∧ completeWeekIssueOf d now = .ok none

theorem publishable_iff (hd : weekday d = 0) (hlower : minDate ≤ d) (hnext : d + 7 ≤ maxDate)
    (h : InRange (isoWeekStart now.instant)) : Publishable d now ↔ d < isoWeekStart now.instant := by
  unfold Publishable
  rw [weekIssueOf_eq hlower hnext, completeWeekIssueOf_eq hd hlower hnext h, weekIssue, if_pos hd,
    completeWeekIssue, ← elapsed_iff hd]
  by_cases hlt : now.instant < midnight (d + 7)
  · simp [hlt]
  · simp [hlt]

/-- A timestamp belongs to the week of one Monday only, whether it is read from a `datetime` or from
a text. -/
structure Attributed (t : AwareDatetime) (w : Int) : Prop where
  monday : weekday w = 0
  bounds : ∃ b, isoWeekBounds w = .ok b ∧ b.1 ≤ t.instant ∧ t.instant < b.2
  only : ∀ w' b, isoWeekBounds w' = .ok b → b.1 ≤ t.instant → t.instant < b.2 → w' = w
  parsed : parseUtcTimestamp fromIsoFormat t.value = .ok t.instant
  start : ∀ v, parseUtcTimestamp fromIsoFormat v = .ok t.instant → isoWeekStartOf v = .ok w
  event : ∀ row event, parseUtcTimestamp fromIsoFormat row.timestamp = .ok t.instant →
    validateEvent fromIsoFormat row = .ok event → event.weekStart = w

theorem attributed (h : InRange (isoWeekStart t.instant)) : Attributed t (isoWeekStart t.instant) := by
  have hmonday := weekday_isoWeekStart t.instant
  have hprevious := h.previous
  have hnext := h.next
  refine ⟨hmonday, ⟨_, isoWeekBounds_monday hmonday (by omega) hnext, ?_⟩, fun w' b hb hle hlt =>
      ?_, utcInstant_ok h,
    fun v hv => ?_, fun row event hrow hevent => ?_⟩
  · exact (mem_week_iff hmonday t.instant).2 rfl
  · obtain ⟨hw', rfl⟩ := isoWeekBounds_ok hb
    exact ((mem_week_iff hw' t.instant).1 ⟨hle, hlt⟩).symm
  · unfold isoWeekStartOf
    rw [hv]
    exact date_ok (by show minDate ≤ isoWeekStart _; omega) (by show isoWeekStart _ ≤ maxDate; omega)
  · have hvalid := validateEvent_ok hevent
    rw [hvalid.weekStart, Except.ok.inj (hvalid.timestamp.symm.trans hrow)]

/-- The Mondays that are accepted as closed weeks are those that may be published, up to the latest. -/
structure ClosedWeeks (now : AwareDatetime) (latest : Int) : Prop where
  accepted : ∀ d, weekday d = 0 → InRange d → dateFromIsoFormat (isoDate d) = some d ∧
    ∀ text, dateFromIsoFormat text = some d → (parseClosedWeek (some text) now = .ok d ↔ Publishable d now)
  computed : latestClosedIsoWeek now = .ok latest
  default : parseClosedWeek none now = .ok latest
  monday : weekday latest = 0
  closed : parseClosedWeek (some (isoDate latest)) now = .ok latest ∧ Publishable latest now
  greatest : ∀ d, weekday d = 0 → InRange d → Publishable d now → d ≤ latest

theorem closedWeeks (h : InRange (isoWeekStart now.instant)) :
    ClosedWeeks now (isoWeekStart now.instant - 7) := by
  have hprevious := h.previous
  have hnext := h.next
  have hmonday := weekday_isoWeekStart now.instant
  have hlatest : weekday (isoWeekStart now.instant - 7) = 0 := by
    unfold weekday at hmonday ⊢
    omega
  refine ⟨fun d hd hrange => ⟨?_, fun text htext => ?_⟩, latestClosedIsoWeek_eq h,
    parseClosedWeek_eq h none, hlatest, ⟨?_, ?_⟩, fun d hd hrange hpub => ?_⟩
  · have hlower := hrange.previous
    have hupper := hrange.next
    exact dateFromIsoFormat_isoDate (by omega) (by omega)
  · have hlower := hrange.previous
    rw [parseClosedWeek_eq h, publishable_iff hd (by omega) hrange.next h]
    exact selectWeek_ok htext hd
  · rw [parseClosedWeek_eq h]
    exact (selectWeek_ok (dateFromIsoFormat_isoDate hprevious (by omega)) hlatest).2 (by omega)
  · exact (publishable_iff hlatest hprevious (by omega) h).2 (by omega)
  · have hlower := hrange.previous
    have hlt := (publishable_iff hd (by omega) hrange.next h).1 hpub
    unfold weekday at hd hmonday
    omega

/-- A timestamp belongs to one week, and a week is closed for every check at the same time. -/
theorem week_checks_agree (t now : AwareDatetime) (ht : InRange (isoWeekStart t.instant))
    (hnow : InRange (isoWeekStart now.instant)) :
    (∃ w, Attributed t w) ∧ ∃ latest, ClosedWeeks now latest :=
  ⟨⟨_, attributed ht⟩, ⟨_, closedWeeks hnow⟩⟩

/-- One o'clock on Monday 2024-10-07 two hours ahead of UTC, where it is still Sunday. -/
def earlyMonday : AwareDatetime where
  reading := midnight 20003 + 3600000000
  offset := 7200000000
  lower := by decide
  upper := by decide
  short := by decide

theorem week_checks_agree_earlyMonday :
    (∃ w, Attributed earlyMonday w) ∧ ∃ latest, ClosedWeeks earlyMonday latest :=
  week_checks_agree earlyMonday earlyMonday ⟨by decide, by decide⟩ ⟨by decide, by decide⟩

end TrackFlow.Pipelines
