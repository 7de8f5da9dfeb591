import TrackFlow.Python.Value

/-!
# Dates and ISO weeks

Dates are days since 1970-01-01 (a Thursday), instants are microseconds since its midnight in UTC,
both `Int`. `isoWeekStart` is the Monday of an instant, and it is the only Monday whose week
contains the instant (`mem_week_iff`).
-/

namespace TrackFlow.Python

/-- The length of a day. -/
def dayMicros : Int := 86400000000

/-- The UTC date of an instant. -/
def dateOf (t : Int) : Int := t / dayMicros

/-- `date.weekday()`: Monday is 0. -/
def weekday (d : Int) : Int := (d + 3) % 7

/-- Midnight at the beginning of a date. -/
def midnight (d : Int) : Int := d * dayMicros

/-- The Monday of an instant. -/
def isoWeekStart (t : Int) : Int := dateOf t - weekday (dateOf t)

/-- The half-open week that begins on `w`. -/
def InWeek (w : Int) (t : Int) : Prop := midnight w ≤ t ∧ t < midnight (w + 7)

instance (w : Int) (t : Int) : Decidable (InWeek w t) := inferInstanceAs (Decidable (_ ∧ _))

theorem weekday_isoWeekStart (t : Int) : weekday (isoWeekStart t) = 0 := by
  simp only [weekday, isoWeekStart]
  omega

/-- The weeks of the Mondays partition time. -/
theorem mem_week_iff {w : Int} (hw : weekday w = 0) (t : Int) : InWeek w t ↔ isoWeekStart t = w := by
  have hdiv : ∀ d : Int, midnight d ≤ t ↔ d ≤ t / 86400000000 := fun d =>
    (Int.le_ediv_iff_mul_le (a := d) (b := t) (c := 86400000000) (by decide)).symm
  have hday : ∀ d : Int, t < midnight d ↔ t / 86400000000 < d := fun d => by
    rw [← not_le, hdiv, not_le]
  rw [InWeek, hdiv, hday]
  have hw' : (w + 3) % 7 = 0 := hw
  simp only [isoWeekStart, dateOf, weekday, dayMicros]
  generalize t / 86400000000 = d
  exact ⟨fun h => by omega, fun h => by omega⟩

/-! ## Text -/

/-- A natural number with at least `width` digits. -/
def zeroPadded (width n : Nat) : String :=
  String.ofList (List.replicate (width - n.repr.length) '0') ++ n.repr

/-- `date.isoformat()`: the year, the month and the day of the civil calendar, whose eras have 400 years. -/
def isoDate (d : Int) : String :=
  let z := d + 719468
  let era := z / 146097
  let dayOfEra := (z % 146097).toNat
  let yearOfEra := (dayOfEra - dayOfEra / 1460 + dayOfEra / 36524 - dayOfEra / 146096) / 365
  let dayOfYear := dayOfEra - (365 * yearOfEra + yearOfEra / 4 - yearOfEra / 100)
  let shifted := (5 * dayOfYear + 2) / 153
  let day := dayOfYear - (153 * shifted + 2) / 5 + 1
  let month := if shifted < 10 then shifted + 3 else shifted - 9
  let year := yearOfEra + era * 400 + (if month ≤ 2 then 1 else 0)
  zeroPadded 4 year.toNat ++ "-" ++ zeroPadded 2 month ++ "-" ++ zeroPadded 2 day

example : isoDate 0 = "1970-01-01" ∧ isoDate 11016 = "2000-02-29" ∧ isoDate (-719162) =
  "0001-01-01" := by decide

end TrackFlow.Python
