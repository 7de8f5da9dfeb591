import TrackFlow.Python.Time

/-!
# ISO 8601 texts of dates and instants

`civil` is the calendar date of a day and `ofCivil?` the day of a calendar date (`ofCivil_civil`).
`isoFormat` is what `datetime.isoformat` writes for an instant in UTC, and `fromIsoFormat` is
`datetime.fromisoformat` (`fromIsoFormat_isoFormat`).
-/

namespace TrackFlow.Python

/-! ## The calendar -/

/-- `date.min` and `date.max`. -/
def minDate : Int := -719162
def maxDate : Int := 2932896

/-- The year of a day within its era of 400 years, which begin in March. -/
def yearOfEra (dayOfEra : Nat) : Nat :=
  (dayOfEra - dayOfEra / 1460 + dayOfEra / 36524 - dayOfEra / 146096) / 365

/-- The first day of a year within its era. -/
def eraDay (year : Nat) : Nat := 365 * year + year / 4 - year / 100

/-- The year, the month and the day of a date, as `isoDate` has them. -/
def civil (d : Int) : Nat × Nat × Nat :=
  let z := d + 719468
  let era := z / 146097
  let dayOfEra := (z % 146097).toNat
  let dayOfYear := dayOfEra - eraDay (yearOfEra dayOfEra)
  let shifted := (5 * dayOfYear + 2) / 153
  let day := dayOfYear - (153 * shifted + 2) / 5 + 1
  let month := if shifted < 10 then shifted + 3 else shifted - 9
  ((yearOfEra dayOfEra + era * 400 + (if month ≤ 2 then 1 else 0)).toNat, month, day)

theorem isoDate_eq (d : Int) : isoDate d =
    zeroPadded 4 (civil d).1 ++ "-" ++ zeroPadded 2 (civil d).2.1 ++ "-" ++ zeroPadded 2 (civil d).2.2 :=
      rfl

/-- `calendar.isleap`. -/
def isLeap (year : Nat) : Bool := year % 4 == 0 && (year % 100 != 0 || year % 400 == 0)

def daysInMonth (year month : Nat) : Nat :=
  if month = 2 then (if isLeap year then 29 else 28)
  else if month = 4 ∨ month = 6 ∨ month = 9 ∨ month = 11 then 30
  else 31

def daysBeforeYear (year : Nat) : Nat :=
  (year - 1) * 365 + (year - 1) / 4 - (year - 1) / 100 + (year - 1) / 400

def daysBeforeMonth (year month : Nat) : Nat :=
  [0, 0, 31, 59, 90, 120, 151, 181, 212, 243, 273, 304, 334].getD month 0 +
    (if 2 < month ∧ isLeap year then 1 else 0)

/-- `date(year, month, day)`. -/
def ofCivil? (year month day : Nat) : Option Int :=
  if 1 ≤ year ∧ year ≤ 9999 ∧ 1 ≤ month ∧ month ≤ 12 ∧ 1 ≤ day ∧ day ≤ daysInMonth year month then
    some (((daysBeforeYear year + daysBeforeMonth year month + day : Nat) : Int) - 719163)
  else none

/-- Days of an era less its leap days. -/
def plainDays (n : Nat) : Nat := n - n / 1460 + n / 36524 - n / 146096

theorem plainDays_le_succ (n : Nat) (h : n + 1 < 146097) : plainDays n ≤ plainDays (n + 1) := by
  unfold plainDays
  omega

theorem plainDays_mono {m n : Nat} (h : m ≤ n) (hn : n < 146097) : plainDays m ≤ plainDays n := by
  induction h with
  | refl => exact Nat.le_refl _
  | step h ih => exact Nat.le_trans (ih (by omega)) (plainDays_le_succ _ hn)

theorem yearOfEra_mono {m n : Nat} (h : m ≤ n) (hn : n < 146097) : yearOfEra m ≤ yearOfEra n :=
  Nat.div_le_div_right (plainDays_mono h hn)

/-- The years of an era begin where `yearOfEra` changes. -/
theorem yearOfEra_eraDay :
    ∀ y < 400, yearOfEra (eraDay y) = y ∧ (0 < y → yearOfEra (eraDay y - 1) < y) := by decide +kernel

/-- A day of an era is in its year. -/
theorem eraDay_yearOfEra (n : Nat) (h : n < 146097) :
    yearOfEra n < 400 ∧ eraDay (yearOfEra n) ≤ n ∧ (yearOfEra n < 399 → n < eraDay (yearOfEra n + 1)) := by
  have hy : yearOfEra n < 400 := by
    unfold yearOfEra
    omega
  have hspec := yearOfEra_eraDay (yearOfEra n) hy
  have hday : ∀ y < 400, eraDay y < 146097 := fun y hy => by
    unfold eraDay
    omega
  refine ⟨hy, ?_, fun hlast => ?_⟩
  · by_contra hlt
    have hpos : 0 < yearOfEra n := by
      by_contra hzero
      have h0 : yearOfEra n = 0 := by omega
      rw [h0] at hlt
      exact hlt (Nat.zero_le n)
    have hle := yearOfEra_mono (m := n) (n := eraDay (yearOfEra n) - 1) (by omega)
        (by have := hday _ hy; omega)
    have := hspec.2 hpos
    omega
  · by_contra hge
    have hle := yearOfEra_mono (m := eraDay (yearOfEra n + 1)) (n := n) (by omega) h
    have hnext := (yearOfEra_eraDay (yearOfEra n + 1) (by omega)).1
    omega

/-- The date of a day of a year that begins in March. -/
def fromMarch (year dayOfYear : Nat) : Nat × Nat × Nat :=
  let shifted := (5 * dayOfYear + 2) / 153
  let day := dayOfYear - (153 * shifted + 2) / 5 + 1
  let month := if shifted < 10 then shifted + 3 else shifted - 9
  (year + (if month ≤ 2 then 1 else 0), month, day)

/-- The days before a year that begins in March, from the March of the year 0. -/
def marchDays (year : Nat) : Nat := 365 * year + year / 4 - year / 100 + year / 400

theorem isLeap_iff {year : Nat} :
    isLeap year = true ↔ year % 4 = 0 ∧ (year % 100 ≠ 0 ∨ year % 400 = 0) := by
  simp [isLeap]

/-- Where a date is in its year; the last day of a year is a leap day. -/
theorem civil_eq_fromMarch {d : Int} (h : minDate ≤ d) : ∃ year dayOfYear :
    Nat, civil d = fromMarch year dayOfYear ∧
    d + 719468 = marchDays year + dayOfYear ∧ dayOfYear ≤ 365 ∧
      (dayOfYear = 365 → isLeap (year + 1) = true) := by
  have hz : 306 ≤ d + 719468 := by
    unfold minDate at h
    omega
  generalize hzd : d + 719468 = z at hz
  have hdoe : (z % 146097).toNat < 146097 := by omega
  obtain ⟨hy, hle, hlt⟩ := eraDay_yearOfEra _ hdoe
  obtain ⟨e, he⟩ : ∃ e : Nat, z / 146097 = e := ⟨(z / 146097).toNat, by omega⟩
  generalize hn : (z % 146097).toNat = n at hdoe hy hle hlt
  generalize hyear : yearOfEra n = y at hy hle hlt
  have h4 : (y + e * 400) / 4 = y / 4 + e * 100 := by omega
  have h100 : (y + e * 400) / 100 = y / 100 + e * 4 := by omega
  have h400 : (y + e * 400) / 400 = e := by omega
  have hzn : z = 146097 * e + n := by omega
  unfold eraDay at hle hlt
  refine ⟨y + e * 400, n - eraDay y, ?_, ?_, ?_, fun hlast => isLeap_iff.2 ?_⟩
  · unfold civil fromMarch
    simp only [hzd, hn, hyear, he, Prod.mk.injEq, and_true]
    split <;> split <;> omega
  · unfold eraDay marchDays
    rw [h4, h100, h400]
    omega
  · unfold eraDay
    omega
  · unfold eraDay at hlast
    by_cases hfinal : y = 399
    · subst hfinal
      omega
    · have hnext := hlt (by omega)
      have hquarter : (y + 1) / 4 = y / 4 + 1 := by omega
      have hcentury : (y + 1) / 100 = y / 100 := by omega
      have hleap : (y + 1) % 4 = 0 ∧ (y + 1) % 100 ≠ 0 := by omega
      have hmod4 : (y + e * 400 + 1) % 4 = (y + 1) % 4 := by omega
      have hmod100 : (y + e * 400 + 1) % 100 = (y + 1) % 100 := by omega
      rw [hmod4, hmod100]
      exact ⟨hleap.1, .inl hleap.2⟩

theorem daysBeforeYear_succ (year : Nat) : daysBeforeYear (year + 1) = marchDays year := by
  unfold daysBeforeYear marchDays
  omega

/-- What was counted before a number, when every `k`-th counts. -/
theorem pred_div {n : Nat} (k : Nat) (h : 1 ≤ n) : (n - 1) / k + (if n % k = 0 then 1 else 0) = n / k := by
  obtain ⟨m, rfl⟩ : ∃ m, n = m + 1 := ⟨n - 1, by omega⟩
  rw [Nat.add_sub_cancel, Nat.succ_div]
  simp only [Nat.dvd_iff_mod_eq_zero]

/-- The days before a year, and its January and February. -/
theorem daysBeforeYear_march {year : Nat} (h : 1 ≤ year) :
    daysBeforeYear year + 59 + (if isLeap year then 1 else 0) + 306 = marchDays year := by
  have h4 := pred_div 4 h
  have h100 := pred_div 100 h
  have h400 := pred_div 400 h
  have hsmall : (year - 1) / 100 ≤ (year - 1) / 4 := by omega
  unfold daysBeforeYear marchDays
  rw [← h4, ← h100, ← h400]
  generalize (year - 1) / 4 = a at hsmall
  generalize (year - 1) / 100 = b at hsmall
  generalize (year - 1) / 400 = c
  clear h4 h100 h400
  by_cases hy4 : year % 4 = 0
  · by_cases hy100 : year % 100 = 0
    · by_cases hy400 : year % 400 = 0
      · rw [if_pos (isLeap_iff.2 ⟨hy4, .inr hy400⟩), if_pos hy4, if_pos hy100, if_pos hy400]
        omega
      · rw [if_neg (mt isLeap_iff.1 (by tauto)), if_pos hy4, if_pos hy100, if_neg hy400]
        omega
    · have hy400 : year % 400 ≠ 0 := by omega
      rw [if_pos (isLeap_iff.2 ⟨hy4, .inl hy100⟩), if_pos hy4, if_neg hy100, if_neg hy400]
      omega
  · have hy100 : year % 100 ≠ 0 := by omega
    have hy400 : year % 400 ≠ 0 := by omega
    rw [if_neg (mt isLeap_iff.1 (by tauto)), if_neg hy4, if_neg hy100, if_neg hy400]
    omega

theorem ofCivil_eq {year month day : Nat} {d : Int} (hy : 1 ≤ year ∧ year ≤ 9999)
    (hm : 1 ≤ month ∧ month ≤ 12) (hday : 1 ≤ day ∧ day ≤ daysInMonth year month)
    (hd : ((daysBeforeYear year + daysBeforeMonth year month + day : Nat) : Int) = d + 719163) :
    ofCivil? year month day = some d := by
  unfold ofCivil?
  rw [if_pos ⟨hy.1, hy.2, hm.1, hm.2, hday.1, hday.2⟩, hd, Int.add_sub_cancel]

/-- From March to December. -/
theorem ofCivil_spring {year dayOfYear : Nat} (hy : 1 ≤ year ∧ year ≤ 9999)
    (h : (5 * dayOfYear + 2) / 153 < 10) :
    ofCivil? (fromMarch year dayOfYear).1 (fromMarch year dayOfYear).2.1 (fromMarch year dayOfYear).2.2 =
      some (((marchDays year + dayOfYear : Nat) : Int) - 719468) := by
  have hmarch := daysBeforeYear_march hy.1
  unfold fromMarch
  generalize hs : (5 * dayOfYear + 2) / 153 = shifted at h
  simp only [h, if_true, show ¬ shifted + 3 ≤ 2 by omega, if_false, Nat.add_zero]
  refine ofCivil_eq hy (by omega) ?_ ?_
  · interval_cases shifted <;> simp [daysInMonth] <;> omega
  · have htable : daysBeforeMonth year (shifted + 3) = 59 + (153 * shifted + 2) / 5 +
        (if isLeap year then 1 else 0) := by
      have hlate : (2 < shifted + 3 ∧ isLeap year = true) ↔ isLeap year = true := by
        constructor
        · exact fun h => h.2
        · exact fun h => ⟨by omega, h⟩
      unfold daysBeforeMonth
      simp only [hlate]
      interval_cases shifted <;> rfl
    rw [htable]
    omega

/-- January and February. -/
theorem ofCivil_winter {year dayOfYear : Nat} (hy : year + 1 ≤ 9999) (h : 306 ≤ dayOfYear)
    (hlen : dayOfYear ≤ 365)
    (hleap : dayOfYear = 365 → isLeap (year + 1) = true) :
    ofCivil? (fromMarch year dayOfYear).1 (fromMarch year dayOfYear).2.1 (fromMarch year dayOfYear).2.2 =
      some (((marchDays year + dayOfYear : Nat) : Int) - 719468) := by
  have hjanuary := daysBeforeYear_succ year
  unfold fromMarch
  by_cases hfeb : dayOfYear < 337
  · have hs : (5 * dayOfYear + 2) / 153 = 10 := by omega
    simp only [hs]
    refine ofCivil_eq ⟨by simp, by simpa using hy⟩ (by simp) ⟨by simp, by simp [daysInMonth]; omega⟩ ?_
    show ((daysBeforeYear (year + 1) + 0 + (dayOfYear - (153 * 10 + 2) / 5 + 1) : Nat) : Int) = _
    omega
  · have hs : (5 * dayOfYear + 2) / 153 = 11 := by omega
    simp only [hs]
    refine ofCivil_eq ⟨by simp, by simpa using hy⟩ (by simp) ⟨by simp, ?_⟩ ?_
    · by_cases hlast : dayOfYear = 365
      · simp [daysInMonth, hleap hlast, hlast]
      · simp only [daysInMonth]
        simp
        split <;> omega
    · show ((daysBeforeYear (year + 1) + 31 + (dayOfYear - (153 * 11 + 2) / 5 + 1) : Nat) : Int) = _
      omega

/-- The day of a date is the date's day. -/
theorem ofCivil_civil {d : Int} (h : minDate ≤ d) (h' : d ≤ maxDate) :
    ofCivil? (civil d).1 (civil d).2.1 (civil d).2.2 = some d := by
  obtain ⟨year, dayOfYear, hcivil, hd, hlen, hleap⟩ := civil_eq_fromMarch h
  unfold minDate at h
  unfold maxDate at h'
  have hfirst : year = 0 → marchDays year = 0 := by
    rintro rfl
    rfl
  have hgrow : 365 * year ≤ marchDays year := by
    unfold marchDays
    omega
  rw [hcivil]
  by_cases hs : (5 * dayOfYear + 2) / 153 < 10
  · have hyear : 1 ≤ year ∧ year ≤ 9999 := by
      unfold marchDays at *
      omega
    rw [ofCivil_spring hyear hs]
    exact congrArg some (by omega)
  · have hyear : year + 1 ≤ 9999 := by
      unfold marchDays at *
      omega
    rw [ofCivil_winter hyear (by omega) hlen hleap]
    exact congrArg some (by omega)

/-! ## Texts -/

/-- The time of a day in microseconds, with all of them (`timespec="microseconds"`). -/
def isoTime (micros : Nat) : String :=
  zeroPadded 2 (micros / 3600000000) ++ ":" ++ zeroPadded 2 (micros / 60000000 % 60) ++ ":" ++
    zeroPadded 2 (micros / 1000000 % 60) ++ "." ++ zeroPadded 6 (micros % 1000000)

/-- `isoformat` of an instant in UTC. -/
def isoFormat (t : Int) : String := isoDate (dateOf t) ++ "T" ++ isoTime (t % dayMicros).toNat ++ "+00:00"

/-- `n` digits and the rest of the text. -/
def takeDigits (n : Nat) (cs : List Char) : Option (Nat × List Char) :=
  if (cs.take n).length = n ∧ (cs.take n).all Char.isDigit then
      some (Nat.ofDigitChars 10 (cs.take n) 0, cs.drop n) else none

/-- The separator of an extended format, which a basic format does without. -/
def takeSeparator (c : Char) (extended : Bool) (cs : List Char) : Option (List Char) :=
  match cs with
  | d :: ds => if d = c then (if extended then some ds else none) else if extended then none else some cs
  | [] => if extended then none else some []

/-- Where the date ends. -/
def separatorLocation (cs : List Char) : Option Nat :=
  let isDigit (n : Nat) : Bool := (cs[n]?).any Char.isDigit
  if cs.length = 7 then some 7
  else if cs[4]? = some '-' then
    if cs[5]? = some 'W' then
      if cs[8]? = some '-' then
        if cs.length = 9 then none else if isDigit 10 then some 8 else some 10
      else some 8
    else some 10
  else if cs[4]? = some 'W' then
    let digits := ((cs.drop 7).takeWhile Char.isDigit).length
    if digits < 2 then some (7 + digits) else if (7 + digits) % 2 = 0 then some 7 else some 8
  else some 8

/-- The Monday of the first ISO week of a year. -/
def firstMonday (year : Nat) : Option Int := do
  let first ← ofCivil? year 1 1
  return first - weekday first + (if 3 < weekday first then 7 else 0)

/-- The day of a week date. -/
def ofWeek? (year week day : Nat) : Option Int := do
  let first ← ofCivil? year 1 1
  let long := weekday first = 3 ∨ weekday first = 2 ∧ isLeap year
  if (1 ≤ week ∧ week ≤ 52 ∨ week = 53 ∧ long) ∧ 1 ≤ day ∧ day ≤ 7 then
    let monday ← firstMonday year
    let d := monday + ((week - 1) * 7 + (day - 1) : Nat)
    if minDate ≤ d ∧ d ≤ maxDate then return d else none
  else none

/-- `_parse_isoformat_date`. -/
def parseDate (cs : List Char) : Option Int := do
  let (year, cs) ← takeDigits 4 cs
  let extended := cs.head? = some '-'
  let cs ← takeSeparator '-' extended cs
  match cs with
  | 'W' :: cs =>
    let (week, cs) ← takeDigits 2 cs
    if cs = [] then ofWeek? year week 1
    else
      let cs ← takeSeparator '-' extended cs
      let (day, cs) ← takeDigits 1 cs
      if cs = [] then ofWeek? year week day else none
  | _ =>
    let (month, cs) ← takeDigits 2 cs
    let cs ← takeSeparator '-' extended cs
    let (day, cs) ← takeDigits 2 cs
    if cs = [] then ofCivil? year month day else none

/-- A fraction of a second in microseconds; what is smaller is cut off. -/
def parseFraction (cs : List Char) : Option Nat :=
  if cs ≠ [] ∧ cs.all Char.isDigit then
      some (Nat.ofDigitChars 10 (cs.take 6) 0 * 10 ^ (6 - cs.length)) else none

/-- The hours, minutes, seconds and microseconds of a time or of an offset. -/
structure Clock where
  hours : Nat
  minutes : Nat := 0
  seconds : Nat := 0
  micros : Nat := 0

def Clock.total (c : Clock) : Nat := ((c.hours * 60 + c.minutes) * 60 + c.seconds) * 1000000 + c.micros

/-- `_parse_hh_mm_ss_ff`. -/
def parseClock (cs : List Char) : Option Clock := do
  let (hours, cs) ← takeDigits 2 cs
  if cs = [] then return { hours }
  else
    let extended := cs.head? = some ':'
    let cs ← takeSeparator ':' extended cs
    let (minutes, cs) ← takeDigits 2 cs
    if cs = [] then return { hours, minutes }
    else
      let cs ← takeSeparator ':' extended cs
      let (seconds, cs) ← takeDigits 2 cs
      match cs with
      | [] => return { hours, minutes, seconds }
      | c :: cs =>
        if c = '.' ∨ c = ',' then
          let micros ← parseFraction cs
          return { hours, minutes, seconds, micros }
        else none

/-- An offset in microseconds, which is shorter than a day. -/
def parseOffset : List Char → Option Int
  | ['Z'] => some 0
  | 'Z' :: _ => none
  | sign :: cs => do
    let clock ← parseClock cs
    if (clock.total : Int) < dayMicros then return (if sign = '-' then -clock.total else clock.total)
    else none
  | [] => none

/-- The characters that begin an offset. -/
def isZone (c : Char) : Bool := c == '+' || c == '-' || c == 'Z'

/-- `_parse_isoformat_time`, for a day: an aware instant or a naive reading. -/
def parseTime (day : Int) (cs : List Char) : Option PyValue := do
  let clock ← parseClock (cs.takeWhile fun c => !isZone c)
  if clock.hours < 24 ∧ clock.minutes < 60 ∧ clock.seconds < 60 then
    let reading := midnight day + clock.total
    match cs.dropWhile fun c => !isZone c with
    | [] => return .naive reading
    | zone =>
      let offset ← parseOffset zone
      return .aware (reading - offset)
  else none

/-- `datetime.fromisoformat`; `none` for a `ValueError`. An aware instant may be out of the range of
`datetime` in UTC. On the texts that the documentation describes; the parser of CPython also takes a few that
it does not, such as `2024-01-01T12:Z`. -/
def fromIsoFormat (s : String) : Option PyValue := do
  let cs := s.toList
  if cs.length < 7 then none
  else
    let n ← separatorLocation cs
    let day ← parseDate (cs.take n)
    match cs.drop n with
    | [] => return .naive (midnight day)
    | _ :: time => parseTime day time

/-! ## Reading what was written -/

/-- The padded digits of a number. -/
def padded (width n : Nat) : List Char := (zeroPadded width n).toList

theorem padded_eq (width n : Nat) :
    padded width n = List.replicate (width - (Nat.toDigits 10 n).length) '0' ++ Nat.toDigits 10 n := by
  simp [padded, zeroPadded, Nat.repr_eq_ofList_toDigits]

theorem length_padded {width n : Nat} (hw : 0 < width) (h : n < 10 ^ width) :
    (padded width n).length = width := by
  have hle := (Nat.length_toDigits_le_iff (b := 10) (by decide) hw).2 h
  rw [padded_eq, List.length_append, List.length_replicate]
  omega

theorem isDigit_padded {width n : Nat} {c : Char} (h : c ∈ padded width n) : c.isDigit = true := by
  rw [padded_eq, List.mem_append] at h
  obtain h | h := h
  · rw [List.eq_of_mem_replicate h]
    rfl
  · exact Nat.isDigit_of_mem_toDigits (by decide) (by decide) h

theorem ofDigitChars_padded (width n : Nat) : Nat.ofDigitChars 10 (padded width n) 0 = n := by
  rw [padded_eq, Nat.ofDigitChars_append, Nat.ofDigitChars_replicate_zero, Nat.mul_zero,
    Nat.ofDigitChars_ten_toDigits]

theorem takeDigits_padded {width n : Nat} (hw : 0 < width) (h : n < 10 ^ width) (rest : List Char) :
    takeDigits width (padded width n ++ rest) = some (n, rest) := by
  have hlen := length_padded hw h
  have hall : (padded width n).all Char.isDigit = true := List.all_eq_true.2 fun c hc => isDigit_padded hc
  unfold takeDigits
  rw [List.take_left' hlen, List.drop_left' hlen, if_pos ⟨hlen, hall⟩, ofDigitChars_padded]

theorem takeSeparator_extended (c : Char) (cs : List Char) : takeSeparator c true (c :: cs) = some cs := by
  simp [takeSeparator]

/-- The calendar date of a day of the range fits its text. -/
theorem civil_lt {d : Int} (h : minDate ≤ d) (h' : d ≤ maxDate) :
    (civil d).1 < 10 ^ 4 ∧ (civil d).2.1 < 10 ^ 2 ∧ (civil d).2.2 < 10 ^ 2 := by
  have hsome := ofCivil_civil h h'
  unfold ofCivil? at hsome
  split at hsome
  · next hrange =>
    obtain ⟨_, hy, _, hm, _, hday⟩ := hrange
    have hlen : daysInMonth (civil d).1 (civil d).2.1 ≤ 31 := by
      unfold daysInMonth
      split
      · split <;> decide
      · split <;> decide
    omega
  · cases hsome

/-- The text of a date. -/
def dateChars (d : Int) : List Char :=
  padded 4 (civil d).1 ++ '-' :: (padded 2 (civil d).2.1 ++ '-' :: padded 2 (civil d).2.2)

/-- The text of a time. -/
def timeChars (micros : Nat) : List Char :=
  padded 2 (micros / 3600000000) ++ ':' :: (padded 2 (micros / 60000000 % 60) ++ ':' ::
    (padded 2 (micros / 1000000 % 60) ++ '.' :: padded 6 (micros % 1000000)))

theorem toList_isoFormat (t : Int) : (isoFormat t).toList =
    dateChars (dateOf t) ++ 'T' :: (timeChars (t % dayMicros).toNat ++ ['+', '0', '0', ':', '0', '0']) := by
  simp [isoFormat, isoDate_eq, isoTime, dateChars, timeChars, padded]

theorem length_dateChars {d : Int} (h : minDate ≤ d) (h' : d ≤ maxDate) : (dateChars d).length = 10 := by
  obtain ⟨hy, hm, hd⟩ := civil_lt h h'
  simp only [dateChars, List.length_append, List.length_cons, length_padded (by decide) hy,
    length_padded (by decide) hm, length_padded (by decide) hd]

/-- A padded number does not begin with another character. -/
theorem padded_head {width n : Nat} (hw : 0 < width) (h : n < 10 ^ width) :
    ∃ c cs, padded width n = c :: cs ∧ c.isDigit = true := by
  cases hp : padded width n with
  | nil =>
    have hlen := length_padded hw h
    rw [hp, List.length_nil] at hlen
    omega
  | cons c cs => exact ⟨c, cs, rfl, isDigit_padded (hp ▸ List.mem_cons_self)⟩

theorem parseDate_dateChars {d : Int} (h : minDate ≤ d) (h' : d ≤ maxDate) :
    parseDate (dateChars d) = some d := by
  obtain ⟨hy, hm, hd⟩ := civil_lt h h'
  obtain ⟨c, cs, hmonth, hc⟩ := padded_head (by decide) hm
  have hday := takeDigits_padded (by decide) hd []
  rw [List.append_nil] at hday
  unfold parseDate dateChars
  rw [takeDigits_padded (by decide) hy]
  simp only [Option.bind_eq_bind, Option.bind_some, List.head?_cons, takeSeparator_extended, decide_true]
  split
  · next cs' hw =>
    rw [hmonth, List.cons_append] at hw
    obtain ⟨rfl, -⟩ := List.cons.inj hw
    exact absurd hc (by decide)
  · rw [takeDigits_padded (by decide) hm]
    simp only [Option.bind_some, takeSeparator_extended, hday, if_true]
    exact ofCivil_civil h h'

theorem parseFraction_padded {n : Nat} (h : n < 10 ^ 6) : parseFraction (padded 6 n) = some n := by
  have hlen := length_padded (by decide) h
  have hall : (padded 6 n).all Char.isDigit = true := List.all_eq_true.2 fun c hc => isDigit_padded hc
  have hne : padded 6 n ≠ [] := by
    intro hnil
    rw [hnil] at hlen
    cases hlen
  unfold parseFraction
  rw [if_pos ⟨hne, hall⟩, hlen, List.take_of_length_le (by rw [hlen]), ofDigitChars_padded, Nat.sub_self,
    Nat.pow_zero, Nat.mul_one]

/-- The time of a day. -/
theorem parseClock_timeChars {micros : Nat} (h : micros < 86400000000) : parseClock (timeChars micros) =
    some ⟨micros / 3600000000, micros / 60000000 % 60, micros / 1000000 % 60, micros % 1000000⟩ := by
  have hh : micros / 3600000000 < 10 ^ 2 := by omega
  have hm : micros / 60000000 % 60 < 10 ^ 2 := by omega
  have hs : micros / 1000000 % 60 < 10 ^ 2 := by omega
  have hf : micros % 1000000 < 10 ^ 6 := by omega
  unfold parseClock timeChars
  rw [takeDigits_padded (by decide) hh]
  simp only [Option.bind_eq_bind, Option.bind_some, List.cons_ne_nil, if_false, List.head?_cons,
      takeSeparator_extended,
    decide_true]
  rw [takeDigits_padded (by decide) hm]
  simp only [Option.bind_some, List.cons_ne_nil, if_false, takeSeparator_extended]
  rw [takeDigits_padded (by decide) hs]
  simp only [Option.bind_some, true_or, if_true, parseFraction_padded hf]
  rfl

theorem total_timeChars (micros : Nat) : Clock.total
    ⟨micros / 3600000000, micros / 60000000 % 60, micros / 1000000 % 60, micros % 1000000⟩ = micros := by
  unfold Clock.total
  dsimp only
  omega

/-- No offset begins within the text of a time. -/
theorem not_isZone_timeChars {micros : Nat} {c : Char} (h : c ∈ timeChars micros) : isZone c = false := by
  have hdigit : ∀ w n, c ∈ padded w n → isZone c = false := fun w n hc => by
    have hn := toNat_of_isDigit (isDigit_padded hc)
    simp only [isZone, Bool.or_eq_false_iff, beq_eq_false_iff_ne]
    refine ⟨⟨?_, ?_⟩, ?_⟩ <;> rintro rfl <;> revert hn <;> decide
  simp only [timeChars, List.mem_append, List.mem_cons] at h
  obtain h | rfl | h | rfl | h | rfl | h := h
  · exact hdigit _ _ h
  · rfl
  · exact hdigit _ _ h
  · rfl
  · exact hdigit _ _ h
  · rfl
  · exact hdigit _ _ h

theorem parseTime_timeChars (day : Int) {micros : Nat} (h : micros < 86400000000) :
    parseTime day (timeChars micros ++ ['+', '0', '0', ':', '0', '0']) =
      some (.aware (midnight day + micros)) := by
  have hzone : ∀ c ∈ timeChars micros, (!isZone c) = true :=
    fun c hc => by rw [not_isZone_timeChars hc]; rfl
  have htake : (timeChars micros ++ ['+', '0', '0', ':', '0', '0']).takeWhile (fun c => !isZone c) =
      timeChars micros := by
    rw [List.takeWhile_append_of_pos hzone]
    simp [isZone]
  have hdrop : (timeChars micros ++ ['+', '0', '0', ':', '0', '0']).dropWhile (fun c => !isZone c) =
      ['+', '0', '0', ':', '0', '0'] := by
    rw [List.dropWhile_append_of_pos hzone]
    rfl
  have hoffset : parseOffset ['+', '0', '0', ':', '0', '0'] = some 0 := by decide +kernel
  have hclock : micros / 3600000000 < 24 ∧ micros / 60000000 % 60 < 60 ∧ micros / 1000000 % 60 <
      60 := by omega
  unfold parseTime
  rw [htake, hdrop, parseClock_timeChars h]
  simp only [Option.bind_eq_bind, Option.bind_some, if_pos hclock, hoffset, total_timeChars]
  simp

/-- The date ends before the `T`. -/
theorem separatorLocation_dateChars {d : Int} (h : minDate ≤ d) (h' : d ≤ maxDate) (rest : List Char) :
    separatorLocation (dateChars d ++ rest) = some 10 := by
  obtain ⟨hy, hm, _⟩ := civil_lt h h'
  obtain ⟨c, cs, hmonth, hc⟩ := padded_head (by decide) hm
  have hyear := length_padded (by decide) hy
  have hlen : (dateChars d ++ rest).length ≠ 7 := by
    rw [List.length_append, length_dateChars h h']
    omega
  have hdash : (dateChars d ++ rest)[4]? = some '-' := by
    rw [dateChars, List.append_assoc, List.getElem?_append_right (by omega), hyear]
    rfl
  have hmonth' : (dateChars d ++ rest)[5]? = some c := by
    rw [dateChars, List.append_assoc, List.getElem?_append_right (by omega), hyear, hmonth]
    rfl
  have hweek : ¬ c = 'W' := by
    rintro rfl
    exact absurd hc (by decide)
  unfold separatorLocation
  simp only [hlen, if_false, hdash, if_true, hmonth', Option.some.injEq, hweek]

/-- A text that `isoFormat` wrote is read as the instant. -/
theorem fromIsoFormat_isoFormat {t : Int} (h : minDate ≤ dateOf t) (h' : dateOf t ≤ maxDate) :
    fromIsoFormat (isoFormat t) = some (.aware t) := by
  have hlen := length_dateChars h h'
  have hmicros : (t % dayMicros).toNat < 86400000000 := by
    unfold dayMicros
    omega
  unfold fromIsoFormat
  dsimp only
  rw [toList_isoFormat, separatorLocation_dateChars h h']
  simp only [Option.bind_eq_bind, Option.bind_some]
  rw [if_neg (by simp [hlen]; omega), List.take_left' hlen, parseDate_dateChars h h', List.drop_left' hlen]
  simp only [Option.bind_some, parseTime_timeChars (dateOf t) hmicros]
  refine congrArg (fun t => some (PyValue.aware t)) ?_
  unfold midnight dateOf dayMicros
  omega

end TrackFlow.Python
