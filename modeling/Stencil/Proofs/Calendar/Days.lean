import Mathlib.Algebra.BigOperators.Group.List.Basic
import Mathlib.Algebra.Ring.Nat
import Stencil.Helper.Builtin
import Stencil.Proofs.Number.Numerals

/-! The number of a day counts the days before it, year by year and month by month, and from
its number the day is found again. So is a moment from the count of milliseconds since the
start of 1970. -/
namespace Stencil

namespace Calendar

def daysInYear (year : Nat) : Nat := if isLeap year then 366 else 365

/-- The days of all years before a year, from year 1 on. -/
def daysBeforeYear (year : Nat) : Nat := ((List.range' 1 (year - 1)).map daysInYear).sum

theorem sum_monthLengths (year : Nat) : (monthLengths (isLeap year)).sum = daysInYear year := by
  unfold daysInYear
  cases isLeap year <;> rfl

theorem yearStart_succ (year : Nat) :
    yearStart ((year + 1 : Nat) : Int) = yearStart year + daysInYear year := by
  unfold yearStart daysInYear isLeap
  by_cases four : year % 4 = 0 <;> by_cases century : year % 100 = 0 <;>
    by_cases cycle : year % 400 = 0 <;> simp [four, century, cycle] <;> omega

theorem yearStart_eq {year : Nat} (counted : 1 ≤ year) :
    yearStart year = daysBeforeYear year := by
  obtain ⟨past, rfl⟩ := Nat.exists_eq_add_of_le' counted
  clear counted
  induction past with
  | zero => rfl
  | succ past ih =>
    rw [yearStart_succ, ih, daysBeforeYear, daysBeforeYear, Nat.add_sub_cancel, Nat.add_sub_cancel,
      List.range'_1_concat, Nat.add_comm 1 past]
    simp

section Months

variable {lengths : List Nat} {month day length : Nat}

theorem monthAt_sum (found : lengths[month]? = some length) (within : day < length) :
    monthAt ((lengths.take month).sum + day) lengths = (month, day) := by
  induction lengths generalizing month with
  | nil => simp at found
  | cons first lengths ih =>
    cases month with
    | zero =>
      obtain rfl : first = length := by simpa using found
      simp [monthAt, within]
    | succ month =>
      have later : lengths[month]? = some length := by simpa using found
      have behind : ¬first + (lengths.take month).sum + day < first := by omega
      have left : first + (lengths.take month).sum + day - first =
          (lengths.take month).sum + day := by omega
      rw [List.take_succ_cons, List.sum_cons, monthAt, if_neg behind, left, ih later]

theorem sum_take_add_lt (found : lengths[month]? = some length) (within : day < length) :
    (lengths.take month).sum + day < lengths.sum := by
  induction lengths generalizing month with
  | nil => simp at found
  | cons first lengths ih =>
    cases month with
    | zero =>
      obtain rfl : first = length := by simpa using found
      rw [List.take_zero, List.sum_nil, List.sum_cons]
      omega
    | succ month =>
      have later : lengths[month]? = some length := by simpa using found
      have := ih later
      rw [List.take_succ_cons, List.sum_cons, List.sum_cons]
      omega

end Months

/-- A year by the cycles, centuries and leap cycles that are past, and the years after them. -/
structure IsYear (year cycles centuries fours years : Nat) : Prop where
  sum : year = 400 * cycles + 100 * centuries + 4 * fours + years + 1
  centuries_lt : centuries < 4
  fours_lt : fours < 25
  years_lt : years < 4

theorem isYear_of_pos {year : Nat} (counted : 1 ≤ year) :
    IsYear year ((year - 1) / 400) ((year - 1) / 100 % 4) ((year - 1) / 4 % 25)
      ((year - 1) % 4) where
  sum := by omega
  centuries_lt := by omega
  fours_lt := by omega
  years_lt := by omega

variable {year cycles centuries fours years : Nat}

theorem IsYear.yearStart (h : IsYear year cycles centuries fours years) :
    yearStart year = (146097 * cycles + 36524 * centuries + 1461 * fours + 365 * years : Nat) := by
  obtain ⟨rfl, _, _, _⟩ := h
  simp only [Calendar.yearStart]
  omega

theorem IsYear.isLeap_iff (h : IsYear year cycles centuries fours years) :
    isLeap year = true ↔ years = 3 ∧ (fours ≠ 24 ∨ centuries = 3) := by
  obtain ⟨rfl, _, _, _⟩ := h
  simp only [isLeap, Bool.and_eq_true, Bool.or_eq_true, decide_eq_true_eq]
  omega

/-- A day of the year that is counted from 0. -/
theorem IsYear.day_le (h : IsYear year cycles centuries fours years) {day : Nat}
    (within : day < daysInYear year) : day < 365 ∨ day = 365 ∧ years = 3 ∧
      (fours ≠ 24 ∨ centuries = 3) := by
  unfold daysInYear at within
  split at within
  next leap => have := h.isLeap_iff.mp leap; omega
  next => omega

/-- What is left over whole units is less than a unit; only the last century of a cycle and the last
of four years may be longer by a day. -/
theorem IsYear.rests (h : IsYear year cycles centuries fours years) {day : Nat}
    (within : day < daysInYear year) :
    36524 * centuries + (1461 * fours + (365 * years + day)) < 146097 ∧
    (1461 * fours + (365 * years + day) < 36524 ∨
      1461 * fours + (365 * years + day) = 36524 ∧ centuries = 3) ∧
    365 * years + day < 1461 ∧ (day < 365 ∨ day = 365 ∧ years = 3) := by
  have last := h.day_le within
  obtain ⟨-, _, _, _⟩ := h
  omega

/-- Of four units the last may be longer by one. -/
theorem min_div_unit {unit count rest : Nat} (positive : 0 < unit) (few : count < 4)
    (inside : rest < unit ∨ rest = unit ∧ count = 3) :
    min 3 ((unit * count + rest) / unit) = count := by
  rw [Nat.mul_add_div positive]
  rcases inside with short | ⟨rfl, rfl⟩
  · rw [Nat.div_eq_of_lt short]
    omega
  · rw [Nat.div_self positive]
    rfl

end Calendar

namespace Date

open Calendar

theorem of?_parts (date : Date) : of? date.year date.month date.day = some date :=
  dif_pos date.valid

/-- The day of the year, counted from 0. -/
def dayOfYear (date : Date) : Nat :=
  ((monthLengths (isLeap date.year)).take (date.month - 1)).sum + (date.day - 1)

/-- The days before a date, from the first day of year 1 on. -/
def daysBefore (date : Date) : Nat := daysBeforeYear date.year + date.dayOfYear

theorem number_eq (date : Date) :
    date.number = (yearStart date.year).toNat + date.dayOfYear := by
  rw [number, dayOfYear, ← List.sum_eq_foldl, Nat.add_assoc]

theorem number_eq_daysBefore (date : Date) : date.number = date.daysBefore := by
  rw [number_eq, yearStart_eq date.valid.1, Int.toNat_natCast, daysBefore]

theorem month_found (date : Date) : (monthLengths (isLeap date.year))[date.month - 1]? =
    some (daysInMonth date.year date.month) := by
  obtain ⟨-, -, _, _, -⟩ := date.valid
  have inside : date.month - 1 < (monthLengths (isLeap date.year)).length := by
    simp only [monthLengths, List.length_cons, List.length_nil]
    omega
  rw [daysInMonth, List.getD_eq_getElem?_getD, List.getElem?_eq_getElem inside, Option.getD_some]

theorem day_within (date : Date) : date.day - 1 < daysInMonth date.year date.month := by
  obtain ⟨-, -, -, -, _, _⟩ := date.valid
  omega

theorem dayOfYear_lt (date : Date) : date.dayOfYear < daysInYear date.year := by
  rw [← sum_monthLengths]
  exact sum_take_add_lt date.month_found date.day_within

/-- A date is found again from its number. -/
theorem ofNumber?_number (date : Date) : ofNumber? date.number = some date := by
  have year := isYear_of_pos date.valid.1
  generalize (date.year - 1) / 400 = cycles at year
  generalize (date.year - 1) / 100 % 4 = centuries at year
  generalize (date.year - 1) / 4 % 25 = fours at year
  generalize (date.year - 1) % 4 = years at year
  obtain ⟨inCycle, inCentury, inFour, inYear⟩ := year.rests date.dayOfYear_lt
  have number : date.number =
      146097 * cycles + (36524 * centuries + (1461 * fours + (365 * years + date.dayOfYear))) := by
    rw [number_eq, year.yearStart, Int.toNat_natCast]
    omega
  obtain ⟨cyclesFound, dayOfCycle⟩ : date.number / 146097 = cycles ∧ date.number % 146097 = _ :=
    (Nat.div_mod_unique (by decide)).mpr ⟨(Nat.add_comm ..).trans number.symm, inCycle⟩
  have centuriesFound := min_div_unit (by decide) year.centuries_lt inCentury
  obtain ⟨foursFound, dayOfFour⟩ := (Nat.div_mod_unique (by decide)).mpr
    ⟨Nat.add_comm (365 * years + date.dayOfYear) (1461 * fours), inFour⟩
  have yearsFound := min_div_unit (by decide) year.years_lt inYear
  have monthFound := monthAt_sum date.month_found date.day_within
  obtain ⟨-, -, month, -, first, -⟩ := date.valid
  rw [← dayOfYear] at monthFound
  simp only [ofNumber?, dayOfCycle, centuriesFound, Nat.add_sub_cancel_left, cyclesFound,
    foursFound, dayOfFour, yearsFound, ← year.sum, monthFound, Nat.sub_add_cancel month,
    Nat.sub_add_cancel first]
  exact date.of?_parts

end Date

namespace Epoch

/-- The day on which the count starts. -/
def start : Date := ⟨1970, 1, 1, by decide⟩

theorem start_number : (start.number : Int) = firstDay := by decide

end Epoch

namespace TimeOfDay

/-- Whole seconds since midnight. -/
def seconds (t : TimeOfDay) : Nat := (t.hour * 60 + t.minute) * 60 + t.second

theorem seconds_lt (t : TimeOfDay) : t.seconds < 86400 := by
  obtain ⟨_, _, _, -⟩ := t.valid
  unfold seconds
  omega

theorem ofSeconds_seconds {t : TimeOfDay} (whole : t.microsecond = 0) :
    ofSeconds t.seconds 0 = t := by
  obtain ⟨hour, minute, second, microsecond, valid⟩ := t
  obtain rfl : microsecond = 0 := whole
  simp only [ofSeconds, seconds, mk.injEq, Nat.zero_mod, and_true]
  omega

end TimeOfDay

namespace Moment

/-- Whole seconds from the start of 1970 to a moment, negative for what is before: the days
between the two, counted one by one, and the time of the day. -/
def seconds (m : Moment) : Int :=
  ((m.date.daysBefore : Int) - Epoch.start.daysBefore) * 86400 + m.time.seconds

theorem seconds_eq (m : Moment) :
    m.seconds = ((m.date.number : Int) - Epoch.firstDay) * 86400 + m.time.seconds := by
  rw [seconds, ← Date.number_eq_daysBefore, ← Date.number_eq_daysBefore, Epoch.start_number]

end Moment

namespace Date

open Calendar

/-- The days from year 2 on, up to the last day of the calendar. -/
theorem number_bounds (date : Date) (later : 2 ≤ date.year) :
    365 ≤ date.number ∧ date.number < 3652059 := by
  obtain ⟨-, known, -⟩ := date.valid
  have inside := date.dayOfYear_lt
  have next := yearStart_succ date.year
  have first : 365 ≤ yearStart date.year := by
    simp only [yearStart]
    omega
  have last : yearStart ((date.year + 1 : Nat) : Int) ≤ 3652059 := by
    simp only [yearStart, lastYear] at *
    omega
  rw [number_eq]
  omega

end Date

namespace Epoch

/-- From year 2 on, every moment is in the range of the clock and of the calendar. -/
theorem moment_seconds {m : Moment} (naive : m.offset? = none) (whole : m.time.microsecond = 0)
    (later : 2 ≤ m.date.year) : moment (m.seconds * 1000000) = .ok m := by
  obtain ⟨date, time, offset?⟩ := m
  obtain rfl : offset? = none := naive
  obtain ⟨first, last⟩ := date.number_bounds later
  have inDay := time.seconds_lt
  have count : Moment.seconds ⟨date, time, none⟩ =
      (date.number - firstDay) * 86400 + time.seconds := Moment.seconds_eq ⟨date, time, none⟩
  generalize Moment.seconds ⟨date, time, none⟩ = seconds at count
  have day : seconds / 86400 + firstDay = date.number := by omega
  have clock : seconds % 86400 = time.seconds := by omega
  have wide : ¬(seconds < -Int.pow 2 63 ∨ Int.pow 2 63 < seconds) := by
    have value : Int.pow 2 63 = 9223372036854775808 := rfl
    have unix : firstDay = 719162 := rfl
    omega
  have held : ¬((date.number : Int) < Calendar.yearStart (1900 - Int.pow 2 31) ∨
      Calendar.yearStart (1900 + Int.pow 2 31) ≤ date.number) := by
    have least : Calendar.yearStart (1900 - Int.pow 2 31) < 0 := by decide
    have most : 3652059 ≤ Calendar.yearStart (1900 + Int.pow 2 31) := by decide
    omega
  have counted : ¬(date.number : Int) < 1 := by omega
  have micros : seconds * 1000000 / 1000000 = seconds := Int.mul_ediv_cancel seconds (by decide)
  have part : seconds * 1000000 % 1000000 = 0 := Int.mul_emod_left seconds 1000000
  simp only [moment, micros, part, day, clock, if_neg wide, if_neg held, if_neg counted,
    Int.toNat_natCast, Int.toNat_zero, Date.ofNumber?_number, TimeOfDay.ofSeconds_seconds whole]

/-- What is left over the whole seconds is scaled and rounded for itself. -/
theorem microseconds?_of_ratio (negative : Bool) {significand num den part p q : Nat}
    {exponent scale : Int} {sign : Bool} (ratio : Binary64.ratio significand exponent = (num, den))
    (scaled : Binary64.ofRatio false (num % den * 1000000) den = .finite sign part scale)
    (ratio' : Binary64.ratio part scale = (p, q)) :
    microseconds? (.finite negative significand exponent) =
      some (if negative then -(num / den * 1000000 + Binary64.roundDiv p q : Int)
        else num / den * 1000000 + Binary64.roundDiv p q) := by
  rw [microseconds?, ratio]
  -- The pair is taken apart before `ofRatio` is met, which must not be computed.
  change some (if negative = true then _ else _) = _
  rw [scaled]
  simp only [ratio']

theorem microseconds?_tells (negative : Bool) {n significand : Nat} {exponent : Int}
    (tells : Binary64.Tells n significand exponent) :
    microseconds? (.finite negative significand exponent) =
      some (if negative then -(n * 1000000 : Int) else n * 1000000) := by
  obtain ⟨k, ratio⟩ := tells
  have whole : n * 2 ^ k % 2 ^ k * 1000000 = 0 * 2 ^ k := by
    rw [Nat.mul_mod_left, Nat.zero_mul, Nat.zero_mul]
  have quotient : ((n * 2 ^ k : Nat) : Int) / ((2 ^ k : Nat) : Int) = n := by
    rw [← Int.natCast_ediv, Nat.mul_div_cancel n (Nat.two_pow_pos k)]
  obtain ⟨part, scale, scaled, j, ratio'⟩ :=
    Binary64.ofRatio_mul false (n := 0) (by decide) (Nat.two_pow_pos k)
  rw [← whole] at scaled
  rw [microseconds?_of_ratio negative ratio scaled ratio', quotient,
    Binary64.roundDiv_mul 0 (Nat.two_pow_pos j), Int.natCast_zero, Int.add_zero]

/-- Seconds that are less than `2 ^ 52` apart from the start are counted without rounding. -/
theorem ofSeconds_thousandth {count : Int} (near : count.natAbs < 2 ^ 52) :
    ofSeconds (Helper.thousandth (.int (count * 1000))) = moment (count * 1000000) := by
  obtain ⟨significand, exponent, exact, tells⟩ :=
    Binary64.ofRatio_mul (decide (count * 1000 < 0)) near (d := 1000) (by decide)
  have size : (count * 1000).natAbs = count.natAbs * 1000 := Int.natAbs_mul count 1000
  have signed : (if decide (count * 1000 < 0) = true then -(count.natAbs * 1000000 : Int)
      else count.natAbs * 1000000) = count * 1000000 := by
    simp only [decide_eq_true_eq]
    split <;> omega
  simp only [Helper.thousandth, size, exact, ofSeconds, microseconds?_tells _ tells, signed]

end Epoch

namespace Helper

/-- The milliseconds from the start of 1970 to a moment lead back to it. -/
theorem toMoment_seconds {m : Moment} (naive : m.offset? = none) (whole : m.time.microsecond = 0)
    (later : 2 ≤ m.date.year) : toMoment (.int (m.seconds * 1000)) = .ok m := by
  have near : m.seconds.natAbs < 2 ^ 52 := by
    obtain ⟨first, last⟩ := m.date.number_bounds later
    have inDay := m.time.seconds_lt
    have unix : Epoch.firstDay = 719162 := rfl
    rw [Moment.seconds_eq]
    omega
  rw [toMoment, ofMilliseconds, Epoch.ofSeconds_thousandth near,
    Epoch.moment_seconds naive whole later]
  rfl

end Helper

end Stencil
