import Mathlib.Order.SuccPred.Basic
import Mathlib.Algebra.Order.SuccPred
import Mathlib.Data.Int.ConditionallyCompleteOrder
import Mathlib.Data.Int.SuccPred

/-!
# UTC calendar months

Instants are milliseconds since the epoch; days, years and months are those of the
proleptic Gregorian calendar. A month counts from 0.

* `yearFromTime_spec`: the year of an instant is the one whose days it lies among;
* `monthStart_strictMono`: months begin one after another;
* `dateUTC_inj`: the first of a month tells the month;
* `monthIndex_addMonths_iff`: when a day is carried to a later month, and `addMonths_le_addMonths`
  in which order;
* `isLeast_timeOfDay_iff`: the first instant after another at a given time of day.
-/

namespace Utc

def msPerDay : Int := 86400000

def day (t : Int) : Int := t / msPerDay

def leapYear (y : Int) : Prop := y % 4 = 0 ∧ (y % 100 ≠ 0 ∨ y % 400 = 0)

instance (y : Int) : Decidable (leapYear y) := inferInstanceAs (Decidable (_ ∧ _))

/-- The day on which a year begins. -/
def dayFromYear (y : Int) : Int :=
  365 * (y - 1970) + (y - 1969) / 4 - (y - 1901) / 100 + (y - 1601) / 400

/-- A year of mean length is off by one at most. -/
def yearFromTime (t : Int) : Int :=
  let y := 1970 + day t * 400 / 146097
  if day t < dayFromYear y then y - 1
  else if dayFromYear (y + 1) ≤ day t then y + 1
  else y

/-- The day of the year on which a month begins, for the months 0 to 11. -/
def dayFromMonth (leap : Bool) (m : Int) : Int :=
  let extra := if leap ∧ 2 ≤ m then 1 else 0
  extra + match m with
    | 0 => 0 | 1 => 31 | 2 => 59 | 3 => 90 | 4 => 120 | 5 => 151
    | 6 => 181 | 7 => 212 | 8 => 243 | 9 => 273 | 10 => 304 | _ => 334

/-- The last month that begins on the day of the year or before it. -/
def monthFromTime (t : Int) : Int :=
  let y := yearFromTime t
  let days := day t - dayFromYear y
  (([1, 2, 3, 4, 5, 6, 7, 8, 9, 10, 11].filter fun m : Int =>
    dayFromMonth (leapYear y) m ≤ days).length : Nat)

/-- The day on which a month begins, months counted from year 0. -/
def monthStart (n : Int) : Int :=
  dayFromYear (n / 12) + dayFromMonth (leapYear (n / 12)) (n % 12)

/-- `Date.UTC(year, month, 1)`: a month beyond the year is in a later one, and years before
100 are taken for years of the last century. -/
def dateUTC (y m : Int) : Int :=
  monthStart (12 * (if 0 ≤ y ∧ y ≤ 99 then 1900 + y else y) + m) * msPerDay

/-- `Date.UTC(year, month, day, hour, minute, second)`. -/
def dateTimeUTC (y m d h min sec : Int) : Int :=
  dateUTC y m + (d - 1) * msPerDay + h * 3600000 + min * 60000 + sec * 1000

/-- The day of the month, from 1. -/
def dateFromTime (t : Int) : Int :=
  day t - monthStart (12 * yearFromTime t + monthFromTime t) + 1

/-- The milliseconds since midnight. -/
def timeOfDay (t : Int) : Int := t % msPerDay

/-- `setUTCMonth` to `n` months later: the same day of that month, or as many days beyond it. -/
def addMonths (n t : Int) : Int :=
  let month := 12 * yearFromTime t + monthFromTime t
  t + (monthStart (month + n) - monthStart month) * msPerDay

theorem dayFromYear_succ (y : Int) :
    dayFromYear (y + 1) = dayFromYear y + if leapYear y then 366 else 365 := by
  by_cases leap : leapYear y
  · rw [if_pos leap]
    unfold leapYear at leap
    unfold dayFromYear
    omega
  · rw [if_neg leap]
    unfold leapYear at leap
    unfold dayFromYear
    omega

/-- The estimate is not a year late, nor two years early. -/
theorem estimate_spec (d : Int) :
    dayFromYear (1970 + d * 400 / 146097 - 1) ≤ d ∧
    d < dayFromYear (1970 + d * 400 / 146097 + 2) := by
  unfold dayFromYear
  constructor <;> omega

theorem yearFromTime_spec (t : Int) :
    dayFromYear (yearFromTime t) ≤ day t ∧ day t < dayFromYear (yearFromTime t + 1) := by
  obtain ⟨early, late⟩ := estimate_spec (day t)
  unfold yearFromTime
  dsimp only
  split
  · rename_i before
    rw [Int.sub_add_cancel]
    exact ⟨early, before⟩
  · rename_i notBefore
    split
    · rename_i after
      exact ⟨after, by rw [Int.add_assoc _ 1 1]; exact late⟩
    · rename_i notAfter
      exact ⟨Int.not_lt.mp notBefore, Int.not_le.mp notAfter⟩

theorem dayFromYear_strictMono : StrictMono dayFromYear :=
  strictMono_of_lt_succ fun y _ => by
    rw [Order.succ_eq_add_one, dayFromYear_succ]
    split <;> omega

theorem dayFromMonth_lt (leap : Bool) {m : Int} (first : 0 ≤ m) (last : m < 11) :
    dayFromMonth leap m < dayFromMonth leap (m + 1) := by
  obtain rfl | rfl | rfl | rfl | rfl | rfl | rfl | rfl | rfl | rfl | rfl :
      m = 0 ∨ m = 1 ∨ m = 2 ∨ m = 3 ∨ m = 4 ∨ m = 5 ∨ m = 6 ∨ m = 7 ∨ m = 8 ∨ m = 9 ∨ m = 10 := by
    omega
  all_goals cases leap <;> decide

/-- December is followed by the next year. -/
theorem dayFromMonth_last (leap : Bool) : dayFromMonth leap 11 < 365 := by
  cases leap <;> decide

theorem monthStart_lt (n : Int) : monthStart n < monthStart (n + 1) := by
  unfold monthStart
  by_cases last : n % 12 = 11
  · have year : (n + 1) / 12 = n / 12 + 1 := by omega
    have january : (n + 1) % 12 = 0 := by omega
    have december := dayFromMonth_last (leapYear (n / 12))
    have zero (leap : Bool) : dayFromMonth leap 0 = 0 := by cases leap <;> rfl
    rw [year, january, last, zero, dayFromYear_succ]
    split <;> omega
  · have year : (n + 1) / 12 = n / 12 := by omega
    have month : (n + 1) % 12 = n % 12 + 1 := by omega
    rw [year, month]
    exact Int.add_lt_add_left (dayFromMonth_lt _ (by omega) (by omega)) _

theorem monthStart_strictMono : StrictMono monthStart :=
  strictMono_of_lt_succ fun n _ => by
    rw [Order.succ_eq_add_one]
    exact monthStart_lt n

theorem monthFromTime_range (t : Int) : 0 ≤ monthFromTime t ∧ monthFromTime t < 12 := by
  have bound := List.length_filter_le (fun m : Int =>
    dayFromMonth (leapYear (yearFromTime t)) m ≤ day t - dayFromYear (yearFromTime t))
    [1, 2, 3, 4, 5, 6, 7, 8, 9, 10, 11]
  simp only [List.length_cons, List.length_nil] at bound
  unfold monthFromTime
  dsimp only
  omega

theorem dayFromMonth_le (leap : Bool) {m m' : Int} (first : 0 ≤ m) (before : m ≤ m')
    (last : m' ≤ 11) : dayFromMonth leap m ≤ dayFromMonth leap m' := by
  obtain ⟨k, rfl⟩ := Int.le.dest before
  induction k with
  | zero => simp
  | succ k ih =>
    have step := dayFromMonth_lt leap (m := m + k) (by omega) (by omega)
    have earlier := ih (by omega) (by omega)
    push_cast
    rw [← Int.add_assoc]
    omega

/-- A day of the year is in one of its months. -/
theorem exists_month (leap : Bool) (days : Int) (first : 0 ≤ days) :
    ∃ m, 0 ≤ m ∧ m ≤ 11 ∧ dayFromMonth leap m ≤ days ∧
      (m < 11 → days < dayFromMonth leap (m + 1)) := by
  have search (k : Nat) (last : k ≤ 11) : dayFromMonth leap k ≤ days ∨
      ∃ m : Int, 0 ≤ m ∧ m < k ∧ dayFromMonth leap m ≤ days ∧ days < dayFromMonth leap (m + 1) := by
    induction k with
    | zero =>
      left
      have zero : dayFromMonth leap 0 = 0 := by cases leap <;> rfl
      simpa [zero] using first
    | succ k ih =>
      rcases ih (by omega) with begun | ⟨m, found⟩
      · by_cases next : dayFromMonth leap (k + 1) ≤ days
        · exact .inl (by exact_mod_cast next)
        · exact .inr ⟨k, by omega, by omega, begun, by omega⟩
      · exact .inr ⟨m, found.1, by omega, found.2.2⟩
  rcases search 11 (Nat.le_refl 11) with december | ⟨m, found⟩
  · exact ⟨11, by decide, by decide, december, fun later => absurd later (by decide)⟩
  · exact ⟨m, found.1, by omega, found.2.2.1, fun _ => found.2.2.2⟩

/-- The months that have begun are those up to the one the day is in. -/
theorem begun_length (leap : Bool) {m days : Int} (first : 0 ≤ m) (last : m ≤ 11)
    (begun : dayFromMonth leap m ≤ days) (next : m < 11 → days < dayFromMonth leap (m + 1)) :
    (([1, 2, 3, 4, 5, 6, 7, 8, 9, 10, 11].filter fun i : Int =>
      dayFromMonth leap i ≤ days).length : Int) = m := by
  have upTo (i : Int) (mem : i ∈ [1, 2, 3, 4, 5, 6, 7, 8, 9, 10, (11 : Int)]) :
      decide (dayFromMonth leap i ≤ days) = decide (i ≤ m) := by
    have range : 1 ≤ i ∧ i ≤ 11 := by
      simp only [List.mem_cons, List.not_mem_nil, or_false] at mem
      omega
    refine decide_eq_decide.mpr ⟨fun early => ?_, fun early => ?_⟩
    · by_contra late
      have later : dayFromMonth leap (m + 1) ≤ dayFromMonth leap i :=
        dayFromMonth_le leap (by omega) (by omega) range.2
      have := next (by omega)
      omega
    · exact (dayFromMonth_le leap (by omega) early last).trans begun
  rw [List.filter_congr upTo]
  obtain rfl | rfl | rfl | rfl | rfl | rfl | rfl | rfl | rfl | rfl | rfl | rfl : m = 0 ∨ m = 1 ∨
      m = 2 ∨ m = 3 ∨ m = 4 ∨ m = 5 ∨ m = 6 ∨ m = 7 ∨ m = 8 ∨ m = 9 ∨ m = 10 ∨ m = 11 := by
    omega
  all_goals decide

/-- The month of an instant, counted from year 0. -/
def monthIndex (t : Int) : Int := 12 * yearFromTime t + monthFromTime t

def daysInMonth (n : Int) : Int := monthStart (n + 1) - monthStart n

/-- The day of an instant is one of its month's. -/
theorem monthIndex_spec (t : Int) :
    monthStart (monthIndex t) ≤ day t ∧ day t < monthStart (monthIndex t + 1) := by
  have year := yearFromTime_spec t
  obtain ⟨m, first, last, begun, next⟩ := exists_month (leapYear (yearFromTime t))
    (day t - dayFromYear (yearFromTime t)) (by omega)
  have month : monthFromTime t = m := begun_length _ first last begun next
  have years : (12 * yearFromTime t + m) / 12 = yearFromTime t := by omega
  have months : (12 * yearFromTime t + m) % 12 = m := by omega
  unfold monthIndex
  rw [month]
  refine ⟨?_, ?_⟩
  · rw [monthStart, years, months]
    omega
  · by_cases december : m = 11
    · have following : 12 * yearFromTime t + m + 1 = 12 * (yearFromTime t + 1) := by omega
      have zero (leap : Bool) : dayFromMonth leap 0 = 0 := by cases leap <;> rfl
      rw [following, monthStart, Int.mul_ediv_cancel_left _ (by decide), Int.mul_emod_right, zero]
      omega
    · have years' : (12 * yearFromTime t + m + 1) / 12 = yearFromTime t := by omega
      have months' : (12 * yearFromTime t + m + 1) % 12 = m + 1 := by omega
      rw [monthStart, years', months']
      have := next (by omega)
      omega

theorem monthIndex_eq_iff (t n : Int) :
    monthIndex t = n ↔ monthStart n ≤ day t ∧ day t < monthStart (n + 1) := by
  refine ⟨fun same => same ▸ monthIndex_spec t, fun ⟨from_, before⟩ => ?_⟩
  have spec := monthIndex_spec t
  have notLater := monthStart_strictMono.lt_iff_lt.mp (from_.trans_lt spec.2)
  have notEarlier := monthStart_strictMono.lt_iff_lt.mp (spec.1.trans_lt before)
  omega

theorem daysInMonth_le (n : Int) : daysInMonth n ≤ 31 := by
  unfold daysInMonth monthStart
  have zero (leap : Bool) : dayFromMonth leap 0 = 0 := by cases leap <;> rfl
  by_cases december : n % 12 = 11
  · have year : (n + 1) / 12 = n / 12 + 1 := by omega
    have january : (n + 1) % 12 = 0 := by omega
    have last : 334 ≤ dayFromMonth (leapYear (n / 12)) 11 := by
      cases decide (leapYear (n / 12)) <;> decide
    by_cases leap : leapYear (n / 12)
    · have whole : dayFromMonth (leapYear (n / 12)) 11 = 335 := by rw [decide_eq_true leap]; rfl
      rw [year, january, december, zero, dayFromYear_succ, if_pos leap, whole]
      omega
    · rw [year, january, december, zero, dayFromYear_succ, if_neg leap]
      omega
  · have year : (n + 1) / 12 = n / 12 := by omega
    have month : (n + 1) % 12 = n % 12 + 1 := by omega
    have length (leap : Bool) :
        dayFromMonth leap (n % 12 + 1) ≤ dayFromMonth leap (n % 12) + 31 := by
      obtain same | same | same | same | same | same | same | same | same | same | same :
          n % 12 = 0 ∨ n % 12 = 1 ∨ n % 12 = 2 ∨ n % 12 = 3 ∨ n % 12 = 4 ∨ n % 12 = 5 ∨
          n % 12 = 6 ∨ n % 12 = 7 ∨ n % 12 = 8 ∨ n % 12 = 9 ∨ n % 12 = 10 := by
        omega
      all_goals rw [same]; cases leap <;> decide
    have := length (leapYear (n / 12))
    rw [year, month]
    omega

/-- A year after the first of a month is at most 366 days after it. -/
theorem monthStart_year (n : Int) : monthStart (n + 12) ≤ monthStart n + 366 := by
  have year : (n + 12) / 12 = n / 12 + 1 := by omega
  have month : (n + 12) % 12 = n % 12 := by omega
  have extra (leap : Bool) : dayFromMonth false (n % 12) ≤ dayFromMonth leap (n % 12) ∧
      dayFromMonth leap (n % 12) ≤ dayFromMonth false (n % 12) + 1 := by
    unfold dayFromMonth
    cases leap <;> split <;> simp <;> split <;> omega
  have this_ := extra (leapYear (n / 12))
  have next := extra (leapYear (n / 12 + 1))
  unfold monthStart
  rw [year, month, dayFromYear_succ]
  by_cases leap : leapYear (n / 12)
  · have common : ¬ leapYear (n / 12 + 1) := by
      unfold leapYear at leap ⊢
      omega
    rw [if_pos leap, decide_eq_false common]
    omega
  · rw [if_neg leap]
    omega

theorem dateFromTime_range (t : Int) :
    1 ≤ dateFromTime t ∧ dateFromTime t ≤ daysInMonth (monthIndex t) := by
  have spec := monthIndex_spec t
  change 1 ≤ day t - monthStart (monthIndex t) + 1 ∧
    day t - monthStart (monthIndex t) + 1 ≤
      monthStart (monthIndex t + 1) - monthStart (monthIndex t)
  omega

/-! ## Months later -/

theorem day_addMonths (n t : Int) : day (addMonths n t) =
    monthStart (monthIndex t + n) + (dateFromTime t - 1) := by
  change (t + (monthStart (monthIndex t + n) - monthStart (monthIndex t)) * msPerDay) / msPerDay =
    monthStart (monthIndex t + n) + (t / msPerDay - monthStart (monthIndex t) + 1 - 1)
  rw [Int.add_mul_ediv_right _ _ (by decide)]
  omega

/-- The month is the one so many later when it has the day. -/
theorem monthIndex_addMonths_iff (n t : Int) :
    monthIndex (addMonths n t) = monthIndex t + n ↔
      dateFromTime t ≤ daysInMonth (monthIndex t + n) := by
  have range := dateFromTime_range t
  rw [monthIndex_eq_iff, day_addMonths, daysInMonth]
  omega

theorem dateFromTime_addMonths {n t : Int}
    (fits : dateFromTime t ≤ daysInMonth (monthIndex t + n)) :
    dateFromTime (addMonths n t) = dateFromTime t := by
  have month := (monthIndex_addMonths_iff n t).mpr fits
  change day (addMonths n t) - monthStart (monthIndex (addMonths n t)) + 1 = dateFromTime t
  rw [month, day_addMonths]
  omega

theorem lt_of_monthIndex_lt {t u : Int} (earlier : monthIndex t < monthIndex u) : t < u := by
  have ends := (monthIndex_spec t).2
  have begins := (monthIndex_spec u).1
  have between := monthStart_strictMono.monotone (Int.add_one_le_iff.mpr earlier)
  unfold day msPerDay at ends begins
  omega

theorem monthIndex_mono : Monotone monthIndex := by
  rintro t u before
  by_contra later
  have := lt_of_monthIndex_lt (Int.not_le.mp later)
  omega

/-- The first of the month is reached at least. -/
theorem monthStart_le_addMonths (n t : Int) :
    monthStart (monthIndex t + n) * msPerDay ≤ addMonths n t := by
  have begins := (monthIndex_spec t).1
  change _ ≤ t + (monthStart (monthIndex t + n) - monthStart (monthIndex t)) * msPerDay
  unfold day msPerDay at *
  omega

/-- From a day that the later month has, nothing that starts later ends earlier. -/
theorem addMonths_le_addMonths {n t u : Int}
    (fits : dateFromTime t ≤ daysInMonth (monthIndex t + n))
    (before : t ≤ u) : addMonths n t ≤ addMonths n u := by
  rcases (monthIndex_mono before).lt_or_eq with earlier | same
  · have month := (monthIndex_addMonths_iff n t).mpr fits
    have ends := (monthIndex_spec (addMonths n t)).2
    rw [month] at ends
    have next : monthStart (monthIndex t + n + 1) ≤ monthStart (monthIndex u + n) :=
      monthStart_strictMono.monotone (by omega)
    have reached := monthStart_le_addMonths n u
    unfold day msPerDay at *
    omega
  · change t + (monthStart (monthIndex t + n) - monthStart (monthIndex t)) * msPerDay ≤
      u + (monthStart (monthIndex u + n) - monthStart (monthIndex u)) * msPerDay
    rw [same]
    omega

/-! ## Time values -/

/-- The last instant of a `Date`. -/
def maxTime : Int := 8640000000000000

/-- `TimeClip`: beyond it there is no date. -/
def timeClip (t : Int) : Option Int := if -maxTime ≤ t ∧ t ≤ maxTime then some t else none

theorem timeClip_eq_some {t u : Int} :
    timeClip t = some u ↔ t = u ∧ -maxTime ≤ u ∧ u ≤ maxTime := by
  unfold timeClip
  split_ifs with range <;> grind

/-- Instants since the epoch lie in years since 1970. -/
theorem yearFromTime_epoch {t : Int} (epoch : 0 ≤ t) : 1970 ≤ yearFromTime t := by
  by_contra early
  have first : dayFromYear (yearFromTime t + 1) ≤ dayFromYear 1970 :=
    dayFromYear_strictMono.monotone (by omega)
  have spec := (yearFromTime_spec t).2
  have zero : dayFromYear 1970 = 0 := by decide
  have positive : 0 ≤ day t := Int.ediv_nonneg epoch (by decide)
  omega

theorem dateUTC_eq {y : Int} (modern : 100 ≤ y) (m : Int) :
    dateUTC y m = monthStart (12 * y + m) * msPerDay := by
  rw [dateUTC, if_neg (by omega)]

/-- The first of a month, in a year from 100 on, tells the month and the year. -/
theorem dateUTC_inj {y y' m m' : Int} (modern : 100 ≤ y) (modern' : 100 ≤ y')
    (month : 0 ≤ m ∧ m < 12) (month' : 0 ≤ m' ∧ m' < 12) :
    dateUTC y m = dateUTC y' m' ↔ y = y' ∧ m = m' := by
  refine ⟨fun same => ?_, fun ⟨hy, hm⟩ => by rw [hy, hm]⟩
  rw [dateUTC_eq modern, dateUTC_eq modern'] at same
  have start := Int.eq_of_mul_eq_mul_right (by decide) same
  have index := monthStart_strictMono.injective start
  omega

/-- The first instant after `t` at a time of day comes within a day. -/
theorem isLeast_timeOfDay_iff {t u time offset : Int} (range : 0 ≤ time ∧ time < msPerDay) :
    IsLeast {u | t < u ∧ timeOfDay (u + offset) = time} u ↔
      t < u ∧ u ≤ t + msPerDay ∧ timeOfDay (u + offset) = time := by
  unfold timeOfDay
  unfold msPerDay at *
  constructor
  · rintro ⟨⟨after, at_time⟩, least⟩
    refine ⟨after, ?_, at_time⟩
    by_contra late
    have := least (a := u - 86400000) ⟨by omega, by omega⟩
    omega
  · rintro ⟨after, soon, at_time⟩
    refine ⟨⟨after, at_time⟩, ?_⟩
    rintro u' ⟨after', at_time'⟩
    omega

/-- The last day of a leap February, and the millisecond after it. -/
example : (yearFromTime 1709251199999, monthFromTime 1709251199999) = (2024, 1) ∧
    (yearFromTime 1709251200000, monthFromTime 1709251200000) = (2024, 2) ∧
    dateUTC 2024 2 = 1709251200000 ∧ dateUTC 2023 12 = dateUTC 2024 0 := by decide

end Utc
