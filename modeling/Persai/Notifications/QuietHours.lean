import Persai.Utc
import Persai.Notifications.Worker

/-!
# Quiet hours

`computeQuietHoursDeferral` and its local-time conversions. A zone is known by its UTC offset, in
milliseconds. How the `en-US` formatter with `hour12: false` writes the first hour of a day is left
open (`HourCycle`): as 24, or as 00.

* `isInsideQuietWindow_iff`, `nextWindowEnd_eq_some`: what the two conversions come to;
* `quiet_hours_iff`: when a deferral is what the window asks for.
-/

namespace Persai.Notifications

open Utc

/-! ## The formatter -/

/-- The hours of a day are written from 0 to 23, or the first one as 24. -/
inductive HourCycle
  | h23 | h24
  deriving DecidableEq, Repr

/-- The numeric parts of an instant. -/
structure DateTimeParts where
  year : Int
  month : Int
  day : Int
  hour : Nat
  minute : Nat
  second : Nat

/-- The first hour of the day, where it is written as 24. -/
def ReadsAs24 (cycle : HourCycle) (t : Int) : Prop := cycle = .h24 ∧ timeOfDay t < 3600000

instance (cycle : HourCycle) (t : Int) : Decidable (ReadsAs24 cycle t) :=
  inferInstanceAs (Decidable (_ ∧ _))

/-- Years before the first are counted backwards, and the era is not among the parts. -/
def formatToParts (cycle : HourCycle) (offset date : Int) : DateTimeParts :=
  let t := date + offset
  { year := if 0 < yearFromTime t then yearFromTime t else 1 - yearFromTime t
    month := monthFromTime t + 1
    day := dateFromTime t
    hour := if ReadsAs24 cycle t then 24 else (timeOfDay t / 3600000).toNat
    minute := (timeOfDay t / 60000 % 60).toNat
    second := (timeOfDay t / 1000 % 60).toNat }

/-- `2-digit`. -/
def twoDigits (n : Nat) : List Char :=
  if n < 10 then '0' :: Nat.toDigits 10 n else Nat.toDigits 10 n

/-- `Number` of a run of digits. -/
def number (digits : List Char) : Nat :=
  digits.foldl (fun n c => 10 * n + (c.toNat - '0'.toNat)) 0

/-- A time of day that is given as `HH:MM`. -/
structure HHMM where
  hour : Fin 24
  minute : Fin 60
  deriving DecidableEq, Repr

def HHMM.text (time : HHMM) : String :=
  String.ofList (twoDigits time.hour ++ ':' :: twoDigits time.minute)

/-! ## The routing service -/

inductive TimezoneMode
  | workspaceDefault | perUserResolved
  deriving DecidableEq, Repr

/-- The settings are texts; those of a window are times of day here. -/
structure QuietHours where
  enabled : Bool
  startLocal : HHMM
  endLocal : HHMM
  timezoneMode : TimezoneMode
  defaultTimezone : Option String
  appliesToSources : List String

structure IntentTiming where
  priority : Priority
  respectQuietHours : Bool

/-- The first two numbers of `hhmm.split(":")`, 0 where there are fewer. -/
def splitHHMM (hhmm : String) : Nat × Nat :=
  match (hhmm.toList.splitOn ':').map number with
  | [] => (0, 0)
  | [h] => (h, 0)
  | h :: m :: _ => (h, m)

def parseHHMM (hhmm : String) : Nat :=
  let (h, m) := splitHHMM hhmm
  h * 60 + m

def getLocalHHMM (cycle : HourCycle) (date offset : Int) : String :=
  let parts := formatToParts cycle offset date
  String.ofList (twoDigits parts.hour ++ ':' :: twoDigits parts.minute)

def resolveTimezone (quietHours : QuietHours) : String :=
  if quietHours.timezoneMode = .workspaceDefault then
    (given quietHours.defaultTimezone).getD "UTC"
  else "UTC"

section

-- the offset of a zone, `none` for a name that the formatter does not take
variable (cycle : HourCycle) (zones : String → Option Int)

def isInsideQuietWindow (now : Int) (startLocal endLocal tz : String) : Bool :=
  match zones tz with
  | none => false
  | some offset =>
    let localTime := getLocalHHMM cycle now offset
    let start := parseHHMM startLocal
    let stop := parseHHMM endLocal
    let current := parseHHMM localTime
    if start ≤ stop then start ≤ current && current < stop
    else start ≤ current || current < stop

/-- A date that is not valid is `none`, and so is all that is computed with it. -/
def nextWindowEnd (now : Int) (endLocal tz : String) : Option Int :=
  match zones tz with
  | none => timeClip (now + 8 * 60 * 60 * 1000)
  | some offset => do
    let parts := formatToParts cycle offset now
    let localAsUtcMs ← timeClip (dateTimeUTC parts.year (parts.month - 1) parts.day parts.hour
      parts.minute parts.second)
    let tzOffsetMs := localAsUtcMs - now
    let (endH, endM) := splitHHMM endLocal
    let endAsUtc ← timeClip (dateTimeUTC parts.year (parts.month - 1) parts.day endH endM 0)
    let deferUntil ← timeClip (endAsUtc - tzOffsetMs)
    if deferUntil ≤ now then timeClip (deferUntil + 24 * 60 * 60 * 1000) else some deferUntil

/-- What `computeQuietHoursDeferral` asks of an intent before it looks at the clock. -/
def deferrable (intent : IntentTiming) (quietHours : QuietHours) (source : String) : Bool :=
  intent.priority != .immediate && intent.respectQuietHours && quietHours.enabled &&
    quietHours.appliesToSources.contains source

def computeQuietHoursDeferral (intent : IntentTiming) (quietHours : Option QuietHours)
    (source : String) (now : Int) : Option (Option Int) :=
  match quietHours with
  | none => none
  | some quietHours =>
    if !deferrable intent quietHours source then none
    else
      let tz := resolveTimezone quietHours
      if !isInsideQuietWindow cycle zones now quietHours.startLocal.text quietHours.endLocal.text tz
      then none
      else some (nextWindowEnd cycle zones now quietHours.endLocal.text tz)

end

/-! ## Windows -/

namespace HHMM

def minutes (time : HHMM) : Nat := time.hour * 60 + time.minute

/-- The milliseconds since midnight. -/
def ms (time : HHMM) : Int := time.minutes * 60000

end HHMM

/-- A time of day lies in a window, which wraps past midnight if it ends before it starts. -/
def InWindow (start stop : HHMM) (time : Int) : Prop :=
  if start.ms ≤ stop.ms then start.ms ≤ time ∧ time < stop.ms
  else start.ms ≤ time ∨ time < stop.ms

instance (start stop : HHMM) : DecidablePred (InWindow start stop) := fun _ => by
  unfold InWindow
  infer_instance

/-- What is computed is null outside of the window, and the next end of the window in it. -/
def DefersRight (offset now : Int) (start stop : HHMM) (computed : Option (Option Int)) : Prop :=
  if InWindow start stop (timeOfDay (now + offset)) then
    ∃ date, computed = some (some date) ∧
      IsLeast {t | now < t ∧ timeOfDay (t + offset) = stop.ms} date
  else computed = none

/-- The milliseconds since midnight that the formatter writes, whole seconds of them. -/
def clockMs (cycle : HourCycle) (t : Int) : Int :=
  timeOfDay t / 1000 * 1000 + if ReadsAs24 cycle t then 86400000 else 0

/-- The deferral goes the way from the clock to the end, and a day more where the end has passed;
where the clock is a day ahead, the end has always passed. -/
def waitingDays (cycle : HourCycle) (stop : HHMM) (t : Int) : Int :=
  if ReadsAs24 cycle t ∨ timeOfDay t / 1000 * 1000 < stop.ms then 0 else 1

def deferral (cycle : HourCycle) (offset now : Int) (stop : HHMM) : Int :=
  now + stop.ms - timeOfDay (now + offset) / 1000 * 1000 +
    waitingDays cycle stop (now + offset) * 86400000

/-- The clock and the end of the window on its date, both read as UTC, are dates, and so are the
instant of that end and the one a day later where it has passed. -/
def DatesValid (cycle : HourCycle) (offset now : Int) (stop : HHMM) : Prop :=
  let parts := formatToParts cycle offset now
  let midnight := dateTimeUTC parts.year (parts.month - 1) parts.day 0 0 0
  let clock := clockMs cycle (now + offset)
  (timeClip (midnight + clock)).isSome ∧ (timeClip (midnight + stop.ms)).isSome ∧
    (timeClip (now + stop.ms - clock)).isSome ∧ (timeClip (deferral cycle offset now stop)).isSome

instance (cycle : HourCycle) (offset now : Int) (stop : HHMM) :
    Decidable (DatesValid cycle offset now stop) :=
  inferInstanceAs (Decidable (_ ∧ _ ∧ _ ∧ _))

/-! ## The texts -/

theorem number_twoDigits {n : Nat} (two : n < 100) : number (twoDigits n) = n := by
  have all : ∀ n : Fin 100, number (twoDigits n) = n.1 := by decide +kernel
  exact all ⟨n, two⟩

theorem colon_notMem_twoDigits {n : Nat} (two : n < 100) : ':' ∉ twoDigits n := by
  have all : ∀ n : Fin 100, ':' ∉ twoDigits n := by decide +kernel
  exact all ⟨n, two⟩

theorem splitHHMM_twoDigits {h m : Nat} (hour : h < 100) (minute : m < 100) :
    splitHHMM (String.ofList (twoDigits h ++ ':' :: twoDigits m)) = (h, m) := by
  rw [splitHHMM, String.toList_ofList,
    List.splitOn_append_cons_self_of_not_mem (colon_notMem_twoDigits hour),
    List.splitOn_eq_singleton (colon_notMem_twoDigits minute)]
  simp [number_twoDigits hour, number_twoDigits minute]

theorem splitHHMM_text (time : HHMM) : splitHHMM time.text = (time.hour.1, time.minute.1) :=
  splitHHMM_twoDigits (by omega) (by omega)

theorem parseHHMM_text (time : HHMM) : parseHHMM time.text = time.minutes := by
  rw [parseHHMM, splitHHMM_text]
  rfl

/-- The clock as the formatter writes it, in minutes since midnight. -/
def clockMinutes (cycle : HourCycle) (t : Int) : Nat :=
  (timeOfDay t / 60000).toNat + if ReadsAs24 cycle t then 1440 else 0

theorem timeOfDay_range (t : Int) : 0 ≤ timeOfDay t ∧ timeOfDay t < 86400000 := by
  unfold timeOfDay msPerDay
  omega

theorem parseHHMM_getLocalHHMM (cycle : HourCycle) (date offset : Int) :
    parseHHMM (getLocalHHMM cycle date offset) = clockMinutes cycle (date + offset) := by
  have range := timeOfDay_range (date + offset)
  have hour : (formatToParts cycle offset date).hour < 100 := by
    unfold formatToParts
    dsimp only
    split <;> omega
  have minute : (formatToParts cycle offset date).minute < 100 := by
    unfold formatToParts
    dsimp only
    omega
  rw [parseHHMM, getLocalHHMM, splitHHMM_twoDigits hour minute]
  simp only [formatToParts, clockMinutes]
  split
  next reads =>
    have first := reads.2
    omega
  next => omega

/-! ## The deferral -/

variable {cycle : HourCycle} {zones : String → Option Int} {tz : String} {offset now : Int}
  {start stop : HHMM}

theorem isInsideQuietWindow_eq (zone : zones tz = some offset) :
    isInsideQuietWindow cycle zones now start.text stop.text tz =
      if start.minutes ≤ stop.minutes then
        start.minutes ≤ clockMinutes cycle (now + offset) &&
          clockMinutes cycle (now + offset) < stop.minutes
      else
        start.minutes ≤ clockMinutes cycle (now + offset) ||
          clockMinutes cycle (now + offset) < stop.minutes := by
  simp only [isInsideQuietWindow, zone, parseHHMM_text, parseHHMM_getLocalHHMM]

theorem ms_range (time : HHMM) : 0 ≤ time.ms ∧ time.ms ≤ 86340000 := by
  have hour := time.hour.2
  have minute := time.minute.2
  unfold HHMM.ms HHMM.minutes
  omega

/-- The code's window is the window, unless the clock reads 24. -/
theorem isInsideQuietWindow_iff (cycle : HourCycle) (now : Int) (start stop : HHMM)
    (zone : zones tz = some offset) :
    isInsideQuietWindow cycle zones now start.text stop.text tz ↔
      if ReadsAs24 cycle (now + offset) then stop.ms < start.ms
      else InWindow start stop (timeOfDay (now + offset)) := by
  have range := timeOfDay_range (now + offset)
  have hour := stop.hour.2
  have minute := stop.minute.2
  rw [isInsideQuietWindow_eq zone]
  unfold InWindow clockMinutes HHMM.ms
  split
  next unwrapped =>
    rw [if_pos (by omega : (start.minutes : Int) * 60000 ≤ stop.minutes * 60000)]
    simp only [Bool.and_eq_true, decide_eq_true_eq]
    unfold HHMM.minutes at *
    split <;> omega
  next wrapped =>
    rw [if_neg (by omega : ¬ (start.minutes : Int) * 60000 ≤ stop.minutes * 60000)]
    simp only [Bool.or_eq_true, decide_eq_true_eq]
    unfold HHMM.minutes at *
    split <;> omega

theorem dateTimeUTC_midnight (y m d h min sec : Int) :
    dateTimeUTC y m d h min sec =
      dateTimeUTC y m d 0 0 0 + (h * 3600000 + min * 60000 + sec * 1000) := by
  unfold dateTimeUTC
  omega

theorem formatToParts_clock (cycle : HourCycle) (offset now : Int) :
    ((formatToParts cycle offset now).hour : Int) * 3600000 +
      (formatToParts cycle offset now).minute * 60000 +
      (formatToParts cycle offset now).second * 1000 = clockMs cycle (now + offset) := by
  have range := timeOfDay_range (now + offset)
  simp only [formatToParts, clockMs]
  split
  next reads =>
    have first := reads.2
    omega
  next => omega

/-- The way from the clock to the end of the window, and a day more where it leads back. -/
theorem deferral_eq (cycle : HourCycle) (offset now : Int) (stop : HHMM) :
    deferral cycle offset now stop =
      if now + stop.ms - clockMs cycle (now + offset) ≤ now then
        now + stop.ms - clockMs cycle (now + offset) + 24 * 60 * 60 * 1000
      else now + stop.ms - clockMs cycle (now + offset) := by
  have range := timeOfDay_range (now + offset)
  have stopRange := ms_range stop
  unfold deferral waitingDays clockMs
  by_cases reads : ReadsAs24 cycle (now + offset)
  · have first := reads.2
    rw [if_pos (.inl reads), if_pos reads, if_pos (by omega)]
    omega
  · simp only [reads, if_false, false_or]
    split <;> split <;> omega

/-- The date itself does not count, as long as it is one. -/
theorem nextWindowEnd_eq_some (zone : zones tz = some offset) {date : Int} :
    nextWindowEnd cycle zones now stop.text tz = some date ↔
      DatesValid cycle offset now stop ∧ deferral cycle offset now stop = date := by
  have endOfWindow : ((stop.hour : Nat) : Int) * 3600000 + (stop.minute : Nat) * 60000 + 0 * 1000 =
      stop.ms := by
    unfold HHMM.ms HHMM.minutes
    omega
  have last {way : Int} (same : now + stop.ms - clockMs cycle (now + offset) = way)
      (valid : timeClip way = some way) :
      (if way ≤ now then timeClip (way + 24 * 60 * 60 * 1000) else some way) =
        timeClip (deferral cycle offset now stop) := by
    rw [deferral_eq, same]
    split
    · rfl
    · exact valid.symm
  rw [nextWindowEnd, zone, splitHHMM_text]
  unfold DatesValid
  dsimp only
  rw [dateTimeUTC_midnight _ _ _ (formatToParts cycle offset now).hour, formatToParts_clock,
    dateTimeUTC_midnight _ _ _ ((stop.hour : Nat) : Int), endOfWindow]
  generalize dateTimeUTC _ _ _ 0 0 0 = midnight
  have distance : midnight + stop.ms - (midnight + clockMs cycle (now + offset) - now) =
      now + stop.ms - clockMs cycle (now + offset) := by
    omega
  simp only [Option.bind_eq_bind, Option.bind_eq_some_iff, Option.isSome_iff_exists]
  constructor
  · rintro ⟨_, clock, _, windowEnd, way, back, deferred⟩
    obtain ⟨rfl, -⟩ := timeClip_eq_some.mp clock
    obtain ⟨rfl, -⟩ := timeClip_eq_some.mp windowEnd
    obtain ⟨rfl, -⟩ := timeClip_eq_some.mp back
    rw [distance] at back deferred
    rw [last rfl back] at deferred
    exact ⟨⟨⟨_, clock⟩, ⟨_, windowEnd⟩, ⟨_, back⟩, ⟨_, deferred⟩⟩,
      (timeClip_eq_some.mp deferred).1⟩
  · rintro ⟨⟨⟨_, clock⟩, ⟨_, windowEnd⟩, ⟨_, back⟩, ⟨_, deferred⟩⟩, rfl⟩
    obtain ⟨rfl, -⟩ := timeClip_eq_some.mp clock
    obtain ⟨rfl, -⟩ := timeClip_eq_some.mp windowEnd
    obtain ⟨rfl, -⟩ := timeClip_eq_some.mp back
    obtain ⟨rfl, -⟩ := timeClip_eq_some.mp deferred
    exact ⟨_, clock, _, windowEnd, _, (congrArg timeClip distance).trans back,
      (last rfl back).trans deferred⟩

/-- The date that the way from the clock to the end leads to: the fraction of the second stays. -/
theorem timeOfDay_deferral (cycle : HourCycle) (offset now : Int) (stop : HHMM) :
    timeOfDay (deferral cycle offset now stop + offset) = stop.ms + (now + offset) % 1000 := by
  have range := ms_range stop
  unfold deferral timeOfDay msPerDay
  omega

/-- What the code computes in its window is the next end of the window, or not. -/
theorem nextWindowEnd_iff (zone : zones tz = some offset)
    (inside : InWindow start stop (timeOfDay (now + offset))) :
    (∃ date, nextWindowEnd cycle zones now stop.text tz = some date ∧
      IsLeast {t | now < t ∧ timeOfDay (t + offset) = stop.ms} date) ↔
      (now + offset) % 1000 = 0 ∧ DatesValid cycle offset now stop ∧
        (ReadsAs24 cycle (now + offset) → timeOfDay (now + offset) < stop.ms) := by
  have range := timeOfDay_range (now + offset)
  have stopRange := ms_range stop
  have whole : timeOfDay (now + offset) % 1000 = (now + offset) % 1000 := by
    unfold timeOfDay msPerDay
    omega
  simp only [nextWindowEnd_eq_some zone]
  by_cases valid : DatesValid cycle offset now stop
  · simp only [valid, true_and, exists_eq_left']
    rw [isLeast_timeOfDay_iff ⟨stopRange.1, by unfold msPerDay; omega⟩, timeOfDay_deferral]
    unfold deferral waitingDays msPerDay
    unfold InWindow at inside
    by_cases reads : ReadsAs24 cycle (now + offset)
    · have first := reads.2
      simp only [reads, true_or, if_true, true_imp_iff]
      split at inside <;> omega
    · simp only [reads, false_or, false_imp_iff, and_true]
      split <;> split at inside <;> omega
  · simp [valid]

/-- When a deferral is what the window asks for. -/
theorem quiet_hours_iff {intent : IntentTiming} {quietHours : QuietHours} {source : String}
    (defers : deferrable intent quietHours source)
    (zone : zones (resolveTimezone quietHours) = some offset) :
    DefersRight offset now quietHours.startLocal quietHours.endLocal
        (computeQuietHoursDeferral cycle zones intent (some quietHours) source now) ↔
      (InWindow quietHours.startLocal quietHours.endLocal (timeOfDay (now + offset)) →
        (now + offset) % 1000 = 0 ∧ DatesValid cycle offset now quietHours.endLocal) ∧
      (ReadsAs24 cycle (now + offset) →
        if quietHours.startLocal.ms ≤ quietHours.endLocal.ms then
          ¬ InWindow quietHours.startLocal quietHours.endLocal (timeOfDay (now + offset))
        else timeOfDay (now + offset) < quietHours.endLocal.ms) := by
  have code := isInsideQuietWindow_iff cycle now quietHours.startLocal quietHours.endLocal zone
  simp only [computeQuietHoursDeferral, defers, DefersRight, Bool.not_true, Bool.false_eq_true,
    if_false]
  generalize quietHours.startLocal = start at code ⊢
  generalize quietHours.endLocal = stop at code ⊢
  by_cases reads : ReadsAs24 cycle (now + offset)
  · simp only [reads, if_true, true_imp_iff] at code ⊢
    by_cases wraps : stop.ms < start.ms
    · rw [if_neg (by omega : ¬ start.ms ≤ stop.ms)]
      simp only [code.mpr wraps, Bool.not_true, Bool.false_eq_true, if_false]
      split
      next inside => simp [nextWindowEnd_iff zone inside, inside, reads, and_assoc]
      next outside =>
        rw [InWindow, if_neg (by omega), not_or] at outside
        simp [outside.2]
    · rw [if_pos (by omega : start.ms ≤ stop.ms)]
      simp only [Bool.eq_false_iff.mpr (mt code.mp wraps), Bool.not_false, if_true]
      split
      next inside => simp [inside]
      next outside => simp [outside]
  · simp only [reads, if_false, false_imp_iff, and_true] at code ⊢
    by_cases inside : InWindow start stop (timeOfDay (now + offset))
    · simp [code.mpr inside, nextWindowEnd_iff zone inside, inside, reads]
    · simp [Bool.eq_false_iff.mpr (mt code.mp inside), inside]

/-- From 22:00 to 08:00, in the zone `UTC`. -/
def nightHours : QuietHours :=
  ⟨true, ⟨22, 0⟩, ⟨8, 0⟩, .workspaceDefault, some "UTC", ["reminder"]⟩

def utcZones (tz : String) : Option Int := if tz = "UTC" then some 0 else none

/-- At 23:00. -/
theorem quiet_hours_evening :
    DefersRight 0 1750028400000 nightHours.startLocal nightHours.endLocal
      (computeQuietHoursDeferral .h24 utcZones ⟨.skippable, true⟩ (some nightHours) "reminder"
        1750028400000) :=
  (quiet_hours_iff (by decide +kernel) (by decide +kernel)).mpr (by decide +kernel)

/-- Half a second after 23:00 the deferral is half a second late, however the first hour of a day
is written. -/
theorem half_second_late :
    ¬ DefersRight 0 1750028400500 nightHours.startLocal nightHours.endLocal
        (computeQuietHoursDeferral .h23 utcZones ⟨.skippable, true⟩ (some nightHours) "reminder"
          1750028400500) ∧
      ¬ DefersRight 0 1750028400500 nightHours.startLocal nightHours.endLocal
        (computeQuietHoursDeferral .h24 utcZones ⟨.skippable, true⟩ (some nightHours) "reminder"
          1750028400500) := by
  have computed (cycle : HourCycle) : computeQuietHoursDeferral cycle utcZones ⟨.skippable, true⟩
      (some nightHours) "reminder" 1750028400500 = some (some 1750060800500) := by
    cases cycle <;> decide +kernel
  have late : ¬ DefersRight 0 1750028400500 nightHours.startLocal nightHours.endLocal
      (some (some 1750060800500)) := by
    rw [DefersRight, if_pos (by decide +kernel)]
    rintro ⟨date, same, ⟨-, atEnd⟩, -⟩
    obtain rfl := Option.some.inj (Option.some.inj same)
    exact absurd atEnd (by decide +kernel)
  rw [computed, computed]
  exact ⟨late, late⟩

end Persai.Notifications
