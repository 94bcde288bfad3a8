import Persai.Billing.Webhook

/-!
# The end of a billing period

`addBillingPeriod` moves the month of a `Date` and writes the instant out again. The setter takes
a day that the later month does not have for as many days of the month after it.

* `endsInNextPeriod_iff`: the starts whose period ends in the period that follows.
-/

namespace Persai.Billing

open Utc

def BillingPeriod.months : BillingPeriod → Int
  | .month => 1
  | .year => 12

/-- The most days that a period has. -/
def BillingPeriod.mostDays : BillingPeriod → Int
  | .month => 31
  | .year => 366

theorem addBillingPeriod_eq (startedAt : Int) (billingPeriod : BillingPeriod) :
    addBillingPeriod startedAt billingPeriod = addMonths billingPeriod.months startedAt := by
  cases billingPeriod <;> rfl

/-- What `addBillingPeriod` returns: `toISOString` throws beyond the last date. -/
def billingPeriodEnd (startedAt : Int) (billingPeriod : BillingPeriod) : Option Int :=
  timeClip (addBillingPeriod startedAt billingPeriod)

/-- In the month that follows (the same of the next year), on the day of the start as far as there
is one, after the start, and not after the end of a period that starts later. -/
structure EndsInNextPeriod (billingPeriod : BillingPeriod) (startedAt endsAt : Int) : Prop where
  month : monthIndex endsAt = monthIndex startedAt + billingPeriod.months
  date : dateFromTime endsAt = min (dateFromTime startedAt)
    (daysInMonth (monthIndex startedAt + billingPeriod.months))
  after : startedAt < endsAt
  monotone : ∀ later laterEnd, startedAt ≤ later → later ≤ maxTime →
    billingPeriodEnd later billingPeriod = some laterEnd → endsAt ≤ laterEnd

/-- The later month has the day of the start. -/
def HasDay (startedAt : Int) (billingPeriod : BillingPeriod) : Prop :=
  dateFromTime startedAt ≤ daysInMonth (monthIndex startedAt + billingPeriod.months)

instance (startedAt : Int) (billingPeriod : BillingPeriod) :
    Decidable (HasDay startedAt billingPeriod) := inferInstanceAs (Decidable (_ ≤ _))

theorem months_pos (billingPeriod : BillingPeriod) : 0 < billingPeriod.months := by
  cases billingPeriod <;> decide

theorem start_lt_addMonths {n : Int} (later : 0 < n) (t : Int) : t < addMonths n t := by
  have moved := monthStart_strictMono (show monthIndex t < monthIndex t + n by omega)
  change t < t + (monthStart (monthIndex t + n) - monthStart (monthIndex t)) * msPerDay
  unfold msPerDay
  omega

theorem addBillingPeriod_le (startedAt : Int) (billingPeriod : BillingPeriod) :
    addBillingPeriod startedAt billingPeriod ≤ startedAt + billingPeriod.mostDays * msPerDay := by
  have month := daysInMonth_le (monthIndex startedAt)
  have year := monthStart_year (monthIndex startedAt)
  unfold daysInMonth at month
  rw [addBillingPeriod_eq]
  change startedAt + (monthStart (monthIndex startedAt + billingPeriod.months) -
    monthStart (monthIndex startedAt)) * msPerDay ≤ _
  unfold msPerDay
  cases billingPeriod <;> dsimp only [BillingPeriod.months, BillingPeriod.mostDays] <;> omega

/-- The month so long before the last date: it is followed by a period of the most days. -/
def lastMonth : BillingPeriod → Int
  | .month => 12 * 275760 + 7
  | .year => 12 * 275759 + 8

/-- The last date is reached from as many days before it, and from no later. -/
theorem addBillingPeriod_le_maxTime_iff (startedAt : Int) (billingPeriod : BillingPeriod) :
    addBillingPeriod startedAt billingPeriod ≤ maxTime ↔
      startedAt ≤ maxTime - billingPeriod.mostDays * msPerDay := by
  refine ⟨fun within => ?_, fun early => ?_⟩
  · by_contra late
    have begins : monthStart (lastMonth billingPeriod) * msPerDay ≤
        maxTime - billingPeriod.mostDays * msPerDay := by
      cases billingPeriod <;> decide
    have length : monthStart (lastMonth billingPeriod + billingPeriod.months) -
        monthStart (lastMonth billingPeriod) = billingPeriod.mostDays := by
      cases billingPeriod <;> decide
    have beyond : maxTime < monthStart (lastMonth billingPeriod + billingPeriod.months + 1) *
        msPerDay := by
      cases billingPeriod <;> decide
    rw [addBillingPeriod_eq] at within
    have notEarlier : lastMonth billingPeriod ≤ monthIndex startedAt := by
      by_contra earlier
      have ends := (monthIndex_spec startedAt).2
      have between := monthStart_strictMono.monotone
        (show monthIndex startedAt + 1 ≤ lastMonth billingPeriod by omega)
      unfold day msPerDay at *
      omega
    rcases notEarlier.lt_or_eq with later | same
    · have reached := monthStart_le_addMonths billingPeriod.months startedAt
      have between := monthStart_strictMono.monotone (show lastMonth billingPeriod +
        billingPeriod.months + 1 ≤ monthIndex startedAt + billingPeriod.months by omega)
      unfold msPerDay at *
      omega
    · change startedAt + (monthStart (monthIndex startedAt + billingPeriod.months) -
        monthStart (monthIndex startedAt)) * msPerDay ≤ maxTime at within
      rw [← same, length] at within
      omega
  · have := addBillingPeriod_le startedAt billingPeriod
    omega

/-- A period ends in the one that follows when that has the day of the start, and the last date is
not passed. -/
theorem endsInNextPeriod_iff {startedAt : Int} (valid : -maxTime ≤ startedAt)
    (billingPeriod : BillingPeriod) :
    (∃ endsAt, billingPeriodEnd startedAt billingPeriod = some endsAt ∧
      EndsInNextPeriod billingPeriod startedAt endsAt) ↔
    HasDay startedAt billingPeriod ∧
      startedAt ≤ maxTime - billingPeriod.mostDays * msPerDay := by
  have after := start_lt_addMonths (months_pos billingPeriod) startedAt
  rw [← addBillingPeriod_le_maxTime_iff]
  refine ⟨?_, fun ⟨fits, within⟩ => ?_⟩
  · rintro ⟨endsAt, returned, ends⟩
    obtain ⟨rfl, -, within⟩ := timeClip_eq_some.mp returned
    refine ⟨(monthIndex_addMonths_iff billingPeriod.months startedAt).mp ?_, within⟩
    rw [← addBillingPeriod_eq]
    exact ends.month
  · have returned : billingPeriodEnd startedAt billingPeriod =
        some (addBillingPeriod startedAt billingPeriod) := by
      refine timeClip_eq_some.mpr ⟨rfl, ?_, within⟩
      rw [addBillingPeriod_eq]
      omega
    refine ⟨_, returned, ?_⟩
    rw [addBillingPeriod_eq]
    exact {
      month := (monthIndex_addMonths_iff billingPeriod.months startedAt).mpr fits
      date := by rw [dateFromTime_addMonths fits, min_eq_left fits]
      after := after
      monotone := by
        rintro later laterEnd before - returned'
        obtain ⟨rfl, -, -⟩ := timeClip_eq_some.mp returned'
        rw [addBillingPeriod_eq]
        exact addMonths_le_addMonths fits before
    }

namespace Sample

/-- From 28 February 2025 to 28 March. -/
theorem february_ends_in_march :
    ∃ endsAt, billingPeriodEnd 1740700800000 .month = some endsAt ∧
      EndsInNextPeriod .month 1740700800000 endsAt :=
  (endsInNextPeriod_iff (by decide) .month).mpr (by decide)

/-- From 31 January 2025 the period ends on 3 March, in no month that follows January. -/
theorem january_ends_in_march :
    billingPeriodEnd 1738281600000 .month = some 1740960000000 ∧
    monthIndex 1740960000000 = monthIndex 1738281600000 + 2 ∧
    ¬ ∃ endsAt, billingPeriodEnd 1738281600000 .month = some endsAt ∧
      EndsInNextPeriod .month 1738281600000 endsAt := by
  refine ⟨by decide, by decide, ?_⟩
  rintro ⟨endsAt, returned, ends⟩
  have ended : billingPeriodEnd 1738281600000 .month = some 1740960000000 := by decide
  obtain rfl := Option.some.inj (ended.symm.trans returned)
  exact absurd ends.month (by decide)

end Sample

end Persai.Billing
