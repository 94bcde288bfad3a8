import Persai.Runs
import Persai.Text
import Persai.Utc
import Persai.MediaQuota.Conservation

/-!
# The period a job is counted in

A job's units are reserved, and later taken out of reserve, on the counter of a period.
The period is resolved anew each time, from the subscription and the clock.

* `resolve_eq_iff`: when two resolutions come to the same period;
* `resolved_where_reserved_iff`: when a job's units leave the counter that reserved them;
* `left_in_march`: a job that ends in the next calendar month.
-/

namespace Persai.MediaQuota

open Counters

inductive PeriodSource where
  | subscriptionPeriod | calendarMonthFallback
  deriving DecidableEq, Repr

/-- `RecurringQuotaPeriodInput`: the dates of a subscription. -/
structure RecurringQuotaPeriodInput where
  currentPeriodStartedAt : Option String
  currentPeriodEndsAt : Option String
  deriving DecidableEq, Repr

structure RecurringQuotaPeriod where
  period : Period
  periodSource : PeriodSource
  deriving DecidableEq, Repr

def startOfUtcMonth (value : Int) : Int :=
  Utc.dateUTC (Utc.yearFromTime value) (Utc.monthFromTime value)

def startOfNextUtcMonth (value : Int) : Int :=
  Utc.dateUTC (Utc.yearFromTime value) (Utc.monthFromTime value + 1)

/-- The state of the subscription, of the clock and of the plan when an operation is made. -/
structure Moment where
  subscription : RecurringQuotaPeriodInput
  now : Nat
  limitUnits : Option Nat

/-- A job that has reserved units. -/
structure MediaJob where
  workspaceId : Nat
  toolCode : ToolCode
  units : Int
  units_pos : 0 < units

/-- What becomes of the units of a job. -/
inductive Resolution where
  | settled | released | reconciliationRequired
  deriving DecidableEq, Repr

def Resolution.apply : Resolution → Counters → MutationInput → Option Counters
  | .settled => settleAssistantMonthlyMediaQuota
  | .released => releaseAssistantMonthlyMediaQuota
  | .reconciliationRequired => markAssistantMonthlyMediaQuotaReconciliationRequired

section

-- the time of `new Date(value)`, `none` where it is not a number
variable (dateParse : String → Option Int)

def parseIsoDate : Option String → Option Int
  | some value => if (trim value).isEmpty then none else dateParse value
  | none => none

def resolveRecurringQuotaPeriod (subscription : RecurringQuotaPeriodInput) (now : Int) :
    RecurringQuotaPeriod :=
  match parseIsoDate dateParse subscription.currentPeriodStartedAt,
      parseIsoDate dateParse subscription.currentPeriodEndsAt with
  | some periodStartedAt, some periodEndsAt =>
    if periodEndsAt > periodStartedAt then
      ⟨⟨periodStartedAt, periodEndsAt⟩, .subscriptionPeriod⟩
    else ⟨⟨startOfUtcMonth now, startOfNextUtcMonth now⟩, .calendarMonthFallback⟩
  | _, _ => ⟨⟨startOfUtcMonth now, startOfNextUtcMonth now⟩, .calendarMonthFallback⟩

/-- What an operation on the units of a job passes to the counters:
`resolveMonthlyMediaQuotaAccountingContext`. -/
def MediaJob.quotaInput (job : MediaJob) (m : Moment) : MutationInput where
  key := ⟨job.workspaceId, job.toolCode,
    (resolveRecurringQuotaPeriod dateParse m.subscription m.now).period⟩
  units := job.units
  limitUnits := m.limitUnits

/-- The period that the subscription states, if its dates can be read and the second is
the later one. -/
def RecurringQuotaPeriodInput.stated (subscription : RecurringQuotaPeriodInput) :
    Option Period :=
  match parseIsoDate dateParse subscription.currentPeriodStartedAt,
      parseIsoDate dateParse subscription.currentPeriodEndsAt with
  | some startedAt, some endsAt => if startedAt < endsAt then some ⟨startedAt, endsAt⟩ else none
  | _, _ => none

/-- The period is the UTC month of an instant. -/
def Period.IsMonthOf (p : Period) (now : Nat) : Prop :=
  p.startedAt = startOfUtcMonth now ∧ p.endsAt = startOfNextUtcMonth now

instance (p : Period) (now : Nat) : Decidable (p.IsMonthOf now) :=
  inferInstanceAs (Decidable (_ ∧ _))

/-- The subscription states one period at both moments; or none at either, and they are in
one UTC month; or it states one at one of them, and that is the UTC month of the other. -/
def SamePeriod (m m' : Moment) : Prop :=
  match m.subscription.stated dateParse, m'.subscription.stated dateParse with
  | some p, some p' => p = p'
  | none, none =>
    Utc.yearFromTime m.now = Utc.yearFromTime m'.now ∧
    Utc.monthFromTime m.now = Utc.monthFromTime m'.now
  | some p, none => p.IsMonthOf m'.now
  | none, some p' => p'.IsMonthOf m.now

instance (m m' : Moment) : Decidable (SamePeriod dateParse m m') := by
  unfold SamePeriod
  split <;> infer_instance

theorem resolve_eq (subscription : RecurringQuotaPeriodInput) (now : Int) :
    (resolveRecurringQuotaPeriod dateParse subscription now).period =
      (subscription.stated dateParse).getD ⟨startOfUtcMonth now, startOfNextUtcMonth now⟩ := by
  unfold resolveRecurringQuotaPeriod RecurringQuotaPeriodInput.stated
  split
  · split <;> rfl
  · rfl

theorem month_eq_iff (a b : Nat) :
    (⟨startOfUtcMonth a, startOfNextUtcMonth a⟩ : Period) =
      ⟨startOfUtcMonth b, startOfNextUtcMonth b⟩ ↔
    Utc.yearFromTime a = Utc.yearFromTime b ∧ Utc.monthFromTime a = Utc.monthFromTime b := by
  have modern (t : Nat) : 100 ≤ Utc.yearFromTime t := by
    have := Utc.yearFromTime_epoch (Int.natCast_nonneg t)
    omega
  rw [← Utc.dateUTC_inj (modern a) (modern b) (Utc.monthFromTime_range a)
    (Utc.monthFromTime_range b)]
  constructor
  · exact fun same => congrArg Period.startedAt same
  · intro start
    have same := (Utc.dateUTC_inj (modern a) (modern b) (Utc.monthFromTime_range a)
      (Utc.monthFromTime_range b)).mp start
    simp only [startOfUtcMonth, startOfNextUtcMonth, same]

theorem resolve_eq_iff (m m' : Moment) :
    (resolveRecurringQuotaPeriod dateParse m'.subscription m'.now).period =
      (resolveRecurringQuotaPeriod dateParse m.subscription m.now).period ↔
    SamePeriod dateParse m m' := by
  rw [resolve_eq, resolve_eq, SamePeriod]
  cases m.subscription.stated dateParse with
  | none =>
    cases m'.subscription.stated dateParse with
    | none => exact eq_comm.trans (month_eq_iff m.now m'.now)
    | some p' => exact Period.ext_iff
  | some p =>
    cases m'.subscription.stated dateParse with
    | none => exact eq_comm.trans Period.ext_iff
    | some p' => exact eq_comm

variable {dateParse}

/-- Units that are in reserve leave it all at once. -/
theorem resolution_applies {how : Resolution} {t t' : Counters} (input : MutationInput)
    (positive : 0 < input.units) (resolved : how.apply t input = some t') :
    (t'.counter input.key).reservedUnits = (t.counter input.key).reservedUnits -
      max 0 (min input.units (t.counter input.key).reservedUnits) ∧
    ∀ i, i ≠ input.key → t'.counter i = t.counter i := by
  have one (f : Counter → Int → Counter) (leaves : Leaves f)
      (mutated : t.mutateMonthlyMediaQuota input f = some t') :
      (t'.counter input.key).reservedUnits = (t.counter input.key).reservedUnits -
        max 0 (min input.units (t.counter input.key).reservedUnits) ∧
      ∀ i, i ≠ input.key → t'.counter i = t.counter i := by
    obtain ⟨none, applies⟩ | ⟨some', applies⟩ :=
      mutate_applies (Ledger.leaves_limitless leaves) mutated
    · refine ⟨?_, applies.others⟩
      rw [applies.own.1, max_eq_left none, Int.sub_zero]
    · refine ⟨?_, applies.others⟩
      rw [applies.own.1, max_eq_right some'.le]
      obtain rfl | rfl | rfl := leaves <;> rfl
  have positive := Int.not_le.mpr positive
  cases how with
  | settled =>
    simp only [Resolution.apply, settleAssistantMonthlyMediaQuota, if_neg positive] at resolved
    exact one _ (.inl rfl) resolved
  | released =>
    simp only [Resolution.apply, releaseAssistantMonthlyMediaQuota, if_neg positive] at resolved
    exact one _ (.inr (.inl rfl)) resolved
  | reconciliationRequired =>
    simp only [Resolution.apply, markAssistantMonthlyMediaQuotaReconciliationRequired,
      if_neg positive] at resolved
    exact one _ (.inr (.inr rfl)) resolved

end

/-- A job's units are settled, released or marked on the counter that holds them in
reserve, and leave it, exactly if the two moments have the same period. -/
theorem resolved_where_reserved_iff (dateParse : String → Option Int) (job : MediaJob)
    (m m' : Moment) :
    ((job.quotaInput dateParse m').key = (job.quotaInput dateParse m).key ↔
      SamePeriod dateParse m m') ∧
    ∀ (how : Resolution) (t t' : Counters),
      job.units ≤ (t.counter (job.quotaInput dateParse m).key).reservedUnits →
      how.apply t (job.quotaInput dateParse m') = some t' →
      ((t'.counter (job.quotaInput dateParse m).key).reservedUnits =
        (t.counter (job.quotaInput dateParse m).key).reservedUnits - job.units ↔
          SamePeriod dateParse m m') := by
  have row : (job.quotaInput dateParse m').key = (job.quotaInput dateParse m).key ↔
      SamePeriod dateParse m m' := by
    rw [← resolve_eq_iff]
    simp [MediaJob.quotaInput]
  refine ⟨row, fun how t t' held resolved => ?_⟩
  have positive := job.units_pos
  obtain ⟨own, others⟩ := resolution_applies _ positive resolved
  rw [← row]
  constructor
  · intro taken
    by_contra other
    rw [others _ (Ne.symm other)] at taken
    omega
  · intro same
    rw [← same] at held ⊢
    rw [own]
    change _ - max 0 (min job.units _) = _ - job.units
    rw [min_eq_left held, max_eq_right positive.le]

/-- Without a subscription period, ten minutes around the end of March 2026. -/
def beforeMidnight : Moment := ⟨⟨none, none⟩, 1775001300000, some 20⟩

def afterMidnight : Moment := ⟨⟨none, none⟩, 1775001900000, some 20⟩

def twoImages : MediaJob := ⟨7, .imageGenerate, 2, by decide⟩

/-- The two units stay in reserve for March, and April counts none. -/
theorem left_in_march :
    let march := twoImages.quotaInput (fun _ => none) beforeMidnight
    let april := twoImages.quotaInput (fun _ => none) afterMidnight
    let after := Runs.run Ledger.step {} [.reserve march, .settle april]
    april.key ≠ march.key ∧
    after.counters.counter march.key = { reservedUnits := 2, limitUnits := some 20 } ∧
    after.counters.counter april.key = { limitUnits := some 20 } := by
  decide +kernel

end Persai.MediaQuota
