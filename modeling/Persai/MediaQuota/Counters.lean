import Persai.KeyedTable

/-!
# Monthly counters of media units

A workspace has a counter for each tool and period. Units are reserved for a job and
later moved out of reserve: settled, released or marked for reconciliation. Each
operation is one serializable transaction; `none` is a transaction that fails and
leaves no trace.

* `Applies`, the `_applies` lemmas: what each operation does to the columns of its own
  counter, and that it leaves the others alone.
-/

namespace Persai.MediaQuota

/-- `WorkspaceMonthlyToolQuotaToolCode`. -/
inductive ToolCode where
  | imageGenerate | imageEdit | videoGenerate | document
  deriving DecidableEq, Repr

@[ext] structure Period where
  startedAt : Int
  endsAt : Int
  deriving DecidableEq, Repr

structure CounterKey where
  workspaceId : Nat
  toolCode : ToolCode
  period : Period
  deriving DecidableEq, Repr

/-- A row of `workspace_media_monthly_quota_counters`. -/
structure Counter where
  reservedUnits : Int := 0
  settledUnits : Int := 0
  releasedUnits : Int := 0
  reconciliationRequiredUnits : Int := 0
  limitUnits : Option Nat := none
  deriving DecidableEq, Repr

abbrev Counters := KeyedTable CounterKey Counter

/-- `MonthlyMediaQuotaMutationInput`. -/
structure MutationInput where
  key : CounterKey
  units : Int
  limitUnits : Option Nat
  deriving DecidableEq, Repr

structure ReserveResult where
  allowed : Bool
  currentUsedUnits : Int
  limitUnits : Option Nat
  deriving DecidableEq, Repr

/-- The range of an integer column. -/
def int4Max : Int := 2147483647

/-- A row that the columns can hold. -/
def Counter.Fits (c : Counter) : Prop :=
  c.reservedUnits ≤ int4Max ∧ c.settledUnits ≤ int4Max ∧ c.releasedUnits ≤ int4Max ∧
  c.reconciliationRequiredUnits ≤ int4Max

instance (c : Counter) : Decidable c.Fits := inferInstanceAs (Decidable (_ ∧ _))

/-- The two rows differ at most in their limits. -/
def Counter.SameUnits (c c' : Counter) : Prop :=
  c'.reservedUnits = c.reservedUnits ∧ c'.settledUnits = c.settledUnits ∧
  c'.releasedUnits = c.releasedUnits ∧
  c'.reconciliationRequiredUnits = c.reconciliationRequiredUnits

/-- Where units go that leave the reserve. -/
def Counter.settle (c : Counter) (units : Int) : Counter :=
  { c with reservedUnits := c.reservedUnits - units, settledUnits := c.settledUnits + units }

def Counter.release (c : Counter) (units : Int) : Counter :=
  { c with reservedUnits := c.reservedUnits - units, releasedUnits := c.releasedUnits + units }

def Counter.markReconciliation (c : Counter) (units : Int) : Counter :=
  { c with
    reservedUnits := c.reservedUnits - units
    reconciliationRequiredUnits := c.reconciliationRequiredUnits + units }

namespace Counters

/-- The columns of a counter; one that has no row yet has none in use. -/
def counter (t : Counters) (k : CounterKey) : Counter := (t.get? k).getD {}

/-- `upsertMonthlyMediaQuotaCounter`. -/
def upsertMonthlyMediaQuotaCounter (t : Counters) (input : MutationInput) : Counters :=
  t.upsert input.key { limitUnits := input.limitUnits } fun c =>
    { c with limitUnits := input.limitUnits }

def write (t : Counters) (k : CounterKey) (c : Counter) : Option Counters :=
  if c.Fits then some (t.update k fun _ => c) else none

def reserveMonthlyMediaQuota (t : Counters) (input : MutationInput) :
    Option (ReserveResult × Counters) :=
  let t := t.upsertMonthlyMediaQuotaCounter input
  let counter := t.counter input.key
  let currentUsedUnits := counter.reservedUnits + counter.settledUnits
  if input.limitUnits.all fun limit => currentUsedUnits + input.units ≤ limit then
    (t.write input.key { counter with
      reservedUnits := counter.reservedUnits + input.units
      limitUnits := input.limitUnits }).map
      (⟨true, currentUsedUnits + input.units, input.limitUnits⟩, ·)
  else some (⟨false, currentUsedUnits, input.limitUnits⟩, t)

def mutateMonthlyMediaQuota (t : Counters) (input : MutationInput)
    (dataForUnits : Counter → Int → Counter) : Option Counters :=
  let t := t.upsertMonthlyMediaQuotaCounter input
  let counter := t.counter input.key
  let units := min input.units counter.reservedUnits
  if units ≤ 0 then some t
  else t.write input.key { dataForUnits counter units with limitUnits := input.limitUnits }

def settleMonthlyMediaQuota (t : Counters) (input : MutationInput) : Option Counters :=
  t.mutateMonthlyMediaQuota input Counter.settle

def releaseMonthlyMediaQuota (t : Counters) (input : MutationInput) : Option Counters :=
  t.mutateMonthlyMediaQuota input Counter.release

def markMonthlyMediaQuotaReconciliationRequired (t : Counters) (input : MutationInput) :
    Option Counters :=
  t.mutateMonthlyMediaQuota input Counter.markReconciliation

def consumeMonthlyToolQuotaSuccessOnly (t : Counters) (input : MutationInput) :
    Option Counters :=
  let t := t.upsertMonthlyMediaQuotaCounter input
  let counter := t.counter input.key
  t.write input.key { counter with
    settledUnits := counter.settledUnits + input.units
    limitUnits := input.limitUnits }

/-! The service refuses units that are not positive: a reservation throws, the other
operations return. -/

def reserveAssistantMonthlyMediaQuota (t : Counters) (input : MutationInput) :
    Option (ReserveResult × Counters) :=
  if input.units ≤ 0 then none else t.reserveMonthlyMediaQuota input

def settleAssistantMonthlyMediaQuota (t : Counters) (input : MutationInput) : Option Counters :=
  if input.units ≤ 0 then some t else t.settleMonthlyMediaQuota input

def releaseAssistantMonthlyMediaQuota (t : Counters) (input : MutationInput) : Option Counters :=
  if input.units ≤ 0 then some t else t.releaseMonthlyMediaQuota input

def markAssistantMonthlyMediaQuotaReconciliationRequired (t : Counters) (input : MutationInput) :
    Option Counters :=
  if input.units ≤ 0 then some t else t.markMonthlyMediaQuotaReconciliationRequired input

def consumeAssistantMonthlyToolQuotaSuccessOnly (t : Counters) (input : MutationInput) :
    Option Counters :=
  if input.units ≤ 0 then some t else t.consumeMonthlyToolQuotaSuccessOnly input

/-- The operation turns the columns of one counter into those of `c`, and no others. -/
structure Applies (t : Counters) (k : CounterKey) (c : Counter) (t' : Counters) : Prop where
  own : c.SameUnits (t'.counter k)
  others : ∀ i, i ≠ k → t'.counter i = t.counter i

end Counters

open Counters

section
variable {t t' : Counters} {input : MutationInput}

theorem Counter.SameUnits.refl (c : Counter) : c.SameUnits c := ⟨rfl, rfl, rfl, rfl⟩

theorem counter_upsert (t : Counters) (input : MutationInput) (i : CounterKey) :
    (t.upsertMonthlyMediaQuotaCounter input).counter i =
      if i = input.key then { t.counter input.key with limitUnits := input.limitUnits }
      else t.counter i := by
  unfold counter upsertMonthlyMediaQuotaCounter
  rw [KeyedTable.get?_upsert]
  split
  · cases t.get? input.key <;> rfl
  · rfl

theorem write_some {k : CounterKey} {c : Counter} (written : t.write k c = some t')
    (row : (t.get? k).isSome) :
    t'.counter k = c ∧ ∀ i, i ≠ k → t'.counter i = t.counter i := by
  unfold write at written
  split at written
  · cases written
    obtain ⟨c', row⟩ := Option.isSome_iff_exists.mp row
    constructor
    · simp [counter, row]
    · intro i other
      simp [counter, KeyedTable.get?_update_of_ne _ _ other]
  · cases written

theorem upsert_row (t : Counters) (input : MutationInput) :
    ((t.upsertMonthlyMediaQuotaCounter input).get? input.key).isSome := by
  rw [upsertMonthlyMediaQuotaCounter, KeyedTable.get?_upsert, if_pos rfl]
  rfl

/-- An upsert counts nothing. -/
theorem upsert_applies (t : Counters) (input : MutationInput) :
    t.Applies input.key (t.counter input.key) (t.upsertMonthlyMediaQuotaCounter input) := by
  constructor
  · rw [counter_upsert, if_pos rfl]
    exact ⟨rfl, rfl, rfl, rfl⟩
  · intro i other
    rw [counter_upsert, if_neg other]

/-- A write after the upsert. -/
theorem write_applies {c c' : Counter}
    (written : (t.upsertMonthlyMediaQuotaCounter input).write input.key c' = some t')
    (same : c.SameUnits c') : t.Applies input.key c t' := by
  obtain ⟨own, others⟩ := write_some written (upsert_row t input)
  constructor
  · rw [own]
    exact same
  · intro i other
    rw [others i other]
    exact (upsert_applies t input).others i other

theorem reserve_applies {result : ReserveResult}
    (reserved : t.reserveAssistantMonthlyMediaQuota input = some (result, t')) :
    0 < input.units ∧
    if result.allowed then
      (∀ limit, input.limitUnits = some limit →
        (t.counter input.key).reservedUnits + (t.counter input.key).settledUnits + input.units ≤
          limit) ∧
      t.Applies input.key { t.counter input.key with
        reservedUnits := (t.counter input.key).reservedUnits + input.units } t'
    else t.Applies input.key (t.counter input.key) t' := by
  unfold reserveAssistantMonthlyMediaQuota at reserved
  split at reserved
  · cases reserved
  · rename_i positive
    refine ⟨Int.not_le.mp positive, ?_⟩
    simp only [reserveMonthlyMediaQuota, counter_upsert, if_true] at reserved
    split at reserved
    · rename_i within
      obtain ⟨t'', written, eq⟩ := Option.map_eq_some_iff.mp reserved
      cases eq
      rw [if_pos rfl]
      refine ⟨fun limit some' => ?_, write_applies written ⟨rfl, rfl, rfl, rfl⟩⟩
      simpa [some'] using within
    · cases reserved
      exact upsert_applies t input

/-- Units move out of reserve, as many of them as there are. -/
theorem mutate_applies {dataForUnits : Counter → Int → Counter}
    (limitless : ∀ c limitUnits units,
      (dataForUnits c units).SameUnits (dataForUnits { c with limitUnits } units))
    (mutated : t.mutateMonthlyMediaQuota input dataForUnits = some t') :
    (min input.units (t.counter input.key).reservedUnits ≤ 0 ∧
      t.Applies input.key (t.counter input.key) t') ∨
    (0 < min input.units (t.counter input.key).reservedUnits ∧
      t.Applies input.key (dataForUnits (t.counter input.key)
        (min input.units (t.counter input.key).reservedUnits)) t') := by
  simp only [mutateMonthlyMediaQuota, counter_upsert, if_true] at mutated
  split at mutated
  · rename_i none
    cases mutated
    exact .inl ⟨none, upsert_applies t input⟩
  · rename_i some'
    exact .inr ⟨Int.not_le.mp some', write_applies mutated (limitless ..)⟩

theorem consume_applies
    (consumed : t.consumeAssistantMonthlyToolQuotaSuccessOnly input = some t') :
    (input.units ≤ 0 ∧ t' = t) ∨
    (0 < input.units ∧ t.Applies input.key { t.counter input.key with
      settledUnits := (t.counter input.key).settledUnits + input.units } t') := by
  unfold consumeAssistantMonthlyToolQuotaSuccessOnly at consumed
  split at consumed
  · rename_i none
    cases consumed
    exact .inl ⟨none, rfl⟩
  · rename_i positive
    simp only [consumeMonthlyToolQuotaSuccessOnly, counter_upsert, if_true] at consumed
    exact .inr ⟨Int.not_le.mp positive, write_applies consumed ⟨rfl, rfl, rfl, rfl⟩⟩

end

end Persai.MediaQuota
