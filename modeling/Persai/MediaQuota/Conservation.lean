import Mathlib.Logic.Function.Basic
import Persai.Runs
import Persai.MediaQuota.Counters

/-!
# Units are neither lost nor made

* `UnitsChange`, `step_units`: everything an operation does to the units of a counter;
* `Balanced`, `balanced_step`: what is in reserve was allowed and has not moved out;
* `counter_conserved`: in every state of every run the columns are not negative and
  balance, a denied reservation changes none of them, and under a fixed limit the units
  in use stay within it.
-/

namespace Persai.MediaQuota

open Runs Counters

inductive Operation where
  | reserve (input : MutationInput)
  | settle (input : MutationInput)
  | release (input : MutationInput)
  | markReconciliation (input : MutationInput)
  | consumeSuccessOnly (input : MutationInput)
  deriving DecidableEq, Repr

/-- The counters, with the units that reservations were allowed and that were consumed
without one. -/
structure Ledger where
  counters : Counters := ∅
  allowed : CounterKey → Int := fun _ => 0
  consumed : CounterKey → Int := fun _ => 0

namespace Ledger

def add (f : CounterKey → Int) (input : MutationInput) : CounterKey → Int :=
  Function.update f input.key (f input.key + input.units)

/-- A transaction that fails changes nothing. -/
def withCounters (s : Ledger) : Option Counters → Ledger
  | some counters => { s with counters }
  | none => s

def step (s : Ledger) : Operation → Ledger
  | .reserve input =>
    match s.counters.reserveAssistantMonthlyMediaQuota input with
    | some (result, counters) =>
      { s with counters, allowed := if result.allowed then add s.allowed input else s.allowed }
    | none => s
  | .settle input => s.withCounters (s.counters.settleAssistantMonthlyMediaQuota input)
  | .release input => s.withCounters (s.counters.releaseAssistantMonthlyMediaQuota input)
  | .markReconciliation input =>
    s.withCounters (s.counters.markAssistantMonthlyMediaQuotaReconciliationRequired input)
  | .consumeSuccessOnly input =>
    match s.counters.consumeAssistantMonthlyToolQuotaSuccessOnly input with
    | some counters =>
      { s with
        counters, consumed := if 0 < input.units then add s.consumed input else s.consumed }
    | none => s

/-- No column is negative, and the units in reserve are those of the allowed reservations
less those that were settled after one, released or marked. -/
structure Balanced (s : Ledger) (k : CounterKey) : Prop where
  reserved : 0 ≤ (s.counters.counter k).reservedUnits
  settled : 0 ≤ (s.counters.counter k).settledUnits
  released : 0 ≤ (s.counters.counter k).releasedUnits
  reconciliation : 0 ≤ (s.counters.counter k).reconciliationRequiredUnits
  balance : (s.counters.counter k).reservedUnits = s.allowed k -
    ((s.counters.counter k).settledUnits - s.consumed k + (s.counters.counter k).releasedUnits +
      (s.counters.counter k).reconciliationRequiredUnits)

/-- A reservation that is denied changes the units of no counter. -/
def DeniedKeeps (s : Ledger) : Operation → Prop
  | .reserve input => ∀ result counters,
      s.counters.reserveAssistantMonthlyMediaQuota input = some (result, counters) →
      result.allowed = false → ∀ k, (s.counters.counter k).SameUnits (counters.counter k)
  | _ => True

/-- The units in use, as a reservation counts them. -/
def used (s : Ledger) (k : CounterKey) : Int :=
  (s.counters.counter k).reservedUnits + (s.counters.counter k).settledUnits

end Ledger

/-- Reservations of the counter see the limit, and nothing is consumed past it. -/
def Operation.FixedLimit (k : CounterKey) (limit : Nat) : Operation → Prop
  | .reserve input => input.key = k → input.limitUnits = some limit
  | .consumeSuccessOnly input => input.key ≠ k
  | _ => True

/-- The three ways out of the reserve. -/
def Leaves (f : Counter → Int → Counter) : Prop :=
  f = Counter.settle ∨ f = Counter.release ∨ f = Counter.markReconciliation

namespace Ledger

/-- Everything that happens to the units of a counter. -/
inductive UnitsChange (s s' : Ledger) (e : Operation) (k : CounterKey) : Prop where
  | kept (same : (s.counters.counter k).SameUnits (s'.counters.counter k))
      (allowed : s'.allowed k = s.allowed k) (consumed : s'.consumed k = s.consumed k)
  | reserved (input : MutationInput) (operation : e = .reserve input) (own : input.key = k)
      (positive : 0 < input.units)
      (within : ∀ limit, input.limitUnits = some limit → s.used k + input.units ≤ limit)
      (same : Counter.SameUnits { s.counters.counter k with
        reservedUnits := (s.counters.counter k).reservedUnits + input.units }
        (s'.counters.counter k))
      (allowed : s'.allowed k = s.allowed k + input.units)
      (consumed : s'.consumed k = s.consumed k)
  | moved (f : Counter → Int → Counter) (units : Int) (leaves : Leaves f) (positive : 0 < units)
      (reserved : units ≤ (s.counters.counter k).reservedUnits)
      (same : (f (s.counters.counter k) units).SameUnits (s'.counters.counter k))
      (allowed : s'.allowed k = s.allowed k) (consumed : s'.consumed k = s.consumed k)
  | consumed (input : MutationInput) (operation : e = .consumeSuccessOnly input)
      (own : input.key = k) (positive : 0 < input.units)
      (same : Counter.SameUnits { s.counters.counter k with
        settledUnits := (s.counters.counter k).settledUnits + input.units }
        (s'.counters.counter k))
      (allowed : s'.allowed k = s.allowed k)
      (consumed : s'.consumed k = s.consumed k + input.units)

section
variable {s : Ledger}

theorem UnitsChange.none (s : Ledger) (e : Operation) (k : CounterKey) : UnitsChange s s e k :=
  .kept (.refl _) rfl rfl

theorem leaves_limitless {f : Counter → Int → Counter} (leaves : Leaves f) (c : Counter)
    (limitUnits : Option Nat) (units : Int) :
    (f c units).SameUnits (f { c with limitUnits } units) := by
  obtain rfl | rfl | rfl := leaves <;> exact ⟨rfl, rfl, rfl, rfl⟩

/-- An operation that moves units out of reserve. -/
theorem moved_units {e : Operation} {input : MutationInput} {f : Counter → Int → Counter}
    (leaves : Leaves f) (k : CounterKey) :
    UnitsChange s (s.withCounters (if input.units ≤ 0 then some s.counters
      else s.counters.mutateMonthlyMediaQuota input f)) e k := by
  split
  · exact .none s e k
  · cases mutated : s.counters.mutateMonthlyMediaQuota input f with
    | none => exact .none s e k
    | some t =>
      obtain ⟨-, applies⟩ | ⟨positive, applies⟩ :=
        mutate_applies (leaves_limitless leaves) mutated
      · by_cases own : k = input.key
        · subst own
          exact .kept applies.own rfl rfl
        · exact .kept (by simp [withCounters, applies.others k own, Counter.SameUnits]) rfl rfl
      · by_cases own : k = input.key
        · subst own
          exact .moved f _ leaves positive (Int.min_le_right ..) applies.own rfl rfl
        · exact .kept (by simp [withCounters, applies.others k own, Counter.SameUnits]) rfl rfl

theorem add_of_ne (f : CounterKey → Int) {input : MutationInput} {k : CounterKey}
    (other : k ≠ input.key) : add f input k = f k := by simp [add, other]

/-- An operation changes the units of a counter in one of these ways. -/
theorem step_units (s : Ledger) (e : Operation) (k : CounterKey) :
    UnitsChange s (s.step e) e k := by
  cases e with
  | reserve input =>
    simp only [step]
    split
    · rename_i result t reserved
      obtain ⟨positive, applies⟩ := reserve_applies reserved
      by_cases own : k = input.key
      · subst own
        split at applies
        · rename_i allowed
          exact .reserved input rfl rfl positive applies.1 applies.2.own
            (by simp [allowed, add]) rfl
        · rename_i denied
          exact .kept applies.own (by simp [denied]) rfl
      · have others : t.counter k = s.counters.counter k := by
          split at applies
          · exact applies.2.others k own
          · exact applies.others k own
        refine .kept (by simp [others, Counter.SameUnits]) ?_ rfl
        dsimp only
        split
        · exact add_of_ne _ own
        · rfl
    · exact .none s _ k
  | settle input => exact moved_units (.inl rfl) k
  | release input => exact moved_units (.inr (.inl rfl)) k
  | markReconciliation input => exact moved_units (.inr (.inr rfl)) k
  | consumeSuccessOnly input =>
    simp only [step]
    split
    · rename_i t consumed
      obtain ⟨none, rfl⟩ | ⟨positive, applies⟩ := consume_applies consumed
      · exact .kept (.refl _) rfl (by simp [Int.not_lt.mpr none])
      · by_cases own : k = input.key
        · subst own
          exact .consumed input rfl rfl positive applies.own rfl (by simp [positive, add])
        · exact .kept (by simp [applies.others k own, Counter.SameUnits]) rfl
            (by simp [positive, add_of_ne _ own])
    · exact .none s _ k

theorem counter_start (k : CounterKey) : ({} : Ledger).counters.counter k = {} := rfl

theorem balanced_start (k : CounterKey) : ({} : Ledger).Balanced k where
  reserved := Int.le_refl 0
  settled := Int.le_refl 0
  released := Int.le_refl 0
  reconciliation := Int.le_refl 0
  balance := rfl

/-- Whatever leaves the reserve arrives in another column. -/
theorem balanced_step {k : CounterKey} (balanced : s.Balanced k) (e : Operation) :
    (s.step e).Balanced k := by
  obtain ⟨reserved, settled, released, reconciliation, balance⟩ := balanced
  cases step_units s e k with
  | kept same allowed consumed =>
    obtain ⟨h₁, h₂, h₃, h₄⟩ := same
    constructor <;> omega
  | reserved input _ _ positive _ same allowed consumed =>
    obtain ⟨h₁, h₂, h₃, h₄⟩ := same
    dsimp only at h₁ h₂ h₃ h₄
    constructor <;> omega
  | moved f units leaves positive reserve same allowed consumed =>
    obtain ⟨h₁, h₂, h₃, h₄⟩ := same
    obtain rfl | rfl | rfl := leaves
    · dsimp only [Counter.settle] at h₁ h₂ h₃ h₄
      constructor <;> omega
    · dsimp only [Counter.release] at h₁ h₂ h₃ h₄
      constructor <;> omega
    · dsimp only [Counter.markReconciliation] at h₁ h₂ h₃ h₄
      constructor <;> omega
  | consumed input _ _ positive same allowed consumed =>
    obtain ⟨h₁, h₂, h₃, h₄⟩ := same
    dsimp only at h₁ h₂ h₃ h₄
    constructor <;> omega

theorem deniedKeeps (s : Ledger) (e : Operation) : s.DeniedKeeps e := by
  cases e with
  | reserve input =>
    intro result t reserved denied k
    obtain ⟨-, applies⟩ := reserve_applies reserved
    rw [if_neg (by simp [denied])] at applies
    by_cases own : k = input.key
    · subst own
      exact applies.own
    · rw [applies.others k own]
      exact .refl _
  | _ => trivial

/-- Only a reservation adds to the units in use, and it is allowed within the limit. -/
theorem used_step {k : CounterKey} {limit : Nat} (within : s.used k ≤ limit) {e : Operation}
    (fixed : e.FixedLimit k limit) : (s.step e).used k ≤ limit := by
  rw [used] at within ⊢
  cases step_units s e k with
  | kept same =>
    rw [same.1, same.2.1]
    exact within
  | reserved input operation own positive allowed same =>
    subst operation
    have allowed := allowed limit (fixed own)
    rw [used] at allowed
    rw [same.1, same.2.1]
    dsimp only
    omega
  | moved f units leaves positive reserve same =>
    rw [same.1, same.2.1]
    obtain rfl | rfl | rfl := leaves
    · dsimp only [Counter.settle]; omega
    · dsimp only [Counter.release]; omega
    · dsimp only [Counter.markReconciliation]; omega
  | consumed input operation own =>
    subst operation
    exact absurd own fixed

end

end Ledger

/-- Over every run of operations: no column of any counter is negative, the units in
reserve are those allowed less those moved out, a denied reservation changes no units,
and with a fixed limit and nothing consumed the units in use stay within the limit. -/
theorem counter_conserved (es : List Operation) :
    EveryState Ledger.step (fun s => ∀ k, s.Balanced k) {} es ∧
    EveryStep Ledger.step Ledger.DeniedKeeps {} es ∧
    ∀ k limit, EveryStep Ledger.step (fun _ e => e.FixedLimit k limit) {} es →
      EveryState Ledger.step (fun s => s.used k ≤ limit) {} es := by
  refine ⟨?_, everyStep_of_forall Ledger.deniedKeeps {} es, fun k limit fixed => ?_⟩
  · have steps : EveryStep Ledger.step (fun _ _ => True) {} es :=
      everyStep_of_forall (fun _ _ => trivial) _ es
    exact everyState_of_preserved (fun s e balanced _ k => Ledger.balanced_step (balanced k) e)
      Ledger.balanced_start steps
  · have preserved (s : Ledger) (e : Operation) (within : s.used k ≤ limit)
        (fixed : e.FixedLimit k limit) : (s.step e).used k ≤ limit := Ledger.used_step within fixed
    have start : ({} : Ledger).used k ≤ limit := by
      rw [Ledger.used, Ledger.counter_start]
      simp
    exact everyState_of_preserved preserved start fixed

end Persai.MediaQuota
