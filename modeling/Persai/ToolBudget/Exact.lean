import Persai.ToolBudget.Policy

/-!
# The counts of a turn are exact

Reserve and refund normalise the units each on its own. They agree on a positive number, and a
reserve of less than one unit counts nothing; a refund of zero units takes one back.
-/

namespace Persai.ToolBudget

open Runs

/-! ## Sums -/

theorem total_erase {units : JsNumber} {list : List JsNumber} {n : ℤ} (member : units ∈ list)
    (sum : total list = some n) :
    ∃ m, floored units = some m ∧ total (list.erase units) = some (n - m) := by
  induction list generalizing n with
  | nil => cases member
  | cons first rest ih =>
    rw [total] at sum
    cases head : floored first with
    | none => rw [head] at sum; cases sum
    | some k =>
      cases tail : total rest with
      | none => rw [head, tail] at sum; cases sum
      | some l =>
        rw [head, tail] at sum
        cases sum
        by_cases same : first = units
        · subst same
          refine ⟨k, head, ?_⟩
          rw [List.erase_cons_head, tail]
          congr 1
          omega
        · obtain ⟨m, floor, erased⟩ :=
            ih ((List.mem_cons.mp member).resolve_left (Ne.symm same)) tail
          refine ⟨m, floor, ?_⟩
          rw [List.erase_cons_tail (by simpa using same), total, head, erased]
          exact congrArg some (by omega)

theorem total_nonneg {list : List JsNumber} {n : ℤ}
    (units : ∀ u ∈ list, ∃ q : ℚ, u = .finite q ∧ 0 ≤ q) (sum : total list = some n) : 0 ≤ n := by
  induction list generalizing n with
  | nil =>
    cases sum
    exact le_refl _
  | cons first rest ih =>
    obtain ⟨q, rfl, nonneg⟩ := units first List.mem_cons_self
    rw [total, floored] at sum
    cases tail : total rest with
    | none => rw [tail] at sum; cases sum
    | some l =>
      rw [tail] at sum
      cases sum
      have rest_nonneg := ih (fun u member => units u (List.mem_cons_of_mem _ member)) tail
      have first_nonneg := Int.floor_nonneg.mpr nonneg
      omega

theorem toNat_floor {q : ℚ} (nonneg : 0 ≤ q) : ((⌊q⌋.toNat : ℕ) : ℤ) = ⌊q⌋ :=
  Int.toNat_of_nonneg (Int.floor_nonneg.mpr nonneg)

theorem floor_eq_zero_of_lt_one {q : ℚ} (nonneg : 0 ≤ q) (less : ¬ 1 ≤ q) : ⌊q⌋ = 0 :=
  Int.floor_eq_zero_iff.mpr ⟨nonneg, not_le.mp less⟩

theorem plus_of_isDouble {n units : ℕ} (fits : IsDouble (n + units)) :
    plus (n : ℕ∞) units = ((n + units : ℕ) : ℕ∞) := fits

theorem minus_of_isDouble {n units : ℕ} (fits : IsDouble (n - units)) :
    minus (n : ℕ∞) units = ((n - units : ℕ) : ℕ∞) := fits

/-! ## One call -/

namespace ToolBudgetPolicy

variable (p : ToolBudgetPolicy)

theorem count_setCount (toolName other : String) (count : ℕ∞) :
    (p.setCount toolName count).observedToolCount other =
      if other = toolName then count else p.observedToolCount other := by
  simp only [setCount, observedToolCount, Function.update_apply]

/-- What a reserve comes to. -/
theorem reserve_cases (toolName : String) (iterationIndex : ℕ) (units : JsNumber) :
    ((p.reserve toolName iterationIndex units).1 ≠ .granted ∧
        (p.reserve toolName iterationIndex units).2 = p) ∨
      (floorsToZero units ∧ p.reserve toolName iterationIndex units = (.granted, p)) ∨
      (floorsToZero units = false ∧
        p.reserve toolName iterationIndex units = (.granted, p.setCount toolName
          (plus (p.observedToolCount toolName) (normalizedUnits units))) ∧
        ∀ cap : ℕ, p.perToolCap toolName = some cap →
          plus (p.observedToolCount toolName) (normalizedUnits units) ≤ cap) := by
  unfold reserve
  split
  · exact .inl ⟨nofun, rfl⟩
  · split
    next zero => exact .inr (.inl ⟨zero, rfl⟩)
    next counted =>
      dsimp only
      split
      next cap capped =>
        split
        · exact .inl ⟨nofun, rfl⟩
        next fits =>
          refine .inr (.inr ⟨by simpa using counted, rfl, fun other same => ?_⟩)
          rw [capped] at same
          cases same
          exact not_lt.mp fits
      next uncapped =>
        refine .inr (.inr ⟨by simpa using counted, rfl, fun cap same => ?_⟩)
        rw [uncapped] at same
        cases same

end ToolBudgetPolicy

namespace Turn

variable {s : Turn}

theorem exact_start (executionMode : ExecutionMode)
    (loopLimitOverrides : ExecutionMode → Option JsNumber)
    (perToolCapOverrides : String → Option JsNumber) :
    (start executionMode loopLimitOverrides perToolCapOverrides).Exact :=
  fun _ => ⟨0, rfl, rfl, fun _ _ => Nat.zero_le _⟩

/-- The count of one tool and what is outstanding of it change together. -/
theorem Exact.change (exact : s.Exact) {toolName : String} {policy : ToolBudgetPolicy}
    {list : List JsNumber} (caps : policy.perToolCap = s.policy.perToolCap)
    (others : ∀ other, other ≠ toolName →
      policy.observedToolCount other = s.policy.observedToolCount other)
    (own : ∃ n : ℕ, policy.observedToolCount toolName = n ∧ total list = some (n : ℤ) ∧
      ∀ cap, s.policy.perToolCap toolName = some cap → n ≤ cap) :
    Exact ⟨policy, Function.update s.outstanding toolName list⟩ := by
  intro other
  by_cases same : other = toolName
  · subst same
    obtain ⟨n, count, sum, fits⟩ := own
    refine ⟨n, count, ?_, by rw [caps]; exact fits⟩
    dsimp only
    rw [Function.update_self]
    exact sum
  · obtain ⟨n, count, sum, fits⟩ := exact other
    refine ⟨n, (others other same).trans count, ?_, by rw [caps]; exact fits⟩
    dsimp only
    rw [Function.update_of_ne same]
    exact sum

theorem exact_reserve (exact : s.Exact) {toolName : String} {iterationIndex : ℕ}
    {units : JsNumber} (met : s.CountedExactly (.reserve toolName iterationIndex units)) :
    (s.step (.reserve toolName iterationIndex units)).Exact := by
  obtain ⟨refused, same⟩ | ⟨zero, granted⟩ | ⟨counted, granted, fits⟩ :=
    s.policy.reserve_cases toolName iterationIndex units
  · rw [step]
    rcases called : s.policy.reserve toolName iterationIndex units with ⟨result, policy⟩
    rw [called] at refused same
    subst same
    cases result with
    | granted => exact absurd rfl refused
    | loopLimit | perToolCap => exact exact
  · obtain ⟨q, rfl, nonneg, -⟩ := met (by rw [granted])
    obtain ⟨n, count, sum, within⟩ := exact toolName
    have floor : ⌊q⌋ = 0 := by simpa [floorsToZero] using zero
    rw [step, granted]
    refine exact.change rfl (fun _ _ => rfl) ⟨n, count, ?_, within⟩
    simp [total, floored, sum, floor]
  · obtain ⟨q, rfl, nonneg, rounds⟩ := met (by rw [granted])
    obtain ⟨n, count, sum, within⟩ := exact toolName
    have floor : ⌊q⌋ ≠ 0 := by simpa [floorsToZero] using counted
    have one : 1 ≤ q := by
      by_contra less
      exact floor (floor_eq_zero_of_lt_one nonneg less)
    have units : normalizedUnits (.finite q) = ⌊q⌋.toNat := if_pos (by linarith)
    have summed := plus_of_isDouble (rounds n count one)
    rw [count, units, summed] at fits granted
    rw [step, granted]
    refine exact.change rfl (fun other apart => ?_) ⟨n + ⌊q⌋.toNat, ?_, ?_, fun cap capped => ?_⟩
    · rw [ToolBudgetPolicy.count_setCount, if_neg apart]
    · rw [ToolBudgetPolicy.count_setCount, if_pos rfl]
    · rw [total, floored, sum]
      have whole := toNat_floor nonneg
      push_cast
      rw [whole, add_comm]
    · exact_mod_cast fits cap capped

/-- What is outstanding is a number of units. -/
def Counts (s : Turn) : Prop :=
  ∀ toolName, ∀ units ∈ s.outstanding toolName, ∃ q : ℚ, units = .finite q ∧ 0 ≤ q

theorem exact_refund (exact : s.Exact) (counts : s.Counts) {toolName : String} {units : JsNumber}
    (met : s.CountedExactly (.refund toolName units)) :
    (s.step (.refund toolName units)).Exact := by
  rw [step]
  split
  next member =>
    obtain ⟨q, rfl, nonneg, taken⟩ := met member
    obtain ⟨n, count, sum, within⟩ := exact toolName
    obtain ⟨zero, rounds⟩ := taken n count
    obtain ⟨m, floor, erased⟩ := total_erase member sum
    cases floor
    have whole := toNat_floor nonneg
    have left : s.policy.refund toolName (.finite q) =
        s.policy.setCount toolName ((n - ⌊q⌋.toNat : ℕ) : ℕ∞) := by
      rw [ToolBudgetPolicy.refund, count]
      by_cases positive : 0 < q
      · rw [normalizedUnits, if_pos positive, minus_of_isDouble rounds]
      · have none : q = 0 := le_antisymm (not_lt.mp positive) nonneg
        have nothing : IsDouble (0 - 1) := by decide +kernel
        rw [normalizedUnits, if_neg positive, zero none, minus_of_isDouble nothing, Nat.zero_sub,
          Nat.zero_sub]
    have below : 0 ≤ (n : ℤ) - ⌊q⌋ :=
      total_nonneg (fun u mem => counts toolName u (List.mem_of_mem_erase mem)) erased
    rw [left]
    refine exact.change rfl (fun other apart => ?_) ⟨n - ⌊q⌋.toNat, ?_, ?_, fun cap capped => ?_⟩
    · rw [ToolBudgetPolicy.count_setCount, if_neg apart]
    · rw [ToolBudgetPolicy.count_setCount, if_pos rfl]
    · rw [erased]
      exact congrArg some (by omega)
    · exact (Nat.sub_le ..).trans (within cap capped)
  · exact exact

theorem counts_step (counts : s.Counts) {e : Event} (met : s.CountedExactly e) :
    (s.step e).Counts := by
  intro toolName units member
  cases e with
  | reserve own iterationIndex requested =>
    rw [step] at member
    split at member
    next policy granted =>
      obtain ⟨q, is_finite, nonneg, -⟩ := met (by rw [granted])
      by_cases same : toolName = own
      · subst same
        dsimp only at member
        rw [Function.update_self] at member
        obtain rfl | earlier := List.mem_cons.mp member
        · exact ⟨q, is_finite, nonneg⟩
        · exact counts toolName units earlier
      · dsimp only at member
        rw [Function.update_of_ne same] at member
        exact counts toolName units member
    next => exact counts toolName units member
  | refund own reserved =>
    rw [step] at member
    split at member
    · by_cases same : toolName = own
      · subst same
        dsimp only at member
        rw [Function.update_self] at member
        exact counts toolName units (List.mem_of_mem_erase member)
      · dsimp only at member
        rw [Function.update_of_ne same] at member
        exact counts toolName units member
    · exact counts toolName units member

theorem reserveFrame (s : Turn) (e : Event) : s.ReserveFrame e := by
  rintro toolName iterationIndex units rfl other apart
  rw [step]
  obtain ⟨refused, same⟩ | ⟨-, granted⟩ | ⟨-, granted, -⟩ :=
    s.policy.reserve_cases toolName iterationIndex units
  · rcases called : s.policy.reserve toolName iterationIndex units with ⟨result, policy⟩
    rw [called] at refused same
    subst same
    cases result with
    | granted => exact absurd rfl refused
    | loopLimit | perToolCap => rfl
  · rw [granted]
  · rw [granted] at apart ⊢
    dsimp only
    rw [ToolBudgetPolicy.count_setCount, if_neg (apart.resolve_right (fun other => other rfl))]

end Turn

/-- In a turn whose calls are all counted exactly, the count of each tool is the sum of the floored
units of its reserves that succeeded and were not refunded, within its cap; a reserve never
changes the count of another tool, or any when it is refused. -/
theorem counts_exact {executionMode : ExecutionMode}
    {loopLimitOverrides : ExecutionMode → Option JsNumber}
    {perToolCapOverrides : String → Option JsNumber} {es : List Event}
    (met : EveryStep Turn.step Turn.CountedExactly
      (.start executionMode loopLimitOverrides perToolCapOverrides) es) :
    EveryState Turn.step Turn.Exact
        (.start executionMode loopLimitOverrides perToolCapOverrides) es ∧
      EveryStep Turn.step Turn.ReserveFrame
        (.start executionMode loopLimitOverrides perToolCapOverrides) es := by
  have kept (s : Turn) (e : Event) (sound : s.Exact ∧ s.Counts) (met : s.CountedExactly e) :
      (s.step e).Exact ∧ (s.step e).Counts := by
    refine ⟨?_, Turn.counts_step sound.2 met⟩
    cases e with
    | reserve => exact Turn.exact_reserve sound.1 met
    | refund => exact Turn.exact_refund sound.1 sound.2 met
  have start : (Turn.start executionMode loopLimitOverrides perToolCapOverrides).Exact ∧
      (Turn.start executionMode loopLimitOverrides perToolCapOverrides).Counts :=
    ⟨Turn.exact_start _ _ _, fun _ _ member => nomatch member⟩
  exact ⟨everyState_mono (fun _ sound => sound.1) (everyState_of_preserved kept start met),
    everyStep_of_forall Turn.reserveFrame _ _⟩

namespace Sample

/-- Three pages are asked for, and the second and third call come to nothing. -/
def calls : List Event :=
  [.reserve "web_fetch" 0 (.finite 1), .reserve "web_fetch" 0 (.finite (5 / 2)),
    .refund "web_fetch" (.finite (5 / 2)), .reserve "web_fetch" 1 (.finite 9)]

def turn : Turn := .start .normal (fun _ => none) (fun _ => none)

/-- One page, and then a call that asked for none and is refunded. -/
def zeroRefunded : List Event :=
  [.reserve "web_fetch" 0 (.finite 1), .reserve "web_fetch" 0 (.finite 0),
    .refund "web_fetch" (.finite 0)]

end Sample

/-- Of three calls one counts in the end: one is refunded and one goes beyond the cap. -/
theorem counts_exact_calls :
    EveryState Turn.step Turn.Exact Sample.turn Sample.calls ∧
      (run Turn.step Sample.turn Sample.calls).policy.observedToolCount "web_fetch" = (1 : ℕ) := by
  have met : EveryStep Turn.step Turn.CountedExactly
      (.start .normal (fun _ => none) (fun _ => none)) Sample.calls := by
    refine ⟨fun _ => ⟨1, rfl, by norm_num, fun n count _ => ?_⟩,
      fun _ => ⟨5 / 2, rfl, by norm_num, fun n count _ => ?_⟩,
      fun _ => ⟨5 / 2, rfl, by norm_num, fun n count => ⟨by norm_num, ?_⟩⟩,
      fun granted => ?_, trivial⟩
    · have none : (n : ℕ∞) = (0 : ℕ) := by rw [← count]; decide +kernel
      rw [ENat.natCast_inj.mp none]
      decide +kernel
    · have one : (n : ℕ∞) = (1 : ℕ) := by rw [← count]; decide +kernel
      rw [ENat.natCast_inj.mp one]
      decide +kernel
    · have three : (n : ℕ∞) = (3 : ℕ) := by rw [← count]; decide +kernel
      rw [ENat.natCast_inj.mp three]
      decide +kernel
    · refine absurd granted ?_
      decide +kernel
  exact ⟨(counts_exact met).1, by decide +kernel⟩

/-- A refund of zero units takes back one that was not refunded. -/
theorem zero_refund_takes_one :
    ¬ ∀ (executionMode : ExecutionMode) (loopLimitOverrides : ExecutionMode → Option JsNumber)
        (perToolCapOverrides : String → Option JsNumber) (es : List Event),
      EveryState Turn.step Turn.Exact
        (.start executionMode loopLimitOverrides perToolCapOverrides) es := by
  intro claimed
  obtain ⟨n, count, sum, -⟩ :=
    (claimed .normal (fun _ => none) (fun _ => none) Sample.zeroRefunded).last "web_fetch"
  have zero : (n : ℕ∞) = (0 : ℕ) := by rw [← count]; decide +kernel
  rw [ENat.natCast_inj.mp zero] at sum
  revert sum
  decide +kernel

end Persai.ToolBudget
