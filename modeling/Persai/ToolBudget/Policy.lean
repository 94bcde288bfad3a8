import Mathlib.Algebra.Order.Floor.Ring
import Mathlib.Data.ENat.Basic
import Mathlib.Data.Rat.Floor
import Persai.Runs

/-!
# The tool budget of a turn

`ToolBudgetPolicy`: how many units of each tool a turn has reserved. A number is a rational one, an
infinity or none, and a sum is the double nearest to it.
-/

namespace Persai.ToolBudget

/-- A value of the type `number`. -/
inductive JsNumber
  | finite (q : ℚ)
  | posInf | negInf | nan
  deriving DecidableEq

/-- The number with 53 significant bits that is nearest, the even one of two. -/
def nearest (n : ℕ) : ℕ :=
  let unit := 2 ^ (n.log2 - 52)
  let quotient := n / unit
  let rest := n % unit
  if 2 * rest < unit then quotient * unit
  else if unit < 2 * rest then (quotient + 1) * unit
  else if quotient % 2 = 0 then quotient * unit
  else (quotient + 1) * unit

/-- The double of a natural number, which may be infinite. -/
def double (n : ℕ) : ℕ∞ := if nearest n < 2 ^ 1024 then (nearest n : ℕ∞) else ⊤

def IsDouble (n : ℕ) : Prop := double n = n

instance (n : ℕ) : Decidable (IsDouble n) := inferInstanceAs (Decidable (_ = _))

example : double (2 ^ 53 + 1) = (2 ^ 53 : ℕ) := by decide +kernel

inductive ExecutionMode
  | normal | premium | reasoning
  deriving DecidableEq

def toolLoopLimitByMode : ExecutionMode → ℕ
  | .normal => 3
  | .premium => 4
  | .reasoning => 8

def toolHardCapPerTurn : List (String × ℕ) :=
  [("web_fetch", 5), ("web_search", 3), ("image_generate", 1), ("image_edit", 1),
    ("video_generate", 1), ("tts", 3), ("browser", 3), ("exec", 5), ("shell", 5), ("files", 10),
    ("grep", 10), ("glob", 10), ("scheduled_action", 5), ("background_task", 5),
    ("knowledge_search", 5), ("knowledge_fetch", 10), ("memory_write", 10), ("email_send", 3)]

structure ToolBudgetPolicy where
  executionMode : ExecutionMode
  loopLimitOverrides : ExecutionMode → Option JsNumber
  perToolCapOverrides : String → Option JsNumber
  perToolCounts : String → ℕ∞

inductive Reservation
  | granted
  | loopLimit (limit observed : ℕ)
  | perToolCap (limit : ℕ) (observed : ℕ∞)
  deriving DecidableEq

/-- A positive override, or the default. -/
def resolveOverride {α : Type} (override : Option JsNumber) (floored : ℕ → α) (default : α) : α :=
  match override with
  | some (.finite q) => if 0 < q then floored ⌊q⌋.toNat else default
  | _ => default

def resolveLoopLimit (mode : ExecutionMode) (overrides : ExecutionMode → Option JsNumber) : ℕ :=
  resolveOverride (overrides mode) id (toolLoopLimitByMode mode)

def resolvePerToolCap (toolName : String) (overrides : String → Option JsNumber) : Option ℕ :=
  resolveOverride (overrides toolName) some (toolHardCapPerTurn.lookup toolName)

/-- The units that are counted. -/
def normalizedUnits : JsNumber → ℕ
  | .finite q => if 0 < q then ⌊q⌋.toNat else 1
  | _ => 1

/-- A finite number whose floor is zero. -/
def floorsToZero : JsNumber → Bool
  | .finite q => ⌊q⌋ = 0
  | _ => false

def plus (count : ℕ∞) (units : ℕ) : ℕ∞ :=
  match count with
  | some n => double (n + units)
  | none => ⊤

/-- `Math.max(0, count - units)`. -/
def minus (count : ℕ∞) (units : ℕ) : ℕ∞ :=
  match count with
  | some n => double (n - units)
  | none => ⊤

namespace ToolBudgetPolicy

variable (p : ToolBudgetPolicy)

def loopLimit : ℕ := resolveLoopLimit p.executionMode p.loopLimitOverrides

def perToolCap (toolName : String) : Option ℕ := resolvePerToolCap toolName p.perToolCapOverrides

def observedToolCount (toolName : String) : ℕ∞ := p.perToolCounts toolName

def setCount (toolName : String) (count : ℕ∞) : ToolBudgetPolicy :=
  { p with perToolCounts := Function.update p.perToolCounts toolName count }

def reserve (toolName : String) (iterationIndex : ℕ) (requestedUnits : JsNumber) :
    Reservation × ToolBudgetPolicy :=
  if p.loopLimit ≤ iterationIndex then (.loopLimit p.loopLimit (iterationIndex + 1), p)
  else if floorsToZero requestedUnits then (.granted, p)
  else
    let sum := plus (p.observedToolCount toolName) (normalizedUnits requestedUnits)
    match p.perToolCap toolName with
    | some cap =>
      if (cap : ℕ∞) < sum then (.perToolCap cap sum, p) else (.granted, p.setCount toolName sum)
    | none => (.granted, p.setCount toolName sum)

def refund (toolName : String) (reservedUnits : JsNumber) : ToolBudgetPolicy :=
  p.setCount toolName (minus (p.observedToolCount toolName) (normalizedUnits reservedUnits))

end ToolBudgetPolicy

/-! ## Turns -/

/-- The policy of a turn, and for each tool the units of the successful reserves that have not been
refunded. -/
structure Turn where
  policy : ToolBudgetPolicy
  outstanding : String → List JsNumber

inductive Event
  | reserve (toolName : String) (iterationIndex : ℕ) (requestedUnits : JsNumber)
  | refund (toolName : String) (reservedUnits : JsNumber)
  deriving DecidableEq

namespace Turn

def start (executionMode : ExecutionMode) (loopLimitOverrides : ExecutionMode → Option JsNumber)
    (perToolCapOverrides : String → Option JsNumber) : Turn :=
  ⟨⟨executionMode, loopLimitOverrides, perToolCapOverrides, fun _ => 0⟩, fun _ => []⟩

/-- Only what is outstanding is refunded. -/
def step (s : Turn) : Event → Turn
  | .reserve toolName iterationIndex requestedUnits =>
    match s.policy.reserve toolName iterationIndex requestedUnits with
    | (.granted, policy) =>
      ⟨policy, Function.update s.outstanding toolName
        (requestedUnits :: s.outstanding toolName)⟩
    | (_, policy) => { s with policy }
  | .refund toolName reservedUnits =>
    if reservedUnits ∈ s.outstanding toolName then
      ⟨s.policy.refund toolName reservedUnits, Function.update s.outstanding toolName
        ((s.outstanding toolName).erase reservedUnits)⟩
    else s

end Turn

/-! ## What the counts are to be -/

def floored : JsNumber → Option ℤ
  | .finite q => some ⌊q⌋
  | _ => none

/-- The sum of the floored units, where there is one. -/
def total : List JsNumber → Option ℤ
  | [] => some 0
  | units :: rest =>
    match floored units, total rest with
    | some n, some m => some (n + m)
    | _, _ => none

namespace Turn

variable (s : Turn)

/-- The count of each tool is the sum of what is outstanding, within its cap. -/
def Exact : Prop :=
  ∀ toolName, ∃ n : ℕ, s.policy.observedToolCount toolName = n ∧
    total (s.outstanding toolName) = some (n : ℤ) ∧
    ∀ cap, s.policy.perToolCap toolName = some cap → n ≤ cap

/-- A reserve changes the count of its own tool only, and of none when it is refused. -/
def ReserveFrame (e : Event) : Prop :=
  ∀ toolName iterationIndex requestedUnits, e = .reserve toolName iterationIndex requestedUnits →
    ∀ other, other ≠ toolName ∨
        (s.policy.reserve toolName iterationIndex requestedUnits).1 ≠ .granted →
      (s.step e).policy.observedToolCount other = s.policy.observedToolCount other

/-- The units of a call are counted as they are: none are negative or not finite, none are zero
when there is something to take back, and no sum is rounded. -/
def CountedExactly : Event → Prop
  | .reserve toolName iterationIndex requestedUnits =>
    (s.policy.reserve toolName iterationIndex requestedUnits).1 = .granted →
      ∃ q : ℚ, requestedUnits = .finite q ∧ 0 ≤ q ∧
        ∀ n : ℕ, s.policy.observedToolCount toolName = n → 1 ≤ q → IsDouble (n + ⌊q⌋.toNat)
  | .refund toolName reservedUnits =>
    reservedUnits ∈ s.outstanding toolName →
      ∃ q : ℚ, reservedUnits = .finite q ∧ 0 ≤ q ∧
        ∀ n : ℕ, s.policy.observedToolCount toolName = n →
          (q = 0 → n = 0) ∧ IsDouble (n - ⌊q⌋.toNat)

end Turn

end Persai.ToolBudget
