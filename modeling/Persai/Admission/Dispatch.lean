import Mathlib.Logic.Function.Basic
import Mathlib.Algebra.GroupWithZero.Nat
import Mathlib.Algebra.Order.Ring.Unbundled.Rat
import Persai.Exhaust

/-!
# Admission of executions

Executions of three classes share a number of slots. Each class has slots reserved for
it and a queue; the other slots go to the classes in turn. A request waits until it is
granted a slot or its timer fires, and a grant is released once.
-/

namespace Persai.Admission

/-- `RuntimeExecutionClass`. -/
inductive ExecutionClass where
  | interactiveLight | interactiveHeavy | background
  deriving DecidableEq, Repr

def ExecutionClass.name : ExecutionClass → String
  | .interactiveLight => "interactive_light"
  | .interactiveHeavy => "interactive_heavy"
  | .background => "background"

/-- `RUNTIME_EXECUTION_CLASSES`. -/
def executionClasses : List ExecutionClass := [.interactiveLight, .interactiveHeavy, .background]

/-- `SHARED_EXECUTION_CLASS_ORDER`. -/
def sharedOrder : List ExecutionClass := [.interactiveLight, .interactiveHeavy, .background]

/-- A `reduce` over the classes. -/
def total (f : ExecutionClass → Nat) : Nat := (executionClasses.map f).sum

/-- A record over the classes. -/
def perClass {α : Type} (light heavy background : α) : ExecutionClass → α
  | .interactiveLight => light
  | .interactiveHeavy => heavy
  | .background => background

/-- `RuntimeExecutionAdmissionPolicy`, before it is checked. -/
structure RawPolicy where
  maxConcurrent : ℚ
  queueTimeoutMs : ℚ
  maxQueuePerClass : ℚ
  reservedSlots : ExecutionClass → ℚ

/-- A policy that `assertPolicy` accepts. -/
structure Policy where
  maxConcurrent : Nat
  queueTimeoutMs : Nat
  maxQueuePerClass : Nat
  reservedSlots : ExecutionClass → Nat
  maxConcurrent_pos : 0 < maxConcurrent
  queueTimeoutMs_pos : 0 < queueTimeoutMs
  maxQueuePerClass_pos : 0 < maxQueuePerClass
  reserved_le : total reservedSlots ≤ maxConcurrent

def assertPositive (field : String) (x : ℚ) : Except String { n : Nat // 0 < n } :=
  if h : x.isInt ∧ 0 < x then
    .ok ⟨x.num.toNat, by have := Rat.num_pos.mpr h.2; omega⟩
  else .error s!"Runtime execution admission {field} must be a positive integer."

def assertSlots (k : ExecutionClass) (x : ℚ) : Except String Nat :=
  if x.isInt ∧ 0 ≤ x then .ok x.num.toNat
  else .error <| "Runtime execution admission reserved slot count must be " ++
    s!"a non-negative integer for \"{k.name}\"."

def assertPolicy (raw : RawPolicy) : Except String Policy := do
  let maxConcurrent ← assertPositive "maxConcurrent" raw.maxConcurrent
  let queueTimeoutMs ← assertPositive "queueTimeoutMs" raw.queueTimeoutMs
  let maxQueuePerClass ← assertPositive "maxQueuePerClass" raw.maxQueuePerClass
  let light ← assertSlots .interactiveLight (raw.reservedSlots .interactiveLight)
  let heavy ← assertSlots .interactiveHeavy (raw.reservedSlots .interactiveHeavy)
  let background ← assertSlots .background (raw.reservedSlots .background)
  let reservedSlots := perClass light heavy background
  if h : total reservedSlots ≤ maxConcurrent then
    return {
      maxConcurrent, queueTimeoutMs, maxQueuePerClass, reservedSlots
      maxConcurrent_pos := maxConcurrent.2
      queueTimeoutMs_pos := queueTimeoutMs.2
      maxQueuePerClass_pos := maxQueuePerClass.2
      reserved_le := h }
  else
    throw <| s!"Runtime execution admission reserved slots ({total reservedSlots}) exceed " ++
      s!"maxConcurrent ({maxConcurrent.1})."

/-- `DEFAULT_RUNTIME_EXECUTION_ADMISSION_POLICY`. -/
def defaultPolicy : Policy where
  maxConcurrent := 12
  queueTimeoutMs := 12000
  maxQueuePerClass := 32
  reservedSlots := perClass 2 1 1
  maxConcurrent_pos := by decide
  queueTimeoutMs_pos := by decide
  maxQueuePerClass_pos := by decide
  reserved_le := by decide

/-- A policy as it was before the check. -/
def Policy.raw (p : Policy) : RawPolicy :=
  ⟨p.maxConcurrent, p.queueTimeoutMs, p.maxQueuePerClass, fun k => p.reservedSlots k⟩

/-- One call of `acquire`, and the request and the grant that come of it. -/
abbrev Token := Nat

inductive Outcome where
  | granted (executionClass : ExecutionClass)
  | queueFull
  | timedOut
  deriving DecidableEq, Repr

structure State where
  queuedByClass : ExecutionClass → List Token := fun _ => []
  inFlightByClass : ExecutionClass → Nat := fun _ => 0
  roundRobinCursor : Nat := 0
  /-- What callers see: the calls in the order they came, their outcomes as they got
  them, and the grants they have released. -/
  arrivals : List (Token × ExecutionClass) := []
  outcomes : List (Token × Outcome) := []
  released : List Token := []

inductive Event where
  | acquire (token : Token) (executionClass : ExecutionClass)
  | release (token : Token)
  | timeout (token : Token)
  deriving DecidableEq, Repr

/-- `sharedSlotCapacity`. -/
def Policy.sharedSlotCapacity (p : Policy) : Nat := p.maxConcurrent - total p.reservedSlots

namespace State

def totalInFlightCount (s : State) : Nat := total s.inFlightByClass

def reservedSlotsInUse (p : Policy) (s : State) : Nat :=
  total fun k => min (s.inFlightByClass k) (p.reservedSlots k)

def sharedSlotsInUse (p : Policy) (s : State) : Nat :=
  s.totalInFlightCount - s.reservedSlotsInUse p

def classesWithQueuedRequests (s : State) : List ExecutionClass :=
  sharedOrder.filter fun k => 0 < (s.queuedByClass k).length

/-- `pickRoundRobinCandidate`: the class, and the cursor after it. -/
def pickRoundRobinCandidate (candidates : List ExecutionClass) (cursor : Nat) :
    Option (ExecutionClass × Nat) :=
  if candidates.length = 0 then none
  else
    ((List.range sharedOrder.length).findSome? fun offset =>
      let classIndex := (cursor + offset) % sharedOrder.length
      match sharedOrder[classIndex]? with
      | some k =>
        if k ∈ candidates then some (k, (classIndex + 1) % sharedOrder.length) else none
      | none => none).or
    (candidates.head?.map (·, cursor))

def selectNextDispatchClass (p : Policy) (s : State) : Option (ExecutionClass × Nat) :=
  let reservedCandidates := s.classesWithQueuedRequests.filter fun k =>
    s.inFlightByClass k < p.reservedSlots k
  if 0 < reservedCandidates.length then
    pickRoundRobinCandidate reservedCandidates s.roundRobinCursor
  else if p.sharedSlotCapacity ≤ s.sharedSlotsInUse p then none
  else if s.classesWithQueuedRequests.length = 0 then none
  else pickRoundRobinCandidate s.classesWithQueuedRequests s.roundRobinCursor

def settled (s : State) (t : Token) : Prop := t ∈ s.outcomes.map Prod.fst

instance (s : State) (t : Token) : Decidable (s.settled t) := inferInstanceAs (Decidable (_ ∈ _))

/-- `resolve` and `reject` of a request. -/
def settle (s : State) (t : Token) (o : Outcome) : State :=
  if s.settled t then s else { s with outcomes := s.outcomes ++ [(t, o)] }

def setQueue (s : State) (k : ExecutionClass) (queue : List Token) : State :=
  { s with queuedByClass := Function.update s.queuedByClass k queue }

def setInFlight (s : State) (k : ExecutionClass) (n : Nat) : State :=
  { s with inFlightByClass := Function.update s.inFlightByClass k n }

/-- A round of the loop of `dispatchQueuedRequests`. -/
def dispatchNext (p : Policy) (s : State) : Option State :=
  if s.totalInFlightCount < p.maxConcurrent then
    (s.selectNextDispatchClass p).map fun (k, cursor) =>
      let s := { s with roundRobinCursor := cursor }
      match s.queuedByClass k with
      | [] => s
      | t :: queue =>
        let s := s.setQueue k queue
        if s.settled t then s
        else (s.setInFlight k (s.inFlightByClass k + 1)).settle t (.granted k)
  else none

/-- There are at most as many rounds as requests in the queues. -/
def dispatchQueuedRequests (p : Policy) (s : State) : State :=
  exhaust (dispatchNext p) (total (fun k => (s.queuedByClass k).length) + 1) s

def acquire (p : Policy) (s : State) (t : Token) (k : ExecutionClass) : State :=
  let s := { s with arrivals := s.arrivals ++ [(t, k)] }
  if p.maxQueuePerClass ≤ (s.queuedByClass k).length then
    { s with outcomes := s.outcomes ++ [(t, .queueFull)] }
  else (s.setQueue k (s.queuedByClass k ++ [t])).dispatchQueuedRequests p

def release (p : Policy) (s : State) (t : Token) (k : ExecutionClass) : State :=
  let s := { s with released := s.released ++ [t] }
  let current := s.inFlightByClass k
  (if 0 < current then s.setInFlight k (current - 1) else s).dispatchQueuedRequests p

/-- The timer of a request: `removeQueuedRequest`, then `reject`. -/
def timeout (s : State) (t : Token) (k : ExecutionClass) : State :=
  if t ∈ s.queuedByClass k then
    (s.setQueue k ((s.queuedByClass k).erase t)).settle t .timedOut
  else s

/-- The class of a grant that is still held. -/
def heldGrant (s : State) (t : Token) : Option ExecutionClass :=
  match s.outcomes.lookup t with
  | some (.granted k) => if t ∈ s.released then none else some k
  | _ => none

/-- A call of `acquire` comes once, and the holder of a grant releases it once. -/
def step (p : Policy) (s : State) : Event → State
  | .acquire t k => if t ∈ s.arrivals.map Prod.fst then s else s.acquire p t k
  | .release t =>
    match s.heldGrant t with
    | some k => s.release p t k
    | none => s
  | .timeout t =>
    match s.arrivals.lookup t with
    | some k => s.timeout t k
    | none => s

end State

end Persai.Admission
