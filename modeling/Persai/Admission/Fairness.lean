import Mathlib.Data.List.Chain
import Mathlib.Tactic.IntervalCases
import Persai.Admission.Capacity

/-!
# Waiting classes are not passed over twice

A run is followed moment by moment, the rounds of its loops among them.

* `getLastD_moments`: the moments of an event end in the state after it;
* `pick_spec`, `select_turn`: which class a round serves, and where it leaves the cursor;
* `ahead_granted`, `ahead_kept`: a class that waits stays before one that got a shared slot;
* `bypass_bounded`: while the rounds keep to the turns, no class gets two shared slots past one
  that waits;
* `bypassed_twice`: rounds for reserved slots move the same cursor, and can break the turns.
-/

namespace Persai.Admission

open Runs Exhaust

namespace State

/-! ## Moments -/

/-- What an event does before the loop. -/
def begun (p : Policy) (s : State) : Event → State
  | .acquire t k =>
    if t ∈ s.arrivals.map Prod.fst then s
    else if p.maxQueuePerClass ≤ (s.queuedByClass k).length then
      { s with
        arrivals := s.arrivals ++ [(t, k)]
        outcomes := s.outcomes ++ [(t, .queueFull)] }
    else { s with arrivals := s.arrivals ++ [(t, k)] }.setQueue k (s.queuedByClass k ++ [t])
  | .release t =>
    match s.heldGrant t with
    | none => s
    | some k =>
      let released := { s with released := s.released ++ [t] }
      if 0 < s.inFlightByClass k then released.setInFlight k (s.inFlightByClass k - 1) else released
  | .timeout t =>
    match s.arrivals.lookup t with
    | some k => s.timeout t k
    | none => s

/-- Whether the loop runs then. -/
def dispatches (p : Policy) (s : State) : Event → Bool
  | .acquire t k =>
    t ∉ s.arrivals.map Prod.fst ∧ (s.queuedByClass k).length < p.maxQueuePerClass
  | .release t => (s.heldGrant t).isSome
  | .timeout _ => false

/-- The state after each round. -/
def rounds (p : Policy) : Nat → State → List State
  | 0, _ => []
  | n + 1, s =>
    match s.dispatchNext p with
    | some s' => s' :: rounds p n s'
    | none => []

/-- The moments of an event. -/
def moments (p : Policy) (s : State) (e : Event) : List State :=
  let begun := s.begun p e
  begun :: if s.dispatches p e then
    rounds p (total (fun k => (begun.queuedByClass k).length) + 1) begun else []

/-- The moments of a run after its first. -/
def later (p : Policy) : State → List Event → List State
  | _, [] => []
  | s, e :: es => s.moments p e ++ later p (s.step p e) es

def history (p : Policy) (es : List Event) : List State := {} :: later p {} es

/-- The class that got a slot between two moments, and whether the slot was a shared one. -/
def grantBetween (p : Policy) (s s' : State) : Option (ExecutionClass × Bool) :=
  match s'.outcomes.drop s.outcomes.length with
  | [(_, .granted k)] => some (k, p.reservedSlots k ≤ s.inFlightByClass k)
  | _ => none

def grantAt (p : Policy) (h : List State) (n : Nat) : Option (ExecutionClass × Bool) :=
  match h[n]?, h[n + 1]? with
  | some s, some s' => grantBetween p s s'
  | _, _ => none

def waitsAt (h : List State) (n : Nat) (k : ExecutionClass) : Bool :=
  h[n]?.any fun s => s.queuedByClass k ≠ []

/-- Between two shared slots of a class, every other class that waits gets a slot. -/
def BypassBounded (p : Policy) (h : List State) : Prop :=
  ∀ a b i j, a ≠ b → i < j → grantAt p h i = some (a, true) → grantAt p h j = some (a, true) →
    (∀ n ≤ j, i ≤ n → waitsAt h n b) → ∃ n < j, i < n ∧ (grantAt p h n).map Prod.fst = some b

/-- How many places after the cursor a class comes. -/
def ahead (cursor : Nat) : ExecutionClass → Nat
  | .interactiveLight => (3 - cursor) % 3
  | .interactiveHeavy => (4 - cursor) % 3
  | .background => (5 - cursor) % 3

/-- No class that waits at the cursor, its reserved slots taken, stands behind one that waits in
the next place with a reserved slot free. -/
def InTurn (p : Policy) (s : State) : Prop :=
  ∀ k ∈ executionClasses, ∀ k' ∈ executionClasses,
    ahead s.roundRobinCursor k = 0 → ahead s.roundRobinCursor k' = 1 →
    s.queuedByClass k ≠ [] → p.reservedSlots k ≤ s.inFlightByClass k →
    s.queuedByClass k' ≠ [] → p.reservedSlots k' ≤ s.inFlightByClass k'

instance (p : Policy) (s : State) : Decidable (s.InTurn p) := by
  unfold InTurn
  infer_instance

variable {p : Policy} {s s' : State}

/-! ## The moments of an event -/

theorem step_eq (p : Policy) (s : State) (e : Event) :
    s.step p e =
      if s.dispatches p e then (s.begun p e).dispatchQueuedRequests p else s.begun p e := by
  cases e with
  | acquire t k =>
    by_cases known : t ∈ s.arrivals.map Prod.fst
    · simp [step, begun, dispatches, known]
    · by_cases full : p.maxQueuePerClass ≤ (s.queuedByClass k).length
      · simp [step, acquire, begun, dispatches, known, full, Nat.not_lt.mpr full]
      · simp [step, acquire, begun, dispatches, known, full, Nat.not_le.mp full]
  | release t =>
    cases held : s.heldGrant t with
    | none => simp [step, begun, dispatches, held]
    | some k => simp [step, begun, dispatches, held, release]
  | timeout t => exact (if_neg Bool.false_ne_true).symm

theorem getLastD_rounds (p : Policy) (n : Nat) (s : State) :
    (rounds p n s).getLastD s = exhaust (dispatchNext p) n s := by
  induction n generalizing s with
  | zero => rfl
  | succ n ih =>
    unfold rounds exhaust
    cases s.dispatchNext p with
    | none => rfl
    | some s' => rw [List.getLastD_cons, ih]

/-- The last moment of an event is the state after it. -/
theorem getLastD_moments (p : Policy) (s : State) (e : Event) :
    (s.moments p e).getLastD s = s.step p e := by
  rw [step_eq, moments, List.getLastD_cons]
  split
  · exact getLastD_rounds p _ _
  · rfl

theorem sound_begun (sound : s.Sound p) (e : Event) : (s.begun p e).Sound p := by
  cases e with
  | acquire t k =>
    simp only [begun]
    split
    · exact sound
    · rename_i fresh
      split
      · exact sound_reject sound fresh k
      · exact sound_enqueue sound fresh k
  | release t =>
    simp only [begun]
    split
    · exact sound
    · rename_i k held
      obtain ⟨granted, unreleased⟩ := heldGrant_some held
      obtain ⟨positive, freed⟩ := sound_release sound granted unreleased
      rwa [if_pos positive]
  | timeout t =>
    simp only [begun]
    split
    · rename_i k found
      by_cases queued : t ∈ s.queuedByClass k
      · rw [timeout_queued sound queued]
        exact sound_timeout sound queued
      · rwa [timeout, if_neg queued]
    · exact sound

/-- Before the loop the cursor stays where it is, and nobody gets a slot. -/
theorem begun_idle (sound : s.Sound p) (e : Event) :
    (s.begun p e).roundRobinCursor = s.roundRobinCursor ∧
      grantBetween p s (s.begun p e) = none := by
  have same : grantBetween p s s = none := by simp [grantBetween]
  cases e with
  | acquire t k =>
    simp only [begun]
    split
    · exact ⟨rfl, same⟩
    · split
      · exact ⟨rfl, by simp [grantBetween]⟩
      · exact ⟨rfl, by simp [grantBetween, setQueue]⟩
  | release t =>
    simp only [begun]
    split
    · exact ⟨rfl, same⟩
    · split
      · exact ⟨rfl, by simp [grantBetween, setInFlight]⟩
      · exact ⟨rfl, by simp [grantBetween]⟩
  | timeout t =>
    simp only [begun]
    split
    · rename_i k found
      by_cases queued : t ∈ s.queuedByClass k
      · rw [timeout_queued sound queued]
        exact ⟨rfl, by simp [grantBetween]⟩
      · rw [timeout, if_neg queued]
        exact ⟨rfl, same⟩
    · exact ⟨rfl, same⟩

/-! ## The cursor -/

/-- The first candidate from the cursor on is chosen, and the cursor moves behind it. -/
theorem pick_spec {candidates : List ExecutionClass} {cursor next : Nat} {k : ExecutionClass}
    (low : cursor < 3) (picked : pickRoundRobinCandidate candidates cursor = some (k, next)) :
    next < 3 ∧ (∀ k' ∈ candidates, ahead cursor k ≤ ahead cursor k') ∧
      ∀ k', ahead next k' = (ahead cursor k' + 2 - ahead cursor k) % 3 := by
  have member := pick_mem picked
  have range : List.range sharedOrder.length = [0, 1, 2] := rfl
  rw [pickRoundRobinCandidate, if_neg (by simpa using List.ne_nil_of_mem member), range] at picked
  interval_cases cursor <;> by_cases light : .interactiveLight ∈ candidates <;>
    by_cases heavy : .interactiveHeavy ∈ candidates <;>
    by_cases background : .background ∈ candidates <;>
    first
    | (simp [sharedOrder, light, heavy, background] at picked
       obtain ⟨rfl, rfl⟩ := picked
       refine ⟨by decide, ?_, ?_⟩ <;> intro k' <;> cases k' <;> simp [ahead, *])
    | cases k <;> contradiction

theorem ahead_injective {cursor : Nat} (low : cursor < 3) : Function.Injective (ahead cursor) := by
  intro a b
  interval_cases cursor <;> cases a <;> cases b <;> decide

theorem ahead_le (cursor : Nat) (k : ExecutionClass) : ahead cursor k ≤ 2 := by
  cases k <;> exact Nat.le_of_lt_succ (Nat.mod_lt _ (by decide))

/-- The chosen class is the next one that waits, or one with a reserved slot free goes before
those whose reserved slots are taken. -/
theorem select_turn {k : ExecutionClass} {next : Nat} (low : s.roundRobinCursor < 3)
    (selected : s.selectNextDispatchClass p = some (k, next)) :
    next < 3 ∧
    (∀ k', ahead next k' =
      (ahead s.roundRobinCursor k' + 2 - ahead s.roundRobinCursor k) % 3) ∧
    ∀ k', s.queuedByClass k' ≠ [] →
      ahead s.roundRobinCursor k ≤ ahead s.roundRobinCursor k' ∨
        (s.inFlightByClass k < p.reservedSlots k ∧ p.reservedSlots k' ≤ s.inFlightByClass k') := by
  unfold selectNextDispatchClass at selected
  dsimp only at selected
  split at selected
  · obtain ⟨low', first, moved⟩ := pick_spec low selected
    refine ⟨low', moved, fun k' queued => ?_⟩
    rcases Nat.lt_or_ge (s.inFlightByClass k') (p.reservedSlots k') with free | taken
    · exact .inl (first k' (List.mem_filter.mpr
        ⟨mem_classesWithQueuedRequests.mpr queued, decide_eq_true free⟩))
    · exact .inr ⟨of_decide_eq_true (List.mem_filter.mp (pick_mem selected)).2, taken⟩
  · split at selected
    · cases selected
    · split at selected
      · cases selected
      · obtain ⟨low', first, moved⟩ := pick_spec low selected
        refine ⟨low', moved, fun k' queued => .inl (first k' ?_)⟩
        exact mem_classesWithQueuedRequests.mpr queued

/-! ## A class that waits comes before the one that got a shared slot -/

/-- What holds of every moment. -/
structure Fit (p : Policy) (s : State) : Prop where
  sound : s.Sound p
  low : s.roundRobinCursor < 3

/-- One moment after another: what an event does first, or a round. -/
structure Moment (p : Policy) (s s' : State) : Prop where
  fit : s.Fit p
  next : (s'.roundRobinCursor = s.roundRobinCursor ∧ grantBetween p s s' = none) ∨
    s.dispatchNext p = some s'

/-- The cursor after a round, and the grant. -/
theorem round_spec (fit : s.Fit p) (round : s.dispatchNext p = some s') :
    ∃ k, s.selectNextDispatchClass p = some (k, s'.roundRobinCursor) ∧
      s.queuedByClass k ≠ [] ∧
      grantBetween p s s' = some (k, decide (p.reservedSlots k ≤ s.inFlightByClass k)) := by
  obtain ⟨k, t, queue, cursor, selected, queued, rfl⟩ := dispatchNext_grant fit.sound round
  exact ⟨k, selected, by simp [queued], by simp [grantBetween, grant]⟩

theorem fit_round (fit : s.Fit p) (round : s.dispatchNext p = some s') : s'.Fit p := by
  obtain ⟨k, selected, -, -⟩ := round_spec fit round
  exact ⟨sound_dispatchNext fit.sound round, (select_turn fit.low selected).1⟩

/-- After a shared slot of one class every other class comes before it. -/
theorem ahead_granted {a b : ExecutionClass} (moment : Moment p s s')
    (granted : grantBetween p s s' = some (a, true)) (other : a ≠ b) :
    ahead s'.roundRobinCursor b < ahead s'.roundRobinCursor a := by
  obtain ⟨-, idle⟩ | round := moment.next
  · rw [idle] at granted
    cases granted
  · obtain ⟨k, selected, -, given⟩ := round_spec moment.fit round
    obtain ⟨low, moved, -⟩ := select_turn moment.fit.low selected
    rw [given] at granted
    obtain rfl : k = a := (Prod.mk.inj (Option.some.inj granted)).1
    have last := moved k
    rw [Nat.add_sub_cancel_left] at last
    have bound := ahead_le s'.roundRobinCursor b
    have apart : ahead s'.roundRobinCursor k ≠ ahead s'.roundRobinCursor b :=
      fun eq => other (ahead_injective low eq)
    omega

/-- While a class waits and gets no slot, the class behind it gets no shared slot and stays
behind it. -/
theorem ahead_kept {a b : ExecutionClass} (moment : Moment p s s') (turn : s.InTurn p)
    (waits : s.queuedByClass b ≠ [])
    (behind : ahead s.roundRobinCursor b < ahead s.roundRobinCursor a)
    (passed : (grantBetween p s s').map Prod.fst ≠ some b) :
    ahead s'.roundRobinCursor b < ahead s'.roundRobinCursor a ∧
      grantBetween p s s' ≠ some (a, true) := by
  obtain ⟨same, idle⟩ | round := moment.next
  · rw [same, idle]
    exact ⟨behind, nofun⟩
  · obtain ⟨k, selected, queued, given⟩ := round_spec moment.fit round
    obtain ⟨-, moved, first⟩ := select_turn moment.fit.low selected
    rw [given] at passed ⊢
    have other : ahead s.roundRobinCursor k ≠ ahead s.roundRobinCursor b := fun eq =>
      passed (congrArg some (ahead_injective moment.fit.low eq))
    have bound := ahead_le s.roundRobinCursor
    rw [moved, moved]
    have boundA := bound a
    have boundK := bound k
    rcases first b waits with earlier | ⟨free, taken⟩
    · refine ⟨by omega, fun eq => ?_⟩
      obtain rfl : k = a := (Prod.mk.inj (Option.some.inj eq)).1
      omega
    · -- a class one place behind `b` would be out of turn
      have outOfTurn : ¬ (ahead s.roundRobinCursor b = 0 ∧ ahead s.roundRobinCursor k = 1) :=
        fun ⟨zero, one⟩ => absurd (turn b (by cases b <;> decide) k (by cases k <;> decide)
          zero one waits taken queued) (Nat.not_le.mpr free)
      have reserved : ¬ p.reservedSlots k ≤ s.inFlightByClass k := Nat.not_le.mpr free
      refine ⟨?_, fun eq => reserved (of_decide_eq_true (Prod.mk.inj (Option.some.inj eq)).2)⟩
      omega

/-! ## Runs -/

theorem isChain_rounds (fit : s.Fit p) (n : Nat) : (s :: rounds p n s).IsChain (Moment p) := by
  induction n generalizing s with
  | zero => exact .singleton _
  | succ n ih =>
    unfold rounds
    split
    · rename_i s' round
      exact .cons_cons ⟨fit, .inr round⟩ (ih (fit_round fit round))
    · exact .singleton _

theorem fit_rounds (fit : s.Fit p) (n : Nat) : ((rounds p n s).getLastD s).Fit p := by
  rw [getLastD_rounds]
  exact exhaust_preserved (fun _ _ => fit_round) n fit

theorem fit_begun (fit : s.Fit p) (e : Event) : (s.begun p e).Fit p :=
  ⟨sound_begun fit.sound e, (begun_idle fit.sound e).1 ▸ fit.low⟩

theorem isChain_moments (fit : s.Fit p) (e : Event) :
    (s :: s.moments p e).IsChain (Moment p) ∧ ((s.moments p e).getLastD s).Fit p := by
  unfold moments
  have begin : Moment p s (s.begun p e) := ⟨fit, .inl (begun_idle fit.sound e)⟩
  dsimp only
  rw [List.getLastD_cons]
  split
  · exact ⟨.cons_cons begin (isChain_rounds (fit_begun fit e) _), fit_rounds (fit_begun fit e) _⟩
  · exact ⟨.cons_cons begin (.singleton _), fit_begun fit e⟩

theorem isChain_append_of_last {R : State → State → Prop} {l l' : List State} {s : State}
    (chain : (s :: l).IsChain R) (rest : (l.getLastD s :: l').IsChain R) :
    (s :: (l ++ l')).IsChain R := by
  induction l generalizing s with
  | nil => exact rest
  | cons s' l ih =>
    rw [List.getLastD_cons] at rest
    rw [List.isChain_cons_cons] at chain
    exact .cons_cons chain.1 (ih chain.2 rest)

theorem isChain_later (fit : s.Fit p) (es : List Event) :
    (s :: later p s es).IsChain (Moment p) := by
  induction es generalizing s with
  | nil => exact .singleton _
  | cons e es ih =>
    obtain ⟨chain, fit'⟩ := isChain_moments fit e
    refine isChain_append_of_last chain ?_
    rw [getLastD_moments] at fit' ⊢
    exact ih fit'

theorem fit_start (p : Policy) : ({} : State).Fit p := ⟨(sound_start p).1, by decide⟩

theorem grantAt_eq {h : List State} {n : Nat} (bound : n + 1 < h.length) :
    grantAt p h n = grantBetween p h[n] h[n + 1] := by
  rw [grantAt, List.getElem?_eq_getElem (Nat.lt_of_succ_lt bound), List.getElem?_eq_getElem bound]

theorem waitsAt_eq {h : List State} {n : Nat} (bound : n < h.length) (k : ExecutionClass) :
    waitsAt h n k = true ↔ h[n].queuedByClass k ≠ [] := by
  rw [waitsAt, List.getElem?_eq_getElem bound]
  simp

theorem length_of_grantAt {h : List State} {n : Nat} {g : ExecutionClass × Bool}
    (granted : grantAt p h n = some g) : n + 1 < h.length := by
  unfold grantAt at granted
  split at granted
  · rename_i next
    exact (List.getElem?_eq_some_iff.mp next).1
  · cases granted

/-- A class that waits comes before one that got a shared slot, in every moment until it gets a
slot of its own. -/
theorem ahead_of_moments {h : List State} {a b : ExecutionClass} {i j : Nat}
    (chain : h.IsChain (Moment p)) (turns : ∀ s ∈ h, s.InTurn p) (other : a ≠ b)
    (granted : grantAt p h i = some (a, true)) (later : i < j) (bound : j < h.length)
    (waits : ∀ n < j, i < n → waitsAt h n b)
    (passed : ∀ n < j, i < n → (grantAt p h n).map Prod.fst ≠ some b) :
    ahead h[j].roundRobinCursor b < ahead h[j].roundRobinCursor a := by
  induction j, later using Nat.le_induction with
  | base =>
    rw [grantAt_eq bound] at granted
    exact ahead_granted (chain.getElem i bound) granted other
  | succ j later ih =>
    have behind := ih (Nat.lt_of_succ_lt bound) (fun n low => waits n (Nat.lt_succ_of_lt low))
      (fun n low => passed n (Nat.lt_succ_of_lt low))
    have waits := waits j (Nat.lt_succ_self j) later
    have passed := passed j (Nat.lt_succ_self j) later
    rw [waitsAt_eq (Nat.lt_of_succ_lt bound)] at waits
    rw [grantAt_eq bound] at passed
    exact (ahead_kept (chain.getElem j bound) (turns _ (List.getElem_mem _)) waits behind passed).1

end State

open State

/-- Under every policy and in every run whose rounds all serve the classes in turn: between two
shared slots of a class, every other class that waits all the while gets a slot. -/
theorem bypass_bounded (p : Policy) (es : List Event)
    (turns : ∀ s ∈ history p es, s.InTurn p) : BypassBounded p (history p es) := by
  intro a b i j other later first second waits
  have chain : (history p es).IsChain (Moment p) := isChain_later (fit_start p) es
  by_contra passed
  push Not at passed
  have bound := length_of_grantAt second
  have behind := ahead_of_moments chain turns other first later (Nat.lt_of_succ_lt bound)
    (fun n low high => waits n low.le high.le) passed
  have waits := waits j le_rfl later.le
  rw [waitsAt_eq (Nat.lt_of_succ_lt bound)] at waits
  -- this grant is none of the class that waits, as it is one of the other
  have passed : (grantAt p (history p es) j).map Prod.fst ≠ some b :=
    fun eq => other (Option.some.inj (by rwa [second] at eq))
  rw [grantAt_eq bound] at passed second
  exact (ahead_kept (chain.getElem j bound) (turns _ (List.getElem_mem _)) waits behind passed).2
    second

/-- A policy with a slot for all and one for background work. -/
def onePlusOne : Policy where
  maxConcurrent := 2
  queueTimeoutMs := 12000
  maxQueuePerClass := 32
  reservedSlots := perClass 0 0 1
  maxConcurrent_pos := by decide
  queueTimeoutMs_pos := defaultPolicy.queueTimeoutMs_pos
  maxQueuePerClass_pos := defaultPolicy.maxQueuePerClass_pos
  reserved_le := by decide

/-- Calls and releases in which two classes take turns at the shared slot. -/
def inTurn : List Event :=
  [.acquire 1 .interactiveHeavy, .acquire 2 .interactiveHeavy, .acquire 3 .interactiveHeavy,
    .acquire 4 .interactiveLight, .acquire 5 .interactiveLight, .release 1, .release 4, .release 2]

/-- A heavy request waits while the light requests 4 and 5 get the shared slot; between them the
heavy class has got it. -/
theorem bypass_bounded_turns :
    ∃ n < 11, 7 < n ∧
      (grantAt onePlusOne (history onePlusOne inTurn) n).map Prod.fst = some .interactiveHeavy :=
  bypass_bounded onePlusOne inTurn (by decide +kernel) .interactiveLight .interactiveHeavy 7 11
    (by decide) (by decide) (by decide +kernel) (by decide +kernel) (by decide +kernel)

/-- Calls and releases in which background work takes its slot before a heavy request. -/
def backgroundFirst : List Event :=
  [.acquire 1 .interactiveLight, .acquire 2 .interactiveHeavy, .acquire 3 .interactiveLight,
    .acquire 4 .background, .release 1, .acquire 5 .interactiveLight, .release 4,
    .acquire 6 .background, .release 3]

/-- The heavy request 2 waits while the light requests 3 and 5 get the shared slot: between them
the background request 6 gets the reserved slot, which moves the cursor past the heavy class. -/
theorem bypassed_twice :
    ¬ ∀ (p : Policy) (es : List Event), BypassBounded p (history p es) := by
  intro bounded
  have between := bounded onePlusOne backgroundFirst .interactiveLight .interactiveHeavy 7 13
    (by decide) (by decide) (by decide +kernel) (by decide +kernel) (by decide +kernel)
  exact absurd between (by decide +kernel)

end Persai.Admission
