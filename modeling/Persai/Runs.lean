import Mathlib.Data.Nat.Notation

/-!
# Runs of a labelled step function

A system is a total step function `step : σ → ε → σ`. Everything the
environment decides (a clock reading, a fresh token, which of two callers comes
first) is part of the event, so that a run is a list of events and quantifying
over all lists quantifies over all interleavings.

* `EveryStep P` and `EveryState P`: a property of each transition, of each state
  of a run;
* `everyState_of_preserved`, `everyStep_of_preserved`: invariants of the runs
  whose steps all meet a condition, `everyState_iff_of_preserved` where the
  condition is exact; `everyState_iff_of_invariant` and `run_iff_of_invariant` under an
  invariant of all runs,
  `everyState_and_everyStep_iff` for states and steps together;
* `Since`, `since_of_stable`: what holds from a moment on; `since_iff_of_same`, the condition
  on the steps from that moment on;
* `AtMostOnce`, `atMostOnce_of_stable`: what a run does at most once;
* `collect`: what the steps of a run add up to;
* `SomeStep`, `countSteps` and `someStep_of_countSteps`: what some step of a run brings about, once
  enough of its steps have brought it nearer;
* `reflects_everyStep`: a condition on steps that an invariant of the reached
  states gives back.
-/

namespace Runs

variable {σ ε : Type}

/-- The state after the events `es`. -/
def run (step : σ → ε → σ) (s : σ) (es : List ε) : σ := es.foldl step s

/-- `P` holds of every transition: the state before it and its event. -/
def EveryStep (step : σ → ε → σ) (P : σ → ε → Prop) : σ → List ε → Prop
  | _, [] => True
  | s, e :: es => P s e ∧ EveryStep step P (step s e) es

/-- `P` holds in every state of the run, the first and the last included. -/
def EveryState (step : σ → ε → σ) (P : σ → Prop) : σ → List ε → Prop
  | s, [] => P s
  | s, e :: es => P s ∧ EveryState step P (step s e) es

/-- Once `Q` has held, `P` holds from that state on. -/
def Since (step : σ → ε → σ) (Q P : σ → Prop) : σ → List ε → Prop
  | s, [] => Q s → P s
  | s, e :: es => (Q s → EveryState step P s (e :: es)) ∧ Since step Q P (step s e) es

/-- Once `Q` has held, every step meets `C` from that state on. -/
def SinceStep (step : σ → ε → σ) (Q : σ → Prop) (C : σ → ε → Prop) : σ → List ε → Prop
  | _, [] => True
  | s, e :: es => (Q s → EveryStep step C s (e :: es)) ∧ SinceStep step Q C (step s e) es

/-- After a step that is `P`, no later one is. -/
def AtMostOnce (step : σ → ε → σ) (P : σ → ε → Prop) : σ → List ε → Prop
  | _, [] => True
  | s, e :: es =>
    (P s e → EveryStep step (fun s e => ¬ P s e) (step s e) es) ∧
      AtMostOnce step P (step s e) es

/-- `P` holds of some transition. -/
def SomeStep (step : σ → ε → σ) (P : σ → ε → Prop) : σ → List ε → Prop
  | _, [] => False
  | s, e :: es => P s e ∨ SomeStep step P (step s e) es

/-- How many transitions are `P`. -/
def countSteps (step : σ → ε → σ) (P : σ → ε → Bool) : σ → List ε → ℕ
  | _, [] => 0
  | s, e :: es => (if P s e then 1 else 0) + countSteps step P (step s e) es

/-- What each step gives, along the run. -/
def collect {α : Type} (step : σ → ε → σ) (gives : σ → ε → List α) : σ → List ε → List α
  | _, [] => []
  | s, e :: es => gives s e ++ collect step gives (step s e) es

@[simp] theorem run_nil (step : σ → ε → σ) (s : σ) : run step s [] = s := rfl

@[simp] theorem run_cons (step : σ → ε → σ) (s : σ) (e : ε) (es : List ε) :
    run step s (e :: es) = run step (step s e) es := rfl

theorem run_append (step : σ → ε → σ) (s : σ) (es later : List ε) :
    run step s (es ++ later) = run step (run step s es) later :=
  List.foldl_append ..

instance decidableEveryStep (step : σ → ε → σ) (P : σ → ε → Prop) [∀ s e, Decidable (P s e)] :
    ∀ s es, Decidable (EveryStep step P s es)
  | _, [] => isTrue trivial
  | s, e :: es =>
    have := decidableEveryStep step P (step s e) es
    inferInstanceAs (Decidable (P s e ∧ EveryStep step P (step s e) es))

instance decidableEveryState (step : σ → ε → σ) (P : σ → Prop) [∀ s, Decidable (P s)] :
    ∀ s es, Decidable (EveryState step P s es)
  | s, [] => inferInstanceAs (Decidable (P s))
  | s, e :: es =>
    have := decidableEveryState step P (step s e) es
    inferInstanceAs (Decidable (P s ∧ EveryState step P (step s e) es))

section
variable {step : σ → ε → σ}

theorem EveryState.first {P : σ → Prop} {s : σ} {es : List ε}
    (h : EveryState step P s es) : P s := by
  cases es with
  | nil => exact h
  | cons e es => exact h.1

theorem EveryState.last {P : σ → Prop} {s : σ} {es : List ε}
    (h : EveryState step P s es) : P (run step s es) := by
  induction es generalizing s with
  | nil => exact h
  | cons e es ih => exact ih h.2

theorem everyStep_mono {P Q : σ → ε → Prop} (hpq : ∀ s e, P s e → Q s e) {s : σ} {es : List ε}
    (h : EveryStep step P s es) : EveryStep step Q s es := by
  induction es generalizing s with
  | nil => trivial
  | cons e es ih => exact ⟨hpq s e h.1, ih h.2⟩

theorem everyStep_and {P Q : σ → ε → Prop} {s : σ} {es : List ε} :
    EveryStep step (fun s e => P s e ∧ Q s e) s es ↔
      EveryStep step P s es ∧ EveryStep step Q s es := by
  induction es generalizing s with
  | nil => simp [EveryStep]
  | cons e es ih => simp only [EveryStep, ih]; constructor <;> intro h <;> simp_all

/-- A condition that is asked only where `P` holds, in a run in which `P` holds throughout. -/
theorem EveryState.everyStep {P : σ → Prop} {C : σ → ε → Prop} {s : σ} {es : List ε}
    (h : EveryState step P s es) (steps : EveryStep step (fun s e => P s → C s e) s es) :
    EveryStep step C s es := by
  induction es generalizing s with
  | nil => trivial
  | cons e es ih => exact ⟨steps.1 h.1, ih h.2 steps.2⟩

/-- An invariant of the runs whose steps meet the condition `C`. -/
theorem everyState_of_preserved {I : σ → Prop} {C : σ → ε → Prop}
    (preserved : ∀ s e, I s → C s e → I (step s e)) {s : σ} {es : List ε}
    (start : I s) (steps : EveryStep step C s es) : EveryState step I s es := by
  induction es generalizing s with
  | nil => exact start
  | cons e es ih => exact ⟨start, ih (preserved s e start steps.1) steps.2⟩

/-- Where the condition is just what keeps the invariant at a step, it is so of runs. -/
theorem everyState_iff_of_preserved {I : σ → Prop} {C : σ → ε → Prop}
    (preserved : ∀ s e, I s → (I (step s e) ↔ C s e)) {s : σ} {es : List ε} (start : I s) :
    EveryState step I s es ↔ EveryStep step C s es := by
  induction es generalizing s with
  | nil => exact ⟨fun _ => trivial, fun _ => start⟩
  | cons e es ih =>
    constructor
    · rintro ⟨-, rest⟩
      have next := rest.first
      exact ⟨(preserved s e start).mp next, (ih next).mp rest⟩
    · rintro ⟨met, rest⟩
      exact ⟨start, (ih ((preserved s e start).mpr met)).mpr rest⟩

/-- A property of states and one of steps, under an invariant and a condition `H`: where `C`
is just what they need at a step, so it is of runs. -/
theorem everyState_and_everyStep_iff {I P : σ → Prop} {H Q C : σ → ε → Prop}
    (kept : ∀ s e, I s → I (step s e))
    (same : ∀ s e, I s → P s → H s e → ((P (step s e) ∧ Q s e) ↔ C s e)) {s : σ} {es : List ε}
    (inv : I s) (start : P s) (steps : EveryStep step H s es) :
    (EveryState step P s es ∧ EveryStep step Q s es) ↔ EveryStep step C s es := by
  induction es generalizing s with
  | nil => exact ⟨fun _ => trivial, fun _ => ⟨start, trivial⟩⟩
  | cons e es ih =>
    have now := same s e inv start steps.1
    constructor
    · rintro ⟨⟨-, states⟩, first, rest⟩
      have next := states.first
      exact ⟨now.mp ⟨next, first⟩, (ih (kept s e inv) next steps.2).mp ⟨states, rest⟩⟩
    · rintro ⟨met, rest⟩
      obtain ⟨next, first⟩ := now.mpr met
      obtain ⟨states, others⟩ := (ih (kept s e inv) next steps.2).mpr rest
      exact ⟨⟨start, states⟩, first, others⟩

/-- Where a step that breaks a property breaks it for good, the last state tells of the whole
run. -/
theorem run_iff_of_invariant {I P : σ → Prop} {C : σ → ε → Prop}
    (kept : ∀ s e, I s → I (step s e)) (same : ∀ s e, I s → (P (step s e) ↔ P s ∧ C s e))
    {s : σ} {es : List ε} (inv : I s) : P (run step s es) ↔ P s ∧ EveryStep step C s es := by
  induction es generalizing s with
  | nil => exact (and_iff_left trivial).symm
  | cons e es ih => rw [run_cons, ih (kept s e inv), same s e inv, EveryStep, and_assoc]

/-- What the invariant and the condition give at each step. -/
theorem everyStep_of_preserved {I : σ → Prop} {C P : σ → ε → Prop}
    (preserved : ∀ s e, I s → C s e → I (step s e)) (gives : ∀ s e, I s → C s e → P s e)
    {s : σ} {es : List ε} (start : I s) (steps : EveryStep step C s es) :
    EveryStep step P s es := by
  induction es generalizing s with
  | nil => trivial
  | cons e es ih =>
    exact ⟨gives s e start steps.1, ih (preserved s e start steps.1) steps.2⟩

/-- Under an invariant of the condition, a property that says the same at each step
says the same of the run. -/
theorem everyStep_iff_of_preserved {I : σ → Prop} {C P : σ → ε → Prop}
    (preserved : ∀ s e, I s → C s e → I (step s e)) (same : ∀ s e, I s → (P s e ↔ C s e))
    {s : σ} {es : List ε} (start : I s) : EveryStep step P s es ↔ EveryStep step C s es := by
  induction es generalizing s with
  | nil => exact Iff.rfl
  | cons e es ih =>
    rw [EveryStep, EveryStep, same s e start]
    exact and_congr_right fun met => ih (preserved s e start met)

theorem everyStep_of_forall {P : σ → ε → Prop} (h : ∀ s e, P s e) (s : σ) (es : List ε) :
    EveryStep step P s es := by
  induction es generalizing s with
  | nil => trivial
  | cons e es ih => exact ⟨h s e, ih _⟩

/-- A condition on the events alone. -/
theorem everyStep_of_events {P : ε → Prop} {s : σ} {es : List ε} (h : ∀ e ∈ es, P e) :
    EveryStep step (fun _ e => P e) s es := by
  induction es generalizing s with
  | nil => trivial
  | cons e es ih => exact ⟨h e (.head _), ih fun later mem => h later (.tail _ mem)⟩

/-- A property of states under an invariant of the runs whose steps are `H`: where `C` is just
what keeps it at a step, so it is of runs. -/
theorem everyState_iff_of_kept {I P : σ → Prop} {H C : σ → ε → Prop}
    (kept : ∀ s e, I s → H s e → I (step s e))
    (same : ∀ s e, I s → P s → H s e → (P (step s e) ↔ C s e)) {s : σ} {es : List ε}
    (inv : I s) (start : P s) (steps : EveryStep step H s es) :
    EveryState step P s es ↔ EveryStep step C s es := by
  induction es generalizing s with
  | nil => exact ⟨fun _ => trivial, fun _ => start⟩
  | cons e es ih =>
    have now := same s e inv start steps.1
    have next := kept s e inv steps.1
    constructor
    · rintro ⟨-, rest⟩
      exact ⟨now.mp rest.first, (ih next rest.first steps.2).mp rest⟩
    · rintro ⟨met, rest⟩
      exact ⟨start, (ih next (now.mpr met) steps.2).mpr rest⟩

/-- A property of states under an invariant of all runs. -/
theorem everyState_iff_of_invariant {I P : σ → Prop} {C : σ → ε → Prop}
    (kept : ∀ s e, I s → I (step s e)) (same : ∀ s e, I s → P s → (P (step s e) ↔ C s e))
    {s : σ} {es : List ε} (inv : I s) (start : P s) :
    EveryState step P s es ↔ EveryStep step C s es :=
  everyState_iff_of_kept (fun s e inv (_ : True) => kept s e inv)
    (fun s e inv holds _ => same s e inv holds) inv start
    (everyStep_of_forall (fun _ _ => trivial) s es)

theorem everyState_mono {P Q : σ → Prop} (hpq : ∀ s, P s → Q s) {s : σ} {es : List ε}
    (h : EveryState step P s es) : EveryState step Q s es := by
  induction es generalizing s with
  | nil => exact hpq s h
  | cons e es ih => exact ⟨hpq s h.1, ih h.2⟩

/-- A stable property that `Q` establishes: `P` follows from the moment `Q` held. -/
theorem since_of_stable {I P Q : σ → Prop} {C : σ → ε → Prop}
    (preserved : ∀ s e, I s → C s e → I (step s e)) (enters : ∀ s, Q s → I s)
    (gives : ∀ s, I s → P s) {s : σ} {es : List ε} (steps : EveryStep step C s es) :
    Since step Q P s es := by
  induction es generalizing s with
  | nil => exact fun h => gives s (enters s h)
  | cons e es ih =>
    exact ⟨fun h => everyState_mono gives (everyState_of_preserved preserved (enters s h) steps),
      ih steps.2⟩

/-- Where the condition is just what a step needs to keep `P`, so it is from the moment on. -/
theorem since_iff_of_same {P Q : σ → Prop} {C : σ → ε → Prop} (enters : ∀ s, Q s → P s)
    (same : ∀ s e, P s → (P (step s e) ↔ C s e)) {s : σ} {es : List ε} :
    Since step Q P s es ↔ SinceStep step Q C s es := by
  induction es generalizing s with
  | nil => exact ⟨fun _ => trivial, fun _ => enters s⟩
  | cons e es ih =>
    have steps : (Q s → EveryState step P s (e :: es)) ↔ (Q s → EveryStep step C s (e :: es)) :=
      forall_congr' fun entered => everyState_iff_of_preserved same (enters s entered)
    exact and_congr steps ih

/-- What has held stays so, and says what it needs to of each step. -/
theorem sinceStep_of_stable {Q : σ → Prop} {C : σ → ε → Prop}
    (stays : ∀ s e, Q s → Q (step s e)) (gives : ∀ s e, Q s → C s e) (s : σ) (es : List ε) :
    SinceStep step Q C s es := by
  induction es generalizing s with
  | nil => trivial
  | cons e es ih =>
    refine ⟨fun now => ?_, ih (step s e)⟩
    exact everyStep_of_preserved (C := fun _ _ => True) (fun s e held _ => stays s e held)
      (fun s e held _ => gives s e held) now (everyStep_of_forall (fun _ _ => trivial) _ _)

theorem everyStep_append {C : σ → ε → Prop} {s : σ} {es later : List ε} :
    EveryStep step C s (es ++ later) ↔
      EveryStep step C s es ∧ EveryStep step C (run step s es) later := by
  induction es generalizing s with
  | nil => exact (and_iff_right trivial).symm
  | cons e es ih => rw [List.cons_append, EveryStep, EveryStep, ih, run_cons, and_assoc]

/-- A step within a run. -/
theorem EveryStep.at_ {C : σ → ε → Prop} {s : σ} {es : List ε} {e : ε} {later : List ε}
    (h : EveryStep step C s (es ++ e :: later)) : C (run step s es) e := by
  induction es generalizing s with
  | nil => exact h.1
  | cons e' es ih => exact ih h.2

/-- The steps after a state in which it held. -/
theorem SinceStep.after {Q : σ → Prop} {C : σ → ε → Prop} {s : σ} {es : List ε} {e : ε}
    {later : List ε} (h : SinceStep step Q C s (es ++ e :: later)) (held : Q (run step s es)) :
    C (run step s es) e := by
  induction es generalizing s with
  | nil => exact (h.1 held).1
  | cons e' es ih => exact ih h.2 held

/-- What a step brings about, stays, and excludes another such step. -/
theorem atMostOnce_of_stable {I : σ → Prop} {P : σ → ε → Prop}
    (brings : ∀ s e, P s e → I (step s e)) (stays : ∀ s e, I s → I (step s e))
    (excludes : ∀ s e, I s → ¬ P s e) (s : σ) (es : List ε) : AtMostOnce step P s es := by
  induction es generalizing s with
  | nil => trivial
  | cons e es ih =>
    refine ⟨fun first => ?_, ih (step s e)⟩
    exact everyStep_of_preserved (C := fun _ _ => True) (fun s e kept _ => stays s e kept)
      (fun s e kept _ => excludes s e kept) (brings s e first)
      (everyStep_of_forall (fun _ _ => trivial) _ _)

/-- What holds from a moment on holds after the step taken then. -/
theorem since_steps {P Q : σ → Prop} {s : σ} {es : List ε} (h : Since step Q P s es) :
    EveryStep step (fun s e => Q s → P (step s e)) s es := by
  induction es generalizing s with
  | nil => trivial
  | cons e es ih => exact ⟨fun now => (h.1 now).2.first, ih h.2⟩

/-- What holds of all that a run collects, holds of what each step gives. -/
theorem forall_mem_collect {α : Type} {gives : σ → ε → List α} {P : α → Prop} {s : σ}
    {es : List ε} : (∀ a ∈ collect step gives s es, P a) ↔
      EveryStep step (fun s e => ∀ a ∈ gives s e, P a) s es := by
  induction es generalizing s with
  | nil => simp [collect, EveryStep]
  | cons e es ih =>
    rw [collect, List.forall_mem_append, ih]
    rfl

/-- A rank that falls at the steps that are counted, and rises by one at most, at the events that
are `raises`: after that many steps it has run out. -/
theorem someStep_of_countSteps {I : σ → Prop} {C P : σ → ε → Prop} {counted : σ → ε → Bool}
    {raises : ε → Bool} {rank : σ → ℕ} (positive : ∀ s, I s → 0 < rank s)
    (kept : ∀ s e, I s → C s e → ¬ P s e → I (step s e))
    (falls : ∀ s e, I s → C s e → ¬ P s e → rank (step s e) + (if counted s e then 1 else 0) ≤
      rank s + if raises e then 1 else 0)
    {s : σ} {es : List ε} (start : I s) (steps : EveryStep step C s es)
    (enough : rank s + es.countP raises ≤ countSteps step counted s es) : SomeStep step P s es := by
  induction es generalizing s with
  | nil =>
    have left := positive s start
    rw [countSteps] at enough
    omega
  | cons e es ih =>
    by_cases found : P s e
    · exact .inl found
    · have fallen := falls s e start steps.1 found
      rw [countSteps, List.countP_cons] at enough
      refine .inr (ih (kept s e start steps.1 found) steps.2 ?_)
      omega

/-- If a step that breaks the condition leaves a bad state, then a run through
good states only has met the condition at every step. -/
theorem reflects_everyStep {I : σ → Prop} {C : σ → ε → Prop}
    (reflects : ∀ s e, I s → I (step s e) → C s e) {s : σ} {es : List ε}
    (good : EveryState step I s es) : EveryStep step C s es := by
  induction es generalizing s with
  | nil => trivial
  | cons e es ih => exact ⟨reflects s e good.1 good.2.first, ih good.2⟩

end

end Runs
