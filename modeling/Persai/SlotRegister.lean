/-!
# Registers with a single slot

A register against duplicates that has one slot, for the newest claim and its time, and a memory
of completions. What was done to it is kept beside it, newest first.

* `Outstanding`, `Done`: what a register should know of an identifier;
* `Exclusive`: a claim is granted only where it should be;
* `Remembers`: the register still knows what it needs for that, its slot not given to another
  identifier since and the completion not forgotten;
* `Tracks`, kept by every operation: slot and memory are those of the past;
* `Orderly`, kept where every grant is exclusive;
* `exclusive_iff_remembers`.
-/

namespace SlotRegister

variable {ι κ μ : Type} [DecidableEq ι]

inductive Outcome where
  | claimed
  | handled
  | inflight
  deriving DecidableEq, Repr

/-- How completions are remembered. -/
structure Memory (ι κ μ : Type) where
  blank : μ
  remember : μ → κ → μ
  handled : μ → ι → Bool

structure Register (ι μ : Type) where
  slot : Option (ι × Int)
  memory : μ

/-- What was done to a register. A completion that was not stored has no content. -/
inductive Act (ι κ : Type) where
  | granted (x : ι) (now : Int)
  | released (x : ι)
  | completed (x : ι) (stored : Option κ)
  deriving DecidableEq, Repr

/-- Does the slot hold a claim of `x` that is younger than `staleAfter`? -/
def holds (slot : Option (ι × Int)) (x : ι) (now : Int) (staleAfter : Nat) : Bool :=
  slot.any fun c => c.1 == x && decide (now - c.2 < staleAfter)

def vacate (slot : Option (ι × Int)) (x : ι) : Option (ι × Int) := slot.filter fun c => c.1 != x

def claim (m : Memory ι κ μ) (r : Register ι μ) (x : ι) (now : Int) (staleAfter : Nat) :
    Outcome × Register ι μ :=
  if m.handled r.memory x then (.handled, r)
  else if holds r.slot x now staleAfter then (.inflight, r)
  else (.claimed, { r with slot := some (x, now) })

def complete (m : Memory ι κ μ) (r : Register ι μ) (x : ι) (stored : Option κ) : Register ι μ :=
  ⟨vacate r.slot x, stored.elim r.memory (m.remember r.memory)⟩

def release (r : Register ι μ) (x : ι) : Register ι μ := { r with slot := vacate r.slot x }

/-! ## The past of a register -/

/-- A claim of `x` was granted at `since` and is neither released nor completed. -/
def Outstanding : List (Act ι κ) → ι → Int → Prop
  | [], _, _ => False
  | .granted y now :: past, x, since => (y = x ∧ now = since) ∨ Outstanding past x since
  | .released y :: past, x, since => y ≠ x ∧ Outstanding past x since
  | .completed y _ :: past, x, since => y ≠ x ∧ Outstanding past x since

def Done (past : List (Act ι κ)) (x : ι) : Prop := ∃ stored, .completed x stored ∈ past

/-- The identifier of the newest grant. -/
def lastGranted : List (Act ι κ) → Option ι
  | [] => none
  | .granted x _ :: _ => some x
  | .released _ :: past | .completed _ _ :: past => lastGranted past

def slotOf : List (Act ι κ) → Option (ι × Int)
  | [] => none
  | .granted x now :: _ => some (x, now)
  | .released x :: past | .completed x _ :: past => vacate (slotOf past) x

def memoryOf (m : Memory ι κ μ) : List (Act ι κ) → μ
  | [] => m.blank
  | .granted _ _ :: past | .released _ :: past => memoryOf m past
  | .completed _ stored :: past => stored.elim (memoryOf m past) (m.remember (memoryOf m past))

/-- The contents of the stored completions, newest first. -/
def contents : List (Act ι κ) → List κ
  | [] => []
  | .granted _ _ :: past | .released _ :: past => contents past
  | .completed _ stored :: past => stored.toList ++ contents past

/-- What a claim adds to the past. -/
def record (x : ι) (now : Int) (granted : Prop) [Decidable granted] (past : List (Act ι κ)) :
    List (Act ι κ) :=
  if granted then .granted x now :: past else past

variable {m : Memory ι κ μ} {r : Register ι μ} {past : List (Act ι κ)} {x : ι} {now : Int}
  {staleAfter : Nat}

theorem vacate_eq_some_iff {slot : Option (ι × Int)} {c : ι × Int} :
    vacate slot x = some c ↔ slot = some c ∧ c.1 ≠ x := by
  simp [vacate, Option.filter_eq_some_iff]

theorem holds_iff {slot : Option (ι × Int)} :
    holds slot x now staleAfter = true ↔
      ∃ since, slot = some (x, since) ∧ now - since < staleAfter := by
  cases slot with
  | none => simp [holds]
  | some c =>
    obtain ⟨y, since⟩ := c
    simp only [holds, Option.any_some, Bool.and_eq_true, beq_iff_eq, decide_eq_true_eq,
      Option.some.injEq, Prod.mk.injEq]
    constructor
    · rintro ⟨same, young⟩; exact ⟨since, ⟨same, rfl⟩, young⟩
    · rintro ⟨_, ⟨same, rfl⟩, young⟩; exact ⟨same, young⟩

/-- The slot holds an outstanding claim, the newest one granted. -/
theorem outstanding_of_slotOf {since : Int} (h : slotOf past = some (x, since)) :
    lastGranted past = some x ∧ Outstanding past x since := by
  induction past with
  | nil => cases h
  | cons act past ih =>
    cases act with
    | granted y now =>
      cases h
      exact ⟨rfl, .inl ⟨rfl, rfl⟩⟩
    | released y =>
      obtain ⟨h, other⟩ := vacate_eq_some_iff.mp h
      exact ⟨(ih h).1, Ne.symm other, (ih h).2⟩
    | completed y stored =>
      obtain ⟨h, other⟩ := vacate_eq_some_iff.mp h
      exact ⟨(ih h).1, Ne.symm other, (ih h).2⟩

/-- An outstanding claim is in the slot unless another identifier has been granted since. -/
theorem slotOf_of_outstanding {since : Int} (h : Outstanding past x since)
    (newest : lastGranted past = some x) : ∃ now, slotOf past = some (x, now) := by
  induction past with
  | nil => cases h
  | cons act past ih =>
    cases act with
    | granted y now =>
      cases newest
      exact ⟨now, rfl⟩
    | released y =>
      obtain ⟨now, held⟩ := ih h.2 newest
      exact ⟨now, vacate_eq_some_iff.mpr ⟨held, Ne.symm h.1⟩⟩
    | completed y stored =>
      obtain ⟨now, held⟩ := ih h.2 newest
      exact ⟨now, vacate_eq_some_iff.mpr ⟨held, Ne.symm h.1⟩⟩

omit [DecidableEq ι] in
theorem record_congr {granted granted' : Prop} [Decidable granted] [Decidable granted']
    (same : granted ↔ granted') : record x now granted past = record x now granted' past := by
  unfold record
  simp only [same]

/-! ## Slot and memory follow the past -/

structure Tracks (m : Memory ι κ μ) (r : Register ι μ) (past : List (Act ι κ)) : Prop where
  slot : r.slot = slotOf past
  memory : r.memory = memoryOf m past

theorem Tracks.claim (h : Tracks m r past) :
    Tracks m (claim m r x now staleAfter).2
      (record x now ((claim m r x now staleAfter).1 = .claimed) past) := by
  unfold SlotRegister.claim
  split
  · exact h
  split
  · exact h
  · exact ⟨rfl, h.memory⟩

theorem Tracks.complete (h : Tracks m r past) (stored : Option κ) :
    Tracks m (complete m r x stored) (.completed x stored :: past) := by
  constructor
  · rw [SlotRegister.complete, h.slot]; rfl
  · rw [SlotRegister.complete, h.memory]; rfl

theorem Tracks.release (h : Tracks m r past) : Tracks m (release r x) (.released x :: past) := by
  constructor
  · rw [SlotRegister.release, h.slot]; rfl
  · exact h.memory

/-! ## Exclusive claims -/

/-- A claim is granted only if its identifier is not completed and every claim of it that is
outstanding is stale. -/
def Exclusive (past : List (Act ι κ)) (x : ι) (now : Int) (staleAfter : Nat) (granted : Prop) :
    Prop :=
  granted →
    ¬ Done past x ∧ ∀ since, Outstanding past x since → staleAfter ≤ now - since

/-- What is known of a completed identifier is not forgotten, and of one with a young claim its
identifier is the newest granted. `known`: the register answers that the identifier is handled. -/
def Remembers (known : Prop) (past : List (Act ι κ)) (x : ι) (now : Int) (staleAfter : Nat) :
    Prop :=
  (Done past x → known) ∧
    ∀ since, Outstanding past x since → now - since < staleAfter →
      known ∨ lastGranted past = some x

omit [DecidableEq ι] in
theorem remembers_nil {known : Prop} : Remembers known ([] : List (Act ι κ)) x now staleAfter := by
  constructor
  · rintro ⟨stored, done⟩
    cases done
  · intro since old
    cases old

/-- The claim in the slot is the youngest of its identifier, which is not completed. -/
structure Orderly (past : List (Act ι κ)) : Prop where
  youngest : ∀ x now, slotOf past = some (x, now) → ∀ since, Outstanding past x since → since ≤ now
  unfinished : ∀ x now, slotOf past = some (x, now) → ¬ Done past x

theorem orderly_nil : Orderly ([] : List (Act ι κ)) where
  youngest := by intro x now h; cases h
  unfinished := by intro x now h; cases h

theorem Orderly.record (h : Orderly past) {granted : Prop} [Decidable granted]
    (exclusive : Exclusive past x now staleAfter granted) :
    Orderly (record x now granted past) := by
  unfold SlotRegister.record
  split
  · rename_i granted
    obtain ⟨unfinished, stale⟩ := exclusive granted
    constructor
    · rintro _ _ ⟨⟩ since (⟨-, rfl⟩ | old)
      · exact Int.le_refl _
      · have := stale since old
        omega
    · rintro _ _ ⟨⟩ ⟨stored, done⟩
      rcases List.mem_cons.mp done with new | old
      · cases new
      · exact unfinished ⟨stored, old⟩
  · exact h

theorem Orderly.released (h : Orderly past) (y : ι) : Orderly (.released y :: past) where
  youngest := by
    intro x now held since old
    exact h.youngest x now (vacate_eq_some_iff.mp held).1 since old.2
  unfinished := by
    rintro x now held ⟨stored, done⟩
    rcases List.mem_cons.mp done with new | old
    · cases new
    · exact h.unfinished x now (vacate_eq_some_iff.mp held).1 ⟨stored, old⟩

theorem Orderly.completed (h : Orderly past) (y : ι) (stored : Option κ) :
    Orderly (.completed y stored :: past) where
  youngest := by
    intro x now held since old
    exact h.youngest x now (vacate_eq_some_iff.mp held).1 since old.2
  unfinished := by
    rintro x now held ⟨stored', done⟩
    obtain ⟨held, other⟩ := vacate_eq_some_iff.mp held
    rcases List.mem_cons.mp done with new | old
    · cases new
      exact other rfl
    · exact h.unfinished x now held ⟨stored', old⟩

theorem claim_eq_claimed_iff : (claim m r x now staleAfter).1 = .claimed ↔
    m.handled r.memory x = false ∧ holds r.slot x now staleAfter = false := by
  unfold claim
  cases m.handled r.memory x with
  | true => simp
  | false => cases holds r.slot x now staleAfter <;> simp

theorem claim_eq_handled_iff :
    (claim m r x now staleAfter).1 = .handled ↔ m.handled r.memory x = true := by
  unfold claim
  cases m.handled r.memory x with
  | true => simp
  | false => cases holds r.slot x now staleAfter <;> simp

/-- A claim is exclusive just where the register remembers what it needs. -/
theorem exclusive_iff_remembers (tracks : Tracks m r past) (orderly : Orderly past) :
    Exclusive past x now staleAfter ((claim m r x now staleAfter).1 = .claimed) ↔
      Remembers (m.handled (memoryOf m past) x = true) past x now staleAfter := by
  unfold Exclusive Remembers
  rw [claim_eq_claimed_iff, tracks.memory, tracks.slot]
  cases known : m.handled (memoryOf m past) x with
  | true => simp
  | false =>
    simp only [true_and, Bool.false_eq_true, false_or, imp_false]
    constructor
    · intro exclusive
      refine ⟨fun done => ?_, fun since outstanding young => ?_⟩
      · have empty : holds (slotOf past) x now staleAfter = false := by
          rw [← Bool.not_eq_true, holds_iff]
          rintro ⟨since, held, -⟩
          exact orderly.unfinished x since held done
        exact (exclusive empty).1 done
      · cases held : holds (slotOf past) x now staleAfter with
        | true =>
          obtain ⟨since', held, -⟩ := holds_iff.mp held
          exact (outstanding_of_slotOf held).1
        | false =>
          have stale := (exclusive held).2 since outstanding
          omega
    · rintro ⟨unfinished, newest⟩ empty
      refine ⟨unfinished, fun since outstanding => Int.not_lt.mp fun young => ?_⟩
      obtain ⟨since', held⟩ := slotOf_of_outstanding outstanding (newest since outstanding young)
      have order := orderly.youngest x since' held since outstanding
      have holding : holds (slotOf past) x now staleAfter = true :=
        holds_iff.mpr ⟨since', held, by omega⟩
      rw [holding] at empty
      cases empty

end SlotRegister
