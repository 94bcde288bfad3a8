/-!
# Programs whose statements may throw

A program over a state `σ` calls statements that write and services that answer, and each call may
throw; a statement that throws may have been committed before its answer was lost. `Ends` is what
holds after a program, whether it returns or throws, and each way to compose programs has a rule.
-/

namespace Faults

/-- What a statement does: it returns, or it throws, and then it was committed or not. -/
inductive Outcome where
  | returns
  | throws (error : String) (committed : Bool)
  deriving DecidableEq, Repr

/-- The write of the statement is done. -/
def Outcome.effective : Outcome → Bool
  | .returns => true
  | .throws _ committed => committed

@[simp] theorem Outcome.effective_returns : Outcome.returns.effective = true := rfl

@[simp] theorem Outcome.effective_throws {error : String} {committed : Bool} :
    (Outcome.throws error committed).effective = committed := rfl

/-- It throws, and was committed all the same. -/
def Outcome.doubtful : Outcome → Bool
  | .returns => false
  | .throws _ committed => committed

section

variable {σ α β : Type}

abbrev Program (σ α : Type) := EStateM String σ α

def statement (outcome : Outcome) (write : σ → σ) : Program σ Unit := fun s =>
  match outcome with
  | .returns => .ok () (write s)
  | .throws error committed => .error error (if committed then write s else s)

def ask (answer : Except String α) : Program σ α := fun s =>
  match answer with
  | .ok a => .ok a s
  | .error error => .error error s

/-- The state in which the program ends. -/
def final (p : Program σ α) (s : σ) : σ :=
  match p s with
  | .ok _ s' => s'
  | .error _ s' => s'

/-- A program that returns ends in `Q`, and one that throws in `E`. -/
def Ends (Q : α → σ → Prop) (E : String → σ → Prop) (p : Program σ α) (s : σ) : Prop :=
  match p s with
  | .ok a s' => Q a s'
  | .error error s' => E error s'

variable {Q : α → σ → Prop} {E : String → σ → Prop} {s : σ}

@[simp] theorem ends_pure (a : α) : Ends Q E (pure a) s ↔ Q a s := Iff.rfl

@[simp] theorem ends_bind {p : Program σ β} {k : β → Program σ α} :
    Ends Q E (p >>= k) s ↔ Ends (fun b => Ends Q E (k b)) E p s := by
  simp only [Ends, bind, EStateM.bind]
  cases p s <;> rfl

@[simp] theorem ends_get {Q : σ → σ → Prop} : Ends Q E get s ↔ Q s s := Iff.rfl

@[simp] theorem ends_modify {Q : Unit → σ → Prop} {write : σ → σ} :
    Ends Q E (modify write) s ↔ Q () (write s) := Iff.rfl

theorem ends_statement {Q : Unit → σ → Prop} {outcome : Outcome} {write : σ → σ} :
    Ends Q E (statement outcome write) s ↔
      match outcome with
      | .returns => Q () (write s)
      | .throws error committed => E error (if committed then write s else s) := by
  cases outcome <;> rfl

theorem ends_ask {answer : Except String α} :
    Ends Q E (ask answer) s ↔
      match answer with
      | .ok a => Q a s
      | .error error => E error s := by
  cases answer <;> rfl

theorem ends_tryCatch {p : Program σ α} {handle : String → Program σ α} :
    Ends Q E (tryCatch p handle) s ↔
      Ends Q (fun error => Ends Q E (handle error)) p s := by
  simp only [Ends, tryCatch, tryCatchThe, MonadExceptOf.tryCatch]
  delta EStateM.tryCatch
  cases p s <;> rfl

theorem ends_mono {p : Program σ α} {Q' : α → σ → Prop} {E' : String → σ → Prop}
    (ends : Ends Q E p s) (returns : ∀ a s, Q a s → Q' a s)
    (throws : ∀ error s, E error s → E' error s) : Ends Q' E' p s := by
  revert ends
  unfold Ends
  cases p s with
  | ok a s' => exact returns a s'
  | error error s' => exact throws error s'

theorem final_iff {P : σ → Prop} {p : Program σ α} :
    P (final p s) ↔ Ends (fun _ => P) (fun _ => P) p s := by
  simp only [Ends, final]
  cases p s <;> rfl

end

end Faults
