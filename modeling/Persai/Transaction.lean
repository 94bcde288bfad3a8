/-!
# Programs over a database and its transactions

A program reads and writes a state and may fail. An interactive transaction runs its
statements on a working copy; a statement that fails leaves the transaction aborted, also
where the caller catches the failure, and committing an aborted transaction rolls it back
without an error.

* `Within R`: whatever a program does, it relates the states by the preorder `R`;
* `transaction_ok`: what the database holds after a transaction that returned.
-/

/-- A computation on a state that may fail; what it wrote before the failure stays. -/
def Program (σ ε α : Type) : Type := σ → Except ε α × σ

namespace Program

variable {σ ε α β : Type}

instance : Monad (Program σ ε) where
  pure a := fun s => (.ok a, s)
  bind x f := fun s =>
    match x s with
    | (.ok a, s') => f a s'
    | (.error e, s') => (.error e, s')

instance : MonadExcept ε (Program σ ε) where
  throw e := fun s => (.error e, s)
  tryCatch x handler := fun s =>
    match x s with
    | (.ok a, s') => (.ok a, s')
    | (.error e, s') => handler e s'

/-- Read from the state. -/
def read (f : σ → α) : Program σ ε α := fun s => (.ok (f s), s)

/-- Rewrite the state. -/
def write (f : σ → σ) : Program σ ε Unit := fun s => (.ok (), f s)

/-- The value of a computation, or its failure. -/
def fromExcept (x : Except ε α) : Program σ ε α := fun s => (x, s)

@[simp] theorem pure_apply (a : α) (s : σ) : (pure a : Program σ ε α) s = (.ok a, s) := rfl

@[simp] theorem throw_apply (e : ε) (s : σ) :
    (throw e : Program σ ε α) s = (.error e, s) := rfl

@[simp] theorem read_apply (f : σ → α) (s : σ) :
    (read f : Program σ ε α) s = (.ok (f s), s) := rfl

@[simp] theorem write_apply (f : σ → σ) (s : σ) :
    (write f : Program σ ε Unit) s = (.ok (), f s) := rfl

@[simp] theorem fromExcept_apply (x : Except ε α) (s : σ) :
    (fromExcept x : Program σ ε α) s = (x, s) := rfl

theorem bind_apply (x : Program σ ε α) (f : α → Program σ ε β) (s : σ) :
    (x >>= f) s = match x s with
      | (.ok a, s') => f a s'
      | (.error e, s') => (.error e, s') := rfl

theorem tryCatch_apply (x : Program σ ε α) (handler : ε → Program σ ε α) (s : σ) :
    (tryCatch x handler) s = match x s with
      | (.ok a, s') => (.ok a, s')
      | (.error e, s') => handler e s' := rfl

theorem bind_of_ok {x : Program σ ε α} {s s' : σ} {a : α} (h : x s = (.ok a, s'))
    (f : α → Program σ ε β) : (x >>= f) s = f a s' := by
  rw [bind_apply, h]

theorem bind_of_error {x : Program σ ε α} {s s' : σ} {e : ε} (h : x s = (.error e, s'))
    (f : α → Program σ ε β) : (x >>= f) s = (.error e, s') := by
  rw [bind_apply, h]

@[simp] theorem read_bind_apply (g : σ → α) (f : α → Program σ ε β) (s : σ) :
    (read g >>= f : Program σ ε β) s = f (g s) s := rfl

/-- Whatever the program does, it goes from a state to one related to it. -/
def Within (R : σ → σ → Prop) (x : Program σ ε α) : Prop := ∀ s, R s (x s).2

section
variable {R : σ → σ → Prop}

theorem within_write {f : σ → σ} (h : ∀ s, R s (f s)) :
    Within R (write f : Program σ ε Unit) := h

section
variable [Std.Refl R]

theorem within_pure (a : α) : Within R (pure a : Program σ ε α) := fun s => Std.Refl.refl s

theorem within_throw (e : ε) : Within R (throw e : Program σ ε α) := fun s => Std.Refl.refl s

theorem within_read (f : σ → α) : Within R (read f : Program σ ε α) := fun s => Std.Refl.refl s

theorem within_fromExcept (x : Except ε α) : Within R (fromExcept x : Program σ ε α) :=
  fun s => Std.Refl.refl s

end

section
variable [Trans R R R]

theorem within_bind {x : Program σ ε α} {f : α → Program σ ε β} (first : Within R x)
    (rest : ∀ a, Within R (f a)) : Within R (x >>= f) := by
  intro s
  have here := first s
  rw [bind_apply]
  match outcome : x s with
  | (.ok a, s') => rw [outcome] at here; exact Trans.trans here (rest a s')
  | (.error e, s') => rw [outcome] at here; exact here

theorem within_tryCatch {x : Program σ ε α} {handler : ε → Program σ ε α} (body : Within R x)
    (handled : ∀ e, Within R (handler e)) : Within R (tryCatch x handler) := by
  intro s
  have here := body s
  rw [tryCatch_apply]
  match outcome : x s with
  | (.ok a, s') => rw [outcome] at here; exact here
  | (.error e, s') => rw [outcome] at here; exact Trans.trans here (handled e s')

end

end

end Program

/-- What stops a program: the database, or an exception of its own. -/
inductive Fault (ε : Type) where
  | uniqueViolation
  /-- A statement in a transaction that has failed before. -/
  | inFailedTransaction
  | thrown (e : ε)
  deriving DecidableEq, Repr

/-- An open transaction: what other sessions see, what it sees itself, and whether one of
its statements failed. -/
structure Tx (σ : Type) where
  outside : σ
  work : σ
  aborted : Bool

abbrev Service (σ ε : Type) := Program σ (Fault ε)
abbrev TxM (σ ε : Type) := Program (Tx σ) (Fault ε)

namespace TxM

open Program

variable {σ ε α β : Type}

/-- A statement of the transaction. -/
def statement (f : σ → Except (Fault ε) (α × σ)) : TxM σ ε α := fun t =>
  if t.aborted then (.error .inFailedTransaction, t)
  else match f t.work with
    | .ok (a, work) => (.ok a, { t with work })
    | .error e => (.error e, { t with aborted := true })

def query (f : σ → α) : TxM σ ε α := statement fun s => .ok (f s, s)

def update (f : σ → σ) : TxM σ ε Unit := statement fun s => .ok ((), f s)

/-- An insert under a unique key, `none` where the key is in use. -/
def insert (f : σ → Option σ) : TxM σ ε Unit := statement fun s =>
  match f s with
  | some s' => .ok ((), s')
  | none => .error .uniqueViolation

/-- A statement of another session, issued while the transaction is open. -/
def elsewhere (f : σ → α × σ) : TxM σ ε α := fun t =>
  (.ok (f t.outside).1, { t with outside := (f t.outside).2, work := (f t.work).2 })

/-- Begin, run the body, and commit or roll back. -/
def transaction (body : TxM σ ε α) : Service σ ε α := fun s =>
  match body ⟨s, s, false⟩ with
  | (.ok a, t) => (.ok a, if t.aborted then t.outside else t.work)
  | (.error e, t) => (.error e, t.outside)

section
variable {s w : σ}

@[simp] theorem query_apply (f : σ → α) :
    (query f : TxM σ ε α) ⟨s, w, false⟩ = (.ok (f w), ⟨s, w, false⟩) := rfl

theorem insert_of_some {f : σ → Option σ} {w' : σ} (h : f w = some w') :
    (insert f : TxM σ ε Unit) ⟨s, w, false⟩ = (.ok (), ⟨s, w', false⟩) := by
  simp [insert, statement, h]

theorem insert_of_none {f : σ → Option σ} (h : f w = none) :
    (insert f : TxM σ ε Unit) ⟨s, w, false⟩ = (.error .uniqueViolation, ⟨s, w, true⟩) := by
  simp [insert, statement, h]

@[simp] theorem query_bind_apply (g : σ → α) (f : α → TxM σ ε β) :
    (query g >>= f : TxM σ ε β) ⟨s, w, false⟩ = f (g w) ⟨s, w, false⟩ := rfl

@[simp] theorem update_bind_apply (g : σ → σ) (f : Unit → TxM σ ε β) :
    (update g >>= f : TxM σ ε β) ⟨s, w, false⟩ = f () ⟨s, g w, false⟩ := rfl

end

/-- A transaction that returned has committed its work, unless it was aborted. -/
theorem transaction_ok {body : TxM σ ε α} {s s' : σ} {a : α} :
    transaction body s = (.ok a, s') ↔
      ∃ t, body ⟨s, s, false⟩ = (.ok a, t) ∧ s' = if t.aborted then t.outside else t.work := by
  unfold transaction
  constructor
  · intro h
    match outcome : body ⟨s, s, false⟩ with
    | (.ok b, t) =>
      rw [outcome] at h
      cases h
      exact ⟨t, rfl, rfl⟩
    | (.error e, t) => rw [outcome] at h; cases h
  · rintro ⟨t, outcome, rfl⟩
    rw [outcome]

end TxM
