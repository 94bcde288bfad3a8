import Mathlib.Logic.Basic

/-!
# Keys that expire

A store of values under keys, each with the time at which it expires. Reading
takes the clock; an expired key reads like one that was never set. As time
passes keys only disappear.
-/

structure Expiring (κ α : Type) where
  entry : κ → Option (α × Nat)

namespace Expiring

variable {κ α : Type}

instance : EmptyCollection (Expiring κ α) := ⟨⟨fun _ => none⟩⟩

/-- The value under `k` with the time it expires, if it has not expired. -/
def live (m : Expiring κ α) (now : Nat) (k : κ) : Option (α × Nat) :=
  (m.entry k).filter fun e => now < e.2

def get (m : Expiring κ α) (now : Nat) (k : κ) : Option α := (m.live now k).map Prod.fst

variable [DecidableEq κ]

def set (m : Expiring κ α) (k : κ) (v : α) (expires : Nat) : Expiring κ α :=
  ⟨fun i => if i = k then some (v, expires) else m.entry i⟩

def del (m : Expiring κ α) (k : κ) : Expiring κ α :=
  ⟨fun i => if i = k then none else m.entry i⟩

omit [DecidableEq κ] in
theorem get_eq_some {m : Expiring κ α} {now : Nat} {k : κ} {v : α} :
    m.get now k = some v ↔ ∃ expires, m.live now k = some (v, expires) := by
  simp [get]

omit [DecidableEq κ] in
theorem live_eq_some {m : Expiring κ α} {now : Nat} {k : κ} {e : α × Nat} :
    m.live now k = some e ↔ m.entry k = some e ∧ now < e.2 := by
  simp [live, Option.filter_eq_some_iff]

omit [DecidableEq κ] in
/-- What is still there was there before. -/
theorem get_of_later {m : Expiring κ α} {now later : Nat} (order : now ≤ later) {k : κ} {v : α}
    (found : m.get later k = some v) : m.get now k = some v := by
  obtain ⟨expires, found⟩ := get_eq_some.mp found
  obtain ⟨entry, unexpired⟩ := live_eq_some.mp found
  exact get_eq_some.mpr ⟨expires, live_eq_some.mpr ⟨entry, Nat.lt_of_le_of_lt order unexpired⟩⟩

omit [DecidableEq κ] in
/-- A key is kept until it expires. -/
theorem live_later {m : Expiring κ α} {now later : Nat} {k : κ} {e : α × Nat}
    (found : m.live now k = some e) (unexpired : later < e.2) : m.live later k = some e :=
  live_eq_some.mpr ⟨(live_eq_some.mp found).1, unexpired⟩

theorem live_set (m : Expiring κ α) (now : Nat) (k i : κ) (v : α) {expires : Nat}
    (unexpired : now < expires) :
    (m.set k v expires).live now i = if i = k then some (v, expires) else m.live now i := by
  by_cases same : i = k
  · simp [live, set, same, Option.filter, unexpired]
  · simp [live, set, same]

theorem get_set (m : Expiring κ α) (now : Nat) (k i : κ) (v : α) {expires : Nat}
    (unexpired : now < expires) :
    (m.set k v expires).get now i = if i = k then some v else m.get now i := by
  rw [get, live_set m now k i v unexpired]
  split <;> rfl

theorem live_del (m : Expiring κ α) (now : Nat) (k i : κ) :
    (m.del k).live now i = if i = k then none else m.live now i := by
  by_cases same : i = k <;> simp [live, del, same]

theorem get_del (m : Expiring κ α) (now : Nat) (k i : κ) :
    (m.del k).get now i = if i = k then none else m.get now i := by
  rw [get, live_del]
  split <;> rfl

end Expiring
