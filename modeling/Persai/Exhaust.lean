import Mathlib.Order.Basic

/-!
# Loops that run until nothing is left to do

`next` is one round of a loop, `none` where the loop ends. `exhaust next n` makes at most
`n` rounds.

* `exhaust_preserved`: what each round keeps;
* `exhaust_ends`: with more rounds than a measure that each of them lowers, the loop ends
  by itself;
* `exhaust_enough`: further rounds change nothing then.
-/

variable {σ : Type}

def exhaust (next : σ → Option σ) : Nat → σ → σ
  | 0, s => s
  | n + 1, s =>
    match next s with
    | some s' => exhaust next n s'
    | none => s

namespace Exhaust

variable {next : σ → Option σ} {μ : σ → Nat}

theorem exhaust_preserved {I : σ → Prop} (kept : ∀ s s', I s → next s = some s' → I s')
    (n : Nat) {s : σ} (start : I s) : I (exhaust next n s) := by
  induction n generalizing s with
  | zero => exact start
  | succ n ih =>
    rw [exhaust]
    split
    · rename_i s' round
      exact ih (kept s s' start round)
    · exact start

theorem exhaust_ends {I : σ → Prop} (kept : ∀ s s', I s → next s = some s' → I s')
    (lower : ∀ s s', I s → next s = some s' → μ s' < μ s) {n : Nat} {s : σ} (start : I s)
    (enough : μ s < n) : next (exhaust next n s) = none := by
  induction n generalizing s with
  | zero => exact absurd enough (Nat.not_lt_zero _)
  | succ n ih =>
    rw [exhaust]
    split
    · rename_i s' round
      exact ih (kept s s' start round)
        (Nat.lt_of_lt_of_le (lower s s' start round) (Nat.lt_succ_iff.mp enough))
    · rename_i ended
      exact ended

theorem exhaust_of_none {s : σ} (ended : next s = none) (n : Nat) : exhaust next n s = s := by
  cases n with
  | zero => rfl
  | succ n => rw [exhaust, ended]

theorem exhaust_add (m n : Nat) (s : σ) :
    exhaust next (m + n) s = exhaust next n (exhaust next m s) := by
  induction m generalizing s with
  | zero => rw [Nat.zero_add, exhaust]
  | succ m ih =>
    rw [Nat.succ_add, exhaust, exhaust]
    split
    · exact ih _
    · rename_i ended
      exact (exhaust_of_none ended n).symm

theorem exhaust_enough {I : σ → Prop} (kept : ∀ s s', I s → next s = some s' → I s')
    (lower : ∀ s s', I s → next s = some s' → μ s' < μ s) {m n : Nat} {s : σ} (start : I s)
    (enough : μ s < m) (more : m ≤ n) : exhaust next n s = exhaust next m s := by
  obtain ⟨k, rfl⟩ := Nat.exists_eq_add_of_le more
  rw [exhaust_add, exhaust_of_none (exhaust_ends kept lower start enough)]

end Exhaust
