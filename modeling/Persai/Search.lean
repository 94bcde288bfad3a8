import Mathlib.Data.List.Basic

/-!
# Searching and replacing

* `indexOf` and `lastIndexOf` find the first and the last place of a pattern in a list;
* `replaceAll` goes through a list from the left, and goes on behind each match. A match is told
  by how many elements it takes after its first one.
-/

namespace Persai

section

variable {α : Type} [DecidableEq α] (pattern : List α)

def indexOf : List α → Option ℕ
  | [] => if pattern = [] then some 0 else none
  | a :: rest =>
    if pattern.isPrefixOf (a :: rest) then some 0 else (indexOf rest).map (· + 1)

def lastIndexOf : List α → Option ℕ
  | [] => if pattern = [] then some 0 else none
  | a :: rest =>
    match lastIndexOf rest with
    | some index => some (index + 1)
    | none => if pattern.isPrefixOf (a :: rest) then some 0 else none

end

section

variable {α β γ σ : Type} (matchAt : List α → Option (γ × ℕ)) (render : σ → γ → σ × List β)
  (literal : α → List β)

def replaceAll (state : σ) : List α → σ × List β
  | [] => (state, [])
  | a :: rest =>
    match matchAt (a :: rest) with
    | some (found, more) =>
      let rendered := render state found
      let others := replaceAll rendered.1 (rest.drop more)
      (others.1, rendered.2 ++ others.2)
    | none =>
      let others := replaceAll state rest
      (others.1, literal a ++ others.2)
termination_by l => l.length
decreasing_by
  · rw [List.length_drop, List.length_cons]
    omega
  · exact Nat.lt_succ_self _

end

/-- What holds of all that a fallible map gives, from what it gives for each element. -/
theorem forall_mem_flatten_mapM {α β : Type} {f : α → Option (List β)} {l : List α}
    {results : List (List β)} (mapped : l.mapM f = some results) {P : β → Prop} {Q : α → Prop}
    (each : ∀ a bs, f a = some bs → ((∀ b ∈ bs, P b) ↔ Q a)) :
    (∀ b ∈ results.flatten, P b) ↔ ∀ a ∈ l, Q a := by
  induction l generalizing results with
  | nil =>
    obtain rfl : [] = results := by simpa using mapped
    simp
  | cons a l ih =>
    rw [List.mapM_cons] at mapped
    obtain ⟨first, firstMapped, mapped⟩ := Option.bind_eq_some_iff.mp mapped
    obtain ⟨others, othersMapped, rest⟩ := Option.bind_eq_some_iff.mp mapped
    obtain rfl := Option.some.inj rest
    rw [List.flatten_cons, List.forall_mem_append, ih othersMapped, List.forall_mem_cons,
      each a first firstMapped]

end Persai
