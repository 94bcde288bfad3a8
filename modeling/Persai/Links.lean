import Mathlib.Logic.Relation
import Mathlib.Data.List.Basic

/-!
# Chains within a list

Two elements are linked when a chain of elements of the list leads from one to the other, each
related to the next. What one more element adds: it links those that it touches.
-/

namespace Links

variable {α : Type} {R : α → α → Prop} {xs : List α} {a b c : α}

def Linked (R : α → α → Prop) (xs : List α) : α → α → Prop :=
  Relation.ReflTransGen fun a b => a ∈ xs ∧ b ∈ xs ∧ R a b

/-- `c` is related to an element that is linked to `a`. -/
def Touches (R : α → α → Prop) (xs : List α) (a c : α) : Prop :=
  ∃ near ∈ xs, Linked R xs a near ∧ R near c

theorem Linked.symm (symm : ∀ a b, R a b → R b a) (linked : Linked R xs a b) :
    Linked R xs b a := by
  induction linked with
  | refl => exact .refl
  | tail _ next ih => exact .head ⟨next.2.1, next.1, symm _ _ next.2.2⟩ ih

theorem Linked.snoc (linked : Linked R xs a b) (c : α) : Linked R (xs ++ [c]) a b := by
  induction linked with
  | refl => exact .refl
  | tail _ next ih =>
    exact ih.tail ⟨List.mem_append_left _ next.1, List.mem_append_left _ next.2.1, next.2.2⟩

theorem Touches.linked (touches : Touches R xs a c) : Linked R (xs ++ [c]) a c := by
  obtain ⟨near, mem, linked, related⟩ := touches
  exact (linked.snoc c).tail ⟨List.mem_append_left _ mem, by simp, related⟩

/-- An element that is added is linked to those that it touches. -/
theorem linked_new_iff (refl : R c c) (mem : a ∈ xs) :
    Linked R (xs ++ [c]) a c ↔ Touches R xs a c := by
  refine ⟨fun linked => ?_, Touches.linked⟩
  revert mem
  induction linked using Relation.ReflTransGen.head_induction_on with
  | refl => exact fun mem => ⟨c, mem, .refl, refl⟩
  | @head a a' step _ ih =>
    intro mem
    rcases List.mem_append.mp step.2.1 with here | last
    · obtain ⟨near, near_mem, linked, related⟩ := ih here
      exact ⟨near, near_mem, linked.head ⟨mem, here, step.2.2⟩, related⟩
    · obtain rfl := List.mem_singleton.mp last
      exact ⟨a, mem, .refl, step.2.2⟩

/-- A chain goes through the element that is added, or was there before. -/
theorem linked_snoc (linked : Linked R (xs ++ [c]) a b) :
    Linked R xs a b ∨ Linked R (xs ++ [c]) a c ∧ Linked R (xs ++ [c]) c b := by
  induction linked with
  | refl => exact .inl .refl
  | @tail b b' walked next ih =>
    rcases ih with before | ⟨first, second⟩
    · rcases List.mem_append.mp next.1 with mem | last
      · rcases List.mem_append.mp next.2.1 with mem' | last'
        · exact .inl (before.tail ⟨mem, mem', next.2.2⟩)
        · obtain rfl := List.mem_singleton.mp last'
          exact .inr ⟨walked.tail next, .refl⟩
      · obtain rfl := List.mem_singleton.mp last
        exact .inr ⟨walked, .single next⟩
    · exact .inr ⟨first, second.tail next⟩

/-- Two elements are linked by the one that is added where it touches both. -/
theorem linked_snoc_iff (symm : ∀ a b, R a b → R b a) (refl : R c c) (here : a ∈ xs)
    (there : b ∈ xs) :
    Linked R (xs ++ [c]) a b ↔ Linked R xs a b ∨ Touches R xs a c ∧ Touches R xs b c := by
  constructor
  · intro linked
    refine (linked_snoc linked).imp_right fun through => ?_
    exact ⟨(linked_new_iff refl here).mp through.1,
      (linked_new_iff refl there).mp (through.2.symm symm)⟩
  · rintro (before | ⟨first, second⟩)
    · exact before.snoc c
    · exact first.linked.trans (second.linked.symm symm)

/-- An element that is related to none, itself included, links nothing. -/
theorem linked_snoc_of_apart (apart : ∀ x ∈ xs ++ [c], ¬ R x c ∧ ¬ R c x) :
    Linked R (xs ++ [c]) a b ↔ Linked R xs a b := by
  refine ⟨fun linked => ?_, fun linked => linked.snoc c⟩
  induction linked with
  | refl => exact .refl
  | @tail b b' _ next ih =>
    rcases List.mem_append.mp next.1 with mem | last
    · rcases List.mem_append.mp next.2.1 with mem' | last'
      · exact ih.tail ⟨mem, mem', next.2.2⟩
      · obtain rfl := List.mem_singleton.mp last'
        exact absurd next.2.2 (apart b next.1).1
    · obtain rfl := List.mem_singleton.mp last
      exact absurd next.2.2 (apart b' next.2.1).2

end Links
