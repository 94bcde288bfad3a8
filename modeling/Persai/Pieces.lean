import Persai.Strip

/-!
# Pieces of a list

A piece is a list together with the place where it lies in a longer one. Trimming a piece loses
only elements that may be dropped.
-/

namespace Persai

/-- A list that lies in `text` from `start` on. -/
structure Piece {α : Type} (text : List α) where
  start : ℕ
  content : List α
  lies : content <+: text.drop start

namespace Piece

variable {α : Type} {text : List α}

def Covers (piece : Piece text) (i : ℕ) : Prop :=
  piece.start ≤ i ∧ i < piece.start + piece.content.length

/-- What lies between two positions, trimmed. -/
def trimmed (p : α → Bool) (text : List α) (start stop : ℕ) : List α :=
  strip p ((text.take stop).drop start)

theorem length_trimmed_le (p : α → Bool) (start stop : ℕ) :
    (trimmed p text start stop).length ≤ stop - start := by
  obtain ⟨lead, trail, split, -, -⟩ := strip_cases p ((text.take stop).drop start)
  have lengths := congrArg List.length split
  rw [List.length_drop, List.length_take, List.length_append, List.length_append] at lengths
  rw [trimmed]
  omega

/-- From an element that is kept on, the trimmed piece has every other such element. -/
theorem exists_trimmed {p : α → Bool} {start stop : ℕ}
    (starts : ∀ a, text[start]? = some a → p a = false) (less : start < stop) :
    ∃ piece : Piece text, piece.start = start ∧ piece.content = trimmed p text start stop ∧
      ∀ i a, text[i]? = some a → p a = false → start ≤ i → i < stop → piece.Covers i := by
  obtain ⟨lead, trail, split, leads, trails⟩ := strip_cases p ((text.take stop).drop start)
  have within (k : ℕ) (inside : start + k < stop) :
      ((text.take stop).drop start)[k]? = text[start + k]? := by
    rw [List.getElem?_drop, List.getElem?_take_of_lt inside]
  have no_lead : lead = [] := by
    by_contra leading
    obtain ⟨a, rest, rfl⟩ := List.exists_cons_of_ne_nil leading
    have first := within 0 (by omega)
    rw [split] at first
    exact absurd (leads a List.mem_cons_self) (by simp [starts a first.symm])
  subst no_lead
  rw [List.nil_append] at split
  refine ⟨⟨start, trimmed p text start stop, ?_⟩, rfl, rfl, fun i a at_i kept after before => ?_⟩
  · refine (List.prefix_append _ trail).trans ?_
    rw [trimmed, ← split]
    exact List.IsPrefix.drop (List.take_prefix stop text) start
  · refine ⟨after, ?_⟩
    by_contra beyond
    dsimp only [trimmed] at beyond
    have here := within (i - start) (by omega)
    rw [Nat.add_sub_cancel' after, at_i, split,
      List.getElem?_append_right (by omega)] at here
    exact absurd (trails a (List.mem_of_getElem? here)) (by simp [kept])

end Piece

end Persai
