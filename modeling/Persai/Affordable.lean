import Mathlib.Algebra.BigOperators.Group.List.Basic
import Mathlib.Algebra.GroupWithZero.Nat
import Mathlib.Data.List.Infix

/-!
# The longest end of a list that a budget affords

Elements have a size; from the last one back they are kept as long as the budget affords them
on top of what is spent already. The last one may be kept in any case.

* `IsLatest`: what such an end is, `isLatest_latest`: the greedy choice is one;
* `IsLatest.again`: two cuts in a row are one;
* `IsLatest.suffix_iff`: which ends of the list are kept.
-/

namespace Affordable

variable {α : Type} (size : α → Nat)

def total (l : List α) : Nat := (l.map size).sum

/-- From the first on, the elements that the budget affords; with `forced` the first anyway. -/
def newest (budget : Nat) : Nat → Bool → List α → List α
  | _, _, [] => []
  | spent, forced, a :: l =>
    if budget < spent + size a ∧ forced = false then []
    else a :: newest budget (spent + size a) false l

/-- The same from the last element back, which is kept in any case. -/
def latest (budget spent : Nat) (l : List α) : List α :=
  (newest size budget spent true l.reverse).reverse

structure IsLatest (budget spent : Nat) (l kept : List α) : Prop where
  suffix : kept <:+ l
  nonempty : l ≠ [] → kept ≠ []
  fits : kept.length ≤ 1 ∨ spent + total size kept ≤ budget
  longest : ∀ t, t <:+ l → kept.length < t.length → budget < spent + total size t

section
variable {size : α → Nat} {budget spent : Nat} {l kept : List α}

@[simp] theorem total_nil : total size [] = 0 := rfl

@[simp] theorem total_cons (a : α) (l : List α) : total size (a :: l) = size a + total size l := rfl

@[simp] theorem total_append (l l' : List α) :
    total size (l ++ l') = total size l + total size l' := by
  simp [total]

@[simp] theorem total_reverse (l : List α) : total size l.reverse = total size l := by
  rw [total, List.map_reverse, List.sum_reverse, total]

theorem total_le_of_suffix (size : α → Nat) {t : List α} (h : t <:+ l) :
    total size t ≤ total size l := by
  obtain ⟨before, rfl⟩ := h
  rw [total_append]
  exact Nat.le_add_left ..

theorem newest_isPrefix (size : α → Nat) (budget spent : Nat) (forced : Bool) (l : List α) :
    newest size budget spent forced l <+: l := by
  induction l generalizing spent forced with
  | nil => exact List.prefix_rfl
  | cons a l ih =>
    unfold newest
    split
    · exact List.nil_prefix
    · exact List.cons_prefix_cons.mpr ⟨rfl, ih _ _⟩

theorem newest_fits (size : α → Nat) (budget spent : Nat) (forced : Bool) (l : List α) :
    (newest size budget spent forced l).length ≤ forced.toNat ∨
      spent + total size (newest size budget spent forced l) ≤ budget := by
  induction l generalizing spent forced with
  | nil => exact .inl (Nat.zero_le _)
  | cons a l ih =>
    unfold newest
    split
    · exact .inl (Nat.zero_le _)
    rename_i taken
    rw [List.length_cons, total_cons]
    rcases ih (spent + size a) false with none | fits
    · have none := List.eq_nil_of_length_eq_zero (Nat.le_zero.mp none)
      rw [none]
      cases forced with
      | true => exact .inl (Nat.le_refl _)
      | false =>
        refine .inr ?_
        have affordable : ¬ budget < spent + size a := fun dear => taken ⟨dear, rfl⟩
        simpa using affordable
    · exact .inr (by omega)

theorem newest_longest (size : α → Nat) (budget spent : Nat) (forced : Bool) (l : List α)
    {t : List α} (ht : t <+: l) (longer : (newest size budget spent forced l).length < t.length) :
    budget < spent + total size t := by
  induction l generalizing spent forced t with
  | nil =>
    rw [List.prefix_nil.mp ht] at longer
    cases longer
  | cons a l ih =>
    cases t with
    | nil => cases longer
    | cons b t =>
      obtain ⟨rfl, rest⟩ := List.cons_prefix_cons.mp ht
      rw [total_cons]
      unfold newest at longer
      split at longer
      · rename_i dear
        omega
      · have := ih (spent + size b) false rest (Nat.lt_of_succ_lt_succ longer)
        omega

theorem isLatest_latest (size : α → Nat) (budget spent : Nat) (l : List α) :
    IsLatest size budget spent l (latest size budget spent l) where
  suffix := by
    have front := newest_isPrefix size budget spent true l.reverse
    simpa [latest] using List.reverse_suffix.mpr front
  nonempty := by
    intro some none
    have none : newest size budget spent true l.reverse = [] := List.reverse_eq_nil_iff.mp none
    cases back : l.reverse with
    | nil => exact some (List.reverse_eq_nil_iff.mp back)
    | cons a rest => simp [back, newest] at none
  fits := by
    have fits := newest_fits size budget spent true l.reverse
    simpa [latest] using fits
  longest := by
    intro t ht longer
    have front : t.reverse <+: l.reverse := List.reverse_prefix.mpr ht
    have dear := newest_longest size budget spent true l.reverse front
      (by simpa [latest] using longer)
    rwa [total_reverse] at dear

/-- A cut on top of a first one, which had spent nothing. -/
theorem IsLatest.again {kept' : List α} (first : IsLatest size budget 0 l kept)
    (second : IsLatest size budget spent kept kept') : IsLatest size budget spent l kept' where
  suffix := second.suffix.trans first.suffix
  nonempty some := second.nonempty (first.nonempty some)
  fits := second.fits
  longest := by
    intro t ht longer
    rcases Nat.lt_or_ge kept.length t.length with cut | within
    · have := first.longest t ht cut
      omega
    · exact second.longest t (List.suffix_of_suffix_length_le ht first.suffix within) longer

/-- An end of the list is kept when it is the last element, or affordable. -/
theorem IsLatest.suffix_iff (h : IsLatest size budget spent l kept) {t : List α} (ht : t <:+ l)
    (nonempty : t ≠ []) : t <:+ kept ↔ t.length ≤ 1 ∨ spent + total size t ≤ budget := by
  constructor
  · intro inside
    rcases h.fits with short | fits
    · exact .inl (Nat.le_trans inside.length_le short)
    · have := total_le_of_suffix size inside
      exact .inr (by omega)
  · intro affordable
    refine List.suffix_of_suffix_length_le ht h.suffix (Nat.le_of_not_lt fun longer => ?_)
    have dear := h.longest t ht longer
    rcases affordable with single | fits
    · have some : l ≠ [] := by
        rintro rfl
        exact nonempty (List.suffix_nil.mp ht)
      have := List.length_pos_iff.mpr (h.nonempty some)
      omega
    · omega

end

end Affordable
