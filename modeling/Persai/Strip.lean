import Mathlib.Data.List.DropRight
import Mathlib.Data.List.Infix
import Mathlib.Data.List.TakeWhile
import Mathlib.Tactic.SplitIfs

/-!
# Blank elements of a list

* `strip`: the list without the blank elements at its ends;
* `collapseRuns`: the list with one element for each run of blank ones;
* `strip_intercalate_eq_iff`: when a separator between the parts of a concatenation shows in what
  is left of it.
-/

namespace Persai

variable {α : Type} (blank : α → Bool)

/-- The list without the blank elements at both ends. -/
def strip (l : List α) : List α := (l.dropWhile blank).rdropWhile blank

section

variable (l : List α)

theorem strip_cases : ∃ lead trail, l = lead ++ strip blank l ++ trail ∧
    (∀ a ∈ lead, blank a) ∧ ∀ a ∈ trail, blank a := by
  refine ⟨l.takeWhile blank, (l.dropWhile blank).rtakeWhile blank, ?_, fun a member => ?_,
    fun a member => ?_⟩
  · rw [strip, List.append_assoc, List.rdropWhile_append_rtakeWhile,
      List.takeWhile_append_dropWhile]
  · exact List.mem_takeWhile_imp member
  · exact List.mem_rtakeWhile_imp member

theorem strip_within : strip blank l <:+: l := by
  obtain ⟨lead, trail, split, -, -⟩ := strip_cases blank l
  exact ⟨lead, trail, split.symm⟩

theorem head_strip {a : α} (starts : (strip blank l)[0]? = some a) : blank a = false := by
  have nonempty : (strip blank l) ≠ [] := by
    rintro empty
    rw [empty] at starts
    cases starts
  obtain ⟨trail, split⟩ : strip blank l <+: l.dropWhile blank := List.rdropWhile_prefix blank _
  have dropped : l.dropWhile blank ≠ [] := by
    rintro empty
    rw [strip, empty] at nonempty
    exact nonempty rfl
  have same : (l.dropWhile blank).head dropped = a := by
    have first : (l.dropWhile blank)[0]? = some a := by
      rw [← split, List.getElem?_append_left (List.length_pos_iff.mpr nonempty)]
      exact starts
    rw [List.head_eq_getElem, ← Option.some_inj, ← List.getElem?_eq_getElem, first]
  rw [← same]
  exact List.head_dropWhile_not blank dropped

theorem strip_strip : strip blank (strip blank l) = strip blank l := by
  have starts : (strip blank l).dropWhile blank = strip blank l := by
    rw [List.dropWhile_eq_self_iff]
    intro nonempty
    rw [head_strip blank l (List.getElem?_eq_getElem nonempty)]
    exact Bool.false_ne_true
  rw [strip, starts, strip, List.rdropWhile_idempotent]

end

/-- Each run of blank elements becomes one `space`; `inRun` while those before are blank. -/
def collapseRuns (space : α) : Bool → List α → List α
  | _, [] => []
  | inRun, a :: rest =>
    if blank a then
      if inRun then collapseRuns space true rest else space :: collapseRuns space true rest
    else a :: collapseRuns space false rest

variable {blank}

theorem collapseRuns_head {space : α} {inRun : Bool} {l : List α} :
    ∀ a, (collapseRuns blank space inRun l).head? = some a → inRun = true → blank a = false := by
  induction l generalizing inRun with
  | nil => simp [collapseRuns]
  | cons b rest ih =>
    intro a first run
    rw [collapseRuns] at first
    split_ifs at first with here
    · exact ih a first rfl
    · obtain rfl : b = a := by simpa using first
      simpa using here

theorem rdropWhile_append (l m : List α) :
    (l ++ m).rdropWhile blank =
      if m.all blank then l.rdropWhile blank else l ++ m.rdropWhile blank := by
  unfold List.rdropWhile
  rw [List.reverse_append, List.dropWhile_append]
  have all_iff : (m.reverse.dropWhile blank).isEmpty = m.all blank := by
    rw [Bool.eq_iff_iff]
    simp [List.isEmpty_iff]
  rw [all_iff]
  split
  · rfl
  · simp

theorem rdropWhile_cons_of_neg {a : α} (shows : ¬ blank a) (l : List α) :
    (a :: l).rdropWhile blank = a :: l.rdropWhile blank := by
  have kept : [a].rdropWhile blank = [a] := by rw [List.rdropWhile_singleton, if_neg shows]
  rw [← List.singleton_append, rdropWhile_append, kept]
  split
  next all_blank =>
    rw [List.rdropWhile_eq_nil_iff.mpr fun b mem => List.all_eq_true.mp all_blank b mem]
  next => rfl

theorem strip_append_left {l : List α} (blanks : l.all blank) (m : List α) :
    strip blank (l ++ m) = strip blank m := by
  unfold strip
  rw [List.dropWhile_append_of_pos (by simpa using blanks)]

theorem strip_append_right {m : List α} (blanks : m.all blank) (l : List α) :
    strip blank (l ++ m) = strip blank l := by
  unfold strip
  rw [List.dropWhile_append]
  split
  · rename_i empty
    rw [List.isEmpty_iff.mp empty, List.dropWhile_eq_nil_iff.mpr (by simpa using blanks)]
  · rw [rdropWhile_append, if_pos blanks]

/-- Between two parts that are not blank nothing is stripped. -/
theorem strip_append {l m : List α} (left : ¬ l.all blank) (right : ¬ m.all blank) :
    strip blank (l ++ m) = l.dropWhile blank ++ m.rdropWhile blank := by
  unfold strip
  rw [List.dropWhile_append, if_neg, rdropWhile_append, if_neg right]
  simpa [List.isEmpty_iff] using left

variable {separator : α}

theorem intercalate_all (isBlank : blank separator) (parts : List (List α)) :
    ([separator].intercalate parts).all blank = parts.all (·.all blank) := by
  induction parts with
  | nil => rfl
  | cons part rest ih =>
    cases rest with
    | nil => simp
    | cons next rest =>
      rw [List.intercalate_cons_cons, List.all_append, ih]
      simp [isBlank]

/-- Separators only add to what is left of the end. -/
theorem length_rdropWhile_flatten_le (isBlank : blank separator) (parts : List (List α)) :
    (parts.flatten.rdropWhile blank).length ≤
      (([separator].intercalate parts).rdropWhile blank).length := by
  induction parts with
  | nil => exact Nat.le_refl _
  | cons part rest ih =>
    cases rest with
    | nil => simp
    | cons next rest =>
      rw [List.flatten_cons, List.intercalate_cons_cons, rdropWhile_append, rdropWhile_append,
        intercalate_all isBlank, List.all_flatten]
      split
      · rw [rdropWhile_append, if_pos (by simpa using isBlank)]
      · simp only [List.length_append, List.length_cons, List.length_nil]
        omega

/-- The number of parts that are more than blanks. -/
def shown (blank : α → Bool) (parts : List (List α)) : Nat :=
  parts.countP fun part => !part.all blank

/-- Two parts that are more than blanks, with what follows the first: the separator shows. -/
theorem strip_separated_ne (isBlank : blank separator) {part : List α} {rest : List (List α)}
    (first : ¬ part.all blank) (tail : ¬ rest.all (·.all blank)) :
    strip blank (part ++ [separator] ++ [separator].intercalate rest) ≠
      strip blank (part ++ rest.flatten) := by
  have joined : ¬ ([separator].intercalate rest).all blank := by
    rw [intercalate_all isBlank]
    exact tail
  have separated : ¬ (separator :: [separator].intercalate rest).all blank := by
    rw [List.all_cons, isBlank]
    simpa using joined
  have longer := length_rdropWhile_flatten_le isBlank rest
  intro same
  rw [List.append_assoc, List.singleton_append, strip_append first separated,
    strip_append first (by rw [List.all_flatten]; exact tail), List.append_cancel_left_eq,
    ← List.singleton_append, rdropWhile_append, if_neg joined] at same
  have lengths := congrArg List.length same
  simp only [List.length_append, List.length_cons, List.length_nil] at lengths
  omega

/-- A blank separator shows in the stripped concatenation exactly when it stands between two parts
that are more than blanks. -/
theorem strip_intercalate_eq_iff (isBlank : blank separator) (parts : List (List α)) :
    strip blank ([separator].intercalate parts) = strip blank parts.flatten ↔
      shown blank parts ≤ 1 := by
  induction parts with
  | nil => simp [shown]
  | cons part rest ih =>
    cases rest with
    | nil =>
      rw [List.intercalate_singleton, List.flatten_cons, List.flatten_nil, List.append_nil]
      exact iff_of_true rfl List.countP_le_length
    | cons next rest =>
      rw [List.intercalate_cons_cons, List.flatten_cons]
      by_cases blanks : part.all blank
      · have separated : (part ++ [separator]).all blank := by simp [blanks, isBlank]
        have counted : shown blank (part :: next :: rest) = shown blank (next :: rest) := by
          simp [shown, List.countP_cons, blanks]
        rw [strip_append_left separated, strip_append_left blanks, ih, counted]
      · have counted : shown blank (part :: next :: rest) = shown blank (next :: rest) + 1 := by
          simp [shown, List.countP_cons, blanks]
        by_cases tail : (next :: rest).all (·.all blank)
        · have none_shown : shown blank (next :: rest) = 0 := by
            simpa [shown, List.countP_eq_zero] using tail
          have joined : ([separator] ++ [separator].intercalate (next :: rest)).all blank := by
            rw [List.all_append, intercalate_all isBlank, tail]
            simp [isBlank]
          rw [List.append_assoc, strip_append_right joined,
            strip_append_right (by rw [List.all_flatten]; exact tail), counted, none_shown]
          simp
        · have some_shown : 0 < shown blank (next :: rest) := by
            rw [shown, List.countP_pos_iff]
            rw [List.all_eq_true] at tail
            simpa only [Classical.not_forall, exists_prop, Bool.not_eq_eq_eq_not, Bool.not_true,
              Bool.not_eq_true] using tail
          rw [counted]
          exact iff_of_false (strip_separated_ne isBlank blanks tail) (by omega)

end Persai
