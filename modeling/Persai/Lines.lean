import Persai.Segments

/-!
# Lines

A text cut behind each separator, so that its lines put together are the text again.

* `lines_append`: what comes behind a whole line is cut on its own;
* `lines_parts`: the first lines, and the last, are the lines of what they make up;
* `exists_cut`: a text is its whole lines and one that nothing ends yet.
-/

namespace Lines

variable {α : Type} [DecidableEq α] {sep : α}

/-- The lines, each with the separator that ends it. -/
def lines (sep : α) : List α → List (List α)
  | [] => []
  | a :: l =>
    if a = sep then [a] :: lines sep l
    else
      match lines sep l with
      | [] => [[a]]
      | first :: rest => (a :: first) :: rest

theorem lines_sep (l : List α) : lines sep (sep :: l) = [sep] :: lines sep l := if_pos rfl

theorem lines_cons {a : α} (other : a ≠ sep) {l first : List α} {rest : List (List α)}
    (cut : lines sep l = first :: rest) : lines sep (a :: l) = (a :: first) :: rest := by
  refine (if_neg other).trans ?_
  rw [cut]

theorem flatten_lines (sep : α) (l : List α) : (lines sep l).flatten = l := by
  induction l with
  | nil => rfl
  | cons a l ih =>
    rw [lines]
    split
    · rw [List.flatten_cons, ih, List.singleton_append]
    · cases cut : lines sep l with
      | nil =>
        rw [cut] at ih
        simp [← ih]
      | cons first rest =>
        rw [cut] at ih
        simp [← ih]

theorem lines_append {w : List α} (free : sep ∉ w) (l : List α) :
    lines sep (w ++ sep :: l) = (w ++ [sep]) :: lines sep l := by
  induction w with
  | nil => exact lines_sep l
  | cons a w ih =>
    exact lines_cons (Ne.symm (List.ne_of_not_mem_cons free))
      (ih (List.not_mem_of_not_mem_cons free))

theorem lines_word {w : List α} (free : sep ∉ w) (ne : w ≠ []) : lines sep w = [w] := by
  induction w with
  | nil => exact absurd rfl ne
  | cons a w ih =>
    have other := Ne.symm (List.ne_of_not_mem_cons free)
    cases w with
    | nil => exact if_neg other
    | cons b w =>
      exact lines_cons other (ih (List.not_mem_of_not_mem_cons free) (List.cons_ne_nil _ _))

theorem lines_parts {l : List α} {before behind : List (List α)}
    (cut : lines sep l = before ++ behind) :
    lines sep before.flatten = before ∧ lines sep behind.flatten = behind := by
  induction before generalizing l with
  | nil =>
    rw [List.nil_append] at cut
    exact ⟨rfl, by rw [← cut, flatten_lines sep]⟩
  | cons line before ih =>
    induction l using @Segments.cut_induction α _ sep with
    | word w free =>
      cases w with
      | nil => cases cut
      | cons a w =>
        rw [lines_word free (List.cons_ne_nil _ _)] at cut
        obtain ⟨rfl, nothing⟩ := List.cons.inj cut
        obtain ⟨rfl, rfl⟩ := List.append_eq_nil_iff.mp nothing.symm
        refine ⟨?_, rfl⟩
        rw [List.flatten_singleton, lines_word free (List.cons_ne_nil _ _)]
    | cut w rest free _ =>
      rw [lines_append free] at cut
      obtain ⟨rfl, later⟩ := List.cons.inj cut
      obtain ⟨first, last⟩ := ih later
      refine ⟨?_, last⟩
      rw [List.flatten_cons, List.append_assoc, List.singleton_append, lines_append free, first]

/-- The whole lines of a text, and the line that is not ended. -/
theorem exists_cut (sep : α) (l : List α) : ∃ whole rest, l = whole ++ rest ∧ sep ∉ rest ∧
    (whole = [] ∨ whole.getLast? = some sep) ∧
    ∀ more, lines sep (whole ++ more) = lines sep whole ++ lines sep more := by
  induction l using @Segments.cut_induction α _ sep with
  | word w free => exact ⟨[], w, rfl, free, .inl rfl, fun _ => rfl⟩
  | cut w l free ih =>
    obtain ⟨whole, rest, rfl, free', ends, behind⟩ := ih
    refine ⟨w ++ sep :: whole, rest, by simp, free', .inr ?_, fun more => ?_⟩
    · rcases ends with rfl | ends
      · simp
      · rw [List.getLast?_append, List.getLast?_cons, ends]
        rfl
    · rw [lines_append free, List.append_assoc, List.cons_append, lines_append free, behind,
        List.cons_append]

theorem cut_eq {whole rest : List α} (free : sep ∉ rest)
    (ends : whole = [] ∨ whole.getLast? = some sep) :
    (whole ++ rest).rdropWhile (· ≠ sep) = whole ∧
      (whole ++ rest).rtakeWhile (· ≠ sep) = rest := by
  rcases ends with rfl | ends
  · have others : ∀ a ∈ rest, decide (a ≠ sep) = true := fun a mem =>
      decide_eq_true fun same => free (same ▸ mem)
    rw [List.nil_append]
    exact ⟨List.rdropWhile_eq_nil_iff.mpr others, List.rtakeWhile_eq_self_iff.mpr others⟩
  · obtain ⟨before, rfl⟩ := List.getLast?_eq_some_iff.mp ends
    rw [List.append_assoc, List.singleton_append]
    exact ⟨Segments.rdropWhile_last free before, Segments.rtakeWhile_last free before⟩

/-- A line that is not ended goes on to its end. -/
theorem lines_extend {w : List α} (free : sep ∉ w) (ne : w ≠ []) (more : List α) :
    ∃ part ending rest, lines sep (w ++ more) = (w ++ part ++ ending) :: rest ∧ sep ∉ part ∧
      (ending = [] ∨ ending = [sep]) := by
  induction more using @Segments.cut_induction α _ sep with
  | word m free' =>
    have free'' : sep ∉ w ++ m := by simp [free, free']
    have ne' : w ++ m ≠ [] := by simp [ne]
    exact ⟨m, [], [], by rw [lines_word free'' ne', List.append_nil], free', .inl rfl⟩
  | cut m rest free' _ =>
    have free'' : sep ∉ w ++ m := by simp [free, free']
    exact ⟨m, [sep], lines sep rest, by rw [← List.append_assoc, lines_append free''], free',
      .inr rfl⟩

/-- A line without the separator at its end. -/
def lineOf (sep : α) (line : List α) : List α := line.takeWhile (· ≠ sep)

theorem lineOf_word {w ending : List α} (free : sep ∉ w) (ends : ending = [] ∨ ending = [sep]) :
    lineOf sep (w ++ ending) = w := by
  have kept : ∀ a ∈ w, decide (a ≠ sep) = true := fun a mem =>
    decide_eq_true fun same => free (same ▸ mem)
  rw [lineOf, List.takeWhile_append_of_pos kept]
  rcases ends with rfl | rfl <;> simp

theorem lineOf_self {w : List α} (free : sep ∉ w) : lineOf sep w = w := by
  have word := lineOf_word free (.inl rfl)
  rwa [List.append_nil] at word

end Lines
