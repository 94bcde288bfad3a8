import Persai.Strip

/-!
# Segments between separators

A list cut at a separator, less the empty parts: how that goes with concatenation, what is left of
it by collapsing and replacing repeated separators, and that the segments of a joined list are its
parts.
-/

namespace Segments

variable {α : Type} [DecidableEq α] (sep : α)

/-- The parts between separators that are not empty. -/
def segments (l : List α) : List (List α) := (l.splitOn sep).filter (· ≠ [])

/-- The parts with separators before and between them. -/
def absolute (parts : List (List α)) : List α := sep :: [sep].intercalate parts

/-- One separator in place of each run of them. -/
def collapse : List α → List α
  | [] => []
  | [a] => [a]
  | a :: b :: rest => if a = sep ∧ b = sep then collapse (b :: rest) else a :: collapse (b :: rest)

/-- One `new` in place of each run of `old`. -/
def replaceRuns (old new : α) : List α → List α
  | [] => []
  | [a] => if a = old then [new] else [a]
  | a :: b :: rest =>
    if a = old then
      if b = old then replaceRuns old new (b :: rest) else new :: replaceRuns old new (b :: rest)
    else a :: replaceRuns old new (b :: rest)

def replaceEach (old new : α) (l : List α) : List α := l.map fun a => if a = old then new else a

/-- What a list can be cut into. -/
def IsPart (part : List α) : Prop := part ≠ [] ∧ sep ∉ part

variable {sep}

/-! ## Cutting -/

/-- A list without separators, or a part without, a separator and the rest. -/
theorem cut_induction {motive : List α → Prop} (word : ∀ w, sep ∉ w → motive w)
    (cut : ∀ w l, sep ∉ w → motive l → motive (w ++ sep :: l)) (l : List α) : motive l := by
  by_cases h : sep ∈ l
  · obtain ⟨w, rest, joined, free⟩ := List.eq_append_cons_of_mem h
    have shorter : rest.length < l.length := by simp [joined]; omega
    exact joined ▸ cut w rest free (cut_induction word cut rest)
  · exact word l h
termination_by l.length

theorem mem_splitOn {l part : List α} (mem : part ∈ l.splitOn sep) :
    sep ∉ part ∧ part <:+: l := by
  induction l using @cut_induction α _ sep with
  | word w free =>
    rw [List.splitOn_eq_singleton free, List.mem_singleton] at mem
    subst mem
    exact ⟨free, List.infix_rfl⟩
  | cut w l free ih =>
    rw [List.splitOn_append_cons_self_of_not_mem free, List.mem_cons] at mem
    rcases mem with rfl | later
    · exact ⟨free, (List.prefix_append ..).isInfix⟩
    · obtain ⟨free', within⟩ := ih later
      refine ⟨free', within.trans ?_⟩
      exact ((List.suffix_cons sep l).trans (List.suffix_append w _)).isInfix

@[simp] theorem segments_nil : segments sep ([] : List α) = [] := rfl

theorem segments_append_sep (l m : List α) :
    segments sep (l ++ sep :: m) = segments sep l ++ segments sep m := by
  simp only [segments, List.splitOn_append_cons_self, List.filter_append]

@[simp] theorem segments_sep (l : List α) : segments sep (sep :: l) = segments sep l :=
  segments_append_sep [] l

theorem segments_word {w : List α} (free : sep ∉ w) :
    segments sep w = if w = [] then [] else [w] := by
  rw [segments, List.splitOn_eq_singleton free]
  by_cases h : w = [] <;> simp [h]

theorem isPart_of_mem_segments {l part : List α} (mem : part ∈ segments sep l) :
    IsPart sep part := by
  induction l using @cut_induction α _ sep with
  | word w free =>
    rw [segments_word free] at mem
    split at mem
    · cases mem
    next ne => exact List.mem_singleton.mp mem ▸ ⟨ne, free⟩
  | cut w l free ih =>
    rw [segments_append_sep, segments_word free] at mem
    rcases List.mem_append.mp mem with first | later
    · split at first
      · cases first
      next ne => exact List.mem_singleton.mp first ▸ ⟨ne, free⟩
    · exact ih later

theorem mem_of_mem_segments {l part : List α} (mem : part ∈ segments sep l) {a : α}
    (inside : a ∈ part) : a ∈ l := by
  induction l using @cut_induction α _ sep with
  | word w free =>
    rw [segments_word free] at mem
    split at mem
    · cases mem
    · exact List.mem_singleton.mp mem ▸ inside
  | cut w l free ih =>
    rw [segments_append_sep, segments_word free] at mem
    rcases List.mem_append.mp mem with first | later
    · split at first
      · cases first
      · exact List.mem_append_left _ (List.mem_singleton.mp first ▸ inside)
    · exact List.mem_append_right _ (List.mem_cons_of_mem _ (ih later))

/-- What is added without a separator goes to the last part. -/
theorem segments_append_word (l : List α) {w : List α} (isPart : IsPart sep w) :
    ∃ init last, segments sep (l ++ w) = init ++ [last ++ w] ∧
      segments sep l = init ++ if last = [] then [] else [last] := by
  induction l using @cut_induction α _ sep with
  | word u free =>
    have whole : sep ∉ u ++ w := by simp [free, isPart.2]
    refine ⟨[], u, ?_, by rw [segments_word free]; rfl⟩
    rw [segments_word whole, if_neg (by simp [isPart.1])]
    rfl
  | cut u l free ih =>
    obtain ⟨init, last, appended, before⟩ := ih
    refine ⟨segments sep u ++ init, last, ?_, ?_⟩
    · rw [List.append_assoc, List.cons_append, segments_append_sep, appended, List.append_assoc]
    · rw [segments_append_sep, before, List.append_assoc]

/-! ## Joining -/

theorem segments_absolute {parts : List (List α)} (areParts : ∀ part ∈ parts, IsPart sep part) :
    segments sep (absolute sep parts) = parts := by
  rw [absolute, segments_sep]
  by_cases h : parts = []
  · subst h
    rfl
  · rw [segments, List.splitOn_intercalate sep (fun part mem => (areParts part mem).2) h]
    exact List.filter_eq_self.mpr fun part mem => by simpa using (areParts part mem).1

omit [DecidableEq α] in
theorem absolute_eq_flatMap {parts : List (List α)} (ne : parts ≠ []) :
    absolute sep parts = parts.flatMap (sep :: ·) := by
  induction parts with
  | nil => exact absurd rfl ne
  | cons part rest ih =>
    cases rest with
    | nil => simp [absolute]
    | cons next rest =>
      have joined := ih (List.cons_ne_nil _ _)
      rw [absolute, List.intercalate_cons_cons, List.flatMap_cons, ← joined]
      simp [absolute]

omit [DecidableEq α] in
theorem absolute_concat (init : List (List α)) (part : List α) :
    absolute sep (init ++ [part]) = (init.flatMap (sep :: ·) ++ [sep]) ++ part := by
  rw [absolute_eq_flatMap (by simp)]
  simp

omit [DecidableEq α] in
theorem absolute_append {first rest : List (List α)} (ne : first ≠ []) (more : rest ≠ []) :
    absolute sep (first ++ rest) = absolute sep first ++ absolute sep rest := by
  rw [absolute_eq_flatMap (by simp [ne]), absolute_eq_flatMap ne, absolute_eq_flatMap more,
    List.flatMap_append]

omit [DecidableEq α] in
theorem mem_absolute {parts : List (List α)} {a : α} (mem : a ∈ absolute sep parts) :
    a = sep ∨ ∃ part ∈ parts, a ∈ part := by
  by_cases h : parts = []
  · subst h
    exact .inl (by simpa [absolute] using mem)
  · rw [absolute_eq_flatMap h] at mem
    obtain ⟨part, inside, mem⟩ := List.mem_flatMap.mp mem
    rcases List.mem_cons.mp mem with is_sep | later
    · exact .inl is_sep
    · exact .inr ⟨part, inside, later⟩

theorem absolute_injective {parts others : List (List α)}
    (areParts : ∀ part ∈ parts, IsPart sep part) (areParts' : ∀ part ∈ others, IsPart sep part)
    (same : absolute sep parts = absolute sep others) : parts = others := by
  rw [← segments_absolute areParts, same, segments_absolute areParts']

omit [DecidableEq α] in
theorem intercalate_append {first rest : List (List α)} (ne : first ≠ []) (more : rest ≠ []) :
    [sep].intercalate (first ++ rest) =
      [sep].intercalate first ++ sep :: [sep].intercalate rest := by
  have joined : absolute sep (first ++ rest) = absolute sep first ++ absolute sep rest :=
    absolute_append ne more
  exact (List.cons.inj joined).2

omit [DecidableEq α] in
theorem intercalate_cons (w : List α) {rest : List (List α)} (more : rest ≠ []) :
    [sep].intercalate (w :: rest) = w ++ sep :: [sep].intercalate rest := by
  have joined : [sep].intercalate ([w] ++ rest) =
      [sep].intercalate [w] ++ sep :: [sep].intercalate rest :=
    intercalate_append (List.cons_ne_nil _ _) more
  rwa [List.intercalate_singleton] at joined

theorem segments_intercalate {parts : List (List α)}
    (areParts : ∀ part ∈ parts, IsPart sep part) :
    segments sep ([sep].intercalate parts) = parts := by
  rw [← segments_sep]
  exact segments_absolute areParts

theorem segments_part {w : List α} (part : IsPart sep w) : segments sep w = [w] := by
  rw [segments_word part.2, if_neg part.1]

/-- A joined list begins with a part that is the whole of it or has a separator behind it. -/
theorem head?_eq_some_iff {parts : List (List α)} (areParts : ∀ part ∈ parts, IsPart sep part)
    {w : List α} (part : IsPart sep w) :
    parts.head? = some w ↔
      [sep].intercalate parts = w ∨ w ++ [sep] <+: [sep].intercalate parts := by
  have cut := segments_intercalate areParts
  constructor
  · intro head
    obtain ⟨rest, rfl⟩ := List.head?_eq_some_iff.mp head
    by_cases only : rest = []
    · exact .inl (by simp [only])
    · exact .inr ⟨[sep].intercalate rest, by simp [intercalate_cons w only]⟩
  · rintro (whole | ⟨rest, joined⟩)
    · rw [whole, segments_part part] at cut
      rw [← cut]
      rfl
    · rw [← joined, List.append_assoc, List.singleton_append, segments_append_sep,
        segments_part part] at cut
      rw [← cut]
      rfl

/-- A part of a joined list is the whole of it, or stands at its start, at its end or within. -/
theorem mem_iff_intercalate {parts : List (List α)} (areParts : ∀ part ∈ parts, IsPart sep part)
    {w : List α} (part : IsPart sep w) :
    w ∈ parts ↔
      [sep].intercalate parts = w ∨ w ++ [sep] <+: [sep].intercalate parts ∨
        sep :: w <:+ [sep].intercalate parts ∨
          sep :: (w ++ [sep]) <:+: [sep].intercalate parts := by
  have cut := segments_intercalate areParts
  constructor
  · intro mem
    obtain ⟨before, after, rfl⟩ := List.append_of_mem mem
    by_cases first : before = []
    · have head := (head?_eq_some_iff areParts part).mp (by rw [first]; rfl)
      exact head.imp_right .inl
    · rw [intercalate_append first (List.cons_ne_nil _ _)]
      by_cases last : after = []
      · rw [last, List.intercalate_singleton]
        exact .inr (.inr (.inl (List.suffix_append _ _)))
      · refine .inr (.inr (.inr ⟨[sep].intercalate before, [sep].intercalate after, ?_⟩))
        simp [intercalate_cons w last]
  · rintro (whole | ⟨rest, joined⟩ | ⟨first, joined⟩ | ⟨first, rest, joined⟩)
    · rw [whole, segments_part part] at cut
      simp [← cut]
    · rw [← joined, List.append_assoc, List.singleton_append, segments_append_sep,
        segments_part part] at cut
      simp [← cut]
    · rw [← joined, segments_append_sep, segments_part part] at cut
      simp [← cut]
    · rw [← joined, List.append_assoc, List.cons_append, List.append_assoc, segments_append_sep,
        List.singleton_append, segments_append_sep, segments_part part] at cut
      simp [← cut]

/-! ## Collapsing -/

theorem collapse_cons_of_ne {a : α} (ne : a ≠ sep) (l : List α) :
    collapse sep (a :: l) = a :: collapse sep l := by
  cases l with
  | nil => rfl
  | cons b l => simp [collapse, ne]

theorem collapse_word {w : List α} (free : sep ∉ w) (l : List α) :
    collapse sep (w ++ l) = w ++ collapse sep l := by
  induction w with
  | nil => rfl
  | cons a w ih =>
    have ⟨ne, rest⟩ : a ≠ sep ∧ sep ∉ w := by simpa [eq_comm] using free
    rw [List.cons_append, collapse_cons_of_ne ne, ih rest]
    rfl

theorem collapse_sep_word {w : List α} (isPart : IsPart sep w) (l : List α) :
    collapse sep (sep :: (w ++ l)) = sep :: w ++ collapse sep l := by
  cases w with
  | nil => exact absurd rfl isPart.1
  | cons a w =>
    have ne : a ≠ sep := fun same => isPart.2 (by simp [same])
    have collapsed := collapse_word isPart.2 l
    simp only [List.cons_append] at collapsed ⊢
    rw [collapse, if_neg (by simp [ne]), collapsed]

theorem rdropWhile_sep_word {w : List α} (isPart : IsPart sep w) :
    (sep :: w).rdropWhile (· = sep) = sep :: w := by
  refine List.rdropWhile_eq_self_iff.mpr fun _ => ?_
  rw [List.getLast_cons isPart.1]
  have apart : w.getLast isPart.1 ≠ sep := fun same => isPart.2 (same ▸ List.getLast_mem _)
  simpa using apart

/-- The collapsed list, less the separators at its end. -/
theorem rdropWhile_collapse (l : List α) :
    (collapse sep (sep :: l)).rdropWhile (· = sep) = (segments sep l).flatMap (sep :: ·) := by
  induction l using @cut_induction α _ sep with
  | word w free =>
    rw [segments_word free]
    by_cases h : w = []
    · subst h
      simp [collapse]
    · have collapsed := collapse_sep_word ⟨h, free⟩ []
      rw [List.append_nil] at collapsed
      rw [collapsed, if_neg h, collapse, List.append_nil, rdropWhile_sep_word ⟨h, free⟩]
      simp
  | cut w l free ih =>
    rw [segments_append_sep, segments_word free]
    by_cases h : w = []
    · subst h
      simpa [collapse] using ih
    · rw [collapse_sep_word ⟨h, free⟩, Persai.rdropWhile_append, rdropWhile_sep_word ⟨h, free⟩, ih,
        if_neg h]
      split
      next all_sep =>
        have nothing : (collapse sep (sep :: l)).rdropWhile (· = sep) = [] :=
          List.rdropWhile_eq_nil_iff.mpr fun a mem => List.all_eq_true.mp all_sep a mem
        rw [ih] at nothing
        rw [List.flatMap_append, nothing]
        simp
      next => simp

theorem collapse_of_no_segments {l : List α} (empty : segments sep l = []) :
    collapse sep (sep :: l) = [sep] := by
  induction l using @cut_induction α _ sep with
  | word w free =>
    rw [segments_word free] at empty
    split at empty
    next h => rw [h]; rfl
    next => cases empty
  | cut w l free ih =>
    rw [segments_append_sep, segments_word free] at empty
    obtain ⟨no_word, none_later⟩ := List.append_eq_nil_iff.mp empty
    split at no_word
    next h =>
      subst h
      simpa [collapse] using ih none_later
    next => cases no_word

/-- Collapsing, and dropping the separators at the end of more than one separator. -/
theorem collapse_eq_absolute (l : List α) :
    (if 1 < (collapse sep (sep :: l)).length then (collapse sep (sep :: l)).rdropWhile (· = sep)
      else collapse sep (sep :: l)) = absolute sep (segments sep l) := by
  by_cases h : segments sep l = []
  · rw [collapse_of_no_segments h, h]
    rfl
  · have dropped := @rdropWhile_collapse α _ sep l
    have more : 1 < (collapse sep (sep :: l)).length := by
      have shorter := (List.rdropWhile_prefix (· = sep) (l := collapse sep (sep :: l))).length_le
      obtain ⟨part, mem⟩ := List.exists_mem_of_ne_nil _ h
      have nonempty := List.length_pos_of_ne_nil (isPart_of_mem_segments mem).1
      have inside : (sep :: part).length ≤ ((segments sep l).flatMap (sep :: ·)).length := by
        rw [List.flatMap_def]
        exact (List.sublist_flatten_of_mem (List.mem_map_of_mem mem)).length_le
      rw [dropped] at shorter
      simp only [List.length_cons] at inside
      omega
    rw [if_pos more, dropped, absolute_eq_flatMap h]

/-! ## Blanks at the end -/

section
variable {blank : α → Bool} {l : List α}

def endsIn (blank : α → Bool) (l : List α) : Bool := l.getLast?.any blank

omit [DecidableEq α] in
theorem rdropWhile_of_not_endsIn (ends : ¬ endsIn blank l) : l.rdropWhile blank = l :=
  List.rdropWhile_eq_self_iff.mpr fun ne is_blank =>
    ends (by simpa [endsIn, List.getLast?_eq_some_getLast ne] using is_blank)

omit [DecidableEq α] in
theorem endsIn_append {m : List α} (ne : m ≠ []) (l : List α) :
    endsIn blank (l ++ m) = endsIn blank m := by
  simp [endsIn, List.getLast?_append_of_ne_nil l ne]

/-- Elements at the end that are no separators are cut from the last segment, or are all of it. -/
theorem segments_rdropWhile (isSep : ¬ blank sep) (ends : endsIn blank l) :
    ∃ init last w, w ≠ [] ∧ endsIn blank w ∧ segments sep l = init ++ [last ++ w] ∧
      segments sep (l.rdropWhile blank) = init ++ if last = [] then [] else [last] := by
  have cut := List.rdropWhile_append_rtakeWhile (p := blank) (l := l)
  have ne : l.rtakeWhile blank ≠ [] := by
    intro nothing
    rw [nothing, List.append_nil] at cut
    have last := List.rdropWhile_eq_self_iff.mp cut
    cases l with
    | nil => cases ends
    | cons a l =>
      refine last (List.cons_ne_nil _ _) ?_
      simpa [endsIn, List.getLast?_eq_some_getLast] using ends
  have part : IsPart sep (l.rtakeWhile blank) :=
    ⟨ne, fun mem => isSep (List.mem_rtakeWhile_imp mem)⟩
  obtain ⟨init, last, whole, before⟩ := segments_append_word (l.rdropWhile blank) part
  rw [cut] at whole
  refine ⟨init, last, l.rtakeWhile blank, ne, ?_, whole, before⟩
  rw [← endsIn_append ne (l.rdropWhile blank), cut]
  exact ends

/-- Such a cut is seen. -/
theorem segments_rdropWhile_ne (isSep : ¬ blank sep) (ends : endsIn blank l) :
    segments sep (l.rdropWhile blank) ≠ segments sep l := by
  obtain ⟨init, last, w, ne, -, before, after⟩ := segments_rdropWhile isSep ends
  rw [before, after]
  intro same
  have tails := List.append_cancel_left same
  split at tails
  · cases tails
  · exact ne (List.append_right_eq_self.mp (List.singleton_inj.mp tails).symm)

end

/-! ## The last part -/

theorem rdropWhile_last {w : List α} (free : sep ∉ w) (l : List α) :
    (l ++ sep :: w).rdropWhile (· ≠ sep) = l ++ [sep] := by
  have others : w.all (· ≠ sep) := by
    rw [List.all_eq_true]
    intro a mem
    have apart : a ≠ sep := fun same => free (same ▸ mem)
    simpa using apart
  rw [List.append_cons, Persai.rdropWhile_append, if_pos others,
    List.rdropWhile_concat_neg _ _ _ (by simp)]

theorem rtakeWhile_last {w : List α} (free : sep ∉ w) (l : List α) :
    (l ++ sep :: w).rtakeWhile (· ≠ sep) = w := by
  have whole := List.rdropWhile_append_rtakeWhile (p := (· ≠ sep)) (l := l ++ sep :: w)
  rw [rdropWhile_last free, List.append_assoc] at whole
  exact (List.cons.inj (List.append_cancel_left whole)).2

/-! ## Replacing -/

@[simp] theorem replaceEach_cons (old new a : α) (l : List α) :
    replaceEach old new (a :: l) = (if a = old then new else a) :: replaceEach old new l := rfl

theorem head?_replaceRuns (old new : α) (l : List α) :
    (replaceRuns old new l).head? = (replaceEach old new l).head? := by
  fun_induction replaceRuns old new l with
  | case1 => rfl
  | case2 => simp
  | case3 a other => simp [other]
  | case4 rest ih => simpa using ih
  | case5 b rest other ih => simp
  | case6 a b rest other ih => simp [other]

theorem replaceRuns_of_not_mem {old new : α} {l : List α} (absent : old ∉ l) :
    replaceRuns old new l = l := by
  fun_induction replaceRuns old new l with
  | case1 => rfl
  | case2 => simp at absent
  | case3 => rfl
  | case4 rest ih => simp at absent
  | case5 b rest other ih => simp at absent
  | case6 a b rest other ih =>
    rw [ih fun mem => absent (List.mem_cons_of_mem _ mem)]

theorem not_mem_replaceEach {old new : α} (ne : new ≠ old) (l : List α) :
    old ∉ replaceEach old new l := by
  intro mem
  obtain ⟨a, -, replaced⟩ := List.mem_map.mp mem
  split at replaced
  next => exact ne replaced
  next other => exact other replaced

theorem replaceEach_append (old new : α) (l m : List α) :
    replaceEach old new (l ++ m) = replaceEach old new l ++ replaceEach old new m :=
  List.map_append

theorem replaceEach_of_not_mem {old new : α} {l : List α} (absent : old ∉ l) :
    replaceEach old new l = l := by
  have unchanged : ∀ a ∈ l, (if a = old then new else a) = a := by
    intro a mem
    refine if_neg fun same => ?_
    exact absent (same ▸ mem)
  rw [replaceEach, List.map_congr_left unchanged]
  exact List.map_id' l

/-- To the segments a run of replaced elements is as good as one. -/
theorem segments_replaceRuns (old : α) (before l : List α) :
    segments sep (before ++ replaceRuns old sep l) =
      segments sep (before ++ replaceEach old sep l) := by
  fun_induction replaceRuns old sep l generalizing before with
  | case1 => rfl
  | case2 => simp [replaceEach]
  | case3 a other => simp [replaceEach, other]
  | case4 rest ih =>
    rw [ih]
    simp [segments_append_sep]
  | case5 b rest other ih =>
    have step := ih (before ++ [sep])
    simpa [other] using step
  | case6 a b rest other ih =>
    have step := ih (before ++ [a])
    simpa [other] using step

end Segments
