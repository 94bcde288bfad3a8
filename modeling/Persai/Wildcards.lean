import Mathlib.Data.List.Forall2
import Persai.Segments

/-!
# Wildcard patterns

A pattern is a list of items: one element of a kind, or any number of elements of a kind.

* `Matches`: the lists that a pattern matches, `matches_iff`: the matcher that tries each length;
* `matches_append`: a pattern in two parts matches what can be cut in two;
* `matches_splitOn`: where no wildcard admits the separator, a pattern matches part by part.
-/

namespace Wildcards

variable {α : Type}

structure Item (α : Type) where
  admits : α → Bool
  repeated : Bool

inductive Matches : List (Item α) → List α → Prop
  | nil : Matches [] []
  | one {item : Item α} {a : α} {items : List (Item α)} {l : List α}
      (single : item.repeated = false)
      (admitted : item.admits a = true) (rest : Matches items l) : Matches (item :: items) (a :: l)
  | many {item : Item α} {taken : List α} {items : List (Item α)} {l : List α}
      (repeated : item.repeated = true) (admitted : ∀ a ∈ taken, item.admits a = true)
      (rest : Matches items l) : Matches (item :: items) (taken ++ l)

/-- An item that is repeated takes nothing, or an element and then more. -/
def matchItems : List (Item α) → List α → Bool
  | [], l => l.isEmpty
  | item :: items, l =>
    if item.repeated then takeMany item (matchItems items) l
    else
      match l with
      | [] => false
      | a :: rest => item.admits a && matchItems items rest
where
  takeMany (item : Item α) (rest : List α → Bool) : List α → Bool
    | [] => rest []
    | a :: l => rest (a :: l) || (item.admits a && takeMany item rest l)

theorem takeMany_iff {item : Item α} {rest : List α → Bool} {l : List α} :
    matchItems.takeMany item rest l = true ↔ ∃ taken l', l = taken ++ l' ∧
      (∀ a ∈ taken, item.admits a = true) ∧ rest l' = true := by
  induction l with
  | nil =>
    rw [matchItems.takeMany]
    refine ⟨fun found => ⟨[], [], rfl, by simp, found⟩, ?_⟩
    rintro ⟨taken, l', cut, -, found⟩
    rw [(List.append_eq_nil_iff.mp cut.symm).2] at found
    exact found
  | cons a l ih =>
    rw [matchItems.takeMany, Bool.or_eq_true, Bool.and_eq_true, ih]
    constructor
    · rintro (found | ⟨admitted, taken, l', rfl, others, found⟩)
      · exact ⟨[], a :: l, rfl, by simp, found⟩
      · refine ⟨a :: taken, l', rfl, ?_, found⟩
        exact List.forall_mem_cons.mpr ⟨admitted, others⟩
    · rintro ⟨taken, l', cut, admitted, found⟩
      cases taken with
      | nil => exact .inl (cut ▸ found)
      | cons b taken =>
        obtain ⟨rfl, rfl⟩ := List.cons.inj cut
        obtain ⟨here, others⟩ := List.forall_mem_cons.mp admitted
        exact .inr ⟨here, taken, l', rfl, others, found⟩

theorem matches_iff {items : List (Item α)} {l : List α} :
    matchItems items l = true ↔ Matches items l := by
  induction items generalizing l with
  | nil =>
    rw [matchItems, List.isEmpty_iff]
    constructor
    · rintro rfl
      exact .nil
    · intro matched
      cases matched
      rfl
  | cons item items ih =>
    unfold matchItems
    cases repeated : item.repeated with
    | true =>
      rw [if_pos rfl, takeMany_iff]
      constructor
      · rintro ⟨taken, l', rfl, admitted, found⟩
        exact .many repeated admitted (ih.mp found)
      · intro matched
        cases matched with
        | one single => exact absurd (single.symm.trans repeated) Bool.false_ne_true
        | many _ admitted rest => exact ⟨_, _, rfl, admitted, ih.mpr rest⟩
    | false =>
      rw [if_neg Bool.false_ne_true]
      cases l with
      | nil =>
        refine iff_of_false Bool.false_ne_true fun matched => ?_
        generalize empty : [] = l' at matched
        cases matched with
        | one => cases empty
        | many repeated' => exact absurd (repeated.symm.trans repeated') Bool.false_ne_true
      | cons a l =>
        rw [Bool.and_eq_true]
        constructor
        · rintro ⟨admitted, found⟩
          exact .one repeated admitted (ih.mp found)
        · intro matched
          generalize whole : a :: l = l' at matched
          cases matched with
          | one _ admitted rest =>
            obtain ⟨rfl, rfl⟩ := List.cons.inj whole
            exact ⟨admitted, ih.mpr rest⟩
          | many repeated' => exact absurd (repeated.symm.trans repeated') Bool.false_ne_true

instance (items : List (Item α)) (l : List α) : Decidable (Matches items l) :=
  decidable_of_iff _ matches_iff

theorem matches_append {items others : List (Item α)} {l : List α} :
    Matches (items ++ others) l ↔ ∃ l₁ l₂, l = l₁ ++ l₂ ∧ Matches items l₁ ∧ Matches others l₂ := by
  induction items generalizing l with
  | nil =>
    constructor
    · exact fun matched => ⟨[], l, rfl, .nil, matched⟩
    · rintro ⟨l₁, l₂, rfl, matched, rest⟩
      cases matched
      exact rest
  | cons item items ih =>
    constructor
    · intro matched
      cases matched with
      | one single admitted rest =>
        obtain ⟨l₁, l₂, rfl, first, second⟩ := ih.mp rest
        exact ⟨_ :: l₁, l₂, rfl, .one single admitted first, second⟩
      | many repeated admitted rest =>
        obtain ⟨l₁, l₂, rfl, first, second⟩ := ih.mp rest
        exact ⟨_ ++ l₁, l₂, (List.append_assoc ..).symm, .many repeated admitted first, second⟩
    · rintro ⟨l₁, l₂, rfl, matched, second⟩
      cases matched with
      | one single admitted rest => exact .one single admitted (ih.mpr ⟨_, _, rfl, rest, second⟩)
      | many repeated admitted rest =>
        rw [List.append_assoc]
        exact .many repeated admitted (ih.mpr ⟨_, _, rfl, rest, second⟩)

theorem matches_nil {l : List α} : Matches [] l ↔ l = [] := by
  constructor
  · intro matched
    cases matched
    rfl
  · rintro rfl
    exact .nil

theorem matches_single {item : Item α} (single : item.repeated = false) {items : List (Item α)}
    {l : List α} : Matches (item :: items) l ↔
      ∃ a rest, l = a :: rest ∧ item.admits a = true ∧ Matches items rest := by
  constructor
  · intro matched
    cases matched with
    | one _ admitted rest => exact ⟨_, _, rfl, admitted, rest⟩
    | many repeated => exact absurd (single.symm.trans repeated) Bool.false_ne_true
  · rintro ⟨a, rest, rfl, admitted, matched⟩
    exact .one single admitted matched

theorem matches_repeated {item : Item α} (repeated : item.repeated = true)
    {items : List (Item α)} {l : List α} : Matches (item :: items) l ↔
      ∃ taken rest, l = taken ++ rest ∧ (∀ a ∈ taken, item.admits a = true) ∧
        Matches items rest := by
  constructor
  · intro matched
    cases matched with
    | one single => exact absurd (single.symm.trans repeated) Bool.false_ne_true
    | many _ admitted rest => exact ⟨_, _, rfl, admitted, rest⟩
  · rintro ⟨taken, rest, rfl, admitted, matched⟩
    exact .many repeated admitted matched

/-- What no item admits is not in what is matched. -/
theorem not_mem_of_matches {sep : α} {items : List (Item α)} {l : List α}
    (matched : Matches items l) (never : ∀ item ∈ items, item.admits sep = false) : sep ∉ l := by
  induction matched with
  | nil => exact List.not_mem_nil
  | one single admitted rest ih =>
    obtain ⟨here, others⟩ := List.forall_mem_cons.mp never
    rw [List.mem_cons, not_or]
    refine ⟨?_, ih others⟩
    rintro rfl
    rw [here] at admitted
    cases admitted
  | many repeated admitted rest ih =>
    obtain ⟨here, others⟩ := List.forall_mem_cons.mp never
    rw [List.mem_append, not_or]
    refine ⟨fun mem => ?_, ih others⟩
    rw [admitted sep mem] at here
    cases here

section
variable [DecidableEq α]

/-- The item that stands for one element. -/
def literal (a : α) : Item α := ⟨fun b => b == a, false⟩

theorem matches_literal {a : α} {items : List (Item α)} {l : List α} :
    Matches (literal a :: items) l ↔ ∃ rest, l = a :: rest ∧ Matches items rest := by
  rw [matches_single rfl]
  simp only [literal, beq_iff_eq]
  constructor
  · rintro ⟨_, rest, rfl, rfl, matched⟩
    exact ⟨rest, rfl, matched⟩
  · rintro ⟨rest, rfl, matched⟩
    exact ⟨a, rest, rfl, rfl, matched⟩

/-- A separator in the pattern is the first one in what is matched, where nothing before it can
take a separator. -/
theorem matches_cut {sep : α} {items others : List (Item α)} {l : List α}
    (never : ∀ item ∈ items, item.admits sep = false) :
    Matches (items ++ literal sep :: others) l ↔
      ∃ part rest, l = part ++ sep :: rest ∧ sep ∉ part ∧ Matches items part ∧
        Matches others rest := by
  rw [matches_append]
  constructor
  · rintro ⟨part, tail, rfl, first, second⟩
    obtain ⟨rest, rfl, matched⟩ := matches_literal.mp second
    exact ⟨part, rest, rfl, not_mem_of_matches first never, first, matched⟩
  · rintro ⟨part, rest, rfl, -, first, second⟩
    exact ⟨part, sep :: rest, rfl, first, matches_literal.mpr ⟨rest, rfl, second⟩⟩

/-- A pattern whose text is cut at a separator that no wildcard admits matches part by part;
`items` says what a text stands for, and `good` for which texts it does. -/
theorem matches_splitOn {β : Type} [DecidableEq β] {sep : α} {mark : β}
    {items : List β → List (Item α)} {good : List β → Prop}
    (parts : ∀ part rest, good (part ++ mark :: rest) → good part ∧ good rest)
    (cut : ∀ part rest, good (part ++ mark :: rest) → mark ∉ part →
      items (part ++ mark :: rest) = items part ++ literal sep :: items rest)
    (never : ∀ part, good part → mark ∉ part → ∀ item ∈ items part, item.admits sep = false)
    {pattern : List β} (isGood : good pattern) (l : List α) :
    Matches (items pattern) l ↔
      List.Forall₂ (fun part piece => Matches (items part) piece) (pattern.splitOn mark)
        (l.splitOn sep) := by
  induction pattern using @Segments.cut_induction β _ mark generalizing l with
  | word part free =>
    rw [List.splitOn_eq_singleton free]
    constructor
    · intro matched
      have alone := not_mem_of_matches matched (never part isGood free)
      rw [List.splitOn_eq_singleton alone]
      exact .cons matched .nil
    · intro pieces
      have joined : [sep].intercalate (l.splitOn sep) = l := List.intercalate_splitOn sep
      generalize l.splitOn sep = split at pieces joined
      cases pieces with
      | cons here rest =>
        cases rest
        rw [← joined]
        simpa using here
  | cut part rest free ih =>
    obtain ⟨goodPart, goodRest⟩ := parts part rest isGood
    rw [cut part rest isGood free, List.splitOn_append_cons_self_of_not_mem free,
      matches_cut (never part goodPart free)]
    constructor
    · rintro ⟨piece, tail, rfl, alone, first, second⟩
      rw [List.splitOn_append_cons_self_of_not_mem alone]
      exact .cons first ((ih goodRest tail).mp second)
    · intro pieces
      induction l using @Segments.cut_induction α _ sep with
      | word piece alone =>
        rw [List.splitOn_eq_singleton alone] at pieces
        cases pieces with
        | cons _ nothing =>
          have empty := List.forall₂_nil_right_iff.mp nothing
          exact absurd empty (List.splitOn_ne_nil mark rest)
      | cut piece tail alone _ =>
        rw [List.splitOn_append_cons_self_of_not_mem alone] at pieces
        cases pieces with
        | cons first others => exact ⟨piece, tail, rfl, alone, first, (ih goodRest tail).mpr others⟩

end

end Wildcards
