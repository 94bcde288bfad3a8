import Persai.CodeUnits
import Persai.Wildcards

/-!
# Glob patterns of the workspace

A glob pattern is turned into the text of a regular expression, which is then read and tested.

* `globPatternToRegExp`, `readRegExp`: the text that is built, and what it is read as;
* `Glob`, `glob_compiled`: the expression matches what the pattern says, whatever it contains;
* `matchesWorkspaceGlob_iff`: what a pattern without `**` finds below the search root.
-/

namespace Persai.WorkspaceGlob

open CodeUnits (Text ofString)
open Wildcards

/-! ## The text of the expression -/

/-- `[.+^${}()|[\]\\]`. -/
def isEscaped (u : UInt16) : Bool :=
  u == 46 || u == 43 || u == 94 || u == 36 || u == 123 || u == 125 || u == 40 || u == 41 ||
    u == 124 || u == 91 || u == 93 || u == 92

def escape (u : UInt16) : Text := if isEscaped u then [92, u] else [u]

/-- The loop over the pattern. -/
def globBody : Text → Text
  | [] => []
  | u :: rest =>
    if u = 42 then
      match rest with
      | [] => ofString "[^/]*"
      | v :: rest' =>
        if v = 42 then
          ofString ".*" ++
            match rest' with
            | [] => []
            | w :: rest'' => if w = 47 then globBody rest'' else globBody (w :: rest'')
        else ofString "[^/]*" ++ globBody (v :: rest')
    else if u = 63 then ofString "[^/]" ++ globBody rest
    else escape u ++ globBody rest

def globPatternToRegExp (pattern : Text) : Text := ofString "^" ++ globBody pattern ++ ofString "$"

/-! ## What the text is read as -/

/-- `SyntaxCharacter`. -/
def isSyntax (u : UInt16) : Bool := isEscaped u || u == 42 || u == 63

def isLineTerminator (u : UInt16) : Bool := u == 10 || u == 13 || u == 0x2028 || u == 0x2029

/-- An atom of an expression without groups; of the classes only `[^…]` without ranges and
escapes. -/
def readAtom : Text → Option ((UInt16 → Bool) × Text)
  | [] => none
  | u :: rest =>
    if u = 46 then some (fun v => !isLineTerminator v, rest)
    else if u = 91 then
      match rest with
      | [] => none
      | v :: rest =>
        let units := rest.takeWhile (· != 93)
        if v ≠ 94 ∨ units.any (fun w => w == 45 || w == 92 || w == 91) then none
        else
          match rest.dropWhile (· != 93) with
          | [] => none
          | _ :: rest => some (fun w => !units.contains w, rest)
    else if u = 92 then
      match rest with
      | [] => none
      | v :: rest => if isSyntax v || v == 47 then some (fun w => w == v, rest) else none
    else if isSyntax u then none
    else some (fun w => w == u, rest)

/-- An atom with its quantifier. -/
def readItem (text : Text) : Option (Item UInt16 × Text) :=
  (readAtom text).map fun (admits, rest) =>
    match rest with
    | [] => (⟨admits, false⟩, [])
    | u :: rest => if u = 42 then (⟨admits, true⟩, rest) else (⟨admits, false⟩, u :: rest)

/-- The items up to the anchor at the end; each takes a unit at least. -/
def readItems : ℕ → Text → Option (List (Item UInt16))
  | 0, _ => none
  | fuel + 1, text =>
    if text = [36] then some []
    else
      match readItem text with
      | some (item, rest) => (readItems fuel rest).map (item :: ·)
      | none => none

/-- The items between the anchors; nothing outside this part of the grammar. -/
def readRegExp : Text → Option (List (Item UInt16))
  | [] => none
  | u :: rest => if u = 94 then readItems rest.length rest else none

/-- `new RegExp(…).test(text)`. -/
def test (regexp text : Text) : Option Bool :=
  (readRegExp regexp).map fun items => matchItems items text

/-- The last part of a path. -/
def lastPart (path : Text) : Text := (path.splitOn 47).getLastD []

def matchesWorkspaceGlob (filePath searchRoot pattern : Text) : Option Bool := do
  let relative :=
    if filePath = searchRoot then lastPart filePath
    else if (searchRoot ++ [47]).isPrefixOf filePath then filePath.drop (searchRoot.length + 1)
    else filePath
  let basename := lastPart relative
  let matcher := globPatternToRegExp pattern
  return (← test matcher relative) || (← test matcher basename)

/-! ## What a pattern says -/

/-- The texts that a glob pattern matches. A `/` behind `**` belongs to it. -/
inductive Glob : Text → Text → Prop
  | nil : Glob [] []
  | deepSlash {pattern taken text : Text} (line : ∀ u ∈ taken, isLineTerminator u = false)
      (rest : Glob pattern text) : Glob (42 :: 42 :: 47 :: pattern) (taken ++ text)
  | deep {pattern taken text : Text} (next : pattern.head? ≠ some 47)
      (line : ∀ u ∈ taken, isLineTerminator u = false) (rest : Glob pattern text) :
      Glob (42 :: 42 :: pattern) (taken ++ text)
  | star {pattern taken text : Text} (next : pattern.head? ≠ some 42) (part : 47 ∉ taken)
      (rest : Glob pattern text) : Glob (42 :: pattern) (taken ++ text)
  | any {u : UInt16} {pattern text : Text} (part : u ≠ 47) (rest : Glob pattern text) :
      Glob (63 :: pattern) (u :: text)
  | unit {u : UInt16} {pattern text : Text} (star : u ≠ 42) (mark : u ≠ 63)
      (rest : Glob pattern text) : Glob (u :: pattern) (u :: text)

/-- `.*`, `[^/]*` and `[^/]`. -/
def anyLine : Item UInt16 := ⟨fun v => !isLineTerminator v, true⟩

def anyPart : Item UInt16 := ⟨fun v => !([47] : Text).contains v, true⟩

def anyUnit : Item UInt16 := ⟨fun v => !([47] : Text).contains v, false⟩

/-- What the loop over the pattern stands for. -/
def itemsOf : Text → List (Item UInt16)
  | [] => []
  | u :: rest =>
    if u = 42 then
      match rest with
      | [] => [anyPart]
      | v :: rest' =>
        if v = 42 then
          anyLine ::
            match rest' with
            | [] => []
            | w :: rest'' => if w = 47 then itemsOf rest'' else itemsOf (w :: rest'')
        else anyPart :: itemsOf (v :: rest')
    else if u = 63 then anyUnit :: itemsOf rest
    else literal u :: itemsOf rest

/-- The four ways in which a pattern goes on. -/
theorem pattern_induction {motive : Text → Prop} (nil : motive [])
    (deepSlash : ∀ pattern, motive pattern → motive (42 :: 42 :: 47 :: pattern))
    (deep : ∀ pattern, pattern.head? ≠ some 47 → motive pattern → motive (42 :: 42 :: pattern))
    (star : ∀ pattern, pattern.head? ≠ some 42 → motive pattern → motive (42 :: pattern))
    (any : ∀ pattern, motive pattern → motive (63 :: pattern))
    (unit : ∀ u pattern, u ≠ 42 → u ≠ 63 → motive pattern → motive (u :: pattern)) :
    ∀ pattern, motive pattern
  | [] => nil
  | [u] => by
    by_cases isStar : u = 42
    · exact isStar ▸ star [] (by simp) nil
    · by_cases isMark : u = 63
      · exact isMark ▸ any [] nil
      · exact unit u [] isStar isMark nil
  | u :: v :: rest => by
    have next := pattern_induction nil deepSlash deep star any unit (v :: rest)
    by_cases isStar : u = 42
    · subst isStar
      by_cases isDeep : v = 42
      · subst isDeep
        cases rest with
        | nil => exact deep [] (by simp) nil
        | cons w rest =>
          by_cases slash : w = 47
          · subst slash
            exact deepSlash rest (pattern_induction nil deepSlash deep star any unit rest)
          · exact deep (w :: rest) (by simpa using slash)
              (pattern_induction nil deepSlash deep star any unit (w :: rest))
      · exact star (v :: rest) (by simpa using isDeep) next
    · by_cases isMark : u = 63
      · exact isMark ▸ any (v :: rest) next
      · exact unit u (v :: rest) isStar isMark next

section
variable {pattern : Text}

theorem globBody_deepSlash : globBody (42 :: 42 :: 47 :: pattern) =
    ofString ".*" ++ globBody pattern :=
  (if_pos rfl).trans ((if_pos rfl).trans (congrArg _ (if_pos rfl)))

theorem globBody_deep (next : pattern.head? ≠ some 47) : globBody (42 :: 42 :: pattern) =
    ofString ".*" ++ globBody pattern := by
  cases pattern with
  | nil => rfl
  | cons w rest =>
    have other : w ≠ 47 := by simpa using next
    exact (if_pos rfl).trans ((if_pos rfl).trans (congrArg _ (if_neg other)))

theorem globBody_star (next : pattern.head? ≠ some 42) : globBody (42 :: pattern) =
    ofString "[^/]*" ++ globBody pattern := by
  cases pattern with
  | nil => rfl
  | cons v rest =>
    have other : v ≠ 42 := by simpa using next
    conv_lhs => unfold globBody
    rw [if_pos rfl]
    exact if_neg other

theorem globBody_other {u : UInt16} (star : u ≠ 42) : globBody (u :: pattern) =
    if u = 63 then ofString "[^/]" ++ globBody pattern else escape u ++ globBody pattern := by
  conv_lhs => unfold globBody
  exact if_neg star

theorem globBody_any : globBody (63 :: pattern) = ofString "[^/]" ++ globBody pattern :=
  globBody_other (by decide)

theorem globBody_unit {u : UInt16} (star : u ≠ 42) (mark : u ≠ 63) :
    globBody (u :: pattern) = escape u ++ globBody pattern := by
  rw [globBody_other star, if_neg mark]

theorem itemsOf_deepSlash : itemsOf (42 :: 42 :: 47 :: pattern) = anyLine :: itemsOf pattern :=
  (if_pos rfl).trans ((if_pos rfl).trans (congrArg _ (if_pos rfl)))

theorem itemsOf_deep (next : pattern.head? ≠ some 47) :
    itemsOf (42 :: 42 :: pattern) = anyLine :: itemsOf pattern := by
  cases pattern with
  | nil => rfl
  | cons w rest =>
    have other : w ≠ 47 := by simpa using next
    exact (if_pos rfl).trans ((if_pos rfl).trans (congrArg _ (if_neg other)))

theorem itemsOf_star (next : pattern.head? ≠ some 42) :
    itemsOf (42 :: pattern) = anyPart :: itemsOf pattern := by
  cases pattern with
  | nil => rfl
  | cons v rest =>
    have other : v ≠ 42 := by simpa using next
    conv_lhs => unfold itemsOf
    rw [if_pos rfl]
    exact if_neg other

theorem itemsOf_other {u : UInt16} (star : u ≠ 42) : itemsOf (u :: pattern) =
    if u = 63 then anyUnit :: itemsOf pattern else literal u :: itemsOf pattern := by
  conv_lhs => unfold itemsOf
  exact if_neg star

theorem itemsOf_any : itemsOf (63 :: pattern) = anyUnit :: itemsOf pattern :=
  itemsOf_other (by decide)

theorem itemsOf_unit {u : UInt16} (star : u ≠ 42) (mark : u ≠ 63) :
    itemsOf (u :: pattern) = literal u :: itemsOf pattern := by
  rw [itemsOf_other star, if_neg mark]

end

/-! ## The text is read as it is meant -/

theorem head_globBody (pattern : Text) : (globBody pattern ++ [36]).head? ≠ some 42 := by
  induction pattern using pattern_induction with
  | nil => decide
  | deepSlash pattern => rw [globBody_deepSlash]; simp [ofString, CodeUnits.unitsOf]
  | deep pattern next => rw [globBody_deep next]; simp [ofString, CodeUnits.unitsOf]
  | star pattern next => rw [globBody_star next]; simp [ofString, CodeUnits.unitsOf]
  | any pattern => rw [globBody_any]; simp [ofString, CodeUnits.unitsOf]
  | unit u pattern star mark =>
    rw [globBody_unit star mark, escape]
    split
    · simp
    · simpa using star

/-- An atom that no quantifier follows. -/
theorem readItem_single {text rest : Text} {admits : UInt16 → Bool}
    (read : readAtom text = some (admits, rest)) (next : rest.head? ≠ some 42) :
    readItem text = some (⟨admits, false⟩, rest) := by
  rw [readItem, read]
  cases rest with
  | nil => rfl
  | cons u rest =>
    have other : u ≠ 42 := by simpa using next
    simp [other]

theorem readAtom_escape {u : UInt16} (star : u ≠ 42) (mark : u ≠ 63) (rest : Text) :
    readAtom (escape u ++ rest) = some (fun w => w == u, rest) := by
  unfold escape
  cases escaped : isEscaped u with
  | true =>
    have syntax_ : isSyntax u = true := by simp [isSyntax, escaped]
    simp [readAtom, syntax_]
  | false =>
    have plain : isSyntax u = false := by simp [isSyntax, escaped, star, mark]
    have others : u ≠ 46 ∧ u ≠ 91 ∧ u ≠ 92 := by
      simp only [isEscaped, Bool.or_eq_false_iff, beq_eq_false_iff_ne] at escaped
      exact ⟨by tauto, by tauto, by tauto⟩
    simp [readAtom, plain, others]

theorem readItems_step {fuel : ℕ} {text rest : Text} {item : Item UInt16}
    (more : text ≠ [36]) (read : readItem text = some (item, rest)) :
    readItems (fuel + 1) text = (readItems fuel rest).map (item :: ·) := by
  rw [readItems, if_neg more, read]

theorem readItems_globBody (pattern : Text) (fuel : ℕ)
    (enough : (globBody pattern).length < fuel) :
    readItems fuel (globBody pattern ++ [36]) = some (itemsOf pattern) := by
  obtain ⟨fuel, rfl⟩ := Nat.exists_eq_add_one_of_ne_zero (Nat.ne_of_gt (Nat.zero_lt_of_lt enough))
  -- one piece of the text is read, and then what comes behind it
  have goes : ∀ (fuel : ℕ) (item : Item UInt16) (pattern piece : Text),
      (piece ++ globBody pattern).length < fuel + 1 → piece ≠ [] →
      readItem (piece ++ (globBody pattern ++ [36])) = some (item, globBody pattern ++ [36]) →
      piece.head? ≠ some 36 →
      (∀ fuel, (globBody pattern).length < fuel + 1 →
        readItems (fuel + 1) (globBody pattern ++ [36]) = some (itemsOf pattern)) →
      readItems (fuel + 1) (piece ++ globBody pattern ++ [36]) =
        some (item :: itemsOf pattern) := by
    intro fuel item pattern piece enough nonempty read other ih
    have more : piece ++ (globBody pattern ++ [36]) ≠ [36] := by
      cases piece with
      | nil => exact absurd rfl nonempty
      | cons u piece =>
        intro same
        rw [List.cons_append] at same
        exact other (by rw [(List.cons.inj same).1]; rfl)
    have shorter : (globBody pattern).length < fuel := by
      have taken := List.length_pos_iff.mpr nonempty
      rw [List.length_append] at enough
      omega
    obtain ⟨fuel, rfl⟩ :=
      Nat.exists_eq_add_one_of_ne_zero (Nat.ne_of_gt (Nat.zero_lt_of_lt shorter))
    rw [List.append_assoc, readItems_step more read, ih fuel shorter, Option.map_some]
  induction pattern using pattern_induction generalizing fuel with
  | nil => rfl
  | deepSlash pattern ih =>
    rw [globBody_deepSlash] at enough ⊢
    rw [itemsOf_deepSlash]
    exact goes fuel anyLine pattern _ enough (by decide) rfl (by decide) ih
  | deep pattern next ih =>
    rw [globBody_deep next] at enough ⊢
    rw [itemsOf_deep next]
    exact goes fuel anyLine pattern _ enough (by decide) rfl (by decide) ih
  | star pattern next ih =>
    rw [globBody_star next] at enough ⊢
    rw [itemsOf_star next]
    exact goes fuel anyPart pattern _ enough (by decide) rfl (by decide) ih
  | any pattern ih =>
    rw [globBody_any] at enough ⊢
    rw [itemsOf_any]
    exact goes fuel anyUnit pattern _ enough (by decide)
      (readItem_single rfl (head_globBody pattern)) (by decide) ih
  | unit u pattern star mark ih =>
    rw [globBody_unit star mark] at enough ⊢
    rw [itemsOf_unit star mark]
    refine goes fuel (literal u) pattern _ enough ?_
      (readItem_single (readAtom_escape star mark _) (head_globBody pattern)) ?_ ih
    · unfold escape
      split <;> simp
    · unfold escape
      split
      · simp
      · rename_i plain
        intro head
        simp only [List.head?_cons, Option.some.injEq] at head
        exact plain (head ▸ rfl)

theorem readRegExp_glob (pattern : Text) :
    readRegExp (globPatternToRegExp pattern) = some (itemsOf pattern) := by
  have text : globPatternToRegExp pattern = 94 :: (globBody pattern ++ [36]) := rfl
  rw [text, readRegExp, if_pos rfl, readItems_globBody]
  simp

/-! ## What it matches -/

theorem anyLine_admits {taken : Text} :
    (∀ u ∈ taken, anyLine.admits u = true) ↔ ∀ u ∈ taken, isLineTerminator u = false := by
  simp only [anyLine, Bool.not_eq_true']

theorem anyPart_admits {taken : Text} : (∀ u ∈ taken, anyPart.admits u = true) ↔ 47 ∉ taken := by
  simp only [anyPart, List.contains_cons, List.contains_nil, Bool.or_false, Bool.not_eq_true',
    beq_eq_false_iff_ne]
  constructor
  · exact fun admitted mem => admitted 47 mem rfl
  · rintro free u mem rfl
    exact free mem

/-- The items of a pattern match what the pattern says. -/
theorem matches_itemsOf (pattern text : Text) :
    Matches (itemsOf pattern) text ↔ Glob pattern text := by
  induction pattern using pattern_induction generalizing text with
  | nil =>
    rw [itemsOf, matches_nil]
    constructor
    · rintro rfl
      exact .nil
    · intro glob
      cases glob
      rfl
  | deepSlash pattern ih =>
    rw [itemsOf_deepSlash, matches_repeated rfl]
    constructor
    · rintro ⟨taken, rest, rfl, admitted, matched⟩
      exact .deepSlash (anyLine_admits.mp admitted) ((ih rest).mp matched)
    · intro glob
      cases glob with
      | deepSlash line rest => exact ⟨_, _, rfl, anyLine_admits.mpr line, (ih _).mpr rest⟩
      | deep next => exact absurd rfl next
      | star next => exact absurd rfl next
      | unit star => exact absurd rfl star
  | deep pattern next ih =>
    rw [itemsOf_deep next, matches_repeated rfl]
    constructor
    · rintro ⟨taken, rest, rfl, admitted, matched⟩
      exact .deep next (anyLine_admits.mp admitted) ((ih rest).mp matched)
    · intro glob
      cases glob with
      | deepSlash line rest => exact absurd rfl next
      | deep _ line rest => exact ⟨_, _, rfl, anyLine_admits.mpr line, (ih _).mpr rest⟩
      | star next => exact absurd rfl next
      | unit star => exact absurd rfl star
  | star pattern next ih =>
    rw [itemsOf_star next, matches_repeated rfl]
    constructor
    · rintro ⟨taken, rest, rfl, admitted, matched⟩
      exact .star next (anyPart_admits.mp admitted) ((ih rest).mp matched)
    · intro glob
      cases glob with
      | deepSlash line rest => exact absurd rfl next
      | deep => exact absurd rfl next
      | star _ part rest => exact ⟨_, _, rfl, anyPart_admits.mpr part, (ih _).mpr rest⟩
      | unit star => exact absurd rfl star
  | any pattern ih =>
    rw [itemsOf_any, matches_single rfl]
    constructor
    · rintro ⟨u, rest, rfl, admitted, matched⟩
      refine .any ?_ ((ih rest).mp matched)
      rintro rfl
      cases admitted
    · intro glob
      cases glob with
      | any part rest =>
        refine ⟨_, _, rfl, ?_, (ih _).mpr rest⟩
        simpa [anyUnit] using part
      | unit _ mark => exact absurd rfl mark
  | unit u pattern star mark ih =>
    rw [itemsOf_unit star mark, matches_literal]
    constructor
    · rintro ⟨rest, rfl, matched⟩
      exact .unit star mark ((ih rest).mp matched)
    · intro glob
      cases glob with
      | deepSlash => exact absurd rfl star
      | deep => exact absurd rfl star
      | star => exact absurd rfl star
      | any => exact absurd rfl mark
      | unit _ _ rest => exact ⟨_, rfl, (ih _).mpr rest⟩

/-- The expression that is built for a pattern is well formed, and matches what the pattern says. -/
theorem glob_compiled (pattern text : Text) :
    ∃ found, test (globPatternToRegExp pattern) text = some found ∧
      (found = true ↔ Glob pattern text) := by
  refine ⟨matchItems (itemsOf pattern) text, ?_, ?_⟩
  · rw [test, readRegExp_glob, Option.map_some]
  · rw [matches_iff, matches_itemsOf]

/-! ## Patterns without `**` -/

def Shallow (pattern : Text) : Prop := ¬ [42, 42] <:+: pattern

instance (pattern : Text) : Decidable (Shallow pattern) :=
  inferInstanceAs (Decidable (¬ [42, 42] <:+: pattern))

theorem shallow_cut (part rest : Text) (shallow : Shallow (part ++ 47 :: rest)) :
    Shallow part ∧ Shallow rest := by
  refine ⟨fun deep => shallow (deep.trans (List.prefix_append ..).isInfix), fun deep => ?_⟩
  exact shallow (deep.trans ((List.suffix_cons 47 rest).trans (List.suffix_append ..)).isInfix)

theorem shallow_tail {u : UInt16} {pattern : Text} (shallow : Shallow (u :: pattern)) :
    Shallow pattern := fun deep => shallow (deep.trans (List.suffix_cons ..).isInfix)

theorem not_shallow (pattern : Text) : ¬ Shallow (42 :: 42 :: pattern) :=
  fun shallow => shallow (List.prefix_append [42, 42] pattern).isInfix

theorem itemsOf_cut (part rest : Text) (shallow : Shallow (part ++ 47 :: rest)) (free : 47 ∉ part) :
    itemsOf (part ++ 47 :: rest) = itemsOf part ++ literal 47 :: itemsOf rest := by
  induction part using pattern_induction with
  | nil => exact itemsOf_unit (by decide) (by decide)
  | deepSlash pattern => exact absurd shallow (not_shallow _)
  | deep pattern => exact absurd shallow (not_shallow _)
  | star pattern next ih =>
    have next' : (pattern ++ 47 :: rest).head? ≠ some 42 := by
      cases pattern with
      | nil => simp
      | cons u pattern => simpa using next
    rw [List.cons_append, itemsOf_star next', itemsOf_star next,
      ih (shallow_tail shallow) (List.not_mem_of_not_mem_cons free), List.cons_append]
  | any pattern ih =>
    rw [List.cons_append, itemsOf_any, itemsOf_any,
      ih (shallow_tail shallow) (List.not_mem_of_not_mem_cons free), List.cons_append]
  | unit u pattern star mark ih =>
    rw [List.cons_append, itemsOf_unit star mark, itemsOf_unit star mark,
      ih (shallow_tail shallow) (List.not_mem_of_not_mem_cons free), List.cons_append]

theorem itemsOf_part (part : Text) (shallow : Shallow part) (free : 47 ∉ part) :
    ∀ item ∈ itemsOf part, item.admits 47 = false := by
  induction part using pattern_induction with
  | nil => exact fun _ mem => absurd mem List.not_mem_nil
  | deepSlash pattern => exact absurd shallow (not_shallow _)
  | deep pattern => exact absurd shallow (not_shallow _)
  | star pattern next ih =>
    rw [itemsOf_star next, List.forall_mem_cons]
    exact ⟨rfl, ih (shallow_tail shallow) (List.not_mem_of_not_mem_cons free)⟩
  | any pattern ih =>
    rw [itemsOf_any, List.forall_mem_cons]
    exact ⟨rfl, ih (shallow_tail shallow) (List.not_mem_of_not_mem_cons free)⟩
  | unit u pattern star mark ih =>
    rw [itemsOf_unit star mark, List.forall_mem_cons]
    refine ⟨?_, ih (shallow_tail shallow) (List.not_mem_of_not_mem_cons free)⟩
    exact beq_eq_false_iff_ne.mpr (List.ne_of_not_mem_cons free)

/-- Without `**` a path matches name by name. -/
theorem glob_splitOn {pattern : Text} (shallow : Shallow pattern) (text : Text) :
    Glob pattern text ↔ List.Forall₂ Glob (pattern.splitOn 47) (text.splitOn 47) := by
  have named := matches_splitOn shallow_cut itemsOf_cut itemsOf_part shallow text
  simp only [matches_itemsOf] at named
  exact named

theorem lastPart_free (path : Text) : 47 ∉ lastPart path := by
  rw [lastPart, List.getLastD_eq_getLast?,
    List.getLast?_eq_some_getLast (List.splitOn_ne_nil 47 path)]
  exact (Segments.mem_splitOn (List.getLast_mem _)).1

/-- Without `**` a pattern finds a file below the search root by all the names on its way there,
or, when it has no `/`, by its own name alone. -/
theorem matchesWorkspaceGlob_iff {pattern : Text} (shallow : Shallow pattern)
    (searchRoot relative : Text) :
    ∃ found, matchesWorkspaceGlob (searchRoot ++ 47 :: relative) searchRoot pattern = some found ∧
      (found = true ↔ List.Forall₂ Glob (pattern.splitOn 47) (relative.splitOn 47) ∨
        47 ∉ pattern ∧ Glob pattern (lastPart relative)) := by
  obtain ⟨whole, testWhole, wholeIff⟩ := glob_compiled pattern relative
  obtain ⟨name, testName, nameIff⟩ := glob_compiled pattern (lastPart relative)
  refine ⟨whole || name, ?_, ?_⟩
  · have below : searchRoot ++ 47 :: relative ≠ searchRoot := by simp
    have inside : (searchRoot ++ [47]).isPrefixOf (searchRoot ++ 47 :: relative) = true := by
      rw [List.isPrefixOf_iff_prefix]
      exact ⟨relative, by simp⟩
    have rest : (searchRoot ++ 47 :: relative).drop (searchRoot.length + 1) = relative := by
      rw [← List.drop_drop, List.drop_left, List.drop_succ_cons, List.drop_zero]
    simp only [matchesWorkspaceGlob, if_neg below, if_pos inside, rest, testWhole, testName]
    rfl
  · rw [Bool.or_eq_true, wholeIff, nameIff, glob_splitOn shallow relative]
    refine or_congr_right (iff_and_self.mpr fun glob => ?_)
    -- a name has one part, and so has the pattern that matches it
    rw [glob_splitOn shallow, List.splitOn_eq_singleton (lastPart_free relative)] at glob
    obtain ⟨part, only⟩ := List.length_eq_one_iff.mp glob.length_eq
    have joined : List.intercalate [47] (pattern.splitOn 47) = pattern :=
      List.intercalate_splitOn 47
    have free := (Segments.mem_splitOn (only ▸ List.mem_singleton_self part)).1
    rw [only] at joined
    simpa [← joined] using free

theorem found_src : ∃ found, matchesWorkspaceGlob (ofString "/workspace/lib/src/a.ts")
    (ofString "/workspace/lib") (ofString "src/*.ts") = some found ∧
      (found = true ↔
        List.Forall₂ Glob ((ofString "src/*.ts").splitOn 47)
          ((ofString "src/a.ts").splitOn 47) ∨
        47 ∉ ofString "src/*.ts" ∧ Glob (ofString "src/*.ts") (lastPart (ofString "src/a.ts"))) :=
  matchesWorkspaceGlob_iff (by decide +kernel) (ofString "/workspace/lib") (ofString "src/a.ts")

end Persai.WorkspaceGlob
