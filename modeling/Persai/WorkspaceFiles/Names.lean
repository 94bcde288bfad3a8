import Persai.WorkspacePaths.Resolution

/-!
# Names that are not in use

`resolveMacOsCollisionBasename`, and that the name it gives can stand in a path.
-/

namespace Persai.WorkspaceFiles

open Segments WorkspacePaths

/-- What `.` does not match. -/
def isLineTerminator (c : Char) : Bool :=
  c = '\n' || c = '\r' || c = Char.ofNat 0x2028 || c = Char.ofNat 0x2029

def numberOf (digits : List Char) : Nat :=
  digits.foldl (fun number c => 10 * number + (c.toNat - '0'.toNat)) 0

/-- `/^(.*) \((\d+)\)$/`: the stem without its number, and the number. -/
def suffixMatch (stem : List Char) : Option (List Char × Nat) :=
  match stem.reverse with
  | ')' :: rest =>
    let digits := rest.takeWhile Char.isDigit
    match rest.dropWhile Char.isDigit with
    | '(' :: ' ' :: base =>
      if digits = [] ∨ base.any isLineTerminator then none
      else some (base.reverse, numberOf digits.reverse)
    | _ => none
  | _ => none

/-- The loop over the numbers from `index` on. -/
def firstFree (existingNames : List String) (candidate : Nat → String) : Nat → Nat → Option String
  | 0, _ => none
  | count + 1, index =>
    if candidate index ∈ existingNames then firstFree existingNames candidate count (index + 1)
    else some (candidate index)

/-- The stem and the extension, which is empty for a name whose only dot is its first character. -/
def splitExtension (basename : List Char) : List Char × List Char :=
  let dotIdx := (basename.rdropWhile (· ≠ '.')).length - 1
  if 0 < dotIdx then (basename.take dotIdx, basename.drop dotIdx) else (basename, [])

def numbered (baseStem ext : List Char) (index : Nat) : String :=
  String.ofList baseStem ++ " (" ++ toString index ++ ")" ++ String.ofList ext

def resolveMacOsCollisionBasename (basename : String) (existingNames : List String) (now : Nat) :
    String :=
  if basename ∉ existingNames then basename
  else
    let parts := splitExtension basename.toList
    let found := suffixMatch parts.1
    let baseStem := (found.map (·.1)).getD parts.1
    let startIndex := (found.map (·.2 + 1)).getD 1
    let candidate := numbered baseStem parts.2
    (firstFree existingNames candidate (10000 - startIndex) startIndex).getD (candidate now)

example : resolveMacOsCollisionBasename "report (1).pdf" ["report.pdf", "report (1).pdf"] 0 =
    "report (2).pdf" := by decide +kernel

/-! ## The name that is given -/

theorem suffixMatch_mem {stem base : List Char} {number : Nat}
    (found : suffixMatch stem = some (base, number)) {c : Char} (mem : c ∈ base) : c ∈ stem := by
  unfold suffixMatch at found
  split at found
  next rest closes =>
    dsimp only at found
    split at found
    next digits opens =>
      split at found
      · cases found
      · cases found
        have left : c ∈ rest.dropWhile Char.isDigit := by
          rw [opens]
          exact List.mem_cons_of_mem _ (List.mem_cons_of_mem _ (List.mem_reverse.mp mem))
        have inside : c ∈ stem.reverse :=
          closes ▸ List.mem_cons_of_mem _ ((List.dropWhile_suffix _).mem left)
        exact List.mem_reverse.mp inside
    · cases found
  · cases found

theorem firstFree_eq {existingNames : List String} {candidate : Nat → String} {count index : Nat}
    {name : String} (found : firstFree existingNames candidate count index = some name) :
    ∃ index, name = candidate index := by
  induction count generalizing index with
  | zero => cases found
  | succ count ih =>
    unfold firstFree at found
    split at found
    · exact ih found
    · cases found
      exact ⟨index, rfl⟩

theorem splitExtension_mem {basename : List Char} {c : Char}
    (mem : c ∈ (splitExtension basename).1 ∨ c ∈ (splitExtension basename).2) : c ∈ basename := by
  simp only [splitExtension] at mem
  split at mem
  · exact mem.elim List.mem_of_mem_take List.mem_of_mem_drop
  · exact mem.elim id fun none => nomatch none

/-- The name itself, or one made of its characters and a number. -/
theorem resolveMacOsCollisionBasename_cases (basename : String) (existingNames : List String)
    (now : Nat) :
    resolveMacOsCollisionBasename basename existingNames now = basename ∨
      ∃ baseStem ext index,
        resolveMacOsCollisionBasename basename existingNames now = numbered baseStem ext index ∧
          ∀ c ∈ baseStem ++ ext, c ∈ basename.toList := by
  unfold resolveMacOsCollisionBasename
  split
  · exact .inl rfl
  · right
    have members : ∀ c ∈ ((suffixMatch (splitExtension basename.toList).1).map (·.1)).getD
        (splitExtension basename.toList).1 ++ (splitExtension basename.toList).2,
        c ∈ basename.toList := by
      intro c mem
      refine splitExtension_mem ((List.mem_append.mp mem).imp_left fun mem => ?_)
      cases found : suffixMatch (splitExtension basename.toList).1 with
      | none => rw [found] at mem; exact mem
      | some _ => rw [found] at mem; exact suffixMatch_mem found mem
    dsimp only
    cases found : firstFree existingNames (numbered _ _) (10000 - _) _ with
    | none => exact ⟨_, _, now, rfl, members⟩
    | some name =>
      obtain ⟨index, rfl⟩ := firstFree_eq found
      exact ⟨_, _, index, rfl, members⟩

theorem mem_numbered {baseStem ext : List Char} {index : Nat} {c : Char}
    (mem : c ∈ (numbered baseStem ext index).toList) :
    c ∈ baseStem ++ ext ∨ c ∈ [' ', '(', ')'] ∨ c.isDigit := by
  simp only [numbered, String.toList_append, String.toList_ofList, List.mem_append] at mem
  rcases mem with (((base | opens) | digit) | closes) | ext
  · exact .inl (List.mem_append_left _ base)
  · have opens : c ∈ [' ', '('] := opens
    exact .inr (.inl (List.mem_append_left [')'] opens))
  · rw [Nat.toString_eq_repr, Nat.toList_repr] at digit
    exact .inr (.inr (Nat.isDigit_of_mem_toDigits (by decide) (by decide) digit))
  · have closes : c ∈ [')'] := closes
    exact .inr (.inl (List.mem_append_right [' ', '('] closes))
  · exact .inl (List.mem_append_right _ ext)

/-- The name can stand where the one that was asked for can. -/
theorem kept_resolved {basename : String} (kept : Kept basename.toList)
    (existingNames : List String) (now : Nat) :
    Kept (resolveMacOsCollisionBasename basename existingNames now).toList := by
  rcases resolveMacOsCollisionBasename_cases basename existingNames now with
    same | ⟨baseStem, ext, index, same, members⟩
  · rw [same]
    exact kept
  · have blank : ' ' ∈ (numbered baseStem ext index).toList := by simp [numbered]
    have absent : ∀ c, c ∉ basename.toList → c ∉ [' ', '(', ')'] → ¬ c.isDigit →
        c ∉ (numbered baseStem ext index).toList := by
      intro c not_name not_added not_digit mem
      rcases mem_numbered mem with name | added | digit
      · exact not_name (members c name)
      · exact not_added added
      · exact not_digit digit
    rw [same]
    refine ⟨⟨List.ne_nil_of_mem blank, ?_⟩, ⟨?_, ?_⟩, ?_, ?_⟩
    · exact absent '/' kept.part.2 (by decide) (by decide)
    · exact fun is_dot => absurd (is_dot ▸ blank) (by decide)
    · exact fun are_dots => absurd (are_dots ▸ blank) (by decide)
    · exact absent _ kept.noNul (by decide) (by decide)
    · exact absent _ kept.noBackslash (by decide) (by decide)

end Persai.WorkspaceFiles
