import Persai.WorkspaceFiles.Mirror

/-!
# What the listing of a directory shows

`find` prints a line for each entry of a directory, `head` passes the first ones on, and
`workspaceFileList` splits what comes at line ends and tabs. A name that has one of these in it
does not come back, and neither does one after the last line that is passed on.
-/

namespace Persai.WorkspaceFiles

open Segments WorkspacePaths

/-- `%p`, `%y`, `%s` and `%T@` of an entry. -/
structure FindEntry where
  name : List Char
  type : Char
  size : Nat
  modified : List Char
  type_letter : type.isAlpha
  modified_number : modified ≠ [] ∧ ∀ c ∈ modified, c.isDigit ∨ c = '.' ∨ c = '-'

namespace FindEntry

/-- What is printed of the entry before its line end. -/
def row (directory : String) (entry : FindEntry) : List Char :=
  (directory.toList ++ '/' :: entry.name) ++ '\t' ::
    ([entry.type] ++ '\t' :: ((toString entry.size).toList ++ '\t' :: entry.modified))

end FindEntry

/-- `find … -printf '%p\t%y\t%s\t%T@\n'`. -/
def find (directory : String) (entries : List FindEntry) : List Char :=
  entries.flatMap fun entry => entry.row directory ++ ['\n']

/-- `head -n`. -/
def head : Nat → List Char → List Char
  | 0, _ => []
  | count + 1, text =>
    match text.dropWhile (· ≠ '\n') with
    | [] => text
    | _ :: rest => text.takeWhile (· ≠ '\n') ++ '\n' :: head count rest

/-- The entries of a listing without a `maxEntries`. -/
def defaultMaxEntries : Nat := 200

def printed (directory : String) (entries : List FindEntry) : String :=
  String.ofList (head defaultMaxEntries (find directory entries))

/-- The names that the search for a free one knows. -/
def shownNames (directory : String) (entries : List FindEntry) : List String :=
  (listedPaths (printed directory entries)).map basename

example : shownNames "/workspace/shared"
    [⟨"a.txt".toList, 'f', 3, "1.5".toList, by decide, by simp⟩,
      ⟨"b\tc".toList, 'f', 0, "2.5".toList, by decide, by simp⟩] = ["a.txt", "b"] := by
  decide +kernel

/-- The directory is just what `find` has printed. -/
structure Lists (pod : Pod) (directory : Path) (text : String) (entries : List FindEntry)
    (listing : String) : Prop where
  there : ∀ name, pod.node? (directory ++ [name]) ≠ none ↔ name ∈ entries.map (·.name)
  prints : listing = printed text entries

/-! ## Names that come back -/

/-- A text in which a line can be found again. -/
def PlainText (text : List Char) : Prop := '\n' ∉ text ∧ '\t' ∉ text

theorem plainText_append {first rest : List Char} (first_plain : PlainText first)
    (rest_plain : PlainText rest) : PlainText (first ++ rest) :=
  ⟨by simp [first_plain.1, rest_plain.1], by simp [first_plain.2, rest_plain.2]⟩

theorem plainText_of_forall {text : List Char} (shows : ∀ c ∈ text, ¬ isTrimmed c) :
    PlainText text :=
  ⟨fun mem => shows _ mem (by decide), fun mem => shows _ mem (by decide)⟩

theorem not_trimmed_of_digit {c : Char} (digit : c.isDigit) : ¬ isTrimmed c := by
  have bounds := Char.isDigit_iff_toNat.mp digit
  have zero : '0'.toNat = 48 := rfl
  have nine : '9'.toNat = 57 := rfl
  simp only [isTrimmed, CodeUnits.isSpaceCode, Bool.or_eq_true, Bool.and_eq_true, beq_iff_eq,
    decide_eq_true_eq]
  omega

namespace FindEntry

variable (entry : FindEntry)

theorem modified_shows {c : Char} (mem : c ∈ entry.modified) : ¬ isTrimmed c := by
  rcases entry.modified_number.2 c mem with digit | rfl | rfl
  · exact not_trimmed_of_digit digit
  · decide
  · decide

theorem size_shows {c : Char} (mem : c ∈ (toString entry.size).toList) : ¬ isTrimmed c := by
  rw [Nat.toString_eq_repr, Nat.toList_repr] at mem
  exact not_trimmed_of_digit (Nat.isDigit_of_mem_toDigits (by decide) (by decide) mem)

theorem type_plain : PlainText [entry.type] := by
  refine ⟨fun mem => ?_, fun mem => ?_⟩
  · have letter := entry.type_letter
    rw [← List.mem_singleton.mp mem] at letter
    exact absurd letter (by decide)
  · have letter := entry.type_letter
    rw [← List.mem_singleton.mp mem] at letter
    exact absurd letter (by decide)

end FindEntry

/-- What one line gives. -/
def readRow (rawLine : List Char) : Option String :=
  let line := rawLine.rdropWhile isTrimmed
  let parts := line.splitOn '\t'
  if line = [] ∨ parts.length < 4 then none else parts.head?.map String.ofList

theorem listedPaths_eq (stdout : String) :
    listedPaths stdout = (stdout.toList.splitOn '\n').filterMap readRow := rfl

theorem readRow_row {directory : String} {entry : FindEntry} (below : PlainText directory.toList)
    (plain : PlainText entry.name) :
    readRow (entry.row directory) = some (directory ++ "/" ++ String.ofList entry.name) := by
  have slash : PlainText ['/'] := ⟨by decide, by decide⟩
  have path_plain : PlainText (directory.toList ++ '/' :: entry.name) :=
    plainText_append below (plainText_append slash plain)
  have kept : (entry.row directory).rdropWhile isTrimmed = entry.row directory := by
    refine rdropWhile_of_not_endsIn ?_
    have last : entry.row directory =
          (directory.toList ++ '/' :: entry.name ++ '\t' :: entry.type ::
        '\t' :: (toString entry.size).toList ++ ['\t']) ++ entry.modified := by
      simp [FindEntry.row]
    rw [last, endsIn_append entry.modified_number.1, endsIn,
      List.getLast?_eq_some_getLast entry.modified_number.1]
    exact entry.modified_shows (List.getLast_mem _)
  have parts : (entry.row directory).splitOn '\t' = [directory.toList ++ '/' :: entry.name,
      [entry.type], (toString entry.size).toList, entry.modified] := by
    rw [FindEntry.row, List.splitOn_append_cons_self_of_not_mem path_plain.2,
      List.splitOn_append_cons_self_of_not_mem entry.type_plain.2,
      List.splitOn_append_cons_self_of_not_mem
        (plainText_of_forall fun _ mem => entry.size_shows mem).2,
      List.splitOn_eq_singleton (plainText_of_forall fun _ mem => entry.modified_shows mem).2]
  have shows : entry.row directory ≠ [] := by simp [FindEntry.row]
  simp only [readRow, kept, parts]
  rw [if_neg (by simp [shows]), List.head?_cons, Option.map_some]
  congr 1
  rw [← String.toList_inj]
  simp

theorem row_plain {directory : String} {entry : FindEntry} (below : PlainText directory.toList)
    (plain : PlainText entry.name) : '\n' ∉ entry.row directory := by
  have size := (plainText_of_forall fun _ mem => entry.size_shows mem).1
  have modified := (plainText_of_forall fun _ mem => entry.modified_shows mem).1
  have type := entry.type_plain.1
  simp only [FindEntry.row, List.mem_append, List.mem_cons, not_or]
  exact ⟨⟨below.1, by decide, plain.1⟩, by decide, by simpa using type, by decide, size, by decide,
    modified⟩

section
variable {directory : String} {entries : List FindEntry}

theorem find_cons (entry : FindEntry) (rest : List FindEntry) :
    find directory (entry :: rest) = entry.row directory ++ '\n' :: find directory rest := by
  simp [find]

theorem head_find (below : PlainText directory.toList)
    (plain : ∀ entry ∈ entries, PlainText entry.name) (count : Nat) :
    head count (find directory entries) = find directory (entries.take count) := by
  induction count generalizing entries with
  | zero => rfl
  | succ count ih =>
    cases entries with
    | nil => rfl
    | cons entry rest =>
      have free := row_plain below (plain entry List.mem_cons_self)
      have all : ∀ c ∈ entry.row directory, decide (c ≠ '\n') = true := by
        intro c mem
        exact decide_eq_true fun same => free (same ▸ mem)
      have later := ih fun entry mem => plain entry (List.mem_cons_of_mem _ mem)
      have stops :
          ('\n' :: find directory rest).dropWhile (· ≠ '\n') = '\n' :: find directory rest :=
        List.dropWhile_cons_of_neg (by simp)
      rw [find_cons, head, List.dropWhile_append_of_pos all, List.takeWhile_append_of_pos all,
        stops,
        List.take_succ_cons, find_cons, ← later]
      simp

theorem listed_find (below : PlainText directory.toList)
    (plain : ∀ entry ∈ entries, PlainText entry.name) :
    ((find directory entries).splitOn '\n').filterMap readRow =
      entries.map fun entry => directory ++ "/" ++ String.ofList entry.name := by
  induction entries with
  | nil => rfl
  | cons entry rest ih =>
    have own := plain entry List.mem_cons_self
    rw [find_cons, List.splitOn_append_cons_self_of_not_mem (row_plain below own),
      List.filterMap_cons_some (readRow_row below own),
      ih fun entry mem => plain entry (List.mem_cons_of_mem _ mem), List.map_cons]

/-- Plain names come back as long as their lines are passed on. -/
theorem shownNames_of_plain {path : Path} (below : PlainText (mounted path).toList)
    (plain : ∀ entry ∈ entries, PlainText entry.name ∧ IsPart '/' entry.name) :
    shownNames (mounted path) entries =
      (entries.take defaultMaxEntries).map fun entry => String.ofList entry.name := by
  have first : ∀ entry ∈ entries.take defaultMaxEntries, PlainText entry.name :=
    fun entry mem => (plain entry (List.mem_of_mem_take mem)).1
  rw [shownNames, printed, listedPaths_eq, String.toList_ofList,
    head_find below fun entry mem => (plain entry mem).1, listed_find below first, List.map_map]
  refine List.map_congr_left fun entry mem => ?_
  have part := (plain entry (List.mem_of_mem_take mem)).2
  have sibling : mounted path ++ "/" ++ String.ofList entry.name =
      mounted (path ++ [entry.name]) := by
    rw [← String.toList_inj, mounted_append]
    simp
  rw [Function.comp_apply, sibling, basename_mounted path part]

end

end Persai.WorkspaceFiles
