import Mathlib.Data.List.Chain
import Persai.Strip

/-!
# Texts as code units

A JavaScript string is measured, compared and cut by its UTF-16 code units.

* `collapse`: each run of white space becomes one space;
* `Collapsed`: there is no other white space than single spaces, which every part keeps.
-/

namespace Persai.CodeUnits

abbrev Text := List UInt16

/-- The code points of `\s`, which is also what `trim` takes off. -/
def isSpaceCode (n : ℕ) : Bool :=
  (9 ≤ n && n ≤ 13) || n == 32 || n == 160 || n == 0x1680 || (0x2000 ≤ n && n ≤ 0x200A) ||
    n == 0x2028 || n == 0x2029 || n == 0x202F || n == 0x205F || n == 0x3000 || n == 0xFEFF

def isWhitespace (u : UInt16) : Bool := isSpaceCode u.toNat

def trim (text : Text) : Text := strip isWhitespace text

def trimEnd (text : Text) : Text := text.rdropWhile isWhitespace

def isHighSurrogate (u : UInt16) : Bool := 0xD800 ≤ u && u ≤ 0xDBFF

def isLowSurrogate (u : UInt16) : Bool := 0xDC00 ≤ u && u ≤ 0xDFFF

def unitsOf (c : Char) : Text :=
  let n := c.toNat
  if n < 0x10000 then [n.toUInt16]
  else [(0xD800 + (n - 0x10000) / 0x400).toUInt16, (0xDC00 + (n - 0x10000) % 0x400).toUInt16]

def ofString (s : String) : Text := s.toList.flatMap unitsOf

/-- The lower case of `[A-Z]`. -/
def lowerAscii (u : UInt16) : UInt16 := if 65 ≤ u && u ≤ 90 then u + 32 else u

/-- `[A-Za-z0-9_]`, the characters of `\b`. -/
def isWord (u : UInt16) : Bool :=
  (48 ≤ u && u ≤ 57) || (65 ≤ u && u ≤ 90) || u == 95 || (97 ≤ u && u ≤ 122)

/-- `replace(/\r\n/g, "\n")`. -/
def unifyLineEnds : Text → Text
  | [] => []
  | [u] => [u]
  | u :: v :: rest =>
    if u = 13 ∧ v = 10 then 10 :: unifyLineEnds rest else u :: unifyLineEnds (v :: rest)

/-- `replace(/\s+/g, " ")`. -/
def collapse (text : Text) : Text := collapseRuns isWhitespace 32 false text

/-- White space comes as single spaces. -/
structure Collapsed (text : Text) : Prop where
  spaces : ∀ u ∈ text, isWhitespace u = true → u = 32
  single : text.IsChain fun u v => isWhitespace u = false ∨ isWhitespace v = false

theorem Collapsed.part {text part : Text} (h : Collapsed text) (within : part <:+: text) :
    Collapsed part where
  spaces u member := h.spaces u (within.subset member)
  single := List.IsChain.infix h.single within

theorem collapsed_collapseRuns (inRun : Bool) (text : Text) :
    Collapsed (collapseRuns isWhitespace 32 inRun text) := by
  induction text generalizing inRun with
  | nil => exact ⟨by simp [collapseRuns], .nil⟩
  | cons u rest ih =>
    rw [collapseRuns]
    split_ifs with space run
    · exact ih true
    · refine ⟨?_, List.isChain_cons.mpr ⟨fun v first => ?_, (ih true).single⟩⟩
      · rintro v (_ | ⟨_, member⟩) white
        · rfl
        · exact (ih true).spaces v member white
      · exact .inr (collapseRuns_head v first rfl)
    · refine ⟨?_, List.isChain_cons.mpr ⟨fun v _ => .inl (by simpa using space),
        (ih false).single⟩⟩
      rintro v (_ | ⟨_, member⟩) white
      · exact absurd white space
      · exact (ih false).spaces v member white

theorem Collapsed.collapseRuns {inRun : Bool} {text : Text} (h : Collapsed text)
    (starts : inRun = true → ∀ v, text.head? = some v → isWhitespace v = false) :
    collapseRuns isWhitespace 32 inRun text = text := by
  induction text generalizing inRun with
  | nil => rfl
  | cons u rest ih =>
    obtain ⟨next, single⟩ := List.isChain_cons.mp h.single
    have tail : Collapsed rest :=
      ⟨fun v member => h.spaces v (List.mem_cons_of_mem u member), single⟩
    rw [Persai.collapseRuns]
    split_ifs with space run
    · exact absurd space (by simp [starts run u rfl])
    · rw [h.spaces u List.mem_cons_self space, ih tail fun _ v first => ?_]
      exact (next v first).resolve_left (by simp [space])
    · rw [ih tail (by simp)]

theorem Collapsed.collapse {text : Text} (h : Collapsed text) : collapse text = text :=
  h.collapseRuns (by simp)

end Persai.CodeUnits
