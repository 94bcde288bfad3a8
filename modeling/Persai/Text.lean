import Mathlib.Algebra.GroupWithZero.Nat
import Persai.CodeUnits

/-!
# Texts

`String.prototype.trim`, `String.prototype.length` and the replacement of white space.
-/

namespace Persai

/-- White space in the sense of `String.prototype.trim`. -/
def isTrimmed (c : Char) : Bool := CodeUnits.isSpaceCode c.toNat

def trim (value : String) : String := String.ofList (strip isTrimmed value.toList)

/-- `String.prototype.length`. -/
def utf16Length (text : String) : Nat :=
  (text.toList.map fun c => if 0x10000 ≤ c.toNat then 2 else 1).sum

/-- `slice(0, units)`; a surrogate pair that the end would cut is left out whole. -/
def takeUnits : Nat → List Char → List Char
  | _, [] => []
  | units, c :: rest =>
    let width := if 0x10000 ≤ c.toNat then 2 else 1
    if units < width then [] else c :: takeUnits (units - width) rest

/-- `replace(/\s+/g, " ")`. -/
def collapseWhitespace (text : String) : String :=
  String.ofList (collapseRuns isTrimmed ' ' false text.toList)

end Persai
