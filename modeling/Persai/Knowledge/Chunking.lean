import Mathlib.Tactic.NormNum
import Persai.CodeUnits
import Persai.Pieces

/-!
# Chunks of a knowledge document

`chunkKnowledgeText` cuts a document into overlapping pieces that end, where they can, at a break.
-/

namespace Persai.Knowledge

open CodeUnits (Text isWhitespace)

def maxChunkChars : ℕ := 1800
def chunkOverlapChars : ℕ := 200
def breakWindowChars : ℕ := 300

structure KnowledgeChunkDraft where
  chunkIndex : ℕ
  locator : String
  content : Text
  deriving DecidableEq

def draft (chunkIndex : ℕ) (content : Text) : KnowledgeChunkDraft :=
  ⟨chunkIndex, "chunk:" ++ toString (chunkIndex + 1), content⟩

def normalizeKnowledgeText (text : Text) : Text :=
  CodeUnits.trim ((CodeUnits.unifyLineEnds text).filter (· != 0))

/-! ## Breaks -/

/-- `[.!?]` -/
def endsSentence (u : UInt16) : Bool := u == 46 || u == 33 || u == 63

/-- How much `\n{2,}|[.!?]\s+|\s+` matches at the start of a text. -/
def breakLength (text : Text) : ℕ :=
  let newlines := (text.takeWhile (· == 10)).length
  if 2 ≤ newlines then newlines
  else
    match text with
    | [] => 0
    | u :: rest =>
      let spaces := (rest.takeWhile isWhitespace).length
      if endsSentence u && 0 < spaces then spaces + 1
      else if isWhitespace u then spaces + 1
      else 0

/-- Where the matches end, from `index` on; `inside` is what is left of a match. -/
def breakEnds : (inside index : ℕ) → Text → List ℕ
  | _, _, [] => []
  | inside + 1, index, _ :: rest => breakEnds inside (index + 1) rest
  | 0, index, u :: rest =>
    match breakLength (u :: rest) with
    | 0 => breakEnds 0 (index + 1) rest
    | more + 1 => (index + more + 1) :: breakEnds more (index + 1) rest

def findBreakPoint (text : Text) (start proposedEnd : ℕ) : Option ℕ :=
  let lowerBound := max (start + maxChunkChars / 2) (proposedEnd - breakWindowChars)
  (breakEnds 0 lowerBound ((text.take proposedEnd).drop lowerBound)).getLast?

example : breakEnds 0 0 [10, 10, 32, 97, 46, 32, 98] = [2, 3, 6] := by decide +kernel

/-! ## Chunks -/

def chunkEnd (text : Text) (start : ℕ) : ℕ :=
  let proposedEnd := min text.length (start + maxChunkChars)
  if proposedEnd < text.length then
    match findBreakPoint text start proposedEnd with
    | some breakPoint => if start < breakPoint then breakPoint else proposedEnd
    | none => proposedEnd
  else proposedEnd

def skipWhitespace (text : Text) (start : ℕ) : ℕ :=
  start + (text.drop start).findIdx (fun u => !isWhitespace u)

def nextStart (text : Text) (start stop : ℕ) : ℕ :=
  skipWhitespace text (max (stop - chunkOverlapChars) (start + 1))

theorem lt_nextStart (text : Text) (start stop : ℕ) : start < nextStart text start stop := by
  have stepped : start + 1 ≤ max (stop - chunkOverlapChars) (start + 1) := le_max_right _ _
  rw [nextStart, skipWhitespace]
  omega

def chunksFrom (text : Text) (start chunkIndex : ℕ) : List KnowledgeChunkDraft :=
  if start < text.length then
    let stop := chunkEnd text start
    let content := Piece.trimmed isWhitespace text start stop
    let next (chunkIndex : ℕ) :=
      if text.length ≤ stop then []
      else chunksFrom text (nextStart text start stop) chunkIndex
    if content = [] then next chunkIndex
    else draft chunkIndex content :: next (chunkIndex + 1)
  else []
termination_by text.length - start
decreasing_by
  have further := lt_nextStart text start (chunkEnd text start)
  omega

def chunkKnowledgeText (text : Text) : List KnowledgeChunkDraft :=
  chunksFrom (normalizeKnowledgeText text) 0 0

end Persai.Knowledge
