import Persai.CodeUnits
import Persai.Lines

/-!
# Markdown while it streams

A message that is still arriving is shown in two parts: the lines up to the last one that ends a
block, which are rendered once, and a live tail whose open fence is closed for the preview.

* `scanLine`, `scanStreamingMarkdown`: the pass over the lines;
* `split_preview`: the two parts together show what the message shown at once would;
* `stableContent_grows_iff`: when no text that arrives later takes back a part shown as stable.
-/

namespace Persai.ChatStreaming

open CodeUnits (Text isWhitespace)
open Lines

/-! ## The kinds of lines -/

inductive Marker
  | backtick
  | tilde
  deriving DecidableEq, Repr

def Marker.unit : Marker → UInt16
  | .backtick => 96
  | .tilde => 126

structure Fence where
  marker : Marker
  length : ℕ
  enough : 3 ≤ length
  deriving DecidableEq, Repr

def trimStart (line : Text) : Text := line.dropWhile isWhitespace

def run (unit : UInt16) (line : Text) : ℕ := (line.takeWhile (· == unit)).length

def isBlankLine (line : Text) : Bool := (CodeUnits.trim line).isEmpty

def isFenceLine (line : Text) : Option Fence :=
  let trimmed := trimStart line
  if ticks : 3 ≤ run 96 trimmed then some ⟨.backtick, _, ticks⟩
  else if tildes : 3 ≤ run 126 trimmed then some ⟨.tilde, _, tildes⟩
  else none

def isStandaloneMathFence (line : Text) : Bool := CodeUnits.trim line == [36, 36]

/-- `/^\s{0,3}/` and then something that is no white space. -/
def indent (line : Text) : ℕ := (line.takeWhile isWhitespace).length

def isAtxHeading (line : Text) : Bool :=
  let rest := trimStart line
  let after := rest.dropWhile (· == 35)
  decide (indent line ≤ 3) && decide (1 ≤ run 35 rest) && decide (run 35 rest ≤ 6) &&
    after.head?.any isWhitespace && !after.all isWhitespace

/-- `/(-\s*){3,}$/`, for each of the three marks. -/
def isRule (unit : UInt16) (rest : Text) : Bool :=
  rest.head? == some unit && rest.all (fun u => u == unit || isWhitespace u) &&
    decide (3 ≤ rest.count unit)

def isThematicBreak (line : Text) : Bool :=
  let trimmed := line.rdropWhile isWhitespace
  let rest := trimStart trimmed
  decide (indent trimmed ≤ 3) && (isRule 45 rest || isRule 95 rest || isRule 42 rest)

/-! ## The pass over the lines -/

structure ScanState where
  offset : ℕ := 0
  lastStableOffset : ℕ := 0
  activeFence : Option Fence := none
  inMathFence : Bool := false
  deriving DecidableEq, Repr

/-- One turn of the loop; `text` is the line with the newline that ends it. -/
def scanLine (s : ScanState) (text : Text) : ScanState :=
  let nextOffset := s.offset + text.length
  let line := lineOf 10 text
  match s.activeFence with
  | some fence =>
    match isFenceLine line with
    | some closing =>
      if closing.marker = fence.marker ∧ fence.length ≤ closing.length then
        { s with offset := nextOffset, activeFence := none, lastStableOffset := nextOffset }
      else { s with offset := nextOffset }
    | none => { s with offset := nextOffset }
  | none =>
    if s.inMathFence then
      if isStandaloneMathFence line then
        { s with offset := nextOffset, inMathFence := false, lastStableOffset := nextOffset }
      else { s with offset := nextOffset }
    else
      match isFenceLine line with
      | some fence => { s with offset := nextOffset, activeFence := some fence }
      | none =>
        if isStandaloneMathFence line then { s with offset := nextOffset, inMathFence := true }
        else if isBlankLine line || isAtxHeading line || isThematicBreak line then
          { s with offset := nextOffset, lastStableOffset := nextOffset }
        else { s with offset := nextOffset }

def scanLines (texts : List Text) : ScanState := texts.foldl scanLine {}

def scanStreamingMarkdown (content : Text) : ScanState := scanLines (lines 10 content)

structure StreamingMarkdownSegments where
  stableContent : Text
  liveTail : Text
  deriving DecidableEq, Repr

def splitStreamingMarkdownContent (content : Text) : StreamingMarkdownSegments :=
  if content = [] then ⟨[], []⟩
  else
    let lastStableOffset := (scanStreamingMarkdown content).lastStableOffset
    ⟨content.take lastStableOffset, content.drop lastStableOffset⟩

/-- `preview.endsWith("\n") ? "" : "\n"`. -/
def lineBreak (preview : Text) : Text := if preview.getLast? = some 10 then [] else [10]

def buildStreamingMarkdownTailPreview (content : Text) : Text :=
  if content = [] then []
  else
    let scan := scanStreamingMarkdown content
    let preview :=
      match scan.activeFence with
      | some fence =>
        content ++ lineBreak content ++ List.replicate fence.length fence.marker.unit
      | none => content
    if scan.inMathFence then preview ++ lineBreak preview ++ [36, 36] else preview

/-! ## What a line does -/

/-- The fences that are open behind a line, and whether the text up to there is stable. -/
def next (activeFence : Option Fence) (inMathFence : Bool) (line : Text) :
    Option Fence × Bool × Bool :=
  match activeFence with
  | some fence =>
    match isFenceLine line with
    | some closing =>
      if closing.marker = fence.marker ∧ fence.length ≤ closing.length then
        (none, inMathFence, true)
      else (some fence, inMathFence, false)
    | none => (some fence, inMathFence, false)
  | none =>
    if inMathFence then
      if isStandaloneMathFence line then (none, false, true) else (none, true, false)
    else
      match isFenceLine line with
      | some fence => (some fence, false, false)
      | none =>
        if isStandaloneMathFence line then (none, true, false)
        else (none, false, isBlankLine line || isAtxHeading line || isThematicBreak line)

/-- What a line behind a scan does. -/
def ScanState.next (s : ScanState) (line : Text) : Option Fence × Bool × Bool :=
  ChatStreaming.next s.activeFence s.inMathFence line

theorem scanLine_eq (s : ScanState) (text : Text) : scanLine s text =
    { offset := s.offset + text.length
      lastStableOffset :=
        if (s.next (lineOf 10 text)).2.2 then s.offset + text.length else s.lastStableOffset
      activeFence := (s.next (lineOf 10 text)).1
      inMathFence := (s.next (lineOf 10 text)).2.1 } := by
  obtain ⟨offset, last, activeFence, inMathFence⟩ := s
  unfold scanLine ScanState.next next
  cases activeFence with
  | some fence =>
    dsimp only
    cases isFenceLine (lineOf 10 text) with
    | none => rfl
    | some closing => dsimp only; split <;> rfl
  | none =>
    cases inMathFence with
    | true => dsimp only; simp only [if_true]; split <;> rfl
    | false =>
      dsimp only
      simp only [Bool.false_eq_true, if_false]
      cases isFenceLine (lineOf 10 text) with
      | some fence => rfl
      | none =>
        dsimp only
        split
        · rfl
        · cases isBlankLine (lineOf 10 text) || isAtxHeading (lineOf 10 text) ||
            isThematicBreak (lineOf 10 text) <;> rfl

/-- Nothing is open. -/
def ScanState.Closed (s : ScanState) : Prop := s.activeFence = none ∧ s.inMathFence = false

instance (s : ScanState) : Decidable s.Closed :=
  inferInstanceAs (Decidable (s.activeFence = none ∧ s.inMathFence = false))

/-- At most one of the two kinds of fences is open. -/
def ScanState.One (s : ScanState) : Prop := s.activeFence = none ∨ s.inMathFence = false

theorem one_scanLine {s : ScanState} (one : s.One) (text : Text) : (scanLine s text).One := by
  obtain ⟨offset, last, activeFence, inMathFence⟩ := s
  rw [scanLine_eq]
  unfold ScanState.One ScanState.next next
  cases activeFence with
  | some fence =>
    have off : inMathFence = false := by simpa [ScanState.One] using one
    subst off
    dsimp only
    cases isFenceLine (lineOf 10 text) with
    | none => exact .inr rfl
    | some closing => dsimp only; split <;> exact .inr rfl
  | none =>
    cases inMathFence with
    | true => dsimp only; simp only [if_true]; split <;> exact .inl rfl
    | false =>
      dsimp only
      simp only [Bool.false_eq_true, if_false]
      cases isFenceLine (lineOf 10 text) with
      | some fence => exact .inr rfl
      | none => dsimp only; split <;> exact .inl rfl

/-- What is stable ends where nothing is open. -/
theorem closed_of_stable {s : ScanState} (one : s.One) {line : Text}
    (stable : (s.next line).2.2 = true) : (s.next line).1 = none ∧ (s.next line).2.1 = false := by
  obtain ⟨offset, last, activeFence, inMathFence⟩ := s
  revert stable
  unfold ScanState.next next
  cases activeFence with
  | some fence =>
    have off : inMathFence = false := by simpa [ScanState.One] using one
    subst off
    dsimp only
    cases isFenceLine line with
    | none => simp
    | some closing => dsimp only; split <;> simp
  | none =>
    cases inMathFence with
    | true => dsimp only; simp only [if_true]; split <;> simp
    | false =>
      dsimp only
      simp only [Bool.false_eq_true, if_false]
      cases isFenceLine line with
      | some fence => simp
      | none => dsimp only; split <;> simp

theorem scanLines_snoc (texts : List Text) (text : Text) :
    scanLines (texts ++ [text]) = scanLine (scanLines texts) text := by
  rw [scanLines, List.foldl_append]
  rfl

theorem one_scanLines (texts : List Text) : (scanLines texts).One := by
  induction texts using List.reverseRecOn with
  | nil => exact .inl rfl
  | append_singleton texts text ih => exact scanLines_snoc texts text ▸ one_scanLine ih text

theorem offset_scanLines (texts : List Text) :
    (scanLines texts).offset = texts.flatten.length := by
  induction texts using List.reverseRecOn with
  | nil => rfl
  | append_singleton texts text ih =>
    rw [scanLines_snoc, scanLine_eq, List.flatten_append, List.flatten_singleton,
      List.length_append, ih]

/-- The lines up to the last stable offset close all they open, and the lines behind it are
scanned as if nothing came before. -/
theorem scanLines_parts (texts : List Text) : ∃ before behind, texts = before ++ behind ∧
    (scanLines texts).lastStableOffset = before.flatten.length ∧
    scanLines before = ⟨before.flatten.length, before.flatten.length, none, false⟩ ∧
    scanLines behind = ⟨behind.flatten.length, 0, (scanLines texts).activeFence,
      (scanLines texts).inMathFence⟩ := by
  induction texts using List.reverseRecOn with
  | nil => exact ⟨[], [], rfl, rfl, rfl, rfl⟩
  | append_singleton texts text ih =>
    obtain ⟨before, behind, cut, last, first, rest⟩ := ih
    have whole := offset_scanLines (texts ++ [text])
    rw [scanLines_snoc] at whole ⊢
    cases stable : ((scanLines texts).next (lineOf 10 text)).2.2 with
    | true =>
      obtain ⟨fence, math⟩ := closed_of_stable (one_scanLines texts) stable
      rw [scanLine_eq, stable, if_pos rfl, fence, math] at whole ⊢
      refine ⟨texts ++ [text], [], (List.append_nil _).symm, whole, ?_, rfl⟩
      rw [scanLines_snoc, scanLine_eq, stable, if_pos rfl, fence, math]
      rw [show (scanLines texts).offset + text.length = _ from whole]
    | false =>
      refine ⟨before, behind ++ [text], by rw [cut, List.append_assoc], ?_, first, ?_⟩
      · rw [scanLine_eq, stable, if_neg Bool.false_ne_true]
        exact last
      · have same : (scanLines behind).next = (scanLines texts).next := by
          rw [rest]
          rfl
        rw [scanLines_snoc, scanLine_eq, same, stable, if_neg Bool.false_ne_true, scanLine_eq, rest,
          List.flatten_append, List.flatten_singleton, List.length_append]

/-! ## The two parts -/

theorem split_eq (content : Text) : splitStreamingMarkdownContent content =
    ⟨content.take (scanStreamingMarkdown content).lastStableOffset,
      content.drop (scanStreamingMarkdown content).lastStableOffset⟩ := by
  unfold splitStreamingMarkdownContent
  split
  · rename_i empty
    rw [empty, List.take_nil, List.drop_nil]
  · rfl

/-- The two parts, each scanned on its own. -/
theorem split_parts (content : Text) : ∃ stable tail,
    splitStreamingMarkdownContent content = ⟨stable, tail⟩ ∧ content = stable ++ tail ∧
    scanStreamingMarkdown stable = ⟨stable.length, stable.length, none, false⟩ ∧
    scanStreamingMarkdown tail = ⟨tail.length, 0, (scanStreamingMarkdown content).activeFence,
      (scanStreamingMarkdown content).inMathFence⟩ := by
  obtain ⟨before, behind, cut, last, first, rest⟩ := scanLines_parts (lines 10 content)
  obtain ⟨linesBefore, linesBehind⟩ := lines_parts cut
  have whole := flatten_lines 10 content
  rw [cut, List.flatten_append] at whole
  refine ⟨before.flatten, behind.flatten, ?_, whole.symm, ?_, ?_⟩
  · rw [split_eq, show (scanStreamingMarkdown content).lastStableOffset = _ from last]
    nth_rewrite 1 2 [← whole]
    rw [List.take_left, List.drop_left]
  · rw [scanStreamingMarkdown, linesBefore, first]
  · rw [scanStreamingMarkdown, linesBehind, rest]
    rfl

/-! ## The preview of the tail -/

/-- The line that closes what is open. -/
def closing (s : ScanState) : Text :=
  match s.activeFence with
  | some fence => List.replicate fence.length fence.marker.unit
  | none => if s.inMathFence then [36, 36] else []

theorem preview_eq {content : Text} (ne : content ≠ []) :
    buildStreamingMarkdownTailPreview content =
      if (scanStreamingMarkdown content).Closed then content
      else content ++ lineBreak content ++ closing (scanStreamingMarkdown content) := by
  have one : (scanStreamingMarkdown content).One := one_scanLines _
  unfold buildStreamingMarkdownTailPreview closing ScanState.Closed
  rw [if_neg ne]
  unfold ScanState.One at one
  generalize scanStreamingMarkdown content = s at one
  obtain ⟨offset, last, activeFence, inMathFence⟩ := s
  cases activeFence with
  | some fence =>
    have off : inMathFence = false := by simpa using one
    subst off
    simp
  | none => cases inMathFence <;> simp

theorem takeWhile_replicate (n : ℕ) (u : UInt16) :
    (List.replicate n u).takeWhile (· == u) = List.replicate n u :=
  List.takeWhile_eq_self_iff.mpr fun _ mem => beq_iff_eq.mpr (List.eq_of_mem_replicate mem)

theorem isFenceLine_closing (fence : Fence) :
    isFenceLine (List.replicate fence.length fence.marker.unit) = some fence := by
  obtain ⟨marker, length, enough⟩ := fence
  obtain ⟨more, rfl⟩ := Nat.exists_eq_add_of_le' enough
  cases marker with
  | backtick =>
    have shown : trimStart (List.replicate (more + 3) 96) = List.replicate (more + 3) 96 := rfl
    have ticks : run 96 (List.replicate (more + 3) 96) = more + 3 := by
      rw [run, takeWhile_replicate, List.length_replicate]
    simp only [isFenceLine, Marker.unit, shown, ticks, enough, dite_true]
  | tilde =>
    have shown : trimStart (List.replicate (more + 3) 126) = List.replicate (more + 3) 126 := rfl
    have ticks : run 96 (List.replicate (more + 3) 126) = 0 := rfl
    have tildes : run 126 (List.replicate (more + 3) 126) = more + 3 := by
      rw [run, takeWhile_replicate, List.length_replicate]
    have short : ¬ 3 ≤ 0 := by decide
    simp only [isFenceLine, Marker.unit, shown, ticks, tildes, enough, short, dite_true, dite_false]

theorem closing_free (s : ScanState) : 10 ∉ closing s := by
  unfold closing
  split
  · rename_i fence _
    intro mem
    have same := List.eq_of_mem_replicate mem
    cases marker : fence.marker <;> rw [marker] at same <;> cases same
  · split <;> decide

theorem closing_ne {s : ScanState} (unclosed : ¬ s.Closed) : closing s ≠ [] := by
  unfold closing
  split
  · rename_i fence _
    have enough := fence.enough
    intro empty
    rw [List.replicate_eq_nil_iff] at empty
    omega
  · rename_i free
    split
    · exact List.cons_ne_nil _ _
    · rename_i math
      exact absurd ⟨free, by simpa using math⟩ unclosed

/-- The line that is added closes what is open, whatever offsets the scan has. -/
theorem closed_closing {s t : ScanState} (one : s.One) (unclosed : ¬ s.Closed)
    (fence : t.activeFence = s.activeFence) (math : t.inMathFence = s.inMathFence) :
    (scanLine t (closing s)).Closed := by
  have line : lineOf 10 (closing s) = closing s := lineOf_self (closing_free s)
  rw [scanLine_eq, line, ScanState.next, fence, math]
  obtain ⟨offset, last, activeFence, inMathFence⟩ := s
  unfold ScanState.Closed closing next
  cases activeFence with
  | some fence =>
    have off : inMathFence = false := by simpa [ScanState.One] using one
    subst off
    simp only [isFenceLine_closing, le_refl, and_self, if_true]
  | none =>
    cases inMathFence with
    | false => exact absurd ⟨rfl, rfl⟩ unclosed
    | true => simp only [if_true]; decide +kernel

/-- The whole lines of a text, the line that is not ended, and what that line does. -/
theorem scan_cut (content : Text) : ∃ whole rest, content = whole ++ rest ∧ 10 ∉ rest ∧
    (whole = [] ∨ whole.getLast? = some 10) ∧
    ∀ more, scanStreamingMarkdown (whole ++ more) =
      (lines 10 more).foldl scanLine (scanStreamingMarkdown whole) := by
  obtain ⟨whole, rest, cut, free, ends, behind⟩ := exists_cut 10 content
  refine ⟨whole, rest, cut, free, ends, fun more => ?_⟩
  rw [scanStreamingMarkdown, behind, scanLines, List.foldl_append]
  rfl

/-- What is open is closed behind the preview. -/
theorem closed_preview (content : Text) :
    (scanStreamingMarkdown (buildStreamingMarkdownTailPreview content)).Closed := by
  by_cases empty : content = []
  · subst empty
    exact ⟨rfl, rfl⟩
  · rw [preview_eq empty]
    split
    · assumption
    · rename_i unclosed
      have one : (scanStreamingMarkdown content).One := one_scanLines _
      have alone := lines_word (closing_free (scanStreamingMarkdown content)) (closing_ne unclosed)
      obtain ⟨whole, rest, cut, free, ends, scanned⟩ := scan_cut content
      cases rest with
      | nil =>
        rw [List.append_nil] at cut
        subst cut
        have lineEnded := ends.resolve_left empty
        rw [lineBreak, if_pos lineEnded, List.append_nil, scanned, alone]
        exact closed_closing one unclosed rfl rfl
      | cons u rest =>
        have noBreak : content.getLast? ≠ some 10 := by
          rw [cut, List.getLast?_append_of_ne_nil _ (List.cons_ne_nil _ _)]
          exact fun last => free (List.mem_of_getLast? last)
        have added : content ++ [10] ++ closing (scanStreamingMarkdown content) =
            whole ++ (u :: rest ++ 10 :: closing (scanStreamingMarkdown content)) := by
          nth_rewrite 1 [cut]
          simp
        have lineFree : lineOf 10 (u :: rest ++ [10]) = u :: rest := lineOf_word free (.inr rfl)
        have lineSame : lineOf 10 (u :: rest) = u :: rest := lineOf_self free
        have before : scanStreamingMarkdown content =
            scanLine (scanStreamingMarkdown whole) (u :: rest) := by
          nth_rewrite 1 [cut]
          rw [scanned, lines_word free (List.cons_ne_nil _ _)]
          rfl
        rw [lineBreak, if_neg noBreak, added, scanned, lines_append free, alone]
        refine closed_closing one unclosed ?_ ?_
        · rw [before, scanLine_eq, scanLine_eq, lineFree, lineSame]
        · rw [before, scanLine_eq, scanLine_eq, lineFree, lineSame]

theorem lineBreak_append (stable : Text) {tail : Text} (ne : tail ≠ []) :
    lineBreak (stable ++ tail) = lineBreak tail := by
  rw [lineBreak, lineBreak, List.getLast?_append_of_ne_nil _ ne]

/-- The stable part and the preview of the tail are the preview of the message: no fence reaches
from one into the other, each part is already split, and nothing stays open. -/
theorem split_preview (content : Text) : ∃ stable tail,
    splitStreamingMarkdownContent content = ⟨stable, tail⟩ ∧ stable ++ tail = content ∧
    (scanStreamingMarkdown stable).Closed ∧
    splitStreamingMarkdownContent stable = ⟨stable, []⟩ ∧
    splitStreamingMarkdownContent tail = ⟨[], tail⟩ ∧
    stable ++ buildStreamingMarkdownTailPreview tail = buildStreamingMarkdownTailPreview content ∧
    (scanStreamingMarkdown (buildStreamingMarkdownTailPreview content)).Closed := by
  obtain ⟨stable, tail, parts, rfl, first, rest⟩ := split_parts content
  refine ⟨stable, tail, parts, rfl, ?_, ?_, ?_, ?_, closed_preview _⟩
  · rw [first]
    exact ⟨rfl, rfl⟩
  · rw [split_eq, first, List.take_length, List.drop_length]
  · rw [split_eq, rest, List.take_zero, List.drop_zero]
  · by_cases nothing : tail = []
    · subst nothing
      rw [List.append_nil]
      by_cases empty : stable = []
      · rw [empty]
        rfl
      · rw [preview_eq empty, first, if_pos ⟨rfl, rfl⟩]
        exact List.append_nil _
    · have ne : stable ++ tail ≠ [] := by simp [nothing]
      rw [preview_eq nothing, preview_eq ne, rest, lineBreak_append stable nothing]
      have same : (⟨tail.length, 0, (scanStreamingMarkdown (stable ++ tail)).activeFence,
          (scanStreamingMarkdown (stable ++ tail)).inMathFence⟩ : ScanState).Closed ↔
          (scanStreamingMarkdown (stable ++ tail)).Closed := Iff.rfl
      by_cases closed : (scanStreamingMarkdown (stable ++ tail)).Closed
      · rw [if_pos (same.mpr closed), if_pos closed]
      · rw [if_neg (mt same.mp closed), if_neg closed, List.append_assoc, List.append_assoc,
          List.append_assoc]
        rfl

/-! ## What is stable stays stable -/

/-- The first unit of a line that is no white space. -/
def shown (line : Text) : Option UInt16 := (trimStart line).head?

theorem shown_append {line : Text} {u : UInt16} (first : shown line = some u) (more : Text) :
    trimStart (line ++ more) = trimStart line ++ more ∧ shown (line ++ more) = some u := by
  have ne : (trimStart line).isEmpty = false := by
    cases trimmed : trimStart line with
    | nil =>
      rw [shown, trimmed] at first
      cases first
    | cons => rfl
  have whole : trimStart (line ++ more) = trimStart line ++ more := by
    unfold trimStart at ne ⊢
    rw [List.dropWhile_append, ne, if_neg Bool.false_ne_true]
  refine ⟨whole, ?_⟩
  rw [shown, whole]
  rw [List.head?_append, show (trimStart line).head? = _ from first, Option.some_or]

theorem run_head {unit : UInt16} {line : Text} (some_ : 1 ≤ run unit line) :
    line.head? = some unit := by
  cases line with
  | nil => exact absurd some_ (Nat.not_succ_le_zero 0)
  | cons u line =>
    by_cases same : u = unit
    · rw [same]
      rfl
    · rw [run, List.takeWhile_cons_of_neg (by simpa using same)] at some_
      exact absurd some_ (Nat.not_succ_le_zero 0)

theorem shown_fence {line : Text} {fence : Fence} (isFence : isFenceLine line = some fence) :
    shown line = some fence.marker.unit ∧
      fence.length = run fence.marker.unit (trimStart line) := by
  unfold isFenceLine at isFence
  dsimp only at isFence
  split at isFence
  · rename_i ticks
    obtain rfl := Option.some.inj isFence
    exact ⟨run_head (Nat.le_of_succ_le (Nat.le_of_succ_le ticks)), rfl⟩
  · split at isFence
    · rename_i tildes
      obtain rfl := Option.some.inj isFence
      exact ⟨run_head (Nat.le_of_succ_le (Nat.le_of_succ_le tildes)), rfl⟩
    · cases isFence

theorem shown_math {line : Text} (math : isStandaloneMathFence line = true) :
    shown line = some 36 := by
  have stripped : ((trimStart line).rdropWhile isWhitespace) = [36, 36] := eq_of_beq math
  have within := List.rdropWhile_prefix isWhitespace (trimStart line)
  rw [stripped] at within
  obtain ⟨rest, whole⟩ := within
  rw [shown, ← whole]
  rfl

theorem shown_blank {line : Text} : isBlankLine line = true ↔ shown line = none := by
  rw [isBlankLine, CodeUnits.trim, strip, shown, List.head?_eq_none_iff, List.isEmpty_iff,
    List.rdropWhile_eq_nil_iff, trimStart]
  constructor
  · intro blank
    by_contra ne
    have first := List.head_dropWhile_not isWhitespace ne
    rw [blank _ (List.head_mem ne)] at first
    cases first
  · intro empty
    rw [empty]
    exact fun _ mem => absurd mem List.not_mem_nil

theorem shown_heading {line : Text} (heading : isAtxHeading line = true) :
    shown line = some 35 := by
  unfold isAtxHeading at heading
  simp only [Bool.and_eq_true, decide_eq_true_eq] at heading
  exact run_head heading.1.1.1.2

theorem shown_rule {line : Text} (rule : isThematicBreak line = true) :
    shown line = some 45 ∨ shown line = some 95 ∨ shown line = some 42 := by
  obtain ⟨blanks, whole⟩ := List.rdropWhile_prefix isWhitespace line
  simp only [isThematicBreak, isRule, Bool.and_eq_true, Bool.or_eq_true, beq_iff_eq] at rule
  rw [← whole]
  rcases rule.2 with (dashes | underscores) | stars
  · exact .inl (shown_append dashes.1.1 blanks).2
  · exact .inr (.inl (shown_append underscores.1.1 blanks).2)
  · exact .inr (.inr (shown_append stars.1.1 blanks).2)

/-! ## A line that goes on -/

theorem run_append_le (unit : UInt16) (line more : Text) :
    run unit line ≤ run unit (line ++ more) := by
  rw [run, run, List.takeWhile_append]
  split
  · rename_i whole
    rw [List.length_append]
    omega
  · exact le_refl _

theorem isFenceLine_of {line : Text} {marker : Marker}
    (many : 3 ≤ run marker.unit (trimStart line)) : isFenceLine line = some ⟨marker, _, many⟩ := by
  cases marker with
  | backtick => exact dif_pos many
  | tilde =>
    have first := run_head (Nat.le_of_succ_le (Nat.le_of_succ_le many))
    have short : ¬ 3 ≤ run 96 (trimStart line) := by
      intro ticks
      have other := run_head (Nat.le_of_succ_le (Nat.le_of_succ_le ticks))
      rw [first] at other
      cases other
    exact (dif_neg short).trans (dif_pos many)

theorem isFenceLine_append {line : Text} {fence : Fence} (isFence : isFenceLine line = some fence)
    (more : Text) : ∃ longer, isFenceLine (line ++ more) = some longer ∧
      longer.marker = fence.marker ∧ fence.length ≤ longer.length := by
  obtain ⟨first, length⟩ := shown_fence isFence
  have longer : fence.length ≤ run fence.marker.unit (trimStart (line ++ more)) := by
    rw [(shown_append first more).1, length]
    exact run_append_le ..
  exact ⟨_, isFenceLine_of (fence.enough.trans longer), rfl, longer⟩

theorem takeWhile_append_of_dropWhile {p : UInt16 → Bool} {line : Text}
    (ne : (line.dropWhile p).head? ≠ none) (more : Text) :
    (line ++ more).takeWhile p = line.takeWhile p ∧
      (line ++ more).dropWhile p = line.dropWhile p ++ more := by
  have rest : line.dropWhile p ≠ [] := fun empty => ne (by rw [empty]; rfl)
  have whole := congrArg List.length (List.takeWhile_append_dropWhile (p := p) (l := line))
  rw [List.length_append] at whole
  have stops := List.length_pos_iff.mpr rest
  constructor
  · rw [List.takeWhile_append, if_neg (by omega)]
  · rw [List.dropWhile_append, if_neg (by simpa using rest)]

theorem isAtxHeading_append {line : Text} (heading : isAtxHeading line = true) (more : Text) :
    isAtxHeading (line ++ more) = true := by
  have first := shown_heading heading
  have trimmed := (shown_append first more).1
  have indented : indent (line ++ more) = indent line := by
    have ne : (line.dropWhile isWhitespace).head? ≠ none := by
      rw [show (line.dropWhile isWhitespace).head? = _ from first]
      exact Option.some_ne_none 35
    rw [indent, (takeWhile_append_of_dropWhile ne more).1, indent]
  unfold isAtxHeading at heading ⊢
  rw [indented, trimmed]
  simp only [Bool.and_eq_true, decide_eq_true_eq, Bool.not_eq_true', Option.any_eq_true]
    at heading ⊢
  obtain ⟨⟨⟨⟨near, one⟩, six⟩, u, after, blank⟩, text⟩ := heading
  have ne : ((trimStart line).dropWhile (· == 35)).head? ≠ none := by
    rw [after]
    exact Option.some_ne_none u
  obtain ⟨hashes, rest⟩ := takeWhile_append_of_dropWhile ne more
  have count : run 35 (trimStart line ++ more) = run 35 (trimStart line) := by
    rw [run, hashes, run]
  rw [count, rest]
  refine ⟨⟨⟨⟨near, one⟩, six⟩, u, ?_, blank⟩, ?_⟩
  · rw [List.head?_append, after, Option.some_or]
  · rw [List.all_append, text, Bool.false_and]

/-- A unit that is no white space and no mark. -/
def plain : Text := [120]

theorem trimStart_plain (line : Text) : ∃ before, trimStart (line ++ plain) = before ++ plain := by
  unfold trimStart
  rw [List.dropWhile_append]
  split
  · exact ⟨[], rfl⟩
  · exact ⟨_, rfl⟩

theorem rdropWhile_plain (line : Text) :
    (line ++ plain).rdropWhile isWhitespace = line ++ plain :=
  List.rdropWhile_concat_neg _ _ _ (by decide)

theorem not_math_plain (line : Text) : isStandaloneMathFence (line ++ plain) = false := by
  obtain ⟨before, trimmed⟩ := trimStart_plain line
  rw [isStandaloneMathFence, beq_eq_false_iff_ne, CodeUnits.trim, strip,
    show (line ++ plain).dropWhile isWhitespace = _ from trimmed, rdropWhile_plain]
  intro stripped
  have within : (120 : UInt16) ∈ before ++ plain := by simp [plain]
  rw [stripped] at within
  exact absurd within (by decide)

theorem not_rule_plain (line : Text) : isThematicBreak (line ++ plain) = false := by
  obtain ⟨before, trimmed⟩ := trimStart_plain line
  have foreign : ∀ unit : UInt16, unit ≠ 120 → isRule unit (before ++ plain) = false := by
    intro unit other
    have mixed : (before ++ plain).all (fun u => u == unit || isWhitespace u) = false := by
      rw [List.all_append]
      have last : plain.all (fun u => u == unit || isWhitespace u) = false := by
        have differ : ((120 : UInt16) == unit) = false := beq_eq_false_iff_ne.mpr (Ne.symm other)
        rw [plain, List.all_cons, differ]
        rfl
      rw [last, Bool.and_false]
    rw [isRule, mixed, Bool.and_false, Bool.false_and]
  unfold isThematicBreak
  dsimp only
  rw [rdropWhile_plain, trimmed, foreign 45 (by decide), foreign 95 (by decide),
    foreign 42 (by decide)]
  exact Bool.and_false _

theorem shown_plain {line : Text} {u : UInt16} (first : shown (line ++ plain) = some u)
    (other : u ≠ 120) : shown line = some u := by
  cases before : shown line with
  | none =>
    have blanks : trimStart line = [] := List.head?_eq_none_iff.mp before
    have only : shown (line ++ plain) = some 120 := by
      unfold shown trimStart at *
      rw [List.dropWhile_append, blanks]
      rfl
    exact absurd (Option.some.inj (first.symm.trans only)) other
  | some v => rw [← first, (shown_append before plain).2]

/-- A line that begins like no heading is not stable with more text on it. -/
theorem next_plain {line : Text} (other : shown line ≠ some 35) :
    (next none false (line ++ plain)).2.2 = false := by
  have heading : isAtxHeading (line ++ plain) = false := by
    rw [← Bool.not_eq_true]
    exact fun heading => other (shown_plain (shown_heading heading) (by decide))
  have blank : isBlankLine (line ++ plain) = false := by
    rw [← Bool.not_eq_true, shown_blank]
    obtain ⟨before, trimmed⟩ := trimStart_plain line
    rw [shown, trimmed]
    simp [plain]
  unfold next
  simp only [Bool.false_eq_true, if_false]
  cases isFenceLine (line ++ plain) with
  | some fence => rfl
  | none => simp [not_math_plain, blank, heading, not_rule_plain]

/-! ## When it grows -/

def wholeLines (content : Text) : Text := content.rdropWhile (· ≠ 10)

def openLine (content : Text) : Text := content.rtakeWhile (· ≠ 10)

/-- The line that is not ended makes the text before it stable, but only as long as nothing comes
behind it: white space, a rule, or the end of a math fence. -/
def Provisional (content : Text) : Prop :=
  let line := openLine content
  let s := scanStreamingMarkdown (wholeLines content)
  line ≠ [] ∧ s.activeFence = none ∧
    if s.inMathFence then isStandaloneMathFence line = true
    else isBlankLine line = true ∨ isThematicBreak line = true

/-- A line that makes the text stable for good. -/
theorem next_append {s : ScanState} {line : Text}
    (stable : (s.next line).2.2 = true)
    (lasting : s.activeFence = none → if s.inMathFence then isStandaloneMathFence line = false
      else isBlankLine line = false ∧ isThematicBreak line = false) (more : Text) :
    (s.next (line ++ more)).2.2 = true := by
  obtain ⟨offset, last, activeFence, inMathFence⟩ := s
  revert stable
  unfold ScanState.next next
  cases activeFence with
  | some fence =>
    dsimp only
    cases isFence : isFenceLine line with
    | none => simp
    | some closing =>
      obtain ⟨longer, isLonger, marker, enough⟩ := isFenceLine_append isFence more
      rw [isLonger]
      dsimp only
      split
      · rename_i closes
        rw [if_pos ⟨marker.trans closes.1, closes.2.trans enough⟩]
        exact id
      · exact fun stable => absurd stable Bool.false_ne_true
  | none =>
    have lasting := lasting rfl
    cases inMathFence with
    | true =>
      simp only [if_true] at lasting ⊢
      simp [lasting]
    | false =>
      simp only [Bool.false_eq_true, if_false] at lasting ⊢
      cases isFence : isFenceLine line with
      | some fence => simp
      | none =>
        dsimp only
        split
        · simp
        · simp only [lasting.1, lasting.2, Bool.false_or, Bool.or_false]
          intro heading
          have first := (shown_append (shown_heading heading) more).2
          have noFence : isFenceLine (line ++ more) = none := by
            cases isFence' : isFenceLine (line ++ more) with
            | none => rfl
            | some fence =>
              have marked := (shown_fence isFence').1
              rw [first] at marked
              cases marker : fence.marker <;> rw [marker] at marked <;> cases marked
          have noMath : isStandaloneMathFence (line ++ more) = false := by
            rw [← Bool.not_eq_true]
            intro math
            have marked := shown_math math
            rw [first] at marked
            cases marked
          rw [noFence]
          simp [noMath, isAtxHeading_append heading more]

/-- A line that makes the text stable only as it stands. -/
theorem next_provisional {s : ScanState} {line : Text} (noFence : s.activeFence = none)
    (provisional : if s.inMathFence then isStandaloneMathFence line = true
      else isBlankLine line = true ∨ isThematicBreak line = true) :
    (s.next line).2.2 = true ∧ (s.next (line ++ plain)).2.2 = false := by
  obtain ⟨offset, last, activeFence, inMathFence⟩ := s
  dsimp only at noFence
  subst noFence
  cases inMathFence with
  | true =>
    simp only [if_true] at provisional
    simp [ScanState.next, next, provisional, not_math_plain]
  | false =>
    simp only [Bool.false_eq_true, if_false] at provisional
    have unmarked : ∀ u, shown line = some u → u = 45 ∨ u = 95 ∨ u = 42 := by
      intro u first
      rcases provisional with blank | rule
      · rw [shown_blank.mp blank] at first
        cases first
      · have marks := shown_rule rule
        rw [first] at marks
        simpa only [Option.some.injEq] using marks
    have noHeading : shown line ≠ some 35 := fun first => absurd (unmarked _ first) (by decide)
    refine ⟨?_, next_plain noHeading⟩
    have noMath : isStandaloneMathFence line = false := by
      rw [← Bool.not_eq_true]
      exact fun math => absurd (unmarked _ (shown_math math)) (by decide)
    have notFence : isFenceLine line = none := by
      cases isFence : isFenceLine line with
      | none => rfl
      | some fence =>
        have marks := unmarked _ (shown_fence isFence).1
        cases marker : fence.marker <;> rw [marker] at marks <;> exact absurd marks (by decide)
    have stable : (isBlankLine line || isAtxHeading line || isThematicBreak line) = true := by
      rcases provisional with blank | rule
      · rw [blank, Bool.true_or, Bool.true_or]
      · rw [rule, Bool.or_true]
    simp [ScanState.next, next, notFence, noMath, stable]

theorem last_scanLines (texts : List Text) :
    (scanLines texts).lastStableOffset ≤ (scanLines texts).offset := by
  obtain ⟨before, behind, cut, last, -, -⟩ := scanLines_parts texts
  rw [offset_scanLines, last, cut, List.flatten_append, List.length_append]
  exact Nat.le_add_right ..

theorem last_le_scanLine {s : ScanState} (bound : s.lastStableOffset ≤ s.offset) (text : Text) :
    s.lastStableOffset ≤ (scanLine s text).lastStableOffset := by
  rw [scanLine_eq]
  dsimp only
  split
  · exact bound.trans (Nat.le_add_right ..)
  · exact le_refl _

/-- More lines do not take the last stable offset back. -/
theorem last_le_foldl (before : List Text) (texts : List Text) :
    (scanLines before).lastStableOffset ≤
      (texts.foldl scanLine (scanLines before)).lastStableOffset := by
  induction texts generalizing before with
  | nil => exact le_refl _
  | cons text texts ih =>
    have later := ih (before ++ [text])
    rw [scanLines_snoc] at later
    exact (last_le_scanLine (last_scanLines before) text).trans later

def stableContent (content : Text) : Text := (splitStreamingMarkdownContent content).stableContent

theorem last_le_length (content : Text) :
    (scanStreamingMarkdown content).lastStableOffset ≤ content.length := by
  have bound := last_scanLines (lines 10 content)
  rwa [offset_scanLines, flatten_lines] at bound

theorem stableContent_prefix_iff (content more : Text) :
    stableContent content <+: stableContent (content ++ more) ↔
      (scanStreamingMarkdown content).lastStableOffset ≤
        (scanStreamingMarkdown (content ++ more)).lastStableOffset := by
  have within := last_le_length content
  rw [stableContent, stableContent, split_eq, split_eq]
  dsimp only
  constructor
  · intro grows
    have shorter := grows.length_le
    rw [List.length_take, List.length_take, Nat.min_eq_left within] at shorter
    exact shorter.trans (Nat.min_le_left ..)
  · intro later
    have same : (content ++ more).take (scanStreamingMarkdown content).lastStableOffset =
        content.take (scanStreamingMarkdown content).lastStableOffset :=
      List.take_append_of_le_length within
    rw [← same]
    exact List.take_prefix_take_left later

/-- Text that arrives later takes nothing back that was shown as stable, whatever it is, unless
the line that is not ended yet was stable only as it stood. -/
theorem stableContent_grows_iff (content : Text) :
    (∀ more, stableContent content <+: stableContent (content ++ more)) ↔
      ¬ Provisional content := by
  obtain ⟨whole, rest, rfl, free, ends, scanned⟩ := scan_cut content
  obtain ⟨isWhole, isOpen⟩ := cut_eq free ends
  have here := scanned rest
  simp only [stableContent_prefix_iff]
  unfold Provisional wholeLines openLine
  rw [isWhole, isOpen]
  by_cases nothing : rest = []
  · subst nothing
    rw [List.append_nil]
    refine iff_of_true (fun more => ?_) fun provisional => provisional.1 rfl
    rw [scanned]
    exact last_le_foldl ..
  · have lineSame : lineOf 10 rest = rest := lineOf_self free
    rw [lines_word free nothing, List.foldl_cons, List.foldl_nil] at here
    have bound : (scanStreamingMarkdown whole).lastStableOffset ≤
        (scanStreamingMarkdown whole).offset := last_scanLines _
    constructor
    · rintro grows ⟨-, noFence, provisional⟩
      obtain ⟨stable, undone⟩ := next_provisional noFence provisional
      have free' : 10 ∉ rest ++ plain := by simp [free, plain]
      have lineSame' : lineOf 10 (rest ++ plain) = rest ++ plain := lineOf_self free'
      have shrinks := grows plain
      rw [here, List.append_assoc, scanned, lines_word free' (by simp [plain]), List.foldl_cons,
        List.foldl_nil, scanLine_eq, scanLine_eq, lineSame, lineSame', stable, undone, if_pos rfl,
        if_neg Bool.false_ne_true] at shrinks
      have longer := List.length_pos_iff.mpr nothing
      dsimp only at shrinks
      omega
    · intro lasting more
      obtain ⟨part, ending, others, extended, free', ends'⟩ := lines_extend free nothing more
      have lineLonger : lineOf 10 (rest ++ part ++ ending) = rest ++ part :=
        lineOf_word (by simp [free, free']) ends'
      have later : (scanLine (scanStreamingMarkdown whole) rest).lastStableOffset ≤
          (scanLine (scanStreamingMarkdown whole) (rest ++ part ++ ending)).lastStableOffset := by
        rw [scanLine_eq, scanLine_eq, lineSame, lineLonger]
        cases stable : ((scanStreamingMarkdown whole).next rest).2.2 with
        | false =>
          dsimp only
          rw [if_neg Bool.false_ne_true]
          split
          · exact bound.trans (Nat.le_add_right ..)
          · exact le_refl _
        | true =>
          have kept := next_append stable (fun noFence => by
            have lasting := fun provisional => lasting ⟨nothing, noFence, provisional⟩
            split at lasting <;> rename_i math
            · rw [if_pos math, ← Bool.not_eq_true]
              exact lasting
            · rw [if_neg math, ← Bool.not_eq_true, ← Bool.not_eq_true]
              exact not_or.mp lasting) part
          have longer : rest.length ≤ (rest ++ part ++ ending).length := by
            rw [List.append_assoc, List.length_append]
            exact Nat.le_add_right ..
          rw [kept, if_pos rfl, if_pos rfl]
          exact Nat.add_le_add_left longer _
      rw [here, List.append_assoc, scanned, extended, List.foldl_cons]
      refine later.trans ?_
      have before := scanLines_snoc (lines 10 whole) (rest ++ part ++ ending)
      rw [show scanStreamingMarkdown whole = scanLines (lines 10 whole) from rfl, ← before]
      exact last_le_foldl ..

end Persai.ChatStreaming
