import Mathlib.Tactic.SplitIfs
import Persai.Segments
import Persai.TelegramHtml.Bodies

/-!
# Messages within the limit

Blocks are put together only while they fit, so a message is too long only when a block is. Blocks
of HTML are measured before they are used. What is cut by code points is not measured again, and a
code point may be two units of the length: `SourceFits` says that every piece cut so is short
enough, and that is when every message is.
-/

namespace Persai.TelegramHtml

open CodeUnits (Text ofString isWhitespace isHighSurrogate)
open Segments (mem_splitOn)

/-! ## Lengths -/

theorem escape_append (first second : Text) :
    escapeTelegramHtmlText (first ++ second) =
      escapeTelegramHtmlText first ++ escapeTelegramHtmlText second := by
  simp only [escapeTelegramHtmlText, replaceUnit, List.flatMap_append]

theorem length_escape_le {part text : Text} (within : part <:+: text) :
    (escapeTelegramHtmlText part).length ≤ (escapeTelegramHtmlText text).length := by
  obtain ⟨before, after, rfl⟩ := within
  rw [escape_append, escape_append, List.length_append, List.length_append]
  omega

theorem length_fencedHtml_le (langNorm : Text) {part code : Text} (within : part <:+: code) :
    (fencedHtml langNorm part).length ≤ (fencedHtml langNorm code).length := by
  have escaped := length_escape_le within
  unfold fencedHtml
  split_ifs <;> simp only [List.length_append] <;> omega

theorem length_bareFence (chunk : Text) : (bareFence chunk).length = chunk.length + 11 := by
  have opening : (ofString "<pre>").length = 5 := by decide +kernel
  have closing : (ofString "</pre>").length = 6 := by decide +kernel
  rw [bareFence, List.length_append, List.length_append, opening, closing]
  omega

/-! ## Fenced code -/

section

variable (maxChars : ℕ)

/-- A line that does not fit is cut into pieces that do. -/
def CodeLineFits (langNorm line : Text) : Prop :=
  maxChars < (fencedHtml langNorm line).length →
    ∀ piece ∈ splitTelegramOutboundText (escapeTelegramHtmlText line) (fenceBudget maxChars),
      piece.length + 11 ≤ maxChars

/-- What is not put out yet fits. -/
def FenceState.Fits (langNorm : Text) (state : FenceState) : Prop :=
  state.current ≠ [] → (fencedHtml langNorm state.current).length ≤ maxChars

variable {maxChars}

theorem flush_fits {langNorm : Text} {state : FenceState} (fits : state.Fits maxChars langNorm) :
    (∀ block ∈ flush langNorm state, block.length ≤ maxChars) ↔
      ∀ block ∈ state.output, block.length ≤ maxChars := by
  unfold flush
  split_ifs with empty
  · exact Iff.rfl
  · rw [List.forall_mem_append, List.forall_mem_singleton]
    exact and_iff_left (fits empty)

theorem fenceStep_fits (langNorm : Text) (state : FenceState) (line : Text) :
    (fenceStep maxChars langNorm state line).Fits maxChars langNorm := by
  unfold fenceStep
  dsimp only
  generalize (if state.current = [] then line else state.current ++ 10 :: line) = next
  split_ifs with small large
  · exact fun _ => small
  · exact fun some => absurd rfl some
  · exact fun _ => Nat.not_lt.mp large

theorem fenceStep_output {langNorm : Text} {state : FenceState}
    (fits : state.Fits maxChars langNorm) (line : Text) :
    (∀ block ∈ (fenceStep maxChars langNorm state line).output, block.length ≤ maxChars) ↔
      (∀ block ∈ state.output, block.length ≤ maxChars) ∧
        CodeLineFits maxChars langNorm line := by
  have within : line <:+: (if state.current = [] then line else state.current ++ 10 :: line) := by
    split_ifs
    · exact List.infix_rfl
    · exact ((List.suffix_cons 10 line).trans (List.suffix_append ..)).isInfix
  have shorter := length_fencedHtml_le langNorm within
  unfold fenceStep
  dsimp only
  generalize (if state.current = [] then line else state.current ++ 10 :: line) = next at *
  split_ifs with small large
  · -- a line that is added fits by itself
    refine (and_iff_left ?_).symm
    exact fun large => absurd large (Nat.not_lt.mpr (shorter.trans small))
  · rw [List.forall_mem_append, flush_fits fits]
    refine and_congr_right' ?_
    rw [List.forall_mem_map]
    simp only [length_bareFence]
    exact ⟨fun pieces _ => pieces, fun pieces => pieces large⟩
  · rw [flush_fits fits]
    exact (and_iff_left fun large' => absurd large' large).symm

theorem fenceSteps_output {langNorm : Text} {state : FenceState}
    (fits : state.Fits maxChars langNorm) (lines : List Text) :
    (∀ block ∈ flush langNorm (lines.foldl (fenceStep maxChars langNorm) state),
        block.length ≤ maxChars) ↔
      (∀ block ∈ state.output, block.length ≤ maxChars) ∧
        ∀ line ∈ lines, CodeLineFits maxChars langNorm line := by
  induction lines generalizing state with
  | nil =>
    rw [List.foldl_nil, flush_fits fits]
    exact (and_iff_left fun line mem => absurd mem List.not_mem_nil).symm
  | cons line lines ih =>
    rw [List.foldl_cons, ih (fenceStep_fits langNorm state line), fenceStep_output fits, and_assoc,
      List.forall_mem_cons]

theorem splitFencedLines_fits (langNorm code : Text) :
    (∀ block ∈ splitFencedLines maxChars langNorm code, block.length ≤ maxChars) ↔
      ∀ line ∈ linesOf code, CodeLineFits maxChars langNorm line := by
  unfold splitFencedLines
  dsimp only
  split_ifs with single
  · rw [List.forall_mem_singleton]
    refine iff_of_true single fun line mem large => absurd large (Nat.not_lt.mpr ?_)
    exact (length_fencedHtml_le langNorm (mem_splitOn mem).2).trans single
  · have start : (⟨[], []⟩ : FenceState).Fits maxChars langNorm := fun some => absurd rfl some
    rw [fenceSteps_output start]
    exact and_iff_right fun block mem => absurd mem List.not_mem_nil

end

/-! ## Paragraphs -/

theorem trim_trim (text : Text) : CodeUnits.trim (CodeUnits.trim text) = CodeUnits.trim text :=
  strip_strip isWhitespace text

/-- The lines of a line are itself. -/
theorem trimmedLines_trimmed {markdown line : Text} (mem : line ∈ trimmedLines markdown) :
    trimmedLines line = [line] := by
  obtain ⟨mapped, shown⟩ := List.mem_filter.mp mem
  obtain ⟨raw, rawMem, rfl⟩ := List.mem_map.mp mapped
  have oneLine : (10 : UInt16) ∉ CodeUnits.trim raw := fun newline =>
    (mem_splitOn rawMem).1 ((strip_within isWhitespace raw).subset newline)
  rw [trimmedLines, linesOf, List.splitOn_eq_singleton oneLine, List.map_singleton, trim_trim]
  exact List.filter_cons_of_pos shown

section

variable (maxChars : ℕ) (isAllowedHttpUrl : Text → Bool)

/-- The lines a paragraph is cut into when it does not fit. -/
def oversizedLines (markdown : Text) : List Text :=
  if 1 < (trimmedLines markdown).length then trimmedLines markdown else [markdown]

/-- A chunk that does not fit as HTML is cut into pieces that do. -/
def ChunkFits (chunk : Text) : Prop :=
  ∀ html, convertAssistantParagraphToTelegramHtml isAllowedHttpUrl chunk = some html →
    maxChars < html.length →
      ∀ piece ∈ splitTelegramOutboundText (escapeTelegramHtmlText chunk) maxChars,
        piece.length ≤ maxChars

def ParagraphFits (paragraph : Text) : Prop :=
  ∀ html, convertAssistantParagraphToTelegramHtml isAllowedHttpUrl paragraph = some html →
    maxChars < html.length → ∀ line ∈ oversizedLines paragraph,
      ∀ chunk ∈ splitTelegramOutboundText line maxChars, ChunkFits maxChars isAllowedHttpUrl chunk

def SegmentFits : SourceSegment → Prop
  | .fence language code =>
    ∀ langNorm, normalizeTelegramLanguageId language = some langNorm →
      ∀ line ∈ linesOf code, CodeLineFits maxChars langNorm line
  | .text raw =>
      ∀ paragraph ∈ splitParagraphs raw, ParagraphFits maxChars isAllowedHttpUrl paragraph

/-- Every piece that is cut by code points is short enough. -/
def SourceFits (source : Text) : Prop :=
  ∀ segment ∈ segmentSourceByFencedBlocks source, SegmentFits maxChars isAllowedHttpUrl segment

variable {maxChars isAllowedHttpUrl}

theorem emitChunk_fits (chunk : Text) (blocks : List Text)
    (emitted : emitChunk maxChars isAllowedHttpUrl chunk = some blocks) :
    (∀ block ∈ blocks, block.length ≤ maxChars) ↔ ChunkFits maxChars isAllowedHttpUrl chunk := by
  obtain ⟨html, converted, rfl⟩ := Option.map_eq_some_iff.mp emitted
  unfold ChunkFits
  rw [converted]
  simp only [Option.some.injEq, forall_eq']
  split_ifs with fits
  · rw [List.forall_mem_singleton]
    exact iff_of_true fits fun large => absurd fits (Nat.not_le.mpr large)
  · exact ⟨fun pieces _ => pieces, fun pieces => pieces (Nat.not_le.mp fits)⟩

theorem emitLine_fits (markdown : Text) (blocks : List Text)
    (emitted : emitLine maxChars isAllowedHttpUrl markdown = some blocks) :
    (∀ block ∈ blocks, block.length ≤ maxChars) ↔
      ∀ chunk ∈ splitTelegramOutboundText markdown maxChars,
        ChunkFits maxChars isAllowedHttpUrl chunk := by
  obtain ⟨parts, mapped, rfl⟩ := Option.map_eq_some_iff.mp emitted
  exact forall_mem_flatten_mapM mapped emitChunk_fits

theorem emitOversizedParagraph_fits {markdown : Text} {blocks : List Text}
    (emitted : emitOversizedParagraph maxChars isAllowedHttpUrl markdown = some blocks) :
    (∀ block ∈ blocks, block.length ≤ maxChars) ↔ ∀ line ∈ oversizedLines markdown,
      ∀ chunk ∈ splitTelegramOutboundText line maxChars,
        ChunkFits maxChars isAllowedHttpUrl chunk := by
  unfold emitOversizedParagraph at emitted
  unfold oversizedLines
  split_ifs at emitted ⊢
  · obtain ⟨parts, mapped, rfl⟩ := Option.map_eq_some_iff.mp emitted
    exact forall_mem_flatten_mapM mapped emitLine_fits
  · rw [List.forall_mem_singleton]
    exact emitLine_fits markdown blocks emitted

theorem paragraphBlocks_fits (paragraph : Text) (blocks : List Text)
    (made : paragraphBlocks maxChars isAllowedHttpUrl paragraph = some blocks) :
    (∀ block ∈ blocks, block.length ≤ maxChars) ↔
      ParagraphFits maxChars isAllowedHttpUrl paragraph := by
  obtain ⟨html, converted, made⟩ := Option.bind_eq_some_iff.mp made
  unfold ParagraphFits
  rw [converted]
  simp only [Option.some.injEq, forall_eq']
  split_ifs at made with empty large
  · obtain rfl := Option.some.inj made
    refine iff_of_true (fun block mem => absurd mem List.not_mem_nil) fun large => ?_
    rw [empty] at large
    exact absurd large (Nat.not_lt_zero _)
  · rw [emitOversizedParagraph_fits made]
    exact ⟨fun lines _ => lines, fun lines => lines large⟩
  · obtain rfl := Option.some.inj made
    rw [List.forall_mem_singleton]
    exact iff_of_true (Nat.not_lt.mp large) fun large' => absurd large' large

theorem segmentBlocks_fits (segment : SourceSegment) (blocks : List Text)
    (made : segmentBlocks maxChars isAllowedHttpUrl segment = some blocks) :
    (∀ block ∈ blocks, block.length ≤ maxChars) ↔
      SegmentFits maxChars isAllowedHttpUrl segment := by
  cases segment with
  | fence language code =>
    obtain ⟨langNorm, normalized, rfl⟩ := Option.map_eq_some_iff.mp made
    rw [splitFencedLines_fits, SegmentFits]
    simp only [normalized, Option.some.injEq, forall_eq']
  | text raw =>
    obtain ⟨parts, mapped, rfl⟩ := Option.map_eq_some_iff.mp made
    exact forall_mem_flatten_mapM mapped paragraphBlocks_fits

theorem htmlBlocks_fits {source : Text} {blocks : List Text}
    (made : htmlBlocks maxChars isAllowedHttpUrl source = some blocks) :
    (∀ block ∈ blocks, block.length ≤ maxChars) ↔
      SourceFits maxChars isAllowedHttpUrl source := by
  obtain ⟨parts, mapped, rfl⟩ := Option.map_eq_some_iff.mp made
  exact forall_mem_flatten_mapM mapped segmentBlocks_fits

/-! ## Messages -/

/-- Not empty, and within the limit. -/
def IsMessage (maxChars : ℕ) (body : Text) : Prop := body ≠ [] ∧ body.length ≤ maxChars

theorem flushBuffer_messages {buffer : Text} (fits : buffer.length ≤ maxChars)
    (out : List Text) :
    (∀ body ∈ flushBuffer buffer out, IsMessage maxChars body) ↔
      ∀ body ∈ out, IsMessage maxChars body := by
  unfold flushBuffer
  split_ifs with empty
  · exact Iff.rfl
  · rw [List.forall_mem_append, List.forall_mem_singleton]
    exact and_iff_left ⟨empty, fits⟩

theorem addBlock_current {state : Messages} (fits : state.current.length ≤ maxChars)
    (html : Text) : (addBlock maxChars state html).current.length ≤ maxChars := by
  unfold addBlock
  dsimp only
  generalize state.current ++ (if state.current = [] then [] else [10, 10]) ++ html = next
  split_ifs with empty large small
  · exact fits
  · exact Nat.zero_le _
  · exact small
  · exact Nat.not_lt.mp large

theorem addBlock_messages {state : Messages} (fits : state.current.length ≤ maxChars)
    (html : Text) :
    (∀ body ∈ (addBlock maxChars state html).messages, IsMessage maxChars body) ↔
      (∀ body ∈ state.messages, IsMessage maxChars body) ∧ html.length ≤ maxChars := by
  unfold addBlock
  dsimp only
  generalize state.current ++ (if state.current = [] then [] else [10, 10]) ++ html = next
  split_ifs with empty large small
  · rw [empty]
    exact (and_iff_left (Nat.zero_le _)).symm
  · rw [List.forall_mem_append, flushBuffer_messages fits, List.forall_mem_singleton]
    exact and_congr_right' (and_iff_right empty)
  · exact (and_iff_left (Nat.not_lt.mp large)).symm
  · rw [flushBuffer_messages fits]
    exact (and_iff_left (Nat.not_lt.mp large)).symm

theorem addBlocks_messages {state : Messages} (fits : state.current.length ≤ maxChars)
    (blocks : List Text) :
    let last := blocks.foldl (addBlock maxChars) state
    (∀ body ∈ flushBuffer last.current last.messages, IsMessage maxChars body) ↔
      (∀ body ∈ state.messages, IsMessage maxChars body) ∧
        ∀ block ∈ blocks, block.length ≤ maxChars := by
  induction blocks generalizing state with
  | nil =>
    dsimp only [List.foldl_nil]
    rw [flushBuffer_messages fits]
    exact (and_iff_left fun block mem => absurd mem List.not_mem_nil).symm
  | cons html blocks ih =>
    have rest := ih (addBlock_current fits html)
    dsimp only [List.foldl_cons] at rest ⊢
    rw [rest, addBlock_messages fits, and_assoc, List.forall_mem_cons]

theorem mergeBlocks_messages (blocks : List Text) :
    (∀ body ∈ mergeBlocks maxChars blocks, IsMessage maxChars body) ↔
      ∀ block ∈ blocks, block.length ≤ maxChars := by
  have start : (⟨[], []⟩ : Messages).current.length ≤ maxChars := Nat.zero_le _
  exact (addBlocks_messages start blocks).trans
    (and_iff_right fun _ mem => absurd mem List.not_mem_nil)

variable (isAllowedHttpUrl) in
/-- The messages of an answer are within the limit exactly where what is cut by code points is. -/
theorem bodies_isMessage {source : Text} {bodies : List Text}
    (built : buildTelegramHtmlMessageBodies maxChars isAllowedHttpUrl source = some bodies) :
    (∀ body ∈ bodies, IsMessage maxChars body) ↔
      CodeUnits.trim source = [] ∨ SourceFits maxChars isAllowedHttpUrl source := by
  unfold buildTelegramHtmlMessageBodies at built
  split_ifs at built with empty
  · obtain rfl := Option.some.inj built
    exact iff_of_true (fun body mem => absurd mem List.not_mem_nil) (.inl empty)
  · obtain ⟨blocks, made, rfl⟩ := Option.map_eq_some_iff.mp built
    rw [mergeBlocks_messages, htmlBlocks_fits made]
    exact (or_iff_right empty).symm

end

/-! ## Characters of one unit -/

/-- Every code point is one unit. -/
def Plain (text : Text) : Prop := ∀ u ∈ text, isHighSurrogate u = false

theorem plain_iff (text : Text) : Plain text ↔ (text.all fun u => !isHighSurrogate u) = true := by
  simp [Plain]

theorem Plain.subset {text part : Text} (plain : Plain text) (within : part ⊆ text) : Plain part :=
  fun u mem => plain u (within mem)

theorem Plain.replaceUnit {text new : Text} (plain : Plain text) (plainNew : Plain new)
    (old : UInt16) : Plain (replaceUnit old new text) := by
  rintro u mem
  obtain ⟨v, vMem, mem⟩ := List.mem_flatMap.mp mem
  split_ifs at mem
  · exact plainNew u mem
  · exact List.mem_singleton.mp mem ▸ plain v vMem

theorem Plain.escape {text : Text} (plain : Plain text) : Plain (escapeTelegramHtmlText text) :=
  ((plain.replaceUnit ((plain_iff _).mpr rfl) 38).replaceUnit
    ((plain_iff _).mpr rfl) 60).replaceUnit ((plain_iff _).mpr rfl) 62

theorem flatten_codePoints (text : Text) : (codePoints text).flatten = text := by
  induction text using codePoints.induct with
  | case1 => rfl
  | case2 u => rfl
  | case3 u v rest pair ih => rw [codePoints, if_pos pair, List.flatten_cons, ih]; rfl
  | case4 u v rest pair ih => rw [codePoints, if_neg pair, List.flatten_cons, ih]; rfl

theorem Plain.codePoints {text : Text} (plain : Plain text) :
    ∀ c ∈ codePoints text, c.length = 1 := by
  induction text using codePoints.induct with
  | case1 => exact fun c mem => absurd mem List.not_mem_nil
  | case2 u => exact fun c mem => List.mem_singleton.mp mem ▸ rfl
  | case3 u v rest pair ih =>
    rw [plain u List.mem_cons_self, Bool.false_and] at pair
    cases pair
  | case4 u v rest pair ih =>
    rw [TelegramHtml.codePoints, if_neg pair, List.forall_mem_cons]
    exact ⟨rfl, ih (plain.subset (List.subset_cons_self ..))⟩

theorem flatten_subset {α : Type} {parts whole : List (List α)} (within : parts ⊆ whole) :
    parts.flatten ⊆ whole.flatten := by
  rintro a mem
  obtain ⟨part, partMem, mem⟩ := List.mem_flatten.mp mem
  exact List.mem_flatten.mpr ⟨part, within partMem, mem⟩

theorem chunksOf_subset (maxChars : ℕ) (chars : List Text) :
    ∀ chunk ∈ chunksOf maxChars chars, chunk ⊆ chars.flatten := by
  induction chars using chunksOf.induct maxChars with
  | case1 chars done =>
    rw [chunksOf, if_pos done]
    exact fun chunk mem => absurd mem List.not_mem_nil
  | case2 chars more ih =>
    rw [chunksOf, if_neg more, List.forall_mem_cons]
    constructor
    · exact flatten_subset (List.take_subset ..)
    · exact fun chunk mem => List.Subset.trans (ih chunk mem) (flatten_subset (List.drop_subset ..))

theorem chunksOf_length {maxChars : ℕ} {chars : List Text} (units : ∀ c ∈ chars, c.length = 1) :
    ∀ chunk ∈ chunksOf maxChars chars, chunk.length ≤ maxChars := by
  induction chars using chunksOf.induct maxChars with
  | case1 chars done =>
    rw [chunksOf, if_pos done]
    exact fun chunk mem => absurd mem List.not_mem_nil
  | case2 chars more ih =>
    rw [chunksOf, if_neg more, List.forall_mem_cons]
    constructor
    · have lengths : (chars.take maxChars).map List.length =
          List.replicate (chars.take maxChars).length 1 := by
        refine List.eq_replicate_iff.mpr ⟨List.length_map .., fun n mem => ?_⟩
        obtain ⟨c, cMem, rfl⟩ := List.mem_map.mp mem
        exact units c (List.mem_of_mem_take cMem)
      rw [List.length_flatten, lengths, List.sum_replicate_nat, Nat.mul_one]
      exact List.length_take_le ..
    · exact ih fun c mem => units c (List.mem_of_mem_drop mem)

theorem Plain.pieces {text : Text} (plain : Plain text) (maxChars : ℕ) :
    ∀ piece ∈ splitTelegramOutboundText text maxChars, Plain piece ∧ piece.length ≤ maxChars := by
  rintro piece mem
  refine ⟨plain.subset ?_, chunksOf_length plain.codePoints piece mem⟩
  exact flatten_codePoints text ▸ chunksOf_subset maxChars _ piece mem

theorem Plain.trim {text : Text} (plain : Plain text) : Plain (CodeUnits.trim text) :=
  plain.subset (strip_within isWhitespace text).subset

theorem Plain.splitBlankLines {current rest : Text} (plain : Plain current) (plainRest : Plain rest)
    (newlines : ℕ) : ∀ part ∈ splitBlankLines current newlines rest, Plain part := by
  have ended {current : Text} (plain : Plain current) (newlines : ℕ) :
      Plain (current ++ List.replicate newlines 10) := by
    refine List.forall_mem_append.mpr ⟨plain, fun u mem => ?_⟩
    rw [List.eq_of_mem_replicate mem]
    decide
  induction rest generalizing current newlines with
  | nil =>
    rw [TelegramHtml.splitBlankLines]
    split_ifs
    · exact List.forall_mem_singleton.mpr (ended plain newlines)
    · exact List.forall_mem_cons.mpr ⟨plain, List.forall_mem_singleton.mpr fun u mem =>
        absurd mem List.not_mem_nil⟩
  | cons u rest ih =>
    obtain ⟨plainFirst, plainRest⟩ := List.forall_mem_cons.mp plainRest
    have first : Plain [u] := List.forall_mem_singleton.mpr plainFirst
    rw [TelegramHtml.splitBlankLines]
    split_ifs
    · exact ih plain plainRest (newlines + 1)
    · exact ih (List.forall_mem_append.mpr ⟨ended plain newlines, first⟩) plainRest 0
    · exact List.forall_mem_cons.mpr ⟨plain, ih first plainRest 0⟩

/-- What is converted of a segment. -/
def SourceSegment.content : SourceSegment → Text
  | .text raw => raw
  | .fence _ code => code

theorem segmentSource_subset (source : Text) :
    ∀ segment ∈ segmentSourceByFencedBlocks source, segment.content ⊆ source := by
  rw [segmentSourceByFencedBlocks]
  split_ifs with empty
  · exact fun segment mem => absurd mem List.not_mem_nil
  have before (opening : ℕ) : ∀ segment ∈
      (if 0 < opening then [SourceSegment.text (source.take opening)] else []),
        segment.content ⊆ source := by
    split_ifs
    · exact List.forall_mem_singleton.mpr (List.take_subset ..)
    · exact fun segment mem => absurd mem List.not_mem_nil
  have rest (n : ℕ) : ∀ segment ∈ [SourceSegment.text (source.drop n)],
      segment.content ⊆ source := List.forall_mem_singleton.mpr (List.drop_subset ..)
  split
  · exact List.forall_mem_singleton.mpr (List.Subset.refl _)
  next opening _ =>
    dsimp only
    split
    · exact List.forall_mem_append.mpr ⟨before opening, rest opening⟩
    next nextNewline _ =>
      split
      · exact List.forall_mem_append.mpr ⟨before opening, rest opening⟩
      next close _ =>
        have shorter : (((source.drop (opening + 3)).drop (nextNewline + 1)).drop
            (close + 3)).length < source.length := by
          have some := List.length_pos_iff.mpr empty
          simp only [List.length_drop]
          omega
        refine List.forall_mem_append.mpr ⟨before opening, List.forall_mem_cons.mpr ⟨?_, ?_⟩⟩
        · split_ifs
          · exact List.Subset.trans (List.take_subset ..)
              (List.Subset.trans (List.drop_subset ..) (List.drop_subset ..))
          · exact List.Subset.trans (List.take_subset ..) (List.drop_subset ..)
        · exact fun segment mem => List.Subset.trans (segmentSource_subset _ segment mem)
            (List.Subset.trans (List.drop_subset ..)
              (List.Subset.trans (List.drop_subset ..) (List.drop_subset ..)))
termination_by source.length

variable (isAllowedHttpUrl : Text → Bool)

theorem Plain.paragraphFits {maxChars : ℕ} {paragraph : Text} (plain : Plain paragraph) :
    ParagraphFits maxChars isAllowedHttpUrl paragraph := by
  have plainLines : ∀ line ∈ oversizedLines paragraph, Plain line := by
    unfold oversizedLines
    split_ifs
    · rintro line mem
      obtain ⟨raw, rawMem, rfl⟩ := List.mem_map.mp (List.mem_of_mem_filter mem)
      exact (plain.subset (Segments.mem_splitOn rawMem).2.subset).trim
    · exact List.forall_mem_singleton.mpr plain
  rintro html - - line lineMem chunk chunkMem html' - - piece mem
  have plainChunk := ((plainLines line lineMem).pieces maxChars chunk chunkMem).1
  exact (plainChunk.escape.pieces maxChars piece mem).2

/-- An answer without characters of two units always fits. -/
theorem Plain.sourceFits {maxChars : ℕ} (limit : 128 ≤ maxChars) {source : Text}
    (plain : Plain source) : SourceFits maxChars isAllowedHttpUrl source := by
  rintro segment mem
  have plainContent := plain.subset (segmentSource_subset source segment mem)
  cases segment with
  | fence language code =>
    rintro langNorm - line lineMem - piece pieceMem
    have plainLine := plainContent.subset (Segments.mem_splitOn lineMem).2.subset
    have length := (plainLine.escape.pieces (fenceBudget maxChars) piece pieceMem).2
    rw [fenceBudget] at length
    omega
  | text raw =>
    rintro paragraph paragraphMem
    obtain ⟨part, partMem, rfl⟩ := List.mem_map.mp (List.mem_of_mem_filter paragraphMem)
    have plainPart := Plain.splitBlankLines (fun u mem => absurd mem List.not_mem_nil)
      plainContent 0 part partMem
    exact plainPart.trim.paragraphFits isAllowedHttpUrl

/-! ## Characters of two units -/

namespace Sample

/-- Longer than a message, and each of its characters is escaped. -/
def ampersands : Text := List.replicate 150 38

theorem ampersands_areMessages :
    ∃ bodies, buildTelegramHtmlMessageBodies 128 (fun _ => true) ampersands = some bodies ∧
      bodies.length = 6 ∧ ∀ body ∈ bodies, IsMessage 128 body := by
  have count : (buildTelegramHtmlMessageBodies 128 (fun _ => true) ampersands).map List.length =
      some 6 := by decide +kernel
  obtain ⟨bodies, built, length⟩ := Option.map_eq_some_iff.mp count
  have plain : Plain ampersands := (plain_iff _).mpr (by decide +kernel)
  exact ⟨bodies, built, length, (bodies_isMessage (fun _ => true) built).mpr
    (.inr (Plain.sourceFits _ (Nat.le_refl _) plain))⟩

def smiles : Text := (List.replicate 128 [0xD83D, 0xDE00]).flatten

/-- As many code points as may be units. -/
theorem smiles_too_long :
    (buildTelegramHtmlMessageBodies 128 (fun _ => true) smiles).map (·.map List.length) =
      some [256] := by
  decide +kernel

end Sample

end Persai.TelegramHtml
