import Persai.TelegramHtml.Markdown

/-!
# The messages an answer is sent in

An answer is cut into fenced code and paragraphs, each converted to HTML, and blocks are put
together as long as they fit into one message. A block that does not fit alone is cut further:
code by its lines, a paragraph by its lines too, and a line that does not fit after that by its
code points.
-/

namespace Persai.TelegramHtml

open CodeUnits (Text ofString isWhitespace isHighSurrogate isLowSurrogate trimEnd)

/-! ## Code points -/

/-- `Array.from` -/
def codePoints : Text → List Text
  | [] => []
  | [u] => [[u]]
  | u :: v :: rest =>
    if isHighSurrogate u && isLowSurrogate v then [u, v] :: codePoints rest
    else [u] :: codePoints (v :: rest)

/-- It throws where `maxChars` is nought. -/
def chunksOf (maxChars : ℕ) (chars : List Text) : List Text :=
  if maxChars = 0 ∨ chars = [] then []
  else (chars.take maxChars).flatten :: chunksOf maxChars (chars.drop maxChars)
termination_by chars.length
decreasing_by
  rename_i shown
  rw [not_or] at shown
  have some := List.length_pos_iff.mpr shown.2
  rw [List.length_drop]
  omega

def splitTelegramOutboundText (text : Text) (maxChars : ℕ) : List Text :=
  chunksOf maxChars (codePoints text)

/-! ## Fenced code and text -/

inductive SourceSegment
  | text (raw : Text)
  | fence (language code : Text)

def segmentSourceByFencedBlocks (source : Text) : List SourceSegment :=
  if source = [] then []
  else
    match indexOf fence source with
    | none => [.text source]
    | some opening =>
      let before := if 0 < opening then [SourceSegment.text (source.take opening)] else []
      let afterTicks := source.drop (opening + 3)
      match indexOf [10] afterTicks with
      | none => before ++ [.text (source.drop opening)]
      | some nextNewline =>
        let infoLine := trimEnd (afterTicks.take nextNewline)
        let body := afterTicks.drop (nextNewline + 1)
        match indexOf fence body with
        | none => before ++ [.text (source.drop opening)]
        | some close =>
          let segment :=
            if infoLine = [] ∨ isFenceInfoLine infoLine then
              SourceSegment.fence infoLine (body.take close)
            else .fence [] (afterTicks.take (nextNewline + 1 + close))
          before ++ segment :: segmentSourceByFencedBlocks (body.drop (close + 3))
termination_by source.length
decreasing_by
  have some := List.length_pos_iff.mpr ‹source ≠ []›
  simp only [List.length_drop]
  omega

/-- The lines of a text that `\n` ends. -/
def linesOf (text : Text) : List Text := text.splitOn 10

/-- `split(/\n{2,}/)`: what was read since the last cut, and how many newlines stand behind it. -/
def splitBlankLines (current : Text) (newlines : ℕ) : Text → List Text
  | [] =>
    if newlines < 2 then [current ++ List.replicate newlines 10] else [current, []]
  | u :: rest =>
    if u = 10 then splitBlankLines current (newlines + 1) rest
    else if newlines < 2 then
      splitBlankLines (current ++ List.replicate newlines 10 ++ [u]) 0 rest
    else current :: splitBlankLines [u] 0 rest

def splitParagraphs (source : Text) : List Text :=
  ((splitBlankLines [] 0 source).map CodeUnits.trim).filter (· ≠ [])

/-! ## What does not fit -/

/-- What is put out, and the lines that are not yet. -/
structure FenceState where
  output : List Text
  current : Text

section

variable (maxChars : ℕ)

/-- The code points of a line of code that go into one message. -/
def fenceBudget : ℕ := max 64 (maxChars - 48)

def bareFence (chunk : Text) : Text := ofString "<pre>" ++ chunk ++ ofString "</pre>"

def flush (langNorm : Text) (state : FenceState) : List Text :=
  if state.current = [] then state.output
  else state.output ++ [fencedHtml langNorm state.current]

def fenceStep (langNorm : Text) (state : FenceState) (line : Text) : FenceState :=
  let next := if state.current = [] then line else state.current ++ 10 :: line
  if (fencedHtml langNorm next).length ≤ maxChars then { state with current := next }
  else
    let output := flush langNorm state
    if maxChars < (fencedHtml langNorm line).length then
      { output := output ++ (splitTelegramOutboundText (escapeTelegramHtmlText line)
          (fenceBudget maxChars)).map bareFence
        current := [] }
    else { output, current := line }

def splitFencedLines (langNorm code : Text) : List Text :=
  let single := fencedHtml langNorm code
  if single.length ≤ maxChars then [single]
  else flush langNorm ((linesOf code).foldl (fenceStep maxChars langNorm) ⟨[], []⟩)

def splitFencedHtmlToFit (language code : Text) : Option (List Text) :=
  (normalizeTelegramLanguageId language).map fun langNorm =>
    splitFencedLines maxChars langNorm code

variable (isAllowedHttpUrl : Text → Bool)

/-- A chunk of a line, as HTML when that fits. -/
def emitChunk (chunk : Text) : Option (List Text) :=
  (convertAssistantParagraphToTelegramHtml isAllowedHttpUrl chunk).map fun html =>
    if html.length ≤ maxChars then [html]
    else splitTelegramOutboundText (escapeTelegramHtmlText chunk) maxChars

def emitLine (markdown : Text) : Option (List Text) :=
  ((splitTelegramOutboundText markdown maxChars).mapM
    (emitChunk maxChars isAllowedHttpUrl)).map List.flatten

/-- `split(/\n/)`, trimmed, without what is empty then. -/
def trimmedLines (markdown : Text) : List Text :=
  ((linesOf markdown).map CodeUnits.trim).filter (· ≠ [])

/-- The recursion of the source goes one level deep: a trimmed line is its only line
(`trimmedLines_trimmed`). -/
def emitOversizedParagraph (markdown : Text) : Option (List Text) :=
  if 1 < (trimmedLines markdown).length then
    ((trimmedLines markdown).mapM (emitLine maxChars isAllowedHttpUrl)).map List.flatten
  else emitLine maxChars isAllowedHttpUrl markdown

/-! ## The messages -/

def paragraphBlocks (paragraph : Text) : Option (List Text) :=
  (convertAssistantParagraphToTelegramHtml isAllowedHttpUrl paragraph).bind fun html =>
    if html = [] then some []
    else if maxChars < html.length then
      emitOversizedParagraph maxChars isAllowedHttpUrl paragraph
    else some [html]

def segmentBlocks : SourceSegment → Option (List Text)
  | .fence language code => splitFencedHtmlToFit maxChars language code
  | .text raw =>
    ((splitParagraphs raw).mapM (paragraphBlocks maxChars isAllowedHttpUrl)).map List.flatten

def htmlBlocks (source : Text) : Option (List Text) :=
  ((segmentSourceByFencedBlocks source).mapM
    (segmentBlocks maxChars isAllowedHttpUrl)).map List.flatten

def flushBuffer (buffer : Text) (out : List Text) : List Text :=
  if buffer = [] then out else out ++ [buffer]

/-- The messages that are full, and the one that is not yet. -/
structure Messages where
  messages : List Text
  current : Text

def addBlock (state : Messages) (html : Text) : Messages :=
  if html = [] then state
  else if maxChars < html.length then
    ⟨flushBuffer state.current state.messages ++ [html], []⟩
  else
    let separator := if state.current = [] then [] else [10, 10]
    let next := state.current ++ separator ++ html
    if next.length ≤ maxChars then { state with current := next }
    else ⟨flushBuffer state.current state.messages, html⟩

def mergeBlocks (blocks : List Text) : List Text :=
  let last := blocks.foldl (addBlock maxChars) ⟨[], []⟩
  flushBuffer last.current last.messages

/-- Nothing where it throws. -/
def buildTelegramHtmlMessageBodies (source : Text) : Option (List Text) :=
  if CodeUnits.trim source = [] then some []
  else (htmlBlocks maxChars isAllowedHttpUrl source).map (mergeBlocks maxChars)

end

end Persai.TelegramHtml
