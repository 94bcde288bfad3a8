import Mathlib.Data.Rat.Floor
import Persai.JsonValue

/-!
# The reusable compaction state

A provider is asked for a summary of a conversation in five sections. Its answer is normalised and
stored, and what is stored is normalised again when it is read. `JSON.parse` and `toLowerCase` are
parameters.
-/

namespace Persai.SharedCompaction

open CodeUnits

abbrev Json := JsonValue ℚ

def maxProviderOutputChars : ℕ := 12000
def maxSectionItems : ℕ := 6
def maxItemChars : ℕ := 240

inductive SectionKey
  | stableFacts | userPreferences | assistantCommitments | openThreads | importantReferences
  deriving DecidableEq

namespace SectionKey

def order : List SectionKey :=
  [stableFacts, userPreferences, assistantCommitments, openThreads, importantReferences]

def name : SectionKey → Text
  | stableFacts => ofString "stableFacts"
  | userPreferences => ofString "userPreferences"
  | assistantCommitments => ofString "assistantCommitments"
  | openThreads => ofString "openThreads"
  | importantReferences => ofString "importantReferences"

def label : SectionKey → Text
  | stableFacts => ofString "Stable facts"
  | userPreferences => ofString "User preferences"
  | assistantCommitments => ofString "Assistant commitments"
  | openThreads => ofString "Open threads"
  | importantReferences => ofString "Important references"

end SectionKey

abbrev Sections := SectionKey → List Text

inductive ToolCode
  | compactContext | summarizeContext
  deriving DecidableEq

def ToolCode.text : ToolCode → Text
  | compactContext => ofString "compact_context"
  | summarizeContext => ofString "summarize_context"

def reusableSharedCompactionSchema : Text := ofString "persai.runtimeSessionCompaction.v2"

structure StoredReusableCompactionState where
  toolCode : ToolCode
  summarizedMessageCount : ℕ
  preservedRecentMessageCount : ℕ
  sections : Sections

/-- The payload as it is stored. -/
def StoredReusableCompactionState.payload (state : StoredReusableCompactionState) : Json :=
  .obj [(ofString "schema", .str reusableSharedCompactionSchema),
    (ofString "toolCode", .str state.toolCode.text),
    (ofString "summarizedMessageCount", .num state.summarizedMessageCount),
    (ofString "preservedRecentMessageCount", .num state.preservedRecentMessageCount),
    (ofString "sections", .obj (SectionKey.order.map fun key =>
      (key.name, .arr ((state.sections key).map .str))))]

structure ParsedReusableCompactionState where
  payload : StoredReusableCompactionState
  summaryText : Text
  summarizedMessageCount : ℕ

inductive RejectionReason
  | emptyOutput | outputTooLong | invalidJson | invalidSections
  deriving DecidableEq

/-! ## Items -/

/-- The text from `phrase` on, when it starts there in either case. -/
def afterPhrase : (phrase text : Text) → Option Text
  | [], text => some text
  | _ :: _, [] => none
  | u :: phrase, v :: text =>
    if lowerAscii v = u then afterPhrase phrase text else none

/-- `phrase\b`, for a phrase that ends in a letter. -/
def startsWithPhrase (text phrase : Text) : Bool :=
  match afterPhrase phrase text with
  | some (v :: _) => !isWord v
  | some [] => true
  | none => false

def openings : List Text :=
  ["hi", "hello", "hey", "sure", "absolutely", "of course", "certainly", "thanks", "thank you",
    "here's", "here is", "i can", "i could", "i have", "i've", "i am", "i'm", "let me", "feel free",
    "would you like", "if you'd like", "please"].map ofString

def offers : List Text := ["how can i", "let me know", "happy to help"].map ofString

/-- `\b(…)\b` anywhere; `inWord` while the character before is one of a word. -/
def makesOffer : (inWord : Bool) → Text → Bool
  | _, [] => false
  | inWord, u :: rest =>
    (!inWord && offers.any (startsWithPhrase (u :: rest))) || makesOffer (isWord u) rest

def looksConversational (value : Text) : Bool :=
  openings.any (startsWithPhrase value) || makesOffer false value

/-- `[-*]` -/
def isBullet (u : UInt16) : Bool := u == 45 || u == 42

/-- `replace(/^[-*]\s+/, "")`. -/
def stripBullet : Text → Text
  | u :: v :: rest =>
    if isBullet u && isWhitespace v then rest.dropWhile isWhitespace else u :: v :: rest
  | text => text

def normalizedText (value : Text) : Text := CodeUnits.trim (stripBullet (collapse value))

/-- Nothing when the item makes the whole output invalid. -/
def normalizeCompactionItem (value : Text) : Option Text :=
  let normalized := normalizedText value
  if normalized = [] then some []
  else if maxItemChars < normalized.length || looksConversational normalized then none
  else some normalized

/-! ## The summary text -/

def sliceTo (text : Text) (chars : ℚ) : Text := text.take ⌊chars⌋.toNat

def truncateSummaryLine (line : Text) (maxChars : ℚ) : Text :=
  if line.length ≤ maxChars then line
  else if maxChars ≤ 3 then sliceTo line maxChars
  else trimEnd (sliceTo line (maxChars - 3)) ++ ofString "..."

def joinSummaryLinesWithinBudget (maxChars : ℚ) : (summaryText : Text) → List Text → Text
  | summaryText, [] => summaryText
  | summaryText, line :: rest =>
    let remainingChars :=
      if summaryText = [] then maxChars else maxChars - summaryText.length - 1
    if remainingChars ≤ 0 then summaryText
    else
      let nextLine := truncateSummaryLine line remainingChars
      if nextLine = [] then summaryText
      else
        let extended := if summaryText = [] then nextLine else summaryText ++ 10 :: nextLine
        if nextLine.length < line.length then extended
        else joinSummaryLinesWithinBudget maxChars extended rest

def summaryLines (sections : Sections) : List Text :=
  SectionKey.order.flatMap fun key =>
    if sections key = [] then []
    else (key.label ++ ofString ":") :: (sections key).map fun item => ofString "- " ++ item

def renderReusableCompactionSummaryText (sections : Sections) (maxChars : ℚ) : Text :=
  if summaryLines sections = [] then
    ofString "No durable facts or open threads were retained from earlier summarized context."
  else joinSummaryLinesWithinBudget (max 1 maxChars) [] (summaryLines sections)

/-! ## Sections -/

def countRecognizedSectionKeys (row : List (Text × Json)) : ℕ :=
  SectionKey.order.countP fun key => (row.lookup key.name).isSome

def resolveCompactionSectionsRow (payload : Json) : Option (List (Text × Json)) :=
  payload.asObject.map fun row =>
    match (row.lookup (ofString "sections")).bind JsonValue.asObject with
    | some nested =>
      if countRecognizedSectionKeys row < countRecognizedSectionKeys nested then nested else row
    | none => row

section

variable (toLowerCase : Text → Text)

def normalizeItems : (items seenItems : List Text) → List Json → Option (List Text)
  | items, _, [] => some items
  | items, seenItems, rawItem :: rest =>
    match rawItem with
    | .str text =>
      match normalizeCompactionItem text with
      | none => none
      | some normalizedItem =>
        if normalizedItem = [] then normalizeItems items seenItems rest
        else if toLowerCase normalizedItem ∈ seenItems then normalizeItems items seenItems rest
        else if maxSectionItems < (items ++ [normalizedItem]).length then none
        else
          normalizeItems (items ++ [normalizedItem]) (toLowerCase normalizedItem :: seenItems) rest
    | _ => none

def normalizeSection (row : List (Text × Json)) (key : SectionKey) : Option (List Text) :=
  match row.lookup key.name with
  | none => some []
  | some .null => some []
  | some (.arr rawItems) => normalizeItems toLowerCase [] [] rawItems
  | some _ => none

def normalizeReusableCompactionSections (payload : Json) (summaryCharBudget : ℚ) :
    Option Sections :=
  match resolveCompactionSectionsRow payload with
  | none => none
  | some row =>
    if countRecognizedSectionKeys row = 0 then none
    else if SectionKey.order.all fun key => (normalizeSection toLowerCase row key).isSome then
      let sections key := (normalizeSection toLowerCase row key).getD []
      if renderReusableCompactionSummaryText sections summaryCharBudget = [] then none
      else some sections
    else none

/-! ## Writing and reading -/

/-- The rest after three backticks. -/
def afterFence (text : Text) : Option Text := afterPhrase (ofString "```") text

/-- What a fence holds, with or without `json` after it; else the text itself. -/
def unwrapJsonCodeFence (value : Text) : Text :=
  match afterFence value with
  | none => value
  | some body =>
    let inner := ((afterPhrase (ofString "json") body).getD body).dropWhile isWhitespace
    match afterFence inner.reverse with
    | none => value
    | some reversed => CodeUnits.trim (trimEnd reversed.reverse)

def normalizeOptionalText (value : Text) : Option Text :=
  if CodeUnits.trim value = [] then none else some (CodeUnits.trim value)

structure ModelOutput where
  rawOutputText : Text
  toolCode : ToolCode
  summarizedMessageCount : ℕ
  preservedRecentMessageCount : ℕ
  summaryCharBudget : ℚ

variable (jsonParse : Text → Option Json)

def parseJsonObject (value : Text) : Option Json :=
  (jsonParse value).bind fun parsed => parsed.asObject.map .obj

def normalizeReusableCompactionStateFromModelOutput (input : ModelOutput) :
    Except RejectionReason ParsedReusableCompactionState :=
  match normalizeOptionalText input.rawOutputText with
  | none => .error .emptyOutput
  | some normalizedOutput =>
    if maxProviderOutputChars < normalizedOutput.length then .error .outputTooLong
    else
      match parseJsonObject jsonParse (unwrapJsonCodeFence normalizedOutput) with
      | none => .error .invalidJson
      | some parsed =>
        match normalizeReusableCompactionSections toLowerCase parsed input.summaryCharBudget with
        | none => .error .invalidSections
        | some sections =>
          .ok ⟨⟨input.toolCode, input.summarizedMessageCount, input.preservedRecentMessageCount,
              sections⟩,
            renderReusableCompactionSummaryText sections input.summaryCharBudget,
            input.summarizedMessageCount⟩

/-- A count of at least `least`. -/
def countOf (least : ℕ) : Option Json → Option ℕ
  | some (.num value) => if value.isInt && least ≤ value then some value.num.toNat else none
  | _ => none

def toolCodeOf : Option Json → Option ToolCode
  | some (.str text) =>
    if text = ToolCode.compactContext.text then some .compactContext
    else if text = ToolCode.summarizeContext.text then some .summarizeContext
    else none
  | _ => none

def isSchema : Option Json → Bool
  | some (.str text) => text == reusableSharedCompactionSchema
  | _ => false

def parseStoredReusableCompactionState (payload : Json) (summaryCharBudget : ℚ) :
    Option ParsedReusableCompactionState := do
  let row ← payload.asObject
  guard (isSchema (row.lookup (ofString "schema")))
  let toolCode ← toolCodeOf (row.lookup (ofString "toolCode"))
  let summarizedMessageCount ← countOf 1 (row.lookup (ofString "summarizedMessageCount"))
  let preservedRecentMessageCount ←
    countOf 0 (row.lookup (ofString "preservedRecentMessageCount"))
  let sections ← normalizeReusableCompactionSections toLowerCase
    ((row.lookup (ofString "sections")).getD .null) summaryCharBudget
  some ⟨⟨toolCode, summarizedMessageCount, preservedRecentMessageCount, sections⟩,
    renderReusableCompactionSummaryText sections summaryCharBudget, summarizedMessageCount⟩

end

end Persai.SharedCompaction
