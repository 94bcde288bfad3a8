import Persai.JsonText
import Persai.KeyedTable
import Persai.WorkspacePaths.Classification

/-!
# Spilled tool exchanges

The arguments of a tool call and its result go to the provider with every later request. What is
longer than `TOOL_WIRE_SOFT_MAX_CHARS` is spilled to a file: arguments are replaced by a stub at
once, a result stays in full and is replaced by a receipt when the exchange is demoted.

* `stubOversizedToolArguments`, `buildToolSpillReceipt`: what stands in for arguments and results;
* `sealToolExchangeSpill`, `demoteOlderToolExchangesToReceipts`,
  `demoteAllToolExchangesToReceipts`.
-/

namespace Persai.ToolSpill

open CodeUnits (Text ofString)
open JsonValue (field asString asNumber asArray)
open JsonText WorkspacePaths

variable {ν : Type}

abbrev Fields (ν : Type) := List (Text × JsonValue ν)

/-- What the language brings: numbers, which are finite, Unicode's NFKD and SHA-256. -/
structure Js (ν : Type) where
  numberText : ν → Text
  numberOf : Text → Option ν
  ofNat : ℕ → ν
  nfkd : Text → Text
  sha256 : Text → Text
  numbers : Numbers numberText numberOf

def toolWireSoftMaxChars : ℕ := 8000

def toolReceiptSummaryMaxChars : ℕ := 2000

/-- `FIELD_AWARE_ARG_KEYS`. -/
def fieldAwareArgKeys : List Text :=
  ["content", "text", "prompt", "stdout", "stderr", "outline", "instructions", "input"].map ofString

inductive SpillKind where
  | args | result | both
  deriving DecidableEq, Repr

def SpillKind.text : SpillKind → Text
  | .args => ofString "args"
  | .result => ofString "result"
  | .both => ofString "both"

structure Receipt where
  status : Text
  tool : Text
  chars : ℕ
  bytes : ℕ
  path : Text
  summary : Text
  spillKind : SpillKind
  action : Option Text
  sha256 : Option Text
  deriving DecidableEq, Repr

structure Seal where
  toolCallId : Text
  tool : Text
  isError : Bool
  action : Option Text
  spillKind : SpillKind
  argsPath : Option Text
  resultPath : Option Text
  resultChars : Option ℕ
  resultBytes : Option ℕ
  resultSha256 : Option Text
  deriving DecidableEq, Repr

structure ToolCall (ν : Type) where
  id : Text
  name : Text
  /-- `none` where there are none. -/
  arguments : Option (Fields ν)

structure ToolResult where
  toolCallId : Text
  name : Text
  content : Text
  isError : Option Bool
  deriving DecidableEq, Repr

structure Exchange (ν : Type) where
  toolCall : ToolCall ν
  toolResult : ToolResult

structure SealContext where
  assistantStableKey : String
  sessionId : String
  requestId : Text

def exceedsToolWireSoftMax (serialized : Text) : Bool := toolWireSoftMaxChars < serialized.length

/-! ## Paths -/

/-- `replace(/…+/g, "-")`; `inRun` while the units before are in the run. -/
def hyphenateFrom (inRun : UInt16 → Bool) : Bool → Text → Text
  | _, [] => []
  | running, u :: rest =>
    if inRun u then
      if running then hyphenateFrom inRun true rest else 45 :: hyphenateFrom inRun true rest
    else u :: hyphenateFrom inRun false rest

/-- `[A-Za-z0-9._-]` -/
def isSegmentUnit (u : UInt16) : Bool := CodeUnits.isWord u || u == 46 || u == 45

def sanitizeWorkspacePathSegment (js : Js ν) (segment : Text) : Text :=
  let bare := (js.nfkd segment).filter fun u => !(0x300 ≤ u && u ≤ 0x36F)
  let hyphenated := hyphenateFrom (fun u => !isSegmentUnit u) false bare
  let normalized := (hyphenateFrom (· == 45) false (strip (· == 45) hyphenated)).take 128
  if normalized = [] then ofString "item" else normalized

/-- Nothing where the path builders throw; `ext` has no unit that the original would take off. -/
def buildToolSpillPath (js : Js ν) (ctx : SealContext) (toolCallId : Text)
    (direction ext : String) : Option Text :=
  (buildAssistantSessionRoot ctx.assistantStableKey ctx.sessionId).map fun sessionRoot =>
    ofString sessionRoot ++ ofString "/.tool-spill/" ++
      sanitizeWorkspacePathSegment js ctx.requestId ++ ofString "/" ++
      sanitizeWorkspacePathSegment js toolCallId ++ ofString "." ++ ofString direction ++
      ofString "." ++ ofString ext

/-! ## Receipts -/

def natText (js : Js ν) (n : ℕ) : Text := js.numberText (js.ofNat n)

def summarizeSpillBody (js : Js ν) (body : Text) : Text :=
  let normalized := CodeUnits.trim (CodeUnits.collapse body)
  if normalized.length ≤ toolReceiptSummaryMaxChars then
    if normalized = [] then ofString "[empty]" else normalized
  else
    let headBudget := toolReceiptSummaryMaxChars - 48
    normalized.take headBudget ++ ofString "…[summary truncated " ++
      natText js (normalized.length - headBudget) ++ ofString " chars]"

/-- The receipt as it is written: optional fields come last. -/
def Receipt.json (js : Js ν) (receipt : Receipt) : JsonValue ν :=
  .obj ([
    (ofString "status", .str receipt.status),
    (ofString "tool", .str receipt.tool),
    (ofString "chars", .num (js.ofNat receipt.chars)),
    (ofString "bytes", .num (js.ofNat receipt.bytes)),
    (ofString "path", .str receipt.path),
    (ofString "summary", .str receipt.summary),
    (ofString "truncated", .bool true),
    (ofString "spillKind", .str receipt.spillKind.text)] ++
    (receipt.action.map fun action => (ofString "action", .str action)).toList ++
    (receipt.sha256.map fun sha256 => (ofString "sha256", .str sha256)).toList)

def nonEmpty (text : Option Text) : Option Text := text.filter (· ≠ [])

def buildToolSpillReceipt (js : Js ν) (isError : Bool) (tool : Text) (action : Option Text)
    (chars bytes : ℕ) (path summarySource : Text) (sha256 : Option Text) (spillKind : SpillKind) :
    Receipt where
  status := if isError then ofString "error" else ofString "ok"
  tool := tool
  chars := chars
  bytes := bytes
  path := path
  summary := summarizeSpillBody js summarySource
  spillKind := spillKind
  action := nonEmpty action
  sha256 := nonEmpty sha256

def isTrue : Option (JsonValue ν) → Bool
  | some (.bool true) => true
  | _ => false

/-- `asNonEmptyString` of a field. -/
def stringField (name : String) (fields : Fields ν) : Option Text :=
  nonEmpty ((field name fields).bind asString)

/-- `asFiniteNumber` of a field. -/
def numberField (name : String) (fields : Fields ν) : Option ν := (field name fields).bind asNumber

def recordField (name : String) (fields : Fields ν) : Option (Fields ν) :=
  (field name fields).bind JsonValue.asObject

def isToolSpillReceiptContent (js : Js ν) (content : Text) : Bool :=
  let trimmed := CodeUnits.trim content
  if trimmed.head? ≠ some 123 then false
  else
    match (parse js.numberOf trimmed).bind JsonValue.asObject with
    | some parsed =>
      isTrue (field "truncated" parsed) && (stringField "path" parsed).isSome &&
        ((field "spillKind" parsed).bind asString).any fun kind =>
          [SpillKind.args, .result, .both].any fun known => kind == known.text
    | none => false

def extractOptionalAction (fields : Fields ν) : Option Text := stringField "action" fields

def detectSpillExtension (js : Js ν) (body : Text) : String :=
  let trimmed := CodeUnits.trim body
  let enclosed := trimmed.head? = some 123 ∧ trimmed.getLast? = some 125 ∨
    trimmed.head? = some 91 ∧ trimmed.getLast? = some 93
  if enclosed ∧ (parse js.numberOf trimmed).isSome then "json" else "txt"

/-! ## Summaries -/

def firstLineOf (text : Text) : Text :=
  let lines := (CodeUnits.unifyLineEnds text).splitOn 10
  match lines.find? fun entry => CodeUnits.trim entry ≠ [] with
  | some line => CodeUnits.trim line
  | none => []

def joinSummaryParts (parts : List (Option Text)) : Option Text :=
  let filtered := (parts.map fun part => CodeUnits.trim (part.getD [])).filter (· ≠ [])
  if filtered = [] then none else some ((ofString "; ").intercalate filtered)

def labelled (label : String) (value : Option Text) : Option Text := value.map (ofString label ++ ·)

/-- The lower case, as far as it can give one of the tools' codes. -/
def toLowerCase (text : Text) : Text :=
  text.map fun u => if u = 0x212A then 107 else CodeUnits.lowerAscii u

def utf8Width (u : UInt16) : ℕ := if u < 0x80 then 1 else if u < 0x800 then 2 else 3

/-- `Buffer.byteLength(text, "utf8")`. -/
def byteLength : Text → ℕ
  | [] => 0
  | [u] => utf8Width u
  | u :: v :: rest =>
    if CodeUnits.isHighSurrogate u && CodeUnits.isLowSurrogate v then 4 + byteLength rest
    else utf8Width u + byteLength (v :: rest)

section
variable (js : Js ν) (parsed : Fields ν)

def shellHint : Option Text :=
  let job := (recordField "job" parsed).getD parsed
  let exitCode := numberField "exitCode" job <|> numberField "exitCode" parsed
  let stdout := stringField "stdout" job <|> stringField "stdout" parsed
  let stderr := stringField "stderr" job <|> stringField "stderr" parsed
  let firstLine := firstLineOf ((stdout <|> stderr).getD [])
  joinSummaryParts [
    labelled "exitCode=" (exitCode.map js.numberText),
    labelled "stdoutBytes=" (some (natText js (byteLength (stdout.getD [])))),
    labelled "stderrBytes=" (some (natText js (byteLength (stderr.getD [])))),
    labelled "firstLine=" (nonEmpty (some firstLine))]

def browserHint : Option Text :=
  let page := recordField "page" parsed
  let finalUrl := stringField "finalUrl" parsed <|> page.bind (stringField "finalUrl")
  let title := stringField "title" parsed <|> page.bind (stringField "title")
  let elements := field "elements" (page.getD parsed)
  let elementCount :=
    match elements.bind asArray with
    | some items => some (js.ofNat items.length)
    | none => numberField "elementCount" parsed <|> page.bind (numberField "elementCount")
  joinSummaryParts [
    labelled "finalUrl=" finalUrl,
    labelled "title=" title,
    labelled "elementCount=" (elementCount.map js.numberText)]

def charsOf (content : Option Text) : Option ν :=
  numberField "charCount" parsed <|> numberField "chars" parsed <|>
    content.map fun content => js.ofNat content.length

def filesHint : Option Text :=
  let path := stringField "path" parsed <|> (recordField "item" parsed).bind (stringField "path")
  joinSummaryParts [
    labelled "path=" path,
    labelled "chars=" ((charsOf js parsed (stringField "content" parsed)).map js.numberText),
    labelled "action=" (stringField "action" parsed)]

def fetchHint : Option Text :=
  let content := stringField "content" parsed <|> stringField "text" parsed <|>
    stringField "document" parsed
  joinSummaryParts [
    labelled "url=" (stringField "url" parsed),
    labelled "referenceId=" (stringField "referenceId" parsed),
    labelled "chars=" ((charsOf js parsed content).map js.numberText)]

/-- The hints of `grep` and `glob`: how many there are, and whether some were left out. -/
def countHint (label countKey itemsKey : String) : Option Text :=
  let count := numberField countKey parsed <|>
    ((field itemsKey parsed).bind asArray).map fun items => js.ofNat items.length
  joinSummaryParts [
    labelled label (count.map js.numberText),
    some (ofString (if isTrue (field "truncated" parsed) then "truncated=true"
      else "truncated=false"))]

def grepHint : Option Text := countHint js parsed "matchCount=" "matchCount" "matches"

def globHint : Option Text := countHint js parsed "pathCount=" "pathCount" "paths"

def scriptHint : Option Text :=
  joinSummaryParts [
    labelled "scriptKey=" (stringField "scriptKey" parsed),
    labelled "status=" (stringField "status" parsed <|> stringField "action" parsed)]

def toolHint (toolCode : Text) : Option Text :=
  if toolCode = ofString "shell" ∨ toolCode = ofString "exec" then shellHint js parsed
  else if toolCode = ofString "browser" then browserHint js parsed
  else if toolCode = ofString "files" then filesHint js parsed
  else if toolCode = ofString "web_fetch" ∨ toolCode = ofString "knowledge_fetch" then
    fetchHint js parsed
  else if toolCode = ofString "grep" then grepHint js parsed
  else if toolCode = ofString "glob" then globHint js parsed
  else if toolCode = ofString "script" ∨ toolCode.take 7 = ofString "script." then
    scriptHint parsed
  else none

end

def buildToolAwareSummarySource (js : Js ν) (tool resultContent : Text) (isError : Bool) : Text :=
  let toolCode := toLowerCase (CodeUnits.trim tool)
  let errorPrefix := if isError then ofString "error from " ++ tool ++ ofString ": " else []
  match (parse js.numberOf resultContent).bind JsonValue.asObject with
  | none => errorPrefix ++ resultContent
  | some parsed => errorPrefix ++ (toolHint js parsed toolCode).getD resultContent

/-! ## Arguments -/

def argsText (js : Js ν) (arguments : Fields ν) : Text := stringify js.numberText (.obj arguments)

def spilledFieldStub (js : Js ν) (spillPath : Text) (chars : ℕ) : JsonValue ν :=
  .obj [(ofString "__spilled_field", .bool true), (ofString "path", .str spillPath),
    (ofString "chars", .num (js.ofNat chars))]

def wholeArgsSpillStub (js : Js ν) (arguments : Fields ν) (spillPath : Text) (chars : ℕ) :
    Fields ν :=
  [(ofString "__spilled_args", .bool true), (ofString "path", .str spillPath),
    (ofString "chars", .num (js.ofNat chars))] ++
    (((field "action" arguments).bind asString).map fun action =>
      (ofString "action", .str action)).toList

/-- The length of a field that is spilled: of a string, or of the object `input`. -/
def oversizedField (js : Js ν) (key : Text) : JsonValue ν → Option ℕ
  | .str text => if toolWireSoftMaxChars < text.length then some text.length else none
  | .obj fields =>
    if key = ofString "input" ∧ exceedsToolWireSoftMax (argsText js fields) then
      some (argsText js fields).length
    else none
  | _ => none

/-- The arguments with their oversized fields replaced, and whether there was one. -/
def stubFields (js : Js ν) (spillPath : Text) (arguments : Fields ν) : Fields ν × Bool :=
  fieldAwareArgKeys.foldl (fun (args, replacedField) key =>
    match (args.lookup key).bind (oversizedField js key) with
    | some chars => (assign args (key, spilledFieldStub js spillPath chars), true)
    | none => (args, replacedField)) (arguments, false)

/-- A list of items that is oversized on its own. -/
def seriesOversized (js : Js ν) (arguments : Fields ν) : Bool :=
  ((field "seriesItems" arguments).bind asArray).any fun items =>
    exceedsToolWireSoftMax (stringify js.numberText (.arr items))

def stubOversizedToolArguments (js : Js ν) (arguments : Fields ν) (spillPath : Text)
    (chars : ℕ) : Fields ν :=
  if seriesOversized js arguments then wholeArgsSpillStub js arguments spillPath chars
  else
    let (args, replacedField) := stubFields js spillPath arguments
    if replacedField && !exceedsToolWireSoftMax (argsText js args) then args
    else wholeArgsSpillStub js arguments spillPath chars

/-! ## Sealing and demoting -/

def resolveToolCallId (exchange : Exchange ν) : Text :=
  if exchange.toolCall.id = [] then exchange.toolResult.toolCallId else exchange.toolCall.id

def resolveToolName (exchange : Exchange ν) : Text :=
  if exchange.toolCall.name = [] then exchange.toolResult.name else exchange.toolCall.name

def Exchange.isError (exchange : Exchange ν) : Bool := exchange.toolResult.isError = some true

def Exchange.arguments (exchange : Exchange ν) : Fields ν := exchange.toolCall.arguments.getD []

/-- The action of a result that can be parsed, or else of the arguments. -/
def resultAction (js : Js ν) (arguments : Fields ν) (content : Text) : Option Text :=
  match parse js.numberOf content with
  | some value => value.asObject.bind extractOptionalAction
  | none => extractOptionalAction arguments

/-- The exchange after it is sealed, and its seal where something was spilled; nothing where the
path builders throw. `written` is what `writeSpill` gives for the result: the digest and the
bytes, or nothing where it throws. -/
def sealToolExchangeSpill (js : Js ν) (ctx : SealContext) (written : Option (Text × ℕ))
    (exchange : Exchange ν) : Option (Exchange ν × Option Seal) :=
  let toolCallId := resolveToolCallId exchange
  let originalArgs := exchange.arguments
  let serializedArgs := argsText js originalArgs
  let resultContent := exchange.toolResult.content
  let argsOver := exceedsToolWireSoftMax serializedArgs
  let resultOver := exceedsToolWireSoftMax resultContent
  if !argsOver && !resultOver then some (exchange, none)
  else do
    let inPath ← buildToolSpillPath js ctx toolCallId "in" "json"
    let outPath ← buildToolSpillPath js ctx toolCallId "out" (detectSpillExtension js resultContent)
    let nextArgs :=
      if argsOver then stubOversizedToolArguments js originalArgs inPath serializedArgs.length
      else originalArgs
    let sealed : Seal := {
      toolCallId
      tool := resolveToolName exchange
      isError := exchange.isError
      action :=
        if resultOver then resultAction js originalArgs resultContent
        else extractOptionalAction originalArgs
      spillKind := if argsOver && resultOver then .both else if argsOver then .args else .result
      argsPath := if argsOver then some inPath else none
      resultPath := if resultOver then some outPath else none
      resultChars := if resultOver then some resultContent.length else none
      resultBytes :=
        if resultOver then some ((written.map Prod.snd).getD (byteLength resultContent)) else none
      resultSha256 :=
        if resultOver then some ((written.map Prod.fst).getD (js.sha256 resultContent)) else none }
    some ({
      toolCall := { exchange.toolCall with arguments := some nextArgs }
      toolResult := { exchange.toolResult with isError := some exchange.isError } }, some sealed)

def buildResultReceiptFromSeal (js : Js ν) (exchange : Exchange ν) (sealed : Seal) : Option Text :=
  match nonEmpty sealed.resultPath with
  | none => none
  | some path =>
    let content := exchange.toolResult.content
    if isToolSpillReceiptContent js content then none
    else
      some (stringify js.numberText ((buildToolSpillReceipt js sealed.isError sealed.tool
        sealed.action (sealed.resultChars.getD content.length)
        (sealed.resultBytes.getD (byteLength content)) path
        (buildToolAwareSummarySource js sealed.tool content sealed.isError) sealed.resultSha256
        (if sealed.spillKind = .args then .result else sealed.spillKind)).json js))

def demoteExchangeResultToReceipt (js : Js ν) (sealsByCallId : KeyedTable Text Seal)
    (exchange : Exchange ν) : Exchange ν :=
  match (sealsByCallId.get? (resolveToolCallId exchange)).bind
      (buildResultReceiptFromSeal js exchange) with
  | some receiptContent =>
    { exchange with toolResult := { exchange.toolResult with content := receiptContent } }
  | none => exchange

/-- `preserveFromIndex` is rounded down; nothing where it is not finite. -/
def demoteOlderToolExchangesToReceipts (js : Js ν) (history : List (Exchange ν))
    (sealsByCallId : KeyedTable Text Seal) (preserveFromIndex : Option ℤ) : List (Exchange ν) :=
  let cutoff : ℕ :=
    match preserveFromIndex with
    | some index => (max 0 (min index history.length)).toNat
    | none => history.length - 1
  (history.take cutoff).map (demoteExchangeResultToReceipt js sealsByCallId) ++ history.drop cutoff

def demoteAllToolExchangesToReceipts (js : Js ν) (history : List (Exchange ν))
    (sealsByCallId : KeyedTable Text Seal) : List (Exchange ν) :=
  history.map (demoteExchangeResultToReceipt js sealsByCallId)

end Persai.ToolSpill
