import Persai.KeyedTable
import Persai.ProviderText.Results

/-!
# The Anthropic client

`generateText` reads a whole message, `streamText` the events of its stream. A `Stream` is a message
with one way of cutting it into the events that the provider sends.
-/

namespace Persai.ProviderText.Anthropic

open ModelCost

variable {Args : Type}

/-! ## Messages -/

/-- The counts of a usage object, each a number or not there. -/
@[ext]
structure Usage where
  inputTokens : Option Rat
  cacheCreationInputTokens : Option Rat
  cacheReadInputTokens : Option Rat
  outputTokens : Option Rat
  deriving DecidableEq, Repr

def Usage.row (usage : Usage) : Row
  | "input_tokens" => .ofNumber? usage.inputTokens
  | "cache_creation_input_tokens" => .ofNumber? usage.cacheCreationInputTokens
  | "cache_read_input_tokens" => .ofNumber? usage.cacheReadInputTokens
  | "output_tokens" => .ofNumber? usage.outputTokens
  | _ => .undefined

inductive Block (Args : Type) where
  | text (text : String)
  | toolUse (id name : String) (input : Args)
  deriving DecidableEq, Repr

structure Message (Args : Type) where
  content : List (Block Args)
  stopReason : Option String
  usage : Usage

/-! ## The whole response -/

def parseAnthropicToolCalls (content : List (Block Args)) : List (ToolCall Args) :=
  content.filterMap fun block =>
    match block with
    | .toolUse id name input => some ⟨id, name, input⟩
    | .text _ => none

def textsOf (content : List (Block Args)) : List String :=
  content.filterMap fun block =>
    match block with
    | .text text => some text
    | .toolUse .. => none

def extractAnthropicText (content : List (Block Args)) : Option String :=
  let text := trim ("\n".intercalate (textsOf content))
  if text.isEmpty then none else some text

def toUsageSnapshot (input : TextRequest) (usage : Option Usage) : Option UsageSnapshot :=
  Client.anthropic.toUsageSnapshot input.model (usage.map Usage.row)

def generateText (input : TextRequest) (response : Message Args) : TextResult Args :=
  let toolCalls := parseAnthropicToolCalls response.content
  let usage := toUsageSnapshot input (some response.usage)
  let textUsage := input.textUsage .anthropic (some response.usage.row)
  if toolCalls ≠ [] then
    { model := input.model
      text := extractAnthropicText response.content
      usage
      textUsage
      stopReason := .toolCalls
      reasoningContent := none
      truncated := none
      toolCalls }
  else
    let text := (extractAnthropicText response.content).getD ""
    { model := input.model
      text := if text.isEmpty then none else some text
      usage
      textUsage
      stopReason := .completed
      reasoningContent := none
      truncated := some (response.stopReason == some "max_tokens")
      toolCalls := [] }

/-! ## The stream -/

/-- The events that `streamText` reads; `toolUse` of a block's start is its id and name. -/
inductive Event where
  | ping
  | messageStart (usage : Option Usage)
  | contentBlockStart (index : Nat) (toolUse : Option (String × String))
  | textDelta (index : Nat) (text : String)
  | inputJsonDelta (index : Nat) (partialJson : String)
  | contentBlockStop (index : Nat)
  | messageDelta (stopReason : Option String) (usage : Option Usage)
  | messageStop

structure StreamedToolCall where
  id : String
  name : String
  inputJson : String

structure State where
  accumulatedText : String
  latestUsage : Option UsageSnapshot
  latestStopReason : Option String
  streamedToolCalls : KeyedTable Nat StreamedToolCall

def State.initial : State := ⟨"", none, none, ∅⟩

def mergeUsageField (current next : Value) : Value :=
  .ofNumber? (next.number?.or current.number?)

def mergeUsageSnapshots (current next : Option UsageSnapshot) : Option UsageSnapshot :=
  match current, next with
  | none, next => next
  | current, none => current
  | some current, some next =>
    let inputTokens := mergeUsageField current.inputTokens next.inputTokens
    let cacheCreationInputTokens :=
      mergeUsageField current.cacheCreationInputTokens next.cacheCreationInputTokens
    let cachedInputTokens := mergeUsageField current.cachedInputTokens next.cachedInputTokens
    let outputTokens := mergeUsageField current.outputTokens next.outputTokens
    some
      { providerKey := current.providerKey
        modelKey := current.modelKey
        inputTokens
        cacheCreationInputTokens
        cachedInputTokens
        outputTokens
        totalTokens := .ofNumber? (
          if inputTokens.number?.isNone ∧ cacheCreationInputTokens.number?.isNone ∧
              cachedInputTokens.number?.isNone ∧ outputTokens.number?.isNone then none
          else some (inputTokens.number?.getD 0 + cacheCreationInputTokens.number?.getD 0 +
            cachedInputTokens.number?.getD 0 + outputTokens.number?.getD 0)) }

/-- The usage object that `normalizeStreamTextUsage` makes of a snapshot. -/
def snapshotRow (usage : UsageSnapshot) : Row
  | "input_tokens" => usage.inputTokens
  | "cache_creation_input_tokens" => usage.cacheCreationInputTokens
  | "cache_read_input_tokens" => usage.cachedInputTokens
  | "output_tokens" => usage.outputTokens
  | "total_tokens" => usage.totalTokens
  | _ => .undefined

def normalizeStreamTextUsage (input : TextRequest) (usage : Option UsageSnapshot) :
    AccountingResult :=
  input.textUsage .anthropic (usage.map snapshotRow)

/-- `parseAnthropicToolInput`; the error is the message of what it throws. -/
def parseAnthropicToolInput (json : Json Args) (rawInputJson toolName : String) :
    Except String Args :=
  if (trim rawInputJson).isEmpty then .ok json.emptyObject
  else
    match json.parse rawInputJson with
    | some (.object row) => .ok row
    | _ => .error s!"Anthropic tool call \"{toolName}\" returned invalid JSON arguments."

def finalizeAnthropicStreamToolCalls (json : Json Args)
    (streamedToolCalls : KeyedTable Nat StreamedToolCall) : Except String (List (ToolCall Args)) :=
  streamedToolCalls.rows.mapM fun (_, toolCall) => do
    let arguments ← parseAnthropicToolInput json toolCall.inputJson toolCall.name
    return ⟨toolCall.id, toolCall.name, arguments⟩

def toolCallsResult (input : TextRequest) (s : State) (toolCalls : List (ToolCall Args)) :
    TextResult Args where
  model := input.model
  text := normalizeOptionalText s.accumulatedText
  usage := s.latestUsage
  textUsage := normalizeStreamTextUsage input s.latestUsage
  stopReason := .toolCalls
  reasoningContent := none
  truncated := none
  toolCalls := toolCalls

def noToolCallsEvent : StreamEvent Args :=
  .failed "provider_invalid_response"
    "Anthropic provider stream stopped for tool use without any tool calls."

def completedResult (input : TextRequest) (s : State) : TextResult Args :=
  let text := trim s.accumulatedText
  { model := input.model
    text := if text.isEmpty then none else some text
    usage := s.latestUsage
    textUsage := normalizeStreamTextUsage input s.latestUsage
    stopReason := .completed
    reasoningContent := none
    truncated := some (s.latestStopReason == some "max_tokens")
    toolCalls := [] }

/-- The end of the stream at the stop reason `tool_use`. -/
def stoppedForToolUse (json : Json Args) (input : TextRequest) (s : State) : StreamEvent Args :=
  match finalizeAnthropicStreamToolCalls json s.streamedToolCalls with
  | .error message => .thrown message
  | .ok [] => noToolCallsEvent
  | .ok toolCalls => .toolCalls (toolCallsResult input s toolCalls)

/-- The end of the stream at `message_stop`. -/
def stopped (json : Json Args) (input : TextRequest) (s : State) : StreamEvent Args :=
  match finalizeAnthropicStreamToolCalls json s.streamedToolCalls with
  | .error message => .thrown message
  | .ok [] =>
    if s.latestStopReason = some "tool_use" then noToolCallsEvent
    else .completed (completedResult input s)
  | .ok toolCalls => .toolCalls (toolCallsResult input s toolCalls)

def mergeUsage (input : TextRequest) (usage : Option Usage) (s : State) : State :=
  { s with latestUsage := mergeUsageSnapshots s.latestUsage (toUsageSnapshot input usage) }

/-- What an event changes. -/
def State.read (input : TextRequest) (s : State) : Event → State
  | .messageStart usage => mergeUsage input usage s
  | .messageDelta stopReason usage =>
    { mergeUsage input usage s with latestStopReason := stopReason.or s.latestStopReason }
  | .contentBlockStart index (some (id, name)) =>
    { s with streamedToolCalls := s.streamedToolCalls.put index ⟨id, name, ""⟩ }
  | .textDelta _ text => { s with accumulatedText := s.accumulatedText ++ text }
  | .inputJsonDelta index partialJson =>
    { s with
      streamedToolCalls := s.streamedToolCalls.update index fun toolCall =>
        { toolCall with inputJson := toolCall.inputJson ++ partialJson } }
  | .contentBlockStart _ none | .contentBlockStop _ | .ping | .messageStop => s

/-- What an event yields at once, in the state before it. -/
def State.yields (s : State) : Event → List (StreamEvent Args)
  | .ping => [.keepalive]
  | .textDelta _ text => if text.isEmpty then [] else [.textDelta text (s.accumulatedText ++ text)]
  | _ => []

/-- The terminal event of an event that ends the stream, in the state after it. -/
def State.ends (json : Json Args) (input : TextRequest) (s : State) :
    Event → Option (StreamEvent Args)
  | .messageDelta (some "tool_use") _ => some (stoppedForToolUse json input s)
  | .messageStop => some (stopped json input s)
  | _ => none

/-- The events of `streamText` from a state, without abort and timeout. -/
def streamTextFrom (json : Json Args) (input : TextRequest) : State → List Event →
    List (StreamEvent Args)
  | _, [] =>
    [.failed "provider_stream_ended"
      "Anthropic provider stream ended before a completed result was emitted."]
  | s, event :: rest =>
    s.yields event ++
      match (s.read input event).ends json input event with
      | some terminal => [terminal]
      | none => streamTextFrom json input (s.read input event) rest

def streamText (json : Json Args) (input : TextRequest) (events : List Event) :
    List (StreamEvent Args) :=
  streamTextFrom json input .initial events

/-! ## Cutting a message into events -/

/-- The text is a JSON text of the object, or nothing where the object is empty. -/
inductive Writes (json : Json Args) (text : String) : Args → Prop where
  | nothing (blank : (trim text).isEmpty) : Writes json text json.emptyObject
  | parsed (row : Args) (shown : ¬ (trim text).isEmpty)
    (parsed : json.parse text = some (.object row)) : Writes json text row

/-- The events of one block at an index. -/
inductive BlockEvents (json : Json Args) (index : Nat) : Block Args → List Event → Prop where
  | text (fragments : List String) :
    BlockEvents json index (.text (String.join fragments))
      (.contentBlockStart index none ::
        (fragments.map (.textDelta index) ++ [.contentBlockStop index]))
  | toolUse (id name : String) (row : Args) (fragments : List String)
    (written : Writes json (String.join fragments) row) :
    BlockEvents json index (.toolUse id name row)
      (.contentBlockStart index (some (id, name)) ::
        (fragments.map (.inputJsonDelta index) ++ [.contentBlockStop index]))

/-- The events of the blocks, with indices from the first one's on. -/
inductive ContentEvents (json : Json Args) : Nat → List (Block Args) → List Event → Prop where
  | nil (index : Nat) : ContentEvents json index [] []
  | cons {index : Nat} {block : Block Args} {rest : List (Block Args)}
    {events restEvents : List Event} (head : BlockEvents json index block events)
    (tail : ContentEvents json (index + 1) rest restEvents) :
    ContentEvents json index (block :: rest) (events ++ restEvents)

/-- Later counts replace earlier ones. -/
def Usage.merge (current next : Usage) : Usage where
  inputTokens := next.inputTokens.or current.inputTokens
  cacheCreationInputTokens := next.cacheCreationInputTokens.or current.cacheCreationInputTokens
  cacheReadInputTokens := next.cacheReadInputTokens.or current.cacheReadInputTokens
  outputTokens := next.outputTokens.or current.outputTokens

def Event.isPing : Event → Bool
  | .ping => true
  | _ => false

/-- The stop reason and the usage of a `message_delta`. -/
abbrev Delta := Option String × Option Usage

def Delta.event (delta : Delta) : Event := .messageDelta delta.1 delta.2

/-- A message and one way of cutting it: a start with usage counts, the events of the blocks,
deltas of which one gives the stop reason, and the stop, with pings anywhere. -/
structure Stream (json : Json Args) where
  message : Message Args
  startUsage : Usage
  contentEvents : List Event
  deltas : List Delta
  events : List Event
  content : ContentEvents json 0 message.content contentEvents
  stopReason : deltas.filterMap Prod.fst = message.stopReason.toList
  usage : message.usage = (deltas.filterMap Prod.snd).foldl Usage.merge startUsage
  cut : events.filter (!·.isPing) =
    .messageStart (some startUsage) :: (contentEvents ++
      (deltas.map Delta.event ++ [.messageStop]))

/-! ## The counts -/

@[simp] theorem number?_ofNumber? (n : Option Rat) : (Value.ofNumber? n).number? = n := by
  cases n <;> rfl

theorem ofNumber?_injective {m n : Option Rat} (same : Value.ofNumber? m = .ofNumber? n) :
    m = n := by
  rw [← number?_ofNumber? m, same, number?_ofNumber?]

/-- The snapshot of counts that are there. -/
def snapshotOf (input : TextRequest) (usage : Usage) : UsageSnapshot :=
  anthropicUsageSnapshot input.model usage.row

theorem snapshotOf_injective {input : TextRequest} {a b : Usage}
    (same : snapshotOf input a = snapshotOf input b) : a = b := by
  simp only [snapshotOf, anthropicUsageSnapshot, readOptionalUsageNumber, Usage.row,
    number?_ofNumber?, UsageSnapshot.mk.injEq, true_and] at same
  obtain ⟨inputTokens, cacheCreation, cacheRead, output, -⟩ := same
  exact Usage.ext (ofNumber?_injective inputTokens) (ofNumber?_injective cacheCreation)
    (ofNumber?_injective cacheRead) (ofNumber?_injective output)

theorem mergeUsageSnapshots_snapshotOf (input : TextRequest) (current next : Usage) :
    mergeUsageSnapshots (some (snapshotOf input current)) (some (snapshotOf input next)) =
      some (snapshotOf input (current.merge next)) := by
  simp only [mergeUsageSnapshots, snapshotOf, anthropicUsageSnapshot, readOptionalUsageNumber,
    Usage.row, Usage.merge, mergeUsageField, number?_ofNumber?, Option.some.injEq,
    UsageSnapshot.mk.injEq, true_and]
  -- the totals: both are missing together, and otherwise add what is there
  generalize next.inputTokens.or current.inputTokens = inputTokens
  generalize next.cacheCreationInputTokens.or current.cacheCreationInputTokens = cacheCreation
  generalize next.cacheReadInputTokens.or current.cacheReadInputTokens = cacheRead
  generalize next.outputTokens.or current.outputTokens = output
  cases inputTokens <;> cases cacheCreation <;> cases cacheRead <;> cases output <;> simp

theorem components_snapshotRow (input : TextRequest) (usage : Usage) :
    anthropicComponents (snapshotRow (snapshotOf input usage)) = anthropicComponents usage.row ∧
      reportedOutputTokens (snapshotRow (snapshotOf input usage)) =
        reportedOutputTokens usage.row := by
  have same (key : String) (reads : snapshotRow (snapshotOf input usage) key = usage.row key) :
      readUsageInteger (snapshotRow (snapshotOf input usage)) key =
        readUsageInteger usage.row key := by
    simp only [readUsageInteger, reads]
  have counts : ∀ n : Option Rat, Value.ofNumber? (Value.ofNumber? n).number? = .ofNumber? n := by
    simp
  unfold anthropicComponents reportedOutputTokens
  rw [same "input_tokens" (counts _), same "cache_creation_input_tokens" (counts _),
    same "cache_read_input_tokens" (counts _), same "output_tokens" (counts _),
    same "completion_tokens" rfl]
  exact ⟨rfl, rfl⟩

/-- Where all counts are read, the snapshot's total is their sum. -/
theorem total_snapshotRow {input : TextRequest} {usage : Usage} {total uncached cacheWrite cacheRead
    output : Int}
    (components : anthropicComponents usage.row =
      ⟨some total, some uncached, some cacheWrite, some cacheRead⟩)
    (reported : reportedOutputTokens usage.row = some output) :
    readUsageInteger (snapshotRow (snapshotOf input usage)) "total_tokens" =
      some (total + output) := by
  have noCompletion : readUsageInteger usage.row "completion_tokens" = none := rfl
  rw [reportedOutputTokens, noCompletion, Option.or_none] at reported
  simp only [anthropicComponents, InputComponents.mk.injEq] at components
  obtain ⟨sum, uncachedRead, writeRead, cachedRead⟩ := components
  rw [uncachedRead, writeRead, cachedRead] at sum
  obtain rfl : uncached + cacheWrite + cacheRead = total := Option.some.inj sum
  obtain ⟨number₁, nonneg₁⟩ := readUsageInteger_eq_some.mp uncachedRead
  obtain ⟨number₂, nonneg₂⟩ := readUsageInteger_eq_some.mp writeRead
  obtain ⟨number₃, nonneg₃⟩ := readUsageInteger_eq_some.mp cachedRead
  obtain ⟨number₄, nonneg₄⟩ := readUsageInteger_eq_some.mp reported
  refine readUsageInteger_eq_some.mpr ⟨?_, by omega⟩
  simp [snapshotRow, snapshotOf, anthropicUsageSnapshot, readOptionalUsageNumber, number₁,
    number₂, number₃, number₄, Value.number?, Value.ofNumber?]

theorem normalizeStreamTextUsage_snapshotOf (input : TextRequest) (usage : Usage) :
    normalizeStreamTextUsage input (some (snapshotOf input usage)) =
      input.textUsage .anthropic (some usage.row) := by
  obtain ⟨components, reported⟩ := components_snapshotRow input usage
  unfold normalizeStreamTextUsage TextRequest.textUsage normalizeProviderTextGenerationUsageV2
  simp only [inputComponents, Option.map_some, components, reported]
  cases counts : anthropicComponents usage.row with
  | mk total uncached cacheWrite cacheRead =>
    split
    · rename_i heq₁ heq₂
      obtain ⟨rfl, rfl, rfl, rfl⟩ := InputComponents.mk.inj heq₁
      have noTotal : readUsageInteger usage.row "total_tokens" = none := rfl
      rw [total_snapshotRow counts heq₂, noTotal]
      rfl
    · rfl

/-! ## The last event -/

theorem streamTextFrom_ne_nil (json : Json Args) (input : TextRequest) (s : State)
    (events : List Event) : streamTextFrom json input s events ≠ [] := by
  induction events generalizing s with
  | nil => simp [streamTextFrom]
  | cons event rest ih =>
    rw [streamTextFrom]
    split
    · simp
    · simp [ih]

def terminal (json : Json Args) (input : TextRequest) (s : State) (events : List Event) :
    Option (StreamEvent Args) :=
  (streamTextFrom json input s events).getLast?

/-- The stream ends at the event, or goes on from what the event changes. -/
theorem terminal_cons (json : Json Args) (input : TextRequest) (s : State) (event : Event)
    (rest : List Event) :
    terminal json input s (event :: rest) =
      ((s.read input event).ends json input event).or
        (terminal json input (s.read input event) rest) := by
  unfold terminal
  rw [streamTextFrom]
  cases (s.read input event).ends json input event with
  | some ended => simp
  | none =>
    have some_last := List.getLast?_isSome.mpr
      (streamTextFrom_ne_nil json input (s.read input event) rest)
    simp only [Option.none_or, List.getLast?_append]
    cases last : (streamTextFrom json input (s.read input event) rest).getLast? with
    | none => rw [last] at some_last; cases some_last
    | some _ => rfl

theorem terminal_without_pings (json : Json Args) (input : TextRequest) (s : State)
    (events : List Event) :
    terminal json input s (events.filter (!·.isPing)) = terminal json input s events := by
  induction events generalizing s with
  | nil => rfl
  | cons event rest ih =>
    cases event with
    | ping =>
      rw [terminal_cons, List.filter_cons_of_neg (by simp [Event.isPing]), ih]
      rfl
    | _ => rw [List.filter_cons_of_pos (by rfl), terminal_cons, terminal_cons, ih]

/-- Whether an event can end a stream. -/
def Event.goesOn : Event → Bool
  | .messageDelta .. | .messageStop => false
  | _ => true

theorem terminal_append (json : Json Args) (input : TextRequest) (s : State)
    (events rest : List Event) (goOn : events.all Event.goesOn) :
    terminal json input s (events ++ rest) =
      terminal json input (events.foldl (State.read input) s) rest := by
  induction events generalizing s with
  | nil => rfl
  | cons event events ih =>
    rw [List.all_cons, Bool.and_eq_true] at goOn
    rw [List.cons_append, terminal_cons, ih _ goOn.2, List.foldl_cons]
    cases event with
    | messageDelta | messageStop => exact absurd goOn.1 Bool.false_ne_true
    | _ => rfl

/-! ## Reading the blocks -/

theorem read_textFragments (input : TextRequest) (index : Nat) (s : State)
    (fragments : List String) :
    (fragments.map (Event.textDelta index)).foldl (State.read input) s =
      { s with accumulatedText := s.accumulatedText ++ String.join fragments } := by
  induction fragments generalizing s with
  | nil => simp
  | cons fragment rest ih => simp [State.read, ih, String.append_assoc]

theorem read_jsonFragments (input : TextRequest) {index : Nat} {s : State}
    {older : List (Nat × StreamedToolCall)} {call : StreamedToolCall}
    (rows : s.streamedToolCalls.rows = older ++ [(index, call)]) (fragments : List String) :
    ∃ streamedToolCalls,
      (fragments.map (Event.inputJsonDelta index)).foldl (State.read input) s =
        { s with streamedToolCalls } ∧
      streamedToolCalls.rows = older ++
        [(index, { call with inputJson := call.inputJson ++ String.join fragments })] := by
  induction fragments generalizing s call with
  | nil => exact ⟨s.streamedToolCalls, rfl, by simpa using rows⟩
  | cons fragment rest ih =>
    obtain ⟨streamedToolCalls, after, newRows⟩ := ih (s := s.read input
      (.inputJsonDelta index fragment)) (KeyedTable.rows_update_last rows _)
    refine ⟨streamedToolCalls, ?_, ?_⟩
    · rw [List.map_cons, List.foldl_cons, after]
      rfl
    · rw [newRows, String.join_cons, String.append_assoc]

/-- What the events of the blocks before an index leave. -/
structure Reading (json : Json Args) (s : State) (index : Nat) (toolCalls : List (ToolCall Args)) :
    Prop where
  older : ∀ row ∈ s.streamedToolCalls.rows, row.1 < index
  finalized : finalizeAnthropicStreamToolCalls json s.streamedToolCalls = .ok toolCalls

/-- What stays of a state while blocks are read, and the text that is added to it. -/
structure Adds (s s' : State) (text : String) : Prop where
  text : s'.accumulatedText = s.accumulatedText ++ text
  usage : s'.latestUsage = s.latestUsage
  stopReason : s'.latestStopReason = s.latestStopReason

theorem parseAnthropicToolInput_of_writes {json : Json Args} {text name : String} {row : Args}
    (written : Writes json text row) : parseAnthropicToolInput json text name = .ok row := by
  unfold parseAnthropicToolInput
  cases written with
  | nothing blank => rw [if_pos blank]
  | parsed row shown parsed => rw [if_neg shown, parsed]

theorem read_block {json : Json Args} {index : Nat} {block : Block Args} {events : List Event}
    (cut : BlockEvents json index block events) {s : State} {toolCalls : List (ToolCall Args)}
    (input : TextRequest) (reading : Reading json s index toolCalls) :
    Adds s (events.foldl (State.read input) s) (String.join (textsOf [block])) ∧
      Reading json (events.foldl (State.read input) s) (index + 1)
        (toolCalls ++ parseAnthropicToolCalls [block]) := by
  cases cut with
  | text fragments =>
    rw [List.foldl_cons, List.foldl_append, State.read, read_textFragments]
    refine ⟨⟨by simp [textsOf, State.read], rfl, rfl⟩, fun row member => ?_, ?_⟩
    · exact Nat.lt_succ_of_lt (reading.older row member)
    · simpa [parseAnthropicToolCalls, State.read] using reading.finalized
  | toolUse id name row fragments written =>
    have free : ∀ row ∈ s.streamedToolCalls.rows, row.1 ≠ index :=
      fun row member => Nat.ne_of_lt (reading.older row member)
    have rows := KeyedTable.rows_put free (⟨id, name, ""⟩ : StreamedToolCall)
    obtain ⟨streamedToolCalls, after, newRows⟩ := read_jsonFragments input
      (s := s.read input (.contentBlockStart index (some (id, name)))) rows fragments
    rw [List.foldl_cons, List.foldl_append, after]
    refine ⟨⟨by simp [textsOf, State.read], rfl, rfl⟩, fun row member => ?_, ?_⟩
    · rcases List.mem_append.mp (newRows ▸ member : row ∈ _ ++ _) with older | new
      · exact Nat.lt_succ_of_lt (reading.older row older)
      · rw [List.mem_singleton.mp new]
        exact Nat.lt_succ_self index
    · have finalized := reading.finalized
      unfold finalizeAnthropicStreamToolCalls at finalized ⊢
      simp only [List.foldl_cons, List.foldl_nil, State.read]
      have parsed := @parseAnthropicToolInput_of_writes _ _ _ name _ written
      rw [newRows, List.mapM_append, finalized, String.empty_append]
      simp [parsed, parseAnthropicToolCalls]
      rfl

theorem read_content {json : Json Args} {index : Nat} {content : List (Block Args)}
    {events : List Event} (cut : ContentEvents json index content events) {s : State}
    {toolCalls : List (ToolCall Args)} (input : TextRequest)
    (reading : Reading json s index toolCalls) :
    Adds s (events.foldl (State.read input) s) (String.join (textsOf content)) ∧
      Reading json (events.foldl (State.read input) s) (index + content.length)
        (toolCalls ++ parseAnthropicToolCalls content) := by
  induction cut generalizing s toolCalls with
  | nil index =>
    refine ⟨⟨by simp [textsOf], rfl, rfl⟩, ?_⟩
    simpa [parseAnthropicToolCalls] using reading
  | @cons index block rest events restEvents head tail ih =>
    obtain ⟨added, afterHead⟩ := read_block head input reading
    obtain ⟨addedRest, afterRest⟩ := ih afterHead
    have texts : textsOf (block :: rest) = textsOf [block] ++ textsOf rest :=
      List.filterMap_append (l := [block])
    have calls : parseAnthropicToolCalls (block :: rest) =
        parseAnthropicToolCalls [block] ++ parseAnthropicToolCalls rest :=
      List.filterMap_append (l := [block])
    rw [List.foldl_append, texts, calls, List.length_cons, ← List.append_assoc]
    refine ⟨⟨?_, ?_, ?_⟩, ?_⟩
    · rw [addedRest.text, added.text, String.join_append, String.append_assoc]
    · rw [addedRest.usage, added.usage]
    · rw [addedRest.stopReason, added.stopReason]
    · rw [Nat.add_comm rest.length, ← Nat.add_assoc]
      exact afterRest

theorem content_goesOn {json : Json Args} {index : Nat} {content : List (Block Args)}
    {events : List Event} (cut : ContentEvents json index content events) :
    events.all Event.goesOn := by
  induction cut with
  | nil => rfl
  | cons head tail ih =>
    rw [List.all_append, ih, Bool.and_true]
    cases head <;> simp [Event.goesOn]

/-! ## Reading the deltas -/

/-- The counts reported up to the delta with the stop reason `tool_use`, and all of them where no
delta has it. -/
def usageUntilToolUse (usage : Usage) : List Delta → Usage
  | [] => usage
  | (stopReason, next) :: rest =>
    let merged := next.elim usage usage.merge
    if stopReason = some "tool_use" then merged else usageUntilToolUse merged rest

theorem read_delta {input : TextRequest} {s : State} {usage : Usage}
    (latest : s.latestUsage = some (snapshotOf input usage)) (delta : Delta) :
    (s.read input delta.event).latestUsage =
      some (snapshotOf input (delta.2.elim usage usage.merge)) := by
  obtain ⟨stopReason, next⟩ := delta
  simp only [State.read, Delta.event, mergeUsage, latest]
  cases next with
  | none => rfl
  | some next => exact mergeUsageSnapshots_snapshotOf input usage next

/-- The end of a stream whose blocks are read. -/
theorem terminal_deltas (json : Json Args) {input : TextRequest} {s : State} {usage : Usage}
    (latest : s.latestUsage = some (snapshotOf input usage)) (deltas : List Delta) :
    ∃ s' : State, s'.accumulatedText = s.accumulatedText ∧
      s'.streamedToolCalls = s.streamedToolCalls ∧
      s'.latestUsage = some (snapshotOf input (usageUntilToolUse usage deltas)) ∧
      (some "tool_use" ∉ deltas.map Prod.fst →
        s'.latestStopReason = (deltas.filterMap Prod.fst).getLast?.or s.latestStopReason) ∧
      terminal json input s (deltas.map Delta.event ++ [.messageStop]) =
        some (if some "tool_use" ∈ deltas.map Prod.fst then stoppedForToolUse json input s'
          else stopped json input s') := by
  induction deltas generalizing s usage with
  | nil => exact ⟨s, rfl, rfl, latest, fun _ => rfl, rfl⟩
  | cons delta rest ih =>
    have read := read_delta latest delta
    simp only [List.map_cons, List.cons_append, terminal_cons]
    by_cases toolUse : delta.1 = some "tool_use"
    · refine ⟨s.read input delta.event, rfl, rfl, ?_, fun none_here => ?_, ?_⟩
      · rw [read, usageUntilToolUse, if_pos toolUse]
      · exact absurd (List.mem_cons.mpr (.inl toolUse.symm)) none_here
      · obtain ⟨stopReason, next⟩ := delta
        obtain rfl : stopReason = some "tool_use" := toolUse
        simp [Delta.event, State.ends]
    · obtain ⟨s', text, calls, after, stopReason, ended⟩ := ih read
      refine ⟨s', text, calls, ?_, fun none_here => ?_, ?_⟩
      · rw [after, usageUntilToolUse, if_neg toolUse]
      · rw [stopReason (fun later => none_here (List.mem_cons_of_mem _ later))]
        obtain ⟨given, next⟩ := delta
        cases given with
        | none => rfl
        | some reason =>
          have head : ((some reason, next) :: rest : List Delta).filterMap Prod.fst =
              reason :: rest.filterMap Prod.fst := rfl
          rw [head, List.getLast?_cons]
          cases (rest.filterMap Prod.fst).getLast? <;> rfl
      · have goesOn : (s.read input delta.event).ends json input delta.event = none := by
          obtain ⟨given, next⟩ := delta
          unfold State.ends Delta.event
          split
          · rename_i same
            cases same
            exact absurd rfl toolUse
          · rename_i same
            cases same
          · rfl
        rw [goesOn, Option.none_or, ended]
        simp only [List.mem_cons, or_iff_right (Ne.symm toolUse)]

/-! ## Agreement -/

/-- At most one text block is more than white space. -/
def Message.OneTextShown (message : Message Args) : Prop :=
  shown isTrimmed ((textsOf message.content).map String.toList) ≤ 1

/-- A message that stopped for tool use has a tool call. -/
def Message.ToolUseHasCalls (message : Message Args) : Prop :=
  message.stopReason = some "tool_use" → parseAnthropicToolCalls message.content ≠ []

/-- The counts are complete with the delta that has the stop reason `tool_use`. -/
def Stream.UsageInTime {json : Json Args} (stream : Stream json) : Prop :=
  usageUntilToolUse stream.startUsage stream.deltas = stream.message.usage

theorem extractAnthropicText_eq (content : List (Block Args)) :
    extractAnthropicText content =
      normalizeOptionalText ("\n".intercalate (textsOf content)) := by
  simp only [extractAnthropicText, normalizeOptionalText]

theorem toolCallsResult_text (input : TextRequest) (s : State) (toolCalls : List (ToolCall Args)) :
    (toolCallsResult input s toolCalls).text = normalizeOptionalText s.accumulatedText := by
  simp only [toolCallsResult]

theorem completedResult_text (input : TextRequest) (s : State) :
    (completedResult input s : TextResult Args).text =
      normalizeOptionalText s.accumulatedText := by
  simp only [completedResult, normalizeOptionalText]

theorem generateText_text (input : TextRequest) (message : Message Args) :
    (generateText input message).text =
      normalizeOptionalText ("\n".intercalate (textsOf message.content)) := by
  rw [← extractAnthropicText_eq]
  unfold generateText
  dsimp only
  split
  · dsimp only
  · unfold extractAnthropicText
    dsimp only
    split
    · simp
    · rename_i shown
      simp [shown]

theorem generateText_usage (input : TextRequest) (message : Message Args) :
    (generateText input message).usage = some (snapshotOf input message.usage) ∧
      (generateText input message).textUsage =
        input.textUsage .anthropic (some message.usage.row) := by
  unfold generateText
  dsimp only
  split <;> exact ⟨rfl, rfl⟩

/-- A result with the streamed text and counts is the whole response's where these agree. -/
theorem sameAs_iff {input : TextRequest} {message : Message Args} (streamed : TextResult Args)
    {usage : Usage}
    (text : streamed.text = normalizeOptionalText (String.join (textsOf message.content)))
    (streamedUsage : streamed.usage = some (snapshotOf input usage))
    (textUsage : streamed.textUsage =
      normalizeStreamTextUsage input (some (snapshotOf input usage)))
    (toolCalls : streamed.toolCalls = (generateText input message).toolCalls)
    (truncated : streamed.truncated = (generateText input message).truncated) :
    streamed.SameAs (generateText input message) ↔
      message.OneTextShown ∧ usage = message.usage := by
  obtain ⟨wholeUsage, wholeTextUsage⟩ := generateText_usage input message
  have texts : streamed.text = (generateText input message).text ↔ message.OneTextShown := by
    rw [text, generateText_text, normalizeOptionalText_eq_iff, trim_joined_eq_iff]
    rfl
  constructor
  · intro same
    refine ⟨texts.mp same.text, @snapshotOf_injective input _ _ ?_⟩
    have counts := same.usage
    rw [streamedUsage, wholeUsage] at counts
    exact Option.some.inj counts
  · rintro ⟨oneShown, rfl⟩
    refine ⟨texts.mpr oneShown, toolCalls, streamedUsage.trans wholeUsage.symm, ?_, truncated⟩
    rw [textUsage, normalizeStreamTextUsage_snapshotOf, wholeTextUsage]

/-- The end of the stream of a message, in the state that its blocks and deltas leave. -/
theorem terminal_stream {json : Json Args} (input : TextRequest) (stream : Stream json) :
    ∃ s : State,
      s.accumulatedText = String.join (textsOf stream.message.content) ∧
      finalizeAnthropicStreamToolCalls json s.streamedToolCalls =
        .ok (parseAnthropicToolCalls stream.message.content) ∧
      s.latestUsage =
        some (snapshotOf input (usageUntilToolUse stream.startUsage stream.deltas)) ∧
      (stream.message.stopReason ≠ some "tool_use" →
        s.latestStopReason = stream.message.stopReason) ∧
      (streamText json input stream.events).getLast? =
        some (if stream.message.stopReason = some "tool_use" then stoppedForToolUse json input s
          else stopped json input s) := by
  have started : Reading json (State.initial.read input (.messageStart (some stream.startUsage))) 0
      [] := ⟨fun _ member => absurd member List.not_mem_nil, rfl⟩
  obtain ⟨added, reading⟩ := read_content stream.content input started
  have latest := added.usage
  obtain ⟨s, text, calls, usage, stopReason, ended⟩ := terminal_deltas json
    (latest.trans rfl : _ = some (snapshotOf input stream.startUsage)) stream.deltas
  have toolUse : some "tool_use" ∈ stream.deltas.map Prod.fst ↔
      stream.message.stopReason = some "tool_use" := by
    rw [← Option.mem_toList.trans Option.mem_def, ← stream.stopReason, List.mem_filterMap,
      List.mem_map]
  refine ⟨s, ?_, ?_, usage, fun other => ?_, ?_⟩
  · rw [text, added.text]
    rfl
  · rw [calls, reading.finalized]
    rfl
  · rw [stopReason (mt toolUse.mp other), stream.stopReason, added.stopReason]
    cases stream.message.stopReason <;> rfl
  · rw [streamText, ← terminal, ← terminal_without_pings, stream.cut, terminal_cons,
      terminal_append _ _ _ _ _ (content_goesOn stream.content), ended]
    simp only [toolUse]
    rfl

theorem ends_with_toolCalls {json : Json Args} {s : State} {toolCalls : List (ToolCall Args)}
    (finalized : finalizeAnthropicStreamToolCalls json s.streamedToolCalls = .ok toolCalls)
    (some_call : toolCalls ≠ []) (input : TextRequest) :
    stoppedForToolUse json input s = .toolCalls (toolCallsResult input s toolCalls) ∧
      stopped json input s = .toolCalls (toolCallsResult input s toolCalls) := by
  unfold stoppedForToolUse stopped
  rw [finalized]
  cases toolCalls with
  | nil => exact absurd rfl some_call
  | cons => exact ⟨rfl, rfl⟩

theorem ends_without_toolCalls {json : Json Args} {s : State}
    (finalized : finalizeAnthropicStreamToolCalls json s.streamedToolCalls = .ok [])
    (input : TextRequest) :
    stoppedForToolUse json input s = noToolCallsEvent ∧
      (s.latestStopReason ≠ some "tool_use" →
        stopped json input s = .completed (completedResult input s)) := by
  unfold stoppedForToolUse stopped
  rw [finalized]
  exact ⟨rfl, fun other => if_neg other⟩

theorem generateText_toolCalls {message : Message Args}
    (some_call : parseAnthropicToolCalls message.content ≠ []) (input : TextRequest) :
    (generateText input message).toolCalls = parseAnthropicToolCalls message.content ∧
      (generateText input message).truncated = none := by
  unfold generateText
  rw [if_pos some_call]
  exact ⟨rfl, rfl⟩

theorem generateText_completed {message : Message Args}
    (none_called : parseAnthropicToolCalls message.content = []) (input : TextRequest) :
    (generateText input message).toolCalls = [] ∧
      (generateText input message).truncated =
        some (message.stopReason == some "max_tokens") := by
  unfold generateText
  rw [if_neg (not_not.mpr none_called)]
  exact ⟨rfl, rfl⟩

theorem agrees_of_last {events : List (StreamEvent Args)} {event : StreamEvent Args}
    {streamed whole : TextResult Args} (last : events.getLast? = some event)
    (carries : event.result? = some streamed) :
    Agrees events whole ↔ streamed.SameAs whole := by
  unfold Agrees
  rw [last, Option.bind_some, carries]
  simp

/-- Streaming a message gives the whole response's result exactly when at most one text block is
more than white space, a stop for tool use comes with a tool call, and with it the counts are
complete. -/
theorem agrees_iff {json : Json Args} (input : TextRequest) (stream : Stream json) :
    Agrees (streamText json input stream.events) (generateText input stream.message) ↔
      stream.message.OneTextShown ∧ stream.message.ToolUseHasCalls ∧ stream.UsageInTime := by
  obtain ⟨s, text, finalized, usage, stopReason, ended⟩ := terminal_stream input stream
  have streamedText : normalizeOptionalText s.accumulatedText =
      normalizeOptionalText (String.join (textsOf stream.message.content)) := by rw [text]
  have streamedUsage := congrArg (normalizeStreamTextUsage input) usage
  have completedText := (@completedResult_text Args input s).trans streamedText
  by_cases called : parseAnthropicToolCalls stream.message.content = []
  · rw [called] at finalized
    obtain ⟨atToolUse, atStop⟩ := ends_without_toolCalls finalized input
    obtain ⟨noCalls, truncated⟩ := generateText_completed called input
    by_cases toolUse : stream.message.stopReason = some "tool_use"
    · rw [if_pos toolUse, atToolUse] at ended
      constructor
      · rintro ⟨streamed, carried, -⟩
        rw [ended] at carried
        cases carried
      · rintro ⟨-, has_calls, -⟩
        exact absurd called (has_calls toolUse)
    · rw [if_neg toolUse, atStop (by rw [stopReason toolUse]; exact toolUse)] at ended
      have streamedTruncated : (completedResult input s : TextResult Args).truncated =
          (generateText input stream.message).truncated := by
        rw [truncated, ← stopReason toolUse]
        rfl
      have same := sameAs_iff _ completedText usage streamedUsage noCalls.symm streamedTruncated
      have has_calls : stream.message.ToolUseHasCalls := fun stopped => absurd stopped toolUse
      rw [agrees_of_last ended rfl, same, Stream.UsageInTime]
      exact and_congr_right fun _ => (and_iff_right has_calls).symm
  · obtain ⟨atToolUse, atStop⟩ := ends_with_toolCalls finalized called input
    obtain ⟨calls, truncated⟩ := generateText_toolCalls called input
    rw [atToolUse, atStop, ite_self] at ended
    have calledText := (toolCallsResult_text input s
      (parseAnthropicToolCalls stream.message.content)).trans streamedText
    have same := sameAs_iff _ calledText usage streamedUsage calls.symm truncated.symm
    have has_calls : stream.message.ToolUseHasCalls := fun _ => called
    rw [agrees_of_last ended rfl, same, Stream.UsageInTime]
    exact and_congr_right fun _ => (and_iff_right has_calls).symm

end Persai.ProviderText.Anthropic
