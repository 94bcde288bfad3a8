import Persai.ModelCost.Usage
import Persai.Strip

/-!
# Results of a text generation

What the provider clients return for a whole response and yield for a streamed one. `JSON.parse`
and the type of the parsed objects are parameters.
-/

namespace Persai.ProviderText

open ModelCost

/-- What `JSON.parse` returns where it does not throw: an object, or another value. -/
inductive Parsed (Args : Type) where
  | object (row : Args)
  | other

structure Json (Args : Type) where
  parse : String → Option (Parsed Args)
  emptyObject : Args

structure ToolCall (Args : Type) where
  id : String
  name : String
  arguments : Args
  deriving DecidableEq, Repr

inductive StopReason | completed | toolCalls
  deriving DecidableEq, Repr

/-- `ProviderGatewayTextGenerateResult`; a result without `truncated` has `none` there. -/
structure TextResult (Args : Type) where
  model : String
  text : Option String
  usage : Option UsageSnapshot
  textUsage : AccountingResult
  stopReason : StopReason
  reasoningContent : Option String
  truncated : Option Bool
  toolCalls : List (ToolCall Args)

/-- `thrown` is the failed event that `toProviderTextFailedEvent` makes of an error. -/
inductive StreamEvent (Args : Type) where
  | keepalive
  | textDelta (delta accumulatedText : String)
  | thinkingDelta (delta accumulatedThinking : String)
  | toolCalls (result : TextResult Args)
  | completed (result : TextResult Args)
  | failed (code message : String)
  | thrown (message : String)

variable {Args : Type}

def StreamEvent.result? : StreamEvent Args → Option (TextResult Args)
  | .toolCalls result | .completed result => some result
  | _ => none

/-- What the request says about the call. -/
structure TextRequest where
  model : String
  toolLoopFollowup : Bool

def TextRequest.stepType (input : TextRequest) : StepType :=
  if input.toolLoopFollowup then .toolLoopFollowup else .mainTurn

/-- `normalizeProviderTextGenerationUsageV2` as the clients call it. -/
def TextRequest.textUsage (input : TextRequest) (provider : ProviderKey) (usage : Option Row) :
    AccountingResult :=
  normalizeProviderTextGenerationUsageV2
    { providerKey := provider
      modelKey := input.model
      stepType := input.stepType
      modelRole := none
      responseUsage := usage
      promptCachePolicy := none
      toolCode := none }

def normalizeOptionalText (value : String) : Option String :=
  if (trim value).isEmpty then none else some (trim value)

theorem normalizeOptionalText_eq_iff (a b : String) :
    normalizeOptionalText a = normalizeOptionalText b ↔ trim a = trim b := by
  unfold normalizeOptionalText
  constructor
  · intro same
    split at same <;> split at same
    · rename_i left right
      rw [String.isEmpty_iff.mp left, String.isEmpty_iff.mp right]
    · cases same
    · cases same
    · exact Option.some.inj same
  · intro same
    rw [same]

/-- The last event of a stream carries the whole response's result. -/
structure TextResult.SameAs (streamed whole : TextResult Args) : Prop where
  text : streamed.text = whole.text
  toolCalls : streamed.toolCalls = whole.toolCalls
  usage : streamed.usage = whole.usage
  textUsage : streamed.textUsage = whole.textUsage
  truncated : streamed.truncated = whole.truncated

/-- The terminal event carries a result, and it is that of the whole response. -/
def Agrees (events : List (StreamEvent Args)) (whole : TextResult Args) : Prop :=
  ∃ streamed, events.getLast?.bind StreamEvent.result? = some streamed ∧ streamed.SameAs whole

theorem trim_eq_iff (a b : String) :
    trim a = trim b ↔ strip isTrimmed a.toList = strip isTrimmed b.toList := by
  unfold trim
  exact String.ofList_inj

/-- Texts joined with line breaks and without them read the same exactly when at most one of them
is more than white space. -/
theorem trim_joined_eq_iff (texts : List String) :
    trim (String.join texts) = trim ("\n".intercalate texts) ↔
      shown isTrimmed (texts.map String.toList) ≤ 1 := by
  have isBlank : isTrimmed '\n' := by decide
  rw [trim_eq_iff, String.toList_join, String.toList_intercalate,
    ← strip_intercalate_eq_iff isBlank, List.flatMap_def, eq_comm]
  rfl

end Persai.ProviderText
