import Mathlib.Data.Rat.Defs
import Persai.Text

/-!
# The usage that a chat provider reports

`normalizeProviderTextGenerationUsageV2` with its validation, and the snapshots that the clients
of Anthropic, DeepSeek and Kimi make of the same usage object. Numbers are exact rationals.
-/

namespace Persai.ModelCost

inductive ProviderKey | openai | anthropic | deepseek | kimi
  deriving DecidableEq, Repr

inductive StepType | mainTurn | toolLoopFollowup | router | systemTool | retrieval | toolWorker
  deriving DecidableEq, Repr

inductive ModelRole | normalReply | premiumReply | reasoning | systemTool | retrieval | toolWorker
  deriving DecidableEq, Repr

/-- A parsed JSON value; an absent field reads as `undefined`. -/
inductive Value where
  | undefined
  | null
  | boolean (value : Bool)
  | number (value : Rat)
  | string (value : String)
  | array (items : List Value)
  | object (row : String → Value)

abbrev Row := String → Value

/-- `value ?? null`. -/
def Value.orNull : Value → Value
  | .undefined => .null
  | value => value

def Value.number? : Value → Option Rat
  | .number value => some value
  | _ => none

def Value.ofNumber? : Option Rat → Value
  | some value => .number value
  | none => .null

/-! ## The accounted entry -/

/-- `TextGenerationUsageAccountingV2`; the outer option of `toolCode` is the absent field. -/
structure Accounting where
  stepType : StepType
  modelRole : Option ModelRole
  providerKey : ProviderKey
  modelKey : String
  totalInputTokens : Int
  uncachedInputTokens : Int
  cacheWriteInputTokens : Int
  cacheReadInputTokens : Int
  outputTokens : Int
  totalTokens : Int
  toolCode : Option (Option String)
  deriving DecidableEq, Repr

inductive AccountingResult where
  | accounted (entry : Accounting)
  | usageUnavailable (reason : String)
  | usageMismatch (reason : String)
  deriving DecidableEq, Repr

def Accounting.tokenValues (entry : Accounting) : List Int :=
  [entry.totalInputTokens, entry.uncachedInputTokens, entry.cacheWriteInputTokens,
    entry.cacheReadInputTokens, entry.outputTokens, entry.totalTokens]

/-- `validateTextGenerationUsageAccountingV2`. The checks of the entry's shape, of its version and
of its enumerations are in its type. -/
def validateTextGenerationUsageAccountingV2 (entry : Accounting) : AccountingResult :=
  if (trim entry.modelKey).isEmpty then .usageMismatch "model_key_invalid"
  else if entry.toolCode.join.any fun code => (trim code).isEmpty then
    .usageMismatch "tool_code_invalid"
  else if !entry.tokenValues.all (0 ≤ ·) then
    .usageMismatch "token_fields_must_be_non_negative_integers"
  else if entry.totalInputTokens ≠
      entry.uncachedInputTokens + entry.cacheWriteInputTokens + entry.cacheReadInputTokens then
    .usageMismatch "input_token_partition_mismatch"
  else if entry.totalTokens ≠ entry.totalInputTokens + entry.outputTokens then
    .usageMismatch "total_token_partition_mismatch"
  else .accounted { entry with modelKey := trim entry.modelKey }

/-- What an accounted entry's counts are to one another. -/
structure Accounting.Partitioned (entry : Accounting) : Prop where
  nonneg : ∀ tokens ∈ entry.tokenValues, 0 ≤ tokens
  input : entry.totalInputTokens =
    entry.uncachedInputTokens + entry.cacheWriteInputTokens + entry.cacheReadInputTokens
  total : entry.totalTokens = entry.totalInputTokens + entry.outputTokens

theorem validate_accounted {draft entry : Accounting}
    (accounted : validateTextGenerationUsageAccountingV2 draft = .accounted entry) :
    entry = { draft with modelKey := trim draft.modelKey } ∧ draft.Partitioned ∧
      ¬ (trim draft.modelKey).isEmpty := by
  unfold validateTextGenerationUsageAccountingV2 at accounted
  split at accounted
  · cases accounted
  · rename_i named
    split at accounted
    · cases accounted
    · split at accounted
      · cases accounted
      · rename_i counts
        split at accounted
        · cases accounted
        · rename_i input
          split at accounted
          · cases accounted
          · rename_i total
            refine ⟨(AccountingResult.accounted.inj accounted).symm, ⟨?_, ?_, ?_⟩, named⟩
            · simpa using counts
            · simpa using input
            · simpa using total

/-! ## Reading the usage object -/

def readUsageInteger (row : Row) (key : String) : Option Int :=
  match row key with
  | .number n => if n.isInt ∧ 0 ≤ n then some n.num else none
  | _ => none

def readNestedUsageInteger (row : Row) (containerKey key : String) : Option Int :=
  match row containerKey with
  | .object container => readUsageInteger container key
  | _ => none

/-- What is read is the field's number. -/
theorem readUsageInteger_eq_some {row : Row} {key : String} {tokens : Int} :
    readUsageInteger row key = some tokens ↔ row key = .number tokens ∧ 0 ≤ tokens := by
  unfold readUsageInteger
  constructor
  · intro read
    split at read
    · rename_i n number
      split at read
      · rename_i valid
        obtain rfl : n.num = tokens := Option.some.inj read
        exact ⟨by rw [number, ← Rat.eq_num_of_isInt valid.1], Rat.num_nonneg.mpr valid.2⟩
      · cases read
    · cases read
  · rintro ⟨number, nonneg⟩
    have integer : (tokens : Rat).isInt = true := rfl
    simp only [number, integer, Rat.intCast_nonneg.mpr nonneg, and_self, if_true, Rat.num_intCast]

inductive PromptCachePolicy | automatic | explicit
  deriving DecidableEq, Repr

/-- The parameters of `normalizeProviderTextGenerationUsageV2`. A policy that is not passed
differs from one that is null. -/
structure NormalizeParams where
  providerKey : ProviderKey
  modelKey : String
  stepType : StepType
  modelRole : Option ModelRole
  responseUsage : Option Row
  promptCachePolicy : Option (Option PromptCachePolicy)
  toolCode : Option (Option String)

/-- The four input counts, each missing where the provider does not report it. -/
structure InputComponents where
  totalInputTokens : Option Int
  uncachedInputTokens : Option Int
  cacheWriteInputTokens : Option Int
  cacheReadInputTokens : Option Int
  deriving DecidableEq, Repr

def openaiComponents (policy : Option PromptCachePolicy) (usage : Row) : InputComponents :=
  let totalInputTokens := readUsageInteger usage "input_tokens"
  match policy with
  | none => ⟨totalInputTokens, totalInputTokens, some 0, some 0⟩
  | some policy =>
    let cacheReadInputTokens :=
      (readNestedUsageInteger usage "input_tokens_details" "cached_tokens").getD 0
    let cacheWriteInputTokens :=
      match policy with
      | .automatic => some 0
      | .explicit => readNestedUsageInteger usage "input_tokens_details" "cache_write_tokens"
    let uncachedInputTokens := do
      some ((← totalInputTokens) - (← cacheWriteInputTokens) - cacheReadInputTokens)
    ⟨totalInputTokens, uncachedInputTokens, cacheWriteInputTokens, some cacheReadInputTokens⟩

def deepseekComponents (usage : Row) : InputComponents where
  totalInputTokens := readUsageInteger usage "prompt_tokens"
  cacheReadInputTokens := readUsageInteger usage "prompt_cache_hit_tokens"
  uncachedInputTokens := readUsageInteger usage "prompt_cache_miss_tokens"
  cacheWriteInputTokens := some 0

def kimiComponents (usage : Row) : InputComponents :=
  let totalInputTokens := readUsageInteger usage "prompt_tokens"
  let cacheReadInputTokens := (readUsageInteger usage "cached_tokens").getD 0
  let uncachedInputTokens := totalInputTokens.bind fun total =>
    if total - cacheReadInputTokens < 0 then none else some (total - cacheReadInputTokens)
  ⟨totalInputTokens, uncachedInputTokens, some 0, some cacheReadInputTokens⟩

def anthropicComponents (usage : Row) : InputComponents :=
  let uncachedInputTokens := readUsageInteger usage "input_tokens"
  let cacheWriteInputTokens := readUsageInteger usage "cache_creation_input_tokens"
  let cacheReadInputTokens := readUsageInteger usage "cache_read_input_tokens"
  let totalInputTokens := do
    some ((← uncachedInputTokens) + (← cacheWriteInputTokens) + (← cacheReadInputTokens))
  ⟨totalInputTokens, uncachedInputTokens, cacheWriteInputTokens, cacheReadInputTokens⟩

/-- The branches of `normalizeProviderTextGenerationUsageV2`; OpenAI's is refused where no policy
is passed. -/
def inputComponents (params : NormalizeParams) (usage : Row) : Option InputComponents :=
  match params.providerKey with
  | .openai => params.promptCachePolicy.map (openaiComponents · usage)
  | .deepseek => some (deepseekComponents usage)
  | .kimi => some (kimiComponents usage)
  | .anthropic => some (anthropicComponents usage)

def reportedOutputTokens (usage : Row) : Option Int :=
  (readUsageInteger usage "output_tokens").or (readUsageInteger usage "completion_tokens")

def normalizeProviderTextGenerationUsageV2 (params : NormalizeParams) : AccountingResult :=
  match params.responseUsage with
  | none => .usageUnavailable "provider_usage_missing"
  | some usage =>
    match inputComponents params usage with
    | none => .usageUnavailable "openai_prompt_cache_policy_missing"
    | some components =>
      match components, reportedOutputTokens usage with
      | ⟨some totalInput, some uncached, some cacheWrite, some cacheRead⟩, some output =>
        validateTextGenerationUsageAccountingV2
          { stepType := params.stepType
            modelRole := params.modelRole
            providerKey := params.providerKey
            modelKey := params.modelKey
            totalInputTokens := totalInput
            uncachedInputTokens := uncached
            cacheWriteInputTokens := cacheWrite
            cacheReadInputTokens := cacheRead
            outputTokens := output
            totalTokens := (readUsageInteger usage "total_tokens").getD (totalInput + output)
            toolCode := params.toolCode }
      | _, _ => .usageUnavailable "provider_usage_component_missing"

/-- The counts of an accounted entry are those that the provider's branch has read, and the entry
carries the request's own labels. -/
theorem normalize_accounted {params : NormalizeParams} {entry : Accounting}
    (accounted : normalizeProviderTextGenerationUsageV2 params = .accounted entry) :
    ∃ usage, params.responseUsage = some usage ∧
      inputComponents params usage = some ⟨some entry.totalInputTokens,
        some entry.uncachedInputTokens, some entry.cacheWriteInputTokens,
        some entry.cacheReadInputTokens⟩ ∧
      reportedOutputTokens usage = some entry.outputTokens ∧ entry.Partitioned ∧
      entry.providerKey = params.providerKey ∧ entry.modelKey = trim params.modelKey ∧
      ¬ (trim params.modelKey).isEmpty := by
  unfold normalizeProviderTextGenerationUsageV2 at accounted
  split at accounted
  · cases accounted
  · rename_i usage given
    split at accounted
    · cases accounted
    · rename_i components read
      split at accounted
      · rename_i output written
        obtain ⟨rfl, partitioned, named⟩ := validate_accounted accounted
        exact ⟨usage, given, read, written,
          ⟨partitioned.nonneg, partitioned.input, partitioned.total⟩, rfl, rfl, named⟩
      · cases accounted

theorem readUsageInteger_nonneg (row : Row) (key : String) :
    0 ≤ (readUsageInteger row key).getD 0 := by
  cases read : readUsageInteger row key with
  | none => exact Int.le_refl 0
  | some tokens =>
    exact (readUsageInteger_eq_some.mp read).2

/-! ## The clients' snapshots -/

/-- `RuntimeUsageSnapshot`. The clients of DeepSeek and Kimi pass the provider's values on as they
are. -/
structure UsageSnapshot where
  providerKey : ProviderKey
  modelKey : String
  inputTokens : Value
  cacheCreationInputTokens : Value
  cachedInputTokens : Value
  outputTokens : Value
  totalTokens : Value

/-- The managed chat providers besides OpenAI. -/
inductive Client | anthropic | deepseek | kimi
  deriving DecidableEq, Repr

def Client.providerKey : Client → ProviderKey
  | .anthropic => .anthropic
  | .deepseek => .deepseek
  | .kimi => .kimi

/-- `readOptionalUsageNumber` of the Anthropic client. -/
def readOptionalUsageNumber (usage : Row) (key : String) : Option Rat :=
  (usage key).number?

def anthropicUsageSnapshot (model : String) (usage : Row) : UsageSnapshot :=
  let rawInputTokens := readOptionalUsageNumber usage "input_tokens"
  let cacheCreationInputTokens := readOptionalUsageNumber usage "cache_creation_input_tokens"
  let cacheReadInputTokens := readOptionalUsageNumber usage "cache_read_input_tokens"
  let outputTokens := readOptionalUsageNumber usage "output_tokens"
  let totalInputTokens :=
    if rawInputTokens.isNone ∧ cacheCreationInputTokens.isNone ∧ cacheReadInputTokens.isNone then
      none
    else
      some (rawInputTokens.getD 0 + cacheCreationInputTokens.getD 0 +
        cacheReadInputTokens.getD 0)
  { providerKey := .anthropic
    modelKey := model
    inputTokens := .ofNumber? rawInputTokens
    cacheCreationInputTokens := .ofNumber? cacheCreationInputTokens
    cachedInputTokens := .ofNumber? cacheReadInputTokens
    outputTokens := .ofNumber? outputTokens
    totalTokens := .ofNumber? (
      if totalInputTokens.isNone ∧ outputTokens.isNone then none
      else some (totalInputTokens.getD 0 + outputTokens.getD 0)) }

def deepseekUsageSnapshot (model : String) (usage : Row) : UsageSnapshot where
  providerKey := .deepseek
  modelKey := model
  inputTokens := (usage "prompt_tokens").orNull
  cacheCreationInputTokens := .null
  cachedInputTokens := (usage "prompt_cache_hit_tokens").orNull
  outputTokens := (usage "completion_tokens").orNull
  totalTokens := (usage "total_tokens").orNull

def kimiUsageSnapshot (model : String) (usage : Row) : UsageSnapshot where
  providerKey := .kimi
  modelKey := model
  inputTokens := (usage "prompt_tokens").orNull
  cacheCreationInputTokens := .null
  cachedInputTokens := (usage "cached_tokens").orNull
  outputTokens := (usage "completion_tokens").orNull
  totalTokens := (usage "total_tokens").orNull

/-- What the client makes of a usage object that is there. -/
def Client.usageSnapshot : Client → String → Row → UsageSnapshot
  | .anthropic => anthropicUsageSnapshot
  | .deepseek => deepseekUsageSnapshot
  | .kimi => kimiUsageSnapshot

/-- `toUsageSnapshot` of each client. -/
def Client.toUsageSnapshot (client : Client) (model : String) (usage : Option Row) :
    Option UsageSnapshot :=
  usage.map (client.usageSnapshot model)

@[simp] theorem usageSnapshot_providerKey (client : Client) (model : String) (usage : Row) :
    (client.usageSnapshot model usage).providerKey = client.providerKey := by
  cases client <;> rfl

@[simp] theorem usageSnapshot_modelKey (client : Client) (model : String) (usage : Row) :
    (client.usageSnapshot model usage).modelKey = model := by
  cases client <;> rfl

end Persai.ModelCost
