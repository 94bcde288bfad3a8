import Mathlib.Data.Rat.Floor
import Mathlib.Tactic.Linarith
import Persai.ModelCost.Usage

/-!
# The two cost paths of the model ledger

`recordTokenMeteredUsageSnapshot` prices the client's snapshot of a usage,
`recordV2ChatMainReplyEvents` the normalised entry of the same usage.
-/

namespace Persai.ModelCost

/-! ## Rounding -/

/-- `Math.round`: halves are rounded up. -/
def mathRound (x : Rat) : Int := ⌊x + 1 / 2⌋

@[simp] theorem mathRound_intCast (n : Int) : mathRound n = n := by
  apply Int.floor_eq_iff.mpr
  constructor <;> linarith

theorem mathRound_le (x : Rat) : (mathRound x : Rat) ≤ x + 1 / 2 :=
  Int.floor_le (x + 1 / 2)

theorem lt_mathRound (x : Rat) : x - 1 / 2 < mathRound x := by
  have above := Int.lt_floor_add_one (x + 1 / 2)
  have unfolded : (mathRound x : Rat) = (⌊x + 1 / 2⌋ : Int) := rfl
  linarith

/-- Rounding two parts apart moves the sum by at most one. -/
theorem mathRound_add_near (a b : Rat) :
    (mathRound (a + b) - (mathRound a + mathRound b)).natAbs ≤ 1 := by
  have below : mathRound (a + b) < mathRound a + mathRound b + 2 := by
    have : (mathRound (a + b) : Rat) < ((mathRound a + mathRound b + 2 : Int) : Rat) := by
      push_cast
      linarith [mathRound_le (a + b), lt_mathRound a, lt_mathRound b]
    exact_mod_cast this
  have above : mathRound a + mathRound b < mathRound (a + b) + 2 := by
    have : ((mathRound a + mathRound b : Int) : Rat) < ((mathRound (a + b) + 2 : Int) : Rat) := by
      push_cast
      linarith [lt_mathRound (a + b), mathRound_le a, mathRound_le b]
    exact_mod_cast this
  omega

/-! ## Prices -/

/-- The prices of a token-metered profile in micros a token; the catalog takes no negative one. -/
structure TokenPricing where
  inputPer1M : Rat
  cacheCreationInputPer1M : Rat
  cachedInputPer1M : Rat
  outputPer1M : Rat
  inputPer1M_nonneg : 0 ≤ inputPer1M
  cacheCreationInputPer1M_nonneg : 0 ≤ cacheCreationInputPer1M
  cachedInputPer1M_nonneg : 0 ≤ cachedInputPer1M
  outputPer1M_nonneg : 0 ≤ outputPer1M

inductive ModelCapability
  | chat | image | video | speechToText | textToSpeech | ocrOrDocumentParsing
  deriving DecidableEq, Repr

/-- The billing mode with its prices; those of the other modes are not read here. -/
inductive PriceMetadata where
  | tokenMetered (tokenPricing : TokenPricing)
  | timeMetered
  | textCharsMetered
  | fixedOperation
  | tieredOperation

structure Profile where
  capabilities : List ModelCapability
  currency : String
  providerPriceMetadata : PriceMetadata

/-- `findRuntimeProviderCatalogProfileForTimestamp` at the time of the event. -/
abbrev Catalog := ProviderKey → String → Option Profile

/-- The prices of a profile that is token-metered and for chat. -/
def Profile.chatTokenPricing? (profile : Profile) : Option TokenPricing :=
  match profile.providerPriceMetadata with
  | .tokenMetered pricing => if .chat ∈ profile.capabilities then some pricing else none
  | _ => none

def resolveCacheCreationInputPricePer1M (pricing : TokenPricing) : Rat :=
  if 0 ≤ pricing.cacheCreationInputPer1M then pricing.cacheCreationInputPer1M else 0

/-! ## The rows of the ledger -/

inductive LedgerPurpose
  | chatMainReply | router | backgroundTask | retrievalHelper | toolHelper | chatHelper
  | documentGeneration | imageGeneration | imageEdit | videoGeneration | stt | tts
  | ocrOrDocumentParsing | knowledgeEmbedding | webSearch | webFetch | browser
  | documentRender
  deriving DecidableEq, Repr

structure LedgerRow (RawUsage : Type) where
  provider : ProviderKey
  model : String
  purpose : LedgerPurpose
  rawUsage : RawUsage
  actualCostMicros : Int
  currency : String

def normalizeModelKey (value : String) : Option String :=
  if (trim value).isEmpty then none else some (trim value)

/-! ## The path of the snapshot -/

def asNonNegativeInteger : Value → Int
  | .number n => if n.isInt ∧ 0 < n then n.num else 0
  | _ => 0

structure TokenUsageFacts where
  inputTokens : Int
  cacheCreationInputTokens : Int
  cachedInputTokens : Int
  outputTokens : Int
  totalTokens : Option Int
  billableInputTokens : Int
  deriving DecidableEq, Repr

def extractTokenUsageFacts (entry : UsageSnapshot) : TokenUsageFacts :=
  let inputTokens := asNonNegativeInteger entry.inputTokens
  { inputTokens
    cacheCreationInputTokens := asNonNegativeInteger entry.cacheCreationInputTokens
    cachedInputTokens := asNonNegativeInteger entry.cachedInputTokens
    outputTokens := asNonNegativeInteger entry.outputTokens
    totalTokens :=
      match entry.totalTokens with
      | .number n => if n.isInt ∧ 0 ≤ n then some n.num else none
      | _ => none
    billableInputTokens := inputTokens }

def calculateTokenMeteredCostMicros (usage : TokenUsageFacts) (pricing : TokenPricing) : Int :=
  let totalMicros := mathRound (
    usage.billableInputTokens * pricing.inputPer1M +
      usage.cacheCreationInputTokens * resolveCacheCreationInputPricePer1M pricing +
      usage.cachedInputTokens * pricing.cachedInputPer1M +
      usage.outputTokens * pricing.outputPer1M)
  max 0 totalMicros

def recordTokenMeteredUsageSnapshot (catalog : Catalog) (purpose : LedgerPurpose)
    (usage : Option UsageSnapshot) : Option (LedgerRow TokenUsageFacts) := do
  let snapshot ← usage
  let model ← normalizeModelKey snapshot.modelKey
  let profile ← catalog snapshot.providerKey model
  let pricing ← profile.chatTokenPricing?
  let facts := extractTokenUsageFacts snapshot
  some
    { provider := snapshot.providerKey
      model
      purpose
      rawUsage := facts
      actualCostMicros := calculateTokenMeteredCostMicros facts pricing
      currency := profile.currency }

/-! ## The path of the normalised entry -/

def isChatMainReplyUsageEntry (stepType : StepType) (modelRole : Option ModelRole) : Bool :=
  modelRole ∈ [some .normalReply, some .premiumReply, some .reasoning] &&
    stepType ∈ [StepType.mainTurn, .toolLoopFollowup]

def isRouterUsageEntry (stepType : StepType) (modelRole : Option ModelRole) : Bool :=
  modelRole = some .systemTool && stepType = .router

def resolveLedgerPurpose (entry : Accounting) (defaultPurpose : LedgerPurpose) :
    Option LedgerPurpose :=
  if isRouterUsageEntry entry.stepType entry.modelRole then some .router
  else if isChatMainReplyUsageEntry entry.stepType entry.modelRole then some defaultPurpose
  else none

structure EntryRawUsage where
  entry : Accounting
  actualCachedInputCostMicros : Int
  noCacheInputCostMicros : Int
  netCacheSavingsMicros : Int
  netCacheSavingsPercent : Option Rat
  outputCostMicros : Int

/-- `actualCachedInputCostMicros`. -/
def inputCostMicros (entry : Accounting) (pricing : TokenPricing) : Int :=
  mathRound (
    entry.uncachedInputTokens * pricing.inputPer1M +
      entry.cacheWriteInputTokens * resolveCacheCreationInputPricePer1M pricing +
      entry.cacheReadInputTokens * pricing.cachedInputPer1M)

def outputCostMicros (entry : Accounting) (pricing : TokenPricing) : Int :=
  mathRound (entry.outputTokens * pricing.outputPer1M)

def entryRow (purpose : LedgerPurpose) (entry : Accounting) (currency : String)
    (pricing : TokenPricing) : LedgerRow EntryRawUsage :=
  let actualCachedInputCostMicros := inputCostMicros entry pricing
  let noCacheInputCostMicros := mathRound (entry.totalInputTokens * pricing.inputPer1M)
  let netCacheSavingsMicros := noCacheInputCostMicros - actualCachedInputCostMicros
  { provider := entry.providerKey
    model := entry.modelKey
    purpose
    rawUsage :=
      { entry
        actualCachedInputCostMicros
        noCacheInputCostMicros
        netCacheSavingsMicros
        netCacheSavingsPercent :=
          if noCacheInputCostMicros = 0 then none
          else some ((netCacheSavingsMicros : Rat) / noCacheInputCostMicros)
        outputCostMicros := outputCostMicros entry pricing }
    actualCostMicros := max 0 (actualCachedInputCostMicros + outputCostMicros entry pricing)
    currency }

def recordV2ChatMainReplyEvents (catalog : Catalog) (defaultPurpose : LedgerPurpose)
    (entries : List Accounting) : List (LedgerRow EntryRawUsage) :=
  entries.filterMap fun entry => do
    let purpose ← resolveLedgerPurpose entry defaultPurpose
    let profile ← catalog entry.providerKey entry.modelKey
    let pricing ← profile.chatTokenPricing?
    some (entryRow purpose entry profile.currency pricing)

/-! ## What the snapshot path reads -/

@[simp] theorem asNonNegativeInteger_null : asNonNegativeInteger .null = 0 := rfl

/-- A count as the snapshot path reads it: what `readUsageInteger` finds, or nothing. -/
@[simp] theorem asNonNegativeInteger_orNull (usage : Row) (key : String) :
    asNonNegativeInteger (usage key).orNull = (readUsageInteger usage key).getD 0 := by
  unfold readUsageInteger
  cases usage key with
  | number n =>
    simp only [Value.orNull, asNonNegativeInteger]
    rcases lt_trichotomy n 0 with negative | rfl | positive
    · simp [not_lt_of_gt negative, not_le_of_gt negative]
    · simp [Rat.isInt]
    · simp only [positive, le_of_lt positive, and_true]
      split <;> simp
  | _ => rfl

@[simp] theorem asNonNegativeInteger_ofNumber? (usage : Row) (key : String) :
    asNonNegativeInteger (.ofNumber? (readOptionalUsageNumber usage key)) =
      (readUsageInteger usage key).getD 0 := by
  rw [← asNonNegativeInteger_orNull]
  unfold readOptionalUsageNumber
  cases usage key <;> rfl

/-- The field that both paths take as the count of cached tokens. -/
def Client.cacheReadKey : Client → String
  | .anthropic => "cache_read_input_tokens"
  | .deepseek => "prompt_cache_hit_tokens"
  | .kimi => "cached_tokens"

/-- The field that the client's snapshot takes as the output count. -/
def Client.outputKey : Client → String
  | .anthropic => "output_tokens"
  | .deepseek | .kimi => "completion_tokens"

/-- The part of an entry's cached tokens that the snapshot counts as input as well. -/
def Client.overlap (client : Client) (entry : Accounting) : Int :=
  match client with
  | .anthropic => 0
  | .deepseek | .kimi => entry.cacheReadInputTokens

/-- The snapshot's counts beside those of the normalised entry. -/
structure CountsOf (client : Client) (usage : Row) (snapshot : UsageSnapshot)
    (entry : Accounting) : Prop where
  billable : (extractTokenUsageFacts snapshot).billableInputTokens =
    entry.uncachedInputTokens + client.overlap entry
  cacheCreation : (extractTokenUsageFacts snapshot).cacheCreationInputTokens =
    entry.cacheWriteInputTokens
  cached : (extractTokenUsageFacts snapshot).cachedInputTokens = entry.cacheReadInputTokens
  output : (extractTokenUsageFacts snapshot).outputTokens =
    (readUsageInteger usage client.outputKey).getD 0
  cacheRead : entry.cacheReadInputTokens =
    (readUsageInteger usage client.cacheReadKey).getD 0

theorem anthropic_counts {usage : Row} {entry : Accounting} (model : String)
    (read : anthropicComponents usage = ⟨some entry.totalInputTokens,
      some entry.uncachedInputTokens, some entry.cacheWriteInputTokens,
      some entry.cacheReadInputTokens⟩) :
    CountsOf .anthropic usage (anthropicUsageSnapshot model usage) entry := by
  simp only [anthropicComponents, InputComponents.mk.injEq] at read
  obtain ⟨-, uncached, cacheWrite, cacheRead⟩ := read
  constructor <;>
    simp [extractTokenUsageFacts, anthropicUsageSnapshot, Client.overlap, Client.outputKey,
      Client.cacheReadKey, uncached, cacheWrite, cacheRead]

theorem deepseek_counts {usage : Row} {entry : Accounting} (model : String)
    (partitioned : entry.Partitioned)
    (read : deepseekComponents usage = ⟨some entry.totalInputTokens,
      some entry.uncachedInputTokens, some entry.cacheWriteInputTokens,
      some entry.cacheReadInputTokens⟩) :
    CountsOf .deepseek usage (deepseekUsageSnapshot model usage) entry := by
  simp only [deepseekComponents, InputComponents.mk.injEq, Option.some.injEq] at read
  obtain ⟨total, uncached, cacheWrite, cacheRead⟩ := read
  have input := partitioned.input
  constructor <;>
    simp [extractTokenUsageFacts, deepseekUsageSnapshot, Client.overlap, Client.outputKey,
      Client.cacheReadKey, total, cacheRead, ← cacheWrite]
  omega

theorem kimi_counts {usage : Row} {entry : Accounting} (model : String)
    (partitioned : entry.Partitioned)
    (read : kimiComponents usage = ⟨some entry.totalInputTokens,
      some entry.uncachedInputTokens, some entry.cacheWriteInputTokens,
      some entry.cacheReadInputTokens⟩) :
    CountsOf .kimi usage (kimiUsageSnapshot model usage) entry := by
  simp only [kimiComponents, InputComponents.mk.injEq, Option.some.injEq] at read
  obtain ⟨total, uncached, cacheWrite, cacheRead⟩ := read
  have input := partitioned.input
  constructor <;>
    simp [extractTokenUsageFacts, kimiUsageSnapshot, Client.overlap, Client.outputKey,
      Client.cacheReadKey, total, cacheRead, ← cacheWrite]
  omega

/-! ## Agreement -/

/-- Both records of one usage, whatever the prices: the costs differ by at most one micro, and no
token of the snapshot's row is priced in two ways. -/
def PathsAgree (client : Client) (modelKey : String) (usage : Row) (entry : Accounting) : Prop :=
  ∀ (catalog : Catalog) (purpose defaultPurpose : LedgerPurpose),
    ∀ snapshotRow ∈ recordTokenMeteredUsageSnapshot catalog purpose
      (client.toUsageSnapshot modelKey (some usage)),
    ∀ entryRow ∈ recordV2ChatMainReplyEvents catalog defaultPurpose [entry],
      (snapshotRow.actualCostMicros - entryRow.actualCostMicros).natAbs ≤ 1 ∧
      snapshotRow.rawUsage.billableInputTokens + snapshotRow.rawUsage.cacheCreationInputTokens +
        snapshotRow.rawUsage.cachedInputTokens ≤ entry.totalInputTokens

/-- The provider counts cached tokens apart from the input, or there are none. -/
def CachedPartApart (client : Client) (usage : Row) : Prop :=
  client = .anthropic ∨ (readUsageInteger usage client.cacheReadKey).getD 0 = 0

/-- The usage names its output count in one field only, or in both alike. -/
def OutputNamedOnce (client : Client) (usage : Row) : Prop :=
  match client with
  | .anthropic =>
    (readUsageInteger usage "output_tokens").isSome ∨
      readUsageInteger usage "completion_tokens" = some 0
  | .deepseek | .kimi =>
    readUsageInteger usage "output_tokens" = none ∨
      readUsageInteger usage "output_tokens" =
        some ((readUsageInteger usage "completion_tokens").getD 0)

theorem outputNamedOnce_iff {client : Client} {usage : Row} {output : Int}
    (reported : reportedOutputTokens usage = some output) :
    OutputNamedOnce client usage ↔
      (readUsageInteger usage client.outputKey).getD 0 = output := by
  unfold reportedOutputTokens at reported
  cases named : readUsageInteger usage "output_tokens" with
  | none =>
    rw [named, Option.none_or] at reported
    cases client <;> simp [OutputNamedOnce, Client.outputKey, named, reported]
    omega
  | some tokens =>
    rw [named, Option.some_or, Option.some.injEq] at reported
    cases client <;> simp [OutputNamedOnce, Client.outputKey, named, reported]
    · omega
    · omega

theorem counts_of_accounted {client : Client} {params : NormalizeParams} {usage : Row}
    {entry : Accounting} (provider : params.providerKey = client.providerKey)
    (partitioned : entry.Partitioned)
    (read : inputComponents params usage = some ⟨some entry.totalInputTokens,
      some entry.uncachedInputTokens, some entry.cacheWriteInputTokens,
      some entry.cacheReadInputTokens⟩) :
    CountsOf client usage (client.usageSnapshot params.modelKey usage) entry := by
  unfold inputComponents at read
  cases client with
  | anthropic =>
    rw [provider] at read
    exact anthropic_counts params.modelKey (Option.some.inj read)
  | deepseek =>
    rw [provider] at read
    exact deepseek_counts params.modelKey partitioned (Option.some.inj read)
  | kimi =>
    rw [provider] at read
    exact kimi_counts params.modelKey partitioned (Option.some.inj read)

theorem overlap_eq_zero_iff {client : Client} {usage : Row} {snapshot : UsageSnapshot}
    {entry : Accounting} (counts : CountsOf client usage snapshot entry) :
    client.overlap entry = 0 ↔ CachedPartApart client usage := by
  unfold CachedPartApart
  rw [← counts.cacheRead]
  cases client <;> simp [Client.overlap]

/-- A catalog that holds one token-metered chat profile. -/
def catalogOf (pricing : TokenPricing) : Catalog := fun _ _ =>
  some
    { capabilities := [.chat], currency := "USD", providerPriceMetadata := .tokenMetered pricing }

theorem mem_recordTokenMeteredUsageSnapshot {catalog : Catalog} {purpose : LedgerPurpose}
    {snapshot : UsageSnapshot} {row : LedgerRow TokenUsageFacts} :
    row ∈ recordTokenMeteredUsageSnapshot catalog purpose (some snapshot) ↔
      ¬ (trim snapshot.modelKey).isEmpty ∧
      ∃ profile pricing, catalog snapshot.providerKey (trim snapshot.modelKey) = some profile ∧
        profile.chatTokenPricing? = some pricing ∧
        row = ⟨snapshot.providerKey, trim snapshot.modelKey, purpose,
          extractTokenUsageFacts snapshot,
          calculateTokenMeteredCostMicros (extractTokenUsageFacts snapshot) pricing,
          profile.currency⟩ := by
  simp only [recordTokenMeteredUsageSnapshot, normalizeModelKey, Option.mem_def,
    Option.bind_eq_bind, Option.bind_some, Option.bind_eq_some_iff]
  split
  · grind
  · grind

theorem mem_recordV2ChatMainReplyEvents {catalog : Catalog} {defaultPurpose : LedgerPurpose}
    {entry : Accounting} {row : LedgerRow EntryRawUsage} :
    row ∈ recordV2ChatMainReplyEvents catalog defaultPurpose [entry] ↔
      ∃ purpose profile pricing, resolveLedgerPurpose entry defaultPurpose = some purpose ∧
        catalog entry.providerKey entry.modelKey = some profile ∧
        profile.chatTokenPricing? = some pricing ∧
        row = entryRow purpose entry profile.currency pricing := by
  simp only [recordV2ChatMainReplyEvents, List.mem_filterMap, List.mem_singleton,
    exists_eq_left, Option.bind_eq_bind, Option.bind_eq_some_iff, Option.some.injEq]
  grind

/-- The same, of the two cost formulas. -/
def CostsAgree (facts : TokenUsageFacts) (entry : Accounting) : Prop :=
  (∀ pricing, (calculateTokenMeteredCostMicros facts pricing -
    max 0 (inputCostMicros entry pricing + outputCostMicros entry pricing)).natAbs ≤ 1) ∧
  facts.billableInputTokens + facts.cacheCreationInputTokens + facts.cachedInputTokens ≤
    entry.totalInputTokens

/-- The agreement of the records is one of the two cost formulas. -/
theorem pathsAgree_iff_costs {client : Client} {modelKey : String} {usage : Row}
    {entry : Accounting} (named : ¬ (trim modelKey).isEmpty)
    (provider : entry.providerKey = client.providerKey) (model : entry.modelKey = trim modelKey)
    (recorded : isRouterUsageEntry entry.stepType entry.modelRole ∨
      isChatMainReplyUsageEntry entry.stepType entry.modelRole) :
    PathsAgree client modelKey usage entry ↔
      CostsAgree (extractTokenUsageFacts (client.usageSnapshot modelKey usage)) entry := by
  constructor
  · intro agree
    obtain ⟨purpose, resolved⟩ :
        ∃ purpose, resolveLedgerPurpose entry .chatMainReply = some purpose := by
      unfold resolveLedgerPurpose
      split
      · exact ⟨_, rfl⟩
      · rename_i notRouter
        exact ⟨_, if_pos (recorded.resolve_left notRouter)⟩
    have at_prices (pricing : TokenPricing) := agree (catalogOf pricing) .chatMainReply
      .chatMainReply _ (mem_recordTokenMeteredUsageSnapshot.mpr
        ⟨by simpa using named, _, pricing, rfl, rfl, rfl⟩) _
      (mem_recordV2ChatMainReplyEvents.mpr ⟨purpose, _, pricing, resolved, rfl, rfl, rfl⟩)
    refine ⟨fun pricing => (at_prices pricing).1, (at_prices ⟨0, 0, 0, 0, ?_, ?_, ?_, ?_⟩).2⟩ <;>
      exact le_refl 0
  · rintro ⟨costs, apart⟩ catalog purpose defaultPurpose snapshotRow snapshotRecorded entryRow
      entryRecorded
    obtain ⟨-, profile, pricing, found, priced, rfl⟩ :=
      mem_recordTokenMeteredUsageSnapshot.mp snapshotRecorded
    obtain ⟨_, profile', pricing', -, found', priced', rfl⟩ :=
      mem_recordV2ChatMainReplyEvents.mp entryRecorded
    rw [provider, model] at found'
    rw [usageSnapshot_providerKey, usageSnapshot_modelKey] at found
    obtain rfl : profile = profile' := Option.some.inj (found.symm.trans found')
    obtain rfl : pricing = pricing' := Option.some.inj (priced.symm.trans priced')
    exact ⟨costs pricing, apart⟩

theorem costs_near {facts : TokenUsageFacts} {entry : Accounting} (pricing : TokenPricing)
    (input : facts.billableInputTokens = entry.uncachedInputTokens)
    (cacheCreation : facts.cacheCreationInputTokens = entry.cacheWriteInputTokens)
    (cached : facts.cachedInputTokens = entry.cacheReadInputTokens)
    (output : facts.outputTokens = entry.outputTokens) :
    (calculateTokenMeteredCostMicros facts pricing -
      max 0 (inputCostMicros entry pricing + outputCostMicros entry pricing)).natAbs ≤ 1 := by
  unfold calculateTokenMeteredCostMicros inputCostMicros outputCostMicros
  dsimp only
  rw [input, cacheCreation, cached, output]
  have near := mathRound_add_near
    (entry.uncachedInputTokens * pricing.inputPer1M +
      entry.cacheWriteInputTokens * resolveCacheCreationInputPricePer1M pricing +
      entry.cacheReadInputTokens * pricing.cachedInputPer1M)
    (entry.outputTokens * pricing.outputPer1M)
  omega

/-- Only input tokens have a price. -/
def inputPriced : TokenPricing :=
  ⟨2, 0, 0, 0, by norm_num, le_refl 0, le_refl 0, le_refl 0⟩

/-- Only output tokens have a price. -/
def outputPriced : TokenPricing :=
  ⟨0, 0, 0, 2, le_refl 0, le_refl 0, le_refl 0, by norm_num⟩

theorem input_eq_of_near {facts : TokenUsageFacts} {entry : Accounting}
    (billable : 0 ≤ facts.billableInputTokens) (uncached : 0 ≤ entry.uncachedInputTokens)
    (near : (calculateTokenMeteredCostMicros facts inputPriced -
      max 0 (inputCostMicros entry inputPriced +
        outputCostMicros entry inputPriced)).natAbs ≤ 1) :
    facts.billableInputTokens = entry.uncachedInputTokens := by
  have snapshot : calculateTokenMeteredCostMicros facts inputPriced =
      max 0 (facts.billableInputTokens * 2) := by
    unfold calculateTokenMeteredCostMicros
    rw [← mathRound_intCast (facts.billableInputTokens * 2)]
    simp [inputPriced, resolveCacheCreationInputPricePer1M]
  have entryInput : inputCostMicros entry inputPriced = entry.uncachedInputTokens * 2 := by
    unfold inputCostMicros
    rw [← mathRound_intCast (entry.uncachedInputTokens * 2)]
    simp [inputPriced, resolveCacheCreationInputPricePer1M]
  have entryOutput : outputCostMicros entry inputPriced = 0 := by
    rw [← mathRound_intCast 0]
    simp [inputPriced, outputCostMicros]
  rw [snapshot, entryInput, entryOutput] at near
  omega

theorem output_eq_of_near {facts : TokenUsageFacts} {entry : Accounting}
    (read : 0 ≤ facts.outputTokens) (reported : 0 ≤ entry.outputTokens)
    (near : (calculateTokenMeteredCostMicros facts outputPriced -
      max 0 (inputCostMicros entry outputPriced +
        outputCostMicros entry outputPriced)).natAbs ≤ 1) :
    facts.outputTokens = entry.outputTokens := by
  have snapshot : calculateTokenMeteredCostMicros facts outputPriced =
      max 0 (facts.outputTokens * 2) := by
    unfold calculateTokenMeteredCostMicros
    rw [← mathRound_intCast (facts.outputTokens * 2)]
    simp [outputPriced, resolveCacheCreationInputPricePer1M]
  have entryInput : inputCostMicros entry outputPriced = 0 := by
    unfold inputCostMicros
    rw [← mathRound_intCast 0]
    simp [outputPriced, resolveCacheCreationInputPricePer1M]
  have entryOutput : outputCostMicros entry outputPriced = entry.outputTokens * 2 := by
    rw [← mathRound_intCast (entry.outputTokens * 2)]
    simp [outputPriced, outputCostMicros]
  rw [snapshot, entryInput, entryOutput] at near
  omega

theorem costsAgree_iff {client : Client} {usage : Row} {snapshot : UsageSnapshot}
    {entry : Accounting} (counts : CountsOf client usage snapshot entry)
    (partitioned : entry.Partitioned) :
    CostsAgree (extractTokenUsageFacts snapshot) entry ↔
      client.overlap entry = 0 ∧
        (readUsageInteger usage client.outputKey).getD 0 = entry.outputTokens := by
  have uncached : 0 ≤ entry.uncachedInputTokens :=
    partitioned.nonneg _ (by simp [Accounting.tokenValues])
  have cacheRead : 0 ≤ entry.cacheReadInputTokens :=
    partitioned.nonneg _ (by simp [Accounting.tokenValues])
  have output : 0 ≤ entry.outputTokens :=
    partitioned.nonneg _ (by simp [Accounting.tokenValues])
  have overlap : 0 ≤ client.overlap entry := by
    cases client <;> simp [Client.overlap, cacheRead]
  have billable := counts.billable
  have outputRead := counts.output
  have reads := readUsageInteger_nonneg usage client.outputKey
  constructor
  · rintro ⟨costs, -⟩
    have input := input_eq_of_near (by omega) uncached (costs inputPriced)
    have written := output_eq_of_near (by omega) output (costs outputPriced)
    omega
  · rintro ⟨none_twice, named⟩
    have partition := partitioned.input
    have cacheCreation := counts.cacheCreation
    have cached := counts.cached
    refine ⟨fun pricing => ?_, by omega⟩
    exact costs_near pricing (by omega) cacheCreation cached (by omega)

/-- The two cost paths agree on an accounted usage exactly when the provider's input count leaves
the cached tokens out, or there are none, and the output count is in one field. -/
theorem pathsAgree_iff (client : Client) (params : NormalizeParams) (usage : Row)
    (entry : Accounting) (provider : params.providerKey = client.providerKey)
    (given : params.responseUsage = some usage)
    (accounted : normalizeProviderTextGenerationUsageV2 params = .accounted entry)
    (recorded : isRouterUsageEntry entry.stepType entry.modelRole ∨
      isChatMainReplyUsageEntry entry.stepType entry.modelRole) :
    PathsAgree client params.modelKey usage entry ↔
      CachedPartApart client usage ∧ OutputNamedOnce client usage := by
  obtain ⟨usage', given', read, reported, partitioned, entryProvider, model, named⟩ :=
    normalize_accounted accounted
  obtain rfl : usage' = usage := Option.some.inj (given'.symm.trans given)
  have counts := counts_of_accounted provider partitioned read
  rw [pathsAgree_iff_costs named (entryProvider.trans provider) model recorded,
    costsAgree_iff counts partitioned, overlap_eq_zero_iff counts,
    outputNamedOnce_iff reported]

/-- A usage object with these number fields. -/
def rowOf (fields : List (String × Rat)) : Row := fun key =>
  match fields.lookup key with
  | some n => .number n
  | none => .undefined

/-- The request of a main turn's reply. -/
def mainTurn (provider : ProviderKey) (modelKey : String) (usage : Row) : NormalizeParams where
  providerKey := provider
  modelKey := modelKey
  stepType := .mainTurn
  modelRole := some .normalReply
  responseUsage := some usage
  promptCachePolicy := none
  toolCode := none

theorem pathsAgree_anthropic_cached :
    PathsAgree .anthropic "claude-sonnet-4-6"
      (rowOf [("input_tokens", 20), ("cache_creation_input_tokens", 5),
        ("cache_read_input_tokens", 80), ("output_tokens", 10)])
      ⟨.mainTurn, some .normalReply, .anthropic, "claude-sonnet-4-6", 105, 20, 5, 80, 10, 115,
        none⟩ :=
  (pathsAgree_iff .anthropic (mainTurn .anthropic "claude-sonnet-4-6" _) _ _ rfl rfl
    (by decide +kernel) (by decide)).mpr ⟨.inl rfl, .inl (by decide +kernel)⟩

/-- DeepSeek counts its 80 cached tokens among the 100 of the prompt: the snapshot path prices
them as input and as cached input. -/
theorem deepseek_cached_priced_twice :
    let usage := rowOf [("prompt_tokens", 100), ("prompt_cache_hit_tokens", 80),
      ("prompt_cache_miss_tokens", 20), ("completion_tokens", 10)]
    let entry : Accounting := ⟨.mainTurn, some .normalReply, .deepseek, "deepseek-chat", 100, 20, 0,
      80, 10, 110, none⟩
    normalizeProviderTextGenerationUsageV2 (mainTurn .deepseek "deepseek-chat" usage) =
      .accounted entry ∧ ¬ PathsAgree .deepseek "deepseek-chat" usage entry := by
  refine ⟨by decide +kernel, fun agree => ?_⟩
  have costs := (pathsAgree_iff_costs (by decide +kernel) rfl (by decide +kernel)
    (by decide)).mp agree
  have equal := input_eq_of_near (by decide +kernel) (by decide) (costs.1 inputPriced)
  exact absurd equal (by decide +kernel)

end Persai.ModelCost
