import Persai.Affordable
import Persai.Text
import Persai.Hydration.Messages

/-!
# The window of a turn

What the provider is given of a conversation: the stable blocks, and of the messages that no
summary covers the newest ones that the token budget affords. The budget is applied to the
messages and then to both. The last message is kept in any case, and the message of the turn
wherever it stands only as far as the budget reaches.
-/

namespace Persai.Hydration

/-! ## Tokens -/

def approxCharsPerToken : Nat := 4

def messageOverheadTokens : Nat := 12

def directImageBlockTokens : Nat := 425

def directPdfBlockTokens : Nat := 900

def estimateTextTokens (text : String) : Nat :=
  max 1 ((utf16Length text + (approxCharsPerToken - 1)) / approxCharsPerToken)

def estimateProviderGatewayContentTokens : MessageContent → Nat
  | .text text => estimateTextTokens text
  | .blocks blocks => (blocks.map fun block =>
      match block with
      | .text text => estimateTextTokens text
      | .image _ => directImageBlockTokens
      | .pdf _ => directPdfBlockTokens).sum

def estimateProviderGatewayMessageTokens (message : ProviderGatewayTextMessage) : Nat :=
  let replayTokens := (message.priorToolExchanges.map estimateTextTokens).sum
  messageOverheadTokens + estimateProviderGatewayContentTokens message.content + replayTokens

/-! ## The messages of a turn -/

/-- The request of a turn, with what its attachments and the tool exchanges of earlier messages
come to. -/
structure TurnRequest where
  idempotencyKey : String
  text : String
  attachments : List String := []
  telegramGroup : Bool := false
  /-- The blocks of stored attachments, or else of those of the request. -/
  directInputBlocks : List String → List String → List ContentBlock
  /-- The exchanges to replay with a message, by its id, given all messages. -/
  priorToolExchanges : List CanonicalChatMessage → String → List String

structure ReusableCompactionSummary where
  summaryText : String
  summarizedMessageCount : Nat
  preservedRecentMessageCount : Nat
  deriving DecidableEq, Repr

/-- What a message for the provider stands for. -/
inductive MessageSource where
  | stable
  | stored (message : CanonicalChatMessage)
  | inbound
  deriving DecidableEq, Repr

structure HydratedMessage where
  source : MessageSource
  message : ProviderGatewayTextMessage
  deriving DecidableEq, Repr

def HydratedMessage.tokens (hydrated : HydratedMessage) : Nat :=
  estimateProviderGatewayMessageTokens hydrated.message

namespace TurnRequest

def isCurrent (input : TurnRequest) (message : CanonicalChatMessage) : Bool :=
  message.id == input.idempotencyKey

def buildHydratedMessageContent (input : TurnRequest) (author : Author) (baseContent : String)
    (attachments fallbackAttachments : List String) (allowDirectAttachmentInput : Bool) :
    MessageContent :=
  let textContent := buildHydratedMessageTextContent author baseContent
    (!attachments.isEmpty || !fallbackAttachments.isEmpty)
  let blocks :=
    if allowDirectAttachmentInput then input.directInputBlocks attachments fallbackAttachments
    else []
  if blocks.isEmpty then .text textContent else .blocks (.text textContent :: blocks)

def withTelegramGroupSenderContext (input : TurnRequest) (content : MessageContent)
    (message : CanonicalChatMessage) : MessageContent :=
  match content, message.telegramSender with
  | .text text, some sender =>
    if input.telegramGroup then .text ("Telegram sender: " ++ sender ++ "\n" ++ text)
    else .text text
  | content, _ => content

/-- The content of a message on the wire. -/
def wireContent (input : TurnRequest) (message : CanonicalChatMessage) : MessageContent :=
  if input.isCurrent message then
    input.buildHydratedMessageContent message.author input.text message.attachments
      input.attachments (message.author == .user)
  else
    let content := withTruncationMarker
      (input.buildHydratedMessageContent message.author message.content message.attachments []
        false) message
    if message.author == .user then input.withTelegramGroupSenderContext content message
    else content

/-- One message, unless it leaves nothing on the wire and is not the one of the turn. -/
def hydrate (input : TurnRequest) (replay : String → List String) (message : CanonicalChatMessage) :
    Option HydratedMessage :=
  let content := input.wireContent message
  if !input.isCurrent message && isProviderWireEmptyAssistantAttachmentOnly message.author content
      message.attachments.length then none
  else
    some
      { source := .stored message
        message :=
          { role := toProviderRole message.author
            content
            priorToolExchanges :=
              if !input.isCurrent message && message.author == .assistant then replay message.id
              else [] } }

def createCurrentUserMessage (input : TurnRequest) : HydratedMessage :=
  { source := .inbound
    message :=
      { role := .user
        content := input.buildHydratedMessageContent .user input.text [] input.attachments true } }

def replayMap (input : TurnRequest) (messages : List CanonicalChatMessage) : String → List String :=
  input.priorToolExchanges (messages.filter fun message =>
    input.isCurrent message || isHydratableCanonicalMessage message)

/-- The loop of `hydrateCanonicalMessageSequence`, and the message of the turn if it was not
among the messages. -/
def hydrateAll (input : TurnRequest) (messages : List CanonicalChatMessage) :
    List HydratedMessage :=
  messages.filterMap (input.hydrate (input.replayMap messages)) ++
    if messages.any input.isCurrent then [] else [input.createCurrentUserMessage]

/-- Some of the messages are kept, and from the end back those that the budget affords. -/
def limitHydratedMessages (messages : List HydratedMessage) (targetContextBudget : Nat)
    (preserveLeadingMessageCount : Nat) : List HydratedMessage :=
  let leading := messages.take preserveLeadingMessageCount
  let targetBudget := max 1 targetContextBudget
  leading ++ Affordable.latest HydratedMessage.tokens targetBudget
    (Affordable.total HydratedMessage.tokens leading) (messages.drop preserveLeadingMessageCount)

def hydrateCanonicalMessageSequence (input : TurnRequest) (messages : List CanonicalChatMessage)
    (targetContextBudget : Nat) : List HydratedMessage :=
  limitHydratedMessages (input.hydrateAll messages) targetContextBudget 0

def stableBlocks (messages : List (Option ProviderGatewayTextMessage)) : List HydratedMessage :=
  messages.filterMap fun message => message.map (⟨.stable, ·⟩)

def composeWithCarryOverDurableMemoryAndConversation
    (carryOver core : Option ProviderGatewayTextMessage)
    (conversationMessages : List HydratedMessage) (targetContextBudget : Nat) :
    List HydratedMessage :=
  let stable := stableBlocks [core, carryOver]
  if stable.isEmpty then conversationMessages
  else limitHydratedMessages (stable ++ conversationMessages) targetContextBudget stable.length

def rollingSessionSynopsisHeader : String :=
  "[Rolling session synopsis — what we have established so far in this conversation]"

def summaryMessage (summary : ReusableCompactionSummary) : ProviderGatewayTextMessage :=
  { role := .assistant
    content := .text (rollingSessionSynopsisHeader ++ "\n" ++ summary.summaryText) }

/-- The summary covers the first messages and all that it was made from are still there. -/
def usable (summary : ReusableCompactionSummary) (hydratableCount : Nat) : Bool :=
  decide (0 < min summary.summarizedMessageCount hydratableCount) &&
    decide (summary.summarizedMessageCount + summary.preservedRecentMessageCount ≤ hydratableCount)

def hydrateCanonicalWebMessages (input : TurnRequest) (storedMessages : List CanonicalChatMessage)
    (core carryOver : Option ProviderGatewayTextMessage)
    (reusableSummary : Option ReusableCompactionSummary) (targetContextBudget : Nat) :
    List HydratedMessage :=
  let hydratableMessages := hydratable storedMessages
  match reusableSummary.filter (usable · hydratableMessages.length) with
  | none =>
    composeWithCarryOverDurableMemoryAndConversation carryOver core
      (input.hydrateCanonicalMessageSequence hydratableMessages targetContextBudget)
      targetContextBudget
  | some summary =>
    let summaryBoundary := min summary.summarizedMessageCount hydratableMessages.length
    let recentMessages := hydratableMessages.drop summaryBoundary
    let stable := stableBlocks [core, carryOver, some (summaryMessage summary)]
    limitHydratedMessages
      (stable ++ input.hydrateCanonicalMessageSequence recentMessages targetContextBudget)
      targetContextBudget stable.length

/-! ## What the window is -/

section
variable (input : TurnRequest) (storedMessages : List CanonicalChatMessage)
  (core carryOver : Option ProviderGatewayTextMessage)
  (reusableSummary : Option ReusableCompactionSummary) (targetContextBudget : Nat)

def usedSummary : Option ReusableCompactionSummary :=
  reusableSummary.filter (usable · (hydratable storedMessages).length)

/-- The hydratable messages that the summary does not cover. -/
def recentMessages : List CanonicalChatMessage :=
  (hydratable storedMessages).drop <| (usedSummary storedMessages reusableSummary).elim 0
    fun summary => min summary.summarizedMessageCount (hydratable storedMessages).length

def stableMessages : List HydratedMessage :=
  stableBlocks [core, carryOver, (usedSummary storedMessages reusableSummary).map summaryMessage]

def isTurnMessage (hydrated : HydratedMessage) : Bool :=
  match hydrated.source with
  | .stable => false
  | .stored message => input.isCurrent message
  | .inbound => true

/-- The stable messages, and then an end of the recent ones, with the message of the turn, such
that any longer one is beyond the budget and it is itself so only if it is a single message. -/
def GapFree : Prop :=
  let recent := input.hydrateAll (recentMessages storedMessages reusableSummary)
  let stable := stableMessages storedMessages core carryOver reusableSummary
  let tokens := Affordable.total HydratedMessage.tokens
  ∃ run,
    input.hydrateCanonicalWebMessages storedMessages core carryOver reusableSummary
        targetContextBudget = stable ++ run ∧
      run <:+ recent ∧ (∃ hydrated ∈ run, isTurnMessage input hydrated = true) ∧
      (∀ longer, longer <:+ recent → run.length < longer.length →
        max 1 targetContextBudget < tokens stable + tokens longer) ∧
      (run.length ≤ 1 ∨ tokens stable + tokens run ≤ max 1 targetContextBudget)

/-- The message of the turn is not among the recent ones, or the last of them on the wire, or
the budget affords it with all that comes after it. -/
def CurrentAffordable : Prop :=
  let recent := recentMessages storedMessages reusableSummary
  let stable := stableMessages storedMessages core carryOver reusableSummary
  let tokens := Affordable.total HydratedMessage.tokens
  let wire := List.filterMap (input.hydrate (input.replayMap recent))
  (∀ message ∈ recent, input.isCurrent message = false) ∨
    ∃ before current after, recent = before ++ current :: after ∧
      input.isCurrent current = true ∧
      (wire after = [] ∨
        tokens stable + tokens (wire (current :: after)) ≤ max 1 targetContextBudget)

end

section
variable {input : TurnRequest} {storedMessages : List CanonicalChatMessage}
  {core carryOver : Option ProviderGatewayTextMessage}
  {reusableSummary : Option ReusableCompactionSummary} {targetContextBudget : Nat}

/-- After leading messages that are kept, the newest ones that the budget affords. -/
theorem limitHydratedMessages_append (stable messages : List HydratedMessage)
    (targetContextBudget : Nat) :
    limitHydratedMessages (stable ++ messages) targetContextBudget stable.length =
      stable ++ Affordable.latest HydratedMessage.tokens (max 1 targetContextBudget)
        (Affordable.total HydratedMessage.tokens stable) messages := by
  simp [limitHydratedMessages]

theorem sequence_isLatest (input : TurnRequest) (messages : List CanonicalChatMessage)
    (targetContextBudget : Nat) :
    Affordable.IsLatest HydratedMessage.tokens (max 1 targetContextBudget) 0
      (input.hydrateAll messages)
      (input.hydrateCanonicalMessageSequence messages targetContextBudget) := by
  have latest := Affordable.isLatest_latest HydratedMessage.tokens
    (max 1 targetContextBudget) 0 (input.hydrateAll messages)
  have same := limitHydratedMessages_append [] (input.hydrateAll messages) targetContextBudget
  rw [hydrateCanonicalMessageSequence]
  exact same ▸ latest

/-- The two cuts are one. -/
theorem window_isLatest (input : TurnRequest) (storedMessages : List CanonicalChatMessage)
    (core carryOver : Option ProviderGatewayTextMessage)
    (reusableSummary : Option ReusableCompactionSummary) (targetContextBudget : Nat) :
    let stable := stableMessages storedMessages core carryOver reusableSummary
    ∃ run,
      input.hydrateCanonicalWebMessages storedMessages core carryOver reusableSummary
          targetContextBudget = stable ++ run ∧
        Affordable.IsLatest HydratedMessage.tokens (max 1 targetContextBudget)
          (Affordable.total HydratedMessage.tokens stable)
          (input.hydrateAll (recentMessages storedMessages reusableSummary)) run := by
  intro stable
  have first := sequence_isLatest input (recentMessages storedMessages reusableSummary)
    targetContextBudget
  have second := first.again (Affordable.isLatest_latest _ _
    (Affordable.total HydratedMessage.tokens stable) _)
  unfold hydrateCanonicalWebMessages
  cases used : usedSummary storedMessages reusableSummary with
  | none =>
    have all : recentMessages storedMessages reusableSummary = hydratable storedMessages := by
      simp [recentMessages, used]
    have blocks : stable = stableBlocks [core, carryOver] := by
      simp [stable, stableMessages, stableBlocks, used, List.filterMap_cons]
    rw [usedSummary] at used
    simp only [used, composeWithCarryOverDurableMemoryAndConversation, ← blocks]
    rw [← all]
    split
    · rename_i empty
      have empty : stable = [] := List.isEmpty_iff.mp empty
      refine ⟨_, by rw [empty, List.nil_append], ?_⟩
      rwa [empty]
    · rw [limitHydratedMessages_append]
      exact ⟨_, rfl, second⟩
  | some summary =>
    have some_recent : recentMessages storedMessages reusableSummary =
        (hydratable storedMessages).drop
          (min summary.summarizedMessageCount (hydratable storedMessages).length) := by
      simp [recentMessages, used]
    have blocks : stable = stableBlocks [core, carryOver, some (summaryMessage summary)] := by
      simp [stable, stableMessages, used]
    rw [usedSummary] at used
    simp only [used, ← blocks]
    rw [← some_recent, limitHydratedMessages_append]
    exact ⟨_, rfl, second⟩

theorem source_of_hydrate {replay : String → List String} {message : CanonicalChatMessage}
    {hydrated : HydratedMessage} (some : input.hydrate replay message = some hydrated) :
    hydrated.source = .stored message := by
  unfold hydrate at some
  dsimp only at some
  split at some
  · cases some
  · cases some
    rfl

/-- The message of the turn is always on the wire. -/
theorem hydrate_current (replay : String → List String) {message : CanonicalChatMessage}
    (current : input.isCurrent message = true) :
    ∃ hydrated, input.hydrate replay message = some hydrated := by
  simp [hydrate, current]

/-- What a run holds starts at a message of the list, with all that comes after it. -/
theorem exists_message_of_mem {replay : String → List String} {messages : List CanonicalChatMessage}
    {run : List HydratedMessage} (suffix : run <:+ messages.filterMap (input.hydrate replay))
    {hydrated : HydratedMessage} (mem : hydrated ∈ run) :
    ∃ before message after, messages = before ++ message :: after ∧
      input.hydrate replay message = some hydrated ∧
      (message :: after).filterMap (input.hydrate replay) <:+ run := by
  obtain ⟨earlier, rest⟩ := suffix
  obtain ⟨a, later, split⟩ := List.append_of_mem mem
  rw [split, ← List.append_assoc] at rest
  obtain ⟨before, others, parts, -, same⟩ := List.filterMap_eq_append_iff.mp rest.symm
  obtain ⟨skipped, message, after, split', -, some, same'⟩ := List.filterMap_eq_cons_iff.mp same
  refine ⟨before ++ skipped, message, after, ?_, some, a, ?_⟩
  · rw [parts, split', List.append_assoc]
  · rw [List.filterMap_cons_some some, same', split]

/-- The latest run reaches back to a message on the wire just if that is the last one or
affordable. -/
theorem suffix_iff_affordable {replay : String → List String}
    {before after : List CanonicalChatMessage} {current : CanonicalChatMessage}
    {run : List HydratedMessage} {budget spent : Nat}
    (latest : Affordable.IsLatest HydratedMessage.tokens budget spent
      ((before ++ current :: after).filterMap (input.hydrate replay)) run)
    {hydrated : HydratedMessage} (some : input.hydrate replay current = some hydrated) :
    let wire := List.filterMap (input.hydrate replay)
    wire (current :: after) <:+ run ↔
      wire after = [] ∨
        spent + Affordable.total HydratedMessage.tokens (wire (current :: after)) ≤ budget := by
  intro wire
  have wired : wire (current :: after) = hydrated :: wire after := List.filterMap_cons_some some
  have tail : wire (current :: after) <:+ wire (before ++ current :: after) :=
    ⟨wire before, List.filterMap_append.symm⟩
  have last : (wire (current :: after)).length ≤ 1 ↔ wire after = [] := by
    rw [wired, List.length_cons, Nat.succ_le_succ_iff, Nat.le_zero, List.length_eq_zero_iff]
  rw [latest.suffix_iff tail (by rw [wired]; exact List.cons_ne_nil _ _), last]

/-- The run has the message of the turn just if it is the last one or affordable. -/
theorem current_iff {messages : List CanonicalChatMessage} {run : List HydratedMessage}
    {budget spent : Nat}
    (latest : Affordable.IsLatest HydratedMessage.tokens budget spent (input.hydrateAll messages)
      run) :
    let wire := List.filterMap (input.hydrate (input.replayMap messages))
    (∃ hydrated ∈ run, isTurnMessage input hydrated = true) ↔
      (∀ message ∈ messages, input.isCurrent message = false) ∨
        ∃ before current after, messages = before ++ current :: after ∧
          input.isCurrent current = true ∧
          (wire after = [] ∨
            spent + Affordable.total HydratedMessage.tokens (wire (current :: after)) ≤
              budget) := by
  intro wire
  cases found : messages.any input.isCurrent with
  | false =>
    have absent : ∀ message ∈ messages, input.isCurrent message = false := by
      simpa using found
    refine iff_of_true ?_ (.inl absent)
    have all : input.hydrateAll messages = wire messages ++ [input.createCurrentUserMessage] := by
      rw [hydrateAll, found, if_neg Bool.false_ne_true]
    have last : [input.createCurrentUserMessage] <:+ run := by
      refine (latest.suffix_iff ?_ (List.cons_ne_nil _ _)).mpr (.inl (Nat.le_refl 1))
      exact all ▸ List.suffix_append ..
    exact ⟨_, last.subset (.head _), rfl⟩
  | true =>
    have all : input.hydrateAll messages = wire messages := by
      rw [hydrateAll, found, if_pos rfl, List.append_nil]
    rw [all] at latest
    constructor
    · rintro ⟨hydrated, mem, current⟩
      obtain ⟨before, message, after, parts, some, tail⟩ :=
        exists_message_of_mem latest.suffix mem
      rw [isTurnMessage, source_of_hydrate some] at current
      have affordable := (suffix_iff_affordable (parts ▸ latest) some).mp tail
      exact .inr ⟨before, message, after, parts, current, affordable⟩
    · rintro (absent | ⟨before, current, after, parts, isCurrent, affordable⟩)
      · obtain ⟨message, there, isCurrent⟩ := List.any_eq_true.mp found
        rw [absent message there] at isCurrent
        cases isCurrent
      · obtain ⟨hydrated, some⟩ := hydrate_current (input.replayMap messages) isCurrent
        have kept := (suffix_iff_affordable (parts ▸ latest) some).mpr affordable
        refine ⟨hydrated, kept.subset ?_, ?_⟩
        · rw [List.filterMap_cons_some some]
          exact .head _
        · rw [isTurnMessage, source_of_hydrate some]
          exact isCurrent

end

theorem gapFree_iff (input : TurnRequest) (storedMessages : List CanonicalChatMessage)
    (core carryOver : Option ProviderGatewayTextMessage)
    (reusableSummary : Option ReusableCompactionSummary) (targetContextBudget : Nat) :
    GapFree input storedMessages core carryOver reusableSummary targetContextBudget ↔
      CurrentAffordable input storedMessages core carryOver reusableSummary
        targetContextBudget := by
  obtain ⟨run, result, latest⟩ := window_isLatest input storedMessages core carryOver
    reusableSummary targetContextBudget
  have current := current_iff latest
  constructor
  · rintro ⟨run', result', -, there, -, -⟩
    have same : run' = run := List.append_cancel_left (result'.symm.trans result)
    rw [same] at there
    exact current.mp there
  · intro affordable
    exact ⟨run, result, latest.suffix, current.mpr affordable, latest.longest, latest.fits⟩

/-- An answer that was stored after the message of the turn, and a budget for one of them. -/
theorem late_answer_drops_turn_message :
    let input : TurnRequest := ⟨"m1", "hello", [], false, fun _ _ => [], fun _ _ => []⟩
    ¬ GapFree input [{ id := "m1", author := .user, content := "hello" },
      { id := "m2", author := .assistant, content := "late answer" }] none none none 20 := by
  intro input
  rintro ⟨run, result, -, ⟨hydrated, mem, current⟩, -, -⟩
  have kept : input.hydrateCanonicalWebMessages
        [{ id := "m1", author := .user, content := "hello" },
      { id := "m2", author := .assistant, content := "late answer" }] none none none 20 =
      [⟨.stored { id := "m2", author := .assistant, content := "late answer" },
        { role := .assistant, content := .text "late answer" }⟩] := by
    decide +kernel
  have only := kept.symm.trans result
  change [_] = run at only
  rw [← only] at mem
  rw [List.mem_singleton.mp mem] at current
  exact absurd current (by decide +kernel)

end TurnRequest

end Persai.Hydration
