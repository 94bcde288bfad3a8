import Persai.Runs
import Persai.Hydration.Messages

/-!
# Memory extraction

Two entries hand the messages of a conversation to memory extraction, the idle pass and the
compaction, and share a watermark. It counts the hydratable messages that were evaluated, and
is applied as an index to the list of provider messages, which leaves some of those out.
-/

namespace Persai.Hydration

open Runs

def idleMemoryExtractionMinNewMessages : Nat := 10

def minSummarizedMessageCount : Nat := 2

/-! ## The source of a compaction -/

def compactionContent (message : CanonicalChatMessage) : MessageContent :=
  withTruncationMarker (.text (buildHydratedMessageTextContent message.author message.content
    (!message.attachments.isEmpty))) message

/-- The message leaves nothing on the wire. -/
def wireEmpty (message : CanonicalChatMessage) : Bool :=
  isProviderWireEmptyAssistantAttachmentOnly message.author (compactionContent message)
    message.attachments.length

/-- What the provider is given of hydratable messages. -/
def providerView (messages : List CanonicalChatMessage) : List ProviderGatewayTextMessage :=
  messages.filterMap fun message =>
    if wireEmpty message then none
    else some { role := toProviderRole message.author, content := compactionContent message }

structure CompactionMessageSource where
  messages : List ProviderGatewayTextMessage
  summarizedMessageCount : Nat
  preservedRecentMessageCount : Nat
  deriving DecidableEq, Repr

/-- A conversation without a chat reads like an empty one. -/
def buildCompactionMessages (stored : List CanonicalChatMessage) (keepRecentMessageCount : Nat) :
    CompactionMessageSource :=
  let hydratableMessages := hydratable stored
  let summaryBoundary := hydratableMessages.length - keepRecentMessageCount
  let summarized := hydratableMessages.take summaryBoundary
  { messages := providerView summarized
    summarizedMessageCount := summarized.length
    preservedRecentMessageCount := hydratableMessages.length - summarized.length }

/-! ## The two entries -/

/-- A runtime session with its conversation, and the messages that successful extractions have
been given, one after the other. -/
structure Session where
  stored : List CanonicalChatMessage
  memoryExtractionWatermark : Nat
  extracted : List ProviderGatewayTextMessage
  bounded : memoryExtractionWatermark ≤ (hydratable stored).length

structure CompactionRequest where
  manualTrigger : Bool := false
  /-- The session's token count, where it is fresh. -/
  freshCurrentTokens : Option Nat
  compactionTriggerThreshold : Nat
  keepRecentMinimum : Nat
  /-- The provider has given a summary that can be used. -/
  validSummary : Bool := true
  persistSummary : Bool := true
  autoExtract : Bool := true
  deriving DecidableEq, Repr

inductive SessionEvent where
  | append (message : CanonicalChatMessage)
  /-- The idle pass; `reason` is how the extraction ends, if it is called. -/
  | extractIdleSessionMemory (reason : String)
  /-- A compaction, whose extraction may throw. -/
  | compactSession (request : CompactionRequest) (reason : Option String)
  deriving DecidableEq, Repr

/-- A call of the extraction: what it is given, and how many messages that stands for. -/
structure ExtractionCall where
  compactedMessages : List ProviderGatewayTextMessage
  coveredHydratableCount : Nat
  deriving DecidableEq, Repr

namespace Session

def start (stored : List CanonicalChatMessage) : Session := ⟨stored, 0, [], Nat.zero_le _⟩

/-- The call that `extractIdleSessionMemory` makes. -/
def idleExtraction (s : Session) : Option ExtractionCall :=
  let source := buildCompactionMessages s.stored 0
  let watermarkBefore := s.memoryExtractionWatermark
  if source.summarizedMessageCount ≤ watermarkBefore then none
  else if source.summarizedMessageCount - watermarkBefore < idleMemoryExtractionMinNewMessages then
    none
  else some ⟨source.messages.drop watermarkBefore, source.summarizedMessageCount⟩

/-- The call that `executeSharedCompaction` makes. -/
def compactionExtraction (s : Session) (request : CompactionRequest) : Option ExtractionCall :=
  let tokenThreshold := max 1 request.compactionTriggerThreshold
  if !request.manualTrigger && !request.freshCurrentTokens.any (decide <| tokenThreshold ≤ ·) then
    none
  else
    let source := buildCompactionMessages s.stored (max 1 (request.keepRecentMinimum * 2))
    if source.summarizedMessageCount < minSummarizedMessageCount then none
    else if !request.validSummary then none
    else if request.persistSummary && request.autoExtract &&
        decide (source.summarizedMessageCount > s.memoryExtractionWatermark) then
      some ⟨source.messages.drop s.memoryExtractionWatermark, source.summarizedMessageCount⟩
    else none

def isSuccessfulMemoryExtraction (reason : String) : Bool :=
  reason != "provider_error" && reason != "provider_incomplete" &&
    reason != "transport_surface_unavailable"

/-- The call of the extraction that the event makes, if any. -/
def extraction (s : Session) : SessionEvent → Option ExtractionCall
  | .append _ => none
  | .extractIdleSessionMemory _ => s.idleExtraction
  | .compactSession request _ => s.compactionExtraction request

theorem summarizedMessageCount_le (stored : List CanonicalChatMessage) (keepRecent : Nat) :
    (buildCompactionMessages stored keepRecent).summarizedMessageCount ≤
      (hydratable stored).length := by
  simp [buildCompactionMessages]

/-- A call is given what comes after the watermark of the first messages of the conversation. -/
theorem extraction_spec {s : Session} {e : SessionEvent} {call : ExtractionCall}
    (called : s.extraction e = some call) :
    call.compactedMessages = (providerView
        ((hydratable s.stored).take call.coveredHydratableCount)).drop s.memoryExtractionWatermark ∧
      s.memoryExtractionWatermark < call.coveredHydratableCount ∧
      call.coveredHydratableCount ≤ (hydratable s.stored).length := by
  have spec (keepRecent : Nat) :
      let source := buildCompactionMessages s.stored keepRecent
      source.messages = providerView ((hydratable s.stored).take source.summarizedMessageCount) ∧
        source.summarizedMessageCount ≤ (hydratable s.stored).length := by
    refine ⟨?_, summarizedMessageCount_le ..⟩
    simp only [buildCompactionMessages, List.length_take]
    rw [Nat.min_eq_left (Nat.sub_le ..)]
  cases e with
  | append message => cases called
  | extractIdleSessionMemory reason =>
    change s.idleExtraction = some call at called
    unfold idleExtraction at called
    dsimp only at called
    split at called
    · cases called
    · split at called
      · cases called
      · cases called
        obtain ⟨messages, le⟩ := spec 0
        exact ⟨by rw [messages], Nat.lt_of_not_le ‹_›, le⟩
  | compactSession request reason =>
    change s.compactionExtraction request = some call at called
    unfold compactionExtraction at called
    dsimp only at called
    split at called
    · cases called
    split at called
    · cases called
    split at called
    · cases called
    split at called
    · rename_i ahead
      cases called
      obtain ⟨messages, le⟩ := spec (max 1 (request.keepRecentMinimum * 2))
      simp only [Bool.and_eq_true, decide_eq_true_eq] at ahead
      exact ⟨by rw [messages], ahead.2, le⟩
    · cases called

def advanceMemoryExtractionWatermark (currentWatermark coveredHydratableCount : Nat) : Nat :=
  max currentWatermark coveredHydratableCount

theorem hydratable_append (messages later : List CanonicalChatMessage) :
    hydratable (messages ++ later) = hydratable messages ++ hydratable later :=
  List.filter_append ..

def append (s : Session) (message : CanonicalChatMessage) : Session :=
  { s with
    stored := s.stored ++ [message]
    bounded := by
      rw [hydratable_append, List.length_append]
      exact Nat.le_add_right_of_le s.bounded }

/-- The event calls the extraction, and the watermark advances if that succeeds. -/
def extract (s : Session) (e : SessionEvent) (reason : Option String) : Session :=
  match called : s.extraction e with
  | none => s
  | some call =>
    if reason.any isSuccessfulMemoryExtraction then
      { stored := s.stored
        memoryExtractionWatermark := advanceMemoryExtractionWatermark s.memoryExtractionWatermark
          call.coveredHydratableCount
        extracted := s.extracted ++ call.compactedMessages
        bounded := Nat.max_le.mpr ⟨s.bounded, (extraction_spec called).2.2⟩ }
    else s

def step (s : Session) (e : SessionEvent) : Session :=
  match e with
  | .append message => s.append message
  | .extractIdleSessionMemory reason => s.extract e (some reason)
  | .compactSession _ reason => s.extract e reason

/-! ## What the watermark stands for -/

/-- The successful extractions have been given what the provider sees of the messages below
the watermark, each once and in order. -/
def Covered (s : Session) : Prop :=
  s.extracted = providerView ((hydratable s.stored).take s.memoryExtractionWatermark)

/-- The hydratable messages from the watermark to the end of what a call covers. -/
def uncovered (s : Session) (call : ExtractionCall) : List CanonicalChatMessage :=
  ((hydratable s.stored).take call.coveredHydratableCount).drop s.memoryExtractionWatermark

/-- A call is given what the provider sees of the messages between the watermarks. -/
def SliceExact (s : Session) (e : SessionEvent) : Prop :=
  ∀ call ∈ s.extraction e, call.compactedMessages = providerView (s.uncovered call)

/-- No message below the watermark is left out of the provider's view, or all of those above
it are. -/
def Aligned (s : Session) (e : SessionEvent) : Prop :=
  ∀ call ∈ s.extraction e,
    (∀ message ∈ (hydratable s.stored).take s.memoryExtractionWatermark,
        wireEmpty message = false) ∨
      ∀ message ∈ s.uncovered call, wireEmpty message = true

section

theorem providerView_append (messages later : List CanonicalChatMessage) :
    providerView (messages ++ later) = providerView messages ++ providerView later :=
  List.filterMap_append ..

theorem length_providerView_le (messages : List CanonicalChatMessage) :
    (providerView messages).length ≤ messages.length := List.length_filterMap_le ..

theorem length_providerView_eq_iff {messages : List CanonicalChatMessage} :
    (providerView messages).length = messages.length ↔
      ∀ message ∈ messages, wireEmpty message = false := by
  rw [providerView, List.length_filterMap_eq_countP, List.countP_eq_length]
  refine forall₂_congr fun message _ => ?_
  cases empty : wireEmpty message <;> simp

theorem providerView_eq_nil_iff {messages : List CanonicalChatMessage} :
    providerView messages = [] ↔ ∀ message ∈ messages, wireEmpty message = true := by
  simp [providerView, List.filterMap_eq_nil_iff]

/-- An index too far by what was left out: the same list just if nothing was, or the rest has
nothing. -/
theorem drop_append_eq_iff {α : Type} {a b : List α} {n : Nat} (le : a.length ≤ n) :
    (a ++ b).drop n = b ↔ a.length = n ∨ b = [] := by
  have past : a.drop n = [] := List.drop_eq_nil_of_le le
  rw [List.drop_append, past, List.nil_append]
  constructor
  · intro same
    have lengths := congrArg List.length same
    rw [List.length_drop] at lengths
    rcases Nat.eq_zero_or_pos b.length with none | some
    · exact .inr (List.eq_nil_of_length_eq_zero none)
    · exact .inl (by omega)
  · rintro (exact | rfl)
    · rw [exact, Nat.sub_self, List.drop_zero]
    · exact List.drop_nil

variable {s : Session} {e : SessionEvent} {call : ExtractionCall}

/-- The messages that a call covers are those below the watermark and those above it. -/
theorem take_covered (called : s.extraction e = some call) :
    (hydratable s.stored).take call.coveredHydratableCount =
      (hydratable s.stored).take s.memoryExtractionWatermark ++ s.uncovered call := by
  have ahead := (extraction_spec called).2.1
  have parts := (List.take_append_drop s.memoryExtractionWatermark
    ((hydratable s.stored).take call.coveredHydratableCount)).symm
  rwa [List.take_take, Nat.min_eq_left (Nat.le_of_lt ahead)] at parts

theorem slice_iff (called : s.extraction e = some call) :
    call.compactedMessages = providerView (s.uncovered call) ↔
      (∀ message ∈ (hydratable s.stored).take s.memoryExtractionWatermark,
          wireEmpty message = false) ∨
        ∀ message ∈ s.uncovered call, wireEmpty message = true := by
  have below : ((hydratable s.stored).take s.memoryExtractionWatermark).length =
      s.memoryExtractionWatermark := List.length_take_of_le s.bounded
  have le := length_providerView_le ((hydratable s.stored).take s.memoryExtractionWatermark)
  rw [below] at le
  rw [(extraction_spec called).1, take_covered called, providerView_append,
    drop_append_eq_iff le, providerView_eq_nil_iff]
  refine or_congr_left ?_
  rw [← length_providerView_eq_iff, below]

/-- A call that fails changes nothing; after one that succeeds what it was given is extracted. -/
theorem extract_cases (s : Session) (e : SessionEvent) (reason : Option String) :
    s.extract e reason = s ∨
      ∃ call, s.extraction e = some call ∧ (s.extract e reason).stored = s.stored ∧
        (s.extract e reason).memoryExtractionWatermark = call.coveredHydratableCount ∧
        (s.extract e reason).extracted = s.extracted ++ call.compactedMessages := by
  unfold extract
  split
  · exact .inl rfl
  · rename_i call called
    split
    · have ahead := (extraction_spec called).2.1
      exact .inr ⟨call, called, rfl, Nat.max_eq_right (Nat.le_of_lt ahead), rfl⟩
    · exact .inl rfl

theorem extract_covered (covered : Covered s) (exact_slice : SliceExact s e)
    (reason : Option String) : Covered (s.extract e reason) := by
  rcases extract_cases s e reason with same | ⟨call, called, stored, watermark, extracted⟩
  · rw [same]
    exact covered
  · unfold Covered
    rw [stored, watermark, extracted, take_covered called, providerView_append, ← covered,
      exact_slice call called]

theorem append_covered (covered : Covered s) (message : CanonicalChatMessage) :
    Covered (s.append message) := by
  show s.extracted = providerView
    ((hydratable (s.stored ++ [message])).take s.memoryExtractionWatermark)
  rw [hydratable_append, List.take_append_of_le_length s.bounded]
  exact covered

theorem step_covered (s : Session) (e : SessionEvent) (covered : Covered s) :
    Covered (s.step e) ∧ SliceExact s e ↔ Aligned s e := by
  have same : SliceExact s e ↔ Aligned s e := forall₂_congr fun call called => slice_iff called
  rw [← same]
  refine and_iff_right_of_imp fun exact_slice => ?_
  cases e with
  | append message => exact append_covered covered message
  | extractIdleSessionMemory reason => exact extract_covered covered exact_slice (some reason)
  | compactSession request reason => exact extract_covered covered exact_slice reason

end

theorem extraction_iff_aligned (stored : List CanonicalChatMessage) (es : List SessionEvent) :
    EveryState step Covered (start stored) es ∧ EveryStep step SliceExact (start stored) es ↔
      EveryStep step Aligned (start stored) es :=
  everyState_and_everyStep_iff (I := fun _ => True) (H := fun _ _ => True) (fun _ _ _ => trivial)
    (fun s e _ covered _ => step_covered s e covered) trivial rfl
    (everyStep_of_forall (fun _ _ => trivial) _ _)

instance (s : Session) : Decidable (Covered s) := inferInstanceAs (Decidable (_ = _))

/-- A picture without a text lies below the watermark: the next message is passed over. -/
theorem attachment_only_message_shifts_slice :
    let user (id text : String) : CanonicalChatMessage :=
      { id, author := .user, content := text }
    let stored := [user "1" "a",
      { id := "2", author := .assistant, content := "", attachments := ["f"] },
      user "3" "b", user "4" "c"]
    let request : CompactionRequest :=
      { freshCurrentTokens := some 9, compactionTriggerThreshold := 5, keepRecentMinimum := 1 }
    let es : List SessionEvent := [.compactSession request (some "ok"),
      .append (user "5" "d"), .append (user "6" "e"), .compactSession request (some "ok")]
    ¬ EveryState step Covered (start stored) es := by
  decide +kernel

end Session

end Persai.Hydration
