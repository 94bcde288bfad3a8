import Persai.AnthropicRequest.Markers

/-!
# The layout of a request with markers

* `build_eq`: the parts of the messages, with and without a cache;
* `ToolResultsFollow`: tool results stand right behind their calls;
* `marker_moves_on`: the marker of a growing history does not go back;
* `prompt_cache_layout`: all of this for every request.
-/

namespace Persai.AnthropicRequest

variable {Args : Type} {argumentBytes : Args → Nat} {input : Request Args}
  {messages messages' : List (Message Args)}

/-- The messages are the same but for markers: one that says the same, and is the same where it
has no marker. -/
structure SameUnmarked (plain built : Message Args) : Prop where
  role : built.role = plain.role
  bodies : built.bodies = plain.bodies
  unmarked : built.markers = 0 → built = plain

def toolResultIds (message : Message Args) : List String :=
  message.bodies.filterMap fun
    | .toolResult id _ _ => some id
    | _ => none

def toolUseIds (message : Message Args) : List String :=
  message.bodies.filterMap fun
    | .toolUse id _ _ => some id
    | _ => none

/-- Each tool result directly follows the assistant message with its call. -/
def ToolResultsFollow (messages : List (Message Args)) : Prop :=
  ∀ i message id, messages[i]? = some message → id ∈ toolResultIds message →
    ∃ j caller, i = j + 1 ∧ messages[j]? = some caller ∧ caller.role = .assistant ∧
      id ∈ toolUseIds caller

/-- The index of the first message with a marker. -/
def markerAt (messages : List (Message Args)) : Option Nat :=
  messages.findIdx? fun message => 0 < message.markers

def withoutPromptCache (input : Request Args) : Request Args := { input with promptCache := none }

/-! ## Messages without markers -/

def Unmarked (messages : List (Message Args)) : Prop := ∀ message ∈ messages, message.markers = 0

theorem unmarked_exchange (exchange : ToolExchange Args) :
    Unmarked (exchangeMessages exchange) := by
  intro message member
  simp only [exchangeMessages, List.mem_cons, List.not_mem_nil, or_false] at member
  rcases member with rfl | rfl
  · simp only [Message.markers, blockMarkers, List.length_eq_zero_iff, List.filter_eq_nil_iff]
    intro block member
    rcases List.mem_append.mp member with text | call
    · obtain ⟨text, -, rfl⟩ := List.mem_map.mp text
      exact Bool.false_ne_true
    · rw [List.mem_singleton.mp call]
      exact Bool.false_ne_true
  · rfl

theorem unmarked_exchanges (exchanges : List (ToolExchange Args)) :
    Unmarked (exchanges.flatMap exchangeMessages) := by
  intro message member
  obtain ⟨exchange, -, member⟩ := List.mem_flatMap.mp member
  exact unmarked_exchange exchange message member

theorem Unmarked.append (first : Unmarked messages) (second : Unmarked messages') :
    Unmarked (messages ++ messages') :=
  fun message member => (List.mem_append.mp member).elim (first message) (second message)

/-- A block of a message of the chat. -/
structure OfChat (block : Block Args) : Prop where
  unmarked : block.cacheControl = none
  noResult : ∀ id content isError, block.body ≠ .toolResult id content isError

theorem toAnthropicBlock_spec {given : ContentBlock} {block : Block Args}
    (built : toAnthropicBlock given = .ok block) : OfChat block := by
  cases given with
  | text text => cases built; exact ⟨rfl, nofun⟩
  | pdf data filename => cases built; exact ⟨rfl, nofun⟩
  | image mimeType data =>
    simp only [toAnthropicBlock, toAnthropicImageMime] at built
    split at built
    · cases built; exact ⟨rfl, nofun⟩
    · cases built

theorem toAnthropicBlocks_spec {given : List ContentBlock} {blocks : List (Block Args)}
    (built : given.mapM toAnthropicBlock = .ok blocks) :
    (∀ block ∈ blocks, OfChat block) ∧ blocks.length = given.length := by
  induction given generalizing blocks with
  | nil => cases built; exact ⟨nofun, rfl⟩
  | cons first given ih =>
    rw [List.mapM_cons] at built
    cases head : @toAnthropicBlock Args first with
    | error e => rw [head] at built; cases built
    | ok block =>
      cases tail : given.mapM (@toAnthropicBlock Args) with
      | error e => rw [head, tail] at built; cases built
      | ok rest =>
        rw [head, tail] at built
        cases built
        obtain ⟨ofChat, same⟩ := ih tail
        refine ⟨fun block member => ?_, congrArg (· + 1) same⟩
        rcases List.mem_cons.mp member with rfl | member
        · exact toAnthropicBlock_spec head
        · exact ofChat block member

/-- What a message of the chat is built into: no markers, no tool results, and empty only if the
message is. -/
theorem content_spec {content : Content} {built : BuiltContent Args} (role : Role)
    (eq : toAnthropicMessageContent content = .ok built) :
    (⟨role, built⟩ : Message Args).markers = 0 ∧
      toolResultIds (⟨role, built⟩ : Message Args) = [] ∧
      (built = .blocks [] → content = .blocks []) := by
  cases content with
  | text text => cases eq; exact ⟨rfl, rfl, nofun⟩
  | blocks given =>
    simp only [toAnthropicMessageContent] at eq
    cases all : given.mapM (@toAnthropicBlock Args) with
    | error e => rw [all] at eq; cases eq
    | ok blocks =>
      rw [all] at eq
      cases eq
      obtain ⟨ofChat, same⟩ := toAnthropicBlocks_spec all
      refine ⟨?_, ?_, fun empty => ?_⟩
      · simp only [Message.markers, blockMarkers, List.length_eq_zero_iff, List.filter_eq_nil_iff]
        exact fun block member => by rw [(ofChat block member).unmarked]; exact Bool.false_ne_true
      · simp only [toolResultIds, Message.bodies, List.filterMap_map, List.filterMap_eq_nil_iff]
        intro block member
        have noResult := (ofChat block member).noResult
        cases kind : block.body with
        | toolResult id content isError => exact absurd kind (noResult id content isError)
        | _ => simp [kind]
      · cases empty
        rw [List.length_eq_zero_iff.mp same.symm]

/-! ## Tool results -/

theorem ToolResultsFollow.append (first : ToolResultsFollow messages)
    (second : ToolResultsFollow messages') : ToolResultsFollow (messages ++ messages') := by
  intro i message id found result
  rcases Nat.lt_or_ge i messages.length with low | high
  · rw [List.getElem?_append_left low] at found
    obtain ⟨j, caller, rfl, at_j, role, call⟩ := first i message id found result
    exact ⟨j, caller, rfl, by rwa [List.getElem?_append_left (Nat.lt_of_succ_lt low)], role, call⟩
  · rw [List.getElem?_append_right high] at found
    obtain ⟨j, caller, eq, at_j, role, call⟩ := second _ message id found result
    refine ⟨messages.length + j, caller, by omega, ?_, role, call⟩
    rwa [List.getElem?_append_right (Nat.le_add_right _ _), Nat.add_sub_cancel_left]

/-- Messages without tool results. -/
theorem follow_of_none (none : ∀ message ∈ messages, toolResultIds message = []) :
    ToolResultsFollow messages := by
  intro i message id found result
  rw [none message (List.mem_of_getElem? found)] at result
  cases result

theorem follow_exchange (exchange : ToolExchange Args) :
    ToolResultsFollow (exchangeMessages exchange) := by
  intro i message id found result
  match i with
  | 0 =>
    cases found
    simp [toolResultIds, Message.bodies] at result
  | 1 =>
    obtain rfl := Option.some.inj found
    refine ⟨0, _, rfl, rfl, rfl, ?_⟩
    simpa [toolResultIds, toolUseIds, Message.bodies] using result
  | i + 2 => simp [exchangeMessages] at found

theorem follow_exchanges (exchanges : List (ToolExchange Args)) :
    ToolResultsFollow (exchanges.flatMap exchangeMessages) := by
  induction exchanges with
  | nil => exact follow_of_none nofun
  | cons exchange exchanges ih => exact (follow_exchange exchange).append ih

theorem sameUnmarked_of_marked {plain built : Message Args} (marked : Marked plain built) :
    SameUnmarked plain built := by
  rcases marked with rfl | attached
  · exact ⟨rfl, rfl, fun _ => rfl⟩
  · have spec := attach_spec attached
    exact ⟨spec.role, spec.bodies, fun none => absurd none (Nat.ne_of_gt spec.marked)⟩

theorem partner {α β : Type} {R : α → β → Prop} {l : List α} {l' : List β}
    (all : List.Forall₂ R l l') {i : Nat} {b : β} (found : l'[i]? = some b) :
    ∃ a, l[i]? = some a ∧ R a b := by
  induction all generalizing i with
  | nil => cases found
  | cons first _ ih =>
    cases i with
    | zero =>
      cases found
      exact ⟨_, rfl, first⟩
    | succ i => exact ih found

theorem follow_of_same (same : List.Forall₂ SameUnmarked messages messages')
    (follow : ToolResultsFollow messages) : ToolResultsFollow messages' := by
  intro i built id found result
  obtain ⟨plain, at_i, here⟩ := partner same found
  rw [toolResultIds, here.bodies] at result
  obtain ⟨j, caller, rfl, at_j, role, call⟩ := follow i plain id at_i result
  obtain ⟨caller', at_j', there⟩ := partner same.flip at_j
  refine ⟨j, caller', rfl, at_j', there.role.trans role, ?_⟩
  rwa [toolUseIds, there.bodies]

/-! ## The parts of the messages -/

/-- A message of the history, after its earlier exchanges. -/
theorem stableHistory_cons {message : TextMessage Args} {history : List (TextMessage Args)}
    (durable : message.volatileContext = false)
    (eq : stableHistory (message :: history) = .ok messages) :
    ∃ content later, toAnthropicMessageContent message.content = .ok content ∧
      stableHistory history = .ok later ∧
      messages = message.priorToolExchanges.flatMap exchangeMessages ++
        ⟨message.role, content⟩ :: later := by
  rw [stableHistory, if_neg (by simp [durable])] at eq
  cases content : @toAnthropicMessageContent Args message.content with
  | error e => rw [content] at eq; cases eq
  | ok built =>
    cases rest : stableHistory history with
    | error e => rw [content, rest] at eq; cases eq
    | ok later =>
      rw [content, rest] at eq
      cases eq
      exact ⟨built, later, rfl, rfl, rfl⟩

theorem stableHistory_volatile {message : TextMessage Args} (history : List (TextMessage Args))
    (volatile : message.volatileContext = true) :
    stableHistory (message :: history) = stableHistory history := by
  rw [stableHistory, if_pos volatile]

/-- Where the messages of the history come from. -/
theorem mem_stableHistory {history : List (TextMessage Args)}
    (eq : stableHistory history = .ok messages) : ∀ m ∈ messages,
      (∃ exchange, m ∈ exchangeMessages exchange) ∨ ∃ given ∈ history, ∃ content,
        toAnthropicMessageContent given.content = .ok content ∧ m = ⟨given.role, content⟩ := by
  induction history generalizing messages with
  | nil => cases eq; exact nofun
  | cons message history ih =>
    have later : ∀ {messages : List (Message Args)}, stableHistory history = .ok messages →
        ∀ m ∈ messages, (∃ exchange, m ∈ exchangeMessages exchange) ∨
          ∃ given ∈ message :: history, ∃ content,
            toAnthropicMessageContent given.content = .ok content ∧ m = ⟨given.role, content⟩ := by
      intro messages eq m member
      rcases ih eq m member with exchange | ⟨given, member, rest⟩
      · exact .inl exchange
      · exact .inr ⟨given, List.mem_cons_of_mem _ member, rest⟩
    cases volatile : message.volatileContext with
    | true =>
      rw [stableHistory_volatile history volatile] at eq
      exact later eq
    | false =>
      obtain ⟨content, rest, built, eq', rfl⟩ := stableHistory_cons volatile eq
      intro m member
      rcases List.mem_append.mp member with exchange | own
      · obtain ⟨exchange, -, member⟩ := List.mem_flatMap.mp exchange
        exact .inl ⟨exchange, member⟩
      · rcases List.mem_cons.mp own with rfl | member
        · exact .inr ⟨message, by simp, content, built, rfl⟩
        · exact later eq' m member

theorem unmarked_stableHistory {history : List (TextMessage Args)}
    (eq : stableHistory history = .ok messages) : Unmarked messages := by
  intro m member
  obtain ⟨exchange, member⟩ | ⟨given, -, content, built, rfl⟩ := mem_stableHistory eq m member
  · exact unmarked_exchange exchange m member
  · exact (content_spec given.role built).1

theorem follow_stableHistory {history : List (TextMessage Args)}
    (eq : stableHistory history = .ok messages) : ToolResultsFollow messages := by
  induction history generalizing messages with
  | nil => cases eq; exact follow_of_none nofun
  | cons message history ih =>
    cases volatile : message.volatileContext with
    | true =>
      rw [stableHistory_volatile history volatile] at eq
      exact ih eq
    | false =>
      obtain ⟨content, rest, built, eq', rfl⟩ := stableHistory_cons volatile eq
      have here : ToolResultsFollow [(⟨message.role, content⟩ : Message Args)] :=
        follow_of_none fun m member =>
          List.mem_singleton.mp member ▸ (content_spec message.role built).2.1
      exact (follow_exchanges _).append (here.append (ih eq'))

theorem toolFollowUp_spec {content : Option Content}
    (eq : toolFollowUp content = .ok messages) :
    Unmarked messages ∧ ToolResultsFollow messages ∧ ∀ m ∈ messages, m.role = .user := by
  cases content with
  | none => cases eq; exact ⟨nofun, follow_of_none nofun, nofun⟩
  | some content =>
    rw [toolFollowUp] at eq
    cases built : @toAnthropicMessageContent Args content with
    | error e => rw [built] at eq; cases eq
    | ok content =>
      rw [built] at eq
      cases eq
      obtain ⟨noMarkers, noResults, -⟩ := content_spec .user built
      refine ⟨?_, follow_of_none ?_, ?_⟩ <;> intro m member <;>
        rw [List.mem_singleton.mp member]
      · exact noMarkers
      · exact noResults

/-- How the messages are built. -/
theorem build_eq (argumentBytes : Args → Nat) (input : Request Args) :
    buildAnthropicMessages argumentBytes input =
      (stableHistory input.messages).bind fun history =>
        (toolFollowUp input.toolFollowUpUserContent).map fun followUp =>
          durable argumentBytes input history followUp ++ volatileContextMessages input ++
            (buildAnthropicDeveloperInstructionsSuffix input).toList := by
  unfold buildAnthropicMessages
  cases stableHistory input.messages with
  | error e => rfl
  | ok history => cases toolFollowUp input.toolFollowUpUserContent <;> rfl

/-- The messages before the volatile ones, without a cache. -/
theorem durable_withoutPromptCache (argumentBytes : Args → Nat) (input : Request Args)
    (history followUp : List (Message Args)) :
    durable argumentBytes (withoutPromptCache input) history followUp =
      history ++ input.toolHistory.flatMap exchangeMessages ++ followUp := by
  have off : shouldApplyAnthropicMovingHistoryBreakpoint (withoutPromptCache input) = false := rfl
  simp only [durable, off, Bool.and_false, Bool.false_eq_true, if_false]
  rfl

theorem forall₂_marked_refl (messages : List (Message Args)) :
    List.Forall₂ Marked messages messages :=
  List.forall₂_same.mpr fun _ _ => .inl rfl

theorem marked_durable (argumentBytes : Args → Nat) (input : Request Args)
    (history followUp : List (Message Args)) :
    List.Forall₂ Marked (history ++ input.toolHistory.flatMap exchangeMessages ++ followUp)
      (durable argumentBytes input history followUp) := by
  have first : List.Forall₂ Marked history
      (if decide (input.classification = some .toolLoopFollowup) &&
          shouldApplyAnthropicMovingHistoryBreakpoint input then
        applyAnthropicMovingHistoryBreakpoint argumentBytes history input.promptCache false
      else history) := by
    split
    · exact marked_apply (forall₂_marked_refl history) _ _
    · exact forall₂_marked_refl history
  have all := List.rel_append (List.rel_append first
    (forall₂_marked_refl (input.toolHistory.flatMap exchangeMessages)))
    (forall₂_marked_refl followUp)
  unfold durable
  dsimp only
  split
  · exact marked_apply all _ _
  · exact all

theorem totalMarkers_append (messages messages' : List (Message Args)) :
    totalMarkers (messages ++ messages') = totalMarkers messages + totalMarkers messages' := by
  simp [totalMarkers]

theorem Unmarked.total (unmarked : Unmarked messages) : totalMarkers messages = 0 := by
  rw [totalMarkers, List.sum_eq_zero_iff_forall_eq_nat]
  intro n counted
  obtain ⟨message, member, rfl⟩ := List.mem_map.mp counted
  exact unmarked message member

/-- Two passes put at most two markers. -/
theorem markers_durable (argumentBytes : Args → Nat) (input : Request Args)
    {history followUp : List (Message Args)} (first : Unmarked history)
    (last : Unmarked followUp) :
    totalMarkers (durable argumentBytes input history followUp) ≤ 2 := by
  have passed : totalMarkers
      (if decide (input.classification = some .toolLoopFollowup) &&
          shouldApplyAnthropicMovingHistoryBreakpoint input then
        applyAnthropicMovingHistoryBreakpoint argumentBytes history input.promptCache false
      else history) ≤ 1 := by
    have none := first.total
    split
    · have := @markers_apply _ argumentBytes history input.promptCache false
      omega
    · omega
  have middle := (unmarked_exchanges input.toolHistory).total
  have none := last.total
  unfold durable
  dsimp only
  split
  · refine (markers_apply _ _ _).trans ?_
    rw [totalMarkers_append, totalMarkers_append]
    omega
  · rw [totalMarkers_append, totalMarkers_append]
    omega

def systemMarkers : Option System → Nat
  | some (.blocks blocks) => (blocks.filter (·.cacheControl.isSome)).length
  | _ => 0

/-- The system prompt has at most one marker. -/
theorem systemMarkers_le (input : Request Args) :
    systemMarkers (buildAnthropicSystemBlocks input) ≤ 1 := by
  unfold buildAnthropicSystemBlocks
  dsimp only
  split
  · exact Nat.zero_le _
  · split
    · exact Nat.le_refl _
    · exact Nat.zero_le _
  · rw [systemMarkers, List.filter_append, List.length_append]
    have prompt := List.length_filter_le (fun block : SystemTextBlock => block.cacheControl.isSome)
      ((input.systemPrompt.filter fun text => 0 < text.length).toList.map fun text =>
        ⟨text, if (input.systemPrompt.filter fun text => 0 < text.length).isSome &&
          input.promptCache.isSome then some .ephemeral else none⟩)
    rw [List.length_map] at prompt
    have := Option.length_toList_le (o := input.systemPrompt.filter fun text => 0 < text.length)
    simp only [List.filter_cons, Option.isSome_none, Bool.false_eq_true, if_false,
      List.filter_nil, List.length_nil]
    omega

/-! ## A history that grows -/

theorem markerAt_attachAt {index : Nat} (unmarked : Unmarked messages) :
    markerAt (attachAt messages index) =
      if (messages[index]?.bind attachCacheControlToLastBlock).isSome then some index
      else none := by
  unfold markerAt attachAt
  induction messages generalizing index with
  | nil => simp
  | cons message messages ih =>
    have first := unmarked message (by simp)
    have rest : Unmarked messages := fun m member => unmarked m (List.mem_cons_of_mem _ member)
    cases index with
    | zero =>
      have none : messages.findIdx? (fun m => 0 < m.markers) = none :=
        List.findIdx?_eq_none_iff.mpr fun m member => by simp [rest m member]
      cases attached : attachCacheControlToLastBlock message with
      | none => simp [List.findIdx?_cons, withMarker, attached, first, none]
      | some message' =>
        have := (attach_spec attached).marked
        simp [List.findIdx?_cons, withMarker, attached, this]
    | succ index =>
      simp only [List.modify_succ_cons, List.findIdx?_cons, first, Nat.lt_irrefl, decide_false,
        Bool.false_eq_true, if_false, List.getElem?_cons_succ, ih rest]
      split <;> simp

theorem markerAt_of_unmarked (unmarked : Unmarked messages) : markerAt messages = none :=
  List.findIdx?_eq_none_iff.mpr fun m member => by simp [unmarked m member]

/-- The candidate of a history: the last assistant message within its whole chunks. -/
def candidate (argumentBytes : Args → Nat) (minTokens : ℚ) (messages : List (Message Args)) :
    Option Nat :=
  let limit := maxCachedPrefixBytes minTokens
    (messages.map (measureAnthropicMessageContentBytes argumentBytes)).sum
  if limit = 0 then none else candidateFrom argumentBytes limit 0 0 none messages

/-- The marker stands on the candidate, if that message is not empty. -/
theorem markerAt_apply {promptCache : Option PromptCache} {minTokens : ℚ}
    (given : breakpointMinTokens promptCache = some minTokens) (unmarked : Unmarked messages) :
    markerAt (applyAnthropicMovingHistoryBreakpoint argumentBytes messages promptCache false) =
      (candidate argumentBytes minTokens messages).filter fun index =>
        (messages[index]?.bind attachCacheControlToLastBlock).isSome := by
  rw [applyAnthropicMovingHistoryBreakpoint, given]
  dsimp only
  rw [if_neg Bool.false_ne_true, candidate]
  split
  · exact markerAt_of_unmarked unmarked
  · split
    · rename_i index found
      rw [markerAt_attachAt unmarked, found]
      rfl
    · rename_i none
      rw [none]
      exact markerAt_of_unmarked unmarked

theorem bytesUpTo_append {n : Nat} (low : n ≤ messages.length) :
    bytesUpTo argumentBytes (messages ++ messages') n = bytesUpTo argumentBytes messages n := by
  rw [bytesUpTo, List.take_append_of_le_length low]
  rfl

/-- The candidate is an assistant message within the limit. -/
theorem candidate_some {minTokens : ℚ} {i : Nat}
    (found : candidate argumentBytes minTokens messages = some i) :
    let limit := maxCachedPrefixBytes minTokens
      (messages.map (measureAnthropicMessageContentBytes argumentBytes)).sum
    limit ≠ 0 ∧ Eligible argumentBytes limit 0 messages i := by
  unfold candidate at found
  dsimp only at found ⊢
  split at found
  · cases found
  · rename_i some'
    obtain start | ⟨k, rfl, eligible⟩ := candidateFrom_some found
    · cases start
    · exact ⟨some', (Nat.zero_add k).symm ▸ eligible⟩

/-- What the user adds to the follow-up is no candidate. -/
theorem candidate_lt {history followUp : List (Message Args)} {minTokens : ℚ}
    (asked : ∀ m ∈ followUp, m.role = .user) {i : Nat}
    (found : candidate argumentBytes minTokens (history ++ followUp) = some i) :
    i < history.length := by
  by_contra high
  have role := (candidate_some found).2.1
  rw [List.getElem?_append_right (Nat.not_lt.mp high)] at role
  obtain ⟨m, at_i, is_assistant⟩ := Option.map_eq_some_iff.mp role
  rw [asked m (List.mem_of_getElem? at_i)] at is_assistant
  cases is_assistant

/-- The candidate of a history that has grown is no earlier message. -/
theorem candidate_moves_on {history followUp : List (Message Args)} {minTokens : ℚ}
    (asked : ∀ m ∈ followUp, m.role = .user) (appended : List (Message Args)) {i : Nat}
    (found : candidate argumentBytes minTokens (history ++ followUp) = some i) :
    ∃ j, candidate argumentBytes minTokens (history ++ appended ++ followUp) = some j ∧ i ≤ j := by
  have low := candidate_lt asked found
  obtain ⟨some', role, within⟩ := candidate_some found
  have grown : maxCachedPrefixBytes minTokens
        ((history ++ followUp).map (measureAnthropicMessageContentBytes argumentBytes)).sum ≤
      maxCachedPrefixBytes minTokens ((history ++ appended ++ followUp).map
        (measureAnthropicMessageContentBytes argumentBytes)).sum :=
    maxCachedPrefixBytes_mono minTokens (by simp only [List.map_append, List.sum_append]; omega)
  have eligible : Eligible argumentBytes (maxCachedPrefixBytes minTokens
      ((history ++ appended ++ followUp).map
        (measureAnthropicMessageContentBytes argumentBytes)).sum) 0
      (history ++ appended ++ followUp) i := by
    constructor
    · rwa [List.append_assoc, List.getElem?_append_left low, ← List.getElem?_append_left low]
    · have same : bytesUpTo argumentBytes (history ++ appended ++ followUp) (i + 1) =
          bytesUpTo argumentBytes history (i + 1) := by
        rw [List.append_assoc, bytesUpTo_append low]
      rw [bytesUpTo_append low] at within
      rw [same]
      exact within.trans grown
  obtain ⟨j, found', later⟩ := candidateFrom_ge _ 0 0 eligible
  refine ⟨j, ?_, Nat.zero_add i ▸ later⟩
  unfold candidate
  dsimp only
  rw [if_neg (by omega)]
  exact found'

theorem markerAt_append (unmarked : Unmarked messages') :
    markerAt (messages ++ messages') = markerAt messages := by
  rw [markerAt, List.findIdx?_append, ← markerAt, ← markerAt, markerAt_of_unmarked unmarked]
  cases markerAt messages <;> rfl

theorem unmarked_tail (input : Request Args) :
    Unmarked (volatileContextMessages input ++
      (buildAnthropicDeveloperInstructionsSuffix input).toList) := by
  refine Unmarked.append ?_ ?_
  · intro m member
    obtain ⟨message, -, rfl⟩ := List.mem_map.mp member
    rfl
  · intro m member
    rw [Option.mem_toList, buildAnthropicDeveloperInstructionsSuffix] at member
    split at member
    · obtain ⟨text, -, rfl⟩ := Option.map_eq_some_iff.mp member
      rfl
    · cases member

/-- The messages of the chat that are not volatile. -/
def stable (input : Request Args) : List (TextMessage Args) :=
  input.messages.filter (!·.volatileContext)

theorem stableHistory_filter (history : List (TextMessage Args)) :
    stableHistory (history.filter (!·.volatileContext)) = stableHistory history := by
  induction history with
  | nil => rfl
  | cons message history ih =>
    cases volatile : message.volatileContext with
    | false => simp [stableHistory, volatile, ih]
    | true => simp [stableHistory, volatile, ih]

theorem stableHistory_append (first second : List (TextMessage Args)) :
    stableHistory (first ++ second) =
      (stableHistory first).bind fun a => (stableHistory second).map fun b => a ++ b := by
  induction first with
  | nil =>
    rw [List.nil_append]
    cases stableHistory second <;> rfl
  | cons message first ih =>
    rw [List.cons_append, stableHistory, stableHistory, ih]
    split
    · rfl
    · cases @toAnthropicMessageContent Args message.content with
      | error e => rfl
      | ok content =>
        cases stableHistory first with
        | error e => rfl
        | ok a =>
          cases stableHistory second with
          | error e => rfl
          | ok b => simp [Except.bind, Except.map, bind, pure, Except.pure]

def NonEmpty : Content → Prop
  | .text text => text ≠ ""
  | .blocks blocks => blocks ≠ []

/-- Messages that are not empty can all carry a marker. -/
theorem capable_of_nonEmpty {history : List (TextMessage Args)}
    (eq : stableHistory history = .ok messages) (filled : ∀ m ∈ history, NonEmpty m.content) :
    ∀ m ∈ messages, (attachCacheControlToLastBlock m).isSome := by
  intro m member
  rw [Option.isSome_iff_ne_none, ne_eq, attach_eq_none]
  intro empty
  obtain ⟨exchange, member⟩ | ⟨given, from_, content, built, rfl⟩ := mem_stableHistory eq m member
  · simp only [exchangeMessages, List.mem_cons, List.not_mem_nil, or_false] at member
    rcases member with rfl | rfl
    · simp at empty
    · cases empty
  · have filled := filled given from_
    rw [(content_spec given.role built).2.2 empty] at filled
    exact filled rfl

/-- A main turn, before any call of its own, and one whose stable history has grown by messages
that are not empty. -/
structure Grows (old new : Request Args) : Prop where
  mainTurn : old.classification = none ∨ old.classification = some .mainTurn
  classification : new.classification = old.classification
  promptCache : new.promptCache = old.promptCache
  noCalls : old.toolHistory = [] ∧ new.toolHistory = []
  followUp : new.toolFollowUpUserContent = old.toolFollowUpUserContent
  history : ∃ appended, stable new = stable old ++ appended ∧ ∀ m ∈ appended, NonEmpty m.content

theorem build_some (eq : buildAnthropicMessages argumentBytes input = .ok messages) :
    ∃ history followUp, stableHistory input.messages = .ok history ∧
      toolFollowUp input.toolFollowUpUserContent = .ok followUp ∧
      messages = durable argumentBytes input history followUp ++ volatileContextMessages input ++
        (buildAnthropicDeveloperInstructionsSuffix input).toList := by
  rw [build_eq] at eq
  cases first : stableHistory input.messages with
  | error e => rw [first] at eq; cases eq
  | ok history =>
    cases last : @toolFollowUp Args input.toolFollowUpUserContent with
    | error e => rw [first, last] at eq; cases eq
    | ok followUp =>
      rw [first, last] at eq
      cases eq
      exact ⟨history, followUp, rfl, rfl, rfl⟩

theorem durable_mainTurn (argumentBytes : Args → Nat)
    (main : input.classification = none ∨ input.classification = some .mainTurn)
    (noCalls : input.toolHistory = []) (history followUp : List (Message Args)) :
    durable argumentBytes input history followUp =
      applyAnthropicMovingHistoryBreakpoint argumentBytes (history ++ followUp) input.promptCache
        false := by
  have first : decide (input.classification = some .toolLoopFollowup) = false := by
    rcases main with none | main <;> simp [*]
  have applies : shouldApplyAnthropicMovingHistoryBreakpoint input =
      (breakpointMinTokens input.promptCache).isSome := by
    rcases main with none | main <;> simp [shouldApplyAnthropicMovingHistoryBreakpoint, *]
  unfold durable
  dsimp only
  rw [first, applies, noCalls]
  cases given : breakpointMinTokens input.promptCache with
  | none => simp [applyAnthropicMovingHistoryBreakpoint, given]
  | some minTokens => simp

/-- The marker of a main turn never moves back while the history grows, and does not get lost
unless it comes to stand on an empty message. -/
theorem marker_moves_on {old new : Request Args} (grows : Grows old new)
    (eq : buildAnthropicMessages argumentBytes old = .ok messages)
    (eq' : buildAnthropicMessages argumentBytes new = .ok messages') {i : Nat}
    (marked : markerAt messages = some i) :
    (∀ j, markerAt messages' = some j → i ≤ j) ∧
      ((∀ m ∈ stable old, NonEmpty m.content) → (markerAt messages').isSome) := by
  obtain ⟨history, followUp, eqHistory, eqFollowUp, rfl⟩ := build_some eq
  obtain ⟨history', followUp', eqHistory', eqFollowUp', rfl⟩ := build_some eq'
  obtain ⟨appended, more, filled⟩ := grows.history
  rw [grows.followUp, eqFollowUp] at eqFollowUp'
  cases eqFollowUp'
  -- the history of the new request is that of the old one and what is built of the rest
  rw [← stableHistory_filter] at eqHistory eqHistory'
  have split := eqHistory'
  rw [← stable, more, stableHistory_append, stable, eqHistory] at split
  cases rest : stableHistory appended with
  | error e => rw [rest] at split; cases split
  | ok added =>
    rw [rest] at split
    obtain rfl : history ++ added = history' := Except.ok.inj split
    have main' := grows.mainTurn
    rw [← grows.classification] at main'
    rw [List.append_assoc, markerAt_append (unmarked_tail old),
      durable_mainTurn argumentBytes grows.mainTurn grows.noCalls.1] at marked
    rw [List.append_assoc, markerAt_append (unmarked_tail new),
      durable_mainTurn argumentBytes main' grows.noCalls.2, grows.promptCache]
    have unmarked := (unmarked_stableHistory eqHistory).append (toolFollowUp_spec eqFollowUp).1
    have unmarked' := (unmarked_stableHistory eqHistory').append (toolFollowUp_spec eqFollowUp).1
    cases given : breakpointMinTokens old.promptCache with
    | none =>
      rw [applyAnthropicMovingHistoryBreakpoint, given, markerAt_of_unmarked unmarked] at marked
      cases marked
    | some minTokens =>
      rw [markerAt_apply given unmarked, Option.filter_eq_some_iff] at marked
      rw [markerAt_apply given unmarked']
      have asked := (toolFollowUp_spec eqFollowUp).2.2
      obtain ⟨j, next, later⟩ := candidate_moves_on asked added marked.1
      rw [next]
      refine ⟨fun j' at_j' => ?_, fun full => ?_⟩
      · rw [Option.filter_eq_some_iff] at at_j'
        cases at_j'.1
        exact later
      · have fits := capable_of_nonEmpty eqHistory' fun m member => by
          rcases List.mem_append.mp (more ▸ member : m ∈ stable old ++ appended) with old' | new'
          · exact full m old'
          · exact filled m new'
        have low := candidate_lt asked next
        have capable := fits _ (List.getElem_mem low)
        rw [Option.filter_some, List.getElem?_append_left low, List.getElem?_eq_getElem low,
          Option.bind_some, if_pos capable]
        rfl

/-- The parts of a layout. -/
structure LaidOut (input : Request Args) (messages plain : List (Message Args)) : Prop where
  /-- The messages are those of the request without a cache but for markers, up to the developer
  instructions. -/
  same : ∃ front, messages =
    front ++ (buildAnthropicDeveloperInstructionsSuffix input).toList ∧
      List.Forall₂ SameUnmarked plain front
  /-- There are at most three markers, where four are allowed. -/
  markers : systemMarkers (buildAnthropicSystemBlocks input) + totalMarkers messages ≤ 3
  /-- None is on a volatile message or on the developer instructions. -/
  tail : ∃ body, messages = body ++ (volatileContextMessages input ++
    (buildAnthropicDeveloperInstructionsSuffix input).toList) ∧
      Unmarked (volatileContextMessages input ++
        (buildAnthropicDeveloperInstructionsSuffix input).toList)
  follow : ToolResultsFollow messages

theorem follow_of_user {messages : List (Message Args)}
    (texts : ∀ m ∈ messages, ∃ text, m.bodies = [.text text]) : ToolResultsFollow messages :=
  follow_of_none fun m member => by
    obtain ⟨text, bodies⟩ := texts m member
    simp [toolResultIds, bodies]

theorem tail_texts (input : Request Args) : ∀ m ∈ volatileContextMessages input ++
    (buildAnthropicDeveloperInstructionsSuffix input).toList, ∃ text, m.bodies = [.text text] := by
  intro m member
  rcases List.mem_append.mp member with volatile | developer
  · obtain ⟨message, -, rfl⟩ := List.mem_map.mp volatile
    exact ⟨_, rfl⟩
  · rw [Option.mem_toList, buildAnthropicDeveloperInstructionsSuffix] at developer
    split at developer
    · obtain ⟨text, -, rfl⟩ := Option.map_eq_some_iff.mp developer
      exact ⟨_, rfl⟩
    · cases developer

/-- For every request: with and without a cache its messages are built, or fail to be with one
error; they are laid out alike, with few markers in their places and the tool results behind
their calls; and the marker of a main turn does not move back while the history grows. -/
theorem prompt_cache_layout (argumentBytes : Args → Nat) (input : Request Args) :
    (∀ e, buildAnthropicMessages argumentBytes input = .error e ↔
      buildAnthropicMessages argumentBytes (withoutPromptCache input) = .error e) ∧
    (∀ messages, buildAnthropicMessages argumentBytes input = .ok messages →
      ∃ plain, buildAnthropicMessages argumentBytes (withoutPromptCache input) = .ok plain ∧
        LaidOut input messages plain) ∧
    ∀ new, Grows input new → ∀ messages messages' i,
      buildAnthropicMessages argumentBytes input = .ok messages →
      buildAnthropicMessages argumentBytes new = .ok messages' →
      markerAt messages = some i →
      (∀ j, markerAt messages' = some j → i ≤ j) ∧
        ((∀ m ∈ stable input, NonEmpty m.content) → (markerAt messages').isSome) := by
  refine ⟨fun e => ?_, fun messages eq => ?_, fun new grows messages messages' i eq eq' marked =>
    marker_moves_on grows eq eq' marked⟩
  · rw [build_eq, build_eq]
    cases first : stableHistory input.messages with
    | error e' => simp [withoutPromptCache, first, Except.bind]
    | ok history =>
      cases last : @toolFollowUp Args input.toolFollowUpUserContent with
      | error e' => simp [withoutPromptCache, first, last, Except.bind, Except.map]
      | ok followUp => simp [withoutPromptCache, first, last, Except.bind, Except.map]
  · obtain ⟨history, followUp, first, last, rfl⟩ := build_some eq
    have unmarked := unmarked_stableHistory first
    obtain ⟨unmarkedLast, followLast, -⟩ := toolFollowUp_spec last
    have same : List.Forall₂ SameUnmarked
        (history ++ input.toolHistory.flatMap exchangeMessages ++ followUp)
        (durable argumentBytes input history followUp) :=
      (marked_durable argumentBytes input history followUp).imp fun _ _ => sameUnmarked_of_marked
    have volatile : List.Forall₂ SameUnmarked (volatileContextMessages input)
        (volatileContextMessages input) :=
      List.forall₂_same.mpr fun _ _ => ⟨rfl, rfl, fun _ => rfl⟩
    refine ⟨history ++ input.toolHistory.flatMap exchangeMessages ++ followUp ++
      volatileContextMessages input, ?_, ⟨_, rfl, List.rel_append same volatile⟩, ?_,
      ⟨_, List.append_assoc .., unmarked_tail input⟩, ?_⟩
    · rw [build_eq]
      simp only [withoutPromptCache, first, last, Except.bind, Except.map]
      rw [← durable_withoutPromptCache argumentBytes input history followUp]
      exact congrArg Except.ok (List.append_nil _)
    · have system := systemMarkers_le input
      have front := markers_durable argumentBytes input unmarked unmarkedLast
      have tail := (unmarked_tail input).total
      rw [List.append_assoc, totalMarkers_append, tail]
      omega
    · rw [List.append_assoc]
      refine (follow_of_same same ?_).append (follow_of_user (tail_texts input))
      exact ((follow_stableHistory first).append (follow_exchanges _)).append followLast

/-- A main turn with chunks of a token. -/
def chat (messages : List (TextMessage String)) : Request String where
  messages
  promptCache := some ⟨some 1⟩

def greeting : List (TextMessage String) :=
  [{ role := .user, content := .text "Hi!" }, { role := .assistant, content := .text "Hello!" }]

def built (input : Request String) : List (Message String) :=
  (buildAnthropicMessages String.utf8ByteSize input).toOption.getD []

/-- The marker stands on the answer, and on no earlier message once the next one has come. -/
theorem prompt_cache_layout_chat :
    ∃ j, markerAt (built (chat greeting)) = some 1 ∧
      markerAt (built (chat (greeting ++ greeting))) = some j ∧ 1 ≤ j := by
  have grows : Grows (chat greeting) (chat (greeting ++ greeting)) :=
    ⟨.inl rfl, rfl, rfl, ⟨rfl, rfl⟩, rfl, greeting, rfl, by simp [greeting, NonEmpty]⟩
  have first : buildAnthropicMessages String.utf8ByteSize (chat greeting) =
      .ok (built (chat greeting)) := by decide +kernel
  have second : buildAnthropicMessages String.utf8ByteSize (chat (greeting ++ greeting)) =
      .ok (built (chat (greeting ++ greeting))) := by decide +kernel
  have marked : markerAt (built (chat greeting)) = some 1 := by decide +kernel
  obtain ⟨later, kept⟩ := (prompt_cache_layout String.utf8ByteSize (chat greeting)).2.2 _ grows _ _
    1 first second marked
  obtain ⟨j, at_j⟩ :=
    Option.isSome_iff_exists.mp (kept (by simp [stable, chat, greeting, NonEmpty]))
  exact ⟨j, marked, at_j, later j at_j⟩

end Persai.AnthropicRequest
