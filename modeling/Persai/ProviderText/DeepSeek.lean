import Mathlib.Data.List.Induction
import Persai.KeyedTable
import Persai.ProviderText.Results

/-!
# The DeepSeek client

`generateText` reads a whole completion, `streamText` its chunks. A `Stream` is a completion with
one way of cutting it into chunks.
-/

namespace Persai.ProviderText.DeepSeek

open ModelCost

variable {Args : Type}

/-! ## The whole response -/

structure CompletionToolCall where
  id : String
  name : String
  arguments : String
  deriving DecidableEq, Repr

/-- The message of the first choice, its finish reason, and the usage. -/
structure Completion where
  content : Option String
  reasoningContent : Option String
  toolCalls : List CompletionToolCall
  finishReason : Option String
  usage : Option Row

def parseToolArguments (json : Json Args) (value : String) : Args :=
  match json.parse value with
  | some (.object row) => row
  | _ => json.emptyObject

def parseToolCalls (json : Json Args) (toolCalls : List CompletionToolCall) :
    List (ToolCall Args) :=
  toolCalls.map fun entry => ⟨entry.id, entry.name, parseToolArguments json entry.arguments⟩

def toUsageSnapshot (input : TextRequest) (usage : Option Row) : Option UsageSnapshot :=
  Client.deepseek.toUsageSnapshot input.model usage

def generateText (json : Json Args) (input : TextRequest) (response : Completion) :
    TextResult Args :=
  let toolCalls := parseToolCalls json response.toolCalls
  if toolCalls ≠ [] then
    { model := input.model
      text := response.content.bind normalizeOptionalText
      usage := toUsageSnapshot input response.usage
      textUsage := input.textUsage .deepseek response.usage
      stopReason := .toolCalls
      reasoningContent := response.reasoningContent.bind normalizeOptionalText
      truncated := none
      toolCalls }
  else
    { model := input.model
      text := response.content.bind normalizeOptionalText
      usage := toUsageSnapshot input response.usage
      textUsage := input.textUsage .deepseek response.usage
      stopReason := .completed
      reasoningContent := none
      truncated := some (response.finishReason == some "length")
      toolCalls := [] }

/-! ## The stream -/

structure ToolCallDelta where
  index : Option Nat
  id : Option String
  name : Option String
  arguments : Option String
  deriving DecidableEq, Repr

/-- A chunk: its usage, and the delta and finish reason of its first choice. -/
structure Chunk where
  usage : Option Row
  reasoningContent : Option String
  content : Option String
  toolCalls : List ToolCallDelta
  finishReason : Option String

/-- `DeepSeekStreamToolCallState`. -/
structure StreamedToolCall where
  id : String
  name : Option String
  argumentsText : String
  deriving DecidableEq, Repr

structure State where
  accumulatedText : String
  accumulatedReasoning : String
  streamedToolCalls : KeyedTable Nat StreamedToolCall
  finishReason : Option String
  streamUsage : Option Row

def State.initial : State := ⟨"", "", ∅, none, none⟩

/-- A text of a delta that is a string with characters. -/
def given (value : Option String) : Option String := value.filter fun text => !text.isEmpty

/-- The state of a tool call before its first entry is read. -/
def ToolCallDelta.opened (entry : ToolCallDelta) : StreamedToolCall :=
  ⟨entry.id.getD ("tool-" ++ toString (entry.index.getD 0)), none, ""⟩

def ToolCallDelta.apply (entry : ToolCallDelta) (current : StreamedToolCall) :
    StreamedToolCall where
  id := (given entry.id).getD current.id
  name := (given entry.name).or current.name
  argumentsText := current.argumentsText ++ (given entry.arguments).getD ""

def accumulateStreamToolCalls (store : KeyedTable Nat StreamedToolCall)
    (toolCalls : List ToolCallDelta) : KeyedTable Nat StreamedToolCall :=
  toolCalls.foldl (fun store entry =>
    store.upsert (entry.index.getD 0) (entry.apply entry.opened) entry.apply) store

def finalizeStreamToolCalls (json : Json Args) (store : KeyedTable Nat StreamedToolCall) :
    List (ToolCall Args) :=
  store.rows.filterMap fun (_, entry) =>
    entry.name.map fun name => ⟨entry.id, name, parseToolArguments json entry.argumentsText⟩

def State.read (s : State) (chunk : Chunk) : State where
  streamUsage := chunk.usage.or s.streamUsage
  accumulatedReasoning := s.accumulatedReasoning ++ (given chunk.reasoningContent).getD ""
  accumulatedText := s.accumulatedText ++ (given chunk.content).getD ""
  streamedToolCalls := accumulateStreamToolCalls s.streamedToolCalls chunk.toolCalls
  finishReason := chunk.finishReason.or s.finishReason

/-- What a chunk yields at once, in the state before it. -/
def State.yields (s : State) (chunk : Chunk) : List (StreamEvent Args) :=
  ((given chunk.reasoningContent).map fun delta =>
    StreamEvent.thinkingDelta delta (s.accumulatedReasoning ++ delta)).toList ++
  ((given chunk.content).map fun delta =>
    StreamEvent.textDelta delta (s.accumulatedText ++ delta)).toList

def toolCallsResult (input : TextRequest) (s : State) (toolCalls : List (ToolCall Args)) :
    TextResult Args where
  model := input.model
  text := normalizeOptionalText s.accumulatedText
  usage := toUsageSnapshot input s.streamUsage
  textUsage := input.textUsage .deepseek s.streamUsage
  stopReason := .toolCalls
  reasoningContent := normalizeOptionalText s.accumulatedReasoning
  truncated := none
  toolCalls := toolCalls

def completedResult (input : TextRequest) (s : State) : TextResult Args where
  model := input.model
  text := normalizeOptionalText s.accumulatedText
  usage := toUsageSnapshot input s.streamUsage
  textUsage := input.textUsage .deepseek s.streamUsage
  stopReason := .completed
  reasoningContent := none
  truncated := some (s.finishReason == some "length")
  toolCalls := []

/-- The terminal event after the last chunk. -/
def ended (json : Json Args) (input : TextRequest) (s : State) : StreamEvent Args :=
  let finalizedToolCalls := finalizeStreamToolCalls json s.streamedToolCalls
  if finalizedToolCalls ≠ [] then .toolCalls (toolCallsResult input s finalizedToolCalls)
  else .completed (completedResult input s)

def streamTextFrom (json : Json Args) (input : TextRequest) : State → List Chunk →
    List (StreamEvent Args)
  | s, [] => [ended json input s]
  | s, chunk :: rest => s.yields chunk ++ streamTextFrom json input (s.read chunk) rest

/-- The events of `streamText`, without abort and timeout. -/
def streamText (json : Json Args) (input : TextRequest) (chunks : List Chunk) :
    List (StreamEvent Args) :=
  .keepalive :: streamTextFrom json input .initial chunks

/-! ## Cutting a completion into chunks -/

/-- The entries of all chunks for one tool call. -/
def entriesOf (chunks : List Chunk) (index : Nat) : List ToolCallDelta :=
  (chunks.flatMap Chunk.toolCalls).filter fun entry => entry.index == some index

/-- The entries of a tool call: its arguments are cut, its id and its name are given whole by at
least one entry, and left out or empty in the others. -/
structure CallEntries (call : CompletionToolCall) (entries : List ToolCallDelta) : Prop where
  id : ∃ entry ∈ entries, entry.id = some call.id
  ids : ∀ entry ∈ entries, ∀ id, entry.id = some id → id = "" ∨ id = call.id
  name : ∃ entry ∈ entries, entry.name = some call.name
  names : ∀ entry ∈ entries, ∀ name, entry.name = some name → name = "" ∨ name = call.name
  arguments : String.join (entries.filterMap ToolCallDelta.arguments) = call.arguments

/-- A completion and one way of cutting it: the texts in fragments, the entries of the tool calls
under their indices, the finish reason and the usage last given. -/
structure Stream where
  completion : Completion
  chunks : List Chunk
  content : String.join (chunks.filterMap Chunk.content) = completion.content.getD ""
  reasoningContent :
    String.join (chunks.filterMap Chunk.reasoningContent) = completion.reasoningContent.getD ""
  finishReason : (chunks.filterMap Chunk.finishReason).getLast? = completion.finishReason
  usage : (chunks.filterMap Chunk.usage).getLast? = completion.usage
  indexed : ∀ entry ∈ chunks.flatMap Chunk.toolCalls,
    ∃ index < completion.toolCalls.length, entry.index = some index
  calls : ∀ index call, completion.toolCalls[index]? = some call →
    CallEntries call (entriesOf chunks index)

/-! ## What the chunks leave -/

@[simp] theorem given_none : given none = none := rfl

@[simp] theorem given_empty : given (some "") = none := rfl

theorem given_some {text : String} (shown : text ≠ "") : given (some text) = some text := by
  unfold given
  rw [Option.filter_some, if_pos (by simpa using shown)]

theorem given_getD (text : String) : (given (some text)).getD "" = text := by
  by_cases empty : text = ""
  · rw [empty, given_empty, Option.getD_none]
  · rw [given_some empty, Option.getD_some]

/-- Of texts that are empty or one and the same, the last with characters is that one. -/
theorem foldl_given {target : String} {texts : List (Option String)}
    (alike : ∀ text, some text ∈ texts → text = "" ∨ text = target) (current : Option String) :
    texts.foldl (fun current text => (given text).or current) current =
      if target ≠ "" ∧ some target ∈ texts then some target else current := by
  induction texts generalizing current with
  | nil => simp
  | cons text rest ih =>
    rw [List.foldl_cons, ih fun text later => alike text (List.mem_cons_of_mem _ later)]
    cases text with
    | none => simp
    | some text =>
      rcases alike text List.mem_cons_self with rfl | rfl
      · by_cases same : target = "" <;> simp [same]
      · by_cases empty : text = ""
        · simp [empty]
        · simp [given_some empty, empty]

/-- The state of a tool call after its entries. -/
def callState (entries : List ToolCallDelta) : Option StreamedToolCall :=
  entries.foldl (fun state entry => some (state.elim (entry.apply entry.opened) entry.apply)) none

theorem get?_accumulate (entries : List ToolCallDelta) (index : Nat) :
    (accumulateStreamToolCalls ∅ entries).get? index =
      callState (entries.filter fun entry => entry.index.getD 0 == index) := by
  induction entries using List.reverseRecOn with
  | nil => rfl
  | append_singleton entries entry ih =>
    unfold accumulateStreamToolCalls callState at ih ⊢
    rw [List.foldl_append, List.foldl_cons, List.foldl_nil, KeyedTable.get?_upsert]
    by_cases same : index = entry.index.getD 0
    · subst same
      simp [ih]
    · simp [ih, Ne.symm same, same]

/-- The indices of entries in the order of their first appearance. -/
def appearances (entries : List ToolCallDelta) : List Nat :=
  (entries.map fun entry => entry.index.getD 0).eraseDups

theorem keys_accumulate (entries : List ToolCallDelta) :
    (accumulateStreamToolCalls ∅ entries).rows.map Prod.fst = appearances entries := by
  induction entries using List.reverseRecOn with
  | nil => rfl
  | append_singleton entries entry ih =>
    unfold accumulateStreamToolCalls appearances at ih ⊢
    rw [List.foldl_append, List.foldl_cons, List.foldl_nil, KeyedTable.keys_upsert, ih,
      List.map_append, List.eraseDups_append]
    simp only [List.mem_eraseDups, List.map_cons, List.map_nil, List.removeAll]
    split
    · rename_i seen
      simp [List.mem_map.mp seen]
    · rename_i fresh
      simp [List.mem_map.not.mp fresh, List.eraseDups_cons]

theorem apply_foldl (entries : List ToolCallDelta) (state : StreamedToolCall) :
    (entries.foldl (fun state entry => entry.apply state) state).name =
      (entries.map ToolCallDelta.name).foldl (fun current text => (given text).or current)
        state.name ∧
    some (entries.foldl (fun state entry => entry.apply state) state).id =
      (entries.map ToolCallDelta.id).foldl (fun current text => (given text).or current)
        (some state.id) ∧
    (entries.foldl (fun state entry => entry.apply state) state).argumentsText =
      state.argumentsText ++ String.join (entries.filterMap ToolCallDelta.arguments) := by
  induction entries generalizing state with
  | nil => simp
  | cons entry rest ih =>
    obtain ⟨name, id, arguments⟩ := ih (entry.apply state)
    simp only [List.foldl_cons, List.map_cons]
    refine ⟨name, ?_, ?_⟩
    · rw [id]
      congr 1
      cases written : given entry.id <;> simp [ToolCallDelta.apply, written]
    · rw [arguments]
      cases written : entry.arguments with
      | none => simp [ToolCallDelta.apply, written]
      | some text =>
        simp [ToolCallDelta.apply, written, given_getD, String.append_assoc]

theorem callState_cons (entry : ToolCallDelta) (rest : List ToolCallDelta) :
    callState (entry :: rest) =
      some ((entry :: rest).foldl (fun state entry => entry.apply state) entry.opened) := by
  have from_state (state : StreamedToolCall) (entries : List ToolCallDelta) :
      entries.foldl (fun state entry =>
        some (state.elim (entry.apply entry.opened) entry.apply)) (some state) =
      some (entries.foldl (fun state entry => entry.apply state) state) := by
    induction entries generalizing state with
    | nil => rfl
    | cons entry rest ih => exact ih (entry.apply state)
  exact from_state (entry.apply entry.opened) rest

/-- The id that the stream gives to a tool call. -/
def streamedId (call : CompletionToolCall) (entries : List ToolCallDelta) (index : Nat) : String :=
  if call.id = "" then (entries.head?.bind ToolCallDelta.id).getD ("tool-" ++ toString index)
  else call.id

/-- The entries of a tool call give its arguments, its name where it is not empty, and its id. -/
theorem callState_of_entries {call : CompletionToolCall} {entries : List ToolCallDelta}
    {index : Nat} (cut : CallEntries call entries)
    (indexed : ∀ entry ∈ entries, entry.index = some index) :
    callState entries = some ⟨streamedId call entries index,
      if call.name = "" then none else some call.name, call.arguments⟩ := by
  cases entries with
  | nil =>
    obtain ⟨entry, absent, -⟩ := cut.id
    exact absurd absent List.not_mem_nil
  | cons entry rest =>
    rw [callState_cons]
    obtain ⟨name, id, arguments⟩ := apply_foldl (entry :: rest) entry.opened
    generalize (entry :: rest).foldl (fun state entry => entry.apply state) entry.opened = final
      at name id arguments
    have named : some call.name ∈ (entry :: rest).map ToolCallDelta.name :=
      List.mem_map.mpr cut.name
    have identified : some call.id ∈ (entry :: rest).map ToolCallDelta.id :=
      List.mem_map.mpr cut.id
    have namesAlike : ∀ text, some text ∈ (entry :: rest).map ToolCallDelta.name →
        text = "" ∨ text = call.name := by
      intro text member
      obtain ⟨other, among, written⟩ := List.mem_map.mp member
      exact cut.names other among text written
    have idsAlike : ∀ text, some text ∈ (entry :: rest).map ToolCallDelta.id →
        text = "" ∨ text = call.id := by
      intro text member
      obtain ⟨other, among, written⟩ := List.mem_map.mp member
      exact cut.ids other among text written
    rw [foldl_given namesAlike] at name
    rw [foldl_given idsAlike] at id
    rw [cut.arguments] at arguments
    have same_id : final.id = streamedId call (entry :: rest) index := by
      unfold streamedId
      by_cases empty : call.id = ""
      · rw [if_neg (fun shown => shown.1 empty)] at id
        rw [if_pos empty, Option.some.inj id, ToolCallDelta.opened,
          indexed entry List.mem_cons_self]
        rfl
      · rw [if_pos ⟨empty, identified⟩] at id
        rw [if_neg empty, Option.some.inj id]
    have same_name : final.name = if call.name = "" then none else some call.name := by
      rw [name]
      by_cases empty : call.name = ""
      · rw [if_neg (fun shown => shown.1 empty), if_pos empty]
        rfl
      · rw [if_pos ⟨empty, named⟩, if_neg empty]
    cases final
    simp only at same_id same_name arguments
    rw [same_id, same_name, arguments]
    simp [ToolCallDelta.opened]

/-! ## The end of the stream -/

theorem getLast?_streamTextFrom (json : Json Args) (input : TextRequest) (s : State)
    (chunks : List Chunk) :
    (streamTextFrom json input s chunks).getLast? =
      some (ended json input (chunks.foldl State.read s)) := by
  induction chunks generalizing s with
  | nil => rfl
  | cons chunk rest ih => rw [streamTextFrom, List.getLast?_append, ih]; rfl

theorem getLast?_streamText (json : Json Args) (input : TextRequest) (chunks : List Chunk) :
    (streamText json input chunks).getLast? =
      some (ended json input (chunks.foldl State.read .initial)) := by
  rw [streamText, List.getLast?_cons, getLast?_streamTextFrom]
  rfl

/-- What chunks add to a state. -/
structure Reads (s s' : State) (chunks : List Chunk) : Prop where
  text : s'.accumulatedText = s.accumulatedText ++ String.join (chunks.filterMap Chunk.content)
  reasoning : s'.accumulatedReasoning =
    s.accumulatedReasoning ++ String.join (chunks.filterMap Chunk.reasoningContent)
  toolCalls : s'.streamedToolCalls =
    accumulateStreamToolCalls s.streamedToolCalls (chunks.flatMap Chunk.toolCalls)
  finishReason : s'.finishReason = (chunks.filterMap Chunk.finishReason).getLast?.or s.finishReason
  usage : s'.streamUsage = (chunks.filterMap Chunk.usage).getLast?.or s.streamUsage

theorem append_given_getD (text : Option String) (rest : List String) (start : String) :
    start ++ (given text).getD "" ++ String.join rest =
      start ++ String.join (text.toList ++ rest) := by
  cases text with
  | none => simp
  | some text => simp [given_getD, String.append_assoc]

theorem getLast?_filterMap_cons {α β : Type} (f : α → Option β) (a : α) (rest : List α)
    (before : Option β) :
    ((a :: rest).filterMap f).getLast?.or before =
      (rest.filterMap f).getLast?.or ((f a).or before) := by
  rw [List.filterMap_cons]
  cases f a with
  | none => rfl
  | some b =>
    rw [List.getLast?_cons]
    cases (rest.filterMap f).getLast? <;> rfl

theorem filterMap_cons_toList {α β : Type} (f : α → Option β) (a : α) (rest : List α) :
    (a :: rest).filterMap f = (f a).toList ++ rest.filterMap f := by
  rw [List.filterMap_cons]
  cases f a <;> rfl

theorem reads_all (chunks : List Chunk) (s : State) :
    Reads s (chunks.foldl State.read s) chunks := by
  induction chunks generalizing s with
  | nil => exact ⟨by simp, by simp, rfl, rfl, rfl⟩
  | cons chunk rest ih =>
    have after := ih (s.read chunk)
    refine ⟨?_, ?_, ?_, ?_, ?_⟩
    · rw [List.foldl_cons, after.text, filterMap_cons_toList]
      exact append_given_getD ..
    · rw [List.foldl_cons, after.reasoning, filterMap_cons_toList]
      exact append_given_getD ..
    · rw [List.foldl_cons, after.toolCalls, List.flatMap_cons]
      exact (List.foldl_append ..).symm
    · rw [List.foldl_cons, after.finishReason, getLast?_filterMap_cons]
      rfl
    · rw [List.foldl_cons, after.usage, getLast?_filterMap_cons]
      rfl

/-! ## Agreement -/

/-- The indices of the tool calls in the order in which the chunks first name them. -/
def Stream.order (stream : Stream) : List Nat := appearances (stream.chunks.flatMap Chunk.toolCalls)

/-- No tool call has an empty name. -/
def Stream.Named (stream : Stream) : Prop := ∀ call ∈ stream.completion.toolCalls, call.name ≠ ""

/-- An empty id comes with the first entry of its tool call. -/
def Stream.EmptyIdsFirst (stream : Stream) : Prop :=
  ∀ index call, stream.completion.toolCalls[index]? = some call → call.id = "" →
    ∃ entry, (entriesOf stream.chunks index).head? = some entry ∧ entry.id = some ""

/-- The tool calls in the order in which the chunks first name them are those of the completion in
their own order. -/
def Stream.InOrder (json : Json Args) (stream : Stream) : Prop :=
  stream.order.filterMap ((parseToolCalls json stream.completion.toolCalls)[·]?) =
    parseToolCalls json stream.completion.toolCalls

/-- What the stream makes of the tool call at an index. -/
def streamedCall (json : Json Args) (stream : Stream) (index : Nat) : Option (ToolCall Args) :=
  stream.completion.toolCalls[index]?.bind fun call =>
    if call.name = "" then none
    else some ⟨streamedId call (entriesOf stream.chunks index) index, call.name,
      parseToolArguments json call.arguments⟩

theorem entriesOf_indexed (stream : Stream) (index : Nat) :
    entriesOf stream.chunks index =
      (stream.chunks.flatMap Chunk.toolCalls).filter fun entry => entry.index.getD 0 == index := by
  refine List.filter_congr fun entry member => ?_
  obtain ⟨named, -, index_eq⟩ := stream.indexed entry member
  rw [index_eq]
  rfl

theorem mem_order {stream : Stream} {index : Nat} :
    index ∈ stream.order ↔ index < stream.completion.toolCalls.length := by
  unfold Stream.order appearances
  rw [List.mem_eraseDups, List.mem_map]
  constructor
  · rintro ⟨entry, member, rfl⟩
    obtain ⟨named, below, index_eq⟩ := stream.indexed entry member
    rw [index_eq]
    exact below
  · intro below
    obtain ⟨entry, member, -⟩ := (stream.calls index _ (List.getElem?_eq_getElem below)).id
    obtain ⟨among, at_index⟩ := List.mem_filter.mp member
    exact ⟨entry, among, by rw [beq_iff_eq.mp at_index]; rfl⟩

theorem finalize_stream (json : Json Args) (stream : Stream) :
    finalizeStreamToolCalls json
        (accumulateStreamToolCalls ∅ (stream.chunks.flatMap Chunk.toolCalls)) =
      stream.order.filterMap (streamedCall json stream) := by
  unfold finalizeStreamToolCalls
  rw [KeyedTable.rows_eq_keys, keys_accumulate, List.filterMap_filterMap]
  refine List.filterMap_congr fun index member => ?_
  have below := mem_order.mp member
  have cut := stream.calls index _ (List.getElem?_eq_getElem below)
  have indexed : ∀ entry ∈ entriesOf stream.chunks index, entry.index = some index :=
    fun entry among => beq_iff_eq.mp (List.mem_filter.mp among).2
  rw [get?_accumulate, ← entriesOf_indexed, callState_of_entries cut indexed]
  unfold streamedCall
  rw [List.getElem?_eq_getElem below]
  by_cases empty : stream.completion.toolCalls[index].name = "" <;> simp [empty]

theorem filterMap_range_getElem? {α : Type} (l : List α) :
    (List.range l.length).filterMap (l[·]?) = l := by
  induction l with
  | nil => rfl
  | cons a rest ih =>
    rw [List.length_cons, List.range_succ_eq_map, List.filterMap_cons, List.filterMap_map]
    simpa [Function.comp_def] using ih

/-- Counts that are equal of two predicates of which one implies the other. -/
theorem imp_of_countP_eq {α : Type} {p q : α → Bool} {l : List α}
    (imp : ∀ a ∈ l, p a → q a) (same : l.countP p = l.countP q) : ∀ a ∈ l, q a → p a := by
  induction l with
  | nil => exact fun _ absent => absurd absent List.not_mem_nil
  | cons a rest ih =>
    have tail := List.countP_mono_left fun b later => imp b (List.mem_cons_of_mem _ later)
    have head := imp a List.mem_cons_self
    rw [List.countP_cons, List.countP_cons] at same
    intro b member holds
    rcases List.mem_cons.mp member with rfl | later
    · cases here : p b with
      | true => rfl
      | false =>
        rw [here, holds] at same
        simp only [Bool.false_eq_true, if_false, if_true] at same
        omega
    · refine ih (fun c among => imp c (List.mem_cons_of_mem _ among)) ?_ b later holds
      by_cases here : p a
      · rw [if_pos here, if_pos (head here)] at same
        omega
      · rw [if_neg here] at same
        split at same <;> omega

theorem order_perm (stream : Stream) :
    stream.order.Perm (List.range stream.completion.toolCalls.length) := by
  have nodup : stream.order.Nodup := by
    unfold Stream.order
    rw [← keys_accumulate]
    exact (accumulateStreamToolCalls ∅ _).unique
  rw [List.perm_ext_iff_of_nodup nodup List.nodup_range]
  intro index
  rw [mem_order, List.mem_range]

theorem ordered_perm (json : Json Args) (stream : Stream) :
    (stream.order.filterMap ((parseToolCalls json stream.completion.toolCalls)[·]?)).Perm
      (parseToolCalls json stream.completion.toolCalls) := by
  have all := filterMap_range_getElem? (parseToolCalls json stream.completion.toolCalls)
  rw [parseToolCalls, List.length_map, ← parseToolCalls] at all
  have perm := (order_perm stream).filterMap
    ((parseToolCalls json stream.completion.toolCalls)[·]?)
  rwa [all] at perm

theorem streamedId_eq_empty_iff {call : CompletionToolCall} {entries : List ToolCallDelta}
    (cut : CallEntries call entries) (index : Nat) :
    streamedId call entries index = "" ↔
      call.id = "" ∧ ∃ entry, entries.head? = some entry ∧ entry.id = some "" := by
  unfold streamedId
  by_cases empty : call.id = ""
  · rw [if_pos empty]
    cases entries with
    | nil =>
      obtain ⟨entry, absent, -⟩ := cut.id
      exact absurd absent List.not_mem_nil
    | cons entry rest =>
      cases written : entry.id with
      | none => simp [empty, written, String.append_eq_empty_iff]
      | some text =>
        have none_there : text = "" := by
          rcases cut.ids entry List.mem_cons_self text written with rfl | rfl
          · rfl
          · exact empty
        simp [empty, written, none_there]
  · rw [if_neg empty]
    simp [empty]

/-- The streamed call at an index is the completion's, where it has a name and its id is given. -/
theorem streamedCall_eq (json : Json Args) {stream : Stream} (named : stream.Named)
    (idsFirst : stream.EmptyIdsFirst) {index : Nat} (member : index ∈ stream.order) :
    streamedCall json stream index =
      (parseToolCalls json stream.completion.toolCalls)[index]? := by
  have below := mem_order.mp member
  have at_index := List.getElem?_eq_getElem below
  have cut := stream.calls index _ at_index
  have has_name := named _ (List.getElem_mem below)
  have same_id : streamedId stream.completion.toolCalls[index] (entriesOf stream.chunks index)
      index = stream.completion.toolCalls[index].id := by
    by_cases empty : stream.completion.toolCalls[index].id = ""
    · rw [(streamedId_eq_empty_iff cut index).mpr ⟨empty, idsFirst index _ at_index empty⟩, empty]
    · exact if_neg empty
  unfold streamedCall parseToolCalls
  rw [List.getElem?_map, at_index, Option.bind_some, if_neg has_name, same_id]
  rfl

theorem named_of_length {json : Json Args} {stream : Stream}
    (same : stream.order.filterMap (streamedCall json stream) =
      parseToolCalls json stream.completion.toolCalls) : stream.Named := by
  have lengths : stream.order.countP (fun index => (streamedCall json stream index).isSome) =
      stream.order.length := by
    rw [← List.length_filterMap_eq_countP, same, (order_perm stream).length_eq, parseToolCalls,
      List.length_map, List.length_range]
  intro call member empty
  obtain ⟨index, below, rfl⟩ := List.getElem_of_mem member
  have there := List.countP_eq_length.mp lengths index (mem_order.mpr below)
  unfold streamedCall at there
  rw [List.getElem?_eq_getElem below, Option.bind_some, if_pos empty] at there
  cases there

theorem emptyIdsFirst_of_count {json : Json Args} {stream : Stream}
    (same : stream.order.filterMap (streamedCall json stream) =
      parseToolCalls json stream.completion.toolCalls) : stream.EmptyIdsFirst := by
  have counts : (stream.order.countP fun index =>
        ((streamedCall json stream index).map (·.id == "")).getD false) =
      stream.order.countP fun index =>
        (((parseToolCalls json stream.completion.toolCalls)[index]?).map (·.id == "")).getD
          false := by
    rw [← List.countP_filterMap, same, ← List.countP_filterMap,
      (ordered_perm json stream).countP_eq]
  have wholeId {index : Nat} (below : index < stream.completion.toolCalls.length) :
      (((parseToolCalls json stream.completion.toolCalls)[index]?).map (·.id == "")).getD false =
        true ↔ stream.completion.toolCalls[index].id = "" := by
    rw [parseToolCalls, List.getElem?_map, List.getElem?_eq_getElem below]
    simp
  have streamedEmpty {index : Nat} (below : index < stream.completion.toolCalls.length) :
      ((streamedCall json stream index).map (·.id == "")).getD false = true ↔
        streamedId stream.completion.toolCalls[index] (entriesOf stream.chunks index) index =
          "" := by
    have has_name := named_of_length same _ (List.getElem_mem below)
    unfold streamedCall
    rw [List.getElem?_eq_getElem below, Option.bind_some, if_neg has_name]
    simp
  intro index call at_index empty
  obtain ⟨below, rfl⟩ := List.getElem?_eq_some_iff.mp at_index
  have cut (i : Nat) (h : i < stream.completion.toolCalls.length) :=
    stream.calls i _ (List.getElem?_eq_getElem h)
  have given := imp_of_countP_eq (fun i member shown => ?_) counts index (mem_order.mpr below)
    ((wholeId below).mpr empty)
  · exact ((streamedId_eq_empty_iff (cut index below) index).mp
      ((streamedEmpty below).mp given)).2
  · have there := mem_order.mp member
    exact (wholeId there).mpr
      ((streamedId_eq_empty_iff (cut i there) i).mp ((streamedEmpty there).mp shown)).1

theorem finalized_eq_iff (json : Json Args) (stream : Stream) :
    stream.order.filterMap (streamedCall json stream) =
        parseToolCalls json stream.completion.toolCalls ↔
      stream.Named ∧ stream.EmptyIdsFirst ∧ stream.InOrder json := by
  constructor
  · intro same
    have named := named_of_length same
    have idsFirst := emptyIdsFirst_of_count same
    refine ⟨named, idsFirst, ?_⟩
    rw [List.filterMap_congr fun _ member => streamedCall_eq json named idsFirst member] at same
    exact same
  · rintro ⟨named, idsFirst, inOrder⟩
    rw [List.filterMap_congr fun _ member => streamedCall_eq json named idsFirst member]
    exact inOrder

/-- The result that the terminal event carries, and the whole response's. -/
structure Fields (result : TextResult Args) (input : TextRequest) (text : Option String)
    (counts : Option Row) (finishReason : Option String) (toolCalls : List (ToolCall Args)) :
    Prop where
  text : result.text = text
  usage : result.usage = toUsageSnapshot input counts
  textUsage : result.textUsage = input.textUsage .deepseek counts
  truncated : result.truncated =
    if toolCalls = [] then some (finishReason == some "length") else none
  toolCalls : result.toolCalls = toolCalls

theorem ended_fields (json : Json Args) (input : TextRequest) (s : State) :
    ∃ result, (ended json input s).result? = some result ∧
      Fields result input (normalizeOptionalText s.accumulatedText) s.streamUsage s.finishReason
        (finalizeStreamToolCalls json s.streamedToolCalls) := by
  unfold ended
  dsimp only
  split
  · rename_i called
    refine ⟨_, rfl, ?_⟩
    unfold toolCallsResult
    exact ⟨by dsimp only, rfl, rfl, (if_neg called).symm, rfl⟩
  · rename_i none_called
    have empty := not_not.mp none_called
    refine ⟨_, rfl, ?_⟩
    unfold completedResult
    exact ⟨by dsimp only, rfl, rfl, (if_pos empty).symm, empty.symm⟩

theorem generateText_fields (json : Json Args) (input : TextRequest) (response : Completion) :
    Fields (generateText json input response) input (response.content.bind normalizeOptionalText)
      response.usage response.finishReason (parseToolCalls json response.toolCalls) := by
  unfold generateText
  dsimp only
  split
  · rename_i called
    exact ⟨by dsimp only, rfl, rfl, (if_neg called).symm, rfl⟩
  · rename_i none_called
    have empty := not_not.mp none_called
    exact ⟨by dsimp only, rfl, rfl, (if_pos empty).symm, empty.symm⟩

/-- Streaming a completion gives the whole response's result exactly when its tool calls have
names, their empty ids come first, and the chunks name them in their own order. -/
theorem agrees_iff (json : Json Args) (input : TextRequest) (stream : Stream) :
    Agrees (streamText json input stream.chunks) (generateText json input stream.completion) ↔
      stream.Named ∧ stream.EmptyIdsFirst ∧ stream.InOrder json := by
  have reads := reads_all stream.chunks .initial
  obtain ⟨streamed, carried, fields⟩ := ended_fields json input
    (stream.chunks.foldl State.read .initial)
  have whole := generateText_fields json input stream.completion
  have calls : finalizeStreamToolCalls json
      (stream.chunks.foldl State.read State.initial).streamedToolCalls =
      stream.order.filterMap (streamedCall json stream) := by
    rw [reads.toolCalls]
    exact finalize_stream json stream
  have usage : (stream.chunks.foldl State.read State.initial).streamUsage =
      stream.completion.usage := by
    rw [reads.usage, stream.usage]
    exact Option.or_none
  have finishReason : (stream.chunks.foldl State.read State.initial).finishReason =
      stream.completion.finishReason := by
    rw [reads.finishReason, stream.finishReason]
    exact Option.or_none
  have text : normalizeOptionalText
      (stream.chunks.foldl State.read State.initial).accumulatedText =
      stream.completion.content.bind normalizeOptionalText := by
    rw [reads.text, stream.content, State.initial, String.empty_append]
    cases stream.completion.content with
    | none => decide
    | some content => rw [Option.getD_some, Option.bind_some]
  rw [calls, usage, finishReason, text] at fields
  have only : Agrees (streamText json input stream.chunks)
      (generateText json input stream.completion) ↔
        streamed.SameAs (generateText json input stream.completion) := by
    unfold Agrees
    rw [getLast?_streamText, Option.bind_some, carried]
    simp
  rw [only, ← finalized_eq_iff json stream]
  constructor
  · intro same
    exact fields.toolCalls.symm.trans (same.toolCalls.trans whole.toolCalls)
  · intro same
    rw [same] at fields
    exact ⟨fields.text.trans whole.text.symm, fields.toolCalls.trans whole.toolCalls.symm,
      fields.usage.trans whole.usage.symm, fields.textUsage.trans whole.textUsage.symm,
      fields.truncated.trans whole.truncated.symm⟩

end Persai.ProviderText.DeepSeek
