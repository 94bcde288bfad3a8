import Mathlib.Data.List.Forall2
import Mathlib.Data.List.Induction
import Mathlib.Algebra.BigOperators.Group.List.Basic
import Persai.AnthropicRequest.Messages

/-!
# What markers change

* `Marked`: a message and the message with or without a marker on its last block;
  `marked_apply`: no pass of the markers changes more;
* `markers_apply`: a pass adds at most one marker;
* `candidateFrom_some`, `candidateFrom_ge`: where the marker of the history goes.
-/

namespace Persai.AnthropicRequest

variable {Args : Type} {argumentBytes : Args → Nat} {message message' : Message Args}
  {messages messages' : List (Message Args)}

/-- What the blocks of a message say, a text taken as its one text block. -/
def Message.bodies (message : Message Args) : List (BlockBody Args) :=
  match message.content with
  | .text text => [.text text]
  | .blocks blocks => blocks.map (·.body)

/-- How many blocks have a marker. -/
def blockMarkers (blocks : List (Block Args)) : Nat :=
  (blocks.filter (·.cacheControl.isSome)).length

def Message.markers (message : Message Args) : Nat :=
  match message.content with
  | .text _ => 0
  | .blocks blocks => blockMarkers blocks

def totalMarkers (messages : List (Message Args)) : Nat := (messages.map Message.markers).sum

/-- The message itself, or with a marker. -/
def Marked (message message' : Message Args) : Prop :=
  message' = message ∨ attachCacheControlToLastBlock message = some message'

/-! ## A marker on a message -/

theorem attachToLast_concat (blocks : List (Block Args)) (block : Block Args) :
    attachToLast (blocks ++ [block]) =
      some (blocks ++ [{ block with cacheControl := some .ephemeral }]) := by
  induction blocks with
  | nil =>
    have capable : cacheControlCapable block.body = true := by cases block.body <;> rfl
    simp [attachToLast, capable]
  | cons first blocks ih => rw [List.cons_append, attachToLast, ih]; rfl

/-- The last block of a message that is not empty gets the marker. -/
theorem attachToLast_cases (blocks : List (Block Args)) :
    (blocks = [] ∧ attachToLast blocks = none) ∨
      ∃ before block, blocks = before ++ [block] ∧ attachToLast blocks =
        some (before ++ [{ block with cacheControl := some .ephemeral }]) := by
  induction blocks using List.reverseRecOn with
  | nil => exact .inl ⟨rfl, rfl⟩
  | append_singleton before block _ =>
    exact .inr ⟨before, block, rfl, attachToLast_concat before block⟩

/-- What a marker leaves as it was. -/
structure SameBut (message message' : Message Args) : Prop where
  role : message'.role = message.role
  bodies : message'.bodies = message.bodies
  markers : message'.markers ≤ message.markers + 1
  marked : 0 < message'.markers
  again : attachCacheControlToLastBlock message' = some message'

theorem attach_spec (attached : attachCacheControlToLastBlock message = some message') :
    SameBut message message' := by
  obtain ⟨role, content⟩ := message
  cases content with
  | text text =>
    cases attached
    exact ⟨rfl, rfl, Nat.le_refl _, Nat.one_pos, rfl⟩
  | blocks blocks =>
    obtain ⟨blocks', last, rfl⟩ := Option.map_eq_some_iff.mp attached
    obtain ⟨-, none⟩ | ⟨before, block, rfl, eq⟩ := attachToLast_cases blocks
    · rw [none] at last
      cases last
    · obtain rfl := Option.some.inj (eq.symm.trans last)
      refine ⟨rfl, by simp [Message.bodies], ?_, ?_, ?_⟩
      · simp only [Message.markers, blockMarkers, List.filter_append, List.length_append]
        have : ∀ b : Block Args, ([b].filter (·.cacheControl.isSome)).length ≤ 1 :=
          fun b => List.length_filter_le ..
        have := this { block with cacheControl := some .ephemeral }
        omega
      · simp [Message.markers, blockMarkers]
      · simp only [attachCacheControlToLastBlock, attachToLast_concat, Option.map_some]

theorem attach_eq_none : attachCacheControlToLastBlock message = none ↔
    message.content = .blocks [] := by
  obtain ⟨role, content⟩ := message
  cases content with
  | text text => simp [attachCacheControlToLastBlock]
  | blocks blocks =>
    obtain ⟨rfl, none⟩ | ⟨before, block, rfl, eq⟩ := attachToLast_cases blocks
    · simp [attachCacheControlToLastBlock, none]
    · simp [attachCacheControlToLastBlock, eq]

/-! ## A pass of the markers -/

theorem marked_withMarker (marked : Marked message message') :
    Marked message (withMarker message') := by
  unfold withMarker
  cases attached : attachCacheControlToLastBlock message' with
  | none => exact marked
  | some marked' =>
    rcases marked with rfl | first
    · exact .inr attached
    · -- a second marker goes where the first one is
      rw [(attach_spec first).again] at attached
      cases attached
      exact .inr first

theorem markers_withMarker (message : Message Args) :
    (withMarker message).markers ≤ message.markers + 1 := by
  unfold withMarker
  cases attached : attachCacheControlToLastBlock message with
  | none => exact Nat.le_succ _
  | some message' => exact (attach_spec attached).markers

theorem marked_attachAt (marked : List.Forall₂ Marked messages messages') (index : Nat) :
    List.Forall₂ Marked messages (attachAt messages' index) := by
  unfold attachAt
  induction marked generalizing index with
  | nil => simp
  | cons first rest ih =>
    cases index with
    | zero => exact .cons (marked_withMarker first) rest
    | succ index => exact .cons first (ih index)

theorem markers_attachAt (messages : List (Message Args)) (index : Nat) :
    totalMarkers (attachAt messages index) ≤ totalMarkers messages + 1 := by
  unfold attachAt totalMarkers
  induction messages generalizing index with
  | nil => simp
  | cons message messages ih =>
    cases index with
    | zero =>
      have := markers_withMarker message
      simp only [List.modify_zero_cons, List.map_cons, List.sum_cons]
      omega
    | succ index =>
      have := ih index
      simp only [List.modify_succ_cons, List.map_cons, List.sum_cons]
      omega

/-- A pass leaves the messages, or puts one marker. -/
theorem apply_cases (argumentBytes : Args → Nat) (messages : List (Message Args))
    (promptCache : Option PromptCache) (latestSealedSpine : Bool) :
    applyAnthropicMovingHistoryBreakpoint argumentBytes messages promptCache latestSealedSpine =
        messages ∨
      ∃ index, applyAnthropicMovingHistoryBreakpoint argumentBytes messages promptCache
        latestSealedSpine = attachAt messages index := by
  unfold applyAnthropicMovingHistoryBreakpoint
  split
  · exact .inl rfl
  · split
    · split
      · exact .inr ⟨_, rfl⟩
      · exact .inl rfl
    · dsimp only
      split
      · exact .inl rfl
      · split
        · exact .inr ⟨_, rfl⟩
        · exact .inl rfl

theorem marked_apply (marked : List.Forall₂ Marked messages messages')
    (promptCache : Option PromptCache) (latestSealedSpine : Bool) :
    List.Forall₂ Marked messages (applyAnthropicMovingHistoryBreakpoint argumentBytes messages'
      promptCache latestSealedSpine) := by
  obtain same | ⟨index, eq⟩ := apply_cases argumentBytes messages' promptCache latestSealedSpine
  · rwa [same]
  · rw [eq]
    exact marked_attachAt marked index

theorem markers_apply (messages : List (Message Args)) (promptCache : Option PromptCache)
    (latestSealedSpine : Bool) :
    totalMarkers (applyAnthropicMovingHistoryBreakpoint argumentBytes messages promptCache
      latestSealedSpine) ≤ totalMarkers messages + 1 := by
  obtain same | ⟨index, eq⟩ := apply_cases argumentBytes messages promptCache latestSealedSpine
  · rw [same]
    exact Nat.le_succ _
  · rw [eq]
    exact markers_attachAt messages index

/-! ## The place of the marker of the history -/

/-- The bytes of the first messages. -/
def bytesUpTo (argumentBytes : Args → Nat) (messages : List (Message Args)) (n : Nat) : Nat :=
  ((messages.take n).map (measureAnthropicMessageContentBytes argumentBytes)).sum

/-- An assistant message up to which the messages, after some bytes, stay within a limit. -/
def Eligible (argumentBytes : Args → Nat) (limit bytes : Nat) (messages : List (Message Args))
    (index : Nat) : Prop :=
  messages[index]?.map (·.role) = some .assistant ∧
    bytes + bytesUpTo argumentBytes messages (index + 1) ≤ limit

theorem eligible_zero {limit bytes : Nat} :
    Eligible argumentBytes limit bytes (message :: messages) 0 ↔
      message.role = .assistant ∧
        bytes + measureAnthropicMessageContentBytes argumentBytes message ≤ limit := by
  simp [Eligible, bytesUpTo]

theorem eligible_succ {limit bytes index : Nat} :
    Eligible argumentBytes limit bytes (message :: messages) (index + 1) ↔
      Eligible argumentBytes limit
        (bytes + measureAnthropicMessageContentBytes argumentBytes message) messages index := by
  simp [Eligible, bytesUpTo, Nat.add_assoc]

/-- The loop ends with the candidate it started from, or with an eligible index. -/
theorem candidateFrom_some {limit index bytes : Nat} {candidate : Option Nat} {k : Nat}
    (found : candidateFrom argumentBytes limit index bytes candidate messages = some k) :
    candidate = some k ∨ ∃ i, k = index + i ∧ Eligible argumentBytes limit bytes messages i := by
  induction messages generalizing index bytes candidate with
  | nil => exact .inl found
  | cons message messages ih =>
    rw [candidateFrom] at found
    rcases ih found with start | ⟨i, rfl, eligible⟩
    · split at start
      · rename_i here
        cases start
        exact .inr ⟨0, rfl, eligible_zero.mpr here⟩
      · exact .inl start
    · exact .inr ⟨i + 1, by omega, eligible_succ.mpr eligible⟩

theorem candidateFrom_isSome (limit index bytes : Nat) {candidate : Option Nat}
    (given : candidate.isSome) :
    (candidateFrom argumentBytes limit index bytes candidate messages).isSome := by
  induction messages generalizing index bytes candidate with
  | nil => exact given
  | cons message messages ih =>
    rw [candidateFrom]
    apply ih
    split
    · rfl
    · exact given

/-- The loop does not end before an eligible index. -/
theorem candidateFrom_ge (limit index bytes : Nat) {candidate : Option Nat} {i : Nat}
    (eligible : Eligible argumentBytes limit bytes messages i) :
    ∃ k, candidateFrom argumentBytes limit index bytes candidate messages = some k ∧
      index + i ≤ k := by
  induction messages generalizing index bytes candidate i with
  | nil => simp [Eligible] at eligible
  | cons message messages ih =>
    rw [candidateFrom]
    cases i with
    | zero =>
      rw [if_pos (eligible_zero.mp eligible)]
      obtain ⟨k, found⟩ := Option.isSome_iff_exists.mp
        (candidateFrom_isSome limit (index + 1)
          (bytes + measureAnthropicMessageContentBytes argumentBytes message)
          (rfl : (some index).isSome))
      refine ⟨k, found, ?_⟩
      rcases candidateFrom_some found with start | ⟨i, rfl, -⟩
      · cases start
        exact Nat.le_refl _
      · omega
    | succ i =>
      obtain ⟨k, found, later⟩ := ih (index + 1) _ (eligible_succ.mp eligible)
      exact ⟨k, found, by omega⟩

theorem maxCachedPrefixBytes_mono (minTokens : ℚ) {total total' : Nat} (more : total ≤ total') :
    maxCachedPrefixBytes minTokens total ≤ maxCachedPrefixBytes minTokens total' :=
  Nat.mul_le_mul_right _ (Nat.div_le_div_right more)

end Persai.AnthropicRequest
