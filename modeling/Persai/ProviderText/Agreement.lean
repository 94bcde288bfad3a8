import Persai.ProviderText.Anthropic
import Persai.ProviderText.DeepSeek

/-!
# Streaming against whole responses

For both clients, when the last event of a stream carries the result of the whole response.
-/

namespace Persai.ProviderText

variable {Args : Type}

/-- For every message of Anthropic and every completion of DeepSeek, cut in any way: the last event
carries the whole response's result exactly under the conditions on the response and its cut. -/
theorem streams_agree_iff (json : Json Args) (input : TextRequest) :
    (∀ stream : Anthropic.Stream json,
      Agrees (Anthropic.streamText json input stream.events)
          (Anthropic.generateText input stream.message) ↔
        stream.message.OneTextShown ∧ stream.message.ToolUseHasCalls ∧ stream.UsageInTime) ∧
    (∀ stream : DeepSeek.Stream,
      Agrees (DeepSeek.streamText json input stream.chunks)
          (DeepSeek.generateText json input stream.completion) ↔
        stream.Named ∧ stream.EmptyIdsFirst ∧ stream.InOrder json) :=
  ⟨Anthropic.agrees_iff input, DeepSeek.agrees_iff json input⟩

/-- A parser that refuses every text. -/
def refusing : Json Unit := ⟨fun _ => none, ()⟩

/-- A message of two text blocks, `a` and `b`, that ends its turn. -/
def twoTexts : Anthropic.Stream refusing where
  message := ⟨[.text "a", .text "b"], some "end_turn", ⟨some 5, some 0, some 0, some 2⟩⟩
  startUsage := ⟨some 5, some 0, some 0, some 1⟩
  contentEvents :=
    [.contentBlockStart 0 none, .textDelta 0 "a", .contentBlockStop 0] ++
      ([.contentBlockStart 1 none, .textDelta 1 "b", .contentBlockStop 1] ++ [])
  deltas := [(some "end_turn", some ⟨none, none, none, some 2⟩)]
  events := .messageStart (some ⟨some 5, some 0, some 0, some 1⟩) ::
    ([.contentBlockStart 0 none, .textDelta 0 "a", .contentBlockStop 0] ++
      ([.contentBlockStart 1 none, .textDelta 1 "b", .contentBlockStop 1] ++ []) ++
      ([Anthropic.Delta.event (some "end_turn", some ⟨none, none, none, some 2⟩)] ++
        [.messageStop]))
  content := .cons (.text ["a"]) (.cons (.text ["b"]) (.nil 2))
  stopReason := rfl
  usage := rfl
  cut := rfl

/-- The whole response has the text `a`, a line break and `b`; the stream ends with `ab`. -/
theorem two_texts_differ :
    ¬ Agrees (Anthropic.streamText refusing ⟨"claude", false⟩ twoTexts.events)
      (Anthropic.generateText ⟨"claude", false⟩ twoTexts.message) := by
  rw [Anthropic.agrees_iff]
  intro conditions
  exact absurd conditions.1 (by unfold Anthropic.Message.OneTextShown; decide +kernel)

end Persai.ProviderText
