import Persai.ChannelBinding.Deduplication

/-!
# Telegram updates of a bot

`HandleInternalTelegramTurnService` claims an update, processes it and completes the claim, or
releases it where it fails, so that Telegram's redelivery is processed. The binding remembers the
greatest completed id only: an update that is claimed after a greater one was completed is dropped
as handled.
-/

namespace Persai.ChannelBinding

open SlotRegister Runs

/-- `TELEGRAM_UPDATE_CLAIM_STALE_MS`. -/
def telegramUpdateClaimStaleMs : Nat := 120000

/-- A turn is processed, under a claim or without one, or the update is dropped. -/
inductive TurnClaim where
  | process (claimedUpdateId : Option Int)
  | deduplicated
  deriving DecidableEq, Repr

def claimTelegramUpdateIfNeeded (binding : Binding) (updateId : Option Int) (now : Int) :
    TurnClaim :=
  match updateId with
  | none => .process none
  | some updateId =>
    match (claimTelegramUpdateProcessing binding updateId now telegramUpdateClaimStaleMs).1 with
    | .claimed => .process (some updateId)
    | .missingBinding => .process none
    | .duplicateHandled | .duplicateInflight => .deduplicated

/-- The binding, and the claimed updates whose processing has not ended. -/
structure Bot where
  system : System
  processing : List Int

namespace Bot

/-- Telegram delivers an update, for the first time or again. -/
def deliver (b : Bot) (updateId : Int) (now : Int) : Bot where
  system := b.system.step (.claimTelegramUpdate updateId now telegramUpdateClaimStaleMs)
  processing :=
    match claimTelegramUpdateIfNeeded b.system.binding (some updateId) now with
    | .process (some claimedUpdateId) => claimedUpdateId :: b.processing
    | .process none | .deduplicated => b.processing

/-- The processing of a claimed update ends well. -/
def succeed (b : Bot) (updateId completedAt : Int) : Bot :=
  if updateId ∈ b.processing then
    { system := b.system.step (.completeTelegramUpdate updateId completedAt)
      processing := b.processing.erase updateId }
  else b

/-- It fails, and the claim is released. -/
def fail (b : Bot) (updateId : Int) : Bot :=
  if updateId ∈ b.processing then
    { system := b.system.step (.releaseTelegramUpdate updateId)
      processing := b.processing.erase updateId }
  else b

inductive Event where
  | deliver (updateId now : Int)
  | succeed (updateId completedAt : Int)
  | fail (updateId : Int)

def step (b : Bot) : Event → Bot
  | .deliver updateId now => b.deliver updateId now
  | .succeed updateId completedAt => b.succeed updateId completedAt
  | .fail updateId => b.fail updateId

/-- An update is answered as handled only if it was completed itself. -/
def DropsOnlyHandled (b : Bot) (e : Event) : Prop :=
  ∀ updateId now, e = .deliver updateId now →
    (claimTelegramUpdateProcessing b.system.binding updateId now telegramUpdateClaimStaleMs).1 =
      .duplicateHandled →
    Done b.system.telegram updateId

/-- An update that is delivered after a greater one was completed, was completed before. -/
def InOrder (b : Bot) (e : Event) : Prop :=
  ∀ updateId now, e = .deliver updateId now →
    ∀ greater, updateId < greater → Done b.system.telegram greater →
      Done b.system.telegram updateId

/-- Every completion was stored, as only claimed updates are completed and a claim leaves a
binding. -/
structure Sound (b : Bot) : Prop where
  system : b.system.Sound
  bound : b.processing ≠ [] → b.system.binding.isSome
  stored : ∀ updateId content, .completed updateId content ∈ b.system.telegram →
    content = some updateId

theorem mem_contents {past : List (Act Int Int)} {content : Int} :
    content ∈ contents past ↔ ∃ updateId, .completed updateId (some content) ∈ past := by
  induction past with
  | nil => simp [contents]
  | cons act past ih =>
    cases act with
    | granted x now => simp [contents, ih]
    | released x => simp [contents, ih]
    | completed x stored => cases stored <;> simp [contents, ih, exists_or, eq_comm]

theorem Sound.handledUpTo_iff {b : Bot} (sound : Sound b) {updateId : Int} :
    System.HandledUpTo b.system.telegram updateId ↔
      ∃ completed, updateId ≤ completed ∧ Done b.system.telegram completed := by
  unfold System.HandledUpTo
  constructor
  · rintro ⟨completed, mem, le⟩
    obtain ⟨x, act⟩ := mem_contents.mp mem
    obtain rfl : completed = x := Option.some.inj (sound.stored x _ act)
    exact ⟨completed, le, _, act⟩
  · rintro ⟨completed, le, content, act⟩
    obtain rfl := sound.stored completed content act
    exact ⟨completed, mem_contents.mpr ⟨completed, act⟩, le⟩

/-- A claim answers that an update is handled just where it or a greater one was completed. -/
theorem Sound.duplicateHandled_iff {b : Bot} (sound : Sound b) {updateId now : Int} :
    (claimTelegramUpdateProcessing b.system.binding updateId now telegramUpdateClaimStaleMs).1 =
        .duplicateHandled ↔
      ∃ completed, updateId ≤ completed ∧ Done b.system.telegram completed := by
  rw [claimTelegramUpdateProcessing_refines.1, toClaimOutcome_eq_duplicateHandled_iff,
    claim_eq_handled_iff, sound.system.telegram.memory, System.handled_memoryOf,
    sound.handledUpTo_iff]

theorem dropsOnlyHandled_iff_inOrder {b : Bot} (sound : Sound b) (e : Event) :
    b.DropsOnlyHandled e ↔ b.InOrder e := by
  unfold DropsOnlyHandled InOrder
  simp only [sound.duplicateHandled_iff]
  constructor
  · intro h updateId now delivered greater less done
    exact h updateId now delivered ⟨greater, Int.le_of_lt less, done⟩
  · rintro h updateId now delivered ⟨completed, le, done⟩
    rcases Int.lt_or_eq_of_le le with less | rfl
    · exact h updateId now delivered completed less done
    · exact done

theorem claimTelegram_isSome (binding : Binding) (updateId now : Int) (staleAfter : Nat) :
    (claimTelegramUpdateProcessing binding updateId now staleAfter).2.isSome := by
  unfold claimTelegramUpdateProcessing
  dsimp only
  split
  · rfl
  split <;> rfl

theorem Sound.deliver {b : Bot} (sound : Sound b) (updateId now : Int) :
    Sound (b.deliver updateId now) := by
  have system := sound.system.step (.claimTelegramUpdate updateId now telegramUpdateClaimStaleMs)
  refine ⟨system, fun _ => claimTelegram_isSome .., fun completed content act => ?_⟩
  have old : .completed completed content ∈ b.system.telegram := by
    change _ ∈ record updateId now _ b.system.telegram at act
    unfold record at act
    split at act
    · rcases List.mem_cons.mp act with new | old
      · cases new
      · exact old
    · exact act
  exact sound.stored completed content old

theorem Sound.succeed {b : Bot} (sound : Sound b) (updateId completedAt : Int) :
    Sound (b.succeed updateId completedAt) := by
  unfold Bot.succeed
  split
  · rename_i claimed
    have bound : b.system.binding.isSome := sound.bound (List.ne_nil_of_mem claimed)
    obtain ⟨metadata, row⟩ := Option.isSome_iff_exists.mp bound
    have system := sound.system.step (.completeTelegramUpdate updateId completedAt)
    refine ⟨system, fun _ => ?_, fun completed content act => ?_⟩
    · simp [System.step, row, completeTelegramUpdateProcessing]
    · rcases List.mem_cons.mp act with new | old
      · cases new
        rw [row]
        rfl
      · exact sound.stored completed content old
  · exact sound

theorem Sound.fail {b : Bot} (sound : Sound b) (updateId : Int) : Sound (b.fail updateId) := by
  unfold Bot.fail
  split
  · rename_i claimed
    have bound : b.system.binding.isSome := sound.bound (List.ne_nil_of_mem claimed)
    obtain ⟨metadata, row⟩ := Option.isSome_iff_exists.mp bound
    have system := sound.system.step (.releaseTelegramUpdate updateId)
    refine ⟨system, fun _ => ?_, fun completed content act => ?_⟩
    · simp [System.step, row, releaseTelegramUpdateProcessing]
    · rcases List.mem_cons.mp act with new | old
      · cases new
      · exact sound.stored completed content old
  · exact sound

theorem Sound.step {b : Bot} (sound : Sound b) (e : Event) : Sound (b.step e) := by
  cases e with
  | deliver updateId now => exact sound.deliver updateId now
  | succeed updateId completedAt => exact sound.succeed updateId completedAt
  | fail updateId => exact sound.fail updateId

def start (binding : Binding) : Bot := ⟨System.start binding, []⟩

theorem sound_start {binding : Binding} (unused : System.Unused binding) :
    Sound (start binding) where
  system := System.sound_start unused
  bound := fun busy => absurd rfl busy
  stored := by intro updateId content act; cases act

/-- Whatever the order of deliveries, successes and failures of a bot's updates, an update is
dropped as handled only if it was completed, if and only if no update is delivered after a greater
one was completed without being completed itself. -/
theorem dropsOnlyHandled_iff {binding : Binding} (unused : System.Unused binding)
    (es : List Event) : EveryStep step DropsOnlyHandled (start binding) es ↔
      EveryStep step InOrder (start binding) es :=
  everyStep_iff_of_preserved (I := Sound) (fun _ e sound _ => sound.step e)
    (fun _ e sound => dropsOnlyHandled_iff_inOrder sound e) (sound_start unused)

/-- Updates 1 and 2 are processed at once, 2 ends well, 1 fails and is delivered again. -/
def failsBehindAnother : List Event :=
  [.deliver 1 0, .deliver 2 10, .succeed 2 1000, .fail 1, .deliver 1 5000]

theorem redelivered_update_dropped :
    ¬ EveryStep step DropsOnlyHandled (start none) failsBehindAnother := by
  rintro ⟨-, -, -, -, drops, -⟩
  have past : (run step (start none) (failsBehindAnother.take 4)).system.telegram =
      [.released 1, .completed 2 (some 2), .granted 2 10, .granted 1 0] := by decide +kernel
  have done : Done (run step (start none) (failsBehindAnother.take 4)).system.telegram 1 :=
    drops 1 5000 rfl (by decide +kernel)
  rw [past] at done
  simp [Done] at done

/-- Two updates, delivered and completed one after the other. -/
def oneAfterTheOther : List Event := [.deliver 1 0, .succeed 1 1000, .deliver 2 2000]

theorem dropsOnlyHandled_one_after_the_other :
    EveryStep step DropsOnlyHandled (start none) oneAfterTheOther := by
  refine (dropsOnlyHandled_iff (fun _ _ => rfl) _).mpr ⟨?_, ?_, ?_, trivial⟩
  · rintro updateId now - greater - ⟨stored, done⟩
    cases done
  · rintro updateId now ⟨⟩
  · have past : (run step (start none) (oneAfterTheOther.take 2)).system.telegram =
        [.completed 1 (some 1), .granted 1 0] := by decide +kernel
    rintro updateId now ⟨⟩ greater less ⟨stored, done⟩
    change _ ∈ (run step (start none) (oneAfterTheOther.take 2)).system.telegram at done
    rw [past] at done
    simp at done
    omega

end Bot

end Persai.ChannelBinding
