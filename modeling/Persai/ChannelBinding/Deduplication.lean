import Persai.ChannelBinding.Registers
import Persai.Runs

/-!
# Exclusive claims on a channel binding

Any interleaving of claims, completions and releases of Telegram updates, web turns and reminders
on one binding. A claim can be granted twice just where the slot of its register has gone to
another identifier or, for turns and reminders, another completion has taken the place of the one
that is asked for.
-/

namespace Persai.ChannelBinding

open SlotRegister Runs

/-- The binding, and what was done to each of its registers, newest first. -/
structure System where
  binding : Binding
  telegram : List (Act Int Int)
  web : List (Act String Value)
  reminder : List (Act String Value)

inductive Event where
  | claimTelegramUpdate (updateId claimedAt : Int) (staleAfterMs : Nat)
  | completeTelegramUpdate (updateId completedAt : Int)
  | releaseTelegramUpdate (updateId : Int)
  | claimWebTurn (clientTurnId : Identifier) (claimedAt : Int) (staleAfterMs : Nat)
  | completeWebTurn (state : CompletedWebTurnReplayState)
  | releaseWebTurn (clientTurnId : Identifier)
  | claimReminder (replayKey : Identifier) (claimedAt : Int) (staleAfterMs : Nat)
  | completeReminder (state : CompletedReminderReplayState)
  | releaseReminder (replayKey : Identifier)

namespace System

/-- One transaction. -/
def step (s : System) : Event → System
  | .claimTelegramUpdate updateId claimedAt staleAfterMs =>
    let result := claimTelegramUpdateProcessing s.binding updateId claimedAt staleAfterMs
    { s with
      binding := result.2
      telegram := record updateId claimedAt (result.1 = .claimed) s.telegram }
  | .completeTelegramUpdate updateId completedAt =>
    { s with
      binding := completeTelegramUpdateProcessing s.binding updateId completedAt
      telegram := .completed updateId (s.binding.map fun _ => updateId) :: s.telegram }
  | .releaseTelegramUpdate updateId =>
    { s with
      binding := releaseTelegramUpdateProcessing s.binding updateId
      telegram := .released updateId :: s.telegram }
  | .claimWebTurn clientTurnId claimedAt staleAfterMs =>
    let result := claimWebTurnProcessing s.binding clientTurnId claimedAt staleAfterMs
    { s with
      binding := result.2
      web := record clientTurnId.text claimedAt (result.1 = .claimed) s.web }
  | .completeWebTurn state =>
    { s with
      binding := completeWebTurnProcessing s.binding state
      web := .completed state.clientTurnId.text (s.binding.map fun _ => .webTurn state) :: s.web }
  | .releaseWebTurn clientTurnId =>
    { s with
      binding := releaseWebTurnProcessing s.binding clientTurnId
      web := .released clientTurnId.text :: s.web }
  | .claimReminder replayKey claimedAt staleAfterMs =>
    let result := claimReminderDeliveryProcessing s.binding replayKey claimedAt staleAfterMs
    { s with
      binding := result.2
      reminder := record replayKey.text claimedAt (result.1 = .claimed) s.reminder }
  | .completeReminder state =>
    { s with
      binding := completeReminderDeliveryProcessing s.binding state
      reminder :=
        .completed state.replayKey.text (s.binding.map fun _ => .reminder state) :: s.reminder }
  | .releaseReminder replayKey =>
    { s with
      binding := releaseReminderDeliveryProcessing s.binding replayKey
      reminder := .released replayKey.text :: s.reminder }

/-- A granted claim is of an identifier that is not completed and has no outstanding claim younger
than `staleAfterMs`. -/
def ExclusiveClaim (s : System) : Event → Prop
  | .claimTelegramUpdate updateId claimedAt staleAfterMs =>
    Exclusive s.telegram updateId claimedAt staleAfterMs
      ((claimTelegramUpdateProcessing s.binding updateId claimedAt staleAfterMs).1 = .claimed)
  | .claimWebTurn clientTurnId claimedAt staleAfterMs =>
    Exclusive s.web clientTurnId.text claimedAt staleAfterMs
      ((claimWebTurnProcessing s.binding clientTurnId claimedAt staleAfterMs).1 = .claimed)
  | .claimReminder replayKey claimedAt staleAfterMs =>
    Exclusive s.reminder replayKey.text claimedAt staleAfterMs
      ((claimReminderDeliveryProcessing s.binding replayKey claimedAt staleAfterMs).1 = .claimed)
  | _ => True

/-- An update with this id or a greater one is completed. -/
def HandledUpTo (past : List (Act Int Int)) (updateId : Int) : Prop :=
  ∃ completed ∈ contents past, updateId ≤ completed

/-- The newest completion is of this identifier and can be read back. -/
def LastCompleted (readCompleted : Option Value → Option String) (past : List (Act String Value))
    (identifier : String) : Prop :=
  readCompleted (contents past).head? = some identifier

/-- No other identifier was granted since the outstanding claim of the one that is claimed, and of
turns and reminders no other was completed since its completion. -/
def SlotKept (s : System) : Event → Prop
  | .claimTelegramUpdate updateId claimedAt staleAfterMs =>
    Remembers (HandledUpTo s.telegram updateId) s.telegram updateId claimedAt staleAfterMs
  | .claimWebTurn clientTurnId claimedAt staleAfterMs =>
    Remembers (LastCompleted readCompletedWebTurn s.web clientTurnId.text) s.web clientTurnId.text
      claimedAt staleAfterMs
  | .claimReminder replayKey claimedAt staleAfterMs =>
    Remembers (LastCompleted readCompletedReminderReplay s.reminder replayKey.text) s.reminder
      replayKey.text claimedAt staleAfterMs
  | _ => True

/-- The registers are those of the past. -/
structure Sound (s : System) : Prop where
  telegram : Tracks telegramMemory (telegramRegister s.binding) s.telegram
  web : Tracks (stringMemory readCompletedWebTurn) (stringRegister webTurnKeys s.binding) s.web
  reminder : Tracks (stringMemory readCompletedReminderReplay)
    (stringRegister reminderKeys s.binding) s.reminder

structure Settled (s : System) : Prop where
  telegram : Orderly s.telegram
  web : Orderly s.web
  reminder : Orderly s.reminder

theorem memoryOf_stringMemory (readCompleted : Option Value → Option String)
    (past : List (Act String Value)) :
    memoryOf (stringMemory readCompleted) past = (contents past).head? := by
  induction past with
  | nil => rfl
  | cons act past ih =>
    cases act with
    | granted x now => exact ih
    | released x => exact ih
    | completed x stored =>
      cases stored with
      | none => exact ih
      | some state => rfl

theorem handled_remember {last : Option Int} {completed updateId : Int} :
    telegramMemory.handled (telegramMemory.remember last completed) updateId = true ↔
      updateId ≤ completed ∨ telegramMemory.handled last updateId = true := by
  cases last with
  | none => simp [telegramMemory]
  | some last =>
    by_cases greater : last < completed
    · simp [telegramMemory, greater]
      omega
    · simp [telegramMemory, greater]
      omega

/-- The Telegram register remembers the greatest completed id. -/
theorem handled_memoryOf (past : List (Act Int Int)) (updateId : Int) :
    telegramMemory.handled (memoryOf telegramMemory past) updateId = true ↔
      HandledUpTo past updateId := by
  unfold HandledUpTo
  induction past with
  | nil => simp [memoryOf, telegramMemory, contents]
  | cons act past ih =>
    cases act with
    | granted x now => exact ih
    | released x => exact ih
    | completed x stored =>
      cases stored with
      | none => exact ih
      | some completed =>
        simp only [memoryOf, Option.elim_some, handled_remember, ih, contents, Option.toList_some,
          List.singleton_append, List.mem_cons, exists_eq_or_imp]

theorem Sound.of_telegram {s s' : System} (sound : Sound s)
    (changes : ChangesOnly telegramKeys s.binding s'.binding) (web : s'.web = s.web)
    (reminder : s'.reminder = s.reminder)
    (tracks : Tracks telegramMemory (telegramRegister s'.binding) s'.telegram) : Sound s' where
  telegram := tracks
  web := by
    rw [stringRegister_of_changesOnly changes (by decide), web]
    exact sound.web
  reminder := by
    rw [stringRegister_of_changesOnly changes (by decide), reminder]
    exact sound.reminder

theorem Sound.of_web {s s' : System} (sound : Sound s)
    (changes : ChangesOnly webTurnKeys.all s.binding s'.binding)
    (telegram : s'.telegram = s.telegram) (reminder : s'.reminder = s.reminder)
    (tracks : Tracks (stringMemory readCompletedWebTurn) (stringRegister webTurnKeys s'.binding)
      s'.web) : Sound s' where
  telegram := by
    rw [telegramRegister_of_changesOnly changes (by decide), telegram]
    exact sound.telegram
  web := tracks
  reminder := by
    rw [stringRegister_of_changesOnly changes (by decide), reminder]
    exact sound.reminder

theorem Sound.of_reminder {s s' : System} (sound : Sound s)
    (changes : ChangesOnly reminderKeys.all s.binding s'.binding)
    (telegram : s'.telegram = s.telegram) (web : s'.web = s.web)
    (tracks : Tracks (stringMemory readCompletedReminderReplay)
      (stringRegister reminderKeys s'.binding) s'.reminder) : Sound s' where
  telegram := by
    rw [telegramRegister_of_changesOnly changes (by decide), telegram]
    exact sound.telegram
  web := by
    rw [stringRegister_of_changesOnly changes (by decide), web]
    exact sound.web
  reminder := tracks

theorem Sound.step {s : System} (sound : Sound s) (e : Event) : Sound (s.step e) := by
  cases e with
  | claimTelegramUpdate updateId claimedAt staleAfterMs =>
    exact sound.of_telegram claimTelegramUpdateProcessing_changesOnly rfl rfl
      (claimTelegram_tracks sound.telegram)
  | completeTelegramUpdate updateId completedAt =>
    refine sound.of_telegram (completeTelegramUpdateProcessing_changesOnly completedAt) rfl rfl ?_
    rw [System.step, completeTelegramUpdateProcessing_refines]
    exact sound.telegram.complete _
  | releaseTelegramUpdate updateId =>
    refine sound.of_telegram releaseTelegramUpdateProcessing_changesOnly rfl rfl ?_
    rw [System.step, releaseTelegramUpdateProcessing_refines]
    exact sound.telegram.release
  | claimWebTurn clientTurnId claimedAt staleAfterMs =>
    exact sound.of_web claimStringProcessing_changesOnly rfl rfl
      (claimString_tracks webTurnKeys_distinct sound.web)
  | completeWebTurn state =>
    refine sound.of_web (completeStringProcessing_changesOnly _) rfl rfl ?_
    rw [System.step, completeWebTurnProcessing,
      completeStringProcessing_refines webTurnKeys_distinct]
    exact sound.web.complete _
  | releaseWebTurn clientTurnId =>
    refine sound.of_web releaseStringProcessing_changesOnly rfl rfl ?_
    rw [System.step, releaseWebTurnProcessing, releaseStringProcessing_refines webTurnKeys_distinct]
    exact sound.web.release
  | claimReminder replayKey claimedAt staleAfterMs =>
    exact sound.of_reminder claimStringProcessing_changesOnly rfl rfl
      (claimString_tracks reminderKeys_distinct sound.reminder)
  | completeReminder state =>
    refine sound.of_reminder (completeStringProcessing_changesOnly _) rfl rfl ?_
    rw [System.step, completeReminderDeliveryProcessing,
      completeStringProcessing_refines reminderKeys_distinct]
    exact sound.reminder.complete _
  | releaseReminder replayKey =>
    refine sound.of_reminder releaseStringProcessing_changesOnly rfl rfl ?_
    rw [System.step, releaseReminderDeliveryProcessing,
      releaseStringProcessing_refines reminderKeys_distinct]
    exact sound.reminder.release

theorem exclusive_claimString_iff {keys : RegisterKeys}
    {readCompleted : Option Value → Option String} {binding : Binding}
    {past : List (Act String Value)} {x : Identifier} {now : Int} {staleAfter : Nat}
    (distinct : keys.Distinct)
    (tracks : Tracks (stringMemory readCompleted) (stringRegister keys binding) past)
    (orderly : Orderly past) :
    Exclusive past x.text now staleAfter
        ((claimStringProcessing keys readCompleted binding x now staleAfter).1 = .claimed) ↔
      Remembers (LastCompleted readCompleted past x.text) past x.text now staleAfter := by
  have known : (stringMemory readCompleted).handled (memoryOf (stringMemory readCompleted) past)
      x.text = true ↔ LastCompleted readCompleted past x.text := by
    rw [memoryOf_stringMemory]
    exact beq_iff_eq
  rw [claimString_eq_claimed_iff distinct, ← known]
  exact exclusive_iff_remembers tracks orderly

/-- One claim is exclusive just where its register has kept what it is asked for. -/
theorem exclusiveClaim_iff_slotKept {s : System} (sound : Sound s) (settled : Settled s)
    (e : Event) : s.ExclusiveClaim e ↔ s.SlotKept e := by
  cases e with
  | claimTelegramUpdate updateId claimedAt staleAfterMs =>
    rw [ExclusiveClaim, SlotKept, claimTelegram_eq_claimed_iff, ← handled_memoryOf]
    exact exclusive_iff_remembers sound.telegram settled.telegram
  | claimWebTurn clientTurnId claimedAt staleAfterMs =>
    exact exclusive_claimString_iff webTurnKeys_distinct sound.web settled.web
  | claimReminder replayKey claimedAt staleAfterMs =>
    exact exclusive_claimString_iff reminderKeys_distinct sound.reminder settled.reminder
  | _ => exact Iff.rfl

theorem Settled.step {s : System} (settled : Settled s) {e : Event}
    (exclusive : s.ExclusiveClaim e) : Settled (s.step e) := by
  obtain ⟨telegram, web, reminder⟩ := settled
  cases e with
  | claimTelegramUpdate => exact ⟨telegram.record exclusive, web, reminder⟩
  | completeTelegramUpdate => exact ⟨telegram.completed _ _, web, reminder⟩
  | releaseTelegramUpdate => exact ⟨telegram.released _, web, reminder⟩
  | claimWebTurn => exact ⟨telegram, web.record exclusive, reminder⟩
  | completeWebTurn => exact ⟨telegram, web.completed _ _, reminder⟩
  | releaseWebTurn => exact ⟨telegram, web.released _, reminder⟩
  | claimReminder => exact ⟨telegram, web, reminder.record exclusive⟩
  | completeReminder => exact ⟨telegram, web, reminder.completed _ _⟩
  | releaseReminder => exact ⟨telegram, web, reminder.released _⟩

def start (binding : Binding) : System := ⟨binding, [], [], []⟩

/-- No register of the binding has been used. -/
def Unused (binding : Binding) : Prop :=
  ∀ key ∈ telegramKeys ++ webTurnKeys.all ++ reminderKeys.all,
    lockOrCreateBindingRow binding key = none

theorem sound_start {binding : Binding} (unused : Unused binding) : Sound (start binding) := by
  simp only [Unused, telegramKeys, RegisterKeys.all, List.cons_append, List.nil_append,
    List.mem_cons, List.not_mem_nil, or_false, forall_eq_or_imp, forall_eq] at unused
  obtain ⟨h1, h2, h3, -, h5, h6, h7, h8, h9, h10⟩ := unused
  constructor
  · constructor <;> simp [start, telegramRegister, h1, h2, h3, readFiniteNumber, slot, slotOf,
      memoryOf, telegramMemory]
  · constructor <;> simp [start, stringRegister, h5, h6, h7, readTrimmedString, slot, slotOf,
      memoryOf, stringMemory]
  · constructor <;> simp [start, stringRegister, h8, h9, h10, readTrimmedString, slot, slotOf,
      memoryOf, stringMemory]

/-- In every interleaving on a binding whose registers are unused, every claim is exclusive if and
only if every claim meets a register that has kept what it is asked for. -/
theorem exclusive_iff {binding : Binding} (unused : Unused binding) (es : List Event) :
    EveryStep step ExclusiveClaim (start binding) es ↔
      EveryStep step SlotKept (start binding) es := by
  refine everyStep_iff_of_preserved (I := fun s => Sound s ∧ Settled s) ?_ ?_
    ⟨sound_start unused, ⟨orderly_nil, orderly_nil, orderly_nil⟩⟩
  · rintro s e ⟨sound, settled⟩ kept
    exact ⟨sound.step e,
      settled.step ((exclusiveClaim_iff_slotKept sound settled e).mpr kept)⟩
  · rintro s e ⟨sound, settled⟩
    exact exclusiveClaim_iff_slotKept sound settled e

def turnA : Identifier := ⟨"turn-a", by decide +kernel, by decide⟩

def turnB : Identifier := ⟨"turn-b", by decide +kernel, by decide⟩

/-- Turn A is claimed, turn B takes the slot, and a retry of A comes while A is being processed. -/
def retriedBehindAnother : List Event :=
  [.claimWebTurn turnA 0 120000, .claimWebTurn turnB 1000 120000, .claimWebTurn turnA 2000 120000]

theorem retried_turn_claimed_twice :
    ¬ EveryStep step ExclusiveClaim (start none) retriedBehindAnother := by
  rintro ⟨-, -, exclusive, -⟩
  have stale := (exclusive (by decide +kernel)).2 0 (.inr (.inl ⟨rfl, rfl⟩))
  exact absurd stale (by decide)

/-- A Telegram update, a web turn and a reminder are claimed together: each has its own slot. -/
theorem exclusive_side_by_side :
    EveryStep step ExclusiveClaim (start none)
      [.claimTelegramUpdate 1 0 120000, .claimWebTurn turnA 1000 120000,
        .claimReminder turnB 2000 120000, .completeTelegramUpdate 1 3000] :=
  (exclusive_iff (fun _ _ => rfl) _).mpr
    ⟨remembers_nil, remembers_nil, remembers_nil, trivial, trivial⟩

end System

end Persai.ChannelBinding
