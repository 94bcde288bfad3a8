import Mathlib.Logic.Function.Basic
import Persai.SlotRegister
import Persai.Text

/-!
# The registers of a channel binding

`PrismaAssistantChannelSurfaceBindingRepository`: what the metadata of a binding holds against
duplicates of Telegram updates, web turns and reminders. Each operation is one transaction under
the lock on the binding's row.
-/

namespace Persai.ChannelBinding

open SlotRegister

/-- An identifier as the callers give it: they trim it and refuse an empty one. -/
structure Identifier where
  text : String
  trimmed : trim text = text
  given : text ≠ ""
  deriving DecidableEq

/-- The fields that `readCompletedWebTurn` asks for. -/
structure CompletedWebTurnReplayState where
  clientTurnId : Identifier
  chatId : String
  userMessageId : String
  assistantMessageId : String
  respondedAt : String
  completedAt : String
  deriving DecidableEq

inductive DeliveredTo where
  | telegram
  | web
  | fallbackWeb
  | none
  deriving DecidableEq, Repr

structure CompletedReminderReplayState where
  replayKey : Identifier
  deliveredTo : DeliveredTo
  completedAt : String
  deriving DecidableEq

/-- A value in the metadata; `date` is the text that `toISOString` gives. -/
inductive Value where
  | number (value : Int)
  | text (value : String)
  | date (value : Int)
  | webTurn (state : CompletedWebTurnReplayState)
  | reminder (state : CompletedReminderReplayState)
  deriving DecidableEq

abbrev Metadata := String → Option Value

/-- The binding's row, if there is one. -/
abbrev Binding := Option Metadata

inductive ClaimOutcome where
  | claimed
  | duplicateHandled
  | duplicateInflight
  | missingBinding
  deriving DecidableEq, Repr

/-! ## Reading -/

def readFiniteNumber : Option Value → Option Int
  | some (.number value) => some value
  | _ => none

def readDate : Option Value → Option Int
  | some (.date value) => some value
  | _ => none

def nonBlank (value : String) : Option String :=
  if trim value = "" then none else some (trim value)

def readTrimmedString : Option Value → Option String
  | some (.text value) => nonBlank value
  | _ => none

/-- The client turn id of a completed turn whose fields are all there. -/
def readCompletedWebTurn : Option Value → Option String
  | some (.webTurn state) => do
    let clientTurnId ← nonBlank state.clientTurnId.text
    let _ ← nonBlank state.chatId
    let _ ← nonBlank state.userMessageId
    let _ ← nonBlank state.assistantMessageId
    let _ ← nonBlank state.respondedAt
    let _ ← nonBlank state.completedAt
    some clientTurnId
  | _ => none

def readCompletedReminderReplay : Option Value → Option String
  | some (.reminder state) => do
    let replayKey ← nonBlank state.replayKey.text
    let _ ← nonBlank state.completedAt
    some replayKey
  | _ => none

/-! ## The string registers -/

structure RegisterKeys where
  activeKey : String
  activeClaimedAtKey : String
  completedKey : String

/-- A write of one key. -/
def setKey (metadata : Metadata) (key : String) (value : Value) : Metadata :=
  Function.update metadata key (some value)

def deleteKey (metadata : Metadata) (key : String) : Metadata := Function.update metadata key none

def lockOrCreateBindingRow (binding : Binding) : Metadata := binding.getD fun _ => none

def claimStringProcessing (keys : RegisterKeys) (readCompleted : Option Value → Option String)
    (binding : Binding) (identifier : Identifier) (claimedAt : Int) (staleAfterMs : Nat) :
    ClaimOutcome × Binding :=
  let metadata := lockOrCreateBindingRow binding
  if readCompleted (metadata keys.completedKey) = some identifier.text then
    (.duplicateHandled, some metadata)
  else
    let activeId := readTrimmedString (metadata keys.activeKey)
    let activeClaimedAt := readDate (metadata keys.activeClaimedAtKey)
    if activeId = some identifier.text ∧
        activeClaimedAt.any fun activeClaimedAt => claimedAt - activeClaimedAt < staleAfterMs then
      (.duplicateInflight, some metadata)
    else
      (.claimed, some (setKey (setKey metadata keys.activeKey (.text identifier.text))
        keys.activeClaimedAtKey (.date claimedAt)))

def deleteActive (keys : RegisterKeys) (metadata : Metadata) (identifier : Identifier) : Metadata :=
  if readTrimmedString (metadata keys.activeKey) = some identifier.text then
    deleteKey (deleteKey metadata keys.activeKey) keys.activeClaimedAtKey
  else metadata

def completeStringProcessing (keys : RegisterKeys) (binding : Binding) (identifier : Identifier)
    (completedState : Value) : Binding :=
  binding.map fun metadata =>
    deleteActive keys (setKey metadata keys.completedKey completedState) identifier

def releaseStringProcessing (keys : RegisterKeys) (binding : Binding) (identifier : Identifier) :
    Binding :=
  binding.map fun metadata => deleteActive keys metadata identifier

/-! ## Web turns -/

def webTurnKeys : RegisterKeys where
  activeKey := "webActiveTurnId"
  activeClaimedAtKey := "webActiveTurnClaimedAt"
  completedKey := "webLastCompletedTurn"

def claimWebTurnProcessing := claimStringProcessing webTurnKeys readCompletedWebTurn

def completeWebTurnProcessing (binding : Binding) (state : CompletedWebTurnReplayState) : Binding :=
  completeStringProcessing webTurnKeys binding state.clientTurnId (.webTurn state)

def releaseWebTurnProcessing := releaseStringProcessing webTurnKeys

/-! ## Reminders -/

def reminderKeys : RegisterKeys where
  activeKey := "reminderActiveReplayKey"
  activeClaimedAtKey := "reminderActiveReplayClaimedAt"
  completedKey := "reminderLastCompletedReplay"

def claimReminderDeliveryProcessing :=
  claimStringProcessing reminderKeys readCompletedReminderReplay

def completeReminderDeliveryProcessing (binding : Binding) (state : CompletedReminderReplayState) :
    Binding :=
  completeStringProcessing reminderKeys binding state.replayKey (.reminder state)

def releaseReminderDeliveryProcessing := releaseStringProcessing reminderKeys

/-! ## Telegram updates -/

def telegramActiveUpdateIdKey : String := "telegramActiveUpdateId"

def telegramActiveUpdateClaimedAtKey : String := "telegramActiveUpdateClaimedAt"

def telegramLastHandledUpdateIdKey : String := "telegramLastHandledUpdateId"

def telegramLastHandledUpdateAtKey : String := "telegramLastHandledUpdateAt"

def claimTelegramUpdateProcessing (binding : Binding) (updateId : Int) (claimedAt : Int)
    (staleAfterMs : Nat) : ClaimOutcome × Binding :=
  let metadata := lockOrCreateBindingRow binding
  let lastHandled := readFiniteNumber (metadata telegramLastHandledUpdateIdKey)
  if lastHandled.any fun lastHandled => updateId ≤ lastHandled then
    (.duplicateHandled, some metadata)
  else
    let activeUpdateId := readFiniteNumber (metadata telegramActiveUpdateIdKey)
    let activeClaimedAt := readDate (metadata telegramActiveUpdateClaimedAtKey)
    if activeUpdateId = some updateId ∧
        activeClaimedAt.any fun activeClaimedAt => claimedAt - activeClaimedAt < staleAfterMs then
      (.duplicateInflight, some metadata)
    else
      (.claimed, some (setKey (setKey metadata telegramActiveUpdateIdKey (.number updateId))
        telegramActiveUpdateClaimedAtKey (.date claimedAt)))

def deleteActiveUpdate (metadata : Metadata) (updateId : Int) : Metadata :=
  if readFiniteNumber (metadata telegramActiveUpdateIdKey) = some updateId then
    deleteKey (deleteKey metadata telegramActiveUpdateIdKey) telegramActiveUpdateClaimedAtKey
  else metadata

def completeTelegramUpdateProcessing (binding : Binding) (updateId : Int) (completedAt : Int) :
    Binding :=
  binding.map fun metadata =>
    let lastHandled := readFiniteNumber (metadata telegramLastHandledUpdateIdKey)
    let metadata :=
      if lastHandled.all fun lastHandled => lastHandled < updateId then
        setKey (setKey metadata telegramLastHandledUpdateIdKey (.number updateId))
          telegramLastHandledUpdateAtKey (.date completedAt)
      else metadata
    deleteActiveUpdate metadata updateId

def releaseTelegramUpdateProcessing (binding : Binding) (updateId : Int) : Binding :=
  binding.map fun metadata => deleteActiveUpdate metadata updateId

end Persai.ChannelBinding
