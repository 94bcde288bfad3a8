import Mathlib.Data.List.Infix
import Persai.Text

/-!
# Messages for the provider

A stored chat message and what the provider is given of it. A message that has nothing to say
is not hydratable; an assistant message that consists of attachments only is hydratable and
yet leaves nothing on the wire.
-/

namespace Persai.Hydration

inductive Author where
  | user | assistant | system
  deriving DecidableEq, Repr

/-- `CanonicalChatMessageRow`: the attachments are those that are ready and not deleted, and of
the metadata there are the fields that hydration reads. -/
structure CanonicalChatMessage where
  id : String
  author : Author
  content : String
  attachments : List String := []
  status : Option String := none
  stopReason : Option String := none
  /-- The label of the sender in a Telegram group. -/
  telegramSender : Option String := none
  deriving DecidableEq, Repr

inductive ContentBlock where
  | text (text : String)
  | image (source : String)
  | pdf (source : String)
  deriving DecidableEq, Repr

inductive MessageContent where
  | text (text : String)
  | blocks (blocks : List ContentBlock)
  deriving DecidableEq, Repr

inductive ProviderRole where
  | user | assistant
  deriving DecidableEq, Repr

/-- `ProviderGatewayTextMessage`; each earlier tool exchange as its JSON text. -/
structure ProviderGatewayTextMessage where
  role : ProviderRole
  content : MessageContent
  priorToolExchanges : List String := []
  deriving DecidableEq, Repr

def isBlank (text : String) : Bool := trim text == ""

def includes (text part : String) : Bool := decide (part.toList <:+: text.toList)

def toProviderRole : Author → ProviderRole
  | .assistant => .assistant
  | _ => .user

def isHydratableCanonicalMessage (message : CanonicalChatMessage) : Bool :=
  if message.author == .system then false
  else if isBlank message.content && message.attachments.isEmpty then
    message.author == .assistant && message.status == some "partial" &&
      message.stopReason == some "user_stopped"
  else true

def stoppedMarker : String :=
  "\n\n[Note: the user explicitly stopped the previous assistant turn before it finished.]"

def interruptedMarker : String :=
  "\n\n[Note: the previous answer was interrupted before completion.]"

def withTruncationMarker (content : MessageContent) (message : CanonicalChatMessage) :
    MessageContent :=
  if message.author != .assistant then content
  else if message.status != some "partial" && message.status != some "truncated" then content
  else
    match content with
    | .blocks blocks => .blocks blocks
    | .text text =>
      let marker :=
        if message.stopReason == some "user_stopped" then stoppedMarker else interruptedMarker
      if includes text marker then .text text else .text (text ++ marker)

def buildHydratedMessageTextContent (author : Author) (baseContent : String)
    (hasAttachments : Bool) : String :=
  if !isBlank baseContent then baseContent
  else if author == .user && hasAttachments then "User sent attachments only."
  else ""

def isProviderWireEmptyAssistantAttachmentOnly (author : Author) (content : MessageContent)
    (attachmentCount : Nat) : Bool :=
  if author != .assistant || attachmentCount == 0 then false
  else
    match content with
    | .text text => isBlank text
    | .blocks blocks => blocks.all fun block =>
      match block with
      | .image _ | .pdf _ => false
      | .text text => isBlank text

/-- The messages that hydration considers. -/
def hydratable (messages : List CanonicalChatMessage) : List CanonicalChatMessage :=
  messages.filter isHydratableCanonicalMessage

end Persai.Hydration
