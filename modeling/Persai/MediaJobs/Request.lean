import Persai.ModelCost.Usage

/-!
# The request of a media job

What the scheduler reads of `requestJson`: the payload of a run, the reservation that was made at
the enqueue, and the provider task that was accepted. `JSON.parse` is a parameter.
-/

namespace Persai.MediaJobs

open ModelCost (Value Row)

/-! ## Reading a value -/

def asObject : Value → Option Row
  | .object row => some row
  | _ => none

def asArray : Value → Option (List Value)
  | .array items => some items
  | _ => none

def asString : Value → Option String
  | .string text => some text
  | _ => none

/-- A string with more than white space. -/
def nonEmptyString (value : Value) : Option String :=
  (asString value).filter fun text => !(trim text).isEmpty

def put (row : Row) (key : String) (value : Value) : Row :=
  fun other => if other = key then value else row other

/-! ## The payload -/

inductive ToolCode | imageGenerate | imageEdit | videoGenerate
  deriving DecidableEq, Repr

def ToolCode.ofString? : String → Option ToolCode
  | "image_generate" => some .imageGenerate
  | "image_edit" => some .imageEdit
  | "video_generate" => some .videoGenerate
  | _ => none

structure DirectToolExecution where
  toolCode : ToolCode
  request : Row

def parseDirectToolExecution (value : Value) : Option DirectToolExecution := do
  let row ← asObject value
  let toolCode ← (asString (row "toolCode")).bind ToolCode.ofString?
  let request ← asObject (row "request")
  return ⟨toolCode, request⟩

structure MediaJobRequestPayload where
  attachments : List Value
  sourceUserMessageText : String
  sourceUserMessageCreatedAt : String
  runtimeSessionId : String
  directToolExecution : DirectToolExecution

def isNullOrString : Value → Bool
  | .null | .string _ => true
  | _ => false

def isUndefined : Value → Bool
  | .undefined => true
  | _ => false

def isAttachmentRef (value : Value) : Bool :=
  match asObject value with
  | none => false
  | some row =>
    (nonEmptyString (row "storagePath")).isSome && (asString (row "attachmentId")).isSome &&
      (asString (row "kind")).isSome && (asString (row "mimeType")).isSome &&
      (isNullOrString (row "displayName") || isNullOrString (row "filename") ||
        isUndefined (row "displayName")) &&
      (row "sizeBytes").number?.isSome

def parseRequestPayload (value : Value) : Option MediaJobRequestPayload := do
  let row ← asObject value
  let sourceUserMessageText ← nonEmptyString (row "sourceUserMessageText")
  let sourceUserMessageCreatedAt ← asString (row "sourceUserMessageCreatedAt")
  let runtimeSessionId ← nonEmptyString (row "runtimeSessionId")
  let attachments ← asArray (row "attachments")
  guard (attachments.all isAttachmentRef)
  let directToolExecution ← parseDirectToolExecution (row "directToolExecution")
  return { attachments, sourceUserMessageText, sourceUserMessageCreatedAt, runtimeSessionId,
           directToolExecution }

/-! ## The reservation -/

/-- The units of a monthly quota that were reserved at the enqueue. -/
structure Reservation where
  toolCode : ToolCode
  units : Nat
  deriving DecidableEq, Repr

def extractReservationInfoFromRequestJson (requestJson : Value) : Option Reservation := do
  let row ← asObject requestJson
  let direct ← parseDirectToolExecution (row "directToolExecution")
  guard (direct.toolCode ≠ .videoGenerate)
  let count ← (direct.request "count").number?
  guard (count.den = 1 ∧ 0 < count)
  return ⟨direct.toolCode, count.num.toNat⟩

/-! ## The accepted provider task -/

inductive VideoProvider | openai | runway | kling | heygen
  deriving DecidableEq, Repr

def VideoProvider.ofString? : String → Option VideoProvider
  | "openai" => some .openai
  | "runway" => some .runway
  | "kling" => some .kling
  | "heygen" => some .heygen
  | _ => none

def VideoProvider.toString : VideoProvider → String
  | .openai => "openai"
  | .runway => "runway"
  | .kling => "kling"
  | .heygen => "heygen"

/-- `AcceptedPrimaryUnconfirmedStatus` less its constant fields. -/
structure AcceptedPrimaryUnconfirmedStatus where
  providerTaskId : String
  provider : VideoProvider
  model : Option String
  acceptedAt : String
  reason : String
  message : String
  taskKind : Option String
  deriving DecidableEq, Repr

/-- A run that failed, as the runtime client returns it. -/
structure Failure where
  retryable : Bool
  code : Option String
  message : String
  providerStatus : Option Row

/-- The status that an object gives, where its provider and its task id are there. -/
def acceptedStatus (row : Row) (now message : String) :
    Option AcceptedPrimaryUnconfirmedStatus := do
  let providerTaskId ← nonEmptyString (row "providerTaskId")
  let provider ← (asString (row "provider")).bind VideoProvider.ofString?
  return { providerTaskId := trim providerTaskId
           provider
           model := (nonEmptyString (row "model")).map trim
           acceptedAt := (nonEmptyString (row "acceptedAt")).getD now
           reason := (nonEmptyString (row "reason")).getD
             "provider accepted but polling transport lost"
           message := (nonEmptyString (row "message")).getD message
           taskKind := (nonEmptyString (row "taskKind")).map trim }

/-- `indexOf`: the text from the first occurrence of `marker` on. -/
def fromMarker (marker : List Char) (text : List Char) : Option (List Char) :=
  text.tails.find? marker.isPrefixOf

/-- What `PERSAI_VIDEO_ACCEPTED_PRIMARY_UNCONFIRMED::(\{[\s\S]*\})` captures: the text from the
brace that follows the marker to the last closing brace. -/
def payloadMatch (message : String) : Option String := do
  let marker := "PERSAI_VIDEO_ACCEPTED_PRIMARY_UNCONFIRMED::".toList
  let found ← fromMarker (marker ++ ['{']) message.toList
  let payload := ((found.drop marker.length).reverse.dropWhile (· ≠ '}')).reverse
  if payload.isEmpty then none else some (String.ofList payload)

section
variable (parse : String → Option Value)

/-- The longest text from the brace after the marker on that is an object. -/
def parseProviderStatusFromOutcomeMessage (message : String) : Option Row := do
  let found ← fromMarker "providerStatus\":".toList message.toList
  let braced := found.dropWhile (· ≠ '{')
  (List.range braced.length).reverse.findSome? fun last =>
    (parse (trim (String.ofList (braced.take (last + 1))))).bind asObject

/-- The status in the text of the failure: in the marked payload, else in a `providerStatus`. -/
def acceptedInMessage (now message : String) : Option AcceptedPrimaryUnconfirmedStatus :=
  let fallbackStatus := do
    let row ← parseProviderStatusFromOutcomeMessage parse message
    guard (asString (row "providerStage") = some "accepted")
    acceptedStatus row now message
  match (payloadMatch message).bind parse with
  | some parsed =>
    match asObject parsed with
    | none => none
    | some row =>
      (do
        guard (asString (row "providerStage") = some "accepted")
        guard (asString (row "code") = some "accepted_primary_unconfirmed")
        acceptedStatus row now message).or fallbackStatus
  | none => fallbackStatus

def readAcceptedPrimaryUnconfirmed (now : String) (failure : Failure) :
    Option AcceptedPrimaryUnconfirmedStatus :=
  if failure.code ≠ some "accepted_primary_unconfirmed" then none
  else
    (failure.providerStatus.bind fun row => acceptedStatus row now failure.message).or
      (acceptedInMessage parse now failure.message)

end

def orNull (text : Option String) : Value := text.elim .null .string

def AcceptedPrimaryUnconfirmedStatus.task (accepted : AcceptedPrimaryUnconfirmedStatus) : Row
  | "provider" => .string accepted.provider.toString
  | "model" => orNull accepted.model
  | "providerTaskId" => .string accepted.providerTaskId
  | "acceptedAt" => .string accepted.acceptedAt
  | "providerStage" => .string "accepted"
  | "taskKind" => orNull accepted.taskKind
  | _ => .undefined

def withAcceptedProviderTask (requestJson : Value) (task : Row) : Value :=
  match requestJson with
  | .object row =>
    match row "directToolExecution" with
    | .object direct =>
      if asString (direct "toolCode") ≠ some "video_generate" then requestJson
      else
        match direct "request" with
        | .object request =>
          .object (put row "directToolExecution" (.object (put direct "request"
            (.object (put request "acceptedProviderTask" (.object task))))))
        | _ => requestJson
    | _ => requestJson
  | _ => requestJson

/-- The id of the task that the request has recorded, if its provider is known. -/
def readExistingProviderTaskId (requestJson : Value) : Option String := do
  let row ← asObject requestJson
  let direct ← asObject (row "directToolExecution")
  guard (asString (direct "toolCode") = some "video_generate")
  let request ← asObject (direct "request")
  let accepted ← asObject (request "acceptedProviderTask")
  let providerTaskId ← nonEmptyString (accepted "providerTaskId")
  let _ ← (asString (accepted "provider")).bind VideoProvider.ofString?
  return trim providerTaskId

end Persai.MediaJobs
