import Mathlib.Data.Rat.Defs
import Persai.JsonValue
import Persai.SortedFields
import Persai.Utf8

/-!
# The frames of a Script's browser

A Script asks for its browser on its standard output, in lines that start with a prefix.
`ScriptBrowserFrameDecoder` takes these lines out of the stream and passes the rest on. It decodes
each chunk of the stream to text by itself.

`Buffer.from(…, "base64url")` and `JSON.parse` are parameters.
-/

namespace Persai.ScriptBrowser

open CodeUnits (ofString)

/-- `SCRIPT_BROWSER_REQUEST_FRAME_PREFIX`. -/
def framePrefix : List Char := "___PERSAI_BROWSER_REQUEST_V1___".toList

def maxScriptBrowserRequestBytes : ℕ := 64 * 1024

def maxProfileChars : ℕ := 128

/-- `RUNTIME_SCRIPT_BROWSER_ACTIONS`. -/
def runtimeScriptBrowserActions : List CodeUnits.Text := ["snapshot", "act"].map ofString

structure SdkRequest where
  requestId : CodeUnits.Text
  action : CodeUnits.Text
  profile : CodeUnits.Text
  arguments : List (CodeUnits.Text × JsonValue ℚ)

/-- `/^[A-Za-z0-9_-]{8,128}$/` -/
def isRequestId (text : CodeUnits.Text) : Bool :=
  8 ≤ text.length && text.length ≤ 128 && text.all fun u => CodeUnits.isWord u || u == 45

/-- The keys in order, joined by commas. -/
def joinedKeys (row : List (CodeUnits.Text × JsonValue ℚ)) : CodeUnits.Text :=
  List.intercalate [44] ((SortedFields.sortByKey row).map Prod.fst)

def requestOf (row : List (CodeUnits.Text × JsonValue ℚ)) : Option SdkRequest :=
  if joinedKeys row = ofString "action,arguments,profile,requestId,version" then
    match row.lookup (ofString "version"), row.lookup (ofString "requestId"),
      row.lookup (ofString "action"), row.lookup (ofString "profile"),
      row.lookup (ofString "arguments") with
    | some (.num version), some (.str requestId), some (.str action), some (.str profile),
        some (.obj arguments) =>
      if version = 1 && isRequestId requestId && runtimeScriptBrowserActions.contains action &&
          CodeUnits.trim profile != [] && profile.length ≤ maxProfileChars then
        some ⟨requestId, action, CodeUnits.trim profile, arguments⟩
      else none
    | _, _, _, _, _ => none
  else none

section

variable (base64url : List Char → List UInt8) (jsonParse : List Char → Option (JsonValue ℚ))

/-- Nothing where it throws. -/
def parseScriptBrowserRequestFrame (line : List Char) : Option SdkRequest :=
  if framePrefix.isPrefixOf line then
    let encoded := line.drop framePrefix.length
    if encoded = [] ∨ (maxScriptBrowserRequestBytes * 4 + 2) / 3 <
        (encoded.flatMap CodeUnits.unitsOf).length then none
    else
      let bytes := base64url encoded
      if bytes = [] ∨ maxScriptBrowserRequestBytes < bytes.length then none
      else ((jsonParse (Utf8.decode bytes)).bind JsonValue.asObject).bind requestOf
  else none

/-! ## The decoder -/

/-- The decoder with what it has passed on. -/
structure Decoder where
  pending : List Char
  ordinaryLineOpen : Bool
  frames : List SdkRequest
  ordinaryStdout : List UInt8

namespace Decoder

def new : Decoder := ⟨[], false, [], []⟩

def print (d : Decoder) (text : List Char) : Decoder :=
  { d with ordinaryStdout := d.ordinaryStdout ++ Utf8.encode text }

end Decoder

def isFrame (line : List Char) : Bool := framePrefix.isPrefixOf line

/-- The lines of a text that are ended, and what comes after them. -/
def splitLines : List Char → List (List Char) × List Char
  | [] => ([], [])
  | c :: rest =>
    let split := splitLines rest
    if c = '\n' then ([] :: split.1, split.2)
    else
      match split.1 with
      | [] => ([], c :: split.2)
      | line :: lines => ((c :: line) :: lines, split.2)

namespace Decoder

/-- One line, without its end. -/
def takeLine (d : Decoder) (line : List Char) : Option Decoder :=
  if d.ordinaryLineOpen then
    some { d.print (line ++ ['\n']) with ordinaryLineOpen := false }
  else if isFrame line then
    (parseScriptBrowserRequestFrame base64url jsonParse line).map fun request =>
      { d with frames := d.frames ++ [request] }
  else some (d.print (line ++ ['\n']))

/-- The lines are taken off `pending` in turn. -/
def takeLines (d : Decoder) : List (List Char) → Option Decoder
  | [] => some d
  | line :: lines => (d.takeLine base64url jsonParse line).bind fun d => takeLines d lines

/-- A line that is too long to be kept is passed on, unless it may be a frame. -/
def limitPending (d : Decoder) : Option Decoder :=
  if maxScriptBrowserRequestBytes * 2 < (Utf8.encode d.pending).length then
    if !d.ordinaryLineOpen && (isFrame d.pending || d.pending.isPrefixOf framePrefix) then none
    else some { d.print d.pending with pending := [], ordinaryLineOpen := true }
  else some d

/-- Nothing after a failure, which destroys the stream. -/
def write (d : Decoder) (chunk : List UInt8) : Option Decoder :=
  let split := splitLines (d.pending ++ Utf8.decode chunk)
  (takeLines base64url jsonParse d split.1).bind fun d =>
    limitPending { d with pending := split.2 }

def writeAll (d : Decoder) : List (List UInt8) → Option Decoder
  | [] => some d
  | chunk :: chunks => (d.write base64url jsonParse chunk).bind fun d => writeAll d chunks

def flushRemainder (d : Decoder) : Option Decoder :=
  if d.pending = [] then some d
  else if !d.ordinaryLineOpen && isFrame d.pending then none
  else some { d.print d.pending with pending := [] }

end Decoder

/-- The requests and the bytes that a stream comes to, when it comes in these chunks. -/
def decodeStream (chunks : List (List UInt8)) : Option (List SdkRequest × List UInt8) :=
  ((Decoder.new.writeAll base64url jsonParse chunks).bind Decoder.flushRemainder).map fun d =>
    (d.frames, d.ordinaryStdout)

end

end Persai.ScriptBrowser
