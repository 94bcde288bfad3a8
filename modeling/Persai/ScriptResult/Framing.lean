import Mathlib.Tactic.SplitIfs
import Persai.Search
import Persai.Text
import Persai.Utf8

/-!
# The result of a Script

A Script leaves its result in a file. The wrapper prints a marker on a line of its own and then
the first bytes of the file, one more than the result may have: a result that fills them is known
to be too large. The host splits what it captured at the last marker, trims what follows it and
reads that as JSON.

Both steps can be misled. A file that holds the marker is split inside, and white space at the cut
is trimmed before the bytes are counted, the one byte too many with it.

`JSON.parse` is a parameter.
-/

namespace Persai.ScriptResult

/-- What bounds the result. -/
structure Limits where
  maxOutputBytes : ℤ

structure Policy where
  maxSingleFileWriteBytes : ℤ
  maxStdoutBytes : ℤ

def framing (marker : List Char) : List Char := '\n' :: (marker ++ ['\n'])

def resolveEffectiveScriptOutputBytes (policy : Policy) (limits : Limits)
    (marker : List Char) : ℕ :=
  (max 0 (min limits.maxOutputBytes (min policy.maxSingleFileWriteBytes
    (policy.maxStdoutBytes - (Utf8.encode (framing marker)).length - 1)))).toNat

/-- What the command of `buildScriptExecutionShellCommand` prints when the Script wrote `file`. -/
def wrapperStdout (marker : List Char) (maxOutputBytes : ℕ) (file : List UInt8) : List UInt8 :=
  Utf8.encode (framing marker) ++ file.take (maxOutputBytes + 1)

/-- `LimitedCollector.collect` -/
def collect (policy : Policy) (stdout : List UInt8) : List Char :=
  Utf8.decode (stdout.take policy.maxStdoutBytes.toNat)

/-! ## The reader -/

def trim (text : List Char) : List Char := strip isTrimmed text

/-- `/\n$/` -/
def dropLastNewline (text : List Char) : List Char :=
  if text.getLast? = some '\n' then text.dropLast else text

/-- `/^\n/` -/
def dropFirstNewline : List Char → List Char
  | '\n' :: rest => rest
  | text => text

def nonempty (text : List Char) : Option (List Char) := if text = [] then none else some text

structure SplitStdout where
  diagnosticStdout : Option (List Char)
  resultText : Option (List Char)

def splitScriptExecutionStdout (rawStdout : Option (List Char)) (resultMarker : List Char) :
    SplitStdout :=
  match rawStdout with
  | none => ⟨none, none⟩
  | some rawStdout =>
    match lastIndexOf resultMarker rawStdout with
    | none => ⟨nonempty rawStdout, none⟩
    | some markerIndex =>
      let before := dropLastNewline (rawStdout.take markerIndex)
      let after := trim (dropFirstNewline (rawStdout.drop (markerIndex + resultMarker.length)))
      ⟨nonempty before, nonempty after⟩

structure ParseFailure where
  code : String
  message : String
  deriving DecidableEq

section

variable {υ : Type} (jsonParse : List Char → Option υ)

def parseScriptExecutionResultJson (resultText : Option (List Char)) (maxOutputBytes : ℕ) :
    Except ParseFailure υ :=
  match resultText with
  | none =>
    .error ⟨"script_output_missing",
      "The Script did not write a result to PERSAI_SCRIPT_OUTPUT_PATH."⟩
  | some resultText =>
    if maxOutputBytes < (Utf8.encode resultText).length then
      .error ⟨"script_output_too_large",
        s!"Script result exceeded the {maxOutputBytes}-byte limit."⟩
    else
      match jsonParse resultText with
      | some value => .ok value
      | none =>
        .error ⟨"script_output_not_json",
          "The Script result at PERSAI_SCRIPT_OUTPUT_PATH was not valid JSON."⟩

/-- The result of a Script that wrote `file`. -/
def scriptResult (policy : Policy) (limits : Limits) (marker : List Char) (file : List UInt8) :
    Except ParseFailure υ :=
  let maxOutputBytes := resolveEffectiveScriptOutputBytes policy limits marker
  let stdout := collect policy (wrapperStdout marker maxOutputBytes file)
  parseScriptExecutionResultJson jsonParse
    (splitScriptExecutionStdout (some stdout) marker).resultText maxOutputBytes

/-! ## The whole file -/

/-- The file, up to the white space around it. -/
def content (file : List UInt8) : List Char := trim (Utf8.decode file)

/-- The file holds the value, and no more than the result may have. -/
def IsWhole (maxOutputBytes : ℕ) (file : List UInt8) (value : υ) : Prop :=
  jsonParse (content file) = some value ∧
    (Utf8.encode (content file)).length ≤ maxOutputBytes

variable {jsonParse}

theorem parse_ok {resultText : Option (List Char)} {maxOutputBytes : ℕ} {value : υ}
    (parsed : parseScriptExecutionResultJson jsonParse resultText maxOutputBytes = .ok value) :
    ∃ text, resultText = some text ∧ (Utf8.encode text).length ≤ maxOutputBytes ∧
      jsonParse text = some value := by
  unfold parseScriptExecutionResultJson at parsed
  split at parsed
  · cases parsed
  · rename_i text
    split_ifs at parsed with large
    split at parsed
    · rename_i found read
      cases parsed
      exact ⟨text, rfl, Nat.not_lt.mp large, read⟩
    · cases parsed

theorem nonempty_eq_some {text result : List Char} (shown : nonempty text = some result) :
    text = result ∧ result ≠ [] := by
  unfold nonempty at shown
  split_ifs at shown with empty
  obtain rfl := Option.some.inj shown
  exact ⟨rfl, empty⟩

/-- Where a result may have bytes at all, the capture keeps all that the wrapper prints. -/
theorem wrapperStdout_kept {policy : Policy} {limits : Limits} {marker : List Char}
    (positive : 0 < resolveEffectiveScriptOutputBytes policy limits marker)
    (file : List UInt8) :
    let stdout := wrapperStdout marker
      (resolveEffectiveScriptOutputBytes policy limits marker) file
    stdout.take policy.maxStdoutBytes.toNat = stdout := by
  dsimp only
  refine List.take_of_length_le ?_
  have kept : (file.take (resolveEffectiveScriptOutputBytes policy limits marker + 1)).length ≤
      resolveEffectiveScriptOutputBytes policy limits marker + 1 := List.length_take_le ..
  rw [wrapperStdout, List.length_append]
  unfold resolveEffectiveScriptOutputBytes at positive kept ⊢
  omega

theorem split_once {marker body : List Char}
    (once : lastIndexOf marker (marker ++ '\n' :: body) = some 0) :
    (splitScriptExecutionStdout (some (framing marker ++ body)) marker).resultText =
      nonempty (trim body) := by
  have index : lastIndexOf marker (framing marker ++ body) = some 1 := by
    rw [framing, List.cons_append, List.append_assoc, List.singleton_append, lastIndexOf, once]
  have after : (framing marker ++ body).drop (1 + marker.length) = '\n' :: body := by
    rw [framing, List.cons_append, Nat.add_comm, List.drop_succ_cons, List.append_assoc,
      List.drop_left, List.singleton_append]
  rw [splitScriptExecutionStdout]
  dsimp only
  rw [index]
  dsimp only
  rw [after]
  rfl

theorem split_shows {rawStdout : Option (List Char)} {marker text : List Char}
    (result : (splitScriptExecutionStdout rawStdout marker).resultText = some text) :
    text ≠ [] := by
  unfold splitScriptExecutionStdout at result
  split at result
  · cases result
  · split at result
    · cases result
    · exact (nonempty_eq_some result).1 ▸ (nonempty_eq_some result).2

/-- The byte too many shows, unless there is white space around what was read. -/
theorem sentinel_shows {maxOutputBytes : ℕ} {bytes : List UInt8}
    (more : maxOutputBytes < bytes.length) (plain : trim (Utf8.decode bytes) = Utf8.decode bytes) :
    maxOutputBytes < (Utf8.encode (content bytes)).length := by
  rw [content, plain]
  exact more.trans_le (Utf8.length_le_encode_decode bytes)

variable (jsonParse) in
/-- A result that is returned is the whole file, where the marker is not found again after the
wrapper's own, and where the byte too many is not lost in white space: the file ends before it,
or nothing but white space is left out, or what was read is still too large without the white
space around it. -/
theorem scriptResult_isWhole (policy : Policy) (limits : Limits) (marker : List Char)
    (file : List UInt8)
    (once : lastIndexOf marker (marker ++ '\n' :: Utf8.decode (file.take
      (resolveEffectiveScriptOutputBytes policy limits marker + 1))) = some 0)
    (shown : file.length ≤ resolveEffectiveScriptOutputBytes policy limits marker + 1 ∨
      content (file.take (resolveEffectiveScriptOutputBytes policy limits marker + 1)) =
        content file ∨
      resolveEffectiveScriptOutputBytes policy limits marker <
        (Utf8.encode (content (file.take
          (resolveEffectiveScriptOutputBytes policy limits marker + 1)))).length)
    {value : υ} (returned : scriptResult jsonParse policy limits marker file = .ok value) :
    IsWhole jsonParse (resolveEffectiveScriptOutputBytes policy limits marker) file value := by
  obtain ⟨text, result, fits, read⟩ := parse_ok returned
  have positive : 0 < resolveEffectiveScriptOutputBytes policy limits marker := by
    have bytes := Utf8.length_le_encode text
    have length := List.length_pos_iff.mpr (split_shows result)
    omega
  rw [collect, wrapperStdout_kept positive, wrapperStdout, Utf8.decode_encode_append,
    split_once once] at result
  obtain rfl := (nonempty_eq_some result).1
  have same : content (file.take (resolveEffectiveScriptOutputBytes policy limits marker + 1)) =
      content file := by
    rcases shown with short | same | large
    · rw [List.take_of_length_le short]
    · exact same
    · exact absurd fits (Nat.not_le.mpr large)
  exact ⟨same ▸ read, same ▸ fits⟩

end

/-! ## A file that is cut, and one that holds the marker -/

namespace Sample

def marker : List Char := "___PERSAI_SCRIPT_RESULT_BOUNDARY_k1__".toList

def policy : Policy := ⟨1024, 4096⟩

def limits : Limits := ⟨5⟩

/-- The numbers that are met here. -/
def jsonParse (text : List Char) : Option ℕ :=
  if text = "12345".toList then some 12345 else none

theorem whole_number : IsWhole jsonParse
    (resolveEffectiveScriptOutputBytes policy limits marker)
    (Utf8.encode "12345\n".toList) 12345 :=
  scriptResult_isWhole jsonParse policy limits marker _ (by decide +kernel)
    (.inl (by decide +kernel)) (by decide +kernel)

/-- Six bytes are read of which the last one is a blank, and the rest of the file is lost. -/
theorem cut_at_blank :
    scriptResult jsonParse policy limits marker (Utf8.encode "12345 6".toList) = .ok 12345 ∧
      ¬ IsWhole jsonParse (resolveEffectiveScriptOutputBytes policy limits marker)
        (Utf8.encode "12345 6".toList) 12345 := by
  refine ⟨by decide +kernel, fun whole => ?_⟩
  exact absurd whole.1 (by decide +kernel)

/-- A Script that writes the marker chooses where its file is split. -/
example : scriptResult jsonParse policy ⟨100⟩ marker
    (Utf8.encode ("[\n".toList ++ marker ++ "\n12345".toList)) = .ok 12345 := by
  decide +kernel

end Sample

end Persai.ScriptResult
