import Mathlib.Data.Rat.Defs
import Mathlib.Tactic.SplitIfs
import Persai.JsonText

/-!
# What the model sees of a tool's result

`JSON.stringify` is given a replacer, which looks at each object before its fields are written. It
looks at the result of the files tool first, then at the result of the browser tool, and then at
an artifact, of which four fields are kept.

Fields that are `undefined` are left out of the objects here, as `JSON.stringify` leaves them out.
-/

namespace Persai.ToolResult

open CodeUnits (Text ofString)
open JsonValue (field asString asNumber asArray)

abbrev Json := JsonValue ℚ

abbrev Fields := List (Text × Json)

def stringField (name : String) (fields : Fields) : Option Text := (field name fields).bind asString

/-! ## Shapes -/

/-- `MODEL_VISIBLE_ARTIFACT_FIELDS` -/
def modelVisibleArtifactFields : List Text :=
  ["kind", "mimeType", "voiceNote", "caption"].map ofString

def isRuntimeOutputArtifactShape (fields : Fields) : Bool :=
  (stringField "artifactId" fields).isSome && (stringField "kind" fields).isSome

def isRuntimeFilesToolResultShape (fields : Fields) : Bool :=
  stringField "toolCode" fields == some (ofString "files") &&
    stringField "executionMode" fields == some (ofString "inline")

def isRuntimeBrowserToolResultShape (fields : Fields) : Bool :=
  stringField "toolCode" fields == some (ofString "browser") &&
    stringField "executionMode" fields == some (ofString "worker")

/-! ## The files tool -/

def maxModelVisibleFilesContentChars : ℕ := 16000

def isControlUnit (u : UInt16) : Bool :=
  (u < 32 && !(u == 9 || u == 10 || u == 13)) || (127 ≤ u && u ≤ 159)

/-- More than one unit of fifty is a control character, among the first ones. -/
def isLikelyBinaryContent (value : Text) : Bool :=
  if value = [] then false
  else if (ofString "%PDF-").isPrefixOf value || value.contains 0 || value.contains 0xFFFD then true
  else
    let sample := value.take 4096
    sample.length < 50 * sample.countP isControlUnit

structure SanitizedContent where
  content : Option Text
  charCount : Option ℚ
  truncated : Bool

def sanitizeFilesContentForModel (value : Option Json) (existingCharCount : Option ℚ) :
    SanitizedContent :=
  match value.bind asString with
  | none => ⟨none, existingCharCount, false⟩
  | some text =>
    let originalCharCount := existingCharCount.getD text.length
    if isLikelyBinaryContent text then
      ⟨some (ofString "[binary file content omitted from model context]"),
        some originalCharCount, false⟩
    else if maxModelVisibleFilesContentChars < text.length then
      ⟨some (text.take maxModelVisibleFilesContentChars ++
          ofString "\n\n[content truncated for model context: " ++
          ofString (toString (text.length - maxModelVisibleFilesContentChars)) ++
          ofString " characters omitted]"),
        some originalCharCount, true⟩
    else ⟨some text, some originalCharCount, false⟩

/-- `value ?? other` -/
def orElse (value : Option Json) (other : Json) : Json :=
  match value with
  | none | some .null => other
  | some value => value

/-- A field that is there when its value is. -/
def optional (name : String) (value : Option Json) : Fields :=
  value.toList.map fun value => (ofString name, value)

/-- `readNote`, when it is a text or nothing. -/
def readNote (value : Option Json) : Option Json :=
  match value with
  | some (.str text) => some (.str text)
  | some .null => some .null
  | _ => none

def onlyTrue (value : Option Json) : Option Json :=
  match value with
  | some (.bool true) => some (.bool true)
  | _ => none

def sanitizeFilesToolResultForModel (value : Fields) : Fields :=
  let existingCharCount := (field "charCount" value).bind asNumber
  let sanitizedContent := sanitizeFilesContentForModel (field "content" value) existingCharCount
  [(ofString "toolCode", .str (ofString "files"))] ++
    optional "executionMode" (field "executionMode" value) ++
    optional "requestedAction" (field "requestedAction" value) ++
    optional "action" (field "action" value) ++
    optional "reason" (field "reason" value) ++
    optional "warning" (field "warning" value) ++
    [(ofString "item", (field "item" value).getD .null),
      (ofString "items", .arr (((field "items" value).bind asArray).getD [])),
      (ofString "content", (sanitizedContent.content.map .str).getD .null),
      (ofString "charCount", (sanitizedContent.charCount.map .num).getD .null),
      (ofString "truncated", .bool sanitizedContent.truncated)] ++
    optional "path" ((stringField "path" value).map .str) ++
    optional "sizeBytes" (((field "sizeBytes" value).bind asNumber).map .num) ++
    optional "mimeType" ((stringField "mimeType" value).map .str) ++
    optional "displayName" ((stringField "displayName" value).map .str) ++
    optional "note" (readNote (field "readNote" value)) ++
    optional "extractionQuality" (field "extractionQuality" value) ++
    optional "extractionCached" (onlyTrue (field "extractionCached" value)) ++
    [(ofString "job", .null),
      (ofString "queuedArtifacts", orElse (field "queuedArtifacts" value) (.num 0))]

/-! ## The browser tool -/

/-- `PERSAI_WEB_BROWSER_LOGIN_CONTINUE_URL` -/
def persaiWebBrowserLoginContinueUrl : Text := ofString "https://persai.dev"

/-- The login that is pending, or the login. -/
def pendingLogin (value : Fields) : Option Fields :=
  ((field "pendingBrowserLogin" value).bind JsonValue.asObject).or
    ((field "login" value).bind JsonValue.asObject)

/-- A text that is not blank, trimmed. -/
def shownName (value : Option Text) : Option Text :=
  value.bind fun text => if CodeUnits.trim text = [] then none else some (CodeUnits.trim text)

def isNull : Option Json → Bool
  | some .null => true
  | _ => false

def shouldAttachWebLoginDelivery (value : Fields) : Bool :=
  (["login", "user_action_requested", "opened_live"].map fun action =>
      some (ofString action)).contains (stringField "action" value) ||
    (["request_user_action", "open_live"].map fun action =>
      some (ofString action)).contains (stringField "requestedAction" value) ||
    !isNull (field "pendingBrowserLogin" value)

def assistDelivery : Text :=
  ofString ("PersAI has shown the explicit browser handoff card on this surface. Briefly tell " ++
    "the user to use that card, then stop; do not retry browser tools. The live page opens " ++
    "only from the user's Open action, and Done starts a new user turn so you can continue.")

def continueDelivery : Text :=
  ofString ("Tell the user to continue at continueUrl in the PersAI app on this same surface, " ++
    "where the local browser bridge can open the login view.")

def webBrowserLogin (value : Fields) : Fields :=
  let pending := pendingLogin value
  let displayName := (shownName (pending.bind (stringField "displayName"))).or
    (shownName (stringField "displayName" value))
  [(ofString "continueUrl", .str persaiWebBrowserLoginContinueUrl)] ++
    optional "displayName" (displayName.map .str) ++
    [(ofString "delivery",
      .str (if pending.bind (stringField "completionMode") = some (ofString "assist") then
        assistDelivery else continueDelivery))]

/-- A field that is there keeps its place. -/
def assignField (name : Text) (value : Json) (fields : Fields) : Fields :=
  if (fields.map Prod.fst).contains name then
    fields.map fun field => if field.1 = name then (name, value) else field
  else fields ++ [(name, value)]

def sanitizeBrowserToolResultForModel (value : Fields) : Fields :=
  if shouldAttachWebLoginDelivery value then
    assignField (ofString "webBrowserLogin") (.obj (webBrowserLogin value)) value
  else value

/-! ## The replacer -/

/-- What `modelFacingReplacer` makes of an object. -/
def modelFacingReplacer (candidate : Fields) : Fields :=
  if isRuntimeFilesToolResultShape candidate then sanitizeFilesToolResultForModel candidate
  else if isRuntimeBrowserToolResultShape candidate then sanitizeBrowserToolResultForModel candidate
  else if isRuntimeOutputArtifactShape candidate then
    candidate.filter fun field => modelVisibleArtifactFields.contains field.1
  else candidate

def highest (ns : List ℕ) : ℕ := ns.foldr max 0

theorem le_highest {ns : List ℕ} {n : ℕ} (mem : n ∈ ns) : n ≤ highest ns := by
  induction ns with
  | nil => exact absurd mem List.not_mem_nil
  | cons m ns ih =>
    rcases List.mem_cons.mp mem with rfl | later
    · exact Nat.le_max_left ..
    · exact (ih later).trans (Nat.le_max_right ..)

/-- What bounds the objects below: the replacer may put an object of texts into a browser's
result. -/
def rank : Json → ℕ
  | .arr items => 1 + highest (items.map rank)
  | .obj fields =>
    (if isRuntimeBrowserToolResultShape fields then 4 else 2) +
      highest (fields.map fun field => rank field.2)
  | _ => 0
termination_by value => sizeOf value
decreasing_by
  · have smaller := List.sizeOf_lt_of_mem ‹_ ∈ items›
    simp only [JsonValue.arr.sizeOf_spec]
    omega
  · have smaller := List.sizeOf_lt_of_mem ‹_ ∈ fields›
    cases field
    simp only [Prod.mk.sizeOf_spec, JsonValue.obj.sizeOf_spec] at smaller ⊢
    omega

theorem rank_item {items : List Json} {item : Json} (mem : item ∈ items) :
    rank item < rank (.arr items) := by
  have below := le_highest (List.mem_map_of_mem (f := rank) mem)
  rw [rank]
  omega

theorem rank_obj (fields : Fields) : rank (.obj fields) =
    (if isRuntimeBrowserToolResultShape fields then 4 else 2) +
      highest (fields.map fun field => rank field.2) := by
  rw [rank]

theorem rank_field {fields : Fields} {field : Text × Json} (mem : field ∈ fields) :
    rank field.2 + 2 ≤ rank (.obj fields) := by
  have below := le_highest (List.mem_map_of_mem (f := fun field => rank field.2) mem)
  rw [rank_obj]
  split_ifs
  · omega
  · omega

theorem two_le_rank (fields : Fields) : 2 ≤ rank (.obj fields) := by
  rw [rank_obj]
  split_ifs
  · omega
  · omega

/-- A field's value is the object's own, or has no objects in it. -/
def FieldOf (fields : Fields) (value : Json) : Prop :=
  (∃ field ∈ fields, field.2 = value) ∨ rank value ≤ 1

theorem FieldOf.rank_lt {fields : Fields} {value : Json} (kept : FieldOf fields value) :
    rank value < rank (.obj fields) := by
  rcases kept with ⟨field, mem, rfl⟩ | small
  · have below := rank_field mem
    omega
  · have least := two_le_rank fields
    omega

theorem forall_mem_optional {name : String} {value : Option Json} {P : Text × Json → Prop} :
    (∀ entry ∈ optional name value, P entry) ↔ ∀ v, value = some v → P (ofString name, v) := by
  cases value with
  | none => simp [optional]
  | some v => simp [optional]

theorem field_mem {name : String} {fields : Fields} {value : Json}
    (found : field name fields = some value) : ∃ entry ∈ fields, entry.2 = value := by
  induction fields with
  | nil => cases found
  | cons entry fields ih =>
    unfold field at found ih
    rw [List.lookup_cons] at found
    split at found
    · obtain rfl := Option.some.inj found
      exact ⟨entry, List.mem_cons_self, rfl⟩
    · obtain ⟨other, mem, same⟩ := ih found
      exact ⟨other, List.mem_cons_of_mem _ mem, same⟩

@[simp] theorem rank_null : rank .null = 0 := by
  rw [rank]
  all_goals exact nofun

@[simp] theorem rank_bool (value : Bool) : rank (.bool value) = 0 := by
  rw [rank]
  all_goals exact nofun

@[simp] theorem rank_num (value : ℚ) : rank (.num value) = 0 := by
  rw [rank]
  all_goals exact nofun

@[simp] theorem rank_str (text : Text) : rank (.str text) = 0 := by
  rw [rank]
  all_goals exact nofun

@[simp] theorem rank_arr_nil : rank (.arr []) = 1 := by
  rw [rank]
  rfl

theorem fieldOf_of_scalar {fields : Fields} {value : Json} (scalar : rank value = 0) :
    FieldOf fields value := .inr (scalar.trans_le (Nat.zero_le 1))

theorem sanitizeFiles_fields (fields : Fields) :
    ∀ entry ∈ sanitizeFilesToolResultForModel fields, FieldOf fields entry.2 := by
  have own (name : String) (value : Json) (found : field name fields = some value) :
      FieldOf fields value := .inl (field_mem found)
  have string (name : String) (value : Json)
      (found : (stringField name fields).map JsonValue.str = some value) :
      FieldOf fields value := by
    obtain ⟨text, -, rfl⟩ := Option.map_eq_some_iff.mp found
    exact fieldOf_of_scalar (rank_str text)
  unfold sanitizeFilesToolResultForModel
  simp only [List.forall_mem_append, List.forall_mem_cons, List.not_mem_nil, false_imp_iff,
    implies_true, and_true, and_assoc, forall_mem_optional]
  refine ⟨fieldOf_of_scalar (rank_str _), own _, own _, own _, own _, own _, ?item, ?items,
    ?content, ?charCount, fieldOf_of_scalar (rank_bool _), string _, ?sizeBytes, string _,
    string _, ?note, own _, ?cached, fieldOf_of_scalar rank_null, ?queued⟩
  case item =>
    cases found : field "item" fields with
    | none => exact fieldOf_of_scalar rank_null
    | some value => exact own _ _ found
  case items =>
    cases found : field "items" fields with
    | none => exact .inr rank_arr_nil.le
    | some value =>
      cases value with
      | arr items => exact own _ _ found
      | _ => exact .inr rank_arr_nil.le
  case content =>
    cases (sanitizeFilesContentForModel (field "content" fields)
      ((field "charCount" fields).bind asNumber)).content with
    | none => exact fieldOf_of_scalar rank_null
    | some text => exact fieldOf_of_scalar (rank_str text)
  case charCount =>
    cases (sanitizeFilesContentForModel (field "content" fields)
      ((field "charCount" fields).bind asNumber)).charCount with
    | none => exact fieldOf_of_scalar rank_null
    | some count => exact fieldOf_of_scalar (rank_num count)
  case sizeBytes =>
    rintro value found
    obtain ⟨size, -, rfl⟩ := Option.map_eq_some_iff.mp found
    exact fieldOf_of_scalar (rank_num size)
  case note =>
    rintro value found
    unfold readNote at found
    split at found
    · obtain rfl := Option.some.inj found
      exact fieldOf_of_scalar (rank_str _)
    · obtain rfl := Option.some.inj found
      exact fieldOf_of_scalar rank_null
    · cases found
  case cached =>
    rintro value found
    unfold onlyTrue at found
    split at found
    · obtain rfl := Option.some.inj found
      exact fieldOf_of_scalar (rank_bool _)
    · cases found
  case queued =>
    unfold orElse
    split
    · exact fieldOf_of_scalar (rank_num 0)
    · exact fieldOf_of_scalar (rank_num 0)
    · exact own _ _ ‹_›

theorem rank_webBrowserLogin (fields : Fields) : rank (.obj (webBrowserLogin fields)) = 2 := by
  have scalars : ∀ entry ∈ webBrowserLogin fields, rank entry.2 = 0 := by
    unfold webBrowserLogin
    simp only [List.forall_mem_append, List.forall_mem_cons, List.not_mem_nil, false_imp_iff,
      implies_true, and_true, forall_mem_optional, rank_str, true_and]
    rintro value found
    obtain ⟨text, -, rfl⟩ := Option.map_eq_some_iff.mp found
    exact rank_str text
  have toolCode : field "toolCode" (webBrowserLogin fields) = none := by
    refine List.lookup_eq_none_iff.mpr ?_
    unfold webBrowserLogin
    simp only [List.forall_mem_append, List.forall_mem_cons, List.not_mem_nil, false_imp_iff,
      implies_true, and_true, forall_mem_optional]
    exact ⟨⟨by decide +kernel, fun _ _ => by decide +kernel⟩, by decide +kernel⟩
  have highestScalar {ns : List ℕ} (none : ∀ n ∈ ns, n = 0) : highest ns = 0 := by
    induction ns with
    | nil => rfl
    | cons n ns ih =>
      obtain ⟨first, others⟩ := List.forall_mem_cons.mp none
      rw [highest, List.foldr_cons, first]
      exact ih others
  rw [rank_obj, highestScalar]
  · rw [isRuntimeBrowserToolResultShape, stringField, toolCode]
    rfl
  · rintro n mem
    obtain ⟨entry, entryMem, rfl⟩ := List.mem_map.mp mem
    exact scalars entry entryMem

theorem mem_assignField {name : Text} {value : Json} {fields : Fields} {entry : Text × Json}
    (mem : entry ∈ assignField name value fields) : entry ∈ fields ∨ entry.2 = value := by
  unfold assignField at mem
  split_ifs at mem
  · obtain ⟨old, oldMem, rfl⟩ := List.mem_map.mp mem
    split_ifs
    · exact .inr rfl
    · exact .inl oldMem
  · rcases List.mem_append.mp mem with own | added
    · exact .inl own
    · exact .inr (congrArg Prod.snd (List.mem_singleton.mp added))

theorem rank_modelFacingReplacer {fields : Fields} {entry : Text × Json}
    (mem : entry ∈ modelFacingReplacer fields) : rank entry.2 < rank (.obj fields) := by
  have own {entry : Text × Json} (mem : entry ∈ fields) : rank entry.2 < rank (.obj fields) :=
    FieldOf.rank_lt (.inl ⟨entry, mem, rfl⟩)
  unfold modelFacingReplacer at mem
  split_ifs at mem with files browser artifact
  · exact (sanitizeFiles_fields fields entry mem).rank_lt
  · unfold sanitizeBrowserToolResultForModel at mem
    split_ifs at mem
    · rcases mem_assignField mem with kept | login
      · exact own kept
      · rw [login, rank_webBrowserLogin, rank_obj, if_pos browser]
        omega
    · exact own mem
  · exact own (List.mem_of_mem_filter mem)
  · exact own mem

/-- The value that `JSON.stringify` writes. -/
def modelFacing : Json → Json
  | .arr items => .arr (items.map modelFacing)
  | .obj fields =>
    .obj ((modelFacingReplacer fields).attach.map fun entry => (entry.1.1, modelFacing entry.1.2))
  | value => value
termination_by value => rank value
decreasing_by
  · exact rank_item ‹_›
  · exact rank_modelFacingReplacer entry.2

theorem modelFacing_arr (items : List Json) :
    modelFacing (.arr items) = .arr (items.map modelFacing) := by
  rw [modelFacing]

theorem modelFacing_obj (fields : Fields) : modelFacing (.obj fields) =
    .obj ((modelFacingReplacer fields).map fun entry => (entry.1, modelFacing entry.2)) := by
  rw [modelFacing]
  exact congrArg JsonValue.obj (List.attach_map_val (l := modelFacingReplacer fields)
    (f := fun entry => (entry.1, modelFacing entry.2)))

/-- `numberText` writes the numbers. -/
def stringifyToolResultPayloadForModel (numberText : ℚ → Text) (payload : Json) : Text :=
  JsonText.stringify numberText (modelFacing payload)

end Persai.ToolResult
