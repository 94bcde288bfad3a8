import Mathlib.Data.List.Forall2
import Persai.ToolResult.ModelFacing

/-!
# What two results may differ in

Two results look the same to the model when they differ only in fields of artifacts that it is not
to see (`AgreeVisible`), and no artifact is taken for something else: for the result of the files
tool, for that of the browser tool, or for the login of a browser's result (`Separate`).
-/

namespace Persai.ToolResult

open CodeUnits (Text ofString)
open JsonValue (field asString asNumber asArray)

def isVisible (name : Text) : Bool := modelVisibleArtifactFields.contains name

/-- Equal except for the fields of artifacts that are not visible. -/
inductive AgreeVisible : Json → Json → Prop
  | null : AgreeVisible .null .null
  | bool (value : Bool) : AgreeVisible (.bool value) (.bool value)
  | num (value : ℚ) : AgreeVisible (.num value) (.num value)
  | str (value : Text) : AgreeVisible (.str value) (.str value)
  | arr (items items' : List Json) (length : items.length = items'.length)
      (each : ∀ (i : ℕ) x y, items[i]? = some x → items'[i]? = some y → AgreeVisible x y) :
      AgreeVisible (.arr items) (.arr items')
  | obj (fields fields' : Fields) (keys : fields.map Prod.fst = fields'.map Prod.fst)
      (each : ∀ (i : ℕ) x y, fields[i]? = some x → fields'[i]? = some y →
        AgreeVisible x.2 y.2) :
      AgreeVisible (.obj fields) (.obj fields')
  | artifact (fields fields' : Fields) (shape : isRuntimeOutputArtifactShape fields)
      (shape' : isRuntimeOutputArtifactShape fields')
      (keys : fields.map Prod.fst = fields'.map Prod.fst)
      (each : ∀ (i : ℕ) x y, fields[i]? = some x → fields'[i]? = some y → isVisible x.1 →
        AgreeVisible x.2 y.2) :
      AgreeVisible (.obj fields) (.obj fields')

/-- The fields that the result of the files tool keeps with their values; of some others it keeps
a text, a number or a truth value. -/
def filesFields : List Text :=
  ["executionMode", "requestedAction", "action", "reason", "warning", "item", "items",
    "extractionQuality", "queuedArtifacts"].map ofString

def isPassedOn (fields : Fields) (name : Text) : Bool :=
  !isRuntimeFilesToolResultShape fields || filesFields.contains name

/-- No artifact that is shown has another shape too, or is the login of a browser's result. -/
inductive Separate : Json → Prop
  | null : Separate .null
  | bool (value : Bool) : Separate (.bool value)
  | num (value : ℚ) : Separate (.num value)
  | str (value : Text) : Separate (.str value)
  | arr (items : List Json) (each : ∀ item ∈ items, Separate item) : Separate (.arr items)
  | obj (fields : Fields) (other : isRuntimeOutputArtifactShape fields = false)
      (login : isRuntimeBrowserToolResultShape fields → shouldAttachWebLoginDelivery fields →
        ∀ pending, pendingLogin fields = some pending →
          isRuntimeOutputArtifactShape pending = false)
      (each : ∀ entry ∈ fields, isPassedOn fields entry.1 → Separate entry.2) :
      Separate (.obj fields)
  | artifact (fields : Fields) (shape : isRuntimeOutputArtifactShape fields)
      (notFiles : isRuntimeFilesToolResultShape fields = false)
      (notBrowser : isRuntimeBrowserToolResultShape fields = false)
      (each : ∀ entry ∈ fields, isVisible entry.1 → Separate entry.2) : Separate (.obj fields)

/-! ## Values that agree -/

theorem AgreeVisible.asString {x y : Json} (agree : AgreeVisible x y) :
    asString x = asString y := by
  cases agree <;> rfl

theorem AgreeVisible.asNumber {x y : Json} (agree : AgreeVisible x y) :
    asNumber x = asNumber y := by
  cases agree <;> rfl

theorem forall₂_of_getElem {α : Type} {l m : List α} {R : α → α → Prop}
    (length : l.length = m.length)
    (each : ∀ (i : ℕ) x y, l[i]? = some x → m[i]? = some y → R x y) : List.Forall₂ R l m := by
  refine List.forall₂_iff_get.mpr ⟨length, fun i small small' => ?_⟩
  exact each i _ _ (List.getElem?_eq_getElem small) (List.getElem?_eq_getElem small')

theorem map_eq_of_getElem {α β : Type} {l m : List α} {f : α → β} (length : l.length = m.length)
    (each : ∀ (i : ℕ) x y, l[i]? = some x → m[i]? = some y → f x = f y) : l.map f = m.map f := by
  have related := forall₂_of_getElem (R := fun x y => f x = f y) length each
  rwa [← List.forall₂_eq_eq_eq, List.forall₂_map_left_iff, List.forall₂_map_right_iff]

/-- The same keys in the same order, with related values. -/
def RelatedFields (R : Text → Json → Json → Prop) (fields fields' : Fields) : Prop :=
  List.Forall₂ (fun a b => a.1 = b.1 ∧ R a.1 a.2 b.2) fields fields'

theorem relatedFields {fields fields' : Fields} {R : Text → Json → Json → Prop}
    (keys : fields.map Prod.fst = fields'.map Prod.fst)
    (each : ∀ (i : ℕ) x y, fields[i]? = some x → fields'[i]? = some y → R x.1 x.2 y.2) :
    RelatedFields R fields fields' := by
  have length : fields.length = fields'.length := by
    simpa only [List.length_map] using congrArg List.length keys
  refine forall₂_of_getElem length fun i x y first second => ⟨?_, each i x y first second⟩
  have key := congrArg (fun keys => keys[i]?) keys
  simp only [List.getElem?_map, first, second, Option.map_some, Option.some.injEq] at key
  exact key

theorem RelatedFields.field {fields fields' : Fields} {R : Text → Json → Json → Prop}
    (related : RelatedFields R fields fields') (name : String) :
    Option.Rel (R (ofString name)) (field name fields) (field name fields') := by
  unfold JsonValue.field
  induction related with
  | nil => exact .none
  | @cons a b fields fields' first rest ih =>
    rw [List.lookup_cons, List.lookup_cons, ← first.1]
    cases same : ofString name == a.1 with
    | true =>
      rw [eq_of_beq same]
      exact .some first.2
    | false => exact ih

theorem stringField_eq {fields fields' : Fields} {R : Text → Json → Json → Prop}
    (related : RelatedFields R fields fields') {name : String}
    (agree : ∀ x y, R (ofString name) x y → AgreeVisible x y) :
    stringField name fields = stringField name fields' := by
  have both := related.field name
  unfold stringField
  generalize field name fields = first, field name fields' = second at both ⊢
  cases both with
  | none => rfl
  | some both => exact (agree _ _ both).asString

/-! ## What is made of them -/

/-- Agreeing, and shown alike. -/
def Alike (x y : Json) : Prop := AgreeVisible x y ∧ modelFacing x = modelFacing y

section

variable {first second : Option Json} (agree : Option.Rel AgreeVisible first second)

include agree

theorem string_alike : first.bind asString = second.bind asString := by
  cases agree with
  | none => rfl
  | some both => exact both.asString

theorem number_alike : first.bind asNumber = second.bind asNumber := by
  cases agree with
  | none => rfl
  | some both => exact both.asNumber

theorem isNull_alike : isNull first = isNull second := by
  cases agree with
  | none => rfl
  | some both => cases both <;> rfl

theorem readNote_alike : readNote first = readNote second := by
  cases agree with
  | none => rfl
  | some both => cases both <;> rfl

theorem onlyTrue_alike : onlyTrue first = onlyTrue second := by
  cases agree with
  | none => rfl
  | some both => cases both <;> rfl

/-- The objects that are read from the values agree too. -/
theorem object_alike : Option.Rel (fun p q => AgreeVisible (.obj p) (.obj q))
    (first.bind JsonValue.asObject) (second.bind JsonValue.asObject) := by
  cases agree with
  | none => exact .none
  | some both =>
    cases both with
    | obj fields fields' keys each => exact .some (.obj fields fields' keys each)
    | artifact fields fields' shape shape' keys each =>
      exact .some (.artifact fields fields' shape shape' keys each)
    | _ => exact .none

end

section

variable {first second : Option Json} (alike : Option.Rel Alike first second)

include alike

theorem map_alike : first.map modelFacing = second.map modelFacing := by
  cases alike with
  | none => rfl
  | some both => exact congrArg some both.2

theorem item_alike :
    modelFacing (first.getD .null) = modelFacing (second.getD .null) := by
  cases alike with
  | none => rfl
  | some both => exact both.2

theorem items_alike : modelFacing (.arr ((first.bind asArray).getD [])) =
    modelFacing (.arr ((second.bind asArray).getD [])) := by
  cases alike with
  | none => rfl
  | some both =>
    obtain ⟨agree, shown⟩ := both
    cases agree with
    | arr => exact shown
    | _ => rfl

theorem orElse_alike (other : Json) :
    modelFacing (orElse first other) = modelFacing (orElse second other) := by
  cases alike with
  | none => rfl
  | some both =>
    obtain ⟨agree, shown⟩ := both
    cases agree with
    | null => rfl
    | _ => exact shown

end

/-- A field as the model sees it. -/
def shownField (entry : Text × Json) : Text × Json := (entry.1, modelFacing entry.2)

theorem map_optional (name : String) (value : Option Json) :
    (optional name value).map shownField = optional name (value.map modelFacing) := by
  cases value <;> rfl

theorem rel_of_imp {α : Type} {R S : α → α → Prop} (imp : ∀ a b, R a b → S a b)
    {first second : Option α} (related : Option.Rel R first second) :
    Option.Rel S first second := by
  cases related with
  | none => exact .none
  | some both => exact .some (imp _ _ both)

/-- Agreeing, and shown alike where the files tool passes the field on. -/
def FilesAlike (name : Text) (x y : Json) : Prop :=
  AgreeVisible x y ∧ (filesFields.contains name → modelFacing x = modelFacing y)

theorem sanitizeFiles_alike {fields fields' : Fields}
    (related : RelatedFields FilesAlike fields fields') :
    (sanitizeFilesToolResultForModel fields).map shownField =
      (sanitizeFilesToolResultForModel fields').map shownField := by
  have agree (name : String) : Option.Rel AgreeVisible (field name fields) (field name fields') :=
    rel_of_imp (fun _ _ both => both.1) (related.field name)
  have own (name : String) (kept : filesFields.contains (ofString name)) :
      Option.Rel Alike (field name fields) (field name fields') :=
    rel_of_imp (fun _ _ both => ⟨both.1, both.2 kept⟩) (related.field name)
  have text (name : String) : stringField name fields = stringField name fields' :=
    string_alike (agree name)
  have content : sanitizeFilesContentForModel (field "content" fields)
      ((field "charCount" fields).bind asNumber) =
        sanitizeFilesContentForModel (field "content" fields')
          ((field "charCount" fields').bind asNumber) := by
    unfold sanitizeFilesContentForModel
    rw [string_alike (agree "content"), number_alike (agree "charCount")]
  unfold sanitizeFilesToolResultForModel
  dsimp only
  rw [content, number_alike (agree "sizeBytes"), readNote_alike (agree "readNote"),
    onlyTrue_alike (agree "extractionCached")]
  simp only [List.map_append, List.map_cons, List.map_nil, map_optional, text,
    map_alike (own "executionMode" (by decide +kernel)),
    map_alike (own "requestedAction" (by decide +kernel)),
    map_alike (own "action" (by decide +kernel)), map_alike (own "reason" (by decide +kernel)),
    map_alike (own "warning" (by decide +kernel)),
    map_alike (own "extractionQuality" (by decide +kernel))]
  simp only [shownField, item_alike (own "item" (by decide +kernel)),
    items_alike (own "items" (by decide +kernel)),
    orElse_alike (own "queuedArtifacts" (by decide +kernel))]

section

variable {fields fields' : Fields} (related : RelatedFields (fun _ => Alike) fields fields')

include related

theorem agree_field (name : String) :
    Option.Rel AgreeVisible (field name fields) (field name fields') :=
  rel_of_imp (fun _ _ both => both.1) (related.field name)

theorem string_eq (name : String) : stringField name fields = stringField name fields' :=
  stringField_eq related fun _ _ both => both.1

theorem map_shownField : fields.map shownField = fields'.map shownField := by
  induction related with
  | nil => rfl
  | cons both rest ih =>
    rw [List.map_cons, List.map_cons, ih, shownField, shownField, both.1, both.2.2]

theorem pending_alike : Option.Rel (fun p q => AgreeVisible (.obj p) (.obj q))
    (pendingLogin fields) (pendingLogin fields') := by
  have first := object_alike (agree_field related "pendingBrowserLogin")
  have second := object_alike (agree_field related "login")
  unfold pendingLogin
  generalize (field "pendingBrowserLogin" fields).bind JsonValue.asObject = p,
    (field "pendingBrowserLogin" fields').bind JsonValue.asObject = q at first ⊢
  cases first with
  | none => exact second
  | some both => exact .some both

end

theorem map_assignField (name : Text) (value : Json) (fields : Fields) :
    (assignField name value fields).map shownField =
      assignField name (modelFacing value) (fields.map shownField) := by
  have keys : (fields.map shownField).map Prod.fst = fields.map Prod.fst := by
    rw [List.map_map]
    rfl
  unfold assignField
  rw [keys]
  split_ifs
  · rw [List.map_map, List.map_map]
    refine List.map_congr_left fun entry _ => ?_
    by_cases same : entry.1 = name <;>
      simp only [Function.comp_apply, shownField, same, if_true, if_false]
  · rw [List.map_append]
    rfl

/-- The texts of a login that is no artifact are the same. -/
theorem login_texts {p q : Fields} (agree : AgreeVisible (.obj p) (.obj q))
    (other : isRuntimeOutputArtifactShape p = false) (name : String) :
    stringField name p = stringField name q := by
  cases agree with
  | obj _ _ keys each =>
    exact stringField_eq (R := fun _ => AgreeVisible) (relatedFields keys each) fun _ _ both => both
  | artifact _ _ shape => rw [shape] at other; cases other

theorem webBrowserLogin_alike {fields fields' : Fields}
    (related : RelatedFields (fun _ => Alike) fields fields')
    (login : ∀ pending, pendingLogin fields = some pending →
      isRuntimeOutputArtifactShape pending = false) :
    webBrowserLogin fields = webBrowserLogin fields' := by
  have texts (name : String) : (pendingLogin fields).bind (stringField name) =
      (pendingLogin fields').bind (stringField name) := by
    have pending := pending_alike related
    generalize pendingLogin fields = p, pendingLogin fields' = q at pending login ⊢
    cases pending with
    | none => rfl
    | some both => exact login_texts both (login _ rfl) name
  unfold webBrowserLogin
  dsimp only
  rw [texts "displayName", texts "completionMode", string_eq related "displayName"]

theorem sanitizeBrowser_alike {fields fields' : Fields}
    (related : RelatedFields (fun _ => Alike) fields fields')
    (login : shouldAttachWebLoginDelivery fields → ∀ pending, pendingLogin fields = some pending →
      isRuntimeOutputArtifactShape pending = false) :
    (sanitizeBrowserToolResultForModel fields).map shownField =
      (sanitizeBrowserToolResultForModel fields').map shownField := by
  have attach : shouldAttachWebLoginDelivery fields = shouldAttachWebLoginDelivery fields' := by
    unfold shouldAttachWebLoginDelivery
    rw [string_eq related "action", string_eq related "requestedAction",
      isNull_alike (agree_field related "pendingBrowserLogin")]
  unfold sanitizeBrowserToolResultForModel
  rw [← attach]
  split_ifs with attached
  · rw [map_assignField, map_assignField, webBrowserLogin_alike related (login attached),
      map_shownField related]
  · exact map_shownField related

theorem visible_alike {fields fields' : Fields}
    (related : RelatedFields (fun name x y => isVisible name → modelFacing x = modelFacing y)
      fields fields') :
    (fields.filter fun entry => isVisible entry.1).map shownField =
      (fields'.filter fun entry => isVisible entry.1).map shownField := by
  induction related with
  | nil => rfl
  | @cons a b fields fields' both rest ih =>
    rw [List.filter_cons, List.filter_cons, ← both.1]
    split_ifs with visible
    · rw [List.map_cons, List.map_cons, ih, shownField, shownField, both.1, both.2 visible]
    · exact ih

theorem shape_alike {fields fields' : Fields} {R : Text → Json → Json → Prop}
    (related : RelatedFields R fields fields') (agree : ∀ name x y, R name x y → AgreeVisible x y) :
    isRuntimeOutputArtifactShape fields = isRuntimeOutputArtifactShape fields' ∧
      isRuntimeFilesToolResultShape fields = isRuntimeFilesToolResultShape fields' ∧
      isRuntimeBrowserToolResultShape fields = isRuntimeBrowserToolResultShape fields' := by
  have texts (name : String) : stringField name fields = stringField name fields' :=
    stringField_eq related (agree _)
  unfold isRuntimeOutputArtifactShape isRuntimeFilesToolResultShape isRuntimeBrowserToolResultShape
  rw [texts "artifactId", texts "kind", texts "toolCode", texts "executionMode"]
  exact ⟨rfl, rfl, rfl⟩

/-- An artifact that is nothing else is shown by its visible fields. -/
theorem artifact_alike {fields fields' : Fields}
    (shape : isRuntimeOutputArtifactShape fields) (shape' : isRuntimeOutputArtifactShape fields')
    (keys : fields.map Prod.fst = fields'.map Prod.fst)
    (each : ∀ (i : ℕ) x y, fields[i]? = some x → fields'[i]? = some y → isVisible x.1 →
      Separate x.2 → Separate y.2 → modelFacing x.2 = modelFacing y.2)
    (separate : Separate (.obj fields)) (separate' : Separate (.obj fields')) :
    modelFacing (.obj fields) = modelFacing (.obj fields') := by
  cases separate with
  | obj _ other => rw [shape] at other; cases other
  | artifact _ _ notFiles notBrowser visible =>
    cases separate' with
    | obj _ other => rw [shape'] at other; cases other
    | artifact _ _ notFiles' notBrowser' visible' =>
      have related : RelatedFields
          (fun name x y => isVisible name → modelFacing x = modelFacing y) fields fields' := by
        refine relatedFields keys fun i x y first second shown => ?_
        have key : x.1 = y.1 := by
          have same := congrArg (fun keys => keys[i]?) keys
          simp only [List.getElem?_map, first, second, Option.map_some, Option.some.injEq] at same
          exact same
        exact each i x y first second shown
          (visible x (List.mem_of_getElem? first) shown)
          (visible' y (List.mem_of_getElem? second) (key ▸ shown))
      rw [modelFacing_obj, modelFacing_obj, modelFacingReplacer, modelFacingReplacer, notFiles,
        notBrowser, notFiles', notBrowser', shape, shape']
      exact congrArg JsonValue.obj (visible_alike related)

theorem modelFacing_alike {value value' : Json} (agree : AgreeVisible value value')
    (separate : Separate value) (separate' : Separate value') :
    modelFacing value = modelFacing value' := by
  induction agree with
  | null | bool | num | str => rfl
  | arr items items' length each ih =>
    cases separate with
    | arr _ below =>
      cases separate' with
      | arr _ below' =>
        rw [modelFacing_arr, modelFacing_arr]
        refine congrArg JsonValue.arr (map_eq_of_getElem length fun i x y first second => ?_)
        exact ih i x y first second (below x (List.mem_of_getElem? first))
          (below' y (List.mem_of_getElem? second))
  | artifact fields fields' shape shape' keys each ih =>
    exact artifact_alike shape shape' keys ih separate separate'
  | obj fields fields' keys each ih =>
    obtain ⟨shapes, files, browser⟩ := shape_alike (R := fun _ => AgreeVisible)
      (relatedFields keys each) fun _ _ _ both => both
    cases separate with
    | artifact _ shape =>
      exact artifact_alike shape (shapes ▸ shape) keys
        (fun i x y first second _ => ih i x y first second)
        (.artifact _ shape ‹_› ‹_› ‹_›) separate'
    | obj _ other login below =>
      cases separate' with
      | artifact _ shape => rw [← shapes, other] at shape; cases shape
      | obj _ other' login' below' =>
        have related : RelatedFields
            (fun name x y => AgreeVisible x y ∧
              (isPassedOn fields name → modelFacing x = modelFacing y)) fields fields' := by
          refine relatedFields keys fun i x y first second =>
            ⟨each i x y first second, fun kept => ?_⟩
          have key := congrArg (fun keys => keys[i]?) keys
          simp only [List.getElem?_map, first, second, Option.map_some, Option.some.injEq] at key
          have kept' : isPassedOn fields' y.1 := by
            rwa [isPassedOn, ← files, ← key]
          exact ih i x y first second (below x (List.mem_of_getElem? first) kept)
            (below' y (List.mem_of_getElem? second) kept')
        rw [modelFacing_obj, modelFacing_obj]
        refine congrArg JsonValue.obj ?_
        unfold modelFacingReplacer
        rw [← files, ← browser, ← shapes, other]
        have all (notFiles : ¬ isRuntimeFilesToolResultShape fields) :
            RelatedFields (fun _ => Alike) fields fields' := by
          refine List.Forall₂.imp (fun a b both => ⟨both.1, both.2.1, both.2.2 ?_⟩) related
          have closed : isRuntimeFilesToolResultShape fields = false :=
            Bool.eq_false_iff.mpr notFiles
          rw [isPassedOn, closed]
          rfl
        split_ifs with isFiles isBrowser never
        · refine sanitizeFiles_alike
            (List.Forall₂.imp (fun a b both => ⟨both.1, both.2.1, ?_⟩) related)
          intro kept
          exact both.2.2 (by rw [isPassedOn, kept, Bool.or_true])
        · exact sanitizeBrowser_alike (all isFiles) (login isBrowser)
        · cases never
        · exact map_shownField (all isFiles)

/-- Results that differ in what the model is not to see are shown alike, where every artifact is
only that. -/
theorem stringify_hides (numberText : ℚ → Text) {payload payload' : Json}
    (agree : AgreeVisible payload payload') (separate : Separate payload)
    (separate' : Separate payload') :
    stringifyToolResultPayloadForModel numberText payload =
      stringifyToolResultPayloadForModel numberText payload' :=
  congrArg (JsonText.stringify numberText) (modelFacing_alike agree separate separate')

/-! ## An artifact that is taken for a result -/

namespace Sample

def artifactFields (path : String) (others : List (String × String)) : Fields :=
  ([("artifactId", "a1"), ("kind", "image"), ("path", path)] ++ others).map fun entry =>
    (ofString entry.1, .str (ofString entry.2))

theorem agree_artifact {path path' : String} {others : List (String × String)}
    (shape : isRuntimeOutputArtifactShape (artifactFields path others))
    (shape' : isRuntimeOutputArtifactShape (artifactFields path' others)) :
    AgreeVisible (.obj (artifactFields path others)) (.obj (artifactFields path' others)) := by
  refine .artifact _ _ shape shape' ?_ fun i x y first second visible => ?_
  · simp [artifactFields]
  · match i with
    | 0 | 1 =>
      obtain rfl := Option.some.inj first
      obtain rfl := Option.some.inj second
      exact .str _
    | 2 =>
      obtain rfl := Option.some.inj first
      dsimp only at visible
      exact absurd visible (by decide +kernel)
    | i + 3 =>
      obtain rfl : x = y := Option.some.inj (first.symm.trans second)
      obtain ⟨entry, -, rfl⟩ := List.mem_map.mp (List.mem_of_getElem? first)
      exact .str _

theorem separate_artifact {fields : Fields} (shape : isRuntimeOutputArtifactShape fields)
    (notFiles : isRuntimeFilesToolResultShape fields = false)
    (notBrowser : isRuntimeBrowserToolResultShape fields = false)
    (texts : ∀ entry ∈ fields, ∃ text, entry.2 = .str text) : Separate (.obj fields) := by
  refine .artifact _ shape notFiles notBrowser fun entry mem _ => ?_
  obtain ⟨text, same⟩ := texts entry mem
  exact same ▸ .str text

def numberText (_ : ℚ) : Text := ofString "0"

theorem path_hidden :
    stringifyToolResultPayloadForModel numberText
        (.arr [.obj (artifactFields "/a" [("caption", "c")])]) =
      stringifyToolResultPayloadForModel numberText
        (.arr [.obj (artifactFields "/b" [("caption", "c")])]) := by
  have separate (path : String) (shape) (notFiles) (notBrowser) :
      Separate (.arr [.obj (artifactFields path [("caption", "c")])]) :=
    .arr _ (List.forall_mem_singleton.mpr (separate_artifact shape notFiles notBrowser
      (by simp [artifactFields])))
  refine stringify_hides numberText (.arr _ _ rfl fun i x y first second => ?_)
    (separate "/a" (by decide +kernel) (by decide +kernel) (by decide +kernel))
    (separate "/b" (by decide +kernel) (by decide +kernel) (by decide +kernel))
  match i with
  | 0 =>
    obtain rfl := Option.some.inj first
    obtain rfl := Option.some.inj second
    exact agree_artifact (by decide +kernel) (by decide +kernel)
  | i + 1 => cases first

/-- With the two fields that tell the result of the files tool, the path of an artifact shows. -/
theorem path_shown :
    let mixed (path : String) : Json :=
      .obj (artifactFields path [("toolCode", "files"), ("executionMode", "inline")])
    AgreeVisible (mixed "/a") (mixed "/b") ∧
      stringifyToolResultPayloadForModel numberText (mixed "/a") ≠
        stringifyToolResultPayloadForModel numberText (mixed "/b") :=
  ⟨agree_artifact (by decide +kernel) (by decide +kernel), by decide +kernel⟩

end Sample

end Persai.ToolResult
