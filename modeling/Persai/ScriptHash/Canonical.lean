import Persai.JsonText
import Persai.SortedFields

/-!
# Canonical JSON

`canonicalizeJsonForHash` writes a value with the keys of its objects sorted. It is `stringify` of
the value whose keys are sorted, which two values share when they differ in the order of keys only.
-/

namespace Persai.ScriptHash

open CodeUnits (Text ofString)
open JsonText SortedFields

variable {ν : Type}

section

variable (numberText : ν → Text)

mutual

/-- The keys are sorted after the values have been written, which makes no difference. -/
def canonicalizeJsonForHash : JsonValue ν → Text
  | .arr items => 91 :: (List.intercalate [44] (canonicalizeItems items) ++ [93])
  | .obj fields =>
    123 :: (List.intercalate [44] ((sortByKey (canonicalizeFields fields)).map fun field =>
      quote field.1 ++ 58 :: field.2) ++ [125])
  | value => stringify numberText value

def canonicalizeItems : List (JsonValue ν) → List Text
  | [] => []
  | item :: items => canonicalizeJsonForHash item :: canonicalizeItems items

def canonicalizeFields : List (Text × JsonValue ν) → List (Text × Text)
  | [] => []
  | (key, value) :: fields => (key, canonicalizeJsonForHash value) :: canonicalizeFields fields

end

end

/-! ## Sorted keys -/

mutual

/-- The value with the keys of all its objects in order. -/
def sortKeys : JsonValue ν → JsonValue ν
  | .arr items => .arr (sortItems items)
  | .obj fields => .obj (sortByKey (sortFields fields))
  | value => value

def sortItems : List (JsonValue ν) → List (JsonValue ν)
  | [] => []
  | item :: items => sortKeys item :: sortItems items

def sortFields : List (Text × JsonValue ν) → List (Text × JsonValue ν)
  | [] => []
  | (key, value) :: fields => (key, sortKeys value) :: sortFields fields

end

theorem sortItems_eq (items : List (JsonValue ν)) : sortItems items = items.map sortKeys := by
  induction items with
  | nil => rw [sortItems, List.map_nil]
  | cons item items ih => rw [sortItems, List.map_cons, ih]

theorem sortFields_eq (fields : List (Text × JsonValue ν)) :
    sortFields fields = fields.map (Prod.map id sortKeys) := by
  induction fields with
  | nil => rw [sortFields, List.map_nil]
  | cons field fields ih => rw [sortFields, List.map_cons, ih]; rfl

/-! ## The canonical text -/

variable {numberText : ν → Text}

theorem stringifyItems_eq (items : List (JsonValue ν)) : stringifyItems numberText items =
    List.intercalate [44] (items.map (stringify numberText)) ++ [93] := by
  induction items with
  | nil => rfl
  | cons item items ih =>
    cases items with
    | nil => simp [stringifyItems, List.intercalate]
    | cons next items =>
      rw [stringifyItems, ih]
      simp [List.intercalate]

theorem stringifyFields_eq (fields : List (Text × JsonValue ν)) :
    stringifyFields numberText fields = List.intercalate [44] (fields.map fun field =>
      quote field.1 ++ 58 :: stringify numberText field.2) ++ [125] := by
  induction fields with
  | nil => rfl
  | cons field fields ih =>
    obtain ⟨key, value⟩ := field
    cases fields with
    | nil => simp [stringifyFields, List.intercalate]
    | cons next fields =>
      rw [stringifyFields, ih]
      simp [List.intercalate]

mutual

theorem canonicalizeJsonForHash_eq (value : JsonValue ν) :
    canonicalizeJsonForHash numberText value = stringify numberText (sortKeys value) := by
  match value with
  | .null | .bool _ | .num _ | .str _ => rfl
  | .arr items =>
    rw [canonicalizeJsonForHash, sortKeys, stringify, stringifyItems_eq, canonicalizeItems_eq]
  | .obj fields =>
    rw [canonicalizeJsonForHash, sortKeys, stringify, stringifyFields_eq, canonicalizeFields_eq,
      ← sortByKey_map, List.map_map]
    rfl

theorem canonicalizeItems_eq (items : List (JsonValue ν)) : canonicalizeItems numberText items =
    (sortItems items).map (stringify numberText) := by
  match items with
  | [] => rfl
  | item :: items =>
    rw [canonicalizeItems, sortItems, List.map_cons, canonicalizeJsonForHash_eq item,
      canonicalizeItems_eq items]

theorem canonicalizeFields_eq (fields : List (Text × JsonValue ν)) :
    canonicalizeFields numberText fields =
      (sortFields fields).map (Prod.map id (stringify numberText)) := by
  match fields with
  | [] => rfl
  | (key, value) :: fields =>
    rw [canonicalizeFields, sortFields, List.map_cons, canonicalizeJsonForHash_eq value,
      canonicalizeFields_eq fields]
    rfl

end

/-! ## The same value -/

theorem sortKeys_distinct {value : JsonValue ν} (distinct : value.Distinct) :
    (sortKeys value).Distinct := by
  induction distinct with
  | null => exact .null
  | bool value => exact .bool value
  | num value => exact .num value
  | str value => exact .str value
  | arr items _ ih =>
    rw [sortKeys, sortItems_eq]
    refine .arr _ fun item member => ?_
    obtain ⟨other, there, rfl⟩ := List.mem_map.mp member
    exact ih other there
  | obj fields keys _ ih =>
    rw [sortKeys, sortFields_eq]
    refine .obj _ ?_ fun field member => ?_
    · rw [((perm_sortByKey _).map Prod.fst).nodup_iff, List.map_map]
      exact keys
    · obtain ⟨other, there, rfl⟩ := List.mem_map.mp ((perm_sortByKey _).mem_iff.mp member)
      exact ih other there

theorem lookup_sortFields (fields : List (Text × JsonValue ν)) (key : Text) :
    (sortFields fields).lookup key = (fields.lookup key).map sortKeys := by
  induction fields with
  | nil => rfl
  | cons field fields ih =>
    obtain ⟨other, value⟩ := field
    rw [sortFields, List.lookup_cons, List.lookup_cons, ih]
    split <;> rfl

theorem keys_sortFields (fields : List (Text × JsonValue ν)) :
    (sortFields fields).map Prod.fst = fields.map Prod.fst := by
  rw [sortFields_eq, List.map_map]
  rfl

/-- Two arrays with the same items one by one. -/
theorem sortItems_eq_iff {items items' : List (JsonValue ν)} : sortItems items = sortItems items' ↔
    items.length = items'.length ∧ ∀ (i : ℕ) x y, items[i]? = some x → items'[i]? = some y →
      sortKeys x = sortKeys y := by
  rw [sortItems_eq, sortItems_eq]
  constructor
  · intro same
    refine ⟨by simpa using congrArg List.length same, fun i x y here there => ?_⟩
    have at_i := congrArg (fun items => items[i]?) same
    simpa [here, there] using at_i
  · rintro ⟨length, each⟩
    refine List.ext_getElem? fun i => ?_
    rw [List.getElem?_map, List.getElem?_map]
    by_cases inside : i < items.length
    · have inside' : i < items'.length := by omega
      rw [List.getElem?_eq_getElem inside, List.getElem?_eq_getElem inside', Option.map_some,
        Option.map_some, each i _ _ (List.getElem?_eq_getElem inside)
          (List.getElem?_eq_getElem inside')]
    · rw [List.getElem?_eq_none (by omega), List.getElem?_eq_none (by omega)]

/-- Two objects with the same fields under each key. -/
theorem sortFields_eq_iff {fields fields' : List (Text × JsonValue ν)}
    (keys : (fields.map Prod.fst).Nodup) (keys' : (fields'.map Prod.fst).Nodup) :
    sortByKey (sortFields fields) = sortByKey (sortFields fields') ↔
      (∀ key, (fields.lookup key).isSome ↔ (fields'.lookup key).isSome) ∧
        ∀ key x y, fields.lookup key = some x → fields'.lookup key = some y →
          sortKeys x = sortKeys y := by
  rw [sortByKey_eq_iff (keys_sortFields fields ▸ keys) (keys_sortFields fields' ▸ keys')]
  simp only [lookup_sortFields, ← forall_and]
  refine forall_congr' fun key => ?_
  cases fields.lookup key <;> cases fields'.lookup key <;> simp

/-- Values are the same exactly when they are equal with their keys in order. -/
theorem same_iff {value other : JsonValue ν} (distinct : value.Distinct)
    (distinct' : other.Distinct) : value.Same other ↔ sortKeys value = sortKeys other := by
  induction distinct generalizing other with
  | null | bool | num | str =>
    constructor
    · intro same
      cases same
      rfl
    · intro same
      cases other <;> simp only [sortKeys, reduceCtorEq, JsonValue.bool.injEq,
        JsonValue.num.injEq, JsonValue.str.injEq] at same
      first | exact .null | exact same ▸ .bool _ | exact same ▸ .num _ | exact same ▸ .str _
  | arr items each ih =>
    cases distinct' with
    | null | bool | num | str | obj =>
      refine iff_of_false (fun same => by cases same) fun same => ?_
      simp only [sortKeys, reduceCtorEq] at same
    | arr items' each' =>
      rw [sortKeys, sortKeys, JsonValue.arr.injEq, sortItems_eq_iff]
      constructor
      · rintro (_ | _ | _ | _ | ⟨_, _, length, same⟩ | _)
        exact ⟨length, fun i x y here there => (ih x (List.mem_of_getElem? here)
          (each' y (List.mem_of_getElem? there))).mp (same i x y here there)⟩
      · rintro ⟨length, same⟩
        exact .arr _ _ length fun i x y here there => (ih x (List.mem_of_getElem? here)
          (each' y (List.mem_of_getElem? there))).mpr (same i x y here there)
  | obj fields keys each ih =>
    cases distinct' with
    | null | bool | num | str | arr =>
      refine iff_of_false (fun same => by cases same) fun same => ?_
      simp only [sortKeys, reduceCtorEq] at same
    | obj fields' keys' each' =>
      rw [sortKeys, sortKeys, JsonValue.obj.injEq, sortFields_eq_iff keys keys']
      have values (key : Text) (x y : JsonValue ν) (here : fields.lookup key = some x)
          (there : fields'.lookup key = some y) : x.Same y ↔ sortKeys x = sortKeys y :=
        ih (key, x) ((lookup_eq_some_iff keys).mp here)
          (each' (key, y) ((lookup_eq_some_iff keys').mp there))
      constructor
      · rintro (_ | _ | _ | _ | _ | ⟨_, _, present, same⟩)
        exact ⟨present, fun key x y here there =>
          (values key x y here there).mp (same key x y here there)⟩
      · rintro ⟨present, same⟩
        exact .obj _ _ present fun key x y here there =>
          (values key x y here there).mpr (same key x y here there)

theorem sortKeys_sortKeys {value : JsonValue ν} (distinct : value.Distinct) :
    sortKeys (sortKeys value) = sortKeys value := by
  induction distinct with
  | null | bool | num | str => rfl
  | arr items _ ih =>
    rw [sortKeys, sortKeys, sortItems_eq, sortItems_eq, List.map_map]
    exact congrArg JsonValue.arr (List.map_congr_left ih)
  | obj fields _ _ ih =>
    have again : (sortFields fields).map (Prod.map id sortKeys) = sortFields fields := by
      rw [sortFields_eq, List.map_map]
      exact List.map_congr_left fun field member => Prod.ext rfl (ih field member)
    rw [sortKeys, sortKeys, sortFields_eq (sortByKey _), sortByKey_map, again,
      sortByKey_sortByKey]

/-- A value is the same with its keys in order. -/
theorem same_sortKeys {value : JsonValue ν} (distinct : value.Distinct) :
    value.Same (sortKeys value) :=
  (same_iff distinct (sortKeys_distinct distinct)).mpr (sortKeys_sortKeys distinct).symm

variable {numberOf : Text → Option ν}

theorem parse_canonical (numbers : Numbers numberText numberOf) {value : JsonValue ν}
    (distinct : value.Distinct) :
    parse numberOf (canonicalizeJsonForHash numberText value) = some (sortKeys value) := by
  rw [canonicalizeJsonForHash_eq]
  exact parse_stringify numbers (sortKeys_distinct distinct)

theorem canonical_eq_iff (numbers : Numbers numberText numberOf) {value other : JsonValue ν}
    (distinct : value.Distinct) (distinct' : other.Distinct) :
    canonicalizeJsonForHash numberText value = canonicalizeJsonForHash numberText other ↔
      value.Same other := by
  rw [same_iff distinct distinct']
  constructor
  · intro same
    have read := parse_canonical numbers distinct
    rw [same, parse_canonical numbers distinct', Option.some.injEq] at read
    exact read.symm
  · intro same
    rw [canonicalizeJsonForHash_eq, canonicalizeJsonForHash_eq, same]

/-- The canonical text is read back as the value it was made of, which gives the same text. -/
theorem canonical_reads (numbers : Numbers numberText numberOf) {value : JsonValue ν}
    (distinct : value.Distinct) :
    ∃ read, parse numberOf (canonicalizeJsonForHash numberText value) = some read ∧
      value.Same read ∧
      canonicalizeJsonForHash numberText read = canonicalizeJsonForHash numberText value := by
  refine ⟨sortKeys value, parse_canonical numbers distinct, same_sortKeys distinct, ?_⟩
  rw [canonicalizeJsonForHash_eq, canonicalizeJsonForHash_eq, sortKeys_sortKeys distinct]

/-! ## The hashes -/

/-- What the content hash of a version is made of. -/
structure SandboxScriptVersionArtifact (ν : Type) where
  code : Text
  manifest : JsonValue ν
  inputSchema : JsonValue ν
  outputSchema : JsonValue ν
  runtime : Text
  entryCommand : Text
  limits : JsonValue ν

namespace SandboxScriptVersionArtifact

variable (artifact other : SandboxScriptVersionArtifact ν)

def Distinct : Prop :=
  artifact.manifest.Distinct ∧ artifact.inputSchema.Distinct ∧ artifact.outputSchema.Distinct ∧
    artifact.limits.Distinct

def Same : Prop :=
  artifact.code = other.code ∧ artifact.manifest.Same other.manifest ∧
    artifact.inputSchema.Same other.inputSchema ∧ artifact.outputSchema.Same other.outputSchema ∧
    artifact.runtime = other.runtime ∧ artifact.entryCommand = other.entryCommand ∧
    artifact.limits.Same other.limits

def hashed : JsonValue ν :=
  .obj [(ofString "code", .str artifact.code), (ofString "manifest", artifact.manifest),
    (ofString "inputSchema", artifact.inputSchema),
    (ofString "outputSchema", artifact.outputSchema), (ofString "runtime", .str artifact.runtime),
    (ofString "entryCommand", .str artifact.entryCommand), (ofString "limits", artifact.limits)]

end SandboxScriptVersionArtifact

section

variable (sha256 : Text → Text) (numberText : ν → Text)

def computeScriptInputHash (input : JsonValue ν) : Text :=
  sha256 (canonicalizeJsonForHash numberText input)

def computeScriptExecutableContentHash (artifact : SandboxScriptVersionArtifact ν) : Text :=
  sha256 (canonicalizeJsonForHash numberText artifact.hashed)

end

theorem hashed_distinct {artifact : SandboxScriptVersionArtifact ν}
    (distinct : artifact.Distinct) : artifact.hashed.Distinct := by
  obtain ⟨manifest, inputSchema, outputSchema, limits⟩ := distinct
  refine .obj _ (by simp only [List.map_cons, List.map_nil]; decide) fun field member => ?_
  simp only [List.mem_cons, List.not_mem_nil, or_false] at member
  obtain rfl | rfl | rfl | rfl | rfl | rfl | rfl := member
  · exact .str _
  · exact manifest
  · exact inputSchema
  · exact outputSchema
  · exact .str _
  · exact .str _
  · exact limits

theorem eq_of_same_str {text other : Text}
    (same : (JsonValue.str text : JsonValue ν).Same (.str other)) : text = other := by
  cases same
  rfl

theorem same_of_hashed {artifact other : SandboxScriptVersionArtifact ν}
    (same : artifact.hashed.Same other.hashed) : artifact.Same other := by
  cases same with
  | obj _ _ _ each =>
    refine ⟨?_, each (ofString "manifest") _ _ rfl rfl, each (ofString "inputSchema") _ _ rfl rfl,
      each (ofString "outputSchema") _ _ rfl rfl, ?_, ?_, each (ofString "limits") _ _ rfl rfl⟩
    · exact eq_of_same_str (each (ofString "code") _ _ rfl rfl)
    · exact eq_of_same_str (each (ofString "runtime") _ _ rfl rfl)
    · exact eq_of_same_str (each (ofString "entryCommand") _ _ rfl rfl)

/-- The canonical text of a value is that of another exactly when the two are the same up to the
order of keys, it is read as the value, and hashes without collisions tell values apart. -/
theorem canonical_identifies {sha256 : Text → Text} (collisionFree : Function.Injective sha256)
    (numbers : Numbers numberText numberOf) :
    (∀ value other : JsonValue ν, value.Distinct → other.Distinct →
        (canonicalizeJsonForHash numberText value = canonicalizeJsonForHash numberText other ↔
          value.Same other) ∧
        (computeScriptInputHash sha256 numberText value =
            computeScriptInputHash sha256 numberText other → value.Same other) ∧
        ∃ read, parse numberOf (canonicalizeJsonForHash numberText value) = some read ∧
          value.Same read) ∧
      ∀ artifact other : SandboxScriptVersionArtifact ν, artifact.Distinct → other.Distinct →
        computeScriptExecutableContentHash sha256 numberText artifact =
          computeScriptExecutableContentHash sha256 numberText other → artifact.Same other := by
  constructor
  · intro value other distinct distinct'
    have texts := canonical_eq_iff numbers distinct distinct'
    exact ⟨texts, fun same => texts.mp (collisionFree same), sortKeys value,
      parse_canonical numbers distinct, same_sortKeys distinct⟩
  · intro artifact other distinct distinct' same
    exact same_of_hashed ((canonical_eq_iff numbers (hashed_distinct distinct)
      (hashed_distinct distinct')).mp (collisionFree same))

namespace Sample

def digitText (digit : Fin 10) : Text := [UInt16.ofNat (48 + digit)]

def digitOf : Text → Option (Fin 10)
  | [u] => (List.finRange 10).find? fun digit => digitText digit == [u]
  | _ => none

theorem digits : Numbers digitText digitOf where
  nonempty _ := List.cons_ne_nil _ _
  units digit u mem := by
    have each : ((List.finRange 10).all fun d => (digitText d).all isNumberUnit) = true := by rfl
    have units := List.all_eq_true.mp each digit (List.mem_finRange digit)
    exact List.all_eq_true.mp units u mem
  read := by decide +kernel

def value : JsonValue (Fin 10) :=
  .obj [(ofString "b", .null), (ofString "a", .arr [.num 1, .str (ofString "x")])]

/-- The same value with its keys the other way round. -/
def reordered : JsonValue (Fin 10) :=
  .obj [(ofString "a", .arr [.num 1, .str (ofString "x")]), (ofString "b", .null)]

def text : Text := ofString "\x7b\"a\":[1,\"x\"],\"b\":null\x7d"

/-- The digest of that text is the true one. -/
def sha256 (hashed : Text) : Text :=
  if hashed = text then
    ofString "854ef06dc57f5dfed10206344ab2d02e0b6c84b0e19436703a5afd0f1f9f2687"
  else 33 :: hashed

theorem sha256_injective : Function.Injective sha256 := by
  intro a b same
  unfold sha256 at same
  split_ifs at same with first second second
  · rw [first, second]
  · exact absurd (congrArg List.head? same) (by simp; decide)
  · exact absurd (congrArg List.head? same) (by simp; decide)
  · exact List.tail_eq_of_cons_eq same

theorem distinct : value.Distinct ∧ reordered.Distinct := by
  have list : (JsonValue.arr [.num 1, .str (ofString "x")] : JsonValue (Fin 10)).Distinct := by
    refine .arr _ fun item member => ?_
    obtain rfl | rfl := by simpa using member
    · exact .num _
    · exact .str _
  constructor
  · refine .obj _ (by decide) fun field member => ?_
    obtain rfl | rfl := by simpa using member
    · exact .null
    · exact list
  · refine .obj _ (by decide) fun field member => ?_
    obtain rfl | rfl := by simpa using member
    · exact list
    · exact .null

end Sample

theorem canonical_identifies_reordered :
    canonicalizeJsonForHash Sample.digitText Sample.value = Sample.text ∧
      Sample.value.Same Sample.reordered :=
  ⟨by decide +kernel, ((canonical_identifies Sample.sha256_injective Sample.digits).1 _ _
    Sample.distinct.1 Sample.distinct.2).2.1 (by decide +kernel)⟩

theorem canonical_reads_sample :
    ∃ read, parse Sample.digitOf (canonicalizeJsonForHash Sample.digitText Sample.value) =
      some read ∧ Sample.value.Same read ∧
      canonicalizeJsonForHash Sample.digitText read =
        canonicalizeJsonForHash Sample.digitText Sample.value :=
  canonical_reads Sample.digits Sample.distinct.1

end Persai.ScriptHash
