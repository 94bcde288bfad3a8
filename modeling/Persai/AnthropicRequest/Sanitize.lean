import Persai.JsonSchema

/-!
# The schemas of structured outputs

`sanitizeAnthropicStructuredOutputSchema` takes the keywords out of a schema that the provider does
not accept.

* `lookup_sanitize`: what it leaves of a key;
* `sameDeclarations_iff`: when the schema declares the same properties as before;
* `valid_sanitize`: when what was valid stays so;
* `schema_relaxed`, `pattern_lost`: both, and a property that goes missing.
-/

namespace Persai.AnthropicRequest

open JsonSchema

/-- The keywords that are skipped whatever their entry. -/
def skipped : List String :=
  ["minimum", "maximum", "exclusiveMinimum", "exclusiveMaximum", "multipleOf", "minLength",
   "maxLength", "pattern", "maxItems", "uniqueItems", "minProperties", "maxProperties"]

def isZeroOrOne : Json → Bool
  | .num n => n = 0 || n = 1
  | _ => false

/-- The keys that the copy does not have: to assign `__proto__` sets no key either. -/
def lost (key : String) (entry : Json) : Bool :=
  key ∈ skipped || (key = "minItems" && !isZeroOrOne entry) || key = "__proto__"

mutual

/-- `sanitizeAnthropicStructuredOutputSchema`. -/
def sanitize : Json → Json
  | .arr items => .arr (sanitizeAll items)
  | .obj fields => .obj (sanitizeFields fields)
  | .null => .null
  | .bool value => .bool value
  | .num value => .num value
  | .str value => .str value

def sanitizeAll : List Json → List Json
  | [] => []
  | item :: rest => sanitize item :: sanitizeAll rest

def sanitizeFields : List (String × Json) → List (String × Json)
  | [] => []
  | (key, entry) :: rest =>
    if lost key entry then sanitizeFields rest
    else (key, sanitize entry) :: sanitizeFields rest

end

mutual

/-- No object within a value has a key that gets lost. -/
def clean : Json → Bool
  | .arr items => cleanAll items
  | .obj fields => cleanFields fields
  | _ => true

def cleanAll : List Json → Bool
  | [] => true
  | item :: rest => clean item && cleanAll rest

def cleanFields : List (String × Json) → Bool
  | [] => true
  | (key, entry) :: rest => !lost key entry && clean entry && cleanFields rest

end

/-- No object level declares a property with a name that gets lost. -/
def NamesKept (schema : Json) : Prop :=
  ∀ path level, subAt schema path = some (.obj level) →
    ∀ e ∈ properties level, lost e.1 e.2 = false

/-- No member of an `enum` has a key that gets lost. -/
def EnumsKept (schema : Json) : Prop :=
  ∀ path level members, subAt schema path = some (.obj level) →
    level.lookup "enum" = some (.arr members) → ∀ m ∈ members, clean m

/-! ## What is left -/

theorem sanitizeAll_eq (items : List Json) : sanitizeAll items = items.map sanitize := by
  induction items with
  | nil => rfl
  | cons item items ih => rw [sanitizeAll, ih, List.map_cons]

theorem sanitizeFields_eq (fields : List (String × Json)) :
    sanitizeFields fields =
      (fields.filter fun e => !lost e.1 e.2).map fun e => (e.1, sanitize e.2) := by
  induction fields with
  | nil => rfl
  | cons e fields ih =>
    obtain ⟨key, entry⟩ := e
    rw [sanitizeFields, ih]
    cases gone : lost key entry <;> simp [gone]

/-- A key that is never lost keeps its entry, which is sanitised in turn. -/
theorem lookup_sanitize {fields : List (String × Json)} {key : String}
    (kept : ∀ entry, lost key entry = false) :
    (sanitizeFields fields).lookup key = (fields.lookup key).map sanitize := by
  induction fields with
  | nil => rfl
  | cons e fields ih =>
    obtain ⟨key', entry⟩ := e
    rw [sanitizeFields, List.lookup_cons]
    by_cases same : key = key'
    · subst same
      rw [kept, if_neg Bool.false_ne_true, List.lookup_cons]
      simp
    · have other : (key == key') = false := by simpa using same
      rw [other]
      split
      · exact ih
      · rw [List.lookup_cons, other]
        exact ih

/-- A limit that is left was there before: it is a `minItems` of zero or one. -/
theorem mem_limit {fields : List (String × Json)} {key : String} {entry : Json}
    (limit : key ∈ "minItems" :: skipped) (found : (key, entry) ∈ sanitizeFields fields) :
    (key, entry) ∈ fields := by
  rw [sanitizeFields_eq, List.mem_map] at found
  obtain ⟨⟨key', entry'⟩, member, eq⟩ := found
  obtain ⟨rfl, rfl⟩ := Prod.mk.inj eq
  obtain ⟨member, kept⟩ := List.mem_filter.mp member
  rw [Bool.not_eq_true'] at kept
  unfold lost at kept
  rw [Bool.or_eq_false_iff, Bool.or_eq_false_iff] at kept
  obtain ⟨⟨notSkipped, bounded⟩, -⟩ := kept
  rcases List.mem_cons.mp limit with rfl | limit
  · cases entry' with
    | num n => rwa [sanitize]
    | _ => simp [isZeroOrOne] at bounded
  · exact absurd limit (by simpa using notSkipped)

theorem sanitize_eq_str {value : Json} {s : String} (eq : sanitize value = .str s) :
    value = .str s := by
  cases value <;> simp_all [sanitize]

theorem elements_sanitize (value : Json) :
    (sanitize value).elements = value.elements.map sanitize := by
  cases value <;> simp [sanitize, Json.elements, sanitizeAll_eq]

/-- A string of a list that is left was there before. -/
theorem str_mem_elements {value : Json} {s : String} :
    .str s ∈ (sanitize value).elements ↔ .str s ∈ value.elements := by
  rw [elements_sanitize, List.mem_map]
  constructor
  · rintro ⟨x, member, eq⟩
    rwa [← sanitize_eq_str eq]
  · exact fun member => ⟨_, member, by rw [sanitize]⟩

mutual

theorem sanitize_of_clean : ∀ value : Json, clean value → sanitize value = value
  | .arr items, clean => by
    rw [sanitize, sanitizeAll_of_clean items clean]
  | .obj fields, clean => by
    rw [sanitize, sanitizeFields_of_clean fields clean]
  | .null, _ | .bool _, _ | .num _, _ | .str _, _ => by rw [sanitize]

theorem sanitizeAll_of_clean : ∀ items : List Json, cleanAll items → sanitizeAll items = items
  | [], _ => rfl
  | item :: rest, clean => by
    rw [cleanAll, Bool.and_eq_true] at clean
    rw [sanitizeAll, sanitize_of_clean item clean.1, sanitizeAll_of_clean rest clean.2]

theorem sanitizeFields_of_clean : ∀ fields : List (String × Json), cleanFields fields →
    sanitizeFields fields = fields
  | [], _ => rfl
  | (key, entry) :: rest, clean => by
    rw [cleanFields, Bool.and_eq_true, Bool.and_eq_true, Bool.not_eq_true'] at clean
    rw [sanitizeFields, clean.1.1, if_neg Bool.false_ne_true, sanitize_of_clean entry clean.1.2,
      sanitizeFields_of_clean rest clean.2]

end

/-! ## The declared properties -/

variable {fields : List (String × Json)} {schema : Json}

theorem kept_of_notMem {key : String} (notSkipped : key ∉ "__proto__" :: "minItems" :: skipped)
    (entry : Json) : lost key entry = false := by
  simp only [List.mem_cons, not_or] at notSkipped
  simp [lost, notSkipped]

theorem properties_sanitize (fields : List (String × Json)) :
    properties (sanitizeFields fields) = sanitizeFields (properties fields) := by
  unfold properties
  rw [lookup_sanitize (kept_of_notMem (by decide))]
  cases fields.lookup "properties" with
  | none => rfl
  | some entry => cases entry <;> simp [sanitize, sanitizeFields]

/-- Where nothing is lost, only the entries change. -/
theorem sanitizeFields_of_kept (kept : ∀ e ∈ fields, lost e.1 e.2 = false) :
    sanitizeFields fields = fields.map fun e => (e.1, sanitize e.2) := by
  rw [sanitizeFields_eq, List.filter_eq_self.mpr fun e member => by simp [kept e member]]

theorem declared_sanitize_iff : declared (sanitizeFields fields) = declared fields ↔
    ∀ e ∈ properties fields, lost e.1 e.2 = false := by
  rw [declared, declared, properties_sanitize]
  constructor
  · intro same
    have length := congrArg List.length same
    rw [sanitizeFields_eq, List.length_map, List.length_map, List.length_map,
      List.length_filter_eq_length_iff] at length
    exact fun e member => by simpa using length e member
  · intro kept
    rw [sanitizeFields_of_kept kept, List.map_map]
    rfl

theorem lookup_map_sanitize (name : String) :
    (fields.map fun e => (e.1, sanitize e.2)).lookup name = (fields.lookup name).map sanitize := by
  induction fields with
  | nil => rfl
  | cons e fields ih =>
    rw [List.map_cons, List.lookup_cons, List.lookup_cons]
    split
    · rfl
    · exact ih

theorem lookup_properties_sanitize (kept : ∀ e ∈ properties fields, lost e.1 e.2 = false)
    (name : String) : (properties (sanitizeFields fields)).lookup name =
      ((properties fields).lookup name).map sanitize := by
  rw [properties_sanitize, sanitizeFields_of_kept kept, lookup_map_sanitize]

theorem lookup_anyOf_sanitize {subs : List Json}
    (found : (sanitizeFields fields).lookup "anyOf" = some (.arr subs)) :
    ∃ given, fields.lookup "anyOf" = some (.arr given) ∧ subs = given.map sanitize := by
  rw [lookup_sanitize (kept_of_notMem (by decide)), Option.map_eq_some_iff] at found
  obtain ⟨entry, found, eq⟩ := found
  cases entry with
  | arr given =>
    rw [sanitize, sanitizeAll_eq] at eq
    cases eq
    exact ⟨given, found, rfl⟩
  | _ => simp [sanitize] at eq

/-- A step goes to the schema that was there, sanitised. -/
theorem sub_sanitize (kept : ∀ e ∈ properties fields, lost e.1 e.2 = false) (step : Step) :
    sub (.obj (sanitizeFields fields)) step = (sub (.obj fields) step).map sanitize := by
  cases step with
  | property name => exact lookup_properties_sanitize kept name
  | additionalProperties => exact lookup_sanitize (kept_of_notMem (by decide))
  | items => exact lookup_sanitize (kept_of_notMem (by decide))
  | anyOf index =>
    simp only [sub]
    rw [lookup_sanitize (kept_of_notMem (by decide))]
    cases fields.lookup "anyOf" with
    | none => rfl
    | some entry => cases entry <;> simp [sanitize, sanitizeAll_eq]

theorem NamesKept.here (kept : NamesKept (.obj fields)) :
    ∀ e ∈ properties fields, lost e.1 e.2 = false := kept [] fields rfl

theorem subAt_cons {step : Step} {inner : Json} (found : sub schema step = some inner)
    (path : List Step) : subAt schema (step :: path) = subAt inner path := by
  rw [subAt, found, Option.bind_some]

theorem NamesKept.below (kept : NamesKept schema) {step : Step} {inner : Json}
    (found : sub schema step = some inner) : NamesKept inner :=
  fun path level at_ => kept (step :: path) level (by rw [subAt_cons found, at_])

theorem EnumsKept.below (kept : EnumsKept schema) {step : Step} {inner : Json}
    (found : sub schema step = some inner) : EnumsKept inner :=
  fun path level members at_ =>
    kept (step :: path) level members (by rw [subAt_cons found, at_])

theorem subAt_sanitize (kept : NamesKept schema) (path : List Step) :
    subAt (sanitize schema) path = (subAt schema path).map sanitize := by
  induction path generalizing schema with
  | nil => rfl
  | cons step path ih =>
    have steps : sub (sanitize schema) step = (sub schema step).map sanitize := by
      cases schema with
      | obj fields =>
        rw [sanitize]
        exact sub_sanitize kept.here step
      | _ => simp [sanitize, sub]
    rw [subAt, subAt, steps]
    cases found : sub schema step with
    | none => rfl
    | some inner => exact ih (kept.below found)

/-- The schema declares what it declared exactly if no name is lost. -/
theorem sameDeclarations_iff (schema : Json) :
    SameDeclarations schema (sanitize schema) ↔ NamesKept schema := by
  constructor
  · intro same path
    induction path generalizing schema with
    | nil =>
      intro level at_
      obtain rfl : schema = .obj level := Option.some.inj at_
      have here := same []
      rw [sanitize] at here
      exact declared_sanitize_iff.mp (Option.some.inj here).symm
    | cons step path ih =>
      intro level at_
      rw [subAt] at at_
      obtain ⟨inner, found, at_⟩ := Option.bind_eq_some_iff.mp at_
      refine ih inner (fun rest => ?_) level at_
      have below := same (step :: rest)
      cases schema with
      | obj fields =>
        have here := same []
        rw [sanitize] at here below
        have kept := declared_sanitize_iff.mp (Option.some.inj here).symm
        have next : sub (.obj (sanitizeFields fields)) step = some (sanitize inner) := by
          rw [sub_sanitize kept, found, Option.map_some]
        rwa [declaredAt, declaredAt, subAt_cons found, subAt_cons next] at below
      | _ => cases found
  · intro kept path
    rw [declaredAt, declaredAt, subAt_sanitize kept]
    cases found : subAt schema path with
    | none => rfl
    | some inner =>
      cases inner with
      | obj level =>
        rw [Option.map_some, sanitize]
        exact congrArg some (declared_sanitize_iff.mpr (kept path level found)).symm
      | _ => simp [sanitize]

/-! ## What stays valid -/

variable {fits : String → String → Prop} {value : Json}

theorem limit_keyword {limit : String × (Json → Json → Prop)} (member : limit ∈ limits fits) :
    limit.1 ∈ "minItems" :: skipped := by
  have all : ∀ key ∈ (limits fits).map Prod.fst, key ∈ "minItems" :: skipped := by
    simp only [limits, List.map_cons, List.map_nil]
    decide
  exact all _ (List.mem_map_of_mem member)

theorem typeHolds_sanitize {entry : Json} (holds : TypeHolds entry value) :
    TypeHolds (sanitize entry) value := by
  cases entry with
  | arr types =>
    obtain ⟨type, member, hasType⟩ := holds
    rw [sanitize]
    refine ⟨type, ?_, hasType⟩
    have listed : .str type ∈ (sanitize (.arr types)).elements := str_mem_elements.mpr member
    rwa [sanitize] at listed
  | str type => exact holds
  | _ => simp [sanitize, TypeHolds]

/-- The keywords that look at the value only ask for nothing new. -/
theorem holds_sanitize (holds : Holds fits fields value)
    (enums : ∀ members, fields.lookup "enum" = some (.arr members) → ∀ m ∈ members, clean m) :
    Holds fits (sanitizeFields fields) value := by
  constructor
  · intro entry found
    rw [lookup_sanitize (kept_of_notMem (by decide)), Option.map_eq_some_iff] at found
    obtain ⟨given, found, rfl⟩ := found
    exact typeHolds_sanitize (holds.type given found)
  · intro entry found name listed
    rw [lookup_sanitize (kept_of_notMem (by decide)), Option.map_eq_some_iff] at found
    obtain ⟨given, found, rfl⟩ := found
    exact holds.required given found name (str_mem_elements.mp listed)
  · intro entry found members eq
    rw [lookup_sanitize (kept_of_notMem (by decide)), Option.map_eq_some_iff] at found
    obtain ⟨given, found, rfl⟩ := found
    cases given with
    | arr given =>
      have same : given.map sanitize = given :=
        (List.map_congr_left fun m member =>
          sanitize_of_clean m (enums given found m member)).trans (List.map_id given)
      rw [sanitize, sanitizeAll_eq, same] at eq
      exact holds.enum _ found members eq
    | _ => simp [sanitize] at eq
  · intro limit member entry found
    exact holds.limits limit member entry (mem_limit (limit_keyword member) found)

/-- What is valid stays valid if no name and no key of a constant is lost. -/
theorem valid_sanitize (valid : Valid fits schema value) (names : NamesKept schema)
    (enums : EnumsKept schema) : Valid fits (sanitize schema) value := by
  induction valid with
  | all value => rw [sanitize]; exact .all value
  | keywords fields value chosen holds _ _ _ among _ properties additional items anyOf =>
    have kept := names.here
    rw [sanitize]
    refine .keywords _ value (sanitize chosen)
      (holds_sanitize holds fun members => enums [] fields members rfl) ?_ ?_ ?_ ?_ ?_
    · intro name inner x found given
      rw [lookup_properties_sanitize kept, Option.map_eq_some_iff] at found
      obtain ⟨inner, found, rfl⟩ := found
      have step : sub (.obj fields) (.property name) = some inner := found
      exact properties name inner x found given (names.below step) (enums.below step)
    · intro inner name x found undeclared given
      rw [lookup_sanitize (kept_of_notMem (by decide)), Option.map_eq_some_iff] at found
      obtain ⟨inner, found, rfl⟩ := found
      rw [declared_sanitize_iff.mpr kept] at undeclared
      have step : sub (.obj fields) .additionalProperties = some inner := found
      exact additional inner name x found undeclared given (names.below step) (enums.below step)
    · intro inner found x member
      rw [lookup_sanitize (kept_of_notMem (by decide)), Option.map_eq_some_iff] at found
      obtain ⟨inner, found, rfl⟩ := found
      have step : sub (.obj fields) .items = some inner := found
      exact items inner found x member (names.below step) (enums.below step)
    · intro subs found
      obtain ⟨given, was, rfl⟩ := lookup_anyOf_sanitize found
      exact List.mem_map_of_mem (among given was)
    · intro subs found
      obtain ⟨given, was, rfl⟩ := lookup_anyOf_sanitize found
      obtain ⟨index, at_⟩ := List.getElem?_of_mem (among given was)
      have step : sub (.obj fields) (.anyOf index) = some chosen := by
        simp only [sub]
        rw [was]
        exact at_
      exact anyOf given was (names.below step) (enums.below step)

/-- For every schema: sanitised, it declares the same properties exactly if none has a name that
gets lost; and if neither a name nor a key of a constant gets lost, every value that was valid is
so still. -/
theorem schema_relaxed (fits : String → String → Prop) (schema : Json) :
    (SameDeclarations schema (sanitize schema) ↔ NamesKept schema) ∧
    (NamesKept schema → EnumsKept schema →
      ∀ value, Valid fits schema value → Valid fits (sanitize schema) value) :=
  ⟨sameDeclarations_iff schema, fun names enums _ valid => valid_sanitize valid names enums⟩

/-- Positive numbers. -/
def positive : Json := .obj [("type", .str "number"), ("minimum", .num 1)]

theorem schema_relaxed_positive (fits : String → String → Prop) :
    Valid fits (sanitize positive) (.num 1) := by
  have levels : ∀ path level, subAt positive path = some (.obj level) →
      level = [("type", .str "number"), ("minimum", .num 1)] := by
    intro path level at_
    cases path with
    | nil => exact (Json.obj.inj (Option.some.inj at_)).symm
    | cons step path => cases step <;> cases at_
  refine (schema_relaxed fits positive).2 ?_ ?_ (.num 1) ?_
  · intro path level at_
    rw [levels path level at_]
    decide
  · intro path level members at_ found
    rw [levels path level at_] at found
    cases found
  · refine .keywords _ _ .null ⟨?_, nofun, nofun, ?_⟩ nofun nofun nofun nofun nofun
    · intro entry found
      cases found
      trivial
    · intro limit member entry found
      simp only [limits, List.mem_cons, List.not_mem_nil, or_false] at member
      rcases member with rfl | rfl | rfl | rfl | rfl | rfl | rfl | rfl | rfl | rfl | rfl | rfl |
          rfl <;>
        simp_all [number]

/-- An object with a property of the name of a keyword, and with no others. -/
def patterned : Json :=
  .obj [("properties", .obj [("pattern", .bool true)]), ("additionalProperties", .bool false)]

theorem sanitize_patterned : sanitize patterned =
    .obj [("properties", .obj []), ("additionalProperties", .bool false)] := by
  simp [patterned, sanitize, sanitizeFields, lost, skipped]

theorem lookup_singleton {name key : String} {entry x : Json}
    (found : [(key, entry)].lookup name = some x) : name = key ∧ x = entry := by
  rw [List.lookup_cons] at found
  split at found
  · rename_i same
    exact ⟨by simpa using same, (Option.some.inj found).symm⟩
  · cases found

/-- The property `pattern` is taken for the keyword: it is declared no more, and an object that has
it was valid and is not any more. -/
theorem pattern_lost :
    ¬ SameDeclarations patterned (sanitize patterned) ∧
      Valid (fun _ _ => True) patterned (.obj [("pattern", .null)]) ∧
      ¬ Valid (fun _ _ => True) (sanitize patterned) (.obj [("pattern", .null)]) := by
  refine ⟨fun same => absurd (same []) (by decide +kernel), ?_, fun valid => ?_⟩
  · refine .keywords _ _ .null ⟨nofun, nofun, nofun, ?_⟩ ?_ ?_ nofun nofun nofun
    · intro limit member entry found
      simp only [limits, List.mem_cons, List.not_mem_nil, or_false] at member
      rcases member with rfl | rfl | rfl | rfl | rfl | rfl | rfl | rfl | rfl | rfl | rfl | rfl |
          rfl <;>
        simp at found
    · intro name inner x found _
      rw [(lookup_singleton found).2]
      exact .all x
    · intro inner name x _ undeclared given
      rw [(lookup_singleton given).1] at undeclared
      exact absurd undeclared (by decide +kernel)
  · rw [sanitize_patterned] at valid
    cases valid with
    | keywords _ _ _ _ _ additional =>
      cases additional (.bool false) "pattern" .null rfl (by decide +kernel) rfl

end Persai.AnthropicRequest
