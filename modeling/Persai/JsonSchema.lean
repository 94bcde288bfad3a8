import Mathlib.Data.Rat.Floor

/-!
# JSON values and JSON schemas

A schema is a JSON value itself: a boolean, or an object of keywords. `Valid` is the meaning of the
keywords that describe values part by part, of alternatives, of constants and of limits; the
patterns of strings are read by a relation that is left open.
-/

namespace JsonSchema

inductive Json where
  | null
  | bool (value : Bool)
  | num (value : ℚ)
  | str (value : String)
  | arr (items : List Json)
  | obj (fields : List (String × Json))
  deriving Repr, Inhabited

namespace Json

def field : Json → String → Option Json
  | .obj fields, name => fields.lookup name
  | _, _ => none

def elements : Json → List Json
  | .arr items => items
  | _ => []

def keys : Json → List String
  | .obj fields => fields.map Prod.fst
  | _ => []

/-- One value, whatever the order of the keys. -/
inductive Same : Json → Json → Prop where
  | null : Same .null .null
  | bool (value : Bool) : Same (.bool value) (.bool value)
  | num (value : ℚ) : Same (.num value) (.num value)
  | str (value : String) : Same (.str value) (.str value)
  | arr (items items' : List Json) (length : items.length = items'.length)
      (each : ∀ (i : Nat) x y, items[i]? = some x → items'[i]? = some y → Same x y) :
      Same (.arr items) (.arr items')
  | obj (fields fields' : List (String × Json))
      (names : ∀ name, (fields.lookup name).isSome ↔ (fields'.lookup name).isSome)
      (each : ∀ name x y, fields.lookup name = some x → fields'.lookup name = some y → Same x y) :
      Same (.obj fields) (.obj fields')

/-- `type`. -/
def HasType (type : String) (value : Json) : Prop :=
  match type, value with
  | "null", .null | "boolean", .bool _ | "number", .num _ | "string", .str _ | "array", .arr _
  | "object", .obj _ => True
  | "integer", .num n => n.isInt
  | _, _ => False

end Json

open Json

/-! ## Keywords -/

/-- The properties that an object level declares. -/
def properties (fields : List (String × Json)) : List (String × Json) :=
  match fields.lookup "properties" with
  | some (.obj props) => props
  | _ => []

def declared (fields : List (String × Json)) : List String := (properties fields).map Prod.fst

def TypeHolds (entry value : Json) : Prop :=
  match entry with
  | .str type => HasType type value
  | .arr types => ∃ type, .str type ∈ types ∧ HasType type value
  | _ => True

def RequiredHolds (entry value : Json) : Prop :=
  ∀ name, .str name ∈ entry.elements → ∀ fields, value = .obj fields → name ∈ value.keys

def EnumHolds (entry value : Json) : Prop :=
  ∀ members, entry = .arr members → ∃ m ∈ members, Same m value

def number (entry value : Json) (Holds : ℚ → ℚ → Prop) : Prop :=
  ∀ bound n, entry = .num bound → value = .num n → Holds bound n

def count {α : Type} (entry : Json) (counted : Option (List α)) (Holds : ℚ → ℚ → Prop) : Prop :=
  ∀ bound l, entry = .num bound → counted = some l → Holds bound l.length

def characters : Json → Option (List Char)
  | .str s => some s.toList
  | _ => none

def array : Json → Option (List Json)
  | .arr items => some items
  | _ => none

def object : Json → Option (List (String × Json))
  | .obj fields => some fields
  | _ => none

/-- The limits of numbers, strings, arrays and objects, each a keyword and what it asks for. -/
def limits (fits : String → String → Prop) : List (String × (Json → Json → Prop)) :=
  [("minimum", fun entry value => number entry value (· ≤ ·)),
   ("maximum", fun entry value => number entry value (· ≥ ·)),
   ("exclusiveMinimum", fun entry value => number entry value (· < ·)),
   ("exclusiveMaximum", fun entry value => number entry value (· > ·)),
   ("multipleOf", fun entry value => number entry value fun step n => (n / step).isInt),
   ("minLength", fun entry value => count entry (characters value) (· ≤ ·)),
   ("maxLength", fun entry value => count entry (characters value) (· ≥ ·)),
   ("pattern", fun entry value => ∀ pattern s, entry = .str pattern → value = .str s →
      fits pattern s),
   ("minItems", fun entry value => count entry (array value) (· ≤ ·)),
   ("maxItems", fun entry value => count entry (array value) (· ≥ ·)),
   ("uniqueItems", fun entry value => entry = .bool true →
      value.elements.Pairwise fun x y => ¬ Same x y),
   ("minProperties", fun entry value => count entry (object value) (· ≤ ·)),
   ("maxProperties", fun entry value => count entry (object value) (· ≥ ·))]

/-- The keywords that look at the value only. -/
structure Holds (fits : String → String → Prop) (fields : List (String × Json)) (value : Json) :
    Prop where
  type : ∀ entry, fields.lookup "type" = some entry → TypeHolds entry value
  required : ∀ entry, fields.lookup "required" = some entry → RequiredHolds entry value
  enum : ∀ entry, fields.lookup "enum" = some entry → EnumHolds entry value
  limits : ∀ limit ∈ limits fits, ∀ entry, (limit.1, entry) ∈ fields → limit.2 entry value

/-- A value is valid under a schema; `chosen` is the alternative of `anyOf` it is valid under. -/
inductive Valid (fits : String → String → Prop) : Json → Json → Prop where
  | all (value : Json) : Valid fits (.bool true) value
  | keywords (fields : List (String × Json)) (value chosen : Json)
      (holds : Holds fits fields value)
      (properties : ∀ name sub x, (properties fields).lookup name = some sub →
        value.field name = some x → Valid fits sub x)
      (additional : ∀ sub name x, fields.lookup "additionalProperties" = some sub →
        name ∉ declared fields → value.field name = some x → Valid fits sub x)
      (items : ∀ sub, fields.lookup "items" = some sub → ∀ x ∈ value.elements, Valid fits sub x)
      (among : ∀ subs, fields.lookup "anyOf" = some (.arr subs) → chosen ∈ subs)
      (anyOf : ∀ subs, fields.lookup "anyOf" = some (.arr subs) → Valid fits chosen value) :
      Valid fits (.obj fields) value

/-! ## Object levels -/

/-- A step to a schema within a schema. -/
inductive Step where
  | property (name : String)
  | additionalProperties
  | items
  | anyOf (index : Nat)
  deriving DecidableEq, Repr

def sub (schema : Json) (step : Step) : Option Json :=
  match schema, step with
  | .obj fields, .property name => (properties fields).lookup name
  | .obj fields, .additionalProperties => fields.lookup "additionalProperties"
  | .obj fields, .items => fields.lookup "items"
  | .obj fields, .anyOf index =>
    match fields.lookup "anyOf" with
    | some (.arr subs) => subs[index]?
    | _ => none
  | _, _ => none

def subAt (schema : Json) : List Step → Option Json
  | [] => some schema
  | step :: path => (sub schema step).bind fun inner => subAt inner path

/-- The properties declared at an object level. -/
def declaredAt (schema : Json) (path : List Step) : Option (List String) :=
  match subAt schema path with
  | some (.obj fields) => some (declared fields)
  | _ => none

/-- Two schemas declare the same properties at every object level. -/
def SameDeclarations (schema schema' : Json) : Prop :=
  ∀ path, declaredAt schema path = declaredAt schema' path

end JsonSchema
