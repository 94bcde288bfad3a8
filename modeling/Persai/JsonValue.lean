import Mathlib.Data.List.Nodup
import Persai.CodeUnits

/-!
# Parsed JSON

The values of `JSON.parse`, with strings as code units; `ν` is the type of their numbers.
-/

namespace Persai

open CodeUnits (Text ofString)

inductive JsonValue (ν : Type)
  | null
  | bool (value : Bool)
  | num (value : ν)
  | str (value : Text)
  | arr (items : List (JsonValue ν))
  | obj (fields : List (Text × JsonValue ν))
  deriving Inhabited

namespace JsonValue

variable {ν : Type}

/-- An object that is not an array. -/
def asObject : JsonValue ν → Option (List (Text × JsonValue ν))
  | .obj fields => some fields
  | _ => none

def asArray : JsonValue ν → Option (List (JsonValue ν))
  | .arr items => some items
  | _ => none

def asString : JsonValue ν → Option Text
  | .str text => some text
  | _ => none

def asNumber : JsonValue ν → Option ν
  | .num n => some n
  | _ => none

def field (name : String) (fields : List (Text × JsonValue ν)) : Option (JsonValue ν) :=
  fields.lookup (ofString name)

/-- No object in the value has two fields under one key. -/
inductive Distinct : JsonValue ν → Prop
  | null : Distinct .null
  | bool (value : Bool) : Distinct (.bool value)
  | num (value : ν) : Distinct (.num value)
  | str (value : Text) : Distinct (.str value)
  | arr (items : List (JsonValue ν)) (each : ∀ item ∈ items, Distinct item) : Distinct (.arr items)
  | obj (fields : List (Text × JsonValue ν)) (keys : (fields.map Prod.fst).Nodup)
      (each : ∀ field ∈ fields, Distinct field.2) : Distinct (.obj fields)

/-- Equal, whatever the order of the keys. -/
inductive Same : JsonValue ν → JsonValue ν → Prop
  | null : Same .null .null
  | bool (value : Bool) : Same (.bool value) (.bool value)
  | num (value : ν) : Same (.num value) (.num value)
  | str (value : Text) : Same (.str value) (.str value)
  | arr (items items' : List (JsonValue ν)) (length : items.length = items'.length)
      (each : ∀ (i : ℕ) x y, items[i]? = some x → items'[i]? = some y → Same x y) :
      Same (.arr items) (.arr items')
  | obj (fields fields' : List (Text × JsonValue ν))
      (keys : ∀ key, (fields.lookup key).isSome ↔ (fields'.lookup key).isSome)
      (each : ∀ key x y, fields.lookup key = some x → fields'.lookup key = some y → Same x y) :
      Same (.obj fields) (.obj fields')

end JsonValue

end Persai
