import Mathlib.Data.List.Nodup
import Persai.JsonValue

/-!
# JSON texts

`stringify` writes a value without blanks (`JSON.stringify`), `parse` reads a text (`JSON.parse`).
How numbers are written and read is left open.

* `readString_quoteFrom`: a quoted string is read back;
* `reads_stringify`: so is a value, whatever follows it;
* `parse_stringify`: a text that was written is read as the value.
-/

namespace Persai.JsonText

open CodeUnits (Text ofString isHighSurrogate isLowSurrogate)

variable {ν : Type}

/-! ## Strings -/

def hexDigit (d : UInt16) : UInt16 := if d < 10 then 48 + d else 87 + d

def unicodeEscape (u : UInt16) : Text :=
  [92, 117, hexDigit (u / 4096), hexDigit (u / 256 % 16), hexDigit (u / 16 % 16), hexDigit (u % 16)]

def escapeUnit (u : UInt16) : Text :=
  if u = 8 then [92, 98]
  else if u = 9 then [92, 116]
  else if u = 10 then [92, 110]
  else if u = 12 then [92, 102]
  else if u = 13 then [92, 114]
  else if u = 34 then [92, 34]
  else if u = 92 then [92, 92]
  else if u < 32 then unicodeEscape u
  else [u]

/-- A surrogate is written as it is in a pair only. -/
def quoteUnit (afterHigh : Bool) (u : UInt16) (rest : Text) : Text :=
  if isHighSurrogate u then
    if (rest.head?.map isLowSurrogate).getD false then [u] else unicodeEscape u
  else if isLowSurrogate u then if afterHigh then [u] else unicodeEscape u
  else escapeUnit u

def quoteFrom : (afterHigh : Bool) → Text → Text
  | _, [] => [34]
  | afterHigh, u :: rest => quoteUnit afterHigh u rest ++ quoteFrom (isHighSurrogate u) rest

def quote (text : Text) : Text := 34 :: quoteFrom false text

/-- Where the reading of a string is: within `\`, or with hexadecimal digits to come. -/
inductive Escape
  | plain
  | backslash
  | hex (left : ℕ) (read : UInt16)

def hexValue (u : UInt16) : Option UInt16 :=
  if 48 ≤ u && u ≤ 57 then some (u - 48)
  else if 97 ≤ u && u ≤ 102 then some (u - 87)
  else if 65 ≤ u && u ≤ 70 then some (u - 55)
  else none

def unescape (u : UInt16) : Option UInt16 :=
  if u = 98 then some 8
  else if u = 116 then some 9
  else if u = 110 then some 10
  else if u = 102 then some 12
  else if u = 114 then some 13
  else if u = 34 ∨ u = 92 ∨ u = 47 then some u
  else none

/-- The string up to its closing quote, and what comes after it. -/
def readString : Escape → Text → Option (Text × Text)
  | _, [] => none
  | .plain, u :: rest =>
    if u = 34 then some ([], rest)
    else if u = 92 then readString .backslash rest
    else if u < 32 then none
    else (readString .plain rest).map fun read => (u :: read.1, read.2)
  | .backslash, u :: rest =>
    if u = 117 then readString (.hex 3 0) rest
    else
      match unescape u with
      | some v => (readString .plain rest).map fun read => (v :: read.1, read.2)
      | none => none
  | .hex left before, u :: rest =>
    match hexValue u with
    | none => none
    | some d =>
      let value := before * 16 + d
      match left with
      | 0 => (readString .plain rest).map fun read => (value :: read.1, read.2)
      | left + 1 => readString (.hex left value) rest

/-! ## Values -/

section Writing

variable (numberText : ν → Text)

mutual

def stringify : JsonValue ν → Text
  | .null => ofString "null"
  | .bool true => ofString "true"
  | .bool false => ofString "false"
  | .num n => numberText n
  | .str text => quote text
  | .arr items => 91 :: stringifyItems items
  | .obj fields => 123 :: stringifyFields fields

/-- The items of an array and its end. -/
def stringifyItems : List (JsonValue ν) → Text
  | [] => [93]
  | [item] => stringify item ++ [93]
  | item :: next :: items => stringify item ++ 44 :: stringifyItems (next :: items)

def stringifyFields : List (Text × JsonValue ν) → Text
  | [] => [125]
  | [(key, value)] => quote key ++ 58 :: (stringify value ++ [125])
  | (key, value) :: next :: fields =>
    quote key ++ 58 :: (stringify value ++ 44 :: stringifyFields (next :: fields))

end

end Writing

/-- A blank between two tokens. -/
def isBlank (u : UInt16) : Bool := u == 32 || u == 9 || u == 10 || u == 13

def skipBlanks (text : Text) : Text := text.dropWhile isBlank

/-- `[-+.0-9eE]`, of which numbers are made. -/
def isNumberUnit (u : UInt16) : Bool :=
  (48 ≤ u && u ≤ 57) || u == 45 || u == 43 || u == 46 || u == 101 || u == 69

def afterWord : (word text : Text) → Option Text
  | [], text => some text
  | _ :: _, [] => none
  | u :: word, v :: text => if u = v then afterWord word text else none

/-- A later field replaces an earlier one under the same key. -/
def assign (fields : List (Text × JsonValue ν)) (field : Text × JsonValue ν) :
    List (Text × JsonValue ν) :=
  if fields.any (fun other => other.1 == field.1) then
    fields.map fun other => if other.1 = field.1 then field else other
  else fields ++ [field]

section Reading

variable (numberOf : Text → Option ν)

/-- A number or one of the three words. -/
def readScalar (text : Text) : Option (JsonValue ν × Text) :=
  match afterWord (ofString "null") text with
  | some rest => some (.null, rest)
  | none =>
    match afterWord (ofString "true") text with
    | some rest => some (.bool true, rest)
    | none =>
      match afterWord (ofString "false") text with
      | some rest => some (.bool false, rest)
      | none =>
        (numberOf (text.takeWhile isNumberUnit)).map fun n => (.num n, text.dropWhile isNumberUnit)

mutual

def readValue : ℕ → Text → Option (JsonValue ν × Text)
  | 0, _ => none
  | fuel + 1, text =>
    match skipBlanks text with
    | [] => none
    | u :: rest =>
      if u = 34 then (readString .plain rest).map fun read => (.str read.1, read.2)
      else if u = 91 then
        match skipBlanks rest with
        | [] => none
        | v :: after =>
          if v = 93 then some (.arr [], after)
          else (readItems fuel (v :: after)).map fun read => (.arr read.1, read.2)
      else if u = 123 then
        match skipBlanks rest with
        | [] => none
        | v :: after =>
          if v = 125 then some (.obj [], after)
          else (readFields fuel (v :: after)).map fun read =>
            (.obj (read.1.foldl assign []), read.2)
      else readScalar numberOf (u :: rest)

def readItems : ℕ → Text → Option (List (JsonValue ν) × Text)
  | 0, _ => none
  | fuel + 1, text =>
    match readValue fuel text with
    | none => none
    | some (value, after) =>
      match skipBlanks after with
      | [] => none
      | u :: rest =>
        if u = 44 then (readItems fuel rest).map fun read => (value :: read.1, read.2)
        else if u = 93 then some ([value], rest)
        else none

def readFields : ℕ → Text → Option (List (Text × JsonValue ν) × Text)
  | 0, _ => none
  | fuel + 1, text =>
    match skipBlanks text with
    | [] => none
    | quoted :: body =>
      if quoted = 34 then
        match readString .plain body with
        | none => none
        | some (key, after) =>
          match skipBlanks after with
          | [] => none
          | colon :: rest =>
            if colon = 58 then
              match readValue fuel rest with
              | none => none
              | some (value, after) =>
                match skipBlanks after with
                | [] => none
                | u :: rest =>
                  if u = 44 then
                    (readFields fuel rest).map fun read => ((key, value) :: read.1, read.2)
                  else if u = 125 then some ([(key, value)], rest)
                  else none
            else none
      else none

end

/-- `JSON.parse`; nothing where it throws. At least every second step takes a unit. -/
def parse (text : Text) : Option (JsonValue ν) :=
  match readValue numberOf (2 * text.length + 1) text with
  | some (value, rest) => if skipBlanks rest = [] then some value else none
  | none => none

end Reading

/-! ## A string is read back -/

theorem hexValue_hexDigit {d : UInt16} (small : d < 16) : hexValue (hexDigit d) = some d := by
  have all : ∀ n < 16, hexValue (hexDigit (UInt16.ofNat n)) = some (UInt16.ofNat n) := by
    decide +kernel
  have same := all d.toNat small
  rwa [UInt16.ofNat_toNat] at same

theorem hexDigits (u : UInt16) :
    (((0 * 16 + u / 4096) * 16 + u / 256 % 16) * 16 + u / 16 % 16) * 16 + u % 16 = u := by
  rw [← UInt16.toNat_inj]
  have bound := u.toNat_lt
  simp only [UInt16.toNat_add, UInt16.toNat_mul, UInt16.toNat_div, UInt16.toNat_mod,
    UInt16.reduceToNat]
  omega

theorem readString_unicodeEscape (u : UInt16) (text : Text) :
    readString .plain (unicodeEscape u ++ text) =
      (readString .plain text).map fun read => (u :: read.1, read.2) := by
  have high : u / 4096 < 16 := by
    rw [UInt16.lt_iff_toNat_lt, UInt16.toNat_div]
    have bound := u.toNat_lt
    simp only [UInt16.reduceToNat]
    omega
  have low (v : UInt16) : v % 16 < 16 := by
    rw [UInt16.lt_iff_toNat_lt, UInt16.toNat_mod]
    exact Nat.mod_lt _ (by decide)
  simp only [unicodeEscape, List.cons_append, List.nil_append, readString, hexValue_hexDigit high,
    hexValue_hexDigit (low _), hexDigits]
  rfl

theorem readString_plain {u : UInt16} {text : Text} (quoted : u ≠ 34) (escaped : u ≠ 92)
    (control : ¬ u < 32) : readString .plain (u :: text) =
      (readString .plain text).map fun read => (u :: read.1, read.2) := by
  rw [readString, if_neg quoted, if_neg escaped, if_neg control]

theorem readString_escape {v u : UInt16} {text : Text} (other : v ≠ 117)
    (meant : unescape v = some u) : readString .plain (92 :: v :: text) =
      (readString .plain text).map fun read => (u :: read.1, read.2) := by
  rw [readString, if_neg (by decide), if_pos rfl, readString, if_neg other, meant]

theorem readString_escapeUnit (u : UInt16) (text : Text) :
    readString .plain (escapeUnit u ++ text) =
      (readString .plain text).map fun read => (u :: read.1, read.2) := by
  unfold escapeUnit
  split_ifs with b t n f r quoted escaped control
  · exact readString_escape (by decide) (by rw [b]; rfl)
  · exact readString_escape (by decide) (by rw [t]; rfl)
  · exact readString_escape (by decide) (by rw [n]; rfl)
  · exact readString_escape (by decide) (by rw [f]; rfl)
  · exact readString_escape (by decide) (by rw [r]; rfl)
  · exact readString_escape (by decide) (by rw [quoted]; rfl)
  · exact readString_escape (by decide) (by rw [escaped]; rfl)
  · exact readString_unicodeEscape u text
  · exact readString_plain quoted escaped control

theorem readString_surrogate {u : UInt16} (text : Text) (surrogate : 0xD800 ≤ u) :
    readString .plain (u :: text) =
      (readString .plain text).map fun read => (u :: read.1, read.2) := by
  have least : 0xD800 ≤ u.toNat := surrogate
  refine readString_plain ?_ ?_ ?_
  · rintro rfl
    exact absurd least (by decide)
  · rintro rfl
    exact absurd least (by decide)
  · rw [UInt16.lt_iff_toNat_lt]
    exact fun small => absurd (least.trans_lt small) (by decide)

theorem readString_quoteUnit (afterHigh : Bool) (u : UInt16) (rest text : Text) :
    readString .plain (quoteUnit afterHigh u rest ++ text) =
      (readString .plain text).map fun read => (u :: read.1, read.2) := by
  unfold quoteUnit
  split_ifs with high pair low after
  · simp only [isHighSurrogate, Bool.and_eq_true, decide_eq_true_eq] at high
    exact readString_surrogate text high.1
  · exact readString_unicodeEscape u text
  · simp only [isLowSurrogate, Bool.and_eq_true, decide_eq_true_eq] at low
    exact readString_surrogate text (UInt16.le_trans (by decide) low.1)
  · exact readString_unicodeEscape u text
  · exact readString_escapeUnit u text

theorem readString_quoteFrom (afterHigh : Bool) (text rest : Text) :
    readString .plain (quoteFrom afterHigh text ++ rest) = some (text, rest) := by
  induction text generalizing afterHigh with
  | nil => rfl
  | cons u text ih =>
    rw [quoteFrom, List.append_assoc, readString_quoteUnit, ih]
    rfl

/-! ## A value is read back -/

/-- Numbers are written in their own units, and read back. -/
structure Numbers (numberText : ν → Text) (numberOf : Text → Option ν) : Prop where
  nonempty : ∀ n, numberText n ≠ []
  units : ∀ n, ∀ u ∈ numberText n, isNumberUnit u = true
  read : ∀ n, numberOf (numberText n) = some n

/-- No number goes on here. -/
def EndsNumber (rest : Text) : Prop := ∀ u, rest.head? = some u → isNumberUnit u = false

theorem endsNumber_nil : EndsNumber [] := by simp [EndsNumber]

theorem endsNumber_cons {u : UInt16} {rest : Text} (other : isNumberUnit u = false) :
    EndsNumber (u :: rest) := by
  intro v first
  obtain rfl : u = v := by simpa using first
  exact other

theorem skipBlanks_cons {u : UInt16} {rest : Text} (token : isBlank u = false) :
    skipBlanks (u :: rest) = u :: rest := by
  rw [skipBlanks, List.dropWhile_cons_of_neg (by simp [token])]

theorem assign_of_fresh {fields : List (Text × JsonValue ν)} {field : Text × JsonValue ν}
    (fresh : field.1 ∉ fields.map Prod.fst) : assign fields field = fields ++ [field] := by
  rw [assign, if_neg]
  intro there
  obtain ⟨other, member, same⟩ := List.any_eq_true.mp there
  exact fresh (List.mem_map.mpr ⟨other, member, by simpa using same⟩)

theorem foldl_assign {fields before : List (Text × JsonValue ν)}
    (keys : ((before ++ fields).map Prod.fst).Nodup) :
    fields.foldl assign before = before ++ fields := by
  induction fields generalizing before with
  | nil => simp
  | cons field fields ih =>
    have shift : before ++ field :: fields = before ++ [field] ++ fields := List.append_cons ..
    have fresh : field.1 ∉ before.map Prod.fst := by
      rw [List.map_append, List.nodup_append] at keys
      exact fun old => keys.2.2 _ old field.1 (by simp) rfl
    rw [List.foldl_cons, assign_of_fresh fresh, shift]
    exact ih (shift ▸ keys)

variable {numberText : ν → Text} {numberOf : Text → Option ν}

theorem Numbers.head (numbers : Numbers numberText numberOf) (n : ν) :
    ∃ u rest, numberText n = u :: rest ∧ isNumberUnit u = true := by
  obtain ⟨u, rest, text⟩ := List.exists_cons_of_ne_nil (numbers.nonempty n)
  refine ⟨u, rest, text, numbers.units n u ?_⟩
  rw [text]
  exact List.mem_cons_self

theorem ne_of_isNumberUnit {u v : UInt16} (number : isNumberUnit u = true)
    (other : isNumberUnit v = false) : u ≠ v := by
  rintro rfl
  rw [number] at other
  cases other

theorem not_isBlank_of_isNumberUnit {u : UInt16} (number : isNumberUnit u = true) :
    isBlank u = false := by
  have apart (v : UInt16) (other : isNumberUnit v = false) : (u == v) = false := by
    simpa using ne_of_isNumberUnit number other
  simp only [isBlank, apart 32 (by decide), apart 9 (by decide), apart 10 (by decide),
    apart 13 (by decide), Bool.or_self]

/-- The first unit of a value is one of a token, and no closing bracket. -/
theorem stringify_head (numbers : Numbers numberText numberOf) (value : JsonValue ν) :
    ∃ u rest, stringify numberText value = u :: rest ∧ isBlank u = false ∧ u ≠ 93 := by
  match value with
  | .null | .bool true | .bool false => exact ⟨_, _, rfl, by decide, by decide⟩
  | .str text => exact ⟨34, quoteFrom false text, rfl, by decide, by decide⟩
  | .arr items => exact ⟨91, stringifyItems numberText items, rfl, by decide, by decide⟩
  | .obj fields => exact ⟨123, stringifyFields numberText fields, rfl, by decide, by decide⟩
  | .num n =>
    obtain ⟨u, rest, text, number⟩ := numbers.head n
    exact ⟨u, rest, text, not_isBlank_of_isNumberUnit number,
      ne_of_isNumberUnit number (by decide)⟩

theorem stringifyItems_head (numbers : Numbers numberText numberOf) (item : JsonValue ν)
    (items : List (JsonValue ν)) : ∃ u rest, stringifyItems numberText (item :: items) = u :: rest ∧
      isBlank u = false ∧ u ≠ 93 := by
  obtain ⟨u, rest, text, token, bracket⟩ := stringify_head numbers item
  cases items with
  | nil => exact ⟨u, _, by rw [stringifyItems, text]; rfl, token, bracket⟩
  | cons next items => exact ⟨u, _, by rw [stringifyItems, text]; rfl, token, bracket⟩

theorem stringifyFields_head (numberText : ν → Text) (field : Text × JsonValue ν)
    (fields : List (Text × JsonValue ν)) :
    ∃ rest, stringifyFields numberText (field :: fields) = 34 :: rest := by
  obtain ⟨key, value⟩ := field
  cases fields with
  | nil => exact ⟨_, by rw [stringifyFields, quote]; rfl⟩
  | cons next fields => exact ⟨_, by rw [stringifyFields, quote]; rfl⟩

theorem afterWord_of_ne {u v : UInt16} {word text : Text} (other : u ≠ v) :
    afterWord (u :: word) (v :: text) = none := if_neg other

theorem readScalar_number (numbers : Numbers numberText numberOf) (n : ν) {rest : Text}
    (ends : EndsNumber rest) :
    readScalar numberOf (numberText n ++ rest) = some (.num n, rest) := by
  have units := numbers.units n
  have stops : rest.takeWhile isNumberUnit = [] ∧ rest.dropWhile isNumberUnit = rest := by
    cases rest with
    | nil => exact ⟨rfl, rfl⟩
    | cons u rest =>
      have other : ¬ isNumberUnit u = true := by simp [ends u rfl]
      exact ⟨List.takeWhile_cons_of_neg other, List.dropWhile_cons_of_neg other⟩
  have token : (numberText n ++ rest).takeWhile isNumberUnit = numberText n := by
    rw [List.takeWhile_append_of_pos units, stops.1, List.append_nil]
  have after : (numberText n ++ rest).dropWhile isNumberUnit = rest := by
    rw [List.dropWhile_append_of_pos units, stops.2]
  obtain ⟨u, more, text, number⟩ := numbers.head n
  have no_word (v : UInt16) (word : Text) (other : isNumberUnit v = false) :
      afterWord (v :: word) (numberText n ++ rest) = none := by
    rw [text]
    exact afterWord_of_ne (ne_of_isNumberUnit number other).symm
  have null : afterWord (ofString "null") (numberText n ++ rest) = none :=
    no_word 110 _ (by decide)
  have yes : afterWord (ofString "true") (numberText n ++ rest) = none :=
    no_word 116 _ (by decide)
  have no : afterWord (ofString "false") (numberText n ++ rest) = none :=
    no_word 102 _ (by decide)
  rw [readScalar, null, yes, no]
  dsimp only
  rw [token, after, numbers.read]
  rfl

/-- Values that are short enough for the fuel are read back. -/
def ReadsValues (numberText : ν → Text) (numberOf : Text → Option ν) (fuel : ℕ) : Prop :=
  ∀ value rest, JsonValue.Distinct value → EndsNumber rest →
    2 * (stringify numberText value).length + 1 ≤ fuel →
    readValue numberOf fuel (stringify numberText value ++ rest) = some (value, rest)

def ReadsItems (numberText : ν → Text) (numberOf : Text → Option ν) (fuel : ℕ) : Prop :=
  ∀ item items rest, (∀ value ∈ item :: items, JsonValue.Distinct value) →
    2 * (stringifyItems numberText (item :: items)).length + 1 ≤ fuel →
    readItems numberOf fuel (stringifyItems numberText (item :: items) ++ rest) =
      some (item :: items, rest)

def ReadsFields (numberText : ν → Text) (numberOf : Text → Option ν) (fuel : ℕ) : Prop :=
  ∀ field fields rest, (∀ other ∈ field :: fields, JsonValue.Distinct other.2) →
    2 * (stringifyFields numberText (field :: fields)).length + 1 ≤ fuel →
    readFields numberOf fuel (stringifyFields numberText (field :: fields) ++ rest) =
      some (field :: fields, rest)

variable {fuel : ℕ}

theorem readsValues_succ (numbers : Numbers numberText numberOf)
    (readsItems : ReadsItems numberText numberOf fuel)
    (readsFields : ReadsFields numberText numberOf fuel) :
    ReadsValues numberText numberOf (fuel + 1) := by
  intro value rest distinct ends enough
  match value with
  | .null => rfl
  | .bool true => rfl
  | .bool false => rfl
  | .num n =>
    have read := readScalar_number numbers n ends
    obtain ⟨u, more, text, number⟩ := numbers.head n
    rw [stringify]
    rw [text, List.cons_append] at read ⊢
    rw [readValue, skipBlanks_cons (not_isBlank_of_isNumberUnit number)]
    dsimp only
    rw [if_neg (ne_of_isNumberUnit number (by decide)),
      if_neg (ne_of_isNumberUnit number (by decide)),
      if_neg (ne_of_isNumberUnit number (by decide)), read]
  | .str text =>
    rw [stringify, quote, List.cons_append, readValue, skipBlanks_cons (by decide)]
    dsimp only
    rw [if_pos rfl, readString_quoteFrom]
    rfl
  | .arr [] => rfl
  | .arr (item :: items) =>
    have each : ∀ value ∈ item :: items, value.Distinct := by
      cases distinct with
      | arr _ each => exact each
    rw [stringify, List.length_cons] at enough
    have read := readsItems item items rest each (by omega)
    obtain ⟨v, more, text, token, open_⟩ := stringifyItems_head numbers item items
    rw [text, List.cons_append] at read
    rw [stringify, text, List.cons_append, readValue, skipBlanks_cons (by decide)]
    dsimp only
    rw [if_neg (by decide), if_pos rfl, List.cons_append, skipBlanks_cons token]
    dsimp only
    rw [if_neg open_, read]
    rfl
  | .obj [] => rfl
  | .obj (field :: fields) =>
    obtain ⟨keys, each⟩ : ((field :: fields).map Prod.fst).Nodup ∧
        ∀ other ∈ field :: fields, other.2.Distinct := by
      cases distinct with
      | obj _ keys each => exact ⟨keys, each⟩
    rw [stringify, List.length_cons] at enough
    have read := readsFields field fields rest each (by omega)
    obtain ⟨more, text⟩ := stringifyFields_head numberText field fields
    rw [text, List.cons_append] at read
    rw [stringify, text, List.cons_append, readValue, skipBlanks_cons (by decide)]
    dsimp only
    rw [if_neg (by decide), if_neg (by decide), if_pos rfl, List.cons_append,
      skipBlanks_cons (by decide)]
    dsimp only
    rw [if_neg (by decide), read]
    exact congrArg (fun fields => some (JsonValue.obj fields, rest)) (foldl_assign keys)

theorem readsItems_succ (readsValues : ReadsValues numberText numberOf fuel)
    (readsItems : ReadsItems numberText numberOf fuel) :
    ReadsItems numberText numberOf (fuel + 1) := by
  intro item items rest distinct enough
  match items with
  | [] =>
    rw [stringifyItems, List.length_append, List.length_singleton] at enough
    rw [stringifyItems, List.append_assoc, List.singleton_append, readItems,
      readsValues item _ (distinct item List.mem_cons_self) (endsNumber_cons (by decide))
        (by omega)]
    dsimp only
    rw [skipBlanks_cons (by decide)]
    rfl
  | next :: items =>
    rw [stringifyItems, List.length_append, List.length_cons] at enough
    rw [stringifyItems, List.append_assoc, List.cons_append, readItems,
      readsValues item _ (distinct item List.mem_cons_self) (endsNumber_cons (by decide))
        (by omega)]
    dsimp only
    rw [skipBlanks_cons (by decide)]
    dsimp only
    rw [if_pos rfl, readsItems next items rest
      (fun value member => distinct value (List.mem_cons_of_mem item member)) (by omega)]
    rfl

theorem readsFields_succ (readsValues : ReadsValues numberText numberOf fuel)
    (readsFields : ReadsFields numberText numberOf fuel) :
    ReadsFields numberText numberOf (fuel + 1) := by
  intro field fields rest distinct enough
  obtain ⟨key, value⟩ := field
  match fields with
  | [] =>
    simp only [stringifyFields, List.length_append, List.length_cons, List.length_nil] at enough
    rw [stringifyFields, List.append_assoc, quote, List.cons_append, readFields,
      skipBlanks_cons (by decide)]
    dsimp only
    rw [if_pos rfl, readString_quoteFrom]
    dsimp only
    rw [List.cons_append, skipBlanks_cons (by decide)]
    dsimp only
    rw [if_pos rfl, List.append_assoc, List.singleton_append, readsValues value _
      (distinct (key, value) List.mem_cons_self) (endsNumber_cons (by decide)) (by omega)]
    dsimp only
    rw [skipBlanks_cons (by decide)]
    rfl
  | next :: fields =>
    simp only [stringifyFields, List.length_append, List.length_cons] at enough
    rw [stringifyFields, List.append_assoc, quote, List.cons_append, readFields,
      skipBlanks_cons (by decide)]
    dsimp only
    rw [if_pos rfl, readString_quoteFrom]
    dsimp only
    rw [List.cons_append, skipBlanks_cons (by decide)]
    dsimp only
    rw [if_pos rfl, List.append_assoc, List.cons_append, readsValues value _
      (distinct (key, value) List.mem_cons_self) (endsNumber_cons (by decide)) (by omega)]
    dsimp only
    rw [skipBlanks_cons (by decide)]
    dsimp only
    rw [if_pos rfl, readsFields next fields rest
      (fun other member => distinct other (List.mem_cons_of_mem _ member)) (by omega)]
    rfl

/-- All of it is read back, by induction on the fuel. -/
theorem reads_stringify (numbers : Numbers numberText numberOf) (fuel : ℕ) :
    ReadsValues numberText numberOf fuel ∧ ReadsItems numberText numberOf fuel ∧
      ReadsFields numberText numberOf fuel := by
  induction fuel with
  | zero => exact ⟨fun _ _ _ _ => by omega, fun _ _ _ _ => by omega, fun _ _ _ _ => by omega⟩
  | succ fuel ih =>
    obtain ⟨values, items, fields⟩ := ih
    exact ⟨readsValues_succ numbers items fields, readsItems_succ values items,
      readsFields_succ values fields⟩

theorem parse_stringify (numbers : Numbers numberText numberOf) {value : JsonValue ν}
    (distinct : value.Distinct) : parse numberOf (stringify numberText value) = some value := by
  have read := (reads_stringify numbers _).1 value [] distinct endsNumber_nil le_rfl
  rw [List.append_nil] at read
  rw [parse, read]
  rfl

end Persai.JsonText
