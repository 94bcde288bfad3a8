import Mathlib.Data.List.Basic

/-!
# UTF-8

`encode` writes a text, `decode` reads bytes as decoders that do not fail do: what is not a
character is read as U+FFFD, one for each maximal beginning of a character. What was written is
read back, and nothing else is sure to be.
-/

namespace Persai.Utf8

def encode (text : List Char) : List UInt8 := text.flatMap String.utf8EncodeChar

def isContinuation (b : UInt8) : Bool := 0x80 ≤ b && b ≤ 0xBF

/-- The second bytes that may follow a first one of three or four. -/
def maySecond (first second : UInt8) : Bool :=
  if first = 0xE0 then 0xA0 ≤ second && second ≤ 0xBF
  else if first = 0xED then 0x80 ≤ second && second ≤ 0x9F
  else if first = 0xF0 then 0x90 ≤ second && second ≤ 0xBF
  else if first = 0xF4 then 0x80 ≤ second && second ≤ 0x8F
  else 0xE1 ≤ first && first ≤ 0xF3 && isContinuation second

/-- How many bytes one replacement character stands for. -/
def brokenLength : List UInt8 → ℕ
  | first :: second :: third :: _ =>
    if maySecond first second then
      if 0xF0 ≤ first && isContinuation third then 3 else 2
    else 1
  | [first, second] => if maySecond first second then 2 else 1
  | _ => 1

theorem brokenLength_pos (bytes : List UInt8) : 0 < brokenLength bytes := by
  unfold brokenLength
  split
  · split_ifs <;> decide
  · split_ifs <;> decide
  · decide

def decode (bytes : List UInt8) : List Char :=
  if bytes = [] then []
  else
    match bytes.toByteArray.utf8DecodeChar? 0 with
    | some c => c :: decode (bytes.drop c.utf8Size)
    | none => '\uFFFD' :: decode (bytes.drop (brokenLength bytes))
termination_by bytes.length
decreasing_by
  all_goals
    have nonempty := List.length_pos_iff.mpr ‹bytes ≠ []›
    rw [List.length_drop]
  · have size := c.utf8Size_pos
    omega
  · have broken := brokenLength_pos bytes
    omega

theorem encode_cons (c : Char) (text : List Char) :
    encode (c :: text) = String.utf8EncodeChar c ++ encode text := rfl

theorem encode_append (text more : List Char) :
    encode (text ++ more) = encode text ++ encode more :=
  List.flatMap_append

theorem length_encode_le (text : List Char) : (encode text).length ≤ 4 * text.length := by
  induction text with
  | nil => exact Nat.le_refl 0
  | cons c text ih =>
    have size : c.utf8Size ≤ 4 := c.utf8Size_le_four
    rw [encode_cons, List.length_append, String.length_utf8EncodeChar, List.length_cons]
    omega

theorem length_le_encode (text : List Char) : text.length ≤ (encode text).length := by
  induction text with
  | nil => exact Nat.le_refl 0
  | cons c text ih =>
    have size := c.utf8Size_pos
    rw [encode_cons, List.length_append, String.length_utf8EncodeChar, List.length_cons]
    omega

theorem length_encode_ascii {text : List Char} (ascii : ∀ c ∈ text, c.val ≤ 127) :
    (encode text).length = text.length := by
  induction text with
  | nil => rfl
  | cons c text ih =>
    rw [List.forall_mem_cons] at ascii
    rw [encode_cons, List.length_append, String.length_utf8EncodeChar,
      Char.utf8Size_eq_one_iff.mpr ascii.1, ih ascii.2, List.length_cons, Nat.add_comm]

theorem decode_nil : decode [] = [] := by
  rw [decode, if_pos rfl]

/-- What follows a text is read by itself. -/
theorem decode_encode_append (text : List Char) (bytes : List UInt8) :
    decode (encode text ++ bytes) = text ++ decode bytes := by
  induction text with
  | nil => rfl
  | cons c text ih =>
    have first : (encode (c :: text) ++ bytes).toByteArray.utf8DecodeChar? 0 = some c := by
      rw [encode_cons, List.append_assoc, List.toByteArray_append]
      exact ByteArray.utf8DecodeChar?_utf8EncodeChar_append
    have nonempty : encode (c :: text) ++ bytes ≠ [] := by
      rintro empty
      have length := congrArg List.length empty
      rw [encode_cons, List.length_append, List.length_append, String.length_utf8EncodeChar,
        List.length_nil] at length
      have size := c.utf8Size_pos
      omega
    rw [decode, if_neg nonempty, first]
    dsimp only
    rw [encode_cons, List.append_assoc, ← String.length_utf8EncodeChar, List.drop_left, ih,
      List.cons_append]

theorem decode_encode (text : List Char) : decode (encode text) = text := by
  have read := decode_encode_append text []
  rwa [List.append_nil, decode_nil, List.append_nil] at read

theorem brokenLength_le (bytes : List UInt8) : brokenLength bytes ≤ 3 := by
  unfold brokenLength
  split
  · split_ifs <;> decide
  · split_ifs <;> decide
  · decide

/-- A replacement character takes as many bytes as those it stands for, or more. -/
theorem length_le_encode_decode (bytes : List UInt8) :
    bytes.length ≤ (encode (decode bytes)).length := by
  induction bytes using decode.induct with
  | case1 => exact Nat.zero_le _
  | case2 bytes nonempty c read ih =>
    rw [decode, if_neg nonempty, read]
    dsimp only
    rw [encode_cons, List.length_append, String.length_utf8EncodeChar]
    rw [List.length_drop] at ih
    omega
  | case3 bytes nonempty read ih =>
    have broken := brokenLength_le bytes
    have replacement : (String.utf8EncodeChar '\uFFFD').length = 3 := by decide
    rw [decode, if_neg nonempty, read]
    dsimp only
    rw [encode_cons, List.length_append, replacement]
    rw [List.length_drop] at ih
    omega

/-- What some text is written as. -/
def IsText (bytes : List UInt8) : Prop := ∃ text, encode text = bytes

theorem encode_flatten (texts : List (List Char)) :
    encode texts.flatten = (texts.map encode).flatten := by
  induction texts with
  | nil => rfl
  | cons text texts ih =>
    rw [List.flatten_cons, encode_append, ih, List.map_cons, List.flatten_cons]

theorem exists_texts {pieces : List (List UInt8)} (whole : ∀ piece ∈ pieces, IsText piece) :
    ∃ texts : List (List Char), texts.map encode = pieces := by
  induction pieces with
  | nil => exact ⟨[], rfl⟩
  | cons piece pieces ih =>
    obtain ⟨text, rfl⟩ := whole piece List.mem_cons_self
    obtain ⟨texts, rfl⟩ := ih fun piece mem => whole piece (List.mem_cons_of_mem _ mem)
    exact ⟨text :: texts, rfl⟩

example : decode [0xC3, 0xA9, 0xC3, 0x0A] = ['é', '\uFFFD', '\n'] := by decide +kernel

end Persai.Utf8
