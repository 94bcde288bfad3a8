import Mathlib.Tactic.SplitIfs
import Persai.ScriptBrowser.FrameDecoder

/-!
# However the stream is cut

`Decoder.finish` is what comes of a decoder when the rest of the stream comes in one piece. A
chunk of whole characters leaves it as it was: the lines it ends are taken in the same order, and
the beginning of a line is kept. The beginning of a long ordinary line is passed on early, and what
comes after it is passed on behind it. Only a frame that the parser would take, and in which a chunk
ends when it is longer than what the decoder keeps, is refused for where the stream is cut.

A chunk that ends inside a character is another matter: its two parts are decoded to U+FFFD.
-/

namespace Persai.ScriptBrowser

open CodeUnits (ofString)

/-! ## The lines of a text -/

/-- What was read before the first line. -/
def prepend (text : List Char) : List (List Char) × List Char → List (List Char) × List Char
  | ([], rest) => ([], text ++ rest)
  | (line :: lines, rest) => ((text ++ line) :: lines, rest)

theorem splitLines_cons {c : Char} (ordinary : c ≠ '\n') (text : List Char) :
    splitLines (c :: text) = prepend [c] (splitLines text) := by
  rw [splitLines, if_neg ordinary]
  rcases splitLines text with ⟨_ | ⟨line, lines⟩, rest⟩ <;> rfl

theorem splitLines_newline (text : List Char) :
    splitLines ('\n' :: text) = ([] :: (splitLines text).1, (splitLines text).2) := by
  rw [splitLines, if_pos rfl]

theorem prepend_append (first second : List Char) (split : List (List Char) × List Char) :
    prepend (first ++ second) split = prepend first (prepend second split) := by
  rcases split with ⟨_ | ⟨line, lines⟩, rest⟩
  · exact Prod.ext rfl (List.append_assoc ..)
  · exact Prod.ext (congrArg (· :: lines) (List.append_assoc ..)) rfl

theorem splitLines_prepend {text : List Char} (oneLine : '\n' ∉ text) (rest : List Char) :
    splitLines (text ++ rest) = prepend text (splitLines rest) := by
  induction text with
  | nil =>
    rw [List.nil_append]
    rcases splitLines rest with ⟨_ | ⟨line, lines⟩, rest⟩ <;> rfl
  | cons c text ih =>
    rw [List.mem_cons, not_or] at oneLine
    rw [List.cons_append, splitLines_cons (Ne.symm oneLine.1), ih oneLine.2, ← prepend_append,
      List.singleton_append]

theorem splitLines_append (text more : List Char) :
    splitLines (text ++ more) =
      ((splitLines text).1 ++ (splitLines ((splitLines text).2 ++ more)).1,
        (splitLines ((splitLines text).2 ++ more)).2) := by
  induction text with
  | nil => rfl
  | cons c text ih =>
    rw [List.cons_append]
    by_cases newline : c = '\n'
    · subst newline
      rw [splitLines_newline, splitLines_newline, ih]
      rfl
    · rw [splitLines_cons newline, splitLines_cons newline, ih]
      rcases splitLines text with ⟨_ | ⟨line, lines⟩, rest⟩
      · exact (splitLines_cons newline (rest ++ more)).symm
      · rfl

theorem splitLines_rest (text : List Char) : '\n' ∉ (splitLines text).2 := by
  induction text with
  | nil => exact List.not_mem_nil
  | cons c text ih =>
    by_cases newline : c = '\n'
    · subst newline
      rwa [splitLines_newline]
    · rw [splitLines_cons newline]
      rcases split : splitLines text with ⟨_ | ⟨line, lines⟩, rest⟩ <;> rw [split] at ih
      · exact List.not_mem_cons_of_ne_of_not_mem (Ne.symm newline) ih
      · exact ih

theorem splitLines_oneLine {text : List Char} (oneLine : '\n' ∉ text) :
    splitLines text = ([], text) := by
  have split := splitLines_prepend oneLine []
  rwa [List.append_nil, splitLines, prepend, List.append_nil] at split

section

variable {base64url : List Char → List UInt8} {jsonParse : List Char → Option (JsonValue ℚ)}

namespace Decoder

/-! ## Taking lines -/

theorem takeLine_pending (d : Decoder) (pending line : List Char) :
    takeLine base64url jsonParse { d with pending } line =
      (takeLine base64url jsonParse d line).map fun d => { d with pending } := by
  unfold takeLine
  dsimp only
  split_ifs
  · rfl
  · cases parseScriptBrowserRequestFrame base64url jsonParse line <;> rfl
  · rfl

theorem takeLines_pending (d : Decoder) (pending : List Char) (lines : List (List Char)) :
    takeLines base64url jsonParse { d with pending } lines =
      (takeLines base64url jsonParse d lines).map fun d => { d with pending } := by
  induction lines generalizing d with
  | nil => rfl
  | cons line lines ih =>
    rw [takeLines, takeLines, takeLine_pending]
    cases takeLine base64url jsonParse d line with
    | none => rfl
    | some next => exact ih next

theorem takeLines_append (d : Decoder) (lines more : List (List Char)) :
    takeLines base64url jsonParse d (lines ++ more) =
      (takeLines base64url jsonParse d lines).bind fun d =>
        takeLines base64url jsonParse d more := by
  induction lines generalizing d with
  | nil => rfl
  | cons line lines ih =>
    rw [List.cons_append, takeLines, takeLines, Option.bind_assoc]
    exact Option.bind_congr fun next _ => ih next

theorem takeLine_open {d next : Decoder} {line : List Char}
    (taken : takeLine base64url jsonParse d line = some next) : next.ordinaryLineOpen = false := by
  unfold takeLine at taken
  split_ifs at taken with ordinary frame
  · obtain rfl := Option.some.inj taken
    rfl
  · obtain ⟨request, -, rfl⟩ := Option.map_eq_some_iff.mp taken
    exact Bool.not_eq_true _ ▸ ordinary
  · obtain rfl := Option.some.inj taken
    exact Bool.not_eq_true _ ▸ ordinary

theorem takeLines_open {d last : Decoder} {lines : List (List Char)}
    (taken : takeLines base64url jsonParse d lines = some last) :
    last.ordinaryLineOpen = (d.ordinaryLineOpen && lines.isEmpty) := by
  induction lines generalizing d with
  | nil =>
    obtain rfl := Option.some.inj taken
    exact (Bool.and_true _).symm
  | cons line lines ih =>
    obtain ⟨next, first, others⟩ := Option.bind_eq_some_iff.mp taken
    rw [ih others, takeLine_open first, Bool.false_and, List.isEmpty_cons, Bool.and_false]

/-! ## The rest in one piece -/

/-- What is passed on. -/
def passed (d : Decoder) : List SdkRequest × List UInt8 := (d.frames, d.ordinaryStdout)

variable (base64url jsonParse) in
def finish (d : Decoder) (text : List Char) : Option (List SdkRequest × List UInt8) :=
  let split := splitLines (d.pending ++ text)
  ((takeLines base64url jsonParse d split.1).bind fun d =>
    flushRemainder { d with pending := split.2 }).map passed

end Decoder

/-- A frame, or the beginning of one, that is longer than what the decoder keeps. -/
def LongFrame (text : List Char) : Prop :=
  isFrame text ∧ maxScriptBrowserRequestBytes * 2 < (Utf8.encode text).length

theorem LongFrame.append {text : List Char} (long : LongFrame text) (rest : List Char) :
    LongFrame (text ++ rest) := by
  refine ⟨List.isPrefixOf_iff_prefix.mpr ?_, ?_⟩
  · exact (List.isPrefixOf_iff_prefix.mp long.1).trans (List.prefix_append ..)
  · rw [Utf8.encode_append, List.length_append]
    exact Nat.lt_add_right _ long.2

variable (base64url jsonParse) in
/-- The line that has begun in that way is refused by the parser. -/
def Refused (begun rest : List Char) : Prop :=
  ∀ line ∈ (splitLines (begun ++ rest)).1.head?,
    parseScriptBrowserRequestFrame base64url jsonParse line = none

namespace Decoder

variable (base64url jsonParse) in
/-- Where a text ends in a long frame, the parser refuses the frame. -/
def CutsRefused (d : Decoder) (texts : List (List Char)) : Prop :=
  ∀ earlier later, texts = earlier ++ later →
    d.ordinaryLineOpen = false ∨ (splitLines (d.pending ++ earlier.flatten)).1 ≠ [] →
    LongFrame (splitLines (d.pending ++ earlier.flatten)).2 →
    Refused base64url jsonParse (splitLines (d.pending ++ earlier.flatten)).2 later.flatten

theorem finish_nil {d : Decoder} (oneLine : '\n' ∉ d.pending) :
    d.finish base64url jsonParse [] = d.flushRemainder.map passed := by
  unfold finish
  rw [List.append_nil, splitLines_oneLine oneLine]
  rfl

/-- An ordinary beginning of a line may be passed on before the rest of the line. -/
theorem finish_early {d : Decoder} (oneLine : '\n' ∉ d.pending) (nonempty : d.pending ≠ [])
    (ordinary : d.ordinaryLineOpen = false → ∀ rest, isFrame (d.pending ++ rest) = false)
    (text : List Char) :
    ({ d.print d.pending with pending := [], ordinaryLineOpen := true } : Decoder).finish
      base64url jsonParse text = d.finish base64url jsonParse text := by
  unfold finish
  dsimp only
  rw [List.nil_append, splitLines_prepend oneLine]
  rcases splitLines text with ⟨_ | ⟨line, lines⟩, rest⟩
  · -- the line is not ended
    have last : (!d.ordinaryLineOpen && isFrame (d.pending ++ rest)) = false := by
      cases opened : d.ordinaryLineOpen with
      | true => rfl
      | false => exact ordinary opened rest
    have more : d.pending ++ rest ≠ [] := fun empty => nonempty (List.append_eq_nil_iff.mp empty).1
    simp only [prepend, takeLines, Option.bind_some, flushRemainder, more, if_false, last,
      Bool.false_eq_true, Bool.not_true, Bool.false_and]
    split_ifs with empty
    · rw [empty, List.append_nil]
      rfl
    · refine congrArg some (Prod.ext rfl ?_)
      simp only [print, passed, Utf8.encode_append, List.append_assoc]
  · have first : takeLine base64url jsonParse
        { d.print d.pending with pending := [], ordinaryLineOpen := true } line =
          (takeLine base64url jsonParse d (d.pending ++ line)).map fun d =>
            { d with pending := [] } := by
      unfold takeLine
      rw [if_pos rfl]
      split_ifs with opened frame
      · simp only [print, Option.map_some, Utf8.encode_append, List.append_assoc]
      · rw [ordinary (Bool.not_eq_true _ ▸ opened)] at frame
        cases frame
      · simp only [print, Option.map_some, Utf8.encode_append, List.append_assoc, opened]
    simp only [prepend, takeLines, first]
    cases takeLine base64url jsonParse d (d.pending ++ line) with
    | none => rfl
    | some next =>
      simp only [Option.map_some, Option.bind_some, takeLines_pending, Option.bind_map]
      rfl

theorem isPrefixOf_append {first second rest : List Char} (short : first.length ≤ second.length)
    (notPrefix : first.isPrefixOf second = false) :
    first.isPrefixOf (second ++ rest) = false := by
  refine Bool.eq_false_iff.mpr fun isPrefix => Bool.eq_false_iff.mp notPrefix ?_
  rw [List.isPrefixOf_iff_prefix] at isPrefix ⊢
  exact List.prefix_of_prefix_length_le isPrefix (List.prefix_append ..) short

theorem length_lt_of_long {text : List Char}
    (long : maxScriptBrowserRequestBytes * 2 < (Utf8.encode text).length) :
    framePrefix.length < text.length := by
  have most := Utf8.length_encode_le text
  have size : framePrefix.length = 31 := by decide +kernel
  rw [maxScriptBrowserRequestBytes] at long
  omega

theorem limitPending_finish {d : Decoder} (oneLine : '\n' ∉ d.pending) {text : List Char}
    (refused : d.ordinaryLineOpen = false → LongFrame d.pending →
      Refused base64url jsonParse d.pending text) :
    (d.limitPending.bind fun d => d.finish base64url jsonParse text) =
      d.finish base64url jsonParse text := by
  unfold limitPending
  split_ifs with long mayBeFrame
  · -- a long frame is refused when its line is ended, and when it is not
    have longer := length_lt_of_long long
    rw [Bool.and_eq_true, Bool.not_eq_true', Bool.or_eq_true] at mayBeFrame
    have frame : isFrame d.pending := by
      refine mayBeFrame.2.resolve_right fun isPrefix => ?_
      exact absurd (List.isPrefixOf_iff_prefix.mp isPrefix).length_le (Nat.not_le.mpr longer)
    have frames (rest : List Char) : isFrame (d.pending ++ rest) :=
      (LongFrame.append ⟨frame, long⟩ rest).1
    have refused := refused mayBeFrame.1 ⟨frame, long⟩
    rw [Refused, splitLines_prepend oneLine] at refused
    unfold finish
    rw [splitLines_prepend oneLine]
    generalize splitLines text = split at refused ⊢
    rcases split with ⟨_ | ⟨line, lines⟩, rest⟩
    · simp only [prepend, takeLines, Option.bind_some, flushRemainder, mayBeFrame.1, frames rest]
      rw [if_neg fun empty => ?_]
      · rfl
      · have none := frames rest
        rw [empty] at none
        exact absurd none (by decide +kernel)
    · have failed := refused _ rfl
      simp only [prepend, takeLines, takeLine, mayBeFrame.1, Bool.false_eq_true, if_false,
        frames line, if_true, failed]
      rfl
  · refine finish_early oneLine ?_ ?_ text
    · rintro empty
      have longer := length_lt_of_long long
      rw [empty] at longer
      exact absurd longer (Nat.not_lt_zero _)
    · rintro opened rest
      have longer := length_lt_of_long long
      rw [opened, Bool.not_false, Bool.true_and, Bool.or_eq_true, not_or] at mayBeFrame
      exact isPrefixOf_append longer.le (Bool.not_eq_true _ ▸ mayBeFrame.1)
  · rfl

theorem limitPending_oneLine {d next : Decoder} (oneLine : '\n' ∉ d.pending)
    (limited : d.limitPending = some next) : '\n' ∉ next.pending := by
  unfold limitPending at limited
  split_ifs at limited
  · obtain rfl := Option.some.inj limited
    exact List.not_mem_nil
  · obtain rfl := Option.some.inj limited
    exact oneLine

/-! ## A chunk -/

theorem finish_split (d : Decoder) (text rest : List Char) :
    d.finish base64url jsonParse (text ++ rest) =
      (takeLines base64url jsonParse d (splitLines (d.pending ++ text)).1).bind fun next =>
        finish base64url jsonParse
          { next with pending := (splitLines (d.pending ++ text)).2 } rest := by
  unfold finish
  dsimp only
  rw [← List.append_assoc, splitLines_append, takeLines_append, Option.bind_assoc,
    Option.map_bind]
  refine Option.bind_congr fun next _ => ?_
  rw [Function.comp_apply, takeLines_pending next (splitLines (d.pending ++ text)).2,
    Option.bind_map]
  rfl

theorem write_finish {d : Decoder} {text : List Char} {texts : List (List Char)}
    (refused : d.CutsRefused base64url jsonParse (text :: texts)) :
    ((d.write base64url jsonParse (Utf8.encode text)).bind fun d =>
        d.finish base64url jsonParse texts.flatten) =
      d.finish base64url jsonParse (text ++ texts.flatten) := by
  unfold write
  rw [finish_split, Utf8.decode_encode, Option.bind_assoc]
  refine Option.bind_congr fun next taken => ?_
  refine limitPending_finish (splitLines_rest _) fun opened long => ?_
  have here := refused [text] texts rfl
  rw [List.flatten_singleton] at here
  refine here ?_ long
  have opened : next.ordinaryLineOpen = false := opened
  rw [takeLines_open taken, Bool.and_eq_false_iff] at opened
  exact opened.imp_right fun present absent => by rw [absent] at present; cases present

/-- What has begun as an ordinary line is not a frame, however it goes on. -/
theorem write_cutsRefused {d next : Decoder} {text : List Char} {texts : List (List Char)}
    (refused : d.CutsRefused base64url jsonParse (text :: texts))
    (written : d.write base64url jsonParse (Utf8.encode text) = some next) :
    next.CutsRefused base64url jsonParse texts := by
  rintro earlier later rfl
  have here := refused (text :: earlier) later rfl
  unfold write at written
  rw [Utf8.decode_encode] at written
  obtain ⟨last, taken, limited⟩ := Option.bind_eq_some_iff.mp written
  have opened := takeLines_open taken
  have oneLine := splitLines_rest (d.pending ++ text)
  rw [List.flatten_cons, ← List.append_assoc, splitLines_append] at here
  generalize splitLines (d.pending ++ text) = split at here limited opened oneLine
  unfold limitPending at limited
  split_ifs at limited
  · obtain rfl := Option.some.inj limited
    rw [splitLines_prepend oneLine] at here
    dsimp only
    rw [List.nil_append]
    generalize splitLines earlier.flatten = more at here ⊢
    rcases more with ⟨_ | ⟨line, lines⟩, rest⟩
    · rintro (closed | ends)
      · cases closed
      · exact absurd rfl ends
    · have ends : split.1 ++ (split.2 ++ line) :: lines ≠ [] := by simp
      exact fun _ => here (.inr ends)
  · obtain rfl := Option.some.inj limited
    dsimp only
    rw [opened]
    intro decided
    refine here ?_
    rcases decided with closed | lines
    · refine (Bool.and_eq_false_iff.mp closed).imp_right fun present => ?_
      exact List.append_ne_nil_of_left_ne_nil
        (fun absent => by rw [absent] at present; cases present) _
    · exact .inr (List.append_ne_nil_of_right_ne_nil _ lines)

theorem write_oneLine {d next : Decoder} {chunk : List UInt8}
    (written : d.write base64url jsonParse chunk = some next) : '\n' ∉ next.pending := by
  obtain ⟨last, taken, limited⟩ := Option.bind_eq_some_iff.mp written
  exact limitPending_oneLine (splitLines_rest _) limited

/-! ## The whole stream -/

theorem writeAll_finish {d : Decoder} (oneLine : '\n' ∉ d.pending) {texts : List (List Char)}
    (refused : d.CutsRefused base64url jsonParse texts) :
    ((d.writeAll base64url jsonParse (texts.map Utf8.encode)).bind flushRemainder).map passed =
      d.finish base64url jsonParse texts.flatten := by
  induction texts generalizing d with
  | nil => exact (finish_nil oneLine).symm
  | cons text texts ih =>
    rw [List.flatten_cons, List.map_cons, writeAll, Option.bind_assoc, Option.map_bind,
      ← write_finish refused]
    refine Option.bind_congr fun next written => ?_
    exact ih (write_oneLine written) (write_cutsRefused refused written)

end Decoder

variable (base64url jsonParse) in
/-- The requests of the lines that are frames, and the lines that are not. -/
def linesOf (text : List Char) : Option (List SdkRequest × List UInt8) :=
  let split := splitLines text
  if isFrame split.2 then none
  else
    ((split.1.filter isFrame).mapM (parseScriptBrowserRequestFrame base64url jsonParse)).map
      fun requests =>
        (requests, Utf8.encode
          ((split.1.filter fun line => !isFrame line).flatMap (· ++ ['\n']) ++ split.2))

namespace Decoder

theorem takeLines_closed {d : Decoder} (closed : d.ordinaryLineOpen = false)
    (lines : List (List Char)) :
    takeLines base64url jsonParse d lines =
      ((lines.filter isFrame).mapM (parseScriptBrowserRequestFrame base64url jsonParse)).map
        fun requests =>
          { d.print ((lines.filter fun line => !isFrame line).flatMap (· ++ ['\n'])) with
            frames := d.frames ++ requests } := by
  induction lines generalizing d with
  | nil => simp [takeLines, print, Utf8.encode]
  | cons line lines ih =>
    rw [takeLines, takeLine, if_neg (ne_true_of_eq_false closed)]
    by_cases frame : isFrame line
    · rw [if_pos frame, List.filter_cons_of_pos frame, List.mapM_cons,
        List.filter_cons_of_neg (by simpa using frame)]
      cases parseScriptBrowserRequestFrame base64url jsonParse line with
      | none => rfl
      | some request =>
        have others := ih (d := { d with frames := d.frames ++ [request] }) closed
        rw [Option.map_some, Option.bind_some, others]
        simp only [print, Option.bind_eq_bind, Option.bind_some, Option.pure_def]
        cases (lines.filter isFrame).mapM (parseScriptBrowserRequestFrame base64url jsonParse) with
        | none => rfl
        | some requests => simp
    · have others := ih (d := d.print (line ++ ['\n'])) closed
      rw [if_neg frame, List.filter_cons_of_neg frame, Option.bind_some,
        List.filter_cons_of_pos (by simpa using frame), others]
      simp only [print, List.flatMap_cons, Utf8.encode_append, List.append_assoc]

theorem finish_new (text : List Char) :
    finish base64url jsonParse new text = linesOf base64url jsonParse text := by
  unfold finish linesOf
  dsimp only [new]
  rw [List.nil_append, takeLines_closed rfl]
  cases ((splitLines text).1.filter isFrame).mapM
      (parseScriptBrowserRequestFrame base64url jsonParse) with
  | none => split_ifs <;> rfl
  | some requests =>
    rw [Option.map_some, Option.map_some, Option.bind_some, flushRemainder]
    dsimp only [print]
    by_cases empty : (splitLines text).2 = []
    · have ordinary : ¬ isFrame [] := by decide +kernel
      rw [if_pos empty, empty, if_neg ordinary, List.append_nil]
      rfl
    · simp only [empty, if_false, Bool.not_false, Bool.true_and]
      split_ifs
      · rfl
      · rw [Utf8.encode_append]
        rfl

end Decoder

/-! ## Two cuttings -/

variable (base64url jsonParse) in
/-- Where a chunk ends in a frame that is longer by then than what the decoder keeps, the parser
refuses the frame. -/
def CutsRefused (chunks : List (List UInt8)) : Prop :=
  ∀ earlier later, chunks = earlier ++ later →
    LongFrame (splitLines (Utf8.decode earlier.flatten)).2 →
    Refused base64url jsonParse (splitLines (Utf8.decode earlier.flatten)).2
      (Utf8.decode later.flatten)

theorem decodeStream_linesOf {chunks : List (List UInt8)}
    (whole : ∀ chunk ∈ chunks, Utf8.IsText chunk)
    (refused : CutsRefused base64url jsonParse chunks) :
    decodeStream base64url jsonParse chunks =
      linesOf base64url jsonParse (Utf8.decode chunks.flatten) := by
  obtain ⟨texts, rfl⟩ := Utf8.exists_texts whole
  rw [← Utf8.encode_flatten, Utf8.decode_encode, ← Decoder.finish_new]
  refine Decoder.writeAll_finish (d := Decoder.new) List.not_mem_nil ?_
  rintro earlier later rfl -
  have here := refused (earlier.map Utf8.encode) (later.map Utf8.encode) List.map_append
  rwa [← Utf8.encode_flatten, ← Utf8.encode_flatten, Utf8.decode_encode, Utf8.decode_encode] at here

variable (base64url jsonParse) in
/-- Two cuttings of one stream, neither inside a character, come to the same: both fail, or both
pass on the requests of the frames and the other lines as they stand. -/
theorem decodeStream_chunking {chunks chunks' : List (List UInt8)}
    (same : chunks.flatten = chunks'.flatten) (whole : ∀ chunk ∈ chunks, Utf8.IsText chunk)
    (whole' : ∀ chunk ∈ chunks', Utf8.IsText chunk)
    (refused : CutsRefused base64url jsonParse chunks)
    (refused' : CutsRefused base64url jsonParse chunks') :
    decodeStream base64url jsonParse chunks = decodeStream base64url jsonParse chunks' ∧
      decodeStream base64url jsonParse chunks =
        linesOf base64url jsonParse (Utf8.decode chunks.flatten) := by
  have first := decodeStream_linesOf whole refused
  refine ⟨?_, first⟩
  rw [first, same, decodeStream_linesOf whole' refused']

theorem length_le_units (text : List Char) :
    text.length ≤ (text.flatMap CodeUnits.unitsOf).length := by
  induction text with
  | nil => exact Nat.le_refl 0
  | cons c text ih =>
    have unit : 0 < (CodeUnits.unitsOf c).length := by
      unfold CodeUnits.unitsOf
      dsimp only
      split_ifs <;> exact Nat.succ_pos _
    rw [List.flatMap_cons, List.length_append, List.length_cons]
    omega

/-- A frame of ASCII characters is never kept for too long: the parser takes fewer. -/
theorem refused_of_ascii {line : List Char} (ascii : ∀ c ∈ line, c.val ≤ 127)
    (long : LongFrame line) : parseScriptBrowserRequestFrame base64url jsonParse line = none := by
  have size : framePrefix.length = 31 := by decide +kernel
  have units := length_le_units (line.drop framePrefix.length)
  have length := long.2
  rw [Utf8.length_encode_ascii ascii, maxScriptBrowserRequestBytes] at length
  rw [List.length_drop, size] at units
  have oversized : (maxScriptBrowserRequestBytes * 4 + 2) / 3 <
      ((line.drop framePrefix.length).flatMap CodeUnits.unitsOf).length := by
    rw [maxScriptBrowserRequestBytes, size]
    omega
  unfold parseScriptBrowserRequestFrame
  dsimp only
  rw [if_pos (Or.inr oversized)]
  exact ite_self _

/-- No frame of a stream is refused for where it is cut, if they are all of ASCII characters. -/
theorem cutsRefused_of_ascii {texts : List (List Char)}
    (ascii : ∀ line ∈ (splitLines texts.flatten).1, isFrame line → ∀ c ∈ line, c.val ≤ 127) :
    CutsRefused base64url jsonParse (texts.map Utf8.encode) := by
  intro earlier later same long line found
  obtain ⟨before, after, rfl, rfl, rfl⟩ := List.map_eq_append_iff.mp same
  rw [← Utf8.encode_flatten, Utf8.decode_encode] at long found
  rw [← Utf8.encode_flatten, Utf8.decode_encode] at found
  rw [List.flatten_append, splitLines_append] at ascii
  have mem := List.mem_of_mem_head? found
  have begins : ∃ rest, line = (splitLines before.flatten).2 ++ rest := by
    rw [splitLines_prepend (splitLines_rest _)] at found
    generalize splitLines after.flatten = split at found
    rcases split with ⟨_ | ⟨first, lines⟩, rest⟩
    · cases found
    · exact ⟨first, (Option.some.inj found).symm⟩
  obtain ⟨rest, rfl⟩ := begins
  have longLine := long.append rest
  exact refused_of_ascii (ascii _ (List.mem_append_right _ mem) longLine.1) longLine

end

/-! ## A frame and a character that is cut -/

namespace Sample

def encoded : List Char :=
  ("eyJhY3Rpb24iOiJzbmFwc2hvdCIsImFyZ3VtZW50cyI6e30sInByb2ZpbGUiOiJwIiwicmVxdWVzdElkIjoi" ++
    "cmVxdWVzdDEiLCJ2ZXJzaW9uIjoxfQ").toList

def request : List Char :=
  ("\x7b\"action\":\"snapshot\",\"arguments\":\x7b\x7d,\"profile\":\"p\"," ++
    "\"requestId\":\"request1\",\"version\":1\x7d").toList

def base64url (text : List Char) : List UInt8 :=
  if text = encoded then Utf8.encode request else []

def jsonParse (text : List Char) : Option (JsonValue ℚ) :=
  if text = request then
    some (.obj [(ofString "action", .str (ofString "snapshot")), (ofString "arguments", .obj []),
      (ofString "profile", .str (ofString "p")), (ofString "requestId", .str (ofString "request1")),
      (ofString "version", .num 1)])
  else none

/-- A line, a frame and a line that is not ended. -/
def stdout : List Char := "é\n".toList ++ framePrefix ++ encoded ++ "\nok".toList

example : ((decodeStream base64url jsonParse [Utf8.encode stdout]).map fun heard =>
    (heard.1.map SdkRequest.profile, heard.2)) =
      some ([ofString "p"], Utf8.encode "é\nok".toList) := by
  decide +kernel

theorem stdout_chunking :
    decodeStream base64url jsonParse
        [Utf8.encode (stdout.take 9), Utf8.encode (stdout.drop 9)] =
      decodeStream base64url jsonParse [Utf8.encode stdout] := by
  have checked : ((splitLines stdout).1.all fun line =>
      !isFrame line || line.all fun c => c.toNat.ble 127) = true := by decide +kernel
  have ascii : ∀ line ∈ (splitLines stdout).1, isFrame line → ∀ c ∈ line, c.val ≤ 127 := by
    intro line mem frame c inside
    have small := List.all_eq_true.mp checked line mem
    rw [frame, Bool.not_true, Bool.false_or] at small
    exact UInt32.le_iff_toNat_le.mpr (Nat.le_of_ble_eq_true (List.all_eq_true.mp small c inside))
  have texts (parts : List (List Char)) : ∀ chunk ∈ parts.map Utf8.encode, Utf8.IsText chunk := by
    intro chunk mem
    obtain ⟨text, -, rfl⟩ := List.mem_map.mp mem
    exact ⟨text, rfl⟩
  have refused {parts : List (List Char)} (whole : parts.flatten = stdout) :
      CutsRefused base64url jsonParse (parts.map Utf8.encode) :=
    cutsRefused_of_ascii (by rwa [whole])
  exact (decodeStream_chunking base64url jsonParse
    (by decide +kernel) (texts [stdout.take 9, stdout.drop 9]) (texts [stdout])
    (refused (by decide +kernel)) (refused List.flatten_singleton)).1

/-- The two bytes of one character. -/
theorem character_cut :
    (decodeStream base64url jsonParse [[0xC3], [0xA9, 0x0A]]).map Prod.snd =
        some (Utf8.encode "\uFFFD\uFFFD\n".toList) ∧
      (decodeStream base64url jsonParse [[0xC3, 0xA9, 0x0A]]).map Prod.snd =
        some [0xC3, 0xA9, 0x0A] := by
  decide +kernel

end Sample

end Persai.ScriptBrowser
