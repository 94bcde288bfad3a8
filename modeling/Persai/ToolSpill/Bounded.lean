import Mathlib.Algebra.BigOperators.Group.List.Basic
import Mathlib.Data.Nat.Digits.Defs
import Persai.Runs
import Persai.SortedFields
import Persai.ToolSpill.Receipts

/-!
# What demoted exchanges weigh

Exchanges are sealed and appended to the history, and older ones are demoted in between; at the
end of the turn all are. Stubs and receipts copy the action of a call, the name of its tool and a
summary, whose lengths nothing bounds once they are escaped.

* `length_wholeArgsSpillStub`, `length_receipt`: what a stub and a receipt weigh;
* `isToolSpillReceiptContent_json`: a receipt is recognised, so that it is not demoted again;
* `Tracked`, `tracked_step`: each exchange of the history is as it was sealed, or demoted;
* `demoted_iff`: the turns after which every exchange is within the limit.
-/

namespace Persai.ToolSpill

open CodeUnits (Text ofString)
open JsonValue (field asString asNumber asArray)
open JsonText Runs

variable {ν : Type}

/-! ## Lengths -/

theorem length_stringifyFields (numberText : ν → Text) (field : Text × JsonValue ν)
    (fields : Fields ν) :
    (stringifyFields numberText (field :: fields)).length =
      ((field :: fields).map fun field =>
        (quote field.1).length + (stringify numberText field.2).length + 2).sum := by
  induction fields generalizing field with
  | nil =>
    obtain ⟨key, value⟩ := field
    simp only [stringifyFields, List.length_append, List.length_cons, List.length_nil,
      List.map_cons, List.map_nil, List.sum_cons, List.sum_nil]
    omega
  | cons next fields ih =>
    obtain ⟨key, value⟩ := field
    rw [List.map_cons, List.sum_cons, ← ih next]
    simp only [stringifyFields, List.length_append, List.length_cons]
    omega

theorem length_stringify_obj (numberText : ν → Text) (field : Text × JsonValue ν)
    (fields : Fields ν) :
    (stringify numberText (.obj (field :: fields))).length =
      ((field :: fields).map fun field =>
        (quote field.1).length + (stringify numberText field.2).length + 2).sum + 1 := by
  rw [stringify, List.length_cons, length_stringifyFields]

/-- What an optional text field weighs. -/
def optionalLength (value : Option Text) (keyLength : ℕ) : ℕ :=
  value.elim 0 fun text => keyLength + 2 + (quote text).length

/-- What the marker for whole arguments weighs. -/
def wholeStubLength (js : Js ν) (arguments : Fields ν) (spillPath : Text) (chars : ℕ) : ℕ :=
  40 + (quote spillPath).length + (natText js chars).length +
    optionalLength ((field "action" arguments).bind asString) 8

theorem length_wholeArgsSpillStub (js : Js ν) (arguments : Fields ν) (spillPath : Text)
    (chars : ℕ) :
    (argsText js (wholeArgsSpillStub js arguments spillPath chars)).length =
      wholeStubLength js arguments spillPath chars := by
  have marker : (quote (ofString "__spilled_args")).length = 16 := by decide
  have path : (quote (ofString "path")).length = 6 := by decide
  have chars_ : (quote (ofString "chars")).length = 7 := by decide
  have action : (quote (ofString "action")).length = 8 := by decide
  have true_ : (ofString "true").length = 4 := by decide
  unfold argsText wholeArgsSpillStub wholeStubLength optionalLength
  cases (field "action" arguments).bind asString with
  | none =>
    rw [Option.map_none, Option.toList_none, List.append_nil, length_stringify_obj]
    simp only [List.map_cons, List.map_nil, List.sum_cons, List.sum_nil, stringify, marker, path,
      chars_, true_, natText, Option.elim_none]
    omega
  | some text =>
    rw [Option.map_some, Option.toList_some, List.cons_append, length_stringify_obj]
    simp only [List.cons_append, List.nil_append, List.map_cons, List.map_nil, List.sum_cons,
      List.sum_nil, stringify, marker, path, chars_, action, true_, natText, Option.elim_some]
    omega

/-- What a receipt weighs. -/
def Receipt.length (js : Js ν) (receipt : Receipt) : ℕ :=
  86 + (quote receipt.status).length + (quote receipt.tool).length +
    (natText js receipt.chars).length + (natText js receipt.bytes).length +
    (quote receipt.path).length + (quote receipt.summary).length +
    (quote receipt.spillKind.text).length + optionalLength receipt.action 8 +
    optionalLength receipt.sha256 8

theorem length_receipt (js : Js ν) (receipt : Receipt) :
    (stringify js.numberText (receipt.json js)).length = receipt.length js := by
  have keys : (quote (ofString "status")).length = 8 ∧ (quote (ofString "tool")).length = 6 ∧
      (quote (ofString "chars")).length = 7 ∧ (quote (ofString "bytes")).length = 7 ∧
      (quote (ofString "path")).length = 6 ∧ (quote (ofString "summary")).length = 9 ∧
      (quote (ofString "truncated")).length = 11 ∧ (quote (ofString "spillKind")).length = 11 ∧
      (quote (ofString "action")).length = 8 ∧ (quote (ofString "sha256")).length = 8 ∧
      (ofString "true").length = 4 := by decide
  obtain ⟨status, tool, chars, bytes, path, summary, truncated, spillKind, action, sha256,
    true_⟩ := keys
  unfold Receipt.json Receipt.length optionalLength
  rw [List.cons_append, List.cons_append, length_stringify_obj]
  simp only [List.cons_append, List.nil_append, List.map_cons, List.map_append, List.sum_cons,
    List.sum_append, stringify, status, tool, chars, bytes, path, summary, truncated, spillKind,
    true_, natText]
  have optional : ∀ (name : String) (value : Option Text),
      (((value.map fun text => (ofString name, (.str text : JsonValue ν))).toList.map fun field =>
        (quote field.1).length + (stringify js.numberText field.2).length + 2)).sum =
        value.elim 0 fun text => (quote (ofString name)).length + 2 + (quote text).length := by
    intro name value
    cases value with
    | none => rfl
    | some text =>
      simp only [Option.map_some, Option.toList_some, List.map_cons, List.map_nil, List.sum_cons,
        List.sum_nil, stringify, Option.elim_some]
      omega
  rw [optional "action", optional "sha256", action, sha256]
  omega

/-! ## Receipts are recognised -/

theorem distinct_json (js : Js ν) (receipt : Receipt) : (receipt.json js).Distinct := by
  unfold Receipt.json
  have keys : ∀ a b : List Text, (a = [] ∨ a = [ofString "action"]) →
      (b = [] ∨ b = [ofString "sha256"]) → (([ofString "status", ofString "tool",
        ofString "chars", ofString "bytes", ofString "path", ofString "summary",
        ofString "truncated", ofString "spillKind"] ++ a) ++ b).Nodup := by
    rintro a b (rfl | rfl) (rfl | rfl) <;> decide
  refine .obj _ ?_ ?_
  · simp only [List.map_append, List.map_cons, List.map_nil]
    apply keys
    · cases receipt.action <;> simp
    · cases receipt.sha256 <;> simp
  · intro entry mem
    simp only [List.mem_append, List.mem_cons, List.not_mem_nil, or_false, Option.mem_toList,
      Option.map_eq_some_iff] at mem
    rcases mem with (((rfl | rfl | rfl | rfl | rfl | rfl | rfl | rfl) | ⟨_, -, rfl⟩) |
      ⟨_, -, rfl⟩) <;> constructor

theorem parse_json (js : Js ν) (receipt : Receipt) :
    parse js.numberOf (stringify js.numberText (receipt.json js)) = some (receipt.json js) :=
  parse_stringify js.numbers (distinct_json js receipt)

/-- A text between two units that are not blank is trimmed. -/
theorem trim_eq_self {u v : UInt16} {text : Text} (first : CodeUnits.isWhitespace u = false)
    (last : CodeUnits.isWhitespace v = false) :
    CodeUnits.trim (u :: text ++ [v]) = u :: text ++ [v] := by
  unfold CodeUnits.trim strip
  rw [List.cons_append, List.dropWhile_cons_of_neg (by simp [first]), ← List.cons_append,
    List.rdropWhile_concat_neg _ _ _ (by simp [last])]

theorem exists_stringifyFields (numberText : ν → Text) (fields : Fields ν) :
    ∃ text, stringifyFields numberText fields = text ++ [125] := by
  induction fields with
  | nil => exact ⟨[], rfl⟩
  | cons field fields ih =>
    obtain ⟨key, value⟩ := field
    cases fields with
    | nil => exact ⟨quote key ++ 58 :: stringify numberText value, by simp [stringifyFields]⟩
    | cons next fields =>
      obtain ⟨text, rest⟩ := ih
      exact ⟨quote key ++ 58 :: (stringify numberText value ++ 44 :: text), by
        simp [stringifyFields, rest]⟩

theorem trim_stringify_obj (numberText : ν → Text) (fields : Fields ν) :
    CodeUnits.trim (stringify numberText (.obj fields)) = stringify numberText (.obj fields) := by
  obtain ⟨text, written⟩ := exists_stringifyFields numberText fields
  rw [stringify, written]
  exact trim_eq_self (by decide) (by decide)

/-- The fields of a receipt that is read back. -/
structure ReadsBack (js : Js ν) (receipt : Receipt) (fields : Fields ν) : Prop where
  status : field "status" fields = some (.str receipt.status)
  chars : field "chars" fields = some (.num (js.ofNat receipt.chars))
  bytes : field "bytes" fields = some (.num (js.ofNat receipt.bytes))
  path : field "path" fields = some (.str receipt.path)
  truncated : field "truncated" fields = some (.bool true)
  spillKind : field "spillKind" fields = some (.str receipt.spillKind.text)

theorem readsBack (js : Js ν) (receipt : Receipt) :
    ∃ fields, (parse js.numberOf (stringify js.numberText (receipt.json js))).bind
        JsonValue.asObject = some fields ∧ ReadsBack js receipt fields := by
  have parsed := parse_json js receipt
  have distinct := distinct_json js receipt
  unfold Receipt.json at parsed distinct
  rw [Receipt.json, parsed]
  cases distinct with
  | obj _ keys _ =>
    refine ⟨_, rfl, ?_⟩
    constructor <;> exact (SortedFields.lookup_eq_some_iff keys).mpr (by simp)

theorem isToolSpillReceiptContent_json (js : Js ν) (receipt : Receipt) (path : receipt.path ≠ []) :
    isToolSpillReceiptContent js (stringify js.numberText (receipt.json js)) = true := by
  have trimmed : CodeUnits.trim (stringify js.numberText (receipt.json js)) =
      stringify js.numberText (receipt.json js) := trim_stringify_obj _ _
  have starts : (stringify js.numberText (receipt.json js)).head? = some 123 := by
    simp [Receipt.json, stringify]
  have kind : [SpillKind.args, .result, .both].any
      (fun known => receipt.spillKind.text == known.text) = true := by
    cases receipt.spillKind <;> decide
  obtain ⟨fields, read, back⟩ := readsBack js receipt
  unfold isToolSpillReceiptContent
  simp only [trimmed, starts, read, back.truncated, isTrue, stringField, back.path,
    back.spillKind, asString, Option.bind_some, Option.any_some, kind]
  simp [nonEmpty, path]

/-! ## Demoting one exchange -/

/-- An exchange demoted by its seal. -/
def demoteWith (js : Js ν) (sealed : Option Seal) (exchange : Exchange ν) : Exchange ν :=
  match sealed.bind (buildResultReceiptFromSeal js exchange) with
  | some content =>
    { exchange with toolResult := { exchange.toolResult with content } }
  | none => exchange

section
variable {js : Js ν} {sealed : Option Seal} {exchange : Exchange ν}

@[simp] theorem toolCall_demoteWith :
    (demoteWith js sealed exchange).toolCall = exchange.toolCall := by
  unfold demoteWith
  split <;> rfl

@[simp] theorem resolveToolCallId_demoteWith :
    resolveToolCallId (demoteWith js sealed exchange) = resolveToolCallId exchange := by
  unfold demoteWith
  split <;> rfl

/-- What is written is a receipt, which is recognised. -/
theorem recognised_of_written {s : Seal} {content : Text}
    (written : buildResultReceiptFromSeal js exchange s = some content) :
    isToolSpillReceiptContent js content = true := by
  unfold buildResultReceiptFromSeal at written
  generalize (if s.spillKind = .args then SpillKind.result else s.spillKind) = kind at written
  split at written
  · cases written
  · rename_i path given
    dsimp only at written
    split at written
    · cases written
    · cases written
      apply isToolSpillReceiptContent_json
      simpa [buildToolSpillReceipt] using (Option.filter_eq_some_iff.mp given).2

theorem buildResultReceiptFromSeal_of_recognised {s : Seal}
    (recognised : isToolSpillReceiptContent js exchange.toolResult.content = true) :
    buildResultReceiptFromSeal js exchange s = none := by
  unfold buildResultReceiptFromSeal
  split
  · rfl
  · rw [if_pos recognised]

/-- Demoting again changes nothing. -/
theorem demoteWith_demoteWith :
    demoteWith js sealed (demoteWith js sealed exchange) = demoteWith js sealed exchange := by
  cases sealed with
  | none => rfl
  | some s =>
    cases written : buildResultReceiptFromSeal js exchange s with
    | none =>
      have same : demoteWith js (some s) exchange = exchange := by
        simp [demoteWith, written]
      rw [same, same]
    | some content =>
      have after : demoteWith js (some s) exchange =
          { exchange with toolResult := { exchange.toolResult with content } } := by
        simp [demoteWith, written]
      have again : buildResultReceiptFromSeal js
          { exchange with toolResult := { exchange.toolResult with content } } s = none :=
        buildResultReceiptFromSeal_of_recognised (recognised_of_written written)
      rw [after, demoteWith, Option.bind_some, again]

end

/-! ## Sealing one exchange -/

/-- An exchange that is sealed, and what the write of its result gives. -/
structure Finalize (ν : Type) where
  ctx : SealContext
  written : Option (Text × ℕ)
  exchange : Exchange ν

namespace Finalize

variable (js : Js ν) (f : Finalize ν)

def sealed : Option (Exchange ν × Option Seal) :=
  sealToolExchangeSpill js f.ctx f.written f.exchange

def callId : Text := resolveToolCallId f.exchange

def content : Text := f.exchange.toolResult.content

def tool : Text := resolveToolName f.exchange

def serializedArgs : Text := argsText js f.exchange.arguments

def argsOver : Bool := exceedsToolWireSoftMax (f.serializedArgs js)

def resultOver : Bool := exceedsToolWireSoftMax f.content

def argsPath : Text := (buildToolSpillPath js f.ctx f.callId "in" "json").getD []

def resultPath : Text :=
  (buildToolSpillPath js f.ctx f.callId "out" (detectSpillExtension js f.content)).getD []

def bytes : ℕ := (f.written.map Prod.snd).getD (byteLength f.content)

def digest : Text := (f.written.map Prod.fst).getD (js.sha256 f.content)

def status : Text := if f.exchange.isError then ofString "error" else ofString "ok"

def summary : Text :=
  summarizeSpillBody js (buildToolAwareSummarySource js f.tool f.content f.exchange.isError)

def action : Option Text := resultAction js f.exchange.arguments f.content

/-- The receipt that the exchange's own result is to have. -/
def receipt : Receipt where
  status := f.status
  tool := f.tool
  chars := f.content.length
  bytes := f.bytes
  path := f.resultPath js
  summary := f.summary js
  spillKind := if f.argsOver js then .both else .result
  action := nonEmpty (f.action js)
  sha256 := nonEmpty (some (f.digest js))

@[simp] theorem path_receipt : (f.receipt js).path = f.resultPath js := by rw [receipt]

end Finalize

/-- What sealing an exchange gives. -/
structure SealedAs (js : Js ν) (f : Finalize ν) (exchange : Exchange ν) (sealed : Option Seal) :
    Prop where
  callId : resolveToolCallId exchange = f.callId
  content : exchange.toolResult.content = f.content
  arguments : exchange.arguments =
    if f.argsOver js then
      stubOversizedToolArguments js f.exchange.arguments (f.argsPath js)
        (f.serializedArgs js).length
    else f.exchange.arguments
  receipt : sealed.bind (buildResultReceiptFromSeal js exchange) =
    if f.resultOver = true ∧ isToolSpillReceiptContent js f.content = false then
      some (stringify js.numberText ((f.receipt js).json js))
    else none
  small : f.argsOver js = false → f.resultOver = false → exchange = f.exchange
  sealId : ∀ s, sealed = some s → s.toolCallId = f.callId

theorem buildToolSpillPath_ne_nil {js : Js ν} {ctx : SealContext} {toolCallId path : Text}
    {direction ext : String}
    (built : buildToolSpillPath js ctx toolCallId direction ext = some path) :
    path ≠ [] := by
  obtain ⟨root, -, rfl⟩ := Option.map_eq_some_iff.mp built
  have slash : ofString "/" ≠ [] := by decide
  simp [slash]

theorem sealedAs {js : Js ν} {f : Finalize ν} {exchange : Exchange ν} {sealed : Option Seal}
    (done : f.sealed js = some (exchange, sealed)) : SealedAs js f exchange sealed := by
  unfold Finalize.sealed sealToolExchangeSpill at done
  dsimp only at done
  split at done
  · rename_i small
    simp only [Bool.and_eq_true, Bool.not_eq_true'] at small
    cases done
    refine ⟨rfl, rfl, ?_, ?_, fun _ _ => rfl, nofun⟩
    · rw [if_neg]
      simpa [Finalize.argsOver, Finalize.serializedArgs] using small.1
    · rw [if_neg]
      · rfl
      · simp [Finalize.resultOver, Finalize.content, small.2]
  · rename_i large
    obtain ⟨inPath, inBuilt, rest⟩ := Option.bind_eq_some_iff.mp done
    obtain ⟨outPath, outBuilt, made⟩ := Option.bind_eq_some_iff.mp rest
    simp only [Option.some.injEq, Prod.mk.injEq] at made
    obtain ⟨rfl, rfl⟩ := made
    have argsPath : f.argsPath js = inPath := by
      rw [Finalize.argsPath, Finalize.callId, inBuilt, Option.getD_some]
    have resultPath : f.resultPath js = outPath := by
      rw [Finalize.resultPath, Finalize.callId, Finalize.content, outBuilt, Option.getD_some]
    refine ⟨rfl, rfl, ?_, ?_, ?_, ?_⟩
    · rw [argsPath]
      rfl
    · have path : nonEmpty (some outPath) = some outPath := by
        simp [nonEmpty, buildToolSpillPath_ne_nil outBuilt]
      cases large : exceedsToolWireSoftMax f.exchange.toolResult.content with
      | false =>
        have within : f.resultOver = false := large
        simp [buildResultReceiptFromSeal, nonEmpty, within]
      | true =>
        have beyond : f.resultOver = true := large
        simp only [Option.bind_some, buildResultReceiptFromSeal, if_true, path, Option.getD_some,
          beyond, true_and]
        cases looks : isToolSpillReceiptContent js f.exchange.toolResult.content with
        | true =>
          have looks' : isToolSpillReceiptContent js f.content = true := looks
          rw [if_pos rfl, if_neg (by simp [looks'])]
        | false =>
          have looks' : isToolSpillReceiptContent js f.content = false := looks
          rw [if_neg Bool.false_ne_true, if_pos looks', ← resultPath]
          have args :
              f.argsOver js = exceedsToolWireSoftMax (argsText js f.exchange.arguments) := rfl
          refine congrArg
            (fun receipt => some (stringify js.numberText (Receipt.json js receipt))) ?_
          unfold Finalize.receipt buildToolSpillReceipt
          rw [args]
          cases exceedsToolWireSoftMax (argsText js f.exchange.arguments) <;> rfl
    · intro args result
      exact absurd (by simp [Finalize.argsOver, Finalize.serializedArgs, Finalize.resultOver,
        Finalize.content] at args result; simp [args, result]) large
    · intro s own
      cases own
      rfl

/-! ## Turns -/

inductive Event (ν : Type) where
  | finalize (f : Finalize ν)
  | demoteOlder (preserveFromIndex : Option ℤ)

/-- The call id of an exchange that is finalized. -/
def Event.callId : Event ν → Option Text
  | .finalize f => some f.callId
  | .demoteOlder _ => none

/-- The history and the seals of a turn, and the exchanges as they were before they were sealed. -/
structure Turn (ν : Type) where
  history : List (Exchange ν) := []
  sealsByCallId : KeyedTable Text Seal := ∅
  originals : List (Finalize ν) := []

/-- The seal of an exchange, if it has one, under its call id. -/
def setSeal (sealsByCallId : KeyedTable Text Seal) : Option Seal → KeyedTable Text Seal
  | none => sealsByCallId
  | some sealed => sealsByCallId.put sealed.toolCallId sealed

def step (js : Js ν) (s : Turn ν) : Event ν → Turn ν
  | .finalize f =>
    match f.sealed js with
    | none => s
    | some (exchange, sealed) =>
      { history := s.history ++ [exchange]
        sealsByCallId := setSeal s.sealsByCallId sealed
        originals := s.originals ++ [f] }
  | .demoteOlder preserveFromIndex =>
    { s with
      history := demoteOlderToolExchangesToReceipts js s.history s.sealsByCallId preserveFromIndex }

/-- The exchange is as it was sealed, or demoted by its own seal. -/
def Follows (js : Js ν) (f : Finalize ν) (exchange : Exchange ν) : Prop :=
  ∃ first sealed, f.sealed js = some (first, sealed) ∧
    (exchange = first ∨ exchange = demoteWith js sealed first)

/-- Each exchange of the history follows its original, whose seal is the one under its call id. -/
structure Tracked (js : Js ν) (s : Turn ν) : Prop where
  history : List.Forall₂ (Follows js) s.originals s.history
  seals : ∀ f ∈ s.originals, ∀ first sealed, f.sealed js = some (first, sealed) →
    s.sealsByCallId.get? f.callId = sealed
  fresh : ∀ k, (∀ f ∈ s.originals, f.callId ≠ k) → s.sealsByCallId.get? k = none

section
variable {js : Js ν} {s : Turn ν} {f : Finalize ν} {exchange : Exchange ν}

theorem Follows.callId (follows : Follows js f exchange) :
    resolveToolCallId exchange = f.callId := by
  obtain ⟨first, sealed, done, rfl | rfl⟩ := follows
  · exact (sealedAs done).callId
  · rw [resolveToolCallId_demoteWith]
    exact (sealedAs done).callId

/-- Demoting an exchange of the history demotes it by its own seal. -/
theorem Tracked.demoted (tracked : Tracked js s) (mem : f ∈ s.originals)
    (follows : Follows js f exchange) :
    ∃ first sealed, f.sealed js = some (first, sealed) ∧
      demoteExchangeResultToReceipt js s.sealsByCallId exchange = demoteWith js sealed first := by
  have own := follows.callId
  obtain ⟨first, sealed, done, same⟩ := follows
  refine ⟨first, sealed, done, ?_⟩
  have here : demoteExchangeResultToReceipt js s.sealsByCallId exchange =
      demoteWith js (s.sealsByCallId.get? (resolveToolCallId exchange)) exchange := rfl
  rw [here, own, tracked.seals f mem first sealed done]
  rcases same with rfl | rfl
  · rfl
  · exact demoteWith_demoteWith

theorem forall₂_of_mem {α β : Type} {R S : α → β → Prop} {xs : List α} {ys : List β}
    (related : List.Forall₂ R xs ys) (imp : ∀ x ∈ xs, ∀ y, R x y → S x y) :
    List.Forall₂ S xs ys := by
  induction related with
  | nil => exact .nil
  | cons here _ ih =>
    exact .cons (imp _ (.head _) _ here) (ih fun x mem => imp x (.tail _ mem))

/-- After demoting some of the history each exchange still follows its original. -/
theorem Tracked.demoteOlder (tracked : Tracked js s) (cutoff : ℕ) :
    List.Forall₂ (Follows js) s.originals
      ((s.history.take cutoff).map (demoteExchangeResultToReceipt js s.sealsByCallId) ++
        s.history.drop cutoff) := by
  have first := List.forall₂_take cutoff tracked.history
  have second := List.forall₂_drop cutoff tracked.history
  rw [← List.take_append_drop cutoff s.originals]
  refine List.rel_append (R := Follows js) ?_ second
  rw [List.forall₂_map_right_iff]
  refine forall₂_of_mem first fun f mem exchange follows => ?_
  obtain ⟨first, sealed, done, demoted⟩ := tracked.demoted (List.mem_of_mem_take mem) follows
  exact ⟨first, sealed, done, .inr demoted⟩

theorem tracked_step (tracked : Tracked js s) (e : Event ν)
    (fresh : ∀ k ∈ e.callId, ∀ f ∈ s.originals, f.callId ≠ k) : Tracked js (step js s e) := by
  cases e with
  | demoteOlder preserveFromIndex => exact ⟨tracked.demoteOlder _, tracked.seals, tracked.fresh⟩
  | finalize f =>
    have unused := fresh f.callId rfl
    unfold step
    dsimp only
    cases done : f.sealed js with
    | none => exact tracked
    | some result =>
      obtain ⟨exchange, sealed⟩ := result
      have as_ := sealedAs done
      have table : ∀ k, (setSeal s.sealsByCallId sealed).get? k =
          if k = f.callId then sealed else s.sealsByCallId.get? k := by
        intro k
        cases sealed with
        | none =>
          by_cases own : k = f.callId
          · rw [if_pos own, own]
            exact tracked.fresh _ unused
          · rw [if_neg own]
            rfl
        | some seal_ => rw [setSeal, KeyedTable.get?_put, as_.sealId seal_ rfl]
      refine ⟨?_, ?_, ?_⟩
      · exact List.rel_append (R := Follows js) tracked.history
          (.cons ⟨exchange, sealed, done, .inl rfl⟩ .nil)
      · intro g mem first sealed' done'
        dsimp only
        rw [table]
        rcases List.mem_append.mp mem with before | new
        · rw [if_neg (unused g before)]
          exact tracked.seals g before first sealed' done'
        · obtain rfl := List.mem_singleton.mp new
          rw [if_pos rfl]
          rw [done] at done'
          cases done'
          rfl
      · intro k others
        dsimp only
        rw [table, if_neg (fun own => others f (by simp) own.symm)]
        exact tracked.fresh k fun g mem => others g (List.mem_append_left _ mem)

theorem originals_step (js : Js ν) (s : Turn ν) (e : Event ν) :
    ∀ f ∈ (step js s e).originals, f ∈ s.originals ∨ e = .finalize f := by
  intro f mem
  cases e with
  | demoteOlder => exact .inl mem
  | finalize g =>
    unfold step at mem
    dsimp only at mem
    split at mem
    · exact .inl mem
    · rcases List.mem_append.mp mem with before | new
      · exact .inl before
      · obtain rfl := List.mem_singleton.mp new
        exact .inr rfl

theorem originals_run (js : Js ν) (s : Turn ν) (es : List (Event ν)) :
    ∀ f ∈ (run (step js) s es).originals, f ∈ s.originals ∨ .finalize f ∈ es := by
  induction es generalizing s with
  | nil => exact fun _ => .inl
  | cons e es ih =>
    intro f mem
    rcases ih _ f mem with before | later
    · rcases originals_step js s e f before with known | rfl
      · exact .inl known
      · exact .inr (.head _)
    · exact .inr (.tail _ later)

theorem tracked_run {es : List (Event ν)} (tracked : Tracked js s)
    (fresh : ∀ k ∈ es.filterMap Event.callId, ∀ f ∈ s.originals, f.callId ≠ k)
    (distinct : (es.filterMap Event.callId).Nodup) : Tracked js (run (step js) s es) := by
  induction es generalizing s with
  | nil => exact tracked
  | cons e es ih =>
    rw [run_cons]
    have here : ∀ k ∈ e.callId, ∀ f ∈ s.originals, f.callId ≠ k := by
      intro k own
      apply fresh
      rw [List.filterMap_cons, Option.mem_def.mp own]
      exact .head _
    have later : ∀ k ∈ es.filterMap Event.callId, k ∈ (e :: es).filterMap Event.callId := by
      intro k mem
      rw [List.filterMap_cons]
      split
      · exact mem
      · exact .tail _ mem
    refine ih (tracked_step tracked e here) ?_ ?_
    · intro k mem f known
      rcases originals_step js s e f known with before | rfl
      · exact fresh k (later k mem) f before
      · rw [List.filterMap_cons, Event.callId] at distinct
        intro same
        exact (List.nodup_cons.mp distinct).1 (same ▸ mem)
    · rw [List.filterMap_cons] at distinct
      split at distinct
      · exact distinct
      · exact (List.nodup_cons.mp distinct).2

end

/-! ## Weights -/

section
variable (js : Js ν)

/-- Replacing the oversized fields is enough for the arguments. -/
def FieldsFit (arguments : Fields ν) (spillPath : Text) : Prop :=
  seriesOversized js arguments = false ∧ (stubFields js spillPath arguments).2 = true ∧
    (argsText js (stubFields js spillPath arguments).1).length ≤ toolWireSoftMaxChars

theorem stub_fits_iff (arguments : Fields ν) (spillPath : Text) (chars : ℕ) :
    (argsText js (stubOversizedToolArguments js arguments spillPath chars)).length ≤
        toolWireSoftMaxChars ↔
      FieldsFit js arguments spillPath ∨
        wholeStubLength js arguments spillPath chars ≤ toolWireSoftMaxChars := by
  rw [← length_wholeArgsSpillStub]
  unfold stubOversizedToolArguments FieldsFit
  cases seriesOversized js arguments with
  | true => simp
  | false =>
    rw [if_neg Bool.false_ne_true]
    obtain ⟨args, replacedField⟩ := stubFields js spillPath arguments
    dsimp only
    by_cases fits : (argsText js args).length ≤ toolWireSoftMaxChars
    · have within : exceedsToolWireSoftMax (argsText js args) = false := by
        simpa [exceedsToolWireSoftMax] using fits
      cases replacedField with
      | true => simp [within, fits]
      | false => simp
    · have beyond : exceedsToolWireSoftMax (argsText js args) = true := by
        simpa [exceedsToolWireSoftMax] using fits
      simp [beyond, fits]

variable (f : Finalize ν)

/-- What the exchange's receipt weighs: its texts and numbers, and 86 units around them. -/
def Finalize.receiptLength : ℕ :=
  86 + (quote f.status).length + (quote f.tool).length + (natText js f.content.length).length +
    (natText js f.bytes).length + (quote (f.resultPath js)).length +
    (quote (f.summary js)).length + (if f.argsOver js then 6 else 8) +
    optionalLength (nonEmpty (f.action js)) 8 + optionalLength (nonEmpty (some (f.digest js))) 8

/-- Stubbed arguments fit, by their fields or as a whole, and a long result does not look like a
receipt and has one that fits. -/
def Finalize.Meets : Prop :=
  (f.argsOver js = true → FieldsFit js f.exchange.arguments (f.argsPath js) ∨
    wholeStubLength js f.exchange.arguments (f.argsPath js) (f.serializedArgs js).length ≤
      toolWireSoftMaxChars) ∧
  (f.resultOver = true → isToolSpillReceiptContent js f.content = false ∧
    f.receiptLength js ≤ toolWireSoftMaxChars)

/-- The exchange that is left of `f` is within the limit and speaks of `f`. -/
structure Fits (exchange : Exchange ν) : Prop where
  arguments : (argsText js exchange.arguments).length ≤ toolWireSoftMaxChars
  content : exchange.toolResult.content.length ≤ toolWireSoftMaxChars
  unchanged : (f.serializedArgs js).length ≤ toolWireSoftMaxChars →
    f.content.length ≤ toolWireSoftMaxChars → exchange = f.exchange
  receipt : toolWireSoftMaxChars < f.content.length →
    ∃ fields,
      (parse js.numberOf exchange.toolResult.content).bind JsonValue.asObject = some fields ∧
      field "path" fields = some (.str (f.resultPath js)) ∧
      field "chars" fields = some (.num (js.ofNat f.content.length)) ∧
      field "bytes" fields = some (.num (js.ofNat f.bytes)) ∧
      field "status" fields = some (.str f.status)

end

section
variable {js : Js ν} {f : Finalize ν}

theorem receiptLength_eq : f.receiptLength js = (f.receipt js).length js := by
  have both : (quote (SpillKind.text .both)).length = 6 := by decide
  have result : (quote (SpillKind.text .result)).length = 8 := by decide
  unfold Finalize.receiptLength Receipt.length Finalize.receipt
  cases f.argsOver js
  · simp only [Bool.false_eq_true, if_false, result]
  · simp only [if_true, both]

theorem argsOver_iff :
    f.argsOver js = true ↔ toolWireSoftMaxChars < (f.serializedArgs js).length := by
  simp [Finalize.argsOver, exceedsToolWireSoftMax]

theorem resultOver_iff : f.resultOver = true ↔ toolWireSoftMaxChars < f.content.length := by
  simp [Finalize.resultOver, exceedsToolWireSoftMax]

/-- The content of the demoted exchange: the receipt where the result is long and does not look
like one. -/
theorem SealedAs.content_demoted {exchange : Exchange ν} {sealed : Option Seal}
    (as_ : SealedAs js f exchange sealed) :
    (demoteWith js sealed exchange).toolResult.content =
      if f.resultOver = true ∧ isToolSpillReceiptContent js f.content = false then
        stringify js.numberText ((f.receipt js).json js)
      else f.content := by
  unfold demoteWith
  rw [as_.receipt]
  split
  · rename_i content given
    split at given
    · cases given
      rw [if_pos ‹_›]
    · cases given
  · rename_i given
    split at given
    · cases given
    · rw [if_neg ‹_›, as_.content]

theorem fits_iff {exchange : Exchange ν} {sealed : Option Seal}
    (as_ : SealedAs js f exchange sealed) :
    Fits js f (demoteWith js sealed exchange) ↔ f.Meets js := by
  have arguments : (demoteWith js sealed exchange).arguments = exchange.arguments := by
    unfold Exchange.arguments
    rw [toolCall_demoteWith]
  have args : (argsText js (demoteWith js sealed exchange).arguments).length ≤
      toolWireSoftMaxChars ↔
      (f.argsOver js = true → FieldsFit js f.exchange.arguments (f.argsPath js) ∨
        wholeStubLength js f.exchange.arguments (f.argsPath js) (f.serializedArgs js).length ≤
          toolWireSoftMaxChars) := by
    rw [arguments, as_.arguments]
    by_cases large : f.argsOver js = true
    · rw [if_pos large, stub_fits_iff]
      exact ⟨fun fits _ => fits, fun fits => fits large⟩
    · rw [if_neg large]
      refine iff_of_true ?_ fun large' => absurd large' large
      have within := mt argsOver_iff.mpr large
      exact Nat.le_of_not_lt within
  have content : (demoteWith js sealed exchange).toolResult.content.length ≤
      toolWireSoftMaxChars ↔
      (f.resultOver = true → isToolSpillReceiptContent js f.content = false ∧
        f.receiptLength js ≤ toolWireSoftMaxChars) := by
    rw [as_.content_demoted]
    by_cases large : f.resultOver = true
    · by_cases looks : isToolSpillReceiptContent js f.content = false
      · rw [if_pos ⟨large, looks⟩, length_receipt, ← receiptLength_eq]
        exact ⟨fun fits _ => ⟨looks, fits⟩, fun fits => (fits large).2⟩
      · rw [if_neg fun both => looks both.2]
        have long := resultOver_iff.mp large
        exact iff_of_false (Nat.not_le_of_lt long) fun fits => looks (fits large).1
    · rw [if_neg fun both => large both.1]
      refine iff_of_true ?_ fun large' => absurd large' large
      exact Nat.le_of_not_lt (mt resultOver_iff.mpr large)
  constructor
  · intro fits
    exact ⟨args.mp fits.arguments, content.mp fits.content⟩
  · intro meets
    refine ⟨args.mpr meets.1, content.mpr meets.2, fun small small' => ?_,
      fun long => ?_⟩
    · have within : f.argsOver js = false := by
        rw [← Bool.not_eq_true, argsOver_iff]
        exact Nat.not_lt_of_le small
      have within' : f.resultOver = false := by
        rw [← Bool.not_eq_true, resultOver_iff]
        exact Nat.not_lt_of_le small'
      have same := as_.small within within'
      have none_ : sealed.bind (buildResultReceiptFromSeal js exchange) = none := by
        rw [as_.receipt, within', if_neg (by simp)]
      rw [demoteWith, none_]
      exact same
    · have large := resultOver_iff.mpr long
      rw [as_.content_demoted, if_pos ⟨large, (meets.2 large).1⟩]
      obtain ⟨fields, read, back⟩ := readsBack js (f.receipt js)
      have path := back.path
      rw [Finalize.path_receipt] at path
      exact ⟨fields, read, path, back.chars, back.bytes, back.status⟩

end

/-- At the end of a turn every exchange is demoted, and each fits. -/
def Turn.Demoted (js : Js ν) (s : Turn ν) : Prop :=
  let history := demoteAllToolExchangesToReceipts js s.history s.sealsByCallId
  List.Forall₂ (Fits js) s.originals history ∧
    demoteAllToolExchangesToReceipts js history s.sealsByCallId = history

theorem forall₂_and_iff {α β : Type} {R S : α → β → Prop} {P : α → Prop} {xs : List α} {ys : List β}
    (related : List.Forall₂ R xs ys) (same : ∀ x y, R x y → (S x y ↔ P x)) :
    List.Forall₂ S xs ys ↔ ∀ x ∈ xs, P x := by
  induction related with
  | nil => simp
  | cons here _ ih => rw [List.forall₂_cons, same _ _ here, ih, List.forall_mem_cons]

theorem Turn.Demoted.arguments_le {js : Js ν} {s : Turn ν} (demoted : s.Demoted js) :
    ∀ exchange ∈ demoteAllToolExchangesToReceipts js s.history s.sealsByCallId,
      (argsText js exchange.arguments).length ≤ toolWireSoftMaxChars := by
  have bounded : ∀ {fs : List (Finalize ν)} {history : List (Exchange ν)},
      List.Forall₂ (Fits js) fs history →
        ∀ exchange ∈ history, (argsText js exchange.arguments).length ≤ toolWireSoftMaxChars := by
    intro fs history fits
    induction fits with
    | nil => simp
    | cons here _ ih => exact List.forall_mem_cons.mpr ⟨here.arguments, ih⟩
  exact bounded demoted.1

theorem Tracked.meets_iff {js : Js ν} {s : Turn ν} (tracked : Tracked js s) :
    s.Demoted js ↔ ∀ f ∈ s.originals, f.Meets js := by
  have left : List.Forall₂ (fun f exchange => ∃ first sealed,
      f.sealed js = some (first, sealed) ∧ exchange = demoteWith js sealed first) s.originals
      (demoteAllToolExchangesToReceipts js s.history s.sealsByCallId) := by
    rw [demoteAllToolExchangesToReceipts, List.forall₂_map_right_iff]
    exact forall₂_of_mem tracked.history fun f mem exchange follows => tracked.demoted mem follows
  have again : demoteAllToolExchangesToReceipts js
      (demoteAllToolExchangesToReceipts js s.history s.sealsByCallId) s.sealsByCallId =
      demoteAllToolExchangesToReceipts js s.history s.sealsByCallId := by
    unfold demoteAllToolExchangesToReceipts
    rw [List.map_map]
    refine List.map_congr_left fun exchange _ => ?_
    have here : ∀ x : Exchange ν, demoteExchangeResultToReceipt js s.sealsByCallId x =
        demoteWith js (s.sealsByCallId.get? (resolveToolCallId x)) x := fun _ => rfl
    rw [Function.comp_apply, here exchange, here, resolveToolCallId_demoteWith,
      demoteWith_demoteWith]
  rw [Turn.Demoted, and_iff_left again]
  refine forall₂_and_iff left fun f exchange follows => ?_
  obtain ⟨first, sealed, done, rfl⟩ := follows
  exact fits_iff (sealedAs done)

/-- In a turn whose exchanges have distinct call ids, in whatever order they are sealed and older
ones demoted: after all are demoted each is within the limit and carries its own receipt just when
the stubs and receipts of those that are over it fit and no long result looks like a receipt. -/
theorem demoted_iff (js : Js ν) (es : List (Event ν))
    (distinct : (es.filterMap Event.callId).Nodup) :
    (run (step js) {} es).Demoted js ↔ ∀ f ∈ (run (step js) {} es).originals, f.Meets js :=
  Tracked.meets_iff (tracked_run ⟨.nil, nofun, fun _ _ => rfl⟩ (fun _ _ _ => nofun) distinct)

namespace Sample

/-- Counts are all the numbers there are here, and are written in decimal. -/
def numberText (n : ℕ) : Text :=
  if n = 0 then [48] else (Nat.digits 10 n).reverse.map fun digit => 48 + UInt16.ofNat digit

def numberOf (text : Text) : Option ℕ :=
  some (Nat.ofDigits 10 (text.reverse.map fun u => (u - 48).toNat))

theorem digit_units : ∀ digit < 10, isNumberUnit (48 + UInt16.ofNat digit) = true ∧
    (48 + UInt16.ofNat digit - 48).toNat = digit := by decide +kernel

theorem numbers : Numbers numberText numberOf where
  nonempty n := by
    unfold numberText
    split
    · exact List.cons_ne_nil _ _
    · rename_i positive
      simpa [Nat.digits_ne_nil_iff_ne_zero] using positive
  units n u mem := by
    unfold numberText at mem
    split at mem
    · obtain rfl := List.mem_singleton.mp mem
      rfl
    · obtain ⟨digit, known, rfl⟩ := List.mem_map.mp mem
      have below := Nat.digits_lt_base (by decide) (List.mem_reverse.mp known)
      exact (digit_units digit below).1
  read n := by
    unfold numberOf numberText
    split
    · rename_i zero
      rw [zero]
      rfl
    · rw [← List.map_reverse, List.reverse_reverse, List.map_map]
      have same : (Nat.digits 10 n).map ((fun u : UInt16 => (u - 48).toNat) ∘
          fun digit => 48 + UInt16.ofNat digit) = Nat.digits 10 n := by
        conv_rhs => rw [← List.map_id (Nat.digits 10 n)]
        refine List.map_congr_left fun digit known => ?_
        exact (digit_units digit (Nat.digits_lt_base (by decide) known)).2
      rw [same, Nat.ofDigits_digits]

/-- The letter `a`, 8001 times. -/
def long : Text := List.replicate 8001 97

/-- All texts here are ASCII, and `long` is the only one that is hashed. -/
def js : Js ℕ where
  numberText := numberText
  numberOf := numberOf
  ofNat := id
  nfkd := id
  sha256 _ := ofString "5a9983d3a06d8b481c0ca812800929523fb46472f136119bbb811029dbeb46ae"
  numbers := numbers

def exchange (id : String) (action content : Text) : Finalize ℕ where
  ctx := ⟨"a1", "s1", ofString "r1"⟩
  written := none
  exchange := {
    toolCall := ⟨ofString id, ofString "grep", some [(ofString "action", .str action)]⟩
    toolResult := ⟨ofString id, ofString "grep", content, none⟩ }

/-- A short result and a long one, with the first demoted in between. -/
def turn : List (Event ℕ) :=
  [.finalize (exchange "c1" (ofString "find") (ofString "none")), .demoteOlder none,
    .finalize (exchange "c2" (ofString "find") long), .demoteOlder (some 1)]

theorem short_meets : (exchange "c1" (ofString "find") (ofString "none")).Meets js :=
  ⟨fun beyond => absurd beyond (by decide +kernel),
    fun beyond => absurd beyond (by decide +kernel)⟩

theorem long_meets : (exchange "c2" (ofString "find") long).Meets js :=
  ⟨fun beyond => absurd beyond (by decide +kernel),
    fun _ => ⟨by decide +kernel, by decide +kernel⟩⟩

theorem long_result_demoted : (run (step js) {} turn).Demoted js := by
  refine (demoted_iff js turn (by decide +kernel)).mpr fun f mem => ?_
  rcases originals_run js {} turn f mem with none_ | own
  · cases none_
  · simp only [turn, List.mem_cons, Event.finalize.injEq, reduceCtorEq, List.not_mem_nil,
      or_false, false_or] at own
    rcases own with rfl | rfl
    · exact short_meets
    · exact long_meets

/-- The whole arguments are replaced, but the action that makes them long is copied. -/
def wide : List (Event ℕ) := [.finalize (exchange "c1" long (ofString "none"))]

theorem long_action_copied :
    (wide.filterMap Event.callId).Nodup ∧
      (demoteAllToolExchangesToReceipts js (run (step js) {} wide).history
        (run (step js) {} wide).sealsByCallId).map (fun exchange =>
          (argsText js exchange.arguments).length) = [8121] ∧
      ¬ (run (step js) {} wide).Demoted js := by
  have lengths : (demoteAllToolExchangesToReceipts js (run (step js) {} wide).history
      (run (step js) {} wide).sealsByCallId).map (fun exchange =>
        (argsText js exchange.arguments).length) = [8121] := by decide +kernel
  refine ⟨by decide +kernel, lengths, fun demoted => ?_⟩
  have long_ : 8121 ∈ (demoteAllToolExchangesToReceipts js (run (step js) {} wide).history
      (run (step js) {} wide).sealsByCallId).map fun exchange =>
        (argsText js exchange.arguments).length := by simp [lengths]
  obtain ⟨exchange, mem, length⟩ := List.mem_map.mp long_
  have within := demoted.arguments_le exchange mem
  rw [length] at within
  exact absurd within (by decide)

end Sample

end Persai.ToolSpill
