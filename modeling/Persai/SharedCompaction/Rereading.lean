import Mathlib.Data.List.Nodup
import Persai.SharedCompaction.State

/-!
# What is stored reads back

The sections are normalised when they are written and again when they are read. The second time
changes an item when a bullet is left at its start: only one is taken off, and only before the
item is trimmed.
-/

namespace Persai.SharedCompaction

open CodeUnits

/-- A bullet and white space, which `stripBullet` takes off. -/
def bulleted : Text → Bool
  | u :: v :: _ => isBullet u && isWhitespace v
  | _ => false

/-! ## Items -/

theorem stripBullet_of_not_bulleted {text : Text} (none : bulleted text = false) :
    stripBullet text = text := by
  match text with
  | [] => rfl
  | [u] => rfl
  | u :: v :: rest =>
    rw [bulleted] at none
    rw [stripBullet, none]
    rfl

theorem stripBullet_suffix (text : Text) : stripBullet text <:+ text := by
  match text with
  | [] => exact List.suffix_rfl
  | [u] => exact List.suffix_rfl
  | u :: v :: rest =>
    rw [stripBullet]
    split
    · exact ((List.dropWhile_suffix _).trans (List.suffix_cons v rest)).trans
        (List.suffix_cons u _)
    · exact List.suffix_rfl

theorem length_stripBullet_lt {text : Text} (there : bulleted text = true) :
    (stripBullet text).length < text.length := by
  match text with
  | [] | [u] => cases there
  | u :: v :: rest =>
    rw [bulleted] at there
    rw [stripBullet, there]
    have shorter := (List.dropWhile_suffix (l := rest) isWhitespace).length_le
    simp only [if_true, List.length_cons]
    omega

theorem collapsed_normalizedText (value : Text) : Collapsed (normalizedText value) :=
  ((collapsed_collapseRuns false value).part (stripBullet_suffix _).isInfix).part
    (strip_within _ _)

/-- A second normalisation takes off a bullet that is left, and nothing else. -/
theorem normalizedText_again (value : Text) :
    normalizedText (normalizedText value) = normalizedText value ↔
      bulleted (normalizedText value) = false := by
  have collapsed := (collapsed_normalizedText value).collapse
  constructor
  · intro same
    by_contra there
    have shorter := length_stripBullet_lt (Bool.eq_true_of_not_eq_false there)
    have trimmed := (strip_within isWhitespace (stripBullet (normalizedText value))).length_le
    have again : normalizedText (normalizedText value) =
        strip isWhitespace (stripBullet (normalizedText value)) := by
      rw [normalizedText, collapsed, CodeUnits.trim]
    rw [← again, same] at trimmed
    omega
  · intro none
    rw [normalizedText, collapsed, stripBullet_of_not_bulleted none]
    exact strip_strip _ _

/-! ## A section -/

/-- What an item has to be to be kept. -/
def Kept (item : Text) : Prop :=
  item ≠ [] ∧ item.length ≤ maxItemChars ∧ looksConversational item = false

theorem normalizeCompactionItem_eq {value item : Text}
    (normal : normalizeCompactionItem value = some item) :
    item = normalizedText value ∧ (item ≠ [] → Kept item) := by
  unfold normalizeCompactionItem at normal
  dsimp only at normal
  split_ifs at normal with empty refused
  · obtain rfl : [] = item := Option.some.inj normal
    exact ⟨empty.symm, fun nonempty => absurd rfl nonempty⟩
  · obtain rfl := Option.some.inj normal
    simp only [Bool.or_eq_true, decide_eq_true_eq, not_or] at refused
    exact ⟨rfl, fun nonempty => ⟨nonempty, by omega, by simpa using refused.2⟩⟩

theorem normalizeCompactionItem_of_kept {item : Text} (kept : Kept item)
    (fixed : normalizedText item = item) : normalizeCompactionItem item = some item := by
  obtain ⟨nonempty, short, plain⟩ := kept
  unfold normalizeCompactionItem
  dsimp only
  rw [fixed, if_neg nonempty, if_neg]
  simp only [plain, Bool.or_false, decide_eq_true_eq]
  omega

variable {toLowerCase : Text → Text} {items rest result : List Text} {rawItems : List Json}

/-- What has been seen of a section, the last one first. -/
def seenOf (toLowerCase : Text → Text) (items : List Text) : List Text :=
  (items.map toLowerCase).reverse

theorem seenOf_append (item : Text) :
    seenOf toLowerCase (items ++ [item]) = toLowerCase item :: seenOf toLowerCase items := by
  rw [seenOf, seenOf, List.map_append, List.reverse_append]
  rfl

theorem mem_seenOf {key : Text} : key ∈ seenOf toLowerCase items ↔ key ∈ items.map toLowerCase := by
  rw [seenOf, List.mem_reverse]

/-- A section as it is normalised: kept items, few and different. -/
structure IsSection (toLowerCase : Text → Text) (items : List Text) : Prop where
  distinct : (items.map toLowerCase).Nodup
  few : items.length ≤ maxSectionItems
  kept : ∀ item ∈ items, Kept item ∧ ∃ value, item = normalizedText value

theorem isSection_nil : IsSection toLowerCase [] := ⟨List.nodup_nil, Nat.zero_le _, by simp⟩

theorem IsSection.concat {value : Text} (h : IsSection toLowerCase items)
    (kept : Kept (normalizedText value))
    (fresh : toLowerCase (normalizedText value) ∉ seenOf toLowerCase items)
    (room : items.length < maxSectionItems) :
    IsSection toLowerCase (items ++ [normalizedText value]) where
  distinct := by
    rw [List.map_append, List.map_singleton]
    refine h.distinct.append (List.nodup_singleton _) ?_
    simpa [mem_seenOf] using fresh
  few := by
    rw [List.length_append, List.length_singleton]
    omega
  kept item member := by
    obtain old | rfl := by simpa using member
    · exact h.kept item old
    · exact ⟨kept, value, rfl⟩

/-- What becomes of the first item of a section. -/
theorem normalizeItems_cons {rawItem : Json} {rest : List Json}
    (normal : normalizeItems toLowerCase items (seenOf toLowerCase items) (rawItem :: rest) =
      some result) :
    ∃ text, rawItem = .str text ∧
      ((normalizedText text ≠ [] →
            toLowerCase (normalizedText text) ∈ items.map toLowerCase) ∧
          normalizeItems toLowerCase items (seenOf toLowerCase items) rest = some result ∨
        Kept (normalizedText text) ∧
          toLowerCase (normalizedText text) ∉ seenOf toLowerCase items ∧
          items.length < maxSectionItems ∧
          normalizeItems toLowerCase (items ++ [normalizedText text])
            (seenOf toLowerCase (items ++ [normalizedText text])) rest = some result) := by
  cases rawItem with
  | str text =>
    refine ⟨text, rfl, ?_⟩
    rw [normalizeItems] at normal
    split at normal
    · cases normal
    next item normalized =>
      obtain ⟨rfl, kept⟩ := normalizeCompactionItem_eq normalized
      split_ifs at normal with empty old full
      · exact .inl ⟨fun nonempty => absurd empty nonempty, normal⟩
      · exact .inl ⟨fun _ => mem_seenOf.mp old, normal⟩
      · rw [List.length_append, List.length_singleton] at full
        rw [seenOf_append]
        exact .inr ⟨kept empty, old, by omega, normal⟩
  | null | bool | num | arr | obj => cases normal

theorem grown_of_normalizeItems
    (normal : normalizeItems toLowerCase items (seenOf toLowerCase items) rawItems =
      some result) : items <+: result := by
  induction rawItems generalizing items with
  | nil =>
    obtain rfl := Option.some.inj normal
    exact List.prefix_rfl
  | cons rawItem rest ih =>
    obtain ⟨text, rfl, ⟨-, onward⟩ | ⟨-, -, -, onward⟩⟩ := normalizeItems_cons normal
    · exact ih onward
    · exact (List.prefix_append _ _).trans (ih onward)

theorem source_of_normalizeItems
    (normal : normalizeItems toLowerCase items (seenOf toLowerCase items) rawItems =
      some result) :
    ∀ item ∈ result, item ∈ items ∨ ∃ text, .str text ∈ rawItems ∧ item = normalizedText text := by
  induction rawItems generalizing items with
  | nil =>
    obtain rfl := Option.some.inj normal
    exact fun item member => .inl member
  | cons rawItem rest ih =>
    intro item member
    obtain ⟨text, rfl, ⟨-, onward⟩ | ⟨-, -, -, onward⟩⟩ := normalizeItems_cons normal
    · refine (ih onward item member).imp_right ?_
      rintro ⟨other, raw, same⟩
      exact ⟨other, List.mem_cons_of_mem _ raw, same⟩
    · obtain old | ⟨other, raw, same⟩ := ih onward item member
      · obtain older | rfl := by simpa using old
        · exact .inl older
        · exact .inr ⟨text, List.mem_cons_self, rfl⟩
      · exact .inr ⟨other, List.mem_cons_of_mem _ raw, same⟩

theorem IsSection.normalizeItems (h : IsSection toLowerCase items)
    (normal : normalizeItems toLowerCase items (seenOf toLowerCase items) rawItems =
      some result) :
    IsSection toLowerCase result ∧
      ∀ text, .str text ∈ rawItems → normalizedText text ≠ [] →
        toLowerCase (normalizedText text) ∈ result.map toLowerCase := by
  induction rawItems generalizing items with
  | nil =>
    obtain rfl := Option.some.inj normal
    exact ⟨h, by simp⟩
  | cons rawItem rest ih =>
    obtain ⟨text, rfl, ⟨there, onward⟩ | ⟨kept, fresh, room, onward⟩⟩ := normalizeItems_cons normal
    · obtain ⟨normalized, all⟩ := ih h onward
      refine ⟨normalized, ?_⟩
      rintro other (_ | ⟨_, member⟩) nonempty
      · exact ((grown_of_normalizeItems onward).map toLowerCase).subset (there nonempty)
      · exact all other member nonempty
    · obtain ⟨normalized, all⟩ := ih (h.concat kept fresh room) onward
      refine ⟨normalized, ?_⟩
      rintro other (_ | ⟨_, member⟩) nonempty
      · exact List.mem_map_of_mem ((grown_of_normalizeItems onward).subset (by simp))
      · exact all other member nonempty

theorem length_normalizeItems_le
    (normal : normalizeItems toLowerCase items (seenOf toLowerCase items) rawItems =
      some result) : result.length ≤ items.length + rawItems.length := by
  induction rawItems generalizing items with
  | nil =>
    obtain rfl := Option.some.inj normal
    exact le_rfl
  | cons rawItem rest ih =>
    obtain ⟨text, rfl, ⟨-, onward⟩ | ⟨-, -, -, onward⟩⟩ := normalizeItems_cons normal
    · have := ih onward
      rw [List.length_cons]
      omega
    · have := ih onward
      rw [List.length_append, List.length_singleton] at this
      rw [List.length_cons]
      omega

/-- A section of fixed items is kept as it is. -/
theorem normalizeItems_fixed (h : IsSection toLowerCase (items ++ rest))
    (fixed : ∀ item ∈ rest, normalizedText item = item) :
    normalizeItems toLowerCase items (seenOf toLowerCase items) (rest.map .str) =
      some (items ++ rest) := by
  induction rest generalizing items with
  | nil => rw [List.map_nil, normalizeItems, List.append_nil]
  | cons item rest ih =>
    have shift : items ++ item :: rest = items ++ [item] ++ rest := List.append_cons ..
    have kept := (h.kept item (by simp)).1
    have few := h.few
    have distinct := h.distinct
    rw [List.length_append, List.length_cons] at few
    rw [List.map_append, List.map_cons, List.nodup_append] at distinct
    have fresh : toLowerCase item ∉ seenOf toLowerCase items := by
      rw [mem_seenOf]
      exact fun old => distinct.2.2 _ old _ List.mem_cons_self rfl
    have room : ¬ maxSectionItems < (items ++ [item]).length := by
      rw [List.length_append, List.length_singleton]
      omega
    rw [List.map_cons, normalizeItems,
      normalizeCompactionItem_of_kept kept (fixed item List.mem_cons_self)]
    dsimp only
    rw [if_neg kept.1, if_neg fresh, if_neg room, ← seenOf_append, shift]
    exact ih (shift ▸ h) fun other member => fixed other (List.mem_cons_of_mem item member)

/-- A section that is kept as it is has fixed items only. -/
theorem fixed_of_normalizeItems
    (same : normalizeItems toLowerCase items (seenOf toLowerCase items) (rest.map .str) =
      some (items ++ rest)) : ∀ item ∈ rest, normalizedText item = item := by
  induction rest generalizing items with
  | nil => simp
  | cons item rest ih =>
    rw [List.map_cons] at same
    obtain ⟨text, is_text, ⟨-, onward⟩ | ⟨-, -, -, onward⟩⟩ := normalizeItems_cons same
    · have short := length_normalizeItems_le onward
      rw [List.length_append, List.length_cons, List.length_map] at short
      omega
    · obtain rfl : item = text := by injection is_text
      have shift : items ++ item :: rest = items ++ [item] ++ rest := List.append_cons ..
      obtain ⟨more, split⟩ := grown_of_normalizeItems onward
      rw [List.append_assoc, List.append_cancel_left_eq, List.singleton_append,
        List.cons.injEq] at split
      rw [split.1, shift] at onward
      rintro other (_ | ⟨_, member⟩)
      · exact split.1
      · exact ih onward other member

/-! ## The sections -/

variable {row : List (Text × Json)} {sections : Sections} {key : SectionKey}

/-- The sections as they are stored. -/
def storedRow (sections : Sections) : List (Text × Json) :=
  SectionKey.order.map fun key => (key.name, .arr ((sections key).map .str))

theorem lookup_storedRow (sections : Sections) (key : SectionKey) :
    (storedRow sections).lookup key.name = some (.arr ((sections key).map .str)) := by
  cases key <;> rfl

theorem resolve_storedRow (sections : Sections) :
    resolveCompactionSectionsRow (.obj (storedRow sections)) = some (storedRow sections) := rfl

theorem mem_order (key : SectionKey) : key ∈ SectionKey.order := by
  cases key <;> decide

theorem normalizeSections_eq_some_iff {payload : Json} {budget : ℚ} :
    normalizeReusableCompactionSections toLowerCase payload budget = some sections ↔
      ∃ row, resolveCompactionSectionsRow payload = some row ∧
        countRecognizedSectionKeys row ≠ 0 ∧
        (∀ key, normalizeSection toLowerCase row key = some (sections key)) ∧
        renderReusableCompactionSummaryText sections budget ≠ [] := by
  rw [normalizeReusableCompactionSections]
  cases resolveCompactionSectionsRow payload with
  | none => simp
  | some row =>
    dsimp only
    constructor
    · intro normal
      split_ifs at normal with unknown whole blank
      obtain rfl := Option.some.inj normal
      refine ⟨row, rfl, unknown, fun key => ?_, blank⟩
      obtain ⟨items, normalized⟩ :=
        Option.isSome_iff_exists.mp (List.all_eq_true.mp whole key (mem_order key))
      dsimp only
      rw [normalized]
      rfl
    · rintro ⟨_, same, known, each, shown⟩
      obtain rfl := Option.some.inj same
      have all : (fun key => (normalizeSection toLowerCase row key).getD []) = sections := by
        funext key
        rw [each key]
        rfl
      rw [if_neg known, if_pos (List.all_eq_true.mpr fun key _ => by rw [each key]; rfl), all,
        if_neg shown]

theorem normalizeSection_storedRow (key : SectionKey) :
    normalizeSection toLowerCase (storedRow sections) key =
      normalizeItems toLowerCase [] (seenOf toLowerCase []) ((sections key).map .str) := by
  rw [normalizeSection, lookup_storedRow]
  rfl

theorem isSection_of_normalizeSection
    (normal : normalizeSection toLowerCase row key = some items) :
    IsSection toLowerCase items := by
  unfold normalizeSection at normal
  split at normal
  · obtain rfl := Option.some.inj normal
    exact isSection_nil
  · obtain rfl := Option.some.inj normal
    exact isSection_nil
  · exact (isSection_nil.normalizeItems normal).1
  · cases normal

/-- The sections are read back as they were normalised when no item changes. -/
theorem normalizeSections_stored_iff {payload : Json} {budget : ℚ}
    (normal : normalizeReusableCompactionSections toLowerCase payload budget = some sections) :
    normalizeReusableCompactionSections toLowerCase (.obj (storedRow sections)) budget =
        some sections ↔
      ∀ key, ∀ item ∈ sections key, bulleted item = false := by
  obtain ⟨row, -, -, each, shown⟩ := normalizeSections_eq_some_iff.mp normal
  have image (key : SectionKey) (item : Text) (member : item ∈ sections key) :
      normalizedText item = item ↔ bulleted item = false := by
    obtain ⟨-, value, rfl⟩ := (isSection_of_normalizeSection (each key)).kept item member
    exact normalizedText_again value
  rw [normalizeSections_eq_some_iff]
  constructor
  · rintro ⟨_, same, -, again, -⟩ key item member
    rw [resolve_storedRow] at same
    obtain rfl := Option.some.inj same
    have kept := again key
    rw [normalizeSection_storedRow] at kept
    exact (image key item member).mp (fixed_of_normalizeItems kept item member)
  · intro plain
    refine ⟨storedRow sections, rfl, ?_, fun key => ?_, shown⟩
    · have all : countRecognizedSectionKeys (storedRow sections) = 5 := rfl
      rw [all]
      decide
    · rw [normalizeSection_storedRow]
      exact normalizeItems_fixed (isSection_of_normalizeSection (each key))
        fun item member => (image key item member).mpr (plain key item member)

/-! ## The state -/

theorem countOf_natCast {least count : ℕ} (enough : least ≤ count) :
    countOf least (some (.num (count : ℚ))) = some count := by
  rw [countOf, if_pos]
  · rfl
  · have whole : (count : ℚ).isInt = true := by simp [Rat.isInt]
    rw [whole, Bool.true_and, decide_eq_true_eq]
    exact_mod_cast enough

theorem toolCodeOf_text (toolCode : ToolCode) :
    toolCodeOf (some (.str toolCode.text)) = some toolCode := by
  cases toolCode <;> decide

theorem parseStored_of_fields {toolCode : ToolCode} {summarized preserved : ℕ} (budget : ℚ)
    (schema : isSchema (row.lookup (ofString "schema")) = true)
    (tool : toolCodeOf (row.lookup (ofString "toolCode")) = some toolCode)
    (many : countOf 1 (row.lookup (ofString "summarizedMessageCount")) = some summarized)
    (recent : countOf 0 (row.lookup (ofString "preservedRecentMessageCount")) = some preserved) :
    parseStoredReusableCompactionState toLowerCase (.obj row) budget =
      (normalizeReusableCompactionSections toLowerCase
        ((row.lookup (ofString "sections")).getD .null) budget).map fun sections =>
          ⟨⟨toolCode, summarized, preserved, sections⟩,
            renderReusableCompactionSummaryText sections budget, summarized⟩ := by
  simp only [parseStoredReusableCompactionState, JsonValue.asObject, Option.bind_eq_bind,
    Option.bind_some, schema, tool, many, recent, guard_true, Option.pure_def]
  rw [Option.map_eq_bind]
  rfl

theorem parseStored_payload (state : StoredReusableCompactionState) (budget : ℚ)
    (positive : 0 < state.summarizedMessageCount) :
    parseStoredReusableCompactionState toLowerCase state.payload budget =
      (normalizeReusableCompactionSections toLowerCase (.obj (storedRow state.sections))
        budget).map fun sections =>
          ⟨⟨state.toolCode, state.summarizedMessageCount, state.preservedRecentMessageCount,
              sections⟩,
            renderReusableCompactionSummaryText sections budget, state.summarizedMessageCount⟩ :=
  parseStored_of_fields budget rfl (toolCodeOf_text state.toolCode) (countOf_natCast positive)
    (countOf_natCast (Nat.zero_le _))

/-- The object whose keys are the sections of a provider's output. -/
def outputRow (jsonParse : Text → Option Json) (rawOutputText : Text) :
    Option (List (Text × Json)) :=
  (normalizeOptionalText rawOutputText).bind fun normalizedOutput =>
    (parseJsonObject jsonParse (unwrapJsonCodeFence normalizedOutput)).bind
      resolveCompactionSectionsRow

/-- Some text in a section has a bullet left when it has been normalised. -/
def LeavesBullet (jsonParse : Text → Option Json) (rawOutputText : Text) : Prop :=
  ∃ row key rawItems text, outputRow jsonParse rawOutputText = some row ∧
    row.lookup (SectionKey.name key) = some (.arr rawItems) ∧ .str text ∈ rawItems ∧
    bulleted (normalizedText text) = true

theorem leavesBullet_iff {jsonParse : Text → Option Json} {rawOutputText : Text}
    (keepsBullets : ∀ text, bulleted (toLowerCase text) = bulleted text)
    (output : outputRow jsonParse rawOutputText = some row)
    (each : ∀ key, normalizeSection toLowerCase row key = some (sections key)) :
    LeavesBullet jsonParse rawOutputText ↔
      ∃ key, ∃ item ∈ sections key, bulleted item = true := by
  constructor
  · rintro ⟨_, key, rawItems, text, same, looked, member, left⟩
    obtain rfl := Option.some.inj (output.symm.trans same)
    have normal := each key
    rw [normalizeSection, looked] at normal
    have nonempty : normalizedText text ≠ [] := by
      rintro empty
      rw [empty] at left
      cases left
    obtain ⟨item, kept, same⟩ :=
      List.mem_map.mp ((isSection_nil.normalizeItems normal).2 text member nonempty)
    exact ⟨key, item, kept, by rw [← keepsBullets, same, keepsBullets, left]⟩
  · rintro ⟨key, item, member, left⟩
    have normal := each key
    unfold normalizeSection at normal
    split at normal
    · rw [← Option.some.inj normal] at member
      cases member
    · rw [← Option.some.inj normal] at member
      cases member
    next rawItems looked =>
      obtain old | ⟨text, raw, rfl⟩ := source_of_normalizeItems normal item member
      · cases old
      · exact ⟨row, key, rawItems, text, output, looked, raw, left⟩
    · cases normal

/-- A summary that was written is read back as it is exactly when no text of its sections has a
bullet left. -/
theorem reread_iff {toLowerCase : Text → Text} {jsonParse : Text → Option Json}
    (keepsBullets : ∀ text, bulleted (toLowerCase text) = bulleted text) {input : ModelOutput}
    {parsed : ParsedReusableCompactionState}
    (written : normalizeReusableCompactionStateFromModelOutput toLowerCase jsonParse input =
      .ok parsed) (positive : 0 < input.summarizedMessageCount) :
    parseStoredReusableCompactionState toLowerCase parsed.payload.payload
        input.summaryCharBudget = some parsed ↔
      ¬ LeavesBullet jsonParse input.rawOutputText := by
  rw [normalizeReusableCompactionStateFromModelOutput] at written
  split at written
  · cases written
  next normalizedOutput text =>
    split_ifs at written
    split at written
    · cases written
    next object found =>
      split at written
      · cases written
      next sections normal =>
        injection written with written
        subst written
        obtain ⟨row, resolved, -, each, -⟩ := normalizeSections_eq_some_iff.mp normal
        have output : outputRow jsonParse input.rawOutputText = some row := by
          rw [outputRow, text, Option.bind_some, found, Option.bind_some, resolved]
        rw [parseStored_payload _ _ positive, leavesBullet_iff keepsBullets output each]
        rw [Option.map_eq_some_iff]
        simp only [not_exists, not_and, Bool.not_eq_true]
        rw [← normalizeSections_stored_iff normal]
        constructor
        · rintro ⟨again, kept, same⟩
          have sections_same : again = sections :=
            congrArg (fun state => state.payload.sections) same
          exact sections_same ▸ kept
        · intro kept
          exact ⟨sections, kept, rfl⟩

namespace Sample

/-- The lower case of a text in ASCII. -/
def lower (text : Text) : Text := text.map lowerAscii

theorem lower_keepsBullets (text : Text) : bulleted (lower text) = bulleted text := by
  have letters (u : UInt16) :
      isBullet (lowerAscii u) = isBullet u ∧ isWhitespace (lowerAscii u) = isWhitespace u := by
    by_cases letter : (65 ≤ u && u ≤ 90) = true
    · have all : ∀ n < 26, isBullet (lowerAscii (UInt16.ofNat (65 + n))) =
            isBullet (UInt16.ofNat (65 + n)) ∧
          isWhitespace (lowerAscii (UInt16.ofNat (65 + n))) =
            isWhitespace (UInt16.ofNat (65 + n)) := by decide +kernel
      simp only [Bool.and_eq_true, decide_eq_true_eq, UInt16.le_iff_toNat_le] at letter
      have least : 65 ≤ u.toNat := letter.1
      have most : u.toNat ≤ 90 := letter.2
      have same := all (u.toNat - 65) (by omega)
      rwa [Nat.add_sub_cancel' least, UInt16.ofNat_toNat] at same
    · rw [lowerAscii, if_neg letter]
      exact ⟨rfl, rfl⟩
  match text with
  | [] | [_] => rfl
  | u :: v :: rest =>
    rw [lower, List.map_cons, List.map_cons, bulleted, bulleted, (letters u).1, (letters v).2]

/-- A provider's answer, what `JSON.parse` gives for it, and the texts that are stored of it. -/
structure Answer where
  text : String
  row : List (Text × Json)
  kept : Sections

/-- A bullet, a text that comes twice, and white space within another one. -/
def plain : Answer where
  text := "\x7b\"stableFacts\":[\"- Tea\",\"tea\"],\"openThreads\":[\"call  back\"]\x7d"
  row := [(ofString "stableFacts", .arr [.str (ofString "- Tea"), .str (ofString "tea")]),
    (ofString "openThreads", .arr [.str (ofString "call  back")])]
  kept
    | .stableFacts => [ofString "Tea"]
    | .openThreads => [ofString "call back"]
    | _ => []

def twoBullets : Answer where
  text := "\x7b\"stableFacts\":[\"- - tea\"]\x7d"
  row := [(ofString "stableFacts", .arr [.str (ofString "- - tea")])]
  kept
    | .stableFacts => [ofString "- tea"]
    | _ => []

namespace Answer

variable (answer : Answer)

def parse (text : Text) : Option Json :=
  if text = ofString answer.text then some (.obj answer.row) else none

def input : ModelOutput := ⟨ofString answer.text, .compactContext, 4, 2, 400⟩

def parsed : ParsedReusableCompactionState :=
  ⟨⟨.compactContext, 4, 2, answer.kept⟩,
    renderReusableCompactionSummaryText answer.kept 400, 4⟩

variable {answer}

theorem written_of
    (bare : unwrapJsonCodeFence (CodeUnits.trim (ofString answer.text)) = ofString answer.text)
    (short : (CodeUnits.trim (ofString answer.text)).length ≤ maxProviderOutputChars)
    (nonempty : CodeUnits.trim (ofString answer.text) ≠ [])
    (resolved : resolveCompactionSectionsRow (.obj answer.row) = some answer.row)
    (known : countRecognizedSectionKeys answer.row ≠ 0)
    (sections : ∀ key, normalizeSection lower answer.row key = some (answer.kept key))
    (shown : answer.parsed.summaryText ≠ []) :
    normalizeReusableCompactionStateFromModelOutput lower answer.parse answer.input =
      .ok answer.parsed := by
  have normal : normalizeReusableCompactionSections lower (.obj answer.row) 400 =
      some answer.kept :=
    normalizeSections_eq_some_iff.mpr ⟨answer.row, resolved, known, sections, shown⟩
  have text : normalizeOptionalText answer.input.rawOutputText =
      some (CodeUnits.trim (ofString answer.text)) :=
    if_neg nonempty
  have found : parseJsonObject answer.parse (ofString answer.text) = some (.obj answer.row) := by
    rw [parseJsonObject, parse, if_pos rfl]
    rfl
  rw [normalizeReusableCompactionStateFromModelOutput, text]
  dsimp only
  rw [if_neg (Nat.not_lt.mpr short), bare, found]
  dsimp only
  rw [input, normal]
  rfl

end Answer

theorem plain_sections (key : SectionKey) :
    normalizeSection lower plain.row key = some (plain.kept key) := by
  revert key
  rintro (_ | _) <;> decide +kernel

theorem plain_written : normalizeReusableCompactionStateFromModelOutput lower plain.parse
    plain.input = .ok plain.parsed :=
  Answer.written_of (by decide +kernel) (by decide +kernel) (by decide +kernel) rfl
    (by decide +kernel) plain_sections (by decide +kernel)

theorem twoBullets_written : normalizeReusableCompactionStateFromModelOutput lower twoBullets.parse
    twoBullets.input = .ok twoBullets.parsed := by
  refine Answer.written_of (by decide +kernel) (by decide +kernel) (by decide +kernel) rfl
    (by decide +kernel) ?_ (by decide +kernel)
  rintro (_ | _) <;> decide +kernel

end Sample

/-- One bullet is dropped when the summary is written, and no other is found when it is read. -/
theorem reread_plain_facts :
    parseStoredReusableCompactionState Sample.lower Sample.plain.parsed.payload.payload 400 =
      some Sample.plain.parsed := by
  refine (reread_iff Sample.lower_keepsBullets Sample.plain_written (by decide)).mpr ?_
  have output : outputRow Sample.plain.parse Sample.plain.input.rawOutputText =
      some Sample.plain.row := by rfl
  rw [leavesBullet_iff Sample.lower_keepsBullets output Sample.plain_sections]
  rintro ⟨key, item, member, left⟩
  have plain : ∀ key, ∀ item ∈ Sample.plain.kept key, bulleted item = false := by
    rintro (_ | _) <;> decide +kernel
  rw [plain key item member] at left
  cases left

/-- Of two bullets one is left, and is gone when the summary is read. -/
theorem second_bullet_changes :
    ¬ ∀ (toLowerCase : Text → Text) (jsonParse : Text → Option Json) (input : ModelOutput)
        (parsed : ParsedReusableCompactionState),
      normalizeReusableCompactionStateFromModelOutput toLowerCase jsonParse input = .ok parsed →
      0 < input.summarizedMessageCount →
      parseStoredReusableCompactionState toLowerCase parsed.payload.payload
        input.summaryCharBudget = some parsed := by
  intro claimed
  have again := claimed Sample.lower Sample.twoBullets.parse Sample.twoBullets.input
    Sample.twoBullets.parsed Sample.twoBullets_written (by decide)
  have facts := congrArg (Option.map fun state => state.payload.sections .stableFacts) again
  revert facts
  decide +kernel

end Persai.SharedCompaction
