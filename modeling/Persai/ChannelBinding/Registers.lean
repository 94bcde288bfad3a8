import Persai.ChannelBinding.Metadata

/-!
# The metadata of a binding as slot registers

Each operation on the metadata is one on the slot register that its keys hold, and changes no key
of another register.
-/

namespace Persai.ChannelBinding

open SlotRegister

/-! ## Registers in the metadata -/

def stringMemory (readCompleted : Option Value → Option String) :
    Memory String Value (Option Value) where
  blank := none
  remember := fun _ state => some state
  handled := fun completed identifier => readCompleted completed == some identifier

def telegramMemory : Memory Int Int (Option Int) where
  blank := none
  remember := fun last updateId => if last.all (· < updateId) then some updateId else last
  handled := fun last updateId => last.any (updateId ≤ ·)

def slot {ι : Type} (active : Option ι) (claimedAt : Option Int) : Option (ι × Int) :=
  active.bind fun x => claimedAt.map fun since => (x, since)

def stringRegister (keys : RegisterKeys) (binding : Binding) : Register String (Option Value) :=
  let metadata := lockOrCreateBindingRow binding
  ⟨slot (readTrimmedString (metadata keys.activeKey)) (readDate (metadata keys.activeClaimedAtKey)),
    metadata keys.completedKey⟩

def telegramRegister (binding : Binding) : Register Int (Option Int) :=
  let metadata := lockOrCreateBindingRow binding
  ⟨slot (readFiniteNumber (metadata telegramActiveUpdateIdKey))
      (readDate (metadata telegramActiveUpdateClaimedAtKey)),
    readFiniteNumber (metadata telegramLastHandledUpdateIdKey)⟩

structure RegisterKeys.Distinct (keys : RegisterKeys) : Prop where
  active_claimedAt : keys.activeKey ≠ keys.activeClaimedAtKey
  active_completed : keys.activeKey ≠ keys.completedKey
  claimedAt_completed : keys.activeClaimedAtKey ≠ keys.completedKey

theorem webTurnKeys_distinct : webTurnKeys.Distinct := by
  constructor <;> decide

theorem reminderKeys_distinct : reminderKeys.Distinct := by
  constructor <;> decide

/-- The outcome in the words of the repository. -/
def toClaimOutcome : Outcome → ClaimOutcome
  | .claimed => .claimed
  | .handled => .duplicateHandled
  | .inflight => .duplicateInflight

theorem toClaimOutcome_eq_claimed_iff {outcome : Outcome} :
    toClaimOutcome outcome = .claimed ↔ outcome = .claimed := by
  cases outcome <;> simp [toClaimOutcome]

theorem toClaimOutcome_eq_duplicateHandled_iff {outcome : Outcome} :
    toClaimOutcome outcome = .duplicateHandled ↔ outcome = .handled := by
  cases outcome <;> simp [toClaimOutcome]

theorem holds_slot {ι : Type} [DecidableEq ι] {active : Option ι} {claimedAt : Option Int} {x : ι}
    {now : Int} {staleAfter : Nat} : holds (slot active claimedAt) x now staleAfter = true ↔
      active = some x ∧ (claimedAt.any fun since => now - since < staleAfter) = true := by
  cases active with
  | none => simp [slot, holds]
  | some y => cases claimedAt <;> simp [slot, holds]

theorem vacate_slot {ι : Type} [DecidableEq ι] {active : Option ι} {claimedAt : Option Int}
    {x : ι} : vacate (slot active claimedAt) x = if active = some x then none
      else slot active claimedAt := by
  cases active with
  | none => simp [slot, vacate]
  | some y =>
    cases claimedAt with
    | none => simp [slot, vacate]
    | some since => by_cases same : y = x <;> simp [slot, vacate, same]

theorem readTrimmedString_identifier (x : Identifier) :
    readTrimmedString (some (.text x.text)) = some x.text := by
  simp [readTrimmedString, nonBlank, x.trimmed, x.given]

section
variable {keys : RegisterKeys} {readCompleted : Option Value → Option String} {binding : Binding}
  {x : Identifier} {now : Int} {staleAfter : Nat}

@[simp] theorem lockOrCreateBindingRow_some (metadata : Metadata) :
    lockOrCreateBindingRow (some metadata) = metadata := rfl

theorem claimStringProcessing_refines (distinct : keys.Distinct) :
    (claimStringProcessing keys readCompleted binding x now staleAfter).1 =
        toClaimOutcome (claim (stringMemory readCompleted) (stringRegister keys binding) x.text now
          staleAfter).1 ∧
      stringRegister keys (claimStringProcessing keys readCompleted binding x now staleAfter).2 =
        (claim (stringMemory readCompleted) (stringRegister keys binding) x.text now
          staleAfter).2 := by
  have handled : (stringMemory readCompleted).handled (stringRegister keys binding).memory x.text =
      true ↔ readCompleted (lockOrCreateBindingRow binding keys.completedKey) = some x.text := by
    simp [stringMemory, stringRegister]
  have fresh := @holds_slot String _
    (readTrimmedString (lockOrCreateBindingRow binding keys.activeKey))
    (readDate (lockOrCreateBindingRow binding keys.activeClaimedAtKey)) x.text now staleAfter
  unfold claimStringProcessing claim
  simp only [handled]
  by_cases done : readCompleted (lockOrCreateBindingRow binding keys.completedKey) = some x.text
  · rw [if_pos done, if_pos done]
    exact ⟨rfl, rfl⟩
  rw [if_neg done, if_neg done]
  simp only [stringRegister, fresh]
  split
  · exact ⟨rfl, rfl⟩
  · refine ⟨rfl, ?_⟩
    simp [setKey, lockOrCreateBindingRow, distinct.active_claimedAt, distinct.active_completed.symm,
      distinct.claimedAt_completed.symm, readTrimmedString_identifier, readDate, slot]

theorem stringRegister_deleteActive (distinct : keys.Distinct) (metadata : Metadata) :
    stringRegister keys (some (deleteActive keys metadata x)) =
      release (stringRegister keys (some metadata)) x.text := by
  unfold release
  simp only [stringRegister, lockOrCreateBindingRow_some, vacate_slot, deleteActive]
  split
  · simp [deleteKey, distinct.active_claimedAt, distinct.active_completed.symm,
      distinct.claimedAt_completed.symm, readTrimmedString, slot]
  · rfl

theorem releaseStringProcessing_refines (distinct : keys.Distinct) :
    stringRegister keys (releaseStringProcessing keys binding x) =
      release (stringRegister keys binding) x.text := by
  cases binding with
  | none => rfl
  | some metadata => exact stringRegister_deleteActive distinct metadata

theorem completeStringProcessing_refines (distinct : keys.Distinct) (state : Value) :
    stringRegister keys (completeStringProcessing keys binding x state) =
      complete (stringMemory readCompleted) (stringRegister keys binding) x.text
        (binding.map fun _ => state) := by
  cases binding with
  | none => rfl
  | some metadata =>
    rw [completeStringProcessing, Option.map_some, stringRegister_deleteActive distinct]
    simp [release, complete, stringRegister, setKey, distinct.active_completed,
      distinct.claimedAt_completed, stringMemory]

theorem claimString_eq_claimed_iff (distinct : keys.Distinct) :
    (claimStringProcessing keys readCompleted binding x now staleAfter).1 = .claimed ↔
      (claim (stringMemory readCompleted) (stringRegister keys binding) x.text now staleAfter).1 =
        .claimed := by
  rw [(claimStringProcessing_refines distinct).1, toClaimOutcome_eq_claimed_iff]

theorem claimString_tracks (distinct : keys.Distinct) {past : List (Act String Value)}
    (h : Tracks (stringMemory readCompleted) (stringRegister keys binding) past) :
    Tracks (stringMemory readCompleted)
      (stringRegister keys (claimStringProcessing keys readCompleted binding x now staleAfter).2)
      (record x.text now
        ((claimStringProcessing keys readCompleted binding x now staleAfter).1 = .claimed)
        past) := by
  rw [(claimStringProcessing_refines distinct).2,
    record_congr (claimString_eq_claimed_iff distinct)]
  exact h.claim

/-- Only keys of `own` have changed. -/
def ChangesOnly (own : List String) (before after : Binding) : Prop :=
  ∀ key, key ∉ own → lockOrCreateBindingRow after key = lockOrCreateBindingRow before key

def RegisterKeys.all (keys : RegisterKeys) : List String :=
  [keys.activeKey, keys.activeClaimedAtKey, keys.completedKey]

theorem RegisterKeys.not_mem_all {key : String} (h : key ∉ keys.all) :
    key ≠ keys.activeKey ∧ key ≠ keys.activeClaimedAtKey ∧ key ≠ keys.completedKey := by
  simpa [RegisterKeys.all] using h

theorem claimStringProcessing_changesOnly : ChangesOnly keys.all binding
    (claimStringProcessing keys readCompleted binding x now staleAfter).2 := by
  intro key other
  obtain ⟨active, claimedAt, -⟩ := RegisterKeys.not_mem_all other
  unfold claimStringProcessing
  dsimp only
  split
  · rfl
  split
  · rfl
  · simp [setKey, active, claimedAt]

theorem deleteActive_of_not_mem (metadata : Metadata) {key : String} (other : key ∉ keys.all) :
    deleteActive keys metadata x key = metadata key := by
  obtain ⟨active, claimedAt, -⟩ := RegisterKeys.not_mem_all other
  unfold deleteActive
  split
  · simp [deleteKey, active, claimedAt]
  · rfl

theorem releaseStringProcessing_changesOnly :
    ChangesOnly keys.all binding (releaseStringProcessing keys binding x) := by
  intro key other
  cases binding with
  | none => rfl
  | some metadata => exact deleteActive_of_not_mem metadata other

theorem completeStringProcessing_changesOnly (state : Value) :
    ChangesOnly keys.all binding (completeStringProcessing keys binding x state) := by
  intro key other
  obtain ⟨-, -, completed⟩ := RegisterKeys.not_mem_all other
  cases binding with
  | none => rfl
  | some metadata =>
    refine (deleteActive_of_not_mem _ other).trans ?_
    simp [setKey, completed]

theorem stringRegister_of_changesOnly {own : List String} {after : Binding}
    (changes : ChangesOnly own binding after) (disjoint : ∀ key ∈ keys.all, key ∉ own) :
    stringRegister keys after = stringRegister keys binding := by
  simp only [RegisterKeys.all, List.mem_cons, List.not_mem_nil, or_false, forall_eq_or_imp,
    forall_eq] at disjoint
  simp only [stringRegister, changes _ disjoint.1, changes _ disjoint.2.1, changes _ disjoint.2.2]

end

/-! ## The Telegram register -/

section
variable {binding : Binding} {updateId now : Int} {staleAfter : Nat}

def telegramKeys : List String :=
  [telegramActiveUpdateIdKey, telegramActiveUpdateClaimedAtKey, telegramLastHandledUpdateIdKey,
    telegramLastHandledUpdateAtKey]

theorem not_mem_telegramKeys {key : String} (h : key ∉ telegramKeys) :
    key ≠ telegramActiveUpdateIdKey ∧ key ≠ telegramActiveUpdateClaimedAtKey ∧
      key ≠ telegramLastHandledUpdateIdKey ∧ key ≠ telegramLastHandledUpdateAtKey := by
  simpa [telegramKeys] using h

theorem claimTelegramUpdateProcessing_refines :
    (claimTelegramUpdateProcessing binding updateId now staleAfter).1 =
        toClaimOutcome (claim telegramMemory (telegramRegister binding) updateId now
          staleAfter).1 ∧
      telegramRegister (claimTelegramUpdateProcessing binding updateId now staleAfter).2 =
        (claim telegramMemory (telegramRegister binding) updateId now staleAfter).2 := by
  have fresh := @holds_slot Int _
    (readFiniteNumber (lockOrCreateBindingRow binding telegramActiveUpdateIdKey))
    (readDate (lockOrCreateBindingRow binding telegramActiveUpdateClaimedAtKey)) updateId now
    staleAfter
  unfold claimTelegramUpdateProcessing claim
  simp only [telegramMemory, telegramRegister, fresh]
  split
  · exact ⟨rfl, rfl⟩
  split
  · exact ⟨rfl, rfl⟩
  · refine ⟨rfl, ?_⟩
    simp [setKey, telegramActiveUpdateIdKey, telegramActiveUpdateClaimedAtKey,
      telegramLastHandledUpdateIdKey, readFiniteNumber, readDate, slot]

theorem claimTelegram_eq_claimed_iff :
    (claimTelegramUpdateProcessing binding updateId now staleAfter).1 = .claimed ↔
      (claim telegramMemory (telegramRegister binding) updateId now staleAfter).1 = .claimed := by
  rw [claimTelegramUpdateProcessing_refines.1, toClaimOutcome_eq_claimed_iff]

theorem claimTelegram_tracks {past : List (Act Int Int)}
    (h : Tracks telegramMemory (telegramRegister binding) past) :
    Tracks telegramMemory
      (telegramRegister (claimTelegramUpdateProcessing binding updateId now staleAfter).2)
      (record updateId now
        ((claimTelegramUpdateProcessing binding updateId now staleAfter).1 = .claimed) past) := by
  rw [claimTelegramUpdateProcessing_refines.2, record_congr claimTelegram_eq_claimed_iff]
  exact h.claim

theorem telegramRegister_deleteActiveUpdate (metadata : Metadata) :
    telegramRegister (some (deleteActiveUpdate metadata updateId)) =
      release (telegramRegister (some metadata)) updateId := by
  unfold release
  simp only [telegramRegister, lockOrCreateBindingRow_some, vacate_slot, deleteActiveUpdate]
  split
  · simp [deleteKey, telegramActiveUpdateIdKey, telegramActiveUpdateClaimedAtKey,
      telegramLastHandledUpdateIdKey, readFiniteNumber, slot]
  · rfl

theorem releaseTelegramUpdateProcessing_refines :
    telegramRegister (releaseTelegramUpdateProcessing binding updateId) =
      release (telegramRegister binding) updateId := by
  cases binding with
  | none => rfl
  | some metadata => exact telegramRegister_deleteActiveUpdate metadata

theorem completeTelegramUpdateProcessing_refines (completedAt : Int) :
    telegramRegister (completeTelegramUpdateProcessing binding updateId completedAt) =
      complete telegramMemory (telegramRegister binding) updateId
        (binding.map fun _ => updateId) := by
  cases binding with
  | none => rfl
  | some metadata =>
    rw [completeTelegramUpdateProcessing, Option.map_some, telegramRegister_deleteActiveUpdate]
    simp only [release, complete, telegramRegister, telegramMemory, lockOrCreateBindingRow_some,
      Option.map_some, Option.elim_some]
    split
    · simp [setKey, telegramActiveUpdateIdKey, telegramActiveUpdateClaimedAtKey,
        telegramLastHandledUpdateIdKey, telegramLastHandledUpdateAtKey, readFiniteNumber]
    · rfl

theorem claimTelegramUpdateProcessing_changesOnly : ChangesOnly telegramKeys binding
    (claimTelegramUpdateProcessing binding updateId now staleAfter).2 := by
  intro key other
  obtain ⟨active, claimedAt, -⟩ := not_mem_telegramKeys other
  unfold claimTelegramUpdateProcessing
  dsimp only
  split
  · rfl
  split
  · rfl
  · simp [setKey, active, claimedAt]

theorem deleteActiveUpdate_of_not_mem (metadata : Metadata) {key : String}
    (other : key ∉ telegramKeys) : deleteActiveUpdate metadata updateId key = metadata key := by
  obtain ⟨active, claimedAt, -⟩ := not_mem_telegramKeys other
  unfold deleteActiveUpdate
  split
  · simp [deleteKey, active, claimedAt]
  · rfl

theorem releaseTelegramUpdateProcessing_changesOnly :
    ChangesOnly telegramKeys binding (releaseTelegramUpdateProcessing binding updateId) := by
  intro key other
  cases binding with
  | none => rfl
  | some metadata => exact deleteActiveUpdate_of_not_mem metadata other

theorem completeTelegramUpdateProcessing_changesOnly (completedAt : Int) :
    ChangesOnly telegramKeys binding
      (completeTelegramUpdateProcessing binding updateId completedAt) := by
  intro key other
  obtain ⟨-, -, handled, handledAt⟩ := not_mem_telegramKeys other
  cases binding with
  | none => rfl
  | some metadata =>
    refine (deleteActiveUpdate_of_not_mem _ other).trans ?_
    split
    · simp [setKey, handled, handledAt]
    · rfl

theorem telegramRegister_of_changesOnly {own : List String} {after : Binding}
    (changes : ChangesOnly own binding after) (disjoint : ∀ key ∈ telegramKeys, key ∉ own) :
    telegramRegister after = telegramRegister binding := by
  simp only [telegramKeys, List.mem_cons, List.not_mem_nil, or_false, forall_eq_or_imp,
    forall_eq] at disjoint
  simp only [telegramRegister, changes _ disjoint.1, changes _ disjoint.2.1,
    changes _ disjoint.2.2.1]

end

end Persai.ChannelBinding
