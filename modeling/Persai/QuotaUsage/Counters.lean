import Mathlib.Algebra.BigOperators.Group.List.Basic
import Mathlib.Algebra.Ring.Int.Defs
import Persai.KeyedTable
import Persai.Runs

/-!
# Capped usage counters

Three usage counters of a workspace: token credits, one counter for each period, and the
bytes of media and of knowledge, kept in the state row. An apply adds what the limit leaves
room for, a release takes back what is there, and each writes the difference to the log of
usage events. The state row also repeats the token counter. Every operation is one transaction
under the lock of the rows it changes; one that fails leaves them as they were.

* `applyUsage`, `releaseUsage` and the operations under their own names;
* `Db.used`, `Db.recorded`: a counter, and what the log says of it;
* `Agrees`, `agrees_step`: the invariant that ties the rows to the log;
* `counters_agree`: every run from empty tables.
-/

namespace Persai.QuotaUsage

open Runs

/-- `periodStartedAt` and `periodEndsAt`. -/
abbrev Period := Int × Int

inductive Dimension where
  | tokenBudget
  | costOrTokenDrivingToolClass
  | activeWebChatsCap
  | mediaStorageBytes
  | knowledgeStorageBytes
deriving DecidableEq, Repr

structure Limits where
  tokenBudgetLimit : Option Int
  costOrTokenDrivingToolClassUnitsLimit : Option Int
  activeWebChatsLimit : Option Int
  mediaStorageBytesLimit : Option Int
  knowledgeStorageBytesLimit : Option Int
deriving DecidableEq, Repr

def resolveLimitValueForDimension (limits : Limits) : Dimension → Option Int
  | .tokenBudget => limits.tokenBudgetLimit
  | .costOrTokenDrivingToolClass => limits.costOrTokenDrivingToolClassUnitsLimit
  | .activeWebChatsCap => limits.activeWebChatsLimit
  | .mediaStorageBytes => limits.mediaStorageBytesLimit
  | .knowledgeStorageBytes => limits.knowledgeStorageBytesLimit

/-- The state row of a workspace. Its columns for what is used start at zero. -/
structure QuotaState where
  tokenBudgetUsed : Int := 0
  costOrTokenDrivingToolClassUnitsUsed : Int := 0
  activeWebChatsCurrent : Int := 0
  mediaStorageBytesUsed : Int := 0
  knowledgeStorageBytesUsed : Int := 0
  limits : Limits
deriving DecidableEq, Repr

structure PeriodCounter where
  usedCredits : Int := 0
  limitCredits : Option Int
deriving DecidableEq, Repr

/-- A row of the log; `period` stands for the two dates that a token apply puts into the
metadata. -/
structure UsageEvent where
  workspaceId : String
  dimension : Dimension
  delta : Int
  limitValue : Option Int
  source : String
  period : Option Period
deriving DecidableEq, Repr

structure Db where
  counters : KeyedTable (String × Period) PeriodCounter
  states : KeyedTable String QuotaState
  events : List UsageEvent

instance : EmptyCollection Db := ⟨∅, ∅, []⟩

structure UsageInput where
  workspaceId : String
  delta : Int
  source : String
  limits : Limits
deriving DecidableEq, Repr

/-! ## The operations -/

/-- What an apply adds: all of `delta` without a limit, else what there is room for. -/
def appliedDelta (used : Int) (limit : Option Int) (delta : Int) : Int :=
  let remaining := limit.map fun limit => limit - used
  let normalizedRemaining := remaining.map fun remaining => if remaining > 0 then remaining else 0
  match normalizedRemaining with
  | none => delta
  | some remaining => if delta < remaining then delta else remaining

/-- What a release takes back. -/
def releasedDelta (used delta : Int) : Int :=
  if delta ≤ 0 then 0 else if delta < used then delta else used

/-- The row read under its lock, created where there is none. -/
def Db.lockOrCreateQuotaStateRow (db : Db) (input : UsageInput) : Db × QuotaState :=
  match db.states.get? input.workspaceId with
  | some existing => (db, existing)
  | none =>
    let created : QuotaState := { limits := input.limits }
    ({ db with states := db.states.put input.workspaceId created }, created)

def Db.lockOrCreateTokenBudgetPeriodCounterRow (db : Db) (input : UsageInput) (period : Period) :
    Db × PeriodCounter :=
  match db.counters.get? (input.workspaceId, period) with
  | some existing => (db, existing)
  | none =>
    let created : PeriodCounter := { limitCredits := input.limits.tokenBudgetLimit }
    ({ db with counters := db.counters.put (input.workspaceId, period) created }, created)

structure TokenBudgetApplied where
  state : QuotaState
  counter : PeriodCounter
  appliedDelta : Int
  capped : Bool
deriving DecidableEq, Repr

def applyTokenBudgetUsageTx (db : Db) (input : UsageInput) (period : Period) :
    Db × TokenBudgetApplied :=
  let (db, existingCounter) := db.lockOrCreateTokenBudgetPeriodCounterRow input period
  let appliedDelta :=
    appliedDelta existingCounter.usedCredits input.limits.tokenBudgetLimit input.delta
  let nextCounter : PeriodCounter :=
    { usedCredits := existingCounter.usedCredits + appliedDelta
      limitCredits := input.limits.tokenBudgetLimit }
  let db :=
    { db with counters := db.counters.update (input.workspaceId, period) fun _ => nextCounter }
  let (db, state) := db.lockOrCreateQuotaStateRow input
  let nextState :=
    { state with tokenBudgetUsed := nextCounter.usedCredits, limits := input.limits }
  let db :=
    { db with
      states := db.states.update input.workspaceId fun _ => nextState
      events := db.events ++
        [{ workspaceId := input.workspaceId, dimension := .tokenBudget, delta := appliedDelta
           limitValue := resolveLimitValueForDimension input.limits .tokenBudget
           source := input.source, period := some period }] }
  (db, ⟨nextState, nextCounter, appliedDelta, appliedDelta < input.delta⟩)

/-- A column of the state row that is a counter of its own. -/
inductive Storage where
  | media
  | knowledge
deriving DecidableEq, Repr

namespace Storage

def dimension : Storage → Dimension
  | .media => .mediaStorageBytes
  | .knowledge => .knowledgeStorageBytes

def used (state : QuotaState) : Storage → Int
  | .media => state.mediaStorageBytesUsed
  | .knowledge => state.knowledgeStorageBytesUsed

def limit (limits : Limits) : Storage → Option Int
  | .media => limits.mediaStorageBytesLimit
  | .knowledge => limits.knowledgeStorageBytesLimit

/-- `{ increment: delta }` on the column. -/
def increment (state : QuotaState) (delta : Int) : Storage → QuotaState
  | .media => { state with mediaStorageBytesUsed := state.mediaStorageBytesUsed + delta }
  | .knowledge =>
    { state with knowledgeStorageBytesUsed := state.knowledgeStorageBytesUsed + delta }

end Storage

structure StorageApplied where
  state : QuotaState
  appliedDelta : Int
  capped : Bool
deriving DecidableEq, Repr

structure StorageReleased where
  state : QuotaState
  releasedDelta : Int
deriving DecidableEq, Repr

/-- The update of the state row and the event that goes with it. -/
def Db.writeStorage (db : Db) (input : UsageInput) (column : Storage) (nextState : QuotaState)
    (delta : Int) : Db :=
  { db with
    states := db.states.update input.workspaceId fun _ => nextState
    events := db.events ++
      [{ workspaceId := input.workspaceId, dimension := column.dimension, delta
         limitValue := resolveLimitValueForDimension input.limits column.dimension
         source := input.source, period := none }] }

def applyUsage (column : Storage) (db : Db) (input : UsageInput) : Db × StorageApplied :=
  let (db, existing) := db.lockOrCreateQuotaStateRow input
  let appliedDelta :=
    appliedDelta (column.used existing) (column.limit input.limits) input.delta
  let nextState := { column.increment existing appliedDelta with limits := input.limits }
  (db.writeStorage input column nextState appliedDelta,
    ⟨nextState, appliedDelta, appliedDelta < input.delta⟩)

def releaseUsage (column : Storage) (db : Db) (input : UsageInput) : Db × StorageReleased :=
  let (db, existing) := db.lockOrCreateQuotaStateRow input
  let releasedDelta := releasedDelta (column.used existing) input.delta
  let nextState := { column.increment existing (-releasedDelta) with limits := input.limits }
  (db.writeStorage input column nextState (-releasedDelta), ⟨nextState, releasedDelta⟩)

def applyMediaStorageUsageTx : Db → UsageInput → Db × StorageApplied := applyUsage .media

def applyKnowledgeStorageUsageTx : Db → UsageInput → Db × StorageApplied := applyUsage .knowledge

def releaseMediaStorageUsageTx : Db → UsageInput → Db × StorageReleased := releaseUsage .media

def releaseKnowledgeStorageUsageTx : Db → UsageInput → Db × StorageReleased :=
  releaseUsage .knowledge

/-! ## Runs -/

inductive Call where
  | applyTokenBudgetUsage (input : UsageInput) (period : Period)
  | applyMediaStorageUsage (input : UsageInput)
  | applyKnowledgeStorageUsage (input : UsageInput)
  | releaseMediaStorageUsage (input : UsageInput)
  | releaseKnowledgeStorageUsage (input : UsageInput)
deriving DecidableEq, Repr

def step (db : Db) : Call → Db
  | .applyTokenBudgetUsage input period => (applyTokenBudgetUsageTx db input period).1
  | .applyMediaStorageUsage input => (applyMediaStorageUsageTx db input).1
  | .applyKnowledgeStorageUsage input => (applyKnowledgeStorageUsageTx db input).1
  | .releaseMediaStorageUsage input => (releaseMediaStorageUsageTx db input).1
  | .releaseKnowledgeStorageUsage input => (releaseKnowledgeStorageUsageTx db input).1

/-- The counters of a workspace. -/
inductive Counter where
  | tokenBudget (period : Period)
  | storage (column : Storage)
deriving DecidableEq, Repr

/-- Whether the log's row is about the counter. -/
def Counter.logs (workspaceId : String) (event : UsageEvent) : Counter → Bool
  | .tokenBudget period =>
    workspaceId == event.workspaceId && .tokenBudget == event.dimension &&
      some period == event.period
  | .storage column => workspaceId == event.workspaceId && column.dimension == event.dimension

/-- A counter that is not there yet stands at zero. -/
def Db.used (db : Db) (workspaceId : String) : Counter → Int
  | .tokenBudget period =>
    ((db.counters.get? (workspaceId, period)).map PeriodCounter.usedCredits).getD 0
  | .storage column => ((db.states.get? workspaceId).map column.used).getD 0

/-- The sum of the deltas recorded for the counter. -/
def Db.recorded (db : Db) (workspaceId : String) (counter : Counter) : Int :=
  ((db.events.filter (counter.logs workspaceId)).map UsageEvent.delta).sum

/-- The column of the state row that repeats the token counter. -/
def Db.mirrored (db : Db) (workspaceId : String) : Int :=
  ((db.states.get? workspaceId).map QuotaState.tokenBudgetUsed).getD 0

/-- The period that the workspace's last token apply was for. -/
def Db.lastPeriod (db : Db) (workspaceId : String) : Option Period :=
  ((db.events.filter fun event =>
    workspaceId == event.workspaceId && .tokenBudget == event.dimension).getLast?).bind
    UsageEvent.period

/-! ## What an operation writes -/

/-- One counter moves by `delta`, the log gains that delta for it, and a token counter is
repeated in the state row. -/
structure Writes (db db' : Db) (input : UsageInput) (counter : Counter) (delta : Int) :
    Prop where
  used : db'.used input.workspaceId counter = db.used input.workspaceId counter + delta
  frame : ∀ w c, (w, c) ≠ (input.workspaceId, counter) → db'.used w c = db.used w c
  logged : ∃ event, db'.events = db.events ++ [event] ∧ event.delta = delta ∧
    ∀ w c, c.logs w event = true ↔ (w, c) = (input.workspaceId, counter)
  mirrored : ∀ w, db'.mirrored w =
    match counter with
    | .tokenBudget _ =>
      if w = input.workspaceId then db'.used input.workspaceId counter else db.mirrored w
    | .storage _ => db.mirrored w

namespace Storage

theorem used_increment (state : QuotaState) (delta : Int) (limits : Limits)
    (column other : Storage) :
    other.used { column.increment state delta with limits } =
      if other = column then column.used state + delta else other.used state := by
  cases column <;> cases other <;> simp [used, increment]

theorem tokenBudgetUsed_increment (state : QuotaState) (delta : Int) (column : Storage) :
    (column.increment state delta).tokenBudgetUsed = state.tokenBudgetUsed := by
  cases column <;> rfl

theorem dimension_injective {column other : Storage} :
    column.dimension = other.dimension ↔ column = other := by
  cases column <;> cases other <;> simp [dimension]

end Storage

/-- The row that the lock gives is there afterwards, and its columns are what was used. -/
theorem lockOrCreateQuotaStateRow_spec (db : Db) (input : UsageInput) :
    ∃ states, db.lockOrCreateQuotaStateRow input =
        ({ db with states }, (db.lockOrCreateQuotaStateRow input).2) ∧
      states.get? input.workspaceId = some (db.lockOrCreateQuotaStateRow input).2 ∧
      (∀ w, w ≠ input.workspaceId → states.get? w = db.states.get? w) ∧
      (∀ column : Storage, column.used (db.lockOrCreateQuotaStateRow input).2 =
        db.used input.workspaceId (.storage column)) ∧
      (db.lockOrCreateQuotaStateRow input).2.tokenBudgetUsed = db.mirrored input.workspaceId := by
  unfold Db.lockOrCreateQuotaStateRow
  cases found : db.states.get? input.workspaceId with
  | some existing =>
    exact ⟨db.states, rfl, found, fun _ _ => rfl, by simp [Db.used, found],
      by simp [Db.mirrored, found]⟩
  | none =>
    refine ⟨_, rfl, by simp [KeyedTable.get?_put], fun w other => ?_, ?_, ?_⟩
    · rw [KeyedTable.get?_put, if_neg other]
    · intro column
      cases column <;> simp [Db.used, found, Storage.used]
    · simp [Db.mirrored, found]

theorem lockOrCreateTokenBudgetPeriodCounterRow_spec (db : Db) (input : UsageInput)
    (period : Period) :
    ∃ counters, db.lockOrCreateTokenBudgetPeriodCounterRow input period =
        ({ db with counters }, (db.lockOrCreateTokenBudgetPeriodCounterRow input period).2) ∧
      counters.get? (input.workspaceId, period) =
        some (db.lockOrCreateTokenBudgetPeriodCounterRow input period).2 ∧
      (∀ k, k ≠ (input.workspaceId, period) → counters.get? k = db.counters.get? k) ∧
      (db.lockOrCreateTokenBudgetPeriodCounterRow input period).2.usedCredits =
        db.used input.workspaceId (.tokenBudget period) := by
  unfold Db.lockOrCreateTokenBudgetPeriodCounterRow
  cases found : db.counters.get? (input.workspaceId, period) with
  | some existing => exact ⟨db.counters, rfl, found, fun _ _ => rfl, by simp [Db.used, found]⟩
  | none =>
    refine ⟨_, rfl, by simp [KeyedTable.get?_put], fun k other => ?_, by simp [Db.used, found]⟩
    rw [KeyedTable.get?_put, if_neg other]

/-- Both storage operations: the row under the lock, moved by `delta`. -/
theorem writes_storage (db : Db) (input : UsageInput) (column : Storage) (delta : Int) :
    Writes db
      ((db.lockOrCreateQuotaStateRow input).1.writeStorage input column
        { column.increment (db.lockOrCreateQuotaStateRow input).2 delta with
          limits := input.limits } delta)
      input (.storage column) delta := by
  obtain ⟨states, locked, row, others, used, mirrored⟩ := lockOrCreateQuotaStateRow_spec db input
  generalize (db.lockOrCreateQuotaStateRow input).2 = existing at *
  rw [locked]
  refine ⟨?_, ?_, ⟨_, rfl, rfl, ?_⟩, ?_⟩
  · have was := used column
    simp only [Db.used] at was
    simp only [Db.used, Db.writeStorage, KeyedTable.get?_update_self, row, Option.map_some,
      Option.getD_some, Storage.used_increment, if_pos, was]
  · intro w c other
    cases c with
    | tokenBudget p => rfl
    | storage col =>
      by_cases same : w = input.workspaceId
      · subst same
        have apart : col ≠ column := fun e => other (by rw [e])
        have was := used col
        simp only [Db.used] at was
        simp only [Db.used, Db.writeStorage, KeyedTable.get?_update_self, row, Option.map_some,
          Option.getD_some, Storage.used_increment, if_neg apart, was]
      · simp [Db.used, Db.writeStorage, KeyedTable.get?_update_of_ne _ _ same, others w same]
  · intro w c
    cases c with
    | tokenBudget p =>
      cases column <;> simp [Counter.logs, Storage.dimension]
    | storage col =>
      simp [Counter.logs, Storage.dimension_injective]
  · intro w
    by_cases same : w = input.workspaceId
    · subst same
      rw [← mirrored]
      simp only [Db.mirrored, Db.writeStorage, KeyedTable.get?_update_self, row, Option.map_some,
        Option.getD_some, Storage.tokenBudgetUsed_increment]
    · simp [Db.mirrored, Db.writeStorage, KeyedTable.get?_update_of_ne _ _ same, others w same]

theorem writes_applyTokenBudgetUsageTx (db : Db) (input : UsageInput) (period : Period) :
    Writes db (applyTokenBudgetUsageTx db input period).1 input (.tokenBudget period)
      (applyTokenBudgetUsageTx db input period).2.appliedDelta := by
  obtain ⟨counters, locked, row, others, used⟩ :=
    lockOrCreateTokenBudgetPeriodCounterRow_spec db input period
  unfold applyTokenBudgetUsageTx
  generalize (db.lockOrCreateTokenBudgetPeriodCounterRow input period).2 = existing at *
  rw [locked]
  dsimp only
  generalize appliedDelta existing.usedCredits input.limits.tokenBudgetLimit input.delta = delta
  generalize written : ({ db with
    counters := counters.update (input.workspaceId, period) fun _ =>
      { usedCredits := existing.usedCredits + delta
        limitCredits := input.limits.tokenBudgetLimit } } : Db) = mid
  obtain ⟨states, stateLocked, stateRow, stateOthers, columns, -⟩ :=
    lockOrCreateQuotaStateRow_spec mid input
  generalize (mid.lockOrCreateQuotaStateRow input).2 = state at *
  rw [stateLocked]
  subst written
  refine ⟨?_, ?_, ⟨_, rfl, rfl, ?_⟩, ?_⟩
  · rw [← used]
    simp [Db.used, row]
  · intro w c other
    cases c with
    | tokenBudget p =>
      have apart : (w, p) ≠ (input.workspaceId, period) := by
        intro e
        cases e
        exact other rfl
      simp only [Db.used, KeyedTable.get?_update_of_ne _ _ apart, others _ apart]
    | storage col =>
      by_cases same : w = input.workspaceId
      · subst same
        have was := columns col
        simp only [Db.used] at was ⊢
        simp only [KeyedTable.get?_update_self, stateRow, Option.map_some, Option.getD_some, ← was]
        cases col <;> rfl
      · simp only [Db.used, KeyedTable.get?_update_of_ne _ _ same, stateOthers w same]
  · intro w c
    cases c with
    | tokenBudget p => simp [Counter.logs]
    | storage col => cases col <;> simp [Counter.logs, Storage.dimension]
  · intro w
    by_cases same : w = input.workspaceId
    · subst same
      simp [Db.mirrored, Db.used, row, stateRow]
    · simp [Db.mirrored, KeyedTable.get?_update_of_ne _ _ same, stateOthers w same, same]

/-! ## The invariant -/

/-- The rows and the log of a workspace say the same, and nothing is negative. -/
def Agrees (db : Db) : Prop :=
  ∀ w, (∀ c, 0 ≤ db.used w c ∧ db.recorded w c = db.used w c) ∧
    db.mirrored w = ((db.lastPeriod w).map fun p => db.used w (.tokenBudget p)).getD 0

theorem agrees_empty : Agrees ∅ := by
  intro w
  refine ⟨fun c => ?_, rfl⟩
  cases c <;> exact ⟨Int.le_refl 0, rfl⟩

section
variable {db db' : Db} {input : UsageInput} {counter : Counter} {delta : Int}

theorem Writes.recorded (wrote : Writes db db' input counter delta) (w : String) (c : Counter) :
    db'.recorded w c =
      db.recorded w c + if (w, c) = (input.workspaceId, counter) then delta else 0 := by
  obtain ⟨event, events, moved, logs⟩ := wrote.logged
  simp only [Db.recorded, events, List.filter_append, List.map_append, List.sum_append]
  by_cases own : (w, c) = (input.workspaceId, counter)
  · simp [(logs w c).mpr own, moved, own]
  · simp [mt (logs w c).mp own, own]

/-- The last period of a workspace changes at its own token applies. -/
theorem Writes.lastPeriod (wrote : Writes db db' input counter delta) (w : String) :
    db'.lastPeriod w =
      match counter with
      | .tokenBudget p => if w = input.workspaceId then some p else db.lastPeriod w
      | .storage _ => db.lastPeriod w := by
  obtain ⟨event, events, -, logs⟩ := wrote.logged
  have own := (logs input.workspaceId counter).mpr rfl
  simp only [Db.lastPeriod, events, List.filter_append]
  cases counter with
  | tokenBudget p =>
    simp only [Counter.logs, Bool.and_eq_true, beq_iff_eq] at own
    obtain ⟨⟨workspace, dimension⟩, period⟩ := own
    by_cases same : w = input.workspaceId
    · simp [same, ← workspace, ← dimension, ← period]
    · simp [same, ← workspace]
  | storage column =>
    simp only [Counter.logs, Bool.and_eq_true, beq_iff_eq] at own
    cases column <;> simp [← own.2, Storage.dimension]

/-- The counter that an operation moves stays non-negative; all else follows from what it
writes. -/
theorem agrees_of_writes (agrees : Agrees db) (wrote : Writes db db' input counter delta)
    (room : 0 ≤ db.used input.workspaceId counter + delta) : Agrees db' := by
  intro w
  refine ⟨fun c => ?_, ?_⟩
  · obtain ⟨nonneg, same⟩ := (agrees w).1 c
    rw [wrote.recorded, same]
    by_cases own : (w, c) = (input.workspaceId, counter)
    · cases own
      rw [if_pos rfl, wrote.used]
      exact ⟨room, rfl⟩
    · rw [if_neg own, wrote.frame w c own, add_zero]
      exact ⟨nonneg, rfl⟩
  · have before := (agrees w).2
    rw [wrote.mirrored, wrote.lastPeriod]
    cases counter with
    | tokenBudget p =>
      by_cases same : w = input.workspaceId
      · simp [same]
      · have kept : ∀ p, db'.used w (.tokenBudget p) = db.used w (.tokenBudget p) :=
          fun p => wrote.frame w _ fun e => same (Prod.mk.inj e).1
        simpa [same, kept] using before
    | storage column =>
      have kept : ∀ p, db'.used w (.tokenBudget p) = db.used w (.tokenBudget p) :=
        fun p => wrote.frame w _ (by simp)
      simpa [kept] using before

end

/-! ## What an operation reports -/

/-- An apply adds all that the limit leaves room for, and reports whether that was less than
it was asked for. -/
def Adds (db db' : Db) (input : UsageInput) (counter : Counter) (limit : Option Int)
    (appliedDelta : Int) (capped : Bool) : Prop :=
  let used := db.used input.workspaceId counter
  appliedDelta = limit.elim input.delta (fun limit => min input.delta (max 0 (limit - used))) ∧
  db'.used input.workspaceId counter = used + appliedDelta ∧
  (∀ bound ∈ limit, db'.used input.workspaceId counter ≤ max used bound) ∧
  (capped = true ↔
    db'.used input.workspaceId counter - db.used input.workspaceId counter < input.delta)

/-- A release takes back what is there, at most. -/
def Takes (db db' : Db) (input : UsageInput) (counter : Counter) (releasedDelta : Int) : Prop :=
  let used := db.used input.workspaceId counter
  releasedDelta = min input.delta used ∧
  db'.used input.workspaceId counter = used - releasedDelta

namespace Call

def input : Call → UsageInput
  | applyTokenBudgetUsage input _ | applyMediaStorageUsage input
  | applyKnowledgeStorageUsage input | releaseMediaStorageUsage input
  | releaseKnowledgeStorageUsage input => input

/-- The counter that the call is about. -/
def counter : Call → Counter
  | applyTokenBudgetUsage _ period => .tokenBudget period
  | applyMediaStorageUsage _ | releaseMediaStorageUsage _ => .storage .media
  | applyKnowledgeStorageUsage _ | releaseKnowledgeStorageUsage _ => .storage .knowledge

/-- The call moves its counter as it should and says so, and moves no other counter. -/
def Right (db : Db) (call : Call) : Prop :=
  (∀ w c, (w, c) ≠ (call.input.workspaceId, call.counter) → (step db call).used w c = db.used w c) ∧
  match call with
  | applyTokenBudgetUsage input period =>
    let (db', applied) := applyTokenBudgetUsageTx db input period
    Adds db db' input (.tokenBudget period) input.limits.tokenBudgetLimit applied.appliedDelta
      applied.capped
  | applyMediaStorageUsage input =>
    let (db', applied) := applyMediaStorageUsageTx db input
    Adds db db' input (.storage .media) input.limits.mediaStorageBytesLimit applied.appliedDelta
      applied.capped
  | applyKnowledgeStorageUsage input =>
    let (db', applied) := applyKnowledgeStorageUsageTx db input
    Adds db db' input (.storage .knowledge) input.limits.knowledgeStorageBytesLimit
      applied.appliedDelta applied.capped
  | releaseMediaStorageUsage input =>
    let (db', released) := releaseMediaStorageUsageTx db input
    Takes db db' input (.storage .media) released.releasedDelta
  | releaseKnowledgeStorageUsage input =>
    let (db', released) := releaseKnowledgeStorageUsageTx db input
    Takes db db' input (.storage .knowledge) released.releasedDelta

end Call

theorem appliedDelta_eq (used : Int) (limit : Option Int) (delta : Int) :
    appliedDelta used limit delta =
      limit.elim delta fun limit => min delta (max 0 (limit - used)) := by
  cases limit with
  | none => rfl
  | some limit =>
    simp only [appliedDelta, Option.map_some, Option.elim_some]
    split <;> split <;> omega

theorem appliedDelta_nonneg (used : Int) (limit : Option Int) {delta : Int} (h : 0 ≤ delta) :
    0 ≤ appliedDelta used limit delta := by
  rw [appliedDelta_eq]
  cases limit with
  | none => exact h
  | some limit => simp only [Option.elim_some]; omega

theorem releasedDelta_eq {used delta : Int} (h : 0 ≤ delta) (nonneg : 0 ≤ used) :
    releasedDelta used delta = min delta used := by
  unfold releasedDelta
  split
  · omega
  · split <;> omega

/-- What an apply writes is what it should add. -/
theorem adds_of_writes {db db' : Db} {input : UsageInput} {counter : Counter}
    {limit : Option Int} {applied : Int}
    (amount : applied = appliedDelta (db.used input.workspaceId counter) limit input.delta)
    (wrote : Writes db db' input counter applied) :
    Adds db db' input counter limit applied (applied < input.delta) := by
  refine ⟨amount.trans (appliedDelta_eq ..), wrote.used, fun bound limited => ?_, ?_⟩
  · cases limited
    have exact_ := amount.trans (appliedDelta_eq ..)
    simp only [Option.elim_some] at exact_
    rw [wrote.used]
    omega
  · rw [wrote.used, decide_eq_true_iff]
    omega

theorem applied_applyTokenBudgetUsageTx (db : Db) (input : UsageInput) (period : Period) :
    (applyTokenBudgetUsageTx db input period).2.appliedDelta =
      appliedDelta (db.used input.workspaceId (.tokenBudget period))
        input.limits.tokenBudgetLimit input.delta := by
  obtain ⟨counters, locked, -, -, used⟩ :=
    lockOrCreateTokenBudgetPeriodCounterRow_spec db input period
  rw [← used]
  rfl

section
variable (column : Storage) (db : Db) (input : UsageInput)

theorem applied_applyUsage :
    (applyUsage column db input).2.appliedDelta =
      appliedDelta (db.used input.workspaceId (.storage column)) (column.limit input.limits)
        input.delta := by
  obtain ⟨states, locked, -, -, used, -⟩ := lockOrCreateQuotaStateRow_spec db input
  rw [← used]
  rfl

theorem released_releaseUsage :
    (releaseUsage column db input).2.releasedDelta =
      releasedDelta (db.used input.workspaceId (.storage column)) input.delta := by
  obtain ⟨states, locked, -, -, used, -⟩ := lockOrCreateQuotaStateRow_spec db input
  rw [← used]
  rfl

theorem writes_applyUsage :
    Writes db (applyUsage column db input).1 input (.storage column)
      (applyUsage column db input).2.appliedDelta :=
  writes_storage db input column _

theorem writes_releaseUsage :
    Writes db (releaseUsage column db input).1 input (.storage column)
      (-(releaseUsage column db input).2.releasedDelta) :=
  writes_storage db input column _

variable {column db input}

theorem adds_applyUsage :
    Adds db (applyUsage column db input).1 input (.storage column) (column.limit input.limits)
      (applyUsage column db input).2.appliedDelta (applyUsage column db input).2.capped :=
  adds_of_writes (applied_applyUsage column db input) (writes_applyUsage column db input)

theorem takes_releaseUsage (h : 0 ≤ input.delta)
    (nonneg : 0 ≤ db.used input.workspaceId (.storage column)) :
    Takes db (releaseUsage column db input).1 input (.storage column)
      (releaseUsage column db input).2.releasedDelta := by
  have amount := released_releaseUsage column db input
  rw [releasedDelta_eq h nonneg] at amount
  exact ⟨amount, (writes_releaseUsage column db input).used.trans (by rw [Int.sub_eq_add_neg])⟩

theorem agrees_applyUsage (agrees : Agrees db) (h : 0 ≤ input.delta) :
    Agrees (applyUsage column db input).1 := by
  have added := appliedDelta_nonneg (db.used input.workspaceId (.storage column))
    (column.limit input.limits) h
  rw [← applied_applyUsage] at added
  exact agrees_of_writes agrees (writes_applyUsage column db input)
    (Int.add_nonneg ((agrees _).1 _).1 added)

theorem agrees_releaseUsage (agrees : Agrees db) (h : 0 ≤ input.delta) :
    Agrees (releaseUsage column db input).1 := by
  have nonneg := ((agrees input.workspaceId).1 (.storage column)).1
  obtain ⟨amount, -⟩ := takes_releaseUsage h nonneg
  exact agrees_of_writes agrees (writes_releaseUsage column db input) (by omega)

end

theorem agrees_applyTokenBudgetUsageTx {db : Db} {input : UsageInput} {period : Period}
    (agrees : Agrees db) (h : 0 ≤ input.delta) :
    Agrees (applyTokenBudgetUsageTx db input period).1 := by
  have added := appliedDelta_nonneg (db.used input.workspaceId (.tokenBudget period))
    input.limits.tokenBudgetLimit h
  rw [← applied_applyTokenBudgetUsageTx] at added
  exact agrees_of_writes agrees (writes_applyTokenBudgetUsageTx db input period)
    (Int.add_nonneg ((agrees _).1 _).1 added)

/-- One call: the invariant is kept. -/
theorem agrees_step {db : Db} (agrees : Agrees db) (call : Call) (h : 0 ≤ call.input.delta) :
    Agrees (step db call) := by
  cases call with
  | applyTokenBudgetUsage input period => exact agrees_applyTokenBudgetUsageTx agrees h
  | applyMediaStorageUsage input => exact agrees_applyUsage agrees h
  | applyKnowledgeStorageUsage input => exact agrees_applyUsage agrees h
  | releaseMediaStorageUsage input => exact agrees_releaseUsage agrees h
  | releaseKnowledgeStorageUsage input => exact agrees_releaseUsage agrees h

/-- One call: what it reports and how it moves its counter. -/
theorem right_of_agrees {db : Db} (agrees : Agrees db) (call : Call)
    (h : 0 ≤ call.input.delta) : call.Right db := by
  cases call with
  | applyTokenBudgetUsage input period =>
    have wrote := writes_applyTokenBudgetUsageTx db input period
    exact ⟨wrote.frame, adds_of_writes (applied_applyTokenBudgetUsageTx db input period) wrote⟩
  | applyMediaStorageUsage input =>
    exact ⟨(writes_applyUsage .media db input).frame, adds_applyUsage⟩
  | applyKnowledgeStorageUsage input =>
    exact ⟨(writes_applyUsage .knowledge db input).frame, adds_applyUsage⟩
  | releaseMediaStorageUsage input =>
    exact ⟨(writes_releaseUsage .media db input).frame,
      takes_releaseUsage h ((agrees input.workspaceId).1 (.storage .media)).1⟩
  | releaseKnowledgeStorageUsage input =>
    exact ⟨(writes_releaseUsage .knowledge db input).frame,
      takes_releaseUsage h ((agrees input.workspaceId).1 (.storage .knowledge)).1⟩

/-- In every run of applies and releases, whatever the limits: the rows and the log agree
after each call, the token column of the state row is the counter of the period last applied
to, and each call moves its counter by what it should and reports it. -/
theorem counters_agree (calls : List Call) (nonneg : ∀ call ∈ calls, 0 ≤ call.input.delta) :
    EveryState step Agrees ∅ calls ∧ EveryStep step (fun db call => call.Right db) ∅ calls := by
  have steps : EveryStep step (fun _ call => 0 ≤ call.input.delta) ∅ calls :=
    everyStep_of_events nonneg
  have agree := everyState_of_preserved (I := Agrees) (fun _ call agrees => agrees_step agrees call)
    agrees_empty steps
  refine ⟨agree, agree.everyStep (everyStep_mono ?_ steps)⟩
  exact fun db call h agrees => right_of_agrees agrees call h

namespace Sample

def limits : Limits := ⟨some 10, none, none, some 10, some 10⟩

/-- Two token applies for different periods. -/
def twoPeriods : List Call :=
  [.applyTokenBudgetUsage ⟨"w", 3, "web_chat", limits⟩ (0, 30),
    .applyTokenBudgetUsage ⟨"w", 12, "web_chat", limits⟩ (30, 60)]

theorem two_periods_agree :
    EveryState step Agrees ∅ twoPeriods ∧
      EveryStep step (fun db call => call.Right db) ∅ twoPeriods :=
  counters_agree twoPeriods (by decide)

/-- The earlier period's counter is neither the column of the state row nor the sum of the
token deltas. -/
theorem earlier_period_differs :
    let db := run step ∅ twoPeriods
    db.used "w" (.tokenBudget (0, 30)) = 3 ∧ db.used "w" (.tokenBudget (30, 60)) = 10 ∧
      db.mirrored "w" = 10 ∧ (db.events.map UsageEvent.delta).sum = 13 := by
  decide +kernel

end Sample

end Persai.QuotaUsage
