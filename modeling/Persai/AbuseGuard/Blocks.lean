import Persai.AbuseGuard.Attempts

/-!
# Attempts are counted and blocks hold

* `Tracked`: what a row keeps of the attempts it counts; `tracks_saved`;
* `counted_saved`: when the count of a row stays right;
* `block_kept_iff`: when an attempt leaves a block as long as it was;
* `abuse_blocks_hold_iff`: the two together, in every state of every run.
-/

namespace Persai.AbuseGuard

open Runs

variable {υ : Type} [DecidableEq υ]

abbrev Registered (υ : Type) := List (Attempt υ × Result)

/-- How many attempts came since a date. -/
def attemptsSince (log : Registered υ) (date : Int) : Nat :=
  (log.filter (date ≤ ·.1.attemptedAt)).length

/-- A row counts the attempts since the start of its window. -/
def Counted (row : Option Row) (log : Registered υ) : Prop :=
  ∀ r ∈ row, r.requestCount = attemptsSince log r.windowStartedAt

/-- A date is at least `B`. -/
def Reaches (date : Option Int) (B : Int) : Prop := ∃ B' ∈ date, B ≤ B'

instance : DecidableRel Reaches := fun date B => by
  unfold Reaches
  infer_instance

/-- Of two attempts of one user, the second is blocked as long as the first if it comes before
the end of that block. -/
def BlockHolds (earlier later : Attempt υ × Result) : Prop :=
  earlier.1.userId = later.1.userId → ∀ B ∈ earlier.2.finalBlockedUntil,
    earlier.1.attemptedAt < B → later.1.attemptedAt < B → Reaches later.2.finalBlockedUntil B

instance : DecidableRel (BlockHolds (υ := υ)) := fun _ _ => by
  unfold BlockHolds
  infer_instance

/-- The number that an attempt has in the window of a row. -/
def attemptNumber (c : Settings) (row : Option Row) (attemptedAt : Int) : Nat :=
  match row with
  | some r => if attemptedAt - r.windowStartedAt ≤ c.windowMs then r.requestCount + 1 else 1
  | none => 1

namespace State

def attemptsOf (s : State υ) (u : υ) : Registered υ := s.registered.filter (·.1.userId = u)

def CountsHold (s : State υ) : Prop :=
  (∀ u, Counted (s.userRows u) (s.attemptsOf u)) ∧ Counted s.assistantRow s.registered

def BlocksHold (s : State υ) : Prop := s.registered.Pairwise BlockHolds

/-- The attempt does not come at the very date at which a window started. -/
def Untied (s : State υ) (a : Attempt υ) : Prop :=
  (∀ r ∈ s.userRows a.userId, r.windowStartedAt ≠ a.attemptedAt) ∧
  ∀ r ∈ s.assistantRow, r.windowStartedAt ≠ a.attemptedAt

/-- The counter of the user slows the attempt down. -/
def UserSlows (c : Settings) (s : State υ) (a : Attempt υ) : Prop :=
  c.userSlowdownRequestsPerMinute ≤ attemptNumber c (s.userRows a.userId) a.attemptedAt ∧
  attemptNumber c (s.userRows a.userId) a.attemptedAt < c.userBlockRequestsPerMinute

/-- The counter of the assistant blocks the attempt, or it does not slow it down and the
assistant is blocked up to `B`. -/
def AssistantBlocks (c : Settings) (s : State υ) (a : Attempt υ) (B : Int) : Prop :=
  c.assistantBlockRequestsPerMinute ≤ attemptNumber c s.assistantRow a.attemptedAt ∨
  attemptNumber c s.assistantRow a.attemptedAt < c.assistantSlowdownRequestsPerMinute ∧
    ∃ r ∈ s.assistantRow, Reaches r.blockedUntil B

/-- Where the counter of a blocked user slows an attempt down, the one of the assistant blocks. -/
def StaysBlocked (c : Settings) (s : State υ) (a : Attempt υ) : Prop :=
  ∀ r ∈ s.userRows a.userId, ∀ B ∈ r.blockedUntil, a.attemptedAt < B →
    s.UserSlows c a → s.AssistantBlocks c a B

instance (s : State υ) (a : Attempt υ) : Decidable (s.Untied a) := by
  unfold Untied
  infer_instance

instance (c : Settings) (s : State υ) (a : Attempt υ) : Decidable (s.UserSlows c a) := by
  unfold UserSlows
  infer_instance

instance (c : Settings) (s : State υ) (a : Attempt υ) (B : Int) :
    Decidable (s.AssistantBlocks c a B) := by
  unfold AssistantBlocks
  infer_instance

instance (c : Settings) (s : State υ) (a : Attempt υ) : Decidable (s.StaysBlocked c a) := by
  unfold StaysBlocked
  infer_instance

end State

variable {c : Settings} {s : State υ} {a : Attempt υ} {log : Registered υ} {row : Option Row}
  {result : Result}

@[simp] theorem not_reaches_none (B : Int) : ¬ Reaches none B := fun ⟨_, member, _⟩ => by
  cases member

@[simp] theorem reaches_some {B' B : Int} : Reaches (some B') B ↔ B ≤ B' := by simp [Reaches]

theorem reaches_maxDate {a b : Option Int} {B : Int} :
    Reaches (maxDate a b) B ↔ Reaches a B ∨ Reaches b B := by
  cases a with
  | none => simp [maxDate]
  | some a =>
    cases b with
    | none => simp [maxDate]
    | some b =>
      simp only [maxDate, reaches_some]
      split <;> omega

theorem mem_of_maxDate {a b : Option Int} {B : Int} (member : B ∈ maxDate a b) :
    B ∈ a ∨ B ∈ b := by
  unfold maxDate at member
  split at member
  · exact .inr member
  · exact .inl member
  · cases member
    split
    · exact .inl rfl
    · exact .inr rfl

/-! ## A row and the attempts it counts -/

section

omit [DecidableEq υ]

/-- What a row keeps of the attempts it counts. -/
structure Tracks (c : Settings) (r : Row) (log : Registered υ) : Prop where
  override : r.adminOverrideUntil = none
  reason : r.blockReason.getD "" ∉ legacyQuotaPressureBlockReasons
  recent : r.lastSeenAt - r.windowStartedAt ≤ c.windowMs
  started : ∃ e ∈ log, e.1.attemptedAt = r.windowStartedAt
  seen : ∀ e ∈ log, e.1.attemptedAt ≤ r.lastSeenAt
  last : ∃ before e, log = before ++ [e] ∧ e.1.attemptedAt = r.lastSeenAt ∧
    e.2.finalBlockedUntil = r.blockedUntil
  blocked : ∀ B ∈ r.blockedUntil, B ≤ r.lastSeenAt + c.tempBlockSeconds * 1000

/-- There is a row once there was an attempt. -/
def Tracked (c : Settings) (row : Option Row) (log : Registered υ) : Prop :=
  (row = none ∧ log = []) ∨ ∃ r, row = some r ∧ Tracks c r log

/-- The row that an attempt finds or creates. -/
structure Ready (c : Settings) (r : Row) (t : Int) : Prop where
  override : r.adminOverrideUntil = none
  reason : r.blockReason.getD "" ∉ legacyQuotaPressureBlockReasons
  blocked : ∀ B ∈ r.blockedUntil, B ≤ t + c.tempBlockSeconds * 1000

theorem Tracked.ready (tracked : Tracked c row log) {t : Int}
    (order : ∀ e ∈ log, e.1.attemptedAt ≤ t) : Ready c (lockOrCreateRow c row t) t := by
  obtain ⟨rfl, rfl⟩ | ⟨r, rfl, tracks⟩ := tracked
  · exact ⟨rfl, by simp [lockOrCreateRow, legacyQuotaPressureBlockReasons], nofun⟩
  · obtain ⟨before, e, rfl, seen, -⟩ := tracks.last
    have late := order e (by simp)
    refine ⟨tracks.override, tracks.reason, fun B member => ?_⟩
    have := tracks.blocked B member
    omega

/-- A counter decides from the number of the attempt. -/
theorem Ready.decision_eq {r : Row} {t : Int} (ready : Ready c r t) (block slowdown : Nat)
    (name : String) :
    r.decision c t block slowdown name =
      if block ≤ r.countAt c t then
        ⟨some (t + c.tempBlockSeconds * 1000), none, some (name ++ "_request_rate_limit_blocked")⟩
      else if slowdown ≤ r.countAt c t then
        ⟨none, some (t + c.slowdownSeconds * 1000), some (name ++ "_request_rate_limit_slowdown")⟩
      else ⟨r.blockedUntil, r.slowedUntil, r.blockReason⟩ := by
  have free : r.bypass t = false := by rw [Row.bypass, ready.override]; rfl
  rw [Row.decision, free, clearLegacyQuotaPressureDecision, if_neg ready.reason]
  rfl

theorem Ready.decided {r : Row} {t : Int} (ready : Ready c r t) (block slowdown : Nat)
    (name : String)
    (blocked : name ++ "_request_rate_limit_blocked" ∉ legacyQuotaPressureBlockReasons)
    (slowed : name ++ "_request_rate_limit_slowdown" ∉ legacyQuotaPressureBlockReasons) :
    (∀ B ∈ (r.decision c t block slowdown name).blockedUntil,
      B ≤ t + c.tempBlockSeconds * 1000) ∧
    (r.decision c t block slowdown name).reason.getD "" ∉ legacyQuotaPressureBlockReasons := by
  rw [ready.decision_eq]
  split
  · exact ⟨fun B member => by cases member; exact Int.le_refl _, blocked⟩
  · split
    · exact ⟨nofun, slowed⟩
    · exact ⟨ready.blocked, ready.reason⟩

/-- A decision blocks as long as the row did if it blocks anew or leaves the row as it was. -/
theorem Ready.reaches_decision {r : Row} {t : Int} (ready : Ready c r t) (block slowdown : Nat)
    (name : String) {B : Int} (bound : B ≤ t + c.tempBlockSeconds * 1000) :
    Reaches (r.decision c t block slowdown name).blockedUntil B ↔
      block ≤ r.countAt c t ∨ r.countAt c t < slowdown ∧ Reaches r.blockedUntil B := by
  rw [ready.decision_eq]
  split
  · exact iff_of_true (reaches_some.mpr bound) (.inl ‹_›)
  · rename_i below
    split
    · rename_i slows
      refine iff_of_false (not_reaches_none B) ?_
      rintro (blocks | ⟨slower, -⟩)
      · exact below blocks
      · exact absurd slows (Nat.not_le.mpr slower)
    · rename_i slower
      exact ⟨fun kept => .inr ⟨Nat.not_le.mp slower, kept⟩,
        fun reaches => (reaches.resolve_left below).2⟩

theorem windowAt_cases (r : Row) (c : Settings) (t : Int) :
    (c.windowMs < t - r.windowStartedAt ∧ r.windowAt c t = t) ∨
      (t - r.windowStartedAt ≤ c.windowMs ∧ r.windowAt c t = r.windowStartedAt) := by
  unfold Row.windowAt
  split
  · exact .inl ⟨‹_›, rfl⟩
  · exact .inr ⟨Int.not_lt.mp ‹_›, rfl⟩

theorem tracks_saved (tracked : Tracked c row log)
    (order : ∀ e ∈ log, e.1.attemptedAt ≤ a.attemptedAt)
    (blocked : ∀ B ∈ result.finalBlockedUntil, B ≤ a.attemptedAt + c.tempBlockSeconds * 1000)
    (reason : result.finalReason.getD "" ∉ legacyQuotaPressureBlockReasons) :
    Tracks c ((lockOrCreateRow c row a.attemptedAt).saved c a.attemptedAt result)
      (log ++ [(a, result)]) := by
  have ready := tracked.ready order
  refine ⟨?_, reason, ?_, ?_, ?_, ⟨log, (a, result), rfl, rfl, rfl⟩, blocked⟩
  · simp only [Row.saved, ready.override, ite_self]
  · simp only [Row.saved]
    obtain ⟨-, same⟩ | ⟨within, same⟩ := windowAt_cases (lockOrCreateRow c row a.attemptedAt) c
      a.attemptedAt <;> rw [same] <;> omega
  · obtain ⟨-, same⟩ | ⟨within, same⟩ := windowAt_cases (lockOrCreateRow c row a.attemptedAt) c
      a.attemptedAt
    · exact ⟨(a, result), by simp, same.symm⟩
    · obtain ⟨rfl, rfl⟩ | ⟨r, rfl, tracks⟩ := tracked
      · simp only [lockOrCreateRow] at within
        omega
      · obtain ⟨e, member, start⟩ := tracks.started
        exact ⟨e, List.mem_append_left _ member, start.trans same.symm⟩
  · intro e member
    rcases List.mem_append.mp member with earlier | last
    · exact order e earlier
    · rw [List.mem_singleton.mp last]
      exact Int.le_refl _

theorem attemptsSince_append (log log' : Registered υ) (date : Int) :
    attemptsSince (log ++ log') date = attemptsSince log date + attemptsSince log' date := by
  rw [attemptsSince, List.filter_append, List.length_append]
  rfl

theorem attemptsSince_singleton {date : Int} (since : date ≤ a.attemptedAt) :
    attemptsSince [(a, result)] date = 1 := by
  simp [attemptsSince, since]

/-- The count of a row stays right exactly if the attempt does not come at the start of its
window. -/
theorem counted_saved (tracked : Tracked c row log)
    (order : ∀ e ∈ log, e.1.attemptedAt ≤ a.attemptedAt) (counted : Counted row log) :
    Counted (some ((lockOrCreateRow c row a.attemptedAt).saved c a.attemptedAt result))
        (log ++ [(a, result)]) ↔
      ∀ r ∈ row, r.windowStartedAt ≠ a.attemptedAt := by
  have saved : Counted (some ((lockOrCreateRow c row a.attemptedAt).saved c a.attemptedAt result))
      (log ++ [(a, result)]) ↔ (lockOrCreateRow c row a.attemptedAt).countAt c a.attemptedAt =
        attemptsSince (log ++ [(a, result)])
          ((lockOrCreateRow c row a.attemptedAt).windowAt c a.attemptedAt) :=
    ⟨fun counted => counted _ rfl, fun same r member => by cases member; exact same⟩
  rw [saved, attemptsSince_append, Row.countAt]
  obtain ⟨rfl, rfl⟩ | ⟨r, rfl, tracks⟩ := tracked
  · refine iff_of_true ?_ nofun
    have window : (lockOrCreateRow c none a.attemptedAt).windowAt c a.attemptedAt =
        a.attemptedAt := by
      obtain ⟨-, same⟩ | ⟨within, -⟩ := windowAt_cases (lockOrCreateRow c none a.attemptedAt) c
        a.attemptedAt
      · exact same
      · simp only [lockOrCreateRow] at within
        omega
    rw [window, if_pos rfl, attemptsSince_singleton (Int.le_refl _)]
    rfl
  · have only : (∀ r' ∈ some r, r'.windowStartedAt ≠ a.attemptedAt) ↔
        r.windowStartedAt ≠ a.attemptedAt :=
      ⟨fun all => all r rfl, fun ne r' member => by cases member; exact ne⟩
    obtain ⟨e, member, start⟩ := tracks.started
    rw [only, lockOrCreateRow]
    obtain ⟨after, same⟩ | ⟨within, same⟩ := windowAt_cases r c a.attemptedAt
    · -- a new window starts, and all attempts before it came earlier
      have none' : attemptsSince log a.attemptedAt = 0 := by
        rw [attemptsSince, List.length_eq_zero_iff, List.filter_eq_nil_iff]
        intro e member
        have seen := tracks.seen e member
        have recent := tracks.recent
        simp only [decide_eq_true_eq]
        omega
      rw [same, if_pos rfl, none', attemptsSince_singleton (Int.le_refl _)]
      refine iff_of_true rfl ?_
      omega
    · have since : r.windowStartedAt ≤ a.attemptedAt := start ▸ order e member
      rw [same, attemptsSince_singleton since, ← counted r rfl]
      by_cases tied : r.windowStartedAt = a.attemptedAt
      · -- the attempt that started the window is counted already
        have some' : 0 < r.requestCount := by
          rw [counted r rfl, attemptsSince, List.length_pos_iff, ne_eq, List.filter_eq_nil_iff]
          exact fun none => none e member (decide_eq_true (Int.le_of_eq start.symm))
        rw [if_pos tied]
        refine iff_of_false ?_ (not_not_intro tied)
        omega
      · rw [if_neg tied]
        exact iff_of_true rfl tied

theorem countAt_eq {t : Int} (untied : ∀ r ∈ row, r.windowStartedAt ≠ t) :
    (lockOrCreateRow c row t).countAt c t = attemptNumber c row t := by
  unfold Row.countAt attemptNumber
  cases row with
  | none =>
    obtain ⟨-, same⟩ | ⟨within, -⟩ := windowAt_cases (lockOrCreateRow c none t) c t
    · rw [if_pos same]
    · simp only [lockOrCreateRow] at within
      omega
  | some r =>
    obtain ⟨after, same⟩ | ⟨within, same⟩ := windowAt_cases r c t
    · exact (if_pos same).trans (if_neg (Int.not_le.mpr after)).symm
    · rw [lockOrCreateRow, same, if_neg (untied r rfl)]
      exact (if_pos within).symm

/-- The row of a user is blocked as long as any attempt of the user was, up to the date of the
next one. -/
theorem Tracks.reaches {r : Row} (tracks : Tracks c r log)
    (order : ∀ e ∈ log, e.1.attemptedAt ≤ a.attemptedAt) (holds : log.Pairwise BlockHolds)
    (own : ∀ e ∈ log, e.1.userId = a.userId) {e : Attempt υ × Result} (member : e ∈ log) {B : Int}
    (blocked : B ∈ e.2.finalBlockedUntil) (later : e.1.attemptedAt < B)
    (before : a.attemptedAt < B) : Reaches r.blockedUntil B := by
  obtain ⟨first, last, rfl, -, same⟩ := tracks.last
  rw [← same]
  rcases List.mem_append.mp member with earlier | is_last
  · have holds := (List.pairwise_append.mp holds).2.2 e earlier last (by simp)
    exact holds ((own e member).trans (own last (by simp)).symm) B blocked later
      (Int.lt_of_le_of_lt (order last (by simp)) before)
  · rw [List.mem_singleton.mp is_last] at blocked
    exact ⟨B, blocked, Int.le_refl B⟩

end

/-! ## An attempt -/

namespace State

structure Inv (c : Settings) (s : State υ) : Prop where
  user : ∀ u, Tracked c (s.userRows u) (s.attemptsOf u)
  assistant : Tracked c s.assistantRow s.registered

/-- Attempts come in the order of their dates. -/
def InOrder (s : State υ) (a : Attempt υ) : Prop :=
  ∀ e ∈ s.registered, e.1.attemptedAt ≤ a.attemptedAt

theorem attemptsOf_register (c : Settings) (s : State υ) (a : Attempt υ) (u : υ) :
    (s.registerDistributedAttempt c a).attemptsOf u =
      s.attemptsOf u ++ if a.userId = u then [(a, s.outcome c a)] else [] := by
  rw [attemptsOf, registerDistributedAttempt, List.filter_append]
  split <;> simp_all [attemptsOf]

theorem InOrder.user (order : s.InOrder a) (u : υ) :
    ∀ e ∈ s.attemptsOf u, e.1.attemptedAt ≤ a.attemptedAt :=
  fun e member => order e (List.mem_filter.mp member).1

theorem Inv.readyUser (inv : s.Inv c) (order : s.InOrder a) :
    Ready c (s.userState c a) a.attemptedAt :=
  (inv.user a.userId).ready (order.user a.userId)

theorem Inv.readyAssistant (inv : s.Inv c) (order : s.InOrder a) :
    Ready c (s.assistantState c a) a.attemptedAt :=
  inv.assistant.ready order

theorem Inv.outcome (inv : s.Inv c) (order : s.InOrder a) :
    (∀ B ∈ (s.outcome c a).finalBlockedUntil,
      B ≤ a.attemptedAt + c.tempBlockSeconds * 1000) ∧
    (s.outcome c a).finalReason.getD "" ∉ legacyQuotaPressureBlockReasons := by
  obtain ⟨user, userReason⟩ := (inv.readyUser order).decided c.userBlockRequestsPerMinute
    c.userSlowdownRequestsPerMinute "user" (by decide) (by decide)
  obtain ⟨assistant, assistantReason⟩ := (inv.readyAssistant order).decided
    c.assistantBlockRequestsPerMinute c.assistantSlowdownRequestsPerMinute
    "assistant" (by decide) (by decide)
  constructor
  · intro B member
    rcases mem_of_maxDate member with byUser | byAssistant
    · exact user B byUser
    · exact assistant B byAssistant
  · simp only [State.outcome, Row.userDecision, Row.assistantDecision]
    cases reason : ((s.assistantState c a).decision c a.attemptedAt
      c.assistantBlockRequestsPerMinute c.assistantSlowdownRequestsPerMinute
        "assistant").reason with
    | none => exact userReason
    | some text => rwa [reason] at assistantReason

theorem inv_register (inv : s.Inv c) (order : s.InOrder a) :
    (s.registerDistributedAttempt c a).Inv c := by
  obtain ⟨blocked, reason⟩ := inv.outcome order
  constructor
  · intro u
    rw [attemptsOf_register]
    by_cases own : a.userId = u
    · subst own
      rw [if_pos rfl]
      exact .inr ⟨_, Function.update_self .., tracks_saved (inv.user a.userId)
        (order.user a.userId) blocked reason⟩
    · rw [if_neg own, List.append_nil]
      simp only [registerDistributedAttempt, Function.update_of_ne (Ne.symm own)]
      exact inv.user u
  · exact .inr ⟨_, rfl, tracks_saved inv.assistant order blocked reason⟩

theorem countsHold_register (inv : s.Inv c) (order : s.InOrder a) (counts : s.CountsHold) :
    (s.registerDistributedAttempt c a).CountsHold ↔ s.Untied a := by
  have assistant := @counted_saved υ c a _ _ (s.outcome c a) inv.assistant order counts.2
  have user := @counted_saved υ c a _ _ (s.outcome c a) (inv.user a.userId)
    (order.user a.userId) (counts.1 a.userId)
  refine and_congr ?_ assistant
  rw [← user]
  constructor
  · intro all
    have own := all a.userId
    rw [attemptsOf_register, if_pos rfl] at own
    simp only [registerDistributedAttempt, Function.update_self] at own
    exact own
  · intro own u
    rw [attemptsOf_register]
    by_cases same : a.userId = u
    · subst same
      simp only [registerDistributedAttempt, Function.update_self, if_true]
      exact own
    · rw [if_neg same, List.append_nil]
      simp only [registerDistributedAttempt, Function.update_of_ne (Ne.symm same)]
      exact counts.1 u

/-- What an attempt of a blocked user is answered. -/
theorem reaches_outcome (inv : s.Inv c) (order : s.InOrder a) (untied : s.Untied a) {r : Row}
    (found : s.userRows a.userId = some r) {B : Int} (blocked : B ∈ r.blockedUntil) :
    Reaches (s.outcome c a).finalBlockedUntil B ↔ (s.UserSlows c a → s.AssistantBlocks c a B) := by
  have user := inv.readyUser order
  have own : s.userState c a = r := by rw [userState, found]; rfl
  have bound : B ≤ a.attemptedAt + c.tempBlockSeconds * 1000 :=
    user.blocked B (by rw [own]; exact blocked)
  have byUser : (s.userState c a).countAt c a.attemptedAt =
      attemptNumber c (s.userRows a.userId) a.attemptedAt := countAt_eq untied.1
  have byAssistant : (s.assistantState c a).countAt c a.attemptedAt =
      attemptNumber c s.assistantRow a.attemptedAt := countAt_eq untied.2
  have shared : Reaches (s.assistantState c a).blockedUntil B ↔
      ∃ r' ∈ s.assistantRow, Reaches r'.blockedUntil B := by
    obtain ⟨none, -⟩ | ⟨r', found', -⟩ := inv.assistant
    · simp [assistantState, none, lockOrCreateRow]
    · simp [assistantState, found', lockOrCreateRow]
  have kept : Reaches (s.userState c a).blockedUntil B := by
    rw [own]
    exact ⟨B, blocked, Int.le_refl B⟩
  rw [State.outcome, reaches_maxDate, Row.userDecision, Row.assistantDecision,
    user.reaches_decision _ _ _ bound, (inv.readyAssistant order).reaches_decision _ _ _ bound,
    byUser, byAssistant, shared]
  constructor
  · rintro ((blocks | ⟨slower, -⟩) | byAssistant) ⟨slows, below⟩
    · exact absurd blocks (Nat.not_le.mpr below)
    · exact absurd slows (Nat.not_le.mpr slower)
    · exact byAssistant
  · intro needed
    rcases Nat.lt_or_ge (attemptNumber c (s.userRows a.userId) a.attemptedAt)
      c.userSlowdownRequestsPerMinute with slower | slows
    · exact .inl (.inr ⟨slower, kept⟩)
    · rcases Nat.lt_or_ge (attemptNumber c (s.userRows a.userId) a.attemptedAt)
        c.userBlockRequestsPerMinute with below | blocks
      · exact .inr (needed ⟨slows, below⟩)
      · exact .inl (.inl blocks)

theorem blocksHold_register (inv : s.Inv c) (order : s.InOrder a) (untied : s.Untied a)
    (holds : s.BlocksHold) :
    (s.registerDistributedAttempt c a).BlocksHold ↔ s.StaysBlocked c a := by
  have own : ∀ e ∈ s.attemptsOf a.userId, e.1.userId = a.userId :=
    fun e member => of_decide_eq_true (List.mem_filter.mp member).2
  have ofUser : (s.attemptsOf a.userId).Pairwise BlockHolds := List.Pairwise.filter _ holds
  rw [BlocksHold, registerDistributedAttempt, List.pairwise_append]
  constructor
  · rintro ⟨-, -, new⟩ r found B blocked before
    refine (reaches_outcome inv order untied found blocked).mp ?_
    obtain ⟨none, -⟩ | ⟨r', found', tracks⟩ := inv.user a.userId
    · rw [none] at found
      cases found
    · obtain rfl : r' = r := Option.some.inj (found'.symm.trans found)
      obtain ⟨first, last, log, -, same⟩ := tracks.last
      have member : last ∈ s.attemptsOf a.userId := by simp [log]
      exact new last (List.mem_filter.mp member).1 (a, s.outcome c a) (by simp) (own last member) B
        (same ▸ blocked) (Int.lt_of_le_of_lt (order.user _ last member) before) before
  · intro stays
    refine ⟨holds, List.pairwise_singleton .., fun e registered new member => ?_⟩
    rw [List.mem_singleton.mp member]
    intro same B blocked later before
    have member : e ∈ s.attemptsOf a.userId :=
      List.mem_filter.mpr ⟨registered, decide_eq_true same⟩
    obtain ⟨-, empty⟩ | ⟨r, found, tracks⟩ := inv.user a.userId
    · rw [empty] at member
      cases member
    · obtain ⟨B', blocked', longer⟩ := tracks.reaches (order.user _) ofUser own member blocked
        later before
      obtain ⟨B'', member'', longer'⟩ := (reaches_outcome inv order untied found blocked').mpr
        (stays r found B' blocked' (Int.lt_of_lt_of_le before longer))
      exact ⟨B'', member'', Int.le_trans longer longer'⟩

/-- What an attempt must meet. -/
def Proper (c : Settings) (s : State υ) (a : Attempt υ) : Prop :=
  s.Untied a ∧ s.StaysBlocked c a

theorem inv_start (c : Settings) : ({} : State υ).Inv c :=
  ⟨fun _ => .inl ⟨rfl, rfl⟩, .inl ⟨rfl, rfl⟩⟩

theorem holds_register (inv : s.Inv c) (holds : s.CountsHold ∧ s.BlocksHold)
    (order : s.InOrder a) :
    ((s.registerDistributedAttempt c a).CountsHold ∧
      (s.registerDistributedAttempt c a).BlocksHold) ↔ s.Proper c a := by
  rw [countsHold_register inv order holds.1]
  exact and_congr_right fun untied => blocksHold_register inv order untied holds.2

end State

open State

/-- Attempts with dates that do not decrease come in order. -/
theorem inOrder_of_pairwise {as : List (Attempt υ)} {s : State υ}
    (order : as.Pairwise (·.attemptedAt ≤ ·.attemptedAt))
    (first : ∀ a ∈ as, s.InOrder a) :
    EveryStep (registerDistributedAttempt c) InOrder s as := by
  induction as generalizing s with
  | nil => trivial
  | cons a as ih =>
    obtain ⟨least, order⟩ := List.pairwise_cons.mp order
    refine ⟨first a (by simp), ih order fun a' member e registered => ?_⟩
    rcases List.mem_append.mp registered with earlier | last
    · exact first a' (List.mem_cons_of_mem _ member) e earlier
    · rw [List.mem_singleton.mp last]
      exact least a' member

/-- Under all settings and in every run of attempts with dates that do not decrease: each row
counts the attempts of its window and each block holds to its end, in every state, if and only
if each attempt is proper. -/
theorem abuse_blocks_hold_iff (c : Settings) (as : List (Attempt υ))
    (order : as.Pairwise (·.attemptedAt ≤ ·.attemptedAt)) :
    EveryState (registerDistributedAttempt c) (fun s => s.CountsHold ∧ s.BlocksHold) {} as ↔
      EveryStep (registerDistributedAttempt c) (Proper c) {} as :=
  everyState_iff_of_kept (fun _ _ => inv_register) (fun _ _ => holds_register) (inv_start c)
    ⟨⟨fun _ _ => nofun, fun _ => nofun⟩, .nil⟩
    (inOrder_of_pairwise order fun _ _ _ => nofun)

instance (s : State υ) : Decidable s.BlocksHold := by
  unfold State.BlocksHold
  infer_instance

instance (c : Settings) (s : State υ) (a : Attempt υ) : Decidable (s.Proper c a) :=
  inferInstanceAs (Decidable (_ ∧ _))

/-- Settings under which the third attempt of a minute is blocked for five minutes. -/
def thirdBlocked : Settings where
  windowMs := 60000
  userSlowdownRequestsPerMinute := 2
  userBlockRequestsPerMinute := 3
  assistantSlowdownRequestsPerMinute := 2
  assistantBlockRequestsPerMinute := 3
  tempBlockSeconds := 300
  slowdownSeconds := 15

/-- Attempts in a block, and the first one of a new window. -/
theorem abuse_blocks_hold_four :
    EveryState (registerDistributedAttempt thirdBlocked) (fun s => s.CountsHold ∧ s.BlocksHold) {}
      [⟨7, 0⟩, ⟨7, 1⟩, ⟨7, 2⟩, ⟨7, 3⟩, ⟨7, 70000⟩] :=
  (abuse_blocks_hold_iff thirdBlocked _ (by decide)).mpr (by decide +kernel)

/-- The third attempt is blocked for five minutes. The second attempt of the next window, within
that time, is only slowed down, and the block is gone. -/
theorem slowdown_drops_block :
    ¬ ∀ (c : Settings) (as : List (Attempt Nat)), as.Pairwise (·.attemptedAt ≤ ·.attemptedAt) →
      0 < c.userSlowdownRequestsPerMinute →
      c.userSlowdownRequestsPerMinute ≤ c.userBlockRequestsPerMinute →
      0 < c.assistantSlowdownRequestsPerMinute →
      c.assistantSlowdownRequestsPerMinute ≤ c.assistantBlockRequestsPerMinute →
      EveryState (registerDistributedAttempt c) (fun s => s.CountsHold ∧ s.BlocksHold) {} as := by
  intro holds
  have last := (holds thirdBlocked [⟨7, 0⟩, ⟨7, 1⟩, ⟨7, 2⟩, ⟨7, 70000⟩, ⟨7, 70001⟩] (by decide)
    (by decide) (by decide) (by decide) (by decide)).last
  exact absurd last.2 (by decide +kernel)

end Persai.AbuseGuard
