import Mathlib.Data.List.Perm.Subperm
import Persai.MediaJobs.Fencing

/-!
# The attempts of a media job

The run of a job is started at most `maxAttempts` times, as long as no provider task is recorded: in
every run of the scheduler in which each claim of the row finds an attempt left. `claimDueJobs`
itself does not ask for one.
-/

namespace Persai.MediaJobs

open ModelCost (Value Row)
open Runs

variable {parse : String → Option Value}

def Unrecorded (s : World) : Prop := readExistingProviderTaskId s.job.requestJson = none

/-- A claim of the row finds an attempt left. -/
def AttemptLeft (s : World) : Event → Prop
  | .claimDueJobs now => s.job.claimable now → s.job.attemptCount < s.job.maxAttempts
  | _ => True

instance (s : World) : Decidable (Unrecorded s) := inferInstanceAs (Decidable (_ = none))

instance (s : World) (e : Event) : Decidable (AttemptLeft s e) :=
  match e with
  | .claimDueJobs _ => inferInstanceAs (Decidable (_ → _ < _))
  | .prepare .. | .startRun .. | .runReturns .. | .update .. | .releaseEnqueueReservation ..
  | .createMessage .. | .record .. | .die .. | .checkpointAcceptedProviderTask .. =>
    inferInstanceAs (Decidable True)

/-! ## What a worker starts -/

def World.startedTokens (s : World) : List Nat := s.started.map (·.claimToken)

structure SameAttempts (s s' : World) : Prop where
  attemptCount : s'.job.attemptCount = s.job.attemptCount
  maxAttempts : s'.job.maxAttempts = s.job.maxAttempts
  workers : s'.workers = s.workers
  nextToken : s'.nextToken = s.nextToken

/-- A worker starts its run, or none; no worker comes back to before its run. -/
inductive Starts (s : World) (w : Worker) (s' : World) (phase : Phase) : Prop
  | nothing (same : s'.startedTokens = s.startedTokens)
      (later : phase.unstarted → w.phase.unstarted)
  | run (before : w.phase.unstarted) (after : ¬ phase.unstarted)
      (started : s'.startedTokens = w.job.claimToken :: s.startedTokens)

theorem retryOrFail_started (job : ClaimedMediaJob) (failure : Failure) :
    ¬ (job.retryOrFail failure).unstarted := by
  rcases retryOrFail_cases job failure with retries | fails
  · rw [retries]; exact Bool.false_ne_true
  · rw [fails]; exact Bool.false_ne_true

theorem afterRun_started (job : ClaimedMediaJob) (nowIso : String) (outcome : Outcome) :
    ¬ (job.afterRun parse nowIso outcome).unstarted := by
  cases outcome with
  | ok result =>
    simp only [ClaimedMediaJob.afterRun]
    split <;> exact Bool.false_ne_true
  | failed failure =>
    simp only [ClaimedMediaJob.afterRun, ClaimedMediaJob.handleFailedExecution]
    split
    · exact Bool.false_ne_true
    · exact retryOrFail_started job failure

theorem Updates.missed_started {w : Worker} {job next : MediaJob} {matched missed : Phase}
    (updates : Updates w job next matched missed) : ¬ missed.unstarted := by
  rcases updates.missed with outside | ⟨accepted, failure, -, rfl⟩
  · exact outside.2
  · exact retryOrFail_started w.job failure

theorem advance_started (s : World) (w : Worker) (e : Event) :
    SameAttempts s (s.advance parse w e).1 ∧
      Starts s w (s.advance parse w e).1 (s.advance parse w e).2 := by
  unfold World.advance
  split
  next lookup at_phase =>
    exact ⟨⟨rfl, rfl, rfl, rfl⟩, .nothing rfl fun _ => by rw [at_phase]; rfl⟩
  next payload at_phase =>
    exact ⟨⟨rfl, rfl, rfl, rfl⟩, .run (by rw [at_phase]; rfl) Bool.false_ne_true rfl⟩
  next outcome nowIso payload at_phase =>
    exact ⟨⟨rfl, rfl, rfl, rfl⟩,
      .nothing rfl fun unstarted => absurd unstarted (afterRun_started w.job nowIso outcome)⟩
  next =>
    split
    · split <;> exact ⟨⟨rfl, rfl, rfl, rfl⟩, .nothing rfl nofun⟩
    · exact ⟨⟨rfl, rfl, rfl, rfl⟩, .nothing rfl nofun⟩
  next => exact ⟨⟨rfl, rfl, rfl, rfl⟩, .nothing rfl nofun⟩
  next => exact ⟨⟨rfl, rfl, rfl, rfl⟩, .nothing rfl nofun⟩
  next => exact ⟨⟨rfl, rfl, rfl, rfl⟩, .nothing rfl nofun⟩
  next =>
    split
    next job matched missed found =>
      have updates := update_cases found
      split
      · exact ⟨⟨updates.attemptCount, updates.maxAttempts, rfl, rfl⟩,
          .nothing rfl fun unstarted => absurd unstarted updates.matched.2⟩
      · exact ⟨⟨rfl, rfl, rfl, rfl⟩,
          .nothing rfl fun unstarted => absurd unstarted updates.missed_started⟩
    next => exact ⟨⟨rfl, rfl, rfl, rfl⟩, .nothing rfl id⟩
  next => exact ⟨⟨rfl, rfl, rfl, rfl⟩, .nothing rfl id⟩

/-! ## The invariant -/

/-- The attempts are the claims; each claim starts at most one run. -/
structure Counted (maxAttempts : Nat) (s : World) : Prop where
  limit : s.job.maxAttempts = maxAttempts
  counted : s.job.attemptCount = s.nextToken
  within : s.nextToken ≤ maxAttempts
  fresh : ∀ claimToken, s.nextToken ≤ claimToken → s.workers claimToken = none
  named : ∀ claimToken w, s.workers claimToken = some w → w.job.claimToken = claimToken
  distinct : s.startedTokens.Nodup
  claimed : ∀ claimToken ∈ s.startedTokens, claimToken < s.nextToken
  unstarted : ∀ claimToken w, s.workers claimToken = some w → w.phase.unstarted →
    claimToken ∉ s.startedTokens

theorem Counted.started_le {maxAttempts : Nat} {s : World} (counted : Counted maxAttempts s) :
    s.started.length ≤ maxAttempts := by
  have within : s.startedTokens ⊆ List.range s.nextToken := fun claimToken mem =>
    List.mem_range.mpr (counted.claimed claimToken mem)
  have bound := (counted.distinct.subperm within).length_le
  rw [World.startedTokens, List.length_map, List.length_range] at bound
  exact Nat.le_trans bound counted.within

theorem counted_start (surface : Surface) (userId sourceUserMessageId : Option String)
    (requestJson : Value) (maxAttempts : Nat) :
    Counted maxAttempts
      (World.start (enqueued surface userId sourceUserMessageId requestJson maxAttempts)) where
  limit := rfl
  counted := rfl
  within := Nat.zero_le _
  fresh _ _ := rfl
  named claimToken w found := by cases found
  distinct := .nil
  claimed claimToken mem := by cases mem
  unstarted claimToken w found := by cases found

section
variable {maxAttempts : Nat} {s : World}

theorem Counted.claimDueJobs (counted : Counted maxAttempts s) {now : Int}
    (left : AttemptLeft s (.claimDueJobs now)) : Counted maxAttempts (s.claimDueJobs now) := by
  unfold World.claimDueJobs
  split
  case isFalse => exact counted
  case isTrue claimable =>
  have attempt : s.nextToken < maxAttempts :=
    counted.counted ▸ counted.limit ▸ left claimable
  refine ⟨counted.limit, congrArg (· + 1) counted.counted, attempt, ?_, ?_, counted.distinct,
    ?_, ?_⟩
  · intro other beyond
    have beyond : s.nextToken + 1 ≤ other := beyond
    simp only [Function.update_apply, if_neg (show other ≠ s.nextToken by omega)]
    exact counted.fresh other (Nat.le_of_succ_le beyond)
  · intro other w found
    simp only [Function.update_apply] at found
    split at found
    next is_new =>
      split at found <;> cases found
      exact is_new.symm
    next => exact counted.named other w found
  · exact fun other started => Nat.lt_succ_of_lt (counted.claimed other started)
  · intro other w found unstarted started
    simp only [Function.update_apply] at found
    split at found
    next is_new => exact absurd (counted.claimed other started) (by omega)
    next => exact counted.unstarted other w found unstarted started

/-- A worker goes on, and starts its run or none. -/
theorem Counted.goTo (counted : Counted maxAttempts s) {s' : World} {claimToken : Nat}
    {w next : Worker} (found : s.workers claimToken = some w) (same_job : next.job = w.job)
    (same : SameAttempts s s') (starts : Starts s w s' next.phase) :
    Counted maxAttempts (s'.goTo claimToken next) := by
  have lower : claimToken < s.nextToken := by
    by_contra beyond
    exact nomatch found.symm.trans (counted.fresh claimToken (Nat.le_of_not_lt beyond))
  have named := counted.named claimToken w found
  refine ⟨same.maxAttempts.trans counted.limit, ?_, ?_, ?_, ?_, ?_, ?_, ?_⟩
  · exact same.attemptCount.trans (counted.counted.trans same.nextToken.symm)
  · exact same.nextToken ▸ counted.within
  · intro other beyond
    have beyond : s.nextToken ≤ other := same.nextToken ▸ beyond
    rw [goTo_workers, if_neg (by omega), same.workers]
    exact counted.fresh other beyond
  · intro other w' found'
    rw [goTo_workers, same.workers] at found'
    split at found'
    next is_self =>
      cases found'
      rw [same_job, is_self, named]
    next => exact counted.named other w' found'
  · cases starts with
    | nothing started => exact started ▸ counted.distinct
    | run before after started =>
      have new : w.job.claimToken ∉ s.startedTokens :=
        named ▸ counted.unstarted claimToken w found before
      exact started ▸ List.nodup_cons.mpr ⟨new, counted.distinct⟩
  · intro other started'
    have started' : other ∈ s'.startedTokens := started'
    simp only [World.goTo, same.nextToken]
    cases starts with
    | nothing started => exact counted.claimed other (started ▸ started')
    | run before after started =>
      rw [started, named] at started'
      rcases List.mem_cons.mp started' with rfl | earlier
      · exact lower
      · exact counted.claimed other earlier
  · intro other w' found' unstarted started'
    have started' : other ∈ s'.startedTokens := started'
    rw [goTo_workers, same.workers] at found'
    split at found'
    next is_self =>
      cases found'
      cases starts with
      | nothing started later =>
        exact counted.unstarted claimToken w found (later unstarted)
          (is_self ▸ started ▸ started')
      | run before after started => exact after unstarted
    next is_other =>
      cases starts with
      | nothing started => exact counted.unstarted other w' found' unstarted (started ▸ started')
      | run before after started =>
        rw [started, named] at started'
        exact counted.unstarted other w' found' unstarted
          (List.mem_of_ne_of_mem is_other started')

theorem Counted.worker (counted : Counted maxAttempts s) {e : Event} {claimToken : Nat}
    (names : e.claimToken? = some claimToken) (lives : e ≠ .die claimToken) :
    Counted maxAttempts (s.step parse e) := by
  rw [step_worker s names lives]
  split
  · exact counted
  next w found =>
    obtain ⟨same, starts⟩ := @advance_started parse s w e
    exact counted.goTo (alive?_eq_some found).1 rfl same starts

theorem counted_step (counted : Counted maxAttempts s) {e : Event} (left : AttemptLeft s e) :
    Counted maxAttempts (s.step parse e) := by
  cases e with
  | claimDueJobs now => exact counted.claimDueJobs left
  | checkpointAcceptedProviderTask read task =>
    simp only [World.step, World.checkpointAcceptedProviderTask]
    split
    · exact ⟨counted.limit, counted.counted, counted.within, counted.fresh, counted.named,
        counted.distinct, counted.claimed, counted.unstarted⟩
    · exact counted
  | die claimToken =>
    simp only [World.step]
    split
    next w found => exact counted.goTo found rfl ⟨rfl, rfl, rfl, rfl⟩ (.nothing rfl id)
    next => exact counted
  | prepare | startRun | runReturns | update | releaseEnqueueReservation | createMessage
  | record => exact counted.worker rfl (by simp)

end

/-- The run of a job is started at most `maxAttempts` times as long as no provider task is recorded,
in every run of the scheduler in which, until then, each claim of the row finds an attempt left. -/
theorem started_le_maxAttempts (surface : Surface) (userId sourceUserMessageId : Option String)
    (requestJson : Value) (maxAttempts : Nat) (es : List Event)
    (unrecorded : EveryState (World.step parse) Unrecorded
      (World.start (enqueued surface userId sourceUserMessageId requestJson maxAttempts)) es)
    (left : EveryStep (World.step parse) (fun s e => Unrecorded s → AttemptLeft s e)
      (World.start (enqueued surface userId sourceUserMessageId requestJson maxAttempts)) es) :
    EveryState (World.step parse) (fun s => s.started.length ≤ maxAttempts)
      (World.start (enqueued surface userId sourceUserMessageId requestJson maxAttempts)) es := by
  have start := counted_start surface userId sourceUserMessageId requestJson maxAttempts
  have preserved : ∀ s e, Counted maxAttempts s → AttemptLeft s e →
      Counted maxAttempts (s.step parse e) := fun _ _ counted left => counted_step counted left
  have steps := EveryState.everyStep (C := AttemptLeft) unrecorded left
  exact everyState_mono (fun s counted => counted.started_le)
    (everyState_of_preserved preserved start steps)

/-- The first run fails and is repeated; the next worker dies, and the one after it succeeds. -/
def threeAttempts : List Event :=
  [.claimDueJobs 0, .prepare 0 .ready, .startRun 0,
    .runReturns 0 (.failed ⟨true, some "runtime_unavailable", "No answer.", none⟩) "",
    .update 0 1000, .claimDueJobs 31000, .prepare 1 .ready, .startRun 1, .die 1,
    .claimDueJobs 631000, .prepare 2 .ready, .startRun 2,
    .runReturns 2 (.ok ⟨none, [.null], none⟩) "", .update 2 640000]

theorem threeAttempts_started :
    EveryState (World.step fun _ => none) (fun s => s.started.length ≤ 5) (World.start webJob)
      threeAttempts :=
  started_le_maxAttempts .web (some "user-1") (some "message-1") twoImages 5 threeAttempts
    (by decide +kernel) (by decide +kernel)

/-- One worker after another starts the run and dies. -/
def sixDeaths : List Event :=
  (List.range 6).flatMap fun (token : Nat) =>
    [.claimDueJobs (600000 * token), .prepare token .ready, .startRun token, .die token]

theorem sixDeaths_started :
    EveryState (World.step fun _ => none) Unrecorded (World.start webJob) sixDeaths ∧
      ¬ (run (World.step fun _ => none) (World.start webJob) sixDeaths).started.length ≤
        webJob.maxAttempts := by
  decide +kernel

end Persai.MediaJobs
