import Persai.MediaJobs.Scheduler
import Persai.Runs

/-!
# The fence of the claim

A worker whose token is not stored leaves no effect, and the reservation is released and the failure
announced at most once: in every run where no claim is taken from a worker inside `failJob` or from
one that has died there after the release, and where a worker that has lost its claim does not enter
`failJob`.
-/

namespace Persai.MediaJobs

open ModelCost (Value Row)
open Runs

variable {parse : String → Option Value}

/-- What a worker without its token does leaves the row, the quota and the chat as they are. -/
def LeavesNoEffect (parse : String → Option Value) (s : World) (e : Event) : Prop :=
  ∀ claimToken w, e.claimToken? = some claimToken → s.workers claimToken = some w →
    s.job.schedulerClaimToken ≠ some claimToken →
      (s.step parse e).job = s.job ∧ (s.step parse e).releases = s.releases ∧
        (s.step parse e).messages = s.messages

def ReleasedAndAnnouncedOnce (s : World) : Prop :=
  s.releases.length ≤ 1 ∧ s.messages.length ≤ 1

/-- Nothing sends the worker into `failJob`. -/
def Worker.goesOn (parse : String → Option Value) (w : Worker) : Event → Bool
  | .prepare _ lookup => (parseRequestPayload w.job.requestJson).isSome && lookup == .ready
  | .runReturns _ (.ok result) _ => !result.artifacts.isEmpty
  | .runReturns _ (.failed failure) nowIso =>
    w.job.canRetry failure || (readAcceptedPrimaryUnconfirmed parse nowIso failure).isSome
  | .update _ _ =>
    match w.phase with
    | .recovering _ failure => w.job.canRetry failure
    | _ => true
  | _ => true

/-- No claim is taken from a worker that is inside `failJob`, or that has died there after the
release; a worker whose claim was taken does not enter it. -/
def Undisturbed (parse : String → Option Value) (s : World) : Event → Prop
  | .claimDueJobs now => s.job.claimable now → ∀ w ∈ s.holder,
      ¬ w.phase.spent ∧ (w.alive → ¬ w.phase.inFailJob)
  | e => ∀ claimToken ∈ e.claimToken?, ∀ w ∈ s.alive? claimToken,
      s.job.schedulerClaimToken ≠ some claimToken → ¬ w.phase.inFailJob → w.goesOn parse e

instance (s : World) (e : Event) : Decidable (Undisturbed parse s e) := by
  cases e <;> dsimp only [Undisturbed] <;> infer_instance

instance (s : World) : Decidable (ReleasedAndAnnouncedOnce s) :=
  inferInstanceAs (Decidable (_ ∧ _))

/-! ## What a worker does -/

structure SameRow (s s' : World) : Prop where
  job : s'.job = s.job
  workers : s'.workers = s.workers
  nextToken : s'.nextToken = s.nextToken

/-- Where a worker was, what its step leaves of the rest and where it is then. -/
inductive Advanced (s : World) (w : Worker) : World → Phase → Prop
  | stays : Advanced s w s w.phase
  | aside {s' : World} {phase : Phase} (same : SameRow s s') (releases : s'.releases = s.releases)
      (messages : s'.messages = s.messages)
      (before : s.job.schedulerClaimToken = some w.job.claimToken → ¬ w.phase.spent)
      (after : ¬ phase.spent) : Advanced s w s' phase
  | released {s' : World} {code : Option String} {message : String}
      (from_failing : w.phase = .failing code message) (same : SameRow s s')
      (messages : s'.messages = s.messages)
      (releases : s'.releases.length ≤ s.releases.length + 1) :
      Advanced s w s' (.released code message)
  | announced {s' : World} {code : Option String} {message failureMessage : String}
      {completionAssistantMessageId : Option String}
      (from_released : w.phase = .released code message) (same : SameRow s s')
      (releases : s'.releases = s.releases)
      (messages : s'.messages.length ≤ s.messages.length + 1) :
      Advanced s w s' (.announced code message failureMessage completionAssistantMessageId)
  | updated {job : MediaJob} {phase : Phase}
      (held : s.job.schedulerClaimToken = some w.job.claimToken)
      (free : job.schedulerClaimToken = none) (stopped : job.status ≠ .running)
      (requeued : job.status = .queued → ¬ w.phase.spent) (after : ¬ phase.inFailJob) :
      Advanced s w { s with job } phase

theorem afterLookup_not_spent (job : ClaimedMediaJob) (lookup : Lookup) :
    ¬ (job.afterLookup lookup).spent := by
  unfold ClaimedMediaJob.afterLookup
  split
  · exact Bool.false_ne_true
  · cases lookup <;> exact Bool.false_ne_true

theorem retryOrFail_not_spent (job : ClaimedMediaJob) (failure : Failure) :
    ¬ (job.retryOrFail failure).spent := by
  rcases retryOrFail_cases job failure with retries | fails
  · rw [retries]; exact Bool.false_ne_true
  · rw [fails]; exact Bool.false_ne_true

theorem afterRun_not_spent (job : ClaimedMediaJob) (nowIso : String) (outcome : Outcome) :
    ¬ (job.afterRun parse nowIso outcome).spent := by
  cases outcome with
  | ok result =>
    simp only [ClaimedMediaJob.afterRun]
    split <;> exact Bool.false_ne_true
  | failed failure =>
    simp only [ClaimedMediaJob.afterRun, ClaimedMediaJob.handleFailedExecution]
    split
    · exact Bool.false_ne_true
    · exact retryOrFail_not_spent job failure

theorem Updates.missed_not_spent {w : Worker} {job next : MediaJob} {matched missed : Phase}
    (updates : Updates w job next matched missed) : ¬ missed.spent := by
  rcases updates.missed with outside | ⟨accepted, failure, -, rfl⟩
  · exact fun spent => outside.1 (Phase.inFailJob_of_spent spent)
  · exact retryOrFail_not_spent w.job failure

theorem advance_cases (s : World) (w : Worker) (e : Event) :
    Advanced s w (s.advance parse w e).1 (s.advance parse w e).2 := by
  unfold World.advance
  split
  next lookup at_phase =>
    exact .aside ⟨rfl, rfl, rfl⟩ rfl rfl (fun _ => by simp [at_phase, Phase.spent])
      (afterLookup_not_spent w.job lookup)
  next payload at_phase =>
    exact .aside ⟨rfl, rfl, rfl⟩ rfl rfl (fun _ => by simp [at_phase, Phase.spent])
      Bool.false_ne_true
  next outcome nowIso payload at_phase =>
    exact .aside ⟨rfl, rfl, rfl⟩ rfl rfl (fun _ => by simp [at_phase, Phase.spent])
      (afterRun_not_spent w.job nowIso outcome)
  next assistantFound released code message at_phase =>
    split
    · split
      · exact .released at_phase ⟨rfl, rfl, rfl⟩ rfl (Nat.le_refl _)
      · exact .released at_phase ⟨rfl, rfl, rfl⟩ rfl (Nat.le_succ _)
    · exact .released at_phase ⟨rfl, rfl, rfl⟩ rfl (Nat.le_succ _)
  next failureMessage created code message at_phase =>
    refine .announced at_phase ⟨rfl, rfl, rfl⟩ rfl ?_
    dsimp only
    split
    · exact Nat.le_refl _
    · exact Nat.le_succ _
  next recorded billingFacts at_phase =>
    exact .aside ⟨rfl, rfl, rfl⟩ rfl rfl (fun _ => by simp [at_phase, Phase.spent])
      Bool.false_ne_true
  next recorded code at_phase =>
    exact .aside ⟨rfl, rfl, rfl⟩ rfl rfl (fun _ => by simp [at_phase, Phase.spent])
      Bool.false_ne_true
  next now phase =>
    split
    next job matched missed found =>
      have updates := update_cases found
      split
      next held =>
        exact .updated held updates.free updates.stopped updates.requeued updates.matched.1
      next other =>
        exact .aside ⟨rfl, rfl, rfl⟩ rfl rfl (fun held => absurd held other)
          updates.missed_not_spent
    next => exact .stays
  next => exact .stays

theorem Advanced.beside {s s' : World} {w : Worker} {phase : Phase}
    (advanced : Advanced s w s' phase)
    (lost : s.job.schedulerClaimToken ≠ some w.job.claimToken) (outside : ¬ w.phase.inFailJob) :
    s'.job = s.job ∧ s'.releases = s.releases ∧ s'.messages = s.messages := by
  cases advanced with
  | stays => exact ⟨rfl, rfl, rfl⟩
  | aside same releases messages => exact ⟨same.job, releases, messages⟩
  | released from_failing => exact absurd (by rw [from_failing]; rfl) outside
  | announced from_released => exact absurd (by rw [from_released]; rfl) outside
  | updated held => exact absurd held lost

theorem afterRun_goesOn {w : Worker} {claimToken : Nat} {nowIso : String} {outcome : Outcome}
    (goesOn : w.goesOn parse (.runReturns claimToken outcome nowIso)) :
    ¬ (w.job.afterRun parse nowIso outcome).inFailJob := by
  cases outcome with
  | ok result =>
    have deliverable : ¬ result.artifacts.isEmpty := by simpa [Worker.goesOn] using goesOn
    simp only [ClaimedMediaJob.afterRun, if_neg deliverable]
    exact Bool.false_ne_true
  | failed failure =>
    simp only [ClaimedMediaJob.afterRun, ClaimedMediaJob.handleFailedExecution]
    split
    · exact Bool.false_ne_true
    · next missing =>
      have retries : w.job.canRetry failure := by simpa [Worker.goesOn, missing] using goesOn
      rw [ClaimedMediaJob.retryOrFail, if_pos retries]
      exact Bool.false_ne_true

/-- The phase after an update that finds no row. -/
theorem missed_goesOn {w : Worker} {claimToken : Nat} {job next : MediaJob} {now : Int}
    {matched missed : Phase} (goesOn : w.goesOn parse (.update claimToken now))
    (updates : Updates w job next matched missed) : ¬ missed.inFailJob := by
  rcases updates.missed with outside | ⟨accepted, failure, at_phase, rfl⟩
  · exact outside.1
  · have retries : w.job.canRetry failure := by simpa [Worker.goesOn, at_phase] using goesOn
    rw [ClaimedMediaJob.retryOrFail, if_pos retries]
    exact Bool.false_ne_true

theorem advance_goesOn {s : World} {w : Worker} {e : Event} (goesOn : w.goesOn parse e)
    (outside : ¬ w.phase.inFailJob) : ¬ (s.advance parse w e).2.inFailJob := by
  unfold World.advance
  split
  next lookup at_phase =>
    obtain ⟨parses, ready⟩ := Bool.and_eq_true_iff.mp goesOn
    obtain ⟨payload, parsed⟩ := Option.isSome_iff_exists.mp parses
    obtain rfl := eq_of_beq ready
    simp only [ClaimedMediaJob.afterLookup, parsed]
    exact Bool.false_ne_true
  next => exact Bool.false_ne_true
  next => exact afterRun_goesOn goesOn
  next at_phase => exact absurd (by rw [at_phase]; rfl) outside
  next at_phase => exact absurd (by rw [at_phase]; rfl) outside
  next => exact Bool.false_ne_true
  next => exact Bool.false_ne_true
  next =>
    split
    next found =>
      split
      · exact (update_cases found).matched.1
      · exact missed_goesOn goesOn (update_cases found)
    next => exact outside
  next => exact outside

/-! ## The invariant -/

def MediaJob.isOpen (job : MediaJob) : Prop := job.status = .queued ∨ job.status = .running

/-- Only the holder of the claim is inside `failJob`, and as long as the job is open, only a holder
that is past the release has released or announced anything. -/
structure Fenced (s : World) : Prop where
  fresh : ∀ claimToken, s.nextToken ≤ claimToken → s.workers claimToken = none
  stored : ∀ claimToken, s.job.schedulerClaimToken = some claimToken →
    claimToken < s.nextToken ∧ s.job.status = .running
  named : ∀ claimToken w, s.workers claimToken = some w → w.job.claimToken = claimToken
  inFailJob : ∀ claimToken w, s.workers claimToken = some w → w.alive → w.phase.inFailJob →
    s.job.schedulerClaimToken = some claimToken
  unspent : s.job.isOpen → (∀ w, s.holder = some w → ¬ w.phase.spent) →
    s.releases = [] ∧ s.messages = []
  unannounced : ∀ w code message, s.holder = some w → w.phase = .released code message →
    s.messages = []
  once : ReleasedAndAnnouncedOnce s

theorem fenced_start {job : MediaJob} (unclaimed : job.schedulerClaimToken = none) :
    Fenced (World.start job) where
  fresh _ _ := rfl
  stored claimToken token := by rw [World.start, unclaimed] at token; cases token
  named claimToken w found := by cases found
  inFailJob claimToken w found := by cases found
  unspent _ _ := ⟨rfl, rfl⟩
  unannounced _ _ _ _ _ := rfl
  once := ⟨Nat.zero_le _, Nat.zero_le _⟩

section
variable {s : World}

theorem goTo_workers (claimToken other : Nat) (w : Worker) :
    (s.goTo claimToken w).workers other =
      if other = claimToken then some w else s.workers other :=
  Function.update_apply ..

theorem holder_goTo_self {claimToken : Nat} {w : Worker}
    (held : s.job.schedulerClaimToken = some claimToken) :
    (s.goTo claimToken w).holder = some w := by
  simp [World.holder, World.goTo, held]

theorem holder_goTo_other {claimToken : Nat} {w : Worker}
    (other : s.job.schedulerClaimToken ≠ some claimToken) :
    (s.goTo claimToken w).holder = s.holder := by
  unfold World.holder
  cases token : s.job.schedulerClaimToken with
  | none => simp [World.goTo, token]
  | some stored =>
    have ne : stored ≠ claimToken := fun same => other (token.trans (congrArg some same))
    simp [World.goTo, token, ne]

theorem holder_of_held {claimToken : Nat} {w : Worker}
    (held : s.job.schedulerClaimToken = some claimToken)
    (found : s.workers claimToken = some w) : s.holder = some w := by
  simp [World.holder, held, found]

/-- A worker goes on and the row stays. -/
theorem Fenced.sameRow (fenced : Fenced s) {s' : World} {claimToken : Nat} {w next : Worker}
    (same : SameRow s s') (found : s.workers claimToken = some w) (same_job : next.job = w.job)
    (holds : next.alive → next.phase.inFailJob → s.job.schedulerClaimToken = some claimToken)
    (aside : s.job.schedulerClaimToken ≠ some claimToken →
      s'.releases = s.releases ∧ s'.messages = s.messages)
    (unspent : s.job.schedulerClaimToken = some claimToken → ¬ next.phase.spent →
      s'.releases = [] ∧ s'.messages = [])
    (unannounced : s.job.schedulerClaimToken = some claimToken →
      ∀ code message, next.phase = .released code message → s'.messages = [])
    (once : ReleasedAndAnnouncedOnce s') : Fenced (s'.goTo claimToken next) := by
  have job := same.job
  have lower : claimToken < s.nextToken := by
    by_contra beyond
    exact nomatch found.symm.trans (fenced.fresh claimToken (Nat.le_of_not_lt beyond))
  refine ⟨?_, ?_, ?_, ?_, ?_, ?_, once⟩
  · intro other beyond
    have beyond : s.nextToken ≤ other := same.nextToken ▸ beyond
    rw [goTo_workers, if_neg (by omega), same.workers]
    exact fenced.fresh other beyond
  · intro stored token
    have token : s.job.schedulerClaimToken = some stored := job ▸ token
    simp only [World.goTo, job, same.nextToken]
    exact fenced.stored stored token
  · intro other w' found'
    rw [goTo_workers, same.workers] at found'
    split at found'
    next is_self =>
      cases found'
      rw [same_job, is_self]
      exact fenced.named claimToken w found
    next => exact fenced.named other w' found'
  · intro other w' found' alive inside
    rw [goTo_workers, same.workers] at found'
    simp only [World.goTo, job]
    split at found'
    next is_self =>
      cases found'
      exact is_self ▸ holds alive inside
    next => exact fenced.inFailJob other w' found' alive inside
  · intro is_open not_spent
    by_cases held : s.job.schedulerClaimToken = some claimToken
    · exact unspent held (not_spent _ (holder_goTo_self (by rw [job]; exact held)))
    · obtain ⟨releases, messages⟩ := aside held
      rw [holder_goTo_other (by rw [job]; exact held)] at not_spent
      simp only [World.holder, job, same.workers] at not_spent
      simp only [World.goTo, releases, messages]
      exact fenced.unspent (by simpa [World.goTo, job] using is_open) not_spent
  · intro w' code message holder at_phase
    by_cases held : s.job.schedulerClaimToken = some claimToken
    · rw [holder_goTo_self (by rw [job]; exact held)] at holder
      cases holder
      exact unannounced held code message at_phase
    · rw [holder_goTo_other (by rw [job]; exact held)] at holder
      simp only [World.holder, job, same.workers] at holder
      exact (aside held).2.trans (fenced.unannounced w' code message holder at_phase)

/-- The holder gives its claim back. -/
theorem Fenced.updated (fenced : Fenced s) {claimToken : Nat} {w : Worker} {job : MediaJob}
    {phase : Phase} (found : s.workers claimToken = some w)
    (held : s.job.schedulerClaimToken = some claimToken)
    (free : job.schedulerClaimToken = none) (stopped : job.status ≠ .running)
    (requeued : job.status = .queued → ¬ w.phase.spent) (after : ¬ phase.inFailJob) :
    Fenced ({ s with job }.goTo claimToken { w with phase }) := by
  have ⟨lower, running⟩ := fenced.stored claimToken held
  have nobody : ({ s with job }.goTo claimToken { w with phase }).holder = none := by
    simp [World.holder, World.goTo, free]
  refine ⟨?_, ?_, ?_, ?_, ?_, ?_, fenced.once⟩
  · intro other beyond
    have beyond : s.nextToken ≤ other := beyond
    rw [goTo_workers, if_neg (by omega)]
    exact fenced.fresh other beyond
  · intro stored token
    cases free.symm.trans token
  · intro other w' found'
    rw [goTo_workers] at found'
    split at found'
    next is_self =>
      cases found'
      exact (fenced.named claimToken w found).trans is_self.symm
    next => exact fenced.named other w' found'
  · intro other w' found' alive inside
    rw [goTo_workers] at found'
    split at found'
    next =>
      cases found'
      exact absurd inside after
    next is_other =>
      have token := fenced.inFailJob other w' found' alive inside
      exact absurd (Option.some.inj (token.symm.trans held)) is_other
  · intro is_open _
    have queued := is_open.resolve_right stopped
    refine fenced.unspent (.inr running) fun w' holder => ?_
    cases (holder_of_held held found).symm.trans holder
    exact requeued queued
  · intro w' code message holder
    cases nobody.symm.trans holder

theorem Fenced.advanced (fenced : Fenced s) {s' : World} {claimToken : Nat} {w : Worker}
    {phase : Phase} (found : s.workers claimToken = some w) (alive : w.alive)
    (goesOn : s.job.schedulerClaimToken ≠ some claimToken → ¬ w.phase.inFailJob →
      ¬ phase.inFailJob)
    (advanced : Advanced s w s' phase) : Fenced (s'.goTo claimToken { w with phase }) := by
  have token_of_inside := fenced.inFailJob claimToken w found alive
  have holds : w.alive → phase.inFailJob → s.job.schedulerClaimToken = some claimToken := by
    intro _ inside
    by_contra lost
    exact goesOn lost (fun before => lost (token_of_inside before)) inside
  have named := fenced.named claimToken w found
  have empty_of_held (held : s.job.schedulerClaimToken = some claimToken)
      (not_spent : ¬ w.phase.spent) : s.releases = [] ∧ s.messages = [] := by
    refine fenced.unspent (.inr (fenced.stored claimToken held).2) fun w' holder => ?_
    cases (holder_of_held held found).symm.trans holder
    exact not_spent
  cases advanced with
  | stays =>
    refine fenced.sameRow ⟨rfl, rfl, rfl⟩ found rfl holds (fun _ => ⟨rfl, rfl⟩) empty_of_held ?_
      fenced.once
    intro held code message at_phase
    exact fenced.unannounced w code message (holder_of_held held found) at_phase
  | aside same releases messages before after =>
    refine fenced.sameRow same found rfl holds (fun _ => ⟨releases, messages⟩) ?_ ?_ ?_
    · intro held _
      rw [releases, messages]
      exact empty_of_held held (before (named ▸ held))
    · intro _ code message at_phase
      have at_phase : phase = .released code message := at_phase
      exact absurd (by rw [at_phase]; rfl) after
    · rw [ReleasedAndAnnouncedOnce, releases, messages]
      exact fenced.once
  | released from_failing same messages releases =>
    have held := token_of_inside (by rw [from_failing]; rfl)
    obtain ⟨no_release, no_message⟩ := empty_of_held held (by rw [from_failing]; exact nofun)
    refine fenced.sameRow same found rfl holds (absurd held) ?_ ?_ ?_
    · exact fun _ not_spent => absurd rfl not_spent
    · exact fun _ _ _ _ => messages.trans no_message
    · exact ⟨by simpa [no_release] using releases, by simp [messages, no_message]⟩
  | announced from_released same releases messages =>
    have held := token_of_inside (by rw [from_released]; rfl)
    have no_message := fenced.unannounced w _ _ (holder_of_held held found) from_released
    refine fenced.sameRow same found rfl holds (absurd held) ?_ ?_ ?_
    · exact fun _ not_spent => absurd rfl not_spent
    · exact fun _ _ _ at_phase => nomatch at_phase
    · exact ⟨releases ▸ fenced.once.1, by simpa [no_message] using messages⟩
  | updated held free stopped requeued after =>
    exact fenced.updated found (named ▸ held) free stopped requeued after

theorem Fenced.claimDueJobs (fenced : Fenced s) {now : Int}
    (undisturbed : Undisturbed parse s (.claimDueJobs now)) : Fenced (s.claimDueJobs now) := by
  unfold World.claimDueJobs
  split
  case isFalse => exact fenced
  case isTrue claimable =>
  have is_open : s.job.isOpen := by
    have due := (Bool.and_eq_true_iff.mp claimable).1
    cases status : s.job.status <;> simp_all [MediaJob.due, MediaJob.isOpen]
  have outside := undisturbed claimable
  obtain ⟨no_release, no_message⟩ := fenced.unspent is_open fun w holder => (outside w holder).1
  refine ⟨?_, ?_, ?_, ?_, ?_, ?_, fenced.once⟩
  · intro other beyond
    have beyond : s.nextToken + 1 ≤ other := beyond
    simp only [Function.update_apply, if_neg (show other ≠ s.nextToken by omega)]
    exact fenced.fresh other (Nat.le_of_succ_le beyond)
  · intro stored token
    cases token
    exact ⟨Nat.lt_succ_self _, rfl⟩
  · intro other w found
    simp only [Function.update_apply] at found
    split at found
    next is_new =>
      split at found <;> cases found
      exact is_new.symm
    next => exact fenced.named other w found
  · intro other w found alive inside
    simp only [Function.update_apply] at found
    split at found
    next =>
      split at found <;> cases found
      cases inside
    next =>
      have holder := holder_of_held (fenced.inFailJob other w found alive inside) found
      exact absurd inside ((outside w holder).2 alive)
  · exact fun _ _ => ⟨no_release, no_message⟩
  · exact fun _ _ _ _ _ => no_message

theorem Fenced.checkpointed (fenced : Fenced s) (read : Value) (task : Row) :
    Fenced (s.checkpointAcceptedProviderTask read task) := by
  unfold World.checkpointAcceptedProviderTask
  split
  · exact ⟨fenced.fresh, fenced.stored, fenced.named, fenced.inFailJob, fenced.unspent,
      fenced.unannounced, fenced.once⟩
  · exact fenced

theorem Fenced.died (fenced : Fenced s) {claimToken : Nat} {w : Worker}
    (found : s.workers claimToken = some w) :
    Fenced (s.goTo claimToken { w with alive := false }) := by
  refine fenced.sameRow ⟨rfl, rfl, rfl⟩ found rfl nofun (fun _ => ⟨rfl, rfl⟩) ?_ ?_ fenced.once
  · intro held not_spent
    refine fenced.unspent (.inr (fenced.stored claimToken held).2) fun w' holder => ?_
    cases (holder_of_held held found).symm.trans holder
    exact not_spent
  · intro held code message at_phase
    exact fenced.unannounced w code message (holder_of_held held found) at_phase

/-- A step of a worker that is alive, or none. -/
theorem step_worker (s : World) {e : Event} {claimToken : Nat}
    (names : e.claimToken? = some claimToken) (lives : e ≠ .die claimToken) :
    s.step parse e =
      match s.alive? claimToken with
      | none => s
      | some w =>
        (s.advance parse w e).1.goTo claimToken { w with phase := (s.advance parse w e).2 } := by
  cases e with
  | claimDueJobs | checkpointAcceptedProviderTask => cases names
  | die =>
    cases names
    exact absurd rfl lives
  | prepare | startRun | runReturns | update | releaseEnqueueReservation | createMessage
  | record =>
    cases names
    rfl

theorem alive?_eq_some {claimToken : Nat} {w : Worker} (found : s.alive? claimToken = some w) :
    s.workers claimToken = some w ∧ w.alive :=
  Option.filter_eq_some_iff.mp found

theorem Fenced.worker (fenced : Fenced s) {e : Event} {claimToken : Nat}
    (names : e.claimToken? = some claimToken) (lives : e ≠ .die claimToken)
    (goesOn : ∀ w, s.alive? claimToken = some w → s.job.schedulerClaimToken ≠ some claimToken →
      ¬ w.phase.inFailJob → w.goesOn parse e) : Fenced (s.step parse e) := by
  rw [step_worker s names lives]
  split
  · exact fenced
  next w found =>
    obtain ⟨there, alive⟩ := alive?_eq_some found
    exact fenced.advanced there alive
      (fun lost outside => advance_goesOn (goesOn w found lost outside) outside)
      (advance_cases s w e)

theorem fenced_step (fenced : Fenced s) {e : Event} (undisturbed : Undisturbed parse s e) :
    Fenced (s.step parse e) := by
  cases e with
  | claimDueJobs now => exact fenced.claimDueJobs undisturbed
  | checkpointAcceptedProviderTask read task => exact fenced.checkpointed read task
  | die claimToken =>
    simp only [World.step]
    split
    next w found => exact fenced.died found
    next => exact fenced
  | prepare claimToken | startRun claimToken | runReturns claimToken | update claimToken
  | releaseEnqueueReservation claimToken | createMessage claimToken | record claimToken =>
    exact fenced.worker rfl nofun (undisturbed claimToken rfl)

/-- Without its token a worker is not where it would release or announce. -/
theorem Fenced.leavesNoEffect (fenced : Fenced s) (e : Event) : LeavesNoEffect parse s e := by
  intro claimToken w names there lost
  by_cases dies : e = .die claimToken
  · subst dies
    simp only [World.step, there]
    exact ⟨rfl, rfl, rfl⟩
  rw [step_worker s names dies]
  split
  · exact ⟨rfl, rfl, rfl⟩
  next w' found =>
    obtain ⟨there', alive⟩ := alive?_eq_some found
    have outside : ¬ w'.phase.inFailJob := fun inside =>
      lost (fenced.inFailJob claimToken w' there' alive inside)
    have named := fenced.named claimToken w' there'
    exact (advance_cases s w' e).beside (by rw [named]; exact lost) outside

end

/-- A worker that has lost its claim has no effect, and the reservation of the job is released at
most once and its failure announced at most once, in every run in which no claim is taken from a
worker inside `failJob`, or from one that has died there after the release, and no worker that has
lost its claim enters it. -/
theorem fenced_of_undisturbed (surface : Surface) (userId sourceUserMessageId : Option String)
    (requestJson : Value) (maxAttempts : Nat) (es : List Event)
    (undisturbed : EveryStep (World.step parse) (Undisturbed parse)
      (World.start (enqueued surface userId sourceUserMessageId requestJson maxAttempts)) es) :
    EveryStep (World.step parse) (LeavesNoEffect parse)
        (World.start (enqueued surface userId sourceUserMessageId requestJson maxAttempts)) es ∧
      EveryState (World.step parse) ReleasedAndAnnouncedOnce
        (World.start (enqueued surface userId sourceUserMessageId requestJson maxAttempts)) es := by
  have start : Fenced
      (World.start (enqueued surface userId sourceUserMessageId requestJson maxAttempts)) :=
    fenced_start rfl
  have step : ∀ s e, Fenced s → Undisturbed parse s e → Fenced (s.step parse e) :=
    fun _ _ fenced => fenced_step fenced
  constructor
  · exact everyStep_of_preserved step (fun s e fenced _ => fenced.leavesNoEffect e) start
      undisturbed
  · exact everyState_mono (fun s fenced => fenced.once)
      (everyState_of_preserved step start undisturbed)

/-- The request of a job for two images. -/
def twoImages : Value := .object fun
  | "sourceUserMessageText" => .string "Draw two cats."
  | "sourceUserMessageCreatedAt" => .string "2026-05-01T10:00:00.000Z"
  | "runtimeSessionId" => .string "session-1"
  | "attachments" => .array []
  | "directToolExecution" => .object fun
    | "toolCode" => .string "image_generate"
    | "request" => .object fun
      | "count" => .number 2
      | _ => .undefined
    | _ => .undefined
  | _ => .undefined

def webJob : MediaJob := enqueued .web (some "user-1") (some "message-1") twoImages 5

/-- A run that failed and is not repeated. -/
def rejected : Outcome :=
  .failed ⟨false, some "image_provider_safety_rejected", "The image was rejected.", none⟩

/-- A worker whose run outlives its claim returns an image after the next worker has taken the job
over; the next worker fails. -/
def lateSuccess : List Event :=
  [.claimDueJobs 0, .prepare 0 .ready, .startRun 0,
    .claimDueJobs 600000, .prepare 1 .ready, .startRun 1,
    .runReturns 0 (.ok ⟨none, [.null], none⟩) "", .update 0 600100,
    .runReturns 1 rejected "", .releaseEnqueueReservation 1 true true,
    .createMessage 1 "It failed." (some "message-2"), .update 1 660000, .record 1 true]

theorem fenced_lateSuccess :
    EveryStep (World.step fun _ => none) (LeavesNoEffect fun _ => none) (World.start webJob)
        lateSuccess ∧
      EveryState (World.step fun _ => none) ReleasedAndAnnouncedOnce (World.start webJob)
        lateSuccess :=
  fenced_of_undisturbed .web (some "user-1") (some "message-1") twoImages 5 lateSuccess
    (by decide +kernel)

/-- The same with a failure of the first run: both workers release and both announce. -/
def lateFailure : List Event :=
  [.claimDueJobs 0, .prepare 0 .ready, .startRun 0,
    .claimDueJobs 600000, .prepare 1 .ready, .startRun 1,
    .runReturns 0 rejected "", .releaseEnqueueReservation 0 true true,
    .createMessage 0 "It failed." (some "message-2"), .update 0 600100,
    .runReturns 1 rejected "", .releaseEnqueueReservation 1 true true,
    .createMessage 1 "It failed." (some "message-3"), .update 1 660000]

theorem lateFailure_released_twice :
    ¬ EveryStep (World.step fun _ => none) (LeavesNoEffect fun _ => none) (World.start webJob)
        lateFailure ∧
      ¬ EveryState (World.step fun _ => none) ReleasedAndAnnouncedOnce (World.start webJob)
        lateFailure := by
  constructor
  · rintro ⟨-, -, -, -, -, -, -, release, -⟩
    obtain ⟨w, there⟩ := Option.isSome_iff_exists.mp
      (show ((run (World.step fun _ => none) (World.start webJob) (lateFailure.take 7)).workers
        0).isSome by decide +kernel)
    have same := (release 0 w rfl there (by decide +kernel)).2.1
    exact absurd (congrArg List.length same) (by decide +kernel)
  · exact fun once => absurd once.last (by decide +kernel)

end Persai.MediaJobs
