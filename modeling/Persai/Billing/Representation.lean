import Persai.Runs
import Persai.Billing.Effective

/-!
# What the columns of a subscription say together

The lifecycle operations in any order, from a workspace without a subscription. The
expiry of a grace keeps a scheduled plan change, and a change can be scheduled on a
subscription that has fallen back; nothing else breaks the representation.

* `Represented`: what holds of the columns in each status;
* `lifecycleStep_represented`: the operations that keep it, in both directions;
* `represented_iff`: the runs in which it holds throughout.
-/

namespace Persai.Billing

open Program TxM Runs

/-- The columns of a fallback, of a grace and of an active subscription. -/
structure Subscription.Represented (s : Subscription) : Prop where
  fallback : s.status = .expiredFallback →
    s.billingProvider = none ∧ s.providerCustomerRef = none ∧
    s.providerSubscriptionRef = none ∧ s.cancelAtPeriodEnd = false ∧
    s.currentPeriodEndsAt = none ∧ readPendingPlanChange s.metadata = none
  grace : s.status = .gracePeriod → ∃ startedAt endsAt,
    s.graceStartedAt = some startedAt ∧ s.graceEndsAt = some endsAt ∧ startedAt < endsAt
  active : s.status = .active →
    s.trialStartedAt = none ∧ s.trialEndsAt = none ∧
    s.graceStartedAt = none ∧ s.graceEndsAt = none

def Db.Represented (db : Db) : Prop := ∀ s, db.subscription = some s → s.Represented

/-! ## Rows -/

section
variable {current : Subscription}

/-- A fallback is represented just where no change is pending. -/
theorem fallback_represented {s : Subscription} (status : s.status = .expiredFallback)
    (refs : s.billingProvider = none ∧ s.providerCustomerRef = none ∧
      s.providerSubscriptionRef = none)
    (period : s.cancelAtPeriodEnd = false ∧ s.currentPeriodEndsAt = none) :
    s.Represented ↔ readPendingPlanChange s.metadata = none := by
  constructor
  · intro represented
    exact (represented.fallback status).2.2.2.2.2
  · intro cleared
    refine ⟨fun _ => ⟨refs.1, refs.2.1, refs.2.2, period.1, period.2, cleared⟩, ?_, ?_⟩
    · intro grace
      rw [status] at grace
      cases grace
    · intro active
      rw [status] at active
      cases active

/-- A change of other columns, away from a fallback. -/
theorem Subscription.Represented.of_same {updated : Subscription}
    (represented : current.Represented) (not_fallback : current.status ≠ .expiredFallback)
    (status : updated.status = current.status)
    (grace : updated.graceStartedAt = current.graceStartedAt ∧
      updated.graceEndsAt = current.graceEndsAt)
    (trial : updated.trialStartedAt = current.trialStartedAt ∧
      updated.trialEndsAt = current.trialEndsAt) : updated.Represented := by
  refine ⟨?_, ?_, ?_⟩
  · intro fallback
    exact absurd (status.symm.trans fallback) not_fallback
  · intro inGrace
    rw [grace.1, grace.2]
    exact represented.grace (status.symm.trans inGrace)
  · intro active
    rw [trial.1, trial.2, grace.1, grace.2]
    exact represented.active (status.symm.trans active)

/-- A grace that ends after it started. -/
theorem grace_represented {s : Subscription} {startedAt endsAt : Int}
    (status : s.status = .gracePeriod) (started : s.graceStartedAt = some startedAt)
    (ends : s.graceEndsAt = some endsAt) (later : startedAt < endsAt) : s.Represented := by
  refine ⟨?_, fun _ => ⟨startedAt, endsAt, started, ends, later⟩, ?_⟩
  · intro fallback
    rw [status] at fallback
    cases fallback
  · intro active
    rw [status] at active
    cases active

theorem trial_represented {s : Subscription} (status : s.status = .trialing) : s.Represented := by
  refine ⟨?_, ?_, ?_⟩ <;> intro other <;> rw [status] at other <;> cases other

theorem active_represented {s : Subscription} (status : s.status = .active)
    (trial : s.trialStartedAt = none ∧ s.trialEndsAt = none)
    (grace : s.graceStartedAt = none ∧ s.graceEndsAt = none) : s.Represented := by
  refine ⟨?_, ?_, fun _ => ⟨trial.1, trial.2, grace.1, grace.2⟩⟩
  · intro fallback
    rw [status] at fallback
    cases fallback
  · intro inGrace
    rw [status] at inGrace
    cases inGrace

theorem gracePeriod_pos (env : Env) : 0 < gracePeriod env := by
  have days := env.settings.inRange.1
  unfold gracePeriod
  omega

/-- A paid transition leaves an active subscription without grace or trial. -/
theorem PaidTransition.row_represented (input : PaidTransition) (env : Env)
    (period : PaidPeriod) (previous : Option Subscription) :
    (input.row env period previous).Represented := by
  cases previous with
  | none => exact active_represented rfl ⟨rfl, rfl⟩ ⟨rfl, rfl⟩
  | some current => exact active_represented rfl ⟨rfl, rfl⟩ ⟨rfl, rfl⟩

/-- The pending change of a fallback is that of its patch, or else the one there was. -/
theorem pending_fallback (env : Env) (planCode : String) (patch : Metadata) :
    (current.fallback env planCode patch).metadata.lookup "pendingPlanChange" =
      (patch.lookup "pendingPlanChange").or (current.metadata.lookup "pendingPlanChange") := by
  show (current.patched _).lookup _ = _
  rw [Subscription.patched, lookup_mergeMetadata]
  rfl

/-- A fallback whose patch leaves the pending change alone keeps it. -/
theorem readPendingPlanChange_fallback {planCode : String} {patch : Metadata}
    (kept : patch.lookup "pendingPlanChange" = none) :
    readPendingPlanChange (current.fallback env planCode patch).metadata =
      readPendingPlanChange current.metadata := by
  unfold readPendingPlanChange
  rw [pending_fallback, kept]
  rfl

end

/-! ## Operations -/

section
variable {env : Env} {cause : Cause} {db : Db}

/-- A fallback that clears the pending change leaves none. -/
theorem cleared_fallback {current : Subscription} {planCode : String} {patch : Metadata}
    (cleared : patch.lookup "pendingPlanChange" = some .null) :
    readPendingPlanChange (current.fallback env planCode patch).metadata = none := by
  unfold readPendingPlanChange
  rw [pending_fallback, cleared]
  rfl

theorem transition_represented {announcement : Announcement} {decide : Subscription → Decision}
    (before : db.Represented)
    (keeps : ∀ current updated eventCodes, db.subscription = some current →
      current.Represented → decide current = .ok (some (updated, eventCodes)) →
      updated.Represented) :
    (transition env cause announcement decide db).2.Represented := by
  rcases @transition_cases env cause announcement decide db with
    same | ⟨current, updated, eventCodes, row, decided, after⟩
  · rw [same]
    exact before
  · rw [after]
    intro s found
    cases found
    exact keeps current updated eventCodes row (before current row) decided

theorem startPaidGrace_represented (before : db.Represented) (override : Option String) :
    (startPaidGrace env cause override db).2.Represented := by
  apply transition_represented before
  intro current updated eventCodes row represented decided
  split at decided
  · cases decided
  · obtain ⟨-, -, written⟩ := map_ok.mp decided
    cases written
    exact grace_represented rfl rfl rfl (by have later := gracePeriod_pos env; omega)

theorem extendTrial_represented (before : db.Represented) (newTrialEndsAt : DateText) :
    (extendTrial env cause newTrialEndsAt db).2.Represented := by
  unfold extendTrial
  cases newTrialEndsAt.getTime with
  | none => exact before
  | some nextTrialEndsAt =>
    apply transition_represented before
    intro current updated eventCodes row represented decided
    split at decided
    · cases decided
    rename_i trialing
    split at decided
    · cases decided
    split at decided
    · cases decided
    cases decided
    exact trial_represented (Decidable.not_not.mp trialing)

theorem grantGrace_represented (before : db.Represented) :
    (grantGrace env cause db).2.Represented := by
  apply transition_represented before
  intro current updated eventCodes row represented decided
  split at decided
  · cases decided
  cases decided
  exact grace_represented rfl rfl rfl (by have later := gracePeriod_pos env; omega)

theorem extendGrace_represented (before : db.Represented) :
    (extendGrace env cause db).2.Represented := by
  apply transition_represented before
  intro current updated eventCodes row represented decided
  split at decided
  · cases decided
  rename_i inGrace
  have inGrace := Decidable.not_not.mp inGrace
  obtain ⟨startedAt, endsAt, started, ends, earlier⟩ := represented.grace inGrace
  rw [ends] at decided
  cases decided
  exact grace_represented inGrace started rfl (by have later := gracePeriod_pos env; omega)

/-- The row of a canceled period that has ended is represented: it clears every column. -/
theorem applyCancelledPaidPeriodEndFallback_represented (before : db.Represented) :
    (applyCancelledPaidPeriodEndFallback env cause db).2.Represented := by
  apply transition_represented before
  intro current updated eventCodes row represented decided
  split at decided
  · cases decided
  split at decided
  · cases decided
  obtain ⟨⟨planCode, scheduled⟩, -, written⟩ := map_ok.mp decided
  cases written
  apply (fallback_represented rfl ⟨rfl, rfl, rfl⟩ ⟨rfl, rfl⟩).mpr
  exact @cleared_fallback env current planCode _ rfl

theorem applyImmediatePaidFallback_represented (before : db.Represented) :
    (applyImmediatePaidFallback env cause db).2.Represented := by
  apply transition_represented before
  intro current updated eventCodes row represented decided
  obtain ⟨planCode, -, written⟩ := map_ok.mp decided
  cases written
  exact (fallback_represented rfl ⟨rfl, rfl, rfl⟩ ⟨rfl, rfl⟩).mpr (cleared_fallback rfl)

theorem applyFallbackNow_represented (before : db.Represented) :
    (applyFallbackNow env cause db).2.Represented := by
  apply transition_represented before
  intro current updated eventCodes row represented decided
  split at decided
  · cases decided
  obtain ⟨planCode, -, written⟩ := map_ok.mp decided
  cases written
  exact (fallback_represented rfl ⟨rfl, rfl, rfl⟩ ⟨rfl, rfl⟩).mpr (cleared_fallback rfl)

theorem schedulePaidCancellationAtPeriodEnd_represented (before : db.Represented) :
    (schedulePaidCancellationAtPeriodEnd env cause db).2.Represented := by
  apply transition_represented before
  intro current updated eventCodes row represented decided
  split at decided
  · cases decided
  rename_i paid
  split at decided
  · cases decided
  cases decided
  have not_fallback : current.status ≠ .expiredFallback := by
    intro fallback
    simp [fallback] at paid
  exact represented.of_same not_fallback rfl ⟨rfl, rfl⟩ ⟨rfl, rfl⟩

theorem not_fallback_of_renewable {s : Subscription} (renewable : s.renewable = true) :
    s.status ≠ .expiredFallback := by
  intro fallback
  simp [Subscription.renewable, fallback] at renewable

theorem resumePaidAutoRenew_represented (before : db.Represented)
    (billingProvider providerCustomerRef providerSubscriptionRef : Option String) :
    (resumePaidAutoRenew env cause billingProvider providerCustomerRef providerSubscriptionRef
      db).2.Represented := by
  apply transition_represented before
  intro current updated eventCodes row represented decided
  split at decided
  · cases decided
  rename_i renewable
  split at decided
  · cases decided
  cases decided
  have not_fallback := not_fallback_of_renewable (by simpa using renewable)
  exact represented.of_same not_fallback rfl ⟨rfl, rfl⟩ ⟨rfl, rfl⟩

theorem enablePaidAutoRenew_represented (before : db.Represented)
    (billingProvider providerCustomerRef : Option String) (providerSubscriptionRef : String) :
    (enablePaidAutoRenew env cause billingProvider providerCustomerRef providerSubscriptionRef
      db).2.Represented := by
  apply transition_represented before
  intro current updated eventCodes row represented decided
  split at decided
  · cases decided
  rename_i renewable
  split at decided
  · cases decided
  cases decided
  have not_fallback := not_fallback_of_renewable (by simpa using renewable)
  exact represented.of_same not_fallback rfl ⟨rfl, rfl⟩ ⟨rfl, rfl⟩

theorem clearScheduledPlanChange_represented (before : db.Represented) :
    (clearScheduledPlanChange env cause db).2.Represented := by
  apply transition_represented before
  intro current updated eventCodes row represented decided
  split at decided
  · cases decided
  rename_i pending
  cases decided
  -- a fallback has no pending change to clear
  have not_fallback : current.status ≠ .expiredFallback := by
    intro fallback
    exact pending (represented.fallback fallback).2.2.2.2.2
  exact represented.of_same not_fallback rfl ⟨rfl, rfl⟩ ⟨rfl, rfl⟩

theorem recordBillingReminder_represented (before : db.Represented) :
    (recordBillingReminder env cause db).2.Represented := by
  apply transition_represented before
  intro current updated eventCodes row represented decided
  cases decided
  exact represented

theorem applyActivePaidTransition_represented (before : db.Represented)
    (input : PaidTransition) :
    (applyActivePaidTransition env cause input db).2.Represented := by
  intro s found
  rw [PaidTransition.applyActivePaidTransition_subscription] at found
  split at found
  · cases found
    exact input.row_represented env _ db.subscription
  · exact before s found

/-- The expiry of the grace has nothing to wait for. -/
def Subscription.GraceExpires (s : Subscription) (env : Env) : Prop :=
  s.status = .gracePeriod ∧ due s.graceEndsAt env.now = true ∧
    ∃ planCode, resolvePaidFallbackPlanCode env s.planCode = .ok planCode

/-- An expiry that does not go through leaves the tables as they were. -/
theorem expireGrace_unexpired {current : Subscription} (row : db.subscription = some current)
    (unexpired : ¬ current.GraceExpires env) : (expireGrace env cause db).2 = db := by
  rcases @transition_cases env cause .always _ db with
    same | ⟨current', updated, eventCodes, row', decided, -⟩
  · exact same
  · rw [row] at row'
    cases row'
    split at decided
    · cases decided
    · rename_i inGrace
      split at decided
      · cases decided
      · rename_i isDue
        obtain ⟨planCode, resolved, -⟩ := map_ok.mp decided
        exact absurd ⟨Decidable.not_not.mp inGrace, by simpa using isDue, planCode, resolved⟩
          unexpired

/-- An expiry leaves a represented row just where no change was pending: it does not clear
the change. -/
theorem expireGrace_represented (before : db.Represented) :
    (expireGrace env cause db).2.Represented ↔
      ∀ s, db.subscription = some s → s.GraceExpires env →
        readPendingPlanChange s.metadata = none := by
  cases row : db.subscription with
  | none =>
    rw [expireGrace, transition_of_none row]
    simp [before]
  | some current =>
    by_cases expires : current.GraceExpires env
    · have expired := expires
      obtain ⟨inGrace, isDue, planCode, resolved⟩ := expired
      rw [expireGrace, transition_of_written row
        (by rw [if_neg (by simp [inGrace]), if_neg (by simp [isDue]), resolved]; rfl)]
      constructor
      · intro after s found _
        cases found
        have cleared := (after _ rfl).fallback rfl |>.2.2.2.2.2
        rwa [readPendingPlanChange_fallback rfl] at cleared
      · intro cleared s found
        cases found
        apply (fallback_represented rfl ⟨rfl, rfl, rfl⟩ ⟨rfl, rfl⟩).mpr
        rw [readPendingPlanChange_fallback rfl]
        exact cleared current rfl expires
    · rw [expireGrace_unexpired row expires]
      refine ⟨fun _ s found => ?_, fun _ => before⟩
      cases found
      exact fun other => absurd other expires

/-- A change scheduled on a fallback leaves a row that is not represented. -/
theorem schedulePlanChangeAtPeriodEnd_represented (before : db.Represented)
    (pendingPlanChange : PendingPlanChange) :
    (schedulePlanChangeAtPeriodEnd env cause pendingPlanChange db).2.Represented ↔
      ∀ s, db.subscription = some s → s.status ≠ .expiredFallback := by
  cases row : db.subscription with
  | none =>
    rw [schedulePlanChangeAtPeriodEnd, transition_of_none row]
    simp [before]
  | some current =>
    by_cases scheduled : readPendingPlanChange current.metadata = some pendingPlanChange
    · rw [schedulePlanChangeAtPeriodEnd, transition_of_unchanged row (if_pos scheduled)]
      refine ⟨fun _ s found fallback => ?_, fun _ => before⟩
      cases found
      have cleared := ((before current row).fallback fallback).2.2.2.2.2
      rw [scheduled] at cleared
      cases cleared
    · rw [schedulePlanChangeAtPeriodEnd, transition_of_written row (if_neg scheduled)]
      constructor
      · intro after s found fallback
        cases found
        have cleared := ((after _ rfl).fallback fallback).2.2.2.2.2
        rw [Subscription.patched, readPendingPlanChange_merge_of_planChange rfl] at cleared
        cases cleared
      · intro not_fallback s found
        cases found
        exact (before current row).of_same (not_fallback current rfl) rfl ⟨rfl, rfl⟩ ⟨rfl, rfl⟩

/-! ## The read path -/

/-- A call that keeps the representation. -/
def KeepsRepresented (db db' : Db) : Prop := db.Represented → db'.Represented

instance : Std.Refl KeepsRepresented := ⟨fun _ before => before⟩

instance : Trans KeepsRepresented KeepsRepresented KeepsRepresented :=
  ⟨fun first second before => second (first before)⟩

theorem initialRow_represented {defaultPlan : Plan} {policy : TrialPolicy}
    (resolved : resolveInitialTrialPolicy env defaultPlan = .ok policy) :
    (db.upsertSnapshot (initialRow defaultPlan policy)).Represented := by
  unfold resolveInitialTrialPolicy at resolved
  split at resolved
  · cases resolved
    exact active_represented rfl ⟨rfl, rfl⟩ ⟨rfl, rfl⟩
  split at resolved
  · cases resolved
  split at resolved
  · cases resolved
  obtain ⟨-, -, policy_eq⟩ := map_ok.mp resolved
  cases policy_eq
  exact trial_represented rfl

theorem createInitialWorkspaceSubscription_represented (defaultPlan : Plan) :
    Within KeepsRepresented (createInitialWorkspaceSubscription env cause defaultPlan) := by
  unfold createInitialWorkspaceSubscription
  split
  · exact within_throw _
  intro db before
  match resolved : resolveInitialTrialPolicy env defaultPlan with
  | .error e => exact before
  | .ok policy =>
    intro s found
    cases found
    exact initialRow_represented resolved

theorem initializeLifecycleNow_represented :
    Within KeepsRepresented (initializeLifecycleNow env cause) := by
  unfold initializeLifecycleNow
  refine within_bind (within_read _) fun row => ?_
  split
  · exact within_throw _
  split
  · exact within_throw _
  · exact createInitialWorkspaceSubscription_represented _

theorem applyExpiredTrialFallback_represented (subscription : Subscription) :
    Within KeepsRepresented (applyExpiredTrialFallback env cause subscription) := by
  unfold applyExpiredTrialFallback
  refine within_bind (within_fromExcept _) fun planCode => ?_
  apply within_bind
  · apply within_write
    intro db _ s found
    cases found
    exact (fallback_represented rfl ⟨rfl, rfl, rfl⟩ ⟨rfl, rfl⟩).mpr rfl
  · intro _
    exact within_fromExcept _

/-- What the end of a grace does on the read path is what its expiry does. -/
theorem resolve_graceEnd {subscription : Subscription}
    (graceEnd : dueTransition env subscription = some .graceEnd) :
    (resolveWorkspaceSubscription env cause subscription db).2 = (expireGrace env cause db).2 := by
  unfold resolveWorkspaceSubscription
  rw [graceEnd]
  dsimp only
  rw [tryCatch_apply]
  match outcome : expireGrace env cause db with
  | (.ok (), db') => rw [bind_of_ok outcome]; rfl
  | (.error e, db') => rw [bind_of_error outcome]; rfl

theorem resolveWorkspaceSubscription_represented {subscription : Subscription}
    (other : dueTransition env subscription ≠ some .graceEnd) :
    Within KeepsRepresented (resolveWorkspaceSubscription env cause subscription) := by
  apply resolveWorkspaceSubscription_within
  · exact fun _ before => applyCancelledPaidPeriodEndFallback_represented before
  · exact fun _ _ input _ before => applyActivePaidTransition_represented before input
  · exact fun _ before => startPaidGrace_represented before none
  · exact applyExpiredTrialFallback_represented subscription
  · exact fun graceEnd => absurd graceEnd other

theorem resolveEffectiveSubscription_represented (before : db.Represented) :
    (resolveEffectiveSubscription env cause db).2.Represented ↔
      ∀ s, db.subscription = some s → dueTransition env s = some .graceEnd → s.GraceExpires env →
        readPendingPlanChange s.metadata = none := by
  unfold resolveEffectiveSubscription
  rw [read_bind_apply]
  cases row : db.subscription with
  | none =>
    dsimp only
    cases env.findDefaultRegistrationPlan with
    | none => simp [before]
    | some defaultPlan =>
      have after : Within KeepsRepresented (do
          createInitialWorkspaceSubscription env cause defaultPlan
          read Db.subscription : Call (Option Subscription)) :=
        within_bind (createInitialWorkspaceSubscription_represented defaultPlan)
          fun _ => within_read _
      simp [after db before]
  | some current =>
    dsimp only
    by_cases graceEnd : dueTransition env current = some .graceEnd
    · rw [resolve_graceEnd graceEnd, expireGrace_represented before, row]
      constructor
      · intro cleared s found _
        exact cleared s found
      · intro cleared s found
        cases found
        exact cleared current rfl graceEnd
    · have after := @resolveWorkspaceSubscription_represented env cause current graceEnd db before
      refine ⟨fun _ s found => ?_, fun _ => after⟩
      cases found
      exact fun isGraceEnd => absurd isGraceEnd graceEnd

end

/-! ## Runs -/

inductive LifecycleOp where
  | initializeLifecycleNow
  | resolveEffectiveSubscription
  | startPaidGrace (paidPlanCodeOverride : Option String)
  | extendTrial (newTrialEndsAt : DateText)
  | grantGrace
  | extendGrace
  | expireGrace
  | applyActivePaidTransition (input : PaidTransition)
  | schedulePaidCancellationAtPeriodEnd
  | resumePaidAutoRenew
      (billingProvider providerCustomerRef providerSubscriptionRef : Option String)
  | enablePaidAutoRenew (billingProvider providerCustomerRef : Option String)
      (providerSubscriptionRef : String)
  | schedulePlanChangeAtPeriodEnd (pendingPlanChange : PendingPlanChange)
  | clearScheduledPlanChange
  | applyCancelledPaidPeriodEndFallback
  | applyImmediatePaidFallback
  | applyFallbackNow
  | recordBillingReminder
  deriving DecidableEq, Repr

structure LifecycleStep where
  env : Env
  cause : Cause := {}
  op : LifecycleOp

/-- One operation; what it returns or throws is not looked at. -/
def lifecycleStep (db : Db) (e : LifecycleStep) : Db :=
  match e.op with
  | .initializeLifecycleNow => (initializeLifecycleNow e.env e.cause db).2
  | .resolveEffectiveSubscription => (resolveEffectiveSubscription e.env e.cause db).2
  | .startPaidGrace override => (startPaidGrace e.env e.cause override db).2
  | .extendTrial newTrialEndsAt => (extendTrial e.env e.cause newTrialEndsAt db).2
  | .grantGrace => (grantGrace e.env e.cause db).2
  | .extendGrace => (extendGrace e.env e.cause db).2
  | .expireGrace => (expireGrace e.env e.cause db).2
  | .applyActivePaidTransition input => (applyActivePaidTransition e.env e.cause input db).2
  | .schedulePaidCancellationAtPeriodEnd =>
    (schedulePaidCancellationAtPeriodEnd e.env e.cause db).2
  | .resumePaidAutoRenew billingProvider providerCustomerRef providerSubscriptionRef =>
    (resumePaidAutoRenew e.env e.cause billingProvider providerCustomerRef
      providerSubscriptionRef db).2
  | .enablePaidAutoRenew billingProvider providerCustomerRef providerSubscriptionRef =>
    (enablePaidAutoRenew e.env e.cause billingProvider providerCustomerRef
      providerSubscriptionRef db).2
  | .schedulePlanChangeAtPeriodEnd pending =>
    (schedulePlanChangeAtPeriodEnd e.env e.cause pending db).2
  | .clearScheduledPlanChange => (clearScheduledPlanChange e.env e.cause db).2
  | .applyCancelledPaidPeriodEndFallback =>
    (applyCancelledPaidPeriodEndFallback e.env e.cause db).2
  | .applyImmediatePaidFallback => (applyImmediatePaidFallback e.env e.cause db).2
  | .applyFallbackNow => (applyFallbackNow e.env e.cause db).2
  | .recordBillingReminder => (recordBillingReminder e.env e.cause db).2

/-- A grace expires with no change pending, and no change is scheduled on a fallback. -/
def LeavesNoChangePending (db : Db) (e : LifecycleStep) : Prop :=
  match e.op with
  | .expireGrace => ∀ s, db.subscription = some s → s.GraceExpires e.env →
      readPendingPlanChange s.metadata = none
  | .resolveEffectiveSubscription => ∀ s, db.subscription = some s →
      dueTransition e.env s = some .graceEnd → s.GraceExpires e.env →
        readPendingPlanChange s.metadata = none
  | .schedulePlanChangeAtPeriodEnd _ => ∀ s, db.subscription = some s →
      s.status ≠ .expiredFallback
  | _ => True

theorem lifecycleStep_represented (db : Db) (e : LifecycleStep) (before : db.Represented) :
    (lifecycleStep db e).Represented ↔ LeavesNoChangePending db e := by
  obtain ⟨env, cause, op⟩ := e
  cases op with
  | expireGrace => exact expireGrace_represented before
  | resolveEffectiveSubscription => exact resolveEffectiveSubscription_represented before
  | schedulePlanChangeAtPeriodEnd pending =>
    exact schedulePlanChangeAtPeriodEnd_represented before pending
  | initializeLifecycleNow =>
    exact iff_of_true (initializeLifecycleNow_represented db before) trivial
  | startPaidGrace override =>
    exact iff_of_true (startPaidGrace_represented before override) trivial
  | extendTrial newTrialEndsAt =>
    exact iff_of_true (extendTrial_represented before newTrialEndsAt) trivial
  | grantGrace => exact iff_of_true (grantGrace_represented before) trivial
  | extendGrace => exact iff_of_true (extendGrace_represented before) trivial
  | applyActivePaidTransition input =>
    exact iff_of_true (applyActivePaidTransition_represented before input) trivial
  | schedulePaidCancellationAtPeriodEnd =>
    exact iff_of_true (schedulePaidCancellationAtPeriodEnd_represented before) trivial
  | resumePaidAutoRenew provider customer subscription =>
    exact iff_of_true (resumePaidAutoRenew_represented before provider customer subscription)
      trivial
  | enablePaidAutoRenew provider customer subscription =>
    exact iff_of_true (enablePaidAutoRenew_represented before provider customer subscription)
      trivial
  | clearScheduledPlanChange =>
    exact iff_of_true (clearScheduledPlanChange_represented before) trivial
  | applyCancelledPaidPeriodEndFallback =>
    exact iff_of_true (applyCancelledPaidPeriodEndFallback_represented before) trivial
  | applyImmediatePaidFallback =>
    exact iff_of_true (applyImmediatePaidFallback_represented before) trivial
  | applyFallbackNow => exact iff_of_true (applyFallbackNow_represented before) trivial
  | recordBillingReminder => exact iff_of_true (recordBillingReminder_represented before) trivial

/-- From a workspace without a subscription, the representation holds throughout a run just
where no operation of it leaves a change pending on a fallback. -/
theorem represented_iff (db : Db) (es : List LifecycleStep) :
    EveryState lifecycleStep Db.Represented { db with subscription := none } es ↔
      EveryStep lifecycleStep LeavesNoChangePending { db with subscription := none } es := by
  apply everyState_iff_of_preserved lifecycleStep_represented
  intro s found
  cases found

/-- A paid activation, a scheduled downgrade, a failed renewal and the end of its grace. -/
def downgradeThenFailure : List LifecycleStep := [
  { env := proEnv 0
    op := .applyActivePaidTransition {
      paidPlanCode := "pro", currentPeriodStartedAt := .iso 0
      currentPeriodEndsAt := .iso 2678400000, event := .paymentActivated } },
  { env := proEnv 1000
    op := .schedulePlanChangeAtPeriodEnd {
      targetPlanCode := "basic", targetPlanDisplayName := "Basic", amountMinor := some 9900
      currency := some "RUB", billingPeriod := some .month, effectiveAt := .iso 2678400000
      nextChargeAt := some (.iso 2678400000), changeKind := .downgrade } },
  { env := proEnv 2678400000, op := .startPaidGrace none },
  { env := proEnv 3110400000, op := .expireGrace }]

/-- The downgrade is still pending on the fallback. -/
theorem pending_downgrade_survives :
    ¬ EveryState lifecycleStep Db.Represented {} downgradeThenFailure := by
  intro throughout
  have ended := throughout.last _ rfl
  have cleared := (ended.fallback rfl).2.2.2.2.2
  cases cleared

end Persai.Billing
