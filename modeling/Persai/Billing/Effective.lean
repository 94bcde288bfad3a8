import Persai.Billing.PaidTransition

/-!
# Reading the subscription that is in effect

`ResolveEffectiveSubscriptionStateService`. A read applies what has fallen due: it creates
the first subscription, ends a canceled period, starts the grace of an overdue one, or falls
back when a trial or a grace has run out.

* `resolveEffectiveSubscription_of_settled`: a read with nothing due changes nothing.
-/

namespace Persai.Billing

open Program TxM

/-- What the registration plan starts with: `resolveInitialTrialPolicy`. -/
structure TrialPolicy where
  status : SubscriptionStatus
  trialStartedAt : Option Int := none
  trialEndsAt : Option Int := none
  currentPeriodStartedAt : Option Int := none
  currentPeriodEndsAt : Option Int := none
  trialFallbackPlanCode : Option String := none
  deriving DecidableEq, Repr

def assertFallbackPlanIsActive (env : Env) (planCode : String) : Except BillingError Unit :=
  if (env.plan planCode).any Plan.active then .ok ()
  else .error (.badRequest "Subscription fallback plan must reference an active plan.")

def resolveInitialTrialPolicy (env : Env) (defaultPlan : Plan) :
    Except BillingError TrialPolicy :=
  if !defaultPlan.isTrialPlan then .ok { status := .active }
  else match defaultPlan.trialDurationDays.filter (0 < ·) with
    | none => .error (.badRequest "Trial default registration plan must have trial duration.")
    | some days => match defaultPlan.trialFallbackPlanCode with
      | none => .error (.badRequest "Trial default registration plan must have a fallback plan.")
      | some fallbackPlanCode =>
        let endsAt := env.now + days * 86400000
        (assertFallbackPlanIsActive env fallbackPlanCode).map fun _ =>
          { status := .trialing
            trialStartedAt := some env.now
            trialEndsAt := some endsAt
            currentPeriodStartedAt := some env.now
            currentPeriodEndsAt := some endsAt
            trialFallbackPlanCode := some fallbackPlanCode }

/-- The row of a new workspace. -/
def initialRow (defaultPlan : Plan) (policy : TrialPolicy) : Subscription where
  planCode := defaultPlan.code
  status := policy.status
  trialStartedAt := policy.trialStartedAt
  trialEndsAt := policy.trialEndsAt
  currentPeriodStartedAt := policy.currentPeriodStartedAt
  currentPeriodEndsAt := policy.currentPeriodEndsAt
  metadata := [
    ("schema", .text "persai.subscriptionLifecycle.v1"),
    ("lifecycleState", .text policy.status.text),
    ("lifecycleReason", .text (if defaultPlan.isTrialPlan then "registration_default_trial"
      else "registration_default_plan"))] ++
    policy.trialFallbackPlanCode.toList.map fun code => ("trialFallbackPlanCode", .text code)

/-- `upsertFromBillingSnapshot`: a snapshot sets every column but the instruments. -/
def Db.upsertSnapshot (db : Db) (snapshot : Subscription) : Subscription :=
  { snapshot with instruments := (db.subscription.map Subscription.instruments).getD {} }

/-- `createInitialWorkspaceSubscription`; outside of a transaction. -/
def createInitialWorkspaceSubscription (env : Env) (cause : Cause) (defaultPlan : Plan) :
    Call Unit :=
  if !defaultPlan.active then
    throw (.thrown (.badRequest "Default registration plan must be active."))
  else do
    let policy ← fromExcept (raise (resolveInitialTrialPolicy env defaultPlan))
    write fun db =>
      db.record cause (if policy.status = .trialing then [.trialStarted] else []) none
        (db.upsertSnapshot (initialRow defaultPlan policy))
    announce env

def initializeLifecycleNow (env : Env) (cause : Cause) : Call Unit := do
  if (← read Db.subscription).isSome then
    throw (.thrown (.badRequest "Workspace subscription already exists."))
  else match env.findDefaultRegistrationPlan with
    | none => throw (.thrown (.badRequest "Default registration plan is not configured."))
    | some defaultPlan => createInitialWorkspaceSubscription env cause defaultPlan

/-- `readMetadataTrialFallbackPlanCode`. -/
def readMetadataTrialFallbackPlanCode (metadata : Metadata) : Option String :=
  match metadata.lookup "trialFallbackPlanCode" with
  | some (.text value) => normalizeOptionalString (some value)
  | _ => none

def resolveExpiredTrialFallbackPlanCode (env : Env) (subscription : Subscription)
    (trialPlan : Plan) : Option String :=
  (readMetadataTrialFallbackPlanCode subscription.metadata).or
    (trialPlan.trialFallbackPlanCode.or env.settings.globalFallbackPlanCode)

/-- The row of a trial that has run out. -/
def expiredTrialRow (subscription : Subscription) (fallbackPlanCode : String) :
    Subscription where
  planCode := fallbackPlanCode
  status := .expiredFallback
  trialStartedAt := subscription.trialStartedAt
  trialEndsAt := subscription.trialEndsAt
  metadata := [
    ("schema", .text "persai.subscriptionLifecycle.v1"),
    ("lifecycleState", .text "trial_expired_fallback"),
    ("lifecycleReason", .text "trial_expired_without_payment"),
    ("previousPlanCode", .text subscription.planCode),
    ("fallbackPlanCode", .text fallbackPlanCode),
    ("trialStartedAt", .ofDate subscription.trialStartedAt),
    ("trialEndsAt", .ofDate subscription.trialEndsAt)]

/-- The plan that a trial falls back to. -/
def expiredTrialPlanCode (env : Env) (subscription : Subscription) :
    Except BillingError String :=
  match env.plan subscription.planCode with
  | none => .error (.badRequest "Expired trial plan no longer exists.")
  | some trialPlan => match resolveExpiredTrialFallbackPlanCode env subscription trialPlan with
    | none => .error (.badRequest "Expired trial plan does not have a fallback plan.")
    | some fallbackPlanCode =>
      (assertFallbackPlanIsActive env fallbackPlanCode).map fun _ => fallbackPlanCode

def applyExpiredTrialFallback (env : Env) (cause : Cause) (subscription : Subscription) :
    Call Unit := do
  let fallbackPlanCode ← fromExcept (raise (expiredTrialPlanCode env subscription))
  write fun db =>
    db.record cause [.trialExpired, .fallbackApplied] (some subscription)
      (db.upsertSnapshot (expiredTrialRow subscription fallbackPlanCode))
  announce env

/-- The row again, after a transition. -/
def refreshed (subscription : Subscription) : Call (Option Subscription) :=
  read fun db => some (db.subscription.getD subscription)

/-- The transition that reconciles an overdue period with the provider's next charge. -/
def reconciliation (subscription : Subscription) (endsAt nextChargeAt : Int) :
    PaidTransition where
  paidPlanCode := subscription.planCode
  currentPeriodStartedAt := .iso endsAt
  currentPeriodEndsAt := .iso nextChargeAt
  billingProvider := subscription.billingProvider
  providerCustomerRef := subscription.providerCustomerRef
  providerSubscriptionRef := subscription.providerSubscriptionRef
  event := .paymentRecovered

/-- `tryProviderManagedOverdueReconcile`: `none` where the provider settles nothing. -/
def tryProviderManagedOverdueReconcile (env : Env) (cause : Cause)
    (subscription : Subscription) : Call (Option Subscription) :=
  match subscription.currentPeriodEndsAt, env.getManagedSubscription with
  | some endsAt, some snapshot =>
    match snapshot.nextChargeAt.bind DateText.getTime with
    | some nextChargeAt =>
      if snapshot.status = "active" ∧ endsAt < nextChargeAt then do
        applyActivePaidTransition env cause (reconciliation subscription endsAt nextChargeAt)
        refreshed subscription
      else if snapshot.status = "cancelled" ∨ snapshot.status = "canceled" then do
        applyCancelledPaidPeriodEndFallback env cause
        refreshed subscription
      else pure none
    | none =>
      if snapshot.status = "cancelled" ∨ snapshot.status = "canceled" then do
        applyCancelledPaidPeriodEndFallback env cause
        refreshed subscription
      else pure none
  | _, _ => pure none

/-- What has fallen due of a subscription. -/
inductive DueTransition where
  | canceledPeriodEnd | overdue | trialEnd | graceEnd
  deriving DecidableEq, Repr

/-- The conditions of `resolveWorkspaceSubscription`, in their order. -/
def dueTransition (env : Env) (subscription : Subscription) : Option DueTransition :=
  if subscription.cancelAtPeriodEnd ∧ due subscription.currentPeriodEndsAt env.now then
    some .canceledPeriodEnd
  else if (subscription.status = .active ∨ subscription.status = .pastDue) ∧
      !subscription.cancelAtPeriodEnd ∧ due subscription.currentPeriodEndsAt env.now then
    some .overdue
  else if subscription.status = .trialing ∧ due subscription.trialEndsAt env.now then
    some .trialEnd
  else if subscription.status = .gracePeriod ∧ due subscription.graceEndsAt env.now then
    some .graceEnd
  else none

/-- `resolveWorkspaceSubscription`, to the row it ends with. The fallback of a canceled period
throws; what the other transitions throw is logged, and the row stays as it was read. -/
def resolveWorkspaceSubscription (env : Env) (cause : Cause) (subscription : Subscription) :
    Call (Option Subscription) :=
  match dueTransition env subscription with
  | some .canceledPeriodEnd => do
    applyCancelledPaidPeriodEndFallback env cause
    refreshed subscription
  | some .overdue =>
    tryCatch
      (do
        match ← (if subscription.providerSubscriptionRef.isSome then
            tryProviderManagedOverdueReconcile env cause subscription else pure none) with
        | some reconciled => pure (some reconciled)
        | none => do
          startPaidGrace env cause none
          refreshed subscription)
      fun _ => pure (some subscription)
  | some .trialEnd =>
    tryCatch
      (do
        applyExpiredTrialFallback env cause subscription
        refreshed subscription)
      fun _ => pure (some subscription)
  | some .graceEnd =>
    tryCatch
      (do
        expireGrace env cause
        refreshed subscription)
      fun _ => pure (some subscription)
  | none => pure (some subscription)

/-- `execute` without plan overrides: the row in effect, `none` while unconfigured. -/
def resolveEffectiveSubscription (env : Env) (cause : Cause) : Call (Option Subscription) := do
  match ← read Db.subscription with
  | some subscription => resolveWorkspaceSubscription env cause subscription
  | none => match env.findDefaultRegistrationPlan with
    | some defaultPlan => do
      createInitialWorkspaceSubscription env cause defaultPlan
      read Db.subscription
    | none => pure none

theorem resolveEffectiveSubscription_of_settled {env : Env} {cause : Cause} {db : Db}
    {subscription : Subscription} (row : db.subscription = some subscription)
    (settled : dueTransition env subscription = none) :
    resolveEffectiveSubscription env cause db = (.ok (some subscription), db) := by
  unfold resolveEffectiveSubscription
  rw [read_bind_apply, row]
  dsimp only
  unfold resolveWorkspaceSubscription
  rw [settled]
  rfl

section
variable {env : Env} {cause : Cause} {subscription : Subscription} {R : Db → Db → Prop}
  [Std.Refl R] [Trans R R R]
  (canceled : Within R (applyCancelledPaidPeriodEndFallback env cause))
include canceled

/-- What the transitions keep that the provider's answer leads to, asking it keeps. -/
theorem tryProviderManagedOverdueReconcile_within
    (paid : ∀ input, Within R (applyActivePaidTransition env cause input)) :
    Within R (tryProviderManagedOverdueReconcile env cause subscription) := by
  have fallen : Within R (do
      applyCancelledPaidPeriodEndFallback env cause
      refreshed subscription : Call (Option Subscription)) :=
    within_bind canceled fun _ => within_read _
  unfold tryProviderManagedOverdueReconcile
  split
  · split
    · split
      · exact within_bind (paid _) fun _ => within_read _
      · split
        · exact fallen
        · exact within_pure _
    · split
      · exact fallen
      · exact within_pure _
  · exact within_pure _

/-- What the transitions keep that fall due, a read keeps. -/
theorem resolveWorkspaceSubscription_within
    (paid : dueTransition env subscription = some .overdue →
      subscription.providerSubscriptionRef.isSome →
      ∀ input, Within R (applyActivePaidTransition env cause input))
    (grace : Within R (startPaidGrace env cause none))
    (trial : Within R (applyExpiredTrialFallback env cause subscription))
    (expired : dueTransition env subscription = some .graceEnd →
      Within R (expireGrace env cause)) :
    Within R (resolveWorkspaceSubscription env cause subscription) := by
  unfold resolveWorkspaceSubscription
  split
  · exact within_bind canceled fun _ => within_read _
  · rename_i overdue
    apply within_tryCatch
    · apply within_bind
      · split
        · rename_i managed
          exact tryProviderManagedOverdueReconcile_within canceled (paid overdue managed)
        · exact within_pure _
      · intro reconciled
        cases reconciled with
        | some row => exact within_pure _
        | none => exact within_bind grace fun _ => within_read _
    · exact fun _ => within_pure _
  · apply within_tryCatch
    · exact within_bind trial fun _ => within_read _
    · exact fun _ => within_pure _
  · rename_i graceEnd
    apply within_tryCatch
    · exact within_bind (expired graceEnd) fun _ => within_read _
    · exact fun _ => within_pure _
  · exact within_pure _

end

end Persai.Billing
