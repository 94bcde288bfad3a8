import Persai.Text
import Persai.Billing.Wallet

/-!
# The lifecycle of the subscription

`ManageWorkspaceSubscriptionLifecycleService`. Most of its operations are one transition:
read the row in a transaction, decide, rewrite it and append lifecycle events.

* `transition_cases`: what a transition does to the tables.
-/

namespace Persai.Billing

open Program TxM

/-! ## Texts -/

def normalizeOptionalString (value : Option String) : Option String :=
  value.bind fun text => if trim text = "" then none else some (trim text)

def SubscriptionStatus.text : SubscriptionStatus → String
  | .trialing => "trialing"
  | .active => "active"
  | .gracePeriod => "grace_period"
  | .pastDue => "past_due"
  | .paused => "paused"
  | .canceled => "canceled"
  | .expired => "expired"
  | .expiredFallback => "expired_fallback"

/-! ## Transitions -/

/-- Who caused a change and what it refers to: `source`, `userId` and `LifecycleEventRefs`. -/
structure Cause where
  userId : Option String := none
  source : EventSource := .system
  relatedPaymentIntentRef : Option String := none
  relatedProviderEventRef : Option String := none
  deriving DecidableEq, Repr

def lifecycleEvent (cause : Cause) (eventCode : LifecycleEventCode)
    (previous : Option Subscription) (next : Subscription) : LifecycleEvent where
  userId := cause.userId
  eventCode := eventCode
  previousStatus := previous.map Subscription.status
  nextStatus := next.status
  previousPlanCode := previous.map Subscription.planCode
  nextPlanCode := next.planCode
  previousPeriodStartedAt := previous.bind Subscription.currentPeriodStartedAt
  previousPeriodEndsAt := previous.bind Subscription.currentPeriodEndsAt
  nextPeriodStartedAt := next.currentPeriodStartedAt
  nextPeriodEndsAt := next.currentPeriodEndsAt
  source := cause.source
  relatedPaymentIntentRef := cause.relatedPaymentIntentRef
  relatedProviderEventRef := cause.relatedProviderEventRef

/-- Write the row and append the lifecycle events of the change. -/
def Db.record (db : Db) (cause : Cause) (eventCodes : List LifecycleEventCode)
    (previous : Option Subscription) (next : Subscription) : Db :=
  { db with
    subscription := some next
    lifecycleEvents := db.lifecycleEvents ++
      eventCodes.map fun eventCode => lifecycleEvent cause eventCode previous next }

/-- When an operation marks the assistants dirty and queues the rollout. -/
inductive Announcement where
  | always | whenWritten | never
  deriving DecidableEq, Repr

def Announcement.due : Announcement → Bool → Bool
  | .always, _ => true
  | .whenWritten, written => written
  | .never, _ => false

def requireWorkspaceSubscription : Statements Subscription := do
  match ← query Db.subscription with
  | some subscription => pure subscription
  | none => throw (.thrown (.notFound "Workspace subscription not found."))

/-- What an operation makes of the row it reads: nothing, or a new row with its events. -/
abbrev Decision := Except BillingError (Option (Subscription × List LifecycleEventCode))

/-- Announce a change: `markWorkspaceAssistantsConfigDirty`, `queueBillingLifecycleRollout`
and the notifications. -/
def announce (env : Env) : Call Unit := fromExcept (raise env.rollout)

/-- The common shape of the operations. -/
def transition (env : Env) (cause : Cause) (announcement : Announcement)
    (decide : Subscription → Decision) : Call Unit := do
  let written ← transaction do
    let current ← requireWorkspaceSubscription
    match ← fromExcept (raise (decide current)) with
    | none => pure false
    | some (updated, eventCodes) => do
      update fun db => db.record cause eventCodes (some current) updated
      pure true
  if announcement.due written then announce env else pure ()

section
variable {env : Env} {cause : Cause} {announcement : Announcement}
  {decide : Subscription → Decision} {db : Db}

/-- How an operation ends once its transaction has committed. -/
def Announcement.outcome (announcement : Announcement) (env : Env) (written : Bool) :
    Except (Fault BillingError) Unit :=
  if announcement.due written then raise env.rollout else .ok ()

theorem requireWorkspaceSubscription_apply {current : Subscription} {outside : Db}
    (row : db.subscription = some current) :
    requireWorkspaceSubscription ⟨outside, db, false⟩ = (.ok current, ⟨outside, db, false⟩) := by
  unfold requireWorkspaceSubscription
  rw [query_bind_apply, row]
  rfl

theorem announce_apply (written : Bool) :
    (if announcement.due written then announce env else pure () : Call Unit) db =
      (announcement.outcome env written, db) := by
  unfold Announcement.outcome
  cases announcement.due written <;> rfl

theorem transition_of_none (row : db.subscription = none) :
    transition env cause announcement decide db =
      (.error (.thrown (.notFound "Workspace subscription not found.")), db) := by
  unfold transition
  apply bind_of_error
  unfold transaction requireWorkspaceSubscription
  simp [bind_apply, row]

theorem transition_of_error {current : Subscription} {e : BillingError}
    (row : db.subscription = some current) (decided : decide current = .error e) :
    transition env cause announcement decide db = (.error (.thrown e), db) := by
  unfold transition
  apply bind_of_error
  unfold transaction
  rw [bind_of_ok (requireWorkspaceSubscription_apply row), decided]
  rfl

theorem transition_of_unchanged {current : Subscription}
    (row : db.subscription = some current) (decided : decide current = .ok none) :
    transition env cause announcement decide db = (announcement.outcome env false, db) := by
  unfold transition
  rw [← announce_apply]
  apply bind_of_ok
  unfold transaction
  rw [bind_of_ok (requireWorkspaceSubscription_apply row), decided]
  rfl

theorem transition_of_written {current updated : Subscription}
    {eventCodes : List LifecycleEventCode} (row : db.subscription = some current)
    (decided : decide current = .ok (some (updated, eventCodes))) :
    transition env cause announcement decide db =
      (announcement.outcome env true, db.record cause eventCodes (some current) updated) := by
  unfold transition
  rw [← announce_apply]
  apply bind_of_ok
  unfold transaction
  rw [bind_of_ok (requireWorkspaceSubscription_apply row), decided]
  rfl

/-- A transition leaves the tables as they are, or records what it decided. -/
theorem transition_cases :
    (transition env cause announcement decide db).2 = db ∨
      ∃ current updated eventCodes, db.subscription = some current ∧
        decide current = .ok (some (updated, eventCodes)) ∧
        (transition env cause announcement decide db).2 =
          db.record cause eventCodes (some current) updated := by
  cases row : db.subscription with
  | none => exact .inl (by rw [transition_of_none row])
  | some current =>
    match decided : decide current with
    | .error e => exact .inl (by rw [transition_of_error row decided])
    | .ok none => exact .inl (by rw [transition_of_unchanged row decided])
    | .ok (some (updated, eventCodes)) =>
      exact .inr ⟨current, updated, eventCodes, rfl, decided,
        by rw [transition_of_written row decided]⟩

end

/-! ## Plans -/

def assertPaidPlanIsActive (env : Env) (paidPlanCode : String) : Except BillingError Unit :=
  if (env.plan paidPlanCode).any Plan.active then .ok ()
  else .error (.badRequest "paidPlanCode must reference an active plan.")

def resolvePaidFallbackPlanCode (env : Env) (paidPlanCode : String) :
    Except BillingError String :=
  match ((env.plan paidPlanCode).bind Plan.paidFallbackPlanCode).or
      env.settings.globalFallbackPlanCode with
  | none => .error (.badRequest "Billing lifecycle fallback plan is not configured.")
  | some fallbackPlanCode =>
    if (env.plan fallbackPlanCode).any Plan.active then .ok fallbackPlanCode
    else .error (.badRequest "Billing lifecycle fallback plan must be active.")

def resolveTrialFallbackPlanCode (env : Env) (trialPlanCode : String) :
    Except BillingError String :=
  match (env.plan trialPlanCode).bind Plan.trialFallbackPlanCode with
  | none => .error (.badRequest "Trial fallback plan is not configured.")
  | some fallbackPlanCode =>
    if (env.plan fallbackPlanCode).any Plan.active then .ok fallbackPlanCode
    else .error (.badRequest "Trial fallback plan must be active.")

/-! ## Operations -/

/-- The metadata of the row with the patch of an operation. -/
def Subscription.patched (current : Subscription) (patch : Metadata) : Metadata :=
  mergeMetadata current.metadata (("schema", .text "persai.subscriptionLifecycle.v1") :: patch)

/-- `fallbackProviderResetData`, with the columns that every fallback resets. -/
def Subscription.fallback (current : Subscription) (env : Env) (planCode : String)
    (patch : Metadata) : Subscription :=
  { current with
    planCode
    status := .expiredFallback
    currentPeriodStartedAt := some env.now
    currentPeriodEndsAt := none
    cancelAtPeriodEnd := false
    billingProvider := none
    providerCustomerRef := none
    providerSubscriptionRef := none
    metadata := current.patched (("lifecycleState", .text "expired_fallback") :: patch) }

def gracePeriod (env : Env) : Int := env.settings.gracePeriodDays * 86400000

def startPaidGrace (env : Env) (cause : Cause) (paidPlanCodeOverride : Option String) :
    Call Unit :=
  transition env cause .always fun current =>
    if current.status ≠ .active ∧ current.status ≠ .pastDue then
      .error (.badRequest "Paid renewal failure can only start grace from paid state.")
    else
      let paidPlanCode := (normalizeOptionalString paidPlanCodeOverride).getD current.planCode
      let graceEndsAt := env.now + gracePeriod env
      (if paidPlanCode ≠ current.planCode then assertPaidPlanIsActive env paidPlanCode
        else .ok ()).map fun _ =>
        some ({ current with
          planCode := paidPlanCode
          status := .gracePeriod
          graceStartedAt := some env.now
          graceEndsAt := some graceEndsAt
          metadata := current.patched [
            ("lifecycleState", .text "grace_period"),
            ("lifecycleReason", .text "paid_renewal_failed"),
            ("paidPlanCode", .text paidPlanCode),
            ("previousPaidPlanCode", .text current.planCode),
            ("graceStartedAt", .date env.now),
            ("graceEndsAt", .date graceEndsAt)] }, [.renewalFailed, .graceStarted])

def extendTrial (env : Env) (cause : Cause) (newTrialEndsAt : DateText) : Call Unit :=
  match newTrialEndsAt.getTime with
  | none => throw (.thrown (.badRequest "newTrialEndsAt must be a valid ISO datetime."))
  | some nextTrialEndsAt =>
    transition env cause .always fun current =>
      if current.status ≠ .trialing then
        .error (.badRequest "Trial can only be extended while the workspace is trialing.")
      else match current.trialEndsAt with
        | none => .error (.badRequest "Trial extension requires an existing trial end date.")
        | some trialEndsAt =>
          if nextTrialEndsAt ≤ trialEndsAt then
            .error (.badRequest "Extended trial end must be after the current trial end.")
          else
            .ok (some ({ current with
              trialEndsAt := some nextTrialEndsAt
              currentPeriodEndsAt := some nextTrialEndsAt
              metadata := current.patched [
                ("lifecycleState", .text "trialing"),
                ("lifecycleReason", .text "admin_trial_extended"),
                ("trialExtendedAt", .date env.now),
                ("trialEndsAt", .date nextTrialEndsAt)] }, [.trialExtended]))

def grantGrace (env : Env) (cause : Cause) : Call Unit :=
  transition env cause .always fun current =>
    if current.status ≠ .active ∧ current.status ≠ .pastDue then
      .error (.badRequest
        "Grace can only be granted when the workspace is in an active paid state.")
    else
      let graceEndsAt := env.now + gracePeriod env
      .ok (some ({ current with
        status := .gracePeriod
        graceStartedAt := some env.now
        graceEndsAt := some graceEndsAt
        metadata := current.patched [
          ("lifecycleState", .text "grace_period"),
          ("lifecycleReason", .text "admin_grace_granted"),
          ("paidPlanCode", .text current.planCode),
          ("graceStartedAt", .date env.now),
          ("graceEndsAt", .date graceEndsAt)] }, [.graceStarted]))

def extendGrace (env : Env) (cause : Cause) : Call Unit :=
  transition env cause .always fun current =>
    if current.status ≠ .gracePeriod then
      .error (.badRequest "Grace can only be extended while the workspace is in grace.")
    else match current.graceEndsAt with
      | none => .error (.badRequest "Grace extension requires an existing grace end date.")
      | some graceEndsAt =>
        let nextGraceEndsAt := max graceEndsAt env.now + gracePeriod env
        .ok (some ({ current with
          graceEndsAt := some nextGraceEndsAt
          metadata := current.patched [
            ("lifecycleState", .text "grace_period"),
            ("lifecycleReason", .text "admin_grace_extended"),
            ("paidPlanCode", .text current.planCode),
            ("graceStartedAt", .ofDate current.graceStartedAt),
            ("graceEndsAt", .date nextGraceEndsAt)] }, [.graceExtended]))

/-- The date is there and has come. -/
def due (date : Option Int) (now : Int) : Bool := date.any (· ≤ now)

/-- `expireGrace`; it keeps the dates of the grace, and whatever change is pending. -/
def expireGrace (env : Env) (cause : Cause) : Call Unit :=
  transition env cause .always fun current =>
    if current.status ≠ .gracePeriod then .ok none
    else if !due current.graceEndsAt env.now then .ok none
    else
      (resolvePaidFallbackPlanCode env current.planCode).map fun fallbackPlanCode =>
        some (current.fallback env fallbackPlanCode [
          ("lifecycleReason", .text "grace_expired_without_payment"),
          ("previousPaidPlanCode", .text current.planCode),
          ("fallbackPlanCode", .text fallbackPlanCode),
          ("graceStartedAt", .ofDate current.graceStartedAt),
          ("graceEndsAt", .ofDate current.graceEndsAt)], [.graceExpired, .fallbackApplied])

def schedulePaidCancellationAtPeriodEnd (env : Env) (cause : Cause) : Call Unit :=
  transition env cause .whenWritten fun current =>
    if current.status ≠ .active ∧ current.status ≠ .gracePeriod ∧ current.status ≠ .pastDue then
      .error (.badRequest "Auto-renew can only be disabled for a paid subscription state.")
    else if current.cancelAtPeriodEnd then .ok none
    else
      .ok (some ({ current with
        cancelAtPeriodEnd := true
        metadata := current.patched [
          ("lifecycleState", .text current.status.text),
          ("lifecycleReason", .text "auto_renew_disabled"),
          ("cancelAtPeriodEnd", .flag true),
          ("autoRenewDisabledAt", .date env.now)] }, [.autoRenewDisabled]))

/-- What `resumePaidAutoRenew` and `enablePaidAutoRenew` add to clear a pending change. -/
def Subscription.clearing (current : Subscription) : Metadata :=
  if (readPendingPlanChange current.metadata).isSome then [("pendingPlanChange", .null)] else []

/-- A paid state, or one that was canceled. -/
def Subscription.renewable (current : Subscription) : Bool :=
  current.status = .active || current.status = .gracePeriod || current.status = .pastDue ||
    current.status = .canceled

def resumePaidAutoRenew (env : Env) (cause : Cause)
    (billingProvider providerCustomerRef providerSubscriptionRef : Option String) : Call Unit :=
  transition env cause .whenWritten fun current =>
    if !current.renewable then
      .error (.badRequest "Auto-renew can only be resumed for a paid subscription.")
    else if !current.cancelAtPeriodEnd then .ok none
    else
      .ok (some ({ current with
        cancelAtPeriodEnd := false
        billingProvider := billingProvider.or current.billingProvider
        providerCustomerRef := providerCustomerRef.or current.providerCustomerRef
        providerSubscriptionRef := providerSubscriptionRef.or current.providerSubscriptionRef
        metadata := current.patched ([
          ("lifecycleState", .text current.status.text),
          ("lifecycleReason", .text "subscription_resumed"),
          ("cancelAtPeriodEnd", .flag false),
          ("autoRenewResumedAt", .date env.now)] ++ current.clearing) },
        [.subscriptionResumed]))

def enablePaidAutoRenew (env : Env) (cause : Cause)
    (billingProvider providerCustomerRef : Option String) (providerSubscriptionRef : String) :
    Call Unit :=
  transition env cause .whenWritten fun current =>
    if !current.renewable then
      .error (.badRequest "Auto-renew can only be enabled for a paid subscription.")
    else if !current.cancelAtPeriodEnd ∧ current.billingProvider = billingProvider ∧
        current.providerCustomerRef = providerCustomerRef ∧
        current.providerSubscriptionRef = some providerSubscriptionRef then .ok none
    else
      .ok (some ({ current with
        cancelAtPeriodEnd := false
        billingProvider
        providerCustomerRef
        providerSubscriptionRef := some providerSubscriptionRef
        metadata := current.patched ([
          ("lifecycleState", .text current.status.text),
          ("lifecycleReason", .text "auto_renew_enabled"),
          ("cancelAtPeriodEnd", .flag false),
          ("autoRenewEnabledAt", .date env.now)] ++ current.clearing) },
        [.autoRenewEnabled]))

/-- `schedulePlanChangeAtPeriodEnd`; it asks nothing of the status. -/
def schedulePlanChangeAtPeriodEnd (env : Env) (cause : Cause)
    (pendingPlanChange : PendingPlanChange) : Call Unit :=
  transition env cause .never fun current =>
    -- `samePendingPlanChange` compares every field
    if readPendingPlanChange current.metadata = some pendingPlanChange then .ok none
    else
      .ok (some ({ current with
        metadata := current.patched [("pendingPlanChange", .planChange pendingPlanChange)] },
        [.planChangeScheduled]))

def clearScheduledPlanChange (env : Env) (cause : Cause) : Call Unit :=
  transition env cause .never fun current =>
    if readPendingPlanChange current.metadata = none then .ok none
    else
      .ok (some ({ current with
        metadata := current.patched [("pendingPlanChange", .null)] }, []))

/-- The plan to fall back to when a canceled period ends, and whether it was scheduled. -/
def resolveCanceledPlanCode (env : Env) (current : Subscription) :
    Except BillingError (String × Bool) :=
  match readPendingPlanChange current.metadata with
  | some { targetPlanCode, changeKind := .free, .. } => .ok (targetPlanCode, true)
  | _ => (resolvePaidFallbackPlanCode env current.planCode).map (·, false)

def applyCancelledPaidPeriodEndFallback (env : Env) (cause : Cause) : Call Unit :=
  transition env cause .whenWritten fun current =>
    if !current.cancelAtPeriodEnd then .ok none
    else if !due current.currentPeriodEndsAt env.now then .ok none
    else
      (resolveCanceledPlanCode env current).map fun (fallbackPlanCode, scheduled) =>
        some ({ current.fallback env fallbackPlanCode [
            ("lifecycleReason", .text (if scheduled then "scheduled_free_change_applied"
              else "canceled_paid_period_ended")),
            ("previousPaidPlanCode", .text current.planCode),
            ("fallbackPlanCode", .text fallbackPlanCode),
            ("paidPeriodEndedAt", .ofDate current.currentPeriodEndsAt),
            ("pendingPlanChange", .null)] with
          graceStartedAt := none
          graceEndsAt := none }, [.subscriptionCanceled, .fallbackApplied])

def applyImmediatePaidFallback (env : Env) (cause : Cause) : Call Unit :=
  transition env cause .always fun current =>
    (resolvePaidFallbackPlanCode env current.planCode).map fun fallbackPlanCode =>
      some (current.fallback env fallbackPlanCode [
        ("lifecycleReason", .text "payment_reversed"),
        ("previousPaidPlanCode", .text current.planCode),
        ("fallbackPlanCode", .text fallbackPlanCode),
        ("reversedAt", .date env.now),
        ("pendingPlanChange", .null)], [.paymentReversed, .fallbackApplied])

def applyFallbackNow (env : Env) (cause : Cause) : Call Unit :=
  transition env cause .always fun current =>
    if current.status = .expiredFallback then
      .error (.badRequest "Workspace is already on the fallback plan.")
    else
      let trialing := current.status = .trialing
      (if trialing then resolveTrialFallbackPlanCode env current.planCode
        else resolvePaidFallbackPlanCode env current.planCode).map fun fallbackPlanCode =>
        some (current.fallback env fallbackPlanCode [
          ("lifecycleReason", .text (if trialing then "admin_trial_fallback_now"
            else "admin_paid_fallback_now")),
          ("fallbackPlanCode", .text fallbackPlanCode),
          ("previousPaidPlanCode", if trialing then .null else .text current.planCode),
          ("trialPlanCode", if trialing then .text current.planCode else .null),
          ("appliedAt", .date env.now),
          ("pendingPlanChange", .null)], [.fallbackApplied])

def recordBillingReminder (env : Env) (cause : Cause) : Call Unit :=
  transition env cause .always fun current =>
    .ok (some (current, [.billingReminderRequested]))

end Persai.Billing
