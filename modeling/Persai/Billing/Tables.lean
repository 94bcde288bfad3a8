import Persai.KeyedTable
import Persai.Transaction
import Persai.MediaQuota.Period

/-!
# The billing tables of one workspace

The subscription, the payment intents, the wallet with its ledger and the records of what
was applied. Instants are milliseconds; a date rendered as ISO text is modelled by the
instant itself.
-/

namespace Persai.Billing

inductive SubscriptionStatus where
  | trialing | active | gracePeriod | pastDue | paused | canceled | expired | expiredFallback
  deriving DecidableEq, Repr

/-- `WorkspaceSubscriptionLifecycleEventSource`. -/
inductive EventSource where
  | system | admin | provider | manual
  deriving DecidableEq, Repr

inductive BillingPeriod where
  | month | year
  deriving DecidableEq, Repr

inductive PaymentMethodClass where
  | card | sbpQr
  deriving DecidableEq, Repr

/-- The exceptions of the billing services. -/
inductive BillingError where
  | badRequest (message : String)
  | notFound (message : String)
  | rangeError (message : String)
  | planNotFoundForVcoinGrant (planCode : String)
  | error (message : String)
  deriving DecidableEq, Repr

/-- A string that should be a date: the ISO text of an instant, or another text with what
`new Date` makes of it. -/
inductive DateText where
  | iso (time : Int)
  | other (text : String) (parsed : Option Int)
  deriving DecidableEq, Repr

/-- `new Date(text).getTime()`, `none` for NaN. -/
def DateText.getTime : DateText → Option Int
  | .iso time => some time
  | .other _ parsed => parsed

inductive ChangeKind where
  | free | downgrade
  deriving DecidableEq, Repr

structure PendingPlanChange where
  targetPlanCode : String
  targetPlanDisplayName : String
  amountMinor : Option Int
  currency : Option String
  billingPeriod : Option BillingPeriod
  effectiveAt : DateText
  nextChargeAt : Option DateText
  changeKind : ChangeKind
  deriving DecidableEq, Repr

inductive MetadataValue where
  | null
  | text (value : String)
  | flag (value : Bool)
  | date (value : Int)
  | planChange (value : PendingPlanChange)
  deriving DecidableEq, Repr

/-- A metadata object; the empty one stands for null as well. -/
abbrev Metadata := List (String × MetadataValue)

def MetadataValue.ofDate : Option Int → MetadataValue
  | some value => .date value
  | none => .null

/-- The patch wins over what was there. -/
def mergeMetadata (current patch : Metadata) : Metadata :=
  patch ++ current.filter fun entry => (patch.lookup entry.1).isNone

/-- `readPendingPlanChange` of the lifecycle service. -/
def readPendingPlanChange (metadata : Metadata) : Option PendingPlanChange :=
  match metadata.lookup "pendingPlanChange" with
  | some (.planChange value) => some value
  | _ => none

inductive MigrationStatus where
  | idle | inProgress | succeeded | failed
  deriving DecidableEq, Repr

/-- The columns of a subscription that describe its payment instruments. -/
structure Instruments where
  lastPaymentMethodClass : Option PaymentMethodClass := none
  autoRenewMethodClass : Option PaymentMethodClass := none
  recurringMigrationStatus : MigrationStatus := .idle
  recurringMigrationUpdatedAt : Option Int := none
  recurringMigrationTargetMethodClass : Option PaymentMethodClass := none
  recurringMigrationFailureReason : Option String := none
  providerRecurringDescriptor : Option String := none
  deriving DecidableEq, Repr

structure Subscription where
  planCode : String
  status : SubscriptionStatus
  trialStartedAt : Option Int := none
  trialEndsAt : Option Int := none
  graceStartedAt : Option Int := none
  graceEndsAt : Option Int := none
  currentPeriodStartedAt : Option Int := none
  currentPeriodEndsAt : Option Int := none
  cancelAtPeriodEnd : Bool := false
  billingProvider : Option String := none
  providerCustomerRef : Option String := none
  providerSubscriptionRef : Option String := none
  metadata : Metadata := []
  instruments : Instruments := {}
  deriving DecidableEq, Repr

inductive LifecycleEventCode where
  | trialStarted | trialExtended | trialExpired
  | renewalFailed | graceStarted | graceExtended | graceExpired | fallbackApplied
  | paymentActivated | renewalSucceeded | paymentRecovered | paymentReversed
  | autoRenewDisabled | autoRenewEnabled | subscriptionResumed | subscriptionCanceled
  | planChangeScheduled | billingReminderRequested
  deriving DecidableEq, Repr

structure LifecycleEvent where
  userId : Option String
  eventCode : LifecycleEventCode
  previousStatus : Option SubscriptionStatus
  nextStatus : SubscriptionStatus
  previousPlanCode : Option String
  nextPlanCode : String
  previousPeriodStartedAt : Option Int
  previousPeriodEndsAt : Option Int
  nextPeriodStartedAt : Option Int
  nextPeriodEndsAt : Option Int
  source : EventSource
  relatedPaymentIntentRef : Option String
  relatedProviderEventRef : Option String
  deriving DecidableEq, Repr

/-- `WorkspaceSubscriptionBillingEventCode`. -/
inductive BillingEventCode where
  | paymentActivated | renewalSucceeded | renewalFailed | paymentRecovered | paymentReversed
  | subscriptionCancelScheduled | subscriptionResumed | autoRenewEnabled
  deriving DecidableEq, Repr

inductive ApplyStatus where
  | pending | applied | ignored | failed
  deriving DecidableEq, Repr

structure BillingEvent where
  source : EventSource
  eventCode : BillingEventCode
  eventRef : Option String
  applyStatus : ApplyStatus := .pending
  lastErrorCode : Option String := none
  /-- What its metadata keep of the update of the managed subscription at the provider. -/
  managedUpdateAppliedAt : Option Int := none
  managedSubscriptionRef : Option String := none
  deriving DecidableEq, Repr

inductive MediaPackageType where
  | imageGenerate | imageEdit | videoGenerate | document
  deriving DecidableEq, Repr

/-- `PackageItemSnapshot`. -/
structure PackageItem where
  catalogItemId : String
  packageType : MediaPackageType
  units : Int
  amountMinor : Int
  deriving DecidableEq, Repr

inductive IntentAction where
  | newPurchase | upgrade | renewal | manualAdmin
  deriving DecidableEq, Repr

inductive IntentStatus where
  | created | checkoutReady | pendingConfirmation | succeeded | failed | canceled | reversed
  | expired
  deriving DecidableEq, Repr

inductive NotificationType where
  | check | pay | fail | confirm | refund | cancel | recurrent
  deriving DecidableEq, Repr

/-- What an intent keeps of its last notification. -/
structure NotificationTrace where
  lastNotificationType : NotificationType
  lastTransactionId : Option String
  lastOriginalTransactionId : Option String
  lastStatus : Option String
  lastReason : Option String
  lastReasonCode : Option String
  lastPaymentMethod : Option String
  lastReceiptUrl : Option String
  lastSubscriptionId : Option String
  lastEventTime : Int
  deriving DecidableEq, Repr

structure IntentMetadata where
  purpose : Option String := none
  /-- `none` where it is not an array. -/
  packageItems : Option (List PackageItem) := none
  existingProviderSubscriptionRef : Option String := none
  cloudpayments : Option NotificationTrace := none
  deriving DecidableEq, Repr

structure PaymentIntent where
  userId : Option String
  targetPlanCode : String
  action : IntentAction
  status : IntentStatus
  paymentMethodClass : PaymentMethodClass
  amountMinor : Int
  currency : String
  billingPeriod : BillingPeriod
  billingProvider : Option String := none
  providerCustomerRef : Option String := none
  providerSessionRef : Option String := none
  providerPaymentRef : Option String := none
  lastErrorCode : Option String := none
  lastErrorMessage : Option String := none
  metadata : IntentMetadata
  deriving DecidableEq, Repr

/-- A row of `workspace_media_package_grants`, active when created. -/
structure PackageGrant where
  toolCode : MediaPackageType
  grantedUnits : Int
  amountMinorSnapshot : Int
  currencySnapshot : String
  periodStartedAt : Int
  periodEndsAt : Int
  deriving DecidableEq, Repr

inductive LedgerKind where
  | monthlyGrant | packagePurchase | packageRefund
  deriving DecidableEq, Repr

inductive ReferenceKey where
  /-- The ISO text of the start of a period. -/
  | period (startedAt : Int)
  | paymentIntent (id : String)
  deriving DecidableEq, Repr

structure LedgerEvent where
  amountVc : Int
  planCode : Option String
  deriving DecidableEq, Repr

/-- The rows of one workspace. -/
structure Db where
  subscription : Option Subscription := none
  lifecycleEvents : List LifecycleEvent := []
  /-- By the order of their creation. -/
  billingEvents : KeyedTable Nat BillingEvent := ∅
  paymentIntents : KeyedTable String PaymentIntent := ∅
  /-- By payment intent and catalog item. -/
  packageGrants : KeyedTable (String × String) PackageGrant := ∅
  /-- `balance_vc`, once the wallet has a row. -/
  wallet : Option Int := none
  /-- Unique by kind and reference key. -/
  ledger : KeyedTable (LedgerKind × ReferenceKey) LedgerEvent := ∅

/-- `videoVcoinMonthlyGrant` in the hints of a plan. -/
inductive HintNumber where
  | integer (value : Int)
  /-- Missing, or not an integer. -/
  | other
  deriving DecidableEq, Repr

structure Plan where
  code : String
  displayName : String := ""
  active : Bool
  videoVcoinMonthlyGrant : HintNumber := .other
  /-- `resolveStoredPlanLifecyclePolicy` of its hints. -/
  trialFallbackPlanCode : Option String := none
  paidFallbackPlanCode : Option String := none
  /-- `presentation.price.billingPeriod`. -/
  billingPeriod : Option BillingPeriod := none
  isTrialPlan : Bool := false
  trialDurationDays : Option Int := none
  deriving DecidableEq, Repr

/-- `BillingLifecycleSettingsState`; settings are validated before they are stored. -/
structure LifecycleSettings where
  gracePeriodDays : Int := 5
  inRange : 1 ≤ gracePeriodDays ∧ gracePeriodDays ≤ 90 := by decide
  globalFallbackPlanCode : Option String := none

/-- What `getManagedSubscription` answers. -/
structure ProviderSnapshot where
  /-- Trimmed and in lower case. -/
  status : String
  nextChargeAt : Option DateText
  deriving DecidableEq, Repr

/-- What a call meets outside the tables. -/
structure Env where
  now : Int
  /-- `planCatalogPlan.findUnique`. -/
  plan : String → Option Plan
  findDefaultRegistrationPlan : Option Plan := none
  settings : LifecycleSettings := {}
  /-- How the rollout that follows a lifecycle change ends. -/
  rollout : Except BillingError Unit := .ok ()
  /-- How the provider's `updateManagedSubscription` ends: with the reference it assigns. -/
  updateManagedSubscription : Except BillingError String := .ok ""
  /-- `none` where the call fails. -/
  getManagedSubscription : Option ProviderSnapshot := none

abbrev Call := Service Db BillingError
abbrev Statements := TxM Db BillingError

/-- A failure inside a service is thrown. -/
def raise {α : Type} (x : Except BillingError α) : Except (Fault BillingError) α :=
  x.mapError .thrown

theorem raise_ok {α : Type} {x : Except BillingError α} {a : α} :
    raise x = .ok a ↔ x = .ok a := by
  cases x <;> simp [raise, Except.mapError]

/-- A failure that is not there stops nothing. -/
theorem raise_ok_bind {α β : Type} (a : α) (f : α → Call β) (db : Db) :
    ((Program.fromExcept (raise (.ok a)) : Call α) >>= f) db = f a db := rfl

theorem map_ok {ε α β : Type} {x : Except ε α} {f : α → β} {b : β} :
    x.map f = .ok b ↔ ∃ a, x = .ok a ∧ f a = b := by
  cases x <;> simp [Except.map]

theorem except_bind_ok {ε α β : Type} {x : Except ε α} {f : α → Except ε β} {b : β} :
    (x >>= f) = .ok b ↔ ∃ a, x = .ok a ∧ f a = .ok b := by
  cases x with
  | error e => exact ⟨nofun, fun ⟨a, here, _⟩ => by cases here⟩
  | ok a => exact ⟨fun rest => ⟨a, rfl, rest⟩, fun ⟨a', here, rest⟩ => by cases here; exact rest⟩

/-- Entries under a key that is not patched survive. -/
theorem lookup_filter_unpatched {patch current : Metadata} {k : String}
    (unpatched : patch.lookup k = none) :
    (current.filter fun entry => (patch.lookup entry.1).isNone).lookup k = current.lookup k := by
  induction current with
  | nil => rfl
  | cons entry current ih =>
    obtain ⟨key, value⟩ := entry
    by_cases same : k = key
    · subst same
      simp [unpatched]
    · have differ : (k == key) = false := beq_false_of_ne same
      cases kept : (patch.lookup key).isNone with
      | true => simp [kept, List.lookup_cons, differ, ih]
      | false => simp [kept, List.lookup_cons, differ, ih]

@[simp] theorem lookup_mergeMetadata (current patch : Metadata) (k : String) :
    (mergeMetadata current patch).lookup k = (patch.lookup k).or (current.lookup k) := by
  rw [mergeMetadata, List.lookup_append]
  cases patched : patch.lookup k with
  | some value => rfl
  | none => rw [Option.none_or, Option.none_or, lookup_filter_unpatched patched]

theorem readPendingPlanChange_merge_of_planChange {current patch : Metadata}
    {value : PendingPlanChange}
    (scheduled : patch.lookup "pendingPlanChange" = some (.planChange value)) :
    readPendingPlanChange (mergeMetadata current patch) = some value := by
  rw [readPendingPlanChange, lookup_mergeMetadata, scheduled]
  rfl

end Persai.Billing
