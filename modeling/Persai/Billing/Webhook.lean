import Persai.Billing.BillingEvents
import Persai.Billing.Packages

/-!
# Notifications of the payment provider

`HandleCloudpaymentsWebhookService`, from the payload on: which intent and which subscription
a notification is about, the status it gives the intent, what it does for a package, and the
billing event that is derived from it. Requests without a valid signature are rejected before
that.
-/

namespace Persai.Billing

open Program TxM

/-! ## Payloads -/

/-- `CloudpaymentsPayload`, its strings trimmed. Of each date it has whether it is there, and
what it parses to. -/
structure Payload where
  transactionId : Option String := none
  originalTransactionId : Option String := none
  invoiceId : Option String := none
  externalId : Option String := none
  accountId : Option String := none
  subscriptionId : Option String := none
  amountMinor : Option Int := none
  /-- In upper case. -/
  currency : Option String := none
  status : Option String := none
  reason : Option String := none
  reasonCode : Option String := none
  paymentMethod : Option String := none
  /-- `inferPaymentMethodClassFromProviderPayload`. -/
  inferredMethodClass : Option PaymentMethodClass := none
  receiptUrl : Option String := none
  dateTime : Option (Option Int) := none
  lastTransactionDate : Option (Option Int) := none
  startDate : Option (Option Int) := none
  /-- `data.paymentIntentId`. -/
  paymentIntentId : Option String := none
  deriving DecidableEq, Repr

/-- `eventTimeIso`: the first date that is there, or the time of the request where it cannot be
read or none is there. -/
def Payload.eventTime (payload : Payload) (env : Env) : Int :=
  ((payload.dateTime.or (payload.lastTransactionDate.or payload.startDate)).join).getD env.now

structure Notification where
  notificationType : NotificationType
  payload : Payload
  /-- The SHA-256 of the raw body. -/
  digest : String
  deriving DecidableEq, Repr

def NotificationType.text : NotificationType → String
  | .check => "check"
  | .pay => "pay"
  | .fail => "fail"
  | .confirm => "confirm"
  | .refund => "refund"
  | .cancel => "cancel"
  | .recurrent => "recurrent"

/-- `buildEventRef`. -/
def Notification.eventRef (n : Notification) : String :=
  "cloudpayments:" ++ n.notificationType.text ++ ":" ++ n.digest

/-- A card was authorized; the charge itself is to follow. -/
def Payload.authorized (payload : Payload) : Bool := payload.status = some "Authorized"

/-! ## The intent of a notification -/

/-- `rankPaymentIntentMatch`: the kind of the match and its place within the kind. -/
def rankPaymentIntentMatch (payload : Payload) (id : String) (intent : PaymentIntent) :
    Option (Nat × Nat) :=
  let bySessionRef := [payload.externalId, payload.invoiceId].filterMap fun ref => ref
  let byPaymentRef :=
    [payload.transactionId, payload.originalTransactionId].filterMap fun ref => ref
  if payload.paymentIntentId = some id then some (0, 0)
  else match bySessionRef.findIdx? fun ref => intent.providerSessionRef = some ref with
    | some index => some (1, index)
    | none => (byPaymentRef.findIdx? fun ref => intent.providerPaymentRef = some ref).map (2, ·)

/-- The rank comes first. -/
def rankBefore (left right : Nat × Nat) : Bool :=
  left.1 < right.1 || (left.1 = right.1 && left.2 < right.2)

structure RankedIntent where
  id : String
  intent : PaymentIntent
  rank : Nat × Nat
  deriving DecidableEq, Repr

/-- `selectPaymentIntentMatch`: the best match; two of one rank are an error. -/
def selectPaymentIntentMatch (ranked : List RankedIntent) :
    Except BillingError (Option (String × PaymentIntent)) :=
  match ranked.foldl (fun best entry => match best with
      | none => some entry
      | some best => if rankBefore entry.rank best.rank then some entry else some best) none with
  | none => .ok none
  | some best =>
    if ranked.any fun entry => entry.id ≠ best.id ∧ entry.rank = best.rank then
      .error (.badRequest "CloudPayments webhook matched multiple PersAI payment intents.")
    else .ok (some (best.id, best.intent))

/-- `resolvePaymentIntent`. The query takes every intent with one of the references; those that
have none of them in its place have no rank. -/
def resolvePaymentIntent (payload : Payload) (db : Db) :
    Except BillingError (Option (String × PaymentIntent)) :=
  selectPaymentIntentMatch (db.paymentIntents.rows.filterMap fun (id, intent) =>
    (rankPaymentIntentMatch payload id intent).map fun rank => ⟨id, intent, rank⟩)

/-- `resolveSubscription`: the subscription, and whether a reference that matches none blocks
the fallback to the account. -/
def resolveSubscription (payload : Payload) (intent : Option (String × PaymentIntent)) (db : Db) :
    Option Subscription × Bool :=
  if intent.isSome then (db.subscription, false)
  else match payload.subscriptionId with
    | some ref =>
      match db.subscription.filter fun s => s.providerSubscriptionRef = some ref with
      | some subscription => (some subscription, false)
      | none => (none, payload.accountId.isSome)
    | none => match payload.accountId with
      | some ref => (db.subscription.filter fun s => s.providerCustomerRef = some ref, false)
      | none => (none, false)

/-! ## The status of the intent -/

def resolveNextPaymentIntentStatus (intent : PaymentIntent) (notificationType : NotificationType)
    (payload : Payload) : Option IntentStatus :=
  match notificationType with
  | .refund => some .reversed
  | .cancel => if intent.status = .succeeded then none else some .canceled
  | .fail => some .failed
  | .confirm => some .succeeded
  | .pay => some (if payload.authorized then .pendingConfirmation else .succeeded)
  | .check | .recurrent => none

/-- The columns that the update writes: `read` is the intent as it was read, `row` as it is. -/
def PaymentIntent.notified (row read : PaymentIntent) (env : Env)
    (notificationType : NotificationType) (payload : Payload) (status : IntentStatus) :
    PaymentIntent :=
  { row with
    status
    billingProvider := some "cloudpayments"
    providerCustomerRef := read.providerCustomerRef
    providerPaymentRef := if notificationType = .refund then
        read.providerPaymentRef.or (payload.originalTransactionId.or payload.transactionId)
      else read.providerPaymentRef.or payload.transactionId
    paymentMethodClass := payload.inferredMethodClass.getD row.paymentMethodClass
    lastErrorCode := if notificationType = .fail then payload.reasonCode else none
    lastErrorMessage := if notificationType = .fail then payload.reason else none
    metadata := { read.metadata with
      cloudpayments := some {
        lastNotificationType := notificationType
        lastTransactionId := payload.transactionId
        lastOriginalTransactionId := payload.originalTransactionId
        lastStatus := payload.status
        lastReason := payload.reason
        lastReasonCode := payload.reasonCode
        lastPaymentMethod := payload.paymentMethod
        lastReceiptUrl := payload.receiptUrl
        lastSubscriptionId := payload.subscriptionId
        lastEventTime := payload.eventTime env } } }

/-- `updatePaymentIntent`, of the intent as it was read. -/
def updatePaymentIntent (env : Env) (id : String) (read : PaymentIntent)
    (notificationType : NotificationType) (payload : Payload) : Call Unit :=
  match resolveNextPaymentIntentStatus read notificationType payload with
  | none => pure ()
  | some status => write fun db => { db with
      paymentIntents := db.paymentIntents.update id fun row =>
        row.notified read env notificationType payload status }

def handleCheck (payload : Payload) : Call Unit := do
  match ← fromExcept (raise (← read fun db => resolvePaymentIntent payload db)) with
  | none =>
    match ← read (resolveSubscription payload none) with
    | (some _, _) => pure ()
    | (none, true) => pure ()
    | (none, false) =>
      throw (.thrown (.notFound "CloudPayments Check webhook billing subject was not found."))
  | some (_, intent) =>
    if payload.amountMinor.any (· ≠ intent.amountMinor) then
      throw (.thrown (.badRequest "CloudPayments Check amount does not match the payment intent."))
    else if payload.currency.any (· ≠ intent.currency.toUpper) then
      throw (.thrown (.badRequest
        "CloudPayments Check currency does not match the payment intent."))
    else if intent.status = .failed ∨ intent.status = .canceled ∨ intent.status = .reversed ∨
        intent.status = .expired then
      throw (.thrown (.badRequest
        "CloudPayments Check cannot continue for a terminal payment intent."))
    else pure ()

/-! ## The billing event of a notification -/

/-- `readPaymentIntentPurpose`. -/
def PaymentIntent.purpose (intent : PaymentIntent) : String :=
  (normalizeOptionalString intent.metadata.purpose).getD "plan_purchase"

/-- `readPendingPlanChange` of the webhook: the target plan and the kind of the change. -/
def readScheduledPlanChange (metadata : Metadata) : Option (String × PendingPlanChange) :=
  (readPendingPlanChange metadata).bind fun pending =>
    (normalizeOptionalString (some pending.targetPlanCode)).map (·, pending)

/-- The plan of a scheduled downgrade that the charge is for:
`scheduledDowngradeMatchesProviderCharge`. -/
def scheduledDowngrade (payload : Payload) (subscription : Option Subscription) :
    Option String :=
  (subscription.bind fun s => readScheduledPlanChange s.metadata).bind fun (planCode, pending) =>
    let currency := normalizeOptionalString pending.currency
    if pending.changeKind = .downgrade ∧ pending.amountMinor.isSome ∧ currency.isSome ∧
        payload.amountMinor = pending.amountMinor ∧ payload.currency = currency then
      some planCode
    else none

def addBillingPeriod (startedAt : Int) : BillingPeriod → Int
  | .month => Utc.addMonths 1 startedAt
  | .year => Utc.addMonths 12 startedAt

def resolveBillingPeriod (env : Env) (intent : Option (String × PaymentIntent))
    (subscription : Option Subscription) : Except BillingError BillingPeriod :=
  match intent, subscription with
  | some (_, intent), _ => .ok intent.billingPeriod
  | none, none =>
    .error (.badRequest "CloudPayments webhook billing period could not be resolved.")
  | none, some subscription =>
    match (env.plan subscription.planCode).bind Plan.billingPeriod with
    | some billingPeriod => .ok billingPeriod
    | none =>
      .error (.badRequest "Billing period could not be derived from the active paid plan.")

/-- What all events of a notification have in common. -/
def Notification.billingEvent (n : Notification) (intent : Option (String × PaymentIntent))
    (eventCode : BillingEventCode) : BillingEventInput where
  userId := intent.bind fun (_, intent) => intent.userId
  source := .provider
  eventCode := eventCode
  eventRef := some n.eventRef
  paymentIntentRef := intent.map Prod.fst
  billingProvider := some "cloudpayments"

/-- `resolveProviderSubscriptionRef`. -/
def resolveProviderSubscriptionRef (payload : Payload) (intent : Option (String × PaymentIntent))
    (subscription : Option Subscription) (purpose : String) : Option String :=
  let current := subscription.bind Subscription.providerSubscriptionRef
  if purpose ≠ "managed_recurring_upgrade" then payload.subscriptionId.or current
  else
    payload.subscriptionId.or
      ((intent.bind fun (_, intent) =>
        normalizeOptionalString intent.metadata.existingProviderSubscriptionRef).or current)

/-- The purpose that activation looks at. -/
def activationPurpose (intent : Option (String × PaymentIntent)) : String :=
  (intent.map fun (_, intent) => intent.purpose).getD "plan_purchase"

/-- The update of the managed subscription that an upgrade asks for. -/
def managedUpgrade (intent : Option (String × PaymentIntent)) (purpose : String)
    (providerSubscriptionRef : Option String) (endsAt : Int) :
    Except BillingError (Option ManagedUpdate) :=
  if purpose ≠ "managed_recurring_upgrade" then .ok none
  else match normalizeOptionalString providerSubscriptionRef with
    | none => .error (.badRequest
        "Managed recurring upgrade webhook is missing the provider subscription reference.")
    | some _ => .ok (intent.map fun (_, intent) => {
        providerSubscriptionRef := providerSubscriptionRef.getD ""
        amountMinor := intent.amountMinor
        currency := intent.currency
        startDate := endsAt
        period := if intent.billingPeriod = .year then 12 else 1 })

/-- The code of an activation. -/
def activationCode (notificationType : NotificationType)
    (intent : Option (String × PaymentIntent)) (subscription : Option Subscription) :
    BillingEventCode :=
  let renewal := intent.any fun (_, intent) => intent.action = .renewal
  if notificationType = .recurrent ∨ renewal ∨ (intent.isNone ∧ subscription.isSome) then
    if subscription.any fun s => s.status = .gracePeriod ∨ s.status = .pastDue then
      .paymentRecovered
    else .renewalSucceeded
  else .paymentActivated

/-- The event of a charge that went through: a paid period from the time of the event. -/
def deriveActivation (env : Env) (n : Notification) (intent : Option (String × PaymentIntent))
    (subscription : Option Subscription) : Except BillingError (Option BillingEventInput) := do
  let purpose := activationPurpose intent
  if purpose = "autopay_enable_bind" then
    match subscription with
    | none => return none
    | some current =>
      return some { n.billingEvent intent .autoRenewEnabled with
        providerCustomerRef := n.payload.accountId.or (current.providerCustomerRef.or
          (intent.bind fun (_, intent) => intent.providerCustomerRef))
        providerSubscriptionRef := n.payload.subscriptionId.or current.providerSubscriptionRef
        paidPlanCode := some current.planCode }
  else
    let billingPeriod ← resolveBillingPeriod env intent subscription
    let startedAt := n.payload.eventTime env
    let endsAt := addBillingPeriod startedAt billingPeriod
    let providerSubscriptionRef :=
      resolveProviderSubscriptionRef n.payload intent subscription purpose
    let managedUpdate ← managedUpgrade intent purpose providerSubscriptionRef endsAt
    return some { n.billingEvent intent (activationCode n.notificationType intent subscription) with
      providerCustomerRef := (subscription.bind Subscription.providerCustomerRef).or
        (n.payload.accountId.or (intent.bind fun (_, intent) => intent.providerCustomerRef))
      providerSubscriptionRef
      paidPlanCode := (intent.map fun (_, intent) => intent.targetPlanCode).or
        ((scheduledDowngrade n.payload subscription).or (subscription.map Subscription.planCode))
      currentPeriodStartedAt := some (.iso startedAt)
      currentPeriodEndsAt := some (.iso endsAt)
      managedUpdate }

def deriveLifecycleEvent (env : Env) (n : Notification) (intent : Option (String × PaymentIntent))
    (subscription : Option Subscription) : Except BillingError (Option BillingEventInput) :=
  match n.notificationType with
  | .cancel => .ok (subscription.map fun current =>
      { n.billingEvent intent .subscriptionCancelScheduled with
        providerCustomerRef := current.providerCustomerRef.or n.payload.accountId
        providerSubscriptionRef := n.payload.subscriptionId.or current.providerSubscriptionRef
        paidPlanCode := some current.planCode })
  | .fail =>
    let renewalTarget := intent.all fun (_, intent) => intent.action = .renewal
    .ok (if !renewalTarget then none else subscription.map fun current =>
      { n.billingEvent intent .renewalFailed with
        providerCustomerRef := current.providerCustomerRef
        providerSubscriptionRef := n.payload.subscriptionId.or current.providerSubscriptionRef
        paidPlanCode := some current.planCode
        scheduledPaidPlanCode := scheduledDowngrade n.payload subscription })
  | .refund =>
    .ok (if intent.isNone ∧ subscription.isNone then none else
      some { n.billingEvent intent .paymentReversed with
        providerCustomerRef := subscription.bind Subscription.providerCustomerRef
        providerSubscriptionRef := n.payload.subscriptionId.or
          (subscription.bind Subscription.providerSubscriptionRef)
        paidPlanCode := (intent.map fun (_, intent) => intent.targetPlanCode).or
          (subscription.map Subscription.planCode) })
  | .check => .ok none
  | .pay =>
    if n.payload.authorized then .ok none
    else if intent.isNone ∧ subscription.isNone then .ok none
    else deriveActivation env n intent subscription
  | .confirm | .recurrent =>
    if intent.isNone ∧ subscription.isNone then .ok none
    else deriveActivation env n intent subscription

/-! ## Payment instruments -/

/-- The instrument of the last payment, after an event that was applied. -/
def syncLastPayment (n : Notification) (intent : Option (String × PaymentIntent))
    (eventCode : BillingEventCode) (instruments : Instruments) : Instruments :=
  match intent with
  | some (_, intent) =>
    if eventCode = .paymentActivated ∨ eventCode = .renewalSucceeded ∨
        eventCode = .paymentRecovered ∨ eventCode = .autoRenewEnabled ∨
        eventCode = .subscriptionResumed then
      { instruments with
        lastPaymentMethodClass :=
          some (n.payload.inferredMethodClass.getD intent.paymentMethodClass) }
    else instruments
  | none =>
    if eventCode = .renewalSucceeded ∨ eventCode = .paymentRecovered then
      { instruments with
        lastPaymentMethodClass :=
          n.payload.inferredMethodClass.or instruments.lastPaymentMethodClass }
    else instruments

/-- The instrument of the renewals, where the subscription renews itself. -/
def syncAutoRenew (env : Env) (n : Notification) (intent : Option (String × PaymentIntent))
    (eventCode : BillingEventCode) (instruments : Instruments) : Instruments :=
  let inferred := { instruments with
    autoRenewMethodClass :=
      n.payload.inferredMethodClass.or instruments.autoRenewMethodClass }
  if n.notificationType = .recurrent then inferred
  else match intent with
    | some (_, intent) =>
      if intent.purpose = "managed_recurring_upgrade" ∧ intent.paymentMethodClass = .sbpQr then
        let migrating := { instruments with
          recurringMigrationUpdatedAt := some env.now
          recurringMigrationTargetMethodClass := some .sbpQr }
        if n.payload.subscriptionId.isSome ∧ n.payload.inferredMethodClass = some .sbpQr then
          { migrating with
            autoRenewMethodClass := some .sbpQr
            recurringMigrationStatus := .succeeded
            recurringMigrationFailureReason := none }
        else
          { migrating with
            recurringMigrationStatus := .failed
            recurringMigrationFailureReason := some "provider_sbp_recurring_not_confirmed" }
      else if eventCode = .autoRenewEnabled ∨ intent.paymentMethodClass = .card then
        { instruments with autoRenewMethodClass := some .card }
      else instruments
    | none =>
      if eventCode = .renewalSucceeded ∨ eventCode = .paymentRecovered then inferred
      else instruments

/-- `autoRenewExpected`. -/
def Subscription.autoRenews (s : Subscription) : Bool :=
  s.billingProvider = some "cloudpayments" && s.providerSubscriptionRef.isSome &&
    (s.status = .active || s.status = .gracePeriod || s.status = .pastDue) && !s.cancelAtPeriodEnd

/-- It logs what it throws; nothing of it fails but the database. -/
def syncSubscriptionBillingInstrumentsAfterLifecycleApply (env : Env) (n : Notification)
    (intent : Option (String × PaymentIntent)) (eventCode : BillingEventCode) : Call Unit :=
  write fun db =>
    let autoRenews := db.subscription.any Subscription.autoRenews
    db.updateInstruments fun instruments =>
      let paid := syncLastPayment n intent eventCode instruments
      if autoRenews then syncAutoRenew env n intent eventCode paid else paid

/-! ## Handling a notification -/

inductive HandleStatus where
  | processed | ignored | duplicate
  deriving DecidableEq, Repr

/-- The notification is for a media package: its intent has that purpose. -/
def PaymentIntent.isPackage (intent : PaymentIntent) : Bool :=
  intent.purpose = "media_package_purchase"

/-- The charge of a package goes through. -/
def Notification.paysPackage (n : Notification) (intent : PaymentIntent) : Bool :=
  intent.isPackage && (n.notificationType = .pay || n.notificationType = .confirm) &&
    !n.payload.authorized

def fulfillPackage (env : Env) (id : String) (intent : PaymentIntent) : Call HandleStatus := do
  let alreadyFulfilled ← read fun db => db.packageGrants.count fun key _ => key.1 = id
  if 0 < alreadyFulfilled then pure .duplicate
  else match intent.userId with
    | none => throw (.thrown (.error ("Cannot fulfill media package intent \"" ++ id ++
        "\": paymentIntent.userId is null.")))
    | some userId => do
      fulfillPackagePaymentIntent env { userId := some userId } id
      pure .processed

/-- The lifecycle event of a notification, derived and applied. -/
def handleLifecycle (env : Env) (n : Notification) (intent : Option (String × PaymentIntent))
    (subscription : Option Subscription) : Call HandleStatus := do
  match ← fromExcept (raise (deriveLifecycleEvent env n intent subscription)) with
  | none => pure .ignored
  | some lifecycleEvent => match ← apply env lifecycleEvent with
    | .applied => do
      syncSubscriptionBillingInstrumentsAfterLifecycleApply env n intent lifecycleEvent.eventCode
      pure .processed
    | .duplicate => pure .duplicate
    | .ignored => pure .ignored

/-- A notification whose intent was found. -/
def handleIntent (env : Env) (n : Notification) (id : String) (intent : PaymentIntent)
    (subscription : Option Subscription) : Call HandleStatus := do
  updatePaymentIntent env id intent n.notificationType n.payload
  if n.paysPackage intent then fulfillPackage env id intent
  else if intent.isPackage ∧ n.notificationType = .refund then do
    reversePackagePaymentIntent id
    handleLifecycle env n (some (id, intent)) subscription
  else handleLifecycle env n (some (id, intent)) subscription

/-- `handle`, of a request whose signature is valid. -/
def handle (env : Env) (n : Notification) : Call HandleStatus :=
  if n.notificationType = .check then do
    handleCheck n.payload
    pure .processed
  else do
    let paymentIntent ← fromExcept (raise (← read fun db => resolvePaymentIntent n.payload db))
    let (subscription, blocked) ← read (resolveSubscription n.payload paymentIntent)
    match paymentIntent, subscription with
    | some (id, intent), _ => handleIntent env n id intent subscription
    | none, some _ => handleLifecycle env n none subscription
    | none, none =>
      if blocked then pure .ignored
      else throw (.thrown (.notFound
        "CloudPayments webhook does not match a PersAI billing subject."))

/-! ## What a notification does -/

theorem foldl_best_mem {ranked : List RankedIntent} {first : Option RankedIntent}
    {best : RankedIntent} (found : ranked.foldl (fun best entry => match best with
      | none => some entry
      | some best => if rankBefore entry.rank best.rank then some entry else some best) first =
        some best) : first = some best ∨ best ∈ ranked := by
  induction ranked generalizing first with
  | nil => exact .inl found
  | cons entry ranked ih =>
    rcases ih found with here | later
    · cases first with
      | none =>
        cases here
        exact .inr (List.mem_cons_self ..)
      | some former =>
        dsimp only at here
        split at here
        · cases here
          exact .inr (List.mem_cons_self ..)
        · exact .inl here
    · exact .inr (List.mem_cons_of_mem _ later)

/-- The intent of a notification is in the table. -/
theorem resolvePaymentIntent_found {payload : Payload} {db : Db} {id : String}
    {intent : PaymentIntent} (found : resolvePaymentIntent payload db = .ok (some (id, intent))) :
    db.paymentIntents.get? id = some intent := by
  unfold resolvePaymentIntent selectPaymentIntentMatch at found
  split at found
  · cases found
  · rename_i best selected
    split at found
    · cases found
    cases found
    have member := (foldl_best_mem selected).resolve_left (Option.some_ne_none best).symm
    obtain ⟨⟨id, intent⟩, row, ranked⟩ := List.mem_filterMap.mp member
    obtain ⟨rank, -, same⟩ := Option.map_eq_some_iff.mp ranked
    rw [← same]
    exact KeyedTable.get?_eq_some_iff.mpr row

section
variable {env : Env} {n : Notification} {db : Db}

/-- The tables after the status of the intent was updated. -/
def Db.notified (db : Db) (env : Env) (id : String) (read : PaymentIntent)
    (notificationType : NotificationType) (payload : Payload) : Db :=
  match resolveNextPaymentIntentStatus read notificationType payload with
  | none => db
  | some status => { db with
      paymentIntents := db.paymentIntents.update id fun row =>
        row.notified read env notificationType payload status }

theorem updatePaymentIntent_apply (id : String) (read : PaymentIntent)
    (notificationType : NotificationType) (payload : Payload) :
    updatePaymentIntent env id read notificationType payload db =
      (.ok (), db.notified env id read notificationType payload) := by
  unfold updatePaymentIntent Db.notified
  cases resolveNextPaymentIntentStatus read notificationType payload <;> rfl

theorem handleCheck_unchanged (payload : Payload) : (handleCheck payload db).2 = db := by
  have checked : Within Eq (handleCheck payload) := by
    unfold handleCheck
    refine within_bind (within_read _) fun resolved => ?_
    refine within_bind (within_fromExcept _) fun found => ?_
    split
    · refine within_bind (within_read _) fun resolution => ?_
      split
      · exact within_pure _
      · exact within_pure _
      · exact within_throw _
    · split
      · exact within_throw _
      · split
        · exact within_throw _
        · split
          · exact within_throw _
          · exact within_pure _
  exact (checked db).symm

/-- A subscription that is found is the one of the workspace. -/
theorem resolveSubscription_found {payload : Payload} {subscription : Subscription}
    (found : (resolveSubscription payload none db).1 = some subscription) :
    db.subscription = some subscription := by
  unfold resolveSubscription at found
  rw [if_neg (by simp)] at found
  split at found
  · split at found
    · rename_i matched
      cases found
      exact (Option.filter_eq_some_iff.mp matched).1
    · cases found
  · split at found
    · exact (Option.filter_eq_some_iff.mp found).1
    · cases found

section
variable (charge : n.notificationType ≠ .check)
include charge

theorem handle_of_error {e : BillingError}
    (resolved : resolvePaymentIntent n.payload db = .error e) :
    handle env n db = (.error (.thrown e), db) := by
  unfold handle
  rw [if_neg charge, read_bind_apply, resolved]
  rfl

theorem handle_of_intent {id : String} {intent : PaymentIntent}
    (resolved : resolvePaymentIntent n.payload db = .ok (some (id, intent))) :
    handle env n db = handleIntent env n id intent db.subscription db := by
  unfold handle
  rw [if_neg charge, read_bind_apply, resolved]
  rfl

/-- Without an intent, the subscription of the notification decides. -/
theorem handle_of_subscription (resolved : resolvePaymentIntent n.payload db = .ok none) :
    (handle env n db).2 = match (resolveSubscription n.payload none db).1 with
      | some subscription => (handleLifecycle env n none (some subscription) db).2
      | none => db := by
  unfold handle
  rw [if_neg charge, read_bind_apply, resolved, raise_ok_bind, read_bind_apply]
  match resolveSubscription n.payload none db with
  | (some subscription, blocked) => rfl
  | (none, true) => rfl
  | (none, false) => rfl

end

theorem handle_check (check : n.notificationType = .check) : (handle env n db).2 = db := by
  unfold handle
  rw [if_pos check]
  have unchanged := @handleCheck_unchanged db n.payload
  match outcome : handleCheck n.payload db with
  | (.ok (), db') => rw [outcome] at unchanged; rw [bind_of_ok outcome]; exact unchanged
  | (.error e, db') => rw [outcome] at unchanged; rw [bind_of_error outcome]; exact unchanged

/-- A notification changes nothing, or is handled with its intent, or without one with the
subscription. -/
theorem handle_cases : (handle env n db).2 = db ∨
    (∃ id intent, resolvePaymentIntent n.payload db = .ok (some (id, intent)) ∧
      (handle env n db).2 = (handleIntent env n id intent db.subscription db).2) ∨
    ∃ subscription, db.subscription = some subscription ∧
      (handle env n db).2 = (handleLifecycle env n none (some subscription) db).2 := by
  by_cases check : n.notificationType = .check
  · exact .inl (handle_check check)
  match resolved : resolvePaymentIntent n.payload db with
  | .error e => exact .inl (by rw [handle_of_error check resolved])
  | .ok (some (id, intent)) =>
    exact .inr (.inl ⟨id, intent, rfl, by rw [handle_of_intent check resolved]⟩)
  | .ok none =>
    have handled := @handle_of_subscription env n db check resolved
    cases found : (resolveSubscription n.payload none db).1 with
    | none => rw [found] at handled; exact .inl handled
    | some subscription =>
      rw [found] at handled
      exact .inr (.inr ⟨subscription, resolveSubscription_found found, handled⟩)

theorem handleLifecycle_of_none {intent : Option (String × PaymentIntent)}
    {subscription : Option Subscription}
    (derived : ∀ input, deriveLifecycleEvent env n intent subscription ≠ .ok (some input)) :
    (handleLifecycle env n intent subscription db).2 = db := by
  unfold handleLifecycle
  match event : deriveLifecycleEvent env n intent subscription with
  | .error e => rfl
  | .ok none => rfl
  | .ok (some input) => exact absurd event (derived input)

theorem syncInstruments_annotated (intent : Option (String × PaymentIntent))
    (eventCode : BillingEventCode) : Within Annotated
      (syncSubscriptionBillingInstrumentsAfterLifecycleApply env n intent eventCode) :=
  within_write fun db => annotated_updateInstruments db _

/-- The derived event is applied; where that goes through, the instruments follow. -/
theorem handleLifecycle_of_some {intent : Option (String × PaymentIntent)}
    {subscription : Option Subscription} {input : BillingEventInput}
    (derived : deriveLifecycleEvent env n intent subscription = .ok (some input)) :
    Annotated (apply env input db).2 (handleLifecycle env n intent subscription db).2 ∧
      ((apply env input db).1 ≠ .ok .applied →
        (handleLifecycle env n intent subscription db).2 = (apply env input db).2) := by
  unfold handleLifecycle
  rw [derived, raise_ok_bind]
  dsimp only
  match outcome : apply env input db with
  | (.error e, db') =>
    rw [bind_of_error outcome]
    exact ⟨Annotated.refl db', fun _ => rfl⟩
  | (.ok .applied, db') =>
    rw [bind_of_ok outcome]
    have synced := @syncInstruments_annotated env n intent input.eventCode db'
    exact ⟨synced, fun other => absurd rfl other⟩
  | (.ok .duplicate, db') =>
    rw [bind_of_ok outcome]
    exact ⟨Annotated.refl db', fun _ => rfl⟩
  | (.ok .ignored, db') =>
    rw [bind_of_ok outcome]
    exact ⟨Annotated.refl db', fun _ => rfl⟩

end

end Persai.Billing
