import Persai.Billing.Lifecycle

/-!
# Paid periods

`applyActivePaidTransition` writes the paid period and credits its monthly grant in one
transaction. A grant that is already in the ledger aborts the transaction without failing
it: the call returns, and nothing of it was written.

* `applyActivePaidTransition_granted`, `.._ungranted`, `.._alreadyGranted`: how an accepted
  transition ends;
* `keepsSubscriptionWrite_iff`: when a call that returns has written the subscription.
-/

namespace Persai.Billing

open Program TxM

/-- The events that start a paid period. -/
inductive PaidEvent where
  | paymentRecovered | paymentActivated | renewalSucceeded
  deriving DecidableEq, Repr

def PaidEvent.code : PaidEvent → LifecycleEventCode
  | .paymentRecovered => .paymentRecovered
  | .paymentActivated => .paymentActivated
  | .renewalSucceeded => .renewalSucceeded

def PaidEvent.text : PaidEvent → String
  | .paymentRecovered => "payment_recovered"
  | .paymentActivated => "payment_activated"
  | .renewalSucceeded => "renewal_succeeded"

structure PaidTransition where
  paidPlanCode : String
  currentPeriodStartedAt : DateText
  currentPeriodEndsAt : DateText
  billingProvider : Option String := none
  providerCustomerRef : Option String := none
  providerSubscriptionRef : Option String := none
  event : PaidEvent
  deriving DecidableEq, Repr

structure PaidPeriod where
  startedAt : Int
  endsAt : Int
  deriving DecidableEq, Repr

def parseActivePaidPeriod (currentPeriodStartedAt currentPeriodEndsAt : DateText) :
    Except BillingError PaidPeriod :=
  match currentPeriodStartedAt.getTime, currentPeriodEndsAt.getTime with
  | some startedAt, some endsAt =>
    if endsAt ≤ startedAt then
      .error (.badRequest "Recovery period end must be after period start.")
    else .ok ⟨startedAt, endsAt⟩
  | _, _ => .error (.badRequest "Recovery period dates must be valid ISO datetimes.")

def shouldClearPendingPlanChangeAfterPaidTransition
    (pendingPlanChange : Option PendingPlanChange) (currentPlanCode nextPlanCode : String)
    (nextPeriodStartedAt : Int) : Bool :=
  match pendingPlanChange with
  | none => false
  | some pending =>
    if pending.targetPlanCode = nextPlanCode ∨ currentPlanCode ≠ nextPlanCode then true
    else match pending.effectiveAt.getTime with
      | none => true
      | some effectiveAt => effectiveAt ≤ nextPeriodStartedAt

namespace PaidTransition

/-- The metadata that every paid transition writes. -/
def patch (input : PaidTransition) (env : Env) (period : PaidPeriod) : Metadata := [
  ("schema", .text "persai.subscriptionLifecycle.v1"),
  ("lifecycleState", .text "active_paid"),
  ("lifecycleReason", .text input.event.text),
  ("paidPlanCode", .text input.paidPlanCode),
  ("currentPeriodStartedAt", .date period.startedAt),
  ("currentPeriodEndsAt", .date period.endsAt),
  ("transitionedAt", .date env.now)]

/-- The row that the transition creates, or makes of the one there is. -/
def row (input : PaidTransition) (env : Env) (period : PaidPeriod) :
    Option Subscription → Subscription
  | none => {
      planCode := input.paidPlanCode
      status := .active
      currentPeriodStartedAt := some period.startedAt
      currentPeriodEndsAt := some period.endsAt
      billingProvider := input.billingProvider
      providerCustomerRef := input.providerCustomerRef
      providerSubscriptionRef := input.providerSubscriptionRef
      metadata := input.patch env period }
  | some current => { current with
      planCode := input.paidPlanCode
      status := .active
      trialStartedAt := none
      trialEndsAt := none
      graceStartedAt := none
      graceEndsAt := none
      currentPeriodStartedAt := some period.startedAt
      currentPeriodEndsAt := some period.endsAt
      cancelAtPeriodEnd := false
      billingProvider := input.billingProvider.or current.billingProvider
      providerCustomerRef := input.providerCustomerRef.or current.providerCustomerRef
      providerSubscriptionRef := input.providerSubscriptionRef.or current.providerSubscriptionRef
      metadata := mergeMetadata current.metadata (input.patch env period ++
        if shouldClearPendingPlanChangeAfterPaidTransition
            (readPendingPlanChange current.metadata) current.planCode input.paidPlanCode
            period.startedAt then [("pendingPlanChange", .null)] else []) }

end PaidTransition

def applyActivePaidTransition (env : Env) (cause : Cause) (input : PaidTransition) :
    Call Unit := do
  fromExcept (raise (assertPaidPlanIsActive env input.paidPlanCode))
  let period ← fromExcept (raise (parseActivePaidPeriod input.currentPeriodStartedAt
    input.currentPeriodEndsAt))
  let _ ← transaction do
    let current ← query Db.subscription
    update fun db => db.record cause [input.event.code] current (input.row env period current)
    creditPeriod env input.paidPlanCode period.startedAt
  announce env

namespace PaidTransition

/-- The plan and the period that a transition gets past its checks with. -/
def Accepted (input : PaidTransition) (env : Env) (plan : Plan) (period : PaidPeriod) : Prop :=
  env.plan input.paidPlanCode = some plan ∧ plan.active = true ∧
    parseActivePaidPeriod input.currentPeriodStartedAt input.currentPeriodEndsAt = .ok period

/-- The tables after the subscription's part of the transition. -/
def written (input : PaidTransition) (env : Env) (cause : Cause) (period : PaidPeriod)
    (db : Db) : Db :=
  db.record cause [input.event.code] db.subscription (input.row env period db.subscription)

section
variable {env : Env} {cause : Cause} {input : PaidTransition} {db : Db}

theorem assertPaidPlanIsActive_ok {paidPlanCode : String} :
    assertPaidPlanIsActive env paidPlanCode = .ok () ↔
      ∃ plan, env.plan paidPlanCode = some plan ∧ plan.active = true := by
  unfold assertPaidPlanIsActive
  cases env.plan paidPlanCode with
  | none => simp
  | some plan => cases active : plan.active <;> simp [active]

/-- What is not accepted is an error and changes nothing. -/
theorem applyActivePaidTransition_of_rejected
    (rejected : ¬ ∃ plan period, input.Accepted env plan period) :
    ∃ e, applyActivePaidTransition env cause input db = (.error e, db) := by
  unfold applyActivePaidTransition
  match asserted : assertPaidPlanIsActive env input.paidPlanCode with
  | .error e => exact ⟨.thrown e, rfl⟩
  | .ok () =>
    obtain ⟨plan, found, active⟩ := assertPaidPlanIsActive_ok.mp asserted
    match parsed : parseActivePaidPeriod input.currentPeriodStartedAt
        input.currentPeriodEndsAt with
    | .error e => exact ⟨.thrown e, rfl⟩
    | .ok period => exact absurd ⟨plan, period, found, active, parsed⟩ rejected

theorem applyActivePaidTransition_of_accepted {plan : Plan} {period : PaidPeriod}
    (accepted : input.Accepted env plan period) :
    applyActivePaidTransition env cause input db =
      (do
        let _ ← transaction do
          let current ← query Db.subscription
          update fun db => db.record cause [input.event.code] current (input.row env period current)
          creditPeriod env input.paidPlanCode period.startedAt
        announce env : Call Unit) db := by
  obtain ⟨found, active, parsed⟩ := accepted
  unfold applyActivePaidTransition
  rw [assertPaidPlanIsActive_ok.mpr ⟨plan, found, active⟩, parsed]
  rfl

/-- A plan without a grant: the period is written. -/
theorem applyActivePaidTransition_ungranted {plan : Plan} {period : PaidPeriod}
    (accepted : input.Accepted env plan period) (ungranted : plan.monthlyGrant = 0) :
    applyActivePaidTransition env cause input db =
      (raise env.rollout, (input.written env cause period db).withWallet) := by
  rw [applyActivePaidTransition_of_accepted accepted]
  apply bind_of_ok
  apply transaction_ok.mpr
  have body : creditPeriod env input.paidPlanCode period.startedAt
      ⟨db, input.written env cause period db, false⟩ = _ :=
    creditPeriod_of_zero accepted.1 ungranted
  exact ⟨_, body, rfl⟩

/-- The grant is new: the period is written and the grant credited. -/
theorem applyActivePaidTransition_granted {plan : Plan} {period : PaidPeriod}
    {ledger : KeyedTable (LedgerKind × ReferenceKey) LedgerEvent}
    (accepted : input.Accepted env plan period) (granted : plan.monthlyGrant ≠ 0)
    (free : db.ledger.create (.monthlyGrant, .period period.startedAt)
      ⟨plan.monthlyGrant, some input.paidPlanCode⟩ = some ledger) :
    applyActivePaidTransition env cause input db =
      (raise env.rollout, { input.written env cause period db with
        ledger, wallet := some (db.balanceVc + plan.monthlyGrant) }) := by
  rw [applyActivePaidTransition_of_accepted accepted]
  apply bind_of_ok
  apply transaction_ok.mpr
  have body : creditPeriod env input.paidPlanCode period.startedAt
      ⟨db, input.written env cause period db, false⟩ = _ :=
    creditPeriod_of_free accepted.1 granted free
  exact ⟨_, body, rfl⟩

/-- The grant is in the ledger: the transaction is rolled back, and the call goes on. -/
theorem applyActivePaidTransition_alreadyGranted {plan : Plan} {period : PaidPeriod}
    (accepted : input.Accepted env plan period) (granted : plan.monthlyGrant ≠ 0)
    (used : db.ledger.create (.monthlyGrant, .period period.startedAt)
      ⟨plan.monthlyGrant, some input.paidPlanCode⟩ = none) :
    applyActivePaidTransition env cause input db = (raise env.rollout, db.withWallet) := by
  rw [applyActivePaidTransition_of_accepted accepted]
  apply bind_of_ok
  apply transaction_ok.mpr
  have body : creditPeriod env input.paidPlanCode period.startedAt
      ⟨db, input.written env cause period db, false⟩ = _ :=
    creditPeriod_of_used accepted.1 granted used
  exact ⟨_, body, rfl⟩

end

/-! ## What a transition writes -/

/-- The period that the transition starts: it is accepted, and its plan grants nothing or the
grant of the period is not in the ledger. -/
def startedPeriod (input : PaidTransition) (env : Env) (db : Db) : Option PaidPeriod :=
  match env.plan input.paidPlanCode,
      parseActivePaidPeriod input.currentPeriodStartedAt input.currentPeriodEndsAt with
  | some plan, .ok period =>
    if plan.active ∧ (plan.monthlyGrant = 0 ∨
        db.ledger.get? (.monthlyGrant, .period period.startedAt) = none) then some period
    else none
  | _, _ => none

theorem startedPeriod_eq_some {env : Env} {input : PaidTransition} {db : Db}
    {period : PaidPeriod} :
    input.startedPeriod env db = some period ↔ ∃ plan, input.Accepted env plan period ∧
      (plan.monthlyGrant = 0 ∨
        db.ledger.get? (.monthlyGrant, .period period.startedAt) = none) := by
  unfold startedPeriod Accepted
  constructor
  · intro started
    split at started
    · rename_i plan period' found parsed
      split at started
      · rename_i accepted
        cases started
        exact ⟨plan, ⟨found, accepted.1, parsed⟩, accepted.2⟩
      · cases started
    · cases started
  · rintro ⟨plan, ⟨found, active, parsed⟩, anew⟩
    rw [found, parsed]
    dsimp only
    rw [if_pos ⟨active, anew⟩]

section
variable {env : Env} {cause : Cause} {input : PaidTransition} {db : Db}

/-- A transition that starts a period writes its row and one event, and credits the grant. -/
theorem applyActivePaidTransition_started {period : PaidPeriod}
    (started : input.startedPeriod env db = some period) :
    ∃ plan, input.Accepted env plan period ∧
      (applyActivePaidTransition env cause input db).1 = raise env.rollout ∧
      ((plan.monthlyGrant = 0 ∧ (applyActivePaidTransition env cause input db).2 =
          (input.written env cause period db).withWallet) ∨
        (plan.monthlyGrant ≠ 0 ∧ ∃ ledger,
          db.ledger.create (.monthlyGrant, .period period.startedAt)
            ⟨plan.monthlyGrant, some input.paidPlanCode⟩ = some ledger ∧
          (applyActivePaidTransition env cause input db).2 =
            { input.written env cause period db with
              ledger, wallet := some (db.balanceVc + plan.monthlyGrant) })) := by
  obtain ⟨plan, accepted, anew⟩ := startedPeriod_eq_some.mp started
  refine ⟨plan, accepted, ?_⟩
  by_cases ungranted : plan.monthlyGrant = 0
  · rw [applyActivePaidTransition_ungranted accepted ungranted]
    exact ⟨rfl, .inl ⟨ungranted, rfl⟩⟩
  · have free := anew.resolve_left ungranted
    cases created : db.ledger.create (.monthlyGrant, .period period.startedAt)
        ⟨plan.monthlyGrant, some input.paidPlanCode⟩ with
    | some ledger =>
      rw [applyActivePaidTransition_granted accepted ungranted created]
      exact ⟨rfl, .inr ⟨ungranted, ledger, rfl, rfl⟩⟩
    | none =>
      rw [KeyedTable.create_eq_none_iff, free] at created
      cases created

/-- A transition that starts none writes nothing but the row of the wallet. -/
theorem applyActivePaidTransition_not_started (none_started : input.startedPeriod env db = none) :
    (applyActivePaidTransition env cause input db).2 = db ∨
      (applyActivePaidTransition env cause input db).2 = db.withWallet := by
  by_cases accepted : ∃ plan period, input.Accepted env plan period
  · obtain ⟨plan, period, accepted⟩ := accepted
    have stale : ¬ (plan.monthlyGrant = 0 ∨
        db.ledger.get? (.monthlyGrant, .period period.startedAt) = none) := by
      intro anew
      rw [startedPeriod_eq_some.mpr ⟨plan, accepted, anew⟩] at none_started
      cases none_started
    rw [not_or] at stale
    have used : db.ledger.create (.monthlyGrant, .period period.startedAt)
        ⟨plan.monthlyGrant, some input.paidPlanCode⟩ = none :=
      KeyedTable.create_eq_none_iff.mpr (Option.isSome_iff_ne_none.mpr stale.2)
    right
    rw [applyActivePaidTransition_alreadyGranted accepted stale.1 used]
  · obtain ⟨e, outcome⟩ :=
      @applyActivePaidTransition_of_rejected env cause input db accepted
    left
    rw [outcome]

/-- The subscription after a transition. -/
theorem applyActivePaidTransition_subscription :
    (applyActivePaidTransition env cause input db).2.subscription =
      match input.startedPeriod env db with
      | some period => some (input.row env period db.subscription)
      | none => db.subscription := by
  match started : input.startedPeriod env db with
  | some period =>
    obtain ⟨plan, -, -, ⟨-, outcome⟩ | ⟨-, ledger, -, outcome⟩⟩ :=
      @applyActivePaidTransition_started env cause input db period started
    · rw [outcome]
      rfl
    · rw [outcome]
      rfl
  | none =>
    rcases @applyActivePaidTransition_not_started env cause input db started with outcome | outcome
    · rw [outcome]
    · rw [outcome]
      rfl

end

/-! ## What a call that returns has written -/

/-- The row and its lifecycle event are in the tables. -/
def Committed (input : PaidTransition) (env : Env) (cause : Cause) (db db' : Db) : Prop :=
  ∃ period, parseActivePaidPeriod input.currentPeriodStartedAt input.currentPeriodEndsAt =
      .ok period ∧
    db'.subscription = some (input.row env period db.subscription) ∧
    db'.lifecycleEvents = db.lifecycleEvents ++
      [lifecycleEvent cause input.event.code db.subscription
        (input.row env period db.subscription)]

/-- If the call returns normally, its subscription update is committed. -/
def KeepsSubscriptionWrite (input : PaidTransition) (env : Env) (cause : Cause) (db : Db) :
    Prop :=
  (applyActivePaidTransition env cause input db).1 = .ok () →
    input.Committed env cause db (applyActivePaidTransition env cause input db).2

/-- Where nothing stops the call, its plan grants nothing or the grant of the period is not
in the ledger. -/
def GrantsAnew (input : PaidTransition) (env : Env) (db : Db) : Prop :=
  ∀ plan period, input.Accepted env plan period → env.rollout = .ok () →
    plan.monthlyGrant = 0 ∨ db.ledger.get? (.monthlyGrant, .period period.startedAt) = none

section
variable {env : Env} {cause : Cause} {input : PaidTransition} {db : Db}

theorem committed_written {plan : Plan} {period : PaidPeriod}
    (accepted : input.Accepted env plan period) {db' : Db}
    (row : db'.subscription = (input.written env cause period db).subscription)
    (events : db'.lifecycleEvents = (input.written env cause period db).lifecycleEvents) :
    input.Committed env cause db db' :=
  ⟨period, accepted.2.2, row, events⟩

theorem not_committed_of_lifecycleEvents {db' : Db}
    (same : db'.lifecycleEvents = db.lifecycleEvents) : ¬ input.Committed env cause db db' := by
  rintro ⟨period, -, -, appended⟩
  rw [same] at appended
  have longer := congrArg List.length appended
  rw [List.length_append, List.length_singleton] at longer
  omega

end

/-- A call that returns keeps its subscription update, for every state of the ledger, just
where the grant is new or nothing is granted. -/
theorem keepsSubscriptionWrite_iff (env : Env) (cause : Cause) (input : PaidTransition)
    (db : Db) : input.KeepsSubscriptionWrite env cause db ↔ input.GrantsAnew env db := by
  constructor
  · intro keeps plan period accepted rollout
    by_cases granted : plan.monthlyGrant = 0
    · exact .inl granted
    right
    cases used : db.ledger.create (.monthlyGrant, .period period.startedAt)
        ⟨plan.monthlyGrant, some input.paidPlanCode⟩ with
    | some ledger => exact (KeyedTable.create_eq_some_iff.mp used).1
    | none =>
      have outcome := @applyActivePaidTransition_alreadyGranted env cause input db plan period
        accepted granted used
      have returned : (applyActivePaidTransition env cause input db).1 = .ok () := by
        rw [outcome]
        exact raise_ok.mpr rollout
      have committed := keeps returned
      rw [outcome] at committed
      exact absurd committed (not_committed_of_lifecycleEvents rfl)
  · intro anew returned
    by_cases accepted : ∃ plan period, input.Accepted env plan period
    · obtain ⟨plan, period, accepted⟩ := accepted
      by_cases granted : plan.monthlyGrant = 0
      · rw [applyActivePaidTransition_ungranted accepted granted]
        exact committed_written accepted rfl rfl
      · cases used : db.ledger.create (.monthlyGrant, .period period.startedAt)
            ⟨plan.monthlyGrant, some input.paidPlanCode⟩ with
        | some ledger =>
          rw [applyActivePaidTransition_granted accepted granted used]
          exact committed_written accepted rfl rfl
        | none =>
          rw [applyActivePaidTransition_alreadyGranted accepted granted used] at returned
          have free := (anew plan period accepted (raise_ok.mp returned)).resolve_left granted
          rw [KeyedTable.create_eq_none_iff, free] at used
          cases used
    · obtain ⟨e, outcome⟩ :=
        @applyActivePaidTransition_of_rejected env cause input db accepted
      rw [outcome] at returned
      cases returned

end PaidTransition

/-- A plan of 100 Vcoin a month and the plan that workspaces fall back to, at `now`. -/
def proEnv (now : Int) : Env where
  now := now
  plan code :=
    if code = "pro" then
      some { code := "pro", active := true, videoVcoinMonthlyGrant := .integer 100 }
    else if code = "free" then some { code := "free", active := true } else none
  settings := { globalFallbackPlanCode := some "free" }

/-- A workspace that was activated on the plan and granted its first month, without a
recurring subscription at the provider. -/
def firstMonth : Db where
  subscription := some { planCode := "pro", status := .active, currentPeriodStartedAt := some 0,
                         currentPeriodEndsAt := some 2678400000 }
  wallet := some 100
  ledger := ⟨[((.monthlyGrant, .period 0), ⟨100, some "pro"⟩)], by simp⟩

/-- A second notification of that payment, which brings the recurring subscription. -/
def bindsRecurring : PaidTransition where
  paidPlanCode := "pro"
  currentPeriodStartedAt := .iso 0
  currentPeriodEndsAt := .iso 2678400000
  providerSubscriptionRef := some "sc_1"
  event := .renewalSucceeded

/-- It returns normally and the reference of the recurring subscription is lost. -/
theorem loses_providerSubscriptionRef :
    ¬ bindsRecurring.KeepsSubscriptionWrite (proEnv 0) {} firstMonth := by
  intro keeps
  have returned :
      (applyActivePaidTransition (proEnv 0) {} bindsRecurring firstMonth).1 = .ok () := by
    rfl
  have unchanged : (applyActivePaidTransition (proEnv 0) {} bindsRecurring
      firstMonth).2.lifecycleEvents = firstMonth.lifecycleEvents := by
    rfl
  exact PaidTransition.not_committed_of_lifecycleEvents unchanged (keeps returned)

end Persai.Billing
