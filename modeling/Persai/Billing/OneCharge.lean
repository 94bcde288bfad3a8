import Persai.Billing.PaidPeriods
import Persai.Billing.Webhook

/-!
# One charge and its notifications

The provider tells of one charge in several notifications, each with a body and a time of its
own. An event is known again by the digest of its body, and a grant by the start of its
period, which is the time of the notification.

* `handle_charged`: the paid period that a notification starts, and its grant;
* `chargedOnce_iff`: the runs of notifications that start one period and grant once.
-/

namespace Persai.Billing

open Program TxM Runs

/-! ## Paid periods and grants in the tables -/

/-- The paid periods that were started, in order. -/
def Db.startedPeriods (db : Db) : List (Option Int × Option Int) :=
  (db.lifecycleEvents.filter LifecycleEvent.isPaid).map fun e =>
    (e.nextPeriodStartedAt, e.nextPeriodEndsAt)

/-- The keys of the monthly grants, in order. -/
def Db.monthlyGrants (db : Db) : List (LedgerKind × ReferenceKey) :=
  (db.ledger.rows.map Prod.fst).filter fun key => key.1 = .monthlyGrant

def PaidPeriod.columns (period : PaidPeriod) : Option Int × Option Int :=
  (some period.startedAt, some period.endsAt)

def PaidPeriod.grantKey (period : PaidPeriod) : LedgerKind × ReferenceKey :=
  (.monthlyGrant, .period period.startedAt)

/-- The periods are started, with at most their grants. -/
structure Charged (periods : List PaidPeriod) (db db' : Db) : Prop where
  started : db'.startedPeriods = db.startedPeriods ++ periods.map PaidPeriod.columns
  granted : ∃ granted : List PaidPeriod, granted.Sublist periods ∧
    db'.monthlyGrants = db.monthlyGrants ++ granted.map PaidPeriod.grantKey

section
variable {db db' db'' : Db}

theorem Charged.trans {periods periods' : List PaidPeriod} (first : Charged periods db db')
    (second : Charged periods' db' db'') : Charged (periods ++ periods') db db'' where
  started := by rw [second.started, first.started, List.map_append, List.append_assoc]
  granted := by
    obtain ⟨granted, sublist, appended⟩ := first.granted
    obtain ⟨granted', sublist', appended'⟩ := second.granted
    refine ⟨granted ++ granted', sublist.append sublist', ?_⟩
    rw [appended', appended, List.map_append, List.append_assoc]

/-- Neither a paid period nor a grant. -/
theorem charged_nil_of_same (events : db'.lifecycleEvents = db.lifecycleEvents)
    (grants : db'.monthlyGrants = db.monthlyGrants) : Charged [] db db' where
  started := by rw [Db.startedPeriods, events, List.map_nil, List.append_nil]; rfl
  granted := ⟨[], List.nil_sublist _, by rw [grants, List.map_nil, List.append_nil]⟩

theorem Charged.nothing (db : Db) : Charged [] db db := charged_nil_of_same rfl rfl

instance : Std.Refl (Charged []) := ⟨Charged.nothing⟩

instance : Trans (Charged []) (Charged []) (Charged []) := ⟨Charged.trans⟩

theorem Charged.after {periods : List PaidPeriod} (first : Charged [] db db')
    (second : Charged periods db' db'') : Charged periods db db'' := first.trans second

theorem Charged.before {periods : List PaidPeriod} (first : Charged periods db db')
    (second : Charged [] db' db'') : Charged periods db db'' := by
  rw [← List.append_nil periods]
  exact first.trans second

/-- Lifecycle events that are not about a paid period. -/
theorem charged_nil_of_unpaid {others : List LifecycleEvent}
    (appended : db'.lifecycleEvents = db.lifecycleEvents ++ others)
    (unpaid : others.all fun e => !e.isPaid) (grants : db'.monthlyGrants = db.monthlyGrants) :
    Charged [] db db' where
  started := by
    have none_paid : others.filter LifecycleEvent.isPaid = [] := by
      rw [List.filter_eq_nil_iff]
      intro e member
      have here := List.all_eq_true.mp unpaid e member
      simpa using here
    rw [Db.startedPeriods, appended, List.filter_append, none_paid, List.append_nil, List.map_nil,
      List.append_nil]
    rfl
  granted := ⟨[], List.nil_sublist _, by rw [grants, List.map_nil, List.append_nil]⟩

theorem StartsNone.charged (starts : StartsNone db db') : Charged [] db db' := by
  obtain ⟨others, appended, unpaid⟩ := starts.events
  apply charged_nil_of_unpaid appended unpaid
  rw [Db.monthlyGrants, starts.ledger]
  rfl

theorem StartsPeriod.charged {period : PaidPeriod} (starts : StartsPeriod period db db') :
    Charged [period] db db' where
  started := by
    obtain ⟨e, appended, paid, startedAt, endsAt⟩ := starts.events
    rw [Db.startedPeriods, appended, List.filter_append, List.map_append]
    simp [Db.startedPeriods, paid, startedAt, endsAt, PaidPeriod.columns]
  granted := by
    unfold Db.monthlyGrants
    rcases starts.ledger with same | ⟨entry, appended⟩
    · exact ⟨[], List.nil_sublist _, by simp [same]⟩
    · exact ⟨[period], List.Sublist.refl _, by simp [appended, PaidPeriod.grantKey]⟩

/-- What follows adds nothing. -/
theorem charged_bind {α β : Type} {x : Call α} {f : α → Call β} {periods : List PaidPeriod}
    (first : Charged periods db (x db).2) (rest : ∀ a, Within (Charged []) (f a)) :
    Charged periods db ((x >>= f) db).2 := by
  rw [bind_apply]
  match outcome : x db with
  | (.ok a, db') => rw [outcome] at first; exact first.before (rest a db')
  | (.error e, db') => rw [outcome] at first; exact first

theorem charged_tryCatch {α : Type} {x : Call α} {handler : Fault BillingError → Call α}
    {periods : List PaidPeriod} (body : Charged periods db (x db).2)
    (handled : ∀ e, Within (Charged []) (handler e)) :
    Charged periods db ((tryCatch x handler) db).2 := by
  rw [tryCatch_apply]
  match outcome : x db with
  | (.ok a, db') => rw [outcome] at body; exact body
  | (.error e, db') => rw [outcome] at body; exact body.before (handled e db')

end

/-! ## Reading the subscription -/

/-- The period that `tryProviderManagedOverdueReconcile` starts. -/
def reconcilePeriod (env : Env) (subscription : Subscription) (db : Db) : Option PaidPeriod :=
  match subscription.currentPeriodEndsAt, env.getManagedSubscription with
  | some endsAt, some snapshot =>
    match snapshot.nextChargeAt.bind DateText.getTime with
    | some nextChargeAt =>
      if snapshot.status = "active" ∧ endsAt < nextChargeAt then
        (reconciliation subscription endsAt nextChargeAt).startedPeriod env db
      else none
    | none => none
  | _, _ => none

/-- The period that a read of the subscription starts, where it is overdue and the provider has
charged it. -/
def reconciledPeriod (env : Env) (db : Db) : Option PaidPeriod :=
  db.subscription.bind fun s =>
    if dueTransition env s = some .overdue ∧ s.providerSubscriptionRef.isSome then
      reconcilePeriod env s db
    else none

section
variable {env : Env} {cause : Cause} {db : Db}

theorem applyActivePaidTransition_charged (input : PaidTransition) :
    Charged (input.startedPeriod env db).toList db
      (applyActivePaidTransition env cause input db).2 := by
  cases started : input.startedPeriod env db with
  | some period => exact (applyActivePaidTransition_startsPeriod started).charged
  | none => exact (applyActivePaidTransition_startsNone started).charged

/-- A transition to a status other than the active one. -/
theorem transition_unpaid {announcement : Announcement} {decide : Subscription → Decision}
    (leaves : ∀ current updated eventCodes, decide current = .ok (some (updated, eventCodes)) →
      (∀ previous, (eventCodes.map fun code => lifecycleEvent cause code previous updated).all
        fun e => !e.isPaid) ∧ updated.status ≠ .active) :
    Within (Charged []) (transition env cause announcement decide) := by
  intro db
  apply StartsNone.charged
  apply transition_startsNone
  intro current updated eventCodes decided
  obtain ⟨unpaid, inactive⟩ := leaves current updated eventCodes decided
  exact ⟨unpaid, fun active => absurd active inactive⟩

theorem applyCancelledPaidPeriodEndFallback_unpaid :
    Within (Charged []) (applyCancelledPaidPeriodEndFallback env cause) := by
  apply transition_unpaid
  intro current updated eventCodes decided
  split at decided
  · cases decided
  split at decided
  · cases decided
  obtain ⟨planCode, -, written⟩ := map_ok.mp decided
  cases written
  exact ⟨fun _ => rfl, nofun⟩

theorem expireGrace_unpaid : Within (Charged []) (expireGrace env cause) := by
  apply transition_unpaid
  intro current updated eventCodes decided
  split at decided
  · cases decided
  split at decided
  · cases decided
  obtain ⟨planCode, -, written⟩ := map_ok.mp decided
  cases written
  exact ⟨fun _ => rfl, nofun⟩

theorem startPaidGrace_unpaid (override : Option String) :
    Within (Charged []) (startPaidGrace env cause override) :=
  fun _ => (startPaidGrace_startsNone override).charged

theorem applyExpiredTrialFallback_unpaid (subscription : Subscription) :
    Within (Charged []) (applyExpiredTrialFallback env cause subscription) := by
  unfold applyExpiredTrialFallback
  refine within_bind (within_fromExcept _) fun planCode => ?_
  refine within_bind (within_write fun db => ?_) fun _ => within_fromExcept _
  exact charged_nil_of_unpaid rfl rfl rfl

theorem createInitialWorkspaceSubscription_unpaid (defaultPlan : Plan) :
    Within (Charged []) (createInitialWorkspaceSubscription env cause defaultPlan) := by
  unfold createInitialWorkspaceSubscription
  split
  · exact within_throw _
  refine within_bind (within_fromExcept _) fun policy => ?_
  refine within_bind (within_write fun db => ?_) fun _ => within_fromExcept _
  refine charged_nil_of_unpaid rfl ?_ rfl
  split <;> rfl

theorem tryProviderManagedOverdueReconcile_charged (subscription : Subscription) :
    Charged (reconcilePeriod env subscription db).toList db
      (tryProviderManagedOverdueReconcile env cause subscription db).2 := by
  have canceled : Within (Charged []) (do
      applyCancelledPaidPeriodEndFallback env cause
      refreshed subscription : Call (Option Subscription)) :=
    within_bind applyCancelledPaidPeriodEndFallback_unpaid fun _ => within_read _
  have maybe_canceled (snapshot : ProviderSnapshot) : Within (Charged []) (
      if snapshot.status = "cancelled" ∨ snapshot.status = "canceled" then do
        applyCancelledPaidPeriodEndFallback env cause
        refreshed subscription
      else pure none : Call (Option Subscription)) := by
    split
    · exact canceled
    · exact within_pure _
  unfold tryProviderManagedOverdueReconcile reconcilePeriod
  match subscription.currentPeriodEndsAt, env.getManagedSubscription with
  | none, _ => exact Charged.nothing db
  | some endsAt, none => exact Charged.nothing db
  | some endsAt, some snapshot =>
    dsimp only
    cases snapshot.nextChargeAt.bind DateText.getTime with
    | none => exact maybe_canceled snapshot db
    | some nextChargeAt =>
      dsimp only
      by_cases charged : snapshot.status = "active" ∧ endsAt < nextChargeAt
      · rw [if_pos charged, if_pos charged]
        exact charged_bind (applyActivePaidTransition_charged _) fun _ => within_read _
      · rw [if_neg charged, if_neg charged]
        exact maybe_canceled snapshot db

/-- A read in which the provider is not asked starts no paid period. -/
theorem resolveWorkspaceSubscription_unpaid {subscription : Subscription}
    (settled : ¬ (dueTransition env subscription = some .overdue ∧
      subscription.providerSubscriptionRef.isSome)) :
    Within (Charged []) (resolveWorkspaceSubscription env cause subscription) := by
  apply resolveWorkspaceSubscription_within
  · exact applyCancelledPaidPeriodEndFallback_unpaid
  · exact fun overdue managed => absurd ⟨overdue, managed⟩ settled
  · exact startPaidGrace_unpaid none
  · exact applyExpiredTrialFallback_unpaid subscription
  · exact fun _ => expireGrace_unpaid

/-- Of an overdue subscription the provider is asked first; what it settles is all. -/
theorem resolveWorkspaceSubscription_overdue {subscription : Subscription}
    (overdue : dueTransition env subscription = some .overdue)
    (managed : subscription.providerSubscriptionRef.isSome) :
    Charged (reconcilePeriod env subscription db).toList db
      (resolveWorkspaceSubscription env cause subscription db).2 := by
  have reconciled := @tryProviderManagedOverdueReconcile_charged env cause db subscription
  unfold resolveWorkspaceSubscription
  rw [overdue]
  dsimp only
  rw [if_pos managed]
  apply charged_tryCatch
  · apply charged_bind reconciled
    intro reconciled
    cases reconciled with
    | some row => exact within_pure _
    | none => exact within_bind (startPaidGrace_unpaid _) fun _ => within_read _
  · exact fun _ => within_pure _

theorem resolveEffectiveSubscription_charged :
    Charged (reconciledPeriod env db).toList db (resolveEffectiveSubscription env cause db).2 := by
  unfold resolveEffectiveSubscription reconciledPeriod
  rw [read_bind_apply]
  cases row : db.subscription with
  | some subscription =>
    rw [Option.bind_some]
    by_cases asked : dueTransition env subscription = some .overdue ∧
        subscription.providerSubscriptionRef.isSome
    · rw [if_pos asked]
      exact resolveWorkspaceSubscription_overdue asked.1 asked.2
    · rw [if_neg asked]
      exact resolveWorkspaceSubscription_unpaid asked db
  | none =>
    rw [Option.bind_none, Option.toList_none]
    cases env.findDefaultRegistrationPlan with
    | some defaultPlan =>
      exact within_bind (createInitialWorkspaceSubscription_unpaid defaultPlan)
        (fun _ => within_read Db.subscription) db
    | none => exact within_pure none db

end

/-! ## Fulfilling a package -/

/-- The period that fulfilling a package starts: the subscription is read for the period of its
grants. -/
def fulfillmentPeriod (env : Env) (id : String) (intent : PaymentIntent) (db : Db) :
    Option PaidPeriod :=
  if 0 < db.packageGrants.count (fun key _ => key.1 = id) ∨ intent.userId = none then none
  else match db.paymentIntents.get? id with
    | none => none
    | some row =>
      if row.targetPlanCode ≠ packageIntentPlanSentinel then none
      else match row.readPackageItems with
        | .error _ => none
        | .ok items => if items.all PackageItem.isVideo then none else reconciledPeriod env db

section
variable {env : Env} {cause : Cause} {db : Db}

theorem fulfillItems_unpaid (id currency : String) (period : Int × Int)
    (items : List PackageItem) :
    Within (Charged []) (transaction (fulfillItems id currency period items)) := by
  intro db
  rcases @fulfillItems_cases db id currency period items with
    same | ⟨packageGrants, granted⟩ | ⟨ledger, packageGrants, created, credited⟩
  · rw [same]
    exact Charged.nothing db
  · rw [granted]
    exact charged_nil_of_same rfl rfl
  · have purchase : (db.ledger.rows ++ _).map Prod.fst = ledger.rows.map Prod.fst :=
      congrArg (List.map Prod.fst) (KeyedTable.create_eq_some_iff.mp created).2.symm
    rw [credited]
    refine charged_nil_of_same (by rfl) ?_
    unfold Db.monthlyGrants
    rw [← purchase]
    simp

/-- What a fulfillment that has found its items starts. -/
theorem subscriptionOfGrants_charged (items : List PackageItem) :
    Charged (if items.all PackageItem.isVideo then none else reconciledPeriod env db).toList db
      (subscriptionOfGrants env cause items db).2 := by
  unfold subscriptionOfGrants
  split
  · exact Charged.nothing db
  · exact resolveEffectiveSubscription_charged

theorem fulfillPackagePaymentIntent_charged (id : String) :
    Charged (match db.paymentIntents.get? id with
      | none => none
      | some row =>
        if row.targetPlanCode ≠ packageIntentPlanSentinel then none
        else match row.readPackageItems with
          | .error _ => none
          | .ok items =>
            if items.all PackageItem.isVideo then none else reconciledPeriod env db).toList db
      (fulfillPackagePaymentIntent env cause id db).2 := by
  unfold fulfillPackagePaymentIntent findPaymentIntent
  cases found : db.paymentIntents.get? id with
  | none =>
    rw [bind_of_error (by rw [read_bind_apply, found]; rfl)]
    exact Charged.nothing db
  | some row =>
    rw [bind_of_ok (by rw [read_bind_apply, found]; rfl)]
    dsimp only
    by_cases other : row.targetPlanCode ≠ packageIntentPlanSentinel
    · rw [if_pos other, if_pos other]
      exact Charged.nothing db
    · rw [if_neg other, if_neg other]
      match items_read : row.readPackageItems with
      | .error e => exact Charged.nothing db
      | .ok items =>
        rw [raise_ok_bind]
        exact charged_bind (subscriptionOfGrants_charged items)
          fun _ => fulfillItems_unpaid id _ _ items

theorem fulfillPackage_charged (id : String) (intent : PaymentIntent) :
    Charged (fulfillmentPeriod env id intent db).toList db
      (fulfillPackage env id intent db).2 := by
  unfold fulfillPackage fulfillmentPeriod
  rw [read_bind_apply]
  by_cases fulfilled : 0 < db.packageGrants.count fun key _ => key.1 = id
  · rw [if_pos fulfilled, if_pos (.inl fulfilled)]
    exact Charged.nothing db
  · rw [if_neg fulfilled]
    cases payer : intent.userId with
    | none =>
      rw [if_pos (.inr rfl)]
      exact Charged.nothing db
    | some userId =>
      rw [if_neg (by simp [fulfilled])]
      exact charged_bind (fulfillPackagePaymentIntent_charged id) fun _ => within_pure _

end

/-! ## Notifications -/

/-- The period that the derived event starts. -/
def lifecyclePeriod (env : Env) (n : Notification) (intent : Option (String × PaymentIntent))
    (subscription : Option Subscription) (db : Db) : Option PaidPeriod :=
  match deriveLifecycleEvent env n intent subscription with
  | .ok (some input) => input.startsPeriod env db
  | _ => none

/-- The period that handling the notification starts. -/
def Notification.startsPeriod (n : Notification) (env : Env) (db : Db) : Option PaidPeriod :=
  match resolvePaymentIntent n.payload db with
  | .error _ => none
  | .ok (some (id, intent)) =>
    let updated := db.notified env id intent n.notificationType n.payload
    if n.paysPackage intent then fulfillmentPeriod env id intent updated
    else lifecyclePeriod env n (some (id, intent)) db.subscription updated
  | .ok none =>
    match (resolveSubscription n.payload none db).1 with
    | some subscription => lifecyclePeriod env n none (some subscription) db
    | none => none

section
variable {env : Env} {n : Notification} {db : Db}

theorem apply_charged (input : BillingEventInput) :
    Charged (input.startsPeriod env db).toList db (apply env input db).2 := by
  cases starts : input.startsPeriod env db with
  | some period => exact (apply_startsPeriod starts).charged
  | none => exact (apply_startsNone starts).charged

theorem handleLifecycle_charged (intent : Option (String × PaymentIntent))
    (subscription : Option Subscription) :
    Charged (lifecyclePeriod env n intent subscription db).toList db
      (handleLifecycle env n intent subscription db).2 := by
  unfold lifecyclePeriod
  match derived : deriveLifecycleEvent env n intent subscription with
  | .ok (some input) =>
    have synced := (@handleLifecycle_of_some env n db intent subscription input derived).1
    exact (apply_charged input).before synced.startsNone.charged
  | .ok none =>
    rw [handleLifecycle_of_none fun input here => by rw [derived] at here; cases here]
    exact Charged.nothing db
  | .error e =>
    rw [handleLifecycle_of_none fun input here => by rw [derived] at here; cases here]
    exact Charged.nothing db

/-- The status of an intent is no charge. -/
theorem notified_unpaid (id : String) (read : PaymentIntent)
    (notificationType : NotificationType) (payload : Payload) :
    Charged [] db (db.notified env id read notificationType payload) := by
  unfold Db.notified
  split
  · exact Charged.nothing db
  · exact charged_nil_of_same rfl rfl

/-- A notification of a charge starts the period that it states once it gets past the checks,
and grants at most that one. -/
theorem handle_charged (charge : n.notificationType ≠ .check)
    (not_refund : n.notificationType ≠ .refund) :
    Charged (n.startsPeriod env db).toList db (handle env n db).2 := by
  unfold Notification.startsPeriod
  match resolved : resolvePaymentIntent n.payload db with
  | .error e =>
    rw [handle_of_error charge resolved]
    exact Charged.nothing db
  | .ok (some (id, intent)) =>
    rw [handle_of_intent charge resolved, handleIntent,
      bind_of_ok (updatePaymentIntent_apply id intent n.notificationType n.payload)]
    apply (notified_unpaid id intent n.notificationType n.payload).after
    dsimp only
    by_cases package : n.paysPackage intent = true
    · rw [if_pos package, if_pos package]
      exact fulfillPackage_charged id intent
    · rw [if_neg package, if_neg package, if_neg fun refund => not_refund refund.2]
      exact handleLifecycle_charged _ _
  | .ok none =>
    rw [handle_of_subscription charge resolved]
    cases (resolveSubscription n.payload none db).1 with
    | none => exact Charged.nothing db
    | some subscription => exact handleLifecycle_charged _ _

end

/-! ## Runs -/

/-- A notification that a charge went through. -/
structure ChargeNotification where
  env : Env
  notification : Notification
  charge : notification.notificationType = .pay ∨ notification.notificationType = .confirm ∨
    notification.notificationType = .recurrent

def chargeStep (db : Db) (e : ChargeNotification) : Db := (handle e.env e.notification db).2

def ChargeNotification.startsPeriod (e : ChargeNotification) (db : Db) : Option PaidPeriod :=
  e.notification.startsPeriod e.env db

/-- At most one paid period was started, and at most one month granted. -/
def ChargedOnce (db db' : Db) : Prop :=
  ∃ periods grants, db'.startedPeriods = db.startedPeriods ++ periods ∧
    db'.monthlyGrants = db.monthlyGrants ++ grants ∧
    (∀ p ∈ periods, ∀ q ∈ periods, p = q) ∧ grants.length ≤ 1

theorem chargeStep_charged (db : Db) (e : ChargeNotification) :
    Charged (e.startsPeriod db).toList db (chargeStep db e) := by
  have not_check : e.notification.notificationType ≠ .check := by
    intro check
    have charge := e.charge
    rw [check] at charge
    simp at charge
  have not_refund : e.notification.notificationType ≠ .refund := by
    intro refund
    have charge := e.charge
    rw [refund] at charge
    simp at charge
  exact handle_charged not_check not_refund

/-- The periods that a run starts, with at most their grants. -/
theorem run_charged (db : Db) (es : List ChargeNotification) :
    Charged (collect chargeStep (fun db e => (e.startsPeriod db).toList) db es) db
      (run chargeStep db es) := by
  induction es generalizing db with
  | nil => exact Charged.nothing db
  | cons e es ih => exact (chargeStep_charged db e).trans (ih _)

theorem PaidPeriod.columns_inj {p q : PaidPeriod} (same : p.columns = q.columns) : p = q := by
  obtain ⟨startedAt, endsAt⟩ := p
  obtain ⟨startedAt', endsAt'⟩ := q
  simp [PaidPeriod.columns] at same
  obtain ⟨rfl, rfl⟩ := same
  rfl

theorem length_le_one_of_nodup {α : Type} {xs : List α} {a : α} (nodup : xs.Nodup)
    (same : ∀ x ∈ xs, x = a) : xs.length ≤ 1 := by
  match xs, nodup, same with
  | [], _, _ => exact Nat.zero_le 1
  | [x], _, _ => exact Nat.le_refl 1
  | x :: y :: xs, nodup, same =>
    have first := same x (by simp)
    have second := same y (by simp)
    simp [first, second] at nodup

/-- A key is granted once, so what is granted of one period is one grant. -/
theorem chargedOnce_of_same {db db' : Db} {periods : List PaidPeriod} {period : PaidPeriod}
    (charged : Charged periods db db') (same : ∀ p ∈ periods, p = period) :
    ChargedOnce db db' := by
  obtain ⟨granted, sublist, appended⟩ := charged.granted
  refine ⟨_, _, charged.started, appended, ?_, ?_⟩
  · intro p first q second
    obtain ⟨p, member, rfl⟩ := List.mem_map.mp first
    obtain ⟨q, member', rfl⟩ := List.mem_map.mp second
    rw [same p member, same q member']
  · have nodup : db'.monthlyGrants.Nodup := db'.ledger.unique.filter _
    rw [appended, List.nodup_append] at nodup
    apply length_le_one_of_nodup nodup.2.1
    intro key member
    obtain ⟨p, isGranted, rfl⟩ := List.mem_map.mp member
    rw [same p (sublist.subset isGranted)]

theorem same_of_chargedOnce {db db' : Db} {periods : List PaidPeriod}
    (charged : Charged periods db db') (once : ChargedOnce db db') :
    ∃ period, ∀ p ∈ periods, p = period := by
  obtain ⟨started, -, appended, -, same, -⟩ := once
  have columns : started = periods.map PaidPeriod.columns :=
    List.append_cancel_left (appended.symm.trans charged.started)
  cases periods with
  | nil => exact ⟨⟨0, 0⟩, nofun⟩
  | cons period periods =>
    refine ⟨period, fun p member => PaidPeriod.columns_inj ?_⟩
    apply same
    · rw [columns]
      exact List.mem_map_of_mem member
    · rw [columns]
      exact List.mem_map_of_mem (List.mem_cons_self ..)

/-- The plan of 100 Vcoin a month, paid by the month. -/
def monthlyEnv (now : Int) : Env :=
  { proEnv now with
    plan := fun code => ((proEnv now).plan code).map fun plan =>
      { plan with billingPeriod := some .month } }

/-- Its second month is about to be charged by the provider. -/
def renewing : Db :=
  { firstMonth with
    subscription := firstMonth.subscription.map fun s =>
      { s with billingProvider := some "cloudpayments", providerSubscriptionRef := some "sc_1" } }

/-- The provider tells of the charge twice: of the payment, and a second later of the recurring
subscription, whose last transaction it is. -/
def oneRenewal : List ChargeNotification := [
  { env := monthlyEnv 2678401000
    notification := {
      notificationType := .pay
      payload := { transactionId := some "504", subscriptionId := some "sc_1"
                   status := some "Completed", dateTime := some (some 2678400000) }
      digest := "a1" }
    charge := .inl rfl },
  { env := monthlyEnv 2678402000
    notification := {
      notificationType := .recurrent
      payload := { subscriptionId := some "sc_1", status := some "Active"
                   lastTransactionDate := some (some 2678401000) }
      digest := "b2" }
    charge := .inr (.inr rfl) }]

end Persai.Billing
