import Persai.Billing.PaidPeriods
import Persai.Billing.Webhook

/-!
# Package payments and the subscription

What the notifications of a package do to the subscription of the workspace. A charge that
goes through fulfills the package, which reads the subscription where it grants anything. A
refund goes on as the refund of a payment for the plan would.

* `package_frame`: which notifications of a package leave the subscription as it was, and what
  the others do to it.
-/

namespace Persai.Billing

open Program TxM

/-! ## The subscription as it was -/

/-- The subscription is as it was, but for the columns on payment instruments. -/
def SameSubscription (db db' : Db) : Prop :=
  db'.subscription.map Subscription.core = db.subscription.map Subscription.core

theorem SameSubscription.of_eq {db db' : Db} (same : db'.subscription = db.subscription) :
    SameSubscription db db' := by rw [SameSubscription, same]

theorem SameSubscription.trans {db db' db'' : Db} (first : SameSubscription db db')
    (second : SameSubscription db' db'') : SameSubscription db db'' :=
  Eq.trans second first

instance : Trans SameSubscription SameSubscription SameSubscription := ⟨SameSubscription.trans⟩

theorem Annotated.sameSubscription {db db' : Db} (annotated : Annotated db db') :
    SameSubscription db db' := annotated.subscription

/-- The subscription was moved to the fallback of its paid plan. -/
def MovedToFallback (env : Env) (db db' : Db) : Prop :=
  ∃ s s', db.subscription = some s ∧ db'.subscription = some s' ∧ s'.status = .expiredFallback ∧
    resolvePaidFallbackPlanCode env s.planCode = .ok s'.planCode

theorem SameSubscription.row {db db' : Db} (same : SameSubscription db db') {s : Subscription}
    (row : db.subscription = some s) : ∃ s', db'.subscription = some s' ∧ s'.core = s.core := by
  unfold SameSubscription at same
  rw [row, Option.map_some] at same
  obtain ⟨s', row', core⟩ := Option.map_eq_some_iff.mp same
  exact ⟨s', row', core⟩

/-- What leaves the subscription as it was may come before and after. -/
theorem MovedToFallback.between {env : Env} {db db₁ db₂ db₃ : Db}
    (before : SameSubscription db db₁) (moved : MovedToFallback env db₁ db₂)
    (after : SameSubscription db₂ db₃) : MovedToFallback env db db₃ := by
  obtain ⟨s₁, s₂, row₁, row₂, fallen, planCode⟩ := moved
  have back : SameSubscription db₁ db := Eq.symm before
  obtain ⟨s, row, core⟩ := back.row row₁
  obtain ⟨s₃, row₃, core'⟩ := after.row row₂
  have samePlan : s.planCode = s₁.planCode := (congrArg Subscription.planCode core :)
  have samePlan' : s₃.planCode = s₂.planCode := (congrArg Subscription.planCode core' :)
  have sameStatus : s₃.status = s₂.status := (congrArg Subscription.status core' :)
  exact ⟨s, s₃, row, row₃, sameStatus.trans fallen, by rw [samePlan, samePlan', planCode]⟩

section
variable {env : Env} {n : Notification} {db : Db}

theorem notified_sameSubscription (id : String) (read : PaymentIntent)
    (notificationType : NotificationType) (payload : Payload) :
    SameSubscription db (db.notified env id read notificationType payload) := by
  unfold Db.notified
  split <;> exact SameSubscription.of_eq rfl

/-! ## Packages -/

theorem fulfillItems_subscription (id currency : String) (period : Int × Int)
    (items : List PackageItem) :
    (transaction (fulfillItems id currency period items) db).2.subscription =
      db.subscription := by
  rcases @fulfillItems_cases db id currency period items with
    same | ⟨packageGrants, granted⟩ | ⟨ledger, packageGrants, -, credited⟩
  · rw [same]
  · rw [granted]
  · rw [credited]

/-- The package has items that are granted, not credited. -/
def Db.GrantsOf (db : Db) (id : String) : Prop :=
  ∃ row items, db.paymentIntents.get? id = some row ∧ row.readPackageItems = .ok items ∧
    items.all PackageItem.isVideo = false

theorem fulfillPackagePaymentIntent_subscription (cause : Cause) (id : String) :
    (fulfillPackagePaymentIntent env cause id db).2.subscription = db.subscription ∨
      db.GrantsOf id ∧ (fulfillPackagePaymentIntent env cause id db).2.subscription =
        (resolveEffectiveSubscription env cause db).2.subscription := by
  unfold fulfillPackagePaymentIntent
  rcases @findPaymentIntent_apply db id with ⟨row, found, read⟩ | ⟨e, failed⟩
  · rw [bind_of_ok read]
    split
    · exact .inl rfl
    match items_read : row.readPackageItems with
    | .error e => exact .inl rfl
    | .ok items =>
      rw [raise_ok_bind]
      unfold subscriptionOfGrants
      cases videos : items.all PackageItem.isVideo with
      | true =>
        rw [if_pos rfl]
        exact .inl (fulfillItems_subscription id _ _ items)
      | false =>
        rw [if_neg Bool.false_ne_true, bind_apply]
        refine .inr ⟨⟨row, items, found, items_read, videos⟩, ?_⟩
        match resolveEffectiveSubscription env cause db with
        | (.ok subscription, db') => exact fulfillItems_subscription id _ _ items
        | (.error e, db') => rfl
  · rw [bind_of_error failed]
    exact .inl rfl

/-- Fulfilling a package leaves the subscription as it is, or as reading it does. -/
theorem fulfillPackage_subscription (id : String) (intent : PaymentIntent) :
    (fulfillPackage env id intent db).2.subscription = db.subscription ∨
      db.GrantsOf id ∧ (fulfillPackage env id intent db).2.subscription =
        (resolveEffectiveSubscription env { userId := intent.userId } db).2.subscription := by
  unfold fulfillPackage
  rw [read_bind_apply]
  split
  · exact .inl rfl
  cases payer : intent.userId with
  | none => exact .inl rfl
  | some userId =>
    have fulfilled := @fulfillPackagePaymentIntent_subscription env db { userId := some userId } id
    dsimp only
    rw [bind_apply]
    match outcome : fulfillPackagePaymentIntent env { userId := some userId } id db with
    | (.ok (), db') => rw [outcome] at fulfilled; exact fulfilled
    | (.error e, db') => rw [outcome] at fulfilled; exact fulfilled

theorem reversePackagePaymentIntent_subscription (id : String) :
    (reversePackagePaymentIntent id db).2.subscription = db.subscription := by
  unfold reversePackagePaymentIntent
  rcases @findPaymentIntent_apply db id with ⟨row, found, read⟩ | ⟨e, failed⟩
  · rw [bind_of_ok read]
    match row.readPackageItems with
    | .error e => rfl
    | .ok items =>
      rw [raise_ok_bind]
      split
      · rfl
      rcases @reverseItems_cases db id (videoVcTotal items) with same | ⟨ledger, -, reversed⟩
      · rw [same]
      · rw [reversed]
  · rw [bind_of_error failed]

/-! ## Events of packages -/

theorem paidTransition_planCode {input : BillingEventInput} {event : PaidEvent}
    {current : Option Subscription} {transition : PaidTransition}
    (ok : input.paidTransition event current = .ok transition) :
    normalizeOptionalString input.paidPlanCode = some transition.paidPlanCode := by
  obtain ⟨paidPlanCode, required, ok⟩ := except_bind_ok.mp ok
  obtain ⟨startedAt, -, ok⟩ := except_bind_ok.mp ok
  obtain ⟨endsAt, -, ok⟩ := except_bind_ok.mp ok
  cases ok
  unfold BillingEventInput.requireString at required
  split at required
  · rename_i stated
    cases required
    exact stated
  · cases required

/-- A paid event of a plan that is not active writes nothing to the subscription. -/
theorem apply_of_inactive {input : BillingEventInput} {planCode : String}
    (stated : normalizeOptionalString input.paidPlanCode = some planCode)
    (inactive : (env.plan planCode).any Plan.active = false) {event : PaidEvent}
    (paid : input.paidEvent = some event) : SameSubscription db (apply env input db).2 := by
  apply apply_within Annotated.sameSubscription
  intro ref db'
  have isPaid : (input.withManagedRef ref).paidEvent = some event := paid
  rw [applyToLifecycle_paid isPaid, applyPaidEvent]
  cases ok : (input.withManagedRef ref).paidTransition event db.subscription with
  | error e => exact SameSubscription.of_eq rfl
  | ok transition =>
    have handedPlan := paidTransition_planCode ok
    have planned : normalizeOptionalString input.paidPlanCode = some transition.paidPlanCode :=
      handedPlan
    have rejected : ¬ ∃ plan period, transition.Accepted env plan period := by
      rintro ⟨plan, period, found, active, -⟩
      rw [← Option.some.inj (stated.symm.trans planned)] at found
      rw [found, Option.any_some, active] at inactive
      cases inactive
    obtain ⟨e, outcome⟩ := @PaidTransition.applyActivePaidTransition_of_rejected env
      (input.withManagedRef ref).cause transition db' rejected
    rw [raise_ok_bind, outcome]
    exact SameSubscription.of_eq rfl

theorem applyImmediatePaidFallback_subscription (cause : Cause) :
    SameSubscription db (applyImmediatePaidFallback env cause db).2 ∨
      MovedToFallback env db (applyImmediatePaidFallback env cause db).2 := by
  have outcome := @transition_cases env cause .always (fun current =>
    (resolvePaidFallbackPlanCode env current.planCode).map fun fallbackPlanCode =>
      some (current.fallback env fallbackPlanCode [
        ("lifecycleReason", .text "payment_reversed"),
        ("previousPaidPlanCode", .text current.planCode),
        ("fallbackPlanCode", .text fallbackPlanCode),
        ("reversedAt", .date env.now),
        ("pendingPlanChange", .null)], [.paymentReversed, .fallbackApplied])) db
  rcases outcome with same | ⟨current, updated, eventCodes, row, decided, after⟩
  · exact .inl (SameSubscription.of_eq (congrArg Db.subscription same))
  · obtain ⟨planCode, resolved, written⟩ := map_ok.mp decided
    cases written
    have afterwards : (applyImmediatePaidFallback env cause db).2 = _ := after
    exact .inr ⟨current, _, row, by rw [afterwards]; rfl, rfl, resolved⟩

/-- A reversed payment moves the subscription to the fallback, if it does anything. -/
theorem apply_reversed {input : BillingEventInput} (reversed : input.eventCode = .paymentReversed) :
    SameSubscription db (apply env input db).2 ∨ MovedToFallback env db (apply env input db).2 := by
  have applied := @apply_handedOn env input db
  generalize handed : input.handed env db = lifecycleInput at applied
  cases applied with
  | annotates annotated => exact .inl annotated.sameSubscription
  | @applies _ db' before after =>
    obtain ⟨ref, rfl⟩ := handed_eq handed
    have code : (input.withManagedRef ref).eventCode = .paymentReversed := reversed
    unfold applyToLifecycle at after
    rw [code] at after
    cases row : db.subscription with
    | none =>
      rw [row] at after
      exact .inl (before.sameSubscription.trans after.sameSubscription)
    | some current =>
      rw [row] at after
      rcases @applyImmediatePaidFallback_subscription env db' (input.withManagedRef ref).cause with
        same | moved
      · exact .inl ((before.sameSubscription.trans same).trans after.sameSubscription)
      · exact .inr (MovedToFallback.between before.sameSubscription moved after.sameSubscription)

/-! ## Notifications of packages -/

theorem activationCode_paid {notificationType : NotificationType}
    {intent : Option (String × PaymentIntent)} {subscription : Option Subscription}
    {input : BillingEventInput}
    (code : input.eventCode = activationCode notificationType intent subscription) :
    input.paidEvent ≠ none := by
  have three : activationCode notificationType intent subscription = .paymentRecovered ∨
      activationCode notificationType intent subscription = .renewalSucceeded ∨
      activationCode notificationType intent subscription = .paymentActivated := by
    unfold activationCode
    dsimp only
    split
    · split
      · exact .inl rfl
      · exact .inr (.inl rfl)
    · exact .inr (.inr rfl)
  unfold BillingEventInput.paidEvent
  rcases three with recovered | renewed | activated
  · rw [code, recovered]
    exact nofun
  · rw [code, renewed]
    exact nofun
  · rw [code, activated]
    exact nofun

section
variable {id : String} {intent : PaymentIntent}

/-- A charge of a package that is taken for one of a plan is for the plan of its intent. -/
theorem deriveActivation_package (package : intent.isPackage = true)
    (subscription : Option Subscription) :
    ∃ input, deriveActivation env n (some (id, intent)) subscription = .ok (some input) ∧
      input.paidPlanCode = some intent.targetPlanCode ∧ input.paidEvent ≠ none := by
  have purpose : activationPurpose (some (id, intent)) = "media_package_purchase" :=
    of_decide_eq_true package
  unfold deriveActivation
  rw [purpose]
  dsimp only
  rw [if_neg (by decide)]
  exact ⟨_, rfl, rfl, activationCode_paid rfl⟩

/-- What is not the charge of a package nor its refund only updates the intent and goes on to
the lifecycle. -/
theorem handleIntent_of_lifecycle (unpaid : n.paysPackage intent = false)
    (not_refund : n.notificationType ≠ .refund) (subscription : Option Subscription) :
    handleIntent env n id intent subscription db =
      handleLifecycle env n (some (id, intent)) subscription
        (db.notified env id intent n.notificationType n.payload) := by
  unfold handleIntent
  rw [bind_of_ok (updatePaymentIntent_apply id intent n.notificationType n.payload), unpaid,
    if_neg Bool.false_ne_true, if_neg fun refund => not_refund refund.2]

/-- An update keeps the items of the intent. -/
theorem notified_readPackageItems (found : db.paymentIntents.get? id = some intent)
    {row : PaymentIntent} (updated : (db.notified env id intent n.notificationType
      n.payload).paymentIntents.get? id = some row) :
    row.readPackageItems = intent.readPackageItems := by
  unfold Db.notified at updated
  split at updated
  · rw [found] at updated
    cases updated
    rfl
  · rw [KeyedTable.get?_update_self, found] at updated
    cases updated
    rfl

end

end

/-! ## The frame -/

/-- An intent as a purchase of packages creates it. -/
structure PaymentIntent.IsPackagePurchase (intent : PaymentIntent) : Prop where
  purpose : intent.isPackage = true
  targetPlanCode : intent.targetPlanCode = packageIntentPlanSentinel
  action : intent.action = .newPurchase

/-- What the notification of a package leaves of the subscription. -/
structure PackageFrame (env : Env) (n : Notification) (id : String) (intent : PaymentIntent)
    (db db' : Db) : Prop where
  /-- Nothing is charged yet, or the charge failed. -/
  uncharged : n.notificationType = .check ∨ n.notificationType = .fail ∨
    (n.notificationType = .pay ∧ n.payload.authorized = true) → SameSubscription db db'
  /-- It is taken for the charge of a plan, which there is not. -/
  planless : n.notificationType = .recurrent ∨
      (n.notificationType = .confirm ∧ n.payload.authorized = true) →
    (env.plan packageIntentPlanSentinel).any Plan.active = false → SameSubscription db db'
  /-- It is paid and only credits the wallet. -/
  credited : n.paysPackage intent = true →
    (∀ items, intent.readPackageItems = .ok items → items.all PackageItem.isVideo = true) →
    SameSubscription db db'
  /-- It is paid while nothing has fallen due of the subscription. -/
  settled : n.paysPackage intent = true → ∀ s, db.subscription = some s →
    dueTransition env s = none → SameSubscription db db'
  /-- It is paid, and the subscription is at most as a read leaves it. -/
  fulfilled : n.paysPackage intent = true → SameSubscription db db' ∨
    db'.subscription = (resolveEffectiveSubscription env { userId := intent.userId }
      (db.notified env id intent n.notificationType n.payload)).2.subscription
  /-- It is refunded as a payment for the plan would be. -/
  refunded : n.notificationType = .refund → SameSubscription db db' ∨ MovedToFallback env db db'

section
variable {env : Env} {n : Notification} {db : Db} {id : String} {intent : PaymentIntent}

theorem handleIntent_uncharged (package : intent.IsPackagePurchase)
    (uncharged : n.notificationType = .fail ∨
      (n.notificationType = .pay ∧ n.payload.authorized = true)) :
    SameSubscription db (handleIntent env n id intent db.subscription db).2 := by
  have unpaid : n.paysPackage intent = false := by
    unfold Notification.paysPackage
    rcases uncharged with failed | ⟨paid, authorized⟩
    · simp [failed]
    · simp [authorized]
  have not_refund : n.notificationType ≠ .refund := by
    rcases uncharged with failed | ⟨paid, authorized⟩
    · simp [failed]
    · simp [paid]
  have nothing : ∀ input, deriveLifecycleEvent env n (some (id, intent)) db.subscription ≠
      .ok (some input) := by
    intro input
    unfold deriveLifecycleEvent
    rcases uncharged with failed | ⟨paid, authorized⟩
    · rw [failed]
      simp [package.action]
    · rw [paid, authorized]
      simp
  rw [handleIntent_of_lifecycle unpaid not_refund, handleLifecycle_of_none nothing]
  exact notified_sameSubscription _ _ _ _

theorem handleIntent_planless (package : intent.IsPackagePurchase)
    (charge : n.notificationType = .recurrent ∨
      (n.notificationType = .confirm ∧ n.payload.authorized = true))
    (planless : (env.plan packageIntentPlanSentinel).any Plan.active = false) :
    SameSubscription db (handleIntent env n id intent db.subscription db).2 := by
  have unpaid : n.paysPackage intent = false := by
    unfold Notification.paysPackage
    rcases charge with recurrent | ⟨confirmed, authorized⟩
    · simp [recurrent]
    · simp [authorized]
  have not_refund : n.notificationType ≠ .refund := by
    rcases charge with recurrent | ⟨confirmed, authorized⟩
    · simp [recurrent]
    · simp [confirmed]
  have activation : deriveLifecycleEvent env n (some (id, intent)) db.subscription =
      deriveActivation env n (some (id, intent)) db.subscription := by
    unfold deriveLifecycleEvent
    rcases charge with recurrent | ⟨confirmed, authorized⟩
    · rw [recurrent]
      rfl
    · rw [confirmed]
      rfl
  obtain ⟨input, derived, planCode, paid⟩ :=
    @deriveActivation_package env n id intent package.purpose db.subscription
  obtain ⟨event, paid⟩ := Option.ne_none_iff_exists'.mp paid
  have stated : normalizeOptionalString input.paidPlanCode = some packageIntentPlanSentinel := by
    rw [planCode, package.targetPlanCode]
    decide
  rw [handleIntent_of_lifecycle unpaid not_refund]
  have applied := @handleLifecycle_of_some env n
    (db.notified env id intent n.notificationType n.payload) _ _ _ (activation.trans derived)
  have same := @notified_sameSubscription env db id intent n.notificationType n.payload
  exact (same.trans (apply_of_inactive stated planless paid)).trans applied.1.sameSubscription

theorem handleIntent_fulfilled (paid : n.paysPackage intent = true)
    (found : db.paymentIntents.get? id = some intent) :
    SameSubscription db (handleIntent env n id intent db.subscription db).2 ∨
      (∃ items, intent.readPackageItems = .ok items ∧ items.all PackageItem.isVideo = false) ∧
      (handleIntent env n id intent db.subscription db).2.subscription =
        (resolveEffectiveSubscription env { userId := intent.userId }
          (db.notified env id intent n.notificationType n.payload)).2.subscription := by
  have same := @notified_sameSubscription env db id intent n.notificationType n.payload
  unfold handleIntent
  rw [bind_of_ok (updatePaymentIntent_apply id intent n.notificationType n.payload), if_pos paid]
  rcases @fulfillPackage_subscription env
      (db.notified env id intent n.notificationType n.payload) id intent with
    kept | ⟨⟨row, items, updated, read, grants⟩, outcome⟩
  · exact .inl (same.trans (SameSubscription.of_eq kept))
  · rw [notified_readPackageItems found updated] at read
    exact .inr ⟨⟨items, read, grants⟩, outcome⟩

theorem handleIntent_refunded (package : intent.IsPackagePurchase)
    (refund : n.notificationType = .refund) :
    SameSubscription db (handleIntent env n id intent db.subscription db).2 ∨
      MovedToFallback env db (handleIntent env n id intent db.subscription db).2 := by
  have same := @notified_sameSubscription env db id intent n.notificationType n.payload
  have unpaid : n.paysPackage intent ≠ true := by
    unfold Notification.paysPackage
    simp [refund]
  unfold handleIntent
  rw [bind_of_ok (updatePaymentIntent_apply id intent n.notificationType n.payload),
    if_neg unpaid, if_pos ⟨package.purpose, refund⟩, bind_apply]
  have kept := @reversePackagePaymentIntent_subscription
    (db.notified env id intent n.notificationType n.payload) id
  match reversed : reversePackagePaymentIntent id
      (db.notified env id intent n.notificationType n.payload) with
  | (.error e, db') =>
    rw [reversed] at kept
    exact .inl (same.trans (SameSubscription.of_eq kept))
  | (.ok (), db') =>
    rw [reversed] at kept
    have before := same.trans (SameSubscription.of_eq kept)
    obtain ⟨input, derived, code⟩ : ∃ input,
        deriveLifecycleEvent env n (some (id, intent)) db.subscription = .ok (some input) ∧
          input.eventCode = .paymentReversed := by
      unfold deriveLifecycleEvent
      rw [refund]
      exact ⟨_, rfl, rfl⟩
    have applied := (@handleLifecycle_of_some env n db' _ _ _ derived).1.sameSubscription
    rcases @apply_reversed env db' input code with untouched | moved
    · exact .inl ((before.trans untouched).trans applied)
    · exact .inr (MovedToFallback.between before moved applied)

/-- A package leaves the subscription as it was while it is not charged, where it only credits
the wallet, and where nothing is due; a read for its grants may settle what is due, and a refund
falls back as that of a plan does. A cancellation is not among these. -/
theorem package_frame (env : Env) (n : Notification) (db : Db) (id : String)
    (intent : PaymentIntent)
    (matched : resolvePaymentIntent n.payload db = .ok (some (id, intent)))
    (package : intent.IsPackagePurchase) :
    PackageFrame env n id intent db (handle env n db).2 := by
  have found := resolvePaymentIntent_found matched
  have handled (charge : n.notificationType ≠ .check) :
      handle env n db = handleIntent env n id intent db.subscription db :=
    handle_of_intent charge matched
  have paidFor (paid : n.paysPackage intent = true) : n.notificationType ≠ .check := by
    intro check
    unfold Notification.paysPackage at paid
    simp [check] at paid
  refine ⟨?_, ?_, ?_, ?_, ?_, ?_⟩
  · rintro (check | failed | authorized)
    · rw [handle_check check]
      exact SameSubscription.of_eq rfl
    · rw [handled (by simp [failed])]
      exact handleIntent_uncharged package (.inl failed)
    · rw [handled (by simp [authorized])]
      exact handleIntent_uncharged package (.inr authorized)
  · intro charge planless
    rw [handled (by rcases charge with recurrent | confirmed <;> simp [*])]
    exact handleIntent_planless package charge planless
  · intro paid videos
    rw [handled (paidFor paid)]
    rcases @handleIntent_fulfilled env n db id intent paid found with
      same | ⟨⟨items, read, grants⟩, -⟩
    · exact same
    · rw [videos items read] at grants
      cases grants
  · intro paid s row nothingDue
    rw [handled (paidFor paid)]
    rcases @handleIntent_fulfilled env n db id intent paid found with same | ⟨-, outcome⟩
    · exact same
    · have updated : (db.notified env id intent n.notificationType n.payload).subscription =
          some s := by
        unfold Db.notified
        split <;> exact row
      rw [resolveEffectiveSubscription_of_settled updated nothingDue] at outcome
      exact SameSubscription.of_eq (outcome.trans (updated.trans row.symm))
  · intro paid
    rw [handled (paidFor paid)]
    exact (@handleIntent_fulfilled env n db id intent paid found).imp_right And.right
  · intro refund
    rw [handled (by simp [refund])]
    exact handleIntent_refunded package refund

end

/-- Of all packages: their notifications leave the subscription as it was. -/
def KeepsSubscription (env : Env) (n : Notification) (db : Db) : Prop :=
  ∀ id intent, resolvePaymentIntent n.payload db = .ok (some (id, intent)) →
    intent.isPackage = true → SameSubscription db (handle env n db).2

/-- The purchase of 50 Vcoin for videos. -/
def vcoinPackage : PaymentIntent where
  userId := some "user_1"
  targetPlanCode := packageIntentPlanSentinel
  action := .newPurchase
  status := .checkoutReady
  paymentMethodClass := .card
  amountMinor := 29900
  currency := "RUB"
  billingPeriod := .month
  metadata := {
    purpose := some "media_package_purchase"
    packageItems := some [⟨"item_1", .videoGenerate, 50, 29900⟩] }

/-- A workspace with a paid plan that buys it. -/
def buysPackage : Db :=
  { firstMonth with paymentIntents := ⟨[("pi_2", vcoinPackage)], by simp⟩ }

def packagePaid : Notification where
  notificationType := .pay
  payload := { transactionId := some "601", status := some "Completed"
               paymentIntentId := some "pi_2" }
  digest := "d4"

def packageRefunded : Notification where
  notificationType := .refund
  payload := { transactionId := some "602", originalTransactionId := some "601"
               paymentIntentId := some "pi_2" }
  digest := "e5"

theorem package_frame_paid :
    SameSubscription buysPackage (handle (proEnv 5) packagePaid buysPackage).2 :=
  (package_frame (proEnv 5) packagePaid buysPackage "pi_2" vcoinPackage rfl
    ⟨by decide, rfl, rfl⟩).settled (by decide) _ rfl (by decide)

/-- A refund of the package cancels the paid plan. -/
theorem packageRefunded_falls_back :
    ¬ KeepsSubscription (proEnv 5) packageRefunded buysPackage := by
  intro keeps
  have same := keeps "pi_2" vcoinPackage rfl (by decide)
  have fallen : (handle (proEnv 5) packageRefunded buysPackage).2.subscription.map
      Subscription.status = some .expiredFallback := by rfl
  obtain ⟨s', row, core⟩ := same.row (s := _) rfl
  have status := congrArg Subscription.status core
  rw [row, Option.map_some, Option.some.injEq] at fallen
  cases fallen.symm.trans status

end Persai.Billing
