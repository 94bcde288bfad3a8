import Persai.Billing.Effective

/-!
# Media packages and the wallet

`ManageMediaPackagePurchaseService`, and the debit that settles a delivered video. The items
of a package are a snapshot in its payment intent; those for videos are credited to the
wallet, the others are granted.

* `Recorded`, `Books`: the balance moves by what is recorded in the ledger;
* `fulfillPackagePaymentIntent_books`, `reversePackagePaymentIntent_books`: the books of a
  package, for every way in which its transaction can end.
-/

namespace Persai.Billing

open Program TxM

/-- `PACKAGE_INTENT_PLAN_SENTINEL`. -/
def packageIntentPlanSentinel : String := "__media_package__"

/-- The period of the subscription, or else the calendar month:
`resolveRecurringQuotaPeriod`. -/
def resolveRecurringQuotaPeriod (subscription : Option Subscription) (now : Int) : Int × Int :=
  let month := (MediaQuota.startOfUtcMonth now, MediaQuota.startOfNextUtcMonth now)
  match subscription.bind Subscription.currentPeriodStartedAt,
      subscription.bind Subscription.currentPeriodEndsAt with
  | some startedAt, some endsAt => if startedAt < endsAt then (startedAt, endsAt) else month
  | _, _ => month

def PackageItem.isVideo (item : PackageItem) : Bool := item.packageType = .videoGenerate

/-- The units of the video items together. -/
def videoVcTotal (items : List PackageItem) : Int :=
  ((items.filter PackageItem.isVideo).map PackageItem.units).sum

/-- The items of an intent, if there are any. -/
def PaymentIntent.readPackageItems (intent : PaymentIntent) :
    Except BillingError (List PackageItem) :=
  match intent.metadata.packageItems with
  | some (item :: items) => .ok (item :: items)
  | _ => .error (.badRequest "Payment intent has no package items in metadata.")

def findPaymentIntent (paymentIntentId : String) : Call PaymentIntent := do
  match ← read fun db => db.paymentIntents.get? paymentIntentId with
  | some intent => pure intent
  | none =>
    throw (.thrown (.notFound ("Payment intent \"" ++ paymentIntentId ++ "\" not found.")))

/-- The upserts of the grants, which keep a grant that is there. -/
def grantItems (paymentIntentId currency : String) (period : Int × Int) :
    List PackageItem → Statements Unit
  | [] => pure ()
  | item :: items => do
    update fun db => { db with
      packageGrants := db.packageGrants.upsert (paymentIntentId, item.catalogItemId)
        { toolCode := item.packageType
          grantedUnits := item.units
          amountMinorSnapshot := item.amountMinor
          currencySnapshot := currency
          periodStartedAt := period.1
          periodEndsAt := period.2 } id }
    grantItems paymentIntentId currency period items

/-- The credit of the video items, once for each intent. -/
def creditItems (paymentIntentId : String) (total : Int) : Statements Unit :=
  if 0 < total then do
    if ← recordEvent .packagePurchase total (.paymentIntent paymentIntentId) none then do
      let _ ← credit total
      pure ()
    else pure ()
  else pure ()

/-- The transaction of a fulfillment. -/
def fulfillItems (paymentIntentId currency : String) (period : Int × Int)
    (items : List PackageItem) : Statements Unit := do
  creditItems paymentIntentId (videoVcTotal items)
  grantItems paymentIntentId currency period (items.filter fun item => !item.isVideo)

/-- The subscription whose period the grants are for; it is read only where there are any. -/
def subscriptionOfGrants (env : Env) (cause : Cause) (items : List PackageItem) :
    Call (Option Subscription) :=
  if items.all PackageItem.isVideo then pure none else resolveEffectiveSubscription env cause

def fulfillPackagePaymentIntent (env : Env) (cause : Cause) (paymentIntentId : String) :
    Call Unit := do
  let intent ← findPaymentIntent paymentIntentId
  if intent.targetPlanCode ≠ packageIntentPlanSentinel then
    throw (.thrown (.badRequest "This payment intent is not a media package purchase."))
  else do
    let items ← fromExcept (raise intent.readPackageItems)
    let subscription ← subscriptionOfGrants env cause items
    transaction (fulfillItems paymentIntentId intent.currency
      (resolveRecurringQuotaPeriod subscription env.now) items)

/-- The transaction of a reversal. -/
def reverseItems (paymentIntentId : String) (total : Int) : Statements Unit := do
  if ← recordEvent .packageRefund (-total) (.paymentIntent paymentIntentId) none then do
    let _ ← debit total
    pure ()
  else pure ()

def reversePackagePaymentIntent (paymentIntentId : String) : Call Unit := do
  let intent ← findPaymentIntent paymentIntentId
  let items ← fromExcept (raise intent.readPackageItems)
  let total := videoVcTotal items
  if total = 0 then pure ()
  else transaction (reverseItems paymentIntentId total)

/-- The debit of `settleVideoGenerateWithVcoinDebit`. -/
def settleVideo (vcCost : Int) : Call BalanceChange := transaction (debit vcCost)

/-! ## The books -/

/-- What the ledger records in all. -/
def ledgerSum (rows : List ((LedgerKind × ReferenceKey) × LedgerEvent)) : Int :=
  (rows.map fun row => row.2.amountVc).sum

theorem ledgerSum_append (rows rows' : List ((LedgerKind × ReferenceKey) × LedgerEvent)) :
    ledgerSum (rows ++ rows') = ledgerSum rows + ledgerSum rows' := by
  unfold ledgerSum
  rw [List.map_append, List.sum_append]

/-- The video units of an intent with items. -/
def Db.videoTotal (db : Db) (paymentIntentId : String) : Option Int :=
  (db.paymentIntents.get? paymentIntentId).bind fun intent =>
    intent.readPackageItems.toOption.map videoVcTotal

/-- A purchase and a refund are recorded with the total of their intent. -/
def Db.Accounted (db : Db) (row : (LedgerKind × ReferenceKey) × LedgerEvent) : Prop :=
  match row.1 with
  | (.packagePurchase, .paymentIntent id) => db.videoTotal id = some row.2.amountVc
  | (.packageRefund, .paymentIntent id) => db.videoTotal id = some (-row.2.amountVc)
  | _ => True

/-- The balance moves by the rows that are recorded, and these are accounted for; the items
of the intents stay. -/
structure Recorded (db db' : Db) : Prop where
  recorded : ∃ recorded, db'.ledger.rows = db.ledger.rows ++ recorded ∧
    db'.balanceVc = db.balanceVc + ledgerSum recorded ∧ ∀ row ∈ recorded, db.Accounted row
  videoTotal : db'.videoTotal = db.videoTotal

/-- The books are kept, and the intents are not written. -/
structure Books (db db' : Db) : Prop extends Recorded db db' where
  paymentIntents : db'.paymentIntents = db.paymentIntents

theorem Db.Accounted.mono {db db' : Db}
    (keeps : ∀ id total, db.videoTotal id = some total → db'.videoTotal id = some total)
    {row : (LedgerKind × ReferenceKey) × LedgerEvent} (accounted : db.Accounted row) :
    db'.Accounted row := by
  unfold Db.Accounted at accounted ⊢
  split
  · rename_i id key
    rw [key] at accounted
    exact keeps id _ accounted
  · rename_i id key
    rw [key] at accounted
    exact keeps id _ accounted
  · trivial

theorem Recorded.trans {db db' db'' : Db} (first : Recorded db db')
    (second : Recorded db' db'') : Recorded db db'' := by
  obtain ⟨⟨recorded, appended, balance, accounted⟩, same⟩ := first
  obtain ⟨⟨recorded', appended', balance', accounted'⟩, same'⟩ := second
  refine ⟨⟨recorded ++ recorded', ?_, ?_, ?_⟩, same'.trans same⟩
  · rw [appended', appended, List.append_assoc]
  · rw [balance', balance, ledgerSum_append, Int.add_assoc]
  · intro row member
    rcases List.mem_append.mp member with former | later
    · exact accounted row former
    · exact (accounted' row later).mono fun id total found => by rw [← same, found]

theorem recorded_of_same {db db' : Db} (ledger : db'.ledger = db.ledger)
    (balance : db'.balanceVc = db.balanceVc) (videoTotal : db'.videoTotal = db.videoTotal) :
    Recorded db db' := by
  refine ⟨⟨[], ?_, ?_, by simp⟩, videoTotal⟩
  · rw [ledger, List.append_nil]
  · rw [balance]
    exact (Int.add_zero _).symm

theorem videoTotal_of_same {db db' : Db} (paymentIntents : db'.paymentIntents = db.paymentIntents) :
    db'.videoTotal = db.videoTotal := by
  unfold Db.videoTotal
  rw [paymentIntents]

theorem books_of_same {db db' : Db} (ledger : db'.ledger = db.ledger)
    (balance : db'.balanceVc = db.balanceVc)
    (paymentIntents : db'.paymentIntents = db.paymentIntents) : Books db db' :=
  ⟨recorded_of_same ledger balance (videoTotal_of_same paymentIntents), paymentIntents⟩

theorem Books.trans {db db' db'' : Db} (first : Books db db') (second : Books db' db'') :
    Books db db'' :=
  ⟨first.toRecorded.trans second.toRecorded, second.paymentIntents.trans first.paymentIntents⟩

instance : Std.Refl Books := ⟨fun _ => books_of_same rfl rfl rfl⟩

instance : Trans Books Books Books := ⟨Books.trans⟩

/-- A row that is recorded with its amount. -/
theorem books_of_recorded {db db' : Db} {k : LedgerKind × ReferenceKey} {entry : LedgerEvent}
    {ledger : KeyedTable (LedgerKind × ReferenceKey) LedgerEvent}
    (created : db.ledger.create k entry = some ledger) (accounted : db.Accounted (k, entry))
    (same : db'.ledger = ledger) (balance : db'.balanceVc = db.balanceVc + entry.amountVc)
    (paymentIntents : db'.paymentIntents = db.paymentIntents) : Books db db' := by
  refine ⟨⟨⟨[(k, entry)], ?_, ?_, ?_⟩, videoTotal_of_same paymentIntents⟩, paymentIntents⟩
  · rw [same, (KeyedTable.create_eq_some_iff.mp created).2]
  · rw [balance]
    simp [ledgerSum]
  · simpa using accounted

section
variable {db : Db}

theorem withWallet_books : Books db db.withWallet := books_of_same rfl rfl rfl

theorem transition_books {env : Env} {cause : Cause} {announcement : Announcement}
    {decide : Subscription → Decision} :
    Within Books (transition env cause announcement decide) := by
  intro db
  rcases @transition_cases env cause announcement decide db with
    same | ⟨current, updated, eventCodes, -, -, after⟩
  · rw [same]
    exact books_of_same rfl rfl rfl
  · rw [after]
    exact books_of_same rfl rfl rfl

theorem applyActivePaidTransition_books {env : Env} {cause : Cause} {input : PaidTransition} :
    Within Books (applyActivePaidTransition env cause input) := by
  intro db
  match started : input.startedPeriod env db with
  | some period =>
    obtain ⟨plan, -, -, ⟨-, outcome⟩ | ⟨-, ledger, created, outcome⟩⟩ :=
      @PaidTransition.applyActivePaidTransition_started env cause input db period started
    · rw [outcome]
      exact books_of_same rfl rfl rfl
    · rw [outcome]
      exact books_of_recorded created trivial rfl rfl rfl
  | none =>
    rcases @PaidTransition.applyActivePaidTransition_not_started env cause input db started with
      outcome | outcome
    · rw [outcome]
      exact books_of_same rfl rfl rfl
    · rw [outcome]
      exact withWallet_books

/-! ## Fulfillment and reversal -/

/-- The table with the grants of the items; a grant that is there stays. -/
def grantAll (paymentIntentId currency : String) (period : Int × Int)
    (grants : KeyedTable (String × String) PackageGrant) :
    List PackageItem → KeyedTable (String × String) PackageGrant
  | [] => grants
  | item :: items =>
    grantAll paymentIntentId currency period
      (grants.upsert (paymentIntentId, item.catalogItemId)
        { toolCode := item.packageType
          grantedUnits := item.units
          amountMinorSnapshot := item.amountMinor
          currencySnapshot := currency
          periodStartedAt := period.1
          periodEndsAt := period.2 } id) items

/-- Grants touch no other table. -/
theorem grantItems_apply (paymentIntentId currency : String) (period : Int × Int)
    (items : List PackageItem) (outside : Db) :
    grantItems paymentIntentId currency period items ⟨outside, db, false⟩ =
      (.ok (), ⟨outside, { db with
        packageGrants := grantAll paymentIntentId currency period db.packageGrants items },
        false⟩) := by
  induction items generalizing db with
  | nil => rfl
  | cons item items ih =>
    unfold grantItems
    rw [update_bind_apply, ih]
    rfl

/-- In an aborted transaction nothing is granted: the first upsert fails. -/
theorem grantItems_aborted (paymentIntentId currency : String) (period : Int × Int)
    (items : List PackageItem) (outside : Db) :
    ∃ result, grantItems paymentIntentId currency period items ⟨outside, db, true⟩ =
      (result, ⟨outside, db, true⟩) := by
  cases items with
  | nil => exact ⟨.ok (), rfl⟩
  | cons item items => exact ⟨.error .inFailedTransaction, rfl⟩

section
variable (paymentIntentId currency : String) (period : Int × Int) (items : List PackageItem)

/-- The first fulfillment records the purchase and credits it. -/
theorem fulfillItems_new (positive : 0 < videoVcTotal items)
    {ledger : KeyedTable (LedgerKind × ReferenceKey) LedgerEvent}
    (free : db.ledger.create (.packagePurchase, .paymentIntent paymentIntentId)
      ⟨videoVcTotal items, none⟩ = some ledger) :
    transaction (fulfillItems paymentIntentId currency period items) db =
      (.ok (), { db with
        ledger, wallet := some (db.balanceVc + videoVcTotal items)
        packageGrants := grantAll paymentIntentId currency period db.packageGrants
          (items.filter fun item => !item.isVideo) }) := by
  have credited : creditItems paymentIntentId (videoVcTotal items) ⟨db, db, false⟩ = (.ok (),
      ⟨db, { db with ledger, wallet := some (db.balanceVc + videoVcTotal items) }, false⟩) := by
    unfold creditItems
    rw [if_pos positive, bind_of_ok (recordEvent_of_free free), if_pos rfl,
      bind_of_ok (credit_apply (Int.le_of_lt positive))]
    rfl
  have granted := @grantItems_apply
    { db with ledger, wallet := some (db.balanceVc + videoVcTotal items) } paymentIntentId currency
    period (items.filter fun item => !item.isVideo) db
  have body : fulfillItems paymentIntentId currency period items ⟨db, db, false⟩ = _ :=
    (bind_of_ok credited _).trans granted
  exact transaction_ok.mpr ⟨_, body, rfl⟩

/-- A repeated one changes nothing, whether it returns or fails. -/
theorem fulfillItems_repeated (positive : 0 < videoVcTotal items)
    (used : db.ledger.create (.packagePurchase, .paymentIntent paymentIntentId)
      ⟨videoVcTotal items, none⟩ = none) :
    (transaction (fulfillItems paymentIntentId currency period items) db).2 = db := by
  have credited : creditItems paymentIntentId (videoVcTotal items) ⟨db, db, false⟩ =
      (.ok (), ⟨db, db, true⟩) := by
    unfold creditItems
    rw [if_pos positive, bind_of_ok (recordEvent_of_used used), if_neg Bool.false_ne_true]
    rfl
  obtain ⟨result, granted⟩ := @grantItems_aborted db paymentIntentId currency period
    (items.filter fun item => !item.isVideo) db
  have body : fulfillItems paymentIntentId currency period items ⟨db, db, false⟩ =
      (result, ⟨db, db, true⟩) := (bind_of_ok credited _).trans granted
  unfold transaction
  rw [body]
  cases result <;> rfl

theorem fulfillItems_without_video (none_positive : ¬ 0 < videoVcTotal items) :
    transaction (fulfillItems paymentIntentId currency period items) db =
      (.ok (), { db with
        packageGrants := grantAll paymentIntentId currency period db.packageGrants
          (items.filter fun item => !item.isVideo) }) := by
  have credited : creditItems paymentIntentId (videoVcTotal items) ⟨db, db, false⟩ =
      (.ok (), ⟨db, db, false⟩) := by
    unfold creditItems
    rw [if_neg none_positive]
    rfl
  have granted := @grantItems_apply db paymentIntentId currency period
    (items.filter fun item => !item.isVideo) db
  have body : fulfillItems paymentIntentId currency period items ⟨db, db, false⟩ = _ :=
    (bind_of_ok credited _).trans granted
  exact transaction_ok.mpr ⟨_, body, rfl⟩

/-- A fulfillment writes nothing, or the grants, or the purchase with its credit and the
grants. -/
theorem fulfillItems_cases :
    (transaction (fulfillItems paymentIntentId currency period items) db).2 = db ∨
    (∃ packageGrants, (transaction (fulfillItems paymentIntentId currency period items) db).2 =
      { db with packageGrants }) ∨
    ∃ ledger packageGrants, db.ledger.create (.packagePurchase, .paymentIntent paymentIntentId)
        ⟨videoVcTotal items, none⟩ = some ledger ∧
      (transaction (fulfillItems paymentIntentId currency period items) db).2 = { db with
        ledger, wallet := some (db.balanceVc + videoVcTotal items), packageGrants } := by
  by_cases positive : 0 < videoVcTotal items
  · cases created : db.ledger.create (.packagePurchase, .paymentIntent paymentIntentId)
        ⟨videoVcTotal items, none⟩ with
    | some ledger =>
      have outcome := fulfillItems_new paymentIntentId currency period items positive created
      exact .inr (.inr ⟨ledger, _, rfl, by rw [outcome]⟩)
    | none =>
      exact .inl (fulfillItems_repeated paymentIntentId currency period items positive created)
  · have outcome := @fulfillItems_without_video db paymentIntentId currency period items positive
    exact .inr (.inl ⟨_, by rw [outcome]⟩)

theorem fulfillItems_books (total : db.videoTotal paymentIntentId = some (videoVcTotal items)) :
    Books db (transaction (fulfillItems paymentIntentId currency period items) db).2 := by
  rcases @fulfillItems_cases db paymentIntentId currency period items with
    same | ⟨packageGrants, granted⟩ | ⟨ledger, packageGrants, created, credited⟩
  · rw [same]
    exact books_of_same rfl rfl rfl
  · rw [granted]
    exact books_of_same rfl rfl rfl
  · rw [credited]
    exact books_of_recorded created total rfl rfl rfl

end

section
variable (paymentIntentId : String) {total : Int}

/-- The first reversal of a positive total records and debits it. -/
theorem reverseItems_new (positive : 0 ≤ total)
    {ledger : KeyedTable (LedgerKind × ReferenceKey) LedgerEvent}
    (free : db.ledger.create (.packageRefund, .paymentIntent paymentIntentId)
      ⟨-total, none⟩ = some ledger) :
    transaction (reverseItems paymentIntentId total) db =
      (.ok (), { db with ledger, wallet := some (db.balanceVc - total) }) := by
  refine transaction_ok.mpr ⟨⟨db, { db with ledger, wallet := some (db.balanceVc - total) }, false⟩,
    ?_, rfl⟩
  unfold reverseItems
  rw [bind_of_ok (recordEvent_of_free free), if_pos rfl, bind_of_ok (debit_apply positive)]
  rfl

/-- A repeated reversal changes nothing, and one of a negative total throws. -/
theorem reverseItems_refused (refused : total < 0 ∨
    db.ledger.create (.packageRefund, .paymentIntent paymentIntentId) ⟨-total, none⟩ = none) :
    (transaction (reverseItems paymentIntentId total) db).2 = db := by
  cases created : db.ledger.create (.packageRefund, .paymentIntent paymentIntentId)
      ⟨-total, none⟩ with
  | none =>
    have body : reverseItems paymentIntentId total ⟨db, db, false⟩ = (.ok (), ⟨db, db, true⟩) := by
      unfold reverseItems
      rw [bind_of_ok (recordEvent_of_used created), if_neg Bool.false_ne_true]
      rfl
    unfold transaction
    rw [body]
    rfl
  | some ledger =>
    have negative : total < 0 :=
      refused.resolve_right (by rw [created]; exact Option.some_ne_none _)
    obtain ⟨e, thrown⟩ := @debit_of_neg db { db with ledger } total negative
    have body : reverseItems paymentIntentId total ⟨db, db, false⟩ =
        (.error (.thrown e), ⟨db, { db with ledger }, false⟩) := by
      unfold reverseItems
      rw [bind_of_ok (recordEvent_of_free created), if_pos rfl, bind_of_error thrown]
    unfold transaction
    rw [body]

/-- A reversal writes nothing, or the refund with its debit. -/
theorem reverseItems_cases (total : Int) :
    (transaction (reverseItems paymentIntentId total) db).2 = db ∨
    ∃ ledger, db.ledger.create (.packageRefund, .paymentIntent paymentIntentId)
        ⟨-total, none⟩ = some ledger ∧
      (transaction (reverseItems paymentIntentId total) db).2 =
        { db with ledger, wallet := some (db.balanceVc - total) } := by
  cases created : db.ledger.create (.packageRefund, .paymentIntent paymentIntentId)
      ⟨-total, none⟩ with
  | none => exact .inl (reverseItems_refused paymentIntentId (.inr created))
  | some ledger =>
    by_cases negative : total < 0
    · exact .inl (reverseItems_refused paymentIntentId (.inl negative))
    · have reversed := reverseItems_new paymentIntentId (by omega) created
      exact .inr ⟨ledger, rfl, by rw [reversed]⟩

theorem reverseItems_books (isTotal : db.videoTotal paymentIntentId = some total) :
    Books db (transaction (reverseItems paymentIntentId total) db).2 := by
  rcases @reverseItems_cases db paymentIntentId total with same | ⟨ledger, created, reversed⟩
  · rw [same]
    exact books_of_same rfl rfl rfl
  · rw [reversed]
    refine books_of_recorded created ?_ rfl Int.sub_eq_add_neg rfl
    show db.videoTotal paymentIntentId = some (- -total)
    rw [Int.neg_neg]
    exact isTotal

end

/-! ## The services -/

theorem createInitialWorkspaceSubscription_books {env : Env} {cause : Cause}
    (defaultPlan : Plan) :
    Within Books (createInitialWorkspaceSubscription env cause defaultPlan) := by
  unfold createInitialWorkspaceSubscription
  split
  · exact within_throw _
  refine within_bind (within_fromExcept _) fun policy => ?_
  refine within_bind (within_write fun db => books_of_same rfl rfl rfl) fun _ => ?_
  exact within_fromExcept _

theorem applyExpiredTrialFallback_books {env : Env} {cause : Cause}
    (subscription : Subscription) :
    Within Books (applyExpiredTrialFallback env cause subscription) := by
  unfold applyExpiredTrialFallback
  refine within_bind (within_fromExcept _) fun planCode => ?_
  refine within_bind (within_write fun db => books_of_same rfl rfl rfl) fun _ => ?_
  exact within_fromExcept _

theorem resolveWorkspaceSubscription_books {env : Env} {cause : Cause}
    (subscription : Subscription) :
    Within Books (resolveWorkspaceSubscription env cause subscription) :=
  resolveWorkspaceSubscription_within transition_books
    (fun _ _ _ => applyActivePaidTransition_books) transition_books
    (applyExpiredTrialFallback_books subscription) fun _ => transition_books

theorem resolveEffectiveSubscription_books {env : Env} {cause : Cause} :
    Within Books (resolveEffectiveSubscription env cause) := by
  unfold resolveEffectiveSubscription
  refine within_bind (within_read _) fun row => ?_
  cases row with
  | some subscription => exact resolveWorkspaceSubscription_books subscription
  | none =>
    dsimp only
    split
    · exact within_bind (createInitialWorkspaceSubscription_books _) fun _ => within_read _
    · exact within_pure _

/-- The intent of an id, as it is found. -/
theorem findPaymentIntent_apply (paymentIntentId : String) :
    (∃ intent, db.paymentIntents.get? paymentIntentId = some intent ∧
      findPaymentIntent paymentIntentId db = (.ok intent, db)) ∨
    ∃ e, findPaymentIntent paymentIntentId db = (.error e, db) := by
  unfold findPaymentIntent
  rw [read_bind_apply]
  cases found : db.paymentIntents.get? paymentIntentId with
  | some intent => exact .inl ⟨intent, rfl, rfl⟩
  | none => exact .inr ⟨_, rfl⟩

theorem videoTotal_of_items {paymentIntentId : String} {intent : PaymentIntent}
    {items : List PackageItem} (found : db.paymentIntents.get? paymentIntentId = some intent)
    (read : intent.readPackageItems = .ok items) :
    db.videoTotal paymentIntentId = some (videoVcTotal items) := by
  rw [Db.videoTotal, found, Option.bind_some, read]
  rfl

theorem subscriptionOfGrants_books {env : Env} {cause : Cause} {items : List PackageItem} :
    Within Books (subscriptionOfGrants env cause items) := by
  unfold subscriptionOfGrants
  split
  · exact within_pure _
  · exact resolveEffectiveSubscription_books

/-- A fulfillment keeps the books, however it ends. -/
theorem fulfillPackagePaymentIntent_books (env : Env) (cause : Cause)
    (paymentIntentId : String) :
    Within Books (fulfillPackagePaymentIntent env cause paymentIntentId) := by
  intro db
  unfold fulfillPackagePaymentIntent
  rcases @findPaymentIntent_apply db paymentIntentId with ⟨intent, found, read⟩ | ⟨e, failed⟩
  · rw [bind_of_ok read]
    split
    · exact books_of_same rfl rfl rfl
    match items_read : intent.readPackageItems with
    | .error e => exact books_of_same rfl rfl rfl
    | .ok items =>
      have total := videoTotal_of_items found items_read
      have kept := @subscriptionOfGrants_books env cause items db
      rw [raise_ok_bind, bind_apply]
      match outcome : subscriptionOfGrants env cause items db with
      | (.error e, db') => rw [outcome] at kept; exact kept
      | (.ok subscription, db') =>
        rw [outcome] at kept
        rw [← kept.videoTotal] at total
        exact kept.trans (fulfillItems_books paymentIntentId intent.currency _ items total)
  · rw [bind_of_error failed]
    exact books_of_same rfl rfl rfl

/-- A reversal keeps the books, however it ends. -/
theorem reversePackagePaymentIntent_books (paymentIntentId : String) :
    Within Books (reversePackagePaymentIntent paymentIntentId) := by
  intro db
  unfold reversePackagePaymentIntent
  rcases @findPaymentIntent_apply db paymentIntentId with ⟨intent, found, read⟩ | ⟨e, failed⟩
  · rw [bind_of_ok read]
    match items_read : intent.readPackageItems with
    | .error e => exact books_of_same rfl rfl rfl
    | .ok items =>
      have total := videoTotal_of_items found items_read
      rw [raise_ok_bind]
      split
      · exact books_of_same rfl rfl rfl
      · exact reverseItems_books paymentIntentId total
  · rw [bind_of_error failed]
    exact books_of_same rfl rfl rfl

end

end Persai.Billing
