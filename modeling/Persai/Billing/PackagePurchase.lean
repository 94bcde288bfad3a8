import Mathlib.Algebra.BigOperators.Group.List.Basic
import Persai.Runs
import Persai.Billing.Packages

/-!
# A package grants what was charged

The creation of the payment intent of a package, and the fulfillments of the intent once it is
paid, repeated at will. The price counts an item as often as it was selected; the grants are
unique by intent and item.

* `createPackagePaymentIntent`, `createPackagePaymentIntent_new`: what an accepted list costs;
* `firsts`, `grantedUnits_grantAll`: an item that was granted is not granted again;
* `Fulfilled`, `fulfilled_step`: the grants after the first fulfillment that returns, and after
  every later one;
* `grantsCharged_iff`: when they are the items that were charged.
-/

namespace Persai.Billing

open Program TxM Runs

/-! ## Creation -/

/-- An item of the catalog, as validated when it was stored. -/
structure CatalogItem where
  packageType : MediaPackageType
  units : Int
  amountMinor : Int
  currency : String
  isActive : Bool
  units_pos : 0 < units := by decide
  amountMinor_pos : 0 < amountMinor := by decide

abbrev Catalog := String → Option CatalogItem

structure PackageIntentInput where
  packageItemIds : List String
  paymentMethodClass : PaymentMethodClass
  idempotencyKey : String

structure CheckoutSession where
  providerKey : String
  providerSessionRef : Option String
  providerPaymentRef : Option String

/-- The tables, and the ids of the payment intents by idempotency key. -/
structure Store where
  db : Db
  intentIds : KeyedTable String String := ∅

def getById (catalog : Catalog) (id : String) : Except BillingError (String × CatalogItem) :=
  match catalog id with
  | some item => .ok (id, item)
  | none => .error (.notFound ("Media package catalog item \"" ++ id ++ "\" was not found."))

def PackageItem.ofCatalog (item : String × CatalogItem) : PackageItem where
  catalogItemId := item.1
  packageType := item.2.packageType
  units := item.2.units
  amountMinor := item.2.amountMinor

def Store.findByKey (s : Store) (idempotencyKey : String) : Option (String × PaymentIntent) :=
  (s.intentIds.get? idempotencyKey).bind fun id => (s.db.paymentIntents.get? id).map (id, ·)

/-- The insert of a payment intent, unique by its id and by its idempotency key. -/
def insertIntent (idempotencyKey id : String) (intent : PaymentIntent) :
    Service Store BillingError Unit := fun s =>
  match s.intentIds.create idempotencyKey id, s.db.paymentIntents.create id intent with
  | some intentIds, some paymentIntents =>
    (.ok (), { db := { s.db with paymentIntents }, intentIds })
  | _, _ => (.error .uniqueViolation, s)

def updateIntent (id : String) (f : PaymentIntent → PaymentIntent) :
    Service Store BillingError Unit :=
  write fun s => { s with db.paymentIntents := s.db.paymentIntents.update id f }

/-- The row of the intent, before the provider is called. -/
def packageIntent (userId currency : String) (paymentMethodClass : PaymentMethodClass)
    (items : List PackageItem) : PaymentIntent where
  userId := some userId
  targetPlanCode := packageIntentPlanSentinel
  action := .newPurchase
  status := .created
  paymentMethodClass := paymentMethodClass
  amountMinor := (items.map PackageItem.amountMinor).sum
  currency := currency
  billingPeriod := .month
  metadata := { purpose := some "media_package_purchase", packageItems := some items }

def CheckoutSession.attach (session : CheckoutSession) (row : PaymentIntent) : PaymentIntent :=
  { row with
    status := .checkoutReady
    billingProvider := some session.providerKey
    providerSessionRef := session.providerSessionRef
    providerPaymentRef := session.providerPaymentRef }

/-- The existing intent under the idempotency key, or else a new one and its checkout.
`intentId` is the id that the database generates, `checkout` how the provider's
`createCheckoutSession` ends. -/
def openCheckout (checkout : Except String CheckoutSession) (intentId idempotencyKey : String)
    (intent : PaymentIntent) : Service Store BillingError (String × PaymentIntent) := do
  match ← read fun s => s.findByKey idempotencyKey with
  | some existing => pure existing
  | none => do
    insertIntent idempotencyKey intentId intent
    match checkout with
    | .error message => do
      updateIntent intentId fun row =>
        { row with
          status := .failed
          lastErrorCode := some "provider_checkout_failed"
          lastErrorMessage := some message }
      throw (.thrown (.error message))
    | .ok session => do
      updateIntent intentId session.attach
      pure (intentId, session.attach intent)

def createPackagePaymentIntent (catalog : Catalog) (checkout : Except String CheckoutSession)
    (userId intentId : String) (input : PackageIntentInput) :
    Service Store BillingError (String × PaymentIntent) :=
  if input.packageItemIds = [] then
    throw (.thrown (.badRequest "At least one package item must be selected."))
  else if input.packageItemIds.length > 10 then
    throw (.thrown (.badRequest "Cannot purchase more than 10 package items at once."))
  else do
    let items ← fromExcept (raise (input.packageItemIds.mapM (getById catalog)))
    let inactiveItems := items.filter fun item => !item.2.isActive
    let currencies := (items.map fun item => item.2.currency).eraseDups
    if inactiveItems ≠ [] then
      throw (.thrown (.badRequest ("Package items not available: " ++
        ", ".intercalate (inactiveItems.map Prod.fst))))
    else if currencies.length > 1 then
      throw (.thrown (.badRequest "All selected package items must share the same currency."))
    else
      openCheckout checkout intentId input.idempotencyKey
        (packageIntent userId (currencies.headD "") input.paymentMethodClass
          (items.map PackageItem.ofCatalog))

/-- The items of a list of ids, each as often as it is in the list. -/
def purchased (catalog : Catalog) (ids : List String) : List PackageItem :=
  ids.filterMap fun id => (catalog id).map fun item => .ofCatalog (id, item)

theorem mapM_getById {catalog : Catalog} {ids : List String} {items : List (String × CatalogItem)}
    (read : ids.mapM (getById catalog) = .ok items) :
    items.map PackageItem.ofCatalog = purchased catalog ids := by
  induction ids generalizing items with
  | nil =>
    cases read
    rfl
  | cons id ids ih =>
    rw [List.mapM_cons] at read
    unfold getById at read
    cases found : catalog id with
    | none => rw [found] at read; cases read
    | some item =>
      rw [found] at read
      cases rest : ids.mapM (getById catalog) with
      | error e => unfold getById at rest; simp [rest, bind, Except.bind] at read
      | ok items' =>
        have others := ih rest
        unfold getById at rest
        simp only [rest, bind, Except.bind, pure, Except.pure, Except.ok.injEq] at read
        subst read
        simp [purchased, found, others]

/-- No row but the intent's own speaks of the id, and the intent still has its items. -/
structure Paid (id : String) (intent : PaymentIntent) (db : Db) : Prop where
  row : ∃ row, db.paymentIntents.get? id = some row ∧
    row.targetPlanCode = intent.targetPlanCode ∧
    row.metadata.packageItems = intent.metadata.packageItems
  ungranted : ∀ item, db.packageGrants.get? (id, item) = none
  unrecorded : db.ledger.get? (.packagePurchase, .paymentIntent id) = none

section
variable {catalog : Catalog} {checkout : Except String CheckoutSession} {userId intentId : String}
  {input : PackageIntentInput} {s s' : Store} {id : String} {intent row : PaymentIntent}

theorem insertIntent_ok {idempotencyKey : String}
    (inserted : insertIntent idempotencyKey id row s = (.ok (), s')) :
    s'.db.paymentIntents.get? id = some row ∧
      s'.db.packageGrants = s.db.packageGrants ∧ s'.db.ledger = s.db.ledger := by
  unfold insertIntent at inserted
  split at inserted
  · rename_i intentIds paymentIntents keyed created
    cases inserted
    exact ⟨by rw [KeyedTable.get?_create created, if_pos rfl], rfl, rfl⟩
  · cases inserted

theorem openCheckout_new {idempotencyKey : String} (fresh : s.findByKey idempotencyKey = none)
    (opened : openCheckout checkout intentId idempotencyKey row s = (.ok (id, intent), s')) :
    id = intentId ∧ (∃ session : CheckoutSession, intent = session.attach row) ∧
      s'.db.paymentIntents.get? id = some intent ∧
      s'.db.packageGrants = s.db.packageGrants ∧ s'.db.ledger = s.db.ledger := by
  unfold openCheckout at opened
  rw [read_bind_apply, fresh] at opened
  dsimp only at opened
  match inserted : insertIntent idempotencyKey intentId row s with
  | (.error e, s₁) => rw [bind_of_error inserted] at opened; cases opened
  | (.ok (), s₁) =>
    rw [bind_of_ok inserted] at opened
    obtain ⟨found, grants, ledger⟩ := insertIntent_ok inserted
    cases checkout with
    | error message => cases opened
    | ok session =>
      cases opened
      refine ⟨rfl, ⟨session, rfl⟩, ?_, grants, ledger⟩
      simp [found]

/-- The intent that a call creates is for all items of the list. -/
theorem createPackagePaymentIntent_new
    (created : createPackagePaymentIntent catalog checkout userId intentId input s =
      (.ok (id, intent), s'))
    (fresh : s.findByKey input.idempotencyKey = none) :
    intent.amountMinor =
        ((purchased catalog input.packageItemIds).map PackageItem.amountMinor).sum ∧
      intent.targetPlanCode = packageIntentPlanSentinel ∧
      intent.metadata.packageItems = some (purchased catalog input.packageItemIds) ∧
      id = intentId ∧ s'.db.paymentIntents.get? id = some intent ∧
      s'.db.packageGrants = s.db.packageGrants ∧ s'.db.ledger = s.db.ledger := by
  unfold createPackagePaymentIntent at created
  split at created
  · cases created
  split at created
  · cases created
  cases read : input.packageItemIds.mapM (getById catalog) with
  | error e => rw [read] at created; cases created
  | ok items =>
    have raised : (fromExcept (raise (.ok items)) : Service Store BillingError _) s =
        (.ok items, s) := rfl
    rw [read, bind_of_ok raised] at created
    split at created
    · cases created
    split at created
    · cases created
    obtain ⟨own, ⟨session, attached⟩, found, grants, ledger⟩ := openCheckout_new fresh created
    rw [mapM_getById read] at attached
    exact ⟨by rw [attached]; rfl, by rw [attached]; rfl, by rw [attached]; rfl, own, found, grants,
      ledger⟩

/-- A new intent, while no other row speaks of its id. -/
theorem createPackagePaymentIntent_paid
    (created : createPackagePaymentIntent catalog checkout userId intentId input s =
      (.ok (id, intent), s'))
    (fresh : s.findByKey input.idempotencyKey = none)
    (ungranted : ∀ item, s.db.packageGrants.get? (intentId, item) = none)
    (unrecorded : s.db.ledger.get? (.packagePurchase, .paymentIntent intentId) = none) :
    Paid id intent s'.db := by
  obtain ⟨-, -, -, own, found, grants, ledger⟩ := createPackagePaymentIntent_new created fresh
  subst own
  exact ⟨⟨intent, found, rfl, rfl⟩, fun item => by rw [grants, ungranted],
    by rw [ledger, unrecorded]⟩

end

/-! ## What a fulfillment leaves alone -/

/-- The grants, the payment intents and the recorded purchases stay. -/
structure KeepsPackages (db db' : Db) : Prop where
  grants : db'.packageGrants = db.packageGrants
  intents : db'.paymentIntents = db.paymentIntents
  purchases : ∀ id, db'.ledger.get? (.packagePurchase, id) = db.ledger.get? (.packagePurchase, id)

instance : Std.Refl KeepsPackages := ⟨fun _ => ⟨rfl, rfl, fun _ => rfl⟩⟩

instance : Trans KeepsPackages KeepsPackages KeepsPackages :=
  ⟨fun first second => ⟨second.grants.trans first.grants, second.intents.trans first.intents,
    fun id => (second.purchases id).trans (first.purchases id)⟩⟩

section
variable {env : Env} {cause : Cause}

theorem transition_keepsPackages {announcement : Announcement}
    {decide : Subscription → Decision} :
    Within KeepsPackages (transition env cause announcement decide) := by
  intro db
  rcases @transition_cases env cause announcement decide db with
    same | ⟨current, updated, eventCodes, -, -, after⟩
  · rw [same]
    exact Std.Refl.refl db
  · rw [after]
    exact ⟨rfl, rfl, fun _ => rfl⟩

/-- A paid period records its own grant, of another kind. -/
theorem applyActivePaidTransition_keepsPackages {input : PaidTransition} :
    Within KeepsPackages (applyActivePaidTransition env cause input) := by
  intro db
  match started : input.startedPeriod env db with
  | some period =>
    obtain ⟨plan, -, -, ⟨-, outcome⟩ | ⟨-, ledger, created, outcome⟩⟩ :=
      @PaidTransition.applyActivePaidTransition_started env cause input db period started
    · rw [outcome]
      exact ⟨rfl, rfl, fun _ => rfl⟩
    · rw [outcome]
      refine ⟨rfl, rfl, fun id => ?_⟩
      rw [KeyedTable.get?_create created, if_neg (by simp)]
  | none =>
    rcases @PaidTransition.applyActivePaidTransition_not_started env cause input db started with
      outcome | outcome
    · rw [outcome]
      exact Std.Refl.refl db
    · rw [outcome]
      exact ⟨rfl, rfl, fun _ => rfl⟩

theorem createInitialWorkspaceSubscription_keepsPackages (defaultPlan : Plan) :
    Within KeepsPackages (createInitialWorkspaceSubscription env cause defaultPlan) := by
  unfold createInitialWorkspaceSubscription
  split
  · exact within_throw _
  refine within_bind (within_fromExcept _) fun policy => ?_
  refine within_bind (within_write fun db => ⟨rfl, rfl, fun _ => rfl⟩) fun _ => ?_
  exact within_fromExcept _

theorem applyExpiredTrialFallback_keepsPackages (subscription : Subscription) :
    Within KeepsPackages (applyExpiredTrialFallback env cause subscription) := by
  unfold applyExpiredTrialFallback
  refine within_bind (within_fromExcept _) fun planCode => ?_
  refine within_bind (within_write fun db => ⟨rfl, rfl, fun _ => rfl⟩) fun _ => ?_
  exact within_fromExcept _

theorem resolveEffectiveSubscription_keepsPackages :
    Within KeepsPackages (resolveEffectiveSubscription env cause) := by
  unfold resolveEffectiveSubscription
  refine within_bind (within_read _) fun row => ?_
  cases row with
  | some subscription =>
    exact resolveWorkspaceSubscription_within transition_keepsPackages
      (fun _ _ _ => applyActivePaidTransition_keepsPackages) transition_keepsPackages
      (applyExpiredTrialFallback_keepsPackages subscription) fun _ => transition_keepsPackages
  | none =>
    dsimp only
    split
    · exact within_bind (createInitialWorkspaceSubscription_keepsPackages _) fun _ =>
        within_read _
    · exact within_pure _

theorem subscriptionOfGrants_keepsPackages {items : List PackageItem} :
    Within KeepsPackages (subscriptionOfGrants env cause items) := by
  unfold subscriptionOfGrants
  split
  · exact within_pure _
  · exact resolveEffectiveSubscription_keepsPackages

end

/-! ## Grants -/

/-- The units of a tool among the items. -/
def unitsOf (tool : MediaPackageType) (items : List PackageItem) : Int :=
  ((items.filter fun item => item.packageType = tool).map PackageItem.units).sum

/-- Of the items with one id the first, unless the id was seen before. -/
def firsts (seen : List String) : List PackageItem → List PackageItem
  | [] => []
  | item :: items =>
    if item.catalogItemId ∈ seen then firsts seen items
    else item :: firsts (item.catalogItemId :: seen) items

/-- What the grants of an intent add up to, for a tool. -/
def unitsGranted (id : String) (tool : MediaPackageType)
    (grants : KeyedTable (String × String) PackageGrant) : Int :=
  ((grants.select fun k grant => k.1 = id && grant.toolCode = tool).map
    fun row => row.2.grantedUnits).sum

theorem unitsOf_cons (tool : MediaPackageType) (item : PackageItem) (items : List PackageItem) :
    unitsOf tool (item :: items) =
      (if item.packageType = tool then item.units else 0) + unitsOf tool items := by
  by_cases same : item.packageType = tool <;> simp [unitsOf, same]

theorem unitsOf_firsts_le {items : List PackageItem} (positive : ∀ item ∈ items, 0 < item.units)
    (tool : MediaPackageType) (seen : List String) :
    unitsOf tool (firsts seen items) ≤ unitsOf tool items := by
  induction items generalizing seen with
  | nil => exact Int.le_refl _
  | cons item items ih =>
    have rest := fun seen => ih (fun other mem => positive other (.tail _ mem)) seen
    have here := positive item (.head _)
    unfold firsts
    split
    · have := rest seen
      rw [unitsOf_cons]
      split <;> omega
    · rw [unitsOf_cons, unitsOf_cons]
      have := rest (item.catalogItemId :: seen)
      omega

theorem unitsOf_nonneg {items : List PackageItem} (positive : ∀ item ∈ items, 0 < item.units)
    {tool : MediaPackageType} : 0 ≤ unitsOf tool items := by
  induction items with
  | nil => exact Int.le_refl _
  | cons item items ih =>
    have here := positive item (.head _)
    have rest := ih fun other mem => positive other (.tail _ mem)
    rw [unitsOf_cons]
    split <;> omega

/-- An id that comes again costs its tool the units of the item. -/
theorem unitsOf_firsts_lt {items : List PackageItem} (positive : ∀ item ∈ items, 0 < item.units)
    (seen : List String)
    (again : ¬ ((items.map PackageItem.catalogItemId).Nodup ∧
      ∀ item ∈ items, item.catalogItemId ∉ seen)) :
    ∃ item ∈ items, unitsOf item.packageType (firsts seen items) <
      unitsOf item.packageType items := by
  induction items generalizing seen with
  | nil => simp at again
  | cons item items ih =>
    have others : ∀ other ∈ items, 0 < other.units := fun other mem => positive other (.tail _ mem)
    by_cases known : item.catalogItemId ∈ seen
    · refine ⟨item, .head _, ?_⟩
      have rest := unitsOf_firsts_le others item.packageType seen
      have here := positive item (.head _)
      rw [firsts, if_pos known, unitsOf_cons, if_pos rfl]
      omega
    · have later : ¬ ((items.map PackageItem.catalogItemId).Nodup ∧
          ∀ other ∈ items, other.catalogItemId ∉ item.catalogItemId :: seen) := by
        rintro ⟨nodup, unseen⟩
        refine again ⟨?_, ?_⟩
        · rw [List.map_cons, List.nodup_cons]
          refine ⟨fun mem => ?_, nodup⟩
          obtain ⟨other, member, same⟩ := List.mem_map.mp mem
          exact unseen other member (by simp [same])
        · intro other mem
          rcases List.mem_cons.mp mem with rfl | member
          · exact known
          · exact fun found => unseen other member (.tail _ found)
      obtain ⟨short, mem, less⟩ := ih others _ later
      refine ⟨short, .tail _ mem, ?_⟩
      rw [firsts, if_neg known, unitsOf_cons, unitsOf_cons]
      omega

theorem firsts_eq {items : List PackageItem} {seen : List String}
    (nodup : (items.map PackageItem.catalogItemId).Nodup)
    (unseen : ∀ item ∈ items, item.catalogItemId ∉ seen) : firsts seen items = items := by
  induction items generalizing seen with
  | nil => rfl
  | cons item items ih =>
    rw [List.map_cons, List.nodup_cons] at nodup
    rw [firsts, if_neg (unseen item (.head _)), ih nodup.2]
    intro other mem found
    rcases List.mem_cons.mp found with same | found
    · exact nodup.1 (List.mem_map.mpr ⟨other, mem, same⟩)
    · exact unseen other (.tail _ mem) found

section
variable {id currency : String} {period : Int × Int}
  {grants : KeyedTable (String × String) PackageGrant}

/-- Grants of the intent stay, and each item has one. -/
theorem isSome_grantAll (items : List PackageItem) (key : String × String) :
    ((grantAll id currency period grants items).get? key).isSome ↔
      (grants.get? key).isSome ∨ ∃ item ∈ items, key = (id, item.catalogItemId) := by
  induction items generalizing grants with
  | nil => simp [grantAll]
  | cons item items ih =>
    rw [grantAll, ih, KeyedTable.get?_upsert]
    by_cases own : key = (id, item.catalogItemId)
    · simp [own]
    · simp [own]

/-- Where every item has a grant, none is written. -/
theorem grantAll_of_granted {items : List PackageItem}
    (granted : ∀ item ∈ items, (grants.get? (id, item.catalogItemId)).isSome) :
    grantAll id currency period grants items = grants := by
  induction items with
  | nil => rfl
  | cons item items ih =>
    rw [grantAll, KeyedTable.upsert_id_of_used (granted item (.head _))]
    exact ih fun other mem => granted other (.tail _ mem)

theorem unitsGranted_grantAll (items : List PackageItem) (tool : MediaPackageType)
    (seen : List String) (same : ∀ item, (grants.get? (id, item)).isSome ↔ item ∈ seen) :
    unitsGranted id tool (grantAll id currency period grants items) =
      unitsGranted id tool grants + unitsOf tool (firsts seen items) := by
  induction items generalizing grants seen with
  | nil => simp [grantAll, firsts, unitsOf]
  | cons item items ih =>
    rw [grantAll, firsts]
    by_cases known : item.catalogItemId ∈ seen
    · rw [if_pos known, KeyedTable.upsert_id_of_used ((same _).mpr known)]
      exact ih seen same
    · have free : grants.get? (id, item.catalogItemId) = none := by
        simpa using mt (same item.catalogItemId).mp known
      rw [if_neg known, ih (item.catalogItemId :: seen), unitsOf_cons]
      · rw [unitsGranted, KeyedTable.select, KeyedTable.rows_upsert_of_free free,
          List.filter_append, List.map_append, List.sum_append, ← Int.add_assoc]
        congr 2
        by_cases tools : item.packageType = tool <;> simp [tools]
      · intro other
        rw [KeyedTable.get?_upsert]
        by_cases own : other = item.catalogItemId
        · simp [own]
        · simp [own, same]

end

/-! ## Fulfillments -/

/-- A call on the intent, and what it meets. -/
structure Fulfillment where
  env : Env
  cause : Cause

def fulfillStep (id : String) (db : Db) (e : Fulfillment) : Db :=
  (fulfillPackagePaymentIntent e.env e.cause id db).2

def Fulfillment.Returns (id : String) (db : Db) (e : Fulfillment) : Prop :=
  (fulfillPackagePaymentIntent e.env e.cause id db).1 = .ok ()

def Db.unitsGranted (db : Db) (id : String) (tool : MediaPackageType) : Int :=
  Billing.unitsGranted id tool db.packageGrants

/-- What the ledger records as purchased with the intent. -/
def Db.vcoinsGranted (db : Db) (id : String) : Int :=
  ((db.ledger.get? (.packagePurchase, .paymentIntent id)).map LedgerEvent.amountVc).getD 0

/-- The intent still has its items, and they were granted and credited. -/
structure Fulfilled (id : String) (items : List PackageItem) (db : Db) : Prop where
  row : ∃ row, db.paymentIntents.get? id = some row ∧
    row.targetPlanCode = packageIntentPlanSentinel ∧ row.metadata.packageItems = some items
  granted : ∀ item ∈ items.filter fun item => !item.isVideo,
    (db.packageGrants.get? (id, item.catalogItemId)).isSome
  units : ∀ tool, db.unitsGranted id tool =
    unitsOf tool (firsts [] (items.filter fun item => !item.isVideo))
  recorded : db.ledger.get? (.packagePurchase, .paymentIntent id) =
    if 0 < videoVcTotal items then some ⟨videoVcTotal items, none⟩ else none

section
variable {id : String} {items : List PackageItem} {intent : PaymentIntent} {db : Db}

/-- What a call on an intent with items comes to. -/
theorem fulfillPackagePaymentIntent_apply (e : Fulfillment) {row : PaymentIntent}
    (found : db.paymentIntents.get? id = some row)
    (sentinel : row.targetPlanCode = packageIntentPlanSentinel)
    (read : row.metadata.packageItems = some items) :
    (∃ error db', KeepsPackages db db' ∧
      fulfillPackagePaymentIntent e.env e.cause id db = (.error error, db')) ∨
    ∃ db' period, KeepsPackages db db' ∧ items ≠ [] ∧
      fulfillPackagePaymentIntent e.env e.cause id db =
        transaction (fulfillItems id row.currency period items) db' := by
  have lookup : findPaymentIntent id db = (.ok row, db) := by
    unfold findPaymentIntent
    rw [read_bind_apply, found]
    rfl
  unfold fulfillPackagePaymentIntent
  rw [bind_of_ok lookup, if_neg (by simp [sentinel])]
  cases items with
  | nil =>
    obtain ⟨error, none_⟩ : ∃ error, row.readPackageItems = .error error := by
      unfold PaymentIntent.readPackageItems
      rw [read]
      exact ⟨_, rfl⟩
    rw [none_]
    exact .inl ⟨_, db, Std.Refl.refl db, rfl⟩
  | cons item items =>
    have all : row.readPackageItems = .ok (item :: items) := by
      unfold PaymentIntent.readPackageItems
      rw [read]
    rw [all, raise_ok_bind, bind_apply]
    have keeps := @subscriptionOfGrants_keepsPackages e.env e.cause (item :: items) db
    match outcome : subscriptionOfGrants e.env e.cause (item :: items) db with
    | (.error error, db') => rw [outcome] at keeps; exact .inl ⟨error, db', keeps, rfl⟩
    | (.ok subscription, db') =>
      rw [outcome] at keeps
      exact .inr ⟨db', _, keeps, List.cons_ne_nil _ _, rfl⟩

theorem Paid.keeps {db' : Db} (paid : Paid id intent db) (keeps : KeepsPackages db db') :
    Paid id intent db' := by
  obtain ⟨row, ungranted, unrecorded⟩ := paid
  rw [← keeps.intents] at row
  exact ⟨row, fun item => by rw [keeps.grants, ungranted],
    by rw [keeps.purchases, unrecorded]⟩

theorem Fulfilled.keeps {db' : Db} (fulfilled : Fulfilled id items db)
    (keeps : KeepsPackages db db') : Fulfilled id items db' := by
  obtain ⟨row, granted, units, recorded⟩ := fulfilled
  rw [← keeps.intents] at row
  refine ⟨row, fun item mem => ?_, fun tool => ?_, ?_⟩
  · rw [keeps.grants]
    exact granted item mem
  · rw [Db.unitsGranted, keeps.grants]
    exact units tool
  · rw [keeps.purchases, recorded]

/-- The first transaction on a paid intent that commits. -/
theorem Paid.fulfilled (paid : Paid id intent db)
    (sentinel : intent.targetPlanCode = packageIntentPlanSentinel)
    (read : intent.metadata.packageItems = some items) (currency : String) (period : Int × Int) :
    ∃ db', transaction (fulfillItems id currency period items) db = (.ok (), db') ∧
      Fulfilled id items db' := by
  obtain ⟨⟨row, found, code, same⟩, ungranted, unrecorded⟩ := paid
  have here : ∃ row, db.paymentIntents.get? id = some row ∧
      row.targetPlanCode = packageIntentPlanSentinel ∧ row.metadata.packageItems = some items :=
    ⟨row, found, code.trans sentinel, same.trans read⟩
  have granted : ∀ item ∈ items.filter fun item => !item.isVideo,
      ((grantAll id currency period db.packageGrants
        (items.filter fun item => !item.isVideo)).get? (id, item.catalogItemId)).isSome :=
    fun item mem => (isSome_grantAll _ _).mpr (.inr ⟨item, mem, rfl⟩)
  have empty : ∀ tool, Billing.unitsGranted id tool db.packageGrants = 0 := by
    intro tool
    have none_ :
        (db.packageGrants.select fun k grant => k.1 = id && grant.toolCode = tool) = [] := by
      rw [List.eq_nil_iff_forall_not_mem]
      rintro ⟨⟨key, item⟩, grant⟩ mem
      obtain ⟨row, own⟩ := KeyedTable.mem_select_iff.mp mem
      simp only [Bool.and_eq_true, decide_eq_true_eq] at own
      obtain ⟨rfl, -⟩ := own
      rw [ungranted item] at row
      cases row
    rw [Billing.unitsGranted, none_]
    rfl
  have units : ∀ tool, Billing.unitsGranted id tool (grantAll id currency period db.packageGrants
      (items.filter fun item => !item.isVideo)) =
        unitsOf tool (firsts [] (items.filter fun item => !item.isVideo)) := by
    intro tool
    rw [unitsGranted_grantAll _ _ [] (by simp [ungranted]), empty, Int.zero_add]
  by_cases positive : 0 < videoVcTotal items
  · cases created : db.ledger.create (.packagePurchase, .paymentIntent id)
        ⟨videoVcTotal items, none⟩ with
    | none => rw [KeyedTable.create_eq_none_iff, unrecorded] at created; cases created
    | some ledger =>
      refine ⟨_, fulfillItems_new id currency period items positive created, here, granted, units,
        ?_⟩
      rw [if_pos positive]
      exact (KeyedTable.get?_create created _).trans (if_pos rfl)
  · refine ⟨_, fulfillItems_without_video id currency period items positive, here, granted, units,
      ?_⟩
    rw [if_neg positive]
    exact unrecorded

/-- A transaction on a fulfilled intent, however it ends. -/
theorem Fulfilled.transaction (fulfilled : Fulfilled id items db) (currency : String)
    (period : Int × Int) :
    (transaction (fulfillItems id currency period items) db).2 = db := by
  obtain ⟨-, granted, -, recorded⟩ := fulfilled
  by_cases positive : 0 < videoVcTotal items
  · rw [if_pos positive] at recorded
    exact fulfillItems_repeated id currency period items positive
      (KeyedTable.create_eq_none_iff.mpr (by rw [recorded]; rfl))
  · rw [fulfillItems_without_video id currency period items positive, grantAll_of_granted granted]

theorem paid_step (paid : Paid id intent db)
    (sentinel : intent.targetPlanCode = packageIntentPlanSentinel)
    (read : intent.metadata.packageItems = some items) (e : Fulfillment) :
    (¬ e.Returns id db ∧ Paid id intent (fulfillStep id db e)) ∨
      Fulfilled id items (fulfillStep id db e) := by
  obtain ⟨row, found, code, same⟩ := paid.row
  rcases fulfillPackagePaymentIntent_apply e found (code.trans sentinel) (same.trans read) with
    ⟨error, db', keeps, failed⟩ | ⟨db', period, keeps, -, outcome⟩
  · refine .inl ⟨fun returned => ?_, ?_⟩
    · rw [Fulfillment.Returns, failed] at returned
      cases returned
    · rw [fulfillStep, failed]
      exact paid.keeps keeps
  · obtain ⟨after, committed, fulfilled⟩ :=
      (paid.keeps keeps).fulfilled sentinel read row.currency period
    right
    rw [fulfillStep, outcome, committed]
    exact fulfilled

/-- A repeated call grants nothing. -/
theorem fulfilled_step (fulfilled : Fulfilled id items db) (e : Fulfillment) :
    Fulfilled id items (fulfillStep id db e) := by
  obtain ⟨row, found, code, read⟩ := fulfilled.row
  rcases fulfillPackagePaymentIntent_apply e found code read with
    ⟨error, db', keeps, failed⟩ | ⟨db', period, keeps, -, outcome⟩
  · rw [fulfillStep, failed]
    exact fulfilled.keeps keeps
  · have kept := fulfilled.keeps keeps
    rw [fulfillStep, outcome, kept.transaction]
    exact kept

theorem fulfilled_run (fulfilled : Fulfilled id items db) (es : List Fulfillment) :
    Fulfilled id items (run (fulfillStep id) db es) := by
  induction es generalizing db with
  | nil => exact fulfilled
  | cons e es ih => exact ih (fulfilled_step fulfilled e)

/-- Once a call returned the intent is fulfilled. -/
theorem fulfilled_of_returned (paid : Paid id intent db)
    (sentinel : intent.targetPlanCode = packageIntentPlanSentinel)
    (read : intent.metadata.packageItems = some items) {es : List Fulfillment}
    (returned : ¬ EveryStep (fulfillStep id) (fun db e => ¬ e.Returns id db) db es) :
    Fulfilled id items (run (fulfillStep id) db es) := by
  induction es generalizing db with
  | nil => exact absurd trivial returned
  | cons e es ih =>
    rw [run_cons]
    rcases paid_step paid sentinel read e with ⟨failed, paid'⟩ | fulfilled
    · exact ih paid' fun none_ => returned ⟨failed, none_⟩
    · exact fulfilled_run fulfilled es

end

/-! ## What is charged and what is granted -/

/-- The intent costs its items, and its fulfillment grants them: the units of each tool, and the
Vcoins for videos, which the wallet has with the rows of the ledger. -/
structure GrantsCharged (id : String) (intent : PaymentIntent) (items : List PackageItem)
    (db db' : Db) : Prop where
  amount : intent.amountMinor = (items.map PackageItem.amountMinor).sum
  units : ∀ tool, tool ≠ .videoGenerate → db'.unitsGranted id tool = unitsOf tool items
  vcoins : db'.vcoinsGranted id = unitsOf .videoGenerate items
  wallet : Recorded db db'

theorem unitsOf_filter {tool : MediaPackageType} (other : tool ≠ .videoGenerate)
    (items : List PackageItem) :
    unitsOf tool (items.filter fun item => !item.isVideo) = unitsOf tool items := by
  unfold unitsOf
  rw [List.filter_filter]
  congr 2
  refine List.filter_congr fun item _ => ?_
  by_cases same : item.packageType = tool
  · simp [same, PackageItem.isVideo, other]
  · simp [same]

theorem run_recorded (id : String) (db : Db) (es : List Fulfillment) :
    Books db (run (fulfillStep id) db es) := by
  induction es generalizing db with
  | nil => exact Std.Refl.refl db
  | cons e es ih =>
    exact (fulfillPackagePaymentIntent_books e.env e.cause id db).trans (ih _)

/-- The item is granted, not credited. -/
def Catalog.grants (catalog : Catalog) (id : String) : Bool :=
  (catalog id).any fun item => item.packageType ≠ .videoGenerate

theorem purchased_positive {catalog : Catalog} {ids : List String} :
    ∀ item ∈ purchased catalog ids, 0 < item.units := by
  intro item mem
  obtain ⟨id, -, found⟩ := List.mem_filterMap.mp mem
  obtain ⟨row, -, rfl⟩ := Option.map_eq_some_iff.mp found
  exact row.units_pos

/-- The ids of the items that are granted. -/
theorem granted_ids (catalog : Catalog) (ids : List String) :
    ((purchased catalog ids).filter fun item => !item.isVideo).map PackageItem.catalogItemId =
      ids.filter catalog.grants := by
  induction ids with
  | nil => rfl
  | cons id ids ih =>
    cases found : catalog id with
    | none => simpa [purchased, found, Catalog.grants] using ih
    | some item =>
      by_cases video : item.packageType = .videoGenerate
      · simpa [purchased, found, Catalog.grants, PackageItem.isVideo, PackageItem.ofCatalog, video]
          using ih
      · simpa [purchased, found, Catalog.grants, PackageItem.isVideo, PackageItem.ofCatalog, video]
          using ih

/-- After any number of fulfillments of which one returned, what was charged is granted just
when no item but those for videos was selected twice. -/
theorem grantsCharged_iff {catalog : Catalog} {checkout : Except String CheckoutSession}
    {userId intentId : String} {input : PackageIntentInput} {s s' : Store} {id : String}
    {intent : PaymentIntent}
    (created : createPackagePaymentIntent catalog checkout userId intentId input s =
      (.ok (id, intent), s'))
    (fresh : s.findByKey input.idempotencyKey = none) {db : Db} (paid : Paid id intent db)
    {es : List Fulfillment}
    (returned : ¬ EveryStep (fulfillStep id) (fun db e => ¬ e.Returns id db) db es) :
    GrantsCharged id intent (purchased catalog input.packageItemIds) db
        (run (fulfillStep id) db es) ↔
      (input.packageItemIds.filter catalog.grants).Nodup := by
  obtain ⟨amount, sentinel, read, -⟩ := createPackagePaymentIntent_new created fresh
  have fulfilled := fulfilled_of_returned paid sentinel read returned
  generalize bought : purchased catalog input.packageItemIds = items at *
  have ids := granted_ids catalog input.packageItemIds
  rw [bought] at ids
  rw [← ids]
  have positive : ∀ item ∈ items.filter fun item => !item.isVideo, 0 < item.units := by
    intro item mem
    rw [← bought] at mem
    exact purchased_positive item (List.mem_filter.mp mem).1
  constructor
  · intro grants
    by_contra again
    obtain ⟨item, mem, less⟩ := unitsOf_firsts_lt positive [] fun h => again h.1
    have other : item.packageType ≠ .videoGenerate := by
      simpa [PackageItem.isVideo] using (List.mem_filter.mp mem).2
    have same := grants.units item.packageType other
    rw [fulfilled.units] at same
    rw [unitsOf_filter other] at less
    omega
  · intro nodup
    refine ⟨amount, fun tool other => ?_, ?_, (run_recorded id db es).toRecorded⟩
    · rw [fulfilled.units, firsts_eq nodup (by simp), unitsOf_filter other]
    · have total : unitsOf .videoGenerate items = videoVcTotal items := rfl
      rw [Db.vcoinsGranted, fulfilled.recorded, total]
      split
      · rfl
      · rename_i none_positive
        have nonneg : 0 ≤ unitsOf .videoGenerate items :=
          unitsOf_nonneg fun item mem => purchased_positive item (bought ▸ mem)
        rw [Option.map_none, Option.getD_none]
        omega

namespace Sample

def catalog : Catalog := fun id =>
  if id = "images_50" then some ⟨.imageGenerate, 50, 9900, "RUB", true, by decide, by decide⟩
  else if id = "vcoins_100" then
    some ⟨.videoGenerate, 100, 29900, "RUB", true, by decide, by decide⟩
  else none

def selects (packageItemIds : List String) : PackageIntentInput := ⟨packageItemIds, .card, "k1"⟩

def session : CheckoutSession := ⟨"cloudpayments", none, none⟩

def start : Store := ⟨firstMonth, ∅⟩

/-- The store after the checkout of the items. -/
def opened (packageItemIds : List String) : Store :=
  (createPackagePaymentIntent catalog (.ok session) "user_1" "pi_9" (selects packageItemIds)
    start).2

def intentFor (packageItemIds : List String) : PaymentIntent :=
  session.attach (packageIntent "user_1" "RUB" .card (purchased catalog packageItemIds))

/-- Two calls on the intent. -/
def twice : List Fulfillment := [⟨proEnv 5, {}⟩, ⟨proEnv 6, {}⟩]

theorem images_and_vcoins_granted :
    GrantsCharged "pi_9" (intentFor ["images_50", "vcoins_100"])
      (purchased catalog (selects ["images_50", "vcoins_100"]).packageItemIds)
      (opened ["images_50", "vcoins_100"]).db
      (run (fulfillStep "pi_9") (opened ["images_50", "vcoins_100"]).db twice) := by
  have created : createPackagePaymentIntent catalog (.ok session) "user_1" "pi_9"
      (selects ["images_50", "vcoins_100"]) start =
        (.ok ("pi_9", intentFor ["images_50", "vcoins_100"]),
          opened ["images_50", "vcoins_100"]) := rfl
  have paid := createPackagePaymentIntent_paid created rfl (fun _ => rfl) rfl
  have returned : ¬ EveryStep (fulfillStep "pi_9")
      (fun db e => ¬ Fulfillment.Returns "pi_9" db e)
      (opened ["images_50", "vcoins_100"]).db twice := fun none_ => none_.1 rfl
  exact (grantsCharged_iff created rfl paid returned).mpr (by decide)

/-- The same item twice: two are paid for and one is granted. -/
theorem images_twice_granted_once :
    (createPackagePaymentIntent catalog (.ok session) "user_1" "pi_9"
      (selects ["images_50", "images_50"]) start).1 =
        .ok ("pi_9", intentFor ["images_50", "images_50"]) ∧
    (intentFor ["images_50", "images_50"]).amountMinor = 19800 ∧
    ¬ GrantsCharged "pi_9" (intentFor ["images_50", "images_50"])
      (purchased catalog ["images_50", "images_50"]) (opened ["images_50", "images_50"]).db
      (run (fulfillStep "pi_9") (opened ["images_50", "images_50"]).db twice) := by
  refine ⟨rfl, rfl, fun grants => ?_⟩
  have units := grants.units .imageGenerate (by decide)
  have granted :
      (run (fulfillStep "pi_9") (opened ["images_50", "images_50"]).db twice).unitsGranted "pi_9"
        .imageGenerate = 50 := by rfl
  have charged : unitsOf .imageGenerate (purchased catalog ["images_50", "images_50"]) = 100 := by
    rfl
  rw [granted, charged] at units
  cases units

end Sample

end Persai.Billing
