import Persai.Runs
import Persai.Billing.Webhook

/-!
# The wallet agrees with its ledger

The operations that move the balance, in any order and repeated at will: notifications of the
provider, billing events, reads of the subscription, paid transitions, fulfillments, reversals
and the debits of videos.

* `Account.Balanced`: the balance is what the ledger records less the debits, and purchases
  and refunds are recorded with the total of their intent;
* `accountStep_moves`: what one operation does to the balance;
* `wallet_agrees`: the balance, the rows of the ledger and refunds over any run.
-/

namespace Persai.Billing

open Program TxM Runs

/-! ## The books of notifications and events -/

theorem Annotated.books {db db' : Db} (annotated : Annotated db db') : Books db db' := by
  apply books_of_same annotated.ledger
  · unfold Db.balanceVc
    rw [annotated.wallet]
  · exact annotated.paymentIntents

section
variable {env : Env}

theorem applyPaidEvent_books (input : BillingEventInput) (event : PaidEvent)
    (current : Option Subscription) : Within Books (applyPaidEvent env input event current) := by
  unfold applyPaidEvent
  exact within_bind (within_fromExcept _) fun _ => applyActivePaidTransition_books

theorem applyToLifecycle_books (input : BillingEventInput) (current : Option Subscription) :
    Within Books (applyToLifecycle env input current) := by
  unfold applyToLifecycle
  cases input.eventCode with
  | renewalFailed => exact within_bind (within_fromExcept _) fun _ => transition_books
  | paymentRecovered => exact applyPaidEvent_books input _ current
  | paymentActivated => exact applyPaidEvent_books input _ current
  | renewalSucceeded => exact applyPaidEvent_books input _ current
  | paymentReversed => exact within_bind (within_fromExcept _) fun _ => transition_books
  | subscriptionCancelScheduled =>
    exact within_bind (within_fromExcept _) fun _ => transition_books
  | subscriptionResumed => exact within_bind (within_fromExcept _) fun _ => transition_books
  | autoRenewEnabled =>
    exact within_bind (within_fromExcept _) fun _ =>
      within_bind (within_fromExcept _) fun _ => transition_books

theorem apply_books (input : BillingEventInput) : Within Books (apply env input) :=
  fun _ => apply_within Annotated.books fun _ db' => applyToLifecycle_books _ _ db'

section
variable {n : Notification} {db : Db}

theorem handleLifecycle_books (intent : Option (String × PaymentIntent))
    (subscription : Option Subscription) :
    Within Books (handleLifecycle env n intent subscription) := by
  intro db
  by_cases derived : ∃ input, deriveLifecycleEvent env n intent subscription = .ok (some input)
  · obtain ⟨input, derived⟩ := derived
    have applied := @apply_books env input db
    exact applied.trans (@handleLifecycle_of_some env n db _ _ _ derived).1.books
  · rw [handleLifecycle_of_none fun input here => derived ⟨input, here⟩]
    exact Std.Refl.refl db

/-- A notification keeps the items of its intent. -/
theorem notified_videoTotal {id : String} {read : PaymentIntent}
    (found : db.paymentIntents.get? id = some read) (notificationType : NotificationType)
    (payload : Payload) :
    (db.notified env id read notificationType payload).videoTotal = db.videoTotal := by
  unfold Db.notified
  split
  · rfl
  · funext other
    unfold Db.videoTotal
    dsimp only
    rw [KeyedTable.get?_update]
    by_cases same : other = id
    · rw [if_pos same, same, found]
      rfl
    · rw [if_neg same]

theorem notified_recorded {id : String} {read : PaymentIntent}
    (found : db.paymentIntents.get? id = some read) (notificationType : NotificationType)
    (payload : Payload) : Recorded db (db.notified env id read notificationType payload) := by
  have total := @notified_videoTotal env db id read found notificationType payload
  unfold Db.notified at total ⊢
  split at total
  · exact recorded_of_same rfl rfl rfl
  · exact recorded_of_same rfl rfl total

theorem fulfillPackage_books (id : String) (intent : PaymentIntent) :
    Within Books (fulfillPackage env id intent) := by
  unfold fulfillPackage
  refine within_bind (within_read _) fun alreadyFulfilled => ?_
  split
  · exact within_pure _
  · split
    · exact within_throw _
    · exact within_bind (fulfillPackagePaymentIntent_books env _ id) fun _ => within_pure _

/-- What follows the update of the intent. -/
theorem handleIntent_books (id : String) (intent : PaymentIntent)
    (subscription : Option Subscription) :
    Books (db.notified env id intent n.notificationType n.payload)
      (handleIntent env n id intent subscription db).2 := by
  unfold handleIntent
  rw [bind_of_ok (updatePaymentIntent_apply id intent n.notificationType n.payload)]
  split
  · exact fulfillPackage_books id intent _
  · split
    · have reversed := within_bind (reversePackagePaymentIntent_books id) fun _ =>
        @handleLifecycle_books env n (some (id, intent)) subscription
      exact reversed _
    · exact handleLifecycle_books _ _ _

/-- A notification keeps the books, whatever it is about. -/
theorem handle_recorded (n : Notification) (db : Db) : Recorded db (handle env n db).2 := by
  rcases @handle_cases env n db with
    same | ⟨id, intent, resolved, same⟩ | ⟨subscription, -, same⟩
  · rw [same]
    exact recorded_of_same rfl rfl rfl
  · rw [same]
    have updated := @notified_recorded env db id intent (resolvePaymentIntent_found resolved)
      n.notificationType n.payload
    exact updated.trans (handleIntent_books id intent _).toRecorded
  · rw [same]
    exact (handleLifecycle_books _ _ db).toRecorded

end

end

/-! ## Operations on the workspace -/

/-- The tables, and the videos that were debited. -/
structure Account where
  db : Db
  videoDebits : List Int := []

inductive WalletOperation where
  | notification (env : Env) (n : Notification)
  | billingEvent (env : Env) (input : BillingEventInput)
  | readSubscription (env : Env) (cause : Cause)
  | paidTransition (env : Env) (cause : Cause) (input : PaidTransition)
  | createPaymentIntent (id : String) (intent : PaymentIntent)
  | fulfillPackage (env : Env) (cause : Cause) (id : String)
  | reversePackage (id : String)
  | settleVideo (vcCost : Int)

/-- A new intent, under an id of its own. -/
def Db.createPaymentIntent (db : Db) (id : String) (intent : PaymentIntent) : Db :=
  match db.paymentIntents.create id intent with
  | some paymentIntents => { db with paymentIntents }
  | none => db

def Account.settle (s : Account) (vcCost : Int) : Account :=
  match settleVideo vcCost s.db with
  | (.ok _, db) => ⟨db, s.videoDebits ++ [vcCost]⟩
  | (.error _, db) => { s with db }

def accountStep (s : Account) : WalletOperation → Account
  | .notification env n => { s with db := (handle env n s.db).2 }
  | .billingEvent env input => { s with db := (apply env input s.db).2 }
  | .readSubscription env cause => { s with db := (resolveEffectiveSubscription env cause s.db).2 }
  | .paidTransition env cause input =>
    { s with db := (applyActivePaidTransition env cause input s.db).2 }
  | .createPaymentIntent id intent => { s with db := s.db.createPaymentIntent id intent }
  | .fulfillPackage env cause id =>
    { s with db := (fulfillPackagePaymentIntent env cause id s.db).2 }
  | .reversePackage id => { s with db := (reversePackagePaymentIntent id s.db).2 }
  | .settleVideo vcCost => s.settle vcCost

/-- The balance moves by the rows that are recorded and the debits that are made. -/
structure Moves (s s' : Account) : Prop where
  moved : ∃ recorded debits, s'.db.ledger.rows = s.db.ledger.rows ++ recorded ∧
    s'.videoDebits = s.videoDebits ++ debits ∧
    s'.db.balanceVc = s.db.balanceVc + ledgerSum recorded - debits.sum

/-- The ledger explains the balance, and the intents explain the ledger. -/
structure Account.Balanced (s : Account) : Prop where
  balance : s.db.balanceVc = ledgerSum s.db.ledger.rows - s.videoDebits.sum
  accounted : ∀ row ∈ s.db.ledger.rows, s.db.Accounted row

section
variable {s s' : Account}

theorem Account.Balanced.of_moves (balanced : s.Balanced) (moves : Moves s s')
    (accounted : ∀ row ∈ s'.db.ledger.rows, s'.db.Accounted row) : s'.Balanced := by
  obtain ⟨recorded, debits, appended, debited, moved⟩ := moves.moved
  refine ⟨?_, accounted⟩
  rw [moved, balanced.balance, appended, ledgerSum_append, debited, List.sum_append]
  omega

theorem moves_of_recorded {debits : List Int} {db db' : Db} (books : Recorded db db') :
    Moves ⟨db, debits⟩ ⟨db', debits⟩ := by
  obtain ⟨recorded, appended, balance, -⟩ := books.recorded
  refine ⟨recorded, [], appended, (List.append_nil _).symm, ?_⟩
  rw [balance, List.sum_nil, Int.sub_zero]

theorem accounted_of_recorded {db db' : Db} (books : Recorded db db')
    (accounted : ∀ row ∈ db.ledger.rows, db.Accounted row) :
    ∀ row ∈ db'.ledger.rows, db'.Accounted row := by
  obtain ⟨recorded, appended, -, new⟩ := books.recorded
  intro row member
  rw [appended] at member
  have before : db.Accounted row := by
    rcases List.mem_append.mp member with former | later
    · exact accounted row former
    · exact new row later
  exact before.mono fun id total found => by rw [books.videoTotal, found]

/-- A new intent keeps the totals that were there. -/
theorem createPaymentIntent_videoTotal {db : Db} {id other : String} {intent : PaymentIntent}
    {total : Int} (found : db.videoTotal other = some total) :
    (db.createPaymentIntent id intent).videoTotal other = some total := by
  unfold Db.createPaymentIntent
  split
  · rename_i paymentIntents created
    obtain ⟨row, here, -⟩ := Option.bind_eq_some_iff.mp found
    have free := (KeyedTable.create_eq_some_iff.mp created).1
    have differ : other ≠ id := by
      intro same
      rw [same, free] at here
      cases here
    unfold Db.videoTotal at found ⊢
    dsimp only
    rw [KeyedTable.get?_create created, if_neg differ]
    exact found
  · exact found

theorem createPaymentIntent_same (db : Db) (id : String) (intent : PaymentIntent) :
    (db.createPaymentIntent id intent).ledger = db.ledger ∧
      (db.createPaymentIntent id intent).balanceVc = db.balanceVc := by
  unfold Db.createPaymentIntent
  split <;> exact ⟨rfl, rfl⟩

/-- A debit that returns is made in full; a negative one throws. -/
theorem settle_cases (vcCost : Int) :
    s.settle vcCost = s ∨ s.settle vcCost =
      ⟨{ s.db with wallet := some (s.db.balanceVc - vcCost) }, s.videoDebits ++ [vcCost]⟩ := by
  unfold Account.settle settleVideo
  by_cases negative : vcCost < 0
  · obtain ⟨e, thrown⟩ := @debit_of_neg s.db s.db vcCost negative
    left
    unfold transaction
    rw [thrown]
  · have nonneg : 0 ≤ vcCost := by omega
    right
    rw [transaction_ok.mpr ⟨_, debit_apply nonneg, rfl⟩]
    rfl

end

/-- The tables that an operation other than the debit of a video leads to keep the books, or
have a new intent. -/
theorem accountStep_cases (s : Account) (e : WalletOperation) :
    (∃ db, accountStep s e = ⟨db, s.videoDebits⟩ ∧ Recorded s.db db) ∨
    (∃ id intent, accountStep s e = ⟨s.db.createPaymentIntent id intent, s.videoDebits⟩) ∨
    ∃ vcCost, accountStep s e = s.settle vcCost := by
  cases e with
  | notification env n => exact .inl ⟨_, rfl, handle_recorded n s.db⟩
  | billingEvent env input => exact .inl ⟨_, rfl, (apply_books input s.db).toRecorded⟩
  | readSubscription env cause =>
    exact .inl ⟨_, rfl, (resolveEffectiveSubscription_books s.db).toRecorded⟩
  | paidTransition env cause input =>
    exact .inl ⟨_, rfl, (applyActivePaidTransition_books s.db).toRecorded⟩
  | createPaymentIntent id intent => exact .inr (.inl ⟨id, intent, rfl⟩)
  | fulfillPackage env cause id =>
    exact .inl ⟨_, rfl, (fulfillPackagePaymentIntent_books env cause id s.db).toRecorded⟩
  | reversePackage id =>
    exact .inl ⟨_, rfl, (reversePackagePaymentIntent_books id s.db).toRecorded⟩
  | settleVideo vcCost => exact .inr (.inr ⟨vcCost, rfl⟩)

/-- What one operation does to the balance. -/
theorem accountStep_moves (s : Account) (e : WalletOperation) : Moves s (accountStep s e) := by
  rcases accountStep_cases s e with ⟨db, after, books⟩ | ⟨id, intent, after⟩ | ⟨vcCost, after⟩
  · rw [after]
    exact moves_of_recorded books
  · obtain ⟨ledger, balance⟩ := createPaymentIntent_same s.db id intent
    rw [after]
    refine ⟨[], [], ?_, (List.append_nil _).symm, ?_⟩
    · rw [ledger, List.append_nil]
    · rw [balance]
      simp [ledgerSum]
  · rw [after]
    rcases @settle_cases s vcCost with same | debited
    · rw [same]
      exact ⟨[], [], by simp, by simp, by simp [ledgerSum]⟩
    · rw [debited]
      exact ⟨[], [vcCost], by simp, rfl, by simp [ledgerSum, Db.balanceVc]⟩

theorem accountStep_balanced (s : Account) (e : WalletOperation) (balanced : s.Balanced) :
    (accountStep s e).Balanced := by
  apply balanced.of_moves (accountStep_moves s e)
  rcases accountStep_cases s e with ⟨db, after, books⟩ | ⟨id, intent, after⟩ | ⟨vcCost, after⟩
  · rw [after]
    exact accounted_of_recorded books balanced.accounted
  · rw [after]
    dsimp only
    rw [(createPaymentIntent_same s.db id intent).1]
    intro row member
    exact (balanced.accounted row member).mono fun _ _ => createPaymentIntent_videoTotal
  · rw [after]
    rcases @settle_cases s vcCost with same | debited
    · rw [same]
      exact balanced.accounted
    · rw [debited]
      exact balanced.accounted

/-! ## Runs -/

/-- The operation records the row of the key. -/
def Records (k : LedgerKind × ReferenceKey) (s : Account) (e : WalletOperation) : Prop :=
  s.db.ledger.get? k = none ∧ ((accountStep s e).db.ledger.get? k).isSome

/-- The purchase and the refund of an intent, once both are recorded, cancel out. -/
def Account.RefundsCancel (s : Account) : Prop :=
  ∀ id purchase refund,
    s.db.ledger.get? (.packagePurchase, .paymentIntent id) = some purchase →
    s.db.ledger.get? (.packageRefund, .paymentIntent id) = some refund →
    purchase.amountVc + refund.amountVc = 0

/-- A workspace whose wallet is still to be opened. -/
def Account.unopened (db : Db) : Account := ⟨{ db with wallet := none, ledger := ∅ }, []⟩

theorem Account.balanced_unopened (db : Db) : (Account.unopened db).Balanced := by
  refine ⟨rfl, ?_⟩
  intro row member
  cases member

theorem Account.Balanced.refundsCancel {s : Account} (balanced : s.Balanced) :
    s.RefundsCancel := by
  intro id purchase refund purchased refunded
  have bought : s.db.videoTotal id = some purchase.amountVc :=
    balanced.accounted _ (KeyedTable.get?_eq_some_iff.mp purchased)
  have returned : s.db.videoTotal id = some (-refund.amountVc) :=
    balanced.accounted _ (KeyedTable.get?_eq_some_iff.mp refunded)
  have same := Option.some.inj (bought.symm.trans returned)
  omega

/-- A row once recorded stays. -/
theorem accountStep_keeps {k : LedgerKind × ReferenceKey} (s : Account) (e : WalletOperation)
    (recorded : (s.db.ledger.get? k).isSome) : ((accountStep s e).db.ledger.get? k).isSome := by
  obtain ⟨row, found⟩ := Option.isSome_iff_exists.mp recorded
  obtain ⟨rows, debits, appended, -, -⟩ := (accountStep_moves s e).moved
  apply Option.isSome_iff_exists.mpr
  refine ⟨row, KeyedTable.get?_eq_some_iff.mpr ?_⟩
  rw [appended]
  exact List.mem_append_left _ (KeyedTable.get?_eq_some_iff.mp found)

theorem records_atMostOnce (k : LedgerKind × ReferenceKey) (s : Account)
    (es : List WalletOperation) : AtMostOnce accountStep (Records k) s es := by
  apply atMostOnce_of_stable (I := fun s => (s.db.ledger.get? k).isSome)
  · exact fun s e records => records.2
  · exact accountStep_keeps
  · intro s e recorded records
    rw [records.1] at recorded
    cases recorded

/-- Whatever is granted, bought, refunded and debited, in whatever order and however often:
the balance is what the ledger records less the debits, each operation moves it by what it
records and debits, each key is recorded at most once, and refunds cancel their purchases. -/
theorem wallet_agrees (db : Db) (es : List WalletOperation) :
    EveryState accountStep
      (fun s => s.db.balanceVc = ledgerSum s.db.ledger.rows - s.videoDebits.sum)
      (Account.unopened db) es ∧
    EveryStep accountStep (fun s e => Moves s (accountStep s e)) (Account.unopened db) es ∧
    (∀ k, AtMostOnce accountStep (Records k) (Account.unopened db) es) ∧
    EveryState accountStep Account.RefundsCancel (Account.unopened db) es := by
  have balanced : EveryState accountStep Account.Balanced (Account.unopened db) es :=
    everyState_of_preserved (C := fun _ _ => True)
      (fun s e balanced _ => accountStep_balanced s e balanced) (Account.balanced_unopened db)
      (everyStep_of_forall (fun _ _ => trivial) _ _)
  refine ⟨?_, ?_, ?_, ?_⟩
  · exact everyState_mono (fun s balanced => balanced.balance) balanced
  · exact everyStep_of_forall accountStep_moves _ _
  · exact fun k => records_atMostOnce k _ _
  · exact everyState_mono (fun s balanced => balanced.refundsCancel) balanced

end Persai.Billing
