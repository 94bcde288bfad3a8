import Persai.Billing.WalletLedger

/-!
# The status of a payment intent

A notification reads its intent, and later writes the status that it makes of what it read.
Others may be read and written in between. The provider repeats and reorders them at will.

* `handle_paymentIntents`: handling a notification writes its intent in that way;
* `neverRegresses_iff`: the runs in which a reversed intent stays settled and a succeeded one
  is at most reversed.
-/

namespace Persai.Billing

open Program TxM Runs

/-- A notification that has read its intent. -/
structure Reading where
  env : Env
  notification : Notification
  id : String
  intent : PaymentIntent

/-- The tables, and the notifications that have read their intents and not written them. -/
structure Inbox where
  db : Db
  readings : List Reading := []

inductive InboxEvent where
  /-- A notification arrives and reads its intent. -/
  | receive (env : Env) (n : Notification)
  /-- One of the readings goes on to write it. -/
  | update (index : Nat)

def Reading.write (r : Reading) (db : Db) : Db :=
  db.notified r.env r.id r.intent r.notification.notificationType r.notification.payload

def inboxStep (s : Inbox) : InboxEvent → Inbox
  | .receive env n =>
    match resolvePaymentIntent n.payload s.db with
    | .ok (some (id, intent)) => { s with readings := s.readings ++ [⟨env, n, id, intent⟩] }
    | _ => s
  | .update index =>
    match s.readings[index]? with
    | some r => ⟨r.write s.db, s.readings.eraseIdx index⟩
    | none => s

/-- A notification that is handled without another in between receives and updates. -/
theorem handle_paymentIntents (env : Env) (n : Notification) (db : Db)
    (not_check : n.notificationType ≠ .check) :
    (handle env n db).2.paymentIntents =
      (run inboxStep ⟨db, []⟩ [.receive env n, .update 0]).db.paymentIntents := by
  simp only [run_cons, run_nil, inboxStep]
  match resolved : resolvePaymentIntent n.payload db with
  | .error e =>
    rw [handle_of_error not_check resolved]
    rfl
  | .ok (some (id, intent)) =>
    rw [handle_of_intent not_check resolved, (handleIntent_books id intent _).paymentIntents]
    rfl
  | .ok none =>
    rw [handle_of_subscription not_check resolved]
    cases (resolveSubscription n.payload none db).1 with
    | none => rfl
    | some subscription =>
      dsimp only
      rw [(handleLifecycle_books _ _ db).paymentIntents]
      rfl

/-! ## What a step does to the status -/

def Db.statusOf (db : Db) (id : String) : Option IntentStatus :=
  (db.paymentIntents.get? id).map PaymentIntent.status

/-- The status that the reading will write. -/
def Reading.next (r : Reading) : Option IntentStatus :=
  resolveNextPaymentIntentStatus r.intent r.notification.notificationType r.notification.payload

/-- The reading that an event lets go on. -/
def InboxEvent.writes (e : InboxEvent) (s : Inbox) : Option Reading :=
  match e with
  | .receive _ _ => none
  | .update index => s.readings[index]?

/-- The intent has a status that is `good`. -/
def Inbox.StatusIn (good : IntentStatus → Prop) (id : String) (s : Inbox) : Prop :=
  ∃ status, s.db.statusOf id = some status ∧ good status

/-- What the event writes to the intent is `good`. -/
def InboxEvent.WritesIn (good : IntentStatus → Prop) (id : String) (s : Inbox)
    (e : InboxEvent) : Prop :=
  ∀ r ∈ e.writes s, r.id = id → ∀ next ∈ r.next, good next

section
variable {id : String} {s : Inbox} {e : InboxEvent}

theorem inboxStep_db : (inboxStep s e).db = match e.writes s with
    | some r => r.write s.db
    | none => s.db := by
  cases e with
  | receive env n =>
    simp only [inboxStep, InboxEvent.writes]
    split <;> rfl
  | update index =>
    simp only [inboxStep, InboxEvent.writes]
    cases s.readings[index]? <;> rfl

theorem statusOf_write (r : Reading) (db : Db) : (r.write db).statusOf id =
    if r.id = id then (db.statusOf id).map fun status => r.next.getD status
    else db.statusOf id := by
  unfold Reading.write Db.notified Reading.next Db.statusOf
  cases resolveNextPaymentIntentStatus r.intent r.notification.notificationType
      r.notification.payload with
  | none => cases db.paymentIntents.get? id <;> simp
  | some next =>
    dsimp only
    rw [KeyedTable.get?_update]
    by_cases same : r.id = id
    · rw [if_pos same.symm, if_pos same, Option.map_map, Option.map_map]
      rfl
    · rw [if_neg fun same' => same same'.symm, if_neg same]

/-- A step keeps a good status just where what it writes is good. -/
theorem statusIn_step {good : IntentStatus → Prop} (here : s.StatusIn good id) :
    (inboxStep s e).StatusIn good id ↔ e.WritesIn good id s := by
  obtain ⟨status, found, isGood⟩ := here
  unfold Inbox.StatusIn InboxEvent.WritesIn
  rw [inboxStep_db]
  cases e.writes s with
  | none =>
    dsimp only
    refine iff_of_true ⟨status, found, isGood⟩ ?_
    intro r absent
    cases absent
  | some r =>
    dsimp only
    rw [statusOf_write, found]
    by_cases same : r.id = id
    · rw [if_pos same]
      cases next : r.next with
      | none => simp [same, next, isGood]
      | some status' => simp [same, next]
    · rw [if_neg same]
      simp [same, isGood]

end

/-! ## Runs -/

/-- What a reversed intent may still become: neither succeeded nor failed nor pending. -/
def IntentStatus.KeepsReversed : IntentStatus → Prop
  | .reversed | .canceled | .expired => True
  | .succeeded | .failed | .created | .checkoutReady | .pendingConfirmation => False

/-- What a succeeded intent may still become. -/
def IntentStatus.KeepsSucceeded : IntentStatus → Prop
  | .succeeded | .reversed => True
  | .failed | .canceled | .expired | .created | .checkoutReady | .pendingConfirmation => False

/-- Once the intent is reversed it is never again succeeded, failed or pending, and once it is
succeeded it becomes at most reversed. -/
def NeverRegresses (id : String) (s : Inbox) (es : List InboxEvent) : Prop :=
  Since inboxStep (Inbox.StatusIn (· = .reversed) id)
      (Inbox.StatusIn IntentStatus.KeepsReversed id) s es ∧
    Since inboxStep (Inbox.StatusIn (· = .succeeded) id)
      (Inbox.StatusIn IntentStatus.KeepsSucceeded id) s es

/-- The notification is none of a payment or its failure. -/
def Reading.SparesReversed (r : Reading) : Prop :=
  r.notification.notificationType ≠ .pay ∧ r.notification.notificationType ≠ .confirm ∧
    r.notification.notificationType ≠ .fail

/-- The notification is none of a failure or an authorization, and if it is a cancellation, it
has read the intent as succeeded. -/
def Reading.SparesSucceeded (r : Reading) : Prop :=
  r.notification.notificationType ≠ .fail ∧
    (r.notification.notificationType = .pay → r.notification.payload.authorized = false) ∧
    (r.notification.notificationType = .cancel → r.intent.status = .succeeded)

theorem next_keepsReversed (r : Reading) :
    (∀ next ∈ r.next, next.KeepsReversed) ↔ r.SparesReversed := by
  unfold Reading.next Reading.SparesReversed resolveNextPaymentIntentStatus
  cases r.notification.notificationType with
  | check | fail | confirm | refund | recurrent => simp [IntentStatus.KeepsReversed]
  | pay =>
    cases r.notification.payload.authorized <;> simp [IntentStatus.KeepsReversed]
  | cancel =>
    by_cases succeeded : r.intent.status = .succeeded <;>
      simp [succeeded, IntentStatus.KeepsReversed]

theorem next_keepsSucceeded (r : Reading) :
    (∀ next ∈ r.next, next.KeepsSucceeded) ↔ r.SparesSucceeded := by
  unfold Reading.next Reading.SparesSucceeded resolveNextPaymentIntentStatus
  cases r.notification.notificationType with
  | check | fail | confirm | refund | recurrent => simp [IntentStatus.KeepsSucceeded]
  | pay =>
    cases r.notification.payload.authorized <;> simp [IntentStatus.KeepsSucceeded]
  | cancel =>
    by_cases succeeded : r.intent.status = .succeeded <;>
      simp [succeeded, IntentStatus.KeepsSucceeded]

/-- The notification that goes on to write the intent, if one does, is `spared` by it. -/
def WritesOnly (spares : Reading → Prop) (id : String) (s : Inbox) (e : InboxEvent) : Prop :=
  ∀ r ∈ e.writes s, r.id = id → spares r

/-- The status regresses just where, of a reversed intent, a payment or its failure is written,
or of a succeeded one a failure, an authorization, or a cancellation that has read it before. -/
theorem neverRegresses_iff (id : String) (s : Inbox) (es : List InboxEvent) :
    NeverRegresses id s es ↔
      SinceStep inboxStep (Inbox.StatusIn (· = .reversed) id)
          (WritesOnly Reading.SparesReversed id) s es ∧
        SinceStep inboxStep (Inbox.StatusIn (· = .succeeded) id)
          (WritesOnly Reading.SparesSucceeded id) s es := by
  apply and_congr
  · apply since_iff_of_same
    · rintro s ⟨status, found, rfl⟩
      exact ⟨_, found, trivial⟩
    · intro s e here
      rw [statusIn_step here]
      exact forall_congr' fun r => forall_congr' fun _ => forall_congr' fun _ =>
        next_keepsReversed r
  · apply since_iff_of_same
    · rintro s ⟨status, found, rfl⟩
      exact ⟨_, found, trivial⟩
    · intro s e here
      rw [statusIn_step here]
      exact forall_congr' fun r => forall_congr' fun _ => forall_congr' fun _ =>
        next_keepsSucceeded r

/-- A workspace with one intent, which was paid. -/
def onePurchase : Db where
  paymentIntents := ⟨[("pi_1", {
    userId := some "user_1"
    targetPlanCode := "pro"
    action := .newPurchase
    status := .succeeded
    paymentMethodClass := .card
    amountMinor := 99000
    currency := "RUB"
    billingPeriod := .month
    providerPaymentRef := some "504"
    metadata := {} })], by simp⟩

/-- It is refunded, and the notification of its payment is delivered once more. -/
def paidAgain : List InboxEvent := [
  .receive (proEnv 1) { notificationType := .refund, payload := {
    transactionId := some "505", originalTransactionId := some "504" }, digest := "c3" },
  .update 0,
  .receive (proEnv 2) { notificationType := .pay, payload := {
    transactionId := some "504", status := some "Completed" }, digest := "a1" },
  .update 0]

/-- The refunded intent has succeeded. -/
theorem paidAgain_regresses : ¬ NeverRegresses "pi_1" ⟨onePurchase, []⟩ paidAgain := by
  rintro ⟨since, -⟩
  have reversed : (run inboxStep ⟨onePurchase, []⟩ (paidAgain.take 2)).StatusIn (· = .reversed)
      "pi_1" := ⟨_, rfl, rfl⟩
  have fromThen := since.2.2.1 reversed
  obtain ⟨status, found, kept⟩ := fromThen.last
  have succeeded : (run inboxStep ⟨onePurchase, []⟩ paidAgain).db.statusOf "pi_1" =
      some .succeeded := by rfl
  cases succeeded.symm.trans found
  exact kept

end Persai.Billing
