import Persai.Billing.BillingEvents

/-!
# The paid period under billing events

An event that starts a paid period writes the period that it states, whatever is stored.

* `apply_startsPeriod`, `apply_startsNone`: what an event does to the paid period, its
  lifecycle events and the ledger;
* `periodNotBefore_iff`: the runs of events in which the period never goes back.
-/

namespace Persai.Billing

open Program TxM Runs

/-- The paid period that applying the event starts. -/
def BillingEventInput.startsPeriod (input : BillingEventInput) (env : Env) (db : Db) :
    Option PaidPeriod :=
  (input.handed env db).bind fun lifecycleInput =>
    lifecycleInput.paidEvent.bind fun event =>
      match lifecycleInput.paidTransition event db.subscription with
      | .ok transition => transition.startedPeriod env db
      | .error _ => none

/-- The lifecycle event of a paid period. -/
def LifecycleEvent.isPaid (e : LifecycleEvent) : Bool :=
  e.eventCode = .paymentRecovered || e.eventCode = .paymentActivated ||
    e.eventCode = .renewalSucceeded

/-- A paid period was started: the row, its lifecycle event, and at most the grant of the
period. -/
structure StartsPeriod (period : PaidPeriod) (db db' : Db) : Prop where
  row : ∃ s, db'.subscription = some s ∧ s.status = .active ∧
    s.currentPeriodStartedAt = some period.startedAt ∧
    s.currentPeriodEndsAt = some period.endsAt
  events : ∃ e, db'.lifecycleEvents = db.lifecycleEvents ++ [e] ∧ e.isPaid = true ∧
    e.nextPeriodStartedAt = some period.startedAt ∧ e.nextPeriodEndsAt = some period.endsAt
  ledger : db'.ledger.rows = db.ledger.rows ∨ ∃ entry,
    db'.ledger.rows = db.ledger.rows ++ [((.monthlyGrant, .period period.startedAt), entry)]

/-- No paid period was started: an active subscription was active before, in the same
period. -/
structure StartsNone (db db' : Db) : Prop where
  row : ∀ s', db'.subscription = some s' → s'.status = .active → ∃ s,
    db.subscription = some s ∧ s.status = .active ∧
    s'.currentPeriodStartedAt = s.currentPeriodStartedAt ∧
    s'.currentPeriodEndsAt = s.currentPeriodEndsAt
  events : ∃ others, db'.lifecycleEvents = db.lifecycleEvents ++ others ∧
    others.all fun e => !e.isPaid
  ledger : db'.ledger.rows = db.ledger.rows

theorem StartsNone.refl (db : Db) : StartsNone db db where
  row s row active := ⟨s, row, active, rfl, rfl⟩
  events := ⟨[], by simp⟩
  ledger := rfl

theorem StartsNone.trans {db db' db'' : Db} (first : StartsNone db db')
    (second : StartsNone db' db'') : StartsNone db db'' where
  row := by
    intro s'' row active
    obtain ⟨s', row', active', started', ended'⟩ := second.row s'' row active
    obtain ⟨s, row, active, started, ended⟩ := first.row s' row' active'
    exact ⟨s, row, active, started'.trans started, ended'.trans ended⟩
  events := by
    obtain ⟨others, appended, unpaid⟩ := first.events
    obtain ⟨others', appended', unpaid'⟩ := second.events
    refine ⟨others ++ others', ?_, ?_⟩
    · rw [appended', appended, List.append_assoc]
    · rw [List.all_append, unpaid, unpaid']
      rfl
  ledger := second.ledger.trans first.ledger

theorem Annotated.row {db db' : Db} (annotated : Annotated db db') {s' : Subscription}
    (row : db'.subscription = some s') :
    ∃ s, db.subscription = some s ∧ s'.core = s.core := by
  have same := annotated.subscription
  rw [row, Option.map_some] at same
  obtain ⟨s, row, core⟩ := Option.map_eq_some_iff.mp same.symm
  exact ⟨s, row, core.symm⟩

theorem Annotated.symm {db db' : Db} (annotated : Annotated db db') : Annotated db' db :=
  ⟨annotated.subscription.symm, annotated.lifecycleEvents.symm, annotated.paymentIntents.symm,
    annotated.packageGrants.symm, annotated.wallet.symm, annotated.ledger.symm⟩

theorem Annotated.startsNone {db db' : Db} (annotated : Annotated db db') :
    StartsNone db db' where
  row := by
    intro s' row active
    obtain ⟨s, row, core⟩ := annotated.row row
    have status := congrArg Subscription.status core
    have started := congrArg Subscription.currentPeriodStartedAt core
    have ended := congrArg Subscription.currentPeriodEndsAt core
    exact ⟨s, row, status.symm.trans active, started, ended⟩
  events := ⟨[], by rw [annotated.lifecycleEvents, List.append_nil], rfl⟩
  ledger := by rw [annotated.ledger]

theorem StartsPeriod.annotated {period : PaidPeriod} {db db₁ db₂ db₃ : Db}
    (before : Annotated db db₁) (starts : StartsPeriod period db₁ db₂)
    (after : Annotated db₂ db₃) : StartsPeriod period db db₃ where
  row := by
    obtain ⟨s, row, active, started, ended⟩ := starts.row
    obtain ⟨s', row', core⟩ := after.symm.row row
    have status := congrArg Subscription.status core
    have startedAt := congrArg Subscription.currentPeriodStartedAt core
    have endsAt := congrArg Subscription.currentPeriodEndsAt core
    exact ⟨s', row', status.symm.trans active, startedAt.symm.trans started,
      endsAt.symm.trans ended⟩
  events := by
    obtain ⟨e, appended, states⟩ := starts.events
    exact ⟨e, by rw [after.lifecycleEvents, appended, before.lifecycleEvents], states⟩
  ledger := by
    rw [after.ledger, ← before.ledger]
    exact starts.ledger

section
variable {env : Env} {cause : Cause} {db : Db}

/-! ## Lifecycle operations -/

/-- A transition that keeps the status and the period, or leaves the active status. -/
theorem transition_startsNone {announcement : Announcement} {decide : Subscription → Decision}
    (keeps : ∀ current updated eventCodes, decide current = .ok (some (updated, eventCodes)) →
      (∀ previous, (eventCodes.map fun code => lifecycleEvent cause code previous updated).all
        fun e => !e.isPaid) ∧
      (updated.status = .active → current.status = .active ∧
        updated.currentPeriodStartedAt = current.currentPeriodStartedAt ∧
        updated.currentPeriodEndsAt = current.currentPeriodEndsAt)) :
    StartsNone db (transition env cause announcement decide db).2 := by
  rcases @transition_cases env cause announcement decide db with
    same | ⟨current, updated, eventCodes, row, decided, after⟩
  · rw [same]
    exact StartsNone.refl db
  · obtain ⟨unpaid, keeps⟩ := keeps current updated eventCodes decided
    rw [after]
    refine ⟨?_, ⟨_, rfl, unpaid _⟩, rfl⟩
    intro s' found active
    cases found
    obtain ⟨active, started, ended⟩ := keeps active
    exact ⟨current, row, active, started, ended⟩

theorem startPaidGrace_startsNone (override : Option String) :
    StartsNone db (startPaidGrace env cause override db).2 := by
  apply transition_startsNone
  intro current updated eventCodes decided
  split at decided
  · cases decided
  · obtain ⟨-, -, written⟩ := map_ok.mp decided
    cases written
    exact ⟨fun _ => rfl, fun active => by cases active⟩

theorem applyImmediatePaidFallback_startsNone :
    StartsNone db (applyImmediatePaidFallback env cause db).2 := by
  apply transition_startsNone
  intro current updated eventCodes decided
  obtain ⟨planCode, -, written⟩ := map_ok.mp decided
  cases written
  exact ⟨fun _ => rfl, fun active => by cases active⟩

theorem schedulePaidCancellationAtPeriodEnd_startsNone :
    StartsNone db (schedulePaidCancellationAtPeriodEnd env cause db).2 := by
  apply transition_startsNone
  intro current updated eventCodes decided
  split at decided
  · cases decided
  split at decided
  · cases decided
  cases decided
  exact ⟨fun _ => rfl, fun active => ⟨active, rfl, rfl⟩⟩

theorem resumePaidAutoRenew_startsNone
    (billingProvider providerCustomerRef providerSubscriptionRef : Option String) :
    StartsNone db (resumePaidAutoRenew env cause billingProvider providerCustomerRef
      providerSubscriptionRef db).2 := by
  apply transition_startsNone
  intro current updated eventCodes decided
  split at decided
  · cases decided
  split at decided
  · cases decided
  cases decided
  exact ⟨fun _ => rfl, fun active => ⟨active, rfl, rfl⟩⟩

theorem enablePaidAutoRenew_startsNone (billingProvider providerCustomerRef : Option String)
    (providerSubscriptionRef : String) :
    StartsNone db (enablePaidAutoRenew env cause billingProvider providerCustomerRef
      providerSubscriptionRef db).2 := by
  apply transition_startsNone
  intro current updated eventCodes decided
  split at decided
  · cases decided
  split at decided
  · cases decided
  cases decided
  exact ⟨fun _ => rfl, fun active => ⟨active, rfl, rfl⟩⟩

theorem withWallet_startsNone : StartsNone db db.withWallet :=
  ⟨(StartsNone.refl db).row, ⟨[], by simp [Db.withWallet]⟩, rfl⟩

theorem applyActivePaidTransition_startsPeriod {input : PaidTransition} {period : PaidPeriod}
    (started : input.startedPeriod env db = some period) :
    StartsPeriod period db (applyActivePaidTransition env cause input db).2 := by
  have row : ∀ previous, (input.row env period previous).status = .active ∧
      (input.row env period previous).currentPeriodStartedAt = some period.startedAt ∧
      (input.row env period previous).currentPeriodEndsAt = some period.endsAt := by
    intro previous
    cases previous <;> exact ⟨rfl, rfl, rfl⟩
  have paid : ∀ previous, (lifecycleEvent cause input.event.code previous
      (input.row env period previous)).isPaid = true := by
    intro previous
    cases event : input.event <;> simp [LifecycleEvent.isPaid, lifecycleEvent, PaidEvent.code]
  obtain ⟨active, startedAt, endsAt⟩ := row db.subscription
  obtain ⟨plan, -, -, ⟨-, outcome⟩ | ⟨-, ledger, created, outcome⟩⟩ :=
    @PaidTransition.applyActivePaidTransition_started env cause input db period started
  · rw [outcome]
    exact ⟨⟨_, rfl, active, startedAt, endsAt⟩, ⟨_, rfl, paid _, startedAt, endsAt⟩, .inl rfl⟩
  · rw [outcome]
    exact ⟨⟨_, rfl, active, startedAt, endsAt⟩, ⟨_, rfl, paid _, startedAt, endsAt⟩,
      .inr ⟨_, (KeyedTable.create_eq_some_iff.mp created).2⟩⟩

theorem applyActivePaidTransition_startsNone {input : PaidTransition}
    (started : input.startedPeriod env db = none) :
    StartsNone db (applyActivePaidTransition env cause input db).2 := by
  rcases @PaidTransition.applyActivePaidTransition_not_started env cause input db started with
    outcome | outcome
  · rw [outcome]
    exact StartsNone.refl db
  · rw [outcome]
    exact withWallet_startsNone

end

/-! ## Events -/

section
variable {env : Env} {input : BillingEventInput} {db : Db}

theorem applyToLifecycle_paid {event : PaidEvent} (paid : input.paidEvent = some event)
    (current : Option Subscription) :
    applyToLifecycle env input current = applyPaidEvent env input event current := by
  unfold BillingEventInput.paidEvent at paid
  unfold applyToLifecycle
  split at paid <;> rename_i code <;> cases paid <;> rw [code]

/-- A computation that fails or goes on as `f`. -/
theorem fromExcept_bind_startsNone {α : Type} {x : Except (Fault BillingError) α}
    {f : α → Call Unit} (rest : ∀ a, StartsNone db (f a db).2) :
    StartsNone db ((fromExcept x >>= f) db).2 := by
  cases x with
  | error e => exact StartsNone.refl db
  | ok a => exact rest a

theorem applyToLifecycle_unpaid (unpaid : input.paidEvent = none)
    (current : Option Subscription) : StartsNone db (applyToLifecycle env input current db).2 := by
  unfold BillingEventInput.paidEvent at unpaid
  unfold applyToLifecycle
  cases code : input.eventCode with
  | paymentRecovered | paymentActivated | renewalSucceeded => rw [code] at unpaid; cases unpaid
  | renewalFailed => exact fromExcept_bind_startsNone fun _ => startPaidGrace_startsNone _
  | paymentReversed =>
    exact fromExcept_bind_startsNone fun _ => applyImmediatePaidFallback_startsNone
  | subscriptionCancelScheduled =>
    exact fromExcept_bind_startsNone fun _ => schedulePaidCancellationAtPeriodEnd_startsNone
  | subscriptionResumed =>
    exact fromExcept_bind_startsNone fun _ => resumePaidAutoRenew_startsNone _ _ _
  | autoRenewEnabled =>
    exact fromExcept_bind_startsNone fun _ =>
      fromExcept_bind_startsNone fun _ => enablePaidAutoRenew_startsNone _ _ _

theorem startedPeriod_annotated {transition : PaidTransition} {db' : Db}
    (annotated : Annotated db db') :
    transition.startedPeriod env db' = transition.startedPeriod env db := by
  unfold PaidTransition.startedPeriod
  rw [annotated.ledger]

/-- An event that starts a period writes it, with at most its grant. -/
theorem apply_startsPeriod {period : PaidPeriod}
    (starts : input.startsPeriod env db = some period) :
    StartsPeriod period db (apply env input db).2 := by
  obtain ⟨lifecycleInput, handed, starts⟩ := Option.bind_eq_some_iff.mp starts
  obtain ⟨event, paid, starts⟩ := Option.bind_eq_some_iff.mp starts
  have applied := @apply_handedOn env input db
  rw [handed] at applied
  cases applied with
  | applies before after =>
    rw [applyToLifecycle_paid paid, applyPaidEvent] at after
    split at starts
    · rename_i transition ok
      rw [ok] at after
      rw [← startedPeriod_annotated before] at starts
      exact (applyActivePaidTransition_startsPeriod starts).annotated before after
    · cases starts

/-- An event that starts none leaves the period of an active subscription. -/
theorem apply_startsNone (starts : input.startsPeriod env db = none) :
    StartsNone db (apply env input db).2 := by
  have applied := @apply_handedOn env input db
  generalize handed : input.handed env db = lifecycleInput at applied
  cases applied with
  | annotates annotated => exact annotated.startsNone
  | @applies lifecycleInput db' before after =>
    apply before.startsNone.trans
    apply StartsNone.trans _ after.startsNone
    rw [BillingEventInput.startsPeriod, handed, Option.bind_some] at starts
    cases paid : lifecycleInput.paidEvent with
    | none => exact applyToLifecycle_unpaid paid _
    | some event =>
      rw [paid, Option.bind_some] at starts
      rw [applyToLifecycle_paid paid, applyPaidEvent]
      match ok : lifecycleInput.paidTransition event db.subscription with
      | .error e => exact StartsNone.refl db'
      | .ok transition =>
        rw [ok] at starts
        exact applyActivePaidTransition_startsNone ((startedPeriod_annotated before).trans starts)

end

/-! ## Runs -/

structure BillingEventStep where
  env : Env
  input : BillingEventInput

def billingEventStep (db : Db) (e : BillingEventStep) : Db := (apply e.env e.input db).2

/-- A date that is stored is not replaced by an earlier one, or by none. -/
def NotBefore (stored next : Option Int) : Prop :=
  ∀ t, stored = some t → ∃ t', next = some t' ∧ t ≤ t'

/-- Where the subscription is active before and after the event, neither end of its period
goes back. -/
def PeriodNotBefore (db : Db) (e : BillingEventStep) : Prop :=
  ∀ s s', db.subscription = some s → s.status = .active →
    (billingEventStep db e).subscription = some s' → s'.status = .active →
    NotBefore s.currentPeriodStartedAt s'.currentPeriodStartedAt ∧
      NotBefore s.currentPeriodEndsAt s'.currentPeriodEndsAt

/-- A period that the event starts lies at or after the one of an active subscription. -/
def StartsNoEarlierPeriod (db : Db) (e : BillingEventStep) : Prop :=
  ∀ s period, db.subscription = some s → s.status = .active →
    e.input.startsPeriod e.env db = some period →
    NotBefore s.currentPeriodStartedAt (some period.startedAt) ∧
      NotBefore s.currentPeriodEndsAt (some period.endsAt)

theorem periodNotBefore_step (db : Db) (e : BillingEventStep) :
    PeriodNotBefore db e ↔ StartsNoEarlierPeriod db e := by
  cases starts : e.input.startsPeriod e.env db with
  | some period =>
    have started := apply_startsPeriod starts
    obtain ⟨s', row', active', startedAt, endsAt⟩ := started.row
    constructor
    · intro notBefore s period' row active starts'
      rw [starts] at starts'
      cases starts'
      rw [← startedAt, ← endsAt]
      exact notBefore s s' row active row' active'
    · intro noEarlier s s'' row active row'' _
      have same : s' = s'' := Option.some.inj (row'.symm.trans row'')
      rw [← same, startedAt, endsAt]
      exact noEarlier s period row active starts
  | none =>
    have kept := apply_startsNone starts
    apply iff_of_true
    · intro s s' row active row' active'
      obtain ⟨s₁, row₁, -, startedAt, endsAt⟩ := kept.row s' row' active'
      have same : s = s₁ := Option.some.inj (row.symm.trans row₁)
      rw [startedAt, endsAt, ← same]
      exact ⟨fun t stored => ⟨t, stored, Int.le_refl t⟩, fun t stored => ⟨t, stored, Int.le_refl t⟩⟩
    · intro s period row active starts'
      rw [starts] at starts'
      cases starts'

/-- The stored period never goes back just where every event that starts a period states one
no earlier than the active one: the period is written without a comparison. -/
theorem periodNotBefore_iff (db : Db) (es : List BillingEventStep) :
    EveryStep billingEventStep PeriodNotBefore db es ↔
      EveryStep billingEventStep StartsNoEarlierPeriod db es :=
  everyStep_iff_of_preserved (I := fun _ => True) (fun _ _ _ _ => trivial)
    (fun db e _ => periodNotBefore_step db e) trivial

/-- A provider event of the plan `pro` for the month that starts at `startedAt`. -/
def monthPaid (eventCode : BillingEventCode) (eventRef : String) (startedAt : Int) :
    BillingEventInput where
  source := .provider
  eventCode := eventCode
  eventRef := some eventRef
  paidPlanCode := some "pro"
  currentPeriodStartedAt := some (.iso startedAt)
  currentPeriodEndsAt := some (.iso (startedAt + 2592000000))

/-- The renewal of the second month is delivered after that of the third. -/
def lateRenewal : List BillingEventStep := [
  ⟨proEnv 0, monthPaid .paymentActivated "first" 0⟩,
  ⟨proEnv 5184000000, monthPaid .renewalSucceeded "third" 5184000000⟩,
  ⟨proEnv 5184000001, monthPaid .renewalSucceeded "second" 2592000000⟩]

theorem lateRenewal_goes_back :
    ¬ EveryStep billingEventStep PeriodNotBefore {} lateRenewal := by
  intro throughout
  have goesBack := throughout.2.2.1 _ _ rfl rfl rfl rfl
  obtain ⟨next, written, notBefore⟩ := goesBack.1 _ rfl
  cases written
  exact absurd notBefore (by decide)

end Persai.Billing
