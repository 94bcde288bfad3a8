import Persai.Billing.Tables

/-!
# The Vcoin wallet and its ledger

`WorkspaceVcoinLedgerEventRepository`, `WorkspaceVcoinBalanceRepository` and the monthly
grant. The row of the wallet is created when it is first needed, with a balance of 0.
-/

namespace Persai.Billing

open Program TxM

/-- The balance, 0 before the wallet has a row. -/
def Db.balanceVc (db : Db) : Int := db.wallet.getD 0

/-- The row of the wallet exists. -/
def Db.withWallet (db : Db) : Db := { db with wallet := some db.balanceVc }

/-- Insert the ledger event: whether it is new. A unique violation is caught, and leaves
the transaction aborted. -/
def recordEvent (kind : LedgerKind) (amountVc : Int) (referenceKey : ReferenceKey)
    (planCode : Option String) : Statements Bool :=
  tryCatch
    (do
      insert fun db =>
        (db.ledger.create (kind, referenceKey) { amountVc, planCode }).map fun ledger =>
          { db with ledger }
      pure true)
    fun
      | .uniqueViolation => pure false
      | e => throw e

/-- `getOrCreate`, which runs on a connection of its own. -/
def getOrCreate : Statements Int := elsewhere fun db => (db.balanceVc, db.withWallet)

def ensureRow : Statements Int := do
  match ← query Db.wallet with
  | some balanceVc => pure balanceVc
  | none =>
    tryCatch
      (do
        insert fun db => if db.wallet.isSome then none else some { db with wallet := some 0 }
        pure 0)
      fun
        | .uniqueViolation => do
          match ← query Db.wallet with
          | some balanceVc => pure balanceVc
          | none => throw .uniqueViolation
        | e => throw e

structure BalanceChange where
  previousBalanceVc : Int
  balanceVc : Int
  deriving DecidableEq, Repr

/-- The atomic increment of the balance. -/
def increment (amountVc : Int) : Statements Int := statement fun db =>
  .ok (db.balanceVc + amountVc, { db with wallet := db.wallet.map (· + amountVc) })

def debit (amountVc : Int) : Statements BalanceChange :=
  if amountVc < 0 then
    throw (.thrown (.rangeError ("WorkspaceVcoinBalanceRepository.debit: amountVc must be " ++
      "non-negative (got " ++ toString amountVc ++ "); use a dedicated credit method instead.")))
  else do
    let ensured ← ensureRow
    if amountVc = 0 then
      pure ⟨ensured, ensured⟩
    else do
      let balanceVc ← increment (-amountVc)
      pure ⟨ensured, balanceVc⟩

/-- `credit`, of the kinds its callers pass. -/
def credit (amountVc : Int) : Statements BalanceChange :=
  if amountVc < 0 then
    throw (.thrown (.rangeError ("WorkspaceVcoinBalanceRepository.credit: amountVc must be " ++
      "non-negative (got " ++ toString amountVc ++ "); use debit for decrements.")))
  else do
    let ensured ← ensureRow
    if amountVc = 0 then
      pure ⟨ensured, ensured⟩
    else do
      let balanceVc ← increment amountVc
      pure ⟨ensured, balanceVc⟩

def parseVideoVcoinMonthlyGrant : HintNumber → Int
  | .integer value => if 0 ≤ value then value else 0
  | .other => 0

/-- What a plan grants for each paid period. -/
def Plan.monthlyGrant (plan : Plan) : Int :=
  parseVideoVcoinMonthlyGrant plan.videoVcoinMonthlyGrant

structure GrantResult where
  creditedVc : Int
  alreadyGranted : Bool
  balanceVc : Int
  deriving DecidableEq, Repr

def creditPeriod (env : Env) (planCode : String) (periodStartedAt : Int) :
    Statements GrantResult := do
  match ← query fun _ => env.plan planCode with
  | none => throw (.thrown (.planNotFoundForVcoinGrant planCode))
  | some plan =>
    let grant := plan.monthlyGrant
    if grant = 0 then do
      let balanceVc ← getOrCreate
      pure { creditedVc := 0, alreadyGranted := false, balanceVc }
    else do
      let recorded ← recordEvent .monthlyGrant grant (.period periodStartedAt) (some planCode)
      if recorded then do
        let result ← credit grant
        pure { creditedVc := grant, alreadyGranted := false, balanceVc := result.balanceVc }
      else do
        let balanceVc ← getOrCreate
        pure { creditedVc := 0, alreadyGranted := true, balanceVc }

theorem Plan.monthlyGrant_nonneg (plan : Plan) : 0 ≤ plan.monthlyGrant := by
  unfold Plan.monthlyGrant parseVideoVcoinMonthlyGrant
  split
  · split
    · assumption
    · exact Int.le_refl 0
  · exact Int.le_refl 0

section
variable {outside db : Db}

theorem recordEvent_of_free {kind : LedgerKind} {amountVc : Int} {referenceKey : ReferenceKey}
    {planCode : Option String} {ledger : KeyedTable (LedgerKind × ReferenceKey) LedgerEvent}
    (free : db.ledger.create (kind, referenceKey) { amountVc, planCode } = some ledger) :
    recordEvent kind amountVc referenceKey planCode ⟨outside, db, false⟩ =
      (.ok true, ⟨outside, { db with ledger }, false⟩) := by
  unfold recordEvent
  rw [tryCatch_apply, bind_of_ok (insert_of_some (by rw [free]; rfl))]
  rfl

/-- A duplicate is a normal return in an aborted transaction. -/
theorem recordEvent_of_used {kind : LedgerKind} {amountVc : Int} {referenceKey : ReferenceKey}
    {planCode : Option String}
    (used : db.ledger.create (kind, referenceKey) { amountVc, planCode } = none) :
    recordEvent kind amountVc referenceKey planCode ⟨outside, db, false⟩ =
      (.ok false, ⟨outside, db, true⟩) := by
  unfold recordEvent
  rw [tryCatch_apply, bind_of_error (insert_of_none (by rw [used]; rfl))]
  rfl

theorem ensureRow_apply :
    ensureRow ⟨outside, db, false⟩ = (.ok db.balanceVc, ⟨outside, db.withWallet, false⟩) := by
  unfold ensureRow
  rw [query_bind_apply]
  cases row : db.wallet with
  | some balanceVc =>
    have same : db.withWallet = db := by
      rw [Db.withWallet, Db.balanceVc, row, Option.getD_some, ← row]
    simp [Db.balanceVc, row, same]
  | none =>
    dsimp only
    rw [tryCatch_apply, bind_of_ok (insert_of_some (by simp [row]; rfl))]
    simp [Db.withWallet, Db.balanceVc, row]

theorem increment_withWallet (amountVc : Int) :
    increment amountVc ⟨outside, db.withWallet, false⟩ =
      (.ok (db.balanceVc + amountVc),
        ⟨outside, { db with wallet := some (db.balanceVc + amountVc) }, false⟩) := rfl

theorem credit_apply {amountVc : Int} (nonneg : 0 ≤ amountVc) :
    credit amountVc ⟨outside, db, false⟩ =
      (.ok ⟨db.balanceVc, db.balanceVc + amountVc⟩,
        ⟨outside, { db with wallet := some (db.balanceVc + amountVc) }, false⟩) := by
  unfold credit
  rw [if_neg (by omega), bind_of_ok ensureRow_apply]
  by_cases zero : amountVc = 0
  · rw [if_pos zero, zero, Int.add_zero]
    rfl
  · rw [if_neg zero, bind_of_ok (increment_withWallet amountVc)]
    rfl

theorem debit_apply {amountVc : Int} (nonneg : 0 ≤ amountVc) :
    debit amountVc ⟨outside, db, false⟩ =
      (.ok ⟨db.balanceVc, db.balanceVc - amountVc⟩,
        ⟨outside, { db with wallet := some (db.balanceVc - amountVc) }, false⟩) := by
  unfold debit
  rw [if_neg (by omega), bind_of_ok ensureRow_apply]
  by_cases zero : amountVc = 0
  · rw [if_pos zero, zero, Int.sub_zero]
    rfl
  · rw [if_neg zero, bind_of_ok (increment_withWallet (-amountVc)), ← Int.sub_eq_add_neg]
    rfl

theorem debit_of_neg {amountVc : Int} (negative : amountVc < 0) :
    ∃ e, debit amountVc ⟨outside, db, false⟩ = (.error (.thrown e), ⟨outside, db, false⟩) := by
  unfold debit
  rw [if_pos negative]
  exact ⟨_, rfl⟩

section
variable {env : Env} {planCode : String} {periodStartedAt : Int} {plan : Plan}
  (found : env.plan planCode = some plan)
include found

theorem creditPeriod_of_zero (zero : plan.monthlyGrant = 0) :
    creditPeriod env planCode periodStartedAt ⟨outside, db, false⟩ =
      (.ok ⟨0, false, outside.balanceVc⟩, ⟨outside.withWallet, db.withWallet, false⟩) := by
  unfold creditPeriod
  rw [query_bind_apply, found]
  dsimp only
  rw [if_pos zero]
  rfl

theorem creditPeriod_of_used (positive : plan.monthlyGrant ≠ 0)
    (used : db.ledger.create (.monthlyGrant, .period periodStartedAt)
      ⟨plan.monthlyGrant, some planCode⟩ = none) :
    creditPeriod env planCode periodStartedAt ⟨outside, db, false⟩ =
      (.ok ⟨0, true, outside.balanceVc⟩, ⟨outside.withWallet, db.withWallet, true⟩) := by
  unfold creditPeriod
  rw [query_bind_apply, found]
  dsimp only
  rw [if_neg positive, bind_of_ok (recordEvent_of_used used)]
  rfl

theorem creditPeriod_of_free (positive : plan.monthlyGrant ≠ 0)
    {ledger : KeyedTable (LedgerKind × ReferenceKey) LedgerEvent}
    (free : db.ledger.create (.monthlyGrant, .period periodStartedAt)
      ⟨plan.monthlyGrant, some planCode⟩ = some ledger) :
    creditPeriod env planCode periodStartedAt ⟨outside, db, false⟩ =
      (.ok ⟨plan.monthlyGrant, false, db.balanceVc + plan.monthlyGrant⟩,
        ⟨outside, { db with ledger, wallet := some (db.balanceVc + plan.monthlyGrant) },
          false⟩) := by
  unfold creditPeriod
  rw [query_bind_apply, found]
  dsimp only
  rw [if_neg positive, bind_of_ok (recordEvent_of_free free), if_pos rfl,
    bind_of_ok (credit_apply plan.monthlyGrant_nonneg)]
  rfl

end

end

end Persai.Billing
