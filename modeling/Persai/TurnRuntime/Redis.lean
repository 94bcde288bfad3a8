import Persai.Expiring

/-!
# The coordination keys of the turn runtime

One lease per session, one in-flight marker and one receipt marker per turn key.
Each operation here is one command, or one script, and so atomic.
-/

namespace Persai.TurnRuntime

abbrev SessionId := Nat
abbrev OwnerToken := Nat
abbrev RequestId := Nat

/-- What identifies a turn: its conversation key and its idempotency key. -/
structure TurnKey where
  conversationKey : Nat
  idempotencyKey : String
  deriving DecidableEq, Repr

/-- The lifetimes of the keys. -/
structure RuntimeConfig where
  sessionLeaseTtl : Nat
  turnReceiptTtl : Nat
  orphanReceiptGraceMs : Nat
  sessionLeaseTtl_pos : 0 < sessionLeaseTtl

structure Redis where
  now : Nat := 0
  sessionLease : Expiring SessionId OwnerToken := ∅
  turnInFlight : Expiring TurnKey RequestId := ∅
  turnReceipt : Expiring TurnKey RequestId := ∅

inductive InFlightClaim where
  | acquired | busy | inFlight
  deriving DecidableEq, Repr

namespace Redis

def leaseOwner (r : Redis) (session : SessionId) : Option OwnerToken :=
  r.sessionLease.get r.now session

def wait (r : Redis) (ms : Nat) : Redis := { r with now := r.now + ms }

/-- `tryAcquireSessionLease`: `SET NX EX`. -/
def tryAcquireSessionLease (c : RuntimeConfig) (r : Redis) (session : SessionId)
    (owner : OwnerToken) : Bool × Redis :=
  if (r.leaseOwner session).isNone then
    (true, { r with
      sessionLease := r.sessionLease.set session owner (r.now + c.sessionLeaseTtl) })
  else (false, r)

/-- `renewSessionLease`: compare and `EXPIRE`, in one script. -/
def renewSessionLease (c : RuntimeConfig) (r : Redis) (session : SessionId)
    (owner : OwnerToken) : Bool × Redis :=
  if r.leaseOwner session = some owner then
    (true, { r with
      sessionLease := r.sessionLease.set session owner (r.now + c.sessionLeaseTtl) })
  else (false, r)

/-- `hasSessionLease`. -/
def hasSessionLease (r : Redis) (session : SessionId) : Bool := (r.leaseOwner session).isSome

/-- `claimAcceptedTurnInFlight`: the marker and the lease, in one script. -/
def claimAcceptedTurnInFlight (c : RuntimeConfig) (r : Redis) (session : SessionId)
    (owner : OwnerToken) (key : TurnKey) (request : RequestId) : InFlightClaim × Redis :=
  if (r.turnInFlight.get r.now key).isSome then (.inFlight, r)
  else
    match r.tryAcquireSessionLease c session owner with
    | (true, r) =>
      (.acquired, { r with
        turnInFlight := r.turnInFlight.set key request (r.now + c.sessionLeaseTtl) })
    | (false, r) => (.busy, r)

/-- `DEL` of the lease key, the second command of `releaseSessionLease`. -/
def delSessionLease (r : Redis) (session : SessionId) : Bool × Redis :=
  ((r.leaseOwner session).isSome, { r with sessionLease := r.sessionLease.del session })

/-- `readTurnInFlightMarker`. -/
def readTurnInFlightMarker (r : Redis) (key : TurnKey) : Option RequestId :=
  r.turnInFlight.get r.now key

/-- `clearTurnInFlightMarker`. -/
def clearTurnInFlightMarker (r : Redis) (key : TurnKey) : Redis :=
  { r with turnInFlight := r.turnInFlight.del key }

/-- `writeTurnReceiptMarker`. -/
def writeTurnReceiptMarker (c : RuntimeConfig) (r : Redis) (key : TurnKey)
    (request : RequestId) : Redis :=
  { r with turnReceipt := r.turnReceipt.set key request (r.now + c.turnReceiptTtl) }

/-- `readTurnReceiptMarker`. -/
def readTurnReceiptMarker (r : Redis) (key : TurnKey) : Option RequestId :=
  r.turnReceipt.get r.now key

section
variable {c : RuntimeConfig} {r : Redis} {session : SessionId} {owner : OwnerToken}

theorem lt_leaseExpiry (c : RuntimeConfig) (r : Redis) : r.now < r.now + c.sessionLeaseTtl :=
  Nat.lt_add_of_pos_right c.sessionLeaseTtl_pos

/-- Who owns a session after a lease was set. -/
theorem leaseOwner_set (c : RuntimeConfig) (r : Redis) (session other : SessionId)
    (owner : OwnerToken) :
    { r with
      sessionLease := r.sessionLease.set session owner
        (r.now + c.sessionLeaseTtl) : Redis }.leaseOwner other =
      if other = session then some owner else r.leaseOwner other :=
  r.sessionLease.get_set r.now session other owner (lt_leaseExpiry c r)

/-- A claim is granted exactly when nobody owns the session. -/
theorem tryAcquire_granted :
    (r.tryAcquireSessionLease c session owner).1 = true ↔ r.leaseOwner session = none := by
  unfold tryAcquireSessionLease
  split <;> simp_all

/-- An in-flight claim that is granted takes the free lease and sets the marker. -/
theorem claimInFlight_acquired {key : TurnKey} {request : RequestId}
    (granted : (r.claimAcceptedTurnInFlight c session owner key request).1 = .acquired) :
    r.leaseOwner session = none ∧
    r.turnInFlight.get r.now key = none ∧
    (r.claimAcceptedTurnInFlight c session owner key request).2 =
      { r with
        sessionLease := r.sessionLease.set session owner (r.now + c.sessionLeaseTtl)
        turnInFlight := r.turnInFlight.set key request (r.now + c.sessionLeaseTtl) } := by
  revert granted
  unfold claimAcceptedTurnInFlight tryAcquireSessionLease
  split
  · intro granted; cases granted
  · rename_i absent
    by_cases free : r.leaseOwner session = none
    · simpa [free] using absent
    · simp [free]

/-- An in-flight claim that is not granted changes nothing. -/
theorem claimInFlight_refused {key : TurnKey} {request : RequestId}
    (refused : (r.claimAcceptedTurnInFlight c session owner key request).1 ≠ .acquired) :
    (r.claimAcceptedTurnInFlight c session owner key request).2 = r := by
  revert refused
  unfold claimAcceptedTurnInFlight tryAcquireSessionLease
  split
  · exact fun _ => rfl
  · by_cases free : r.leaseOwner session = none <;> simp [free]

end

end Redis

end Persai.TurnRuntime
