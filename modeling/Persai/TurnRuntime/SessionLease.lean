import Persai.Runs
import Persai.TurnRuntime.Redis

/-!
# Exclusivity of the session lease

A claim is one command, a renewal one script, but a release reads the key and
then deletes it. In between the lease can expire and another owner can claim it.

* `sound_step`: what the owners believe agrees with the key, as long as no claim
  falls between the two commands of another owner's release;
* `lease_exclusive_iff`: in exactly the runs without such a claim no release can
  remove another owner's lease, and no two owners hold one;
* `release_after_expiry`: the run that breaks it.
-/

namespace Persai.TurnRuntime

open Runs

/-- A lease as its owner knows it: granted or renewed, and not yet released. -/
structure HeldLease where
  session : SessionId
  owner : OwnerToken
  expires : Nat
  deriving DecidableEq, Repr

/-- The keys, the leases their owners hold, and the releases that have read their
own token and not yet deleted the key. -/
structure LeaseWorld where
  redis : Redis := {}
  held : List HeldLease := []
  releasing : List (SessionId × OwnerToken) := []

/-- One command, or the passing of time. -/
inductive LeaseEvent where
  | wait (ms : Nat)
  | tryAcquire (session : SessionId) (owner : OwnerToken)
  | claimInFlight (session : SessionId) (owner : OwnerToken) (key : TurnKey)
      (request : RequestId)
  | renew (session : SessionId) (owner : OwnerToken)
  | releaseGet (session : SessionId) (owner : OwnerToken)
  | releaseDel (session : SessionId) (owner : OwnerToken)
  | clearInFlight (key : TurnKey)
  deriving DecidableEq, Repr

namespace LeaseWorld

/-- The owner has released its leases on the session. -/
def forget (w : LeaseWorld) (session : SessionId) (owner : OwnerToken) : List HeldLease :=
  w.held.filter fun l => ¬ (l.session = session ∧ l.owner = owner)

/-- The claim that an event makes successfully. -/
def granted (c : RuntimeConfig) (w : LeaseWorld) : LeaseEvent → Option (SessionId × OwnerToken)
  | .tryAcquire session owner =>
    if (w.redis.tryAcquireSessionLease c session owner).1 then some (session, owner) else none
  | .claimInFlight session owner key request =>
    if (w.redis.claimAcceptedTurnInFlight c session owner key request).1 = .acquired then
      some (session, owner)
    else none
  | _ => none

/-- What a successful claim adds to the leases held. -/
def hold (c : RuntimeConfig) (w : LeaseWorld) (e : LeaseEvent) : List HeldLease :=
  match w.granted c e with
  | some (session, owner) =>
    ⟨session, owner, w.redis.now + c.sessionLeaseTtl⟩ :: w.held
  | none => w.held

def step (c : RuntimeConfig) (w : LeaseWorld) (e : LeaseEvent) : LeaseWorld :=
  match e with
  | .wait ms => { w with redis := w.redis.wait ms }
  | .tryAcquire session owner =>
    { w with redis := (w.redis.tryAcquireSessionLease c session owner).2, held := w.hold c e }
  | .claimInFlight session owner key request =>
    { w with
      redis := (w.redis.claimAcceptedTurnInFlight c session owner key request).2
      held := w.hold c e }
  | .renew session owner =>
    match w.redis.renewSessionLease c session owner with
    | (true, redis) =>
      { w with
        redis
        held := w.held.map fun l =>
          if l.session = session ∧ l.owner = owner then
            { l with expires := w.redis.now + c.sessionLeaseTtl }
          else l }
    | (false, _) => w
  | .releaseGet session owner =>
    if w.redis.leaseOwner session = some owner then
      { w with releasing := (session, owner) :: w.releasing }
    else { w with held := w.forget session owner }
  | .releaseDel session owner =>
    if (session, owner) ∈ w.releasing then
      { redis := (w.redis.delSessionLease session).2
        held := w.forget session owner
        releasing := w.releasing.erase (session, owner) }
    else w
  | .clearInFlight key => { w with redis := w.redis.clearTurnInFlightMarker key }

/-- A release that goes on now would remove no lease but its own. -/
def ReleasesOwn (w : LeaseWorld) : Prop :=
  ∀ p ∈ w.releasing, ∀ owner ∈ w.redis.leaseOwner p.1, owner = p.2

/-- No two owners both have an unexpired, unreleased lease. -/
def OneHolder (w : LeaseWorld) : Prop :=
  ∀ l ∈ w.held, ∀ l' ∈ w.held, l.session = l'.session →
    w.redis.now < l.expires → w.redis.now < l'.expires → l.owner = l'.owner

def Exclusive (w : LeaseWorld) : Prop := w.ReleasesOwn ∧ w.OneHolder

instance (w : LeaseWorld) : Decidable w.ReleasesOwn :=
  inferInstanceAs (Decidable (∀ p ∈ w.releasing, ∀ owner ∈ w.redis.leaseOwner p.1, owner = p.2))

instance (w : LeaseWorld) : Decidable w.OneHolder :=
  inferInstanceAs (Decidable (∀ l ∈ w.held, ∀ l' ∈ w.held, _))

instance (w : LeaseWorld) : Decidable w.Exclusive := inferInstanceAs (Decidable (_ ∧ _))

/-- No claim succeeds between the two commands of another owner's release. -/
def ClaimsApart (c : RuntimeConfig) (w : LeaseWorld) (e : LeaseEvent) : Prop :=
  ∀ g ∈ w.granted c e, ∀ p ∈ w.releasing, p.1 = g.1 → p.2 = g.2

/-- What the owners believe agrees with the keys. -/
structure Sound (w : LeaseWorld) : Prop where
  held : ∀ l ∈ w.held, w.redis.now < l.expires →
    w.redis.sessionLease.live w.redis.now l.session = some (l.owner, l.expires)
  releasing : w.ReleasesOwn

variable {c : RuntimeConfig} {w : LeaseWorld}

theorem Sound.exclusive (sound : w.Sound) : w.Exclusive := by
  refine ⟨sound.releasing, ?_⟩
  intro l member l' member' same unexpired unexpired'
  have key := sound.held l member unexpired
  rw [same, sound.held l' member' unexpired'] at key
  exact (congrArg Prod.fst (Option.some.inj key)).symm

/-- A lease that somebody holds unexpired keeps the key. -/
theorem Sound.owner (sound : w.Sound) {l : HeldLease} (member : l ∈ w.held)
    (unexpired : w.redis.now < l.expires) : w.redis.leaseOwner l.session = some l.owner :=
  Expiring.get_eq_some.mpr ⟨l.expires, sound.held l member unexpired⟩

/-- The world after a claim that took the free lease. -/
theorem sound_claimed (sound : w.Sound) {session : SessionId} {owner : OwnerToken}
    (free : w.redis.leaseOwner session = none)
    (apart : ∀ p ∈ w.releasing, p.1 = session → p.2 = owner) (redis : Redis)
    (now : redis.now = w.redis.now)
    (lease : redis.sessionLease =
      w.redis.sessionLease.set session owner (w.redis.now + c.sessionLeaseTtl)) :
    Sound ⟨redis, ⟨session, owner, w.redis.now + c.sessionLeaseTtl⟩ :: w.held, w.releasing⟩ := by
  have expiry := Redis.lt_leaseExpiry c w.redis
  constructor
  · intro l member unexpired
    simp only [now, lease] at unexpired ⊢
    rw [Expiring.live_set _ _ _ _ _ expiry]
    obtain rfl | before := List.mem_cons.mp member
    · rw [if_pos rfl]
    · have other : l.session ≠ session := by
        intro at'
        rw [← at', sound.owner before unexpired] at free
        cases free
      rw [if_neg other]
      exact sound.held l before unexpired
  · intro p member owner' found
    simp only [Redis.leaseOwner, now, lease] at found
    rw [Expiring.get_set _ _ _ _ _ expiry] at found
    split at found
    · rename_i same
      rw [apart p member same]
      exact (Option.some.inj found).symm
    · exact sound.releasing p member owner' found

theorem sound_wait (sound : w.Sound) (ms : Nat) :
    Sound { w with redis := w.redis.wait ms } := by
  have later : w.redis.now ≤ w.redis.now + ms := Nat.le_add_right ..
  constructor
  · intro l member unexpired
    exact Expiring.live_later
      (sound.held l member (Nat.lt_of_le_of_lt later unexpired)) unexpired
  · intro p member owner found
    exact sound.releasing p member owner (Expiring.get_of_later later found)

theorem sound_renew (sound : w.Sound) {session : SessionId} {owner : OwnerToken}
    (mine : w.redis.leaseOwner session = some owner) :
    Sound
      { w with
        redis := { w.redis with
          sessionLease :=
            w.redis.sessionLease.set session owner (w.redis.now + c.sessionLeaseTtl) }
        held := w.held.map fun l =>
          if l.session = session ∧ l.owner = owner then
            { l with expires := w.redis.now + c.sessionLeaseTtl }
          else l } := by
  have expiry := Redis.lt_leaseExpiry c w.redis
  constructor
  · intro l member unexpired
    simp only at unexpired ⊢
    rw [Expiring.live_set _ _ _ _ _ expiry]
    obtain ⟨l₀, before, rfl⟩ := List.mem_map.mp member
    by_cases same : l₀.session = session ∧ l₀.owner = owner
    · simp [same]
    · simp only [same, if_false] at unexpired ⊢
      have other : l₀.session ≠ session := by
        intro at'
        rw [← at', sound.owner before unexpired] at mine
        exact same ⟨at', Option.some.inj mine⟩
      rw [if_neg other]
      exact sound.held l₀ before unexpired
  · intro p member owner' found
    refine sound.releasing p member owner' ?_
    have same := Redis.leaseOwner_set c w.redis session p.1 owner
    rw [Option.mem_def] at found ⊢
    rw [same] at found
    split at found
    · rename_i at'; rw [at', mine]; exact found
    · exact found

/-- Deleting the key of a lease that nobody else holds. -/
theorem sound_released (sound : w.Sound) {session : SessionId} {owner : OwnerToken}
    (member : (session, owner) ∈ w.releasing) :
    Sound
      { redis := (w.redis.delSessionLease session).2
        held := w.forget session owner
        releasing := w.releasing.erase (session, owner) } := by
  constructor
  · intro l remaining unexpired
    obtain ⟨held, kept⟩ := List.mem_filter.mp remaining
    have other : l.session ≠ session := by
      intro at'
      have owned := sound.owner held unexpired
      rw [at'] at owned
      have mine := sound.releasing _ member l.owner owned
      simp [at', mine] at kept
    simp only [Redis.delSessionLease, Expiring.live_del, if_neg other]
    exact sound.held l held unexpired
  · intro p member owner' found
    simp only [Redis.delSessionLease, Redis.leaseOwner, Expiring.get_del] at found
    split at found
    · cases found
    · exact sound.releasing p (List.mem_of_mem_erase member) owner' found

/-- A release that found another owner's token, or none, is over. -/
theorem sound_forget (sound : w.Sound) (session : SessionId) (owner : OwnerToken) :
    Sound { w with held := w.forget session owner } :=
  ⟨fun l member => sound.held l (List.mem_filter.mp member).1, sound.releasing⟩

/-- Every command keeps belief and keys in agreement, unless it claims the lease
between the commands of another owner's release. -/
theorem sound_step (sound : w.Sound) (e : LeaseEvent) (apart : w.ClaimsApart c e) :
    Sound (w.step c e) := by
  cases e with
  | wait ms => exact sound_wait sound ms
  | tryAcquire session owner =>
    simp only [step, hold, ClaimsApart, granted] at apart ⊢
    split at apart
    · rename_i taken
      have free := Redis.tryAcquire_granted.mp taken
      have claimed := sound_claimed (c := c) sound free (apart _ rfl)
        (w.redis.tryAcquireSessionLease c session owner).2
      simp only [taken, if_true]
      exact claimed (by simp [Redis.tryAcquireSessionLease, free])
        (by simp [Redis.tryAcquireSessionLease, free])
    · rename_i refused
      have owned : ¬ w.redis.leaseOwner session = none := mt Redis.tryAcquire_granted.mpr refused
      simp only [refused]
      simpa [Redis.tryAcquireSessionLease, owned] using sound
  | claimInFlight session owner key request =>
    simp only [step, hold, ClaimsApart, granted] at apart ⊢
    split at apart
    · rename_i taken
      obtain ⟨free, -, after⟩ := Redis.claimInFlight_acquired taken
      rw [if_pos taken, after]
      exact sound_claimed sound free (apart _ rfl) _ rfl rfl
    · rename_i refused
      rw [if_neg refused, Redis.claimInFlight_refused refused]
      exact sound
  | renew session owner =>
    by_cases mine : w.redis.leaseOwner session = some owner
    · simpa only [step, Redis.renewSessionLease, if_pos mine] using sound_renew sound mine
    · simpa only [step, Redis.renewSessionLease, if_neg mine] using sound
  | releaseGet session owner =>
    by_cases mine : w.redis.leaseOwner session = some owner
    · simp only [step, if_pos mine]
      refine ⟨sound.held, fun p member owner' found => ?_⟩
      obtain rfl | member := List.mem_cons.mp member
      · exact Option.some.inj (found.symm.trans mine)
      · exact sound.releasing p member owner' found
    · simpa only [step, if_neg mine] using sound_forget sound session owner
  | releaseDel session owner =>
    by_cases pending : (session, owner) ∈ w.releasing
    · simpa only [step, if_pos pending] using sound_released sound pending
    · simpa only [step, if_neg pending] using sound
  | clearInFlight key => exact ⟨sound.held, sound.releasing⟩

/-- A claim that falls into another owner's release leaves its lease to be removed. -/
theorem claimsApart_of_releasesOwn (e : LeaseEvent) (after : ReleasesOwn (w.step c e)) :
    w.ClaimsApart c e := by
  intro g taken p member same
  have owned : (w.step c e).redis.leaseOwner g.1 = some g.2 ∧
      (w.step c e).releasing = w.releasing := by
    cases e with
    | tryAcquire session owner =>
      simp only [granted] at taken
      split at taken
      · rename_i acquired
        obtain rfl := Option.some.inj taken
        have free := Redis.tryAcquire_granted.mp acquired
        refine ⟨?_, rfl⟩
        simp only [step, Redis.tryAcquireSessionLease, free, Option.isNone_none, if_true]
        rw [Redis.leaseOwner_set, if_pos rfl]
      · cases taken
    | claimInFlight session owner key request =>
      simp only [granted] at taken
      split at taken
      · rename_i acquired
        obtain rfl := Option.some.inj taken
        obtain ⟨-, -, after⟩ := Redis.claimInFlight_acquired acquired
        refine ⟨?_, rfl⟩
        simp only [step, after]
        exact (Redis.leaseOwner_set c w.redis session session owner).trans (if_pos rfl)
      · cases taken
    | _ => cases taken
  have mine := after p (by rw [owned.2]; exact member) g.2 (by rw [same]; exact owned.1)
  exact mine.symm

/-- A release can remove another owner's lease, or two owners hold one, in exactly the
runs in which a claim falls between the commands of another owner's release. -/
theorem lease_exclusive_iff (c : RuntimeConfig) (es : List LeaseEvent) :
    EveryState (step c) Exclusive {} es ↔ EveryStep (step c) (ClaimsApart c) {} es := by
  constructor
  · exact reflects_everyStep fun w e _ after => claimsApart_of_releasesOwn e after.1
  · intro apart
    refine everyState_mono (fun w => Sound.exclusive) (everyState_of_preserved
      (fun w e sound => sound_step sound e) ⟨?_, ?_⟩ apart)
    · rintro l ⟨⟩
    · rintro p ⟨⟩

/-- The first owner's release reads its token; the lease expires before the key is
deleted, and a second and a third owner claim it, one before and one after. -/
def releaseAfterExpiry : List LeaseEvent :=
  [.claimInFlight 1 10 ⟨0, "a"⟩ 100,
    .releaseGet 1 10,
    .wait 60000,
    .claimInFlight 1 11 ⟨0, "b"⟩ 101,
    .releaseDel 1 10,
    .claimInFlight 1 12 ⟨0, "c"⟩ 102]

/-- The second and the third owner end up holding the lease both. -/
theorem release_after_expiry :
    let c : RuntimeConfig := ⟨60000, 86400000, 900000, by decide⟩
    ¬ EveryState (step c) Exclusive {} releaseAfterExpiry ∧
    ¬ (run (step c) {} releaseAfterExpiry).OneHolder := by decide

end LeaseWorld

end Persai.TurnRuntime
