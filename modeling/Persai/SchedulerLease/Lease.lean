import Persai.KeyedTable
import Persai.Runs

/-!
# Leases of the schedulers

Schedulers run in several processes; a row of `scheduler_leases` for each key says which of them
leads. A tick acquires the lease under a fresh token, renews it by heartbeats while it works
through its batches, and releases it. Every statement compares and writes times that its process
read from the clock before the statement is executed.

* `System.step`: the statements, and the steps of a tick between them;
* `leads_alone`: at most one tick leads under a key within the time it has been given;
* `fenced`: a tick that another one has replaced changes nothing more, and the next heartbeat
  stops it.
-/

namespace Persai.SchedulerLease

open Runs

def leaseTtlMs : Nat := 90000

/-- A row of `scheduler_leases`; no token and no holder where the texts are empty. -/
structure Lease where
  holderId : Option Nat
  leaseToken : Option Nat
  expiresAt : Nat
  deriving DecidableEq, Repr

/-- A tick that has acquired a lease. -/
structure Tick where
  key : String
  token : Nat
  /-- What its last statement that took effect has written. -/
  expiresAt : Nat
  leaseLost : Bool
  finished : Bool
  deriving DecidableEq, Repr

structure System where
  clock : Nat := 0
  uuid : Nat := 0
  leases : KeyedTable String Lease := ∅
  ticks : KeyedTable Nat Tick := ∅
  batches : List (Nat × Nat) := []

inductive Event where
  | wait (ms : Nat)
  /-- The insertion of `acquireOrCreate`, or of `onModuleInit`. -/
  | create (key : String) (now : Nat)
  | acquireKey (tick : Nat) (key : String) (holderId now ttlMs : Nat)
  | heartbeatKey (tick now ttlMs : Nat)
  /-- The heartbeat throws. -/
  | heartbeatThrows (tick : Nat)
  | batch (tick : Nat)
  /-- The loop ends and the interval is cleared. -/
  | finish (tick : Nat)
  | releaseKey (tick now : Nat)

/-- The condition of the update in `acquireKey`. -/
def Lease.free (row : Lease) (now : Nat) : Bool := row.expiresAt < now || row.holderId.isNone

namespace System

def create (s : System) (key : String) (now : Nat) : System :=
  if (s.leases.get? key).isSome then s
  else { s with leases := s.leases.put key ⟨none, none, now⟩ }

def acquireKey (s : System) (tick : Nat) (key : String) (holderId now ttlMs : Nat) : System :=
  match s.leases.get? key with
  | some row =>
    if row.free now then
      { s with
        uuid := s.uuid + 1
        leases := s.leases.put key ⟨some holderId, some s.uuid, now + ttlMs⟩
        ticks := s.ticks.put tick ⟨key, s.uuid, now + ttlMs, false, false⟩ }
    else s
  | none => s

/-- The row still has the token of the tick. -/
def current (s : System) (t : Tick) : Option Lease :=
  (s.leases.get? t.key).filter fun row => row.leaseToken = some t.token

def heartbeatKey (s : System) (tick now ttlMs : Nat) : System :=
  match s.ticks.get? tick with
  | some t =>
    match s.current t with
    | some row =>
      { s with
        leases := s.leases.put t.key { row with expiresAt := now + ttlMs }
        ticks := s.ticks.put tick { t with expiresAt := now + ttlMs } }
    | none => { s with ticks := s.ticks.put tick { t with leaseLost := true } }
  | none => s

def releaseKey (s : System) (tick now : Nat) : System :=
  match s.ticks.get? tick with
  | some t =>
    if t.finished then
      match s.current t with
      | some _ => { s with leases := s.leases.put t.key ⟨none, none, now⟩ }
      | none => s
    else s
  | none => s

/-- A statement comes with a time that the clock has shown. -/
def step (s : System) : Event → System
  | .wait ms => { s with clock := s.clock + ms }
  | .create key now => if now ≤ s.clock then s.create key now else s
  | .acquireKey tick key holderId now ttlMs =>
    if now ≤ s.clock ∧ s.ticks.get? tick = none then s.acquireKey tick key holderId now ttlMs else s
  | .heartbeatKey tick now ttlMs => if now ≤ s.clock then s.heartbeatKey tick now ttlMs else s
  | .heartbeatThrows tick =>
    match s.ticks.get? tick with
    | some t => { s with ticks := s.ticks.put tick { t with leaseLost := true } }
    | none => s
  | .batch tick =>
    match s.ticks.get? tick with
    | some t =>
      if t.leaseLost || t.finished then s
      else { s with batches := s.batches ++ [(tick, s.clock)] }
    | none => s
  | .finish tick =>
    match s.ticks.get? tick with
    | some t => { s with ticks := s.ticks.put tick { t with finished := true } }
    | none => s
  | .releaseKey tick now => if now ≤ s.clock then s.releaseKey tick now else s

end System

/-! ## What the rows and the ticks know of each other -/

/-- A tick that goes on with its batches. -/
def Tick.Leads (t : Tick) : Prop := t.leaseLost = false ∧ t.finished = false

structure Sound (s : System) : Prop where
  /-- A row without a holder has no token. -/
  held : ∀ key row, s.leases.get? key = some row → row.holderId = none → row.leaseToken = none
  rowTokens : ∀ key row token, s.leases.get? key = some row → row.leaseToken = some token →
    token < s.uuid
  tokens : ∀ i t, s.ticks.get? i = some t → t.token < s.uuid
  distinct : ∀ i j t t', s.ticks.get? i = some t → s.ticks.get? j = some t' →
    t.token = t'.token → i = j
  /-- The row of a tick that has not finished is as the tick has written it, or the time that the
  tick has been given is over. -/
  given : ∀ i t, s.ticks.get? i = some t → t.finished = false →
    (∃ row, s.current t = some row ∧ row.expiresAt = t.expiresAt) ∨ t.expiresAt < s.clock

theorem current_eq_some {s : System} {t : Tick} {row : Lease} :
    s.current t = some row ↔ s.leases.get? t.key = some row ∧ row.leaseToken = some t.token := by
  simp [System.current, Option.filter_eq_some_iff]

/-- Two ticks that the rows agree with are one, under one key. -/
theorem Sound.one_current {s : System} (sound : Sound s) {i j : Nat} {t t' : Tick}
    (found : s.ticks.get? i = some t) (found' : s.ticks.get? j = some t') (key : t.key = t'.key)
    {row row' : Lease} (current : s.current t = some row) (current' : s.current t' = some row') :
    i = j := by
  obtain ⟨here, token⟩ := current_eq_some.mp current
  obtain ⟨here', token'⟩ := current_eq_some.mp current'
  rw [key, here'] at here
  obtain rfl := Option.some.inj here
  exact sound.distinct i j t t' found found' (Option.some.inj (token.symm.trans token'))

section
variable {s : System} (sound : Sound s)

include sound

theorem Sound.wait (ms : Nat) : Sound { s with clock := s.clock + ms } where
  held := sound.held
  rowTokens := sound.rowTokens
  tokens := sound.tokens
  distinct := sound.distinct
  given i t found going :=
    (sound.given i t found going).imp_right fun late => Nat.lt_add_right ms late

theorem Sound.create (key : String) (now : Nat) : Sound (s.create key now) := by
  unfold System.create
  split
  · exact sound
  · rename_i absent
    have none_ : s.leases.get? key = none := by simpa using absent
    have rows : ∀ k row, (s.leases.put key ⟨none, none, now⟩).get? k = some row →
        s.leases.get? k = some row ∨ row.leaseToken = none := by
      intro k row found
      rw [KeyedTable.get?_put] at found
      split at found
      · cases found
        exact .inr rfl
      · exact .inl found
    refine ⟨?_, ?_, sound.tokens, sound.distinct, ?_⟩
    · intro k row found free
      rcases rows k row found with before | new
      · exact sound.held k row before free
      · exact new
    · intro k row token found holds
      rcases rows k row found with before | new
      · exact sound.rowTokens k row token before holds
      · rw [new] at holds
        cases holds
    · intro i t found going
      refine (sound.given i t found going).imp_left fun ⟨row, current, same⟩ => ?_
      obtain ⟨here, token⟩ := current_eq_some.mp current
      refine ⟨row, current_eq_some.mpr ⟨?_, token⟩, same⟩
      rw [KeyedTable.get?_put, if_neg]
      · exact here
      · intro own
        rw [own, none_] at here
        cases here

/-- A change of a tick that keeps its key, its token and its time. -/
theorem Sound.mark {i : Nat} {t t' : Tick} (found : s.ticks.get? i = some t)
    (key : t'.key = t.key) (token : t'.token = t.token) (time : t'.expiresAt = t.expiresAt)
    (going : t'.finished = false → t.finished = false) :
    Sound { s with ticks := s.ticks.put i t' } := by
  have ticks : ∀ j u, (s.ticks.put i t').get? j = some u → ∃ u', s.ticks.get? j = some u' ∧
      u.key = u'.key ∧ u.token = u'.token ∧ u.expiresAt = u'.expiresAt ∧
      (u.finished = false → u'.finished = false) := by
    intro j u known
    rw [KeyedTable.get?_put] at known
    split at known
    · rename_i own
      cases known
      exact ⟨t, own ▸ found, key, token, time, going⟩
    · exact ⟨u, known, rfl, rfl, rfl, id⟩
  refine ⟨sound.held, sound.rowTokens, ?_, ?_, ?_⟩
  · intro j u known
    obtain ⟨u', known', -, same, -⟩ := ticks j u known
    rw [same]
    exact sound.tokens j u' known'
  · intro j k u v known other same
    obtain ⟨u', known', -, token', -⟩ := ticks j u known
    obtain ⟨v', other', -, token'', -⟩ := ticks k v other
    exact sound.distinct j k u' v' known' other' (by rw [← token', ← token'', same])
  · intro j u known going'
    obtain ⟨u', known', key', token', time', finished⟩ := ticks j u known
    rw [time']
    refine (sound.given j u' known' (finished going')).imp_left fun ⟨row, current, same⟩ => ?_
    obtain ⟨here, holds⟩ := current_eq_some.mp current
    exact ⟨row, current_eq_some.mpr ⟨key' ▸ here, token' ▸ holds⟩, same⟩

theorem Sound.acquireKey {i holderId now ttlMs : Nat} {name : String} (shown : now ≤ s.clock)
    (fresh : s.ticks.get? i = none) : Sound (s.acquireKey i name holderId now ttlMs) := by
  unfold System.acquireKey
  split
  · rename_i row here
    split
    · rename_i free
      have ticks : ∀ j u,
          (s.ticks.put i ⟨name, s.uuid, now + ttlMs, false, false⟩).get? j = some u →
          (j = i ∧ u = ⟨name, s.uuid, now + ttlMs, false, false⟩) ∨ s.ticks.get? j = some u := by
        intro j u known
        rw [KeyedTable.get?_put] at known
        split at known
        · cases known
          exact .inl ⟨‹_›, rfl⟩
        · exact .inr known
      have rows : ∀ k r, (s.leases.put name ⟨some holderId, some s.uuid, now + ttlMs⟩).get? k =
          some r → r = ⟨some holderId, some s.uuid, now + ttlMs⟩ ∨ s.leases.get? k = some r := by
        intro k r known
        rw [KeyedTable.get?_put] at known
        split at known
        · cases known
          exact .inl rfl
        · exact .inr known
      refine ⟨?_, ?_, ?_, ?_, ?_⟩
      · intro k r known unheld
        rcases rows k r known with rfl | before
        · cases unheld
        · exact sound.held k r before unheld
      · intro k r token known holds
        rcases rows k r known with rfl | before
        · cases holds
          exact Nat.lt_succ_self _
        · exact Nat.lt_succ_of_lt (sound.rowTokens k r token before holds)
      · intro j u known
        rcases ticks j u known with ⟨-, rfl⟩ | before
        · exact Nat.lt_succ_self _
        · exact Nat.lt_succ_of_lt (sound.tokens j u before)
      · intro j k u v known other same
        rcases ticks j u known with ⟨rfl, rfl⟩ | before
        · rcases ticks k v other with ⟨rfl, rfl⟩ | before'
          · rfl
          · exact absurd same.symm (Nat.ne_of_lt (sound.tokens k v before'))
        · rcases ticks k v other with ⟨rfl, rfl⟩ | before'
          · exact absurd same (Nat.ne_of_lt (sound.tokens j u before))
          · exact sound.distinct j k u v before before' same
      · intro j u known going
        rcases ticks j u known with ⟨rfl, rfl⟩ | before
        · refine .inl
              ⟨⟨some holderId, some s.uuid, now + ttlMs⟩, current_eq_some.mpr ⟨?_, rfl⟩, rfl⟩
          rw [KeyedTable.get?_put, if_pos rfl]
        · rcases sound.given j u before going with ⟨r, current, same⟩ | late
          · obtain ⟨there, holds⟩ := current_eq_some.mp current
            by_cases own : u.key = name
            · -- the lease is taken over only after the time of the tick
              rw [own, here] at there
              obtain rfl := Option.some.inj there
              have past : row.expiresAt < now := by
                simp only [Lease.free, Bool.or_eq_true, decide_eq_true_eq,
                  Option.isNone_iff_eq_none]
                  at free
                rcases free with past | unheld
                · exact past
                · rw [sound.held name row here unheld] at holds
                  cases holds
              exact .inr (same ▸ Nat.lt_of_lt_of_le past shown)
            · refine .inl ⟨r, current_eq_some.mpr ⟨?_, holds⟩, same⟩
              rw [KeyedTable.get?_put, if_neg own]
              exact there
          · exact .inr late
    · exact sound
  · exact sound

theorem Sound.heartbeatKey (i now ttlMs : Nat) : Sound (s.heartbeatKey i now ttlMs) := by
  unfold System.heartbeatKey
  split
  · rename_i t found
    split
    · rename_i row current
      obtain ⟨here, token⟩ := current_eq_some.mp current
      have rows : ∀ k r,
          (s.leases.put t.key { row with expiresAt := now + ttlMs }).get? k = some r →
          ∃ r', s.leases.get? k = some r' ∧ r.holderId = r'.holderId ∧
            r.leaseToken = r'.leaseToken := by
        intro k r known
        rw [KeyedTable.get?_put] at known
        split at known
        · rename_i own
          cases known
          exact ⟨row, own ▸ here, rfl, rfl⟩
        · exact ⟨r, known, rfl, rfl⟩
      have ticks : ∀ j u, (s.ticks.put i { t with expiresAt := now + ttlMs }).get? j = some u →
          (j = i ∧ u = { t with expiresAt := now + ttlMs }) ∨
            (j ≠ i ∧ s.ticks.get? j = some u) := by
        intro j u known
        rw [KeyedTable.get?_put] at known
        split at known
        · cases known
          exact .inl ⟨‹_›, rfl⟩
        · exact .inr ⟨‹_›, known⟩
      have before : ∀ j u, (s.ticks.put i { t with expiresAt := now + ttlMs }).get? j = some u →
          ∃ u', s.ticks.get? j = some u' ∧ u.token = u'.token := by
        intro j u known
        rcases ticks j u known with ⟨rfl, rfl⟩ | ⟨-, before⟩
        · exact ⟨t, found, rfl⟩
        · exact ⟨u, before, rfl⟩
      refine ⟨?_, ?_, ?_, ?_, ?_⟩
      · intro k r known unheld
        obtain ⟨r', known', holder, token'⟩ := rows k r known
        rw [token']
        exact sound.held k r' known' (holder ▸ unheld)
      · intro k r tok known holds
        obtain ⟨r', known', -, token'⟩ := rows k r known
        exact sound.rowTokens k r' tok known' (token' ▸ holds)
      · intro j u known
        obtain ⟨u', known', same⟩ := before j u known
        exact same ▸ sound.tokens j u' known'
      · intro j k u v known other same
        obtain ⟨u', known', token'⟩ := before j u known
        obtain ⟨v', other', token''⟩ := before k v other
        exact sound.distinct j k u' v' known' other' (by rw [← token', ← token'', same])
      · intro j u known going
        rcases ticks j u known with ⟨rfl, rfl⟩ | ⟨other, known'⟩
        · refine .inl ⟨{ row with expiresAt := now + ttlMs }, current_eq_some.mpr ⟨?_, token⟩, rfl⟩
          rw [KeyedTable.get?_put, if_pos rfl]
        · refine (sound.given j u known' going).imp_left fun ⟨r, current', same⟩ => ?_
          obtain ⟨there, holds⟩ := current_eq_some.mp current'
          refine ⟨r, current_eq_some.mpr ⟨?_, holds⟩, same⟩
          rw [KeyedTable.get?_put, if_neg]
          · exact there
          · intro own
            exact other (sound.one_current known' found own current' current)
    · exact sound.mark found rfl rfl rfl id
  · exact sound

theorem Sound.releaseKey (i now : Nat) : Sound (s.releaseKey i now) := by
  unfold System.releaseKey
  split
  · rename_i t found
    split
    · rename_i finished
      split
      · rename_i row current
        have rows : ∀ k r, (s.leases.put t.key ⟨none, none, now⟩).get? k = some r →
            r.leaseToken = none ∨ s.leases.get? k = some r := by
          intro k r known
          rw [KeyedTable.get?_put] at known
          split at known
          · cases known
            exact .inl rfl
          · exact .inr known
        refine ⟨?_, ?_, sound.tokens, sound.distinct, ?_⟩
        · intro k r known unheld
          rcases rows k r known with unmarked | before
          · exact unmarked
          · exact sound.held k r before unheld
        · intro k r token known holds
          rcases rows k r known with unmarked | before
          · rw [unmarked] at holds
            cases holds
          · exact sound.rowTokens k r token before holds
        · intro j u known going
          refine (sound.given j u known going).imp_left fun ⟨r, current', same⟩ => ?_
          obtain ⟨there, holds⟩ := current_eq_some.mp current'
          refine ⟨r, current_eq_some.mpr ⟨?_, holds⟩, same⟩
          rw [KeyedTable.get?_put, if_neg]
          · exact there
          · intro own
            obtain rfl := sound.one_current known found own current' current
            rw [known] at found
            obtain rfl := Option.some.inj found
            rw [going] at finished
            cases finished
      · exact sound
    · exact sound
  · exact sound

theorem sound_step (e : Event) : Sound (s.step e) := by
  cases e with
  | wait ms => exact sound.wait ms
  | create key now =>
    simp only [System.step]
    split
    · exact sound.create key now
    · exact sound
  | acquireKey i key holderId now ttlMs =>
    simp only [System.step]
    split
    · rename_i met
      exact sound.acquireKey met.1 met.2
    · exact sound
  | heartbeatKey i now ttlMs =>
    simp only [System.step]
    split
    · exact sound.heartbeatKey i now ttlMs
    · exact sound
  | heartbeatThrows i =>
    simp only [System.step]
    split
    · rename_i t found
      exact sound.mark found rfl rfl rfl id
    · exact sound
  | batch i =>
    simp only [System.step]
    split
    · split
      · exact sound
      · exact ⟨sound.held, sound.rowTokens, sound.tokens, sound.distinct, sound.given⟩
    · exact sound
  | finish i =>
    simp only [System.step]
    split
    · rename_i t found
      exact sound.mark found rfl rfl rfl nofun
    · exact sound
  | releaseKey i now =>
    simp only [System.step]
    split
    · exact sound.releaseKey i now
    · exact sound

end

theorem sound_empty : Sound {} := ⟨nofun, nofun, nofun, nofun, nofun⟩

theorem sound_run (es : List Event) : EveryState System.step Sound {} es :=
  everyState_of_preserved (C := fun _ _ => True) (fun _ e sound _ => sound_step sound e)
    sound_empty (everyStep_of_forall (fun _ _ => trivial) _ _)

/-! ## At most one leader -/

/-- Of the ticks under one key that go on, one at most is within the time it has been given. -/
def OneLeader (s : System) : Prop :=
  ∀ i j t t', s.ticks.get? i = some t → s.ticks.get? j = some t' → t.key = t'.key →
    t.Leads → t'.Leads → s.clock ≤ t.expiresAt → s.clock ≤ t'.expiresAt → i = j

theorem Sound.oneLeader {s : System} (sound : Sound s) : OneLeader s := by
  intro i j t t' found found' key leads leads' within within'
  rcases sound.given i t found leads.2 with ⟨row, current, -⟩ | late
  · rcases sound.given j t' found' leads'.2 with ⟨row', current', -⟩ | late
    · exact sound.one_current found found' key current current'
    · exact absurd within' (Nat.not_le_of_lt late)
  · exact absurd within (Nat.not_le_of_lt late)

/-- In every run of the schedulers, whatever the delay between a statement and the time it writes,
at most one tick leads under a key within the time it has been given. -/
theorem leads_alone (es : List Event) : EveryState System.step OneLeader {} es :=
  everyState_mono (fun _ sound => sound.oneLeader) (sound_run es)

/-! ## What a replaced tick can do -/

/-- The row of the tick has another token, or none. -/
def Replaced (s : System) (i : Nat) : Prop := ∃ t, s.ticks.get? i = some t ∧ s.current t = none

theorem current_eq_none {s : System} {t : Tick} :
    s.current t = none ↔ ∀ row, s.leases.get? t.key = some row → row.leaseToken ≠ some t.token := by
  simp [System.current, Option.filter_eq_none_iff]

def batchesOf (i : Nat) (s : System) : List (Nat × Nat) := s.batches.filter (·.1 = i)

/-- What a step leaves of a tick. -/
structure Keeps (t t' : Tick) : Prop where
  key : t'.key = t.key
  token : t'.token = t.token
  lost : t.leaseLost = true → t'.leaseLost = true

theorem Keeps.refl (t : Tick) : Keeps t t := ⟨rfl, rfl, id⟩

theorem get?_put_kept {ticks : KeyedTable Nat Tick} {i j : Nat} {t u u' : Tick}
    (found : ticks.get? i = some t) (known : ticks.get? j = some u) (kept : Keeps u u') :
    ∃ t', (ticks.put j u').get? i = some t' ∧ Keeps t t' := by
  rw [KeyedTable.get?_put]
  split
  · rename_i same
    rw [same, known] at found
    obtain rfl := Option.some.inj found
    exact ⟨u', rfl, kept⟩
  · exact ⟨t, found, .refl t⟩

theorem step_tick {s : System} {i : Nat} {t : Tick} (found : s.ticks.get? i = some t) (e : Event) :
    ∃ t', (s.step e).ticks.get? i = some t' ∧ Keeps t t' := by
  have same : ∃ t', s.ticks.get? i = some t' ∧ Keeps t t' := ⟨t, found, .refl t⟩
  cases e with
  | wait | create | releaseKey | batch =>
    simp only [System.step, System.create, System.releaseKey]
    repeat' split
    all_goals exact same
  | acquireKey j key holderId now ttlMs =>
    simp only [System.step]
    split
    · rename_i met
      unfold System.acquireKey
      split
      · split
        · refine ⟨t, ?_, .refl t⟩
          rw [KeyedTable.get?_put, if_neg]
          · exact found
          · rintro rfl
            rw [met.2] at found
            cases found
        · exact same
      · exact same
    · exact same
  | heartbeatKey j now ttlMs =>
    simp only [System.step]
    split
    · unfold System.heartbeatKey
      split
      · rename_i u known
        split
        · exact get?_put_kept found known ⟨rfl, rfl, id⟩
        · exact get?_put_kept found known ⟨rfl, rfl, fun _ => rfl⟩
      · exact same
    · exact same
  | heartbeatThrows j =>
    simp only [System.step]
    split
    · rename_i u known
      exact get?_put_kept found known ⟨rfl, rfl, fun _ => rfl⟩
    · exact same
  | finish j =>
    simp only [System.step]
    split
    · rename_i u known
      exact get?_put_kept found known ⟨rfl, rfl, id⟩
    · exact same

/-- A token that a row has after a step is one it had, or a fresh one. -/
theorem step_row {s : System} {key : String} {row' : Lease} {token : Nat} (e : Event)
    (found : (s.step e).leases.get? key = some row') (holds : row'.leaseToken = some token) :
    (∃ row, s.leases.get? key = some row ∧ row.leaseToken = some token) ∨ token = s.uuid := by
  have put_ : ∀ {name : String} {new : Lease}, (s.leases.put name new).get? key = some row' →
      (key = name ∧ row' = new) ∨ s.leases.get? key = some row' := by
    intro name new known
    rw [KeyedTable.get?_put] at known
    split at known
    · cases known
      exact .inl ⟨‹_›, rfl⟩
    · exact .inr known
  cases e with
  | wait | heartbeatThrows | batch | finish =>
    simp only [System.step] at found
    repeat' split at found
    all_goals exact .inl ⟨row', found, holds⟩
  | create name now =>
    simp only [System.step, System.create] at found
    split at found
    · split at found
      · exact .inl ⟨row', found, holds⟩
      · rcases put_ found with ⟨-, rfl⟩ | before
        · cases holds
        · exact .inl ⟨row', before, holds⟩
    · exact .inl ⟨row', found, holds⟩
  | acquireKey j name holderId now ttlMs =>
    simp only [System.step, System.acquireKey] at found
    split at found
    · split at found
      · split at found
        · rcases put_ found with ⟨-, rfl⟩ | before
          · exact .inr (Option.some.inj holds).symm
          · exact .inl ⟨row', before, holds⟩
        · exact .inl ⟨row', found, holds⟩
      · exact .inl ⟨row', found, holds⟩
    · exact .inl ⟨row', found, holds⟩
  | heartbeatKey j now ttlMs =>
    simp only [System.step, System.heartbeatKey] at found
    split at found
    · split at found
      · split at found
        · rename_i row current
          rcases put_ found with ⟨rfl, rfl⟩ | before
          · exact .inl ⟨row, (current_eq_some.mp current).1, holds⟩
          · exact .inl ⟨row', before, holds⟩
        · exact .inl ⟨row', found, holds⟩
      · exact .inl ⟨row', found, holds⟩
    · exact .inl ⟨row', found, holds⟩
  | releaseKey j now =>
    simp only [System.step, System.releaseKey] at found
    split at found
    · split at found
      · split at found
        · split at found
          · rcases put_ found with ⟨-, rfl⟩ | before
            · cases holds
            · exact .inl ⟨row', before, holds⟩
          · exact .inl ⟨row', found, holds⟩
        · exact .inl ⟨row', found, holds⟩
      · exact .inl ⟨row', found, holds⟩
    · exact .inl ⟨row', found, holds⟩

theorem replaced_step {s : System} (sound : Sound s) {i : Nat} (replaced : Replaced s i)
    (e : Event) : Replaced (s.step e) i := by
  obtain ⟨t, found, gone⟩ := replaced
  obtain ⟨t', found', kept⟩ := step_tick found e
  refine ⟨t', found', current_eq_none.mpr fun row known holds => ?_⟩
  rw [kept.key] at known
  rw [kept.token] at holds
  rcases step_row e known holds with ⟨row', before, holds'⟩ | fresh
  · exact current_eq_none.mp gone row' before holds'
  · exact absurd fresh (Nat.ne_of_lt (sound.tokens i t found))

/-- A tick that has lost its lease begins no batch. -/
theorem batches_step {s : System} {i : Nat} {t : Tick} (found : s.ticks.get? i = some t)
    (lost : t.leaseLost = true) (e : Event) : batchesOf i (s.step e) = batchesOf i s := by
  cases e with
  | batch j =>
    simp only [System.step]
    split
    · rename_i u known
      split
      · rfl
      · rename_i going
        have other : j ≠ i := by
          rintro rfl
          rw [known] at found
          obtain rfl := Option.some.inj found
          rw [lost] at going
          exact going rfl
        simp [batchesOf, other]
    · rfl
  | _ =>
    simp only [System.step, System.create, System.acquireKey, System.heartbeatKey,
      System.releaseKey]
    repeat' split
    all_goals rfl

theorem batches_run {s : System} {i : Nat} {t : Tick} (found : s.ticks.get? i = some t)
    (lost : t.leaseLost = true) (es : List Event) :
    batchesOf i (run System.step s es) = batchesOf i s := by
  induction es generalizing s t with
  | nil => rfl
  | cons e es ih =>
    obtain ⟨t', found', kept⟩ := step_tick found e
    rw [run_cons, ih found' (kept.lost lost), batches_step found lost e]

/-- From the moment that the row of a tick has another token or none: its heartbeats and its
release change no row, and after its next heartbeat it begins no batch. -/
theorem fenced (es later : List Event) (i : Nat) (replaced : Replaced (run System.step {} es) i) :
    let s := run System.step (run System.step {} es) later
    (∀ now ttlMs, (s.step (.heartbeatKey i now ttlMs)).leases = s.leases) ∧
    (∀ now, (s.step (.releaseKey i now)).leases = s.leases) ∧
    ∀ now ttlMs after, now ≤ s.clock →
      batchesOf i (run System.step (s.step (.heartbeatKey i now ttlMs)) after) = batchesOf i s := by
  have keeps : ∀ (s : System) (later : List Event), Sound s → Replaced s i →
      Replaced (run System.step s later) i := by
    intro s later sound known
    induction later generalizing s with
    | nil => exact known
    | cons e later ih => exact ih _ (sound_step sound e) (replaced_step sound known e)
  have sound : Sound (run System.step {} es) := (sound_run es).last
  obtain ⟨t, found, gone⟩ := keeps _ later sound replaced
  generalize run System.step (run System.step {} es) later = s at found gone
  refine ⟨fun now ttlMs => ?_, fun now => ?_, fun now ttlMs after shown => ?_⟩
  · simp only [System.step, System.heartbeatKey, found, gone]
    split <;> rfl
  · simp only [System.step, System.releaseKey, found, gone]
    split
    · split <;> rfl
    · rfl
  · have beaten : s.step (.heartbeatKey i now ttlMs) =
        { s with ticks := s.ticks.put i { t with leaseLost := true } } := by
      simp only [System.step, if_pos shown, System.heartbeatKey, found, gone]
    rw [beaten, batches_run (t := { t with leaseLost := true }) ?_ rfl]
    · rfl
    · dsimp only
      rw [KeyedTable.get?_put, if_pos rfl]

namespace Sample

/-- A tick is slow, another process takes the lease over, and the first one goes on. -/
def takenOver : List Event :=
  [.create "media_job" 0, .acquireKey 1 "media_job" 7 0 leaseTtlMs, .batch 1, .wait 90001,
    .acquireKey 2 "media_job" 8 90001 leaseTtlMs, .batch 2]

theorem takenOver_fenced :
    let s := run System.step (run System.step {} takenOver) [.batch 1]
    (∀ now ttlMs, (s.step (.heartbeatKey 1 now ttlMs)).leases = s.leases) ∧
    (∀ now, (s.step (.releaseKey 1 now)).leases = s.leases) ∧
    ∀ now ttlMs after, now ≤ s.clock →
      batchesOf 1 (run System.step (s.step (.heartbeatKey 1 now ttlMs)) after) = batchesOf 1 s :=
  fenced takenOver [.batch 1] 1
    ⟨⟨"media_job", 0, 90000, false, false⟩, by decide +kernel, by decide +kernel⟩

end Sample

end Persai.SchedulerLease
