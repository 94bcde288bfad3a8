import Mathlib.Data.List.Nodup
import Mathlib.Data.List.Range

/-!
# The turn stream

The events of a turn on their way to its listeners: the durable store, whose script numbers
each event that it appends, and a subscriber, which replays what the store has and then
follows, and drops every number not above the last one it delivered.
-/

namespace Persai.TurnStream

/-- One event as it travels; `π` is its payload, as the JSON text carries it. -/
structure TurnStreamEnvelope (π : Type) where
  seq : Nat
  event : String
  payload : π
  userId : Option String
  deriving DecidableEq, Repr

structure TurnStreamMeta where
  userId : String
  terminalPublished : Bool
  deriving DecidableEq, Repr

def turnStreamTerminalEvents : List String := ["completed", "interrupted", "failed"]

def isTurnStreamTerminalEvent (event : String) : Bool := turnStreamTerminalEvents.contains event

/-- The three keys of a turn in the store. The events are numbered from one, without a gap. -/
structure StoredTurn (π : Type) where
  metaKey : Option TurnStreamMeta
  eventsKey : List (TurnStreamEnvelope π)
  seqKey : Nat
  numbered : eventsKey.map (·.seq) = List.range' 1 seqKey

inductive TurnStreamRegistrationResult where
  | registered | idempotent | conflict
  deriving DecidableEq, Repr

namespace StoredTurn

variable {π : Type}

/-- A turn that was never registered. -/
def absent : StoredTurn π := ⟨none, [], 0, rfl⟩

def registerTurn (t : StoredTurn π) (userId : String) :
    StoredTurn π × TurnStreamRegistrationResult :=
  match t.metaKey with
  | some turnMeta => (t, if turnMeta.userId ≠ userId then .conflict else .idempotent)
  | none => ({ t with metaKey := some ⟨userId, false⟩ }, .registered)

theorem numbered_push (t : StoredTurn π) (envelope : TurnStreamEnvelope π)
    (next : envelope.seq = t.seqKey + 1) :
    (t.eventsKey ++ [envelope]).map (·.seq) = List.range' 1 (t.seqKey + 1) := by
  rw [List.map_append, t.numbered, List.range'_concat, List.map_singleton, next,
    Nat.one_mul, Nat.add_comm]

/-- The append script: nothing for a turn that is missing or another user's. -/
def append (t : StoredTurn π) (userId event : String) (payload : π) :
    Option (StoredTurn π × TurnStreamEnvelope π) :=
  match t.metaKey with
  | none => none
  | some turnMeta =>
    if turnMeta.userId ≠ userId then none
    else
      let envelope : TurnStreamEnvelope π := ⟨t.seqKey + 1, event, payload, some userId⟩
      some
        ({ metaKey := some
             (if isTurnStreamTerminalEvent event then { turnMeta with terminalPublished := true }
              else turnMeta)
           eventsKey := t.eventsKey ++ [envelope]
           seqKey := t.seqKey + 1
           numbered := t.numbered_push envelope rfl }, envelope)

def listFrom (t : StoredTurn π) (fromSeq : Nat) : List (TurnStreamEnvelope π) :=
  t.eventsKey.filter fun envelope => fromSeq < envelope.seq

/-- The turn is registered, and for this user. -/
def registeredFor (t : StoredTurn π) (userId : String) : Bool :=
  t.metaKey.any fun turnMeta => turnMeta.userId == userId

section
variable {t t' : StoredTurn π} {userId event : String} {payload : π}
  {envelope : TurnStreamEnvelope π}

theorem append_eq_none_iff :
    t.append userId event payload = none ↔ t.registeredFor userId = false := by
  unfold append registeredFor
  cases t.metaKey with
  | none => simp
  | some turnMeta => by_cases same : turnMeta.userId = userId <;> simp [same]

/-- What an append that succeeds has done. -/
structure Appended (t : StoredTurn π) (userId event : String) (payload : π) (t' : StoredTurn π)
    (envelope : TurnStreamEnvelope π) : Prop where
  registered : t.registeredFor userId = true
  number : envelope = ⟨t.seqKey + 1, event, payload, some userId⟩
  events : t'.eventsKey = t.eventsKey ++ [envelope]
  counter : t'.seqKey = t.seqKey + 1
  owner : t'.metaKey.map (·.userId) = t.metaKey.map (·.userId)

theorem append_cases (appended : t.append userId event payload = some (t', envelope)) :
    Appended t userId event payload t' envelope := by
  unfold append at appended
  split at appended
  · cases appended
  rename_i turnMeta found
  split at appended
  · cases appended
  rename_i same
  cases appended
  refine ⟨?_, rfl, rfl, rfl, ?_⟩
  · simpa [registeredFor, found] using same
  · rw [found]
    dsimp only
    split <;> rfl

/-- The turn stays its user's. -/
theorem Appended.registeredFor (done : Appended t userId event payload t' envelope)
    (user : String) : t'.registeredFor user = t.registeredFor user := by
  have owner (t : StoredTurn π) :
      t.registeredFor user = (t.metaKey.map (·.userId)).any (· == user) := by
    cases found : t.metaKey <;> simp [StoredTurn.registeredFor, found]
  rw [owner, owner, done.owner]

theorem Appended.mem_iff (done : Appended t userId event payload t' envelope)
    {e : TurnStreamEnvelope π} : e ∈ t'.eventsKey ↔ e ∈ t.eventsKey ∨ e = envelope := by
  rw [done.events, List.mem_append, List.mem_singleton]

theorem seq_of_mem (mem : envelope ∈ t.eventsKey) : 0 < envelope.seq ∧ envelope.seq ≤ t.seqKey := by
  have listed : envelope.seq ∈ t.eventsKey.map (·.seq) := List.mem_map_of_mem mem
  rw [t.numbered, List.mem_range'_1] at listed
  omega

/-- The appended event is a new one. -/
theorem Appended.ne_of_mem (done : Appended t userId event payload t' envelope)
    {e : TurnStreamEnvelope π} (mem : e ∈ t.eventsKey) : e ≠ envelope := by
  rintro rfl
  have number : e.seq = t.seqKey + 1 := by rw [done.number]
  have old := (seq_of_mem mem).2
  omega

/-- Each number up to the counter is that of an event. -/
theorem exists_event {n : Nat} (positive : 0 < n) (le : n ≤ t.seqKey) :
    ∃ envelope ∈ t.eventsKey, envelope.seq = n := by
  have listed : n ∈ t.eventsKey.map (·.seq) := by
    rw [t.numbered, List.mem_range'_1]
    omega
  exact List.mem_map.mp listed

theorem eventsKey_sorted (t : StoredTurn π) :
    t.eventsKey.Pairwise fun a b => a.seq < b.seq := by
  have sorted := List.pairwise_lt_range' (s := 1) (n := t.seqKey) 1
  rw [← t.numbered] at sorted
  exact List.pairwise_map.mp sorted

/-- The number tells the event. -/
theorem eq_of_seq {a b : TurnStreamEnvelope π} (ha : a ∈ t.eventsKey) (hb : b ∈ t.eventsKey)
    (same : a.seq = b.seq) : a = b := by
  have nodup : (t.eventsKey.map (·.seq)).Nodup := by
    rw [t.numbered]
    exact List.nodup_range'
  exact List.inj_on_of_nodup_map nodup ha hb same

end

end StoredTurn

/-- A listener of `attachLocal` or `attachRemote`, with what it has handed to `onEvent`. -/
structure Subscriber (π : Type) where
  userId : String
  fromSeq : Nat
  lastSeq : Nat
  pending : List (TurnStreamEnvelope π)
  replaying : Bool
  delivered : List (TurnStreamEnvelope π)
  deriving DecidableEq, Repr

namespace Subscriber

variable {π : Type}

def attaching (userId : String) (fromSeq : Nat) : Subscriber π :=
  ⟨userId, fromSeq, fromSeq, [], true, []⟩

def envelopeAllowed (envelope : TurnStreamEnvelope π) (userId : String) : Bool :=
  envelope.userId.all (· == userId)

def deliver (s : Subscriber π) (envelope : TurnStreamEnvelope π) : Subscriber π :=
  if !envelopeAllowed envelope s.userId then s
  else if envelope.seq ≤ s.lastSeq then s
  else { s with lastSeq := envelope.seq, delivered := s.delivered ++ [envelope] }

/-- The callback: what arrives during the replay waits for its end. -/
def onEnvelope (s : Subscriber π) (envelope : TurnStreamEnvelope π) : Subscriber π :=
  if s.replaying then { s with pending := s.pending ++ [envelope] } else s.deliver envelope

/-- The history, then what has arrived meanwhile. -/
def replay (s : Subscriber π) (history : List (TurnStreamEnvelope π)) : Subscriber π :=
  let s₁ : Subscriber π := { history.foldl deliver s with replaying := false }
  s₁.pending.foldl deliver s₁

section
variable {s : Subscriber π} {envelope : TurnStreamEnvelope π}

theorem deliver_old (old : envelope.seq ≤ s.lastSeq) : s.deliver envelope = s := by
  rw [deliver, if_pos old, ite_self]

theorem deliver_new (allowed : envelopeAllowed envelope s.userId = true)
    (new : s.lastSeq < envelope.seq) : s.deliver envelope =
      { s with lastSeq := envelope.seq, delivered := s.delivered ++ [envelope] } := by
  rw [deliver, allowed, Bool.not_true, if_neg Bool.false_ne_true, if_neg (Nat.not_le.mpr new)]

/-- A delivery changes the last number and what has been delivered, and nothing else. -/
theorem deliver_frame (s : Subscriber π) (envelope : TurnStreamEnvelope π) :
    (s.deliver envelope).userId = s.userId ∧ (s.deliver envelope).fromSeq = s.fromSeq ∧
      (s.deliver envelope).pending = s.pending ∧
      (s.deliver envelope).replaying = s.replaying := by
  unfold deliver
  split
  · exact ⟨rfl, rfl, rfl, rfl⟩
  · split <;> exact ⟨rfl, rfl, rfl, rfl⟩

@[simp] theorem deliver_userId (s : Subscriber π) (envelope : TurnStreamEnvelope π) :
    (s.deliver envelope).userId = s.userId := (deliver_frame s envelope).1

theorem lastSeq_le_deliver (s : Subscriber π) (envelope : TurnStreamEnvelope π) :
    s.lastSeq ≤ (s.deliver envelope).lastSeq := by
  unfold deliver
  split
  · exact Nat.le_refl _
  · split
    · exact Nat.le_refl _
    · exact Nat.le_of_lt (Nat.lt_of_not_le ‹_›)

theorem lastSeq_deliver (allowed : envelopeAllowed envelope s.userId = true) :
    (s.deliver envelope).lastSeq = max s.lastSeq envelope.seq := by
  rcases Nat.lt_or_ge s.lastSeq envelope.seq with new | old
  · rw [deliver_new allowed new]
    exact (Nat.max_eq_right (Nat.le_of_lt new)).symm
  · rw [deliver_old old, Nat.max_eq_left old]

theorem foldl_deliver_frame (envelopes : List (TurnStreamEnvelope π)) (s : Subscriber π) :
    (envelopes.foldl deliver s).userId = s.userId ∧
      (envelopes.foldl deliver s).fromSeq = s.fromSeq ∧
      (envelopes.foldl deliver s).pending = s.pending ∧
      (envelopes.foldl deliver s).replaying = s.replaying ∧
      s.lastSeq ≤ (envelopes.foldl deliver s).lastSeq := by
  induction envelopes generalizing s with
  | nil => exact ⟨rfl, rfl, rfl, rfl, Nat.le_refl _⟩
  | cons envelope envelopes ih =>
    obtain ⟨user, start, waiting, phase⟩ := deliver_frame s envelope
    obtain ⟨user', start', waiting', phase', le⟩ := ih (s.deliver envelope)
    exact ⟨user'.trans user, start'.trans start, waiting'.trans waiting, phase'.trans phase,
      Nat.le_trans (lastSeq_le_deliver s envelope) le⟩

theorem foldl_deliver_replaying (envelopes : List (TurnStreamEnvelope π)) (s : Subscriber π)
    (replaying : Bool) : envelopes.foldl deliver { s with replaying } =
      { envelopes.foldl deliver s with replaying } := by
  induction envelopes generalizing s with
  | nil => rfl
  | cons envelope envelopes ih =>
    have next : deliver { s with replaying } envelope = { s.deliver envelope with replaying } := by
      unfold deliver
      dsimp only
      split
      · rfl
      · split <;> rfl
    rw [List.foldl_cons, next, ih, List.foldl_cons]

/-- The replay delivers the history and then what waits. -/
theorem replay_eq (s : Subscriber π) (history : List (TurnStreamEnvelope π)) :
    s.replay history =
      { (history ++ s.pending).foldl deliver s with replaying := false } := by
  have waiting := (foldl_deliver_frame history s).2.2.1
  unfold replay
  dsimp only
  rw [foldl_deliver_replaying (history.foldl deliver s).pending (history.foldl deliver s) false,
    waiting, List.foldl_append]

/-- After deliveries every allowed one is old. -/
theorem le_lastSeq_foldl {envelopes : List (TurnStreamEnvelope π)}
    (mem : envelope ∈ envelopes) (allowed : envelopeAllowed envelope s.userId = true) :
    envelope.seq ≤ (envelopes.foldl deliver s).lastSeq := by
  induction envelopes generalizing s with
  | nil => cases mem
  | cons first envelopes ih =>
    rcases List.mem_cons.mp mem with rfl | mem
    · have now : envelope.seq ≤ (s.deliver envelope).lastSeq := by
        rw [lastSeq_deliver allowed]
        exact Nat.le_max_right ..
      exact Nat.le_trans now (foldl_deliver_frame envelopes _).2.2.2.2
    · exact ih mem (by rwa [deliver_userId])

end

end Subscriber

end Persai.TurnStream
