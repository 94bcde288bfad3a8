import Persai.Runs
import Persai.TurnStream.Store

/-!
# Reattaching on another pod

Several processes append to the store and notify afterwards, each its own events in order. A
subscriber listens, reads the history, delivers it and then what the channel has brought. It
misses an event when a notification overtakes an older one, and when one goes out after the
history was read and before the channel is subscribed to, which only the first listener of a
pod waits for; in every other run it has received all of them.
-/

namespace Persai.TurnStream

open Runs

inductive AttachPhase (π : Type) where
  | detached
  /-- The listener is added; `ready` when `subscribe` has returned. -/
  | listening (ready : Bool)
  /-- The history is on its way to the pod. -/
  | reading (history : List (TurnStreamEnvelope π))
  | live
  deriving DecidableEq, Repr

/-- One turn in the store and one subscriber: the events appended and not notified yet, under
the process that is to notify, and the notifications on their way to the subscriber's pod. -/
structure Stream (π : Type) where
  store : StoredTurn π
  unsent : List (Nat × TurnStreamEnvelope π)
  /-- The store forwards the channel to the pod. -/
  subscribed : Bool
  wire : List (TurnStreamEnvelope π)
  phase : AttachPhase π
  subscriber : Subscriber π

inductive StreamEvent (π : Type) where
  | append (process : Nat) (userId event : String) (payload : π)
  | notify (process : Nat)
  /-- The listener is added, next to others of its pod or as the first. -/
  | listen (others : Bool)
  | subscribed | unsubscribed
  | readHistory | replay
  /-- The pod takes the next notification from the channel. -/
  | deliver

variable {π : Type}

/-! ## What a subscriber has been given -/

/-- No number leaves out one that is yet to come. -/
def InTurn (last : Nat) : List (TurnStreamEnvelope π) → Prop
  | [] => True
  | envelope :: rest => envelope.seq ≤ last + 1 ∧ InTurn (max last envelope.seq) rest

/-- The subscriber has been given events of the turn, after `fromSeq` and in order. -/
structure Given (t : StoredTurn π) (sub : Subscriber π) : Prop where
  given : ∀ e ∈ sub.delivered, e ∈ t.eventsKey ∧ sub.fromSeq < e.seq ∧ e.seq ≤ sub.lastSeq
  sorted : sub.delivered.Pairwise fun a b => a.seq < b.seq
  start : sub.fromSeq ≤ sub.lastSeq
  bound : sub.lastSeq ≤ max sub.fromSeq t.seqKey

/-- It has been given all of them up to its last number. -/
def Full (t : StoredTurn π) (sub : Subscriber π) : Prop :=
  ∀ e ∈ t.eventsKey, sub.fromSeq < e.seq → e.seq ≤ sub.lastSeq → e ∈ sub.delivered

section
variable {t : StoredTurn π} {sub : Subscriber π} {envelope : TurnStreamEnvelope π}
  {envelopes : List (TurnStreamEnvelope π)}

theorem Given.deliver (h : Given t sub) (mem : envelope ∈ t.eventsKey) :
    Given t (sub.deliver envelope) := by
  unfold Subscriber.deliver
  split
  · exact h
  split
  · exact h
  rename_i new
  have new : sub.lastSeq < envelope.seq := Nat.lt_of_not_le new
  have start := h.start
  have numbered := (StoredTurn.seq_of_mem mem).2
  refine ⟨?_, ?_, Nat.le_of_lt (Nat.lt_of_le_of_lt start new),
    Nat.le_trans numbered (Nat.le_max_right ..)⟩
  · intro e given
    rcases List.mem_append.mp given with given | given
    · obtain ⟨stored, after, le⟩ := h.given e given
      exact ⟨stored, after, Nat.le_trans le (Nat.le_of_lt new)⟩
    · rw [List.mem_singleton.mp given]
      exact ⟨mem, Nat.lt_of_le_of_lt start new, Nat.le_refl _⟩
  · refine List.pairwise_append.mpr ⟨h.sorted, List.pairwise_singleton .., ?_⟩
    intro a given b last
    rw [List.mem_singleton.mp last]
    exact Nat.lt_of_le_of_lt (h.given a given).2.2 new

theorem Given.foldl (h : Given t sub) (mem : ∀ e ∈ envelopes, e ∈ t.eventsKey) :
    Given t (envelopes.foldl Subscriber.deliver sub) := by
  induction envelopes generalizing sub with
  | nil => exact h
  | cons first envelopes ih =>
    exact ih (h.deliver (mem first (.head _))) fun e later => mem e (.tail _ later)

theorem mem_delivered_deliver {e : TurnStreamEnvelope π}
    (mem : e ∈ (sub.deliver envelope).delivered) : e ∈ sub.delivered ∨ e = envelope := by
  unfold Subscriber.deliver at mem
  split at mem
  · exact .inl mem
  · split at mem
    · exact .inl mem
    · simpa using mem

theorem mem_delivered_foldl {e : TurnStreamEnvelope π}
    (mem : e ∈ (envelopes.foldl Subscriber.deliver sub).delivered) :
    e ∈ sub.delivered ∨ e ∈ envelopes := by
  induction envelopes generalizing sub with
  | nil => exact .inl mem
  | cons first envelopes ih =>
    rcases ih mem with given | later
    · exact (mem_delivered_deliver given).imp_right fun same => by rw [same]; exact .head _
    · exact .inr (.tail _ later)

/-- What a delivery leaves out stays left out. -/
theorem full_of_deliver (full : Full t (sub.deliver envelope)) : Full t sub := by
  intro e stored after le
  obtain ⟨-, start, -, -⟩ := Subscriber.deliver_frame sub envelope
  have given := full e stored (start.symm ▸ after)
    (Nat.le_trans le (Subscriber.lastSeq_le_deliver sub envelope))
  unfold Subscriber.deliver at given
  split at given
  · exact given
  split at given
  · exact given
  rename_i new
  rcases List.mem_append.mp given with given | last
  · exact given
  · rw [List.mem_singleton.mp last] at le
    exact absurd le new

theorem full_of_foldl (full : Full t (envelopes.foldl Subscriber.deliver sub)) : Full t sub := by
  induction envelopes generalizing sub with
  | nil => exact full
  | cons first envelopes ih => exact full_of_deliver (ih full)

/-- A delivery leaves none out just if its number is at most the next one. -/
theorem full_deliver_iff (h : Given t sub) (full : Full t sub)
    (allowed : Subscriber.envelopeAllowed envelope sub.userId = true)
    (mem : envelope ∈ t.eventsKey) :
    Full t (sub.deliver envelope) ↔ envelope.seq ≤ sub.lastSeq + 1 := by
  rcases Nat.lt_or_ge sub.lastSeq envelope.seq with new | old
  swap
  · rw [Subscriber.deliver_old old]
    exact iff_of_true full (Nat.le_succ_of_le old)
  rw [Subscriber.deliver_new allowed new]
  have numbered := (StoredTurn.seq_of_mem mem).2
  constructor
  · intro full'
    by_contra skips
    have skips : sub.lastSeq + 1 < envelope.seq := Nat.lt_of_not_le skips
    obtain ⟨e, stored, number⟩ := StoredTurn.exists_event (t := t) (Nat.succ_pos sub.lastSeq)
      (Nat.le_trans (Nat.le_of_lt skips) numbered)
    have after : sub.fromSeq < e.seq := by rw [number]; exact Nat.lt_succ_of_le h.start
    have before : e.seq ≤ envelope.seq := by rw [number]; exact Nat.le_of_lt skips
    rcases List.mem_append.mp (full' e stored after before) with given | last
    · have le := (h.given e given).2.2
      omega
    · rw [List.mem_singleton.mp last] at number
      omega
  · intro next e stored after le
    have le : e.seq ≤ envelope.seq := le
    rcases Nat.lt_or_ge sub.lastSeq e.seq with new' | old
    · have same : e = envelope := StoredTurn.eq_of_seq stored mem (by omega)
      rw [same]
      exact List.mem_append_right _ (.head _)
    · exact List.mem_append_left _ (full e stored after old)

theorem full_foldl_iff (h : Given t sub) (full : Full t sub)
    (allowed : ∀ e ∈ envelopes, Subscriber.envelopeAllowed e sub.userId = true)
    (mem : ∀ e ∈ envelopes, e ∈ t.eventsKey) :
    Full t (envelopes.foldl Subscriber.deliver sub) ↔ InTurn sub.lastSeq envelopes := by
  induction envelopes generalizing sub with
  | nil => exact iff_of_true full trivial
  | cons first envelopes ih =>
    have now := full_deliver_iff h full (allowed first (.head _)) (mem first (.head _))
    rw [List.foldl_cons, InTurn, ← Subscriber.lastSeq_deliver (allowed first (.head _))]
    constructor
    · intro all
      have full' := full_of_foldl all
      refine ⟨now.mp full', ?_⟩
      refine (ih (h.deliver (mem first (.head _))) full' ?_ ?_).mp all
      · intro e later
        rw [Subscriber.deliver_userId]
        exact allowed e (.tail _ later)
      · exact fun e later => mem e (.tail _ later)
    · rintro ⟨next, rest⟩
      refine (ih (h.deliver (mem first (.head _))) (now.mpr next) ?_ ?_).mpr rest
      · intro e later
        rw [Subscriber.deliver_userId]
        exact allowed e (.tail _ later)
      · exact fun e later => mem e (.tail _ later)

end

namespace Stream

/-- A turn just registered by `owner`, and a subscriber that is yet to attach. -/
def start (owner userId : String) (fromSeq : Nat) : Stream π :=
  ⟨(StoredTurn.absent.registerTurn owner).1, [], false, [], .detached, .attaching userId fromSeq⟩

/-- The script runs; a process has at most one event to notify. -/
def append (s : Stream π) (process : Nat) (userId event : String) (payload : π) : Stream π :=
  if s.unsent.any (·.1 == process) then s
  else
    match s.store.append userId event payload with
    | none => s
    | some (store, envelope) => { s with store, unsent := s.unsent ++ [(process, envelope)] }

def notify (s : Stream π) (process : Nat) : Stream π :=
  match s.unsent.find? (·.1 == process) with
  | none => s
  | some (_, envelope) =>
    { s with
      unsent := s.unsent.eraseP (·.1 == process)
      wire := if s.subscribed then s.wire ++ [envelope] else s.wire }

/-- `attach` up to the await of `subscribe`: only the first listener of the pod waits for the
store to confirm. -/
def listen (s : Stream π) (others : Bool) : Stream π :=
  match s.phase with
  | .detached =>
    if s.store.registeredFor s.subscriber.userId then { s with phase := .listening others } else s
  | _ => s

def confirm (s : Stream π) : Stream π :=
  { s with
    subscribed := true
    phase := if s.phase matches .listening _ then .listening true else s.phase }

/-- The channel is given up before the subscriber counts on it. -/
def unsubscribe (s : Stream π) : Stream π :=
  match s.phase with
  | .detached | .listening false => { s with subscribed := false }
  | _ => s

def readHistory (s : Stream π) : Stream π :=
  match s.phase with
  | .listening true => { s with phase := .reading (s.store.listFrom s.subscriber.fromSeq) }
  | _ => s

def replay (s : Stream π) : Stream π :=
  match s.phase with
  | .reading history => { s with phase := .live, subscriber := s.subscriber.replay history }
  | _ => s

/-- A notification that finds no listener is dropped. -/
def deliver (s : Stream π) : Stream π :=
  match s.wire with
  | [] => s
  | envelope :: wire =>
    match s.phase with
    | .detached => { s with wire }
    | _ => { s with wire, subscriber := s.subscriber.onEnvelope envelope }

def step (s : Stream π) : StreamEvent π → Stream π
  | .append process userId event payload => s.append process userId event payload
  | .notify process => s.notify process
  | .listen others => s.listen others
  | .subscribed => s.confirm
  | .unsubscribed => s.unsubscribe
  | .readHistory => s.readHistory
  | .replay => s.replay
  | .deliver => s.deliver

/-- The subscriber is attached and every notification has been delivered. -/
def Quiescent (s : Stream π) : Prop := s.phase = .live ∧ s.unsent = [] ∧ s.wire = []

/-- It has received exactly the events after `fromSeq`, each once and in order. -/
def Complete (s : Stream π) : Prop :=
  s.subscriber.delivered = s.store.listFrom s.subscriber.fromSeq

/-! ## When it is so -/

/-- The subscriber has the event, or is about to replay it. -/
def covers (s : Stream π) (envelope : TurnStreamEnvelope π) : Bool :=
  match s.phase with
  | .detached | .listening _ => true
  | .reading history =>
    envelope.seq ≤ s.subscriber.fromSeq || history.any fun e => e.seq == envelope.seq
  | .live => envelope.seq ≤ s.subscriber.lastSeq

/-- A notification that does not reach the pod is of an event that the subscriber has, and
none that it delivers overtakes an older one. -/
def Reaches (s : Stream π) : StreamEvent π → Prop
  | .notify process =>
    s.subscribed = false → ∀ unsent ∈ s.unsent.find? (·.1 == process), s.covers unsent.2 = true
  | .deliver => s.phase matches .live → InTurn s.subscriber.lastSeq (s.wire.take 1)
  | .replay =>
    match s.phase with
    | .reading history => InTurn s.subscriber.fromSeq (history ++ s.subscriber.pending)
    | _ => True
  | _ => True

/-! ## What a step does -/

/-- The events on their way to the subscriber: those that wait for the end of the replay, those
in the channel, and those to be notified. -/
def inFlight (s : Stream π) : List (TurnStreamEnvelope π) :=
  (if s.phase matches .live then [] else s.subscriber.pending) ++ s.wire ++ s.unsent.map Prod.snd

structure Sound (s : Stream π) : Prop where
  fence : s.phase ≠ .detached → s.store.registeredFor s.subscriber.userId = true
  owned : ∀ e ∈ s.store.eventsKey, ∃ owner, e.userId = some owner ∧
    s.store.registeredFor owner = true
  flying : ∀ e ∈ s.inFlight, e ∈ s.store.eventsKey
  once : s.inFlight.Nodup
  history : ∀ history, s.phase = .reading history → ∀ e ∈ history, e ∈ s.store.eventsKey
  fresh : s.phase ≠ .live → s.subscriber.lastSeq = s.subscriber.fromSeq ∧
    s.subscriber.delivered = [] ∧ s.subscriber.replaying = true
  live : s.phase = .live → s.subscriber.replaying = false
  given : Given s.store s.subscriber

/-- Every event after `fromSeq` has been given to the subscriber or is on its way, and none of
those on their way has been passed. -/
def Reached (s : Stream π) : Prop :=
  match s.phase with
  | .detached | .listening _ => True
  | .reading history =>
    ∀ e ∈ s.store.eventsKey, s.subscriber.fromSeq < e.seq → e ∈ history ∨ e ∈ s.inFlight
  | .live =>
    Full s.store s.subscriber ∧
      ∀ e ∈ s.store.eventsKey, s.subscriber.lastSeq < e.seq → e ∈ s.inFlight

theorem start_sound (owner userId : String) (fromSeq : Nat) :
    Sound (start owner userId fromSeq : Stream π) where
  fence := nofun
  owned := nofun
  flying := nofun
  once := .nil
  history := nofun
  fresh _ := ⟨rfl, rfl, rfl⟩
  live := nofun
  given := ⟨nofun, .nil, Nat.le_refl _, Nat.le_max_left ..⟩

section
variable {s : Stream π}

theorem Sound.allowed (h : Sound s) (attached : s.phase ≠ .detached)
    {e : TurnStreamEnvelope π} (mem : e ∈ s.store.eventsKey) :
    Subscriber.envelopeAllowed e s.subscriber.userId = true := by
  obtain ⟨owner, user, registered⟩ := h.owned e mem
  have registered' := h.fence attached
  unfold StoredTurn.registeredFor at registered registered'
  cases found : s.store.metaKey with
  | none => simp [found] at registered
  | some turnMeta =>
    simp only [found, Option.any_some, beq_iff_eq] at registered registered'
    simp [Subscriber.envelopeAllowed, user, ← registered, ← registered']

theorem reached_reading {history : List (TurnStreamEnvelope π)} (now : s.phase = .reading history) :
    Reached s ↔ ∀ e ∈ s.store.eventsKey, s.subscriber.fromSeq < e.seq →
      e ∈ history ∨ e ∈ s.inFlight := by
  rw [Reached, now]

theorem reached_live (now : s.phase = .live) :
    Reached s ↔ Full s.store s.subscriber ∧
      ∀ e ∈ s.store.eventsKey, s.subscriber.lastSeq < e.seq → e ∈ s.inFlight := by
  rw [Reached, now]

theorem append_cases (s : Stream π) (process : Nat) (userId event : String) (payload : π) :
    s.append process userId event payload = s ∨
      ∃ store envelope, StoredTurn.Appended s.store userId event payload store envelope ∧
        s.append process userId event payload =
          { s with store, unsent := s.unsent ++ [(process, envelope)] } := by
  unfold append
  split
  · exact .inl rfl
  · cases appended : s.store.append userId event payload with
    | none => exact .inl rfl
    | some result => exact .inr ⟨_, _, StoredTurn.append_cases appended, rfl⟩

section
variable {process : Nat} {userId event : String} {payload : π} {store : StoredTurn π}
  {envelope : TurnStreamEnvelope π}

theorem inFlight_appended : ({ s with
      store
      unsent := s.unsent ++ [(process, envelope)] } : Stream π).inFlight =
    s.inFlight ++ [envelope] := by
  simp only [inFlight, List.map_append, List.map_singleton, List.append_assoc]

/-- An event more in the store, and on its way. -/
theorem appended_sound (h : Sound s)
    (done : StoredTurn.Appended s.store userId event payload store envelope) :
    Sound { s with store, unsent := s.unsent ++ [(process, envelope)] } := by
  refine ⟨?_, ?_, ?_, ?_, ?_, h.fresh, h.live, ?_⟩
  · intro attached
    exact (done.registeredFor _).trans (h.fence attached)
  · intro e mem
    rcases done.mem_iff.mp mem with mem | rfl
    · obtain ⟨owner, user, registered⟩ := h.owned e mem
      exact ⟨owner, user, (done.registeredFor _).trans registered⟩
    · exact ⟨userId, by rw [done.number], (done.registeredFor _).trans done.registered⟩
  · intro e mem
    rw [inFlight_appended] at mem
    rcases List.mem_append.mp mem with mem | mem
    · exact done.mem_iff.mpr (.inl (h.flying e mem))
    · exact done.mem_iff.mpr (.inr (List.mem_singleton.mp mem))
  · rw [inFlight_appended]
    refine List.nodup_append.mpr ⟨h.once, List.nodup_singleton _, ?_⟩
    intro a mem b last
    rw [List.mem_singleton.mp last]
    exact done.ne_of_mem (h.flying a mem)
  · exact fun history reading e mem => done.mem_iff.mpr (.inl (h.history history reading e mem))
  · refine ⟨fun e mem => ?_, h.given.sorted, h.given.start, ?_⟩
    · obtain ⟨stored, rest⟩ := h.given.given e mem
      exact ⟨done.mem_iff.mpr (.inl stored), rest⟩
    · have bound := h.given.bound
      have counter := done.counter
      show s.subscriber.lastSeq ≤ max s.subscriber.fromSeq store.seqKey
      omega

theorem appended_reached (h : Sound s)
    (done : StoredTurn.Appended s.store userId event payload store envelope) :
    Reached { s with store, unsent := s.unsent ++ [(process, envelope)] } ↔ Reached s := by
  have flies (e : TurnStreamEnvelope π) (mem : e ∈ s.store.eventsKey) :
      e ∈ s.inFlight ++ [envelope] ↔ e ∈ s.inFlight := by
    rw [List.mem_append, List.mem_singleton]
    exact or_iff_left (done.ne_of_mem mem)
  have newest : envelope ∈ s.inFlight ++ [envelope] := List.mem_append_right _ (.head _)
  have bound := h.given.bound
  have start := h.given.start
  have number : envelope.seq = s.store.seqKey + 1 := by rw [done.number]
  unfold Reached
  simp only [inFlight_appended]
  cases now : s.phase with
  | detached => exact Iff.rfl
  | listening ready => exact Iff.rfl
  | reading history =>
    constructor
    · intro reached e mem after
      exact (reached e (done.mem_iff.mpr (.inl mem)) after).imp_right (flies e mem).mp
    · intro reached e mem after
      rcases done.mem_iff.mp mem with mem | rfl
      · exact (reached e mem after).imp_right (flies e mem).mpr
      · exact .inr newest
  | live =>
    refine and_congr ⟨fun full e mem => full e (done.mem_iff.mpr (.inl mem)), ?_⟩
      ⟨fun reached e mem after => ?_, fun reached e mem after => ?_⟩
    · intro full e mem after le
      rcases done.mem_iff.mp mem with mem | rfl
      · exact full e mem after le
      · omega
    · exact (flies e mem).mp (reached e (done.mem_iff.mpr (.inl mem)) after)
    · rcases done.mem_iff.mp mem with mem | rfl
      · exact (flies e mem).mpr (reached e mem after)
      · exact newest

end

theorem append_spec (h : Sound s) (process : Nat) (userId event : String) (payload : π) :
    Sound (s.append process userId event payload) ∧
      (Reached (s.append process userId event payload) ↔ Reached s) := by
  rcases append_cases s process userId event payload with same | ⟨store, envelope, done, appended⟩
  · rw [same]
    exact ⟨h, Iff.rfl⟩
  · rw [appended]
    exact ⟨appended_sound h done, appended_reached h done⟩

/-- Some of the events that are on their way no longer are. -/
theorem Sound.of_perm (h : Sound s) {taken flight : List (TurnStreamEnvelope π)}
    (perm : s.inFlight.Perm (taken ++ flight)) :
    (∀ e ∈ flight, e ∈ s.store.eventsKey) ∧ flight.Nodup ∧ ∀ e ∈ taken, e ∉ flight := by
  have nodup := perm.nodup_iff.mp h.once
  refine ⟨fun e mem => h.flying e (perm.mem_iff.mpr (List.mem_append_right _ mem)), ?_, ?_⟩
  · exact (List.nodup_append.mp nodup).2.1
  · exact fun e mem mem' => (List.nodup_append.mp nodup).2.2 e mem e mem' rfl

/-- What is taken away unseen must be covered. -/
theorem reached_of_perm (h : Sound s) {s' : Stream π} (store : s'.store = s.store)
    (phase : s'.phase = s.phase) (subscriber : s'.subscriber = s.subscriber)
    {taken : List (TurnStreamEnvelope π)} (perm : s.inFlight.Perm (taken ++ s'.inFlight)) :
    Reached s' ↔ Reached s ∧ ∀ e ∈ taken, s.covers e = true := by
  have flies (e : TurnStreamEnvelope π) : e ∈ s.inFlight ↔ e ∈ taken ∨ e ∈ s'.inFlight :=
    perm.mem_iff.trans List.mem_append
  have lost := (h.of_perm perm).2.2
  have stored (e : TurnStreamEnvelope π) (mem : e ∈ taken) : e ∈ s.store.eventsKey :=
    h.flying e ((flies e).mpr (.inl mem))
  unfold Reached covers
  rw [store, phase, subscriber]
  cases now : s.phase with
  | detached => simp
  | listening ready => simp
  | reading history =>
    dsimp only
    have covered {e : TurnStreamEnvelope π} (mem : e ∈ s.store.eventsKey) :
        (decide (e.seq ≤ s.subscriber.fromSeq) || history.any fun e' => e'.seq == e.seq) = true ↔
          e.seq ≤ s.subscriber.fromSeq ∨ e ∈ history := by
      simp only [Bool.or_eq_true, decide_eq_true_eq, List.any_eq_true, beq_iff_eq]
      refine or_congr_right ⟨?_, fun mem => ⟨e, mem, rfl⟩⟩
      rintro ⟨e', mem', same⟩
      rw [← StoredTurn.eq_of_seq (h.history history now e' mem') mem same]
      exact mem'
    constructor
    · intro reached
      refine ⟨fun e mem after => ?_, fun e mem => (covered (stored e mem)).mpr ?_⟩
      · exact (reached e mem after).imp_right fun flying => (flies e).mpr (.inr flying)
      · rcases Nat.lt_or_ge s.subscriber.fromSeq e.seq with after | before
        · exact .inr ((reached e (stored e mem) after).resolve_right (lost e mem))
        · exact .inl before
    · rintro ⟨reached, covers⟩ e mem after
      rcases reached e mem after with read | flying
      · exact .inl read
      rcases (flies e).mp flying with gone | flying
      · rcases (covered mem).mp (covers e gone) with before | read
        · exact absurd after (Nat.not_lt.mpr before)
        · exact .inl read
      · exact .inr flying
  | live =>
    simp only [decide_eq_true_eq, and_assoc]
    refine and_congr_right fun _ => ?_
    constructor
    · intro reached
      refine ⟨fun e mem after => (flies e).mpr (.inr (reached e mem after)), fun e mem => ?_⟩
      by_contra passed
      exact lost e mem (reached e (stored e mem) (Nat.lt_of_not_le passed))
    · rintro ⟨reached, covers⟩ e mem after
      refine ((flies e).mp (reached e mem after)).resolve_left fun gone => ?_
      exact absurd (covers e gone) (Nat.not_le.mpr after)

theorem perm_eraseP {α : Type} {p : α → Bool} {l : List α} {a : α} (found : l.find? p = some a) :
    l.Perm (a :: l.eraseP p) := by
  obtain ⟨holds, before, after, rfl, others⟩ := List.find?_eq_some_iff_append.mp found
  have skipped : ∀ b ∈ before, ¬ p b = true := by simpa using others
  rw [List.eraseP_append_right _ skipped, List.eraseP_cons_of_pos holds]
  exact List.perm_middle

/-- A notification reaches the channel, or is lost. -/
theorem notify_cases (s : Stream π) (process : Nat) :
    s.notify process = s ∧ s.unsent.find? (·.1 == process) = none ∨
      ∃ unsent envelope, s.unsent.find? (·.1 == process) = some (unsent, envelope) ∧
        (s.notify process).store = s.store ∧ (s.notify process).phase = s.phase ∧
        (s.notify process).subscriber = s.subscriber ∧
        s.inFlight.Perm
          ((if s.subscribed then [] else [envelope]) ++ (s.notify process).inFlight) := by
  unfold notify
  cases found : s.unsent.find? (·.1 == process) with
  | none => exact .inl ⟨rfl, rfl⟩
  | some entry =>
    obtain ⟨unsent, envelope⟩ := entry
    refine .inr ⟨unsent, envelope, rfl, rfl, rfl, rfl, ?_⟩
    have taken := (perm_eraseP found).map Prod.snd
    simp only [inFlight]
    cases s.subscribed with
    | true =>
      simp only [if_true, List.nil_append, List.append_assoc, List.singleton_append]
      exact (taken.append_left _).append_left _
    | false =>
      simp only [Bool.false_eq_true, if_false]
      refine ((taken.append_left _).trans ?_)
      exact List.perm_middle

theorem notify_spec (h : Sound s) (process : Nat) :
    Sound (s.notify process) ∧
      (Reached (s.notify process) ↔ Reached s ∧ Reaches s (.notify process)) := by
  rcases notify_cases s process with
    ⟨same, none⟩ | ⟨unsent, envelope, found, store, phase, subscriber, perm⟩
  · rw [same]
    exact ⟨h, (and_iff_left (by simp [Reaches, none])).symm⟩
  obtain ⟨flying, once, lost⟩ := h.of_perm perm
  have mem : envelope ∈ s.store.eventsKey := by
    refine h.flying envelope (List.mem_append_right _ ?_)
    exact List.mem_map_of_mem (List.mem_of_find?_eq_some found)
  constructor
  · refine ⟨?_, ?_, ?_, once, ?_, ?_, ?_, ?_⟩
    · rw [store, phase, subscriber]; exact h.fence
    · rw [store]; exact h.owned
    · rw [store]; exact flying
    · rw [store, phase]; exact h.history
    · rw [phase, subscriber]; exact h.fresh
    · rw [phase, subscriber]; exact h.live
    · rw [store, subscriber]; exact h.given
  · rw [reached_of_perm h store phase subscriber perm, Reaches, found]
    refine and_congr_right fun _ => ?_
    cases s.subscribed <;> simp

/-- The attach goes on: nothing on the way is touched. -/
theorem phase_spec (h : Sound s) {s' : Stream π} (store : s'.store = s.store)
    (subscriber : s'.subscriber = s.subscriber) (flight : s'.inFlight = s.inFlight)
    (before : s.phase ≠ .live) (after : s'.phase ≠ .live)
    (fence : s'.phase ≠ .detached → s.store.registeredFor s.subscriber.userId = true)
    (read : ∀ history, s'.phase = .reading history → ∀ e ∈ history, e ∈ s.store.eventsKey) :
    Sound s' where
  fence := by rw [store, subscriber]; exact fence
  owned := by rw [store]; exact h.owned
  flying := by rw [store, flight]; exact h.flying
  once := by rw [flight]; exact h.once
  history := by rw [store]; exact read
  fresh _ := by rw [subscriber]; exact h.fresh before
  live now := absurd now after
  given := by rw [store, subscriber]; exact h.given

theorem listen_spec (h : Sound s) (others : Bool) :
    Sound (s.listen others) ∧ (Reached (s.listen others) ↔ Reached s) := by
  unfold listen
  split
  · rename_i now
    split
    · rename_i registered
      refine ⟨phase_spec h rfl rfl ?_ (by simp [now]) nofun (fun _ => registered) nofun, ?_⟩
      · simp [inFlight, now]
      · simp [Reached, now]
    · exact ⟨h, Iff.rfl⟩
  · exact ⟨h, Iff.rfl⟩

theorem confirm_spec (h : Sound s) :
    Sound s.confirm ∧ (Reached s.confirm ↔ Reached s) := by
  cases now : s.phase with
  | listening ready =>
    have confirmed : s.confirm = { s with subscribed := true, phase := .listening true } := by
      simp [confirm, now]
    rw [confirmed]
    refine ⟨phase_spec h rfl rfl ?_ (by simp [now]) nofun (fun _ => ?_) nofun, ?_⟩
    · simp [inFlight, now]
    · exact h.fence (by simp [now])
    · simp [Reached, now]
  | detached | reading | live =>
    have confirmed : s.confirm = { s with subscribed := true } := by
      simp [confirm, now]
    rw [confirmed]
    exact ⟨⟨h.fence, h.owned, h.flying, h.once, h.history, h.fresh, h.live, h.given⟩, Iff.rfl⟩

theorem unsubscribe_spec (h : Sound s) :
    Sound s.unsubscribe ∧ (Reached s.unsubscribe ↔ Reached s) := by
  unfold unsubscribe
  split
  · exact ⟨⟨h.fence, h.owned, h.flying, h.once, h.history, h.fresh, h.live, h.given⟩, Iff.rfl⟩
  · exact ⟨⟨h.fence, h.owned, h.flying, h.once, h.history, h.fresh, h.live, h.given⟩, Iff.rfl⟩
  · exact ⟨h, Iff.rfl⟩

theorem readHistory_spec (h : Sound s) :
    Sound s.readHistory ∧ (Reached s.readHistory ↔ Reached s) := by
  unfold readHistory
  split
  · rename_i now
    refine ⟨phase_spec h rfl rfl ?_ (by simp [now]) nofun (fun _ => ?_) ?_, ?_⟩
    · simp [inFlight, now]
    · exact h.fence (by simp [now])
    · intro history reading e mem
      cases reading
      exact List.mem_of_mem_filter mem
    · simp only [Reached, now, iff_true]
      intro e mem after
      exact .inl (List.mem_filter.mpr ⟨mem, by simpa using after⟩)
  · exact ⟨h, Iff.rfl⟩

section
variable {history : List (TurnStreamEnvelope π)}

/-- What is replayed is in the store. -/
theorem Sound.replayed (h : Sound s) (now : s.phase = .reading history)
    {e : TurnStreamEnvelope π} (mem : e ∈ history ++ s.subscriber.pending) :
    e ∈ s.store.eventsKey := by
  rcases List.mem_append.mp mem with read | waiting
  · exact h.history history now e read
  · refine h.flying e ?_
    simp [inFlight, now, waiting]

theorem replay_of_reading (now : s.phase = .reading history) :
    s.replay = { s with
      phase := .live
      subscriber := { (history ++ s.subscriber.pending).foldl Subscriber.deliver s.subscriber with
        replaying := false } } := by
  simp only [replay, now, Subscriber.replay_eq]

theorem replayed_sound (h : Sound s) (now : s.phase = .reading history) : Sound s.replay := by
  rw [replay_of_reading now]
  have flight : s.inFlight = s.subscriber.pending ++ (s.wire ++ s.unsent.map Prod.snd) := by
    simp [inFlight, now]
  obtain ⟨flying, once, -⟩ := h.of_perm (List.Perm.of_eq flight)
  obtain ⟨user, -, -, -, -⟩ :=
    Subscriber.foldl_deliver_frame (history ++ s.subscriber.pending) s.subscriber
  have given := h.given.foldl fun e => h.replayed now
  refine ⟨fun _ => ?_, h.owned, flying, once, nofun, nofun, fun _ => rfl, ?_⟩
  · dsimp only
    rw [user]
    exact h.fence (by simp [now])
  · exact ⟨given.given, given.sorted, given.start, given.bound⟩

/-- The replay leaves none out just if the numbers that it goes through leave no gap. -/
theorem replayed_reached (h : Sound s) (now : s.phase = .reading history) :
    Reached s.replay ↔
      Reached s ∧ InTurn s.subscriber.fromSeq (history ++ s.subscriber.pending) := by
  obtain ⟨last, none, -⟩ := h.fresh (by simp [now])
  have allowed (e : TurnStreamEnvelope π) (mem : e ∈ history ++ s.subscriber.pending) :=
    h.allowed (by simp [now]) (h.replayed now mem)
  obtain ⟨-, start, -, -, -⟩ :=
    Subscriber.foldl_deliver_frame (history ++ s.subscriber.pending) s.subscriber
  have nothing : Full s.store s.subscriber := fun e _ after le => absurd after (by omega)
  have inTurn := full_foldl_iff h.given nothing allowed fun e => h.replayed now
  rw [last] at inTurn
  have flight (e : TurnStreamEnvelope π) : e ∈ s.inFlight ↔
      e ∈ s.subscriber.pending ∨ e ∈ s.wire ++ s.unsent.map Prod.snd := by
    simp [inFlight, now]
  have begun := h.given.start
  rw [← inTurn, replay_of_reading now, reached_live rfl, reached_reading now, and_comm]
  refine and_congr_left fun full => ⟨fun reached e mem after => ?_, fun reached e mem ahead => ?_⟩
  · rcases Nat.lt_or_ge _ e.seq with ahead | passed
    · exact .inr ((flight e).mpr (.inr (reached e mem ahead)))
    rcases mem_delivered_foldl (full e mem (by rwa [start]) passed) with old | read
    · rw [none] at old
      cases old
    · exact (List.mem_append.mp read).imp_right fun waiting => (flight e).mpr (.inl waiting)
  · have ahead : (List.foldl Subscriber.deliver s.subscriber
        (history ++ s.subscriber.pending)).lastSeq < e.seq := ahead
    have unread : e ∉ history ++ s.subscriber.pending := fun read =>
      absurd (Subscriber.le_lastSeq_foldl read (allowed e read)) (Nat.not_le.mpr ahead)
    have grown := (h.given.foldl fun e => h.replayed now).start
    have after : s.subscriber.fromSeq < e.seq := by omega
    rcases reached e mem after with read | flying
    · exact absurd (List.mem_append_left _ read) unread
    · exact ((flight e).mp flying).resolve_left fun waiting =>
        unread (List.mem_append_right _ waiting)

end

theorem replay_spec (h : Sound s) :
    Sound s.replay ∧ (Reached s.replay ↔ Reached s ∧ Reaches s .replay) := by
  cases now : s.phase with
  | reading history =>
    refine ⟨replayed_sound h now, ?_⟩
    rw [Reaches, now]
    exact replayed_reached h now
  | detached | listening | live =>
    have same : s.replay = s := by simp only [replay, now]
    rw [same, Reaches, now]
    exact ⟨h, (and_iff_left trivial).symm⟩

/-- The pod takes a notification. -/
theorem deliver_cases (h : Sound s) :
    s.deliver = s ∧ s.wire = [] ∨
      ∃ envelope wire, s.wire = envelope :: wire ∧
        (s.phase = .detached ∧ s.deliver = { s with wire } ∨
          s.phase ≠ .live ∧ s.deliver = { s with
            wire
            subscriber := { s.subscriber with
              pending := s.subscriber.pending ++ [envelope] } } ∨
          s.phase = .live ∧ s.deliver = { s with
            wire
            subscriber := s.subscriber.deliver envelope }) := by
  unfold deliver
  split
  · exact .inl ⟨rfl, ‹_›⟩
  rename_i envelope wire waiting
  refine .inr ⟨envelope, wire, waiting, ?_⟩
  unfold Subscriber.onEnvelope
  cases now : s.phase with
  | detached => exact .inl ⟨rfl, rfl⟩
  | live =>
    rw [h.live now, if_neg Bool.false_ne_true]
    exact .inr (.inr ⟨rfl, rfl⟩)
  | listening | reading =>
    rw [if_pos (h.fresh (by simp [now])).2.2]
    exact .inr (.inl ⟨nofun, rfl⟩)

section
variable {envelope : TurnStreamEnvelope π} {wire : List (TurnStreamEnvelope π)}

/-- Nobody is attached: the notification is lost. -/
theorem deliver_detached (h : Sound s) (waiting : s.wire = envelope :: wire)
    (now : s.phase = .detached) :
    Sound { s with wire } ∧ (Reached { s with wire } ↔ Reached s ∧ Reaches s .deliver) := by
  have perm : s.inFlight.Perm ([envelope] ++ ({ s with wire } : Stream π).inFlight) := by
    simp only [inFlight, waiting, List.append_assoc, List.cons_append, List.nil_append]
    exact List.perm_middle
  obtain ⟨flying, once, -⟩ := h.of_perm perm
  refine ⟨⟨h.fence, h.owned, flying, once, h.history, h.fresh, h.live, h.given⟩, ?_⟩
  simp [Reached, Reaches, now]

/-- The attach is under way: the notification waits for the end of the replay. -/
theorem deliver_pending (h : Sound s) (waiting : s.wire = envelope :: wire)
    (now : s.phase ≠ .live) :
    let s' : Stream π := { s with
      wire
      subscriber := { s.subscriber with pending := s.subscriber.pending ++ [envelope] } }
    Sound s' ∧ (Reached s' ↔ Reached s ∧ Reaches s .deliver) := by
  intro s'
  have flight : s'.inFlight = s.inFlight := by
    unfold inFlight
    dsimp only [s']
    rw [waiting]
    cases phase : s.phase <;> simp_all
  have waits : ¬ (s.phase matches .live) = true := by
    cases phase : s.phase <;> simp_all
  refine ⟨⟨h.fence, h.owned, ?_, ?_, h.history, h.fresh, fun live => absurd live now, ?_⟩, ?_⟩
  · exact flight ▸ h.flying
  · exact flight ▸ h.once
  · exact ⟨h.given.given, h.given.sorted, h.given.start, h.given.bound⟩
  · rw [Reaches, and_iff_left fun live => absurd live waits]
    unfold Reached
    dsimp only [s']
    rw [flight]
    cases phase : s.phase <;> simp_all

/-- The subscriber is live: the event is given to it, or passed over. -/
theorem deliver_live (h : Sound s) (waiting : s.wire = envelope :: wire) (now : s.phase = .live)
    (mem : envelope ∈ s.store.eventsKey) :
    let s' : Stream π := { s with wire, subscriber := s.subscriber.deliver envelope }
    Sound s' ∧ (Reached s' ↔ Reached s ∧ Reaches s .deliver) := by
  intro s'
  have flight : s.inFlight = [envelope] ++ (wire ++ s.unsent.map Prod.snd) := by
    simp [inFlight, now, waiting]
  have flight' : s'.inFlight = wire ++ s.unsent.map Prod.snd := by
    simp [inFlight, s', now]
  have allowed := h.allowed (by simp [now]) mem
  obtain ⟨user, start, -, phase⟩ := Subscriber.deliver_frame s.subscriber envelope
  constructor
  · obtain ⟨flying, once, -⟩ := h.of_perm (List.Perm.of_eq flight)
    refine ⟨?_, h.owned, ?_, ?_, h.history, fun other => absurd now other, ?_,
      h.given.deliver mem⟩
    · dsimp only [s']
      rw [user]
      exact h.fence
    · exact flight' ▸ flying
    · exact flight' ▸ once
    · exact fun live => phase.trans (h.live live)
  · have live : s.phase matches .live := by rw [now]
    have still : s'.phase = .live := now
    rw [Reaches, reached_live now, waiting, reached_live still, flight', flight]
    dsimp only [s']
    constructor
    · rintro ⟨full', reached⟩
      have full := full_of_deliver full'
      have next := (full_deliver_iff h.given full allowed mem).mp full'
      refine ⟨⟨full, fun e stored after => ?_⟩, fun _ => ⟨next, trivial⟩⟩
      rcases Nat.lt_or_ge (s.subscriber.deliver envelope).lastSeq e.seq with ahead | passed
      · exact List.mem_append_right _ (reached e stored ahead)
      · have begun := h.given.start
        rcases mem_delivered_deliver (full' e stored (by omega) passed) with old | rfl
        · exact absurd (h.given.given e old).2.2 (Nat.not_le.mpr after)
        · exact .head _
    · rintro ⟨⟨full, reached⟩, inTurn⟩
      have next := (inTurn live).1
      refine ⟨(full_deliver_iff h.given full allowed mem).mpr next, fun e stored after => ?_⟩
      rw [Subscriber.lastSeq_deliver allowed] at after
      have unpassed : e ≠ envelope := by
        rintro rfl
        omega
      have flying := reached e stored (by omega)
      exact (List.mem_cons.mp flying).resolve_left unpassed

end

theorem deliver_spec (h : Sound s) :
    Sound s.deliver ∧ (Reached s.deliver ↔ Reached s ∧ Reaches s .deliver) := by
  rcases deliver_cases h with ⟨same, none⟩ | ⟨envelope, wire, waiting, cases⟩
  · rw [same, Reaches, none]
    exact ⟨h, (and_iff_left fun _ => trivial).symm⟩
  have mem : envelope ∈ s.store.eventsKey := by
    refine h.flying envelope ?_
    simp [inFlight, waiting]
  rcases cases with ⟨now, delivered⟩ | ⟨now, delivered⟩ | ⟨now, delivered⟩
  · rw [delivered]
    exact deliver_detached h waiting now
  · rw [delivered]
    exact deliver_pending h waiting now
  · rw [delivered]
    exact deliver_live h waiting now mem

theorem step_sound (s : Stream π) (e : StreamEvent π) (h : Sound s) : Sound (s.step e) := by
  cases e with
  | append process userId event payload => exact (append_spec h process userId event payload).1
  | notify process => exact (notify_spec h process).1
  | listen others => exact (listen_spec h others).1
  | subscribed => exact (confirm_spec h).1
  | unsubscribed => exact (unsubscribe_spec h).1
  | readHistory => exact (readHistory_spec h).1
  | replay => exact (replay_spec h).1
  | deliver => exact (deliver_spec h).1

/-- What a step leaves out is left out for good, and a step leaves none out just if the event
that it notifies or delivers is reached. -/
theorem step_reached (s : Stream π) (e : StreamEvent π) (h : Sound s) :
    Reached (s.step e) ↔ Reached s ∧ Reaches s e := by
  cases e with
  | append process userId event payload =>
    exact (append_spec h process userId event payload).2.trans (and_iff_left trivial).symm
  | notify process => exact (notify_spec h process).2
  | listen others => exact (listen_spec h others).2.trans (and_iff_left trivial).symm
  | subscribed => exact (confirm_spec h).2.trans (and_iff_left trivial).symm
  | unsubscribed => exact (unsubscribe_spec h).2.trans (and_iff_left trivial).symm
  | readHistory => exact (readHistory_spec h).2.trans (and_iff_left trivial).symm
  | replay => exact (replay_spec h).2
  | deliver => exact (deliver_spec h).2

/-- When nothing is on its way any more, all was reached just if all has been received. -/
theorem reached_iff_complete (h : Sound s) (quiescent : Quiescent s) : Reached s ↔ Complete s := by
  obtain ⟨now, sent, heard⟩ := quiescent
  have flight : s.inFlight = [] := by simp [inFlight, now, sent, heard]
  rw [reached_live now, flight, Complete, StoredTurn.listFrom]
  have begun := h.given.start
  constructor
  · rintro ⟨full, reached⟩
    have same (e : TurnStreamEnvelope π) : e ∈ s.subscriber.delivered ↔
        e ∈ s.store.eventsKey.filter fun e => s.subscriber.fromSeq < e.seq := by
      rw [List.mem_filter, decide_eq_true_eq]
      constructor
      · exact fun mem => ⟨(h.given.given e mem).1, (h.given.given e mem).2.1⟩
      · rintro ⟨mem, after⟩
        refine full e mem after (Nat.le_of_not_lt fun ahead => ?_)
        exact absurd (reached e mem ahead) List.not_mem_nil
    have sorted := s.store.eventsKey_sorted.filter fun e => s.subscriber.fromSeq < e.seq
    have nodup {l : List (TurnStreamEnvelope π)} (sorted : l.Pairwise fun a b => a.seq < b.seq) :
        l.Nodup := sorted.imp fun lt same => by rw [same] at lt; exact Nat.lt_irrefl _ lt
    have perm := (List.perm_ext_iff_of_nodup (nodup h.given.sorted) (nodup sorted)).mpr same
    refine perm.eq_of_pairwise (fun a b _ _ lt gt => ?_) h.given.sorted sorted
    exact absurd gt (Nat.lt_asymm lt)
  · intro complete
    have received (e : TurnStreamEnvelope π) (mem : e ∈ s.store.eventsKey)
        (after : s.subscriber.fromSeq < e.seq) : e ∈ s.subscriber.delivered := by
      rw [complete]
      exact List.mem_filter.mpr ⟨mem, by simpa using after⟩
    refine ⟨fun e mem after _ => received e mem after, fun e mem ahead => ?_⟩
    have le := (h.given.given e (received e mem (Nat.lt_of_le_of_lt begun ahead))).2.2
    exact absurd le (Nat.not_le.mpr ahead)

end

theorem complete_iff (owner userId : String) (fromSeq : Nat) (es : List (StreamEvent π))
    (quiescent : Quiescent (run step (start owner userId fromSeq) es)) :
    Complete (run step (start owner userId fromSeq) es) ↔
      EveryStep step Reaches (start owner userId fromSeq) es := by
  have start := start_sound (π := π) owner userId fromSeq
  have sound := (everyState_of_preserved (C := fun _ _ => True) (fun s e h _ => step_sound s e h)
    start (everyStep_of_forall (fun _ _ => trivial) _ es)).last
  rw [← reached_iff_complete sound quiescent,
    run_iff_of_invariant step_sound step_reached start]
  exact and_iff_right trivial

instance (s : Stream π) : Decidable (Quiescent s) :=
  decidable_of_iff (s.phase matches .live ∧ s.unsent.isEmpty ∧ s.wire.isEmpty) (by
    unfold Quiescent
    cases s.phase <;> simp)

instance [DecidableEq π] (s : Stream π) : Decidable (Complete s) :=
  inferInstanceAs (Decidable (_ = _))

instance decidableInTurn :
    ∀ (last : Nat) (l : List (TurnStreamEnvelope π)), Decidable (InTurn last l)
  | _, [] => isTrue trivial
  | last, envelope :: rest =>
    have := decidableInTurn (max last envelope.seq) rest
    inferInstanceAs (Decidable (envelope.seq ≤ last + 1 ∧ InTurn (max last envelope.seq) rest))

instance (s : Stream π) : ∀ e, Decidable (Reaches s e)
  | .notify process => inferInstanceAs (Decidable (_ → ∀ unsent ∈ s.unsent.find? _, _))
  | .deliver => inferInstanceAs (Decidable (_ → _))
  | .replay =>
    match now : s.phase with
    | .reading history => decidable_of_iff (InTurn s.subscriber.fromSeq
        (history ++ s.subscriber.pending)) (by rw [Reaches, now])
    | .detached | .listening _ | .live => isTrue (by rw [Reaches, now]; trivial)
  | .append .. | .listen _ | .subscribed | .unsubscribed | .readHistory =>
    inferInstanceAs (Decidable True)

/-- Two processes append and notify in the same order while a subscriber attaches. -/
theorem complete_in_order :
    Complete (run step (start "u" "u" 0) ([.append 1 "u" "delta" 7, .listen false, .subscribed,
      .notify 1, .readHistory, .append 2 "u" "delta" 8, .notify 2, .deliver, .deliver, .replay,
      .append 1 "u" "completed" 9, .notify 1, .deliver] : List (StreamEvent Nat))) :=
  (complete_iff "u" "u" 0 _ (by decide +kernel)).mpr (by decide +kernel)

/-- The process that appended second notifies first: the other event is dropped. -/
theorem overtaken_event_lost :
    let s := run step (start "u" "u" 0) ([.listen false, .subscribed, .readHistory, .replay,
      .append 1 "u" "delta" 7, .append 2 "u" "delta" 8, .notify 2, .notify 1, .deliver,
      .deliver] : List (StreamEvent Nat))
    Quiescent s ∧ ¬ Complete s := by
  decide +kernel

end Stream

end Persai.TurnStream
