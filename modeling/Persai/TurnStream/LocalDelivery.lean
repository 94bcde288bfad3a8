import Persai.Runs
import Persai.TurnStream.Store

/-!
# Delivery on the pod of the turn

`publish` appends to the store and hands the envelope, numbered by the store, to the sinks of
the pod; when the append fails the pod numbers it itself. The store's channel brings the same
envelopes once more. The pod's numbers run ahead of a store that missed them: a sink gets
every event just when no event is given a number that the sink has already passed.
-/

namespace Persai.TurnStream

open Runs

/-- How a call of the store's `append` ends. -/
inductive AppendReply where
  /-- The script's answer arrives; the notification goes out, or fails. -/
  | answered (notified : Bool)
  | unconnected
  /-- The call throws, after the script has run or before. -/
  | threw (ran : Bool)
  deriving DecidableEq, Repr

def AppendReply.isAnswered : AppendReply → Bool
  | .answered _ => true
  | _ => false

/-- A sink of the turn, whether the store's channel reaches it too, and what it is due. -/
structure Sink (π : Type) where
  subscriber : Subscriber π
  subscribed : Bool
  due : List (String × π)
  deriving DecidableEq, Repr

/-- A turn registered on this pod, with the store's keys and the notifications that the
channel has not brought yet. -/
structure LocalTurn (π : Type) where
  userId : String
  terminalPublished : Bool
  nextSeq : Nat
  sinks : List (Sink π)
  store : StoredTurn π
  channel : List (TurnStreamEnvelope π)

inductive LocalEvent (π : Type) where
  | attach (userId : String) (fromSeq : Nat) (connected : Bool)
  /-- The channel brings the first `early` notifications before the sinks are called. -/
  | publish (userId event : String) (payload : π) (first second : AppendReply) (early : Nat)
  | notify

variable {π : Type}

namespace Sink

/-- The calls of `onEvent`. -/
def onEvent (sink : Sink π) : List (String × π) :=
  sink.subscriber.delivered.map fun envelope => (envelope.event, envelope.payload)

def onEnvelope (sink : Sink π) (envelope : TurnStreamEnvelope π) : Sink π :=
  { sink with subscriber := sink.subscriber.onEnvelope envelope }

def onMessage (sink : Sink π) (envelope : TurnStreamEnvelope π) : Sink π :=
  if sink.subscribed then sink.onEnvelope envelope else sink

end Sink

namespace LocalTurn

/-- `registerTurn` on a pod that does not know the turn yet. -/
def registerTurn (store : StoredTurn π) (userId : String) : Option (LocalTurn π) :=
  match store.registerTurn userId with
  | (_, .conflict) => none
  | (store, _) => some ⟨userId, false, 1, [], store, []⟩

/-- `attachLocal`, after the fences of `attach`. -/
def attach (s : LocalTurn π) (userId : String) (fromSeq : Nat) (connected : Bool) : LocalTurn π :=
  if s.userId ≠ userId then s
  else if connected && s.store.metaKey.isSome && !s.store.registeredFor userId then s
  else
    let history := if connected then s.store.listFrom fromSeq else []
    let subscriber := (Subscriber.attaching userId fromSeq).replay history
    let sink : Sink π := ⟨subscriber, connected, []⟩
    { s with sinks := s.sinks ++ [{ sink with due := sink.onEvent }] }

/-- One call of the store's `append`: an envelope, null, or an exception. -/
def callAppend (s : LocalTurn π) (userId event : String) (payload : π) :
    AppendReply → LocalTurn π × Except Unit (Option (TurnStreamEnvelope π))
  | .unconnected => (s, .ok none)
  | .threw false => (s, .error ())
  | .threw true =>
    match s.store.append userId event payload with
    | none => (s, .error ())
    | some (store, _) => ({ s with store }, .error ())
  | .answered notified =>
    match s.store.append userId event payload with
    | none => (s, .ok none)
    | some (store, envelope) =>
      let channel := if notified then s.channel ++ [envelope] else s.channel
      ({ s with store, channel }, .ok (some envelope))

/-- The append is tried once more after a null, and given up after an exception. -/
def appendWithRetry (s : LocalTurn π) (userId event : String) (payload : π)
    (first second : AppendReply) : LocalTurn π × Option (TurnStreamEnvelope π) :=
  match s.callAppend userId event payload first with
  | (s, .error _) => (s, none)
  | (s, .ok (some envelope)) => (s, some envelope)
  | (s, .ok none) =>
    match s.callAppend userId event payload second with
    | (s, .error _) => (s, none)
    | (s, .ok appended) => (s, appended)

/-- The channel brings its next notification. -/
def notify (s : LocalTurn π) : LocalTurn π :=
  match s.channel with
  | [] => s
  | envelope :: channel => { s with channel, sinks := s.sinks.map (·.onMessage envelope) }

/-- The sinks are called; the event is now due to each. -/
def fanOut (s : LocalTurn π) (envelope : TurnStreamEnvelope π) : LocalTurn π :=
  { s with
    sinks := s.sinks.map fun sink =>
      { sink.onEnvelope envelope with due := sink.due ++ [(envelope.event, envelope.payload)] } }

def markTerminal (s : LocalTurn π) (event : String) : LocalTurn π :=
  if isTurnStreamTerminalEvent event then { s with terminalPublished := true } else s

/-- `publishUnlocked`. -/
def publish (s : LocalTurn π) (userId event : String) (payload : π)
    (first second : AppendReply) (early : Nat) : LocalTurn π :=
  if s.userId ≠ userId then s
  else
    match (s.markTerminal event).appendWithRetry userId event payload first second with
    | (s, none) =>
      let s := notify^[early] s
      { s with nextSeq := s.nextSeq + 1 }.fanOut ⟨s.nextSeq, event, payload, some userId⟩
    | (s, some envelope) => { notify^[early] s with nextSeq := envelope.seq + 1 }.fanOut envelope

def step (s : LocalTurn π) : LocalEvent π → LocalTurn π
  | .attach userId fromSeq connected => s.attach userId fromSeq connected
  | .publish userId event payload first second early =>
    s.publish userId event payload first second early
  | .notify => s.notify

/-- Every sink has been given what it was due: the history when it was attached, and every
event published since, once and in order. -/
def Delivered (s : LocalTurn π) : Prop := ∀ sink ∈ s.sinks, sink.onEvent = sink.due

/-! ## When it is kept -/

/-- The append is answered, at once or after a null. -/
def appends (s : LocalTurn π) (userId : String) (first second : AppendReply) : Bool :=
  s.store.registeredFor userId &&
    (first.isAnswered || first == .unconnected && second.isAnswered)

/-- The number comes from the store where the append is answered, and from the pod elsewhere. -/
def nextNumber (s : LocalTurn π) (userId : String) (first second : AppendReply) : Nat :=
  if s.appends userId first second then s.store.seqKey + 1 else s.nextSeq

/-- No sink has passed the number of the event. -/
def NumberUnseen (s : LocalTurn π) : LocalEvent π → Prop
  | .publish userId _ _ first second _ =>
    s.userId = userId →
      ∀ sink ∈ s.sinks, sink.subscriber.lastSeq < s.nextNumber userId first second
  | _ => True

/-! ## What a step does -/

/-- What the channel still brings is in the store, of this turn's user, and old for the sinks
that it reaches. -/
structure Sound (s : LocalTurn π) : Prop where
  stored : ∀ envelope ∈ s.channel, envelope ∈ s.store.eventsKey
  owned : ∀ envelope ∈ s.channel, envelope.userId = some s.userId
  attached : ∀ sink ∈ s.sinks, sink.subscriber.userId = s.userId ∧
    sink.subscriber.replaying = false
  old : ∀ sink ∈ s.sinks, sink.subscribed = true → ∀ envelope ∈ s.channel,
    envelope.seq ≤ sink.subscriber.lastSeq

theorem registerTurn_sound {store : StoredTurn π} {userId : String} {s : LocalTurn π}
    (registered : registerTurn store userId = some s) : Sound s ∧ Delivered s := by
  unfold registerTurn at registered
  split at registered
  · cases registered
  · cases registered
    exact ⟨⟨nofun, nofun, nofun, nofun⟩, nofun⟩

section
variable {s : LocalTurn π} {userId event : String} {payload : π}

/-- What an attempt to append has done: only the store and the channel are written, and the
channel has nothing new but the envelope. -/
structure Attempted (s s' : LocalTurn π) (appended : Option (TurnStreamEnvelope π)) : Prop where
  user : s'.userId = s.userId
  sinks : s'.sinks = s.sinks
  nextSeq : s'.nextSeq = s.nextSeq
  stored : ∀ envelope ∈ s.store.eventsKey, envelope ∈ s'.store.eventsKey
  channel : ∀ envelope ∈ s'.channel, envelope ∈ s.channel ∨
    appended = some envelope ∧ envelope ∈ s'.store.eventsKey

theorem attempted_refl (s : LocalTurn π) (appended : Option (TurnStreamEnvelope π)) :
    Attempted s s appended :=
  ⟨rfl, rfl, rfl, fun _ mem => mem, fun _ mem => .inl mem⟩

/-- A call gives null and does nothing, throws, or gives the envelope with the next number. -/
theorem callAppend_cases (s : LocalTurn π) (userId event : String) (payload : π)
    (reply : AppendReply) :
    let called := s.callAppend userId event payload reply
    let envelope : TurnStreamEnvelope π := ⟨s.store.seqKey + 1, event, payload, some userId⟩
    called = (s, .ok none) ∧ (reply = .unconnected ∨ s.store.registeredFor userId = false) ∨
      called.2 = .error () ∧ Attempted s called.1 none ∧
        (s.store.registeredFor userId && reply.isAnswered) = false ∧ reply ≠ .unconnected ∨
      called.2 = .ok (some envelope) ∧ Attempted s called.1 (some envelope) ∧
        s.store.registeredFor userId = true ∧ reply.isAnswered = true := by
  cases reply with
  | unconnected => exact .inl ⟨rfl, .inl rfl⟩
  | threw ran =>
    refine .inr (.inl ?_)
    cases ran with
    | false => exact ⟨rfl, attempted_refl s none, Bool.and_false _, nofun⟩
    | true =>
      simp only [callAppend]
      cases appended : s.store.append userId event payload with
      | none => exact ⟨rfl, attempted_refl s none, Bool.and_false _, nofun⟩
      | some result =>
        obtain ⟨store, envelope⟩ := result
        have done := StoredTurn.append_cases appended
        have kept : ∀ e ∈ s.store.eventsKey, e ∈ store.eventsKey :=
          fun e mem => done.mem_iff.mpr (.inl mem)
        exact ⟨rfl, ⟨rfl, rfl, rfl, kept, fun e mem => .inl mem⟩, Bool.and_false _, nofun⟩
  | answered notified =>
    simp only [callAppend]
    cases appended : s.store.append userId event payload with
    | none => exact .inl ⟨rfl, .inr (StoredTurn.append_eq_none_iff.mp appended)⟩
    | some result =>
      obtain ⟨store, envelope⟩ := result
      have done := StoredTurn.append_cases appended
      have kept : ∀ e ∈ s.store.eventsKey, e ∈ store.eventsKey :=
        fun e mem => done.mem_iff.mpr (.inl mem)
      refine .inr (.inr ⟨by rw [done.number], ⟨rfl, rfl, rfl, kept, ?_⟩, done.registered, rfl⟩)
      intro e mem
      have grown : e ∈ s.channel ∨ e = envelope := by
        cases notified with
        | false => exact .inl mem
        | true => simpa using mem
      exact grown.imp_right fun same => ⟨by rw [same, done.number], done.mem_iff.mpr (.inr same)⟩

theorem appendWithRetry_spec (s : LocalTurn π) (userId event : String) (payload : π)
    (first second : AppendReply) :
    let tried := s.appendWithRetry userId event payload first second
    Attempted s tried.1 tried.2 ∧
      tried.2 = if s.appends userId first second
        then some ⟨s.store.seqKey + 1, event, payload, some userId⟩ else none := by
  have firstCall := callAppend_cases s userId event payload first
  have secondCall := callAppend_cases s userId event payload second
  unfold appendWithRetry appends
  generalize s.callAppend userId event payload first = called at firstCall ⊢
  generalize retried : s.callAppend userId event payload second = called' at secondCall
  obtain ⟨s₁, result⟩ := called
  obtain ⟨s₂, result'⟩ := called'
  dsimp only at firstCall secondCall
  rcases firstCall with ⟨nothing, why⟩ | ⟨threw, attempted, unanswered, connected⟩ |
      ⟨given, attempted, registered, answered⟩
  · cases nothing
    dsimp only
    rw [retried]
    rcases secondCall with ⟨nothing, why'⟩ | ⟨threw, attempted, unanswered, -⟩ |
        ⟨given, attempted, registered, answered⟩
    · cases nothing
      refine ⟨attempted_refl s none, (if_neg ?_).symm⟩
      rcases why with rfl | absent
      · rcases why' with rfl | absent <;> simp_all [AppendReply.isAnswered]
      · simp [absent]
    · cases threw
      refine ⟨attempted, (if_neg ?_).symm⟩
      rcases why with rfl | absent
      · simpa [AppendReply.isAnswered] using unanswered
      · simp [absent]
    · cases given
      refine ⟨attempted, (if_pos ?_).symm⟩
      have unconnected : first = .unconnected := by simpa [registered] using why
      simp [registered, answered, unconnected]
  · cases threw
    refine ⟨attempted, (if_neg ?_).symm⟩
    rw [Bool.and_or_distrib_left, unanswered, beq_false_of_ne connected]
    simp
  · cases given
    exact ⟨attempted, (if_pos (by simp [registered, answered])).symm⟩

end

theorem iterate_notify (s : LocalTurn π) (n : Nat) :
    notify^[n] s = { s with
      channel := s.channel.drop n
      sinks := s.sinks.map fun sink => (s.channel.take n).foldl Sink.onMessage sink } := by
  induction n generalizing s with
  | zero => simp
  | succ n ih =>
    rw [Function.iterate_succ_apply, ih]
    cases empty : s.channel with
    | nil => simp [notify, empty]
    | cons envelope channel => simp [notify, empty, Function.comp_def]

/-- Notifications of old envelopes and of the one that follows make no difference to it. -/
theorem foldl_deliver_then {sub : Subscriber π} {envelope : TurnStreamEnvelope π}
    (allowed : Subscriber.envelopeAllowed envelope sub.userId = true)
    {early : List (TurnStreamEnvelope π)}
    (known : ∀ e ∈ early, e.seq ≤ sub.lastSeq ∨ e = envelope) :
    (early.foldl Subscriber.deliver sub).deliver envelope = sub.deliver envelope := by
  induction early generalizing sub with
  | nil => rfl
  | cons first early ih =>
    rw [List.foldl_cons]
    rcases known first (.head _) with old | rfl
    · rw [Subscriber.deliver_old old]
      exact ih allowed fun e mem => known e (.tail _ mem)
    · have passed : first.seq ≤ (sub.deliver first).lastSeq := by
        rw [Subscriber.lastSeq_deliver allowed]
        exact Nat.le_max_right ..
      rw [ih (by rwa [Subscriber.deliver_userId]), Subscriber.deliver_old passed]
      intro e mem
      refine (known e (.tail _ mem)).imp_left fun old => ?_
      exact Nat.le_trans old (Subscriber.lastSeq_le_deliver sub first)

/-- What a publish has done: each sink has taken the envelope, and before it some
notifications, of it or of older ones. -/
structure Published (s s' : LocalTurn π) (envelope : TurnStreamEnvelope π)
    (early : List (TurnStreamEnvelope π)) : Prop where
  user : s'.userId = s.userId
  stored : ∀ e ∈ s.store.eventsKey, e ∈ s'.store.eventsKey
  channel : ∀ e ∈ s'.channel, e ∈ s.channel ∨ e = envelope ∧ e ∈ s'.store.eventsKey
  known : ∀ e ∈ early, e ∈ s.channel ∨ e = envelope
  sinks : s'.sinks = s.sinks.map fun sink =>
    let sink' := early.foldl Sink.onMessage sink
    { sink'.onEnvelope envelope with due := sink'.due ++ [(envelope.event, envelope.payload)] }

/-- The notifications that come first, and then the sinks. -/
theorem published_of_attempt {s s₂ : LocalTurn π} {appended : Option (TurnStreamEnvelope π)}
    {envelope : TurnStreamEnvelope π} (attempted : Attempted s s₂ appended)
    (given : ∀ e, appended = some e → e = envelope) (n nextSeq : Nat) :
    Published s ({ notify^[n] s₂ with nextSeq }.fanOut envelope) envelope (s₂.channel.take n) := by
  have channel (e : TurnStreamEnvelope π) (mem : e ∈ s₂.channel) :
      e ∈ s.channel ∨ e = envelope ∧ e ∈ s₂.store.eventsKey :=
    (attempted.channel e mem).imp_right fun new => ⟨given e new.1, new.2⟩
  rw [iterate_notify]
  refine ⟨attempted.user, attempted.stored, ?_, ?_, ?_⟩
  · exact fun e mem => channel e (List.mem_of_mem_drop mem)
  · exact fun e mem => (channel e (List.mem_of_mem_take mem)).imp_right And.left
  · simp only [fanOut, attempted.sinks, List.map_map, Function.comp_def]

theorem markTerminal_frame (s : LocalTurn π) (event : String) :
    (s.markTerminal event).userId = s.userId ∧ (s.markTerminal event).nextSeq = s.nextSeq ∧
      (s.markTerminal event).sinks = s.sinks ∧ (s.markTerminal event).store = s.store ∧
      (s.markTerminal event).channel = s.channel := by
  unfold markTerminal
  split <;> exact ⟨rfl, rfl, rfl, rfl, rfl⟩

theorem publish_cases (s : LocalTurn π) (userId event : String) (payload : π)
    (first second : AppendReply) (n : Nat) :
    let s' := s.publish userId event payload first second n
    s.userId ≠ userId ∧ s' = s ∨
      s.userId = userId ∧ ∃ early, Published s s'
        ⟨s.nextNumber userId first second, event, payload, some userId⟩ early := by
  intro s'
  by_cases same : s.userId = userId
  swap
  · exact .inl ⟨same, if_pos same⟩
  refine .inr ⟨same, ?_⟩
  obtain ⟨user, nextSeq, sinks, store, channel⟩ := markTerminal_frame s event
  have tried := appendWithRetry_spec (s.markTerminal event) userId event payload first second
  have ran : s' = _ := if_neg (not_not_intro same)
  rw [ran]
  unfold nextNumber
  dsimp only at tried
  rw [appends, store, ← appends] at tried
  generalize (s.markTerminal event).appendWithRetry userId event payload first second = result
    at tried ⊢
  obtain ⟨s₂, given⟩ := result
  obtain ⟨attempted, appended⟩ := tried
  have attempted : Attempted s s₂ given := by
    refine ⟨attempted.user.trans user, attempted.sinks.trans sinks,
      attempted.nextSeq.trans nextSeq, ?_, ?_⟩
    · rw [← store]
      exact attempted.stored
    · rw [← channel]
      exact attempted.channel
  dsimp only at appended
  cases answered : s.appends userId first second with
  | true =>
    rw [answered, if_pos rfl] at appended
    subst appended
    exact ⟨_, published_of_attempt attempted (fun e same => (Option.some.inj same).symm) n _⟩
  | false =>
    rw [answered, if_neg Bool.false_ne_true] at appended
    subst appended
    have number : (notify^[n] s₂).nextSeq = s.nextSeq := by
      rw [iterate_notify]
      exact attempted.nextSeq
    dsimp only
    rw [number, if_neg Bool.false_ne_true]
    exact ⟨_, published_of_attempt attempted nofun n _⟩

theorem foldl_onMessage {sink : Sink π} (live : sink.subscriber.replaying = false)
    (envelopes : List (TurnStreamEnvelope π)) :
    envelopes.foldl Sink.onMessage sink = { sink with
      subscriber := if sink.subscribed then envelopes.foldl Subscriber.deliver sink.subscriber
        else sink.subscriber } := by
  induction envelopes generalizing sink with
  | nil => simp
  | cons envelope envelopes ih =>
    have next : (sink.onMessage envelope) = { sink with
        subscriber := if sink.subscribed then sink.subscriber.deliver envelope
          else sink.subscriber } := by
      unfold Sink.onMessage Sink.onEnvelope Subscriber.onEnvelope
      rw [live]
      split <;> rfl
    rw [List.foldl_cons, next, ih]
    · cases sink.subscribed <;> rfl
    · dsimp only
      split
      · exact (Subscriber.deliver_frame _ _).2.2.2.trans live
      · exact live

/-- A sink takes the envelope of a publish once, whatever the channel has brought before. -/
theorem sink_published {s : LocalTurn π} (h : Sound s) {sink : Sink π} (mem : sink ∈ s.sinks)
    {envelope : TurnStreamEnvelope π} (own : envelope.userId = some s.userId)
    {early : List (TurnStreamEnvelope π)}
    (known : ∀ e ∈ early, e ∈ s.channel ∨ e = envelope) :
    let sink' := early.foldl Sink.onMessage sink
    (sink'.onEnvelope envelope).subscriber = sink.subscriber.deliver envelope ∧
      sink'.due = sink.due ∧ sink'.subscribed = sink.subscribed := by
  obtain ⟨user, live⟩ := h.attached sink mem
  have allowed : Subscriber.envelopeAllowed envelope sink.subscriber.userId = true := by
    simp [Subscriber.envelopeAllowed, own, user]
  intro sink'
  have after : sink' = _ := foldl_onMessage live early
  refine ⟨?_, by rw [after], by rw [after]⟩
  rw [after]
  unfold Sink.onEnvelope Subscriber.onEnvelope
  dsimp only
  split
  · rename_i reached
    rw [(Subscriber.foldl_deliver_frame early _).2.2.2.1, live, if_neg Bool.false_ne_true]
    exact foldl_deliver_then allowed fun e mem' =>
      (known e mem').imp_left (h.old sink mem reached e)
  · rw [live, if_neg Bool.false_ne_true]

theorem publish_sound {s s' : LocalTurn π} {envelope : TurnStreamEnvelope π}
    {early : List (TurnStreamEnvelope π)} (h : Sound s) (own : envelope.userId = some s.userId)
    (published : Published s s' envelope early) : Sound s' := by
  have taken {sink : Sink π} (mem : sink ∈ s.sinks) := sink_published h mem own published.known
  refine ⟨?_, ?_, ?_, ?_⟩
  · intro e mem
    rcases published.channel e mem with old | ⟨-, new⟩
    · exact published.stored e (h.stored e old)
    · exact new
  · intro e mem
    rw [published.user]
    rcases published.channel e mem with old | ⟨rfl, -⟩
    · exact h.owned e old
    · exact own
  · intro sink' mem'
    rw [published.sinks] at mem'
    obtain ⟨sink, mem, rfl⟩ := List.mem_map.mp mem'
    obtain ⟨user, live⟩ := h.attached sink mem
    obtain ⟨user', -, -, phase⟩ := Subscriber.deliver_frame sink.subscriber envelope
    rw [published.user]
    dsimp only
    rw [(taken mem).1]
    exact ⟨user'.trans user, phase.trans live⟩
  · intro sink' mem' reached e waiting
    rw [published.sinks] at mem'
    obtain ⟨sink, mem, rfl⟩ := List.mem_map.mp mem'
    dsimp only
    rw [(taken mem).1]
    have reached : sink.subscribed = true := (taken mem).2.2.symm.trans reached
    rcases published.channel e waiting with old | ⟨rfl, -⟩
    · exact Nat.le_trans (h.old sink mem reached e old) (Subscriber.lastSeq_le_deliver ..)
    · have allowed : Subscriber.envelopeAllowed e sink.subscriber.userId = true := by
        simp [Subscriber.envelopeAllowed, own, (h.attached sink mem).1]
      rw [Subscriber.lastSeq_deliver allowed]
      exact Nat.le_max_right ..

/-- The event goes to a sink that is up to date just if its number is new there. -/
theorem publish_delivered {s s' : LocalTurn π} {envelope : TurnStreamEnvelope π}
    {early : List (TurnStreamEnvelope π)} (h : Sound s) (delivered : Delivered s)
    (own : envelope.userId = some s.userId) (published : Published s s' envelope early) :
    Delivered s' ↔ ∀ sink ∈ s.sinks, sink.subscriber.lastSeq < envelope.seq := by
  unfold Delivered
  rw [published.sinks, List.forall_mem_map]
  refine forall₂_congr fun sink mem => ?_
  obtain ⟨subscriber, due, -⟩ := sink_published h mem own published.known
  have allowed : Subscriber.envelopeAllowed envelope sink.subscriber.userId = true := by
    simp [Subscriber.envelopeAllowed, own, (h.attached sink mem).1]
  have given := delivered sink mem
  unfold Sink.onEvent at given ⊢
  dsimp only
  rw [subscriber, due, ← given]
  constructor
  · intro taken
    by_contra seen
    rw [Subscriber.deliver_old (Nat.le_of_not_lt seen)] at taken
    have lengths := congrArg List.length taken
    simp at lengths
  · intro new
    rw [Subscriber.deliver_new allowed new, List.map_append, List.map_singleton]

/-- What the channel brings is old for every sink. -/
theorem notify_eq {s : LocalTurn π} (h : Sound s) :
    s.notify = { s with channel := s.channel.tail } := by
  unfold notify
  split
  · rename_i waiting
    rw [waiting, List.tail_nil, ← waiting]
  · rename_i envelope channel waiting
    have head : envelope ∈ s.channel := by rw [waiting]; exact .head _
    have same : s.sinks.map (·.onMessage envelope) = s.sinks := by
      refine List.map_congr_left (g := id) (fun sink mem => ?_) |>.trans (List.map_id _)
      unfold Sink.onMessage
      split
      · rename_i reached
        unfold Sink.onEnvelope Subscriber.onEnvelope
        rw [(h.attached sink mem).2, if_neg Bool.false_ne_true,
          Subscriber.deliver_old (h.old sink mem reached envelope head)]
        rfl
      · rfl
    rw [same, waiting, List.tail_cons]

theorem notify_sound {s : LocalTurn π} (h : Sound s) : Sound s.notify := by
  rw [notify_eq h]
  exact ⟨fun e mem => h.stored e (List.mem_of_mem_tail mem),
    fun e mem => h.owned e (List.mem_of_mem_tail mem), h.attached,
    fun sink mem reached e waiting => h.old sink mem reached e (List.mem_of_mem_tail waiting)⟩

theorem replay_attaching (userId : String) (fromSeq : Nat)
    (history : List (TurnStreamEnvelope π)) :
    (Subscriber.attaching userId fromSeq).replay history =
      { history.foldl Subscriber.deliver (.attaching userId fromSeq) with replaying := false } := by
  rw [Subscriber.replay_eq]
  show { (history ++ []).foldl Subscriber.deliver (.attaching userId fromSeq) with
    replaying := false } = _
  rw [List.append_nil]

/-- Nothing, or a sink more, which is up to date with the store if the channel reaches it. -/
theorem attach_cases (s : LocalTurn π) (userId : String) (fromSeq : Nat) (connected : Bool) :
    s.attach userId fromSeq connected = s ∨
      ∃ sink : Sink π, s.attach userId fromSeq connected = { s with sinks := s.sinks ++ [sink] } ∧
        sink.onEvent = sink.due ∧ sink.subscriber.userId = s.userId ∧
        sink.subscriber.replaying = false ∧
        (sink.subscribed = true → ∀ envelope ∈ s.store.eventsKey,
          envelope.userId = some s.userId → envelope.seq ≤ sink.subscriber.lastSeq) := by
  unfold attach
  split
  · exact .inl rfl
  rename_i same
  split
  · exact .inl rfl
  have same : s.userId = userId := not_not.mp same
  refine .inr ⟨_, rfl, rfl, ?_, ?_, ?_⟩
  · dsimp only
    rw [replay_attaching]
    exact (Subscriber.foldl_deliver_frame _ _).1.trans same.symm
  · dsimp only
    rw [replay_attaching]
  · intro reached envelope mem own
    have reached : connected = true := reached
    dsimp only
    rw [replay_attaching, if_pos reached]
    rcases Nat.lt_or_ge fromSeq envelope.seq with new | old
    · refine Subscriber.le_lastSeq_foldl (List.mem_filter.mpr ⟨mem, by simpa using new⟩) ?_
      simp [Subscriber.envelopeAllowed, Subscriber.attaching, own, same]
    · have start := (Subscriber.foldl_deliver_frame (s.store.listFrom fromSeq)
        (.attaching userId fromSeq)).2.2.2.2
      exact Nat.le_trans old start

theorem attach_sound {s : LocalTurn π} (h : Sound s) (userId : String) (fromSeq : Nat)
    (connected : Bool) : Sound (s.attach userId fromSeq connected) := by
  rcases attach_cases s userId fromSeq connected with same | ⟨sink, added, -, user, live, passed⟩
  · rw [same]
    exact h
  · rw [added]
    refine ⟨h.stored, h.owned, ?_, ?_⟩
    · intro sink' mem
      rcases List.mem_append.mp mem with mem | mem
      · exact h.attached sink' mem
      · rw [List.mem_singleton.mp mem]
        exact ⟨user, live⟩
    · intro sink' mem reached e waiting
      rcases List.mem_append.mp mem with mem | mem
      · exact h.old sink' mem reached e waiting
      · rw [List.mem_singleton.mp mem] at reached ⊢
        exact passed reached e (h.stored e waiting) (h.owned e waiting)

theorem step_sound (s : LocalTurn π) (e : LocalEvent π) (h : Sound s) : Sound (s.step e) := by
  cases e with
  | attach userId fromSeq connected => exact attach_sound h userId fromSeq connected
  | notify => exact notify_sound h
  | publish userId event payload first second early =>
    rcases publish_cases s userId event payload first second early with
      ⟨-, same⟩ | ⟨rfl, early, published⟩
    · rw [step, same]
      exact h
    · exact publish_sound h rfl published

/-- A step keeps every sink up to date just if the number that it gives is new to all. -/
theorem step_delivered (s : LocalTurn π) (e : LocalEvent π) (h : Sound s)
    (delivered : Delivered s) : Delivered (s.step e) ↔ NumberUnseen s e := by
  cases e with
  | attach userId fromSeq connected =>
    refine iff_of_true ?_ trivial
    rcases attach_cases s userId fromSeq connected with same | ⟨sink, added, given, -⟩
    · rw [step, same]
      exact delivered
    · rw [step, added]
      intro sink' mem
      rcases List.mem_append.mp mem with mem | mem
      · exact delivered sink' mem
      · rw [List.mem_singleton.mp mem]
        exact given
  | notify =>
    refine iff_of_true ?_ trivial
    rw [step, notify_eq h]
    exact delivered
  | publish userId event payload first second early =>
    unfold NumberUnseen
    rcases publish_cases s userId event payload first second early with
      ⟨other, same⟩ | ⟨rfl, early, published⟩
    · rw [step, same]
      exact iff_of_true delivered fun same => absurd same other
    · refine (publish_delivered h delivered rfl published).trans ?_
      exact ⟨fun new _ => new, fun new => new rfl⟩

theorem delivered_iff {store : StoredTurn π} {userId : String} {s : LocalTurn π}
    (registered : registerTurn store userId = some s) (es : List (LocalEvent π)) :
    EveryState step Delivered s es ↔ EveryStep step NumberUnseen s es := by
  obtain ⟨sound, delivered⟩ := registerTurn_sound registered
  exact everyState_iff_of_invariant step_sound step_delivered sound delivered

instance [DecidableEq π] (s : LocalTurn π) : Decidable (Delivered s) :=
  inferInstanceAs (Decidable (∀ sink ∈ s.sinks, _))

instance (s : LocalTurn π) : ∀ e, Decidable (NumberUnseen s e)
  | .attach .. => inferInstanceAs (Decidable True)
  | .notify => inferInstanceAs (Decidable True)
  | .publish .. => inferInstanceAs (Decidable (_ → ∀ sink ∈ s.sinks, _))

/-- The store does not answer, and is not back before the turn ends. -/
theorem delivered_without_store :
    let s : LocalTurn Nat := ⟨"u", false, 1, [], ⟨some ⟨"u", false⟩, [], 0, rfl⟩, []⟩
    EveryState step Delivered s [.attach "u" 0 true,
      .publish "u" "delta" 7 (.answered true) .unconnected 1, .notify,
      .publish "u" "delta" 8 .unconnected .unconnected 0,
      .publish "u" "completed" 9 (.threw false) .unconnected 0] :=
  (@delivered_iff _ .absent "u" _ rfl _).mpr (by decide +kernel)

/-- The store misses one event and is back for the next: the pod has used the number. -/
theorem recovered_store_drops :
    let s : LocalTurn Nat := ⟨"u", false, 1, [], ⟨some ⟨"u", false⟩, [], 0, rfl⟩, []⟩
    registerTurn .absent "u" = some s ∧
      ¬ EveryState step Delivered s [.attach "u" 0 true,
        .publish "u" "delta" 7 .unconnected .unconnected 0,
        .publish "u" "completed" 8 (.answered true) .unconnected 0] :=
  ⟨rfl, by decide +kernel⟩

end LocalTurn

end Persai.TurnStream
