import Persai.Notifications.Delivery

/-!
# An execution among the processes

One execution of `deliverIntent` is what a process does with the intent it is on: the tables after
it are those after some statements of the process. One thing that a call may do no process does: to
throw once the statement that ends the delivery is committed.

* `Worker.Shows`: what the tables have of an execution;
* `Worker.Goes`: an execution leads where the process leads too;
* `goes_attempt`, `goes_tryEscalation`, `goes_deliverPrimary`, `goes_deliverClaimed`: its parts;
* `execution_reached`: the whole.
-/

namespace Persai.Notifications

open Faults
open ModelCost (Value)

/-- No statement that ends a delivery throws after it was committed. -/
structure Calls.EndKnown (calls : Calls) : Prop where
  primary : calls.primary.deliveredTransaction.doubtful = false
  escalation : calls.escalation.deliveredTransaction.doubtful = false
  markFailed : calls.markFailed.doubtful = false
  markDeadLetter : calls.markDeadLetter.doubtful = false

/-- A row as the table has it, where the attempts of the execution come from `first` on. -/
def Attempt.numberedFrom (first : Nat) (row : Attempt) : Attempt :=
  { row with escalationOf := row.escalationOf.map (first + ·) }

/-- A process, and what stays the same while it is on an intent. -/
structure Worker where
  process : Nat
  id : String
  intent : Intent
  rows : List (String × Intent)
  answers : Option String
  first : Nat

namespace Worker

def on (w : Worker) (stage : Stage) : Process :=
  .working ((w.id, w.intent) :: w.rows) stage w.answers

/-- The tables have the rows of the execution. -/
structure Shows (w : Worker) (s : System) (d : Delivery) : Prop where
  intent : s.intents.get? w.id = some d.intent
  count : s.attempts.rows.length = w.first + d.attempts.length
  attempts : ∀ i, s.attempts.get? (w.first + i) = d.attempts[i]?.map (·.row.numberedFrom w.first)
  deadLetter : s.deadLetters.get? w.id = d.deadLetter

structure IsOn (w : Worker) (s : System) (stage : Stage) (d : Delivery) : Prop where
  shows : w.Shows s d
  works : s.processes w.process = w.on stage

def run (w : Worker) (s : System) (acts : List Act) : System :=
  acts.foldl (fun s act => s.step ⟨w.process, act⟩) s

/-- Some statements of the process lead to tables that have these rows. -/
def Reaches (w : Worker) (s : System) (d : Delivery) : Prop := ∃ acts, w.Shows (w.run s acts) d

variable {w : Worker} {s s' : System} {d d' : Delivery} {stage stage' : Stage} {act : Act}

theorem Shows.reaches (shows : w.Shows s d) : w.Reaches s d := ⟨[], shows⟩

theorem reaches_of_step (reaches : w.Reaches (s.step ⟨w.process, act⟩) d) : w.Reaches s d := by
  obtain ⟨acts, shows⟩ := reaches
  exact ⟨act :: acts, shows⟩

theorem step_eq (works : s.processes w.process = w.on stage) {next : Process}
    (does : s.statement (w.on stage) act = (s', next)) :
    s.step ⟨w.process, act⟩ =
      { s' with processes := Function.update s.processes w.process next } := by
  rw [System.step]
  dsimp only
  rw [works, does]

/-- The process goes on to another stage. -/
theorem IsOn.next (on : w.IsOn s stage d)
    (does : s.statement (w.on stage) act = (s', w.on stage')) (shows : w.Shows s' d') :
    w.IsOn (s.step ⟨w.process, act⟩) stage' d' := by
  rw [step_eq on.works does]
  exact ⟨⟨shows.intent, shows.count, shows.attempts, shows.deadLetter⟩, Function.update_self ..⟩

/-- The process is done with the intent. -/
theorem IsOn.done (on : w.IsOn s stage d) {next : Process}
    (does : s.statement (w.on stage) act = (s', next)) (shows : w.Shows s' d') :
    w.Reaches s d' := by
  have stepped : w.Shows (s.step ⟨w.process, act⟩) d' := by
    rw [step_eq on.works does]
    exact ⟨shows.intent, shows.count, shows.attempts, shows.deadLetter⟩
  exact reaches_of_step stepped.reaches

/-! ## The statements -/

section

variable {env : Surroundings} {channel reason : String} {attempt : Nat} {primary : Option Nat}
  {result : DeliveryResult} {lastError : Value}

theorem statement_thrown (error : String) :
    s.statement (w.on stage) (.throw error) =
      (s, w.on (.markingFailed ("worker_error:" ++ String.ofList (takeUnits 200 error.toList)))) :=
  rfl

theorem statement_markFailed (now : Int) :
    s.statement (w.on (.markingFailed reason)) (.mark now) =
      (s.markFailed w.id reason, .working w.rows .begun w.answers) := rfl

theorem statement_markDeadLetter (now : Int) :
    s.statement (w.on (.deadLettering lastError)) (.mark now) =
      (s.markDeadLetter w.id w.intent lastError now, .working w.rows .begun w.answers) := rfl

theorem statement_routedMarkFailed (route : w.intent.route env = .markFailed reason) (now : Int) :
    s.statement (w.on .begun) (.attempt env now) = (s, w.on (.markingFailed reason)) := by
  simp [System.statement, on, route]

theorem statement_routedEscalation (route : w.intent.route env = .tryEscalation channel)
    (now : Int) :
    s.statement (w.on .begun) (.attempt env now) = (s, w.on (.escalating channel none)) := by
  simp [System.statement, on, route]

theorem statement_attempt (route : w.intent.route env = .attempt channel) (now : Int) :
    s.statement (w.on .begun) (.attempt env now) =
      (s.createAttempt w.id 1 channel none now,
        w.on (.attempting channel s.attempts.rows.length)) := by
  simp [System.statement, on, route]

theorem statement_unavailable (obstacle : env.obstacle channel = some reason) (now : Int) :
    s.statement (w.on (.escalating channel primary)) (.attempt env now) =
      (s, w.on (.deadLettering
        (reasonObject ("escalation_channel_unavailable:" ++ reason)))) := by
  simp [System.statement, on, obstacle]

theorem statement_attemptEscalation (obstacle : env.obstacle channel = none) (now : Int) :
    s.statement (w.on (.escalating channel primary)) (.attempt env now) =
      (s.createAttempt w.id 2 channel primary now,
        w.on (.attemptingEscalation channel s.attempts.rows.length)) := by
  simp [System.statement, on, obstacle]

theorem statement_delivered (delivered : result.status = .delivered)
    (completedAt deliveredAt : Int) :
    s.statement (w.on (.delivering channel attempt))
        (.deliverReturns result completedAt deliveredAt) =
      ((s.completeAttempt attempt .delivered result completedAt).markDelivered w.id deliveredAt,
        .working w.rows .begun w.answers) := by
  simp [System.statement, on, delivered]

theorem statement_deliveredEscalation (delivered : result.status = .delivered)
    (completedAt deliveredAt : Int) :
    s.statement (w.on (.deliveringEscalation channel attempt))
        (.deliverReturns result completedAt deliveredAt) =
      ((s.completeAttempt attempt .delivered result completedAt).markDelivered w.id deliveredAt,
        .working w.rows .begun w.answers) := by
  simp [System.statement, on, delivered]

theorem statement_failed (failed : result.status ≠ .delivered) (completedAt deliveredAt : Int) :
    s.statement (w.on (.delivering channel attempt))
        (.deliverReturns result completedAt deliveredAt) =
      (s.completeAttempt attempt (if result.status = .bounced then .bounced else .failed) result
          completedAt,
        w.on (w.intent.afterFailure channel attempt result)) := by
  simp [System.statement, on, failed]

theorem statement_failedEscalation (failed : result.status ≠ .delivered)
    (completedAt deliveredAt : Int) :
    s.statement (w.on (.deliveringEscalation channel attempt))
        (.deliverReturns result completedAt deliveredAt) =
      (s.completeAttempt attempt .failed result completedAt,
        w.on (.deadLettering (result.error.getD
          (reasonObject ("escalation_failed:" ++ result.status.toString))))) := by
  simp [System.statement, on, failed]

end

/-! ## The rows -/

theorem shows_start (found : s.intents.get? w.id = some w.intent)
    (first : w.first = s.attempts.rows.length)
    (numbered : ∀ i, w.first ≤ i → s.attempts.get? i = none) (channelRow : Option ChannelRow) :
    w.Shows s (.start w.intent (s.deadLetters.get? w.id) channelRow) where
  intent := found
  count := first.symm
  attempts _ := numbered _ (Nat.le_add_right ..)
  deadLetter := rfl

theorem Shows.createAttempt (shows : w.Shows s d) (intentId channel : String) (attemptNumber : Nat)
    (escalationOf : Option Nat) (startedAt : Int) :
    w.Shows
      (s.createAttempt intentId attemptNumber channel (escalationOf.map (w.first + ·)) startedAt)
      (d.createAttempt (newAttempt intentId attemptNumber channel escalationOf startedAt)) where
  intent := shows.intent
  count := by
    have free : s.attempts.get? s.attempts.rows.length = none := by
      rw [shows.count, shows.attempts, List.getElem?_eq_none (Nat.le_refl _)]
      rfl
    have absent : ∀ row ∈ s.attempts.rows, row.1 ≠ s.attempts.rows.length :=
      fun row mem same =>
        KeyedTable.get?_eq_none_iff.mp free (List.mem_map.mpr ⟨row, mem, same⟩)
    rw [System.createAttempt, KeyedTable.rows_put absent, List.length_append, shows.count,
      Delivery.createAttempt, List.length_append, Nat.add_assoc]
    rfl
  attempts i := by
    rw [System.createAttempt, KeyedTable.get?_put, shows.count, shows.attempts,
      Delivery.createAttempt]
    by_cases last : i = d.attempts.length
    · subst last
      rw [if_pos rfl, List.getElem?_concat_length]
      rfl
    · rw [if_neg (by omega), List.getElem?_append]
      split
      next => rfl
      next beyond =>
        rw [List.getElem?_eq_none (by omega), List.getElem?_eq_none (by simp; omega)]
  deadLetter := shows.deadLetter

theorem Shows.answer (shows : w.Shows s d) (attempt : Nat) (result : DeliveryResult) :
    w.Shows s (d.answer attempt result) where
  intent := shows.intent
  count := by rw [shows.count, Delivery.answer, List.length_modify]
  attempts i := by
    rw [shows.attempts, Delivery.answer, List.getElem?_modify]
    cases d.attempts[i]? with
    | none => rfl
    | some t =>
      simp only [Option.map_some, Option.map_eq_map]
      split <;> rfl
  deadLetter := shows.deadLetter

theorem numberedFrom_complete (first : Nat) (result : DeliveryResult) (status : AttemptStatus)
    (completedAt : Int) (row : Attempt) :
    (result.complete status completedAt row).numberedFrom first =
      result.complete status completedAt (row.numberedFrom first) := by
  unfold DeliveryResult.complete
  split <;> rfl

theorem Shows.completeAttempt (shows : w.Shows s d) (attempt : Nat) (status : AttemptStatus)
    (result : DeliveryResult) (completedAt : Int) :
    w.Shows (s.completeAttempt (w.first + attempt) status result completedAt)
      (d.completeAttempt attempt status result completedAt) where
  intent := shows.intent
  count := by
    rw [System.completeAttempt, KeyedTable.update, KeyedTable.length_updateWhere, shows.count,
      Delivery.completeAttempt, List.length_modify]
  attempts i := by
    rw [System.completeAttempt, KeyedTable.get?_update, shows.attempts, Delivery.completeAttempt,
      List.getElem?_modify]
    cases d.attempts[i]? with
    | none => simp
    | some t =>
      by_cases same : i = attempt
      · subst same
        simp [numberedFrom_complete]
      · simp [same, Ne.symm same]
  deadLetter := shows.deadLetter

/-- A statement on the row of the intent. -/
theorem Shows.update (shows : w.Shows s d) (write : Intent → Intent) :
    w.Shows { s with intents := s.intents.update w.id write }
      { d with intent := write d.intent } where
  intent := by rw [KeyedTable.get?_update_self, shows.intent]; rfl
  count := shows.count
  attempts := shows.attempts
  deadLetter := shows.deadLetter

theorem Shows.delivered (shows : w.Shows s d) (attempt : Nat) (result : DeliveryResult)
    (completedAt deliveredAt : Int) :
    w.Shows
      ((s.completeAttempt (w.first + attempt) .delivered result completedAt).markDelivered w.id
        deliveredAt)
      ((d.completeAttempt attempt .delivered result completedAt).markDelivered deliveredAt) :=
  (shows.completeAttempt attempt .delivered result completedAt).update _

theorem Shows.markDeadLetter (shows : w.Shows s d) (lastError : Value) (deadLetteredAt : Int) :
    w.Shows (s.markDeadLetter w.id w.intent lastError deadLetteredAt)
      (d.markDeadLetter w.intent lastError deadLetteredAt) where
  intent := by
    rw [System.markDeadLetter, KeyedTable.get?_update_self, shows.intent]
    rfl
  count := shows.count
  attempts := shows.attempts
  deadLetter := by
    rw [System.markDeadLetter, KeyedTable.get?_upsert, if_pos rfl, shows.deadLetter,
      Delivery.markDeadLetter]
    cases d.deadLetter <;> rfl

theorem Shows.updateChannel (shows : w.Shows s d) (write : ChannelRow → ChannelRow) :
    w.Shows s (d.updateChannel write) :=
  ⟨shows.intent, shows.count, shows.attempts, shows.deadLetter⟩

/-! ## The calls -/

/-- What the handler does, the process does too. -/
def HandlerGoes (w : Worker) (calls : Calls) (s : System) (error : String) (d : Delivery) : Prop :=
  Ends (fun _ => w.Reaches s) (fun _ => w.Reaches s)
    (markFailed calls.handlerMarkFailed
      ("worker_error:" ++ String.ofList (takeUnits 200 error.toList)))
    d

/-- What a program does, with the handler after what it throws, the process does too. -/
def Goes (w : Worker) (calls : Calls) (s : System) (p : Execution Unit) (d : Delivery) : Prop :=
  Ends (fun _ => w.Reaches s) (w.HandlerGoes calls s) p d

variable {calls : Calls} {env : Surroundings} {error : String} {p : Execution Unit}
  {k : Unit → Execution Unit} {outcome : Outcome} {write : Delivery → Delivery}

theorem HandlerGoes.of_step (goes : w.HandlerGoes calls (s.step ⟨w.process, act⟩) error d) :
    w.HandlerGoes calls s error d :=
  ends_mono goes (fun _ _ => reaches_of_step) fun _ _ => reaches_of_step

theorem Goes.of_step (goes : w.Goes calls (s.step ⟨w.process, act⟩) p d) : w.Goes calls s p d :=
  ends_mono goes (fun _ _ => reaches_of_step) fun _ _ => HandlerGoes.of_step

theorem IsOn.handlerGoes (on : w.IsOn s stage d) (error : String) :
    w.HandlerGoes calls s error d := by
  have marked : w.Reaches s
      (d.markFailed ("worker_error:" ++ String.ofList (takeUnits 200 error.toList))) := by
    have thrown := on.next (statement_thrown error) on.shows
    exact reaches_of_step (thrown.done (statement_markFailed 0) (thrown.shows.update _))
  rw [HandlerGoes, markFailed, ends_statement]
  cases calls.handlerMarkFailed with
  | returns => exact marked
  | throws error committed =>
    cases committed with
    | false => exact on.shows.reaches
    | true => exact marked

theorem goes_ask {answer : Except String Unit} (on : w.IsOn s stage d)
    (goes : w.Goes calls s (k ()) d) : w.Goes calls s (ask answer >>= k) d := by
  rw [Goes, ends_bind, ends_ask]
  cases answer with
  | error error => exact on.handlerGoes error
  | ok => exact goes

theorem goes_get {k : Delivery → Execution Unit} (goes : w.Goes calls s (k d) d) :
    w.Goes calls s (get >>= k) d := goes

/-- The handler comes after the statement, done or not, or what comes next does. -/
theorem goes_outcome (before : ∀ error, w.HandlerGoes calls s error d)
    (after : ∀ error, w.HandlerGoes calls s error (write d))
    (goes : w.Goes calls s (k ()) (write d)) :
    w.Goes calls s (statement outcome write >>= k) d := by
  rw [Goes, ends_bind, ends_statement]
  cases outcome with
  | returns => exact goes
  | throws error committed =>
    cases committed with
    | false => exact before error
    | true => exact after error

/-- A statement after which the process is at another stage. -/
theorem goes_statement (on : w.IsOn s stage d)
    (next : w.IsOn (s.step ⟨w.process, act⟩) stage' (write d))
    (goes : w.Goes calls (s.step ⟨w.process, act⟩) (k ()) (write d)) :
    w.Goes calls s (statement outcome write >>= k) d :=
  goes_outcome on.handlerGoes (fun error => (next.handlerGoes error).of_step) goes.of_step

/-- A statement after which the process is done with the intent. -/
theorem goes_end (on : w.IsOn s stage d) (known : outcome.doubtful = false)
    (reaches : w.Reaches s (write d)) : w.Goes calls s (statement outcome write) d := by
  rw [Goes, ends_statement]
  cases outcome with
  | returns => exact reaches
  | throws error committed =>
    obtain rfl : committed = false := known
    exact on.handlerGoes error

theorem goes_markFailed {reason : String} (known : calls.EndKnown)
    (on : w.IsOn s (.markingFailed reason) d) :
    w.Goes calls s (markFailed calls.markFailed reason) d :=
  goes_end on known.markFailed (on.done (statement_markFailed 0) (on.shows.update _))

theorem goes_markDeadLetter {lastError : Value} (known : calls.EndKnown)
    (on : w.IsOn s (.deadLettering lastError) d) :
    w.Goes calls s (markDeadLetter w.intent calls lastError) d :=
  goes_end on known.markDeadLetter
    (on.done (statement_markDeadLetter _) (on.shows.markDeadLetter _ _))

/-! ## An attempt -/

/-- The row is created, and the adapter called: the process is at two stages on the way. -/
theorem goes_attempt {leg : Leg} {attemptNumber : Nat} {channel : String}
    {escalationOf : Option Nat} {k : Nat × DeliveryResult → Execution Unit} {call : Sent}
    {created delivering : Stage} (on : w.IsOn s stage d)
    (creates : s.statement (w.on stage) (.attempt env leg.startedAt) =
      (s.createAttempt w.id attemptNumber channel (escalationOf.map (w.first + ·)) leg.startedAt,
        w.on created))
    (sends : ∀ s, System.statement s (w.on created) .deliver =
      ({ s with sent := call :: s.sent }, w.on delivering))
    (goes : ∀ result s' d', w.IsOn s' delivering d' →
      w.Goes calls s' (k (d.attempts.length, result)) d') :
    w.Goes calls s (attemptDelivery w.id leg attemptNumber channel escalationOf >>= k) d := by
  have there := on.next creates (on.shows.createAttempt ..)
  have sent := there.next (sends _)
    ⟨there.shows.intent, there.shows.count, there.shows.attempts, there.shows.deadLetter⟩
  simp only [Goes, attemptDelivery, ends_bind, ends_get, ends_statement, ends_ask, ends_modify,
    ends_pure]
  cases leg.attemptCreate with
  | throws error committed =>
    cases committed with
    | false => exact on.handlerGoes error
    | true => exact (there.handlerGoes error).of_step
  | returns =>
    cases leg.deliver with
    | error error => exact (sent.handlerGoes error).of_step.of_step
    | ok result =>
      exact (goes result _ _ ⟨sent.shows.answer .., sent.works⟩).of_step.of_step

theorem goes_tryEscalation {channel : String} {primaryAttempt : Option Nat}
    (known : calls.EndKnown)
    (on : w.IsOn s (.escalating channel (primaryAttempt.map (w.first + ·))) d) :
    w.Goes calls s (tryEscalation w.id w.intent env calls channel primaryAttempt) d := by
  unfold tryEscalation
  refine goes_ask on ?_
  cases obstacle : env.obstacle channel with
  | some reason =>
    have failing := on.next (statement_unavailable obstacle 0) on.shows
    exact (goes_markDeadLetter known failing).of_step
  | none =>
    refine goes_ask on (goes_ask on (goes_attempt on (statement_attemptEscalation obstacle _)
      (fun _ => rfl) fun result s' d' answered => ?_))
    rw [on.shows.count] at answered
    dsimp only
    split
    next delivered =>
      exact goes_end answered known.escalation (answered.done
        (statement_deliveredEscalation delivered _ _)
        (answered.shows.delivered d.attempts.length result _ _))
    next failed =>
      have failing := answered.next
        (statement_failedEscalation failed calls.escalation.completedAt 0)
        (answered.shows.completeAttempt d.attempts.length .failed result _)
      exact goes_statement answered failing (goes_markDeadLetter known failing)

theorem goes_escalateFailure {channel : String} {attempt : Nat} {result : DeliveryResult}
    (known : calls.EndKnown)
    (on : w.IsOn s (w.intent.afterFailure channel (w.first + attempt) result) d) :
    w.Goes calls s (escalateFailure w.id w.intent env calls channel attempt result) d := by
  unfold escalateFailure
  unfold Intent.afterFailure at on
  cases escalation : given w.intent.escalationChannel with
  | none =>
    rw [escalation] at on
    exact goes_markDeadLetter known on
  | some escalationChannel =>
    rw [escalation] at on
    dsimp only at on ⊢
    split
    next other =>
      rw [if_pos other] at on
      exact goes_tryEscalation known on
    next same =>
      rw [if_neg same] at on
      exact goes_markDeadLetter known on

/-- The registry of the channels is not among the tables of the processes. -/
theorem goes_updateChannel {write : ChannelRow → ChannelRow} (on : w.IsOn s stage d)
    (goes : ∀ d', w.IsOn s stage d' → w.Goes calls s (k ()) d') :
    w.Goes calls s (statement outcome (·.updateChannel write) >>= k) d := by
  have updated : w.IsOn s stage (d.updateChannel write) := ⟨on.shows.updateChannel write, on.works⟩
  exact goes_outcome on.handlerGoes updated.handlerGoes (goes _ updated)

theorem goes_routedMarkFailed {reason : String} (known : calls.EndKnown)
    (on : w.IsOn s .begun d) (route : w.intent.route env = .markFailed reason) :
    w.Goes calls s (markFailed calls.markFailed reason) d := by
  have marking := on.next (statement_routedMarkFailed route 0) on.shows
  exact (goes_markFailed known marking).of_step

theorem goes_deliverPrimary {channel : String} (known : calls.EndKnown) (on : w.IsOn s .begun d)
    (route : w.intent.route env =
      match env.obstacle channel with
      | some reason => .markFailed reason
      | none => .attempt channel) :
    w.Goes calls s (deliverPrimary w.id w.intent env calls channel) d := by
  unfold deliverPrimary
  refine goes_ask on ?_
  cases obstacle : env.obstacle channel with
  | some reason =>
    rw [obstacle] at route
    exact goes_routedMarkFailed known on route
  | none =>
    rw [obstacle] at route
    have creates : s.statement (w.on .begun) (.attempt env calls.primary.startedAt) =
        (s.createAttempt w.id 1 channel ((none : Option Nat).map (w.first + ·))
            calls.primary.startedAt,
          w.on (.attempting channel s.attempts.rows.length)) := statement_attempt route _
    refine goes_ask on (goes_get (goes_ask on (goes_attempt on creates (fun _ => rfl)
      fun result s' d' answered => ?_)))
    rw [on.shows.count] at answered
    dsimp only
    split
    next delivered =>
      exact goes_end answered known.primary (answered.done (statement_delivered delivered _ _)
        ((answered.shows.delivered d.attempts.length result _ _).updateChannel _))
    next failed =>
      have failing := answered.next (statement_failed failed calls.primary.completedAt 0)
        (answered.shows.completeAttempt d.attempts.length _ result _)
      refine goes_statement answered failing ?_
      split
      next registered =>
        exact goes_updateChannel failing fun d' on => goes_escalateFailure known on
      next => exact goes_escalateFailure known failing

theorem goes_readPreference {channel : String} (on : w.IsOn s stage d)
    (goes : w.Goes calls s (k ()) d) :
    w.Goes calls s (readPreference w.intent env calls channel >>= k) d := by
  unfold readPreference
  split
  next =>
    rw [bind_assoc]
    refine goes_ask on ?_
    split
    next => exact goes_ask on goes
    next => exact goes
  next => exact goes

/-- What the handler of `deliverIntent` is around. -/
theorem goes_deliverClaimed (known : calls.EndKnown) (on : w.IsOn s .begun d) :
    w.Goes calls s (deliverClaimed w.id w.intent env calls) d := by
  unfold deliverClaimed
  split
  next disabled =>
    have route : w.intent.route env = .markFailed "policy_disabled" := by
      rw [Intent.route, if_pos disabled]
    exact goes_routedMarkFailed known on route
  next enabled =>
    cases raw : given w.intent.allowedChannels.head? with
    | none =>
      have route : w.intent.route env = .markFailed "no_channel_configured" := by
        rw [Intent.route, if_neg enabled, raw]
      exact goes_routedMarkFailed known on route
    | some rawChannel =>
      refine goes_readPreference on ?_
      cases expanded : w.intent.expandSemanticChannel env rawChannel with
      | none =>
        have failing (other : ∀ escalation ∈ given w.intent.escalationChannel,
            escalation = rawChannel) : w.intent.route env =
              .markFailed (if rawChannel = "current_thread" then "current_thread_context_missing"
                else "user_preferred_unavailable") := by
          cases escalation : given w.intent.escalationChannel with
          | none => simp [Intent.route, enabled, raw, expanded, escalation]
          | some escalationChannel =>
            simp [Intent.route, enabled, raw, expanded, escalation, other _ escalation]
        cases escalation : given w.intent.escalationChannel with
        | none => exact goes_routedMarkFailed known on (failing (by simp [escalation]))
        | some escalationChannel =>
          dsimp only
          split
          next other =>
            have route : w.intent.route env = .tryEscalation escalationChannel := by
              simp [Intent.route, enabled, raw, expanded, escalation, other]
            have escalating := on.next (statement_routedEscalation route 0) on.shows
            exact (goes_tryEscalation known escalating).of_step
          next same =>
            exact goes_routedMarkFailed known on
              (failing (by simpa [escalation] using not_not.mp same))
      | some primaryChannel =>
        refine goes_deliverPrimary known on ?_
        cases obstacle : env.obstacle primaryChannel <;>
          simp [Intent.route, enabled, raw, expanded, obstacle]

/-- From a process that comes to the intent, some statements of it lead to the tables that an
execution leaves, whatever its calls do. -/
theorem execution_reached (known : calls.EndKnown) (works : s.processes w.process = w.on .begun)
    (found : s.intents.get? w.id = some w.intent) (first : w.first = s.attempts.rows.length)
    (numbered : ∀ i, w.first ≤ i → s.attempts.get? i = none) (channelRow : Option ChannelRow) :
    w.Reaches s
      (final (deliverIntent w.id w.intent env calls)
        (.start w.intent (s.deadLetters.get? w.id) channelRow)) := by
  rw [final_iff (P := w.Reaches s), deliverIntent, ends_tryCatch]
  exact goes_deliverClaimed known ⟨shows_start found first numbered channelRow, works⟩

end Worker

end Persai.Notifications
