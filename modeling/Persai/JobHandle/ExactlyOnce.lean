import Persai.Runs
import Persai.JobHandle.Rows

/-!
# A result is narrated once

A continuation that has completed must not become ready again, and one that is
dispatched may return to ready only by a requeue. `recordCanonicalCompletion`
does not look at the state it overwrites, so both hold of exactly those runs in
which no completion is recorded too late:

* `narrated_write`: what has been narrated stays so;
* `late_completion_ready`: a late completion makes the handle ready again;
* `narrated_once_iff`: the two laws hold of a run if and only if none is late;
* `late_reconciler_report`, `late_worker_report`: runs that break them.
-/

namespace Persai.JobHandle

open Runs Tables

/-- A continuation is still expected to narrate this handle, now or when asked again. -/
def Handle.awaitsNarration (h : Handle) : Prop :=
  h.narrationDecision ≠ some .continuationDepthExhausted ∧
  (h.narrationOwner = some .continuation ∨ h.narrationOwner = some .legacy ∨
    (h.narrationOwner = none ∧ h.sourceFinalizedAt.isSome))

instance (h : Handle) : Decidable h.awaitsNarration := inferInstanceAs (Decidable (_ ∧ _))

/-- A completion recorded now would take the handle back to ready from where a
continuation has brought it. -/
def Handle.tooLate (h : Handle) : Prop :=
  h.awaitsNarration ∧
  (h.state = .dispatched ∨ (h.state = .completed ∧ h.narrationOwner = some .continuation))

instance (h : Handle) : Decidable h.tooLate := inferInstanceAs (Decidable (_ ∧ _))

/-- Narrated by its continuation, or never to be narrated. -/
def Handle.narrated (h : Handle) : Prop :=
  h.narrationOwner = some .continuation ∧
  (h.state = .completed ∨
    (h.narrationDecision = some .continuationDepthExhausted ∧
      (h.state = .failed ∨ h.state = .cancelled)))

/-- The handle `k` is in a state that satisfies `p`. -/
def Holds (k : Id) (p : Handle → Prop) (s : System) : Prop :=
  ∃ h ∈ s.tables.handles.get? k, p h

instance (k : Id) (p : Handle → Prop) [DecidablePred p] (s : System) : Decidable (Holds k p s) :=
  inferInstanceAs (Decidable (∃ h ∈ s.tables.handles.get? k, p h))

def Completed (k : Id) : System → Prop :=
  Holds k fun h => h.state = .completed ∧ h.narrationOwner = some .continuation

def Dispatched (k : Id) : System → Prop := Holds k fun h => h.state = .dispatched

def Ready (k : Id) : System → Prop := Holds k fun h => h.state = .ready

instance (k : Id) : DecidablePred (Completed k) :=
  fun s => inferInstanceAs (Decidable (Holds k _ s))

instance (k : Id) : DecidablePred (Dispatched k) :=
  fun s => inferInstanceAs (Decidable (Holds k _ s))

instance (k : Id) : DecidablePred (Ready k) :=
  fun s => inferInstanceAs (Decidable (Holds k _ s))

def Event.isRequeueClaim : Event → Bool
  | .requeueClaim .. => true
  | _ => false

/-- No completion reported by this event comes too late for the handle `k`. -/
def TimelyCompletion (k : Id) (s : System) (e : Event) : Prop :=
  ∀ call ∈ s.reported e, ∀ r ∈ s.tables.lockCanonical call.kind call.canonicalJobId,
    r.1 = k → ¬ r.2.tooLate

theorem continuationReady_iff {h : Handle} :
    h.continuationReady ↔ h.state ≠ .failed ∧ h.awaitsNarration := by
  unfold Handle.continuationReady Handle.needsContinuationHeal Handle.awaitsNarration
  constructor
  · rintro ⟨state, decision, owner, -⟩
    refine ⟨state, decision, ?_⟩
    tauto
  · rintro ⟨state, decision, owner⟩
    refine ⟨state, decision, ?_, ?_⟩ <;> tauto

section
variable {digest : Id → String} {s : System} {e : Event} {k : Id} {h w : Handle}

theorem recordCompletion_ready (ready : h.continuationReady) (status : TerminalStatus)
    (snapshot : TerminalSnapshot) (now : Time) (clientTurnId : String) :
    (h.recordCompletion status snapshot now clientTurnId).state = .ready := by
  simp only [Handle.recordCompletion, ready, if_true, Handle.promote]

theorem recordCompletion_state_of_not (unawaited : ¬ h.continuationReady)
    (status : TerminalStatus) (snapshot : TerminalSnapshot) (now : Time) (clientTurnId : String) :
    (h.recordCompletion status snapshot now clientTurnId).state = status.state := by
  simp only [Handle.recordCompletion, unawaited, if_false, Handle.terminalStateData_state]

/-- A completion that finds no narration awaited ends the handle where it stands. -/
theorem recordCompletion_ended (unawaited : ¬ h.continuationReady)
    (owned : h.narrationOwner = some .continuation)
    (exhausted : h.narrationDecision = some .continuationDepthExhausted)
    (status : TerminalStatus) (snapshot : TerminalSnapshot) (now : Time) (clientTurnId : String) :
    (h.recordCompletion status snapshot now clientTurnId).narrated := by
  have same : h.recordCompletion status snapshot now clientTurnId =
      { h with terminalSnapshotJson := some snapshot }.terminalStateData status now := by
    simp [Handle.recordCompletion, unawaited, exhausted]
  rw [same]
  refine ⟨by simp [owned], ?_⟩
  cases status <;> simp [Handle.terminalStateData, exhausted]

theorem claimedBy_state {token : Token} (claimed : claimedBy token h = true) :
    h.state = .claimed := by
  simp only [claimedBy, decide_eq_true_eq] at claimed; exact claimed.1

theorem dispatchedBy_state {token : Token} (dispatched : dispatchedBy token h = true) :
    h.state = .dispatched := by
  simp only [dispatchedBy, decide_eq_true_eq] at dispatched; exact dispatched.1

/-- A claim is on a row in one of the two claimed states. -/
theorem active_state {token : Token}
    (claimed : claimedBy token h = true ∨ dispatchedBy token h = true) :
    h.state = .claimed ∨ h.state = .dispatched :=
  claimed.imp claimedBy_state dispatchedBy_state

theorem Handle.narrated.final (done : h.narrated) : h.state.terminal := by
  obtain ⟨-, completed | ⟨-, failed | cancelled⟩⟩ := done
  · exact .inl completed
  · exact .inr (.inl failed)
  · exact .inr (.inr cancelled)

/-- What has been narrated stays so under every write but a late completion. -/
theorem narrated_write (done : h.narrated) (write : Write digest s k e h w)
    (timely : TimelyCompletion k s e) : w.narrated := by
  have owned : h.narrationOwner = some .continuation := done.1
  have final : h.state.terminal := done.final
  unfold HandleState.terminal at final
  cases write with
  | kept => exact done
  | claimCurrentTurn _ _ unowned => simp [unowned] at owned
  | finalizeTerminal _ _ _ isOpen =>
    obtain none | ⟨subscribed, -⟩ := isOpen
    · simp [none] at final
    · simp [subscribed] at final
  | exhaustDepth _ unowned => rw [owned] at unowned; simp at unowned
  | upgradeLegacy _ _ legacy => simp [legacy] at owned
  | subscribe _ _ unowned => simp [unowned] at owned
  | finalizeSource => unfold Handle.finalizeSource; split <;> exact done
  | resolve _ _ _ _ _ mine => simp [unresolved, owned] at mine
  | claimLivePresent _ unowned => simp [unowned] at owned
  | recordCompletion _ call _ _ _ made target =>
    have unlate : ¬ h.tooLate := timely call made (k, h) target rfl
    by_cases exhausted : h.narrationDecision = some .continuationDepthExhausted
    · refine recordCompletion_ended ?_ owned exhausted _ _ _ _
      rw [continuationReady_iff]
      exact fun ready => ready.2.1 exhausted
    · obtain completed | ⟨exhausted', -⟩ := done.2
      · exact absurd ⟨⟨exhausted, .inl owned⟩, .inr ⟨completed, owned⟩⟩ unlate
      · exact absurd exhausted' exhausted
  | claim _ _ _ ready => simp [ready] at final
  | release _ _ _ _ claimed => simp [claimedBy_state claimed] at final
  | dispatch _ _ _ _ claimed => simp [claimedBy_state claimed] at final
  | claimAttempt kind => cases kind <;> exact done
  | recordAttempt kind => cases kind <;> exact done
  | settleExpiredAttempts =>
    unfold Handle.settleExpiredAttempt
    split <;> split <;> exact done
  | publish => exact done
  | requeue _ _ _ _ _ _ _ claimed =>
    obtain at' | at' := active_state claimed <;> simp [at'] at final
  | exhaustRetries _ _ _ _ claimed =>
    obtain at' | at' := active_state claimed <;> simp [at'] at final
  | complete _ _ claimed => exact ⟨owned, .inl rfl⟩
  | fail _ _ _ _ _ claimed => obtain at' | at' := active_state claimed <;> simp [at'] at final
  | settleDelivered => exact ⟨owned, .inl rfl⟩

/-- A dispatched handle becomes ready by a requeue or by a late completion only. -/
theorem dispatched_write (dispatched : h.state = .dispatched) (write : Write digest s k e h w)
    (timely : TimelyCompletion k s e) (ready : w.state = .ready) : e.isRequeueClaim := by
  cases write with
  | requeue => rfl
  | kept => simp [dispatched] at ready
  | claimCurrentTurn terminal =>
    have final := terminal.status.state_terminal
    rw [Handle.claimCurrentTurn, Handle.terminalStateData_state] at ready
    simp [ready, HandleState.terminal] at final
  | finalizeTerminal _ _ _ isOpen =>
    obtain none | ⟨subscribed, -⟩ := isOpen
    · simp [none] at dispatched
    · simp [subscribed] at dispatched
  | exhaustDepth => cases ready
  | upgradeLegacy _ _ _ _ =>
    unfold Handle.upgradeLegacy at ready
    split at ready
    · cases ready
    · simp [Handle.notifyContinuation, dispatched] at ready
  | subscribe => cases ready
  | finalizeSource => simp [dispatched] at ready
  | resolve =>
    obtain ready | final := Handle.resolve_ready ready
    · simp [dispatched] at ready
    · simp [dispatched, HandleState.terminal] at final
  | claimLivePresent => simp [Handle.claimLivePresent, dispatched] at ready
  | recordCompletion _ call _ _ _ made target =>
    have unlate : ¬ h.tooLate := timely call made (k, h) target rfl
    by_cases awaited : h.continuationReady
    · exact absurd ⟨(continuationReady_iff.mp awaited).2, .inl dispatched⟩ unlate
    · have final := call.terminalStatus.state_terminal
      rw [recordCompletion_state_of_not awaited] at ready
      simp [ready, HandleState.terminal] at final
  | claim _ _ _ ready' => simp [ready'] at dispatched
  | release _ _ _ _ claimed => simp [claimedBy_state claimed] at dispatched
  | dispatch => cases ready
  | claimAttempt kind =>
    cases kind <;> simp [Handle.claimAttempt, Handle.setAttempt, dispatched] at ready
  | recordAttempt kind =>
    cases kind <;> simp [Handle.recordAttempt, Handle.setAttempt, dispatched] at ready
  | settleExpiredAttempts =>
    unfold Handle.settleExpiredAttempt at ready
    split at ready <;> split at ready <;> simp_all [Handle.setAttempt]
  | publish => simp [Handle.publishedOn, dispatched] at ready
  | exhaustRetries => cases ready
  | complete => cases ready
  | fail => cases ready
  | settleDelivered => cases ready

/-- A completion that comes too late makes the handle ready, whatever it was. -/
theorem late_completion_ready (digest : Id → String) (late : ¬ TimelyCompletion k s e) :
    Ready k (s.step digest e) ∧ ¬ e.isRequeueClaim ∧ (Completed k s ∨ Dispatched k s) := by
  simp only [TimelyCompletion, not_forall, not_not] at late
  obtain ⟨call, made, ⟨id, row⟩, target, rfl, awaited, at'⟩ := late
  dsimp only at awaited at'
  have found := lockCanonical_row target
  cases e with
  | recordCanonicalCompletion caller call' pick now =>
    obtain rfl := System.reported_call made
    obtain ⟨clientTurnId, m, after⟩ := step_completion digest made target
    have ready : row.continuationReady :=
      continuationReady_iff.mpr ⟨by rcases at' with at' | ⟨at', -⟩ <;> rw [at'] <;> decide, awaited⟩
    refine ⟨⟨_, after, recordCompletion_ready ready _ _ _ _⟩, by simp [Event.isRequeueClaim], ?_⟩
    exact at'.elim (fun dispatched => .inr ⟨row, found, dispatched⟩)
      fun completed => .inl ⟨row, found, completed⟩
  | _ => cases made

def Narrated (k : Id) : System → Prop := Holds k Handle.narrated

theorem step_narrated (done : Narrated k s) (timely : TimelyCompletion k s e) :
    Narrated k (s.step digest e) := by
  obtain ⟨h, found, done⟩ := done
  obtain ⟨w, m, write, after⟩ := step_row digest found e
  have kept : w.narrated := narrated_write done write timely
  exact ⟨w.stamped m, after, kept⟩

theorem step_dispatched (dispatched : Dispatched k s) (timely : TimelyCompletion k s e)
    (ready : Ready k (s.step digest e)) : e.isRequeueClaim := by
  obtain ⟨h, found, dispatched⟩ := dispatched
  obtain ⟨w, m, write, after⟩ := step_row digest found e
  obtain ⟨h', after', ready⟩ := ready
  obtain rfl := Option.some.inj (after.symm.trans after')
  exact dispatched_write dispatched write timely ready

end

/-- What a run must not do to the handle `k`: make it ready once it has completed
for its continuation, or take it from dispatched to ready without a requeue. -/
def NarratedOnce (digest : Id → String) (k : Id) (s : System) (es : List Event) : Prop :=
  Since (System.step digest) (Completed k) (fun s => ¬ Ready k s) s es ∧
  EveryStep (System.step digest)
    (fun s e => Dispatched k s → Ready k (s.step digest e) → e.isRequeueClaim) s es

/-- A handle is narrated once in exactly those runs that record no completion too late. -/
theorem narrated_once_iff (digest : Id → String) (k : Id) (s : System) (es : List Event) :
    NarratedOnce digest k s es ↔ EveryStep (System.step digest) (TimelyCompletion k) s es := by
  constructor
  · rintro ⟨once, requeued⟩
    refine everyStep_mono (fun s e h => ?_) (everyStep_and.mpr ⟨since_steps once, requeued⟩)
    obtain ⟨once, requeued⟩ := h
    by_contra late
    obtain ⟨ready, notRequeue, completed | dispatched⟩ := late_completion_ready digest late
    · exact once completed ready
    · exact notRequeue (requeued dispatched ready)
  · intro timely
    constructor
    · refine since_of_stable (I := Narrated k) (fun s e => step_narrated) ?_ ?_ timely
      · rintro s ⟨h, found, completed, owned⟩
        exact ⟨h, found, owned, .inl completed⟩
      · rintro s ⟨h, found, done⟩ ⟨h', found', ready⟩
        obtain rfl := Option.some.inj (found.symm.trans found')
        simpa [ready, HandleState.terminal] using done.final
    · exact everyStep_mono (fun s e timely dispatched ready =>
        step_dispatched dispatched timely ready) timely

/-- A media job whose artifact is on its message before its row says delivered: the
reconciler reports it, the continuation narrates it, and then the delivery worker
that is still finalizing the job reports it too. -/
def lateWorkerReport (narration : List Event) : List Event :=
  [.setChat 7 ⟨1, 2, 3, .web, "thread"⟩,
    .setMediaJob 5 { status := .running },
    .mintHandle ⟨9, .media, 5, 1, 2, 3, 7, .web, some "thread", some "turn", none, none⟩,
    .subscribePending ⟨9, 1, 2, 7, .web, "thread"⟩ 10,
    .postMessage { chatId := 7, assistantId := 1, author := .assistant, content := "Started." },
    .finalizeSourceTurn ⟨1, 7, "turn"⟩ .persisted (some 1) (fun _ => 0) 20,
    .postMessage { chatId := 7, assistantId := 1, author := .assistant, content := "" },
    .setMediaJob 5 { status := .completionPending, completionAssistantMessageId := some 2 },
    .attach 2,
    .selectCandidates false 20,
    .readCandidate ⟨.media, 5, none⟩ 30,
    .recordCanonicalCompletion .reconciler
      ⟨.media, 5, .completed, .delivered .completed none "Job completed and was delivered."⟩ 0 31,
    .claimReadyHeadForChat 7 60000 [] 40,
    .markDispatched 0 4 "request" 90000 50] ++ narration ++
  [.setMediaJob 5
      { status := .delivered, deliveredAt := some 70, completionAssistantMessageId := some 2 },
    .recordCanonicalCompletion .deliveryWorker
      ⟨.media, 5, .completed, .delivered .completed none "Job completed and was delivered."⟩ 0 71]

/-- The worker's report reopens the handle, after its narration and during it. -/
theorem late_worker_report :
    ¬ NarratedOnce (fun _ => "") 0 {} (lateWorkerReport [.completeClaim 0 4 60]) ∧
    ¬ NarratedOnce (fun _ => "") 0 {} (lateWorkerReport []) := by
  constructor
  · intro once
    have steps := since_steps once.1
    revert steps
    decide
  · intro once
    have steps := once.2
    revert steps
    decide

end Persai.JobHandle
