import Persai.Runs
import Persai.WebTurnAttempt.Statements

/-!
# Terminal is final

Over every interleaving of the statements of any number of requests, the status of a terminal row
changes only by a healing completion of a failed one, if and only if the two statements that do not
ask for the status, the update of `markRunning` and the update of `claim`, meet no terminal row.
-/

namespace Persai.WebTurnAttempt

open Runs

/-- A guarded write leaves a row that its guard excludes. -/
theorem updateMany_of_not_guard {row : Attempt} {guard : Attempt → Bool} {data : Attempt → Attempt}
    (excluded : guard row = false) : updateMany (some row) guard data = (some row, false) := by
  rw [updateMany, excluded]
  rfl

theorem isActive_of_terminal {row : Attempt} (terminal : row.status.isTerminal = true) :
    isActive row = false := by
  rw [isActive, terminal]
  rfl

namespace System

/-- The statement is a write of `markCompleted` with `healFailedAsyncContinuation`. -/
def Heals (s : System) : Event → Prop
  | .call _ _ _ => False
  | .next request _ _ => ∃ input, input.healFailedAsyncContinuation = true ∧
      (s.requests request = .completeUpdateUnbound input ∨
        ∃ winner, s.requests request = .completeUpdate input winner)

/-- A terminal status stays, or goes from failed to completed by a healing completion. -/
def TerminalFinal (s : System) (e : Event) : Prop :=
  ∀ row, s.row = some row → row.status.isTerminal = true →
    ∃ row', (s.step e).row = some row' ∧ (row'.status = row.status ∨
      row.status = .failed ∧ row'.status = .completed ∧ s.Heals e)

/-- `markRunning` meets no terminal row, and no row has become terminal since a claim read it that
the claim now updates. -/
def MeetsActive (s : System) : Event → Prop
  | .call _ (.markRunning _) _ => ∀ row, s.row = some row → row.status.isTerminal = false
  | .call _ _ _ => True
  | .next request _ _ => ∀ existing input, s.requests request = .claimUpdate existing input →
      ∀ row, s.row = some row → row.id = existing.id → row.status.isTerminal = false

variable {s : System} {row : Attempt}

theorem terminalFinal_of_same {e : Event} (same : (s.step e).row = s.row) : s.TerminalFinal e :=
  fun row here _ => ⟨row, same.trans here, .inl rfl⟩

/-- A completion leaves a terminal row, or heals a failed one. -/
theorem completable_cases (input : CompletedInput) (terminal : row.status.isTerminal = true) :
    completable input row = false ∨
      row.status = .failed ∧ input.healFailedAsyncContinuation = true := by
  unfold completable
  rw [isActive_of_terminal terminal, Bool.false_or]
  cases heal : input.healFailedAsyncContinuation with
  | false => exact .inl rfl
  | true =>
    by_cases failed : row.status = .failed
    · exact .inr ⟨failed, rfl⟩
    · left
      simpa using failed

/-- A write that asks for an active row leaves a terminal one. -/
theorem updateMany_of_terminal {guard : Attempt → Bool} {data : Attempt → Attempt}
    (asks : ∀ current, guard current = true → isActive current = true)
    (terminal : row.status.isTerminal = true) :
    (updateMany (some row) guard data).1 = some row := by
  have excluded : guard row = false := by
    cases met : guard row with
    | false => rfl
    | true =>
      have active := asks row met
      rw [isActive_of_terminal terminal] at active
      cases active
  rw [updateMany_of_not_guard excluded]

theorem terminalFinal_markRunning (request : Nat) (input : RunningInput) (now : Int) :
    s.TerminalFinal (.call request (.markRunning input) now) ↔
      s.MeetsActive (.call request (.markRunning input) now) := by
  constructor
  · intro final row here
    cases terminal : row.status.isTerminal with
    | false => rfl
    | true =>
      obtain ⟨row', next, changed⟩ := final row here terminal
      have running : (s.step (.call request (.markRunning input) now)).row =
          (markRunning (some row) now input).1 := by rw [← here]; rfl
      rw [running] at next
      cases next
      rcases changed with same | ⟨-, completed, -⟩
      · rw [← same] at terminal
        cases terminal
      · cases completed
  · intro active row here terminal
    rw [active row here] at terminal
    cases terminal

theorem terminalFinal_call (request : Nat) (call : Call) (now : Int) :
    s.TerminalFinal (.call request call now) ↔ s.MeetsActive (.call request call now) := by
  cases call with
  | claim input => exact iff_of_true (terminalFinal_of_same rfl) trivial
  | markCompleted input => exact iff_of_true (terminalFinal_of_same rfl) trivial
  | markFailed code message => exact iff_of_true (terminalFinal_of_same rfl) trivial
  | markInterrupted message code text => exact iff_of_true (terminalFinal_of_same rfl) trivial
  | markRunning input => exact terminalFinal_markRunning request input now
  | bindAssistantMessageId message =>
    refine iff_of_true (fun row here terminal => ⟨row, ?_, .inl rfl⟩) trivial
    change (updateMany s.row _ _).1 = some row
    rw [here]
    refine updateMany_of_terminal (fun current met => ?_) terminal
    exact (Bool.and_eq_true _ _ ▸ met).1
  | abandonPreAcceptanceAttempt =>
    refine iff_of_true (fun row here terminal => ⟨row, ?_, .inl rfl⟩) trivial
    change Option.filter _ s.row = some row
    rw [here, Option.filter_some, isActive_of_terminal terminal]
    rfl

/-- The update of a claim makes the row accepted, whatever it is by then. -/
theorem terminalFinal_claimUpdate {request : Nat} {existing : Attempt} {input : ClaimInput}
    (id : String) (now : Int) (pending : s.requests request = .claimUpdate existing input) :
    s.TerminalFinal (.next request id now) ↔ s.MeetsActive (.next request id now) := by
  have step : (s.step (.next request id now)).row = (claimUpdate s.row now existing input).1 := by
    change ((s.requests request).nextStatement s.row id now).1 = _
    rw [pending]
    rfl
  constructor
  · intro final existing' input' pending' row here same
    rw [pending] at pending'
    cases pending'
    cases terminal : row.status.isTerminal with
    | false => rfl
    | true =>
      obtain ⟨row', next, changed⟩ := final row here terminal
      rw [step, here, claimUpdate, if_pos same] at next
      cases next
      rcases changed with same | ⟨-, completed, -⟩
      · rw [← same] at terminal
        cases terminal
      · cases completed
  · intro active row here terminal
    have other : row.id ≠ existing.id := by
      intro same
      rw [active existing input pending row here same] at terminal
      cases terminal
    refine ⟨row, ?_, .inl rfl⟩
    rw [step, here, claimUpdate, if_neg other]

/-- A write of `markCompleted` leaves a terminal row or heals a failed one. -/
theorem completion_final {input : CompletedInput} {guard : Attempt → Bool} (now : Int)
    (winner : String) (bind : Bool) (asks : ∀ current, guard current = true →
      completable input current = true) (terminal : row.status.isTerminal = true) :
    ∃ row', (updateMany (some row) guard (completedData now input winner bind)).1 = some row' ∧
      (row'.status = row.status ∨ row.status = .failed ∧ row'.status = .completed ∧
        input.healFailedAsyncContinuation = true) := by
  cases met : guard row with
  | false => exact ⟨row, by rw [updateMany_of_not_guard met], .inl rfl⟩
  | true =>
    refine ⟨completedData now input winner bind row, by rw [updateMany, met]; rfl, ?_⟩
    rcases completable_cases input terminal with excluded | ⟨failed, heals⟩
    · rw [asks row met] at excluded
      cases excluded
    · exact .inr ⟨failed, rfl, heals⟩

theorem terminalFinal_completion {request : Nat} {id : String} {now : Int} {input : CompletedInput}
    {guard : Attempt → Bool} {winner : String} {bind : Bool}
    (writes : (s.step (.next request id now)).row =
      (updateMany s.row guard (completedData now input winner bind)).1)
    (asks : ∀ current, guard current = true → completable input current = true)
    (pending : s.requests request = .completeUpdateUnbound input ∨
      ∃ winner, s.requests request = .completeUpdate input winner) :
    s.TerminalFinal (.next request id now) := by
  intro row here terminal
  rw [writes, here]
  obtain ⟨row', next, same | ⟨failed, completed, heals⟩⟩ :=
    completion_final now winner bind asks terminal
  · exact ⟨row', next, .inl same⟩
  · exact ⟨row', next, .inr ⟨failed, completed, input, heals, pending⟩⟩

theorem terminalFinal_guarded {e : Event} {guard : Attempt → Bool} {data : Attempt → Attempt}
    (writes : (s.step e).row = (updateMany s.row guard data).1)
    (asks : ∀ current, guard current = true → isActive current = true) : s.TerminalFinal e := by
  intro row here terminal
  refine ⟨row, ?_, .inl rfl⟩
  rw [writes, here, updateMany_of_terminal asks terminal]

theorem meetsActive_next {request : Nat} {id : String} {now : Int}
    (other : ∀ existing input, s.requests request ≠ .claimUpdate existing input) :
    s.MeetsActive (.next request id now) :=
  fun existing input claims => absurd claims (other existing input)

theorem terminalFinal_next (request : Nat) (id : String) (now : Int) :
    s.TerminalFinal (.next request id now) ↔ s.MeetsActive (.next request id now) := by
  have step : (s.step (.next request id now)).row =
      ((s.requests request).nextStatement s.row id now).1 := rfl
  cases pending : s.requests request with
  | claimUpdate existing input => exact terminalFinal_claimUpdate id now pending
  | idle | returned _ | bindFind | completeFind _ | failFind _ =>
    refine iff_of_true (terminalFinal_of_same ?_) (meetsActive_next ?_)
    · rw [step, pending]
      rfl
    · simp [pending]
  | claimCreate input =>
    refine iff_of_true (fun row here _ => ⟨row, ?_, .inl rfl⟩)
      (meetsActive_next (by simp [pending]))
    rw [step, pending, here]
    rfl
  | completeUpdateUnbound input =>
    have writes : (s.step (.next request id now)).row = (updateMany s.row
        (fun current => completable input current && current.assistantMessageId.isNone)
        (completedData now input input.assistantMessageId true)).1 := by
      rw [step, pending]
      rfl
    exact iff_of_true
      (terminalFinal_completion writes (fun _ met => (Bool.and_eq_true _ _ ▸ met).1) (.inl pending))
      (meetsActive_next (by simp [pending]))
  | completeUpdate input winner =>
    have writes : (s.step (.next request id now)).row = (updateMany s.row
        (fun current => completable input current && current.assistantMessageId == some winner)
        (completedData now input winner false)).1 := by
      rw [step, pending]
      rfl
    exact iff_of_true
      (terminalFinal_completion writes (fun _ met => (Bool.and_eq_true _ _ ▸ met).1)
        (.inr ⟨winner, pending⟩))
      (meetsActive_next (by simp [pending]))
  | failUpdateUnbound input prior =>
    have writes : (s.step (.next request id now)).row = (updateMany s.row
        (fun current => isActive current &&
          (input.assistantMessageId.isNone || current.assistantMessageId.isNone))
        (failureData now input true)).1 := by
      rw [step, pending]
      rfl
    exact iff_of_true (terminalFinal_guarded writes fun _ met => (Bool.and_eq_true _ _ ▸ met).1)
      (meetsActive_next (by simp [pending]))
  | failUpdate input winner =>
    have writes : (s.step (.next request id now)).row = (updateMany s.row
        (fun current => isActive current && current.assistantMessageId == some winner)
        (failureData now input false)).1 := by
      rw [step, pending]
      rfl
    exact iff_of_true (terminalFinal_guarded writes fun _ met => (Bool.and_eq_true _ _ ▸ met).1)
      (meetsActive_next (by simp [pending]))

theorem terminalFinal_iff_meetsActive (s : System) (e : Event) :
    s.TerminalFinal e ↔ s.MeetsActive e := by
  cases e with
  | call request call now => exact terminalFinal_call request call now
  | next request id now => exact terminalFinal_next request id now

/-- The row is there with the status, or healed if the status is that of a failure. -/
def Keeps (status : AttemptStatus) (s : System) : Prop :=
  ∃ row, s.row = some row ∧ (row.status = status ∨ status = .failed ∧ row.status = .completed)

/-- In a run where terminal is final a terminal row has the same status in all later states, or is
healed. -/
theorem status_stays {status : AttemptStatus} (terminal : status.isTerminal = true) {s : System}
    {es : List Event} (final : EveryStep step TerminalFinal s es) :
    Since step (fun s => ∃ row, s.row = some row ∧ row.status = status) (Keeps status) s es := by
  refine since_of_stable (I := Keeps status) ?_ ?_ (fun _ => id) final
  · rintro s e ⟨row, here, same | ⟨failed, completed⟩⟩ final
    · obtain ⟨row', next, same' | ⟨failed, completed, -⟩⟩ := final row here (same ▸ terminal)
      · exact ⟨row', next, .inl (same'.trans same)⟩
      · exact ⟨row', next, .inr ⟨same.symm.trans failed, completed⟩⟩
    · obtain ⟨row', next, same' | ⟨failed', -⟩⟩ := final row here (by rw [completed]; rfl)
      · exact ⟨row', next, .inr ⟨failed, same'.trans completed⟩⟩
      · rw [completed] at failed'
        cases failed'
  · rintro s ⟨row, here, same⟩
    exact ⟨row, here, .inl same⟩

/-- The status of a terminal row is final: each statement leaves it, or heals a failed one, and so
it is the same in all later states, or healed. -/
def Final (s : System) (es : List Event) : Prop :=
  EveryStep step TerminalFinal s es ∧ ∀ status : AttemptStatus, status.isTerminal = true →
    Since step (fun s => ∃ row, s.row = some row ∧ row.status = status) (Keeps status) s es

/-- Whatever the interleaving, terminal is final if and only if neither unguarded write meets a
terminal row. -/
theorem final_iff_meetsActive (s : System) (es : List Event) :
    Final s es ↔ EveryStep step MeetsActive s es := by
  have same : EveryStep step TerminalFinal s es ↔ EveryStep step MeetsActive s es :=
    everyStep_iff_of_preserved (I := fun _ => True) (fun _ _ _ _ => trivial)
      (fun s e _ => terminalFinal_iff_meetsActive s e) trivial
  rw [← same]
  exact ⟨fun final => final.1, fun steps => ⟨steps, fun _ terminal => status_stays terminal steps⟩⟩

def begun : System := ⟨none, fun _ => .idle⟩

/-- Request 0 claims the turn; a stop interrupts it; request 0 then marks it running. -/
def stoppedBeforeRunning : List Event :=
  [.call 0 (.claim ⟨0, 120000, none⟩) 0, .next 0 "attempt" 0,
    .call 1 (.markInterrupted none none none) 500, .next 1 "" 500,
    .call 0 (.markRunning ⟨"chat", some "message", none⟩) 1000]

theorem stopped_turn_runs_again : ¬ Final begun stoppedBeforeRunning := by
  rintro ⟨⟨-, -, -, -, final, -⟩, -⟩
  have stopped : (run step begun (stoppedBeforeRunning.take 4)).row.map Attempt.status =
      some .interrupted := by decide
  have restarted : (run step begun stoppedBeforeRunning).row.map Attempt.status =
      some .running := by decide
  obtain ⟨row, here, interrupted⟩ := Option.map_eq_some_iff.mp stopped
  obtain ⟨row', next, changed⟩ := final row here (by rw [interrupted]; rfl)
  have running : row'.status = .running :=
    Option.some.inj ((congrArg (Option.map Attempt.status) next).symm.trans restarted)
  rcases changed with same | ⟨failed, -⟩
  · rw [running, interrupted] at same
    cases same
  · rw [interrupted] at failed
    cases failed

end System

end Persai.WebTurnAttempt
