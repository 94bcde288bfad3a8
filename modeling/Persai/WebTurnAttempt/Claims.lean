import Persai.Runs
import Persai.WebTurnAttempt.Statements

/-!
# One execution per acceptance

Any number of claims of one `clientTurnId`, their statements in any order, from any row or none. A
claim reads the row and then writes it without asking again: no two claims of about the same time
are granted, and none fails in the database, in every run where the row is still missing when it is
created and still stale when it is taken over.
-/

namespace Persai.WebTurnAttempt

open Runs

/-- The time that a claim measures a row by. -/
def Attempt.claimTime (row : Attempt) : Int :=
  (row.runningAt.or row.acceptedAt).getD row.updatedAt

/-- The system and the claims that it has granted, the newest first. -/
structure Claims where
  system : System
  granted : List ClaimInput

inductive ClaimEvent where
  | claim (request : Nat) (input : ClaimInput)
  | next (request : Nat) (id : String) (now : Int)

/-- The call that a request makes, as long as it has not returned. -/
def Request.claimInput : Request → Option ClaimInput
  | .claimUpdate _ input | .claimCreate input => some input
  | _ => none

namespace Claims

def start (row : Option Attempt) : Claims := ⟨⟨row, fun _ => .idle⟩, []⟩

/-- The call whose statement it is, and where the statement leaves it. -/
def statement (s : Claims) : ClaimEvent → Option ClaimInput × Effect
  | .claim _ input => (some input, WebTurnAttempt.claim s.system.row input)
  | .next request id now =>
    ((s.system.requests request).claimInput,
      (s.system.requests request).nextStatement s.system.row id now)

def ClaimEvent.request : ClaimEvent → Nat
  | .claim request _ | .next request _ _ => request

/-- What a claim returns with the statement. -/
def returns (s : Claims) (e : ClaimEvent) : Option (ClaimInput × Result) :=
  match s.statement e with
  | (some input, (_, .returned result)) => some (input, result)
  | _ => none

def step (s : Claims) (e : ClaimEvent) : Claims where
  system := s.system.perform (ClaimEvent.request e) (s.statement e).2
  granted :=
    match s.returns e with
    | some (input, .claim .claimed) => input :: s.granted
    | _ => s.granted

/-- No claim is granted that is nearer than `staleAfterMs` to one granted before, and what is not
granted is answered as a duplicate: the database does not throw. -/
def GrantsApart (s : Claims) (e : ClaimEvent) : Prop :=
  ∀ input result, s.returns e = some (input, result) →
    ∃ outcome, result = .claim outcome ∧ (outcome = .claimed →
      ∀ earlier ∈ s.granted,
        input.staleAfterMs ≤ (input.claimedAt - earlier.claimedAt).natAbs)

/-- A row is created where there is still none, and taken over where it is still stale. -/
def StillFree (s : Claims) : ClaimEvent → Prop
  | .claim _ _ => True
  | .next request _ _ =>
    match s.system.requests request with
    | .claimCreate _ => s.system.row = none
    | .claimUpdate _ input =>
      ∀ row, s.system.row = some row → (input.staleAfterMs : Int) ≤ input.claimedAt - row.claimTime
    | _ => True

/-! ## What a statement does -/

/-- A request that makes a claim, or none. -/
def Claiming : Request → Prop
  | .idle | .claimUpdate _ _ | .claimCreate _ | .returned _ => True
  | _ => False

structure Sound (s : Claims) : Prop where
  present : ∀ earlier ∈ s.granted, s.system.row.isSome
  newest : ∀ row, s.system.row = some row → ∀ earlier ∈ s.granted,
    earlier.claimedAt ≤ row.claimTime
  reading : ∀ request existing input, s.system.requests request = .claimUpdate existing input →
    ∃ row, s.system.row = some row ∧ row.id = existing.id
  claiming : ∀ request, Claiming (s.system.requests request)

theorem sound_start (row : Option Attempt) : Sound (start row) where
  present := by intro earlier mem; cases mem
  newest := by intro _ _ earlier mem; cases mem
  reading := by intro request existing input pending; cases pending
  claiming _ := trivial

/-- The read of a claim answers it as a duplicate or leads to the write that fits the row. -/
theorem claim_cases (row : Option Attempt) (input : ClaimInput) :
    (row = none ∧ WebTurnAttempt.claim row input = (row, .claimCreate input)) ∨
      (∃ existing, row = some existing ∧
        WebTurnAttempt.claim row input = (row, .claimUpdate existing input)) ∨
      ∃ outcome, outcome ≠ .claimed ∧
        WebTurnAttempt.claim row input = (row, .returned (.claim outcome)) := by
  cases row with
  | none => exact .inl ⟨rfl, rfl⟩
  | some existing =>
    refine .inr ?_
    simp only [WebTurnAttempt.claim]
    cases existing.status with
    | completed => exact .inr ⟨.duplicateHandled, nofun, rfl⟩
    | failed | interrupted => exact .inr ⟨.duplicateTerminal .., nofun, rfl⟩
    | accepted | running =>
      dsimp only
      split
      · exact .inr ⟨.duplicateInflight, nofun, rfl⟩
      · exact .inl ⟨existing, rfl, rfl⟩

theorem claimCreate_grants (id : String) (now : Int) (input : ClaimInput) :
    ∃ row, WebTurnAttempt.claimCreate none id now input =
        (some row, .returned (.claim .claimed)) ∧ row.claimTime = input.claimedAt :=
  ⟨_, rfl, rfl⟩

theorem claimUpdate_grants {current existing : Attempt} (same : current.id = existing.id)
    (now : Int) (input : ClaimInput) :
    ∃ row, WebTurnAttempt.claimUpdate (some current) now existing input =
        (some row, .returned (.claim .claimed)) ∧ row.claimTime = input.claimedAt ∧
      row.id = current.id :=
  ⟨_, if_pos same, rfl, rfl⟩

section
variable {s : Claims}

/-- A request goes on; the row stays and nothing is granted. -/
theorem Sound.goesOn (sound : Sound s) (request : Nat) {next : Request} (claims : Claiming next)
    (read : ∀ existing input, next = .claimUpdate existing input →
      ∃ row, s.system.row = some row ∧ row.id = existing.id) :
    Sound ⟨s.system.perform request (s.system.row, next), s.granted⟩ where
  present := sound.present
  newest := sound.newest
  reading := by
    intro other existing input pending
    simp only [System.perform, Function.update_apply] at pending
    split at pending
    · exact read existing input pending
    · exact sound.reading other existing input pending
  claiming := by
    intro other
    simp only [System.perform, Function.update_apply]
    split
    · exact claims
    · exact sound.claiming other

/-- A claim is granted: the row is there and is measured by it. -/
theorem Sound.grants (sound : Sound s) (request : Nat) {row : Attempt} {input : ClaimInput}
    (time : row.claimTime = input.claimedAt)
    (later : ∀ earlier ∈ s.granted, earlier.claimedAt ≤ input.claimedAt)
    (same : ∀ current, s.system.row = some current → row.id = current.id) :
    Sound ⟨s.system.perform request (some row, .returned (.claim .claimed)),
      input :: s.granted⟩ where
  present _ _ := rfl
  newest := by
    intro row' found earlier mem
    cases found
    rw [time]
    rcases List.mem_cons.mp mem with rfl | mem
    · exact Int.le_refl _
    · exact later earlier mem
  reading := by
    intro other existing input' pending
    simp only [System.perform, Function.update_apply] at pending
    split at pending
    · cases pending
    · obtain ⟨current, there, id⟩ := sound.reading other existing input' pending
      exact ⟨row, rfl, (same current there).trans id⟩
  claiming := by
    intro other
    simp only [System.perform, Function.update_apply]
    split
    · trivial
    · exact sound.claiming other

/-- A statement leaves the row and refuses no claim but a duplicate, or it grants a claim whose time
is `staleAfterMs` after all that were granted before. -/
theorem step_cases (sound : Sound s) {e : ClaimEvent} (free : StillFree s e) :
    (∃ call next, s.statement e = (call, (s.system.row, next)) ∧ Claiming next ∧
        (∀ existing input, next = .claimUpdate existing input →
          ∃ row, s.system.row = some row ∧ row.id = existing.id) ∧
        ∀ input result, s.returns e = some (input, result) →
          ∃ outcome, outcome ≠ .claimed ∧ result = .claim outcome) ∨
      ∃ input row, s.statement e = (some input, (some row, .returned (.claim .claimed))) ∧
        row.claimTime = input.claimedAt ∧
        (∀ current, s.system.row = some current → row.id = current.id) ∧
        ∀ earlier ∈ s.granted, earlier.claimedAt + input.staleAfterMs ≤ input.claimedAt := by
  cases e with
  | claim request input =>
    left
    rcases claim_cases s.system.row input with
      ⟨-, reads⟩ | ⟨existing, there, reads⟩ | ⟨outcome, refused, reads⟩
    · refine ⟨some input, .claimCreate input, congrArg _ reads, trivial, ?_, ?_⟩
      · intro existing input' other
        cases other
      · simp [returns, statement, reads]
    · refine ⟨some input, .claimUpdate existing input, congrArg _ reads, trivial, ?_, ?_⟩
      · rintro _ _ ⟨⟩
        exact ⟨existing, there, rfl⟩
      · simp [returns, statement, reads]
    · refine ⟨some input, .returned (.claim outcome), congrArg _ reads, trivial, ?_, ?_⟩
      · intro existing input' other
        cases other
      intro input' result returned
      simp only [returns, statement, reads, Option.some.injEq, Prod.mk.injEq] at returned
      exact ⟨outcome, refused, returned.2.symm⟩
  | next request id now =>
    have claims := sound.claiming request
    have reading := sound.reading request
    simp only [StillFree] at free
    simp only [returns, statement]
    cases pending : s.system.requests request with
    | idle =>
      refine .inl ⟨none, .idle, rfl, trivial, ?_, ?_⟩
      · intro existing input other
        cases other
      · simp [Request.claimInput]
    | returned result =>
      refine .inl ⟨none, .returned result, rfl, trivial, ?_, ?_⟩
      · intro existing input other
        cases other
      · simp [Request.claimInput]
    | claimCreate input =>
      rw [pending] at free
      dsimp only at free
      obtain ⟨row, creates, time⟩ := claimCreate_grants id now input
      refine .inr ⟨input, row, ?_, time, ?_, fun earlier mem => ?_⟩
      · simp only [Request.claimInput, Request.nextStatement, free, creates]
      · intro current found
        rw [free] at found
        cases found
      · have there := sound.present earlier mem
        rw [free] at there
        cases there
    | claimUpdate existing input =>
      obtain ⟨row, there, same⟩ := reading existing input pending
      rw [pending] at free
      have stale := free row there
      obtain ⟨row', updates, time, id'⟩ := claimUpdate_grants same now input
      refine .inr ⟨input, row', ?_, time, ?_, fun earlier mem => ?_⟩
      · simp only [Request.claimInput, Request.nextStatement, there, updates]
      · intro current found
        cases there.symm.trans found
        exact id'
      · have before := sound.newest row there earlier mem
        omega
    | _ => rw [pending] at claims; exact claims.elim

theorem step_sound (s : Claims) (e : ClaimEvent) (sound : Sound s) (free : StillFree s e) :
    Sound (s.step e) := by
  rcases step_cases sound free with
    ⟨call, next, stays, claims, read, refused⟩ | ⟨input, row, grants, time, same, later⟩
  · have nothing : (s.step e).granted = s.granted := by
      simp only [step]
      split
      · rename_i granted
        obtain ⟨outcome, other, same⟩ := refused _ _ granted
        cases same
        exact absurd rfl other
      · rfl
    have after : s.step e =
        ⟨s.system.perform (ClaimEvent.request e) (s.system.row, next), s.granted⟩ := by
      rw [← nothing, step, stays]
    rw [after]
    exact sound.goesOn _ claims read
  · have after : s.step e = ⟨s.system.perform (ClaimEvent.request e)
        (some row, .returned (.claim .claimed)), input :: s.granted⟩ := by
      simp only [step, returns, grants]
    rw [after]
    refine sound.grants _ time (fun earlier mem => ?_) same
    have apart := later earlier mem
    omega

theorem step_grantsApart (s : Claims) (e : ClaimEvent) (sound : Sound s) (free : StillFree s e) :
    GrantsApart s e := by
  intro input result returned
  rcases step_cases sound free with
    ⟨call, next, -, -, -, refused⟩ | ⟨input', row, grants, -, -, later⟩
  · obtain ⟨outcome, other, same⟩ := refused input result returned
    exact ⟨outcome, same, fun claimed => absurd claimed other⟩
  · simp only [returns, grants, Option.some.injEq, Prod.mk.injEq] at returned
    obtain ⟨rfl, rfl⟩ := returned
    refine ⟨.claimed, rfl, fun _ earlier mem => ?_⟩
    have apart := later earlier mem
    omega

end

/-- In a run where each row is created while there is none and taken over while it is stale, no two
claims of about the same time are granted and none fails. -/
theorem grantsApart_of_stillFree (row : Option Attempt) (es : List ClaimEvent)
    (free : EveryStep step StillFree (start row) es) :
    EveryStep step GrantsApart (start row) es :=
  everyStep_of_preserved step_sound step_grantsApart (sound_start row) free

def claimAt (claimedAt : Int) : ClaimInput := ⟨claimedAt, 120000, none⟩

/-- A claim, its retry, and a claim of the turn when the first has become stale. -/
theorem grantsApart_one_after_the_other :
    let es : List ClaimEvent := [.claim 0 (claimAt 0), .next 0 "attempt" 5, .claim 1 (claimAt 1000),
      .claim 2 (claimAt 120000), .next 2 "" 120005]
    EveryStep step StillFree (start none) es ∧ EveryStep step GrantsApart (start none) es := by
  intro es
  have free : EveryStep step StillFree (start none) es := by
    refine ⟨trivial, rfl, trivial, trivial, ?_, trivial⟩
    intro row found
    cases found
    decide
  exact ⟨free, grantsApart_of_stillFree none es free⟩

/-- A row whose turn has died. -/
def abandoned : Attempt where
  id := "attempt"
  surfaceClient := none
  status := .running
  chatId := none
  userMessageId := none
  assistantMessageId := none
  respondedAt := none
  terminalPayload := none
  errorCode := none
  errorMessage := none
  acceptedAt := some 0
  runningAt := some 100
  completedAt := none
  failedAt := none
  interruptedAt := none
  updatedAt := 100

/-- Two claims that read the same before either has written. -/
def sideBySide : List ClaimEvent :=
  [.claim 0 (claimAt 500000), .claim 1 (claimAt 500010), .next 0 "first" 500020,
    .next 1 "second" 500030]

/-- With no row the second claim fails in the database; with a stale one both are granted. -/
theorem overlapping_claims :
    ¬ EveryStep step GrantsApart (start none) sideBySide ∧
      ¬ EveryStep step GrantsApart (start (some abandoned)) sideBySide := by
  constructor
  · rintro ⟨-, -, -, last, -⟩
    obtain ⟨outcome, duplicate, -⟩ := last (claimAt 500010) .uniqueViolation rfl
    cases duplicate
  · rintro ⟨-, -, -, last, -⟩
    obtain ⟨outcome, granted, apart⟩ := last (claimAt 500010) (.claim .claimed) rfl
    cases granted
    exact absurd (apart rfl (claimAt 500000) (.head _)) (by decide)

end Claims

end Persai.WebTurnAttempt
