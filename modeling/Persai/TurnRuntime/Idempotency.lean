import Persai.Runs
import Persai.TurnRuntime.Steps

/-!
# One result for a key

The receipt under a key answers every call that comes with the key again.

* `keepsStored_step`: the receipt of a stored completion stays as it is until its own
  turn records another end;
* `Claimed`, `claimed_step`: a continuation whose call was accepted keeps its receipt for
  the request of that call, in every run;
* `idempotent_iff`: the runs in which a key has one result, every replay answers it, and
  a continuation is accepted once, are those in which no turn records another end
  after its completion;
* `failed_after_completion`: a turn that fails after it was completed.
-/

namespace Persai.TurnRuntime

open Runs

/-- The result that a turn completes with. -/
def Finalization.result : Finalization → Option Payload
  | .completed result _ => some result
  | _ => none

/-- The receipt that a call replays. -/
def Acceptance.replay : Acceptance → Option Receipt
  | .replayed r => some r
  | _ => none

/-- The receipt of a request that completed with a result. -/
def Receipt.Completes (r : Receipt) (request : RequestId) (result : Payload) : Prop :=
  r.status = .completed ∧ r.requestId = request ∧ r.resultPayload = some result

instance (r : Receipt) (request : RequestId) (result : Payload) :
    Decidable (r.Completes request result) := inferInstanceAs (Decidable (_ ∧ _))

/-- The call is accepted, or is on its way to that answer. -/
def Call.Accepted (call : Call) : Prop := ∃ r, call.phase.answer = some (.accepted r)

namespace World

/-- A turn with a completion on record records no end but that completion. -/
def CompletesOnce (w : World) : Event → Prop
  | .finalize request f =>
    (w.turn request).isSome →
      ∀ done ∈ w.completions, done.2.1 = request → f.result = some done.2.2
  | _ => True

/-- The completions of a key are one request's, with one result. -/
def StoresOne (w : World) : Prop :=
  ∀ a ∈ w.completions, ∀ b ∈ w.completions, a.1 = b.1 → a.2 = b.2

/-- A completion is what the receipt of its key says. -/
def KeepsStored (w : World) : Prop :=
  ∀ done ∈ w.completions, ∃ r, w.receipts.get? done.1 = some r ∧
    r.Completes done.2.1 done.2.2

/-- A call that comes to a replay, with a completion of its key on record, replays that
completion. -/
def ReplaysStored (c : RuntimeConfig) (w : World) : Event → Prop
  | .proceed request ok =>
    ∀ call ∈ w.calls.get? request, call.phase.answer = none →
      ∀ call' ∈ (w.step c (.proceed request ok)).calls.get? request,
        ∀ r ∈ call'.phase.answer.bind Acceptance.replay,
          ∀ done ∈ w.completions, done.1 = call.key → r.Completes done.2.1 done.2.2
  | _ => True

instance (c : RuntimeConfig) (w : World) (e : Event) : Decidable (w.ReplaysStored c e) := by
  cases e <;> unfold ReplaysStored <;> infer_instance

/-- At most one call with the key of a continuation is accepted. -/
def AcceptsOnce (w : World) : Prop :=
  ∀ q call q' call', w.calls.get? q = some call → w.calls.get? q' = some call' →
    call'.key = call.key → call.key.asyncContinuation → call.Accepted → call'.Accepted → q' = q

/-- Completions are on their receipts, which no call can reclaim. -/
def Stored (w : World) : Prop :=
  ∀ done ∈ w.completions, ∃ r, w.receipts.get? done.1 = some r ∧
    r.Completes done.2.1 done.2.2 ∧ r.errorCode = none

/-- No call reclaims the receipt of a continuation, and the receipt is that of the call
that was accepted. -/
structure Claimed (w : World) : Prop where
  reclaims : ∀ q call, w.calls.get? q = some call →
    call.phase = .reclaim ∨ call.phase = .findReclaimed → ¬ call.key.asyncContinuation
  row : ∀ q call, w.calls.get? q = some call → call.key.asyncContinuation → call.Accepted →
    ∃ r, w.receipts.get? call.key = some r ∧ r.requestId = q

section
variable {c : RuntimeConfig} {w : World}

theorem stored_keepsStored (stored : w.Stored) : w.KeepsStored := fun done member =>
  let ⟨r, row, completes, _⟩ := stored done member
  ⟨r, row, completes⟩

/-- Two completions of a key are on one receipt. -/
theorem keepsStored_storesOne (kept : w.KeepsStored) : w.StoresOne := by
  rintro ⟨k, a⟩ memberA ⟨k', b⟩ memberB same
  obtain rfl : k = k' := same
  obtain ⟨r, row, -, requestA, resultA⟩ := kept _ memberA
  obtain ⟨r', row', -, requestB, resultB⟩ := kept _ memberB
  obtain rfl := Option.some.inj (row.symm.trans row')
  exact Prod.ext (requestA.symm.trans requestB)
    (Option.some.inj (resultA.symm.trans resultB))

theorem completes_finalize {r : Receipt} {now : Nat} {f : Finalization} {request : RequestId}
    {result : Payload} (mine : r.requestId = request) (completes : f.result = some result) :
    (r.finalize now f).Completes request result ∧ (r.finalize now f).errorCode = none := by
  cases f with
  | completed p _ =>
    obtain rfl := Option.some.inj completes
    exact ⟨⟨rfl, mine, rfl⟩, rfl⟩
  | interrupted | failed => cases completes

theorem result_of_completes {r : Receipt} {now : Nat} {f : Finalization} {request : RequestId}
    {result : Payload} (completes : (r.finalize now f).Completes request result) :
    f.result = some result := by
  cases f with
  | completed => exact completes.2.2
  | interrupted | failed => cases completes.1

/-- The receipt of a completion that was on record. -/
theorem stored_row (stored : w.Stored) (e : Event) (once : w.CompletesOnce e)
    {k : TurnKey} {q : RequestId} {result : Payload}
    (member : (k, q, result) ∈ w.completions) :
    ∃ r, (w.step c e).receipts.get? k = some r ∧ r.Completes q result ∧ r.errorCode = none := by
  obtain ⟨r, row, completes, clean⟩ := stored (k, q, result) member
  have change := step_row c w e k
  rw [row] at change
  generalize row' : (w.step c e).receipts.get? k = after at change
  cases change with
  | kept => exact ⟨r, rfl, completes, clean⟩
  | reclaimed request ok call r found phase orphaned =>
    rw [Receipt.orphaned, clean] at orphaned
    cases orphaned
  | finalized request f k r turn mine =>
    have same := once turn _ member (completes.2.1.symm.trans mine)
    exact ⟨_, rfl, completes_finalize completes.2.1 same⟩
  | reconciled i o k r found phase mine accepted =>
    rw [completes.1] at accepted
    cases accepted

theorem stored_other (stored : w.Stored) {e : Event}
    (finalize : ∀ request f, e ≠ .finalize request f) (once : w.CompletesOnce e) {k : TurnKey}
    {q : RequestId} {result : Payload} (member : (k, q, result) ∈ (w.step c e).completions) :
    ∃ r, (w.step c e).receipts.get? k = some r ∧ r.Completes q result ∧ r.errorCode = none := by
  rw [(step_logs e finalize).1] at member
  exact stored_row stored e once member

/-- Completions stay on their receipts as long as no turn records another end. -/
theorem stored_step (stored : w.Stored) (e : Event) (once : w.CompletesOnce e) :
    (w.step c e).Stored := by
  rintro ⟨k, q, p⟩ member
  cases e with
  | finalize request f =>
    have before := @stored_row c w stored (.finalize request f) once k q p
    obtain ⟨-, key, r, found, after⟩ | ⟨-, same⟩ := finalize_cases c w request f
    · rw [after] at before member ⊢
      cases f with
      | completed result completedAt =>
        obtain new | old := List.mem_cons.mp member
        · cases new
          obtain ⟨row, mine⟩ := KeyedTable.get?_of_find? found
          rw [decide_eq_true_eq] at mine
          refine ⟨r.finalize w.redis.now (.completed p completedAt), ?_,
            completes_finalize mine rfl⟩
          simp [Receipts.markFinal, row, mine]
        · exact before old
      | interrupted | failed => exact before member
    · rw [same] at member ⊢
      exact stored _ member
  | _ => exact stored_other stored (by simp) once member

/-- The completions on record stay on their receipts exactly if the end recorded repeats
them. -/
theorem keepsStored_iff (stored : w.Stored) (e : Event) :
    (w.step c e).KeepsStored ↔ w.CompletesOnce e := by
  refine ⟨fun kept => ?_, fun once => stored_keepsStored (stored_step stored e once)⟩
  cases e with
  | finalize request f =>
    intro turn done member mine
    obtain ⟨r, row, completes, -⟩ := stored done member
    obtain ⟨-, key, _, -, after⟩ | ⟨none, -⟩ := finalize_cases c w request f
    · have member' : done ∈ (w.step c (.finalize request f)).completions := by
        rw [after]
        cases f with
        | completed => exact List.mem_cons_of_mem _ member
        | interrupted | failed => exact member
      obtain ⟨r', row', completes'⟩ := kept done member'
      rw [after] at row'
      simp only [Receipts.markFinal, KeyedTable.get?_updateWhere, row, Option.map_some,
        completes.2.1, mine, decide_true, if_true, Option.some.injEq] at row'
      subst row'
      exact result_of_completes completes'
    · have found := none turn
      rw [Receipts.findByRequest, KeyedTable.find?_eq_none_iff] at found
      exact absurd (decide_eq_true (completes.2.1.trans mine)) (by simpa using found _ r row)
  | _ => trivial

/-- The call has the phase it was set to. -/
theorem phase_of_setPhase {v : World} {request : RequestId} {call call' : Call} {phase : Phase}
    (found : w.calls.get? request = some call) (same : v.calls = w.calls)
    (found' : (v.setPhase request phase).calls.get? request = some call') :
    call'.phase = phase := by
  rw [get?_setPhase, if_pos rfl, same, found] at found'
  rw [← Option.some.inj found']

/-- A call that goes on to replay has just read the receipt of its key. -/
theorem proceeds_replay {request : RequestId} {call call' : Call} {w' : World} {r : Receipt}
    (found : w.calls.get? request = some call) (proceeds : Proceeds c w request call w')
    (undecided : call.phase.answer = none) (found' : w'.calls.get? request = some call')
    (answer : call'.phase.answer = some (.replayed r)) : w.receipts.get? call.key = some r := by
  cases proceeds with
  | plain redis phase _ next =>
    rw [phase_of_setPhase found rfl found'] at answer
    obtain before | noReceipt := next.2.2.2 _ answer
    · rw [undecided] at before; cases before
    · obtain h | h | h := noReceipt <;> cases h
  | replays phase r₀ _ _ answer₀ row =>
    rw [phase_of_setPhase found rfl found', answer₀] at answer
    cases answer
    exact row
  | releases a phase => rw [phase] at undecided; cases undecided
  | ended a phase => rw [phase] at undecided; cases undecided
  | claims | creates | reclaims | accepts =>
    rw [phase_of_setPhase found rfl found'] at answer
    cases answer

/-- A replay answers what the receipt says. -/
theorem keepsStored_replays (kept : w.KeepsStored) (e : Event) : w.ReplaysStored c e := by
  cases e with
  | proceed request ok =>
    intro call found undecided call' found' r replay done member key
    rw [Option.mem_def] at found found' replay
    have answer : call'.phase.answer = some (.replayed r) := by
      cases answered : call'.phase.answer with
      | none => rw [answered] at replay; cases replay
      | some a =>
        rw [answered] at replay
        cases a with
        | replayed => rw [← Option.some.inj replay]
        | _ => cases replay
    simp only [step, found] at found'
    have row := proceeds_replay found (proceed_cases c w request call ok) undecided found' answer
    obtain ⟨r₀, row₀, completes⟩ := kept done member
    rw [key, row] at row₀
    obtain rfl := Option.some.inj row₀
    exact completes
  | _ => trivial

/-- A call comes to its reclaim, and to the read after it, with another kind of key. -/
theorem claimed_reclaims (claimed : w.Claimed) (e : Event) {q : RequestId} {call' : Call}
    (found' : (w.step c e).calls.get? q = some call')
    (reclaiming : call'.phase = .reclaim ∨ call'.phase = .findReclaimed) :
    ¬ call'.key.asyncContinuation := by
  cases step_callFrom e found' with
  | kept call found key phase =>
    rw [key]
    exact claimed.reclaims q call found (by rwa [← phase])
  | begun phase => rw [phase] at reclaiming; obtain h | h := reclaiming <;> cases h
  | proceeded call found key proceeds =>
    rw [key]
    generalize w.step c e = w' at proceeds found'
    cases proceeds with
    | plain redis phase same next reclaims =>
      rw [phase_of_setPhase found rfl found'] at reclaiming
      exact reclaims (reclaiming.resolve_right next.2.2.1)
    | reclaims r phase => exact claimed.reclaims q call found (.inl phase)
    | replays phase r rank undecided answer =>
      rw [phase_of_setPhase found rfl found'] at reclaiming
      obtain rfl | rfl := reclaiming <;> cases answer
    | ended answer phase =>
      obtain rfl := Option.some.inj (found.symm.trans found')
      rw [phase] at reclaiming
      obtain h | h := reclaiming <;> cases h
    | claims | creates | accepts | releases =>
      rw [phase_of_setPhase found rfl found'] at reclaiming
      obtain h | h := reclaiming <;> cases h

/-- The receipt of a continuation stays with its request. -/
theorem claimed_row (claimed : w.Claimed) (e : Event) {k : TurnKey} {q : RequestId}
    (async : k.asyncContinuation)
    (row : ∃ r, w.receipts.get? k = some r ∧ r.requestId = q) :
    ∃ r, (w.step c e).receipts.get? k = some r ∧ r.requestId = q := by
  obtain ⟨r, row, mine⟩ := row
  have change := step_row c w e k
  rw [row] at change
  generalize row' : (w.step c e).receipts.get? k = after at change
  cases change with
  | kept => exact ⟨r, rfl, mine⟩
  | reclaimed request ok call r found phase =>
    exact absurd async (claimed.reclaims request call found (.inl phase))
  | finalized request f => exact ⟨_, rfl, by cases f <;> exact mine⟩
  | reconciled => exact ⟨_, rfl, mine⟩

theorem claimed_step (claimed : w.Claimed) (e : Event) : (w.step c e).Claimed := by
  refine ⟨fun q call' => claimed_reclaims claimed e, fun q call' found' async accepted => ?_⟩
  cases step_callFrom e found' with
  | kept call found key phase =>
    rw [Call.Accepted, phase] at accepted
    rw [key] at async ⊢
    exact claimed_row claimed e async (claimed.row q call found async accepted)
  | begun phase =>
    rw [Call.Accepted, phase] at accepted
    obtain ⟨r, ⟨⟩⟩ := accepted
  | proceeded call found key proceeds =>
    rw [key] at async ⊢
    have before := fun accepted =>
      claimed_row (c := c) claimed e async (claimed.row q call found async accepted)
    obtain ⟨r, answer⟩ := accepted
    generalize w.step c e = w' at proceeds found' before ⊢
    cases proceeds with
    | plain redis phase same next =>
      rw [phase_of_setPhase found rfl found'] at answer
      obtain kept | noReceipt := next.2.2.2 _ answer
      · exact before ⟨r, kept⟩
      · obtain h | h | h := noReceipt <;> cases h
    | creates receipts r₀ phase fresh created =>
      exact ⟨r₀, by simp [setPhase, KeyedTable.get?_create created], by rw [fresh]⟩
    | replays phase r₀ rank undecided answer₀ =>
      rw [phase_of_setPhase found rfl found', answer₀] at answer
      cases answer
    | accepts key r₀ phase => exact absurd async (claimed.reclaims q call found (.inr phase))
    | releases a phase =>
      rw [phase_of_setPhase found rfl found'] at answer
      exact before ⟨r, by rw [phase]; exact answer⟩
    | ended =>
      obtain rfl := Option.some.inj (found.symm.trans found')
      exact before ⟨r, answer⟩
    | claims | reclaims =>
      rw [phase_of_setPhase found rfl found'] at answer
      cases answer

theorem claimed_acceptsOnce (claimed : w.Claimed) : w.AcceptsOnce := by
  intro q call q' call' found found' key async accepted accepted'
  obtain ⟨r, row, mine⟩ := claimed.row q call found async accepted
  obtain ⟨r', row', mine'⟩ := claimed.row q' call' found' (by rwa [key]) accepted'
  rw [key, row] at row'
  obtain rfl := Option.some.inj row'
  exact mine'.symm.trans mine

end

/-- In exactly the runs in which no turn records another end after its completion, a key
has one result, its receipt keeps it and every replay answers it; a continuation is
accepted once in every run. -/
theorem idempotent_iff (c : RuntimeConfig) (es : List Event) :
    EveryStep (step c)
      (fun w e => ((w.step c e).StoresOne ∧ (w.step c e).KeepsStored) ∧ w.ReplaysStored c e ∧
        (w.step c e).AcceptsOnce)
      {} es ↔
    EveryStep (step c) CompletesOnce {} es := by
  refine everyStep_iff_of_preserved (I := fun w => w.Stored ∧ w.Claimed) ?_ ?_ ?_
  · rintro w e ⟨stored, claimed⟩ once
    exact ⟨stored_step stored e once, claimed_step claimed e⟩
  · rintro w e ⟨stored, claimed⟩
    constructor
    · rintro ⟨⟨-, kept⟩, -, -⟩
      exact (keepsStored_iff stored e).mp kept
    · intro once
      have kept := (keepsStored_iff (c := c) stored e).mpr once
      exact ⟨⟨keepsStored_storesOne kept, kept⟩,
        keepsStored_replays (stored_keepsStored stored) e,
        claimed_acceptsOnce (claimed_step claimed e)⟩
  · refine ⟨?_, ?_, ?_⟩
    · rintro done ⟨⟩
    · rintro q call ⟨⟩
    · rintro q call ⟨⟩

/-- A turn completes, what follows its completion throws, and it is recorded as failed;
then the key comes again. -/
def failedAfterCompletion : List Event :=
  [.acceptTurn 1 ⟨5, "turn"⟩ 3,
    .proceed 1 true, .proceed 1 true, .proceed 1 true, .proceed 1 true, .proceed 1 true,
    .proceed 1 true,
    .finalize 1 (.completed 77 10),
    .finalize 1 (.failed (some 78) "runtime_media_job_failed" "session summary" 11),
    .acceptTurn 2 ⟨5, "turn"⟩ 3,
    .proceed 2 true, .proceed 2 true]

/-- The call that comes with the key again replays the failure. -/
theorem failed_after_completion :
    ¬ EveryStep (step ⟨60000, 86400000, 900000, by decide⟩)
      (fun w e => w.ReplaysStored ⟨60000, 86400000, 900000, by decide⟩ e) {}
      failedAfterCompletion := by
  decide

end World

end Persai.TurnRuntime
