import Persai.TurnRuntime.Acceptance

/-!
# What a command does to receipts, calls and leases

* `Proceeds`, `proceed_cases`: the ways a call goes on;
* `Changes`, `step_cases`: everything a step does, from which the rest is read off;
* `RowChange`, `step_row`: everything that happens to the receipt under a key;
* `step_call`, `step_callFrom`: a call keeps its key and session and only moves forward,
  and where a call comes from;
* `step_lease`: a session gets an owner only by a claim.
-/

namespace Persai.TurnRuntime

/-- How far a call has come. -/
def Phase.rank : Phase → Nat
  | .readMarker => 0
  | .findMarked _ => 1
  | .findExisting => 2
  | .claimLease => 3
  | .create => 4
  | .findConflict => 5
  | .reclaim => 6
  | .findReclaimed => 7
  | .writeMarker .. => 8
  | .clearInFlight _ => 9
  | .releaseGet _ => 10
  | .releaseDel _ => 11
  | .answered _ => 12

/-- The call has claimed its lease, or never will. -/
def Phase.pastClaim (p : Phase) : Prop := 4 ≤ p.rank

/-- The call has written its receipt, or never will. -/
def Phase.pastRow (p : Phase) : Prop := 7 ≤ p.rank

theorem Phase.pastRow.pastClaim {p : Phase} (past : p.pastRow) : p.pastClaim :=
  Nat.le_trans (by decide) past

/-- An answer without a receipt. -/
def Acceptance.noReceipt (a : Acceptance) : Prop := a = .busy ∨ a = .inFlight ∨ a = .thrown

/-- The next phase says nothing new about a receipt. -/
def Phase.plainNext (p p' : Phase) : Prop :=
  p.rank ≤ p'.rank ∧ p' ≠ .create ∧ p' ≠ .findReclaimed ∧
  ∀ a, p'.answer = some a → p.answer = some a ∨ a.noReceipt

/-- A call moves forward only, with the same key and session. -/
structure Call.Onward (call call' : Call) : Prop where
  key : call'.key = call.key
  session : call'.session = call.session
  rank : call.phase.rank ≤ call'.phase.rank

theorem Call.Onward.refl (call : Call) : call.Onward call := ⟨rfl, rfl, Nat.le_refl _⟩

theorem Call.Onward.pastClaim {call call' : Call} (onward : call.Onward call')
    (past : call.phase.pastClaim) : call'.phase.pastClaim := Nat.le_trans past onward.rank

theorem Call.Onward.pastRow {call call' : Call} (onward : call.Onward call')
    (past : call.phase.pastRow) : call'.phase.pastRow := Nat.le_trans past onward.rank

namespace World

/-- Only markers differ. -/
def SameLeases (r r' : Redis) : Prop := r'.now = r.now ∧ r'.sessionLease = r.sessionLease

/-- The ways in which a call goes on. -/
inductive Proceeds (c : RuntimeConfig) (w : World) (request : RequestId) (call : Call) :
    World → Prop where
  | plain (redis : Redis) (phase : Phase) (same : SameLeases w.redis redis)
      (next : call.phase.plainNext phase)
      (reclaims : phase = .reclaim → ¬ call.key.asyncContinuation) :
      Proceeds c w request call ((w.withRedis redis).setPhase request phase)
  | claims (redis : Redis) (phase : call.phase = .claimLease) (now : redis.now = w.redis.now)
      (free : w.redis.leaseOwner call.session = none)
      (lease : redis.sessionLease = w.redis.sessionLease.set call.session request
        (w.redis.now + c.sessionLeaseTtl)) :
      Proceeds c w request call ((w.withRedis redis).setPhase request .create)
  | creates (receipts : Receipts) (r : Receipt) (phase : call.phase = .create)
      (fresh : r = { requestId := request, runtimeSessionId := some call.session,
                     updatedAt := w.redis.now })
      (created : w.receipts.create call.key r = some receipts) :
      Proceeds c w request call
        ({ w with receipts }.setPhase request (.writeMarker request true (.accepted r)))
  | replays (phase : Phase) (r : Receipt) (rank : call.phase.rank ≤ phase.rank)
      (undecided : call.phase.answer = none) (answer : phase.answer = some (.replayed r))
      (row : w.receipts.get? call.key = some r) (replayable : replayable call.key r) :
      Proceeds c w request call (w.setPhase request phase)
  | reclaims (r : Receipt) (phase : call.phase = .reclaim)
      (row : w.receipts.get? call.key = some r) (orphaned : r.orphaned) :
      Proceeds c w request call
        ({ w with
          receipts := w.receipts.markReclaimed call.key request call.session
            w.redis.now }.setPhase request .findReclaimed)
  | accepts (key : TurnKey) (r : Receipt) (phase : call.phase = .findReclaimed)
      (row : w.receipts.findByRequest request = some (key, r)) :
      Proceeds c w request call
        (w.setPhase request (.writeMarker r.requestId true (.accepted r)))
  | releases (answer : Acceptance) (phase : call.phase = .releaseDel answer) :
      Proceeds c w request call
        ((w.withRedis (w.redis.delSessionLease call.session).2).setPhase request
          (.answered answer))
  | ended (answer : Acceptance) (phase : call.phase = .answered answer) :
      Proceeds c w request call w

theorem sameLeases_refl (r : Redis) : SameLeases r r := ⟨rfl, rfl⟩

section
variable {c : RuntimeConfig} {w : World} {request : RequestId} {call : Call}

/-- A move that touches no key and comes to no answer with a receipt. -/
theorem Proceeds.move (phase : Phase) (next : call.phase.plainNext phase)
    (reclaims : phase = .reclaim → ¬ call.key.asyncContinuation) :
    Proceeds c w request call (w.setPhase request phase) :=
  .plain w.redis phase (sameLeases_refl _) next reclaims

theorem plainNext_thrown {p : Phase} (undecided : p.answer = none) :
    p.plainNext (.answered .thrown) := by
  refine ⟨?_, by simp, by simp, ?_⟩
  · cases p <;> simp [Phase.rank]
  · intro a eq
    simp only [Phase.answer, Option.some.injEq] at eq
    exact .inr (.inr (.inr eq.symm))

theorem plainNext_cleanup {p : Phase} (rank : p.rank ≤ 9) :
    p.plainNext (.clearInFlight .thrown) := by
  refine ⟨rank, by simp, by simp, ?_⟩
  intro a eq
  simp only [Phase.answer, Option.some.injEq] at eq
  exact .inr (.inr (.inr eq.symm))

/-- A step within the part that decides nothing. -/
theorem plainNext_of_none {p p' : Phase} (rank : p.rank ≤ p'.rank) (undecided : p'.answer = none)
    (notCreate : p' ≠ .create) (notReclaimed : p' ≠ .findReclaimed) : p.plainNext p' :=
  ⟨rank, notCreate, notReclaimed, fun a eq => by rw [undecided] at eq; cases eq⟩

theorem plainNext_of_same {p p' : Phase} {a : Acceptance} (rank : p.rank ≤ p'.rank)
    (before : p.answer = some a) (after : p'.answer = some a) : p.plainNext p' := by
  refine ⟨rank, ?_, ?_, fun b eq => .inl (before.trans (after.symm.trans eq))⟩
  · rintro rfl; cases after
  · rintro rfl; cases after

/-- A command of a call does one of these. -/
theorem proceed_cases (c : RuntimeConfig) (w : World) (request : RequestId) (call : Call)
    (ok : Bool) : Proceeds c w request call (w.proceed c request call ok) := by
  unfold proceed
  cases phase : call.phase with
  | readMarker =>
    dsimp only
    split
    · exact .move _ (by rw [phase]; exact plainNext_of_none (by simp [Phase.rank]) rfl nofun nofun)
        nofun
    · exact .move _ (by rw [phase]; exact plainNext_of_none (by decide) rfl nofun nofun) nofun
  | findMarked marked =>
    have next : call.phase.plainNext .findExisting := by
      rw [phase]; exact plainNext_of_none (by simp [Phase.rank]) rfl nofun nofun
    dsimp only
    split
    · split
      · rename_i key r found
        split
        · rename_i mine
          obtain ⟨rfl, unorphaned⟩ := mine
          exact .replays _ r (by simp [phase, Phase.rank]) (by rw [phase]; rfl) rfl
            (KeyedTable.get?_of_find? found).1 (.inl unorphaned)
        · exact .move _ next nofun
      · exact .move _ next nofun
    · exact .move _ (by rw [phase]; exact plainNext_thrown rfl) nofun
  | findExisting =>
    have next : call.phase.plainNext .claimLease := by
      rw [phase]; exact plainNext_of_none (by decide) rfl nofun nofun
    dsimp only
    split
    · split
      · rename_i r row
        split
        · rename_i replayable
          exact .replays _ r (by simp [phase, Phase.rank]) (by rw [phase]; rfl) rfl row replayable
        · exact .move _ next nofun
      · exact .move _ next nofun
    · exact .move _ (by rw [phase]; exact plainNext_thrown rfl) nofun
  | claimLease =>
    dsimp only
    split
    · split
      · rename_i redis claimed
        have acquired := Redis.claimInFlight_acquired (congrArg Prod.fst claimed)
        rw [claimed] at acquired
        obtain ⟨free, -, rfl⟩ := acquired
        exact .claims _ phase rfl free rfl
      · refine .move _ ?_ nofun
        refine ⟨by simp [phase, Phase.rank], nofun, nofun, fun a eq => .inr (.inl ?_)⟩
        exact (Option.some.inj eq).symm
      · refine .move _ ?_ nofun
        refine ⟨by simp [phase, Phase.rank], nofun, nofun, fun a eq => .inr (.inr (.inl ?_))⟩
        exact (Option.some.inj eq).symm
    · exact .move _ (by rw [phase]; exact plainNext_thrown rfl) nofun
  | create =>
    dsimp only
    split
    · split
      · rename_i receipts created
        unfold Receipts.createAccepted at created
        split at created
        · cases created
        · exact .creates receipts _ phase rfl created
      · exact .move _ (by rw [phase]; exact plainNext_of_none (by decide) rfl nofun nofun) nofun
    · exact .move _ (by rw [phase]; exact plainNext_cleanup (by decide)) nofun
  | findConflict =>
    have throws : call.phase.plainNext (.clearInFlight .thrown) := by
      rw [phase]; exact plainNext_cleanup (by decide)
    dsimp only
    split
    · split
      · rename_i r row
        split
        · rename_i replayable
          exact .replays _ r (by simp [phase, Phase.rank]) (by rw [phase]; rfl) rfl row replayable
        · rename_i unreplayable
          refine .move _ (by rw [phase]; exact plainNext_of_none (by decide) rfl nofun nofun) ?_
          exact fun _ async => unreplayable (.inr async)
      · exact .move _ throws nofun
    · exact .move _ throws nofun
  | reclaim =>
    dsimp only
    split
    · rename_i reclaimable
      obtain ⟨-, orphaned⟩ := reclaimable
      cases row : w.receipts.get? call.key with
      | none => simp [row] at orphaned
      | some r => exact .reclaims r phase row (by simpa [row] using orphaned)
    · exact .move _ (by rw [phase]; exact plainNext_cleanup (by decide)) nofun
  | findReclaimed =>
    dsimp only
    split
    · rename_i key r found
      cases ok with
      | false => cases found
      | true => exact .accepts key r phase found
    · exact .move _ (by rw [phase]; exact plainNext_cleanup (by decide)) nofun
  | writeMarker marked claimed answer =>
    have next : call.phase.plainNext
        (if claimed then .clearInFlight answer else .answered answer) := by
      rw [phase]
      cases claimed <;> exact plainNext_of_same (by simp [Phase.rank]) rfl rfl
    dsimp only
    split
    · exact .plain _ _ ⟨rfl, rfl⟩ next (by cases claimed <;> exact nofun)
    · exact .move _ next (by cases claimed <;> exact nofun)
  | clearInFlight answer =>
    have next : call.phase.plainNext answer.afterClear ∧ answer.afterClear ≠ .reclaim := by
      rw [phase]
      cases answer <;> exact ⟨plainNext_of_same (by simp [Phase.rank, Acceptance.afterClear])
        rfl rfl, nofun⟩
    dsimp only
    split
    · exact .plain _ _ ⟨rfl, rfl⟩ next.1 fun eq => absurd eq next.2
    · exact .move _ next.1 fun eq => absurd eq next.2
  | releaseGet answer =>
    dsimp only
    split
    · exact .move _ (by rw [phase]; exact plainNext_of_same (by simp [Phase.rank]) rfl rfl) nofun
    · exact .move _ (by rw [phase]; exact plainNext_of_same (by simp [Phase.rank]) rfl rfl) nofun
  | releaseDel answer =>
    dsimp only
    split
    · exact .releases answer phase
    · exact .move _ (by rw [phase]; exact plainNext_of_same (by simp [Phase.rank]) rfl rfl) nofun
  | answered answer => exact .ended answer phase

end

/-- Everything a step does. -/
inductive Changes (c : RuntimeConfig) (w : World) : Event → World → Prop where
  | nothing (e : Event) : Changes c w e w
  | waits (ms : Nat) : Changes c w (.wait ms) (w.withRedis (w.redis.wait ms))
  | begins (request : RequestId) (key : TurnKey) (session : SessionId)
      (calls : KeyedTable RequestId Call)
      (created : w.calls.create request { key, session } = some calls) :
      Changes c w (.acceptTurn request key session) { w with calls }
  | proceeds (request : RequestId) (ok : Bool) (call : Call) (w' : World)
      (found : w.calls.get? request = some call) (goes : Proceeds c w request call w') :
      Changes c w (.proceed request ok) w'
  | renews (request : RequestId) (call : Call) (turn : w.turn request = some call) :
      Changes c w (.renew request)
        (w.withRedis (w.redis.renewSessionLease c call.session request).2)
  | finalizes (request : RequestId) (f : Finalization) (key : TurnKey) (r : Receipt)
      (turn : (w.turn request).isSome)
      (row : w.receipts.findByRequest request = some (key, r)) :
      Changes c w (.finalize request f)
        { w with
          receipts := w.receipts.markFinal request f w.redis.now
          closings := (request, f.status) :: w.closings
          completions :=
            match f with
            | .completed result _ => (key, request, result) :: w.completions
            | _ => w.completions }
  | readsOwn (request : RequestId) (call : Call) (turn : w.turn request = some call) :
      Changes c w (.releaseGet request)
        { w with calls := w.calls.update request fun call => { call with releasing := true } }
  | releases (request : RequestId) (call : Call)
      (turn : (w.turn request).filter (·.releasing) = some call) :
      Changes c w (.releaseDel request)
        { w with
          redis := (w.redis.delSessionLease call.session).2
          calls := w.calls.update request fun call => { call with releasing := false } }
  | selects (i : Nat) (key : TurnKey) (r : Receipt) (candidates : KeyedTable Nat OrphanCandidate)
      (row : w.receipts.get? key = some r)
      (created : w.candidates.create i ⟨key, r.requestId, r.runtimeSessionId, w.redis.now,
        .readInFlight⟩ = some candidates) :
      Changes c w (.selectOrphan i key) { w with candidates }
  | checks (i : Nat) (o : OrphanCandidate) (phase : CandidatePhase) (redis : Redis)
      (found : w.candidates.get? i = some o) (same : SameLeases w.redis redis)
      (free : phase = .update → ∀ session ∈ o.runtimeSessionId,
        w.redis.leaseOwner session = none) :
      Changes c w (.reconcile i) ((w.withRedis redis).setCandidate i phase)
  | reaps (i : Nat) (o : OrphanCandidate) (key : TurnKey) (r : Receipt)
      (found : w.candidates.get? i = some o) (phase : o.phase = .update)
      (row : w.receipts.get? key = some r) (mine : r.requestId = o.requestId)
      (accepted : r.status = .accepted) :
      Changes c w (.reconcile i)
        ({ w with
          receipts := w.receipts.markOrphan o.requestId o.now w.redis.now
          closings := (o.requestId, .failed) :: w.closings }.setCandidate i .clearInFlight)

section
variable {c : RuntimeConfig} {w : World}

/-- A finalization either finds a turn and its receipt, or does nothing. -/
theorem finalize_cases (c : RuntimeConfig) (w : World) (request : RequestId) (f : Finalization) :
    ((w.turn request).isSome ∧ ∃ key r, w.receipts.findByRequest request = some (key, r) ∧
      w.step c (.finalize request f) =
        { w with
          receipts := w.receipts.markFinal request f w.redis.now
          closings := (request, f.status) :: w.closings
          completions :=
            match f with
            | .completed result _ => (key, request, result) :: w.completions
            | _ => w.completions }) ∨
    (((w.turn request).isSome → w.receipts.findByRequest request = none) ∧
      w.step c (.finalize request f) = w) := by
  simp only [step, finalize]
  split
  · rename_i turn
    cases found : w.receipts.findByRequest request with
    | none => exact .inr ⟨fun _ => rfl, rfl⟩
    | some r => exact .inl ⟨turn, r.1, r.2, rfl, rfl⟩
  · rename_i turn
    exact .inr ⟨fun turn' => absurd turn' turn, rfl⟩

theorem reconcile_changes {i : Nat} {o : OrphanCandidate} (found : w.candidates.get? i = some o) :
    Changes c w (.reconcile i) (w.reconcile i o) := by
  unfold reconcile
  split
  · apply Changes.checks i o _ w.redis found (sameLeases_refl _)
    intro update
    split at update <;> cases update
  · apply Changes.checks i o _ w.redis found (sameLeases_refl _)
    intro update session at'
    split at update
    · cases update
    · rename_i unleased
      simpa [Option.mem_def.mp at', Redis.hasSessionLease] using unleased
  · rename_i phase
    split
    · rename_i some'
      obtain ⟨⟨key, r⟩, row⟩ := Option.isSome_iff_exists.mp some'
      obtain ⟨row, holds⟩ := KeyedTable.get?_of_find? row
      simp only [decide_eq_true_eq] at holds
      exact .reaps i o key r found phase row holds.1 holds.2
    · exact .checks i o .ended w.redis found (sameLeases_refl _) nofun
  · exact .checks i o .ended _ found ⟨rfl, rfl⟩ nofun
  · exact .nothing _

/-- A step does one of these. -/
theorem step_cases (c : RuntimeConfig) (w : World) (e : Event) : Changes c w e (w.step c e) := by
  cases e with
  | wait ms => exact .waits ms
  | acceptTurn request key session =>
    simp only [step]
    cases created : w.calls.create request { key, session } with
    | none => exact .nothing _
    | some calls => exact .begins request key session calls created
  | proceed request ok =>
    simp only [step]
    split
    · rename_i call found
      exact .proceeds request ok call _ found (proceed_cases c w request call ok)
    · exact .nothing _
  | renew request =>
    simp only [step]
    split
    · rename_i call turn
      exact .renews request call turn
    · exact .nothing _
  | finalize request f =>
    obtain ⟨turn, key, r, row, after⟩ | ⟨-, same⟩ := finalize_cases c w request f
    · rw [after]
      exact .finalizes request f key r turn row
    · rw [same]
      exact .nothing _
  | releaseGet request =>
    simp only [step]
    split
    · rename_i call turn
      split
      · exact .readsOwn request call turn
      · exact .nothing _
    · exact .nothing _
  | releaseDel request =>
    simp only [step]
    split
    · rename_i call turn
      exact .releases request call turn
    · exact .nothing _
  | selectOrphan i key =>
    simp only [step]
    split
    · rename_i r selected
      obtain ⟨row, -⟩ := Option.filter_eq_some_iff.mp selected
      cases created : w.candidates.create i
          ⟨key, r.requestId, r.runtimeSessionId, w.redis.now, .readInFlight⟩ with
      | none => exact .nothing _
      | some candidates => exact .selects i key r candidates row created
    · exact .nothing _
  | reconcile i =>
    simp only [step]
    split
    · rename_i o found
      exact reconcile_changes found
    · exact .nothing _

end

/-- The call of a request has written its receipt, or never will. -/
def PastRow (w : World) (request : RequestId) : Prop :=
  ∃ call, w.calls.get? request = some call ∧ call.phase.pastRow

/-- Everything that happens to the receipt under a key. -/
inductive RowChange (w w' : World) :
    Event → TurnKey → Option Receipt → Option Receipt → Prop where
  | kept (e : Event) (k : TurnKey) (r : Option Receipt) : RowChange w w' e k r r
  | created (request : RequestId) (ok : Bool) (call : Call) (r : Receipt)
      (found : w.calls.get? request = some call) (phase : call.phase = .create)
      (fresh : r = { requestId := request, runtimeSessionId := some call.session,
                     updatedAt := w.redis.now })
      (past : w'.PastRow request) :
      RowChange w w' (.proceed request ok) call.key none (some r)
  | reclaimed (request : RequestId) (ok : Bool) (call : Call) (r : Receipt)
      (found : w.calls.get? request = some call) (phase : call.phase = .reclaim)
      (orphaned : r.orphaned) (past : w'.PastRow request) :
      RowChange w w' (.proceed request ok) call.key (some r)
        (some (r.reclaim request call.session w.redis.now))
  | finalized (request : RequestId) (f : Finalization) (k : TurnKey) (r : Receipt)
      (turn : (w.turn request).isSome) (mine : r.requestId = request) :
      RowChange w w' (.finalize request f) k (some r) (some (r.finalize w.redis.now f))
  | reconciled (i : Nat) (o : OrphanCandidate) (k : TurnKey) (r : Receipt)
      (found : w.candidates.get? i = some o) (phase : o.phase = .update)
      (mine : r.requestId = o.requestId) (accepted : r.status = .accepted) :
      RowChange w w' (.reconcile i) k (some r) (some (r.reconcile o.now w.redis.now))

section
variable {c : RuntimeConfig} {w : World} {k : TurnKey}

theorem get?_setPhase (w : World) (request q : RequestId) (phase : Phase) :
    (w.setPhase request phase).calls.get? q =
      if q = request then (w.calls.get? q).map fun call => { call with phase }
      else w.calls.get? q := KeyedTable.get?_update ..

theorem pastRow_setPhase (w : World) {request : RequestId} {call : Call} {phase : Phase}
    (found : w.calls.get? request = some call) (past : phase.pastRow) :
    (w.setPhase request phase).PastRow request :=
  ⟨{ call with phase }, by rw [get?_setPhase, if_pos rfl, found]; rfl, past⟩

theorem proceeds_row {request : RequestId} {call : Call} {w' : World} (ok : Bool)
    (found : w.calls.get? request = some call) (proceeds : Proceeds c w request call w') :
    RowChange w w' (.proceed request ok) k (w.receipts.get? k) (w'.receipts.get? k) := by
  cases proceeds with
  | creates receipts r phase fresh created =>
    obtain ⟨absent, -⟩ := KeyedTable.create_eq_some_iff.mp created
    have past : Phase.pastRow (.writeMarker request true (.accepted r)) := by
      simp [Phase.pastRow, Phase.rank]
    have past := pastRow_setPhase { w with receipts } found past
    simp only [setPhase, KeyedTable.get?_create created]
    split
    · rename_i same
      rw [same, absent]
      exact .created request ok call r found phase fresh past
    · exact .kept ..
  | reclaims r phase row orphaned =>
    have past : Phase.pastRow .findReclaimed := by simp [Phase.pastRow, Phase.rank]
    have past := pastRow_setPhase { w with
      receipts := w.receipts.markReclaimed call.key request call.session w.redis.now } found past
    simp only [setPhase, Receipts.markReclaimed, KeyedTable.get?_updateWhere] at past ⊢
    by_cases same : k = call.key
    · subst same
      simpa [row, orphaned] using
        RowChange.reclaimed request ok call r found phase orphaned past
    · have kept : (w.receipts.get? k).map (fun r =>
          if decide (k = call.key ∧ r.orphaned) = true then
            r.reclaim request call.session w.redis.now
          else r) = w.receipts.get? k := by
        simp [same]
      rw [kept]
      exact .kept ..
  | _ => exact .kept ..

/-- Every step changes the receipt under a key in one of these ways. -/
theorem step_row (c : RuntimeConfig) (w : World) (e : Event) (k : TurnKey) :
    RowChange w (w.step c e) e k (w.receipts.get? k) ((w.step c e).receipts.get? k) := by
  have changes := step_cases c w e
  generalize w.step c e = w' at changes
  cases changes with
  | proceeds request ok call w' found goes => exact proceeds_row ok found goes
  | finalizes request f _ _ turn =>
    simp only [Receipts.markFinal, KeyedTable.get?_updateWhere]
    cases row : w.receipts.get? k with
    | none => exact .kept ..
    | some r =>
      by_cases mine : r.requestId = request
      · simpa [mine] using RowChange.finalized request f k r turn mine
      · simpa [mine] using RowChange.kept (.finalize request f) k (some r)
  | reaps i o _ _ found phase =>
    simp only [setCandidate, Receipts.markOrphan, KeyedTable.get?_updateWhere]
    cases row : w.receipts.get? k with
    | none => exact .kept ..
    | some r =>
      by_cases mine : r.requestId = o.requestId ∧ r.status = .accepted
      · simpa [mine] using RowChange.reconciled i o k r found phase mine.1 mine.2
      · simpa [mine] using RowChange.kept (.reconcile i) k (some r)
  | _ => exact .kept ..

/-- How a command of a call changes the calls: it sets its own phase. -/
theorem proceeds_phase {request : RequestId} {call : Call} {w' : World}
    (proceeds : Proceeds c w request call w') :
    ∃ phase, call.phase.rank ≤ phase.rank ∧
      w'.calls = w.calls.update request (fun call => { call with phase }) ∨ w' = w := by
  cases proceeds with
  | plain redis phase _ next => exact ⟨phase, .inl ⟨next.1, rfl⟩⟩
  | claims redis phase => exact ⟨.create, .inl ⟨by simp [phase, Phase.rank], rfl⟩⟩
  | creates _ r phase => exact ⟨_, .inl ⟨by simp [phase, Phase.rank], rfl⟩⟩
  | replays phase r rank => exact ⟨phase, .inl ⟨rank, rfl⟩⟩
  | reclaims _ phase => exact ⟨_, .inl ⟨by simp [phase, Phase.rank], rfl⟩⟩
  | accepts _ r phase => exact ⟨_, .inl ⟨by simp [phase, Phase.rank], rfl⟩⟩
  | releases answer phase => exact ⟨_, .inl ⟨by simp [phase, Phase.rank], rfl⟩⟩
  | ended => exact ⟨call.phase, .inr rfl⟩

theorem update_onward {request q : RequestId} {call : Call} {f : Call → Call}
    (found : w.calls.get? q = some call) (onward : q = request → call.Onward (f call)) :
    ∃ call', (w.calls.update request f).get? q = some call' ∧ call.Onward call' := by
  rw [KeyedTable.get?_update, found]
  by_cases same : q = request
  · exact ⟨f call, by simp [same], onward same⟩
  · exact ⟨call, by simp [same], .refl call⟩

/-- A call that has begun goes on to exist, and moves forward only. -/
theorem step_call {q : RequestId} {call : Call} (found : w.calls.get? q = some call) (e : Event) :
    ∃ call', (w.step c e).calls.get? q = some call' ∧ call.Onward call' := by
  have changes := step_cases c w e
  generalize w.step c e = w' at changes
  cases changes with
  | begins request key session calls created =>
    obtain ⟨absent, -⟩ := KeyedTable.create_eq_some_iff.mp created
    have other : q ≠ request := by rintro rfl; simp [found] at absent
    exact ⟨call, by simpa [KeyedTable.get?_create created, other] using found, .refl call⟩
  | proceeds request ok own w' at' goes =>
    obtain ⟨phase, ⟨rank, calls⟩ | same⟩ := proceeds_phase goes
    · rw [calls]
      apply update_onward found
      intro same
      subst same
      obtain rfl := Option.some.inj (at'.symm.trans found)
      exact ⟨rfl, rfl, rank⟩
    · rw [same]
      exact ⟨call, found, .refl call⟩
  | readsOwn | releases => exact update_onward found fun _ => ⟨rfl, rfl, Nat.le_refl _⟩
  | _ => exact ⟨call, found, .refl call⟩

/-- Where a call comes from: it was there with the same key and phase, it has just begun,
or it went on. -/
inductive CallFrom (c : RuntimeConfig) (w : World) (q : RequestId) (call' : Call) (w' : World) :
    Prop where
  | kept (call : Call) (found : w.calls.get? q = some call) (key : call'.key = call.key)
      (phase : call'.phase = call.phase)
  | begun (phase : call'.phase = .readMarker)
  | proceeded (call : Call) (found : w.calls.get? q = some call) (key : call'.key = call.key)
      (proceeds : Proceeds c w q call w')

theorem CallFrom.same {q : RequestId} {call : Call} {w' : World}
    (found : w.calls.get? q = some call) : CallFrom c w q call w' := .kept call found rfl rfl

theorem callFrom_releasing {q request : RequestId} {call' : Call} {w' : World} {releasing : Bool}
    (found' : (w.calls.update request fun call => { call with releasing }).get? q = some call') :
    CallFrom c w q call' w' := by
  rw [KeyedTable.get?_update] at found'
  split at found'
  · obtain ⟨call, found, rfl⟩ := Option.map_eq_some_iff.mp found'
    exact .kept call found rfl rfl
  · exact .same found'

theorem step_callFrom {q : RequestId} {call' : Call} (e : Event)
    (found' : (w.step c e).calls.get? q = some call') : CallFrom c w q call' (w.step c e) := by
  have changes := step_cases c w e
  generalize w.step c e = w' at changes found' ⊢
  cases changes with
  | begins request key session calls created =>
    simp only [KeyedTable.get?_create created] at found'
    split at found'
    · obtain rfl := Option.some.inj found'
      exact .begun rfl
    · exact .same found'
  | proceeds request ok call w' found goes =>
    obtain ⟨phase, ⟨rank, calls⟩ | same⟩ := proceeds_phase goes
    · rw [calls, KeyedTable.get?_update] at found'
      split at found'
      · rename_i own
        subst own
        rw [found] at found'
        obtain rfl := Option.some.inj found'
        exact .proceeded call found rfl goes
      · exact .same found'
    · rw [same] at found'
      exact .same found'
  | readsOwn | releases => exact callFrom_releasing found'
  | _ => exact .same found'

/-- The owner of a session was its owner before, or has just claimed it. -/
def LeaseKept (w w' : World) (session : SessionId) (owner : OwnerToken) : Prop :=
  w.redis.leaseOwner session = some owner ∨
  ∃ call, w.calls.get? owner = some call ∧ call.phase = .claimLease ∧ call.session = session ∧
    ∃ call', w'.calls.get? owner = some call' ∧ call'.phase = .create

theorem leaseOwner_of_same {r r' : Redis} (same : SameLeases r r') (session : SessionId) :
    r'.leaseOwner session = r.leaseOwner session := by
  rw [Redis.leaseOwner, Redis.leaseOwner, same.1, same.2]

theorem leaseOwner_del {r : Redis} {session other : SessionId} {owner : OwnerToken}
    (owned : (r.delSessionLease session).2.leaseOwner other = some owner) :
    r.leaseOwner other = some owner := by
  simp only [Redis.delSessionLease, Redis.leaseOwner, Expiring.get_del] at owned
  split at owned
  · cases owned
  · exact owned

theorem proceeds_lease {request : RequestId} {call : Call} {w' : World}
    (found : w.calls.get? request = some call) (proceeds : Proceeds c w request call w')
    {session : SessionId} {owner : OwnerToken}
    (owned : w'.redis.leaseOwner session = some owner) : LeaseKept w w' session owner := by
  cases proceeds with
  | plain redis phase same => exact .inl ((leaseOwner_of_same same session).symm.trans owned)
  | claims redis phase now free lease =>
    have set := Redis.leaseOwner_set c w.redis call.session session request
    have owned : redis.leaseOwner session = some owner := owned
    rw [Redis.leaseOwner, now, lease] at owned
    rw [Redis.leaseOwner] at set
    rw [set] at owned
    split at owned
    · rename_i same
      obtain rfl := Option.some.inj owned
      refine .inr ⟨call, found, phase, same.symm, { call with phase := .create }, ?_, rfl⟩
      rw [get?_setPhase, if_pos rfl]
      simp [withRedis, found]
    · exact .inl owned
  | releases => exact .inl (leaseOwner_del owned)
  | _ => exact .inl owned

/-- A lease is renewed for its owner only. -/
theorem leaseOwner_renew {r : Redis} {session other : SessionId} {request owner : OwnerToken}
    (owned : (r.renewSessionLease c session request).2.leaseOwner other = some owner) :
    r.leaseOwner other = some owner := by
  unfold Redis.renewSessionLease at owned
  split at owned
  · rename_i mine
    have set := Redis.leaseOwner_set c r session other request
    rw [set] at owned
    split at owned
    · rename_i same
      rw [← same] at mine
      exact mine.trans owned
    · exact owned
  · exact owned

/-- A session gets a new owner only by the claim of a call. -/
theorem step_lease {session : SessionId} {owner : OwnerToken} (e : Event)
    (owned : (w.step c e).redis.leaseOwner session = some owner) :
    LeaseKept w (w.step c e) session owner := by
  have changes := step_cases c w e
  generalize w.step c e = w' at changes owned ⊢
  cases changes with
  | waits ms => exact .inl (Expiring.get_of_later (Nat.le_add_right ..) owned)
  | proceeds request ok call w' found goes => exact proceeds_lease found goes owned
  | renews => exact .inl (leaseOwner_renew owned)
  | releases => exact .inl (leaseOwner_del owned)
  | checks i o phase redis found same =>
    exact .inl ((leaseOwner_of_same same session).symm.trans owned)
  | _ => exact .inl owned

/-- A call leaves the reconciler and the accounts of ends alone. -/
theorem Proceeds.keeps {request : RequestId} {call : Call} {w' : World}
    (proceeds : Proceeds c w request call w') :
    w'.candidates = w.candidates ∧ w'.completions = w.completions ∧ w'.closings = w.closings := by
  cases proceeds <;> exact ⟨rfl, rfl, rfl⟩

/-- Where a candidate of the reconciler comes from: it was one before, and reached its
update only past a session without a lease; or its receipt has just been selected. -/
inductive CandidateFrom (w : World) (o' : OrphanCandidate) : Prop where
  | before (i : Nat) (o : OrphanCandidate) (found : w.candidates.get? i = some o)
      (request : o'.requestId = o.requestId) (session : o'.runtimeSessionId = o.runtimeSessionId)
      (checked : o'.phase = .update → o.phase = .update ∨
        ∀ s ∈ o.runtimeSessionId, w.redis.leaseOwner s = none)
  | selected (k : TurnKey) (r : Receipt) (row : w.receipts.get? k = some r)
      (request : o'.requestId = r.requestId) (session : o'.runtimeSessionId = r.runtimeSessionId)
      (unchecked : o'.phase ≠ .update)

theorem CandidateFrom.kept {i : Nat} {o : OrphanCandidate}
    (found : w.candidates.get? i = some o) : CandidateFrom w o :=
  .before i o found rfl rfl .inl

theorem candidates_setCandidate {i j : Nat} {o o' : OrphanCandidate} (phase : CandidatePhase)
    (own : w.candidates.get? j = some o)
    (checked : phase = .update → o.phase = .update ∨
      ∀ s ∈ o.runtimeSessionId, w.redis.leaseOwner s = none)
    (found : (w.candidates.update j fun o => { o with phase }).get? i = some o') :
    CandidateFrom w o' := by
  rw [KeyedTable.get?_update] at found
  split at found
  · rename_i same
    subst same
    simp only [own, Option.map_some, Option.some.injEq] at found
    subst found
    exact .before i o own rfl rfl checked
  · exact .kept found

theorem step_candidate {i : Nat} {o' : OrphanCandidate} (e : Event)
    (found : (w.step c e).candidates.get? i = some o') : CandidateFrom w o' := by
  have changes := step_cases c w e
  generalize w.step c e = w' at changes found
  cases changes with
  | proceeds request ok call w' _ goes =>
    rw [goes.keeps.1] at found
    exact .kept found
  | selects j key r candidates row created =>
    simp only [KeyedTable.get?_create created] at found
    split at found
    · obtain rfl := Option.some.inj found
      exact .selected key r row rfl rfl nofun
    · exact .kept found
  | checks j o phase redis own _ free =>
    exact candidates_setCandidate phase own (fun update => .inr (free update)) found
  | reaps j o key r own => exact candidates_setCandidate .clearInFlight own nofun found
  | _ => exact .kept found

/-- A command of the reconciler either fails an accepted receipt or writes no row. -/
theorem reconcile_cases (c : RuntimeConfig) (w : World) (i : Nat) :
    (∃ o k r, w.candidates.get? i = some o ∧ o.phase = .update ∧
      w.receipts.get? k = some r ∧ r.requestId = o.requestId ∧ r.status = .accepted ∧
      (w.step c (.reconcile i)).receipts = w.receipts.markOrphan o.requestId o.now w.redis.now ∧
      (w.step c (.reconcile i)).closings = (o.requestId, .failed) :: w.closings) ∨
    ((w.step c (.reconcile i)).receipts = w.receipts ∧
      (w.step c (.reconcile i)).closings = w.closings) := by
  have changes := step_cases c w (.reconcile i)
  generalize w.step c (.reconcile i) = w' at changes
  cases changes with
  | reaps i o k r found phase row mine accepted =>
    exact .inl ⟨o, k, r, found, phase, row, mine, accepted, rfl, rfl⟩
  | nothing | checks => exact .inr ⟨rfl, rfl⟩

/-- Every other command keeps no account of an end. -/
theorem step_logs (e : Event) (finalize : ∀ request f, e ≠ .finalize request f) :
    (w.step c e).completions = w.completions ∧
    ((∀ i, e ≠ .reconcile i) → (w.step c e).closings = w.closings) := by
  have changes := step_cases c w e
  generalize w.step c e = w' at changes
  cases changes with
  | finalizes request f => exact absurd rfl (finalize request f)
  | proceeds request ok call w' _ goes =>
    obtain ⟨-, completions, closings⟩ := goes.keeps
    exact ⟨completions, fun _ => closings⟩
  | reaps i => exact ⟨rfl, fun other => absurd rfl (other i)⟩
  | _ => exact ⟨rfl, fun _ => rfl⟩

end

end World

end Persai.TurnRuntime
