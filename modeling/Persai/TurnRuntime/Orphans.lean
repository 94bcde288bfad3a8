import Persai.Runs
import Persai.TurnRuntime.Steps

/-!
# Live turns are not reaped, and ends are final

The reconciler of orphans looks for a lease and then fails the receipt; a
finalization writes the receipt of its request whatever its status.

* `coherent_step`: every lease, receipt and candidate belongs to a call that has
  claimed its lease, on the session of that call;
* `coherent_reaps`: the reconciler fails no receipt whose owner holds its lease;
* `reclaim_reopens`: only a reclaim for a new request opens a receipt again;
* `terminal_final_iff`: a terminal status stays, in exactly those runs in which no turn
  records an end different from one its receipt already has on record;
* `late_owner`: a turn that ends after it was reaped.
-/

namespace Persai.TurnRuntime

open Runs

def Event.isFinalize : Event → Bool
  | .finalize .. => true
  | _ => false

theorem Finalization.status_terminal (f : Finalization) : f.status ≠ .accepted := by
  cases f <;> exact nofun

namespace World

/-- Leases, receipts and candidates belong to calls that have claimed. -/
structure Coherent (w : World) : Prop where
  lease : ∀ session q, w.redis.leaseOwner session = some q →
    ∃ call, w.calls.get? q = some call ∧ call.session = session ∧ call.phase.pastClaim
  row : ∀ k r, w.receipts.get? k = some r →
    ∃ call, w.calls.get? r.requestId = some call ∧ r.runtimeSessionId = some call.session ∧
      call.phase.pastRow
  candidate : ∀ i o, w.candidates.get? i = some o →
    ∃ call, w.calls.get? o.requestId = some call ∧ o.runtimeSessionId = some call.session ∧
      call.phase.pastClaim ∧
      (o.phase = .update → w.redis.leaseOwner call.session ≠ some o.requestId)

section
variable {c : RuntimeConfig} {w : World}

/-- A call past its claim gets no lease that it did not have. -/
theorem leaseOwner_of_past {q : RequestId} {call : Call} (found : w.calls.get? q = some call)
    (past : call.phase.pastClaim) {session : SessionId} (e : Event)
    (owned : (w.step c e).redis.leaseOwner session = some q) :
    w.redis.leaseOwner session = some q := by
  obtain kept | ⟨call', found', phase, -⟩ := step_lease e owned
  · exact kept
  · obtain rfl := Option.some.inj (found.symm.trans found')
    simp [Phase.pastClaim, phase, Phase.rank] at past

theorem coherent_lease (coherent : w.Coherent) (e : Event) {session : SessionId} {q : RequestId}
    (owned : (w.step c e).redis.leaseOwner session = some q) :
    ∃ call, (w.step c e).calls.get? q = some call ∧ call.session = session ∧
      call.phase.pastClaim := by
  obtain kept | ⟨call, found, -, same, call', found', phase'⟩ := step_lease e owned
  · obtain ⟨call, found, same, past⟩ := coherent.lease session q kept
    obtain ⟨call', found', onward⟩ := step_call (c := c) found e
    exact ⟨call', found', onward.session.trans same, onward.pastClaim past⟩
  · obtain ⟨call'', found'', onward⟩ := step_call (c := c) found e
    obtain rfl := Option.some.inj (found'.symm.trans found'')
    exact ⟨call', found', onward.session.trans same, by simp [Phase.pastClaim, phase', Phase.rank]⟩

/-- The call of a row that was there before. -/
theorem coherent_row_before (coherent : w.Coherent) (e : Event) {k : TurnKey} {r : Receipt}
    (row : w.receipts.get? k = some r) :
    ∃ call, (w.step c e).calls.get? r.requestId = some call ∧
      r.runtimeSessionId = some call.session ∧ call.phase.pastRow := by
  obtain ⟨call, found, session, past⟩ := coherent.row k r row
  obtain ⟨call', found', onward⟩ := step_call (c := c) found e
  exact ⟨call', found', by rw [session, onward.session], onward.pastRow past⟩

/-- The call that has written a row of its own. -/
theorem pastRow_session {e : Event} {request : RequestId} {call : Call}
    (found : w.calls.get? request = some call) (past : (w.step c e).PastRow request) :
    ∃ call', (w.step c e).calls.get? request = some call' ∧
      some call.session = some call'.session ∧ call'.phase.pastRow := by
  obtain ⟨call', found', past⟩ := past
  obtain ⟨call'', found'', onward⟩ := step_call (c := c) found e
  obtain rfl := Option.some.inj (found'.symm.trans found'')
  exact ⟨call', found', by rw [onward.session], past⟩

theorem coherent_row (coherent : w.Coherent) (e : Event) {k : TurnKey} {r' : Receipt}
    (row' : (w.step c e).receipts.get? k = some r') :
    ∃ call, (w.step c e).calls.get? r'.requestId = some call ∧
      r'.runtimeSessionId = some call.session ∧ call.phase.pastRow := by
  have change := step_row c w e k
  rw [row'] at change
  generalize row : w.receipts.get? k = before at change
  cases change with
  | kept => exact coherent_row_before coherent e row
  | created request ok call r found phase fresh past =>
    subst fresh
    exact pastRow_session found past
  | reclaimed request ok call r found phase orphaned past => exact pastRow_session found past
  | finalized request f k r turn mine =>
    obtain ⟨call, found, session, past⟩ := coherent_row_before (c := c) coherent
      (.finalize request f) row
    exact ⟨call, by cases f <;> exact found, by cases f <;> exact session, past⟩
  | reconciled i o k r =>
    obtain ⟨call, found, session, past⟩ := coherent_row_before (c := c) coherent
      (.reconcile i) row
    exact ⟨call, found, session, past⟩

theorem coherent_candidate (coherent : w.Coherent) (e : Event) {i : Nat} {o' : OrphanCandidate}
    (found' : (w.step c e).candidates.get? i = some o') :
    ∃ call, (w.step c e).calls.get? o'.requestId = some call ∧
      o'.runtimeSessionId = some call.session ∧ call.phase.pastClaim ∧
      (o'.phase = .update →
        (w.step c e).redis.leaseOwner call.session ≠ some o'.requestId) := by
  cases step_candidate e found' with
  | before i o found request session checked =>
    obtain ⟨call, own, at', past, unleased⟩ := coherent.candidate i o found
    obtain ⟨call', own', onward⟩ := step_call (c := c) own e
    refine ⟨call', by rw [request]; exact own', by rw [session, at', onward.session],
      onward.pastClaim past, fun update leased => ?_⟩
    rw [onward.session, request] at leased
    have leased := leaseOwner_of_past own past e leased
    obtain updating | free := checked update
    · exact unleased updating leased
    · rw [free call.session at'] at leased; cases leased
  | selected k r row request session unchecked =>
    obtain ⟨call, own, at', past⟩ := coherent_row_before (c := c) coherent e row
    exact ⟨call, by rw [request]; exact own, by rw [session]; exact at', past.pastClaim,
      fun update => absurd update unchecked⟩

/-- No command of any party breaks the coherence. -/
theorem coherent_step (coherent : w.Coherent) (e : Event) : (w.step c e).Coherent where
  lease _ _ owned := coherent_lease coherent e owned
  row _ _ row' := coherent_row coherent e row'
  candidate _ _ found' := coherent_candidate coherent e found'

theorem coherent_start : Coherent {} where
  lease _ _ owned := by cases owned
  row _ _ row := by cases row
  candidate _ _ found := by cases found

end

/-- The owner of a receipt, its request, holds the lease of its session. -/
def ownerLeased (w : World) (r : Receipt) : Prop :=
  ∃ session ∈ r.runtimeSessionId, w.redis.leaseOwner session = some r.requestId

instance (w : World) (r : Receipt) : Decidable (w.ownerLeased r) :=
  inferInstanceAs (Decidable (∃ session ∈ r.runtimeSessionId, _))

/-- The event is the reclaim of the receipt under `k` for the request `q`. -/
def Reclaims (w : World) (k : TurnKey) (q : RequestId) (e : Event) : Prop :=
  (e = .proceed q true ∨ e = .proceed q false) ∧
  ∃ call ∈ w.calls.get? q, call.key = k ∧ call.phase = .reclaim

/-- What the step does to the status of each receipt that is there. -/
def EachStatus (c : RuntimeConfig) (w : World) (e : Event)
    (change : TurnKey → Receipt → Receipt → Prop) : Prop :=
  ∀ p ∈ w.receipts.rows, ∀ r' ∈ (w.step c e).receipts.get? p.1, change p.1 p.2 r'

/-- The reconciler changes the status of no receipt whose owner holds its lease. -/
def ReapsOrphans (c : RuntimeConfig) (w : World) (e : Event) : Prop :=
  ∀ i, e = .reconcile i → w.EachStatus c e fun _ r r' => r'.status ≠ r.status → ¬ w.ownerLeased r

/-- A terminal receipt is opened again only by a reclaim for a new request. -/
def ReclaimReopens (c : RuntimeConfig) (w : World) (e : Event) : Prop :=
  w.EachStatus c e fun k r r' =>
    r.status ≠ .accepted → r'.status = .accepted → w.Reclaims k r'.requestId e

/-- No finalization changes the status of a terminal receipt. -/
def FinalStays (c : RuntimeConfig) (w : World) (e : Event) : Prop :=
  e.isFinalize → w.EachStatus c e fun _ r r' => r.status ≠ .accepted → r'.status = r.status

instance (c : RuntimeConfig) (w : World) (e : Event) : Decidable (w.FinalStays c e) :=
  inferInstanceAs (Decidable (_ → ∀ p ∈ w.receipts.rows, ∀ r' ∈ _, _))

/-- A turn that still has its receipt records the end that is on record for it, if one
is: by the reconciler, or by itself. -/
def ClosesOnce (w : World) : Event → Prop
  | .finalize request f =>
    (w.turn request).isSome → (w.receipts.findByRequest request).isSome →
      ∀ closing ∈ w.closings, closing.1 = request → closing.2 = f.status
  | _ => True

instance (w : World) (e : Event) : Decidable (w.ClosesOnce e) :=
  match e with
  | .finalize _ f => inferInstanceAs (Decidable (_ → _ →
      ∀ closing ∈ w.closings, _ → closing.2 = f.status))
  | .wait .. | .acceptTurn .. | .proceed .. | .renew .. | .releaseGet .. | .releaseDel ..
  | .selectOrphan .. | .reconcile .. => inferInstanceAs (Decidable True)

/-- The record of ends agrees with the receipts. -/
structure Recorded (w : World) : Prop where
  terminal : ∀ k r, w.receipts.get? k = some r → r.status ≠ .accepted →
    (r.requestId, r.status) ∈ w.closings
  agree : ∀ k r s, w.receipts.get? k = some r → (r.requestId, s) ∈ w.closings → r.status = s
  past : ∀ q s, (q, s) ∈ w.closings → s ≠ .accepted ∧ w.PastRow q

section
variable {c : RuntimeConfig} {w : World}

theorem finalize_status (r : Receipt) (now : Nat) (f : Finalization) :
    (r.finalize now f).status = f.status := by cases f <;> rfl

theorem finalize_requestId (r : Receipt) (now : Nat) (f : Finalization) :
    (r.finalize now f).requestId = r.requestId := by cases f <;> rfl

theorem pastRow_step {q : RequestId} (past : w.PastRow q) (e : Event) :
    (w.step c e).PastRow q := by
  obtain ⟨call, found, past⟩ := past
  obtain ⟨call', found', onward⟩ := step_call (c := c) found e
  exact ⟨call', found', onward.pastRow past⟩

/-- The reconciler reaps only receipts without a live owner. -/
theorem coherent_reaps (coherent : w.Coherent) (e : Event) : w.ReapsOrphans c e := by
  rintro i rfl ⟨k, r⟩ member r' row' changed ⟨session, at', owned⟩
  have row := KeyedTable.get?_eq_some_iff.mpr member
  have change := step_row c w (.reconcile i) k
  rw [row, row'] at change
  cases change with
  | kept => exact changed rfl
  | reconciled _ o _ _ found phase mine =>
    obtain ⟨call, own, session', -, unleased⟩ := coherent.candidate i o found
    obtain ⟨call', own', session'', -⟩ := coherent.row k r row
    rw [mine, own] at own'
    obtain rfl := Option.some.inj own'
    rw [session''] at at'
    obtain rfl := Option.some.inj at'
    exact unleased phase (by rw [← mine]; exact owned)

/-- A terminal receipt becomes accepted by a reclaim only, coherent or not. -/
theorem reclaim_reopens (c : RuntimeConfig) (w : World) (e : Event) : w.ReclaimReopens c e := by
  rintro ⟨k, r⟩ member r' row' terminal accepted
  have row := KeyedTable.get?_eq_some_iff.mpr member
  have change := step_row c w e k
  rw [row, row'] at change
  cases change with
  | kept => exact absurd accepted terminal
  | reclaimed request ok call r found phase =>
    exact ⟨by cases ok <;> simp [Receipt.reclaim], call, found, rfl, phase⟩
  | finalized request f =>
    rw [finalize_status] at accepted
    exact absurd accepted f.status_terminal
  | reconciled => cases accepted

theorem get?_markFinal (t : Receipts) (request : RequestId) (f : Finalization) (now : Nat)
    (k : TurnKey) :
    (t.markFinal request f now).get? k =
      (t.get? k).map fun r => if r.requestId = request then r.finalize now f else r := by
  simp [Receipts.markFinal]

theorem get?_markOrphan (t : Receipts) (request : RequestId) (reconciledAt now : Nat)
    (k : TurnKey) :
    (t.markOrphan request reconciledAt now).get? k =
      (t.get? k).map fun r =>
        if r.requestId = request ∧ r.status = .accepted then r.reconcile reconciledAt now
        else r := by
  simp [Receipts.markOrphan]

theorem turn_pastRow {q : RequestId} (turn : (w.turn q).isSome) : w.PastRow q := by
  obtain ⟨call, turn⟩ := Option.isSome_iff_exists.mp turn
  obtain ⟨found, answered⟩ := Option.filter_eq_some_iff.mp turn
  refine ⟨call, found, ?_⟩
  split at answered
  · rename_i phase; simp [Phase.pastRow, phase, Phase.rank]
  · cases answered

/-- The record after a turn has recorded its end on its receipt. -/
theorem recorded_finalize (recorded : w.Recorded) {request : RequestId} {f : Finalization}
    (turn : (w.turn request).isSome)
    (closes : ∀ closing ∈ w.closings, closing.1 = request → closing.2 = f.status)
    {w' : World} (receipts : w'.receipts = w.receipts.markFinal request f w.redis.now)
    (closings : w'.closings = (request, f.status) :: w.closings)
    (onward : ∀ q, w.PastRow q → w'.PastRow q) : w'.Recorded := by
  constructor
  · intro k r' row' terminal
    rw [receipts, get?_markFinal] at row'
    obtain ⟨r, row, rfl⟩ := Option.map_eq_some_iff.mp row'
    rw [closings]
    by_cases mine : r.requestId = request
    · simp [mine, finalize_requestId, finalize_status]
    · rw [if_neg mine] at terminal ⊢
      exact List.mem_cons_of_mem _ (recorded.terminal k r row terminal)
  · intro k r' s row' closed
    rw [receipts, get?_markFinal] at row'
    obtain ⟨r, row, rfl⟩ := Option.map_eq_some_iff.mp row'
    rw [closings] at closed
    by_cases mine : r.requestId = request
    · rw [if_pos mine, finalize_requestId, mine] at closed
      rw [if_pos mine, finalize_status]
      obtain eq | closed := List.mem_cons.mp closed
      · exact (congrArg Prod.snd eq).symm
      · exact (closes _ closed rfl).symm
    · rw [if_neg mine] at closed ⊢
      obtain eq | closed := List.mem_cons.mp closed
      · exact absurd (congrArg Prod.fst eq) mine
      · exact recorded.agree k r s row closed
  · intro q s closed
    rw [closings] at closed
    obtain eq | closed := List.mem_cons.mp closed
    · obtain ⟨rfl, rfl⟩ := Prod.mk.inj eq
      exact ⟨f.status_terminal, onward q (turn_pastRow turn)⟩
    · exact ⟨(recorded.past q s closed).1, onward q (recorded.past q s closed).2⟩

/-- The record after the reconciler has failed a receipt. -/
theorem recorded_reconcile (coherent : w.Coherent) (recorded : w.Recorded) {o : OrphanCandidate}
    {k₀ : TurnKey} {r₀ : Receipt} (row₀ : w.receipts.get? k₀ = some r₀)
    (mine₀ : r₀.requestId = o.requestId) (accepted₀ : r₀.status = .accepted)
    {w' : World} (receipts : w'.receipts = w.receipts.markOrphan o.requestId o.now w.redis.now)
    (closings : w'.closings = (o.requestId, .failed) :: w.closings)
    (onward : ∀ q, w.PastRow q → w'.PastRow q) : w'.Recorded := by
  -- an accepted receipt has no end on record
  have unclosed (s : ReceiptStatus) : (o.requestId, s) ∉ w.closings := fun closed => by
    rw [← mine₀] at closed
    have same := recorded.agree k₀ r₀ s row₀ closed
    exact (recorded.past _ s closed).1 (same.symm.trans accepted₀)
  constructor
  · intro k r' row' terminal
    rw [receipts, get?_markOrphan] at row'
    obtain ⟨r, row, rfl⟩ := Option.map_eq_some_iff.mp row'
    rw [closings]
    by_cases mine : r.requestId = o.requestId ∧ r.status = .accepted
    · simp [mine, Receipt.reconcile]
    · rw [if_neg mine] at terminal ⊢
      exact List.mem_cons_of_mem _ (recorded.terminal k r row terminal)
  · intro k r' s row' closed
    rw [receipts, get?_markOrphan] at row'
    obtain ⟨r, row, rfl⟩ := Option.map_eq_some_iff.mp row'
    rw [closings] at closed
    by_cases mine : r.requestId = o.requestId ∧ r.status = .accepted
    · rw [if_pos mine] at closed ⊢
      obtain eq | closed := List.mem_cons.mp closed
      · exact (congrArg Prod.snd eq).symm
      · exact absurd (mine.1 ▸ closed) (unclosed s)
    · rw [if_neg mine] at closed ⊢
      obtain eq | closed := List.mem_cons.mp closed
      · have same : r.requestId = o.requestId := congrArg Prod.fst eq
        have terminal : r.status ≠ .accepted := fun accepted => mine ⟨same, accepted⟩
        exact absurd (same ▸ recorded.terminal k r row terminal) (unclosed r.status)
      · exact recorded.agree k r s row closed
  · intro q s closed
    rw [closings] at closed
    obtain eq | closed := List.mem_cons.mp closed
    · obtain ⟨rfl, rfl⟩ := Prod.mk.inj eq
      obtain ⟨call, found, -, past⟩ := coherent.row k₀ r₀ row₀
      exact ⟨nofun, onward _ ⟨call, mine₀ ▸ found, past⟩⟩
    · exact ⟨(recorded.past q s closed).1, onward q (recorded.past q s closed).2⟩

/-- The record after a command that records no end. -/
theorem recorded_other (recorded : w.Recorded) {e : Event}
    (finalize : ∀ request f, e ≠ .finalize request f) (reconcile : ∀ i, e ≠ .reconcile i) :
    (w.step c e).Recorded := by
  have closings := (step_logs (c := c) (w := w) e finalize).2 reconcile
  -- a call that writes a row has no end on record
  have unclosed {q : RequestId} {call : Call} (found : w.calls.get? q = some call)
      (early : call.phase.rank < 7) (s : ReceiptStatus) : (q, s) ∉ w.closings := fun closed => by
    obtain ⟨call', found', past⟩ := (recorded.past q s closed).2
    obtain rfl := Option.some.inj (found.symm.trans found')
    exact Nat.not_lt.mpr past early
  constructor
  · intro k r' row' terminal
    have change := step_row c w e k
    rw [row'] at change
    rw [closings]
    generalize row : w.receipts.get? k = before at change
    cases change with
    | kept => exact recorded.terminal k r' row terminal
    | created request ok call r found phase fresh => subst fresh; exact absurd rfl terminal
    | reclaimed => exact absurd rfl terminal
    | finalized request f => exact absurd rfl (finalize request f)
    | reconciled i => exact absurd rfl (reconcile i)
  · intro k r' s row' closed
    have change := step_row c w e k
    rw [row'] at change
    rw [closings] at closed
    generalize row : w.receipts.get? k = before at change
    cases change with
    | kept => exact recorded.agree k r' s row closed
    | created request ok call r found phase fresh =>
      subst fresh
      exact absurd closed (unclosed found (by simp [phase, Phase.rank]) s)
    | reclaimed request ok call r found phase =>
      exact absurd closed (unclosed found (by simp [phase, Phase.rank]) s)
    | finalized request f => exact absurd rfl (finalize request f)
    | reconciled i => exact absurd rfl (reconcile i)
  · intro q s closed
    rw [closings] at closed
    exact ⟨(recorded.past q s closed).1, pastRow_step (recorded.past q s closed).2 e⟩

/-- The record stays in agreement with the receipts as long as ends are recorded once. -/
theorem recorded_step (coherent : w.Coherent) (recorded : w.Recorded) (e : Event)
    (closes : w.ClosesOnce e) : (w.step c e).Recorded := by
  cases e with
  | finalize request f =>
    obtain ⟨turn, key, r, found, after⟩ | ⟨-, same⟩ := finalize_cases c w request f
    · have onward (q : RequestId) (past : w.PastRow q) := pastRow_step (c := c) past
        (.finalize request f)
      rw [after] at onward ⊢
      exact recorded_finalize recorded turn (closes turn (by simp [found])) rfl rfl onward
    · rw [same]; exact recorded
  | reconcile i =>
    obtain ⟨o, k, r, -, -, row, mine, accepted, receipts, closings⟩ | ⟨receipts, closings⟩ :=
      reconcile_cases c w i
    · exact recorded_reconcile coherent recorded row mine accepted receipts closings
        fun q past => pastRow_step past (.reconcile i)
    · constructor
      · rw [receipts, closings]; exact recorded.terminal
      · rw [receipts, closings]; exact recorded.agree
      · intro q s closed
        rw [closings] at closed
        exact ⟨(recorded.past q s closed).1, pastRow_step (recorded.past q s closed).2 _⟩
  | _ => exact recorded_other recorded nofun nofun

/-- A finalization leaves terminal statuses alone exactly if it repeats what is on record. -/
theorem finalStays_iff (recorded : w.Recorded) (e : Event) :
    w.FinalStays c e ↔ w.ClosesOnce e := by
  cases e with
  | finalize request f =>
    obtain ⟨turn, key, r, found, after⟩ | ⟨none, same⟩ := finalize_cases c w request f
    · obtain ⟨row, mine⟩ := KeyedTable.get?_of_find? found
      rw [decide_eq_true_eq] at mine
      constructor
      · intro stays turn _ closing closed at'
        obtain ⟨q, s⟩ := closing
        obtain rfl : q = request := at'
        have status := recorded.agree key r s row (by rw [mine]; exact closed)
        have terminal := (recorded.past q s closed).1
        have row' : (w.step c (.finalize q f)).receipts.get? key =
            some (r.finalize w.redis.now f) := by
          rw [after]
          simp only [get?_markFinal, row, Option.map_some, mine, if_true]
        have kept := stays rfl (key, r) (KeyedTable.get?_eq_some_iff.mp row) _ row'
          (by rw [status]; exact terminal)
        rw [finalize_status, status] at kept
        exact kept.symm
      · rintro closes - ⟨k, r₀⟩ member r' row' terminal
        have row₀ := KeyedTable.get?_eq_some_iff.mpr member
        rw [after, Option.mem_def] at row'
        simp only [get?_markFinal, row₀, Option.map_some, Option.some.injEq] at row'
        subst row'
        by_cases mine₀ : r₀.requestId = request
        · rw [if_pos mine₀, finalize_status]
          have closed := recorded.terminal k r₀ row₀ terminal
          exact (closes turn (by simp [found]) _ closed mine₀).symm
        · rw [if_neg mine₀]
    · constructor
      · intro _ turn some'
        rw [none turn] at some'
        cases some'
      · rintro - - ⟨k, r⟩ member r' row' -
        rw [same, Option.mem_def, KeyedTable.get?_eq_some_iff.mpr member] at row'
        rw [Option.some.inj row']
  | _ => exact iff_of_true nofun trivial

end

/-- In exactly the runs in which every turn that still has its receipt records the end
already on record for it, if there is one, terminal statuses are final; live turns are
not reaped, and only reclaims reopen, in every run. -/
theorem terminal_final_iff (c : RuntimeConfig) (es : List Event) :
    EveryStep (step c) (fun w e => w.ReapsOrphans c e ∧ w.ReclaimReopens c e ∧ w.FinalStays c e)
      {} es ↔
    EveryStep (step c) ClosesOnce {} es := by
  refine everyStep_iff_of_preserved (I := fun w => w.Coherent ∧ w.Recorded) ?_ ?_ ?_
  · rintro w e ⟨coherent, recorded⟩ closes
    exact ⟨coherent_step coherent e, recorded_step coherent recorded e closes⟩
  · rintro w e ⟨coherent, recorded⟩
    constructor
    · rintro ⟨-, -, stays⟩
      exact (finalStays_iff recorded e).mp stays
    · exact fun closes => ⟨coherent_reaps coherent e, reclaim_reopens c w e,
        (finalStays_iff recorded e).mpr closes⟩
  · refine ⟨coherent_start, ?_, ?_, ?_⟩
    · rintro k r ⟨⟩
    · rintro k r s ⟨⟩
    · rintro q s ⟨⟩

/-- A turn outlives its lease, is reaped, and then completes. -/
def lateOwner : List Event :=
  [.acceptTurn 1 ⟨5, "turn"⟩ 3,
    .proceed 1 true, .proceed 1 true, .proceed 1 true, .proceed 1 true, .proceed 1 true,
    .proceed 1 true,
    .wait 2000000,
    .selectOrphan 0 ⟨5, "turn"⟩,
    .reconcile 0, .reconcile 0, .reconcile 0, .reconcile 0,
    .finalize 1 (.completed 77 2000000)]

/-- Its receipt goes from failed to completed. -/
theorem late_owner :
    ¬ EveryStep (step ⟨60000, 86400000, 900000, by decide⟩)
      (fun w e => w.FinalStays ⟨60000, 86400000, 900000, by decide⟩ e) {} lateOwner := by
  decide

end World

end Persai.TurnRuntime
