import Persai.JobHandle.ExactlyOnce

/-!
# One narrator at a time

Who may narrate a result is decided by whichever comes first of the live turn,
the finalizer of its source turn and the worker of the job.

* `handover_write`: the moves of `narrationOwner` that a write can make;
* `inline_write`: a result the live turn has narrated inline is not narrated again;
* `single_narrator`: both over every run; rows of the time before continuations
  (`legacy`) may also pass to a continuation;
* `legacy_healed`: such a row does.
-/

namespace Persai.JobHandle

open Runs Tables

/-- The source turn ends without its output, so that its current turn lets go. -/
def Event.releasesCurrentTurn : Event → Bool
  | .finalizeSourceTurn _ outcome _ _ _ => outcome ≠ .persisted
  | _ => false

/-- The moves of a narration from one owner to the next. -/
def Handover (e : Event) (h h' : Handle) : Prop :=
  h'.narrationOwner = h.narrationOwner ∨
  (h.narrationOwner = none ∧
    (h'.narrationOwner = some .currentTurn ∨ h'.narrationOwner = some .continuation)) ∨
  (h.narrationOwner = some .currentTurn ∧ h'.narrationOwner = some .continuation ∧
    e.releasesCurrentTurn ∧ ¬ h.deliveredCurrentTurnInline)

instance (e : Event) (h h' : Handle) : Decidable (Handover e h h') :=
  inferInstanceAs (Decidable (_ ∨ _ ∨ _))

/-- A historical row passes to its continuation. -/
def Healed (h h' : Handle) : Prop :=
  h.narrationOwner = some .legacy ∧ h'.narrationOwner = some .continuation

/-- A relation between the row `k` before a step and after it. -/
def Moves (digest : Id → String) (k : Id) (move : Event → Handle → Handle → Prop) (s : System)
    (e : Event) : Prop :=
  ∀ h ∈ s.tables.handles.get? k, ∀ h' ∈ (s.step digest e).tables.handles.get? k, move e h h'

instance (digest : Id → String) (k : Id) (move : Event → Handle → Handle → Prop)
    [∀ e h h', Decidable (move e h h')] (s : System) (e : Event) :
    Decidable (Moves digest k move s e) :=
  inferInstanceAs (Decidable (∀ h ∈ _, ∀ h' ∈ _, move e h h'))

section
variable {digest : Id → String} {s : System} {e : Event} {k : Id} {h w : Handle}

theorem recordCompletion_owner (h : Handle) (status : TerminalStatus)
    (snapshot : TerminalSnapshot) (now : Time) (clientTurnId : String) :
    (h.recordCompletion status snapshot now clientTurnId).narrationOwner =
      if h.needsContinuationHeal ∧ h.narrationDecision ≠ some .continuationDepthExhausted then
        some .continuation
      else h.narrationOwner := by
  unfold Handle.recordCompletion
  dsimp only
  split <;> split <;> simp [Handle.promote, Handle.notifyContinuation]

theorem finalizeTerminal_owner (h : Handle) (terminal : CanonicalTerminal) (now : Time) :
    (h.finalizeTerminal terminal now).narrationOwner = h.narrationOwner := by
  unfold Handle.finalizeTerminal
  split <;> simp [Handle.promote]

theorem autoSubscribe_owner (h : Handle) (outcome : SourceTurnOutcome) (now : Time)
    (clientTurnId : String) :
    (h.autoSubscribe outcome now clientTurnId).narrationOwner = some .continuation := by
  unfold Handle.autoSubscribe
  dsimp only
  split
  · rfl
  · split <;> rfl

theorem finalizeSource_inline (h : Handle) (now : Time) :
    (h.finalizeSource now).deliveredCurrentTurnInline ↔ h.deliveredCurrentTurnInline := by
  unfold Handle.finalizeSource; split <;> rfl

/-- A row that the loop takes over belongs to its continuation, unless it was
narrated inline. -/
theorem resolve_owner (h : Handle) (digest : Id → String) (id : Id) (outcome : SourceTurnOutcome)
    (now : Time) :
    (h.resolve digest id outcome now).narrationOwner =
      if h.deliveredCurrentTurnInline then h.narrationOwner else some .continuation := by
  unfold Handle.resolve
  split
  · rfl
  · split
    · rfl
    · exact autoSubscribe_owner ..

/-- Every write hands the narration over by one of the allowed moves, or heals a
historical row. -/
theorem handover_write (write : Write digest s k e h w) : Handover e h w ∨ Healed h w := by
  cases write with
  | claimCurrentTurn terminal _ unowned =>
    exact .inl (.inr (.inl ⟨unowned, .inl (by simp [Handle.claimCurrentTurn])⟩))
  | finalizeTerminal => exact .inl (.inl (finalizeTerminal_owner ..))
  | exhaustDepth _ unowned =>
    obtain unowned | legacy := unowned
    · exact .inl (.inr (.inl ⟨unowned, .inr rfl⟩))
    · exact .inr ⟨legacy, rfl⟩
  | upgradeLegacy _ _ legacy =>
    exact .inr ⟨legacy, by unfold Handle.upgradeLegacy; split <;> rfl⟩
  | subscribe _ _ unowned => exact .inl (.inr (.inl ⟨unowned, .inr rfl⟩))
  | finalizeSource => exact .inl (.inl (Handle.finalizeSource_owner ..))
  | resolve turn outcome message pick now mine =>
    have owner := resolve_owner (h.finalizeSource now) digest k outcome now
    rw [Handle.finalizeSource_owner] at owner
    by_cases inline : h.deliveredCurrentTurnInline
    · rw [if_pos ((finalizeSource_inline h now).mpr inline)] at owner
      exact .inl (.inl owner)
    · rw [if_neg (mt (finalizeSource_inline h now).mp inline)] at owner
      simp only [unresolved, decide_eq_true_eq] at mine
      obtain ⟨-, unowned | ⟨released, current⟩⟩ := mine
      · exact .inl (.inr (.inl ⟨unowned, .inr owner⟩))
      · exact .inl (.inr (.inr
          ⟨current, owner, by simpa [Event.releasesCurrentTurn] using released, inline⟩))
  | claimLivePresent _ unowned => exact .inl (.inr (.inl ⟨unowned, .inl rfl⟩))
  | recordCompletion _ call _ now clientTurnId =>
    have owner := recordCompletion_owner h call.terminalStatus call.terminalSnapshot now
      clientTurnId
    by_cases healed : h.needsContinuationHeal ∧
        h.narrationDecision ≠ some .continuationDepthExhausted
    · rw [if_pos healed] at owner
      obtain legacy | ⟨unowned, -⟩ | ⟨owned, -⟩ := healed.1
      · exact .inr ⟨legacy, owner⟩
      · exact .inl (.inr (.inl ⟨unowned, .inr owner⟩))
      · exact .inl (.inl (owner.trans owned.symm))
    · rw [if_neg healed] at owner
      exact .inl (.inl owner)
  | claimAttempt kind => cases kind <;> exact .inl (.inl rfl)
  | recordAttempt kind => cases kind <;> exact .inl (.inl rfl)
  | settleExpiredAttempts =>
    unfold Handle.settleExpiredAttempt
    split <;> split <;> exact .inl (.inl rfl)
  | _ => exact .inl (.inl rfl)

/-- A result that the live turn has narrated inline stays its own. -/
theorem inline_write (inline : h.deliveredCurrentTurnInline) (write : Write digest s k e h w) :
    w.deliveredCurrentTurnInline := by
  obtain ⟨owned, decision, snapshot, final⟩ := inline
  have final' := final
  unfold HandleState.terminal at final'
  cases write with
  | kept => exact ⟨owned, decision, snapshot, final⟩
  | claimCurrentTurn _ _ unowned => simp [unowned] at owned
  | finalizeTerminal _ _ _ isOpen =>
    obtain none | ⟨subscribed, -⟩ := isOpen
    · simp [none] at final'
    · simp [subscribed] at final'
  | exhaustDepth _ unowned => rw [owned] at unowned; simp at unowned
  | upgradeLegacy _ _ legacy => simp [legacy] at owned
  | subscribe _ _ unowned => simp [unowned] at owned
  | finalizeSource _ _ _ _ now =>
    exact (finalizeSource_inline h now).mpr ⟨owned, decision, snapshot, final⟩
  | resolve _ _ _ _ now =>
    have inline := (finalizeSource_inline h now).mpr ⟨owned, decision, snapshot, final⟩
    rw [Handle.resolve, if_pos inline]
    exact inline
  | claimLivePresent _ unowned => simp [unowned] at owned
  | recordCompletion _ call =>
    have unhealed : ¬ h.needsContinuationHeal := by
      simp [Handle.needsContinuationHeal, owned]
    have unready : ¬ h.continuationReady := by
      simp [Handle.continuationReady, unhealed, owned]
    simp only [Handle.recordCompletion, unhealed, unready, false_and, if_false]
    refine ⟨by simpa using owned, by simpa using decision, by simp, ?_⟩
    rw [Handle.terminalStateData_state]
    exact call.terminalStatus.state_terminal
  | claim _ _ _ ready => simp [ready] at final'
  | release _ _ _ _ claimed => simp [claimedBy_state claimed] at final'
  | dispatch _ _ _ _ claimed => simp [claimedBy_state claimed] at final'
  | claimAttempt kind => cases kind <;> exact ⟨owned, decision, snapshot, final⟩
  | recordAttempt kind => cases kind <;> exact ⟨owned, decision, snapshot, final⟩
  | settleExpiredAttempts =>
    unfold Handle.settleExpiredAttempt
    split <;> split <;> exact ⟨owned, decision, snapshot, final⟩
  | publish => exact ⟨owned, decision, snapshot, final⟩
  | requeue _ _ _ _ _ _ _ claimed =>
    obtain at' | at' := active_state claimed <;> simp [at'] at final'
  | exhaustRetries _ _ _ _ claimed =>
    obtain at' | at' := active_state claimed <;> simp [at'] at final'
  | complete => exact ⟨owned, decision, snapshot, .inl rfl⟩
  | fail => exact ⟨owned, decision, snapshot, .inr (.inl rfl)⟩
  | settleDelivered => exact ⟨owned, decision, snapshot, .inl rfl⟩

theorem claimCurrentTurn_inline (h : Handle) (terminal : CanonicalTerminal) (now : Time) :
    (h.claimCurrentTurn terminal now).deliveredCurrentTurnInline := by
  refine ⟨by simp [Handle.claimCurrentTurn], by simp [Handle.claimCurrentTurn],
    by simp [Handle.claimCurrentTurn], ?_⟩
  rw [Handle.claimCurrentTurn, Handle.terminalStateData_state]
  exact terminal.status.state_terminal

end

def Inline (k : Id) : System → Prop := Holds k Handle.deliveredCurrentTurnInline

/-- Somebody is to narrate the handle, or does. -/
def Pending (k : Id) : System → Prop :=
  Holds k fun h => h.state = .ready ∨ h.state = .claimed ∨ h.state = .dispatched

/-- The handle that the source turn claims with this event, to narrate it itself. -/
def claimedBySource (digest : Id → String) (s : System) : Event → Option Id
  | .observeForCurrentTurn ref pick now =>
    match (s.tables.observeForCurrentTurn ref pick now).1 with
    | .claimedCurrentTurn .. => (s.tables.lockOwned ref).map Prod.fst
    | _ => none
  | .subscribePending ref now =>
    match (subscribePending digest s.tables ref now).1 with
    | .terminalInline .. => (s.tables.lockOwned ref).map Prod.fst
    | _ => none
  | _ => none

section
variable {digest : Id → String} {s : System} {e : Event} {k : Id}

theorem observe_claims {t : Tables} {ref : OwnedRef} {pick : Nat} {now : Time} {kind : JobKind}
    {terminal : CanonicalTerminal}
    (claimed : (t.observeForCurrentTurn ref pick now).1 = .claimedCurrentTurn kind terminal) :
    ∃ id row, t.lockOwned ref = some (id, row) ∧
      (t.observeForCurrentTurn ref pick now).2 =
        t.write id now (·.claimCurrentTurn terminal now) := by
  revert claimed
  unfold observeForCurrentTurn
  split
  · intro claimed; cases claimed
  · rename_i id row locked
    split
    · intro claimed; cases claimed
    · intro claimed; cases claimed
    · split
      · intro claimed; cases claimed
      · intro claimed; cases claimed; exact ⟨id, row, locked, rfl⟩

theorem subscribe_claims {t : Tables} {ref : OwnedRef} {now : Time} {kind : JobKind}
    {terminal : CanonicalTerminal}
    (claimed : (subscribePending digest t ref now).1 = .terminalInline kind terminal) :
    ∃ id row, t.lockOwned ref = some (id, row) ∧
      (subscribePending digest t ref now).2 =
        t.write id now (·.claimCurrentTurn terminal now) := by
  revert claimed
  unfold subscribePending
  split
  · intro claimed; cases claimed
  · rename_i id row locked
    split
    · intro claimed; cases claimed
    · dsimp only
      split
      · intro claimed; cases claimed
      · split
        · intro claimed; cases claimed
        · split
          · split <;> (intro claimed; cases claimed)
          · intro claimed; cases claimed
          · split
            · intro claimed; cases claimed; exact ⟨id, row, locked, rfl⟩
            · split <;> (intro claimed; cases claimed)

/-- What the source turn claims, it has narrated inline. -/
theorem claimedBySource_inline (claimed : claimedBySource digest s e = some k) :
    Inline k (s.step digest e) := by
  have written {t' : Tables} {id : Id} {row : Handle} {terminal : CanonicalTerminal} {now : Time}
      (found : s.tables.handles.get? id = some row)
      (eq : t' = s.tables.write id now (·.claimCurrentTurn terminal now)) :
      Inline id (s.withTables t') := by
    obtain ⟨m, after⟩ := write_row found id now (·.claimCurrentTurn terminal now)
    rw [if_pos rfl] at after
    have inline := claimCurrentTurn_inline row terminal now
    subst eq
    exact ⟨(row.claimCurrentTurn terminal now).stamped m, after, inline⟩
  cases e with
  | observeForCurrentTurn ref pick now =>
    simp only [claimedBySource] at claimed
    split at claimed
    · rename_i outcome
      obtain ⟨id, row, locked, eq⟩ := observe_claims outcome
      simp only [locked, Option.map_some, Option.some.injEq] at claimed
      subst claimed
      exact written (lockOwned_row locked) eq
    · cases claimed
  | subscribePending ref now =>
    simp only [claimedBySource] at claimed
    split at claimed
    · rename_i outcome
      obtain ⟨id, row, locked, eq⟩ := subscribe_claims outcome
      simp only [locked, Option.map_some, Option.some.injEq] at claimed
      subst claimed
      exact written (lockOwned_row locked) eq
    · cases claimed
  | _ => cases claimed

theorem step_inline (inline : Inline k s) : Inline k (s.step digest e) := by
  obtain ⟨h, found, inline⟩ := inline
  obtain ⟨w, m, write, after⟩ := step_row digest found e
  have kept : w.deliveredCurrentTurnInline := inline_write inline write
  exact ⟨w.stamped m, after, kept⟩

theorem inline_not_pending (inline : Inline k s) : ¬ Pending k s := by
  rintro ⟨h, found, pending⟩
  obtain ⟨h', found', -, -, -, final⟩ := inline
  obtain rfl := Option.some.inj (found.symm.trans found')
  unfold HandleState.terminal at final
  obtain at' | at' | at' := pending <;> simp [at'] at final

theorem step_moves : Moves digest k (fun e h h' => Handover e h h' ∨ Healed h h') s e := by
  intro h found h' found'
  obtain ⟨w, m, write, after⟩ := step_row digest found e
  obtain rfl := Option.some.inj (after.symm.trans found')
  have moved : Handover e h w ∨ Healed h w := handover_write write
  exact moved

end

/-- In every run a narration passes on by an allowed move, or from a historical
`legacy` owner to the continuation; and what a source turn has claimed is not
pending in any state after it, however that turn is finalized. -/
theorem single_narrator (digest : Id → String) (k : Id) (s : System) (es : List Event) :
    EveryStep (System.step digest)
      (Moves digest k fun e h h' => Handover e h h' ∨ Healed h h') s es ∧
    ∀ before e later, es = before ++ e :: later →
      claimedBySource digest (run (System.step digest) s before) e = some k →
      EveryState (System.step digest) (fun s => ¬ Pending k s)
        (run (System.step digest) s (before ++ [e])) later := by
  constructor
  · exact everyStep_of_forall (fun s e => step_moves) s es
  · intro before e later _ claimed
    rw [run_append]
    exact everyState_mono (fun s => inline_not_pending)
      (everyState_of_preserved (C := fun _ _ => True) (fun s e inline _ => step_inline inline)
        (claimedBySource_inline claimed) (everyStep_of_forall (fun _ _ => trivial) _ later))

/-- A handle of the time before continuations, whose job completes. -/
def historical : System :=
  { tables :=
      { handles := (KeyedTable.create ∅ 0
          { jobRef := 9, kind := .media, canonicalJobId := 5, assistantId := 1, workspaceId := 2,
            userId := 3, chatId := 7, channel := .web, threadKey := none,
            sourceClientTurnId := none, sourceUserMessageId := none,
            narrationOwner := some .legacy,
            narrationDecision := some .legacyCompletion }).getD ∅ } }

/-- Its narration makes a move beyond the three. -/
theorem legacy_healed :
    ¬ EveryStep (System.step fun _ => "") (Moves (fun _ => "") 0 Handover) historical
      [.recordCanonicalCompletion .deliveryWorker
        ⟨.media, 5, .completed, .delivered .completed none "Job completed and was delivered."⟩
        0 10] := by decide

end Persai.JobHandle
