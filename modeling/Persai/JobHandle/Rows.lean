import Persai.JobHandle.Operations

/-!
# What a step does to one handle

* `Write`: everything an event can write into a row, with what the operation
  has checked before it writes;
* `step_row`: a step does one of these writes to a row, up to its wave markers
  and the time of its last write;
* `step_completion`: what a reported completion does to the row of its job.
-/

namespace Persai.JobHandle

namespace Handle

/-- The source turn is finalized, once. -/
def finalizeSource (h : Handle) (now : Time) : Handle :=
  if h.sourceFinalizedAt = none then { h with sourceFinalizedAt := some now } else h

/-- A row as the loop of `finalizeSourceTurn` leaves it. -/
def resolve (h : Handle) (digest : Id → String) (id : Id) (outcome : SourceTurnOutcome)
    (now : Time) : Handle :=
  if h.deliveredCurrentTurnInline then h
  else if maxAsyncContinuationDepth ≤ h.continuationDepth then h.exhaustDepth now
  else
    h.autoSubscribe outcome now
      (h.continuationClientTurnId.getD (JobHandle.continuationClientTurnId digest id))

theorem noteRelease_stamped (h : Handle) (m : Markers) (outcome : SourceTurnOutcome) :
    (h.stamped m).noteRelease outcome = (h.noteRelease outcome).stamped m := by
  unfold noteRelease
  by_cases released : h.narrationOwner = some .currentTurn
  · rw [if_pos released, if_pos (show (h.stamped m).narrationOwner = _ from released)]; rfl
  · rw [if_neg released, if_neg (show ¬ (h.stamped m).narrationOwner = _ from released)]

theorem autoSubscribe_stamped (h : Handle) (m : Markers) (outcome : SourceTurnOutcome)
    (now : Time) (clientTurnId : String) :
    (h.stamped m).autoSubscribe outcome now clientTurnId =
      (h.autoSubscribe outcome now clientTurnId).stamped m := by
  simp only [autoSubscribe, noteRelease_stamped]
  change (if h.terminalBeforeFinalization then _ else if h.openForSubscribe then _ else _) = _
  split
  · rfl
  · split <;> rfl

/-- The loop reads nothing that a wave marker tells. -/
theorem resolve_stamped (h : Handle) (m : Markers) (digest : Id → String) (id : Id)
    (outcome : SourceTurnOutcome) (now : Time) :
    (h.stamped m).resolve digest id outcome now =
      (h.resolve digest id outcome now).stamped m := by
  simp only [resolve, autoSubscribe_stamped]
  change (if h.deliveredCurrentTurnInline then _
    else if maxAsyncContinuationDepth ≤ h.continuationDepth then _ else _) = _
  split
  · rfl
  · split <;> rfl

@[simp] theorem noteRelease_state (h : Handle) (outcome : SourceTurnOutcome) :
    (h.noteRelease outcome).state = h.state := by
  unfold noteRelease; split <;> rfl

/-- The loop makes ready only what has ended before it. -/
theorem resolve_ready {h : Handle} {digest : Id → String} {id : Id} {outcome : SourceTurnOutcome}
    {now : Time} (ready : (h.resolve digest id outcome now).state = .ready) :
    h.state = .ready ∨ h.state.terminal := by
  unfold resolve autoSubscribe at ready
  split at ready
  · exact .inl ready
  · split at ready
    · cases ready
    · dsimp only at ready
      split at ready
      · rename_i ended; exact .inr ended.2
      · split at ready
        · cases ready
        · exact .inl (by simpa [notifyContinuation] using ready)

@[simp] theorem finalizeSource_state (h : Handle) (now : Time) :
    (h.finalizeSource now).state = h.state := by
  unfold finalizeSource; split <;> rfl

@[simp] theorem finalizeSource_owner (h : Handle) (now : Time) :
    (h.finalizeSource now).narrationOwner = h.narrationOwner := by
  unfold finalizeSource; split <;> rfl

end Handle

open Tables

/-- What the event `e` writes into the row `k`. -/
inductive Write (digest : Id → String) (s : System) (k : Id) : Event → Handle → Handle → Prop where
  | kept {e : Event} {h : Handle} : Write digest s k e h h
  | claimCurrentTurn {e : Event} {h : Handle} (terminal : CanonicalTerminal) (now : Time)
      (unowned : h.narrationOwner = none) :
      Write digest s k e h (h.claimCurrentTurn terminal now)
  | finalizeTerminal {e : Event} {h : Handle} (terminal : CanonicalTerminal) (now : Time)
      (owned : h.narrationOwner ≠ none) (isOpen : h.openForTerminal) :
      Write digest s k e h (h.finalizeTerminal terminal now)
  | exhaustDepth {e : Event} {h : Handle} (now : Time)
      (unowned : h.narrationOwner = none ∨ h.narrationOwner = some .legacy)
      (unexhausted : h.narrationDecision ≠ some .continuationDepthExhausted) :
      Write digest s k e h (h.exhaustDepth now)
  | upgradeLegacy {e : Event} {h : Handle} (now : Time) (clientTurnId : String)
      (legacy : h.narrationOwner = some .legacy)
      (unexhausted : h.narrationDecision ≠ some .continuationDepthExhausted) :
      Write digest s k e h (h.upgradeLegacy now clientTurnId)
  | subscribe {e : Event} {h : Handle} (now : Time) (clientTurnId : String)
      (unowned : h.narrationOwner = none)
      (unexhausted : h.narrationDecision ≠ some .continuationDepthExhausted) :
      Write digest s k e h (h.subscribe now clientTurnId)
  | finalizeSource (turn : SourceTurn) (outcome : SourceTurnOutcome) (message : Option Id)
      (pick : Id → Nat) (now : Time) {h : Handle} (mine : turn.owns h = true)
      (resolved : unresolved turn outcome h = false) :
      Write digest s k (.finalizeSourceTurn turn outcome message pick now) h (h.finalizeSource now)
  | resolve (turn : SourceTurn) (outcome : SourceTurnOutcome) (message : Option Id)
      (pick : Id → Nat) (now : Time) {h : Handle} (mine : unresolved turn outcome h = true) :
      Write digest s k (.finalizeSourceTurn turn outcome message pick now) h
        ((h.finalizeSource now).resolve digest k outcome now)
  | claimLivePresent {e : Event} {h : Handle} (now : Time)
      (unowned : h.narrationOwner = none) :
      Write digest s k e h (h.claimLivePresent now)
  | recordCompletion (caller : Caller) (call : CompletionCall) (pick : Nat) (now : Time)
      {h : Handle} (clientTurnId : String)
      (made : s.reported (.recordCanonicalCompletion caller call pick now) = some call)
      (target : s.tables.lockCanonical call.kind call.canonicalJobId = some (k, h)) :
      Write digest s k (.recordCanonicalCompletion caller call pick now) h
        (h.recordCompletion call.terminalStatus call.terminalSnapshot now clientTurnId)
  | claim {e : Event} {h : Handle} (token : Token) (now ttl : Time) (ready : h.state = .ready) :
      Write digest s k e h (h.claim token now ttl)
  | release {e : Event} {h : Handle} (retryAt : Time) (code message : Option String)
      (token : Token) (claimed : claimedBy token h = true) :
      Write digest s k e h (h.release retryAt code message)
  | dispatch {e : Event} {h : Handle} (receipt : String) (expiresAt now : Time) (token : Token)
      (claimed : claimedBy token h = true) :
      Write digest s k e h (h.dispatch receipt expiresAt now)
  | claimAttempt {e : Event} {h : Handle} (kind : DeliveryAttemptKind) (now : Time) :
      Write digest s k e h (h.claimAttempt kind now)
  | recordAttempt {e : Event} {h : Handle} (kind : DeliveryAttemptKind)
      (result : DeliveryAttemptResult) (error : Option String) (now : Time) :
      Write digest s k e h (h.recordAttempt kind result error now)
  | settleExpiredAttempts {e : Event} {h : Handle} (artifacts external : String) :
      Write digest s k e h
        ((h.settleExpiredAttempt .artifacts artifacts).settleExpiredAttempt .external external)
  | publish {e : Event} {h : Handle} (message : Id) :
      Write digest s k e h (h.publishedOn message)
  | requeue (id : Id) (token : Token) (retryAt : Time) (code message : String)
      (proof : Option DispatchedProof) (now : Time) {h : Handle}
      (claimed : claimedBy token h = true ∨ dispatchedBy token h = true) :
      Write digest s k (.requeueClaim id token retryAt code message proof now) h
        (h.requeue retryAt code message)
  | exhaustRetries {e : Event} {h : Handle} (message : String) (shown : Option Id) (now : Time)
      (token : Token) (claimed : claimedBy token h = true ∨ dispatchedBy token h = true) :
      Write digest s k e h (h.exhaustRetries message shown now)
  | complete {e : Event} {h : Handle} (now : Time) (token : Token)
      (claimed : claimedBy token h = true ∨ dispatchedBy token h = true) :
      Write digest s k e h (h.complete now)
  | fail {e : Event} {h : Handle} (code message : String) (shown : Option Id) (now : Time)
      (token : Token) (claimed : claimedBy token h = true ∨ dispatchedBy token h = true) :
      Write digest s k e h (h.fail code message shown now)
  | settleDelivered {e : Event} {h : Handle} (message : Id) (now : Time)
      (unsettled : h.state = .claimed ∨ h.state = .dispatched ∨ h.state = .failed) :
      Write digest s k e h (h.settleDelivered message now)

section
variable {t : Tables} {k : Id} {h : Handle}

theorem get?_write (t : Tables) (id k : Id) (now : Time) (f : Handle → Handle) :
    (t.write id now f).handles.get? k =
      if k = id then (t.handles.get? k).map fun h => { f h with updatedAt := now }
      else t.handles.get? k :=
  KeyedTable.get?_update ..

/-- The written row, up to the time of the write. -/
theorem write_row (found : t.handles.get? k = some h) (id : Id) (now : Time)
    (f : Handle → Handle) :
    ∃ m, (t.write id now f).handles.get? k =
      some ((if k = id then f h else h).stamped m) := by
  rw [get?_write, found]
  split
  · exact ⟨{ (f h).markers with updatedAt := now }, rfl⟩
  · exact ⟨h.markers, rfl⟩

theorem writeIf_row (found : t.handles.get? k = some h) (id : Id) (now : Time)
    (p : Handle → Bool) (f : Handle → Handle) :
    ∃ m, (t.writeIf id now p f).2.handles.get? k =
      some ((if k = id ∧ p h = true then f h else h).stamped m) := by
  unfold writeIf
  by_cases same : k = id
  · subst same
    simp only [found, Option.any_some, true_and]
    split
    · simpa using write_row found k now f
    · exact ⟨h.markers, found⟩
  · simp only [same, false_and, if_false]
    split
    · simpa [same] using write_row found id now f
    · exact ⟨h.markers, found⟩

/-- Stamping a handle changes no row beyond its markers. -/
theorem stamp_row (found : t.handles.get? k = some h) (handleId chatId : Id) (pick : Nat)
    (now : Time) :
    ∃ m, (t.stampCatchUpQueueMarkersInTx handleId chatId pick now).handles.get? k =
      some (h.stamped m) := by
  unfold stampCatchUpQueueMarkersInTx
  split
  · exact ⟨h.markers, found⟩
  · split
    · exact ⟨h.markers, found⟩
    · simp only [KeyedTable.get?_update, KeyedTable.get?_updateWhere, found, Option.map_some]
      generalize Option.getD _ _ = waveId
      generalize maxOrdinal _ + 1 = ordinal
      split
      · exact ⟨⟨some ordinal, some ordinal, some waveId, now⟩, by split <;> rfl⟩
      · split
        · exact ⟨⟨h.catchUpOrdinal, some ordinal, h.catchUpWaveId, now⟩, rfl⟩
        · exact ⟨h.markers, rfl⟩

/-- A write followed by the stamp of the row it promoted. -/
theorem write_stamp_row (found : t.handles.get? k = some h) (id : Id) (now : Time)
    (f : Handle → Handle) (chatId : Id) (pick : Nat) :
    ∃ m, ((t.write id now f).stampCatchUpQueueMarkersInTx id chatId pick now).handles.get? k =
      some ((if k = id then f h else h).stamped m) := by
  obtain ⟨m, written⟩ := write_row found id now f
  obtain ⟨m', stamped⟩ := stamp_row written id chatId pick now
  exact ⟨m', stamped⟩

end

/-- The call that is reported is the one the event makes. -/
theorem System.reported_call {s : System} {caller : Caller} {call call' : CompletionCall}
    {pick : Nat} {now : Time}
    (made : s.reported (.recordCanonicalCompletion caller call pick now) = some call') :
    call = call' := by
  simp only [System.reported] at made
  split at made
  · cases made
  · exact Option.some.inj made

theorem lockOwned_row {t : Tables} {ref : OwnedRef} {id : Id} {row : Handle}
    (locked : t.lockOwned ref = some (id, row)) : t.handles.get? id = some row :=
  (KeyedTable.get?_of_find? locked).1

theorem lockCanonical_row {t : Tables} {kind : JobKind} {job id : Id} {row : Handle}
    (locked : t.lockCanonical kind job = some (id, row)) : t.handles.get? id = some row :=
  (KeyedTable.get?_of_find? locked).1

/-- The row `k`, which was `h`, has undergone a write of the event `e`. -/
def Effect (digest : Id → String) (s : System) (e : Event) (k : Id) (h : Handle)
    (t' : Tables) : Prop :=
  ∃ w m, Write digest s k e h w ∧ t'.handles.get? k = some (w.stamped m)

section
variable {digest : Id → String} {s : System} {k : Id} {h : Handle}

theorem Effect.kept {e : Event} {t' : Tables} (row : t'.handles.get? k = some h) :
    Effect digest s e k h t' := ⟨h, h.markers, .kept, row⟩

theorem Effect.of_row {e : Event} {t' : Tables} {P : Prop} [Decidable P] {w : Handle}
    (row : ∃ m, t'.handles.get? k = some ((if P then w else h).stamped m))
    (write : P → Write digest s k e h w) : Effect digest s e k h t' := by
  obtain ⟨m, row⟩ := row
  by_cases hP : P
  · rw [if_pos hP] at row; exact ⟨w, m, write hP, row⟩
  · rw [if_neg hP] at row; exact ⟨h, m, .kept, row⟩

theorem observe_row (found : s.tables.handles.get? k = some h) (e : Event) (ref : OwnedRef)
    (pick : Nat) (now : Time) :
    Effect digest s e k h (s.tables.observeForCurrentTurn ref pick now).2 := by
  unfold observeForCurrentTurn
  split
  · exact .kept found
  · rename_i id row locked
    have mine : k = id → row = h := fun same => by
      subst same; exact Option.some.inj ((lockOwned_row locked).symm.trans found)
    split
    · exact .kept found
    · exact .kept found
    · rename_i terminal _
      split
      · rename_i owner owned
        have write (same : k = id) (isOpen : row.openForTerminal) :
            Write digest s k e h (h.finalizeTerminal terminal now) := by
          obtain rfl := mine same
          exact .finalizeTerminal terminal now (by simp [owned]) isOpen
        unfold finalizeTerminalHandleInTx
        split
        · rename_i isOpen
          dsimp only
          split
          · exact .of_row (write_stamp_row found id now _ _ _) (write · isOpen)
          · exact .of_row (write_row found id now _) (write · isOpen)
        · exact .kept found
      · rename_i unowned
        refine .of_row (write_row found id now _) fun same => ?_
        obtain rfl := mine same
        exact .claimCurrentTurn terminal now unowned

theorem subscribe_row (found : s.tables.handles.get? k = some h) (e : Event) (ref : OwnedRef)
    (now : Time) : Effect digest s e k h (subscribePending digest s.tables ref now).2 := by
  unfold subscribePending
  split
  · exact .kept found
  · rename_i id row locked
    have mine : k = id → row = h := fun same => by
      subst same; exact Option.some.inj ((lockOwned_row locked).symm.trans found)
    split
    · exact .kept found
    · dsimp only
      split
      · exact .kept found
      · rename_i unexhausted
        obtain ⟨undecided, -⟩ := not_or.mp unexhausted
        split
        · exact .kept found
        · split
          · rename_i legacy
            split
            · refine .of_row (write_row found id now _) fun same => ?_
              obtain rfl := mine same
              exact .exhaustDepth now (.inr legacy) undecided
            · refine .of_row (write_row found id now _) fun same => ?_
              obtain rfl := mine same
              exact .upgradeLegacy now _ legacy undecided
          · exact .kept found
          · rename_i unowned
            split
            · refine .of_row (write_row found id now _) fun same => ?_
              obtain rfl := mine same
              exact .claimCurrentTurn _ now unowned
            · split
              · refine .of_row (write_row found id now _) fun same => ?_
                obtain rfl := mine same
                exact .exhaustDepth now (.inl unowned) undecided
              · refine .of_row (write_row found id now _) fun same => ?_
                obtain rfl := mine same
                exact .subscribe now _ unowned undecided

theorem livePresent_row (found : s.tables.handles.get? k = some h) (e : Event) (kind : JobKind)
    (job : Id) (now : Time) :
    Effect digest s e k h (s.tables.claimOpenTurnLivePresent kind job now).2 := by
  unfold claimOpenTurnLivePresent
  split
  · exact .kept found
  · rename_i id row locked
    split
    · exact .kept found
    · split
      · exact .kept found
      · rename_i unowned
        refine .of_row (write_row found id now _) fun same => ?_
        subst same
        obtain rfl := Option.some.inj ((lockCanonical_row locked).symm.trans found)
        exact .claimLivePresent now (not_not.mp unowned)

/-- The row of the job whose completion is recorded; no other row changes. -/
theorem recordCompletion_row (digest : Id → String) {t : Tables} (found : t.handles.get? k = some h)
    {call : CompletionCall} {id : Id} {row : Handle}
    (locked : t.lockCanonical call.kind call.canonicalJobId = some (id, row)) (pick : Nat)
    (now : Time) :
    ∃ m, (recordCanonicalCompletion digest t call pick now).2.handles.get? k =
      some ((if k = id then
        h.recordCompletion call.terminalStatus call.terminalSnapshot now
          (row.continuationClientTurnId.getD (continuationClientTurnId digest id))
        else h).stamped m) := by
  simp only [recordCanonicalCompletion, locked]
  split
  · exact write_stamp_row found id now _ _ _
  · exact write_row found id now _

theorem completion_row (found : s.tables.handles.get? k = some h) {caller : Caller}
    {call : CompletionCall} {pick : Nat} {now : Time}
    (made : s.reported (.recordCanonicalCompletion caller call pick now) = some call) :
    Effect digest s (.recordCanonicalCompletion caller call pick now) k h
      (recordCanonicalCompletion digest s.tables call pick now).2 := by
  cases locked : s.tables.lockCanonical call.kind call.canonicalJobId with
  | none =>
    have same : (recordCanonicalCompletion digest s.tables call pick now).2 = s.tables := by
      simp only [recordCanonicalCompletion, locked]
    exact .kept (by rw [same]; exact found)
  | some r =>
    obtain ⟨id, row⟩ := r
    refine .of_row (recordCompletion_row digest found locked pick now) fun same => ?_
    subst same
    obtain rfl := Option.some.inj ((lockCanonical_row locked).symm.trans found)
    exact .recordCompletion caller call pick now _ made locked

/-- One turn of the loop resolves its own row. -/
theorem subscribeUnresolved_row (digest : Id → String) {t : Tables}
    (found : t.handles.get? k = some h) (outcome : SourceTurnOutcome) (chatId : Id)
    (pick : Id → Nat) (now : Time) (id : Id) :
    ∃ m, (subscribeUnresolved digest outcome chatId pick now t id).handles.get? k =
      some ((if k = id then h.resolve digest k outcome now else h).stamped m) := by
  unfold subscribeUnresolved
  split
  · rename_i absent
    have other : k ≠ id := fun same => by subst same; simp [found] at absent
    exact ⟨h.markers, by simp [other, found]⟩
  · rename_i row at'
    by_cases same : k = id
    · subst same
      obtain rfl := Option.some.inj (at'.symm.trans found)
      simp only [if_true, Handle.resolve]
      split
      · exact ⟨row.markers, found⟩
      · split
        · simpa using write_row found k now (·.exhaustDepth now)
        · split
          · simpa using write_stamp_row found k now (·.autoSubscribe outcome now _) chatId (pick k)
          · simpa using write_row found k now (·.autoSubscribe outcome now _)
    · simp only [same, if_false]
      split
      · exact ⟨h.markers, found⟩
      · split
        · simpa [same] using write_row found id now (·.exhaustDepth now)
        · split
          · simpa [same] using
              write_stamp_row found id now (·.autoSubscribe outcome now _) chatId (pick id)
          · simpa [same] using write_row found id now (·.autoSubscribe outcome now _)

/-- The whole loop resolves the rows it was given, each by its own columns. -/
theorem subscribeUnresolved_fold (digest : Id → String) (outcome : SourceTurnOutcome) (chatId : Id)
    (pick : Id → Nat) (now : Time) {ids : List Id} (distinct : ids.Nodup) {t : Tables}
    (found : t.handles.get? k = some h) :
    ∃ m, (ids.foldl (subscribeUnresolved digest outcome chatId pick now) t).handles.get? k =
      some ((if k ∈ ids then h.resolve digest k outcome now else h).stamped m) := by
  induction ids generalizing t h with
  | nil => exact ⟨h.markers, found⟩
  | cons id ids ih =>
    obtain ⟨fresh, distinct⟩ := List.nodup_cons.mp distinct
    obtain ⟨m, row⟩ := subscribeUnresolved_row digest found outcome chatId pick now id
    obtain ⟨m', rest⟩ := ih distinct row
    refine ⟨m', rest.trans ?_⟩
    by_cases same : k = id
    · subst same; simp [fresh]
    · simp only [same, if_false, List.mem_cons, false_or]
      split
      · rw [Handle.resolve_stamped]; rfl
      · rfl

theorem select_fst_nodup {κ α : Type} [DecidableEq κ] (t : KeyedTable κ α) (p : κ → α → Bool) :
    ((t.select p).map Prod.fst).Nodup :=
  t.unique.sublist (List.filter_sublist.map _)

theorem mem_select_fst {t : KeyedTable Id Handle} (found : t.get? k = some h)
    (p : Id → Handle → Bool) : k ∈ (t.select p).map Prod.fst ↔ p k h = true := by
  constructor
  · intro member
    obtain ⟨⟨id, row⟩, selected, rfl⟩ := List.mem_map.mp member
    obtain ⟨at', holds⟩ := KeyedTable.mem_select_iff.mp selected
    obtain rfl := Option.some.inj (at'.symm.trans found)
    exact holds
  · intro holds
    exact List.mem_map.mpr ⟨(k, h), KeyedTable.mem_select_iff.mpr ⟨found, holds⟩, rfl⟩

/-- The loop resolves exactly the rows that were selected for it. -/
theorem resolveSelected_row (digest : Id → String) {t : Tables}
    (found : t.handles.get? k = some h) (turn : SourceTurn) (outcome : SourceTurnOutcome)
    (pick : Id → Nat) (now : Time) :
    ∃ m, (resolveSelected digest t turn outcome pick now).handles.get? k =
      some ((if unresolved turn outcome h = true then h.resolve digest k outcome now
        else h).stamped m) := by
  obtain ⟨m, row⟩ := subscribeUnresolved_fold digest outcome turn.chatId pick now
    (select_fst_nodup t.handles fun _ h => unresolved turn outcome h) found
  have selected := mem_select_fst found fun _ h => unresolved turn outcome h
  refine ⟨m, row.trans ?_⟩
  by_cases mine : unresolved turn outcome h = true
  · rw [if_pos (selected.mpr mine), if_pos mine]
  · rw [if_neg (mt selected.mp mine), if_neg mine]

/-- The row after the stamp of its finalization. -/
theorem stampSourceFinalized_row {t : Tables} (found : t.handles.get? k = some h)
    (turn : SourceTurn) (now : Time) :
    ∃ m, (t.stampSourceFinalized turn now).handles.get? k =
      some ((if turn.owns h = true then h.finalizeSource now else h).stamped m) := by
  simp only [stampSourceFinalized, KeyedTable.get?_updateWhere, found, Option.map_some]
  by_cases mine : turn.owns h = true
  · by_cases unfinalized : h.sourceFinalizedAt = none
    · exact ⟨{ h.markers with updatedAt := now }, by
        simp [mine, unfinalized, Handle.finalizeSource, Handle.stamped, Handle.markers]⟩
    · exact ⟨h.markers, by simp [mine, unfinalized, Handle.finalizeSource]⟩
  · exact ⟨h.markers, by simp [mine]⟩

theorem unresolved_finalizeSource (turn : SourceTurn) (outcome : SourceTurnOutcome) (h : Handle)
    (now : Time) (m : Handle.Markers) :
    unresolved turn outcome ((h.finalizeSource now).stamped m) = unresolved turn outcome h := by
  unfold Handle.finalizeSource; split <;> rfl

theorem finalizeSourceTurn_row (found : s.tables.handles.get? k = some h) {turn : SourceTurn}
    {outcome : SourceTurnOutcome} {message : Option Id} {pick : Id → Nat} {now : Time}
    {counts : FinalizedSourceTurn} {t' : Tables}
    (done : finalizeSourceTurn digest s.tables turn outcome message pick now = some (counts, t')) :
    Effect digest s (.finalizeSourceTurn turn outcome message pick now) k h t' := by
  unfold finalizeSourceTurn at done
  split at done
  · cases done
  · obtain ⟨-, rfl⟩ := Prod.mk.inj (Option.some.inj done)
    obtain ⟨m, stamped⟩ := stampSourceFinalized_row found turn now
    obtain ⟨m', row⟩ := resolveSelected_row digest stamped turn outcome pick now
    by_cases mine : turn.owns h = true
    · simp only [mine, if_true, unresolved_finalizeSource] at row
      by_cases selected : unresolved turn outcome h = true
      · rw [if_pos selected, Handle.resolve_stamped] at row
        exact ⟨_, m', .resolve turn outcome message pick now selected, row⟩
      · rw [if_neg selected] at row
        exact ⟨_, m', .finalizeSource turn outcome message pick now mine
          (Bool.eq_false_iff.mpr selected), row⟩
    · have other : ¬ unresolved turn outcome (h.stamped m) = true := by
        simp only [unresolved, decide_eq_true_eq, not_and]
        exact fun owns => absurd owns mine
      rw [if_neg mine, if_neg other] at row
      exact ⟨h, m', .kept, row⟩

theorem queueHead_mem {rows : List (Id × Handle)} {r : Id × Handle}
    (head : queueHead rows = some r) : r ∈ rows := by
  induction rows with
  | nil => cases head
  | cons b rows ih =>
    simp only [queueHead] at head
    split at head
    · cases head; exact List.mem_cons_self
    · split at head
      · cases head; exact List.mem_cons_self
      · rename_i c rest _
        cases head
        exact List.mem_cons_of_mem b (ih rest)

theorem claim_row (found : s.tables.handles.get? k = some h) (e : Event) (chatId : Id)
    (ttl : Time) (locked : List Id) (now : Time) :
    Effect digest s e k h (s.tables.claimReadyHeadForChat chatId ttl locked now).2 := by
  unfold claimReadyHeadForChat
  split
  · exact .kept found
  · rename_i id row head
    obtain ⟨at', ready⟩ := KeyedTable.mem_select_iff.mp (queueHead_mem head)
    refine .of_row (write_row found id now _) fun same => ?_
    subst same
    obtain rfl := Option.some.inj (at'.symm.trans found)
    simp only [claimable, decide_eq_true_eq] at ready
    exact .claim _ now ttl ready.1.1

/-- An update under a condition that the write needs. -/
theorem Effect.of_writeIf (found : s.tables.handles.get? k = some h) {e : Event} {id : Id}
    {now : Time} {p : Handle → Bool} {f : Handle → Handle}
    (write : p h = true → Write digest s k e h (f h)) :
    Effect digest s e k h (s.tables.writeIf id now p f).2 :=
  .of_row (writeIf_row found id now p f) fun holds => write holds.2

theorem persist_handles (t : Tables) (id : Id) (row : Handle) :
    (t.persistPermanentFailureMessage id row).2.handles = t.handles := by
  unfold persistPermanentFailureMessage
  split
  · rfl
  · split <;> rfl

theorem attempt_row (found : s.tables.handles.get? k = some h) (e : Event) (id : Id)
    (token : Token) (kind : DeliveryAttemptKind) (now : Time) :
    Effect digest s e k h (s.tables.claimDeliveryAttempt id token kind now).2 := by
  unfold claimDeliveryAttempt
  split
  · exact .kept found
  · split
    · exact .kept found
    · exact .of_row (write_row found id now _) fun _ => .claimAttempt kind now

theorem requeue_row (found : s.tables.handles.get? k = some h) (id : Id) (token : Token)
    (retryAt : Time) (code message : String) (proof : Option DispatchedProof) (now : Time) :
    Effect digest s (.requeueClaim id token retryAt code message proof now) k h
      (s.tables.requeueClaim id token retryAt code message proof now).2 := by
  unfold requeueClaim
  split
  · exact .kept found
  · rename_i row filtered
    obtain ⟨at', mine⟩ := Option.filter_eq_some_iff.mp filtered
    split
    · exact .kept found
    · split
      · exact .kept found
      · rename_i active
        have claimed (same : k = id) : claimedBy token h = true ∨ dispatchedBy token h = true := by
          subst same
          obtain rfl := Option.some.inj (at'.symm.trans found)
          have held : row.claimToken = some token := by simpa using mine
          simp only [claimedBy, dispatchedBy, held, and_true, decide_eq_true_eq]
          tauto
        split
        · have row' : (s.tables.persistPermanentFailureMessage id row).2.handles.get? k = some h :=
            by rw [persist_handles]; exact found
          exact .of_row (write_row row' id now _) fun same =>
            .exhaustRetries message _ now token (claimed same)
        · exact .of_row (write_row found id now _) fun same =>
            .requeue id token retryAt code message proof now (claimed same)

theorem settleOpen_row (found : s.tables.handles.get? k = some h) (e : Event) {id : Id}
    {row : Handle} (at' : s.tables.handles.get? id = some row) (token : Option Token)
    (heal : Bool) (now : Time) (settled : Id → Option SettleDelivered) :
    Effect digest s e k h (settleDeliveredLocked.settleOpen s.tables id row token heal now
      settled).2 := by
  unfold settleDeliveredLocked.settleOpen
  dsimp only
  split
  · rename_i unsettled
    split
    · exact .kept found
    · split
      · refine .of_row (write_row found id now _) fun same => ?_
        subst same
        obtain rfl := Option.some.inj (at'.symm.trans found)
        exact .settleDelivered _ now (by tauto)
      · exact .kept found
  · exact .kept found

theorem settle_row (digest : Id → String) (found : s.tables.handles.get? k = some h) (e : Event)
    {id : Id} {row : Handle} (at' : s.tables.handles.get? id = some row) (token : Option Token)
    (heal : Bool) (now : Time) :
    Effect digest s e k h (s.tables.settleDeliveredLocked id row token heal now).2 := by
  unfold settleDeliveredLocked
  dsimp only
  split
  · split
    · exact .kept found
    · exact settleOpen_row found e at' token heal now _
  · exact settleOpen_row found e at' token heal now _

theorem fail_row (found : s.tables.handles.get? k = some h) (e : Event) (id : Id) (token : Token)
    (code message : String) (now : Time) :
    Effect digest s e k h (s.tables.failClaim id token code message now).2 := by
  unfold failClaim
  split
  · exact .kept found
  · rename_i row at'
    split
    · have healed := settle_row digest found e at' none true now
      split
      · rename_i outcome; rw [outcome] at healed; exact healed
      · exact .kept found
    · split
      · exact .kept found
      · rename_i active
        have settled := settle_row digest found e at' (some token) false now
        split
        · rename_i outcome; rw [outcome] at settled; exact settled
        · have row' : (s.tables.persistPermanentFailureMessage id row).2.handles.get? k = some h :=
            by rw [persist_handles]; exact found
          refine .of_row (write_row row' id now _) fun same => ?_
          subst same
          obtain rfl := Option.some.inj (at'.symm.trans found)
          refine .fail code message _ now token ?_
          simp only [claimedBy, dispatchedBy, decide_eq_true_eq]
          tauto

theorem settleByClientTurnId_row (found : s.tables.handles.get? k = some h) (e : Event)
    (clientTurnId : String) (now : Time) :
    Effect digest s e k h
      (s.tables.settleDeliveredCatchUpFailureByClientTurnId clientTurnId now).2 := by
  unfold settleDeliveredCatchUpFailureByClientTurnId
  split
  · exact .kept found
  · split
    · split
      · exact .kept found
      · rename_i id row at'
        exact settle_row digest found e (KeyedTable.get?_of_find? at').1 none true now
    · exact .kept found

theorem rotate_row (found : s.tables.handles.get? k = some h) (e : Event) (c : Candidate)
    (now : Time) : Effect digest s e k h (s.tables.rotate c now) := by
  unfold rotate
  split
  · simp only [Effect, KeyedTable.get?_updateWhere, found, Option.map_some]
    split
    · exact ⟨h, { h.markers with updatedAt := now }, .kept, rfl⟩
    · exact ⟨h, h.markers, .kept, rfl⟩
  · exact .kept found

theorem mint_row {t : Tables} (found : t.handles.get? k = some h) (job : NewJob) :
    (t.mintHandle job).handles.get? k = some h := by
  unfold mintHandle
  split
  · exact found
  · cases created : t.handles.create t.uuid _ with
    | none => simpa [created] using found
    | some handles =>
      obtain ⟨free, -⟩ := KeyedTable.create_eq_some_iff.mp created
      have other : k ≠ t.uuid := fun same => by subst same; simp [found] at free
      simp only [Option.getD_some, KeyedTable.get?_create created, other, if_false, found]

/-- Every step does one of the writes to a row, and stamps at most its markers. -/
theorem step_row (digest : Id → String) (found : s.tables.handles.get? k = some h) (e : Event) :
    Effect digest s e k h (s.step digest e).tables := by
  cases e with
  | mintHandle job => exact .kept (mint_row found job)
  | setChat | setMediaJob | setDocumentJob | setSandboxJob | postMessage | attach =>
    exact .kept found
  | observeForCurrentTurn ref pick now => exact observe_row found _ ref pick now
  | subscribePending ref now => exact subscribe_row found _ ref now
  | finalizeSourceTurn turn outcome message pick now =>
    simp only [System.step]
    split
    · rename_i done; exact finalizeSourceTurn_row found done
    · exact .kept found
  | claimOpenTurnLivePresent kind job now => exact livePresent_row found _ kind job now
  | recordCanonicalCompletion caller call pick now =>
    simp only [System.step]
    split
    · rename_i made
      obtain rfl := System.reported_call made
      exact completion_row found made
    · exact .kept found
  | selectCandidates => exact .kept found
  | readCandidate c now =>
    simp only [System.step]
    split
    · split
      · exact .kept found
      · exact rotate_row found _ c now
    · exact .kept found
  | claimReadyHeadForChat chatId ttl locked now => exact claim_row found _ chatId ttl locked now
  | releaseClaimToReady id token retryAt code message now =>
    exact .of_writeIf found fun claimed => .release retryAt code message token claimed
  | markDispatched id token receipt expiresAt now =>
    exact .of_writeIf found fun claimed => .dispatch receipt expiresAt now token claimed
  | claimDeliveryAttempt id token kind now => exact attempt_row found _ id token kind now
  | recordDeliveryAttemptResult id token kind result error now =>
    exact .of_writeIf found fun _ => .recordAttempt kind result error now
  | persistOutputOnce id token message now =>
    exact .of_writeIf found fun _ => .publish message
  | stampHandleMessageIds id message now =>
    exact .of_row (write_row found id now _) fun _ => .publish message
  | settleExpiredDeliveryAttempts id token now =>
    exact .of_writeIf found fun _ => .settleExpiredAttempts _ _
  | requeueClaim id token retryAt code message proof now =>
    exact requeue_row found id token retryAt code message proof now
  | completeClaim id token now =>
    exact .of_writeIf found fun claimed =>
      .complete now token (by simpa using claimed)
  | failClaim id token code message now => exact fail_row found _ id token code message now
  | settleDeliveredCatchUpFailure id token now =>
    simp only [System.step, settleDeliveredCatchUpFailure]
    split
    · exact .kept found
    · rename_i row at'; exact settle_row digest found _ at' (some token) true now
  | settleDeliveredCatchUpFailureByClientTurnId clientTurnId now =>
    exact settleByClientTurnId_row found _ clientTurnId now
  | claimFailedHandleExternalNotice id now =>
    exact .of_writeIf found fun _ => .claimAttempt .external now
  | recordFailedHandleExternalNoticeResult id result error now =>
    exact .of_writeIf found fun _ => .recordAttempt .external result error now

/-- What a reported completion does to the row of its job. -/
theorem step_completion (digest : Id → String) {caller : Caller} {call : CompletionCall}
    {pick : Nat} {now : Time}
    (made : s.reported (.recordCanonicalCompletion caller call pick now) = some call)
    (target : s.tables.lockCanonical call.kind call.canonicalJobId = some (k, h)) :
    ∃ clientTurnId m,
      (s.step digest (.recordCanonicalCompletion caller call pick now)).tables.handles.get? k =
        some ((h.recordCompletion call.terminalStatus call.terminalSnapshot now
          clientTurnId).stamped m) := by
  obtain ⟨m, row⟩ := recordCompletion_row digest (lockCanonical_row target) target
    pick now
  rw [if_pos rfl] at row
  exact ⟨_, m, by simpa only [System.step, made] using row⟩

end

end Persai.JobHandle
