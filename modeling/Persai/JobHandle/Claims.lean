import Persai.Runs
import Persai.JobHandle.Rows

/-!
# What every transaction keeps of a handle

A handle that is ready, claimed or dispatched belongs to its continuation, which has what it needs
for its turn; a retry is left for each claim; and what has been tried or shown once stays on the
row.

* `Handle.Sound`: the invariant of a row;
* `Keeps`: what a write keeps, as it is checked by the transaction that makes it;
* `keepsRows_step`: so of every step.
-/

namespace Persai.JobHandle

open Runs Tables

namespace Handle

/-- Ready for its continuation, or taken by it. -/
def active (h : Handle) : Prop := h.state = .ready ∨ h.state = .claimed ∨ h.state = .dispatched

/-- A continuation has what it needs for its turn. -/
structure WellFormed (h : Handle) : Prop where
  owner : h.narrationOwner = some .continuation
  decision : h.narrationDecision = some .notifySubscribed
  clientTurn : h.continuationClientTurnId.isSome
  snapshot : h.terminalSnapshotJson.isSome

structure Sound (h : Handle) : Prop where
  active : h.active → h.WellFormed
  named : h.subscribedForNotify → h.continuationClientTurnId.isSome
  retries : h.retryCount ≤ h.maxRetries
  budget : h.state = .claimed ∨ h.state = .dispatched → h.retryCount < h.maxRetries
  limit : h.maxRetries = asyncContinuationMaxRetries

/-- What a write keeps: the invariant, the time of each attempt, that a message is shown, and the
claim token, unless it is cleared or one that has not been `issued` before. -/
structure Keeps (issued : Nat) (h h' : Handle) : Prop where
  sound : h.Sound → h'.Sound
  attempted : ∀ kind, (h.attempt kind).attemptedAt.isSome → (h'.attempt kind).attemptedAt.isSome
  shown : h.continuationAssistantMessageId.isSome → h'.continuationAssistantMessageId.isSome
  token : h'.claimToken = h.claimToken ∨ ∀ token ∈ h'.claimToken, issued ≤ token

variable {issued : Nat}

/-- The columns that the invariant is about, but the snapshot. -/
def claimColumns (h : Handle) : HandleState × Option NarrationOwner × Option NarrationDecision ×
    Option String × Nat × Nat :=
  (h.state, h.narrationOwner, h.narrationDecision, h.continuationClientTurnId, h.retryCount,
    h.maxRetries)

theorem Sound.of_columns {h h' : Handle} (valid : h.Sound)
    (same : h'.claimColumns = h.claimColumns)
    (snapshot : h.terminalSnapshotJson.isSome → h'.terminalSnapshotJson.isSome) : h'.Sound := by
  simp only [claimColumns, Prod.mk.injEq] at same
  obtain ⟨state, owner, decision, name, retries, limit⟩ := same
  refine ⟨fun active => ?_, ?_, ?_, ?_, limit.trans valid.limit⟩
  · have wellFormed := valid.active (by unfold Handle.active at *; rwa [state] at active)
    exact ⟨owner.trans wellFormed.owner, decision.trans wellFormed.decision,
      name ▸ wellFormed.clientTurn, snapshot wellFormed.snapshot⟩
  · unfold subscribedForNotify
    rw [owner, decision, name]
    exact valid.named
  · rw [retries, limit]
    exact valid.retries
  · rw [state, retries, limit]
    exact valid.budget

theorem Keeps.refl (h : Handle) : h.Keeps issued h := ⟨id, fun _ => id, id, .inl rfl⟩

theorem Keeps.trans {h h' h'' : Handle} (first : h.Keeps issued h')
    (second : h'.Keeps issued h'') : h.Keeps issued h'' where
  sound sound := second.sound (first.sound sound)
  attempted kind tried := second.attempted kind (first.attempted kind tried)
  shown shown := second.shown (first.shown shown)
  token := by
    rcases second.token with same | fresh
    · rw [same]
      exact first.token
    · exact .inr fresh

theorem Keeps.earlier {h h' : Handle} {issued' : Nat} (kept : h.Keeps issued' h')
    (earlier : issued ≤ issued') : h.Keeps issued h' :=
  { kept with token := kept.token.imp_right fun fresh token mem => earlier.trans (fresh token mem) }

/-- A write of other columns only. -/
theorem Keeps.stamped (h : Handle) (m : Markers) : h.Keeps issued (h.stamped m) where
  sound valid := valid.of_columns rfl id
  attempted kind := by cases kind <;> exact id
  shown := id
  token := .inl rfl

section

variable {h : Handle}

/-- A row that is not active has no more to show than its name and its counts. -/
theorem Sound.of_inactive {h' : Handle} (sound : h.Sound) (inactive : ¬ h'.active)
    (named : h'.subscribedForNotify → h'.continuationClientTurnId.isSome)
    (counts : h'.retryCount = h.retryCount ∧ h'.maxRetries = h.maxRetries) : h'.Sound where
  active active := absurd active inactive
  named := named
  retries := by rw [counts.1, counts.2]; exact sound.retries
  budget taken := absurd (.inr taken) inactive
  limit := counts.2.trans sound.limit

theorem terminal_inactive {h : Handle} (final : h.state.terminal) : ¬ h.active := by
  rintro active
  unfold HandleState.terminal at final
  unfold Handle.active at active
  obtain final | final | final := final <;> rw [final] at active <;> simp at active

theorem terminalStateData_keeps (h : Handle) (status : TerminalStatus) (now : Time) :
    (h.terminalStateData status now).retryCount = h.retryCount ∧
    (h.terminalStateData status now).maxRetries = h.maxRetries ∧
    (h.terminalStateData status now).continuationClientTurnId = h.continuationClientTurnId ∧
    (h.terminalStateData status now).continuationArtifacts = h.continuationArtifacts ∧
    (h.terminalStateData status now).continuationExternal = h.continuationExternal ∧
    (h.terminalStateData status now).continuationAssistantMessageId =
      h.continuationAssistantMessageId ∧
    (h.terminalStateData status now).claimToken = h.claimToken := by
  cases status <;> exact ⟨rfl, rfl, rfl, rfl, rfl, rfl, rfl⟩

/-- A row ends where it stands. -/
theorem keeps_ended {recorded : Handle} (status : TerminalStatus) (now : Time)
    (same : h.Keeps issued recorded) (sound : h.Sound → recorded.retryCount = h.retryCount ∧
      recorded.maxRetries = h.maxRetries)
    (named : h.Sound → recorded.subscribedForNotify → recorded.continuationClientTurnId.isSome) :
    h.Keeps issued (recorded.terminalStateData status now) := by
  obtain ⟨retries, limit, name, artifacts, external, message, token⟩ :=
    recorded.terminalStateData_keeps status now
  refine ⟨fun valid => ?_, fun kind tried => ?_, fun shown => ?_, ?_⟩
  · refine valid.of_inactive (terminal_inactive ?_) ?_ ⟨retries.trans (sound valid).1,
      limit.trans (sound valid).2⟩
    · rw [terminalStateData_state]
      exact status.state_terminal
    · rw [name]
      unfold subscribedForNotify
      rw [terminalStateData_owner, terminalStateData_decision]
      exact named valid
  · have before := same.attempted kind tried
    cases kind
    · unfold attempt at before ⊢
      rw [artifacts]
      exact before
    · unfold attempt at before ⊢
      rw [external]
      exact before
  · rw [message]
    exact same.shown shown
  · rw [token]
    exact same.token

theorem keeps_claimCurrentTurn (terminal : CanonicalTerminal) (now : Time) :
    h.Keeps issued (h.claimCurrentTurn terminal now) := by
  obtain ⟨retries, limit, name, artifacts, external, message, token⟩ :=
    ({ h with
      narrationOwner := some .currentTurn
      narrationDecision := some .currentTurnInline
      narrationDecisionAt := some now
      terminalObservedAt := some now
      terminalSnapshotJson := some (.observed terminal) } : Handle).terminalStateData_keeps
        terminal.status now
  refine ⟨fun valid => ?_, fun kind tried => ?_, fun shown => ?_, .inl token⟩
  · refine valid.of_inactive (terminal_inactive ?_) (fun owned => ?_) ⟨retries, limit⟩
    · rw [claimCurrentTurn, terminalStateData_state]
      exact terminal.status.state_terminal
    · have owner := owned.1
      rw [claimCurrentTurn, terminalStateData_owner] at owner
      cases owner
  · cases kind
    · exact (congrArg (·.attemptedAt.isSome) artifacts).trans tried
    · exact (congrArg (·.attemptedAt.isSome) external).trans tried
  · exact (congrArg Option.isSome message).trans shown

/-- A row that its continuation owns, named and with a snapshot, becomes ready. -/
theorem keeps_promoted {owned : Handle} (now : Time)
    (wellFormed : h.Sound → owned.WellFormed)
    (counts : owned.retryCount = h.retryCount ∧
      (h.Sound → owned.maxRetries = asyncContinuationMaxRetries))
    (attempts : owned.continuationArtifacts = h.continuationArtifacts ∧
      owned.continuationExternal = h.continuationExternal)
    (shown : owned.continuationAssistantMessageId = h.continuationAssistantMessageId)
    (token : owned.claimToken = h.claimToken) : h.Keeps issued (owned.promote now) where
  token := .inl token
  sound valid :=
    { active := fun _ => ⟨(wellFormed valid).owner, (wellFormed valid).decision,
        (wellFormed valid).clientTurn, (wellFormed valid).snapshot⟩
      named := fun _ => (wellFormed valid).clientTurn
      retries := by
        change owned.retryCount ≤ owned.maxRetries
        rw [counts.1, counts.2 valid, ← valid.limit]
        exact valid.retries
      budget := fun taken => by rcases taken with taken | taken <;> cases taken
      limit := counts.2 valid }
  attempted kind tried := by
    cases kind
    · exact (congrArg (·.attemptedAt.isSome) attempts.1).trans tried
    · exact (congrArg (·.attemptedAt.isSome) attempts.2).trans tried
  shown some := (congrArg Option.isSome shown).trans some

theorem keeps_finalizeTerminal (terminal : CanonicalTerminal) (now : Time) :
    h.Keeps issued (h.finalizeTerminal terminal now) := by
  unfold finalizeTerminal
  split
  · rename_i subscribed
    exact keeps_promoted now
      (fun valid => ⟨subscribed.1, subscribed.2, valid.named subscribed, rfl⟩)
      ⟨rfl, fun valid => valid.limit⟩ ⟨rfl, rfl⟩ rfl rfl
  · rename_i other
    refine keeps_ended terminal.status now ⟨fun valid => ?_, fun kind => ?_, id, .inl rfl⟩
      (fun _ => ⟨rfl, rfl⟩) fun valid subscribed => absurd subscribed other
    · exact valid.of_columns rfl fun _ => rfl
    · cases kind <;> exact id

/-- A write that leaves the row in a state that is not active, its counts as they are. -/
theorem keeps_inactive {h' : Handle} (inactive : ¬ h'.active)
    (named : h.Sound → h'.subscribedForNotify → h'.continuationClientTurnId.isSome)
    (counts : h.Sound → h'.retryCount = h.retryCount ∧ h'.maxRetries = h.maxRetries)
    (attempts : h'.continuationArtifacts = h.continuationArtifacts ∧
      h'.continuationExternal = h.continuationExternal)
    (shown : h.continuationAssistantMessageId.isSome → h'.continuationAssistantMessageId.isSome)
    (token : h'.claimToken = h.claimToken ∨ h'.claimToken = none) : h.Keeps issued h' where
  token := token.imp_right fun none token mem => by
    rw [none] at mem
    cases mem
  sound valid := valid.of_inactive inactive (named valid) (counts valid)
  attempted kind tried := by
    cases kind
    · exact (congrArg (·.attemptedAt.isSome) attempts.1).trans tried
    · exact (congrArg (·.attemptedAt.isSome) attempts.2).trans tried
  shown := shown

theorem keeps_exhaustDepth (now : Time) : h.Keeps issued (h.exhaustDepth now) :=
  keeps_inactive (by rintro (state | state | state) <;> cases state)
    (fun _ subscribed => by cases subscribed.2) (fun _ => ⟨rfl, rfl⟩) ⟨rfl, rfl⟩ id (.inl rfl)

theorem keeps_subscribe (now : Time) (clientTurnId : String) :
    h.Keeps issued (h.subscribe now clientTurnId) :=
  keeps_inactive (by rintro (state | state | state) <;> cases state) (fun _ _ => rfl)
    (fun valid => ⟨rfl, valid.limit.symm⟩) ⟨rfl, rfl⟩ id (.inl rfl)

/-- The continuation takes a row over where it stands. -/
theorem keeps_notifyContinuation (now : Time) (clientTurnId : String) :
    h.Keeps issued (h.notifyContinuation now clientTurnId) where
  sound valid :=
    { active := fun active => ⟨rfl, rfl, rfl, (valid.active active).snapshot⟩
      named := fun _ => rfl
      retries := by
        change h.retryCount ≤ asyncContinuationMaxRetries
        rw [← valid.limit]
        exact valid.retries
      budget := fun taken => by
        change h.retryCount < asyncContinuationMaxRetries
        rw [← valid.limit]
        exact valid.budget taken
      limit := rfl }
  attempted kind := by cases kind <;> exact id
  shown := id
  token := .inl rfl

theorem keeps_upgradeLegacy (now : Time) (clientTurnId : String) :
    h.Keeps issued (h.upgradeLegacy now clientTurnId) := by
  unfold upgradeLegacy
  split
  · exact keeps_subscribe now clientTurnId
  · exact keeps_notifyContinuation now clientTurnId

theorem keeps_noteRelease (outcome : SourceTurnOutcome) :
    h.Keeps issued (h.noteRelease outcome) := by
  unfold noteRelease
  split
  · exact ⟨fun valid => valid.of_columns rfl id, fun kind => by cases kind <;> exact id, id,
      .inl rfl⟩
  · exact .refl h

theorem keeps_autoSubscribe (outcome : SourceTurnOutcome) (now : Time) (clientTurnId : String) :
    h.Keeps issued (h.autoSubscribe outcome now clientTurnId) := by
  have released : h.Keeps issued (h.noteRelease outcome) := h.keeps_noteRelease outcome
  have ended : (h.noteRelease outcome).terminalSnapshotJson = h.terminalSnapshotJson := by
    unfold noteRelease
    split <;> rfl
  unfold autoSubscribe
  dsimp only
  split
  · rename_i before
    refine released.trans (keeps_promoted now (fun _ => ⟨rfl, rfl, rfl, ?_⟩)
      ⟨rfl, fun _ => rfl⟩ ⟨rfl, rfl⟩ rfl rfl)
    change (h.noteRelease outcome).terminalSnapshotJson.isSome
    rw [ended]
    exact before.1
  · split
    · exact released.trans (keeps_subscribe now clientTurnId)
    · exact released.trans (keeps_notifyContinuation now clientTurnId)

theorem keeps_claimLivePresent (now : Time) (unowned : h.narrationOwner = none) :
    h.Keeps issued (h.claimLivePresent now) where
  sound valid := by
    have inactive : ¬ h.active := fun active => by
      have owner := (valid.active active).owner
      rw [unowned] at owner
      cases owner
    exact valid.of_inactive inactive (fun subscribed => by cases subscribed.1) ⟨rfl, rfl⟩
  attempted kind := by cases kind <;> exact id
  shown := id
  token := .inl rfl

/-- The snapshot of a row is written. -/
theorem keeps_snapshot (snapshot : TerminalSnapshot) :
    h.Keeps issued { h with terminalSnapshotJson := some snapshot } where
  sound valid := valid.of_columns rfl fun _ => rfl
  attempted kind := by cases kind <;> exact id
  shown := id
  token := .inl rfl

theorem keeps_recordCompletion (status : TerminalStatus) (snapshot : TerminalSnapshot)
    (now : Time) (clientTurnId : String) :
    h.Keeps issued (h.recordCompletion status snapshot now clientTurnId) := by
  unfold recordCompletion
  dsimp only
  split
  · rename_i ready
    split
    · exact keeps_promoted now (fun _ => ⟨rfl, rfl, rfl, rfl⟩) ⟨rfl, fun _ => rfl⟩ ⟨rfl, rfl⟩ rfl
        rfl
    · rename_i unhealed
      have healthy : ¬ h.needsContinuationHeal := fun heal => unhealed ⟨heal, ready.2.1⟩
      have subscribed : h.subscribedForNotify :=
        ⟨ready.2.2.1.resolve_right healthy, ready.2.2.2.resolve_right healthy⟩
      exact keeps_promoted now
        (fun valid => ⟨subscribed.1, subscribed.2, valid.named subscribed, rfl⟩)
        ⟨rfl, fun valid => valid.limit⟩ ⟨rfl, rfl⟩ rfl rfl
  · split
    · refine keeps_ended status now ((keeps_snapshot snapshot).trans
        (keeps_notifyContinuation now clientTurnId)) (fun valid => ⟨rfl, valid.limit.symm⟩)
        fun _ _ => rfl
    · exact keeps_ended status now (keeps_snapshot snapshot) (fun _ => ⟨rfl, rfl⟩)
        fun valid => valid.named

/-- A row that was ready or taken is so again, with what it had. -/
theorem keeps_reactivated {h' : Handle} (before : h.active)
    (same : h'.narrationOwner = h.narrationOwner ∧ h'.narrationDecision = h.narrationDecision ∧
      h'.continuationClientTurnId = h.continuationClientTurnId ∧
      h'.terminalSnapshotJson = h.terminalSnapshotJson ∧ h'.maxRetries = h.maxRetries)
    (retries : h.Sound → h'.retryCount ≤ h.maxRetries)
    (budget : h.Sound → h'.state = .claimed ∨ h'.state = .dispatched →
      h'.retryCount < h.maxRetries)
    (attempts : h'.continuationArtifacts = h.continuationArtifacts ∧
      h'.continuationExternal = h.continuationExternal)
    (shown : h'.continuationAssistantMessageId = h.continuationAssistantMessageId)
    (token : h'.claimToken = h.claimToken ∨ ∀ token ∈ h'.claimToken, issued ≤ token) :
    h.Keeps issued h' where
  token := token
  sound valid :=
    have wellFormed := valid.active before
    { active := fun _ => ⟨same.1.trans wellFormed.owner, same.2.1.trans wellFormed.decision,
        (congrArg Option.isSome same.2.2.1).trans wellFormed.clientTurn,
        (congrArg Option.isSome same.2.2.2.1).trans wellFormed.snapshot⟩
      named := fun _ => (congrArg Option.isSome same.2.2.1).trans wellFormed.clientTurn
      retries := same.2.2.2.2 ▸ retries valid
      budget := fun taken => same.2.2.2.2 ▸ budget valid taken
      limit := same.2.2.2.2.trans valid.limit }
  attempted kind tried := by
    cases kind
    · exact (congrArg (·.attemptedAt.isSome) attempts.1).trans tried
    · exact (congrArg (·.attemptedAt.isSome) attempts.2).trans tried
  shown some := (congrArg Option.isSome shown).trans some

theorem keeps_claim {token : Token} (fresh : issued ≤ token) (now ttl : Time)
    (ready : h.state = .ready) (left : h.retryCount < h.maxRetries) :
    h.Keeps issued (h.claim token now ttl) :=
  keeps_reactivated (.inl ready) ⟨rfl, rfl, rfl, rfl, rfl⟩ (fun valid => valid.retries)
    (fun _ _ => left) ⟨rfl, rfl⟩ rfl (.inr fun _ mem => Option.some.inj mem ▸ fresh)

theorem keeps_release (retryAt : Time) (code message : Option String)
    (claimed : h.state = .claimed) : h.Keeps issued (h.release retryAt code message) :=
  keeps_reactivated (.inr (.inl claimed)) ⟨rfl, rfl, rfl, rfl, rfl⟩ (fun valid => valid.retries)
    (fun _ taken => by rcases taken with taken | taken <;> cases taken) ⟨rfl, rfl⟩ rfl
    (.inr nofun)

theorem keeps_dispatch (receipt : String) (expiresAt now : Time) (claimed : h.state = .claimed) :
    h.Keeps issued (h.dispatch receipt expiresAt now) :=
  keeps_reactivated (.inr (.inl claimed)) ⟨rfl, rfl, rfl, rfl, rfl⟩ (fun valid => valid.retries)
    (fun valid _ => valid.budget (.inl claimed)) ⟨rfl, rfl⟩ rfl (.inl rfl)

theorem keeps_requeue (retryAt : Time) (code message : String)
    (taken : h.state = .claimed ∨ h.state = .dispatched)
    (left : h.retryCount + 1 < h.maxRetries) : h.Keeps issued (h.requeue retryAt code message) :=
  keeps_reactivated (.inr taken) ⟨rfl, rfl, rfl, rfl, rfl⟩ (fun _ => left.le)
    (fun _ taken => by rcases taken with taken | taken <;> cases taken) ⟨rfl, rfl⟩ rfl
    (.inr nofun)

/-- The last retry is counted. -/
theorem keeps_exhaustRetries (message : String) {shown : Option Id} (now : Time)
    (taken : h.state = .claimed ∨ h.state = .dispatched)
    (still : h.continuationAssistantMessageId.isSome → shown.isSome) :
    h.Keeps issued (h.exhaustRetries message shown now) where
  sound valid :=
    { active := by rintro (state | state | state) <;> cases state
      named := valid.named
      retries := valid.budget taken
      budget := fun taken => by rcases taken with taken | taken <;> cases taken
      limit := valid.limit }
  attempted kind := by cases kind <;> exact id
  shown := still
  token := .inr nofun

theorem keeps_complete (now : Time) : h.Keeps issued (h.complete now) :=
  keeps_inactive (by rintro (state | state | state) <;> cases state) (fun valid => valid.named)
    (fun _ => ⟨rfl, rfl⟩) ⟨rfl, rfl⟩ id (.inr rfl)

theorem keeps_fail (code message : String) {shown : Option Id} (now : Time)
    (still : h.continuationAssistantMessageId.isSome → shown.isSome) :
    h.Keeps issued (h.fail code message shown now) :=
  keeps_inactive (by rintro (state | state | state) <;> cases state) (fun valid => valid.named)
    (fun _ => ⟨rfl, rfl⟩) ⟨rfl, rfl⟩ still (.inr rfl)

theorem keeps_settleDelivered (message : Id) (now : Time) :
    h.Keeps issued (h.settleDelivered message now) :=
  keeps_inactive (by rintro (state | state | state) <;> cases state) (fun valid => valid.named)
    (fun _ => ⟨rfl, rfl⟩) ⟨rfl, rfl⟩ (fun _ => rfl) (.inr rfl)

theorem keeps_publishedOn (message : Id) : h.Keeps issued (h.publishedOn message) where
  sound valid := valid.of_columns rfl id
  attempted kind := by cases kind <;> exact id
  shown _ := rfl
  token := .inl rfl

theorem keeps_setAttempt (kind : DeliveryAttemptKind) {a : DeliveryAttempt}
    (still : (h.attempt kind).attemptedAt.isSome → a.attemptedAt.isSome) :
    h.Keeps issued (h.setAttempt kind a) where
  sound valid := by cases kind <;> exact valid.of_columns rfl id
  attempted kind' tried := by
    cases kind <;> cases kind'
    · exact still tried
    · exact tried
    · exact tried
    · exact still tried
  shown := by cases kind <;> exact id
  token := by cases kind <;> exact .inl rfl

theorem keeps_recordAttempt (kind : DeliveryAttemptKind) (result : DeliveryAttemptResult)
    (error : Option String) (now : Time) :
    h.Keeps issued (h.recordAttempt kind result error now) := by
  refine keeps_setAttempt kind fun tried => ?_
  split <;> exact tried

theorem keeps_settleExpiredAttempt (kind : DeliveryAttemptKind) (error : String) :
    h.Keeps issued (h.settleExpiredAttempt kind error) := by
  unfold settleExpiredAttempt
  split
  · exact keeps_setAttempt kind id
  · exact .refl h

end

end Handle

/-! ## The transactions -/

/-- What every transaction keeps: each row, as `Keeps` says, and a row that it creates is sound. -/
structure KeepsRows (t t' : Tables) : Prop where
  rows : ∀ k h, t.handles.get? k = some h →
    ∃ h', t'.handles.get? k = some h' ∧ h.Keeps t.uuid h'
  issued : t.uuid ≤ t'.uuid
  fresh : ∀ k h', t.handles.get? k = none → t'.handles.get? k = some h' → h'.Sound

section

variable {t t' t'' : Tables} {id : Id} {row : Handle}

/-- Where no row is created. -/
theorem KeepsRows.of_rows (rows : ∀ k h, t.handles.get? k = some h →
      ∃ h', t'.handles.get? k = some h' ∧ h.Keeps t.uuid h')
    (absent : ∀ k, t.handles.get? k = none → t'.handles.get? k = none)
    (issued : t.uuid ≤ t'.uuid) : KeepsRows t t' where
  rows := rows
  issued := issued
  fresh k _ none some := by cases (absent k none).symm.trans some

theorem KeepsRows.of_handles (same : t'.handles = t.handles) (issued : t.uuid ≤ t'.uuid) :
    KeepsRows t t' :=
  .of_rows (fun _ h found => ⟨h, by rw [same]; exact found, .refl h⟩)
    (fun _ absent => by rw [same]; exact absent) issued

theorem KeepsRows.refl (t : Tables) : KeepsRows t t := .of_handles rfl (Nat.le_refl _)

theorem KeepsRows.trans (first : KeepsRows t t') (second : KeepsRows t' t'') :
    KeepsRows t t'' where
  rows k h found := by
    obtain ⟨h', found', kept⟩ := first.rows k h found
    obtain ⟨h'', found'', kept'⟩ := second.rows k h' found'
    exact ⟨h'', found'', kept.trans (kept'.earlier first.issued)⟩
  issued := first.issued.trans second.issued
  fresh k h'' absent found'' := by
    cases found' : t'.handles.get? k with
    | none => exact second.fresh k h'' found' found''
    | some h' =>
      obtain ⟨h, found, kept⟩ := second.rows k h' found'
      obtain rfl := Option.some.inj (found.symm.trans found'')
      exact kept.sound (first.fresh k h' absent found')

/-- A write of the row `id`, by what is known of it. -/
theorem KeepsRows.write (t : Tables) (id : Id) (now : Time) {f : Handle → Handle}
    (kept : ∀ h, t.handles.get? id = some h → h.Keeps t.uuid (f h)) :
    KeepsRows t (t.write id now f) := by
  refine .of_rows (fun k h found => ?_) (fun k absent => ?_) (Nat.le_refl _)
  · obtain ⟨m, after⟩ := write_row found id now f
    refine ⟨_, after, Handle.Keeps.trans ?_ (.stamped _ m)⟩
    split
    · rename_i same
      exact kept h (same ▸ found)
    · exact .refl h
  · rw [get?_write, absent]
    exact ite_self none

theorem KeepsRows.write_found (found : t.handles.get? id = some row) (now : Time)
    {f : Handle → Handle} (kept : row.Keeps t.uuid (f row)) : KeepsRows t (t.write id now f) :=
  .write t id now fun h found' => by
    obtain rfl := Option.some.inj (found.symm.trans found')
    exact kept

theorem KeepsRows.writeIf (t : Tables) (id : Id) (now : Time) (p : Handle → Bool)
    {f : Handle → Handle} (kept : ∀ h, p h = true → h.Keeps t.uuid (f h)) :
    KeepsRows t (t.writeIf id now p f).2 := by
  unfold Tables.writeIf
  split
  · rename_i holds
    refine .write t id now fun h found => kept h ?_
    rw [found] at holds
    exact holds
  · exact .refl t

theorem KeepsRows.stamp (t : Tables) (id chatId : Id) (pick : Nat) (now : Time) :
    KeepsRows t (t.stampCatchUpQueueMarkersInTx id chatId pick now) := by
  refine .of_rows (fun k h found => ?_) (fun k absent => ?_) ?_
  · obtain ⟨m, after⟩ := stamp_row found id chatId pick now
    exact ⟨_, after, .stamped h m⟩
  · unfold stampCatchUpQueueMarkersInTx
    split
    · exact absent
    · split
      · exact absent
      · simp only [KeyedTable.get?_update, KeyedTable.get?_updateWhere, absent, Option.map_none,
          ite_self]
  · unfold stampCatchUpQueueMarkersInTx
    split
    · exact Nat.le_refl _
    · split
      · exact Nat.le_refl _
      · exact Nat.le_succ _

/-- A handle is created with nothing to narrate yet. -/
theorem KeepsRows.mint (t : Tables) (job : NewJob) : KeepsRows t (t.mintHandle job) where
  rows k h found := ⟨h, mint_row found job, .refl h⟩
  issued := by
    unfold mintHandle
    split
    · exact Nat.le_refl _
    · exact Nat.le_succ _
  fresh k h' absent found := by
    unfold mintHandle at found
    split at found
    · cases absent.symm.trans found
    · dsimp only at found
      cases created : t.handles.create t.uuid _ with
      | none =>
        rw [created, Option.getD_none] at found
        cases absent.symm.trans found
      | some handles =>
        rw [created, Option.getD_some, KeyedTable.get?_create created] at found
        split at found
        · obtain rfl := Option.some.inj found
          exact
            { active := by rintro (state | state | state) <;> cases state
              named := fun subscribed => by cases subscribed.1
              retries := Nat.zero_le _
              budget := fun taken => by rcases taken with taken | taken <;> cases taken
              limit := rfl }
        · cases absent.symm.trans found

theorem KeepsRows.observe (t : Tables) (ref : OwnedRef) (pick : Nat) (now : Time) :
    KeepsRows t (t.observeForCurrentTurn ref pick now).2 := by
  unfold observeForCurrentTurn
  split
  · exact .refl t
  · rename_i id row _
    split
    · exact .refl t
    · exact .refl t
    · rename_i terminal _
      split
      · unfold finalizeTerminalHandleInTx
        split
        · have written : KeepsRows t (t.write id now (·.finalizeTerminal terminal now)) :=
            .write t id now fun h _ => h.keeps_finalizeTerminal terminal now
          dsimp only
          split
          · exact written.trans (.stamp _ id _ pick now)
          · exact written
        · exact .refl t
      · exact .write t id now fun h _ => h.keeps_claimCurrentTurn _ now

theorem KeepsRows.subscribe (digest : Id → String) (t : Tables) (ref : OwnedRef) (now : Time) :
    KeepsRows t (subscribePending digest t ref now).2 := by
  unfold subscribePending
  split
  · exact .refl t
  · rename_i id row _
    split
    · exact .refl t
    · dsimp only
      split
      · exact .refl t
      · split
        · exact .refl t
        · split
          · split
            · exact .write t id now fun h _ => h.keeps_exhaustDepth now
            · exact .write t id now fun h _ => h.keeps_upgradeLegacy now _
          · exact .refl t
          · split
            · exact .write t id now fun h _ => h.keeps_claimCurrentTurn _ now
            · split
              · exact .write t id now fun h _ => h.keeps_exhaustDepth now
              · exact .write t id now fun h _ => h.keeps_subscribe now _

theorem KeepsRows.subscribeUnresolved (digest : Id → String) (outcome : SourceTurnOutcome)
    (chatId : Id) (pick : Id → Nat) (now : Time) (t : Tables) (id : Id) :
    KeepsRows t (subscribeUnresolved digest outcome chatId pick now t id) := by
  unfold Tables.subscribeUnresolved
  split
  · exact .refl t
  · split
    · exact .refl t
    · split
      · exact .write t id now fun h _ => h.keeps_exhaustDepth now
      · have written (name : String) :
            KeepsRows t (t.write id now (·.autoSubscribe outcome now name)) :=
          .write t id now fun h _ => h.keeps_autoSubscribe outcome now name
        dsimp only
        split
        · exact (written _).trans (.stamp _ id chatId _ now)
        · exact written _

theorem KeepsRows.fold (digest : Id → String) (outcome : SourceTurnOutcome) (chatId : Id)
    (pick : Id → Nat) (now : Time) (ids : List Id) (t : Tables) :
    KeepsRows t (ids.foldl (Tables.subscribeUnresolved digest outcome chatId pick now) t) := by
  induction ids generalizing t with
  | nil => exact .refl t
  | cons id ids ih =>
    exact (subscribeUnresolved digest outcome chatId pick now t id).trans (ih _)

theorem KeepsRows.finalizeSourceTurn {digest : Id → String} {turn : SourceTurn}
    {outcome : SourceTurnOutcome} {message : Option Id} {pick : Id → Nat} {now : Time}
    {counts : FinalizedSourceTurn}
    (done : finalizeSourceTurn digest t turn outcome message pick now = some (counts, t')) :
    KeepsRows t t' := by
  unfold Tables.finalizeSourceTurn at done
  split at done
  · cases done
  · obtain ⟨-, rfl⟩ := Prod.mk.inj (Option.some.inj done)
    have stamped : KeepsRows t (t.stampSourceFinalized turn now) := by
      refine .of_rows (fun k h found => ?_) (fun k absent => ?_) (Nat.le_refl _)
      · obtain ⟨m, row⟩ := stampSourceFinalized_row found turn now
        refine ⟨_, row, Handle.Keeps.trans ?_ (.stamped _ m)⟩
        split
        · unfold Handle.finalizeSource
          split
          · exact ⟨fun valid => valid.of_columns rfl id, fun kind => by cases kind <;> exact id, id,
              .inl rfl⟩
          · exact .refl h
        · exact .refl h
      · simp only [stampSourceFinalized, KeyedTable.get?_updateWhere, absent, Option.map_none]
    exact stamped.trans (.fold digest outcome turn.chatId pick now _ _)

theorem KeepsRows.completion (digest : Id → String) (t : Tables) (call : CompletionCall)
    (pick : Nat) (now : Time) :
    KeepsRows t (recordCanonicalCompletion digest t call pick now).2 := by
  unfold recordCanonicalCompletion
  split
  · exact .refl t
  · rename_i id row _
    have written (name : String) : KeepsRows t (t.write id now
        (·.recordCompletion call.terminalStatus call.terminalSnapshot now name)) :=
      .write t id now fun h _ => h.keeps_recordCompletion _ _ now name
    dsimp only
    split
    · exact (written _).trans (.stamp _ id _ pick now)
    · exact written _

/-- A message that is shown stays so when the handle fails. -/
theorem persist_shown (t : Tables) (id : Id) (row : Handle)
    (shown : row.continuationAssistantMessageId.isSome) :
    t.persistPermanentFailureMessage id row = (row.continuationAssistantMessageId, t) := by
  obtain ⟨message, same⟩ := Option.isSome_iff_exists.mp shown
  rw [persistPermanentFailureMessage, same]

theorem KeepsRows.persist (t : Tables) (id : Id) (row : Handle) :
    KeepsRows t (t.persistPermanentFailureMessage id row).2 := by
  refine .of_handles (persist_handles t id row) ?_
  unfold persistPermanentFailureMessage
  split
  · exact Nat.le_refl _
  · split
    · exact Nat.le_refl _
    · exact Nat.le_succ _

theorem KeepsRows.requeue (t : Tables) (id : Id) (token : Token) (retryAt : Time)
    (code message : String) (proof : Option DispatchedProof) (now : Time) :
    KeepsRows t (t.requeueClaim id token retryAt code message proof now).2 := by
  unfold requeueClaim
  split
  · exact .refl t
  · rename_i row filtered
    obtain ⟨found, -⟩ := Option.filter_eq_some_iff.mp filtered
    split
    · exact .refl t
    · split
      · exact .refl t
      · rename_i taken
        have taken : row.state = .claimed ∨ row.state = .dispatched := by tauto
        split
        · have handles := persist_handles t id row
          refine (persist t id row).trans (.write_found (handles ▸ found) now ?_)
          refine row.keeps_exhaustRetries message now taken fun shown => ?_
          rw [persist_shown t id row shown]
          exact shown
        · rename_i left
          exact .write_found found now (row.keeps_requeue retryAt code message taken
            (Nat.not_le.mp left))

theorem KeepsRows.rotate (t : Tables) (c : Candidate) (now : Time) :
    KeepsRows t (t.rotate c now) := by
  unfold Tables.rotate
  split
  · refine .of_rows (fun k h found => ?_) (fun k absent => ?_) (Nat.le_refl _)
    · simp only [KeyedTable.get?_updateWhere, found, Option.map_some]
      refine ⟨_, rfl, ?_⟩
      split
      · exact .stamped h { h.markers with updatedAt := now }
      · exact .refl h
    · simp only [KeyedTable.get?_updateWhere, absent, Option.map_none]
  · exact .refl t

theorem KeepsRows.settle (t : Tables) (id : Id) (row : Handle) (token : Option Token) (heal : Bool)
    (now : Time) : KeepsRows t (t.settleDeliveredLocked id row token heal now).2 := by
  have open_ (settled : Id → Option SettleDelivered) :
      KeepsRows t (settleDeliveredLocked.settleOpen t id row token heal now settled).2 := by
    unfold settleDeliveredLocked.settleOpen
    dsimp only
    split
    · split
      · exact .refl t
      · split
        · exact .write t id now fun h _ => h.keeps_settleDelivered _ now
        · exact .refl t
    · exact .refl t
  unfold settleDeliveredLocked
  dsimp only
  split
  · split
    · exact .refl t
    · exact open_ _
  · exact open_ _

theorem KeepsRows.fail (t : Tables) (id : Id) (token : Token) (code message : String)
    (now : Time) : KeepsRows t (t.failClaim id token code message now).2 := by
  unfold failClaim
  split
  · exact .refl t
  · rename_i row found
    split
    · have healed := settle t id row none true now
      split
      · rename_i outcome
        rw [outcome] at healed
        exact healed
      · exact .refl t
    · split
      · exact .refl t
      · have settled := settle t id row (some token) false now
        split
        · rename_i outcome
          rw [outcome] at settled
          exact settled
        · have handles := persist_handles t id row
          refine (persist t id row).trans (.write_found (handles ▸ found) now ?_)
          refine row.keeps_fail code message now fun shown => ?_
          rw [persist_shown t id row shown]
          exact shown

end

/-- Every step keeps every row. -/
theorem keepsRows_step (digest : Id → String) (s : System) (e : Event) :
    KeepsRows s.tables (s.step digest e).tables := by
  cases e with
  | mintHandle job => exact .mint s.tables job
  | setChat | setMediaJob | setDocumentJob | setSandboxJob | attach =>
    exact .of_handles rfl (Nat.le_refl _)
  | postMessage => exact .of_handles rfl (Nat.le_succ _)
  | observeForCurrentTurn ref pick now => exact .observe s.tables ref pick now
  | subscribePending ref now => exact .subscribe digest s.tables ref now
  | finalizeSourceTurn turn outcome message pick now =>
    simp only [System.step]
    split
    · rename_i done
      exact .finalizeSourceTurn done
    · exact .refl _
  | claimOpenTurnLivePresent kind job now =>
    simp only [System.step, System.withTables, claimOpenTurnLivePresent]
    split
    · exact .refl _
    · rename_i id row locked
      split
      · exact .refl _
      · split
        · exact .refl _
        · rename_i unowned
          exact .write_found (lockCanonical_row locked) now
            (row.keeps_claimLivePresent now (not_not.mp unowned))
  | recordCanonicalCompletion caller call pick now =>
    simp only [System.step]
    split
    · exact .completion digest s.tables _ pick now
    · exact .refl _
  | selectCandidates => exact .refl _
  | readCandidate c now =>
    simp only [System.step]
    split
    · split
      · exact .refl _
      · exact .rotate s.tables c now
    · exact .refl _
  | claimReadyHeadForChat chatId ttl locked now =>
    simp only [System.step, System.withTables, claimReadyHeadForChat]
    split
    · exact .refl _
    · rename_i id row head
      obtain ⟨found, ready⟩ := KeyedTable.mem_select_iff.mp (queueHead_mem head)
      simp only [claimable, decide_eq_true_eq] at ready
      have claimed : KeepsRows s.tables
          (s.tables.write id now fun h => h.claim s.tables.uuid now ttl) :=
        .write_found found now
          (row.keeps_claim (Nat.le_refl _) now ttl ready.1.1 ready.1.2.2.2.2)
      exact claimed.trans (.of_handles rfl (Nat.le_succ _))
  | releaseClaimToReady id token retryAt code message now =>
    refine .writeIf _ _ _ _ fun h claimed => h.keeps_release retryAt code message ?_
    simp only [claimedBy, decide_eq_true_eq] at claimed
    exact claimed.1
  | markDispatched id token receipt expiresAt now =>
    refine .writeIf _ _ _ _ fun h claimed => h.keeps_dispatch receipt expiresAt now ?_
    simp only [claimedBy, decide_eq_true_eq] at claimed
    exact claimed.1
  | claimDeliveryAttempt id token kind now =>
    simp only [System.step, System.withTables, claimDeliveryAttempt]
    split
    · exact .refl _
    · split
      · exact .refl _
      · exact .write _ id now fun h _ => h.keeps_setAttempt kind fun _ => rfl
  | recordDeliveryAttemptResult id token kind result error now =>
    exact .writeIf _ _ _ _ fun h _ => h.keeps_recordAttempt kind result error now
  | persistOutputOnce id token message now =>
    exact .writeIf _ _ _ _ fun h _ => h.keeps_publishedOn message
  | stampHandleMessageIds id message now =>
    exact .write _ id now fun h _ => h.keeps_publishedOn message
  | settleExpiredDeliveryAttempts id token now =>
    exact .writeIf _ _ _ _ fun h _ =>
      (h.keeps_settleExpiredAttempt .artifacts _).trans (Handle.keeps_settleExpiredAttempt ..)
  | requeueClaim id token retryAt code message proof now =>
    exact .requeue s.tables id token retryAt code message proof now
  | completeClaim id token now => exact .writeIf _ _ _ _ fun h _ => h.keeps_complete now
  | failClaim id token code message now => exact .fail s.tables id token code message now
  | settleDeliveredCatchUpFailure id token now =>
    simp only [System.step, System.withTables, settleDeliveredCatchUpFailure]
    split
    · exact .refl _
    · rename_i row _
      exact .settle s.tables id row (some token) true now
  | settleDeliveredCatchUpFailureByClientTurnId clientTurnId now =>
    simp only [System.step, System.withTables, settleDeliveredCatchUpFailureByClientTurnId]
    split
    · exact .refl _
    · split
      · split
        · exact .refl _
        · rename_i id row _
          exact .settle s.tables id row none true now
      · exact .refl _
  | claimFailedHandleExternalNotice id now =>
    exact .writeIf _ _ _ _ fun h _ => h.keeps_setAttempt .external fun _ => rfl
  | recordFailedHandleExternalNoticeResult id result error now =>
    exact .writeIf _ _ _ _ fun h _ => h.keeps_recordAttempt .external result error now

end Persai.JobHandle
