import Persai.JobHandle.Claims

/-!
# A claim that is gone

A claim token is given out once. When the row has it no more, no call that carries it does
anything, but for one case that is meant: a handle that has failed is completed when its job turns
out to be delivered, whoever asks.

* `step_lost`: what a call with a token does that is not the row's;
* `lost_step`: a token that is lost stays so;
* `ready_and_fenced`: handles in the queue are well-formed, and lost claims are fenced off;
* `bounded_once`: what a continuation does at most once, and how often it is tried.
-/

namespace Persai.JobHandle

open Runs Tables

/-- The handle and the claim token that a call carries. -/
def Event.claim? : Event → Option (Id × Token)
  | .releaseClaimToReady id token _ _ _ _ => some (id, token)
  | .markDispatched id token _ _ _ => some (id, token)
  | .claimDeliveryAttempt id token _ _ => some (id, token)
  | .recordDeliveryAttemptResult id token _ _ _ _ => some (id, token)
  | .persistOutputOnce id token _ _ => some (id, token)
  | .settleExpiredDeliveryAttempts id token _ => some (id, token)
  | .requeueClaim id token _ _ _ _ _ => some (id, token)
  | .completeClaim id token _ => some (id, token)
  | .failClaim id token _ _ _ => some (id, token)
  | .settleDeliveredCatchUpFailure id token _ => some (id, token)
  | _ => none

/-- The calls that settle a handle that has failed. -/
def Event.settlesFailed : Event → Option Time
  | .failClaim _ _ _ _ now => some now
  | .settleDeliveredCatchUpFailure _ _ now => some now
  | _ => none

/-- The handle has failed and its job was delivered: it is completed on the message of that. -/
def SettlesFailed (digest : Id → String) (k : Id) (s : System) (e : Event) : Prop :=
  ∃ h message, ∃ now ∈ e.settlesFailed, s.tables.handles.get? k = some h ∧ h.state = .failed ∧
    s.tables.deliveryMessageId h = some message ∧
    s.step digest e = s.withTables (s.tables.write k now (·.settleDelivered message now))

section

variable {digest : Id → String} {s : System} {e : Event} {k : Id} {token : Token} {t : Tables}

theorem writeIf_lost {p : Handle → Bool} (lost : ∀ h, t.handles.get? k = some h → p h = false)
    (now : Time) (f : Handle → Handle) : (t.writeIf k now p f).2 = t := by
  unfold writeIf
  cases found : t.handles.get? k with
  | none => rfl
  | some h => simp [lost h found]

theorem claimedBy_lost {h : Handle} (lost : h.claimToken ≠ some token) :
    claimedBy token h = false := by
  simp [claimedBy, lost]

theorem dispatchedBy_lost {h : Handle} (lost : h.claimToken ≠ some token) :
    dispatchedBy token h = false := by
  simp [dispatchedBy, lost]

/-- What settling does without the claim, which is nothing unless the handle has failed. -/
theorem settle_lost (row : Handle) (token? : Option Token)
    (lost : row.state = .failed ∨ (token?.isSome ∧ row.claimToken ≠ token?)) (heal : Bool)
    (now : Time) :
    (t.settleDeliveredLocked k row token? heal now).2 = t ∨
    ∃ message, row.state = .failed ∧ t.deliveryMessageId row = some message ∧
      (t.settleDeliveredLocked k row token? heal now).2 =
        t.write k now (·.settleDelivered message now) := by
  have open_ (settled : Id → Option SettleDelivered) :
      (settleDeliveredLocked.settleOpen t k row token? heal now settled).2 = t ∨
      ∃ message, row.state = .failed ∧ t.deliveryMessageId row = some message ∧
        (settleDeliveredLocked.settleOpen t k row token? heal now settled).2 =
          t.write k now (·.settleDelivered message now) := by
    unfold settleDeliveredLocked.settleOpen
    dsimp only
    split
    · rename_i allowed
      have failed : row.state = .failed := by
        rcases lost with failed | ⟨asked, lost⟩
        · exact failed
        · rcases allowed with ⟨-, none | same⟩ | ⟨-, failed⟩
          · rw [none] at asked
            cases asked
          · exact absurd same lost
          · exact failed
      split
      · exact .inl rfl
      · rename_i message delivered
        split
        · exact .inr ⟨message, failed, delivered, rfl⟩
        · exact .inl rfl
    · exact .inl rfl
  unfold settleDeliveredLocked
  dsimp only
  split
  · split
    · exact .inl rfl
    · exact open_ _
  · exact open_ _

/-- A call with a token that is not the row's changes nothing, or completes a handle that has
failed. -/
theorem step_lost (carries : e.claim? = some (k, token))
    (lost : ∀ h, s.tables.handles.get? k = some h → h.claimToken ≠ some token) :
    s.step digest e = s ∨ SettlesFailed digest k s e := by
  have same {t' : Tables} (kept : t' = s.tables) : s.withTables t' = s := by rw [kept]; rfl
  have claimed : ∀ h, s.tables.handles.get? k = some h → claimedBy token h = false :=
    fun h found => claimedBy_lost (lost h found)
  have dispatched : ∀ h, s.tables.handles.get? k = some h → dispatchedBy token h = false :=
    fun h found => dispatchedBy_lost (lost h found)
  cases e with
  | releaseClaimToReady | markDispatched =>
    obtain ⟨rfl, rfl⟩ := Prod.mk.inj (Option.some.inj carries)
    exact .inl (same (writeIf_lost claimed _ _))
  | recordDeliveryAttemptResult | persistOutputOnce =>
    obtain ⟨rfl, rfl⟩ := Prod.mk.inj (Option.some.inj carries)
    exact .inl (same (writeIf_lost dispatched _ _))
  | settleExpiredDeliveryAttempts =>
    obtain ⟨rfl, rfl⟩ := Prod.mk.inj (Option.some.inj carries)
    exact .inl (same (writeIf_lost (fun h found => by simp [dispatched h found]) _ _))
  | completeClaim =>
    obtain ⟨rfl, rfl⟩ := Prod.mk.inj (Option.some.inj carries)
    exact .inl (same (writeIf_lost
      (fun h found => by simp [claimed h found, dispatched h found]) _ _))
  | claimDeliveryAttempt id token' kind now =>
    obtain ⟨rfl, rfl⟩ := Prod.mk.inj (Option.some.inj carries)
    have none : (s.tables.handles.get? id).filter (dispatchedBy token') = none :=
      Option.filter_eq_none_iff.mpr fun h found => by simp [dispatched h found]
    refine .inl (same ?_)
    rw [claimDeliveryAttempt, none]
  | requeueClaim id token' retryAt code message proof now =>
    obtain ⟨rfl, rfl⟩ := Prod.mk.inj (Option.some.inj carries)
    have none : ((s.tables.handles.get? id).filter fun h => h.claimToken = some token') = none :=
      Option.filter_eq_none_iff.mpr fun h found => by simpa using lost h found
    refine .inl (same ?_)
    rw [requeueClaim, none]
  | failClaim id token' code message now =>
    obtain ⟨rfl, rfl⟩ := Prod.mk.inj (Option.some.inj carries)
    cases found : s.tables.handles.get? id with
    | none => exact .inl (same (by simp [failClaim, found]))
    | some row =>
      by_cases failed : row.state = .failed
      · have settled := settle_lost (t := s.tables) (k := id) row none (.inl failed) true now
        have result : (s.tables.failClaim id token' code message now).2 = s.tables ∨
            (s.tables.failClaim id token' code message now).2 =
              (s.tables.settleDeliveredLocked id row none true now).2 := by
          simp only [failClaim, found, if_pos failed]
          split
          · rename_i outcome
            exact .inr (by rw [outcome])
          · exact .inl rfl
        rcases result with kept | result
        · exact .inl (same kept)
        · rcases settled with kept | ⟨shown, -, delivered, written⟩
          · exact .inl (same (result.trans kept))
          · exact .inr ⟨row, shown, now, rfl, found, failed, delivered,
              congrArg s.withTables (result.trans written)⟩
      · refine .inl (same ?_)
        simp only [failClaim, found, if_neg failed]
        rw [if_pos (.inl (lost row found))]
  | settleDeliveredCatchUpFailure id token' now =>
    obtain ⟨rfl, rfl⟩ := Prod.mk.inj (Option.some.inj carries)
    cases found : s.tables.handles.get? id with
    | none => exact .inl (same (by simp [settleDeliveredCatchUpFailure, found]))
    | some row =>
      have result : s.step digest (.settleDeliveredCatchUpFailure id token' now) =
          s.withTables (s.tables.settleDeliveredLocked id row (some token') true now).2 := by
        simp only [System.step, settleDeliveredCatchUpFailure, found]
      rcases settle_lost (t := s.tables) (k := id) row (some token')
          (.inr ⟨rfl, lost row found⟩) true
        now with kept | ⟨shown, failed, delivered, written⟩
      · exact .inl (result.trans (same kept))
      · exact .inr ⟨row, shown, now, rfl, found, failed, delivered,
          result.trans (congrArg s.withTables written)⟩
  | _ => cases carries

end

/-! ## Runs -/

/-- The token has been given out, and the row has it no more. -/
def Lost (k : Id) (token : Token) (s : System) : Prop :=
  token < s.tables.uuid ∧ ∃ h ∈ s.tables.handles.get? k, h.claimToken ≠ some token

instance (k : Id) (token : Token) (s : System) : Decidable (Lost k token s) :=
  inferInstanceAs (Decidable (_ ∧ ∃ h ∈ s.tables.handles.get? k, _))

/-- A call that carries the token for the handle changes nothing, but may settle a handle that has
failed. -/
def Fenced (digest : Id → String) (k : Id) (token : Token) (s : System) (e : Event) : Prop :=
  e.claim? = some (k, token) → s.step digest e = s ∨ SettlesFailed digest k s e

/-- A claim gives out the token that the row then has. -/
def ClaimHolds (digest : Id → String) (s : System) (e : Event) : Prop :=
  ∀ chatId ttl locked now, e = .claimReadyHeadForChat chatId ttl locked now →
    ∀ k token, (s.tables.claimReadyHeadForChat chatId ttl locked now).1 = some (k, token) →
      token < (s.step digest e).tables.uuid ∧
      ∃ h, (s.step digest e).tables.handles.get? k = some h ∧ h.claimToken = some token

/-- What is ready, claimed or dispatched can be narrated by its continuation. -/
def QueueWellFormed (s : System) : Prop :=
  ∀ k h, s.tables.handles.get? k = some h → h.active →
    h.WellFormed ∧ h.retryCount ≤ h.maxRetries

def AllSound (s : System) : Prop := ∀ k h, s.tables.handles.get? k = some h → h.Sound

section

variable {digest : Id → String} {s : System} {e : Event} {k : Id} {token : Token}

theorem allSound_step (sound : AllSound s) : AllSound (s.step digest e) := by
  rintro k h' found'
  have kept := keepsRows_step digest s e
  cases found : s.tables.handles.get? k with
  | none => exact kept.fresh k h' found found'
  | some h =>
    obtain ⟨h'', found'', keeps⟩ := kept.rows k h found
    obtain rfl := Option.some.inj (found''.symm.trans found')
    exact keeps.sound (sound k h found)

theorem allSound_empty : AllSound {} := by
  rintro k h found
  have none : ({} : System).tables.handles.get? k = none := rfl
  cases none.symm.trans found

theorem allSound_run (digest : Id → String) (es : List Event) :
    EveryState (System.step digest) AllSound {} es :=
  everyState_of_preserved (C := fun _ _ => True) (fun _ _ sound _ => allSound_step sound)
    allSound_empty (everyStep_of_forall (fun _ _ => trivial) _ _)

theorem lost_step (lost : Lost k token s) : Lost k token (s.step digest e) := by
  obtain ⟨issued, h, found, other⟩ := lost
  have kept := keepsRows_step digest s e
  obtain ⟨h', found', keeps⟩ := kept.rows k h found
  refine ⟨issued.trans_le kept.issued, h', found', fun has => ?_⟩
  rcases keeps.token with same | fresh
  · exact other (same ▸ has)
  · exact absurd (fresh token has) (Nat.not_le.mpr issued)

theorem fenced_of_lost (lost : Lost k token s) : Fenced digest k token s e := by
  rintro carries
  obtain ⟨-, h, found, other⟩ := lost
  refine step_lost carries fun h' found' => ?_
  obtain rfl := Option.some.inj (found.symm.trans found')
  exact other

theorem claimHolds (digest : Id → String) (s : System) (e : Event) : ClaimHolds digest s e := by
  rintro chatId ttl locked now rfl k token claimed
  simp only [System.step, System.withTables]
  unfold claimReadyHeadForChat at claimed ⊢
  split at claimed
  · cases claimed
  · rename_i id row head
    obtain ⟨rfl, rfl⟩ := Prod.mk.inj (Option.some.inj claimed)
    obtain ⟨found, -⟩ := KeyedTable.mem_select_iff.mp (queueHead_mem head)
    have written := get?_write s.tables id id now fun h => h.claim s.tables.uuid now ttl
    rw [if_pos rfl, found, Option.map_some] at written
    exact ⟨Nat.lt_succ_self _, _, written, rfl⟩

end

/-- In every run a handle that is ready, claimed or dispatched is well-formed; and when a claim is
gone, released, requeued or replaced, no call with its token changes anything, except that one may
settle a handle that has failed. -/
theorem ready_and_fenced (digest : Id → String) (es : List Event) :
    EveryState (System.step digest) QueueWellFormed {} es ∧
    EveryStep (System.step digest) (ClaimHolds digest) {} es ∧
    ∀ k token, SinceStep (System.step digest) (Lost k token) (Fenced digest k token) {} es := by
  refine ⟨?_, everyStep_of_forall (claimHolds digest) _ _, fun k token => ?_⟩
  · refine everyState_mono (fun s sound => ?_) (allSound_run digest es)
    exact fun k h found active => ⟨(sound k h found).active active, (sound k h found).retries⟩
  · exact sinceStep_of_stable (fun s e => lost_step) (fun s e => fenced_of_lost) _ _

/-- A claim is released, the next one fails, and then the job is delivered after all. -/
def failedThenDelivered : List Event :=
  [.setChat 7 ⟨1, 2, 3, .web, "thread"⟩,
    .setMediaJob 5 { status := .running },
    .mintHandle ⟨9, .media, 5, 1, 2, 3, 7, .web, some "thread", some "turn", none, none⟩,
    .subscribePending ⟨9, 1, 2, 7, .web, "thread"⟩ 10,
    .postMessage { chatId := 7, assistantId := 1, author := .assistant, content := "Started." },
    .finalizeSourceTurn ⟨1, 7, "turn"⟩ .persisted (some 1) (fun _ => 0) 20,
    .recordCanonicalCompletion .deliveryWorker
      ⟨.media, 5, .completed, .delivered .completed none "Job completed and was delivered."⟩ 0 31,
    .claimReadyHeadForChat 7 60000 [] 40,
    .releaseClaimToReady 0 3 45 none none 41,
    .claimReadyHeadForChat 7 60000 [] 50,
    .failClaim 0 4 "error" "The follow-up failed." 60,
    .setMediaJob 5
      { status := .delivered, deliveredAt := some 70, completionAssistantMessageId := some 1 }]

/-- The call with the token of the released claim completes the handle. -/
theorem released_claim_settles :
    ¬ SinceStep (System.step fun _ => "") (Lost 0 3)
      (fun s e => e.claim? = some (0, 3) →
        (s.step (fun _ => "") e).tables.handles.get? 0 = s.tables.handles.get? 0) {}
      (failedThenDelivered ++ [.settleDeliveredCatchUpFailure 0 3 80]) := by
  intro fenced
  have lost : Lost 0 3 (run (System.step fun _ => "") {} failedThenDelivered) := by decide
  have kept := fenced.after lost rfl
  revert kept
  decide

/-! ## What happens at most once -/

/-- The calls by which a claim fails for good. -/
def Event.fails? : Event → Option Id
  | .requeueClaim id _ _ _ _ _ _ => some id
  | .failClaim id _ _ _ _ => some id
  | _ => none

def CreatesFailureMessage (digest : Id → String) (k : Id) (s : System) (e : Event) : Prop :=
  e.fails? = some k ∧ (s.step digest e).tables.messages ≠ s.tables.messages

/-- The step claims a delivery attempt of the handle. -/
def ClaimsAttempt (k : Id) (kind : DeliveryAttemptKind) (s : System) : Event → Prop
  | .claimDeliveryAttempt id token kind' now =>
    id = k ∧ kind' = kind ∧ (s.tables.claimDeliveryAttempt id token kind' now).1 = .claimed
  | .claimFailedHandleExternalNotice id now =>
    id = k ∧ kind = .external ∧ (s.tables.claimFailedHandleExternalNotice id now).1 = true
  | _ => False

def RetriesBounded (s : System) : Prop :=
  ∀ k h, s.tables.handles.get? k = some h → h.retryCount ≤ h.maxRetries

/-- A dispatched claim is requeued, or given up, on proof that it produced nothing. -/
def RequeueProved (s : System) (e : Event) : Prop :=
  ∀ id token retryAt code message proof now,
    e = .requeueClaim id token retryAt code message proof now →
    ∀ h, s.tables.handles.get? id = some h → h.state = .dispatched →
      (s.tables.requeueClaim id token retryAt code message proof now).1 ∈
        [RequeueOutcome.requeued, .exhausted] →
      ∃ p ∈ proof, p.receiptAbsent ∧ p.leaseAbsent ∧ p.outputAbsent

/-- The row shows a message. -/
def Shown (k : Id) (s : System) : Prop :=
  ∃ h, s.tables.handles.get? k = some h ∧ h.continuationAssistantMessageId.isSome

def Attempted (k : Id) (kind : DeliveryAttemptKind) (s : System) : Prop :=
  ∃ h, s.tables.handles.get? k = some h ∧ (h.attempt kind).attemptedAt.isSome

section

variable {digest : Id → String} {s : System} {e : Event} {k : Id} {token : Token}

theorem shown_step (shown : Shown k s) : Shown k (s.step digest e) := by
  obtain ⟨h, found, shown⟩ := shown
  obtain ⟨h', found', keeps⟩ := (keepsRows_step digest s e).rows k h found
  exact ⟨h', found', keeps.shown shown⟩

theorem attempted_step {kind : DeliveryAttemptKind} (tried : Attempted k kind s) :
    Attempted k kind (s.step digest e) := by
  obtain ⟨h, found, tried⟩ := tried
  obtain ⟨h', found', keeps⟩ := (keepsRows_step digest s e).rows k h found
  exact ⟨h', found', keeps.attempted kind tried⟩

/-- A message is created for a row that shows none, and is the one to show. -/
theorem persist_messages (t : Tables) (id : Id) (row : Handle) :
    (t.persistPermanentFailureMessage id row).2.messages = t.messages ∨
    (row.continuationAssistantMessageId = none ∧
      (t.persistPermanentFailureMessage id row).1.isSome) := by
  unfold persistPermanentFailureMessage
  split
  · exact .inl rfl
  · rename_i unshown
    split
    · exact .inl rfl
    · exact .inr ⟨unshown, rfl⟩

theorem settle_messages (t : Tables) (id : Id) (row : Handle) (token : Option Token) (heal : Bool)
    (now : Time) : (t.settleDeliveredLocked id row token heal now).2.messages = t.messages := by
  have open_ (settled : Id → Option SettleDelivered) :
      (settleDeliveredLocked.settleOpen t id row token heal now settled).2.messages =
        t.messages := by
    unfold settleDeliveredLocked.settleOpen
    dsimp only
    split
    · split
      · rfl
      · split <;> rfl
    · rfl
  unfold settleDeliveredLocked
  dsimp only
  split
  · split
    · rfl
    · exact open_ _
  · exact open_ _

/-- A claim that fails creates a message only for a handle that shows none, and it shows it. -/
theorem fails_messages (fails : e.fails? = some k) :
    (s.step digest e).tables.messages = s.tables.messages ∨
    (¬ Shown k s ∧ Shown k (s.step digest e)) := by
  have created {row : Handle} (found : s.tables.handles.get? k = some row) {now : Time}
      {f : Option Id → Handle → Handle}
      (shows : ∀ shown, (f shown row).continuationAssistantMessageId = shown)
      (unshown : row.continuationAssistantMessageId = none)
      (some : (s.tables.persistPermanentFailureMessage k row).1.isSome) :
      ¬ Shown k s ∧ Shown k (s.withTables ((s.tables.persistPermanentFailureMessage k row).2.write
        k now (f (s.tables.persistPermanentFailureMessage k row).1))) := by
    refine ⟨fun ⟨h, found', shown⟩ => ?_, ?_⟩
    · obtain rfl := Option.some.inj (found.symm.trans found')
      rw [unshown] at shown
      cases shown
    · have after := get?_write (s.tables.persistPermanentFailureMessage k row).2 k k now
        (f (s.tables.persistPermanentFailureMessage k row).1)
      rw [if_pos rfl, persist_handles, found] at after
      refine ⟨_, after, ?_⟩
      change (f (s.tables.persistPermanentFailureMessage k row).1
        row).continuationAssistantMessageId.isSome
      rw [shows]
      exact some
  cases e with
  | requeueClaim id token retryAt code message proof now =>
    obtain rfl := Option.some.inj fails
    simp only [System.step]
    unfold requeueClaim
    split
    · exact .inl rfl
    · rename_i row filtered
      obtain ⟨found, -⟩ := Option.filter_eq_some_iff.mp filtered
      split
      · exact .inl rfl
      · split
        · exact .inl rfl
        · split
          · rcases persist_messages s.tables id row with same | ⟨unshown, some⟩
            · exact .inl same
            · exact .inr (created found (f := fun shown h => h.exhaustRetries message shown now)
                (fun _ => rfl) unshown some)
          · exact .inl rfl
  | failClaim id token code message now =>
    obtain rfl := Option.some.inj fails
    simp only [System.step]
    unfold failClaim
    split
    · exact .inl rfl
    · rename_i row found
      split
      · have healed := settle_messages s.tables id row none true now
        split
        · rename_i outcome
          rw [outcome] at healed
          exact .inl healed
        · exact .inl rfl
      · split
        · exact .inl rfl
        · have settled := settle_messages s.tables id row (some token) false now
          split
          · rename_i outcome
            rw [outcome] at settled
            exact .inl settled
          · rcases persist_messages s.tables id row with same | ⟨unshown, some⟩
            · exact .inl same
            · exact .inr (created found (f := fun shown h => h.fail code message shown now)
                (fun _ => rfl) unshown some)
  | _ => cases fails

theorem claimsAttempt_spec {kind : DeliveryAttemptKind} (claims : ClaimsAttempt k kind s e) :
    ¬ Attempted k kind s ∧ Attempted k kind (s.step digest e) := by
  have untried {h : Handle} (found : s.tables.handles.get? k = some h)
      (none : (h.attempt kind).attemptedAt = none) : ¬ Attempted k kind s := by
    rintro ⟨h', found', tried⟩
    obtain rfl := Option.some.inj (found.symm.trans found')
    rw [none] at tried
    cases tried
  have tried {h : Handle} (found : s.tables.handles.get? k = some h) (now : Time) :
      Attempted k kind (s.withTables (s.tables.write k now (·.claimAttempt kind now))) := by
    have after := get?_write s.tables k k now (·.claimAttempt kind now)
    rw [if_pos rfl, found] at after
    exact ⟨_, after, by cases kind <;> rfl⟩
  cases e with
  | claimDeliveryAttempt id token kind' now =>
    obtain ⟨rfl, rfl, claimed⟩ := claims
    simp only [System.step]
    unfold claimDeliveryAttempt at claimed ⊢
    split at claimed
    · cases claimed
    · rename_i row filtered
      obtain ⟨found, -⟩ := Option.filter_eq_some_iff.mp filtered
      split at claimed
      · cases claimed
      · rename_i fresh
        rw [if_neg fresh]
        exact ⟨untried found (by simpa using fresh), tried found now⟩
  | claimFailedHandleExternalNotice id now =>
    obtain ⟨rfl, rfl, claimed⟩ := claims
    simp only [System.step]
    unfold claimFailedHandleExternalNotice writeIf at claimed ⊢
    split at claimed
    · rename_i holds
      cases found : s.tables.handles.get? id with
      | none =>
        rw [found] at holds
        cases holds
      | some h =>
        rw [found] at holds
        rw [if_pos holds]
        rw [Option.any_some, decide_eq_true_eq] at holds
        exact ⟨untried found holds.2.2.1, tried found now⟩
    · cases claimed
  | _ => exact claims.elim

theorem requeueProved (s : System) (e : Event) : RequeueProved s e := by
  rintro id token retryAt code message proof now - h found dispatched outcome
  unfold requeueClaim at outcome
  split at outcome
  · simp at outcome
  · rename_i row filtered
    obtain ⟨found', -⟩ := Option.filter_eq_some_iff.mp filtered
    obtain rfl := Option.some.inj (found.symm.trans found')
    split at outcome
    · simp at outcome
    · rename_i proved
      rw [not_and, not_not] at proved
      have some := proved dispatched
      cases proof with
      | none => cases some
      | some p =>
        simp only [Option.any_some, DispatchedProof.nothingProduced, Bool.and_eq_true] at some
        exact ⟨p, rfl, some.1.1, some.1.2, some.2⟩

end

/-- A call whose token is not the row's changes nothing, but may settle a handle that has failed. -/
def CurrentOnly (digest : Id → String) (s : System) (e : Event) : Prop :=
  ∀ k token, e.claim? = some (k, token) →
    (∀ h, s.tables.handles.get? k = some h → h.claimToken ≠ some token) →
    s.step digest e = s ∨ SettlesFailed digest k s e

/-- In every run a handle gets one failure message and one attempt of each kind at most, retries
within its limit, is taken from its claim only when nothing was produced, and is left alone by
claims that are not current, except to be settled when it has failed. -/
theorem bounded_once (digest : Id → String) (es : List Event) :
    (∀ k, AtMostOnce (System.step digest) (CreatesFailureMessage digest k) {} es) ∧
    (∀ k kind, AtMostOnce (System.step digest) (ClaimsAttempt k kind) {} es) ∧
    EveryState (System.step digest) RetriesBounded {} es ∧
    EveryStep (System.step digest) RequeueProved {} es ∧
    EveryStep (System.step digest) (CurrentOnly digest) {} es := by
  refine ⟨fun k => ?_, fun k kind => ?_, ?_, everyStep_of_forall requeueProved _ _,
    everyStep_of_forall (fun s e k token => step_lost) _ _⟩
  · refine atMostOnce_of_stable (I := Shown k) (fun s e ⟨fails, creates⟩ => ?_)
      (fun s e => shown_step) (fun s e shown ⟨fails, creates⟩ => ?_) _ _
    · exact ((fails_messages fails).resolve_left creates).2
    · have shows : ¬ Shown k s ∧ Shown k (s.step digest e) :=
        (fails_messages fails).resolve_left creates
      exact shows.1 shown
  · exact atMostOnce_of_stable (I := Attempted k kind)
        (fun s e claims => (claimsAttempt_spec claims).2)
      (fun s e => attempted_step)
      (fun s e tried claims => (claimsAttempt_spec claims :
        ¬ Attempted k kind s ∧ Attempted k kind (s.step digest e)).1 tried) _ _
  · exact everyState_mono (fun s sound k h found => (sound k h found).retries)
      (allSound_run digest es)

/-- A call with a token that the handle has no more completes it. -/
theorem stale_call_settles :
    ¬ EveryStep (System.step fun _ => "")
      (fun s e => ∀ k token, e.claim? = some (k, token) →
        (∀ h, s.tables.handles.get? k = some h → h.claimToken ≠ some token) →
        s.step (fun _ => "") e = s) {}
      (failedThenDelivered ++ [.failClaim 0 3 "error" "The follow-up failed." 80]) := by
  intro unchanged
  have tokens : ((run (System.step fun _ => "") {} failedThenDelivered).tables.handles.get? 0).map
      (·.claimToken) = some none := by decide
  have same := unchanged.at_ 0 3 rfl fun h found => by
    rw [found, Option.map_some, Option.some.injEq] at tokens
    rw [tokens]
    exact nofun
  have row := congrArg (fun s => (s.tables.handles.get? 0).map (·.state)) same
  revert row
  decide

end Persai.JobHandle
