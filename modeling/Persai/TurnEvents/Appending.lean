import Persai.TurnEvents.Log
import Mathlib.Data.List.Induction

/-!
# What a draft does to the log

`Appends` has one case for each branch of the loop of `applyDrafts`:

* a draft already stored changes nothing;
* a delivery, and a draft that finds no reserved slot, goes to the tail under the next
  number;
* a second reservation leaves its key on the slot, any other draft takes the slot;
* answer text goes on an answer that is the very last event.

A batch is the run of its drafts, so that it does not matter where a sequence of drafts
is cut into batches.
-/

namespace Persai.TurnEvents

/-! ## The next number -/

theorem freshSeq_append (log : Log) (e : StoredTurnEvent) :
    freshSeq (log ++ [e]) = max (freshSeq log) (e.seq + 1) := by
  simp [freshSeq, List.foldl_append]

theorem seq_lt_freshSeq {log : Log} {e : StoredTurnEvent} (h : e ∈ log) : e.seq < freshSeq log := by
  induction log using List.reverseRecOn with
  | nil => exact absurd h List.not_mem_nil
  | append_singleton log last ih =>
    rw [freshSeq_append]
    rcases List.mem_append.mp h with h | h
    · have := ih h
      omega
    · obtain rfl := List.mem_singleton.mp h
      omega

/-- Only the numbers count. -/
theorem freshSeq_eq (log : Log) : freshSeq log = (log.map (·.seq)).foldl max 0 + 1 := by
  rw [List.foldl_map, freshSeq]

/-! ## The reserved slot -/

/-- The slot is a text still empty, and only deliveries follow it. -/
structure Reserved (log pre : Log) (slot : StoredTurnEvent) (deliveries : Log) : Prop where
  split : log = pre ++ slot :: deliveries
  empty : slot.text? = some []
  behind : ∀ d ∈ deliveries, d.isDelivery = true

theorem not_isDelivery_of_text {e : StoredTurnEvent} {text : Text} (h : e.text? = some text) :
    e.isDelivery = false := by
  obtain ⟨draft, seq, keys⟩ := e
  cases draft with
  | delivery d => cases h
  | keyed time key fact => rfl

theorem text_of_delivery {e : StoredTurnEvent} (h : e.isDelivery = true) : e.text? = none := by
  cases text : e.text? with
  | none => rfl
  | some t =>
    rw [not_isDelivery_of_text text] at h
    cases h

theorem findNearest_append (log : Log) (e : StoredTurnEvent) :
    findNearestNonDeliveryEvent (log ++ [e]) =
      if e.isDelivery then findNearestNonDeliveryEvent log else some (e, log.length) := by
  unfold findNearestNonDeliveryEvent
  rw [List.zipIdx_append, List.reverse_append]
  cases h : e.isDelivery <;> simp [h]

theorem findNearest_of_behind (pre : Log) {slot : StoredTurnEvent} {deliveries : Log}
    (kind : slot.isDelivery = false) (behind : ∀ d ∈ deliveries, d.isDelivery = true) :
    findNearestNonDeliveryEvent (pre ++ slot :: deliveries) = some (slot, pre.length) := by
  induction deliveries using List.reverseRecOn with
  | nil =>
    rw [findNearest_append, kind]
    rfl
  | append_singleton deliveries last ih =>
    have delivery : last.isDelivery = true := behind last (by simp)
    have earlier := ih fun d hd => behind d (by simp [hd])
    rw [← List.cons_append, ← List.append_assoc, findNearest_append, delivery]
    exact earlier

theorem exists_of_findNearest {log : Log} {e : StoredTurnEvent} {i : Nat}
    (h : findNearestNonDeliveryEvent log = some (e, i)) :
    ∃ pre deliveries, log = pre ++ e :: deliveries ∧ pre.length = i ∧
      ∀ d ∈ deliveries, d.isDelivery = true := by
  induction log using List.reverseRecOn with
  | nil => simp [findNearestNonDeliveryEvent] at h
  | append_singleton log last ih =>
    rw [findNearest_append] at h
    split at h
    · next delivery =>
      obtain ⟨pre, deliveries, rfl, at_i, behind⟩ := ih h
      refine ⟨pre, deliveries ++ [last], by simp, at_i, ?_⟩
      simpa [or_imp, forall_and] using ⟨behind, delivery⟩
    · obtain ⟨rfl, rfl⟩ : last = e ∧ log.length = i := by simpa using h
      exact ⟨log, [], rfl, rfl, by simp⟩

theorem Reserved.found {log pre deliveries : Log} {slot : StoredTurnEvent}
    (h : Reserved log pre slot deliveries) : unfilledReservation log = some (slot, pre.length) := by
  have kind := not_isDelivery_of_text h.empty
  rw [unfilledReservation, h.split, findNearest_of_behind pre kind h.behind, Option.filter_some,
    h.empty]
  rfl

theorem reserved_of_found {log : Log} {slot : StoredTurnEvent} {i : Nat}
    (h : unfilledReservation log = some (slot, i)) :
    ∃ pre deliveries, Reserved log pre slot deliveries ∧ pre.length = i := by
  obtain ⟨found, empty⟩ := Option.filter_eq_some_iff.mp h
  obtain ⟨pre, deliveries, split, at_i, behind⟩ := exists_of_findNearest found
  exact ⟨pre, deliveries, ⟨split, by simpa using empty, behind⟩, at_i⟩

/-! ## One draft -/

/-- The log already has the draft's key, or its attachment. -/
def stored (log : Log) : TurnEventDraft → Bool
  | .delivery d => log.any (·.delivers d.attachmentId)
  | .keyed _ key _ => log.any (·.holds key)

inductive Appends (log : Log) : TurnEventDraft → Log → Prop
  | replayed {draft : TurnEventDraft} (old : stored log draft = true) : Appends log draft log
  | delivered {d : DeliveryDraft} (new : stored log (.delivery d) = false) :
      Appends log (.delivery d) (log ++ [⟨.delivery d, freshSeq log, []⟩])
  | pushed {time : IsoTimestamp} {key : DraftKey} {fact : Fact}
      (new : stored log (.keyed time key fact) = false) (closed : unfilledReservation log = none) :
      Appends log (.keyed time key fact)
        (log ++ [⟨.keyed time key fact, freshSeq log, [key]⟩])
  | merged {time : IsoTimestamp} {key : DraftKey} {fact : Fact} {pre deliveries : Log}
      {slot : StoredTurnEvent} (new : stored log (.keyed time key fact) = false)
      (reserved : Reserved log pre slot deliveries) (empty : fact.text? = some []) :
      Appends log (.keyed time key fact)
        (pre ++ { slot with draftKeys := slot.draftKeys ++ [key] } :: deliveries)
  | filled {time : IsoTimestamp} {key : DraftKey} {fact : Fact} {pre deliveries : Log}
      {slot : StoredTurnEvent} (new : stored log (.keyed time key fact) = false)
      (reserved : Reserved log pre slot deliveries) (speaks : fact.text? ≠ some []) :
      Appends log (.keyed time key fact)
        (pre ++ ⟨.keyed slot.draft.time key fact, slot.seq, slot.draftKeys ++ [key]⟩ :: deliveries)
  | extended {time : IsoTimestamp} {key : DraftKey} {text segment : Text} {earlier : Log}
      {last : StoredTurnEvent} (new : stored log (.keyed time key (.answerText text)) = false)
      (split : log = earlier ++ [last]) (answer : last.answerText? = some segment)
      (closed : unfilledReservation log = none) (speaks : text ≠ []) :
      Appends log (.keyed time key (.answerText text))
        (earlier ++ [{ last.withText (segment ++ text) with draftKeys := last.draftKeys ++ [key] }])

/-- The log one draft leaves. -/
def appendDraft (log : Log) (draft : TurnEventDraft) : Log :=
  (Applying.applyDraft ⟨log, [], false, freshSeq log⟩ draft).log

namespace Applying

/-- The log and the next number do not depend on what was appended so far. -/
theorem applyDraft_log {s : Applying} (number : s.nextSeq = freshSeq s.log)
    (draft : TurnEventDraft) : (s.applyDraft draft).log = appendDraft s.log draft := by
  obtain ⟨log, appended, mutated, n⟩ := s
  obtain rfl : n = freshSeq log := number
  unfold appendDraft applyDraft
  cases draft with
  | delivery d =>
    dsimp only
    split <;> rfl
  | keyed time key fact =>
    dsimp only
    repeat' split
    all_goals rfl

/-- The number goes up with the length of the log. -/
theorem applyDraft_length (s : Applying) (draft : TurnEventDraft) :
    (s.applyDraft draft).nextSeq + s.log.length = s.nextSeq + (s.applyDraft draft).log.length := by
  unfold applyDraft
  cases draft with
  | delivery d =>
    dsimp only
    split
    · rfl
    · simp only [push, List.length_append, List.length_singleton]
      omega
  | keyed time key fact =>
    dsimp only
    repeat' split
    all_goals simp only [push, rewrite, List.length_append, List.length_set, List.length_singleton]
    all_goals omega

theorem applyDraft_unmutated {s : Applying} {draft : TurnEventDraft}
    (h : (s.applyDraft draft).mutated = false) : s.applyDraft draft = s := by
  unfold applyDraft at h ⊢
  cases draft with
  | delivery d =>
    dsimp only at h ⊢
    split at h
    · next old => rw [if_pos old]
    · cases h
  | keyed time key fact =>
    dsimp only at h ⊢
    by_cases old : s.log.any (·.holds key) = true
    · rw [if_pos old]
    · rw [if_neg old] at h
      repeat' split at h
      all_goals cases h

end Applying

theorem set_of_reserved {log pre deliveries : Log} {slot : StoredTurnEvent}
    (h : Reserved log pre slot deliveries) (e : StoredTurnEvent) :
    log.set pre.length e = pre ++ e :: deliveries := by
  rw [h.split, List.set_append_right _ _ (Nat.le_refl _), Nat.sub_self]
  rfl

/-- Every draft falls under one of the cases. -/
theorem appends_appendDraft (log : Log) (draft : TurnEventDraft) :
    Appends log draft (appendDraft log draft) := by
  unfold appendDraft
  cases draft with
  | delivery d =>
    unfold Applying.applyDraft
    dsimp only
    split
    · next old => exact .replayed old
    · next new => exact .delivered (by simpa [stored] using new)
  | keyed time key fact =>
    unfold Applying.applyDraft
    dsimp only
    split
    · next old => exact .replayed old
    · next new =>
      have new' : stored log (.keyed time key fact) = false := by simpa [stored] using new
      cases found : unfilledReservation log with
      | some at_slot =>
        obtain ⟨slot, i⟩ := at_slot
        obtain ⟨pre, deliveries, reserved, rfl⟩ := reserved_of_found found
        dsimp only
        split
        · next empty =>
          rw [set_of_reserved reserved]
          exact .merged new' reserved empty
        · next speaks =>
          rw [Applying.rewrite, set_of_reserved reserved]
          exact .filled new' reserved speaks
      | none =>
        dsimp only
        split
        · exact .pushed new' found
        · next speaks =>
          split
          · next text last tail =>
            obtain ⟨earlier, split⟩ := List.getLast?_eq_some_iff.mp tail
            split
            · next segment answer =>
              rw [Applying.rewrite]
              dsimp only
              have at_tail : log.length - 1 = earlier.length := by simp [split]
              rw [at_tail]
              conv => rhs; rw [split]
              rw [List.set_append_right _ _ (Nat.le_refl _), Nat.sub_self]
              exact .extended new' split answer found (by simpa [Fact.text?] using speaks)
            · exact .pushed new' found
          · exact .pushed new' found

/-- A case leaves the numbers as they were, or adds the next one. -/
theorem Appends.seqs {log log' : Log} {draft : TurnEventDraft} (h : Appends log draft log') :
    log'.map (·.seq) = log.map (·.seq) ∨ log'.map (·.seq) = log.map (·.seq) ++ [freshSeq log] := by
  cases h with
  | replayed old => exact .inl rfl
  | delivered new => exact .inr (by simp)
  | pushed new closed => exact .inr (by simp)
  | merged new reserved empty => exact .inl (by simp [reserved.split])
  | filled new reserved speaks => exact .inl (by simp [reserved.split])
  | extended new split answer closed speaks =>
    exact .inl (by simp [split, StoredTurnEvent.withText])

/-! ## A batch -/

theorem freshSeq_of_seqs_append {log log' : Log}
    (h : log'.map (·.seq) = log.map (·.seq) ++ [freshSeq log]) :
    freshSeq log' = freshSeq log + 1 := by
  rw [freshSeq_eq log', h, List.foldl_append, ← List.foldl_map, freshSeq_eq]
  simp

/-- `nextSeq` stays the number the log itself would give. -/
theorem applyDraft_nextSeq {s : Applying} (number : s.nextSeq = freshSeq s.log)
    (draft : TurnEventDraft) :
    (s.applyDraft draft).nextSeq = freshSeq (s.applyDraft draft).log := by
  have counted := s.applyDraft_length draft
  have after := appends_appendDraft s.log draft
  rw [← Applying.applyDraft_log number draft] at after
  rcases after.seqs with same | pushed
  · have length := congrArg List.length same
    have fresh : freshSeq (s.applyDraft draft).log = freshSeq s.log := by
      rw [freshSeq_eq, same, ← freshSeq_eq]
    simp only [List.length_map] at length
    omega
  · have length := congrArg List.length pushed
    have fresh := freshSeq_of_seqs_append pushed
    simp only [List.length_map, List.length_append, List.length_singleton] at length
    omega

/-- The drafts of a batch take effect one after the other. -/
theorem applyDrafts_log (log : Log) (drafts : List TurnEventDraft) :
    (applyDrafts log drafts).log = Runs.run appendDraft log drafts := by
  have follows : ∀ (drafts : List TurnEventDraft) (s : Applying), s.nextSeq = freshSeq s.log →
      (drafts.foldl Applying.applyDraft s).log = Runs.run appendDraft s.log drafts := by
    intro drafts
    induction drafts with
    | nil => intro s _; rfl
    | cons draft drafts ih =>
      intro s number
      rw [List.foldl_cons, ih _ (applyDraft_nextSeq number draft),
        Applying.applyDraft_log number draft]
      rfl
  exact follows drafts _ rfl

/-- A batch that reports no change made none. -/
theorem applyDrafts_unmutated {log : Log} {drafts : List TurnEventDraft}
    (h : (applyDrafts log drafts).mutated = false) : (applyDrafts log drafts).log = log := by
  have follows : ∀ (drafts : List TurnEventDraft) (s : Applying),
      (drafts.foldl Applying.applyDraft s).mutated = false →
      drafts.foldl Applying.applyDraft s = s := by
    intro drafts
    induction drafts with
    | nil => intro s _; rfl
    | cons draft drafts ih =>
      intro s unmutated
      have later := ih _ unmutated
      rw [List.foldl_cons] at unmutated ⊢
      rw [later] at unmutated ⊢
      exact Applying.applyDraft_unmutated unmutated
  exact congrArg Applying.log (follows drafts _ h)

theorem appendLocked_eq_run (log : Log) (drafts : List TurnEventDraft) :
    appendLocked log drafts = Runs.run appendDraft log drafts := by
  unfold appendLocked
  dsimp only
  split
  · exact applyDrafts_log log drafts
  · next unmutated =>
    have same := applyDrafts_unmutated (by simpa using unmutated)
    rw [← applyDrafts_log, same]

/-- Two batches, one after the other, are one batch. -/
theorem appendLocked_append (log : Log) (first second : List TurnEventDraft) :
    appendLocked log (first ++ second) = appendLocked (appendLocked log first) second := by
  simp only [appendLocked_eq_run, Runs.run_append]

end Persai.TurnEvents
