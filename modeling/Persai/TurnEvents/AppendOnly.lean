import Persai.TurnEvents.Reconciliation
import Mathlib.Data.List.Pairwise

/-!
# The log is append-only

Two events of a log are `Apart` when their numbers are in order, no key but the
reconciliation's own is in both, and they are not deliveries of one attachment. A log is
well formed when its events are pairwise apart. Every write keeps this, and `Extends` the
log: no key is lost, and the events that are no text stay as they are, in their order.
-/

namespace Persai.TurnEvents

/-- The first event comes before the second in one log. -/
structure Apart (x y : StoredTurnEvent) : Prop where
  seq : x.seq < y.seq
  keys : ∀ key ∈ x.draftKeys, key ≠ reconciledAnswerTextDraftKey → key ∉ y.draftKeys
  attachments : ∀ a, x.delivers a = true → y.delivers a = false

def WellFormed (log : Log) : Prop := log.Pairwise Apart

structure Extends (log log' : Log) : Prop where
  keys : ∀ key, (∃ e ∈ log, key ∈ e.draftKeys) → ∃ e ∈ log', key ∈ e.draftKeys
  rest : (log.filter (!·.isNumberedText)).Sublist (log'.filter (!·.isNumberedText))

theorem Extends.refl (log : Log) : Extends log log := ⟨fun _ h => h, List.Sublist.refl _⟩

theorem Extends.trans {log log' log'' : Log} (h : Extends log log') (h' : Extends log' log'') :
    Extends log log'' :=
  ⟨fun key stored => h'.keys key (h.keys key stored), h.rest.trans h'.rest⟩

theorem delivers_of_text {e : StoredTurnEvent} (h : e.isDelivery = false) (a : String) :
    e.delivers a = false := by
  obtain ⟨draft, seq, keys⟩ := e
  cases draft with
  | delivery d => cases h
  | keyed time key fact => rfl

/-! ## Appending -/

theorem not_mem_keys_of_new {log : Log} {time : IsoTimestamp} {key : DraftKey} {fact : Fact}
    (new : stored log (.keyed time key fact) = false) {e : StoredTurnEvent} (he : e ∈ log) :
    key ∉ e.draftKeys := by
  have none : ∀ e ∈ log, e.holds key = false := by simpa [stored] using new
  simpa [StoredTurnEvent.holds] using none e he

/-- An event at the tail, under the next number, with keys and attachment of its own. -/
theorem WellFormed.push {log : Log} (h : WellFormed log) {e : StoredTurnEvent}
    (number : e.seq = freshSeq log)
    (keys : ∀ x ∈ log, ∀ key ∈ x.draftKeys, key ≠ reconciledAnswerTextDraftKey →
      key ∉ e.draftKeys)
    (attachments : ∀ x ∈ log, ∀ a, x.delivers a = true → e.delivers a = false) :
    WellFormed (log ++ [e]) := by
  refine List.pairwise_append.mpr ⟨h, List.pairwise_singleton _ _, ?_⟩
  intro x hx y hy
  obtain rfl := List.mem_singleton.mp hy
  exact ⟨number ▸ seq_lt_freshSeq hx, keys x hx, attachments x hx⟩

/-- An event of the log replaced by one under the same number and the same keys, and perhaps
a key that was not in the log. -/
theorem WellFormed.replace {pre post : Log} {e e' : StoredTurnEvent}
    (h : WellFormed (pre ++ e :: post)) (number : e'.seq = e.seq)
    (keys : ∀ key ∈ e'.draftKeys, key ∈ e.draftKeys ∨ ∀ x ∈ pre ++ post, key ∉ x.draftKeys)
    (no_delivery : e'.isDelivery = false) : WellFormed (pre ++ e' :: post) := by
  obtain ⟨hpre, hpost, across⟩ := List.pairwise_append.mp h
  obtain ⟨first, later⟩ := List.pairwise_cons.mp hpost
  refine List.pairwise_append.mpr ⟨hpre, List.pairwise_cons.mpr ⟨?_, later⟩, ?_⟩
  · intro y hy
    have apart := first y hy
    refine ⟨number ▸ apart.seq, ?_, ?_⟩
    · intro key hk other
      rcases keys key hk with old | new
      · exact apart.keys key old other
      · exact new y (List.mem_append_right _ hy)
    · intro a delivers
      rw [delivers_of_text no_delivery] at delivers
      cases delivers
  · intro x hx y hy
    rcases List.mem_cons.mp hy with rfl | hy
    · have apart := across x hx e List.mem_cons_self
      refine ⟨number ▸ apart.seq, ?_, fun a _ => delivers_of_text no_delivery a⟩
      intro key hk other mem
      rcases keys key mem with old | new
      · exact apart.keys key hk other old
      · exact new x (List.mem_append_left _ hx) hk
    · exact across x hx y (List.mem_cons_of_mem _ hy)

theorem extends_push (log : Log) (e : StoredTurnEvent) : Extends log (log ++ [e]) := by
  refine ⟨?_, ?_⟩
  · rintro key ⟨x, hx, hk⟩
    exact ⟨x, List.mem_append_left _ hx, hk⟩
  · rw [List.filter_append]
    exact List.sublist_append_left _ _

/-- A text may be replaced by anything that keeps its keys. -/
theorem extends_replace {pre post : Log} {e e' : StoredTurnEvent}
    (text : e.isNumberedText = true) (keys : ∀ key ∈ e.draftKeys, key ∈ e'.draftKeys) :
    Extends (pre ++ e :: post) (pre ++ e' :: post) := by
  refine ⟨?_, ?_⟩
  · rintro key ⟨x, hx, hk⟩
    rcases List.mem_append.mp hx with hx | hx
    · exact ⟨x, List.mem_append_left _ hx, hk⟩
    · rcases List.mem_cons.mp hx with rfl | hx
      · exact ⟨e', by simp, keys key hk⟩
      · exact ⟨x, by simp [hx], hk⟩
  · rw [List.filter_append, List.filter_append, List.filter_cons_of_neg (by simp [text])]
    refine List.Sublist.append_left ?_ _
    rw [List.filter_cons]
    split
    · exact List.sublist_cons_self _ _
    · exact List.Sublist.refl _

theorem isDelivery_withText (e : StoredTurnEvent) (text : Text) :
    (e.withText text).isDelivery = e.isDelivery := by
  obtain ⟨draft, seq, keys⟩ := e
  cases draft <;> rfl

theorem isNumberedText_of_text {e : StoredTurnEvent} {text : Text} (h : e.text? = some text) :
    e.isNumberedText = true := by
  simp [StoredTurnEvent.isNumberedText, h]

theorem text_of_answer {e : StoredTurnEvent} {text : Text} (h : e.answerText? = some text) :
    e.text? = some text := by
  obtain ⟨draft, seq, keys⟩ := e
  cases draft with
  | delivery d => cases h
  | keyed time key fact => cases fact <;> first | exact h | cases h

theorem Appends.extends {log log' : Log} {draft : TurnEventDraft} (h : Appends log draft log') :
    Extends log log' := by
  cases h with
  | replayed old => exact Extends.refl log
  | delivered new => exact extends_push log _
  | pushed new closed => exact extends_push log _
  | merged new reserved empty =>
    rw [reserved.split]
    exact extends_replace (isNumberedText_of_text reserved.empty)
      fun key hk => List.mem_append_left _ hk
  | filled new reserved speaks =>
    rw [reserved.split]
    exact extends_replace (isNumberedText_of_text reserved.empty)
      fun key hk => List.mem_append_left _ hk
  | extended new split answer closed speaks =>
    rw [split]
    exact extends_replace (isNumberedText_of_text (text_of_answer answer))
      fun key hk => List.mem_append_left _ hk

/-- The new key of a slot or of an answer is in no other event. -/
theorem keys_of_replaced {log pre post : Log} {e : StoredTurnEvent} {time : IsoTimestamp}
    {key : DraftKey} {fact : Fact} (split : log = pre ++ e :: post)
    (new : stored log (.keyed time key fact) = false) :
    ∀ k ∈ e.draftKeys ++ [key], k ∈ e.draftKeys ∨ ∀ x ∈ pre ++ post, k ∉ x.draftKeys := by
  intro k hk
  rcases List.mem_append.mp hk with hk | hk
  · exact .inl hk
  · obtain rfl := List.mem_singleton.mp hk
    refine .inr fun x hx => not_mem_keys_of_new new ?_
    rw [split]
    rcases List.mem_append.mp hx with hx | hx
    · exact List.mem_append_left _ hx
    · exact List.mem_append_right _ (List.mem_cons_of_mem _ hx)

theorem Appends.wellFormed {log log' : Log} {draft : TurnEventDraft} (h : Appends log draft log')
    (wf : WellFormed log) : WellFormed log' := by
  cases h with
  | replayed old => exact wf
  | @delivered d new =>
    refine wf.push rfl (fun _ _ key _ _ => List.not_mem_nil) ?_
    intro x hx a delivers
    have fresh : ∀ x ∈ log, x.delivers d.attachmentId = false := by simpa [stored] using new
    have other : d.attachmentId ≠ a := by
      rintro rfl
      rw [fresh x hx] at delivers
      cases delivers
    simpa [StoredTurnEvent.delivers] using other
  | @pushed time key fact new closed =>
    refine wf.push rfl ?_ fun _ _ _ _ => rfl
    intro x hx k hk _ mem
    obtain rfl := List.mem_singleton.mp mem
    exact not_mem_keys_of_new new hx hk
  | merged new reserved empty =>
    rw [reserved.split] at wf
    exact wf.replace rfl (keys_of_replaced reserved.split new)
      (not_isDelivery_of_text reserved.empty)
  | filled new reserved speaks =>
    rw [reserved.split] at wf
    exact wf.replace rfl (keys_of_replaced reserved.split new) rfl
  | @extended time key text segment earlier last new split answer closed speaks =>
    rw [split] at wf
    refine wf.replace rfl (keys_of_replaced split new) ?_
    exact (isDelivery_withText last _).trans (not_isDelivery_of_text (text_of_answer answer))

/-! ## Reconciling -/

/-- What `Apart` looks at. -/
def outline (e : StoredTurnEvent) : Nat × List DraftKey × (String → Bool) :=
  (e.seq, e.draftKeys, fun a => e.delivers a)

theorem WellFormed.of_outlines {log log' : Log} (h : WellFormed log)
    (same : log'.map outline = log.map outline) : WellFormed log' := by
  have through : ∀ l : Log, WellFormed l ↔ (l.map outline).Pairwise fun x y =>
      x.1 < y.1 ∧ (∀ key ∈ x.2.1, key ≠ reconciledAnswerTextDraftKey → key ∉ y.2.1) ∧
        ∀ a, x.2.2 a = true → y.2.2 a = false := by
    intro l
    rw [List.pairwise_map]
    refine List.Pairwise.iff ?_
    intro x y
    exact ⟨fun h => ⟨h.seq, h.keys, h.attachments⟩, fun ⟨seq, keys, attachments⟩ =>
      ⟨seq, keys, attachments⟩⟩
  rw [through, same]
  exact (through log).mp h

theorem outline_withText {e : StoredTurnEvent} (text : Text) :
    outline (e.withText text) = outline e := by
  obtain ⟨draft, seq, keys⟩ := e
  cases draft <;> rfl

theorem truncateNotes_outlines (n : Nat) (log : Log) :
    (truncateNotes n log).map outline = log.map outline := by
  induction log generalizing n with
  | nil => rfl
  | cons e log ih =>
    rw [truncateNotes]
    cases e.noteText? with
    | none => simp only [List.map_cons, ih]
    | some text => simp only [List.map_cons, ih, outline_withText]

theorem isNumberedText_of_note {e : StoredTurnEvent} {text : Text} (h : e.noteText? = some text) :
    e.isNumberedText = true := by
  obtain ⟨draft, seq, keys⟩ := e
  cases draft with
  | delivery d => cases h
  | keyed time key fact => cases fact <;> first | rfl | cases h

theorem truncateNotes_rest (n : Nat) (log : Log) :
    (truncateNotes n log).filter (!·.isNumberedText) = log.filter (!·.isNumberedText) := by
  induction log generalizing n with
  | nil => rfl
  | cons e log ih =>
    rw [truncateNotes]
    cases note : e.noteText? with
    | none => simp only [List.filter_cons, ih]
    | some text =>
      have before := isNumberedText_of_note note
      have after : (e.withText (text.take n)).isNumberedText = true :=
        isNumberedText_of_note (noteText_withText note)
      dsimp only
      rw [List.filter_cons_of_neg (by simp [after]), List.filter_cons_of_neg (by simp [before]), ih]

theorem truncateNotes_extends (n : Nat) (log : Log) : Extends log (truncateNotes n log) := by
  have keys : (truncateNotes n log).map (·.draftKeys) = log.map (·.draftKeys) := by
    have same := congrArg (List.map fun o => o.2.1) (truncateNotes_outlines n log)
    simpa [List.map_map, Function.comp_def, outline] using same
  refine ⟨?_, by rw [truncateNotes_rest]⟩
  rintro key ⟨e, he, hk⟩
  have mem : e.draftKeys ∈ (truncateNotes n log).map (·.draftKeys) := by
    rw [keys]
    exact List.mem_map.mpr ⟨e, he, rfl⟩
  obtain ⟨e', he', same⟩ := List.mem_map.mp mem
  exact ⟨e', he', same ▸ hk⟩

def ShareNoKey (x y : StoredTurnEvent) : Prop :=
  ∀ key ≠ reconciledAnswerTextDraftKey, ¬ (key ∈ x.draftKeys ∧ key ∈ y.draftKeys)

instance : Std.Symm ShareNoKey :=
  ⟨fun _ _ h key other both => h key other ⟨both.2, both.1⟩⟩

/-- In a well-formed log two events share no key, whichever comes first. -/
theorem WellFormed.disjoint {log : Log} (wf : WellFormed log) {x y : StoredTurnEvent}
    (hx : x ∈ log) (hy : y ∈ log) (ne : x ≠ y) {key : DraftKey}
    (other : key ≠ reconciledAnswerTextDraftKey) (hk : key ∈ x.draftKeys) :
    key ∉ y.draftKeys := by
  have unordered : log.Pairwise ShareNoKey :=
    wf.imp fun apart key other both => apart.keys key both.1 other both.2
  exact fun mem => unordered.forall hx hy ne key other ⟨hk, mem⟩

/-- The keys of the collapsed answer are those of the answers. -/
def TakesKeys (log : Log) (c : StoredTurnEvent) : Prop :=
  ∀ key, key ∈ c.draftKeys ↔ ∃ e ∈ log, e.isAnswerText = true ∧ key ∈ e.draftKeys

theorem collapsed_takesKeys {log : Log} {first : StoredTurnEvent} (hfirst : first ∈ log)
    (answer : first.isAnswerText = true) (body : Text) :
    TakesKeys log (collapsed log first body) := by
  intro key
  have merged : key ∈ ((log.filter (·.isAnswerText)).flatMap (·.draftKeys)).eraseDups ↔
      ∃ e ∈ log, e.isAnswerText = true ∧ key ∈ e.draftKeys := by
    simp [List.mem_eraseDups, List.mem_flatMap, List.mem_filter, and_assoc]
  rw [collapsed]
  dsimp only
  split
  · next none =>
    rw [List.isEmpty_iff.mp none] at merged
    rw [← merged]
    refine iff_of_false ?_ List.not_mem_nil
    exact fun hk => List.not_mem_nil (merged.mpr ⟨first, hfirst, answer, hk⟩)
  · exact merged

theorem isNumberedText_of_answer {e : StoredTurnEvent} (h : e.isAnswerText = true) :
    e.isNumberedText = true := by
  obtain ⟨text, answer⟩ := Option.isSome_iff_exists.mp h
  exact isNumberedText_of_text (text_of_answer answer)

section
variable {log before behind : Log} {first c : StoredTurnEvent}

theorem WellFormed.collapse (wf : WellFormed log) (h : FirstAnswer log before first behind)
    (number : c.seq = first.seq) (keys : TakesKeys log c) (no_delivery : c.isDelivery = false) :
    WellFormed (before ++ c :: behind.filter (!·.isAnswerText)) := by
  have in_order := wf
  rw [h.split] at in_order
  obtain ⟨hbefore, hbehind, across⟩ := List.pairwise_append.mp in_order
  obtain ⟨after_first, later⟩ := List.pairwise_cons.mp hbehind
  -- an event that is no answer shares no key with the collapsed one
  have clear : ∀ x ∈ log, x.isAnswerText = false → ∀ key ∈ x.draftKeys,
      key ≠ reconciledAnswerTextDraftKey → key ∉ c.draftKeys := by
    intro x hx not_answer key hk other mem
    obtain ⟨z, hz, answer, hkz⟩ := (keys key).mp mem
    have ne : x ≠ z := by
      rintro rfl
      rw [not_answer] at answer
      cases answer
    exact wf.disjoint hx hz ne other hk hkz
  refine List.pairwise_append.mpr
    ⟨hbefore, List.pairwise_cons.mpr ⟨?_, later.sublist List.filter_sublist⟩, ?_⟩
  · intro y hy
    obtain ⟨mem, not_answer⟩ := List.mem_filter.mp hy
    have hy' : y ∈ log := by
      rw [h.split]
      simp [mem]
    refine ⟨number ▸ (after_first y mem).seq, ?_, ?_⟩
    · intro key hk other mem_y
      exact clear y hy' (by simpa using not_answer) key mem_y other hk
    · intro a delivers
      rw [delivers_of_text no_delivery] at delivers
      cases delivers
  · intro x hx y hy
    rcases List.mem_cons.mp hy with rfl | hy
    · have hx' : x ∈ log := by
        rw [h.split]
        simp [hx]
      exact ⟨number ▸ (across x hx first List.mem_cons_self).seq,
        clear x hx' (h.none_before x hx), fun a _ => delivers_of_text no_delivery a⟩
    · exact across x hx y (List.mem_cons_of_mem _ (List.mem_filter.mp hy).1)

theorem FirstAnswer.extends (h : FirstAnswer log before first behind) (keys : TakesKeys log c)
    (text : c.isNumberedText = true) :
    Extends log (before ++ c :: behind.filter (!·.isAnswerText)) := by
  refine ⟨?_, ?_⟩
  · rintro key ⟨e, he, hk⟩
    cases answer : e.isAnswerText with
    | true => exact ⟨c, by simp, (keys key).mpr ⟨e, he, answer, hk⟩⟩
    | false =>
      have ne : e ≠ first := by
        rintro rfl
        rw [h.answer] at answer
        cases answer
      rw [h.split] at he
      have around : e ∈ before ∨ e ∈ behind := by simpa [ne] using he
      exact ⟨e, by simpa [answer] using around.imp_right .inr, hk⟩
  · have no_answer : behind.filter (!·.isNumberedText) =
        (behind.filter (!·.isAnswerText)).filter (!·.isNumberedText) := by
      rw [List.filter_filter]
      refine List.filter_congr fun e _ => ?_
      cases answer : e.isAnswerText with
      | true => simp [isNumberedText_of_answer answer]
      | false => simp
    rw [h.split, List.filter_append, List.filter_append,
      List.filter_cons_of_neg (by simp [isNumberedText_of_answer h.answer]),
      List.filter_cons_of_neg (by simp [text]), no_answer]

end

theorem collapsed_outline (log : Log) {first : StoredTurnEvent}
    (answer : first.isAnswerText = true) (body : Text) :
    (collapsed log first body).seq = first.seq ∧
      (collapsed log first body).isDelivery = false ∧
      (collapsed log first body).isNumberedText = true := by
  obtain ⟨draft, seq, keys⟩ := first
  cases draft with
  | delivery d => cases answer
  | keyed time key fact => cases fact <;> first | exact ⟨rfl, rfl, rfl⟩ | cases answer

theorem takesKeys_truncateNotes {n : Nat} {log : Log} {c : StoredTurnEvent}
    (h : TakesKeys log c) : TakesKeys (truncateNotes n log) c := by
  have answers : ∀ l : Log, ∀ key, (∃ e ∈ l, e.isAnswerText = true ∧ key ∈ e.draftKeys) ↔
      ∃ e ∈ l.filter (·.isAnswerText), key ∈ e.draftKeys := by
    intro l key
    simp [List.mem_filter, and_assoc]
  intro key
  rw [h key, answers, answers, truncateNotes_answers]

/-- Both ways of writing keep the log and its order. -/
theorem reconcile_keeps {log : Log} (wf : WellFormed log) (now : IsoTimestamp) (body : Text) :
    WellFormed (reconcileNumberedTextToPersistedBody now log body).log ∧
      Extends log (reconcileNumberedTextToPersistedBody now log body).log := by
  by_cases answers : NoAnswer log
  · rw [reconcile_of_noAnswer answers]
    refine ⟨wf.push rfl ?_ fun _ _ _ _ => rfl, extends_push log _⟩
    intro x _ key _ other mem
    exact other (List.mem_singleton.mp mem)
  · obtain ⟨before, first, behind, split⟩ := exists_firstAnswer answers
    have hfirst : first ∈ log := by
      rw [split.split]
      simp
    obtain ⟨number, no_delivery, text⟩ := collapsed_outline log split.answer body
    rw [reconcile_of_firstAnswer split]
    generalize survivingNoteLength (noteText log) body = kept
    have cut : WellFormed (truncateNotes kept log) :=
      wf.of_outlines (truncateNotes_outlines kept log)
    have takes := takesKeys_truncateNotes (n := kept) (collapsed_takesKeys hfirst split.answer body)
    exact ⟨cut.collapse (split.truncate kept) number takes no_delivery,
      (truncateNotes_extends kept log).trans ((split.truncate kept).extends takes text)⟩

theorem reconcileLocked_keeps {log : Log} (wf : WellFormed log) (now : IsoTimestamp) (body : Text) :
    WellFormed (reconcileLocked now log body) ∧ Extends log (reconcileLocked now log body) := by
  by_cases same : concatenateNumberedTextEvents log = body
  · rw [reconcileLocked_of_eq same]
    exact ⟨wf, Extends.refl log⟩
  · rw [reconcileLocked_of_ne same]
    exact reconcile_keeps wf now body

/-! ## Every run of the service -/

theorem extends_run (log : Log) (drafts : List TurnEventDraft) :
    Extends log (Runs.run appendDraft log drafts) := by
  induction drafts generalizing log with
  | nil => exact Extends.refl log
  | cons draft drafts ih => exact (appends_appendDraft log draft).extends.trans (ih _)

/-- A draft that is appended is stored. -/
theorem Appends.stores {log log' : Log} {draft : TurnEventDraft} (h : Appends log draft log') :
    stored log' draft = true := by
  cases h with
  | replayed old => exact old
  | delivered new => simp [stored, StoredTurnEvent.delivers]
  | pushed new closed => simp [stored, StoredTurnEvent.holds]
  | merged new reserved empty => simp [stored, StoredTurnEvent.holds]
  | filled new reserved speaks => simp [stored, StoredTurnEvent.holds]
  | extended new split answer closed speaks => simp [stored, StoredTurnEvent.holds]

theorem appendLocked_keeps {log : Log} (wf : WellFormed log) (drafts : List TurnEventDraft) :
    WellFormed (appendLocked log drafts) ∧ Extends log (appendLocked log drafts) := by
  rw [appendLocked_eq_run]
  refine ⟨?_, extends_run log drafts⟩
  induction drafts generalizing log with
  | nil => exact wf
  | cons draft drafts ih => exact ih ((appends_appendDraft log draft).wellFormed wf)

/-- A draft already stored changes nothing. -/
theorem appendDraft_of_stored {log : Log} {draft : TurnEventDraft} (h : stored log draft = true) :
    appendDraft log draft = log := by
  unfold appendDraft Applying.applyDraft
  cases draft with
  | delivery d => exact congrArg Applying.log (if_pos h)
  | keyed time key fact => exact congrArg Applying.log (if_pos h)

theorem appendLocked_of_stored {log : Log} {drafts : List TurnEventDraft}
    (h : ∀ draft ∈ drafts, stored log draft = true) : appendLocked log drafts = log := by
  rw [appendLocked_eq_run]
  induction drafts with
  | nil => rfl
  | cons draft drafts ih =>
    rw [Runs.run_cons, appendDraft_of_stored (h draft List.mem_cons_self)]
    exact ih fun later hl => h later (List.mem_cons_of_mem _ hl)

section
variable {Pod : Type} [DecidableEq Pod]

/-- The writes of a run, whatever the pods hold back. -/
theorem Message.step_turnEvents (m : Message Pod) (e : ServiceEvent Pod) :
    (m.step e).turnEvents = m.turnEvents ∨
      (∃ drafts, (m.step e).turnEvents = appendLocked m.turnEvents drafts) ∨
      ∃ now, (m.step e).turnEvents = reconcileLocked now m.turnEvents m.content := by
  have append : ∀ pod drafts writeEnd, (m.append pod drafts writeEnd).turnEvents = m.turnEvents ∨
      ∃ combined, (m.append pod drafts writeEnd).turnEvents =
        appendLocked m.turnEvents combined := by
    intro pod drafts writeEnd
    unfold Message.append
    dsimp only
    split
    · exact .inl rfl
    · cases writeEnd with
      | committed => exact .inr ⟨_, rfl⟩
      | failed => exact .inl rfl
      | committedButReportedFailed => exact .inr ⟨_, rfl⟩
      | rolledBackAfterReturn => exact .inl rfl
  cases e with
  | append pod drafts writeEnd => exact (append pod drafts writeEnd).imp_right .inl
  | openUtterance pod now draftKey writeEnd => exact (append pod _ writeEnd).imp_right .inl
  | releasePending pod => exact .inl rfl
  | settleContent content => exact .inl rfl
  | reconcileAnswerTextToPersistedBody now committed =>
    cases committed with
    | false => exact .inl rfl
    | true => exact .inr (.inr ⟨now, rfl⟩)

theorem Message.step_keeps {m : Message Pod} (wf : WellFormed m.turnEvents)
    (e : ServiceEvent Pod) :
    WellFormed (m.step e).turnEvents ∧ Extends m.turnEvents (m.step e).turnEvents := by
  obtain same | ⟨drafts, appended⟩ | ⟨now, reconciled⟩ := m.step_turnEvents e
  · rw [same]
    exact ⟨wf, Extends.refl _⟩
  · rw [appended]
    exact appendLocked_keeps wf drafts
  · rw [reconciled]
    exact reconcileLocked_keeps wf now m.content

theorem Message.run_keeps {m : Message Pod} (wf : WellFormed m.turnEvents)
    (es : List (ServiceEvent Pod)) :
    WellFormed (Runs.run Message.step m es).turnEvents ∧
      Extends m.turnEvents (Runs.run Message.step m es).turnEvents := by
  induction es generalizing m with
  | nil => exact ⟨wf, Extends.refl _⟩
  | cons e es ih =>
    obtain ⟨next, step⟩ := m.step_keeps wf e
    obtain ⟨last, later⟩ := ih next
    exact ⟨last, step.trans later⟩

theorem logAfter_wellFormed (content : Text) (es : List (ServiceEvent Pod)) :
    WellFormed (logAfter content es) :=
  (Message.run_keeps (m := Message.fresh content) List.Pairwise.nil es).1

/-- The stored log, after any part of a run and after the whole of it. -/
theorem logAfter_extends (content : Text) (es later : List (ServiceEvent Pod)) :
    Extends (logAfter content es) (logAfter content (es ++ later)) := by
  rw [logAfter, logAfter, Runs.run_append]
  exact (Message.run_keeps (logAfter_wellFormed content es) later).2

theorem length_filter_of_pairwise {p : StoredTurnEvent → Bool} {log : Log}
    (h : log.Pairwise fun x y => p x = true → p y = false) : (log.filter p).length ≤ 1 := by
  have none_two : (log.filter p).Pairwise fun x y => p x = true → p y = false :=
    h.sublist List.filter_sublist
  cases hits : log.filter p with
  | nil => simp
  | cons x rest =>
    cases rest with
    | nil => simp
    | cons y rest =>
      have both : x ∈ log.filter p ∧ y ∈ log.filter p := by simp [hits]
      have px : p x = true := (List.mem_filter.mp both.1).2
      have py : p y = true := (List.mem_filter.mp both.2).2
      rw [hits] at none_two
      have not_py := (List.pairwise_cons.mp none_two).1 y List.mem_cons_self px
      rw [py] at not_py
      cases not_py

theorem WellFormed.holds_once {log : Log} (wf : WellFormed log) {key : DraftKey}
    (other : key ≠ reconciledAnswerTextDraftKey) : (log.filter (·.holds key)).length ≤ 1 := by
  refine length_filter_of_pairwise (wf.imp ?_)
  intro x y apart hx
  have hk : key ∈ x.draftKeys := by simpa [StoredTurnEvent.holds] using hx
  simpa [StoredTurnEvent.holds] using apart.keys key hk other

theorem Extends.holds {log log' : Log} (h : Extends log log') {key : DraftKey}
    (old : ∃ e ∈ log, key ∈ e.draftKeys) : 1 ≤ (log'.filter (·.holds key)).length := by
  obtain ⟨e, he, hk⟩ := h.keys key old
  refine List.length_pos_of_mem (List.mem_filter.mpr ⟨he, ?_⟩)
  simpa [StoredTurnEvent.holds] using hk

/-- A draft once stored is stored for good. -/
theorem Extends.stored {log log' : Log} (h : Extends log log') {draft : TurnEventDraft}
    (old : stored log draft = true) : stored log' draft = true := by
  cases draft with
  | delivery d =>
    obtain ⟨e, he, delivers⟩ := List.any_eq_true.mp old
    have no_text : e.isNumberedText = false := by
      cases text : e.text? with
      | none => simp [StoredTurnEvent.isNumberedText, text]
      | some t =>
        rw [delivers_of_text (not_isDelivery_of_text text)] at delivers
        cases delivers
    have kept := h.rest.subset (List.mem_filter.mpr ⟨he, by simpa using no_text⟩)
    exact List.any_eq_true.mpr ⟨e, (List.mem_filter.mp kept).1, delivers⟩
  | keyed time key fact =>
    obtain ⟨e, he, holds⟩ := List.any_eq_true.mp old
    obtain ⟨e', he', hk⟩ := h.keys key ⟨e, he, by simpa [StoredTurnEvent.holds] using holds⟩
    exact List.any_eq_true.mpr ⟨e', he', by simpa [StoredTurnEvent.holds] using hk⟩

/-- A batch that is written is stored, and so it stays. -/
theorem stored_appendLocked {log : Log} {drafts : List TurnEventDraft} {draft : TurnEventDraft}
    (mem : draft ∈ drafts) : stored (appendLocked log drafts) draft = true := by
  rw [appendLocked_eq_run]
  induction drafts generalizing log with
  | nil => cases mem
  | cons first drafts ih =>
    rcases List.mem_cons.mp mem with rfl | later
    · exact (extends_run _ drafts).stored (appends_appendDraft log draft).stores
    · exact ih later

theorem stored_of_appendLocked {log : Log} {draft : TurnEventDraft} (drafts : List TurnEventDraft)
    (old : stored log draft = true) : stored (appendLocked log drafts) draft = true := by
  rw [appendLocked_eq_run]
  exact (extends_run log drafts).stored old

/-- The log after a part of a run, and after the whole of it: numbers in order; every key
ever stored is still there, and in one event if it is a draft's; an attachment is delivered
once; what is no text stays as it is, in its order; and stored drafts change nothing. -/
theorem logAfter_appendOnly (content : Text) (es later : List (ServiceEvent Pod)) :
    let old := logAfter content es
    let log := logAfter content (es ++ later)
    (log.map (·.seq)).Pairwise (· < ·) ∧
      (∀ key, (∃ e ∈ old, key ∈ e.draftKeys) → 1 ≤ (log.filter (·.holds key)).length ∧
        (key ≠ reconciledAnswerTextDraftKey → (log.filter (·.holds key)).length = 1)) ∧
      (∀ a, (log.filter (·.delivers a)).length ≤ 1) ∧
      (old.filter (!·.isNumberedText)).Sublist (log.filter (!·.isNumberedText)) ∧
      ∀ drafts, (∀ draft ∈ drafts, stored old draft = true) → appendLocked log drafts = log := by
  intro old log
  have wf : WellFormed log := logAfter_wellFormed content (es ++ later)
  have extended : Extends old log := logAfter_extends content es later
  refine ⟨?_, ?_, ?_, extended.rest, ?_⟩
  · rw [List.pairwise_map]
    exact wf.imp fun apart => apart.seq
  · intro key kept
    refine ⟨extended.holds kept, fun other => ?_⟩
    exact Nat.le_antisymm (wf.holds_once other) (extended.holds kept)
  · intro a
    exact length_filter_of_pairwise (wf.imp fun apart => apart.attachments a)
  · intro drafts kept
    exact appendLocked_of_stored fun draft hd => extended.stored (kept draft hd)

end

/-- The reconciliation's key on an answer it emptied goes on with the note that takes its
place, and the next reconciliation, finding no answer, uses it again. -/
def reusedKeyRun : List (ServiceEvent Unit) :=
  [.append () [.keyed "t1" "r#1" (.note [97] .step)] .committed,
   .settleContent [98], .reconcileAnswerTextToPersistedBody "t2" true,
   .settleContent [97], .reconcileAnswerTextToPersistedBody "t3" true,
   .append () [.keyed "t4" "r#2" (.note [120] .step)] .committed,
   .settleContent [99], .reconcileAnswerTextToPersistedBody "t5" true]

theorem reconciled_key_stored_twice :
    (∃ e ∈ logAfter [] (reusedKeyRun.take 3), reconciledAnswerTextDraftKey ∈ e.draftKeys) ∧
      ((logAfter [] reusedKeyRun).filter (·.holds reconciledAnswerTextDraftKey)).length = 2 := by
  decide +kernel

end Persai.TurnEvents
