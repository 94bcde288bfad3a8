import Persai.TurnEvents.Appending

/-!
# Reconciling the texts with the settled body

`reconcileAnswerTextToPersistedBody` is to make the concatenation of the log's texts
equal the body. It keeps the narration the body still opens with, cuts the rest of the
notes, and puts what remains of the body into the first answer. The result reads as the
surviving notes before the first answer, the remainder, the surviving notes behind it.
-/

namespace Persai.TurnEvents

/-! ## The parts of the text -/

theorem concatenate_append (first second : Log) :
    concatenateNumberedTextEvents (first ++ second) =
      concatenateNumberedTextEvents first ++ concatenateNumberedTextEvents second := by
  simp [concatenateNumberedTextEvents]

theorem concatenate_cons (e : StoredTurnEvent) (log : Log) :
    concatenateNumberedTextEvents (e :: log) =
      e.text?.getD [] ++ concatenateNumberedTextEvents log := by
  rw [concatenateNumberedTextEvents, List.filterMap_cons]
  cases e.text? <;> rfl

theorem noteText_append (first second : Log) :
    noteText (first ++ second) = noteText first ++ noteText second := by
  simp [noteText]

theorem noteText_cons (e : StoredTurnEvent) (log : Log) :
    noteText (e :: log) = e.noteText?.getD [] ++ noteText log := by
  rw [noteText, List.filterMap_cons]
  cases e.noteText? <;> rfl

/-- No event of the log is an answer. -/
def NoAnswer (log : Log) : Prop := ∀ e ∈ log, e.isAnswerText = false

theorem text_of_noAnswer {e : StoredTurnEvent} (h : e.isAnswerText = false) :
    e.text? = e.noteText? := by
  obtain ⟨draft, seq, keys⟩ := e
  cases draft with
  | delivery d => rfl
  | keyed time key fact => cases fact <;> first | rfl | cases h

theorem noteText_of_answer {e : StoredTurnEvent} (h : e.isAnswerText = true) :
    e.noteText? = none := by
  obtain ⟨draft, seq, keys⟩ := e
  cases draft with
  | delivery d => rfl
  | keyed time key fact => cases fact <;> first | rfl | cases h

/-- Without an answer the narration is all the text. -/
theorem NoAnswer.concatenate {log : Log} (h : NoAnswer log) :
    concatenateNumberedTextEvents log = noteText log := by
  induction log with
  | nil => rfl
  | cons e log ih =>
    rw [concatenate_cons, noteText_cons, ih fun e' he' => h e' (List.mem_cons_of_mem _ he'),
      text_of_noAnswer (h e List.mem_cons_self)]

theorem noAnswer_filter (log : Log) : NoAnswer (log.filter (!·.isAnswerText)) := by
  intro e he
  simpa using (List.mem_filter.mp he).2

theorem noteText_filter (log : Log) :
    noteText (log.filter (!·.isAnswerText)) = noteText log := by
  induction log with
  | nil => rfl
  | cons e log ih =>
    cases answer : e.isAnswerText with
    | false => rw [List.filter_cons_of_pos (by simp [answer]), noteText_cons, ih, noteText_cons]
    | true =>
      rw [List.filter_cons_of_neg (by simp [answer]), ih, noteText_cons, noteText_of_answer answer]
      rfl

/-! ## Cutting the notes -/

theorem longestCommonPrefix_take (left right : Text) :
    left.take (longestCommonPrefix left right) = right.take (longestCommonPrefix left right) := by
  induction left generalizing right with
  | nil => simp [longestCommonPrefix]
  | cons a left ih =>
    cases right with
    | nil => simp [longestCommonPrefix]
    | cons b right =>
      rw [longestCommonPrefix]
      split
      · next same => rw [same, List.take_succ_cons, List.take_succ_cons, ih]
      · rfl

/-- The body opens with the narration that survives. -/
theorem take_survivingNoteLength (narration body : Text) :
    narration.take (survivingNoteLength narration body) =
      body.take (survivingNoteLength narration body) := by
  unfold survivingNoteLength
  split
  · next opens =>
    have prefixed : narration <+: body := List.isPrefixOf_iff_prefix.mp opens
    rw [List.take_length, ← List.prefix_iff_eq_take.mp prefixed]
  · exact longestCommonPrefix_take narration body

theorem noteText_withText {e : StoredTurnEvent} {text cut : Text} (h : e.noteText? = some text) :
    (e.withText cut).noteText? = some cut := by
  obtain ⟨draft, seq, keys⟩ := e
  cases draft with
  | delivery d => cases h
  | keyed time key fact => cases fact <;> first | rfl | cases h

theorem withText_self {e : StoredTurnEvent} {text : Text} (h : e.noteText? = some text) :
    e.withText text = e := by
  obtain ⟨draft, seq, keys⟩ := e
  cases draft with
  | delivery d => cases h
  | keyed time key fact => cases fact <;> first | cases h; rfl | cases h

theorem truncateNotes_append (n : Nat) (first second : Log) :
    truncateNotes n (first ++ second) =
      truncateNotes n first ++ truncateNotes (n - (noteText first).length) second := by
  induction first generalizing n with
  | nil => rfl
  | cons e first ih =>
    rw [List.cons_append, truncateNotes, truncateNotes, noteText_cons]
    cases note : e.noteText? with
    | none => simp only [ih, Option.getD_none, List.nil_append, List.cons_append]
    | some text =>
      simp only [ih, Option.getD_some, List.length_append, List.cons_append, Nat.sub_sub]

theorem noteText_truncateNotes (n : Nat) (log : Log) :
    noteText (truncateNotes n log) = (noteText log).take n := by
  induction log generalizing n with
  | nil => simp [truncateNotes, noteText]
  | cons e log ih =>
    rw [truncateNotes, noteText_cons]
    cases note : e.noteText? with
    | none =>
      dsimp only
      rw [noteText_cons, note, ih]
      rfl
    | some text =>
      dsimp only
      rw [noteText_cons, noteText_withText note, ih]
      simp [List.take_append]

/-- Cutting behind the end cuts nothing. -/
theorem truncateNotes_of_le {n : Nat} {log : Log} (h : (noteText log).length ≤ n) :
    truncateNotes n log = log := by
  induction log generalizing n with
  | nil => rfl
  | cons e log ih =>
    rw [noteText_cons, List.length_append] at h
    rw [truncateNotes]
    cases note : e.noteText? with
    | none =>
      rw [note] at h
      dsimp only
      rw [ih (by simpa using h)]
    | some text =>
      rw [note] at h
      simp only [Option.getD_some] at h
      dsimp only
      rw [List.take_of_length_le (by omega), withText_self note, ih (by omega)]

theorem truncateNotes_answers (n : Nat) (log : Log) :
    (truncateNotes n log).filter (·.isAnswerText) = log.filter (·.isAnswerText) := by
  induction log generalizing n with
  | nil => rfl
  | cons e log ih =>
    rw [truncateNotes]
    cases note : e.noteText? with
    | none => simp only [List.filter_cons, ih]
    | some text =>
      obtain ⟨draft, seq, keys⟩ := e
      cases draft with
      | delivery d => cases note
      | keyed time key fact =>
        cases fact <;> first | exact ih _ | cases note

/-! ## The two ways a reconciliation writes -/

/-- The first answer, with what remains of the body and the keys of all answers. -/
def collapsed (log : Log) (first : StoredTurnEvent) (body : Text) : StoredTurnEvent :=
  let keys := ((log.filter (·.isAnswerText)).flatMap (·.draftKeys)).eraseDups
  { first.withText (body.drop (survivingNoteLength (noteText log) body)) with
    draftKeys := if keys.isEmpty then first.draftKeys else keys }

/-- The log around its first answer. -/
structure FirstAnswer (log before : Log) (first : StoredTurnEvent) (behind : Log) : Prop where
  split : log = before ++ first :: behind
  none_before : NoAnswer before
  answer : first.isAnswerText = true

theorem filter_of_noAnswer {log : Log} (h : NoAnswer log) :
    log.filter (·.isAnswerText) = [] := by
  rw [List.filter_eq_nil_iff]
  intro e he
  simp [h e he]

theorem collapseAnswers_of_firstAnswer {log before behind : Log} {first : StoredTurnEvent}
    (h : FirstAnswer log before first behind) (c : StoredTurnEvent) :
    collapseAnswers c log = before ++ c :: behind.filter (!·.isAnswerText) := by
  obtain ⟨rfl, none_before, answer⟩ := h
  induction before with
  | nil => simp [collapseAnswers, answer]
  | cons e before ih =>
    have not_answer : e.isAnswerText = false := none_before e List.mem_cons_self
    have rest := ih fun e' he' => none_before e' (List.mem_cons_of_mem _ he')
    simp [collapseAnswers, not_answer, rest]

theorem noAnswer_truncateNotes {log : Log} (h : NoAnswer log) (n : Nat) :
    NoAnswer (truncateNotes n log) := by
  have answers := truncateNotes_answers n log
  rw [filter_of_noAnswer h, List.filter_eq_nil_iff] at answers
  intro e he
  simpa using answers e he

theorem FirstAnswer.noteText_first {log before behind : Log} {first : StoredTurnEvent}
    (h : FirstAnswer log before first behind) : first.noteText? = none :=
  noteText_of_answer h.answer

theorem FirstAnswer.noteText_eq {log before behind : Log} {first : StoredTurnEvent}
    (h : FirstAnswer log before first behind) :
    noteText log = noteText before ++ noteText behind := by
  rw [h.split, noteText_append, noteText_cons, h.noteText_first]
  rfl

theorem FirstAnswer.truncate {log before behind : Log} {first : StoredTurnEvent}
    (h : FirstAnswer log before first behind) (n : Nat) :
    FirstAnswer (truncateNotes n log) (truncateNotes n before) first
      (truncateNotes (n - (noteText before).length) behind) where
  split := by
    rw [h.split, truncateNotes_append, truncateNotes, h.noteText_first]
  none_before := noAnswer_truncateNotes h.none_before n
  answer := h.answer

theorem exists_firstAnswer {log : Log} (h : ¬ NoAnswer log) :
    ∃ before first behind, FirstAnswer log before first behind := by
  induction log with
  | nil => exact absurd (fun e he => absurd he List.not_mem_nil) h
  | cons e log ih =>
    cases answer : e.isAnswerText with
    | true => exact ⟨[], e, log, rfl, fun _ he => absurd he List.not_mem_nil, answer⟩
    | false =>
      obtain ⟨before, first, behind, rfl, none_before, is_answer⟩ := ih fun none_later =>
        h fun e' he' => (List.mem_cons.mp he').elim (fun same => same ▸ answer) (none_later e')
      refine ⟨e :: before, first, behind, rfl, ?_, is_answer⟩
      intro e' he'
      rcases List.mem_cons.mp he' with rfl | he'
      · exact answer
      · exact none_before e' he'

theorem reconcile_of_noAnswer {log : Log} (h : NoAnswer log) (now : IsoTimestamp) (body : Text) :
    (reconcileNumberedTextToPersistedBody now log body).log =
      log ++ [⟨.keyed now reconciledAnswerTextDraftKey (.answerText body), freshSeq log,
        [reconciledAnswerTextDraftKey]⟩] := by
  rw [reconcileNumberedTextToPersistedBody, filter_of_noAnswer h]

theorem reconcile_of_firstAnswer {log before behind : Log} {first : StoredTurnEvent}
    (h : FirstAnswer log before first behind) (now : IsoTimestamp) (body : Text) :
    (reconcileNumberedTextToPersistedBody now log body).log =
      let kept := survivingNoteLength (noteText log) body
      truncateNotes kept before ++ collapsed log first body ::
        (truncateNotes (kept - (noteText before).length) behind).filter
          (!·.isAnswerText) := by
  have answers : log.filter (·.isAnswerText) =
      first :: behind.filter (·.isAnswerText) := by
    rw [h.split, List.filter_append, filter_of_noAnswer h.none_before, List.nil_append,
      List.filter_cons_of_pos h.answer]
  -- where nothing is discarded the surviving length is that of the whole narration
  have notes : (if (!(noteText log).isEmpty && !(noteText log).isPrefixOf body) = true then
      truncateNotes (survivingNoteLength (noteText log) body) log else log) =
      truncateNotes (survivingNoteLength (noteText log) body) log := by
    split
    · rfl
    · next survived =>
      refine (truncateNotes_of_le ?_).symm
      rw [survivingNoteLength]
      cases narration : noteText log with
      | nil => simp
      | cons a narration' =>
        have opens : (a :: narration').isPrefixOf body = true := by simpa [narration] using survived
        exact Nat.le_of_eq (if_pos opens).symm
  rw [reconcileNumberedTextToPersistedBody, answers]
  dsimp only
  rw [notes, collapseAnswers_of_firstAnswer (h.truncate _), collapsed, answers]

/-! ## When the text becomes the body -/

/-- The narration behind the first answer of the log. -/
def narrationBehindAnswer (log : Log) : Text :=
  noteText (log.dropWhile (!·.isAnswerText))

/-- The narration before the first answer of the log. -/
def narrationBeforeAnswer (log : Log) : Text :=
  noteText (log.takeWhile (!·.isAnswerText))

theorem FirstAnswer.narration {log before behind : Log} {first : StoredTurnEvent}
    (h : FirstAnswer log before first behind) :
    narrationBeforeAnswer log = noteText before ∧ narrationBehindAnswer log = noteText behind := by
  have before_none : ∀ e ∈ before, (!e.isAnswerText) = true := by
    intro e he
    simp [h.none_before e he]
  have first_some : ¬ (!first.isAnswerText) = true := by simp [h.answer]
  constructor
  · rw [narrationBeforeAnswer, h.split, List.takeWhile_append_of_pos before_none,
      List.takeWhile_cons, if_neg first_some, List.append_nil]
  · rw [narrationBehindAnswer, h.split, List.dropWhile_append_of_pos before_none,
      List.dropWhile_cons, if_neg first_some, noteText_cons, h.noteText_first]
    rfl

/-- What survives of the narration behind the first answer. -/
def survivingBehindAnswer (log : Log) (body : Text) : Text :=
  (narrationBehindAnswer log).take
    (survivingNoteLength (noteText log) body - (narrationBeforeAnswer log).length)

/-- What the body says beyond the surviving narration. -/
def bodyRemainder (log : Log) (body : Text) : Text :=
  body.drop (survivingNoteLength (noteText log) body)

/-- The reconciled text: the remainder has come before the narration behind the answer. -/
theorem concatenate_reconcile_of_firstAnswer {log before behind : Log} {first : StoredTurnEvent}
    (h : FirstAnswer log before first behind) (now : IsoTimestamp) (body : Text) :
    concatenateNumberedTextEvents (reconcileNumberedTextToPersistedBody now log body).log =
      (noteText before).take (survivingNoteLength (noteText log) body) ++
        (bodyRemainder log body ++ survivingBehindAnswer log body) := by
  obtain ⟨before_eq, behind_eq⟩ := h.narration
  have remainder : (collapsed log first body).text? = some (bodyRemainder log body) := by
    have answer := h.answer
    obtain ⟨draft, seq, keys⟩ := first
    cases draft with
    | delivery d => cases answer
    | keyed time key fact => cases fact <;> first | rfl | cases answer
  rw [reconcile_of_firstAnswer h now body]
  dsimp only
  rw [concatenate_append, (noAnswer_truncateNotes h.none_before _).concatenate,
    noteText_truncateNotes, concatenate_cons, remainder, (noAnswer_filter _).concatenate,
    noteText_filter, noteText_truncateNotes, survivingBehindAnswer, before_eq, behind_eq]
  rfl

/-- The body, cut at the same places. -/
theorem body_eq_of_firstAnswer {log before behind : Log} {first : StoredTurnEvent}
    (h : FirstAnswer log before first behind) (body : Text) :
    body = (noteText before).take (survivingNoteLength (noteText log) body) ++
      (survivingBehindAnswer log body ++ bodyRemainder log body) := by
  obtain ⟨before_eq, behind_eq⟩ := h.narration
  have opens := take_survivingNoteLength (noteText log) body
  rw [← List.append_assoc, survivingBehindAnswer, bodyRemainder, before_eq, behind_eq,
    ← List.take_append, ← h.noteText_eq, opens, List.take_append_drop]

/-- The texts read as the body after a reconciliation, and a second one, at any later time,
finds nothing to do. -/
def ReachesBody (log : Log) (body : Text) : Prop :=
  ∀ now later : IsoTimestamp,
    concatenateNumberedTextEvents (reconcileLocked now log body) = body ∧
      reconcileLocked later (reconcileLocked now log body) body = reconcileLocked now log body

/-- The texts read as the body already; or there is no answer and the notes are silent; or
what survives of the narration behind the first answer commutes with what the body says
beyond the narration, as it does when nothing survives there. -/
def Reconcilable (log : Log) (body : Text) : Prop :=
  concatenateNumberedTextEvents log = body ∨
    if log.any (·.isAnswerText) then
      survivingBehindAnswer log body ++ bodyRemainder log body =
        bodyRemainder log body ++ survivingBehindAnswer log body
    else noteText log = []

instance (log : Log) (body : Text) : Decidable (Reconcilable log body) :=
  inferInstanceAs (Decidable (_ ∨ ite _ _ _))

theorem reconcileLocked_of_eq {log : Log} {body : Text}
    (h : concatenateNumberedTextEvents log = body) (now : IsoTimestamp) :
    reconcileLocked now log body = log := by
  rw [reconcileLocked, reconcileLocked?, if_pos h]
  rfl

theorem reconcileLocked_of_ne {log : Log} {body : Text}
    (h : concatenateNumberedTextEvents log ≠ body) (now : IsoTimestamp) :
    reconcileLocked now log body = (reconcileNumberedTextToPersistedBody now log body).log := by
  rw [reconcileLocked, reconcileLocked?, if_neg h]
  rfl

/-- The second call asks what the first one left. -/
theorem reachesBody_iff_concatenate {log : Log} {body : Text} :
    ReachesBody log body ↔
      ∀ now, concatenateNumberedTextEvents (reconcileLocked now log body) = body := by
  constructor
  · intro reaches now
    exact (reaches now now).1
  · intro reads now later
    exact ⟨reads now, reconcileLocked_of_eq (reads now) later⟩

/-- The text one reconciliation leaves, told by the log before it. -/
theorem concatenate_reconcile_iff (log : Log) (body : Text)
    (differs : concatenateNumberedTextEvents log ≠ body) (now : IsoTimestamp) :
    concatenateNumberedTextEvents (reconcileNumberedTextToPersistedBody now log body).log = body ↔
      Reconcilable log body := by
  rw [Reconcilable, or_iff_right differs]
  by_cases answers : NoAnswer log
  · have none_any : ¬ log.any (·.isAnswerText) = true := by
      simpa [NoAnswer] using answers
    rw [if_neg none_any, reconcile_of_noAnswer answers, concatenate_append, answers.concatenate]
    change noteText log ++ (body ++ []) = body ↔ noteText log = []
    simp
  · obtain ⟨before, first, behind, split⟩ := exists_firstAnswer answers
    have some_any : log.any (·.isAnswerText) = true := by
      rw [split.split]
      simp [split.answer]
    rw [if_pos some_any, concatenate_reconcile_of_firstAnswer split]
    conv => lhs; rhs; rw [body_eq_of_firstAnswer split body]
    rw [List.append_cancel_left_eq]
    exact eq_comm

theorem reachesBody_iff (log : Log) (body : Text) :
    ReachesBody log body ↔ Reconcilable log body := by
  rw [reachesBody_iff_concatenate]
  by_cases same : concatenateNumberedTextEvents log = body
  · have reads : ∀ now, concatenateNumberedTextEvents (reconcileLocked now log body) = body := by
      intro now
      rw [reconcileLocked_of_eq same now, same]
    exact iff_of_true reads (.inl same)
  · constructor
    · intro reads
      have left := reads ""
      rw [reconcileLocked_of_ne same] at left
      exact (concatenate_reconcile_iff log body same "").mp left
    · intro condition now
      rw [reconcileLocked_of_ne same]
      exact (concatenate_reconcile_iff log body same now).mpr condition

/-- A turn that narrated and then answered with silence, its body substituted. -/
theorem not_reachesBody_silent_turn :
    ¬ ReachesBody
      (logAfter [] [ServiceEvent.append () [.keyed "t1" "r#1" (.note [72, 105] .step)] .committed])
      [72, 105, 33] := by
  intro reaches
  exact absurd (reaches "t2" "t3").1 (by decide +kernel)

end Persai.TurnEvents
