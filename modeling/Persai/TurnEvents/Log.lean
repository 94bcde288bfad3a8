import Persai.Runs
import Mathlib.Data.List.Basic
import Mathlib.Logic.Function.Basic

/-!
# The turn-event log of a message

`AppendTurnEventsService` is the only writer of a message's `turnEvents`. A write locks
the row, reads the log and stores a new one, so that writes of different pods follow one
another. Drafts come in batches; a draft whose key or attachment the log already holds
is skipped. `openUtterance` reserves a place by appending a text that is empty, and the
next draft may take that place. At the end of a turn the texts are reconciled with the
message's settled body.

Drafts that could not be written wait in the memory of the pod that tried, and go before
that pod's next drafts.
-/

namespace Persai.TurnEvents

/-- A JavaScript string, compared and cut by its UTF-16 code units. -/
abbrev Text := List UInt16

abbrev IsoTimestamp := String

abbrev DraftKey := String

inductive NoteDisplay where
  | step | content
  deriving DecidableEq, Repr

inductive ToolExecutionMode where
  | inline | worker | sandbox
  deriving DecidableEq, Repr

inductive ArtifactKind where
  | image | video | audio | document | file
  deriving DecidableEq, Repr

inductive JobKind where
  | media | document | sandbox
  deriving DecidableEq, Repr

/-- What a draft of the runtime says: every kind but `delivery`. -/
inductive Fact where
  | note (text : Text) (display : NoteDisplay)
  | toolCall (name : String) (ok : Bool) (toolCallId : String)
      (executionMode : Option ToolExecutionMode)
  | answerText (text : Text)
  | jobAccepted (jobId : String) (jobKind : JobKind)
  | turnStopped (reason : String)
  | turnFailed (reason : String)
  deriving DecidableEq, Repr

/-- The server's own draft of an attachment row. -/
structure DeliveryDraft where
  /-- `at`. -/
  time : IsoTimestamp
  attachmentId : String
  artifactKind : ArtifactKind
  filename : Option String
  sizeBytes : Option Nat
  deriving DecidableEq, Repr

/-- A delivery goes by its attachment, every other draft by its key. -/
inductive TurnEventDraft where
  | delivery (d : DeliveryDraft)
  | keyed (time : IsoTimestamp) (draftKey : DraftKey) (fact : Fact)
  deriving DecidableEq, Repr

/-- A draft with its number, and the keys of every draft folded into it. -/
structure StoredTurnEvent where
  draft : TurnEventDraft
  seq : Nat
  draftKeys : List DraftKey
  deriving DecidableEq, Repr

/-- What a client sees of an event: no key. -/
inductive PublicTurnEvent where
  | delivery (d : DeliveryDraft) (seq : Nat)
  | keyed (time : IsoTimestamp) (fact : Fact) (seq : Nat)
  deriving DecidableEq, Repr

/-- `RECONCILED_ANSWER_TEXT_DRAFT_KEY`. -/
def reconciledAnswerTextDraftKey : DraftKey := "adr170-d5.3:reconciled-answer-text"

/-- `PENDING_DRAFTS_MAX_LENGTH`. -/
def pendingDraftsMaxLength : Nat := 500

/-- The text of a note or of an answer. -/
def Fact.text? : Fact → Option Text
  | .note text _ | .answerText text => some text
  | _ => none

def Fact.withText (text : Text) : Fact → Fact
  | .note _ display => .note text display
  | .answerText _ => .answerText text
  | fact => fact

namespace TurnEventDraft

def text? : TurnEventDraft → Option Text
  | .delivery _ => none
  | .keyed _ _ fact => fact.text?

def withText (text : Text) : TurnEventDraft → TurnEventDraft
  | .delivery d => .delivery d
  | .keyed time key fact => .keyed time key (fact.withText text)

def time : TurnEventDraft → IsoTimestamp
  | .delivery d => d.time
  | .keyed t _ _ => t

def isDelivery : TurnEventDraft → Bool
  | .delivery _ => true
  | .keyed .. => false

def noteText? : TurnEventDraft → Option Text
  | .keyed _ _ (.note text _) => some text
  | _ => none

def answerText? : TurnEventDraft → Option Text
  | .keyed _ _ (.answerText text) => some text
  | _ => none

end TurnEventDraft

namespace StoredTurnEvent

abbrev text? (e : StoredTurnEvent) : Option Text := e.draft.text?
abbrev noteText? (e : StoredTurnEvent) : Option Text := e.draft.noteText?
abbrev answerText? (e : StoredTurnEvent) : Option Text := e.draft.answerText?
abbrev isDelivery (e : StoredTurnEvent) : Bool := e.draft.isDelivery

/-- A note or an answer, the empty text of a reservation included. -/
abbrev isNumberedText (e : StoredTurnEvent) : Bool := e.text?.isSome

@[simp] theorem text?_keyed (time : IsoTimestamp) (key : DraftKey) (fact : Fact) (seq : Nat)
    (keys : List DraftKey) : text? ⟨.keyed time key fact, seq, keys⟩ = fact.text? := rfl

/-- The event's kind is `answer_text`. -/
def isAnswerText (e : StoredTurnEvent) : Bool := e.answerText?.isSome

def withText (e : StoredTurnEvent) (text : Text) : StoredTurnEvent :=
  { e with draft := e.draft.withText text }

/-- The event is the delivery of the attachment `a`. -/
def delivers (a : String) (e : StoredTurnEvent) : Bool :=
  match e.draft with
  | .delivery d => d.attachmentId == a
  | .keyed .. => false

/-- The event's keys include `key`. -/
def holds (key : DraftKey) (e : StoredTurnEvent) : Bool := e.draftKeys.contains key

/-- `projectTurnEventForWire`. -/
def projectTurnEventForWire (e : StoredTurnEvent) : PublicTurnEvent :=
  match e.draft with
  | .delivery d => .delivery d e.seq
  | .keyed time _ fact => .keyed time fact e.seq

end StoredTurnEvent

abbrev Log := List StoredTurnEvent

/-- `log.reduce((max, event) => Math.max(max, event.seq), 0) + 1`. -/
def freshSeq (log : Log) : Nat := log.foldl (fun m e => max m e.seq) 0 + 1

/-- `concatenateNumberedTextEvents`. -/
def concatenateNumberedTextEvents (log : Log) : Text := (log.filterMap (·.text?)).flatten

/-- The last event that is no delivery, with its index. -/
def findNearestNonDeliveryEvent (log : Log) : Option (StoredTurnEvent × Nat) :=
  log.zipIdx.reverse.find? fun p => !p.1.isDelivery

/-- That event, where it is a text still empty: the reserved slot. -/
def unfilledReservation (log : Log) : Option (StoredTurnEvent × Nat) :=
  (findNearestNonDeliveryEvent log).filter fun p => p.1.text? == some []

/-! ## Appending -/

/-- The variables of `applyDrafts`. -/
structure Applying where
  log : Log
  appended : List PublicTurnEvent
  mutated : Bool
  nextSeq : Nat

namespace Applying

/-- A new event at the tail, under the next number. -/
def push (s : Applying) (draft : TurnEventDraft) (draftKeys : List DraftKey) : Applying :=
  let event : StoredTurnEvent := ⟨draft, s.nextSeq, draftKeys⟩
  { log := s.log ++ [event], appended := s.appended ++ [event.projectTurnEventForWire],
    mutated := true, nextSeq := s.nextSeq + 1 }

/-- An event rewritten in its place. -/
def rewrite (s : Applying) (index : Nat) (event : StoredTurnEvent) : Applying :=
  { s with log := s.log.set index event, mutated := true,
           appended := s.appended ++ [event.projectTurnEventForWire] }

/-- The body of the loop of `applyDrafts`. -/
def applyDraft (s : Applying) : TurnEventDraft → Applying
  | .delivery d =>
    if s.log.any (·.delivers d.attachmentId) then s else s.push (.delivery d) []
  | .keyed time key fact =>
    if s.log.any (·.holds key) then s
    else if fact.text? = some [] then
      match unfilledReservation s.log with
      | some (target, index) =>
        -- the second key of one utterance: nothing to show, so nothing appended
        { s with log := s.log.set index { target with draftKeys := target.draftKeys ++ [key] },
                 mutated := true }
      | none => s.push (.keyed time key fact) [key]
    else
      match unfilledReservation s.log with
      | some (target, index) =>
        -- the slot's own `at`; the draft's kind is not looked at
        s.rewrite index
          ⟨.keyed target.draft.time key fact, target.seq, target.draftKeys ++ [key]⟩
      | none =>
        match fact, s.log.getLast? with
        | .answerText text, some last =>
          match last.answerText? with
          | some segment =>
            s.rewrite (s.log.length - 1)
              { last.withText (segment ++ text) with draftKeys := last.draftKeys ++ [key] }
          | none => s.push (.keyed time key fact) [key]
        | _, _ => s.push (.keyed time key fact) [key]

end Applying

def applyDrafts (existingLog : Log) (drafts : List TurnEventDraft) : Applying :=
  drafts.foldl Applying.applyDraft ⟨existingLog, [], false, freshSeq existingLog⟩

/-- The log `appendLocked` leaves: the column is written only when something changed. -/
def appendLocked (log : Log) (drafts : List TurnEventDraft) : Log :=
  let applied := applyDrafts log drafts
  if applied.mutated then applied.log else log

/-! ## Reconciliation -/

/-- `longestCommonPrefix`. -/
def longestCommonPrefix : Text → Text → Nat
  | a :: left, b :: right => if a = b then longestCommonPrefix left right + 1 else 0
  | _, _ => 0

/-- The notes cut to the first `remaining` units of their texts taken together. -/
def truncateNotes : Nat → Log → Log
  | _, [] => []
  | remaining, e :: log =>
    match e.noteText? with
    | some text =>
      e.withText (text.take remaining) :: truncateNotes (remaining - text.length) log
    | none => e :: truncateNotes remaining log

/-- The first answer replaced by `collapsed`, the other answers removed. -/
def collapseAnswers (collapsed : StoredTurnEvent) : Log → Log
  | [] => []
  | e :: log =>
    if e.isAnswerText then collapsed :: log.filter (!·.isAnswerText)
    else e :: collapseAnswers collapsed log

structure Reconciled where
  log : Log
  changed : List PublicTurnEvent
  discardedNarration : Bool

/-- The texts of the notes, in log order. -/
def noteText (log : Log) : Text := (log.filterMap (·.noteText?)).flatten

/-- How much of the narration the settled body still opens with. -/
def survivingNoteLength (noteText persistedBody : Text) : Nat :=
  if noteText.isPrefixOf persistedBody then noteText.length
  else longestCommonPrefix noteText persistedBody

def reconcileNumberedTextToPersistedBody (now : IsoTimestamp) (existingLog : Log)
    (persistedBody : Text) : Reconciled :=
  match existingLog.filter (·.isAnswerText) with
  | [] =>
    let tailEvent : StoredTurnEvent :=
      ⟨.keyed now reconciledAnswerTextDraftKey (.answerText persistedBody), freshSeq existingLog,
        [reconciledAnswerTextDraftKey]⟩
    ⟨existingLog ++ [tailEvent], [tailEvent.projectTurnEventForWire], false⟩
  | first :: rest =>
    let narration := noteText existingLog
    let narrationSurvived := narration.isPrefixOf persistedBody
    let surviving := survivingNoteLength narration persistedBody
    let discardedNarration := !narration.isEmpty && !narrationSurvived
    let reconciledNotes :=
      if discardedNarration then truncateNotes surviving existingLog else existingLog
    let mergedDraftKeys := ((first :: rest).flatMap (·.draftKeys)).eraseDups
    let collapsedEvent : StoredTurnEvent :=
      { first.withText (persistedBody.drop surviving) with
        draftKeys := if mergedDraftKeys.isEmpty then first.draftKeys else mergedDraftKeys }
    let log := collapseAnswers collapsedEvent reconciledNotes
    ⟨log, (log.filter (·.isNumberedText)).map (·.projectTurnEventForWire), discardedNarration⟩

/-- `reconcileLocked`; `none` where it writes nothing. -/
def reconcileLocked? (now : IsoTimestamp) (log : Log) (persistedBody : Text) : Option Reconciled :=
  if concatenateNumberedTextEvents log = persistedBody then none
  else some (reconcileNumberedTextToPersistedBody now log persistedBody)

/-- The log `reconcileLocked` leaves. -/
def reconcileLocked (now : IsoTimestamp) (log : Log) (persistedBody : Text) : Log :=
  ((reconcileLocked? now log persistedBody).map (·.log)).getD log

/-! ## The service -/

/-- One message: its row, and what each pod still holds for it. -/
structure Message (Pod : Type) where
  turnEvents : Log
  content : Text
  pendingDrafts : Pod → List TurnEventDraft

/-- How a write ends. In a transaction of the caller's own, the append may return and the
transaction still be rolled back. -/
inductive WriteEnd where
  | committed
  | failed
  | committedButReportedFailed
  | rolledBackAfterReturn
  deriving DecidableEq, Repr

inductive ServiceEvent (Pod : Type) where
  | append (pod : Pod) (drafts : List TurnEventDraft) (writeEnd : WriteEnd)
  | openUtterance (pod : Pod) (now : IsoTimestamp) (draftKey : DraftKey) (writeEnd : WriteEnd)
  /-- Also what a pod's death does. -/
  | releasePending (pod : Pod)
  /-- Another writer settles the `content` column. -/
  | settleContent (content : Text)
  | reconcileAnswerTextToPersistedBody (now : IsoTimestamp) (committed : Bool)

namespace Message

variable {Pod : Type} [DecidableEq Pod]

/-- The catch branch of `append`. -/
def keepPending (m : Message Pod) (pod : Pod) (combined : List TurnEventDraft) : Message Pod :=
  let kept := if combined.length > pendingDraftsMaxLength then [] else combined
  { m with pendingDrafts := Function.update m.pendingDrafts pod kept }

def releasePending (m : Message Pod) (pod : Pod) : Message Pod :=
  { m with pendingDrafts := Function.update m.pendingDrafts pod [] }

def append (m : Message Pod) (pod : Pod) (drafts : List TurnEventDraft) (writeEnd : WriteEnd) :
    Message Pod :=
  let combinedDrafts := m.pendingDrafts pod ++ drafts
  if combinedDrafts.isEmpty then m
  else
    let written := { m with turnEvents := appendLocked m.turnEvents combinedDrafts }
    match writeEnd with
    | .committed => written.releasePending pod
    | .failed => m.keepPending pod combinedDrafts
    | .committedButReportedFailed => written.keepPending pod combinedDrafts
    | .rolledBackAfterReturn => m.releasePending pod

def step (m : Message Pod) : ServiceEvent Pod → Message Pod
  | .append pod drafts writeEnd => m.append pod drafts writeEnd
  | .openUtterance pod now draftKey writeEnd =>
    m.append pod [.keyed now draftKey (.answerText [])] writeEnd
  | .releasePending pod => m.releasePending pod
  | .settleContent content => { m with content := content }
  | .reconcileAnswerTextToPersistedBody now committed =>
    if committed then { m with turnEvents := reconcileLocked now m.turnEvents m.content } else m

/-- A message with no events yet, and any body. -/
def fresh (content : Text) : Message Pod := ⟨[], content, fun _ => []⟩

end Message

/-- The log of a message after a run of the service from the empty log. -/
def logAfter {Pod : Type} [DecidableEq Pod] (content : Text) (es : List (ServiceEvent Pod)) : Log :=
  (Runs.run Message.step (Message.fresh content) es).turnEvents

end Persai.TurnEvents
