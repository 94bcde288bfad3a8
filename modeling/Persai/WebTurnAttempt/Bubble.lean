import Persai.KeyedTable
import Persai.Runs
import Persai.WebTurnAttempt.Statements

/-!
# One bubble per turn

Over every interleaving of the statements of any number of requests, as long as the row is not
deleted: the message that the row is bound to stays the same once there is one, it is the one that
every call returns and that `terminalPayload` names, and what
`bindOrDiscardAssistantMessageCandidate` deletes is another.
-/

namespace Persai.WebTurnAttempt

open Runs
open ChannelBinding (CompletedWebTurnReplayState)

inductive ChatMessageAuthor where
  | user
  | assistant
  deriving DecidableEq, Repr

/-- What the deletion of a candidate asks of a message of `assistant_chat_messages`. -/
structure ChatMessage where
  assistantId : String
  author : ChatMessageAuthor
  attachments : List String

/-- Where a request is that may be in `bindOrDiscardAssistantMessageCandidate`. -/
inductive BubbleRequest where
  | attempt (request : Request)
  | candidate (candidateAssistantMessageId : String) (request : Request)
  | discard (candidateAssistantMessageId winner : String)
  | settled (winner : Option String)

/-- What is made of the result of `bindAssistantMessageId`. -/
def settle (candidateAssistantMessageId : String) : Request → BubbleRequest
  | .returned (.bound (some winner)) =>
    if winner ≠ candidateAssistantMessageId then .discard candidateAssistantMessageId winner
    else .settled (some winner)
  | .returned (.bound none) => .settled none
  | request => .candidate candidateAssistantMessageId request

/-- The row of the turn, the messages by id and the requests. -/
structure Bubble where
  row : Option Attempt
  messages : KeyedTable String ChatMessage
  requests : Nat → BubbleRequest

inductive BubbleEvent where
  | call (request : Nat) (call : Call) (now : Int)
  | bindOrDiscardAssistantMessageCandidate (request : Nat) (candidateAssistantMessageId : String)
      (now : Int)
  | next (request : Nat) (assistantId id : String) (now : Int)

namespace Bubble

def start (row : Option Attempt) (messages : KeyedTable String ChatMessage) : Bubble :=
  ⟨row, messages, fun _ => .attempt .idle⟩

def goTo (s : Bubble) (request : Nat) (row : Option Attempt) (next : BubbleRequest) : Bubble :=
  { s with row, requests := Function.update s.requests request next }

/-- `deleteMany` of a candidate that has lost. -/
def discard (s : Bubble) (assistantId candidateAssistantMessageId : String) :
    KeyedTable String ChatMessage :=
  s.messages.deleteWhere fun id message =>
    id == candidateAssistantMessageId && message.assistantId == assistantId &&
      message.author == .assistant && message.attachments.isEmpty

def step (s : Bubble) : BubbleEvent → Bubble
  | .call request call now =>
    let effect := call.firstStatement s.row now
    s.goTo request effect.1 (.attempt effect.2)
  | .bindOrDiscardAssistantMessageCandidate request candidate now =>
    let effect := bindAssistantMessageId s.row now candidate
    s.goTo request effect.1 (settle candidate effect.2)
  | .next request assistantId id now =>
    match s.requests request with
    | .attempt pending =>
      let effect := pending.nextStatement s.row id now
      s.goTo request effect.1 (.attempt effect.2)
    | .candidate candidate pending =>
      let effect := pending.nextStatement s.row id now
      s.goTo request effect.1 (settle candidate effect.2)
    | .discard candidate winner =>
      { s.goTo request s.row (.settled (some winner)) with
        messages := s.discard assistantId candidate }
    | .settled winner => s.goTo request s.row (.settled winner)

/-! ## One bubble -/

/-- What a request has returned, where that is a message. -/
def returned : BubbleRequest → Option String
  | .attempt (.returned (.bound assistantMessageId))
  | .attempt (.returned (.winner assistantMessageId)) => assistantMessageId
  | .settled winner => winner
  | _ => none

/-- The payload of a terminal row names the message that the row is bound to. -/
def Named (row : Option Attempt) : Prop :=
  ∀ current payload, row = some current → current.terminalPayload = some payload →
    current.assistantMessageId = some payload.assistantMessageId

/-- All that is known names the message that the row is bound to. -/
structure OneBubble (s : Bubble) : Prop where
  named : Named s.row
  answers : ∀ request assistantMessageId,
    returned (s.requests request) = some assistantMessageId →
      boundMessage s.row = some assistantMessageId

/-- A statement leaves the message of the row as it is once there is one, and keeps it from
deletion. -/
def KeepsBubble (s : Bubble) (e : BubbleEvent) : Prop :=
  ∀ assistantMessageId, boundMessage s.row = some assistantMessageId →
    boundMessage (s.step e).row = some assistantMessageId ∧
      (s.step e).messages.get? assistantMessageId = s.messages.get? assistantMessageId

end Bubble

/-! ## What a statement does -/

/-- What a request has read or returned is what the row is bound to. -/
def Reads (row : Option Attempt) : Request → Prop
  | .completeUpdate _ winner | .failUpdate _ winner => boundMessage row = some winner
  | .failUpdateUnbound _ prior => ∀ id, boundMessage prior = some id → boundMessage row = some id
  | .returned (.bound message) | .returned (.winner message) =>
    ∀ id, message = some id → boundMessage row = some id
  | _ => True

/-- A statement on a row that is not deleted by it. -/
structure Fits (row : Option Attempt) (effect : Effect) : Prop where
  keeps : ∀ id, boundMessage row = some id → effect.1.isSome → boundMessage effect.1 = some id
  named : Bubble.Named row → Bubble.Named effect.1
  reads : Reads effect.1 effect.2

section
variable {row : Option Attempt}

theorem fits_of_same {next : Request} (reads : Reads row next) : Fits row (row, next) :=
  ⟨fun _ bound _ => bound, id, reads⟩

/-- A write that leaves the message and the payload of the row. -/
theorem fits_of_rewritten {current written : Attempt} {next : Request}
    (message : written.assistantMessageId = current.assistantMessageId)
    (payload : written.terminalPayload = current.terminalPayload)
    (reads : Reads (some written) next) : Fits (some current) (some written, next) where
  keeps _ bound _ := message.trans bound
  named h := by
    rintro _ given ⟨⟩ paid
    rw [message]
    exact h current given rfl (payload ▸ paid)
  reads := reads

/-- A write that binds a row that is not bound yet. -/
theorem fits_of_bound {current written : Attempt} {next : Request}
    (unbound : current.assistantMessageId = none)
    (named : Bubble.Named (some current) → Bubble.Named (some written))
    (reads : Reads (some written) next) : Fits (some current) (some written, next) where
  keeps id bound _ := by
    have bound : current.assistantMessageId = some id := bound
    rw [unbound] at bound
    cases bound
  named := named
  reads := reads

theorem updateMany_cases (row : Option Attempt) (guard : Attempt → Bool)
    (data : Attempt → Attempt) :
    (∃ current, row = some current ∧ guard current = true ∧
        updateMany row guard data = (some (data current), true)) ∨
      updateMany row guard data = (row, false) := by
  cases row with
  | none => exact .inr rfl
  | some current =>
    cases met : guard current with
    | false => exact .inr (by rw [updateMany, met]; rfl)
    | true => exact .inl ⟨current, rfl, met, by rw [updateMany, met]; rfl⟩

theorem fits_claim (input : ClaimInput) : Fits row (claim row input) := by
  refine fits_of_same ?_
  cases row with
  | none => trivial
  | some existing =>
    dsimp only
    cases existing.status <;> dsimp only <;> (try split) <;> trivial

theorem fits_claimUpdate (now : Int) (existing : Attempt) (input : ClaimInput) :
    Fits row (claimUpdate row now existing input) := by
  cases row with
  | none => exact fits_of_same trivial
  | some current =>
    simp only [claimUpdate]
    split
    · exact fits_of_rewritten rfl rfl trivial
    · exact fits_of_same trivial

theorem fits_claimCreate (id : String) (now : Int) (input : ClaimInput) :
    Fits row (claimCreate row id now input) := by
  cases row with
  | none =>
    refine ⟨nofun, fun _ => ?_, trivial⟩
    rintro _ payload ⟨⟩ paid
    cases paid
  | some current => exact fits_of_same trivial

theorem fits_markRunning (now : Int) (input : RunningInput) :
    Fits row (markRunning row now input) := by
  cases row with
  | none => exact fits_of_same trivial
  | some current => exact fits_of_rewritten rfl rfl trivial

theorem fits_bindAssistantMessageId (now : Int) (assistantMessageId : String) :
    Fits row (bindAssistantMessageId row now assistantMessageId) := by
  unfold bindAssistantMessageId
  rcases updateMany_cases row
    (fun current => isActive current && current.assistantMessageId.isNone)
    (fun current =>
      { current with assistantMessageId := some assistantMessageId, updatedAt := now })
    with ⟨current, rfl, met, updated⟩ | same
  · have unbound : current.assistantMessageId = none := by
      simpa using (Bool.and_eq_true_iff.mp met).2
    rw [updated]
    refine fits_of_bound unbound (fun h => ?_) fun _ same => same
    rintro _ payload ⟨⟩ paid
    have bound := h current payload rfl paid
    rw [unbound] at bound
    cases bound
  · rw [same]
    exact fits_of_same trivial

theorem fits_bindFind : Fits row (bindFind row) := fits_of_same fun _ bound => bound

theorem fits_abandonPreAcceptanceAttempt : Fits row (abandonPreAcceptanceAttempt row) := by
  have stays {current : Attempt} (there : (abandonPreAcceptanceAttempt row).1 = some current) :
      row = some current := (Option.filter_eq_some_iff.mp there).1
  refine ⟨fun id bound there => ?_, fun h current payload there => ?_, trivial⟩
  · obtain ⟨current, there⟩ := Option.isSome_iff_exists.mp there
    rw [there, ← stays there]
    exact bound
  · exact h current payload (stays there)

/-- A completion writes the message that it binds or finds into the payload. -/
theorem named_completedData (now : Int) (input : CompletedInput) {winner : String} {bind : Bool}
    {current : Attempt} (bound : bind = true ∨ current.assistantMessageId = some winner) :
    Bubble.Named (some (completedData now input winner bind current)) := by
  rintro _ payload ⟨⟩ paid
  cases paid
  rcases bound with rfl | bound
  · rfl
  · cases bind
    · exact bound
    · rfl

theorem fits_completeUpdateUnbound (now : Int) (input : CompletedInput) :
    Fits row (completeUpdateUnbound row now input) := by
  unfold completeUpdateUnbound
  rcases updateMany_cases row
    (fun current => completable input current && current.assistantMessageId.isNone)
    (completedData now input input.assistantMessageId true)
    with ⟨current, rfl, met, updated⟩ | same
  · have unbound : current.assistantMessageId = none := by
      simpa using (Bool.and_eq_true_iff.mp met).2
    rw [updated]
    exact fits_of_bound unbound (fun _ => named_completedData now input (.inl rfl))
      fun _ same => same
  · rw [same]
    exact fits_of_same trivial

theorem fits_completeFind (input : CompletedInput) : Fits row (completeFind row input) := by
  refine fits_of_same ?_
  split
  · assumption
  · exact nofun

theorem fits_completeUpdate (now : Int) (input : CompletedInput) {winner : String}
    (read : boundMessage row = some winner) :
    Fits row (completeUpdate row now input winner) := by
  unfold completeUpdate
  rcases updateMany_cases row
    (fun current => completable input current && current.assistantMessageId == some winner)
    (completedData now input winner false) with ⟨current, rfl, met, updated⟩ | same
  · have bound : current.assistantMessageId = some winner := read
    rw [updated]
    refine ⟨fun id same _ => same, fun _ => named_completedData now input (.inr bound), ?_⟩
    rintro _ ⟨⟩
    exact bound
  · rw [same]
    exact fits_of_same nofun

theorem fits_markTerminalFailure (input : TerminalInput) :
    Fits row (markTerminalFailure row input) := by
  refine fits_of_same fun id bound => ?_
  obtain ⟨prior, active, bound⟩ := Option.bind_eq_some_iff.mp bound
  rw [(Option.filter_eq_some_iff.mp active).1]
  exact bound

theorem fits_failUpdateUnbound (now : Int) (input : TerminalInput) {prior : Option Attempt}
    (read : ∀ id, boundMessage prior = some id → boundMessage row = some id) :
    Fits row (failUpdateUnbound row now input prior) := by
  unfold failUpdateUnbound
  rcases updateMany_cases row
    (fun current => isActive current &&
      (input.assistantMessageId.isNone || current.assistantMessageId.isNone))
    (failureData now input true) with ⟨current, rfl, met, updated⟩ | same
  · rw [updated]
    cases given : input.assistantMessageId with
    | none =>
      have message : (failureData now input true current).assistantMessageId =
          current.assistantMessageId := by
        simp only [failureData, given]
      refine fits_of_rewritten message rfl fun id same => ?_
      exact message.trans (read id same)
    | some candidate =>
      have unbound : current.assistantMessageId = none := by
        simpa [given] using (Bool.and_eq_true_iff.mp met).2
      have message : (failureData now input true current).assistantMessageId = candidate := by
        simp only [failureData, given, if_true]
      refine fits_of_bound unbound (fun h => ?_) fun id same => ?_
      · rintro _ payload ⟨⟩ paid
        have bound := h current payload rfl paid
        rw [unbound] at bound
        cases bound
      · refine message.trans ?_
        rcases Option.or_eq_some_iff.mp same with same | ⟨-, before⟩
        · exact same
        · have bound : current.assistantMessageId = some id := read id before
          rw [unbound] at bound
          cases bound
  · rw [same]
    refine fits_of_same ?_
    dsimp only
    split
    · contradiction
    split
    · trivial
    · exact nofun

theorem fits_failFind (input : TerminalInput) : Fits row (failFind row input) := by
  refine fits_of_same ?_
  split
  · assumption
  · exact nofun

theorem fits_failUpdate (now : Int) (input : TerminalInput) {winner : String}
    (read : boundMessage row = some winner) : Fits row (failUpdate row now input winner) := by
  unfold failUpdate
  rcases updateMany_cases row
    (fun current => isActive current && current.assistantMessageId == some winner)
    (failureData now input false) with ⟨current, rfl, met, updated⟩ | same
  · have message : (failureData now input false current).assistantMessageId =
        current.assistantMessageId := by
      unfold failureData
      cases input.assistantMessageId <;> rfl
    rw [updated]
    refine fits_of_rewritten message rfl ?_
    rintro _ ⟨⟩
    exact message.trans read
  · rw [same]
    exact fits_of_same nofun

theorem fits_firstStatement (now : Int) (call : Call) :
    Fits row (call.firstStatement row now) := by
  cases call with
  | claim input => exact fits_claim input
  | markRunning input => exact fits_markRunning now input
  | bindAssistantMessageId assistantMessageId =>
    exact fits_bindAssistantMessageId now assistantMessageId
  | abandonPreAcceptanceAttempt => exact fits_abandonPreAcceptanceAttempt
  | markCompleted input => exact fits_of_same trivial
  | markFailed code message => exact fits_markTerminalFailure _
  | markInterrupted assistantMessageId code message => exact fits_markTerminalFailure _

theorem fits_nextStatement (id : String) (now : Int) {request : Request}
    (read : Reads row request) :
    Fits row (request.nextStatement row id now) := by
  cases request with
  | idle => exact fits_of_same trivial
  | claimUpdate existing input => exact fits_claimUpdate now existing input
  | claimCreate input => exact fits_claimCreate id now input
  | bindFind => exact fits_bindFind
  | completeUpdateUnbound input => exact fits_completeUpdateUnbound now input
  | completeFind input => exact fits_completeFind input
  | completeUpdate input winner => exact fits_completeUpdate now input read
  | failUpdateUnbound input prior => exact fits_failUpdateUnbound now input read
  | failFind input => exact fits_failFind input
  | failUpdate input winner => exact fits_failUpdate now input read
  | returned result => exact fits_of_same read

end

namespace Bubble

/-! ## Runs -/

def BubbleReads (row : Option Attempt) : BubbleRequest → Prop
  | .attempt request | .candidate _ request => Reads row request
  | .discard candidate winner => boundMessage row = some winner ∧ winner ≠ candidate
  | .settled winner => ∀ id, winner = some id → boundMessage row = some id

structure Sound (s : Bubble) : Prop where
  named : Named s.row
  reads : ∀ request, BubbleReads s.row (s.requests request)

/-- The statement does not delete the row. -/
def NotDeleted (s : Bubble) (e : BubbleEvent) : Prop := s.row.isSome → (s.step e).row.isSome

section
variable {row row' : Option Attempt}

theorem reads_settle {candidate : String} {request : Request} (reads : Reads row request) :
    BubbleReads row (settle candidate request) := by
  unfold settle
  split
  · split
    · exact ⟨reads _ rfl, ‹_›⟩
    · exact reads
  · exact reads
  · exact reads

/-- What is known of a request stays so while the row keeps its message. -/
theorem Reads.mono {request : Request} (reads : Reads row request)
    (keeps : ∀ id, boundMessage row = some id → boundMessage row' = some id) :
    Reads row' request := by
  cases request with
  | completeUpdate input winner => exact keeps winner reads
  | failUpdate input winner => exact keeps winner reads
  | failUpdateUnbound input prior => exact fun id bound => keeps id (reads id bound)
  | returned result =>
    cases result with
    | bound message => exact fun id same => keeps id (reads id same)
    | winner message => exact fun id same => keeps id (reads id same)
    | _ => trivial
  | _ => trivial

theorem BubbleReads.mono {request : BubbleRequest} (reads : BubbleReads row request)
    (keeps : ∀ id, boundMessage row = some id → boundMessage row' = some id) :
    BubbleReads row' request := by
  cases request with
  | attempt request => exact Reads.mono reads keeps
  | candidate candidate request => exact Reads.mono reads keeps
  | discard candidate winner => exact ⟨keeps winner reads.1, reads.2⟩
  | settled winner => exact fun id same => keeps id (reads id same)

end

section
variable {s : Bubble}

theorem Sound.oneBubble (sound : Sound s) : OneBubble s where
  named := sound.named
  answers request id answered := by
    have reads := sound.reads request
    cases pending : s.requests request with
    | attempt request =>
      rw [pending] at reads answered
      cases request with
      | returned result =>
        cases result with
        | bound message => exact reads id answered
        | winner message => exact reads id answered
        | _ => cases answered
      | _ => cases answered
    | candidate candidate request => rw [pending] at answered; cases answered
    | discard candidate winner => rw [pending] at answered; cases answered
    | settled winner =>
      rw [pending] at reads answered
      exact reads id answered

/-- A request goes on with a statement that leaves the row and its message. -/
theorem Sound.goTo (sound : Sound s) (request : Nat) {effect : Effect} (fits : Fits s.row effect)
    (kept : s.row.isSome → effect.1.isSome) {next : BubbleRequest}
    (reads : BubbleReads effect.1 next) : Sound (s.goTo request effect.1 next) where
  named := fits.named sound.named
  reads other := by
    simp only [Bubble.goTo, Function.update_apply]
    split
    · exact reads
    · refine (sound.reads other).mono fun id bound => fits.keeps id bound (kept ?_)
      obtain ⟨current, there, -⟩ := Option.bind_eq_some_iff.mp bound
      rw [there]
      rfl

theorem step_sound (s : Bubble) (e : BubbleEvent) (sound : Sound s) (kept : NotDeleted s e) :
    Sound (s.step e) := by
  cases e with
  | call request call now =>
    have fits : Fits s.row (call.firstStatement s.row now) := fits_firstStatement now call
    exact sound.goTo request fits kept fits.reads
  | bindOrDiscardAssistantMessageCandidate request candidate now =>
    have fits := @fits_bindAssistantMessageId s.row now candidate
    exact sound.goTo request fits kept (reads_settle fits.reads)
  | next request assistantId id now =>
    have reads := sound.reads request
    unfold NotDeleted at kept
    simp only [step] at kept ⊢
    cases pending : s.requests request with
    | attempt pendingRequest =>
      rw [pending] at reads kept
      have fits := fits_nextStatement id now reads
      exact sound.goTo request fits kept fits.reads
    | candidate candidate pendingRequest =>
      rw [pending] at reads kept
      have fits := fits_nextStatement id now reads
      exact sound.goTo request fits kept (reads_settle fits.reads)
    | discard candidate winner =>
      rw [pending] at reads
      have next : Sound (s.goTo request s.row (.settled (some winner))) := by
        refine sound.goTo request (@fits_of_same s.row .idle trivial) (fun there => there) ?_
        rintro _ ⟨⟩
        exact reads.1
      exact ⟨next.named, next.reads⟩
    | settled winner =>
      rw [pending] at reads
      exact sound.goTo request (@fits_of_same s.row .idle trivial) (fun there => there) reads

/-- The deletion of a lost candidate takes no other message. -/
theorem get?_discard (assistantId : String) {candidate id : String} (other : id ≠ candidate) :
    (s.discard assistantId candidate).get? id = s.messages.get? id := by
  rw [discard, KeyedTable.get?_deleteWhere]
  cases s.messages.get? id <;> simp [Option.filter, other]

theorem step_keepsBubble (s : Bubble) (e : BubbleEvent) (sound : Sound s)
    (kept : NotDeleted s e) : KeepsBubble s e := by
  intro message bound
  have there : s.row.isSome := by
    obtain ⟨current, there, -⟩ := Option.bind_eq_some_iff.mp bound
    rw [there]
    rfl
  have kept := kept there
  cases e with
  | call request call now => exact ⟨(fits_firstStatement now call).keeps message bound kept, rfl⟩
  | bindOrDiscardAssistantMessageCandidate request candidate now =>
    exact ⟨(fits_bindAssistantMessageId now candidate).keeps message bound kept, rfl⟩
  | next request assistantId id now =>
    have reads := sound.reads request
    simp only [step] at kept ⊢
    cases pending : s.requests request with
    | attempt pendingRequest =>
      rw [pending] at reads kept
      exact ⟨(fits_nextStatement id now reads).keeps message bound kept, rfl⟩
    | candidate candidate pendingRequest =>
      rw [pending] at reads kept
      exact ⟨(fits_nextStatement id now reads).keeps message bound kept, rfl⟩
    | discard candidate winner =>
      rw [pending] at reads
      have same : message = winner := Option.some.inj (bound.symm.trans reads.1)
      exact ⟨bound, get?_discard assistantId (same ▸ reads.2)⟩
    | settled winner => exact ⟨bound, rfl⟩

end

theorem sound_start {row : Option Attempt} (named : Named row)
    (messages : KeyedTable String ChatMessage) : Sound (start row messages) where
  named := named
  reads _ := trivial

/-- As long as the row is not deleted, all calls agree on one message of the turn, which is bound
once and never deleted as a candidate. -/
theorem one_bubble {row : Option Attempt} (named : Named row)
    (messages : KeyedTable String ChatMessage) (es : List BubbleEvent)
    (kept : EveryStep step NotDeleted (start row messages) es) :
    EveryState step OneBubble (start row messages) es ∧
      EveryStep step KeepsBubble (start row messages) es := by
  have start := sound_start named messages
  constructor
  · exact everyState_mono (fun _ sound => sound.oneBubble)
      (everyState_of_preserved step_sound start kept)
  · exact everyStep_of_preserved step_sound step_keepsBubble start kept

instance (s : Bubble) (e : BubbleEvent) : Decidable (NotDeleted s e) :=
  inferInstanceAs (Decidable (_ → _))

/-- Two candidates at once: the second finds the first bound and is deleted; then the turn ends. -/
def twoCandidates (payload : CompletedWebTurnReplayState) : List BubbleEvent :=
  [.bindOrDiscardAssistantMessageCandidate 0 "first" 10,
    .bindOrDiscardAssistantMessageCandidate 1 "second" 20, .next 1 "assistant" "" 30,
    .next 1 "assistant" "" 40, .call 2 (.markCompleted ⟨"third", "50", payload, false⟩) 50,
    .next 2 "assistant" "" 50, .next 2 "assistant" "" 60, .next 2 "assistant" "" 70]

theorem one_bubble_of_two_candidates :
    let row := (claimCreate none "attempt" 0 ⟨0, 120000, none⟩).1
    let messages : KeyedTable String ChatMessage :=
      ⟨[("first", ⟨"assistant", .assistant, []⟩), ("second", ⟨"assistant", .assistant, []⟩)],
        by decide⟩
    let es := twoCandidates ⟨⟨"turn", by decide, by decide⟩, "chat", "message", "third", "50", "50"⟩
    EveryState step OneBubble (start row messages) es ∧
      EveryStep step KeepsBubble (start row messages) es := by
  intro row messages es
  refine one_bubble ?_ messages es (by decide +kernel)
  intro current payload there paid
  have unpaid : row.bind Attempt.terminalPayload = none := rfl
  rw [there, Option.bind_some, paid] at unpaid
  cases unpaid

end Bubble

end Persai.WebTurnAttempt
