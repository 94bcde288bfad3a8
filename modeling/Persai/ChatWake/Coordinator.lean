import Persai.KeyedTable

/-!
# Who speaks next in a chat

A user turn stamps the chat row when it starts and when it ends. A catch-up asks
before it speaks: it reads whether a user turn is open, in four queries one after
another, and then updates the chat row under a condition on the two stamps.
-/

namespace Persai.ChatWake

abbrev Id := Nat

/-- `CATCHUP_IDLE_PAUSE_MS`; all times are in milliseconds. -/
def catchupIdlePauseMs : Nat := 2000

/-- A row of `assistant_chats`. -/
structure Chat where
  lastUserTurnStartedAt : Option Nat := none
  lastUserTurnTerminalAt : Option Nat := none
  catchUpAdmissionFence : Nat := 0
  deriving DecidableEq, Repr

/-- `isDurableUserTurnOpen`: started, and not ended since. -/
def Chat.userTurnOpen (c : Chat) : Prop :=
  ∃ started ∈ c.lastUserTurnStartedAt, ∀ terminal ∈ c.lastUserTurnTerminalAt, terminal < started

instance (c : Chat) : Decidable c.userTurnOpen :=
  inferInstanceAs (Decidable (∃ started ∈ c.lastUserTurnStartedAt, ∀ terminal ∈ _, _))

/-- `isIdlePauseActive`. -/
def Chat.idlePause (c : Chat) (now : Nat) : Prop :=
  ∃ terminal ∈ c.lastUserTurnTerminalAt, now < terminal + catchupIdlePauseMs

instance (c : Chat) (now : Nat) : Decidable (c.idlePause now) :=
  inferInstanceAs (Decidable (∃ terminal ∈ c.lastUserTurnTerminalAt, _))

/-- The condition of the admitting `UPDATE`. -/
def Chat.admitsCatchUp (c : Chat) (now : Nat) : Prop :=
  (c.lastUserTurnStartedAt = none ∨
    ∃ terminal ∈ c.lastUserTurnTerminalAt,
      ∀ started ∈ c.lastUserTurnStartedAt, started ≤ terminal) ∧
  (∀ terminal ∈ c.lastUserTurnTerminalAt, terminal + catchupIdlePauseMs ≤ now)

instance (c : Chat) (now : Nat) : Decidable (c.admitsCatchUp now) :=
  inferInstanceAs (Decidable ((_ ∨ ∃ terminal ∈ c.lastUserTurnTerminalAt, _) ∧ _))

/-- An open user turn keeps catch-ups out at the update, whatever the time. -/
theorem Chat.not_admits_of_open {c : Chat} (isOpen : c.userTurnOpen) (now : Nat) :
    ¬ c.admitsCatchUp now := by
  obtain ⟨started, stamp, before⟩ := isOpen
  rintro ⟨unstarted | ⟨terminal, ended, after⟩, -⟩
  · simp [unstarted] at stamp
  · have := before terminal ended
    have := after started stamp
    omega

structure Candidate where
  chatId : Id
  assistantId : Id
  userId : Id
  surfaceThreadKey : Option String
  deriving DecidableEq, Repr

inductive AttemptStatus where
  | accepted | running | completed | interrupted | failed
  deriving DecidableEq, Repr

/-- A row of `assistant_web_chat_turn_attempts`. -/
structure WebTurnAttempt where
  assistantId : Id
  userId : Id
  status : AttemptStatus
  surfaceClient : Option String
  chatId : Option Id
  surfaceThreadKey : String
  deriving DecidableEq, Repr

inductive Channel where
  | web | telegram
  deriving DecidableEq, Repr

inductive ReceiptStatus where
  | accepted | completed | interrupted | failed
  deriving DecidableEq, Repr

/-- A row of `runtime_turn_receipts`. -/
structure TurnReceipt where
  assistantId : Id
  channel : Channel
  externalThreadKey : String
  status : ReceiptStatus
  idempotencyKey : String
  deriving DecidableEq, Repr

/-- A thread key that is neither null nor empty. -/
def Candidate.thread (c : Candidate) : Option String := c.surfaceThreadKey.filter (· ≠ "")

def Candidate.ownsAttempt (c : Candidate) (a : WebTurnAttempt) : Prop :=
  a.assistantId = c.assistantId ∧ a.userId = c.userId ∧
  (a.status = .accepted ∨ a.status = .running) ∧ a.surfaceClient ≠ some "async_continuation" ∧
  (a.chatId = some c.chatId ∨ c.thread = some a.surfaceThreadKey)

instance (c : Candidate) (a : WebTurnAttempt) : Decidable (c.ownsAttempt a) :=
  inferInstanceAs (Decidable (_ ∧ _ ∧ _ ∧ _ ∧ _))

def Candidate.ownsReceipt (c : Candidate) (r : TurnReceipt) : Prop :=
  c.thread = some r.externalThreadKey ∧ r.assistantId = c.assistantId ∧
  r.channel = .telegram ∧ r.status = .accepted ∧
  ¬ "async-cont:".toList.isPrefixOf r.idempotencyKey.toList

instance (c : Candidate) (r : TurnReceipt) : Decidable (c.ownsReceipt r) :=
  inferInstanceAs (Decidable (_ ∧ _ ∧ _ ∧ _ ∧ _))

inductive GateDenial where
  | userTurnActive | idlePause
  deriving DecidableEq, Repr

inductive GateResult where
  | allowed
  | denied (reason : GateDenial)
  deriving DecidableEq, Repr

/-- How far a call of `admitCatchUpAtBoundary` has come: the query it makes next,
or its answer. -/
inductive Boundary where
  | durableWindow | webAttempts | telegramReceipts | idlePause | update
  | answered (r : GateResult)
  deriving DecidableEq, Repr

structure World where
  chats : KeyedTable Id Chat
  attempts : List WebTurnAttempt := []
  receipts : List TurnReceipt := []
  boundaries : KeyedTable Id (Candidate × Boundary) := ∅
  /-- The user turns that were admitted and have neither ended nor been abandoned,
  each with its chat. No row holds them. -/
  openTurns : List (Id × Id) := []

inductive Event where
  | createChat (id : Id)
  | setAttempts (attempts : List WebTurnAttempt)
  | setReceipts (receipts : List TurnReceipt)
  | admitUserTurn (chatId turn : Id) (at' : Nat)
  | abandonUserTurnAdmission (chatId turn : Id) (at' : Nat)
  /-- An update that fails is only logged. -/
  | recordUserTurnTerminal (chatId turn : Id) (at' : Nat) (written : Bool)
  | admitCatchUpAtBoundary (boundary : Id) (c : Candidate)
  | query (boundary : Id) (now : Nat)
  deriving DecidableEq, Repr

namespace World

/-- One query of `admitCatchUpAtBoundary`, and what it makes the call do next. -/
def gate (w : World) (c : Candidate) (now : Nat) : Boundary → Boundary
  | .durableWindow =>
    if (w.chats.get? c.chatId).any (·.userTurnOpen) then .answered (.denied .userTurnActive)
    else .webAttempts
  | .webAttempts =>
    if w.attempts.any (c.ownsAttempt ·) then .answered (.denied .userTurnActive)
    else .telegramReceipts
  | .telegramReceipts =>
    if w.receipts.any (c.ownsReceipt ·) then .answered (.denied .userTurnActive)
    else .idlePause
  | .idlePause =>
    if (w.chats.get? c.chatId).any (·.idlePause now) then .answered (.denied .idlePause)
    else .update
  | .update =>
    if (w.chats.get? c.chatId).any (·.admitsCatchUp now) then .answered .allowed
    else .answered (.denied .userTurnActive)
  | .answered r => .answered r

/-- The chat that an event lets a catch-up speak in. -/
def allows (w : World) : Event → Option Id
  | .query b now =>
    match w.boundaries.get? b with
    | some (c, .update) => if w.gate c now .update = .answered .allowed then some c.chatId else none
    | _ => none
  | _ => none

def hasOpenTurn (w : World) (chatId : Id) : Prop := ∃ t ∈ w.openTurns, t.1 = chatId

instance (w : World) (chatId : Id) : Decidable (w.hasOpenTurn chatId) :=
  inferInstanceAs (Decidable (∃ t ∈ w.openTurns, t.1 = chatId))

/-- A stamp on a chat row; without the row the update throws. -/
def stampStarted (w : World) (chatId turn : Id) (at' : Nat) : World :=
  if (w.chats.get? chatId).isSome then
    { w with
      chats := w.chats.update chatId fun c => { c with lastUserTurnStartedAt := some at' }
      openTurns := (chatId, turn) :: w.openTurns }
  else w

def stampTerminal (w : World) (chatId turn : Id) (at' : Nat) : World :=
  if (w.chats.get? chatId).isSome then
    { w with
      chats := w.chats.update chatId fun c => { c with lastUserTurnTerminalAt := some at' }
      openTurns := w.openTurns.erase (chatId, turn) }
  else w

def step (w : World) : Event → World
  | .createChat id => { w with chats := (w.chats.create id {}).getD w.chats }
  | .setAttempts attempts => { w with attempts := attempts }
  | .setReceipts receipts => { w with receipts := receipts }
  | .admitUserTurn chatId turn at' => w.stampStarted chatId turn at'
  | .abandonUserTurnAdmission chatId turn at' => w.stampTerminal chatId turn at'
  | .recordUserTurnTerminal chatId turn at' written =>
    if written then w.stampTerminal chatId turn at' else w
  | .admitCatchUpAtBoundary b c =>
    { w with boundaries := (w.boundaries.create b (c, .durableWindow)).getD w.boundaries }
  | .query b now =>
    match w.boundaries.get? b with
    | none => w
    | some (c, boundary) =>
      let answer := w.gate c now boundary
      { w with
        boundaries := w.boundaries.update b fun _ => (c, answer)
        chats :=
          if boundary = .update ∧ answer = .answered .allowed then
            w.chats.update c.chatId fun row =>
              { row with catchUpAdmissionFence := row.catchUpAdmissionFence + 1 }
          else w.chats }

end World

end Persai.ChatWake
