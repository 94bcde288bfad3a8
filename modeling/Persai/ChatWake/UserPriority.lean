import Persai.Runs
import Persai.ChatWake.Coordinator

/-!
# A user turn goes before a catch-up

The open window of a chat is two stamps, one for the last start and one for the
last end, and overlapping turns write the same two.

* `registersAgree_step`: the stamps tell that a turn is open, after a step, if and
  only if the step does not set them against another turn;
* `user_turn_priority`: over such steps no catch-up is let in while a turn is open;
* `overlapping_turns`: a run of two turns in which one is.
-/

namespace Persai.ChatWake

open Runs World

/-- An end stamped at `at'` leaves no other turn of the chat without its stamp: there
is none, or the last start is later. -/
def EndsApart (w : World) (chatId turn : Id) (at' : Nat) : Prop :=
  (∀ t ∈ w.openTurns.erase (chatId, turn), t.1 ≠ chatId) ∨
  ∃ c ∈ w.chats.get? chatId, ∃ started ∈ c.lastUserTurnStartedAt, at' < started

instance (w : World) (chatId turn : Id) (at' : Nat) : Decidable (EndsApart w chatId turn at') :=
  inferInstanceAs (Decidable (_ ∨ ∃ c ∈ w.chats.get? chatId, ∃ _ ∈ c.lastUserTurnStartedAt, _))

/-- A start is stamped later than the last end, and an end leaves no other turn
of the chat without its stamp. -/
def StampsApart (chatId : Id) (w : World) : Event → Prop
  | .admitUserTurn id _ at' =>
    id = chatId → ∀ c ∈ w.chats.get? id, ∀ terminal ∈ c.lastUserTurnTerminalAt, terminal < at'
  | .abandonUserTurnAdmission id turn at' => id = chatId → EndsApart w id turn at'
  | .recordUserTurnTerminal id turn at' written =>
    id = chatId → written → EndsApart w id turn at'
  | _ => True

instance (chatId : Id) (w : World) (e : Event) : Decidable (StampsApart chatId w e) := by
  cases e <;> unfold StampsApart <;> infer_instance

/-- A turn that is open shows in the stamps of its chat. -/
def RegistersAgree (chatId : Id) (w : World) : Prop :=
  w.hasOpenTurn chatId → ∃ c ∈ w.chats.get? chatId, c.userTurnOpen

section
variable {w : World} {chatId : Id}

/-- A start makes the window open exactly if it is later than the last end. -/
theorem registersAgree_stampStarted (agree : RegistersAgree chatId w) (id turn : Id)
    (at' : Nat) :
    RegistersAgree chatId (w.stampStarted id turn at') ↔
      (id = chatId → ∀ c ∈ w.chats.get? id, ∀ terminal ∈ c.lastUserTurnTerminalAt,
        terminal < at') := by
  unfold stampStarted
  cases row : w.chats.get? id with
  | none => simpa using agree
  | some c =>
    simp only [Option.isSome_some, if_true, RegistersAgree, hasOpenTurn]
    by_cases same : id = chatId
    · subst same
      simp [KeyedTable.get?_update_self, row, Chat.userTurnOpen]
    · have others : (∃ t ∈ (id, turn) :: w.openTurns, t.1 = chatId) ↔ w.hasOpenTurn chatId := by
        simp [hasOpenTurn, same]
      simp only [others, KeyedTable.get?_update_of_ne _ _ (Ne.symm same), same, false_imp_iff,
        iff_true]
      exact agree

/-- An end leaves the window open exactly if no turn is left open, or one that
started later. -/
theorem registersAgree_stampTerminal (agree : RegistersAgree chatId w) (id turn : Id)
    (at' : Nat) :
    RegistersAgree chatId (w.stampTerminal id turn at') ↔
      (id = chatId → EndsApart w id turn at') := by
  unfold stampTerminal
  cases row : w.chats.get? id with
  | none =>
    simp only [Option.isSome_none, Bool.false_eq_true, if_false]
    refine ⟨fun _ same => .inl fun t member at'' => ?_, fun _ => agree⟩
    subst same
    obtain ⟨c, found, -⟩ := agree ⟨t, List.mem_of_mem_erase member, at''⟩
    simp [row] at found
  | some c =>
    simp only [Option.isSome_some, if_true, RegistersAgree, hasOpenTurn]
    by_cases same : id = chatId
    · subst same
      simp only [KeyedTable.get?_update_self, row, EndsApart, Chat.userTurnOpen, true_imp_iff,
        Option.map_some, Option.mem_def, Option.some.injEq, exists_eq_left', forall_eq']
      rw [imp_iff_not_or]
      simp only [not_exists, not_and]
    · have others : (∃ t ∈ w.openTurns.erase (id, turn), t.1 = chatId) ↔
          w.hasOpenTurn chatId := by
        constructor
        · rintro ⟨t, member, at''⟩
          exact ⟨t, List.mem_of_mem_erase member, at''⟩
        · rintro ⟨t, member, at''⟩
          refine ⟨t, (List.mem_erase_of_ne ?_).mpr member, at''⟩
          rintro rfl
          exact same at''
      simp only [others, KeyedTable.get?_update_of_ne _ _ (Ne.symm same), same, false_imp_iff,
        iff_true]
      exact agree

/-- The stamps keep telling that a turn is open exactly under steps that stamp apart. -/
theorem registersAgree_step (agree : RegistersAgree chatId w) (e : Event) :
    RegistersAgree chatId (w.step e) ↔ StampsApart chatId w e := by
  cases e with
  | admitUserTurn id turn at' => exact registersAgree_stampStarted agree id turn at'
  | abandonUserTurnAdmission id turn at' => exact registersAgree_stampTerminal agree id turn at'
  | recordUserTurnTerminal id turn at' written =>
    cases written with
    | false => simpa [step, StampsApart] using agree
    | true => simpa [step, StampsApart] using registersAgree_stampTerminal agree id turn at'
  | createChat id =>
    refine iff_of_true (fun isOpen => ?_) trivial
    obtain ⟨c, found, isOpen⟩ := agree isOpen
    refine ⟨c, ?_, isOpen⟩
    simp only [step]
    cases created : w.chats.create id {} with
    | none => exact found
    | some chats =>
      obtain ⟨free, -⟩ := KeyedTable.create_eq_some_iff.mp created
      have other : chatId ≠ id := by rintro rfl; simp [free] at found
      simp only [Option.getD_some, KeyedTable.get?_create created, other, if_false]
      exact found
  | query b now =>
    refine iff_of_true (fun isOpen => ?_) trivial
    simp only [step] at isOpen ⊢
    split at isOpen
    · exact agree isOpen
    · obtain ⟨c, found, isOpen⟩ := agree isOpen
      dsimp only
      split
      · rw [KeyedTable.get?_update]
        split
        · have fenced :
              { c with catchUpAdmissionFence := c.catchUpAdmissionFence + 1 }.userTurnOpen :=
            isOpen
          exact ⟨_, Option.mem_map_of_mem _ found, fenced⟩
        · exact ⟨c, found, isOpen⟩
      · exact ⟨c, found, isOpen⟩
  | setAttempts | setReceipts | admitCatchUpAtBoundary => exact iff_of_true agree trivial

/-- Where the stamps tell the truth, no catch-up is let in beside an open turn. -/
theorem not_allowed_of_agree (agree : RegistersAgree chatId w) {e : Event}
    (allowed : w.allows e = some chatId) : ¬ w.hasOpenTurn chatId := by
  intro turnOpen
  obtain ⟨row, found, windowOpen⟩ := agree turnOpen
  unfold allows at allowed
  split at allowed
  · split at allowed
    · rename_i b now _ c _
      split at allowed
      · rename_i answered
        obtain rfl := Option.some.inj allowed
        have denied := Chat.not_admits_of_open windowOpen now
        rw [Option.mem_def] at found
        simp [gate, found, denied] at answered
      · cases allowed
    · cases allowed
  · cases allowed

end

/-- No turn is open and nobody is at a boundary. -/
def World.idle (chats : KeyedTable Id Chat) : World := { chats }

/-- A catch-up is let into the chat only while no user turn of the chat is open. -/
def UserFirst (chatId : Id) (w : World) (e : Event) : Prop :=
  w.allows e = some chatId → ¬ w.hasOpenTurn chatId

instance (chatId : Id) (w : World) (e : Event) : Decidable (UserFirst chatId w e) :=
  inferInstanceAs (Decidable (_ → _))

/-- The stamps tell the truth in every state of exactly those runs that stamp apart. -/
theorem registersAgree_iff (chats : KeyedTable Id Chat) (chatId : Id) (es : List Event) :
    EveryState step (RegistersAgree chatId) (idle chats) es ↔
      EveryStep step (StampsApart chatId) (idle chats) es := by
  constructor
  · exact reflects_everyStep fun w e agree after => (registersAgree_step agree e).mp after
  · refine everyState_of_preserved (fun w e agree => (registersAgree_step agree e).mpr) ?_
    rintro ⟨t, member, -⟩
    cases member

/-- Runs whose stamps are set apart let no catch-up in while a user turn is open. -/
theorem user_turn_priority (chats : KeyedTable Id Chat) (chatId : Id) (es : List Event)
    (apart : EveryStep step (StampsApart chatId) (idle chats) es) :
    EveryStep step (UserFirst chatId) (idle chats) es := by
  refine everyStep_of_preserved (I := RegistersAgree chatId)
    (fun w e agree => (registersAgree_step agree e).mpr)
    (fun w e agree _ => not_allowed_of_agree agree) ?_ apart
  rintro ⟨t, member, -⟩
  cases member

/-- A chat with the thread key of its catch-ups. -/
def telegramChat : Candidate := ⟨7, 1, 3, some "telegram:7"⟩

/-- The second turn starts while the first is open; the first ends, and a catch-up
asks after the idle pause, before the second turn has a receipt. -/
def overlap : List Event :=
  [.createChat 7,
    .admitUserTurn 7 1 1000,
    .admitUserTurn 7 2 2000,
    .recordUserTurnTerminal 7 1 3000 true,
    .admitCatchUpAtBoundary 0 telegramChat,
    .query 0 6000, .query 0 6000, .query 0 6000, .query 0 6000, .query 0 6000]

theorem overlapping_turns : ¬ EveryStep step (UserFirst 7) (idle ∅) overlap := by decide

/-- Turns one after another, with a catch-up after both. -/
def inTurn : List Event :=
  [.createChat 7,
    .admitUserTurn 7 1 1000,
    .recordUserTurnTerminal 7 1 3000 true,
    .admitUserTurn 7 2 4000,
    .abandonUserTurnAdmission 7 2 5000,
    .admitCatchUpAtBoundary 0 telegramChat,
    .query 0 9000, .query 0 9000, .query 0 9000, .query 0 9000, .query 0 9000]

theorem user_turn_priority_inTurn :
    EveryStep step (StampsApart 7) (idle ∅) inTurn ∧ EveryStep step (UserFirst 7) (idle ∅) inTurn :=
  ⟨by decide, user_turn_priority ∅ 7 inTurn (by decide)⟩

end Persai.ChatWake
