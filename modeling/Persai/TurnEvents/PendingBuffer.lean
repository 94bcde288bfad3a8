import Persai.KeyedTable
import Persai.TurnEvents.AppendOnly

/-!
# The pending buffer

`append` reads the buffer of its message, awaits the transaction that writes what it read
with its own drafts, and then deletes the buffer or stores all of it there. Calls overlap:
what one stores can be deleted or overwritten by another that had read the buffer before.
Nothing is lost, and nothing newer is written first, exactly when no call updates a buffer
that holds more than it knows of and none commits past drafts that wait elsewhere.
-/

namespace Persai.TurnEvents

open Runs

/-- A draft object: how many were passed before it, and the call that it was passed to. -/
structure PassedDraft where
  number : Nat
  call : Nat
  draft : TurnEventDraft
  deriving DecidableEq, Repr

inductive CallPhase where
  | writing | committed | failed | returned
  deriving DecidableEq, Repr

/-- A call of `append`. -/
structure AppendCall where
  combinedDrafts : List PassedDraft
  phase : CallPhase := .writing
  deriving DecidableEq, Repr

def AppendCall.inFlight (call : AppendCall) : Bool := call.phase != .returned

/-- One message in one process: the row's log, the buffer, the calls, and what has been
passed and has failed so far. -/
structure Process where
  turnEvents : Log
  pendingDrafts : List PassedDraft
  calls : KeyedTable Nat AppendCall
  passed : List PassedDraft
  failed : List PassedDraft

inductive ProcessEvent where
  | append (id : Nat) (drafts : List TurnEventDraft)
  /-- The transaction ends. -/
  | transact (id : Nat) (commits : Bool)
  /-- The call goes on after the transaction, and returns or throws. -/
  | updateBuffer (id : Nat)
  deriving DecidableEq, Repr

namespace Process

/-- A process that has not appended to the message yet. -/
def start (log : Log) : Process := ⟨log, [], ∅, [], []⟩

/-- The drafts as objects, numbered from `n`. -/
def number (n call : Nat) : List TurnEventDraft → List PassedDraft
  | [] => []
  | draft :: drafts => ⟨n, call, draft⟩ :: number (n + 1) call drafts

/-- The call reads the buffer; a call with nothing to write returns at once. -/
def append (s : Process) (id : Nat) (drafts : List TurnEventDraft) : Process :=
  let own := number s.passed.length id drafts
  let combinedDrafts := s.pendingDrafts ++ own
  match s.calls.create id
      { combinedDrafts, phase := if combinedDrafts.isEmpty then .returned else .writing } with
  | none => s
  | some calls => { s with calls, passed := s.passed ++ own }

def setPhase (s : Process) (id : Nat) (phase : CallPhase) : Process :=
  { s with calls := s.calls.update id fun call => { call with phase } }

/-- The transaction of the call ends, with the whole of its drafts written or none. -/
def transact (s : Process) (id : Nat) (commits : Bool) : Process :=
  match (s.calls.get? id).filter (·.phase == .writing) with
  | none => s
  | some call =>
    if commits then
      { s.setPhase id .committed with
        turnEvents := appendLocked s.turnEvents (call.combinedDrafts.map (·.draft)) }
    else { s.setPhase id .failed with failed := s.failed ++ call.combinedDrafts }

/-- The rest of `append` after the transaction. -/
def updateBuffer (s : Process) (id : Nat) : Process :=
  match s.calls.get? id with
  | some ⟨_, .committed⟩ => { s.setPhase id .returned with pendingDrafts := [] }
  | some ⟨combinedDrafts, .failed⟩ =>
    { s.setPhase id .returned with
      pendingDrafts :=
        if combinedDrafts.length > pendingDraftsMaxLength then [] else combinedDrafts }
  | _ => s

def step (s : Process) : ProcessEvent → Process
  | .append id drafts => s.append id drafts
  | .transact id commits => s.transact id commits
  | .updateBuffer id => s.updateBuffer id

/-! ## What the buffer is for -/

def durable (s : Process) (p : PassedDraft) : Bool := stored s.turnEvents p.draft

/-- The draft is part of a call still in flight. -/
def heldInFlight (s : Process) (p : PassedDraft) : Bool :=
  (s.calls.find? fun _ call => call.inFlight && call.combinedDrafts.contains p).isSome

/-- Every draft that was passed is in the log, in the buffer or part of a call in flight. -/
def NothingLost (s : Process) : Prop :=
  ∀ p ∈ s.passed, s.durable p = true ∨ p ∈ s.pendingDrafts ∨ s.heldInFlight p = true

/-- Before a draft becomes durable each older one that failed is durable, or is written in
the same transaction before it. -/
def KeepsOrder (s : Process) : ProcessEvent → Prop
  | .transact id true =>
    ∀ call ∈ (s.calls.get? id).filter (·.phase == .writing),
      ∀ p ∈ call.combinedDrafts, s.durable p = false → ∀ older ∈ s.failed,
        older.number < p.number →
          s.durable older = true ∨ [older, p].Sublist call.combinedDrafts
  | _ => True

/-- The failed call's drafts are too many for the buffer. -/
def Overflows (s : Process) : ProcessEvent → Prop
  | .updateBuffer id =>
    ∃ call ∈ s.calls.get? id, call.phase = .failed ∧
      call.combinedDrafts.length > pendingDraftsMaxLength
  | _ => False

/-! ## When it is kept -/

/-- The draft failed in this call, or the call took it from the buffer. -/
def AppendCall.waits (id : Nat) (call : AppendCall) (p : PassedDraft) : Bool :=
  call.combinedDrafts.contains p &&
    (call.phase == .failed || call.phase == .writing && p.call != id)

/-- The draft waits: in the buffer, in a call whose transaction has failed, or taken from
the buffer by a call that has not written yet. -/
def waits (s : Process) (p : PassedDraft) : Bool :=
  s.pendingDrafts.contains p || (s.calls.find? fun id call => AppendCall.waits id call p).isSome

/-- Another call in flight has the draft. -/
def heldElsewhere (s : Process) (id : Nat) (p : PassedDraft) : Bool :=
  (s.calls.find? fun i call =>
    i != id && call.inFlight && call.combinedDrafts.contains p).isSome

/-- A call that updates the buffer knows of all that is in it, or others see to it. -/
def KnowsBuffer (s : Process) : ProcessEvent → Prop
  | .updateBuffer id =>
    ∀ call ∈ (s.calls.get? id).filter fun call => call.phase == .committed || call.phase == .failed,
      ∀ p ∈ s.pendingDrafts,
        p ∈ call.combinedDrafts ∨ s.durable p = true ∨ s.heldElsewhere id p = true
  | _ => True

/-- A call that commits something new has all that waits and is older. -/
def OvertakesNone (s : Process) : ProcessEvent → Prop
  | .transact id true =>
    ∀ call ∈ (s.calls.get? id).filter (·.phase == .writing),
      ∀ p ∈ call.combinedDrafts, s.durable p = false → ∀ older ∈ s.passed,
        s.waits older = true → older.number < p.number →
          s.durable older = true ∨ older ∈ call.combinedDrafts
  | _ => True

section
variable {s : Process} {p : PassedDraft} {id : Nat} {call : AppendCall}

theorem heldInFlight_iff : s.heldInFlight p = true ↔
    ∃ id call, s.calls.get? id = some call ∧ call.inFlight = true ∧ p ∈ call.combinedDrafts := by
  simp [heldInFlight, KeyedTable.find?_isSome_iff]

theorem heldElsewhere_iff : s.heldElsewhere id p = true ↔
    ∃ i call, s.calls.get? i = some call ∧ i ≠ id ∧ call.inFlight = true ∧
      p ∈ call.combinedDrafts := by
  simp [heldElsewhere, KeyedTable.find?_isSome_iff, and_assoc]

theorem waits_iff : s.waits p = true ↔ p ∈ s.pendingDrafts ∨
    ∃ id call, s.calls.get? id = some call ∧ p ∈ call.combinedDrafts ∧
      (call.phase = .failed ∨ call.phase = .writing ∧ p.call ≠ id) := by
  simp [waits, AppendCall.waits, KeyedTable.find?_isSome_iff]

/-- A call in flight is writing, or its transaction has ended. -/
theorem AppendCall.inFlight_iff {call : AppendCall} : call.inFlight = true ↔
    call.phase = .writing ∨ call.phase = .committed ∨ call.phase = .failed := by
  cases phase : call.phase <;> simp [AppendCall.inFlight, phase]

/-! ## What a step does -/

theorem mem_number {n call : Nat} {drafts : List TurnEventDraft} {p : PassedDraft}
    (mem : p ∈ number n call drafts) : n ≤ p.number ∧ p.number < n + drafts.length ∧
      p.call = call := by
  induction drafts generalizing n with
  | nil => cases mem
  | cons draft drafts ih =>
    rcases List.mem_cons.mp mem with rfl | mem
    · exact ⟨Nat.le_refl _, by simp, rfl⟩
    · obtain ⟨lower, upper, same⟩ := ih mem
      rw [List.length_cons]
      exact ⟨by omega, by omega, same⟩

theorem length_number (n call : Nat) (drafts : List TurnEventDraft) :
    (number n call drafts).length = drafts.length := by
  induction drafts generalizing n with
  | nil => rfl
  | cons draft drafts ih => simp [number, ih]

theorem number_pairwise (n call : Nat) (drafts : List TurnEventDraft) :
    (number n call drafts).Pairwise fun p q => p.number < q.number := by
  induction drafts generalizing n with
  | nil => exact .nil
  | cons draft drafts ih =>
    refine List.pairwise_cons.mpr ⟨fun q hq => ?_, ih (n + 1)⟩
    have later := (mem_number hq).1
    exact later

theorem get?_setPhase (s : Process) (id i : Nat) (phase : CallPhase) :
    (s.setPhase id phase).calls.get? i =
      if i = id then (s.calls.get? i).map fun call => { call with phase } else s.calls.get? i :=
  KeyedTable.get?_update ..

end

/-- What is known of a call: its drafts are its own or have failed before, in the order in
which they were passed; those of an ended transaction are durable or have failed. -/
structure CallSound (s : Process) (id : Nat) (call : AppendCall) : Prop where
  order : call.combinedDrafts.Pairwise fun p q => p.number < q.number
  own : ∀ p ∈ call.combinedDrafts, p ∈ s.failed ∨ p.call = id ∧ p ∈ s.passed
  failed : call.phase = .failed → ∀ p ∈ call.combinedDrafts, p ∈ s.failed
  committed : call.phase = .committed → ∀ p ∈ call.combinedDrafts, s.durable p = true
  writing : call.phase = .writing → ∀ p ∈ s.failed, p.call ≠ id

structure BufferSound (s : Process) : Prop where
  known : ∀ p ∈ s.passed, (s.calls.get? p.call).isSome
  numbers : ∀ p ∈ s.passed, p.number < s.passed.length
  failures : ∀ p ∈ s.failed, p ∈ s.passed
  buffered : ∀ p ∈ s.pendingDrafts, p ∈ s.failed
  order : s.pendingDrafts.Pairwise fun p q => p.number < q.number

structure Sound (s : Process) : Prop extends BufferSound s where
  calls : ∀ id call, s.calls.get? id = some call → CallSound s id call

theorem start_sound (log : Log) : Sound (start log) where
  known := nofun
  numbers := nofun
  failures := nofun
  buffered := nofun
  order := .nil
  calls := nofun

section
variable {s : Process} {id : Nat} {call : AppendCall}

/-- The phase of a call goes on. -/
theorem BufferSound.setPhase (h : BufferSound s) (found : s.calls.get? id = some call)
    {phase : CallPhase} (next : CallSound s id { call with phase })
    (others : ∀ i call', i ≠ id → s.calls.get? i = some call' → CallSound s i call') :
    Sound (s.setPhase id phase) where
  known := by
    intro p hp
    rw [get?_setPhase]
    split
    · rw [Option.isSome_map]
      exact h.known p hp
    · exact h.known p hp
  numbers := h.numbers
  failures := h.failures
  buffered := h.buffered
  order := h.order
  calls := by
    intro i call' found'
    rw [get?_setPhase] at found'
    split at found'
    · rename_i same
      subst same
      rw [found] at found'
      cases found'
      exact ⟨next.order, next.own, next.failed, next.committed, next.writing⟩
    · rename_i different
      have other := others i call' different found'
      exact ⟨other.order, other.own, other.failed, other.committed, other.writing⟩

/-- What is known of a call stays so while nothing is taken from the log, from what has failed
and from what was passed. -/
theorem CallSound.mono {s' : Process} (h : CallSound s id call)
    (durable : ∀ p, s.durable p = true → s'.durable p = true)
    (failed : ∀ p ∈ s.failed, p ∈ s'.failed) (passed : ∀ p ∈ s.passed, p ∈ s'.passed)
    (writing : call.phase = .writing → ∀ p ∈ s'.failed, p.call ≠ id) : CallSound s' id call where
  order := h.order
  own p hp := (h.own p hp).imp (failed p) (And.imp_right (passed p))
  failed ended p hp := failed p (h.failed ended p hp)
  committed ended p hp := durable p (h.committed ended p hp)
  writing := writing

theorem Sound.call_ne_of_unused (h : Sound s) (unused : s.calls.get? id = none) {p : PassedDraft}
    (hp : p ∈ s.passed) : p.call ≠ id := by
  intro same
  have known := h.known p hp
  rw [same, unused] at known
  cases known

/-- A new call has the buffer's drafts and, behind them, its own. -/
theorem newCall_sound (h : Sound s) (unused : s.calls.get? id = none)
    (drafts : List TurnEventDraft) (calls : KeyedTable Nat AppendCall) {phase : CallPhase}
    (begun : phase = .writing ∨ phase = .returned) :
    CallSound { s with calls, passed := s.passed ++ number s.passed.length id drafts } id
      ⟨s.pendingDrafts ++ number s.passed.length id drafts, phase⟩ where
  order := by
    refine List.pairwise_append.mpr ⟨h.order, number_pairwise _ _ _, ?_⟩
    intro p hp q hq
    have before := h.numbers p (h.failures p (h.buffered p hp))
    have after := (mem_number hq).1
    omega
  own := by
    intro p hp
    rcases List.mem_append.mp hp with hp | hp
    · exact .inl (h.buffered p hp)
    · exact .inr ⟨(mem_number hp).2.2, List.mem_append_right _ hp⟩
  failed ended := by rcases begun with begun | begun <;> cases begun.symm.trans ended
  committed ended := by rcases begun with begun | begun <;> cases begun.symm.trans ended
  writing _ p hp := h.call_ne_of_unused unused (h.failures p hp)

theorem append_sound (h : Sound s) (id : Nat) (drafts : List TurnEventDraft) :
    Sound (s.append id drafts) := by
  unfold append
  dsimp only
  split
  · exact h
  rename_i calls created
  have lookup := KeyedTable.get?_create created
  have unused : s.calls.get? id = none := (KeyedTable.create_eq_some_iff.mp created).1
  refine ⟨⟨?_, ?_, ?_, h.buffered, h.order⟩, ?_⟩
  · intro p hp
    show (calls.get? p.call).isSome
    rw [lookup]
    split
    · rfl
    · rename_i other
      rcases List.mem_append.mp hp with hp | hp
      · exact h.known p hp
      · exact absurd (mem_number hp).2.2 other
  · intro p hp
    show p.number < (s.passed ++ _).length
    rw [List.length_append, length_number]
    rcases List.mem_append.mp hp with hp | hp
    · have := h.numbers p hp
      omega
    · have := (mem_number hp).2.1
      omega
  · intro p hp
    exact List.mem_append_left _ (h.failures p hp)
  · intro i call' found
    change calls.get? i = some call' at found
    rw [lookup] at found
    split at found
    · rename_i same
      subst same
      cases found
      refine newCall_sound h unused drafts calls ?_
      split
      · exact .inr rfl
      · exact .inl rfl
    · have other := h.calls i call' found
      exact other.mono (fun _ h => h) (fun _ h => h) (fun _ => List.mem_append_left _) other.writing

/-- A transaction that ends is that of a call that was writing. -/
theorem transact_cases (s : Process) (id : Nat) (commits : Bool) :
    s.transact id commits = s ∧
        (s.calls.get? id).filter (·.phase == .writing) = none ∨
      ∃ call, s.calls.get? id = some call ∧ call.phase = .writing ∧
        s.transact id commits =
          if commits then
            { s.setPhase id .committed with
              turnEvents := appendLocked s.turnEvents (call.combinedDrafts.map (·.draft)) }
          else { s.setPhase id .failed with failed := s.failed ++ call.combinedDrafts } := by
  unfold transact
  cases found : (s.calls.get? id).filter (·.phase == .writing) with
  | none => exact .inl ⟨rfl, rfl⟩
  | some call =>
    obtain ⟨row, phase⟩ := Option.filter_eq_some_iff.mp found
    exact .inr ⟨call, row, by simpa using phase, rfl⟩

theorem transact_sound (h : Sound s) (id : Nat) (commits : Bool) :
    Sound (s.transact id commits) := by
  rcases transact_cases s id commits with ⟨same, -⟩ | ⟨call, found, writing, ended⟩
  · rw [same]
    exact h
  have sound := h.calls id call found
  cases commits with
  | true =>
    rw [ended, if_pos rfl]
    have kept : BufferSound { s with
        turnEvents := appendLocked s.turnEvents (call.combinedDrafts.map (·.draft)) } :=
      ⟨h.known, h.numbers, h.failures, h.buffered, h.order⟩
    refine @BufferSound.setPhase _ id call kept found _ ?_ ?_
    · refine ⟨sound.order, sound.own, nofun, ?_, nofun⟩
      intro _ p hp
      exact stored_appendLocked (List.mem_map_of_mem hp)
    · intro i call' different found'
      have other := h.calls i call' found'
      exact other.mono (fun _ => stored_of_appendLocked _) (fun _ h => h) (fun _ h => h)
        other.writing
  | false =>
    rw [ended, if_neg Bool.false_ne_true]
    have kept : BufferSound { s with failed := s.failed ++ call.combinedDrafts } := by
      refine ⟨h.known, h.numbers, ?_, fun p hp => List.mem_append_left _ (h.buffered p hp),
        h.order⟩
      intro p hp
      rcases List.mem_append.mp hp with hp | hp
      · exact h.failures p hp
      · exact (sound.own p hp).elim (h.failures p) And.right
    refine @BufferSound.setPhase _ id call kept found _ ?_ ?_
    · refine ⟨sound.order, ?_, fun _ p hp => List.mem_append_right _ hp, nofun, nofun⟩
      exact fun p hp => .inl (List.mem_append_right _ hp)
    · intro i call' different found'
      have other := h.calls i call' found'
      refine other.mono (fun _ h => h) (fun _ => List.mem_append_left _) (fun _ h => h) ?_
      intro writing' p hp
      rcases List.mem_append.mp hp with hp | hp
      · exact other.writing writing' p hp
      · rcases sound.own p hp with hp | ⟨own, -⟩
        · exact other.writing writing' p hp
        · rw [own]
          exact different.symm

/-- A call that goes on leaves the buffer empty, or with all of its own drafts. -/
theorem updateBuffer_cases (s : Process) (id : Nat) :
    s.updateBuffer id = s ∧ ((s.calls.get? id).filter fun call =>
        call.phase == .committed || call.phase == .failed) = none ∨
      ∃ call, s.calls.get? id = some call ∧
        (call.phase = .committed ∧
            s.updateBuffer id = { s.setPhase id .returned with pendingDrafts := [] } ∨
          call.phase = .failed ∧
            s.updateBuffer id = { s.setPhase id .returned with
              pendingDrafts := if call.combinedDrafts.length > pendingDraftsMaxLength then []
                else call.combinedDrafts }) := by
  unfold updateBuffer
  match found : s.calls.get? id with
  | some ⟨combinedDrafts, .committed⟩ => exact .inr ⟨_, rfl, .inl ⟨rfl, rfl⟩⟩
  | some ⟨combinedDrafts, .failed⟩ => exact .inr ⟨_, rfl, .inr ⟨rfl, rfl⟩⟩
  | some ⟨combinedDrafts, .writing⟩ => exact .inl ⟨rfl, rfl⟩
  | some ⟨combinedDrafts, .returned⟩ => exact .inl ⟨rfl, rfl⟩
  | none => exact .inl ⟨rfl, rfl⟩

/-- A call returns and leaves drafts in the buffer that have failed. -/
theorem returned_sound (h : Sound s) (found : s.calls.get? id = some call)
    {pendingDrafts : List PassedDraft} (buffered : ∀ p ∈ pendingDrafts, p ∈ s.failed)
    (order : pendingDrafts.Pairwise fun p q => p.number < q.number) :
    Sound { s.setPhase id .returned with pendingDrafts } := by
  have sound := h.calls id call found
  have kept : BufferSound { s with pendingDrafts } :=
    ⟨h.known, h.numbers, h.failures, buffered, order⟩
  refine @BufferSound.setPhase _ id call kept found _ ?_ ?_
  · exact ⟨sound.order, sound.own, nofun, nofun, nofun⟩
  · intro i call' _ found'
    have other := h.calls i call' found'
    exact other.mono (fun _ h => h) (fun _ h => h) (fun _ h => h) other.writing

theorem updateBuffer_sound (h : Sound s) (id : Nat) : Sound (s.updateBuffer id) := by
  rcases updateBuffer_cases s id with
    ⟨same, -⟩ | ⟨call, found, ⟨committed, updated⟩ | ⟨failed, updated⟩⟩
  · rw [same]
    exact h
  · rw [updated]
    exact returned_sound h found nofun .nil
  · have sound := h.calls id call found
    rw [updated]
    refine returned_sound h found ?_ ?_
    · split
      · exact nofun
      · exact sound.failed failed
    · split
      · exact .nil
      · exact sound.order

theorem step_sound (s : Process) (e : ProcessEvent) (h : Sound s) : Sound (s.step e) := by
  cases e with
  | append id drafts => exact append_sound h id drafts
  | transact id commits => exact transact_sound h id commits
  | updateBuffer id => exact updateBuffer_sound h id

/-! ## Where nothing is lost -/

/-- A draft that failed and is not durable waits. -/
theorem waits_of_failed (h : Sound s) (nothingLost : NothingLost s) {p : PassedDraft}
    (failed : p ∈ s.failed) : s.durable p = true ∨ s.waits p = true := by
  rcases nothingLost p (h.failures p failed) with durable | buffered | held
  · exact .inl durable
  · exact .inr (waits_iff.mpr (.inl buffered))
  · obtain ⟨id, call, found, inFlight, hp⟩ := heldInFlight_iff.mp held
    have sound := h.calls id call found
    rcases AppendCall.inFlight_iff.mp inFlight with writing | committed | ended
    · have taken := sound.writing writing p failed
      exact .inr (waits_iff.mpr (.inr ⟨id, call, found, hp, .inr ⟨writing, taken⟩⟩))
    · exact .inl (sound.committed committed p hp)
    · exact .inr (waits_iff.mpr (.inr ⟨id, call, found, hp, .inl ended⟩))

theorem failed_of_waits (h : Sound s) {p : PassedDraft} (waits : s.waits p = true) :
    p ∈ s.failed := by
  rcases waits_iff.mp waits with buffered | ⟨id, call, found, hp, ended | ⟨-, taken⟩⟩
  · exact h.buffered p buffered
  · exact (h.calls id call found).failed ended p hp
  · exact ((h.calls id call found).own p hp).resolve_right fun own => taken own.1

/-- Two drafts of a call are written in the order in which they were passed. -/
theorem sublist_of_lt {l : List PassedDraft} (order : l.Pairwise fun p q => p.number < q.number)
    {p q : PassedDraft} (hp : p ∈ l) (hq : q ∈ l) (lt : p.number < q.number) :
    [p, q].Sublist l := by
  induction order with
  | nil => cases hp
  | @cons first rest before order ih =>
    rcases List.mem_cons.mp hp with rfl | in_rest
    · rcases List.mem_cons.mp hq with rfl | after
      · omega
      · exact (List.singleton_sublist.mpr after).cons_cons p
    · rcases List.mem_cons.mp hq with rfl | after
      · have := before p in_rest
        omega
      · exact (ih in_rest after).cons first

/-- Where nothing is lost yet, the order is kept by what overtakes none that waits. -/
theorem keepsOrder_iff (h : Sound s) (nothingLost : NothingLost s) (e : ProcessEvent) :
    KeepsOrder s e ↔ OvertakesNone s e := by
  match e with
  | .transact id true =>
    refine forall₂_congr fun call writing => forall₂_congr fun p hp => forall_congr' fun new => ?_
    obtain ⟨found, -⟩ := Option.filter_eq_some_iff.mp writing
    have order := (h.calls id call found).order
    constructor
    · intro kept older _ waits before
      rcases kept older (failed_of_waits h waits) before with durable | written
      · exact .inl durable
      · exact .inr (written.subset List.mem_cons_self)
    · intro kept older failed before
      rcases waits_of_failed h nothingLost failed with durable | waits
      · exact .inl durable
      · rcases kept older (h.failures older failed) waits before with durable | mem
        · exact .inl durable
        · exact .inr (sublist_of_lt order mem hp before)
  | .transact id false => exact Iff.rfl
  | .append id drafts => exact Iff.rfl
  | .updateBuffer id => exact Iff.rfl

theorem append_nothingLost (nothingLost : NothingLost s) (id : Nat)
    (drafts : List TurnEventDraft) : NothingLost (s.append id drafts) := by
  unfold append
  dsimp only
  split
  · exact nothingLost
  rename_i calls created
  have lookup := KeyedTable.get?_create created
  have unused : s.calls.get? id = none := (KeyedTable.create_eq_some_iff.mp created).1
  intro p hp
  rcases List.mem_append.mp hp with hp | own
  · rcases nothingLost p hp with durable | buffered | held
    · exact .inl durable
    · exact .inr (.inl buffered)
    · obtain ⟨i, call, found, inFlight, mem⟩ := heldInFlight_iff.mp held
      have different : i ≠ id := by
        rintro rfl
        rw [unused] at found
        cases found
      refine .inr (.inr (heldInFlight_iff.mpr ⟨i, call, ?_, inFlight, mem⟩))
      exact (lookup i).trans ((if_neg different).trans found)
  · have mem : p ∈ s.pendingDrafts ++ number s.passed.length id drafts :=
      List.mem_append_right _ own
    refine .inr (.inr (heldInFlight_iff.mpr ⟨id, _, (lookup id).trans (if_pos rfl), ?_, mem⟩))
    have full : (s.pendingDrafts ++ number s.passed.length id drafts).isEmpty = false := by
      rw [List.isEmpty_eq_false_iff_exists_mem]
      exact ⟨p, mem⟩
    rw [AppendCall.inFlight, full]
    rfl

/-- A call that stays in flight still holds its drafts. -/
theorem heldInFlight_setPhase {p : PassedDraft} (found : s.calls.get? id = some call)
    {phase : CallPhase} (stays : phase ≠ .returned) (held : s.heldInFlight p = true) :
    (s.setPhase id phase).heldInFlight p = true := by
  obtain ⟨i, call', found', inFlight, mem⟩ := heldInFlight_iff.mp held
  rw [heldInFlight_iff]
  by_cases same : i = id
  · subst same
    rw [found] at found'
    cases found'
    have now : (s.setPhase i phase).calls.get? i = some { call with phase } := by
      rw [get?_setPhase, if_pos rfl, found, Option.map_some]
    exact ⟨i, _, now, by simpa [AppendCall.inFlight] using stays, mem⟩
  · exact ⟨i, call', (get?_setPhase s id i phase).trans ((if_neg same).trans found'), inFlight,
      mem⟩

theorem transact_nothingLost (nothingLost : NothingLost s) (id : Nat) (commits : Bool) :
    NothingLost (s.transact id commits) := by
  rcases transact_cases s id commits with ⟨same, -⟩ | ⟨call, found, writing, ended⟩
  · rw [same]
    exact nothingLost
  cases commits with
  | true =>
    rw [ended, if_pos rfl]
    intro p hp
    refine (nothingLost p hp).imp (stored_of_appendLocked _) (Or.imp_right ?_)
    exact heldInFlight_setPhase found nofun
  | false =>
    rw [ended, if_neg Bool.false_ne_true]
    intro p hp
    exact (nothingLost p hp).imp_right (Or.imp_right (heldInFlight_setPhase found nofun))

/-- Once the call has returned, the others in flight hold what they held. -/
theorem heldInFlight_returned {p : PassedDraft} :
    (s.setPhase id .returned).heldInFlight p = true ↔ s.heldElsewhere id p = true := by
  rw [heldInFlight_iff, heldElsewhere_iff]
  constructor
  · rintro ⟨i, call, found, inFlight, mem⟩
    rw [get?_setPhase] at found
    split at found
    · obtain ⟨call', -, rfl⟩ := Option.map_eq_some_iff.mp found
      cases inFlight
    · rename_i different
      exact ⟨i, call, found, different, inFlight, mem⟩
  · rintro ⟨i, call, found, different, inFlight, mem⟩
    exact ⟨i, call, (get?_setPhase s id i _).trans ((if_neg different).trans found), inFlight, mem⟩

/-- A call returns and leaves in the buffer what of its drafts is not durable. -/
theorem returned_nothingLost (h : Sound s) (nothingLost : NothingLost s)
    (found : s.calls.get? id = some call) {pendingDrafts : List PassedDraft}
    (own : ∀ p ∈ call.combinedDrafts, s.durable p = true ∨ p ∈ pendingDrafts)
    (only : ∀ p ∈ pendingDrafts, p ∈ call.combinedDrafts) :
    NothingLost { s.setPhase id .returned with pendingDrafts } ↔
      ∀ p ∈ s.pendingDrafts,
        p ∈ call.combinedDrafts ∨ s.durable p = true ∨ s.heldElsewhere id p = true := by
  constructor
  · intro kept p buffered
    rcases kept p (h.failures p (h.buffered p buffered)) with durable | mem | held
    · exact .inr (.inl durable)
    · exact .inl (only p mem)
    · exact .inr (.inr (heldInFlight_returned.mp held))
  · intro knows p hp
    have of_own (mem : p ∈ call.combinedDrafts) : s.durable p = true ∨ p ∈ pendingDrafts ∨
        (s.setPhase id .returned).heldInFlight p = true := (own p mem).imp_right .inl
    rcases nothingLost p hp with durable | buffered | held
    · exact .inl durable
    · rcases knows p buffered with mem | durable | elsewhere
      · exact of_own mem
      · exact .inl durable
      · exact .inr (.inr (heldInFlight_returned.mpr elsewhere))
    · obtain ⟨i, call', found', inFlight, mem⟩ := heldInFlight_iff.mp held
      by_cases same : i = id
      · subst same
        rw [found] at found'
        cases found'
        exact of_own mem
      · refine .inr (.inr (heldInFlight_returned.mpr (heldElsewhere_iff.mpr ?_)))
        exact ⟨i, call', found', same, inFlight, mem⟩

/-- A call that ends loses nothing just if it knows of all that is in the buffer. -/
theorem updateBuffer_nothingLost (h : Sound s) (nothingLost : NothingLost s)
    (fits : ¬ Overflows s (.updateBuffer id)) :
    NothingLost (s.updateBuffer id) ↔ KnowsBuffer s (.updateBuffer id) := by
  rcases updateBuffer_cases s id with
    ⟨same, none⟩ | ⟨call, found, ended⟩
  · rw [same, KnowsBuffer, none]
    exact iff_of_true nothingLost nofun
  have knows : KnowsBuffer s (.updateBuffer id) ↔ ∀ p ∈ s.pendingDrafts,
      p ∈ call.combinedDrafts ∨ s.durable p = true ∨ s.heldElsewhere id p = true := by
    have this_call : ((s.calls.get? id).filter fun call =>
        call.phase == .committed || call.phase == .failed) = some call := by
      rw [found]
      rcases ended with ⟨phase, -⟩ | ⟨phase, -⟩ <;> simp [phase]
    rw [KnowsBuffer, this_call]
    simp
  have sound := h.calls id call found
  rw [knows]
  rcases ended with ⟨committed, updated⟩ | ⟨failed, updated⟩
  · rw [updated]
    exact returned_nothingLost h nothingLost found
      (fun p mem => .inl (sound.committed committed p mem)) nofun
  · have short : ¬ call.combinedDrafts.length > pendingDraftsMaxLength :=
      fun long => fits ⟨call, found, failed, long⟩
    rw [updated, if_neg short]
    exact returned_nothingLost h nothingLost found (fun p mem => .inr mem) fun p mem => mem

/-- One step loses nothing and keeps the order just if the call knows of the buffer and
overtakes nothing that waits. -/
theorem step_iff (s : Process) (e : ProcessEvent) (h : Sound s) (nothingLost : NothingLost s)
    (fits : ¬ Overflows s e) :
    NothingLost (s.step e) ∧ KeepsOrder s e ↔ KnowsBuffer s e ∧ OvertakesNone s e := by
  refine and_congr ?_ (keepsOrder_iff h nothingLost e)
  cases e with
  | append id drafts => exact iff_of_true (append_nothingLost nothingLost id drafts) trivial
  | transact id commits => exact iff_of_true (transact_nothingLost nothingLost id commits) trivial
  | updateBuffer id => exact updateBuffer_nothingLost h nothingLost fits

end

theorem map_number (n call : Nat) (drafts : List TurnEventDraft) :
    (number n call drafts).map (·.draft) = drafts := by
  induction drafts generalizing n with
  | nil => rfl
  | cons draft drafts ih => rw [number, List.map_cons, ih]

/-- The transaction and the rest of a call that nothing comes between. -/
theorem transact_updateBuffer (s : Process) {id : Nat} {call : AppendCall}
    (found : s.calls.get? id = some call) (writing : call.phase = .writing) (commits : Bool) :
    let s' := run step s [.transact id commits, .updateBuffer id]
    s'.turnEvents = (if commits then
        appendLocked s.turnEvents (call.combinedDrafts.map (·.draft)) else s.turnEvents) ∧
      s'.pendingDrafts = if commits ∨ call.combinedDrafts.length > pendingDraftsMaxLength then []
        else call.combinedDrafts := by
  have row : (s.calls.get? id).filter (·.phase == .writing) = some call := by
    simp [found, writing]
  have next (phase : CallPhase) :
      (s.setPhase id phase).calls.get? id = some { call with phase } := by
    rw [get?_setPhase, if_pos rfl, found, Option.map_some]
  cases commits with
  | true =>
    simp only [run_cons, run_nil, step, transact, row, if_true, updateBuffer, next .committed]
    exact ⟨rfl, (if_pos (.inl trivial)).symm⟩
  | false =>
    simp only [run_cons, run_nil, step, transact, row, Bool.false_eq_true, if_false, updateBuffer,
      next .failed, false_or]
    exact ⟨rfl, trivial⟩

theorem append_of_new {s : Process} {id : Nat} (new : s.calls.get? id = none)
    (drafts : List TurnEventDraft) :
    let combinedDrafts := s.pendingDrafts ++ number s.passed.length id drafts
    ∃ calls,
      calls.get? id = some
        ⟨combinedDrafts, if combinedDrafts.isEmpty then .returned else .writing⟩ ∧
      s.append id drafts =
        { s with calls, passed := s.passed ++ number s.passed.length id drafts } := by
  intro combinedDrafts
  cases created : s.calls.create id
      ⟨combinedDrafts, if combinedDrafts.isEmpty then .returned else .writing⟩ with
  | none =>
    have used := KeyedTable.create_eq_none_iff.mp created
    rw [new] at used
    cases used
  | some calls =>
    refine ⟨calls, (KeyedTable.get?_create created id).trans (if_pos rfl), ?_⟩
    simp only [append]
    rw [show s.calls.create id _ = some calls from created]

/-- Nothing more is done in a call that has returned. -/
theorem run_of_returned {s : Process} {id : Nat} {call : AppendCall}
    (found : s.calls.get? id = some call) (returned : call.phase = .returned) (commits : Bool) :
    run step s [.transact id commits, .updateBuffer id] = s := by
  have untransacted : s.transact id commits = s := by
    rcases transact_cases s id commits with ⟨same, -⟩ | ⟨call', found', writing, -⟩
    · exact same
    · rw [Option.some.inj (found'.symm.trans found), returned] at writing
      cases writing
  have unchanged : s.updateBuffer id = s := by
    rcases updateBuffer_cases s id with ⟨same, -⟩ | ⟨call', found', ended⟩
    · exact same
    · rw [Option.some.inj (found'.symm.trans found), returned] at ended
      rcases ended with ⟨committed, -⟩ | ⟨failed, -⟩ <;> contradiction
  simp only [run_cons, run_nil, step, untransacted, unchanged]

/-- A call that no other overlaps does what `append` does in one step. -/
theorem append_alone (s : Process) {id : Nat} (new : s.calls.get? id = none)
    (drafts : List TurnEventDraft) (commits : Bool) (content : Text) :
    let s' := run step s [.append id drafts, .transact id commits, .updateBuffer id]
    let m : Message Unit := ⟨s.turnEvents, content, fun _ => s.pendingDrafts.map (·.draft)⟩
    let m' := m.append () drafts (if commits then .committed else .failed)
    s'.turnEvents = m'.turnEvents ∧ s'.pendingDrafts.map (·.draft) = m'.pendingDrafts () := by
  intro s' m m'
  obtain ⟨calls, found, called⟩ := append_of_new new drafts
  let s₁ : Process := { s with calls, passed := s.passed ++ number s.passed.length id drafts }
  have ran : s' = run step (s.append id drafts) [.transact id commits, .updateBuffer id] := rfl
  rw [called] at ran
  have texts : (s.pendingDrafts ++ number s.passed.length id drafts).map (·.draft) =
      s.pendingDrafts.map (·.draft) ++ drafts := by
    rw [List.map_append, map_number]
  cases empty : (s.pendingDrafts ++ number s.passed.length id drafts).isEmpty with
  | true =>
    have nothing : s.pendingDrafts.map (·.draft) ++ drafts = [] := by
      rw [← texts, List.isEmpty_iff.mp empty, List.map_nil]
    have same : m' = m := by simp [m', Message.append, m, nothing]
    rw [ran, run_of_returned (s := s₁) found (if_pos empty), same]
    exact ⟨rfl, rfl⟩
  | false =>
    have goes_on : ¬ (s.pendingDrafts ++ number s.passed.length id drafts).isEmpty = true := by
      rw [empty]
      exact Bool.false_ne_true
    obtain ⟨log, buffer⟩ := transact_updateBuffer s₁ found (if_neg goes_on) commits
    rw [ran, log, buffer, texts]
    have some_drafts : (s.pendingDrafts.map (·.draft) ++ drafts).isEmpty = false := by
      rw [← texts, List.isEmpty_map, empty]
    have length := (congrArg List.length texts).symm
    rw [List.length_map] at length
    cases commits with
    | true => simp [m', m, s₁, Message.append, Message.releasePending, some_drafts]
    | false =>
      simp only [m', m, Message.append, some_drafts, Message.keepPending, length,
        Bool.false_eq_true, if_false, false_or, Function.update_self]
      refine ⟨rfl, ?_⟩
      split
      · rfl
      · exact texts

/-- The drafts of a first call are kept, its transaction having failed. -/
def failedOnce : Process :=
  run step (start []) [.append 0 [.keyed "t1" "r#1" (.note [97] .step)], .transact 0 false,
    .updateBuffer 0]

/-- A second call commits them with its own. -/
theorem append_alone_second :
    let drafts : List TurnEventDraft := [.keyed "t1" "r#2" (.note [98] .step)]
    let s' := run step failedOnce [.append 1 drafts, .transact 1 true, .updateBuffer 1]
    let m : Message Unit := ⟨[], [], fun _ => [.keyed "t1" "r#1" (.note [97] .step)]⟩
    s'.turnEvents.length = 2 ∧ s'.turnEvents = (m.append () drafts .committed).turnEvents ∧
      s'.pendingDrafts.map (·.draft) = (m.append () drafts .committed).pendingDrafts () := by
  intro drafts s' m
  have new : failedOnce.calls.get? 1 = none := by decide +kernel
  have alone := append_alone failedOnce new drafts true []
  have kept : (⟨failedOnce.turnEvents, [], fun _ => failedOnce.pendingDrafts.map (·.draft)⟩ :
      Message Unit) = m := rfl
  rw [kept] at alone
  exact ⟨by decide +kernel, alone⟩

theorem losesNothing_iff (log : Log) (es : List ProcessEvent)
    (fits : EveryStep step (fun s e => ¬ Overflows s e) (start log) es) :
    EveryState step NothingLost (start log) es ∧ EveryStep step KeepsOrder (start log) es ↔
      EveryStep step (fun s e => KnowsBuffer s e ∧ OvertakesNone s e) (start log) es :=
  everyState_and_everyStep_iff step_sound step_iff (start_sound log) nofun fits

instance (s : Process) : Decidable (NothingLost s) :=
  inferInstanceAs (Decidable (∀ p ∈ s.passed, _))

instance (s : Process) : ∀ e, Decidable (KeepsOrder s e)
  | .append .. => inferInstanceAs (Decidable True)
  | .updateBuffer _ => inferInstanceAs (Decidable True)
  | .transact _ false => inferInstanceAs (Decidable True)
  | .transact id true => inferInstanceAs (Decidable (∀ call ∈ (s.calls.get? id).filter _, _))

instance (s : Process) : ∀ e, Decidable (Overflows s e)
  | .append .. => inferInstanceAs (Decidable False)
  | .transact .. => inferInstanceAs (Decidable False)
  | .updateBuffer id => inferInstanceAs (Decidable (∃ call ∈ s.calls.get? id, _))

instance (s : Process) : ∀ e, Decidable (KnowsBuffer s e)
  | .append .. => inferInstanceAs (Decidable True)
  | .transact .. => inferInstanceAs (Decidable True)
  | .updateBuffer id => inferInstanceAs (Decidable (∀ call ∈ (s.calls.get? id).filter _, _))

instance (s : Process) : ∀ e, Decidable (OvertakesNone s e)
  | .append .. => inferInstanceAs (Decidable True)
  | .updateBuffer _ => inferInstanceAs (Decidable True)
  | .transact _ false => inferInstanceAs (Decidable True)
  | .transact id true => inferInstanceAs (Decidable (∀ call ∈ (s.calls.get? id).filter _, _))

/-- A draft that failed is written with the next one. -/
theorem losesNothing_retried :
    EveryState step NothingLost (start []) [.append 0 [.keyed "t1" "r#1" (.note [97] .step)],
        .transact 0 false, .updateBuffer 0, .append 1 [.keyed "t2" "r#2" (.note [98] .step)],
        .transact 1 true, .updateBuffer 1] :=
  ((losesNothing_iff [] _ (by decide +kernel)).mpr (by decide +kernel)).1

/-- Two calls overlap: the first fails and keeps its draft, the second deletes the buffer. -/
theorem overlapping_call_deletes :
    let es : List ProcessEvent := [.append 0 [.keyed "t1" "r#1" (.note [97] .step)],
      .append 1 [.keyed "t2" "r#2" (.note [98] .step)], .transact 0 false, .updateBuffer 0,
      .transact 1 true, .updateBuffer 1]
    EveryStep step (fun s e => ¬ Overflows s e) (start []) es ∧
      ¬ EveryState step NothingLost (start []) es ∧ ¬ EveryStep step KeepsOrder (start []) es := by
  decide +kernel

end Process

end Persai.TurnEvents
