import Persai.ScriptBrowser.Responses

/-!
# Responses are written whole

While the stream is alive the queue of writes and what the stream holds are those of a
`SerialWriter`, and every task knows where its frame is (`Live`). When the stream goes, what it
holds is the frames written so far and a part of the one that was being written, and no step adds
to it.
-/

namespace Persai.ScriptBrowser

open Runs SerialWriter

variable {Frame Err : Type} {utf8 : Frame → List UInt8} {s t : State Frame Err}
  {whole : List (Nat × List UInt8)}

namespace State

@[simp] theorem tasks_updateTask (s : State Frame Err) (i j : Nat)
    (f : Task Frame Err → Task Frame Err) :
    (s.updateTask i f).tasks[j]? = if i = j then s.tasks[j]?.map f else s.tasks[j]? := by
  rw [updateTask, List.getElem?_modify]
  split
  · rfl
  · simp

theorem mem_unsettled {i : Nat} :
    i ∈ s.unsettled ↔ ∃ task, s.tasks[i]? = some task ∧ task.stage ≠ .settled := by
  simp only [unsettled, List.mem_filter, List.mem_range, Option.any_eq_true, decide_eq_true_eq]
  constructor
  · exact fun ⟨_, unsettled⟩ => unsettled
  · rintro ⟨task, found, unsettled⟩
    exact ⟨(List.getElem?_eq_some_iff.mp found).1, task, found, unsettled⟩

/-- What `close` has done so far. No task is accepted any more, and those it no longer waits for
have settled. -/
def ClosingHolds (s : State Frame Err) : Prop :=
  match s.closing with
  | .notCalled => True
  | .closingBroker => s.accepting = false
  | .awaitingTasks awaited => s.accepting = false ∧ ∀ i ∈ s.unsettled, i ∈ awaited
  | .awaitingQueue _ | .returned => s.accepting = false ∧ s.unsettled = []

theorem ClosingHolds.mono (holds : s.ClosingHolds) (accepting : t.accepting = s.accepting)
    (closing : t.closing = s.closing) (settles : ∀ i ∈ t.unsettled, i ∈ s.unsettled) :
    t.ClosingHolds := by
  unfold ClosingHolds at holds ⊢
  rw [closing, accepting]
  cases stage : s.closing with
  | notCalled => trivial
  | closingBroker => simpa only [stage] using holds
  | awaitingTasks awaited =>
    simp only [stage] at holds ⊢
    exact ⟨holds.1, fun i member => holds.2 i (settles i member)⟩
  | awaitingQueue | returned =>
    simp only [stage] at holds ⊢
    refine ⟨holds.1, List.eq_nil_iff_forall_not_mem.mpr fun i member => ?_⟩
    have earlier := settles i member
    rw [holds.2] at earlier
    cases earlier

end State

/-- While the stream is alive: the tasks whose frames are queued or written. -/
structure Live (utf8 : Frame → List UInt8) (s : State Frame Err)
    (whole : List (Nat × List UInt8)) : Prop where
  sent : Sent s.writer whole
  chunks : ∀ chunk ∈ s.writer.written, chunk.length ≤ maxWriteChunkBytes
  queued : ∀ job ∈ s.writer.queue, ∃ task, s.tasks[job.key]? = some task ∧
    task.stage = .writing ∧ ∃ frame, task.Gives frame ∧ job.bytes = utf8 frame
  wrote : ∀ p ∈ whole, ∃ task, s.tasks[p.1]? = some task ∧
    task.stage = .settled ∧ ∃ frame, task.Gives frame ∧ p.2 = utf8 frame
  answered : ∀ (i : Nat) (task : Task Frame Err) frame, s.tasks[i]? = some task →
    task.stage = .settled →
    task.request = .resolved frame → (i, utf8 frame) ∈ whole
  asked : ∀ (i : Nat) (task : Task Frame Err), s.tasks[i]? = some task → task.request = .pending →
    task.stage = .requested
  closing : s.ClosingHolds

theorem Task.Gives.resolved {task : Task Frame Err} {frame frame' : Frame}
    (gives : task.Gives frame) (resolved : task.request = .resolved frame') : frame = frame' := by
  obtain same | ⟨error, rejected, -⟩ := gives
  · rw [same] at resolved
    injection resolved
  · rw [rejected] at resolved
    cases resolved

namespace Live

theorem initial : Live utf8 (State.initial : State Frame Err) [] where
  sent := sent_empty
  chunks := nofun
  queued := nofun
  wrote := nofun
  answered := nofun
  asked := nofun
  closing := trivial

/-- Where only requests settle and tasks come in addition. -/
theorem of_tasks (live : Live utf8 s whole) (writer : t.writer = s.writer)
    (kept : ∀ (i : Nat) (task : Task Frame Err), s.tasks[i]? = some task → task.stage ≠ .requested →
      t.tasks[i]? = some task)
    (old : ∀ (i : Nat) (task : Task Frame Err), t.tasks[i]? = some task →
      task.stage = .requested ∨ s.tasks[i]? = some task)
    (closing : t.ClosingHolds) : Live utf8 t whole where
  sent := writer ▸ live.sent
  chunks := writer ▸ live.chunks
  queued := by
    rw [writer]
    intro job member
    obtain ⟨task, found, stage, gives⟩ := live.queued job member
    exact ⟨task, kept _ _ found (by simp [stage]), stage, gives⟩
  wrote := by
    intro p member
    obtain ⟨task, found, stage, gives⟩ := live.wrote p member
    exact ⟨task, kept _ _ found (by simp [stage]), stage, gives⟩
  answered := by
    intro i task frame found stage
    obtain requested | found := old i task found
    · rw [requested] at stage
      cases stage
    · exact live.answered i task frame found stage
  asked := by
    intro i task found pending
    obtain requested | found := old i task found
    · exact requested
    · exact live.asked i task found pending
  closing := closing

theorem dispatch (live : Live utf8 s whole) (failureResponse : Err → Option Frame) :
    Live utf8 (s.dispatch failureResponse) whole := by
  rw [State.dispatch]
  split
  · exact live
  · rename_i accepting
    refine live.of_tasks rfl ?_ ?_ ?_
    · intro i task found _
      have bound := (List.getElem?_eq_some_iff.mp found).1
      rwa [List.getElem?_append_left bound]
    · intro i task found
      rw [List.getElem?_append] at found
      split at found
      · exact .inr found
      · rw [List.getElem?_singleton] at found
        split at found
        · cases found
          exact .inl rfl
        · cases found
    · have holds := live.closing
      unfold State.ClosingHolds at holds ⊢
      cases stage : s.closing <;> simp_all

theorem settleRequest (live : Live utf8 s whole) (i : Nat) (outcome : Request Frame Err) :
    Live utf8 (s.settleRequest i outcome) whole := by
  rw [State.settleRequest]
  refine live.of_tasks rfl ?_ ?_ (live.closing.mono rfl rfl ?_)
  · intro j task found stage
    rw [State.tasks_updateTask]
    split
    · rw [found, Option.map_some]
      cases request : task.request with
      | pending => exact absurd (live.asked j task found request) stage
      | resolved | rejected => rfl
    · exact found
  · intro j task found
    rw [State.tasks_updateTask] at found
    split at found
    · obtain ⟨before, earlier, rfl⟩ := Option.map_eq_some_iff.mp found
      cases request : before.request with
      | pending => exact .inl (live.asked j before earlier request)
      | resolved | rejected => exact .inr earlier
    · exact .inr found
  · intro j
    simp only [State.mem_unsettled, State.tasks_updateTask]
    rintro ⟨task, found, unsettled⟩
    split at found
    · obtain ⟨before, earlier, rfl⟩ := Option.map_eq_some_iff.mp found
      refine ⟨before, earlier, ?_⟩
      cases request : before.request <;> simpa [request] using unsettled
    · exact ⟨task, found, unsettled⟩

/-- The frame of a task that waited for its request is queued. -/
theorem enqueueWrite (live : Live utf8 s whole) {i : Nat} {task : Task Frame Err} {frame : Frame}
    (found : s.tasks[i]? = some task) (requested : task.stage = .requested)
    (gives : task.Gives frame) : Live utf8 (s.enqueueWrite utf8 i frame) whole := by
  have new : i ∉ whole.map (·.1) ++ s.writer.keys := by
    rw [List.mem_append, not_or]
    constructor
    · intro member
      obtain ⟨p, frames, rfl⟩ := List.mem_map.mp member
      obtain ⟨other, same, settled, -⟩ := live.wrote p frames
      rw [found] at same
      cases same
      rw [requested] at settled
      cases settled
    · intro member
      obtain ⟨job, jobs, rfl⟩ := List.mem_map.mp member
      obtain ⟨other, same, writing, -⟩ := live.queued job jobs
      rw [found] at same
      cases same
      rw [requested] at writing
      cases writing
  have asked : task.request ≠ .pending := by
    obtain resolved | ⟨error, rejected, -⟩ := gives
    · simp [resolved]
    · simp [rejected]
  have tasks (j : Nat) : (s.enqueueWrite utf8 i frame).tasks[j]? =
      if i = j then s.tasks[j]?.map fun task => { task with stage := .writing } else s.tasks[j]? :=
    State.tasks_updateTask ..
  constructor
  · exact live.sent.enqueue _ new
  · exact live.chunks
  · intro job member
    obtain old | own := List.mem_append.mp member
    · obtain ⟨other, same, writing, gives⟩ := live.queued job old
      rw [tasks, same]
      split
      · exact ⟨{ other with stage := .writing }, rfl, rfl, gives⟩
      · exact ⟨other, rfl, writing, gives⟩
    · rw [List.mem_singleton.mp own, tasks, if_pos rfl, found]
      exact ⟨{ task with stage := .writing }, rfl, rfl, frame, gives, rfl⟩
  · intro p member
    obtain ⟨other, same, settled, gives⟩ := live.wrote p member
    rw [tasks, if_neg]
    · exact ⟨other, same, settled, gives⟩
    · rintro rfl
      exact new (List.mem_append_left _ (List.mem_map_of_mem member))
  · intro j other frame' same settled
    rw [tasks] at same
    split at same
    · obtain ⟨before, -, rfl⟩ := Option.map_eq_some_iff.mp same
      cases settled
    · exact live.answered j other frame' same settled
  · intro j other same pending
    rw [tasks] at same
    split at same
    · rename_i own
      subst own
      rw [found] at same
      cases same
      exact absurd pending asked
    · exact live.asked j other same pending
  · refine live.closing.mono rfl rfl ?_
    intro j
    simp only [State.mem_unsettled, tasks]
    rintro ⟨other, same, unsettled⟩
    split at same
    · rename_i own
      subst own
      exact ⟨task, found, by simp [requested]⟩
    · exact ⟨other, same, unsettled⟩

/-- A task settles: one with no frame to write, or the one whose frame has been written. -/
theorem settle (live : Live utf8 s whole) {i : Nat} {task : Task Frame Err}
    {w : SerialWriter.Writer Nat UInt8} (more : List (Nat × List UInt8))
    (found : s.tasks[i]? = some task)
    (asked : task.request ≠ .pending) (sent : Sent w (whole ++ more))
    (written : w.written = s.writer.written)
    (queue : ∀ job ∈ w.queue, job ∈ s.writer.queue ∧ job.key ≠ i)
    (own : ∀ p ∈ more, p.1 = i ∧ ∃ frame, task.Gives frame ∧ p.2 = utf8 frame)
    (answered : ∀ frame, task.request = .resolved frame → (i, utf8 frame) ∈ more) :
    Live utf8 { s.settle i with writer := w } (whole ++ more) := by
  have tasks (j : Nat) : ({ s.settle i with writer := w } : State Frame Err).tasks[j]? =
      if i = j then s.tasks[j]?.map fun task => { task with stage := .settled } else s.tasks[j]? :=
    State.tasks_updateTask ..
  constructor
  · exact sent
  · exact written ▸ live.chunks
  · intro job member
    obtain ⟨earlier, other⟩ := queue job member
    rw [tasks, if_neg (Ne.symm other)]
    exact live.queued job earlier
  · intro p member
    obtain old | new := List.mem_append.mp member
    · obtain ⟨other, same, settled, gives⟩ := live.wrote p old
      rw [tasks, same]
      split
      · exact ⟨{ other with stage := .settled }, rfl, rfl, gives⟩
      · exact ⟨other, rfl, settled, gives⟩
    · obtain ⟨key, gives⟩ := own p new
      rw [tasks, if_pos key.symm, key, found]
      exact ⟨{ task with stage := .settled }, rfl, rfl, gives⟩
  · intro j other frame same settled resolved
    rw [tasks] at same
    split at same
    · rename_i key
      subst key
      rw [found] at same
      cases same
      exact List.mem_append_right _ (answered frame resolved)
    · exact List.mem_append_left _ (live.answered j other frame same settled resolved)
  · intro j other same pending
    rw [tasks] at same
    split at same
    · rename_i key
      subst key
      rw [found] at same
      cases same
      exact absurd pending asked
    · exact live.asked j other same pending
  · refine live.closing.mono rfl rfl ?_
    intro j
    simp only [State.mem_unsettled, tasks]
    rintro ⟨other, same, unsettled⟩
    split at same
    · obtain ⟨before, -, rfl⟩ := Option.map_eq_some_iff.mp same
      exact absurd rfl unsettled
    · exact ⟨other, same, unsettled⟩

theorem reacts (live : Live utf8 s whole) (i : Nat) : Live utf8 (s.reacts utf8 i) whole := by
  rw [State.reacts]
  cases found : s.tasks[i]? with
  | none => exact live
  | some task =>
    dsimp only
    split
    · rename_i requested
      have dropped (request : ∃ error, task.request = .rejected error) :
          Live utf8 (s.settle i) whole := by
        obtain ⟨error, rejected⟩ := request
        have := live.settle [] found (by simp [rejected])
          (by simpa using live.sent) (rfl : s.writer.written = _)
          (fun job member => ⟨member, ?_⟩) nofun
          (by simp [rejected])
        · simpa [State.settle, State.updateTask] using this
        · rintro rfl
          obtain ⟨other, same, writing, -⟩ := live.queued job member
          rw [found] at same
          cases same
          rw [requested] at writing
          cases writing
      rw [State.react]
      cases request : task.request with
      | pending => exact live
      | resolved frame => exact live.enqueueWrite found requested (.inl request)
      | rejected error =>
        dsimp only
        split
        · exact dropped ⟨error, request⟩
        · cases failure : task.failureResponse error with
          | none => exact dropped ⟨error, request⟩
          | some frame =>
            exact live.enqueueWrite found requested (.inr ⟨error, request, failure⟩)
    · exact live

/-- Where the writer goes on with the frames it has. -/
theorem of_writer (live : Live utf8 s whole) {w : SerialWriter.Writer Nat UInt8}
    (sent : Sent w whole)
    (chunks : ∀ chunk ∈ w.written, chunk.length ≤ maxWriteChunkBytes)
    (queue : ∀ job ∈ w.queue, ∃ before ∈ s.writer.queue,
      before.key = job.key ∧ before.bytes = job.bytes) :
    Live utf8 { s with writer := w } whole where
  sent := sent
  chunks := chunks
  queued := by
    intro job member
    obtain ⟨before, earlier, key, bytes⟩ := queue job member
    rw [← key, ← bytes]
    exact live.queued before earlier
  wrote := live.wrote
  answered := live.answered
  asked := live.asked
  closing := live.closing.mono rfl rfl fun _ member => member

theorem release (live : Live utf8 s whole) :
    Live utf8 { s with writer := s.writer.release } whole := by
  refine live.of_writer live.sent.release ?_ ?_
  · have same : s.writer.release.written = s.writer.written := by
      unfold SerialWriter.Writer.release
      split <;> rfl
    exact same ▸ live.chunks
  · intro job member
    unfold SerialWriter.Writer.release at member
    split at member
    · exact ⟨job, member, rfl, rfl⟩
    · rename_i first rest queue
      rw [queue]
      obtain rfl | later := List.mem_cons.mp member
      · exact ⟨first, List.mem_cons_self, rfl, rfl⟩
      · exact ⟨job, List.mem_cons_of_mem _ later, rfl, rfl⟩

theorem write (live : Live utf8 s whole) (backpressure : Bool) :
    Live utf8 { s with writer := s.writer.write maxWriteChunkBytes backpressure } whole := by
  refine live.of_writer (live.sent.write ..) ?_ ?_
  · intro chunk member
    unfold SerialWriter.Writer.write at member
    split at member
    · exact live.chunks chunk member
    · rename_i first rest queue
      obtain earlier | own := List.mem_append.mp member
      · exact live.chunks chunk earlier
      · rw [List.mem_singleton.mp own]
        exact first.length_chunk _
  · intro job member
    unfold SerialWriter.Writer.write at member
    split at member
    · exact ⟨job, member, rfl, rfl⟩
    · rename_i first rest queue
      rw [queue]
      obtain rfl | later := List.mem_cons.mp member
      · exact ⟨first, List.mem_cons_self, rfl, rfl⟩
      · exact ⟨job, List.mem_cons_of_mem _ later, rfl, rfl⟩

/-- The first frame has been written to its end. -/
theorem finish (live : Live utf8 s whole) {job : Job Nat UInt8} {rest : List (Job Nat UInt8)}
    (queue : s.writer.queue = job :: rest) (done : job.bytes.length ≤ job.offset) :
    Live utf8 { s.settle job.key with writer := s.writer.finish }
      (whole ++ [(job.key, job.bytes)]) := by
  have member : job ∈ s.writer.queue := by
    rw [queue]
    exact List.mem_cons_self
  obtain ⟨task, found, writing, frame, gives, bytes⟩ := live.queued job member
  have keys : (job.key :: rest.map (·.key)).Nodup := by
    have once := (List.nodup_append.mp live.sent.once).2.1
    rwa [SerialWriter.Writer.keys, queue] at once
  refine live.settle _ found ?_ (live.sent.finish queue done) rfl ?_ ?_ ?_
  · intro pending
    have requested := live.asked _ task found pending
    rw [writing] at requested
    cases requested
  · intro later after
    rw [SerialWriter.Writer.finish, queue] at after
    refine ⟨queue ▸ List.mem_cons_of_mem _ after, fun same => ?_⟩
    exact (List.nodup_cons.mp keys).1 (same ▸ List.mem_map_of_mem after)
  · intro p own
    rw [List.mem_singleton.mp own]
    exact ⟨rfl, frame, gives, bytes⟩
  · intro response resolved
    rw [bytes, gives.resolved resolved]
    exact List.mem_singleton_self _

theorem writeChunked (live : Live utf8 s whole) (canWrite : s.canWrite) (backpressure : Bool) :
    ∃ whole, Live utf8 (s.writeChunked backpressure) whole := by
  unfold State.writeChunked
  split
  · exact ⟨whole, live⟩
  · rename_i job rest queue
    split
    · exact ⟨whole, live⟩
    · split
      · exact ⟨whole, live.write backpressure⟩
      · rename_i written
        have done : job.bytes.length ≤ job.offset := by
          simpa [canWrite] using written
        exact ⟨_, live.finish queue done⟩

/-- Where only `close` goes on, or the stream goes. -/
theorem of_closing (live : Live utf8 s whole) {accepting destroyed writableEnded : Bool}
    {closing : Closing}
    (holds : ({ s with accepting, destroyed, writableEnded, closing } : State Frame Err)
      |>.ClosingHolds) :
    Live utf8 { s with accepting, destroyed, writableEnded, closing } whole :=
  ⟨live.sent, live.chunks, live.queued, live.wrote, live.answered, live.asked, holds⟩

theorem closes (live : Live utf8 s whole) : Live utf8 s.closes whole := by
  unfold State.closes
  split
  · exact live.of_closing rfl
  · exact live

theorem brokerCloses (live : Live utf8 s whole) : Live utf8 s.brokerCloses whole := by
  unfold State.brokerCloses
  split
  · rename_i stage
    have holds := live.closing
    unfold State.ClosingHolds at holds
    rw [stage] at holds
    exact live.of_closing ⟨holds, fun _ member => member⟩
  · exact live

theorem tasksSettle (live : Live utf8 s whole) : Live utf8 s.tasksSettle whole := by
  unfold State.tasksSettle
  split
  · rename_i awaited stage
    split
    · rename_i settled
      have holds := live.closing
      unfold State.ClosingHolds at holds
      rw [stage] at holds
      refine live.of_closing ⟨holds.1, List.eq_nil_iff_forall_not_mem.mpr fun i member => ?_⟩
      exact of_decide_eq_true (List.all_eq_true.mp settled i (holds.2 i member)) member
    · exact live
  · exact live

theorem queueSettles (live : Live utf8 s whole) : Live utf8 s.queueSettles whole := by
  unfold State.queueSettles
  split
  · rename_i tail stage
    split
    · have holds := live.closing
      unfold State.ClosingHolds at holds
      rw [stage] at holds
      exact live.of_closing holds
    · exact live
  · exact live

theorem step (live : Live utf8 s whole) (canWrite : s.canWrite) (e : Event Frame Err) :
    ∃ whole, Live utf8 (step utf8 s e) whole := by
  cases e with
  | dispatch failureResponse => exact ⟨whole, live.dispatch failureResponse⟩
  | resolves i frame => exact ⟨whole, live.settleRequest i _⟩
  | rejects i error => exact ⟨whole, live.settleRequest i _⟩
  | reacts i => exact ⟨whole, live.reacts i⟩
  | continues backpressure => exact live.writeChunked canWrite backpressure
  | unblocks => exact ⟨whole, live.release⟩
  | destroys | ends => exact ⟨whole, live.of_closing live.closing⟩
  | closes => exact ⟨whole, live.closes⟩
  | brokerCloses => exact ⟨whole, live.brokerCloses⟩
  | tasksSettle => exact ⟨whole, live.tasksSettle⟩
  | queueSettles => exact ⟨whole, live.queueSettles⟩

/-- The frame at the head of the queue is the one that has begun. -/
theorem written (live : Live utf8 s whole) :
    s.Written utf8 whole (s.writer.queue.head?.map fun job => (job.key, job.bytes))
      s.writer.current := by
  have begun {i bytes} (eq : (s.writer.queue.head?.map fun job => (job.key, job.bytes)) =
      some (i, bytes)) : ∃ job rest, s.writer.queue = job :: rest ∧ job.key = i ∧
        job.bytes = bytes := by
    obtain ⟨job, head, same⟩ := Option.map_eq_some_iff.mp eq
    obtain ⟨rest, queue⟩ := List.head?_eq_some_iff.mp head
    cases same
    exact ⟨job, rest, queue, rfl, rfl⟩
  refine ⟨live.sent.stream, ?_, ?_, ?_, ?_, live.chunks⟩
  · intro none
    rw [SerialWriter.Writer.current, Option.map_eq_none_iff.mp none]
    rfl
  · intro i bytes eq
    obtain ⟨job, rest, queue, rfl, rfl⟩ := begun eq
    constructor
    · rw [SerialWriter.Writer.current, queue]
      exact List.take_prefix ..
    · intro _
      rw [SerialWriter.Writer.keys, queue]
      rfl
  · intro p member
    obtain old | own := List.mem_append.mp member
    · obtain ⟨task, found, -, frame, gives, bytes⟩ := live.wrote p old
      exact ⟨task, frame, found, gives, bytes⟩
    · obtain ⟨job, rest, queue, key, bytes⟩ := begun (Option.mem_toList.mp own)
      obtain ⟨task, found, -, frame, gives, same⟩ := live.queued job (by simp [queue])
      exact ⟨task, frame, key ▸ found, gives, bytes ▸ same⟩
  · have once := live.sent.once
    cases queue : s.writer.queue with
    | nil =>
      rw [SerialWriter.Writer.keys, queue] at once
      simpa using once
    | cons job rest =>
      rw [SerialWriter.Writer.keys, queue, List.map_cons, ← List.singleton_append,
        ← List.append_assoc] at once
      simpa using (List.nodup_append.mp once).1

end Live

/-! ## When the stream is gone -/

/-- A request that has settled stays as it is. -/
def Keeps (s t : State Frame Err) : Prop :=
  ∀ (i : Nat) (task : Task Frame Err), s.tasks[i]? = some task → task.request ≠ .pending →
    ∃ task', t.tasks[i]? = some task' ∧ task'.request = task.request ∧
      task'.failureResponse = task.failureResponse

/-- What the turns of `close` leave alone. -/
structure Same (s t : State Frame Err) : Prop where
  tasks : t.tasks = s.tasks
  writer : t.writer = s.writer
  gone : s.canWrite = false → t.canWrite = false

theorem same_refl (s : State Frame Err) : Same s s := ⟨rfl, rfl, id⟩

theorem same_closes : Same s s.closes := by
  unfold State.closes
  split
  · exact ⟨rfl, rfl, id⟩
  · exact same_refl s

theorem same_brokerCloses : Same s s.brokerCloses := by
  unfold State.brokerCloses
  split
  · exact ⟨rfl, rfl, id⟩
  · exact same_refl s

theorem same_tasksSettle : Same s s.tasksSettle := by
  unfold State.tasksSettle
  split
  · split
    · exact ⟨rfl, rfl, id⟩
    · exact same_refl s
  · exact same_refl s

theorem same_queueSettles : Same s s.queueSettles := by
  unfold State.queueSettles
  split
  · split
    · refine ⟨rfl, rfl, fun gone => ?_⟩
      rw [gone, Bool.or_false]
      exact gone
    · exact same_refl s
  · exact same_refl s

theorem keeps_of_tasks (same : t.tasks = s.tasks) : Keeps s t :=
  fun _ task found _ => ⟨task, same ▸ found, rfl, rfl⟩

theorem keeps_updateTask (i : Nat) {f : Task Frame Err → Task Frame Err}
    (kept : ∀ task, task.request ≠ .pending →
      (f task).request = task.request ∧ (f task).failureResponse = task.failureResponse) :
    Keeps s (s.updateTask i f) := by
  intro j task found settled
  rw [State.tasks_updateTask, found]
  split
  · exact ⟨f task, rfl, kept task settled⟩
  · exact ⟨task, rfl, rfl, rfl⟩

theorem keeps_settle (i : Nat) : Keeps s (s.settle i) :=
  keeps_updateTask i fun _ _ => ⟨rfl, rfl⟩

theorem keeps_settleRequest (i : Nat) (outcome : Request Frame Err) :
    Keeps s (s.settleRequest i outcome) := by
  refine keeps_updateTask i fun task settled => ?_
  cases request : task.request with
  | pending => exact absurd request settled
  | resolved | rejected => exact ⟨request, rfl⟩

theorem keeps_enqueueWrite (i : Nat) (frame : Frame) : Keeps s (s.enqueueWrite utf8 i frame) :=
  keeps_updateTask i fun _ _ => ⟨rfl, rfl⟩

theorem keeps_reacts (i : Nat) : Keeps s (s.reacts utf8 i) := by
  unfold State.reacts
  split
  · exact keeps_of_tasks rfl
  · split
    · unfold State.react
      split
      · exact keeps_of_tasks rfl
      · exact keeps_enqueueWrite _ _
      · split
        · exact keeps_settle i
        · split
          · exact keeps_enqueueWrite _ _
          · exact keeps_settle i
    · exact keeps_of_tasks rfl

theorem keeps_writeChunked (backpressure : Bool) : Keeps s (s.writeChunked backpressure) := by
  unfold State.writeChunked
  split
  · exact keeps_of_tasks rfl
  · rename_i job rest queue
    split
    · exact keeps_of_tasks rfl
    · split
      · exact keeps_of_tasks rfl
      · exact keeps_settle job.key

theorem keeps_dispatch (failureResponse : Err → Option Frame) :
    Keeps s (s.dispatch failureResponse) := by
  unfold State.dispatch
  split
  · exact keeps_of_tasks rfl
  · intro i task found _
    refine ⟨task, ?_, rfl, rfl⟩
    have bound := (List.getElem?_eq_some_iff.mp found).1
    rwa [List.getElem?_append_left bound]

theorem keeps_step (e : Event Frame Err) : Keeps s (step utf8 s e) := by
  cases e with
  | dispatch failureResponse => exact keeps_dispatch failureResponse
  | resolves i | rejects i => exact keeps_settleRequest i _
  | reacts i => exact keeps_reacts i
  | continues backpressure => exact keeps_writeChunked backpressure
  | unblocks | destroys | ends => exact keeps_of_tasks rfl
  | closes => exact keeps_of_tasks same_closes.tasks
  | brokerCloses => exact keeps_of_tasks same_brokerCloses.tasks
  | tasksSettle => exact keeps_of_tasks same_tasksSettle.tasks
  | queueSettles => exact keeps_of_tasks same_queueSettles.tasks

theorem State.FrameOf.keeps {i : Nat} {bytes : List UInt8} (kept : Keeps s t)
    (frameOf : s.FrameOf utf8 i bytes) : t.FrameOf utf8 i bytes := by
  obtain ⟨task, frame, found, gives, bytes⟩ := frameOf
  have settled : task.request ≠ .pending := by
    obtain resolved | ⟨error, rejected, -⟩ := gives
    · simp [resolved]
    · simp [rejected]
  obtain ⟨task', found', request, failure⟩ := kept i task found settled
  refine ⟨task', frame, found', ?_, bytes⟩
  rwa [Task.Gives, request, failure]

theorem gone_reacts (i : Nat) (gone : s.canWrite = false) :
    (s.reacts utf8 i).canWrite = false ∧
      (s.reacts utf8 i).writer.written = s.writer.written := by
  unfold State.reacts
  split
  · exact ⟨gone, rfl⟩
  · split
    · unfold State.react
      split
      · exact ⟨gone, rfl⟩
      · exact ⟨gone, rfl⟩
      · split
        · exact ⟨gone, rfl⟩
        · split <;> exact ⟨gone, rfl⟩
    · exact ⟨gone, rfl⟩

theorem gone_writeChunked (backpressure : Bool) (gone : s.canWrite = false) :
    (s.writeChunked backpressure).canWrite = false ∧
      (s.writeChunked backpressure).writer.written = s.writer.written := by
  unfold State.writeChunked
  split
  · exact ⟨gone, rfl⟩
  · split
    · exact ⟨gone, rfl⟩
    · rw [gone, Bool.and_false, if_neg Bool.false_ne_true]
      exact ⟨gone, rfl⟩

/-- No step writes to a stream that is gone, or brings it back. -/
theorem gone_step (gone : s.canWrite = false) (e : Event Frame Err) :
    (step utf8 s e).canWrite = false ∧ (step utf8 s e).writer.written = s.writer.written := by
  have of_same {t : State Frame Err} (same : Same s t) :
      t.canWrite = false ∧ t.writer.written = s.writer.written :=
    ⟨same.gone gone, congrArg SerialWriter.Writer.written same.writer⟩
  cases e with
  | dispatch =>
    simp only [step, State.dispatch]
    split <;> exact ⟨gone, rfl⟩
  | resolves | rejects => exact ⟨gone, rfl⟩
  | reacts i => exact gone_reacts i gone
  | continues backpressure => exact gone_writeChunked backpressure gone
  | unblocks =>
    refine ⟨gone, ?_⟩
    simp only [step, SerialWriter.Writer.release]
    split <;> rfl
  | destroys => exact ⟨rfl, rfl⟩
  | ends => exact ⟨Bool.and_false _, rfl⟩
  | closes => exact of_same same_closes
  | brokerCloses => exact of_same same_brokerCloses
  | tasksSettle => exact of_same same_tasksSettle
  | queueSettles => exact of_same same_queueSettles

theorem State.Written.gone {begun : Option (Nat × List UInt8)} {part : List UInt8}
    (written : s.Written utf8 whole begun part) (kept : Keeps s t)
    (same : t.writer.written = s.writer.written) (gone : t.canWrite = false) :
    t.Written utf8 whole begun part where
  stream := same ▸ written.stream
  part_none := written.part_none
  part_some i bytes eq := by
    refine ⟨(written.part_some i bytes eq).1, fun alive => ?_⟩
    rw [gone] at alive
    cases alive
  frames p member := (written.frames p member).keeps kept
  once := written.once
  chunks := same ▸ written.chunks

/-- The invariant of all runs. -/
def Inv (utf8 : Frame → List UInt8) (s : State Frame Err) : Prop :=
  s.canWrite ∧ (∃ whole, Live utf8 s whole) ∨
    s.canWrite = false ∧ ∃ whole begun part, s.Written utf8 whole begun part

theorem inv_step (inv : Inv utf8 s) (e : Event Frame Err) : Inv utf8 (step utf8 s e) := by
  obtain ⟨alive, whole, live⟩ | ⟨gone, whole, begun, part, written⟩ := inv
  · obtain ⟨whole, next⟩ := live.step alive e
    cases after : (step utf8 s e).canWrite with
    | true => exact .inl ⟨after, whole, next⟩
    | false => exact .inr ⟨after, _, _, _, next.written⟩
  · obtain ⟨after, same⟩ := gone_step gone e
    exact .inr ⟨after, whole, begun, part, written.gone (keeps_step e) same after⟩

theorem Inv.written (inv : Inv utf8 s) : ∃ whole begun part, s.Written utf8 whole begun part := by
  obtain ⟨-, whole, live⟩ | ⟨-, written⟩ := inv
  · exact ⟨_, _, _, live.written⟩
  · exact written

/-- When `close` ends the stream, no task is left, so that every frame has been written. -/
theorem Inv.ends (inv : Inv utf8 s) {e : Event Frame Err} (ends : EndsStream utf8 s e) :
    ∃ whole, s.Written utf8 whole none [] ∧ s.Answered utf8 whole := by
  obtain ⟨rfl, before, after⟩ := ends
  obtain ⟨alive, whole, live⟩ | ⟨gone, -⟩ := inv
  · have settled : s.unsettled = [] := by
      have holds := live.closing
      simp only [step, State.queueSettles] at after
      split at after
      · rename_i tail stage
        unfold State.ClosingHolds at holds
        rw [stage] at holds
        exact holds.2
      · rw [before] at after
        cases after
    have all (i : Nat) (task : Task Frame Err) (found : s.tasks[i]? = some task) :
        task.stage = .settled := by
      by_contra unsettled
      have member := State.mem_unsettled.mpr ⟨task, found, unsettled⟩
      rw [settled] at member
      cases member
    have queue : s.writer.queue = [] := by
      refine List.eq_nil_iff_forall_not_mem.mpr fun job member => ?_
      obtain ⟨task, found, writing, -⟩ := live.queued job member
      rw [all _ task found] at writing
      cases writing
    refine ⟨whole, ?_, fun i task frame found =>
      live.answered i task frame found (all i task found)⟩
    simpa [SerialWriter.Writer.current, queue] using live.written
  · have same : s.queueSettles.writableEnded = false := by
      unfold State.queueSettles
      split
      · split
        · rw [gone, Bool.or_false]
          exact before
        · exact before
      · exact before
    rw [step, same] at after
    cases after

/-- In every interleaving the stream holds whole frames, one of each dispatch at most, and then a
part of the one that is being written or that the end of the stream cut. When `close` ends it, every
response that came is there. -/
theorem responses_written_whole (utf8 : Frame → List UInt8) (events : List (Event Frame Err)) :
    EveryState (step utf8) (fun s => ∃ whole begun part, s.Written utf8 whole begun part)
        State.initial events ∧
      EveryStep (step utf8) (fun s e => EndsStream utf8 s e →
        ∃ whole, s.Written utf8 whole none [] ∧ s.Answered utf8 whole) State.initial events := by
  have start : Inv utf8 (State.initial : State Frame Err) := .inl ⟨rfl, [], Live.initial⟩
  have always : EveryState (step utf8) (Inv utf8) State.initial events :=
    everyState_of_preserved (fun _ e inv _ => inv_step inv e) start
      (everyStep_of_forall (fun _ _ => trivial) _ _ : EveryStep _ (fun _ _ => True) _ _)
  refine ⟨everyState_mono (fun _ inv => inv.written) always, always.everyStep ?_⟩
  exact everyStep_of_forall (fun _ _ inv ends => Inv.ends inv ends) _ _

end Persai.ScriptBrowser
