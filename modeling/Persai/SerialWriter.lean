import Mathlib.Data.List.Nodup
import Mathlib.Data.List.Infix

/-!
# A writer of frames

Frames wait in a queue. Only the first is being written: its chunks go to a sink one after the
other, and the next frame starts when the writer is done with it. `Sent` is what the sink then
holds: the frames that were written whole, and the first part of the one at the head of the queue.
-/

namespace SerialWriter

/-- A frame in the queue: whose it is, how far it has been written and whether the writer waits
for the sink. -/
structure Job (κ α : Type) where
  key : κ
  bytes : List α
  offset : Nat
  waiting : Bool
  deriving DecidableEq, Repr

structure Writer (κ α : Type) where
  queue : List (Job κ α)
  written : List (List α)
  deriving DecidableEq, Repr

section
variable {κ α : Type}

namespace Job

/-- What has been written of the frame. -/
def sent (job : Job κ α) : List α := job.bytes.take job.offset

/-- The next chunk. -/
def chunk (limit : Nat) (job : Job κ α) : List α :=
  (job.bytes.take (min (job.offset + limit) job.bytes.length)).drop job.offset

def advance (limit : Nat) (waiting : Bool) (job : Job κ α) : Job κ α :=
  { job with offset := job.offset + limit, waiting }

variable (job : Job κ α) (limit : Nat)

theorem sent_advance (waiting : Bool) :
    (job.advance limit waiting).sent = job.sent ++ job.chunk limit := by
  have whole : job.bytes.take (min (job.offset + limit) job.bytes.length) =
      job.bytes.take (job.offset + limit) := by
    exact List.take_eq_take_min.symm
  have first : (job.bytes.take (job.offset + limit)).take job.offset = job.bytes.take job.offset :=
    by rw [List.take_take, Nat.min_eq_left (Nat.le_add_right ..)]
  rw [sent, sent, chunk, advance, whole, ← first, List.take_append_drop]

theorem length_chunk : (job.chunk limit).length ≤ limit := by
  rw [chunk, List.length_drop, List.length_take]
  omega

theorem sent_of_done (done : job.bytes.length ≤ job.offset) : job.sent = job.bytes :=
  List.take_of_length_le done

end Job

namespace Writer

def enqueue (key : κ) (bytes : List α) (w : Writer κ α) : Writer κ α :=
  { w with queue := w.queue ++ [⟨key, bytes, 0, false⟩] }

/-- The next chunk of the first frame goes to the sink. -/
def write (limit : Nat) (waiting : Bool) (w : Writer κ α) : Writer κ α :=
  match w.queue with
  | [] => w
  | job :: rest =>
    { queue := job.advance limit waiting :: rest, written := w.written ++ [job.chunk limit] }

/-- The sink has room again. -/
def release (w : Writer κ α) : Writer κ α :=
  match w.queue with
  | [] => w
  | job :: rest => { w with queue := { job with waiting := false } :: rest }

/-- The writer is done with the first frame. -/
def finish (w : Writer κ α) : Writer κ α := { w with queue := w.queue.tail }

def keys (w : Writer κ α) : List κ := w.queue.map (·.key)

/-- What the sink has of the first frame of the queue. -/
def current (w : Writer κ α) : List α := w.queue.head?.elim [] Job.sent

end Writer

/-- The sink holds the frames of `whole` and the first part of the one being written. No frame is
there or in the queue twice. -/
structure Sent (w : Writer κ α) (whole : List (κ × List α)) : Prop where
  stream : w.written.flatten = whole.flatMap (·.2) ++ w.current
  fresh : ∀ job ∈ w.queue.tail, job.offset = 0
  once : (whole.map (·.1) ++ w.keys).Nodup

variable {w : Writer κ α} {whole : List (κ × List α)}

theorem sent_empty : Sent ({ queue := [], written := [] } : Writer κ α) [] :=
  ⟨rfl, nofun, List.nodup_nil⟩

theorem Sent.enqueue (sent : Sent w whole) {key : κ} (bytes : List α)
    (new : key ∉ whole.map (·.1) ++ w.keys) : Sent (w.enqueue key bytes) whole := by
  obtain ⟨queue, written⟩ := w
  constructor
  · cases queue with
    | nil => simpa [Writer.enqueue, Writer.current, Job.sent] using sent.stream
    | cons job rest => exact sent.stream
  · intro job member
    cases queue with
    | nil => cases member
    | cons first rest =>
      obtain later | own := List.mem_append.mp member
      · exact sent.fresh job later
      · rw [List.mem_singleton.mp own]
  · have keys : (Writer.enqueue key bytes ⟨queue, written⟩).keys =
        Writer.keys ⟨queue, written⟩ ++ [key] := by
      simp [Writer.enqueue, Writer.keys]
    rw [keys, ← List.append_assoc]
    exact List.Nodup.append sent.once (List.nodup_singleton _)
      (List.disjoint_singleton.mpr new)

theorem Sent.write (sent : Sent w whole) (limit : Nat) (waiting : Bool) :
    Sent (w.write limit waiting) whole := by
  obtain ⟨queue, written⟩ := w
  cases queue with
  | nil => exact sent
  | cons job rest =>
    refine ⟨?_, sent.fresh, sent.once⟩
    have stream : written.flatten = whole.flatMap (·.2) ++ job.sent := sent.stream
    calc (written ++ [job.chunk limit]).flatten
        = written.flatten ++ job.chunk limit := by simp
      _ = whole.flatMap (·.2) ++ (job.sent ++ job.chunk limit) := by
        rw [stream, List.append_assoc]
      _ = whole.flatMap (·.2) ++ (job.advance limit waiting).sent := by
        rw [Job.sent_advance]

theorem Sent.release (sent : Sent w whole) : Sent w.release whole := by
  obtain ⟨queue, written⟩ := w
  cases queue with
  | nil => exact sent
  | cons job rest => exact ⟨sent.stream, sent.fresh, sent.once⟩

/-- A frame that has been written to its end is one more that is whole. -/
theorem Sent.finish {job : Job κ α} {rest : List (Job κ α)} (sent : Sent w whole)
    (queue : w.queue = job :: rest) (done : job.bytes.length ≤ job.offset) :
    Sent w.finish (whole ++ [(job.key, job.bytes)]) := by
  obtain ⟨_, written⟩ := w
  cases queue
  have next : (Writer.finish ⟨job :: rest, written⟩).current = [] := by
    cases rest with
    | nil => rfl
    | cons second rest =>
      simp [Writer.finish, Writer.current, Job.sent, sent.fresh second List.mem_cons_self]
  constructor
  · have stream : written.flatten = whole.flatMap (·.2) ++ job.sent := sent.stream
    rw [next, List.append_nil, List.flatMap_append]
    rw [Job.sent_of_done job done] at stream
    simpa [Writer.finish] using stream
  · exact fun later member => sent.fresh later (List.mem_of_mem_tail member)
  · simpa [Writer.keys, Writer.finish] using sent.once

end

end SerialWriter
