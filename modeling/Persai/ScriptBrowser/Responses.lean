import Persai.Runs
import Persai.SerialWriter

/-!
# The responses of a Script's browser

`ScriptBrowserResponseLifecycle` answers the browser requests of one Script on the Script's
`stdin`. Each `dispatch` starts a request. Its response, or the frame that reports its failure, is
put in a queue of writes and goes to `stdin` in chunks. `close` refuses further dispatches, waits
for the tasks and the queue, and ends the stream.

An event is one turn of the event loop: a call, the settlement of a promise, the continuation of
an `await`, or something that happens to the stream. An event that is not enabled in a state does
nothing there, so that the runs are all the interleavings.
-/

namespace Persai.ScriptBrowser

open SerialWriter

/-- `MAX_WRITE_CHUNK_BYTES`. -/
def maxWriteChunkBytes : Nat := 64 * 1024

/-- The promise that `requestResponse` returned. -/
inductive Request (Frame Err : Type) where
  | pending
  | resolved (frame : Frame)
  | rejected (error : Err)

/-- What a task waits for: its request, the write of its frame, or nothing more. In the last case it
is no longer in `tasks`. -/
inductive Stage where
  | requested
  | writing
  | settled
  deriving DecidableEq, Repr

structure Task (Frame Err : Type) where
  /-- `none` where it throws. -/
  failureResponse : Err → Option Frame
  request : Request Frame Err
  stage : Stage

/-- How far `close` is: the awaits of `closeBroker`, of the tasks there were then, and of the write
that was last in the queue then. -/
inductive Closing where
  | notCalled
  | closingBroker
  | awaitingTasks (awaited : List Nat)
  | awaitingQueue (tail : Option Nat)
  | returned
  deriving DecidableEq, Repr

structure State (Frame Err : Type) where
  accepting : Bool
  /-- The accepted dispatches, in their order. -/
  tasks : List (Task Frame Err)
  /-- `writeQueue` and what `stdin` was given. -/
  writer : SerialWriter.Writer Nat UInt8
  destroyed : Bool
  writableEnded : Bool
  closing : Closing

inductive Event (Frame Err : Type) where
  | dispatch (failureResponse : Err → Option Frame)
  | resolves (i : Nat) (frame : Frame)
  | rejects (i : Nat) (error : Err)
  /-- The reaction of task `i` to its request. -/
  | reacts (i : Nat)
  /-- The loop of `writeChunked` goes on; `backpressure` is what `write` reports. -/
  | continues (backpressure : Bool)
  /-- `drain`, `close`, `error` or the callback of the write. -/
  | unblocks
  | destroys
  /-- Someone else ends the stream. -/
  | ends
  | closes
  /-- `closeBroker` resolves or rejects. -/
  | brokerCloses
  | tasksSettle
  | queueSettles

variable {Frame Err : Type}

namespace State

def initial : State Frame Err where
  accepting := true
  tasks := []
  writer := ⟨[], []⟩
  destroyed := false
  writableEnded := false
  closing := .notCalled

def canWrite (s : State Frame Err) : Bool := !s.destroyed && !s.writableEnded

def updateTask (i : Nat) (f : Task Frame Err → Task Frame Err) (s : State Frame Err) :
    State Frame Err :=
  { s with tasks := s.tasks.modify i f }

def settle (i : Nat) (s : State Frame Err) : State Frame Err :=
  s.updateTask i fun task => { task with stage := .settled }

def dispatch (failureResponse : Err → Option Frame) (s : State Frame Err) : State Frame Err :=
  if !s.accepting then s
  else { s with tasks := s.tasks ++ [⟨failureResponse, .pending, .requested⟩] }

/-- A promise settles once. -/
def settleRequest (i : Nat) (outcome : Request Frame Err) (s : State Frame Err) :
    State Frame Err :=
  s.updateTask i fun task =>
    match task.request with
    | .pending => { task with request := outcome }
    | _ => task

def enqueueWrite (utf8 : Frame → List UInt8) (i : Nat) (frame : Frame) (s : State Frame Err) :
    State Frame Err :=
  { s.updateTask i fun task => { task with stage := .writing } with
    writer := s.writer.enqueue i (utf8 frame) }

/-- `writeChunked` never rejects, so that only a rejected request reaches the `catch`. -/
def react (utf8 : Frame → List UInt8) (i : Nat) (task : Task Frame Err) (s : State Frame Err) :
    State Frame Err :=
  match task.request with
  | .pending => s
  | .resolved frame => s.enqueueWrite utf8 i frame
  | .rejected error =>
    if !s.accepting then s.settle i
    else
      match task.failureResponse error with
      | some frame => s.enqueueWrite utf8 i frame
      | none => s.settle i

def reacts (utf8 : Frame → List UInt8) (i : Nat) (s : State Frame Err) : State Frame Err :=
  match s.tasks[i]? with
  | none => s
  | some task => if task.stage = .requested then s.react utf8 i task else s

/-- One round of the loop. When the loop is over, the task of the frame settles. -/
def writeChunked (backpressure : Bool) (s : State Frame Err) : State Frame Err :=
  match s.writer.queue with
  | [] => s
  | job :: _ =>
    if job.waiting then s
    else if job.offset < job.bytes.length && s.canWrite then
      { s with writer := s.writer.write maxWriteChunkBytes backpressure }
    else { s.settle job.key with writer := s.writer.finish }

/-- `[...this.tasks]`. -/
def unsettled (s : State Frame Err) : List Nat :=
  (List.range s.tasks.length).filter fun i => s.tasks[i]?.any (·.stage ≠ .settled)

def closes (s : State Frame Err) : State Frame Err :=
  match s.closing with
  | .notCalled => { s with accepting := false, closing := .closingBroker }
  | _ => s

def brokerCloses (s : State Frame Err) : State Frame Err :=
  match s.closing with
  | .closingBroker => { s with closing := .awaitingTasks s.unsettled }
  | _ => s

def tasksSettle (s : State Frame Err) : State Frame Err :=
  match s.closing with
  | .awaitingTasks awaited =>
    if awaited.all (· ∉ s.unsettled) then
      { s with closing := .awaitingQueue s.writer.keys.getLast? }
    else s
  | _ => s

def queueSettles (s : State Frame Err) : State Frame Err :=
  match s.closing with
  | .awaitingQueue tail =>
    if tail.all (· ∉ s.writer.keys) then
      { s with closing := .returned, writableEnded := s.writableEnded || s.canWrite }
    else s
  | _ => s

end State

def step (utf8 : Frame → List UInt8) (s : State Frame Err) : Event Frame Err → State Frame Err
  | .dispatch failureResponse => s.dispatch failureResponse
  | .resolves i frame => s.settleRequest i (.resolved frame)
  | .rejects i error => s.settleRequest i (.rejected error)
  | .reacts i => s.reacts utf8 i
  | .continues backpressure => s.writeChunked backpressure
  | .unblocks => { s with writer := s.writer.release }
  | .destroys => { s with destroyed := true }
  | .ends => { s with writableEnded := true }
  | .closes => s.closes
  | .brokerCloses => s.brokerCloses
  | .tasksSettle => s.tasksSettle
  | .queueSettles => s.queueSettles

/-! ## What the stream holds -/

/-- The frame a task has to give: its response, or the frame that reports its failure. -/
def Task.Gives (task : Task Frame Err) (frame : Frame) : Prop :=
  task.request = .resolved frame ∨
    ∃ error, task.request = .rejected error ∧ task.failureResponse error = some frame

namespace State

def FrameOf (utf8 : Frame → List UInt8) (s : State Frame Err) (i : Nat) (bytes : List UInt8) :
    Prop :=
  ∃ task frame, s.tasks[i]? = some task ∧ task.Gives frame ∧ bytes = utf8 frame

/-- The stream holds the frames of `whole` and then `part`, the beginning of the frame `begun`: of
the one that is being written or, when the stream is gone, of the one that it cut. -/
structure Written (utf8 : Frame → List UInt8) (s : State Frame Err)
    (whole : List (Nat × List UInt8)) (begun : Option (Nat × List UInt8)) (part : List UInt8) :
    Prop where
  stream : s.writer.written.flatten = whole.flatMap (·.2) ++ part
  part_none : begun = none → part = []
  part_some : ∀ i bytes, begun = some (i, bytes) → part <+: bytes ∧
    (s.canWrite → s.writer.keys.head? = some i)
  frames : ∀ p ∈ whole ++ begun.toList, s.FrameOf utf8 p.1 p.2
  once : ((whole ++ begun.toList).map (·.1)).Nodup
  chunks : ∀ chunk ∈ s.writer.written, chunk.length ≤ maxWriteChunkBytes

/-- Every response that came is among the frames. -/
def Answered (utf8 : Frame → List UInt8) (s : State Frame Err)
    (whole : List (Nat × List UInt8)) : Prop :=
  ∀ i task frame, s.tasks[i]? = some task → task.request = .resolved frame →
    (i, utf8 frame) ∈ whole

end State

/-- The step at which `close` ends the stream. -/
def EndsStream (utf8 : Frame → List UInt8) (s : State Frame Err) (e : Event Frame Err) : Prop :=
  e = .queueSettles ∧ s.writableEnded = false ∧ (step utf8 s e).writableEnded = true

end Persai.ScriptBrowser
