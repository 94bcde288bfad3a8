import Persai.JobHandle.Tables

/-!
# Which background jobs are open

The cap on the background jobs of a chat counts them in one query; the handles ask about each job
on its own, or about many at a time.

* `mem_selectCurrentlyOpen_iff`: what the handles select is what they read as pending;
* `viewsAgree_iff`: the rows on which the cap agrees with them.
-/

namespace Persai.JobHandle

/-- `MAX_ACTIVE_BACKGROUND_JOBS_PER_CHAT`. -/
def maxActiveBackgroundJobsPerChat : Nat := 8

structure RuntimeSession where
  assistantId : Id
  workspaceId : Id
  channel : Channel
  externalThreadKey : String
  closedAt : Option Time := none
  deriving DecidableEq, Repr

/-- The tables with what else the cap reads: the chat of a job, and the sessions. -/
structure JobTables where
  tables : Tables := {}
  mediaChatId : Id → Id
  documentChatId : Id → Id
  sessions : KeyedTable Id RuntimeSession := ∅

/-- A job, under its kind. -/
abbrev JobKey := JobKind × Id

/-- The completion message of the job carries an attachment. -/
def MediaJob.attachmentVisible (t : Tables) (job : MediaJob) : Prop :=
  ∃ message ∈ job.completionAssistantMessageId, message ∈ t.attachments

instance (t : Tables) (job : MediaJob) : Decidable (job.attachmentVisible t) :=
  inferInstanceAs
    (Decidable (∃ message ∈ job.completionAssistantMessageId, message ∈ t.attachments))

def MediaJob.active (t : Tables) (job : MediaJob) : Prop :=
  job.status ∈ [.queued, .running] ∨
  (job.status = .completionPending ∧ job.deliveredAt = none ∧
    (job.completionAssistantMessageId = none ∨ ¬ job.attachmentVisible t))

instance (t : Tables) (job : MediaJob) : Decidable (job.active t) :=
  inferInstanceAs (Decidable (_ ∨ _ ∧ _ ∧ _))

/-- The statuses under which a document job is neither delivered nor given up. -/
def DocumentJob.active (job : DocumentJob) : Prop :=
  job.status ∈ [.queued, .running, .providerProcessing, .fetchingOutput, .readyForDelivery]

instance (job : DocumentJob) : Decidable job.active := inferInstanceAs (Decidable (_ ∈ _))

def SandboxJob.active (job : SandboxJob) : Prop := job.status ∈ [.queued, .running, .detached]

instance (job : SandboxJob) : Decidable job.active := inferInstanceAs (Decidable (_ ∈ _))

namespace JobTables

variable (j : JobTables)

/-- A handle of the chat is about the sandbox job, or its session is open and that of the chat. -/
def sandboxInChat (chatId id : Id) (job : SandboxJob) : Prop :=
  (∃ r ∈ j.tables.handles.rows,
    r.2.kind = .sandbox ∧ r.2.canonicalJobId = id ∧ r.2.chatId = chatId) ∨
  ∃ sessionId ∈ job.runtimeSessionId, ∃ session ∈ j.sessions.get? sessionId,
    ∃ chat ∈ j.tables.chats.get? chatId,
      chat.assistantId = session.assistantId ∧ chat.workspaceId = session.workspaceId ∧
      chat.surface = session.channel ∧ chat.surfaceThreadKey = session.externalThreadKey ∧
      session.closedAt = none

instance (chatId id : Id) (job : SandboxJob) : Decidable (j.sandboxInChat chatId id job) :=
  inferInstanceAs (Decidable (_ ∨ _))

/-- The jobs that the query of `assertActiveBackgroundJobCap` counts. -/
def activeJobs (chatId : Id) (excludeSandboxJobId : Option Id) : List JobKey :=
  (j.tables.mediaJobs.select fun id job =>
    j.mediaChatId id = chatId ∧ job.active j.tables).map (fun r => (.media, r.1)) ++
  (j.tables.documentJobs.select fun id job =>
    j.documentChatId id = chatId ∧ job.active).map (fun r => (.document, r.1)) ++
  (j.tables.sandboxJobs.select fun id job =>
    job.active ∧ job.toolCode.isSome ∧ excludeSandboxJobId ≠ some id ∧
    j.sandboxInChat chatId id job).map (fun r => (.sandbox, r.1))

/-- `background_job_concurrency_limit`. -/
structure ConcurrencyLimit where
  message : String
  activeJobs : Nat
  maxActiveJobs : Nat
  deriving DecidableEq, Repr

def assertActiveBackgroundJobCap (chatId : Id) (excludeSandboxJobId : Option Id) :
    Except ConcurrencyLimit Unit :=
  let count := (j.activeJobs chatId excludeSandboxJobId).length
  if maxActiveBackgroundJobsPerChat ≤ count then
    .error
      { message := "This chat already has " ++ toString count ++
          " active background jobs. The maximum is " ++
          toString maxActiveBackgroundJobsPerChat ++ "."
        activeJobs := count
        maxActiveJobs := maxActiveBackgroundJobsPerChat }
  else .ok ()

/-- The job is one of the chat. -/
def InChat (chatId : Id) : JobKey → Prop
  | (.media, id) => (j.tables.mediaJobs.get? id).isSome ∧ j.mediaChatId id = chatId
  | (.document, id) => (j.tables.documentJobs.get? id).isSome ∧ j.documentChatId id = chatId
  | (.sandbox, id) => ∃ job ∈ j.tables.sandboxJobs.get? id, j.sandboxInChat chatId id job

end JobTables

namespace Tables

variable (t : Tables)

/-- `selectCurrentlyOpenCanonicalKeys`. -/
def selectCurrentlyOpenCanonicalKeys (rows : List JobKey) : List JobKey :=
  (t.sandboxJobs.select fun id job => (.sandbox, id) ∈ rows ∧ job.active).map
    (fun r => (.sandbox, r.1)) ++
  (t.mediaJobs.select fun id job =>
    (.media, id) ∈ rows ∧ job.status ∈ [.queued, .running, .completionPending] ∧
    job.deliveredAt = none ∧ ¬ job.attachmentVisible t).map (fun r => (.media, r.1)) ++
  (t.documentJobs.select fun id job =>
    (.document, id) ∈ rows ∧ job.active ∧ job.deliveredAt = none).map
    (fun r => (.document, r.1))

end Tables

/-! ## What the handles read -/

section

variable {t : Tables} {id : Id}

theorem mem_keys {α : Type} {table : KeyedTable Id α} {p : Id → α → Bool} {kind kind' : JobKind} :
    (kind', id) ∈ (table.select p).map (fun r => (kind, r.1)) ↔
      kind' = kind ∧ ∃ row ∈ table.get? id, p id row = true := by
  rw [List.mem_map]
  constructor
  · rintro ⟨⟨id', row⟩, selected, same⟩
    obtain ⟨rfl, rfl⟩ := Prod.mk.inj same
    obtain ⟨found, holds⟩ := KeyedTable.mem_select_iff.mp selected
    exact ⟨rfl, row, found, holds⟩
  · rintro ⟨rfl, row, found, holds⟩
    exact ⟨(id, row), KeyedTable.mem_select_iff.mpr ⟨found, holds⟩, rfl⟩

theorem readMedia_pending_iff (job : MediaJob) : t.readMedia job = .pending ↔
    job.status ∈ [.queued, .running, .completionPending] ∧ job.deliveredAt = none ∧
    ¬ job.attachmentVisible t := by
  have visible : (job.completionAssistantMessageId.any (t.attachments.contains ·)) = true ↔
      job.attachmentVisible t := by
    unfold MediaJob.attachmentVisible
    cases job.completionAssistantMessageId <;> simp
  have read : (if job.deliveredAt.isSome ||
      job.completionAssistantMessageId.any (t.attachments.contains ·) then jobDelivered
      else Canonical.pending) = .pending ↔ job.deliveredAt = none ∧ ¬ job.attachmentVisible t := by
    rw [← visible]
    split_ifs with ended
    · rw [Bool.or_eq_true, Option.isSome_iff_ne_none] at ended
      exact iff_of_false nofun fun ⟨undelivered, hidden⟩ => ended.elim (· undelivered) hidden
    · rw [Bool.or_eq_true, not_or, Option.isSome_iff_ne_none, not_not] at ended
      exact iff_of_true rfl ended
  unfold Tables.readMedia
  cases job.status <;> simp [jobFailed, jobCancelled, jobDelivered] at read ⊢
  all_goals exact read

theorem readDocument_pending_iff (job : DocumentJob) :
    readDocument job = .pending ↔ job.active ∧ job.deliveredAt = none := by
  unfold readDocument DocumentJob.active
  cases job.status <;> cases job.deliveredAt <;> simp [jobFailed, jobCancelled, jobDelivered]

theorem readSandbox_pending_iff (job : SandboxJob) (tool : SandboxTool) :
    readSandbox job tool = .pending ↔ job.active := by
  unfold readSandbox SandboxJob.active
  cases job.status <;> simp

end

namespace JobTables

section

variable {j : JobTables} {chatId : Id} {exclude : Option Id} {id : Id}

theorem media_counted {job : MediaJob} (row : j.tables.mediaJobs.get? id = some job)
    (here : j.mediaChatId id = chatId) :
    (.media, id) ∈ j.activeJobs chatId exclude ↔ job.active j.tables := by
  unfold activeJobs
  rw [List.mem_append, List.mem_append, mem_keys, mem_keys, mem_keys]
  simp [row, here]

theorem document_counted {job : DocumentJob} (row : j.tables.documentJobs.get? id = some job)
    (here : j.documentChatId id = chatId) :
    (.document, id) ∈ j.activeJobs chatId exclude ↔ job.active := by
  unfold activeJobs
  rw [List.mem_append, List.mem_append, mem_keys, mem_keys, mem_keys]
  simp [row, here]

theorem sandbox_counted {job : SandboxJob} (row : j.tables.sandboxJobs.get? id = some job)
    (here : j.sandboxInChat chatId id job) (counted : exclude ≠ some id) :
    (.sandbox, id) ∈ j.activeJobs chatId exclude ↔ job.active ∧ job.toolCode.isSome := by
  unfold activeJobs
  rw [List.mem_append, List.mem_append, mem_keys, mem_keys, mem_keys]
  simp [row, here, counted]

theorem mem_selectCurrentlyOpen_iff {t : Tables} {rows : List JobKey} {kind : JobKind}
    (asked : (kind, id) ∈ rows) :
    (kind, id) ∈ t.selectCurrentlyOpenCanonicalKeys rows ↔
      match kind with
      | .media => ∃ job ∈ t.mediaJobs.get? id, t.readMedia job = .pending
      | .document => ∃ job ∈ t.documentJobs.get? id, readDocument job = .pending
      | .sandbox => ∃ job ∈ t.sandboxJobs.get? id, job.active := by
  unfold Tables.selectCurrentlyOpenCanonicalKeys
  rw [List.mem_append, List.mem_append, mem_keys, mem_keys, mem_keys]
  cases kind <;> simp [asked, readMedia_pending_iff, readDocument_pending_iff]

end

variable (j : JobTables)

/-- The cap counts the job just when the handles select it as open, and when they read it as
pending. -/
def ViewsAgree (chatId : Id) (exclude : Option Id) (key : JobKey) (session : Option Id) : Prop :=
  (∀ rows, key ∈ rows → (key ∈ j.activeJobs chatId exclude ↔
    key ∈ j.tables.selectCurrentlyOpenCanonicalKeys rows)) ∧
  (key ∈ j.activeJobs chatId exclude ↔
    j.tables.readCanonical key.1 key.2 session = some .pending)

/-- A job that is queued or running has not been delivered, and an open sandbox job is the shell or
exec job of the session that the handle names. -/
def NotAhead (session : Option Id) : JobKey → Prop
  | (.media, id) => ∀ job ∈ j.tables.mediaJobs.get? id, job.status ∈ [.queued, .running] →
      job.deliveredAt = none ∧ ¬ job.attachmentVisible j.tables
  | (.document, id) => ∀ job ∈ j.tables.documentJobs.get? id, job.active → job.deliveredAt = none
  | (.sandbox, id) => ∀ job ∈ j.tables.sandboxJobs.get? id, job.active →
      job.toolCode.isSome ∧ job.runtimeSessionId.isSome ∧ job.runtimeSessionId = session

variable {j}

theorem active_iff_pending {t : Tables} (job : MediaJob) :
    (job.active t ↔ t.readMedia job = .pending) ↔
      (job.status ∈ [.queued, .running] → job.deliveredAt = none ∧ ¬ job.attachmentVisible t) := by
  have hidden : job.completionAssistantMessageId = none → ¬ job.attachmentVisible t := by
    rintro none ⟨message, some, -⟩
    rw [none] at some
    cases some
  rw [readMedia_pending_iff]
  unfold MediaJob.active
  cases job.status <;> simp
  all_goals tauto

/-- The two views of a job of the chat agree except on those that have been delivered while queued
or running, and on sandbox jobs that are not the handle's. -/
theorem viewsAgree_iff {chatId : Id} {exclude : Option Id} {key : JobKey} (session : Option Id)
    (here : j.InChat chatId key) (counted : key.1 = .sandbox → exclude ≠ some key.2) :
    j.ViewsAgree chatId exclude key session ↔ j.NotAhead session key := by
  obtain ⟨kind, id⟩ := key
  cases kind with
  | media =>
    obtain ⟨exists_, here⟩ := here
    obtain ⟨job, row⟩ := Option.isSome_iff_exists.mp exists_
    have selected (rows : List JobKey) (asked : (.media, id) ∈ rows) :
        (.media, id) ∈ j.tables.selectCurrentlyOpenCanonicalKeys rows ↔
          j.tables.readMedia job = .pending := by
      rw [mem_selectCurrentlyOpen_iff asked]
      simp [row]
    have same := active_iff_pending (t := j.tables) job
    simp only [ViewsAgree, NotAhead, media_counted row here, Tables.readCanonical, row,
      Option.map_some, Option.some.injEq, Option.mem_some, forall_eq']
    rw [← same]
    refine ⟨fun agree => agree.2, fun agree => ⟨fun rows asked => ?_, agree⟩⟩
    rw [selected rows asked]
    exact agree
  | document =>
    obtain ⟨exists_, here⟩ := here
    obtain ⟨job, row⟩ := Option.isSome_iff_exists.mp exists_
    have selected (rows : List JobKey) (asked : (.document, id) ∈ rows) :
        (.document, id) ∈ j.tables.selectCurrentlyOpenCanonicalKeys rows ↔
          readDocument job = .pending := by
      rw [mem_selectCurrentlyOpen_iff asked]
      simp [row]
    have same : (job.active ↔ readDocument job = .pending) ↔
        (job.active → job.deliveredAt = none) := by
      rw [readDocument_pending_iff]
      tauto
    simp only [ViewsAgree, NotAhead, document_counted row here, Tables.readCanonical, row,
      Option.map_some, Option.some.injEq, Option.mem_some, forall_eq']
    rw [← same]
    refine ⟨fun agree => agree.2, fun agree => ⟨fun rows asked => ?_, agree⟩⟩
    rw [selected rows asked]
    exact agree
  | sandbox =>
    obtain ⟨job, row, here⟩ := here
    have row : j.tables.sandboxJobs.get? id = some job := row
    have selected (rows : List JobKey) (asked : (.sandbox, id) ∈ rows) :
        (.sandbox, id) ∈ j.tables.selectCurrentlyOpenCanonicalKeys rows ↔ job.active := by
      rw [mem_selectCurrentlyOpen_iff asked]
      simp [row]
    have read : j.tables.readCanonical .sandbox id session = some .pending ↔
        job.active ∧ job.toolCode.isSome ∧ job.runtimeSessionId.isSome ∧
          job.runtimeSessionId = session := by
      unfold Tables.readCanonical
      cases tool : job.toolCode with
      | none => simp [row, tool]
      | some tool' =>
        simp only [row, tool, Option.bind_eq_bind, Option.bind_some]
        split_ifs with foreign
        · rw [← Option.not_isSome_iff_eq_none] at foreign
          simp only [false_iff]
          tauto
        · rw [not_or, not_not] at foreign
          have own : job.runtimeSessionId.isSome := Option.isSome_iff_ne_none.mpr foreign.1
          rw [Option.some.injEq, readSandbox_pending_iff]
          exact ⟨fun active => ⟨active, rfl, own, foreign.2⟩, And.left⟩
    simp only [ViewsAgree, NotAhead, sandbox_counted row here (counted rfl), read, row,
      Option.mem_some, forall_eq']
    refine ⟨fun ⟨open_, agree⟩ active => ?_, fun own => ⟨fun rows asked => ?_, ?_⟩⟩
    · have counts :=
          (open_ [(.sandbox, id)] List.mem_cons_self).trans (selected _ List.mem_cons_self)
      exact (agree.mp (counts.mpr active)).2
    · rw [selected rows asked]
      exact ⟨And.left, fun active => ⟨active, (own active).1⟩⟩
    · exact ⟨fun ⟨active, _⟩ => ⟨active, own active⟩, fun ⟨active, tool, _⟩ => ⟨active, tool⟩⟩

namespace Sample

/-- One media job of chat 7, as its row stands. -/
def oneMediaJob (job : MediaJob) : JobTables where
  tables := { mediaJobs := (∅ : KeyedTable Id MediaJob).put 5 job }
  mediaChatId _ := 7
  documentChatId _ := 7

theorem running_agrees :
    (oneMediaJob { status := .running }).ViewsAgree 7 none (.media, 5) none := by
  have here : (oneMediaJob { status := .running }).InChat 7 (.media, 5) := ⟨by decide, rfl⟩
  refine (viewsAgree_iff none here nofun).mpr ?_
  rintro job row -
  obtain rfl := Option.some.inj row
  exact ⟨rfl, by decide⟩

/-- A job that is running again after its delivery takes a slot of the cap, though no handle reads
it as open. -/
theorem delivered_counted :
    (JobKind.media, 5) ∈ (oneMediaJob { status := .running, deliveredAt := some 70 }).activeJobs
      7 none ∧
    ¬ (oneMediaJob { status := .running, deliveredAt := some 70 }).ViewsAgree 7 none (.media, 5)
      none := by
  refine ⟨by decide, fun agree => ?_⟩
  have counts := agree.2.mp (by decide)
  revert counts
  decide

end Sample

end JobTables

end Persai.JobHandle
