import Persai.Notifications.Worker
import Persai.Runs

/-!
# One notification per channel

For each intent the adapter of the primary channel is called at most once and that of the escalation
channel at most once: in every run in which a batch claims only rows that no one has claimed since
it found them, and in which `deliverIntentNow` takes no claim for its own that is another's.
-/

namespace Persai.Notifications

open Runs

def System.sentFor (s : System) (intentId : String) : List Sent :=
  s.sent.filter fun call => call.intentId == intentId

/-- At most one call with the primary channel, at most one with the escalation channel, and no two
with one channel. -/
structure OncePerChannel (calls : List Sent) : Prop where
  primary : (calls.filter fun call => !call.escalation).length ≤ 1
  escalation : (calls.filter (·.escalation)).length ≤ 1
  channels : (calls.map (·.channel)).Nodup

def SentOncePerChannel (s : System) : Prop := ∀ intentId, OncePerChannel (s.sentFor intentId)

/-- What a batch found is still to be claimed when it claims it; a call of `deliverIntentNow` whose
update has matched nothing does not read a claimed row. -/
def System.Alone (s : System) (process : Process) (act : Act) : Prop :=
  match act, process with
  | .updateMany, .found rows _ => ∀ row ∈ rows, s.claimable row.1
  | .findUnique, .claimed intentId false =>
    ∀ row ∈ s.intents.get? intentId, row.lifecycleStatus ≠ .claimed
  | _, _ => True

def ClaimsAlone (s : System) (e : Event) : Prop := s.Alone (s.processes e.process) e.act

instance (s : System) (e : Event) : Decidable (ClaimsAlone s e) := by
  dsimp only [ClaimsAlone, System.Alone]; split <;> infer_instance

/-! ## The invariant -/

/-- The intents that a process will deliver or is delivering. -/
def Process.held : Process → List String
  | .claimed intentId true => [intentId]
  | .working rows _ _ => rows.map Prod.fst
  | _ => []

/-- The calls that there may be for the intent that is delivered. -/
def Stage.Allows (calls : List Sent) : Stage → Prop
  | .begun | .attempting _ _ => calls = []
  | .delivering channel _ => ∃ intentId, calls = [⟨intentId, channel, false⟩]
  | .escalating channel _ | .attemptingEscalation channel _ =>
    ∀ call ∈ calls, call.escalation = false ∧ call.channel ≠ channel
  | _ => True

structure Process.Sound (process : Process) (sentFor : String → List Sent) : Prop where
  distinct : process.held.Nodup
  found : ∀ rows now, process = .found rows now → (rows.map Prod.fst).Nodup
  claimed : ∀ intentId, process = .claimed intentId true → sentFor intentId = []
  waiting : ∀ row rows stage answers, process = .working (row :: rows) stage answers →
    ∀ id ∈ rows.map Prod.fst, sentFor id = []
  current : ∀ row rows stage answers, process = .working (row :: rows) stage answers →
    stage.Allows (sentFor row.1)

/-- No intent is held by two processes, and none that can still be claimed is held or sent. -/
structure Sound (s : System) : Prop where
  processes : ∀ p, (s.processes p).Sound s.sentFor
  held : ∀ p, ∀ id ∈ (s.processes p).held, ¬ s.claimable id
  apart : ∀ p q, ∀ id ∈ (s.processes p).held, id ∈ (s.processes q).held → p = q
  unsent : ∀ id, s.claimable id → s.sentFor id = []
  once : SentOncePerChannel s

/-- A process that holds nothing and has found nothing. -/
inductive Process.Rests : Process → Prop
  | idle : Rests .idle
  | stopped : Rests .stopped
  | returned (result : ImmediateNotificationDeliveryResult) : Rests (.returned result)
  | worked (stage : Stage) (answers : Option String) : Rests (.working [] stage answers)

theorem Process.Rests.holds_nothing {process : Process} (rests : process.Rests) (id : String) :
    id ∉ process.held := by
  cases rests <;> exact List.not_mem_nil

theorem Process.Rests.sound {process : Process} (rests : process.Rests)
    (sentFor : String → List Sent) : process.Sound sentFor where
  distinct := by cases rests <;> exact .nil
  found rows now same := by subst same; cases rests
  claimed intentId same := by subst same; cases rests
  waiting row rows stage answers same := by subst same; cases rests
  current row rows stage answers same := by subst same; cases rests

/-- A process knows of the calls for the intents that it holds. -/
theorem Process.Sound.congr {process : Process} {before after : String → List Sent}
    (sound : process.Sound before) (same : ∀ id ∈ process.held, after id = before id) :
    process.Sound after where
  distinct := sound.distinct
  found := sound.found
  claimed intentId is_claimed := by
    rw [same intentId (by rw [is_claimed]; exact List.mem_singleton_self _)]
    exact sound.claimed intentId is_claimed
  waiting row rows stage answers works id mem := by
    rw [same id (by rw [works]; exact List.mem_cons_of_mem _ mem)]
    exact sound.waiting row rows stage answers works id mem
  current row rows stage answers works := by
    rw [same row.1 (by rw [works]; exact List.mem_cons_self)]
    exact sound.current row rows stage answers works

theorem sound_start (intents : KeyedTable String Intent) : Sound (System.start intents) where
  processes _ := Process.Rests.idle.sound _
  held _ _ mem := by cases mem
  apart _ _ _ mem := by cases mem
  unsent _ _ := rfl
  once _ := ⟨Nat.zero_le _, Nat.zero_le _, .nil⟩

section
variable {s s' : System}

/-- A process does a statement: what it takes was to be claimed, and only the calls for what it held
are others. -/
theorem Sound.move (sound : Sound s) {p : Nat} {next : Process}
    (processes : s'.processes = Function.update s.processes p next)
    (claimable : ∀ id, s'.claimable id → s.claimable id)
    (elsewhere : ∀ id, id ∉ (s.processes p).held → s'.sentFor id = s.sentFor id)
    (takes : ∀ id ∈ next.held,
      id ∈ (s.processes p).held ∨ s.claimable id ∧ ¬ s'.claimable id)
    (moved : next.Sound s'.sentFor) (once : SentOncePerChannel s') : Sound s' := by
  have others (q : Nat) (ne : q ≠ p) : s'.processes q = s.processes q := by
    rw [processes, Function.update_of_ne ne]
  have self : s'.processes p = next := by rw [processes, Function.update_self]
  have unheld (q : Nat) (ne : q ≠ p) (id : String) (mem : id ∈ (s.processes q).held) :
      id ∉ (s.processes p).held := fun mine => ne (sound.apart q p id mem mine)
  have free (q : Nat) (ne : q ≠ p) (id : String) (mem : id ∈ (s.processes q).held) :
      id ∉ next.held := by
    intro taken
    rcases takes id taken with mine | ⟨was_claimable, -⟩
    · exact unheld q ne id mem mine
    · exact sound.held q id mem was_claimable
  refine ⟨?_, ?_, ?_, ?_, once⟩
  · intro q
    by_cases ne : q = p
    · rw [ne, self]
      exact moved
    · rw [others q ne]
      exact (sound.processes q).congr fun id mem => elsewhere id (unheld q ne id mem)
  · intro q id mem now_claimable
    have was_claimable := claimable id now_claimable
    by_cases ne : q = p
    · rw [ne, self] at mem
      rcases takes id mem with mine | ⟨-, not_claimable⟩
      · exact sound.held p id mine was_claimable
      · exact not_claimable now_claimable
    · rw [others q ne] at mem
      exact sound.held q id mem was_claimable
  · intro q r id mem mem'
    by_cases ne : q = p <;> by_cases ne' : r = p
    · rw [ne, ne']
    · rw [ne, self] at mem
      rw [others r ne'] at mem'
      exact absurd mem (free r ne' id mem')
    · rw [others q ne] at mem
      rw [ne', self] at mem'
      exact absurd mem' (free q ne id mem)
    · rw [others q ne] at mem
      rw [others r ne'] at mem'
      exact sound.apart q r id mem mem'
  · intro id now_claimable
    have was_claimable := claimable id now_claimable
    rw [elsewhere id fun mine => sound.held p id mine was_claimable]
    exact sound.unsent id was_claimable

end

/-! ## What a statement does -/

/-- An update that leaves no row to be claimed takes those that it matches. -/
theorem claimable_updateWhere {intents : KeyedTable String Intent} {p : String → Intent → Bool}
    {f : Intent → Intent} (stops : ∀ intent, (f intent).claimable = false) (id : String) :
    ((intents.updateWhere p f).get? id).any (·.claimable) ↔
      ∃ row, intents.get? id = some row ∧ row.claimable ∧ ¬ p id row := by
  rw [KeyedTable.get?_updateWhere]
  cases found : intents.get? id with
  | none => simp
  | some row =>
    by_cases matched : p id row
    · simp [matched, stops]
    · simp [matched]

theorem claimable_of_updateWhere {intents : KeyedTable String Intent}
    {p : String → Intent → Bool} {f : Intent → Intent}
    (stops : ∀ intent, (f intent).claimable = false)
    {id : String} (now : ((intents.updateWhere p f).get? id).any (·.claimable)) :
    (intents.get? id).any (·.claimable) := by
  obtain ⟨row, found, claimable, -⟩ := (claimable_updateWhere stops id).mp now
  rw [found]
  exact claimable

theorem claim_stops (now : Int) (intent : Intent) : (intent.claim now).claimable = false := rfl

/-- A statement goes on with what the process holds, takes what can be claimed, or calls `deliver`
for the first intent that it holds. -/
inductive Does (s : System) (process : Process) : System → Process → Prop
  | goesOn {s' : System} {next : Process} (sent : s'.sent = s.sent)
      (claimable : ∀ id, s'.claimable id → s.claimable id)
      (held : ∀ id ∈ next.held, id ∈ process.held)
      (keeps : process.Sound s.sentFor → next.Sound s.sentFor) : Does s process s' next
  | takes {s' : System} {next : Process} (sent : s'.sent = s.sent)
      (claimable : ∀ id, s'.claimable id → s.claimable id)
      (taken : ∀ id ∈ next.held, s.claimable id ∧ ¬ s'.claimable id)
      (begins : process.Sound s.sentFor → (∀ id ∈ next.held, s.sentFor id = []) →
        next.Sound s.sentFor) : Does s process s' next
  | sends {row : String × Intent} {rows : List (String × Intent)} {stage stage' : Stage}
      {answers : Option String} {call : Sent}
      (works : process = .working (row :: rows) stage answers)
      (called : call.intentId = row.1)
      (allows : ∀ calls, OncePerChannel calls → stage.Allows calls →
        OncePerChannel (call :: calls) ∧ stage'.Allows (call :: calls)) :
      Does s process { s with sent := call :: s.sent } (.working (row :: rows) stage' answers)

section
variable {s : System}

variable {row : String × Intent} {rows : List (String × Intent)} {stage : Stage}
  {answers : Option String} {sentFor : String → List Sent}

theorem Process.Sound.atStage (sound : (Process.working (row :: rows) stage answers).Sound sentFor)
    {next : Stage} {after : String → List Sent} (same : ∀ id, id ≠ row.1 → after id = sentFor id)
    (allows : next.Allows (after row.1)) :
    (Process.working (row :: rows) next answers).Sound after where
  distinct := sound.distinct
  found rows now is_found := by cases is_found
  claimed intentId is_claimed := by cases is_claimed
  waiting row' rows' stage' answers' works id mem := by
    cases works
    have apart : row.1 ∉ rows.map Prod.fst := (List.nodup_cons.mp sound.distinct).1
    rw [same id fun is_first => apart (is_first ▸ mem)]
    exact sound.waiting row rows stage answers rfl id mem
  current row' rows' stage' answers' works := by
    cases works
    exact allows

theorem Process.Sound.pop (sound : (Process.working (row :: rows) stage answers).Sound sentFor) :
    (Process.working rows .begun answers).Sound sentFor where
  distinct := (List.nodup_cons.mp sound.distinct).2
  found rows now is_found := by cases is_found
  claimed intentId is_claimed := by cases is_claimed
  waiting row' rows' stage' answers' works id mem := by
    cases works
    exact sound.waiting row _ stage answers rfl id (List.mem_cons_of_mem _ mem)
  current row' rows' stage' answers' works := by
    cases works
    exact sound.waiting row _ stage answers rfl row'.1 List.mem_cons_self

theorem sentFor_call (call : Sent) (intentId : String) :
    System.sentFor { s with sent := call :: s.sent } intentId =
      if call.intentId = intentId then call :: s.sentFor intentId else s.sentFor intentId := by
  simp [System.sentFor, List.filter_cons]

theorem Sound.does (sound : Sound s) {p : Nat} {s' : System} {next : Process}
    (does : Does s (s.processes p) s' next) :
    Sound { s' with processes := Function.update s.processes p next } := by
  cases does with
  | goesOn sent claimable held keeps =>
    have same : System.sentFor { s' with processes := Function.update s.processes p next } =
        s.sentFor := by funext id; simp only [System.sentFor, sent]
    refine sound.move rfl claimable (fun id _ => congrFun same id)
      (fun id mem => .inl (held id mem)) ?_ ?_
    · rw [same]
      exact keeps (sound.processes p)
    · intro id
      rw [same]
      exact sound.once id
  | takes sent claimable taken begins =>
    have same : System.sentFor { s' with processes := Function.update s.processes p next } =
        s.sentFor := by funext id; simp only [System.sentFor, sent]
    refine sound.move rfl claimable (fun id _ => congrFun same id)
      (fun id mem => .inr (taken id mem)) ?_ ?_
    · rw [same]
      exact begins (sound.processes p) fun id mem => sound.unsent id (taken id mem).1
    · intro id
      rw [same]
      exact sound.once id
  | @sends row rows stage stage' answers call works called allows =>
    have mine := sound.processes p
    rw [works] at mine
    have allowed := allows _ (sound.once row.1) (mine.current row rows stage answers rfl)
    have other (id : String) (ne : id ≠ row.1) :
        System.sentFor { s with sent := call :: s.sent } id = s.sentFor id := by
      rw [sentFor_call, if_neg fun same => ne (same.symm.trans called)]
    have first : System.sentFor { s with sent := call :: s.sent } row.1 =
        call :: s.sentFor row.1 := by rw [sentFor_call, if_pos called]
    refine sound.move rfl (fun _ => id) ?_ ?_ ?_ ?_
    · intro id unheld
      refine other id fun is_first => unheld ?_
      rw [works, is_first]
      exact List.mem_cons_self
    · intro id mem
      rw [works]
      exact .inl mem
    · refine mine.atStage other ?_
      exact first ▸ allowed.2
    · intro id
      by_cases is_first : id = row.1
      · subst is_first
        exact first ▸ allowed.1
      · exact (other id is_first).symm ▸ sound.once id

end

theorem goesOn_rests {s : System} {process next : Process} (rests : next.Rests) :
    Does s process s next :=
  .goesOn rfl (fun _ => id) (fun id mem => absurd mem (rests.holds_nothing id))
    fun _ => rests.sound _

section
variable {s : System} {row : String × Intent} {rows : List (String × Intent)} {stage : Stage}
  {answers : Option String}

/-- The process stays with its first intent; no intent is changed. -/
theorem goesOn_atStage {s' : System} {next : Stage} (sent : s'.sent = s.sent)
    (intents : s'.intents = s.intents)
    (allows : ∀ calls, stage.Allows calls → next.Allows calls) :
    Does s (.working (row :: rows) stage answers) s' (.working (row :: rows) next answers) := by
  refine .goesOn sent (fun id now => ?_) (fun _ => id) fun sound => ?_
  · rwa [System.claimable, intents] at now
  · exact sound.atStage (fun _ _ => rfl) (allows _ (sound.current row rows stage answers rfl))

/-- The process is done with its first intent. -/
theorem goesOn_pop {s' : System} (sent : s'.sent = s.sent)
    (claimable : ∀ id, s'.claimable id → s.claimable id) :
    Does s (.working (row :: rows) stage answers) s' (.working rows .begun answers) :=
  .goesOn sent claimable (fun _ => List.mem_cons_of_mem _) fun sound => sound.pop

end

theorem System.findMany_distinct (s : System) (now : Int) :
    ((s.findMany now).map Prod.fst).Nodup := by
  have sorted := List.perm_insertionSort (fun a b : String × Intent =>
    a.2.priority.rank < b.2.priority.rank ∨
      a.2.priority = b.2.priority ∧ a.2.createdAt ≤ b.2.createdAt)
    (s.intents.select fun _ intent => intent.due now)
  have selected : ((s.intents.select fun _ intent => intent.due now).map Prod.fst).Nodup :=
    s.intents.unique.sublist (List.filter_sublist.map Prod.fst)
  exact ((sorted.map Prod.fst).nodup_iff.mpr selected).sublist ((List.take_sublist ..).map Prod.fst)

theorem Process.Sound.of_found {rows : List (String × Intent)} {now : Int}
    {sentFor : String → List Sent} (distinct : (rows.map Prod.fst).Nodup) :
    (Process.found rows now).Sound sentFor where
  distinct := .nil
  found rows' now' same := by
    cases same
    exact distinct
  claimed intentId same := by cases same
  waiting row rows stage answers same := by cases same
  current row rows stage answers same := by cases same

/-- The process begins with intents of which none is sent. -/
theorem Process.Sound.of_unsent {rows : List (String × Intent)} {answers : Option String}
    {sentFor : String → List Sent} (distinct : (rows.map Prod.fst).Nodup)
    (unsent : ∀ id ∈ rows.map Prod.fst, sentFor id = []) :
    (Process.working rows .begun answers).Sound sentFor where
  distinct := distinct
  found rows' now' same := by cases same
  claimed intentId same := by cases same
  waiting row rows' stage answers' same id mem := by
    cases same
    exact unsent id (List.mem_cons_of_mem _ mem)
  current row rows' stage answers' same := by
    cases same
    exact unsent row.1 List.mem_cons_self

theorem OncePerChannel.escalate {calls : List Sent} (once : OncePerChannel calls)
    {intentId channel : String}
    (primary_only : ∀ call ∈ calls, call.escalation = false ∧ call.channel ≠ channel) :
    OncePerChannel (⟨intentId, channel, true⟩ :: calls) where
  primary := once.primary
  escalation := by
    have none_escalated : calls.filter (·.escalation) = [] :=
      List.filter_eq_nil_iff.mpr fun call mem => by simp [(primary_only call mem).1]
    simp [none_escalated]
  channels := by
    refine List.nodup_cons.mpr ⟨fun mem => ?_, once.channels⟩
    obtain ⟨call, mem, same⟩ := List.mem_map.mp mem
    exact (primary_only call mem).2 same

theorem updateMany_does {s : System} {rows : List (String × Intent)} {now : Int}
    (alone : ∀ row ∈ rows, s.claimable row.1) :
    Does s (.found rows now) (s.claimAll (rows.map Prod.fst) now) (.working rows .begun none) := by
  refine .takes rfl (fun _ => claimable_of_updateWhere (claim_stops now)) ?_ ?_
  · intro id mem
    obtain ⟨row, mem', rfl⟩ := List.mem_map.mp mem
    refine ⟨alone row mem', fun still => ?_⟩
    obtain ⟨-, -, -, unmatched⟩ := (claimable_updateWhere (claim_stops now) _).mp still
    exact unmatched (List.contains_iff_mem.mpr mem)
  · exact fun sound unsent => .of_unsent (sound.found rows now rfl) unsent

theorem deliverIntentNow_does (s : System) (intentId : String) (now : Int) :
    Does s .idle (s.claimOne intentId now) (.claimed intentId (s.claimable intentId)) := by
  refine .takes rfl (fun _ => claimable_of_updateWhere (claim_stops now)) ?_ ?_
  · intro id mem
    cases matched : s.claimable intentId with
    | false => rw [matched] at mem; cases mem
    | true =>
      rw [matched] at mem
      obtain rfl := List.mem_singleton.mp mem
      refine ⟨matched, fun still => ?_⟩
      obtain ⟨row, -, claimable, unmatched⟩ :=
        (claimable_updateWhere (claim_stops now) _).mp still
      exact unmatched (by simp [claimable])
  · intro _ unsent
    exact
      { distinct := by cases s.claimable intentId <;> simp [Process.held]
        found := fun rows now same => by cases same
        claimed := fun id same => unsent id (by rw [same]; exact List.mem_singleton_self _)
        waiting := fun row rows stage answers same => by cases same
        current := fun row rows stage answers same => by cases same }

theorem statement_does {s : System} {process : Process} {act : Act}
    (alone : s.Alone process act) :
    Does s process (s.statement process act).1 (s.statement process act).2 := by
  unfold System.statement
  split
  next => exact goesOn_rests .stopped
  next now =>
    dsimp only
    split
    · exact goesOn_rests .idle
    · refine .goesOn rfl (fun _ => id) (fun id mem => by cases mem) fun _ => ?_
      exact Process.Sound.of_found (s.findMany_distinct now)
  next rows now => exact updateMany_does alone
  next intentId now => exact deliverIntentNow_does s intentId now
  next intentId matched =>
    split
    next => exact goesOn_rests (.returned _)
    next row found =>
      split
      next is_claimed =>
        cases matched with
        | false => exact absurd is_claimed (alone row found)
        | true =>
          refine .goesOn rfl (fun _ => id) (fun _ => id) fun sound => ?_
          exact Process.Sound.of_unsent (List.nodup_singleton _) fun id mem => by
            rw [List.mem_singleton.mp mem]
            exact sound.claimed intentId rfl
      next => exact goesOn_rests (.worked _ _)
  next stage answers =>
    dsimp only
    split
    · exact goesOn_rests .idle
    · exact goesOn_rests (.returned _)
  next env now id intent rows answers =>
    split
    · exact goesOn_atStage rfl rfl fun _ _ => trivial
    · exact goesOn_atStage rfl rfl fun calls none_sent => by
        rw [show calls = [] from none_sent]
        exact fun call mem => by cases mem
    · exact goesOn_atStage rfl rfl fun _ allows => allows
  next env now id intent rows channel primary answers =>
    split
    · exact goesOn_atStage rfl rfl fun _ _ => trivial
    · exact goesOn_atStage rfl rfl fun _ allows => allows
  next id intent rows channel attempt answers =>
    refine .sends rfl rfl fun calls _ none_sent => ?_
    rw [show calls = [] from none_sent]
    exact ⟨⟨Nat.le_refl _, Nat.zero_le _, List.nodup_singleton _⟩, id, rfl⟩
  next id intent rows channel attempt answers =>
    exact .sends rfl rfl fun calls once primary_only =>
      ⟨once.escalate (fun call mem => primary_only call mem), trivial⟩
  next result completedAt deliveredAt id intent rows channel attempt answers =>
    split
    · exact goesOn_pop rfl fun _ => claimable_of_updateWhere fun _ => by rfl
    · refine goesOn_atStage rfl rfl ?_
      rintro calls ⟨intentId, rfl⟩
      unfold Intent.afterFailure
      split
      next escalation _ =>
        split
        next apart =>
          intro call mem
          rw [List.mem_singleton.mp mem]
          exact ⟨rfl, apart.symm⟩
        next => trivial
      next => trivial
  next result completedAt deliveredAt id intent rows channel attempt answers =>
    split
    · exact goesOn_pop rfl fun _ => claimable_of_updateWhere fun _ => by rfl
    · exact goesOn_atStage rfl rfl fun _ _ => trivial
  next => exact goesOn_atStage rfl rfl fun _ _ => trivial
  next => exact goesOn_pop rfl fun _ => claimable_of_updateWhere fun _ => by rfl
  next => exact goesOn_pop rfl fun _ => claimable_of_updateWhere fun _ => by rfl
  next => exact .goesOn rfl (fun _ => id) (fun _ => id) id

theorem sound_step (s : System) (e : Event) (sound : Sound s) (alone : ClaimsAlone s e) :
    Sound (s.step e) :=
  sound.does (statement_does alone)

/-- Each intent is sent at most once with its primary channel and at most once with its escalation
channel, in every run in which a batch claims only what is still to be claimed and no call of
`deliverIntentNow` takes the claim of another for its own. -/
theorem sentOncePerChannel (intents : KeyedTable String Intent) (es : List Event)
    (alone : EveryStep System.step ClaimsAlone (System.start intents) es) :
    EveryState System.step SentOncePerChannel (System.start intents) es :=
  everyState_mono (fun _ (sound : Sound _) => sound.once)
    (everyState_of_preserved sound_step (sound_start intents) alone)

/-- An intent for the web thread that escalates to e-mail. -/
def reminder : Intent where
  priority := .immediate
  lifecycleStatus := .pending
  policySnapshot := .null
  allowedChannels := ["web_thread"]
  escalationChannel := some "email"
  assistantId := some "assistant-1"
  surface := some "web"
  scheduledAt := none
  createdAt := 0
  claimedAt := none
  deliveredAt := none
  deadLetteredAt := none
  failureReason := none

def oneReminder : KeyedTable String Intent := ⟨[("intent-1", reminder)], by decide⟩

def reachable : Surroundings := ⟨none, false, fun _ => none, ["web_thread", "email"]⟩

/-- A batch finds the intent after a call of `deliverIntentNow` has claimed it, which escalates. -/
def immediateThenBatch : List Event :=
  [⟨0, .deliverIntentNow "intent-1" 10⟩, ⟨1, .findMany 20⟩, ⟨0, .findUnique⟩,
    ⟨0, .attempt reachable 20⟩, ⟨0, .deliver⟩, ⟨0, .deliverReturns ⟨.failed, none, none⟩ 30 30⟩,
    ⟨0, .attempt reachable 40⟩, ⟨0, .deliver⟩, ⟨0, .deliverReturns ⟨.delivered, none, none⟩ 50 50⟩,
    ⟨0, .finish⟩, ⟨1, .findMany 60⟩]

theorem sentOncePerChannel_immediateThenBatch :
    EveryState System.step SentOncePerChannel (System.start oneReminder) immediateThenBatch :=
  sentOncePerChannel oneReminder immediateThenBatch (by decide +kernel)

/-- Two batches find the intent before either claims it. -/
def twoBatches : List Event :=
  [⟨0, .findMany 10⟩, ⟨1, .findMany 10⟩, ⟨0, .updateMany⟩, ⟨1, .updateMany⟩,
    ⟨0, .attempt reachable 20⟩, ⟨0, .deliver⟩, ⟨1, .attempt reachable 20⟩, ⟨1, .deliver⟩]

/-- `deliverIntentNow` reads back the claim of a batch. -/
def batchThenImmediate : List Event :=
  [⟨0, .findMany 10⟩, ⟨0, .updateMany⟩, ⟨1, .deliverIntentNow "intent-1" 20⟩, ⟨1, .findUnique⟩,
    ⟨0, .attempt reachable 20⟩, ⟨0, .deliver⟩, ⟨1, .attempt reachable 20⟩, ⟨1, .deliver⟩]

theorem sent_twice :
    ¬ EveryState System.step SentOncePerChannel (System.start oneReminder) twoBatches ∧
      ¬ EveryState System.step SentOncePerChannel (System.start oneReminder)
        batchThenImmediate := by
  constructor <;> intro every <;>
    exact absurd (every.last "intent-1").channels (by decide +kernel)

end Persai.Notifications
