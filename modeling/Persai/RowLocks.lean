import Mathlib.Data.Finset.Max
import Mathlib.Data.List.Basic
import Persai.Runs

/-!
# Transactions that lock rows

Transactions run interleaved, statement by statement. What one has locked it holds until it ends,
what it reads is what the others have committed, and what it writes shows when it commits.

* `Keeps`: the proof rules for one transaction: what it knows stands as long as the rows it holds
  are left alone, it asks for rows in the order of the discipline, and it changes what a row guards
  only with that row;
* `sound_run`: transactions that keep the rules preserve the invariant, however they interleave;
* `exists_ready`: where the order is upwards, one of them can always go on.
-/

namespace RowLocks

variable {D Row : Type}

/-- What is left to do of a transaction. -/
inductive Steps (D Row : Type)
  | read (next : D → Steps D Row)
  | lock (row : Row) (next : Steps D Row)
  | commit (write : D → D)

/-- One that has ended has no steps left. -/
structure Transaction (D Row : Type) where
  steps : Option (Steps D Row)
  held : List Row

structure System (D Row : Type) where
  data : D
  transactions : List (Transaction D Row)

inductive Event (D Row : Type)
  | start (steps : Steps D Row)
  | step (i : ℕ)

/-! ## The rules -/

/-- What the rows guard: `kept row` says that a commit left alone what `row` guards, `always` what
every commit leaves alone; `asks held row` allows for a row to be asked for while others are
held. -/
structure Discipline (D Row : Type) where
  inv : D → Prop
  kept : Row → D → D → Prop
  always : D → D → Prop
  asks : List Row → Row → Prop

/-- The row is held, or comes behind all that are. -/
def Upwards [LT Row] (held : List Row) (row : Row) : Prop :=
  row ∈ held ∨ ∀ other ∈ held, other < row

/-- Rows may be asked for in any order. -/
def Discipline.unordered (δ : Discipline D Row) : Discipline D Row :=
  { δ with asks := fun _ _ => True }

/-- What no other transaction can make false while the rows are held. -/
def Stable (δ : Discipline D Row) (held : List Row) (know : D → Prop) : Prop :=
  ∀ d d', δ.inv d → δ.inv d' → δ.always d d' → (∀ row ∈ held, δ.kept row d d') → know d → know d'

inductive Keeps (δ : Discipline D Row) : List Row → (D → Prop) → Steps D Row → Prop
  | read {held : List Row} {know : D → Prop} {next : D → Steps D Row} (learned : D → D → Prop)
      (learns : ∀ d, δ.inv d → know d → Stable δ held (learned d) ∧ learned d d)
      (rest : ∀ d, δ.inv d → know d → Keeps δ held (learned d) (next d)) :
      Keeps δ held know (.read next)
  | lock {held : List Row} {know : D → Prop} {row : Row} {next : Steps D Row}
      (asks : δ.asks held row) (rest : Keeps δ (row :: held) know next) :
      Keeps δ held know (.lock row next)
  | commit {held : List Row} {know : D → Prop} {write : D → D}
      (writes : ∀ d, δ.inv d → know d → δ.inv (write d) ∧ δ.always d (write d) ∧
        ∀ row, row ∉ held → δ.kept row d (write d)) : Keeps δ held know (.commit write)

theorem Stable.mono {δ : Discipline D Row} {held more : List Row} {know : D → Prop}
    (stable : Stable δ held know) (subset : held ⊆ more) : Stable δ more know :=
  fun d d' here there always kept => stable d d' here there always fun row mem =>
    kept row (subset mem)

theorem Stable.and {δ : Discipline D Row} {held : List Row} {know know' : D → Prop}
    (stable : Stable δ held know) (stable' : Stable δ held know') :
    Stable δ held fun d => know d ∧ know' d :=
  fun d d' here there always kept both =>
    ⟨stable d d' here there always kept both.1, stable' d d' here there always kept both.2⟩

theorem stable_const (δ : Discipline D Row) (held : List Row) (p : Prop) :
    Stable δ held fun _ => p := fun _ _ _ _ _ _ => id

/-- Knowing more, a transaction keeps the rules as well. -/
theorem Keeps.of_imp {δ : Discipline D Row} {held : List Row} {know know' : D → Prop}
    {steps : Steps D Row} (keeps : Keeps δ held know' steps)
    (knows : ∀ d, δ.inv d → know d → know' d) : Keeps δ held know steps := by
  induction keeps generalizing know with
  | read learned learns rest ih =>
    refine .read learned (fun d here known => learns d here (knows d here known)) ?_
    exact fun d here known => rest d here (knows d here known)
  | lock asks rest ih => exact .lock asks (ih knows)
  | commit writes => exact .commit fun d here known => writes d here (knows d here known)

/-- A transaction that keeps an order keeps the other rules. -/
theorem Keeps.unordered {δ : Discipline D Row} {held : List Row} {know : D → Prop}
    {steps : Steps D Row} (keeps : Keeps δ held know steps) :
    Keeps δ.unordered held know steps := by
  induction keeps with
  | read learned learns rest ih => exact .read learned learns ih
  | lock asks rest ih => exact .lock trivial ih
  | commit writes => exact .commit writes

/-- Lock the rows of a statement, in its order. -/
def lockAll (rows : List Row) (next : Steps D Row) : Steps D Row := rows.foldr .lock next

theorem keeps_lockAll {δ : Discipline D Row} {held rows : List Row} {know : D → Prop}
    {next : Steps D Row}
    (asks : ∀ before row after, rows = before ++ row :: after →
      δ.asks (before.reverse ++ held) row)
    (rest : Keeps δ (rows.reverse ++ held) know next) : Keeps δ held know (lockAll rows next) := by
  induction rows generalizing held with
  | nil => exact rest
  | cons row rows ih =>
    refine .lock (asks [] row rows rfl) (ih (fun before later after same => ?_) ?_)
    · have further := asks (row :: before) later after (by rw [same]; rfl)
      rwa [List.reverse_cons, List.append_assoc] at further
    · rwa [List.reverse_cons, List.append_assoc] at rest

/-- Rows that ascend, all behind those that are held. -/
theorem upwards_of_ascending [Preorder Row] {held rows : List Row}
    (ascending : rows.Pairwise (· < ·)) (behind : ∀ row ∈ rows, ∀ other ∈ held, other < row)
    {before after : List Row} {row : Row} (place : rows = before ++ row :: after) :
    Upwards (before.reverse ++ held) row := by
  subst place
  refine .inr fun other mem => ?_
  rcases List.mem_append.mp mem with earlier | isHeld
  · exact (List.pairwise_append.mp ascending).2.2 other (List.mem_reverse.mp earlier) row
      List.mem_cons_self
  · exact behind row (List.mem_append_right _ List.mem_cons_self) other isHeld

/-! ## The interleaving -/

section
variable [LinearOrder Row]

/-- Another transaction holds the row. -/
def System.waits (s : System D Row) (i : ℕ) (row : Row) : Bool :=
  (s.transactions.eraseIdx i).any fun t => decide (row ∈ t.held)

def System.advance (s : System D Row) (i : ℕ) (held : List Row) : Steps D Row → System D Row
  | .read next => { s with transactions := s.transactions.set i ⟨some (next s.data), held⟩ }
  | .lock row next =>
    if s.waits i row then s
    else { s with transactions := s.transactions.set i ⟨some next, row :: held⟩ }
  | .commit write => ⟨write s.data, s.transactions.set i ⟨none, []⟩⟩

def System.step (s : System D Row) : Event D Row → System D Row
  | .start steps => { s with transactions := s.transactions ++ [⟨some steps, []⟩] }
  | .step i =>
    match s.transactions[i]? with
    | some ⟨some steps, held⟩ => s.advance i held steps
    | _ => s

/-- A transaction that has not ended. -/
def System.Running (s : System D Row) (i : ℕ) : Prop :=
  ∃ steps held, s.transactions[i]? = some ⟨some steps, held⟩

/-- No two transactions hold one row. -/
def System.Exclusive (s : System D Row) : Prop :=
  ∀ (i j : ℕ) (t t' : Transaction D Row), i ≠ j → s.transactions[i]? = some t →
    s.transactions[j]? = some t' → ∀ row ∈ t.held, row ∉ t'.held

/-- A transaction that still runs and does not wait for a row. -/
def System.Ready (s : System D Row) (i : ℕ) : Prop :=
  ∃ steps held, s.transactions[i]? = some ⟨some steps, held⟩ ∧
    ∀ row next, steps = .lock row next → s.waits i row = false

/-- What holds of each transaction: what it knows is so. -/
def Transaction.Sound (δ : Discipline D Row) (d : D) (t : Transaction D Row) : Prop :=
  match t.steps with
  | none => t.held = []
  | some steps => ∃ know, Stable δ t.held know ∧ know d ∧ Keeps δ t.held know steps

structure System.Sound (δ : Discipline D Row) (s : System D Row) : Prop where
  inv : δ.inv s.data
  each : ∀ (i : ℕ) (t : Transaction D Row), s.transactions[i]? = some t → t.Sound δ s.data
  exclusive : s.Exclusive

/-- Only transactions that keep the rules are started. -/
def Event.Kept (δ : Discipline D Row) : Event D Row → Prop
  | .start steps => Keeps δ [] (fun _ => True) steps
  | .step _ => True

variable {δ : Discipline D Row} {s : System D Row}

theorem waits_iff {i : ℕ} {row : Row} : s.waits i row = true ↔
    ∃ j t, j ≠ i ∧ s.transactions[j]? = some t ∧ row ∈ t.held := by
  rw [System.waits, List.any_eq_true]
  constructor
  · rintro ⟨t, mem, isHeld⟩
    obtain ⟨j, other, found⟩ := List.mem_eraseIdx_iff_getElem?.mp mem
    exact ⟨j, t, other, found, of_decide_eq_true isHeld⟩
  · rintro ⟨j, t, other, found, isHeld⟩
    exact ⟨t, List.mem_eraseIdx_iff_getElem?.mpr ⟨j, other, found⟩, decide_eq_true isHeld⟩

/-- One transaction goes on; the data is the same. -/
theorem sound_set (sound : s.Sound δ) {i : ℕ} {t t' : Transaction D Row}
    (here : s.transactions[i]? = some t) (goes : t'.Sound δ s.data)
    (apart : ∀ row ∈ t'.held, row ∈ t.held ∨ s.waits i row = false) :
    System.Sound δ { s with transactions := s.transactions.set i t' } := by
  have bound := (List.getElem?_eq_some_iff.mp here).1
  have same := List.getElem?_set_self (a := t') bound
  refine ⟨sound.inv, fun j u found => ?_, fun j k u v ne atJ atK row isHeld isHeld' => ?_⟩
  · by_cases eq : i = j
    · subst eq
      rw [same] at found
      exact Option.some.inj found ▸ goes
    · rw [List.getElem?_set_ne eq] at found
      exact sound.each j u found
  · -- a row of the transaction that went on, and of another one
    have against : ∀ {l w}, i ≠ l → s.transactions[l]? = some w → row ∈ w.held →
        row ∈ t'.held → False := by
      intro l w other atL isHeldL mine
      rcases apart row mine with before | free
      · exact sound.exclusive i l t w other here atL row before isHeldL
      · rw [waits_iff.mpr ⟨l, w, Ne.symm other, atL, isHeldL⟩] at free
        cases free
    by_cases eq : i = j
    · subst eq
      rw [same] at atJ
      rw [List.getElem?_set_ne ne] at atK
      exact against ne atK isHeld' (Option.some.inj atJ ▸ isHeld)
    · rw [List.getElem?_set_ne eq] at atJ
      by_cases eq' : i = k
      · subst eq'
        rw [same] at atK
        exact against eq atJ isHeld (Option.some.inj atK ▸ isHeld')
      · rw [List.getElem?_set_ne eq'] at atK
        exact sound.exclusive j k u v ne atJ atK row isHeld isHeld'

omit [LinearOrder Row] in
/-- A transaction commits; what the others know is guarded by what they hold. -/
theorem sound_commit (sound : s.Sound δ) {i : ℕ} {held : List Row} {write : D → D}
    (here : s.transactions[i]? = some ⟨some (.commit write), held⟩) :
    System.Sound δ ⟨write s.data, s.transactions.set i ⟨none, []⟩⟩ := by
  have bound := (List.getElem?_eq_some_iff.mp here).1
  have same := List.getElem?_set_self (a := (⟨none, []⟩ : Transaction D Row)) bound
  obtain ⟨know, stable, known, keeps⟩ := sound.each i _ here
  cases keeps with
  | commit writes =>
    obtain ⟨inv, always, kept⟩ := writes s.data sound.inv known
    refine ⟨inv, fun j u found => ?_, fun j k u v ne atJ atK row isHeld isHeld' => ?_⟩
    · by_cases eq : i = j
      · subst eq
        rw [same] at found
        exact Option.some.inj found ▸ rfl
      · rw [List.getElem?_set_ne eq] at found
        have before := sound.each j u found
        obtain ⟨steps, held'⟩ := u
        cases steps with
        | none => exact before
        | some steps =>
          obtain ⟨know', stable', known', keeps'⟩ := before
          refine ⟨know', stable', ?_, keeps'⟩
          refine stable' s.data (write s.data) sound.inv inv always (fun row isHeld => ?_) known'
          exact kept row fun mine => sound.exclusive i j _ _ eq here found row mine isHeld
    · by_cases eq : i = j
      · subst eq
        rw [same] at atJ
        rw [← Option.some.inj atJ] at isHeld
        cases isHeld
      · by_cases eq' : i = k
        · subst eq'
          rw [same] at atK
          rw [← Option.some.inj atK] at isHeld'
          cases isHeld'
        · rw [List.getElem?_set_ne eq] at atJ
          rw [List.getElem?_set_ne eq'] at atK
          exact sound.exclusive j k u v ne atJ atK row isHeld isHeld'

omit [LinearOrder Row] in
theorem sound_start (sound : s.Sound δ) {steps : Steps D Row}
    (keeps : Keeps δ [] (fun _ => True) steps) :
    System.Sound δ { s with transactions := s.transactions ++ [⟨some steps, []⟩] } := by
  have split : ∀ {j : ℕ} {u : Transaction D Row},
      (s.transactions ++ [(⟨some steps, []⟩ : Transaction D Row)])[j]? = some u →
        s.transactions[j]? = some u ∨ u = ⟨some steps, []⟩ := by
    intro j u found
    rw [List.getElem?_append] at found
    split at found
    · exact .inl found
    · rw [List.getElem?_singleton] at found
      split at found
      · exact .inr (Option.some.inj found).symm
      · cases found
  refine ⟨sound.inv, fun j u found => ?_, fun j k u v ne atJ atK row isHeld isHeld' => ?_⟩
  · rcases split found with before | rfl
    · exact sound.each j u before
    · exact ⟨_, stable_const δ [] True, trivial, keeps⟩
  · rcases split atJ with beforeJ | rfl
    · rcases split atK with beforeK | rfl
      · exact sound.exclusive j k u v ne beforeJ beforeK row isHeld isHeld'
      · cases isHeld'
    · cases isHeld

theorem sound_step (sound : s.Sound δ) {e : Event D Row} (kept : e.Kept δ) :
    (s.step e).Sound δ := by
  cases e with
  | start steps => exact sound_start sound kept
  | step i =>
    rw [System.step]
    split
    · rename_i steps held here
      have mine := sound.each i _ here
      obtain ⟨know, stable, known, keeps⟩ := mine
      cases keeps with
      | read learned learns rest =>
        obtain ⟨stable', now⟩ := learns s.data sound.inv known
        refine sound_set sound here ⟨_, stable', now, rest s.data sound.inv known⟩ ?_
        exact fun row isHeld => .inl isHeld
      | lock asks rest =>
        rw [System.advance]
        split
        · exact sound
        · rename_i free
          refine sound_set sound here ⟨know, stable.mono (List.subset_cons_self ..), known, rest⟩ ?_
          intro row isHeld
          rcases List.mem_cons.mp isHeld with rfl | isHeld
          · exact .inr (by simpa using free)
          · exact .inl isHeld
      | commit writes => exact sound_commit sound here
    · exact sound

omit [LinearOrder Row] in
theorem sound_init {d : D} (inv : δ.inv d) : System.Sound δ ⟨d, []⟩ := by
  refine ⟨inv, fun i t found => ?_, fun i j t t' _ found => ?_⟩
  · cases found
  · cases found

/-- However the transactions come in and go on. -/
theorem sound_run {ε : Type} (toEvent : ε → Event D Row) {d : D} (inv : δ.inv d) {es : List ε}
    (kept : ∀ e ∈ es, (toEvent e).Kept δ) :
    Runs.EveryState (fun s e => s.step (toEvent e)) (System.Sound δ) ⟨d, []⟩ es :=
  Runs.everyState_of_preserved (fun _ _ sound kept => sound_step sound kept) (sound_init inv)
    (Runs.everyStep_of_events kept)

/-! ## No deadlock -/

/-- A transaction that runs and waits for a row. -/
def System.blocked (s : System D Row) (i : ℕ) : Bool :=
  match s.transactions[i]? with
  | some ⟨some (.lock row _), _⟩ => s.waits i row
  | _ => false

theorem blocked_iff {i : ℕ} : s.blocked i ↔ s.Running i ∧ ¬ s.Ready i := by
  unfold System.blocked
  constructor
  · intro blocked
    split at blocked
    · rename_i row next held here
      refine ⟨⟨_, _, here⟩, ?_⟩
      rintro ⟨steps, held', here', free⟩
      rw [here, Option.some.injEq, Transaction.mk.injEq, Option.some.injEq] at here'
      rw [free row next here'.1.symm] at blocked
      cases blocked
    · cases blocked
  · rintro ⟨⟨steps, held, here⟩, notReady⟩
    rw [here]
    by_contra free
    refine notReady ⟨steps, held, here, fun row next isLock => ?_⟩
    subst isLock
    exact Bool.not_eq_true _ ▸ free

/-- The row that a transaction asks for. -/
def System.wanted (s : System D Row) (i : ℕ) : WithBot Row :=
  match s.transactions[i]? with
  | some ⟨some (.lock row _), _⟩ => row
  | _ => ⊥

/-- The transaction that asks for the highest row does not wait: whoever held that row would ask
for a higher one. -/
theorem exists_ready (order : ∀ held row, δ.asks held row → Upwards held row)
    (sound : s.Sound δ) (running : ∃ i, s.Running i) : ∃ i, s.Ready i := by
  classical
  by_contra stuck
  rw [not_exists] at stuck
  have blocked : ∀ (i : ℕ) (steps : Steps D Row) (held : List Row),
      s.transactions[i]? = some ⟨some steps, held⟩ →
        ∃ row next, steps = .lock row next ∧ s.waits i row = true := by
    intro i steps held here
    have waiting := blocked_iff.mpr ⟨⟨steps, held, here⟩, stuck i⟩
    rw [System.blocked, here] at waiting
    cases steps with
    | lock row next => exact ⟨row, next, rfl, waiting⟩
    | read => cases waiting
    | commit => cases waiting
  let live := (Finset.range s.transactions.length).filter s.Running
  have mem_live : ∀ {i : ℕ} {steps : Steps D Row} {held : List Row},
      s.transactions[i]? = some ⟨some steps, held⟩ → i ∈ live := by
    intro i steps held here
    have bound := (List.getElem?_eq_some_iff.mp here).1
    exact Finset.mem_filter.mpr ⟨Finset.mem_range.mpr bound, steps, held, here⟩
  obtain ⟨i, steps, held, here⟩ := running
  obtain ⟨top, isLive, highest⟩ := live.exists_max_image s.wanted ⟨i, mem_live here⟩
  obtain ⟨steps, held, here⟩ := (Finset.mem_filter.mp isLive).2
  obtain ⟨row, next, rfl, waiting⟩ := blocked top steps held here
  obtain ⟨j, t, -, atJ, isHeld⟩ := waits_iff.mp waiting
  obtain ⟨steps', held'⟩ := t
  have sound' := sound.each j _ atJ
  cases steps' with
  | none =>
    have nothing : held' = [] := sound'
    rw [nothing] at isHeld
    cases isHeld
  | some steps' =>
    obtain ⟨row', next', rfl, waiting'⟩ := blocked j steps' held' atJ
    obtain ⟨know, -, -, keeps⟩ := sound'
    cases keeps with
    | lock asks _ =>
      rcases order _ _ asks with mine | upwards
      · obtain ⟨k, u, other, atK, isHeld'⟩ := waits_iff.mp waiting'
        exact sound.exclusive j k _ u (Ne.symm other) atJ atK row' mine isHeld'
      · have least := highest j (mem_live atJ)
        rw [System.wanted, System.wanted, atJ, here] at least
        exact absurd (upwards row isHeld) (not_lt_of_ge (WithBot.coe_le_coe.mp least))

end

end RowLocks
