import Mathlib.Algebra.BigOperators.Group.Finset.Basic
import Mathlib.Algebra.Order.BigOperators.Group.Finset
import Persai.Runs
import Persai.MediaQuota.Delivery

/-!
# A job is accounted for exactly once

* `Regular`: the jobs whose artifacts fit their reservation;
* `Meets`: what a step must not do again, and what it must not miss;
* `Accounting`, `accounting_step`: the calls made so far are for different portions of
  the reservation, and an attempt that is past a portion has made its call;
* `accounted_once`: the units moved out of reserve are never more than those reserved and
  all of them when the job ends, and no video is paid for twice;
* `drained_again`: an attempt that is retried after its artifacts were settled.
-/

namespace Persai.MediaQuota

open Runs Counters

/-- The portion was called for, on its own or with the whole. -/
def Portion.CalledIn (x : Portion) (called : List Portion) : Prop := x ∈ called ∨ .whole ∈ called

instance (x : Portion) (called : List Portion) : Decidable (x.CalledIn called) :=
  inferInstanceAs (Decidable (_ ∨ _))

namespace DeliveryJob

/-- There are no more artifacts than units, and a unit is reserved for each; a job without
a reservation has none that takes a unit. -/
def Regular (job : DeliveryJob) : Prop :=
  match job.reservation with
  | some reserved =>
    job.artifacts.length ≤ reserved.units ∧ ∀ x ∈ job.artifacts, x.monthlyQuotaTool.isSome
  | none => ∀ x ∈ job.artifacts, x.monthlyQuotaTool = none

instance (job : DeliveryJob) : Decidable job.Regular := by
  unfold Regular
  split <;> infer_instance

/-- The units of a portion. -/
def worth (job : DeliveryJob) : Portion → Nat
  | .artifact i => if (job.quotaTool i).isSome then 1 else 0
  | .remainder => job.remainder
  | .whole => job.units

/-- The portions that the loop and the release after it take. -/
def parts (job : DeliveryJob) : List Portion :=
  .remainder :: (List.range job.artifacts.length).map .artifact

/-- The units of the artifacts before the `i`-th were called for. -/
def CalledBelow (job : DeliveryJob) (called : List Portion) (i : Nat) : Prop :=
  ∀ j < i, 0 < job.worth (.artifact j) → (Portion.artifact j).CalledIn called

/-- The calls account for the reservation. -/
def Complete (job : DeliveryJob) (called : List Portion) : Prop :=
  ∀ x ∈ job.parts, 0 < job.worth x → x.CalledIn called

instance (job : DeliveryJob) (called : List Portion) : Decidable (job.Complete called) :=
  inferInstanceAs (Decidable (∀ x ∈ job.parts, _))

end DeliveryJob

namespace DeliveryState

/-- The call is the first for its portion, and takes effect. -/
def Serves (s : DeliveryState) (x : Portion) (how : Resolution) (input : MutationInput)
    (call : QuotaCall) : Prop :=
  x ∉ s.called ∧ .whole ∉ s.called ∧ (x = .whole → s.called = []) ∧
  call.ok = true ∧ (how.apply s.counters input).isSome ∧
  input.units ≤ (s.counters.counter input.key).reservedUnits

instance (s : DeliveryState) (x : Portion) (how : Resolution) (input : MutationInput)
    (call : QuotaCall) : Decidable (s.Serves x how input call) :=
  inferInstanceAs (Decidable (_ ∧ _))

/-- If the artifact takes a unit, the attempt calls for it, or one has before. -/
def ServesUnit (job : DeliveryJob) (s : DeliveryState) (t : Attempt) (i : Nat) (how : Resolution)
    (call : QuotaCall) : Prop :=
  match job.quotaTool i with
  | some tool =>
    if t.assistantFound then s.Serves (.artifact i) how (job.input tool 1 call) call
    else (Portion.artifact i).CalledIn s.called
  | none => True

instance (job : DeliveryJob) (s : DeliveryState) (t : Attempt) (i : Nat) (how : Resolution)
    (call : QuotaCall) : Decidable (s.ServesUnit job t i how call) := by
  unfold ServesUnit
  split
  · split <;> infer_instance
  · infer_instance

/-- What the step of an attempt must meet. -/
def AttemptMeets (job : DeliveryJob) (s : DeliveryState) (t : Attempt) : DeliveryEvent → Prop
  | .persist _ .alreadyDelivered =>
    match t.phase with
    | .persisting i => 0 < job.worth (.artifact i) → (Portion.artifact i).CalledIn s.called
    | _ => True
  | .settle _ call =>
    match t.phase with
    | .settling i =>
      if job.isVideo i then
        t.assistantFound = true → call.ok = true → call.vcCost.isSome → i ∉ s.debits
      else s.ServesUnit job t i .settled call
    | _ => True
  | .mark _ call =>
    match t.phase with
    | .marking i => s.ServesUnit job t i .reconciliationRequired call
    | _ => True
  | .release _ call assistantFound =>
    match job.reservation with
    | some reserved =>
      t.phase = .releasing → job.artifacts.length < reserved.units →
        if assistantFound then s.Serves .remainder .released
          (job.input reserved.toolCode (reserved.units - job.artifacts.length) call) call
        else Portion.remainder.CalledIn s.called
    | none => True
  | .handle _ =>
    t.phase = .caught → job.maxAttempts ≤ t.attemptCount → t.loopResolved = true →
      0 < job.remainder → Portion.remainder.CalledIn s.called
  | .reconcile _ call assistantFound =>
    match job.reservation with
    | some reserved =>
      t.phase = .reconciling →
        if assistantFound then s.Serves .whole .reconciliationRequired
          (job.input reserved.toolCode reserved.units call) call
        else job.Complete s.called
    | none => True
  | _ => True

instance (job : DeliveryJob) (s : DeliveryState) (t : Attempt) (e : DeliveryEvent) :
    Decidable (s.AttemptMeets job t e) := by
  unfold AttemptMeets
  split <;> (try split) <;> infer_instance

def Meets (job : DeliveryJob) (s : DeliveryState) (e : DeliveryEvent) : Prop :=
  match e.attempt with
  | some a => ∀ t ∈ s.attempts.get? a, s.AttemptMeets job t e
  | none => True

instance (job : DeliveryJob) (s : DeliveryState) (e : DeliveryEvent) :
    Decidable (s.Meets job e) := by
  unfold Meets
  split <;> infer_instance

/-- The job has moved no more units out of reserve than it reserved, and all of them once
it has ended; each video artifact was debited at most once. -/
def AccountedOnce (job : DeliveryJob) (s : DeliveryState) : Prop :=
  s.moved ≤ job.units ∧ (s.status ≠ .completionPending → s.moved = job.units) ∧ s.debits.Nodup

instance (job : DeliveryJob) (s : DeliveryState) : Decidable (s.AccountedOnce job) :=
  inferInstanceAs (Decidable (_ ∧ _))

/-- What the attempt is past was called for. -/
def PhaseCovered (job : DeliveryJob) (called : List Portion) : AttemptPhase → Prop
  | .persisting i | .sending i | .settling i | .marking i => job.CalledBelow called i
  | .releasing => job.CalledBelow called job.artifacts.length
  | .finishing | .failing => job.Complete called
  | _ => True

def Covered (job : DeliveryJob) (called : List Portion) (t : Attempt) : Prop :=
  PhaseCovered job called t.phase ∧
  (t.loopResolved = true → job.CalledBelow called job.artifacts.length)

/-- The calls made so far. -/
structure Books (job : DeliveryJob) (s : DeliveryState) : Prop where
  moved : s.moved = ((s.called.map job.worth).sum : Nat)
  once : s.called = [.whole] ∨ (s.called.Nodup ∧ s.called ⊆ job.parts)
  debits : s.debits.Nodup
  handedOver : job.handedOver → .whole ∈ s.called
  ended : s.status ≠ .completionPending → job.Complete s.called

structure Accounting (job : DeliveryJob) (s : DeliveryState) : Prop where
  books : Books job s
  attempts : ∀ a t, s.attempts.get? a = some t → Covered job s.called t

end DeliveryState

section
variable {job : DeliveryJob} {called called' : List Portion} {i : Nat}

theorem Portion.CalledIn.mono {x : Portion} (h : x.CalledIn called) (grows : called ⊆ called') :
    x.CalledIn called' :=
  h.imp (@grows x) (@grows _)

/-- Weights of a list without repetitions that lies in another. -/
theorem sum_called (job : DeliveryJob) (once : called.Nodup) :
    (called.map job.worth).sum = called.toFinset.sum job.worth :=
  (List.sum_toFinset job.worth once).symm

namespace DeliveryJob

theorem parts_nodup (job : DeliveryJob) : job.parts.Nodup := by
  rw [parts, List.nodup_cons]
  constructor
  · simp
  · exact List.nodup_range.map fun _ _ => Portion.artifact.inj

theorem quotaTool_of_lt (h : i < job.artifacts.length) :
    job.quotaTool i = job.artifacts[i].monthlyQuotaTool := by
  simp [quotaTool, h]

theorem lt_of_quotaTool (h : (job.quotaTool i).isSome) : i < job.artifacts.length := by
  by_contra past
  have none : job.artifacts[i]? = none := List.getElem?_eq_none (Nat.not_lt.mp past)
  simp [quotaTool, none] at h

/-- The portions make up what was reserved. -/
theorem sum_parts (regular : job.Regular) : (job.parts.map job.worth).sum = job.units := by
  have artifacts : ∀ w : Nat, (∀ j < job.artifacts.length, job.worth (.artifact j) = w) →
      (job.parts.map job.worth).sum = job.remainder + job.artifacts.length * w := by
    intro w each
    have same : ((List.range job.artifacts.length).map (job.worth ∘ .artifact)) =
        List.replicate job.artifacts.length w := by
      rw [List.eq_replicate_iff]
      constructor
      · simp
      · intro v found
        obtain ⟨j, hj, rfl⟩ := List.mem_map.mp found
        exact each j (List.mem_range.mp hj)
    rw [parts, List.map_cons, List.sum_cons, List.map_map, same, List.sum_replicate_nat]
    rfl
  unfold Regular at regular
  split at regular
  · rename_i reserved some'
    have each : ∀ j < job.artifacts.length, job.worth (.artifact j) = 1 := by
      intro j hj
      simp [worth, quotaTool_of_lt hj, regular.2 _ (List.getElem_mem hj)]
    have units : job.units = reserved.units := by simp [DeliveryJob.units, some']
    have fits := regular.1
    rw [artifacts 1 each, remainder, units]
    omega
  · rename_i none
    have each : ∀ j < job.artifacts.length, job.worth (.artifact j) = 0 := by
      intro j hj
      simp [worth, quotaTool_of_lt hj, regular _ (List.getElem_mem hj)]
    rw [artifacts 0 each, remainder]
    simp [DeliveryJob.units, none]

theorem sum_le (regular : job.Regular) (once : called.Nodup) (within : called ⊆ job.parts) :
    (called.map job.worth).sum ≤ job.units := by
  rw [← sum_parts regular, sum_called job once, sum_called job job.parts_nodup]
  apply Finset.sum_le_sum_of_subset
  intro x hx
  simpa using within (by simpa using hx)

theorem sum_eq (regular : job.Regular) (once : called.Nodup) (within : called ⊆ job.parts)
    (complete : ∀ x ∈ job.parts, 0 < job.worth x → x ∈ called) :
    (called.map job.worth).sum = job.units := by
  rw [← sum_parts regular, sum_called job once, sum_called job job.parts_nodup]
  apply Finset.sum_subset
  · intro x hx
    simpa using within (by simpa using hx)
  · intro x hx absent
    by_contra weighs
    exact absent (by simpa using complete x (by simpa using hx) (Nat.pos_of_ne_zero weighs))

theorem CalledBelow.mono (below : job.CalledBelow called i) (grows : called ⊆ called') :
    job.CalledBelow called' i :=
  fun j hj weighs => (below j hj weighs).mono grows

theorem Complete.mono (complete : job.Complete called) (grows : called ⊆ called') :
    job.Complete called' :=
  fun x hx weighs => (complete x hx weighs).mono grows

theorem calledBelow_zero : job.CalledBelow called 0 := fun _ past => absurd past (Nat.not_lt_zero _)

theorem CalledBelow.succ (below : job.CalledBelow called i)
    (own : 0 < job.worth (.artifact i) → (Portion.artifact i).CalledIn called) :
    job.CalledBelow called (i + 1) := by
  intro j hj weighs
  obtain earlier | rfl := Nat.lt_succ_iff_lt_or_eq.mp hj
  · exact below j earlier weighs
  · exact own weighs

theorem quotaTool_of_isVideo (video : job.isVideo i = true) : job.quotaTool i = none := by
  have artifact : job.artifacts[i]? = some .videoGenerate := by simpa [isVideo] using video
  simp [quotaTool, artifact, SourceTool.monthlyQuotaTool]

/-- A video takes no unit. -/
theorem CalledBelow.skip (below : job.CalledBelow called i) (video : job.isVideo i = true) :
    job.CalledBelow called (i + 1) := by
  apply below.succ
  intro weighs
  simp [worth, quotaTool_of_isVideo video] at weighs

theorem complete_of_called (below : job.CalledBelow called job.artifacts.length)
    (rest : 0 < job.remainder → Portion.remainder.CalledIn called) : job.Complete called := by
  intro x hx weighs
  obtain rfl | ⟨j, hj, rfl⟩ : x = .remainder ∨ ∃ j < job.artifacts.length, .artifact j = x := by
    simpa [parts] using hx
  · exact rest weighs
  · exact below j hj weighs

theorem complete_of_whole (whole : .whole ∈ called) : job.Complete called :=
  fun _ _ _ => .inr whole

/-- A job that reserved nothing has nothing to account for. -/
theorem complete_of_none (regular : job.Regular) (none : job.reservation = none) :
    job.Complete called := by
  apply complete_of_called
  · intro j hj weighs
    rw [Regular, none] at regular
    simp [worth, quotaTool_of_lt hj, regular _ (List.getElem_mem hj)] at weighs
  · intro weighs
    simp [remainder, units, none] at weighs

end DeliveryJob

namespace DeliveryState

variable {s s' : DeliveryState} {t : Attempt} {a : Nat}

/-- The calls never come to more than the reservation. -/
theorem Books.sum_le (regular : job.Regular) (h : Books job s) :
    (s.called.map job.worth).sum ≤ job.units := by
  obtain whole | ⟨once, within⟩ := h.once
  · simp [whole, DeliveryJob.worth]
  · exact DeliveryJob.sum_le regular once within

theorem Books.sum_eq (regular : job.Regular) (h : Books job s) (complete : job.Complete s.called) :
    (s.called.map job.worth).sum = job.units := by
  obtain whole | ⟨once, within⟩ := h.once
  · simp [whole, DeliveryJob.worth]
  · have apart : .whole ∉ s.called := by
      intro whole
      simpa [DeliveryJob.parts] using within whole
    apply DeliveryJob.sum_eq regular once within
    intro x hx weighs
    exact (complete x hx weighs).resolve_right apart

theorem Books.accountedOnce (regular : job.Regular) (h : Books job s) : s.AccountedOnce job := by
  refine ⟨?_, ?_, h.debits⟩
  · have bound := h.sum_le regular
    have moved := h.moved
    omega
  · intro ended
    have all := h.sum_eq regular (h.ended ended)
    have moved := h.moved
    omega

theorem PhaseCovered.mono {phase : AttemptPhase} (h : PhaseCovered job called phase)
    (grows : called ⊆ called') : PhaseCovered job called' phase := by
  cases phase with
  | persisting | sending | settling | marking | releasing =>
    exact DeliveryJob.CalledBelow.mono h grows
  | finishing | failing => exact DeliveryJob.Complete.mono h grows
  | _ => trivial

theorem Covered.mono (h : Covered job called t) (grows : called ⊆ called') :
    Covered job called' t :=
  ⟨h.1.mono grows, fun resolved => (h.2 resolved).mono grows⟩

theorem Covered.inPhase {phase : AttemptPhase} (h : Covered job called t) (now : t.phase = phase) :
    PhaseCovered job called phase := by
  rw [← now]
  exact h.1

/-- The loop goes on with the `i`-th artifact, or is through. -/
theorem phaseCovered_loopAt (mode : DeliveryMode) (below : job.CalledBelow called i) :
    PhaseCovered job called (job.loopAt mode i) := by
  unfold DeliveryJob.loopAt
  split
  · cases mode <;> exact below
  · rename_i past
    intro j hj weighs
    exact below j (by omega) weighs

theorem covered_goTo {phase : AttemptPhase} (h : Covered job called t)
    (grows : called ⊆ called') (next : PhaseCovered job called' phase) :
    Covered job called' (t.goTo phase) := by
  refine ⟨next, ?_⟩
  intro resolved
  obtain before | now : t.loopResolved = true ∨ phase = .releasing := by
    simpa [Attempt.goTo] using resolved
  · exact (h.2 before).mono grows
  · subst now
    exact next

/-- A step that keeps the books, after which its attempt has come further. -/
theorem Accounting.goTo (h : Accounting job s) {phase : AttemptPhase}
    (covered : Covered job s.called t) (books : Books job s') (grows : s.called ⊆ s'.called)
    (others : s'.attempts = s.attempts) (next : PhaseCovered job s'.called phase) :
    Accounting job (s'.setAttempt a (t.goTo phase)) where
  books := ⟨books.moved, books.once, books.debits, books.handedOver, books.ended⟩
  attempts := by
    intro b u found
    rw [setAttempt, KeyedTable.get?_update, others] at found
    split at found
    · obtain ⟨_, _, rfl⟩ := Option.map_eq_some_iff.mp found
      exact covered_goTo covered grows next
    · exact (h.attempts b u found).mono grows

theorem Accounting.stay (h : Accounting job s) {phase : AttemptPhase}
    (covered : Covered job s.called t) (next : PhaseCovered job s.called phase) :
    Accounting job (s.setAttempt a (t.goTo phase)) :=
  h.goTo covered h.books (List.Subset.refl _) rfl next

/-- The units of a call that takes effect, as the first one for its portion. -/
theorem quota_moved {x : Portion} {how : Resolution} {input : MutationInput} {call : QuotaCall}
    (positive : 0 < input.units) (serves : s.Serves x how input call) :
    (s.quota x how input call).moved = s.moved + input.units ∧
    (s.quota x how input call).called = x :: s.called := by
  obtain ⟨-, -, -, ok, applied, held⟩ := serves
  obtain ⟨counters, applied⟩ := Option.isSome_iff_exists.mp applied
  have own := (resolution_applies input positive applied).1
  rw [min_eq_left held, max_eq_right positive.le] at own
  constructor
  · simp only [quota, ok, if_true, applied]
    omega
  · simp only [quota, ok, if_true, applied]

/-- Apart from the counters, a call only adds to the job's account. -/
theorem quota_keeps (s : DeliveryState) (x : Portion) (how : Resolution) (input : MutationInput)
    (call : QuotaCall) :
    (s.quota x how input call).debits = s.debits ∧
    (s.quota x how input call).status = s.status ∧
    (s.quota x how input call).attempts = s.attempts := by
  unfold quota
  split <;> exact ⟨rfl, rfl, rfl⟩

theorem Books.quota (h : Books job s) {x : Portion} {how : Resolution} {input : MutationInput}
    {call : QuotaCall} (part : x = .whole ∨ x ∈ job.parts) (units : input.units = job.worth x)
    (positive : 0 < job.worth x) (serves : s.Serves x how input call) :
    Books job (s.quota x how input call) ∧
    (s.quota x how input call).called = x :: s.called := by
  obtain ⟨moved, called⟩ := quota_moved (by omega) serves
  obtain ⟨debits, status, -⟩ := quota_keeps s x how input call
  obtain ⟨fresh, apart, first, -⟩ := serves
  have grows : s.called ⊆ x :: s.called := List.subset_cons_self ..
  refine ⟨?_, called⟩
  constructor
  · rw [moved, called, h.moved, units, List.map_cons, List.sum_cons]
    push_cast
    omega
  · rw [called]
    obtain whole | part := part
    · left
      rw [first whole, whole]
    · right
      obtain only | ⟨once, within⟩ := h.once
      · simp [only] at apart
      · exact ⟨List.nodup_cons.mpr ⟨fresh, once⟩, List.cons_subset.mpr ⟨part, within⟩⟩
  · rw [debits]
    exact h.debits
  · rw [called]
    exact fun handed => grows (h.handedOver handed)
  · rw [status, called]
    exact fun ended => (h.ended ended).mono grows

/-- A call accounts for its portion, and the attempt comes further. -/
theorem Accounting.serve (h : Accounting job s) (covered : Covered job s.called t) {x : Portion}
    {how : Resolution} {input : MutationInput} {call : QuotaCall} {phase : AttemptPhase}
    (part : x = .whole ∨ x ∈ job.parts) (units : input.units = job.worth x)
    (positive : 0 < job.worth x) (serves : s.Serves x how input call)
    (next : PhaseCovered job (x :: s.called) phase) :
    Accounting job ((s.quota x how input call).setAttempt a (t.goTo phase)) := by
  obtain ⟨books, called⟩ := h.books.quota part units positive serves
  have grows : s.called ⊆ (s.quota x how input call).called := by
    rw [called]
    exact List.subset_cons_self ..
  apply h.goTo covered books grows (quota_keeps ..).2.2
  rw [called]
  exact next

/-- A step of the loop that calls for a unit, if the artifact takes one. -/
theorem Accounting.serveUnit (h : Accounting job s) {how : Resolution} {call : QuotaCall}
    (covered : Covered job s.called t) (below : job.CalledBelow s.called i)
    (serves : s.ServesUnit job t i how call) :
    Accounting job ((if t.assistantFound then s.quotaOf job i how call else s).setAttempt a
      (t.goTo (job.loopAt t.mode (i + 1)))) := by
  unfold ServesUnit at serves
  unfold quotaOf
  cases tool : job.quotaTool i with
  | none =>
    have worthless : ¬ 0 < job.worth (.artifact i) := by simp [DeliveryJob.worth, tool]
    rw [ite_self]
    apply h.stay covered
    exact phaseCovered_loopAt _ (below.succ fun weighs => absurd weighs worthless)
  | some tool' =>
    have unit : job.worth (.artifact i) = 1 := by simp [DeliveryJob.worth, tool]
    have part : .artifact i ∈ job.parts := by
      have bound := DeliveryJob.lt_of_quotaTool (by rw [tool]; rfl)
      simpa [DeliveryJob.parts] using bound
    simp only [tool] at serves ⊢
    split
    · rename_i found
      rw [if_pos found] at serves
      apply h.serve covered (.inr part) (by rw [unit]; rfl) (by omega) serves
      apply phaseCovered_loopAt
      apply (below.mono (List.subset_cons_self ..)).succ
      intro _
      exact .inl List.mem_cons_self
    · rename_i missing
      rw [if_neg missing] at serves
      exact h.stay covered (phaseCovered_loopAt _ (below.succ fun _ => serves))

theorem Books.debit (h : Books job s) {call : QuotaCall}
    (once : call.ok = true → call.vcCost.isSome → i ∉ s.debits) :
    Books job (s.debit i call) := by
  unfold DeliveryState.debit
  split
  · rename_i vcCost cost
    have paid : call.ok = true ∧ call.vcCost = some vcCost := by simpa using cost
    have fresh : i ∉ s.debits := once paid.1 (by simp [paid.2])
    exact ⟨h.moved, h.once, List.nodup_cons.mpr ⟨fresh, h.debits⟩, h.handedOver, h.ended⟩
  · exact h

theorem debit_keeps (s : DeliveryState) (i : Nat) (call : QuotaCall) :
    (s.debit i call).called = s.called ∧ (s.debit i call).attempts = s.attempts := by
  unfold debit
  split <;> exact ⟨rfl, rfl⟩

/-- The job ends only when it is accounted for. -/
theorem Books.updateJob (h : Books job s) {status : JobStatus}
    (complete : status ≠ .completionPending → job.Complete s.called) :
    Books job (s.updateJob a status) := by
  unfold DeliveryState.updateJob
  split
  · exact ⟨h.moved, h.once, h.debits, h.handedOver, complete⟩
  · exact h

theorem updateJob_keeps (s : DeliveryState) (a : Nat) (status : JobStatus) :
    (s.updateJob a status).called = s.called ∧ (s.updateJob a status).attempts = s.attempts := by
  unfold updateJob
  split <;> exact ⟨rfl, rfl⟩

/-- The attempt is over, and the job with it or for another attempt. -/
theorem Accounting.conclude (h : Accounting job s) (covered : Covered job s.called t)
    {status : JobStatus} (complete : status ≠ .completionPending → job.Complete s.called) :
    Accounting job ((s.updateJob a status).setAttempt a (t.goTo .ended)) := by
  obtain ⟨called, attempts⟩ := updateJob_keeps s a status
  have next : PhaseCovered job (s.updateJob a status).called .ended := trivial
  have grows : s.called ⊆ (s.updateJob a status).called := by rw [called]; exact fun _ => id
  exact h.goTo covered (h.books.updateJob complete) grows attempts next

section
-- a step of the attempt `a` in the state `t`
variable (regular : job.Regular) (h : Accounting job s) (covered : Covered job s.called t)
include h covered

theorem read_accounting (moves : s.attemptStep job a t (.read a) = some s') :
    Accounting job s' := by
  simp only [attemptStep] at moves
  split at moves
  · cases moves
    apply h.stay covered
    split
    · trivial
    · split
      · rename_i empty
        split
        · rename_i telegram
          exact DeliveryJob.complete_of_whole (h.books.handedOver ⟨telegram, empty⟩)
        · trivial
      · trivial
  · cases moves

theorem prepare_accounting {mode : DeliveryMode} {assistantFound : Bool}
    (moves : s.attemptStep job a t (.prepare a mode assistantFound) = some s') :
    Accounting job s' := by
  simp only [attemptStep] at moves
  split at moves
  · cases moves
    have prepared : Covered job s.called { t with mode, assistantFound } := covered
    exact h.stay prepared (phaseCovered_loopAt _ DeliveryJob.calledBelow_zero)
  · cases moves

/-- An artifact that cannot be delivered is marked, unless it is a video. -/
theorem undelivered_accounting (below : job.CalledBelow s.called i) :
    Accounting job (s.setAttempt a (t.goTo
      (if job.isVideo i then job.loopAt t.mode (i + 1) else .marking i))) := by
  apply h.stay covered
  split
  · rename_i video
    exact phaseCovered_loopAt _ (below.skip video)
  · exact below

theorem persist_accounting {outcome : Persisted}
    (meets : s.AttemptMeets job t (.persist a outcome))
    (moves : s.attemptStep job a t (.persist a outcome) = some s') : Accounting job s' := by
  simp only [attemptStep] at moves
  split at moves
  · rename_i i phase
    have below : job.CalledBelow s.called i := covered.inPhase phase
    cases outcome with
    | attached =>
      cases moves
      exact h.stay covered below
    | alreadyDelivered =>
      cases moves
      simp only [AttemptMeets, phase] at meets
      have kept : Covered job s.called { t with attachments := t.attachments + 1 } := covered
      exact h.stay kept (phaseCovered_loopAt _ (below.succ meets))
    | failed =>
      cases moves
      exact undelivered_accounting h covered below
  · cases moves

theorem send_accounting {ok : Bool} (moves : s.attemptStep job a t (.send a ok) = some s') :
    Accounting job s' := by
  simp only [attemptStep] at moves
  split at moves
  · rename_i i phase
    have below : job.CalledBelow s.called i := covered.inPhase phase
    split at moves
    · cases moves
      have kept : Covered job s.called { t with attachments := t.attachments + 1 } := covered
      exact h.stay kept below
    · cases moves
      exact undelivered_accounting h covered below
  · cases moves

theorem settle_accounting {call : QuotaCall} (meets : s.AttemptMeets job t (.settle a call))
    (moves : s.attemptStep job a t (.settle a call) = some s') : Accounting job s' := by
  simp only [attemptStep] at moves
  split at moves
  · rename_i i phase
    have below : job.CalledBelow s.called i := covered.inPhase phase
    simp only [AttemptMeets, phase] at meets
    cases moves
    by_cases video : job.isVideo i = true
    · rw [if_pos video] at meets
      rw [if_pos video]
      split
      · exact h.stay covered (phaseCovered_loopAt _ (below.skip video))
      · rename_i found
        obtain ⟨called, attempts⟩ := debit_keeps s i call
        have grows : s.called ⊆ (s.debit i call).called := by rw [called]; exact fun _ => id
        have books := h.books.debit (meets (not_not.mp found))
        apply h.goTo covered books grows attempts
        exact phaseCovered_loopAt _ ((below.skip video).mono grows)
    · rw [if_neg video] at meets
      rw [if_neg video, ite_not]
      exact h.serveUnit covered below meets
  · cases moves

theorem mark_accounting {call : QuotaCall} (meets : s.AttemptMeets job t (.mark a call))
    (moves : s.attemptStep job a t (.mark a call) = some s') : Accounting job s' := by
  simp only [attemptStep] at moves
  split at moves
  · rename_i i phase
    have below : job.CalledBelow s.called i := covered.inPhase phase
    simp only [AttemptMeets, phase] at meets
    cases moves
    exact h.serveUnit covered below meets
  · cases moves

theorem release_accounting {call : QuotaCall} {assistantFound : Bool}
    (meets : s.AttemptMeets job t (.release a call assistantFound))
    (moves : s.attemptStep job a t (.release a call assistantFound) = some s') :
    Accounting job s' := by
  simp only [attemptStep] at moves
  split at moves
  · rename_i phase
    have below : job.CalledBelow s.called job.artifacts.length :=
      covered.inPhase phase
    cases reservation : job.reservation with
    | none =>
      simp only [reservation] at moves
      cases moves
      apply h.stay covered
      apply DeliveryJob.complete_of_called below
      simp [DeliveryJob.remainder, DeliveryJob.units, reservation]
    | some reserved =>
      simp only [reservation] at moves
      have units : job.units = reserved.units := by simp [DeliveryJob.units, reservation]
      split at moves
      · cases moves
        apply h.stay covered
        apply DeliveryJob.complete_of_called below
        intro rest
        rw [DeliveryJob.remainder] at rest
        omega
      · rename_i more
        cases moves
        simp only [AttemptMeets, reservation] at meets
        have meets := meets phase (Nat.not_le.mp more)
        split at meets
        · rename_i found
          rw [if_pos found]
          have rest : job.worth .remainder = reserved.units - job.artifacts.length := by
            rw [← units]; rfl
          apply h.serve covered (.inr List.mem_cons_self) (by rw [rest, DeliveryJob.input])
            (by omega) meets
          apply DeliveryJob.complete_of_called (below.mono (List.subset_cons_self ..))
          intro _
          exact .inl List.mem_cons_self
        · rename_i missing
          rw [if_neg missing]
          exact h.stay covered (DeliveryJob.complete_of_called below fun _ => meets)
  · cases moves

theorem finish_accounting (moves : s.attemptStep job a t (.finish a) = some s') :
    Accounting job s' := by
  simp only [attemptStep] at moves
  split at moves
  · rename_i phase
    have complete : job.Complete s.called := covered.inPhase phase
    split at moves
    · split at moves
      · cases moves
        exact h.stay covered trivial
      · cases moves
        exact h.conclude covered fun _ => complete
    · cases moves
      exact h.conclude covered fun _ => complete
  · cases moves

theorem throws_accounting (moves : s.attemptStep job a t (.throws a) = some s') :
    Accounting job s' := by
  simp only [attemptStep] at moves
  split at moves
  iterate 5
    cases moves
    exact h.stay covered trivial
  cases moves

theorem handle_accounting (meets : s.AttemptMeets job t (.handle a))
    (moves : s.attemptStep job a t (.handle a) = some s') : Accounting job s' := by
  simp only [attemptStep] at moves
  split at moves
  · rename_i phase
    split at moves
    · cases moves
      exact h.conclude covered fun ended => absurd rfl ended
    · rename_i exhausted
      cases moves
      apply h.stay covered
      split
      · rename_i resolved
        exact DeliveryJob.complete_of_called (covered.2 resolved)
          (meets phase (Nat.not_lt.mp exhausted) resolved)
      · trivial
  · cases moves

include regular in
theorem reconcile_accounting {call : QuotaCall} {assistantFound : Bool}
    (meets : s.AttemptMeets job t (.reconcile a call assistantFound))
    (moves : s.attemptStep job a t (.reconcile a call assistantFound) = some s') :
    Accounting job s' := by
  simp only [attemptStep] at moves
  split at moves
  · rename_i phase
    cases reservation : job.reservation with
    | none =>
      simp only [reservation] at moves
      cases moves
      exact h.stay covered (DeliveryJob.complete_of_none regular reservation)
    | some reserved =>
      simp only [reservation] at moves
      cases moves
      simp only [AttemptMeets, reservation] at meets
      have meets := meets phase
      split at meets
      · rename_i found
        rw [if_pos found]
        have units : job.worth .whole = reserved.units := by
          simp [DeliveryJob.worth, DeliveryJob.units, reservation]
        apply h.serve covered (.inl rfl) (by rw [units]; rfl)
          (by rw [units]; exact reserved.units_pos) meets
        exact DeliveryJob.complete_of_whole List.mem_cons_self
      · rename_i missing
        rw [if_neg missing]
        exact h.stay covered meets
  · cases moves

theorem fail_accounting {noticeDelivered : Bool}
    (moves : s.attemptStep job a t (.fail a noticeDelivered) = some s') : Accounting job s' := by
  simp only [attemptStep] at moves
  split at moves
  · rename_i phase
    have complete : job.Complete s.called := covered.inPhase phase
    cases moves
    exact h.conclude covered fun _ => complete
  · cases moves

end

theorem attemptStep_accounting (regular : job.Regular) (h : Accounting job s) {e : DeliveryEvent}
    (own : e.attempt = some a) (found : s.attempts.get? a = some t)
    (meets : s.AttemptMeets job t e) (moves : s.attemptStep job a t e = some s') :
    Accounting job s' := by
  have covered := h.attempts a t found
  cases e with
  | read => cases own; exact read_accounting h covered moves
  | prepare => cases own; exact prepare_accounting h covered moves
  | persist => cases own; exact persist_accounting h covered meets moves
  | send => cases own; exact send_accounting h covered moves
  | settle => cases own; exact settle_accounting h covered meets moves
  | mark => cases own; exact mark_accounting h covered meets moves
  | release => cases own; exact release_accounting h covered meets moves
  | finish => cases own; exact finish_accounting h covered moves
  | throws => cases own; exact throws_accounting h covered moves
  | handle => cases own; exact handle_accounting h covered meets moves
  | reconcile => cases own; exact reconcile_accounting regular h covered meets moves
  | fail => cases own; exact fail_accounting h covered moves
  | claim | lapse | other => cases own

/-- A new attempt is past nothing. -/
theorem claimJob_accounting (h : Accounting job s) (a : Nat) : Accounting job (s.claimJob a) := by
  unfold claimJob
  split
  · split
    · rename_i attempts created
      refine ⟨⟨h.books.moved, h.books.once, h.books.debits, h.books.handedOver, h.books.ended⟩, ?_⟩
      intro b u found
      simp only [KeyedTable.get?_create created] at found
      split at found
      · cases found
        exact ⟨trivial, fun resolved => nomatch resolved⟩
      · exact h.attempts b u found
    · exact h
  · exact h

theorem accounting_step (regular : job.Regular) (h : Accounting job s) (e : DeliveryEvent)
    (meets : s.Meets job e) : Accounting job (step job s e) := by
  have byAttempt (b : Nat) (own : e.attempt = some b) :
      Accounting job (((s.attempts.get? b).bind fun t => s.attemptStep job b t e).getD s) := by
    cases moves : (s.attempts.get? b).bind fun t => s.attemptStep job b t e with
    | none => exact h
    | some s' =>
      obtain ⟨t, found, moves⟩ := Option.bind_eq_some_iff.mp moves
      simp only [Meets, own] at meets
      exact attemptStep_accounting regular h own found (meets t found) moves
  cases e with
  | claim b => exact claimJob_accounting h b
  | lapse =>
    exact ⟨⟨h.books.moved, h.books.once, h.books.debits, h.books.handedOver, h.books.ended⟩,
      h.attempts⟩
  | other operation =>
    exact ⟨⟨h.books.moved, h.books.once, h.books.debits, h.books.handedOver, h.books.ended⟩,
      h.attempts⟩
  | _ => exact byAttempt _ rfl

theorem start_accounting (job : DeliveryJob) : Accounting job job.start := by
  unfold DeliveryJob.start
  split
  · refine ⟨⟨?_, .inl rfl, List.nodup_nil, fun _ => List.mem_cons_self, ?_⟩, ?_⟩
    · simp [DeliveryJob.worth]
    · exact fun _ => DeliveryJob.complete_of_whole List.mem_cons_self
    · intro a t found
      simp at found
  · rename_i own
    refine ⟨⟨rfl, .inr ⟨List.nodup_nil, List.nil_subset _⟩, List.nodup_nil, ?_, ?_⟩, ?_⟩
    · exact fun handed => absurd handed own
    · exact fun ended => absurd rfl ended
    · intro a t found
      simp at found

end DeliveryState

end

/-- Three images were asked for, and two came out. -/
def threeImages (surface : Surface) : DeliveryJob where
  workspaceId := 7
  surface := surface
  requestReadable := true
  reservation := some ⟨.imageGenerate, 3, by decide⟩
  artifacts := [.imageGenerate, .imageGenerate]
  maxAttempts := 3

def quotaCall : QuotaCall := { period := ⟨0, 100⟩, limitUnits := some 20 }

/-- Its units are reserved, and three of another job on the same counter. -/
def reserveBoth : List DeliveryEvent :=
  [.other (.reserve ⟨⟨7, .imageGenerate, ⟨0, 100⟩⟩, 3, some 20⟩),
    .other (.reserve ⟨⟨7, .imageGenerate, ⟨0, 100⟩⟩, 3, some 20⟩)]

/-- Both images are sent, and reading the assistant throws; the second attempt finds them
delivered, and releases the third unit. -/
def redelivered : List DeliveryEvent :=
  reserveBoth ++
  [.claim 1, .read 1, .prepare 1 .deliver true,
    .persist 1 .attached, .send 1 true, .settle 1 quotaCall,
    .persist 1 .attached, .send 1 true, .settle 1 quotaCall,
    .throws 1, .handle 1,
    .claim 2, .read 2, .prepare 2 .deliver true,
    .persist 2 .alreadyDelivered, .persist 2 .alreadyDelivered,
    .release 2 quotaCall true, .finish 2]

/-- Without a chat message the images are settled and the third unit is released, and then
the job's row cannot be written; the second attempt does it all again. -/
def settledAgain : List DeliveryEvent :=
  reserveBoth ++
  [.claim 1, .read 1, .prepare 1 .deferred true, .settle 1 quotaCall, .settle 1 quotaCall,
    .release 1 quotaCall true, .throws 1, .handle 1,
    .claim 2, .read 2, .prepare 2 .deferred true, .settle 2 quotaCall, .settle 2 quotaCall,
    .release 2 quotaCall true, .finish 2]

end Persai.MediaQuota
