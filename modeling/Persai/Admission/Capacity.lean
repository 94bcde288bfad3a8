import Mathlib.Data.List.Nodup
import Persai.Runs
import Persai.Admission.Dispatch

/-!
# Admission keeps to its slots and leaves none idle

* `assertPolicy_raw`: every `Policy` is one that `assertPolicy` accepts;
* `select_some`, `select_none`: what the choice of a class means for the slots;
* `Sound`: where requests and slots are between two rounds; `sound_dispatchNext`,
  `sound_step`;
* `conserving_dispatch`: a dispatch leaves no slot that a waiting request could take;
* `admission_sound`: all of this in every state of every run.
-/

namespace Persai.Admission

open Runs Exhaust

theorem total_eq (f : ExecutionClass → Nat) :
    total f = f .interactiveLight + f .interactiveHeavy + f .background := by
  simp [total, executionClasses, Nat.add_assoc]

theorem total_update (f : ExecutionClass → Nat) (k : ExecutionClass) (n : Nat) :
    total (Function.update f k n) + f k = total f + n := by
  cases k <;> simp only [total_eq, Function.update] <;> simp <;> omega

/-- What one class counts for changes with its entry. -/
theorem total_update_map {α : Type} (f : ExecutionClass → α → Nat) (q : ExecutionClass → α)
    (k : ExecutionClass) (x : α) :
    (total fun i => f i (Function.update q k x i)) + f k (q k) =
      (total fun i => f i (q i)) + f k x := by
  have same : (fun i => f i (Function.update q k x i)) =
      Function.update (fun i => f i (q i)) k (f k x) := by
    funext i
    by_cases own : i = k
    · subst own
      simp
    · simp [own]
  rw [same]
  exact total_update (fun i => f i (q i)) k (f k x)

theorem le_total (f : ExecutionClass → Nat) (k : ExecutionClass) : f k ≤ total f := by
  cases k <;> simp only [total_eq] <;> omega

theorem assertPositive_natCast (field : String) {n : Nat} (pos : 0 < n) :
    assertPositive field n = .ok ⟨n, pos⟩ := by
  have : (0 : ℚ) < n := Rat.num_pos.mp (by simpa using pos)
  simp [assertPositive, Rat.isInt, this]

theorem assertSlots_natCast (k : ExecutionClass) (n : Nat) : assertSlots k n = .ok n := by
  have : (0 : ℚ) ≤ n := Rat.num_nonneg.mp (by simp)
  simp [assertSlots, Rat.isInt, this]

theorem perClass_self (f : ExecutionClass → Nat) :
    perClass (f .interactiveLight) (f .interactiveHeavy) (f .background) = f := by
  funext k; cases k <;> rfl

/-- The policies are those that `assertPolicy` accepts. -/
theorem assertPolicy_raw (p : Policy) : assertPolicy p.raw = .ok p := by
  simp only [assertPolicy, Policy.raw, assertPositive_natCast _ p.maxConcurrent_pos,
    assertPositive_natCast _ p.queueTimeoutMs_pos, assertPositive_natCast _ p.maxQueuePerClass_pos,
    assertSlots_natCast, bind, Except.bind, perClass_self, p.reserved_le, dite_true]
  rfl

namespace State

variable {p : Policy} {s : State}

/-- The grants of a class, in the order they were made. -/
def grantsOf (s : State) (k : ExecutionClass) : List Token :=
  s.outcomes.filterMap fun o => if o.2 = .granted k then some o.1 else none

/-- The calls for a class, in the order they came. -/
def arrivalsOf (s : State) (k : ExecutionClass) : List Token :=
  (s.arrivals.filter (·.2 = k)).map Prod.fst

/-- The places a call is at: the outcomes it got and the queues it waits in. -/
def places (s : State) (t : Token) : Nat :=
  (s.outcomes.map Prod.fst).count t + total fun k => (s.queuedByClass k).count t

/-- The shared slots that the classes hold, beyond those reserved for them. -/
def beyondReserved (p : Policy) (s : State) : Nat :=
  total fun k => s.inFlightByClass k - p.reservedSlots k

/-- No slot is free that a waiting request could take. -/
structure Conserving (p : Policy) (s : State) : Prop where
  reserved : ∀ k, s.queuedByClass k ≠ [] → p.reservedSlots k ≤ s.inFlightByClass k
  shared : (∃ k, s.queuedByClass k ≠ []) → p.sharedSlotCapacity ≤ s.beyondReserved p

/-- Where calls, grants and slots are. -/
structure Sound (p : Policy) (s : State) : Prop where
  arrived : (s.arrivals.map Prod.fst).Nodup
  once : ∀ t, s.places t = (s.arrivals.map Prod.fst).count t
  order : ∀ k, (s.grantsOf k ++ s.queuedByClass k).Sublist (s.arrivalsOf k)
  held : ∀ k, s.inFlightByClass k = ((s.grantsOf k).filter (· ∉ s.released)).length
  released : ∀ t ∈ s.released, s.settled t
  shared : s.beyondReserved p ≤ p.sharedSlotCapacity

theorem sharedSlotsInUse_eq (p : Policy) (s : State) :
    s.sharedSlotsInUse p = s.beyondReserved p := by
  simp only [sharedSlotsInUse, totalInFlightCount, reservedSlotsInUse, beyondReserved, total_eq]
  omega

theorem mem_classesWithQueuedRequests {k : ExecutionClass} :
    k ∈ s.classesWithQueuedRequests ↔ s.queuedByClass k ≠ [] := by
  cases k <;> simp [classesWithQueuedRequests, sharedOrder, List.length_pos_iff]

theorem pick_mem {candidates : List ExecutionClass} {cursor next : Nat} {k : ExecutionClass}
    (picked : pickRoundRobinCandidate candidates cursor = some (k, next)) : k ∈ candidates := by
  unfold pickRoundRobinCandidate at picked
  split at picked
  · cases picked
  · obtain found | ⟨-, head⟩ := Option.or_eq_some_iff.mp picked
    · obtain ⟨offset, -, chosen⟩ := List.exists_of_findSome?_eq_some found
      dsimp only at chosen
      split at chosen
      · split at chosen
        · rename_i member
          cases chosen
          exact member
        · cases chosen
      · cases chosen
    · obtain ⟨k', first, eq⟩ := Option.map_eq_some_iff.mp head
      cases eq
      exact List.mem_of_head? first

theorem pick_none {candidates : List ExecutionClass} {cursor : Nat}
    (none : pickRoundRobinCandidate candidates cursor = none) : candidates = [] := by
  unfold pickRoundRobinCandidate at none
  split at none
  · exact List.length_eq_zero_iff.mp ‹_›
  · simpa using (Option.or_eq_none_iff.mp none).2

/-- The chosen class has a request waiting and a slot for it. -/
theorem select_some {k : ExecutionClass} {cursor : Nat}
    (selected : s.selectNextDispatchClass p = some (k, cursor)) :
    s.queuedByClass k ≠ [] ∧
    (s.inFlightByClass k < p.reservedSlots k ∨ s.beyondReserved p < p.sharedSlotCapacity) := by
  unfold selectNextDispatchClass at selected
  dsimp only at selected
  split at selected
  · obtain ⟨queued, reserved⟩ := List.mem_filter.mp (pick_mem selected)
    exact ⟨mem_classesWithQueuedRequests.mp queued, .inl (of_decide_eq_true reserved)⟩
  · split at selected
    · cases selected
    · rename_i free
      split at selected
      · cases selected
      · rw [sharedSlotsInUse_eq] at free
        exact ⟨mem_classesWithQueuedRequests.mp (pick_mem selected), .inr (Nat.not_le.mp free)⟩

/-- Where no class is chosen, no slot is left that a request could take. -/
theorem select_none (none : s.selectNextDispatchClass p = none) : s.Conserving p := by
  unfold selectNextDispatchClass at none
  dsimp only at none
  split at none
  · rename_i some'
    rw [pick_none none] at some'
    exact absurd some' (Nat.lt_irrefl 0)
  · rename_i noReserved
    have empty := List.length_eq_zero_iff.mp (Nat.eq_zero_of_not_pos noReserved)
    constructor
    · intro k queued
      rw [List.filter_eq_nil_iff] at empty
      simpa using empty k (mem_classesWithQueuedRequests.mpr queued)
    · rintro ⟨k, queued⟩
      have member := mem_classesWithQueuedRequests.mpr queued
      split at none
      · rename_i full
        rwa [sharedSlotsInUse_eq] at full
      · split at none
        · rename_i nobody
          rw [List.length_eq_zero_iff.mp nobody] at member
          cases member
        · rw [pick_none none] at member
          cases member

/-- The first request of a queue gets a slot. -/
def grant (s : State) (k : ExecutionClass) (t : Token) (queue : List Token) (cursor : Nat) :
    State :=
  { s with
    queuedByClass := Function.update s.queuedByClass k queue
    inFlightByClass := Function.update s.inFlightByClass k (s.inFlightByClass k + 1)
    roundRobinCursor := cursor
    outcomes := s.outcomes ++ [(t, .granted k)] }

theorem settled_append {t : Token} (settled : s.settled t) {s' : State} {o : Token × Outcome}
    (outcomes : s'.outcomes = s.outcomes ++ [o]) : s'.settled t := by
  rw [State.settled, outcomes, List.map_append]
  exact List.mem_append_left _ settled

theorem grantsOf_append {s' : State} {o : Token × Outcome}
    (outcomes : s'.outcomes = s.outcomes ++ [o]) (k : ExecutionClass) :
    s'.grantsOf k = s.grantsOf k ++ if o.2 = .granted k then [o.1] else [] := by
  rw [grantsOf, grantsOf, outcomes, List.filterMap_append]
  split <;> simp [*]

/-- A call that waits has no outcome, and waits once. -/
theorem Sound.waiting (sound : s.Sound p) {k : ExecutionClass} {t : Token}
    (queued : t ∈ s.queuedByClass k) :
    ¬ s.settled t ∧ (s.queuedByClass k).count t = 1 := by
  have once := sound.once t
  have arrived := List.nodup_iff_count_le_one.mp sound.arrived t
  have waits := List.count_pos_iff.mpr queued
  have counted := le_total (fun i => (s.queuedByClass i).count t) k
  rw [places] at once
  constructor
  · rw [settled, ← List.count_eq_zero]
    omega
  · omega

/-- A round of the loop grants a slot to the first request of the chosen class. -/
theorem dispatchNext_grant (sound : s.Sound p) {s' : State} (round : s.dispatchNext p = some s') :
    ∃ k t queue cursor, s.selectNextDispatchClass p = some (k, cursor) ∧
      s.queuedByClass k = t :: queue ∧ s' = s.grant k t queue cursor := by
  unfold dispatchNext at round
  split at round
  · obtain ⟨⟨k, cursor⟩, selected, rfl⟩ := Option.map_eq_some_iff.mp round
    cases queued : s.queuedByClass k with
    | nil => exact absurd queued (select_some selected).1
    | cons t queue =>
      have unsettled := (sound.waiting (k := k) (t := t) (by simp [queued])).1
      refine ⟨k, t, queue, cursor, selected, queued, ?_⟩
      have unsettled' : ∀ s' : State, s'.outcomes = s.outcomes → ¬ s'.settled t :=
        fun s' same => by rwa [State.settled, same]
      simp [queued, settle, setQueue, setInFlight, grant, unsettled']
  · cases round

/-- The request waits, and there is a slot for it. -/
theorem dispatchNext_some (sound : s.Sound p) {s' : State} (round : s.dispatchNext p = some s') :
    ∃ k t queue cursor, s.queuedByClass k = t :: queue ∧ s' = s.grant k t queue cursor ∧
      (s.inFlightByClass k < p.reservedSlots k ∨ s.beyondReserved p < p.sharedSlotCapacity) := by
  obtain ⟨k, t, queue, cursor, selected, queued, rfl⟩ := dispatchNext_grant sound round
  exact ⟨k, t, queue, cursor, queued, rfl, (select_some selected).2⟩

theorem sound_grant (sound : s.Sound p) {k : ExecutionClass} {t : Token} {queue : List Token}
    {cursor : Nat} (queued : s.queuedByClass k = t :: queue)
    (slot : s.inFlightByClass k < p.reservedSlots k ∨
      s.beyondReserved p < p.sharedSlotCapacity) :
    (s.grant k t queue cursor).Sound p := by
  obtain ⟨unsettled, -⟩ := sound.waiting (k := k) (t := t) (by simp [queued])
  have outcomes : (s.grant k t queue cursor).outcomes = s.outcomes ++ [(t, .granted k)] := rfl
  constructor
  · exact sound.arrived
  · intro u
    have once := sound.once u
    have moved := total_update_map (fun _ q => q.count u) s.queuedByClass k queue
    simp only [places, grant, List.map_append, List.count_append, List.map_cons, List.map_nil,
      queued, List.count_cons, List.count_nil] at once moved ⊢
    omega
  · intro i
    have order := sound.order i
    rw [grantsOf_append outcomes]
    by_cases same : i = k
    · subst same
      rw [queued] at order
      simpa [grant, arrivalsOf] using order
    · simpa [grant, arrivalsOf, same, Ne.symm same] using order
  · intro i
    have held := sound.held i
    rw [grantsOf_append outcomes]
    by_cases same : i = k
    · subst same
      have unreleased : t ∉ s.released := fun released => unsettled (sound.released t released)
      simp [grant, held, unreleased]
    · have inFlight : (s.grant k t queue cursor).inFlightByClass i = s.inFlightByClass i := by
        simp [grant, same]
      have other : Outcome.granted k ≠ .granted i := fun eq => same (Outcome.granted.inj eq).symm
      rw [inFlight, if_neg other, List.append_nil]
      exact held
  · exact fun u released => settled_append (sound.released u released) outcomes
  · have shared := sound.shared
    have moved := total_update_map (fun i n => n - p.reservedSlots i) s.inFlightByClass k
      (s.inFlightByClass k + 1)
    simp only [beyondReserved, grant] at shared slot moved ⊢
    omega

theorem sound_dispatchNext {s' : State} (sound : s.Sound p)
    (round : s.dispatchNext p = some s') : s'.Sound p := by
  obtain ⟨k, t, queue, cursor, queued, rfl, slot⟩ := dispatchNext_some sound round
  exact sound_grant sound queued slot

theorem sound_dispatch (sound : s.Sound p) : (s.dispatchQueuedRequests p).Sound p :=
  exhaust_preserved (fun _ _ => sound_dispatchNext) _ sound

/-- Each round takes a request out of its queue. -/
theorem dispatchNext_lower {s' : State} (sound : s.Sound p) (round : s.dispatchNext p = some s') :
    (total fun k => (s'.queuedByClass k).length) <
      total fun k => (s.queuedByClass k).length := by
  obtain ⟨k, t, queue, cursor, queued, rfl, -⟩ := dispatchNext_some sound round
  have moved := total_update_map (fun _ q => q.length) s.queuedByClass k queue
  simp only [grant, queued, List.length_cons] at moved ⊢
  omega

/-- Where the loop ends, no slot is left that a request could take: either no class was
chosen, or all slots are taken, reserved and shared. -/
theorem conserving_of_end (sound : s.Sound p) (ended : s.dispatchNext p = none) :
    s.Conserving p := by
  unfold dispatchNext at ended
  split at ended
  · exact select_none (Option.map_eq_none_iff.mp ended)
  · rename_i full
    have shared := sound.shared
    have reserved := p.reserved_le
    rw [totalInFlightCount] at full
    rw [beyondReserved] at shared
    simp only [Policy.sharedSlotCapacity, total_eq] at *
    constructor
    · intro k _
      cases k <;> omega
    · intro _
      simp only [Policy.sharedSlotCapacity, beyondReserved, total_eq]
      omega

theorem conserving_dispatch (sound : s.Sound p) :
    (s.dispatchQueuedRequests p).Conserving p :=
  conserving_of_end (sound_dispatch sound)
    (exhaust_ends (fun _ _ => sound_dispatchNext) (fun _ _ => dispatchNext_lower) sound
      (Nat.lt_succ_self _))

/-- More rounds than there are requests change nothing. -/
theorem dispatch_enough (sound : s.Sound p) {n : Nat}
    (more : (total fun k => (s.queuedByClass k).length) < n) :
    exhaust (dispatchNext p) n s = s.dispatchQueuedRequests p :=
  exhaust_enough (fun _ _ => sound_dispatchNext) (fun _ _ => dispatchNext_lower) sound
    (Nat.lt_succ_self _) more

theorem arrivalsOf_append {s' : State} {t : Token} {k : ExecutionClass}
    (arrivals : s'.arrivals = s.arrivals ++ [(t, k)]) (i : ExecutionClass) :
    s'.arrivalsOf i = s.arrivalsOf i ++ if k = i then [t] else [] := by
  rw [arrivalsOf, arrivalsOf, arrivals, List.filter_append, List.map_append]
  by_cases same : k = i <;> simp [same]

theorem arrived_append (sound : s.Sound p) {t : Token} (fresh : t ∉ s.arrivals.map Prod.fst)
    (k : ExecutionClass) : ((s.arrivals ++ [(t, k)]).map Prod.fst).Nodup := by
  rw [List.map_append, List.nodup_append]
  refine ⟨sound.arrived, by simp, ?_⟩
  rintro a arrived b last rfl
  rw [List.map_singleton, List.mem_singleton] at last
  rw [last] at arrived
  exact fresh arrived

/-- A new call waits at the end of its queue. -/
theorem sound_enqueue (sound : s.Sound p) {t : Token} (fresh : t ∉ s.arrivals.map Prod.fst)
    (k : ExecutionClass) :
    ({ s with arrivals := s.arrivals ++ [(t, k)] }.setQueue k
      (s.queuedByClass k ++ [t])).Sound p := by
  constructor
  · exact arrived_append sound fresh k
  · intro u
    have once := sound.once u
    have moved := total_update_map (fun _ q => q.count u) s.queuedByClass k
      (s.queuedByClass k ++ [t])
    simp only [places, setQueue, List.map_append, List.count_append, List.map_cons,
      List.map_nil] at once moved ⊢
    omega
  · intro i
    have order := sound.order i
    rw [arrivalsOf_append (s := s) rfl]
    by_cases same : i = k
    · subst same
      simpa [setQueue, grantsOf] using order.append (List.Sublist.refl [t])
    · simpa [setQueue, grantsOf, same, Ne.symm same] using order
  · exact sound.held
  · exact sound.released
  · exact sound.shared

/-- A call whose queue is full is answered at once. -/
theorem sound_reject (sound : s.Sound p) {t : Token} (fresh : t ∉ s.arrivals.map Prod.fst)
    (k : ExecutionClass) :
    Sound p { s with
      arrivals := s.arrivals ++ [(t, k)]
      outcomes := s.outcomes ++ [(t, .queueFull)] } := by
  constructor
  · exact arrived_append sound fresh k
  · intro u
    have once := sound.once u
    simp only [places, List.map_append, List.count_append, List.map_cons, List.map_nil] at once ⊢
    omega
  · intro i
    rw [arrivalsOf_append (s := s) rfl, grantsOf_append (s := s) rfl, if_neg nofun,
      List.append_nil]
    exact (sound.order i).trans (List.sublist_append_left ..)
  · intro i
    rw [grantsOf_append (s := s) rfl, if_neg nofun, List.append_nil]
    exact sound.held i
  · exact fun u released => settled_append (sound.released u released) rfl
  · exact sound.shared

/-- A request whose timer fires leaves its queue. -/
theorem sound_timeout (sound : s.Sound p) {t : Token} {k : ExecutionClass}
    (queued : t ∈ s.queuedByClass k) :
    Sound p { s with
      queuedByClass := Function.update s.queuedByClass k ((s.queuedByClass k).erase t)
      outcomes := s.outcomes ++ [(t, .timedOut)] } := by
  constructor
  · exact sound.arrived
  · intro u
    have once := sound.once u
    have moved := total_update_map (fun _ q => q.count u) s.queuedByClass k
      ((s.queuedByClass k).erase t)
    have waits := (sound.waiting queued).2
    simp only [places, List.map_append, List.count_append, List.map_cons, List.map_nil,
      List.count_cons, List.count_nil, List.count_erase] at once moved ⊢
    by_cases same : u = t
    · subst same; simp at moved ⊢; omega
    · simp [Ne.symm same] at moved ⊢; omega
  · intro i
    rw [grantsOf_append (s := s) rfl, if_neg nofun, List.append_nil]
    by_cases same : i = k
    · subst same
      dsimp only
      rw [Function.update_self]
      exact (List.erase_sublist.append_left _).trans (sound.order i)
    · dsimp only
      rw [Function.update_of_ne same]
      exact sound.order i
  · intro i
    rw [grantsOf_append (s := s) rfl, if_neg nofun, List.append_nil]
    exact sound.held i
  · exact fun u released => settled_append (sound.released u released) rfl
  · exact sound.shared

theorem mem_grantsOf {t : Token} {k : ExecutionClass} :
    t ∈ s.grantsOf k ↔ (t, .granted k) ∈ s.outcomes := by
  simp only [grantsOf, List.mem_filterMap]
  constructor
  · rintro ⟨o, member, eq⟩
    split at eq
    · rename_i granted
      rw [← granted, ← Option.some.inj eq]
      exact member
    · cases eq
  · exact fun member => ⟨_, member, by simp⟩

theorem Sound.one_outcome (sound : s.Sound p) {t : Token} {o o' : Outcome}
    (first : (t, o) ∈ s.outcomes) (second : (t, o') ∈ s.outcomes) : o = o' := by
  have nodup : (s.outcomes.map Prod.fst).Nodup := List.nodup_iff_count_le_one.mpr fun u => by
    have once := sound.once u
    have arrived := List.nodup_iff_count_le_one.mp sound.arrived u
    rw [places] at once
    omega
  exact congrArg Prod.snd (List.inj_on_of_nodup_map nodup first second rfl)

theorem Sound.grants_nodup (sound : s.Sound p) (k : ExecutionClass) : (s.grantsOf k).Nodup := by
  have arrived : (s.arrivalsOf k).Nodup :=
    sound.arrived.sublist (List.filter_sublist.map Prod.fst)
  exact arrived.sublist ((List.sublist_append_left ..).trans (sound.order k))

/-- A release takes one of the grants that are held. -/
theorem held_release {l released : List Token} {t : Token} (nodup : l.Nodup)
    (held : t ∉ released) :
    (l.filter (· ∉ released ++ [t])).length + (if t ∈ l then 1 else 0) =
      (l.filter (· ∉ released)).length := by
  have erased : l.filter (· ∉ released ++ [t]) = (l.filter (· ∉ released)).erase t := by
    rw [(nodup.filter _).erase_eq_filter, List.filter_filter]
    refine List.filter_congr fun u _ => ?_
    by_cases same : u = t <;> simp [same]
  rw [erased, List.length_erase]
  by_cases member : t ∈ l
  · have kept : t ∈ l.filter (· ∉ released) := List.mem_filter.mpr ⟨member, by simpa using held⟩
    have := List.length_pos_of_mem kept
    rw [if_pos kept, if_pos member]
    omega
  · have gone : t ∉ l.filter (· ∉ released) := fun kept => member (List.mem_filter.mp kept).1
    rw [if_neg gone, if_neg member]
    rfl

/-- The holder of a grant gives its slot back. -/
theorem sound_release (sound : s.Sound p) {t : Token} {k : ExecutionClass}
    (granted : (t, .granted k) ∈ s.outcomes) (unreleased : t ∉ s.released) :
    0 < s.inFlightByClass k ∧
    ({ s with released := s.released ++ [t] }.setInFlight k
      (s.inFlightByClass k - 1)).Sound p := by
  have released (i : ExecutionClass) := held_release (sound.grants_nodup i) unreleased
  have mine : t ∈ s.grantsOf k := mem_grantsOf.mpr granted
  have positive : 0 < s.inFlightByClass k := by
    have := released k
    rw [if_pos mine, ← sound.held k] at this
    omega
  refine ⟨positive, sound.arrived, sound.once, sound.order, ?_, ?_, ?_⟩
  · intro i
    have released := released i
    rw [← sound.held i] at released
    by_cases same : i = k
    · subst same
      rw [if_pos mine] at released
      have after := Nat.eq_sub_of_add_eq released
      simpa [setInFlight, grantsOf] using after.symm
    · have other : t ∉ s.grantsOf i := fun member =>
        same (Outcome.granted.inj (sound.one_outcome (mem_grantsOf.mp member) granted))
      rw [if_neg other, Nat.add_zero] at released
      simpa [setInFlight, grantsOf, same] using released.symm
  · intro u released
    obtain before | now := List.mem_append.mp released
    · exact sound.released u before
    · rw [List.mem_singleton.mp now]
      exact List.mem_map.mpr ⟨_, granted, rfl⟩
  · have shared := sound.shared
    refine Nat.le_trans ?_ shared
    simp only [beyondReserved, setInFlight, total_eq]
    cases k <;> simp [Function.update] <;> omega

/-- Fewer requests wait for the same slots. -/
theorem Conserving.fewer {s' : State} (conserving : s.Conserving p)
    (inFlight : s'.inFlightByClass = s.inFlightByClass)
    (fewer : ∀ k, s'.queuedByClass k ≠ [] → s.queuedByClass k ≠ []) : s'.Conserving p := by
  constructor
  · intro k queued
    rw [inFlight]
    exact conserving.reserved k (fewer k queued)
  · rintro ⟨k, queued⟩
    rw [beyondReserved, inFlight]
    exact conserving.shared ⟨k, fewer k queued⟩

theorem mem_outcomes_of_lookup {t : Token} {o : Outcome} (found : s.outcomes.lookup t = some o) :
    (t, o) ∈ s.outcomes := by
  obtain ⟨before, after, split, -⟩ := List.lookup_eq_some_iff.mp found
  rw [split]
  exact List.mem_append_right _ (List.mem_cons_self ..)

/-- A call that has arrived waits in the queue of its class only. -/
theorem Sound.class_of_queued (sound : s.Sound p) {t : Token} {k i : ExecutionClass}
    (found : s.arrivals.lookup t = some k) (queued : t ∈ s.queuedByClass i) : i = k := by
  obtain ⟨before, after, split, -⟩ := List.lookup_eq_some_iff.mp found
  have arrived : (t, k) ∈ s.arrivals := by
    rw [split]
    exact List.mem_append_right _ (List.mem_cons_self ..)
  have ordered := (sound.order i).subset (List.mem_append_right _ queued)
  obtain ⟨⟨t', i'⟩, member, rfl⟩ := List.mem_map.mp ordered
  obtain ⟨member, class'⟩ := List.mem_filter.mp member
  have same := List.inj_on_of_nodup_map sound.arrived member arrived rfl
  rw [← of_decide_eq_true class']
  exact congrArg Prod.snd same

theorem timeout_queued (sound : s.Sound p) {t : Token} {k : ExecutionClass}
    (queued : t ∈ s.queuedByClass k) :
    s.timeout t k = { s with
      queuedByClass := Function.update s.queuedByClass k ((s.queuedByClass k).erase t)
      outcomes := s.outcomes ++ [(t, .timedOut)] } := by
  have unsettled : ¬ (s.setQueue k ((s.queuedByClass k).erase t)).settled t :=
    (sound.waiting queued).1
  rw [timeout, if_pos queued, settle, if_neg unsettled]
  rfl

theorem heldGrant_some {t : Token} {k : ExecutionClass} (held : s.heldGrant t = some k) :
    (t, .granted k) ∈ s.outcomes ∧ t ∉ s.released := by
  unfold heldGrant at held
  split at held
  · rename_i k' found
    split at held
    · cases held
    · cases held
      exact ⟨mem_outcomes_of_lookup found, ‹_›⟩
  · cases held

/-- What a call, a release and a timer leave behind. -/
theorem sound_step (sound : s.Sound p) (conserving : s.Conserving p) (e : Event) :
    (s.step p e).Sound p ∧ (s.step p e).Conserving p := by
  cases e with
  | acquire t k =>
    simp only [step]
    split
    · exact ⟨sound, conserving⟩
    · rename_i fresh
      unfold acquire
      dsimp only
      split
      · exact ⟨sound_reject sound fresh k, conserving.fewer rfl fun _ => id⟩
      · have queued := sound_enqueue sound fresh k
        exact ⟨sound_dispatch queued, conserving_dispatch queued⟩
  | release t =>
    simp only [step]
    split
    · rename_i k held
      obtain ⟨granted, unreleased⟩ := heldGrant_some held
      obtain ⟨positive, freed⟩ := sound_release sound granted unreleased
      rw [release, if_pos positive]
      exact ⟨sound_dispatch freed, conserving_dispatch freed⟩
    · exact ⟨sound, conserving⟩
  | timeout t =>
    simp only [step]
    split
    · rename_i k found
      by_cases queued : t ∈ s.queuedByClass k
      · rw [timeout_queued sound queued]
        refine ⟨sound_timeout sound queued, conserving.fewer rfl fun i waiting => ?_⟩
        by_cases same : i = k
        · subst same
          exact List.ne_nil_of_mem queued
        · simpa [same] using waiting
      · rw [timeout, if_neg queued]
        exact ⟨sound, conserving⟩
    · exact ⟨sound, conserving⟩

/-- The slots in use, of all classes and of the shared ones, are within the policy. -/
def WithinCapacity (p : Policy) (s : State) : Prop :=
  s.totalInFlightCount ≤ p.maxConcurrent ∧ s.beyondReserved p ≤ p.sharedSlotCapacity

/-- A call waits, or it has its one outcome. -/
def OneOutcome (s : State) : Prop := ∀ t ∈ s.arrivals.map Prod.fst, s.places t = 1

/-- Grants of a class are made in the order in which its calls, all of them different, came. -/
def InOrder (s : State) : Prop :=
  (s.arrivals.map Prod.fst).Nodup ∧ ∀ k, (s.grantsOf k).Sublist (s.arrivalsOf k)

/-- The slots in use of a class are its grants that were not released. -/
def Held (s : State) : Prop :=
  ∀ k, s.inFlightByClass k = ((s.grantsOf k).filter (· ∉ s.released)).length

/-- A call is turned away exactly if it finds its queue full, and its timer leaves no call
waiting. -/
def Answers (p : Policy) (s : State) : Event → Prop
  | .acquire t k =>
    t ∉ s.arrivals.map Prod.fst →
      ((t, .queueFull) ∈ (s.step p (.acquire t k)).outcomes ↔
        p.maxQueuePerClass ≤ (s.queuedByClass k).length)
  | .release _ => True
  | .timeout t => t ∈ s.arrivals.map Prod.fst → (s.step p (.timeout t)).settled t

theorem Sound.withinCapacity (sound : s.Sound p) : s.WithinCapacity p := by
  refine ⟨?_, sound.shared⟩
  have shared := sound.shared
  have reserved := p.reserved_le
  simp only [totalInFlightCount, beyondReserved, Policy.sharedSlotCapacity, total_eq] at *
  omega

theorem Sound.oneOutcome (sound : s.Sound p) : s.OneOutcome := fun t arrived => by
  rw [sound.once t]
  exact List.count_eq_one_of_mem sound.arrived arrived

theorem Sound.inOrder (sound : s.Sound p) : s.InOrder :=
  ⟨sound.arrived, fun k => (List.sublist_append_left ..).trans (sound.order k)⟩

/-- A dispatch turns nobody away. -/
theorem dispatch_outcomes (sound : s.Sound p) {t : Token} (absent : (t, .queueFull) ∉ s.outcomes) :
    (t, .queueFull) ∉ (s.dispatchQueuedRequests p).outcomes := by
  have kept (s s' : State) (holds : s.Sound p ∧ (t, .queueFull) ∉ s.outcomes)
      (round : s.dispatchNext p = some s') :
      s'.Sound p ∧ (t, .queueFull) ∉ s'.outcomes := by
    obtain ⟨sound, absent⟩ := holds
    refine ⟨sound_dispatchNext sound round, ?_⟩
    obtain ⟨k, u, queue, cursor, -, rfl, -⟩ := dispatchNext_some sound round
    simpa [grant] using absent
  exact (exhaust_preserved kept _ ⟨sound, absent⟩).2

theorem Sound.answers (sound : s.Sound p) (e : Event) : s.Answers p e := by
  cases e with
  | acquire t k =>
    intro fresh
    simp only [step, if_neg fresh, acquire]
    split
    · rename_i full
      exact iff_of_true (List.mem_append_right _ (List.mem_singleton.mpr rfl)) full
    · rename_i room
      refine iff_of_false (dispatch_outcomes (sound_enqueue sound fresh k) fun member => ?_) room
      -- a call that is new has no outcome
      have once := sound.once t
      have some' : 0 < (s.outcomes.map Prod.fst).count t :=
        List.count_pos_iff.mpr (List.mem_map.mpr ⟨_, member, rfl⟩)
      rw [List.count_eq_zero.mpr fresh, places] at once
      omega
  | release t => trivial
  | timeout t =>
    intro arrived
    have one := sound.oneOutcome t arrived
    obtain ⟨k, found⟩ : ∃ k, s.arrivals.lookup t = some k := by
      obtain ⟨a, member, rfl⟩ := List.mem_map.mp arrived
      rw [← Option.isSome_iff_exists, ← Option.not_isNone, Bool.not_eq_true',
        ← Bool.not_eq_true, Option.isNone_iff_eq_none, List.lookup_eq_none_iff]
      exact fun none => by simpa using none a member
    simp only [step, found]
    by_cases queued : t ∈ s.queuedByClass k
    · rw [timeout_queued sound queued, settled]
      simp
    · rw [timeout, if_neg queued, settled, ← List.count_pos_iff]
      have nowhere : (total fun i => (s.queuedByClass i).count t) = 0 := by
        have absent (i : ExecutionClass) : (s.queuedByClass i).count t = 0 := by
          rw [List.count_eq_zero]
          intro queued'
          rw [sound.class_of_queued found queued'] at queued'
          exact queued queued'
        simp only [total_eq, absent]
      rw [places] at one
      omega

theorem sound_start (p : Policy) : ({} : State).Sound p ∧ ({} : State).Conserving p := by
  refine ⟨⟨List.nodup_nil, fun t => ?_, fun k => .slnil, fun k => rfl, nofun, ?_⟩, ?_, ?_⟩
  · simp [places, total_eq]
  · simp [beyondReserved, total_eq]
  · exact fun k queued => absurd rfl queued
  · exact fun ⟨k, queued⟩ => absurd rfl queued

end State

/-- Under every policy and over every run of calls, releases and timers: the slots in use
stay within the capacity, none is idle that a waiting request could take, each call has
one outcome or waits, classes are served in order, and the slots in use are the grants
held. -/
theorem admission_sound (p : Policy) (es : List Event) :
    EveryState (State.step p)
      (fun s => s.WithinCapacity p ∧ s.Conserving p ∧ s.OneOutcome ∧ s.InOrder ∧ s.Held) {} es ∧
    EveryStep (State.step p) (State.Answers p) {} es := by
  have preserved (s : State) (e : Event) (holds : s.Sound p ∧ s.Conserving p) (_ : True) :
      (s.step p e).Sound p ∧ (s.step p e).Conserving p :=
    State.sound_step holds.1 holds.2 e
  have steps : EveryStep (State.step p) (fun _ _ => True) {} es :=
    everyStep_of_forall (fun _ _ => trivial) _ es
  constructor
  · refine everyState_mono ?_ (everyState_of_preserved preserved (State.sound_start p) steps)
    rintro s ⟨sound, conserving⟩
    exact ⟨sound.withinCapacity, conserving, sound.oneOutcome, sound.inOrder, sound.held⟩
  · exact everyStep_of_preserved preserved (fun s e holds _ => holds.1.answers e)
      (State.sound_start p) steps

end Persai.Admission
