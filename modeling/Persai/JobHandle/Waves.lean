import Mathlib.Data.List.Perm.Basic
import Persai.Runs
import Persai.JobHandle.Rows

/-!
# Catch-up waves

A handle that becomes ready joins the open wave of its source message, under the next ordinal, and
all members take the new total. Who has completed or failed in the meantime is still a member, so
that ordinals have no gap and none is given twice.

* `Numbered.stamped`: a new member keeps a wave numbered from 1;
* `Advances`: what a transaction does to the waves, each of them by a write that leaves them alone
  or by a stamp;
* `waves_numbered`: so in every run.
-/

namespace Persai.JobHandle

open Runs Tables

/-- What a handle tells of its wave. -/
structure Wave where
  chatId : Id
  source : Option Id
  ordinal : Option Nat
  total : Option Nat
  waveId : Option Id
  deriving DecidableEq, Repr

def Handle.wave (h : Handle) : Wave :=
  ⟨h.chatId, h.sourceUserMessageId, h.catchUpOrdinal, h.catchUpWaveTotal, h.catchUpWaveId⟩

/-- The members of a wave. -/
def members (rows : List (Id × Wave)) (waveId : Id) : List (Id × Wave) :=
  rows.filter fun r => r.2.waveId = some waveId

/-- The ordinals of each wave are 1 to the number of its members, which all of them have as their
total, and they share one source message. -/
structure WavesNumbered (rows : List (Id × Wave)) : Prop where
  ordinals : ∀ w, ((members rows w).map (·.2.ordinal)).Perm
    ((List.range' 1 (members rows w).length).map some)
  total : ∀ w, ∀ r ∈ members rows w, r.2.total = some (members rows w).length
  source : ∀ w, ∀ r ∈ members rows w, ∀ r' ∈ members rows w, r.2.source = r'.2.source

/-- With it: a wave is within one chat, its members are those with an ordinal, and its id has been
given out. -/
structure Numbered (rows : List (Id × Wave)) (uuid : Nat) : Prop extends WavesNumbered rows where
  chat : ∀ w, ∀ r ∈ members rows w, ∀ r' ∈ members rows w, r.2.chatId = r'.2.chatId
  marked : ∀ r ∈ rows, r.2.ordinal.isSome ↔ r.2.waveId.isSome
  given : ∀ r ∈ rows, ∀ w ∈ r.2.waveId, w < uuid

/-- A row after the stamp of the handle `id`. -/
def restamp (id chatId waveId ordinal : Nat) (r : Id × Wave) : Id × Wave :=
  if r.1 = id then
    (r.1, { r.2 with ordinal := some ordinal, total := some ordinal, waveId := some waveId })
  else if r.2.chatId = chatId ∧ r.2.waveId = some waveId then
    (r.1, { r.2 with total := some ordinal })
  else r

/-- The highest ordinal of a wave in a chat. -/
def highestOrdinal (rows : List (Id × Wave)) (chatId waveId : Id) : Nat :=
  (rows.filter fun r => r.2.chatId = chatId ∧ r.2.waveId = some waveId).foldl
    (fun n r => max n (r.2.ordinal.getD 0)) 0

section

variable {rows : List (Id × Wave)} {uuid id chatId w : Nat}

theorem mem_members {r : Id × Wave} : r ∈ members rows w ↔ r ∈ rows ∧ r.2.waveId = some w := by
  rw [members, List.mem_filter, decide_eq_true_eq]

/-- The highest of the numbers up to a length is the length. -/
theorem foldl_max_range {α : Type} (value : α → Option Nat) (l : List α)
    (numbered : (l.map value).Perm ((List.range' 1 l.length).map some)) :
    l.foldl (fun n a => max n ((value a).getD 0)) 0 = l.length := by
  have fold (n : Nat) : l.foldl (fun n a => max n ((value a).getD 0)) n =
      (l.map value).foldl (fun n o => max n (o.getD 0)) n := by
    rw [List.foldl_map]
  have counted (k n : Nat) : ((List.range' 1 k).map some).foldl (fun n o => max n (o.getD 0)) n =
      max n k := by
    induction k with
    | zero => simp
    | succ k ih =>
      rw [List.range'_1_concat, List.map_append, List.foldl_append, ih]
      simp only [List.map_cons, List.map_nil, List.foldl_cons, List.foldl_nil, Option.getD_some]
      omega
  have commutes : RightCommutative fun (n : Nat) (o : Option Nat) => max n (o.getD 0) :=
    ⟨fun n o o' => by omega⟩
  rw [fold, numbered.foldl_eq, counted, Nat.zero_max]

/-- Where the wave is open in the chat, or new, its highest ordinal is the number of its members. -/
theorem Numbered.highestOrdinal_eq (h : Numbered rows uuid)
    (here : ∀ r ∈ members rows w, r.2.chatId = chatId) :
    highestOrdinal rows chatId w = (members rows w).length := by
  have same : (rows.filter fun r => r.2.chatId = chatId ∧ r.2.waveId = some w) =
      members rows w := by
    refine List.filter_congr fun r mem =>
      decide_eq_decide.mpr (and_iff_right_of_imp fun member => ?_)
    exact here r (mem_members.mpr ⟨mem, member⟩)
  rw [highestOrdinal, same]
  exact foldl_max_range (fun r : Id × Wave => r.2.ordinal) _ (h.ordinals w)

theorem restamp_waveId (chatId w : Id) (ordinal : Nat) {r : Id × Wave} (other : r.1 ≠ id) :
    (restamp id chatId w ordinal r).2.waveId = r.2.waveId ∧
    (restamp id chatId w ordinal r).2.ordinal = r.2.ordinal ∧
    (restamp id chatId w ordinal r).2.source = r.2.source ∧
    (restamp id chatId w ordinal r).2.chatId = r.2.chatId := by
  unfold restamp
  rw [if_neg other]
  split <;> exact ⟨rfl, rfl, rfl, rfl⟩

theorem restamp_of_waveId_ne {r : Id × Wave} {ordinal : Nat} (other : r.1 ≠ id)
    (apart : r.2.waveId ≠ some w) : restamp id chatId w ordinal r = r := by
  unfold restamp
  rw [if_neg other, if_neg fun both => apart both.2]

theorem filter_map_congr {α : Type} {f : α → α} {p : α → Bool} {l : List α}
    (kept : ∀ a ∈ l, p (f a) = p a) : (l.map f).filter p = (l.filter p).map f := by
  rw [List.filter_map]
  exact congrArg _ (List.filter_congr kept)

variable {before after : List (Id × Wave)} {self : Wave} {ordinal : Nat}

theorem ne_id_of_mem (distinct : ((before ++ (id, self) :: after).map Prod.fst).Nodup)
    {r : Id × Wave} (mem : r ∈ before ∨ r ∈ after) : r.1 ≠ id := by
  rw [List.map_append, List.map_cons, List.nodup_append, List.nodup_cons] at distinct
  intro same
  rcases mem with inBefore | inAfter
  · exact distinct.2.2 r.1 (List.mem_map_of_mem inBefore) id List.mem_cons_self same
  · exact distinct.2.1.1 (List.mem_map.mpr ⟨r, inAfter, same⟩)

/-- The handle that is to join is a member of no wave. -/
theorem members_without (alone : self.waveId = none) (v : Id) :
    members (before ++ (id, self) :: after) v = members before v ++ members after v := by
  unfold members
  rw [List.filter_append, List.filter_cons_of_neg (by simp [alone])]

/-- The members of the wave that is joined, and of the others. -/
theorem members_restamp (distinct : ((before ++ (id, self) :: after).map Prod.fst).Nodup)
    (unmarked : self.waveId = none) (v : Id) :
    members ((before ++ (id, self) :: after).map (restamp id chatId w ordinal)) v =
      if v = w then (members before w).map (restamp id chatId w ordinal) ++
        restamp id chatId w ordinal (id, self) ::
          (members after w).map (restamp id chatId w ordinal)
      else members (before ++ (id, self) :: after) v := by
  have otherBefore (r : Id × Wave) (mem : r ∈ before) : r.1 ≠ id := ne_id_of_mem distinct (.inl mem)
  have otherAfter (r : Id × Wave) (mem : r ∈ after) : r.1 ≠ id := ne_id_of_mem distinct (.inr mem)
  have part {l : List (Id × Wave)} (other : ∀ r ∈ l, r.1 ≠ id) :
      members (l.map (restamp id chatId w ordinal)) v =
        (members l v).map (restamp id chatId w ordinal) :=
    filter_map_congr fun r mem => by rw [(restamp_waveId _ _ _ (other r mem)).1]
  have joined : (restamp id chatId w ordinal (id, self)).2.waveId = some w := by
    rw [restamp, if_pos rfl]
  have whole : members ((before ++ (id, self) :: after).map (restamp id chatId w ordinal)) v =
      members (before.map (restamp id chatId w ordinal)) v ++
        (if v = w then [restamp id chatId w ordinal (id, self)] else []) ++
          members (after.map (restamp id chatId w ordinal)) v := by
    unfold members
    rw [List.map_append, List.map_cons, List.filter_append, List.filter_cons, joined]
    by_cases same : v = w
    · simp [same]
    · simp [same, Ne.symm same]
  rw [whole, part otherBefore, part otherAfter]
  by_cases same : v = w
  · subst same
    simp
  · have still {l : List (Id × Wave)} (other : ∀ r ∈ l, r.1 ≠ id) :
        (members l v).map (restamp id chatId w ordinal) = members l v := by
      conv_rhs => rw [← List.map_id (members l v)]
      refine List.map_congr_left fun r mem => ?_
      obtain ⟨mem, member⟩ := mem_members.mp mem
      exact restamp_of_waveId_ne (other r mem) (by rw [member]; simpa using same)
    rw [if_neg same, if_neg same, still otherBefore, still otherAfter, members_without unmarked,
      List.append_nil]

section
variable (distinct : ((before ++ (id, self) :: after).map Prod.fst).Nodup)
  (alone : self.waveId = none)

include distinct alone

/-- A member of the wave that is joined: the new one, or an old one with the new total. -/
theorem member_restamped (mine : self.chatId = chatId)
    (joins : ∀ r ∈ members (before ++ (id, self) :: after) w,
      r.2.chatId = chatId ∧ r.2.source = self.source) {r' : Id × Wave}
    (mem : r' ∈ members ((before ++ (id, self) :: after).map (restamp id chatId w ordinal)) w) :
    r'.2.total = some ordinal ∧ r'.2.source = self.source ∧ r'.2.chatId = chatId := by
  have stamped (r : Id × Wave) (within : r ∈ before ∨ r ∈ after) (member : r.2.waveId = some w) :
      (restamp id chatId w ordinal r).2.total = some ordinal ∧
      (restamp id chatId w ordinal r).2.source = self.source ∧
      (restamp id chatId w ordinal r).2.chatId = chatId := by
    have was : r ∈ members (before ++ (id, self) :: after) w := by
      rw [mem_members, List.mem_append, List.mem_cons]
      exact ⟨within.imp_right .inr, member⟩
    obtain ⟨chat, source⟩ := joins r was
    have other := ne_id_of_mem distinct within
    have kept := restamp_waveId chatId w ordinal other
    refine ⟨?_, kept.2.2.1.trans source, kept.2.2.2.trans chat⟩
    rw [restamp, if_neg other, if_pos ⟨chat, member⟩]
  rw [members_restamp distinct alone, if_pos rfl] at mem
  rcases List.mem_append.mp mem with inBefore | rest
  · obtain ⟨r, was, rfl⟩ := List.mem_map.mp inBefore
    exact stamped r (.inl (mem_members.mp was).1) (mem_members.mp was).2
  · rcases List.mem_cons.mp rest with rfl | inAfter
    · rw [restamp, if_pos rfl]
      exact ⟨rfl, rfl, mine⟩
    · obtain ⟨r, was, rfl⟩ := List.mem_map.mp inAfter
      exact stamped r (.inr (mem_members.mp was).1) (mem_members.mp was).2

/-- The new member takes the number after those of the others. -/
theorem ordinals_restamped {n : Nat}
    (numbered : ((members (before ++ (id, self) :: after) w).map (·.2.ordinal)).Perm
      ((List.range' 1 n).map some)) :
    ((members ((before ++ (id, self) :: after).map (restamp id chatId w (n + 1))) w).map
      (·.2.ordinal)).Perm ((List.range' 1 (n + 1)).map some) := by
  have kept {l : List (Id × Wave)} (within : ∀ r ∈ l, r ∈ before ∨ r ∈ after) :
      ((members l w).map (restamp id chatId w (n + 1))).map (·.2.ordinal) =
        (members l w).map (·.2.ordinal) := by
    rw [List.map_map]
    refine List.map_congr_left fun r mem => ?_
    have other := ne_id_of_mem distinct (within r (mem_members.mp mem).1)
    exact (restamp_waveId _ _ _ other).2.1
  have joined : (restamp id chatId w (n + 1) (id, self)).2.ordinal = some (n + 1) := by
    rw [restamp, if_pos rfl]
  rw [members_without alone, List.map_append] at numbered
  rw [members_restamp distinct alone, if_pos rfl, List.map_append, List.map_cons,
    kept fun _ => .inl, kept fun _ => .inr, joined, List.range'_1_concat, List.map_append]
  refine List.perm_middle.trans ((numbered.cons _).trans ?_)
  rw [Nat.add_comm 1 n]
  exact (List.perm_append_singleton _ _).symm

end

/-- A new member takes the number after those of the wave, and the wave the new total. -/
theorem Numbered.stamped (h : Numbered (before ++ (id, self) :: after) uuid)
    (distinct : ((before ++ (id, self) :: after).map Prod.fst).Nodup)
    (unmarked : self.ordinal = none) (mine : self.chatId = chatId)
    (joins : ∀ r ∈ members (before ++ (id, self) :: after) w,
      r.2.chatId = chatId ∧ r.2.source = self.source)
    (given : w < uuid + 1) :
    Numbered ((before ++ (id, self) :: after).map (restamp id chatId w
      (highestOrdinal (before ++ (id, self) :: after) chatId w + 1))) (uuid + 1) := by
  generalize size : highestOrdinal (before ++ (id, self) :: after) chatId w = n
  rw [h.highestOrdinal_eq fun r mem => (joins r mem).1] at size
  have alone : self.waveId = none := by
    have marked := h.marked (id, self) (List.mem_append_right _ List.mem_cons_self)
    rw [← Option.not_isSome_iff_eq_none, ← marked]
    simp [unmarked]
  have split (v : Id) :
      members ((before ++ (id, self) :: after).map (restamp id chatId w (n + 1))) v = _ :=
    members_restamp distinct alone v
  have cases_ (r' : Id × Wave) (mem : r' ∈ members ((before ++ (id, self) :: after).map
      (restamp id chatId w (n + 1))) w) :
      r'.2.total = some (n + 1) ∧ r'.2.source = self.source ∧ r'.2.chatId = chatId :=
    member_restamped distinct alone mine joins mem
  have ordinals : ((members ((before ++ (id, self) :: after).map
      (restamp id chatId w (n + 1))) w).map (·.2.ordinal)).Perm
      ((List.range' 1 (n + 1)).map some) :=
    ordinals_restamped distinct alone (size ▸ h.ordinals w)
  have length : (members ((before ++ (id, self) :: after).map
      (restamp id chatId w (n + 1))) w).length = n + 1 := by
    simpa using ordinals.length_eq
  refine { ordinals := fun v => ?_, total := fun v => ?_, source := fun v => ?_
           chat := fun v => ?_, marked := ?_, given := ?_ }
  · by_cases same : v = w
    · subst same
      rw [length]
      exact ordinals
    · rw [split, if_neg same]
      exact h.ordinals v
  · by_cases same : v = w
    · subst same
      rw [length]
      exact fun r mem => (cases_ r mem).1
    · rw [split, if_neg same]
      exact h.total v
  · by_cases same : v = w
    · subst same
      exact fun r mem r' mem' => (cases_ r mem).2.1.trans (cases_ r' mem').2.1.symm
    · rw [split, if_neg same]
      exact h.source v
  · by_cases same : v = w
    · subst same
      exact fun r mem r' mem' => (cases_ r mem).2.2.trans (cases_ r' mem').2.2.symm
    · rw [split, if_neg same]
      exact h.chat v
  · rintro r' mem
    obtain ⟨r, was, rfl⟩ := List.mem_map.mp mem
    by_cases own : r.1 = id
    · rw [restamp, if_pos own]
      exact iff_of_true rfl rfl
    · obtain ⟨waveId, ordinal, -⟩ := restamp_waveId chatId w (n + 1) own
      rw [waveId, ordinal]
      exact h.marked r was
  · rintro r' mem v isWave
    obtain ⟨r, was, rfl⟩ := List.mem_map.mp mem
    by_cases own : r.1 = id
    · rw [restamp, if_pos own] at isWave
      obtain rfl := Option.some.inj isWave
      exact given
    · rw [(restamp_waveId _ _ _ own).1] at isWave
      exact Nat.lt_succ_of_lt (h.given r was v isWave)

end

/-! ## The transactions -/

def Tables.waves (t : Tables) : List (Id × Wave) := t.handles.rows.map fun r => (r.1, r.2.wave)

/-- No handle leaves its chat or loses its ordinal. -/
def Carries (rows rows' : List (Id × Wave)) : Prop :=
  ∀ r ∈ rows, ∃ w, (r.1, w) ∈ rows' ∧ w.chatId = r.2.chatId ∧
    ∀ n, r.2.ordinal = some n → w.ordinal = some n

/-- What every transaction does to the waves. -/
structure Advances (t t' : Tables) : Prop where
  numbered : Numbered t.waves t.uuid → Numbered t'.waves t'.uuid
  carries : Carries t.waves t'.waves

section

variable {t t' t'' : Tables} {id : Id} {h : Handle}

theorem mem_waves (found : t.handles.get? id = some h) : (id, h.wave) ∈ t.waves :=
  List.mem_map.mpr ⟨(id, h), KeyedTable.get?_eq_some_iff.mp found, rfl⟩

theorem exists_of_mem_waves {w : Wave} (mem : (id, w) ∈ t.waves) :
    ∃ h, t.handles.get? id = some h ∧ h.wave = w := by
  obtain ⟨⟨id', h⟩, row, same⟩ := List.mem_map.mp mem
  obtain ⟨rfl, rfl⟩ := Prod.mk.inj same
  exact ⟨h, KeyedTable.get?_eq_some_iff.mpr row, rfl⟩

theorem waves_nodup (t : Tables) : (t.waves.map Prod.fst).Nodup := by
  rw [waves, List.map_map]
  exact t.handles.unique

theorem Numbered.later {rows : List (Id × Wave)} {uuid uuid' : Nat} (h : Numbered rows uuid)
    (later : uuid ≤ uuid') : Numbered rows uuid' :=
  { h with given := fun r mem w isWave => (h.given r mem w isWave).trans_le later }

theorem Advances.of_waves (same : t'.waves = t.waves) (later : t.uuid ≤ t'.uuid) :
    Advances t t' where
  numbered h := by
    rw [same]
    exact h.later later
  carries r mem := ⟨r.2, by rw [same]; exact mem, rfl, fun _ => id⟩

theorem Advances.refl (t : Tables) : Advances t t := .of_waves rfl (Nat.le_refl _)

theorem Advances.trans (first : Advances t t') (second : Advances t' t'') : Advances t t'' where
  numbered h := second.numbered (first.numbered h)
  carries r mem := by
    obtain ⟨w, mem', chat, ordinal⟩ := first.carries r mem
    obtain ⟨w', mem'', chat', ordinal'⟩ := second.carries _ mem'
    exact ⟨w', mem'', chat'.trans chat, fun n stamped => ordinal' n (ordinal n stamped)⟩

theorem waves_updateWhere (t : Tables) (p : Id → Handle → Bool) {f : Handle → Handle}
    (kept : ∀ h, (f h).wave = h.wave) :
    ((t.handles.updateWhere p f).rows.map fun r => (r.1, r.2.wave)) = t.waves := by
  rw [KeyedTable.updateWhere, List.map_map]
  refine List.map_congr_left fun r _ => ?_
  change (r.1, (if p r.1 r.2 then f r.2 else r.2).wave) = (r.1, r.2.wave)
  split
  · rw [kept]
  · rfl

/-- A write that keeps the markers of the row. -/
theorem Advances.write (t : Tables) (id : Id) (now : Time) {f : Handle → Handle}
    (kept : ∀ h, (f h).wave = h.wave) : Advances t (t.write id now f) :=
  .of_waves (waves_updateWhere t _ fun h => kept h) (Nat.le_refl _)

theorem Advances.writeIf (t : Tables) (id : Id) (now : Time) (p : Handle → Bool)
    {f : Handle → Handle} (kept : ∀ h, (f h).wave = h.wave) :
    Advances t (t.writeIf id now p f).2 := by
  unfold Tables.writeIf
  split
  · exact .write t id now kept
  · exact .refl t

/-- The stamp restamps the rows of the wave that the handle joins, which is an open one of its
source message or a new one. -/
theorem stamp_waves (found : t.handles.get? id = some h) (unmarked : h.catchUpOrdinal = none)
    (chatId pick now : Nat) :
    ∃ w, (w = t.uuid ∨ ∃ r ∈ t.waves, r.2.waveId = some w ∧ r.2.chatId = chatId ∧
        r.2.source = h.sourceUserMessageId) ∧
      (t.stampCatchUpQueueMarkersInTx id chatId pick now).waves =
        t.waves.map (restamp id chatId w (highestOrdinal t.waves chatId w + 1)) ∧
      (t.stampCatchUpQueueMarkersInTx id chatId pick now).uuid = t.uuid + 1 := by
  unfold stampCatchUpQueueMarkersInTx
  simp only [found, unmarked, Option.isSome_none, Bool.false_eq_true, if_false]
  generalize joins : Option.getD _ t.uuid = w
  refine ⟨w, ?_, ?_, trivial⟩
  · cases joined : (t.openWave id chatId h.sourceUserMessageId)[pick %
        (t.openWave id chatId h.sourceUserMessageId).length]?.bind (·.2.catchUpWaveId) with
    | none =>
      rw [joined] at joins
      exact .inl joins.symm
    | some v =>
      rw [joined] at joins
      obtain rfl : v = w := joins
      obtain ⟨⟨id', sibling⟩, at', isWave⟩ := Option.bind_eq_some_iff.mp joined
      obtain ⟨row, open_⟩ := KeyedTable.mem_select_iff.mp (List.mem_of_getElem? at')
      rw [decide_eq_true_eq] at open_
      exact .inr ⟨_, mem_waves row, isWave, open_.1, open_.2.1⟩
  · have highest : maxOrdinal (t.handles.select fun _ h =>
        h.chatId = chatId ∧ h.catchUpWaveId = some w) = highestOrdinal t.waves chatId w := by
      rw [maxOrdinal, highestOrdinal, waves, List.filter_map, List.foldl_map]
      rfl
    rw [highest]
    simp only [waves, KeyedTable.update, KeyedTable.updateWhere, List.map_map]
    refine List.map_congr_left fun r _ => ?_
    simp only [Function.comp_apply, restamp, beq_iff_eq, decide_eq_true_eq]
    by_cases own : r.1 = id
    · simp only [own, if_true]
      split <;> rfl
    · simp only [own, if_false]
      split
      · rename_i member
        rw [if_pos (show r.2.wave.chatId = chatId ∧ r.2.wave.waveId = some w from member)]
        rfl
      · rename_i other
        rw [if_neg (show ¬ (r.2.wave.chatId = chatId ∧ r.2.wave.waveId = some w) from other)]

theorem Advances.stamp (found : t.handles.get? id = some h) {chatId : Id}
    (here : h.chatId = chatId) (pick now : Nat) :
    Advances t (t.stampCatchUpQueueMarkersInTx id chatId pick now) := by
  cases marked : h.catchUpOrdinal with
  | some n =>
    have same : t.stampCatchUpQueueMarkersInTx id chatId pick now = t := by
      simp [stampCatchUpQueueMarkersInTx, found, marked]
    rw [same]
    exact .refl t
  | none =>
    obtain ⟨w, joins, rows, later⟩ := stamp_waves found marked chatId pick now
    obtain ⟨before, after, split⟩ := List.append_of_mem (mem_waves found)
    have distinct := waves_nodup t
    constructor
    · rintro numbered
      rw [rows, later]
      rw [split] at joins numbered distinct ⊢
      refine numbered.stamped distinct marked here ?_ ?_
      · rintro r mem
        rcases joins with rfl | ⟨s, sMem, isWave, chat, source⟩
        · obtain ⟨mem, isWave⟩ := mem_members.mp mem
          exact absurd (numbered.given r mem _ isWave) (Nat.lt_irrefl _)
        · have sMember := mem_members.mpr ⟨sMem, isWave⟩
          exact ⟨(numbered.chat w r mem s sMember).trans chat,
            (numbered.source w r mem s sMember).trans source⟩
      · rcases joins with rfl | ⟨s, sMem, isWave, -⟩
        · exact Nat.lt_succ_self _
        · exact Nat.lt_succ_of_lt (numbered.given s sMem w isWave)
    · rintro r mem
      rw [rows]
      have moved := List.mem_map_of_mem
        (f := restamp id chatId w (highestOrdinal t.waves chatId w + 1)) mem
      by_cases own : r.1 = id
      · obtain ⟨h', found', same⟩ := exists_of_mem_waves (show (r.1, r.2) ∈ t.waves from mem)
        rw [own, found] at found'
        obtain rfl := Option.some.inj found'
        rw [restamp, if_pos own] at moved
        refine ⟨_, moved, rfl, fun n stamped => ?_⟩
        rw [← same] at stamped
        cases marked.symm.trans stamped
      · have kept := restamp_waveId chatId w (highestOrdinal t.waves chatId w + 1) own
        have key : (restamp id chatId w (highestOrdinal t.waves chatId w + 1) r).1 = r.1 := by
          rw [restamp, if_neg own]
          split <;> rfl
        refine ⟨(restamp id chatId w (highestOrdinal t.waves chatId w + 1) r).2, ?_,
          kept.2.2.2, fun n stamped => kept.2.1.trans stamped⟩
        rw [← key]
        exact moved

/-- A handle joins no wave when it is created. -/
theorem Advances.mint (t : Tables) (job : NewJob) : Advances t (t.mintHandle job) := by
  unfold mintHandle
  split
  · exact .refl t
  · cases created : t.handles.create t.uuid _ with
    | none => exact .of_waves (by rw [Option.getD_none]; rfl) (Nat.le_succ _)
    | some handles =>
      obtain ⟨-, rows⟩ := KeyedTable.create_eq_some_iff.mp created
      rw [Option.getD_some]
      have appended : ∃ w : Wave, handles.rows.map (fun r => (r.1, r.2.wave)) =
          t.waves ++ [(t.uuid, w)] ∧ w.ordinal = none ∧ w.waveId = none := by
        rw [rows, List.map_append]
        exact ⟨_, rfl, rfl, rfl⟩
      obtain ⟨w, appended, ordinal, waveId⟩ := appended
      constructor
      · rintro h
        change Numbered (handles.rows.map fun r => (r.1, r.2.wave)) (t.uuid + 1)
        rw [appended]
        have same (v : Id) : members (t.waves ++ [(t.uuid, w)]) v = members t.waves v := by
          rw [members, List.filter_append, List.filter_cons_of_neg (by simp [waveId]),
            List.filter_nil, List.append_nil, members]
        refine { ordinals := fun v => ?_, total := fun v => ?_, source := fun v => ?_
                 chat := fun v => ?_, marked := ?_, given := ?_ }
        · rw [same]; exact h.ordinals v
        · rw [same]; exact h.total v
        · rw [same]; exact h.source v
        · rw [same]; exact h.chat v
        · refine List.forall_mem_append.mpr ⟨h.marked, fun r mem => ?_⟩
          obtain rfl := List.mem_singleton.mp mem
          simp [ordinal, waveId]
        · refine List.forall_mem_append.mpr ⟨(h.later (Nat.le_succ _)).given, fun r mem => ?_⟩
          obtain rfl := List.mem_singleton.mp mem
          simp [waveId]
      · rintro r mem
        refine ⟨r.2, ?_, rfl, fun _ => id⟩
        change (r.1, r.2) ∈ handles.rows.map fun r => (r.1, r.2.wave)
        rw [appended]
        exact List.mem_append_left _ mem

end

/-! ## What the transactions write -/

namespace Handle

variable (h : Handle)

theorem wave_terminalStateData (status : TerminalStatus) (now : Time) :
    (h.terminalStateData status now).wave = h.wave := by cases status <;> rfl

theorem wave_claimCurrentTurn (terminal : CanonicalTerminal) (now : Time) :
    (h.claimCurrentTurn terminal now).wave = h.wave := wave_terminalStateData ..

theorem wave_finalizeTerminal (terminal : CanonicalTerminal) (now : Time) :
    (h.finalizeTerminal terminal now).wave = h.wave := by
  unfold finalizeTerminal
  split
  · rfl
  · exact wave_terminalStateData ..

theorem wave_upgradeLegacy (now : Time) (clientTurnId : String) :
    (h.upgradeLegacy now clientTurnId).wave = h.wave := by
  unfold upgradeLegacy
  split <;> rfl

theorem wave_noteRelease (outcome : SourceTurnOutcome) :
    (h.noteRelease outcome).wave = h.wave := by
  unfold noteRelease
  split <;> rfl

theorem wave_autoSubscribe (outcome : SourceTurnOutcome) (now : Time) (clientTurnId : String) :
    (h.autoSubscribe outcome now clientTurnId).wave = h.wave := by
  rw [← h.wave_noteRelease outcome]
  unfold autoSubscribe
  dsimp only
  split
  · rfl
  · split <;> rfl

theorem wave_recordCompletion (status : TerminalStatus) (snapshot : TerminalSnapshot)
    (now : Time) (clientTurnId : String) :
    (h.recordCompletion status snapshot now clientTurnId).wave = h.wave := by
  unfold recordCompletion
  dsimp only
  split
  · split <;> rfl
  · split <;> exact wave_terminalStateData ..

theorem wave_setAttempt (kind : DeliveryAttemptKind) (a : DeliveryAttempt) :
    (h.setAttempt kind a).wave = h.wave := by cases kind <;> rfl

theorem wave_settleExpiredAttempt (kind : DeliveryAttemptKind) (error : String) :
    (h.settleExpiredAttempt kind error).wave = h.wave := by
  unfold settleExpiredAttempt
  split
  · exact wave_setAttempt ..
  · rfl

end Handle

section

variable {t : Tables} {id : Id} {row : Handle}

/-- A write, and the stamp where it promotes the row to ready. -/
theorem Advances.write_stamp (found : t.handles.get? id = some row) {f : Handle → Handle}
    (kept : ∀ h, (f h).wave = h.wave) {chatId : Id} (here : row.chatId = chatId) (pick now : Nat) :
    Advances t ((t.write id now f).stampCatchUpQueueMarkersInTx id chatId pick now) := by
  have written := get?_write t id id now f
  rw [if_pos rfl, found, Option.map_some] at written
  refine (Advances.write t id now kept).trans (.stamp written ?_ pick now)
  exact (congrArg Wave.chatId (kept row)).trans here

theorem Advances.observe (t : Tables) (ref : OwnedRef) (pick : Nat) (now : Time) :
    Advances t (t.observeForCurrentTurn ref pick now).2 := by
  unfold observeForCurrentTurn
  split
  · exact .refl t
  · rename_i id row locked
    split
    · exact .refl t
    · exact .refl t
    · split
      · unfold finalizeTerminalHandleInTx
        split
        · dsimp only
          split
          · exact .write_stamp (lockOwned_row locked) (fun h => h.wave_finalizeTerminal _ now) rfl
              pick now
          · exact .write t id now fun h => h.wave_finalizeTerminal _ now
        · exact .refl t
      · exact .write t id now fun h => h.wave_claimCurrentTurn _ now

theorem Advances.subscribe (digest : Id → String) (t : Tables) (ref : OwnedRef) (now : Time) :
    Advances t (subscribePending digest t ref now).2 := by
  unfold subscribePending
  split
  · exact .refl t
  · rename_i id row _
    split
    · exact .refl t
    · dsimp only
      split
      · exact .refl t
      · split
        · exact .refl t
        · split
          · split
            · exact .write t id now fun _ => rfl
            · exact .write t id now fun h => h.wave_upgradeLegacy now _
          · exact .refl t
          · split
            · exact .write t id now fun h => h.wave_claimCurrentTurn _ now
            · split <;> exact .write t id now fun _ => rfl

/-- One turn of the loop, on a row of the chat. -/
theorem Advances.subscribeUnresolved (digest : Id → String) (outcome : SourceTurnOutcome)
    (found : t.handles.get? id = some row) {chatId : Id} (here : row.chatId = chatId)
    (pick : Id → Nat) (now : Time) :
    Advances t (subscribeUnresolved digest outcome chatId pick now t id) := by
  unfold Tables.subscribeUnresolved
  simp only [found]
  split
  · exact .refl t
  · split
    · exact .write t id now fun _ => rfl
    · split
      · exact .write_stamp found (fun h => h.wave_autoSubscribe outcome now _) here _ now
      · exact .write t id now fun h => h.wave_autoSubscribe outcome now _

/-- The loop over rows of the chat. -/
theorem Advances.fold (digest : Id → String) (outcome : SourceTurnOutcome) {chatId : Id}
    (pick : Id → Nat) (now : Time) {ids : List Id}
    (here : ∀ id ∈ ids, ∃ h, t.handles.get? id = some h ∧ h.chatId = chatId) :
    Advances t (ids.foldl (Tables.subscribeUnresolved digest outcome chatId pick now) t) := by
  induction ids generalizing t with
  | nil => exact .refl t
  | cons id ids ih =>
    obtain ⟨row, found, chat⟩ := here id List.mem_cons_self
    have first := Advances.subscribeUnresolved digest outcome found chat pick now
    refine first.trans (ih fun other mem => ?_)
    obtain ⟨h, found', chat'⟩ := here other (List.mem_cons_of_mem _ mem)
    obtain ⟨w, mem', same, -⟩ := first.carries _ (mem_waves found')
    obtain ⟨h', row', rfl⟩ := exists_of_mem_waves mem'
    exact ⟨h', row', same.trans chat'⟩

theorem Advances.finalizeSourceTurn {digest : Id → String} {turn : SourceTurn}
    {outcome : SourceTurnOutcome} {message : Option Id} {pick : Id → Nat} {now : Time}
    {counts : FinalizedSourceTurn} {t' : Tables}
    (done : finalizeSourceTurn digest t turn outcome message pick now = some (counts, t')) :
    Advances t t' := by
  unfold Tables.finalizeSourceTurn at done
  split at done
  · cases done
  · obtain ⟨-, rfl⟩ := Prod.mk.inj (Option.some.inj done)
    have stamped : Advances t (t.stampSourceFinalized turn now) :=
      .of_waves (waves_updateWhere t _ fun _ => rfl) (Nat.le_refl _)
    refine stamped.trans (.fold digest outcome pick now fun id mem => ?_)
    obtain ⟨⟨id', h⟩, selected, rfl⟩ := List.mem_map.mp mem
    obtain ⟨found, mine⟩ := KeyedTable.mem_select_iff.mp selected
    simp only [unresolved, SourceTurn.owns, decide_eq_true_eq] at mine
    exact ⟨h, found, mine.1.2.1⟩

theorem Advances.completion (digest : Id → String) (t : Tables) (call : CompletionCall)
    (pick : Nat) (now : Time) :
    Advances t (recordCanonicalCompletion digest t call pick now).2 := by
  unfold recordCanonicalCompletion
  split
  · exact .refl t
  · rename_i id row locked
    dsimp only
    split
    · exact .write_stamp (lockCanonical_row locked) (fun h => h.wave_recordCompletion _ _ now _)
        rfl pick now
    · exact .write t id now fun h => h.wave_recordCompletion _ _ now _

theorem Advances.persist (t : Tables) (id : Id) (row : Handle) :
    Advances t (t.persistPermanentFailureMessage id row).2 := by
  refine .of_waves (by rw [waves, persist_handles, waves]) ?_
  unfold persistPermanentFailureMessage
  split
  · exact Nat.le_refl _
  · split
    · exact Nat.le_refl _
    · exact Nat.le_succ _

theorem Advances.requeue (t : Tables) (id : Id) (token : Token) (retryAt : Time)
    (code message : String) (proof : Option DispatchedProof) (now : Time) :
    Advances t (t.requeueClaim id token retryAt code message proof now).2 := by
  unfold requeueClaim
  split
  · exact .refl t
  · rename_i row _
    split
    · exact .refl t
    · split
      · exact .refl t
      · split
        · exact (persist t id row).trans (.write _ id now fun _ => rfl)
        · exact .write t id now fun _ => rfl

theorem Advances.settle (t : Tables) (id : Id) (row : Handle) (token : Option Token) (heal : Bool)
    (now : Time) : Advances t (t.settleDeliveredLocked id row token heal now).2 := by
  have open_ (settled : Id → Option SettleDelivered) :
      Advances t (settleDeliveredLocked.settleOpen t id row token heal now settled).2 := by
    unfold settleDeliveredLocked.settleOpen
    dsimp only
    split
    · split
      · exact .refl t
      · split
        · exact .write t id now fun _ => rfl
        · exact .refl t
    · exact .refl t
  unfold settleDeliveredLocked
  dsimp only
  split
  · split
    · exact .refl t
    · exact open_ _
  · exact open_ _

theorem Advances.fail (t : Tables) (id : Id) (token : Token) (code message : String) (now : Time) :
    Advances t (t.failClaim id token code message now).2 := by
  unfold failClaim
  split
  · exact .refl t
  · rename_i row _
    split
    · have healed := settle t id row none true now
      split
      · rename_i outcome
        rw [outcome] at healed
        exact healed
      · exact .refl t
    · split
      · exact .refl t
      · have settled := settle t id row (some token) false now
        split
        · rename_i outcome
          rw [outcome] at settled
          exact settled
        · exact (persist t id row).trans (.write _ id now fun _ => rfl)

end

/-- Every step is a transaction of that kind. -/
theorem Advances.step (digest : Id → String) (s : System) (e : Event) :
    Advances s.tables (s.step digest e).tables := by
  have same {t' : Tables} (handles : t'.handles = s.tables.handles)
      (later : s.tables.uuid ≤ t'.uuid) : Advances s.tables t' :=
    .of_waves (by rw [waves, handles, waves]) later
  cases e with
  | mintHandle job => exact .mint s.tables job
  | setChat | setMediaJob | setDocumentJob | setSandboxJob | attach =>
    exact same rfl (Nat.le_refl _)
  | postMessage message => exact same rfl (Nat.le_succ _)
  | observeForCurrentTurn ref pick now => exact .observe s.tables ref pick now
  | subscribePending ref now => exact .subscribe digest s.tables ref now
  | finalizeSourceTurn turn outcome message pick now =>
    simp only [System.step]
    split
    · rename_i done
      exact .finalizeSourceTurn done
    · exact .refl _
  | claimOpenTurnLivePresent kind job now =>
    simp only [System.step, System.withTables, claimOpenTurnLivePresent]
    split
    · exact .refl _
    · split
      · exact .refl _
      · split
        · exact .refl _
        · exact .write _ _ now fun _ => rfl
  | recordCanonicalCompletion caller call pick now =>
    simp only [System.step]
    split
    · exact .completion digest s.tables _ pick now
    · exact .refl _
  | selectCandidates => exact .refl _
  | readCandidate c now =>
    simp only [System.step]
    split
    · split
      · exact .refl _
      · unfold rotate
        split
        · exact .of_waves (waves_updateWhere s.tables _ fun _ => rfl) (Nat.le_refl _)
        · exact .refl _
    · exact .refl _
  | claimReadyHeadForChat chatId ttl locked now =>
    simp only [System.step, System.withTables, claimReadyHeadForChat]
    split
    · exact .refl _
    · rename_i id _ _
      exact (Advances.write s.tables id now (f := fun h => h.claim s.tables.uuid now ttl)
        fun _ => rfl).trans (.of_waves rfl (Nat.le_succ _))
  | releaseClaimToReady | markDispatched | persistOutputOnce | completeClaim =>
    exact .writeIf _ _ _ _ fun _ => rfl
  | claimDeliveryAttempt id token kind now =>
    simp only [System.step, System.withTables, claimDeliveryAttempt]
    split
    · exact .refl _
    · split
      · exact .refl _
      · exact .write _ id now fun h => h.wave_setAttempt kind _
  | recordDeliveryAttemptResult id token kind result error now =>
    exact .writeIf _ _ _ _ fun h => h.wave_setAttempt kind _
  | stampHandleMessageIds id message now => exact .write _ id now fun _ => rfl
  | settleExpiredDeliveryAttempts id token now =>
    exact .writeIf _ _ _ _ fun h => by rw [Handle.wave_settleExpiredAttempt,
      Handle.wave_settleExpiredAttempt]
  | requeueClaim id token retryAt code message proof now =>
    exact .requeue s.tables id token retryAt code message proof now
  | failClaim id token code message now => exact .fail s.tables id token code message now
  | settleDeliveredCatchUpFailure id token now =>
    simp only [System.step, System.withTables, settleDeliveredCatchUpFailure]
    split
    · exact .refl _
    · rename_i row _
      exact .settle s.tables id row (some token) true now
  | settleDeliveredCatchUpFailureByClientTurnId clientTurnId now =>
    simp only [System.step, System.withTables, settleDeliveredCatchUpFailureByClientTurnId]
    split
    · exact .refl _
    · split
      · split
        · exact .refl _
        · rename_i id row _
          exact .settle s.tables id row none true now
      · exact .refl _
  | claimFailedHandleExternalNotice id now =>
    exact .writeIf _ _ _ _ fun h => h.wave_setAttempt .external _
  | recordFailedHandleExternalNoticeResult id result error now =>
    exact .writeIf _ _ _ _ fun h => h.wave_setAttempt .external _

/-- A handle keeps the ordinal it has. -/
def OrdinalsKept (digest : Id → String) (s : System) (e : Event) : Prop :=
  ∀ k h n, s.tables.handles.get? k = some h → h.catchUpOrdinal = some n →
    ∃ h', (s.step digest e).tables.handles.get? k = some h' ∧ h'.catchUpOrdinal = some n

theorem ordinalsKept (digest : Id → String) (s : System) (e : Event) :
    OrdinalsKept digest s e := by
  rintro k h n found stamped
  obtain ⟨w, mem, -, kept⟩ := (Advances.step digest s e).carries _ (mem_waves found)
  obtain ⟨h', row, rfl⟩ := exists_of_mem_waves mem
  exact ⟨h', row, kept n stamped⟩

theorem numbered_nil : Numbered [] 0 where
  ordinals _ := .refl _
  total _ _ mem := absurd mem List.not_mem_nil
  source _ _ mem := absurd mem List.not_mem_nil
  chat _ _ mem := absurd mem List.not_mem_nil
  marked _ mem := absurd mem List.not_mem_nil
  given _ mem := absurd mem List.not_mem_nil

/-- In every state of every run each wave is numbered from 1 to the number of its members, and no
ordinal changes. -/
theorem waves_numbered (digest : Id → String) (es : List Event) :
    EveryState (System.step digest) (fun s => WavesNumbered s.tables.waves) {} es ∧
    EveryStep (System.step digest) (OrdinalsKept digest) {} es := by
  refine ⟨?_, everyStep_of_forall (ordinalsKept digest) _ _⟩
  refine everyState_mono (fun s h => h.toWavesNumbered) (everyState_of_preserved
    (I := fun s => Numbered s.tables.waves s.tables.uuid) (C := fun _ _ => True)
    (fun s e numbered _ => (Advances.step digest s e).numbered numbered) numbered_nil
    (everyStep_of_forall (fun _ _ => trivial) _ _))

end Persai.JobHandle
