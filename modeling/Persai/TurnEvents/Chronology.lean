import Persai.TurnEvents.AppendOnly

/-!
# Chronology

A reserved slot is behind nothing that comes later, and deliveries may be appended after
it while it is empty. The next text then takes its place before them, as it is meant to.
The place is given to the next draft whatever its kind, though, and so a tool call or the
end of the turn can come before a delivery that arrived earlier. The log is chronological
exactly when no such draft finds an overtaken slot.
-/

namespace Persai.TurnEvents

/-! ## Arrival -/

/-- What a draft is told by: its attachment or its key. -/
inductive Ident where
  | attachment (a : String)
  | key (k : DraftKey)
  deriving DecidableEq, Repr

def TurnEventDraft.ident : TurnEventDraft → Ident
  | .delivery d => .attachment d.attachmentId
  | .keyed _ key _ => .key key

/-- The draft that took the event's number. -/
def StoredTurnEvent.origin (e : StoredTurnEvent) : Ident :=
  match e.draftKeys with
  | [] => e.draft.ident
  | key :: _ => .key key

/-- When the event arrived as what it is: an event of the old log at its place there, the
others behind them in the order of the drafts. -/
def arrival (old : Log) (drafts : List TurnEventDraft) (e : StoredTurnEvent) : Nat :=
  if e.draft.ident ∈ drafts.map (·.ident) then
    old.length + (drafts.map (·.ident)).idxOf e.draft.ident
  else (old.map (·.seq)).idxOf e.seq

/-- When the event's number was taken, on the same scale: for a text in a reserved slot
that is when the slot was reserved. -/
def reservedAt (old : Log) (drafts : List TurnEventDraft) (e : StoredTurnEvent) : Nat :=
  if e.seq ∈ old.map (·.seq) then (old.map (·.seq)).idxOf e.seq
  else old.length + (drafts.map (·.ident)).idxOf e.origin

/-- Of two events that are not both texts, the one that arrived first comes first, unless
the other is a text whose place was reserved before that. -/
def Chronological (old : Log) (drafts : List TurnEventDraft) (log : Log) : Prop :=
  log.Pairwise fun x y => ¬ (x.isNumberedText = true ∧ y.isNumberedText = true) →
    arrival old drafts y < arrival old drafts x →
    x.isNumberedText = true ∧ reservedAt old drafts x < arrival old drafts y

/-- No draft comes twice, and none is stored yet. -/
structure Fresh (old : Log) (drafts : List TurnEventDraft) : Prop where
  distinct : (drafts.map (·.ident)).Nodup
  new : ∀ draft ∈ drafts, stored old draft = false

/-! ## The slot, seen from the drafts -/

/-- The place the next draft would take. -/
inductive Slot where
  | closed
  | reserved
  /-- Reserved, and deliveries came after it. -/
  | overtaken
  deriving DecidableEq, Repr

def slotOf (log : Log) : Slot :=
  match unfilledReservation log with
  | none => .closed
  | some (_, index) => if index + 1 = log.length then .reserved else .overtaken

def Slot.after (slot : Slot) : TurnEventDraft → Slot
  | .delivery _ => if slot = .reserved then .overtaken else slot
  | .keyed _ _ fact =>
    if fact.text? = some [] then if slot = .closed then .reserved else slot else .closed

/-- A tool call, an accepted job or the end of the turn: neither a text nor a delivery. -/
def TurnEventDraft.isProcessFact (draft : TurnEventDraft) : Bool :=
  !draft.isDelivery && draft.text?.isNone

/-- No process fact arrives while the slot is overtaken. -/
def OnlyTextsTakeOvertakenSlots : Slot → List TurnEventDraft → Prop
  | _, [] => True
  | slot, draft :: drafts =>
    ¬ (slot = .overtaken ∧ draft.isProcessFact = true) ∧
      OnlyTextsTakeOvertakenSlots (slot.after draft) drafts

instance decidableOnlyTexts : ∀ slot drafts, Decidable (OnlyTextsTakeOvertakenSlots slot drafts)
  | _, [] => isTrue trivial
  | slot, draft :: drafts =>
    have := decidableOnlyTexts (slot.after draft) drafts
    inferInstanceAs (Decidable (_ ∧ OnlyTextsTakeOvertakenSlots (slot.after draft) drafts))

theorem slotOf_reserved {log pre deliveries : Log} {slot : StoredTurnEvent}
    (h : Reserved log pre slot deliveries) :
    slotOf log = if deliveries = [] then .reserved else .overtaken := by
  have length : log.length = pre.length + 1 + deliveries.length := by
    rw [h.split, List.length_append, List.length_cons]
    omega
  rw [slotOf, h.found]
  dsimp only
  cases deliveries with
  | nil => rw [if_pos (by simpa using length.symm), if_pos rfl]
  | cons d deliveries =>
    rw [List.length_cons] at length
    rw [if_neg (by omega), if_neg (by simp)]

theorem slotOf_closed {log : Log} (h : unfilledReservation log = none) : slotOf log = .closed := by
  rw [slotOf, h]

/-- The nearest event that is no delivery says something. -/
theorem unfilledReservation_none {pre deliveries : Log} {e : StoredTurnEvent}
    (kind : e.isDelivery = false) (behind : ∀ d ∈ deliveries, d.isDelivery = true)
    (speaks : e.text? ≠ some []) : unfilledReservation (pre ++ e :: deliveries) = none := by
  rw [unfilledReservation, findNearest_of_behind pre kind behind, Option.filter_some,
    if_neg (by simpa using speaks)]

theorem text_withText {e : StoredTurnEvent} {segment : Text} (answer : e.answerText? = some segment)
    (text : Text) : (e.withText text).text? = some text := by
  obtain ⟨draft, seq, keys⟩ := e
  cases draft with
  | delivery d => cases answer
  | keyed t k fact => cases fact <;> first | rfl | cases answer

theorem slotOf_delivered {log : Log} {e : StoredTurnEvent} (delivery : e.isDelivery = true) :
    slotOf (log ++ [e]) = if slotOf log = .reserved then .overtaken else slotOf log := by
  cases found : unfilledReservation log with
  | none =>
    have still : unfilledReservation (log ++ [e]) = none := by
      rw [unfilledReservation, findNearest_append, if_pos delivery]
      exact found
    rw [slotOf_closed found, slotOf_closed still]
    rfl
  | some at_slot =>
    obtain ⟨slot, i⟩ := at_slot
    obtain ⟨pre, deliveries, reserved, -⟩ := reserved_of_found found
    have still : Reserved (log ++ [e]) pre slot (deliveries ++ [e]) := by
      refine ⟨by simp [reserved.split], reserved.empty, ?_⟩
      intro d hd
      rcases List.mem_append.mp hd with hd | hd
      · exact reserved.behind d hd
      · rw [List.mem_singleton.mp hd]
        exact delivery
    rw [slotOf_reserved still, slotOf_reserved reserved, if_neg (by simp)]
    cases deliveries <;> rfl

/-- The slot follows from the drafts alone. -/
theorem Appends.slotOf_after {log log' : Log} {draft : TurnEventDraft}
    (h : Appends log draft log') (new : stored log draft = false) :
    slotOf log' = (slotOf log).after draft := by
  cases h with
  | replayed old =>
    rw [new] at old
    cases old
  | delivered _ => exact slotOf_delivered rfl
  | @pushed time key fact _ closed =>
    rw [slotOf_closed closed, Slot.after]
    by_cases empty : fact.text? = some []
    · have reserved : Reserved (log ++ [⟨.keyed time key fact, freshSeq log, [key]⟩]) log
          ⟨.keyed time key fact, freshSeq log, [key]⟩ [] :=
        ⟨rfl, empty, fun _ hd => absurd hd List.not_mem_nil⟩
      rw [slotOf_reserved reserved, if_pos rfl, if_pos empty, if_pos rfl]
    · have none :
          unfilledReservation (log ++ [⟨.keyed time key fact, freshSeq log, [key]⟩]) = none :=
        unfilledReservation_none rfl (fun _ hd => absurd hd List.not_mem_nil) empty
      rw [slotOf_closed none, if_neg empty]
  | @merged time key fact pre deliveries slot _ reserved empty =>
    have still : Reserved (pre ++ { slot with draftKeys := slot.draftKeys ++ [key] } :: deliveries)
        pre { slot with draftKeys := slot.draftKeys ++ [key] } deliveries :=
      ⟨rfl, reserved.empty, reserved.behind⟩
    rw [slotOf_reserved still, slotOf_reserved reserved, Slot.after, if_pos empty]
    cases deliveries <;> rfl
  | @filled time key fact pre deliveries slot _ reserved speaks =>
    have none : unfilledReservation (pre ++
        ⟨.keyed slot.draft.time key fact, slot.seq, slot.draftKeys ++ [key]⟩ ::
          deliveries) = none :=
      unfilledReservation_none rfl reserved.behind speaks
    rw [slotOf_closed none, Slot.after, if_neg speaks]
  | @extended time key text segment earlier last _ split answer closed speaks =>
    have longer := text_withText answer (segment ++ text)
    have kind := not_isDelivery_of_text longer
    have none : unfilledReservation (earlier ++
        [{ last.withText (segment ++ text) with
            draftKeys := last.draftKeys ++ [key] }]) = none := by
      refine unfilledReservation_none kind (fun _ hd => absurd hd List.not_mem_nil) ?_
      intro silent
      rw [show StoredTurnEvent.text? _ = some (segment ++ text) from longer] at silent
      simp [speaks] at silent
    have not_empty : ¬ (Fact.answerText text).text? = some [] := by simpa [Fact.text?] using speaks
    rw [slotOf_closed none, Slot.after, if_neg not_empty]

/-! ## Keys and texts, draft by draft -/

/-- An event keeps the key of the draft it is. -/
def OwnKeys (log : Log) : Prop :=
  ∀ e ∈ log, ∀ key, e.draft.ident = .key key → key ∈ e.draftKeys

theorem ident_withText (e : StoredTurnEvent) (text : Text) :
    (e.withText text).draft.ident = e.draft.ident := by
  obtain ⟨draft, seq, keys⟩ := e
  cases draft <;> rfl

theorem OwnKeys.append {log log' : Log} (h : OwnKeys log) (h' : OwnKeys log') :
    OwnKeys (log ++ log') := by
  intro e he
  rcases List.mem_append.mp he with he | he
  · exact h e he
  · exact h' e he

theorem OwnKeys.single {e : StoredTurnEvent} (h : ∀ key, e.draft.ident = .key key →
    key ∈ e.draftKeys) : OwnKeys [e] := by
  intro x hx
  rw [List.mem_singleton.mp hx]
  exact h

theorem OwnKeys.replace {pre post : Log} {e e' : StoredTurnEvent}
    (h : OwnKeys (pre ++ e :: post))
    (own : ∀ key, e'.draft.ident = .key key → key ∈ e'.draftKeys) :
    OwnKeys (pre ++ e' :: post) := by
  have hpre : OwnKeys pre := fun x hx => h x (by simp [hx])
  have hpost : OwnKeys post := fun x hx => h x (by simp [hx])
  exact hpre.append ((OwnKeys.single own).append hpost)

theorem Appends.ownKeys {log log' : Log} {draft : TurnEventDraft} (h : Appends log draft log')
    (own : OwnKeys log) : OwnKeys log' := by
  cases h with
  | replayed old => exact own
  | delivered new => exact own.append (OwnKeys.single fun key same => nomatch same)
  | pushed new closed =>
    refine own.append (OwnKeys.single fun k same => ?_)
    cases same
    exact List.mem_singleton.mpr rfl
  | merged new reserved empty =>
    have slot_own := own _
      (by rw [reserved.split]; exact List.mem_append_right _ List.mem_cons_self)
    rw [reserved.split] at own
    exact own.replace fun k same => List.mem_append_left _ (slot_own k same)
  | filled new reserved speaks =>
    rw [reserved.split] at own
    refine own.replace fun k same => ?_
    cases same
    exact List.mem_append_right _ (List.mem_singleton.mpr rfl)
  | @extended time key text segment earlier last new split answer closed speaks =>
    have last_own := own last (by simp [split])
    rw [split] at own
    refine own.replace fun k same => List.mem_append_left _ (last_own k ?_)
    rw [← same]
    exact (ident_withText last _).symm

theorem ownKeys_truncateNotes {log : Log} (own : OwnKeys log) (n : Nat) :
    OwnKeys (truncateNotes n log) := by
  induction log generalizing n with
  | nil => exact own
  | cons e log ih =>
    have later : OwnKeys log := fun x hx => own x (List.mem_cons_of_mem _ hx)
    have first := own e List.mem_cons_self
    rw [truncateNotes]
    cases e.noteText? with
    | none => exact (OwnKeys.single first).append (ih later n)
    | some text =>
      refine OwnKeys.append (OwnKeys.single fun key same => ?_) (ih later _)
      rw [ident_withText] at same
      exact first key same

theorem ownKeys_reconcileLocked {log : Log} (own : OwnKeys log) (now : IsoTimestamp) (body : Text) :
    OwnKeys (reconcileLocked now log body) := by
  by_cases same : concatenateNumberedTextEvents log = body
  · rwa [reconcileLocked_of_eq same]
  rw [reconcileLocked_of_ne same]
  by_cases answers : NoAnswer log
  · rw [reconcile_of_noAnswer answers]
    refine own.append (OwnKeys.single fun key is => ?_)
    cases is
    exact List.mem_singleton.mpr rfl
  · obtain ⟨before, first, behind, split⟩ := exists_firstAnswer answers
    have hfirst : first ∈ log := by
      rw [split.split]
      simp
    rw [reconcile_of_firstAnswer split]
    generalize survivingNoteLength (noteText log) body = kept
    have cut := ownKeys_truncateNotes own kept
    rw [(split.truncate kept).split] at cut
    have collapsed_own : ∀ key, (collapsed log first body).draft.ident = .key key →
        key ∈ (collapsed log first body).draftKeys := by
      intro key is
      have is' : first.draft.ident = .key key := (ident_withText first _).symm.trans is
      exact (collapsed_takesKeys hfirst split.answer body key).mpr
        ⟨first, hfirst, split.answer, own first hfirst key is'⟩
    have whole := cut.replace collapsed_own
    intro e he
    refine whole e ?_
    rcases List.mem_append.mp he with he | he
    · exact List.mem_append_left _ he
    · refine List.mem_append_right _ ?_
      rcases List.mem_cons.mp he with rfl | he
      · exact List.mem_cons_self
      · exact List.mem_cons_of_mem _ (List.mem_filter.mp he).1

theorem ownKeys_appendLocked {log : Log} (own : OwnKeys log) (drafts : List TurnEventDraft) :
    OwnKeys (appendLocked log drafts) := by
  rw [appendLocked_eq_run]
  induction drafts generalizing log with
  | nil => exact own
  | cons draft drafts ih => exact ih ((appends_appendDraft log draft).ownKeys own)

theorem logAfter_ownKeys {Pod : Type} [DecidableEq Pod] (content : Text)
    (es : List (ServiceEvent Pod)) : OwnKeys (logAfter content es) := by
  have run : ∀ (es : List (ServiceEvent Pod)) (m : Message Pod), OwnKeys m.turnEvents →
      OwnKeys (Runs.run Message.step m es).turnEvents := by
    intro es
    induction es with
    | nil => exact fun m own => own
    | cons e es ih =>
      intro m own
      refine ih (m.step e) ?_
      obtain same | ⟨drafts, appended⟩ | ⟨now, reconciled⟩ := m.step_turnEvents e
      · rwa [same]
      · rw [appended]
        exact ownKeys_appendLocked own drafts
      · rw [reconciled]
        exact ownKeys_reconcileLocked own now m.content
  exact run es _ fun e he => absurd he List.not_mem_nil

theorem stored_ident (log : Log) (draft : TurnEventDraft) : stored log draft = true ↔
    ∃ e ∈ log, (∃ a, draft.ident = .attachment a ∧ e.delivers a = true) ∨
      ∃ key, draft.ident = .key key ∧ key ∈ e.draftKeys := by
  cases draft with
  | delivery d => simp [stored, TurnEventDraft.ident]
  | keyed time key fact => simp [stored, TurnEventDraft.ident, StoredTurnEvent.holds]

theorem mem_replaced {pre post : Log} {e e' x : StoredTurnEvent} (hx : x ∈ pre ++ e' :: post) :
    x ∈ pre ++ e :: post ∨ x = e' := by
  simp only [List.mem_append, List.mem_cons] at hx ⊢
  rcases hx with hx | rfl | hx
  · exact .inl (.inl hx)
  · exact .inr rfl
  · exact .inl (.inr (.inr hx))

/-- An event of the new log was there, or has nothing but the draft's and old keys. -/
theorem Appends.members {log log' : Log} {draft : TurnEventDraft} (h : Appends log draft log')
    {x : StoredTurnEvent} (hx : x ∈ log') :
    x ∈ log ∨ (∀ a, x.delivers a = true → draft.ident = .attachment a) ∧
      ∀ key ∈ x.draftKeys, draft.ident = .key key ∨ ∃ e ∈ log, key ∈ e.draftKeys := by
  -- a text replaced in its place: its keys and the draft's
  have replaced : ∀ {pre post : Log} {e e' : StoredTurnEvent} (key : DraftKey),
      log = pre ++ e :: post → draft.ident = .key key → e'.draftKeys = e.draftKeys ++ [key] →
      e'.isDelivery = false → x ∈ pre ++ e' :: post →
      x ∈ log ∨ (∀ a, x.delivers a = true → draft.ident = .attachment a) ∧
        ∀ key ∈ x.draftKeys, draft.ident = .key key ∨ ∃ e ∈ log, key ∈ e.draftKeys := by
    intro pre post e e' key split is keys no_delivery hx
    rcases mem_replaced (e := e) hx with hx | rfl
    · exact .inl (split ▸ hx)
    · refine .inr ⟨fun a delivers => ?_, fun k hk => ?_⟩
      · rw [delivers_of_text no_delivery] at delivers
        cases delivers
      · rw [keys] at hk
        rcases List.mem_append.mp hk with hk | hk
        · refine .inr ⟨e, ?_, hk⟩
          rw [split]
          exact List.mem_append_right _ List.mem_cons_self
        · rw [List.mem_singleton.mp hk]
          exact .inl is
  cases h with
  | replayed old => exact .inl hx
  | delivered new =>
    refine (List.mem_append.mp hx).imp_right fun hx => ?_
    obtain rfl := List.mem_singleton.mp hx
    refine ⟨fun a delivers => ?_, fun k hk => absurd hk (by simp)⟩
    exact congrArg Ident.attachment (by simpa [StoredTurnEvent.delivers] using delivers)
  | pushed new closed =>
    refine (List.mem_append.mp hx).imp_right fun hx => ?_
    obtain rfl := List.mem_singleton.mp hx
    refine ⟨fun a delivers => ?_, fun k hk => ?_⟩
    · cases delivers
    · exact .inl (congrArg Ident.key (List.mem_singleton.mp hk).symm)
  | @merged time key fact pre deliveries slot new reserved empty =>
    refine replaced (e := slot) key reserved.split rfl ?_ ?_ hx
    · rfl
    · exact not_isDelivery_of_text reserved.empty
  | @filled time key fact pre deliveries slot new reserved speaks =>
    exact replaced (e := slot) key reserved.split rfl rfl rfl hx
  | @extended time key text segment earlier last new split answer closed speaks =>
    refine replaced (e := last) key split rfl ?_ ?_ hx
    · rfl
    · exact not_isDelivery_of_text (text_withText answer (segment ++ text))

/-- A draft stored after the step was stored before it, or is the one the step appended. -/
theorem Appends.stored {log log' : Log} {draft other : TurnEventDraft}
    (h : Appends log draft log') (now : stored log' other = true) :
    TurnEvents.stored log other = true ∨ other.ident = draft.ident := by
  rw [stored_ident] at now ⊢
  obtain ⟨x, hx, told⟩ := now
  rcases h.members hx with hx | ⟨attachment, keys⟩
  · exact .inl ⟨x, hx, told⟩
  · rcases told with ⟨a, is, delivers⟩ | ⟨key, is, hk⟩
    · exact .inr (is.trans (attachment a delivers).symm)
    · rcases keys key hk with same | ⟨e, he, old⟩
      · exact .inr (is.trans same.symm)
      · exact .inl ⟨e, he, .inr ⟨key, is, old⟩⟩

theorem Fresh.tail {log : Log} {draft : TurnEventDraft} {drafts : List TurnEventDraft}
    (h : Fresh log (draft :: drafts)) : Fresh (appendDraft log draft) drafts := by
  obtain ⟨first, distinct⟩ := List.nodup_cons.mp h.distinct
  refine ⟨distinct, fun other ho => ?_⟩
  have not_old := h.new other (List.mem_cons_of_mem _ ho)
  cases now : stored (appendDraft log draft) other with
  | false => rfl
  | true =>
    rcases (appends_appendDraft log draft).stored now with old | same
    · rw [not_old] at old
      cases old
    · exact absurd (List.mem_map.mpr ⟨other, ho, same⟩) first

theorem concatenate_deliveries {deliveries : Log}
    (all : ∀ d ∈ deliveries, d.isDelivery = true) :
    concatenateNumberedTextEvents deliveries = [] := by
  have none : deliveries.filterMap (·.text?) = [] :=
    List.filterMap_eq_nil_iff.mpr fun d hd => text_of_delivery (all d hd)
  rw [concatenateNumberedTextEvents, none]
  rfl

/-- One draft adds its text at the end. -/
theorem Appends.concatenate {log log' : Log} {draft : TurnEventDraft} (h : Appends log draft log')
    (new : TurnEvents.stored log draft = false) :
    concatenateNumberedTextEvents log' =
      concatenateNumberedTextEvents log ++ draft.text?.getD [] := by
  cases h with
  | replayed old =>
    rw [new] at old
    cases old
  | delivered _ => rw [concatenate_append, concatenate_cons]; rfl
  | @pushed time key fact _ closed =>
    rw [concatenate_append, concatenate_cons]
    change _ ++ (fact.text?.getD [] ++ []) = _ ++ fact.text?.getD []
    rw [List.append_nil]
  | @merged time key fact pre deliveries slot _ reserved empty =>
    have slot_text : slot.text? = some [] := reserved.empty
    have draft_text : (TurnEventDraft.keyed time key fact).text? = some [] := empty
    rw [reserved.split, concatenate_append, concatenate_append, concatenate_cons,
      concatenate_cons, draft_text]
    simp [slot_text]
  | @filled time key fact pre deliveries slot _ reserved speaks =>
    have slot_text : slot.text? = some [] := reserved.empty
    rw [reserved.split, concatenate_append, concatenate_append, concatenate_cons,
      concatenate_cons, concatenate_deliveries reserved.behind]
    change _ ++ (fact.text?.getD [] ++ []) = _ ++ (slot.text?.getD [] ++ []) ++ fact.text?.getD []
    simp [slot_text]
  | @extended time key text segment earlier last _ split answer closed speaks =>
    have longer := text_withText answer (segment ++ text)
    rw [split, concatenate_append, concatenate_append, concatenate_cons, concatenate_cons,
      text_of_answer answer]
    change _ ++ ((last.withText (segment ++ text)).text?.getD [] ++ []) =
      _ ++ (segment ++ []) ++ text
    rw [longer]
    simp

/-! ## The order, draft by draft -/

/-- After `done` of the drafts: numbers were taken in log order, before the events arrived
as what they are, and what comes after an event that is no text was not there yet when
that event arrived. -/
structure Ordered (old : Log) (drafts : List TurnEventDraft) (done : Nat) (log : Log) : Prop where
  order : log.Pairwise fun x y => reservedAt old drafts x < reservedAt old drafts y ∧
    (x.isNumberedText = false → arrival old drafts x < reservedAt old drafts y)
  bound : ∀ e ∈ log, reservedAt old drafts e ≤ arrival old drafts e ∧
    arrival old drafts e < old.length + done
  numbers : ∀ e ∈ old, e.seq ∈ log.map (·.seq)
  own : OwnKeys log

section
variable {old log : Log} {drafts : List TurnEventDraft} {done : Nat}

theorem Ordered.chronological (h : Ordered old drafts done log) : Chronological old drafts log := by
  have both : log.Pairwise fun x y => x ∈ log ∧ y ∈ log := by
    rw [List.pairwise_iff_getElem]
    intro i j hi hj _
    exact ⟨List.getElem_mem hi, List.getElem_mem hj⟩
  refine (h.order.and both).imp ?_
  rintro x y ⟨⟨reserved, no_text⟩, hx, hy⟩ _ earlier
  have hy' := h.bound y hy
  cases text : x.isNumberedText with
  | true => exact ⟨rfl, by omega⟩
  | false =>
    have := no_text text
    omega

theorem Ordered.push (h : Ordered old drafts done log) {e : StoredTurnEvent}
    (arrives : arrival old drafts e = old.length + done)
    (reserved : reservedAt old drafts e = old.length + done)
    (own : ∀ key, e.draft.ident = .key key → key ∈ e.draftKeys) :
    Ordered old drafts (done + 1) (log ++ [e]) where
  order := by
    refine List.pairwise_append.mpr ⟨h.order, List.pairwise_singleton _ _, ?_⟩
    intro x hx y hy
    obtain rfl := List.mem_singleton.mp hy
    have hx' := h.bound x hx
    rw [reserved]
    exact ⟨by omega, fun _ => hx'.2⟩
  bound := by
    intro x hx
    rcases List.mem_append.mp hx with hx | hx
    · have hx' := h.bound x hx
      omega
    · obtain rfl := List.mem_singleton.mp hx
      omega
  numbers := by
    intro x hx
    rw [List.map_append]
    exact List.mem_append_left _ (h.numbers x hx)
  own := h.own.append (OwnKeys.single own)

/-- A text replaced in its place: only a text may arrive later than what follows it. -/
theorem Ordered.replace {pre post : Log} {e e' : StoredTurnEvent}
    (h : Ordered old drafts done (pre ++ e :: post)) (number : e'.seq = e.seq)
    (reserved : reservedAt old drafts e' = reservedAt old drafts e)
    (later : arrival old drafts e ≤ arrival old drafts e')
    (bound : arrival old drafts e' < old.length + (done + 1))
    (behind : e'.isNumberedText = false →
      ∀ y ∈ post, arrival old drafts e' < reservedAt old drafts y)
    (own : ∀ key, e'.draft.ident = .key key → key ∈ e'.draftKeys) :
    Ordered old drafts (done + 1) (pre ++ e' :: post) where
  order := by
    obtain ⟨hpre, hpost, across⟩ := List.pairwise_append.mp h.order
    obtain ⟨first, rest⟩ := List.pairwise_cons.mp hpost
    refine List.pairwise_append.mpr ⟨hpre, List.pairwise_cons.mpr ⟨?_, rest⟩, ?_⟩
    · intro y hy
      exact ⟨reserved ▸ (first y hy).1, fun no_text => behind no_text y hy⟩
    · intro x hx y hy
      rcases List.mem_cons.mp hy with rfl | hy
      · rw [reserved]
        exact across x hx e List.mem_cons_self
      · exact across x hx y (List.mem_cons_of_mem _ hy)
  bound := by
    intro x hx
    rcases mem_replaced (e := e) hx with hx | rfl
    · have hx' := h.bound x hx
      omega
    · have he := h.bound e (by simp)
      omega
  numbers := by
    intro x hx
    have mem := h.numbers x hx
    simpa [number] using mem
  own := h.own.replace own

/-- The slot of a text keeps the draft that reserved it. -/
theorem reservedAt_append {e e' : StoredTurnEvent} {key k : DraftKey} (held : k ∈ e.draftKeys)
    (number : e'.seq = e.seq) (keys : e'.draftKeys = e.draftKeys ++ [key]) :
    reservedAt old drafts e' = reservedAt old drafts e := by
  have origin : e'.origin = e.origin := by
    rw [StoredTurnEvent.origin, StoredTurnEvent.origin, keys]
    cases heads : e.draftKeys with
    | nil =>
      rw [heads] at held
      exact absurd held List.not_mem_nil
    | cons first rest => rfl
  rw [reservedAt, reservedAt, number, origin]

theorem arrival_congr {e e' : StoredTurnEvent} (number : e'.seq = e.seq)
    (ident : e'.draft.ident = e.draft.ident) :
    arrival old drafts e' = arrival old drafts e := by
  rw [arrival, arrival, number, ident]

/-- An event that is the draft now appended arrives now. -/
theorem arrival_now {before after : List TurnEventDraft} {draft : TurnEventDraft}
    (distinct : ((before ++ draft :: after).map (·.ident)).Nodup) {e : StoredTurnEvent}
    (is : e.draft.ident = draft.ident) :
    arrival old (before ++ draft :: after) e = old.length + before.length := by
  have place : ((before ++ draft :: after).map (·.ident)).idxOf draft.ident = before.length := by
    rw [List.map_append, List.nodup_append] at distinct
    have absent : draft.ident ∉ before.map (·.ident) := fun mem =>
      distinct.2.2 _ mem _ (by simp) rfl
    rw [List.map_append, List.map_cons, List.idxOf_append_of_notMem absent, List.idxOf_cons_self,
      List.length_map, Nat.add_zero]
  rw [arrival, is, if_pos (by simp), place]

end

theorem idxOf_pairwise {l : List Nat} (distinct : l.Nodup) :
    l.Pairwise fun a b => l.idxOf a < l.idxOf b := by
  rw [List.pairwise_iff_getElem]
  intro i j hi hj lt
  rwa [distinct.idxOf_getElem i hi, distinct.idxOf_getElem j hj]

/-- No event of the old log goes by the identity of a new draft. -/
theorem Fresh.not_mem {old : Log} {drafts : List TurnEventDraft} (fresh : Fresh old drafts)
    (own : OwnKeys old) {e : StoredTurnEvent} (he : e ∈ old) :
    e.draft.ident ∉ drafts.map (·.ident) := by
  intro mem
  obtain ⟨draft, hd, same⟩ := List.mem_map.mp mem
  have is_stored : stored old draft = true := by
    rw [stored_ident]
    refine ⟨e, he, ?_⟩
    rw [same]
    cases is : e.draft.ident with
    | key key => exact .inr ⟨key, rfl, own e he key is⟩
    | attachment a =>
      refine .inl ⟨a, rfl, ?_⟩
      obtain ⟨d, seq, keys⟩ := e
      cases d with
      | delivery d =>
        cases is
        simp [StoredTurnEvent.delivers]
      | keyed time key fact => cases is
  rw [fresh.new draft hd] at is_stored
  cases is_stored

theorem ordered_start {old : Log} {drafts : List TurnEventDraft} (wf : WellFormed old)
    (own : OwnKeys old) (fresh : Fresh old drafts) : Ordered old drafts 0 old := by
  have distinct : (old.map (·.seq)).Nodup :=
    List.pairwise_map.mpr (wf.imp fun apart => Nat.ne_of_lt apart.seq)
  have at_place : ∀ e ∈ old, reservedAt old drafts e = (old.map (·.seq)).idxOf e.seq ∧
      arrival old drafts e = (old.map (·.seq)).idxOf e.seq := by
    intro e he
    exact ⟨if_pos (List.mem_map.mpr ⟨e, he, rfl⟩), if_neg (fresh.not_mem own he)⟩
  have places := List.pairwise_map.mp (idxOf_pairwise distinct)
  refine ⟨?_, ?_, fun e he => List.mem_map.mpr ⟨e, he, rfl⟩, own⟩
  · refine places.imp_of_mem ?_
    intro x y hx hy lt
    rw [(at_place x hx).1, (at_place x hx).2, (at_place y hy).1]
    exact ⟨lt, fun _ => lt⟩
  · intro e he
    rw [(at_place e he).1, (at_place e he).2]
    have inside := List.idxOf_lt_length_of_mem (List.mem_map.mpr ⟨e, he, rfl⟩ :
      e.seq ∈ old.map (·.seq))
    rw [List.length_map] at inside
    exact ⟨Nat.le_refl _, inside⟩

section
variable {old log : Log} {before after : List TurnEventDraft} {draft : TurnEventDraft}

theorem own_key_of_text {e : StoredTurnEvent} {text : Text} (own : OwnKeys log) (he : e ∈ log)
    (has : e.text? = some text) : ∃ key, key ∈ e.draftKeys := by
  obtain ⟨d, seq, keys⟩ := e
  cases d with
  | delivery d => cases has
  | keyed time key fact => exact ⟨key, own _ he key rfl⟩

/-- An event appended now has its number and its being from the draft that arrives. -/
theorem Ordered.push_now (distinct : ((before ++ draft :: after).map (·.ident)).Nodup)
    (h : Ordered old (before ++ draft :: after) before.length log) {e : StoredTurnEvent}
    (number : e.seq = freshSeq log) (is : e.draft.ident = draft.ident)
    (origin : e.origin = draft.ident)
    (own : ∀ key, e.draft.ident = .key key → key ∈ e.draftKeys) :
    Ordered old (before ++ draft :: after) (before.length + 1) (log ++ [e]) := by
  have new_number : e.seq ∉ old.map (·.seq) := by
    intro mem
    obtain ⟨x, hx, same⟩ := List.mem_map.mp mem
    obtain ⟨y, hy, stored⟩ := List.mem_map.mp (h.numbers x hx)
    have below := seq_lt_freshSeq hy
    omega
  have arrives : arrival old (before ++ draft :: after) e = old.length + before.length :=
    arrival_now distinct is
  refine h.push arrives ?_ own
  rw [reservedAt, if_neg new_number, origin, ← arrives, arrival, is, if_pos (by simp)]

/-- A text that is rewritten in its place, or given another key, is the text it was. -/
theorem Ordered.rewrite {drafts : List TurnEventDraft} {done : Nat} {pre post : Log}
    {e e' : StoredTurnEvent} {key : DraftKey} {text text' : Text}
    (h : Ordered old drafts done (pre ++ e :: post)) (was : e.text? = some text)
    (is : e'.text? = some text') (number : e'.seq = e.seq)
    (ident : e'.draft.ident = e.draft.ident) (keys : e'.draftKeys = e.draftKeys ++ [key]) :
    Ordered old drafts (done + 1) (pre ++ e' :: post) := by
  have he : e ∈ pre ++ e :: post := by simp
  obtain ⟨held, mem⟩ := own_key_of_text h.own he was
  have bound := h.bound e he
  have same : arrival old drafts e' = arrival old drafts e := arrival_congr number ident
  refine h.replace number (reservedAt_append mem number keys) (by omega) (by omega) ?_ ?_
  · intro no_text
    rw [isNumberedText_of_text is] at no_text
    cases no_text
  · intro k own
    rw [keys]
    exact List.mem_append_left _ (h.own e he k (ident ▸ own))

/-- A draft takes a reserved slot; where it is no text, nothing may have come after the
slot. -/
theorem Ordered.fill {pre deliveries : Log} {slot : StoredTurnEvent} {time time' : IsoTimestamp}
    {key : DraftKey} {fact : Fact} {text : Text}
    (distinct : ((before ++ .keyed time key fact :: after).map (·.ident)).Nodup)
    (h : Ordered old (before ++ .keyed time key fact :: after) before.length
      (pre ++ slot :: deliveries))
    (empty : slot.text? = some text) (last : fact.text? = none → deliveries = []) :
    Ordered old (before ++ .keyed time key fact :: after) (before.length + 1)
      (pre ++ ⟨.keyed time' key fact, slot.seq, slot.draftKeys ++ [key]⟩ :: deliveries) := by
  have hslot : slot ∈ pre ++ slot :: deliveries := by simp
  obtain ⟨held, mem⟩ := own_key_of_text h.own hslot empty
  have bound := h.bound slot hslot
  have arrives : arrival old (before ++ .keyed time key fact :: after)
      ⟨.keyed time' key fact, slot.seq, slot.draftKeys ++ [key]⟩ = old.length + before.length :=
    arrival_now distinct rfl
  refine h.replace rfl (reservedAt_append mem rfl rfl) (by omega) (by omega) ?_ ?_
  · intro no_text y hy
    have silent : fact.text? = none := by
      simpa [StoredTurnEvent.isNumberedText, TurnEventDraft.text?] using no_text
    rw [last silent] at hy
    exact absurd hy List.not_mem_nil
  · intro k is
    cases is
    exact List.mem_append_right _ (List.mem_singleton.mpr rfl)

/-- A step keeps the order, unless a process fact finds the slot overtaken. -/
theorem Ordered.step (distinct : ((before ++ draft :: after).map (·.ident)).Nodup)
    (h : Ordered old (before ++ draft :: after) before.length log)
    (new : stored log draft = false)
    (allowed : ¬ (slotOf log = .overtaken ∧ draft.isProcessFact = true)) :
    Ordered old (before ++ draft :: after) (before.length + 1) (appendDraft log draft) := by
  have step := appends_appendDraft log draft
  generalize result : appendDraft log draft = log' at step ⊢
  cases step with
  | replayed old =>
    rw [new] at old
    cases old
  | delivered _ => exact h.push_now distinct rfl rfl rfl fun key is => nomatch is
  | pushed _ closed =>
    refine h.push_now distinct rfl rfl rfl fun key is => ?_
    cases is
    exact List.mem_singleton.mpr rfl
  | merged _ reserved empty =>
    rw [reserved.split] at h
    exact h.rewrite reserved.empty reserved.empty rfl rfl rfl
  | @filled time key fact pre deliveries slot _ reserved speaks =>
    have slot_is := slotOf_reserved reserved
    rw [reserved.split] at h
    refine h.fill distinct reserved.empty fun silent => ?_
    -- the slot of a process fact is not overtaken
    by_contra behind
    refine allowed ⟨by rw [slot_is, if_neg behind], ?_⟩
    simp [TurnEventDraft.isProcessFact, TurnEventDraft.isDelivery, TurnEventDraft.text?, silent]
  | @extended time key text segment earlier last _ split answer closed speaks =>
    rw [split] at h
    exact h.rewrite (text_of_answer answer) (text_withText answer (segment ++ text)) rfl
      (ident_withText last _) rfl

/-- Two neighbours that are no texts stay in this order in every later log. -/
theorem Extends.neighbours {pre rest later : Log} {x y : StoredTurnEvent}
    (ext : Extends (pre ++ x :: y :: rest) later) (hx : x.text? = none) (hy : y.text? = none) :
    [x, y].Sublist later := by
  have pair : [x, y].Sublist ((pre ++ x :: y :: rest).filter (!·.isNumberedText)) := by
    rw [List.filter_append, List.filter_cons_of_pos (by simp [hx]),
      List.filter_cons_of_pos (by simp [hy])]
    exact ((List.nil_sublist _).cons_cons _ |>.cons_cons _).trans (List.sublist_append_right _ _)
  exact (pair.trans ext.rest).trans List.filter_sublist

/-- A process fact in an overtaken slot stays before a delivery that arrived earlier. -/
theorem not_chronological_of_overtaken
    (distinct : ((before ++ draft :: after).map (·.ident)).Nodup)
    (h : Ordered old (before ++ draft :: after) before.length log)
    (new : stored log draft = false) (overtaken : slotOf log = .overtaken)
    (fact : draft.isProcessFact = true) {later : Log}
    (ext : Extends (appendDraft log draft) later) :
    ¬ Chronological old (before ++ draft :: after) later := by
  intro chronological
  have step := appends_appendDraft log draft
  obtain ⟨slot, i, found⟩ : ∃ slot i, unfilledReservation log = some (slot, i) := by
    cases found : unfilledReservation log with
    | none =>
      rw [slotOf_closed found] at overtaken
      cases overtaken
    | some at_slot => exact ⟨at_slot.1, at_slot.2, rfl⟩
  generalize result : appendDraft log draft = log' at step ext
  cases step with
  | replayed old =>
    rw [new] at old
    cases old
  | delivered _ => cases fact
  | pushed _ closed =>
    rw [closed] at found
    cases found
  | @merged time key f pre deliveries slot _ reserved empty =>
    simp [TurnEventDraft.isProcessFact, TurnEventDraft.text?, empty] at fact
  | extended _ split answer closed speaks =>
    rw [closed] at found
    cases found
  | @filled time key f pre deliveries slot _ reserved speaks =>
    rw [slotOf_reserved reserved] at overtaken
    cases deliveries with
    | nil => cases overtaken
    | cons y rest =>
      have silent : f.text? = none := by
        simpa [TurnEventDraft.isProcessFact, TurnEventDraft.isDelivery,
          TurnEventDraft.text?] using fact
      have y_silent := text_of_delivery (reserved.behind y List.mem_cons_self)
      have in_later := ext.neighbours silent y_silent
      have told := (List.pairwise_cons.mp (chronological.sublist in_later)).1 y
        (List.mem_singleton.mpr rfl)
      have arrives : arrival old (before ++ .keyed time key f :: after)
          ⟨.keyed slot.draft.time key f, slot.seq, slot.draftKeys ++ [key]⟩ =
          old.length + before.length := arrival_now distinct rfl
      have y_before := (h.bound y (by simp [reserved.split])).2
      obtain ⟨text, -⟩ := told (by simp [y_silent]) (by omega)
      simp [StoredTurnEvent.isNumberedText, silent] at text

end

/-- The rest of the drafts, appended to an ordered log, keep the order if and only if no
process fact among them finds the slot overtaken. -/
theorem chronological_iff {old log : Log} (before after : List TurnEventDraft)
    (distinct : ((before ++ after).map (·.ident)).Nodup)
    (h : Ordered old (before ++ after) before.length log) (fresh : Fresh log after) :
    Chronological old (before ++ after) (Runs.run appendDraft log after) ↔
      OnlyTextsTakeOvertakenSlots (slotOf log) after := by
  induction after generalizing before log with
  | nil => exact iff_of_true h.chronological trivial
  | cons draft after ih =>
    have new := fresh.new draft List.mem_cons_self
    by_cases allowed : slotOf log = .overtaken ∧ draft.isProcessFact = true
    · refine iff_of_false ?_ fun condition => condition.1 allowed
      exact not_chronological_of_overtaken distinct h new allowed.1 allowed.2 (extends_run _ after)
    · have next := h.step distinct new allowed
      have assoc : before ++ draft :: after = (before ++ [draft]) ++ after := by simp
      rw [assoc] at distinct next ⊢
      rw [OnlyTextsTakeOvertakenSlots, and_iff_right allowed,
        ← (appends_appendDraft log draft).slotOf_after new]
      exact ih (before ++ [draft]) distinct (by simpa using next) fresh.tail

/-- A batch adds the texts of its drafts, in their order. -/
theorem concatenate_run {log : Log} {drafts : List TurnEventDraft} (fresh : Fresh log drafts) :
    concatenateNumberedTextEvents (Runs.run appendDraft log drafts) =
      concatenateNumberedTextEvents log ++ (drafts.map (·.text?.getD [])).flatten := by
  induction drafts generalizing log with
  | nil => simp
  | cons draft drafts ih =>
    have new := fresh.new draft List.mem_cons_self
    rw [Runs.run_cons, ih fresh.tail, (appends_appendDraft log draft).concatenate new,
      List.map_cons, List.flatten_cons, List.append_assoc]

/-- However the drafts are cut into batches, the log is the same. -/
theorem appendLocked_batches (log : Log) (batches : List (List TurnEventDraft)) :
    Runs.run appendLocked log batches = appendLocked log batches.flatten := by
  induction batches generalizing log with
  | nil => rfl
  | cons batch batches ih =>
    rw [Runs.run_cons, ih, List.flatten_cons, appendLocked_append]

/-- What the log is to keep of the drafts appended to it. -/
structure KeepsChronology (old : Log) (drafts : List TurnEventDraft) : Prop where
  split : ∀ batches : List (List TurnEventDraft), batches.flatten = drafts →
    Runs.run appendLocked old batches = appendLocked old drafts
  text : concatenateNumberedTextEvents (appendLocked old drafts) =
    concatenateNumberedTextEvents old ++ (drafts.map (·.text?.getD [])).flatten
  order : Chronological old drafts (appendLocked old drafts)

theorem keepsChronology_iff {Pod : Type} [DecidableEq Pod] (content : Text)
    (es : List (ServiceEvent Pod)) (drafts : List TurnEventDraft)
    (fresh : Fresh (logAfter content es) drafts) :
    KeepsChronology (logAfter content es) drafts ↔
      OnlyTextsTakeOvertakenSlots (slotOf (logAfter content es)) drafts := by
  have start := ordered_start (logAfter_wellFormed content es) (logAfter_ownKeys content es) fresh
  have order := chronological_iff [] drafts fresh.distinct start fresh
  rw [List.nil_append, ← appendLocked_eq_run] at order
  rw [← order]
  refine ⟨fun kept => kept.order, fun chronological => ⟨?_, ?_, chronological⟩⟩
  · rintro batches rfl
    exact appendLocked_batches _ batches
  · rw [appendLocked_eq_run]
    exact concatenate_run fresh

/-- A reservation, a delivery, and a note that takes the slot. -/
theorem keepsChronology_note :
    let drafts : List TurnEventDraft := [.keyed "t1" "u:0" (.answerText []),
      .delivery ⟨"t2", "a", .image, none, none⟩, .keyed "t3" "r#1" (.note [72, 105] .step)]
    Fresh (logAfter [] ([] : List (ServiceEvent Unit))) drafts ∧
      KeepsChronology (logAfter [] ([] : List (ServiceEvent Unit))) drafts := by
  have fresh : Fresh (logAfter [] ([] : List (ServiceEvent Unit)))
      [.keyed "t1" "u:0" (.answerText []), .delivery ⟨"t2", "a", .image, none, none⟩,
        .keyed "t3" "r#1" (.note [72, 105] .step)] := ⟨by decide, by decide⟩
  exact ⟨fresh, (keepsChronology_iff [] [] _ fresh).mpr (by decide)⟩

/-- An utterance opens, a delivery arrives, and the user stops the turn. -/
theorem stopped_turn_before_delivery :
    let drafts : List TurnEventDraft := [.keyed "t1" "u:0" (.answerText []),
      .delivery ⟨"t2", "a", .image, none, none⟩, .keyed "t3" "r#1" (.turnStopped "user_abort")]
    Fresh (logAfter [] ([] : List (ServiceEvent Unit))) drafts ∧
      ¬ KeepsChronology (logAfter [] ([] : List (ServiceEvent Unit))) drafts := by
  refine ⟨⟨by decide, by decide⟩, fun kept => ?_⟩
  have two := (List.pairwise_cons.mp kept.order).1
    ⟨.delivery ⟨"t2", "a", .image, none, none⟩, 2, []⟩ (by decide +kernel)
  exact absurd (two (by decide +kernel) (by decide +kernel)).1 (by decide +kernel)

end Persai.TurnEvents
