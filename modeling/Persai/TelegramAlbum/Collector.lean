import Persai.KeyedTable
import Persai.Runs
import Persai.Text

/-!
# The album collector

The parts of one Telegram media group. `appendPart` reads the row of the group and then writes
what it read with its own part, whatever has become of the row meanwhile; the scheduler claims
a quiet row, and deletes or releases what it claimed. A part is kept just when no write and no
deletion takes away one that the writer had not read and the scheduler had not claimed.
-/

namespace Persai.TelegramAlbum

open Runs

def telegramAlbumFinalizeDelayMs : Nat := 1500

def telegramAlbumClaimTtlMs : Nat := 60000

inductive TurnKind where
  | photo | document
  deriving DecidableEq, Repr

structure TelegramAlbumPart where
  fileId : String
  mimeType : String
  originalFilename : Option String := none
  turnKind : TurnKind := .photo
  deriving DecidableEq, Repr

def isTelegramAlbumPart (part : TelegramAlbumPart) : Bool :=
  part.fileId != "" && part.mimeType != ""

def readPartsJson (partsJson : List TelegramAlbumPart) : List TelegramAlbumPart :=
  partsJson.filter isTelegramAlbumPart

def mergeAlbumParts (existing : List TelegramAlbumPart) (incoming : TelegramAlbumPart) :
    List TelegramAlbumPart :=
  if existing.any (·.fileId == incoming.fileId) then existing else existing ++ [incoming]

inductive CollectorStatus where
  | collecting | finalizing
  deriving DecidableEq, Repr

/-- The row of the group; the columns that tell the group are the same in all of them. -/
structure CollectorRow where
  id : Nat
  caption : Option String
  partsJson : List TelegramAlbumPart
  firstSeenAt : Nat
  lastPartAt : Nat
  status : CollectorStatus := .collecting
  schedulerClaimToken : Option Nat := none
  schedulerClaimedAt : Option Nat := none
  schedulerClaimExpiresAt : Option Nat := none
  deriving DecidableEq, Repr

structure AppendTelegramAlbumPartInput where
  caption : Option String := none
  part : TelegramAlbumPart
  deriving DecidableEq, Repr

/-- What `appendPart` selects of a row that is collecting. -/
structure ExistingCollector where
  id : Nat
  partsJson : List TelegramAlbumPart
  caption : Option String
  deriving DecidableEq, Repr

inductive AppendOutcome where
  | appended | ignored | threw
  deriving DecidableEq, Repr

/-- Where a call of `appendPart` is. -/
inductive AppendPhase where
  | reading
  | writing (now : Nat) (existing : Option ExistingCollector)
  | returned (outcome : AppendOutcome)
  deriving DecidableEq, Repr

structure AppendCall where
  input : AppendTelegramAlbumPartInput
  phase : AppendPhase := .reading
  deriving DecidableEq, Repr

structure ClaimedTelegramAlbumCollector where
  id : Nat
  caption : Option String
  parts : List TelegramAlbumPart
  claimToken : Nat
  deriving DecidableEq, Repr

/-- The group: its row, the calls of `appendPart`, the parts for which one has returned
`appended`, and the claims that have been returned. -/
structure Album where
  row : Option CollectorRow
  nextId : Nat
  nextToken : Nat
  calls : KeyedTable Nat AppendCall
  appended : List TelegramAlbumPart
  claimed : List ClaimedTelegramAlbumCollector

inductive AlbumEvent where
  | appendPart (call : Nat) (input : AppendTelegramAlbumPartInput)
  | read (call : Nat) (now : Nat)
  | write (call : Nat)
  /-- The batch reaches the row, or is full before it, or finds it locked. -/
  | claim (now : Nat) (reached : Bool)
  | deleteClaimed (id claimToken : Nat)
  | releaseClaim (id claimToken now : Nat)
  deriving DecidableEq, Repr

namespace Album

def start : Album := ⟨none, 0, 0, ∅, [], []⟩

def setPhase (s : Album) (call : Nat) (phase : AppendPhase) : Album :=
  { s with calls := s.calls.update call fun c => { c with phase } }

def appendPart (s : Album) (call : Nat) (input : AppendTelegramAlbumPartInput) : Album :=
  match s.calls.create call { input } with
  | none => s
  | some calls => { s with calls }

/-- The first half of `appendPart`: a row that is not collecting ends the call. -/
def read (s : Album) (call now : Nat) : Album :=
  match s.calls.get? call with
  | some ⟨_, .reading⟩ =>
    match s.row with
    | none => s.setPhase call (.writing now none)
    | some row =>
      if row.status ≠ .collecting then s.setPhase call (.returned .ignored)
      else s.setPhase call (.writing now (some ⟨row.id, row.partsJson, row.caption⟩))
  | _ => s

def nextCaption (caption : Option String) (existing : Option ExistingCollector) : Option String :=
  ((caption.map trim).filter (· ≠ "")).or (existing.bind (·.caption))

/-- The second half: a row is created, unless there is one by now, or the row that was read is
rewritten, if it is still there. -/
def write (s : Album) (call : Nat) : Album :=
  match s.calls.get? call with
  | some ⟨input, .writing now none⟩ =>
    match s.row with
    | some _ => s.setPhase call .reading
    | none =>
      let row : CollectorRow :=
        { id := s.nextId, caption := nextCaption input.caption none, partsJson := [input.part]
          firstSeenAt := now, lastPartAt := now }
      { s.setPhase call (.returned .appended) with
        row := some row, nextId := s.nextId + 1, appended := s.appended ++ [input.part] }
  | some ⟨input, .writing now (some existing)⟩ =>
    match s.row.filter (·.id == existing.id) with
    | none => s.setPhase call (.returned .threw)
    | some row =>
      let mergedParts := mergeAlbumParts (readPartsJson existing.partsJson) input.part
      let row : CollectorRow :=
        { row with
          caption := nextCaption input.caption existing, partsJson := mergedParts
          lastPartAt := now }
      { s.setPhase call (.returned .appended) with
        row := some row, appended := s.appended ++ [input.part] }
  | _ => s

/-- The row is quiet, or its claim has run out. -/
def CollectorRow.due (row : CollectorRow) (now : Nat) : Bool :=
  row.status == .collecting && decide (row.lastPartAt + telegramAlbumFinalizeDelayMs ≤ now) ||
    row.status == .finalizing && row.schedulerClaimExpiresAt.any (decide <| · ≤ now)

/-- `claimAndFinalizeReady`. -/
def claim (s : Album) (now : Nat) (reached : Bool) : Album :=
  match s.row.filter fun row => reached && CollectorRow.due row now with
  | none => s
  | some row =>
    let parts := readPartsJson row.partsJson
    if parts.isEmpty then { s with row := none }
    else
      { s with
        row := some { row with
          status := .finalizing
          schedulerClaimToken := some s.nextToken
          schedulerClaimedAt := some now
          schedulerClaimExpiresAt := some (now + telegramAlbumClaimTtlMs) }
        nextToken := s.nextToken + 1
        claimed := s.claimed ++ [⟨row.id, row.caption, parts, s.nextToken⟩] }

/-- The row as the holder of the claim may write it. -/
def claimedRow (s : Album) (id claimToken : Nat) : Option CollectorRow :=
  s.row.filter fun row =>
    row.id == id && row.status == .finalizing && row.schedulerClaimToken == some claimToken

def deleteClaimed (s : Album) (id claimToken : Nat) : Album :=
  if (s.claimedRow id claimToken).isSome then { s with row := none } else s

def releaseClaim (s : Album) (id claimToken now : Nat) : Album :=
  match s.claimedRow id claimToken with
  | none => s
  | some row =>
    { s with
      row := some { row with
        status := .collecting
        schedulerClaimToken := none
        schedulerClaimedAt := none
        schedulerClaimExpiresAt := none
        lastPartAt := now } }

def step (s : Album) : AlbumEvent → Album
  | .appendPart call input => s.appendPart call input
  | .read call now => s.read call now
  | .write call => s.write call
  | .claim now reached => s.claim now reached
  | .deleteClaimed id claimToken => s.deleteClaimed id claimToken
  | .releaseClaim id claimToken now => s.releaseClaim id claimToken now

/-! ## What the collector is for -/

/-- The parts have the file. -/
def has (parts : List TelegramAlbumPart) (part : TelegramAlbumPart) : Bool :=
  parts.any (·.fileId == part.fileId)

def stored (s : Album) (part : TelegramAlbumPart) : Bool :=
  s.row.any fun row => has row.partsJson part

def claims (s : Album) (part : TelegramAlbumPart) : Bool :=
  s.claimed.any fun claimed => has claimed.parts part

/-- Every part that was appended is in the row or in a claim that was returned. -/
def Kept (s : Album) : Prop := ∀ part ∈ s.appended, s.stored part = true ∨ s.claims part = true

/-! ## When it is so -/

/-- What the call is about to merge into the row that it read, if it is still there. -/
def rewrites (s : Album) (call : Nat) : Option (AppendTelegramAlbumPartInput × ExistingCollector) :=
  match s.calls.get? call with
  | some ⟨input, .writing _ (some existing)⟩ =>
    (s.row.filter (·.id == existing.id)).map fun _ => (input, existing)
  | _ => none

def AllClaimed (s : Album) : Prop := ∀ part ∈ s.appended, s.claims part = true

/-- A write over a row knows of every part in it that no claim has, and a row that is deleted
has no such part. -/
def Known (s : Album) : AlbumEvent → Prop
  | .write call =>
    ∀ rewrite ∈ s.rewrites call, ∀ part ∈ s.appended, s.claims part = true ∨
      part.fileId = rewrite.1.part.fileId ∨ has (readPartsJson rewrite.2.partsJson) part = true
  | .claim now reached =>
    ∀ row ∈ s.row.filter fun row => reached && CollectorRow.due row now,
      readPartsJson row.partsJson = [] → AllClaimed s
  | .deleteClaimed id claimToken => (s.claimedRow id claimToken).isSome → AllClaimed s
  | _ => True

section
variable {s : Album}

/-- The merged parts have those that were there and the incoming one. -/
theorem has_mergeAlbumParts (existing : List TelegramAlbumPart)
    (incoming part : TelegramAlbumPart) : has (mergeAlbumParts existing incoming) part = true ↔
      part.fileId = incoming.fileId ∨ has existing part = true := by
  unfold mergeAlbumParts has
  split
  · rename_i known
    constructor
    · exact .inr
    · rintro (same | there)
      · rwa [same]
      · exact there
  · rw [List.any_append, Bool.or_eq_true, or_comm]
    exact or_congr_left (by rw [List.any_cons, List.any_nil, Bool.or_false, beq_iff_eq, eq_comm])

/-- Where the row and the claims lose nothing, nothing is lost. -/
theorem kept_of_grows {s' : Album} (kept : Kept s) (appended : s'.appended = s.appended)
    (row : ∀ part, s.stored part = true → s'.stored part = true)
    (claimed : ∀ part, s.claims part = true → s'.claims part = true) : Kept s' := by
  intro part mem
  rw [appended] at mem
  exact (kept part mem).imp (row part) (claimed part)

theorem read_kept (kept : Kept s) (call now : Nat) : Kept (s.read call now) := by
  unfold read
  split
  · split
    · exact kept
    · split <;> exact kept
  · exact kept

theorem write_kept (kept : Kept s) (call : Nat) :
    Kept (s.write call) ↔ Known s (.write call) := by
  unfold write
  show _ ↔ ∀ rewrite ∈ s.rewrites call, _
  unfold rewrites
  cases found : s.calls.get? call with
  | none => exact iff_of_true kept nofun
  | some c =>
    obtain ⟨input, phase⟩ := c
    cases phase with
    | reading => exact iff_of_true kept nofun
    | returned outcome => exact iff_of_true kept nofun
    | writing now existing =>
      cases existing with
      | none =>
        refine iff_of_true ?_ nofun
        dsimp only
        split
        · exact kept
        · rename_i none
          intro part mem
          rcases List.mem_append.mp mem with mem | mem
          · refine .inr ((kept part mem).resolve_left ?_)
            simp [stored, none]
          · rw [List.mem_singleton.mp mem]
            exact .inl (by simp [stored, has])
      | some existing =>
        dsimp only
        cases same : s.row.filter (·.id == existing.id) with
        | none => exact iff_of_true kept nofun
        | some row =>
          have merged (part : TelegramAlbumPart) := has_mergeAlbumParts
            (readPartsJson existing.partsJson) input.part part
          rw [Option.map_some]
          constructor
          · rintro kept' - ⟨⟩ part mem
            rcases kept' part (List.mem_append_left _ mem) with stored | claimed
            · exact .inr ((merged part).mp stored)
            · exact .inl claimed
          · intro known part mem
            rcases List.mem_append.mp mem with mem | mem
            · rcases known _ rfl part mem with claimed | read
              · exact .inr claimed
              · exact .inl ((merged part).mpr read)
            · rw [List.mem_singleton.mp mem]
              exact .inl ((merged _).mpr (.inl rfl))

/-- Without the row only the claims are left. -/
theorem kept_of_deleted (s : Album) : Kept { s with row := none } ↔ AllClaimed s := by
  refine forall₂_congr fun part _ => or_iff_right ?_
  simp [stored]

theorem claim_kept (kept : Kept s) (now : Nat) (reached : Bool) :
    Kept (s.claim now reached) ↔ Known s (.claim now reached) := by
  unfold claim
  show _ ↔ ∀ row ∈ s.row.filter fun row => reached && CollectorRow.due row now, _
  cases due : s.row.filter fun row => reached && CollectorRow.due row now with
  | none => exact iff_of_true kept nofun
  | some row =>
    obtain ⟨found, -⟩ := Option.filter_eq_some_iff.mp due
    dsimp only
    split
    · rename_i nothing
      rw [kept_of_deleted]
      exact ⟨fun all row' _ _ => all, fun known => known row rfl (List.isEmpty_iff.mp nothing)⟩
    · rename_i something
      refine iff_of_true (kept_of_grows kept rfl ?_ ?_) ?_
      · intro part there
        simpa [stored, found] using there
      · intro part there
        rw [claims, List.any_append, Bool.or_eq_true]
        exact .inl there
      · intro row' mem nothing
        cases mem
        exact absurd (List.isEmpty_iff.mpr nothing) something

theorem deleteClaimed_kept (kept : Kept s) (id claimToken : Nat) :
    Kept (s.deleteClaimed id claimToken) ↔ Known s (.deleteClaimed id claimToken) := by
  unfold deleteClaimed
  show _ ↔ ((s.claimedRow id claimToken).isSome → AllClaimed s)
  split
  · rename_i holds
    rw [kept_of_deleted]
    exact ⟨fun all _ => all, fun known => known holds⟩
  · rename_i other
    exact iff_of_true kept fun holds => absurd holds other

theorem releaseClaim_kept (kept : Kept s) (id claimToken now : Nat) :
    Kept (s.releaseClaim id claimToken now) := by
  unfold releaseClaim
  split
  · exact kept
  · rename_i row holds
    obtain ⟨found, -⟩ := Option.filter_eq_some_iff.mp holds
    refine kept_of_grows kept rfl ?_ fun part there => there
    intro part there
    simpa [stored, found] using there

/-- A step keeps every part just if it knows of all that it overwrites. -/
theorem step_kept (s : Album) (e : AlbumEvent) (kept : Kept s) :
    Kept (s.step e) ↔ Known s e := by
  cases e with
  | appendPart call input =>
    refine iff_of_true ?_ trivial
    rw [step, appendPart]
    split <;> exact kept
  | read call now => exact iff_of_true (read_kept kept call now) trivial
  | write call => exact write_kept kept call
  | claim now reached => exact claim_kept kept now reached
  | deleteClaimed id claimToken => exact deleteClaimed_kept kept id claimToken
  | releaseClaim id claimToken now =>
    exact iff_of_true (releaseClaim_kept kept id claimToken now) trivial

end

theorem kept_iff_known (es : List AlbumEvent) :
    EveryState step Kept start es ↔ EveryStep step Known start es :=
  everyState_iff_of_preserved step_kept nofun

instance (s : Album) : Decidable (Kept s) := inferInstanceAs (Decidable (∀ part ∈ s.appended, _))

/-- Two webhooks read the same row, and the second one overwrites the part of the first. -/
theorem overlapping_webhooks_lose_part : ¬ EveryState step Kept start
    [.appendPart 0 { part := { fileId := "a", mimeType := "image/jpeg" } }, .read 0 100, .write 0,
      .appendPart 1 { part := { fileId := "b", mimeType := "image/jpeg" } },
      .appendPart 2 { part := { fileId := "c", mimeType := "image/jpeg" } },
      .read 1 200, .read 2 201, .write 1, .write 2] := by
  decide +kernel

/-! ## Writes that do not overlap -/

/-- A write finds its row as it read it, and the parts are ones that the collector reads. -/
def Undisturbed (s : Album) : AlbumEvent → Prop
  | .appendPart _ input => isTelegramAlbumPart input.part = true
  | .write call =>
    ∀ rewrite ∈ s.rewrites call, ∀ row ∈ s.row,
      row.partsJson = rewrite.2.partsJson ∧ row.status = .collecting
  | _ => True

structure Sound (s : Album) : Prop where
  kept : Kept s
  parts : ∀ row ∈ s.row, ∀ part ∈ row.partsJson, isTelegramAlbumPart part = true
  inputs : ∀ call c, s.calls.get? call = some c → isTelegramAlbumPart c.input.part = true
  /-- What is being finalized is what was claimed. -/
  finalizing : ∀ row ∈ s.row, row.status = .finalizing →
    ∀ part ∈ row.partsJson, s.claims part = true

section
variable {s : Album}

theorem stored_iff {part : TelegramAlbumPart} : s.stored part = true ↔
    ∃ row, s.row = some row ∧ ∃ p ∈ row.partsJson, p.fileId = part.fileId := by
  cases found : s.row <;> simp [stored, has, found]

theorem claims_congr {part part' : TelegramAlbumPart} (same : part.fileId = part'.fileId) :
    s.claims part = s.claims part' := by
  simp only [claims, has, same]

/-- Where every part of the row is claimed, so is every part that was appended. -/
theorem Sound.allClaimed (h : Sound s)
    (claimed : ∀ row ∈ s.row, ∀ part ∈ row.partsJson, s.claims part = true) : AllClaimed s := by
  intro part mem
  rcases h.kept part mem with stored | there
  · obtain ⟨row, found, p, there, same⟩ := stored_iff.mp stored
    rw [← claims_congr same]
    exact claimed row found p there
  · exact there

theorem Sound.known (h : Sound s) (e : AlbumEvent) (undisturbed : Undisturbed s e) :
    Known s e := by
  cases e with
  | write call =>
    intro rewrite mem part there
    rcases h.kept part there with stored | claimed
    · obtain ⟨row, found, p, inRow, same⟩ := stored_iff.mp stored
      obtain ⟨unchanged, -⟩ := undisturbed rewrite mem row found
      refine .inr (.inr (List.any_eq_true.mpr ⟨p, ?_, by simpa using same⟩))
      rw [readPartsJson, ← unchanged]
      exact List.mem_filter.mpr ⟨inRow, h.parts row found p inRow⟩
    · exact .inl claimed
  | claim now reached =>
    intro row mem nothing
    obtain ⟨found, -⟩ := Option.filter_eq_some_iff.mp mem
    refine h.allClaimed fun row' found' part inRow => ?_
    have same : row' = row := Option.some.inj (found'.symm.trans found)
    rw [same] at inRow
    have read : part ∈ readPartsJson row.partsJson :=
      List.mem_filter.mpr ⟨inRow, h.parts row found part inRow⟩
    rw [nothing] at read
    cases read
  | deleteClaimed id claimToken =>
    intro holds
    obtain ⟨row, mem⟩ := Option.isSome_iff_exists.mp holds
    obtain ⟨found, holds⟩ := Option.filter_eq_some_iff.mp mem
    refine h.allClaimed fun row' found' part inRow => ?_
    have same : row' = row := Option.some.inj (found'.symm.trans found)
    rw [same] at inRow
    simp only [Bool.and_eq_true, beq_iff_eq] at holds
    exact h.finalizing row found holds.1.2 part inRow
  | appendPart | read | releaseClaim => trivial

theorem Sound.setPhase (h : Sound s) (call : Nat) (phase : AppendPhase) :
    Sound (s.setPhase call phase) where
  kept := h.kept
  parts := h.parts
  inputs := by
    intro i c found
    change (s.calls.update call _).get? i = some c at found
    rw [KeyedTable.get?_update] at found
    split at found
    · obtain ⟨c', found', rfl⟩ := Option.map_eq_some_iff.mp found
      exact h.inputs i c' found'
    · exact h.inputs i c found
  finalizing := h.finalizing

theorem mergeAlbumParts_valid {existing : List TelegramAlbumPart} {incoming : TelegramAlbumPart}
    (valid : isTelegramAlbumPart incoming = true) :
    ∀ part ∈ mergeAlbumParts (readPartsJson existing) incoming,
      isTelegramAlbumPart part = true := by
  intro part mem
  unfold mergeAlbumParts at mem
  split at mem
  · exact (List.mem_filter.mp mem).2
  · rcases List.mem_append.mp mem with mem | mem
    · exact (List.mem_filter.mp mem).2
    · rw [List.mem_singleton.mp mem]
      exact valid

/-- A row that is being collected again, or anew, with the parts given. -/
theorem sound_collecting {s' : Album} (kept : Kept s') {row : CollectorRow}
    (now : s'.row = some row) (status : row.status = .collecting)
    (valid : ∀ part ∈ row.partsJson, isTelegramAlbumPart part = true)
    (calls : ∀ call c, s'.calls.get? call = some c → isTelegramAlbumPart c.input.part = true) :
    Sound s' where
  kept := kept
  parts := by
    intro row' found
    cases now.symm.trans found
    exact valid
  inputs := calls
  finalizing := by
    intro row' found other
    cases now.symm.trans found
    rw [status] at other
    cases other

theorem write_sound (h : Sound s) (call : Nat) (kept : Kept (s.write call))
    (undisturbed : Undisturbed s (.write call)) : Sound (s.write call) := by
  have rewritten : ∀ rewrite ∈ s.rewrites call, ∀ row ∈ s.row,
      row.partsJson = rewrite.2.partsJson ∧ row.status = .collecting := undisturbed
  have after (phase : AppendPhase) := (h.setPhase call phase).inputs
  unfold rewrites at rewritten
  unfold write at kept ⊢
  cases found : s.calls.get? call with
  | none => exact h
  | some c =>
    have valid := h.inputs call c found
    obtain ⟨input, phase⟩ := c
    cases phase with
    | reading => exact h
    | returned outcome => exact h
    | writing now existing =>
      simp only [found] at kept rewritten ⊢
      cases existing with
      | none =>
        dsimp only at kept ⊢
        cases none : s.row with
        | some row => exact h.setPhase call _
        | none =>
          rw [none] at kept
          refine sound_collecting kept rfl rfl (fun part mem => ?_) (after _)
          rw [List.mem_singleton.mp mem]
          exact valid
      | some existing =>
        dsimp only at kept ⊢
        cases same : s.row.filter (·.id == existing.id) with
        | none => exact h.setPhase call _
        | some row =>
          dsimp only at rewritten
          rw [same] at kept rewritten
          obtain ⟨there, -⟩ := Option.filter_eq_some_iff.mp same
          have status := (rewritten _ rfl row there).2
          exact sound_collecting kept rfl status (mergeAlbumParts_valid valid) (after _)

theorem claim_sound (h : Sound s) (now : Nat) (reached : Bool) (kept : Kept (s.claim now reached)) :
    Sound (s.claim now reached) := by
  unfold claim at kept ⊢
  split at kept
  · exact h
  rename_i row due
  obtain ⟨found, -⟩ := Option.filter_eq_some_iff.mp due
  dsimp only at kept ⊢
  split at kept
  · rename_i nothing
    rw [if_pos nothing]
    exact ⟨kept, nofun, h.inputs, nofun⟩
  · rename_i something
    rw [if_neg something]
    refine ⟨kept, ?_, h.inputs, ?_⟩
    · rintro - ⟨⟩ part mem
      exact h.parts row found part mem
    · rintro - ⟨⟩ - part mem
      have read : part ∈ readPartsJson row.partsJson :=
        List.mem_filter.mpr ⟨mem, h.parts row found part mem⟩
      rw [claims, List.any_append, Bool.or_eq_true]
      refine .inr ?_
      rw [List.any_cons, Bool.or_eq_true]
      exact .inl (List.any_eq_true.mpr ⟨part, read, by simp⟩)

theorem appendPart_sound (h : Sound s) (call : Nat) {input : AppendTelegramAlbumPartInput}
    (valid : isTelegramAlbumPart input.part = true) : Sound (s.appendPart call input) := by
  unfold appendPart
  split
  · exact h
  rename_i calls created
  refine ⟨h.kept, h.parts, fun i c found => ?_, h.finalizing⟩
  rw [KeyedTable.get?_create created] at found
  split at found
  · cases found
    exact valid
  · exact h.inputs i c found

theorem read_sound (h : Sound s) (call now : Nat) : Sound (s.read call now) := by
  unfold read
  split
  · split
    · exact h.setPhase call _
    · split <;> exact h.setPhase call _
  · exact h

theorem deleteClaimed_sound (h : Sound s) (id claimToken : Nat)
    (kept : Kept (s.deleteClaimed id claimToken)) : Sound (s.deleteClaimed id claimToken) := by
  unfold deleteClaimed at kept ⊢
  split at kept
  · rename_i holds
    rw [if_pos holds]
    exact ⟨kept, nofun, h.inputs, nofun⟩
  · rename_i other
    rw [if_neg other]
    exact h

theorem releaseClaim_sound (h : Sound s) (id claimToken now : Nat) :
    Sound (s.releaseClaim id claimToken now) := by
  have kept := releaseClaim_kept h.kept id claimToken now
  unfold releaseClaim at kept ⊢
  split at kept
  · exact h
  · rename_i row holds
    obtain ⟨found, -⟩ := Option.filter_eq_some_iff.mp holds
    exact sound_collecting kept rfl rfl (h.parts row found) h.inputs

theorem step_sound (s : Album) (e : AlbumEvent) (h : Sound s) (undisturbed : Undisturbed s e) :
    Sound (s.step e) := by
  have kept := (step_kept s e h.kept).mpr (h.known e undisturbed)
  cases e with
  | appendPart call input => exact appendPart_sound h call undisturbed
  | read call now => exact read_sound h call now
  | write call => exact write_sound h call kept undisturbed
  | claim now reached => exact claim_sound h now reached kept
  | deleteClaimed id claimToken => exact deleteClaimed_sound h id claimToken kept
  | releaseClaim id claimToken now => exact releaseClaim_sound h id claimToken now

end

/-- Appends that nothing comes between lose no part, whatever the scheduler does. -/
theorem kept_of_undisturbed (es : List AlbumEvent)
    (undisturbed : EveryStep step Undisturbed start es) : EveryState step Kept start es :=
  everyState_mono (fun _ h => h.kept)
    (everyState_of_preserved step_sound ⟨nofun, nofun, nofun, nofun⟩ undisturbed)

end Album

end Persai.TelegramAlbum
