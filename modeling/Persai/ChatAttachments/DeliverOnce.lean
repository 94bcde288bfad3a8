import Persai.Links
import Persai.Runs
import Persai.Text

/-!
# One attachment for each artifact

`DeliverChatAttachmentOnceService`, for one message. The lock of the message's row makes each
call atomic. A call is answered with an attachment that carries one of its keys, or that is stored
under one of its paths; else it creates one, and stamps its own keys on it. The keys of a call
that was answered are stamped nowhere.

* `normalizeChatAttachmentDeliveryIdentity`, `matchesNormalizedIdentity`, `execute`;
* `matches_stamped_iff`: what a call recognises an attachment by;
* `Delivered.OnePerArtifact`: no two attachments for what the calls show to be one artifact;
* `onePerArtifact_iff`: the runs of which that holds.
-/

namespace Persai.ChatAttachments

open Links Runs

/-! ## The code -/

/-- A number, as `Number.isInteger` tells them apart. -/
inductive JsNumber where
  | integer (value : Int)
  | other
deriving DecidableEq, Repr

inductive DeliveryIdentity where
  | media (artifactId : Option String) (workspaceArtifactPath : String)
      (additionalWorkspacePaths : List String)
  | document (docId : String) (versionId : Option String) (versionNumber : Option JsNumber)
deriving DecidableEq, Repr

structure NormalizedDeliveryIdentity where
  canonicalKey : String
  keys : List String
  workspacePaths : List String
deriving DecidableEq, Repr

/-- The text without the blanks around it, if there is more. -/
def nonBlank (value : Option String) : Option String :=
  (value.map trim).filter (· ≠ "")

/-- How a document call gives its version. -/
def versionText (versionId : Option String) (versionNumber : Option JsNumber) : Option String :=
  match nonBlank versionId with
  | some id => some ("id:" ++ id)
  | none =>
    match versionNumber with
    | some (.integer value) => some ("number:" ++ toString value)
    | _ => none

def workspacePathsOf (path : String) (additionalWorkspacePaths : List String) : List String :=
  path :: (additionalWorkspacePaths.map trim).filter fun entry => entry ≠ "" ∧ entry ≠ path

def mediaKeys (artifactId : Option String) (workspacePaths : List String) : List String :=
  (artifactId.map ("media:artifact:" ++ ·)).toList ++ workspacePaths.map ("media:workspace:" ++ ·)

def normalizeChatAttachmentDeliveryIdentity :
    DeliveryIdentity → Except String NormalizedDeliveryIdentity
  | .document docId versionId versionNumber =>
    match versionText versionId versionNumber with
    | some version =>
      if trim docId = "" then
        .error "Document delivery identity requires docId and version identity."
      else
        let canonicalKey := "document:" ++ trim docId ++ ":" ++ version
        .ok { canonicalKey, keys := [canonicalKey], workspacePaths := [] }
    | none => .error "Document delivery identity requires docId and version identity."
  | .media artifactId workspaceArtifactPath additionalWorkspacePaths =>
    let path := trim workspaceArtifactPath
    if path = "" then
      .error "Media delivery identity requires a canonical workspace artifact path."
    else
      let workspacePaths := workspacePathsOf path additionalWorkspacePaths
      .ok {
        canonicalKey :=
          match nonBlank artifactId with
          | none => "media:workspace:" ++ path
          | some artifactId => "media:artifact:" ++ artifactId
        keys := mediaKeys (nonBlank artifactId) workspacePaths
        workspacePaths }

/-- `metadata.deliveryIdentity`. -/
structure Stamp where
  canonicalKey : String
  aliases : List String
deriving DecidableEq, Repr

structure Attachment where
  id : String
  storagePath : Option String
  deliveryIdentity : Option Stamp
deriving DecidableEq, Repr

def matchesNormalizedIdentity (attachment : Attachment) (identity : NormalizedDeliveryIdentity) :
    Bool :=
  attachment.storagePath.any (· ∈ identity.workspacePaths) ||
    attachment.deliveryIdentity.any fun row =>
      (row.canonicalKey :: row.aliases).any (· ∈ identity.keys)

structure DeliverInput where
  storagePath : String
  deliveryIdentity : DeliveryIdentity
deriving DecidableEq, Repr

structure Outcome where
  alreadyDelivered : Bool
  attachment : Attachment
  canonicalKey : String
deriving DecidableEq, Repr

/-- The transaction: what it answers, and the attachments after it. `attachments` is `none` where
the message has no row, `newId` the id that the database generates. -/
def execute (attachments : Option (List Attachment)) (newId : String) (input : DeliverInput) :
    Except String Outcome × Option (List Attachment) :=
  match normalizeChatAttachmentDeliveryIdentity input.deliveryIdentity with
  | .error message => (.error message, attachments)
  | .ok identity =>
    match attachments with
    | none => (.error "chat_message_not_found", none)
    | some existing =>
      match existing.find? (matchesNormalizedIdentity · identity) with
      | some duplicate => (.ok ⟨true, duplicate, identity.canonicalKey⟩, some existing)
      | none =>
        let attachment : Attachment := {
          id := newId
          storagePath := some input.storagePath
          deliveryIdentity := some ⟨identity.canonicalKey, identity.keys⟩ }
        (.ok ⟨false, attachment, identity.canonicalKey⟩, some (existing ++ [attachment]))

/-! ## What calls denote -/

namespace DeliveryIdentity

def artifact : DeliveryIdentity → Option String
  | media artifactId _ _ => nonBlank artifactId
  | document .. => none

def paths : DeliveryIdentity → List String
  | media _ workspaceArtifactPath additionalWorkspacePaths =>
    workspacePathsOf (trim workspaceArtifactPath) additionalWorkspacePaths
  | document .. => []

/-- Two media calls share an artifact id or a path. -/
def Shares (a b : DeliveryIdentity) : Prop :=
  (∃ id, a.artifact = some id ∧ b.artifact = some id) ∨ ∃ path ∈ a.paths, path ∈ b.paths

/-- Two document calls carry the same docId, and the same version by id or by number. -/
def SameVersion : DeliveryIdentity → DeliveryIdentity → Prop
  | document docId versionId versionNumber, document docId' versionId' versionNumber' =>
    trim docId = trim docId' ∧
      ((∃ id, nonBlank versionId = some id ∧ nonBlank versionId' = some id) ∨
        ∃ value, versionNumber = some (.integer value) ∧ versionNumber' = some (.integer value))
  | _, _ => False

/-- Two document calls give the same docId and version in the same way. -/
def SameKey : DeliveryIdentity → DeliveryIdentity → Prop
  | document docId versionId versionNumber, document docId' versionId' versionNumber' =>
    ∃ version version', versionText versionId versionNumber = some version ∧
      versionText versionId' versionNumber' = some version' ∧
      trim docId ++ ":" ++ version = trim docId' ++ ":" ++ version'
  | _, _ => False

end DeliveryIdentity

open DeliveryIdentity

/-- The identities denote one artifact, as far as the calls show. -/
def Denotes (calls : List DeliveryIdentity) (a b : DeliveryIdentity) : Prop :=
  Linked Shares calls a b ∨ SameVersion a b

/-! ## Runs -/

/-- The message's attachments, the identities of the calls that were accepted, and the calls that
created an attachment. -/
structure Delivered where
  attachments : Option (List Attachment) := some []
  calls : List DeliveryIdentity := []
  created : List DeliverInput := []
deriving DecidableEq, Repr

structure Call where
  newId : String
  input : DeliverInput
deriving DecidableEq, Repr

def step (s : Delivered) (e : Call) : Delivered :=
  match execute s.attachments e.newId e.input with
  | (.error _, attachments) => { s with attachments }
  | (.ok outcome, attachments) =>
    { attachments
      calls := s.calls ++ [e.input.deliveryIdentity]
      created := if outcome.alreadyDelivered then s.created else s.created ++ [e.input] }

/-- No two attachments were created for one artifact. -/
def Delivered.OnePerArtifact (s : Delivered) : Prop :=
  s.created.Pairwise fun a b => ¬ Denotes s.calls a.deliveryIdentity b.deliveryIdentity

/-- The call shares a key with one that created an attachment, or names where one is stored. -/
def Recognized (created : List DeliverInput) (c : DeliveryIdentity) : Prop :=
  ∃ r ∈ created, Shares r.deliveryIdentity c ∨ SameKey r.deliveryIdentity c ∨
    r.storagePath ∈ c.paths

/-- The call denotes what an earlier one denotes, by the calls before it. -/
def Follows (calls : List DeliveryIdentity) (a c : DeliveryIdentity) : Prop :=
  Touches Shares calls a c ∨ SameVersion a c

/-- A call that follows one that created an attachment shares a key with such a call itself, or
names where an attachment is stored, and it does not bring two of them together. -/
def Call.Meets (s : Delivered) (e : Call) : Prop :=
  (normalizeChatAttachmentDeliveryIdentity e.input.deliveryIdentity).isOk = true →
    ((∃ r ∈ s.created, Follows s.calls r.deliveryIdentity e.input.deliveryIdentity) →
      Recognized s.created e.input.deliveryIdentity) ∧
    s.created.Pairwise fun a b =>
      ¬ (Touches Shares s.calls a.deliveryIdentity e.input.deliveryIdentity ∧
        Touches Shares s.calls b.deliveryIdentity e.input.deliveryIdentity)

/-! ## Keys -/

theorem exists_of_isOk {ε α : Type} {x : Except ε α} (ok : x.isOk = true) : ∃ a, x = .ok a := by
  cases x with
  | error e => cases ok
  | ok a => exact ⟨a, rfl⟩

section
variable {a b c : DeliveryIdentity} {identity identity' : NormalizedDeliveryIdentity}

theorem Shares.symm (a b : DeliveryIdentity) (shares : Shares a b) : Shares b a := by
  rcases shares with ⟨id, here, there⟩ | ⟨path, here, there⟩
  · exact .inl ⟨id, there, here⟩
  · exact .inr ⟨path, there, here⟩

theorem shares_self {artifactId : Option String} {path : String} {additional : List String} :
    Shares (.media artifactId path additional) (.media artifactId path additional) :=
  .inr ⟨trim path, .head _, .head _⟩

theorem not_shares_document {docId : String} {versionId : Option String}
    {versionNumber : Option JsNumber} : ¬ Shares a (.document docId versionId versionNumber) := by
  rintro (⟨id, -, none_⟩ | ⟨path, -, none_⟩)
  · cases none_
  · cases none_

theorem normalize_media {artifactId : Option String} {path : String} {additional : List String}
    (ok : normalizeChatAttachmentDeliveryIdentity (.media artifactId path additional) =
      .ok identity) :
    identity.keys = mediaKeys (nonBlank artifactId)
        (DeliveryIdentity.media artifactId path additional).paths ∧
      identity.canonicalKey ∈ identity.keys ∧
      identity.workspacePaths = (DeliveryIdentity.media artifactId path additional).paths := by
  simp only [normalizeChatAttachmentDeliveryIdentity] at ok
  split at ok
  · cases ok
  cases ok
  refine ⟨rfl, ?_, rfl⟩
  cases nonBlank artifactId with
  | none => simp [mediaKeys, workspacePathsOf]
  | some id => simp [mediaKeys]

theorem normalize_document {docId : String} {versionId : Option String}
    {versionNumber : Option JsNumber}
    (ok : normalizeChatAttachmentDeliveryIdentity (.document docId versionId versionNumber) =
      .ok identity) :
    ∃ version, versionText versionId versionNumber = some version ∧
      identity = ⟨"document:" ++ trim docId ++ ":" ++ version,
        ["document:" ++ trim docId ++ ":" ++ version], []⟩ := by
  simp only [normalizeChatAttachmentDeliveryIdentity] at ok
  split at ok
  · rename_i version given
    split at ok
    · cases ok
    · cases ok
      exact ⟨version, given, rfl⟩
  · cases ok

/-- The keys of media calls meet where they share an artifact id or a path: the two kinds of key
differ in their beginnings. -/
theorem mediaKeys_meet_iff {x y : Option String} {ps qs : List String} :
    (∃ key ∈ mediaKeys x ps, key ∈ mediaKeys y qs) ↔
      (∃ id, x = some id ∧ y = some id) ∨ ∃ path ∈ ps, path ∈ qs := by
  have apart : ∀ s t : String, "media:artifact:" ++ s ≠ "media:workspace:" ++ t := by
    intro s t same
    have lists := congrArg String.toList same
    simp at lists
  have artifacts : ∀ s t : String, "media:artifact:" ++ s = "media:artifact:" ++ t ↔ s = t := by
    intro s t
    simp
  have paths : ∀ s t : String, "media:workspace:" ++ s = "media:workspace:" ++ t ↔ s = t := by
    intro s t
    simp
  simp only [mediaKeys, List.mem_append, Option.mem_toList, Option.map_eq_some_iff, List.mem_map]
  constructor
  · rintro ⟨key, ⟨id, rfl, rfl⟩ | ⟨path, mem, rfl⟩, ⟨id', rfl, same⟩ | ⟨path', mem', same⟩⟩
    · exact .inl ⟨id, rfl, by rw [(artifacts id' id).mp same]⟩
    · exact absurd same.symm (apart id path')
    · exact absurd same (apart id' path)
    · exact .inr ⟨path, mem, (paths path' path).mp same ▸ mem'⟩
  · rintro (⟨id, rfl, rfl⟩ | ⟨path, mem, mem'⟩)
    · exact ⟨_, .inl ⟨id, rfl, rfl⟩, .inl ⟨id, rfl, rfl⟩⟩
    · exact ⟨_, .inr ⟨path, mem, rfl⟩, .inr ⟨path, mem', rfl⟩⟩

/-- A document's key is none of a media call. -/
theorem document_key_apart {x : Option String} {ps : List String} {s : String} :
    "document:" ++ s ∉ mediaKeys x ps := by
  have apart : ∀ t : String, t.toList.head? = some 'm' → t ≠ "document:" ++ s := by
    rintro t head rfl
    simp at head
  simp only [mediaKeys, List.mem_append, Option.mem_toList, Option.map_eq_some_iff, List.mem_map,
    not_or, not_exists, not_and]
  exact ⟨fun id _ => apart _ (by simp), fun path _ => apart _ (by simp)⟩

/-- What a call recognises an attachment by, in terms of the call that created it. -/
theorem matches_stamped_iff
    (ok : normalizeChatAttachmentDeliveryIdentity a = .ok identity)
    (ok' : normalizeChatAttachmentDeliveryIdentity c = .ok identity') (id storagePath : String) :
    matchesNormalizedIdentity ⟨id, some storagePath, some ⟨identity.canonicalKey, identity.keys⟩⟩
        identity' = true ↔
      Shares a c ∨ SameKey a c ∨ storagePath ∈ c.paths := by
  have candidates : identity.canonicalKey ∈ identity.keys := by
    cases a with
    | media => exact (normalize_media ok).2.1
    | document =>
      obtain ⟨version, -, rfl⟩ := normalize_document ok
      exact .head _
  have meets : matchesNormalizedIdentity
      ⟨id, some storagePath, some ⟨identity.canonicalKey, identity.keys⟩⟩ identity' = true ↔
      storagePath ∈ identity'.workspacePaths ∨ ∃ key ∈ identity.keys, key ∈ identity'.keys := by
    simp only [matchesNormalizedIdentity, Option.any_some, Bool.or_eq_true, decide_eq_true_eq,
      List.any_eq_true, List.mem_cons]
    refine or_congr_right ⟨?_, ?_⟩
    · rintro ⟨key, rfl | mem, mem'⟩
      · exact ⟨_, candidates, mem'⟩
      · exact ⟨key, mem, mem'⟩
    · rintro ⟨key, mem, mem'⟩
      exact ⟨key, .inr mem, mem'⟩
  rw [meets]
  cases c with
  | media artifactId path additional =>
    obtain ⟨keys', -, paths'⟩ := normalize_media ok'
    rw [keys', paths']
    cases a with
    | media artifactId' path' additional' =>
      rw [(normalize_media ok).1, mediaKeys_meet_iff]
      simp only [SameKey, false_or]
      exact or_comm
    | document docId versionId versionNumber =>
      obtain ⟨version, -, rfl⟩ := normalize_document ok
      have none_ : ¬ Shares (.document docId versionId versionNumber)
          (.media artifactId path additional) :=
        fun shares => not_shares_document (Shares.symm _ _ shares)
      simp only [List.mem_singleton, exists_eq_left, String.append_assoc, document_key_apart,
        or_false, SameKey, false_or]
      exact (or_iff_right none_).symm
  | document docId versionId versionNumber =>
    obtain ⟨version, given, rfl⟩ := normalize_document ok'
    simp only [List.not_mem_nil, false_or, List.mem_singleton, not_shares_document,
      DeliveryIdentity.paths, or_false]
    cases a with
    | media =>
      rw [(normalize_media ok).1]
      simp only [String.append_assoc, SameKey, iff_false, not_exists, not_and]
      rintro key mem rfl
      exact document_key_apart mem
    | document =>
      obtain ⟨version', given', rfl⟩ := normalize_document ok
      simp [SameKey, given, given', String.append_assoc]
      exact eq_comm

end

/-! ## Chains with one more call -/

section
variable {calls : List DeliveryIdentity} {a b c : DeliveryIdentity}

/-- A document call is recognised as itself, by its version. -/
theorem sameVersion_self {docId : String} {versionId : Option String}
    {versionNumber : Option JsNumber} (given : (versionText versionId versionNumber).isSome) :
    SameVersion (.document docId versionId versionNumber)
      (.document docId versionId versionNumber) := by
  refine ⟨rfl, ?_⟩
  unfold versionText at given
  split at given
  · rename_i id byId
    exact .inl ⟨id, byId, byId⟩
  · split at given
    · exact .inr ⟨_, rfl, rfl⟩
    · cases given

theorem touches_document {docId : String} {versionId : Option String}
    {versionNumber : Option JsNumber} :
    ¬ Touches Shares calls a (.document docId versionId versionNumber) := by
  rintro ⟨near, -, -, shares⟩
  exact not_shares_document shares

/-- Earlier calls are brought together by a call that touches both. -/
theorem denotes_snoc_iff (here : a ∈ calls) (there : b ∈ calls) :
    Denotes (calls ++ [c]) a b ↔
      Denotes calls a b ∨ Touches Shares calls a c ∧ Touches Shares calls b c := by
  have linked : Linked Shares (calls ++ [c]) a b ↔
      Linked Shares calls a b ∨ Touches Shares calls a c ∧ Touches Shares calls b c := by
    cases c with
    | media => exact linked_snoc_iff Shares.symm shares_self here there
    | document docId versionId versionNumber =>
      have apart : ∀ x ∈ calls ++ [.document docId versionId versionNumber],
          ¬ Shares x (.document docId versionId versionNumber) ∧
            ¬ Shares (.document docId versionId versionNumber) x := fun x _ =>
        ⟨not_shares_document, fun shares => not_shares_document (Shares.symm _ _ shares)⟩
      rw [linked_snoc_of_apart apart]
      exact (or_iff_left fun touches => touches_document touches.1).symm
  rw [Denotes, Denotes, linked, or_right_comm]

theorem denotes_new_iff (here : a ∈ calls)
    (valid : (normalizeChatAttachmentDeliveryIdentity c).isOk = true) :
    Denotes (calls ++ [c]) a c ↔ Follows calls a c := by
  cases c with
  | media => exact or_congr_left (linked_new_iff shares_self here)
  | document docId versionId versionNumber =>
    have alone : Linked Shares (calls ++ [.document docId versionId versionNumber]) a
        (.document docId versionId versionNumber) →
        SameVersion a (.document docId versionId versionNumber) := by
      intro linked
      cases linked with
      | refl =>
        apply sameVersion_self
        obtain ⟨identity, ok⟩ := exists_of_isOk valid
        obtain ⟨version, given, -⟩ := normalize_document ok
        rw [given]
        rfl
      | tail _ next => exact absurd next.2.2 not_shares_document
    rw [Denotes, Follows, or_iff_right_of_imp alone, or_iff_right touches_document]

end

/-! ## One step -/

/-- What an attachment carries that a call is compared with. -/
def Attachment.mark (attachment : Attachment) : Option String × Option Stamp :=
  (attachment.storagePath, attachment.deliveryIdentity)

/-- The mark of the attachment that a call creates. -/
def DeliverInput.mark (input : DeliverInput) : Option String × Option Stamp :=
  (some input.storagePath,
    (normalizeChatAttachmentDeliveryIdentity input.deliveryIdentity).toOption.map fun identity =>
      ⟨identity.canonicalKey, identity.keys⟩)

/-- The attachments are those of the calls that created one, and these were accepted. -/
structure Delivered.Consistent (s : Delivered) : Prop where
  marks : ∃ attachments, s.attachments = some attachments ∧
    attachments.map Attachment.mark = s.created.map DeliverInput.mark
  accepted : ∀ r ∈ s.created, r.deliveryIdentity ∈ s.calls ∧
    (normalizeChatAttachmentDeliveryIdentity r.deliveryIdentity).isOk = true

section
variable {s : Delivered} {e : Call} {identity : NormalizedDeliveryIdentity}

theorem find?_eq_none_iff {created : List DeliverInput} {attachments : List Attachment}
    {c : DeliveryIdentity} (marks : attachments.map Attachment.mark = created.map DeliverInput.mark)
    (accepted : ∀ r ∈ created,
      (normalizeChatAttachmentDeliveryIdentity r.deliveryIdentity).isOk = true)
    (ok : normalizeChatAttachmentDeliveryIdentity c = .ok identity) :
    attachments.find? (matchesNormalizedIdentity · identity) = none ↔ ¬ Recognized created c := by
  have matched : (∃ x ∈ attachments, matchesNormalizedIdentity x identity = true) ↔
      Recognized created c := by
    have same : ∀ (x : Attachment) (r : DeliverInput), r ∈ created → x.mark = r.mark →
        (matchesNormalizedIdentity x identity = true ↔ Shares r.deliveryIdentity c ∨
          SameKey r.deliveryIdentity c ∨ r.storagePath ∈ c.paths) := by
      intro x r mem mark
      obtain ⟨identity', ok'⟩ := exists_of_isOk (accepted r mem)
      rw [← matches_stamped_iff ok' ok x.id r.storagePath]
      obtain ⟨id, storagePath, deliveryIdentity⟩ := x
      simp only [Attachment.mark, DeliverInput.mark, ok', Except.toOption, Option.map_some,
        Prod.mk.injEq] at mark
      obtain ⟨rfl, rfl⟩ := mark
      rfl
    constructor
    · rintro ⟨x, mem, found⟩
      obtain ⟨r, mem', mark⟩ := List.mem_map.mp (marks ▸ List.mem_map_of_mem mem)
      exact ⟨r, mem', (same x r mem' mark.symm).mp found⟩
    · rintro ⟨r, mem, known⟩
      obtain ⟨x, mem', mark⟩ := List.mem_map.mp (marks.symm ▸ List.mem_map_of_mem mem)
      exact ⟨x, mem', (same x r mem mark).mpr known⟩
  rw [← matched, List.find?_eq_none]
  simp

/-- A rejected call changes nothing, one that is recognised only adds to the calls, and any other
creates an attachment. -/
theorem step_cases (consistent : s.Consistent) :
    ((normalizeChatAttachmentDeliveryIdentity e.input.deliveryIdentity).isOk = false ∧
      step s e = s) ∨
    (normalizeChatAttachmentDeliveryIdentity e.input.deliveryIdentity).isOk = true ∧
      ((Recognized s.created e.input.deliveryIdentity ∧
          step s e = { s with calls := s.calls ++ [e.input.deliveryIdentity] }) ∨
        ¬ Recognized s.created e.input.deliveryIdentity ∧
          ∃ attachments x, s.attachments = some attachments ∧ Attachment.mark x = e.input.mark ∧
            step s e = {
              attachments := some (attachments ++ [x])
              calls := s.calls ++ [e.input.deliveryIdentity]
              created := s.created ++ [e.input] }) := by
  obtain ⟨⟨attachments, here, marks⟩, accepted⟩ := consistent
  unfold step execute
  cases ok : normalizeChatAttachmentDeliveryIdentity e.input.deliveryIdentity with
  | error message => exact .inl ⟨rfl, rfl⟩
  | ok identity =>
    refine .inr ⟨rfl, ?_⟩
    have known := find?_eq_none_iff marks (fun r mem => (accepted r mem).2) ok
    simp only [here]
    cases found : attachments.find? (matchesNormalizedIdentity · identity) with
    | some duplicate =>
      refine .inl ⟨?_, rfl⟩
      by_contra unknown
      rw [known.mpr unknown] at found
      cases found
    | none =>
      refine .inr ⟨known.mp found, attachments, _, rfl, ?_, rfl⟩
      rw [DeliverInput.mark, ok]
      rfl

theorem consistent_step (consistent : s.Consistent) (e : Call) : (step s e).Consistent := by
  obtain ⟨⟨attachments, here, marks⟩, accepted⟩ := consistent
  rcases @step_cases s e ⟨⟨attachments, here, marks⟩, accepted⟩ with
    ⟨-, same⟩ | ⟨ok, ⟨-, answered⟩ | ⟨-, attachments', x, here', mark, created⟩⟩
  · rw [same]
    exact ⟨⟨attachments, here, marks⟩, accepted⟩
  · rw [answered]
    exact ⟨⟨attachments, here, marks⟩, fun r mem =>
      ⟨List.mem_append_left _ (accepted r mem).1, (accepted r mem).2⟩⟩
  · rw [created]
    obtain rfl := Option.some.inj (here.symm.trans here')
    refine ⟨⟨_, rfl, ?_⟩, fun r mem => ?_⟩
    · simp only [List.map_append, List.map_cons, List.map_nil, marks, mark]
    · rcases List.mem_append.mp mem with before | new
      · exact ⟨List.mem_append_left _ (accepted r before).1, (accepted r before).2⟩
      · obtain rfl := List.mem_singleton.mp new
        exact ⟨by simp, ok⟩

/-- The earlier attachments stay apart where the call does not bring two of them together. -/
theorem apart_snoc_iff (consistent : s.Consistent) (apart : s.OnePerArtifact)
    (c : DeliveryIdentity) :
    (s.created.Pairwise fun a b =>
        ¬ Denotes (s.calls ++ [c]) a.deliveryIdentity b.deliveryIdentity) ↔
      s.created.Pairwise fun a b => ¬ (Touches Shares s.calls a.deliveryIdentity c ∧
        Touches Shares s.calls b.deliveryIdentity c) := by
  constructor
  · refine List.Pairwise.imp_of_mem fun {a b} mem mem' distinct together => distinct ?_
    exact (denotes_snoc_iff (consistent.accepted a mem).1 (consistent.accepted b mem').1).mpr
      (.inr together)
  · intro untouched
    refine (apart.and untouched).imp_of_mem fun {a b} mem mem' both denotes => ?_
    rcases (denotes_snoc_iff (consistent.accepted a mem).1 (consistent.accepted b mem').1).mp
      denotes with before | together
    · exact both.1 before
    · exact both.2 together

theorem onePerArtifact_step (consistent : s.Consistent) (apart : s.OnePerArtifact) (e : Call) :
    (step s e).OnePerArtifact ↔ e.Meets s := by
  rcases @step_cases s e consistent with
    ⟨rejected, same⟩ | ⟨ok, ⟨known, answered⟩ | ⟨unknown, attachments, x, -, -, created⟩⟩
  · rw [same]
    refine iff_of_true apart fun ok => ?_
    rw [rejected] at ok
    cases ok
  · rw [answered]
    refine (apart_snoc_iff consistent apart _).trans
      ⟨fun untouched _ => ⟨fun _ => known, untouched⟩,
      fun meets => (meets ok).2⟩
  · rw [created, Delivered.OnePerArtifact]
    dsimp only
    rw [List.pairwise_append, apart_snoc_iff consistent apart]
    have new : (∀ a ∈ s.created, ¬ Denotes (s.calls ++ [e.input.deliveryIdentity])
          a.deliveryIdentity e.input.deliveryIdentity) ↔
        ((∃ r ∈ s.created, Follows s.calls r.deliveryIdentity e.input.deliveryIdentity) →
          Recognized s.created e.input.deliveryIdentity) := by
      constructor
      · rintro none_ ⟨r, mem, follows⟩
        exact absurd ((denotes_new_iff (consistent.accepted r mem).1 ok).mpr follows)
          (none_ r mem)
      · intro known r mem denotes
        exact unknown
          (known ⟨r, mem, (denotes_new_iff (consistent.accepted r mem).1 ok).mp denotes⟩)
    simp only [List.pairwise_singleton, List.mem_singleton, forall_eq, true_and, new]
    exact ⟨fun both _ => ⟨both.2, both.1⟩, fun meets => ⟨(meets ok).2, (meets ok).1⟩⟩

end

/-- In a run of calls on a message without attachments there is one attachment at most for each
artifact just when no call follows a call that created an attachment without sharing a key with
such a call or naming where its attachment is stored, and none brings two of them together. -/
theorem onePerArtifact_iff (es : List Call) :
    EveryState step Delivered.OnePerArtifact {} es ↔
      EveryStep step (fun s e => e.Meets s) {} es := by
  have start : Delivered.Consistent {} := ⟨⟨[], rfl, rfl⟩, nofun⟩
  exact everyState_iff_of_invariant (fun _ e consistent => consistent_step consistent e)
    (fun _ e consistent apart => onePerArtifact_step consistent apart e) start .nil

namespace Sample

def media (artifactId : Option String) (path : String) : Call :=
  ⟨path, path, .media artifactId path []⟩

/-- The artifact under its path, again under another path, and that path without the artifact. -/
def renamed : List Call :=
  [media (some "artifact_1") "/workspace/blue.png", media (some "artifact_1") "/workspace/sky.png",
    media none "/workspace/sky.png"]

/-- The second call, answered with the first's attachment, links the third to it. -/
theorem renamed_delivered_twice :
    (run step {} renamed).created.length = 2 ∧
      ¬ EveryState step Delivered.OnePerArtifact {} renamed := by
  refine ⟨by decide +kernel, fun apart => ?_⟩
  have created : (run step {} renamed).created =
      [⟨"/workspace/blue.png", .media (some "artifact_1") "/workspace/blue.png" []⟩,
        ⟨"/workspace/sky.png", .media none "/workspace/sky.png" []⟩] := by decide +kernel
  have calls : (run step {} renamed).calls = renamed.map (·.input.deliveryIdentity) := by
    decide +kernel
  have last := apart.last
  rw [Delivered.OnePerArtifact, created, calls, List.pairwise_cons] at last
  refine last.1 _ (.head _) (.inl ?_)
  have byId : Shares (.media (some "artifact_1") "/workspace/blue.png" [])
      (.media (some "artifact_1") "/workspace/sky.png" []) :=
    .inl ⟨"artifact_1", by decide +kernel, by decide +kernel⟩
  have byPath : Shares (.media (some "artifact_1") "/workspace/sky.png" [])
      (.media none "/workspace/sky.png" []) :=
    .inr ⟨"/workspace/sky.png", by decide +kernel, by decide +kernel⟩
  exact .tail (.single ⟨by decide +kernel, by decide +kernel, byId⟩)
    ⟨by decide +kernel, by decide +kernel, byPath⟩

end Sample

end Persai.ChatAttachments
