import Mathlib.Data.List.Sort
import Mathlib.Data.List.Lex
import Mathlib.Data.List.Dedup
import Mathlib.Data.Prod.Lex
import Wenlan.Genesis.Tables
import Wenlan.Presence.Capabilities
import Wenlan.Support.IntegerText

/-!
# Identities

`m6/digest.rs` and `m6/identity.rs`: the digests that slots, pages, candidates and fingerprints are
known by.  The hash is third-party and a parameter.
-/

namespace Wenlan.Genesis.Identity

open Presence (Bytes Text hexDigit hexEncode)
open Support.Framing List
open Support.IntegerText (InI64 signedValue_format toString_negSucc format_chars)

/-! ## Parts -/

/-- `i64::to_string`, as ASCII. -/
def intText (value : Int64) : List UInt8 :=
  (toString value.toInt).toList.map fun c => UInt8.ofNat c.toNat

theorem length_toString_lt {n : ℤ} (h : InI64 n) : (toString n).toList.length < 21 := by
  have hdig : ∀ m : ℕ, m < 10 ^ 19 → (toString m).toList.length ≤ 19 := by
    intro m hm
    rw [Nat.toString_eq_repr, Nat.toList_repr]
    exact (Nat.length_toDigits_le_iff (by decide) (by decide)).mpr hm
  cases n with
  | ofNat m =>
    have hm : m < 10 ^ 19 := by
      have hupper : (m : ℤ) < 2 ^ 63 := h.2
      omega
    exact Nat.lt_of_le_of_lt (hdig m hm) (by decide)
  | negSucc m =>
    have hm : m + 1 < 10 ^ 19 := by
      have hlower : -2 ^ 63 ≤ Int.negSucc m := h.1
      omega
    rw [toString_negSucc, length_cons]
    exact Nat.lt_of_le_of_lt (Nat.succ_le_succ (hdig (m + 1) hm)) (by decide)

def intPart (value : Int64) : Bytes :=
  ⟨intText value, by
    have hlength := length_toString_lt ⟨value.le_toInt, value.toInt_lt⟩
    rw [intText, List.length_map, lengthBound]
    omega⟩

theorem intPart_inj {value other : Int64} (h : intPart value = intPart other) : value = other := by
  have htext : intText value = intText other := congrArg Subtype.val h
  have hsmall : ∀ n : ℤ, ∀ c ∈ (toString n).toList, c.toNat < 256 := by
    intro n c hc
    rcases format_chars n c hc with hdigit | rfl
    · exact Nat.lt_of_le_of_lt (Char.isDigit_iff_toNat.mp hdigit).2 (by decide)
    · decide
  have hback : ∀ n : ℤ, ((toString n).toList.map fun c => UInt8.ofNat c.toNat).map
      (fun byte => Char.ofNat byte.toNat) = (toString n).toList := by
    intro n
    rw [map_map]
    refine (map_congr_left fun c hc => ?_).trans (map_id _)
    rw [Function.comp_apply, UInt8.toNat_ofNat', Nat.mod_eq_of_lt (hsmall n c hc), Char.ofNat_toNat]
    rfl
  have hchars : (toString value.toInt).toList = (toString other.toInt).toList := by
    rw [← hback value.toInt, ← hback other.toInt]
    exact congrArg _ htext
  have hsame : value.toInt = other.toInt := by
    have hleft := signedValue_format value.toInt
    rw [hchars, signedValue_format] at hleft
    exact (Option.some.inj hleft).symm
  exact Int64.toInt_inj.mp hsame

def textPart (text : Text) : Bytes := ⟨text.bytes, text.length_bytes_lt⟩

theorem intPart_ne_empty (value : Int64) : (intPart value).val ≠ [] := by
  intro hempty
  have hchars : (toString value.toInt).toList = [] := map_eq_nil_iff.mp hempty
  have hvalue := signedValue_format value.toInt
  rw [hchars] at hvalue
  cases hvalue

theorem textPart_inj {text other : Text} (h : textPart text = textPart other) : text = other :=
  Text.bytes_inj (congrArg Subtype.val h)

def absentPart : Bytes := ⟨[], by decide⟩

/-- The order of byte strings. -/
def byteLe (left right : Bytes) : Prop :=
  left.val.map UInt8.toNat ≤ right.val.map UInt8.toNat

instance : DecidableRel byteLe := fun left right =>
  inferInstanceAs (Decidable (left.val.map UInt8.toNat ≤ right.val.map UInt8.toNat))

instance : Std.Total byteLe := ⟨fun _ _ => le_total _ _⟩

instance : IsTrans Bytes byteLe := ⟨fun _ _ _ => le_trans⟩

theorem byteLe_antisymm {left right : Bytes} (h : byteLe left right) (h' : byteLe right left) :
    left = right :=
  Subtype.ext (map_injective_iff.mpr (fun _ _ => UInt8.toNat_inj.mp) (le_antisymm h h'))

/-- `sort_unstable` and `dedup`. -/
def sortedDistinct {α : Type} [DecidableEq α] (le : α → α → Prop) [DecidableRel le]
    (items : List α) : List α :=
  items.dedup.insertionSort le

theorem sortedDistinct_eq_iff {α : Type} [DecidableEq α] {le : α → α → Prop} [DecidableRel le]
    [Std.Total le] [IsTrans α le] (hant : ∀ a b, le a b → le b a → a = b)
    {items others : List α} :
    sortedDistinct le items = sortedDistinct le others ↔ ∀ a, a ∈ items ↔ a ∈ others := by
  have hmem : ∀ (items : List α) (a : α), a ∈ sortedDistinct le items ↔ a ∈ items := by
    intro items a
    rw [sortedDistinct, mem_insertionSort, mem_dedup]
  constructor
  · intro h a
    rw [← hmem items, ← hmem others, h]
  · intro h
    apply List.Perm.eq_of_pairwise (fun a b _ _ => hant a b)
      (pairwise_insertionSort _ _) (pairwise_insertionSort _ _)
    have hperm : items.dedup.Perm others.dedup := by
      rw [perm_ext_iff_of_nodup items.nodup_dedup others.nodup_dedup]
      intro a
      rw [mem_dedup, mem_dedup, h]
    exact ((perm_insertionSort _ _).trans hperm).trans (perm_insertionSort _ _).symm

/-- `sorted_set`: the count, then the elements in order. -/
def sortedSet (items : List Text) : List Bytes :=
  let sorted := sortedDistinct byteLe (items.map textPart)
  intPart (Int64.ofNat sorted.length) :: sorted

theorem sortedSet_eq_iff {items others : List Text} :
    sortedSet items = sortedSet others ↔ ∀ text, text ∈ items ↔ text ∈ others := by
  have hmem : ∀ (items : List Text) (text : Text),
      textPart text ∈ items.map textPart ↔ text ∈ items := by
    intro items text
    exact mem_map_of_injective fun _ _ => textPart_inj
  constructor
  · intro h text
    have hsame := (sortedDistinct_eq_iff fun _ _ => byteLe_antisymm).mp (cons.inj h).2
      (textPart text)
    rwa [hmem, hmem] at hsame
  · intro h
    have hsame : sortedDistinct byteLe (items.map textPart) =
        sortedDistinct byteLe (others.map textPart) := by
      rw [sortedDistinct_eq_iff fun _ _ => byteLe_antisymm]
      intro bytes
      simp [h]
    rw [sortedSet, sortedSet, hsame]

theorem hexDigit_inj : ∀ m < 16, ∀ n < 16, hexDigit m = hexDigit n → m = n := by decide

theorem hexEncode_inj {bytes other : List UInt8} (h : hexEncode bytes = hexEncode other) :
    bytes = other := by
  have hchars := String.ofList_injective h
  induction bytes generalizing other with
  | nil =>
    cases other with
    | nil => rfl
    | cons byte' other => simp at hchars
  | cons byte bytes ih =>
    cases other with
    | nil => simp at hchars
    | cons byte' other =>
      rw [flatMap_cons, flatMap_cons] at hchars
      obtain ⟨hfirst, hrest⟩ := append_inj hchars rfl
      obtain ⟨hhigh, hlow⟩ := cons.inj hfirst
      have hlt := byte.toNat_lt
      have hlt' := byte'.toNat_lt
      have hhigh' := hexDigit_inj _ (by omega) _ (by omega) hhigh
      have hlow' := hexDigit_inj _ (by omega) _ (by omega) (cons.inj hlow).1
      have hbyte : byte = byte' := UInt8.toNat_inj.mp (by omega)
      rw [hbyte, ih (congrArg String.ofList hrest) hrest]

section

variable (sha256 : List UInt8 → List UInt8)

/-- `m6_digest` and `m6_digest_owned`. -/
def m6Digest (domain : Text) (parts : List Bytes) : String :=
  hexEncode (sha256 ((textPart domain :: parts).flatMap fun bytes => part bytes.val))

theorem m6Digest_inj {sha256 : List UInt8 → List UInt8} (hsha : Function.Injective sha256)
    {domain domain' : Text} {parts parts' : List Bytes}
    (h : m6Digest sha256 domain parts = m6Digest sha256 domain' parts') :
    domain = domain' ∧ parts = parts' := by
  have hmes := hsha (hexEncode_inj h)
  have hframe : ∀ list : List Bytes, (list.flatMap fun bytes => part bytes.val) =
      (list.map Subtype.val).flatMap part := fun list => (flatMap_map _ _ _).symm
  have hbound : ∀ list : List Bytes, ∀ bytes ∈ list.map Subtype.val, bytes.length < lengthBound := by
    intro list bytes hmem
    obtain ⟨bounded, -, rfl⟩ := mem_map.mp hmem
    exact bounded.property
  rw [hframe, hframe] at hmes
  have hlist := map_injective_iff.mpr Subtype.val_injective
    (parts_inj (hbound _) (hbound _) hmes)
  obtain ⟨hdom, hparts⟩ := cons.inj hlist
  exact ⟨textPart_inj hdom, hparts⟩

def domainSlot : Text := ⟨"m6-slot-v1", by decide⟩

def domainFingerprint : Text := ⟨"m6-fingerprint-v1", by decide⟩

def tagText (signal : SignalKind) : Text :=
  ⟨signal.tag, by cases signal <;> decide⟩

def commonFrame (signal : SignalKind) (spaceId : Text) : List Bytes :=
  [textPart (tagText signal), textPart spaceId]

def slotIdEvidenceCluster (spaceId : Text) (groups : List Text) : String :=
  m6Digest sha256 domainSlot (commonFrame .evidenceCluster spaceId ++ sortedSet groups)

def slotIdOrphanWikilink (spaceId labelKey : Text) : String :=
  m6Digest sha256 domainSlot (commonFrame .orphanWikilink spaceId ++ [textPart labelKey])

def slotIdCommunityOverview (spaceId communityId : Text) : String :=
  m6Digest sha256 domainSlot (commonFrame .communityOverview spaceId ++ [textPart communityId])

def slotIdSpaceOverview (spaceId : Text) : String :=
  m6Digest sha256 domainSlot (commonFrame .spaceOverview spaceId)

structure CandidateFingerprint where
  slotId : Text
  signalVersion : Int64
  communityId : Option Text
  publishedGeneration : Option Int64
  coverageEpoch : Int64
  rootIds : List Text
  inputGeneration : Int64
  activeRootDigest : Text
  modelVersion : Text
  projectionVersion : Text
  promptVersion : Text

def optionalPart {α : Type} (encode : α → Bytes) : Option α → Bytes
  | some value => encode value
  | none => absentPart

def CandidateFingerprint.parts (fingerprint : CandidateFingerprint) : List Bytes :=
  [textPart fingerprint.slotId, intPart fingerprint.signalVersion,
    optionalPart textPart fingerprint.communityId,
    optionalPart intPart fingerprint.publishedGeneration, intPart fingerprint.coverageEpoch] ++
  (sortedSet fingerprint.rootIds ++
    [intPart fingerprint.inputGeneration, textPart fingerprint.activeRootDigest,
      textPart fingerprint.modelVersion, textPart fingerprint.projectionVersion,
      textPart fingerprint.promptVersion])

def CandidateFingerprint.digest (fingerprint : CandidateFingerprint) : String :=
  m6Digest sha256 domainFingerprint fingerprint.parts

end

inductive SlotSource where
  | evidenceCluster (spaceId : Text) (groups : List Text)
  | orphanWikilink (spaceId labelKey : Text)
  | communityOverview (spaceId communityId : Text)
  | spaceOverview (spaceId : Text)

namespace SlotSource

def signal : SlotSource → SignalKind
  | evidenceCluster .. => .evidenceCluster
  | orphanWikilink .. => .orphanWikilink
  | communityOverview .. => .communityOverview
  | spaceOverview .. => .spaceOverview

def spaceId : SlotSource → Text
  | evidenceCluster spaceId _ | orphanWikilink spaceId _ | communityOverview spaceId _
  | spaceOverview spaceId => spaceId

def slotId (sha256 : List UInt8 → List UInt8) : SlotSource → String
  | evidenceCluster spaceId groups => slotIdEvidenceCluster sha256 spaceId groups
  | orphanWikilink spaceId labelKey => slotIdOrphanWikilink sha256 spaceId labelKey
  | communityOverview spaceId communityId => slotIdCommunityOverview sha256 spaceId communityId
  | spaceOverview spaceId => slotIdSpaceOverview sha256 spaceId

/-- The parts behind the signal and the space. -/
def key : SlotSource → List Bytes
  | evidenceCluster _ groups => sortedSet groups
  | orphanWikilink _ labelKey => [textPart labelKey]
  | communityOverview _ communityId => [textPart communityId]
  | spaceOverview _ => []

/-- The same signal, the same space, and the same group set, label or community. -/
def Same : SlotSource → SlotSource → Prop
  | evidenceCluster spaceId groups, evidenceCluster spaceId' groups' =>
    spaceId = spaceId' ∧ ∀ group, group ∈ groups ↔ group ∈ groups'
  | orphanWikilink spaceId labelKey, orphanWikilink spaceId' labelKey' =>
    spaceId = spaceId' ∧ labelKey = labelKey'
  | communityOverview spaceId communityId, communityOverview spaceId' communityId' =>
    spaceId = spaceId' ∧ communityId = communityId'
  | spaceOverview spaceId, spaceOverview spaceId' => spaceId = spaceId'
  | _, _ => False

theorem slotId_eq (sha256 : List UInt8 → List UInt8) (source : SlotSource) : source.slotId sha256 =
      m6Digest sha256 domainSlot (commonFrame source.signal source.spaceId ++ source.key) := by
  cases source with
  | evidenceCluster spaceId groups => rfl
  | orphanWikilink spaceId labelKey => rfl
  | communityOverview spaceId communityId => rfl
  | spaceOverview spaceId => rfl

end SlotSource

theorem tagText_inj {signal other : SignalKind} (h : tagText signal = tagText other) :
    signal = other := by
  revert h
  cases signal <;> cases other <;> decide

section

variable {sha256 : List UInt8 → List UInt8}

theorem SlotSource.same_of_slotId (hsha : Function.Injective sha256) {source other : SlotSource}
    (h : source.slotId sha256 = other.slotId sha256) : source.Same other := by
  rw [slotId_eq, slotId_eq] at h
  obtain ⟨-, hparts⟩ := m6Digest_inj hsha h
  obtain ⟨htag, hrest⟩ := cons.inj hparts
  obtain ⟨hspace, hkey⟩ := cons.inj hrest
  have hsign := tagText_inj (textPart_inj htag)
  have hspac := textPart_inj hspace
  cases source with
  | evidenceCluster spaceId groups =>
    cases other with
    | evidenceCluster spaceId' groups' => exact ⟨hspac, sortedSet_eq_iff.mp hkey⟩
    | _ => cases hsign
  | orphanWikilink spaceId labelKey =>
    cases other with
    | orphanWikilink spaceId' labelKey' =>
      exact ⟨hspac, textPart_inj (cons.inj hkey).1⟩
    | _ => cases hsign
  | communityOverview spaceId communityId =>
    cases other with
    | communityOverview spaceId' communityId' =>
      exact ⟨hspac, textPart_inj (cons.inj hkey).1⟩
    | _ => cases hsign
  | spaceOverview spaceId =>
    cases other with
    | spaceOverview spaceId' => exact hspac
    | _ => cases hsign

/-! ### Fingerprints -/

theorem optionalPart_int_inj {value other : Option Int64}
    (h : optionalPart intPart value = optionalPart intPart other) : value = other := by
  cases value with
  | none =>
    cases other with
    | none => rfl
    | some n => exact absurd (congrArg Subtype.val h).symm (intPart_ne_empty n)
  | some m =>
    cases other with
    | none => exact absurd (congrArg Subtype.val h) (intPart_ne_empty m)
    | some n => exact congrArg some (intPart_inj h)

def emptyId : Text := ⟨"", by decide⟩

theorem optionalPart_text (id : Option Text) :
    optionalPart textPart id = textPart (id.getD emptyId) := by
  cases id with
  | none => rfl
  | some text => rfl

/-- The same fields; the root ids as a set, and the community with absent read as empty. -/
structure CandidateFingerprint.Agrees (fingerprint other : CandidateFingerprint) : Prop where
  slotId : fingerprint.slotId = other.slotId
  signalVersion : fingerprint.signalVersion = other.signalVersion
  communityId : fingerprint.communityId.getD emptyId = other.communityId.getD emptyId
  publishedGeneration : fingerprint.publishedGeneration = other.publishedGeneration
  coverageEpoch : fingerprint.coverageEpoch = other.coverageEpoch
  rootIds : ∀ root, root ∈ fingerprint.rootIds ↔ root ∈ other.rootIds
  inputGeneration : fingerprint.inputGeneration = other.inputGeneration
  activeRootDigest : fingerprint.activeRootDigest = other.activeRootDigest
  modelVersion : fingerprint.modelVersion = other.modelVersion
  projectionVersion : fingerprint.projectionVersion = other.projectionVersion
  promptVersion : fingerprint.promptVersion = other.promptVersion

namespace CandidateFingerprint

variable {fingerprint other : CandidateFingerprint}

theorem Agrees.parts (h : fingerprint.Agrees other) : fingerprint.parts = other.parts := by
  unfold CandidateFingerprint.parts
  rw [optionalPart_text, optionalPart_text, h.slotId, h.signalVersion, h.communityId,
    h.publishedGeneration, h.coverageEpoch, sortedSet_eq_iff.mpr h.rootIds, h.inputGeneration,
    h.activeRootDigest, h.modelVersion, h.projectionVersion, h.promptVersion]

theorem agrees_of_parts (h : fingerprint.parts = other.parts) : fingerprint.Agrees other := by
  unfold CandidateFingerprint.parts at h
  rw [optionalPart_text, optionalPart_text] at h
  obtain ⟨hhead, hrest⟩ := append_inj h (by simp only [length_cons, length_nil])
  obtain ⟨hroots, htail⟩ :=
    append_inj' hrest (by simp only [length_cons, length_nil])
  simp only [cons.injEq, and_true] at hhead htail
  obtain ⟨hslot, hsign, hcom, hgen, hcov⟩ := hhead
  obtain ⟨hinput, hact, hmodel, hproj, hpromp⟩ := htail
  exact {
    slotId := textPart_inj hslot
    signalVersion := intPart_inj hsign
    communityId := textPart_inj hcom
    publishedGeneration := optionalPart_int_inj hgen
    coverageEpoch := intPart_inj hcov
    rootIds := sortedSet_eq_iff.mp hroots
    inputGeneration := intPart_inj hinput
    activeRootDigest := textPart_inj hact
    modelVersion := textPart_inj hmodel
    projectionVersion := textPart_inj hproj
    promptVersion := textPart_inj hpromp }

theorem Agrees.digest (sha256 : List UInt8 → List UInt8) (h : fingerprint.Agrees other) :
    fingerprint.digest sha256 = other.digest sha256 := by
  unfold CandidateFingerprint.digest
  rw [h.parts]

theorem digest_eq_iff (hsha : Function.Injective sha256) :
    fingerprint.digest sha256 = other.digest sha256 ↔ fingerprint.Agrees other := by
  constructor
  · intro h
    exact agrees_of_parts (m6Digest_inj hsha h).2
  · intro h
    exact h.digest sha256

end CandidateFingerprint

/-- Without collisions, identities determine what they are derived from. -/
theorem identities_determine (hsha : Function.Injective sha256) :
    (∀ (domain domain' : Text) (parts parts' : List Bytes),
      m6Digest sha256 domain parts = m6Digest sha256 domain' parts' →
        domain = domain' ∧ parts = parts') ∧ (∀ source other : SlotSource,
      source.slotId sha256 = other.slotId sha256 → source.Same other) ∧
    ∀ fingerprint other : CandidateFingerprint,
      fingerprint.digest sha256 = other.digest sha256 ↔ fingerprint.Agrees other := by
  refine ⟨fun domain domain' parts parts' h => ?_, fun source other h => ?_,
    fun fingerprint other => ?_⟩
  · exact m6Digest_inj hsha h
  · exact SlotSource.same_of_slotId hsha h
  · exact CandidateFingerprint.digest_eq_iff hsha

/-- With the text itself in place of its hash. -/
theorem identities_determine_text : Function.Injective (id : List UInt8 → List UInt8) ∧
    ∀ fingerprint other : CandidateFingerprint,
      fingerprint.digest id = other.digest id ↔ fingerprint.Agrees other :=
  ⟨Function.injective_id, (identities_determine Function.injective_id).2.2⟩

def bareFingerprint (communityId : Option Text) : CandidateFingerprint where
  slotId := emptyId
  signalVersion := 1
  communityId := communityId
  publishedGeneration := none
  coverageEpoch := 0
  rootIds := []
  inputGeneration := 0
  activeRootDigest := emptyId
  modelVersion := emptyId
  projectionVersion := emptyId
  promptVersion := emptyId

theorem bareFingerprint_agrees : (bareFingerprint none).Agrees (bareFingerprint (some emptyId)) :=
  ⟨rfl, rfl, rfl, rfl, rfl, fun _ => Iff.rfl, rfl, rfl, rfl, rfl, rfl⟩

/-- No community and the community with the empty id give one digest, whatever the hash. -/
theorem absent_community_is_the_empty_id : ∃ fingerprint other : CandidateFingerprint,
      fingerprint.communityId ≠ other.communityId ∧
      ∀ sha256 : List UInt8 → List UInt8, fingerprint.digest sha256 = other.digest sha256 :=
  ⟨bareFingerprint none, bareFingerprint (some emptyId), nofun,
    fun sha256 => bareFingerprint_agrees.digest sha256⟩

end

end Wenlan.Genesis.Identity
