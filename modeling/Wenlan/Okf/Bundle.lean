import Wenlan.Projection.PageNames
import Wenlan.Support.KeyTable

/-!
# The files of a bundle

`export/okf.rs` up to its writes: which file a page and a source get, which names a marker may
claim, and the marker.  The texts of the files and the JSON of the marker are left to the library.
-/

namespace Wenlan.Okf

open Support.Json List
open Projection (endsWith joinDashes mem_joinDashes mem_trimDashes pageStemClearOfReserved
  trimDashes)
open Support (KeyTable)

abbrev Bytes := List UInt8

/-- A page; what only its text needs is one value. -/
structure Page where
  id : String
  title : String
  createdAt : String
  sourceMemoryIds : List String
  text : String

structure ExportMarker where
  okfVersion : String
  generatedBy : String
  files : List String
  digests : KeyTable String String

/-- What the export uses of other code: Unicode, the renderers, SHA-256 in hexadecimal, serde_json
and the names that the file system takes. -/
structure Library where
  toLowercase : String → String
  isAlphanumeric : Char → Bool
  isAlphanumeric_ascii : ∀ c : Char, c.toNat < 0x80 → isAlphanumeric c = c.isAlphanum
  renderPageFile : List Page → List (String × String) → List (String × String) → Page → Bytes
  renderSourceStub : String → Bytes
  renderBundleIndex : List Page → List (String × String) → Bytes
  digestOf : Bytes → String
  encode : ExportMarker → Bytes
  decode : Bytes → Option ExportMarker
  fits : String → Bool
  version : String

inductive Folder where
  | pages
  | sources
  deriving DecidableEq

def Folder.name : Folder → String
  | .pages => "pages"
  | .sources => "sources"

/-- A place for a bundle file. -/
inductive Entry where
  | index
  | within (folder : Folder) (name : String)
  deriving DecidableEq

def indexFile : String := "index.md"

def Entry.text : Entry → String
  | .index => indexFile
  | .within folder name => folder.name ++ "/" ++ name

def stripPrefix (lead text : String) : Option String :=
  if lead.toList.isPrefixOf text.toList then
    some (String.ofList (text.toList.drop lead.toList.length))
  else none

def stemOf (name : String) : List Char := name.toList.take (name.toList.length - 3)

/-- The names that `marker_entry_is_safe` lets pass in a folder. -/
def safeName (name : String) : Bool :=
  endsWith name ".md" && stemOf name != [] && (stemOf name).head? != some '.' &&
    !(stemOf name).contains '/' && !(stemOf name).contains '\\' &&
    !decide (['.', '.'] <:+: stemOf name)

/-- `marker_entry_is_safe`, with the place that a safe entry names. -/
def safeEntry (text : String) : Option Entry :=
  if text = indexFile then some .index
  else
    match stripPrefix "pages/" text with
    | some name => if safeName name then some (.within .pages name) else none
    | none =>
      match stripPrefix "sources/" text with
      | some name => if safeName name then some (.within .sources name) else none
      | none => none

def Entry.Safe : Entry → Prop
  | .index => True
  | .within _ name => safeName name = true

theorem stripPrefix_eq_some {lead text name : String} (h : stripPrefix lead text = some name) :
    lead ++ name = text := by
  unfold stripPrefix at h
  split_ifs at h with hlead
  obtain ⟨rest, hrest⟩ := isPrefixOf_iff_prefix.mp hlead
  cases h
  apply String.toList_inj.mp
  rw [String.toList_append, String.toList_ofList, ← hrest, drop_left]

theorem stripPrefix_append (lead name : String) : stripPrefix lead (lead ++ name) = some name := by
  unfold stripPrefix
  rw [String.toList_append, if_pos (List.isPrefixOf_iff_prefix.mpr (prefix_append _ _)),
    drop_left, String.ofList_toList]

theorem text_of_safeEntry {text : String} {entry : Entry} (h : safeEntry text = some entry) :
    entry.text = text ∧ entry.Safe := by
  unfold safeEntry at h
  split_ifs at h with hindex
  · cases h
    exact ⟨hindex.symm, trivial⟩
  · cases hpages : stripPrefix "pages/" text with
    | some name =>
      rw [hpages] at h
      dsimp only at h
      split_ifs at h with hsafe
      cases h
      exact ⟨stripPrefix_eq_some hpages, hsafe⟩
    | none =>
      rw [hpages] at h
      cases hsources : stripPrefix "sources/" text with
      | some name =>
        rw [hsources] at h
        dsimp only at h
        split_ifs at h with hsafe
        cases h
        exact ⟨stripPrefix_eq_some hsources, hsafe⟩
      | none =>
        rw [hsources] at h
        cases h

theorem safeEntry_text {entry : Entry} (h : entry.Safe) : safeEntry entry.text = some entry := by
  cases entry with
  | index => rfl
  | within folder name =>
    have hsafe : safeName name := h
    have hne : (Entry.within folder name).text ≠ indexFile := by
      intro heq
      have hchars := congrArg (fun text => text.toList.head?) heq
      cases folder <;> simp [Entry.text, Folder.name, indexFile, String.toList_append] at hchars
    unfold safeEntry
    rw [if_neg hne]
    cases folder with
    | pages =>
      have hstrip : stripPrefix "pages/" (Entry.within .pages name).text = some name :=
        stripPrefix_append "pages/" name
      rw [hstrip]
      exact if_pos hsafe
    | sources =>
      have hother : stripPrefix "pages/" (Entry.within .sources name).text = none := by
        unfold stripPrefix
        rw [if_neg]
        rw [List.isPrefixOf_iff_prefix]
        simp [Entry.text, Folder.name, String.toList_append]
      have hstrip : stripPrefix "sources/" (Entry.within .sources name).text = some name :=
        stripPrefix_append "sources/" name
      rw [hother, hstrip]
      exact if_pos hsafe

theorem text_inj {entry other : Entry} (hsafe : entry.Safe) (hother : other.Safe)
    (h : entry.text = other.text) : entry = other := by
  have hentry := safeEntry_text hsafe
  rw [h, safeEntry_text hother] at hentry
  exact (Option.some.inj hentry).symm

def slugify (library : Library) (title : String) : String :=
  let kept := (library.toLowercase title).toList.filterMap fun c =>
    if library.isAlphanumeric c || c == '-' then some c else if c == ' ' then some '-' else none
  String.ofList (trimDashes (joinDashes kept))

/-- How `sanitize_stub_id` writes one character. -/
def sanitizeChar (c : Char) : List Char :=
  if c.isAlphanum || c == '_' || c == '-' then [c]
  else '_' :: (String.utf8EncodeChar c).flatMap fun byte =>
    [hexDigit (byte.toNat / 16), hexDigit (byte.toNat % 16)]

def sanitizeStubId (id : String) : String := String.ofList (id.toList.flatMap sanitizeChar)

def stubFilename (id : String) : String := sanitizeStubId id ++ ".md"

def pageBase (library : Library) (page : Page) : String :=
  let slug := slugify library page.title
  pageStemClearOfReserved (if slug = "" then sanitizeStubId page.id else slug)

/-- The candidates from `n` on; one of `used.length + 1` candidates is free. -/
def searchName (used : List String) (base : String) : ℕ → ℕ → String → String
  | 0, _, candidate => candidate
  | tries + 1, n, candidate =>
    if candidate ∈ used then
      searchName used base tries (n + 1) (base ++ "-" ++ toString n ++ ".md")
    else candidate

def exportsBefore (page other : Page) : Prop :=
  page.createdAt < other.createdAt ∨ page.createdAt = other.createdAt ∧ page.id ≤ other.id

instance : DecidableRel exportsBefore := fun _ _ => inferInstanceAs (Decidable (_ ∨ _))

def planPageFilenames (library : Library) (pages : List Page) : List (String × String) :=
  (pages.insertionSort exportsBefore).foldl (fun planned page =>
    let used := planned.map Prod.snd
    let base := pageBase library page
    planned ++ [(page.id, searchName used base (used.length + 1) 2 (base ++ ".md"))]) []

/-- The distinct members in order, as a sorted set lists them. -/
def sorted (texts : List String) : List String := texts.dedup.insertionSort (· ≤ ·)

@[simp] theorem mem_sorted {texts : List String} {text : String} :
    text ∈ sorted texts ↔ text ∈ texts := by
  rw [sorted, mem_insertionSort, mem_dedup]

theorem nodup_sorted (texts : List String) : (sorted texts).Nodup :=
  (perm_insertionSort _ _).nodup_iff.mpr texts.nodup_dedup

def stubIds (pages : List Page) : List String := sorted (pages.flatMap Page.sourceMemoryIds)

def plannedEntries (library : Library) (pages : List Page) : List Entry :=
  (planPageFilenames library pages).map (fun planned => Entry.within .pages planned.2) ++
    (stubIds pages).map (fun id => Entry.within .sources (stubFilename id)) ++ [.index]

def plannedTexts (library : Library) (pages : List Page) : List String :=
  (plannedEntries library pages).map Entry.text

/-! ### Planned names are safe -/

def PlainChar (c : Char) : Prop := c ≠ '/' ∧ c ≠ '\\' ∧ c ≠ '.'

theorem stemOf_md (stem : String) : stemOf (stem ++ ".md") = stem.toList := by
  unfold stemOf
  have hlen : (stem ++ ".md").toList.length - 3 = stem.toList.length := by
    rw [String.toList_append, length_append]
    exact Nat.add_sub_cancel _ 3
  rw [hlen, String.toList_append, take_left]

theorem safeName_md {stem : String} (hne : stem ≠ "") (hplain : ∀ c ∈ stem.toList, PlainChar c) :
    safeName (stem ++ ".md") := by
  have hmd : endsWith (stem ++ ".md") ".md" := by
    unfold endsWith
    rw [String.toList_append, isSuffixOf_iff_suffix]
    exact suffix_append _ _
  have hnil : stem.toList ≠ [] := fun h => hne (String.toList_eq_nil_iff.mp h)
  have hhead : stem.toList.head? ≠ some '.' := by
    intro h
    exact (hplain '.' (mem_of_mem_head? h)).2.2 rfl
  have hslash : '/' ∉ stem.toList := fun h => (hplain '/' h).1 rfl
  have hback : '\\' ∉ stem.toList := fun h => (hplain '\\' h).2.1 rfl
  have hdots : ¬ ['.', '.'] <:+: stem.toList := by
    intro h
    exact (hplain '.' (h.subset mem_cons_self)).2.2 rfl
  unfold safeName
  rw [stemOf_md, hmd]
  simp [hnil, hhead, hslash, hback, hdots]

theorem plainChar_of_isAlphanumeric {library : Library} {c : Char}
    (h : library.isAlphanumeric c) : PlainChar c := by
  refine ⟨?_, ?_, ?_⟩
  all_goals
    rintro rfl
    rw [library.isAlphanumeric_ascii _ (by decide)] at h
    exact absurd h (by decide)

theorem plainChar_slugify (library : Library) (title : String) :
    ∀ c ∈ (slugify library title).toList, PlainChar c := by
  intro c hmem
  unfold slugify at hmem
  rw [String.toList_ofList] at hmem
  obtain ⟨raw, -, hraw⟩ := mem_filterMap.mp (mem_joinDashes (mem_trimDashes hmem))
  have hdash : PlainChar '-' := by
    unfold PlainChar
    decide
  split_ifs at hraw with hkept
  · cases hraw
    rcases Bool.or_eq_true_iff.mp hkept with halnum | heq
    · exact plainChar_of_isAlphanumeric halnum
    · rw [beq_iff_eq.mp heq]
      exact hdash
  · cases hraw
    exact hdash

theorem plainChar_hexDigit {n : ℕ} (h : n < 16) : PlainChar (hexDigit n) := by
  have hall : ∀ n < 16, hexDigit n ≠ '/' ∧ hexDigit n ≠ '\\' ∧ hexDigit n ≠ '.' := by decide
  exact hall n h

theorem plainChar_sanitizeStubId (id : String) : ∀ c ∈ (sanitizeStubId id).toList, PlainChar c := by
  intro c hmem
  unfold sanitizeStubId at hmem
  rw [String.toList_ofList] at hmem
  obtain ⟨raw, -, hraw⟩ := mem_flatMap.mp hmem
  unfold sanitizeChar at hraw
  split_ifs at hraw with hkept
  · rw [mem_singleton.mp hraw]
    refine ⟨?_, ?_, ?_⟩
    all_goals
      rintro rfl
      exact absurd hkept (by decide)
  · rcases mem_cons.mp hraw with rfl | hraw
    · unfold PlainChar
      decide
    · obtain ⟨byte, -, hbyte⟩ := mem_flatMap.mp hraw
      have hlt := byte.toNat_lt
      rcases mem_cons.mp hbyte with rfl | hbyte
      · exact plainChar_hexDigit (by omega)
      · rw [mem_singleton.mp hbyte]
        exact plainChar_hexDigit (by omega)

theorem sanitizeStubId_ne_empty {id : String} (h : id ≠ "") : sanitizeStubId id ≠ "" := by
  intro hempty
  have hchars : id.toList.flatMap sanitizeChar = [] := by
    have htext := congrArg String.toList hempty
    unfold sanitizeStubId at htext
    rw [String.toList_ofList] at htext
    exact htext
  have hnone : id.toList = [] := by
    refine eq_nil_iff_forall_not_mem.mpr fun c hmem => ?_
    have hsan := flatMap_eq_nil_iff.mp hchars c hmem
    unfold sanitizeChar at hsan
    split_ifs at hsan
  exact h (String.toList_eq_nil_iff.mp hnone)

theorem pageStemClearOfReserved_cases (slug : String) :
    pageStemClearOfReserved slug = slug ∨ pageStemClearOfReserved slug = slug ++ "-page" := by
  unfold pageStemClearOfReserved
  split_ifs
  · exact .inr rfl
  · exact .inl rfl

theorem plainChar_append {a b : String} (ha : ∀ c ∈ a.toList, PlainChar c)
    (hb : ∀ c ∈ b.toList, PlainChar c) : ∀ c ∈ (a ++ b).toList, PlainChar c := by
  intro c hmem
  rw [String.toList_append, mem_append] at hmem
  exact hmem.elim (ha c) (hb c)

theorem append_ne_empty {a b : String} (h : a ≠ "") : a ++ b ≠ "" := by
  intro hempty
  have hchars := congrArg String.toList hempty
  rw [String.toList_append] at hchars
  exact h (String.toList_eq_nil_iff.mp (append_eq_nil_iff.mp hchars).1)

theorem pageBase_plain (library : Library) {page : Page} (hid : page.id ≠ "") :
    pageBase library page ≠ "" ∧ ∀ c ∈ (pageBase library page).toList, PlainChar c := by
  have hstem : (if slugify library page.title = "" then sanitizeStubId page.id
      else slugify library page.title) ≠ "" ∧
      ∀ c ∈ (if slugify library page.title = "" then sanitizeStubId page.id
        else slugify library page.title).toList, PlainChar c := by
    split_ifs with hslug
    · exact ⟨sanitizeStubId_ne_empty hid, plainChar_sanitizeStubId page.id⟩
    · exact ⟨hslug, plainChar_slugify library page.title⟩
  unfold pageBase
  rcases pageStemClearOfReserved_cases (if slugify library page.title = "" then
    sanitizeStubId page.id else slugify library page.title) with h | h
  · rw [h]
    exact hstem
  · rw [h]
    exact ⟨append_ne_empty hstem.1, plainChar_append hstem.2 (by simp [PlainChar])⟩

theorem searchName_form (used : List String) (base : String) :
    ∀ tries n candidate, searchName used base tries n candidate = candidate ∨
      ∃ m : ℕ, searchName used base tries n candidate = base ++ "-" ++ toString m ++ ".md" := by
  intro tries
  induction tries with
  | zero => exact fun n candidate => .inl rfl
  | succ tries ih =>
    intro n candidate
    rw [searchName]
    split_ifs
    · rcases ih (n + 1) (base ++ "-" ++ toString n ++ ".md") with h | h
      · exact .inr ⟨n, h⟩
      · exact .inr h
    · exact .inl rfl

theorem plainChar_toString (n : ℕ) : ∀ c ∈ (toString n).toList, PlainChar c := by
  intro c hmem
  have hdigit := toString_digits n c hmem
  refine ⟨?_, ?_, ?_⟩
  all_goals
    rintro rfl
    exact absurd hdigit (by decide)

variable {base : String}

theorem safeName_searchName {used : List String} {tries : ℕ} (hne : base ≠ "")
    (hplain : ∀ c ∈ base.toList, PlainChar c) :
    safeName (searchName used base tries 2 (base ++ ".md")) := by
  rcases searchName_form used base tries 2 (base ++ ".md") with h | ⟨m, h⟩
  · rw [h]
    exact safeName_md hne hplain
  · rw [h]
    refine safeName_md (append_ne_empty (append_ne_empty hne)) ?_
    have hdash : ∀ c ∈ "-".toList, PlainChar c := by simp [PlainChar]
    exact plainChar_append (plainChar_append hplain hdash) (plainChar_toString m)

theorem plannedEntries_safe (library : Library) {pages : List Page}
    (hids : ∀ page ∈ pages, page.id ≠ "" ∧ ∀ id ∈ page.sourceMemoryIds, id ≠ "") :
    ∀ entry ∈ plannedEntries library pages, entry.Safe := by
  have hpages : ∀ planned ∈ planPageFilenames library pages, safeName planned.2 := by
    have hfold : ∀ (order : List Page) (planned : List (String × String)),
        (∀ page ∈ order, page.id ≠ "") → (∀ known ∈ planned, safeName known.2) →
        ∀ known ∈ order.foldl (fun planned page =>
          planned ++ [(page.id, searchName (planned.map Prod.snd) (pageBase library page)
            ((planned.map Prod.snd).length + 1) 2 (pageBase library page ++ ".md"))]) planned,
          safeName known.2 := by
      intro order
      induction order with
      | nil => exact fun planned _ hplan => hplan
      | cons page rest ih =>
        intro planned horder hplan
        rw [foldl_cons]
        refine ih _ (fun other hmem => horder other (mem_cons_of_mem _ hmem)) ?_
        intro known hknown
        rcases mem_append.mp hknown with hold | hnew
        · exact hplan known hold
        · rw [mem_singleton.mp hnew]
          obtain ⟨hne, hplain⟩ := pageBase_plain library (horder page mem_cons_self)
          exact safeName_searchName hne hplain
    refine hfold _ [] ?_ fun known hknown => by cases hknown
    intro page hmem
    exact (hids page ((mem_insertionSort _).mp hmem)).1
  intro entry hmem
  rcases mem_append.mp hmem with hmem | hmem
  · rcases mem_append.mp hmem with hmem | hmem
    · obtain ⟨planned, hplan, rfl⟩ := mem_map.mp hmem
      exact hpages planned hplan
    · obtain ⟨id, hid, rfl⟩ := mem_map.mp hmem
      obtain ⟨page, hpage, hsourc⟩ := mem_flatMap.mp (mem_sorted.mp hid)
      exact safeName_md (sanitizeStubId_ne_empty ((hids page hpage).2 id hsourc))
        (plainChar_sanitizeStubId id)
  · rw [mem_singleton.mp hmem]
    trivial

end Wenlan.Okf
