import Wenlan.Okf.Export

/-!
# What an export has done so far

The account of a tree in the middle of an export, against the tree that the export was accepted on:
what is still there, what went to the archive, what was let go and what was written.
-/

namespace Wenlan.Okf

open Pages (bind_eq_ok refuseIf_eq_ok)
open Support.Interruptible

section Account

variable (library : Library) (request : Request) (old : OldBundle) (start : Tree)

def Obstructed (entry : Entry) : Prop :=
  library.fits entry.fileName = false ∨
    ∃ node, start.lookup (.entry entry) = some node ∧ node.isPlainFile = false

instance (entry : Entry) : Decidable (Obstructed library start entry) :=
  decidable_of_iff (library.fits entry.fileName = false ∨
      (start.lookup (.entry entry)).any (fun node => !node.isPlainFile) = true) (by
    unfold Obstructed
    rw [Option.any_eq_true]
    simp only [Bool.not_eq_true'])

def writtenIds : List String :=
  ((planPageFilenames library request.pages).filter fun known =>
    decide ((pageOf request.pages known.1).isSome = true ∧
      ¬ Obstructed library start (.within .pages known.2))).map Prod.fst

def finalBytes (entry : Entry) : Option Bytes :=
  if entry = .index then some (indexBytes library request (writtenIds library request start))
  else (plannedBytes library request).lookup entry.text

/-- The bytes that the old marker, or a lack of digests, counts as those of an export. -/
def OursBytes (entry : Entry) (bytes : Bytes) : Prop :=
  match old.digests.lookup entry.text with
  | some recorded => library.digestOf bytes = recorded
  | none => (plannedBytes library request).lookup entry.text = some bytes

/-- The plain file of a listed entry is in the archive, or its bytes are those of an export. -/
def Freed (entry : Entry) (tree : Tree) : Prop :=
  ∃ bytes exported, start.lookup (.entry entry) = some (.file bytes exported) ∧ entry.Safe ∧
    entry.text ∈ old.files ∧
    ((∃ name, start.lookup (.archived entry.parent name) = none ∧
      tree.lookup (.archived entry.parent name) = some (.file bytes exported)) ∨
      OursBytes library request old entry bytes)

def Gone (entry : Entry) (tree : Tree) : Prop :=
  tree.lookup (.entry entry) = none ∧ Freed library request old start entry tree

def Written (entry : Entry) (tree : Tree) : Prop :=
  entry ∈ plannedEntries library request.pages ∧
    (∃ bytes n, finalBytes library request start entry = some bytes ∧
      tree.lookup (.entry entry) = some (.file (bytes.take n) true)) ∧
    (start.lookup (.entry entry) = none ∨ Freed library request old start entry tree)

def Place.isDirectory : Place → Bool
  | .target => true
  | .archive => true
  | .folder _ => true
  | .archiveFolder _ => true
  | _ => false

/-- The account of every place; of the marker only that nothing but a plain file is replaced. -/
structure Account (tree : Tree) : Prop where
  entries : ∀ entry, tree.lookup (.entry entry) = start.lookup (.entry entry) ∨
    Gone library request old start entry tree ∨ Written library request old start entry tree
  archived : ∀ folder name node, start.lookup (.archived folder name) = some node →
    tree.lookup (.archived folder name) = some node
  directories : ∀ place, place.isDirectory = true → tree.lookup place = start.lookup place ∨
    start.lookup place = none ∧ tree.lookup place = some .folder
  beside : ∀ path, tree.lookup (.beside path) = start.lookup (.beside path)
  marker : tree.lookup .marker = start.lookup .marker ∨
    ∀ node, start.lookup .marker = some node → node.isPlainFile = true

end Account

section Accept

variable {library : Library} {request : Request} {old : OldBundle} {start tree : Tree}

theorem readOldMarker_eq_some {marker : ExportMarker}
    (h : readOldMarker library request start = .ok (some marker)) :
    ∃ bytes, readBytes start .marker = .ok (some bytes) ∧ library.decode bytes = some marker ∧
      marker.okfVersion = okfVersion ∧ "wenlan/".toList <+: marker.generatedBy.toList := by
  obtain ⟨found, hread, h⟩ := bind_eq_ok h
  cases found with
  | none => cases h
  | some bytes =>
    dsimp only at h
    refine ⟨bytes, hread, ?_⟩
    cases hdecode : library.decode bytes with
    | none =>
      rw [hdecode] at h
      cases h
    | some decoded =>
      rw [hdecode] at h
      obtain ⟨_, hvers, h⟩ := bind_eq_ok h
      obtain ⟨_, hwrit, h⟩ := bind_eq_ok h
      cases h
      exact ⟨rfl, not_not.mp (refuseIf_eq_ok hvers), not_not.mp (refuseIf_eq_ok hwrit)⟩

/-- What the checks establish. -/
structure Accepted (library : Library) (request : Request) (old : OldBundle) (start : Tree) :
    Prop where
  noLinks : ∀ place, place = .target ∨ (∃ folder, place = .folder folder) →
    ∀ beyond, start.lookup place ≠ some (.link beyond)
  noFile : ∀ bytes exported, start.lookup .target ≠ some (.file bytes exported)
  marker : ∃ marker, readOldMarker library request start = .ok marker ∧ old = OldBundle.of marker ∧
    (marker = none → ¬ isNonempty start)
  planned : ∀ entry ∈ plannedEntries library request.pages, .entry entry ∈ start →
    entry.text ∈ old.files

theorem not_link_of_refuseLink {place : Place} {shown : String} {u : Unit}
    (h : refuseLink start place shown = .ok u) (beyond : Beyond) :
    start.lookup place ≠ some (.link beyond) := by
  intro hlink
  apply refuseIf_eq_ok h
  rw [hlink]
  rfl

theorem accepted_of_accept (h : accept library request start = .ok old) :
    Accepted library request old start := by
  obtain ⟨_, htarg, h⟩ := bind_eq_ok h
  obtain ⟨_, hpages, h⟩ := bind_eq_ok h
  obtain ⟨_, hsourc, h⟩ := bind_eq_ok h
  obtain ⟨_, hfile, h⟩ := bind_eq_ok h
  obtain ⟨marker, hmark, h⟩ := bind_eq_ok h
  obtain ⟨_, hempty, h⟩ := bind_eq_ok h
  obtain ⟨_, hfor, h⟩ := bind_eq_ok h
  cases h
  constructor
  · rintro place (rfl | ⟨folder, rfl⟩)
    · exact not_link_of_refuseLink htarg
    · cases folder with
      | pages => exact not_link_of_refuseLink hpages
      | sources => exact not_link_of_refuseLink hsourc
  · intro bytes exported hplain
    apply refuseIf_eq_ok hfile
    rw [hplain]
    rfl
  · refine ⟨marker, hmark, rfl, ?_⟩
    rintro rfl hnon
    exact refuseIf_eq_ok hempty ⟨rfl, hnon⟩
  · intro entry hplan hmem
    unfold refuseForeign at hfor
    cases hfind : (sorted (plannedTexts library request.pages)).find? fun text =>
        decide (text ∉ (OldBundle.of marker).files ∧ ∃ entry ∈ plannedEntries library request.pages,
          entry.text = text ∧ .entry entry ∈ start) with
    | some text =>
      rw [hfind] at hfor
      cases hfor
    | none =>
      have hnone := List.find?_eq_none.mp hfind entry.text
        (mem_sorted.mpr (List.mem_map_of_mem hplan))
      by_contra hlist
      exact hnone (decide_eq_true ⟨hlist, entry, hplan, rfl, hmem⟩)

end Accept

/-! ## Steps keep the account -/

section Steps

variable {library : Library} {request : Request} {old : OldBundle} {start tree next : Tree}
  {entry : Entry}

def KeepsArchive (tree next : Tree) : Prop :=
  ∀ folder name node, tree.lookup (.archived folder name) = some node →
    next.lookup (.archived folder name) = some node

theorem Freed.mono (h : Freed library request old start entry tree)
    (hkeeps : KeepsArchive tree next) : Freed library request old start entry next := by
  obtain ⟨bytes, exported, hstart, hsafe, hlist, hcopy | hours⟩ := h
  · obtain ⟨name, hnew, hcopy⟩ := hcopy
    exact ⟨bytes, exported, hstart, hsafe, hlist, .inl ⟨name, hnew, hkeeps _ _ _ hcopy⟩⟩
  · exact ⟨bytes, exported, hstart, hsafe, hlist, .inr hours⟩

theorem entry_kept {other : Entry} (h : tree.lookup (.entry other) = start.lookup (.entry other) ∨
      Gone library request old start other tree ∨ Written library request old start other tree)
    (hsame : next.lookup (.entry other) = tree.lookup (.entry other))
    (hkeeps : KeepsArchive tree next) : next.lookup (.entry other) = start.lookup (.entry other) ∨
      Gone library request old start other next ∨ Written library request old start other next := by
  rcases h with h | ⟨hnone, hfreed⟩ | ⟨hplan, ⟨bytes, n, hbytes, hwritte⟩, hover⟩
  · exact .inl (hsame.trans h)
  · exact .inr (.inl ⟨hsame.trans hnone, hfreed.mono hkeeps⟩)
  · exact .inr (.inr ⟨hplan, ⟨bytes, n, hbytes, hsame.trans hwritte⟩,
      hover.imp_right fun hfreed => hfreed.mono hkeeps⟩)

theorem account_start : Account library request old start start where
  entries _ := .inl rfl
  archived _ _ _ h := h
  directories _ _ := .inl rfl
  beside _ := rfl
  marker := .inl rfl

theorem lookup_mkdir (tree : Tree) {place : Place} (hdir : place.isDirectory) (other : Place)
    (hfalse : other.isDirectory = false) :
    (tree.insert place .folder).lookup other = tree.lookup other := by
  refine AList.lookup_insert_ne ?_
  rintro rfl
  rw [hdir] at hfalse
  cases hfalse

section

variable (h : Account library request old start tree)
include h

theorem Account.mkdir {place : Place}
    (hdir : place.isDirectory) (hnone : tree.lookup place = none) :
    Account library request old start (tree.insert place .folder) := by
  have hother := lookup_mkdir tree hdir
  have hkeeps : KeepsArchive tree (tree.insert place .folder) := by
    intro folder name node hnode
    rw [hother _ rfl]
    exact hnode
  constructor
  · intro entry
    exact entry_kept (h.entries entry) (hother _ rfl) hkeeps
  · intro folder name node hnode
    exact hkeeps folder name node (h.archived folder name node hnode)
  · intro other hfolder
    by_cases hsame : other = place
    · subst hsame
      rw [AList.lookup_insert]
      rcases h.directories other hfolder with hstart | ⟨hstart, -⟩
      · exact .inr ⟨hstart.symm.trans hnone, rfl⟩
      · exact .inr ⟨hstart, rfl⟩
    · rw [AList.lookup_insert_ne hsame]
      exact h.directories other hfolder
  · intro path
    rw [hother _ rfl]
    exact h.beside path
  · rw [hother _ rfl]
    exact h.marker

theorem Account.insert_marker
    (hplain : ∀ node, start.lookup .marker = some node → node.isPlainFile) (node : Node) :
    Account library request old start (tree.insert .marker node) := by
  have hother : ∀ other, other ≠ .marker →
      (tree.insert .marker node).lookup other = tree.lookup other :=
    fun other hne => AList.lookup_insert_ne hne
  have hkeeps : KeepsArchive tree (tree.insert .marker node) := by
    intro folder name node' hnode
    rw [hother _ (by simp)]
    exact hnode
  constructor
  · intro entry
    exact entry_kept (h.entries entry) (hother _ (by simp)) hkeeps
  · intro folder name node' hnode
    exact hkeeps folder name node' (h.archived folder name node' hnode)
  · intro other hfolder
    rw [hother]
    · exact h.directories other hfolder
    · rintro rfl
      cases hfolder
  · intro path
    rw [hother _ (by simp)]
    exact h.beside path
  · exact .inr hplain

theorem Account.of_entry
    (hother : ∀ place, place ≠ .entry entry → next.lookup place = tree.lookup place)
    (hentry : next.lookup (.entry entry) = start.lookup (.entry entry) ∨
      Gone library request old start entry next ∨ Written library request old start entry next) :
    Account library request old start next := by
  have hkeeps : KeepsArchive tree next := by
    intro folder name node hnode
    rw [hother _ (by simp)]
    exact hnode
  constructor
  · intro other
    by_cases hsame : other = entry
    · rw [hsame]
      exact hentry
    · refine entry_kept (h.entries other) (hother _ ?_) hkeeps
      rw [Ne, Place.entry.injEq]
      exact hsame
  · intro folder name node hnode
    exact hkeeps folder name node (h.archived folder name node hnode)
  · intro other hfolder
    rw [hother]
    · exact h.directories other hfolder
    · rintro rfl
      cases hfolder
  · intro path
    rw [hother _ (by simp)]
    exact h.beside path
  · rw [hother _ (by simp)]
    exact h.marker

theorem Account.erase (hfreed : Freed library request old start entry tree) :
    Account library request old start (tree.erase (.entry entry)) := by
  have hother : ∀ place, place ≠ .entry entry →
      (tree.erase (.entry entry)).lookup place = tree.lookup place :=
    fun place hne => AList.lookup_erase_ne hne
  refine h.of_entry hother (.inr (.inl ⟨AList.lookup_erase _ _, ?_⟩))
  refine hfreed.mono ?_
  intro folder name node hnode
  rw [hother _ (by simp)]
  exact hnode

theorem Account.write (hplan : entry ∈ plannedEntries library request.pages) {bytes : Bytes}
    (hbytes : finalBytes library request start entry = some bytes)
    (hover : start.lookup (.entry entry) = none ∨ Freed library request old start entry tree)
    (n : ℕ) :
    Account library request old start (tree.insert (.entry entry) (.file (bytes.take n) true)) := by
  have hother : ∀ place, place ≠ .entry entry →
      (tree.insert (.entry entry) (.file (bytes.take n) true)).lookup place = tree.lookup place :=
    fun place hne => AList.lookup_insert_ne hne
  refine h.of_entry hother (.inr (.inr ⟨hplan, ⟨bytes, n, hbytes, AList.lookup_insert _⟩, ?_⟩))
  refine hover.imp_right fun hfreed => hfreed.mono ?_
  intro folder name node hnode
  rw [hother _ (by simp)]
  exact hnode

theorem Account.rename {bytes : Bytes}
    {exported : Bool} {name : String} (hsafe : entry.Safe) (hlist : entry.text ∈ old.files)
    (hsame : tree.lookup (.entry entry) = start.lookup (.entry entry))
    (hfile : start.lookup (.entry entry) = some (.file bytes exported))
    (hfree : tree.lookup (.archived entry.parent name) = none) : Account library request old start
        (renameNode (.entry entry) (.archived entry.parent name) tree) ∧
      Gone library request old start entry
        (renameNode (.entry entry) (.archived entry.parent name) tree) ∧
      KeepsArchive tree (renameNode (.entry entry) (.archived entry.parent name) tree) := by
  have hlook : ∀ place, (renameNode (.entry entry) (.archived entry.parent name) tree).lookup
      place = if place = .archived entry.parent name then some (.file bytes exported)
        else if place = .entry entry then none else tree.lookup place :=
    lookup_renameNode (hsame.trans hfile)
  have hfreeS : start.lookup (.archived entry.parent name) = none := by
    cases hstart : start.lookup (.archived entry.parent name) with
    | none => rfl
    | some node =>
      rw [h.archived _ _ _ hstart] at hfree
      cases hfree
  have hkeeps : KeepsArchive tree
      (renameNode (.entry entry) (.archived entry.parent name) tree) := by
    intro folder other node hnode
    rw [hlook, if_neg, if_neg (by simp)]
    · exact hnode
    · intro heq
      rw [heq, hfree] at hnode
      cases hnode
  have hgone : Gone library request old start entry
      (renameNode (.entry entry) (.archived entry.parent name) tree) := by
    refine ⟨?_, bytes, exported, hfile, hsafe, hlist, .inl ⟨name, hfreeS, ?_⟩⟩
    · rw [hlook, if_neg (by simp), if_pos rfl]
    · rw [hlook, if_pos rfl]
  refine ⟨?_, hgone, hkeeps⟩
  constructor
  · intro other
    by_cases heq : other = entry
    · rw [heq]
      exact .inr (.inl hgone)
    · refine entry_kept (h.entries other) ?_ hkeeps
      rw [hlook, if_neg (by simp), if_neg]
      rw [Place.entry.injEq]
      exact heq
  · intro folder other node hnode
    exact hkeeps folder other node (h.archived folder other node hnode)
  · intro other hfolder
    have hne : other ≠ .archived entry.parent name ∧ other ≠ .entry entry := by
      constructor <;> rintro rfl <;> cases hfolder
    rw [hlook, if_neg hne.1, if_neg hne.2]
    exact h.directories other hfolder
  · intro path
    rw [hlook, if_neg (by simp), if_neg (by simp)]
    exact h.beside path
  · rw [hlook, if_neg (by simp), if_neg (by simp)]
    exact h.marker

end

end Steps

end Wenlan.Okf
