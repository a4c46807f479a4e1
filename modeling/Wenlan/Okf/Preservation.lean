import Wenlan.Okf.Account

/-!
# The preservation pass

From the checks to the union marker: directories are made, edited files go to the archive, and
nothing is written at an entry.
-/

namespace Wenlan.Okf

open Pages (WenlanError)
open Support.Interruptible

/-! ## What a complete export needs -/

section Ready

variable (library : Library) (request : Request) (old : OldBundle) (start : Tree)

def changedIn (texts : List String) : List Entry :=
  texts.filterMap fun text => (safeEntry text).filter fun entry =>
    decide (bundleFileState library start entry old.digests
      ((plannedBytes library request).lookup entry.text) = .changed)

def archiveRoom (taken : Place → Bool) : List Entry → Bool
  | [] => true
  | entry :: rest =>
    match freeArchiveName taken entry with
    | none => false
    | some name => library.fits name &&
        archiveRoom (fun place => taken place || place == .archived entry.parent name) rest

def archiveDirs : Option Folder → List Place
  | none => [.archive]
  | some folder => [.archive, .archiveFolder folder]

/-- Nothing is in the way of the union marker: no file in place of a directory, nothing but a plain
file in place of the marker, and an archive that takes the edited files. -/
structure Prepared : Prop where
  folders : ∀ folder bytes exported, start.lookup (.folder folder) ≠ some (.file bytes exported)
  marker : ∀ node, start.lookup .marker = some node → node.isPlainFile = true
  archive : ∀ entry ∈ changedIn library request old start (sorted old.files),
    ∀ place ∈ archiveDirs entry.parent, ∀ node, start.lookup place = some node → node.opens = true
  room : archiveRoom library (fun place => decide (place ∈ start))
    (changedIn library request old start (sorted old.files)) = true

/-- Nothing is in the way of the planned files either. -/
structure Ready : Prop extends Prepared library request old start where
  entries : ∀ entry ∈ plannedEntries library request.pages, ¬ Obstructed library start entry

/-- The marker that owns what either generation may have left behind. -/
def unionMarker : ExportMarker :=
  markerFor library (old.files ++ plannedTexts library request.pages) old.digests

/-- Nothing is written yet, and the marker is the old one. -/
def Unmarked (tree : Tree) : Prop :=
  tree.lookup .marker = start.lookup .marker ∧
    ∀ entry, tree.lookup (.entry entry) = start.lookup (.entry entry) ∨
      Gone library request old start entry tree

def UnionStands (tree : Tree) : Prop :=
  tree.lookup .marker = some (.file (library.encode (unionMarker library request old)) true)

/-- What holds wherever an export is stopped; while the marker is written there is none. -/
def StopAt (point : Point) (tree : Tree) : Prop :=
  Account library request old start tree ∧ (point ≠ .writing .marker →
    Unmarked library request old start tree ∨ UnionStands library request old tree)

def FailedAt (_ : WenlanError) (tree : Tree) : Prop :=
  Account library request old start tree ∧
    (Unmarked library request old start tree ∧ ¬ Prepared library request old start ∨
      UnionStands library request old tree ∧ ¬ Ready library request old start)

end Ready

section Preservation

variable {library : Library} {request : Request} {old : OldBundle} {start tree : Tree}

theorem bundleFileState_eq_changed {entry : Entry} : bundleFileState library tree entry old.digests
        ((plannedBytes library request).lookup entry.text) = .changed ↔
      ∃ bytes exported, tree.lookup (.entry entry) = some (.file bytes exported) ∧
        ¬ OursBytes library request old entry bytes := by
  unfold bundleFileState OursBytes
  cases hlook : tree.lookup (.entry entry) with
  | none => exact iff_of_false (fun h => by cases h) (fun ⟨_, _, h, _⟩ => by cases h)
  | some node =>
    cases node with
    | folder => exact iff_of_false (fun h => by cases h) (fun ⟨_, _, h, _⟩ => by cases h)
    | link beyond => exact iff_of_false (fun h => by cases h) (fun ⟨_, _, h, _⟩ => by cases h)
    | file bytes exported =>
      constructor
      · intro h
        refine ⟨bytes, exported, rfl, fun hours => ?_⟩
        cases hdigest : old.digests.lookup entry.text with
        | some recorded =>
          rw [hdigest] at h hours
          dsimp only at h hours
          rw [if_pos hours] at h
          cases h
        | none =>
          rw [hdigest] at h hours
          dsimp only at h hours
          rw [if_pos hours] at h
          cases h
      · rintro ⟨bytes', exported', heq, hours⟩
        cases heq
        cases hdigest : old.digests.lookup entry.text with
        | some recorded =>
          rw [hdigest] at hours
          exact if_neg hours
        | none =>
          rw [hdigest] at hours
          exact if_neg hours

/-- Before the union marker: the old marker stands, and no entry is written. -/
structure Preserving (library : Library) (request : Request) (old : OldBundle) (start tree : Tree) :
    Prop where
  account : Account library request old start tree
  marker : tree.lookup .marker = start.lookup .marker
  unwritten : ∀ entry, tree.lookup (.entry entry) = start.lookup (.entry entry) ∨
    Gone library request old start entry tree

theorem Preserving.stop (h : Preserving library request old start tree) (point : Point) :
    StopAt library request old start point tree :=
  ⟨h.account, fun _ => .inl ⟨h.marker, h.unwritten⟩⟩

theorem Preserving.failed (h : Preserving library request old start tree)
    (hprep : ¬ Prepared library request old start) (error : WenlanError) :
    FailedAt library request old start error tree :=
  ⟨h.account, .inl ⟨⟨h.marker, h.unwritten⟩, hprep⟩⟩

theorem gone_insert_directory {entry : Entry} {place : Place} {node : Node}
    (hdirec : place.isDirectory) (h : Gone library request old start entry tree) :
    Gone library request old start entry (tree.insert place node) := by
  obtain ⟨hnone, hfreed⟩ := h
  constructor
  · rw [AList.lookup_insert_ne]
    · exact hnone
    · rintro rfl
      cases hdirec
  · refine hfreed.mono ?_
    intro folder name node hnode
    rw [AList.lookup_insert_ne]
    · exact hnode
    · rintro rfl
      cases hdirec

theorem Preserving.mkdir (h : Preserving library request old start tree) {place : Place}
    (hdirec : place.isDirectory) (hnone : tree.lookup place = none) :
    Preserving library request old start (tree.insert place .folder) := by
  have hother := lookup_mkdir tree hdirec
  constructor
  · exact h.account.mkdir hdirec hnone
  · rw [hother _ rfl]
    exact h.marker
  · intro entry
    rw [hother _ rfl]
    exact (h.unwritten entry).imp_right (gone_insert_directory hdirec)

def SurvivesMkdir (inv : Tree → Prop) : Prop :=
  ∀ tree place, inv tree → place.isDirectory = true → tree.lookup place = none →
    inv (tree.insert place .folder)

theorem meets_createDir {inv : Tree → Prop} {place : Place} (hdirec : place.isDirectory)
    (hpres : ∀ tree, inv tree → Preserving library request old start tree)
    (hsurv : SurvivesMkdir inv)
    (hprep : Prepared library request old start → ∀ node, start.lookup place = some node →
      node.opens) :
    Meets inv (createDir place) (StopAt library request old start) (fun _ => inv)
      (FailedAt library request old start) := by
  refine meets_read.andThen fun tree => ?_
  cases hlook : tree.lookup place with
  | none =>
    refine meets_act ?_ ?_ ?_
    · rintro s ⟨rfl, hs⟩
      exact (hpres _ hs).stop _
    · intro s _ mark t hmem
      cases hmem
    · rintro s ⟨rfl, hs⟩
      exact hsurv _ place hs hdirec hlook
  | some node =>
    dsimp only
    split_ifs with hopens
    · exact meets_pure fun s hs => hs.2
    · refine meets_fail ?_
      rintro s ⟨rfl, hs⟩
      have hheld := hpres _ hs
      refine hheld.failed (fun hr => hopens ?_) _
      rcases hheld.account.directories place hdirec with hsame | ⟨-, hfold⟩
      · exact hprep hr node (hsame.symm.trans hlook)
      · rw [hlook] at hfold
        cases hfold
        rfl

/-- While only the directories of the bundle are made. -/
structure Opening (library : Library) (request : Request) (old : OldBundle) (start tree : Tree) :
    Prop extends Preserving library request old start tree where
  entries : ∀ entry, tree.lookup (.entry entry) = start.lookup (.entry entry)
  archived : ∀ folder name,
    tree.lookup (.archived folder name) = start.lookup (.archived folder name)

theorem opening_start : Opening library request old start start :=
  ⟨⟨account_start, rfl, fun _ => .inl rfl⟩, fun _ => rfl, fun _ _ => rfl⟩

theorem opening_survives : SurvivesMkdir (Opening library request old start) := by
  intro tree place h hdirec hnone
  have hother := lookup_mkdir tree hdirec
  refine ⟨h.toPreserving.mkdir hdirec hnone, ?_, ?_⟩
  · intro entry
    rw [hother _ rfl]
    exact h.entries entry
  · intro folder name
    rw [hother _ rfl]
    exact h.archived folder name

theorem meets_createBundleDir (hacc : Accepted library request old start) (folder : Folder) :
    Meets (Opening library request old start) (createBundleDir folder)
      (StopAt library request old start) (fun _ => Opening library request old start)
      (FailedAt library request old start) := by
  refine (meets_createDir rfl (fun _ h => h.toPreserving) opening_survives ?_).andThen fun _ =>
    meets_createDir rfl (fun _ h => h.toPreserving) opening_survives ?_
  · intro _ node hnode
    cases node with
    | folder => rfl
    | file bytes exported => exact absurd hnode (hacc.noFile bytes exported)
    | link beyond => exact absurd hnode (hacc.noLinks .target (.inl rfl) beyond)
  · intro hprep node hnode
    cases node with
    | folder => rfl
    | file bytes exported => exact absurd hnode (hprep.folders folder bytes exported)
    | link beyond => exact absurd hnode (hacc.noLinks _ (.inr ⟨folder, rfl⟩) beyond)

end Preservation

/-! ## The pass over the listed files -/

section Pass

variable {library : Library} {request : Request} {old : OldBundle} {start tree : Tree}
  {entry : Entry} {text : String} {rest : List String}

/-- The account in the middle of the pass; `rest` is what it has not come to. -/
structure Passing (library : Library) (request : Request) (old : OldBundle) (start : Tree)
    (rest : List String) (tree : Tree) : Prop
    extends Preserving library request old start tree where
  nodup : rest.Nodup
  listed : ∀ text ∈ rest, text ∈ old.files
  waiting : ∀ entry : Entry, entry.text ∈ rest →
    tree.lookup (.entry entry) = start.lookup (.entry entry)
  passed : ∀ entry : Entry, entry.Safe → entry.text ∈ old.files → entry.text ∉ rest →
    ∀ bytes exported, start.lookup (.entry entry) = some (.file bytes exported) →
      Freed library request old start entry tree
  changed : ∀ other ∈ changedIn library request old start rest,
    other ∈ changedIn library request old start (sorted old.files)
  room : Prepared library request old start →
    archiveRoom library (fun place => decide (place ∈ tree))
      (changedIn library request old start rest) = true

section

variable {taken taken' : Place → Bool}
  (h : ∀ folder name, taken (.archived folder name) = taken' (.archived folder name))
include h

theorem freeArchiveName_congr
    (entry : Entry) : freeArchiveName taken entry = freeArchiveName taken' entry := by
  unfold freeArchiveName
  simp only [h]

theorem archiveRoom_congr
    (entries : List Entry) :
    archiveRoom library taken entries = archiveRoom library taken' entries := by
  induction entries generalizing taken taken' with
  | nil => rfl
  | cons entry rest ih =>
    rw [archiveRoom, archiveRoom, freeArchiveName_congr h entry]
    cases freeArchiveName taken' entry with
    | none => rfl
    | some name =>
      dsimp only
      rw [ih]
      intro folder other
      rw [h]

end

theorem mem_iff_of_lookup {next : Tree} {place : Place}
    (h : next.lookup place = tree.lookup place) : place ∈ next ↔ place ∈ tree := by
  rw [← AList.lookup_isSome, ← AList.lookup_isSome, h]

theorem passing_survives : SurvivesMkdir (Passing library request old start rest) := by
  intro tree place h hdirec hnone
  have hother := lookup_mkdir tree hdirec
  refine ⟨h.toPreserving.mkdir hdirec hnone, h.nodup, h.listed, ?_, ?_, h.changed, ?_⟩
  · intro entry hmem
    rw [hother _ rfl]
    exact h.waiting entry hmem
  · intro entry hsafe hlist hpas bytes exported hfile
    refine (h.passed entry hsafe hlist hpas bytes exported hfile).mono ?_
    intro folder name node hnode
    rw [hother _ rfl]
    exact hnode
  · intro hprep
    rw [← h.room hprep]
    refine archiveRoom_congr ?_ _
    intro folder name
    rw [decide_eq_decide]
    exact mem_iff_of_lookup (hother _ rfl)

theorem Opening.passing {tree : Tree} (h : Opening library request old start tree) :
    Passing library request old start (sorted old.files) tree where
  toPreserving := h.toPreserving
  nodup := nodup_sorted _
  listed _ hmem := mem_sorted.mp hmem
  waiting entry _ := h.entries entry
  passed entry _ hlist hpas := absurd (mem_sorted.mpr hlist) hpas
  changed _ hmem := hmem
  room hprep := by
    rw [← hprep.room]
    refine archiveRoom_congr ?_ _
    intro folder name
    rw [decide_eq_decide]
    exact mem_iff_of_lookup (h.archived folder name)

theorem changedIn_cons_stray (hstray : safeEntry text = none) :
    changedIn library request old start (text :: rest) = changedIn library request old start rest := by
  unfold changedIn
  rw [List.filterMap_cons_none]
  rw [hstray]
  rfl

theorem changedIn_cons_changed (hsafe : safeEntry text = some entry)
    (hchang : bundleFileState library start entry old.digests
      ((plannedBytes library request).lookup entry.text) = .changed) :
    changedIn library request old start (text :: rest) =
      entry :: changedIn library request old start rest := by
  unfold changedIn
  rw [List.filterMap_cons_some]
  rw [hsafe, Option.filter_some, if_pos (decide_eq_true hchang)]

theorem changedIn_cons_same (hsafe : safeEntry text = some entry)
    (hsame : bundleFileState library start entry old.digests
      ((plannedBytes library request).lookup entry.text) ≠ .changed) :
    changedIn library request old start (text :: rest) = changedIn library request old start rest := by
  unfold changedIn
  rw [List.filterMap_cons_none]
  rw [hsafe, Option.filter_some, if_neg]
  rw [decide_eq_true_eq]
  exact hsame

theorem Passing.skip (h : Passing library request old start (text :: rest) tree)
    (hsame : changedIn library request old start (text :: rest) =
      changedIn library request old start rest)
    (hpas : ∀ entry : Entry, entry.Safe → entry.text = text → ∀ bytes exported,
      start.lookup (.entry entry) = some (.file bytes exported) →
        Freed library request old start entry tree) :
    Passing library request old start rest tree where
  toPreserving := h.toPreserving
  nodup := (List.nodup_cons.mp h.nodup).2
  listed other hmem := h.listed other (List.mem_cons_of_mem _ hmem)
  waiting entry hmem := h.waiting entry (List.mem_cons_of_mem _ hmem)
  passed entry hsafe hlist hnot bytes exported hfile := by
    by_cases heq : entry.text = text
    · exact hpas entry hsafe heq bytes exported hfile
    · refine h.passed entry hsafe hlist ?_ bytes exported hfile
      rw [List.mem_cons, not_or]
      exact ⟨heq, hnot⟩
  changed other hmem := h.changed other (by rw [hsame]; exact hmem)
  room hprep := by
    rw [← hsame]
    exact h.room hprep

theorem Passing.preserve (h : Passing library request old start (text :: rest) tree)
    (hentry : safeEntry text = some entry)
    (hchang : bundleFileState library start entry old.digests
      ((plannedBytes library request).lookup entry.text) = .changed)
    {name : String} (hname : freeArchiveName (fun place => decide (place ∈ tree)) entry = some name) :
    Passing library request old start rest
      (renameNode (.entry entry) (.archived entry.parent name) tree) := by
  obtain ⟨rfl, hsafe⟩ := text_of_safeEntry hentry
  have hlist := h.listed entry.text List.mem_cons_self
  have hsame := h.waiting entry List.mem_cons_self
  obtain ⟨bytes, exported, hfile, -⟩ := bundleFileState_eq_changed.mp hchang
  have hfree : tree.lookup (.archived entry.parent name) = none := by
    have hfound := List.find?_some hname
    simp only [Bool.not_eq_true', decide_eq_false_iff_not] at hfound
    exact AList.lookup_eq_none.mpr hfound
  obtain ⟨haccou, hgone, hkeeps⟩ := h.account.rename hsafe hlist hsame hfile hfree
  have hlook : ∀ place, (renameNode (.entry entry) (.archived entry.parent name) tree).lookup
      place = if place = .archived entry.parent name then some (.file bytes exported)
        else if place = .entry entry then none else tree.lookup place :=
    lookup_renameNode (hsame.trans hfile)
  have hother : ∀ other, other ≠ entry →
      (renameNode (.entry entry) (.archived entry.parent name) tree).lookup (.entry other) =
        tree.lookup (.entry other) := by
    intro other hne
    rw [hlook, if_neg (by simp), if_neg]
    rw [Place.entry.injEq]
    exact hne
  have hnodup := List.nodup_cons.mp h.nodup
  refine ⟨⟨haccou, ?_, ?_⟩, hnodup.2, ?_, ?_, ?_, ?_, ?_⟩
  · rw [hlook, if_neg (by simp), if_neg (by simp)]
    exact h.marker
  · intro other
    by_cases heq : other = entry
    · rw [heq]
      exact .inr hgone
    · rw [hother other heq]
      refine (h.unwritten other).imp_right ?_
      rintro ⟨hnone, hfreed⟩
      exact ⟨(hother other heq).trans hnone, hfreed.mono hkeeps⟩
  · exact fun other hmem => h.listed other (List.mem_cons_of_mem _ hmem)
  · intro other hmem
    rw [hother]
    · exact h.waiting other (List.mem_cons_of_mem _ hmem)
    · rintro rfl
      exact hnodup.1 hmem
  · intro other hsafeOther hlistedOther hnot bytes' exported' hfile'
    by_cases heq : other.text = entry.text
    · rw [text_inj hsafeOther hsafe heq]
      exact hgone.2
    · refine (h.passed other hsafeOther hlistedOther ?_ bytes' exported' hfile').mono hkeeps
      rw [List.mem_cons, not_or]
      exact ⟨heq, hnot⟩
  · intro other hmem
    refine h.changed other ?_
    rw [changedIn_cons_changed hentry hchang]
    exact List.mem_cons_of_mem _ hmem
  · intro hprep
    have hroom := h.room hprep
    rw [changedIn_cons_changed hentry hchang, archiveRoom, hname] at hroom
    obtain ⟨-, hroom⟩ := Bool.and_eq_true_iff.mp hroom
    rw [← hroom]
    refine archiveRoom_congr ?_ _
    intro folder other
    rw [Bool.eq_iff_iff, Bool.or_eq_true, decide_eq_true_eq, decide_eq_true_eq, beq_iff_eq,
      ← AList.lookup_isSome, ← AList.lookup_isSome, hlook]
    by_cases hplace : Place.archived folder other = .archived entry.parent name
    · rw [if_pos hplace]
      exact iff_of_true rfl (.inr hplace)
    · rw [if_neg hplace, if_neg (by simp)]
      exact (or_iff_left hplace).symm

theorem meets_createArchiveDir (folder : Option Folder)
    (hprep : Prepared library request old start → ∀ place ∈ archiveDirs folder,
      ∀ node, start.lookup place = some node → node.opens) :
    Meets (Passing library request old start rest) (createArchiveDir folder)
      (StopAt library request old start) (fun _ => Passing library request old start rest)
      (FailedAt library request old start) := by
  have hdir : ∀ place, place ∈ archiveDirs folder → place.isDirectory →
      Meets (Passing library request old start rest) (createDir place)
        (StopAt library request old start) (fun _ => Passing library request old start rest)
        (FailedAt library request old start) := by
    intro place hmem hdirec
    exact meets_createDir hdirec (fun _ h => h.toPreserving) passing_survives
      fun hr => hprep hr place hmem
  cases folder with
  | none => exact hdir .archive (by simp [archiveDirs]) rfl
  | some folder =>
    refine (hdir .archive (by simp [archiveDirs]) rfl).andThen fun _ => ?_
    exact hdir (.archiveFolder folder) (by simp [archiveDirs]) rfl

theorem meets_preserveEditedBundleFile (hentry : safeEntry text = some entry)
    (hchang : bundleFileState library start entry old.digests
      ((plannedBytes library request).lookup entry.text) = .changed) :
    Meets (Passing library request old start (text :: rest)) (preserveEditedBundleFile library entry)
      (StopAt library request old start) (fun _ => Passing library request old start rest)
      (FailedAt library request old start) := by
  refine meets_of_each fun initial hinitial => ?_
  have hmem : entry ∈ changedIn library request old start (sorted old.files) := by
    refine hinitial.changed entry ?_
    rw [changedIn_cons_changed hentry hchang]
    exact List.mem_cons_self
  have hdirs := @meets_createArchiveDir library request old start (text :: rest) entry.parent
    fun hprep => hprep.archive entry hmem
  refine (hdirs.weaken ?_ (fun _ _ h => h) (fun _ _ h => h) fun _ _ h => h).andThen fun _ => ?_
  · rintro s rfl
    exact hinitial
  refine meets_read.andThen fun tree => ?_
  have hroom : ∀ h : Passing library request old start (text :: rest) tree,
      Prepared library request old start → ∃ name, freeArchiveName
        (fun place => decide (place ∈ tree)) entry = some name ∧ library.fits name := by
    intro h hprep
    have hroom := h.room hprep
    rw [changedIn_cons_changed hentry hchang, archiveRoom] at hroom
    cases hname : freeArchiveName (fun place => decide (place ∈ tree)) entry with
    | none =>
      rw [hname] at hroom
      cases hroom
    | some name =>
      rw [hname] at hroom
      exact ⟨name, rfl, (Bool.and_eq_true_iff.mp hroom).1⟩
  cases hname : freeArchiveName (fun place => decide (place ∈ tree)) entry with
  | none =>
    refine meets_fail ?_
    rintro s ⟨rfl, hs⟩
    refine hs.failed (fun hprep => ?_) _
    obtain ⟨name, hsome, -⟩ := hroom hs hprep
    rw [hname] at hsome
    cases hsome
  | some name =>
    dsimp only
    split_ifs with hfits
    · refine meets_act ?_ ?_ ?_
      · rintro s ⟨rfl, hs⟩
        exact hs.stop _
      · intro s _ mark t hmem
        cases hmem
      · rintro s ⟨rfl, hs⟩
        exact hs.preserve hentry hchang hname
    · refine meets_fail ?_
      rintro s ⟨rfl, hs⟩
      refine hs.failed (fun hprep => ?_) _
      obtain ⟨other, hsome, hfitsO⟩ := hroom hs hprep
      rw [hname] at hsome
      cases hsome
      exact hfits hfitsO

theorem meets_preserveListed :
    Meets (Passing library request old start (text :: rest)) (preserveListed library request old text)
      (StopAt library request old start) (fun _ => Passing library request old start rest)
      (FailedAt library request old start) := by
  unfold preserveListed
  cases hentry : safeEntry text with
  | none =>
    refine meets_pure fun s hs => hs.skip (changedIn_cons_stray hentry) ?_
    rintro entry hsafe rfl
    rw [safeEntry_text hsafe] at hentry
    cases hentry
  | some entry =>
    obtain ⟨htext, hsafe⟩ := text_of_safeEntry hentry
    refine meets_read.andThen fun tree => ?_
    have hsame : ∀ h : Passing library request old start (text :: rest) tree,
        bundleFileState library tree entry old.digests
          ((plannedBytes library request).lookup text) = bundleFileState library start entry
            old.digests ((plannedBytes library request).lookup entry.text) := by
      intro h
      unfold bundleFileState
      rw [h.waiting entry (by rw [htext]; exact List.mem_cons_self), htext]
    split_ifs with hchang
    · refine meets_of_each ?_
      rintro s ⟨rfl, hs⟩
      rw [hsame hs] at hchang
      refine (meets_preserveEditedBundleFile hentry hchang).weaken ?_ (fun _ _ h => h)
        (fun _ _ h => h) fun _ _ h => h
      rintro t rfl
      exact hs
    · refine meets_pure ?_
      rintro s ⟨rfl, hs⟩
      rw [hsame hs] at hchang
      refine hs.skip (changedIn_cons_same hentry hchang) ?_
      intro other hsafeOther heq bytes exported hfile
      obtain rfl : other = entry := text_inj hsafeOther hsafe (heq.trans htext.symm)
      refine ⟨bytes, exported, hfile, hsafe, ?_, .inr ?_⟩
      · rw [heq]
        exact hs.listed text List.mem_cons_self
      · by_contra hours
        exact hchang (bundleFileState_eq_changed.mpr ⟨bytes, exported, hfile, hours⟩)

theorem meets_preservation : Meets (Passing library request old start (sorted old.files))
      ((sorted old.files).foldlM (fun _ text => preserveListed library request old text) ())
      (StopAt library request old start) (fun _ => Passing library request old start [])
      (FailedAt library request old start) := by
  have hloop := @meets_foldlM Tree Point WenlanError String Unit (StopAt library request old start)
    (FailedAt library request old start) (fun rest _ => Passing library request old start rest)
    (fun _ text => preserveListed library request old text) (sorted old.files) ()
    fun text rest _ => meets_preserveListed
  exact hloop

end Pass

end Wenlan.Okf
