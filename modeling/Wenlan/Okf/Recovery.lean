import Wenlan.Okf.Writing

/-!
# Exports, edits and crashes

Runs of exports of any pages into one directory, with edits between them and with crashes.  What is
the user's is what no export wrote where it is, or what was touched since.
-/

namespace Wenlan.Okf

open Pages (WenlanError)
open Support (Interruptible KeyTable)
open Support.Interruptible OldBundle Support.Json List
open Support.Transition

def Library.ReadsBack (library : Library) : Prop :=
  ∀ marker, ∃ decoded, library.decode (library.encode marker) = some decoded ∧
    decoded.okfVersion = marker.okfVersion ∧ decoded.generatedBy = marker.generatedBy ∧
    decoded.files = marker.files ∧ ∀ text, decoded.digests.lookup text = marker.digests.lookup text

def MarkerOf (library : Library) (tree : Tree) (marker : ExportMarker) : Prop :=
  ∃ bytes exported, tree.lookup .marker = some (.file bytes exported) ∧
    library.decode bytes = some marker ∧ marker.okfVersion = okfVersion ∧
    "wenlan/".toList <+: marker.generatedBy.toList

/-- Only what the marker lists counts as written by an export. -/
def Genuine (library : Library) (tree : Tree) : Prop :=
  ∀ entry bytes, tree.lookup (.entry entry) = some (.file bytes true) → entry.Safe ∧
    ∃ marker, MarkerOf library tree marker ∧ entry.text ∈ marker.files

inductive Move where
  | edit (tree : Tree)
  | run (request : Request)
  | crash (request : Request) (point : Point)

/-- An edit may leave anything, but what it touches is no longer an export's, and neither is what the
marker no longer lists. -/
def Edits (library : Library) (tree next : Tree) : Prop :=
  Genuine library next ∧ ∀ entry bytes, next.lookup (.entry entry) = some (.file bytes true) →
    tree.lookup (.entry entry) = some (.file bytes true)

def Step (library : Library) (tree : Tree) (move : Move) (next : Tree) : Prop :=
  match move with
  | .edit edited => next = edited ∧ Edits library tree edited
  | .run request => next = (exportOkf library request tree).state
  | .crash request point => (point, next) ∈ (exportOkf library request tree).stops

/-- No file of the user has the digest that the marker records for its place, unless its bytes are
about to be written there. -/
def NoCoincidence (library : Library) (request : Request) (old : OldBundle) (tree : Tree) : Prop :=
  ∀ entry : Entry, entry.Safe → entry.text ∈ old.files → ∀ bytes,
    tree.lookup (.entry entry) = some (.file bytes false) →
    OursBytes library request old entry bytes →
    finalBytes library request tree entry = some bytes

/-- An export that is refused, or that plans safe names, over a marker that is no link and with
digests that tell the user's files from its own. -/
def Fine (library : Library) (request : Request) (tree : Tree) : Prop :=
  ∀ old, accept library request tree = .ok old →
    (∀ entry ∈ plannedEntries library request.pages, entry.Safe) ∧
    (∀ node, tree.lookup .marker = some node → node.isPlainFile = true) ∧
    NoCoincidence library request old tree

/-- A crash that leaves no half-written marker, and no directories without a marker. -/
def CrashFine (tree : Tree) (point : Point) (next : Tree) : Prop :=
  point ≠ .writing .marker ∧ (tree.lookup .marker = none → next = tree ∨ next.lookup .marker ≠ none)

def Allowed (library : Library) (tree : Tree) (move : Move) (next : Tree) : Prop :=
  match move with
  | .edit _ => True
  | .run request => Fine library request tree
  | .crash request point => Fine library request tree ∧ CrashFine tree point next

def FineStep (library : Library) (tree : Tree) (move : Move) (next : Tree) : Prop :=
  Step library tree move next ∧ Allowed library tree move next

/-- An edit that leaves the marker and the directories of the bundle alone, and a directory without
a marker altogether. -/
def QuietStep (library : Library) (tree : Tree) (move : Move) (next : Tree) : Prop :=
  FineStep library tree move next ∧ match move with
    | .edit _ => (∀ place, place = .marker ∨ place = .target ∨ (∃ folder, place = .folder folder) →
        next.lookup place = tree.lookup place) ∧ (tree.lookup .marker = none → next = tree)
    | _ => True

/-- A file of the user keeps its bytes, in place or in the archive, unless they are the bytes that
are about to be written there. -/
def KeepsUserFiles (library : Library) (request : Request) (tree next : Tree) : Prop :=
  ∀ place bytes, place ≠ .marker → tree.lookup place = some (.file bytes false) →
    (∀ entry, place = .entry entry → finalBytes library request tree entry ≠ some bytes) →
    next.lookup place = some (.file bytes false) ∨
      ∃ folder name, next.lookup (.archived folder name) = some (.file bytes false)

/-- Nothing is touched but directories that were missing, free places of the archive, the marker and
entries, each as a plain file: listed and safe, or planned and free. -/
def TouchesOnly (library : Library) (request : Request) (old : OldBundle) (tree next : Tree) :
    Prop :=
  ∀ place, next.lookup place ≠ tree.lookup place →
    (place.isDirectory = true ∧ tree.lookup place = none ∧ next.lookup place = some .folder) ∨
    (∃ folder name, place = .archived folder name ∧ tree.lookup place = none) ∨
    (place = .marker ∧ ∀ node, tree.lookup place = some node → node.isPlainFile = true) ∨
    ∃ entry, place = .entry entry ∧ ((safeEntry entry.text = some entry ∧ entry.text ∈ old.files ∧
        ∃ bytes exported, tree.lookup place = some (.file bytes exported)) ∨
      (entry ∈ plannedEntries library request.pages ∧ tree.lookup place = none))

section Safety

variable {library : Library} {request : Request} {old : OldBundle} {tree next : Tree}

theorem keepsUserFiles_refl : KeepsUserFiles library request tree tree :=
  fun _ _ _ hfile _ => .inl hfile

theorem Account.touchesOnly (h : Account library request old tree next) :
    TouchesOnly library request old tree next := by
  have hfreed : ∀ entry, Freed library request old tree entry next →
      safeEntry entry.text = some entry ∧ entry.text ∈ old.files ∧
        ∃ bytes exported, tree.lookup (.entry entry) = some (.file bytes exported) := by
    rintro entry ⟨bytes, exported, hfile, hsafe, hlisted, -⟩
    exact ⟨safeEntry_text hsafe, hlisted, bytes, exported, hfile⟩
  intro place hne
  have hdir : place.isDirectory →
      place.isDirectory ∧ tree.lookup place = none ∧ next.lookup place = some .folder := by
    intro htrue
    rcases h.directories place htrue with hsame | hnew
    · exact absurd hsame hne
    · exact ⟨htrue, hnew⟩
  cases place with
  | target => exact .inl (hdir rfl)
  | archive => exact .inl (hdir rfl)
  | folder folder => exact .inl (hdir rfl)
  | archiveFolder folder => exact .inl (hdir rfl)
  | beside path => exact absurd (h.beside path) hne
  | marker => exact .inr (.inr (.inl ⟨rfl, h.marker.resolve_left hne⟩))
  | archived folder name =>
    refine .inr (.inl ⟨folder, name, rfl, ?_⟩)
    cases hold : tree.lookup (.archived folder name) with
    | none => rfl
    | some node =>
      rw [hold] at hne
      exact absurd (h.archived folder name node hold) hne
  | entry entry =>
    refine .inr (.inr (.inr ⟨entry, rfl, ?_⟩))
    rcases h.entries entry with hsame | ⟨-, hgone⟩ | ⟨hplan, -, hnone | hover⟩
    · exact absurd hsame hne
    · exact .inl (hfreed entry hgone)
    · exact .inr ⟨hplan, hnone⟩
    · exact .inl (hfreed entry hover)

theorem Account.keepsUserFiles (h : Account library request old tree next)
    (hcoinc : NoCoincidence library request old tree) :
    KeepsUserFiles library request tree next := by
  intro place bytes hmarker hfile hother
  have hfreed : ∀ entry, place = .entry entry → Freed library request old tree entry next →
      ∃ folder name, next.lookup (.archived folder name) = some (.file bytes false) := by
    rintro entry rfl ⟨content, exported, hcont, hsafe, hlisted, ⟨name, -, hcopy⟩ | hours⟩
    · rw [hfile] at hcont
      cases hcont
      exact ⟨entry.parent, name, hcopy⟩
    · rw [hfile] at hcont
      cases hcont
      exact absurd (hcoinc entry hsafe hlisted bytes hfile hours) (hother entry rfl)
  have hdir : place.isDirectory → next.lookup place = some (.file bytes false) := by
    intro htrue
    rcases h.directories place htrue with hsame | ⟨hnone, -⟩
    · exact hsame.trans hfile
    · rw [hnone] at hfile
      cases hfile
  cases place with
  | target => exact .inl (hdir rfl)
  | archive => exact .inl (hdir rfl)
  | folder folder => exact .inl (hdir rfl)
  | archiveFolder folder => exact .inl (hdir rfl)
  | beside path => exact .inl ((h.beside path).trans hfile)
  | marker => exact absurd rfl hmarker
  | archived folder name => exact .inl (h.archived folder name _ hfile)
  | entry entry =>
    rcases h.entries entry with hsame | ⟨-, hgone⟩ | ⟨-, -, hnone | hover⟩
    · exact .inl (hsame.trans hfile)
    · exact .inr (hfreed entry rfl hgone)
    · rw [hnone] at hfile
      cases hfile
    · exact .inr (hfreed entry rfl hover)

end Safety

section Halves

variable {library : Library} {request : Request} {old : OldBundle} {tree next : Tree}

theorem exportOkf_eq : exportOkf library request tree =
    Interruptible.andThen (Interruptible.ofExcept (accept library request tree))
      (writeBundle library request) tree := rfl

theorem exportOkf_refused {error : WenlanError} (h : accept library request tree = .error error) :
    exportOkf library request tree = ⟨[], tree, .error error⟩ := by
  rw [exportOkf_eq, h]
  rfl

theorem step_of_refused {move : Move} {error : WenlanError}
    (h : accept library request tree = .error error)
    (hmove : move = .run request ∨ ∃ point, move = .crash request point)
    (hstep : Step library tree move next) : next = tree := by
  rcases hmove with rfl | ⟨point, rfl⟩
  · have hstate : next = (exportOkf library request tree).state := hstep
    rw [exportOkf_refused h] at hstate
    exact hstate
  · have hcrash : (point, next) ∈ (exportOkf library request tree).stops := hstep
    rw [exportOkf_refused h] at hcrash
    cases hcrash

theorem exportOkf_accepted (h : accept library request tree = .ok old) :
    exportOkf library request tree = writeBundle library request old tree := by
  rw [exportOkf_eq, h]
  rfl

def Leaves (library : Library) (request : Request) (old : OldBundle) (tree next : Tree) : Prop :=
  (∃ point, StopAt library request old tree point next ∧ CrashFine tree point next) ∨
    (∃ error, FailedAt library request old tree error next) ∨
    ∃ unswept digests, Exported library request old tree next unswept digests

theorem Leaves.account (h : Leaves library request old tree next) :
    Account library request old tree next := by
  rcases h with ⟨point, hstop, -⟩ | ⟨error, hfail⟩ | ⟨unswept, digests, hexp⟩
  · exact hstop.1
  · exact hfail.1
  · exact hexp.account

theorem leaves_of_export (hsound : Sound library request old tree)
    (h : accept library request tree = .ok old) :
    Leaves library request old tree (exportOkf library request tree).state := by
  have hmeets := meets_writeBundle hsound
  rw [exportOkf_accepted h]
  cases hresult : (writeBundle library request old tree).result with
  | error error => exact .inr (.inl ⟨error, hmeets.fails tree rfl error hresult⟩)
  | ok stats => exact .inr (.inr (hmeets.returns tree rfl stats hresult))

theorem stop_of_crash (hsound : Sound library request old tree)
    (h : accept library request tree = .ok old) {point : Point}
    (hcrash : (point, next) ∈ (exportOkf library request tree).stops) :
    StopAt library request old tree point next := by
  rw [exportOkf_accepted h] at hcrash
  exact (meets_writeBundle hsound).stops tree rfl point next hcrash

theorem sound_of_fine (hfine : Fine library request tree)
    (h : accept library request tree = .ok old) : Sound library request old tree :=
  ⟨accepted_of_accept h, (hfine old h).1⟩

theorem safety_of_fineStep {move : Move} (hstep : FineStep library tree move next)
    (hmove : move = .run request ∨ ∃ point, move = .crash request point) :
    KeepsUserFiles library request tree next ∧
      (next = tree ∨ ∃ old, accept library request tree = .ok old ∧
        TouchesOnly library request old tree next) := by
  obtain ⟨hnext, hallow⟩ := hstep
  cases hacc : accept library request tree with
  | error error =>
    obtain rfl := step_of_refused hacc hmove hnext
    exact ⟨keepsUserFiles_refl, .inl rfl⟩
  | ok old =>
    have hfine : Fine library request tree := by
      rcases hmove with rfl | ⟨point, rfl⟩
      · exact hallow
      · exact hallow.1
    have haccou : Account library request old tree next := by
      have hsound := sound_of_fine hfine hacc
      rcases hmove with rfl | ⟨point, rfl⟩
      · have hstate : next = (exportOkf library request tree).state := hnext
        rw [hstate]
        exact (leaves_of_export hsound hacc).account
      · exact (stop_of_crash hsound hacc hnext).1
    exact ⟨haccou.keepsUserFiles (hfine old hacc).2.2, .inr ⟨old, rfl, haccou.touchesOnly⟩⟩

end Halves

/-! ## Bundles that stay usable -/

section Live

variable {library : Library} {request : Request} {old : OldBundle} {tree next : Tree}

/-- A directory that the checks let pass whatever is planned: nothing in it and no marker, or a
marker that Wenlan wrote. -/
structure Live (library : Library) (tree : Tree) : Prop where
  genuine : Genuine library tree
  target : ∀ node, tree.lookup .target = some node → node = .folder
  folders : ∀ folder beyond, tree.lookup (.folder folder) ≠ some (.link beyond)
  marker : (tree.lookup .marker = none ∧ ¬ isNonempty tree) ∨ ∃ marker, MarkerOf library tree marker

theorem markerOf_readOldMarker {marker : ExportMarker} (h : MarkerOf library tree marker) :
    readOldMarker library request tree = .ok (some marker) := by
  obtain ⟨bytes, exported, hfile, hdec, hvers, hwrit⟩ := h
  have hread : readBytes tree .marker = .ok (some bytes) := by
    unfold readBytes
    rw [hfile]
  unfold readOldMarker
  rw [hread]
  simp only [bind, Except.bind, hdec, Wenlan.Pages.refuseIf, hvers, ne_eq, not_true_eq_false,
    if_false, hwrit, pure, Except.pure]

theorem MarkerOf.unique {marker marker' : ExportMarker} (h : MarkerOf library tree marker)
    (h' : MarkerOf library tree marker') : marker = marker' := by
  have hread := @markerOf_readOldMarker library ⟨[], [], ""⟩ tree marker h
  rw [markerOf_readOldMarker h'] at hread
  exact (Option.some.inj (Except.ok.inj hread)).symm

theorem old_of_markerOf (haccep : Accepted library request old tree) {marker : ExportMarker}
    (h : MarkerOf library tree marker) : old.files = marker.files := by
  obtain ⟨found, hread, rfl, -⟩ := haccep.marker
  rw [markerOf_readOldMarker h] at hread
  cases hread
  rfl

theorem markerOf_encode (hcodec : library.ReadsBack) {files : List String}
    {digests : KeyTable String String}
    (h : tree.lookup .marker = some (.file (library.encode (markerFor library files digests)) true)) :
    ∃ marker, MarkerOf library tree marker ∧ (∀ text, text ∈ marker.files ↔ text ∈ files) ∧
      ∀ text, marker.digests.lookup text = digests.lookup text := by
  obtain ⟨decoded, hdec, hvers, hwrit, hfiles, hdig⟩ :=
    hcodec (markerFor library files digests)
  refine ⟨decoded, ⟨_, true, h, hdec, hvers, ?_⟩, ?_, hdig⟩
  · rw [hwrit]
    unfold markerFor
    rw [String.toList_append]
    exact prefix_append _ _
  · intro text
    rw [hfiles]
    exact mem_sorted

theorem markerOf_congr {marker : ExportMarker} (h : MarkerOf library tree marker)
    (hsame : next.lookup .marker = tree.lookup .marker) : MarkerOf library next marker := by
  obtain ⟨bytes, exported, hfile, hrest⟩ := h
  exact ⟨bytes, exported, hsame.trans hfile, hrest⟩

theorem genuine_of_account (hsound : Sound library request old tree)
    (hgen : Genuine library tree)
    (haccou : Account library request old tree next) {files : List String}
    (hmarker : ∃ marker, MarkerOf library next marker ∧ ∀ text, text ∈ marker.files ↔ text ∈ files)
    (hplan : ∀ text ∈ plannedTexts library request.pages, text ∈ files)
    (hlisted : ∀ entry : Entry, entry.Safe → entry.text ∈ old.files →
      next.lookup (.entry entry) ≠ none → entry.text ∈ files) : Genuine library next := by
  intro entry bytes hfile
  obtain ⟨marker, hof, hiff⟩ := hmarker
  rcases haccou.entries entry with hsame | ⟨hnone, -⟩ | ⟨hentry, -, -⟩
  · obtain ⟨hsafe, old', hold', hmem⟩ := hgen entry bytes (hsame.symm.trans hfile)
    refine ⟨hsafe, marker, hof, (hiff _).mpr (hlisted entry hsafe ?_ ?_)⟩
    · rw [old_of_markerOf hsound.accepted hold']
      exact hmem
    · rw [hfile]
      exact fun h => by cases h
  · rw [hnone] at hfile
    cases hfile
  · exact ⟨hsound.safe entry hentry, marker, hof,
      (hiff _).mpr (hplan _ (mem_map_of_mem hentry))⟩

theorem live_of_accepted (hsound : Sound library request old tree) (hgen : Genuine library tree)
    (hplain : ∀ node, tree.lookup .marker = some node → node.isPlainFile) :
    Live library tree := by
  have haccep := hsound.accepted
  refine ⟨hgen, ?_, fun folder beyond => haccep.noLinks _ (.inr ⟨folder, rfl⟩) beyond, ?_⟩
  · intro node hnode
    cases node with
    | folder => rfl
    | file bytes exported => exact absurd hnode (haccep.noFile bytes exported)
    | link beyond => exact absurd hnode (haccep.noLinks .target (.inl rfl) beyond)
  · obtain ⟨marker, hread, -, hempty⟩ := haccep.marker
    cases hnode : tree.lookup .marker with
    | none =>
      have hnone : readOldMarker library request tree = .ok none := by
        unfold readOldMarker readBytes
        rw [hnode]
        rfl
      rw [hnone] at hread
      cases hread
      exact .inl ⟨rfl, hempty rfl⟩
    | some node =>
      obtain ⟨bytes, exported, rfl⟩ := Node.isPlainFile_iff.mp (hplain node hnode)
      have hbytes : readBytes tree .marker = .ok (some bytes) := by
        unfold readBytes
        rw [hnode]
      cases marker with
      | none =>
        exfalso
        unfold readOldMarker at hread
        rw [hbytes] at hread
        simp only [bind, Except.bind] at hread
        cases hdec : library.decode bytes with
        | none =>
          rw [hdec] at hread
          cases hread
        | some decoded =>
          rw [hdec] at hread
          dsimp only at hread
          unfold Wenlan.Pages.refuseIf at hread
          split_ifs at hread
          cases hread
      | some marker =>
        obtain ⟨bytes', hbytes', hdec, hvers, hwrit⟩ := readOldMarker_eq_some hread
        rw [hbytes] at hbytes'
        cases hbytes'
        exact .inr ⟨marker, bytes, exported, hnode, hdec, hvers, hwrit⟩

theorem Account.directories_live (h : Account library request old tree next)
    (hlive : Live library tree) : (∀ node, next.lookup .target = some node → node = .folder) ∧
      ∀ folder beyond, next.lookup (.folder folder) ≠ some (.link beyond) := by
  constructor
  · intro node hnode
    rcases h.directories .target rfl with hsame | ⟨-, hfold⟩
    · exact hlive.target node (hsame.symm.trans hnode)
    · rw [hnode] at hfold
      exact Option.some.inj hfold
  · intro folder beyond hlink
    rcases h.directories (.folder folder) rfl with hsame | ⟨-, hfold⟩
    · exact hlive.folders folder beyond (hsame.symm.trans hlink)
    · rw [hlink] at hfold
      cases hfold

theorem lookup_of_empty (hempty : ¬ isNonempty tree) {place : Place} (hne : place ≠ .target) :
    tree.lookup place = none := by
  rw [AList.lookup_eq_none]
  intro hmem
  exact hempty ⟨place, AList.mem_keys.mp hmem, hne⟩

theorem prepared_of_unmarked (haccep : Accepted library request old tree)
    (hnone : tree.lookup .marker = none) : Prepared library request old tree := by
  obtain ⟨marker, hread, hold, hempty⟩ := haccep.marker
  have hmarker : readOldMarker library request tree = .ok none := by
    unfold readOldMarker readBytes
    rw [hnone]
    rfl
  rw [hmarker] at hread
  cases hread
  have hfiles : changedIn library request old tree (sorted old.files) = [] := by
    rw [hold]
    rfl
  have hlook := fun place => @lookup_of_empty tree (hempty rfl) place
  constructor
  · intro folder bytes exported hfile
    rw [hlook _ (by simp)] at hfile
    cases hfile
  · intro node hnode
    rw [hnone] at hnode
    cases hnode
  · intro entry hmem
    rw [hfiles] at hmem
    cases hmem
  · rw [hfiles]
    rfl

/-- The end of an export, or of a crash that is fine, is usable again. -/
theorem Leaves.live (hcodec : library.ReadsBack) (hsound : Sound library request old tree)
    (hlive : Live library tree) (h : Leaves library request old tree next) : Live library next := by
  have haccou := h.account
  obtain ⟨htarg, hfolde⟩ := haccou.directories_live hlive
  have hunm : Unmarked library request old tree next →
      (tree.lookup .marker = none → next = tree ∨ next.lookup .marker ≠ none) →
      Live library next := by
    rintro ⟨hsame, hents⟩ hnone
    rcases hlive.marker with ⟨hempty, -⟩ | ⟨marker, hof⟩
    · rcases hnone hempty with rfl | hsome
      · exact hlive
      · rw [hsame, hempty] at hsome
        exact absurd rfl hsome
    · refine ⟨?_, htarg, hfolde, .inr ⟨marker, markerOf_congr hof hsame⟩⟩
      intro entry bytes hfile
      rcases hents entry with hentry | ⟨hgone, -⟩
      · obtain ⟨hsafe, listing, hlist, hmem⟩ := hlive.genuine entry bytes (hentry.symm.trans hfile)
        exact ⟨hsafe, listing, markerOf_congr hlist hsame, hmem⟩
      · rw [hgone] at hfile
        cases hfile
  have hunion : UnionStands library request old next → Live library next := by
    intro hstands
    obtain ⟨marker, hof, hiff, -⟩ := markerOf_encode hcodec hstands
    refine ⟨genuine_of_account hsound hlive.genuine haccou ⟨marker, hof, hiff⟩ ?_ ?_, htarg,
      hfolde, .inr ⟨marker, hof⟩⟩
    · exact fun text hmem => mem_append_right _ hmem
    · exact fun entry _ hlisted _ => mem_append_left _ hlisted
  rcases h with ⟨point, ⟨-, hstop⟩, hpoint, hnone⟩ | ⟨error, -, ⟨hstands, hprep⟩ | ⟨hstands, -⟩⟩ |
    ⟨unswept, digests, hexp⟩
  · rcases hstop hpoint with hstands | hstands
    · exact hunm hstands hnone
    · exact hunion hstands
  · exact hunm hstands fun hempty =>
      absurd (prepared_of_unmarked hsound.accepted hempty) hprep
  · exact hunion hstands
  · obtain ⟨marker, hof, hiff, -⟩ := markerOf_encode hcodec hexp.marker
    refine ⟨genuine_of_account hsound hlive.genuine haccou ⟨marker, hof, hiff⟩ ?_ ?_, htarg,
      hfolde, .inr ⟨marker, hof⟩⟩
    · exact fun text hmem => mem_append_left _ hmem
    · intro entry hsafe hlisted hthere
      by_cases hplan : entry.text ∈ plannedTexts library request.pages
      · exact mem_append_left _ hplan
      · have hstale : entry.text ∈ staleTexts library request old :=
          mem_filter.mpr ⟨mem_sorted.mpr hlisted, decide_eq_true hplan⟩
        rcases hexp.swept _ hstale entry (safeEntry_text hsafe) with hnone | hunswept
        · exact absurd hnone hthere
        · exact mem_append_right _ hunswept

end Live

/-! ## The next export -/

section Next

variable {library : Library} {request : Request} {old : OldBundle} {tree next : Tree}

structure ArchiveTakes (library : Library) (request : Request) (old : OldBundle) (tree : Tree) :
    Prop where
  directories : ∀ entry ∈ changedIn library request old tree (sorted old.files),
    ∀ place ∈ archiveDirs entry.parent, ∀ node, tree.lookup place = some node → node.opens = true
  room : archiveRoom library (fun place => decide (place ∈ tree))
    (changedIn library request old tree (sorted old.files)) = true

/-- Nothing foreign stands at a planned path: what stands there is a plain file that an export wrote
or that the marker lists.  The planned names are safe and fit, and the archive has room. -/
structure Clear (library : Library) (request : Request) (tree : Tree) : Prop where
  folders : ∀ folder bytes exported, tree.lookup (.folder folder) ≠ some (.file bytes exported)
  safe : ∀ entry ∈ plannedEntries library request.pages, entry.Safe
  fits : ∀ entry ∈ plannedEntries library request.pages, library.fits entry.fileName = true
  entries : ∀ entry ∈ plannedEntries library request.pages, ∀ node,
    tree.lookup (.entry entry) = some node → ∃ bytes exported, node = .file bytes exported ∧
      (exported = true ∨ ∃ marker, MarkerOf library tree marker ∧ entry.text ∈ marker.files)
  archive : ∀ marker, MarkerOf library tree marker →
    ArchiveTakes library request ⟨marker.files, marker.digests⟩ tree

/-- The bundle holds exactly the planned files and what could not be swept, and the marker lists
these with the digests of the bytes on disk. -/
def Complete (library : Library) (request : Request) (old : OldBundle) (next : Tree) : Prop :=
  ∃ marker unswept, MarkerOf library next marker ∧
    (∀ text, text ∈ marker.files ↔ text ∈ plannedTexts library request.pages ++ unswept) ∧
    (∀ entry ∈ plannedEntries library request.pages, ∃ bytes,
      (plannedBytes library request).lookup entry.text = some bytes ∧
      next.lookup (.entry entry) = some (.file bytes true) ∧
      marker.digests.lookup entry.text = some (library.digestOf bytes)) ∧
    (∀ text ∈ old.files, text ∉ plannedTexts library request.pages → ∀ entry,
      safeEntry text = some entry → next.lookup (.entry entry) = none ∨ text ∈ unswept) ∧
    ∀ text ∈ unswept, text ∈ old.files ∧ text ∉ plannedTexts library request.pages ∧
      ∃ entry, safeEntry text = some entry ∧ Obstructed library next entry

theorem accept_of_live (hlive : Live library tree) (hclear : Clear library request tree) :
    ∃ old, accept library request tree = .ok old ∧ (old = of none ∧ tree.lookup .marker = none ∨
        ∃ marker, MarkerOf library tree marker ∧ old = ⟨marker.files, marker.digests⟩) := by
  have hlink : ∀ place shown, (∀ beyond, tree.lookup place ≠ some (.link beyond)) →
      refuseLink tree place shown = .ok () := by
    intro place shown hno
    refine if_neg ?_
    rw [Option.any_eq_true]
    rintro ⟨node, hnode, hisl⟩
    cases node with
    | file bytes exported => cases hisl
    | folder => cases hisl
    | link beyond => exact hno beyond hnode
  have htarg : ∀ beyond, tree.lookup .target ≠ some (.link beyond) := by
    intro beyond h
    cases hlive.target _ h
  have hfile : refuseFile request tree = .ok () := by
    refine if_neg ?_
    rw [Option.any_eq_true]
    rintro ⟨node, hnode, hplain⟩
    rw [hlive.target node hnode] at hplain
    cases hplain
  have hmarker : ∃ marker, readOldMarker library request tree = .ok marker ∧
      ¬ (marker.isNone ∧ isNonempty tree) ∧
      (∀ entry ∈ plannedEntries library request.pages, .entry entry ∈ tree →
        entry.text ∈ (of marker).files) ∧
      (of marker = of none ∧ tree.lookup .marker = none ∨ ∃ found, MarkerOf library tree found ∧
          of marker = ⟨found.files, found.digests⟩) := by
    rcases hlive.marker with ⟨hnone, hempty⟩ | ⟨marker, hof⟩
    · refine ⟨none, ?_, fun h => hempty h.2, ?_, .inl ⟨rfl, hnone⟩⟩
      · unfold readOldMarker readBytes
        rw [hnone]
        rfl
      · intro entry _ hmem
        exact absurd ⟨_, AList.mem_keys.mp hmem, by simp⟩ hempty
    · refine ⟨some marker, markerOf_readOldMarker hof, fun h => ?_, ?_, .inr ⟨marker, hof, rfl⟩⟩
      · cases h.1
      · intro entry hentry hmem
        obtain ⟨node, hnode⟩ := KeyTable.mem_iff.mp hmem
        obtain ⟨bytes, exported, rfl, hlisted⟩ := hclear.entries entry hentry node hnode
        have hlist : ∃ marker, MarkerOf library tree marker ∧ entry.text ∈ marker.files := by
          rcases hlisted with rfl | hlisted
          · exact (hlive.genuine entry bytes hnode).2
          · exact hlisted
        obtain ⟨other, hother, htext⟩ := hlist
        rw [hof.unique hother]
        exact htext
  obtain ⟨marker, hread, hempty, hlisted, hold⟩ := hmarker
  have hfor : refuseForeign library request tree (of marker) = .ok () := by
    unfold refuseForeign
    rw [find?_eq_none.mpr]
    intro text _ hbad
    obtain ⟨hnot, entry, hentry, rfl, hmem⟩ := of_decide_eq_true hbad
    exact hnot (hlisted entry hentry hmem)
  refine ⟨of marker, ?_, hold⟩
  unfold accept
  rw [hlink _ _ htarg, hlink _ _ (hlive.folders .pages), hlink _ _ (hlive.folders .sources), hfile,
    hread]
  simp only [bind, Except.bind]
  rw [Wenlan.Pages.refuseIf, if_neg hempty, hfor]
  rfl

theorem ready_of_clear (hclear : Clear library request tree)
    (haccep : Accepted library request old tree)
    (hold : old = of none ∧ tree.lookup .marker = none ∨
      ∃ marker, MarkerOf library tree marker ∧ old = ⟨marker.files, marker.digests⟩) :
    Ready library request old tree := by
  have hents : ∀ entry ∈ plannedEntries library request.pages,
      ¬ Obstructed library tree entry := by
    rintro entry hentry (hunfit | ⟨node, hnode, hplain⟩)
    · rw [hclear.fits entry hentry] at hunfit
      cases hunfit
    · obtain ⟨bytes, exported, rfl, -⟩ := hclear.entries entry hentry node hnode
      cases hplain
  rcases hold with ⟨-, hnone⟩ | ⟨marker, hof, rfl⟩
  · exact ⟨prepared_of_unmarked haccep hnone, hents⟩
  · have harch := hclear.archive marker hof
    refine ⟨⟨hclear.folders, ?_, harch.directories, harch.room⟩, hents⟩
    intro node hnode
    obtain ⟨bytes, exported, hfile, -⟩ := hof
    rw [hfile] at hnode
    cases hnode
    rfl

/-- With nothing foreign in its way, an export over a usable bundle succeeds and is complete. -/
theorem complete_of_live (hcodec : library.ReadsBack) (hlive : Live library tree)
    (hclear : Clear library request tree) : ∃ old stats,
      accept library request tree = .ok old ∧ (exportOkf library request tree).result = .ok stats ∧
      Complete library request old (exportOkf library request tree).state := by
  obtain ⟨old, hacc, hold⟩ := accept_of_live hlive hclear
  have hsound : Sound library request old tree := ⟨accepted_of_accept hacc, hclear.safe⟩
  have hready := ready_of_clear hclear hsound.accepted hold
  have hmeets := meets_writeBundle hsound
  rw [exportOkf_accepted hacc]
  cases hresult : (writeBundle library request old tree).result with
  | error error =>
    exfalso
    obtain ⟨-, ⟨-, hprep⟩ | ⟨-, hnot⟩⟩ := hmeets.fails tree rfl error hresult
    · exact hprep hready.toPrepared
    · exact hnot hready
  | ok stats =>
    obtain ⟨unswept, digests, hexp⟩ := hmeets.returns tree rfl stats hresult
    obtain ⟨marker, hof, hfiles, hdig⟩ := markerOf_encode hcodec hexp.marker
    refine ⟨old, stats, hacc, rfl, marker, unswept, hof, hfiles, ?_, ?_, ?_⟩
    · intro entry hentry
      obtain ⟨bytes, hbytes, hfile, hdiges⟩ :=
        hexp.planned entry hentry (hready.entries entry hentry)
      refine ⟨bytes, ?_, hfile, (hdig _).trans hdiges⟩
      rw [← finalBytes_of_clear hready.entries entry]
      exact hbytes
    · intro text hlisted hplan entry hentry
      exact hexp.swept text
        (mem_filter.mpr ⟨mem_sorted.mpr hlisted, decide_eq_true hplan⟩) entry hentry
    · intro text hmem
      obtain ⟨hstale, entry, hentry, hobstr⟩ := hexp.kept text hmem
      refine ⟨(listed_of_stale hstale).1, (listed_of_stale hstale).2, entry, hentry, ?_⟩
      refine hobstr.imp_right ?_
      rintro ⟨node, hnode, hplain⟩
      exact ⟨node, hexp.account.obstructed_kept hnode hplain, hplain⟩

end Next

/-! ## Runs keep both -/

section Runs

variable {library : Library} {start tree next : Tree}

theorem live_of_export (hcodec : library.ReadsBack) {request : Request} {move : Move}
    (hlive : ∀ old, accept library request tree = .ok old → Live library tree)
    (hstep : FineStep library tree move next)
    (hmove : move = .run request ∨ ∃ point, move = .crash request point) :
    next = tree ∨ Live library next := by
  obtain ⟨hnext, hallow⟩ := hstep
  cases hacc : accept library request tree with
  | error error => exact .inl (step_of_refused hacc hmove hnext)
  | ok old =>
    refine .inr ?_
    rcases hmove with rfl | ⟨point, rfl⟩
    · have hfine : Fine library request tree := hallow
      have hstate : next = (exportOkf library request tree).state := hnext
      have hsound := sound_of_fine hfine hacc
      rw [hstate]
      exact (leaves_of_export hsound hacc).live hcodec hsound (hlive old hacc)
    · obtain ⟨hfine, hcras⟩ : Fine library request tree ∧ CrashFine tree point next := hallow
      have hsound := sound_of_fine hfine hacc
      have hleav : Leaves library request old tree next :=
        .inl ⟨point, stop_of_crash hsound hacc hnext, hcras⟩
      exact hleav.live hcodec hsound (hlive old hacc)

theorem fine_of_fineStep {request : Request} {move : Move} (hstep : FineStep library tree move next)
    (hmove : move = .run request ∨ ∃ point, move = .crash request point) :
    Fine library request tree := by
  obtain ⟨-, hallow⟩ := hstep
  rcases hmove with rfl | ⟨point, rfl⟩
  · exact hallow
  · exact hallow.1

theorem live_of_fine {request : Request} (hgen : Genuine library tree)
    (hfine : Fine library request tree) (old : OldBundle)
    (hacc : accept library request tree = .ok old) : Live library tree :=
  live_of_accepted (sound_of_fine hfine hacc) hgen (hfine old hacc).2.1

theorem genuine_of_fineStep (hcodec : library.ReadsBack) {move : Move}
    (hgen : Genuine library tree) (hstep : FineStep library tree move next) :
    Genuine library next := by
  have hexpor : ∀ request, (move = .run request ∨ ∃ point, move = .crash request point) →
      Genuine library next := by
    intro request hmove
    have hfine := fine_of_fineStep hstep hmove
    rcases live_of_export hcodec (live_of_fine hgen hfine) hstep hmove with rfl | hlive
    · exact hgen
    · exact hlive.genuine
  cases move with
  | edit edited =>
    obtain ⟨rfl, hedits⟩ := hstep.1
    exact hedits.1
  | run request => exact hexpor request (.inl rfl)
  | crash request point => exact hexpor request (.inr ⟨point, rfl⟩)

theorem live_of_quietStep (hcodec : library.ReadsBack) {move : Move} (hlive : Live library tree)
    (hstep : QuietStep library tree move next) : Live library next := by
  obtain ⟨hfin, hquiet⟩ := hstep
  have hexpor : ∀ request, (move = .run request ∨ ∃ point, move = .crash request point) →
      Live library next := by
    intro request hmove
    rcases live_of_export hcodec (fun _ _ => hlive) hfin hmove with rfl | hlive
    · exact hlive
    · exact hlive
  cases move with
  | edit edited =>
    obtain ⟨hsame, hempty⟩ := hquiet
    obtain ⟨rfl, hgen, -⟩ := hfin.1
    refine ⟨hgen, ?_, ?_, ?_⟩
    · rw [hsame _ (.inr (.inl rfl))]
      exact hlive.target
    · intro folder
      rw [hsame _ (.inr (.inr ⟨folder, rfl⟩))]
      exact hlive.folders folder
    · rcases hlive.marker with hnone | ⟨marker, hof⟩
      · rw [hempty hnone.1]
        exact .inl hnone
      · exact .inr ⟨marker, markerOf_congr hof (hsame _ (.inl rfl))⟩
  | run request => exact hexpor request (.inl rfl)
  | crash request point => exact hexpor request (.inr ⟨point, rfl⟩)

end Runs

/-! ## An export that crashed, and the next one -/

namespace Sample

def indexText : Bytes := "---\nokf_version: \"0.2\"\n---\n".toByteArray.data.toList

def indexDigest : String := "42d9fd6b1c2ed82cb2c621a61c425988d1c7a37cfaa97cbd5759232a86194af3"

def markerLead : Bytes :=
  ("\x7b\n  \"okf_version\": \"0.2\",\n  \"generated_by\": \"wenlan/0.19.1\",\n  \"files\": [\n    " ++
    "\"index.md\"\n  ],\n  \"digests\": ").toByteArray.data.toList

def markerText (digests : String) : Bytes :=
  markerLead ++ (digests ++ "\n\x7d").toByteArray.data.toList

def otherText (marker : ExportMarker) : Bytes :=
  0 :: (stringify (.arr [.str marker.okfVersion, .str marker.generatedBy,
    .arr (marker.files.map .str),
    .arr (marker.digests.entries.map fun digest => .arr [.str digest.1, .str digest.2])]
    )).toByteArray.data.toList

def firstMarker : ExportMarker := ⟨"0.2", "wenlan/0.19.1", ["index.md"], ∅⟩

def lastMarker : ExportMarker :=
  ⟨"0.2", "wenlan/0.19.1", ["index.md"], AList.insert "index.md" indexDigest ∅⟩

open Classical in
noncomputable def encode (marker : ExportMarker) : Bytes :=
  if marker = firstMarker then markerText "\x7b\x7d"
  else if marker = lastMarker then
    markerText ("\x7b\n    \"index.md\": \"" ++ indexDigest ++ "\"\n  \x7d")
  else otherText marker

noncomputable def library : Library where
  toLowercase := String.toLower
  isAlphanumeric := Char.isAlphanum
  isAlphanumeric_ascii _ _ := rfl
  renderPageFile _ _ _ page := page.text.toByteArray.data.toList
  renderSourceStub id := id.toByteArray.data.toList
  renderBundleIndex _ _ := indexText
  digestOf bytes := if bytes = indexText then indexDigest else ""
  encode := encode
  decode := Function.partialInv encode
  fits name := decide (name.utf8ByteSize < 256)
  version := "0.19.1"

theorem otherText_injective : Function.Injective otherText := by
  intro marker other h
  have hbytes := (cons.inj h).2
  have htext := String.toByteArray_inj.mp (ByteArray.ext (Array.toList_inj.mp hbytes))
  have hjson := stringify_injective htext
  obtain ⟨version, writer, files, digests⟩ := marker
  obtain ⟨version', writer', files', digests'⟩ := other
  simp only [arr.injEq, cons.injEq, str.injEq, and_true] at hjson
  obtain ⟨rfl, rfl, hfiles, hdig⟩ := hjson
  have hfiles' : files = files' := by
    refine map_injective_iff.mpr ?_ hfiles
    intro text text' heq
    exact str.inj heq
  have hdig' : digests.entries = digests'.entries := by
    refine map_injective_iff.mpr ?_ hdig
    rintro ⟨text, digest⟩ ⟨text', digest'⟩ heq
    simp only [arr.injEq, cons.injEq, str.injEq, and_true] at heq
    rw [heq.1, heq.2]
  rw [hfiles', AList.ext hdig']

theorem markerText_ne : markerText "\x7b\x7d" ≠
    markerText ("\x7b\n    \"index.md\": \"" ++ indexDigest ++ "\"\n  \x7d") := by
  decide +kernel

theorem markerText_ne_other (digests : String) (marker : ExportMarker) :
    markerText digests ≠ otherText marker := by
  intro h
  have hlead : markerLead.head? = some 123 := by decide +kernel
  have hheads := congrArg head? h
  unfold markerText otherText at hheads
  rw [head?_append, hlead, head?_cons, Option.some_or] at hheads
  exact absurd (Option.some.inj hheads) (by decide)

theorem encode_first : encode firstMarker = markerText "\x7b\x7d" := if_pos rfl

theorem lastMarker_ne_first : lastMarker ≠ firstMarker := by
  intro h
  have hdig := congrArg (fun marker => marker.digests.entries.length) h
  exact absurd hdig (by decide)

theorem encode_last : encode lastMarker =
    markerText ("\x7b\n    \"index.md\": \"" ++ indexDigest ++ "\"\n  \x7d") := by
  unfold encode
  rw [if_neg lastMarker_ne_first, if_pos rfl]

theorem encode_other {marker : ExportMarker} (hfirst : marker ≠ firstMarker)
    (hlast : marker ≠ lastMarker) : encode marker = otherText marker := by
  unfold encode
  rw [if_neg hfirst, if_neg hlast]

theorem encode_cases (marker : ExportMarker) : marker = firstMarker ∨ marker = lastMarker ∨
    encode marker = otherText marker := by
  by_cases hfirst : marker = firstMarker
  · exact .inl hfirst
  · by_cases hlast : marker = lastMarker
    · exact .inr (.inl hlast)
    · exact .inr (.inr (encode_other hfirst hlast))

theorem encode_injective : Function.Injective encode := by
  intro marker other h
  rcases encode_cases marker with rfl | rfl | hmarker
  · rcases encode_cases other with rfl | rfl | hother
    · rfl
    · rw [encode_first, encode_last] at h
      exact absurd h markerText_ne
    · rw [encode_first, hother] at h
      exact absurd h (markerText_ne_other _ _)
  · rcases encode_cases other with rfl | rfl | hother
    · rw [encode_first, encode_last] at h
      exact absurd h.symm markerText_ne
    · rfl
    · rw [encode_last, hother] at h
      exact absurd h (markerText_ne_other _ _)
  · rcases encode_cases other with rfl | rfl | hother
    · rw [encode_first, hmarker] at h
      exact absurd h.symm (markerText_ne_other _ _)
    · rw [encode_last, hmarker] at h
      exact absurd h.symm (markerText_ne_other _ _)
    · rw [hmarker, hother] at h
      exact otherText_injective h

theorem readsBack : library.ReadsBack := by
  intro marker
  exact ⟨marker, Function.partialInv_left encode_injective marker, rfl, rfl, rfl, fun _ => rfl⟩

def request : Request := ⟨[], [], "/tmp/bundle"⟩

/-- The target and `pages/` are there, and no marker yet. -/
def halfOpened : Tree := AList.insert (.folder .pages) .folder (AList.insert .target .folder ∅)

def opened : Tree := halfOpened.insert (.folder .sources) .folder

noncomputable def marked : Tree :=
  opened.insert .marker (.file (library.encode (unionMarker library request (of none))) true)

theorem accept_empty : accept library request ∅ = .ok (of none) := rfl

theorem stops_of_rest {α β : Type} {first : Export α} {rest : α → Export β} {tree : Tree} {a : α}
    {stop : Point × Tree} (hfirst : (first tree).result = .ok a)
    (hstop : stop ∈ (rest a (first tree).state).stops) : stop ∈ ((first >>= rest) tree).stops := by
  have hbind : (first >>= rest) tree = Interruptible.andThen first rest tree := rfl
  rw [hbind]
  unfold Interruptible.andThen
  rw [hfirst]
  exact mem_append_right _ hstop

theorem stops_of_first {α β : Type} {first : Export α} {rest : α → Export β} {tree : Tree}
    {stop : Point × Tree} (hstop : stop ∈ (first tree).stops) :
    stop ∈ ((first >>= rest) tree).stops := by
  have hbind : (first >>= rest) tree = Interruptible.andThen first rest tree := rfl
  rw [hbind]
  unfold Interruptible.andThen
  split
  · exact hstop
  · exact mem_append_left _ hstop

theorem crash_halfOpened : (.between, halfOpened) ∈ (exportOkf library request ∅).stops := by
  rw [exportOkf_accepted accept_empty]
  refine stops_of_rest rfl (stops_of_first ?_)
  exact mem_cons_self

theorem crash_marked : (.between, marked) ∈ (exportOkf library request ∅).stops := by
  rw [exportOkf_accepted accept_empty]
  refine stops_of_rest rfl (stops_of_rest rfl (stops_of_rest rfl (stops_of_rest rfl
    (stops_of_rest rfl (stops_of_rest rfl (stops_of_rest rfl (stops_of_first ?_)))))))
  exact mem_cons_self

theorem genuine_empty : Genuine library ∅ := by
  intro entry bytes hfile
  rw [AList.lookup_empty] at hfile
  cases hfile

theorem planned_index : plannedEntries library request.pages = [.index] := rfl

theorem clear_of_no_entries {tree : Tree} (hents : ∀ entry, tree.lookup (.entry entry) = none)
    (hfolde : ∀ folder bytes exported, tree.lookup (.folder folder) ≠ some (.file bytes exported)) :
    Clear library request tree := by
  have hnone : ∀ old, changedIn library request old tree (sorted old.files) = [] := by
    intro old
    refine filterMap_eq_nil_iff.mpr fun text _ => ?_
    rw [Option.filter_eq_none_iff]
    intro entry _
    unfold bundleFileState
    rw [hents, decide_eq_true_eq]
    intro h
    cases h
  refine ⟨hfolde, ?_, ?_, ?_, fun marker _ => ⟨?_, ?_⟩⟩
  · exact plannedEntries_safe library fun page hpage => by cases hpage
  · intro entry hentry
    rw [planned_index] at hentry
    rw [mem_singleton.mp hentry]
    decide +kernel
  · intro entry _ node hnode
    rw [hents] at hnode
    cases hnode
  · rw [hnone]
    intro entry hentry
    cases hentry
  · rw [hnone]
    rfl

theorem clear_halfOpened : Clear library request halfOpened := by
  refine clear_of_no_entries (fun entry => rfl) fun folder bytes exported hfile => ?_
  cases folder <;> cases hfile

theorem clear_marked : Clear library request marked := by
  refine clear_of_no_entries (fun entry => rfl) fun folder bytes exported hfile => ?_
  cases folder <;> cases hfile

theorem fine_empty : Fine library request ∅ := by
  intro old _
  refine ⟨plannedEntries_safe library (fun page hpage => by cases hpage), ?_, ?_⟩
  · intro node hnode
    cases hnode
  · intro entry _ _ bytes hfile
    cases hfile

end Sample

end Wenlan.Okf
