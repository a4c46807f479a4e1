import Wenlan.Projection.Move

/-!
# A move that is interrupted

Whatever point a move or a recovery of it stops at, the disk looks like one of seven stages of
the protocol, and the recovery tells which one.  Each operation leads from one stage to the
next, or leaves the stage as it is.
-/

namespace Wenlan.Projection

open Pages
open Support.FileSystem
open Support.Transition
open Function (update update_self update_of_ne)

variable {B : Type} {lib : MoveLibrary B} {layout : Layout}

/-! ## Where a move starts -/

structure MoveStart (B : Type) where
  disk : Disk B
  move : PlannedMove
  state : KnowledgeState
  entry : PageFileState
  inode : Nat

/-- The files that a move deals with. -/
inductive Role where
  | source
  | target
  | stage
  | journal
  | state
  | index
  deriving DecidableEq

/-- The names that the writes of the state and of the index make up. -/
def IsTemporary (place : Place) : Prop :=
  ∃ tag, place = stateTemporary tag ∨ place = indexTemporary tag

namespace MoveStart

variable (start : MoveStart B)

def place : Role → Place
  | .source => start.move.source.place
  | .target => start.move.target.place
  | .stage => start.move.journal.stagePlace
  | .journal => moveJournal
  | .state => stateFile
  | .index => indexPlace

/-- Where a move or its recovery may change anything. -/
def Touched (place : Place) : Prop :=
  (∃ role, start.place role = place) ∨ IsTemporary place

def entryAt (file : String) : PageFileState :=
  { start.entry with file }

def Records (file : String) (state : KnowledgeState) : Prop :=
  ∀ id, state.pages.lookup id = if id = start.move.journal.pageId then some (start.entryAt file)
    else start.state.pages.lookup id

end MoveStart

structure Begins (lib : MoveLibrary B) (start : MoveStart B) : Prop where
  read : readStateStrict lib.toLibrary start.disk = .ok start.state
  entry : start.state.pages.lookup start.move.journal.pageId = some start.entry
  file : start.entry.file = start.move.journal.source
  source_file : start.move.source = pageFile start.move.journal.source
  target_file : start.move.target = pageFile start.move.journal.destination
  linked : start.disk.link (start.place .source) = some start.inode
  free : start.disk.link (start.place .target) = none
  same_name : start.move.target.name = start.move.source.name
  unreserved : isReservedOkfFilename start.move.source.name = false
  markdown : endsWith start.move.source.name ".md" = true
  staged : ∃ id, start.move.journal.stage = stagePrefix ++ id
  noJournal : start.disk.link (start.place .journal) = none
  noStage : start.disk.link (start.place .stage) = none

theorem fileSnapshot_eq_none {disk : Disk B} {place : Place} :
    fileSnapshot lib layout disk place = none ↔ disk.link place = none := by
  rw [fileSnapshot, Option.map_eq_none_iff]

variable {state : KnowledgeState} {move : PlannedMove}

theorem prepareMove_eq_move {disk : Disk B} {request : MoveRequest}
    {entry : PageFileState}
    (hread : readStateStrict lib.toLibrary disk = .ok state)
    (hentry : state.pages.lookup request.pageId = some entry)
    (hres : isReservedOkfFilename (splitPath request.expectedStoragePath).2 = false)
    (hjourn : disk.link moveJournal = none)
    (hstage : disk.link (controlFile (stagePrefix ++ request.stageId)) = none)
    (h : prepareMove lib layout disk request entry (pageFile request.destination) =
      .ok (.move move)) : ∃ inode, Begins lib { disk, move, state, entry, inode } := by
  obtain ⟨_, hfile, h⟩ := bind_eq_ok h
  obtain ⟨_, hfree, h⟩ := bind_eq_ok h
  obtain ⟨_, -, h⟩ := bind_eq_ok h
  obtain ⟨_, -, h⟩ := bind_eq_ok h
  obtain ⟨source, hsourc, h⟩ := bind_eq_ok h
  obtain ⟨rfl, hvalid⟩ := pageParent_eq_ok hsourc
  have hfile := not_not.mp (refuseIf_eq_ok hfile)
  have hname : (pageFile request.destination).name = (splitPath request.expectedStoragePath).2 :=
    splitPath_joinPath _ _
  cases hsnapshot : fileSnapshot lib layout disk (pageFile request.expectedStoragePath).place with
  | none =>
    rw [hsnapshot] at h
    cases h
  | some found =>
    rw [hsnapshot] at h
    obtain ⟨_, -, h⟩ := bind_eq_ok h
    obtain ⟨inode, hinode, -⟩ := Option.map_eq_some_iff.mp hsnapshot
    obtain rfl := MovePlan.move.inj (Except.ok.inj h)
    exact ⟨inode,
      { read := hread
        entry := hentry
        file := hfile
        source_file := rfl
        target_file := rfl
        linked := hinode
        free := unlinked_of_ensureCaseAvailable hfree
        same_name := hname
        unreserved := hres
        markdown := endsWith_of_validatePagePath hvalid
        staged := ⟨_, rfl⟩
        noJournal := hjourn
        noStage := hstage }⟩

theorem planMove_eq_move {disk : Disk B} {request : MoveRequest}
    (hjourn : disk.link moveJournal = none)
    (hstage : disk.link (controlFile (stagePrefix ++ request.stageId)) = none)
    (h : planMove lib layout disk request = .ok (.move move)) :
    ∃ state entry inode, Begins lib { disk, move, state, entry, inode } := by
  obtain ⟨_, -, h⟩ := bind_eq_ok h
  obtain ⟨_, -, h⟩ := bind_eq_ok h
  obtain ⟨_, -, h⟩ := bind_eq_ok h
  obtain ⟨state, hread, h⟩ := bind_eq_ok h
  cases hentry : state.pages.lookup request.pageId with
  | none =>
    rw [hentry] at h
    cases h
  | some entry =>
    rw [hentry] at h
    obtain ⟨_, hres, h⟩ := bind_eq_ok h
    obtain ⟨target, htarg, h⟩ := bind_eq_ok h
    obtain ⟨rfl, -⟩ := pageParent_eq_ok htarg
    have hres := Bool.eq_false_of_not_eq_true (refuseIf_eq_ok hres)
    by_cases hmoved : entry.file = request.destination
    · rw [if_pos hmoved] at h
      obtain ⟨_, -, h⟩ := bind_eq_ok h
      obtain ⟨_, -, h⟩ := bind_eq_ok h
      obtain ⟨_, -, h⟩ := bind_eq_ok h
      cases h
    · rw [if_neg hmoved] at h
      obtain ⟨inode, hbeg⟩ :=
        prepareMove_eq_move hread hentry hres hjourn hstage h
      exact ⟨state, entry, inode, hbeg⟩

/-! ## Names that differ -/

theorem controlFile_ne {name name' : String} (h : name.toList ≠ name'.toList) :
    controlFile name ≠ controlFile name' := by
  intro heq
  exact h (congrArg (fun place => place.name.toList) heq)

theorem place_ne_controlFile (file : PageFile) (name : String) : file.place ≠ controlFile name := by
  intro heq
  cases congrArg Place.directory heq

theorem indexPlace_ne_controlFile (name : String) : indexPlace ≠ controlFile name := by
  intro heq
  cases congrArg Place.directory heq

theorem moveJournal_ne_stateFile : moveJournal ≠ stateFile :=
  controlFile_ne (by decide)

section

variable {place : Place} (h : IsTemporary place)
include h

theorem IsTemporary.ne_controlFile {name : String}
    (hname : ∀ tag : String,
      ".projection-state-".toList ++ tag.toList ++ ".tmp".toList ≠ name.toList) :
    place ≠ controlFile name := by
  obtain ⟨tag, rfl | rfl⟩ := h
  · apply controlFile_ne
    rw [String.toList_append, String.toList_append]
    exact hname tag
  · intro heq
    cases congrArg Place.directory heq

theorem IsTemporary.ne_place {file : PageFile}
    (hname : endsWith file.name ".md") : place ≠ file.place := by
  obtain ⟨tag, rfl | rfl⟩ := h
  · exact (place_ne_controlFile _ _).symm
  · intro heq
    have hlist := congrArg (fun place => place.name.toList) heq
    obtain ⟨rest, hrest⟩ := List.isSuffixOf_iff_suffix.mp hname
    have hends := congrArg List.reverse (hrest.trans hlist.symm)
    simp [indexTemporary, String.toList_append] at hends

theorem IsTemporary.ne_indexPlace : place ≠ indexPlace :=
  h.ne_place (show endsWith (PageFile.mk "" indexFile).name ".md" by decide)

end

namespace Begins

variable {start : MoveStart B} (hb : Begins lib start)
include hb

theorem stage_ne_controlFile {name : String} (h : ∀ id : String,
    stagePrefix.toList ++ id.toList ≠ name.toList) : start.place .stage ≠ controlFile name := by
  obtain ⟨id, hid⟩ := hb.staged
  apply controlFile_ne
  rw [hid, String.toList_append]
  exact h id

theorem stage_ne_journal : start.place .stage ≠ moveJournal := by
  apply hb.stage_ne_controlFile
  intro id h
  simp [stagePrefix] at h

theorem stage_ne_state : start.place .stage ≠ stateFile := by
  apply hb.stage_ne_controlFile
  intro id h
  simp [stagePrefix] at h

theorem source_ne_target : start.place .source ≠ start.place .target := by
  intro heq
  have hlinke := hb.linked
  rw [heq, hb.free] at hlinke
  cases hlinke

theorem source_ne_index : start.place .source ≠ indexPlace := by
  intro heq
  have hname : start.move.source.name = indexFile := congrArg Place.name heq
  have hres := hb.unreserved
  rw [hname] at hres
  revert hres
  decide

theorem target_ne_index : start.place .target ≠ indexPlace := by
  intro heq
  have hname : start.move.target.name = indexFile := congrArg Place.name heq
  have hres := hb.unreserved
  rw [← hb.same_name, hname] at hres
  revert hres
  decide

theorem place_injective : Function.Injective start.place := by
  have hst := hb.source_ne_target
  have hsi := hb.source_ne_index
  have hti := hb.target_ne_index
  have hgj := hb.stage_ne_journal
  have hgs := hb.stage_ne_state
  intro r r' h
  cases r <;> cases r'
  case source.source | target.target | stage.stage | journal.journal | state.state | index.index =>
    rfl
  case source.target => exact absurd h hst
  case target.source => exact absurd h.symm hst
  case source.index => exact absurd h hsi
  case index.source => exact absurd h.symm hsi
  case target.index => exact absurd h hti
  case index.target => exact absurd h.symm hti
  case stage.journal => exact absurd h hgj
  case journal.stage => exact absurd h.symm hgj
  case stage.state => exact absurd h hgs
  case state.stage => exact absurd h.symm hgs
  case journal.state => exact absurd h moveJournal_ne_stateFile
  case state.journal => exact absurd h.symm moveJournal_ne_stateFile
  case source.stage | source.journal | source.state | target.stage | target.journal |
      target.state =>
    exact absurd h (place_ne_controlFile _ _)
  case stage.source | journal.source | state.source | stage.target | journal.target |
      state.target =>
    exact absurd h.symm (place_ne_controlFile _ _)
  case index.stage | index.journal | index.state =>
    exact absurd h (indexPlace_ne_controlFile _)
  case stage.index | journal.index | state.index =>
    exact absurd h.symm (indexPlace_ne_controlFile _)

theorem temporary_ne {place : Place} (h : IsTemporary place) (role : Role) :
    start.place role ≠ place := by
  have hmarkd := hb.markdown
  apply Ne.symm
  cases role with
  | source => exact h.ne_place hmarkd
  | target => exact h.ne_place (by rw [hb.same_name]; exact hmarkd)
  | stage =>
    obtain ⟨id, hid⟩ := hb.staged
    apply h.ne_controlFile
    intro tag heq
    simp [hid, stagePrefix, String.toList_append] at heq
  | journal =>
    apply h.ne_controlFile
    intro tag heq
    simp at heq
  | state =>
    apply h.ne_controlFile
    intro tag heq
    simp at heq
  | index => exact h.ne_indexPlace

theorem update_place (links : Place → Option Nat) (role role' : Role) (value : Option Nat) :
    update links (start.place role) value (start.place role') =
      if role' = role then value else links (start.place role') := by
  by_cases hrole : role' = role
  · rw [hrole, update_self, if_pos rfl]
  · rw [update_of_ne (hb.place_injective.ne hrole), if_neg hrole]

theorem update_temporary {place : Place} (h : IsTemporary place) (links : Place → Option Nat)
    (role : Role) (value : Option Nat) :
    update links place value (start.place role) = links (start.place role) :=
  update_of_ne (hb.temporary_ne h role) _ _

end Begins

theorem update_untouched {start : MoveStart B} {place other : Place}
    (h : start.Touched place) (hother : ¬ start.Touched other) (links : Place → Option Nat)
    (value : Option Nat) : update links place value other = links other := by
  apply update_of_ne
  rintro rfl
  exact hother h

inductive Progress where
  | before
  | noted
  | staged
  | linked
  | recorded
  | unstaged
  | moved

namespace Progress

/-- Where the page's file is linked. -/
def holds : Progress → Role → Bool
  | .before, role | .noted, role => role == .source
  | .staged, role => role == .stage
  | .linked, role | .recorded, role => role == .stage || role == .target
  | .unstaged, role | .moved, role => role == .target

def hasJournal : Progress → Bool
  | .before | .moved => false
  | .noted | .staged | .linked | .recorded | .unstaged => true

def isRecorded : Progress → Bool
  | .before | .noted | .staged | .linked => false
  | .recorded | .unstaged | .moved => true

end Progress

def MoveStart.JournalText (lib : MoveLibrary B) (start : MoveStart B) (bytes : B) : Prop :=
  ∀ read, lib.parseJournal bytes = some read → read = start.move.journal

def MoveStart.IndexReplaceable (lib : MoveLibrary B) (start : MoveStart B) : Prop :=
  indexFileIsReplaceable lib start.disk = true

structure Looks (lib : MoveLibrary B) (start : MoveStart B) (disk : Disk B) (at_ : Progress) :
    Prop where
  page : ∀ role ∈ [Role.source, .stage, .target],
    disk.link (start.place role) = if at_.holds role then some start.inode else none
  journal : if at_.hasJournal then
      ∃ inode, disk.link (start.place .journal) = some inode ∧ start.disk.fresh ≤ inode ∧
        start.JournalText lib (disk.data inode)
    else disk.link (start.place .journal) = none
  state : if at_.isRecorded then
      ∃ inode state, disk.link (start.place .state) = some inode ∧ start.disk.fresh ≤ inode ∧
        disk.data inode = lib.renderState state ∧
        start.Records start.move.journal.destination state
    else disk.link (start.place .state) = start.disk.link (start.place .state)
  index : disk.link (start.place .index) = start.disk.link (start.place .index) ∨
    at_ = .moved ∧ start.IndexReplaceable lib
  others : ∀ place, ¬ start.Touched place → disk.link place = start.disk.link place
  data : ∀ inode < start.disk.fresh, disk.data inode = start.disk.data inode
  fresh : start.disk.fresh ≤ disk.fresh

namespace Looks

variable {start : MoveStart B} {disk disk' : Disk B} {at_ : Progress} {place : Place}
  {inode : Nat} {bytes : B}

theorem journal_of (hl : Looks lib start disk at_) (h : at_.hasJournal) :
    ∃ inode, disk.link (start.place .journal) = some inode ∧ start.disk.fresh ≤ inode ∧
      start.JournalText lib (disk.data inode) := by
  have hjourn := hl.journal
  rwa [if_pos h] at hjourn

theorem noJournal_of (hl : Looks lib start disk at_) (h : at_.hasJournal = false) :
    disk.link (start.place .journal) = none := by
  have hjourn := hl.journal
  rwa [if_neg (by rw [h]; decide)] at hjourn

theorem state_lt (hl : Looks lib start disk at_) (h : at_.isRecorded = false)
    (hlink : disk.link (start.place .state) = some inode) : inode < start.disk.fresh := by
  have hstate := hl.state
  rw [if_neg (by rw [h]; decide)] at hstate
  exact start.disk.bounded _ _ (hstate ▸ hlink)

/-! ## Operations that keep the stage -/

section

variable (hl : Looks lib start disk at_)
include hl

theorem store (hinode : start.disk.fresh ≤ inode)
    (hjourn : disk.link (start.place .journal) = some inode → start.JournalText lib bytes)
    (hstate : disk.link (start.place .state) ≠ some inode) :
    Looks lib start (disk.store inode bytes) at_ where
  page := hl.page
  journal := by
    have h := hl.journal
    split
    · rename_i hhas
      obtain ⟨i, hi, hle, htext⟩ := hl.journal_of hhas
      refine ⟨i, hi, hle, ?_⟩
      by_cases heq : i = inode
      · rw [heq, Files.store_data, update_self]
        exact hjourn (heq ▸ hi)
      · rw [Files.store_data, update_of_ne heq]
        exact htext
    · rename_i hhas
      rwa [if_neg hhas] at h
  state := by
    have h := hl.state
    split
    · rename_i hrec
      rw [if_pos hrec] at h
      obtain ⟨i, state, hi, hle, hdata, hrecs⟩ := h
      refine ⟨i, state, hi, hle, ?_, hrecs⟩
      have hne : i ≠ inode := by
        rintro rfl
        exact hstate hi
      rw [Files.store_data, update_of_ne hne]
      exact hdata
    · rename_i hrec
      rwa [if_neg hrec] at h
  index := hl.index
  others := hl.others
  data := by
    intro i hi
    rw [Files.store_data, update_of_ne (by omega)]
    exact hl.data i hi
  fresh := hl.fresh

theorem journal_same {next : Progress}
    (hlink : disk'.link (start.place .journal) = disk.link (start.place .journal))
    (hdata : ∀ i < disk.fresh, disk'.data i = disk.data i)
    (hnext : next.hasJournal = at_.hasJournal) : if next.hasJournal then
      ∃ inode, disk'.link (start.place .journal) = some inode ∧ start.disk.fresh ≤ inode ∧
        start.JournalText lib (disk'.data inode) else disk'.link (start.place .journal) = none := by
  rw [hnext, hlink]
  have h := hl.journal
  split
  · obtain ⟨i, hi, hle, htext⟩ := hl.journal_of (by assumption)
    exact ⟨i, hi, hle, by rwa [hdata i (disk.bounded _ _ hi)]⟩
  · rename_i hhas
    rwa [if_neg hhas] at h

theorem state_same {next : Progress}
    (hlink : disk'.link (start.place .state) = disk.link (start.place .state))
    (hdata : ∀ i < disk.fresh, disk'.data i = disk.data i)
    (hnext : next.isRecorded = at_.isRecorded) : if next.isRecorded then
      ∃ inode state, disk'.link (start.place .state) = some inode ∧ start.disk.fresh ≤ inode ∧
        disk'.data inode = lib.renderState state ∧
        start.Records start.move.journal.destination state
    else disk'.link (start.place .state) = start.disk.link (start.place .state) := by
  rw [hnext, hlink]
  have h := hl.state
  split
  · rename_i hrec
    rw [if_pos hrec] at h
    obtain ⟨i, state, hi, hle, htext, hrecs⟩ := h
    exact ⟨i, state, hi, hle, by rwa [hdata i (disk.bounded _ _ hi)], hrecs⟩
  · rename_i hrec
    rwa [if_neg hrec] at h

theorem relink (next : Progress)
    (hdata : ∀ i < disk.fresh, disk'.data i = disk.data i) (hfresh : disk.fresh ≤ disk'.fresh)
    (hoth : ∀ other, ¬ start.Touched other → disk'.link other = disk.link other)
    (hindex : disk'.link (start.place .index) = disk.link (start.place .index))
    (hnext : at_ = .moved → next = .moved) (hpage : ∀ role ∈ [Role.source, .stage, .target],
      disk'.link (start.place role) = if next.holds role then some start.inode else none)
    (hjourn : if next.hasJournal then
        ∃ inode, disk'.link (start.place .journal) = some inode ∧ start.disk.fresh ≤ inode ∧
          start.JournalText lib (disk'.data inode)
      else disk'.link (start.place .journal) = none) (hstate : if next.isRecorded then
        ∃ inode state, disk'.link (start.place .state) = some inode ∧ start.disk.fresh ≤ inode ∧
          disk'.data inode = lib.renderState state ∧
          start.Records start.move.journal.destination state
      else disk'.link (start.place .state) = start.disk.link (start.place .state)) :
    Looks lib start disk' next where
  page := hpage
  journal := hjourn
  state := hstate
  index := by
    rw [hindex]
    exact hl.index.imp_right fun hmoved => ⟨hnext hmoved.1, hmoved.2⟩
  others := by
    intro other hother
    rw [hoth other hother, hl.others other hother]
  data := by
    intro i hi
    have hle := hl.fresh
    rw [hdata i (by omega), hl.data i hi]
  fresh := hl.fresh.trans hfresh

theorem congr (hlink : ∀ role, disk'.link (start.place role) = disk.link (start.place role))
    (hoth : ∀ other, ¬ start.Touched other → disk'.link other = disk.link other)
    (hdata : ∀ i < disk.fresh, disk'.data i = disk.data i) (hfresh : disk.fresh ≤ disk'.fresh) :
    Looks lib start disk' at_ := by
  apply hl.relink at_ hdata hfresh hoth (hlink _) id
  · intro role hrole
    rw [hlink]
    exact hl.page role hrole
  · exact hl.journal_same (hlink _) hdata rfl
  · exact hl.state_same (hlink _) hdata rfl

end

section

variable (hb : Begins lib start) (hl : Looks lib start disk at_) (ht : IsTemporary place)
include hb hl ht

theorem create
    (h : disk.createNew place bytes = some disk') : Looks lib start disk' at_ := by
  obtain ⟨-, hlink, hdata, hfresh⟩ := Files.createNew_eq_some h
  apply hl.congr
  · intro role
    rw [hlink, hb.update_temporary ht]
  · intro other hother
    rw [hlink, update_untouched (.inr ht) hother]
  · intro i hi
    rw [hdata, update_of_ne (by omega)]
  · omega

theorem discard
    (h : disk.remove place = some disk') : Looks lib start disk' at_ := by
  obtain ⟨-, hlink, hdata, hfresh⟩ := Files.remove_eq_some h
  apply hl.congr
  · intro role
    rw [hlink, hb.update_temporary ht]
  · intro other hother
    rw [hlink, update_untouched (.inr ht) hother]
  · intro i _
    rw [hdata]
  · omega

end

/-! ## Operations that lead to the next stage -/

section

variable (hb : Begins lib start)
include hb

theorem note (hl : Looks lib start disk .before)
    (hbytes : start.JournalText lib bytes) (h : disk.createNew moveJournal bytes = some disk') :
    Looks lib start disk' .noted ∧ disk'.link moveJournal = some disk.fresh := by
  obtain ⟨-, hlink, hdata, hfresh⟩ := Files.createNew_eq_some h
  have hplace : ∀ role, disk'.link (start.place role) =
      if role = .journal then some disk.fresh else disk.link (start.place role) := by
    intro role
    rw [hlink]
    exact hb.update_place _ .journal role _
  refine ⟨hl.relink .noted ?_ (by omega) ?_ (hplace .index) (by simp) ?_ ?_ ?_, hplace .journal⟩
  · intro i hi
    rw [hdata, update_of_ne (by omega)]
  · intro other hother
    rw [hlink]
    exact update_untouched (.inl ⟨.journal, rfl⟩) hother _ _
  · intro role hrole
    rw [hplace, if_neg (by rintro rfl; simp at hrole)]
    exact hl.page role hrole
  · refine ⟨disk.fresh, hplace .journal, hl.fresh, ?_⟩
    rw [hdata, update_self]
    exact hbytes
  · rw [if_neg (by decide), hplace]
    exact hl.state

/-- The page's file is moved aside. -/
theorem takeAside (hl : Looks lib start disk .noted)
    (h : disk.rename (start.place .source) (start.place .stage) = some disk') :
    Looks lib start disk' .staged := by
  obtain ⟨i, hi, hlink, hdata, hfresh⟩ := Files.rename_eq_some h
  have hinode : some i = some start.inode := hi.symm.trans (hl.page .source (by decide))
  have hplace : ∀ role, disk'.link (start.place role) = if role = .stage then some start.inode
      else if role = .source then none else disk.link (start.place role) := by
    intro role
    rw [hlink, hb.update_place, hb.update_place, hinode]
  have hsame : ∀ i < disk.fresh, disk'.data i = disk.data i := fun i _ => by rw [hdata]
  apply hl.relink .staged hsame hfresh.ge _ (hplace .index) (by simp) _
    (hl.journal_same (hplace .journal) hsame rfl) (hl.state_same (hplace .state) hsame rfl)
  · intro other hother
    rw [hlink, update_untouched (.inl ⟨.stage, rfl⟩) hother,
      update_untouched (.inl ⟨.source, rfl⟩) hother]
  · intro role hrole
    have htarg := hl.page .target (by decide)
    fin_cases hrole
    · exact hplace .source
    · exact hplace .stage
    · exact (hplace .target).trans htarg

/-- The page's file is linked at its destination. -/
theorem install (hl : Looks lib start disk .staged)
    (h : disk.hardLink (start.place .stage) (start.place .target) = some disk') :
    Looks lib start disk' .linked := by
  obtain ⟨i, hi, -, hlink, hdata, hfresh⟩ := Files.hardLink_eq_some h
  have hinode : some i = some start.inode := hi.symm.trans (hl.page .stage (by decide))
  have hplace : ∀ role, disk'.link (start.place role) =
      if role = .target then some start.inode else disk.link (start.place role) := by
    intro role
    rw [hlink, hb.update_place, hinode]
  have hsame : ∀ i < disk.fresh, disk'.data i = disk.data i := fun i _ => by rw [hdata]
  apply hl.relink .linked hsame hfresh.ge _ (hplace .index) (by simp) _
    (hl.journal_same (hplace .journal) hsame rfl) (hl.state_same (hplace .state) hsame rfl)
  · intro other hother
    rw [hlink, update_untouched (.inl ⟨.target, rfl⟩) hother]
  · intro role hrole
    have hpage := hl.page role hrole
    rw [hplace]
    fin_cases hrole
    · exact hpage
    · exact hpage
    · rfl

theorem dropStage (hl : Looks lib start disk .recorded)
    (h : disk.remove (start.place .stage) = some disk') : Looks lib start disk' .unstaged := by
  obtain ⟨-, hlink, hdata, hfresh⟩ := Files.remove_eq_some h
  have hplace : ∀ role, disk'.link (start.place role) =
      if role = .stage then none else disk.link (start.place role) := by
    intro role
    rw [hlink, hb.update_place]
  have hsame : ∀ i < disk.fresh, disk'.data i = disk.data i := fun i _ => by rw [hdata]
  apply hl.relink .unstaged hsame hfresh.ge _ (hplace .index) (by simp) _
    (hl.journal_same (hplace .journal) hsame rfl) (hl.state_same (hplace .state) hsame rfl)
  · intro other hother
    rw [hlink, update_untouched (.inl ⟨.stage, rfl⟩) hother]
  · intro role hrole
    have hpage := hl.page role hrole
    rw [hplace]
    fin_cases hrole
    · exact hpage
    · rfl
    · exact hpage

/-- The journal is removed, before the page's file was touched or after everything else. -/
theorem dropJournal (hl : Looks lib start disk at_) {next : Progress}
    (hnext : at_ = .noted ∧ next = .before ∨ at_ = .unstaged ∧ next = .moved)
    (h : disk.remove (start.place .journal) = some disk') : Looks lib start disk' next := by
  obtain ⟨-, hlink, hdata, hfresh⟩ := Files.remove_eq_some h
  have hplace : ∀ role, disk'.link (start.place role) =
      if role = .journal then none else disk.link (start.place role) := by
    intro role
    rw [hlink, hb.update_place]
  have hsame : ∀ i < disk.fresh, disk'.data i = disk.data i := fun i _ => by rw [hdata]
  have hoth : ∀ other, ¬ start.Touched other → disk'.link other = disk.link other := by
    intro other hother
    rw [hlink, update_untouched (.inl ⟨.journal, rfl⟩) hother]
  have hholds : next.holds = at_.holds ∧ next.hasJournal = false ∧
      next.isRecorded = at_.isRecorded := by
    obtain ⟨rfl, rfl⟩ | ⟨rfl, rfl⟩ := hnext <;> exact ⟨rfl, rfl, rfl⟩
  apply hl.relink next hsame hfresh.ge hoth (hplace .index) _ _ _
    (hl.state_same (hplace .state) hsame hholds.2.2)
  · rintro rfl
    simp at hnext
  · intro role hrole
    rw [hplace, if_neg (by rintro rfl; simp at hrole), hholds.1]
    exact hl.page role hrole
  · rw [hholds.2.1]
    exact hplace .journal

/-- The new state is put in place of the old one. -/
theorem save (hl : Looks lib start disk at_) (ht : IsTemporary place) {next : Progress}
    (hnext : at_ = .linked ∧ next = .recorded ∨ at_ = .recorded ∧ next = .recorded ∨
      at_ = .unstaged ∧ next = .unstaged)
    (hrecs : start.Records start.move.journal.destination state)
    (hinode : disk.link place = some inode) (hle : start.disk.fresh ≤ inode)
    (htext : disk.data inode = lib.renderState state)
    (h : disk.rename place stateFile = some disk') : Looks lib start disk' next := by
  obtain ⟨i, hi, hlink, hdata, hfresh⟩ := Files.rename_eq_some h
  obtain rfl : i = inode := Option.mem_unique hi hinode
  have hplace : ∀ role, disk'.link (start.place role) =
      if role = .state then some i else disk.link (start.place role) := by
    intro role
    rw [hlink]
    exact (hb.update_place _ .state role _).trans (by rw [hb.update_temporary ht])
  have hsame : ∀ i < disk.fresh, disk'.data i = disk.data i := fun i _ => by rw [hdata]
  have hoth : ∀ other, ¬ start.Touched other → disk'.link other = disk.link other := by
    intro other hother
    rw [hlink]
    exact (update_untouched (.inl ⟨.state, rfl⟩) hother _ _).trans
      (update_untouched (.inr ht) hother _ _)
  have hstate : ∃ inode state, disk'.link (start.place .state) = some inode ∧
      start.disk.fresh ≤ inode ∧ disk'.data inode = lib.renderState state ∧
      start.Records start.move.journal.destination state :=
    ⟨i, state, hplace .state, hle, by rw [hdata]; exact htext, hrecs⟩
  have hholds : next.holds = at_.holds ∧ next.hasJournal = at_.hasJournal ∧
      next.isRecorded := by
    obtain ⟨rfl, rfl⟩ | ⟨rfl, rfl⟩ | ⟨rfl, rfl⟩ := hnext <;> exact ⟨rfl, rfl, rfl⟩
  apply hl.relink next hsame hfresh.ge hoth (hplace .index) _ _
    (hl.journal_same (hplace .journal) hsame hholds.2.1) _
  · rintro rfl
    simp at hnext
  · intro role hrole
    rw [hplace, if_neg (by rintro rfl; simp at hrole), hholds.1]
    exact hl.page role hrole
  · rw [if_pos hholds.2.2]
    exact hstate

theorem navigate (hl : Looks lib start disk .moved)
    (ht : IsTemporary place) (hindex : start.IndexReplaceable lib)
    (h : disk.rename place indexPlace = some disk') : Looks lib start disk' .moved := by
  obtain ⟨i, hi, hlink, hdata, hfresh⟩ := Files.rename_eq_some h
  have hplace : ∀ role, disk'.link (start.place role) =
      if role = .index then some i else disk.link (start.place role) := by
    intro role
    rw [hlink]
    exact (hb.update_place _ .index role _).trans (by rw [hb.update_temporary ht])
  have hsame : ∀ i < disk.fresh, disk'.data i = disk.data i := fun i _ => by rw [hdata]
  exact
    { page := by
        intro role hrole
        rw [hplace, if_neg (by rintro rfl; simp at hrole)]
        exact hl.page role hrole
      journal := hl.journal_same (hplace .journal) hsame rfl
      state := hl.state_same (hplace .state) hsame rfl
      index := .inr ⟨rfl, hindex⟩
      others := by
        intro other hother
        rw [hlink]
        exact (update_untouched (.inl ⟨.index, rfl⟩) hother _ _).trans
          ((update_untouched (.inr ht) hother _ _).trans (hl.others other hother))
      data := by
        intro i hi
        rw [hdata]
        exact hl.data i hi
      fresh := hl.fresh.trans hfresh.ge }

end

end Looks

end Wenlan.Projection
