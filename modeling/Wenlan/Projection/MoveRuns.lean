import Wenlan.Projection.MoveSafety

/-!
# Runs of a move and its recoveries

The recovery recognizes the stage it finds, every step of the process keeps the disk at one of
the stages, and so does a process that stops anywhere.
-/

namespace Wenlan.Projection

open Pages MoveWorld
open Support.FileSystem
open Support.Transition

variable {B : Type} {lib : MoveLibrary B} {layout : Layout} {start : MoveStart B}
  {disk disk' : Disk B} {at_ : Progress}

/-! ## What a recovery reads -/

structure Reads (start : MoveStart B) (recovery : Recovery) : Prop where
  journal : recovery.journal = start.move.journal
  source : recovery.source = start.move.source
  target : recovery.target = start.move.target
  state : ∃ file, start.Records file recovery.state

variable {recovery : Recovery}

theorem Reads.recordedState (hr : Reads start recovery) :
    start.Records start.move.journal.destination recovery.recordedState := by
  obtain ⟨file, hrecs⟩ := hr.state
  have hentry : recovery.state.pages.lookup recovery.journal.pageId =
      some (start.entryAt file) := by
    rw [hrecs, hr.journal, if_pos rfl]
  intro id
  unfold Recovery.recordedState
  rw [hentry]
  by_cases hid : id = start.move.journal.pageId
  · rw [if_pos hid, hr.journal, ← hid, AList.lookup_insert]
    rfl
  · rw [if_neg hid, hr.journal, AList.lookup_insert_ne hid, hrecs, if_neg hid]

namespace Looks

theorem reads_state (hb : Begins lib start) (hl : Looks lib start disk at_)
    {state : KnowledgeState} (h : readStateStrict lib.toLibrary disk = .ok state) :
    ∃ file, start.Records file state := by
  have hstate := hl.state
  cases hrecorded : at_.isRecorded with
  | false =>
    rw [if_neg (by rw [hrecorded]; decide)] at hstate
    have hread : disk.read stateFile = start.disk.read stateFile := by
      change (disk.link (start.place .state)).map disk.data =
        (start.disk.link (start.place .state)).map start.disk.data
      rw [hstate]
      apply Option.map_congr
      intro inode hinode
      exact hl.data inode (start.disk.bounded _ _ hinode)
    rw [readStateStrict_congr hread, hb.read] at h
    cases h
    refine ⟨start.entry.file, fun id => ?_⟩
    by_cases hid : id = start.move.journal.pageId
    · rw [if_pos hid, hid]
      exact hb.entry
    · rw [if_neg hid]
  | true =>
    rw [if_pos hrecorded] at hstate
    obtain ⟨inode, saved, hinode, -, hdata, hrecs⟩ := hstate
    have hread : disk.read stateFile = some (lib.renderState saved) :=
      Files.read_eq_some.mpr ⟨inode, hinode, hdata⟩
    refine ⟨start.move.journal.destination, fun id => ?_⟩
    rw [readStateStrict_pages hread h]
    exact hrecs id

end Looks

theorem classify_eq_ok {entry : PageFileState} {found : Classified}
    (h : classify lib layout disk recovery entry = .ok found) :
    found = .cancel ∧ disk.link recovery.source.place ≠ none ∨
      disk.link recovery.source.place = none ∧
        (found = .link recovery ∧ disk.link recovery.target.place = none ∨
          found = .installed recovery ∧ disk.link recovery.target.place ≠ none) := by
  obtain ⟨_, -, h⟩ := bind_eq_ok h
  obtain ⟨_, -, h⟩ := bind_eq_ok h
  split at h
  · rename_i hcanc
    refine .inl ⟨(Except.ok.inj h).symm, fun hnone => ?_⟩
    have hmatch := hcanc.2.2.1
    rw [fileSnapshot_eq_none.mpr hnone] at hmatch
    cases hmatch
  · obtain ⟨_, href, h⟩ := bind_eq_ok h
    have hsourc := not_or.mp (refuseIf_eq_ok href)
    refine .inr ⟨fileSnapshot_eq_none.mp (not_not.mp hsourc.1), ?_⟩
    split at h
    · rename_i htarg
      obtain ⟨_, -, h⟩ := bind_eq_ok h
      obtain ⟨_, -, h⟩ := bind_eq_ok h
      exact .inl ⟨(Except.ok.inj h).symm, fileSnapshot_eq_none.mp htarg⟩
    · rename_i htarg
      exact .inr ⟨(Except.ok.inj h).symm, fun hnone => htarg (fileSnapshot_eq_none.mpr hnone)⟩

inductive Recognizes (start : MoveStart B) : Progress → Classified → Prop
  | before : Recognizes start .before .nothing
  | moved : Recognizes start .moved .nothing
  | noted : Recognizes start .noted .cancel
  | staged {recovery : Recovery} : Reads start recovery → recovery.staged = true →
      Recognizes start .staged (.link recovery)
  | linked {recovery : Recovery} : Reads start recovery → recovery.staged = true →
      Recognizes start .linked (.installed recovery)
  | recorded {recovery : Recovery} : Reads start recovery → recovery.staged = true →
      Recognizes start .recorded (.installed recovery)
  | unstaged {recovery : Recovery} : Reads start recovery → recovery.staged = false →
      Recognizes start .unstaged (.installed recovery)

theorem recoverMove_eq_ok (hb : Begins lib start) (hl : Looks lib start disk at_)
    {found : Classified} (h : recoverMove lib layout disk = .ok found) :
    Recognizes start at_ found := by
  unfold recoverMove at h
  split at h
  · rename_i hnone
    have hlink : disk.link (start.place .journal) = none := Files.read_eq_none.mp hnone
    cases h
    have hjourn := hl.journal
    cases at_
    case before => exact .before
    case moved => exact .moved
    all_goals
      rw [if_pos (by decide)] at hjourn
      obtain ⟨inode, hinode, -⟩ := hjourn
      rw [hlink] at hinode
      cases hinode
  · rename_i bytes hread
    obtain ⟨inode, hinode, hdata⟩ := Files.read_eq_some.mp hread
    have hhas : at_.hasJournal := by
      by_contra hhas
      have hnone := hl.noJournal_of (Bool.eq_false_of_not_eq_true hhas)
      rw [show disk.link (start.place .journal) = some inode from hinode] at hnone
      cases hnone
    split at h
    · cases h
    rename_i journal hparse
    obtain ⟨i, hi, -, htext⟩ := hl.journal_of hhas
    obtain rfl : i = inode := Option.mem_unique hi hinode
    obtain rfl := htext journal (by rw [hdata]; exact hparse)
    obtain ⟨_, -, h⟩ := bind_eq_ok h
    obtain ⟨_, -, h⟩ := bind_eq_ok h
    obtain ⟨_, -, h⟩ := bind_eq_ok h
    obtain ⟨source, hsourc, h⟩ := bind_eq_ok h
    obtain ⟨target, htarg, h⟩ := bind_eq_ok h
    obtain ⟨state, hstate, h⟩ := bind_eq_ok h
    have hsourc := (pageParent_eq_ok hsourc).1.trans hb.source_file.symm
    have htarg := (pageParent_eq_ok htarg).1.trans hb.target_file.symm
    split at h
    · cases h
    rename_i entry hentry
    have hreads : ∀ staged, Reads start
        { journal := start.move.journal, state, source, target, staged } :=
      fun staged => ⟨rfl, hsourc, htarg, hl.reads_state hb hstate⟩
    have hpage := hl.page
    have hstag : (fileSnapshot lib layout disk start.move.journal.stagePlace).isSome =
        at_.holds .stage := by
      rw [fileSnapshot, Option.isSome_map]
      have hstage := hl.page .stage (by decide)
      change disk.link start.move.journal.stagePlace = _ at hstage
      rw [hstage]
      cases at_.holds .stage <;> rfl
    have hlinks := classify_eq_ok h
    have hsour : disk.link source.place = if at_.holds .source then some start.inode else none := by
      rw [hsourc]
      exact hl.page .source (by decide)
    have htarge : disk.link target.place = if at_.holds .target then some start.inode else none := by
      rw [htarg]
      exact hl.page .target (by decide)
    rw [hstag, hsour, htarge] at hlinks
    cases at_
    case before | moved => cases hhas
    all_goals simp [Progress.holds] at hlinks
    case noted =>
      rw [hlinks]
      exact .noted
    case staged =>
      rw [hlinks]
      exact .staged (hreads _) rfl
    case linked =>
      rw [hlinks]
      exact .linked (hreads _) rfl
    case recorded =>
      rw [hlinks]
      exact .recorded (hreads _) rfl
    case unstaged =>
      rw [hlinks]
      exact .unstaged (hreads _) rfl

/-- The temporary of a write: nobody else has the file that is being filled. -/
def Writes (start : MoveStart B) (disk : Disk B) (bytes : B) : Writing → Prop
  | .opening temporary => IsTemporary temporary
  | .filling temporary inode =>
    IsTemporary temporary ∧ disk.link temporary = some inode ∧ start.disk.fresh ≤ inode ∧
      ∀ place, disk.link place = some inode → place = temporary
  | .installing temporary =>
    IsTemporary temporary ∧ ∃ inode, disk.link temporary = some inode ∧
      start.disk.fresh ≤ inode ∧ disk.data inode = bytes

/-- The page is linked at its destination, and the recovery knows whether the stage is left. -/
def Installed (at_ : Progress) (recovery : Recovery) : Prop :=
  (at_ = .linked ∨ at_ = .recorded) ∧ recovery.staged = true ∨
    at_ = .unstaged ∧ recovery.staged = false

def Stands (lib : MoveLibrary B) (start : MoveStart B) (disk : Disk B) (at_ : Progress) :
    Position B → Prop
  | .down | .recovering => True
  | .planned move => move = start.move ∧ at_ = .before
  | .noting move inode =>
    move = start.move ∧ at_ = .noted ∧ disk.link moveJournal = some inode
  | .noted move => move = start.move ∧ at_ = .noted
  | .cancelling => at_ = .noted
  | .linking recovery => at_ = .staged ∧ Reads start recovery ∧ recovery.staged = true
  | .installed recovery => Reads start recovery ∧ Installed at_ recovery
  | .saving recovery writing =>
    Reads start recovery ∧ Installed at_ recovery ∧
      Writes start disk (recovery.stateBytes lib) writing
  | .recorded recovery =>
    Reads start recovery ∧ (at_ = .recorded ∧ recovery.staged = true ∨
      at_ = .unstaged ∧ recovery.staged = false)
  | .closing _ => at_ = .unstaged
  | .navigating _ => at_ = .moved
  | .indexing bytes writing =>
    at_ = .moved ∧ start.IndexReplaceable lib ∧ Writes start disk bytes writing
  | .finished => at_ = .before ∨ at_ = .moved

/-- The disk is at a stage that the process can be at. -/
def Held (lib : MoveLibrary B) (start : MoveStart B) (world : MoveWorld B) : Prop :=
  ∃ at_, Looks lib start world.disk at_ ∧ Stands lib start world.disk at_ world.position

section Writes

variable {bytes : B} {writing : Writing}

theorem Writes.isTemporary (hw : Writes start disk bytes writing) :
    IsTemporary writing.temporary := by
  cases writing with
  | opening temporary => exact hw
  | filling temporary inode => exact hw.1
  | installing temporary => exact hw.1

section

variable (hb : Begins lib start) (hl : Looks lib start disk at_)
include hb hl

theorem Looks.fill {temporary : Place}
    {inode : Nat} (hw : Writes start disk bytes (.filling temporary inode)) (text : B) :
    Looks lib start (disk.store inode text) at_ := by
  obtain ⟨ht, -, hle, halone⟩ := hw
  have hrole : ∀ role, disk.link (start.place role) ≠ some inode :=
    fun role hlink => hb.temporary_ne ht role (halone _ hlink)
  exact hl.store hle (fun hlink => absurd hlink (hrole .journal)) (hrole .state)

section

variable (hw : Writes start disk bytes writing)
include hw

theorem Writes.advance {target : Place} {next : Option Writing}
    (h : writing.advance lib target bytes disk = .ok (disk', next)) :
    (∃ writing', next = some writing' ∧ Looks lib start disk' at_ ∧
        Writes start disk' bytes writing') ∨
      next = none ∧ ∃ temporary inode, IsTemporary temporary ∧
        disk.link temporary = some inode ∧ start.disk.fresh ≤ inode ∧ disk.data inode = bytes ∧
        disk.rename temporary target = some disk' := by
  cases writing with
  | opening temporary =>
    simp only [Writing.advance] at h
    split at h
    · rename_i created hcreate
      cases h
      refine .inl ⟨_, rfl, hl.create hb hw hcreate, hw, ?_⟩
      obtain ⟨-, hlink, -, -⟩ := Files.createNew_eq_some hcreate
      refine ⟨by rw [hlink, Function.update_self], hl.fresh, fun place hplace => ?_⟩
      by_contra hne
      rw [hlink, Function.update_of_ne hne] at hplace
      exact absurd (disk.bounded _ _ hplace) (lt_irrefl _)
    · cases h
  | filling temporary inode =>
    cases h
    refine .inl ⟨_, rfl, hl.fill hb hw bytes, hw.1, inode, hw.2.1, hw.2.2.1, ?_⟩
    rw [Files.store_data, Function.update_self]
  | installing temporary =>
    simp only [Writing.advance] at h
    split at h
    · rename_i installed hren
      cases h
      obtain ⟨ht, inode, hlink, hle, hdata⟩ := hw
      exact .inr ⟨rfl, temporary, inode, ht, hlink, hle, hdata, hren⟩
    · cases h

theorem Writes.write (length : Nat) :
    Looks lib start (writing.write lib bytes length disk) at_ ∧
      Writes start (writing.write lib bytes length disk) bytes writing := by
  cases writing with
  | opening temporary => exact ⟨hl, hw⟩
  | filling temporary inode => exact ⟨hl.fill hb hw _, hw⟩
  | installing temporary => exact ⟨hl, hw⟩

theorem Writes.abandon : Looks lib start (writing.abandon disk) at_ := by
  unfold Writing.abandon
  cases hrem : disk.remove writing.temporary with
  | none => exact hl
  | some removed => exact hl.discard hb hw.isTemporary hrem

end

end

end Writes

/-! ## Steps -/

theorem removeFile_eq_ok {place : Place} {next : Position B} {after : MoveWorld B}
    (h : removeFile disk place next = .ok after) :
    ∃ removed, disk.remove place = some removed ∧ after = { disk := removed, position := next } := by
  unfold removeFile at h
  split at h
  · rename_i removed hrem
    exact ⟨removed, hrem, (Except.ok.inj h).symm⟩
  · cases h

theorem Looks.indexReplaceable (hl : Looks lib start disk at_)
    (h : indexFileIsReplaceable lib disk) : start.IndexReplaceable lib := by
  obtain hlink | ⟨-, hindex⟩ := hl.index
  · have hread : disk.read indexPlace = start.disk.read indexPlace := by
      change (disk.link (start.place .index)).map disk.data =
        (start.disk.link (start.place .index)).map start.disk.data
      rw [hlink]
      apply Option.map_congr
      intro inode hinode
      exact hl.data inode (start.disk.bounded _ _ hinode)
    unfold MoveStart.IndexReplaceable indexFileIsReplaceable
    rw [← hread]
    exact h
  · exact hindex

variable {world : MoveWorld B}

section

variable (hb : Begins lib start)
include hb

theorem giveUp_held (h : Held lib start world) : Held lib start world.giveUp := by
  obtain ⟨disk, position⟩ := world
  obtain ⟨at_, hl, hs⟩ := h
  cases position with
  | saving recovery writing => exact ⟨at_, hs.2.2.abandon hb hl, trivial⟩
  | indexing bytes writing => exact ⟨at_, hs.2.2.abandon hb hl, .inr hs.1⟩
  | navigating state => exact ⟨at_, hl, .inr hs⟩
  | finished => exact ⟨at_, hl, hs⟩
  | _ => exact ⟨at_, hl, trivial⟩

theorem write_held (h : Held lib start world)
    (length : Nat) : Held lib start (world.write lib length) := by
  obtain ⟨disk, position⟩ := world
  obtain ⟨at_, hl, hs⟩ := h
  cases position with
  | noting move inode =>
    obtain ⟨rfl, rfl, hlink⟩ := hs
    have hlink : disk.link (start.place .journal) = some inode := hlink
    obtain ⟨i, hi, hle, -⟩ := hl.journal_of rfl
    obtain rfl : i = inode := Option.mem_unique hi hlink
    refine ⟨.noted, hl.store hle (fun _ read hread => lib.parse_cut _ _ _ hread) ?_, rfl, rfl,
      hlink⟩
    intro hstate
    exact absurd (hl.state_lt rfl hstate) (by omega)
  | saving recovery writing =>
    obtain ⟨hr, hi, hw⟩ := hs
    obtain ⟨hl', hw'⟩ := hw.write hb hl length
    exact ⟨at_, hl', hr, hi, hw'⟩
  | indexing bytes writing =>
    obtain ⟨hmoved, hindex, hw⟩ := hs
    obtain ⟨hl', hw'⟩ := hw.write hb hl length
    exact ⟨at_, hl', hmoved, hindex, hw'⟩
  | _ => exact ⟨at_, hl, hs⟩

section

variable (hl : Looks lib start disk at_) {tag : String}
include hl

theorem recovering_held {after : MoveWorld B}
    (h : advance lib layout tag { disk, position := .recovering } = .ok after) :
    Held lib start after := by
  obtain ⟨found, hfound, h⟩ := bind_eq_ok h
  have hrec := recoverMove_eq_ok hb hl hfound
  cases hrec with
  | before =>
    cases h
    exact ⟨.before, hl, .inl rfl⟩
  | moved =>
    cases h
    exact ⟨.moved, hl, .inr rfl⟩
  | noted =>
    cases h
    exact ⟨.noted, hl, rfl⟩
  | staged hr hstag =>
    cases h
    exact ⟨.staged, hl, rfl, hr, hstag⟩
  | linked hr hstag =>
    cases h
    exact ⟨.linked, hl, hr, .inl ⟨.inl rfl, hstag⟩⟩
  | recorded hr hstag =>
    cases h
    exact ⟨.recorded, hl, hr, .inl ⟨.inr rfl, hstag⟩⟩
  | unstaged hr hstag =>
    cases h
    exact ⟨.unstaged, hl, hr, .inr ⟨rfl, hstag⟩⟩

theorem saving_held {writing : Writing} {after : MoveWorld B}
    (hs : Stands lib start disk at_ (.saving recovery writing))
    (h : advance lib layout tag { disk, position := .saving recovery writing } =
      .ok after) : Held lib start after := by
  obtain ⟨hr, hinst, hw⟩ := hs
  obtain ⟨⟨written, next⟩, hwrit, h⟩ := bind_eq_ok h
  obtain ⟨writing', rfl, hl', hw'⟩ | ⟨rfl, place, inode, ht, hlink, hle, htext, hren⟩ :=
    hw.advance hb hl hwrit
  · cases h
    exact ⟨at_, hl', hr, hinst, hw'⟩
  · cases h
    obtain ⟨rfl | rfl, hstag⟩ | ⟨rfl, hstag⟩ := hinst
    · have hl' := hl.save hb ht (.inl ⟨rfl, rfl⟩) hr.recordedState hlink hle htext hren
      exact ⟨.recorded, hl', hr, .inl ⟨rfl, hstag⟩⟩
    · have hl' := hl.save hb ht (.inr (.inl ⟨rfl, rfl⟩)) hr.recordedState hlink hle htext hren
      exact ⟨.recorded, hl', hr, .inl ⟨rfl, hstag⟩⟩
    · have hl' := hl.save hb ht (.inr (.inr ⟨rfl, rfl⟩)) hr.recordedState hlink hle htext hren
      exact ⟨.unstaged, hl', hr, .inr ⟨rfl, hstag⟩⟩

theorem recorded_held {after : MoveWorld B} (hs : Stands lib start disk at_ (.recorded recovery))
    (h : advance lib layout tag { disk, position := .recorded recovery } = .ok after) :
    Held lib start after := by
  obtain ⟨hr, ⟨rfl, hstag⟩ | ⟨rfl, hstag⟩⟩ := hs
  · obtain ⟨_, -, h⟩ := bind_eq_ok h
    rw [if_pos hstag] at h
    obtain ⟨_, -, h⟩ := bind_eq_ok h
    obtain ⟨removed, hrem, rfl⟩ := removeFile_eq_ok h
    rw [hr.journal] at hrem
    exact ⟨.unstaged, hl.dropStage hb hrem, rfl⟩
  · obtain ⟨_, -, h⟩ := bind_eq_ok h
    rw [if_neg (by rw [hstag]; decide)] at h
    cases h
    exact ⟨.unstaged, hl, rfl⟩

theorem indexing_held {bytes : B} {writing : Writing} {after : MoveWorld B}
    (hs : Stands lib start disk at_ (.indexing bytes writing))
    (h : advance lib layout tag { disk, position := .indexing bytes writing } =
      .ok after) : Held lib start after := by
  obtain ⟨rfl, hindex, hw⟩ := hs
  obtain ⟨⟨written, next⟩, hwrit, h⟩ := bind_eq_ok h
  obtain ⟨writing', rfl, hl', hw'⟩ | ⟨rfl, place, inode, ht, -, -, -, hren⟩ :=
    hw.advance hb hl hwrit
  · cases h
    exact ⟨.moved, hl', rfl, hindex, hw'⟩
  · cases h
    exact ⟨.moved, hl.navigate hb ht hindex hren, .inr rfl⟩

end

/-- Every operation of a move or a recovery leads from a stage to a stage. -/
theorem advance_held {after : MoveWorld B} {tag : String}
    (hw : Held lib start world) (h : world.advance lib layout tag = .ok after) :
    Held lib start after := by
  obtain ⟨disk, position⟩ := world
  obtain ⟨at_, hl, hs⟩ := hw
  cases position with
  | down =>
    cases h
    exact ⟨at_, hl, hs⟩
  | finished =>
    cases h
    exact ⟨at_, hl, hs⟩
  | recovering => exact recovering_held hb hl h
  | saving recovery writing => exact saving_held hb hl hs h
  | recorded recovery => exact recorded_held hb hl hs h
  | indexing bytes writing => exact indexing_held hb hl hs h
  | planned move =>
    obtain ⟨rfl, rfl⟩ := hs
    simp only [advance] at h
    split at h
    · rename_i created hcreate
      cases h
      have htext : start.JournalText lib (lib.cut (lib.renderJournal start.move.journal) 0) :=
        fun read hread => lib.parse_cut _ _ _ hread
      obtain ⟨hl', hlink⟩ := hl.note hb htext hcreate
      exact ⟨.noted, hl', rfl, rfl, hlink⟩
    · cases h
  | noting move inode =>
    obtain ⟨rfl, rfl, hlink⟩ := hs
    cases h
    have hlink : disk.link (start.place .journal) = some inode := hlink
    obtain ⟨i, hi, hle, -⟩ := hl.journal_of rfl
    obtain rfl : i = inode := Option.mem_unique hi hlink
    refine ⟨.noted, hl.store hle (fun _ read hread => lib.parse_renderJournal _ _ hread) ?_,
      rfl, rfl⟩
    intro hstate
    exact absurd (hl.state_lt rfl hstate) (by omega)
  | noted move =>
    obtain ⟨rfl, rfl⟩ := hs
    obtain ⟨_, -, h⟩ := bind_eq_ok h
    obtain ⟨_, -, h⟩ := bind_eq_ok h
    split at h
    · rename_i staged hren
      cases h
      exact ⟨.staged, hl.takeAside hb hren, trivial⟩
    · cases h
  | cancelling =>
    obtain rfl := hs
    obtain ⟨removed, hrem, rfl⟩ := removeFile_eq_ok h
    exact ⟨.before, hl.dropJournal hb (.inl ⟨rfl, rfl⟩) hrem, .inl rfl⟩
  | linking recovery =>
    obtain ⟨rfl, hr, hstag⟩ := hs
    simp only [advance] at h
    split at h
    · rename_i linked hlink
      cases h
      rw [hr.journal, hr.target] at hlink
      exact ⟨.linked, hl.install hb hlink, hr, .inl ⟨.inl rfl, hstag⟩⟩
    · cases h
  | installed recovery =>
    obtain ⟨hr, hinst⟩ := hs
    obtain ⟨_, -, h⟩ := bind_eq_ok h
    cases h
    exact ⟨at_, hl, hr, hinst, tag, .inl rfl⟩
  | closing recovery =>
    obtain rfl := hs
    obtain ⟨removed, hrem, rfl⟩ := removeFile_eq_ok h
    exact ⟨.moved, hl.dropJournal hb (.inr ⟨rfl, rfl⟩) hrem, rfl⟩
  | navigating state =>
    obtain rfl := hs
    simp only [advance] at h
    split at h
    · rename_i hindex
      cases h
      exact ⟨.moved, hl, rfl, hl.indexReplaceable hindex, tag, .inr rfl⟩
    · cases h
      exact ⟨.moved, hl, .inr rfl⟩

theorem step_held (world : MoveWorld B) (event : MoveEvent)
    (after : MoveWorld B) (hw : Held lib start world) (h : MoveStep lib layout world event after) :
    Held lib start after := by
  obtain rfl := h
  cases event with
  | advance tag =>
    unfold next
    dsimp only
    split
    · rename_i next hnext
      exact advance_held hb hw hnext
    · exact giveUp_held hb hw
  | write length => exact write_held hb hw length
  | fail => exact giveUp_held hb hw
  | crash =>
    obtain ⟨at_, hl, -⟩ := hw
    exact ⟨at_, hl, trivial⟩
  | recover =>
    unfold next
    dsimp only
    obtain ⟨at_, hl, hs⟩ := hw
    split
    · exact ⟨at_, hl, trivial⟩
    · exact ⟨at_, hl, trivial⟩
    · exact ⟨at_, hl, hs⟩

end

/-! ## The whole run -/

theorem Begins.looks (hb : Begins lib start) : Looks lib start start.disk .before where
  page := by
    intro role hrole
    fin_cases hrole
    · exact hb.linked
    · exact hb.noStage
    · exact hb.free
  journal := hb.noJournal
  state := rfl
  index := .inl rfl
  others := fun _ _ => rfl
  data := fun _ _ => rfl
  fresh := le_rfl

namespace Looks

theorem read_eq (hl : Looks lib start disk at_) {place place' : Place}
    (hlink : disk.link place = start.disk.link place') :
    disk.read place = start.disk.read place' := by
  unfold Files.read
  rw [hlink]
  apply Option.map_congr
  intro inode hinode
  exact hl.data inode (start.disk.bounded _ _ hinode)

section

variable (hl : Looks lib start disk at_) (role : Role)
  (hrole : role ∈ [Role.source, .stage, .target])
include hl hrole

theorem link_page (hholds : at_.holds role) :
    disk.link (start.place role) = some start.inode := by
  rw [hl.page role hrole, if_pos hholds]

theorem link_noPage (hholds : at_.holds role = false) : disk.link (start.place role) = none := by
  rw [hl.page role hrole, if_neg (by rw [hholds]; decide)]

end

end Looks

/-- The page is where it was, and so is the state. -/
def AtSource (start : MoveStart B) (disk : Disk B) : Prop :=
  disk.read (start.place .source) = start.disk.read (start.place .source) ∧
    disk.read (start.place .target) = none ∧ disk.read stateFile = start.disk.read stateFile

def AtDestination (lib : MoveLibrary B) (start : MoveStart B) (disk : Disk B) : Prop :=
  disk.read (start.place .source) = none ∧
    disk.read (start.place .target) = start.disk.read (start.place .source) ∧
    ∃ state, disk.read stateFile = some (lib.renderState state) ∧
      start.Records start.move.journal.destination state

structure Survives (lib : MoveLibrary B) (start : MoveStart B) (world : MoveWorld B) : Prop where
  reachable : ∃ role ∈ [Role.source, .stage, .target],
    world.disk.read (start.place role) = start.disk.read (start.place .source)
  untouched : ∀ place, ¬ start.Touched place → world.disk.read place = start.disk.read place
  index : world.disk.read indexPlace = start.disk.read indexPlace ∨ start.IndexReplaceable lib
  complete : world.position = .finished →
    world.disk.read moveJournal = none ∧ world.disk.read (start.place .stage) = none ∧
      (AtSource start world.disk ∨ AtDestination lib start world.disk)

theorem Progress.exists_holds (at_ : Progress) :
    ∃ role ∈ [Role.source, .stage, .target], at_.holds role := by
  cases at_ <;> decide

theorem Held.survives (hb : Begins lib start) (h : Held lib start world) :
    Survives lib start world := by
  obtain ⟨at_, hl, hs⟩ := h
  refine ⟨?_, fun place hplace => hl.read_eq (hl.others place hplace), ?_, fun hfin => ?_⟩
  · obtain ⟨role, hrole, hholds⟩ := at_.exists_holds
    have hlink := (hl.link_page role hrole hholds).trans hb.linked.symm
    exact ⟨role, hrole, hl.read_eq hlink⟩
  · exact hl.index.imp (hl.read_eq) fun hindex => hindex.2
  · rw [hfin] at hs
    obtain rfl | rfl := hs
    · have hsourc := (hl.link_page .source (by decide) rfl).trans hb.linked.symm
      refine ⟨Files.read_eq_none.mpr hl.journal,
        Files.read_eq_none.mpr (hl.link_noPage .stage (by decide) rfl),
        .inl ⟨hl.read_eq hsourc, ?_, ?_⟩⟩
      · exact Files.read_eq_none.mpr (hl.link_noPage .target (by decide) rfl)
      · exact hl.read_eq hl.state
    · have htarg : world.disk.link (start.place .target) =
          start.disk.link (start.place .source) :=
        (hl.link_page .target (by decide) rfl).trans hb.linked.symm
      obtain ⟨inode, state, hinode, -, hdata, hrecs⟩ := hl.state
      refine ⟨Files.read_eq_none.mpr hl.journal,
        Files.read_eq_none.mpr (hl.link_noPage .stage (by decide) rfl),
        .inr ⟨?_, hl.read_eq htarg, ?_⟩⟩
      · exact Files.read_eq_none.mpr (hl.link_noPage .source (by decide) rfl)
      · exact ⟨state, Files.read_eq_some.mpr ⟨inode, hinode, hdata⟩, hrecs⟩

theorem recoverMove_eq_nothing (h : recoverMove lib layout disk = .ok .nothing) :
    disk.link moveJournal = none := by
  unfold recoverMove at h
  split at h
  · rename_i hnone
    exact Files.read_eq_none.mp hnone
  · split at h
    · cases h
    obtain ⟨_, -, h⟩ := bind_eq_ok h
    obtain ⟨_, -, h⟩ := bind_eq_ok h
    obtain ⟨_, -, h⟩ := bind_eq_ok h
    obtain ⟨source, -, h⟩ := bind_eq_ok h
    obtain ⟨target, -, h⟩ := bind_eq_ok h
    obtain ⟨state, -, h⟩ := bind_eq_ok h
    split at h
    · cases h
    obtain ⟨hfound, -⟩ | ⟨-, ⟨hfound, -⟩ | ⟨hfound, -⟩⟩ := classify_eq_ok h <;> cases hfound

/-- A move that passes its checks after a recovery that found nothing to do, with a stage name
that is new: at any point of it, and of any recoveries of it that are themselves cut short, the
page is reachable and nothing else is touched; when one is finished, the page is in one place,
the state records that place, and neither journal nor stage is left. -/
theorem move_crash_safe {request : MoveRequest} {move : PlannedMove} {events : List MoveEvent}
    {world : MoveWorld B} (hrecovered : recoverMove lib layout disk = .ok .nothing)
    (hstage : disk.link (controlFile (stagePrefix ++ request.stageId)) = none)
    (hplan : planMove lib layout disk request = .ok (.move move))
    (hrun : Run (MoveStep lib layout) { disk, position := .planned move } events world) :
    ∃ start : MoveStart B, start.disk = disk ∧ start.move = move ∧ Begins lib start ∧
      Survives lib start world := by
  obtain ⟨state, entry, inode, hb⟩ :=
    planMove_eq_move (recoverMove_eq_nothing hrecovered) hstage hplan
  have hstart : Held lib { disk, move, state, entry, inode }
      { disk, position := Position.planned move } := ⟨.before, hb.looks, rfl, rfl⟩
  exact ⟨_, rfl, rfl, hb, (hrun.invariant (step_held hb) hstart).survives hb⟩

/-- Texts as a test sees them: a file is what it holds. -/
inductive SampleText where
  | page (id : String)
  | journal (journal : MoveJournal)
  | state (state : KnowledgeState)
  | index
  | part
  deriving DecidableEq

def sampleLibrary : MoveLibrary SampleText where
  digest
    | .page id => id
    | _ => ""
  entryDigest := fun entry => entry.file ++ entry.lastWritten
  head
    | .page id => "---\norigin_id: " ++ id ++ "\n---\n"
    | _ => ""
  cut := fun _ _ => .part
  collisionKey := fun name => String.ofList (name.toList.map Char.toUpper)
  isUuid := fun text => text != ""
  parseState
    | .state state => some (.current state)
    | _ => none
  renderState := .state
  parse_renderState := by
    intro state text h
    exact (Option.some.inj h).symm
  renderJournal := .journal
  parseJournal
    | .journal journal => some journal
    | _ => none
  indexReplaceable := fun text => text == .index
  renderIndex := fun _ _ => .index
  parse_renderJournal := by
    intro journal read h
    exact (Option.some.inj h).symm
  parse_cut := by
    intro journal length read h
    cases h

def sampleLayout : Layout where
  folders := ["Work"]
  device := fun _ => 7

def sampleState : KnowledgeState where
  schemaVersion := knowledgeStateSchemaV2
  pages := AList.singleton "p1"
    { file := "note.md", contentSha256 := none, version := 1, lastWritten := "t0", title := none
      description := none, space := none }

def sampleDisk : Disk SampleText where
  link := fun place =>
    if place = { directory := .folder "", name := "note.md" } then some 0
    else if place = stateFile then some 1 else none
  data := fun inode => if inode = 0 then .page "p1" else .state sampleState
  fresh := 2
  names := [{ directory := .folder "", name := "note.md" }, stateFile]
  bounded := by
    intro place inode h
    split at h
    · cases h
      decide
    · split at h <;> cases h
      decide
  listed := by
    intro place inode h
    split at h
    · rename_i hplace
      rw [hplace]
      exact List.mem_cons_self
    · split at h
      · rename_i hplace
        rw [hplace]
        exact List.mem_cons_of_mem _ List.mem_cons_self
      · cases h

def sampleRequest : MoveRequest where
  pageId := "p1"
  expectedStoragePath := "note.md"
  folderPath := "Work"
  operationId := "op"
  stageId := "u"

def samplePlanned : PlannedMove where
  journal :=
    { version := 1, operationId := "op", pageId := "p1", source := "note.md"
      destination := "Work/note.md", stage := ".page-move-stage-u", contentSha256 := "p1"
      entrySha256 := "note.mdt0", device := 7, inode := 0 }
  source := { folder := "", name := "note.md" }
  target := { folder := "Work", name := "note.md" }


/-- The move stops when the page is aside, its recovery while it saves the state, and the next
recovery when the stage is gone. -/
def sampleEvents : List MoveEvent :=
  [.advance "", .write 3, .advance "", .advance "", .crash,
    .recover, .advance "", .advance "", .advance "a", .advance "", .write 1, .crash,
    .recover, .advance "", .advance "b", .advance "", .advance "", .advance "", .advance "", .crash,
    .recover, .advance "", .advance "c", .advance "", .advance "", .advance "", .advance "",
    .advance "", .advance "d", .advance "", .advance "", .advance ""]

def sampleEnd : MoveWorld SampleText :=
  sampleEvents.foldl (fun world event => world.next sampleLibrary sampleLayout event)
    { disk := sampleDisk, position := .planned samplePlanned }

theorem run_next (lib : MoveLibrary B) (layout : Layout) (world : MoveWorld B)
    (events : List MoveEvent) : Run (MoveStep lib layout) world events
      (events.foldl (fun world event => world.next lib layout event) world) := by
  induction events generalizing world with
  | nil => exact .refl world
  | cons event events ih => exact .cons rfl (ih _)

theorem move_crash_safe_interrupted :
    (∃ start : MoveStart SampleText, start.disk = sampleDisk ∧ start.move = samplePlanned ∧
      Begins sampleLibrary start ∧ Survives sampleLibrary start sampleEnd) ∧
    sampleEnd.position = .finished ∧
    sampleEnd.disk.read samplePlanned.target.place = some (.page "p1") := by
  have hrecovered : recoverMove sampleLibrary sampleLayout sampleDisk = .ok .nothing := by
    decide +kernel
  have hstage :
      sampleDisk.link (controlFile (stagePrefix ++ sampleRequest.stageId)) = none := by
    decide +kernel
  have hplan :
      planMove sampleLibrary sampleLayout sampleDisk sampleRequest = .ok (.move samplePlanned) := by
    decide +kernel
  refine ⟨move_crash_safe hrecovered hstage hplan (run_next _ _ _ sampleEvents), ?_, ?_⟩
  · decide +kernel
  · decide +kernel

end Wenlan.Projection
