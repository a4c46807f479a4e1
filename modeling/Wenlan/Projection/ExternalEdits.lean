import Wenlan.Projection.ProtectedWrite

/-!
# External edits survive the protected write

The write never takes the last link of a file away from the path and the directory of displaced
files, and never writes to a file that the editor has had open.
-/

namespace Wenlan.Projection

open Pages WriteWorld
open Support.FileSystem
open Support.Transition
open Function (update update_self update_of_ne)

variable {B : Type} {lib : PageLibrary B} {layout : Layout} {name : String}
  {disk disk' : Disk B} {handles handles' dropped : List Nat} {saves : List (Save B)}

/-- The file is at the path or among the displaced files. -/
def Present (name : String) (disk : Disk B) (inode : Nat) : Prop :=
  disk.link (pagePlace name) = some inode ∨
    ∃ file, disk.link { directory := .recovery, name := file } = some inode

/-- The editor's files that it has not given up are present, with the texts it saved. -/
structure Keeps (name : String) (disk : Disk B) (handles dropped : List Nat)
    (saves : List (Save B)) : Prop where
  lt : ∀ inode ∈ handles, inode < disk.fresh
  dropped_lt : ∀ inode ∈ dropped, inode < disk.fresh
  present : ∀ inode ∈ handles, inode ∉ dropped → Present name disk inode
  saved : ∀ save ∈ saves,
    save.inode ∈ handles ∧ save.inode ∉ dropped ∧ disk.data save.inode = save.text

/-- The temporary of a call is nobody else's file. -/
structure Private (name : String) (disk : Disk B) (handles : List Nat) (call : WriteCall B)
    (inode : Nat) : Prop where
  link : disk.link (call.temporaryPlace name) = some inode
  alone : ∀ place, disk.link place = some inode → place = call.temporaryPlace name
  unopened : inode ∉ handles

/-- The path is a page's, and no file is in the way of the one to be displaced. -/
def Begun (name : String) (disk : Disk B) (call : WriteCall B) : Prop :=
  endsWith (pageFile name).name ".md" = true ∧ disk.link call.previousPlace = none

/-- The temporary holds the rendered text. -/
def Filled (name : String) (disk : Disk B) (handles : List Nat) (call : WriteCall B) : Prop :=
  endsWith (pageFile name).name ".md" = true ∧
    ∃ inode, Private name disk handles call inode ∧ disk.data inode = call.bytes

def Truthful (call : WriteCall B) (installed : Option B) (result : Except WenlanError Unit) :
    Prop :=
  result = .ok () → installed = some call.bytes

def Stationed (name : String) (disk : Disk B) (handles : List Nat) (installed : Option B) :
    WritePosition B → Prop
  | .idle => True
  | .opening call => disk.link call.previousPlace = none
  | .checking call | .creating call => Begun name disk call
  | .filling call inode => Begun name disk call ∧ Private name disk handles call inode
  | .preparing call | .displacing call =>
    Begun name disk call ∧ Filled name disk handles call
  | .rechecking call | .restoring call _ | .linking call _ => Filled name disk handles call
  | .cleaning call result =>
    endsWith (pageFile name).name ".md" = true ∧ Truthful call installed result
  | .answered call result => Truthful call installed result

structure Guarded (name : String) (world : WriteWorld B) : Prop where
  keeps : Keeps name world.disk world.handles world.dropped world.saves
  stationed : Stationed name world.disk world.handles world.installed world.position

theorem previousPlace_ne (name : String) (call : WriteCall B) :
    call.previousPlace ≠ pagePlace name := by
  intro heq
  cases congrArg Place.directory heq

theorem recovery_ne (file : String) :
    ({ directory := .recovery, name := file } : Place) ≠ pagePlace name := by
  intro heq
  cases congrArg Place.directory heq

theorem recovery_ne_temporary (call : WriteCall B) (file : String) :
    ({ directory := .recovery, name := file } : Place) ≠ call.temporaryPlace name := by
  intro heq
  cases congrArg Place.directory heq

theorem temporaryPlace_ne {call : WriteCall B} (h : endsWith (pageFile name).name ".md") :
    call.temporaryPlace name ≠ pagePlace name := by
  intro heq
  have hlist := congrArg (fun place => place.name.toList) heq
  obtain ⟨rest, hrest⟩ := List.isSuffixOf_iff_suffix.mp h
  have hends := congrArg List.reverse (hrest.trans hlist.symm)
  simp [WriteCall.temporaryPlace, WriteCall.temporaryName, String.toList_append] at hends

namespace Keeps

variable {call : WriteCall B} {inode : Nat} {bytes : B}

section

variable (hk : Keeps name disk handles dropped saves)
include hk

theorem of_present (hpres : ∀ inode, Present name disk inode → Present name disk' inode)
    (hdata : ∀ inode ∈ handles, disk'.data inode = disk.data inode)
    (hfresh : disk.fresh ≤ disk'.fresh) : Keeps name disk' handles dropped saves where
  lt := by
    intro inode hinode
    have hlt := hk.lt inode hinode
    omega
  dropped_lt := by
    intro inode hinode
    have hlt := hk.dropped_lt inode hinode
    omega
  present := fun inode hinode hdrop => hpres inode (hk.present inode hinode hdrop)
  saved := by
    intro save hsave
    obtain ⟨hhandl, hdrop, htext⟩ := hk.saved save hsave
    exact ⟨hhandl, hdrop, (hdata _ hhandl).trans htext⟩

theorem of_elsewhere {place : Place} {value : Option Nat} (hpage : place ≠ pagePlace name)
    (hrec : ∀ file, place ≠ { directory := .recovery, name := file })
    (hlink : disk'.link = update disk.link place value)
    (hdata : ∀ inode ∈ handles, disk'.data inode = disk.data inode)
    (hfresh : disk.fresh ≤ disk'.fresh) : Keeps name disk' handles dropped saves := by
  apply hk.of_present _ hdata hfresh
  rintro inode (h | ⟨file, h⟩)
  · left
    rw [hlink, update_of_ne hpage.symm]
    exact h
  · right
    refine ⟨file, ?_⟩
    rw [hlink, update_of_ne (hrec file).symm]
    exact h

theorem link_page {place : Place} (h : disk.hardLink place (pagePlace name) = some disk') :
    Keeps name disk' handles dropped saves := by
  obtain ⟨inode, -, hfree, hlink, hdata, hfresh⟩ := Files.hardLink_eq_some h
  apply hk.of_present _ (fun _ _ => by rw [hdata]) hfresh.ge
  rintro i (hi | ⟨file, hi⟩)
  · rw [hfree] at hi
    cases hi
  · right
    refine ⟨file, ?_⟩
    rw [hlink, update_of_ne (recovery_ne file)]
    exact hi

theorem displace (hfree : disk.link call.previousPlace = none)
    (h : disk.rename (pagePlace name) call.previousPlace = some disk') :
    Keeps name disk' handles dropped saves := by
  obtain ⟨inode, hinode, hlink, hdata, hfresh⟩ := Files.rename_eq_some h
  apply hk.of_present _ (fun _ _ => by rw [hdata]) hfresh.ge
  rintro i (hi | ⟨file, hi⟩)
  · right
    obtain rfl : inode = i := Option.mem_unique hinode hi
    refine ⟨call.previousPlace.name, ?_⟩
    rw [hlink]
    exact update_self ..
  · right
    refine ⟨file, ?_⟩
    have hne : ({ directory := .recovery, name := file } : Place) ≠ call.previousPlace := by
      intro heq
      rw [heq, hfree] at hi
      cases hi
    rw [hlink, update_of_ne hne, update_of_ne (recovery_ne file)]
    exact hi

theorem store (hinode : inode ∉ handles) :
    Keeps name (disk.store inode bytes) handles dropped saves := by
  have hdata : ∀ i ∈ handles, (disk.store inode bytes).data i = disk.data i := by
    intro i hi
    apply update_of_ne
    rintro rfl
    exact hinode hi
  exact hk.of_present (fun _ h => h) hdata le_rfl

end

end Keeps

theorem Private.congr {call : WriteCall B} {inode : Nat} (hp : Private name disk handles call inode)
    (hlink : disk'.link = disk.link) : Private name disk' handles call inode where
  link := by rw [hlink]; exact hp.link
  alone := by rw [hlink]; exact hp.alone
  unopened := hp.unopened

theorem Begun.update {call : WriteCall B} {place : Place} {value : Option Nat}
    (hb : Begun name disk call) (hplace : place ≠ call.previousPlace)
    (hlink : disk'.link = update disk.link place value) : Begun name disk' call := by
  refine ⟨hb.1, ?_⟩
  rw [hlink, update_of_ne hplace.symm]
  exact hb.2

/-! ## Steps of the write -/

theorem temporary_ne_recovery (call call' : WriteCall B) :
    call.temporaryPlace name ≠ call'.previousPlace :=
  (recovery_ne_temporary call _).symm

variable {dropped : List Nat} {installed : Option B} {call : WriteCall B}

section

variable (hk : Keeps name disk handles dropped saves)
include hk

theorem creating_guarded (hb : Begun name disk call)
    {bytes : B} (h : disk.createNew (call.temporaryPlace name) bytes = some disk') :
    Keeps name disk' handles dropped saves ∧
      Stationed name disk' handles installed (.filling call disk.fresh) := by
  obtain ⟨hfree, hlink, hdata, hfresh⟩ := Files.createNew_eq_some h
  refine ⟨?_, hb.update (temporary_ne_recovery call call) hlink, ?_⟩
  · apply hk.of_elsewhere (temporaryPlace_ne hb.1)
      (fun file => (recovery_ne_temporary call file).symm) hlink _ (by omega)
    intro inode hinode
    have hlt := hk.lt inode hinode
    rw [hdata, update_of_ne (by omega)]
  · exact
      { link := by rw [hlink, update_self]
        alone := by
          intro place hplace
          by_contra hne
          rw [hlink, update_of_ne hne] at hplace
          exact absurd (disk.bounded _ _ hplace) (lt_irrefl _)
        unopened := by
          intro hopen
          exact absurd (hk.lt _ hopen) (lt_irrefl _) }

theorem displacing_guarded (hb : Begun name disk call) (hf : Filled name disk handles call)
    (h : disk.rename (pagePlace name) call.previousPlace = some disk') :
    Keeps name disk' handles dropped saves ∧
      Stationed name disk' handles installed (.rechecking call) := by
  refine ⟨hk.displace hb.2 h, ?_⟩
  obtain ⟨moved, hmoved, hlink, hdata, -⟩ := Files.rename_eq_some h
  obtain ⟨hmarkd, inode, hp, htext⟩ := hf
  have hpage : pagePlace name ≠ call.temporaryPlace name := (temporaryPlace_ne hmarkd).symm
  have hmov : moved ≠ inode := by
    rintro rfl
    exact hpage (hp.alone _ hmoved)
  refine ⟨hmarkd, inode, ⟨?_, fun place hplace => ?_, hp.unopened⟩, by rw [hdata]; exact htext⟩
  · rw [hlink, update_of_ne (temporary_ne_recovery call call), update_of_ne hpage.symm]
    exact hp.link
  · rw [hlink] at hplace
    by_cases hprev : place = call.previousPlace
    · rw [hprev, update_self] at hplace
      exact absurd (Option.some.inj hplace) hmov
    · rw [update_of_ne hprev] at hplace
      by_cases heq : place = pagePlace name
      · rw [heq, update_self] at hplace
        cases hplace
      · rw [update_of_ne heq] at hplace
        exact hp.alone place hplace

theorem linking_guarded (hf : Filled name disk handles call)
    (h : disk.hardLink (call.temporaryPlace name) (pagePlace name) = some disk') :
    Keeps name disk' handles dropped saves ∧ disk'.read (pagePlace name) = some call.bytes := by
  refine ⟨hk.link_page h, ?_⟩
  obtain ⟨-, inode, hp, htext⟩ := hf
  obtain ⟨i, hi, -, hlink, hdata, -⟩ := Files.hardLink_eq_some h
  obtain rfl : i = inode := Option.mem_unique hi hp.link
  rw [Files.read_eq_some]
  refine ⟨i, ?_, ?_⟩
  · rw [hlink, update_self]
  · rw [hdata]
    exact htext

theorem cleaning_guarded (hmarkd : endsWith (pageFile name).name ".md")
    (h : disk.remove (call.temporaryPlace name) = some disk') :
    Keeps name disk' handles dropped saves := by
  obtain ⟨-, hlink, hdata, hfresh⟩ := Files.remove_eq_some h
  exact hk.of_elsewhere (temporaryPlace_ne hmarkd)
    (fun file => (recovery_ne_temporary call file).symm) hlink (fun _ _ => by rw [hdata])
    hfresh.ge

end

variable {world : WriteWorld B}

theorem advance_guarded [DecidableEq B] {after : WriteWorld B} (hg : Guarded name world)
    (h : world.advance lib layout name = some after) : Guarded name after := by
  obtain ⟨disk, position, handles, dropped, saves, installed⟩ := world
  obtain ⟨hk, hs⟩ := hg
  dsimp only at hk hs
  cases position <;> simp only [advance] at h
  case idle => cases h
  case answered call result => cases h
  case opening call =>
    split at h
    · rename_i file hfile
      cases h
      have hvalid := (pageParent_eq_ok hfile).2
      exact ⟨hk, endsWith_of_validatePagePath hvalid, hs⟩
    · rename_i error _
      cases h
      exact ⟨hk, fun hok => by cases hok⟩
  case checking call =>
    split at h
    · cases h
      exact ⟨hk, hs⟩
    · rename_i current hcurrent
      split at h
      · rename_i heq
        cases h
        exact ⟨hk, fun _ => by rw [← heq]; exact hcurrent⟩
      · split at h
        · cases h
          exact ⟨hk, hs⟩
        · cases h
          exact ⟨hk, fun hok => by cases hok⟩
  case creating call =>
    obtain ⟨created, hcreat, rfl⟩ := Option.map_eq_some_iff.mp h
    obtain ⟨hk', hs'⟩ := creating_guarded hk hs hcreat
    exact ⟨hk', hs'⟩
  case filling call inode =>
    cases h
    obtain ⟨hb, hp⟩ := hs
    have hdata : (disk.store inode call.bytes).data inode = call.bytes := update_self ..
    exact ⟨hk.store hp.unopened, hb, hb.1, inode, hp.congr rfl, hdata⟩
  case preparing call =>
    cases h
    exact ⟨hk, hs⟩
  case displacing call =>
    split at h
    · rename_i moved hrename
      cases h
      obtain ⟨hk', hs'⟩ := displacing_guarded hk hs.1 hs.2 hrename
      exact ⟨hk', hs'⟩
    · cases h
      exact ⟨hk, hs.2⟩
  case rechecking call =>
    split at h
    · split at h
      all_goals
        cases h
        exact ⟨hk, hs⟩
    · cases h
  case restoring call error =>
    obtain ⟨restored, hresto, rfl⟩ := Option.map_eq_some_iff.mp h
    exact ⟨hk.link_page hresto, hs.1, fun hok => by cases hok⟩
  case linking call displaced =>
    obtain ⟨linked, hlink, rfl⟩ := Option.map_eq_some_iff.mp h
    obtain ⟨hk', hread⟩ := linking_guarded hk hs hlink
    exact ⟨hk', hs.1, fun _ => hread⟩
  case cleaning call result =>
    obtain ⟨cleaned, hclean, rfl⟩ := Option.map_eq_some_iff.mp h
    exact ⟨cleaning_guarded hk hs.1 hclean, hs.2⟩

theorem failed_guarded (hg : Guarded name world) :
    Guarded name { world with position := world.position.failed } := by
  obtain ⟨disk, position, handles, dropped, saves, installed⟩ := world
  obtain ⟨hk, hs⟩ := hg
  dsimp only at hk hs
  refine ⟨hk, ?_⟩
  cases position with
  | idle => trivial
  | opening call => exact fun hok => by cases hok
  | checking call => exact fun hok => by cases hok
  | creating call => exact fun hok => by cases hok
  | filling call inode => exact fun hok => by cases hok
  | preparing call => exact ⟨hs.1.1, fun hok => by cases hok⟩
  | displacing call => exact ⟨hs.1.1, fun hok => by cases hok⟩
  | rechecking call => exact hs
  | restoring call error => exact ⟨hs.1, fun hok => by cases hok⟩
  | linking call displaced =>
    cases displaced with
    | true => exact hs
    | false => exact ⟨hs.1, fun hok => by cases hok⟩
  | cleaning call result => exact hs.2
  | answered call result => exact hs

/-! ## Steps of the editor -/

/-- The editor only changes what the path links to, and only writes to files it has opened
there or made. -/
structure Edits (name : String) (disk disk' : Disk B) (handles handles' : List Nat) : Prop where
  link : ∀ place, place ≠ pagePlace name → disk'.link place = disk.link place
  page : ∀ inode, disk'.link (pagePlace name) = some inode →
    disk.link (pagePlace name) = some inode ∨ disk.fresh ≤ inode
  opened : ∀ inode ∈ handles',
    inode ∈ handles ∨ disk.link (pagePlace name) = some inode ∨ disk.fresh ≤ inode
  data : ∀ inode < disk.fresh, inode ∉ handles → disk'.data inode = disk.data inode

namespace Edits

variable {inode : Nat} (he : Edits name disk disk' handles handles')
include he

theorem begun (hb : Begun name disk call) : Begun name disk' call := by
  refine ⟨hb.1, ?_⟩
  rw [he.link _ (previousPlace_ne name call)]
  exact hb.2

theorem isPrivate (hmarkd : endsWith (pageFile name).name ".md")
    (hp : Private name disk handles call inode) : Private name disk' handles' call inode := by
  have hne : call.temporaryPlace name ≠ pagePlace name := temporaryPlace_ne hmarkd
  have hlt : inode < disk.fresh := disk.bounded _ _ hp.link
  have hpage : disk.link (pagePlace name) ≠ some inode := fun hlink => hne (hp.alone _ hlink).symm
  refine ⟨?_, fun place hplace => ?_, fun hopen => ?_⟩
  · rw [he.link _ hne]
    exact hp.link
  · by_cases heq : place = pagePlace name
    · rw [heq] at hplace
      obtain hlink | hle := he.page _ hplace
      · exact absurd hlink hpage
      · omega
    · rw [he.link _ heq] at hplace
      exact hp.alone place hplace
  · obtain hhandl | hlink | hle := he.opened _ hopen
    · exact hp.unopened hhandl
    · exact hpage hlink
    · omega

theorem filled (hf : Filled name disk handles call) : Filled name disk' handles' call := by
  obtain ⟨hmarkd, inode, hp, htext⟩ := hf
  refine ⟨hmarkd, inode, he.isPrivate hmarkd hp, ?_⟩
  rw [he.data inode (disk.bounded _ _ hp.link) hp.unopened]
  exact htext

theorem stationed {position : WritePosition B}
    (hs : Stationed name disk handles installed position) :
    Stationed name disk' handles' installed position := by
  cases position with
  | idle => trivial
  | opening call =>
    have hprev := he.link _ (previousPlace_ne name call)
    exact hprev.trans hs
  | checking call => exact he.begun hs
  | creating call => exact he.begun hs
  | filling call inode => exact ⟨he.begun hs.1, he.isPrivate hs.1.1 hs.2⟩
  | preparing call => exact ⟨he.begun hs.1, he.filled hs.2⟩
  | displacing call => exact ⟨he.begun hs.1, he.filled hs.2⟩
  | rechecking call => exact he.filled hs
  | restoring call error => exact he.filled hs
  | linking call displaced => exact he.filled hs
  | cleaning call result => exact hs
  | answered call result => exact hs

end Edits

theorem present_of_link {inode : Nat} (h : Present name disk inode)
    (hlink : ∀ place, place ≠ pagePlace name → disk'.link place = disk.link place)
    (hpage : disk.link (pagePlace name) ≠ some inode) : Present name disk' inode := by
  obtain hlinke | ⟨file, hlinke⟩ := h
  · exact absurd hlinke hpage
  · right
    refine ⟨file, ?_⟩
    rw [hlink _ (recovery_ne file)]
    exact hlinke

theorem create_guarded (hg : Guarded name world) (text : B) :
    Guarded name (world.edit name (.create text)) := by
  unfold edit
  dsimp only
  split
  · rename_i created hcreat
    obtain ⟨hk, hs⟩ := hg
    obtain ⟨hfree, hlink, hdata, hfresh⟩ := Files.createNew_eq_some hcreat
    have hother : ∀ place, place ≠ pagePlace name →
        created.link place = world.disk.link place := by
      intro place hplace
      rw [hlink, update_of_ne hplace]
    have hsame : ∀ inode < world.disk.fresh, created.data inode = world.disk.data inode := by
      intro inode hinode
      rw [hdata, update_of_ne (by omega)]
    have hedits : Edits name world.disk created world.handles
        (world.disk.fresh :: world.handles) :=
      { link := hother
        page := by
          intro inode hinode
          rw [hlink, update_self] at hinode
          exact .inr (Option.some.inj hinode).le
        opened := by
          intro inode hinode
          obtain rfl | hinode := List.mem_cons.mp hinode
          · exact .inr (.inr le_rfl)
          · exact .inl hinode
        data := fun inode hinode _ => hsame inode hinode }
    have hkeeps : Keeps name created (world.disk.fresh :: world.handles) world.dropped
        world.saves :=
      { lt := by
          intro inode hinode
          obtain rfl | hinode := List.mem_cons.mp hinode
          · omega
          · have hlt := hk.lt inode hinode
            omega
        dropped_lt := by
          intro inode hinode
          have hlt := hk.dropped_lt inode hinode
          omega
        present := by
          intro inode hinode hdrop
          obtain rfl | hinode := List.mem_cons.mp hinode
          · left
            rw [hlink, update_self]
          · apply present_of_link (hk.present inode hinode hdrop) hother
            rw [hfree]
            simp
        saved := by
          intro save hsave
          obtain ⟨hhandl, hdrop, htext⟩ := hk.saved save hsave
          refine ⟨List.mem_cons_of_mem _ hhandl, hdrop, ?_⟩
          rw [hsame _ (hk.lt _ hhandl)]
          exact htext }
    exact ⟨hkeeps, hedits.stationed hs⟩
  · exact hg

theorem open_guarded (hg : Guarded name world) : Guarded name (world.edit name .open) := by
  unfold edit
  dsimp only
  split
  · rename_i inode hlink
    obtain ⟨hk, hs⟩ := hg
    have hedits : Edits name world.disk world.disk world.handles (inode :: world.handles) :=
      { link := fun _ _ => rfl
        page := fun _ h => .inl h
        opened := by
          intro i hi
          obtain rfl | hi := List.mem_cons.mp hi
          · exact .inr (.inl hlink)
          · exact .inl hi
        data := fun _ _ _ => rfl }
    refine ⟨?_, hedits.stationed hs⟩
    exact
      { lt := by
          intro i hi
          obtain rfl | hi := List.mem_cons.mp hi
          · exact world.disk.bounded _ _ hlink
          · exact hk.lt i hi
        dropped_lt := hk.dropped_lt
        present := by
          intro i hi hdrop
          obtain rfl | hi := List.mem_cons.mp hi
          · exact .inl hlink
          · exact hk.present i hi hdrop
        saved := by
          intro save hsave
          obtain ⟨hhandl, hdrop, htext⟩ := hk.saved save hsave
          exact ⟨List.mem_cons_of_mem _ hhandl, hdrop, htext⟩ }
  · exact hg

theorem store_guarded (hg : Guarded name world) (inode : Nat) (text : B)
    (complete : Bool) : Guarded name (world.edit name (.store inode text complete)) := by
  unfold edit
  dsimp only
  split
  · rename_i hinode
    obtain ⟨hk, hs⟩ := hg
    have hsame : ∀ i, i ≠ inode →
        (world.disk.store inode text).data i = world.disk.data i := fun i hi => update_of_ne hi _ _
    have hedits : Edits name world.disk (world.disk.store inode text) world.handles
        world.handles :=
      { link := fun _ _ => rfl
        page := fun _ h => .inl h
        opened := fun _ h => .inl h
        data := by
          intro i _ hi
          apply hsame
          rintro rfl
          exact hi hinode }
    have hkept : ∀ save ∈ world.saves.filter (fun save => save.inode != inode),
        save.inode ∈ world.handles ∧ save.inode ∉ world.dropped ∧
          (world.disk.store inode text).data save.inode = save.text := by
      intro save hsave
      obtain ⟨hmem, hne⟩ := List.mem_filter.mp hsave
      obtain ⟨hhandl, hdrop, htext⟩ := hk.saved save hmem
      exact ⟨hhandl, hdrop, (hsame _ (by simpa using hne)).trans htext⟩
    refine ⟨?_, hedits.stationed hs⟩
    exact
      { lt := hk.lt
        dropped_lt := hk.dropped_lt
        present := hk.present
        saved := by
          intro save hsave
          split at hsave
          · rename_i hcomp
            obtain rfl | hsave := List.mem_cons.mp hsave
            · exact ⟨hinode, hcomp.2, update_self ..⟩
            · exact hkept save hsave
          · exact hkept save hsave }
  · exact hg

theorem Keeps.drop {links : Option Nat}
    (hk : Keeps name world.disk world.handles world.dropped world.saves)
    (hlinks : links = world.disk.link (pagePlace name)) :
    (world.drop links).handles = world.handles ∧
      (∀ inode ∈ (world.drop links).dropped, inode < world.disk.fresh) ∧
      (∀ inode, inode ∉ (world.drop links).dropped →
        inode ∉ world.dropped ∧ world.disk.link (pagePlace name) ≠ some inode) ∧
      ∀ save ∈ (world.drop links).saves,
        save.inode ∈ world.handles ∧ save.inode ∉ (world.drop links).dropped ∧
          world.disk.data save.inode = save.text := by
  subst hlinks
  cases hlink : world.disk.link (pagePlace name) with
  | none =>
    refine ⟨rfl, hk.dropped_lt, fun inode hinode => ⟨hinode, by simp⟩, ?_⟩
    exact hk.saved
  | some old =>
    refine ⟨rfl, fun inode hinode => ?_, fun inode hinode => ?_, fun save hsave => ?_⟩
    · obtain rfl | hinode := List.mem_cons.mp hinode
      · exact world.disk.bounded _ _ hlink
      · exact hk.dropped_lt inode hinode
    · obtain ⟨hne, hdrop⟩ := not_or.mp (List.mem_cons.not.mp hinode)
      refine ⟨hdrop, fun heq => hne (Option.some.inj heq).symm⟩
    · obtain ⟨hmem, hne⟩ := List.mem_filter.mp hsave
      obtain ⟨hhandl, hdrop, htext⟩ := hk.saved save hmem
      have hne : save.inode ≠ old := by simpa using hne
      exact ⟨hhandl, List.mem_cons.not.mpr (not_or.mpr ⟨hne, hdrop⟩), htext⟩

theorem drop_fields (world : WriteWorld B) (links : Option Nat) :
    (world.drop links).disk = world.disk ∧ (world.drop links).position = world.position ∧
      (world.drop links).handles = world.handles ∧
      (world.drop links).installed = world.installed := by
  cases links <;> exact ⟨rfl, rfl, rfl, rfl⟩

theorem delete_guarded (hg : Guarded name world) : Guarded name (world.edit name .delete) := by
  unfold edit
  dsimp only
  split
  · rename_i removed hremove
    obtain ⟨hk, hs⟩ := hg
    obtain ⟨-, hlink, hdata, hfresh⟩ := Files.remove_eq_some hremove
    obtain ⟨hhand, hlt, hstay, hsaved⟩ := hk.drop rfl
    obtain ⟨-, hpos, -, hinst⟩ :=
      drop_fields world (world.disk.link (pagePlace name))
    have hother : ∀ place, place ≠ pagePlace name →
        removed.link place = world.disk.link place := by
      intro place hplace
      rw [hlink, update_of_ne hplace]
    have hedits : Edits name world.disk removed world.handles world.handles :=
      { link := hother
        page := by
          intro inode hinode
          rw [hlink, update_self] at hinode
          cases hinode
        opened := fun _ h => .inl h
        data := fun _ _ _ => by rw [hdata] }
    constructor
    · rw [hhand]
      exact
        { lt := by
            intro inode hinode
            rw [hfresh]
            exact hk.lt inode hinode
          dropped_lt := by
            intro inode hinode
            rw [hfresh]
            exact hlt inode hinode
          present := by
            intro inode hinode hdrop
            obtain ⟨hold, hpage⟩ := hstay inode hdrop
            exact present_of_link (hk.present inode hinode hold) hother hpage
          saved := by
            intro save hsave
            rw [hdata]
            exact hsaved save hsave }
    · rw [hhand, hpos, hinst]
      exact hedits.stationed hs
  · exact hg

theorem replace_guarded (hg : Guarded name world) (text : B) :
    Guarded name (world.edit name (.replace text)) := by
  obtain ⟨hk, hs⟩ := hg
  obtain ⟨-, hlt, hstay, hsaved⟩ := hk.drop rfl
  obtain ⟨-, hpos, -, hinst⟩ := drop_fields world (world.disk.link (pagePlace name))
  obtain ⟨replaced, hlink, hdata, hfresh, hdisk⟩ : ∃ replaced : Disk B,
      replaced.link = update world.disk.link (pagePlace name) (some world.disk.fresh) ∧
        replaced.data = update world.disk.data world.disk.fresh text ∧
        replaced.fresh = world.disk.fresh + 1 ∧
        (world.edit name (.replace text)).disk = replaced := ⟨_, rfl, rfl, rfl, rfl⟩
  have hother : ∀ place, place ≠ pagePlace name →
      replaced.link place = world.disk.link place := by
    intro place hplace
    rw [hlink, update_of_ne hplace]
  have hpage : replaced.link (pagePlace name) = some world.disk.fresh := by
    rw [hlink, update_self]
  have hsame : ∀ inode < world.disk.fresh, replaced.data inode = world.disk.data inode := by
    intro inode hinode
    rw [hdata, update_of_ne hinode.ne]
  have hedits : Edits name world.disk replaced world.handles
      (world.disk.fresh :: world.handles) :=
    { link := hother
      page := by
        intro inode hinode
        rw [hpage] at hinode
        exact .inr (Option.some.inj hinode).le
      opened := by
        intro inode hinode
        obtain rfl | hinode := List.mem_cons.mp hinode
        · exact .inr (.inr le_rfl)
        · exact .inl hinode
      data := fun inode hinode _ => hsame inode hinode }
  have hkeeps : Keeps name replaced (world.disk.fresh :: world.handles)
      (world.drop (world.disk.link (pagePlace name))).dropped
      ({ inode := world.disk.fresh, text } ::
        (world.drop (world.disk.link (pagePlace name))).saves) :=
    { lt := by
        intro inode hinode
        obtain rfl | hinode := List.mem_cons.mp hinode
        · omega
        · have hlt := hk.lt inode hinode
          omega
      dropped_lt := by
        intro inode hinode
        have hlt := hlt inode hinode
        omega
      present := by
        intro inode hinode hdrop
        obtain rfl | hinode := List.mem_cons.mp hinode
        · exact .inl hpage
        · obtain ⟨hold, hne⟩ := hstay inode hdrop
          exact present_of_link (hk.present inode hinode hold) hother hne
      saved := by
        intro save hsave
        obtain rfl | hsave := List.mem_cons.mp hsave
        · refine ⟨List.mem_cons_self, fun hdrop => ?_, ?_⟩
          · exact absurd (hlt _ hdrop) (lt_irrefl _)
          · rw [hdata, update_self]
        · obtain ⟨hhandl, hdrop, htext⟩ := hsaved save hsave
          refine ⟨List.mem_cons_of_mem _ hhandl, hdrop, ?_⟩
          rw [hsame _ (hk.lt _ hhandl)]
          exact htext }
  constructor
  · rw [hdisk]
    exact hkeeps
  · have hstat := hedits.stationed hs
    rw [← hpos, ← hinst] at hstat
    rw [hdisk]
    exact hstat

theorem edit_guarded (hg : Guarded name world) (edit : Edit B) :
    Guarded name (world.edit name edit) := by
  cases edit with
  | create text => exact create_guarded hg text
  | «open» => exact open_guarded hg
  | store inode text complete => exact store_guarded hg inode text complete
  | replace text => exact replace_guarded hg text
  | delete => exact delete_guarded hg

theorem next_guarded [DecidableEq B] (world : WriteWorld B) (event : WriteEvent B)
    (after : WriteWorld B) (hg : Guarded name world)
    (h : ProtectedStep lib layout name world event after) : Guarded name after := by
  obtain rfl := h
  cases event with
  | begin call =>
    unfold next
    dsimp only
    split
    · split
      · rename_i hfree
        exact ⟨hg.keeps, hfree⟩
      · exact hg
    · split
      · rename_i hfree
        exact ⟨hg.keeps, hfree⟩
      · exact hg
    · exact hg
  | advance =>
    unfold next
    dsimp only
    split
    · rename_i next hnext
      exact advance_guarded hg hnext
    · exact failed_guarded hg
  | write length =>
    unfold next
    dsimp only
    split
    · rename_i call inode hpos
      obtain ⟨hk, hs⟩ := hg
      rw [hpos] at hs
      refine ⟨hk.store hs.2.unopened, ?_⟩
      rw [hpos]
      exact ⟨hs.1, hs.2.congr rfl⟩
    · exact hg
  | fail => exact failed_guarded hg
  | crash => exact ⟨hg.keeps, trivial⟩
  | edit edit => exact edit_guarded hg edit

theorem initial_guarded (disk : Disk B) : Guarded name (initial disk) where
  keeps :=
    { lt := by simp [initial]
      dropped_lt := by simp [initial]
      present := by simp [initial]
      saved := by simp [initial] }
  stationed := trivial

/-- Whatever the write and the editor do, and wherever the write stops: each text whose save is
complete and which the editor has not itself changed, replaced or deleted is at the path or
among the displaced files, and a call that answers success has had the rendered text at the
path when it was installed. -/
theorem protected_write_keeps_saves [DecidableEq B] {events : List (WriteEvent B)}
    {world : WriteWorld B}
    (hrun : Run (ProtectedStep lib layout name) (initial disk) events world) :
    (∀ save ∈ world.saves, ∃ place, (place = pagePlace name ∨ place.directory = .recovery) ∧
      world.disk.read place = some save.text) ∧
    ∀ call, world.position = .answered call (.ok ()) → world.installed = some call.bytes := by
  obtain ⟨hk, hs⟩ := hrun.invariant next_guarded (initial_guarded disk)
  refine ⟨fun save hsave => ?_, fun call hcall => ?_⟩
  · obtain ⟨hhandl, hdrop, htext⟩ := hk.saved save hsave
    obtain hlink | ⟨file, hlink⟩ := hk.present _ hhandl hdrop
    · exact ⟨_, .inl rfl, Files.read_eq_some.mpr ⟨_, hlink, htext⟩⟩
    · exact ⟨_, .inr rfl, Files.read_eq_some.mpr ⟨_, hlink, htext⟩⟩
  · rw [hcall] at hs
    exact hs rfl

def editorLibrary : PageLibrary String where
  digest := fun text => text
  entryDigest := fun entry => entry.file
  head := fun text => text
  cut := fun text length => String.ofList (text.toList.take length)
  collisionKey := fun name => name
  isUuid := fun _ => true
  parseState := fun _ => none
  renderState := fun _ => ""
  parse_renderState := by
    intro state text h
    cases h
  isEmpty := fun text => text == ""
  decode := some
  encode := fun text => text
  readYaml := fun _ => none
  renderMarkdown := fun page => page.content

def editedDisk : Disk String where
  link := fun place => if place = pagePlace "note.md" then some 0 else none
  data := fun _ => "old"
  fresh := 1
  names := [pagePlace "note.md"]
  bounded := by
    intro place inode h
    split at h <;> cases h
    decide
  listed := by
    intro place inode h
    split at h
    · rename_i hplace
      rw [hplace]
      exact List.mem_cons_self
    · cases h

def editedCall (uuid : String) : WriteCall String where
  page :=
    { id := "p1", title := "Note", summary := none, content := "new", space := none, version := 1
      status := "active", staleReason := none, sourceMemoryIds := [], createdAt := "t0"
      lastModified := "t1" }
  bytes := "new"
  baseline := some
    { file := "note.md", contentSha256 := some "old", version := 1, lastWritten := "t0"
      title := none, description := none, space := none }
  sequence := "9.0"
  uuid

/-- The first call meets a save between its two looks at the file and puts it back.  The editor
undoes its change, and the second call succeeds; then the editor saves into the displaced file. -/
def editedEvents : List (WriteEvent String) :=
  [.begin (editedCall "u"), .advance, .advance, .edit .open, .edit (.store 0 "mine" true),
    .advance, .write 1, .advance, .advance, .advance, .advance, .advance, .advance,
    .edit (.store 0 "old" true),
    .begin (editedCall "v"), .advance, .advance, .advance, .advance, .advance, .advance, .advance,
    .advance, .advance, .edit (.store 0 "late" true)]

def editedEnd : WriteWorld String :=
  editedEvents.foldl
    (fun world event => world.next editorLibrary { folders := [], device := fun _ => 0 } "note.md" event)
    (initial editedDisk)

theorem run_protected [DecidableEq B] (lib : PageLibrary B) (layout : Layout) (name : String)
    (world : WriteWorld B) (events : List (WriteEvent B)) :
    Run (ProtectedStep lib layout name) world events
      (events.foldl (fun world event => world.next lib layout name event) world) := by
  induction events generalizing world with
  | nil => exact .refl world
  | cons event events ih => exact .cons rfl (ih _)

theorem protected_write_keeps_saves_late : ((∀ save ∈ editedEnd.saves, ∃ place,
        (place = pagePlace "note.md" ∨ place.directory = .recovery) ∧
          editedEnd.disk.read place = some save.text) ∧
      ∀ call, editedEnd.position = .answered call (.ok ()) →
        editedEnd.installed = some call.bytes) ∧
    editedEnd.saves = [{ inode := 0, text := "late" }] ∧
    editedEnd.disk.read (pagePlace "note.md") = some "new" ∧
    editedEnd.installed = some "new" := by
  refine ⟨protected_write_keeps_saves (run_protected editorLibrary _ _ _ editedEvents), ?_, ?_, ?_⟩
  · decide +kernel
  · decide +kernel
  · decide +kernel

end Wenlan.Projection
