import Wenlan.Okf.Preservation

/-!
# The writes of an export

From the union marker to the final one: stale files go, pages, stubs and index are written, and the
account says at each point what stands where.
-/

namespace Wenlan.Okf

open Pages (WenlanError)
open Support (KeyTable)
open Support.Interruptible List

/-! ## What is planned has bytes -/

variable {known : String × String}

section Planned

variable {library : Library} {request : Request} {start : Tree}

theorem lookup_foldl_insert {files : List (Entry × Bytes)} {table : KeyTable String Bytes}
    {text : String}
    (h : (∃ file ∈ files, file.1.text = text) ∨ ∃ bytes, table.lookup text = some bytes) :
    ∃ bytes, (files.foldl (fun table file => table.insert file.1.text file.2) table).lookup text =
      some bytes := by
  induction files generalizing table with
  | nil =>
    rcases h with ⟨file, hmem, -⟩ | h
    · cases hmem
    · exact h
  | cons first rest ih =>
    rw [foldl_cons]
    refine ih ?_
    by_cases hfirst : text = first.1.text
    · exact .inr ⟨first.2, by rw [hfirst, AList.lookup_insert]⟩
    · rcases h with ⟨file, hmem, htext⟩ | ⟨bytes, hbytes⟩
      · rcases mem_cons.mp hmem with rfl | hmem
        · exact absurd htext.symm hfirst
        · exact .inl ⟨file, hmem, htext⟩
      · exact .inr ⟨bytes, by rw [AList.lookup_insert_ne hfirst, hbytes]⟩

variable {pages : List Page}

theorem id_of_mem_plan
    (h : known ∈ planPageFilenames library pages) : ∃ page ∈ pages, page.id = known.1 := by
  have hfold : ∀ (order : List Page) (planned : List (String × String)),
      known ∈ order.foldl (fun planned page =>
        planned ++ [(page.id, searchName (planned.map Prod.snd) (pageBase library page)
          ((planned.map Prod.snd).length + 1) 2 (pageBase library page ++ ".md"))]) planned →
      known ∈ planned ∨ ∃ page ∈ order, page.id = known.1 := by
    intro order
    induction order with
    | nil => exact fun planned hmem => .inl hmem
    | cons page rest ih =>
      intro planned hmem
      rw [foldl_cons] at hmem
      rcases ih _ hmem with hmem | ⟨other, hother, hid⟩
      · rcases mem_append.mp hmem with hmem | hmem
        · exact .inl hmem
        · rw [mem_singleton.mp hmem]
          exact .inr ⟨page, mem_cons_self, rfl⟩
      · exact .inr ⟨other, mem_cons_of_mem _ hother, hid⟩
  rcases hfold _ [] h with hnil | ⟨page, hmem, hid⟩
  · cases hnil
  · exact ⟨page, (mem_insertionSort _).mp hmem, hid⟩

theorem mem_plan_of_page {page : Page} (h : page ∈ pages) :
    ∃ known ∈ planPageFilenames library pages, known.1 = page.id := by
  have hfold : ∀ (order : List Page) (planned : List (String × String)),
      ((∃ known ∈ planned, known.1 = page.id) ∨ page ∈ order) →
      ∃ known ∈ order.foldl (fun planned page =>
        planned ++ [(page.id, searchName (planned.map Prod.snd) (pageBase library page)
          ((planned.map Prod.snd).length + 1) 2 (pageBase library page ++ ".md"))]) planned,
        known.1 = page.id := by
    intro order
    induction order with
    | nil =>
      rintro planned (hknown | hmem)
      · exact hknown
      · cases hmem
    | cons first rest ih =>
      intro planned hmem
      rw [foldl_cons]
      refine ih _ ?_
      rcases hmem with ⟨known, hknown, hid⟩ | hmem
      · exact .inl ⟨known, mem_append_left _ hknown, hid⟩
      · rcases mem_cons.mp hmem with rfl | hmem
        · exact .inl ⟨_, mem_append_right _ mem_cons_self, rfl⟩
        · exact .inr hmem
  exact hfold _ [] (.inr ((mem_insertionSort _).mpr h))

theorem pageOf_of_mem_plan (h : known ∈ planPageFilenames library request.pages) :
    ∃ page, pageOf request.pages known.1 = some page := by
  obtain ⟨page, hmem, hid⟩ := id_of_mem_plan h
  rw [← Option.isSome_iff_exists]
  unfold pageOf
  rw [find?_isSome]
  exact ⟨page, mem_reverse.mpr hmem, decide_eq_true hid⟩

theorem mem_plannedEntries {entry : Entry} : entry ∈ plannedEntries library request.pages ↔
      (∃ known ∈ planPageFilenames library request.pages, entry = .within .pages known.2) ∨
      (∃ id ∈ stubIds request.pages, entry = .within .sources (stubFilename id)) ∨
      entry = .index := by
  unfold plannedEntries
  rw [mem_append, mem_append, mem_map, mem_map, mem_singleton, or_assoc]
  simp only [eq_comm]

theorem exists_plannedBytes {entry : Entry} (h : entry ∈ plannedEntries library request.pages) :
    ∃ bytes, (plannedBytes library request).lookup entry.text = some bytes := by
  have hrend : ∃ file ∈ renderedFiles library request, file.1.text = entry.text := by
    rcases mem_plannedEntries.mp h with ⟨known, hknown, rfl⟩ | ⟨id, hid, rfl⟩ | rfl
    · obtain ⟨page, hpage⟩ := pageOf_of_mem_plan hknown
      have hfile : (Entry.within .pages known.2, library.renderPageFile request.pages
          request.conceptPaths (planPageFilenames library request.pages) page) ∈
          (planPageFilenames library request.pages).filterMap fun known =>
            (pageOf request.pages known.1).map fun page => (Entry.within .pages known.2,
              library.renderPageFile request.pages request.conceptPaths
                (planPageFilenames library request.pages) page) := by
        refine mem_filterMap.mpr ⟨known, hknown, ?_⟩
        rw [hpage]
        rfl
      exact ⟨_, mem_append_left _ (mem_append_left _ hfile), rfl⟩
    · exact ⟨_, mem_append_left _ (mem_append_right _ (mem_map_of_mem hid)), rfl⟩
    · exact ⟨_, mem_append_right _ mem_cons_self, rfl⟩
  exact lookup_foldl_insert (.inl hrend)

theorem finalBytes_renderedAt {entry : Entry} (h : entry ∈ plannedEntries library request.pages)
    (hne : entry ≠ .index) :
    finalBytes library request start entry = some (renderedAt library request entry) := by
  obtain ⟨bytes, hbytes⟩ := exists_plannedBytes h
  unfold finalBytes renderedAt
  rw [if_neg hne, hbytes, Option.getD_some]

/-- With nothing in the way, the index is the one that was rendered first. -/
theorem finalBytes_of_clear
    (hclear : ∀ entry ∈ plannedEntries library request.pages, ¬ Obstructed library start entry)
    (entry : Entry) :
    finalBytes library request start entry = (plannedBytes library request).lookup entry.text := by
  unfold finalBytes
  split_ifs with hindex
  · have hids : ∀ page ∈ request.pages,
        decide (page.id ∈ writtenIds library request start) := by
      intro page hpage
      obtain ⟨known, hknown, hid⟩ := @mem_plan_of_page library request.pages page hpage
      rw [decide_eq_true_eq, ← hid]
      refine mem_map_of_mem (mem_filter.mpr ⟨hknown, decide_eq_true ⟨?_, ?_⟩⟩)
      · obtain ⟨other, hother⟩ := pageOf_of_mem_plan hknown
        rw [hother]
        rfl
      · exact hclear _ (mem_plannedEntries.mpr (.inl ⟨known, hknown, rfl⟩))
    unfold indexBytes plannedBytes renderedFiles
    rw [filter_eq_self.mpr hids, foldl_append, foldl_cons, foldl_nil, hindex,
      AList.lookup_insert]
  · rfl

end Planned

/-! ## Behind the union marker -/

section Marked

variable {library : Library} {request : Request} {old : OldBundle} {start tree : Tree}
  {entry : Entry}

/-- The union marker stands, and every listed plain file is in the archive or let go. -/
structure Marked (library : Library) (request : Request) (old : OldBundle) (start tree : Tree) :
    Prop where
  account : Account library request old start tree
  marker : tree.lookup .marker = some (.file (library.encode (unionMarker library request old)) true)
  cleared : ∀ entry : Entry, entry.Safe → entry.text ∈ old.files →
    ∀ bytes exported, start.lookup (.entry entry) = some (.file bytes exported) →
      Freed library request old start entry tree

section

variable (h : Marked library request old start tree)
include h

theorem Marked.stop (point : Point) : StopAt library request old start point tree :=
  ⟨h.account, fun _ => .inr h.marker⟩

theorem Marked.failed (hready : ¬ Ready library request old start) (error : WenlanError) :
    FailedAt library request old start error tree :=
  ⟨h.account, .inr ⟨h.marker, hready⟩⟩

theorem Marked.plain (node : Node)
    (hnode : start.lookup .marker = some node) : node.isPlainFile := by
  rcases h.account.marker with hsame | hplain
  · rw [h.marker, hnode] at hsame
    rw [← Option.some.inj hsame]
    rfl
  · exact hplain node hnode

end

/-- What is true of the planned entries of an accepted export. -/
structure Sound (library : Library) (request : Request) (old : OldBundle) (start : Tree) : Prop where
  accepted : Accepted library request old start
  safe : ∀ entry ∈ plannedEntries library request.pages, entry.Safe

section

variable (h : Marked library request old start tree) (hsound : Sound library request old start)
  (hplan : entry ∈ plannedEntries library request.pages)
  (hclear : ¬ Obstructed library start entry)
include h hsound hplan hclear

theorem Marked.over :
    start.lookup (.entry entry) = none ∨ Freed library request old start entry tree := by
  cases hstart : start.lookup (.entry entry) with
  | none => exact .inl rfl
  | some node =>
    have hplain : node.isPlainFile := by
      by_contra hnot
      exact hclear (.inr ⟨node, hstart, Bool.eq_false_iff.mpr hnot⟩)
    obtain ⟨bytes, exported, rfl⟩ := Node.isPlainFile_iff.mp hplain
    have hmem : Place.entry entry ∈ start := by
      rw [← AList.lookup_isSome, hstart]
      rfl
    exact .inr (h.cleared entry (hsound.safe entry hplan)
      (hsound.accepted.planned entry hplan hmem) bytes exported hstart)

theorem Marked.write {bytes : Bytes}
    (hbytes : finalBytes library request start entry = some bytes) (n : ℕ) :
    Marked library request old start (tree.insert (.entry entry) (.file (bytes.take n) true)) := by
  refine ⟨h.account.write hplan hbytes (h.over hsound hplan hclear) n, ?_, ?_⟩
  · rw [AList.lookup_insert_ne (by simp)]
    exact h.marker
  · intro other hsafe hlist content exported hfile
    refine (h.cleared other hsafe hlist content exported hfile).mono ?_
    intro folder name node hnode
    rw [AList.lookup_insert_ne (by simp)]
    exact hnode

end

variable {node : Node}

theorem Account.plain_of_clear (h : Account library request old start tree)
    (hclear : ¬ Obstructed library start entry)
    (hnode : tree.lookup (.entry entry) = some node) : node.isPlainFile := by
  rcases h.entries entry with hsame | ⟨hnone, -⟩ | ⟨-, ⟨bytes, n, -, hwrit⟩, -⟩
  · by_contra hnot
    exact hclear (.inr ⟨node, hsame.symm.trans hnode, Bool.eq_false_iff.mpr hnot⟩)
  · rw [hnone] at hnode
    cases hnode
  · rw [hwrit] at hnode
    cases hnode
    rfl

theorem Account.obstructed_kept (h : Account library request old start tree)
    (hstart : start.lookup (.entry entry) = some node) (hplain : node.isPlainFile = false) :
    tree.lookup (.entry entry) = some node := by
  have hno : ∀ bytes exported, node ≠ .file bytes exported := by
    rintro bytes exported rfl
    cases hplain
  rcases h.entries entry with hsame | ⟨-, hfreed⟩ | ⟨-, -, hnone | hfreed⟩
  · exact hsame.trans hstart
  · obtain ⟨bytes, exported, hfile, -⟩ := hfreed
    exact absurd (Option.mem_unique hstart hfile) (hno bytes exported)
  · rw [hstart] at hnone
    cases hnone
  · obtain ⟨bytes, exported, hfile, -⟩ := hfreed
    exact absurd (Option.mem_unique hstart hfile) (hno bytes exported)

theorem meets_writeEntry (h : Marked library request old start tree)
    (hsound : Sound library request old start)
    (hplan : entry ∈ plannedEntries library request.pages) {bytes : Bytes}
    (hbytes : finalBytes library request start entry = some bytes) : Meets (fun t => t = tree)
      (writeFileNofollow (library.fits entry.fileName) (.entry entry) bytes)
      (StopAt library request old start)
      (fun _ t => ¬ Obstructed library start entry ∧
        t = tree.insert (.entry entry) (.file bytes true))
      (fun _ t => Obstructed library start entry ∧ t = tree) := by
  have hwrite : ¬ Obstructed library start entry → Meets (fun t => t = tree)
      (write (.entry entry) bytes) (StopAt library request old start)
      (fun _ t => ¬ Obstructed library start entry ∧
        t = tree.insert (.entry entry) (.file bytes true))
      (fun _ t => Obstructed library start entry ∧ t = tree) := by
    intro hclear
    refine meets_act ?_ ?_ ?_
    · rintro s rfl
      exact h.stop _
    · rintro s rfl mark t hmem
      obtain ⟨n, -, heq⟩ := mem_map.mp hmem
      cases heq
      exact (h.write hsound hplan hclear hbytes n).stop _
    · rintro s rfl
      exact ⟨hclear, rfl⟩
  refine meets_read.andThen fun current => ?_
  refine meets_of_each ?_
  rintro s ⟨hcur, hs⟩
  subst hs
  subst hcur
  split_ifs with hfits
  · have hclear : (∀ node, current.lookup (.entry entry) = some node → node.isPlainFile) →
        ¬ Obstructed library start entry := by
      rintro hplain (hunfit | ⟨node, hstart, hnot⟩)
      · rw [hfits] at hunfit
        cases hunfit
      · rw [hplain node (h.account.obstructed_kept hstart hnot)] at hnot
        cases hnot
    cases hnode : current.lookup (.entry entry) with
    | none =>
      refine hwrite (hclear fun node hsome => ?_)
      rw [hnode] at hsome
      cases hsome
    | some node =>
      dsimp only
      split_ifs with hplain
      · refine hwrite (hclear fun other hsome => ?_)
        rw [hnode] at hsome
        cases hsome
        exact hplain
      · refine meets_fail ?_
        rintro s rfl
        refine ⟨?_, rfl⟩
        by_contra hnot
        exact hplain (h.account.plain_of_clear hnot hnode)
  · refine meets_fail ?_
    rintro s rfl
    exact ⟨.inl (Bool.eq_false_iff.mpr hfits), rfl⟩

theorem meets_writeMarker_union : Meets (Passing library request old start [])
      (writeMarker library (old.files ++ plannedTexts library request.pages) old.digests)
      (StopAt library request old start)
      (fun _ t => Marked library request old start t ∧
        ∀ entry, t.lookup (.entry entry) = start.lookup (.entry entry) ∨
          Gone library request old start entry t)
      (FailedAt library request old start) := by
  refine meets_read.andThen fun current => ?_
  rw [if_pos rfl]
  have hwrite : (∀ node, current.lookup .marker = some node → node.isPlainFile) →
      Meets (fun t => current = t ∧ Passing library request old start [] t)
      (write .marker (library.encode (unionMarker library request old)))
      (StopAt library request old start)
      (fun _ t => Marked library request old start t ∧
        ∀ entry, t.lookup (.entry entry) = start.lookup (.entry entry) ∨
          Gone library request old start entry t)
      (FailedAt library request old start) := by
    intro hplain
    have hstart : Passing library request old start [] current →
        ∀ node, start.lookup .marker = some node → node.isPlainFile := by
      intro hs node hnode
      exact hplain node (hs.marker.trans hnode)
    refine meets_act ?_ ?_ ?_
    · rintro s ⟨rfl, hs⟩
      exact hs.stop _
    · rintro s ⟨rfl, hs⟩ mark t hmem
      obtain ⟨n, -, heq⟩ := mem_map.mp hmem
      cases heq
      exact ⟨hs.account.insert_marker (hstart hs) _, absurd rfl⟩
    · rintro s ⟨rfl, hs⟩
      have hkeeps : KeepsArchive current (current.insert .marker
          (.file (library.encode (unionMarker library request old)) true)) := by
        intro folder name node hnode
        rw [AList.lookup_insert_ne (by simp)]
        exact hnode
      refine ⟨⟨hs.account.insert_marker (hstart hs) _, AList.lookup_insert _, ?_⟩, ?_⟩
      · intro entry hsafe hlist bytes exported hfile
        exact (hs.passed entry hsafe hlist not_mem_nil bytes exported hfile).mono hkeeps
      · intro entry
        rw [AList.lookup_insert_ne (by simp)]
        refine (hs.unwritten entry).imp_right ?_
        rintro ⟨hnone, hfreed⟩
        refine ⟨?_, hfreed.mono hkeeps⟩
        rw [AList.lookup_insert_ne (by simp)]
        exact hnone
  cases hnode : current.lookup .marker with
  | none =>
    refine hwrite fun node hsome => ?_
    rw [hnode] at hsome
    cases hsome
  | some node =>
    dsimp only
    split_ifs with hplain
    · refine hwrite fun other hsome => ?_
      rw [hnode] at hsome
      cases hsome
      exact hplain
    · refine meets_fail ?_
      rintro s ⟨rfl, hs⟩
      exact hs.failed (fun hr => hplain (hr.marker node (hs.marker.symm.trans hnode))) _

end Marked

/-! ## The sweep -/

section Sweep

variable {library : Library} {request : Request} {old : OldBundle} {start tree : Tree}
  {rest : List String} {text : String} {progress : Progress}

/-- A stale entry that could not be swept. -/
def Kept (library : Library) (request : Request) (old : OldBundle) (start : Tree) (text : String) :
    Prop :=
  text ∈ staleTexts library request old ∧
    ∃ entry, safeEntry text = some entry ∧ Obstructed library start entry

/-- The account in the middle of the sweep; `rest` is what it has not come to. -/
structure Sweeping (library : Library) (request : Request) (old : OldBundle) (start : Tree)
    (rest : List String) (progress : Progress) (tree : Tree) : Prop
    extends Marked library request old start tree where
  unwritten : ∀ entry, tree.lookup (.entry entry) = start.lookup (.entry entry) ∨
    Gone library request old start entry tree
  nothing : progress.written = [] ∧ progress.digests = ∅
  stale : ∀ text ∈ rest, text ∈ staleTexts library request old
  swept : ∀ text ∈ staleTexts library request old, text ∉ rest → ∀ entry,
    safeEntry text = some entry → tree.lookup (.entry entry) = none ∨ text ∈ progress.unswept
  kept : ∀ text ∈ progress.unswept, Kept library request old start text

theorem listed_of_stale (h : text ∈ staleTexts library request old) :
    text ∈ old.files ∧ text ∉ plannedTexts library request.pages := by
  obtain ⟨hsort, hplan⟩ := mem_filter.mp h
  exact ⟨mem_sorted.mp hsort, of_decide_eq_true hplan⟩

section

variable (h : Sweeping library request old start (text :: rest) progress tree)
include h

theorem Sweeping.skip
    (hnone : ∀ entry, safeEntry text = some entry → tree.lookup (.entry entry) = none) :
    Sweeping library request old start rest progress tree where
  toMarked := h.toMarked
  unwritten := h.unwritten
  nothing := h.nothing
  stale other hmem := h.stale other (mem_cons_of_mem _ hmem)
  swept other hstale hnot entry hentry := by
    by_cases heq : other = text
    · subst heq
      exact .inl (hnone entry hentry)
    · refine h.swept other hstale ?_ entry hentry
      rw [mem_cons, not_or]
      exact ⟨heq, hnot⟩
  kept := h.kept

theorem Sweeping.remember (hkept : Kept library request old start text) {failed : ℕ} :
    Sweeping library request old start rest
      { progress with unswept := progress.unswept ++ [text], failed := failed } tree where
  toMarked := h.toMarked
  unwritten := h.unwritten
  nothing := h.nothing
  stale other hmem := h.stale other (mem_cons_of_mem _ hmem)
  swept other hstale hnot entry hentry := by
    by_cases heq : other = text
    · subst heq
      exact .inr (mem_append_right _ mem_cons_self)
    · have hnotm : other ∉ text :: rest := by
        rw [mem_cons, not_or]
        exact ⟨heq, hnot⟩
      exact (h.swept other hstale hnotm entry hentry).imp_right (mem_append_left _)
  kept other hmem := by
    rcases mem_append.mp hmem with hmem | hmem
    · exact h.kept other hmem
    · rw [mem_singleton.mp hmem]
      exact hkept

theorem Sweeping.remove
    {entry : Entry} (hentry : safeEntry text = some entry) {bytes : Bytes} {exported : Bool}
    (hfile : tree.lookup (.entry entry) = some (.file bytes exported)) :
    Sweeping library request old start rest progress (tree.erase (.entry entry)) := by
  obtain ⟨rfl, hsafe⟩ := text_of_safeEntry hentry
  have hlist := (listed_of_stale (h.stale entry.text mem_cons_self)).1
  have hstart : start.lookup (.entry entry) = some (.file bytes exported) := by
    rcases h.unwritten entry with hsame | ⟨hnone, -⟩
    · exact hsame.symm.trans hfile
    · rw [hnone] at hfile
      cases hfile
  have hfreed := h.cleared entry hsafe hlist bytes exported hstart
  have hother : ∀ place, place ≠ .entry entry →
      (tree.erase (.entry entry)).lookup place = tree.lookup place :=
    fun place hne => AList.lookup_erase_ne hne
  have hkeeps : KeepsArchive tree (tree.erase (.entry entry)) := by
    intro folder name node hnode
    rw [hother _ (by simp)]
    exact hnode
  refine ⟨⟨h.account.erase hfreed, ?_, ?_⟩, ?_, h.nothing, ?_, ?_, h.kept⟩
  · rw [hother _ (by simp)]
    exact h.marker
  · intro other hsafeOther hlistedOther content exported' hcont
    exact (h.cleared other hsafeOther hlistedOther content exported' hcont).mono hkeeps
  · intro other
    by_cases heq : other = entry
    · rw [heq]
      exact .inr ⟨AList.lookup_erase _ _, hfreed.mono hkeeps⟩
    · have hne : Place.entry other ≠ .entry entry := by
        rw [Ne, Place.entry.injEq]
        exact heq
      rw [hother _ hne]
      refine (h.unwritten other).imp_right ?_
      rintro ⟨hnone, hfre⟩
      exact ⟨(hother _ hne).trans hnone, hfre.mono hkeeps⟩
  · exact fun other hmem => h.stale other (mem_cons_of_mem _ hmem)
  · intro other hstale hnot otherEntry hotherEntry
    by_cases heq : otherEntry = entry
    · rw [heq]
      exact .inl (AList.lookup_erase _ _)
    · have hnotm : other ∉ entry.text :: rest := by
        rw [mem_cons, not_or]
        refine ⟨?_, hnot⟩
        rintro rfl
        rw [hentry] at hotherEntry
        exact heq (Option.some.inj hotherEntry).symm
      rw [hother _ (by rw [Ne, Place.entry.injEq]; exact heq)]
      exact h.swept other hstale hnotm otherEntry hotherEntry

end

theorem meets_sweepStale : Meets (Sweeping library request old start (text :: rest) progress)
      (sweepStale library progress text) (StopAt library request old start)
      (Sweeping library request old start rest) (FailedAt library request old start) := by
  unfold sweepStale
  cases hentry : safeEntry text with
  | none =>
    refine meets_pure fun s hs => hs.skip ?_
    intro entry hsome
    rw [hentry] at hsome
    cases hsome
  | some entry =>
    refine meets_read.andThen fun current => ?_
    refine meets_of_each ?_
    rintro s ⟨rfl, hs⟩
    split_ifs with hfits
    · cases hnode : current.lookup (.entry entry) with
      | none =>
        refine meets_pure ?_
        rintro t rfl
        refine hs.skip fun other hother => ?_
        rw [hentry] at hother
        cases hother
        exact hnode
      | some node =>
        dsimp only
        split_ifs with hplain
        · obtain ⟨bytes, exported, rfl⟩ := Node.isPlainFile_iff.mp hplain
          refine (meets_act ?_ ?_ ?_).andThen fun _ => meets_pure fun t ht => ht
          · rintro t rfl
            exact hs.toMarked.stop _
          · intro t _ mark t' hmem
            cases hmem
          · rintro t rfl
            exact hs.remove hentry hnode
        · refine meets_pure ?_
          rintro t rfl
          refine hs.remember ⟨hs.stale text mem_cons_self, entry, hentry, .inr ⟨node, ?_, ?_⟩⟩
          · rcases hs.unwritten entry with hsame | ⟨hnone, -⟩
            · exact hsame.symm.trans hnode
            · rw [hnone] at hnode
              cases hnode
          · exact Bool.eq_false_iff.mpr hplain
    · refine meets_pure ?_
      rintro t rfl
      exact hs.remember ⟨hs.stale text mem_cons_self, entry, hentry,
        .inl (Bool.eq_false_iff.mpr hfits)⟩

end Sweep

/-! ## Pages, stubs and the index -/

section Files

variable {library : Library} {request : Request} {old : OldBundle} {start tree : Tree}
  {pending : List Entry} {names : List (String × String)} {progress : Progress} {entry : Entry}

def pageEntry (known : String × String) : Entry := .within .pages known.2

def stubEntry (id : String) : Entry := .within .sources (stubFilename id)

def idsOf (library : Library) (request : Request) (start : Tree) (names : List (String × String)) :
    List String :=
  (names.filter fun known => decide ((pageOf request.pages known.1).isSome = true ∧
    ¬ Obstructed library start (pageEntry known))).map Prod.fst

/-- Unless something is in the way, the entry holds its bytes and their digest is recorded. -/
def DoneAt (library : Library) (request : Request) (start : Tree) (entry : Entry)
    (digests : KeyTable String String) (tree : Tree) : Prop :=
  ¬ Obstructed library start entry → ∃ bytes, finalBytes library request start entry = some bytes ∧
    tree.lookup (.entry entry) = some (.file bytes true) ∧
    digests.lookup entry.text = some (library.digestOf bytes)

/-- The account between the sweep and the final marker: `pending` are the entries that are not
written yet, and `names` the pages among them. -/
structure Writing (library : Library) (request : Request) (old : OldBundle) (start : Tree)
    (pending : List Entry) (names : List (String × String)) (progress : Progress) (tree : Tree) :
    Prop extends Marked library request old start tree where
  swept : ∀ text ∈ staleTexts library request old, ∀ entry, safeEntry text = some entry →
    tree.lookup (.entry entry) = none ∨ text ∈ progress.unswept
  kept : ∀ text ∈ progress.unswept, Kept library request old start text
  written : writtenIds library request start = progress.written ++ idsOf library request start names
  done : ∀ entry ∈ plannedEntries library request.pages, entry ∉ pending →
    DoneAt library request start entry progress.digests tree

variable {names' : List (String × String)}

theorem Writing.skip {failed : ℕ}
    (h : Writing library request old start (entry :: pending) names progress tree)
    (hobstr : Obstructed library start entry)
    (hnames : idsOf library request start names = idsOf library request start names') :
    Writing library request old start pending names' { progress with failed := failed } tree where
  toMarked := h.toMarked
  swept := h.swept
  kept := h.kept
  written := by
    rw [h.written, hnames]
  done other hplan hnot := by
    by_cases heq : other = entry
    · subst heq
      exact fun hclear => absurd hobstr hclear
    · refine h.done other hplan ?_
      rw [mem_cons, not_or]
      exact ⟨heq, hnot⟩

theorem Writing.write {next : Progress} {bytes : Bytes}
    (h : Writing library request old start (entry :: pending) names progress tree)
    (hsound : Sound library request old start)
    (hplan : entry ∈ plannedEntries library request.pages)
    (hclear : ¬ Obstructed library start entry)
    (hbytes : finalBytes library request start entry = some bytes)
    (hunsw : next.unswept = progress.unswept)
    (hdiges : next.digests = progress.digests.insert entry.text (library.digestOf bytes))
    (hwrit : writtenIds library request start =
      next.written ++ idsOf library request start names') :
    Writing library request old start pending names' next
      (tree.insert (.entry entry) (.file bytes true)) := by
  have hmark := h.toMarked.write hsound hplan hclear hbytes bytes.length
  rw [take_length] at hmark
  have hsafe := hsound.safe entry hplan
  refine ⟨hmark, ?_, ?_, hwrit, ?_⟩
  · intro text hstale other hother
    have hne : other ≠ entry := by
      rintro rfl
      obtain ⟨htext, -⟩ := text_of_safeEntry hother
      exact (listed_of_stale hstale).2 (mem_map.mpr ⟨other, hplan, htext⟩)
    rw [AList.lookup_insert_ne (by rw [Ne, Place.entry.injEq]; exact hne), hunsw]
    exact h.swept text hstale other hother
  · rw [hunsw]
    exact h.kept
  · intro other hplannedOther hnot
    by_cases heq : other = entry
    · subst heq
      intro _
      refine ⟨bytes, hbytes, AList.lookup_insert _, ?_⟩
      rw [hdiges, AList.lookup_insert]
    · intro hclea
      have hnotm : other ∉ entry :: pending := by
        rw [mem_cons, not_or]
        exact ⟨heq, hnot⟩
      obtain ⟨content, hcont, hfile, hdig⟩ := h.done other hplannedOther hnotm hclea
      refine ⟨content, hcont, ?_, ?_⟩
      · rw [AList.lookup_insert_ne (by rw [Ne, Place.entry.injEq]; exact heq)]
        exact hfile
      · rw [hdiges, AList.lookup_insert_ne]
        · exact hdig
        · intro htext
          exact heq (text_inj (hsound.safe other hplannedOther) hsafe htext)

theorem idsOf_cons_obstructed (hobstr : Obstructed library start (pageEntry known)) :
    idsOf library request start (known :: names) = idsOf library request start names := by
  unfold idsOf
  rw [filter_cons_of_neg]
  rw [decide_eq_true_eq]
  exact fun hboth => hboth.2 hobstr

theorem idsOf_cons_clear (hpage : (pageOf request.pages known.1).isSome)
    (hclear : ¬ Obstructed library start (pageEntry known)) :
    idsOf library request start (known :: names) =
      known.1 :: idsOf library request start names := by
  unfold idsOf
  rw [filter_cons_of_pos, map_cons]
  rw [decide_eq_true_eq]
  exact ⟨hpage, hclear⟩

section

variable (hsound : Sound library request old start)
include hsound

theorem meets_writePage
    (hknown : known ∈ planPageFilenames library request.pages) {rest : List (String × String)}
    {stubs : List Entry} :
    Meets (Writing library request old start ((known :: rest).map pageEntry ++ stubs) (known :: rest)
        progress)
      (writePage library request progress known) (StopAt library request old start)
      (Writing library request old start (rest.map pageEntry ++ stubs) rest)
      (FailedAt library request old start) := by
  have hplan : pageEntry known ∈ plannedEntries library request.pages :=
    mem_plannedEntries.mpr (.inl ⟨known, hknown, rfl⟩)
  have hbytes : finalBytes library request start (pageEntry known) =
      some (renderedAt library request (pageEntry known)) :=
    finalBytes_renderedAt hplan (by simp [pageEntry])
  obtain ⟨page, hpage⟩ := pageOf_of_mem_plan hknown
  unfold writePage
  rw [hpage]
  refine meets_of_each fun initial hinitial => ?_
  rw [map_cons, cons_append] at hinitial
  refine (meets_writeEntry hinitial.toMarked hsound hplan hbytes).attempt.andThen
    fun result => ?_
  cases result with
  | ok u =>
    refine meets_pure ?_
    rintro s ⟨hok, -⟩
    obtain ⟨hclear, rfl⟩ := hok u rfl
    refine hinitial.write hsound hplan hclear hbytes rfl rfl ?_
    rw [hinitial.written, idsOf_cons_clear (by rw [hpage]; rfl) hclear]
    simp
  | error error =>
    refine meets_pure ?_
    rintro s ⟨-, herror⟩
    obtain ⟨hobstr, rfl⟩ := herror error rfl
    exact hinitial.skip hobstr (idsOf_cons_obstructed hobstr)

theorem meets_writeStub {id : String} (hid : id ∈ stubIds request.pages) {rest : List String} :
    Meets (Writing library request old start ((id :: rest).map stubEntry ++ [.index]) [] progress)
      (writeStub library request progress id) (StopAt library request old start)
      (Writing library request old start (rest.map stubEntry ++ [.index]) [])
      (FailedAt library request old start) := by
  have hplan : stubEntry id ∈ plannedEntries library request.pages :=
    mem_plannedEntries.mpr (.inr (.inl ⟨id, hid, rfl⟩))
  have hbytes : finalBytes library request start (stubEntry id) =
      some (renderedAt library request (stubEntry id)) :=
    finalBytes_renderedAt hplan (by simp [stubEntry])
  refine meets_of_each fun initial hinitial => ?_
  rw [map_cons, cons_append] at hinitial
  refine (meets_writeEntry hinitial.toMarked hsound hplan hbytes).attempt.andThen
    fun result => ?_
  cases result with
  | ok u =>
    refine meets_pure ?_
    rintro s ⟨hok, -⟩
    obtain ⟨hclear, rfl⟩ := hok u rfl
    exact hinitial.write hsound hplan hclear hbytes rfl rfl hinitial.written
  | error error =>
    refine meets_pure ?_
    rintro s ⟨-, herror⟩
    obtain ⟨hobstr, rfl⟩ := herror error rfl
    exact hinitial.skip hobstr rfl

theorem meets_writePages (stubs : List Entry) (names : List (String × String)) (progress : Progress)
    (hnames : ∀ known ∈ names, known ∈ planPageFilenames library request.pages) :
    Meets (Writing library request old start (names.map pageEntry ++ stubs) names progress)
      (names.foldlM (writePage library request) progress) (StopAt library request old start)
      (Writing library request old start stubs []) (FailedAt library request old start) := by
  induction names generalizing progress with
  | nil =>
    rw [foldlM_nil]
    exact meets_pure fun s hs => hs
  | cons known rest ih =>
    rw [foldlM_cons]
    refine (meets_writePage hsound (hnames known mem_cons_self)).andThen fun next => ?_
    exact ih next fun other hmem => hnames other (mem_cons_of_mem _ hmem)

theorem meets_writeStubs (ids : List String)
    (progress : Progress) (hids : ∀ id ∈ ids, id ∈ stubIds request.pages) :
    Meets (Writing library request old start (ids.map stubEntry ++ [.index]) [] progress)
      (ids.foldlM (writeStub library request) progress) (StopAt library request old start)
      (Writing library request old start [.index] []) (FailedAt library request old start) := by
  induction ids generalizing progress with
  | nil =>
    rw [foldlM_nil]
    exact meets_pure fun s hs => hs
  | cons id rest ih =>
    rw [foldlM_cons]
    refine (meets_writeStub hsound (hids id mem_cons_self)).andThen fun next => ?_
    exact ih next fun other hmem => hids other (mem_cons_of_mem _ hmem)

end

end Files

/-! ## The whole export -/

section Whole

variable {library : Library} {request : Request} {old : OldBundle} {start tree : Tree}

structure Exported (library : Library) (request : Request) (old : OldBundle) (start tree : Tree)
    (unswept : List String) (digests : KeyTable String String) : Prop where
  account : Account library request old start tree
  marker : tree.lookup .marker = some (.file (library.encode (markerFor library
    (plannedTexts library request.pages ++ unswept) digests)) true)
  planned : ∀ entry ∈ plannedEntries library request.pages,
    DoneAt library request start entry digests tree
  swept : ∀ text ∈ staleTexts library request old, ∀ entry, safeEntry text = some entry →
    tree.lookup (.entry entry) = none ∨ text ∈ unswept
  kept : ∀ text ∈ unswept, Kept library request old start text

theorem lookup_foldl_insertIfAbsent {entries : List (Σ _ : String, String)}
    {digests : KeyTable String String} {text digest : String}
    (h : digests.lookup text = some digest) :
    (entries.foldl (fun digests entry => KeyTable.insertIfAbsent entry.1 entry.2 digests)
      digests).lookup text = some digest := by
  induction entries generalizing digests with
  | nil => exact h
  | cons first rest ih =>
    rw [foldl_cons]
    refine ih ?_
    rw [KeyTable.lookup_insertIfAbsent]
    split_ifs with hfirst
    · rw [← hfirst, h, Option.getD_some]
    · exact h

theorem meets_finish (hsound : Sound library request old start) {progress : Progress} :
    Meets (Writing library request old start [.index] [] progress)
      (do
        let index := indexBytes library request progress.written
        writeFileNofollow (library.fits indexFile) (.entry .index) index
        let done := { progress with
          digests := progress.digests.insert indexFile (library.digestOf index) }
        writeMarker library (plannedTexts library request.pages ++ done.unswept)
          (finalDigests library request old done)
        pure ⟨done.exported, done.failed⟩)
      (StopAt library request old start)
      (fun (_ : ExportStats) t => ∃ unswept digests,
        Exported library request old start t unswept digests)
      (FailedAt library request old start) := by
  have hplan : Entry.index ∈ plannedEntries library request.pages :=
    mem_plannedEntries.mpr (.inr (.inr rfl))
  refine meets_of_each fun initial hinitial => ?_
  have hwrit : writtenIds library request start = progress.written := by
    rw [hinitial.written]
    exact append_nil _
  have hbytes : finalBytes library request start .index =
      some (indexBytes library request progress.written) := by
    unfold finalBytes
    rw [if_pos rfl, hwrit]
  have hindex := meets_writeEntry hinitial.toMarked hsound hplan hbytes
  have hindex' : Meets (fun t => t = initial)
      (writeFileNofollow (library.fits indexFile) (.entry .index)
        (indexBytes library request progress.written)) (StopAt library request old start)
      (fun _ t => Writing library request old start [] [] { progress with
        digests := progress.digests.insert indexFile
          (library.digestOf (indexBytes library request progress.written)) } t)
      (FailedAt library request old start) := by
    refine hindex.weaken (fun _ h => h) (fun _ _ h => h) ?_ ?_
    · rintro _ t ⟨hclear, rfl⟩
      exact hinitial.write hsound hplan hclear hbytes rfl rfl hinitial.written
    · rintro error t ⟨hobstr, rfl⟩
      exact hinitial.toMarked.failed (fun hready => hready.entries _ hplan hobstr) error
  refine hindex'.andThen fun _ => ?_
  have hmarke : Meets (Writing library request old start [] [] { progress with
        digests := progress.digests.insert indexFile
          (library.digestOf (indexBytes library request progress.written)) })
      (writeMarker library (plannedTexts library request.pages ++ progress.unswept)
        (finalDigests library request old { progress with
          digests := progress.digests.insert indexFile
            (library.digestOf (indexBytes library request progress.written)) }))
      (StopAt library request old start)
      (fun _ t => ∃ unswept digests, Exported library request old start t unswept digests)
      (FailedAt library request old start) := by
    refine meets_read.andThen fun current => ?_
    refine meets_of_each ?_
    rintro s ⟨rfl, hs⟩
    rw [if_pos rfl, hs.marker]
    refine meets_act ?_ ?_ ?_
    · rintro t rfl
      exact hs.toMarked.stop _
    · rintro t rfl mark t' hmem
      obtain ⟨n, -, heq⟩ := mem_map.mp hmem
      cases heq
      exact ⟨hs.account.insert_marker hs.plain _, absurd rfl⟩
    · rintro t rfl
      refine ⟨_, _, hs.account.insert_marker hs.plain _, AList.lookup_insert _, ?_, ?_, hs.kept⟩
      · intro entry hentry hclear
        obtain ⟨bytes, hfinal, hfile, hdig⟩ := hs.done entry hentry not_mem_nil hclear
        refine ⟨bytes, hfinal, ?_, lookup_foldl_insertIfAbsent hdig⟩
        rw [AList.lookup_insert_ne (by simp)]
        exact hfile
      · intro text hstale entry hentry
        rw [AList.lookup_insert_ne (by simp)]
        exact hs.swept text hstale entry hentry
  exact hmarke.andThen fun _ => meets_pure fun t ht => ht

/-- From the tree it was accepted on, an export is stopped, returns or fails as the account says. -/
theorem meets_writeBundle (hsound : Sound library request old start) :
    Meets (fun t => t = start) (writeBundle library request old) (StopAt library request old start)
      (fun _ t => ∃ unswept digests, Exported library request old start t unswept digests)
      (FailedAt library request old start) := by
  have hopen : ∀ folder, Meets (Opening library request old start) (createBundleDir folder)
      (StopAt library request old start) (fun _ => Opening library request old start)
      (FailedAt library request old start) := meets_createBundleDir hsound.accepted
  have hpres : Meets (Opening library request old start)
      ((sorted old.files).foldlM (fun _ text => preserveListed library request old text) ())
      (StopAt library request old start) (fun _ => Passing library request old start [])
      (FailedAt library request old start) :=
    meets_preservation.weaken (fun _ h => h.passing) (fun _ _ h => h) (fun _ _ h => h)
      fun _ _ h => h
  have hswept := @meets_foldlM Tree Point WenlanError String Progress
    (StopAt library request old start) (FailedAt library request old start)
    (Sweeping library request old start) (sweepStale library) (staleTexts library request old)
    Progress.start fun text rest progress => meets_sweepStale
  have hpaged : ∀ progress, Meets (Sweeping library request old start [] progress)
      ((planPageFilenames library request.pages).foldlM (writePage library request) progress)
      (StopAt library request old start)
      (Writing library request old start ((stubIds request.pages).map stubEntry ++ [.index]) [])
      (FailedAt library request old start) := by
    intro progress
    refine (meets_writePages hsound _ _ progress fun known hknown => hknown).weaken ?_
      (fun _ _ h => h) (fun _ _ h => h) fun _ _ h => h
    intro s hs
    refine ⟨hs.toMarked, fun text hstale entry hentry =>
      hs.swept text hstale not_mem_nil entry hentry, hs.kept, ?_, ?_⟩
    · rw [hs.nothing.1]
      rfl
    · intro entry hentry hnot
      exfalso
      apply hnot
      unfold plannedEntries at hentry
      rw [append_assoc] at hentry
      exact hentry
  refine Meets.andThen ((hopen .pages).weaken ?_ (fun _ _ h => h) (fun _ _ h => h)
    fun _ _ h => h) fun _ => (hopen .sources).andThen fun _ => hpres.andThen fun _ =>
    meets_writeMarker_union.andThen fun _ => (hswept.weaken ?_ (fun _ _ h => h) (fun _ _ h => h)
      fun _ _ h => h).andThen fun swept => (hpaged swept).andThen fun paged =>
    (meets_writeStubs hsound _ paged fun id hid => hid).andThen fun stubbed => meets_finish hsound
  · rintro s rfl
    exact opening_start
  · rintro s ⟨hmark, hunwr⟩
    exact ⟨hmark, hunwr, ⟨rfl, rfl⟩, fun _ hmem => hmem,
      fun text hstale hnot => absurd hstale hnot, fun text hmem => by cases hmem⟩

end Whole

end Wenlan.Okf
