import Wenlan.Pages.Watcher
import Wenlan.Projection.Tree

/-!
# The index of the projection

The renderer of `index.md` in `knowledge.rs` and the test by which it knows its own files.
-/

namespace Wenlan.Projection

open List

open Claims (collapseBlanks isWhitespace)
open Pages (splitAtText splitFrontmatter trimEnd)

/-- A page as the index lists it. -/
structure IndexRow where
  title : List Char
  file : List Char
  description : List Char
  space : Option (List Char)

def sanitizeIndexField (s : List Char) : List Char :=
  collapseBlanks (s.map fun c => if c = '\r' ∨ c = '\n' then ' ' else c)

def escapeIndexLinkText (s : List Char) : List Char :=
  s.flatMap fun c => if c = '[' ∨ c = ']' then ['\\', c] else [c]

def encodeIndexByte (byte : UInt8) : List Char :=
  let c := Char.ofNat byte.toNat
  if c.isAlphanum ∨ c ∈ ['-', '.', '_', '~'] then [c]
  else '%' :: [byte.toNat / 16, byte.toNat % 16].map fun digit => (Nat.digitChar digit).toUpper

def indexPath (file : List Char) : List Char :=
  ['/'].intercalate ((file.splitOn '/').map fun component =>
    (component.flatMap String.utf8EncodeChar).flatMap encodeIndexByte)

def indexEntryLine (linkPrefix : List Char) (row : IndexRow) : List Char :=
  ['*', ' ', '['] ++ escapeIndexLinkText row.title ++ [']', '('] ++ linkPrefix ++
    indexPath row.file ++
    [')'] ++ (if row.description = [] then [] else [' ', '-', ' '] ++ row.description)

/-- A heading with its entries, each line with its line feed. -/
def indexSection (linkPrefix space : List Char) (entries : List IndexRow) : List Char :=
  (['#', '#', ' '] ++ space) ++ ['\n', '\n'] ++
    entries.flatMap (fun row => indexEntryLine linkPrefix row ++ ['\n']) ++ ['\n']

def indexHead : List Char :=
  "---\nokf_version: \"0.2\"\n---".toList

def renderIndexMarkdown (bySpace : List (List Char × List IndexRow)) (unfiled : List IndexRow)
    (linkPrefix : List Char) : List Char :=
  trimEnd (indexHead ++ ['\n', '\n'] ++
    bySpace.flatMap (fun group => indexSection linkPrefix group.1 group.2) ++
    (if unfiled = [] then [] else indexSection linkPrefix "Unfiled".toList unfiled)) ++ ['\n']

def sanitizeIndexRow (row : IndexRow) : IndexRow :=
  { row with
    title := sanitizeIndexField row.title
    description := sanitizeIndexField row.description
    space := (row.space.map sanitizeIndexField).filter fun space => !space.isEmpty }

def textLe (a b : List Char) : Bool :=
  decide (String.ofList a ≤ String.ofList b)

/-- The entries of one space by their titles. -/
def indexGroup (entries : List IndexRow) (space : Option (List Char)) : List IndexRow :=
  (entries.filter fun row => row.space = space).mergeSort fun a b => textLe a.title b.title

def indexSpaces (entries : List IndexRow) : List (List Char) :=
  (entries.filterMap IndexRow.space).dedup.mergeSort textLe

def renderIndexForEntries (rows : List IndexRow) (linkPrefix : List Char) : List Char :=
  let entries := rows.map sanitizeIndexRow
  let bySpace := (indexSpaces entries).map fun space => (space, indexGroup entries (some space))
  renderIndexMarkdown bySpace (indexGroup entries none) linkPrefix

/-- What stands behind the first occurrence of `pat`. -/
def afterText (pat text : List Char) : Option (List Char) :=
  (splitAtText pat text).map Prod.snd

def indexLineIsEntry (line : List Char) : Bool :=
  ['*', ' ', '['].isPrefixOf line &&
    ((afterText [']', '('] (line.drop 3)).bind (afterText [')'])).any fun tail =>
      tail.isEmpty || [' ', '-', ' '].isPrefixOf tail

def indexBodyIsGenerated (body : List Char) : Bool :=
  let shown := (lines (String.ofList body)).filter fun line => !line.all isWhitespace
  (shown.all fun line => ['#', '#', ' '].isPrefixOf line || indexLineIsEntry line) &&
    ((shown.any fun line => !(['#', '#', ' '].isPrefixOf line)) || body.all isWhitespace)

/-- The test of `index_file_is_replaceable`; `yamlKeys` are the keys that the YAML library reads. -/
def ownsIndex (yamlKeys : List Char → List String) (text : List Char) : Bool :=
  (splitFrontmatter text).any fun parts =>
    (yamlKeys parts.1).length == 1 && (yamlKeys parts.1).contains "okf_version" &&
      indexBodyIsGenerated parts.2

/-! ## One line -/

/-- The title has no `](`, or none of its parentheses closes behind the first one, or what stands
behind that is set off like a description. -/
def titleReadable (title : List Char) : Bool :=
  ((afterText [']', '('] title).bind (afterText [')'])).all fun tail =>
    [' ', '-', ' '].isPrefixOf tail

theorem afterText_skip {p c : Char} {pat text : List Char}
    (h : ¬ (c = p ∧ pat.isPrefixOf text)) :
    afterText (p :: pat) (c :: text) = afterText (p :: pat) text := by
  have hnot : (p :: pat).isPrefixOf (c :: text) = false := by
    rw [isPrefixOf_cons_cons, Bool.and_eq_false_iff]
    by_contra hboth
    simp only [not_or, Bool.not_eq_false, beq_iff_eq] at hboth
    exact h ⟨hboth.1.symm, hboth.2⟩
  unfold afterText
  rw [splitAtText, hnot]
  cases splitAtText (p :: pat) text <;> rfl

theorem escape_cons (c : Char) (text : List Char) : escapeIndexLinkText (c :: text) =
    (if c = '[' ∨ c = ']' then ['\\', c] else [c]) ++ escapeIndexLinkText text := rfl

/-- Escaping keeps the places where `](` stands. -/
theorem afterText_link (title rest : List Char) :
    afterText [']', '('] (escapeIndexLinkText title ++ ([']', '('] ++ rest)) =
      some ((afterText [']', '('] title).elim rest fun after =>
        escapeIndexLinkText after ++ ([']', '('] ++ rest)) := by
  induction title with
  | nil => rfl
  | cons c title ih =>
    by_cases hlink : c = ']' ∧ ['('].isPrefixOf title
    · obtain ⟨rfl, hhead⟩ := hlink
      cases title with
      | nil => simp at hhead
      | cons d title =>
        obtain rfl : '(' = d := by simpa using hhead
        simp [afterText, splitAtText, escapeIndexLinkText]
    · have hskip : ¬ (c = ']' ∧
          ['('].isPrefixOf (escapeIndexLinkText title ++ ([']', '('] ++ rest))) := by
        rintro ⟨rfl, hhead⟩
        cases title with
        | nil => simp [escapeIndexLinkText] at hhead
        | cons d title =>
          rw [escape_cons] at hhead
          split at hhead
          · simp at hhead
          · exact hlink ⟨rfl, by simpa using hhead⟩
      have hslash : ∀ text, afterText [']', '('] ('\\' :: text) = afterText [']', '('] text :=
        fun text => afterText_skip fun h => absurd h.1 (by decide)
      have hright : afterText [']', '('] (c :: title) = afterText [']', '('] title :=
        afterText_skip hlink
      rw [hright, ← ih, escape_cons]
      split
      · exact (hslash _).trans (afterText_skip hskip)
      · exact afterText_skip hskip

theorem afterText_close (text rest : List Char) :
    afterText [')'] (escapeIndexLinkText text ++ rest) =
      (afterText [')'] text).elim (afterText [')'] rest) fun after =>
        some (escapeIndexLinkText after ++ rest) := by
  induction text with
  | nil => rfl
  | cons c text ih =>
    by_cases hclose : c = ')'
    · subst hclose
      simp [afterText, splitAtText, escapeIndexLinkText]
    · have hskip : ∀ text, afterText [')'] (c :: text) = afterText [')'] text :=
        fun text => afterText_skip fun h => hclose h.1
      have hslash : ∀ text, afterText [')'] ('\\' :: text) = afterText [')'] text :=
        fun text => afterText_skip fun h => absurd h.1 (by decide)
      rw [hskip, ← ih, escape_cons]
      split
      · exact (hslash _).trans (hskip _)
      · exact hskip _

theorem afterText_path {path : List Char} (h : ')' ∉ path) (rest : List Char) :
    afterText [')'] (path ++ ([')'] ++ rest)) = some rest := by
  induction path with
  | nil => simp [afterText, splitAtText]
  | cons c path ih =>
    rw [mem_cons, not_or] at h
    exact (afterText_skip fun heq => h.1 heq.1.symm).trans (ih h.2)

theorem isPrefixOf_escape {pat : List Char} (hpat : ∀ p ∈ pat, p ≠ '[' ∧ p ≠ ']' ∧ p ≠ '\\')
    (text rest : List Char) :
    pat.isPrefixOf (escapeIndexLinkText text ++ ([']', '('] ++ rest)) = pat.isPrefixOf text := by
  induction pat generalizing text with
  | nil => rfl
  | cons p pat ih =>
    rw [forall_mem_cons] at hpat
    obtain ⟨⟨hopen, hclose, hslash⟩, hpat⟩ := hpat
    cases text with
    | nil => simp [escapeIndexLinkText, isPrefixOf_cons_cons, hclose]
    | cons c text =>
      rw [escape_cons]
      split
      · rename_i hbrack
        have hne : p ≠ c := by
          rintro rfl
          exact hbrack.elim hopen hclose
        simp [isPrefixOf_cons_cons, beq_eq_false_iff_ne.mpr hslash,
          beq_eq_false_iff_ne.mpr hne]
      · exact congrArg ((p == c) && ·) (ih hpat text)

def isPathChar (c : Char) : Bool :=
  c != ')' && c != '\n' && c != '\r'

theorem isPathChar_encode (byte : UInt8) : (encodeIndexByte byte).all isPathChar := by
  have hall : (range 256).all (fun n =>
      (encodeIndexByte (UInt8.ofNat n)).all isPathChar) := by decide +kernel
  have := all_eq_true.mp hall byte.toNat (mem_range.mpr byte.toNat_lt)
  rwa [UInt8.ofNat_toNat] at this

theorem mem_intercalate {sep : List Char} {parts : List (List Char)} {c : Char}
    (h : c ∈ sep.intercalate parts) : c ∈ sep ∨ ∃ part ∈ parts, c ∈ part := by
  induction parts with
  | nil => simp at h
  | cons part parts ih =>
    cases parts with
    | nil => exact Or.inr ⟨part, mem_cons_self, by simpa using h⟩
    | cons next parts =>
      rw [intercalate_cons_cons, append_assoc, mem_append, mem_append] at h
      rcases h with h | h | h
      · exact Or.inr ⟨part, mem_cons_self, h⟩
      · exact Or.inl h
      · exact (ih h).imp_right fun h => h.imp fun _ h => ⟨mem_cons_of_mem _ h.1, h.2⟩

theorem isPathChar_indexPath (file : List Char) : (indexPath file).all isPathChar := by
  rw [all_eq_true]
  intro c hc
  rcases mem_intercalate hc with hsep | ⟨part, hpart, hc⟩
  · obtain rfl := mem_singleton.mp hsep
    rfl
  · obtain ⟨component, -, rfl⟩ := mem_map.mp hpart
    obtain ⟨byte, -, hc⟩ := mem_flatMap.mp hc
    exact all_eq_true.mp (isPathChar_encode byte) c hc

/-- The links of the projection's index and of a bundle's. -/
def indexPrefixes : List (List Char) := ["/".toList, "/pages/".toList]

theorem isPathChar_indexPrefixes :
    ∀ linkPrefix ∈ indexPrefixes, linkPrefix.all isPathChar := by
  decide +kernel

/-- The text of an entry behind its title. -/
def entryRest (linkPrefix : List Char) (row : IndexRow) : List Char :=
  linkPrefix ++ indexPath row.file ++
    ([')'] ++ if row.description = [] then [] else [' ', '-', ' '] ++ row.description)

variable {linkPrefix : List Char}

theorem indexLineIsEntry_entry (hpre : linkPrefix ∈ indexPrefixes) (row : IndexRow) :
    indexLineIsEntry (indexEntryLine linkPrefix row) = titleReadable row.title := by
  have hline : indexEntryLine linkPrefix row = ['*', ' ', '['] ++
        (escapeIndexLinkText row.title ++ ([']', '('] ++ entryRest linkPrefix row)) := by
    simp [indexEntryLine, entryRest, indexPath]
  have hpath : ')' ∉ linkPrefix ++ indexPath row.file := by
    intro hmem
    have hall : (linkPrefix ++ indexPath row.file).all isPathChar := by
      rw [all_append, isPathChar_indexPrefixes linkPrefix hpre, isPathChar_indexPath]
      rfl
    exact absurd (all_eq_true.mp hall _ hmem) (by decide)
  have hrest := afterText_path hpath
    (if row.description = [] then [] else [' ', '-', ' '] ++ row.description)
  have hshown : ((if row.description = [] then [] else [' ', '-', ' '] ++ row.description).isEmpty ||
      [' ', '-', ' '].isPrefixOf
        (if row.description = [] then [] else [' ', '-', ' '] ++ row.description)) := by
    split <;> rfl
  have hstar : ∀ text, ['*', ' ', '['].isPrefixOf (['*', ' ', '['] ++ text) :=
    fun text => isPrefixOf_iff_prefix.mpr (prefix_append _ text)
  have hdrop : ∀ text, (['*', ' ', '['] ++ text).drop 3 = text := fun _ => rfl
  have hdash : ∀ p ∈ [' ', '-', ' '], p ≠ '[' ∧ p ≠ ']' ∧ p ≠ '\\' := by simp
  rw [hline, indexLineIsEntry, hstar, hdrop, afterText_link, titleReadable, Option.bind_some,
    Bool.true_and]
  cases afterText [']', '('] row.title with
  | none =>
    rw [Option.elim_none, entryRest, hrest, Option.any_some, hshown]
    rfl
  | some after =>
    rw [Option.elim_some, afterText_close, Option.bind_some]
    cases afterText [')'] after with
    | none =>
      have hskip : ∀ text, afterText [')'] ([']', '('] ++ text) = afterText [')'] text :=
        fun text => (afterText_skip fun h => absurd h.1 (by decide)).trans
          (afterText_skip fun h => absurd h.1 (by decide))
      rw [Option.elim_none, hskip, entryRest, hrest, Option.any_some, hshown]
      rfl
    | some tail =>
      rw [Option.elim_some, Option.any_some, isPrefixOf_escape hdash, Option.all_some]
      simp

/-! ## The whole text -/

def Clean (text : List Char) : Prop := '\n' ∉ text ∧ '\r' ∉ text

theorem Clean.append {a b : List Char} (ha : Clean a) (hb : Clean b) : Clean (a ++ b) :=
  ⟨fun h => (mem_append.mp h).elim ha.1 hb.1, fun h => (mem_append.mp h).elim ha.2 hb.2⟩

theorem clean_of_path {text : List Char} (h : text.all isPathChar) : Clean text :=
  ⟨fun hmem => absurd (all_eq_true.mp h _ hmem) (by decide),
    fun hmem => absurd (all_eq_true.mp h _ hmem) (by decide)⟩

theorem clean_escape {text : List Char} (h : Clean text) : Clean (escapeIndexLinkText text) := by
  have hmem : ∀ c ∈ escapeIndexLinkText text, c = '\\' ∨ c ∈ text := by
    intro c hc
    obtain ⟨d, hd, hc⟩ := mem_flatMap.mp hc
    split at hc
    · rcases mem_cons.mp hc with rfl | hc
      · exact Or.inl rfl
      · exact Or.inr (mem_singleton.mp hc ▸ hd)
    · exact Or.inr (mem_singleton.mp hc ▸ hd)
  exact ⟨fun hc => (hmem _ hc).elim (by decide) h.1, fun hc => (hmem _ hc).elim (by decide) h.2⟩

/-- A sanitized field has no blank but single spaces, and none at its end. -/
theorem sanitize_words (s : List Char) : ∃ words : List (List Char),
    sanitizeIndexField s = [' '].intercalate words ∧
      ∀ word ∈ words, word ≠ [] ∧ ∀ c ∈ word, isWhitespace c = false := by
  exact ⟨_, rfl, fun word hword => Claims.of_mem_words hword⟩

theorem clean_sanitize (s : List Char) : Clean (sanitizeIndexField s) := by
  obtain ⟨words, hs, hwords⟩ := sanitize_words s
  have hblack : ∀ c ∈ sanitizeIndexField s, c = ' ' ∨ isWhitespace c = false := by
    intro c hc
    rcases mem_intercalate (hs ▸ hc) with hsep | ⟨word, hword, hc⟩
    · exact Or.inl (mem_singleton.mp hsep)
    · exact Or.inr ((hwords word hword).2 c hc)
  exact ⟨fun h => (hblack _ h).elim (by decide) (by decide),
    fun h => (hblack _ h).elim (by decide) (by decide)⟩

theorem sanitize_last {s : List Char} (h : sanitizeIndexField s ≠ []) :
    ∃ front c, sanitizeIndexField s = front ++ [c] ∧ isWhitespace c = false := by
  obtain ⟨words, hs, hwords⟩ := sanitize_words s
  rw [hs] at h ⊢
  clear hs
  induction words with
  | nil => simp at h
  | cons word words ih =>
    rw [forall_mem_cons] at hwords
    cases words with
    | nil =>
      rcases eq_nil_or_concat word with rfl | ⟨front, c, rfl⟩
      · exact absurd rfl hwords.1.1
      · exact ⟨front, c, by simp, hwords.1.2 c (by simp)⟩
    | cons next words =>
      have hne : [' '].intercalate (next :: words) ≠ [] := by
        have hnext := (hwords.2 next mem_cons_self).1
        cases words with
        | nil => simpa using hnext
        | cons _ _ => rw [intercalate_cons_cons]; simp
      obtain ⟨front, c, heq, hc⟩ := ih hne hwords.2
      exact ⟨word ++ [' '] ++ front, c, by
        rw [intercalate_cons_cons, heq]
        simp, hc⟩

theorem entry_clean (hpre : linkPrefix ∈ indexPrefixes)
    (row : IndexRow) : Clean (indexEntryLine linkPrefix (sanitizeIndexRow row)) := by
  have hpath := clean_of_path (isPathChar_indexPath row.file)
  have hlink := clean_of_path (isPathChar_indexPrefixes linkPrefix hpre)
  have htitle := clean_escape (clean_sanitize row.title)
  have hdescr := clean_sanitize row.description
  refine ((((((?_ : Clean _).append htitle).append ?_).append hlink).append hpath).append
    ?_).append ?_
  · exact ⟨by decide, by decide⟩
  · exact ⟨by decide, by decide⟩
  · exact ⟨by decide, by decide⟩
  · split
    · exact ⟨by simp, by simp⟩
    · exact Clean.append ⟨by decide, by decide⟩ hdescr

theorem entry_last (linkPrefix : List Char) (row : IndexRow) :
    ∃ front c, indexEntryLine linkPrefix (sanitizeIndexRow row) = front ++ [c] ∧
      isWhitespace c = false := by
  unfold indexEntryLine
  split
  · exact ⟨_, ')', (append_nil _), by decide⟩
  · rename_i hne
    obtain ⟨front, c, hdescr, hc⟩ := sanitize_last hne
    rw [sanitizeIndexRow, hdescr, ← append_assoc, ← append_assoc]
    exact ⟨_, c, rfl, hc⟩

/-- A text of lines, each with its line feed. -/
def unlines (shown : List (List Char)) : List Char :=
  shown.flatMap (· ++ ['\n'])

theorem lines_unlines {shown : List (List Char)} (h : ∀ line ∈ shown, Clean line) :
    lines (String.ofList (unlines shown)) = shown := by
  have hsplit : (unlines shown).splitOn '\n' = shown ++ [[]] := by
    induction shown with
    | nil => rfl
    | cons line shown ih =>
      rw [forall_mem_cons] at h
      rw [unlines, flatMap_cons, append_assoc, singleton_append,
        splitOn_append_cons_self_of_not_mem h.1.1]
      exact congrArg (line :: ·) (ih h.2)
  rw [lines, String.toList_ofList, hsplit, getLast?_concat, dropLast_concat]
  refine (map_congr_left fun line hline => if_neg fun hlast => ?_).trans (map_id shown)
  exact (h line hline).2 (mem_of_getLast? hlast)

def groupLines (linkPrefix : List Char) (group : List Char × List IndexRow) : List (List Char) :=
  (['#', '#', ' '] ++ group.1) :: [] :: (group.2.map (indexEntryLine linkPrefix) ++ [[]])

theorem indexSection_eq (linkPrefix : List Char) (group : List Char × List IndexRow) :
    indexSection linkPrefix group.1 group.2 = unlines (groupLines linkPrefix group) := by
  simp [indexSection, groupLines, unlines, flatMap_map]

/-- The sections that the renderer writes for `rows`, in their order. -/
def indexGroups (rows : List IndexRow) : List (List Char × List IndexRow) :=
  let entries := rows.map sanitizeIndexRow
  ((indexSpaces entries).map fun space => (space, indexGroup entries (some space))) ++
    if indexGroup entries none = [] then [] else [("Unfiled".toList, indexGroup entries none)]

def indexLines (linkPrefix : List Char) (rows : List IndexRow) : List (List Char) :=
  ((indexGroups rows).flatMap (groupLines linkPrefix)).dropLast

theorem unlines_flatMap {α : Type} (f : α → List (List Char)) (xs : List α) :
    unlines (xs.flatMap f) = xs.flatMap fun x => unlines (f x) :=
  flatMap_assoc

theorem render_groups (rows : List IndexRow) (linkPrefix : List Char) :
    renderIndexForEntries rows linkPrefix = trimEnd (indexHead ++ ['\n', '\n'] ++
        unlines ((indexGroups rows).flatMap (groupLines linkPrefix))) ++ ['\n'] := by
  rw [unlines_flatMap, renderIndexForEntries, renderIndexMarkdown, indexGroups]
  simp only [← indexSection_eq, flatMap_append, append_assoc]
  split <;> simp

theorem mem_indexGroup {entries : List IndexRow} {space : Option (List Char)} {row : IndexRow} :
    row ∈ indexGroup entries space ↔ row ∈ entries ∧ row.space = space := by
  rw [indexGroup, mem_mergeSort, mem_filter, decide_eq_true_iff]

theorem mem_indexSpaces {entries : List IndexRow} {space : List Char} :
    space ∈ indexSpaces entries ↔ ∃ row ∈ entries, row.space = some space := by
  rw [indexSpaces, mem_mergeSort, mem_dedup, mem_filterMap]

theorem mem_indexGroups {rows : List IndexRow} {group : List Char × List IndexRow}
    (h : group ∈ indexGroups rows) :
    Clean group.1 ∧ group.2 ≠ [] ∧ ∀ row ∈ group.2, row ∈ rows.map sanitizeIndexRow := by
  rcases mem_append.mp h with hspace | hunfiled
  · obtain ⟨space, hlist, rfl⟩ := mem_map.mp hspace
    obtain ⟨row, hrow, hof⟩ := mem_indexSpaces.mp hlist
    refine ⟨?_, ne_nil_of_mem (mem_indexGroup.mpr ⟨hrow, hof⟩),
      fun row hrow => (mem_indexGroup.mp hrow).1⟩
    obtain ⟨raw, -, rfl⟩ := mem_map.mp hrow
    obtain ⟨hmap, -⟩ := Option.filter_eq_some_iff.mp hof
    obtain ⟨name, -, rfl⟩ := Option.map_eq_some_iff.mp hmap
    exact clean_sanitize name
  · split at hunfiled
    · cases hunfiled
    · rename_i hne
      obtain rfl := mem_singleton.mp hunfiled
      exact ⟨⟨by simp, by simp⟩, hne, fun row hrow => (mem_indexGroup.mp hrow).1⟩

theorem grouped {rows : List IndexRow} {row : IndexRow} (h : row ∈ rows.map sanitizeIndexRow) :
    ∃ group ∈ indexGroups rows, row ∈ group.2 := by
  cases hspace : row.space with
  | some space =>
    exact ⟨_, mem_append_left _ (mem_map_of_mem (mem_indexSpaces.mpr ⟨row, h, hspace⟩)),
      mem_indexGroup.mpr ⟨h, hspace⟩⟩
  | none =>
    have hrow := mem_indexGroup.mpr ⟨h, hspace⟩
    refine ⟨("Unfiled".toList, indexGroup (rows.map sanitizeIndexRow) none),
      mem_append_right _ ?_, hrow⟩
    rw [if_neg (ne_nil_of_mem hrow)]
    exact mem_singleton_self _

/-- Of the last section only the blank line at its end is missing. -/
theorem indexLines_concat (linkPrefix : List Char) {rows : List IndexRow}
    (h : indexGroups rows ≠ []) : ∃ front row, row ∈ rows.map sanitizeIndexRow ∧
      indexLines linkPrefix rows = front ++ [indexEntryLine linkPrefix row] ∧
      (indexGroups rows).flatMap (groupLines linkPrefix) = indexLines linkPrefix rows ++ [[]] := by
  obtain ⟨groups, group, hgrou⟩ := (eq_nil_or_concat' _).resolve_left h
  obtain ⟨-, hne, hrows⟩ := mem_indexGroups
    (hgrou.symm ▸ mem_append_right groups (mem_singleton_self group))
  obtain ⟨entries, row, hents⟩ := (eq_nil_or_concat' _).resolve_left hne
  have hall : (indexGroups rows).flatMap (groupLines linkPrefix) =
      groups.flatMap (groupLines linkPrefix) ++ ((['#', '#', ' '] ++ group.1) :: [] ::
        entries.map (indexEntryLine linkPrefix)) ++ [indexEntryLine linkPrefix row] ++ [[]] := by
    rw [hgrou, flatMap_append, flatMap_singleton, groupLines, hents]
    simp
  have hlines := congrArg dropLast hall
  rw [dropLast_concat] at hlines
  have hrow : row ∈ group.2 :=
    hents.symm ▸ mem_append_right entries (mem_singleton_self row)
  exact ⟨_, row, hrows row hrow, hlines, hall.trans (congrArg (· ++ [[]]) hlines.symm)⟩

theorem render_eq (rows : List IndexRow) :
    renderIndexForEntries rows linkPrefix = indexHead ++ '\n' ::
      (if rows = [] then [] else '\n' :: unlines (indexLines linkPrefix rows)) := by
  rw [render_groups]
  by_cases hrows : rows = []
  · have hgrou : indexGroups [] = [] := by simp [indexGroups, indexSpaces, indexGroup]
    rw [hrows, hgrou, flatMap_nil, if_pos rfl]
    decide +kernel
  · obtain ⟨row, hrow⟩ := exists_mem_of_ne_nil _ (mt map_eq_nil_iff.mp hrows)
    obtain ⟨group, hgroup, -⟩ := grouped hrow
    obtain ⟨front, last, hlast, hlines, hall⟩ :=
      indexLines_concat linkPrefix (ne_nil_of_mem hgroup)
    obtain ⟨raw, -, rfl⟩ := mem_map.mp hlast
    obtain ⟨text, c, hentry, hc⟩ := entry_last linkPrefix raw
    have hends : indexHead ++ ['\n', '\n'] ++
        unlines ((indexGroups rows).flatMap (groupLines linkPrefix)) =
          indexHead ++ ['\n', '\n'] ++ unlines front ++ text ++ [c] ++ ['\n'] ++ ['\n'] := by
      rw [hall, hlines, hentry]
      simp [unlines]
    have hc : ¬ isWhitespace c := by simpa using hc
    rw [hends, trimEnd, rdropWhile_concat_pos _ _ _ (by decide),
      rdropWhile_concat_pos _ _ _ (by decide), rdropWhile_concat_neg _ _ _ hc,
      if_neg hrows, hlines, hentry]
    simp [unlines]

theorem indexLines_mem {rows : List IndexRow} {line : List Char}
    (h : line ∈ indexLines linkPrefix rows) :
    line = [] ∨ (∃ space, Clean space ∧ line = ['#', '#', ' '] ++ space) ∨
      ∃ row ∈ rows, line = indexEntryLine linkPrefix (sanitizeIndexRow row) := by
  obtain ⟨group, hgroup, hline⟩ := mem_flatMap.mp (mem_of_mem_dropLast h)
  obtain ⟨hclean, -, hrows⟩ := mem_indexGroups hgroup
  rcases mem_cons.mp hline with rfl | hline
  · exact Or.inr (Or.inl ⟨_, hclean, rfl⟩)
  rcases mem_cons.mp hline with rfl | hline
  · exact Or.inl rfl
  rcases mem_append.mp hline with hline | hline
  · obtain ⟨row, hrow, rfl⟩ := mem_map.mp hline
    obtain ⟨raw, hraw, rfl⟩ := mem_map.mp (hrows row hrow)
    exact Or.inr (Or.inr ⟨raw, hraw, rfl⟩)
  · exact Or.inl (mem_singleton.mp hline)

theorem entry_mem_indexLines (linkPrefix : List Char) {rows : List IndexRow} {row : IndexRow}
    (h : row ∈ rows) :
    indexEntryLine linkPrefix (sanitizeIndexRow row) ∈ indexLines linkPrefix rows := by
  obtain ⟨group, hgroup, hrow⟩ := grouped (mem_map_of_mem h)
  obtain ⟨-, -, -, -, hall⟩ := indexLines_concat linkPrefix (ne_nil_of_mem hgroup)
  have hmem : indexEntryLine linkPrefix (sanitizeIndexRow row) ∈
      (indexGroups rows).flatMap (groupLines linkPrefix) :=
    mem_flatMap.mpr ⟨group, hgroup, mem_cons_of_mem _ (mem_cons_of_mem _
      (mem_append_left _ (mem_map_of_mem hrow)))⟩
  rw [hall] at hmem
  exact (mem_append.mp hmem).resolve_right (by simp [indexEntryLine])

theorem indexLines_head (linkPrefix : List Char) {rows : List IndexRow} (h : rows ≠ []) :
    ∃ rest, unlines (indexLines linkPrefix rows) = '#' :: rest := by
  obtain ⟨row, hrow⟩ := exists_mem_of_ne_nil _ (mt map_eq_nil_iff.mp h)
  obtain ⟨group, hgroup, -⟩ := grouped hrow
  cases hgrou : indexGroups rows with
  | nil => rw [hgrou] at hgroup; cases hgroup
  | cons first groups =>
    rw [indexLines, hgrou, flatMap_cons]
    exact ⟨_, rfl⟩

theorem generated_iff (hpre : linkPrefix ∈ indexPrefixes)
    {rows : List IndexRow} (hne : rows ≠ []) :
    indexBodyIsGenerated (unlines (indexLines linkPrefix rows)) ↔
      ∀ row ∈ rows, titleReadable (sanitizeIndexField row.title) := by
  have hclean : ∀ line ∈ indexLines linkPrefix rows, Clean line := by
    intro line hline
    rcases indexLines_mem hline with rfl | ⟨space, hspace, rfl⟩ | ⟨row, -, rfl⟩
    · exact ⟨not_mem_nil, not_mem_nil⟩
    · exact Clean.append ⟨by decide, by decide⟩ hspace
    · exact entry_clean hpre row
  have hstar : ∀ row, (['#', '#', ' '].isPrefixOf (indexEntryLine linkPrefix row)) = false :=
    fun _ => rfl
  have hshown : ∀ row ∈ rows, indexEntryLine linkPrefix (sanitizeIndexRow row) ∈
      (indexLines linkPrefix rows).filter fun line => !line.all isWhitespace :=
    fun row hrow => mem_filter.mpr ⟨entry_mem_indexLines linkPrefix hrow, rfl⟩
  rw [indexBodyIsGenerated, lines_unlines hclean, Bool.and_eq_true, all_eq_true]
  constructor
  · rintro ⟨hall, -⟩ row hrow
    have hline := hall _ (hshown row hrow)
    rwa [hstar, Bool.false_or, indexLineIsEntry_entry hpre] at hline
  · intro hread
    obtain ⟨row, hrow⟩ := exists_mem_of_ne_nil rows hne
    refine ⟨?_, Bool.or_eq_true_iff.mpr (Or.inl (any_eq_true.mpr ⟨_, hshown row hrow, ?_⟩))⟩
    · intro line hline
      obtain ⟨hline, hblank⟩ := mem_filter.mp hline
      rcases indexLines_mem hline with rfl | ⟨space, -, rfl⟩ | ⟨row, hrow, rfl⟩
      · cases hblank
      · rfl
      · rw [hstar, Bool.false_or, indexLineIsEntry_entry hpre]
        exact hread row hrow
    · rw [hstar]
      rfl

/-- The index that Wenlan writes passes its own test exactly when every title can be read back. -/
theorem ownsIndex_render_iff {yamlKeys : List Char → List String}
    (hyaml : yamlKeys "\nokf_version: \"0.2\"".toList = ["okf_version"])
    (hpre : linkPrefix ∈ indexPrefixes) (rows : List IndexRow) :
    ownsIndex yamlKeys (renderIndexForEntries rows linkPrefix) = true ↔
      ∀ row ∈ rows, titleReadable (sanitizeIndexField row.title) = true := by
  rw [render_eq]
  by_cases hne : rows = []
  · subst hne
    have hsplit : splitFrontmatter (indexHead ++ ['\n']) =
        some ("\nokf_version: \"0.2\"".toList, []) := by decide +kernel
    rw [if_pos rfl, ownsIndex, hsplit, Option.any_some, hyaml]
    simp
    decide +kernel
  · have hsplit : splitFrontmatter (indexHead ++
        '\n' :: '\n' :: unlines (indexLines linkPrefix rows)) =
        some ("\nokf_version: \"0.2\"".toList, unlines (indexLines linkPrefix rows)) := by
      obtain ⟨rest, hrest⟩ := indexLines_head linkPrefix hne
      rw [hrest]
      rfl
    rw [if_neg hne, ownsIndex, hsplit, Option.any_some, hyaml, ← generated_iff hpre hne]
    simp

theorem ownsIndex_parentheses : ownsIndex (fun _ => ["okf_version"]) (renderIndexForEntries
      [⟨"On [a] (b)".toList, "notes/a b.md".toList, "A page.".toList, none⟩] "/".toList) = true :=
  (ownsIndex_render_iff rfl List.mem_cons_self _).mpr (by decide +kernel)

/-- Of a title that holds a link the test reads no more than that. -/
theorem ownsIndex_linked_title : ownsIndex (fun _ => ["okf_version"]) (renderIndexForEntries
      [⟨"a](b) c".toList, "a.md".toList, [], none⟩] "/".toList) = false := by
  decide +kernel

end Wenlan.Projection
