import Wenlan.Temporal.Grounding
/-!
# The patches and the places

Where the phrases stand in a text, that no two of them overlap, and that the
patches applied from the back write one note at each place where a phrase that
can be grounded ends.
-/

namespace Wenlan.Temporal

open Support.TextScan Support.Calendar List

section Occurrences

variable (chars : UnicodeClasses)

theorem headIs_reverse_append {a past : List Char} (ne : a ≠ [])
    (inWord : ∀ x ∈ a, chars.isWord x) :
    Cursor.headIs chars.isWord (a.reverse ++ past) := by
  cases turned : a.reverse with
  | nil => exact absurd (reverse_eq_nil_iff.1 turned) ne
  | cons x tail =>
    apply inWord x
    rw [← mem_reverse, turned]
    exact mem_cons_self

theorem re_apart (day : RelativeDay) : Apart (day.re chars) := by
  intro past a b hit ne reads inside
  obtain ⟨⟨⟩, after⟩ := hit
  obtain ⟨read, split, -, spelled, -, -⟩ :=
    (wholeWord_eq_some_iff chars day.word_letters day.word_ne_nil _ _ _).1 reads
  have count := congrArg length split
  simp only [length_append] at count inside
  have front : a = read.take a.length := by
    have taken := congrArg (take a.length) split
    rw [take_left, take_append_of_le_length (by omega)] at taken
    exact taken
  have inWord : ∀ x ∈ a, chars.isWord x := by
    intro x mem
    rw [front] at mem
    exact Spelled.isWord chars spelled x (mem_of_mem_take mem)
  cases other : day.re chars ⟨a.reverse ++ past, b⟩ with
  | none => rfl
  | some hit =>
    obtain ⟨⟨⟩, after'⟩ := hit
    obtain ⟨_, _, _, _, opens, _⟩ :=
      (wholeWord_eq_some_iff chars day.word_letters day.word_ne_nil _ _ _).1 other
    rw [headIs_reverse_append chars ne inWord] at opens
    cases opens

/-- A phrase in a text: what stands before it, the phrase and what stands behind it. -/
structure Stands (day : RelativeDay) (content a read b : List Char) : Prop where
  split : content = a ++ (read ++ b)
  spelled : Spelled day read
  opens : Cursor.headIs chars.isWord a.reverse = false
  closes : Cursor.headIs chars.isWord b = false

theorem mem_findIter_re (day : RelativeDay) (content : List Char) (m : Match Unit) :
    m ∈ findIter (day.re chars) content ↔
      ∃ a read b, Stands chars day content a read b ∧ m.start = a.length ∧
        m.stop = a.length + read.length := by
  rw [mem_findIter_iff (re_apart chars day)]
  constructor
  · rintro ⟨a, b, after, split, b_ne, start, reads, stop⟩
    obtain ⟨read, split', -, spelled, opens, closes⟩ :=
      (wholeWord_eq_some_iff chars day.word_letters day.word_ne_nil _ _ _).1 reads
    have count := congrArg length split'
    rw [length_append] at count
    refine ⟨a, read, after.rest, ⟨?_, spelled, opens, closes⟩, start, by omega⟩
    rw [split, split']
  · rintro ⟨a, read, b, stands, start, stop⟩
    have ne := stands.spelled.ne_nil
    refine ⟨a, read ++ b, ⟨read.reverse ++ a.reverse, b⟩, stands.split, ?_, start, ?_, ?_⟩
    · intro empty
      exact ne (append_eq_nil_iff.1 empty).1
    · exact (wholeWord_eq_some_iff chars day.word_letters day.word_ne_nil _ _ _).2
        ⟨read, rfl, rfl, stands.spelled, stands.opens, stands.closes⟩
    · rw [length_append]
      simp only
      omega

variable {chars}

theorem Stands.le_start {day day' : RelativeDay} {content a read b a' read' b' : List Char}
    (stands : Stands chars day content a read b)
    (stands' : Stands chars day' content a' read' b') (later : a.length < a'.length) :
    a.length + read.length ≤ a'.length := by
  by_contra inside
  have same := stands.split.symm.trans stands'.split
  have front : a' = a ++ read.take (a'.length - a.length) := by
    have taken := congrArg (take a'.length) same
    rw [take_left, take_append, take_of_length_le (by omega),
      take_append_of_le_length (by omega)] at taken
    exact taken.symm
  have ne : read.take (a'.length - a.length) ≠ [] := by
    intro empty
    have count := congrArg length empty
    rw [length_take, length_nil] at count
    omega
  have opens := stands'.opens
  rw [front, reverse_append, headIs_reverse_append chars ne] at opens
  · cases opens
  · intro x mem
    exact stands.spelled.isWord chars x (mem_of_mem_take mem)

theorem takeWhile_append_closed {read b : List Char} (inWord : ∀ x ∈ read, chars.isWord x)
    (closes : Cursor.headIs chars.isWord b = false) :
    (read ++ b).takeWhile chars.isWord = read := by
  induction read with
  | nil =>
    cases b with
    | nil => rfl
    | cons c b => 
      have off : chars.isWord c = false := closes
      simp [off]
  | cons x read ih =>
    have first := inWord x mem_cons_self
    rw [cons_append, takeWhile_cons, if_pos first,
      ih fun y mem => inWord y (mem_cons_of_mem _ mem)]

theorem Stands.same_day {day day' : RelativeDay} {content a read b a' read' b' : List Char}
    (stands : Stands chars day content a read b)
    (stands' : Stands chars day' content a' read' b') (same : a.length = a'.length) :
    day = day' := by
  have split := stands.split.symm.trans stands'.split
  have parts := append_inj split same
  have run := takeWhile_append_closed (stands.spelled.isWord chars) stands.closes
  have run' := takeWhile_append_closed (stands'.spelled.isWord chars) stands'.closes
  rw [parts.2, run'] at run
  have spelled := stands'.spelled
  rw [run] at spelled
  exact spelled_unique stands.spelled spelled

variable (chars)

/-- A phrase ends at a place when it stands right before it. -/
theorem endsAt_iff_stands (day : RelativeDay) (a b : List Char) :
    endsAt chars day a.reverse b ↔
      ∃ a₀ read, a = a₀ ++ read ∧ Stands chars day (a ++ b) a₀ read b := by
  rw [endsAt_iff]
  constructor
  · rintro ⟨spelled, closes⟩
    refine ⟨(a.reverse.dropWhile chars.isWord).reverse, runBefore chars a.reverse, ?_, ?_, spelled,
      ?_, closes⟩
    · rw [runBefore, ← reverse_append, takeWhile_append_dropWhile, reverse_reverse]
    · rw [runBefore, ← append_assoc, ← reverse_append, takeWhile_append_dropWhile,
        reverse_reverse]
    · rw [reverse_reverse]
      cases left : a.reverse.dropWhile chars.isWord with
      | nil => rfl
      | cons c tail =>
        have off := head_dropWhile_not chars.isWord (l := a.reverse) (by rw [left]; simp)
        have off' : chars.isWord c = false := by simpa [left] using off
        exact off'
  · rintro ⟨a₀, read, split, stands⟩
    have inWord : ∀ x ∈ read.reverse, chars.isWord x := by
      intro x mem
      exact stands.spelled.isWord chars x (mem_reverse.1 mem)
    have run := takeWhile_append_closed inWord stands.opens
    rw [← reverse_append, ← split] at run
    rw [runBefore, run, reverse_reverse]
    exact ⟨stands.spelled, stands.closes⟩

end Occurrences

/-! ## The notes the patches write -/

section Notes

variable (chars : UnicodeClasses)

/-- A match whose phrase is neither possessive nor annotated. -/
def guardsPass (content : List Char) (m : Match Unit) : Bool :=
  !possessive (content.drop m.stop) && !alreadyGrounded chars (content.drop m.stop)

/-- The patches of a phrase without the text they repeat. -/
def notesOf (content : List Char) (day : RelativeDay) (date : NaiveDate) : List Note :=
  ((findIter (day.re chars) content).filter (guardsPass chars content)).map fun m =>
    ⟨m.start, m.stop, dateNote date⟩

def toPatch (content : List Char) (n : Note) : Patch :=
  ⟨n.start, n.stop, slice content n.start n.stop ++ n.note⟩

theorem patchesOf_eq (content : List Char) (day : RelativeDay) (date : NaiveDate) :
    patchesOf chars content (day.re chars) date =
      (notesOf chars content day date).map (toPatch content) := by
  unfold patchesOf notesOf
  rw [map_map, ← filterMap_eq_map, filterMap_filter]
  apply filterMap_congr
  intro m _
  cases apostrophe : possessive (content.drop m.stop) with
  | true => simp [guardsPass, apostrophe]
  | false =>
    cases annotated : alreadyGrounded chars (content.drop m.stop) with
    | true => simp [guardsPass, annotated]
    | false => simp [guardsPass, apostrophe, annotated, toPatch]

def allNotes (content : List Char) (dateOf : RelativeDay → NaiveDate) : List Note :=
  allDays.flatMap fun day => notesOf chars content day (dateOf day)

variable {chars}

theorem mem_notesOf {content : List Char} {day : RelativeDay} {date : NaiveDate} {n : Note} :
    n ∈ notesOf chars content day date ↔ ∃ a read b, Stands chars day content a read b ∧
        n = ⟨a.length, a.length + read.length, dateNote date⟩ ∧
        possessive b = false ∧ alreadyGrounded chars b = false := by
  rw [notesOf, mem_map]
  constructor
  · rintro ⟨m, mem, same⟩
    obtain ⟨found, passes⟩ := mem_filter.1 mem
    obtain ⟨a, read, b, stands, start, stop⟩ := (mem_findIter_re chars day content m).1 found
    have behind : content.drop m.stop = b := by
      rw [stands.split, stop, ← append_assoc, ← length_append, drop_left]
    simp only [guardsPass, behind, Bool.and_eq_true, Bool.not_eq_true'] at passes
    refine ⟨a, read, b, stands, ?_, passes.1, passes.2⟩
    rw [← same, start, stop]
  · rintro ⟨a, read, b, stands, same, straight, bare⟩
    refine ⟨⟨a.length, a.length + read.length, ()⟩, ?_, same.symm⟩
    apply mem_filter.2
    refine ⟨(mem_findIter_re chars day content _).2 ⟨a, read, b, stands, rfl, rfl⟩, ?_⟩
    have behind : content.drop (a.length + read.length) = b := by
      rw [stands.split, ← append_assoc, ← length_append, drop_left]
    simp only [guardsPass, behind, straight, bare]
    decide

variable {content : List Char} {dateOf : RelativeDay → NaiveDate}

theorem mem_allNotes {n : Note} :
    n ∈ allNotes chars content dateOf ↔ ∃ day, n ∈ notesOf chars content day (dateOf day) := by
  rw [allNotes, mem_flatMap]
  constructor
  · rintro ⟨day, _, mem⟩
    exact ⟨day, mem⟩
  · rintro ⟨day, mem⟩
    exact ⟨day, by cases day <;> simp [allDays], mem⟩

theorem allNotes_within {n : Note} (mem : n ∈ allNotes chars content dateOf) :
    n.start < n.stop ∧ n.stop ≤ content.length := by
  obtain ⟨day, mem⟩ := mem_allNotes.1 mem
  obtain ⟨a, read, b, stands, rfl, -, -⟩ := mem_notesOf.1 mem
  have long : 0 < read.length := length_pos_iff.2 stands.spelled.ne_nil
  have count := congrArg length stands.split
  simp only [length_append] at count ⊢
  omega

theorem allNotes_apart {n n' : Note} (mem : n ∈ allNotes chars content dateOf)
    (mem' : n' ∈ allNotes chars content dateOf) (later : n.start < n'.start) :
    n.stop ≤ n'.start := by
  obtain ⟨day, mem⟩ := mem_allNotes.1 mem
  obtain ⟨day', mem'⟩ := mem_allNotes.1 mem'
  obtain ⟨a, read, b, stands, rfl, -, -⟩ := mem_notesOf.1 mem
  obtain ⟨a', read', b', stands', rfl, -, -⟩ := mem_notesOf.1 mem'
  exact stands.le_start stands' later

theorem notesOf_pairwise (day : RelativeDay) (date : NaiveDate) :
    (notesOf chars content day date).Pairwise fun n n' => n.start ≠ n'.start := by
  rw [notesOf, pairwise_map]
  apply List.Pairwise.filter
  apply List.Pairwise.imp _ (findFrom_pairwise 0 0 [] content)
  intro m m' later
  simp only
  omega

theorem allNotes_pairwise :
    (allNotes chars content dateOf).Pairwise fun n n' => n.start ≠ n'.start := by
  rw [allNotes, pairwise_flatMap]
  refine ⟨fun day _ => notesOf_pairwise day _, ?_⟩
  have distinct : allDays.Pairwise fun day day' => day ≠ day' := by decide
  apply List.Pairwise.imp _ distinct
  intro day day' differ n mem n' mem' same
  obtain ⟨a, read, b, stands, rfl, -, -⟩ := mem_notesOf.1 mem
  obtain ⟨a', read', b', stands', rfl, -, -⟩ := mem_notesOf.1 mem'
  exact differ (stands.same_day stands' same)

def inOrder (notes : List Note) : List Note :=
  (notes.mergeSort fun p q => decide (q.start ≤ p.start)).reverse

theorem mem_inOrder {notes : List Note} {n : Note} : n ∈ inOrder notes ↔ n ∈ notes := by
  rw [inOrder, mem_reverse]
  exact (mergeSort_perm _ _).mem_iff

theorem inOrder_ordered : Ordered (inOrder (allNotes chars content dateOf)) := by
  have sorted : ((allNotes chars content dateOf).mergeSort
      fun p q => decide (q.start ≤ p.start)).Pairwise fun p q => q.start ≤ p.start := by
    have order := @pairwise_mergeSort Note (fun p q : Note => decide (q.start ≤ p.start))
      (fun a b c h h' => by simp at h h' ⊢; omega)
      (fun a b => by simp only [Bool.or_eq_true, decide_eq_true_eq]; omega)
      (allNotes chars content dateOf)
    exact order.imp of_decide_eq_true
  have distinct : ((allNotes chars content dateOf).mergeSort
      fun p q => decide (q.start ≤ p.start)).Pairwise fun p q => p.start ≠ q.start :=
    (mergeSort_perm _ _).symm.pairwise allNotes_pairwise Ne.symm
  unfold Ordered inOrder
  rw [pairwise_reverse]
  apply (sorted.and distinct).imp_of_mem
  intro p q mem mem' order
  have member := (mergeSort_perm _ _).mem_iff.1 mem
  have member' := (mergeSort_perm _ _).mem_iff.1 mem'
  exact allNotes_apart member' member (by have := order.1; have := order.2; omega)

variable (chars dateOf) in
/-- What the notes write at a place is what can be grounded there. -/
theorem notedAt_eq_noteAt {a b : List Char} (split : content = a ++ b) :
    notedAt (inOrder (allNotes chars content dateOf)) a.length =
      noteAt chars dateOf a.reverse b := by
  have ends (n : Note) (mem : n ∈ allNotes chars content dateOf) (stop : n.stop = a.length) :
      n.note = noteAt chars dateOf a.reverse b := by
    obtain ⟨day, mem⟩ := mem_allNotes.1 mem
    obtain ⟨a₀, read, b₀, stands, rfl, straight, bare⟩ := mem_notesOf.1 mem
    have parts := append_inj ((split.symm.trans stands.split).trans
      (append_assoc _ _ _).symm) (by rw [length_append]; exact stop.symm)
    have here : groundable chars day a.reverse b := by
      apply (groundable_iff _ _ _ _).2
      rw [parts.2]
      refine ⟨(endsAt_iff_stands chars day a b₀).2 ⟨a₀, read, parts.1, ?_⟩, straight, bare⟩
      rw [← parts.2, ← split, parts.2]
      exact stands
    rw [noteAt_of_groundable chars here]
  unfold notedAt
  cases found : (inOrder (allNotes chars content dateOf)).find? fun n => n.stop = a.length with
  | some n =>
    have mem := mem_inOrder.1 (mem_of_find?_eq_some found)
    have stop := find?_some found
    exact ends n mem (of_decide_eq_true stop)
  | none =>
    symm
    apply (noteAt_eq_nil_iff chars).2
    intro day
    by_contra here
    rw [Bool.not_eq_false] at here
    obtain ⟨ended, straight, bare⟩ := (groundable_iff _ _ _ _).1 here
    obtain ⟨a₀, read, split', stands⟩ := (endsAt_iff_stands chars day a b).1 ended
    rw [← split] at stands
    have mem : ⟨a₀.length, a₀.length + read.length, dateNote (dateOf day)⟩ ∈
        allNotes chars content dateOf :=
      mem_allNotes.2 ⟨day, mem_notesOf.2 ⟨a₀, read, b, stands, rfl, straight, bare⟩⟩
    have missing := find?_eq_none.1 found _ (mem_inOrder.2 mem)
    apply missing
    rw [split', length_append]
    exact decide_eq_true rfl

end Notes

end Wenlan.Temporal
