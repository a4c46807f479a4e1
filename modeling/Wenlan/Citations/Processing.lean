import Wenlan.Citations.Markers
import Wenlan.Support.Fallible
/-!
# Processing a cited body

`process_citation_output`: the markers of a body are cleaned and each one that is
left becomes a record.  The records are numbered by a later reading of the cleaned
body, so they agree with it exactly when no removal joined a marker out of range.
-/

namespace Wenlan.Citations

open Support.TextScan Support.Fallible List
open Claims (isWhitespace trimBlanks)
open Temporal (UnicodeClasses asciiClasses)
open Support.IntegerText (digitsValue)
open Token (write)

structure NumberedSource where
  sourceKind : String
  locator : String
  text : List Char

inductive Status
  | verified
  | unverified

inductive Scope
  | sentence
  | paragraph

/-- The record of one marker occurrence. -/
structure PageCitation (Score : Type) where
  occurrence : Nat
  marker : Nat
  sourceKind : String
  locator : String
  score : Score
  status : Status
  scope : Scope

/-- Per-body citation counts. -/
structure CitationStats where
  verified : Nat
  unverified : Nat
  stripped : Nat

inductive Fault
  | underflow
  | overflow
  | outOfBounds

/-- `n - 1` on `u32`. -/
def pred (n : Nat) : Except Fault Nat :=
  if n = 0 then .error .underflow else .ok (n - 1)

/-- `occurrence += 1` on `u32`. -/
def next (occurrence : Nat) : Except Fault Nat :=
  if occurrence + 1 < 2 ^ 32 then .ok (occurrence + 1) else .error .overflow

/-- `body[start..stop]` -/
def sliceOf (body : List Char) (range : Nat × Nat) : Except Fault (List Char) :=
  if range.1 ≤ range.2 ∧ range.2 ≤ body.length then .ok (slice body range.1 range.2)
  else .error .outOfBounds

/-- `(?m)[.!?]+\s+` -/
def RE_SENTENCE_END : Pattern Unit := fun c => do
  let (_, c) ← c.many1 fun c => c = '.' || c = '!' || c = '?'
  let (_, c) ← c.many1 isWhitespace
  pure ((), c)

/-- `\n\s*\n`: the white space is read up to its last line end. -/
def RE_PARAGRAPH_BREAK : Pattern Unit := fun c => do
  let (_, c) ← c.one (· = '\n')
  let blank := ((c.rest.takeWhile isWhitespace).reverse.dropWhile (· ≠ '\n')).reverse
  if blank = [] then none
  else pure ((), ⟨blank.reverse ++ c.past, c.rest.drop blank.length⟩)

def sentenceSpans (body : List Char) : List (Nat × Nat) :=
  spans RE_SENTENCE_END body

def paraSpans (body : List Char) : List (Nat × Nat) :=
  spans RE_PARAGRAPH_BREAK body

/-- `spans.iter().rposition(|s| s.0 <= pos).unwrap_or(0)` -/
def spanIdx (spans : List (Nat × Nat)) (pos : Nat) : Nat :=
  match spans.reverse.findIdx? fun s => s.1 ≤ pos with
  | none => 0
  | some i => spans.length - 1 - i

/-- The number of each marker and the place in the bare body it was taken from. -/
def markerPositions : Nat → List Token → List (Nat × Nat)
  | _, [] => []
  | pos, .char _ :: tokens => markerPositions (pos + 1) tokens
  | pos, .marker digits :: tokens => (readU32 digits, pos) :: markerPositions pos tokens

def bareBody (tokens : List Token) : List Char :=
  write (keepMarkers (fun _ => false) tokens)

/-- What the loop over the markers has built. -/
structure Tally (Score : Type) where
  citations : List (PageCitation Score) := []
  occurrence : Nat := 0
  verified : Nat := 0
  unverified : Nat := 0

def Tally.count {Score : Type} (tally : Tally Score) (status : Status) (markers : Nat) :
    Tally Score :=
  match status with
  | .verified => { tally with verified := tally.verified + markers }
  | .unverified => { tally with unverified := tally.unverified + markers }

section Process

variable {Score : Type} (chars : UnicodeClasses)
  -- `bidirectional_support` and its comparison with `0.5`
  (bidirectionalSupport : List Char → List Char → Score) (supports : Score → Bool)
  (sources : List NumberedSource)

def union (group : List (Nat × Nat)) : Except Fault (List Char) := do
  let cited ← group.mapM fun m => (sources[·]?) <$> pred m.1
  pure (['\n'].intercalate (cited.filterMap (·.map NumberedSource.text)))

/-- The verdict on a group at position `pos` of the span `range`, and the text it rests on. -/
def verdict (bare union : List Char) (range : Nat × Nat) (pos : Nat) :
    Except Fault (Status × Scope × List Char) := do
  let sentence ← trimBlanks <$> sliceOf bare range
  if supports (bidirectionalSupport sentence union) then
    pure (.verified, .sentence, sentence)
  else
    let paragraph := ((paraSpans bare).reverse.find? fun p => p.1 ≤ pos).getD (0, bare.length)
    let paragraph ← trimBlanks <$> sliceOf bare paragraph
    if supports (bidirectionalSupport paragraph union) then
      pure (.verified, .paragraph, paragraph)
    else
      pure (.unverified, .paragraph, paragraph)

/-- The record of one marker, when it has a source. -/
def cite (status : Status) (scope : Scope) (claimText : List Char) (tally : Tally Score)
    (m : Nat × Nat) : Except Fault (Tally Score) := do
  let occurrence ← next tally.occurrence
  let i ← pred m.1
  match sources[i]? with
  | none => pure { tally with occurrence }
  | some src => pure { tally with
      occurrence
      citations := tally.citations ++ [{
        occurrence
        marker := m.1
        sourceKind := src.sourceKind
        locator := src.locator
        score := bidirectionalSupport claimText src.text
        status
        scope }] }

/-- The markers of one sentence. -/
def processGroup (bare : List Char) (tally : Tally Score) (group : List (Nat × Nat)) :
    Except Fault (Tally Score) := do
  let pos := (group.head?.map (·.2)).getD 0
  let range ← match (sentenceSpans bare)[spanIdx (sentenceSpans bare) pos]? with
    | none => .error .outOfBounds
    | some range => .ok range
  let union ← union sources group
  let (status, scope, claimText) ← verdict bidirectionalSupport supports bare union range pos
  group.foldlM (cite bidirectionalSupport sources status scope claimText)
    (tally.count status group.length)

/-- The returned body, its records and the counts. -/
structure Output (Score : Type) where
  body : List Char
  citations : List (PageCitation Score)
  stats : CitationStats

def processCitationOutput (body : List Char) : Except Fault (Output Score) := do
  let normalized := normalizeMarkers chars body
  let (cleanBody, stripped) := stripOutOfRange chars normalized sources.length
  let bare := bareBody (tokens chars cleanBody)
  let sentences := sentenceSpans bare
  let groups := (markerPositions 0 (tokens chars cleanBody)).splitBy fun m m' =>
    spanIdx sentences m.2 = spanIdx sentences m'.2
  let tally ← groups.foldlM (processGroup bidirectionalSupport supports sources bare) {}
  pure ⟨cleanBody, tally.citations, tally.verified, tally.unverified, stripped⟩

end Process

/-! ## When the records agree with the body -/

/-- The records of a body are its markers, one by one, and each names one of the
`numSources` sources. -/
structure Consistent {Score : Type} (chars : UnicodeClasses) (numSources : Nat)
    (out : Output Score) : Prop where
  inRange : ∀ digits ∈ markers chars out.body, 1 ≤ readU32 digits ∧ readU32 digits ≤ numSources
  counted : out.citations.length = (markers chars out.body).length
  verdicts : out.citations.length = out.stats.verified + out.stats.unverified
  records : out.citations.map (fun c => (c.occurrence, c.marker)) =
    (markers chars out.body).mapIdx fun i digits => (i + 1, readU32 digits)

/-- What a removal leaves of a text with tight markers names sources: markers in
range are read alike by both integer types, digits joined between brackets are in
range, and `u32` counts them. -/
structure NamesSources (chars : UnicodeClasses) (numSources : Nat) (text : List Char) : Prop where
  kept : ∀ digits, .marker digits ∈ tokens chars text → inRange numSources digits = true →
    readU32 digits = (readUsize digits).getD 0
  joined : ∀ digits, Joins chars (inRange numSources) (tokens chars text) digits →
    1 ≤ readU32 digits ∧ readU32 digits ≤ numSources
  few : (remaining chars (inRange numSources) (tokens chars text)).length < 2 ^ 32

section Counting

theorem pred_eq_ok_iff {n i : Nat} : pred n = .ok i ↔ n = i + 1 := by
  unfold pred
  split_ifs with hzero
  · apply iff_of_false
    · intro h
      cases h
    · omega
  · rw [Except.ok.injEq]
    omega

theorem next_eq_ok_iff {n i : Nat} : next n = .ok i ↔ n + 1 < 2 ^ 32 ∧ i = n + 1 := by
  unfold next
  split_ifs with hfits
  · rw [Except.ok.injEq]
    omega
  · apply iff_of_false
    · intro h
      cases h
    · omega

variable {Score : Type}

/-- The number of each record with its place in the order. -/
def shown (tally : Tally Score) : List (Nat × Nat) :=
  tally.citations.map fun c => (c.marker, c.occurrence)

structure Recorded (numSources : Nat) (numbers : List Nat) (tally tally' : Tally Score) :
    Prop where
  occurrence : tally'.occurrence = tally.occurrence + numbers.length
  shown : shown tally' = shown tally ++
    (numbers.zipIdx (tally.occurrence + 1)).filter fun m => decide (m.1 ≤ numSources)

namespace Recorded

variable {numSources : Nat} {numbers numbers' : List Nat} {tally tally' tally'' : Tally Score}

theorem refl (tally : Tally Score) : Recorded numSources [] tally tally where
  occurrence := rfl
  shown := by simp

theorem trans (h : Recorded numSources numbers tally tally')
    (h' : Recorded numSources numbers' tally' tally'') :
    Recorded numSources (numbers ++ numbers') tally tally'' where
  occurrence := by
    rw [h'.occurrence, h.occurrence, length_append]
    omega
  shown := by
    have hplace : tally.occurrence + numbers.length + 1 = tally.occurrence + 1 + numbers.length := by
      omega
    rw [h'.shown, h.shown, h.occurrence, hplace, zipIdx_append, filter_append,
      append_assoc]

end Recorded

/-- Whether the markers with these numbers can be counted on from `occurrence`. -/
def Countable (occurrence : Nat) (numbers : List Nat) : Prop :=
  (∀ n ∈ numbers, n ≠ 0) ∧ (numbers ≠ [] → occurrence + numbers.length < 2 ^ 32)

theorem countable_append {occurrence : Nat} {numbers numbers' : List Nat} :
    Countable occurrence (numbers ++ numbers') ↔
      Countable occurrence numbers ∧ Countable (occurrence + numbers.length) numbers' := by
  unfold Countable
  simp only [mem_append, length_append, ne_eq, append_eq_nil_iff]
  constructor
  · rintro ⟨hpos, hfits⟩
    refine ⟨⟨fun n hmem => hpos n (.inl hmem), ?_⟩, fun n hmem => hpos n (.inr hmem), ?_⟩
    · intro hne
      have := hfits fun hnil => hne hnil.1
      omega
    · intro hne
      have := hfits fun hnil => hne hnil.2
      omega
  · rintro ⟨⟨hpos, hfits⟩, hpos', hfits'⟩
    refine ⟨fun n hmem => hmem.elim (hpos n) (hpos' n), ?_⟩
    intro hne
    by_cases hnil : numbers' = []
    · have := hfits fun heq => hne ⟨heq, hnil⟩
      simp only [hnil, length_nil]
      omega
    · have := hfits' hnil
      omega

variable {bidirectionalSupport : List Char → List Char → Score} {supports : Score → Bool}
  {sources : List NumberedSource}

variable {claimText : List Char} {status : Status} {scope : Scope}

variable {m : Nat × Nat}

theorem cite_returns {tally : Tally Score} :
    (∃ tally', cite bidirectionalSupport sources status scope claimText tally m = .ok tally') ↔
      Countable tally.occurrence [m.1] := by
  constructor
  · rintro ⟨tally', hcite⟩
    obtain ⟨occurrence, hnext, hcite⟩ := bind_ok hcite
    obtain ⟨i, hpred, -⟩ := bind_ok hcite
    rw [next_eq_ok_iff] at hnext
    rw [pred_eq_ok_iff] at hpred
    simp only [Countable, mem_singleton, length_singleton, forall_eq]
    omega
  · rintro ⟨hpos, hfits⟩
    have hne := hpos m.1 mem_cons_self
    have hnext : next tally.occurrence = .ok (tally.occurrence + 1) :=
      next_eq_ok_iff.2 ⟨hfits (cons_ne_nil _ _), rfl⟩
    have hpred : pred m.1 = .ok (m.1 - 1) := by
      rw [pred_eq_ok_iff]
      omega
    unfold cite
    rw [hnext, hpred]
    show ∃ tally', (match sources[m.1 - 1]? with
      | none => _
      | some src => _) = Except.ok tally'
    cases sources[m.1 - 1]? with
    | none => exact ⟨_, rfl⟩
    | some src => exact ⟨_, rfl⟩

theorem recorded_of_cite {tally tally' : Tally Score}
    (hcite : cite bidirectionalSupport sources status scope claimText tally m = .ok tally') :
    Recorded sources.length [m.1] tally tally' ∧
      tally'.verified = tally.verified ∧ tally'.unverified = tally.unverified := by
  obtain ⟨occurrence, hnext, hcite⟩ := bind_ok hcite
  obtain ⟨i, hpred, hcite⟩ := bind_ok hcite
  rw [next_eq_ok_iff] at hnext
  rw [pred_eq_ok_iff] at hpred
  cases hsrc : sources[i]? with
  | none =>
    rw [hsrc] at hcite
    cases hcite
    refine ⟨⟨hnext.2, ?_⟩, rfl, rfl⟩
    have hbeyon : ¬m.1 ≤ sources.length := by
      rw [getElem?_eq_none_iff] at hsrc
      omega
    simp [shown, hbeyon]
  | some src =>
    rw [hsrc] at hcite
    cases hcite
    refine ⟨⟨hnext.2, ?_⟩, rfl, rfl⟩
    have hwith : m.1 ≤ sources.length := by
      have := (List.getElem?_eq_some_iff.1 hsrc).1
      omega
    simp [shown, hwith, hnext.2]

theorem union_returns {group : List (Nat × Nat)} (hpos : ∀ m ∈ group, m.1 ≠ 0) :
    ∃ texts, union sources group = .ok texts := by
  obtain ⟨cited, hcited⟩ : ∃ cited, group.mapM (fun m => (sources[·]?) <$> pred m.1) =
      Except.ok cited := by
    apply mapM_returns
    intro m hmem
    have hpred : pred m.1 = .ok (m.1 - 1) := by
      have := hpos m hmem
      rw [pred_eq_ok_iff]
      omega
    exact ⟨sources[m.1 - 1]?, by rw [hpred]; rfl⟩
  unfold union
  rw [hcited]
  exact ⟨_, rfl⟩

theorem verdict_returns {bare texts : List Char} {range : Nat × Nat} {pos : Nat}
    (hrange : range.1 ≤ range.2 ∧ range.2 ≤ bare.length) :
    ∃ v, verdict bidirectionalSupport supports bare texts range pos = .ok v := by
  have hslice : ∀ range : Nat × Nat, range.1 ≤ range.2 ∧ range.2 ≤ bare.length →
      trimBlanks <$> sliceOf bare range = .ok (trimBlanks (slice bare range.1 range.2)) := by
    intro range hrange
    rw [sliceOf, if_pos hrange]
    rfl
  have hpar : ∀ paragraph : Nat × Nat,
      ((paraSpans bare).reverse.find? fun p => decide (p.1 ≤ pos)).getD (0, bare.length) =
        paragraph → paragraph.1 ≤ paragraph.2 ∧ paragraph.2 ≤ bare.length := by
    rintro paragraph rfl
    cases hfind : (paraSpans bare).reverse.find? fun p => decide (p.1 ≤ pos) with
    | none => exact ⟨Nat.zero_le _, Nat.le_refl _⟩
    | some p => exact spans_within p (mem_reverse.1 (mem_of_find?_eq_some hfind))
  unfold verdict
  simp only [hslice range hrange, hslice _ (hpar _ rfl), bind, Except.bind, pure, Except.pure]
  split_ifs
  all_goals exact ⟨_, rfl⟩

theorem spanIdx_lt {spans : List (Nat × Nat)} {pos : Nat} (hne : spans ≠ []) :
    spanIdx spans pos < spans.length := by
  have hlen := length_pos_iff.2 hne
  unfold spanIdx
  split
  · exact hlen
  · omega

theorem exists_range (bare : List Char) (pos : Nat) :
    ∃ range, (sentenceSpans bare)[spanIdx (sentenceSpans bare) pos]? = some range ∧
      range.1 ≤ range.2 ∧ range.2 ≤ bare.length := by
  have hlt : spanIdx (sentenceSpans bare) pos < (sentenceSpans bare).length :=
    spanIdx_lt (spans_ne_nil RE_SENTENCE_END bare)
  exact ⟨_, getElem?_eq_getElem hlt, spans_within _ (getElem_mem hlt)⟩

def Tallied (numSources : Nat) (numbers : List Nat) (tally tally' : Tally Score) : Prop :=
  Recorded numSources numbers tally tally' ∧
    tally'.verified + tally'.unverified = tally.verified + tally.unverified + numbers.length

theorem runs_cites (group : List (Nat × Nat)) (tally : Tally Score) :
    Runs (fun numbers tally => Countable tally.occurrence numbers)
      (fun numbers tally tally' => Recorded sources.length numbers tally tally' ∧
        tally'.verified = tally.verified ∧ tally'.unverified = tally.unverified)
      (group.flatMap fun m => [m.1]) tally
      (group.foldlM (cite bidirectionalSupport sources status scope claimText) tally) := by
  apply runs_foldlM
  · intro tally
    exact ⟨by simp [Countable], Recorded.refl tally, rfl, rfl⟩
  · intro numbers numbers' tally h
    exact (countable_append.1 h).1
  · intro numbers numbers' tally tally' hdid hcan
    rw [countable_append, and_iff_right hcan, hdid.1.occurrence]
  · intro numbers numbers' tally tally' tally'' hdid hdid'
    exact ⟨hdid.1.trans hdid'.1, hdid'.2.1.trans hdid.2.1, hdid'.2.2.trans hdid.2.2⟩
  · intro m _ tally
    exact ⟨cite_returns, fun tally' hcite => recorded_of_cite hcite⟩

variable (bidirectionalSupport supports sources) in
theorem processGroup_eq (bare : List Char) (group : List (Nat × Nat)) (tally : Tally Score) :
    ∃ range pos, (range.1 ≤ range.2 ∧ range.2 ≤ bare.length) ∧
      processGroup bidirectionalSupport supports sources bare tally group =
        (union sources group >>= fun texts =>
          verdict bidirectionalSupport supports bare texts range pos >>= fun v =>
            group.foldlM (cite bidirectionalSupport sources v.1 v.2.1 v.2.2)
              (tally.count v.1 group.length)) := by
  obtain ⟨range, hrange, hwith⟩ := exists_range bare ((group.head?.map (·.2)).getD 0)
  refine ⟨range, (group.head?.map (·.2)).getD 0, hwith, ?_⟩
  unfold processGroup
  simp only [hrange]
  rfl

theorem recorded_of_count {numbers : List Nat} {tally tally' : Tally Score}
    (hrec : Recorded sources.length numbers (tally.count status numbers.length) tally')
    (hver : tally'.verified = (tally.count status numbers.length).verified)
    (hunv : tally'.unverified = (tally.count status numbers.length).unverified) :
    Tallied sources.length numbers tally tally' := by
  cases status with
  | verified =>
    refine ⟨⟨hrec.occurrence, hrec.shown⟩, ?_⟩
    simp only [Tally.count] at hver hunv
    omega
  | unverified =>
    refine ⟨⟨hrec.occurrence, hrec.shown⟩, ?_⟩
    simp only [Tally.count] at hver hunv
    omega

@[simp] theorem count_occurrence (tally : Tally Score) (status : Status) (markers : Nat) :
    (tally.count status markers).occurrence = tally.occurrence := by
  cases status <;> rfl

theorem runs_processGroup (bare : List Char) (group : List (Nat × Nat)) (tally : Tally Score) :
    Runs (fun numbers tally => Countable tally.occurrence numbers)
      (Tallied sources.length) (group.flatMap fun m => [m.1]) tally
      (processGroup bidirectionalSupport supports sources bare tally group) := by
  obtain ⟨range, pos, hwith, heq⟩ := processGroup_eq bidirectionalSupport supports sources bare
    group tally
  have hlen : (group.flatMap fun m => [m.1]).length = group.length := by
    simp
  rw [heq]
  constructor
  · constructor
    · rintro ⟨tally', hgroup⟩
      obtain ⟨texts, -, hgroup⟩ := bind_ok hgroup
      obtain ⟨v, -, hgroup⟩ := bind_ok hgroup
      have hcan := (runs_cites group _).returns.1 ⟨tally', hgroup⟩
      rw [count_occurrence] at hcan
      exact hcan
    · intro hcan
      have hpos : ∀ m ∈ group, m.1 ≠ 0 := by
        intro m hmem
        exact hcan.1 m.1 (mem_flatMap.2 ⟨m, hmem, mem_cons_self⟩)
      obtain ⟨texts, htexts⟩ : ∃ texts, union sources group = .ok texts := union_returns hpos
      obtain ⟨v, hverd⟩ : ∃ v, verdict bidirectionalSupport supports bare texts range pos =
        .ok v := verdict_returns hwith
      rw [htexts]
      show ∃ tally', (verdict bidirectionalSupport supports bare texts range pos >>= _) =
        Except.ok tally'
      rw [hverd]
      apply (runs_cites group _).returns.2
      rw [count_occurrence]
      exact hcan
  · intro tally' hgroup
    obtain ⟨texts, -, hgroup⟩ := bind_ok hgroup
    obtain ⟨v, -, hgroup⟩ := bind_ok hgroup
    obtain ⟨hrec, hver, hunv⟩ := (runs_cites group _).did tally' hgroup
    rw [← hlen] at hrec hver hunv
    exact recorded_of_count hrec hver hunv

variable (bidirectionalSupport supports sources) in
theorem runs_groups (bare : List Char) (groups : List (List (Nat × Nat))) (tally : Tally Score) :
    Runs (fun numbers tally => Countable tally.occurrence numbers) (Tallied sources.length)
      (groups.flatMap fun group => group.flatMap fun m => [m.1]) tally
      (groups.foldlM (processGroup bidirectionalSupport supports sources bare) tally) := by
  apply runs_foldlM
  · intro tally
    exact ⟨by simp [Countable], Recorded.refl tally, rfl⟩
  · intro numbers numbers' tally h
    exact (countable_append.1 h).1
  · intro numbers numbers' tally tally' hdid hcan
    rw [countable_append, and_iff_right hcan, hdid.1.occurrence]
  · intro numbers numbers' tally tally' tally'' hdid hdid'
    refine ⟨hdid.1.trans hdid'.1, ?_⟩
    rw [hdid'.2, hdid.2, length_append]
    omega
  · intro group _ tally
    exact runs_processGroup bare group tally

theorem numbers_markerPositions (pos : Nat) (tokens : List Token) :
    (markerPositions pos tokens).map (·.1) = (tokens.filterMap Token.digits?).map readU32 := by
  induction tokens generalizing pos with
  | nil => rfl
  | cons token tokens ih =>
    cases token with
    | char c => exact ih _
    | marker digits => exact congrArg _ (ih _)

end Counting

section Result

variable {Score : Type} {chars : UnicodeClasses}
  {bidirectionalSupport : List Char → List Char → Score} {supports : Score → Bool}
  {sources : List NumberedSource}

variable (chars) in
theorem markers_stripOutOfRange (text : List Char) (numSources : Nat) :
    markers chars (stripOutOfRange chars text numSources).1 =
      remaining chars (inRange numSources) (tokens chars text) := by
  apply markers_write_keep
  intro digits hmem
  exact isDigits_of_mem_tokens chars hmem

theorem numbers_groups (together : Nat × Nat → Nat × Nat → Bool) (body : List Char) :
    (((markerPositions 0 (tokens chars body)).splitBy together).flatMap fun group =>
      group.flatMap fun m => [m.1]) = (markers chars body).map readU32 := by
  have hflat : ∀ groups : List (List (Nat × Nat)),
      (groups.flatMap fun group => group.flatMap fun m => [m.1]) = groups.flatten.map (·.1) := by
    intro groups
    simp only [← map_eq_flatMap, map_flatten]
    rfl
  rw [markers, ← numbers_markerPositions 0, hflat, flatten_splitBy]

theorem readU32_eq_of_ne_zero {digits : List Char} (hne : readU32 digits ≠ 0) :
    readU32 digits = (readUsize digits).getD 0 := by
  unfold readU32 readUsize at *
  cases hvalue : digitsValue digits with
  | none =>
    rw [hvalue] at hne
    exact absurd rfl hne
  | some n =>
    rw [hvalue] at hne
    simp only [Option.filter_some, decide_eq_true_eq] at hne ⊢
    by_cases hsmall : n < 2 ^ 32
    · rw [if_pos hsmall, if_pos (show n < 2 ^ 64 by omega)]
    · rw [if_neg hsmall] at hne
      exact absurd rfl hne

theorem namesSources_iff {text : List Char} {numSources : Nat} :
    NamesSources chars numSources text ↔
      (∀ digits ∈ remaining chars (inRange numSources) (tokens chars text),
        1 ≤ readU32 digits ∧ readU32 digits ≤ numSources) ∧
      (remaining chars (inRange numSources) (tokens chars text)).length < 2 ^ 32 := by
  constructor
  · intro h
    refine ⟨?_, h.few⟩
    intro digits hmem
    rw [mem_remaining_iff] at hmem
    cases hmem with
    | inl hkept =>
      rw [h.kept digits hkept.1 hkept.2]
      have hrange := hkept.2
      simp only [inRange, Bool.and_eq_true, decide_eq_true_eq] at hrange
      exact hrange
    | inr hjoins => exact h.joined digits hjoins
  · rintro ⟨hrange, hfew⟩
    refine ⟨?_, ?_, hfew⟩
    · intro digits hmem hkeep
      have hread := hrange digits (mem_remaining_iff.2 (.inl ⟨hmem, hkeep⟩))
      exact readU32_eq_of_ne_zero (by omega)
    · intro digits hjoins
      exact hrange digits (mem_remaining_iff.2 (.inr hjoins))

theorem countable_of_inRange {numbers : List (List Char)} {numSources : Nat}
    (hrange : ∀ digits ∈ numbers, 1 ≤ readU32 digits ∧ readU32 digits ≤ numSources)
    (hfew : numbers.length < 2 ^ 32) : Countable 0 (numbers.map readU32) := by
  constructor
  · intro n hmem
    obtain ⟨digits, hdig, heq⟩ := mem_map.1 hmem
    have := (hrange digits hdig).1
    omega
  · intro _
    rw [length_map]
    omega

theorem shown_of_inRange {numbers : List (List Char)} {numSources : Nat} {tally : Tally Score}
    (hrange : ∀ digits ∈ numbers, 1 ≤ readU32 digits ∧ readU32 digits ≤ numSources)
    (hrec : Recorded numSources (numbers.map readU32) {} tally) :
    tally.citations.map (fun c => (c.occurrence, c.marker)) =
      numbers.mapIdx fun i digits => (i + 1, readU32 digits) := by
  have hall : ((numbers.map readU32).zipIdx 1).filter (fun m => decide (m.1 ≤ numSources)) =
      (numbers.map readU32).zipIdx 1 := by
    rw [filter_eq_self]
    intro m hmem
    obtain ⟨digits, hdig, heq⟩ := mem_map.1 (fst_mem_of_mem_zipIdx hmem)
    rw [← heq, decide_eq_true_eq]
    exact (hrange digits hdig).2
  have hshown := hrec.shown
  rw [hall] at hshown
  have hswap := congrArg (map Prod.swap) hshown
  simp only [shown, map_nil, nil_append, map_map] at hswap
  calc tally.citations.map (fun c => (c.occurrence, c.marker))
      = tally.citations.map (Prod.swap ∘ fun c => (c.marker, c.occurrence)) := rfl
    _ = ((numbers.map readU32).zipIdx 1).map Prod.swap := hswap
    _ = numbers.mapIdx fun i digits => (i + 1, readU32 digits) := by
      apply ext_getElem
      · simp
      · intro i hi hi'
        simp [Nat.add_comm]

/-- The records of a body agree with it, for every body and list of sources, exactly
when what the removals leave names sources. -/
theorem process_consistent_iff (body : List Char) : Yields (Consistent chars sources.length)
        (processCitationOutput chars bidirectionalSupport supports sources body) ↔
      NamesSources chars sources.length (normalizeMarkers chars body) := by
  rw [namesSources_iff]
  have hmark := markers_stripOutOfRange chars (normalizeMarkers chars body) sources.length
  unfold processCitationOutput
  simp only [yields_bind, yields_pure]
  generalize hclean : (stripOutOfRange chars (normalizeMarkers chars body) sources.length).1 = clean
    at hmark ⊢
  rw [← hmark]
  have hruns := fun together => runs_groups bidirectionalSupport supports sources
    (bareBody (tokens chars clean)) ((markerPositions 0 (tokens chars clean)).splitBy together) {}
  simp only [numbers_groups] at hruns
  constructor
  · rintro ⟨tally, hfold, hcons⟩
    refine ⟨hcons.inRange, ?_⟩
    have hcan := ((hruns _).returns.1 ⟨tally, hfold⟩).2
    by_cases hnil : markers chars clean = []
    · rw [hnil]
      decide
    · have := hcan (by simpa using hnil)
      rw [List.length_map] at this
      omega
  · rintro ⟨hrange, hfew⟩
    obtain ⟨tally, hfold⟩ := (hruns _).returns.2 (countable_of_inRange hrange hfew)
    obtain ⟨hrec, hcount⟩ := (hruns _).did tally hfold
    have hshown := shown_of_inRange hrange hrec
    have hlen := congrArg List.length hshown
    rw [List.length_map, List.length_mapIdx] at hlen
    rw [List.length_map] at hcount
    refine ⟨tally, hfold, ?_⟩
    constructor
    · exact hrange
    · exact hlen
    · simp only at hcount ⊢
      omega
    · exact hshown

/-- Taking `[9]` out of `[0[9]]` leaves a marker that no source has. -/
theorem joined_marker_underflows : ¬∀ (body : List Char) (sources : List NumberedSource),
      Yields (Consistent asciiClasses sources.length)
        (processCitationOutput asciiClasses (fun _ _ => ()) (fun _ => true) sources body) := by
  intro h
  have hcons := h ['[', '0', '[', '9', ']', ']'] [⟨"memory", "m1", ['a']⟩]
  have hund : processCitationOutput asciiClasses (fun _ _ => ()) (fun _ => true)
      [⟨"memory", "m1", ['a']⟩] ['[', '0', '[', '9', ']', ']'] = .error .underflow := by
    rfl
  rw [hund, yields_error] at hcons
  exact hcons

end Result

end Wenlan.Citations
