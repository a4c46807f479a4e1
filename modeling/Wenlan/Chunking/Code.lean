import Wenlan.Projection.Tree

/-!
# Chunks of source code

`chunker/code.rs`.  A pattern is what its expression matches of a line.
-/

namespace Wenlan.Chunking

open Claims (isWhitespace)
open Projection (lines)

inductive CodeLanguage where
  | rust | python | javaScript | typeScript | go | java | c | cpp | ruby | php | swift | kotlin
  | unknown
  deriving DecidableEq

def CodeLanguage.asStr : CodeLanguage → String
  | .rust => "rust"
  | .python => "python"
  | .javaScript => "javascript"
  | .typeScript => "typescript"
  | .go => "go"
  | .java => "java"
  | .c => "c"
  | .cpp => "cpp"
  | .ruby => "ruby"
  | .php => "php"
  | .swift => "swift"
  | .kotlin => "kotlin"
  | .unknown => "unknown"

structure ChunkInfo where
  content : List Char
  chunkType : String
  language : Option String
  byteRange : Option (Nat × Nat)
  semanticUnit : Option String
  deriving DecidableEq

structure CodeStrategy where
  rustPattern : List Char → Bool
  pythonPattern : List Char → Bool
  javascriptPattern : List Char → Bool
  typescriptPattern : List Char → Bool
  goPattern : List Char → Bool
  javaPattern : List Char → Bool
  cPattern : List Char → Bool

/-- The two bounds that `new` sets. -/
def maxChunkLines : Nat := 100

def overlapLines : Nat := 10

def CodeStrategy.getPattern (strategy : CodeStrategy) : CodeLanguage → Option (List Char → Bool)
  | .rust => some strategy.rustPattern
  | .python => some strategy.pythonPattern
  | .javaScript => some strategy.javascriptPattern
  | .typeScript => some strategy.typescriptPattern
  | .go => some strategy.goPattern
  | .java => some strategy.javaPattern
  | .c | .cpp => some strategy.cPattern
  | _ => none

def joinLines (lines : List (List Char)) : List Char :=
  ['\n'].intercalate lines

/-- The chunk of a range of lines, unless they are blank. -/
def chunkAt (lines : List (List Char)) (language : Option String) (semanticUnit : String)
    (span : Nat × Nat) : Option ChunkInfo :=
  let content := joinLines (lines.extract span.1 span.2)
  if content.all isWhitespace then none
  else some ⟨content, "code", language, none, some semanticUnit⟩

/-- The loop over the lines from `idx` on; `start` is where the open unit starts. -/
def extractUnits (pattern : List Char → Bool) (idx : Nat) (start : Option Nat) :
    List (List Char) → List (Nat × Nat)
  | [] => (start.map fun start => (start, idx)).toList
  | line :: rest =>
    if pattern line then
      (start.map fun start => (start, idx)).toList ++ extractUnits pattern (idx + 1) (some idx) rest
    else extractUnits pattern (idx + 1) start rest

def extractSemanticUnits (lines : List (List Char)) (pattern : List Char → Bool) :
    List (Nat × Nat) :=
  extractUnits pattern 0 none lines

def nextStart (last : Nat) : Nat :=
  if overlapLines < last then last - overlapLines else last

theorem nextStart_eq {start last : Nat} (h : start + maxChunkLines ≤ last) :
    nextStart last = last - overlapLines ∧ start < last - overlapLines := by
  unfold nextStart
  simp only [maxChunkLines, overlapLines] at h ⊢
  constructor
  · exact if_pos (by omega)
  · omega

/-- The windows of the fallback over `count` lines. -/
def windows (count start : Nat) : List (Nat × Nat) :=
  if start < count then
    (start, min (start + maxChunkLines) count) ::
      if count ≤ start + maxChunkLines then []
      else windows count (nextStart (min (start + maxChunkLines) count))
  else []
termination_by count - start
decreasing_by
  have hlast : min (start + maxChunkLines) count = start + maxChunkLines := by omega
  obtain ⟨hnext, hlt⟩ := nextStart_eq hlast.ge
  omega

def chunkByLines (lines : List (List Char)) (language : Option String) : List ChunkInfo :=
  (windows lines.length 0).filterMap (chunkAt lines language "block")

def CodeStrategy.unitChunks (strategy : CodeStrategy) (lines : List (List Char))
    (language : CodeLanguage) : List ChunkInfo :=
  match strategy.getPattern language with
  | none => []
  | some pattern => (extractSemanticUnits lines pattern).filterMap
      (chunkAt lines (some language.asStr) "function")

def CodeStrategy.chunk (strategy : CodeStrategy) (content : String) (language : CodeLanguage) :
    List ChunkInfo :=
  if (strategy.unitChunks (lines content) language).isEmpty then
    chunkByLines (lines content) (some language.asStr)
  else strategy.unitChunks (lines content) language

/-! ## What the chunks cover -/

/-- The language has a pattern, and it matches a later line and none up to this one. -/
def CodeStrategy.BeforeFirstMatch (strategy : CodeStrategy) (language : CodeLanguage)
    (lines : List (List Char)) (i : Nat) : Prop :=
  ∃ pattern, strategy.getPattern language = some pattern ∧
    lines.any pattern = true ∧ (lines.take (i + 1)).any pattern = false

/-- Each range starts and ends after the one before it. -/
def InOrder (spans : List (Nat × Nat)) : Prop :=
  spans.IsChain fun a b => a.1 < b.1 ∧ a.2 < b.2

theorem windows_of_lt {count start : Nat} (h : start + maxChunkLines < count) :
    windows count start = (start, start + maxChunkLines) ::
      windows count (start + maxChunkLines - overlapLines) := by
  rw [windows, if_pos (by omega), if_neg (by omega), min_eq_left h.le, (nextStart_eq (le_refl _)).1]

theorem windows_of_ge {count start : Nat} (hlt : start < count)
    (h : count ≤ start + maxChunkLines) : windows count start = [(start, count)] := by
  rw [windows, if_pos hlt, if_pos h, min_eq_right h]

variable {span : Nat × Nat}

theorem head_windows {count start : Nat}
    (h : span ∈ (windows count start).head?) :
    span.1 = start ∧ span.2 = min (start + maxChunkLines) count := by
  rw [windows] at h
  split at h
  · cases h
    exact ⟨rfl, rfl⟩
  · simp at h

theorem windows_spec (count start : Nat) : (windows count start).IsChain (fun a b =>
      a.1 < b.1 ∧ a.2 < b.2 ∧ b.1 + overlapLines = a.2) ∧
    ∀ i, start ≤ i → i < count → ∃ span ∈ windows count start, span.1 ≤ i ∧ i < span.2 := by
  induction hfuel : count - start using Nat.strong_induction_on generalizing start with
  | _ fuel ih =>
    by_cases hmore : start + maxChunkLines < count
    · have hnext := (nextStart_eq (le_refl (start + maxChunkLines))).2
      have hless : count - (start + maxChunkLines - overlapLines) < fuel := by omega
      obtain ⟨hchain, hcov⟩ := ih _ hless _ rfl
      rw [windows_of_lt hmore]
      constructor
      · rw [List.isChain_cons]
        refine ⟨fun span hspan => ?_, hchain⟩
        obtain ⟨hfirst, hlast⟩ := head_windows hspan
        omega
      · intro i hstart hi
        by_cases hin : i < start + maxChunkLines
        · exact ⟨_, List.mem_cons_self, hstart, hin⟩
        · obtain ⟨span, hspan, hcover⟩ := hcov i (by omega) hi
          exact ⟨span, List.mem_cons_of_mem _ hspan, hcover⟩
    · by_cases hlt : start < count
      · rw [windows_of_ge hlt (by omega)]
        exact ⟨.singleton _, fun i hstart hi => ⟨_, List.mem_singleton_self _, hstart, hi⟩⟩
      · rw [windows, if_neg hlt]
        exact ⟨.nil, fun i _ _ => by omega⟩

variable {rest : List (List Char)}

variable {pattern : List Char → Bool}

theorem extractUnits_covers {idx i : Nat}
    {start : Option Nat} (hstart : ∀ s ∈ start, s ≤ i) (hi : i < idx + rest.length)
    (hopen : start.isSome ∨ idx ≤ i ∧ (rest.take (i + 1 - idx)).any pattern) :
    ∃ span ∈ extractUnits pattern idx start rest, span.1 ≤ i ∧ i < span.2 := by
  induction rest generalizing idx start with
  | nil =>
    cases start with
    | none => simp at hopen
    | some s => exact ⟨(s, idx), by simp [extractUnits], hstart s rfl, by simpa using hi⟩
  | cons line rest ih =>
    rw [List.length_cons] at hi
    unfold extractUnits
    by_cases hmatch : pattern line
    · rw [if_pos hmatch]
      by_cases hlt : i < idx
      · obtain ⟨s, rfl⟩ := Option.isSome_iff_exists.mp (hopen.resolve_right fun h => by omega)
        exact ⟨(s, idx), by simp, hstart s rfl, hlt⟩
      · obtain ⟨span, hspan, hcov⟩ := @ih (idx + 1) (some idx)
          (by simpa using Nat.le_of_not_lt hlt) (by omega) (Or.inl rfl)
        exact ⟨span, List.mem_append_right _ hspan, hcov⟩
    · rw [if_neg hmatch]
      refine ih hstart (by omega) (hopen.imp_right fun hrest => ?_)
      obtain ⟨hle, hany⟩ := hrest
      rw [show i + 1 - idx = (i - idx) + 1 by omega, List.take_succ_cons, List.any_cons,
        Bool.or_eq_true, or_iff_right hmatch] at hany
      have hpos : i ≠ idx := by
        rintro rfl
        simp at hany
      exact ⟨by omega, by rwa [show i + 1 - (idx + 1) = i - idx by omega]⟩

theorem extractUnits_inOrder (pattern : List Char → Bool) {idx : Nat}
    {start : Option Nat} (hstart : ∀ s ∈ start, s < idx) :
    InOrder (extractUnits pattern idx start rest) ∧
      ∀ span ∈ (extractUnits pattern idx start rest).head?,
        start.getD idx ≤ span.1 ∧ idx ≤ span.2 ∧ span.1 < span.2 := by
  induction rest generalizing idx start with
  | nil =>
    cases start with
    | none => exact ⟨.nil, by simp [extractUnits]⟩
    | some s => exact ⟨.singleton _, by simpa [extractUnits] using hstart⟩
  | cons line rest ih =>
    unfold extractUnits
    by_cases hmatch : pattern line
    · rw [if_pos hmatch]
      have hidx : ∀ s ∈ some idx, s < idx + 1 := by simp
      obtain ⟨hchain, hhead⟩ := ih hidx
      cases start with
      | none =>
        refine ⟨hchain, fun span hspan => ?_⟩
        obtain ⟨hfirst, hlast, hlt⟩ := hhead span hspan
        exact ⟨hfirst, by omega, hlt⟩
      | some s =>
        have hs := hstart s rfl
        refine ⟨List.isChain_cons.mpr ⟨fun span hspan => ?_, hchain⟩, by simpa using hs⟩
        obtain ⟨hfirst, hlast, -⟩ := hhead span hspan
        rw [Option.getD_some] at hfirst
        exact ⟨hs.trans_le hfirst, hlast⟩
    · rw [if_neg hmatch]
      have hidx : ∀ s ∈ start, s < idx + 1 := fun s hs => Nat.lt_succ_of_lt (hstart s hs)
      obtain ⟨hchain, hhead⟩ := ih hidx
      refine ⟨hchain, fun span hspan => ?_⟩
      obtain ⟨hfirst, hlast, hlt⟩ := hhead span hspan
      cases start with
      | none => exact ⟨by rw [Option.getD_none] at hfirst ⊢; omega, by omega, hlt⟩
      | some s => exact ⟨hfirst, by omega, hlt⟩

theorem extractUnits_nil
    (h : rest.any pattern = false) (idx : Nat) : extractUnits pattern idx none rest = [] := by
  induction rest generalizing idx with
  | nil => rfl
  | cons line rest ih =>
    rw [List.any_cons, Bool.or_eq_false_iff] at h
    rw [extractUnits, h.1]
    exact ih h.2 (idx + 1)

variable {line : List Char}

theorem mem_joinLines {lines : List (List Char)} (hline : line ∈ lines)
    {c : Char} (hc : c ∈ line) : c ∈ joinLines lines := by
  unfold joinLines
  induction lines with
  | nil => simp at hline
  | cons first rest ih =>
    cases rest with
    | nil => simpa using List.mem_singleton.mp hline ▸ hc
    | cons second rest =>
      rw [List.intercalate_cons_cons]
      rcases List.mem_cons.mp hline with rfl | hrest
      · simp [hc]
      · exact List.mem_append_right _ (ih hrest)

theorem chunkAt_of_line {lines : List (List Char)} (language : Option String) (unit : String)
    {i : Nat} (hline : lines[i]? = some line)
    (hblank : line.all isWhitespace = false) (hfirst : span.1 ≤ i) (hlast : i < span.2) :
    chunkAt lines language unit span =
      some ⟨joinLines (lines.extract span.1 span.2), "code", language, none, some unit⟩ := by
  have hmem : line ∈ lines.extract span.1 span.2 := by
    rw [List.extract_eq_take_drop, List.mem_iff_getElem?]
    refine ⟨i - span.1, ?_⟩
    rw [List.getElem?_take, List.getElem?_drop, if_pos (by omega),
      show span.1 + (i - span.1) = i by omega, hline]
  obtain ⟨c, hc, hblack⟩ := List.all_eq_false.mp hblank
  have hall : (joinLines (lines.extract span.1 span.2)).all isWhitespace = false :=
    List.all_eq_false.mpr ⟨c, mem_joinLines hmem hc, hblack⟩
  rw [chunkAt, hall]
  rfl

/-- Two lines far apart: the window between their windows is blank, so the two chunks share no
line. -/
def sparse : String :=
  "x" ++ String.ofList (List.replicate 249 '\n') ++ "y"

end Wenlan.Chunking
