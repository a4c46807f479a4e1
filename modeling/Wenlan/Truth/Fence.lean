import Wenlan.Claims.Provenance
import Wenlan.Support.JsonText

/-!
# The cutover fence

The two `app_metadata` rows behind the truth cutover, and every statement
`truth_exposure.rs` runs on them.  The fence row holds an epoch and a phase as one
text; a swap compares that text, so reading a fence back from what a swap stored
has to give the fence that was swapped in.
-/

namespace Wenlan.Truth.Fence

open Claims (isWhitespace trimBlanks)

inductive CutoverPhase where
  | off
  | preparing
  | committed
  deriving DecidableEq

namespace CutoverPhase

def asStr : CutoverPhase → String
  | .off => "off"
  | .preparing => "preparing"
  | .committed => "committed"

def parse (raw : List Char) : Option CutoverPhase :=
  if raw = "off".toList then some .off
  else if raw = "preparing".toList then some .preparing
  else if raw = "committed".toList then some .committed
  else none

theorem parse_asStr (phase : CutoverPhase) : parse phase.asStr.toList = some phase := by
  cases phase <;> decide

end CutoverPhase

/-- The durable writer fence: an epoch paired with a phase. -/
structure CutoverFence where
  epoch : Int
  phase : CutoverPhase
  deriving DecidableEq

/-- `split_once`: what stands before and after the first `sep`. -/
def splitOnce (sep : Char) : List Char → Option (List Char × List Char)
  | [] => none
  | c :: rest =>
    if c = sep then some ([], rest)
    else (splitOnce sep rest).map fun parts => (c :: parts.1, parts.2)

def digitsValue (digits : List Char) : Option Nat :=
  if digits ≠ [] ∧ digits.all Char.isDigit then some (Nat.ofDigitChars 10 digits 0) else none

/-- `str::parse` to a signed number: an optional sign and digits. -/
def parseNumber : List Char → Option Int
  | [] => none
  | c :: digits =>
    if c = '-' then (digitsValue digits).map fun n => -(n : Int)
    else if c = '+' then (digitsValue digits).map fun n => (n : Int)
    else (digitsValue (c :: digits)).map fun n => (n : Int)

def numberText : Int → List Char
  | .ofNat n => (toString n).toList
  | .negSucc n => '-' :: (toString (n + 1)).toList

namespace CutoverFence

/-- What a database with no fence row means: nothing has ever run. -/
def INITIAL : CutoverFence :=
  { epoch := 0, phase := .off }

def encode (fence : CutoverFence) : String :=
  String.ofList (numberText fence.epoch ++ ':' :: fence.phase.asStr.toList)

def parse (raw : List Char) : Option CutoverFence := do
  let parts ← splitOnce ':' raw
  let epoch ← parseNumber (trimBlanks parts.1)
  let phase ← CutoverPhase.parse (trimBlanks parts.2)
  return { epoch := epoch, phase := phase }

def next (fence : CutoverFence) (phase : CutoverPhase) : CutoverFence :=
  { epoch := fence.epoch + 1, phase := phase }

@[simp] theorem next_epoch (fence : CutoverFence) (phase : CutoverPhase) :
    (fence.next phase).epoch = fence.epoch + 1 := rfl

@[simp] theorem next_phase (fence : CutoverFence) (phase : CutoverPhase) :
    (fence.next phase).phase = phase := rfl

end CutoverFence

theorem digitsValue_toString (n : Nat) : digitsValue (toString n).toList = some n := by
  have hdig : (toString n).toList.all Char.isDigit := by
    rw [List.all_eq_true]
    exact Wenlan.Support.Json.toString_digits n
  have hchars : (toString n).toList = Nat.toDigits 10 n := by
    rw [Nat.toString_eq_repr, Nat.toList_repr]
  have hne : (toString n).toList ≠ [] := by
    rw [hchars]
    exact Nat.toDigits_ne_nil
  rw [digitsValue, if_pos ⟨hne, hdig⟩, hchars, Nat.ofDigitChars_ten_toDigits]

theorem isDigit_apart {c : Char} (h : c.isDigit) :
    c ≠ '-' ∧ c ≠ '+' ∧ c ≠ ':' ∧ isWhitespace c = false := by
  have hrange : 48 ≤ c.toNat ∧ c.toNat ≤ 57 := by
    simpa [Char.isDigit, UInt32.le_iff_toNat_le] using h
  have hne : ∀ d : Char, 57 < d.toNat ∨ d.toNat < 48 → c ≠ d := by
    rintro d hd rfl
    omega
  refine ⟨hne '-' (by decide), hne '+' (by decide), hne ':' (by decide), ?_⟩
  simp only [isWhitespace, Bool.or_eq_false_iff, Bool.and_eq_false_iff, decide_eq_false_iff_not,
    beq_eq_false_iff_ne]
  omega

theorem parseNumber_numberText (n : Int) : parseNumber (numberText n) = some n := by
  cases n with
  | ofNat n =>
    have hvalue := digitsValue_toString n
    have hdig := Wenlan.Support.Json.toString_digits n
    rw [numberText]
    cases htext : (toString n).toList with
    | nil =>
      rw [htext] at hvalue
      simp [digitsValue] at hvalue
    | cons c rest =>
      rw [htext] at hvalue hdig
      obtain ⟨hminus, hplus, -, -⟩ := isDigit_apart (hdig c List.mem_cons_self)
      rw [parseNumber, if_neg hminus, if_neg hplus, hvalue]
      rfl
  | negSucc n =>
    rw [numberText, parseNumber, if_pos rfl, digitsValue_toString]
    rfl

theorem numberText_apart (n : Int) : ∀ c ∈ numberText n, c ≠ ':' ∧ isWhitespace c = false := by
  intro c hmem
  cases n with
  | ofNat n =>
    have h := isDigit_apart (Wenlan.Support.Json.toString_digits n c hmem)
    exact ⟨h.2.2.1, h.2.2.2⟩
  | negSucc n =>
    rcases List.mem_cons.mp hmem with rfl | hmem
    · decide
    · have h := isDigit_apart (Wenlan.Support.Json.toString_digits (n + 1) c hmem)
      exact ⟨h.2.2.1, h.2.2.2⟩

theorem splitOnce_append {sep : Char} {before : List Char} (after : List Char)
    (h : ∀ c ∈ before, c ≠ sep) :
    splitOnce sep (before ++ sep :: after) = some (before, after) := by
  induction before with
  | nil => simp [splitOnce]
  | cons c before ih =>
    rw [List.forall_mem_cons] at h
    rw [List.cons_append, splitOnce, if_neg h.1, ih h.2]
    rfl

theorem dropWhile_blanks {text : List Char} (h : ∀ c ∈ text, isWhitespace c = false) :
    text.dropWhile isWhitespace = text := by
  cases text with
  | nil => rfl
  | cons c rest => rw [List.dropWhile_cons_of_neg (by simp [h c List.mem_cons_self])]

theorem trimBlanks_eq {text : List Char} (h : ∀ c ∈ text, isWhitespace c = false) :
    trimBlanks text = text := by
  have hrev : ∀ c ∈ text.reverse, isWhitespace c = false :=
    fun c hmem => h c (List.mem_reverse.mp hmem)
  rw [trimBlanks, dropWhile_blanks h, dropWhile_blanks hrev, List.reverse_reverse]

theorem asStr_blanks (phase : CutoverPhase) : ∀ c ∈ phase.asStr.toList, isWhitespace c = false := by
  cases phase <;> simp [CutoverPhase.asStr, isWhitespace]

theorem parse_encode (fence : CutoverFence) :
    CutoverFence.parse (trimBlanks fence.encode.toList) = some fence := by
  have hnumb := numberText_apart fence.epoch
  have hblank : ∀ c ∈ fence.encode.toList, isWhitespace c = false := by
    intro c hmem
    rw [CutoverFence.encode, String.toList_ofList, List.mem_append, List.mem_cons] at hmem
    rcases hmem with hmem | rfl | hmem
    · exact (hnumb c hmem).2
    · decide
    · exact asStr_blanks fence.phase c hmem
  rw [trimBlanks_eq hblank, CutoverFence.parse, CutoverFence.encode, String.toList_ofList,
    splitOnce_append _ fun c hmem => (hnumb c hmem).1]
  simp only [Option.bind_eq_bind, Option.bind_some]
  rw [trimBlanks_eq fun c hmem => (hnumb c hmem).2, parseNumber_numberText,
    trimBlanks_eq (asStr_blanks fence.phase), CutoverPhase.parse_asStr]
  rfl

/-- The two rows of `app_metadata`; `none` is an absent row. -/
structure Metadata where
  truthCutoverFence : Option String
  truthCutoverGeneration : Option String

/-- What a fence call answers instead of a result. -/
inductive CutoverError where
  | unreadable (raw : String)
  | cannotBegin (observed : CutoverFence)
  | beginMoved
  | cannotCommit (lease observed : CutoverFence)
  | notReleased
  | cannotAbort (lease observed : CutoverFence)
  | abortMoved
  /-- A statement failed in the database. -/
  | statement
  deriving DecidableEq

namespace Metadata

def cutoverFence (db : Metadata) : Except CutoverError CutoverFence :=
  match db.truthCutoverFence with
  | none => .ok .INITIAL
  | some raw =>
    match CutoverFence.parse (trimBlanks raw.toList) with
    | some fence => .ok fence
    | none => .error (.unreadable raw)

/-- Whether the update of a swap finds its row. -/
def holdsFence (db : Metadata) (observed : CutoverFence) : Bool :=
  db.truthCutoverFence == some observed.encode

/-- Swap the fence from `observed` to `next`: the conditional update, and the insert that
stands in for it while there is no row.  Both run under one hold of the connection. -/
def swapCutoverFence (db : Metadata) (observed next : CutoverFence) : Metadata × Bool :=
  if db.holdsFence observed then
    ({ db with truthCutoverFence := some next.encode }, true)
  else if observed = .INITIAL ∧ db.truthCutoverFence = none then
    ({ db with truthCutoverFence := some next.encode }, true)
  else (db, false)

def setTruthCutoverGeneration (db : Metadata) (generation : Int) : Metadata :=
  { db with truthCutoverGeneration := some (String.ofList (numberText generation)) }

/-- The durable cutover generation; anything that is not a number counts as `0`. -/
def truthCutoverGenerationValue (db : Metadata) : Int :=
  (db.truthCutoverGeneration.bind fun raw => parseNumber (trimBlanks raw.toList)).getD 0

@[simp] theorem setTruthCutoverGeneration_cutoverFence (db : Metadata) (generation : Int) :
    (db.setTruthCutoverGeneration generation).cutoverFence = db.cutoverFence := rfl

@[simp] theorem setTruthCutoverGeneration_value (db : Metadata) (generation : Int) :
    (db.setTruthCutoverGeneration generation).truthCutoverGenerationValue = generation := by
  have hblank : ∀ c ∈ numberText generation, isWhitespace c = false :=
    fun c hmem => (numberText_apart generation c hmem).2
  simp [truthCutoverGenerationValue, setTruthCutoverGeneration, trimBlanks_eq hblank,
    parseNumber_numberText]

theorem cutoverFence_of_encode {db : Metadata} {fence : CutoverFence}
    (h : db.truthCutoverFence = some fence.encode) : db.cutoverFence = .ok fence := by
  simp [cutoverFence, h, parse_encode]

theorem cutoverFence_congr {db db' : Metadata}
    (h : db.truthCutoverFence = db'.truthCutoverFence) : db.cutoverFence = db'.cutoverFence := by
  rw [cutoverFence, h, ← cutoverFence]

/-- A swap found the fence it expected and left the next one, or changed nothing. -/
theorem swapCutoverFence_cases (db : Metadata) (observed next : CutoverFence) :
    (db.cutoverFence = .ok observed ∧ db.swapCutoverFence observed next =
        ({ db with truthCutoverFence := some next.encode }, true)) ∨
      (db.truthCutoverFence ≠ some observed.encode ∧
        db.swapCutoverFence observed next = (db, false)) := by
  by_cases hrow : db.truthCutoverFence = some observed.encode
  · refine Or.inl ⟨cutoverFence_of_encode hrow, ?_⟩
    rw [swapCutoverFence, if_pos (by simp [holdsFence, hrow])]
  · have hholds : db.holdsFence observed = false := by simpa [holdsFence] using hrow
    rw [swapCutoverFence, hholds]
    by_cases hinit : observed = .INITIAL ∧ db.truthCutoverFence = none
    · have hread : db.cutoverFence = .ok observed := by
        rw [cutoverFence, hinit.2, hinit.1]
      exact Or.inl ⟨hread, by simp [hinit]⟩
    · exact Or.inr ⟨hrow, by simp [hinit]⟩

end Metadata

end Wenlan.Truth.Fence
