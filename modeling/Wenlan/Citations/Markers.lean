import Wenlan.Support.IntegerText
import Wenlan.Temporal.Phrases
/-!
# Citation markers

What `citations.rs` does to the markers of a body: spaced and listed markers
become tight ones, and those that name no source are removed.  A removal may
join the text around it into a marker that was not there.
-/

namespace Wenlan.Citations

open Support.TextScan Support.IntegerText List
open Claims (isWhitespace)
open Temporal (UnicodeClasses)

/-- A body as its markers, by their digits, and the other characters. -/
inductive Token
  | char (c : Char)
  | marker (digits : List Char)

namespace Token

def text : Token → List Char
  | char c => [c]
  | marker digits => '[' :: (digits ++ [']'])

def digits? : Token → Option (List Char)
  | char _ => none
  | marker digits => some digits

def write (tokens : List Token) : List Char :=
  tokens.flatMap text

@[simp] theorem write_nil : write [] = [] := rfl

@[simp] theorem write_char (c : Char) (tokens : List Token) :
    write (char c :: tokens) = c :: write tokens := rfl

@[simp] theorem write_marker (digits : List Char) (tokens : List Token) :
    write (marker digits :: tokens) = '[' :: (digits ++ ']' :: write tokens) := by
  simp [write, text]

theorem write_append (tokens tokens' : List Token) :
    write (tokens ++ tokens') = write tokens ++ write tokens' := by
  exact flatMap_append

end Token

open Token (write)

section Patterns

variable (chars : UnicodeClasses)

/-- `\[(\d+)\]` -/
def RE_MARKER : Pattern (List Char) := fun c => do
  let (_, c) ← c.one (· = '[')
  let (digits, c) ← c.many1 chars.isDigit
  let (_, c) ← c.one (· = ']')
  pure (digits, c)

/-- `\[\s*(\d+)\s*\]` -/
def RE_SPACED_MARKER : Pattern (List Char) := fun c => do
  let (_, c) ← c.one (· = '[')
  let (_, c) := c.many isWhitespace
  let (digits, c) ← c.many1 chars.isDigit
  let (_, c) := c.many isWhitespace
  let (_, c) ← c.one (· = ']')
  pure (digits, c)

/-- `(?:\s*,\s*\d+)*` with each number; the text bounds how often it can repeat. -/
def listed : Nat → Cursor → List (List Char) × Cursor
  | 0, c => ([], c)
  | fuel + 1, c =>
    let next := do
      let (_, c) ← (c.many isWhitespace).2.one (· = ',')
      (c.many isWhitespace).2.many1 chars.isDigit
    match next with
    | none => ([], c)
    | some (digits, c) => ((digits :: (listed fuel c).1), (listed fuel c).2)

/-- `\[(\d+(?:\s*,\s*\d+)+)\]`, with the numbers of the list. -/
def RE_COMMA_MARKER : Pattern (List (List Char)) := fun c => do
  let (_, c) ← c.one (· = '[')
  let (first, c) ← c.many1 chars.isDigit
  let (others, c) := listed chars c.rest.length c
  let (_, c) ← if others = [] then none else c.one (· = ']')
  pure (first :: others, c)

/-- Normalize raw marker output: `[ 1 ]` to `[1]`, `[1,3]` to `[1][3]`. -/
def normalizeMarkers (body : List Char) : List Char :=
  let normalized := replaceAll (RE_SPACED_MARKER chars)
    (fun _ digits => (Token.marker digits).text) body
  replaceAll (RE_COMMA_MARKER chars) (fun _ numbers => write (numbers.map .marker)) normalized

def tokens (body : List Char) : List Token :=
  (pieces (RE_MARKER chars) body).map fun
    | .plain c => .char c
    | .hit _ digits => .marker digits

end Patterns

/-- `parse::<usize>` on digits. -/
def readUsize (digits : List Char) : Option Nat :=
  (digitsValue digits).filter fun n => decide (n < 2 ^ 64)

/-- `parse::<u32>().unwrap_or(0)` on digits. -/
def readU32 (digits : List Char) : Nat :=
  ((digitsValue digits).filter fun n => decide (n < 2 ^ 32)).getD 0

def inRange (numSources : Nat) (digits : List Char) : Bool :=
  let n := (readUsize digits).getD 0
  1 ≤ n && n ≤ numSources

def keepMarkers (keep : List Char → Bool) (tokens : List Token) : List Token :=
  tokens.filter fun
    | .char _ => true
    | .marker digits => keep digits

def markers (chars : UnicodeClasses) (body : List Char) : List (List Char) :=
  (tokens chars body).filterMap Token.digits?

def stripOutOfRange (chars : UnicodeClasses) (body : List Char) (numSources : Nat) :
    List Char × Nat :=
  (write (keepMarkers (inRange numSources) (tokens chars body)),
    ((markers chars body).filter (!inRange numSources ·)).length)

variable {digits : List Char}

section Keeping

variable {keep : List Char → Bool}

@[simp] theorem keepMarkers_char (c : Char) (tokens : List Token) :
    keepMarkers keep (.char c :: tokens) = .char c :: keepMarkers keep tokens := rfl

theorem keepMarkers_kept {tokens : List Token} (hkeep : keep digits) :
    keepMarkers keep (.marker digits :: tokens) = .marker digits :: keepMarkers keep tokens := by
  simp [keepMarkers, hkeep]

theorem keepMarkers_dropped {tokens : List Token} (hkeep : keep digits = false) :
    keepMarkers keep (.marker digits :: tokens) = keepMarkers keep tokens := by
  simp [keepMarkers, hkeep]

theorem keepMarkers_append (tokens tokens' : List Token) :
    keepMarkers keep (tokens ++ tokens') = keepMarkers keep tokens ++ keepMarkers keep tokens' := by
  exact filter_append ..

end Keeping

/-! ## The tokens of a body -/

variable {c : Char}

section Reading

variable (chars : UnicodeClasses)

def IsDigits (digits : List Char) : Prop :=
  digits ≠ [] ∧ ∀ c ∈ digits, chars.isDigit c = true

variable {chars}

theorem isDigit_of_ascii (hascii : c.toNat < 128) : chars.isDigit c = c.isDigit := by
  exact chars.digit_ascii c hascii

theorem ne_bracket_of_isDigit (hdigit : chars.isDigit c) : c ≠ '[' ∧ c ≠ ']' := by
  constructor
  all_goals
    rintro rfl
    rw [isDigit_of_ascii (by decide)] at hdigit
    exact absurd hdigit (by decide)

theorem takeWhile_digits (text : List Char) (hdig : ∀ c ∈ digits, chars.isDigit c) :
    (digits ++ ']' :: text).takeWhile chars.isDigit = digits ∧
      (digits ++ ']' :: text).dropWhile chars.isDigit = ']' :: text := by
  have hclose : chars.isDigit ']' = false := by
    rw [isDigit_of_ascii (by decide)]
    decide
  constructor
  · rw [takeWhile_append_of_pos hdig, takeWhile_cons, hclose]
    simp
  · rw [dropWhile_append_of_pos hdig, dropWhile_cons, hclose]
    simp

theorem reMarker_eq_some_iff {past text : List Char} {after : Cursor} :
    RE_MARKER chars ⟨past, text⟩ = some (digits, after) ↔
      IsDigits chars digits ∧ text = '[' :: (digits ++ ']' :: after.rest) ∧
        after.past = ']' :: (digits.reverse ++ '[' :: past) := by
  constructor
  · intro hread
    cases text with
    | nil => cases hread
    | cons c text =>
      by_cases hopen : c = '['
      · subst hopen
        simp only [RE_MARKER, Cursor.one, Cursor.many1, Cursor.many, decide_true, if_true,
          Option.bind_eq_bind, Option.bind_some] at hread
        cases hhead : Cursor.headIs chars.isDigit text with
        | false => simp [hhead] at hread
        | true =>
          rw [hhead] at hread
          cases hdrop : text.dropWhile chars.isDigit with
          | nil => simp [hdrop] at hread
          | cons c' rest =>
            simp only [hdrop] at hread
            by_cases hclose : c' = ']'
            · subst hclose
              simp only [decide_true, if_true, Option.bind_some, Option.pure_def,
                Option.some.injEq, Prod.mk.injEq] at hread
              obtain ⟨hdig, hafter⟩ := hread
              subst hafter
              have hsplit := takeWhile_append_dropWhile (p := chars.isDigit) (l := text)
              rw [hdrop, hdig] at hsplit
              refine ⟨⟨?_, ?_⟩, by rw [hsplit], by rw [hdig]⟩
              · rintro rfl
                rw [nil_append] at hsplit
                rw [← hsplit] at hhead
                exact absurd rfl (ne_bracket_of_isDigit hhead).2
              · rw [← hdig]
                exact fun c hmem => mem_takeWhile_imp hmem
            · simp [hclose] at hread
      · simp [RE_MARKER, Cursor.one, hopen] at hread
  · rintro ⟨hdig, htext, hpast⟩
    obtain ⟨htake, hdrop⟩ := takeWhile_digits after.rest hdig.2
    have hhead : Cursor.headIs chars.isDigit (digits ++ ']' :: after.rest) := by
      cases digits with
      | nil => exact absurd rfl hdig.1
      | cons c digits => exact hdig.2 c mem_cons_self
    obtain ⟨apast, arest⟩ := after
    subst htext hpast
    simp [RE_MARKER, Cursor.one, Cursor.many1, Cursor.many, hhead, htake, hdrop]

theorem reMarker_of_text {past text : List Char} (hdig : IsDigits chars digits) :
    RE_MARKER chars ⟨past, '[' :: (digits ++ ']' :: text)⟩ =
      some (digits, ⟨']' :: (digits.reverse ++ '[' :: past), text⟩) := by
  rw [reMarker_eq_some_iff]
  exact ⟨hdig, rfl, rfl⟩

theorem forward_reMarker : Forward (RE_MARKER chars) := by
  intro past past' rest
  cases hread : RE_MARKER chars ⟨past, rest⟩ with
  | none =>
    cases hread' : RE_MARKER chars ⟨past', rest⟩ with
    | none => rfl
    | some hit =>
      obtain ⟨hdig, htext, -⟩ := reMarker_eq_some_iff.1 hread'
      rw [htext, reMarker_of_text hdig] at hread
      cases hread
  | some hit =>
    obtain ⟨hdig, htext, -⟩ := reMarker_eq_some_iff.1 hread
    rw [htext, reMarker_of_text hdig]
    rfl

theorem tokens_marker {text : List Char} (hdig : IsDigits chars digits) :
    tokens chars ('[' :: (digits ++ ']' :: text)) = .marker digits :: tokens chars text := by
  have hread : RE_MARKER chars ⟨[], '[' :: ((digits ++ [']']) ++ text)⟩ =
      some (digits, ⟨']' :: (digits.reverse ++ ['[']), text⟩) := by
    rw [reMarker_eq_some_iff]
    exact ⟨hdig, by simp, rfl⟩
  have hpiec := pieces_of_some forward_reMarker hread rfl
  rw [append_assoc, singleton_append] at hpiec
  rw [tokens, hpiec, map_cons]
  rfl

theorem tokens_char {text : List Char}
    (hnone : ∀ digits rest, IsDigits chars digits → c :: text ≠ '[' :: (digits ++ ']' :: rest)) :
    tokens chars (c :: text) = .char c :: tokens chars text := by
  have hread : RE_MARKER chars ⟨[], c :: text⟩ = none := by
    rw [Option.eq_none_iff_forall_ne_some]
    intro hit hread
    obtain ⟨hdig, htext, -⟩ := reMarker_eq_some_iff.1 hread
    exact hnone _ _ hdig htext
  rw [tokens, pieces_of_none forward_reMarker hread, map_cons]
  rfl

theorem tokens_char_of_ne {text : List Char} (hne : c ≠ '[') :
    tokens chars (c :: text) = .char c :: tokens chars text := by
  apply tokens_char
  intro digits rest _ heq
  exact hne (cons.inj heq).1

variable (chars) in
theorem tokens_induction {P : List Char → Prop} (hnil : P [])
    (hmarker : ∀ digits text, IsDigits chars digits → P text → P ('[' :: (digits ++ ']' :: text)))
    (hchar : ∀ c text,
      (∀ digits rest, IsDigits chars digits → c :: text ≠ '[' :: (digits ++ ']' :: rest)) →
        P text → P (c :: text)) (text : List Char) : P text := by
  induction hlength : text.length using Nat.strong_induction_on generalizing text with
  | _ n ih =>
    cases text with
    | nil => exact hnil
    | cons c text =>
      by_cases hopens : ∃ digits rest, IsDigits chars digits ∧
          c :: text = '[' :: (digits ++ ']' :: rest)
      · obtain ⟨digits, rest, hdig, heq⟩ := hopens
        rw [heq] at hlength ⊢
        apply hmarker digits rest hdig
        apply ih rest.length _ rest rfl
        simp only [length_cons, length_append] at hlength
        omega
      · apply hchar c text
        · intro digits rest hdig heq
          exact hopens ⟨digits, rest, hdig, heq⟩
        · apply ih text.length _ text rfl
          rw [← hlength, length_cons]
          omega

variable (chars) in
theorem isDigits_of_mem_tokens {text digits : List Char}
    (hmem : .marker digits ∈ tokens chars text) : IsDigits chars digits := by
  induction text using tokens_induction chars with
  | hnil => cases hmem
  | hmarker digits' text hdig ih =>
    rw [tokens_marker hdig, mem_cons] at hmem
    apply hmem.elim
    · intro heq
      cases heq
      exact hdig
    · exact ih
  | hchar c text hnone ih =>
    rw [tokens_char hnone, mem_cons] at hmem
    apply hmem.elim
    · intro heq
      cases heq
    · exact ih

end Reading

/-! ## The markers of a cleaned body -/

section Joining

variable (chars : UnicodeClasses)

variable (keep : List Char → Bool)

/-- Digits up to a closing bracket, read past the markers that are not kept. -/
def closing : List Token → Option (List Char)
  | [] => none
  | .char c :: tokens =>
    if c = ']' then some []
    else if chars.isDigit c then (closing tokens).map (c :: ·)
    else none
  | .marker digits :: tokens => if keep digits then none else closing tokens

/-- The digits between the brackets that remain when the other markers are left out. -/
def remaining : List Token → List (List Char)
  | [] => []
  | .char c :: tokens =>
    match if c = '[' then closing chars keep tokens else none with
    | some (digit :: digits) => (digit :: digits) :: remaining tokens
    | _ => remaining tokens
  | .marker digits :: tokens =>
    if keep digits then digits :: remaining tokens else remaining tokens

/-- Digits between brackets, with markers among them that are not kept. -/
def Joins (tokens : List Token) (digits : List Char) : Prop :=
  ∃ before inner after, tokens = before ++ .char '[' :: (inner ++ .char ']' :: after) ∧
    write (keepMarkers keep inner) = digits ∧ IsDigits chars digits

variable {chars keep}

/-- The closing bracket is read off the tokens as it is off the text that remains. -/
theorem closing_iff_text {tokens : List Token} : closing chars keep tokens = some digits ↔
      (∀ c ∈ digits, chars.isDigit c) ∧
        ∃ text, write (keepMarkers keep tokens) = digits ++ ']' :: text := by
  induction tokens generalizing digits with
  | nil => simp [closing, keepMarkers]
  | cons token tokens ih =>
    cases token with
    | char c =>
      rw [keepMarkers_char, Token.write_char, closing]
      by_cases hclose : c = ']'
      · rw [if_pos hclose, Option.some.injEq]
        constructor
        · rintro rfl
          exact ⟨by simp, _, by rw [hclose]; rfl⟩
        · rintro ⟨hdig, text, htext⟩
          cases digits with
          | nil => rfl
          | cons digit digits =>
            have hdigit := hdig digit mem_cons_self
            rw [← (cons.inj htext).1] at hdigit
            exact absurd hclose (ne_bracket_of_isDigit hdigit).2
      · rw [if_neg hclose]
        cases hdigit : chars.isDigit c with
        | false =>
          apply iff_of_false (by simp)
          rintro ⟨hdig, text, htext⟩
          cases digits with
          | nil => exact hclose (cons.inj htext).1
          | cons digit digits =>
            have hdigit' := hdig digit mem_cons_self
            rw [← (cons.inj htext).1, hdigit] at hdigit'
            cases hdigit'
        | true =>
          simp only [if_true, Option.map_eq_some_iff]
          constructor
          · rintro ⟨digits, hclos, rfl⟩
            obtain ⟨hdig, text, htext⟩ := ih.1 hclos
            refine ⟨?_, text, by rw [htext]; rfl⟩
            intro digit hmem
            rw [mem_cons] at hmem
            exact hmem.elim (fun heq => heq ▸ hdigit) (hdig digit)
          · rintro ⟨hdig, text, htext⟩
            cases digits with
            | nil => exact absurd (cons.inj htext).1 hclose
            | cons digit digits =>
              obtain ⟨hhead, htail⟩ := cons.inj htext
              subst hhead
              refine ⟨digits, ih.2 ⟨?_, text, htail⟩, rfl⟩
              exact fun c hmem => hdig c (mem_cons_of_mem _ hmem)
    | marker inner =>
      rw [closing]
      cases hkeep : keep inner with
      | true =>
        rw [keepMarkers_kept hkeep, Token.write_marker]
        apply iff_of_false (by simp)
        rintro ⟨hdig, text, htext⟩
        cases digits with
        | nil => exact absurd (cons.inj htext).1 (by decide)
        | cons digit digits =>
          have hdigit := hdig digit mem_cons_self
          rw [← (cons.inj htext).1] at hdigit
          exact (ne_bracket_of_isDigit hdigit).1 rfl
      | false =>
        rw [keepMarkers_dropped hkeep]
        exact ih

theorem exists_of_closing {tokens : List Token}
    (hclos : closing chars keep tokens = some digits) :
    ∃ inner after, tokens = inner ++ .char ']' :: after ∧
      write (keepMarkers keep inner) = digits := by
  induction tokens generalizing digits with
  | nil => cases hclos
  | cons token tokens ih =>
    cases token with
    | char c =>
      rw [closing] at hclos
      by_cases hclose : c = ']'
      · rw [if_pos hclose] at hclos
        cases hclos
        exact ⟨[], tokens, by rw [hclose]; rfl, rfl⟩
      · rw [if_neg hclose] at hclos
        cases hdigit : chars.isDigit c with
        | false => simp [hdigit] at hclos
        | true =>
          rw [hdigit, if_pos rfl, Option.map_eq_some_iff] at hclos
          obtain ⟨others, hoth, heq⟩ := hclos
          obtain ⟨inner, after, hsplit, hwrite⟩ := ih hoth
          refine ⟨.char c :: inner, after, by rw [hsplit]; rfl, ?_⟩
          rw [keepMarkers_char, Token.write_char, hwrite, heq]
    | marker other =>
      rw [closing] at hclos
      cases hkeep : keep other with
      | true => simp [hkeep] at hclos
      | false =>
        rw [hkeep] at hclos
        obtain ⟨inner, after, hsplit, hwrite⟩ := ih hclos
        refine ⟨.marker other :: inner, after, by rw [hsplit]; rfl, ?_⟩
        rw [keepMarkers_dropped hkeep, hwrite]

theorem closing_append {inner after : List Token}
    (hdig : ∀ c ∈ write (keepMarkers keep inner), chars.isDigit c) :
    closing chars keep (inner ++ .char ']' :: after) = some (write (keepMarkers keep inner)) := by
  rw [closing_iff_text]
  refine ⟨hdig, write (keepMarkers keep after), ?_⟩
  rw [keepMarkers_append, Token.write_append, keepMarkers_char, Token.write_char]

theorem markers_of_ne {text : List Char} (hne : c ≠ '[') :
    markers chars (c :: text) = markers chars text := by
  rw [markers, tokens_char_of_ne hne]
  rfl

theorem markers_past_digits {text : List Char} (hdig : ∀ c ∈ digits, chars.isDigit c) :
    markers chars (digits ++ ']' :: text) = markers chars text := by
  induction digits with
  | nil => exact markers_of_ne (by decide)
  | cons c digits ih =>
    have hne := (ne_bracket_of_isDigit (hdig c mem_cons_self)).1
    rw [cons_append, markers_of_ne hne, ih]
    exact fun c hmem => hdig c (mem_cons_of_mem _ hmem)

theorem tokens_open {tokens : List Token}
    (hopen : ∀ digits, digits ≠ [] → closing chars keep tokens ≠ some digits) :
    Citations.tokens chars ('[' :: write (keepMarkers keep tokens)) =
      .char '[' :: Citations.tokens chars (write (keepMarkers keep tokens)) := by
  apply tokens_char
  intro digits text hdig heq
  exact hopen digits hdig.1 (closing_iff_text.2 ⟨hdig.2, text, (cons.inj heq).2⟩)

theorem tokens_closed {tokens : List Token} (hne : digits ≠ [])
    (hclos : closing chars keep tokens = some digits) :
    ∃ text, write (keepMarkers keep tokens) = digits ++ ']' :: text ∧ IsDigits chars digits ∧
      Citations.tokens chars ('[' :: write (keepMarkers keep tokens)) =
        .marker digits :: Citations.tokens chars text := by
  obtain ⟨hall, text, htext⟩ := closing_iff_text.1 hclos
  refine ⟨text, htext, ⟨hne, hall⟩, ?_⟩
  rw [htext, tokens_marker ⟨hne, hall⟩]

theorem markers_write_keep {tokens : List Token}
    (hdig : ∀ digits, .marker digits ∈ tokens → IsDigits chars digits) :
    markers chars (write (keepMarkers keep tokens)) = remaining chars keep tokens := by
  induction tokens with
  | nil => rfl
  | cons token tokens ih =>
    have ih := ih fun digits hmem => hdig digits (mem_cons_of_mem _ hmem)
    cases token with
    | char c =>
      rw [keepMarkers_char, Token.write_char, remaining]
      by_cases hopen : c = '['
      · rw [if_pos hopen, hopen]
        cases hclos : closing chars keep tokens with
        | none =>
          rw [markers, tokens_open (by simp [hclos])]
          exact ih
        | some digits =>
          cases digits with
          | nil =>
            rw [markers, tokens_open (by
              intro digits hne heq
              rw [hclos] at heq
              exact hne (Option.some.inj heq).symm)]
            exact ih
          | cons digit digits =>
            obtain ⟨text, htext, hall, htok⟩ := tokens_closed (by simp) hclos
            rw [← ih, markers, htok, htext, markers_past_digits hall.2]
            rfl
      · rw [if_neg hopen, markers_of_ne hopen, ih]
    | marker digits =>
      rw [remaining]
      cases hkeep : keep digits with
      | true =>
        rw [keepMarkers_kept hkeep, Token.write_marker, if_pos rfl, ← ih, markers,
          tokens_marker (hdig digits mem_cons_self)]
        rfl
      | false =>
        rw [keepMarkers_dropped hkeep, ih]
        rfl

theorem joins_cons_iff {token : Token} {tokens : List Token} :
    Joins chars keep (token :: tokens) digits ↔
      (token = .char '[' ∧ digits ≠ [] ∧ closing chars keep tokens = some digits) ∨
        Joins chars keep tokens digits := by
  constructor
  · rintro ⟨before, inner, after, hsplit, hwrite, hall⟩
    cases before with
    | nil =>
      obtain ⟨htoken, htok⟩ := cons.inj hsplit
      refine .inl ⟨htoken, hall.1, ?_⟩
      rw [htok, ← hwrite]
      apply closing_append
      rw [hwrite]
      exact hall.2
    | cons first before =>
      exact .inr ⟨before, inner, after, (cons.inj hsplit).2, hwrite, hall⟩
  · intro h
    apply h.elim
    · rintro ⟨htoken, hne, hclos⟩
      obtain ⟨inner, after, hsplit, hwrite⟩ := exists_of_closing hclos
      refine ⟨[], inner, after, by rw [htoken, hsplit]; rfl, hwrite, hne, ?_⟩
      exact (closing_iff_text.1 hclos).1
    · rintro ⟨before, inner, after, hsplit, hwrite, hall⟩
      exact ⟨token :: before, inner, after, by rw [hsplit]; rfl, hwrite, hall⟩

theorem mem_remaining_iff {tokens : List Token} : digits ∈ remaining chars keep tokens ↔
      (.marker digits ∈ tokens ∧ keep digits) ∨ Joins chars keep tokens digits := by
  induction tokens with
  | nil => simp [remaining, Joins]
  | cons token tokens ih =>
    rw [joins_cons_iff]
    cases token with
    | char c =>
      rw [remaining]
      by_cases hopen : c = '['
      · subst hopen
        rw [if_pos rfl]
        cases hclos : closing chars keep tokens with
        | none => simp [ih]
        | some found =>
          cases found with
          | nil =>
            grind
          | cons digit found =>
            grind
      · rw [if_neg hopen]
        simp [ih, hopen]
    | marker other =>
      rw [remaining]
      cases hkeep : keep other with
      | true => 
        grind
      | false =>
        grind

end Joining

end Wenlan.Citations
