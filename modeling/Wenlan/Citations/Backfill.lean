import Wenlan.Citations.Processing
import Wenlan.Pages.Watcher
/-!
# The annotate-only backfill

`run_citation_backfill`: the guard compares the output of the model with the stored
prose, and the body that is saved is the output after its markers were cleaned.
Cleaning takes characters away from the prose wherever it changes anything but the
markers that are tight already.
-/

namespace Wenlan.Citations

open Support.TextScan Support.Fallible Cursor List Option
open Claims (isWhitespace trimBlanks)
open Temporal (UnicodeClasses asciiClasses)
open Pages (splitAtText validateCanonicalPageContent)
open Token (write)

/-- `strip_think_tags`: each round of the loop takes out one block. -/
def stripThinkTags : Nat → List Char → List Char
  | 0, text => text
  | fuel + 1, text =>
    match splitAtText "<think>".toList text with
    | none => text
    | some (before, rest) =>
      match splitAtText "</think>".toList rest with
      | none => before
      | some (_, after) => stripThinkTags fuel (before ++ after)

/-- ` {2,}` -/
def RE_DOUBLE_SPACE : Pattern Unit := fun c => do
  let (_, c) ← c.one (· = ' ')
  let (_, c) ← c.many1 (· = ' ')
  pure ((), c)

/-- `\s+` -/
def RE_WHITESPACE : Pattern Unit := fun c => do
  let (_, c) ← c.many1 isWhitespace
  pure ((), c)

/-- Remove every `[N]` marker from body prose, collapsing the doubled blanks. -/
def stripMarkers (chars : UnicodeClasses) (body : List Char) : List Char :=
  let stripped := replaceAll (RE_MARKER chars) (fun _ _ => []) body
  trimBlanks (replaceAll RE_DOUBLE_SPACE (fun _ _ => [' ']) stripped)

/-- Collapse all whitespace runs to a single space and trim. -/
def normalizeWs (s : List Char) : List Char :=
  replaceAll RE_WHITESPACE (fun _ _ => [' ']) (trimBlanks s)

/-- How the sweep leaves a page; what is saved still has to pass the fences. -/
inductive Attempt (Score : Type)
  | gaveUp (reason : String)
  | failed (reason : String)
  | refused
  | save (body : List Char) (citations : List (PageCitation Score))

def readReply (raw : List Char) : List Char :=
  trimBlanks (stripThinkTags raw.length raw)

section Annotate

variable {Score : Type} (chars : UnicodeClasses)
  (bidirectionalSupport : List Char → List Char → Score) (supports : Score → Bool)

def annotatePage (content : List Char) (locators : List String) (numbered : List NumberedSource)
    (reply : Option (List Char)) : Except Fault (Attempt Score) :=
  if locators = [] then .ok (.gaveUp "citation backfill gave up: no source evidence")
  else if numbered.isEmpty then
    .ok (.gaveUp ("citation backfill gave up: " ++ toString locators.length ++
      " evidence locator(s) resolve to no content"))
  else match reply with
    | none => .ok (.failed "citation backfill gave up: provider error after 3 attempts")
    | some raw =>
      let out := readReply raw
      if normalizeWs (stripMarkers chars out) = normalizeWs (stripMarkers chars content) then do
        let found ← processCitationOutput chars bidirectionalSupport supports numbered out
        if found.citations.isEmpty then
          pure (.failed "citation backfill gave up: zero markers after 3 attempts")
        else match validateCanonicalPageContent (String.ofList found.body) with
          | .error _ => pure .refused
          | .ok _ => pure (.save found.body found.citations)
      else .ok (.failed "citation backfill gave up: annotate guard rejected 3x")

end Annotate

def ink (text : List Char) : List Char :=
  text.filter fun c => !isWhitespace c

def prose (chars : UnicodeClasses) (body : List Char) : List Char :=
  ink (bareBody (tokens chars body))

variable {digits : List Char} {c : Char}

section Prose

variable {chars : UnicodeClasses}

@[simp] theorem ink_append (text text' : List Char) :
    ink (text ++ text') = ink text ++ ink text' := by
  exact filter_append ..

theorem ink_cons (c : Char) (text : List Char) : ink (c :: text) = ink [c] ++ ink text := by
  exact ink_append [c] text

theorem bareBody_char (c : Char) (tokens : List Token) :
    bareBody (.char c :: tokens) = c :: bareBody tokens := rfl

theorem bareBody_marker (digits : List Char) (tokens : List Token) :
    bareBody (.marker digits :: tokens) = bareBody tokens := rfl

theorem prose_marker {text : List Char} (hdig : IsDigits chars digits) :
    prose chars ('[' :: (digits ++ ']' :: text)) = prose chars text := by
  rw [prose, tokens_marker hdig, bareBody_marker]
  rfl

theorem prose_char {text : List Char}
    (hnone : ∀ digits rest, IsDigits chars digits → c :: text ≠ '[' :: (digits ++ ']' :: rest)) :
    prose chars (c :: text) = ink [c] ++ prose chars text := by
  rw [prose, tokens_char hnone, bareBody_char, ink_cons]
  rfl

theorem prose_append {a text : List Char} (hnone : '[' ∉ a) :
    prose chars (a ++ text) = ink a ++ prose chars text := by
  induction a with
  | nil => rfl
  | cons c a ih =>
    rw [mem_cons, not_or] at hnone
    have hchar : prose chars (c :: (a ++ text)) = ink [c] ++ prose chars (a ++ text) := by
      apply prose_char
      intro digits rest _ heq
      exact hnone.1 (cons.inj heq).1.symm
    rw [cons_append, hchar, ih hnone.2, ink_cons c a, append_assoc]

theorem ink_trimBlanks (text : List Char) : ink (trimBlanks text) = ink text := by
  have hdrop : ∀ text : List Char, ink (text.dropWhile isWhitespace) = ink text := by
    intro text
    conv_rhs => rw [← @takeWhile_append_dropWhile _ isWhitespace text]
    rw [ink_append]
    have hnil : ink (text.takeWhile isWhitespace) = [] := by
      rw [ink, filter_eq_nil_iff]
      intro c hmem
      simp [mem_takeWhile_imp hmem]
    rw [hnil, nil_append]
  have hrev : ∀ text : List Char, ink text.reverse = (ink text).reverse := by
    intro text
    exact filter_reverse ..
  rw [trimBlanks, hrev, hdrop, hrev, hdrop, reverse_reverse]

theorem ink_replaceAll {p : Pattern Unit} {text : List Char}
    (hblank : ∀ c : Cursor, ∀ hit, p c = some hit → ∃ read, c.rest = read ++ hit.2.rest ∧
      read ≠ [] ∧ ∀ x ∈ read, isWhitespace x) :
    ink (replaceAll p (fun _ _ => [' ']) text) = ink text := by
  apply filter_replaceAll
  intro read groups hmem
  obtain ⟨past, c, rest, after, hread, htake⟩ := mem_piecesFrom hmem
  obtain ⟨blanks, hsplit, hne, hall⟩ := hblank _ _ hread
  have hread : read = blanks := by
    have hpos := length_pos_iff.2 hne
    simp only at hsplit
    have hlen := congrArg length hsplit
    simp only [length_cons, length_append] at hlen
    rw [htake, hsplit]
    apply take_left'
    omega
  rw [hread]
  have hnil : blanks.filter (fun c => !isWhitespace c) = [] := by
    rw [filter_eq_nil_iff]
    intro c hmem
    simp [hall c hmem]
  rw [hnil]
  rfl

theorem bareBody_eq_replaceAll (body : List Char) :
    replaceAll (RE_MARKER chars) (fun _ _ => []) body = bareBody (tokens chars body) := by
  rw [replaceAll, tokens]
  induction pieces (RE_MARKER chars) body with
  | nil => rfl
  | cons piece others ih =>
    cases piece with
    | plain c => exact congrArg (c :: ·) ih
    | hit read digits => exact ih

theorem ink_normalizeWs_stripMarkers (body : List Char) :
    ink (normalizeWs (stripMarkers chars body)) = prose chars body := by
  rw [normalizeWs, ink_replaceAll, ink_trimBlanks, stripMarkers, ink_trimBlanks, ink_replaceAll,
    bareBody_eq_replaceAll, prose]
  · intro c hit hread
    simp only [RE_DOUBLE_SPACE, bind_eq_bind, bind_eq_some_iff] at hread
    obtain ⟨⟨x, c'⟩, hone, ⟨run, c''⟩, hmany, hpure⟩ := hread
    cases hpure
    obtain ⟨hsplit, hx⟩ := one_eq_some hone
    obtain ⟨hrest, -, hall⟩ := many1_eq_some hmany
    refine ⟨x :: run, ?_, by simp, ?_⟩
    · rw [hsplit, hrest, cons_append]
    · intro z hmem
      have hspace : z = ' ' := by
        rw [mem_cons] at hmem
        exact hmem.elim (fun heq => heq ▸ of_decide_eq_true hx)
          fun hmem => of_decide_eq_true (hall z hmem)
      rw [hspace]
      decide
  · intro c hit hread
    simp only [RE_WHITESPACE, bind_eq_bind, bind_eq_some_iff] at hread
    obtain ⟨⟨run, c'⟩, hmany, hpure⟩ := hread
    cases hpure
    exact ⟨run, many1_eq_some hmany⟩

end Prose

/-! ## Making markers tight -/

section Tightening

variable {α : Type} {chars : UnicodeClasses} {p : Pattern α} {new : List Char → α → List Char}

structure Tightens (chars : UnicodeClasses) (p : Pattern α) (new : List Char → α → List Char) :
    Prop where
  forward : Forward p
  marker : ∀ digits rest, IsDigits chars digits →
    replaceAll p new ('[' :: (digits ++ ']' :: rest)) =
        '[' :: (digits ++ ']' :: replaceAll p new rest) ∧
      (Settled p new rest → Settled p new ('[' :: (digits ++ ']' :: rest)))
  hit : ∀ text hit, p ⟨[], text⟩ = some hit →
    ∃ inner, text = '[' :: (inner ++ ']' :: hit.2.rest) ∧ '[' ∉ inner ∧
      ∃ numbers, numbers ≠ [] ∧ (∀ digits ∈ numbers, IsDigits chars digits) ∧
        ∀ read, new read hit.1 = write (numbers.map .marker)

variable {rest : List Char}

namespace Tightens

variable (h : Tightens chars p new)

include h

theorem cons_of_replaceAll {text : List Char} (hne : c ≠ '[')
    (heq : replaceAll p new text = c :: rest) :
    ∃ text', text = c :: text' ∧ replaceAll p new text' = rest := by
  cases text with
  | nil => cases heq
  | cons x text =>
    cases hread : p ⟨[], x :: text⟩ with
    | none =>
      rw [replaceAll_of_none h.forward hread] at heq
      obtain ⟨hx, hrest⟩ := cons.inj heq
      exact ⟨text, by rw [hx], hrest⟩
    | some hit =>
      obtain ⟨inner, htext, -, numbers, hnums, -, hnew⟩ := h.hit _ _ hread
      have hbody : x :: text = '[' :: ((inner ++ [']']) ++ hit.2.rest) := by
        rw [htext, append_assoc]
        rfl
      rw [hbody] at hread heq
      rw [replaceAll_of_some h.forward hread rfl, hnew] at heq
      cases numbers with
      | nil => exact absurd rfl hnums
      | cons digits numbers => exact absurd (cons.inj heq).1.symm hne

theorem closes_of_replaceAll {text : List Char}
    (hdig : ∀ c ∈ digits, chars.isDigit c)
    (heq : replaceAll p new text = digits ++ ']' :: rest) :
    ∃ rest', text = digits ++ ']' :: rest' := by
  induction digits generalizing text with
  | nil =>
    obtain ⟨rest', htext, -⟩ := h.cons_of_replaceAll (by decide) heq
    exact ⟨rest', htext⟩
  | cons c digits ih =>
    have hne := (ne_bracket_of_isDigit (hdig c mem_cons_self)).1
    obtain ⟨text', htext, hrest⟩ := h.cons_of_replaceAll hne heq
    obtain ⟨rest', htext'⟩ := ih (fun c hmem => hdig c (mem_cons_of_mem _ hmem)) hrest
    exact ⟨rest', by rw [htext, htext']; rfl⟩

/-- A text whose markers are not all tight loses prose when they are made so. -/
theorem settled_or_prose_lt (text : List Char) : Settled p new text ∨
      (prose chars (replaceAll p new text)).length < (prose chars text).length := by
  induction hlen : text.length using Nat.strong_induction_on generalizing text with
  | _ n ih =>
    by_cases hmarker : ∃ digits rest, IsDigits chars digits ∧ text = '[' :: (digits ++ ']' :: rest)
    · obtain ⟨digits, rest, hdig, htext⟩ := hmarker
      have hrest := ih rest.length (by
        rw [← hlen, htext, length_cons, length_append, length_cons]
        omega) rest rfl
      rw [htext, (h.marker digits rest hdig).1, prose_marker hdig, prose_marker hdig]
      exact hrest.imp_left (h.marker digits rest hdig).2
    · have hnone : ∀ digits rest, IsDigits chars digits →
          text ≠ '[' :: (digits ++ ']' :: rest) :=
        fun digits rest hdig heq => hmarker ⟨digits, rest, hdig, heq⟩
      cases text with
      | nil =>
        left
        intro read groups hmem
        cases hmem
      | cons c text =>
        cases hread : p ⟨[], c :: text⟩ with
        | none =>
          have hrest := ih text.length (by
            rw [← hlen, length_cons]
            omega) text rfl
          have hnone' : ∀ digits rest, IsDigits chars digits →
              c :: replaceAll p new text ≠ '[' :: (digits ++ ']' :: rest) := by
            intro digits rest hdig heq
            obtain ⟨hc, htail⟩ := cons.inj heq
            obtain ⟨rest', htext⟩ := h.closes_of_replaceAll hdig.2 htail
            exact hnone digits rest' hdig (by rw [hc, htext])
          rw [replaceAll_of_none h.forward hread, prose_char hnone, prose_char hnone',
            length_append, length_append]
          apply hrest.imp
          · intro hset read groups hmem
            rw [pieces_of_none h.forward hread, mem_cons] at hmem
            exact hmem.elim (fun heq => by cases heq) (hset read groups)
          · intro hlt
            omega
        | some hit =>
          right
          obtain ⟨inner, htext, hinner, numbers, hnums, hdig, hnew⟩ := h.hit _ _ hread
          have hrest := ih hit.2.rest.length (by
            rw [← hlen, htext, length_cons, length_append, length_cons]
            omega) hit.2.rest rfl
          have hle : (prose chars (replaceAll p new hit.2.rest)).length ≤
              (prose chars hit.2.rest).length := by
            apply hrest.elim
            · intro hset
              rw [replaceAll_of_settled hset]
            · exact Nat.le_of_lt
          have hbody : c :: text = '[' :: ((inner ++ [']']) ++ hit.2.rest) := by
            rw [htext, append_assoc]
            rfl
          have hclos : '[' ∉ inner ++ [']'] := by
            simp [hinner]
          have hlost : ∀ numbers : List (List Char),
              (∀ digits ∈ numbers, IsDigits chars digits) → ∀ text,
                prose chars (write (numbers.map .marker) ++ text) = prose chars text := by
            intro numbers hdig text
            induction numbers with
            | nil => rfl
            | cons digits numbers ih =>
              rw [map_cons, Token.write_marker, cons_append, append_assoc,
                cons_append, prose_marker (hdig digits mem_cons_self)]
              exact ih fun other hmem => hdig other (mem_cons_of_mem _ hmem)
          rw [hbody] at hread hnone ⊢
          rw [replaceAll_of_some h.forward hread rfl, hnew, hlost numbers hdig, prose_char hnone,
            prose_append hclos, length_append, length_append]
          have hopen : (ink ['[']).length = 1 := by decide
          omega

end Tightens

variable (hdigit : ∀ c, chars.isDigit c → isWhitespace c = false)

theorem forward_spaced : Forward (RE_SPACED_MARKER chars) := by
  intro past past' rest
  cases rest with
  | nil => rfl
  | cons c rest =>
    simp only [RE_SPACED_MARKER, one, many, many1, bind_eq_bind]
    by_cases hopen : c = '['
    · simp only [hopen, decide_true, if_true, bind_some]
      by_cases hhead : headIs chars.isDigit (rest.dropWhile isWhitespace)
      · simp only [hhead, if_true, bind_some]
        cases ((rest.dropWhile isWhitespace).dropWhile chars.isDigit).dropWhile isWhitespace with
        | nil => rfl
        | cons c' tail =>
          by_cases hclose : c' = ']'
          all_goals simp [hclose]
      · simp [hhead]
    · simp [hopen]

theorem spaced_spec {text : List Char} {hit : List Char × Cursor}
    (hread : RE_SPACED_MARKER chars ⟨[], text⟩ = some hit) :
    ∃ before after, text = '[' :: (before ++ (hit.1 ++ (after ++ ']' :: hit.2.rest))) ∧
      (∀ x ∈ before, isWhitespace x) ∧ (∀ x ∈ after, isWhitespace x) ∧
      IsDigits chars hit.1 := by
  simp only [RE_SPACED_MARKER, bind_eq_bind, bind_eq_some_iff] at hread
  obtain ⟨⟨x, c₁⟩, hopen, ⟨digits, c₂⟩, hdig, ⟨y, c₃⟩, hclose, hpure⟩ := hread
  cases hpure
  obtain ⟨hsplit, hx⟩ := one_eq_some hopen
  obtain ⟨hsplit₁, hne, hall⟩ := many1_eq_some hdig
  obtain ⟨hsplit₂, hy⟩ := one_eq_some hclose
  have hbef := many_spec isWhitespace c₁
  have hafter := many_spec isWhitespace c₂
  simp only [decide_eq_true_eq] at hsplit hx hsplit₁ hsplit₂ hy hne hall
  refine ⟨(c₁.many isWhitespace).1, (c₂.many isWhitespace).1, ?_, hbef.2, hafter.2, hne, hall⟩
  rw [hsplit, hx, hbef.1, hsplit₁, hafter.1, hsplit₂, hy]

include hdigit in
theorem spaced_marker {digits : List Char} (rest : List Char) (hdig : IsDigits chars digits) :
    RE_SPACED_MARKER chars ⟨[], '[' :: ((digits ++ [']']) ++ rest)⟩ =
      some (digits, ⟨']' :: (digits.reverse ++ ['[']), rest⟩) := by
  obtain ⟨htake, hdrop⟩ := takeWhile_digits rest hdig.2
  obtain ⟨hne, hall⟩ := hdig
  have hblank : (digits ++ ']' :: rest).takeWhile isWhitespace = [] ∧
      (digits ++ ']' :: rest).dropWhile isWhitespace = digits ++ ']' :: rest ∧
      headIs chars.isDigit (digits ++ ']' :: rest) := by
    cases digits with
    | nil => exact absurd rfl hne
    | cons c digits =>
      have hc := hall c mem_cons_self
      have hspace := hdigit c hc
      exact ⟨by simp [hspace], by simp [hspace], hc⟩
  have hclose : isWhitespace ']' = false := by decide
  have hrest : (']' :: rest).takeWhile isWhitespace = [] ∧
      (']' :: rest).dropWhile isWhitespace = ']' :: rest := by
    simp [hclose]
  rw [append_assoc, singleton_append]
  simp [RE_SPACED_MARKER, one, many, many1, hblank, htake, hdrop, hrest]

include hdigit in
theorem tightens_spaced :
    Tightens chars (RE_SPACED_MARKER chars) (fun _ digits => (Token.marker digits).text) where
  forward := forward_spaced
  marker := by
    intro digits rest hdig
    have hread := spaced_marker hdigit rest hdig
    have htext : '[' :: (digits ++ ']' :: rest) = '[' :: ((digits ++ [']']) ++ rest) := by
      rw [append_assoc, singleton_append]
    rw [htext]
    constructor
    · rw [replaceAll_of_some forward_spaced hread rfl, Token.text, cons_append,
        append_assoc, singleton_append]
    · intro hset read groups hmem
      rw [pieces_of_some forward_spaced hread rfl, mem_cons] at hmem
      apply hmem.elim
      · intro heq
        cases heq
        rfl
      · exact hset read groups
  hit := by
    intro text hit hread
    obtain ⟨before, after, htext, hbef, hafter, hdig⟩ := spaced_spec hread
    refine ⟨before ++ (hit.1 ++ after), by rw [htext]; simp, ?_, [hit.1], by simp, ?_, ?_⟩
    · have hspace : isWhitespace '[' = false := by decide
      intro hmem
      rw [mem_append, mem_append] at hmem
      rcases hmem with hmem | hmem | hmem
      · rw [hbef _ hmem] at hspace
        cases hspace
      · exact (ne_bracket_of_isDigit (hdig.2 _ hmem)).1 rfl
      · rw [hafter _ hmem] at hspace
        cases hspace
    · intro digits hmem
      rw [mem_singleton] at hmem
      rw [hmem]
      exact hdig
    · intro read
      simp [Token.text]

/-! ### Lists of numbers -/

variable (chars) in
theorem listed_past (fuel : Nat) (past past' rest : List Char) :
    (listed chars fuel ⟨past, rest⟩).1 = (listed chars fuel ⟨past', rest⟩).1 ∧
      (listed chars fuel ⟨past, rest⟩).2.rest = (listed chars fuel ⟨past', rest⟩).2.rest := by
  induction fuel generalizing past past' rest with
  | zero => exact ⟨rfl, rfl⟩
  | succ fuel ih =>
    simp only [listed, one, many, many1, bind_eq_bind]
    cases rest.dropWhile isWhitespace with
    | nil => exact ⟨rfl, rfl⟩
    | cons c tail =>
      by_cases hcomma : c = ','
      · simp only [hcomma, decide_true, if_true, bind_some]
        by_cases hhead : headIs chars.isDigit (tail.dropWhile isWhitespace)
        · simp only [hhead, if_true]
          exact ⟨congrArg _ (ih _ _ _).1, (ih _ _ _).2⟩
        · simp [hhead]
      · simp [hcomma]

variable (chars) in
theorem listed_spec (fuel : Nat) (c : Cursor) :
    ∃ read, c.rest = read ++ (listed chars fuel c).2.rest ∧ '[' ∉ read ∧
      ∀ digits ∈ (listed chars fuel c).1, IsDigits chars digits := by
  induction fuel generalizing c with
  | zero => exact ⟨[], rfl, by simp, by simp [listed]⟩
  | succ fuel ih =>
    rw [listed]
    split
    next => exact ⟨[], rfl, by simp, by simp⟩
    next digits c₃ hnext =>
      simp only [bind_eq_bind, bind_eq_some_iff] at hnext
      obtain ⟨⟨x, c₂⟩, hcomma, hdig⟩ := hnext
      obtain ⟨hsplit, hx⟩ := one_eq_some hcomma
      obtain ⟨hsplit', hne, hall⟩ := many1_eq_some hdig
      obtain ⟨hfirst, hblank⟩ := many_spec isWhitespace c
      obtain ⟨hsec, hblank'⟩ := many_spec isWhitespace c₂
      obtain ⟨read, hrest, hnone, hoth⟩ := ih c₃
      simp only [decide_eq_true_eq] at hsplit hx hsplit' hne hall
      have hspace : isWhitespace '[' = false := by decide
      refine ⟨(c.many isWhitespace).1 ++ x :: ((c₂.many isWhitespace).1 ++ (digits ++ read)),
        ?_, ?_, ?_⟩
      · rw [hfirst, hsplit, hsec, hsplit', hrest]
        simp
      · intro hmem
        simp only [mem_append, mem_cons] at hmem
        rcases hmem with hmem | hmem | hmem | hmem | hmem
        · rw [hblank _ hmem] at hspace
          cases hspace
        · rw [hx] at hmem
          exact absurd hmem (by decide)
        · rw [hblank' _ hmem] at hspace
          cases hspace
        · exact (ne_bracket_of_isDigit (hall _ hmem)).1 rfl
        · exact hnone hmem
      · intro other hmem
        rw [mem_cons] at hmem
        exact hmem.elim (fun heq => heq ▸ ⟨hne, hall⟩) (hoth other)

theorem forward_comma : Forward (RE_COMMA_MARKER chars) := by
  intro past past' rest
  cases rest with
  | nil => rfl
  | cons c rest =>
    simp only [RE_COMMA_MARKER, one, many, many1, bind_eq_bind]
    by_cases hopen : c = '['
    · simp only [hopen, decide_true, if_true, bind_some]
      by_cases hhead : headIs chars.isDigit rest
      · simp only [hhead, if_true, bind_some]
        obtain ⟨hoth, htail⟩ := listed_past chars
          (rest.dropWhile chars.isDigit).length
          ((rest.takeWhile chars.isDigit).reverse ++ '[' :: past)
          ((rest.takeWhile chars.isDigit).reverse ++ '[' :: past') (rest.dropWhile chars.isDigit)
        rw [hoth, htail]
        split_ifs
        · rfl
        · split
          · rfl
          · split_ifs
            · rfl
            · rfl
      · simp [hhead]
    · simp [hopen]

theorem comma_marker (hdig : IsDigits chars digits) :
    RE_COMMA_MARKER chars ⟨[], '[' :: (digits ++ ']' :: rest)⟩ = none := by
  obtain ⟨htake, hdrop⟩ := takeWhile_digits rest hdig.2
  have hclose : isWhitespace ']' = false := by decide
  have hlist : ∀ past, (listed chars (']' :: rest).length ⟨past, ']' :: rest⟩).1 = [] := by
    intro past
    simp [listed, one, many, hclose]
  simp only [RE_COMMA_MARKER, one, many, many1, decide_true, if_true,
    bind_eq_bind, bind_some, htake, hdrop]
  split_ifs
  · simp only [bind_some, hlist, if_true, bind_none]
  · rfl

theorem comma_of_ne (hne : c ≠ '[') : RE_COMMA_MARKER chars ⟨[], c :: rest⟩ = none := by
  simp [RE_COMMA_MARKER, one, hne]

theorem pieces_comma_append {a text : List Char} (hnone : '[' ∉ a) :
    pieces (RE_COMMA_MARKER chars) (a ++ text) =
      a.map .plain ++ pieces (RE_COMMA_MARKER chars) text := by
  induction a with
  | nil => rfl
  | cons c a ih =>
    rw [mem_cons, not_or] at hnone
    rw [cons_append, pieces_of_none forward_comma (comma_of_ne (Ne.symm hnone.1)), ih hnone.2]
    rfl

theorem pieces_comma_marker (hdig : IsDigits chars digits) :
    pieces (RE_COMMA_MARKER chars) ('[' :: (digits ++ ']' :: rest)) =
      ('[' :: (digits ++ [']'])).map .plain ++ pieces (RE_COMMA_MARKER chars) rest := by
  have hnone : '[' ∉ digits ++ [']'] := by
    rw [mem_append]
    rintro (hmem | hmem)
    · exact (ne_bracket_of_isDigit (hdig.2 _ hmem)).1 rfl
    · simp at hmem
  have hrest : digits ++ ']' :: rest = (digits ++ [']']) ++ rest := by
    simp
  rw [pieces_of_none forward_comma (comma_marker hdig), hrest, pieces_comma_append hnone]
  rfl

variable (chars) in
theorem tightens_comma :
    Tightens chars (RE_COMMA_MARKER chars) (fun _ numbers => write (numbers.map .marker)) where
  forward := forward_comma
  marker := by
    intro digits rest hdig
    have hplain : ∀ a : List Char, (a.map Piece.plain).flatMap
        (Piece.write fun _ (numbers : List (List Char)) => write (numbers.map .marker)) = a := by
      intro a
      induction a with
      | nil => rfl
      | cons c a ih => exact congrArg (c :: ·) ih
    constructor
    · rw [replaceAll, pieces_comma_marker hdig, flatMap_append, hplain]
      simp [replaceAll]
    · intro hset read groups hmem
      rw [pieces_comma_marker hdig, mem_append] at hmem
      apply hmem.elim
      · intro hmem
        obtain ⟨c, -, heq⟩ := mem_map.1 hmem
        cases heq
      · exact hset read groups
  hit := by
    intro text hit hread
    simp only [RE_COMMA_MARKER, bind_eq_bind, bind_eq_some_iff] at hread
    obtain ⟨⟨x, c₁⟩, hopen, ⟨first, c₂⟩, hfirst, hrest⟩ := hread
    split_ifs at hrest with hnil
    · cases hrest
    obtain ⟨⟨y, c₃⟩, hclose, hpure⟩ := bind_eq_some_iff.1 hrest
    obtain ⟨hsplit, hx⟩ := one_eq_some hopen
    obtain ⟨hsplit₁, hne, hall⟩ := many1_eq_some hfirst
    obtain ⟨read, hsplit₂, hnone, hoth⟩ := listed_spec chars c₂.rest.length c₂
    obtain ⟨hsplit₃, hy⟩ := one_eq_some hclose
    cases hpure
    simp only [decide_eq_true_eq] at hsplit hx hsplit₁ hsplit₂ hsplit₃ hy hne hall
    refine ⟨first ++ read, ?_, ?_, first :: (listed chars c₂.rest.length c₂).1, by simp, ?_, ?_⟩
    · rw [hsplit, hx, hsplit₁, hsplit₂, hsplit₃, hy]
      simp
    · intro hmem
      rw [mem_append] at hmem
      apply hmem.elim
      · exact fun hmem => (ne_bracket_of_isDigit (hall _ hmem)).1 rfl
      · exact hnone
    · intro digits hmem
      rw [mem_cons] at hmem
      exact hmem.elim (fun heq => heq ▸ ⟨hne, hall⟩) (hoth digits)
    · intro _
      rfl

end Tightening

section Stripping

variable {chars : UnicodeClasses} {keep : List Char → Bool}

section

variable {tokens : List Token} (hdig : ∀ digits, .marker digits ∈ tokens → IsDigits chars digits)
include hdig

theorem bareBody_of_not_joins (hnone : ∀ digits, ¬Joins chars keep tokens digits) :
    bareBody (Citations.tokens chars (write (keepMarkers keep tokens))) = bareBody tokens := by
  induction tokens with
  | nil => rfl
  | cons token tokens ih =>
    have ih := ih (fun digits hmem => hdig digits (mem_cons_of_mem _ hmem))
      fun digits h => hnone digits (joins_cons_iff.2 (.inr h))
    cases token with
    | char c =>
      rw [keepMarkers_char, Token.write_char, bareBody_char, ← ih]
      by_cases hopen : c = '['
      · rw [hopen, tokens_open, bareBody_char]
        intro digits hne hclosi
        exact hnone digits (joins_cons_iff.2 (.inl ⟨by rw [hopen], hne, hclosi⟩))
      · rw [tokens_char_of_ne hopen, bareBody_char]
    | marker digits =>
      rw [bareBody_marker, ← ih]
      cases hkeep : keep digits with
      | true =>
        rw [keepMarkers_kept hkeep, Token.write_marker,
          tokens_marker (hdig digits mem_cons_self), bareBody_marker]
      | false => rw [keepMarkers_dropped hkeep]

theorem prose_lt_of_joins (hjoins : ∃ digits, Joins chars keep tokens digits) :
    (prose chars (write (keepMarkers keep tokens))).length < (ink (bareBody tokens)).length := by
  induction tokens with
  | nil =>
    obtain ⟨digits, before, inner, after, hsplit, -⟩ := hjoins
    simp at hsplit
  | cons token tokens ih =>
    have hdig' : ∀ digits, .marker digits ∈ tokens → IsDigits chars digits :=
      fun digits hmem => hdig digits (mem_cons_of_mem _ hmem)
    have ih := ih hdig'
    cases token with
    | char c =>
      rw [keepMarkers_char, Token.write_char, bareBody_char, ink_cons, length_append]
      by_cases hopen : c = '['
      · have hone : (ink [c]).length = 1 := by
          rw [hopen]
          decide
        by_cases hclos : ∃ digits, digits ≠ [] ∧ closing chars keep tokens = some digits
        · obtain ⟨digits, hne, hclosi⟩ := hclos
          obtain ⟨text, htext, hall, htok⟩ := tokens_closed hne hclosi
          have hle : (prose chars (write (keepMarkers keep tokens))).length ≤
              (ink (bareBody tokens)).length := by
            by_cases hlater : ∃ digits, Joins chars keep tokens digits
            · exact Nat.le_of_lt (ih hlater)
            · rw [prose, bareBody_of_not_joins hdig' fun digits h => hlater ⟨digits, h⟩]
          have hplain : '[' ∉ digits := fun hmem => (ne_bracket_of_isDigit (hall.2 _ hmem)).1 rfl
          rw [htext, prose_append hplain, length_append] at hle
          have hinner : (prose chars text).length ≤ (prose chars (']' :: text)).length := by
            have hclose : '[' ∉ [']'] := by decide
            have hprose : prose chars ([']'] ++ text) = ink [']'] ++ prose chars text :=
              prose_append hclose
            rw [singleton_append] at hprose
            rw [hprose, length_append]
            omega
          rw [hopen, prose, htok, bareBody_marker]
          rw [hopen] at hone
          have hsame : (ink (bareBody (Citations.tokens chars text))).length =
            (prose chars text).length := rfl
          omega
        · have hlater : ∃ digits, Joins chars keep tokens digits := by
            obtain ⟨digits, h⟩ := hjoins
            rw [joins_cons_iff] at h
            exact h.elim (fun h => absurd ⟨digits, h.2⟩ hclos) fun h => ⟨digits, h⟩
          have hlt := ih hlater
          rw [hopen, prose, tokens_open (fun digits hne h => hclos ⟨digits, hne, h⟩), bareBody_char,
            ink_cons, length_append]
          exact Nat.add_lt_add_left hlt _
      · have hlater : ∃ digits, Joins chars keep tokens digits := by
          obtain ⟨digits, h⟩ := hjoins
          rw [joins_cons_iff] at h
          exact h.elim (fun h => absurd (Token.char.inj h.1) hopen) fun h => ⟨digits, h⟩
        rw [prose, tokens_char_of_ne hopen, bareBody_char, ink_cons, length_append]
        exact Nat.add_lt_add_left (ih hlater) _
    | marker digits =>
      have hlater : ∃ digits, Joins chars keep tokens digits := by
        obtain ⟨other, h⟩ := hjoins
        rw [joins_cons_iff] at h
        exact h.elim (fun h => by cases h.1) fun h => ⟨other, h⟩
      rw [bareBody_marker]
      cases hkeep : keep digits with
      | true =>
        rw [keepMarkers_kept hkeep, Token.write_marker,
          prose_marker (hdig digits mem_cons_self)]
        exact ih hlater
      | false =>
        rw [keepMarkers_dropped hkeep]
        exact ih hlater

end

end Stripping

/-! ## The guard -/

structure Tight (chars : UnicodeClasses) (text : List Char) : Prop where
  spaced : Settled (RE_SPACED_MARKER chars) (fun _ digits => (Token.marker digits).text) text
  lists : Settled (RE_COMMA_MARKER chars) (fun _ numbers => write (numbers.map .marker)) text

section Guard

variable {Score : Type} {chars : UnicodeClasses}
  {bidirectionalSupport : List Char → List Char → Score} {supports : Score → Bool}

theorem normalizeMarkers_of_tight {text : List Char} (htight : Tight chars text) :
    normalizeMarkers chars text = text := by
  show replaceAll _ _ (replaceAll _ _ text) = text
  rw [replaceAll_of_settled htight.spaced, replaceAll_of_settled htight.lists]

/-- Cleaning keeps the amount of prose exactly when it keeps the prose. -/
theorem prose_cleaned_iff (hdigit : ∀ c, chars.isDigit c → isWhitespace c = false)
    (text : List Char) (numSources : Nat) :
    (prose chars (stripOutOfRange chars (normalizeMarkers chars text) numSources).1).length =
        (prose chars text).length ↔
      Tight chars text ∧ ∀ digits, ¬Joins chars (inRange numSources) (tokens chars text) digits := by
  have hstrip : ∀ text, (prose chars (stripOutOfRange chars text numSources).1).length ≤
      (prose chars text).length ∧
      ((∃ digits, Joins chars (inRange numSources) (tokens chars text) digits) →
        (prose chars (stripOutOfRange chars text numSources).1).length <
          (prose chars text).length) := by
    intro text
    have hdig : ∀ digits, .marker digits ∈ tokens chars text → IsDigits chars digits :=
      fun digits => isDigits_of_mem_tokens chars
    refine ⟨?_, prose_lt_of_joins hdig⟩
    by_cases hjoins : ∃ digits, Joins chars (inRange numSources) (tokens chars text) digits
    · exact Nat.le_of_lt (prose_lt_of_joins hdig hjoins)
    · rw [prose, prose, stripOutOfRange,
        bareBody_of_not_joins hdig fun digits h => hjoins ⟨digits, h⟩]
  constructor
  · intro heq
    obtain ⟨hle, hlt⟩ := hstrip (normalizeMarkers chars text)
    have hspac := (tightens_spaced hdigit).settled_or_prose_lt text
    have hlists := (tightens_comma chars).settled_or_prose_lt
      (replaceAll (RE_SPACED_MARKER chars) (fun _ digits => (Token.marker digits).text) text)
    unfold normalizeMarkers at heq hle hlt
    simp only at heq hle hlt
    cases hspac with
    | inl hset =>
      rw [replaceAll_of_settled hset] at heq hle hlt hlists
      cases hlists with
      | inl hset' =>
        rw [replaceAll_of_settled hset'] at heq hlt
        refine ⟨⟨hset, hset'⟩, ?_⟩
        intro digits hjoins
        have := hlt ⟨digits, hjoins⟩
        omega
      | inr hlt' => omega
    | inr hlt' =>
      cases hlists with
      | inl hset =>
        rw [replaceAll_of_settled hset] at heq hle
        omega
      | inr hlt'' => omega
  · rintro ⟨htight, hjoins⟩
    rw [normalizeMarkers_of_tight htight, prose, prose, stripOutOfRange,
      bareBody_of_not_joins (fun digits => isDigits_of_mem_tokens chars) hjoins]

theorem exists_of_save {content : List Char} {locators : List String}
    {numbered : List NumberedSource} {raw body : List Char} {citations : List (PageCitation Score)}
    (hsave : annotatePage chars bidirectionalSupport supports content locators numbered (some raw) =
      .ok (.save body citations)) :
    normalizeWs (stripMarkers chars (readReply raw)) = normalizeWs (stripMarkers chars content) ∧
      body = (stripOutOfRange chars (normalizeMarkers chars (readReply raw)) numbered.length).1 := by
  unfold annotatePage at hsave
  by_cases hlocators : locators = []
  · rw [if_pos hlocators] at hsave
    cases hsave
  rw [if_neg hlocators] at hsave
  by_cases hnumbered : numbered.isEmpty
  · rw [if_pos hnumbered] at hsave
    cases hsave
  rw [if_neg hnumbered] at hsave
  by_cases hguard : normalizeWs (stripMarkers chars (readReply raw)) =
      normalizeWs (stripMarkers chars content)
  case neg =>
    simp only [if_neg hguard] at hsave
    cases hsave
  simp only [if_pos hguard] at hsave
  refine ⟨hguard, ?_⟩
  obtain ⟨found, hfound, hsave⟩ := bind_ok hsave
  obtain ⟨tally, -, hout⟩ := bind_ok hfound
  cases hout
  split_ifs at hsave
  · cases hsave
  · split at hsave
    · cases hsave
    · cases hsave
      rfl

/-- What the sweep saves shows the stored prose exactly when the output of the model has
tight markers only and no removal joins one. -/
theorem saved_prose_iff (hdigit : ∀ c, chars.isDigit c = true → isWhitespace c = false)
    {content : List Char} {locators : List String} {numbered : List NumberedSource}
    {raw body : List Char} {citations : List (PageCitation Score)}
    (hsave : annotatePage chars bidirectionalSupport supports content locators numbered (some raw) =
      .ok (.save body citations)) :
    normalizeWs (stripMarkers chars body) = normalizeWs (stripMarkers chars content) ↔
      Tight chars (readReply raw) ∧
        ∀ digits, ¬Joins chars (inRange numbered.length) (tokens chars (readReply raw)) digits := by
  obtain ⟨hguard, hbody⟩ := exists_of_save hsave
  rw [← hguard]
  constructor
  · intro heq
    have hprose := congrArg ink heq
    rw [ink_normalizeWs_stripMarkers, ink_normalizeWs_stripMarkers, hbody] at hprose
    exact (prose_cleaned_iff hdigit _ _).1 (congrArg List.length hprose)
  · rintro ⟨htight, hjoins⟩
    have hbare : bareBody (tokens chars body) = bareBody (tokens chars (readReply raw)) := by
      rw [hbody, normalizeMarkers_of_tight htight, stripOutOfRange]
      exact bareBody_of_not_joins (fun digits => isDigits_of_mem_tokens chars) hjoins
    rw [stripMarkers, stripMarkers, bareBody_eq_replaceAll, bareBody_eq_replaceAll, hbare]

theorem digit_not_blank (c : Char) (hdigit : asciiClasses.isDigit c) :
    isWhitespace c = false := by
  have hrange : 48 ≤ c.toNat ∧ c.toNat ≤ 57 := by
    simpa [asciiClasses, Char.isDigit, UInt32.le_iff_toNat_le] using hdigit
  unfold isWhitespace
  simp
  omega

theorem saved_prose_iff_fact : normalizeWs (stripMarkers asciiClasses "Fact.[1]".toList) =
        normalizeWs (stripMarkers asciiClasses "Fact.".toList) ↔
      Tight asciiClasses (readReply "Fact.[1]".toList) ∧ ∀ digits, ¬Joins asciiClasses (inRange 1)
          (tokens asciiClasses (readReply "Fact.[1]".toList)) digits := by
  have hsave : annotatePage asciiClasses (fun _ _ => ()) (fun _ => true) "Fact.".toList ["m1"]
      [⟨"memory", "m1", "Fact.".toList⟩] (some "Fact.[1]".toList) =
        .ok (.save "Fact.[1]".toList [⟨1, 1, "memory", "m1", (), .verified, .sentence⟩]) := by
    rfl
  exact saved_prose_iff digit_not_blank hsave

/-- Prose with a number in spaced brackets becomes a marker of the saved body. -/
theorem spaced_prose_lost :
    ¬∀ (content raw body : List Char) (locators : List String) (numbered : List NumberedSource)
      (citations : List (PageCitation Unit)),
      annotatePage asciiClasses (fun _ _ => ()) (fun _ => true) content locators numbered
          (some raw) = .ok (.save body citations) →
        normalizeWs (stripMarkers asciiClasses body) =
          normalizeWs (stripMarkers asciiClasses content) := by
  intro h
  have hsame := h "Row [ 1 ] is.".toList "Row [ 1 ] is.".toList "Row [1] is.".toList ["m1"]
    [⟨"memory", "m1", "Row".toList⟩] [⟨1, 1, "memory", "m1", (), .verified, .sentence⟩] (by rfl)
  revert hsame
  decide

end Guard

end Wenlan.Citations
