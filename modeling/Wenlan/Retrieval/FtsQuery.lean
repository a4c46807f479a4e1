import Wenlan.Claims.Provenance

/-!
# Queries of the full-text search

`fts_query.rs`, and the part of the query language whose marks are blanks, quotes and the three
operators: any other mark outside a string would act on the words around it or be an error.
-/

namespace Wenlan.Retrieval

open List

open Claims (isWhitespace)

def FTS5_SPECIAL_CHARS : List Char :=
  ['"', '*', '(', ')', ':', '^', '+', '-', '{', '}', '[', ']', '~', '\\']

def FTS5_KEYWORDS : List (List Char) :=
  ["AND".toList, "OR".toList, "NOT".toList, "NEAR".toList]

def splitWhitespace (raw : List Char) : List (List Char) :=
  (raw.splitOnP isWhitespace).filter fun token => !token.isEmpty

def needsQuoting (token : List Char) : Bool :=
  token.any (fun c => FTS5_SPECIAL_CHARS.contains c) || FTS5_KEYWORDS.contains token

def escapeQuotes (token : List Char) : List Char :=
  token.flatMap fun c => if c = '"' then ['"', '"'] else [c]

def sanitizeToken (token : List Char) : List Char :=
  if needsQuoting token then '"' :: (escapeQuotes token ++ ['"']) else token

def sanitizeFtsQuery (raw : List Char) : List Char :=
  [' '].intercalate ((splitWhitespace raw).map sanitizeToken)

def survivors (toLowercase : List Char → List Char) (stopwords : List (List Char))
    (raw : List Char) : List (List Char) :=
  (splitWhitespace raw).filter fun token => !stopwords.contains (toLowercase token)

def buildRelaxedOr (toLowercase : List Char → List Char) (stopwords : List (List Char))
    (raw : List Char) : Option (List Char) :=
  let tokens := survivors toLowercase stopwords raw
  if tokens.length < 2 then none
  else some (" OR ".toList.intercalate (tokens.map sanitizeFtsQuery))

/-! ## The language -/

def isBareword (c : Char) : Bool :=
  c.isAlphanum || c == '_' || c.toNat == 0x1A || decide (128 ≤ c.toNat)

inductive Token where
  | text (text : List Char)
  | or
  | and
  | not
  deriving DecidableEq

def bareword (text : List Char) : Token :=
  if text = "OR".toList then .or else if text = "AND".toList then .and
  else if text = "NOT".toList then .not else .text text

/-- `quote` stands behind a quote that ends the string unless another one follows. -/
inductive LexState where
  | start
  | bare (text : List Char)
  | string (text : List Char)
  | quote (text : List Char)

def openToken (c : Char) : Option LexState :=
  if c ∈ [' ', '\t', '\n', '\r'] then some .start else if c = '"' then some (.string [])
  else if isBareword c then some (.bare [c]) else none

def lexStep : LexState → Char → Option (List Token × LexState)
  | .start, c => (openToken c).map fun state => ([], state)
  | .bare text, c =>
    if isBareword c then some ([], .bare (text ++ [c]))
    else (openToken c).map fun state => ([bareword text], state)
  | .string text, c => some ([], if c = '"' then .quote text else .string (text ++ [c]))
  | .quote text, c =>
    if c = '"' then some ([], .string (text ++ [c]))
    else (openToken c).map fun state => ([.text text], state)

def lexFrom : LexState → List Char → Option (List Token)
  | .start, [] => some []
  | .bare text, [] => some [bareword text]
  | .string _, [] => none
  | .quote text, [] => some [.text text]
  | state, c :: rest =>
    (lexStep state c).bind fun step => (lexFrom step.2 rest).map fun tokens => step.1 ++ tokens

/-- Phrases beside each other all have to match, and bind before the operators do. -/
def readPhrases (tokens : List Token) : Option (List (List Char)) :=
  if tokens = [] then none
  else tokens.mapM fun token => match token with
    | .text text => some text
    | _ => none

/-- The query, as a disjunction of conjunctions of phrases less other phrases. -/
abbrev Query := List (List (List (List (List Char))))

def readQuery (query : List Char) : Option Query :=
  (lexFrom .start query).bind fun tokens =>
    (tokens.splitOn .or).mapM fun disjunct =>
      (disjunct.splitOn .and).mapM fun conjunct => (conjunct.splitOn .not).mapM readPhrases

def Query.matches (found : List Char → Bool) (query : Query) : Bool :=
  query.any fun disjunct => disjunct.all fun conjunct => match conjunct with
    | [] => false
    | first :: less => first.all found && !less.any fun phrases => phrases.all found

/-- The query means `meaning`, for any text with its phrases. -/
def Denotes (query : List Char) (meaning : (List Char → Bool) → Bool) : Prop :=
  ∃ read, readQuery query = some read ∧ ∀ found, read.matches found = meaning found

/-! ## Reading a token back -/

/-- The token is one word of the language or is quoted. -/
def isPlain (token : List Char) : Bool :=
  needsQuoting token || token.all isBareword

def closed (token : List Char) : LexState :=
  if needsQuoting token then .quote token else .bare token

theorem lexFrom_cons (state : LexState) (c : Char) (rest : List Char) :
    lexFrom state (c :: rest) = (lexStep state c).bind fun step =>
      (lexFrom step.2 rest).map fun tokens => step.1 ++ tokens := by
  cases state <;> rfl

theorem lexFrom_quiet {state state' : LexState} {c : Char} (h : lexStep state c = some ([], state'))
    (rest : List Char) : lexFrom state (c :: rest) = lexFrom state' rest := by
  rw [lexFrom_cons, h, Option.bind_some]
  cases lexFrom state' rest <;> rfl

theorem lexFrom_string (text token rest : List Char) :
    lexFrom (.string text) (escapeQuotes token ++ rest) =
      lexFrom (.string (text ++ token)) rest := by
  induction token generalizing text with
  | nil => rw [append_nil]; rfl
  | cons c token ih =>
    have hsplit : text ++ c :: token = (text ++ [c]) ++ token := by simp
    rw [hsplit, ← ih]
    by_cases hquote : c = '"'
    · subst hquote
      exact (lexFrom_quiet rfl _).trans (lexFrom_quiet rfl _)
    · rw [escapeQuotes, flatMap_cons, if_neg hquote, append_assoc, singleton_append]
      exact lexFrom_quiet (by rw [lexStep, if_neg hquote]) _

theorem lexFrom_bare {token : List Char} (h : token.all isBareword) (text rest : List Char) :
    lexFrom (.bare text) (token ++ rest) = lexFrom (.bare (text ++ token)) rest := by
  induction token generalizing text with
  | nil => rw [append_nil]; rfl
  | cons c token ih =>
    rw [all_cons, Bool.and_eq_true] at h
    have hsplit : text ++ c :: token = (text ++ [c]) ++ token := by simp
    rw [hsplit, ← ih h.2]
    exact lexFrom_quiet (by rw [lexStep, if_pos h.1]) _

theorem openToken_of_bareword {c : Char} (h : isBareword c) :
    openToken c = some (.bare [c]) := by
  have hblank : c ∉ [' ', '\t', '\n', '\r'] := by
    intro hmem
    fin_cases hmem <;> revert h <;> decide
  have hquote : c ≠ '"' := by
    rintro rfl
    revert h
    decide
  rw [openToken, if_neg hblank, if_neg hquote, if_pos h]

theorem lexFrom_sanitizeToken {token : List Char} (hne : token ≠ []) (h : isPlain token)
    (rest : List Char) :
    lexFrom .start (sanitizeToken token ++ rest) = lexFrom (closed token) rest := by
  unfold sanitizeToken closed
  split
  · rw [cons_append, append_assoc, lexFrom_quiet rfl, lexFrom_string]
    exact lexFrom_quiet rfl rest
  · next hplain =>
    cases token with
    | nil => exact absurd rfl hne
    | cons c token =>
      have hall : (c :: token).all isBareword := (Bool.or_eq_true_iff.mp h).resolve_left hplain
      rw [all_cons, Bool.and_eq_true] at hall
      rw [cons_append, lexFrom_quiet (by rw [lexStep, openToken_of_bareword hall.1]; rfl),
        lexFrom_bare hall.2]
      rfl

theorem bareword_of_not_quoted {token : List Char} (h : needsQuoting token = false) :
    bareword token = .text token := by
  unfold bareword
  split_ifs <;> simp_all [needsQuoting, FTS5_KEYWORDS]

theorem finish_closed (token : List Char) : lexFrom (closed token) [] = some [.text token] := by
  unfold closed
  split
  · rfl
  · next hplain =>
    rw [← bareword_of_not_quoted ((Bool.not_eq_true _).mp hplain)]
    rfl

theorem lexFrom_closed {token : List Char} (rest : List Char) :
    lexFrom (closed token) (' ' :: rest) =
      (lexFrom .start rest).map fun tokens => .text token :: tokens := by
  unfold closed
  split
  · rfl
  · next hplain =>
    rw [← bareword_of_not_quoted ((Bool.not_eq_true _).mp hplain)]
    rfl

/-- A token with a mark that no word of the language has, and that is not quoted. -/
theorem lexFrom_bad {token : List Char} (hclear : ∀ c ∈ token, isWhitespace c = false ∧ c ≠ '"')
    (h : token.all isBareword = false) {state : LexState}
    (hstate : state = .start ∨ ∃ text, state = .bare text) (rest : List Char) :
    lexFrom state (token ++ rest) = none := by
  induction token generalizing state with
  | nil => cases h
  | cons c token ih =>
    rw [forall_mem_cons] at hclear
    rw [cons_append, lexFrom_cons]
    by_cases hword : isBareword c
    · rw [all_cons, hword, Bool.true_and] at h
      obtain ⟨text, hstep⟩ : ∃ text, lexStep state c = some ([], .bare text) := by
        rcases hstate with rfl | ⟨text, rfl⟩
        · exact ⟨[c], by rw [lexStep, openToken_of_bareword hword]; rfl⟩
        · exact ⟨text ++ [c], by rw [lexStep, if_pos hword]⟩
      rw [hstep, Option.bind_some, ih hclear.2 h (Or.inr ⟨text, rfl⟩)]
      rfl
    · have hblank : c ∉ [' ', '\t', '\n', '\r'] := by
        intro hmem
        have hspace := hclear.1.1
        fin_cases hmem <;> revert hspace <;> decide
      have hopen : openToken c = none := by
        rw [openToken, if_neg hblank, if_neg hclear.1.2, if_neg hword]
      have hstep : lexStep state c = none := by
        rcases hstate with rfl | ⟨text, rfl⟩
        · rw [lexStep, hopen]
          rfl
        · rw [lexStep, if_neg hword, hopen]
          rfl
      rw [hstep]
      rfl

theorem lexFrom_not_plain {token : List Char} (hclear : ∀ c ∈ token, isWhitespace c = false)
    (h : isPlain token = false) (rest : List Char) :
    lexFrom .start (sanitizeToken token ++ rest) = none := by
  rw [isPlain, Bool.or_eq_false_iff] at h
  rw [sanitizeToken, h.1, if_neg Bool.false_ne_true]
  refine lexFrom_bad (fun c hc => ⟨hclear c hc, ?_⟩) h.2 (Or.inl rfl) rest
  rintro rfl
  have hquot : needsQuoting token := by
    rw [needsQuoting, Bool.or_eq_true, any_eq_true]
    exact Or.inl ⟨'"', hc, by decide⟩
  exact absurd (hquot.symm.trans h.1) (by decide)

/-! ## Whole queries -/

/-- The tokens between `sep`, which is a blank or an operator between blanks. -/
theorem lexFrom_intercalate {sep : List Char} {out : List Token}
    (hsep : ∀ token rest, lexFrom (closed token) (sep ++ rest) =
      (lexFrom .start rest).map fun tokens => .text token :: (out ++ tokens))
    {tokens : List (List Char)} (hne : tokens ≠ [])
    (hclear : ∀ token ∈ tokens, token ≠ [] ∧ ∀ c ∈ token, isWhitespace c = false) :
    lexFrom .start (sep.intercalate (tokens.map sanitizeToken)) =
      if tokens.all isPlain then some (out.intercalate (tokens.map fun token => [.text token]))
      else none := by
  induction tokens with
  | nil => exact absurd rfl hne
  | cons token tokens ih =>
    rw [forall_mem_cons] at hclear
    rw [all_cons]
    cases hplain : isPlain token with
    | false =>
      have hsplit : ∃ rest, sep.intercalate ((token :: tokens).map sanitizeToken) =
          sanitizeToken token ++ rest := by
        cases tokens with
        | nil => exact ⟨[], by simp⟩
        | cons next tokens => exact ⟨_, by
            rw [map_cons, map_cons, intercalate_cons_cons, append_assoc]⟩
      obtain ⟨rest, hrest⟩ := hsplit
      rw [hrest, lexFrom_not_plain hclear.1.2 hplain]
      rfl
    | true =>
      cases tokens with
      | nil =>
        rw [map_singleton, map_singleton, intercalate_singleton,
          intercalate_singleton, ← append_nil (sanitizeToken token),
          lexFrom_sanitizeToken hclear.1.1 hplain, finish_closed]
        rfl
      | cons next tokens =>
        have hnext := ih (by simp) hclear.2
        rw [map_cons, map_cons] at hnext
        rw [map_cons, map_cons, map_cons, map_cons, intercalate_cons_cons,
          intercalate_cons_cons, append_assoc,
          lexFrom_sanitizeToken hclear.1.1 hplain, hsep, hnext, Bool.true_and]
        split <;> rfl

theorem mapM_text (texts : List (List Char)) (hne : texts ≠ []) :
    readPhrases (texts.map .text) = some texts := by
  rw [readPhrases, if_neg (mt map_eq_nil_iff.mp hne)]
  clear hne
  induction texts with
  | nil => rfl
  | cons text texts ih =>
    rw [map_cons, mapM_cons, ih]
    rfl

theorem read_texts {texts : List (List Char)} (hne : texts ≠ []) :
    ((texts.map Token.text).splitOn .and).mapM
      (fun conjunct => (conjunct.splitOn .not).mapM readPhrases) = some [[texts]] := by
  rw [splitOn_eq_singleton (by simp), mapM_cons, splitOn_eq_singleton (by simp),
    mapM_cons, mapM_text texts hne]
  rfl

section

variable {tokens : List (List Char)} (hne : tokens ≠ [])
  (hclear : ∀ token ∈ tokens, token ≠ [] ∧ ∀ c ∈ token, isWhitespace c = false)
include hne hclear

theorem readQuery_and :
    readQuery ([' '].intercalate (tokens.map sanitizeToken)) =
      if tokens.all isPlain then some [[[tokens]]] else none := by
  have hsep : ∀ token rest, lexFrom (closed token) ([' '] ++ rest) =
      (lexFrom .start rest).map fun tokens => .text token :: ([] ++ tokens) :=
    fun _ rest => lexFrom_closed rest
  rw [readQuery, lexFrom_intercalate hsep hne hclear]
  split
  · next hall =>
    have hlist : ([] : List Token).intercalate (tokens.map fun token => [Token.text token]) =
        tokens.map .text := by
      clear hne hclear hall
      induction tokens with
      | nil => rfl
      | cons token tokens ih =>
        cases tokens with
        | nil => rfl
        | cons next tokens =>
          rw [map_cons, map_cons, intercalate_cons_cons]
          exact congrArg (Token.text token :: ·) ih
    rw [hlist, Option.bind_some, splitOn_eq_singleton (by simp), mapM_cons,
      read_texts hne]
    rfl
  · rfl

theorem readQuery_or :
    readQuery (" OR ".toList.intercalate (tokens.map sanitizeToken)) =
      if tokens.all isPlain then some (tokens.map fun token => [[[token]]]) else none := by
  have hsep : ∀ token rest, lexFrom (closed token) (" OR ".toList ++ rest) =
      (lexFrom .start rest).map fun tokens => .text token :: ([.or] ++ tokens) := by
    intro token rest
    have hor : lexFrom .start ("OR ".toList ++ rest) =
        (lexFrom .start rest).map fun tokens => .or :: tokens := by
      rw [show "OR ".toList ++ rest = 'O' :: 'R' :: ' ' :: rest from rfl, lexFrom_quiet rfl,
        lexFrom_quiet rfl, lexFrom_cons]
      rfl
    rw [show " OR ".toList ++ rest = ' ' :: ("OR ".toList ++ rest) from rfl, lexFrom_closed, hor,
      Option.map_map]
    rfl
  rw [readQuery, lexFrom_intercalate hsep hne hclear]
  split
  · next hall =>
    rw [Option.bind_some, splitOn_intercalate _ (by simp) (mt map_eq_nil_iff.mp hne)]
    clear hne hclear hsep hall
    induction tokens with
    | nil => rfl
    | cons token tokens ih =>
      have htoken := read_texts (cons_ne_nil token [])
      rw [map_singleton] at htoken
      rw [map_cons, mapM_cons, htoken, ih]
      rfl
  · rfl

end

theorem mem_splitWhitespace {raw token : List Char} (h : token ∈ splitWhitespace raw) :
    token ≠ [] ∧ ∀ c ∈ token, isWhitespace c = false :=
  Claims.of_mem_words h

theorem sanitizeFtsQuery_token {token : List Char}
    (h : token ≠ [] ∧ ∀ c ∈ token, isWhitespace c = false) :
    sanitizeFtsQuery token = sanitizeToken token := by
  rw [sanitizeFtsQuery, splitWhitespace, splitOnP_eq_singleton h.2]
  simp [h.1]

/-- The queries mean what they say exactly when every token is a word of the language or holds a
mark that has it quoted. -/
theorem denotes_iff (toLowercase : List Char → List Char) (stopwords : List (List Char))
    (raw : List Char) :
    (splitWhitespace raw ≠ [] →
      (Denotes (sanitizeFtsQuery raw) (fun found => (splitWhitespace raw).all found) ↔
        (splitWhitespace raw).all isPlain = true)) ∧
    ∀ query, buildRelaxedOr toLowercase stopwords raw = some query →
      (Denotes query (fun found => (survivors toLowercase stopwords raw).any found) ↔
        (survivors toLowercase stopwords raw).all isPlain = true) := by
  have hkept : ∀ token ∈ survivors toLowercase stopwords raw,
      token ≠ [] ∧ ∀ c ∈ token, isWhitespace c = false :=
    fun token htoken => mem_splitWhitespace (List.mem_filter.mp htoken).1
  constructor
  · intro hne
    rw [Denotes, sanitizeFtsQuery, readQuery_and hne fun token => mem_splitWhitespace]
    cases (splitWhitespace raw).all isPlain with
    | false => simp
    | true => simp [Query.matches]
  · intro query hquery
    simp only [buildRelaxedOr, Option.ite_none_left_eq_some] at hquery
    obtain ⟨hlen, hquery⟩ := hquery
    have hne : survivors toLowercase stopwords raw ≠ [] := by
      intro hnil
      rw [hnil] at hlen
      exact hlen (by decide)
    rw [List.map_congr_left fun token htoken => sanitizeFtsQuery_token (hkept token htoken)]
      at hquery
    rw [Denotes, ← Option.some.inj hquery, readQuery_or hne hkept]
    cases (survivors toLowercase stopwords raw).all isPlain with
    | false => simp
    | true => simp [Query.matches, Function.comp_def]

theorem denotes_cpp : Denotes (sanitizeFtsQuery "NOT rust C++".toList)
    (fun found => (splitWhitespace "NOT rust C++".toList).all found) :=
  ((denotes_iff id [] "NOT rust C++".toList).1 (by decide +kernel)).mpr (by decide +kernel)

/-- A dot does not have its token quoted and is in no word of the language. -/
theorem dotted_name : ¬ Denotes (sanitizeFtsQuery "node.js".toList)
    (fun found => (splitWhitespace "node.js".toList).all found) := by
  have hread : readQuery (sanitizeFtsQuery "node.js".toList) = none := by decide +kernel
  rintro ⟨read, hsome, -⟩
  rw [hread] at hsome
  cases hsome

end Wenlan.Retrieval
