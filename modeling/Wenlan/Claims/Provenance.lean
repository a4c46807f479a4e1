import Mathlib
import Wenlan.Support.Json

/-!
# Content addresses

The digests of `provenance.rs`.  The SHA-256 and the normalization form C come from
libraries and are parameters, as is what the code asks of a double: the comparison, the
equality and the text.
-/

namespace Wenlan.Claims

structure Runtime (Score : Type) where
  /-- The lower-case hexadecimal SHA-256 of some bytes. -/
  sha256 : List UInt8 → String
  nfc : String → String
  ge : Score → Score → Bool
  same : Score → Score → Bool
  text : Score → String

variable {Score : Type} (rt : Runtime Score)

def identityVersion : Int := 1

def utf8 (s : String) : List UInt8 :=
  s.toList.flatMap String.utf8EncodeChar

/-- The eight bytes of a 64-bit integer, least significant byte first. -/
def leBytes (n : Nat) : List UInt8 :=
  (List.range 8).map fun i => UInt8.ofNat (n / 256 ^ i)

def isWhitespace (c : Char) : Bool :=
  let n := c.toNat
  (decide (9 ≤ n) && decide (n ≤ 13)) || n == 0x20 || n == 0x85 || n == 0xA0 || n == 0x1680 ||
    (decide (0x2000 ≤ n) && decide (n ≤ 0x200A)) || n == 0x2028 || n == 0x2029 ||
    n == 0x202F || n == 0x205F || n == 0x3000

/-- CRLF and CR become LF. -/
def unixLines : List Char → List Char
  | '\r' :: '\n' :: rest => '\n' :: unixLines rest
  | '\r' :: rest => '\n' :: unixLines rest
  | c :: rest => c :: unixLines rest
  | [] => []

/-- `str::lines` of a text without carriage returns: what follows the last line feed is a
line only if it is not empty. -/
def textLines (text : List Char) : List (List Char) :=
  let parts := text.splitOn '\n'
  if parts.getLast? = some [] then parts.dropLast else parts

/-- `split_whitespace`, joined by single blanks. -/
def collapseBlanks (line : List Char) : List Char :=
  [' '].intercalate ((line.splitOnP isWhitespace).filter fun word => !word.isEmpty)

theorem of_mem_words {text word : List Char}
    (h : word ∈ (text.splitOnP isWhitespace).filter fun word => !word.isEmpty) :
    word ≠ [] ∧ ∀ c ∈ word, isWhitespace c = false := by
  obtain ⟨hsplit, hne⟩ := List.mem_filter.mp h
  refine ⟨by simpa using hne, ?_⟩
  clear h hne
  induction text generalizing word with
  | nil =>
    obtain rfl := List.mem_singleton.mp hsplit
    simp
  | cons d text ih =>
    rw [List.splitOnP_cons_eq_if_modifyHead] at hsplit
    split at hsplit
    · rcases List.mem_cons.mp hsplit with rfl | hsplit
      · simp
      · exact ih hsplit
    · next hd =>
      cases hparts : text.splitOnP isWhitespace with
      | nil => exact absurd hparts (List.splitOnP_ne_nil _ _)
      | cons first parts =>
        rw [hparts, List.modifyHead_cons] at hsplit
        rcases List.mem_cons.mp hsplit with rfl | hsplit
        · rw [List.forall_mem_cons]
          exact ⟨by simpa using hd, ih (hparts ▸ List.mem_cons_self)⟩
        · exact ih (hparts ▸ List.mem_cons_of_mem _ hsplit)

def trimBlanks (text : List Char) : List Char :=
  ((text.dropWhile isWhitespace).reverse.dropWhile isWhitespace).reverse

def canonicalizeContent (raw : String) : String :=
  let unix := String.ofList (unixLines raw.toList)
  String.ofList
    (trimBlanks (['\n'].intercalate ((textLines (rt.nfc unix).toList).map collapseBlanks)))

def canonicalContentDigest (rawContent : String) : String :=
  rt.sha256 (utf8 (canonicalizeContent rt rawContent))

/-- Over the exact bytes: a reflow that the canonical digest forgives changes this one. -/
def revisionContentDigest (content : String) : String :=
  rt.sha256 (utf8 content)

def identityDigest (rootKind rawContent : String) : String :=
  rt.sha256 (leBytes identityVersion.toNat ++ utf8 ":" ++ utf8 rootKind ++ utf8 ":" ++
    utf8 (canonicalContentDigest rt rawContent))

/-- Each part follows its own length, so that no two tuples share a preimage. -/
def computeEdgeId (edgeType srcKind srcId dstKind dstId discriminator : String) : String :=
  rt.sha256 ([edgeType, srcKind, srcId, dstKind, dstId, discriminator].flatMap fun part =>
    leBytes (utf8 part).length ++ utf8 part)

/-- The characters before a byte offset and those after it, unless the offset is past the
end or inside a character. -/
def splitAtByte : Nat → List Char → Option (List Char × List Char)
  | 0, rest => some ([], rest)
  | _, [] => none
  | n, c :: rest =>
    if n < c.utf8Size then none
    else (splitAtByte (n - c.utf8Size) rest).map fun (before, after) => (c :: before, after)

/-- `content.get(start..end)`; an offset below zero is read as `usize::MAX`. -/
def spanText (content : String) (start stop : Int) : Option String :=
  if start < 0 || stop < start then none
  else
    (splitAtByte start.toNat content.toList).bind fun (_, tail) =>
      (splitAtByte (stop - start).toNat tail).map fun (span, _) => String.ofList span

example : spanText "naïve" 2 4 = some "ï" ∧ spanText "naïve" 3 4 = none := by decide

/-- A runtime to run the model with: scores in hundredths, and a checksum for the digest. -/
def sumRuntime : Runtime Nat where
  sha256 := fun bytes =>
    toString (bytes.foldl (fun sum b => (sum * 257 + b.toNat + 1) % 2305843009213693951) 7)
  nfc := id
  ge := fun a b => decide (b ≤ a)
  same := fun a b => a == b
  text := fun n => s!"{n}e-2"

end Wenlan.Claims
