import Wenlan.Claims.Provenance

/-!
# The marker-free body

What `claim_derivation.rs` judges of a page is its body without the numeric markers, with a map back
to the offsets of the page.
-/

namespace Wenlan.Claims

open List Nat

def isAsciiDigit (b : UInt8) : Bool := 0x30 ≤ b && b ≤ 0x39

/-- The length of the marker in front, if there is one. -/
def markerLength : List UInt8 → Option ℕ
  | [] => none
  | b :: rest =>
    let digits := rest.takeWhile isAsciiDigit
    if b = 0x5B ∧ digits ≠ [] ∧ rest[digits.length]? = some 0x5D then some (digits.length + 2)
    else none

structure OffsetMap where
  bare : List UInt8
  startOffsets : List ℕ
  endOffsets : List ℕ

def removeMarkers : List UInt8 → ℕ → OffsetMap → OffsetMap
  | [], _, m => m
  | b :: rest, index, m =>
    match markerLength (b :: rest) with
    | some n =>
      removeMarkers (rest.drop (n - 1)) (index + n)
        { m with startOffsets := m.startOffsets.dropLast ++ [index + n] }
    | none =>
      removeMarkers rest (index + 1)
        ⟨m.bare ++ [b], m.startOffsets ++ [index + 1], m.endOffsets ++ [index + 1]⟩
termination_by bytes => bytes.length

def markerFreeBodyWithOffsetMap (body : List UInt8) : OffsetMap :=
  removeMarkers body 0 ⟨[], [0], [0]⟩

/-! ## Markers of a text -/

def Bracketed (text : List UInt8) : Prop :=
  ∃ digits, digits ≠ [] ∧ (∀ b ∈ digits, isAsciiDigit b) ∧ text = 0x5B :: (digits ++ [0x5D])

/-- `bare` is the text without its markers. -/
inductive Unmarked : List UInt8 → List UInt8 → Prop
  | nil : Unmarked [] []
  | marker {m rest bare : List UInt8} : Bracketed m → Unmarked rest bare → Unmarked (m ++ rest) bare
  | byte {b : UInt8} {rest bare : List UInt8} : (∀ m, Bracketed m → ¬ m <+: b :: rest) →
      Unmarked rest bare → Unmarked (b :: rest) (b :: bare)

theorem markerLength_eq_some {text : List UInt8} {n : ℕ} :
    markerLength text = some n ↔ ∃ m, Bracketed m ∧ m <+: text ∧ m.length = n := by
  constructor
  · intro h
    cases text with
    | nil => cases h
    | cons b rest =>
      obtain ⟨⟨rfl, hne, hclose⟩, hn⟩ := Option.ite_none_right_eq_some.mp h
      have hdig : ∀ b ∈ rest.takeWhile isAsciiDigit, isAsciiDigit b :=
        fun b hb => mem_takeWhile_imp hb
      refine ⟨_, ⟨rest.takeWhile isAsciiDigit, hne, hdig, rfl⟩, ?_, ?_⟩
      · have hafter : (rest.takeWhile isAsciiDigit ++ rest.dropWhile isAsciiDigit)[
            (rest.takeWhile isAsciiDigit).length]? = some 0x5D := by
          rw [takeWhile_append_dropWhile]
          exact hclose
        rw [getElem?_append_right (le_refl _), Nat.sub_self,
          ← head?_eq_getElem?] at hafter
        obtain ⟨rest', hrest⟩ := head?_eq_some_iff.mp hafter
        refine ⟨rest', ?_⟩
        rw [cons_append, append_assoc, singleton_append, ← hrest,
          takeWhile_append_dropWhile]
      · simpa using hn
  · rintro ⟨m, ⟨digits, hne, hdig, rfl⟩, ⟨rest, rfl⟩, rfl⟩
    have htake : (digits ++ 0x5D :: rest).takeWhile isAsciiDigit = digits := by
      rw [takeWhile_append_of_pos hdig, takeWhile_cons_of_neg (by decide),
        append_nil]
    simp [markerLength, htake, hne]

theorem markerLength_eq_none {text : List UInt8} :
    markerLength text = none ↔ ∀ m, Bracketed m → ¬ m <+: text := by
  rw [Option.eq_none_iff_forall_ne_some]
  simp only [ne_eq, markerLength_eq_some]
  constructor
  · intro h m hm hpre
    exact h _ ⟨m, hm, hpre, rfl⟩
  · rintro h n ⟨m, hm, hpre, -⟩
    exact h m hm hpre

theorem Bracketed.unique {m m' text : List UInt8} (h : Bracketed m) (h' : Bracketed m')
    (hpre : m <+: text) (hpre' : m' <+: text) : m = m' := by
  have hlen := markerLength_eq_some.mpr ⟨m, h, hpre, rfl⟩
  rw [markerLength_eq_some.mpr ⟨m', h', hpre', rfl⟩] at hlen
  exact (prefix_of_prefix_length_le hpre hpre' (Option.some.inj hlen).ge).eq_of_length
    (Option.some.inj hlen).symm

/-- A marker starts at no place inside of a marker. -/
theorem Bracketed.eq_of_suffix {m m' u : List UInt8} (h : Bracketed m) (h' : Bracketed m')
    (hu : u <:+ m) (hne : u ≠ []) (hpre : u <+: m') : u = m := by
  obtain ⟨digits, -, hdig, rfl⟩ := h
  obtain ⟨digits', -, -, rfl⟩ := h'
  rcases suffix_cons_iff.mp hu with rfl | hu
  · rfl
  · obtain ⟨b, u, rfl⟩ := exists_cons_of_ne_nil hne
    obtain rfl := (cons_prefix_cons.mp hpre).1
    have hmem := hu.subset mem_cons_self
    rw [mem_append, mem_singleton] at hmem
    rcases hmem with hmem | hmem
    · exact absurd (hdig _ hmem) (by decide)
    · exact absurd hmem (by decide)

/-! ## The map -/

/-- The map of the rest of a body, with offsets into that rest. -/
def sift : List UInt8 → OffsetMap
  | [] => ⟨[], [0], [0]⟩
  | b :: rest =>
    match markerLength (b :: rest) with
    | some n =>
      let m := sift (rest.drop (n - 1))
      ⟨m.bare, m.startOffsets.map (n + ·), 0 :: m.endOffsets.tail.map (n + ·)⟩
    | none =>
      let m := sift rest
      ⟨b :: m.bare, 0 :: m.startOffsets.map (1 + ·), 0 :: m.endOffsets.map (1 + ·)⟩
termination_by bytes => bytes.length

theorem endOffsets_scan (text : List UInt8) :
    (sift text).endOffsets = 0 :: (sift text).endOffsets.tail := by
  fun_cases sift text <;> rfl

theorem removeMarkers_eq (text bare : List UInt8) (index : ℕ) (starts ends : List ℕ) :
    removeMarkers text index ⟨bare, starts ++ [index], ends⟩ =
      ⟨bare ++ (sift text).bare, starts ++ (sift text).startOffsets.map (index + ·),
        ends ++ (sift text).endOffsets.tail.map (index + ·)⟩ := by
  fun_induction sift text generalizing bare index starts ends with
  | case1 => simp [removeMarkers]
  | case2 b rest n h m ih =>
    rw [removeMarkers, h]
    simp only [dropLast_concat, ih]
    simp [m, add_assoc, Function.comp_def]
  | case3 b rest h m ih =>
    rw [removeMarkers, h]
    simp only [ih]
    have hends := congrArg (map (index + 1 + ·)) (endOffsets_scan rest)
    rw [map_cons, add_zero] at hends
    simp only [m, tail_cons, map_cons, map_map, Function.comp_def, append_assoc,
      singleton_append, add_zero, ← add_assoc, hends]

theorem removeMarkers_body (body : List UInt8) : markerFreeBodyWithOffsetMap body = sift body := by
  have h := removeMarkers_eq body [] 0 [] [0]
  simp only [nil_append, zero_add, map_id'] at h
  rw [singleton_append, ← endOffsets_scan] at h
  exact h

theorem eq_marker_append {b : UInt8} {rest : List UInt8} {n : ℕ}
    (h : markerLength (b :: rest) = some n) :
    ∃ m, Bracketed m ∧ m.length = n ∧ b :: rest = m ++ rest.drop (n - 1) := by
  obtain ⟨m, hm, ⟨rest', hrest⟩, rfl⟩ := markerLength_eq_some.mp h
  refine ⟨m, hm, rfl, ?_⟩
  obtain ⟨digits, -, -, rfl⟩ := hm
  obtain ⟨rfl, rfl⟩ := cons.inj hrest
  simp

theorem unmarked_scan (text : List UInt8) : Unmarked text (sift text).bare := by
  fun_induction sift text with
  | case1 => exact .nil
  | case2 b rest n h m ih =>
    obtain ⟨mark, hmark, -, heq⟩ := eq_marker_append h
    rw [heq]
    exact .marker hmark ih
  | case3 b rest h m ih => exact .byte (markerLength_eq_none.mp h) ih

section Scan

variable {b : UInt8} {rest : List UInt8} {n : ℕ}

theorem scan_marker (h : markerLength (b :: rest) = some n) :
    (sift (b :: rest)).bare = (sift (rest.drop (n - 1))).bare ∧
    (∀ s : ℕ, (sift (b :: rest)).startOffsets[s]? =
      (sift (rest.drop (n - 1))).startOffsets[s]?.map (n + ·)) ∧
    ∀ e : ℕ, (sift (b :: rest)).endOffsets[e + 1]? =
      (sift (rest.drop (n - 1))).endOffsets[e + 1]?.map (n + ·) := by
  rw [sift, h]
  simp

theorem scan_cons (h : markerLength (b :: rest) = none) :
    (sift (b :: rest)).bare = b :: (sift rest).bare ∧
    (sift (b :: rest)).startOffsets[0]? = some 0 ∧
    (∀ s : ℕ, (sift (b :: rest)).startOffsets[s + 1]? = (sift rest).startOffsets[s]?.map (1 + ·)) ∧
    ∀ e : ℕ, (sift (b :: rest)).endOffsets[e + 1]? = (sift rest).endOffsets[e]?.map (1 + ·) := by
  rw [sift, h]
  simp

end Scan

/-- The bytes that the range of the bare text from `s` to `e` is mapped to. -/
structure Maps (text : List UInt8) (m : OffsetMap) (s e first last : ℕ) : Prop where
  start : m.startOffsets[s]? = some first
  stop : m.endOffsets[e]? = some last
  lt : first < last
  le : last ≤ text.length
  bare : Unmarked ((text.take last).drop first) ((m.bare.take e).drop s)
  flush : ∀ m, Bracketed m →
    ¬ m <+: (text.take last).drop first ∧ ¬ m <:+ (text.take last).drop first

/-- The text up to an end offset is the bare text up to `e`, and no marker is last in it. -/
structure Ends (text : List UInt8) (e last : ℕ) : Prop where
  offset : (sift text).endOffsets[e]? = some last
  le : last ≤ text.length
  pos : 0 < e → 0 < last
  bare : Unmarked (text.take last) ((sift text).bare.take e)
  flush : ∀ m, Bracketed m → ¬ m <:+ text.take last

theorem ends_zero (text : List UInt8) : Ends text 0 0 := by
  refine ⟨by rw [endOffsets_scan]; rfl, zero_le _, id, ?_, ?_⟩
  · rw [take_zero, take_zero]
    exact .nil
  · rintro m ⟨digits, -, -, rfl⟩ hsuffix
    simp at hsuffix

theorem exists_ends (text : List UInt8) :
    ∀ e ≤ (sift text).bare.length, ∃ last, Ends text e last := by
  induction text using sift.induct with
  | case1 =>
    intro e he
    rw [sift] at he
    obtain rfl : e = 0 := le_zero.mp he
    exact ⟨0, ends_zero _⟩
  | case2 b rest n h ih =>
    intro e he
    cases e with
    | zero => exact ⟨0, ends_zero _⟩
    | succ e =>
      obtain ⟨hbare, -, hoffs⟩ := scan_marker h
      obtain ⟨last, hlast⟩ := ih (e + 1) (hbare ▸ he)
      obtain ⟨mark, hmark, rfl, heq⟩ := eq_marker_append h
      have hpos := hlast.pos (succ_pos e)
      have hle := hlast.le
      refine ⟨mark.length + last, by rw [hoffs, hlast.offset, Option.map_some], ?_,
        fun _ => by omega, ?_, ?_⟩
      · rw [heq, length_append]
        exact Nat.add_le_add_left hle _
      · rw [hbare, heq, take_length_add_append]
        exact .marker hmark hlast.bare
      intro m hm hsuffix
      rw [heq, take_length_add_append] at hsuffix
      rcases suffix_or_suffix_of_suffix hsuffix (suffix_append mark _) with hin | ⟨u, hu⟩
      · exact hlast.flush m hm hin
      · rw [← hu, suffix_append_self_iff] at hsuffix
        have hne : u ≠ [] := by
          rintro rfl
          exact hlast.flush m hm (hu ▸ suffix_refl _)
        rw [hmark.eq_of_suffix hm hsuffix hne ⟨_, hu⟩] at hu
        obtain rfl := hmark.unique hm ⟨_, hu⟩ (prefix_refl m)
        have hnil := congrArg length (append_right_eq_self.mp hu)
        rw [length_take, length_nil] at hnil
        omega
  | case3 b rest h ih =>
    intro e he
    cases e with
    | zero => exact ⟨0, ends_zero _⟩
    | succ e =>
      obtain ⟨hbare, -, -, hoffs⟩ := scan_cons h
      rw [hbare, length_cons] at he
      obtain ⟨last, hlast⟩ := ih e (le_of_succ_le_succ he)
      have hnone := fun m hm (hpre : m <+: (b :: rest).take (last + 1)) =>
        markerLength_eq_none.mp h m hm (hpre.trans (List.take_prefix _ _))
      refine ⟨last + 1, by rw [hoffs, hlast.offset, Option.map_some, add_comm],
        succ_le_succ hlast.le, fun _ => succ_pos _, ?_, fun m hm hsuffix => ?_⟩
      · rw [hbare, take_succ_cons]
        exact .byte hnone hlast.bare
      · rcases suffix_cons_iff.mp hsuffix with rfl | hsuffix
        · exact hnone _ hm (prefix_refl _)
        · exact hlast.flush m hm hsuffix

theorem exists_maps (text : List UInt8) : ∀ s e, s < e → e ≤ (sift text).bare.length →
    ∃ first last, Maps text (sift text) s e first last := by
  induction text using sift.induct with
  | case1 =>
    intro s e hlt he
    rw [sift] at he
    exact absurd hlt (by simp at he; omega)
  | case2 b rest n h ih =>
    intro s e hlt he
    obtain ⟨e, rfl⟩ := exists_eq_succ_of_ne_zero (ne_zero_of_lt hlt)
    obtain ⟨hbare, hstart, hstop⟩ := scan_marker h
    obtain ⟨first, last, hmaps⟩ := ih s (e + 1) hlt (hbare ▸ he)
    obtain ⟨mark, hmark, rfl, heq⟩ := eq_marker_append h
    refine ⟨mark.length + first, mark.length + last, by rw [hstart, hmaps.start, Option.map_some],
      by rw [hstop, hmaps.stop, Option.map_some], Nat.add_lt_add_left hmaps.lt _, ?_, ?_, ?_⟩
    · rw [heq, length_append]
      exact Nat.add_le_add_left hmaps.le _
    · rw [hbare, heq, take_length_add_append, drop_length_add_append]
      exact hmaps.bare
    · rw [heq, take_length_add_append, drop_length_add_append]
      exact hmaps.flush
  | case3 b rest h ih =>
    intro s e hlt he
    obtain ⟨hbare, hzero, hstart, hstop⟩ := scan_cons h
    obtain ⟨e, rfl⟩ := exists_eq_succ_of_ne_zero (ne_zero_of_lt hlt)
    cases s with
    | zero =>
      obtain ⟨last, hlast⟩ := exists_ends _ _ he
      exact ⟨0, last, hzero, hlast.offset, hlast.pos hlt, hlast.le, hlast.bare, fun m hm =>
        ⟨fun hpre => markerLength_eq_none.mp h m hm (hpre.trans (List.take_prefix _ _)),
          hlast.flush m hm⟩⟩
    | succ s =>
      rw [hbare, length_cons] at he
      obtain ⟨first, last, hmaps⟩ := ih s e (lt_of_succ_lt_succ hlt) (le_of_succ_le_succ he)
      refine ⟨first + 1, last + 1, by rw [hstart, hmaps.start, Option.map_some, add_comm],
        by rw [hstop, hmaps.stop, Option.map_some, add_comm], succ_lt_succ hmaps.lt,
        succ_le_succ hmaps.le, ?_, hmaps.flush⟩
      rw [hbare]
      exact hmaps.bare

theorem monotone_scan (text : List UInt8) :
    (sift text).startOffsets.Pairwise (· ≤ ·) ∧ (sift text).endOffsets.Pairwise (· ≤ ·) := by
  fun_induction sift text with
  | case1 => simp
  | case2 b rest n h m ih =>
    refine ⟨pairwise_map.mpr (ih.1.imp fun hle => Nat.add_le_add_left hle n),
      pairwise_cons.mpr ⟨fun _ _ => zero_le _, pairwise_map.mpr ?_⟩⟩
    exact ih.2.tail.imp fun hle => Nat.add_le_add_left hle n
  | case3 b rest h m ih =>
    exact ⟨pairwise_cons.mpr ⟨fun _ _ => zero_le _,
        pairwise_map.mpr (ih.1.imp fun hle => Nat.add_le_add_left hle 1)⟩,
      pairwise_cons.mpr ⟨fun _ _ => zero_le _,
        pairwise_map.mpr (ih.2.imp fun hle => Nat.add_le_add_left hle 1)⟩⟩

/-! ## The bytes of a string -/

theorem utf8EncodeChar_bytes (c : Char) :
    (∃ b, String.utf8EncodeChar c = [b]) ∨ ∀ b ∈ String.utf8EncodeChar c, 128 ≤ b.toNat := by
  unfold String.utf8EncodeChar
  dsimp only
  split
  · exact Or.inl ⟨_, rfl⟩
  · right
    split_ifs <;> simp only [mem_cons, not_mem_nil, or_false] <;> rintro b hb <;>
      rcases hb with rfl | rfl | rfl | rfl <;> simp <;> omega

theorem flatMap_eq_cons {body : List Char} {b : UInt8} {rest : List UInt8}
    (h : b :: rest = body.flatMap String.utf8EncodeChar) :
    ∃ (c : Char) (body' : List Char) (tail : List UInt8), String.utf8EncodeChar c = b :: tail ∧
      rest = tail ++ body'.flatMap String.utf8EncodeChar ∧ (∀ b ∈ tail, 128 ≤ b.toNat) ∧
      (b.toNat < 128 → tail = []) := by
  cases body with
  | nil => cases h
  | cons c body =>
    rw [flatMap_cons] at h
    rcases utf8EncodeChar_bytes c with ⟨b', hb⟩ | hlarge
    · rw [hb] at h
      obtain ⟨rfl, hrest⟩ := cons.inj h
      exact ⟨c, body, [], hb, hrest, by simp, fun _ => rfl⟩
    · cases hc : String.utf8EncodeChar c with
      | nil => exact absurd hc String.utf8EncodeChar_ne_nil
      | cons b' tail =>
        rw [hc] at h hlarge
        obtain ⟨rfl, hrest⟩ := cons.inj h
        rw [forall_mem_cons] at hlarge
        exact ⟨c, body, tail, hc, hrest, hlarge.2, fun hlt => absurd hlarge.1 (not_le.mpr hlt)⟩

theorem exists_after_ascii {ascii rest : List UInt8} {body : List Char}
    (hascii : ∀ b ∈ ascii, b.toNat < 128)
    (h : ascii ++ rest = body.flatMap String.utf8EncodeChar) :
    ∃ body' : List Char, rest = body'.flatMap String.utf8EncodeChar := by
  induction ascii generalizing body with
  | nil => exact ⟨body, h⟩
  | cons b ascii ih =>
    rw [forall_mem_cons] at hascii
    obtain ⟨c, body', tail, -, hrest, -, htail⟩ := flatMap_eq_cons h
    rw [htail hascii.1] at hrest
    exact ih hascii.2 hrest

theorem Bracketed.ascii {m : List UInt8} (h : Bracketed m) : ∀ b ∈ m, b.toNat < 128 := by
  obtain ⟨digits, -, hdig, rfl⟩ := h
  intro b hb
  rw [mem_cons, mem_append, mem_singleton] at hb
  rcases hb with rfl | hb | rfl
  · decide
  · have hle := ((Bool.and_eq_true _ _).mp (hdig b hb)).2
    have hbound := UInt8.le_iff_toNat_le.mp (of_decide_eq_true hle)
    exact hbound.trans_lt (by decide)
  · decide

/-- What is kept of the bytes of a string, from the middle of a character on, ends characters. -/
theorem Unmarked.utf8 {text bare : List UInt8} (h : Unmarked text bare) (tail : List UInt8)
    (body : List Char) (htail : ∀ b ∈ tail, 128 ≤ b.toNat)
    (htext : text = tail ++ body.flatMap String.utf8EncodeChar) :
    ∃ bare' : List Char, bare = tail ++ bare'.flatMap String.utf8EncodeChar := by
  induction h generalizing tail body with
  | nil =>
    obtain ⟨rfl, -⟩ := append_eq_nil_iff.mp htext.symm
    exact ⟨[], rfl⟩
  | marker hmark _ ih =>
    cases tail with
    | nil =>
      obtain ⟨body', hrest⟩ := exists_after_ascii hmark.ascii htext
      exact ih [] body' htail hrest
    | cons b tail =>
      obtain ⟨digits, -, -, rfl⟩ := hmark
      obtain ⟨rfl, -⟩ := cons.inj htext
      exact absurd (htail _ mem_cons_self) (by decide)
  | byte hnone _ ih =>
    cases tail with
    | nil =>
      obtain ⟨c, body', tail, hc, hrest, hlarge, -⟩ := flatMap_eq_cons htext
      obtain ⟨bare', hbare⟩ := ih tail body' hlarge hrest
      exact ⟨c :: bare', by rw [hbare, flatMap_cons, hc]; rfl⟩
    | cons b tail =>
      obtain ⟨rfl, hrest⟩ := cons.inj htext
      obtain ⟨bare', hbare⟩ := ih tail body (fun b hb => htail b (mem_cons_of_mem _ hb)) hrest
      exact ⟨bare', by rw [hbare]; rfl⟩

theorem markerFreeBody_spec (body : String) :
    (∃ bare, (markerFreeBodyWithOffsetMap (utf8 body)).bare = utf8 bare) ∧
    Unmarked (utf8 body) (markerFreeBodyWithOffsetMap (utf8 body)).bare ∧
    (∀ s e, s < e → e ≤ (markerFreeBodyWithOffsetMap (utf8 body)).bare.length → ∃ first last,
      Maps (utf8 body) (markerFreeBodyWithOffsetMap (utf8 body)) s e first last) ∧
    (markerFreeBodyWithOffsetMap (utf8 body)).startOffsets.Pairwise (· ≤ ·) ∧
    (markerFreeBodyWithOffsetMap (utf8 body)).endOffsets.Pairwise (· ≤ ·) := by
  rw [removeMarkers_body]
  obtain ⟨bare, hbare⟩ := (unmarked_scan (utf8 body)).utf8 [] body.toList (by simp) rfl
  refine ⟨⟨String.ofList bare, ?_⟩, unmarked_scan _, exists_maps _, monotone_scan _⟩
  rw [hbare, utf8, String.toList_ofList]
  rfl

theorem markerFreeBody_spec_quote : ∃ first last,
    Maps (utf8 "a [1]b") (markerFreeBodyWithOffsetMap (utf8 "a [1]b")) 0 2 first last :=
  (markerFreeBody_spec "a [1]b").2.2.1 0 2 (by decide) (by decide +kernel)

end Wenlan.Claims
