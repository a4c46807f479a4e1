import Mathlib
import Wenlan.Reverse.DesktopCodec
import Wenlan.Reverse.RelayCodec

/-!
# Text and bodies on both sides

Both codecs restrict their text to ASCII classes, so bytes, UTF-16 code units and
characters count the same; and both decode exactly the canonical bodies.
-/

namespace Wenlan.Reverse

open Support.Base64 List
open Wenlan.Relay (utf16Length isSecretChar)

theorem foldl_add_eq (size : Char → Nat) (chars : List Char) (start : Nat) :
    chars.foldl (fun length c => length + size c) start =
      start + chars.foldl (fun length c => length + size c) 0 := by
  induction chars generalizing start with
  | nil => rfl
  | cons c rest ih =>
    rw [foldl_cons, foldl_cons, ih, ih (0 + size c)]
    omega

theorem foldl_size_eq_length {size : Char → Nat} {chars : List Char} (h : ∀ c ∈ chars, size c = 1) :
    chars.foldl (fun length c => length + size c) 0 = chars.length := by
  induction chars with
  | nil => rfl
  | cons c rest ih =>
    have hrest := ih fun d hd => h d (mem_cons_of_mem _ hd)
    have hc := h c mem_cons_self
    rw [foldl_cons, foldl_add_eq, hrest, length_cons]
    omega

theorem foldl_size_le {size size' : Char → Nat} (h : ∀ c, size c ≤ size' c) (chars : List Char) :
    chars.foldl (fun length c => length + size c) 0 ≤
      chars.foldl (fun length c => length + size' c) 0 := by
  induction chars with
  | nil => exact Nat.le_refl 0
  | cons c rest ih =>
    have hc := h c
    rw [foldl_cons, foldl_cons, foldl_add_eq, foldl_add_eq size']
    omega

def IsAscii (c : Char) : Prop := c.toNat < 128

instance (c : Char) : Decidable (IsAscii c) := inferInstanceAs (Decidable (_ < _))

variable {c : Char}

theorem utf8Size_ascii (h : IsAscii c) : c.utf8Size = 1 := by
  refine Char.utf8Size_eq_one_iff.mpr (UInt32.le_iff_toNat_le.mpr ?_)
  have hbound : c.val.toNat < 128 := h
  exact Nat.le_of_lt_succ hbound

theorem byteSize_ascii {chars : List Char} (h : ∀ c ∈ chars, IsAscii c) :
    Desktop.byteSize chars = chars.length :=
  foldl_size_eq_length fun c hc => utf8Size_ascii (h c hc)

theorem byteLength_ascii {value : String} (h : ∀ c ∈ value.toList, IsAscii c) :
    Desktop.byteLength value = value.toList.length :=
  byteSize_ascii h

theorem utf16Length_ascii {value : String} (h : ∀ c ∈ value.toList, IsAscii c) :
    utf16Length value = value.toList.length := by
  refine foldl_size_eq_length fun c hc => if_pos ?_
  have hbound : c.toNat < 128 := h c hc
  omega

theorem utf16Length_le (value : String) : utf16Length value ≤ Desktop.byteLength value := by
  refine foldl_size_le (fun c => ?_) _
  split
  · exact Char.utf8Size_pos c
  · next hlarge =>
      have hval : ¬c.val.toNat < 0x10000 := hlarge
      have hpos := Char.utf8Size_pos c
      have hne : c.utf8Size ≠ 1 := by
        intro hone
        have hsmall := UInt32.le_iff_toNat_le.mp (Char.utf8Size_eq_one_iff.mp hone)
        have h127 : (127 : UInt32).toNat = 127 := rfl
        omega
      omega

/-- The relay's size check comes down to the number of bytes. -/
theorem overWireLimit_eq (text : String) :
    Relay.overWireLimit text = decide (Desktop.maxWireBytes < Desktop.byteLength text) := by
  have hle := utf16Length_le text
  have hlimit : Relay.limits.maxWireBytes = Desktop.maxWireBytes := rfl
  have hbytes : Relay.byteLength text = Desktop.byteLength text := rfl
  unfold Relay.overWireLimit
  rw [hlimit, hbytes, ← Bool.decide_or, decide_eq_decide]
  omega

theorem isAlphanum_ascii (h : c.isAlphanum) : IsAscii c := by
  simp only [Char.isAlphanum, Char.isAlpha, Char.isUpper, Char.isLower, Char.isDigit,
    Bool.or_eq_true, Bool.and_eq_true, decide_eq_true_eq, ge_iff_le,
    UInt32.le_iff_toNat_le] at h
  have hval : c.val.toNat = c.toNat := rfl
  have hZ : 'Z'.val.toNat = 90 := rfl
  have hz : 'z'.val.toNat = 122 := rfl
  have h9 : '9'.val.toNat = 57 := rfl
  unfold IsAscii
  omega

theorem isSecretChar_ascii (h : isSecretChar c) : IsAscii c := by
  simp only [isSecretChar, Bool.or_eq_true, beq_iff_eq] at h
  rcases h with (h | rfl) | rfl
  · exact isAlphanum_ascii h
  · decide
  · decide

theorem isBase64Char_ascii (h : Relay.isBase64Char c) : IsAscii c := by
  simp only [Relay.isBase64Char, Bool.or_eq_true, beq_iff_eq] at h
  rcases h with (h | rfl) | rfl
  · exact isAlphanum_ascii h
  · decide
  · decide

theorem isHeaderValueChar_ascii (h : Desktop.isHeaderValueChar c) : IsAscii c := by
  simp only [Desktop.isHeaderValueChar, Bool.or_eq_true, Bool.and_eq_true, beq_iff_eq,
    decide_eq_true_eq] at h
  rcases h with rfl | h
  · decide
  · exact Nat.lt_of_le_of_lt h.2 (by decide)

/-- Both sides accept the same ids. -/
theorem validateId_eq (value : String) : Desktop.validateId value =
      (Relay.idPattern value &&
        decide (Relay.byteLength value ≤ Relay.limits.maxIdBytes)) := by
  have hbytes : Relay.byteLength value = Desktop.byteLength value := rfl
  have hlimit : Relay.limits.maxIdBytes = Desktop.maxIdBytes := rfl
  have hmax : Desktop.maxIdBytes = 64 := rfl
  have hempty : value.isEmpty = decide (value.toList.length = 0) := by
    rw [Bool.eq_iff_iff, decide_eq_true_eq, String.isEmpty_iff, length_eq_zero_iff,
      String.toList_eq_nil_iff]
  rw [Bool.eq_iff_iff]
  simp only [Desktop.validateId, Relay.idPattern, hempty, hbytes, hlimit, hmax,
    Bool.not_eq_true', Bool.or_eq_false_iff, decide_eq_false_iff_not, Bool.not_eq_false',
    Bool.and_eq_true, decide_eq_true_eq]
  constructor
  · rintro ⟨⟨hpos, hlong⟩, hall⟩
    have hascii := byteLength_ascii fun c hc => isSecretChar_ascii (all_eq_true.mp hall c hc)
    refine ⟨⟨⟨?_, ?_⟩, hall⟩, ?_⟩ <;> omega
  · rintro ⟨⟨⟨hpos, _⟩, hall⟩, hlong⟩
    refine ⟨⟨?_, ?_⟩, hall⟩ <;> omega

theorem validAuthorization_eq (value : String) :
    Desktop.validAuthorization value = Relay.authorizationPattern value := by
  have hbear : "Bearer ".toList.isPrefixOf value.toList =
      (value.toList.take 7 == "Bearer ".toList) := by
    rw [Bool.eq_iff_iff, isPrefixOf_iff_prefix, prefix_iff_eq_take, beq_iff_eq]
    exact eq_comm
  unfold Desktop.validAuthorization Relay.authorizationPattern
  rw [hbear]
  cases value.toList.take 7 == "Bearer ".toList with
  | false => rfl
  | true =>
    simp only [if_true, Bool.true_and]
    by_cases hall : (value.toList.drop 7).all isSecretChar
    · have hascii := byteSize_ascii fun c hc =>
        isSecretChar_ascii (all_eq_true.mp hall c hc)
      rw [hascii]
      rfl
    · have hdesk : (value.toList.drop 7).all Desktop.isIdChar = false :=
        Bool.eq_false_iff.mpr hall
      rw [Bool.eq_false_iff.mpr hall, hdesk, Bool.and_false, Bool.and_false]

theorem headerValue_eq (value : String) :
    (decide (Desktop.byteLength value ≤ Desktop.maxHeaderValueBytes) &&
        value.toList.all Desktop.isHeaderValueChar) =
      (!decide (Relay.limits.maxHeaderValueBytes < utf16Length value) &&
        Relay.headerValuePattern value) := by
  have hlimit : Relay.limits.maxHeaderValueBytes = Desktop.maxHeaderValueBytes := rfl
  have hpat : Relay.headerValuePattern value = value.toList.all Desktop.isHeaderValueChar := rfl
  rw [hlimit, hpat]
  by_cases hall : value.toList.all Desktop.isHeaderValueChar
  · have hascii : ∀ c ∈ value.toList, IsAscii c := fun c hc =>
      isHeaderValueChar_ascii (all_eq_true.mp hall c hc)
    rw [byteLength_ascii hascii, utf16Length_ascii hascii, ← decide_not, hall,
      Bool.and_true, Bool.and_true, decide_eq_decide]
    omega
  · rw [Bool.eq_false_iff.mpr hall, Bool.and_false, Bool.and_false]

/-! ## Bodies -/

/-- `body` is the canonical base64 of at most `limit` bytes. -/
def CanonicalBody (limit : Nat) (body : String) (bytes : List UInt8) : Prop :=
  body = String.ofList (encode bytes) ∧ bytes.length ≤ limit

theorem alphabet_isBase64Char (h : c ∈ alphabet) : Relay.isBase64Char c := by
  have hall : alphabet.all Relay.isBase64Char := by decide +kernel
  exact all_eq_true.mp hall c h

theorem sextetChar_isBase64Char {n : Nat} (hn : n < 64) :
    Relay.isBase64Char (sextetChar n) :=
  alphabet_isBase64Char (sextetChar_mem hn)

theorem encode_ascii (bytes : List UInt8) : ∀ c ∈ encode bytes, IsAscii c := by
  obtain ⟨content, pad, henc, hmem, _⟩ := encode_shape bytes
  intro c hc
  rw [henc] at hc
  rcases mem_append.mp hc with hc | hc
  · exact isBase64Char_ascii (alphabet_isBase64Char (hmem c hc))
  · rw [eq_of_mem_replicate hc]
    decide

theorem takeWhile_eq_nil {α : Type} {p : α → Bool} {l : List α} (h : ∀ a ∈ l, p a = false) :
    l.takeWhile p = [] := by
  cases l with
  | nil => rfl
  | cons a rest => rw [takeWhile_cons, h a mem_cons_self, if_neg Bool.false_ne_true]

theorem padding_eq {content : List Char} {pad : Nat}
    (hmem : ∀ c ∈ content, c ∈ alphabet) :
    ((content ++ replicate pad '=').reverse.takeWhile (· == '=')).length = pad := by
  have hpads : ∀ c ∈ replicate pad '=', (c == '=') := by
    intro c hc
    rw [eq_of_mem_replicate hc]
    decide
  have hcont : content.reverse.takeWhile (· == '=') = [] := by
    refine takeWhile_eq_nil fun c hc => beq_eq_false_iff_ne.mpr ?_
    rintro rfl
    exact pad_not_mem (hmem _ (mem_reverse.mp hc))
  rw [reverse_append, reverse_replicate, takeWhile_append_of_pos hpads,
    hcont, append_nil, length_replicate]

theorem validBase64Shape_encode (bytes : List UInt8) :
    Desktop.validBase64Shape (String.ofList (encode bytes)) := by
  obtain ⟨content, pad, henc, hmem, hpad, hlen⟩ := encode_shape bytes
  have hsize := byteSize_ascii (encode_ascii bytes)
  have hconte : ∀ c ∈ content, IsAscii c := fun c hc =>
    isBase64Char_ascii (alphabet_isBase64Char (hmem c hc))
  have htotal : (content ++ replicate pad '=').length = content.length + pad := by
    rw [length_append, length_replicate]
  have htake : (content ++ replicate pad '=').take (content.length + pad - pad) = content := by
    rw [Nat.add_sub_cancel, take_left]
  have hall : content.all Desktop.isBase64Alphabet :=
    all_eq_true.mpr fun c hc => alphabet_isBase64Char (hmem c hc)
  have hmod : content.length % 4 = if pad = 0 then 0 else if pad = 1 then 3 else 2 := by
    split_ifs <;> omega
  rw [henc] at hsize
  simp only [Desktop.validBase64Shape, String.toList_ofList, henc, padding_eq hmem, hsize,
    htotal, hlen, htake, byteSize_ascii hconte, hall, hmod, bne_self_eq_false,
    Bool.false_or, decide_eq_true_eq, if_neg (Nat.not_lt.mpr hpad), beq_self_eq_true,
    Bool.and_self]

theorem base64Pattern_encode (bytes : List UInt8) :
    Relay.base64Pattern (encode bytes) := by
  induction bytes using encode.induct with
  | case1 => rfl
  | case2 a =>
    have hw := sextetChar_isBase64Char (first_lt a)
    have hx := sextetChar_isBase64Char (second_lt a 0)
    simp only [UInt8.toNat_zero, Nat.zero_div, Nat.add_zero] at hx
    simp [encode, Relay.base64Pattern, hw, hx]
  | case3 a b =>
    have hw := sextetChar_isBase64Char (first_lt a)
    have hx := sextetChar_isBase64Char (second_lt a b)
    have hy := sextetChar_isBase64Char (third_lt b 0)
    simp only [UInt8.toNat_zero, Nat.zero_div, Nat.add_zero] at hy
    simp [encode, Relay.base64Pattern, hw, hx, hy]
  | case4 a b c rest ih =>
    have hw := sextetChar_isBase64Char (first_lt a)
    have hx := sextetChar_isBase64Char (second_lt a b)
    have hy := sextetChar_isBase64Char (third_lt b c)
    have hz := sextetChar_isBase64Char (Nat.mod_lt c.toNat (show 0 < 64 by decide))
    simp [encode, Relay.base64Pattern, hw, hx, hy, hz, ih, ite_self]

theorem length_encode_le {bytes : List UInt8} (h : bytes.length ≤ Desktop.maxRequestBodyBytes) :
    (encode bytes).length ≤ Desktop.maxRequestBodyBase64Bytes := by
  rw [length_encode, Desktop.maxRequestBodyBase64Bytes]
  omega

theorem encodeBody_iff {body : String} {bytes : List UInt8} : Desktop.encodeBody bytes = some body ↔
      CanonicalBody Desktop.maxRequestBodyBytes body bytes := by
  unfold Desktop.encodeBody CanonicalBody
  split
  · next hlong =>
      have hnot := Nat.not_le.mpr hlong
      simp [hnot]
  · next hshort =>
      have hle := Nat.not_lt.mp hshort
      simp only [Option.some.injEq, hle, and_true]
      exact eq_comm

theorem desktop_decodeBody_iff {body : String} {bytes : List UInt8} :
    Desktop.decodeBody body = some bytes ↔
      CanonicalBody Desktop.maxRequestBodyBytes body bytes := by
  constructor
  · intro h
    unfold Desktop.decodeBody at h
    split at h
    · cases h
    · split at h
      · cases h
      · split at h
        · next henc =>
            cases h
            exact encodeBody_iff.mp henc
        · cases h
  · intro hcan
    have henc := encodeBody_iff.mpr hcan
    obtain ⟨rfl, hle⟩ := hcan
    have hlen : Desktop.byteLength (String.ofList (encode bytes)) =
        (encode bytes).length := by
      rw [Desktop.byteLength, String.toList_ofList, byteSize_ascii (encode_ascii bytes)]
    have hshort := Nat.not_lt.mpr (length_encode_le hle)
    unfold Desktop.decodeBody
    simp [hlen, hshort, validBase64Shape_encode, decode_encode, henc]

theorem relay_decodeBody_iff {body : String} {bytes : List UInt8} :
    Relay.decodeBody body = some bytes ↔
      CanonicalBody Desktop.maxRequestBodyBytes body bytes := by
  constructor
  · intro h
    unfold Relay.decodeBody at h
    split at h
    · cases h
    · split at h
      · cases h
      · split at h
        · cases h
        · split at h
          · next henc =>
              cases h
              exact encodeBody_iff.mp henc
          · cases h
  · intro hcan
    have henc : Relay.encodeBody bytes = some body := encodeBody_iff.mpr hcan
    obtain ⟨rfl, hle⟩ := hcan
    have hascii : ∀ c ∈ (String.ofList (encode bytes)).toList, IsAscii c := by
      rw [String.toList_ofList]
      exact encode_ascii bytes
    have hlen := utf16Length_ascii hascii
    have hshort := Nat.not_lt.mpr (length_encode_le hle)
    have hmax : (Relay.limits.maxRequestBodyBytes + 2) / 3 * 4 =
        Desktop.maxRequestBodyBase64Bytes := rfl
    rw [String.toList_ofList] at hlen
    unfold Relay.decodeBody
    simp [hlen, hmax, hshort, base64Pattern_encode, decode_encode, henc]

theorem decodeBody_eq (body : String) : Relay.decodeBody body = Desktop.decodeBody body := by
  apply Option.ext
  intro bytes
  rw [relay_decodeBody_iff, desktop_decodeBody_iff]

end Wenlan.Reverse
