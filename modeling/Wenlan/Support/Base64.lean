import Mathlib.Data.List.Basic

/-!
# Standard base64 with padding

The encoding of bytes in groups of three, and a decoder that either refuses or
drops the unused bits of the last group.  Characters are handled as a list.
-/

namespace Wenlan.Support.Base64

def alphabet : List Char :=
  "ABCDEFGHIJKLMNOPQRSTUVWXYZabcdefghijklmnopqrstuvwxyz0123456789+/".toList

def sextetChar (n : Nat) : Char := alphabet.getD n '='

def charSextet (c : Char) : Option Nat := alphabet.findIdx? (· == c)

def encode : List UInt8 → List Char
  | [] => []
  | [a] => [sextetChar (a.toNat / 4), sextetChar (a.toNat % 4 * 16), '=', '=']
  | [a, b] =>
    [sextetChar (a.toNat / 4), sextetChar (a.toNat % 4 * 16 + b.toNat / 16),
      sextetChar (b.toNat % 16 * 4), '=']
  | a :: b :: c :: rest =>
    sextetChar (a.toNat / 4) :: sextetChar (a.toNat % 4 * 16 + b.toNat / 16) ::
      sextetChar (b.toNat % 16 * 4 + c.toNat / 64) :: sextetChar (c.toNat % 64) ::
      encode rest

/-- The bytes of a padded last group.  Bits that no byte takes are refused when
`strict`, and dropped otherwise. -/
def decodeLast (strict : Bool) (w x y : Char) : Option (List UInt8) := do
  let s ← charSextet w
  let t ← charSextet x
  if y = '=' then
    if strict && t % 16 != 0 then none else pure [UInt8.ofNat (s * 4 + t / 16)]
  else
    let u ← charSextet y
    if strict && u % 4 != 0 then none
    else pure [UInt8.ofNat (s * 4 + t / 16), UInt8.ofNat (t % 16 * 16 + u / 4)]

def decode (strict : Bool) : List Char → Option (List UInt8)
  | [] => some []
  | w :: x :: y :: z :: rest =>
    if z = '=' then
      if rest.isEmpty then decodeLast strict w x y else none
    else do
      let s ← charSextet w
      let t ← charSextet x
      let u ← charSextet y
      let v ← charSextet z
      let bytes ← decode strict rest
      pure (UInt8.ofNat (s * 4 + t / 16) :: UInt8.ofNat (t % 16 * 16 + u / 4) ::
        UInt8.ofNat (u % 4 * 64 + v) :: bytes)
  | _ => none

variable {n : Nat}

theorem charSextet_sextetChar (hn : n < 64) : charSextet (sextetChar n) = some n := by
  have hall : ∀ m : Fin 64, charSextet (sextetChar m) = some m.val := by decide +kernel
  exact hall ⟨n, hn⟩

theorem sextetChar_mem (hn : n < 64) : sextetChar n ∈ alphabet := by
  have hall : ∀ m : Fin 64, sextetChar m ∈ alphabet := by decide +kernel
  exact hall ⟨n, hn⟩

theorem pad_not_mem : '=' ∉ alphabet := by decide

theorem sextetChar_ne_pad (hn : n < 64) : sextetChar n ≠ '=' := by
  intro heq
  exact pad_not_mem (heq ▸ sextetChar_mem hn)

section Arithmetic

variable (a b c : UInt8)

theorem first_lt : a.toNat / 4 < 64 := by
  have := a.toNat_lt
  omega

theorem second_lt : a.toNat % 4 * 16 + b.toNat / 16 < 64 := by
  have := b.toNat_lt
  omega

theorem third_lt : b.toNat % 16 * 4 + c.toNat / 64 < 64 := by
  have := c.toNat_lt
  omega

theorem first_byte :
    UInt8.ofNat (a.toNat / 4 * 4 + (a.toNat % 4 * 16 + b.toNat / 16) / 16) = a := by
  have hb := b.toNat_lt
  have hvalue : a.toNat / 4 * 4 + (a.toNat % 4 * 16 + b.toNat / 16) / 16 = a.toNat := by omega
  rw [hvalue, UInt8.ofNat_toNat]

theorem second_byte : UInt8.ofNat ((a.toNat % 4 * 16 + b.toNat / 16) % 16 * 16 +
      (b.toNat % 16 * 4 + c.toNat / 64) / 4) = b := by
  have hb := b.toNat_lt
  have hc := c.toNat_lt
  have hvalue : (a.toNat % 4 * 16 + b.toNat / 16) % 16 * 16 +
      (b.toNat % 16 * 4 + c.toNat / 64) / 4 = b.toNat := by omega
  rw [hvalue, UInt8.ofNat_toNat]

theorem third_byte :
    UInt8.ofNat ((b.toNat % 16 * 4 + c.toNat / 64) % 4 * 64 + c.toNat % 64) = c := by
  have hc := c.toNat_lt
  have hvalue : (b.toNat % 16 * 4 + c.toNat / 64) % 4 * 64 + c.toNat % 64 = c.toNat := by omega
  rw [hvalue, UInt8.ofNat_toNat]

end Arithmetic

/-- Decoding an encoding gives the bytes back, whether or not trailing bits count. -/
theorem decode_encode (strict : Bool) (bytes : List UInt8) :
    decode strict (encode bytes) = some bytes := by
  induction bytes using encode.induct with
  | case1 => rfl
  | case2 a =>
    have hfirst := first_byte a 0
    have ht : a.toNat % 4 * 16 < 64 := second_lt a 0
    have hbits : a.toNat % 4 * 16 % 16 = 0 := by omega
    simp only [encode, decode, decodeLast, List.isEmpty_nil, if_true,
      charSextet_sextetChar (first_lt a), charSextet_sextetChar ht, hbits, bne_self_eq_false,
      Bool.and_false, Option.bind_eq_bind, Option.bind_some]
    exact congrArg (fun byte => some [byte]) hfirst
  | case3 a b =>
    have hsec := second_byte a b 0
    have hu : b.toNat % 16 * 4 < 64 := third_lt b 0
    have hbits : b.toNat % 16 * 4 % 4 = 0 := by omega
    simp only [encode, decode, decodeLast, List.isEmpty_nil, if_true, if_false,
      charSextet_sextetChar (first_lt a), charSextet_sextetChar (second_lt a b),
      charSextet_sextetChar hu, sextetChar_ne_pad hu, hbits, bne_self_eq_false,
      Bool.and_false, Option.bind_eq_bind, Option.bind_some, first_byte]
    exact congrArg (fun byte => some [a, byte]) hsec
  | case4 a b c rest ih =>
    have hlast : c.toNat % 64 < 64 := Nat.mod_lt _ (by decide)
    simp only [encode, decode, if_neg (sextetChar_ne_pad hlast),
      charSextet_sextetChar (first_lt a), charSextet_sextetChar (second_lt a b),
      charSextet_sextetChar (third_lt b c), charSextet_sextetChar hlast,
      Option.bind_eq_bind, Option.bind_some, ih, first_byte, second_byte, third_byte]
    rfl

theorem length_encode (bytes : List UInt8) :
    (encode bytes).length = (bytes.length + 2) / 3 * 4 := by
  induction bytes using encode.induct with
  | case1 | case2 | case3 => simp [encode]
  | case4 a b c rest ih =>
    simp only [encode, List.length_cons, ih]
    omega

/-- An encoding is characters of the alphabet followed by at most two pads, and the
pads fill up the last group. -/
theorem encode_shape (bytes : List UInt8) :
    ∃ content pad, encode bytes = content ++ List.replicate pad '=' ∧
      (∀ c ∈ content, c ∈ alphabet) ∧ pad ≤ 2 ∧ (content.length + pad) % 4 = 0 := by
  induction bytes using encode.induct with
  | case1 => exact ⟨[], 0, rfl, by simp, by decide, rfl⟩
  | case2 a =>
    refine ⟨[_, _], 2, rfl, ?_, by decide, by simp⟩
    have ht : a.toNat % 4 * 16 < 64 := second_lt a 0
    simp only [List.mem_cons, List.not_mem_nil, or_false]
    rintro c (rfl | rfl)
    · exact sextetChar_mem (first_lt a)
    · exact sextetChar_mem ht
  | case3 a b =>
    refine ⟨[_, _, _], 1, rfl, ?_, by decide, by simp⟩
    have hu : b.toNat % 16 * 4 < 64 := third_lt b 0
    simp only [List.mem_cons, List.not_mem_nil, or_false]
    rintro c (rfl | rfl | rfl)
    · exact sextetChar_mem (first_lt a)
    · exact sextetChar_mem (second_lt a b)
    · exact sextetChar_mem hu
  | case4 a b c rest ih =>
    obtain ⟨content, pad, henc, hmem, hpad, hlen⟩ := ih
    refine ⟨sextetChar (a.toNat / 4) :: sextetChar (a.toNat % 4 * 16 + b.toNat / 16) ::
      sextetChar (b.toNat % 16 * 4 + c.toNat / 64) :: sextetChar (c.toNat % 64) :: content,
      pad, ?_, ?_, hpad, ?_⟩
    · rw [encode, henc]
      rfl
    · have hlast : c.toNat % 64 < 64 := Nat.mod_lt _ (by decide)
      simp only [List.mem_cons]
      rintro d (rfl | rfl | rfl | rfl | hd)
      · exact sextetChar_mem (first_lt a)
      · exact sextetChar_mem (second_lt a b)
      · exact sextetChar_mem (third_lt b c)
      · exact sextetChar_mem hlast
      · exact hmem d hd
    · simp only [List.length_cons]
      omega

end Wenlan.Support.Base64
