import Mathlib.Data.List.Basic
import Mathlib.Tactic.Ring

/-!
# Length-prefixed components

A message of components that each begin with their length in eight bytes, and of lists that begin
with their count.  No component can be read as a boundary, so a message has one reading.
-/

namespace Wenlan.Support.Framing

open List

/-- Big endian, truncated to `width` bytes. -/
def bigEndian : ℕ → ℕ → List UInt8
  | 0, _ => []
  | width + 1, n => bigEndian width (n / 256) ++ [UInt8.ofNat n]

@[simp] theorem length_bigEndian (width n : ℕ) : (bigEndian width n).length = width := by
  induction width generalizing n with
  | zero => rfl
  | succ width ih => rw [bigEndian, length_append, ih, length_singleton]

theorem bigEndian_inj {width m n : ℕ} (hm : m < 256 ^ width) (hn : n < 256 ^ width)
    (h : bigEndian width m = bigEndian width n) : m = n := by
  induction width generalizing m n with
  | zero =>
    rw [Nat.pow_zero] at hm hn
    omega
  | succ width ih =>
    rw [Nat.pow_succ] at hm hn
    rw [bigEndian, bigEndian] at h
    have hlen : (bigEndian width (m / 256)).length = (bigEndian width (n / 256)).length := by
      rw [length_bigEndian, length_bigEndian]
    obtain ⟨hinit, hlast⟩ := append_inj h hlen
    have hdiv : m / 256 = n / 256 := by
      apply ih _ _ hinit
      · exact (Nat.div_lt_iff_lt_mul (by decide)).mpr hm
      · exact (Nat.div_lt_iff_lt_mul (by decide)).mpr hn
    have hbyte := congrArg UInt8.toNat (cons.inj hlast).1
    rw [UInt8.toNat_ofNat', UInt8.toNat_ofNat'] at hbyte
    omega

def lengthBound : ℕ := 2 ^ 64

theorem lengthBound_eq : lengthBound = 256 ^ 8 := by
  unfold lengthBound
  norm_num

def component (bytes : List UInt8) : List UInt8 := bigEndian 8 bytes.length ++ bytes

/-- How many components there are, then the components. -/
def counted (parts : List (List UInt8)) : List UInt8 :=
  bigEndian 8 parts.length ++ parts.flatMap component

variable {rest' rest : List UInt8}

theorem component_append_inj {bytes bytes' : List UInt8}
    (hbytes : bytes.length < lengthBound) (hbytes' : bytes'.length < lengthBound)
    (h : component bytes ++ rest = component bytes' ++ rest') : bytes = bytes' ∧ rest = rest' := by
  unfold component at h
  rw [append_assoc, append_assoc] at h
  rw [lengthBound_eq] at hbytes hbytes'
  obtain ⟨hlens, hrest⟩ := append_inj h (by rw [length_bigEndian, length_bigEndian])
  exact append_inj hrest (bigEndian_inj hbytes hbytes' hlens)

theorem components_append_inj {parts parts' : List (List UInt8)}
    (hlen : parts.length = parts'.length) (hparts : ∀ bytes ∈ parts, bytes.length < lengthBound)
    (hparts' : ∀ bytes ∈ parts', bytes.length < lengthBound)
    (h : parts.flatMap component ++ rest = parts'.flatMap component ++ rest') :
    parts = parts' ∧ rest = rest' := by
  induction parts generalizing parts' with
  | nil =>
    have hnil : parts' = [] := length_eq_zero_iff.mp hlen.symm
    subst hnil
    exact ⟨rfl, h⟩
  | cons bytes parts ih =>
    cases parts' with
    | nil => cases hlen
    | cons bytes' parts' =>
      rw [forall_mem_cons] at hparts hparts'
      rw [flatMap_cons, flatMap_cons, append_assoc, append_assoc] at h
      obtain ⟨hfirst, hrest⟩ := component_append_inj hparts.1 hparts'.1 h
      obtain ⟨htail, hend⟩ := ih (Nat.succ.inj hlen) hparts.2 hparts'.2 hrest
      exact ⟨by rw [hfirst, htail], hend⟩

theorem counted_append_inj {parts parts' : List (List UInt8)}
    (hlen : parts.length < lengthBound) (hlen' : parts'.length < lengthBound)
    (hparts : ∀ bytes ∈ parts, bytes.length < lengthBound)
    (hparts' : ∀ bytes ∈ parts', bytes.length < lengthBound)
    (h : counted parts ++ rest = counted parts' ++ rest') : parts = parts' ∧ rest = rest' := by
  unfold counted at h
  rw [append_assoc, append_assoc] at h
  rw [lengthBound_eq] at hlen hlen'
  obtain ⟨hcount, hrest⟩ := append_inj h (by rw [length_bigEndian, length_bigEndian])
  exact components_append_inj (bigEndian_inj hlen hlen' hcount) hparts hparts' hrest

def part (bytes : List UInt8) : List UInt8 := (bigEndian 8 bytes.length).reverse ++ bytes

theorem part_append_inj {bytes bytes' : List UInt8}
    (hbytes : bytes.length < lengthBound) (hbytes' : bytes'.length < lengthBound)
    (h : part bytes ++ rest = part bytes' ++ rest') : bytes = bytes' ∧ rest = rest' := by
  unfold part at h
  rw [append_assoc, append_assoc] at h
  rw [lengthBound_eq] at hbytes hbytes'
  obtain ⟨hlens, hrest⟩ := append_inj h (by
    rw [length_reverse, length_reverse, length_bigEndian, length_bigEndian])
  have hsame := bigEndian_inj hbytes hbytes' (reverse_injective hlens)
  exact append_inj hrest hsame

/-- A message that is parts to its end has one reading, howev many they are. -/
theorem parts_inj {parts parts' : List (List UInt8)}
    (hparts : ∀ bytes ∈ parts, bytes.length < lengthBound)
    (hparts' : ∀ bytes ∈ parts', bytes.length < lengthBound)
    (h : parts.flatMap part = parts'.flatMap part) : parts = parts' := by
  have hlong : ∀ (bytes rest : List UInt8), part bytes ++ rest ≠ [] := by
    intro bytes rest hnil
    have hlen := congrArg length hnil
    rw [part, length_append, length_append, length_reverse, length_bigEndian,
      length_nil] at hlen
    omega
  induction parts generalizing parts' with
  | nil =>
    cases parts' with
    | nil => rfl
    | cons bytes' parts' => exact absurd h.symm (hlong _ _)
  | cons bytes parts ih =>
    cases parts' with
    | nil => exact absurd h (hlong _ _)
    | cons bytes' parts' =>
      rw [forall_mem_cons] at hparts hparts'
      rw [flatMap_cons, flatMap_cons] at h
      obtain ⟨hfirst, hrest⟩ := part_append_inj hparts.1 hparts'.1 h
      rw [hfirst, ih hparts.2 hparts'.2 hrest]

end Wenlan.Support.Framing
