import Wenlan.Support.Json

/-!
# The compact text determines the value

A JSON text without blanks can be cut into its values from the left: no text of a value
is continued by another one, except that a number ends only where no digit follows.
So two values with the same text are the same.
-/

namespace Wenlan.Support.Json

open List

def hexValue (c : Char) : Nat :=
  if c.toNat < 58 then c.toNat - 48 else c.toNat - 87

theorem hexValue_hexDigit : ∀ n < 16, hexValue (hexDigit n) = n := by
  decide

/-- The first character of a string body, read back, and what follows it. -/
def unescape : List Char → Option (Char × List Char)
  | '\\' :: '"' :: rest => some ('"', rest)
  | '\\' :: '\\' :: rest => some ('\\', rest)
  | '\\' :: 'b' :: rest => some (Char.ofNat 8, rest)
  | '\\' :: 't' :: rest => some (Char.ofNat 9, rest)
  | '\\' :: 'n' :: rest => some (Char.ofNat 10, rest)
  | '\\' :: 'f' :: rest => some (Char.ofNat 12, rest)
  | '\\' :: 'r' :: rest => some (Char.ofNat 13, rest)
  | '\\' :: 'u' :: _ :: _ :: high :: low :: rest =>
    some (Char.ofNat (16 * hexValue high + hexValue low), rest)
  | c :: rest => some (c, rest)
  | [] => none

theorem unescape_escapeChar (c : Char) (rest : List Char) :
    unescape (escapeChar c ++ rest) = some (c, rest) := by
  have hofNat : ∀ {n : Nat}, c.toNat = n → Char.ofNat n = c := by
    intro n hn
    rw [← hn, Char.ofNat_toNat]
  unfold escapeChar
  split
  · next hquote => simp [unescape, hquote]
  split
  · next hslash => simp [unescape, hslash]
  split
  · next hn => simpa [unescape] using hofNat hn
  split
  · next hn => simpa [unescape] using hofNat hn
  split
  · next hn => simpa [unescape] using hofNat hn
  split
  · next hn => simpa [unescape] using hofNat hn
  split
  · next hn => simpa [unescape] using hofNat hn
  split
  · next hsmall =>
      have hhigh := hexValue_hexDigit (c.toNat / 16) (by omega)
      have hlow := hexValue_hexDigit (c.toNat % 16) (by omega)
      simp [unescape, hhigh, hlow, Nat.div_add_mod]
  · next hslash _ _ _ _ _ _ =>
      unfold unescape
      split <;> simp_all

variable {r' r : List Char}

theorem escapeChar_append_inj {c d : Char}
    (h : escapeChar c ++ r = escapeChar d ++ r') : c = d ∧ r = r' := by
  have hread := unescape_escapeChar c r
  rw [h, unescape_escapeChar] at hread
  simpa [eq_comm] using hread

theorem escapeChar_ne_quote (c : Char) (r : List Char) : ∀ r', escapeChar c ++ r ≠ '"' :: r' := by
  intro r' h
  unfold escapeChar at h
  repeat' split at h
  all_goals simp_all

theorem body_append_inj : ∀ {cs ds : List Char},
    cs.flatMap escapeChar ++ '"' :: r = ds.flatMap escapeChar ++ '"' :: r' → cs = ds ∧ r = r'
  | [], [], h => by simpa using h
  | [], d :: ds, h => by
    rw [flatMap_cons, append_assoc] at h
    exact absurd h.symm (escapeChar_ne_quote d _ _)
  | c :: cs, [], h => by
    rw [flatMap_cons, append_assoc] at h
    exact absurd h (escapeChar_ne_quote c _ _)
  | c :: cs, d :: ds, h => by
    rw [flatMap_cons, flatMap_cons, append_assoc, append_assoc] at h
    obtain ⟨rfl, hrest⟩ := escapeChar_append_inj h
    obtain ⟨rfl, rfl⟩ := body_append_inj hrest
    exact ⟨rfl, rfl⟩

theorem quote_append_inj {s t : String} (h : quote s ++ r = quote t ++ r') : s = t ∧ r = r' := by
  simp only [quote, cons_append, append_assoc, nil_append, cons.injEq,
    true_and] at h
  obtain ⟨hchars, hrest⟩ := body_append_inj h
  exact ⟨String.toList_inj.mp hchars, hrest⟩

/-- A text that does not continue a number. -/
def Stops (rest : List Char) : Prop := ∀ c ∈ rest.head?, c.isDigit = false

theorem toString_digits (n : Nat) : ∀ c ∈ (toString n).toList, c.isDigit := by
  intro c hmem
  rw [Nat.toString_eq_repr, Nat.toList_repr] at hmem
  exact Nat.isDigit_of_mem_toDigits (by omega) (by omega) hmem

theorem takeWhile_digits {digits rest : List Char} (hdig : ∀ c ∈ digits, c.isDigit)
    (hrest : Stops rest) : (digits ++ rest).takeWhile Char.isDigit = digits := by
  rw [takeWhile_append_of_pos hdig]
  cases rest with
  | nil => simp
  | cons c rest =>
    have hc : c.isDigit = false := hrest c rfl
    simp [hc]

theorem number_append_inj {m n : Nat} (hr : Stops r) (hr' : Stops r')
    (h : (toString m).toList ++ r = (toString n).toList ++ r') : m = n ∧ r = r' := by
  have hdig : (toString m).toList = (toString n).toList := by
    rw [← takeWhile_digits (toString_digits m) hr, h, takeWhile_digits (toString_digits n) hr']
  constructor
  · have hvalue := congrArg (Nat.ofDigitChars 10 · 0) hdig
    simpa [Nat.toString_eq_repr] using hvalue
  · rw [hdig] at h
    exact append_cancel_left h

/-! ## Values -/

/-- What the first character of a value's text says about it. -/
def leadOf (c : Char) : Nat := if c.isDigit then 0 else c.toNat

def lead : Json Nat → Nat
  | .null => leadOf 'n'
  | .bool true => leadOf 't'
  | .bool false => leadOf 'f'
  | .num _ => 0
  | .str _ => leadOf '"'
  | .arr _ => leadOf '['
  | .obj _ => leadOf '\x7b'

theorem toString_lead (n : Nat) : ∃ c rest, (toString n).toList = c :: rest ∧ leadOf c = 0 := by
  have hdig := toString_digits n
  cases hchars : (toString n).toList with
  | nil =>
    rw [Nat.toString_eq_repr, Nat.toList_repr] at hchars
    exact absurd hchars Nat.toDigits_ne_nil
  | cons c rest =>
    rw [hchars] at hdig
    exact ⟨c, rest, rfl, if_pos (hdig c mem_cons_self)⟩

theorem chars_lead (v : Json Nat) (r : List Char) :
    ∃ c rest, chars v ++ r = c :: rest ∧ leadOf c = lead v := by
  cases v with
  | null => exact ⟨'n', _, rfl, rfl⟩
  | bool value => cases value <;> exact ⟨_, _, rfl, rfl⟩
  | num n =>
    obtain ⟨c, rest, hchars, hlead⟩ := toString_lead n
    exact ⟨c, rest ++ r, by rw [chars, hchars, cons_append], hlead⟩
  | str s => exact ⟨'"', _, rfl, rfl⟩
  | arr items => exact ⟨'[', _, by rw [chars, cons_append, cons_append], rfl⟩
  | obj fields => exact ⟨'\x7b', _, by rw [chars, cons_append, cons_append], rfl⟩

theorem lead_eq {v w : Json Nat} (h : chars v ++ r = chars w ++ r') : lead v = lead w := by
  obtain ⟨c, rest, hv, hc⟩ := chars_lead v r
  obtain ⟨d, rest', hw, hd⟩ := chars_lead w r'
  rw [hv, hw] at h
  rw [← hc, ← hd, (cons.inj h).1]

theorem chars_ne_close (v : Json Nat) (r r' : List Char) : chars v ++ r ≠ ']' :: r' := by
  intro h
  obtain ⟨c, rest, hv, hc⟩ := chars_lead v r
  rw [hv] at h
  obtain ⟨rfl, -⟩ := cons.inj h
  cases v with
  | bool value => cases value <;> cases hc
  | _ => cases hc

def itemsTail : List (Json Nat) → List Char
  | [] => []
  | item :: rest => ',' :: charsItems (item :: rest)

theorem charsItems_cons (item : Json Nat) (rest : List (Json Nat)) :
    charsItems (item :: rest) = chars item ++ itemsTail rest := by
  cases rest with
  | nil => rw [charsItems, itemsTail, append_nil]
  | cons next rest => rw [charsItems, itemsTail]; simp

def fieldsTail : List (String × Json Nat) → List Char
  | [] => []
  | field :: rest => ',' :: charsFields (field :: rest)

theorem charsFields_cons (field : String × Json Nat) (rest : List (String × Json Nat)) :
    charsFields (field :: rest) = quote field.1 ++ ':' :: chars field.2 ++ fieldsTail rest := by
  cases rest with
  | nil => rw [charsFields, fieldsTail, append_nil]
  | cons next rest => rw [charsFields, fieldsTail]; simp

theorem stops_items (rest : List (Json Nat)) (r : List Char) :
    Stops (itemsTail rest ++ ']' :: r) := by
  cases rest <;> simp [Stops, itemsTail]

theorem stops_fields (rest : List (String × Json Nat)) (r : List Char) :
    Stops (fieldsTail rest ++ '\x7d' :: r) := by
  cases rest <;> simp [Stops, fieldsTail]

mutual

theorem chars_append_inj : ∀ (v w : Json Nat) {r r' : List Char}, Stops r → Stops r' →
    chars v ++ r = chars w ++ r' → v = w ∧ r = r'
  | .null, w, r, r', _, _, h => by
    cases w with
    | null => exact ⟨rfl, append_cancel_left h⟩
    | bool value => cases value <;> cases lead_eq h
    | _ => cases lead_eq h
  | .bool value, w, r, r', _, _, h => by
    cases w with
    | bool value' =>
      cases value <;> cases value'
      · exact ⟨rfl, append_cancel_left h⟩
      · cases lead_eq h
      · cases lead_eq h
      · exact ⟨rfl, append_cancel_left h⟩
    | _ => cases value <;> cases lead_eq h
  | .num m, w, r, r', hr, hr', h => by
    cases w with
    | num n =>
      obtain ⟨rfl, hrest⟩ := number_append_inj hr hr' h
      exact ⟨rfl, hrest⟩
    | bool value => cases value <;> cases lead_eq h
    | _ => cases lead_eq h
  | .str s, w, r, r', _, _, h => by
    cases w with
    | str t =>
      obtain ⟨rfl, hrest⟩ := quote_append_inj h
      exact ⟨rfl, hrest⟩
    | bool value => cases value <;> cases lead_eq h
    | _ => cases lead_eq h
  | .arr items, w, r, r', _, _, h => by
    cases w with
    | arr items' =>
      simp only [chars, cons_append, append_assoc, nil_append,
        cons.injEq, true_and] at h
      obtain ⟨rfl, hrest⟩ := items_append_inj items items' h
      exact ⟨rfl, hrest⟩
    | bool value => cases value <;> cases lead_eq h
    | _ => cases lead_eq h
  | .obj fields, w, r, r', _, _, h => by
    cases w with
    | obj fields' =>
      simp only [chars, cons_append, append_assoc, nil_append,
        cons.injEq, true_and] at h
      obtain ⟨rfl, hrest⟩ := fields_append_inj fields fields' h
      exact ⟨rfl, hrest⟩
    | bool value => cases value <;> cases lead_eq h
    | _ => cases lead_eq h

theorem items_append_inj : ∀ (items items' : List (Json Nat)) {r r' : List Char},
    charsItems items ++ ']' :: r = charsItems items' ++ ']' :: r' → items = items' ∧ r = r'
  | [], [], r, r', h => by simpa [charsItems] using h
  | [], w :: ws, r, r', h => by
    rw [charsItems_cons, append_assoc] at h
    exact absurd h.symm (chars_ne_close w _ _)
  | v :: vs, [], r, r', h => by
    rw [charsItems_cons, append_assoc] at h
    exact absurd h (chars_ne_close v _ _)
  | v :: vs, w :: ws, r, r', h => by
    rw [charsItems_cons, charsItems_cons, append_assoc, append_assoc] at h
    obtain ⟨rfl, hrest⟩ := chars_append_inj v w (stops_items vs r) (stops_items ws r') h
    cases vs with
    | nil =>
      cases ws with
      | nil => simpa [itemsTail] using hrest
      | cons w' ws => simp [itemsTail] at hrest
    | cons v' vs =>
      cases ws with
      | nil => simp [itemsTail] at hrest
      | cons w' ws =>
        simp only [itemsTail, cons_append, cons.injEq, true_and] at hrest
        obtain ⟨hitems, hrest⟩ := items_append_inj (v' :: vs) (w' :: ws) hrest
        exact ⟨by rw [hitems], hrest⟩

theorem fields_append_inj : ∀ (fields fields' : List (String × Json Nat)) {r r' : List Char},
    charsFields fields ++ '\x7d' :: r = charsFields fields' ++ '\x7d' :: r' →
      fields = fields' ∧ r = r'
  | [], [], r, r', h => by simpa [charsFields] using h
  | [], g :: gs, r, r', h => by
    rw [charsFields_cons] at h
    simp [charsFields, quote] at h
  | (name, v) :: fs, [], r, r', h => by
    rw [charsFields_cons] at h
    simp [charsFields, quote] at h
  | (name, v) :: fs, (name', w) :: gs, r, r', h => by
    rw [charsFields_cons, charsFields_cons] at h
    simp only [append_assoc, cons_append] at h
    obtain ⟨rfl, hvalue⟩ := quote_append_inj h
    obtain ⟨rfl, hrest⟩ := chars_append_inj v w (stops_fields fs r) (stops_fields gs r')
      (cons.inj hvalue).2
    cases fs with
    | nil =>
      cases gs with
      | nil => simpa [fieldsTail] using hrest
      | cons g gs => simp [fieldsTail] at hrest
    | cons f fs =>
      cases gs with
      | nil => simp [fieldsTail] at hrest
      | cons g gs =>
        simp only [fieldsTail, cons_append, cons.injEq, true_and] at hrest
        obtain ⟨hfield, hrest⟩ := fields_append_inj (f :: fs) (g :: gs) hrest
        exact ⟨by rw [hfield], hrest⟩

end

theorem stringify_injective : Function.Injective stringify := by
  intro v w h
  have hchars : chars v = chars w := String.ofList_injective h
  have hstops : Stops [] := by simp [Stops]
  have hsame : chars v ++ [] = chars w ++ [] := by rw [hchars]
  exact (chars_append_inj v w hstops hstops hsame).1

end Wenlan.Support.Json
