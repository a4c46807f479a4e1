import Mathlib.Data.List.Basic

/-!
# JSON values and their compact text

Values over an arbitrary type of numbers, and the text that both
`JSON.stringify` and `serde_json::to_string` write for a value with whole
numbers: no blanks, fields in the order they are listed, and the short escapes.
-/

namespace Wenlan.Support

/-- A JSON value; the fields of an object are kept in their written order. -/
inductive Json (ν : Type) where
  | null
  | bool (value : Bool)
  | num (value : ν)
  | str (value : String)
  | arr (items : List (Json ν))
  | obj (fields : List (String × Json ν))

/-- A double as far as validation looks at it: its integer, or that it has none. -/
inductive Double where
  | integral (value : Int)
  | other
  deriving DecidableEq

namespace Json

def hexDigit (n : Nat) : Char :=
  if n < 10 then Char.ofNat (48 + n) else Char.ofNat (87 + n)

def escapeChar (c : Char) : List Char :=
  if c = '"' then ['\\', '"']
  else if c = '\\' then ['\\', '\\']
  else if c.toNat = 8 then ['\\', 'b']
  else if c.toNat = 9 then ['\\', 't']
  else if c.toNat = 10 then ['\\', 'n']
  else if c.toNat = 12 then ['\\', 'f']
  else if c.toNat = 13 then ['\\', 'r']
  else if c.toNat < 32 then
    ['\\', 'u', '0', '0', hexDigit (c.toNat / 16), hexDigit (c.toNat % 16)]
  else [c]

def quote (s : String) : List Char :=
  '"' :: s.toList.flatMap escapeChar ++ ['"']

mutual

def chars : Json Nat → List Char
  | .null => "null".toList
  | .bool true => "true".toList
  | .bool false => "false".toList
  | .num n => (toString n).toList
  | .str s => quote s
  | .arr items => '[' :: charsItems items ++ [']']
  | .obj fields => '\x7b' :: charsFields fields ++ ['\x7d']

def charsItems : List (Json Nat) → List Char
  | [] => []
  | [item] => chars item
  | item :: rest => chars item ++ ',' :: charsItems rest

def charsFields : List (String × Json Nat) → List Char
  | [] => []
  | [(name, value)] => quote name ++ ':' :: chars value
  | (name, value) :: rest => quote name ++ ':' :: chars value ++ ',' :: charsFields rest

end

def stringify (value : Json Nat) : String :=
  String.ofList (chars value)

mutual

def mapNumbers {μ ν : Type} (number : μ → ν) : Json μ → Json ν
  | .null => .null
  | .bool value => .bool value
  | .num value => .num (number value)
  | .str value => .str value
  | .arr items => .arr (mapItems number items)
  | .obj fields => .obj (mapFields number fields)

def mapItems {μ ν : Type} (number : μ → ν) : List (Json μ) → List (Json ν)
  | [] => []
  | item :: rest => mapNumbers number item :: mapItems number rest

def mapFields {μ ν : Type} (number : μ → ν) : List (String × Json μ) → List (String × Json ν)
  | [] => []
  | (name, value) :: rest => (name, mapNumbers number value) :: mapFields number rest

end

def ReadsBack {ν : Type} (parse : String → Option (Json ν)) (number : Nat → ν)
    (value : Json Nat) : Prop :=
  parse value.stringify = some (value.mapNumbers number)

example : stringify (.arr [.str "a\"b", .null, .num 10]) = "[\"a\\\"b\",null,10]" := by
  decide

end Json

end Wenlan.Support
