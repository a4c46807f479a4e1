import Mathlib.Data.List.Basic

/-!
# A bounded memory of recent values

A list of at most `limit` distinct values, oldest first.  Remembering one more drops
the oldest; what is left is the tail of everything that was ever remembered.
-/

namespace Wenlan.Support.Recent

variable {α : Type*} {limit : Nat} {history : List α} {x : α}

variable [DecidableEq α]

/-- Append a value unless it is there, and drop the oldest one above the limit. -/
def remember (limit : Nat) (ring : List α) (x : α) : List α :=
  if x ∈ ring then ring
  else if limit < (ring ++ [x]).length then (ring ++ [x]).tail else ring ++ [x]

end Wenlan.Support.Recent
