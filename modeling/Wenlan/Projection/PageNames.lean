import Wenlan.Projection.Move
import Wenlan.Projection.ProtectedWrite

/-!
# Names of page files

The dashes of a slug, and the stem that is not reserved.
-/

namespace Wenlan.Projection

open Pages
open Support.FileSystem
open Support.Json

/-- `split("--")` and `join("-")` -/
def joinDashes : List Char → List Char
  | '-' :: '-' :: rest => '-' :: joinDashes rest
  | c :: rest => c :: joinDashes rest
  | [] => []

def trimDashes (chars : List Char) : List Char :=
  ((chars.dropWhile fun c => c == '-').reverse.dropWhile fun c => c == '-').reverse

def pageStemClearOfReserved (slug : String) : String :=
  if isReservedOkfFilename (slug ++ ".md") then slug ++ "-page" else slug

theorem mem_joinDashes {c : Char} {chars : List Char} (h : c ∈ joinDashes chars) : c ∈ chars := by
  fun_induction joinDashes chars with
  | case1 rest ih =>
    obtain rfl | hrest := List.mem_cons.mp h
    · exact List.mem_cons_self
    · exact List.mem_cons_of_mem _ (List.mem_cons_of_mem _ (ih hrest))
  | case2 first rest _ ih =>
    obtain rfl | hrest := List.mem_cons.mp h
    · exact List.mem_cons_self
    · exact List.mem_cons_of_mem _ (ih hrest)
  | case3 => exact h

theorem mem_trimDashes {c : Char} {chars : List Char} (h : c ∈ trimDashes chars) : c ∈ chars := by
  have hrev := List.mem_reverse.mp h
  have hfirst := (List.dropWhile_suffix _).subset hrev
  exact (List.dropWhile_suffix _).subset (List.mem_reverse.mp hfirst)

end Wenlan.Projection
