import Wenlan.Spaces.Tables
import Wenlan.Support.Fallible

/-!
# Annotations moved between contexts

`move_context_in_transaction`.  The list of pages that an annotation links is taken as read from
its JSON text.
-/

namespace Wenlan.Spaces

open Pages (WenlanError)
open Support.Fallible

abbrev Annotations := AList fun _ : AnnotationKey => Annotation

def orphanedSpaceContextKey (spaceName : String) : String :=
  s!"orphaned-space:{spaceName}"

def AnnotationKey.within (key : AnnotationKey) (context : String) : AnnotationKey :=
  { key with contextKey := context }

/-- `i64::MAX` -/
def versionLimit : Nat := 2 ^ 63 - 1

structure PlannedMove where
  key : AnnotationKey
  version : Nat
  targetExists : Bool

def differs (key : AnnotationKey) : WenlanError :=
  .conflict s!"source annotation {key.source}/{key.sourceId} differs between Space contexts"

def exhausted (key : AnnotationKey) : WenlanError :=
  .conflict s!"source annotation {key.source}/{key.sourceId} version cannot be advanced"

def planMove (toContext : String) (annotations : Annotations)
    (entry : (_ : AnnotationKey) × Annotation) : Except WenlanError PlannedMove :=
  match annotations.lookup (entry.1.within toContext) with
  | some target =>
    if target.notes ≠ entry.2.notes ∨ target.pageIds ≠ entry.2.pageIds then
      .error (differs entry.1)
    else if versionLimit ≤ max entry.2.version target.version then .error (exhausted entry.1)
    else .ok ⟨entry.1, max entry.2.version target.version + 1, true⟩
  | none =>
    if versionLimit ≤ entry.2.version then .error (exhausted entry.1)
    else .ok ⟨entry.1, entry.2.version + 1, false⟩

def applyMove (now : Int) (toContext : String) (annotations : Annotations)
    (move : PlannedMove) : Annotations :=
  let target := move.key.within toContext
  let stamped := fun annotation : Annotation =>
    { annotation with version := move.version, updatedAt := now }
  if move.targetExists then
    ((annotations.lookup target).elim annotations fun annotation =>
      annotations.insert target (stamped annotation)).erase move.key
  else
    (annotations.lookup move.key).elim annotations fun annotation =>
      (annotations.erase move.key).insert target (stamped annotation)

def contextEntries (context : String) (annotations : Annotations) :
    List ((_ : AnnotationKey) × Annotation) :=
  (annotations.entries.filter fun entry => entry.1.contextKey == context).mergeSort
    fun a b => a.1.source < b.1.source ∨ (a.1.source = b.1.source ∧ a.1.sourceId ≤ b.1.sourceId)

def moveContext (now : Int) (fromContext toContext : String) (annotations : Annotations) :
    Except WenlanError Annotations :=
  if fromContext = toContext then .ok annotations
  else do
    let plan ← (contextEntries fromContext annotations).mapM (planMove toContext annotations)
    pure (plan.foldl (applyMove now toContext) annotations)

def contextHasAnnotations (context : String) (annotations : Annotations) : Bool :=
  annotations.keys.any fun key => key.contextKey == context

end Wenlan.Spaces
