import Mathlib.Data.List.Infix
import Wenlan.Support.Quota

/-!
# Caps on ranked results

The end of `search_memory_cross_rerank`, where pages leave the ranked pool, a document and a
session may fill only so many places, and what is over the cap of its session fills up the rest.
Scores and contents are left out: the pool comes ranked.
-/

namespace Wenlan.Retrieval

open Support List

structure SearchResult where
  source : String
  sourceId : List Char
  contentHash : Option String

def defaultPerDocumentCap : Nat := 2

/-- A missing or empty hash is a capture without a document. -/
def documentKey (result : SearchResult) : Option String :=
  result.contentHash.filter (· ≠ "")

def capPerDocument (results : List SearchResult) (maxPerDocument : Nat) : List SearchResult :=
  if maxPerDocument = 0 then results
  else (Quota.split documentKey maxPerDocument (fun _ => 0) results).1

/-- `rsplit_once`, at the last occurrence. -/
def rsplitOnce (pattern : List Char) : List Char → Option (List Char × List Char)
  | [] => none
  | c :: rest =>
    match rsplitOnce pattern rest with
    | some (before, after) => some (c :: before, after)
    | none =>
      if pattern.isPrefixOf (c :: rest) then some ([], (c :: rest).drop pattern.length) else none

def sessionKey (sourceId : List Char) : Option (List Char) :=
  if "locomo_".toList.isPrefixOf sourceId then none
  else if "lme_".toList.isPrefixOf sourceId then
    match rsplitOnce "_t".toList sourceId with
    | some (session, turn) => if !turn.isEmpty && turn.all Char.isDigit then some session else none
    | none => none
  else none

/-- What is over the cap fills up the places that are left. -/
def capPerSession (results : List SearchResult) (maxPerSession limit : Nat) : List SearchResult :=
  if maxPerSession = 0 then results
  else
    let (kept, backfill) :=
      Quota.split (fun result => sessionKey result.sourceId) maxPerSession (fun _ => 0) results
    let kept := if kept.length < limit then kept ++ backfill.take (limit - kept.length) else kept
    kept.take limit

def cappedMemories (results : List SearchResult) : List SearchResult :=
  capPerDocument (results.filter (·.source ≠ "page")) defaultPerDocumentCap

/-- The places of the memories; sessions are capped only where that is enabled. -/
def rankedMemories (sessionDiversityMax : Option Nat) (limit : Nat)
    (results : List SearchResult) : List SearchResult :=
  let results := match sessionDiversityMax with
    | some maxPerSession => capPerSession (cappedMemories results) maxPerSession limit
    | none => cappedMemories results
  results.take limit

def ofSession (session : List Char) (result : SearchResult) : Bool :=
  sessionKey result.sourceId = some session

section Ranked

variable (results : List SearchResult) (limit : Nat)

theorem capPerDocument_spec : ∃ later,
    (capPerDocument results defaultPerDocumentCap ++ later).Perm results ∧
      ∀ hash ≠ "", (capPerDocument results defaultPerDocumentCap).countP
        (·.contentHash = some hash) ≤ defaultPerDocumentCap := by
  refine ⟨_, Quota.split_perm documentKey 2 (fun _ => 0) results, fun hash hhash => ?_⟩
  have hkey : (fun result : SearchResult => decide (result.contentHash = some hash)) =
      (documentKey · = some hash) := by
    funext result
    obtain ⟨-, -, contentHash⟩ := result
    unfold documentKey
    cases contentHash with
    | none => rfl
    | some other =>
      by_cases hsame : other = hash
      · simp [hsame, hhash]
      · simp [hsame]
  rw [hkey, countP_eq_length_filter]
  have hfirst := (Quota.split_filter documentKey 2 hash (fun _ => 0) results).1
  exact (congrArg length hfirst).trans_le (length_take_le _ _)

/-- Results put in the order in which they find a place. -/
structure Placing (results kept later : List SearchResult) (maxPerSession : Nat) : Prop where
  perm : (kept ++ later).Perm results
  order : ∀ session,
    (kept ++ later).filter (ofSession session) = results.filter (ofSession session)
  share : maxPerSession ≠ 0 → ∀ session, kept.countP (ofSession session) =
    min maxPerSession (results.countP (ofSession session))

theorem placing_all {maxPerSession : Nat} (hmax : maxPerSession = 0) :
    Placing results results [] maxPerSession := by
  refine ⟨?_, fun session => ?_, fun hne => absurd hmax hne⟩
  all_goals rw [append_nil]

theorem capPerSession_spec (maxPerSession : Nat) : ∃ kept later,
    Placing results kept later maxPerSession ∧
      (capPerSession results maxPerSession limit).take limit = (kept ++ later).take limit := by
  unfold capPerSession
  split
  · next hmax =>
    exact ⟨results, [], placing_all results hmax, by rw [append_nil]⟩
  · next hmax =>
    let key (result : SearchResult) := sessionKey result.sourceId
    refine ⟨(Quota.split key maxPerSession (fun _ => 0) results).1, _,
      ⟨Quota.split_perm .., fun session => Quota.split_rejoin _ _ session _ _,
        fun _ session => ?_⟩, ?_⟩
    · rw [countP_eq_length_filter, countP_eq_length_filter, ← length_take]
      exact congrArg length (Quota.split_filter _ _ session _ _).1
    · dsimp only
      rw [take_take, Nat.min_self]
      split
      · rw [take_append, take_append, take_take, Nat.min_self]
      · next hfull =>
        rw [take_append, Nat.sub_eq_zero_of_le (Nat.le_of_not_lt hfull), take_zero,
          append_nil]

end Ranked

theorem rankedMemories_placing (sessionDiversityMax : Option Nat) (limit : Nat)
    (results : List SearchResult) : ∃ kept later,
    Placing (cappedMemories results) kept later (sessionDiversityMax.getD 0) ∧
      rankedMemories sessionDiversityMax limit results = (kept ++ later).take limit := by
  cases sessionDiversityMax with
  | none =>
    exact ⟨cappedMemories results, [], placing_all _ rfl,
      congrArg (take limit) (append_nil _).symm⟩
  | some maxPerSession => exact capPerSession_spec (cappedMemories results) limit maxPerSession

/-- The memories that are returned are as many as fit, at most two of a document.  Those of a
session keep their order and none is passed over.  A session has more than its cap only where every
session has found its share. -/
theorem rankedMemories_spec (sessionDiversityMax : Option Nat) (limit : Nat)
    (results : List SearchResult) :
    let memories := results.filter (·.source ≠ "page")
    let ranked := rankedMemories sessionDiversityMax limit results
    ranked.length = min limit (cappedMemories results).length ∧
    (∃ left, (ranked ++ left).Perm memories) ∧
    (∀ hash ≠ "", ranked.countP (·.contentHash = some hash) ≤ defaultPerDocumentCap) ∧
    (∀ session, ranked.filter (ofSession session) <+:
      (cappedMemories results).filter (ofSession session)) ∧
    ∀ maxPerSession, maxPerSession ≠ 0 → sessionDiversityMax = some maxPerSession →
      ∀ session, maxPerSession < ranked.countP (ofSession session) →
      ∀ other, min maxPerSession ((cappedMemories results).countP (ofSession other)) ≤
        ranked.countP (ofSession other) := by
  intro memories ranked
  obtain ⟨rest, hmems, hhash⟩ := capPerDocument_spec memories
  obtain ⟨kept, later, hplaced, hranked⟩ :=
    rankedMemories_placing sessionDiversityMax limit results
  change ranked = _ at hranked
  have hprefix : ranked <+: kept ++ later := by
    rw [hranked]
    exact take_prefix ..
  refine ⟨?_, ?_, fun hash hne => ?_, fun session => ?_, ?_⟩
  · rw [hranked, length_take, hplaced.perm.length_eq]
  · obtain ⟨left, hleft⟩ := hprefix
    refine ⟨left ++ rest, ?_⟩
    rw [← append_assoc, hleft]
    exact (hplaced.perm.append_right rest).trans hmems
  · exact hprefix.sublist.countP_le.trans ((hplaced.perm.countP_eq _).trans_le (hhash hash hne))
  · rw [← hplaced.order session]
    exact hprefix.filter _
  · rintro maxPerSession hmax rfl session hmore other
    have hshare := hplaced.share hmax
    have hlong : kept.length ≤ limit := by
      by_contra hshort
      rw [hranked, take_append_of_le_length (Nat.le_of_not_le hshort)] at hmore
      have hle := (take_sublist limit kept).countP_le (p := ofSession session)
      rw [hshare session] at hle
      exact absurd hmore (Nat.not_lt.mpr (hle.trans (Nat.min_le_left ..)))
    have hall : kept <+: ranked := by
      rw [hranked, take_append, take_of_length_le hlong]
      exact prefix_append ..
    exact (hshare other).symm.trans_le hall.sublist.countP_le

end Wenlan.Retrieval
