import Mathlib.Data.List.Dedup
import Mathlib.Data.List.Perm.Subperm
import Mathlib.Logic.Function.Basic
import Mathlib.Order.Monotone.Basic

/-!
# Reading a space's communities

`community.ts`: the pages of communities, then the pages of members, and what must agree before
they count as the space's cartography.
-/

namespace Wenlan.Community.Cartography

open List

structure CommunitySummary where
  communityId : String
  space : String
  memberCount : Nat
  publishedGeneration : Int

structure CommunityMember where
  space : String
  nodeId : String
  communityId : String
  publishedGeneration : Int

structure CommunityMemberCursor where
  space : String
  nodeId : String

structure Response (R K : Type) where
  schemaVersion : String
  scopeKind : Option String
  rows : List R
  nextCursor : Option K

inductive PartialErrorReason where
  | transport
  | oldDaemon
  | schemaMismatch
  | generationMismatch
  | interrupted
  | memberCountMismatch
  | unknownCommunity
  | conflictingAssignment
  | foreignSpace

inductive PageResult (R : Type) where
  | rows (rows : List R)
  | reason (reason : PartialErrorReason)
  | unregisteredSpace

inductive SpaceCartography where
  | ready (memberCommunityId : String → Option String)
  | fallback
  | partialError (reason : PartialErrorReason)

def COMMUNITY_READ_SCHEMA_VERSION : String := "community-read-v1"

def MAX_PAGES : Nat := 500

def isOldDaemonStatus (status : Nat) : Bool :=
  status == 404 || status == 405

def isUnregisteredSpaceStatus (status : Nat) : Bool :=
  status == 422

def isForeignSpace (space : String) (scopeKind : Option String) (spaces : List String) : Bool :=
  if space = "uncategorized" then scopeKind != some "uncategorized"
  else spaces.any fun other => other != space

/-- A request of one page, by its number and its cursor; an error has a status if it comes from
the daemon. -/
abbrev Ask (R K : Type) := Nat → Option K → Except (Option Nat) (Response R K)

/-- The loop of both reads, with `left` pages to go. -/
def fetchAll {R K : Type} (spaceOf : R → String) (space : String) (ask : Ask R K) :
    Nat → Nat → Option K → List R → PageResult R
  | 0, _, _, _ => .reason .interrupted
  | left + 1, page, cursor, rows =>
    match ask page cursor with
    | .error status =>
      if status.any isUnregisteredSpaceStatus then .unregisteredSpace
      else .reason (if status.any isOldDaemonStatus then .oldDaemon else .transport)
    | .ok response =>
      if response.schemaVersion ≠ COMMUNITY_READ_SCHEMA_VERSION then .reason .schemaMismatch
      else if isForeignSpace space response.scopeKind (response.rows.map spaceOf) then
        .reason .foreignSpace
      else match response.nextCursor with
        | none => .rows (rows ++ response.rows)
        | some next =>
          fetchAll spaceOf space ask left (page + 1) (some next) (rows ++ response.rows)

def fetchAllCommunities (space : String) (ask : Ask CommunitySummary String) :
    PageResult CommunitySummary :=
  fetchAll CommunitySummary.space space ask MAX_PAGES 0 none []

def fetchAllMembers (space : String) (ask : Ask CommunityMember CommunityMemberCursor) :
    PageResult CommunityMember :=
  fetchAll CommunityMember.space space ask MAX_PAGES 0 none []

/-- `memberCommunityId` and `membersByCommunity`. -/
structure Tally where
  assigned : String → Option String
  seen : String → List String

/-- The loop over the rows of the members. -/
def tally (currentGeneration : Int) (declaredCommunityIds : List String) :
    List CommunityMember → Tally → Except PartialErrorReason Tally
  | [], t => .ok t
  | member :: rest, t =>
    if member.publishedGeneration ≠ currentGeneration then .error .generationMismatch
    else if member.communityId ∉ declaredCommunityIds then .error .unknownCommunity
    else if (t.assigned member.nodeId).any fun assigned => assigned != member.communityId then
      .error .conflictingAssignment
    else tally currentGeneration declaredCommunityIds rest
      { assigned := Function.update t.assigned member.nodeId (some member.communityId)
        seen := Function.update t.seen member.communityId
          ((t.seen member.communityId).insert member.nodeId) }

def reconcile (communities : List CommunitySummary) (members : List CommunityMember) :
    SpaceCartography :=
  if communities = [] ∧ members = [] then .fallback
  else match (communities.map CommunitySummary.publishedGeneration).dedup with
    | [currentGeneration] =>
      match tally currentGeneration (communities.map CommunitySummary.communityId) members
          ⟨fun _ => none, fun _ => []⟩ with
      | .error reason => .partialError reason
      | .ok t =>
        if communities.any fun community =>
            (t.seen community.communityId).length != community.memberCount then
          .partialError .memberCountMismatch
        else .ready t.assigned
    | _ => .partialError .generationMismatch

def fetchSpaceCartography (space : String) (listCommunities : Ask CommunitySummary String)
    (listCommunityMembers : Ask CommunityMember CommunityMemberCursor) : SpaceCartography :=
  match fetchAllCommunities space listCommunities with
  | .unregisteredSpace => .fallback
  | .reason reason => .partialError reason
  | .rows communities =>
    match fetchAllMembers space listCommunityMembers with
    | .unregisteredSpace => .fallback
    | .reason reason => .partialError reason
    | .rows members => reconcile communities members

/-! ## The daemon -/

/-- What the daemon published at one time. -/
structure Generation where
  number : Int
  communities : List CommunitySummary
  members : List CommunityMember
  summarized : ∀ community ∈ communities, community.publishedGeneration = number
  numbered : ∀ member ∈ members, member.publishedGeneration = number
  declared : ∀ member ∈ members, member.communityId ∈ communities.map CommunitySummary.communityId
  once : (members.map CommunityMember.nodeId).Nodup
  counted : ∀ community ∈ communities, community.memberCount =
    (members.filter fun member => member.communityId = community.communityId).length

def Generation.assignment (g : Generation) (node : String) : Option String :=
  (g.members.find? fun member => member.nodeId = node).map CommunityMember.communityId

/-- A page of `all`: what stands behind the cursor, up to the next one. -/
structure Slice {R K : Type} (past : K → R → Prop) (all : List R) (cursor : Option K)
    (response : Response R K) : Prop where
  rows : ∀ row ∈ response.rows, row ∈ all
  rest : ∀ row ∈ all, (∀ last ∈ cursor, past last row) →
    row ∈ response.rows ∨ ∃ next ∈ response.nextCursor, past next row
  moves : response.nextCursor.isSome → response.rows ≠ []

/-- Each page is one of a generation, and later pages are not of earlier ones. -/
structure Publishes (published : Nat → Generation) (summaryAt memberAt : Nat → Nat)
    (listCommunities : Ask CommunitySummary String)
    (listCommunityMembers : Ask CommunityMember CommunityMemberCursor)
    (pastSummary : String → CommunitySummary → Prop)
    (pastMember : CommunityMemberCursor → CommunityMember → Prop) : Prop where
  distinct : Function.Injective fun n => (published n).number
  summaries_later : Monotone summaryAt
  members_later : Monotone memberAt
  members_after : ∀ page page', summaryAt page ≤ memberAt page'
  summaries : ∀ page cursor response, listCommunities page cursor = .ok response →
    Slice pastSummary (published (summaryAt page)).communities cursor response
  members : ∀ page cursor response, listCommunityMembers page cursor = .ok response →
    Slice pastMember (published (memberAt page)).members cursor response

/-! ## One read -/

section Read

variable {R K : Type} {spaceOf : R → String} {space : String} {ask : Ask R K}
  {past : K → R → Prop} {all : Nat → List R}

/-- What a read brought: rows of the pages `page` to `last`, of which all but the last brought some,
and everything behind the cursor if they are pages of one list. -/
structure Brought (past : K → R → Prop) (all : Nat → List R) (page last : Nat)
    (cursor : Option K) (rows : List R) : Prop where
  le : page ≤ last
  from_page : ∀ row ∈ rows, ∃ p, page ≤ p ∧ p ≤ last ∧ row ∈ all p
  some_row : ∀ p, page ≤ p → p < last → ∃ row ∈ rows, row ∈ all p
  complete : ∀ list, (∀ p, page ≤ p → p ≤ last → all p = list) →
    ∀ row ∈ list, (∀ c ∈ cursor, past c row) → row ∈ rows

theorem fetchAll_rows (hslice : ∀ page cursor response, ask page cursor = .ok response →
      Slice past (all page) cursor response)
    {left page : Nat} {cursor : Option K} {acc rows : List R}
    (h : fetchAll spaceOf space ask left page cursor acc = .rows rows) :
    ∃ more last, rows = acc ++ more ∧ Brought past all page last cursor more := by
  induction left generalizing page cursor acc with
  | zero => cases h
  | succ left ih =>
    rw [fetchAll] at h
    split at h
    · split at h <;> cases h
    · next response hask =>
      have hpage := hslice page cursor response hask
      split at h
      · cases h
      · split at h
        · cases h
        · split at h
          · next hnext =>
            cases h
            refine ⟨response.rows, page, rfl, le_refl _, ?_, ?_, ?_⟩
            · exact fun row hrow => ⟨page, le_refl _, le_refl _, hpage.rows row hrow⟩
            · exact fun p hge hlt => absurd hge (Nat.not_le.mpr hlt)
            · intro list hsame row hrow hpast
              rw [← hsame page (le_refl _) (le_refl _)] at hrow
              refine (hpage.rest row hrow hpast).resolve_right ?_
              rintro ⟨next, hmem, -⟩
              rw [hnext] at hmem
              cases hmem
          · next next hnext =>
            obtain ⟨more, last, hrows, hmore⟩ := ih h
            have hlater : page ≤ last := Nat.le_of_succ_le hmore.le
            rw [append_assoc] at hrows
            refine ⟨response.rows ++ more, last, hrows, hlater, ?_, ?_, ?_⟩
            · intro row hrow
              rcases mem_append.mp hrow with hrow | hrow
              · exact ⟨page, le_refl _, hlater, hpage.rows row hrow⟩
              · obtain ⟨p, hge, hle, hrow⟩ := hmore.from_page row hrow
                exact ⟨p, Nat.le_of_succ_le hge, hle, hrow⟩
            · intro p hge hlt
              rcases Nat.eq_or_lt_of_le hge with rfl | hgt
              · obtain ⟨row, hrow⟩ := exists_mem_of_ne_nil _ (hpage.moves (by rw [hnext]; rfl))
                exact ⟨row, mem_append_left _ hrow, hpage.rows row hrow⟩
              · obtain ⟨row, hrow, hall⟩ := hmore.some_row p hgt hlt
                exact ⟨row, mem_append_right _ hrow, hall⟩
            · intro list hsame row hrow hpast
              have hthis := hrow
              rw [← hsame page (le_refl _) hlater] at hthis
              rcases hpage.rest row hthis hpast with hhere | ⟨next', hmem, hnext'⟩
              · exact mem_append_left _ hhere
              · refine mem_append_right _ (hmore.complete list ?_ row hrow ?_)
                · exact fun p hge hle => hsame p (Nat.le_of_succ_le hge) hle
                · intro c hc
                  rw [hnext] at hmem
                  cases hmem
                  cases hc
                  exact hnext'

end Read

/-- The maps that the loop over the members has after the rows `done`. -/
structure Tallied (done : List CommunityMember) (t : Tally) : Prop where
  assigned : ∀ node community, t.assigned node = some community ↔ node ∈ t.seen community
  seen : ∀ node community, node ∈ t.seen community ↔
    ∃ member ∈ done, member.nodeId = node ∧ member.communityId = community
  nodup : ∀ community, (t.seen community).Nodup

variable {t : Tally}

theorem Tallied.insert {done : List CommunityMember} (ht : Tallied done t)
    {member : CommunityMember}
    (hfree : ((t.assigned member.nodeId).any fun assigned =>
      assigned != member.communityId) = false) :
    Tallied (done ++ [member])
      { assigned := Function.update t.assigned member.nodeId (some member.communityId)
        seen := Function.update t.seen member.communityId
          ((t.seen member.communityId).insert member.nodeId) } := by
  have hseen : ∀ node community, node ∈ Function.update t.seen member.communityId
      ((t.seen member.communityId).insert member.nodeId) community ↔
        node ∈ t.seen community ∨ (member.nodeId = node ∧ member.communityId = community) := by
    intro node community
    by_cases hcom : community = member.communityId
    · subst hcom
      rw [Function.update_self, mem_insert_iff, or_comm, eq_comm]
      simp
    · rw [Function.update_of_ne hcom]
      simp [Ne.symm hcom]
  refine ⟨?_, ?_, ?_⟩
  · intro node community
    rw [hseen]
    dsimp only
    by_cases hnode : node = member.nodeId
    · subst hnode
      rw [Function.update_self, Option.some.injEq]
      constructor
      · exact fun heq => Or.inr ⟨rfl, heq⟩
      · rintro (hold | ⟨-, heq⟩)
        · rw [(ht.assigned _ _).mpr hold] at hfree
          exact (by simpa using hfree : community = member.communityId).symm
        · exact heq
    · rw [Function.update_of_ne hnode, ht.assigned]
      exact (or_iff_left fun heq => hnode heq.1.symm).symm
  · intro node community
    rw [hseen, ht.seen]
    simp [or_and_right, exists_or]
  · intro community
    dsimp only
    by_cases hcom : community = member.communityId
    · subst hcom
      rw [Function.update_self]
      exact (ht.nodup _).insert
    · rw [Function.update_of_ne hcom]
      exact ht.nodup community

theorem tally_ok {currentGeneration : Int} {declared : List String}
    {done rows : List CommunityMember} {t' : Tally} (ht : Tallied done t)
    (h : tally currentGeneration declared rows t = .ok t') :
    Tallied (done ++ rows) t' ∧
      ∀ member ∈ rows, member.publishedGeneration = currentGeneration := by
  induction rows generalizing done t with
  | nil =>
    cases h
    exact ⟨by rwa [append_nil], forall_mem_nil _⟩
  | cons member rest ih =>
    rw [tally] at h
    split at h
    · cases h
    · next hcurrent =>
      split at h
      · cases h
      · split at h
        · cases h
        · next hfree =>
          obtain ⟨hrest, hall⟩ := ih (ht.insert ((Bool.not_eq_true _).mp hfree)) h
          rw [append_assoc, singleton_append] at hrest
          exact ⟨hrest, forall_mem_cons.mpr ⟨not_not.mp hcurrent, hall⟩⟩

theorem assignment_eq (g : Generation) {node community : String} :
    g.assignment node = some community ↔
      ∃ member ∈ g.members, member.nodeId = node ∧ member.communityId = community := by
  rw [Generation.assignment, Option.map_eq_some_iff]
  constructor
  · rintro ⟨member, hfind, rfl⟩
    exact ⟨member, mem_of_find?_eq_some hfind, by simpa using find?_some hfind, rfl⟩
  · rintro ⟨member, hmemb, rfl, rfl⟩
    cases hfind : g.members.find? fun other => other.nodeId = member.nodeId with
    | none => simpa using find?_eq_none.mp hfind member hmemb
    | some other =>
      refine ⟨other, rfl, ?_⟩
      have hnode : other.nodeId = member.nodeId := by simpa using find?_some hfind
      rw [inj_on_of_nodup_map g.once (mem_of_find?_eq_some hfind) hmemb hnode]

theorem assigned_eq {g : Generation} {communities : List CommunitySummary}
    {members : List CommunityMember}
    (hcommu : ∀ community, community ∈ communities ↔ community ∈ g.communities)
    (hmems : ∀ member ∈ members, member ∈ g.members) (ht : Tallied members t)
    (hcoun : (communities.any fun community =>
      (t.seen community.communityId).length != community.memberCount) = false) :
    t.assigned = g.assignment := by
  funext node
  refine Option.ext fun community => ?_
  rw [ht.assigned, ht.seen, assignment_eq]
  constructor
  · rintro ⟨member, hmemb, heq⟩
    exact ⟨member, hmems member hmemb, heq⟩
  · rintro ⟨member, hmemb, rfl, rfl⟩
    rw [← ht.seen]
    obtain ⟨summary, hsum, hid⟩ := mem_map.mp (g.declared member hmemb)
    have hcount : (t.seen summary.communityId).length = summary.memberCount := by
      simpa using any_eq_false.mp hcoun summary ((hcommu summary).mpr hsum)
    let here := (g.members.filter fun other => other.communityId = summary.communityId).map
      CommunityMember.nodeId
    have hsub : t.seen summary.communityId ⊆ here := by
      intro other hother
      obtain ⟨row, hrow, rfl, hcom⟩ := (ht.seen _ _).mp hother
      exact mem_map_of_mem (mem_filter.mpr
        ⟨hmems row hrow, decide_eq_true hcom⟩)
    have hlen : here.length ≤ (t.seen summary.communityId).length := by
      rw [hcount, g.counted summary hsum, length_map]
    have hperm :=
      (subperm_of_subset (ht.nodup summary.communityId) hsub).perm_of_length_le hlen
    rw [← hid]
    exact hperm.mem_iff.mpr (mem_map_of_mem (mem_filter.mpr
      ⟨hmemb, decide_eq_true hid.symm⟩))

def onePerson (n : Nat) : Generation where
  number := n
  communities := [⟨"c", "work", 1, n⟩]
  members := [⟨"work", "a", "c", n⟩]
  summarized := by simp
  numbered := by simp
  declared := by simp
  once := by simp
  counted := by simp

end Wenlan.Community.Cartography
