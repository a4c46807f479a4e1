import Wenlan.Community.Accounts
import Wenlan.Support.FreshNames
import Wenlan.Support.GreedyMatching
import Wenlan.Support.JsonText
import Wenlan.Support.KeyTable

/-!
# Durable community ids

`rebind_durable_ids_weighted`: the groups of a new partition take over the ids of the old
communities that their members are tied to, each id goes to one group, and a group without one
gets a fresh id.
-/

namespace Wenlan.Community

open List

open Support (KeyTable)
open Support.GreedyMatching (Free accept greedy)

variable {W : Type} [Weight W] [DecidableLT W] [DecidableLE W]

/-- A placeholder of a node or a group that never had a durable id. -/
def isNewCommunityMarker (communityId : String) : Bool :=
  communityId.startsWith "__m4-new-node-" || communityId.startsWith "community-m4-new-"

/-- `*map.entry(key).or_default() += weight` -/
def addTo {κ : Type} [DecidableEq κ] (table : KeyTable κ W) (key : κ) (weight : W) : KeyTable κ W :=
  table.insert key ((table.lookup key).getD 0 + weight)

def incidentByOld (previousIds : List String) (neighbors : List (Nat × W)) :
    KeyTable String W × W :=
  neighbors.foldl (fun (incident, total) (neighbor, weight) =>
    let priorId := previousIds.getD neighbor ""
    if weight ≤ 0 ∨ isNewCommunityMarker priorId = true then (incident, total)
    else (addTo incident priorId weight, total + weight)) (∅, 0)

/-- What one node contributes: a unit split over the communities of its neighbours, or else one
for its own. -/
def nodeOverlap (previousIds : List String) (graph : ProjectedGraph W)
    (overlaps : KeyTable (Nat × String) W) (group node : Nat) : KeyTable (Nat × String) W :=
  let ownId := previousIds.getD node ""
  if isNewCommunityMarker ownId then overlaps
  else
    let (incident, total) := incidentByOld previousIds (graph.adjacency.getD node [])
    if 0 < total then
      incident.entries.foldl (fun overlaps entry =>
        addTo overlaps (group, entry.1) (entry.2 / total)) overlaps
    else addTo overlaps (group, ownId) 1.0

def overlapsOf (previousIds : List String) (newMembership : List Nat)
    (graph : ProjectedGraph W) : KeyTable (Nat × String) W :=
  newMembership.zipIdx.foldl (fun overlaps (group, node) =>
    nodeOverlap previousIds graph overlaps group node) ∅

structure Candidate (W : Type) where
  overlap : W
  oldId : String
  group : Nat

/-- The order of the candidates: large overlaps first, then by id and by group. -/
def Candidate.precedes (left right : Candidate W) : Prop :=
  right.overlap < left.overlap ∨ ¬ left.overlap < right.overlap ∧
    (left.oldId < right.oldId ∨ left.oldId = right.oldId ∧ left.group ≤ right.group)

instance (left right : Candidate W) : Decidable (left.precedes right) :=
  inferInstanceAs (Decidable (_ ∨ _))

def candidatesOf (overlaps : KeyTable (Nat × String) W) : List (Candidate W) :=
  (overlaps.entries.map fun entry => ⟨entry.2, entry.1.2, entry.1.1⟩).insertionSort
    Candidate.precedes

/-- The old ids that are claimed, and the ids of the groups so far. -/
structure Claims where
  claimedOld : List String
  rebound : KeyTable Nat String

def Claims.claim (claims : Claims) (candidate : Candidate W) : Claims :=
  if candidate.group ∉ claims.rebound ∧ candidate.oldId ∉ claims.claimedOld then
    ⟨candidate.oldId :: claims.claimedOld, claims.rebound.insert candidate.group candidate.oldId⟩
  else claims

def freshCandidate (ordinal : Nat) : String := "community-m4-new-" ++ toString ordinal

/-- The first candidate from an ordinal on that is not used, in so many tries. -/
def freshId (usedIds : List String) : Nat → Nat → Option (String × Nat)
  | 0, _ => none
  | tries + 1, ordinal =>
    if freshCandidate ordinal ∈ usedIds then freshId usedIds tries (ordinal + 1)
    else some (freshCandidate ordinal, ordinal + 1)

structure Minting where
  usedIds : List String
  freshOrdinal : Nat
  rebound : KeyTable Nat String

/-- A group without an id gets a fresh one; one try more than there are used ids is enough. -/
def Minting.mint (minting : Minting) (group : Nat) : Option Minting :=
  if group ∈ minting.rebound then some minting
  else do
    let (freshId, ordinal) ← freshId minting.usedIds (minting.usedIds.length + 1)
      minting.freshOrdinal
    some ⟨freshId :: minting.usedIds, ordinal, minting.rebound.insert group freshId⟩

def assignReboundIds (previousIds : List String) (newMembership : List Nat)
    (overlaps : KeyTable (Nat × String) W) : Option (List String) := do
  let groups := newMembership.dedup.insertionSort (· ≤ ·)
  let claims := (candidatesOf overlaps).foldl Claims.claim ⟨[], ∅⟩
  let minting ← groups.foldlM Minting.mint ⟨previousIds, 0, claims.rebound⟩
  newMembership.mapM fun group => minting.rebound.lookup group

/-- Nothing where the code panics. -/
def rebindDurableIdsWeighted (previousIds : List String) (newMembership : List Nat)
    (graph : ProjectedGraph W) : Option (List String) :=
  if previousIds.length = newMembership.length ∧ previousIds.length = graph.nodeIds.length then
    assignReboundIds previousIds newMembership (overlapsOf previousIds newMembership graph)
  else none

/-! ## What the overlaps are made of -/

/-- The history of some member of a group ties it to an old id: the member had a durable id, and
the old id is its own or that of a neighbour. -/
def Supports (previousIds : List String) (newMembership : List Nat) (graph : ProjectedGraph W)
    (group : Nat) (oldId : String) : Prop :=
  isNewCommunityMarker oldId = false ∧ ∃ node ownId,
    newMembership[node]? = some group ∧ previousIds[node]? = some ownId ∧
      isNewCommunityMarker ownId = false ∧
      (ownId = oldId ∨ ∃ neighbor weight, (neighbor, weight) ∈ graph.adjacency.getD node [] ∧
        ¬ weight ≤ 0 ∧ previousIds[neighbor]? = some oldId)

omit [DecidableLT W] [DecidableLE W] in
theorem Supports.mem_previous {previousIds : List String} {newMembership : List Nat}
    {graph : ProjectedGraph W} {group : Nat} {oldId : String}
    (h : Supports previousIds newMembership graph group oldId) : oldId ∈ previousIds := by
  obtain ⟨-, node, ownId, -, hown, -, rfl | ⟨neighbor, weight, -, -, hid⟩⟩ := h
  · exact mem_of_getElem? hown
  · exact mem_of_getElem? hid

variable {overlaps : KeyTable (Nat × String) W}

section Overlaps

variable {previousIds : List String} {newMembership : List Nat} {graph : ProjectedGraph W}

omit [DecidableLT W] [DecidableLE W] in
theorem mem_addTo {κ : Type} [DecidableEq κ] {table : KeyTable κ W} {key other : κ} {weight : W} :
    other ∈ addTo table key weight ↔ other = key ∨ other ∈ table :=
  AList.mem_insert _

omit [DecidableLT W] in
theorem of_mem_incidentByOld {neighbors : List (Nat × W)} {oldId : String}
    (hmem : oldId ∈ (incidentByOld previousIds neighbors).1) :
    isNewCommunityMarker oldId = false ∧ ∃ neighbor weight, (neighbor, weight) ∈ neighbors ∧
      ¬ weight ≤ 0 ∧ previousIds.getD neighbor "" = oldId := by
  induction neighbors using reverseRecOn with
  | nil => exact absurd hmem (AList.notMem_empty oldId)
  | append_singleton neighbors last ih =>
    have hwiden : (isNewCommunityMarker oldId = false ∧ ∃ neighbor weight,
        (neighbor, weight) ∈ neighbors ∧ ¬ weight ≤ 0 ∧ previousIds.getD neighbor "" = oldId) →
        isNewCommunityMarker oldId = false ∧ ∃ neighbor weight,
          (neighbor, weight) ∈ neighbors ++ [last] ∧ ¬ weight ≤ 0 ∧
            previousIds.getD neighbor "" = oldId := by
      rintro ⟨hmark, neighbor, weight, hentry, hrest⟩
      exact ⟨hmark, neighbor, weight, mem_append_left _ hentry, hrest⟩
    rw [incidentByOld, foldl_append] at hmem
    simp only [foldl_cons, foldl_nil] at hmem
    split_ifs at hmem with hskip
    · exact hwiden (ih hmem)
    · rw [not_or, Bool.not_eq_true] at hskip
      rcases mem_addTo.mp hmem with rfl | hold
      · exact ⟨hskip.2, last.1, last.2, mem_append_right _ (mem_singleton_self _),
          hskip.1, rfl⟩
      · exact hwiden (ih hold)

omit [DecidableLT W] [DecidableLE W] in
theorem mem_addAll {group : Nat} {total : W} {key : Nat × String}
    {entries : List (Σ _ : String, W)} {overlaps : KeyTable (Nat × String) W} :
    key ∈ entries.foldl (fun overlaps entry =>
      addTo overlaps (group, entry.1) (entry.2 / total)) overlaps ↔
      key ∈ overlaps ∨ key.1 = group ∧ key.2 ∈ entries.keys := by
  induction entries generalizing overlaps with
  | nil => simp
  | cons entry rest ih =>
    rw [foldl_cons, ih, mem_addTo, keys_cons, mem_cons]
    constructor
    · rintro ((rfl | h) | h)
      · exact .inr ⟨rfl, .inl rfl⟩
      · exact .inl h
      · exact .inr ⟨h.1, .inr h.2⟩
    · rintro (h | ⟨hgroup, hid | hrest⟩)
      · exact .inl (.inr h)
      · exact .inl (.inl (Prod.ext hgroup hid))
      · exact .inr ⟨hgroup, hrest⟩

theorem of_mem_nodeOverlap {group node : Nat}
    {key : Nat × String} (hmem : key ∈ nodeOverlap previousIds graph overlaps group node) :
    key ∈ overlaps ∨ key.1 = group ∧ isNewCommunityMarker key.2 = false ∧
      isNewCommunityMarker (previousIds.getD node "") = false ∧
      (previousIds.getD node "" = key.2 ∨ ∃ neighbor weight,
        (neighbor, weight) ∈ graph.adjacency.getD node [] ∧ ¬ weight ≤ 0 ∧
          previousIds.getD neighbor "" = key.2) := by
  unfold nodeOverlap at hmem
  dsimp only at hmem
  split_ifs at hmem with hmark htotal
  · exact .inl hmem
  · rcases mem_addAll.mp hmem with hold | ⟨hgroup, hid⟩
    · exact .inl hold
    · obtain ⟨hdur, hneigh⟩ := of_mem_incidentByOld (AList.mem_keys.mpr hid)
      exact .inr ⟨hgroup, hdur, Bool.not_eq_true _ ▸ hmark, .inr hneigh⟩
  · rcases mem_addTo.mp hmem with rfl | hold
    · exact .inr ⟨rfl, Bool.not_eq_true _ ▸ hmark, Bool.not_eq_true _ ▸ hmark, .inl rfl⟩
    · exact .inl hold

omit [Weight W] [DecidableLT W] [DecidableLE W] in
theorem getElem?_eq_some_getD {node : Nat} (hnode : node < previousIds.length) :
    previousIds[node]? = some (previousIds.getD node "") := by
  rw [getD_eq_getElem?_getD, getElem?_eq_getElem hnode, Option.getD_some]

/-- Every overlap is between a group and an id that its members' history supports. -/
theorem supports_of_mem_overlapsOf (hbounded : Bounded graph)
    (hgraph : previousIds.length = graph.nodeIds.length)
    (hnew : previousIds.length = newMembership.length) {key : Nat × String}
    (hmem : key ∈ overlapsOf previousIds newMembership graph) :
    Supports previousIds newMembership graph key.1 key.2 := by
  have hfold : ∀ (entries : List (Nat × Nat)) (overlaps : KeyTable (Nat × String) W),
      (∀ entry ∈ entries, newMembership[entry.2]? = some entry.1) →
      (∀ key ∈ overlaps, Supports previousIds newMembership graph key.1 key.2) →
      ∀ key ∈ entries.foldl (fun overlaps (group, node) =>
        nodeOverlap previousIds graph overlaps group node) overlaps,
        Supports previousIds newMembership graph key.1 key.2 := by
    intro entries
    induction entries with
    | nil => exact fun overlaps _ hoverlaps => hoverlaps
    | cons entry rest ih =>
      intro overlaps hentries hoverlaps
      apply ih _ fun entry hentry => hentries entry (mem_cons_of_mem _ hentry)
      intro key hkey
      rcases of_mem_nodeOverlap hkey with hold | ⟨hgroup, hdur, hmark, hvote⟩
      · exact hoverlaps key hold
      · have hmemb := hentries entry mem_cons_self
        have hnode : entry.2 < previousIds.length := by
          obtain ⟨hlt, -⟩ := List.getElem?_eq_some_iff.mp hmemb
          omega
        refine ⟨hdur, entry.2, previousIds.getD entry.2 "", hgroup ▸ hmemb,
          getElem?_eq_some_getD hnode, hmark, ?_⟩
        rcases hvote with hown | ⟨neighbor, weight, hentry, hweigh, hid⟩
        · exact .inl hown
        · have hneigh : neighbor < previousIds.length := by
            rw [hgraph]
            exact hbounded.neighbor_lt entry.2 neighbor (mem_map_of_mem hentry)
          exact .inr ⟨neighbor, weight, hentry, hweigh, hid ▸ getElem?_eq_some_getD hneigh⟩
  refine hfold newMembership.zipIdx ∅ ?_ (fun key h => absurd h (AList.notMem_empty key)) key hmem
  rintro ⟨group, node⟩ hentry
  exact mem_zipIdx_iff_getElem?.mp hentry

omit [DecidableLE W] in
theorem mem_candidatesOf {overlaps : KeyTable (Nat × String) W} {candidate : Candidate W} :
    candidate ∈ candidatesOf overlaps ↔
      overlaps.lookup (candidate.group, candidate.oldId) = some candidate.overlap := by
  rw [candidatesOf, mem_insertionSort, mem_map]
  constructor
  · rintro ⟨⟨key, overlap⟩, hmem, rfl⟩
    exact KeyTable.mem_entries_iff.mp hmem
  · intro hlook
    exact ⟨⟨(candidate.group, candidate.oldId), candidate.overlap⟩,
      KeyTable.mem_entries_iff.mpr hlook, rfl⟩

end Overlaps

structure Claims.Records (claims : Claims) (taken : List (Nat × String)) : Prop where
  rebound : ∀ group id, claims.rebound.lookup group = some id ↔ (group, id) ∈ taken
  claimed : ∀ id, id ∈ claims.claimedOld ↔ ∃ group, (group, id) ∈ taken

def Candidate.pair (candidate : Candidate W) : Nat × String := (candidate.group, candidate.oldId)

section Claims

variable {claims : Claims} {taken : List (Nat × String)}

omit [Weight W] [DecidableLT W] [DecidableLE W] in
theorem Claims.Records.free_iff (h : claims.Records taken) (candidate : Candidate W) :
    (candidate.group ∉ claims.rebound ∧ candidate.oldId ∉ claims.claimedOld) ↔
      Free taken candidate.pair := by
  rw [KeyTable.mem_iff, h.claimed]
  constructor
  · rintro ⟨hgroup, hold⟩ other hother
    constructor
    · intro heq
      have hpair : (candidate.group, other.2) = other := Prod.ext heq.symm rfl
      exact hgroup ⟨other.2, (h.rebound _ _).mpr (hpair ▸ hother)⟩
    · intro heq
      have hpair : (other.1, candidate.oldId) = other := Prod.ext rfl heq.symm
      exact hold ⟨other.1, hpair ▸ hother⟩
  · intro hfree
    constructor
    · rintro ⟨id, hlook⟩
      exact (hfree _ ((h.rebound _ _).mp hlook)).1 rfl
    · rintro ⟨group, hmem⟩
      exact (hfree _ hmem).2 rfl

omit [Weight W] [DecidableLT W] [DecidableLE W] in
theorem Claims.Records.claim (h : claims.Records taken) (candidate : Candidate W) :
    (claims.claim candidate).Records (accept taken candidate.pair) := by
  by_cases hfree : Free taken candidate.pair
  · rw [Claims.claim, if_pos ((h.free_iff candidate).mpr hfree), accept, if_pos hfree]
    constructor
    · intro group id
      rw [mem_append, mem_singleton, ← h.rebound]
      by_cases hgroup : group = candidate.group
      · subst hgroup
        rw [AList.lookup_insert]
        constructor
        · intro heq
          exact .inr (Prod.ext rfl (Option.some.inj heq).symm)
        · rintro (hold | heq)
          · exact absurd rfl (hfree _ ((h.rebound _ _).mp hold)).1
          · exact congrArg some (congrArg Prod.snd heq).symm
      · rw [AList.lookup_insert_ne hgroup]
        exact (or_iff_left fun heq => hgroup (congrArg Prod.fst heq)).symm
    · intro id
      rw [mem_cons, h.claimed]
      constructor
      · rintro (rfl | ⟨group, hmem⟩)
        · exact ⟨candidate.group, mem_append_right _ (mem_singleton_self _)⟩
        · exact ⟨group, mem_append_left _ hmem⟩
      · rintro ⟨group, hmem⟩
        rcases mem_append.mp hmem with hold | hnew
        · exact .inr ⟨group, hold⟩
        · exact .inl (congrArg Prod.snd (mem_singleton.mp hnew))
  · rw [Claims.claim, if_neg (mt (h.free_iff candidate).mp hfree), accept, if_neg hfree]
    exact h

omit [Weight W] [DecidableLT W] [DecidableLE W] in
theorem claims_greedy (candidates : List (Candidate W)) :
    (candidates.foldl Claims.claim ⟨[], ∅⟩).Records (greedy (candidates.map Candidate.pair)) := by
  induction candidates using reverseRecOn with
  | nil =>
    constructor
    · intro group id
      rw [foldl_nil, AList.lookup_empty]
      simp [greedy]
    · intro id
      simp [greedy]
  | append_singleton candidates last ih =>
    rw [foldl_append, map_append, Support.GreedyMatching.greedy_append]
    exact ih.claim last

end Claims

theorem freshCandidate_injective : Function.Injective freshCandidate := by
  intro m n h
  have hchars := congrArg String.toList h
  rw [freshCandidate, freshCandidate, String.toList_append, String.toList_append] at hchars
  have htail := append_cancel_left hchars
  have hnumb : (toString m).toList ++ [] = (toString n).toList ++ [] := by rw [htail]
  exact (Support.Json.number_append_inj (by simp [Support.Json.Stops])
    (by simp [Support.Json.Stops]) hnumb).1

theorem freshId_of_unused {usedIds : List String} {tries ordinal i : Nat} (hi : i < tries)
    (hunus : freshCandidate (ordinal + i) ∉ usedIds) :
    ∃ found, freshId usedIds tries ordinal = some (freshCandidate found, found + 1) ∧
      freshCandidate found ∉ usedIds := by
  induction tries generalizing ordinal i with
  | zero => omega
  | succ tries ih =>
    rw [freshId]
    split_ifs with hused
    · cases i with
      | zero => exact absurd hused hunus
      | succ i =>
        have hsum : ordinal + (i + 1) = ordinal + 1 + i := by omega
        rw [hsum] at hunus
        exact ih (by omega) hunus
    · exact ⟨ordinal, rfl, hused⟩

theorem freshId_found (usedIds : List String) (ordinal : Nat) :
    ∃ found, freshId usedIds (usedIds.length + 1) ordinal =
      some (freshCandidate found, found + 1) ∧ freshCandidate found ∉ usedIds := by
  have hinj : Function.Injective fun i => freshCandidate (ordinal + i) := by
    intro i j h
    have hsum := freshCandidate_injective h
    omega
  obtain ⟨i, hi, hunus⟩ := Support.FreshNames.exists_unused hinj usedIds
  exact freshId_of_unused (by omega) hunus

/-- Every group that has an id has it alone: an old one that it may have, or a fresh one. -/
structure Minting.Ok (previousIds : List String) (allowed : Nat → String → Prop)
    (minting : Minting) : Prop where
  used : previousIds ⊆ minting.usedIds
  values : ∀ group id, minting.rebound.lookup group = some id → id ∈ minting.usedIds ∧
    (id ∈ previousIds ∧ allowed group id ∨ id ∉ previousIds ∧ ∃ n, id = freshCandidate n)
  apart : ∀ group other id, minting.rebound.lookup group = some id →
    minting.rebound.lookup other = some id → group = other

section Minting

variable {previousIds : List String} {allowed : Nat → String → Prop} {minting : Minting}

theorem Minting.Ok.mint (h : minting.Ok previousIds allowed) (group : Nat) :
    ∃ minted, minting.mint group = some minted ∧ minted.Ok previousIds allowed ∧
      group ∈ minted.rebound ∧
      ∀ other id, minting.rebound.lookup other = some id → minted.rebound.lookup other = some id := by
  unfold Minting.mint
  split_ifs with hmem
  · exact ⟨minting, rfl, h, hmem, fun _ _ hlook => hlook⟩
  · obtain ⟨found, hfound, hunus⟩ := freshId_found minting.usedIds minting.freshOrdinal
    rw [hfound]
    refine ⟨_, rfl, ⟨?_, ?_, ?_⟩, ?_, ?_⟩
    · exact fun id hid => mem_cons_of_mem _ (h.used hid)
    · intro other id hlook
      rcases KeyTable.of_lookup_insert hlook with ⟨-, rfl⟩ | hold
      · exact ⟨mem_cons_self, .inr ⟨fun hid => hunus (h.used hid), found, rfl⟩⟩
      · exact ⟨mem_cons_of_mem _ (h.values other id hold).1, (h.values other id hold).2⟩
    · intro first second id hfirst hsecond
      rcases KeyTable.of_lookup_insert hfirst with ⟨rfl, hid⟩ | hold
      · rcases KeyTable.of_lookup_insert hsecond with ⟨rfl, -⟩ | hold'
        · rfl
        · exact absurd (hid ▸ (h.values _ _ hold').1) hunus
      · rcases KeyTable.of_lookup_insert hsecond with ⟨rfl, hid⟩ | hold'
        · exact absurd (hid ▸ (h.values _ _ hold).1) hunus
        · exact h.apart _ _ id hold hold'
    · exact KeyTable.mem_iff.mpr ⟨_, AList.lookup_insert _⟩
    · exact fun other id hlook => KeyTable.lookup_insert_of_notMem hmem hlook

theorem Minting.Ok.mintAll (groups : List Nat) (h : minting.Ok previousIds allowed) :
    ∃ minted, groups.foldlM Minting.mint minting = some minted ∧
      minted.Ok previousIds allowed ∧ (∀ group ∈ groups, group ∈ minted.rebound) ∧
      ∀ other id, minting.rebound.lookup other = some id →
        minted.rebound.lookup other = some id := by
  induction groups generalizing minting with
  | nil =>
    exact ⟨minting, rfl, h, fun _ hmem => absurd hmem not_mem_nil, fun _ _ hid => hid⟩
  | cons group rest ih =>
    obtain ⟨first, hfirst, hok, hgroup, hkept⟩ := h.mint group
    obtain ⟨minted, hrest, hmint, hall, hkept'⟩ := ih hok
    refine ⟨minted, ?_, hmint, ?_, fun other id hid => hkept' other id (hkept other id hid)⟩
    · rw [foldlM_cons, hfirst]
      exact hrest
    · intro other hmem
      rcases mem_cons.mp hmem with rfl | hmem
      · obtain ⟨id, hid⟩ := KeyTable.mem_iff.mp hgroup
        exact KeyTable.mem_iff.mpr ⟨id, hkept' _ id hid⟩
      · exact hall other hmem

end Minting

/-! ## The assignment -/

section Assignment

variable {previousIds : List String} {newMembership : List Nat} {graph : ProjectedGraph W}

theorem mapM_lookup {rebound : KeyTable Nat String} {groups : List Nat}
    (h : ∀ group ∈ groups, group ∈ rebound) : (groups.mapM rebound.lookup) =
      some (groups.map fun group => (rebound.lookup group).getD "") := by
  induction groups with
  | nil => rfl
  | cons group rest ih =>
    obtain ⟨id, hid⟩ := KeyTable.mem_iff.mp (h group mem_cons_self)
    rw [mapM_cons, ih fun other hmem => h other (mem_cons_of_mem _ hmem), hid]
    simp [hid]

omit [DecidableLE W] in
theorem assignReboundIds_eq (newMembership : List Nat)
    (hold : ∀ key ∈ overlaps, key.2 ∈ previousIds) : ∃ idOf : Nat → String,
      assignReboundIds previousIds newMembership overlaps = some (newMembership.map idOf) ∧
      (∀ group ∈ newMembership, ∀ other ∈ newMembership, idOf group = idOf other → group = other) ∧
      ∀ group ∈ newMembership,
        (group, idOf group) ∈ greedy ((candidatesOf overlaps).map Candidate.pair) ∨
        idOf group ∉ previousIds ∧ (∃ n, idOf group = freshCandidate n) ∧
          ∀ id, (group, id) ∉ greedy ((candidatesOf overlaps).map Candidate.pair) := by
  have hclaim := claims_greedy (candidatesOf overlaps)
  have hmatch := Support.GreedyMatching.greedy_matching
    ((candidatesOf overlaps).map Candidate.pair)
  have hprev : ∀ pair ∈ greedy ((candidatesOf overlaps).map Candidate.pair),
      pair.2 ∈ previousIds := by
    intro pair hpair
    obtain ⟨candidate, hcand, rfl⟩ :=
      mem_map.mp (Support.GreedyMatching.greedy_subset _ hpair)
    exact hold (candidate.group, candidate.oldId)
      (KeyTable.mem_iff.mpr ⟨_, mem_candidatesOf.mp hcand⟩)
  have hstart : Minting.Ok previousIds
      (fun group id => (group, id) ∈ greedy ((candidatesOf overlaps).map Candidate.pair))
      ⟨previousIds, 0, ((candidatesOf overlaps).foldl Claims.claim ⟨[], ∅⟩).rebound⟩ := by
    constructor
    · exact fun id hid => hid
    · intro group id hid
      have hpair := (hclaim.rebound group id).mp hid
      exact ⟨hprev _ hpair, .inl ⟨hprev _ hpair, hpair⟩⟩
    · intro group other id hgroup hother
      have hsame := hmatch.eq_of_shared ((hclaim.rebound group id).mp hgroup)
        ((hclaim.rebound other id).mp hother) (.inr rfl)
      exact congrArg Prod.fst hsame
  obtain ⟨minting, hminti, hok, hall, hkept⟩ :=
    hstart.mintAll (newMembership.dedup.insertionSort (· ≤ ·))
  have hmem : ∀ group ∈ newMembership, group ∈ minting.rebound := by
    intro group hgroup
    apply hall
    rw [mem_insertionSort, mem_dedup]
    exact hgroup
  have hlook : ∀ group ∈ newMembership,
      minting.rebound.lookup group = some ((minting.rebound.lookup group).getD "") := by
    intro group hgroup
    obtain ⟨id, hid⟩ := KeyTable.mem_iff.mp (hmem group hgroup)
    rw [hid, Option.getD_some]
  refine ⟨fun group => (minting.rebound.lookup group).getD "", ?_, ?_, ?_⟩
  · rw [assignReboundIds, hminti]
    exact mapM_lookup hmem
  · intro group hgroup other hother heq
    exact hok.apart group other _ (hlook group hgroup) ((hlook other hother).trans
      (congrArg some heq.symm))
  · intro group hgroup
    rcases (hok.values group _ (hlook group hgroup)).2 with hmatc | ⟨hunus, hfresh⟩
    · exact .inl hmatc.2
    · refine .inr ⟨hunus, hfresh, ?_⟩
      intro id hpair
      have hid := hkept group id ((hclaim.rebound group id).mpr hpair)
      rw [hid] at hunus
      exact hunus (hprev _ hpair)

/-- Every group has one id, no two groups share one, and each id is an old one that the history
of some member supports or a fresh one that was not in use. -/
theorem rebind_is_matching (hbounded : Bounded graph)
    (hnew : previousIds.length = newMembership.length)
    (hgraph : previousIds.length = graph.nodeIds.length) : ∃ idOf : Nat → String,
      rebindDurableIdsWeighted previousIds newMembership graph = some (newMembership.map idOf) ∧
      (∀ group ∈ newMembership, ∀ other ∈ newMembership, idOf group = idOf other → group = other) ∧
      ∀ group ∈ newMembership,
        idOf group ∈ previousIds ∧ Supports previousIds newMembership graph group (idOf group) ∨
        idOf group ∉ previousIds ∧ ∃ n, idOf group = freshCandidate n := by
  have hsup : ∀ key ∈ overlapsOf previousIds newMembership graph,
      Supports previousIds newMembership graph key.1 key.2 :=
    fun key hkey => supports_of_mem_overlapsOf hbounded hgraph hnew hkey
  have hold : ∀ key ∈ overlapsOf previousIds newMembership graph, key.2 ∈ previousIds :=
    fun key hkey => (hsup key hkey).mem_previous
  obtain ⟨idOf, hass, hapart, hval⟩ :=
    assignReboundIds_eq newMembership hold
  refine ⟨idOf, ?_, hapart, ?_⟩
  · rw [rebindDurableIdsWeighted, if_pos ⟨hnew, hgraph⟩, hass]
  · intro group hgroup
    rcases hval group hgroup with hpair | ⟨hunus, hfresh, -⟩
    · left
      obtain ⟨candidate, hcand, heq⟩ :=
        List.mem_map.mp (Support.GreedyMatching.greedy_subset _ hpair)
      have hkey : (group, idOf group) ∈ overlapsOf previousIds newMembership graph := by
        rw [← heq]
        exact KeyTable.mem_iff.mpr ⟨_, mem_candidatesOf.mp hcand⟩
      exact ⟨hold _ hkey, hsup _ hkey⟩
    · exact .inr ⟨hunus, hfresh⟩

end Assignment

def pairInput : List ProjectionInputEdge := [⟨"e1", "a", "b"⟩]

def pairGraph : ProjectedGraph ℚ := projectGroundedRelates pairInput .default

theorem rebind_is_matching_pair : ∃ idOf : Nat → String,
      rebindDurableIdsWeighted ["old", "__m4-new-node-b"] [5, 2] pairGraph =
        some ([5, 2].map idOf) ∧
      (∀ group ∈ [5, 2], ∀ other ∈ [5, 2], idOf group = idOf other → group = other) ∧
      ∀ group ∈ [5, 2], idOf group ∈ ["old", "__m4-new-node-b"] ∧
            Supports ["old", "__m4-new-node-b"] [5, 2] pairGraph group (idOf group) ∨
          idOf group ∉ ["old", "__m4-new-node-b"] ∧ ∃ n, idOf group = freshCandidate n :=
  rebind_is_matching (projectGroundedRelates_bounded pairInput .default) rfl (by decide +kernel)

end Wenlan.Community
