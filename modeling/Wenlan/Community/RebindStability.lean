import Wenlan.Community.Rebinding

/-!
# Rebinding an unchanged partition

The overlaps as sums over the members of a group, and when an unchanged partition keeps its ids:
each group must tie to its own id, and where it ties to the id of another group, one of the two
groups must come first in the order of the candidates.
-/

namespace Wenlan.Community

open Candidate List

open Support (KeyTable)
open Support.GreedyMatching (Blocked greedy)

def EntryFor (value : ℚ) (entry : Option ℚ) : Prop :=
  0 ≤ value ∧ entry = if 0 < value then some value else none

/-- The table holds the values of the function that are positive, and no others. -/
def Sums {κ : Type} [DecidableEq κ] (table : KeyTable κ ℚ) (f : κ → ℚ) : Prop :=
  ∀ key, EntryFor (f key) (table.lookup key)

section Sums

variable {κ : Type} [DecidableEq κ] {table : KeyTable κ ℚ} {f : κ → ℚ}

theorem sums_empty : Sums (∅ : KeyTable κ ℚ) fun _ => 0 := by
  intro key
  exact ⟨le_refl 0, (if_neg (lt_irrefl 0)).symm⟩

theorem Sums.congr {g : κ → ℚ} (h : Sums table f) (hfg : ∀ key, f key = g key) : Sums table g := by
  rw [← (funext hfg : f = g)]
  exact h

theorem Sums.getD (h : Sums table f) (key : κ) : (table.lookup key).getD 0 = f key := by
  obtain ⟨hnon, hlook⟩ := h key
  rw [hlook]
  split_ifs with hpos
  · rfl
  · exact (le_antisymm (not_lt.mp hpos) hnon).symm

theorem Sums.addTo {weight : ℚ} (h : Sums table f) (key : κ) (hweigh : 0 < weight) :
    Sums (addTo table key weight) fun other => f other + if other = key then weight else 0 := by
  intro other
  dsimp only
  by_cases hkey : other = key
  · subst hkey
    have hpos : 0 < f other + weight := add_pos_of_nonneg_of_pos (h other).1 hweigh
    rw [Community.addTo, AList.lookup_insert, h.getD, if_pos rfl]
    exact ⟨hpos.le, (if_pos hpos).symm⟩
  · rw [Community.addTo, AList.lookup_insert_ne hkey, if_neg hkey, add_zero]
    exact h other

end Sums

/-! ## Shares -/

def idWeight (previousIds : List String) (neighbors : List (Nat × ℚ)) (id : String) : ℚ :=
  (neighbors.map fun entry =>
    if 0 < entry.2 ∧ previousIds.getD entry.1 "" = id then entry.2 else 0).sum

def neighborWeight (neighbors : List (Nat × ℚ)) : ℚ :=
  (neighbors.map fun entry => if 0 < entry.2 then entry.2 else 0).sum

/-- The part of a node's unit that goes to an old id: its neighbours' share, or all of it to the
node's own id where no neighbour has weight. -/
def nodeShare (previousIds : List String) (graph : ProjectedGraph ℚ) (node : Nat) (id : String) :
    ℚ :=
  let neighbors := graph.adjacency.getD node []
  if 0 < neighborWeight neighbors then
    idWeight previousIds neighbors id / neighborWeight neighbors
  else if previousIds.getD node "" = id then 1 else 0

def groupShare (previousIds : List String) (membership : List Nat) (graph : ProjectedGraph ℚ)
    (group : Nat) (id : String) : ℚ :=
  (membership.zipIdx.map fun entry =>
    if entry.1 = group then nodeShare previousIds graph entry.2 id else 0).sum

variable {group node : Nat}

section Shares

variable {previousIds : List String} {graph : ProjectedGraph ℚ}

theorem incidentByOld_sums {neighbors : List (Nat × ℚ)} (hdurable : ∀ entry ∈ neighbors,
      isNewCommunityMarker (previousIds.getD entry.1 "") = false) :
    (incidentByOld previousIds neighbors).2 = neighborWeight neighbors ∧
      Sums (incidentByOld previousIds neighbors).1 (idWeight previousIds neighbors) := by
  induction neighbors using reverseRecOn with
  | nil => exact ⟨rfl, sums_empty⟩
  | append_singleton neighbors last ih =>
    obtain ⟨htotal, hsums⟩ := ih fun entry hentry => hdurable entry (mem_append_left _ hentry)
    have hlast := hdurable last (mem_append_right _ (mem_singleton_self _))
    have hweigh : neighborWeight (neighbors ++ [last]) =
        neighborWeight neighbors + if 0 < last.2 then last.2 else 0 := by
      simp [neighborWeight]
    have hids : ∀ id, idWeight previousIds (neighbors ++ [last]) id =
        idWeight previousIds neighbors id +
          if 0 < last.2 ∧ previousIds.getD last.1 "" = id then last.2 else 0 := by
      intro id
      simp [idWeight]
    rw [incidentByOld, foldl_append, ← incidentByOld]
    simp only [foldl_cons, foldl_nil, hlast, Bool.false_eq_true, or_false]
    by_cases hpos : 0 < last.2
    · rw [if_neg (not_le.mpr hpos)]
      refine ⟨by rw [hweigh, if_pos hpos, htotal], ?_⟩
      refine (hsums.addTo _ hpos).congr fun id => ?_
      rw [hids]
      congr 1
      exact if_congr (by rw [and_iff_right hpos, eq_comm]) rfl rfl
    · rw [if_pos (not_lt.mp hpos)]
      refine ⟨by rw [hweigh, if_neg hpos, add_zero, htotal], ?_⟩
      refine hsums.congr fun id => ?_
      rw [hids, if_neg fun h => hpos h.1, add_zero]

variable {overlaps : KeyTable (Nat × String) ℚ}

theorem addAll_sums {total : ℚ} (htotal : 0 < total)
    {entries : List (Σ _ : String, ℚ)} (hents : ∀ entry ∈ entries, 0 < entry.2)
    {f : Nat × String → ℚ} (h : Sums overlaps f) :
    Sums (entries.foldl (fun overlaps entry =>
        addTo overlaps (group, entry.1) (entry.2 / total)) overlaps)
      fun key => f key + if key.1 = group then
        (entries.map fun entry => if entry.1 = key.2 then entry.2 else 0).sum / total else 0 := by
  induction entries generalizing overlaps f with
  | nil => exact h.congr fun key => by simp
  | cons entry rest ih =>
    have hpos : 0 < entry.2 / total := div_pos (hents entry mem_cons_self) htotal
    refine (ih (fun other hother => hents other (mem_cons_of_mem _ hother))
      (h.addTo (group, entry.1) hpos)).congr fun key => ?_
    rw [map_cons, sum_cons, add_assoc]
    congr 1
    by_cases hgroup : key.1 = group
    · by_cases hid : entry.1 = key.2
      · have hkey : key = (group, entry.1) := Prod.ext hgroup hid.symm
        rw [if_pos hkey, if_pos hgroup, if_pos hgroup, if_pos hid, add_div]
      · have hkey : key ≠ (group, entry.1) := fun heq => hid (congrArg Prod.snd heq).symm
        rw [if_neg hkey, if_pos hgroup, if_pos hgroup, if_neg hid, zero_add, zero_add]
    · have hkey : key ≠ (group, entry.1) := fun heq => hgroup (congrArg Prod.fst heq)
      rw [if_neg hkey, if_neg hgroup, if_neg hgroup, add_zero]

theorem entries_sum (table : KeyTable String ℚ) (id : String) :
    (table.entries.map fun entry => if entry.1 = id then entry.2 else 0).sum =
      (table.lookup id).getD 0 := by
  have hlist : ∀ entries : List (Σ _ : String, ℚ), entries.NodupKeys →
      (entries.map fun entry => if entry.1 = id then entry.2 else 0).sum =
        (entries.dlookup id).getD 0 := by
    intro entries
    induction entries with
    | nil => exact fun _ => rfl
    | cons entry rest ih =>
      obtain ⟨key, value⟩ := entry
      intro hnodup
      obtain ⟨hnew, hrest⟩ := nodupKeys_cons.mp hnodup
      rw [map_cons, sum_cons, ih hrest]
      by_cases hid : key = id
      · subst hid
        have hnone : rest.dlookup key = none := dlookup_eq_none.mpr hnew
        rw [if_pos rfl, hnone, Option.getD_none, add_zero, dlookup_cons_eq, Option.getD_some]
      · rw [if_neg hid, zero_add, dlookup_cons_ne _ _ (Ne.symm hid)]
  exact hlist table.entries table.nodupKeys

theorem nodeOverlap_sums
    {f : Nat × String → ℚ} (hown : isNewCommunityMarker (previousIds.getD node "") = false)
    (hdurable : ∀ entry ∈ graph.adjacency.getD node [],
      isNewCommunityMarker (previousIds.getD entry.1 "") = false) (h : Sums overlaps f) :
    Sums (nodeOverlap previousIds graph overlaps group node) fun key =>
      f key + if group = key.1 then nodeShare previousIds graph node key.2 else 0 := by
  obtain ⟨htotal, hsums⟩ := incidentByOld_sums hdurable
  unfold nodeOverlap
  dsimp only
  rw [hown, if_neg Bool.false_ne_true, htotal]
  by_cases hpos : 0 < neighborWeight (graph.adjacency.getD node [])
  · rw [if_pos hpos]
    have hents : ∀ entry ∈
        (incidentByOld previousIds (graph.adjacency.getD node [])).1.entries, 0 < entry.2 := by
      rintro ⟨id, weight⟩ hentry
      have hlook := KeyTable.mem_entries_iff.mp hentry
      rw [(hsums id).2] at hlook
      split_ifs at hlook with hweigh
      cases hlook
      exact hweigh
    refine (addAll_sums hpos hents h).congr fun key => ?_
    rw [entries_sum, hsums.getD, nodeShare]
    rw [if_pos hpos]
    congr 1
    exact if_congr eq_comm rfl rfl
  · have hone : (1.0 : ℚ) = 1 := by norm_num
    rw [if_neg hpos]
    refine (h.addTo (group, previousIds.getD node "") (by norm_num)).congr fun key => ?_
    rw [nodeShare]
    rw [if_neg hpos, hone]
    congr 1
    by_cases hgroup : group = key.1
    · rw [if_pos hgroup]
      refine if_congr ?_ rfl rfl
      constructor
      · exact fun heq => (congrArg Prod.snd heq).symm
      · exact fun heq => Prod.ext hgroup.symm heq.symm
    · rw [if_neg hgroup, if_neg]
      exact fun heq => hgroup (congrArg Prod.fst heq).symm

theorem overlapsOf_sums {membership : List Nat} (hdurable : ∀ node < membership.length,
      isNewCommunityMarker (previousIds.getD node "") = false)
    (hneigh : ∀ node, ∀ entry ∈ graph.adjacency.getD node [],
      entry.1 < membership.length) : Sums (overlapsOf previousIds membership graph) fun key =>
      groupShare previousIds membership graph key.1 key.2 := by
  have hfold : ∀ entries : List (Nat × Nat), (∀ entry ∈ entries, entry.2 < membership.length) →
      Sums (entries.foldl (fun overlaps entry =>
          nodeOverlap previousIds graph overlaps entry.1 entry.2) ∅)
        fun key => (entries.map fun entry =>
          if entry.1 = key.1 then nodeShare previousIds graph entry.2 key.2 else 0).sum := by
    intro entries
    induction entries using reverseRecOn with
    | nil => exact fun _ => sums_empty
    | append_singleton entries last ih =>
      intro hents
      have hbef := ih fun entry hentry => hents entry (mem_append_left _ hentry)
      have hlast := hents last (mem_append_right _ (mem_singleton_self _))
      rw [foldl_append]
      refine (nodeOverlap_sums (hdurable _ hlast)
        (fun entry hentry => hdurable _ (hneigh _ entry hentry)) hbef).congr
          fun key => ?_
      simp
  refine hfold membership.zipIdx ?_
  rintro ⟨group, node⟩ hentry
  obtain ⟨hlt, -⟩ := List.getElem?_eq_some_iff.mp (List.mem_zipIdx_iff_getElem?.mp hentry)
  exact hlt

end Shares

def Candidate.key (candidate : Candidate ℚ) : Lex (ℚᵒᵈ × Lex (String × Nat)) :=
  toLex (OrderDual.toDual candidate.overlap, toLex (candidate.oldId, candidate.group))

theorem precedes_iff (left right : Candidate ℚ) : left.precedes right ↔ left.key ≤ right.key := by
  rw [key, key, Prod.Lex.toLex_le_toLex, Prod.Lex.toLex_le_toLex,
    precedes, OrderDual.toDual_lt_toDual, OrderDual.toDual_inj]
  constructor
  · rintro (hlt | ⟨hnot, hrest⟩)
    · exact .inl hlt
    · rcases lt_or_eq_of_le (not_lt.mp hnot) with hlt | heq
      · exact .inl hlt
      · exact .inr ⟨heq.symm, hrest⟩
  · rintro (hlt | ⟨heq, hrest⟩)
    · exact .inl hlt
    · exact .inr ⟨heq ▸ lt_irrefl _, hrest⟩

theorem key_lt_iff (left right : Candidate ℚ) :
    left.key < right.key ↔ right.overlap < left.overlap ∨ left.overlap = right.overlap ∧
      (left.oldId < right.oldId ∨ left.oldId = right.oldId ∧ left.group < right.group) := by
  rw [key, key, Prod.Lex.toLex_lt_toLex, Prod.Lex.toLex_lt_toLex,
    OrderDual.toDual_lt_toDual, OrderDual.toDual_inj]

theorem candidatesOf_sorted (overlaps : KeyTable (Nat × String) ℚ) :
    (candidatesOf overlaps).Pairwise fun left right => left.key ≤ right.key := by
  have hrel : (precedes : Candidate ℚ → Candidate ℚ → Prop) =
      fun left right => left.key ≤ right.key := by
    ext left right
    exact precedes_iff left right
  have : Std.Total (precedes : Candidate ℚ → Candidate ℚ → Prop) :=
    ⟨fun left right => by simpa only [hrel] using le_total left.key right.key⟩
  have : IsTrans (Candidate ℚ) precedes :=
    ⟨fun first second third => by simpa only [hrel] using le_trans⟩
  exact (pairwise_insertionSort precedes _).imp fun h => (precedes_iff _ _).mp h

theorem pairs_nodup (overlaps : KeyTable (Nat × String) ℚ) :
    ((candidatesOf overlaps).map pair).Nodup := by
  have hperm : ((candidatesOf overlaps).map pair).Perm overlaps.keys := by
    refine ((perm_insertionSort _ _).map _).trans (List.Perm.of_eq ?_)
    rw [map_map]
    rfl
  exact hperm.nodup_iff.mpr overlaps.keys_nodup

section

variable {candidates front rest : List (Candidate ℚ)} {candidate other : Candidate ℚ}
  (hsort : candidates.Pairwise fun left right => left.key ≤ right.key)
  (hsplit : candidates = front ++ candidate :: rest)
include hsort hsplit

theorem mem_front_of_lt (hmem : other ∈ candidates)
    (hlt : other.key < candidate.key) : other ∈ front := by
  rw [hsplit] at hmem hsort
  rcases mem_append.mp hmem with hfront | hback
  · exact hfront
  · rcases mem_cons.mp hback with rfl | hrest
    · exact absurd hlt (lt_irrefl _)
    · have hle := (pairwise_cons.mp (pairwise_append.mp hsort).2.1).1 other hrest
      exact absurd hlt (not_lt.mpr hle)

theorem key_le_of_mem_front (hfront : other ∈ front) : other.key ≤ candidate.key := by
  rw [hsplit] at hsort
  exact (pairwise_append.mp hsort).2.2 other hfront candidate mem_cons_self

end

/-! ## An unchanged partition -/

/-- What the groups of a partition give to each other's ids. -/
def shareOf (name : Nat → String) (membership : List Nat) (graph : ProjectedGraph ℚ)
    (group other : Nat) : ℚ :=
  groupShare (membership.map name) membership graph group (name other)

/-- Every group gives to its own id.  Where it gives to the id of another group, it gives more to
its own or the other group does to its own; equal shares go by id and then by group. -/
structure SelfTied (name : Nat → String) (groups : List Nat) (share : Nat → Nat → ℚ) : Prop where
  own : ∀ group ∈ groups, 0 < share group group
  cross : ∀ group ∈ groups, ∀ other ∈ groups, group ≠ other → 0 < share group other →
    (share group other < share group group ∨
      share group group = share group other ∧ name group < name other) ∨
    share group other < share other other ∨ share other other = share group other ∧ other < group

section Taken

variable {name : Nat → String} {groups : List Nat} {share : Nat → Nat → ℚ}
  {candidates front rest : List (Candidate ℚ)}

theorem own_pair (hmem : ∀ candidate, candidate ∈ candidates ↔
      ∃ group ∈ groups, ∃ other ∈ groups, 0 < share group other ∧
        candidate = ⟨share group other, name other, group⟩)
    (hdistinct : ∀ group ∈ groups, ∀ other ∈ groups, name group = name other → group = other)
    (hfront : front ⊆ candidates)
    (hpair : (group, name group) ∈ front.map pair) :
    group ∈ groups ∧ 0 < share group group ∧
      (⟨share group group, name group, group⟩ : Candidate ℚ) ∈ front := by
  obtain ⟨candidate, hin, heq⟩ := mem_map.mp hpair
  obtain ⟨first, hfirst, other, hother, hpos, rfl⟩ := (hmem candidate).mp (hfront hin)
  have hgroup : first = group := congrArg Prod.fst heq
  have hname : name other = name group := congrArg Prod.snd heq
  subst hgroup
  have hsame := hdistinct other hother first hfirst hname
  subst hsame
  exact ⟨hfirst, hpos, hin⟩

theorem selfTied_of_taken (hsort : candidates.Pairwise fun left right => left.key ≤ right.key)
    (hmem : ∀ candidate, candidate ∈ candidates ↔
      ∃ group ∈ groups, ∃ other ∈ groups, 0 < share group other ∧
        candidate = ⟨share group other, name other, group⟩)
    (hdistinct : ∀ group ∈ groups, ∀ other ∈ groups, name group = name other → group = other)
    (hown : ∀ group ∈ groups, (group, name group) ∈ greedy (candidates.map pair)) :
    SelfTied name groups share := by
  constructor
  · intro group hgroup
    exact (own_pair hmem hdistinct (List.Subset.refl _)
      (Support.GreedyMatching.greedy_subset _ (hown group hgroup))).2.1
  · intro group hgroup other hother hne hpos
    have hname : name other ≠ name group :=
      fun heq => hne (hdistinct other hother group hgroup heq).symm
    obtain ⟨front, rest, hsplit⟩ := append_of_mem
      ((hmem ⟨share group other, name other, group⟩).mpr
        ⟨group, hgroup, other, hother, hpos, rfl⟩)
    have hfront : front ⊆ candidates := by
      rw [hsplit]
      exact subset_append_left _ _
    have hsplit' : candidates.map pair =
        front.map pair ++ (group, name other) :: rest.map pair := by
      rw [hsplit, map_append]
      rfl
    have howns : ∀ pair ∈ candidates.map Candidate.pair,
        (pair.1, name pair.1) ∈ greedy (candidates.map Candidate.pair) ∧
          ∃ h, name h = pair.2 ∧ (h, name h) ∈ greedy (candidates.map Candidate.pair) := by
      intro pair hpair
      obtain ⟨candidate, hin, rfl⟩ := mem_map.mp hpair
      obtain ⟨first, hfirst, second, hsec, -, rfl⟩ := (hmem candidate).mp hin
      exact ⟨hown first hfirst, second, rfl, hown second hsec⟩
    -- An own candidate in front of the crossing one has the smaller key.
    rcases Support.GreedyMatching.blocked_of_greedy howns hsplit' hname with hleft | hright
    · left
      obtain ⟨-, -, hin⟩ := own_pair hmem hdistinct hfront hleft
      have hlt := lt_of_le_of_ne (key_le_of_mem_front hsort hsplit hin)
        fun heq => hname (congrArg (fun key => (ofLex (ofLex key).2).1) heq).symm
      rcases (key_lt_iff _ _).mp hlt with hlarg | ⟨hequal, hid | ⟨-, hgrou⟩⟩
      · exact .inl hlarg
      · exact .inr ⟨hequal, hid⟩
      · exact absurd hgrou (lt_irrefl _)
    · right
      obtain ⟨h, hh, hpair⟩ := hright
      obtain ⟨hhmem, -, hin⟩ := own_pair hmem hdistinct hfront hpair
      have hsame := hdistinct h hhmem other hother hh
      subst hsame
      have hlt := lt_of_le_of_ne (key_le_of_mem_front hsort hsplit hin)
        fun heq => hne (congrArg (fun key => (ofLex (ofLex key).2).2) heq).symm
      rcases (key_lt_iff _ _).mp hlt with hlarg | ⟨hequal, hid | ⟨-, hgrou⟩⟩
      · exact .inl hlarg
      · exact absurd hid (lt_irrefl _)
      · exact .inr ⟨hequal, hgrou⟩

theorem taken_of_selfTied (hsort : candidates.Pairwise fun left right => left.key ≤ right.key)
    (hnodup : (candidates.map pair).Nodup) (hmem : ∀ candidate, candidate ∈ candidates ↔
      ∃ group ∈ groups, ∃ other ∈ groups, 0 < share group other ∧
        candidate = ⟨share group other, name other, group⟩)
    (hdistinct : ∀ group ∈ groups, ∀ other ∈ groups, name group = name other → group = other)
    (htied : SelfTied name groups share) :
    ∀ group ∈ groups, (group, name group) ∈ greedy (candidates.map Candidate.pair) := by
  have hcand : ∀ group ∈ groups,
      (⟨share group group, name group, group⟩ : Candidate ℚ) ∈ candidates :=
    fun group hgroup => (hmem _).mpr ⟨group, hgroup, group, hgroup, htied.own group hgroup, rfl⟩
  have hinj : ∀ first second, (first, name first) ∈ candidates.map pair →
      (second, name second) ∈ candidates.map pair → name first = name second →
      first = second := by
    intro first second hfirst hsec
    exact hdistinct first (own_pair hmem hdistinct (List.Subset.refl _) hfirst).1
      second (own_pair hmem hdistinct (List.Subset.refl _) hsec).1
  have hblock : ∀ front pair rest, candidates.map Candidate.pair = front ++ pair :: rest →
      pair.2 ≠ name pair.1 → Blocked name front pair := by
    intro front pair rest hsplit hcross
    obtain ⟨before, after, hcands, rfl, hafter⟩ := map_eq_append_iff.mp hsplit
    obtain ⟨candidate, behind, rfl, rfl, rfl⟩ := map_eq_cons_iff.mp hafter
    have hin : candidate ∈ candidates := by
      rw [hcands]
      exact mem_append_right _ mem_cons_self
    obtain ⟨group, hgroup, other, hother, hpos, rfl⟩ := (hmem candidate).mp hin
    have hne : group ≠ other := by
      rintro rfl
      exact hcross rfl
    rcases htied.cross group hgroup other hother hne hpos with hleft | hright
    · have hlt := (key_lt_iff ⟨share group group, name group, group⟩
        ⟨share group other, name other, group⟩).mpr
          (hleft.imp id fun h => ⟨h.1, .inl h.2⟩)
      exact .inl (mem_map_of_mem
        (mem_front_of_lt hsort hcands (hcand group hgroup) hlt))
    · have hlt := (key_lt_iff ⟨share other other, name other, other⟩
        ⟨share group other, name other, group⟩).mpr
          (hright.imp id fun h => ⟨h.1, .inr ⟨rfl, h.2⟩⟩)
      exact .inr ⟨other, rfl, mem_map_of_mem
        (mem_front_of_lt hsort hcands (hcand other hother) hlt)⟩
  intro group hgroup
  exact (Support.GreedyMatching.greedy_own hnodup hinj hblock (group, name group)).mpr
    ⟨mem_map_of_mem (hcand group hgroup), rfl⟩

end Taken

section Unchanged

variable {name : Nat → String} {membership : List Nat} {graph : ProjectedGraph ℚ}

theorem getD_map_name (hnode : node < membership.length) :
    (membership.map name).getD node "" = name (membership.getD node 0) := by
  rw [getD_eq_getElem?_getD, getD_eq_getElem?_getD, getElem?_map,
    getElem?_eq_getElem hnode]
  rfl

theorem getD_mem (hnode : node < membership.length) :
    membership.getD node 0 ∈ membership := by
  rw [getD_eq_getElem?_getD, getElem?_eq_getElem hnode]
  exact getElem_mem hnode

theorem mem_candidates_unchanged (hbounded : Bounded graph)
    (hcovers : membership.length = graph.nodeIds.length)
    (hdurable : ∀ group ∈ membership, isNewCommunityMarker (name group) = false)
    {candidate : Candidate ℚ} :
    candidate ∈ candidatesOf (overlapsOf (membership.map name) membership graph) ↔
      ∃ group ∈ membership, ∃ other ∈ membership, 0 < shareOf name membership graph group other ∧
          candidate = ⟨shareOf name membership graph group other, name other, group⟩ := by
  have hsums : Sums (overlapsOf (membership.map name) membership graph) fun key =>
      groupShare (membership.map name) membership graph key.1 key.2 := by
    apply overlapsOf_sums
    · intro node hnode
      rw [getD_map_name hnode]
      exact hdurable _ (getD_mem hnode)
    · intro node entry hentry
      rw [hcovers]
      exact hbounded.neighbor_lt node entry.1 (mem_map_of_mem hentry)
  have hlook := (hsums (candidate.group, candidate.oldId)).2
  rw [mem_candidatesOf, hlook]
  constructor
  · intro hentry
    split_ifs at hentry with hpos
    have hmem : (candidate.group, candidate.oldId) ∈
        overlapsOf (membership.map name) membership graph := by
      rw [KeyTable.mem_iff, hlook, if_pos hpos]
      exact ⟨_, rfl⟩
    have hsup := supports_of_mem_overlapsOf hbounded
      (by rw [length_map, hcovers]) (length_map _) hmem
    obtain ⟨other, hother, hname⟩ := mem_map.mp hsup.mem_previous
    obtain ⟨-, node, ownId, hgroup, -⟩ := hsup
    obtain ⟨overlap, oldId, group⟩ := candidate
    subst hname
    exact ⟨group, mem_of_getElem? hgroup, other, hother, hpos,
      congrArg (mk · (name other) group) (Option.some.inj hentry).symm⟩
  · rintro ⟨group, -, other, -, hpos, rfl⟩
    exact if_pos hpos

end Unchanged

/-- The ids of two communities. -/
def pairName (group : Nat) : String := if group = 0 then "id-a" else "id-b"

end Wenlan.Community
