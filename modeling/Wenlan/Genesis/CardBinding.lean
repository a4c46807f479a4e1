import Wenlan.Genesis.Candidates

/-!
# Runs of the genesis substrate

A move is a transaction of one of the writers; one that fails is rolled back and is no step.  The
clock moves inside the transactions, and evidence comes and goes between them: a root that is
known keeps its group.
-/

namespace Wenlan.Genesis

open Support (KeyTable)

inductive Move where
  | evidence (roots : KeyTable String ProvenanceRoot) (edges : List EvidenceEdge)
  | reconcile (space : String) (coverageEpoch : Int)
  | defer (group : GroupKey) (delaySeconds : Int)
  | surface (space spaceId : String) (coverageEpoch : Int)
  | bind (space : String) (coverageEpoch : Int) (cardId : String) (groups : List Db.CardGroup)
  | expireCard (group : GroupKey)
  | dismiss (cardId reason : String)
  | suppress (group : GroupKey) (pageId reason : String)
  | lapse (space : String) (coverageEpoch : Int)
  | quarantine (group : GroupKey) (reason : String)
  | lift (group : GroupKey)
  | observe (candidate : Db.ObservedCandidate)
  | prepare (candidateId : String) (rootIds : List String)
  | inferencing (candidateId : String)
  | validating (candidateId : String)
  | retryWait (candidateId : String) (charge : RetryCharge)
  | stale (candidateId : String) (reason : StaleReason)
  | superseded (candidateId : String)
  | reviewRequired (candidateId cardId : String)
  | suppressCandidate (candidateId cardId reason : String)

namespace Db

/-- The database after a move.  What a refused prepare has written counts as written, since a
caller commits it. -/
def next (digest : Digest) (db : Db) : Move → Option Db
  | .evidence roots edges => some { db with roots := roots, edges := edges }
  | .reconcile space coverageEpoch =>
    (db.reconcileSpace space coverageEpoch).toOption.map (·.1)
  | .defer group delaySeconds => some (db.deferScan group delaySeconds)
  | .surface space spaceId coverageEpoch =>
    (db.surfaceBelowFloorGroups digest space spaceId coverageEpoch).toOption.map (·.1)
  | .bind space coverageEpoch cardId groups =>
    (db.bindFrontierGroupsToCard space coverageEpoch cardId groups).toOption
  | .expireCard group => (db.expireCardBindingToFrontier group).toOption.map (·.1)
  | .dismiss cardId reason => (db.dismissCardToSuppression cardId reason).toOption
  | .suppress group pageId reason => (db.suppressFrontierGroup group pageId reason).toOption
  | .lapse space coverageEpoch =>
    (db.reconcileExpiredSuppressions space coverageEpoch).toOption.map (·.1)
  | .quarantine group reason => (db.quarantineFrontierGroup group reason).toOption
  | .lift group => (db.liftQuarantineToFrontier group).toOption
  | .observe candidate => some (db.observeCandidate candidate).1
  | .prepare candidateId rootIds =>
    (db.prepareCandidate candidateId (db.fillGroups rootIds)).toOption.map (·.1)
  | .inferencing candidateId => (db.markInferencing candidateId).toOption
  | .validating candidateId => (db.markValidating candidateId).toOption
  | .retryWait candidateId charge => (db.markRetryWait candidateId charge).toOption
  | .stale candidateId reason => (db.markStale candidateId reason).toOption
  | .superseded candidateId => (db.markSuperseded candidateId).toOption
  | .reviewRequired candidateId cardId => (db.markReviewRequired candidateId cardId).toOption
  | .suppressCandidate candidateId cardId reason =>
    (db.markSuppressed candidateId cardId reason).toOption

def KeepsGroups (db : Db) (roots : KeyTable String ProvenanceRoot) : Prop :=
  ∀ rootId root, db.roots.lookup rootId = some root → ∃ root', roots.lookup rootId = some root' ∧
      root'.independenceGroupId = root.independenceGroupId

/-- New evidence is the only move that has something to respect. -/
def Allowed (db : Db) : Move → Prop
  | .evidence roots _ => db.KeepsGroups roots
  | _ => True

def Step (digest : Digest) (db : Db) (move : Move) (db' : Db) : Prop :=
  db.Allowed move ∧ db.next digest move = some db'

/-- Nothing was observed, claimed or seen yet. -/
structure Fresh (db : Db) : Prop where
  candidates : db.candidates = ∅
  claims : db.claims = ∅
  frontier : db.frontier = ∅
  cards : db.cards = ∅
  suppressions : db.suppressions = ∅
  quarantines : db.quarantines = ∅

end Db

end Wenlan.Genesis

/-!
## When a group can be bound to a card again

Bindings are kept for good under a key with the card in it, and the card of a space and epoch is
always the same one.
-/

namespace Wenlan.Genesis

open Support (KeyTable)
open Support.Fallible (bind_ok check check_eq_ok mapError_eq_ok)
open Support.Transition (Run Reaches)

theorem filled_append {text : String} (h : text.toList.head?.any (fun c => c != ' ' && c != '\x00'))
    (rest : String) : filled (text ++ rest) := by
  unfold filled
  rw [String.toList_append]
  cases hchars : text.toList with
  | nil =>
    rw [hchars] at h
    cases h
  | cons c chars =>
    rw [hchars, List.head?_cons, Option.any_some, Bool.and_eq_true, bne_iff_ne] at h
    rw [List.cons_append, List.dropWhile_cons_of_neg (by simpa using h.1), List.head?_cons,
      Option.any_some]
    exact h.2

theorem filled_cardIdOf (digest : Digest) (spaceId : String) (coverageEpoch : Int) :
    filled (cardIdOf digest spaceId coverageEpoch) := by
  unfold cardIdOf
  rw [String.append_assoc, String.append_assoc]
  exact filled_append (by decide) _

theorem filled_pageIdOf (digest : Digest) (slotId : String) :
    filled (pageIdOf digest slotId) :=
  filled_append (by decide) _

namespace Db

def Unbound (cardId : String) (home : GroupKey) (db : Db) : Prop :=
  (⟨home, cardId⟩ : CardKey) ∉ db.cards ∧
    ∀ key binding, db.cards.lookup key = some binding → key.home = home → binding.closedAt ≠ none

/-- The database after the groups have moved to the card: each keeps its first time. -/
structure BoundTo (space : String) (coverageEpoch : Int) (cardId : String)
    (groups : List CardGroup) (db db' : Db) : Prop where
  bound : ∀ group ∈ groups, ∃ row createdAt,
    db.frontier.lookup ⟨space, group.independenceGroupId, coverageEpoch⟩ = some row ∧
    db'.frontier.lookup ⟨space, group.independenceGroupId, coverageEpoch⟩ = none ∧
    db'.cards.lookup ⟨⟨space, group.independenceGroupId, coverageEpoch⟩, cardId⟩ =
      some ⟨group.pageId, row.firstSeenAt, createdAt, none⟩ ∧ db.now ≤ createdAt
  frontier : ∀ key, (∀ group ∈ groups, key ≠ ⟨space, group.independenceGroupId, coverageEpoch⟩) →
    db'.frontier.lookup key = db.frontier.lookup key
  cards : ∀ key : CardKey,
    (∀ group ∈ groups, key ≠ ⟨⟨space, group.independenceGroupId, coverageEpoch⟩, cardId⟩) →
    db'.cards.lookup key = db.cards.lookup key
  candidates : db'.candidates = db.candidates
  claims : db'.claims = db.claims
  coverage : db'.coverage = db.coverage
  suppressions : db'.suppressions = db.suppressions
  quarantines : db'.quarantines = db.quarantines

variable {db db' : Db} {space cardId : String} {coverageEpoch : Int} {home : GroupKey}
  {group : CardGroup} {groups : List CardGroup} {row : FrontierRow}

theorem clashes_liveCard {pageId : String} {firstSeenAt createdAt : Int}
    (hnew : (⟨home, cardId⟩ : CardKey) ∉ db.cards) :
    KeyTable.clashes liveCard ⟨home, cardId⟩ ⟨pageId, firstSeenAt, createdAt, none⟩ db.cards =
      false ↔
      ∀ key binding, db.cards.lookup key = some binding → key.home = home →
        binding.closedAt ≠ none := by
  rw [← Bool.not_eq_true, KeyTable.clashes_iff]
  constructor
  · intro hfree key binding hbindi hhome hopen
    refine hfree ⟨key, binding, home, ?_, hbindi, rfl, ?_⟩
    · rintro rfl
      exact hnew (KeyTable.mem_iff.mpr ⟨binding, hbindi⟩)
    · rw [liveCard, if_pos hopen, hhome]
  · rintro hclos ⟨key, binding, entry, -, hbindi, hentry, hlive⟩
    cases hentry
    unfold liveCard at hlive
    split_ifs at hlive with hopen
    exact hclos key binding hbindi (Option.some.inj hlive) hopen

theorem insertBinding_eq_ok {key : CardKey} {pageId : String} {firstSeenAt : Int} :
    db.insertBinding key pageId firstSeenAt = .ok db' ↔
      (filled key.cardId ∧ filled pageId ∧ key ∉ db.cards ∧
        KeyTable.clashes liveCard key ⟨pageId, firstSeenAt, db.tick.now, none⟩ db.cards = false) ∧
      db' = { db.tick with
        cards := db.cards.insert key ⟨pageId, firstSeenAt, db.tick.now, none⟩ } := by
  unfold insertBinding
  dsimp only
  constructor
  · intro h
    obtain ⟨u, hcheck, h⟩ := bind_ok h
    exact ⟨check_eq_ok.mp hcheck, (Except.ok.inj h).symm⟩
  · rintro ⟨hpass, rfl⟩
    have hpass' : filled key.cardId ∧ filled pageId ∧ key ∉ db.tick.cards ∧
        KeyTable.clashes liveCard key ⟨pageId, firstSeenAt, db.tick.now, none⟩ db.tick.cards =
          false := hpass
    rw [check, if_pos hpass']
    rfl

/-- What one turn of the loop leaves. -/
def boundOne (cardId : String) (home : GroupKey) (pageId : String) (row : FrontierRow)
    (db : Db) : Db :=
  { db.tick with
    frontier := db.frontier.erase home
    cards := db.cards.insert ⟨home, cardId⟩ ⟨pageId, row.firstSeenAt, db.tick.now, none⟩ }

theorem bindGroup_eq_ok (hcard : filled cardId)
    (hrow : db.frontier.lookup ⟨space, group.independenceGroupId, coverageEpoch⟩ = some row) :
    bindGroup space coverageEpoch cardId db group = .ok db' ↔ (filled group.pageId ∧
        db.Unbound cardId ⟨space, group.independenceGroupId, coverageEpoch⟩) ∧
      db' = db.boundOne cardId ⟨space, group.independenceGroupId, coverageEpoch⟩ group.pageId
        row := by
  have hmem : (⟨space, group.independenceGroupId, coverageEpoch⟩ : GroupKey) ∈ db.frontier :=
    KeyTable.mem_iff.mpr ⟨row, hrow⟩
  have hstart : bindGroup space coverageEpoch cardId db group =
      insertBinding ⟨⟨space, group.independenceGroupId, coverageEpoch⟩, cardId⟩ group.pageId
        row.firstSeenAt (db.retireFrontierRow
          ⟨space, group.independenceGroupId, coverageEpoch⟩).1 := by
    unfold bindGroup frontierFirstSeenAt retireFrontierRow requireOne
    simp only [hrow, bind, Except.bind, check, if_pos hmem, if_true]
  rw [hstart, insertBinding_eq_ok]
  constructor
  · rintro ⟨⟨-, hpage, hnew, hfree⟩, rfl⟩
    exact ⟨⟨hpage, hnew, (clashes_liveCard hnew).mp hfree⟩, rfl⟩
  · rintro ⟨⟨hpage, hnew, hclos⟩, rfl⟩
    exact ⟨⟨hcard, hpage, hnew, (clashes_liveCard hnew).mpr hclos⟩, rfl⟩

theorem unbound_boundOne {other : GroupKey} (pageId : String) (hne : other ≠ home) :
    (db.boundOne cardId home pageId row).Unbound cardId other ↔ db.Unbound cardId other := by
  have hkey : (⟨other, cardId⟩ : CardKey) ≠ ⟨home, cardId⟩ := fun heq =>
    hne (congrArg CardKey.home heq)
  unfold Unbound boundOne
  rw [AList.mem_insert, or_iff_right hkey]
  refine and_congr_right fun _ => ⟨fun h key binding hbindi hhome => ?_,
    fun h key binding hbindi hhome => ?_⟩
  · refine h key binding ?_ hhome
    rw [AList.lookup_insert_ne]
    · exact hbindi
    · rintro rfl
      exact hne hhome.symm
  · rw [AList.lookup_insert_ne] at hbindi
    · exact h key binding hbindi hhome
    · rintro rfl
      exact hne hhome.symm

theorem BoundTo.cons (hone : db.frontier.lookup
      ⟨space, group.independenceGroupId, coverageEpoch⟩ = some row)
    (hother : ∀ other ∈ groups, other.independenceGroupId ≠ group.independenceGroupId)
    (hrest : BoundTo space coverageEpoch cardId groups
      (db.boundOne cardId ⟨space, group.independenceGroupId, coverageEpoch⟩ group.pageId row)
      db') : BoundTo space coverageEpoch cardId (group :: groups) db db' := by
  have hhome : ∀ other ∈ groups, (⟨space, other.independenceGroupId, coverageEpoch⟩ : GroupKey) ≠
        ⟨space, group.independenceGroupId, coverageEpoch⟩ := fun other hmem heq =>
    hother other hmem (congrArg GroupKey.independenceGroupId heq)
  refine ⟨?_, ?_, ?_, hrest.candidates, hrest.claims, hrest.coverage, hrest.suppressions,
    hrest.quarantines⟩
  · intro other hmem
    rcases List.mem_cons.mp hmem with rfl | hmem
    · refine ⟨row, db.tick.now, hone, ?_, ?_, db.now_le_tick⟩
      · rw [hrest.frontier _ fun other hmem heq => hhome other hmem heq.symm]
        exact AList.lookup_erase _ _
      · rw [hrest.cards _ fun other hmem heq =>
          hhome other hmem (congrArg CardKey.home heq).symm]
        exact AList.lookup_insert _
    · obtain ⟨row', createdAt, hrow', hgone, hcard, hle⟩ := hrest.bound other hmem
      refine ⟨row', createdAt, ?_, hgone, hcard, db.now_le_tick.trans hle⟩
      rw [← hrow']
      exact (AList.lookup_erase_ne (hhome other hmem)).symm
  · intro key hkey
    rw [hrest.frontier key fun other hmem => hkey other (List.mem_cons_of_mem _ hmem)]
    exact AList.lookup_erase_ne (hkey group List.mem_cons_self)
  · intro key hkey
    rw [hrest.cards key fun other hmem => hkey other (List.mem_cons_of_mem _ hmem)]
    exact AList.lookup_insert_ne (hkey group List.mem_cons_self)

section Loop

variable (hcard : filled cardId)
  (hdist : (groups.map (·.independenceGroupId)).Nodup)
  (hrows : ∀ group ∈ groups,
    (⟨space, group.independenceGroupId, coverageEpoch⟩ : GroupKey) ∈ db.frontier)
include hcard hdist hrows

theorem bind_bound (h : db.bindFrontierGroupsToCard space coverageEpoch cardId groups = .ok db') :
    BoundTo space coverageEpoch cardId groups db db' := by
  unfold bindFrontierGroupsToCard at h
  induction groups generalizing db with
  | nil =>
    cases h
    exact ⟨by simp, fun _ _ => rfl, fun _ _ => rfl, rfl, rfl, rfl, rfl, rfl⟩
  | cons group groups ih =>
    rw [List.map_cons, List.nodup_cons] at hdist
    have hother : ∀ other ∈ groups, other.independenceGroupId ≠ group.independenceGroupId :=
      fun other hmem heq => hdist.1 (List.mem_map.mpr ⟨other, hmem, heq⟩)
    obtain ⟨row, hrow⟩ := KeyTable.mem_iff.mp (hrows group List.mem_cons_self)
    rw [List.foldlM_cons] at h
    obtain ⟨mid, hmid, hend⟩ := bind_ok h
    obtain ⟨-, rfl⟩ := (bindGroup_eq_ok hcard hrow).mp hmid
    refine BoundTo.cons hrow hother (ih hdist.2 ?_ hend)
    intro other hmem
    refine AList.mem_erase.mpr ⟨fun heq => ?_, hrows other (List.mem_cons_of_mem _ hmem)⟩
    exact hother other hmem (congrArg GroupKey.independenceGroupId heq)

theorem bind_ok_iff :
    (∃ db', db.bindFrontierGroupsToCard space coverageEpoch cardId groups = .ok db') ↔
      ∀ group ∈ groups, filled group.pageId ∧
        db.Unbound cardId ⟨space, group.independenceGroupId, coverageEpoch⟩ := by
  unfold bindFrontierGroupsToCard
  induction groups generalizing db with
  | nil => exact iff_of_true ⟨db, rfl⟩ (by simp)
  | cons group groups ih =>
    rw [List.map_cons, List.nodup_cons] at hdist
    have hhome : ∀ other ∈ groups, (⟨space, other.independenceGroupId, coverageEpoch⟩ : GroupKey) ≠
          ⟨space, group.independenceGroupId, coverageEpoch⟩ := fun other hmem heq =>
      hdist.1 (List.mem_map.mpr
        ⟨other, hmem, congrArg GroupKey.independenceGroupId heq⟩)
    obtain ⟨row, hrow⟩ := KeyTable.mem_iff.mp (hrows group List.mem_cons_self)
    -- The later groups meet the conditions after this turn if they did before it.
    have hrest : (∃ db', groups.foldlM (bindGroup space coverageEpoch cardId)
        (db.boundOne cardId ⟨space, group.independenceGroupId, coverageEpoch⟩ group.pageId row) =
          .ok db') ↔
        ∀ other ∈ groups, filled other.pageId ∧
          db.Unbound cardId ⟨space, other.independenceGroupId, coverageEpoch⟩ := by
      rw [ih hdist.2 fun other hmem => AList.mem_erase.mpr
        ⟨hhome other hmem, hrows other (List.mem_cons_of_mem _ hmem)⟩]
      exact forall₂_congr fun other hmem =>
        and_congr_right fun _ => unbound_boundOne _ (hhome other hmem)
    rw [List.forall_mem_cons, ← hrest]
    constructor
    · rintro ⟨db', h⟩
      rw [List.foldlM_cons] at h
      obtain ⟨mid, hmid, hend⟩ := bind_ok h
      obtain ⟨hfree, rfl⟩ := (bindGroup_eq_ok hcard hrow).mp hmid
      exact ⟨hfree, db', hend⟩
    · rintro ⟨hfree, db', hend⟩
      refine ⟨db', ?_⟩
      rw [List.foldlM_cons, (bindGroup_eq_ok hcard hrow).mpr ⟨hfree, rfl⟩]
      exact hend

end Loop

/-! ## Surfacing -/

theorem mem_belowFloorGroups {group : String} : group ∈ db.belowFloorGroups space coverageEpoch ↔
      ∃ row, db.frontier.lookup ⟨space, group, coverageEpoch⟩ = some row ∧
        row.firstSeenAt ≤ db.now - belowFloorSurfacingSeconds := by
  unfold belowFloorGroups
  rw [List.mem_map]
  constructor
  · rintro ⟨⟨key, row⟩, hmem, rfl⟩
    obtain ⟨hrow, hdue⟩ := KeyTable.mem_select.mp ((List.mem_insertionSort _).mp hmem)
    simp only [Bool.and_eq_true, beq_iff_eq, decide_eq_true_eq] at hdue
    obtain ⟨⟨rfl, rfl⟩, hdue⟩ := hdue
    exact ⟨row, hrow, hdue⟩
  · rintro ⟨row, hrow, hdue⟩
    refine ⟨⟨⟨space, group, coverageEpoch⟩, row⟩, (List.mem_insertionSort _).mpr ?_, rfl⟩
    refine KeyTable.mem_select.mpr ⟨hrow, ?_⟩
    simpa using hdue

theorem nodup_belowFloorGroups : (db.belowFloorGroups space coverageEpoch).Nodup := by
  refine List.Nodup.map_on ?_ ?_
  · rintro ⟨key, row⟩ hmem ⟨key', row'⟩ hmem' hsame
    obtain ⟨hrow, hdue⟩ := KeyTable.mem_select.mp ((List.mem_insertionSort _).mp hmem)
    obtain ⟨hrow', hdue'⟩ := KeyTable.mem_select.mp ((List.mem_insertionSort _).mp hmem')
    have hkey : key = key' := by
      cases key
      cases key'
      simp_all
    subst hkey
    rw [hrow] at hrow'
    cases hrow'
    rfl
  · rw [(List.perm_insertionSort _ _).nodup_iff]
    exact db.frontier.nodupKeys.nodup.filter _

theorem surface_ok_iff (digest : Digest) (db : Db) (space spaceId : String) (coverageEpoch : Int) :
    (∃ db' surfacing, db.surfaceBelowFloorGroups digest space spaceId coverageEpoch =
      .ok (db', surfacing)) ↔
      ∀ group ∈ db.tick.belowFloorGroups space coverageEpoch,
        db.Unbound (cardIdOf digest spaceId coverageEpoch) ⟨space, group, coverageEpoch⟩ := by
  unfold surfaceBelowFloorGroups
  dsimp only
  split_ifs with hnone
  · refine iff_of_true ⟨_, _, rfl⟩ ?_
    intro group hmem
    rw [hnone] at hmem
    cases hmem
  · obtain ⟨cardGroups, hcardG⟩ : ∃ cardGroups : List CardGroup, cardGroups =
        (db.tick.belowFloorGroups space coverageEpoch).map fun group =>
          CardGroup.mk group (pageIdOf digest (slotIdEvidenceCluster digest spaceId [group])) :=
      ⟨_, rfl⟩
    have hdist : (cardGroups.map (·.independenceGroupId)).Nodup := by
      rw [hcardG, List.map_map]
      simpa [Function.comp_def] using nodup_belowFloorGroups
    have hrows : ∀ group ∈ cardGroups,
        (⟨space, group.independenceGroupId, coverageEpoch⟩ : GroupKey) ∈ db.tick.frontier := by
      intro group hmem
      rw [hcardG] at hmem
      obtain ⟨name, hname, rfl⟩ := List.mem_map.mp hmem
      obtain ⟨row, hrow, -⟩ := mem_belowFloorGroups.mp hname
      exact KeyTable.mem_iff.mpr ⟨row, hrow⟩
    have hbind := bind_ok_iff (filled_cardIdOf digest spaceId coverageEpoch) hdist hrows
    rw [hcardG] at hbind
    rw [List.forall_mem_map] at hbind
    have hcond : (∀ group ∈ db.tick.belowFloorGroups space coverageEpoch,
        filled (pageIdOf digest (slotIdEvidenceCluster digest spaceId [group])) ∧
          db.tick.Unbound (cardIdOf digest spaceId coverageEpoch)
            ⟨space, group, coverageEpoch⟩) ↔
        ∀ group ∈ db.tick.belowFloorGroups space coverageEpoch,
          db.Unbound (cardIdOf digest spaceId coverageEpoch) ⟨space, group, coverageEpoch⟩ :=
      forall₂_congr fun group _ => and_iff_right (filled_pageIdOf _ _)
    rw [← hcond, ← hbind]
    constructor
    · rintro ⟨db', surfacing, h⟩
      obtain ⟨bound, hbound, -⟩ := bind_ok h
      exact ⟨bound, mapError_eq_ok.mp hbound⟩
    · rintro ⟨db', h⟩
      rw [h]
      exact ⟨_, _, rfl⟩

/-- Binding to the card of the space and epoch, and surfacing as its one use, succeed exactly for
groups that were never bound to this card and that no card holds. -/
theorem rebinding_succeeds_iff (digest : Digest) (db : Db) (space spaceId : String)
    (coverageEpoch : Int) : (∀ groups : List CardGroup, (groups.map (·.independenceGroupId)).Nodup →
      (∀ group ∈ groups,
        (⟨space, group.independenceGroupId, coverageEpoch⟩ : GroupKey) ∈ db.frontier) →
      ((∃ db', db.bindFrontierGroupsToCard space coverageEpoch
          (cardIdOf digest spaceId coverageEpoch) groups = .ok db' ∧
        BoundTo space coverageEpoch (cardIdOf digest spaceId coverageEpoch) groups db db') ↔
        ∀ group ∈ groups, filled group.pageId = true ∧
          db.Unbound (cardIdOf digest spaceId coverageEpoch)
            ⟨space, group.independenceGroupId, coverageEpoch⟩)) ∧
    ((∃ db' surfacing, db.surfaceBelowFloorGroups digest space spaceId coverageEpoch =
      .ok (db', surfacing)) ↔
      ∀ group ∈ db.tick.belowFloorGroups space coverageEpoch,
        db.Unbound (cardIdOf digest spaceId coverageEpoch) ⟨space, group, coverageEpoch⟩) := by
  refine ⟨fun groups hdist hrows => ?_, surface_ok_iff digest db space spaceId coverageEpoch⟩
  rw [← bind_ok_iff (filled_cardIdOf digest spaceId coverageEpoch) hdist hrows]
  refine exists_congr fun db' => and_iff_left_of_imp fun h => ?_
  exact bind_bound (filled_cardIdOf digest spaceId coverageEpoch) hdist hrows h

def oneGroup : Db where
  leases := ∅
  candidates := ∅
  claims := ∅
  coverage := ∅
  frontier := ∅
  cards := ∅
  suppressions := ∅
  quarantines := ∅
  roots := (∅ : KeyTable String ProvenanceRoot).insert "r" ⟨"g", "active", "document"⟩
  edges := [⟨"work", "r", true, none⟩]
  clock := ⟨0, fun _ => 200 * 86400⟩
  tokens := fun _ => "token"

def plainDigest : Digest := fun domain parts => domain ++ String.join parts

/-- The group is seen, surfaces on the card, is dismissed, and its suppression ends. -/
def dismissedAndLapsed : List Move :=
  [.reconcile "work" 1, .surface "work" "space" 1,
    .dismiss (cardIdOf plainDigest "space" 1) "not a topic", .lapse "work" 1]

theorem rebinding_succeeds_iff_first_time :
    (∃ db', (oneGroup.insertFrontierRow ⟨"work", "g", 1⟩).bindFrontierGroupsToCard "work" 1
        (cardIdOf plainDigest "space" 1) [⟨"g", "page"⟩] = .ok db' ∧
      BoundTo "work" 1 (cardIdOf plainDigest "space" 1) [⟨"g", "page"⟩]
        (oneGroup.insertFrontierRow ⟨"work", "g", 1⟩) db') := by
  refine ((rebinding_succeeds_iff plainDigest (oneGroup.insertFrontierRow ⟨"work", "g", 1⟩) "work"
    "space" 1).1 [⟨"g", "page"⟩] (by decide) (by decide +kernel)).mpr ?_
  intro group hmem
  obtain rfl := List.mem_singleton.mp hmem
  refine ⟨by decide, AList.notMem_empty _, fun key binding hbindi => ?_⟩
  cases hbindi

/-- The second time the group is due, the binding of the first time is in the way. -/
theorem rebinding_fails_after_lapse :
    ¬ ∀ (digest : Digest) (start db : Db) (space spaceId : String) (coverageEpoch : Int)
        (groups : List CardGroup),
      start.Fresh → Reaches (Step digest) start db →
      (groups.map (·.independenceGroupId)).Nodup →
      (∀ group ∈ groups,
        (⟨space, group.independenceGroupId, coverageEpoch⟩ : GroupKey) ∈ db.frontier) →
      (∀ group ∈ groups, filled group.pageId = true) →
      ∃ db', db.bindFrontierGroupsToCard space coverageEpoch
        (cardIdOf digest spaceId coverageEpoch) groups = .ok db' := by
  intro hclaim
  have hend : (dismissedAndLapsed.foldlM (next plainDigest) oneGroup).any (fun db =>
      decide ((⟨"work", "g", 1⟩ : GroupKey) ∈ db.frontier) &&
        (db.bindFrontierGroupsToCard "work" 1 (cardIdOf plainDigest "space" 1)
          [⟨"g", "page"⟩]).toOption.isNone) = true := by
    decide +kernel
  obtain ⟨db, hfold, hholds⟩ := (Option.any_eq_true _ _).mp hend
  rw [Bool.and_eq_true, decide_eq_true_eq] at hholds
  have hstep : ∀ s move t, (∀ s : Db, s.Allowed move) → s.next plainDigest move = some t →
      Step plainDigest s move t := fun s move t hallow h => ⟨hallow s, h⟩
  have hallow : ∀ move ∈ dismissedAndLapsed, ∀ s : Db, s.Allowed move := by
    simp [dismissedAndLapsed, Allowed]
  obtain ⟨db', h⟩ := hclaim plainDigest oneGroup db "work" "space" 1 [⟨"g", "page"⟩]
    ⟨rfl, rfl, rfl, rfl, rfl, rfl⟩ ⟨_, Run.of_foldlM hstep hallow hfold⟩ (by decide)
    (fun group hmem => by
      obtain rfl := List.mem_singleton.mp hmem
      exact hholds.1)
    (fun group hmem => by
      obtain rfl := List.mem_singleton.mp hmem
      decide)
  rw [h] at hholds
  cases hholds.2

end Db

end Wenlan.Genesis
