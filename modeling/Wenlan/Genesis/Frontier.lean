import Wenlan.Genesis.Tables

/-!
# The frontier and its policy

`m6/frontier.rs` and `m6/frontier_policy.rs`: the rows of a group move between the frontier, a
card, a suppression and a quarantine.  Everything runs in a transaction of the caller, which an
error rolls back.
-/

namespace Wenlan.Genesis

open Support (KeyTable)
open Support.Fallible (check)

def suppressionSeconds : Int := 180 * 86400

def belowFloorSurfacingSeconds : Int := 7 * 86400

def nextScanMaxAheadSeconds : Int := 86400

def requireOne (affected : ℕ) (message : String) : Except FrontierPolicyError Unit :=
  check (affected = 1) (.notExactlyOne message affected)

/-- One column of an `ORDER BY`, before the rest. -/
def OrderedBy {α : Type} [LT α] (left right : α) (rest : Prop) : Prop :=
  left < right ∨ (left = right ∧ rest)

instance {α : Type} [LT α] [DecidableLT α] [DecidableEq α] (left right : α) (rest : Prop)
    [Decidable rest] : Decidable (OrderedBy left right rest) :=
  inferInstanceAs (Decidable (_ ∨ _))

namespace Db

/-- `INSERT … ON CONFLICT DO NOTHING` of a row that is seen next at once. -/
def putFrontierRow (group : GroupKey) (firstSeenAt : Int) (db : Db) : Db :=
  { db with
    frontier := KeyTable.insertIfAbsent group ⟨firstSeenAt, db.now⟩ db.frontier }

/-- The same without the `ON CONFLICT`. -/
def insertFrontier (group : GroupKey) (firstSeenAt : Int) (db : Db) :
    Except FrontierPolicyError Db := do
  let db := db.tick
  check (group ∉ db.frontier) (.database "genesis_frontier")
  return { db with frontier := db.frontier.insert group ⟨firstSeenAt, db.now⟩ }

/-- `insert_frontier_row`, the only writer of a new first time. -/
def insertFrontierRow (group : GroupKey) (db : Db) : Db :=
  db.tick.putFrontierRow group db.tick.now

/-- `retire_frontier_row`, with how many rows it removed. -/
def retireFrontierRow (group : GroupKey) (db : Db) : Db × ℕ :=
  ({ db with frontier := db.frontier.erase group }, if group ∈ db.frontier then 1 else 0)

def claimTimes (group : GroupKey) (db : Db) : List Int :=
  (KeyTable.select (fun key claim =>
    (db.candidates.lookup key.candidateId).any (fun candidate => candidate.space == group.space) &&
      claim.independenceGroupId == group.independenceGroupId &&
      claim.coverageEpoch == group.coverageEpoch) db.claims).map fun row => row.2.createdAt

/-- `restore_frontier_row`: the first claim of the group stands for its first time. -/
def restoreFrontierRow (group : GroupKey) (db : Db) : Db :=
  db.tick.putFrontierRow group ((db.claimTimes group).min?.getD db.tick.now)

def deferScan (group : GroupKey) (delaySeconds : Int) (db : Db) : Db :=
  let db := db.tick
  { db with
    frontier := KeyTable.update (fun key row =>
      if key = group then
        { row with nextScanAt := db.now + min (max delaySeconds 0) nextScanMaxAheadSeconds }
      else row) db.frontier }

def openBindings (group : GroupKey) (db : Db) : List (Σ _ : CardKey, CardBinding) :=
  KeyTable.select (fun key binding => key.home == group && binding.closedAt == none) db.cards

/-- `UPDATE … SET closed_at`, for the open bindings that a `WHERE` chooses; the table refuses a
closing before the creation. -/
def closeBindings (chosen : CardKey → Bool) (db : Db) : Option (Db × ℕ) :=
  let db := db.tick
  let rows := KeyTable.select (fun key binding => chosen key && binding.closedAt == none) db.cards
  if rows.all fun row => decide (row.2.createdAt ≤ db.now) then
    some ({ db with
      cards := KeyTable.update (fun key binding =>
        if chosen key && binding.closedAt == none then { binding with closedAt := some db.now }
        else binding) db.cards }, rows.length)
  else none

/-- `expire_card_binding_to_frontier`; nothing happens to a group without an open binding. -/
def expireCardBindingToFrontier (group : GroupKey) (db : Db) : Except GenesisError (Db × Bool) :=
  match (db.openBindings group).head? with
  | none => .ok (db, false)
  | some row => do
    let (db, closed) ← (db.closeBindings fun key => key == row.1).elim
      (.error (.vectorDb "m6 card binding close")) .ok
    check (closed = 1) (.conflict "m6 card expiry closed other than 1 binding")
    return (db.tick.putFrontierRow group row.2.firstSeenAt, true)

/-- The `INSERT` of a binding: the primary key, the checks and the one live card of a group. -/
def insertBinding (key : CardKey) (pageId : String) (firstSeenAt : Int) (db : Db) :
    Except FrontierPolicyError Db := do
  let db := db.tick
  let binding : CardBinding := ⟨pageId, firstSeenAt, db.now, none⟩
  check (filled key.cardId = true ∧ filled pageId = true ∧ key ∉ db.cards ∧
    KeyTable.clashes liveCard key binding db.cards = false) (.database "genesis_card_binding")
  return { db with cards := db.cards.insert key binding }

def frontierFirstSeenAt (group : GroupKey) (db : Db) : Except FrontierPolicyError Int :=
  match db.frontier.lookup group with
  | none => .error (.notInFrontier group)
  | some row => .ok row.firstSeenAt

structure CardGroup where
  independenceGroupId : String
  pageId : String

/-- One turn of the loop of `bind_frontier_groups_to_card`. -/
def bindGroup (space : String) (coverageEpoch : Int) (cardId : String) (db : Db)
    (group : CardGroup) : Except FrontierPolicyError Db := do
  let home : GroupKey := ⟨space, group.independenceGroupId, coverageEpoch⟩
  let firstSeenAt ← db.frontierFirstSeenAt home
  let (db, removed) := db.retireFrontierRow home
  requireOne removed "card transition did not retire exactly one frontier row"
  db.insertBinding ⟨home, cardId⟩ group.pageId firstSeenAt

def bindFrontierGroupsToCard (space : String) (coverageEpoch : Int) (cardId : String)
    (groups : List CardGroup) (db : Db) : Except FrontierPolicyError Db :=
  groups.foldlM (bindGroup space coverageEpoch cardId) db

def insertSuppression (group : GroupKey) (pageId reason : String) (firstSeenAt : Int) (db : Db) :
    Except FrontierPolicyError Db := do
  let db := db.tick
  let key : SuppressionKey := ⟨group, db.now⟩
  let row : Suppression := ⟨pageId, reason, firstSeenAt, db.now + suppressionSeconds, none⟩
  check (filled pageId = true ∧ filled reason = true ∧ key ∉ db.suppressions ∧
    KeyTable.clashes liveSuppression key row db.suppressions = false)
    (.database "genesis_suppression")
  return { db with suppressions := db.suppressions.insert key row }

def suppressFrontierGroup (group : GroupKey) (pageId reason : String) (db : Db) :
    Except FrontierPolicyError Db := do
  let firstSeenAt ← db.frontierFirstSeenAt group
  let (db, removed) := db.retireFrontierRow group
  requireOne removed "suppress transition did not retire exactly one frontier row"
  db.insertSuppression group pageId reason firstSeenAt

/-- The live suppressions that have reached their end, in the order of the scan. -/
def expiredSuppressions (space : String) (coverageEpoch : Int) (db : Db) :
    List (Σ _ : SuppressionKey, Suppression) :=
  (KeyTable.select (fun key row => key.home.space == space &&
    key.home.coverageEpoch == coverageEpoch && row.lapsedAt == none &&
    decide (row.expiresAt ≤ db.now)) db.suppressions).insertionSort fun left right =>
      OrderedBy left.2.expiresAt right.2.expiresAt
        (OrderedBy left.1.home.independenceGroupId right.1.home.independenceGroupId
          (left.1.suppressedAt ≤ right.1.suppressedAt))

/-- One turn of the loop of `reconcile_expired_suppressions`: the marker, then the row. -/
def lapse (db : Db) (expired : Σ _ : SuppressionKey, Suppression) :
    Except FrontierPolicyError Db := do
  let db := db.tick
  let due := fun key row => key == expired.1 && row.lapsedAt == none &&
    decide (row.expiresAt ≤ db.now)
  requireOne (KeyTable.select due db.suppressions).length
    "suppression lapse marker lost its live row"
  let db := { db with
    suppressions := KeyTable.update (fun key row =>
      if due key row then { row with lapsedAt := some db.now } else row) db.suppressions }
  db.insertFrontier expired.1.home expired.2.firstSeenAt

/-- `reconcile_expired_suppressions`, with how many lapsed. -/
def reconcileExpiredSuppressions (space : String) (coverageEpoch : Int) (db : Db) :
    Except FrontierPolicyError (Db × ℕ) := do
  let db := db.tick
  let expired := db.expiredSuppressions space coverageEpoch
  let db ← expired.foldlM lapse db
  return (db, expired.length)

def nextQuarantinedAt (group : GroupKey) (db : Db) : Int :=
  match ((KeyTable.select (fun key _ => key.home == group) db.quarantines).map
      fun row => row.1.quarantinedAt).max? with
  | none => db.now
  | some last => max db.now (last + 1)

def quarantineFrontierGroup (group : GroupKey) (reason : String) (db : Db) :
    Except FrontierPolicyError Db := do
  let firstSeenAt ← db.frontierFirstSeenAt group
  let (db, removed) := db.retireFrontierRow group
  requireOne removed "quarantine transition did not retire exactly one frontier row"
  let db := db.tick
  let key : QuarantineKey := ⟨group, db.nextQuarantinedAt group⟩
  let row : Quarantine := ⟨reason, firstSeenAt, none⟩
  check (filled reason = true ∧ key ∉ db.quarantines ∧
    KeyTable.clashes liveQuarantine key row db.quarantines = false)
    (.database "genesis_quarantine")
  return { db with quarantines := db.quarantines.insert key row }

def liftQuarantineToFrontier (group : GroupKey) (db : Db) : Except FrontierPolicyError Db :=
  match (KeyTable.select (fun key row => key.home == group && row.liftedAt == none)
      db.quarantines).head? with
  | none => .error (.noLiveQuarantine group)
  | some live => do
    let db := db.tick
    let lifting := fun key row => key == live.1 && row.liftedAt == none
    requireOne (KeyTable.select lifting db.quarantines).length
      "quarantine lift marker lost its live row"
    let db := { db with
      quarantines := KeyTable.update (fun key row =>
        if lifting key row then { row with liftedAt := some (max db.now key.quarantinedAt) }
        else row) db.quarantines }
    db.insertFrontier group live.2.firstSeenAt

def openCardBindings (cardId : String) (db : Db) : List (Σ _ : CardKey, CardBinding) :=
  (KeyTable.select (fun key binding => key.cardId == cardId && binding.closedAt == none)
    db.cards).insertionSort fun left right =>
      OrderedBy left.1.home.space right.1.home.space
        (OrderedBy left.1.home.coverageEpoch right.1.home.coverageEpoch
          (left.1.home.independenceGroupId ≤ right.1.home.independenceGroupId))

/-- `dismiss_card_to_suppression`: every open binding of the card closes, and every group of
these is suppressed. -/
def dismissCardToSuppression (cardId reason : String) (db : Db) : Except FrontierPolicyError Db :=
  let bindings := db.openCardBindings cardId
  if bindings = [] then .ok db
  else do
    let (db, closed) ← (db.closeBindings fun key => key.cardId == cardId).elim
      (.error (.database "genesis_card_binding")) .ok
    check (closed = bindings.length) (.closedCount cardId bindings.length closed)
    bindings.foldlM (fun db row =>
      db.insertSuppression row.1.home row.2.pageId reason row.2.firstSeenAt) db

def eligibleGroups (space : String) (db : Db) : List String :=
  distinctSorted (db.edges.filterMap fun edge =>
    match db.roots.lookup edge.rootId with
    | some root =>
      if edge.space = space ∧ edge.grounded = true ∧ edge.validUntil = none ∧
        root.status = "active" ∧ root.rootKind ≠ "generated" then
        some root.independenceGroupId
      else none
    | none => none)

/-- A candidate of the space has an unreleased concept claim on the group. -/
def reserved (group : GroupKey) (db : Db) : Bool :=
  db.claims.entries.any fun row =>
    (db.candidates.lookup row.1.candidateId).any (fun candidate =>
      candidate.space == group.space) &&
    row.2.independenceGroupId == group.independenceGroupId &&
    row.2.coverageEpoch == group.coverageEpoch && decide row.2.exclusive

def carded (group : GroupKey) (db : Db) : Bool :=
  db.cards.entries.any fun row => liveCard row.1 row.2 == some group

def suppressed (group : GroupKey) (db : Db) : Bool :=
  db.suppressions.entries.any fun row => liveSuppression row.1 row.2 == some group

def quarantined (group : GroupKey) (db : Db) : Bool :=
  db.quarantines.entries.any fun row => liveQuarantine row.1 row.2 == some group

def reasons (group : GroupKey) (db : Db) : List Bool :=
  [decide (group ∈ db.coverage), db.reserved group, decide (group ∈ db.frontier),
    db.carded group, db.suppressed group, db.quarantined group]

/-- The `reason_count` of one group. -/
def reasonCount (group : GroupKey) (db : Db) : ℕ := (db.reasons group).count true

def reasonCounts (space : String) (coverageEpoch : Int) (db : Db) : List (String × ℕ) :=
  (db.eligibleGroups space).map fun group => (group, db.reasonCount ⟨space, group, coverageEpoch⟩)

structure ReconcileOutcome where
  repaired : List String
  lapsedSuppressions : ℕ
  examined : ℕ

def reconcileSpace (space : String) (coverageEpoch : Int) (db : Db) :
    Except GenesisError (Db × ReconcileOutcome) := do
  let (db, lapsedSuppressions) ← (db.reconcileExpiredSuppressions space coverageEpoch).mapError
      (.policy "m6 suppression lapse")
  let accounting := db.reasonCounts space coverageEpoch
  let doubleBooked := accounting.filter fun group => 1 < group.2
  check (doubleBooked = []) (.doubleBooked space coverageEpoch doubleBooked)
  let repaired := (accounting.filter fun group => group.2 = 0).map (·.1)
  let db := repaired.foldl (fun db group =>
    db.insertFrontierRow ⟨space, group, coverageEpoch⟩) db
  return (db, ⟨repaired, lapsedSuppressions, accounting.length⟩)

def belowFloorGroups (space : String) (coverageEpoch : Int) (db : Db) : List String :=
  ((KeyTable.select (fun key row => key.space == space && key.coverageEpoch == coverageEpoch &&
    decide (row.firstSeenAt ≤ db.now - belowFloorSurfacingSeconds))
    db.frontier).insertionSort fun left right =>
      OrderedBy left.2.firstSeenAt right.2.firstSeenAt
        (left.1.independenceGroupId ≤ right.1.independenceGroupId)).map
    fun row => row.1.independenceGroupId

end Db

/-- `m6_digest` of a domain and parts, all of them texts here. -/
abbrev Digest := String → List String → String

/-- `card_id`. -/
def cardIdOf (digest : Digest) (spaceId : String) (coverageEpoch : Int) : String :=
  "m6_unformed_topic_" ++ digest "m6-card-space-v1" [spaceId] ++ "_" ++ toString coverageEpoch

def sortedSet (items : List String) : List String :=
  toString (distinctSorted items).length :: distinctSorted items

def slotIdEvidenceCluster (digest : Digest) (spaceId : String) (groups : List String) : String :=
  digest "m6-slot-v1" ([SignalKind.evidenceCluster.tag, spaceId] ++ sortedSet groups)

/-- `page_id`. -/
def pageIdOf (digest : Digest) (slotId : String) : String :=
  "m6p_" ++ digest "m6-page-v1" [slotId]

namespace Db

/-- What a pass bound to the one card of the space and epoch. -/
structure Surfacing where
  cardId : String
  groups : List String

def surfaceBelowFloorGroups (digest : Digest) (space spaceId : String) (coverageEpoch : Int)
    (db : Db) : Except GenesisError (Db × Option Surfacing) :=
  let db := db.tick
  let groups := db.belowFloorGroups space coverageEpoch
  if groups = [] then .ok (db, none)
  else do
    let cardId := cardIdOf digest spaceId coverageEpoch
    let cardGroups := groups.map fun group =>
      CardGroup.mk group (pageIdOf digest (slotIdEvidenceCluster digest spaceId [group]))
    let db ← (db.bindFrontierGroupsToCard space coverageEpoch cardId cardGroups).mapError
      (.policy "m6 below-floor binding")
    return (db, some ⟨cardId, groups⟩)

end Db

end Wenlan.Genesis
