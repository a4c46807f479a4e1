import Mathlib.Data.String.Basic
import Wenlan.Relay.GrantSafety
import Wenlan.Support.KeysetScan

/-!
# Maintenance passes

`maintainAuthority` over the runs of the authority: a pass lists one page of the flat store behind a
saved cursor, sweeps its records, and hands out at most one external cleanup under a lease, whose
result a later transaction records.  Sweeps run side by side with every other transaction.
-/

namespace Wenlan.Relay

open Support.KeysetScan (page after_perm ahead count_page_add_ahead count_page_of_short)
open Support.Transition List

/-- What follows `start` in a key that begins with it. -/
def keyAfter (start key : String) : Option String :=
  if start.toList <+: key.toList then some (String.ofList (key.toList.drop start.toList.length))
  else none

/-- The two parts of a compound key, around its first colon. -/
def splitKey (rest : String) : Option (String × String) :=
  match rest.toList.dropWhile (· != ':') with
  | [] => none
  | _ :: second =>
    some (String.ofList (rest.toList.takeWhile (· != ':')), String.ofList second)

def families : List (String × (String → Option StoreKey)) :=
  [("pairing:", fun id => some (.pairing id)),
   ("pairing-code:", fun code => some (.pairingCode code)),
   ("pairing-lookup-miss:", fun deviceId => some (.lookupMiss deviceId)),
   ("authorization-pairing:", fun id => some (.authorizationPairing id)),
   ("oauth-request:", fun id => some (.oauthRequest id)),
   ("oauth-client:", fun rest => (splitKey rest).map fun key => .client key.1 key.2),
   ("device:", fun id => some (.device id)),
   ("connector:", fun id => some (.connector id)),
   ("mcp-session-owner:", fun digest => some (.sessionOwner digest)),
   ("mcp-session:", fun id => some (.session id)),
   ("oauth-grant:", fun rest => (splitKey rest).map fun key => .grant key.1 key.2)]

/-- The record that a key of the flat store stands for; none for the cursor, the counter of the
bounded store, and what other versions have left. -/
def recordKey (key : String) : Option StoreKey :=
  families.findSome? fun family => (keyAfter family.1 key).bind family.2

def StoreKey.text : StoreKey → String
  | .device id => "device:" ++ id
  | .connector id => "connector:" ++ id
  | .grant subject id => "oauth-grant:" ++ (subject ++ ":" ++ id)
  | .client subject digest => "oauth-client:" ++ (subject ++ ":" ++ digest)
  | .pairing id => "pairing:" ++ id
  | .pairingCode code => "pairing-code:" ++ code
  | .authorizationPairing id => "authorization-pairing:" ++ id
  | .lookupMiss deviceId => "pairing-lookup-miss:" ++ deviceId
  | .oauthRequest id => "oauth-request:" ++ id
  | .session id => "mcp-session:" ++ id
  | .sessionOwner digest => "mcp-session-owner:" ++ digest

theorem keyAfter_eq_some {start key rest : String} (h : keyAfter start key = some rest) :
    key = start ++ rest := by
  unfold keyAfter at h
  split_ifs at h with hstart
  obtain ⟨tail, htail⟩ := hstart
  cases h
  apply String.toList_injective
  rw [String.toList_append, String.toList_ofList, ← htail, drop_left]

theorem splitKey_eq_some {rest : String} {parts : String × String}
    (h : splitKey rest = some parts) : rest = parts.1 ++ ":" ++ parts.2 := by
  unfold splitKey at h
  split at h
  · cases h
  · next colon second hsecond =>
      cases h
      have hcolon : colon = ':' := by
        have hhead := head?_dropWhile_not (· != ':') rest.toList
        rw [hsecond] at hhead
        simpa using hhead
      apply String.toList_injective
      simp only [String.toList_append, String.toList_ofList]
      calc rest.toList
          = rest.toList.takeWhile (· != ':') ++ rest.toList.dropWhile (· != ':') :=
            (takeWhile_append_dropWhile).symm
        _ = rest.toList.takeWhile (· != ':') ++ ":".toList ++ second := by
            rw [hsecond, hcolon, append_assoc]
            rfl

variable {record : StoreKey}

theorem text_of_recordKey {key : String} (h : recordKey key = some record) : key = record.text := by
  obtain ⟨family, hfam, hrec⟩ := exists_of_findSome?_eq_some h
  obtain ⟨rest, hrest, hparse⟩ := Option.bind_eq_some_iff.mp hrec
  rw [keyAfter_eq_some hrest]
  have hsplit : ∀ make : String → String → StoreKey,
      ((splitKey rest).map fun parts => make parts.1 parts.2) = some record →
      ∃ first second, rest = first ++ ":" ++ second ∧ record = make first second := by
    intro make hmake
    obtain ⟨parts, hparts, rfl⟩ := Option.map_eq_some_iff.mp hmake
    exact ⟨parts.1, parts.2, splitKey_eq_some hparts, rfl⟩
  simp only [families, mem_cons, not_mem_nil, or_false] at hfam
  rcases hfam with rfl | rfl | rfl | rfl | rfl | rfl | rfl | rfl | rfl | rfl | rfl
  case inr.inr.inr.inr.inr.inl =>
    obtain ⟨subject, digest, rfl, rfl⟩ := hsplit StoreKey.client hparse
    rfl
  case inr.inr.inr.inr.inr.inr.inr.inr.inr.inr =>
    obtain ⟨subject, id, rfl, rfl⟩ := hsplit StoreKey.grant hparse
    rfl
  all_goals
    cases hparse
    rfl

theorem recordKey_inj {key key' : String} (h : recordKey key = some record)
    (h' : recordKey key' = some record) : key = key' :=
  (text_of_recordKey h).trans (text_of_recordKey h').symm

/-- `maintenance:cursor`; earlier versions saved the bare key. -/
inductive SavedCursor where
  | bare (after : String)
  | sweep (after : String) (hadRecords : Bool)

def SavedCursor.after : SavedCursor → String
  | bare after | sweep after _ => after

def SavedCursor.hadRecords : SavedCursor → Bool
  | bare after => after != ""
  | sweep _ hadRecords => hadRecords

def startAfter (saved : Option SavedCursor) : Option String :=
  (saved.map SavedCursor.after).filter (· != "")

def pageSize : Nat := 32

structure PassResult where
  checked : Nat
  more : Bool
  job : Option CleanupJob

/-- The authority under maintenance: next to its store the saved cursor, the cleanups that passes
have handed out, the last one first, and the owner texts that were digested for receipts. -/
structure Maintained where
  authority : Authority
  cursor : Option SavedCursor
  jobs : List CleanupJob
  digested : List String

namespace Maintained

def store (m : Maintained) : Store := m.authority.store

def setStore (m : Maintained) (store : Store) : Maintained :=
  { m with authority := { m.authority with store } }

def initial : Maintained := ⟨.initial, none, [], []⟩

end Maintained

section Passes

variable (hashSecret : String → String) (limit : Nat)

def listedPage (m : Maintained) (keys : List String) : List String :=
  page (startAfter m.cursor) limit keys

def listedRecords (m : Maintained) (keys : List String) : List StoreKey :=
  (listedPage limit m keys).filterMap recordKey

/-- The first transaction of `maintainAuthority`; `lease` is what `randomSecret` draws. -/
def maintainAuthority (m : Maintained) (keys : List String) (now : Nat) (lease : String) :
    Maintained × PassResult :=
  let page := listedPage limit m keys
  let records := listedRecords limit m keys
  let swept := sweepPage hashSecret m.store records now lease
  let fullPage := page.length == limit
  let hadRecords := m.cursor.any SavedCursor.hadRecords
  let hasRecords := !records.isEmpty
  ({ m.setStore swept.1 with
      cursor := some (.sweep (if fullPage then page.getLast?.getD "" else "")
        (fullPage && (hadRecords || hasRecords)))
      jobs := swept.2.toList ++ m.jobs },
    ⟨page.length, fullPage || hadRecords || hasRecords, swept.2⟩)

end Passes

/-! ## Runs -/

inductive MaintenanceOp where
  /-- A transaction on devices, consents or grants. -/
  | transaction (op : AuthorityOp)
  /-- A transaction on pairings or sessions, which leaves this store. -/
  | elsewhere (store : Store)
  /-- A pass, while the store has these keys. -/
  | maintain (keys : List String) (now : Nat) (lease : String)
  /-- The second transaction of `maintainAuthority`. -/
  | record (job : CleanupJob) (outcome : CleanupOutcome) (now : Nat)

def Store.has (store : Store) : StoreKey → Bool
  | .device id => (store.devices id).isSome
  | .connector id => (store.routes id).isSome
  | .grant subject id => (store.grants (subject, id)).isSome
  | .client subject digest => (store.clients (subject, digest)).isSome
  | .pairing id => (store.pairings id).isSome
  | .pairingCode code => (store.codes code).isSome
  | .authorizationPairing id => (store.authorizationPairings id).isSome
  | .lookupMiss deviceId => (store.misses deviceId).isSome
  | .oauthRequest id => (store.requests id).isSome
  | .session id => (store.sessions id).isSome
  | .sessionOwner digest => (store.sessionOwners digest).isSome

/-- The keys of the flat store; it may have others than those of records. -/
structure Keys (store : Store) (keys : List String) : Prop where
  distinct : keys.Nodup
  nonempty : "" ∉ keys
  records : ∀ key record, recordKey key = some record → (key ∈ keys ↔ store.has record = true)

theorem keys_of_records {store : Store} {records : List StoreKey}
    (hdist : (records.map StoreKey.text).Nodup)
    (hparse : ∀ record ∈ records, recordKey record.text = some record)
    (hhas : ∀ record, store.has record ↔ record ∈ records) :
    Keys store (records.map StoreKey.text) where
  distinct := hdist
  nonempty hmem := by
    obtain ⟨record, hrec, htext⟩ := mem_map.mp hmem
    have hsome := hparse record hrec
    have hnone : recordKey "" = none := by decide
    rw [htext, hnone] at hsome
    cases hsome
  records key record hkey := by
    rw [hhas, mem_map]
    constructor
    · rintro ⟨found, hfound, rfl⟩
      obtain rfl := Option.some.inj ((hparse found hfound).symm.trans hkey)
      exact hfound
    · intro hrec
      exact ⟨record, hrec, (text_of_recordKey hkey).symm⟩

def AuthorityOp.digested : AuthorityOp → List String
  | .claim identity grant _ _ =>
    [ownerText identity.clientId grant.connectorId grant.space grant.generation]
  | _ => []

section System

variable (hashSecret : String → String) (tunnelOrigin : String → Option String) (limit : Nat)

def maintenanceStep (m : Maintained) : MaintenanceOp → Maintained
  | .transaction op =>
    { m with
      authority := authorityStep hashSecret tunnelOrigin m.authority op
      digested := op.digested ++ m.digested }
  | .elsewhere store => m.setStore store
  | .maintain keys now lease => (maintainAuthority hashSecret limit m keys now lease).1
  | .record job outcome now => m.setStore (recordCleanup m.store job outcome now)

/-- What can happen next: a lease is drawn at random, and a result belongs to a cleanup that was
handed out. -/
def Maintained.Admits (m : Maintained) : MaintenanceOp → Prop
  | .transaction (.sweep ..) | .transaction (.recordCleanup ..) => False
  | .transaction _ => True
  | .elsewhere store => store.devices = m.store.devices ∧ store.routes = m.store.routes ∧
      store.grants = m.store.grants
  | .maintain keys _ lease => Keys m.store keys ∧ ∀ job ∈ m.jobs, job.lease ≠ lease
  | .record job _ _ => job ∈ m.jobs

def MaintenanceStep (m : Maintained) (op : MaintenanceOp) (next : Maintained) : Prop :=
  m.Admits op ∧ next = maintenanceStep hashSecret tunnelOrigin limit m op

/-- A full sweep: passes from the first key up to the one that puts the cursor back, with other
transactions in between. -/
inductive FullSweep : Maintained → List MaintenanceOp → Prop
  | last {m : Maintained} {keys : List String} {now : Nat} {lease : String}
      (hkeys : Keys m.store keys)
      (hover : startAfter (maintainAuthority hashSecret limit m keys now lease).1.cursor = none) :
      FullSweep m [.maintain keys now lease]
  | pass {m : Maintained} {keys : List String} {now : Nat} {lease : String}
      {ops : List MaintenanceOp} (hkeys : Keys m.store keys)
      (hmore : startAfter (maintainAuthority hashSecret limit m keys now lease).1.cursor ≠ none)
      (hrest : FullSweep (maintainAuthority hashSecret limit m keys now lease).1 ops) :
      FullSweep m (.maintain keys now lease :: ops)
  | other {m : Maintained} {op : MaintenanceOp} {ops : List MaintenanceOp}
      (hop : ∀ keys now lease, op ≠ .maintain keys now lease)
      (hrest : FullSweep (maintenanceStep hashSecret tunnelOrigin limit m op) ops) :
      FullSweep m (op :: ops)

/-- The records that the passes of a run examine, in order. -/
def examined (m : Maintained) : List MaintenanceOp → List StoreKey
  | [] => []
  | op :: ops =>
    (match op with
      | .maintain keys _ _ => listedRecords limit m keys
      | _ => []) ++ examined (maintenanceStep hashSecret tunnelOrigin limit m op) ops

def PresentThroughout (record : StoreKey) (m : Maintained) : List MaintenanceOp → Prop
  | [] => True
  | op :: ops => m.store.has record = true ∧
      PresentThroughout record (maintenanceStep hashSecret tunnelOrigin limit m op) ops

end System

section Sweeps

variable {hashSecret : String → String} {tunnelOrigin : String → Option String} {limit : Nat}
  {m : Maintained} {keys : List String}

theorem count_filterMap_recordKey {key : String}
    (hrec : recordKey key = some record) (keys : List String) :
    (keys.filterMap recordKey).count record = keys.count key := by
  induction keys with
  | nil => rfl
  | cons first keys ih =>
    by_cases hfirst : first = key
    · subst hfirst
      rw [filterMap_cons_some hrec, count_cons_self, count_cons_self, ih]
    · rw [count_cons_of_ne hfirst]
      cases hother : recordKey first with
      | none => rw [filterMap_cons_none hother, ih]
      | some other =>
        have hne : other ≠ record := by
          rintro rfl
          exact hfirst (recordKey_inj hother hrec)
        rw [filterMap_cons_some hother, count_cons_of_ne hne, ih]

theorem mem_of_mem_listedPage {key : String} (h : key ∈ listedPage limit m keys) : key ∈ keys :=
  (mem_filter.mp ((after_perm _ _).mem_iff.mp (mem_of_mem_take h))).1

variable (hashSecret) in
theorem startAfter_maintain (hlimit : 0 < limit) (hkeys : Keys m.store keys) (now : Nat)
    (lease : String) : ((listedPage limit m keys).length < limit ∧
      startAfter (maintainAuthority hashSecret limit m keys now lease).1.cursor = none) ∨
    ∃ last, (listedPage limit m keys).getLast? = some last ∧
      startAfter (maintainAuthority hashSecret limit m keys now lease).1.cursor = some last := by
  have hle : (listedPage limit m keys).length ≤ limit := length_take_le _ _
  by_cases hfull : (listedPage limit m keys).length = limit
  · right
    cases hlast : (listedPage limit m keys).getLast? with
    | none =>
      rw [getLast?_eq_none_iff.mp hlast, length_nil] at hfull
      omega
    | some last =>
      refine ⟨last, rfl, ?_⟩
      have hne : last ≠ "" := by
        rintro rfl
        exact hkeys.nonempty (mem_of_mem_listedPage (mem_of_getLast? hlast))
      simp [maintainAuthority, startAfter, SavedCursor.after, hfull, hlast, hne]
  · left
    refine ⟨by omega, ?_⟩
    simp [maintainAuthority, startAfter, SavedCursor.after, hfull]

theorem count_examined (hlimit : 0 < limit) {key : String}
    (hrec : recordKey key = some record) {ops : List MaintenanceOp}
    (h : FullSweep hashSecret tunnelOrigin limit m ops)
    (hpres : PresentThroughout hashSecret tunnelOrigin limit record m ops) :
    (examined hashSecret tunnelOrigin limit m ops).count record =
      ahead (startAfter m.cursor) key := by
  induction h with
  | @last m keys now lease hkeys hover =>
    have hkey := (hkeys.records key record hrec).mpr hpres.1
    simp only [examined, append_nil, listedRecords, count_filterMap_recordKey hrec]
    rcases startAfter_maintain hashSecret hlimit hkeys now lease with
      ⟨hshort, -⟩ | ⟨last, -, hsome⟩
    · exact count_page_of_short hkeys.distinct hkey hshort
    · rw [hover] at hsome
      cases hsome
  | @pass m keys now lease ops hkeys hmore hrest ih =>
    have hkey := (hkeys.records key record hrec).mpr hpres.1
    simp only [examined, count_append, listedRecords, count_filterMap_recordKey hrec]
    rcases startAfter_maintain hashSecret hlimit hkeys now lease with
      ⟨-, hnone⟩ | ⟨last, hlast, hsome⟩
    · exact absurd hnone hmore
    · have htail := ih hpres.2
      rw [hsome] at htail
      rw [← count_page_add_ahead hkeys.distinct hkey hlast, ← htail]
      rfl
  | @other m op ops hop hrest ih =>
    have htail := ih hpres.2
    cases op with
    | maintain keys now lease => exact absurd rfl (hop keys now lease)
    | transaction op =>
      exact htail
    | elsewhere store =>
      exact htail
    | record job outcome now =>
      exact htail

end Sweeps

end Wenlan.Relay
